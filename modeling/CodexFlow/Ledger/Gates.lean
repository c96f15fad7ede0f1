import CodexFlow.Ledger.Replay
import CodexFlow.Lib.Waiting

/-!
# Successor gates

An unreleased authorization makes its successor wait for its source. The waiting graph of a run
stays acyclic, and no set of queued dispatches stalls, exactly when no accepted authorization
closes a way back.
-/

namespace CodexFlow.Ledger

open Checked DispatchRows Relation

variable {env : Env} {L L' : Ledger} {keys : List DispatchId} {dispatchId : DispatchId}
  {r r' : DispatchRows} {op : Op} {source successor : DispatchId} {now : Time}

def Gates (L : Ledger) (source successor : DispatchId) : Prop :=
  ∃ r, L.dispatches.get? source = some r ∧ successor ∈ r.waits

/-- What `authorize_successor` asks of its two dispatches. -/
def Authorizes (L : Ledger) (source successor : DispatchId) : Prop :=
  source ≠ "" ∧ successor ≠ "" ∧ source ≠ successor ∧
    ∃ r s, L.dispatches.get? source = some r ∧ L.dispatches.get? successor = some s ∧
      r.queue.state ∉ [.resultSubmitted, .finalizing, .completed, .failed, .cancelled] ∧
      s.queue.state = .queued

/-- An authorization whose successor already gates its source, through any number of others. -/
def ClosesCycle (L : Ledger) : Op → Prop
  | .authorizeSuccessor source successor _ =>
    Authorizes L source successor ∧ ReflTransGen (Gates L) successor source
  | _ => False

/-! ### Authorizations -/

theorem waits_iff : successor ∈ r.waits ↔
    ∃ a ∈ r.successors, a.successorDispatchId = successor ∧ a.releasedAt = none := by
  simp only [waits, List.mem_map, List.mem_filter, Option.isNone_iff_eq_none]
  constructor
  · rintro ⟨a, ⟨ha, hreleased⟩, hid⟩
    exact ⟨a, ha, hid, hreleased⟩
  · rintro ⟨a, ha, hid, hreleased⟩
    exact ⟨a, ⟨ha, hreleased⟩, hid⟩

theorem isNonterminal_of_authorizes {s : QueueState}
    (h : s ∉ [.resultSubmitted, .finalizing, .completed, .failed, .cancelled]) :
    s.isNonterminal := by
  cases s <;> revert h <;> decide

theorem authorized_valid (hvalid : r.Valid env keys dispatchId)
    (hnew : ∀ a ∈ r.successors, a.successorDispatchId ≠ successor)
    (hne : successor ≠ dispatchId) (hkey : successor ∈ keys) :
    DispatchRows.Valid env keys dispatchId
      { r with successors := r.successors ++ [⟨successor, now, none⟩] } where
  integrity := hvalid.integrity
  result := hvalid.result
  capability := hvalid.capability
  queue := hvalid.queue
  outbox := hvalid.outbox
  liveness := hvalid.liveness
  successors := by
    obtain ⟨hnodup, hall⟩ := hvalid.successors
    constructor
    · rw [List.map_append, List.map_singleton, ← List.concat_eq_append, List.nodup_concat]
      refine ⟨fun hmem => ?_, hnodup⟩
      obtain ⟨a, ha, hid⟩ := List.mem_map.1 hmem
      exact hnew a ha hid
    · intro a ha
      obtain ha | ha := List.mem_append.1 ha
      · exact hall a ha
      · obtain rfl := List.mem_singleton.1 ha
        exact ⟨hne, hkey, fun h => absurd h Bool.false_ne_true⟩
  wakes := hvalid.wakes
  recovery := hvalid.recovery
  policy := hvalid.policy
  controls := hvalid.controls
  decisions := hvalid.decisions

/-- An authorization is let through: the successor waits too. -/
theorem next_authorize (hL : L.Valid env) (h : Authorizes L source successor) (now : Time)
    (hr : L.dispatches.get? source = some r) :
    ∃ r', (L.next env (.authorizeSuccessor source successor now)).dispatches.get? source = some r' ∧
      successor ∈ r'.waits ∧ ∀ d ∈ r.waits, d ∈ r'.waits := by
  obtain ⟨hsource, hsuccessor, hne, r₀, s, hr₀, hs, hstate, hqueued⟩ := h
  rw [Option.some.inj (hr₀.symm.trans hr)] at hstate
  have hvalid := hL.rows hr
  have hbody : ∀ r', (if r.successors.any (·.successorDispatchId = successor) then r
      else { r with successors := r.successors ++ [⟨successor, now, none⟩] }) = r' →
      L.body env (.authorizeSuccessor source successor now) =
        .ok { L with dispatches := L.dispatches.set source r' } := by
    rintro r' rfl
    simp only [body, authorizeSuccessor, hs, checks_ok]
    refine ⟨⟨hsource, hsuccessor, hne⟩, onDispatch_ok.2 ⟨r, _, hr, ?_, rfl⟩⟩
    simp only [steps_ok]
    exact ⟨hstate, hqueued, trivial⟩
  have haccepted : ∀ r', L.body env (.authorizeSuccessor source successor now) =
      .ok { L with dispatches := L.dispatches.set source r' } →
      r'.Valid env L.dispatches.keys source →
      (L.next env (.authorizeSuccessor source successor now)).dispatches.get? source = some r' := by
    intro r' hok hvalid'
    have hperform := perform_ok.2 ⟨hL, hok, valid_set hL hvalid'⟩
    unfold next
    rw [hperform]
    exact Table.get?_set_self hr r'
  by_cases hold : r.successors.any (·.successorDispatchId = successor)
  · refine ⟨r, haccepted r (hbody r (if_pos hold)) hvalid, ?_, fun _ hd => hd⟩
    obtain ⟨a, ha, hid⟩ := List.any_eq_true.1 hold
    refine waits_iff.2 ⟨a, ha, of_decide_eq_true hid, ?_⟩
    -- only an ended dispatch has released its successors
    by_contra hreleased
    have hterminal := (hvalid.successors.2 a ha).2.2 (Option.isSome_iff_ne_none.2 hreleased)
    exact Life.isTerminal_of_isNonterminal (isNonterminal_of_authorizes hstate) hterminal
  · refine ⟨_, haccepted _ (hbody _ (if_neg hold)) (authorized_valid hvalid (fun a ha hid => ?_)
      hne.symm (Table.mem_keys_of_get? hs)), ?_, fun d hd => ?_⟩
    · exact hold (List.any_eq_true.2 ⟨a, ha, decide_eq_true hid⟩)
    · rw [waits_append]
      exact List.mem_append_right _ List.mem_cons_self
    · rw [waits_append]
      exact List.mem_append_left _ hd

theorem authorizes_of_ok (h : L.authorizeSuccessor source successor now = .ok L') :
    Authorizes L source successor := by
  simp only [authorizeSuccessor, checks_ok] at h
  obtain ⟨⟨hsource, hsuccessor, hne⟩, h⟩ := h
  split at h
  · cases h
  rename_i s hs
  obtain ⟨r, r', hr, hbody, -⟩ := onDispatch_ok.1 h
  simp only [checks_ok] at hbody
  exact ⟨hsource, hsuccessor, hne, r, s, hr, hs, hbody.1, hbody.2.1⟩

/-! ### The waiting graph of a step -/

/-- A call adds at most the edge of the authorization that it is. -/
theorem gates_of_next (hL : L.Good env) {a b : DispatchId} (h : Gates (L.next env op) a b) :
    Gates L a b ∨ ∃ now, op = .authorizeSuccessor a b now := by
  obtain ⟨r', hr', hwaits⟩ := h
  cases hr : L.dispatches.get? a with
  | none =>
    obtain ⟨q, sequence, now, rfl⟩ := next_new op hr hr'
    exact absurd hwaits List.not_mem_nil
  | some r =>
    obtain ⟨r₁, hr₁, hstep, htarget⟩ := next_step hL op hr
    obtain rfl : r₁ = r' := Option.some.inj (hr₁.symm.trans hr')
    obtain hold | hcause := hstep.waits hwaits
    · exact .inl ⟨r, hr, hold⟩
    obtain ⟨source, now, rfl⟩ := Op.eq_authorizeSuccessor hcause
    obtain htarget | rfl := htarget
    · obtain rfl : source = a := by simpa [Op.target] using htarget
      exact .inr ⟨now, rfl⟩
    · exact .inl ⟨r₁, hr, hwaits⟩

/-- An accepted authorization keeps every edge. -/
theorem gates_authorize (hL : L.Good env) (h : Authorizes L source successor) (now : Time)
    {a b : DispatchId} (hab : Gates L a b) :
    Gates (L.next env (.authorizeSuccessor source successor now)) a b := by
  obtain ⟨r, hr, hwaits⟩ := hab
  by_cases ha : a = source
  · subst ha
    obtain ⟨r', hr', -, hkept⟩ := next_authorize hL.to_valid h now hr
    exact ⟨r', hr', hkept b hwaits⟩
  · obtain ⟨r', hr', -, htarget⟩ := next_step hL (.authorizeSuccessor source successor now) hr
    obtain htarget | rfl := htarget
    · exact absurd (by simpa [Op.target] using htarget : source = a).symm ha
    · exact ⟨r', hr', hwaits⟩

theorem next_acyclic_iff (hL : L.Good env) (hacyclic : Waiting.Acyclic (Gates L)) (op : Op) :
    Waiting.Acyclic (Gates (L.next env op)) ↔ ¬ClosesCycle L op := by
  constructor
  · intro hnext hcloses
    cases op with
    | authorizeSuccessor source successor now =>
      obtain ⟨hauthorizes, hback⟩ := hcloses
      obtain ⟨-, -, -, r, -, hr, -⟩ := id hauthorizes
      obtain ⟨r', hr', hwaits, -⟩ := next_authorize hL.to_valid hauthorizes now hr
      have hkept := ReflTransGen.mono (fun a b => gates_authorize hL hauthorizes now)
        successor source hback
      exact hnext source (TransGen.head' ⟨r', hr', hwaits⟩ hkept)
    | _ => exact hcloses
  · intro hcloses
    obtain hsame | ⟨-, hbody, -⟩ := next_cases env L op
    · rw [hsame]
      exact hacyclic
    by_cases hgate : ∃ source successor now, op = .authorizeSuccessor source successor now
    · obtain ⟨source, successor, now, rfl⟩ := hgate
      have hback : ¬ReflTransGen (Gates L) successor source :=
        fun hback => hcloses ⟨authorizes_of_ok hbody, hback⟩
      refine ((Waiting.acyclic_insertEdge hacyclic).2 hback).mono fun a b hab => ?_
      obtain hold | ⟨later, hop⟩ := gates_of_next hL hab
      · exact .inl hold
      · cases hop
        exact .inr ⟨rfl, rfl⟩
    · refine hacyclic.mono fun a b hab => ?_
      obtain hold | ⟨later, hop⟩ := gates_of_next hL hab
      · exact hold
      · exact absurd ⟨a, b, later, hop⟩ hgate

/-! ### Runs -/

/-- The waiting graph has no cycle, and no set of queued dispatches waits within itself. -/
def StallFree (L : Ledger) : Prop :=
  Waiting.Acyclic (Gates L) ∧
    ∀ nodes : Finset DispatchId, nodes.Nonempty →
      (∀ d ∈ nodes, ∃ r, L.dispatches.get? d = some r ∧ r.queue.state = .queued) →
      ¬∀ b ∈ nodes, ∃ a ∈ nodes, Gates L a b

theorem stallFree_iff : StallFree L ↔ Waiting.Acyclic (Gates L) := by
  refine ⟨fun h => h.1, fun h => ⟨h, fun nodes hne _ hall => ?_⟩⟩
  obtain ⟨b, hb, hfree⟩ := h.exists_free hne
  obtain ⟨a, ha, hab⟩ := hall b hb
  exact hfree a ha hab

theorem acyclic_empty : Waiting.Acyclic (Gates {}) := by
  intro d h
  obtain ⟨e, ⟨r, hr, -⟩, -⟩ := TransGen.head'_iff.1 h
  cases hr

/-- The queue stays free of stalls in a run exactly when no authorization of the run closes a
cycle. -/
theorem stallFree_iff_no_cycle_closed (env : Env) (ops : List Op) :
    Machine.Always (next env) StallFree {} ops ↔
      Machine.Along (next env) (fun L op => ¬ClosesCycle L op) {} ops := by
  refine Machine.always_iff_along (I := Good env) (fun L op hL => next_good hL op)
    (fun L op hL hfree => ?_) (good_empty env) (stallFree_iff.2 acyclic_empty) ops
  rw [stallFree_iff]
  exact next_acyclic_iff hL (stallFree_iff.1 hfree) op

/-- Two queued dispatches, each authorized as the successor of the other. -/
def crossed : List Op :=
  enqueued ++ [.enqueue "run/m2/reviewer/1" { sampleRequest with milestoneId := "m2" } 1,
    .authorizeSuccessor sampleId "run/m2/reviewer/1" 2,
    .authorizeSuccessor "run/m2/reviewer/1" sampleId 3]

def waitsOf (L : Ledger) (d : DispatchId) : List DispatchId :=
  ((L.dispatches.get? d).map (·.waits)).getD []

theorem crossed_waitsOf :
    waitsOf (Machine.run (next .sample) {} crossed) sampleId = ["run/m2/reviewer/1"] ∧
      waitsOf (Machine.run (next .sample) {} crossed) "run/m2/reviewer/1" = [sampleId] := by
  decide +kernel

theorem gates_of_waitsOf (h : successor ∈ waitsOf L source) : Gates L source successor := by
  unfold waitsOf at h
  cases hr : L.dispatches.get? source with
  | none =>
    rw [hr] at h
    exact absurd h List.not_mem_nil
  | some r =>
    rw [hr] at h
    exact ⟨r, hr, h⟩

/-- The two dispatches wait for each other. -/
theorem crossed_stalls :
    ¬∀ (env : Env) (ops : List Op), Machine.Always (next env) StallFree {} ops := by
  intro h
  obtain ⟨hfirst, hsecond⟩ := crossed_waitsOf
  have hto : Gates (Machine.run (next .sample) {} crossed) sampleId "run/m2/reviewer/1" :=
    gates_of_waitsOf (by rw [hfirst]; exact List.mem_cons_self)
  have hback : Gates (Machine.run (next .sample) {} crossed) "run/m2/reviewer/1" sampleId :=
    gates_of_waitsOf (by rw [hsecond]; exact List.mem_cons_self)
  exact (h .sample crossed crossed List.prefix_rfl).1 sampleId (.head hto (.single hback))

end CodexFlow.Ledger
