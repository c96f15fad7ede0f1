import CodexFlow.Programs.Stages
import CodexFlow.Programs.Transitions

/-!
# The current candidate

The candidate of a milestone is the newest one that its journal names, and a fact that the journal
has already is not written again. A candidate that was superseded may return only by a newer
generation of the executor.
-/

namespace CodexFlow.Programs

open Ledger (Time)
open Checked

variable {digests : Digests} {P : Program} {m m' : Milestone} {id c : String} {now : Time}
  {fact : Fact} {call : Call}

/-! ### One fact -/

theorem candidateSha_recordFact : (m.recordFact fact).candidateSha =
    if fact ∈ m.lifecycle then m.candidateSha else fact.candidateSha?.or m.candidateSha :=
  Journal.latest_record

theorem candidateSha_recordFact_cases (m : Milestone) (fact : Fact) :
    (m.recordFact fact).candidateSha = m.candidateSha ∨
      (m.recordFact fact).candidateSha = fact.candidateSha? := by
  rw [candidateSha_recordFact]
  split_ifs
  · exact .inl rfl
  · cases fact.candidateSha?
    · exact .inl rfl
    · exact .inr rfl

theorem candidateSha_recordFact_none (fact : Fact) (h : fact.candidateSha? = none) :
    (m.recordFact fact).candidateSha = m.candidateSha :=
  Journal.latest_record_of_none h

theorem candidateSha_recordFact_self (h : fact.candidateSha? = m.candidateSha) :
    (m.recordFact fact).candidateSha = m.candidateSha := by
  obtain hsame | hsame := candidateSha_recordFact_cases m fact
  · exact hsame
  · exact hsame.trans h

theorem candidateSha_recordFact_new (hnew : fact ∉ m.lifecycle) (h : fact.candidateSha? = some c) :
    (m.recordFact fact).candidateSha = some c := by
  rw [candidateSha_recordFact, if_neg hnew, h]
  rfl

theorem recordFact_lifecycle_of_mem (h : fact ∈ m.lifecycle) :
    (m.recordFact fact).lifecycle = m.lifecycle :=
  Journal.record_of_mem h

theorem candidateSha_of_subject {s : Subject} (h : m.subject = some s) :
    s.candidateSha? = none ∨ s.candidateSha? = m.candidateSha := by
  unfold Milestone.subject Milestone.candidateSha programSubject programCandidateSha at *
  generalize m.lifecycle = facts at *
  induction facts using List.reverseRecOn with
  | nil => cases h
  | append_singleton facts fact ih =>
    rw [Journal.latest_append_singleton] at h ⊢
    unfold Fact.subject? at h
    cases hc : fact.candidateSha? with
    | some c =>
      rw [hc] at h
      obtain rfl := Option.some.inj h
      exact .inr rfl
    | none =>
      rw [hc] at h
      cases he : fact.evidenceSha256? with
      | some e =>
        rw [he] at h
        obtain rfl := Option.some.inj h
        exact .inl rfl
      | none =>
        rw [he] at h
        exact ih h

theorem candidateSha_promote {s : Subject} (ids : List String) (hs : m.subject = some s) :
    (m.promote s ids).candidateSha = m.candidateSha := by
  unfold Milestone.promote
  split_ifs
  · rfl
  · obtain hnone | hsame := candidateSha_of_subject hs
    · exact candidateSha_recordFact_none _ hnone
    · exact candidateSha_recordFact_self hsame

/-- The last fact of a result is new and about its candidate. -/
theorem candidateSha_recordResult {q : ExecutorResult} {predecessor : Option String}
    (hfresh : m.terminalOf q.dispatchId = none) (hlifecycle : m'.lifecycle = m.lifecycle)
    (hc : q.candidateSha = some c) : (m'.recordResult q predecessor).candidateSha = some c := by
  have hnew : .executorTerminal q.terminalFact ∉ m.lifecycle := by
    intro hmem
    have hnone := Journal.latest_eq_none.1 hfresh _ hmem
    have hdispatch : q.terminalFact.dispatchId = q.dispatchId := rfl
    simp [Fact.executorTerminal?, hdispatch] at hnone
  have hrecorded : ∀ fact : Fact, fact.executorTerminal? = none → ∀ {m : Milestone},
      .executorTerminal q.terminalFact ∉ m.lifecycle →
        .executorTerminal q.terminalFact ∉ (m.recordFact fact).lifecycle := by
    intro fact hfact m hm hmem
    obtain hmem | rfl := Journal.mem_record.1 hmem
    · exact hm hmem
    · cases hfact
  have hlast : .executorTerminal q.terminalFact ∉ ((m'.recordFact
      (.executorCandidate q.terminalFact)).supersede predecessor (q.candidateSha.getD "")
        q.dispatchId).lifecycle := by
    have hcandidate := hrecorded (.executorCandidate q.terminalFact) rfl (hlifecycle ▸ hnew)
    unfold Milestone.supersede
    split
    · exact hcandidate
    · exact hrecorded _ rfl hcandidate
  exact candidateSha_recordFact_new hlast hc

theorem resultPredecessor_none {q : ExecutorResult} {predecessor : Option String}
    (h : m.resultPredecessor q = .ok predecessor) (hc : q.candidateSha = none) :
    m.candidateSha = none ∧ predecessor = none := by
  unfold Milestone.resultPredecessor at h
  split at h
  · exact ⟨‹_›, (pure_eq_ok.1 h).symm⟩
  · rw [if_neg (by rw [hc]; exact (nomatch ·))] at h
    simp [bind_eq_ok, ensure_eq_ok, hc] at h

theorem Program.Reports.candidateSha {q : ExecutorResult} (h : Program.Reports q m m') :
    m'.candidateSha = q.candidateSha := by
  obtain ⟨closed, predecessor, hclosed, hpredecessor, rfl⟩ := h.result
  have hlifecycle : closed.lifecycle = m.lifecycle := by
    obtain ⟨-, rfl⟩ | ⟨-, rfl, -⟩ := Milestone.closeExecution_ok hclosed <;> rfl
  cases hc : q.candidateSha with
  | some c => exact candidateSha_recordResult h.fresh hlifecycle hc
  | none =>
    obtain ⟨hnone, rfl⟩ := resultPredecessor_none hpredecessor hc
    have hclosedNone : closed.candidateSha = none := by
      unfold Milestone.candidateSha at hnone ⊢
      rw [hlifecycle]
      exact hnone
    show ((closed.recordFact _).recordFact _).candidateSha = none
    rw [candidateSha_recordFact_none (.executorTerminal q.terminalFact) hc,
      candidateSha_recordFact_none (.executorCandidate q.terminalFact) hc, hclosedNone]

theorem Program.Adopts.candidateSha {q : Adoption} {commit : String}
    (h : P.Adopts digests id q commit now m m') :
    m'.candidateSha = some commit ∨ m'.lifecycle = m.lifecycle := by
  obtain ⟨predecessor, moved, adopted, dispatchId, -, hmoved, hadopted, rfl⟩ := h.result
  have hmove : moved.lifecycle = m.lifecycle := by
    obtain ⟨-, -, hlaunch, -⟩ | ⟨-, hleave, -⟩ := hmoved
    · obtain ⟨-, dispatches, rfl, -⟩ := Milestone.launchAdopted_ok hlaunch
      rfl
    · obtain ⟨rfl, -⟩ | ⟨-, -, rfl⟩ := Milestone.leaveFor_ok hleave <;> rfl
  have hadopt : adopted.candidateSha = some commit ∨ adopted.lifecycle = m.lifecycle := by
    have hrows : adopted.lifecycle = (moved.adopt q commit dispatchId (q.inheritedStatus m)
        (q.terminalBlocker m)).lifecycle := by
      obtain rfl | ⟨-, r, rfl⟩ := Milestone.adoptOutcome_ok hadopted <;> rfl
    unfold Milestone.candidateSha
    rw [hrows]
    by_cases hknown : .candidateAdopted
        { candidateSha := commit
          candidateDisposition := q.candidate.disposition
          candidateWorkspace := q.candidate.toCandidateWorkspace
          dispatchId := dispatchId
          terminalStatus := q.inheritedStatus m
          blocker := q.terminalBlocker m
          adoptionReceipt := q.receipt } ∈ moved.lifecycle
    · exact .inr ((recordFact_lifecycle_of_mem hknown).trans hmove)
    · exact .inl (candidateSha_recordFact_new hknown rfl)
  unfold Milestone.supersede
  split
  · exact hadopt
  · rename_i p
    by_cases hknown : .candidateSuperseded p commit dispatchId ∈ adopted.lifecycle
    · unfold Milestone.candidateSha
      rw [recordFact_lifecycle_of_mem hknown]
      exact hadopt
    · exact .inl (candidateSha_recordFact_new hknown rfl)

theorem closeOutcome_lifecycle {q : Closure} (h : m.closeOutcome digests P id q now = .ok m') :
    m'.lifecycle = m.lifecycle := by
  rw [Program.closeOutcome_state h]

/-! ### Calls that name a candidate -/

def Call.records : Call → Option (String × String)
  | .recordCandidate id c => some (id, c)
  | .adopt id q => q.candidate.commitSha.map (id, ·)
  | .executorResult id q => q.candidateSha.map (id, ·)
  | .reconcile id q => some (id, q.candidateSha)
  | _ => none

def Call.milestoneId? : Call → Option String
  | .recordCandidate id _ | .adopt id _ | .executorResult id _ | .reconcile id _ => some id
  | .closeNode id _ | .integration id _ _ _ => some id
  | _ => none

/-- The candidate that a call writes a fact about, when the rows of the milestone do not answer the
call, with the executor generation that it records the candidate under. -/
def Call.names (m : Milestone) : Call → Option (String × Option ℕ)
  | .recordCandidate _ c => some (c, none)
  | .adopt _ q => q.candidate.commitSha.map (·, q.dispatchId.bind (·.executorGeneration?))
  | .executorResult _ q =>
    if (m.terminalOf q.dispatchId).isSome then none
    else q.candidateSha.map (·, q.dispatchId.bind (·.executorGeneration?))
  | .reconcile _ q =>
    if (m.reconciledOf q.candidateSha).isSome then none else some (q.candidateSha, none)
  | .closeNode _ q =>
    if m.promotedAlready q.subject then none else q.subject.candidateSha?.map (·, none)
  | .integration _ c _ state =>
    if state = .applied ∧ (m.integrationOf c).any (·.isPending) then some (c, none) else none
  | _ => none

namespace Milestone.Step

/-- A call leaves the candidate or makes the one that it names current. -/
theorem candidate_call (h : m.Step digests P id now (.call call) m') :
    m'.candidateSha = m.candidateSha ∨
      ∃ c g, call.milestoneId? = some id ∧ call.names m = some (c, g) ∧ m'.candidateSha = some c := by
  cases h with
  | rests _ _ h =>
    left
    unfold Milestone.candidateSha
    rw [h.lifecycle]
  | records c hsha hnew =>
    obtain hsame | hsame := candidateSha_recordFact_cases m (.candidateRecorded c)
    · exact .inl hsame
    · exact .inr ⟨c, none, rfl, rfl, hsame⟩
  | adopts q commit m' h =>
    obtain hcommit | hsame := h.candidateSha
    · refine .inr ⟨commit, q.dispatchId.bind (·.executorGeneration?), rfl, ?_, hcommit⟩
      show q.candidate.commitSha.map _ = _
      rw [h.sha]
      rfl
    · left
      unfold Milestone.candidateSha
      rw [hsame]
  | reports q m' h =>
    have hresult := h.candidateSha
    cases hc : q.candidateSha with
    | none =>
      obtain ⟨closed, predecessor, -, hpredecessor, -⟩ := h.result
      left
      rw [hresult, hc, (resultPredecessor_none hpredecessor hc).1]
    | some c =>
      refine .inr ⟨c, q.dispatchId.bind (·.executorGeneration?), rfl, ?_, hresult.trans hc⟩
      show (if _ then none else q.candidateSha.map _) = _
      rw [h.fresh, hc]
      rfl
  | reconciles q m' h =>
    obtain rfl := h.result
    obtain hsame | hsame := candidateSha_recordFact_cases (m.moveTo q.target)
      (.candidateReconciled q.fact)
    · exact .inl hsame
    · refine .inr ⟨q.candidateSha, none, rfl, ?_, hsame⟩
      show (if _ then none else some _) = _
      rw [h.fresh]
      rfl
  | manifests q queue m' hruntime h =>
    left
    unfold Milestone.candidateSha
    rw [Program.recordManifest_keeps h]
  | evidences q queue m' h =>
    obtain ⟨recorded, hrecorded, -, rfl⟩ := h.result
    left
    rw [candidateSha_recordFact_none (.executorTerminal _) rfl,
      candidateSha_recordFact_none (.evidenceRecorded _) rfl]
    unfold Milestone.candidateSha
    rw [Milestone.moveTo_lifecycle, Program.recordManifest_keeps hrecorded]
  | invalidates e reason m' h =>
    obtain rfl := h.result
    left
    rw [candidateSha_recordFact_none (.evidenceInvalidated _ _) rfl]
    split_ifs <;> rfl
  | closes q m' h =>
    obtain ⟨closed, hclosed, rfl⟩ := h.closed
    have hlifecycle := closeOutcome_lifecycle hclosed
    have hcandidate : closed.candidateSha = m.candidateSha := by
      unfold Milestone.candidateSha
      rw [hlifecycle]
    have hpromoted : closed.promotedAlready q.subject = m.promotedAlready q.subject := by
      unfold Milestone.promotedAlready
      rw [hlifecycle]
    show (closed.promote q.subject q.reviewIds).candidateSha = _ ∨
      ∃ c g, _ ∧ _ ∧ (closed.promote q.subject q.reviewIds).candidateSha = _
    unfold Milestone.promote
    rw [hpromoted]
    split_ifs with hdone
    · exact .inl hcandidate
    · obtain hsame | hsame := candidateSha_recordFact_cases closed
        (.promotionAccepted q.subject q.reviewIds)
      · exact .inl (hsame.trans hcandidate)
      · cases hc : q.subject.candidateSha? with
        | none => exact .inl ((candidateSha_recordFact_none
            (.promotionAccepted q.subject q.reviewIds) hc).trans hcandidate)
        | some c =>
          refine .inr ⟨c, none, rfl, ?_, hsame.trans hc⟩
          show (if m.promotedAlready q.subject then none else q.subject.candidateSha?.map _) = _
          rw [if_neg hdone, hc]
          rfl
  | reviews q hkind hsubject =>
    left
    obtain hnone | hsame := candidateSha_of_subject hsubject
    · exact candidateSha_recordFact_none _ hnone
    · exact candidateSha_recordFact_self hsame
  | integrates c r i after m' hi h =>
    obtain rfl := h.result
    obtain hsame | hsame := candidateSha_recordFact_cases
      (m.setIntegration { i with ended := some ⟨.applied, r, now⟩ })
      (.integrationCompleted i.candidateSha (digests.integration r) after)
    · exact .inl hsame
    · refine .inr ⟨c, none, rfl, ?_, hsame.trans ?_⟩
      · show (if _ then some _ else none) = _
        have hpending : (m.integrationOf c).any (·.isPending) = true := by
          rw [hi, Option.any_some, Integration.isPending, h.pending]
          rfl
        rw [if_pos ⟨rfl, hpending⟩]
      · have hcandidate : i.candidateSha = c := by simpa using List.find?_some hi
        rw [← hcandidate]
        rfl
  | abandons c r i state hi hpending hstate => exact .inl rfl

theorem candidate_action {action : ProgramAction} (h : m.Step digests P id now (.action action) m') :
    m'.candidateSha = m.candidateSha := by
  cases h with
  | rests _ _ h =>
    unfold Milestone.candidateSha
    rw [h.lifecycle]
  | repairs s findings hkind hsubject hstate =>
    obtain hnone | hsame := candidateSha_of_subject hsubject
    · exact candidateSha_recordFact_none _ hnone
    · exact candidateSha_recordFact_self hsame
  | resolves c gate resolution b hcandidate hblocker hgate =>
    exact candidateSha_recordFact_self hcandidate.symm
  | promotes s ids hkind hsubject hgit hstate => exact candidateSha_promote ids hsubject
  | promotesClosed s ids hkind hsubject hadopted hstate => exact candidateSha_promote ids hsubject
  | promotesAdopted s ids m' hkind hsubject hadopted h =>
    obtain ⟨closed, hclosed, rfl⟩ := h.closed
    have hlifecycle := closeOutcome_lifecycle hclosed
    have hcandidate : closed.candidateSha = m.candidateSha := by
      rw [← candidateSha_promote ids hsubject]
      unfold Milestone.candidateSha
      rw [hlifecycle]
    show (closed.promote s ids).candidateSha = m.candidateSha
    unfold Milestone.promote
    split_ifs
    · exact hcandidate
    · obtain hnone | hsame := candidateSha_of_subject hsubject
      · exact (candidateSha_recordFact_none (.promotionAccepted s ids) hnone).trans hcandidate
      · have hcurrent : (Fact.promotionAccepted s ids).candidateSha? = closed.candidateSha :=
          hsame.trans hcandidate.symm
        exact (candidateSha_recordFact_self hcurrent).trans hcandidate
  | authorizes c strategy hcandidate hgit hpromoted hnone trunkHead => rfl

theorem candidate_effect (h : m.Step digests P id now .effect m') :
    m'.candidateSha = m.candidateSha := by
  cases h with
  | rests _ _ h =>
    unfold Milestone.candidateSha
    rw [h.lifecycle]
  | affects actionId effectId state => exact candidateSha_recordFact_none _ rfl

/-- A recording call that writes a fact makes its candidate current. -/
theorem recorded {target : String} (h : m.Step digests P id now (.call call) m')
    (hrecords : call.records = some (target, c)) :
    m'.lifecycle = m.lifecycle ∨ m'.candidateSha = some c := by
  cases h with
  | rests _ _ h => exact .inl h.lifecycle
  | records c' hsha hnew =>
    obtain ⟨-, rfl⟩ := Prod.mk.inj (Option.some.inj hrecords)
    by_cases hknown : .candidateRecorded c' ∈ m.lifecycle
    · exact .inl (recordFact_lifecycle_of_mem hknown)
    · exact .inr (candidateSha_recordFact_new hknown rfl)
  | adopts q commit m' h =>
    obtain ⟨c', hc', heq⟩ := Option.map_eq_some_iff.1 hrecords
    obtain ⟨-, rfl⟩ := Prod.mk.inj heq
    obtain rfl := Option.some.inj (hc'.symm.trans h.sha)
    exact h.candidateSha.symm
  | reports q m' h =>
    obtain ⟨c', hc', heq⟩ := Option.map_eq_some_iff.1 hrecords
    obtain ⟨-, rfl⟩ := Prod.mk.inj heq
    exact .inr (h.candidateSha.trans hc')
  | reconciles q m' h =>
    obtain rfl := h.result
    obtain ⟨-, rfl⟩ := Prod.mk.inj (Option.some.inj hrecords)
    by_cases hknown : .candidateReconciled q.fact ∈ (m.moveTo q.target).lifecycle
    · exact .inl (recordFact_lifecycle_of_mem hknown)
    · exact .inr (candidateSha_recordFact_new hknown rfl)
  | _ => cases hrecords

end Milestone.Step

theorem Milestone.ActionSteps.candidateSha {b : ProgramBundle}
    (h : m.ActionSteps digests id b m') : m'.candidateSha = m.candidateSha := by
  induction h with
  | refl => rfl
  | tail _ hstep ih =>
    obtain ⟨P, now, action, -, hstep⟩ := hstep
    exact hstep.candidate_action.trans ih

/-! ### Runs -/

def Milestone.Left (m : Milestone) (c : String) : Prop :=
  (∃ successor dispatchId, .candidateSuperseded c successor dispatchId ∈ m.lifecycle) ∧
    m.candidateSha ≠ some c

/-- The call names a candidate that the milestone left only under a newer executor generation than
the candidate had, and records none again that another one followed. -/
structure Call.Keeps (m : Milestone) (call : Call) : Prop where
  left : ∀ c g, call.names m = some (c, g) → m.Left c →
    g.any (candidateDispatchGeneration m.lifecycle c < ·)
  fresh : ∀ id c, call = .recordCandidate id c →
    m.candidateSha = some c ∨ .candidateRecorded c ∉ m.lifecycle

namespace System

variable {host : Host} {S : System} {op : Op}

def KeepsCurrent (S : System) (op : Op) : Prop :=
  ∀ programId id call now m, op = .call programId call now → call.milestoneId? = some id →
    S.milestone? programId id = some m → call.Keeps m

/-- A call that records a candidate makes it current, up to an exact replay, which writes no fact;
and a candidate that was left returns only under a newer executor generation. -/
structure CurrentAfter (host : Host) (S : System) (op : Op) : Prop where
  recorded : ∀ programId id call now c m m', op = .call programId call now →
    call.records = some (id, c) → S.milestone? programId id = some m →
      (S.next host op).milestone? programId id = some m' →
        m'.lifecycle ≠ m.lifecycle → m'.candidateSha = some c
  accepted : ∀ programId id now c m', op = .call programId (.recordCandidate id c) now →
    (S.perform host op).isOk → (S.next host op).milestone? programId id = some m' →
      m'.candidateSha = some c
  returned : ∀ programId id m m' p, S.milestone? programId id = some m →
    (S.next host op).milestone? programId id = some m' → m.Left p → m'.candidateSha = some p →
      ∃ call now g, op = .call programId call now ∧ call.names m = some (p, some g) ∧
        candidateDispatchGeneration m.lifecycle p < g

/-- A committed candidate is current, unless its fact was there and another one followed. -/
theorem recordCandidate_current {P' : Program} {event : Option NewEvent}
    (hkeeps : ∀ m, P.milestones.get? id = some m →
      m.candidateSha = some c ∨ .candidateRecorded c ∉ m.lifecycle)
    (hrun : P.run digests now (.recordCandidate id c) = .ok (P', event))
    (hm' : P'.milestones.get? id = some m') : m'.candidateSha = some c := by
  obtain ⟨-, ⟨rfl, hnone⟩ | ⟨m, hm, ⟨rfl, -, hcurrent, -⟩ | ⟨-, rfl, -⟩⟩⟩ :=
    Program.recordCandidate_ok hrun
  · rw [hm'] at hnone
    cases hnone
  · obtain rfl := Option.some.inj (hm.symm.trans hm')
    exact hcurrent
  · obtain rfl := Option.some.inj ((Table.get?_set_self hm _).symm.trans hm')
    obtain hcurrent | hnew := hkeeps m hm
    · exact (show (m.recordFact (.candidateRecorded c)).candidateSha = _ from
        candidateSha_recordFact_self hcurrent.symm).trans hcurrent
    · exact candidateSha_recordFact_new hnew rfl

theorem KeepsCurrent.next (h : S.KeepsCurrent op) : S.CurrentAfter host op where
  recorded := by
    intro programId id call now c m m' hop hrecords hm hm' hchanged
    obtain ⟨m₁, hm₁, htouches⟩ := (next_moves host S op).touches hm
    obtain rfl := Option.some.inj (hm'.symm.trans hm₁)
    subst hop
    cases htouches with
    | keeps => exact absurd rfl hchanged
    | call _ _ P _ hP hstep => exact (hstep.recorded hrecords).resolve_left hchanged
  accepted := by
    rintro programId id now c m' rfl hok hm'
    obtain ⟨P, P', event, hP, hrun, hP'⟩ := perform_call hok
    obtain ⟨P₁, hP₁, hm'⟩ := milestone?_eq_some.1 hm'
    obtain rfl := Option.some.inj (hP'.symm.trans hP₁)
    refine recordCandidate_current (fun m hm => ?_) hrun hm'
    exact (h programId id _ now m rfl rfl (milestone?_eq_some.2 ⟨P, hP, hm⟩)).fresh id c rfl
  returned := by
    intro programId id m m' p hm hm' hleft hp
    obtain ⟨m₁, hm₁, htouches⟩ := (next_moves host S op).touches hm
    obtain rfl := Option.some.inj (hm'.symm.trans hm₁)
    have hchanged : m'.candidateSha ≠ m.candidateSha := fun hsame => hleft.2 (hsame ▸ hp)
    cases htouches with
    | keeps => exact absurd rfl hchanged
    | bundle q now m' hprogram hsteps => exact absurd hsteps.candidateSha hchanged
    | effect actionId effectId state now P m' hstep =>
      exact absurd hstep.candidate_effect hchanged
    | call call now P m' hP hstep =>
      obtain hsame | ⟨c, g, hid, hnames, hc⟩ := hstep.candidate_call
      · exact absurd hsame hchanged
      obtain rfl := Option.some.inj (hp.symm.trans hc)
      obtain ⟨n, rfl, hnewer⟩ := (Option.any_eq_true _ _).1
        ((h programId id call now m rfl hid hm).left p g hnames hleft)
      exact ⟨call, now, n, rfl, hnames, by simpa using hnewer⟩

/-- In a run that names a candidate again only under a newer executor generation, every recorded
candidate is current at once, and one that was left returns only so. -/
theorem candidates_current (host : Host) (ops : List Op)
    (h : Machine.Along (next host) KeepsCurrent {} ops) :
    Machine.Along (next host) (CurrentAfter host) {} ops :=
  h.mono fun _ _ hkeeps => hkeeps.next

end System

/-! ### A superseded candidate that is reconciled -/

def successorCandidate : String := "cd4d7c5d4ec426aeeabe6aa5646674dda659123e"

def adoptionOf (commit : String) (dispatchId : Option DispatchValue) : Adoption where
  candidate :=
    { sampleAdoption.candidate with
      head := some commit
      commitSha := some commit
      verified := by simp [sampleAdoption]
      head_isSome := fun _ => rfl }
  dispatchId := dispatchId
  terminalStatus := none
  blocker := none
  receipt := none

def externalBlocker : TypedBlocker where
  gateId := "gate"
  kind := .external
  scope := .currentPromotion
  promotionBlocking := true
  requiredAction := "wait"

/-- The second generation of the executor leaves another candidate than the first. -/
def supersededRun : List Op :=
  executing .git ++
    [.call "run" (reported sampleCandidate .externalBlocked 1 none) 3,
      .call "run" (.adopt "m1" (adoptionOf successorCandidate (some (executorDispatch 2)))) 4]

def reconciledAgain : Op :=
  .call "run" (.reconcile "m1"
    { candidateSha := sampleCandidate
      terminalStatus := .externalBlocked
      blocker := externalBlocker
      dispatchId := none }) 5

namespace System

/-- The reconciliation of the first candidate makes it current again, under no generation. -/
theorem supersededRun_returns :
    ¬Machine.Along (next Host.sample) (CurrentAfter Host.sample) {}
      (supersededRun ++ [reconciledAgain]) := by
  intro h
  have hafter := (Machine.along_append.1 h).2.1
  have hbefore : ((Machine.run (next Host.sample) {} supersededRun).milestone? "run" "m1").any
      (fun m => m.lifecycle.contains (.candidateSuperseded sampleCandidate successorCandidate
          (some (executorDispatch 2))) &&
        m.candidateSha ≠ some sampleCandidate) = true := by
    decide +kernel
  have hcurrent : (((Machine.run (next Host.sample) {} supersededRun).next Host.sample
      reconciledAgain).milestone? "run" "m1").any
        (fun m => m.candidateSha = some sampleCandidate) = true := by
    decide +kernel
  obtain ⟨m, hm, hleft⟩ := (Option.any_eq_true _ _).1 hbefore
  obtain ⟨m', hm', hcurrent⟩ := (Option.any_eq_true _ _).1 hcurrent
  simp only [Bool.and_eq_true, List.contains_iff_mem, decide_eq_true_eq] at hleft hcurrent
  obtain ⟨call, now, g, hop, hnames, -⟩ :=
    hafter.returned "run" "m1" m m' _ hm hm' ⟨⟨_, _, hleft.1⟩, hleft.2⟩ hcurrent
  cases hop
  simp only [Call.names] at hnames
  split_ifs at hnames
  cases hnames

/-- Where nothing was superseded, a candidate that was not recorded may be. -/
theorem keepsCurrent_of {S : System} {programId : String}
    (h : (S.milestone? programId id).all fun m => m.lifecycle.all fun fact =>
      match fact with
      | .candidateSuperseded .. => false
      | .candidateRecorded c' => c' ≠ c
      | _ => true) :
    S.KeepsCurrent (.call programId (.recordCandidate id c) now) := by
  rintro _ id' _ now m ⟨⟩ hid hm
  obtain rfl : id = id' := Option.some.inj hid
  rw [hm, Option.all_some, List.all_eq_true] at h
  constructor
  · rintro c' g - ⟨⟨successor, dispatchId, hmem⟩, -⟩
    exact absurd (h _ hmem) Bool.false_ne_true
  · rintro _ c' ⟨⟩
    right
    intro hmem
    simpa using h _ hmem

def recordedRun : List Op :=
  [.register (sampleGraph .git), .call "run" (.recordCandidate "m1" sampleCandidate) 1,
    .call "run" (.recordCandidate "m1" successorCandidate) 2]

theorem recordedRun_current :
    Machine.Along (next Host.sample) (CurrentAfter Host.sample) {} recordedRun ∧
      ((Machine.run (next Host.sample) {} recordedRun).milestone? "run" "m1").any
        (fun m => m.candidateSha = some successorCandidate) = true := by
  refine ⟨candidates_current Host.sample recordedRun ⟨?_, ?_, ?_, trivial⟩, by decide⟩
  · exact fun _ _ _ _ _ hop => nomatch hop
  · exact keepsCurrent_of (by decide)
  · exact keepsCurrent_of (by decide)

end System

end CodexFlow.Programs
