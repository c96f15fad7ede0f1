import CodexFlow.Ledger.Commands

/-!
# Rows of control commands

No call removes a command or changes what it was created with, and a command that its worker turned
down stays so. A command appears only by the call that creates it, and creating it again leaves the
tables as they are.
-/

namespace CodexFlow.Ledger

open Checked

structure ControlCommand.Kept (c c' : ControlCommand) : Prop where
  commandId : c'.commandId = c.commandId
  dispatchId : c'.dispatchId = c.dispatchId
  turn : c'.turn = c.turn
  kind : c'.kind = c.kind
  payload : c'.payload = c.payload
  payloadSha256 : c'.payloadSha256 = c.payloadSha256
  rejected : c.state = .rejected → c'.state = .rejected

namespace ControlCommand

variable {c c' c'' : ControlCommand}

theorem Kept.refl (c : ControlCommand) : c.Kept c := ⟨rfl, rfl, rfl, rfl, rfl, rfl, id⟩

theorem Kept.trans (h : c.Kept c') (h' : c'.Kept c'') : c.Kept c'' where
  commandId := h'.commandId.trans h.commandId
  dispatchId := h'.dispatchId.trans h.dispatchId
  turn := h'.turn.trans h.turn
  kind := h'.kind.trans h.kind
  payload := h'.payload.trans h.payload
  payloadSha256 := h'.payloadSha256.trans h.payloadSha256
  rejected := h'.rejected ∘ h.rejected

theorem kept_close (c : ControlCommand) (now : Time) : c.Kept (c.close now) := by
  unfold close
  split_ifs with hopen
  · refine ⟨rfl, rfl, rfl, rfl, rfl, rfl, fun hrejected => ?_⟩
    rw [hrejected] at hopen
    exact absurd hopen (by decide)
  · exact .refl c

end ControlCommand

end CodexFlow.Ledger

namespace CodexFlow.ControlLedger

open Ledger Checked

def command? (s : ControlLedger) (commandId : String) : Option ControlCommand :=
  s.commands.find? (·.commandId = commandId)

variable {env : ControlEnv} {s s' : ControlLedger} {commandId : String} {c : ControlCommand}
  {q : CommandRequest} {op : ControlOp} {now : Time}

theorem command?_commandId (h : s.command? commandId = some c) : c.commandId = commandId := by
  unfold command? at h
  simpa using List.find?_some h

/-- Rewritten rows are found as the rows were. -/
theorem command?_map {f : ControlCommand → ControlCommand}
    (hf : ∀ c, (f c).commandId = c.commandId) (L : Ledger) :
    command? { ledger := L, commands := s.commands.map f } commandId =
      (s.command? commandId).map f := by
  unfold command?
  rw [List.find?_map]
  refine congrArg (Option.map f) (congrArg (List.find? · s.commands) (funext fun c => ?_))
  rw [Function.comp_apply, hf c]

theorem command?_append (hne : c.commandId ≠ commandId) (L : Ledger) :
    command? { ledger := L, commands := s.commands ++ [c] } commandId = s.command? commandId := by
  unfold command?
  rw [List.find?_append, List.find?_singleton, if_neg (by simpa using hne), Option.or_none]

theorem command?_append_self (habsent : s.command? c.commandId = none) (L : Ledger) :
    command? { ledger := L, commands := s.commands ++ [c] } c.commandId = some c := by
  unfold command? at habsent ⊢
  rw [List.find?_append, habsent, List.find?_singleton, if_pos (by simp), Option.none_or]

/-- What a call does to the commands: it rewrites rows that keep their columns, or creates one. -/
inductive Rewrites (env : ControlEnv) (s : ControlLedger) : ControlOp → ControlLedger → Prop
  | kept {op : ControlOp} {f : ControlCommand → ControlCommand} {L : Ledger}
      (hid : ∀ c, (f c).commandId = c.commandId)
      (hkept : ∀ c, s.command? c.commandId = some c → ControlCommand.Kept c (f c)) :
      Rewrites env s op { ledger := L, commands := s.commands.map f }
  | created {q : CommandRequest} {now : Time} {sequence : ℕ}
      (habsent : s.command? q.commandId = none) :
      Rewrites env s (.create q now)
        { s with commands := s.commands ++ [q.command env sequence now] }

theorem Rewrites.unchanged (op : ControlOp) : Rewrites env s op s := by
  have h : Rewrites env s op { ledger := s.ledger, commands := s.commands.map id } :=
    .kept (fun _ => rfl) fun c _ => .refl c
  rwa [List.map_id] at h

theorem Rewrites.of_kept {f : ControlCommand → ControlCommand} {L : Ledger}
    (hf : ∀ c, ControlCommand.Kept c (f c)) :
    Rewrites env s op { ledger := L, commands := s.commands.map f } :=
  .kept (fun c => (hf c).commandId) fun c _ => hf c

theorem createControlCommand_rewrites (h : s.createControlCommand env q now = .ok s') :
    Rewrites env s (.create q now) s' := by
  simp only [createControlCommand, checks_ok] at h
  obtain ⟨-, -, h⟩ := h
  split at h
  · simp only [steps_ok] at h
    obtain ⟨-, rfl⟩ := h
    exact .unchanged _
  · next habsent =>
    split at h
    · cases h
    · simp only [steps_ok] at h
      obtain ⟨-, -, -, rfl⟩ := h
      exact .created habsent

theorem acknowledgeControlCommand_rewrites {target : ControlCommandState}
    {acknowledgement : Option Acknowledgement}
    (h : s.acknowledgeControlCommand env commandId target acknowledgement now = .ok s') :
    Rewrites env s op s' := by
  simp only [acknowledgeControlCommand, checks_ok] at h
  obtain ⟨-, -, -, h⟩ := h
  split at h
  · cases h
  · next c hc =>
    split at h
    · simp only [steps_ok] at h
      obtain ⟨-, rfl⟩ := h
      exact .unchanged _
    · simp only [steps_ok] at h
      obtain ⟨hsent, rfl⟩ := h
      refine .kept (fun c => by split_ifs <;> rfl) fun c' hc' => ?_
      split_ifs with hid
      · -- the row of this id is the one that was sent
        rw [hid] at hc'
        obtain rfl : c = c' := Option.some.inj (hc.symm.trans hc')
        refine ⟨rfl, rfl, rfl, rfl, rfl, rfl, fun hrejected => ?_⟩
        rw [hrejected] at hsent
        cases hsent
      · exact .refl c'

theorem kept_sent (hopen : c.state.isOpen = true) :
    ControlCommand.Kept c { c with state := .sent, sentAt := some (c.sentAt.getD now) } := by
  refine ⟨rfl, rfl, rfl, rfl, rfl, rfl, fun hrejected => ?_⟩
  rw [hrejected] at hopen
  cases hopen

theorem body_rewrites (h : s.body env op = .ok s') : Rewrites env s op s' := by
  cases op with
  | queue op =>
    simp only [body, perform, bind_eq_ok, pure_eq_ok] at h
    obtain ⟨L, -, rfl⟩ := h
    refine .of_kept fun c => ?_
    split_ifs
    · exact c.kept_close _
    · exact .refl c
  | create q now => exact createControlCommand_rewrites h
  | claim dispatchId turn now =>
    obtain rfl := Except.ok.inj h
    refine .of_kept fun c => ?_
    split_ifs with hpending
    · simp only [Bool.and_eq_true, decide_eq_true_eq] at hpending
      exact kept_sent (by rw [hpending.2]; rfl)
    · exact .refl c
  | unresolved dispatchId now =>
    obtain rfl := Except.ok.inj h
    refine .of_kept fun c => ?_
    split_ifs
    · exact c.kept_close _
    · exact .refl c
  | acknowledge commandId target acknowledgement now =>
    exact acknowledgeControlCommand_rewrites h
  | markSent commandId now =>
    simp only [body, markControlCommandSent, steps_ok] at h
    obtain ⟨-, -, rfl⟩ := h
    refine .of_kept fun c => ?_
    split_ifs with hopen
    · simp only [Bool.and_eq_true, decide_eq_true_eq] at hopen
      exact kept_sent hopen.2
    · exact .refl c

/-! ### The command of one id, over the calls -/

theorem Rewrites.command?_some (h : Rewrites env s op s') (hc : s.command? commandId = some c) :
    ∃ c', s'.command? commandId = some c' ∧ c.Kept c' := by
  cases h with
  | @kept _ f L hid hkept =>
    refine ⟨f c, ?_, hkept c (by rwa [command?_commandId hc])⟩
    rw [command?_map hid, hc]
    rfl
  | @created q now sequence habsent =>
    refine ⟨c, ?_, .refl c⟩
    rw [command?_append, hc]
    rintro rfl
    have hcreated : s.command? q.commandId = some c := hc
    rw [habsent] at hcreated
    cases hcreated

def ControlOp.creates : ControlOp → Option String
  | .create q _ => some q.commandId
  | _ => none

theorem Rewrites.command?_none (h : Rewrites env s op s') (hc : s.command? commandId = none)
    (hop : op.creates ≠ some commandId) : s'.command? commandId = none := by
  cases h with
  | kept hid hkept =>
    rw [command?_map hid, hc]
    rfl
  | @created q now sequence habsent =>
    rw [command?_append, hc]
    exact fun heq => hop (congrArg some heq)

theorem call_ok (h : s.call env op = .ok s') : s.body env op = .ok s' ∧ s'.Valid env := by
  simp only [call, steps_ok] at h
  obtain ⟨-, _, hbody, hvalid, rfl⟩ := h
  exact ⟨hbody, hvalid⟩

theorem call_create (h : s.call env (.create q now) = .ok s') :
    ∃ c, s'.command? q.commandId = some c ∧ q.matchesCommand env c = true := by
  have hbody : s.createControlCommand env q now = .ok s' := (call_ok h).1
  simp only [createControlCommand, checks_ok] at hbody
  obtain ⟨-, -, hbody⟩ := hbody
  split at hbody
  · next c hc =>
    simp only [steps_ok] at hbody
    obtain ⟨hmatches, rfl⟩ := hbody
    exact ⟨c, hc, hmatches⟩
  · next habsent =>
    split at hbody
    · cases hbody
    · simp only [steps_ok] at hbody
      obtain ⟨-, -, -, rfl⟩ := hbody
      have hnew : s.command? (q.command env (s.nextSubmission q.dispatchId) now).commandId = none :=
        habsent
      refine ⟨_, command?_append_self hnew s.ledger, ?_⟩
      simp [CommandRequest.matchesCommand, CommandRequest.command]

/-- Asked for again, a command that is there is answered with its row. -/
theorem call_create_stored (hs : s.Valid env) (hc : s.command? q.commandId = some c)
    (hmatches : q.matchesCommand env c = true)
    (htext : q.payload.all fun text => !text.toList.contains '\x00') :
    s.call env (.create q now) = .ok s := by
  have hid : env.isCommandId q.commandId := by
    rw [← command?_commandId hc]
    exact (hs.2.1 c (List.mem_of_find?_eq_some hc)).commandId
  have hbody : s.createControlCommand env q now = .ok s := by
    unfold createControlCommand
    rw [ensure_of hid, ok_bind, ensure_of htext, ok_bind]
    unfold command? at hc
    rw [hc]
    show (ensure (q.matchesCommand env c) _ >>= fun _ => pure s) = _
    rw [ensure_of hmatches, ok_bind]
    rfl
  unfold call
  rw [ensure_of hs, ok_bind]
  show (s.createControlCommand env q now >>= _) = _
  rw [hbody, ok_bind, ensure_of hs, ok_bind]
  rfl

theorem next_rewrites (op : ControlOp) : Rewrites env s op (s.next env op) := by
  unfold next
  cases hcall : s.call env op with
  | error e => exact .unchanged op
  | ok s' => exact body_rewrites (call_ok hcall).1

theorem next_valid (hs : s.Valid env) (op : ControlOp) : (s.next env op).Valid env := by
  unfold next
  cases hcall : s.call env op with
  | error e => exact hs
  | ok s' => exact (call_ok hcall).2

end CodexFlow.ControlLedger
