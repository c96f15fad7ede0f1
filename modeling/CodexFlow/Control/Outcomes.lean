import CodexFlow.Control.Client
import CodexFlow.Ledger.Authority
import CodexFlow.Ledger.RetryEntries
import CodexFlow.Lib.Run

/-!
# Outcomes of control commands

What the terminal client reports of a command, against the table of the harness. The harness looks
at the bound turn before it looks for the command, so a command that it holds can be turned away
when it is sent again.
-/

namespace CodexFlow.TerminalUi

open Ledger Checked
open ControlLedger (CommandRequest ControlOp)

/-! ### The property -/

/-- What was reported last agrees with the table, no id was sent three times, and of two commands
for one request one has been settled. -/
structure Truthful (env : ControlEnv) (w : World) : Prop where
  rejected : ∀ result, w.returned = some result → result.outcome = .rejected →
    ∀ c, w.harness.ledger.command? result.commandId = some c → c.state = .rejected
  accepted : ∀ result, w.returned = some result → result.outcome = .accepted →
    (w.harness.ledger.command? result.commandId).isSome
  twice : ∀ commandId, w.sent.count commandId ≤ 2
  single : ∀ q ∈ w.created, ∀ q' ∈ w.created, controlKey env q = controlKey env q' → q ≠ q' →
    q.commandId ∈ w.settled ∨ q'.commandId ∈ w.settled

namespace World

variable (env : ControlEnv) (w : World)

def asked (connection : ℕ) : Option CommandRequest :=
  match w.unanswered connection with
  | some (.send q) => some q
  | _ => none

def awaits (connection : ℕ) : Bool := w.call.any (·.connection = connection)

def refused (commandId : String) : Bool :=
  w.call.any fun call =>
    (call.waiting = .send || call.waiting = .resend) && w.reply? call = some .rejected &&
      (w.connections[call.connection]?).any (·.request.commandId = commandId)

/-- The harness turns no command away that it holds while the call waits for the answer, it takes
none of which a rejection is on its way, and no call is cancelled that waits for the reply to the
first sending of its command. -/
def Meets : Event → Prop
  | .serve connection now => ∀ q ∈ w.asked connection,
      (w.awaits connection → (w.harness.ledger.command? q.commandId).isSome →
        w.harness.activeTurns q.dispatchId = some q.turn) ∧
      (w.refused q.commandId → (w.harness.createControl env q now).toOption.isNone)
  | .turnAway connection => ∀ q ∈ w.asked connection, w.awaits connection →
      (w.harness.ledger.command? q.commandId).isNone
  | .cancel => ∀ call ∈ w.call, call.waiting = .send → ∀ r ∈ w.pending call.key, r.resendUsed
  | _ => True

instance (event : Event) : Decidable (w.Meets env event) := by
  cases event <;> unfold Meets <;> infer_instance

end World

variable {env : ControlEnv} {w : World} {ledger ledger' : ControlLedger}
  {created : List CommandRequest} {connections : List Connection} {key : ControlKey}
  {r : PendingControlRequest} {q : CommandRequest} {c c' : ControlCommand} {now : Time}

/-! ### The tables and the connections -/

/-- What the tables and the connections hold of the commands that the client has created. -/
structure Backed (env : ControlEnv) (ledger : ControlLedger) (created : List CommandRequest)
    (connections : List Connection) : Prop where
  valid : ledger.Valid env
  unique : ∀ q ∈ created, ∀ q' ∈ created, q.commandId = q'.commandId → q = q'
  text : ∀ q ∈ created, q.payload.all fun text => !text.toList.contains '\x00'
  row : ∀ q ∈ created, ∀ c, ledger.command? q.commandId = some c → q.matchesCommand env c = true
  request : ∀ conn ∈ connections, ∀ q, conn.request = .send q →
    q ∈ created ∧ wellFormed env q = true
  reply : ∀ conn ∈ connections, ∀ c, conn.reply = some (.command (some c)) →
    ∃ c', ledger.command? conn.request.commandId = some c' ∧ c.Kept c'

theorem matchesCommand_kept (hkept : c.Kept c') :
    q.matchesCommand env c' = q.matchesCommand env c := by
  unfold CommandRequest.matchesCommand
  rw [hkept.dispatchId, hkept.turn, hkept.kind, hkept.payload, hkept.payloadSha256]

namespace Backed

theorem connect (h : Backed env ledger created connections) {request : Request}
    (hrequest : ∀ q, request = .send q → q ∈ created ∧ wellFormed env q = true) :
    Backed env ledger created (connections ++ [{ request := request }]) where
  valid := h.valid
  unique := h.unique
  text := h.text
  row := h.row
  request := by
    intro conn mem
    obtain mem | mem := List.mem_append.mp mem
    · exact h.request conn mem
    · rw [List.mem_singleton.mp mem]
      exact hrequest
  reply := by
    intro conn mem
    obtain mem | mem := List.mem_append.mp mem
    · exact h.reply conn mem
    · rw [List.mem_singleton.mp mem]
      exact nofun

theorem create (h : Backed env ledger created connections)
    (habsent : ledger.command? q.commandId = none)
    (hunused : ∀ q' ∈ created, q'.commandId ≠ q.commandId)
    (htext : q.payload.all fun text => !text.toList.contains '\x00') :
    Backed env ledger (q :: created) connections where
  valid := h.valid
  unique := by
    intro q₁ mem₁ q₂ mem₂ hid
    rcases List.mem_cons.mp mem₁ with rfl | old₁ <;> rcases List.mem_cons.mp mem₂ with rfl | old₂
    · rfl
    · exact absurd hid.symm (hunused q₂ old₂)
    · exact absurd hid (hunused q₁ old₁)
    · exact h.unique q₁ old₁ q₂ old₂ hid
  text := List.forall_mem_cons.mpr ⟨htext, h.text⟩
  row := by
    refine List.forall_mem_cons.mpr ⟨fun c hc => ?_, h.row⟩
    rw [habsent] at hc
    cases hc
  request conn mem q' hq' :=
    ⟨List.mem_cons_of_mem _ (h.request conn mem q' hq').1, (h.request conn mem q' hq').2⟩
  reply := h.reply

/-- The tables change, and what they held is kept. -/
theorem move (h : Backed env ledger created connections) (hvalid : ledger'.Valid env)
    (hkept : ∀ commandId c, ledger.command? commandId = some c →
      ∃ c', ledger'.command? commandId = some c' ∧ c.Kept c')
    (hnew : ∀ q ∈ created, ledger.command? q.commandId = none →
      ∀ c, ledger'.command? q.commandId = some c → q.matchesCommand env c = true) :
    Backed env ledger' created connections where
  valid := hvalid
  unique := h.unique
  text := h.text
  row := by
    intro q mem c' hc'
    cases hc : ledger.command? q.commandId with
    | none => exact hnew q mem hc c' hc'
    | some c =>
      obtain ⟨c'', hc'', hkept⟩ := hkept q.commandId c hc
      obtain rfl : c'' = c' := Option.some.inj (hc''.symm.trans hc')
      rw [matchesCommand_kept hkept]
      exact h.row q mem c hc
  request := h.request
  reply := by
    intro conn mem c hc
    obtain ⟨c₁, hc₁, hkept₁⟩ := h.reply conn mem c hc
    obtain ⟨c₂, hc₂, hkept₂⟩ := hkept _ c₁ hc₁
    exact ⟨c₂, hc₂, hkept₁.trans hkept₂⟩

theorem answer (h : Backed env ledger created connections) {connection : ℕ} {reply : Reply}
    (hreply : ∀ conn, connections[connection]? = some conn → ∀ c, reply = .command (some c) →
      ledger.command? conn.request.commandId = some c) :
    Backed env ledger created
      (connections.modify connection fun conn => { conn with reply := some reply }) where
  valid := h.valid
  unique := h.unique
  text := h.text
  row := h.row
  request := by
    intro conn mem
    obtain ⟨i, hi⟩ := List.mem_iff_getElem?.mp mem
    rw [List.getElem?_modify] at hi
    obtain ⟨conn₀, hconn₀, rfl⟩ := Option.map_eq_some_iff.mp hi
    have hrequest := h.request conn₀ (List.mem_of_getElem? hconn₀)
    split_ifs <;> exact hrequest
  reply := by
    intro conn mem c hc
    obtain ⟨i, hi⟩ := List.mem_iff_getElem?.mp mem
    rw [List.getElem?_modify] at hi
    obtain ⟨conn₀, hconn₀, rfl⟩ := Option.map_eq_some_iff.mp hi
    split_ifs at hc ⊢ with heq
    · subst heq
      exact ⟨c, hreply conn₀ hconn₀ c (Option.some.inj hc), .refl c⟩
    · exact h.reply conn₀ (List.mem_of_getElem? hconn₀) c hc

end Backed

/-! ### The pending requests -/

/-- A pending request is one that was created for its key, and every other one has been settled. -/
structure Filed (env : ControlEnv) (created : List CommandRequest)
    (pending : ControlKey → Option PendingControlRequest) (settled : List String) : Prop where
  filed : ∀ key r, pending key = some r →
    r.command ∈ created ∧ controlKey env r.command = key ∧ r.payloadSha256 = key.payloadSha256
  settled : ∀ q ∈ created, q.commandId ∈ settled ∨
    ∃ r, pending (controlKey env q) = some r ∧ r.command = q

namespace Filed

variable {pending : ControlKey → Option PendingControlRequest} {settled : List String}

/-- Only the two flags of a pending request change. -/
theorem remember (h : Filed env created pending settled) {r' : PendingControlRequest}
    (hr : pending key = some r) (hcommand : r'.command = r.command)
    (hdigest : r'.payloadSha256 = r.payloadSha256) :
    Filed env created (Function.update pending key (some r')) settled where
  filed := by
    intro k r₁ hr₁
    by_cases hk : k = key
    · subst hk
      rw [Function.update_self] at hr₁
      obtain rfl := Option.some.inj hr₁
      rw [hcommand, hdigest]
      exact h.filed k r hr
    · rw [Function.update_of_ne hk] at hr₁
      exact h.filed k r₁ hr₁
  settled := by
    intro q mem
    obtain hsettled | ⟨r₁, hr₁, hq⟩ := h.settled q mem
    · exact .inl hsettled
    · by_cases hk : controlKey env q = key
      · rw [hk, hr] at hr₁
        obtain rfl := Option.some.inj hr₁
        refine .inr ⟨r', ?_, hcommand.trans hq⟩
        rw [hk, Function.update_self]
      · exact .inr ⟨r₁, by rwa [Function.update_of_ne hk], hq⟩

theorem settle (h : Filed env created pending settled) (hr : pending key = some r) :
    Filed env created (Function.update pending key none) (r.command.commandId :: settled) where
  filed := by
    intro k r₁ hr₁
    by_cases hk : k = key
    · subst hk
      rw [Function.update_self] at hr₁
      cases hr₁
    · rw [Function.update_of_ne hk] at hr₁
      exact h.filed k r₁ hr₁
  settled := by
    intro q mem
    obtain hsettled | ⟨r₁, hr₁, hq⟩ := h.settled q mem
    · exact .inl (List.mem_cons_of_mem _ hsettled)
    · by_cases hk : controlKey env q = key
      · rw [hk, hr] at hr₁
        obtain rfl := Option.some.inj hr₁
        rw [← hq]
        exact .inl List.mem_cons_self
      · exact .inr ⟨r₁, by rwa [Function.update_of_ne hk], hq⟩

theorem create (h : Filed env created pending settled) (hnone : pending (controlKey env q) = none)
    (hr : r.command = q) (hdigest : r.payloadSha256 = (controlKey env q).payloadSha256) :
    Filed env (q :: created) (Function.update pending (controlKey env q) (some r)) settled where
  filed := by
    intro k r₁ hr₁
    by_cases hk : k = controlKey env q
    · subst hk
      rw [Function.update_self] at hr₁
      obtain rfl := Option.some.inj hr₁
      rw [hr, hdigest]
      exact ⟨List.mem_cons_self, rfl, rfl⟩
    · rw [Function.update_of_ne hk] at hr₁
      obtain ⟨mem, hrest⟩ := h.filed k r₁ hr₁
      exact ⟨List.mem_cons_of_mem _ mem, hrest⟩
  settled := by
    refine List.forall_mem_cons.mpr ⟨.inr ⟨r, Function.update_self .., hr⟩, fun q' mem => ?_⟩
    obtain hsettled | ⟨r₁, hr₁, hq'⟩ := h.settled q' mem
    · exact .inl hsettled
    · refine .inr ⟨r₁, ?_, hq'⟩
      rw [Function.update_of_ne]
      · exact hr₁
      · rintro hk
        rw [hk, hnone] at hr₁
        cases hr₁

theorem matchesCommand (h : Filed env created pending settled) (hr : pending key = some r)
    (hid : c.commandId = r.command.commandId) (hrow : r.command.matchesCommand env c = true) :
    r.matchesCommand c = true := by
  obtain ⟨-, rfl, hdigest⟩ := h.filed key r hr
  unfold CommandRequest.matchesCommand at hrow
  unfold PendingControlRequest.matchesCommand
  rw [hdigest]
  simp only [Bool.and_eq_true, decide_eq_true_eq] at hrow ⊢
  obtain ⟨⟨⟨⟨hdispatch, hturn⟩, hkind⟩, -⟩, hsha⟩ := hrow
  exact ⟨⟨⟨⟨hid, hdispatch⟩, hturn⟩, hkind⟩, hsha⟩

end Filed

/-! ### The ids that were sent -/

/-- How often the id of a pending request has been sent, by its flags. -/
structure Within (sent : List String) (sending : Prop) (r : PendingControlRequest) : Prop where
  once : r.resendUsed = false → sent.count r.command.commandId ≤ 1
  never : r.uncertain = false → ¬ sending → sent.count r.command.commandId = 0
  resent : r.resendUsed = true → r.uncertain = true

/-- The call has sent the command of this key for the first time. -/
def sending (call : Option Call) (key : ControlKey) : Prop :=
  ∃ running, call = some running ∧ running.key = key ∧ running.waiting = .send

structure Counted (created : List CommandRequest)
    (pending : ControlKey → Option PendingControlRequest) (call : Option Call)
    (sent : List String) : Prop where
  unsent : ∀ commandId, (∀ q ∈ created, q.commandId ≠ commandId) → sent.count commandId = 0
  twice : ∀ commandId, sent.count commandId ≤ 2
  within : ∀ key r, pending key = some r → Within sent (sending call key) r

namespace Counted

variable {pending pending' : ControlKey → Option PendingControlRequest} {settled : List String}
  {call call' : Option Call} {sent : List String}

theorem idle (h : Counted created pending call sent) (hr : pending key = some r)
    (hidle : ¬ sending call key) : Within sent False r where
  once := (h.within key r hr).once
  never huncertain _ := (h.within key r hr).never huncertain hidle
  resent := (h.within key r hr).resent

/-- The call of one key moves on, and only its own request changes. -/
theorem step (h : Counted created pending call sent)
    (halone : ∀ running, call = some running → running.key = key)
    (hpending : ∀ k, k ≠ key → pending' k = pending k)
    (hkey : ∀ r, pending' key = some r → Within sent (sending call' key) r) :
    Counted created pending' call' sent where
  unsent := h.unsent
  twice := h.twice
  within := by
    intro k r hr
    by_cases hk : k = key
    · subst hk
      exact hkey r hr
    · rw [hpending k hk] at hr
      have hw := h.within k r hr
      refine ⟨hw.once, fun huncertain _ => hw.never huncertain ?_, hw.resent⟩
      rintro ⟨running, hrunning, rfl, -⟩
      exact hk (halone running hrunning)

theorem send (h : Counted created pending call sent) (hfiled : Filed env created pending settled)
    (hunique : ∀ q ∈ created, ∀ q' ∈ created, q.commandId = q'.commandId → q = q')
    (mem : q ∈ created) (hcount : sent.count q.commandId ≤ 1)
    (halone : ∀ running, call = some running → running.key = controlKey env q)
    (hkey : ∀ r, pending (controlKey env q) = some r →
      Within (q.commandId :: sent) (sending call' (controlKey env q)) r) :
    Counted created pending call' (q.commandId :: sent) where
  unsent := by
    intro commandId hnone
    rw [List.count_cons_of_ne (hnone q mem)]
    exact h.unsent commandId hnone
  twice := by
    intro commandId
    by_cases hid : q.commandId = commandId
    · subst hid
      rw [List.count_cons_self]
      omega
    · rw [List.count_cons_of_ne hid]
      exact h.twice commandId
  within := by
    intro k r hr
    by_cases hk : k = controlKey env q
    · subst hk
      exact hkey r hr
    · have hw := h.within k r hr
      obtain ⟨hmem, rfl, -⟩ := hfiled.filed k r hr
      have hid : q.commandId ≠ r.command.commandId :=
        fun heq => hk (congrArg (controlKey env) (hunique _ hmem _ mem heq.symm))
      refine ⟨fun hused => ?_, fun huncertain _ => ?_, hw.resent⟩
      · rw [List.count_cons_of_ne hid]
        exact hw.once hused
      · rw [List.count_cons_of_ne hid]
        refine hw.never huncertain ?_
        rintro ⟨running, hrunning, hrest, -⟩
        exact hk (hrest.symm.trans (halone running hrunning))

theorem create (h : Counted created pending none sent)
    (hunused : ∀ q' ∈ created, q'.commandId ≠ q.commandId) (hr : r.command = q)
    (hused : r.resendUsed = false) :
    Counted (q :: created) (Function.update pending (controlKey env q) (some r)) none sent where
  unsent commandId hnone := h.unsent commandId fun q' mem => hnone q' (List.mem_cons_of_mem _ mem)
  twice := h.twice
  within := by
    intro k r₁ hr₁
    by_cases hk : k = controlKey env q
    · subst hk
      rw [Function.update_self] at hr₁
      obtain rfl := Option.some.inj hr₁
      have hzero : sent.count r.command.commandId = 0 := by
        rw [hr]
        exact h.unsent q.commandId hunused
      refine ⟨fun _ => by omega, fun _ _ => hzero, fun hresent => ?_⟩
      rw [hused] at hresent
      cases hresent
    · rw [Function.update_of_ne hk] at hr₁
      exact h.within k r₁ hr₁

end Counted

/-! ### The invariant -/

/-- What a call asks its connection for. -/
def Waiting.request (waiting : Waiting) (r : PendingControlRequest) : Request :=
  match waiting with
  | .send | .resend => .send r.command
  | .status | .reconcile => .status r.command.commandId

/-- The running call waits on a connection for its own command, and a rejection that is coming says
that the table does not hold it. -/
def Waits (w : World) (running : Call) : Prop :=
  ∃ r conn, w.pending running.key = some r ∧ w.connections[running.connection]? = some conn ∧
    conn.request = running.waiting.request r ∧
    (running.waiting = .status ∨ running.waiting = .reconcile → r.uncertain = true) ∧
    (running.waiting = .send ∨ running.waiting = .resend → conn.reply = some .rejected →
      w.harness.ledger.command? r.command.commandId = none)

structure Sound (env : ControlEnv) (w : World) : Prop where
  backed : Backed env w.harness.ledger w.created w.connections
  filed : Filed env w.created w.pending w.settled
  counted : Counted w.created w.pending w.call w.sent
  waits : ∀ running, w.call = some running → Waits w running

/-- The request of a key while its call decides what to do next. -/
structure Held (env : ControlEnv) (w : World) (key : ControlKey) (r : PendingControlRequest) :
    Prop where
  backed : Backed env w.harness.ledger w.created w.connections
  filed : Filed env w.created w.pending w.settled
  counted : Counted w.created w.pending w.call w.sent
  held : w.pending key = some r
  alone : ∀ running, w.call = some running → running.key = key

namespace Held

theorem remember (h : Held env w key r) {r' : PendingControlRequest}
    (hcommand : r'.command = r.command) (hdigest : r'.payloadSha256 = r.payloadSha256)
    (hwithin : Within w.sent (sending w.call key) r') : Held env (w.remember key r') key r' where
  backed := h.backed
  filed := h.filed.remember h.held hcommand hdigest
  counted := by
    refine h.counted.step h.alone (fun k hk => Function.update_of_ne hk ..) fun r₁ hr₁ => ?_
    have hself : (w.remember key r').pending key = some r' := Function.update_self ..
    obtain rfl := Option.some.inj (hself.symm.trans hr₁)
    exact hwithin
  held := Function.update_self ..
  alone := h.alone

theorem raise (h : Held env w key r) (hidle : Within w.sent False r) : Sound env w.raise where
  backed := h.backed
  filed := h.filed
  counted := by
    refine h.counted.step h.alone (fun _ _ => rfl) fun r₁ hr₁ => ?_
    obtain rfl := Option.some.inj (h.held.symm.trans hr₁)
    exact ⟨hidle.once, fun huncertain _ => hidle.never huncertain id, hidle.resent⟩
  waits := nofun

theorem report_uncertain (h : Held env w key r) (hidle : Within w.sent False r) :
    Sound env (w.report key r .postSendUncertain) where
  backed := h.backed
  filed := h.filed
  counted := (h.raise hidle).counted
  waits := nofun

theorem report_certain (h : Held env w key r) {outcome : Outcome}
    (houtcome : outcome ≠ .postSendUncertain) : Sound env (w.report key r outcome) := by
  unfold World.report
  rw [if_neg houtcome]
  exact {
    backed := h.backed
    filed := h.filed.settle h.held
    counted := by
      refine h.counted.step h.alone (fun k hk => Function.update_of_ne hk ..) fun r₁ hr₁ => ?_
      have hself : Function.update w.pending key none key = none := Function.update_self ..
      cases hself.symm.trans hr₁
    waits := nofun }

theorem report (h : Held env w key r) (hidle : Within w.sent False r) (outcome : Outcome) :
    Sound env (w.report key r outcome) := by
  by_cases houtcome : outcome = .postSendUncertain
  · rw [houtcome]
    exact h.report_uncertain hidle
  · exact h.report_certain houtcome

theorem query (h : Held env w key r) (huncertain : r.uncertain = true)
    (hidle : Within w.sent False r) {waiting : Waiting}
    (hwaiting : waiting = .status ∨ waiting = .reconcile) : Sound env (w.query key waiting r) where
  backed := h.backed.connect nofun
  filed := h.filed
  counted := by
    refine h.counted.step h.alone (fun _ _ => rfl) fun r₁ hr₁ => ?_
    obtain rfl := Option.some.inj (h.held.symm.trans hr₁)
    exact ⟨hidle.once, fun hcertain _ => hidle.never hcertain id, hidle.resent⟩
  waits := by
    rintro running hrunning
    obtain rfl := Option.some.inj hrunning
    refine ⟨r, { request := .status r.command.commandId }, h.held, List.getElem?_concat_length, ?_,
      fun _ => huncertain, fun _ => nofun⟩
    obtain rfl | rfl := hwaiting <;> rfl

theorem send (h : Held env w key r) (hidle : Within w.sent False r) {waiting : Waiting}
    (hwaiting : waiting = .send ∨ waiting = .resend ∧ r.uncertain = true)
    (hcount : w.sent.count r.command.commandId ≤ 1)
    (hfirst : r.resendUsed = false → w.sent.count r.command.commandId = 0) :
    Sound env (w.send env key waiting r) := by
  unfold World.send
  split_ifs with hformed
  · obtain ⟨mem, rfl, -⟩ := h.filed.filed key r h.held
    exact {
      backed := h.backed.connect fun q hq => by
        cases hq
        exact ⟨mem, hformed⟩
      filed := h.filed
      counted := by
        refine h.counted.send h.filed h.backed.unique mem hcount h.alone fun r₁ hr₁ => ?_
        obtain rfl := Option.some.inj (h.held.symm.trans hr₁)
        refine ⟨fun hused => ?_, fun hcertain hnot => ?_, hidle.resent⟩
        · rw [List.count_cons_self, hfirst hused]
        · obtain rfl | ⟨-, huncertain⟩ := hwaiting
          · exact absurd ⟨_, rfl, rfl, rfl⟩ hnot
          · rw [hcertain] at huncertain
            cases huncertain
      waits := by
        rintro running hrunning
        obtain rfl := Option.some.inj hrunning
        refine ⟨r, { request := .send r.command }, h.held, List.getElem?_concat_length, ?_, ?_,
          fun _ => nofun⟩
        · obtain rfl | ⟨rfl, -⟩ := hwaiting <;> rfl
        · obtain rfl | ⟨rfl, -⟩ := hwaiting <;> rintro (h | h) <;> cases h }
  · exact h.raise hidle

end Held

/-! ### The steps of the client -/

/-- The report of the last step, if it made one, agrees with the table. -/
structure Told (w : World) : Prop where
  rejected : ∀ result, w.returned = some result → result.outcome = .rejected →
    ∀ c, w.harness.ledger.command? result.commandId = some c → c.state = .rejected
  accepted : ∀ result, w.returned = some result → result.outcome = .accepted →
    (w.harness.ledger.command? result.commandId).isSome

theorem told_of_silent (h : w.returned = none) : Told w where
  rejected := by
    intro result hresult
    rw [h] at hresult
    cases hresult
  accepted := by
    intro result hresult
    rw [h] at hresult
    cases hresult

theorem returned_report (key : ControlKey) (r : PendingControlRequest) (outcome : Outcome) :
    (w.report key r outcome).returned = some ⟨r.command.kind, r.command.commandId, outcome⟩ ∧
      (w.report key r outcome).harness = w.harness := by
  unfold World.report
  split_ifs <;> exact ⟨rfl, rfl⟩

theorem told_report {outcome : Outcome}
    (hrejected : outcome = .rejected → ∀ c,
      w.harness.ledger.command? r.command.commandId = some c → c.state = .rejected)
    (haccepted : outcome = .accepted →
      (w.harness.ledger.command? r.command.commandId).isSome) : Told (w.report key r outcome) := by
  obtain ⟨hreturned, hharness⟩ := returned_report key r outcome
  refine ⟨fun result hresult => ?_, fun result hresult => ?_⟩
  · rw [hreturned] at hresult
    obtain rfl := Option.some.inj hresult
    rw [hharness]
    exact hrejected
  · rw [hreturned] at hresult
    obtain rfl := Option.some.inj hresult
    rw [hharness]
    exact haccepted

theorem told_uncertain : Told (w.report key r .postSendUncertain) :=
  told_report nofun nofun

theorem told_send {waiting : Waiting} (h : w.returned = none) :
    Told (w.send env key waiting r) := by
  refine told_of_silent ?_
  unfold World.send
  split_ifs <;> exact h

/-- A row that was read tells of the command, as long as the table keeps it. -/
theorem told_row
    (hrow : ∃ c', w.harness.ledger.command? r.command.commandId = some c' ∧ c.Kept c') :
    Told (w.report key r (commandOutcome c.state)) := by
  obtain ⟨c', hc', hkept⟩ := hrow
  refine told_report (fun houtcome c₁ hc₁ => ?_) fun _ => ?_
  · obtain rfl := Option.some.inj (hc'.symm.trans hc₁)
    refine hkept.rejected ?_
    revert houtcome
    cases c.state <;> decide
  · rw [hc']
    rfl

namespace Sound

variable {running : Call}

theorem silent (h : Sound env w) : Sound env { w with returned := none } :=
  ⟨h.backed, h.filed, h.counted, h.waits⟩

theorem held (h : Sound env w) (hcall : w.call = some running)
    (hr : w.pending running.key = some r) : Held env w running.key r where
  backed := h.backed
  filed := h.filed
  counted := h.counted
  held := hr
  alone other hother := by
    obtain rfl := Option.some.inj (hcall.symm.trans hother)
    rfl

theorem idle (h : Sound env w) (hcall : w.call = some running)
    (hr : w.pending running.key = some r) (hwaiting : running.waiting ≠ .send) :
    Within w.sent False r := by
  refine h.counted.idle hr ?_
  rintro ⟨other, hother, -, hsend⟩
  obtain rfl := Option.some.inj (hcall.symm.trans hother)
  exact hwaiting hsend

/-- The flags of a request whose outcome is uncertain now. -/
theorem within_uncertain (h : Sound env w) (hr : w.pending key = some r) (sending : Prop) :
    Within w.sent sending { r with uncertain := true } where
  once := (h.counted.within key r hr).once
  never := nofun
  resent _ := rfl

/-- A row that comes as a reply is the one that was asked for. -/
theorem answered (h : Sound env w) (hcall : w.call = some running)
    (hr : w.pending running.key = some r)
    (hreply : w.reply? running = some (.command (some c))) :
    r.matchesCommand c = true ∧
      ∃ c', w.harness.ledger.command? r.command.commandId = some c' ∧ c.Kept c' := by
  obtain ⟨r₁, conn, hr₁, hconn, hrequest, -, -⟩ := h.waits running hcall
  obtain rfl := Option.some.inj (hr.symm.trans hr₁)
  have hid : conn.request.commandId = r.command.commandId := by
    rw [hrequest]
    cases running.waiting <;> rfl
  unfold World.reply? at hreply
  rw [hconn] at hreply
  obtain ⟨c', hc', hkept⟩ := h.backed.reply conn (List.mem_of_getElem? hconn) c hreply
  rw [hid] at hc'
  refine ⟨h.filed.matchesCommand hr ?_ ?_, c', hc', hkept⟩
  · rw [← hkept.commandId]
    exact ControlLedger.command?_commandId hc'
  · rw [← matchesCommand_kept hkept]
    exact h.backed.row _ (h.filed.filed _ r hr).1 c' hc'

theorem unobserved (h : Sound env w) (hcall : w.call = some running)
    (hr : w.pending running.key = some r) : Sound env (w.unobserved running r) := by
  have hheld := h.held hcall hr
  unfold World.unobserved
  split
  · have hnow : Held env (w.remember running.key { r with uncertain := true }) running.key
        { r with uncertain := true } := hheld.remember rfl rfl (h.within_uncertain hr _)
    exact hnow.query rfl (h.within_uncertain hr False) (.inr rfl)
  · next hwaiting => exact hheld.report_uncertain (h.idle hcall hr hwaiting)

theorem finish (h : Sound env w) (hcall : w.call = some running)
    (hr : w.pending running.key = some r) (hmatches : r.matchesCommand c = true) :
    Sound env (w.finish running.key r c) := by
  have hheld := h.held hcall hr
  unfold World.finish
  rw [if_pos hmatches]
  by_cases houtcome : commandOutcome c.state = .postSendUncertain
  · simp only [houtcome, decide_true]
    have hnow : Held env (w.remember running.key { r with uncertain := true }) running.key
        { r with uncertain := true } := hheld.remember rfl rfl (h.within_uncertain hr _)
    exact hnow.report_uncertain (h.within_uncertain hr False)
  · -- the request is dropped, so the flag that was set does not matter
    have heq : (w.remember running.key
        { r with uncertain := commandOutcome c.state = .postSendUncertain }).report running.key
          { r with uncertain := commandOutcome c.state = .postSendUncertain }
          (commandOutcome c.state) = w.report running.key r (commandOutcome c.state) := by
      simp only [World.report, World.remember, if_neg houtcome, Function.update_idem]
    exact heq ▸ hheld.report_certain houtcome

theorem sendAgain (h : Sound env w) (hcall : w.call = some running)
    (hr : w.pending running.key = some r) {waiting : Waiting}
    (hwaiting : running.waiting = .status ∧ waiting = .send ∨
      running.waiting = .reconcile ∧ waiting = .resend) :
    Sound env (w.sendAgain env running waiting r) := by
  have hheld := h.held hcall hr
  have hidle : Within w.sent False r := h.idle hcall hr (by
    obtain ⟨heq, -⟩ | ⟨heq, -⟩ := hwaiting <;> rw [heq] <;> decide)
  obtain ⟨r₁, conn, hr₁, -, -, huncertain, -⟩ := h.waits running hcall
  obtain rfl := Option.some.inj (hr.symm.trans hr₁)
  replace huncertain : r.uncertain = true := huncertain (hwaiting.imp And.left And.left)
  unfold World.sendAgain
  split_ifs with hused
  · exact hheld.report_uncertain hidle
  · have hwithin : ∀ P, Within w.sent P { r with resendUsed := true } := by
      refine fun P => ⟨nofun, fun hcertain => ?_, fun _ => huncertain⟩
      rw [show r.uncertain = false from hcertain] at huncertain
      cases huncertain
    have hnow : Held env (w.remember running.key { r with resendUsed := true }) running.key
        { r with resendUsed := true } := hheld.remember rfl rfl (hwithin _)
    refine hnow.send (hwithin False) ?_ ?_ nofun
    · exact hwaiting.imp And.right fun hresend => ⟨hresend.2, huncertain⟩
    · exact hidle.once (Bool.eq_false_iff.mpr hused)

theorem resume (h : Sound env w) (hcall : w.call = some running)
    (hr : w.pending running.key = some r) {reply : Reply}
    (hreply : w.reply? running = some reply) : Sound env (w.resume env running r reply) := by
  have hheld := h.held hcall hr
  unfold World.resume
  split
  · obtain ⟨hmatches, -⟩ := h.answered hcall hr hreply
    split
    · next hwaiting =>
      rw [if_pos hmatches]
      exact hheld.report (h.idle hcall hr (by rw [hwaiting]; decide)) _
    · exact h.finish hcall hr hmatches
  · split
    · next hwaiting => exact h.sendAgain hcall hr (.inl ⟨hwaiting, rfl⟩)
    · next hwaiting => exact h.sendAgain hcall hr (.inr ⟨hwaiting, rfl⟩)
    · exact h.unobserved hcall hr
  · split
    · exact hheld.report_certain (by decide)
    · exact hheld.report_certain (by decide)
    · exact h.unobserved hcall hr

/-! What the call reports is told of the table. -/

theorem told_unobserved (hsilent : w.returned = none) : Told (w.unobserved running r) := by
  unfold World.unobserved
  split
  · exact told_of_silent hsilent
  · exact told_uncertain

theorem told_sendAgain (hsilent : w.returned = none) {waiting : Waiting} :
    Told (w.sendAgain env running waiting r) := by
  unfold World.sendAgain
  split_ifs
  · exact told_uncertain
  · exact told_send hsilent

theorem told_finish (hmatches : r.matchesCommand c = true)
    (hrow : ∃ c', w.harness.ledger.command? r.command.commandId = some c' ∧ c.Kept c') :
    Told (w.finish key r c) := by
  unfold World.finish
  rw [if_pos hmatches]
  exact told_row hrow

theorem told_resume (h : Sound env w) (hsilent : w.returned = none) (hcall : w.call = some running)
    (hr : w.pending running.key = some r) {reply : Reply}
    (hreply : w.reply? running = some reply) : Told (w.resume env running r reply) := by
  unfold World.resume
  split
  · obtain ⟨hmatches, hrow⟩ := h.answered hcall hr hreply
    split
    · rw [if_pos hmatches]
      exact told_row hrow
    · exact told_finish hmatches hrow
  · split
    · exact told_sendAgain hsilent
    · exact told_sendAgain hsilent
    · exact told_unobserved hsilent
  · -- the harness has turned the command away
    obtain ⟨r₁, conn, hr₁, hconn, -, -, hrejected⟩ := h.waits running hcall
    obtain rfl := Option.some.inj (hr.symm.trans hr₁)
    unfold World.reply? at hreply
    rw [hconn] at hreply
    have habsent : ∀ hsend : running.waiting = .send ∨ running.waiting = .resend,
        Told (w.report running.key r .rejected) := by
      intro hsend
      refine told_report (fun _ c hc => ?_) nofun
      rw [hrejected hsend hreply] at hc
      cases hc
    split
    · next hwaiting => exact habsent (.inl hwaiting)
    · next hwaiting => exact habsent (.inr hwaiting)
    · exact told_unobserved hsilent

/-! A call begins, or is cancelled. -/

theorem submit (h : Sound env w) (hcall : w.call = none) (q : CommandRequest) :
    Sound env (w.submit env q) := by
  have halone : ∀ running, w.call = some running → running.key = controlKey env q := by
    intro running hrunning
    rw [hcall] at hrunning
    cases hrunning
  unfold World.submit
  split
  · next htext =>
    split
    · next hnone =>
      split_ifs with hfresh
      · -- the command is created under an id that nobody has used
        obtain ⟨habsent, hunused⟩ := hfresh
        have hzero : w.sent.count q.commandId = 0 := h.counted.unsent _ hunused
        have hcounted := h.counted
        rw [hcall] at hcounted
        have hheld : Held env (w.file env q) (controlKey env q) (.of env q) := {
          backed := h.backed.create habsent hunused htext
          filed := h.filed.create hnone rfl rfl
          counted := by
            have hnew : Counted (q :: w.created)
                (Function.update w.pending (controlKey env q) (some (.of env q))) none w.sent :=
              hcounted.create hunused rfl rfl
            rwa [← hcall] at hnew
          held := Function.update_self ..
          alone := halone }
        exact hheld.send ⟨fun _ => hzero.le.trans (by decide), fun _ _ => hzero, nofun⟩ (.inl rfl)
          (hzero.le.trans (by decide)) fun _ => hzero
      · exact h
    · next r hr =>
      have hidle := h.counted.idle hr (by
        rintro ⟨running, hrunning, -⟩
        rw [hcall] at hrunning
        cases hrunning)
      have hheld : Held env w _ r := ⟨h.backed, h.filed, h.counted, hr, halone⟩
      split_ifs with hkey huncertain
      · exact hheld.query huncertain hidle (.inl rfl)
      · have hzero := hidle.never (Bool.eq_false_iff.mpr huncertain) id
        exact hheld.send hidle (.inl rfl) (hzero.le.trans (by decide)) fun _ => hzero
      · exact h
  · exact h

theorem sendControl (h : Sound env w) (status : LiveWorkerStatus) (m : Mutation) (minted : String) :
    Sound env (w.sendControl env status m minted) := by
  unfold World.sendControl
  split
  · next hcall _ _ => exact h.submit hcall _
  · exact h

theorem told_submit (hsilent : w.returned = none) (q : CommandRequest) :
    Told (w.submit env q) := by
  unfold World.submit
  split
  · split
    · split_ifs
      · exact told_send hsilent
      · exact told_of_silent hsilent
    · split_ifs
      · exact told_of_silent hsilent
      · exact told_send hsilent
      · exact told_of_silent hsilent
  · exact told_of_silent hsilent

theorem told_sendControl (hsilent : w.returned = none) (status : LiveWorkerStatus) (m : Mutation)
    (minted : String) : Told (w.sendControl env status m minted) := by
  unfold World.sendControl
  split
  · exact told_submit hsilent _
  · exact told_of_silent hsilent

theorem cancel (h : Sound env w) (hmeets : w.Meets env .cancel) : Sound env w.raise := by
  cases hcall : w.call with
  | none =>
    refine ⟨h.backed, h.filed, ?_, nofun⟩
    have hcounted := h.counted
    rwa [hcall] at hcounted
  | some running =>
    obtain ⟨r, conn, hr, -⟩ := h.waits running hcall
    refine (h.held hcall hr).raise ?_
    by_cases hwaiting : running.waiting = .send
    · have hw := h.counted.within _ r hr
      have huncertain := hw.resent (hmeets running hcall hwaiting r hr)
      refine ⟨hw.once, fun hcertain => ?_, hw.resent⟩
      rw [hcertain] at huncertain
      cases huncertain
    · exact h.idle hcall hr hwaiting

/-! ### The steps of the harness -/

/-- The tables change under the client. -/
theorem move (h : Sound env w) {op : ControlOp} {ledger : ControlLedger}
    (hrewrites : ControlLedger.Rewrites env w.harness.ledger op ledger)
    (hvalid : ledger.Valid env)
    (hnew : ∀ q ∈ w.created, op.creates = some q.commandId →
      ∀ c, ledger.command? q.commandId = some c → q.matchesCommand env c = true)
    (hrefused : ∀ q ∈ w.created, op.creates = some q.commandId → w.refused q.commandId = false) :
    Sound env { w with harness := { w.harness with ledger := ledger } } where
  backed := by
    refine h.backed.move hvalid (fun _ _ => hrewrites.command?_some) fun q mem hnone c hc => ?_
    by_cases hcreates : op.creates = some q.commandId
    · exact hnew q mem hcreates c hc
    · rw [hrewrites.command?_none hnone hcreates] at hc
      cases hc
  filed := h.filed
  counted := h.counted
  waits := by
    intro running hcall
    obtain ⟨r, conn, hr, hconn, hrequest, huncertain, hrejected⟩ := h.waits running hcall
    refine ⟨r, conn, hr, hconn, hrequest, huncertain, fun hsend hreply => ?_⟩
    refine hrewrites.command?_none (hrejected hsend hreply) fun hcreates => ?_
    have hnot := hrefused _ (h.filed.filed _ r hr).1 hcreates
    have hid : conn.request.commandId = r.command.commandId := by
      rw [hrequest]
      cases running.waiting <;> rfl
    refine Bool.eq_false_iff.mp hnot ?_
    unfold World.refused World.reply?
    rw [show w.call = some running from hcall]
    simp [hconn, hreply, hid, hsend]

theorem answer (h : Sound env w) {connection : ℕ} {reply : Reply}
    (hrow : ∀ conn, w.connections[connection]? = some conn → ∀ c, reply = .command (some c) →
      w.harness.ledger.command? conn.request.commandId = some c)
    (hrejected : reply = .rejected → w.awaits connection = true → ∀ conn,
      w.connections[connection]? = some conn → ∀ q, conn.request = .send q →
        w.harness.ledger.command? q.commandId = none) :
    Sound env (w.answer connection reply) where
  backed := h.backed.answer hrow
  filed := h.filed
  counted := h.counted
  waits := by
    intro running hcall
    obtain ⟨r, conn, hr, hconn, hrequest, huncertain, hold⟩ := h.waits running hcall
    by_cases heq : connection = running.connection
    · subst heq
      refine ⟨r, { conn with reply := some reply }, hr, ?_, hrequest, huncertain, ?_⟩
      · show (w.connections.modify _ _)[running.connection]? = _
        rw [List.getElem?_modify_eq, hconn]
        rfl
      · intro hsend hreply
        refine hrejected (Option.some.inj hreply) ?_ conn hconn r.command ?_
        · unfold World.awaits
          rw [show w.call = some running from hcall]
          simp
        · rw [hrequest]
          obtain hsend | hsend := hsend <;> rw [hsend] <;> rfl
    · refine ⟨r, conn, hr, ?_, hrequest, huncertain, hold⟩
      show (w.connections.modify _ _)[running.connection]? = _
      rw [List.getElem?_modify_ne _ _ heq, hconn]

theorem unanswered_eq {connection : ℕ} {request : Request}
    (h : w.unanswered connection = some request) :
    ∃ conn, w.connections[connection]? = some conn ∧ conn.reply = none ∧
      conn.request = request := by
  unfold World.unanswered at h
  obtain ⟨conn, hconn, h⟩ := Option.bind_eq_some_iff.mp h
  split_ifs at h with hreply
  exact ⟨conn, hconn, Option.isNone_iff_eq_none.mp hreply, Option.some.inj h⟩

/-- A command that the table holds is answered with its row while its turn is bound. -/
theorem createControl_stored (h : Sound env w) (mem : q ∈ w.created)
    (hformed : wellFormed env q = true) (hactive : w.harness.activeTurns q.dispatchId = some q.turn)
    (hc : w.harness.ledger.command? q.commandId = some c) :
    w.harness.createControl env q now = .ok w.harness.ledger := by
  unfold Harness.createControl
  rw [ensure_of hformed, ok_bind, ensure_of (by rw [hactive]; rfl), ok_bind, ensure_of hactive,
    ok_bind]
  exact ControlLedger.call_create_stored h.backed.valid hc (h.backed.row q mem c hc)
    (h.backed.text q mem)

theorem createControl_ok {ledger : ControlLedger}
    (h : w.harness.createControl env q now = .ok ledger) :
    w.harness.ledger.call env (.create q now) = .ok ledger := by
  unfold Harness.createControl at h
  simp only [checks_ok] at h
  exact h.2.2.2

theorem serve_send (h : Sound env w) {connection : ℕ}
    (hrequest : w.unanswered connection = some (.send q))
    (hmeets : w.Meets env (.serve connection now)) :
    Sound env ({ w with harness := (w.harness.serve env now (.send q)).1 }.answer connection
      (w.harness.serve env now (.send q)).2) := by
  obtain ⟨conn, hconn, hnone, hq⟩ := unanswered_eq hrequest
  obtain ⟨mem, hformed⟩ := h.backed.request conn (List.mem_of_getElem? hconn) q hq
  obtain ⟨hbound, hrefused⟩ := hmeets q (by unfold World.asked; rw [hrequest]; rfl)
  have hasked : ∀ conn', w.connections[connection]? = some conn' → conn' = conn :=
    fun conn' hconn' => Option.some.inj (hconn'.symm.trans hconn)
  cases hserve : w.harness.createControl env q now with
  | ok ledger =>
    have hcall := createControl_ok hserve
    have hcommand := ControlLedger.call_create hcall
    have hmove : Sound env { w with harness := { w.harness with ledger := ledger } } := by
      refine h.move (ControlLedger.body_rewrites (ControlLedger.call_ok hcall).1)
        (ControlLedger.call_ok hcall).2 (fun q' mem' hid c hc => ?_) fun q' mem' hid => ?_
      · have hsame := h.backed.unique q mem q' mem' (Option.some.inj hid)
        obtain ⟨c', hc', hmatches⟩ := hcommand
        rw [← hsame] at hc ⊢
        obtain rfl := Option.some.inj (hc'.symm.trans hc)
        exact hmatches
      · have hsame := h.backed.unique q mem q' mem' (Option.some.inj hid)
        rw [← hsame]
        refine Bool.eq_false_iff.mpr fun hcoming => ?_
        have hnot := hrefused hcoming
        rw [hserve] at hnot
        cases hnot
    simp only [Harness.serve, hserve]
    refine hmove.answer (fun conn' hconn' c hc => ?_) nofun
    rw [hasked conn' hconn', hq]
    exact Reply.command.inj hc
  | error error =>
    simp only [Harness.serve, hserve]
    show Sound env (w.answer connection .rejected)
    refine h.answer (fun _ _ _ => nofun) fun _ hawaits conn' hconn' q' hq' => ?_
    rw [hasked conn' hconn', hq] at hq'
    obtain rfl := Request.send.inj hq'
    by_contra hstored
    obtain ⟨c, hc⟩ := Option.ne_none_iff_exists'.mp hstored
    have hok : w.harness.createControl env q now = .ok w.harness.ledger :=
      h.createControl_stored mem hformed (hbound hawaits (by rw [hc]; rfl)) hc
    rw [hok] at hserve
    cases hserve

theorem serve_status (h : Sound env w) {connection : ℕ} {commandId : String}
    (hrequest : w.unanswered connection = some (.status commandId)) :
    Sound env (w.answer connection (.command (w.harness.ledger.command? commandId))) := by
  obtain ⟨conn, hconn, -, hstatus⟩ := unanswered_eq hrequest
  refine h.answer (fun conn' hconn' c hc => ?_) nofun
  obtain rfl := Option.some.inj (hconn'.symm.trans hconn)
  rw [hstatus]
  exact Reply.command.inj hc

theorem turnAway (h : Sound env w) {connection : ℕ} {request : Request}
    (hrequest : w.unanswered connection = some request)
    (hmeets : w.Meets env (.turnAway connection)) : Sound env (w.answer connection .rejected) := by
  obtain ⟨conn, hconn, -, hsame⟩ := unanswered_eq hrequest
  refine h.answer (fun _ _ _ => nofun) fun _ hawaits conn' hconn' q hq => ?_
  obtain rfl := Option.some.inj (hconn'.symm.trans hconn)
  rw [hsame] at hq
  subst hq
  exact Option.isNone_iff_eq_none.mp
    (hmeets q (by unfold World.asked; rw [hrequest]; rfl) hawaits)

theorem write (h : Sound env w) {op : ControlOp} (hforeign : w.Foreign op) :
    Sound env { w with harness :=
      { w.harness with ledger := w.harness.ledger.next env op } } :=
  h.move (ControlLedger.next_rewrites op) (ControlLedger.next_valid h.backed.valid op)
    (fun q mem hid => absurd hid (hforeign q mem)) fun q mem hid => absurd hid (hforeign q mem)

/-- A step that meets the condition keeps the invariant, and what it reports is true. -/
theorem apply (h : Sound env w) (hsilent : w.returned = none) {event : World.Event}
    (hmeets : w.Meets env event) : Sound env (w.apply env event) ∧ Told (w.apply env event) := by
  cases event with
  | sendControl status m minted =>
    exact ⟨h.sendControl status m minted, told_sendControl hsilent status m minted⟩
  | serve connection now =>
    simp only [World.apply]
    split
    · next request hrequest =>
      cases request with
      | send q => exact ⟨h.serve_send hrequest hmeets, told_of_silent hsilent⟩
      | status commandId => exact ⟨h.serve_status hrequest, told_of_silent hsilent⟩
    · exact ⟨h, told_of_silent hsilent⟩
  | turnAway connection =>
    simp only [World.apply]
    split
    · next request hrequest => exact ⟨h.turnAway hrequest hmeets, told_of_silent hsilent⟩
    · exact ⟨h, told_of_silent hsilent⟩
  | receive =>
    simp only [World.apply]
    split
    · next running hcall =>
      split
      · next r reply hr hreply =>
        exact ⟨h.resume hcall hr hreply, h.told_resume hsilent hcall hr hreply⟩
      · exact ⟨h, told_of_silent hsilent⟩
    · exact ⟨h, told_of_silent hsilent⟩
  | unobserved =>
    simp only [World.apply]
    split
    · next running hcall =>
      split
      · next r hr => exact ⟨h.unobserved hcall hr, told_unobserved hsilent⟩
      · exact ⟨h, told_of_silent hsilent⟩
    · exact ⟨h, told_of_silent hsilent⟩
  | cancel => exact ⟨h.cancel hmeets, told_of_silent hsilent⟩
  | bind dispatchId turn =>
    exact ⟨⟨h.backed, h.filed, h.counted, h.waits⟩, told_of_silent hsilent⟩
  | write op =>
    simp only [World.apply]
    split_ifs with hforeign
    · exact ⟨h.write hforeign, told_of_silent hsilent⟩
    · exact ⟨h, told_of_silent hsilent⟩

theorem truthful (h : Sound env w) (htold : Told w) : Truthful env w where
  rejected := htold.rejected
  accepted := htold.accepted
  twice := h.counted.twice
  single := by
    intro q mem q' mem' hkey hne
    obtain hsettled | ⟨r, hr, hq⟩ := h.filed.settled q mem
    · exact .inl hsettled
    · obtain hsettled | ⟨r', hr', hq'⟩ := h.filed.settled q' mem'
      · exact .inr hsettled
      · rw [hkey] at hr
        obtain rfl := Option.some.inj (hr.symm.trans hr')
        exact absurd (hq.symm.trans hq') hne

end Sound

/-! ### Every run -/

theorem valid_initial (env : ControlEnv) : ({} : ControlLedger).Valid env := by
  have hledger : ({} : Ledger).Valid env.toEnv := Reachable.valid ⟨[], rfl⟩
  exact ⟨hledger, fun c mem => absurd mem List.not_mem_nil,
    fun c mem => absurd mem List.not_mem_nil⟩

theorem backed_initial : Backed env {} [] [] where
  valid := valid_initial env
  unique _ mem := absurd mem List.not_mem_nil
  text _ mem := absurd mem List.not_mem_nil
  row _ mem := absurd mem List.not_mem_nil
  request _ mem := absurd mem List.not_mem_nil
  reply _ mem := absurd mem List.not_mem_nil

theorem sound_initial : Sound env {} where
  backed := backed_initial
  filed := ⟨fun key r hr => (by cases hr), fun q mem => absurd mem List.not_mem_nil⟩
  counted := ⟨fun commandId _ => List.count_nil, fun commandId => Nat.zero_le 2,
    fun key r hr => by cases hr⟩
  waits running hrunning := by cases hrunning

/-- In a run whose steps meet the condition the client reports the truth, sends no id three times,
and creates no second command for a request before the first one is settled. -/
theorem controls_truthful (env : ControlEnv) (events : List World.Event)
    (h : Machine.Along (World.next env) (fun w event => w.Meets env event) {} events) :
    Machine.Always (World.next env) (Truthful env) {} events := by
  intro before hbefore
  have hsound : Sound env (Machine.run (World.next env) {} before) ∧
      Told (Machine.run (World.next env) {} before) := by
    refine Machine.invariant_along (I := fun w => Sound env w ∧ Told w)
      (fun w event hw hmeets => ?_) ⟨sound_initial, told_of_silent rfl⟩ (h.initial hbefore)
    exact hw.1.silent.apply rfl hmeets
  exact hsound.1.truthful hsound.2

def boundWorker : List World.Event :=
  (enqueued ++ started 1 ++ [Op.bindThread sampleId 1 1 1 "token" "thread-1" 5]).map
      (World.Event.write ∘ ControlOp.queue) ++ [.bind sampleId (some ⟨1, 1, "thread-1", "turn-1"⟩)]

def interruptIt : World.Event :=
  .sendControl ⟨sampleId, 1, 1, some "thread-1", some "turn-1"⟩ .interrupt "command-1"

/-- The reply to an interrupt is lost, and its status is asked for. -/
def recoveredRun : List World.Event :=
  boundWorker ++ [interruptIt, .serve 0 6, .unobserved, .serve 1 6, .receive]

theorem recoveredRun_truthful :
    Machine.Along (World.next .sample) (fun w event => w.Meets .sample event) {} recoveredRun ∧
      (Machine.run (World.next .sample) {} recoveredRun).returned =
        some ⟨.interrupt, "command-1", .accepted⟩ ∧
      Machine.Always (World.next .sample) (Truthful .sample) {} recoveredRun := by
  have h : Machine.Along (World.next .sample) (fun w event => w.Meets .sample event) {}
      recoveredRun := by decide +kernel
  exact ⟨h, by decide +kernel, controls_truthful .sample recoveredRun h⟩

/-- An interrupt is late, and its status absent; it takes effect before it is sent again, and the
turn is over by then. -/
def lateRun : List World.Event :=
  boundWorker ++ [interruptIt, .unobserved, .serve 1 6, .receive, .serve 0 6, .bind sampleId none,
    .serve 2 6, .receive]

/-- The client calls a command rejected that the table holds. -/
theorem lateRun_untruthful : ¬ ∀ (env : ControlEnv) (events : List World.Event),
    Machine.Always (World.next env) (Truthful env) {} events := by
  intro h
  have htruthful := h .sample lateRun lateRun List.prefix_rfl
  have hfails : (Machine.run (World.next .sample) {} lateRun).returned =
      some ⟨.interrupt, "command-1", .rejected⟩ ∧
      ((Machine.run (World.next .sample) {} lateRun).harness.ledger.command? "command-1").any
        (·.state = .pending) = true := by
    decide +kernel
  obtain ⟨hreturned, hstored⟩ := hfails
  obtain ⟨c, hc, hpending⟩ := (Option.any_eq_true _ _).mp hstored
  have hrejected := htruthful.rejected _ hreturned rfl c hc
  rw [hrejected] at hpending
  cases hpending

end CodexFlow.TerminalUi
