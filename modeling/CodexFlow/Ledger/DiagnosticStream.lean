import CodexFlow.Ledger.Diagnostics
import CodexFlow.Ledger.Fencing

/-!
# The diagnostic stream of a worker

The ring of a dispatch is a window of the stream of accepted events, and its newest entry is the
newest entry of that stream. So the newest position of the ring tells an event that was accepted
before from the next one, also after the ring evicted it.
-/

namespace CodexFlow.Ledger

open Checked

/-! ### One event -/

theorem le_latestSequence {ring : List DiagnosticItem} {item : DiagnosticItem} (h : item ∈ ring) :
    item.sequence ≤ latestSequence ring := by
  induction ring with
  | nil => cases h
  | cons head ring ih =>
    rcases List.mem_cons.1 h with rfl | h
    · exact le_max_left ..
    · exact (ih h).trans (le_max_right ..)

theorem latestSequence_le {ring : List DiagnosticItem} {n : ℕ}
    (h : ∀ item ∈ ring, item.sequence ≤ n) : latestSequence ring ≤ n := by
  induction ring with
  | nil => exact Nat.zero_le n
  | cons head ring ih =>
    exact max_le (h head List.mem_cons_self) (ih fun item hi => h item (List.mem_cons_of_mem _ hi))

theorem latestSequence_concat {kept ring : List DiagnosticItem} (hkept : kept <:+ ring)
    {item : DiagnosticItem} (hitem : latestSequence ring < item.sequence) :
    latestSequence (kept ++ [item]) = item.sequence := by
  refine le_antisymm (latestSequence_le fun other hother => ?_) (le_latestSequence (by simp))
  rcases List.mem_append.1 hother with h | h
  · exact (le_latestSequence (hkept.subset h)).trans hitem.le
  · rw [List.mem_singleton.1 h]

theorem DiagnosticBody.carries_item (body : DiagnosticBody) (sequence : ℕ) (occurredAt : Time) :
    (body.item sequence occurredAt).carries body := by
  simp [item, DiagnosticItem.carries]

/-- A new position evicts the oldest rows only. -/
theorem appendDiagnosticRow_ok {ring ring' : List DiagnosticItem} {body : DiagnosticBody}
    {position : ℕ} {now : Time} {row : DiagnosticItem} (hnew : latestSequence ring < position)
    (h : appendDiagnosticRow ring body (some position) now = .ok (ring', row)) :
    row = body.item position now ∧ ∃ kept, kept <:+ ring ∧ ring' = kept ++ [row] := by
  have hfind : ring.find? (·.sequence = position) = none := by
    refine List.find?_eq_none.2 fun item hitem => ?_
    have := le_latestSequence hitem
    simp only [decide_eq_true_eq]
    omega
  simp only [appendDiagnosticRow, Option.bind_some, hfind, Option.getD_some, checks_ok] at h
  obtain ⟨-, -, hstorable, h⟩ := h
  have hbytes : body.payloadBytes ≤ diagnosticRingMaxBytes := by
    simp only [DiagnosticItem.isStorable, Bool.and_eq_true, decide_eq_true_eq] at hstorable
    exact hstorable.2.trans (by decide)
  obtain ⟨kept, hkept, hevict⟩ := @Window.evict_concat _ DiagnosticItem.payloadBytes
    diagnosticRingMaxEntries _ ring (body.item position now) (by decide) hbytes
  have hrow : (kept ++ [body.item position now]).find? (·.sequence = position) =
      some (body.item position now) := by
    rw [List.find?_append, List.find?_eq_none.2 fun item hitem => ?_]
    · simp [DiagnosticBody.item]
    · have := le_latestSequence (hkept.subset hitem)
      simp only [decide_eq_true_eq]
      omega
  rw [hevict, hrow, pure_eq_ok, Prod.mk.injEq] at h
  obtain ⟨rfl, rfl⟩ := h
  exact ⟨rfl, kept, hkept, rfl⟩

/-- A control repair keeps the capture of its completion, and no other event brings one. -/
def WorkerDiagnostic.Kept (event : WorkerDiagnostic) (r : DispatchRows) : Prop :=
  if r.isControlRepair ∧ event.kind = "turn/completed" then
    ∃ capture, event.terminalIntegrity = some capture ∧ capture.isWellFormed ∧
      r.integrity.map (·.capture) = some capture
  else event.terminalIntegrity = none

/-- The queue row, and an integrity row that exists, stay as they are. -/
structure DispatchRows.Retains (r r' : DispatchRows) : Prop where
  queue : r'.queue = r.queue
  integrity : ∀ i ∈ r.integrity, r'.integrity = some i

theorem DispatchRows.Retains.isControlRepair {r r' : DispatchRows} (h : r.Retains r') :
    r'.isControlRepair = r.isControlRepair := by
  simp only [DispatchRows.isControlRepair, h.queue]

theorem WorkerDiagnostic.Kept.retained {event : WorkerDiagnostic} {r r' : DispatchRows}
    (h : event.Kept r) (hr : r.Retains r') : event.Kept r' := by
  unfold Kept at h ⊢
  rw [hr.isControlRepair]
  split_ifs at h ⊢
  · obtain ⟨capture, hcapture, hwell, hsome⟩ := h
    obtain ⟨i, hi, rfl⟩ := Option.map_eq_some_iff.1 hsome
    exact ⟨i.capture, hcapture, hwell, by rw [hr.integrity i hi]; rfl⟩
  · exact h

theorem captures_ok {event : WorkerDiagnostic} {now : Time} {allowInsert : Bool}
    {r r' : DispatchRows} (h : event.captures now allowInsert r = .ok r') :
    r.Retains r' ∧ r'.diagnostics = r.diagnostics ∧ event.Kept r' := by
  unfold WorkerDiagnostic.captures DispatchRows.captureIntegrity at h
  split_ifs at h with hrequired
  · simp only [steps_ok] at h
    obtain ⟨hnone, rfl⟩ := h
    have hkept : event.Kept r := by
      rw [WorkerDiagnostic.Kept, if_neg fun h => by simp [h.1, h.2] at hrequired]
      simpa using hnone
    exact ⟨⟨rfl, fun i hi => hi⟩, rfl, hkept⟩
  · have hrepair : r.isControlRepair ∧ event.kind = "turn/completed" := by simpa using hrequired
    split at h
    · cases h
    · next capture hcapture =>
      simp only [checks_ok] at h
      obtain ⟨hwell, h⟩ := h
      split at h
      · next existing hexisting =>
        simp only [steps_ok] at h
        obtain ⟨hsame, rfl⟩ := h
        refine ⟨⟨rfl, fun i hi => hi⟩, rfl, ?_⟩
        rw [WorkerDiagnostic.Kept, if_pos hrepair]
        exact ⟨capture, hcapture, hwell, by simp [hexisting, hsame]⟩
      · next hexisting =>
        simp only [steps_ok] at h
        obtain ⟨-, -, -, rfl⟩ := h
        have hretains : r.Retains { r with integrity := some ⟨capture, none⟩ } :=
          ⟨rfl, fun i hi => by simp [hexisting] at hi⟩
        refine ⟨hretains, rfl, ?_⟩
        rw [WorkerDiagnostic.Kept, hretains.isControlRepair, if_pos hrepair]
        exact ⟨capture, hcapture, hwell, rfl⟩

/-- A capture that is kept is acknowledged again, also where none may be inserted. -/
theorem captures_again {event : WorkerDiagnostic} {r : DispatchRows} (h : event.Kept r)
    (now : Time) : event.captures now false r = .ok r := by
  unfold WorkerDiagnostic.Kept at h
  unfold WorkerDiagnostic.captures DispatchRows.captureIntegrity
  split_ifs at h with hrepair
  · obtain ⟨capture, hcapture, hwell, hi⟩ := h
    obtain ⟨i, hi, hsame⟩ := Option.map_eq_some_iff.1 hi
    rw [if_neg (by simp [hrepair])]
    simp [hcapture, hwell, hi, hsame, ensure]
  · rw [if_pos (by by_contra hrequired; exact hrepair (by simpa using hrequired)), h]
    rfl

/-- What an event that succeeds after the authority checks does to the rows: it is a replay, or it
is the next one of the stream. -/
theorem record_cases {env : Env} {event : WorkerDiagnostic} {body : DiagnosticBody} {now : Time}
    {r r' : DispatchRows} {row : Option DiagnosticItem}
    (h : event.record env body now r = .ok (r', row)) :
    (event.sequence ≤ latestSequence r.diagnostics ∧ event.captures now false r = .ok r') ∨
    (event.sequence = latestSequence r.diagnostics + 1 ∧
      row = some (body.item event.sequence now) ∧
      (∃ kept, kept <:+ r.diagnostics ∧
        r'.diagnostics = kept ++ [body.item event.sequence now]) ∧
      validateDiagnosticRing env r'.diagnostics = .ok () ∧
      ∃ ring, event.captures now true { r with diagnostics := ring } = .ok r') := by
  unfold WorkerDiagnostic.record at h
  split at h
  · next existing hexisting =>
    simp only [steps_ok, Prod.mk.injEq] at h
    obtain ⟨-, _, hcapture, rfl, rfl⟩ := h
    have hle := le_latestSequence (List.mem_of_find?_eq_some hexisting)
    have hsequence : existing.sequence = event.sequence := by
      simpa using List.find?_some hexisting
    exact .inl ⟨hsequence ▸ hle, hcapture⟩
  · split_ifs at h with hle
    · simp only [bind_eq_ok, pure_eq_ok, Prod.mk.injEq] at h
      obtain ⟨_, hcapture, rfl, rfl⟩ := h
      exact .inl ⟨hle, hcapture⟩
    · simp only [steps_ok, Prod.exists, Prod.mk.injEq] at h
      obtain ⟨hnext, ring, item, happend, _, hcapture, _, hvalid, rfl, rfl⟩ := h
      obtain ⟨rfl, hkept⟩ := appendDiagnosticRow_ok (by omega) happend
      have hring := (captures_ok hcapture).2.1
      exact .inr ⟨hnext, rfl, hring ▸ hkept, hvalid, ring, hcapture⟩

/-! ### Calls -/

/-- A call of `append_worker_diagnostic` with its clock reading. -/
structure DiagnosticCall where
  dispatchId : DispatchId
  event : WorkerDiagnostic
  now : Time

def ringOf (L : Ledger) (d : DispatchId) : List DiagnosticItem :=
  (L.dispatches.get? d).elim [] (·.diagnostics)

namespace DiagnosticCall

variable (env : Env) (L : Ledger) (call : DiagnosticCall)

def append : Checked (Ledger × Option DiagnosticItem) :=
  L.appendWorkerDiagnostic env call.dispatchId call.event call.now

/-- The ledger after the call: a call that raises leaves it as it was. -/
def receive : Ledger := (call.append env L).toOption.elim L Prod.fst

/-- The row that the call stores beyond the newest position of the ring. -/
def stores : Option DiagnosticItem :=
  if latestSequence (ringOf L call.dispatchId) < call.event.sequence then
    (call.append env L).toOption.bind Prod.snd
  else none

def Live : Prop :=
  1 ≤ call.event.generation ∧ 1 ≤ call.event.attempt ∧ 0 < call.event.epoch ∧
    0 < call.event.lease ∧ isAscii call.event.token ∧ L.harnessLive call.event.epoch call.now ∧
    ∃ r, L.dispatches.get? call.dispatchId = some r ∧ call.event.isAuthorized env r

/-- The call sends the event of `first` again. -/
def Retransmits (first : DiagnosticCall) : Prop :=
  call.dispatchId = first.dispatchId ∧ call.event.kind = first.event.kind ∧
    call.event.text = first.event.text ∧
    call.event.payloadSha256 = first.event.payloadSha256 ∧
    call.event.sequence = first.event.sequence ∧
    call.event.terminalIntegrity = first.event.terminalIntegrity

end DiagnosticCall

def receiveAll (env : Env) (L : Ledger) (calls : List DiagnosticCall) : Ledger :=
  Machine.run (fun L call => call.receive env L) L calls

/-- The calls of a run that stored a row for `d`, each with its row. -/
def accepted (env : Env) (d : DispatchId) :
    Ledger → List DiagnosticCall → List (DiagnosticCall × DiagnosticItem)
  | _, [] => []
  | L, call :: calls =>
    (if call.dispatchId = d then (call.stores env L).toList.map (call, ·) else []) ++
      accepted env d (call.receive env L) calls

/-! ### The stream of a dispatch -/

theorem ringOf_of_get? {L : Ledger} {d : DispatchId} {r : DispatchRows}
    (h : L.dispatches.get? d = some r) : ringOf L d = r.diagnostics := by
  rw [ringOf, h, Option.elim_some]

@[simp] theorem renew_diagnostics (event : WorkerDiagnostic) (now : Time) (r : DispatchRows) :
    (event.renew now r).diagnostics = r.diagnostics := rfl

theorem renew_retains (event : WorkerDiagnostic) (now : Time) (r : DispatchRows) :
    r.Retains (event.renew now r) := ⟨rfl, fun _ hi => hi⟩

namespace DiagnosticCall

variable {env : Env} {L L' : Ledger} {call : DiagnosticCall} {row : Option DiagnosticItem}

theorem append_ok (h : call.append env L = .ok (L', row)) :
    ∃ body r r', call.event.body env = .ok body ∧ L.dispatches.get? call.dispatchId = some r ∧
      L' = { L with dispatches := L.dispatches.set call.dispatchId r' } ∧
      call.event.record env body call.now (call.event.renew call.now r) = .ok (r', row) := by
  simp only [append, appendWorkerDiagnostic, bind_eq_ok] at h
  obtain ⟨body, hbody, _, -, h⟩ := h
  split at h
  · cases h
  · next r hr =>
    simp only [steps_ok, Prod.exists, Prod.mk.injEq] at h
    obtain ⟨_, -, -, -, r', _, hrecord, rfl, rfl⟩ := h
    exact ⟨body, r, r', hbody, hr, rfl, hrecord⟩

theorem receive_of_ok (h : call.append env L = .ok (L', row)) : call.receive env L = L' := by
  rw [receive, h]
  rfl

theorem receive_of_error {e : LedgerError} (h : call.append env L = .error e) :
    call.receive env L = L := by
  rw [receive, h]
  rfl

end DiagnosticCall

/-- The entry of the stream is the body of its call, and its capture is kept. -/
structure Recorded (env : Env) (L : Ledger) (d : DispatchId)
    (entry : DiagnosticCall × DiagnosticItem) : Prop where
  dispatchId : entry.1.dispatchId = d
  body : ∃ body, entry.1.event.body env = .ok body ∧
    entry.2 = body.item entry.1.event.sequence entry.1.now
  kept : ∃ r, L.dispatches.get? d = some r ∧ entry.1.event.Kept r

/-- The ring of `d` is a window of the stream of its accepted events. -/
structure Follows (env : Env) (d : DispatchId) (L : Ledger)
    (stream : List (DiagnosticCall × DiagnosticItem)) : Prop where
  positions : stream.map (·.2.sequence) = List.range' 1 stream.length
  window : ringOf L d <:+ stream.map Prod.snd
  newest : latestSequence (ringOf L d) = stream.length
  valid : validateDiagnosticRing env (ringOf L d) = .ok ()
  recorded : ∀ entry ∈ stream, Recorded env L d entry

section Stream

variable {env : Env} {d : DispatchId} {L : Ledger} {stream : List (DiagnosticCall × DiagnosticItem)}

theorem Follows.start (h : ringOf L d = []) : Follows env d L [] where
  positions := rfl
  window := by rw [h]; exact List.suffix_rfl
  newest := by rw [h]; rfl
  valid := by rw [h]; rfl
  recorded := fun _ hentry => absurd hentry List.not_mem_nil

/-- Rows that keep the ring and the capture keep the window. -/
theorem Follows.retained (h : Follows env d L stream) {L' : Ledger}
    (hring : ringOf L' d = ringOf L d)
    (hrows : ∀ r, L.dispatches.get? d = some r →
      ∃ r', L'.dispatches.get? d = some r' ∧ r.Retains r') : Follows env d L' stream where
  positions := h.positions
  window := hring ▸ h.window
  newest := hring ▸ h.newest
  valid := hring ▸ h.valid
  recorded := by
    intro entry hentry
    obtain ⟨hd, hbody, r, hr, hkept⟩ := h.recorded entry hentry
    obtain ⟨r', hr', hretains⟩ := hrows r hr
    exact ⟨hd, hbody, r', hr', hkept.retained hretains⟩

theorem Follows.concat {body : DiagnosticBody} {call : DiagnosticCall} {r : DispatchRows}
    {kept : List DiagnosticItem} {L' : Ledger} {r' : DispatchRows} (h : Follows env d L stream)
    (hr : L.dispatches.get? d = some r) (hr' : L'.dispatches.get? d = some r')
    (hretains : r.Retains r') (hd : call.dispatchId = d) (hbody : call.event.body env = .ok body)
    (hkept : kept <:+ ringOf L d) (hnext : call.event.sequence = latestSequence (ringOf L d) + 1)
    (hring : r'.diagnostics = kept ++ [body.item call.event.sequence call.now])
    (hvalid : validateDiagnosticRing env r'.diagnostics = .ok ())
    (hcaptured : call.event.Kept r') :
    Follows env d L' (stream ++ [(call, body.item call.event.sequence call.now)]) where
  positions := by
    rw [List.map_append, h.positions, List.map_singleton, List.length_append,
      List.length_singleton, List.range'_1_concat]
    congr 2
    rw [← h.newest, Nat.add_comm]
    exact hnext
  window := by
    rw [ringOf_of_get? hr', hring, List.map_append, List.map_singleton]
    exact Window.suffix_concat (hkept.trans h.window) _
  newest := by
    rw [ringOf_of_get? hr', hring, latestSequence_concat hkept (by
      show latestSequence (ringOf L d) < call.event.sequence
      omega), List.length_append, List.length_singleton, ← h.newest]
    exact hnext
  valid := by rw [ringOf_of_get? hr']; exact hvalid
  recorded := by
    intro entry hentry
    rcases List.mem_append.1 hentry with hold | hnew
    · obtain ⟨hid, hbody, r₀, hr₀, hkept₀⟩ := h.recorded entry hold
      obtain rfl : r = r₀ := Option.some.inj (hr.symm.trans hr₀)
      exact ⟨hid, hbody, r', hr', hkept₀.retained hretains⟩
    · rw [List.mem_singleton.1 hnew]
      exact ⟨hd, ⟨body, hbody, rfl⟩, r', hr', hcaptured⟩

theorem Follows.receive (h : Follows env d L stream) (call : DiagnosticCall) :
    Follows env d (call.receive env L)
      (stream ++ if call.dispatchId = d then (call.stores env L).toList.map (call, ·) else []) := by
  cases hcall : call.append env L with
  | error e =>
    have hstores : call.stores env L = none := by
      rw [DiagnosticCall.stores, hcall]
      exact ite_self _
    rw [DiagnosticCall.receive_of_error hcall, hstores]
    simpa using h
  | ok result =>
    obtain ⟨L', row⟩ := result
    obtain ⟨body, r, r', hbody, hr, rfl, hrecord⟩ := DiagnosticCall.append_ok hcall
    rw [DiagnosticCall.receive_of_ok hcall]
    by_cases hd : call.dispatchId = d
    · subst hd
      have hr' := Table.get?_set_self hr r'
      have hrenew := renew_retains call.event call.now r
      rcases record_cases hrecord with ⟨hle, hcapture⟩ | ⟨hnext, rfl, ⟨kept, hkept, hring⟩, hvalid,
        ring, hcapture⟩
      · -- a replay stores nothing
        obtain ⟨hretains, hring, -⟩ := captures_ok hcapture
        have hstores : call.stores env L = none := by
          refine if_neg ?_
          rw [ringOf_of_get? hr]
          exact Nat.not_lt.2 hle
        rw [hstores, if_pos rfl, Option.toList_none, List.map_nil, List.append_nil]
        refine h.retained ?_ fun r₀ hr₀ => ⟨r', hr', ?_⟩
        · rw [ringOf_of_get? hr', ringOf_of_get? hr, hring, renew_diagnostics]
        · obtain rfl : r = r₀ := Option.some.inj (hr.symm.trans hr₀)
          exact ⟨hretains.queue.trans hrenew.queue,
            fun i hi => hretains.integrity i (hrenew.integrity i hi)⟩
      · obtain ⟨hretains, -, hcaptured⟩ := captures_ok hcapture
        rw [renew_diagnostics, ← ringOf_of_get? hr] at hnext hkept
        have hstores : call.stores env L =
            some (body.item call.event.sequence call.now) := by
          rw [DiagnosticCall.stores, if_pos (by omega), hcall]
          rfl
        rw [hstores, if_pos rfl]
        exact h.concat hr hr'
          ⟨hretains.queue.trans hrenew.queue,
            fun i hi => hretains.integrity i (hrenew.integrity i hi)⟩
          rfl hbody hkept hnext hring hvalid hcaptured
    · -- a call for another dispatch
      have hsame := Table.get?_set_ne L.dispatches (Ne.symm hd) r'
      rw [if_neg hd, List.append_nil]
      refine h.retained ?_ fun r₀ hr₀ => ⟨r₀, hsame.trans hr₀, rfl, fun i hi => hi⟩
      simp only [ringOf, hsame]

theorem Follows.receiveAll (h : Follows env d L stream) (calls : List DiagnosticCall) :
    Follows env d (receiveAll env L calls) (stream ++ accepted env d L calls) := by
  induction calls generalizing L stream with
  | nil => rwa [accepted, List.append_nil]
  | cons call calls ih =>
    rw [accepted, ← List.append_assoc]
    exact ih (h.receive call)

theorem Follows.sequence_le (h : Follows env d L stream)
    {entry : DiagnosticCall × DiagnosticItem} (hentry : entry ∈ stream) :
    entry.2.sequence ≤ stream.length := by
  have hmem : entry.2.sequence ∈ stream.map (·.2.sequence) := List.mem_map_of_mem hentry
  rw [h.positions, List.mem_range'_1] at hmem
  omega

theorem Follows.eq_of_sequence (h : Follows env d L stream) {item : DiagnosticItem}
    (hitem : item ∈ ringOf L d) {entry : DiagnosticCall × DiagnosticItem} (hentry : entry ∈ stream)
    (hsequence : item.sequence = entry.2.sequence) : item = entry.2 := by
  obtain ⟨other, hother, rfl⟩ := List.mem_map.1 (h.window.subset hitem)
  have hnodup : (stream.map (·.2.sequence)).Nodup := h.positions ▸ List.nodup_range'
  rw [List.inj_on_of_nodup_map hnodup hother hentry hsequence]

/-- A position of the stream is never stored again. -/
theorem Follows.receive_replay (h : Follows env d L stream) {call : DiagnosticCall}
    (hd : call.dispatchId = d) (hle : call.event.sequence ≤ stream.length) :
    ringOf (call.receive env L) d = ringOf L d := by
  subst hd
  cases hcall : call.append env L with
  | error e => rw [DiagnosticCall.receive_of_error hcall]
  | ok result =>
    obtain ⟨L', row⟩ := result
    obtain ⟨body, r, r', -, hr, rfl, hrecord⟩ := DiagnosticCall.append_ok hcall
    have hnewest := h.newest
    rw [DiagnosticCall.receive_of_ok hcall, ringOf_of_get? (Table.get?_set_self hr r')]
    rw [ringOf_of_get? hr] at hnewest ⊢
    rcases record_cases hrecord with ⟨-, hcapture⟩ | ⟨hnext, -⟩
    · exact (captures_ok hcapture).2.1
    · rw [renew_diagnostics] at hnext
      omega

end Stream

/-! ### Replays -/

theorem WorkerDiagnostic.body_eq_ok {env : Env} {event : WorkerDiagnostic} {b : DiagnosticBody} :
    event.body env = .ok b ↔
      (1 ≤ event.generation ∧ 1 ≤ event.attempt) ∧ (0 < event.epoch ∧ 0 < event.lease) ∧
      1 ≤ event.sequence ∧ isAscii event.token ∧
      (!env.isBlank event.kind ∧ event.kind.length ≤ 128 ∧
        !event.kind.toList.contains '\x00') ∧
      ∃ redacted, event.text.mapM env.redactDiagnostic = .ok redacted ∧
        (event.payloadSha256.all fun digest =>
          redacted.any fun text => isSha256 digest && env.sha256 text = digest) ∧
        ⟨event.kind, redacted, event.payloadSha256,
          (redacted.map (·.utf8ByteSize)).getD 0⟩ = b := by
  simp only [body, requireWorkerIdentity, steps_ok]

namespace DiagnosticCall

variable {env : Env} {L : Ledger} {call first : DiagnosticCall}

theorem Retransmits.body (h : call.Retransmits first) (hlive : call.Live env L)
    {b : DiagnosticBody} (hb : first.event.body env = .ok b) : call.event.body env = .ok b := by
  obtain ⟨-, hkind, htext, hdigest, hsequence, -⟩ := h
  obtain ⟨hgeneration, hattempt, hepoch, hlease, htoken, -⟩ := hlive
  rw [WorkerDiagnostic.body_eq_ok] at hb ⊢
  obtain ⟨-, -, hposition, -, hrest⟩ := hb
  rw [hkind, htext, hdigest, hsequence]
  exact ⟨⟨hgeneration, hattempt⟩, ⟨hepoch, hlease⟩, hposition, htoken, hrest⟩

theorem Retransmits.kept (h : call.Retransmits first) {r : DispatchRows}
    (hkept : first.event.Kept r) : call.event.Kept r := by
  obtain ⟨-, hkind, -, -, -, hcapture⟩ := h
  unfold WorkerDiagnostic.Kept at hkept ⊢
  rwa [hkind, hcapture]

/-- The transaction of a live call is its `record`. -/
theorem append_of_live (hlive : call.Live env L) {b : DiagnosticBody}
    (hb : call.event.body env = .ok b)
    (hvalid : validateDiagnosticRing env (ringOf L call.dispatchId) = .ok ()) {r : DispatchRows}
    (hr : L.dispatches.get? call.dispatchId = some r) :
    call.append env L = (call.event.record env b call.now (call.event.renew call.now r)).map
      fun result => ({ L with dispatches := L.dispatches.set call.dispatchId result.1 },
        result.2) := by
  obtain ⟨-, -, -, -, -, hharness, r₀, hr₀, hauthorized⟩ := hlive
  obtain rfl : r = r₀ := Option.some.inj (hr.symm.trans hr₀)
  have hpresent : r.liveness.isSome ∧
      (r.capabilityAt call.event.generation call.event.attempt).isSome := by
    simp only [WorkerDiagnostic.isAuthorized, Bool.and_eq_true] at hauthorized
    obtain ⟨⟨hliveness, -⟩, hcapability⟩ := hauthorized
    exact ⟨Option.isSome_of_any hliveness, Option.isSome_of_any hcapability⟩
  rw [ringOf_of_get? hr] at hvalid
  simp only [append, appendWorkerDiagnostic, requireLiveHarness, hb, hr, hvalid, ok_bind,
    ensure_of hharness, ensure_of hpresent, ensure_of hauthorized]
  cases call.event.record env b call.now (call.event.renew call.now r) <;> rfl

end DiagnosticCall

/-- A retransmission under a live authority is acknowledged with the row of its position, as far as
the ring still has it, and leaves the ring alone. -/
theorem Follows.acknowledged {env : Env} {d : DispatchId} {L : Ledger}
    {stream : List (DiagnosticCall × DiagnosticItem)} (h : Follows env d L stream)
    {entry : DiagnosticCall × DiagnosticItem} (hentry : entry ∈ stream) {call : DiagnosticCall}
    (hagain : call.Retransmits entry.1) (hlive : call.Live env L) :
    ∃ L', call.append env L =
        .ok (L', (ringOf L d).find? (·.sequence = call.event.sequence)) ∧
      ringOf L' d = ringOf L d := by
  obtain ⟨hd, ⟨b, hb, hitem⟩, r, hr, hkept⟩ := h.recorded entry hentry
  have hsequence : call.event.sequence = entry.2.sequence := by
    rw [hitem, hagain.2.2.2.2.1]
    rfl
  obtain rfl : call.dispatchId = d := hagain.1.trans hd
  have hcapture := captures_again
    ((hagain.kept hkept).retained (renew_retains call.event call.now r)) call.now
  have hrecord : call.event.record env b call.now (call.event.renew call.now r) =
      .ok (call.event.renew call.now r,
        (ringOf L call.dispatchId).find? (·.sequence = call.event.sequence)) := by
    rw [ringOf_of_get? hr]
    unfold WorkerDiagnostic.record
    rw [renew_diagnostics]
    cases hfind : r.diagnostics.find? (·.sequence = call.event.sequence) with
    | none =>
      have hle : call.event.sequence ≤ latestSequence r.diagnostics := by
        rw [← ringOf_of_get? hr, h.newest, hsequence]
        exact h.sequence_le hentry
      rw [if_pos hle, hcapture]
      rfl
    | some existing =>
      have hexisting : existing = entry.2 := by
        refine h.eq_of_sequence ?_ hentry (.trans (by simpa using List.find?_some hfind) hsequence)
        rw [ringOf_of_get? hr]
        exact List.mem_of_find?_eq_some hfind
      have hcarries : existing.carries b := by
        rw [hexisting, hitem]
        exact b.carries_item ..
      simp only [ensure_of hcarries, hcapture, ok_bind]
      rfl
  have happend := DiagnosticCall.append_of_live hlive (hagain.body hlive hb) h.valid hr
  rw [hrecord] at happend
  refine ⟨_, happend, ?_⟩
  rw [ringOf_of_get? (Table.get?_set_self hr _), ringOf_of_get? hr, renew_diagnostics]

/-- Another body for a position that the ring still has is refused. -/
theorem append_conflict {env : Env} {L : Ledger} {call : DiagnosticCall} {b : DiagnosticBody}
    (hb : call.event.body env = .ok b) {item : DiagnosticItem}
    (hfind : (ringOf L call.dispatchId).find? (·.sequence = call.event.sequence) = some item)
    (hother : ¬item.carries b) : ∃ e, call.append env L = .error e := by
  cases hcall : call.append env L with
  | error e => exact ⟨e, rfl⟩
  | ok result =>
    obtain ⟨L', row⟩ := result
    obtain ⟨body, r, r', hbody, hr, rfl, hrecord⟩ := DiagnosticCall.append_ok hcall
    obtain rfl : b = body := Except.ok.inj (hb.symm.trans hbody)
    rw [ringOf_of_get? hr] at hfind
    simp only [WorkerDiagnostic.record, renew_diagnostics, hfind, checks_ok] at hrecord
    exact absurd hrecord.1 hother

/-! ### The stream -/

/-- From an empty ring, the accepted positions are 1, 2, 3, ... in this order, so each is stored once,
and the ring is a window of them that ends with the newest. A call at an accepted position stores
nothing, a retransmission under a live authority is acknowledged, and another body for a position
that the ring retains is refused. -/
theorem diagnostic_stream (env : Env) (d : DispatchId) (L₀ : Ledger) (hempty : ringOf L₀ d = [])
    (calls : List DiagnosticCall) :
    let L := receiveAll env L₀ calls
    let stream := accepted env d L₀ calls
    stream.map (·.2.sequence) = List.range' 1 stream.length ∧
    (∀ entry ∈ stream, ∃ body, entry.1.event.body env = .ok body ∧
      entry.2 = body.item entry.1.event.sequence entry.1.now) ∧
    ringOf L d <:+ stream.map Prod.snd ∧ latestSequence (ringOf L d) = stream.length ∧
    (∀ call : DiagnosticCall, call.dispatchId = d → call.event.sequence ≤ stream.length →
      ringOf (call.receive env L) d = ringOf L d) ∧
    (∀ entry ∈ stream, ∀ call : DiagnosticCall, call.Retransmits entry.1 → call.Live env L →
      ∃ L', call.append env L =
          .ok (L', (ringOf L d).find? (·.sequence = call.event.sequence)) ∧
        ringOf L' d = ringOf L d) ∧
    (∀ call : DiagnosticCall, call.dispatchId = d → ∀ body, call.event.body env = .ok body →
      ∀ item, (ringOf L d).find? (·.sequence = call.event.sequence) = some item →
        ¬item.carries body → ∃ e, call.append env L = .error e) := by
  intro L stream
  have h : Follows env d L stream := by
    have hrun := (@Follows.start env _ _ hempty).receiveAll calls
    rwa [List.nil_append] at hrun
  refine ⟨h.positions, fun entry hentry => (h.recorded entry hentry).body, h.window, h.newest,
    fun call hd hle => h.receive_replay hd hle,
    fun entry hentry call hagain hlive => h.acknowledged hentry hagain hlive, ?_⟩
  rintro call rfl body hbody item hfind hother
  exact append_conflict hbody hfind hother

def sampleEvent (sequence : ℕ) (text : String) : DiagnosticCall where
  dispatchId := sampleId
  event :=
    { generation := 1, attempt := 1, token := "token", epoch := 1, lease := seconds 60,
      kind := "item/completed", text := some text, payloadSha256 := none, sequence := sequence }
  now := 5

/-- Two events, the first one sent twice and the second one once too early. -/
def sampleEvents : List DiagnosticCall :=
  [sampleEvent 2 "second", sampleEvent 1 "first", sampleEvent 1 "first", sampleEvent 2 "second"]

theorem diagnostic_stream_sample :
    let L₀ := Machine.run (next .sample) {} (enqueued ++ started 1)
    ringOf L₀ sampleId = [] ∧
      (accepted .sample sampleId L₀ sampleEvents).map (·.2.sequence) = [1, 2] ∧
      ringOf (receiveAll .sample L₀ sampleEvents) sampleId <:+
        (accepted .sample sampleId L₀ sampleEvents).map Prod.snd := by
  have hempty : ringOf (Machine.run (next .sample) {} (enqueued ++ started 1)) sampleId = [] := by
    decide +kernel
  refine ⟨hempty, by decide +kernel, ?_⟩
  exact (diagnostic_stream .sample sampleId _ hempty sampleEvents).2.2.1

end CodexFlow.Ledger
