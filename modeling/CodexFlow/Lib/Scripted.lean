import CodexFlow.Lib.Raising

/-!
# Computations that may stop anywhere

A scripted computation reads one event of its script at each command and stops for good where the
script ends: a script is the course of one run, its end a crash. `Always x w Q` says that, whatever
the script, the computation started in the world `w` ends as `Q` says.
-/

/-- A computation over the world `ω` that reads events `ι`: it raises an `ε`, or `none` where the
script ends. -/
abbrev Scripted (ω ι ε : Type) := Raising (ω × List ι) (Option ε)

namespace Scripted

variable {ω ι ε α β : Type}

def next : Scripted ω ι ε ι := do
  let s ← get
  match s.2 with
  | [] => throw none
  | event :: rest => do
    set (s.1, rest)
    pure event

def world : Scripted ω ι ε ω := Prod.fst <$> get

def update (f : ω → ω) : Scripted ω ι ε Unit := modify fun s => (f s.1, s.2)

def fail (e : ε) : Scripted ω ι ε α := throw (some e)

/-- A value that was computed aside. -/
def lift : Except ε α → Scripted ω ι ε α
  | .ok a => pure a
  | .error e => fail e

/-- `try` with a handler: a crash is no exception. -/
def rescue (x : Scripted ω ι ε α) (handler : ε → Scripted ω ι ε α) : Scripted ω ι ε α := do
  match ← Raising.attempt x with
  | .ok a => pure a
  | .error (some e) => handler e
  | .error none => throw none

/-- Run to the end of a script: the outcome and the world that is left. -/
def run (x : Scripted ω ι ε α) (w : ω) (script : List ι) : Except (Option ε) α × ω :=
  let end_ := x.exec (w, script)
  (end_.1, end_.2.1)

/-- Whatever the script, the computation ends as `Q` says. -/
def Always (x : Scripted ω ι ε α) (w : ω) (Q : Except (Option ε) α → ω → Prop) : Prop :=
  ∀ script, Raising.Ends x (w, script) fun a s => Q a s.1

variable {w : ω} {Q Q' : Except (Option ε) α → ω → Prop}

theorem Always.run {x : Scripted ω ι ε α} (h : Always x w Q) (script : List ι) :
    Q (x.run w script).1 (x.run w script).2 := h script

theorem Always.mono {x : Scripted ω ι ε α} (h : Always x w Q) (hQ : ∀ a w', Q a w' → Q' a w') :
    Always x w Q' := fun script => (h script).mono fun a s => hQ a s.1

theorem always_pure {a : α} (h : Q (.ok a) w) : Always (pure a : Scripted ω ι ε α) w Q := fun _ => h

theorem always_fail {e : ε} (h : Q (.error (some e)) w) :
    Always (fail e : Scripted ω ι ε α) w Q := fun _ => h

/-- A sequence: the second half starts in any world that the first may leave. -/
theorem always_bind {x : Scripted ω ι ε α} {f : α → Scripted ω ι ε β}
    {Q : Except (Option ε) β → ω → Prop}
    (h : Always x w fun a w' => match a with
      | .ok a => Always (f a) w' Q
      | .error e => Q (.error e) w') : Always (x >>= f) w Q := by
  intro script
  rw [Raising.ends_bind]
  refine (h script).mono fun a s => ?_
  obtain ⟨w', rest⟩ := s
  cases a with
  | ok a => exact fun h => h rest
  | error e => exact fun h => h

theorem always_next {Q : Except (Option ε) ι → ω → Prop} (crash : Q (.error none) w)
    (h : ∀ event, Q (.ok event) w) : Always (next : Scripted ω ι ε ι) w Q := by
  intro script
  cases script with
  | nil => exact crash
  | cons event rest => exact h event

theorem always_world {Q : Except (Option ε) ω → ω → Prop} (h : Q (.ok w) w) :
    Always (world : Scripted ω ι ε ω) w Q := fun _ => h

theorem always_update {f : ω → ω} {Q : Except (Option ε) Unit → ω → Prop} (h : Q (.ok ()) (f w)) :
    Always (update f : Scripted ω ι ε Unit) w Q := fun _ => h

theorem always_ite {c : Prop} [Decidable c] {x y : Scripted ω ι ε α}
    (hx : c → Always x w Q) (hy : ¬ c → Always y w Q) : Always (if c then x else y) w Q := by
  split_ifs with h
  · exact hx h
  · exact hy h

theorem always_rescue {x : Scripted ω ι ε α} {handler : ε → Scripted ω ι ε α}
    (h : Always x w fun a w' => match a with
      | .ok a => Q (.ok a) w'
      | .error (some e) => Always (handler e) w' Q
      | .error none => Q (.error none) w') : Always (rescue x handler) w Q := by
  intro script
  unfold rescue
  rw [Raising.ends_bind, Raising.ends_attempt]
  refine (h script).mono fun a s => ?_
  obtain ⟨w', rest⟩ := s
  match a with
  | .ok a => exact fun h => h
  | .error (some e) => exact fun h => h rest
  | .error none => exact fun h => h

/-! ### Computations that only read -/

/-- The computation leaves every world as it is. -/
def Reads (x : Scripted ω ι ε α) : Prop := ∀ w, Always x w fun _ w' => w' = w

theorem reads_pure {a : α} : Reads (pure a : Scripted ω ι ε α) := fun _ => always_pure rfl

theorem reads_fail {e : ε} : Reads (fail e : Scripted ω ι ε α) := fun _ => always_fail rfl

theorem reads_next : Reads (next : Scripted ω ι ε ι) := fun _ => always_next rfl fun _ => rfl

theorem reads_world : Reads (world : Scripted ω ι ε ω) := fun _ => always_world rfl

theorem Reads.bind {x : Scripted ω ι ε α} {f : α → Scripted ω ι ε β} (hx : Reads x)
    (hf : ∀ a, Reads (f a)) : Reads (x >>= f) := by
  refine fun w => always_bind ((hx w).mono fun a w' eq => ?_)
  subst eq
  cases a with
  | ok a => exact hf a w'
  | error e => rfl

theorem reads_ite {c : Prop} [Decidable c] {x y : Scripted ω ι ε α} (hx : Reads x) (hy : Reads y) :
    Reads (if c then x else y) := fun w => always_ite (fun _ => hx w) fun _ => hy w

theorem Reads.always_bind {x : Scripted ω ι ε α} {f : α → Scripted ω ι ε β}
    {Q : Except (Option ε) β → ω → Prop} (hx : Reads x) (stopped : ∀ e, Q (.error e) w)
    (h : ∀ a, Always (f a) w Q) : Always (x >>= f) w Q := by
  refine Scripted.always_bind ((hx w).mono fun a w' eq => ?_)
  subst eq
  cases a with
  | ok a => exact h a
  | error e => exact stopped e

/-! ### Computations that observe -/

/-- The computation leaves the world as it is, and returns only what `P` says. -/
def Observes (x : Scripted ω ι ε α) (w : ω) (P : α → Prop) : Prop :=
  Always x w fun a w' => w' = w ∧ ∀ b, a = .ok b → P b

variable {P : α → Prop}

theorem observes_of_reads {x : Scripted ω ι ε α} (h : Reads x) : Observes x w fun _ => True :=
  (h w).mono fun _ _ same => ⟨same, fun _ _ => trivial⟩

theorem observes_pure {a : α} (h : P a) : Observes (pure a : Scripted ω ι ε α) w P := by
  refine always_pure ⟨rfl, fun b same => ?_⟩
  obtain rfl := Except.ok.inj same
  exact h

theorem observes_fail {e : ε} : Observes (fail e : Scripted ω ι ε α) w P :=
  always_fail ⟨rfl, nofun⟩

theorem observes_world : Observes (world : Scripted ω ι ε ω) w fun w' => w' = w :=
  always_world ⟨rfl, fun _ same => (Except.ok.inj same).symm⟩

theorem observes_lift {a : Except ε α} (h : ∀ b, a = .ok b → P b) :
    Observes (lift a : Scripted ω ι ε α) w P := by
  cases a with
  | ok b => exact observes_pure (h b rfl)
  | error e => exact observes_fail

/-- The computation reads no event: it leaves the world as it is and returns the value. -/
def Returns (x : Scripted ω ι ε α) (w : ω) (a : α) : Prop :=
  Always x w fun b w' => w' = w ∧ b = .ok a

theorem returns_pure {a : α} : Returns (pure a : Scripted ω ι ε α) w a := always_pure ⟨rfl, rfl⟩

theorem returns_world : Returns (world : Scripted ω ι ε ω) w w := always_world ⟨rfl, rfl⟩

theorem Returns.always_bind {x : Scripted ω ι ε α} {f : α → Scripted ω ι ε β} {a : α}
    {Q : Except (Option ε) β → ω → Prop} (hx : Returns x w a) (h : Always (f a) w Q) :
    Always (x >>= f) w Q := by
  refine Scripted.always_bind (Always.mono hx ?_)
  rintro _ _ ⟨rfl, rfl⟩
  exact h

theorem Returns.bind {x : Scripted ω ι ε α} {f : α → Scripted ω ι ε β} {a : α} {b : β}
    (hx : Returns x w a) (hf : Returns (f a) w b) : Returns (x >>= f) w b := hx.always_bind hf

theorem Observes.always_bind {x : Scripted ω ι ε α} {f : α → Scripted ω ι ε β}
    {Q : Except (Option ε) β → ω → Prop} (hx : Observes x w P) (stopped : ∀ e, Q (.error e) w)
    (h : ∀ a, P a → Always (f a) w Q) : Always (x >>= f) w Q := by
  refine Scripted.always_bind (Always.mono hx fun a w' => ?_)
  rintro ⟨rfl, hP⟩
  cases a with
  | ok a => exact h a (hP a rfl)
  | error e => exact stopped e

theorem Observes.bind {x : Scripted ω ι ε α} {f : α → Scripted ω ι ε β} {P' : β → Prop}
    (hx : Observes x w P) (h : ∀ a, P a → Observes (f a) w P') : Observes (x >>= f) w P' :=
  hx.always_bind (fun _ => ⟨rfl, nofun⟩) h

theorem Observes.always_rescue {x : Scripted ω ι ε α} {handler : ε → Scripted ω ι ε α}
    (hx : Observes x w P) (returned : ∀ a, P a → Q (.ok a) w) (crash : Q (.error none) w)
    (h : ∀ e, Always (handler e) w Q) : Always (rescue x handler) w Q := by
  refine Scripted.always_rescue (Always.mono hx fun a w' => ?_)
  rintro ⟨rfl, hP⟩
  match a with
  | .ok a => exact returned a (hP a rfl)
  | .error (some e) => exact h e
  | .error none => exact crash

/-! ### Courses that exist -/

/-- Some script brings the computation to the outcome and the world, and to its own end. -/
def Comes (x : Scripted ω ι ε α) (w : ω) (a : α) (w' : ω) : Prop :=
  ∃ script, ∀ rest, Raising.Ends x (w, script ++ rest) fun b s => b = .ok a ∧ s = (w', rest)

/-- Some script ends when the computation has come to the world. -/
def Stops (x : Scripted ω ι ε α) (w w' : ω) : Prop :=
  ∃ script, Raising.Ends x (w, script) fun b s => b = .error none ∧ s.1 = w'

variable {w' w'' : ω}

theorem comes_pure {a : α} : Comes (pure a : Scripted ω ι ε α) w a w :=
  ⟨[], fun _ => ⟨rfl, rfl⟩⟩

theorem comes_next {event : ι} : Comes (next : Scripted ω ι ε ι) w event w :=
  ⟨[event], fun _ => ⟨rfl, rfl⟩⟩

theorem comes_world : Comes (world : Scripted ω ι ε ω) w w w :=
  ⟨[], fun _ => ⟨rfl, rfl⟩⟩

theorem comes_update {f : ω → ω} : Comes (update f : Scripted ω ι ε Unit) w () (f w) :=
  ⟨[], fun _ => ⟨rfl, rfl⟩⟩

theorem Comes.bind {x : Scripted ω ι ε α} {f : α → Scripted ω ι ε β} {a : α} {b : β}
    (hx : Comes x w a w') (hf : Comes (f a) w' b w'') : Comes (x >>= f) w b w'' := by
  obtain ⟨first, hfirst⟩ := hx
  obtain ⟨second, hsecond⟩ := hf
  refine ⟨first ++ second, fun rest => ?_⟩
  rw [Raising.ends_bind, List.append_assoc]
  refine (hfirst (second ++ rest)).mono ?_
  rintro _ _ ⟨rfl, rfl⟩
  exact hsecond rest

theorem Comes.stops {x : Scripted ω ι ε α} {f : α → Scripted ω ι ε β} {a : α}
    (hx : Comes x w a w') (hf : Stops (f a) w' w'') : Stops (x >>= f) w w'' := by
  obtain ⟨first, hfirst⟩ := hx
  obtain ⟨second, hsecond⟩ := hf
  refine ⟨first ++ second, ?_⟩
  rw [Raising.ends_bind]
  refine (hfirst second).mono ?_
  rintro _ _ ⟨rfl, rfl⟩
  exact hsecond

theorem stops_next : Stops (next : Scripted ω ι ε ι) w w := ⟨[], rfl, rfl⟩

theorem Stops.bind {x : Scripted ω ι ε α} {f : α → Scripted ω ι ε β} (hx : Stops x w w') :
    Stops (x >>= f) w w' := by
  obtain ⟨script, h⟩ := hx
  refine ⟨script, ?_⟩
  rw [Raising.ends_bind]
  refine h.mono ?_
  rintro _ _ ⟨rfl, same⟩
  exact ⟨rfl, same⟩

theorem Comes.rescue {x : Scripted ω ι ε α} {handler : ε → Scripted ω ι ε α} {a : α}
    (hx : Comes x w a w') : Comes (rescue x handler) w a w' := by
  obtain ⟨script, h⟩ := hx
  refine ⟨script, fun rest => ?_⟩
  unfold Scripted.rescue
  rw [Raising.ends_bind, Raising.ends_attempt]
  refine (h rest).mono ?_
  rintro _ _ ⟨rfl, rfl⟩
  exact ⟨rfl, rfl⟩

theorem Stops.rescue {x : Scripted ω ι ε α} {handler : ε → Scripted ω ι ε α}
    (hx : Stops x w w') : Stops (rescue x handler) w w' := by
  obtain ⟨script, h⟩ := hx
  refine ⟨script, ?_⟩
  unfold Scripted.rescue
  rw [Raising.ends_bind, Raising.ends_attempt]
  refine h.mono ?_
  rintro _ _ ⟨rfl, same⟩
  exact ⟨rfl, same⟩

end Scripted
