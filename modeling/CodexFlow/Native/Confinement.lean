import CodexFlow.Native.Symlinks

/-!
# Links that stay inside

The validator shortens the text of a target before it looks at the tree, so it takes back a name
without asking what the name leads to. Where every name that is taken back is a directory, the
kernel follows each link as the validator has done.
-/

namespace CodexFlow.Native

open Checked

variable {t : Tree} {label : String} {place place' final components components' more names :
  List Bytes} {name : Bytes} {e : Entry} {target : Bytes}

/-! ### What lies at a place -/

namespace Tree

theorem entryAt_spec (h : t.entryAt names = some e) :
    names ≠ [] ∧ (∀ n ∈ names, IsName n) ∧ t.entries.get? (keyOf names) = some e := by
  unfold entryAt at h
  split_ifs at h with hclean
  obtain ⟨ns, n, hns, hn, hkey⟩ := t.keys _ (t.entries.mem_keys_of_get? h)
  have hall : ∀ m ∈ ns ++ [n], IsName m := by
    intro m mem
    obtain mem | mem := List.mem_append.mp mem
    · exact hns m mem
    · exact List.mem_singleton.mp mem ▸ hn
  have hsplit : (keyOf (ns ++ [n])).splitOn slash = ns ++ [n] :=
    List.splitOn_intercalate slash (fun m mem => (hall m mem).clean) (by simp)
  have hne : names ≠ [] := by
    rintro rfl
    rw [← hkey] at hsplit
    have hempty : [[]] = ns ++ [n] := hsplit
    have hfull : n ∈ [([] : Bytes)] := by
      rw [hempty]
      exact List.mem_append_right _ List.mem_cons_self
    exact hn.full (List.mem_singleton.mp hfull)
  have hsame : names = ns ++ [n] := by
    have hnames : (keyOf names).splitOn slash = names :=
      List.splitOn_intercalate slash hclean hne
    rw [hkey, hsplit] at hnames
    exact hnames.symm
  exact ⟨hne, hsame ▸ hall, h⟩

theorem entryAt_of_names (hnames : ∀ n ∈ names, IsName n) :
    t.entryAt names = t.entries.get? (keyOf names) :=
  if_pos fun n mem => (hnames n mem).clean

theorem entryAt_parent (h : t.entryAt (names ++ [name]) = some e) (hne : names ≠ []) :
    t.entryAt names = some .directory := by
  obtain ⟨-, hall, hget⟩ := entryAt_spec h
  have hnames : ∀ n ∈ names, IsName n := fun n mem => hall n (List.mem_append_left _ mem)
  rw [entryAt_of_names hnames]
  exact t.parents names name hnames (hall name (by simp)) (t.entries.mem_keys_of_get? hget) hne

theorem node_below (hne : names ≠ []) : t.node (t.root ++ names) = t.entryAt names := by
  unfold node
  rw [if_neg, if_pos (List.prefix_append ..), List.drop_left]
  intro hfront
  have hlength := hfront.length_le
  rw [List.length_append] at hlength
  exact hne (List.eq_nil_of_length_eq_zero (by omega))

theorem node_on_way (h : place <+: t.root) : t.node place = some .directory := if_pos h

theorem node_cases (h : t.node (place ++ [name]) = some e) :
    place ++ [name] <+: t.root ∨ ∃ names, place = t.root ++ names ∧
      t.entryAt (names ++ [name]) = some e := by
  by_cases hway : place ++ [name] <+: t.root
  · exact .inl hway
  · unfold node at h
    rw [if_neg hway] at h
    split_ifs at h with hbelow
    obtain heq | hbelow' := List.prefix_concat_iff.mp hbelow
    · exact absurd (heq ▸ List.prefix_rfl) hway
    · obtain ⟨names, rfl⟩ := hbelow'
      refine .inr ⟨names, rfl, ?_⟩
      rwa [List.append_assoc, List.drop_left] at h

theorem node_parent (h : t.node (place ++ [name]) = some e) : t.node place = some .directory := by
  obtain hway | ⟨names, rfl, hentry⟩ := node_cases h
  · exact node_on_way ((List.prefix_append ..).trans hway)
  · by_cases hne : names = []
    · rw [hne, List.append_nil]
      exact node_on_way List.prefix_rfl
    · rw [node_below hne]
      exact entryAt_parent hentry hne

theorem isName_of_node (h : t.node (place ++ [name]) = some e) : IsName name := by
  obtain hway | ⟨names, -, hentry⟩ := node_cases h
  · exact t.rootNames name (hway.subset (by simp))
  · exact (entryAt_spec hentry).2.1 name (by simp)

theorem node_of_prefix (h : t.node place = some .directory) (hfront : place' <+: place) :
    t.node place' = some .directory := by
  induction place using List.reverseRecOn with
  | nil => rwa [List.prefix_nil.mp hfront]
  | append_singleton place name ih =>
    obtain rfl | hfront := List.prefix_concat_iff.mp hfront
    · exact h
    · exact ih (node_parent h) hfront

theorem node_dropLast (h : t.node place = some .directory) :
    t.node place.dropLast = some .directory := node_of_prefix h (List.dropLast_prefix place)

/-! ### Single moves -/

theorem move_stay (h : name = [] ∨ name = dot) (rest : List Bytes) :
    t.move place (name :: rest) = some (place, rest) := if_pos h

theorem move_up (h : t.root <+: place → t.root <+: place.dropLast) (rest : List Bytes) :
    t.move place (dotdot :: rest) = some (place.dropLast, rest) := by
  simp only [move]
  rw [if_neg (by decide), if_pos trivial, if_neg fun hleaves => hleaves.2 (h hleaves.1)]

theorem move_name (h : IsName name) (rest : List Bytes) : t.move place (name :: rest) =
    match t.node (place ++ [name]) with
    | some .directory => some (place ++ [name], rest)
    | some .regular => if rest = [] then some (place ++ [name], []) else none
    | some (.symlink target) =>
      some (if isAbs target then [] else place, target.splitOn slash ++ rest)
    | none => none := by
  have hempty : ¬ (name = [] ∨ name = dot) := fun hempty => hempty.elim h.full h.notDot
  exact (if_neg hempty).trans (if_neg h.notDotdot)

theorem move_enter (h : t.node (place ++ [name]) = some .directory) (rest : List Bytes) :
    t.move place (name :: rest) = some (place ++ [name], rest) := by
  rw [move_name (isName_of_node h), h]

theorem move_regular (h : t.node (place ++ [name]) = some .regular) :
    t.move place [name] = some (place ++ [name], []) := by
  rw [move_name (isName_of_node h), h]
  exact if_pos rfl

theorem move_follow (h : t.node (place ++ [name]) = some (.symlink target)) (rest : List Bytes) :
    t.move place (name :: rest) =
      some (if isAbs target then [] else place, target.splitOn slash ++ rest) := by
  rw [move_name (isName_of_node h), h]

/-- What a move can be. -/
inductive Moves (t : Tree) (place : List Bytes) :
    Bytes → List Bytes → List Bytes → List Bytes → Prop
  | stay {name : Bytes} {rest : List Bytes} (h : name = [] ∨ name = dot) :
      Moves t place name rest place rest
  | up {rest : List Bytes} (h : t.root <+: place → t.root <+: place.dropLast) :
      Moves t place dotdot rest place.dropLast rest
  | enter {name : Bytes} {rest : List Bytes} (h : t.node (place ++ [name]) = some .directory) :
      Moves t place name rest (place ++ [name]) rest
  | regular {name : Bytes} (h : t.node (place ++ [name]) = some .regular) :
      Moves t place name [] (place ++ [name]) []
  | follow {name target : Bytes} {rest : List Bytes}
      (h : t.node (place ++ [name]) = some (.symlink target)) :
      Moves t place name rest (if isAbs target then [] else place) (target.splitOn slash ++ rest)

theorem moves_of_move {rest : List Bytes}
    (h : t.move place (name :: rest) = some (place', components')) :
    Moves t place name rest place' components' := by
  by_cases hempty : name = [] ∨ name = dot
  · rw [move_stay hempty] at h
    obtain ⟨rfl, rfl⟩ := Prod.mk.inj (Option.some.inj h)
    exact .stay hempty
  by_cases hup : name = dotdot
  · subst hup
    by_cases hleaves : t.root <+: place → t.root <+: place.dropLast
    · rw [move_up hleaves] at h
      obtain ⟨rfl, rfl⟩ := Prod.mk.inj (Option.some.inj h)
      exact .up hleaves
    · simp only [move] at h
      rw [if_neg hempty, if_pos trivial, if_pos (Classical.not_imp.mp hleaves)] at h
      cases h
  simp only [move] at h
  rw [if_neg hempty, if_neg hup] at h
  cases hnode : t.node (place ++ [name]) with
  | none =>
    rw [hnode] at h
    cases h
  | some e =>
    rw [hnode] at h
    cases e with
    | directory =>
      obtain ⟨rfl, rfl⟩ := Prod.mk.inj (Option.some.inj h)
      exact .enter hnode
    | regular =>
      by_cases hlast : rest = []
      · subst hlast
        obtain ⟨rfl, rfl⟩ := Prod.mk.inj (Option.some.inj h)
        exact .regular hnode
      · simp only [if_neg hlast] at h
        cases h
    | symlink target =>
      obtain ⟨rfl, rfl⟩ := Prod.mk.inj (Option.some.inj h)
      exact .follow hnode

theorem move_of_moves {rest : List Bytes} (h : Moves t place name rest place' components') :
    t.move place (name :: rest) = some (place', components') := by
  cases h with
  | stay h => exact move_stay h _
  | up h => exact move_up h _
  | enter h => exact move_enter h _
  | regular h => exact move_regular h
  | follow h => exact move_follow h _

/-! ### Walks -/

namespace Walks

theorem of_step (hmove : t.move place components = some (place', components'))
    (h : t.Walks place components final) : t.Walks place' components' final := by
  cases h with
  | done => cases hmove
  | step hmove' h =>
    rw [hmove] at hmove'
    obtain ⟨rfl, rfl⟩ := Prod.mk.inj (Option.some.inj hmove')
    exact h

theorem eq_of_nil (h : t.Walks place [] final) : final = place := by
  cases h with
  | done => rfl
  | step hmove => cases hmove

end Walks

theorem node_start (hplace : t.node place = some .directory) (target : Bytes) :
    t.node (if isAbs target then [] else place) = some .directory := by
  split_ifs
  · exact node_on_way List.nil_prefix
  · exact hplace

/-- After a move the kernel stands in a directory, or has nothing left to walk. -/
theorem node_of_move {rest : List Bytes} (hplace : t.node place = some .directory)
    (h : Moves t place name rest place' components') :
    t.node place' = some .directory ∨ components' = [] ∧ t.node place' = some .regular := by
  cases h with
  | stay h => exact .inl hplace
  | up h => exact .inl (node_dropLast hplace)
  | enter h => exact .inl h
  | regular h => exact .inr ⟨rfl, h⟩
  | follow h => exact .inl (node_start hplace _)

theorem Walks.node_final (h : t.Walks place components final)
    (hplace : t.node place = some .directory) :
    t.node final = some .directory ∨ t.node final = some .regular := by
  induction h with
  | done => exact .inl hplace
  | @step place components place' components' final hmove h ih =>
    cases components with
    | nil => cases hmove
    | cons name rest =>
      obtain hplace' | ⟨rfl, hregular⟩ := node_of_move hplace (moves_of_move hmove)
      · exact ih hplace'
      · rw [h.eq_of_nil]
        exact .inr hregular

/-- A move does not look at what comes behind, as long as it ends in a directory. -/
theorem Moves.append {rest : List Bytes} (h : Moves t place name rest place' components')
    (hmore : more = [] ∨ t.node place' = some .directory) :
    Moves t place name (rest ++ more) place' (components' ++ more) := by
  cases h with
  | stay h => exact .stay h
  | up h => exact .up h
  | enter h => exact .enter h
  | regular h =>
    obtain rfl | hdirectory := hmore
    · exact .regular h
    · rw [h] at hdirectory
      cases hdirectory
  | follow h =>
    rw [List.append_assoc]
    exact .follow h

theorem Walks.append (h : t.Walks place components place') (hplace : t.node place = some .directory)
    (hmore : more = [] ∨ t.node place' = some .directory) (h' : t.Walks place' more final) :
    t.Walks place (components ++ more) final := by
  induction h with
  | done => exact h'
  | @step place components next components' place' hmove h ih =>
    cases components with
    | nil => cases hmove
    | cons name rest =>
      have hmoves := moves_of_move hmove
      obtain hnext | ⟨rfl, hregular⟩ := node_of_move hplace hmoves
      · exact .step (move_of_moves (hmoves.append (.inr hnext))) (ih hnext hmore h')
      · obtain rfl := h.eq_of_nil
        exact .step (move_of_moves (hmoves.append hmore)) h'

/-- A walk of two texts stands in a directory between them, unless the second is empty. -/
theorem Walks.split (h : t.Walks place (components ++ more) final)
    (hplace : t.node place = some .directory) :
    ∃ middle, t.Walks place components middle ∧ t.Walks middle more final ∧
      (more = [] ∨ t.node middle = some .directory) := by
  generalize hall : components ++ more = all at h
  induction h generalizing components with
  | done =>
    obtain ⟨rfl, rfl⟩ := List.append_eq_nil_iff.mp hall
    exact ⟨_, .done, .done, .inl rfl⟩
  | @step place all next all' final hmove h ih =>
    cases components with
    | nil =>
      subst hall
      exact ⟨place, .done, .step hmove h, .inr hplace⟩
    | cons name rest =>
      subst hall
      have hmoves : Moves t place name (rest ++ more) next all' := moves_of_move hmove
      generalize htail : rest ++ more = tail at hmoves
      cases hmoves with
      | stay hempty =>
        obtain ⟨middle, hfirst, hrest⟩ := ih hplace htail
        exact ⟨middle, .step (move_stay hempty rest) hfirst, hrest⟩
      | up hin =>
        obtain ⟨middle, hfirst, hrest⟩ := ih (node_dropLast hplace) htail
        exact ⟨middle, .step (move_up hin rest) hfirst, hrest⟩
      | enter hdirectory =>
        obtain ⟨middle, hfirst, hrest⟩ := ih hdirectory htail
        exact ⟨middle, .step (move_enter hdirectory rest) hfirst, hrest⟩
      | regular hregular =>
        obtain ⟨rfl, rfl⟩ := List.append_eq_nil_iff.mp htail
        exact ⟨_, .step (move_regular hregular) .done, h, .inl rfl⟩
      | follow hlink =>
        obtain ⟨middle, hfirst, hrest⟩ := ih (node_start hplace _)
          (by rw [List.append_assoc, htail])
        exact ⟨middle, .step (move_follow hlink rest) hfirst, hrest⟩

theorem walks_enter (hnames : t.node (place ++ names) = some .directory) :
    t.Walks place (names ++ more) final ↔ t.Walks (place ++ names) more final := by
  induction names generalizing place with
  | nil => rw [List.nil_append, List.append_nil]
  | cons name names ih =>
    have hsplit : place ++ name :: names = place ++ [name] ++ names := by simp
    rw [hsplit] at hnames ⊢
    have hfirst := node_of_prefix hnames (List.prefix_append (place ++ [name]) names)
    rw [← ih hnames]
    exact ⟨fun h => h.of_step (move_enter hfirst _), .step (move_enter hfirst _)⟩

end Tree

/-! ### The text of a target -/

/-- What a component of a shortened text is. -/
def IsStep (component : Bytes) : Prop := component ≠ [] ∧ component ≠ dot ∧ component ≠ dotdot

theorem normStep_empty {absolute : Bool} {kept : List Bytes} (h : name = [] ∨ name = dot) :
    normStep absolute kept name = kept := if_pos h

theorem normStep_step {absolute : Bool} {kept : List Bytes} (h : IsStep name) :
    normStep absolute kept name = kept ++ [name] := by
  unfold normStep
  rw [if_neg (fun hempty => hempty.elim h.1 h.2.1), if_pos (.inl h.2.2)]

theorem normStep_back {absolute : Bool} {kept : List Bytes} (h : IsStep name) :
    normStep absolute (kept ++ [name]) dotdot = kept := by
  unfold normStep
  rw [if_neg (by decide), if_neg, List.dropLast_concat]
  rw [List.getLast?_concat]
  rintro (hne | ⟨-, hnil⟩ | hlast)
  · exact hne rfl
  · simp at hnil
  · exact h.2.2 (Option.some.inj hlast)

theorem head?_foldl_normStep {kept : List Bytes} (h : kept.head? = some dotdot)
    (components : List Bytes) :
    (components.foldl (normStep false) kept).head? = some dotdot := by
  induction components generalizing kept with
  | nil => exact h
  | cons name rest ih =>
    refine ih ?_
    unfold normStep
    split_ifs with hempty hkeep
    · exact h
    · rw [List.head?_append_of_ne_nil]
      · exact h
      · rintro rfl
        cases h
    · cases kept with
      | nil => cases h
      | cons first kept =>
        obtain rfl := Option.some.inj h
        cases kept with
        | nil => exact absurd (.inr (.inr rfl)) hkeep
        | cons next kept => rfl

/-! ### Shortened texts and walks -/

namespace Tree

/-- What the text of a target has to keep to: an empty component or a dot stands behind a directory,
and a name that a ".." takes back is a directory where the kernel finds it, and not the root. -/
def Straight (t : Tree) (start : List Bytes) (absolute : Bool) :
    List Bytes → List Bytes → Prop
  | _, [] => True
  | kept, component :: rest =>
    (component = [] ∨ component = dot →
      ∀ place, t.Walks start kept place → t.node place = some .directory) ∧
    (component = dotdot → ∀ before name, kept = before ++ [name] →
      ∀ place, t.Walks start before place → t.node (place ++ [name]) = some .directory ∧
        (t.root <+: place ++ [name] → t.root <+: place)) ∧
    Straight t start absolute (normStep absolute kept component) rest

/-- A target is read from `/`, or from the directory of its link. -/
def StraightTarget (t : Tree) (directory : List Bytes) (target : Bytes) : Prop :=
  if isAbs target then t.Straight [] true [] (target.splitOn slash)
  else t.Straight t.root false directory (target.splitOn slash)

theorem walks_of_normalized {start : List Bytes} {absolute : Bool} {components kept : List Bytes}
    (hstart : t.node start = some .directory) (habsolute : absolute = true → start = [])
    (hkept : ∀ n ∈ kept, IsStep n) (hstraight : t.Straight start absolute kept components)
    (hinside : (components.foldl (normStep absolute) kept).head? ≠ some dotdot)
    (h : t.Walks start (components.foldl (normStep absolute) kept ++ more) final) :
    t.Walks start (kept ++ (components ++ more)) final := by
  induction components generalizing kept with
  | nil => exact h
  | cons component rest ih =>
    rw [List.foldl_cons] at hinside h
    obtain ⟨hempty, hback, hrest⟩ := hstraight
    by_cases hstay : component = [] ∨ component = dot
    · rw [normStep_empty hstay] at hinside h hrest
      obtain ⟨middle, hfirst, hsecond, -⟩ := (ih hkept hrest hinside h).split hstart
      have hmiddle := hempty hstay middle hfirst
      exact hfirst.append hstart (.inr hmiddle) (.step (move_stay hstay _) hsecond)
    by_cases hup : component = dotdot
    · subst hup
      obtain rfl | ⟨before, name, rfl⟩ := kept.eq_nil_or_concat'
      · cases absolute with
        | true =>
          -- the kernel stays at `/`, too
          obtain rfl := habsolute rfl
          exact .step (move_up (fun h => h) _) (ih hkept hrest hinside h)
        | false => exact absurd (head?_foldl_normStep rfl rest) hinside
      · have hname : IsStep name := hkept name (by simp)
        rw [normStep_back hname] at hinside h hrest
        have hbefore : ∀ n ∈ before, IsStep n := fun n mem => hkept n (by simp [mem])
        obtain ⟨middle, hfirst, hsecond, -⟩ := (ih hbefore hrest hinside h).split hstart
        obtain ⟨hdirectory, hroot⟩ := hback rfl before name rfl middle hfirst
        rw [List.append_assoc]
        refine hfirst.append hstart (.inr (node_parent hdirectory)) ?_
        refine .step (move_enter hdirectory _) (.step (move_up ?_ _) ?_)
        · rwa [List.dropLast_concat]
        · rwa [List.dropLast_concat]
    · have hstep : IsStep component := ⟨fun h => hstay (.inl h), fun h => hstay (.inr h), hup⟩
      rw [normStep_step hstep] at hinside h hrest
      have hall : ∀ n ∈ kept ++ [component], IsStep n := by
        intro n mem
        obtain mem | mem := List.mem_append.mp mem
        · exact hkept n mem
        · exact List.mem_singleton.mp mem ▸ hstep
      have hwalk := ih hall hrest hinside h
      rwa [List.append_assoc] at hwalk

end Tree

/-! ### The parts of a target -/

theorem IsName.isStep (h : IsName name) : IsStep name := ⟨h.full, h.notDot, h.notDotdot⟩

theorem foldl_normStep_names {absolute : Bool} {kept names : List Bytes}
    (h : ∀ n ∈ names, IsStep n) : names.foldl (normStep absolute) kept = kept ++ names := by
  induction names generalizing kept with
  | nil => rw [List.foldl_nil, List.append_nil]
  | cons name names ih =>
    obtain ⟨hname, hnames⟩ := List.forall_mem_cons.mp h
    rw [List.foldl_cons, normStep_step hname, ih hnames, List.append_assoc]
    rfl

/-- What is kept of components has no slash where they have none, and no empty or dotted name. -/
theorem forall_mem_foldl_normStep {absolute : Bool} {components kept : List Bytes}
    {p : Bytes → Prop} (hcomponents : ∀ n ∈ components, p n)
    (hkept : ∀ n ∈ kept, p n ∧ n ≠ [] ∧ n ≠ dot) :
    ∀ n ∈ components.foldl (normStep absolute) kept, p n ∧ n ≠ [] ∧ n ≠ dot := by
  induction components generalizing kept with
  | nil => exact hkept
  | cons name rest ih =>
    obtain ⟨hname, hrest⟩ := List.forall_mem_cons.mp hcomponents
    refine ih hrest ?_
    unfold normStep
    split_ifs with hempty hkeep
    · exact hkept
    · intro n mem
      obtain mem | mem := List.mem_append.mp mem
      · exact hkept n mem
      · rw [List.mem_singleton.mp mem]
        exact ⟨hname, fun h => hempty (.inl h), fun h => hempty (.inr h)⟩
    · exact fun n mem => hkept n (List.mem_of_mem_dropLast mem)

theorem dotdot_notMem_foldl_normStep {components kept : List Bytes} (h : dotdot ∉ kept) :
    dotdot ∉ components.foldl (normStep true) kept := by
  induction components generalizing kept with
  | nil => exact h
  | cons name rest ih =>
    refine ih ?_
    unfold normStep
    split_ifs with hempty hkeep
    · exact h
    · obtain hname | ⟨hfalse, -⟩ | hlast := hkeep
      · simp [h, Ne.symm hname]
      · cases hfalse
      · exact absurd (List.mem_of_getLast? hlast) h
    · exact fun mem => h (List.mem_of_mem_dropLast mem)

/-- In a relative path ".." is kept at the start only. -/
theorem dotdot_notMem_of_head {components kept : List Bytes} (h : dotdot ∉ kept)
    (hinside : (components.foldl (normStep false) kept).head? ≠ some dotdot) :
    dotdot ∉ components.foldl (normStep false) kept := by
  induction components generalizing kept with
  | nil => exact h
  | cons name rest ih =>
    refine ih ?_ hinside
    rw [List.foldl_cons] at hinside
    by_cases hstay : name = [] ∨ name = dot
    · rwa [normStep_empty hstay]
    by_cases hup : name = dotdot
    · subst hup
      cases kept with
      | nil => exact absurd (head?_foldl_normStep rfl rest) hinside
      | cons first kept =>
        unfold normStep
        rw [if_neg hstay, if_neg]
        · exact fun mem => h (List.mem_of_mem_dropLast mem)
        · rintro (hne | ⟨-, hnil⟩ | hlast)
          · exact hne rfl
          · cases hnil
          · exact h (List.mem_of_getLast? hlast)
    · rw [normStep_step ⟨fun h => hstay (.inl h), fun h => hstay (.inr h), hup⟩]
      simp [h, Ne.symm hup]

theorem names_keyOf (h : ∀ n ∈ names, slash ∉ n ∧ n ≠ [] ∧ n ≠ dot) :
    Pieces.names slash (keyOf names) = names :=
  Pieces.names_intercalate fun n mem => ⟨(h n mem).2.1, (h n mem).1⟩

theorem mem_normComponents (path : Bytes) :
    ∀ n ∈ normComponents path, slash ∉ n ∧ n ≠ [] ∧ n ≠ dot :=
  forall_mem_foldl_normStep Pieces.notMem_of_mem_splitOn nofun

theorem head?_keyOf (h : IsName name) (names : List Bytes) :
    isAbs (keyOf (name :: names)) = false := by
  obtain ⟨hfull, -, -, hclean⟩ := h
  cases name with
  | nil => exact absurd rfl hfull
  | cons c rest =>
    have hhead : (keyOf ((c :: rest) :: names)).head? = some c := by
      cases names <;> rfl
    unfold isAbs
    rw [hhead]
    exact decide_eq_false fun hc => hclean (Option.some.inj hc ▸ List.mem_cons_self)

theorem getLast?_keyOf {names : List Bytes} (h : ∀ n ∈ names, IsName n) :
    (keyOf names).getLast? ≠ some slash := by
  obtain rfl | ⟨before, name, rfl⟩ := names.eq_nil_or_concat'
  · exact nofun
  · have hname := h name (by simp)
    obtain ⟨rest, c, rfl⟩ := (name.eq_nil_or_concat').resolve_left hname.full
    have hkey : ∃ front, keyOf (before ++ [rest ++ [c]]) = front ++ [c] := by
      induction before with
      | nil => exact ⟨rest, List.intercalate_singleton⟩
      | cons first before ih =>
        obtain ⟨front, hfront⟩ := ih fun n mem => h n (List.mem_cons_of_mem _ mem)
        refine ⟨first ++ [slash] ++ front, ?_⟩
        have hne : before ++ [rest ++ [c]] ≠ [] := by simp
        obtain ⟨second, others, hothers⟩ := List.exists_cons_of_ne_nil hne
        unfold keyOf at hfront ⊢
        rw [List.cons_append, hothers, List.intercalate_cons_cons, ← hothers, hfront]
        simp
    obtain ⟨front, hfront⟩ := hkey
    rw [hfront, List.getLast?_concat]
    exact fun hc => hname.clean (by rw [Option.some.inj hc]; simp)

theorem dirname_keyOf (hnames : ∀ n ∈ names, IsName n) (hname : IsName name) :
    dirname (keyOf (names ++ [name])) = keyOf names := by
  unfold dirname
  have hsplit : (keyOf (names ++ [name])).splitOn slash = names ++ [name] := by
    refine List.splitOn_intercalate slash (fun n mem => ?_) (by simp)
    obtain mem | mem := List.mem_append.mp mem
    · exact (hnames n mem).clean
    · exact (List.mem_singleton.mp mem ▸ hname).clean
  rw [hsplit, List.dropLast_concat]
  rfl

/-- A relative target is shortened behind the names of its directory. -/
theorem normComponents_join (hnames : ∀ n ∈ names, IsName n) (hrelative : isAbs target = false) :
    isAbs (join (keyOf names) target) = false ∧ normComponents (join (keyOf names) target) =
      (target.splitOn slash).foldl (normStep false) names := by
  have hjoin : join (keyOf names) target =
      if keyOf names = [] then target else keyOf names ++ slash :: target := by
    unfold join
    rw [hrelative]
    by_cases hempty : keyOf names = []
    · simp [hempty]
    · simp [hempty, getLast?_keyOf hnames]
  cases names with
  | nil =>
    have hnil : join (keyOf []) target = target := hjoin
    unfold normComponents
    rw [hnil, hrelative]
    exact ⟨rfl, rfl⟩
  | cons first names =>
    have hfirst := hnames first List.mem_cons_self
    have hne : keyOf (first :: names) ≠ [] := by
      intro hempty
      have hsplit : (keyOf (first :: names)).splitOn slash = first :: names :=
        List.splitOn_intercalate slash (fun n mem => (hnames n mem).clean) (List.cons_ne_nil _ _)
      rw [hempty] at hsplit
      exact hfirst.full (List.cons.inj (show [[]] = first :: names from hsplit)).1.symm
    rw [if_neg hne] at hjoin
    have habsolute : isAbs (keyOf (first :: names) ++ slash :: target) = false := by
      have hhead := head?_keyOf hfirst names
      unfold isAbs at hhead ⊢
      rwa [List.head?_append_of_ne_nil _ hne]
    unfold normComponents
    rw [hjoin, habsolute, List.splitOn_append_cons_self, List.foldl_append]
    refine ⟨rfl, congrArg (fun kept => (target.splitOn slash).foldl (normStep false) kept) ?_⟩
    rw [show (keyOf (first :: names)).splitOn slash = first :: names from
      List.splitOn_intercalate slash (fun n mem => (hnames n mem).clean) (List.cons_ne_nil _ _)]
    exact foldl_normStep_names fun n mem => (hnames n mem).isStep

theorem names_normpath (path : Bytes) :
    Pieces.names slash (initialSlashes path ++ keyOf (normComponents path)) =
      normComponents path := by
  have hkey := names_keyOf (mem_normComponents path)
  unfold initialSlashes
  split
  · exact hkey
  · rw [List.cons_append, Pieces.names_cons_separator, List.singleton_append,
      Pieces.names_cons_separator, hkey]
  · rw [List.singleton_append, Pieces.names_cons_separator, hkey]

namespace Tree

variable {parts : List Bytes}

theorem symlinkTargetParts_relative (hnames : ∀ n ∈ names, IsName n) (hname : IsName name)
    (hrelative : isAbs target = false)
    (h : t.symlinkTargetParts label (keyOf (names ++ [name])) target = .ok parts) :
    parts = (target.splitOn slash).foldl (normStep false) names ∧ parts.head? ≠ some dotdot := by
  obtain ⟨hjoin, hcomponents⟩ := normComponents_join hnames hrelative
  have hslashes : initialSlashes (join (keyOf names) target) = [] := by
    unfold initialSlashes
    cases hfull : join (keyOf names) target with
    | nil => rfl
    | cons c rest =>
      rw [hfull] at hjoin
      have hc : ¬ c = slash := fun hc => by
        rw [hc] at hjoin
        cases hjoin
      rw [List.takeWhile_cons_of_neg (by simpa using hc)]
  have hmem := mem_normComponents (join (keyOf names) target)
  generalize hkept : normComponents (join (keyOf names) target) = kept at hmem
  have hparts := names_keyOf hmem
  have hnormal : normpath (join (keyOf names) target) =
      if keyOf kept = [] then dot else keyOf kept := by
    unfold normpath
    rw [hslashes, hkept]
    rfl
  simp only [symlinkTargetParts, steps_ok] at h
  obtain ⟨-, relativeTarget, htarget, -, rfl⟩ := h
  simp only [Tree.relativeTarget, dirname_keyOf hnames hname, hrelative, hnormal,
    Bool.false_eq_true, if_false] at htarget
  rw [← hcomponents, hkept]
  by_cases hempty : keyOf kept = []
  · rw [if_pos hempty, if_pos (.inl rfl)] at htarget
    obtain rfl := Except.ok.inj htarget
    rw [hempty] at hparts
    rw [hparts]
    refine ⟨rfl, ?_⟩
    rw [← hparts]
    rintro ⟨⟩
  · rw [if_neg hempty] at htarget
    have hnotDot : keyOf kept ≠ dot := by
      intro hdot
      rw [hdot] at hparts
      have hmemDot : dot ∈ kept := by
        rw [← hparts]
        decide
      exact (hmem dot hmemDot).2.2 rfl
    rw [if_neg (fun h => h.elim hnotDot hempty)] at htarget
    split_ifs at htarget with hescapes
    · obtain rfl := Except.ok.inj htarget
      refine ⟨hparts, ?_⟩
      rw [hparts]
      intro hhead
      cases kept with
      | nil => cases hhead
      | cons first rest =>
        obtain rfl := Option.some.inj hhead
        refine hescapes ?_
        cases rest with
        | nil => exact .inl rfl
        | cons second others => exact .inr ⟨keyOf (second :: others), by simp [keyOf]⟩

theorem symlinkTargetParts_absolute (habsolute : isAbs target = true) {relative : Bytes}
    (h : t.symlinkTargetParts label relative target = .ok parts) :
    (target.splitOn slash).foldl (normStep true) [] = t.root ++ parts := by
  have hcomponents : normComponents target = (target.splitOn slash).foldl (normStep true) [] := by
    unfold normComponents
    rw [habsolute]
  have hnames := names_normpath target
  have hroot : Pieces.names slash t.rootBytes = t.root := by
    unfold rootBytes
    rw [Pieces.names_cons_separator]
    exact names_keyOf fun n mem =>
      ⟨(t.rootNames n mem).clean, (t.rootNames n mem).full, (t.rootNames n mem).notDot⟩
  have hnormal : normpath target = initialSlashes target ++ keyOf (normComponents target) := by
    refine if_neg fun hempty => ?_
    have hslashes := (List.append_eq_nil_iff.mp hempty).1
    cases target with
    | nil => cases habsolute
    | cons c rest =>
      have hc : c = slash := by simpa [isAbs] using habsolute
      unfold initialSlashes at hslashes
      rw [List.takeWhile_cons_of_pos (by simpa using hc)] at hslashes
      split at hslashes <;> simp_all
  rw [← hnormal] at hnames
  rw [← hcomponents, ← hnames]
  simp only [symlinkTargetParts, steps_ok] at h
  obtain ⟨-, relativeTarget, htarget, -, rfl⟩ := h
  simp only [Tree.relativeTarget, habsolute, if_true] at htarget
  split_ifs at htarget with hsame hbelow
  · obtain rfl := Except.ok.inj htarget
    rw [hsame, hroot, Pieces.names_nil, List.append_nil]
  · obtain rfl := Except.ok.inj htarget
    obtain ⟨rest, hrest⟩ := hbelow
    have hdrop : (normpath target).drop (t.rootBytes.length + 1) = rest := by
      rw [← hrest, ← List.length_singleton (a := slash), ← List.length_append, List.drop_left]
    rw [hdrop, ← hrest, List.append_assoc, List.singleton_append, Pieces.names_append_cons, hroot]

theorem isName_parts (hnames : ∀ n ∈ names, IsName n) (hname : IsName name) {relative : Bytes}
    (hkey : relative = keyOf (names ++ [name]))
    (h : t.symlinkTargetParts label relative target = .ok parts) : ∀ n ∈ parts, IsName n := by
  subst hkey
  cases htarget : isAbs target with
  | false =>
    obtain ⟨rfl, hinside⟩ := symlinkTargetParts_relative hnames hname htarget h
    have hclean : ∀ n ∈ (target.splitOn slash).foldl (normStep false) names,
        slash ∉ n ∧ n ≠ [] ∧ n ≠ dot :=
      forall_mem_foldl_normStep Pieces.notMem_of_mem_splitOn fun n mem =>
        ⟨(hnames n mem).clean, (hnames n mem).full, (hnames n mem).notDot⟩
    have hdotdot : dotdot ∉ names := fun mem => (hnames dotdot mem).notDotdot rfl
    intro n mem
    obtain ⟨hslash, hfull, hdot⟩ := hclean n mem
    exact ⟨hfull, hdot, fun heq => dotdot_notMem_of_head hdotdot hinside (heq ▸ mem), hslash⟩
  | true =>
    have hparts := symlinkTargetParts_absolute htarget h
    intro n mem
    have hmem : n ∈ (target.splitOn slash).foldl (normStep true) [] := by
      rw [hparts]
      exact List.mem_append_right _ mem
    obtain ⟨hslash, hfull, hdot⟩ := forall_mem_foldl_normStep (p := fun n => slash ∉ n)
      Pieces.notMem_of_mem_splitOn (fun _ h => absurd h List.not_mem_nil) n hmem
    exact ⟨hfull, hdot, fun heq =>
      dotdot_notMem_foldl_normStep List.not_mem_nil (heq ▸ hmem), hslash⟩

/-! ### The validator follows links as the kernel does -/

/-- Every target of the tree keeps to the rule. -/
def StraightLinks (t : Tree) : Prop :=
  ∀ names name target, t.entryAt (names ++ [name]) = some (.symlink target) →
    t.StraightTarget names target

theorem walks_link (hlinks : t.StraightLinks)
    (hlink : t.entryAt (names ++ [name]) = some (.symlink target))
    (hparts : t.symlinkTargetParts label (keyOf (names ++ [name])) target = .ok parts)
    (h : t.Walks t.root (parts ++ more) final) :
    t.Walks (t.root ++ names) (name :: more) final := by
  have hnode : t.node (t.root ++ names ++ [name]) = some (.symlink target) := by
    rw [List.append_assoc, node_below (by simp), hlink]
  have hall := (entryAt_spec hlink).2.1
  have hnames : ∀ n ∈ names, IsName n := fun n mem => hall n (by simp [mem])
  have hname : IsName name := hall name (by simp)
  have hroot : t.node t.root = some .directory := node_on_way List.prefix_rfl
  have hstraight := hlinks names name target hlink
  unfold StraightTarget at hstraight
  refine .step (move_follow hnode more) ?_
  cases htarget : isAbs target with
  | true =>
    rw [htarget, if_pos rfl] at hstraight
    have hnormal := symlinkTargetParts_absolute htarget hparts
    refine walks_of_normalized (node_on_way List.nil_prefix) (fun _ => rfl)
      (fun _ h => absurd h List.not_mem_nil) hstraight ?_ ?_
    · intro hhead
      exact dotdot_notMem_foldl_normStep List.not_mem_nil (List.mem_of_mem_head? hhead)
    · rw [hnormal, List.append_assoc]
      exact (walks_enter (show t.node ([] ++ t.root) = _ from hroot)).mpr h
  | false =>
    rw [htarget, if_neg Bool.false_ne_true] at hstraight
    obtain ⟨rfl, hinside⟩ := symlinkTargetParts_relative hnames hname htarget hparts
    have hwalk := walks_of_normalized hroot (fun h => absurd h Bool.false_ne_true)
      (fun n mem => (hnames n mem).isStep) hstraight hinside h
    exact (walks_enter (node_parent hnode)).mp hwalk

/-- The validator's walk is one of the kernel, as long as it follows links as the kernel does. -/
theorem scanParts_walks {onLink : Bytes → Bytes → List Bytes → Except String (List Bytes)}
    (honLink : ∀ names name target pending resolved,
      t.entryAt (names ++ [name]) = some (.symlink target) → (∀ n ∈ pending, IsName n) →
      onLink (keyOf (names ++ [name])) target pending = .ok resolved →
      t.Walks (t.root ++ names) (name :: pending) (t.root ++ resolved))
    {pending start resolved : List Bytes} (hpending : ∀ n ∈ pending, IsName n)
    (hstart : ∀ n ∈ start, IsName n)
    (h : t.scanParts label onLink start pending = .ok resolved) :
    t.Walks (t.root ++ start) pending (t.root ++ resolved) := by
  induction pending generalizing start with
  | nil =>
    obtain rfl := Except.ok.inj h
    exact .done
  | cons part pending ih =>
    obtain ⟨hpart, hpending⟩ := List.forall_mem_cons.mp hpending
    have hnext : ∀ n ∈ start ++ [part], IsName n := by
      intro n mem
      obtain mem | mem := List.mem_append.mp mem
      · exact hstart n mem
      · exact List.mem_singleton.mp mem ▸ hpart
    unfold scanParts at h
    rw [← entryAt_of_names hnext] at h
    have hnode : t.node (t.root ++ start ++ [part]) = t.entryAt (start ++ [part]) := by
      rw [List.append_assoc, node_below (by simp)]
    split at h
    · cases h
    · next target hentry => exact honLink start part target pending resolved hentry hpending h
    · next hentry =>
      refine .step (move_enter (hnode.trans hentry) pending) ?_
      rw [List.append_assoc]
      exact ih hpending hnext h
    · next hentry =>
      simp only [checks_ok] at h
      obtain ⟨rfl, h⟩ := h
      refine .step (move_regular (hnode.trans hentry)) ?_
      rw [List.append_assoc]
      exact ih hpending hnext h

theorem followLinks_walks (hlinks : t.StraightLinks) (hops : ℕ) :
    ∀ {visited start pending resolved : List Bytes}, (∀ n ∈ pending, IsName n) →
      (∀ n ∈ start, IsName n) → t.followLinks label hops visited start pending = .ok resolved →
      t.Walks (t.root ++ start) pending (t.root ++ resolved) := by
  induction hops with
  | zero =>
    intro visited start pending resolved hpending hstart h
    refine scanParts_walks (fun _ _ _ _ _ _ _ h => ?_) hpending hstart h
    cases h
  | succ hops ih =>
    intro visited start pending resolved hpending hstart h
    refine scanParts_walks (fun names name target more resolved hlink hmore h => ?_) hpending
      hstart h
    simp only [checks_ok] at h
    obtain ⟨-, parts, hparts, h⟩ := h
    have hall := (entryAt_spec hlink).2.1
    have hparts' : ∀ n ∈ parts ++ more, IsName n := by
      intro n mem
      obtain mem | mem := List.mem_append.mp mem
      · exact isName_parts (fun m hm => hall m (by simp [hm])) (hall name (by simp)) rfl hparts n
          mem
      · exact hmore n mem
    have hwalk := ih hparts' (fun _ h => absurd h List.not_mem_nil) h
    rw [List.append_nil] at hwalk
    exact walks_link hlinks hlink hparts hwalk

/-- The kernel follows a link to a directory or a file of the tree, and never leaves the root
upwards on its way. -/
def Confined (t : Tree) (names : List Bytes) (name : Bytes) : Prop :=
  ∃ final, t.Walks (t.root ++ names) [name] (t.root ++ final) ∧
    (t.entryAt final = some .directory ∨ t.entryAt final = some .regular)

/-- In an accepted tree every link stays inside, when the targets keep to the rule. -/
theorem discovery_confined (t : Tree) (label : String) (hlinks : t.StraightLinks)
    (h : t.validateDiscoverySymlinks label = .ok ()) :
    ∀ names name target, t.entryAt (names ++ [name]) = some (.symlink target) →
      t.Confined names name := by
  intro names name target hlink
  obtain ⟨-, hall, hget⟩ := entryAt_spec hlink
  have hmem := (Table.get?_eq_some.mp hget)
  have hvalid : t.validateSymlink label (keyOf (names ++ [name])) target = .ok () :=
    forM_eq_ok.mp h _ hmem
  simp only [validateSymlink, bind_eq_ok, ensure_eq_ok] at hvalid
  obtain ⟨parts, hparts, final, hfollow, hancestors⟩ := hvalid
  have hparts' := isName_parts (fun m hm => hall m (by simp [hm])) (hall name (by simp)) rfl hparts
  have hwalk := followLinks_walks hlinks _ hparts' (fun _ h => absurd h List.not_mem_nil) hfollow
  rw [List.append_nil, ← List.append_nil parts] at hwalk
  have hconfined := walks_link hlinks hlink hparts hwalk
  refine ⟨final, hconfined, ?_⟩
  have hne : final ≠ [] := by
    rintro rfl
    exact hancestors List.mem_cons_self
  rw [← node_below hne]
  refine hwalk.node_final (node_on_way List.prefix_rfl)

/-! ### Trees given by their paths -/

instance (name : Bytes) : Decidable (IsName name) :=
  decidable_of_iff (name ≠ [] ∧ name ≠ dot ∧ name ≠ dotdot ∧ slash ∉ name)
    ⟨fun ⟨a, b, c, d⟩ => ⟨a, b, c, d⟩, fun ⟨a, b, c, d⟩ => ⟨a, b, c, d⟩⟩

structure Closed (root : List Bytes) (paths : List (List Bytes × Entry)) : Prop where
  rootNames : ∀ name ∈ root, IsName name
  names : ∀ p ∈ paths, p.1 ≠ [] ∧ ∀ name ∈ p.1, IsName name
  parents : ∀ p ∈ paths, p.1.dropLast ≠ [] → (p.1.dropLast, .directory) ∈ paths
  nodup : (paths.map fun p => keyOf p.1).Nodup

instance (root : List Bytes) (paths : List (List Bytes × Entry)) : Decidable (Closed root paths) :=
  decidable_of_iff ((∀ name ∈ root, IsName name) ∧
    (∀ p ∈ paths, p.1 ≠ [] ∧ ∀ name ∈ p.1, IsName name) ∧
    (∀ p ∈ paths, p.1.dropLast ≠ [] → (p.1.dropLast, .directory) ∈ paths) ∧
    (paths.map fun p => keyOf p.1).Nodup)
    ⟨fun ⟨a, b, c, d⟩ => ⟨a, b, c, d⟩, fun ⟨a, b, c, d⟩ => ⟨a, b, c, d⟩⟩

theorem keyOf_inj {names' : List Bytes} (h : ∀ n ∈ names, IsName n) (h' : ∀ n ∈ names', IsName n)
    (hkey : keyOf names = keyOf names') : names = names' := by
  have hnames : ∀ {ns : List Bytes}, (∀ n ∈ ns, IsName n) →
      Pieces.names slash (keyOf ns) = ns := fun hns =>
    names_keyOf fun n mem => ⟨(hns n mem).clean, (hns n mem).full, (hns n mem).notDot⟩
  rw [← hnames h, hkey, hnames h']

def ofPaths (root : List Bytes) (paths : List (List Bytes × Entry)) (h : Closed root paths) :
    Tree where
  root := root
  entries := ⟨paths.map fun p => (keyOf p.1, p.2), by
    rw [List.map_map]
    exact h.nodup⟩
  rootNames := h.rootNames
  keys := by
    intro key mem
    obtain ⟨entry, hentry, rfl⟩ := List.mem_map.mp mem
    obtain ⟨p, hp, rfl⟩ := List.mem_map.mp hentry
    obtain ⟨hne, hnames⟩ := h.names p hp
    refine ⟨p.1.dropLast, p.1.getLast hne, fun n mem => hnames n (List.mem_of_mem_dropLast mem),
      hnames _ (List.getLast_mem hne), ?_⟩
    rw [List.dropLast_concat_getLast]
  parents := by
    intro names name hnames hname mem hne
    obtain ⟨entry, hentry, hkey⟩ := List.mem_map.mp mem
    obtain ⟨p, hp, rfl⟩ := List.mem_map.mp hentry
    have hsame : p.1 = names ++ [name] := by
      refine keyOf_inj (h.names p hp).2 (fun n mem => ?_) hkey
      obtain mem | mem := List.mem_append.mp mem
      · exact hnames n mem
      · exact List.mem_singleton.mp mem ▸ hname
    have hparent := h.parents p hp
    rw [hsame, List.dropLast_concat] at hparent
    exact Table.get?_eq_some.mpr (List.mem_map.mpr ⟨_, hparent hne, rfl⟩)

theorem mem_of_entry? {root : List Bytes} {paths : List (List Bytes × Entry)}
    {h : Closed root paths} (hentry : (ofPaths root paths h).entryAt names = some e) :
    (names, e) ∈ paths := by
  obtain ⟨-, hnames, hget⟩ := entryAt_spec hentry
  obtain ⟨p, hp, heq⟩ := List.mem_map.mp (Table.get?_eq_some.mp hget)
  obtain ⟨hkey, rfl⟩ := Prod.mk.inj heq
  obtain rfl := keyOf_inj (h.names p hp).2 hnames hkey
  exact hp

def movesFrom (t : Tree) : ℕ → List Bytes × List Bytes → Option (List Bytes × List Bytes)
  | 0, s => some s
  | n + 1, s => (t.move s.1 s.2).bind (movesFrom t n)

theorem Walks.of_movesFrom {n : ℕ} {s s' : List Bytes × List Bytes}
    (hmoves : t.movesFrom n s = some s') (h : t.Walks s.1 s.2 final) : t.Walks s'.1 s'.2 final := by
  induction n generalizing s with
  | zero =>
    obtain rfl := Option.some.inj hmoves
    exact h
  | succ n ih =>
    obtain ⟨next, hnext, hmoves⟩ := Option.bind_eq_some_iff.mp hmoves
    exact ih hmoves (h.of_step hnext)

/-- A link beside its target, below `/r`. -/
def besideTree : Tree :=
  ofPaths [[0x72]] [([[0x74]], .directory), ([[0x61]], .directory),
    ([[0x61], [0x6b]], .symlink (dotdot ++ [slash, 0x74]))] (by decide)

theorem besideTree_straight : besideTree.StraightLinks := by
  intro names name target hlink
  have hmem := mem_of_entry? hlink
  simp only [List.mem_cons, List.not_mem_nil, or_false, Prod.mk.injEq, reduceCtorEq, and_false,
    false_or, Entry.symlink.injEq] at hmem
  obtain ⟨hnames, rfl⟩ := hmem
  obtain ⟨rfl, -⟩ := List.append_inj' (show names ++ [name] = [[0x61]] ++ [[0x6b]] from hnames) rfl
  refine ⟨fun h => absurd h (by decide), fun _ before last hlast place hplace => ?_,
    fun h => absurd h (by decide), fun h => absurd h (by decide), trivial⟩
  obtain ⟨rfl, hlast⟩ := List.append_inj' (show [] ++ [[0x61]] = before ++ [last] from hlast) rfl
  obtain rfl := (List.cons.inj hlast).1
  obtain rfl := hplace.eq_of_nil
  exact ⟨by decide, fun _ => List.prefix_rfl⟩

theorem besideTree_confined : besideTree.validateDiscoverySymlinks "skills" = .ok () ∧
    besideTree.StraightLinks ∧ besideTree.Confined [[0x61]] [0x6b] := by
  have h : besideTree.validateDiscoverySymlinks "skills" = .ok () := by decide
  exact ⟨h, besideTree_straight, discovery_confined besideTree "skills" besideTree_straight h _ _
    (dotdot ++ [slash, 0x74]) (by decide)⟩

/-- Below `/r` the link `m` leads to `a/k/../../x`, and `a/k` to a directory beside `a`. -/
def escapingTree : Tree :=
  ofPaths [[0x72]] [([[0x74]], .directory), ([[0x61]], .directory),
    ([[0x61], [0x6b]], .symlink (dotdot ++ [slash, 0x74])), ([[0x78]], .regular),
    ([[0x6d]], .symlink ([0x61, slash, 0x6b, slash] ++ dotdot ++ [slash] ++ dotdot ++
      [slash, 0x78]))] (by decide)

/-- The tree is accepted, and from the target of `a/k` the second ".." leaves the root. -/
theorem escapingTree_escapes : ¬ ∀ (t : Tree) (label : String),
    t.validateDiscoverySymlinks label = .ok () →
      ∀ names name target, t.entryAt (names ++ [name]) = some (.symlink target) →
        t.Confined names name := by
  intro h
  obtain ⟨final, hwalk, -⟩ := h escapingTree "skills" (by decide) [] [0x6d]
    ([0x61, slash, 0x6b, slash] ++ dotdot ++ [slash] ++ dotdot ++ [slash, 0x78]) (by decide)
  have hmoves : escapingTree.movesFrom 6 ([[0x72]], [[0x6d]]) =
      some ([[0x72]], [dotdot, [0x78]]) := by decide
  have hstuck := hwalk.of_movesFrom (s := ([[0x72]], [[0x6d]])) hmoves
  cases hstuck with
  | step hmove =>
    have hnone : escapingTree.move [[0x72]] [dotdot, [0x78]] = none := by decide
    cases hnone.symm.trans hmove

end Tree

end CodexFlow.Native
