import CodexFlow.Capsule.JsonRoundTrip

/-!
# JSON values

A value of the interpreter as the canonical tree that stands for it: `JsonValue` carries the order
of its dictionaries' keys, so that equality is Python's. What the strict reader returns is such a
value.
-/

namespace CodexFlow.Capsule

open Hook (CodePoint PyStr Json Dict codePoint lit isSurrogate)

variable {floats : Floats}

/-! ### Order -/

theorem keyLE_trans (a b c : PyStr) : Hook.keyLE a b = true → Hook.keyLE b c = true →
    Hook.keyLE a c = true := by
  induction a generalizing b c with
  | nil => exact fun _ _ => rfl
  | cons x a ih =>
    intro hab hbc
    match b, c, hab, hbc with
    | y :: b, z :: c, hab, hbc =>
      simp only [Hook.keyLE, Bool.or_eq_true, Bool.and_eq_true, decide_eq_true_eq] at hab hbc ⊢
      obtain xy | ⟨rfl, hab⟩ := hab
      · obtain yz | ⟨rfl, -⟩ := hbc
        · exact .inl (xy.trans yz)
        · exact .inl xy
      · obtain yz | ⟨rfl, hbc⟩ := hbc
        · exact .inl yz
        · exact .inr ⟨rfl, ih b c hab hbc⟩

theorem keyLE_total (a b : PyStr) : (Hook.keyLE a b || Hook.keyLE b a) = true := by
  induction a generalizing b with
  | nil => rfl
  | cons x a ih =>
    cases b with
    | nil => rfl
    | cons y b =>
      simp only [Hook.keyLE, Bool.or_eq_true, Bool.and_eq_true, decide_eq_true_eq]
      obtain below | rfl | above := lt_trichotomy x y
      · exact .inl (.inl below)
      · obtain h | h := Bool.or_eq_true_iff.mp (ih b)
        · exact .inl (.inr ⟨rfl, h⟩)
        · exact .inr (.inr ⟨rfl, h⟩)
      · exact .inr (.inl above)

def fieldLE (a b : PyStr × Json) : Bool := Hook.keyLE a.1 b.1

theorem sortedKeys_of_pairwise {fields : Dict}
    (sorted : fields.Pairwise fun a b => fieldLE a b = true)
    (nodup : (fields.map (·.1)).Nodup) : sortedKeys fields = true := by
  induction fields with
  | nil => rfl
  | cons field fields ih =>
    obtain ⟨first, sorted⟩ := List.pairwise_cons.mp sorted
    obtain ⟨fresh, nodup⟩ := List.nodup_cons.mp nodup
    rw [sortedKeys, Bool.and_eq_true, List.all_eq_true]
    refine ⟨fun next mem => ?_, ih sorted nodup⟩
    have differs : field.1 ≠ next.1 := fun same => fresh (List.mem_map.mpr ⟨next, mem, same.symm⟩)
    rw [Bool.and_eq_true]
    exact ⟨first next mem, decide_eq_true differs⟩

theorem sortedKeys_mergeSort {fields : Dict} (nodup : (fields.map (·.1)).Nodup) :
    sortedKeys (fields.mergeSort fieldLE) = true := by
  refine sortedKeys_of_pairwise ?_ ?_
  · exact List.pairwise_mergeSort (fun a b c => keyLE_trans a.1 b.1 c.1)
      (fun a b => keyLE_total a.1 b.1) fields
  · exact ((List.mergeSort_perm fields fieldLE).map _).nodup_iff.mpr nodup

theorem orderedItems_iff {items : List Json} :
    orderedItems floats items = true ↔ ∀ item ∈ items, ordered floats item = true := by
  induction items with
  | nil => simp [orderedItems]
  | cons item items ih => simp [orderedItems, ih]

theorem orderedFields_iff {fields : Dict} :
    orderedFields floats fields = true ↔ ∀ field ∈ fields, ordered floats field.2 = true := by
  induction fields with
  | nil => simp [orderedFields]
  | cons field fields ih =>
    obtain ⟨key, value⟩ := field
    simp [orderedFields, ih]

theorem ordered_obj_iff {fields : Dict} :
    ordered floats (.obj fields) = true ↔
      sortedKeys fields = true ∧ ∀ field ∈ fields, ordered floats field.2 = true := by
  rw [ordered, Bool.and_eq_true, orderedFields_iff]

/-! ### What the reader returns -/

theorem printableItems_iff {items : List Json} :
    printableItems items = true ↔ ∀ item ∈ items, printable item = true := by
  induction items with
  | nil => simp [printableItems]
  | cons item items ih => simp [printableItems, ih]

theorem printableFields_iff {fields : Dict} :
    printableFields fields = true ↔ ∀ field ∈ fields, printable field.2 = true := by
  induction fields with
  | nil => simp [printableFields]
  | cons field fields ih =>
    obtain ⟨key, value⟩ := field
    simp [printableFields, ih]

/-- The value is in order, and its integers are within the limit of the conversion to text. -/
structure Admitted (floats : Floats) (value : Json) : Prop where
  ordered : ordered floats value = true
  printable : printable value = true

theorem Admitted.arr {items : List Json} (h : ∀ item ∈ items, Admitted floats item) :
    Admitted floats (.arr items) where
  ordered := by
    rw [Capsule.ordered]
    exact orderedItems_iff.mpr fun item mem => (h item mem).ordered
  printable := by
    rw [Capsule.printable]
    exact printableItems_iff.mpr fun item mem => (h item mem).printable

theorem admitted_of_strictPairs {pairs fields : Dict} (h : strictPairs pairs = some fields)
    (values : ∀ pair ∈ pairs, Admitted floats pair.2) : Admitted floats (.obj fields) := by
  unfold strictPairs at h
  split_ifs at h with nodup
  cases h
  have mem {field} : field ∈ pairs.mergeSort (fun a b => Hook.keyLE a.1 b.1) → field ∈ pairs :=
    (List.mergeSort_perm pairs _).mem_iff.mp
  constructor
  · exact ordered_obj_iff.mpr
      ⟨sortedKeys_mergeSort nodup, fun field h => (values field (mem h)).ordered⟩
  · rw [printable]
    exact printableFields_iff.mpr fun field h => (values field (mem h)).printable

theorem admitted_of_numberToken {token : PyStr} {value : Json}
    (h : numberToken floats token = some value) : Admitted floats value := by
  unfold numberToken at h
  split at h
  · rename_i n read
    cases h
    exact ⟨rfl, decide_eq_true (length_of_intToken read)⟩
  · split_ifs at h
    obtain ⟨literal, read, rfl⟩ := Option.map_eq_some_iff.mp h
    exact ⟨by simpa [ordered] using floats.read_isRepr _ _ read, rfl⟩

/-- What the reader returns is admitted, on values, items and fields. -/
structure Admits (floats : Floats) (fuel : ℕ) : Prop where
  value : ∀ {input value rest}, parseValue floats fuel input = some (value, rest) →
    Admitted floats value
  items : ∀ {input items rest}, parseItems floats fuel input = some (items, rest) →
    ∀ item ∈ items, Admitted floats item
  fields : ∀ {input fields rest}, parseFields floats fuel input = some (fields, rest) →
    ∀ field ∈ fields, Admitted floats field.2

theorem Admits.value_succ {fuel : ℕ} (admits : Admits floats fuel) {input rest : PyStr}
    {value : Json} (h : parseValue floats (fuel + 1) input = some (value, rest)) :
    Admitted floats value := by
  rw [parseValue.eq_def] at h
  cases input with
  | nil => cases h
  | cons c tail =>
    dsimp only at h
    split_ifs at h
    · obtain ⟨_, -, h⟩ := Option.map_eq_some_iff.mp h
      cases h
      exact ⟨rfl, rfl⟩
    · split at h
      · cases h
      · split_ifs at h
        · cases h
          exact ⟨rfl, rfl⟩
        · obtain ⟨⟨pairs, _⟩, read, h⟩ := Option.bind_eq_some_iff.mp h
          obtain ⟨fields, strict, h⟩ := Option.bind_eq_some_iff.mp h
          cases h
          exact admitted_of_strictPairs strict (admits.fields read)
    · split at h
      · cases h
      · split_ifs at h
        · cases h
          exact ⟨rfl, rfl⟩
        · obtain ⟨⟨items, _⟩, read, h⟩ := Option.bind_eq_some_iff.mp h
          cases h
          exact .arr (admits.items read)
    · split at h
      · cases h
        exact ⟨rfl, rfl⟩
      · split at h
        · cases h
          exact ⟨rfl, rfl⟩
        · split at h
          · cases h
            exact ⟨rfl, rfl⟩
          · obtain ⟨_, number, h⟩ := Option.bind_eq_some_iff.mp h
            cases h
            exact admitted_of_numberToken number

theorem Admits.items_succ {fuel : ℕ} (admits : Admits floats fuel) {input rest : PyStr}
    {items : List Json} (h : parseItems floats (fuel + 1) input = some (items, rest)) :
    ∀ item ∈ items, Admitted floats item := by
  rw [parseItems.eq_def] at h
  obtain ⟨⟨first, _⟩, read, h⟩ := Option.bind_eq_some_iff.mp h
  dsimp only at h
  split at h
  · cases h
  · split_ifs at h
    · cases h
      exact List.forall_mem_singleton.mpr (admits.value read)
    · obtain ⟨⟨others, _⟩, readOthers, h⟩ := Option.bind_eq_some_iff.mp h
      cases h
      exact List.forall_mem_cons.mpr ⟨admits.value read, admits.items readOthers⟩

theorem Admits.fields_succ {fuel : ℕ} (admits : Admits floats fuel) {input rest : PyStr}
    {fields : Dict} (h : parseFields floats (fuel + 1) input = some (fields, rest)) :
    ∀ field ∈ fields, Admitted floats field.2 := by
  rw [parseFields.eq_def] at h
  cases input with
  | nil => cases h
  | cons c tail =>
    dsimp only at h
    split_ifs at h
    obtain ⟨⟨key, _⟩, -, h⟩ := Option.bind_eq_some_iff.mp h
    dsimp only at h
    split at h
    · cases h
    · split_ifs at h
      obtain ⟨⟨value, _⟩, read, h⟩ := Option.bind_eq_some_iff.mp h
      dsimp only at h
      split at h
      · cases h
      · split_ifs at h
        · cases h
          exact List.forall_mem_singleton.mpr (admits.value read)
        · obtain ⟨⟨others, _⟩, readOthers, h⟩ := Option.bind_eq_some_iff.mp h
          cases h
          exact List.forall_mem_cons.mpr ⟨admits.value read, admits.fields readOthers⟩

theorem admits (floats : Floats) (fuel : ℕ) : Admits floats fuel := by
  induction fuel with
  | zero =>
    refine ⟨@fun _ _ _ h => ?_, @fun _ _ _ h => ?_, @fun _ _ _ h => ?_⟩
    all_goals cases h
  | succ fuel ih => exact ⟨ih.value_succ, ih.items_succ, ih.fields_succ⟩

theorem admitted_of_loads {input : PyStr} {value : Json} (h : loads floats input = some value) :
    Admitted floats value := by
  obtain ⟨⟨_, _⟩, read, h⟩ := Option.bind_eq_some_iff.mp h
  dsimp only at h
  split_ifs at h
  cases h
  exact (admits floats _).value read

/-- What the strict reader returns can be written again. -/
theorem readable_of_strictLoads {maxBytes : ℕ} {input : PyStr} {value : Json}
    (h : strictLoads floats maxBytes input = some value) : Readable floats value := by
  unfold strictLoads at h
  split_ifs at h
  obtain ⟨read, clean⟩ := Option.filter_eq_some_iff.mp h
  have admitted := admitted_of_loads read
  exact ⟨admitted.ordered, admitted.printable, clean⟩

theorem ordered_of_strictLoads {maxBytes : ℕ} {input : PyStr} {value : Json}
    (h : strictLoads floats maxBytes input = some value) : ordered floats value = true :=
  (readable_of_strictLoads h).ordered

/-! ### Values and dictionaries -/

abbrev JsonValue (floats : Floats) := { value : Json // ordered floats value = true }

/-- A dictionary of the interpreter. -/
abbrev DictValue (floats : Floats) := { fields : Dict // ordered floats (.obj fields) = true }

namespace JsonValue

def null : JsonValue floats := ⟨.null, rfl⟩

def int (n : ℤ) : JsonValue floats := ⟨.int n, rfl⟩

def str (s : PyStr) : JsonValue floats := ⟨.str s, rfl⟩

def float (literal : PyStr) (h : floats.isRepr literal = true) : JsonValue floats :=
  ⟨.float literal, by rw [ordered, h]⟩

def list (items : List (JsonValue floats)) : JsonValue floats :=
  ⟨.arr (items.map (·.val)), by
    rw [ordered, orderedItems_iff]
    intro item mem
    obtain ⟨value, -, rfl⟩ := List.mem_map.mp mem
    exact value.property⟩

def dict (fields : DictValue floats) : JsonValue floats := ⟨.obj fields.val, fields.property⟩

/-- `value is None` -/
def isNull (value : JsonValue floats) : Bool :=
  match value.val with
  | .null => true
  | _ => false

def asStr (value : JsonValue floats) : Option PyStr := value.val.asStr

def asInt (value : JsonValue floats) : Option ℤ :=
  match value.val with
  | .int n => some n
  | _ => none

/-- `float(value)` when the value is a number. -/
def asFloat (value : JsonValue floats) : Option PyStr :=
  match value.val with
  | .float literal => some literal
  | .int n => floats.ofInt n
  | _ => none

def asList (value : JsonValue floats) : Option (List (JsonValue floats)) :=
  match value with
  | ⟨.arr items, h⟩ =>
    some (items.attach.map fun item => ⟨item.val, orderedItems_iff.mp h item.val item.property⟩)
  | _ => none

def asDict (value : JsonValue floats) : Option (DictValue floats) :=
  match value with
  | ⟨.obj fields, h⟩ => some ⟨fields, h⟩
  | _ => none

def asStrings (value : JsonValue floats) : Option (List PyStr) :=
  value.asList.bind fun items => items.mapM asStr

def asDicts (value : JsonValue floats) : Option (List (DictValue floats)) :=
  value.asList.bind fun items => items.mapM asDict

@[simp] theorem asList_list (items : List (JsonValue floats)) : (list items).asList = some items := by
  show some _ = some items
  congr 1
  apply List.ext_getElem <;> simp

@[simp] theorem asStr_str (s : PyStr) : (str s : JsonValue floats).asStr = some s := rfl

@[simp] theorem asInt_int (n : ℤ) : (int n : JsonValue floats).asInt = some n := rfl

@[simp] theorem asDict_dict (fields : DictValue floats) : (dict fields).asDict = some fields := rfl

@[simp] theorem asFloat_float (literal : PyStr) (h : floats.isRepr literal = true) :
    (float literal h).asFloat = some literal := rfl

theorem mapM_map_some {α β γ : Type} {f : α → β} {g : β → Option γ} {k : α → γ}
    (h : ∀ a, g (f a) = some (k a)) (l : List α) : (l.map f).mapM g = some (l.map k) := by
  induction l with
  | nil => rfl
  | cons a l ih =>
    rw [List.map_cons, List.mapM_cons, h, ih]
    rfl

@[simp] theorem asStrings_list (texts : List PyStr) :
    (list (texts.map str) : JsonValue floats).asStrings = some texts := by
  rw [asStrings, asList_list, Option.bind_some, mapM_map_some asStr_str, List.map_id']

@[simp] theorem asDicts_list (dicts : List (DictValue floats)) :
    (list (dicts.map dict)).asDicts = some dicts := by
  rw [asDicts, asList_list, Option.bind_some, mapM_map_some asDict_dict, List.map_id']

end JsonValue

namespace DictValue

/-- A dictionary from its items, whose keys differ. -/
def ofFields (fields : List (PyStr × JsonValue floats)) (nodup : (fields.map (·.1)).Nodup) :
    DictValue floats :=
  ⟨(fields.map fun field => (field.1, field.2.val)).mergeSort fieldLE, by
    refine ordered_obj_iff.mpr ⟨sortedKeys_mergeSort ?_, fun field mem => ?_⟩
    · rwa [List.map_map]
    · obtain ⟨pair, -, rfl⟩ := List.mem_map.mp ((List.mergeSort_perm _ _).mem_iff.mp mem)
      exact pair.2.property⟩

/-- `set(d) == keys` -/
def keysAre (d : DictValue floats) (keys : List PyStr) : Bool := d.val.keysAre keys

/-- `d.get(key)`, when the key is there. -/
def get? (d : DictValue floats) (key : PyStr) : Option (JsonValue floats) :=
  match h : d.val.find? fun field => field.1 = key with
  | some field =>
    some ⟨field.2, (ordered_obj_iff.mp d.property).2 field (List.mem_of_find?_eq_some h)⟩
  | none => none

/-- `d.get(key)` -/
def get (d : DictValue floats) (key : PyStr) : JsonValue floats := (d.get? key).getD .null

variable {fields : List (PyStr × JsonValue floats)} {nodup : (fields.map (·.1)).Nodup}

theorem mem_ofFields {field : PyStr × Json} :
    field ∈ (ofFields fields nodup).val ↔ ∃ pair ∈ fields, (pair.1, pair.2.val) = field := by
  rw [ofFields, (List.mergeSort_perm _ _).mem_iff, List.mem_map]

theorem get?_ofFields {key : PyStr} {value : JsonValue floats} (h : (key, value) ∈ fields) :
    (ofFields fields nodup).get? key = some value := by
  unfold get?
  split
  next field found =>
    obtain ⟨pair, mem, rfl⟩ := mem_ofFields.mp (List.mem_of_find?_eq_some found)
    have same : pair.1 = key := by simpa using List.find?_some found
    obtain rfl : pair = (key, value) := List.inj_on_of_nodup_map nodup mem h same
    rfl
  next missing =>
    have absent := List.find?_eq_none.mp missing (key, value.val) (mem_ofFields.mpr ⟨_, h, rfl⟩)
    exact absurd (decide_eq_true rfl) absent

theorem get?_ofFields_none {key : PyStr} (h : key ∉ fields.map (·.1)) :
    (ofFields fields nodup).get? key = none := by
  unfold get?
  split
  next field found =>
    obtain ⟨pair, mem, rfl⟩ := mem_ofFields.mp (List.mem_of_find?_eq_some found)
    have same : pair.1 = key := by simpa using List.find?_some found
    exact absurd (List.mem_map.mpr ⟨pair, mem, same⟩) h
  next => rfl

/-- `set(d) == keys`, of the keys that the items give. -/
theorem keysAre_ofFields (keys : List PyStr) :
    (ofFields fields nodup).keysAre keys =
      ((fields.map (·.1)).all (· ∈ keys) && keys.all (· ∈ fields.map (·.1))) := by
  have within : (ofFields fields nodup).val.keysWithin keys =
      (fields.map (·.1)).all (· ∈ keys) := by
    rw [Bool.eq_iff_iff]
    simp only [Dict.keysWithin, List.all_eq_true, mem_ofFields, decide_eq_true_eq, List.mem_map,
      forall_exists_index, and_imp]
    constructor
    · rintro h _ pair mem rfl
      exact h _ pair mem rfl
    · rintro h _ pair mem rfl
      exact h _ pair mem rfl
  have has : ∀ key, (ofFields fields nodup).val.has key = decide (key ∈ fields.map (·.1)) := by
    intro key
    rw [Bool.eq_iff_iff]
    simp only [Dict.has, Dict.get?, Option.isSome_map, List.find?_isSome, mem_ofFields,
      decide_eq_true_eq, List.mem_map]
    constructor
    · rintro ⟨_, ⟨pair, mem, rfl⟩, rfl⟩
      exact ⟨pair, mem, rfl⟩
    · rintro ⟨pair, mem, rfl⟩
      exact ⟨_, ⟨pair, mem, rfl⟩, rfl⟩
  rw [keysAre, Dict.keysAre, within]
  congr 1
  exact List.all_congr rfl has

end DictValue

end CodexFlow.Capsule
