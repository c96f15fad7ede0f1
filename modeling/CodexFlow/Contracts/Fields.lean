import CodexFlow.Ipc.Sizes
import CodexFlow.Lib.Built

/-!
# Fields of the wire contracts

A contract is written as an object whose keys are those of its fields that are there, and read back
key by key. The keys of a contract are an enumeration, so that a set of keys is a list of them.
-/

namespace CodexFlow.Contracts

open Hook (CodePoint PyStr lit codePoint isSurrogate)
open Git (nul strip isSpace)
open Capsule (Floats JsonValue DictValue StrEnum Checked Identifier expect intToken intText isIdentifier
  printable byteLength expect_eq_ok texts textBytes fieldBytes readable_of_strictLoads)
open Ipc (canonicalBytes canonicalBytes_iff decodeUtf8 encodable encodable_obj encodable_ofFields
  separated_le strictLoadsBytes textBytes_ofFields
  strictLoadsBytes_canonicalBytes ordered_of_strictLoadsBytes)
open Checked

variable {floats : Floats}

/-! ### Records -/

/-- The keys of a contract, each listed once. -/
class RecordKeys (ι : Type) extends StrEnum ι where
  nodup : all.Nodup

section Records

variable {ι : Type} [RecordKeys ι]

theorem mem_all (key : ι) : key ∈ StrEnum.all := List.mem_of_find?_eq_some (StrEnum.find_value key)

theorem value_injective : Function.Injective (StrEnum.value : ι → PyStr) := by
  intro a b same
  have ha := StrEnum.find_value a
  rw [same, StrEnum.find_value b] at ha
  exact (Option.some.inj ha).symm

def items (field : ι → Option (JsonValue floats)) : List (PyStr × JsonValue floats) :=
  StrEnum.all.filterMap fun key => (field key).map fun value => (StrEnum.value key, value)

theorem mem_items {field : ι → Option (JsonValue floats)} {item : PyStr × JsonValue floats} :
    item ∈ items field ↔ ∃ key, field key = some item.2 ∧ StrEnum.value key = item.1 := by
  rw [items, List.mem_filterMap]
  constructor
  · rintro ⟨key, -, h⟩
    obtain ⟨value, hvalue, rfl⟩ := Option.map_eq_some_iff.1 h
    exact ⟨key, hvalue, rfl⟩
  · rintro ⟨key, hvalue, hkey⟩
    exact ⟨key, mem_all key, by rw [hvalue, Option.map_some, hkey]⟩

theorem mem_items_keys {field : ι → Option (JsonValue floats)} {name : PyStr} :
    name ∈ (items field).map (·.1) ↔ ∃ key, (field key).isSome ∧ StrEnum.value key = name := by
  rw [List.mem_map]
  constructor
  · rintro ⟨item, hitem, rfl⟩
    obtain ⟨key, hvalue, hkey⟩ := mem_items.1 hitem
    exact ⟨key, by rw [hvalue]; rfl, hkey⟩
  · rintro ⟨key, hsome, rfl⟩
    obtain ⟨value, hvalue⟩ := Option.isSome_iff_exists.1 hsome
    exact ⟨(_, value), mem_items.2 ⟨key, hvalue, rfl⟩, rfl⟩

theorem items_nodup (field : ι → Option (JsonValue floats)) :
    ((items field).map (·.1)).Nodup := by
  rw [items, List.map_filterMap]
  refine List.Nodup.filterMap ?_ RecordKeys.nodup
  intro a b name ha hb
  simp only [Option.map_map, Option.mem_def, Option.map_eq_some_iff, Function.comp_apply] at ha hb
  obtain ⟨-, -, ha⟩ := ha
  obtain ⟨-, -, hb⟩ := hb
  exact value_injective (ha.trans hb.symm)

/-- The object of the fields that are there. -/
def record (field : ι → Option (JsonValue floats)) : DictValue floats :=
  .ofFields (items field) (items_nodup field)

/-- `d.get(key)` -/
def at_ (d : DictValue floats) (key : ι) : JsonValue floats := d.get (StrEnum.value key)

/-- `set(d) == keys` -/
def hasKeys (d : DictValue floats) (keys : List ι) : Bool := d.keysAre (keys.map StrEnum.value)

theorem get?_record (field : ι → Option (JsonValue floats)) (key : ι) :
    (record field).get? (StrEnum.value key) = field key := by
  unfold record
  cases h : field key with
  | none =>
    refine DictValue.get?_ofFields_none fun hmem => ?_
    obtain ⟨other, hsome, hsame⟩ := mem_items_keys.1 hmem
    rw [value_injective hsame, h] at hsome
    cases hsome
  | some value => exact DictValue.get?_ofFields (mem_items.2 ⟨key, h, rfl⟩)

@[simp] theorem at_record (field : ι → Option (JsonValue floats)) (key : ι) :
    at_ (record field) key = (field key).getD .null := by
  unfold at_ DictValue.get
  rw [get?_record]

theorem hasKeys_record (field : ι → Option (JsonValue floats)) (keys : List ι) :
    hasKeys (record field) keys = true ↔ ∀ key, (field key).isSome ↔ key ∈ keys := by
  unfold hasKeys record
  rw [DictValue.keysAre_ofFields, Bool.and_eq_true, List.all_eq_true, List.all_eq_true]
  simp only [decide_eq_true_eq, mem_items_keys]
  simp only [List.mem_map]
  constructor
  · rintro ⟨hwithin, hall⟩ key
    constructor
    · intro hsome
      obtain ⟨other, hmem, hsame⟩ := hwithin _ ⟨key, hsome, rfl⟩
      exact value_injective hsame ▸ hmem
    · intro hmem
      obtain ⟨other, hsome, hsame⟩ := hall _ ⟨key, hmem, rfl⟩
      exact value_injective hsame ▸ hsome
  · intro h
    constructor
    · rintro _ ⟨key, hsome, rfl⟩
      exact ⟨key, (h key).1 hsome, rfl⟩
    · rintro _ ⟨key, hmem, rfl⟩
      exact ⟨key, (h key).2 hmem, rfl⟩

theorem get?_of_hasKeys {d : DictValue floats} {keys : List ι} (h : hasKeys d keys = true) {key : ι}
    (hkey : key ∉ keys) : d.get? (StrEnum.value key) = none := by
  unfold hasKeys DictValue.keysAre Hook.Dict.keysAre at h
  have hwithin := List.all_eq_true.1 (Bool.and_eq_true_iff.1 h).1
  unfold DictValue.get?
  split
  · rename_i field found
    have hname : field.1 = StrEnum.value key := by simpa using List.find?_some found
    have hmem := hwithin field (List.mem_of_find?_eq_some found)
    rw [hname, decide_eq_true_eq, List.mem_map] at hmem
    obtain ⟨other, hother, hsame⟩ := hmem
    exact absurd (value_injective hsame ▸ hother) hkey
  · rfl

end Records

/-- A value that may be missing. -/
def optional {α : Type} (read : JsonValue floats → Option α) (value : JsonValue floats)
    (error : String) : Checked (Option α) :=
  if value.isNull then pure none else (expect (read value) error).map some

theorem optional_map {α β : Type} (read : JsonValue floats → Option α) (write : β → JsonValue floats)
    (f : β → α) (h : ∀ b, (write b).isNull = false ∧ read (write b) = some (f b)) (field : Option β)
    (error : String) : optional read ((field.map write).getD .null) error = .ok (field.map f) := by
  unfold optional
  cases field with
  | none => rfl
  | some b =>
    rw [Option.map_some, Option.getD_some, (h b).1, (h b).2]
    rfl

theorem optional_getD {α : Type} (read : JsonValue floats → Option α) (write : α → JsonValue floats)
    (h : ∀ a, (write a).isNull = false ∧ read (write a) = some a) (field : Option α)
    (error : String) : optional read ((field.map write).getD .null) error = .ok field := by
  rw [optional_map read write id h, Option.map_id, id]

theorem mem_of_optional {ι α : Type} [RecordKeys ι] {d : DictValue floats} {keys : List ι}
    (h : hasKeys d keys = true) {key : ι} {read : JsonValue floats → Option α} {error : String}
    {field : Option α} (hread : optional read (at_ d key) error = .ok field)
    (hsome : field.isSome = true) : key ∈ keys := by
  by_contra hkey
  unfold at_ DictValue.get at hread
  rw [get?_of_hasKeys h hkey] at hread
  cases hread
  cases hsome

/-- The values of a field that may be missing are read back one by one. -/
theorem mapM_map_self {α β : Type} {write : α → β} {read : β → Checked α}
    (h : ∀ a, read (write a) = .ok a) (field : Option α) :
    (field.map write).mapM read = .ok field := by
  cases field with
  | none => rfl
  | some a =>
    show (read (write a)).map some = _
    rw [h]
    rfl

@[simp] theorem optional_str (field : Option PyStr) (error : String) :
    optional JsonValue.asStr ((field.map .str).getD (.null : JsonValue floats)) error = .ok field :=
  optional_getD JsonValue.asStr JsonValue.str (fun _ => ⟨rfl, rfl⟩) field error

@[simp] theorem optional_int (field : Option ℤ) (error : String) :
    optional JsonValue.asInt ((field.map .int).getD (.null : JsonValue floats)) error = .ok field :=
  optional_getD JsonValue.asInt JsonValue.int (fun _ => ⟨rfl, rfl⟩) field error

theorem isSome_of_mapM {α β : Type} {read : α → Checked β} {field : Option α} {values : Option β}
    (h : field.mapM read = .ok values) (hsome : values.isSome = true) : field.isSome = true := by
  cases field with
  | none =>
    cases h
    exact hsome
  | some a => rfl

/-- A list of texts, which is written where it is not empty. -/
def writeTexts (values : List PyStr) : Option (JsonValue floats) :=
  if values = [] then none else some (texts values)

def readTexts {ι : Type} [RecordKeys ι] (d : DictValue floats) (key : ι) (error : String) :
    Checked (List PyStr) :=
  expect ((d.get? (StrEnum.value key)).getD (.list [])).asStrings error

theorem readTexts_record {ι : Type} [RecordKeys ι] {field : ι → Option (JsonValue floats)} {key : ι}
    {values : List PyStr} (h : field key = writeTexts values) (error : String) :
    readTexts (record field) key error = .ok values := by
  have hstrings : ((writeTexts values).getD (.list [] : JsonValue floats)).asStrings =
      some values := by
    unfold writeTexts
    split_ifs with hempty
    · rw [hempty]
      rfl
    · exact JsonValue.asStrings_list values
  unfold readTexts
  rw [get?_record, h, hstrings]
  rfl

theorem mem_of_readTexts {ι : Type} [RecordKeys ι] {d : DictValue floats} {keys : List ι}
    (h : hasKeys d keys = true) {key : ι} {error : String} {values : List PyStr}
    (hread : readTexts d key error = .ok values) (hsome : values ≠ []) : key ∈ keys := by
  by_contra hkey
  unfold readTexts at hread
  rw [get?_of_hasKeys h hkey] at hread
  cases hread
  exact hsome rfl

/-- `tuple(sorted(values))` -/
def sorted (values : List PyStr) : List PyStr := values.mergeSort Hook.keyLE

@[simp] theorem length_sorted (values : List PyStr) : (sorted values).length = values.length :=
  List.length_mergeSort values

@[simp] theorem mem_sorted {values : List PyStr} {text : PyStr} :
    text ∈ sorted values ↔ text ∈ values := List.mem_mergeSort

@[simp] theorem nodup_sorted {values : List PyStr} : (sorted values).Nodup ↔ values.Nodup :=
  (List.mergeSort_perm values Hook.keyLE).nodup_iff

@[simp] theorem sorted_sorted (values : List PyStr) : sorted (sorted values) = sorted values :=
  List.mergeSort_of_pairwise (List.pairwise_mergeSort Capsule.keyLE_trans Capsule.keyLE_total values)

@[simp] theorem sorted_eq_nil {values : List PyStr} : sorted values = [] ↔ values = [] := by
  rw [← List.length_eq_zero_iff, length_sorted, List.length_eq_zero_iff]

/-! ### Bytes -/

def writeObject (d : DictValue floats) : Checked (List UInt8) :=
  expect (canonicalBytes (.obj d.val)) "JSON text cannot be encoded"

def readObject (floats : Floats) (limit : ℕ) (raw : List UInt8) (error : String) :
    Checked (DictValue floats) :=
  match h : strictLoadsBytes floats limit raw with
  | none => .error "JSON is not valid interoperable data"
  | some (.obj fields) => .ok ⟨fields, ordered_of_strictLoadsBytes h⟩
  | some _ => .error error

theorem readObject_writeObject {d : DictValue floats} {raw : List UInt8} {limit : ℕ}
    (h : writeObject d = .ok raw) (hlength : raw.length ≤ limit) (error : String) :
    readObject floats limit raw error = .ok d := by
  have hbytes := strictLoadsBytes_canonicalBytes (expect_eq_ok.1 h) hlength
  unfold readObject
  split
  · rename_i hnone
    rw [hbytes] at hnone
    cases hnone
  · rename_i fields hsome
    rw [hbytes] at hsome
    cases hsome
    rfl
  · rename_i other hsome
    rw [hbytes] at hsome
    cases hsome
    exact absurd rfl (other _)

/-- An object that is read was written in UTF-8, and can be written again. -/
theorem readObject_eq_ok {limit : ℕ} {raw : List UInt8} {error : String} {d : DictValue floats}
    (h : readObject floats limit raw error = .ok d) :
    (∃ text, decodeUtf8 raw = some text) ∧ encodable (.obj d.val) = true := by
  unfold readObject at h
  split at h
  · cases h
  · rename_i fields hload
    cases h
    unfold strictLoadsBytes at hload
    split_ifs at hload
    obtain ⟨text, htext, hload⟩ := Option.bind_eq_some_iff.1 hload
    have hreadable := readable_of_strictLoads hload
    exact ⟨⟨text, htext⟩, by rw [encodable, hreadable.printable, hreadable.interoperable]; rfl⟩
  · cases h

section Records

variable {ι : Type} [RecordKeys ι] {field : ι → Option (JsonValue floats)}

/-- A value of an object that can be written can be written. -/
theorem encodable_at {d : DictValue floats} (h : encodable (.obj d.val) = true) (key : ι) :
    encodable (at_ d key).val = true := by
  unfold at_ DictValue.get DictValue.get?
  split
  · rename_i field found
    exact ((encodable_obj d.val).1 h field (List.mem_of_find?_eq_some found)).2
  · rfl

theorem encodable_record :
    encodable (.obj (record field).val) = true ↔ ∀ key value, field key = some value →
      (StrEnum.value key).any isSurrogate = false ∧ encodable value.val = true := by
  unfold record
  rw [encodable_ofFields]
  constructor
  · intro h key value hvalue
    exact h (StrEnum.value key, value) (mem_items.2 ⟨key, hvalue, rfl⟩)
  · intro h item hmem
    obtain ⟨key, hvalue, hkey⟩ := mem_items.1 hmem
    exact hkey ▸ h key item.2 hvalue

theorem textBytes_record_le {most : ℕ} (h : ∀ key value, field key = some value →
      fieldBytes (StrEnum.value key, value.val) ≤ most) :
    textBytes (.obj (record field).val) ≤ 2 + (StrEnum.all : List ι).length * (most + 1) := by
  unfold record
  rw [textBytes_ofFields]
  have hsizes : ∀ size ∈ (items field).map fun item => fieldBytes (item.1, item.2.val),
      size ≤ most := by
    intro size hmem
    obtain ⟨item, hitem, rfl⟩ := List.mem_map.1 hmem
    obtain ⟨key, hvalue, hkey⟩ := mem_items.1 hitem
    exact hkey ▸ h key item.2 hvalue
  have hle := separated_le hsizes
  have hlength : (items field).length ≤ (StrEnum.all : List ι).length :=
    List.length_filterMap_le _ _
  rw [List.length_map] at hle
  have hmul := Nat.mul_le_mul_right (most + 1) hlength
  omega

end Records

/-- When an object is written, and how many bytes it takes. -/
theorem writeObject_eq_ok {d : DictValue floats} {raw : List UInt8} :
    writeObject d = .ok raw ↔ encodable (.obj d.val) = true ∧
      Hook.encodeSurrogatePass (Capsule.text (.obj d.val)) = raw := by
  unfold writeObject
  rw [expect_eq_ok, canonicalBytes_iff d.property]

theorem writeObject_of_encodable {d : DictValue floats} (h : encodable (.obj d.val) = true) :
    ∃ raw, writeObject d = .ok raw ∧ raw.length = textBytes (.obj d.val) :=
  ⟨_, writeObject_eq_ok.2 ⟨h, rfl⟩, rfl⟩

/-! ### Texts and identities -/

/-- `_MAX_TEXT` -/
def maxText : ℕ := 16384

def asBool (value : JsonValue floats) : Option Bool :=
  match value.val with
  | .bool b => some b
  | _ => none

/-- What `_text` admits. -/
def isText (limit : ℕ) (text : PyStr) : Bool :=
  strip text ≠ [] && text.length ≤ limit && nul ∉ text

/-- `_text` -/
def checkText (text : PyStr) (label : String) (limit : ℕ) : Checked Unit :=
  ensure (isText limit text) (label ++ " must be a bounded non-empty string")

/-- `_text`, of a field that may be missing. -/
def checkOptionalText (field : Option PyStr) (label : String) (limit : ℕ) : Checked Unit :=
  ensure (field.all (isText limit)) (label ++ " must be a bounded non-empty string")

@[simp] theorem checkText_eq_ok {text : PyStr} {label : String} {limit : ℕ} {u : Unit} :
    checkText text label limit = .ok u ↔ isText limit text = true := ensure_eq_ok

@[simp] theorem checkOptionalText_eq_ok {field : Option PyStr} {label : String} {limit : ℕ}
    {u : Unit} : checkOptionalText field label limit = .ok u ↔ field.all (isText limit) = true :=
  ensure_eq_ok

/-- What `Generation` admits: its text is within the limit of the conversion. -/
def Generation.Valid (n : ℤ) : Prop := printable (.int n) = true ∧ 1 ≤ n

instance (n : ℤ) : Decidable (Generation.Valid n) := by
  unfold Generation.Valid
  infer_instance

abbrev Generation := { n : ℤ // Generation.Valid n }

namespace Generation

/-- `Generation(n)` -/
def new (n : ℤ) : Checked Generation :=
  if h : Valid n then .ok ⟨n, h⟩ else .error "generation must be a positive integer"

@[simp] theorem new_val (n : Generation) : new n.val = .ok n := dif_pos n.property

/-- `Generation(text)`: what `int` reads and `str` writes otherwise is refused, so that only the
texts of integers in JSON count. -/
def ofText (text : PyStr) : Checked Generation := do
  let n ← expect (intToken text) "generation must be a positive integer"
  ensure (intText n = text) "generation must be a canonical integer"
  new n

/-- `Generation(value)` -/
def ofJson (value : JsonValue floats) : Checked Generation :=
  match value.val with
  | .int n => new n
  | .str text => ofText text
  | _ => .error "generation must be a positive integer"

end Generation

def slash : CodePoint := codePoint '/'

/-- `<run>/<milestone>/<role>/<generation>` -/
def isDispatchId (text : PyStr) : Bool :=
  match text.splitOn slash with
  | [run, milestone, role, generation] =>
    isIdentifier 127 run && isIdentifier 127 milestone && isIdentifier 127 role &&
      (Generation.ofText generation).toOption.isSome
  | _ => false

abbrev DispatchId := { text : PyStr // isDispatchId text = true }

/-- `DispatchId(text)` -/
def DispatchId.new (text : PyStr) : Checked DispatchId :=
  if h : isDispatchId text = true then .ok ⟨text, h⟩
  else .error "dispatch id must be <run>/<milestone>/<role>/<generation>"

@[simp] theorem DispatchId.new_val (id : DispatchId) : DispatchId.new id.val = .ok id :=
  dif_pos id.property

/-- What `ControllerDecisionId` admits. -/
def isControllerDecisionId (text : PyStr) : Bool :=
  (lit "decision/").isPrefixOf text && !text.any isSurrogate && byteLength text ≤ 512 &&
    !text.any fun c => isSpace c || c.val < 0x20

abbrev ControllerDecisionId := { text : PyStr // isControllerDecisionId text = true }

/-- `ControllerDecisionId(text)` -/
def ControllerDecisionId.new (text : PyStr) : Checked ControllerDecisionId :=
  if h : isControllerDecisionId text = true then .ok ⟨text, h⟩
  else .error "controller decision id is invalid"

@[simp] theorem ControllerDecisionId.new_val (id : ControllerDecisionId) :
    ControllerDecisionId.new id.val = .ok id := dif_pos id.property

end CodexFlow.Contracts
