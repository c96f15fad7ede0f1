import CodexFlow.Capsule.Persistence
import CodexFlow.Ipc.Utf8
import CodexFlow.Lib.Checked
import CodexFlow.Lib.Raising

/-!
# Frames

A frame is the canonical encoding of an object behind its length. A connection is the list of the
chunks that `recv` returns; what is written as frames is read back however it was cut.
-/

namespace CodexFlow.Ipc

open Hook (PyStr Json Dict lit encodeSurrogatePass)
open Capsule (Floats DictValue text printable strictLoads openBrace)
open Raising

inductive IpcReasonCode where
  | requestNotJson
  | responseNotJson
  | frameOversized
  | responseTooLarge
deriving DecidableEq

structure IpcError where
  message : String
  reasonCode : Option IpcReasonCode := none
deriving DecidableEq

def maxFrameBytes : ℕ := 65536

def headerSize : ℕ := 4

/-- `struct.Struct("!I").pack(n)` -/
def packHeader (n : ℕ) : List UInt8 :=
  [.ofNat (n / 16777216), .ofNat (n / 65536 % 256), .ofNat (n / 256 % 256), .ofNat (n % 256)]

/-- `struct.Struct("!I").unpack(header)` -/
def unpackHeader (header : List UInt8) : ℕ := header.foldl (fun n b => n * 256 + b.toNat) 0

/-! ### Writing -/

/-- The canonical encoding of a value: an integer beyond the limit or a lone surrogate raises. -/
def canonicalBytes (value : Json) : Option (List UInt8) :=
  if printable value then encodeUtf8 (text value) else none

/-- `encode_frame` -/
def encodeFrame (fields : Dict) : Except IpcError (List UInt8) :=
  match canonicalBytes (.obj fields) with
  | none => .error ⟨"IPC request is not strict JSON", some .requestNotJson⟩
  | some payload =>
    if payload = [] ∨ maxFrameBytes < payload.length then
      .error ⟨"IPC frame exceeds the bounded payload limit", some .frameOversized⟩
    else .ok (packHeader payload.length ++ payload)

/-! ### Reading -/

/-- The chunks that `recv` will return, each as far as it is asked for. -/
abbrev Chunks := List (List UInt8)

def closed : IpcError := { message := "IPC peer closed a fragmented frame" }

/-- The loop of `recv_exact`: an empty chunk says that the peer has closed. -/
def recvLoop : ℕ → Chunks → Except IpcError (List UInt8) × Chunks
  | 0, chunks => (.ok [], chunks)
  | _ + 1, [] => (.error closed, [])
  | remaining + 1, chunk :: rest =>
    if chunk = [] then (.error closed, rest)
    else if chunk.length ≤ remaining + 1 then
      let (more, rest) := recvLoop (remaining + 1 - chunk.length) rest
      (more.map (chunk ++ ·), rest)
    else (.ok (chunk.take (remaining + 1)), chunk.drop (remaining + 1) :: rest)

/-- `recv_exact` -/
def recvExact (size : ℕ) : Raising Chunks IpcError (List UInt8) :=
  if maxFrameBytes + headerSize < size then
    throw ⟨"IPC frame length is invalid", some .frameOversized⟩
  else ExceptT.mk fun chunks => recvLoop size chunks

def byteOrderMarks : List (List UInt8) :=
  [[0xEF, 0xBB, 0xBF], [0xFF, 0xFE], [0xFE, 0xFF], [0xFF, 0xFE, 0, 0], [0, 0, 0xFE, 0xFF]]

/-- `strict_json_loads(raw, max_bytes=maxBytes)`, of bytes: `none` raises. -/
def strictLoadsBytes (floats : Floats) (maxBytes : ℕ) (raw : List UInt8) : Option Json :=
  if raw.length ≤ maxBytes ∧ ¬ byteOrderMarks.any (·.isPrefixOf raw) then
    (decodeUtf8 raw).bind (strictLoads floats maxBytes)
  else none

/-- What `decode_frame` makes of the bytes behind the header. -/
def decodePayload (floats : Floats) (raw : List UInt8) : Except IpcError Dict :=
  match strictLoadsBytes floats maxFrameBytes raw with
  | none => .error ⟨"IPC frame is not strict UTF-8 JSON", some .responseNotJson⟩
  | some (.obj fields) => .ok fields
  | some _ => .error { message := "IPC frame root must be an object" }

/-- `decode_frame` -/
def decodeFrame (floats : Floats) : Raising Chunks IpcError Dict := do
  let header ← recvExact headerSize
  let size := unpackHeader header
  if size = 0 ∨ maxFrameBytes < size then
    throw ⟨"IPC frame exceeds the bounded payload limit", some .frameOversized⟩
  else do
    let raw ← recvExact size
    Raising.lift (decodePayload floats raw)

/-- `decode_frame`, so many times. -/
def decodeFrames (floats : Floats) : ℕ → Raising Chunks IpcError (List Dict)
  | 0 => pure []
  | n + 1 => do
    let fields ← decodeFrame floats
    let more ← decodeFrames floats n
    pure (fields :: more)

/-! ### What is received -/

variable {floats : Floats}

/-- What is there to read is read, and no byte more. -/
theorem recvLoop_ok : ∀ {chunks : Chunks} {wanted more : List UInt8},
    [] ∉ chunks → chunks.flatten = wanted ++ more →
    ∃ rest, recvLoop wanted.length chunks = (.ok wanted, rest) ∧ [] ∉ rest ∧ rest.flatten = more
  | chunks, [], more, hfull, hsplit => by
    refine ⟨chunks, ?_, hfull, hsplit⟩
    cases chunks <;> rfl
  | [], b :: wanted, more, _, hsplit => nomatch hsplit
  | chunk :: chunks, b :: wanted, more, hfull, hsplit => by
    have hne : chunk ≠ [] := fun h => hfull (h ▸ List.mem_cons_self)
    have hrest : [] ∉ chunks := fun h => hfull (List.mem_cons_of_mem _ h)
    rw [List.flatten_cons] at hsplit
    show ∃ rest, recvLoop (wanted.length + 1) (chunk :: chunks) = _ ∧ _
    unfold recvLoop
    rw [if_neg hne]
    by_cases hshort : chunk.length ≤ wanted.length + 1
    · rw [if_pos hshort]
      -- the chunk is the front of what is wanted, and the loop goes on with the rest
      obtain ⟨tail, htail⟩ := List.prefix_of_prefix_length_le ⟨chunks.flatten, hsplit⟩
        (List.prefix_append (b :: wanted) more) hshort
      rw [← htail, List.append_assoc] at hsplit
      obtain ⟨rest, hread, hfull', hmore⟩ := recvLoop_ok hrest (List.append_cancel_left hsplit)
      have hlength : wanted.length + 1 - chunk.length = tail.length := by
        rw [← List.length_cons (a := b), ← htail, List.length_append, Nat.add_sub_cancel_left]
      refine ⟨rest, ?_, hfull', hmore⟩
      rw [hlength, hread, ← htail]
      rfl
    · rw [if_neg hshort]
      have htake : chunk.take (wanted.length + 1) = b :: wanted := by
        have h := congrArg (List.take (wanted.length + 1)) hsplit
        rw [List.take_append_of_le_length (by omega)] at h
        rw [h]
        exact List.take_left' rfl
      have hdrop : chunk.drop (wanted.length + 1) ++ chunks.flatten = more := by
        have h := congrArg (List.drop (wanted.length + 1)) hsplit
        rw [List.drop_append_of_le_length (by omega)] at h
        rw [h]
        exact List.drop_left' rfl
      refine ⟨chunk.drop (wanted.length + 1) :: chunks, by rw [htake], ?_, hdrop⟩
      rintro hmem
      obtain hempty | hmem := List.mem_cons.1 hmem
      · have hlength := congrArg List.length hempty
        rw [List.length_drop, List.length_nil] at hlength
        omega
      · exact hrest hmem

/-- The loop takes bytes from the front, at most as many as it is asked for, and returns exactly as
many when it returns. -/
theorem recvLoop_consumes : ∀ (chunks : Chunks) (size : ℕ),
    ∃ read, chunks.flatten = read ++ (recvLoop size chunks).2.flatten ∧ read.length ≤ size ∧
      ∀ got, (recvLoop size chunks).1 = .ok got → got = read ∧ read.length = size
  | chunks, 0 => by
    have hloop : recvLoop 0 chunks = (.ok [], chunks) := by cases chunks <;> rfl
    rw [hloop]
    exact ⟨[], rfl, Nat.le_refl 0, fun got h => ⟨(Except.ok.inj h).symm, rfl⟩⟩
  | [], size + 1 => ⟨[], rfl, Nat.zero_le _, nofun⟩
  | chunk :: chunks, size + 1 => by
    unfold recvLoop
    split_ifs with hempty hshort
    · exact ⟨[], by rw [hempty]; rfl, Nat.zero_le _, nofun⟩
    · obtain ⟨read, hsplit, hlength, hgot⟩ := recvLoop_consumes chunks (size + 1 - chunk.length)
      refine ⟨chunk ++ read, ?_, ?_, fun got h => ?_⟩
      · rw [List.flatten_cons, hsplit, List.append_assoc]
      · rw [List.length_append]
        omega
      · obtain ⟨more, hmore, rfl⟩ := Checked.map_eq_ok.1 h
        obtain ⟨rfl, hsize⟩ := hgot more hmore
        rw [List.length_append, hsize]
        exact ⟨rfl, by omega⟩
    · refine ⟨chunk.take (size + 1), ?_, List.length_take_le _ _, fun got h => ?_⟩
      · rw [List.flatten_cons, List.flatten_cons, ← List.append_assoc, List.take_append_drop]
      · rw [List.length_take]
        exact ⟨(Except.ok.inj h).symm, by omega⟩

theorem ends_recvExact {size : ℕ} (h : size ≤ maxFrameBytes + headerSize) {chunks : Chunks}
    {Q : Except IpcError (List UInt8) → Chunks → Prop} :
    Ends (recvExact size) chunks Q ↔ Q (recvLoop size chunks).1 (recvLoop size chunks).2 := by
  unfold recvExact
  rw [if_neg (Nat.not_lt.2 h)]
  rfl

/-- The bytes of a frame that is there are received, and nothing behind it. -/
theorem recvExact_ok {chunks : Chunks} {wanted more : List UInt8}
    (h : wanted.length ≤ maxFrameBytes + headerSize) (hfull : [] ∉ chunks)
    (hsplit : chunks.flatten = wanted ++ more) :
    Ends (recvExact wanted.length) chunks fun result rest =>
      result = .ok wanted ∧ [] ∉ rest ∧ rest.flatten = more := by
  rw [ends_recvExact h]
  obtain ⟨rest, hread, hrest⟩ := recvLoop_ok hfull hsplit
  rw [hread]
  exact ⟨rfl, hrest⟩

/-! ### What is written is read back -/

theorem unpackHeader_packHeader {n : ℕ} (h : n ≤ maxFrameBytes) :
    unpackHeader (packHeader n) = n := by
  unfold maxFrameBytes at h
  simp only [unpackHeader, packHeader, List.foldl_cons, List.foldl_nil, UInt8.toNat_ofNat']
  omega

theorem text_obj (fields : Dict) : ∃ tail, text (.obj fields) = openBrace :: tail := by
  rw [text]
  exact ⟨_, rfl⟩

theorem canonicalBytes_eq_some {value : Json} {payload : List UInt8}
    (h : canonicalBytes value = some payload) :
    printable value = true ∧ encodeUtf8 (text value) = some payload := by
  unfold canonicalBytes at h
  split_ifs at h with hprintable
  exact ⟨hprintable, h⟩

/-- A dictionary is read back from its canonical encoding by a reader whose limit it is within. -/
theorem strictLoadsBytes_canonicalBytes {d : DictValue floats} {payload : List UInt8} {limit : ℕ}
    (h : canonicalBytes (.obj d.val) = some payload) (hlength : payload.length ≤ limit) :
    strictLoadsBytes floats limit payload = some (.obj d.val) := by
  obtain ⟨hprintable, hencode⟩ := canonicalBytes_eq_some h
  have hdecode := decodeUtf8_encodeUtf8 hencode
  unfold encodeUtf8 at hencode
  split_ifs at hencode with hclean
  have hpayload := Option.some.inj hencode
  have hinteroperable : Capsule.interoperable (.obj d.val) = true := by
    rw [Capsule.any_text _ d.property] at hclean
    simpa using hclean
  have hread := Capsule.strictLoads_text ⟨d.property, hprintable, hinteroperable⟩ (.inl rfl) limit
  rw [List.append_nil, Capsule.byteLength, hpayload, if_pos hlength] at hread
  have hmark : ¬ byteOrderMarks.any (·.isPrefixOf payload) = true := by
    obtain ⟨tail, htail⟩ := text_obj d.val
    rw [← hpayload, htail]
    show ¬ byteOrderMarks.any (·.isPrefixOf (0x7B :: encodeSurrogatePass tail)) = true
    simp [byteOrderMarks, List.isPrefixOf]
  unfold strictLoadsBytes
  rw [if_pos ⟨hlength, hmark⟩, hdecode, Option.bind_some, hread]

theorem ordered_of_strictLoadsBytes {limit : ℕ} {raw : List UInt8} {value : Json}
    (h : strictLoadsBytes floats limit raw = some value) : Capsule.ordered floats value = true := by
  unfold strictLoadsBytes at h
  split_ifs at h
  obtain ⟨text, -, hread⟩ := Option.bind_eq_some_iff.1 h
  exact Capsule.ordered_of_strictLoads hread

/-- A dictionary that has a canonical encoding within the limit is read back from it. -/
theorem decodePayload_canonicalBytes {d : DictValue floats} {payload : List UInt8}
    (h : canonicalBytes (.obj d.val) = some payload) (hlength : payload.length ≤ maxFrameBytes) :
    decodePayload floats payload = .ok d.val := by
  unfold decodePayload
  rw [strictLoadsBytes_canonicalBytes h hlength]

theorem canonicalBytes_ne_nil {fields : Dict} {payload : List UInt8}
    (h : canonicalBytes (.obj fields) = some payload) : payload ≠ [] := by
  obtain ⟨-, hencode⟩ := canonicalBytes_eq_some h
  unfold encodeUtf8 at hencode
  split_ifs at hencode
  obtain ⟨tail, htail⟩ := text_obj fields
  rw [← Option.some.inj hencode, htail]
  exact fun hnil => utf8Bytes_ne_nil _ (List.append_eq_nil_iff.1 hnil).1

def Fits (d : DictValue floats) : Prop :=
  ∃ payload, canonicalBytes (.obj d.val) = some payload ∧ payload.length ≤ maxFrameBytes

theorem encodeFrame_ok {d : DictValue floats} {payload : List UInt8}
    (h : canonicalBytes (.obj d.val) = some payload) (hlength : payload.length ≤ maxFrameBytes) :
    encodeFrame d.val = .ok (packHeader payload.length ++ payload) := by
  unfold encodeFrame
  rw [h]
  exact if_neg (not_or.2 ⟨canonicalBytes_ne_nil h, Nat.not_lt.2 hlength⟩)

/-- One frame in front of the stream is read, and the stream goes on behind it. -/
theorem decodeFrame_encodeFrame {d : DictValue floats} (h : Fits d) :
    ∃ frame, encodeFrame d.val = .ok frame ∧ ∀ (chunks : Chunks) (more : List UInt8),
      [] ∉ chunks → chunks.flatten = frame ++ more →
      Ends (decodeFrame floats) chunks fun result rest =>
        result = .ok d.val ∧ [] ∉ rest ∧ rest.flatten = more := by
  obtain ⟨payload, hpayload, hlength⟩ := h
  refine ⟨_, encodeFrame_ok hpayload hlength, fun chunks more hfull hsplit => ?_⟩
  rw [List.append_assoc] at hsplit
  unfold decodeFrame
  rw [ends_bind]
  have hheader : (packHeader payload.length).length ≤ maxFrameBytes + headerSize :=
    Nat.le_add_left _ _
  refine (recvExact_ok hheader hfull hsplit).mono ?_
  rintro _ chunks' ⟨rfl, hfull', hsplit'⟩
  have hpositive := List.length_pos_of_ne_nil (canonicalBytes_ne_nil hpayload)
  rw [followed_ok, unpackHeader_packHeader hlength, if_neg (by omega), ends_bind]
  refine (recvExact_ok (Nat.le_add_right_of_le hlength) hfull' hsplit').mono ?_
  rintro _ rest ⟨rfl, hrest⟩
  rw [followed_ok, ends_lift, decodePayload_canonicalBytes hpayload hlength]
  exact ⟨rfl, hrest⟩

/-- The frames of a list of dictionaries in front of a stream are read in order. -/
theorem decodeFrames_encodeFrames : ∀ {values : List (DictValue floats)},
    (∀ d ∈ values, Fits d) →
    ∃ frames, values.mapM (fun d => encodeFrame d.val) = .ok frames ∧
      ∀ (chunks : Chunks) (more : List UInt8), [] ∉ chunks →
        chunks.flatten = frames.flatten ++ more →
        Ends (decodeFrames floats values.length) chunks fun result rest =>
          result = .ok (values.map (·.val)) ∧ [] ∉ rest ∧ rest.flatten = more
  | [], _ => ⟨[], rfl, fun _ _ hfull hsplit => ⟨rfl, hfull, hsplit⟩⟩
  | d :: values, h => by
    obtain ⟨frame, hframe, hfirst⟩ := decodeFrame_encodeFrame (h d List.mem_cons_self)
    obtain ⟨frames, hframes, hrest⟩ := decodeFrames_encodeFrames fun d hd =>
      h d (List.mem_cons_of_mem _ hd)
    refine ⟨frame :: frames, ?_, fun chunks more hfull hsplit => ?_⟩
    · rw [List.mapM_cons, hframe, Checked.ok_bind, hframes]
      rfl
    · rw [List.flatten_cons, List.append_assoc] at hsplit
      show Ends (decodeFrames floats (values.length + 1)) chunks _
      unfold decodeFrames
      rw [ends_bind]
      refine (hfirst chunks _ hfull hsplit).mono ?_
      rintro _ chunks' ⟨rfl, hfull', hsplit'⟩
      rw [followed_ok, ends_bind]
      refine (hrest chunks' more hfull' hsplit').mono ?_
      rintro _ rest ⟨rfl, hend⟩
      exact ⟨rfl, hend⟩

/-- The bytes of a stream up to the end of the frame that its header announces. -/
def announced (stream : List UInt8) : ℕ :=
  headerSize + if stream.length < headerSize then 0 else unpackHeader (stream.take headerSize)

/-- However its bytes are cut, a frame is never read beyond its announced end. -/
theorem decodeFrame_consumes (floats : Floats) (chunks : Chunks) :
    Ends (decodeFrame floats) chunks fun _ rest =>
      ∃ read, chunks.flatten = read ++ rest.flatten ∧ read.length ≤ announced chunks.flatten := by
  obtain ⟨header, hsplit, hlength, hgot⟩ := recvLoop_consumes chunks headerSize
  have hannounced : headerSize ≤ announced chunks.flatten := Nat.le_add_right _ _
  unfold decodeFrame
  rw [ends_bind, ends_recvExact (Nat.le_add_left _ _)]
  cases hheader : (recvLoop headerSize chunks).1 with
  | error e => exact ⟨header, hsplit, hlength.trans hannounced⟩
  | ok got =>
    obtain ⟨rfl, hsize⟩ := hgot got hheader
    rw [followed_ok, ends_ite]
    refine ⟨fun _ => ⟨got, hsplit, hlength.trans hannounced⟩, fun hfits => ?_⟩
    rw [ends_bind, ends_recvExact (by omega)]
    obtain ⟨payload, hsplit', hlength', -⟩ :=
      recvLoop_consumes (recvLoop headerSize chunks).2 (unpackHeader got)
    have hread : ∃ read, chunks.flatten = read ++
        (recvLoop (unpackHeader got) (recvLoop headerSize chunks).2).2.flatten ∧
          read.length ≤ announced chunks.flatten := by
      refine ⟨got ++ payload, by rw [hsplit, hsplit', List.append_assoc], ?_⟩
      have htake : chunks.flatten.take headerSize = got := by rw [hsplit, List.take_left' hsize]
      have hlong : ¬ chunks.flatten.length < headerSize := by
        rw [hsplit, List.length_append]
        omega
      rw [announced, if_neg hlong, htake, List.length_append]
      omega
    cases (recvLoop (unpackHeader got) (recvLoop headerSize chunks).2).1 with
    | error e => exact hread
    | ok raw =>
      rw [followed_ok, ends_lift]
      exact hread

def sampleRequest : DictValue Capsule.Host.sample.floats := ⟨[(lit "version", .int 1)], rfl⟩

def sampleFrame : List UInt8 :=
  packHeader 13 ++ encodeSurrogatePass (text (.obj sampleRequest.val))

end CodexFlow.Ipc
