import Keymasq.Foundation.Incremental
import Keymasq.Foundation.Utf8
import Mathlib.Algebra.Group.Nat.Defs
import Mathlib.Data.List.Forall2

/-!
# Messages on the Wayland socket

A message is a header of two words with its payload behind it: the object, and the size of the
whole together with the opcode. A string is its length with the terminator, its bytes and zeros
up to the next word. The client takes the messages off the front of its buffer as they complete.
-/

namespace Keymasq.Wayland.ClientTransport
open Foundation Utf8 Incremental

/-- What is raised. -/
inductive WireError
  | structError
  | unicodeEncodeError
  | runtimeError (message : String)
  deriving DecidableEq

def wordBytes (value : ℕ) : List UInt8 :=
  [UInt8.ofNat value, UInt8.ofNat (value / 0x100), UInt8.ofNat (value / 0x10000),
    UInt8.ofNat (value / 0x1000000)]

/- `struct.pack("<I", int(value))`. -/
def packUint (value : ℕ) : Except WireError (List UInt8) :=
  if value < 2 ^ 32 then .ok (wordBytes value) else .error .structError

/- `struct.unpack_from("<I", payload, offset)`. -/
def unpackUint (payload : List UInt8) (offset : ℕ) : Except WireError ℕ :=
  match payload.drop offset with
  | b₀ :: b₁ :: b₂ :: b₃ :: _ =>
    .ok (b₀.toNat + b₁.toNat * 0x100 + b₂.toNat * 0x10000 + b₃.toNat * 0x1000000)
  | _ => .error .structError

/- `(size + 3) & ~3`. -/
def padded (size : ℕ) : ℕ := (size + 3) / 4 * 4

def encodeString (value : Text) : Except WireError (List UInt8) :=
  match encode value with
  | none => .error .unicodeEncodeError
  | some bytes =>
    let encoded := bytes ++ [0]
    let size := encoded.length
    match packUint size with
    | .error e => .error e
    | .ok header => .ok (header ++ encoded ++ List.replicate (padded size - size) 0)

/- One zero at the end is taken off. -/
def unterminated (raw : List UInt8) : List UInt8 :=
  if raw.getLast? = some 0 then raw.dropLast else raw

def decodeString (payload : List UInt8) (offset : ℕ) : Except WireError (Text × ℕ) :=
  match unpackUint payload offset with
  | .error e => .error e
  | .ok size =>
    let cursor := offset + 4
    if size = 0 then .ok ([], cursor)
    else
      let raw := (payload.drop cursor).take size
      .ok (decode (unterminated raw), cursor + padded size)

structure WaylandMessage where
  objectId : ℕ
  opcode : ℕ
  payload : List UInt8

def buildRequest (objectId opcode : ℕ) (payload : List UInt8) : Except WireError (List UInt8) :=
  let size := 8 + payload.length
  match packUint objectId, packUint (((size &&& 0xFFFF) <<< 16) ||| (opcode &&& 0xFFFF)) with
  | .ok object, .ok sizeOpcode => .ok (object ++ sizeOpcode ++ payload)
  | _, _ => .error .structError

def invalidMessageSize : String := "invalid Wayland message size"

/- `none` leaves the buffer as it is. -/
def popMessage : Pop WaylandMessage UInt8 WireError := fun buffer =>
  if buffer.length < 8 then .ok none
  else
    match unpackUint buffer 0, unpackUint buffer 4 with
    | .ok objectId, .ok sizeOpcode =>
      let size := sizeOpcode >>> 16
      let opcode := sizeOpcode &&& 0xFFFF
      if size < 8 then .error (.runtimeError invalidMessageSize)
      else if buffer.length < size then .ok none
      else .ok (some (⟨objectId, opcode, (buffer.take size).drop 8⟩, buffer.drop size))
    | .error e, _ => .error e
    | _, .error e => .error e

/-! ## Words -/

theorem unpackUint_wordBytes {value : ℕ} (h : value < 2 ^ 32) (before rest : List UInt8) :
    unpackUint (before ++ wordBytes value ++ rest) before.length = .ok value := by
  unfold unpackUint wordBytes
  rw [List.append_assoc, List.drop_left]
  dsimp only [List.cons_append, List.nil_append]
  rw [UInt8.toNat_ofNat', UInt8.toNat_ofNat', UInt8.toNat_ofNat', UInt8.toNat_ofNat']
  congr 1
  omega

theorem unpackUint_append {payload : List UInt8} {offset word : ℕ}
    (h : unpackUint payload offset = .ok word) (data : List UInt8) :
    unpackUint (payload ++ data) offset = .ok word := by
  unfold unpackUint at h ⊢
  split at h
  case h_2 => cases h
  case h_1 b₀ b₁ b₂ b₃ rest hdrop =>
    have hle : offset ≤ payload.length := by
      by_contra hlt
      rw [List.drop_eq_nil_of_le (by omega)] at hdrop
      cases hdrop
    rw [List.drop_append_of_le_length hle, hdrop]
    exact h

theorem exists_unpackUint {payload : List UInt8} {offset : ℕ} (h : offset + 4 ≤ payload.length) :
    ∃ word, unpackUint payload offset = .ok word := by
  have hlength : (payload.drop offset).length = payload.length - offset := List.length_drop
  unfold unpackUint
  split
  case h_1 => exact ⟨_, rfl⟩
  case h_2 hshort =>
    rcases hdrop : payload.drop offset with _ | ⟨b₀, _ | ⟨b₁, _ | ⟨b₂, _ | ⟨b₃, rest⟩⟩⟩⟩
    case cons.cons.cons.cons => exact absurd hdrop (hshort b₀ b₁ b₂ b₃ rest)
    all_goals
      rw [hdrop] at hlength
      simp only [List.length_cons, List.length_nil] at hlength
      omega

theorem sizeOpcode_eq {size opcode : ℕ} (hsize : size < 2 ^ 16) (hopcode : opcode < 2 ^ 16) :
    ((size &&& 0xFFFF) <<< 16) ||| (opcode &&& 0xFFFF) = size * 2 ^ 16 + opcode := by
  have hmask : ∀ n : ℕ, n &&& 0xFFFF = n % 2 ^ 16 := fun n => Nat.and_two_pow_sub_one_eq_mod n 16
  rw [hmask, hmask, Nat.mod_eq_of_lt hsize, Nat.mod_eq_of_lt hopcode,
    ← Nat.shiftLeft_add_eq_or_of_lt hopcode, Nat.shiftLeft_eq]

/-! ## Messages -/

/-- A message that the header has room for. -/
structure WaylandMessage.Sendable (message : WaylandMessage) : Prop where
  object : message.objectId < 2 ^ 32
  opcode : message.opcode < 2 ^ 16
  payload : message.payload.length ≤ 65527

def WaylandMessage.build (message : WaylandMessage) : Except WireError (List UInt8) :=
  buildRequest message.objectId message.opcode message.payload

def WaylandMessage.frame (message : WaylandMessage) : List UInt8 :=
  wordBytes message.objectId ++
    wordBytes ((8 + message.payload.length) * 2 ^ 16 + message.opcode) ++ message.payload

theorem length_frame (message : WaylandMessage) :
    message.frame.length = 8 + message.payload.length := by
  unfold WaylandMessage.frame wordBytes
  simp only [List.length_append, List.length_cons, List.length_nil]

theorem build_eq {message : WaylandMessage} (h : message.Sendable) :
    message.build = .ok message.frame := by
  have hpayload := h.payload
  have hopcode := h.opcode
  unfold WaylandMessage.build buildRequest packUint
  dsimp only
  rw [sizeOpcode_eq (by omega) hopcode, if_pos h.object, if_pos (by omega)]
  rfl

/-- The message that is at the front of the buffer is taken. -/
theorem popMessage_frame {message : WaylandMessage} (h : message.Sendable) (rest : List UInt8) :
    popMessage (message.frame ++ rest) = .ok (some (message, rest)) := by
  have hpayload := h.payload
  have hopcode := h.opcode
  have hlength := length_frame message
  have hobject : unpackUint (message.frame ++ rest) 0 = .ok message.objectId := by
    unfold WaylandMessage.frame
    rw [List.append_assoc, List.append_assoc]
    exact unpackUint_wordBytes h.object [] _
  have hword : unpackUint (message.frame ++ rest) 4 =
      .ok ((8 + message.payload.length) * 2 ^ 16 + message.opcode) := by
    unfold WaylandMessage.frame
    rw [List.append_assoc]
    exact unpackUint_wordBytes (by omega) (wordBytes message.objectId) _
  have hsize : ((8 + message.payload.length) * 2 ^ 16 + message.opcode) >>> 16 =
      8 + message.payload.length := by
    rw [Nat.shiftRight_eq_div_pow]
    omega
  have hmask : ((8 + message.payload.length) * 2 ^ 16 + message.opcode) &&& 0xFFFF =
      message.opcode := by
    rw [show (0xFFFF : ℕ) = 2 ^ 16 - 1 from rfl, Nat.and_two_pow_sub_one_eq_mod]
    omega
  have hheader : (wordBytes message.objectId ++
      wordBytes ((8 + message.payload.length) * 2 ^ 16 + message.opcode)).length = 8 := rfl
  unfold popMessage
  rw [hobject, hword]
  dsimp only
  rw [hsize, hmask, if_neg (by rw [List.length_append]; omega), if_neg (by omega),
    if_neg (by rw [List.length_append]; omega), List.take_left' hlength, List.drop_left' hlength]
  unfold WaylandMessage.frame
  rw [List.drop_left' hheader]

variable {buffer : List UInt8}

/-- A whole header is there: it says what is taken. -/
theorem popMessage_header (h : 8 ≤ buffer.length) :
    ∃ objectId word, unpackUint buffer 0 = .ok objectId ∧ unpackUint buffer 4 = .ok word ∧
      popMessage buffer =
        if word >>> 16 < 8 then .error (.runtimeError invalidMessageSize)
        else if buffer.length < word >>> 16 then .ok none
        else .ok (some (⟨objectId, word &&& 0xFFFF, (buffer.take (word >>> 16)).drop 8⟩,
          buffer.drop (word >>> 16))) := by
  obtain ⟨objectId, hobject⟩ : ∃ word, unpackUint buffer 0 = .ok word :=
    exists_unpackUint (by omega)
  obtain ⟨word, hword⟩ : ∃ word, unpackUint buffer 4 = .ok word := exists_unpackUint (by omega)
  refine ⟨objectId, word, hobject, hword, ?_⟩
  unfold popMessage
  rw [if_neg (by omega), hobject, hword]

theorem popMessage_short (h : buffer.length < 8) : popMessage buffer = .ok none := by
  unfold popMessage
  rw [if_pos h]

/-- The header stays as it is when data is put behind the buffer. -/
theorem popMessage_append (h : 8 ≤ buffer.length) (data : List UInt8) :
    ∃ objectId word, unpackUint buffer 4 = .ok word ∧
      popMessage buffer =
        (if word >>> 16 < 8 then .error (.runtimeError invalidMessageSize)
        else if buffer.length < word >>> 16 then .ok none
        else .ok (some (⟨objectId, word &&& 0xFFFF, (buffer.take (word >>> 16)).drop 8⟩,
          buffer.drop (word >>> 16)))) ∧
      popMessage (buffer ++ data) =
        (if word >>> 16 < 8 then .error (.runtimeError invalidMessageSize)
        else if (buffer ++ data).length < word >>> 16 then .ok none
        else .ok (some (⟨objectId, word &&& 0xFFFF, ((buffer ++ data).take (word >>> 16)).drop 8⟩,
          (buffer ++ data).drop (word >>> 16)))) := by
  have hlonger : 8 ≤ (buffer ++ data).length := by
    rw [List.length_append]
    omega
  obtain ⟨objectId, word, hobject, hword, hpop⟩ := popMessage_header h
  obtain ⟨objectId', word', hobject', hword', hpop'⟩ := popMessage_header hlonger
  obtain rfl : objectId = objectId' :=
    Except.ok.inj ((unpackUint_append hobject data).symm.trans hobject')
  obtain rfl : word = word' := Except.ok.inj ((unpackUint_append hword data).symm.trans hword')
  exact ⟨objectId, word, hword, hpop, hpop'⟩

/-- What is taken does not depend on the data behind it. -/
theorem popMessage_prefixed : Prefixed popMessage where
  shorter := by
    intro buffer message rest h
    rcases Nat.lt_or_ge buffer.length 8 with hshort | hlong
    · rw [popMessage_short hshort] at h
      cases h
    obtain ⟨objectId, word, -, -, hpop⟩ := popMessage_header hlong
    rw [hpop] at h
    split at h
    case isTrue => cases h
    case isFalse hsize =>
      split at h
      case isTrue => cases h
      case isFalse hcomplete =>
        cases h
        rw [List.length_drop]
        omega
  message := by
    intro buffer message rest h data
    rcases Nat.lt_or_ge buffer.length 8 with hshort | hlong
    · rw [popMessage_short hshort] at h
      cases h
    obtain ⟨objectId, word, -, hpop, hpop'⟩ := popMessage_append hlong data
    rw [hpop] at h
    rw [hpop']
    split at h
    case isTrue => cases h
    case isFalse hsize =>
      split at h
      case isTrue => cases h
      case isFalse hcomplete =>
        cases h
        rw [if_neg hsize, if_neg (by rw [List.length_append]; omega),
          List.take_append_of_le_length (by omega), List.drop_append_of_le_length (by omega)]
  error := by
    intro buffer e h data
    rcases Nat.lt_or_ge buffer.length 8 with hshort | hlong
    · rw [popMessage_short hshort] at h
      cases h
    obtain ⟨objectId, word, -, hpop, hpop'⟩ := popMessage_append hlong data
    rw [hpop] at h
    rw [hpop']
    split at h
    case isTrue hsize =>
      rw [if_pos hsize]
      exact h
    case isFalse hsize =>
      split at h
      case isTrue => cases h
      case isFalse => cases h

/-! ## Strings -/

theorem padded_ge (size : ℕ) : size ≤ padded size := by
  unfold padded
  omega

theorem unterminated_terminated (bytes : List UInt8) : unterminated (bytes ++ [0]) = bytes := by
  unfold unterminated
  rw [if_pos List.getLast?_concat, List.dropLast_concat]

/-- What stands for a string, where it can be written. -/
theorem encodeString_eq {value : Text} {bytes : List UInt8} (h : encodeString value = .ok bytes) :
    ∃ encoded, encode value = some encoded ∧ encoded.length + 1 < 2 ^ 32 ∧
      bytes = wordBytes (encoded.length + 1) ++ (encoded ++ [0]) ++
        List.replicate (padded (encoded.length + 1) - (encoded.length + 1)) 0 := by
  unfold encodeString at h
  split at h
  case h_1 => cases h
  case h_2 encoded hencode =>
    unfold packUint at h
    dsimp only at h
    rw [List.length_append, List.length_singleton] at h
    refine ⟨encoded, hencode, ?_⟩
    by_cases hsize : encoded.length + 1 < 2 ^ 32
    · rw [if_pos hsize] at h
      exact ⟨hsize, (Except.ok.inj h).symm⟩
    · rw [if_neg hsize] at h
      cases h

/-- A string can be written where it has no surrogate and is not too long for its length. -/
theorem encodeString_ok (value : Text) :
    (∃ bytes, encodeString value = .ok bytes) ↔
      (∀ c ∈ value, isSurrogate c = false) ∧
        (value.flatMap encodePoint).length + 1 < 2 ^ 32 := by
  have hany : value.any isSurrogate = false ↔ ∀ c ∈ value, isSurrogate c = false := by
    rw [List.any_eq_false]
    exact forall₂_congr fun c _ => Iff.of_eq (Bool.not_eq_true _)
  rw [← hany]
  constructor
  · intro hok
    obtain ⟨bytes, hbytes⟩ := hok
    obtain ⟨encoded, hencode, hsize, -⟩ := encodeString_eq hbytes
    unfold encode at hencode
    split at hencode
    case isTrue => cases hencode
    case isFalse hnone =>
      cases hencode
      exact ⟨Bool.eq_false_iff.mpr hnone, hsize⟩
  · intro hvalue
    unfold encodeString encode packUint
    rw [hvalue.1, if_neg Bool.false_ne_true]
    dsimp only
    rw [List.length_append, List.length_singleton, if_pos hvalue.2]
    exact ⟨_, rfl⟩

theorem decodeString_encodeString {value : Text} {bytes : List UInt8}
    (h : encodeString value = .ok bytes) (before rest : List UInt8) :
    decodeString (before ++ bytes ++ rest) before.length =
      .ok (value, before.length + bytes.length) := by
  obtain ⟨encoded, hencode, hsize, rfl⟩ := encodeString_eq h
  have hpadded := padded_ge (encoded.length + 1)
  have hheader : (before ++ wordBytes (encoded.length + 1)).length = before.length + 4 := by
    rw [List.length_append]
    rfl
  have hterminated : (encoded ++ [0]).length = encoded.length + 1 := by
    rw [List.length_append, List.length_singleton]
  have hbytes : before ++ (wordBytes (encoded.length + 1) ++ (encoded ++ [0]) ++
      List.replicate (padded (encoded.length + 1) - (encoded.length + 1)) 0) ++ rest =
        before ++ wordBytes (encoded.length + 1) ++ ((encoded ++ [0]) ++
          (List.replicate (padded (encoded.length + 1) - (encoded.length + 1)) 0 ++ rest)) := by
    simp only [List.append_assoc]
  unfold decodeString
  rw [hbytes, unpackUint_wordBytes hsize]
  dsimp only
  rw [if_neg (Nat.succ_ne_zero _), List.drop_left' hheader, List.take_left' hterminated,
    unterminated_terminated, decode_encode hencode]
  congr 2
  rw [List.length_append, List.length_append, hterminated, List.length_replicate]
  change before.length + 4 + padded (encoded.length + 1) = before.length + (4 + _ + _)
  omega

/-! ## Streams -/

/-- There is no whole message in the buffer yet. -/
def Wanting (buffer : List UInt8) : Prop :=
  buffer.length < 8 ∨
    ∃ word, unpackUint buffer 4 = .ok word ∧ 8 ≤ word >>> 16 ∧ buffer.length < word >>> 16

/-- The size in the header is less than the header. -/
def Undersized (buffer : List UInt8) : Prop :=
  8 ≤ buffer.length ∧ ∃ word, unpackUint buffer 4 = .ok word ∧ word >>> 16 < 8

theorem wanting_of_none (h : popMessage buffer = .ok none) : Wanting buffer := by
  rcases Nat.lt_or_ge buffer.length 8 with hshort | hlong
  · exact .inl hshort
  obtain ⟨objectId, word, -, hword, hpop⟩ := popMessage_header hlong
  rw [hpop] at h
  split at h
  case isTrue => cases h
  case isFalse hsize =>
    split at h
    case isTrue hmore => exact .inr ⟨word, hword, Nat.le_of_not_lt hsize, hmore⟩
    case isFalse => cases h

theorem undersized_of_error {e : WireError} (h : popMessage buffer = .error e) :
    e = .runtimeError invalidMessageSize ∧ Undersized buffer := by
  rcases Nat.lt_or_ge buffer.length 8 with hshort | hlong
  · rw [popMessage_short hshort] at h
    cases h
  obtain ⟨objectId, word, -, hword, hpop⟩ := popMessage_header hlong
  rw [hpop] at h
  split at h
  case isTrue hsize =>
    cases h
    exact ⟨rfl, hlong, word, hword, hsize⟩
  case isFalse =>
    split at h
    case isTrue => cases h
    case isFalse => cases h

theorem mapM_build {messages : List WaylandMessage} (h : ∀ m ∈ messages, m.Sendable) :
    messages.mapM WaylandMessage.build = .ok (messages.map WaylandMessage.frame) := by
  induction messages with
  | nil => rfl
  | cons message messages ih =>
    rw [List.mapM_cons, build_eq (h message List.mem_cons_self),
      ih fun m hm => h m (List.mem_cons_of_mem message hm)]
    rfl

/-- The frames one after the other are drained to the messages. -/
theorem drains_frames {messages : List WaylandMessage} (h : ∀ m ∈ messages, m.Sendable) :
    Drains popMessage (messages.map WaylandMessage.frame).flatten messages [] none := by
  induction messages with
  | nil => exact .wanting rfl
  | cons message messages ih =>
    rw [List.map_cons, List.flatten_cons]
    exact .message (popMessage_frame (h message List.mem_cons_self) _)
      (ih fun m hm => h m (List.mem_cons_of_mem message hm))

/-- What is sent arrives however it is cut, no bytes keep the client from coming to an end, and
what `encode_string` writes is read back where it stands. -/
theorem wire_round_trip :
    (∀ messages : List WaylandMessage, (∀ m ∈ messages, m.Sendable) →
      ∃ frames, messages.mapM WaylandMessage.build = .ok frames ∧
        ∀ reads attempts, reads.flatten = frames.flatten → reads.flatten.length < attempts →
          receive popMessage attempts {} reads = some { messages := messages }) ∧
    (∀ reads attempts, reads.flatten.length < attempts →
      ∃ s, receive popMessage attempts {} reads = some s ∧
        (s.raised = none ∧ Wanting s.buffer ∨
          s.raised = some (.runtimeError invalidMessageSize) ∧ Undersized s.buffer)) ∧
    (∀ (value : Text) (bytes before rest : List UInt8), encodeString value = .ok bytes →
      decodeString (before ++ bytes ++ rest) before.length =
        .ok (value, before.length + bytes.length)) ∧
    ∀ value : Text, (∃ bytes, encodeString value = .ok bytes) ↔
      (∀ c ∈ value, isSurrogate c = false) ∧
        (value.flatMap encodePoint).length + 1 < 2 ^ 32 := by
  refine ⟨?_, ?_, fun value bytes before rest h => decodeString_encodeString h before rest,
    encodeString_ok⟩
  · intro messages hsendable
    refine ⟨messages.map WaylandMessage.frame, mapM_build hsendable, ?_⟩
    intro reads attempts hreads hattempts
    have hdrains := drains_frames hsendable
    rw [← hreads, ← List.nil_append reads.flatten] at hdrains
    obtain ⟨left, unread, hreceive, hleft, -, -⟩ :=
      receive_eq popMessage_prefixed reads rfl hattempts [] hdrains
    obtain rfl := (List.append_eq_nil_iff.mp hleft).1
    exact hreceive
  · intro reads attempts hattempts
    obtain ⟨messages, tail, raised, hdrains, -⟩ :=
      exists_drains popMessage_prefixed ([] ++ reads.flatten)
    obtain ⟨left, unread, hreceive, -, -, hended⟩ :=
      receive_eq popMessage_prefixed reads rfl hattempts [] hdrains
    refine ⟨_, hreceive, ?_⟩
    cases raised with
    | none => exact .inl ⟨rfl, wanting_of_none hended⟩
    | some e =>
      obtain ⟨rfl, hsmall⟩ := undersized_of_error hended
      exact .inr ⟨rfl, hsmall⟩

/- The second piece completes the message. -/
theorem wire_round_trip_split :
    (∃ frames, [WaylandMessage.mk 11 4 [7, 8, 9]].mapM WaylandMessage.build = .ok frames ∧
      receive popMessage 12 {} [[11, 0, 0, 0, 4], [0, 11, 0, 7, 8, 9]] =
        some { messages := [⟨11, 4, [7, 8, 9]⟩] }) ∧
    decodeString ([1] ++ [3, 0, 0, 0, 104, 105, 0, 0] ++ [5]) 1 = .ok ([104, 105], 9) := by
  obtain ⟨hframes, -, hstring, -⟩ := wire_round_trip
  have hsendable : ∀ m ∈ [WaylandMessage.mk 11 4 [7, 8, 9]], m.Sendable := by
    intro m hm
    obtain rfl := List.mem_singleton.mp hm
    exact ⟨by decide, by decide, by decide⟩
  obtain ⟨frames, hbuild, hreceive⟩ := hframes _ hsendable
  obtain rfl : [[11, 0, 0, 0, 4, 0, 11, 0, 7, 8, 9]] = frames := Except.ok.inj hbuild
  have hencode : encodeString [104, 105] = .ok [3, 0, 0, 0, 104, 105, 0, 0] := by decide
  exact ⟨⟨_, hbuild, hreceive _ 12 rfl (by decide)⟩, hstring _ _ [1] [5] hencode⟩

/-- A string with a surrogate is not written: what raises has nothing to read back. -/
theorem not_wire_round_trip :
    ¬∀ (value : Text) (rest : List UInt8), ∃ bytes, encodeString value = .ok bytes ∧
      decodeString (bytes ++ rest) 0 = .ok (value, bytes.length) := by
  intro h
  obtain ⟨bytes, hbytes, -⟩ := h [0xD800] []
  have hraises : encodeString [0xD800] = .error .unicodeEncodeError := rfl
  rw [hraises] at hbytes
  cases hbytes

end Keymasq.Wayland.ClientTransport
