import Mathlib.Data.Nat.Notation

/-!
# Text as UTF-8

A text is a list of code points, surrogates included. Writing refuses a surrogate. Reading
takes any bytes: where a sequence breaks off, what there was of it is one replacement character
and the byte that broke it is read anew.
-/

namespace Foundation.Utf8

abbrev CodePoint := Fin 0x110000
abbrev Text := List CodePoint

def isSurrogate (c : CodePoint) : Bool := 0xD800 ≤ c.val && c.val ≤ 0xDFFF

/-! ## Writing -/

def encodePoint (c : CodePoint) : List UInt8 :=
  if c.val < 0x80 then [UInt8.ofNat c.val]
  else if c.val < 0x800 then
    [UInt8.ofNat (0xC0 + c.val / 0x40), UInt8.ofNat (0x80 + c.val % 0x40)]
  else if c.val < 0x10000 then
    [UInt8.ofNat (0xE0 + c.val / 0x1000), UInt8.ofNat (0x80 + c.val / 0x40 % 0x40),
      UInt8.ofNat (0x80 + c.val % 0x40)]
  else
    [UInt8.ofNat (0xF0 + c.val / 0x40000), UInt8.ofNat (0x80 + c.val / 0x1000 % 0x40),
      UInt8.ofNat (0x80 + c.val / 0x40 % 0x40), UInt8.ofNat (0x80 + c.val % 0x40)]

/- `text.encode("utf-8")`, `none` where it raises. -/
def encode (text : Text) : Option (List UInt8) :=
  if text.any isSurrogate then none else some (text.flatMap encodePoint)

/-! ## Reading -/

/-- A sequence that has begun: the bits so far, how many bytes are missing and between which
bounds the next one lies. -/
structure Pending where
  bits : ℕ
  missing : ℕ
  low : ℕ
  high : ℕ

def replacement : CodePoint := 0xFFFD

/- The bounds of the second byte rule out long forms, surrogates and what lies behind the last
code point. -/
def first (byte : UInt8) : Text × Option Pending :=
  let b := byte.toNat
  if b < 0x80 then ([Fin.ofNat 0x110000 b], none)
  else if b < 0xC2 then ([replacement], none)
  else if b < 0xE0 then ([], some ⟨b - 0xC0, 1, 0x80, 0xBF⟩)
  else if b < 0xF0 then
    ([], some ⟨b - 0xE0, 2, if b = 0xE0 then 0xA0 else 0x80, if b = 0xED then 0x9F else 0xBF⟩)
  else if b < 0xF5 then
    ([], some ⟨b - 0xF0, 3, if b = 0xF0 then 0x90 else 0x80, if b = 0xF4 then 0x8F else 0xBF⟩)
  else ([replacement], none)

def next (pending : Pending) (byte : UInt8) : Text × Option Pending :=
  let b := byte.toNat
  if pending.low ≤ b ∧ b ≤ pending.high then
    let bits := pending.bits * 0x40 + (b - 0x80)
    if pending.missing ≤ 1 then ([Fin.ofNat 0x110000 bits], none)
    else ([], some ⟨bits, pending.missing - 1, 0x80, 0xBF⟩)
  else
    let (points, begun) := first byte
    (replacement :: points, begun)

/- `bytes.decode("utf-8", errors="replace")`. -/
def decodeFrom : Option Pending → List UInt8 → Text
  | none, [] => []
  | some _, [] => [replacement]
  | none, byte :: bytes => (first byte).1 ++ decodeFrom (first byte).2 bytes
  | some pending, byte :: bytes =>
    (next pending byte).1 ++ decodeFrom (next pending byte).2 bytes

def decode (bytes : List UInt8) : Text := decodeFrom none bytes

/-! ## What is written is read back -/

theorem toNat_ofNat {n : ℕ} (h : n < 0x100) : (UInt8.ofNat n).toNat = n := by
  rw [UInt8.toNat_ofNat']
  exact Nat.mod_eq_of_lt h

theorem ofNat_val (c : CodePoint) {n : ℕ} (h : n = c.val) : Fin.ofNat 0x110000 n = c := by
  subst h
  exact Fin.ext (Nat.mod_eq_of_lt c.isLt)

/- A sequence begins. -/
theorem decode_begin {byte : UInt8} {pending : Pending} (h : first byte = ([], some pending))
    (bytes : List UInt8) : decode (byte :: bytes) = decodeFrom (some pending) bytes := by
  unfold decode
  rw [decodeFrom, h]
  rfl

/- It goes on with a byte that is not its last. -/
theorem decodeFrom_more {bits missing low high tail : ℕ} (hmissing : 1 < missing)
    (htail : tail < 0x40) (hlow : low ≤ 0x80 + tail) (hhigh : 0x80 + tail ≤ high)
    (bytes : List UInt8) :
    decodeFrom (some ⟨bits, missing, low, high⟩) (UInt8.ofNat (0x80 + tail) :: bytes) =
      decodeFrom (some ⟨bits * 0x40 + tail, missing - 1, 0x80, 0xBF⟩) bytes := by
  have hnext : next ⟨bits, missing, low, high⟩ (UInt8.ofNat (0x80 + tail)) =
      ([], some ⟨bits * 0x40 + tail, missing - 1, 0x80, 0xBF⟩) := by
    unfold next
    dsimp only
    rw [toNat_ofNat (by omega), if_pos ⟨hlow, hhigh⟩, if_neg (by omega), Nat.add_sub_cancel_left]
  rw [decodeFrom, hnext]
  rfl

/- It ends, and the bits are those of a code point. -/
theorem decodeFrom_last (c : CodePoint) {bits low high tail : ℕ} (htail : tail < 0x40)
    (hlow : low ≤ 0x80 + tail) (hhigh : 0x80 + tail ≤ high) (hbits : bits * 0x40 + tail = c.val)
    (bytes : List UInt8) :
    decodeFrom (some ⟨bits, 1, low, high⟩) (UInt8.ofNat (0x80 + tail) :: bytes) =
      c :: decode bytes := by
  have hnext : next ⟨bits, 1, low, high⟩ (UInt8.ofNat (0x80 + tail)) = ([c], none) := by
    unfold next
    dsimp only
    rw [toNat_ofNat (by omega), if_pos ⟨hlow, hhigh⟩, if_pos (Nat.le_refl 1), Nat.add_sub_cancel_left,
      ofNat_val c hbits]
  rw [decodeFrom, hnext]
  rfl

theorem decode_one {c : CodePoint} (h : c.val < 0x80) (rest : List UInt8) :
    decode (UInt8.ofNat c.val :: rest) = c :: decode rest := by
  have hfirst : first (UInt8.ofNat c.val) = ([c], none) := by
    unfold first
    dsimp only
    rw [toNat_ofNat (by omega), if_pos h, ofNat_val c rfl]
  unfold decode
  rw [decodeFrom, hfirst]
  rfl

theorem first_two {lead : ℕ} (hlong : 2 ≤ lead) (hlast : lead < 0x20) :
    first (UInt8.ofNat (0xC0 + lead)) = ([], some ⟨lead, 1, 0x80, 0xBF⟩) := by
  unfold first
  dsimp only
  rw [toNat_ofNat (by omega), if_neg (by omega), if_neg (by omega), if_pos (by omega),
    Nat.add_sub_cancel_left]

theorem first_three {lead : ℕ} (hlast : lead < 0x10) :
    first (UInt8.ofNat (0xE0 + lead)) =
      ([], some ⟨lead, 2, if 0xE0 + lead = 0xE0 then 0xA0 else 0x80,
        if 0xE0 + lead = 0xED then 0x9F else 0xBF⟩) := by
  unfold first
  dsimp only
  rw [toNat_ofNat (by omega), if_neg (by omega), if_neg (by omega), if_neg (by omega),
    if_pos (by omega), Nat.add_sub_cancel_left]

theorem first_four {lead : ℕ} (hlast : lead < 5) :
    first (UInt8.ofNat (0xF0 + lead)) =
      ([], some ⟨lead, 3, if 0xF0 + lead = 0xF0 then 0x90 else 0x80,
        if 0xF0 + lead = 0xF4 then 0x8F else 0xBF⟩) := by
  unfold first
  dsimp only
  rw [toNat_ofNat (by omega), if_neg (by omega), if_neg (by omega), if_neg (by omega),
    if_neg (by omega), if_pos (by omega), Nat.add_sub_cancel_left]

theorem decode_encodePoint {c : CodePoint} (hc : isSurrogate c = false) (rest : List UInt8) :
    decode (encodePoint c ++ rest) = c :: decode rest := by
  have hbound := c.isLt
  unfold isSurrogate at hc
  rw [Bool.and_eq_false_iff, decide_eq_false_iff_not, decide_eq_false_iff_not] at hc
  unfold encodePoint
  by_cases hone : c.val < 0x80
  · rw [if_pos hone]
    exact decode_one hone rest
  rw [if_neg hone]
  by_cases htwo : c.val < 0x800
  · rw [if_pos htwo, List.cons_append, List.singleton_append,
      decode_begin (first_two (by omega) (by omega)),
      decodeFrom_last c (by omega) (by omega) (by omega) (by omega)]
  rw [if_neg htwo]
  by_cases hthree : c.val < 0x10000
  · rw [if_pos hthree, List.cons_append, List.cons_append, List.singleton_append,
      decode_begin (first_three (by omega)),
      decodeFrom_more (by omega) (by omega) (by split <;> omega) (by split <;> omega),
      decodeFrom_last c (by omega) (by omega) (by omega) (by omega)]
  · rw [if_neg hthree, List.cons_append, List.cons_append, List.cons_append, List.singleton_append,
      decode_begin (first_four (by omega)),
      decodeFrom_more (by omega) (by omega) (by split <;> omega) (by split <;> omega),
      decodeFrom_more (by omega) (by omega) (by omega) (by omega),
      decodeFrom_last c (by omega) (by omega) (by omega) (by omega)]

/-- A text that can be written is read back, whatever follows it. -/
theorem decode_encode_append {text : Text} {bytes : List UInt8} (h : encode text = some bytes)
    (rest : List UInt8) : decode (bytes ++ rest) = text ++ decode rest := by
  unfold encode at h
  split at h
  case isTrue => cases h
  case isFalse hnone =>
    obtain rfl := Option.some.inj h
    rw [List.any_eq_true, not_exists] at hnone
    induction text with
    | nil => rfl
    | cons c text ih =>
      have hc : isSurrogate c = false :=
        Bool.eq_false_iff.mpr fun hc => hnone c ⟨List.mem_cons_self, hc⟩
      have htext : ∀ x, ¬(x ∈ text ∧ isSurrogate x = true) :=
        fun x hx => hnone x ⟨List.mem_cons_of_mem c hx.1, hx.2⟩
      rw [List.flatMap_cons, List.append_assoc, decode_encodePoint hc, List.cons_append]
      exact congrArg (c :: ·) (ih htext rfl)

theorem decode_encode {text : Text} {bytes : List UInt8} (h : encode text = some bytes) :
    decode bytes = text := by
  have hread := decode_encode_append h []
  rw [List.append_nil] at hread
  rw [hread]
  exact List.append_nil text

end Foundation.Utf8
