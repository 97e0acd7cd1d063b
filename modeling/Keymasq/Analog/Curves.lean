import Keymasq.Foundation.Rounding
import Mathlib.Algebra.Order.Group.MinMax
import Mathlib.Tactic.FieldSimp

/-!
# Axis calibration

A raw value of an axis is normalized around its centre to the range from -1 to 1, each half
by its own span, and a normalized value is brought back to a raw one. Where the axis has no
centre, its exact midpoint serves one way and the midpoint rounded to an integer the other.
-/

namespace Keymasq.Analog.Curves
open Foundation.Rounding

def defaultStickMin : ℤ := -32768
def defaultStickMax : ℤ := 32767

/- An axis that reports no range has the range of a stick. -/
def stickRange (minimum maximum : ℤ) : ℤ × ℤ :=
  if minimum ≥ maximum then (defaultStickMin, defaultStickMax) else (minimum, maximum)

def clampUnit (value : ℚ) : ℚ := max (-1) (min 1 value)

def exactMidpoint (minimum maximum : ℤ) : Option ℤ → ℚ
  | some center => center
  | none => (minimum + maximum) / 2

def normalizeAxisValue (rawValue minimum maximum : ℤ) (center : Option ℤ) (invert : Bool) : ℚ :=
  let (minimum, maximum) := stickRange minimum maximum
  let midpoint := exactMidpoint minimum maximum center
  let normalized : ℚ :=
    if (rawValue : ℚ) < midpoint then (rawValue - midpoint) / max 1 (midpoint - minimum)
    else (rawValue - midpoint) / max 1 (maximum - midpoint)
  clampUnit (if invert then -normalized else normalized)

def wholeMidpoint (minimum maximum : ℤ) : Option ℤ → ℤ
  | some center => center
  | none => roundHalfEven ((minimum + maximum) / 2 : ℚ)

def denormalizeAxisValue (value : ℚ) (minimum maximum : ℤ) (center : Option ℤ)
    (invert : Bool) : ℤ :=
  let (minimum, maximum) := stickRange minimum maximum
  let normalized := if invert then -clampUnit value else clampUnit value
  let midpoint := wholeMidpoint minimum maximum center
  if 0 ≤ normalized then
    min maximum (roundHalfEven ((midpoint : ℚ) + normalized * (maximum - midpoint)))
  else max minimum (roundHalfEven ((midpoint : ℚ) + normalized * (midpoint - minimum)))

/-! ## The two ways -/

theorem stickRange_of_lt {lo hi : ℤ} (h : lo < hi) : stickRange lo hi = (lo, hi) :=
  if_neg (not_le.mpr h)

theorem clampUnit_mem (v : ℚ) : -1 ≤ clampUnit v ∧ clampUnit v ≤ 1 := by
  unfold clampUnit
  exact ⟨le_max_left _ _, max_le (by norm_num) (min_le_left _ _)⟩

theorem clampUnit_mono : Monotone clampUnit := fun _ _ h =>
  max_le_max_left _ (min_le_min_left _ h)

theorem clampUnit_of_mem {v : ℚ} (hlow : -1 ≤ v) (hhigh : v ≤ 1) : clampUnit v = v := by
  unfold clampUnit
  rw [min_eq_right hhigh, max_eq_right hlow]

theorem clampUnit_neg (v : ℚ) : clampUnit (-v) = -clampUnit v := by
  have hunit : max (-1 : ℚ) 1 = 1 := max_eq_right (by norm_num)
  unfold clampUnit
  have hneg : -max (-1) (min 1 v) = min (- -1) (-min 1 v) := (min_neg_neg _ _).symm
  rw [max_min_distrib_left, hunit, hneg, ← max_neg_neg, neg_neg]

@[simp] theorem clampUnit_clampUnit (v : ℚ) : clampUnit (clampUnit v) = clampUnit v :=
  clampUnit_of_mem (clampUnit_mem v).1 (clampUnit_mem v).2

/- The signed part of its half that a raw value takes up. -/
def fraction (lo hi : ℤ) (m raw : ℚ) : ℚ :=
  if raw < m then (raw - m) / max 1 (m - lo) else (raw - m) / max 1 (hi - m)

/- The raw number that a fraction of a half stands for, before rounding. -/
def unfraction (lo hi : ℤ) (m n : ℚ) : ℚ :=
  if 0 ≤ n then m + n * (hi - m) else m + n * (m - lo)

theorem normalizeAxisValue_eq {lo hi : ℤ} (h : lo < hi) (raw : ℤ) (center : Option ℤ)
    (invert : Bool) :
    normalizeAxisValue raw lo hi center invert =
      if invert then -clampUnit (fraction lo hi (exactMidpoint lo hi center) raw)
      else clampUnit (fraction lo hi (exactMidpoint lo hi center) raw) := by
  unfold normalizeAxisValue
  rw [stickRange_of_lt h]
  cases invert with
  | false => rfl
  | true => exact clampUnit_neg _

/-! ## Where the two midpoints lie -/

/-- A midpoint and the integer it is rounded to; a half that has any length has at least 1. -/
structure Middle (lo hi : ℤ) (m : ℚ) (whole : ℤ) : Prop where
  low : (lo : ℚ) ≤ m
  high : m ≤ hi
  whole_low : lo ≤ whole
  whole_high : whole ≤ hi
  near : |(whole : ℚ) - m| ≤ 1 / 2
  exact_of_int : ∀ n : ℤ, (n : ℚ) = m → whole = n
  low_span : (lo : ℚ) < m → 1 ≤ m - lo
  high_span : m < hi → 1 ≤ hi - m

/-- The centre is given, and lies in the range, or there is none and the range has two steps. -/
def Calibrated (lo hi : ℤ) (center : Option ℤ) : Prop :=
  2 ≤ hi - lo ∧ ∀ c ∈ center, lo ≤ c ∧ c ≤ hi

theorem middle_center {lo hi c : ℤ} (hlow : lo ≤ c) (hhigh : c ≤ hi) : Middle lo hi c c where
  low := by exact_mod_cast hlow
  high := by exact_mod_cast hhigh
  whole_low := hlow
  whole_high := hhigh
  near := by
    rw [sub_self, abs_zero]
    norm_num
  exact_of_int _ hn := by exact_mod_cast hn.symm
  low_span hlt := by
    have hstep : lo + 1 ≤ c := by exact_mod_cast hlt
    exact_mod_cast (by omega : 1 ≤ c - lo)
  high_span hlt := by
    have hstep : c + 1 ≤ hi := by exact_mod_cast hlt
    exact_mod_cast (by omega : 1 ≤ hi - c)

theorem middle_none {lo hi : ℤ} (h : 2 ≤ hi - lo) :
    Middle lo hi ((lo + hi) / 2) (roundHalfEven ((lo + hi) / 2 : ℚ)) := by
  have hspan : (2 : ℚ) ≤ hi - lo := by exact_mod_cast h
  refine ⟨by linarith, by linarith, le_roundHalfEven (by linarith),
    roundHalfEven_le (by linarith), abs_roundHalfEven_sub_le _, fun n hn => ?_,
    fun _ => by linarith, fun _ => by linarith⟩
  rw [← hn, roundHalfEven_intCast]

variable {center : Option ℤ} {lo hi whole : ℤ} {m : ℚ}

theorem middle_of_calibrated {lo hi : ℤ} (h : Calibrated lo hi center) :
    Middle lo hi (exactMidpoint lo hi center) (wholeMidpoint lo hi center) := by
  cases center with
  | none => exact middle_none h.1
  | some c => exact middle_center (h.2 c rfl).1 (h.2 c rfl).2

theorem fraction_of_lt (hm : Middle lo hi m whole) {raw : ℚ} (hlow : lo ≤ raw) (h : raw < m) :
    fraction lo hi m raw = (raw - m) / (m - lo) := by
  unfold fraction
  rw [if_pos h, max_eq_right (hm.low_span (hlow.trans_lt h))]

theorem fraction_of_le (hm : Middle lo hi m whole) {raw : ℚ} (h : m ≤ raw) (hlt : m < hi) :
    fraction lo hi m raw = (raw - m) / (hi - m) := by
  unfold fraction
  rw [if_neg (not_lt.mpr h), max_eq_right (hm.high_span hlt)]

theorem fraction_self : fraction lo hi m m = 0 := by
  unfold fraction
  rw [if_neg (lt_irrefl m), sub_self, zero_div]

theorem fraction_neg_iff (lo hi : ℤ) {raw : ℚ} : fraction lo hi m raw < 0 ↔ raw < m := by
  have hlow : (0 : ℚ) < max 1 (m - lo) := lt_max_of_lt_left one_pos
  have hhigh : (0 : ℚ) < max 1 (hi - m) := lt_max_of_lt_left one_pos
  unfold fraction
  split
  case isTrue h => exact ⟨fun _ => h, fun _ => div_neg_of_neg_of_pos (by linarith) hlow⟩
  case isFalse h =>
    have hnonneg : 0 ≤ (raw - m) / max 1 (hi - m) := div_nonneg (by linarith) hhigh.le
    exact ⟨fun hneg => absurd hneg (not_lt.mpr hnonneg), fun hlt => absurd hlt h⟩

theorem fraction_mono : Monotone (fraction lo hi m) := by
  have hlow : (0 : ℚ) < max 1 (m - lo) := lt_max_of_lt_left one_pos
  have hhigh : (0 : ℚ) < max 1 (hi - m) := lt_max_of_lt_left one_pos
  intro raw raw' h
  by_cases hraw' : raw' < m
  · unfold fraction
    rw [if_pos hraw', if_pos (h.trans_lt hraw')]
    exact (div_le_div_iff_of_pos_right hlow).mpr (by linarith)
  by_cases hraw : raw < m
  · -- one value on each side of the midpoint
    exact ((fraction_neg_iff lo hi).mpr hraw).le.trans (not_lt.mp (mt (fraction_neg_iff lo hi).mp hraw'))
  · unfold fraction
    rw [if_neg hraw', if_neg hraw]
    exact (div_le_div_iff_of_pos_right hhigh).mpr (by linarith)

theorem fraction_mem (hm : Middle lo hi m whole) {raw : ℚ} (hlow : lo ≤ raw) (hhigh : raw ≤ hi) :
    -1 ≤ fraction lo hi m raw ∧ fraction lo hi m raw ≤ 1 := by
  have hlo : fraction lo hi m lo ≥ -1 := by
    by_cases h : (lo : ℚ) < m
    · have hspan : m - lo ≠ 0 := by linarith
      rw [fraction_of_lt hm le_rfl h, ← neg_sub m, neg_div, div_self hspan]
    · have hnonneg := not_lt.mp (mt (fraction_neg_iff lo hi).mp h)
      linarith
  have hhi : fraction lo hi m hi ≤ 1 := by
    by_cases h : m < hi
    · have hspan : (hi : ℚ) - m ≠ 0 := by linarith
      rw [fraction_of_le hm hm.high h, div_self hspan]
    · rw [← le_antisymm hm.high (not_lt.mp h), fraction_self]
      norm_num
  exact ⟨hlo.trans (fraction_mono hlow), (fraction_mono hhigh).trans hhi⟩

theorem unfraction_nonneg {n : ℚ} (h : 0 ≤ n) : unfraction lo hi m n = m + n * (hi - m) :=
  if_pos h

theorem unfraction_neg {n : ℚ} (h : n < 0) : unfraction lo hi m n = m + n * (m - lo) :=
  if_neg (not_le.mpr h)

theorem unfraction_mono (hlow : lo ≤ m) (hhigh : m ≤ hi) : Monotone (unfraction lo hi m) := by
  have hlo : 0 ≤ m - lo := by linarith
  have hhi : 0 ≤ hi - m := by linarith
  intro n n' h
  by_cases hn' : n' < 0
  · rw [unfraction_neg (h.trans_lt hn'), unfraction_neg hn']
    exact add_le_add_right (mul_le_mul_of_nonneg_right h hlo) m
  have hpos := not_lt.mp hn'
  by_cases hn : n < 0
  · have hbelow := mul_nonpos_of_nonpos_of_nonneg hn.le hlo
    have habove := mul_nonneg hpos hhi
    rw [unfraction_neg hn, unfraction_nonneg hpos]
    linarith
  · rw [unfraction_nonneg (not_lt.mp hn), unfraction_nonneg hpos]
    exact add_le_add_right (mul_le_mul_of_nonneg_right h hhi) m

theorem unfraction_zero : unfraction lo hi m 0 = m := by
  rw [unfraction_nonneg le_rfl, zero_mul, add_zero]

/- The value as the raw side sees it. -/
def oriented (invert : Bool) (value : ℚ) : ℚ :=
  if invert then -clampUnit value else clampUnit value

theorem denormalizeAxisValue_eq (h : Calibrated lo hi center) (value : ℚ) (invert : Bool) :
    denormalizeAxisValue value lo hi center invert =
      max lo (min hi (roundHalfEven
        (unfraction lo hi (wholeMidpoint lo hi center) (oriented invert value)))) := by
  have hm := middle_of_calibrated h
  have hmono := unfraction_mono (m := wholeMidpoint lo hi center)
    (by exact_mod_cast hm.whole_low) (by exact_mod_cast hm.whole_high)
  have hzero : unfraction lo hi (wholeMidpoint lo hi center) 0 = wholeMidpoint lo hi center :=
    unfraction_zero
  have hrange : lo < hi := by
    have hspan := h.1
    omega
  unfold denormalizeAxisValue
  rw [stickRange_of_lt hrange]
  change (if 0 ≤ oriented invert value then _ else _) = _
  by_cases hn : 0 ≤ oriented invert value
  · have hlow : lo ≤ roundHalfEven
        (unfraction lo hi (wholeMidpoint lo hi center) (oriented invert value)) :=
      hm.whole_low.trans (le_roundHalfEven (hzero.symm.le.trans (hmono hn)))
    rw [if_pos hn, max_eq_right (le_min hrange.le hlow), unfraction_nonneg hn]
    rfl
  · have hhigh : roundHalfEven
        (unfraction lo hi (wholeMidpoint lo hi center) (oriented invert value)) ≤ hi :=
      (roundHalfEven_le ((hmono (not_le.mp hn).le).trans hzero.le)).trans hm.whole_high
    rw [if_neg hn, min_eq_right hhigh, unfraction_neg (not_le.mp hn)]
    rfl

/-! ## There and back -/

/-- The rounding of the midpoint is felt less, the further a value is from it. -/
theorem carried {w raw e t : ℚ} (hmid : |w - m| ≤ 1 / 2) (hpos : 0 < t) (hle : t ≤ 1)
    (hraw : raw - m = t * (e - m)) : |w + t * (e - w) - raw| < 1 / 2 := by
  have herror : w + t * (e - w) - raw = (1 - t) * (w - m) := by linarith
  rw [herror, abs_mul, abs_of_nonneg (by linarith)]
  have hbound := mul_le_mul_of_nonneg_left hmid (by linarith : 0 ≤ 1 - t)
  linarith

theorem round_unfraction_fraction (hm : Middle lo hi m whole) {raw : ℤ} (hlow : lo ≤ raw)
    (hhigh : raw ≤ hi) :
    roundHalfEven (unfraction lo hi whole (fraction lo hi m raw)) = raw := by
  have hlow' : (lo : ℚ) ≤ raw := by exact_mod_cast hlow
  have hhigh' : (raw : ℚ) ≤ hi := by exact_mod_cast hhigh
  have hmem := fraction_mem hm hlow' hhigh'
  obtain hlt | heq | hgt := lt_trichotomy (raw : ℚ) m
  · -- the lower half, with the other sign
    have hneg := (fraction_neg_iff lo hi).mpr hlt
    have hspan : m - lo ≠ 0 := by linarith
    have hraw : (raw : ℚ) - m = -fraction lo hi m raw * (lo - m) := by
      rw [fraction_of_lt hm hlow' hlt]
      field_simp
      ring
    have hclose := carried hm.near (neg_pos.mpr hneg) (neg_le.mp hmem.1) hraw
    apply roundHalfEven_eq
    rw [unfraction_neg hneg]
    have hsame : (whole : ℚ) + fraction lo hi m raw * (whole - lo) =
        whole + -fraction lo hi m raw * (lo - whole) := by ring
    rwa [hsame]
  · rw [heq, fraction_self, unfraction_zero, roundHalfEven_intCast]
    exact hm.exact_of_int raw heq
  · have hlt' : m < hi := hgt.trans_le hhigh'
    have hspan : (hi : ℚ) - m ≠ 0 := by linarith
    have hraw : (raw : ℚ) - m = fraction lo hi m raw * (hi - m) := by
      rw [fraction_of_le hm hgt.le hlt']
      field_simp
    have hpos : 0 < fraction lo hi m raw := by
      rw [fraction_of_le hm hgt.le hlt']
      exact div_pos (by linarith) (by linarith)
    apply roundHalfEven_eq
    rw [unfraction_nonneg hpos.le]
    exact carried hm.near hpos hmem.2 hraw

/-- The order that the axis keeps, or turns round when it is inverted. -/
def Directed {A B : Type} [Preorder A] [Preorder B] (invert : Bool) (f : A → B) : Prop :=
  if invert then Antitone f else Monotone f

theorem oriented_directed (invert : Bool) : Directed invert (oriented invert) := by
  unfold Directed oriented
  cases invert with
  | false => exact clampUnit_mono
  | true => exact clampUnit_mono.neg

theorem normalizeAxisValue_directed (h : lo < hi) (center : Option ℤ) (invert : Bool) :
    Directed invert fun raw : ℤ => normalizeAxisValue raw lo hi center invert := by
  have hmono : Monotone fun raw : ℤ =>
      clampUnit (fraction lo hi (exactMidpoint lo hi center) raw) := fun _ _ hle =>
    clampUnit_mono (fraction_mono (by exact_mod_cast hle))
  unfold Directed
  cases invert with
  | false =>
    simp only [normalizeAxisValue_eq h]
    exact hmono
  | true =>
    simp only [normalizeAxisValue_eq h]
    exact hmono.neg

theorem denormalizeAxisValue_directed (h : Calibrated lo hi center) (invert : Bool) :
    Directed invert fun value : ℚ => denormalizeAxisValue value lo hi center invert := by
  have hm := middle_of_calibrated h
  have hmono : Monotone fun n : ℚ =>
      max lo (min hi (roundHalfEven (unfraction lo hi (wholeMidpoint lo hi center) n))) :=
    fun _ _ hle => max_le_max_left _ (min_le_min_left _ (roundHalfEven_mono
      (unfraction_mono (by exact_mod_cast hm.whole_low) (by exact_mod_cast hm.whole_high) hle)))
  have horiented := oriented_directed invert
  unfold Directed at horiented ⊢
  simp only [denormalizeAxisValue_eq h]
  cases invert with
  | false => exact hmono.comp horiented
  | true => exact hmono.comp_antitone horiented

theorem normalizeAxisValue_mem (h : lo < hi) (raw : ℤ) (center : Option ℤ) (invert : Bool) :
    -1 ≤ normalizeAxisValue raw lo hi center invert ∧
      normalizeAxisValue raw lo hi center invert ≤ 1 := by
  have hmem := clampUnit_mem (fraction lo hi (exactMidpoint lo hi center) raw)
  rw [normalizeAxisValue_eq h]
  cases invert with
  | false => exact hmem
  | true => exact ⟨neg_le_neg hmem.2, neg_le.mp hmem.1⟩

theorem denormalizeAxisValue_mem (h : Calibrated lo hi center) (value : ℚ) (invert : Bool) :
    lo ≤ denormalizeAxisValue value lo hi center invert ∧
      denormalizeAxisValue value lo hi center invert ≤ hi := by
  have hspan := h.1
  rw [denormalizeAxisValue_eq h]
  exact ⟨le_max_left _ _, max_le (by omega) (min_le_left _ _)⟩

theorem oriented_normalizeAxisValue (h : lo < hi) (raw : ℤ) (center : Option ℤ) (invert : Bool) :
    oriented invert (normalizeAxisValue raw lo hi center invert) =
      clampUnit (fraction lo hi (exactMidpoint lo hi center) raw) := by
  rw [normalizeAxisValue_eq h]
  cases invert with
  | false => exact clampUnit_clampUnit _
  | true =>
    change -clampUnit (-clampUnit _) = _
    rw [clampUnit_neg, neg_neg, clampUnit_clampUnit]

/-- A raw value comes back from its normalized value; both ways keep the order and the range. -/
theorem axis_calibration (lo hi : ℤ) (center : Option ℤ) (h : Calibrated lo hi center)
    (invert : Bool) :
    (∀ raw : ℤ, lo ≤ raw → raw ≤ hi →
      denormalizeAxisValue (normalizeAxisValue raw lo hi center invert) lo hi center invert =
        raw) ∧
    (Directed invert fun raw : ℤ => normalizeAxisValue raw lo hi center invert) ∧
    (Directed invert fun value : ℚ => denormalizeAxisValue value lo hi center invert) ∧
    (∀ raw : ℤ, -1 ≤ normalizeAxisValue raw lo hi center invert ∧
      normalizeAxisValue raw lo hi center invert ≤ 1) ∧
    ∀ value : ℚ, lo ≤ denormalizeAxisValue value lo hi center invert ∧
      denormalizeAxisValue value lo hi center invert ≤ hi := by
  have hm := middle_of_calibrated h
  have hlt : lo < hi := by
    have hspan := h.1
    omega
  refine ⟨fun raw hlow hhigh => ?_, normalizeAxisValue_directed hlt center invert,
    denormalizeAxisValue_directed h invert, fun raw => normalizeAxisValue_mem hlt raw center invert,
    fun value => denormalizeAxisValue_mem h value invert⟩
  have hmem := @fraction_mem lo hi _ _ hm raw (by exact_mod_cast hlow) (by exact_mod_cast hhigh)
  rw [denormalizeAxisValue_eq h, oriented_normalizeAxisValue hlt, clampUnit_of_mem hmem.1 hmem.2,
    round_unfraction_fraction hm hlow hhigh, min_eq_right hhigh, max_eq_right hlow]

/-- A trigger whose centre is its lower end, inverted. -/
theorem axis_calibration_trigger :
    denormalizeAxisValue (normalizeAxisValue 200 0 255 (some 0) true) 0 255 (some 0) true = 200 :=
  (axis_calibration 0 255 (some 0) (by unfold Calibrated; decide) true).1 200 (by decide)
    (by decide)

end Keymasq.Analog.Curves
