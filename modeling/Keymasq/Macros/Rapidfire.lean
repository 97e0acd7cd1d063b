import Keymasq.Foundation.Json
import Mathlib.Data.Prod.Lex
import Mathlib.Data.List.MinMax
import Mathlib.Algebra.Order.Field.Basic
import Mathlib.Tactic.Linarith
import Mathlib.Tactic.FieldSimp
import Mathlib.Tactic.Ring

/-!
# Rapidfire blocks

A block of a macro presses its button several times within a fixed duration. The number of
pulses is the one whose wait between two pulses comes closest to the requested wait.
-/

namespace Keymasq.Macros.Rapidfire
open Foundation Json

/-! ## The plan -/

def defaultRapidfireHoldMs : ℤ := 20
def defaultRapidfireWaitMs : ℤ := 20
def minRapidfireHoldMs : ℤ := 0
def minRapidfireWaitMs : ℤ := 1

def clampRapidfireHoldMs (rapidfireHoldMs : ℤ) : ℤ := max minRapidfireHoldMs rapidfireHoldMs
def clampRapidfireWaitMs (rapidfireWaitMs : ℤ) : ℤ := max minRapidfireWaitMs rapidfireWaitMs

/- `a // b`, `none` where it raises a `ZeroDivisionError`. -/
def floorDiv (a b : ℤ) : Option ℤ := if b = 0 then none else some (a.fdiv b)

/- `Fraction(a, b)`, `none` where it raises a `ZeroDivisionError`. -/
def fraction (a b : ℤ) : Option ℚ := if b = 0 then none else some ((a : ℚ) / b)

structure MacroRapidfirePlan where
  durationUs : ℤ
  holdUs : ℤ
  count : ℤ

/- The source divides into a float; the quotient here is exact. -/
def MacroRapidfirePlan.waitUs (plan : MacroRapidfirePlan) : Option ℚ :=
  if plan.count = 1 then some 0
  else fraction (plan.durationUs - plan.count * plan.holdUs) (plan.count - 1)

/- Press and release of one pulse. -/
def MacroRapidfirePlan.pulse (plan : MacroRapidfirePlan) (index : ℕ) : Option (ℤ × ℤ) :=
  if plan.count = 1 then some (0, plan.durationUs)
  else do
    let gaps := plan.count - 1
    let half ← floorDiv gaps 2
    let press ← floorDiv ((plan.durationUs - plan.holdUs) * index + half) gaps
    return (press, press + plan.holdUs)

/- What `min` compares: the distance to the requested wait, then the count. -/
def waitDistance (duration hold wait n : ℤ) : Option (ℚ ×ₗ ℤ) :=
  (fraction (duration - n * hold) (n - 1)).map fun q => toLex (|q - wait|, n)

def planMacroRapidfire (durationUs holdMs waitMs : ℤ) : Option MacroRapidfirePlan := do
  let duration := max 0 durationUs
  let hold := clampRapidfireHoldMs holdMs * 1000
  let wait := clampRapidfireWaitMs waitMs * 1000
  let minWait := minRapidfireWaitMs * 1000
  let maxCount ← floorDiv (duration + minWait) (hold + minWait)
  if maxCount < 2 then return ⟨duration, duration, 1⟩
  let below ← floorDiv (duration + wait) (hold + wait)
  let candidates := [below, below + 1].map fun n => max 2 (min maxCount n)
  let distances ← candidates.mapM (waitDistance duration hold wait)
  let closest ← distances.min?
  return ⟨duration, hold, (ofLex closest).2⟩

def MacroRapidfirePlan.pulses (plan : MacroRapidfirePlan) : Option (List (ℤ × ℤ)) :=
  (List.range plan.count.toNat).mapM plan.pulse

theorem floorDiv_of_pos {b : ℤ} (h : 0 < b) (a : ℤ) : floorDiv a b = some (a / b) := by
  unfold floorDiv
  rw [if_neg (ne_of_gt h), Int.fdiv_eq_ediv_of_nonneg a (le_of_lt h)]

theorem fraction_of_pos {b : ℤ} (h : 0 < b) (a : ℤ) : fraction a b = some ((a : ℚ) / b) :=
  if_neg (ne_of_gt h)

/-! ## The nearest value of a falling sequence -/

section Nearest

variable {f : ℤ → ℚ} {target : ℚ} {below most : ℤ}

/- A value of the sequence, by its distance to the target and then by its index. -/
def nearness (f : ℤ → ℚ) (target : ℚ) (n : ℤ) : ℚ ×ₗ ℤ := toLex (|f n - target|, n)

theorem nearness_le_of_ge {m n : ℤ} (hfall : ∀ m n, 2 ≤ m → m < n → f n < f m) (hn : 2 ≤ n)
    (hle : n ≤ m) (habove : target ≤ f m) : nearness f target m ≤ nearness f target n := by
  rcases eq_or_lt_of_le hle with heq | hlt
  · rw [heq]
  · have hfm := hfall n m hn hlt
    refine le_of_lt (Prod.Lex.left _ _ ?_)
    rw [abs_of_nonneg (by linarith), abs_of_nonneg (by linarith)]
    linarith

theorem nearness_le_of_le {m n : ℤ} (hfall : ∀ m n, 2 ≤ m → m < n → f n < f m) (hm : 2 ≤ m)
    (hle : m ≤ n) (hbelow : f m < target) : nearness f target m ≤ nearness f target n := by
  rcases eq_or_lt_of_le hle with heq | hlt
  · rw [heq]
  · have hfn := hfall m n hm hlt
    refine le_of_lt (Prod.Lex.left _ _ ?_)
    rw [abs_of_neg (by linarith), abs_of_neg (by linarith)]
    linarith

/-- One of the two neighbours of the crossing, kept within the limits, is nearest. -/
theorem nearest_of_neighbours (hfall : ∀ m n, 2 ≤ m → m < n → f n < f m)
    (hcross : ∀ n, 2 ≤ n → (target ≤ f n ↔ n ≤ below)) {n : ℤ} (hn : 2 ≤ n) (hmost : n ≤ most) :
    min (nearness f target (max 2 (min most below)))
        (nearness f target (max 2 (min most (below + 1)))) ≤ nearness f target n := by
  by_cases hle : n ≤ below
  · refine le_trans (min_le_left _ _) (nearness_le_of_ge hfall hn (by omega) ?_)
    exact (hcross _ (le_max_left _ _)).mpr (by omega)
  · refine le_trans (min_le_right _ _) (nearness_le_of_le hfall (le_max_left _ _) (by omega) ?_)
    exact not_le.mp fun h => absurd ((hcross _ (le_max_left _ _)).mp h) (by omega)

end Nearest

/-! ## The effective wait -/

section Wait

variable {duration hold wait : ℤ}

/- The wait between two of `n` pulses that fill the window. -/
def effectiveWait (duration hold n : ℤ) : ℚ := ((duration - n * hold : ℤ) : ℚ) / ((n - 1 : ℤ) : ℚ)

/- `n` pulses fit with the smallest wait between them. -/
def Feasible (duration hold n : ℤ) : Prop :=
  2 ≤ n ∧ n * hold + (n - 1) * (minRapidfireWaitMs * 1000) ≤ duration

theorem waitDistance_eq {n : ℤ} (hn : 2 ≤ n) :
    waitDistance duration hold wait n =
      some (nearness (effectiveWait duration hold) wait n) := by
  unfold waitDistance
  rw [fraction_of_pos (by omega)]
  rfl

theorem le_effectiveWait_iff {n : ℤ} (hn : 2 ≤ n) :
    (wait : ℚ) ≤ effectiveWait duration hold n ↔ n * (hold + wait) ≤ duration + wait := by
  unfold effectiveWait
  have hpos : (0 : ℚ) < ((n - 1 : ℤ) : ℚ) := by
    exact_mod_cast (by omega : (0 : ℤ) < n - 1)
  rw [le_div_iff₀ hpos]
  constructor
  · intro h
    have hint : wait * (n - 1) ≤ duration - n * hold := by exact_mod_cast h
    linarith
  · intro h
    have hint : wait * (n - 1) ≤ duration - n * hold := by linarith
    exact_mod_cast hint

/-- More pulses leave less time between them. -/
theorem effectiveWait_lt {m n : ℤ} (hwindow : hold < duration) (hm : 2 ≤ m) (hlt : m < n) :
    effectiveWait duration hold n < effectiveWait duration hold m := by
  unfold effectiveWait
  have hmpos : (0 : ℚ) < ((m - 1 : ℤ) : ℚ) := by
    exact_mod_cast (by omega : (0 : ℤ) < m - 1)
  have hnpos : (0 : ℚ) < ((n - 1 : ℤ) : ℚ) := by
    exact_mod_cast (by omega : (0 : ℤ) < n - 1)
  rw [div_lt_div_iff₀ hnpos hmpos]
  have hprod : 0 < (duration - hold) * (n - m) :=
    mul_pos (sub_pos.mpr hwindow) (sub_pos.mpr hlt)
  have hint : (duration - n * hold) * (m - 1) < (duration - m * hold) * (n - 1) := by
    linarith
  exact_mod_cast hint

theorem feasible_iff {n : ℤ} (hhold : 0 ≤ hold) (hn : 2 ≤ n) :
    Feasible duration hold n ↔ n ≤ (duration + 1000) / (hold + 1000) := by
  unfold Feasible minRapidfireWaitMs
  rw [Int.le_ediv_iff_mul_le (by omega)]
  constructor
  · rintro ⟨-, h⟩
    linarith
  · intro h
    exact ⟨hn, by linarith⟩

theorem Feasible.hold_lt {n : ℤ} (hhold : 0 ≤ hold) (h : Feasible duration hold n) :
    hold < duration := by
  obtain ⟨hn, hfit⟩ := h
  unfold minRapidfireWaitMs at hfit
  have hprod : 0 ≤ (n - 2) * hold := mul_nonneg (by omega) hhold
  linarith

end Wait

/-! ## The pulses -/

/- The pulses start and end with the window and keep the gap. -/
structure FillsWindow (pulses : List (ℤ × ℤ)) (duration minGap : ℤ) : Prop where
  first : pulses.head?.map Prod.fst = some 0
  last : pulses.getLast?.map Prod.snd = some duration
  within : ∀ pulse ∈ pulses, 0 ≤ pulse.1 ∧ pulse.1 ≤ pulse.2 ∧ pulse.2 ≤ duration
  apart : pulses.Pairwise fun earlier later => earlier.2 + minGap ≤ later.1

theorem fillsWindow_single {duration : ℤ} (h : 0 ≤ duration) (minGap : ℤ) :
    FillsWindow [(0, duration)] duration minGap where
  first := rfl
  last := rfl
  within pulse hmem := by
    rw [List.mem_singleton.mp hmem]
    exact ⟨le_refl 0, h, le_refl duration⟩
  apart := List.pairwise_singleton _ _

section Pulses

variable {duration hold n : ℤ}

/- When the pulse is pressed, `n` pulses in all. -/
def pressAt (duration hold n : ℤ) (index : ℕ) : ℤ :=
  ((duration - hold) * index + (n - 1) / 2) / (n - 1)

theorem pressAt_zero (hn : 2 ≤ n) : pressAt duration hold n 0 = 0 := by
  unfold pressAt
  rw [Nat.cast_zero, mul_zero, zero_add]
  exact Int.ediv_eq_zero_of_lt (by omega) (by omega)

theorem pressAt_last {index : ℕ} (hn : 2 ≤ n) (hindex : (index : ℤ) = n - 1) :
    pressAt duration hold n index = duration - hold := by
  unfold pressAt
  rw [hindex, add_comm, Int.add_mul_ediv_right _ _ (by omega),
    Int.ediv_eq_zero_of_lt (by omega) (by omega), zero_add]

/-- Rounding the absolute offsets keeps the whole microseconds between two presses. -/
theorem pressAt_apart {i j : ℕ} (hhold : 0 ≤ hold) (hfeasible : Feasible duration hold n)
    (hlt : i < j) :
    pressAt duration hold n i + hold + minRapidfireWaitMs * 1000 ≤ pressAt duration hold n j := by
  obtain ⟨hn, hfit⟩ := hfeasible
  have hstep : (n - 1) * (hold + minRapidfireWaitMs * 1000) ≤ duration - hold := by linarith
  have hgap : (0 : ℤ) ≤ hold + minRapidfireWaitMs * 1000 := by
    unfold minRapidfireWaitMs
    omega
  have hindex : (1 : ℤ) ≤ j - i := by omega
  have hspan : (n - 1) * (hold + minRapidfireWaitMs * 1000) ≤ (duration - hold) * (j - i) := by
    have hnonneg : 0 ≤ duration - hold :=
      le_trans (mul_nonneg (by omega) hgap) hstep
    calc (n - 1) * (hold + minRapidfireWaitMs * 1000)
      _ ≤ (duration - hold) * 1 := by rw [mul_one]; exact hstep
      _ ≤ (duration - hold) * (j - i) := mul_le_mul_of_nonneg_left hindex hnonneg
  unfold pressAt
  rw [add_assoc, ← Int.add_mul_ediv_left _ _ (by omega : n - 1 ≠ 0)]
  refine Int.ediv_le_ediv (by omega) ?_
  linarith

theorem pressAt_nonneg (hn : 2 ≤ n) (hwindow : hold ≤ duration) (index : ℕ) :
    0 ≤ pressAt duration hold n index := by
  refine Int.ediv_nonneg ?_ (by omega)
  have hprod : 0 ≤ (duration - hold) * index :=
    mul_nonneg (sub_nonneg.mpr hwindow) (Int.natCast_nonneg index)
  omega

theorem pressAt_le {index : ℕ} (hn : 2 ≤ n) (hwindow : hold ≤ duration)
    (hindex : (index : ℤ) ≤ n - 1) : pressAt duration hold n index + hold ≤ duration := by
  have hlast : pressAt duration hold n (n - 1).toNat = duration - hold :=
    pressAt_last hn (Int.toNat_of_nonneg (by omega))
  have hle : pressAt duration hold n index ≤ pressAt duration hold n (n - 1).toNat := by
    unfold pressAt
    refine Int.ediv_le_ediv (by omega) ?_
    have hprod : (duration - hold) * index ≤ (duration - hold) * ((n - 1).toNat : ℕ) :=
      mul_le_mul_of_nonneg_left (by omega) (sub_nonneg.mpr hwindow)
    omega
  omega

theorem pulse_eq (hn : 2 ≤ n) (index : ℕ) :
    MacroRapidfirePlan.pulse ⟨duration, hold, n⟩ index =
      some (pressAt duration hold n index, pressAt duration hold n index + hold) := by
  unfold MacroRapidfirePlan.pulse
  rw [if_neg (by simp only; omega)]
  simp only [floorDiv_of_pos (by omega : (0 : ℤ) < 2), floorDiv_of_pos (by omega : 0 < n - 1),
    Option.bind_eq_bind, Option.bind_some, Option.pure_def]
  rfl

theorem pulses_eq (hn : 2 ≤ n) :
    MacroRapidfirePlan.pulses ⟨duration, hold, n⟩ = some ((List.range n.toNat).map fun index =>
      (pressAt duration hold n index, pressAt duration hold n index + hold)) := by
  unfold MacroRapidfirePlan.pulses
  rw [funext (pulse_eq hn)]
  exact List.mapM_pure

theorem fillsWindow_pulses (hhold : 0 ≤ hold) (hfeasible : Feasible duration hold n) :
    FillsWindow ((List.range n.toNat).map fun index =>
      (pressAt duration hold n index, pressAt duration hold n index + hold)) duration
      (minRapidfireWaitMs * 1000) := by
  have hn := hfeasible.1
  have hwindow := le_of_lt (hfeasible.hold_lt hhold)
  obtain ⟨k, hk⟩ : ∃ k, n.toNat = k + 1 := ⟨n.toNat - 1, by omega⟩
  constructor
  · rw [List.head?_map, hk, List.head?_range, if_neg (Nat.succ_ne_zero k)]
    exact congrArg some (pressAt_zero hn)
  · rw [List.getLast?_map, hk, List.getLast?_range, if_neg (Nat.succ_ne_zero k)]
    refine congrArg some ?_
    simp only [Nat.add_sub_cancel]
    rw [pressAt_last hn (by omega)]
    omega
  · intro pulse hmem
    obtain ⟨index, hindex, rfl⟩ := List.mem_map.mp hmem
    rw [List.mem_range] at hindex
    exact ⟨pressAt_nonneg hn hwindow index, by simp only; omega,
      pressAt_le hn hwindow (by omega)⟩
  · rw [List.pairwise_map]
    exact List.pairwise_lt_range.imp fun hlt => pressAt_apart hhold hfeasible hlt

end Pulses

/-! ## The plan fits -/

section Plan

variable {durationUs holdMs waitMs : ℤ}

theorem clampRapidfireHoldMs_nonneg (holdMs : ℤ) : 0 ≤ clampRapidfireHoldMs holdMs * 1000 := by
  unfold clampRapidfireHoldMs minRapidfireHoldMs
  omega

theorem clampRapidfireWaitMs_pos (waitMs : ℤ) : 1000 ≤ clampRapidfireWaitMs waitMs * 1000 := by
  unfold clampRapidfireWaitMs minRapidfireWaitMs
  omega

theorem plan_single
    (h : (max 0 durationUs + 1000) / (clampRapidfireHoldMs holdMs * 1000 + 1000) < 2) :
    planMacroRapidfire durationUs holdMs waitMs =
      some ⟨max 0 durationUs, max 0 durationUs, 1⟩ := by
  have hhold := clampRapidfireHoldMs_nonneg holdMs
  unfold planMacroRapidfire
  simp only [minRapidfireWaitMs, one_mul]
  rw [floorDiv_of_pos (by omega)]
  simp only [Option.bind_eq_bind, Option.bind_some, if_pos h]
  rfl

/- The count is feasible, and no feasible count has a wait nearer to the requested one. -/
structure Nearest (duration hold wait n : ℤ) : Prop where
  feasible : Feasible duration hold n
  nearest : ∀ k, Feasible duration hold k →
    nearness (effectiveWait duration hold) wait n ≤ nearness (effectiveWait duration hold) wait k

theorem nearest_min {duration hold wait : ℤ} (hhold : 0 ≤ hold) (hwait : 1000 ≤ wait)
    (h : 2 ≤ (duration + 1000) / (hold + 1000)) : ∃ n, Nearest duration hold wait n ∧
      min (nearness (effectiveWait duration hold) wait
          (max 2 (min ((duration + 1000) / (hold + 1000)) ((duration + wait) / (hold + wait)))))
        (nearness (effectiveWait duration hold) wait
          (max 2 (min ((duration + 1000) / (hold + 1000)) ((duration + wait) / (hold + wait) + 1)))) =
        nearness (effectiveWait duration hold) wait n := by
  have hwindow := Feasible.hold_lt hhold ((feasible_iff hhold (le_refl 2)).mpr h)
  have hcross : ∀ n, 2 ≤ n →
      ((wait : ℚ) ≤ effectiveWait duration hold n ↔ n ≤ (duration + wait) / (hold + wait)) := by
    intro n hn
    rw [le_effectiveWait_iff hn, Int.le_ediv_iff_mul_le (by omega)]
  have hnearest (k : ℤ) (hk : Feasible duration hold k) :=
    nearest_of_neighbours (fun m n hm hlt => effectiveWait_lt hwindow hm hlt) hcross hk.1
      ((feasible_iff hhold hk.1).mp hk)
  have hfeasible (m : ℤ) : Feasible duration hold
      (max 2 (min ((duration + 1000) / (hold + 1000)) m)) :=
    (feasible_iff hhold (le_max_left _ _)).mpr (max_le h (min_le_left _ _))
  rcases min_choice
    (nearness (effectiveWait duration hold) wait
      (max 2 (min ((duration + 1000) / (hold + 1000)) ((duration + wait) / (hold + wait)))))
    (nearness (effectiveWait duration hold) wait
      (max 2 (min ((duration + 1000) / (hold + 1000)) ((duration + wait) / (hold + wait) + 1))))
    with hmin | hmin
  · exact ⟨_, ⟨hfeasible _, fun k hk => hmin ▸ hnearest k hk⟩, hmin⟩
  · exact ⟨_, ⟨hfeasible _, fun k hk => hmin ▸ hnearest k hk⟩, hmin⟩

theorem plan_several
    (h : 2 ≤ (max 0 durationUs + 1000) / (clampRapidfireHoldMs holdMs * 1000 + 1000)) :
    ∃ n, planMacroRapidfire durationUs holdMs waitMs =
        some ⟨max 0 durationUs, clampRapidfireHoldMs holdMs * 1000, n⟩ ∧
      Nearest (max 0 durationUs) (clampRapidfireHoldMs holdMs * 1000)
        (clampRapidfireWaitMs waitMs * 1000) n := by
  have hhold := clampRapidfireHoldMs_nonneg holdMs
  have hwait := clampRapidfireWaitMs_pos waitMs
  unfold planMacroRapidfire
  simp only [minRapidfireWaitMs, one_mul]
  generalize clampRapidfireHoldMs holdMs * 1000 = hold at h hhold ⊢
  generalize clampRapidfireWaitMs waitMs * 1000 = wait at hwait ⊢
  generalize max 0 durationUs = duration at h ⊢
  obtain ⟨n, hnearest, hmin⟩ := nearest_min hhold hwait h
  refine ⟨n, ?_, hnearest⟩
  rw [floorDiv_of_pos (by omega), floorDiv_of_pos (by omega : 0 < hold + wait)]
  simp only [Option.bind_eq_bind, Option.bind_some, if_neg (not_lt.mpr h), List.map_cons,
    List.map_nil, List.mapM_cons, List.mapM_nil, waitDistance_eq (le_max_left 2 _),
    Option.pure_def, List.min?_cons, List.min?_nil, Option.elim_some, Option.elim_none, hmin]
  rfl

/-- A wait below the smallest one asks for the smallest one. -/
theorem Nearest.requested {duration hold n k : ℤ}
    (h : Nearest duration hold (clampRapidfireWaitMs waitMs * 1000) n)
    (hk : Feasible duration hold k) :
    |effectiveWait duration hold n - (waitMs * 1000 : ℤ)| ≤
      |effectiveWait duration hold k - (waitMs * 1000 : ℤ)| := by
  have hdistance : |effectiveWait duration hold n - (clampRapidfireWaitMs waitMs * 1000 : ℤ)| ≤
      |effectiveWait duration hold k - (clampRapidfireWaitMs waitMs * 1000 : ℤ)| := by
    rcases Prod.Lex.toLex_le_toLex.mp (h.nearest k hk) with hlt | heq
    · exact le_of_lt hlt
    · exact le_of_eq heq.1
  by_cases hmin : 1 ≤ waitMs
  · have hclamp : clampRapidfireWaitMs waitMs = waitMs := max_eq_right hmin
    rwa [hclamp] at hdistance
  · have hclamp : clampRapidfireWaitMs waitMs = 1 :=
      max_eq_left (le_of_lt (not_le.mp hmin))
    have hleast {m : ℤ} (hm : Feasible duration hold m) :
        ((1 * 1000 : ℤ) : ℚ) ≤ effectiveWait duration hold m := by
      rw [le_effectiveWait_iff hm.1]
      have hfit := hm.2
      unfold minRapidfireWaitMs at hfit
      linarith
    have hbelow : ((waitMs * 1000 : ℤ) : ℚ) ≤ ((1 * 1000 : ℤ) : ℚ) := by
      exact_mod_cast (by omega : waitMs * 1000 ≤ 1 * 1000)
    have hn := hleast h.feasible
    have hk := hleast hk
    rw [hclamp, abs_of_nonneg (sub_nonneg.mpr hn), abs_of_nonneg (sub_nonneg.mpr hk)]
      at hdistance
    rw [abs_of_nonneg (by linarith), abs_of_nonneg (by linarith)]
    linarith

/-- The plan fills its window with pulses that keep the smallest gap, and their number brings
the wait between them as near to the requested one as any that fits. -/
theorem rapidfire_plan_fits_window (durationUs holdMs waitMs : ℤ) (hpositive : 0 < durationUs) :
    ∃ plan pulses, planMacroRapidfire durationUs holdMs waitMs = some plan ∧
      plan.pulses = some pulses ∧ (pulses.length : ℤ) = plan.count ∧
      FillsWindow pulses durationUs (minRapidfireWaitMs * 1000) ∧
      ((∃ n, Feasible durationUs (clampRapidfireHoldMs holdMs * 1000) n) →
        Feasible durationUs (clampRapidfireHoldMs holdMs * 1000) plan.count ∧
          (∀ pulse ∈ pulses, pulse.2 = pulse.1 + clampRapidfireHoldMs holdMs * 1000) ∧
          plan.waitUs = some
            (effectiveWait durationUs (clampRapidfireHoldMs holdMs * 1000) plan.count) ∧
          ∀ n, Feasible durationUs (clampRapidfireHoldMs holdMs * 1000) n →
            |effectiveWait durationUs (clampRapidfireHoldMs holdMs * 1000) plan.count -
                (waitMs * 1000 : ℤ)| ≤
              |effectiveWait durationUs (clampRapidfireHoldMs holdMs * 1000) n -
                (waitMs * 1000 : ℤ)|) ∧
      ((¬ ∃ n, Feasible durationUs (clampRapidfireHoldMs holdMs * 1000) n) →
        pulses = [(0, durationUs)] ∧ plan.waitUs = some 0) := by
  have hhold := clampRapidfireHoldMs_nonneg holdMs
  have hduration : max 0 durationUs = durationUs := max_eq_right (le_of_lt hpositive)
  by_cases hfits : (durationUs + 1000) / (clampRapidfireHoldMs holdMs * 1000 + 1000) < 2
  · have hplan : planMacroRapidfire durationUs holdMs waitMs = _ :=
      plan_single (by rw [hduration]; exact hfits)
    rw [hduration] at hplan
    have hnone : ¬ ∃ n, Feasible durationUs (clampRapidfireHoldMs holdMs * 1000) n := by
      rintro ⟨n, hn⟩
      have hle := (feasible_iff hhold hn.1).mp hn
      have htwo := hn.1
      omega
    exact ⟨_, [(0, durationUs)], hplan, rfl, rfl,
      fillsWindow_single (le_of_lt hpositive) _, fun h => absurd h hnone, fun _ => ⟨rfl, rfl⟩⟩
  · have hfits := not_lt.mp hfits
    obtain ⟨n, hplan, hnearest⟩ : ∃ n, planMacroRapidfire durationUs holdMs waitMs = _ ∧ _ :=
      plan_several (by rw [hduration]; exact hfits)
    rw [hduration] at hplan hnearest
    have hn := hnearest.feasible.1
    refine ⟨_, _, hplan, pulses_eq hn, ?_, fillsWindow_pulses hhold hnearest.feasible,
      fun _ => ⟨hnearest.feasible, ?_, ?_, fun k hk => hnearest.requested hk⟩,
      fun h => absurd ⟨n, hnearest.feasible⟩ h⟩
    · rw [List.length_map, List.length_range]
      exact Int.toNat_of_nonneg (by omega)
    · intro pulse hmem
      obtain ⟨index, -, rfl⟩ := List.mem_map.mp hmem
      rfl
    · unfold MacroRapidfirePlan.waitUs
      rw [if_neg (by simp only; omega), fraction_of_pos (by simp only; omega)]
      rfl

theorem waitDistance_three : waitDistance 100000 20000 20000 3 = some (toLex (0, 3)) := by
  norm_num [waitDistance, fraction]

theorem waitDistance_four : waitDistance 100000 20000 20000 4 = some (toLex (40000 / 3, 4)) := by
  norm_num [waitDistance, fraction]

theorem plan_tenth : planMacroRapidfire 100000 20 20 = some ⟨100000, 20000, 3⟩ := by
  have hlt : (toLex (0, 3) : ℚ ×ₗ ℤ) < toLex (40000 / 3, 4) := Prod.Lex.left _ _ (by norm_num)
  have hmost : floorDiv (max 0 100000 + minRapidfireWaitMs * 1000)
      (clampRapidfireHoldMs 20 * 1000 + minRapidfireWaitMs * 1000) = some 4 := by decide
  have hbelow : floorDiv (max 0 100000 + clampRapidfireWaitMs 20 * 1000)
      (clampRapidfireHoldMs 20 * 1000 + clampRapidfireWaitMs 20 * 1000) = some 3 := by decide
  have hcandidates : [(3 : ℤ), 3 + 1].map (fun n => max 2 (min 4 n)) = [3, 4] := by decide
  have hdistances : [(3 : ℤ), 4].mapM (waitDistance (max 0 100000)
      (clampRapidfireHoldMs 20 * 1000) (clampRapidfireWaitMs 20 * 1000)) =
        some [toLex (0, 3), toLex (40000 / 3, 4)] := by
    have hnear : waitDistance (max 0 100000) (clampRapidfireHoldMs 20 * 1000)
      (clampRapidfireWaitMs 20 * 1000) 3 = _ := waitDistance_three
    have hfar : waitDistance (max 0 100000) (clampRapidfireHoldMs 20 * 1000)
      (clampRapidfireWaitMs 20 * 1000) 4 = _ := waitDistance_four
    rw [List.mapM_cons, List.mapM_cons, hnear, hfar]
    rfl
  have hmin : [(toLex (0, 3) : ℚ ×ₗ ℤ), toLex (40000 / 3, 4)].min? = some (toLex (0, 3)) := by
    rw [List.min?_cons', List.foldl_cons, List.foldl_nil, min_eq_left (le_of_lt hlt)]
  unfold planMacroRapidfire
  simp only [hmost, hbelow, Option.bind_eq_bind, Option.bind_some, hcandidates, hdistances, hmin]
  rfl

theorem rapidfire_plan_fits_window_tenth :
    ∃ plan pulses, planMacroRapidfire 100000 20 20 = some plan ∧ plan.pulses = some pulses ∧
      plan.count = 3 ∧ pulses = [(0, 20000), (40000, 60000), (80000, 100000)] ∧
      FillsWindow pulses 100000 1000 := by
  obtain ⟨plan, pulses, hplan, hpulses, -, hfills, -⟩ :=
    rapidfire_plan_fits_window 100000 20 20 (by decide)
  rw [plan_tenth] at hplan
  cases hplan
  have hpulses' : MacroRapidfirePlan.pulses ⟨100000, 20000, 3⟩ =
      some [(0, 20000), (40000, 60000), (80000, 100000)] := by decide
  rw [hpulses'] at hpulses
  cases hpulses
  exact ⟨_, _, plan_tenth, hpulses', rfl, rfl, hfills⟩

/-! ## The events of a block -/

/- The fields of a stored event that the block reads, `none` where they are missing. -/
structure MacroEvent where
  macroAction : Option Value
  deviceType : Option Value
  type : Option Value
  code : Option Value
  outputId : Option Value
  tUs : Option Value
  durationUs : Option Value
  rapidfireHoldMs : Option Value
  rapidfireWaitMs : Option Value

inductive Raised
  | valueError (message : String)
  | typeError (message : String)
  | keyError (key : String)

structure PulseEvent where
  deviceType : Value
  type : Value
  code : Value
  outputId : Option Value
  value : ℤ
  tUs : ℤ

/- `event.get("device_type") not in {...}`; a set cannot be asked for a list or a dict. -/
def buttonDevice (deviceType : Option Value) : Except Raised Value :=
  match deviceType with
  | some (.arr _) => .error (.typeError "unhashable type: 'list'")
  | some (.obj _) => .error (.typeError "unhashable type: 'dict'")
  | some (.str name) =>
    if name ∈ ["keyboard", "mouse", "gamepad"] then .ok (.str name)
    else .error (.valueError "Macro rapidfire requires a keyboard, mouse, or gamepad button")
  | _ => .error (.valueError "Macro rapidfire requires a keyboard, mouse, or gamepad button")

def field (name : String) (value : Option Value) : Except Raised Value :=
  match value with
  | none => .error (.keyError name)
  | some value => .ok value

def macroEventEndUs (event : MacroEvent) : ℤ :=
  let start := coerceInt event.tUs 0
  match event.macroAction with
  | some (.str "macro_rapidfire") => start + max 0 (coerceInt event.durationUs 0)
  | _ => start

/- The two events of one pulse. -/
def pulseEvents (target : ℤ → ℤ → PulseEvent) (start : ℤ) (pulse : ℤ × ℤ) : List PulseEvent :=
  [target 1 (start + pulse.1), target 0 (start + pulse.2)]

/- The source yields the events one by one; `none` where a division by zero is raised. -/
def macroRapidfireEvents (event : MacroEvent) : Option (Except Raised (List PulseEvent)) :=
  match buttonDevice event.deviceType with
  | .error raised => some (.error raised)
  | .ok deviceType =>
    if coerceInt event.type 0 ≠ 1 then
      some (.error (.valueError "Macro rapidfire requires an EV_KEY target"))
    else
      (planMacroRapidfire (coerceInt event.durationUs 0)
        (coerceInt event.rapidfireHoldMs defaultRapidfireHoldMs)
        (coerceInt event.rapidfireWaitMs defaultRapidfireWaitMs)).bind fun plan =>
      match field "type" event.type, field "code" event.code with
      | .error raised, _ => some (.error raised)
      | _, .error raised => some (.error raised)
      | .ok type, .ok code =>
        let outputId := event.outputId.filter Value.truthy
        plan.pulses.map fun pulses => .ok (pulses.flatMap
          (pulseEvents (fun value tUs => ⟨deviceType, type, code, outputId, value, tUs⟩)
            (coerceInt event.tUs 0)))

/-- Pulses that fill a window, for every duration. -/
theorem plan_fillsWindow (durationUs holdMs waitMs : ℤ) :
    ∃ plan pulses, planMacroRapidfire durationUs holdMs waitMs = some plan ∧
      plan.pulses = some pulses ∧
        FillsWindow pulses (max 0 durationUs) (minRapidfireWaitMs * 1000) := by
  have hhold := clampRapidfireHoldMs_nonneg holdMs
  by_cases hfits : (max 0 durationUs + 1000) / (clampRapidfireHoldMs holdMs * 1000 + 1000) < 2
  · exact ⟨_, _, plan_single hfits, rfl, fillsWindow_single (le_max_left _ _) _⟩
  · obtain ⟨n, hplan, hnearest⟩ := plan_several (not_lt.mp hfits)
    exact ⟨_, _, hplan, pulses_eq hnearest.feasible.1,
      fillsWindow_pulses hhold hnearest.feasible⟩

/-- The events of the pulses come in the order of their times. -/
theorem sorted_pulseEvents {pulses : List (ℤ × ℤ)} {duration minGap : ℤ}
    (hgap : 0 ≤ minGap) (h : FillsWindow pulses duration minGap)
    (target : ℤ → ℤ → PulseEvent) (htarget : ∀ value tUs, (target value tUs).tUs = tUs)
    (start : ℤ) : (pulses.flatMap (pulseEvents target start)).Pairwise (·.tUs ≤ ·.tUs) := by
  rw [List.pairwise_flatMap]
  constructor
  · intro pulse hmem
    unfold pulseEvents
    rw [List.pairwise_pair, htarget, htarget]
    have hpress := (h.within pulse hmem).2.1
    omega
  · refine h.apart.imp_of_mem fun {earlier later} hearlier hlater hapart => ?_
    have hpress := (h.within earlier hearlier).2.1
    have hrelease := (h.within later hlater).2.1
    intro a ha b hb
    have hleft : a.tUs ≤ start + earlier.2 := by
      unfold pulseEvents at ha
      rcases List.mem_pair.mp ha with rfl | rfl
      · rw [htarget]
        omega
      · rw [htarget]
    have hright : start + later.1 ≤ b.tUs := by
      unfold pulseEvents at hb
      rcases List.mem_pair.mp hb with rfl | rfl
      · rw [htarget]
      · rw [htarget]
        omega
    omega

/-- A block expands to events in time order between its start and its end, and only its
checks and a missing code make it fail. -/
theorem macroRapidfireEvents_spec (event : MacroEvent)
    (haction : event.macroAction = some (.str "macro_rapidfire")) :
    ∃ result, macroRapidfireEvents event = some result ∧
      ∀ events, result = .ok events → events.Pairwise (·.tUs ≤ ·.tUs) ∧
        ∀ e ∈ events, coerceInt event.tUs 0 ≤ e.tUs ∧ e.tUs ≤ macroEventEndUs event := by
  have hend : macroEventEndUs event =
      coerceInt event.tUs 0 + max 0 (coerceInt event.durationUs 0) := by
    unfold macroEventEndUs
    rw [haction]
    rfl
  obtain ⟨plan, pulses, hplan, hpulses, hfills⟩ := plan_fillsWindow (coerceInt event.durationUs 0)
    (coerceInt event.rapidfireHoldMs defaultRapidfireHoldMs)
    (coerceInt event.rapidfireWaitMs defaultRapidfireWaitMs)
  unfold macroRapidfireEvents
  simp only [hplan, hpulses, hend, Option.bind_some, Option.map_some]
  split
  · exact ⟨_, rfl, fun events h => by cases h⟩
  · split
    · exact ⟨_, rfl, fun events h => by cases h⟩
    · split
      · exact ⟨_, rfl, fun events h => by cases h⟩
      · exact ⟨_, rfl, fun events h => by cases h⟩
      · refine ⟨_, rfl, fun events h => ?_⟩
        cases h
        refine ⟨sorted_pulseEvents (by decide) hfills _ (fun _ _ => rfl) _, ?_⟩
        intro e he
        obtain ⟨pulse, hmem, he⟩ := List.mem_flatMap.mp he
        obtain ⟨hfrom, hpress, hto⟩ := hfills.within pulse hmem
        unfold pulseEvents at he
        rcases List.mem_pair.mp he with rfl | rfl
        · exact ⟨by simp only; omega, by simp only; omega⟩
        · exact ⟨by simp only; omega, by simp only; omega⟩

end Plan

end Keymasq.Macros.Rapidfire
