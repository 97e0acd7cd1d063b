import Mathlib.Algebra.Group.Prod
import Mathlib.Algebra.Order.Field.Basic
import Mathlib.Data.List.TakeWhile
import Mathlib.Data.Rat.Cast.Order
import Mathlib.Tactic.Linarith
import Mathlib.Tactic.NormNum

/-!
# The contact filter of a touchpad

The steps of a finger are held until it is known that they do not belong to its lift. The faster
the finger was, the shorter they are held, and a step that is due sooner takes those before it
with it.
-/

namespace Keymasq.Analog.TouchpadContact

def settleS : ℚ := 60 / 1000
def settleMinS : ℚ := 20 / 1000
def swipeWindowS : ℚ := 12 / 1000
def liftHoldS : ℚ := 24 / 1000
def speedWindowS : ℚ := 40 / 1000
def slowSpeed : ℚ := 1
def fastSpeed : ℚ := 3

/-- A step of the finger. The time of its arrival is for the proofs. -/
structure Step where
  arrival : ℚ
  dx : ℚ
  dy : ℚ
  deriving DecidableEq

structure Held where
  due : ℚ
  step : Step

/-- One touch. The last two fields are for the proofs: the steps since it settled, and those
given out. -/
structure Contact where
  flushArmedFor : Option ℚ := none
  started : Option ℚ := none
  settled : Bool := false
  position : ℚ × ℚ := (0, 0)
  recent : List (ℚ × ℚ) := []
  held : List Held := []
  steps : List Step := []
  given : List Step := []

/- The loop of `drain`: what stays held, what is due, and its sum. -/
def drainHeld (now : ℚ) (dx dy : ℚ) : List Held → List Held × List Step × (ℚ × ℚ)
  | [] => ([], [], (dx, dy))
  | first :: rest =>
    if first.due ≤ now then
      let (held, due, sum) := drainHeld now (dx + first.step.dx) (dy + first.step.dy) rest
      (held, first.step :: due, sum)
    else (first :: rest, [], (dx, dy))

def drain (contact : Contact) (now : ℚ) : Contact × (ℚ × ℚ) :=
  let (held, due, sum) := drainHeld now 0 0 contact.held
  ({ contact with held, given := contact.given ++ due }, sum)

def nextDue (contact : Contact) : Option ℚ := contact.held.head?.map Held.due

/- Whether the touch still settles. -/
def settles (elapsed swiped : ℚ) : Bool :=
  elapsed < settleS && (elapsed < settleMinS || swiped / swipeWindowS < fastSpeed)

/- A step that is due at `due` is held behind the others. -/
def hold (contact : Contact) (due : ℚ) (step : Step) : Contact :=
  { contact with
    held := contact.held.map (fun held => { held with due := min held.due due }) ++ [⟨due, step⟩]
    steps := contact.steps ++ [step] }

/- `TouchpadContact.move`. -/
def move (hypot : ℚ → ℚ → ℚ) (contact : Contact) (now x y : ℚ) : Contact × (ℚ × ℚ) :=
  match contact.started with
  | none => ({ contact with started := some now, position := (x, y) }, (0, 0))
  | some started =>
    let (dx, dy) := (x - contact.position.1, y - contact.position.2)
    let recent := contact.recent.dropWhile fun seen => now - seen.1 > speedWindowS
    let speed := (recent.map Prod.snd).sum / speedWindowS
    let recent := recent ++ [(now, hypot dx dy)]
    let swiped := ((recent.filter fun seen => now - seen.1 ≤ swipeWindowS).map Prod.snd).sum
    if !contact.settled && settles (now - started) swiped then
      ({ contact with position := (x, y), recent }, (0, 0))
    else
      let slowness := (fastSpeed - speed) / (fastSpeed - slowSpeed)
      let due := now + liftHoldS * max 0 (min 1 slowness)
      drain (hold { contact with position := (x, y), recent, settled := true } due
        ⟨now, dx, dy⟩) now

/-! ## The travel of a touch -/

/-- Where the finger was reported. -/
structure Report where
  arrival : ℚ
  x : ℚ
  y : ℚ
  deriving DecidableEq

def between (previous next : Report) : Step :=
  ⟨next.arrival, next.x - previous.x, next.y - previous.y⟩

def stepsBetween : List Report → List Step
  | previous :: next :: rest => between previous next :: stepsBetween (next :: rest)
  | _ => []

/-- When a step arrived, and how long it is. -/
def distance (hypot : ℚ → ℚ → ℚ) (step : Step) : ℚ × ℚ := (step.arrival, hypot step.dx step.dy)

/-- How far the finger went just before a time. -/
def swiped (hypot : ℚ → ℚ → ℚ) (steps : List Step) (now : ℚ) : ℚ :=
  (((steps.map (distance hypot)).filter fun seen => now - seen.1 ≤ swipeWindowS).map Prod.snd).sum

/-- The reports from the one before the settling step on; `before` are the steps up to the report
that is given, which came after the touch began. -/
def settledFrom (hypot : ℚ → ℚ → ℚ) (started : ℚ) (before : List Step) (previous : Report) :
    List Report → List Report
  | [] => []
  | next :: rest =>
    let steps := before ++ [between previous next]
    if settles (next.arrival - started) (swiped hypot steps next.arrival) then
      settledFrom hypot started steps next rest
    else previous :: next :: rest

/-- The reports of a touch that count, and none before it has settled. -/
def counted (hypot : ℚ → ℚ → ℚ) : List Report → List Report
  | [] => []
  | first :: rest => settledFrom hypot first.arrival [] first rest

/-- How far the finger went from the first report to the last. -/
def travel : List Report → ℚ × ℚ
  | [] => 0
  | first :: rest => ((rest.getLastD first).x - first.x, (rest.getLastD first).y - first.y)

variable {hypot : ℚ → ℚ → ℚ} {reports : List Report}

theorem stepsBetween_concat (previous : Report) (rest : List Report) (last : Report) :
    stepsBetween (previous :: (rest ++ [last])) =
      stepsBetween (previous :: rest) ++ [between (rest.getLastD previous) last] := by
  induction rest generalizing previous with
  | nil => rfl
  | cons next rest ih =>
    rw [List.cons_append, stepsBetween, ih, stepsBetween, List.getLastD_cons, List.cons_append]

theorem settledFrom_last {started : ℚ} {before : List Step} {previous first : Report}
    {rest later : List Report} (h : settledFrom hypot started before previous rest = first :: later) :
    later.getLastD first = rest.getLastD previous := by
  induction rest generalizing before previous with
  | nil => cases h
  | cons next rest ih =>
    unfold settledFrom at h
    dsimp only at h
    split at h
    · rw [ih h, List.getLastD_cons]
    · cases h
      rfl

/-- A touch that has settled counts every further report. -/
theorem settledFrom_concat (started : ℚ) (before : List Step) (previous : Report)
    (rest : List Report) (last : Report) :
    settledFrom hypot started before previous (rest ++ [last]) =
      if settledFrom hypot started before previous rest = [] then
        if settles (last.arrival - started) (swiped hypot
            (before ++ stepsBetween (previous :: (rest ++ [last]))) last.arrival) then []
        else [rest.getLastD previous, last]
      else settledFrom hypot started before previous rest ++ [last] := by
  induction rest generalizing before previous with
  | nil => rfl
  | cons next rest ih =>
    rw [List.cons_append, settledFrom, settledFrom]
    split
    · rw [ih, stepsBetween, List.getLastD_cons, List.append_assoc, List.singleton_append]
    · rw [if_neg (List.cons_ne_nil _ _)]
      rfl

def total (steps : List Step) : ℚ × ℚ := ((steps.map Step.dx).sum, (steps.map Step.dy).sum)

theorem total_append (first second : List Step) :
    total (first ++ second) = total first + total second := by
  unfold total
  rw [List.map_append, List.map_append, List.sum_append, List.sum_append]
  rfl

theorem total_stepsBetween (reports : List Report) :
    total (stepsBetween reports) = travel reports := by
  cases reports with
  | nil => rfl
  | cons previous rest =>
    induction rest generalizing previous with
    | nil => exact Prod.ext (sub_self _).symm (sub_self _).symm
    | cons next rest ih =>
      have hcons : total (stepsBetween (previous :: next :: rest)) =
          (next.x - previous.x, next.y - previous.y) + total (stepsBetween (next :: rest)) := rfl
      rw [hcons, ih]
      unfold travel
      dsimp only
      rw [List.getLastD_cons]
      exact Prod.ext (sub_add_sub_cancel' _ _ _) (sub_add_sub_cancel' _ _ _)

/-! ## Conservation -/

/-- The held steps fall due in order and in time, and no step since the touch settled is missing
or was given out twice. -/
structure Conserved (contact : Contact) : Prop where
  sorted : contact.held.Pairwise fun first second => first.due ≤ second.due
  prompt : ∀ held ∈ contact.held, held.due ≤ held.step.arrival + liftHoldS
  partition : contact.steps = contact.given ++ contact.held.map Held.step

theorem conserved_new : Conserved {} where
  sorted := List.Pairwise.nil
  prompt held hmem := by cases hmem
  partition := rfl

variable {contact : Contact}

theorem drainHeld_partition (now dx dy : ℚ) (held : List Held) :
    (drainHeld now dx dy held).2.1 ++ (drainHeld now dx dy held).1.map Held.step =
      held.map Held.step := by
  induction held generalizing dx dy with
  | nil => rfl
  | cons first rest ih =>
    unfold drainHeld
    split
    · dsimp only
      rw [List.map_cons, List.cons_append, ih]
    · rfl

theorem drainHeld_suffix (now dx dy : ℚ) (held : List Held) :
    (drainHeld now dx dy held).1 <:+ held := by
  induction held generalizing dx dy with
  | nil => exact List.suffix_refl []
  | cons first rest ih =>
    unfold drainHeld
    split
    · exact (ih _ _).trans (List.suffix_cons first rest)
    · exact List.suffix_refl _

theorem drainHeld_sum (now dx dy : ℚ) (held : List Held) :
    (drainHeld now dx dy held).2.2 = (dx, dy) + total (drainHeld now dx dy held).2.1 := by
  induction held generalizing dx dy with
  | nil => exact (add_zero (dx, dy)).symm
  | cons first rest ih =>
    unfold drainHeld
    split
    · dsimp only
      rw [ih]
      unfold total
      rw [List.map_cons, List.map_cons, List.sum_cons, List.sum_cons]
      exact Prod.ext (add_assoc _ _ _) (add_assoc _ _ _)
    · exact (add_zero (dx, dy)).symm

theorem Conserved.drain (h : Conserved contact) (now : ℚ) :
    Conserved (drain contact now).1 where
  sorted := h.sorted.sublist (drainHeld_suffix now 0 0 contact.held).sublist
  prompt held hmem := h.prompt held ((drainHeld_suffix now 0 0 contact.held).subset hmem)
  partition := by
    refine h.partition.trans ?_
    rw [← drainHeld_partition now 0 0 contact.held, ← List.append_assoc]
    rfl

theorem drain_given (contact : Contact) (now : ℚ) :
    total (drain contact now).1.given = total contact.given + (drain contact now).2 := by
  unfold drain
  dsimp only
  have hzero : ((0, 0) : ℚ × ℚ) = 0 := rfl
  rw [total_append, drainHeld_sum, hzero, zero_add]

theorem Conserved.hold (h : Conserved contact) {due : ℚ} (step : Step)
    (hdue : due ≤ step.arrival + liftHoldS) : Conserved (hold contact due step) where
  sorted := by
    unfold TouchpadContact.hold
    rw [List.pairwise_append, List.pairwise_map]
    refine ⟨?_, List.pairwise_singleton _ _, ?_⟩
    · exact h.sorted.imp fun hle => min_le_min_right due hle
    · intro first hfirst second hsecond
      obtain ⟨held, -, rfl⟩ := List.mem_map.mp hfirst
      rw [List.mem_singleton.mp hsecond]
      exact min_le_right _ _
  prompt held hmem := by
    unfold TouchpadContact.hold at hmem
    rcases List.mem_append.mp hmem with hold | hnew
    · obtain ⟨before, hbefore, rfl⟩ := List.mem_map.mp hold
      exact (min_le_left _ _).trans (h.prompt before hbefore)
    · rw [List.mem_singleton.mp hnew]
      exact hdue
  partition := by
    unfold TouchpadContact.hold
    dsimp only
    rw [List.map_append, List.map_map, h.partition, List.append_assoc]
    rfl

theorem due_le (now speed : ℚ) :
    now + liftHoldS * max 0 (min 1 ((fastSpeed - speed) / (fastSpeed - slowSpeed))) ≤
      now + liftHoldS := by
  have hunit : max 0 (min 1 ((fastSpeed - speed) / (fastSpeed - slowSpeed))) ≤ 1 :=
    max_le zero_le_one (min_le_left _ _)
  have hhold : 0 ≤ liftHoldS := by
    unfold liftHoldS
    norm_num
  have hle := mul_le_mul_of_nonneg_left hunit hhold
  rw [mul_one] at hle
  exact add_le_add_right hle now

/-! ## A report -/

theorem Conserved.move (hypot : ℚ → ℚ → ℚ) (h : Conserved contact) (now x y : ℚ) :
    Conserved (move hypot contact now x y).1 := by
  unfold TouchpadContact.move
  split
  · exact ⟨h.sorted, h.prompt, h.partition⟩
  · dsimp only
    split
    · exact ⟨h.sorted, h.prompt, h.partition⟩
    · have hmoved (recent : List (ℚ × ℚ)) :
          Conserved { contact with position := (x, y), recent, settled := true } :=
        ⟨h.sorted, h.prompt, h.partition⟩
      exact ((hmoved _).hold ⟨now, x - contact.position.1, y - contact.position.2⟩
        (due_le now _)).drain now

/-- The filter knows what the reports say: where the finger is and how fast it was, whether the
touch has settled, and its steps since. -/
structure Filtered (hypot : ℚ → ℚ → ℚ) (reports : List Report) (contact : Contact) : Prop where
  started : contact.started = reports.head?.map Report.arrival
  position : ∀ last ∈ reports.getLast?, contact.position = (last.x, last.y)
  recent : ∃ old, (stepsBetween reports).map (distance hypot) = old ++ contact.recent ∧
    ∀ seen ∈ old, ∀ last ∈ reports.getLast?, speedWindowS < last.arrival - seen.1
  settled : contact.settled = true ↔ counted hypot reports ≠ []
  steps : contact.steps = stepsBetween (counted hypot reports)

theorem filtered_new (hypot : ℚ → ℚ → ℚ) : Filtered hypot [] {} where
  started := rfl
  position last hlast := by cases hlast
  recent := ⟨[], rfl, fun seen hseen => by cases hseen⟩
  settled := ⟨fun h => (by cases h), fun h => absurd rfl h⟩
  steps := rfl

/-- What is older than the window of the speed is older than that of a swipe. -/
theorem swiped_recent {steps : List Step} {old recent : List (ℚ × ℚ)} {now : ℚ}
    (hrecent : steps.map (distance hypot) = old ++ recent)
    (hold : ∀ seen ∈ old, speedWindowS < now - seen.1) :
    swiped hypot steps now =
      ((recent.filter fun seen => now - seen.1 ≤ swipeWindowS).map Prod.snd).sum := by
  have hwindows : swipeWindowS ≤ speedWindowS := by
    unfold swipeWindowS speedWindowS
    norm_num
  have hnone : (old.filter fun seen => now - seen.1 ≤ swipeWindowS) = [] := by
    rw [List.filter_eq_nil_iff]
    intro seen hseen hle
    exact absurd (of_decide_eq_true hle) (not_le.mpr (hwindows.trans_lt (hold seen hseen)))
  unfold swiped
  rw [hrecent, List.filter_append, hnone, List.nil_append]

theorem Filtered.move (h : Filtered hypot reports contact) {now : ℚ}
    (hpast : ∀ last ∈ reports.getLast?, last.arrival ≤ now) (x y : ℚ) :
    Filtered hypot (reports ++ [⟨now, x, y⟩]) (move hypot contact now x y).1 := by
  have hlast : ∀ last ∈ (reports ++ [(⟨now, x, y⟩ : Report)]).getLast?, last = ⟨now, x, y⟩ := by
    intro last hlast
    rw [List.getLast?_concat, Option.mem_some_iff] at hlast
    exact hlast.symm
  cases reports with
  | nil =>
    have hstarted : contact.started = none := h.started
    obtain ⟨old, hold, -⟩ := h.recent
    obtain ⟨-, hrecent⟩ := List.append_eq_nil_iff.mp hold.symm
    unfold TouchpadContact.move
    rw [hstarted]
    refine ⟨rfl, fun last hmem => ?_, ⟨[], hrecent.symm, fun seen hseen => by cases hseen⟩,
      h.settled, h.steps⟩
    rw [hlast last hmem]
  | cons first rest =>
    have hstarted : contact.started = some first.arrival := h.started
    have hmem : rest.getLastD first ∈ (first :: rest).getLast? := by
      rw [List.getLast?_cons, Option.mem_some_iff, List.getLastD_eq_getLast?]
    have hposition := h.position _ hmem
    generalize hprevious : rest.getLastD first = previous at hmem hposition
    obtain ⟨old, hold, hfar⟩ := h.recent
    -- what leaves the window now is as old as what left it before
    let stale : ℚ × ℚ → Bool := fun seen => decide (now - seen.1 > speedWindowS)
    have hsteps : stepsBetween (first :: rest ++ [⟨now, x, y⟩]) =
        stepsBetween (first :: rest) ++ [between previous ⟨now, x, y⟩] := by
      rw [List.cons_append, stepsBetween_concat, hprevious]
    have hrecent : (stepsBetween (first :: rest ++ [⟨now, x, y⟩])).map (distance hypot) =
        (old ++ contact.recent.takeWhile stale) ++ (contact.recent.dropWhile stale ++
          [(now, hypot (x - previous.x) (y - previous.y))]) := by
      rw [hsteps, List.map_append, hold, List.append_assoc, List.append_assoc,
        ← List.append_assoc (contact.recent.takeWhile stale), List.takeWhile_append_dropWhile]
      rfl
    have hstale : ∀ seen ∈ old ++ contact.recent.takeWhile stale,
        speedWindowS < now - seen.1 := by
      intro seen hseen
      rcases List.mem_append.mp hseen with hseen | hseen
      · exact (hfar seen hseen previous hmem).trans_le (sub_le_sub_right (hpast previous hmem) _)
      · have hleaves : stale seen = true := List.mem_takeWhile_imp hseen
        exact of_decide_eq_true hleaves
    have hswiped := swiped_recent hrecent hstale
    have hcounted : counted hypot (first :: rest ++ [⟨now, x, y⟩]) =
        if counted hypot (first :: rest) = [] then
          if settles (now - first.arrival) (swiped hypot
              (stepsBetween (first :: rest ++ [⟨now, x, y⟩])) now) then []
          else [previous, ⟨now, x, y⟩]
        else counted hypot (first :: rest) ++ [⟨now, x, y⟩] := by
      rw [← hprevious]
      exact settledFrom_concat first.arrival [] first rest ⟨now, x, y⟩
    unfold TouchpadContact.move
    rw [hstarted, hposition]
    dsimp only
    rw [← hswiped]
    have hstarts : some first.arrival = (first :: rest ++ [(⟨now, x, y⟩ : Report)]).head?.map
        Report.arrival := rfl
    have hplaced : ∀ last ∈ (first :: rest ++ [(⟨now, x, y⟩ : Report)]).getLast?,
        (x, y) = (last.x, last.y) := fun last hmem => by rw [hlast last hmem]
    have hfar : ∀ seen ∈ old ++ contact.recent.takeWhile stale,
        ∀ last ∈ (first :: rest ++ [(⟨now, x, y⟩ : Report)]).getLast?,
          speedWindowS < last.arrival - seen.1 := fun seen hseen last hmem => by
      rw [hlast last hmem]
      exact hstale seen hseen
    split
    case isTrue hsettles =>
      rw [Bool.and_eq_true, Bool.not_eq_true'] at hsettles
      obtain ⟨hunsettled, hsettles⟩ := hsettles
      have hnone : counted hypot (first :: rest) = [] := by
        by_contra hsome
        exact Bool.false_ne_true (hunsettled.symm.trans (h.settled.mpr hsome))
      rw [if_pos hnone, if_pos hsettles] at hcounted
      refine ⟨hstarts, hplaced, ⟨_, hrecent, hfar⟩, ?_, ?_⟩
      · rw [hcounted]
        exact iff_of_false (Bool.eq_false_iff.mp hunsettled) fun hne => hne rfl
      · rw [hcounted, ← hnone]
        exact h.steps
    case isFalse hsettles =>
      have hcounts : counted hypot (first :: rest ++ [⟨now, x, y⟩]) ≠ [] ∧
          contact.steps ++ [between previous ⟨now, x, y⟩] =
            stepsBetween (counted hypot (first :: rest ++ [⟨now, x, y⟩])) := by
        rw [hcounted, h.steps]
        cases hcount : counted hypot (first :: rest) with
        | nil =>
          have hunsettled : contact.settled = false :=
            Bool.eq_false_iff.mpr fun hsettled => h.settled.mp hsettled hcount
          rw [hunsettled, Bool.not_false, Bool.true_and] at hsettles
          rw [if_pos rfl, if_neg hsettles]
          exact ⟨List.cons_ne_nil _ _, rfl⟩
        | cons start later =>
          rw [if_neg (List.cons_ne_nil _ _), List.cons_append, stepsBetween_concat,
            settledFrom_last hcount, hprevious]
          exact ⟨List.cons_ne_nil _ _, rfl⟩
      exact ⟨hstarts, hplaced, ⟨_, hrecent, hfar⟩, iff_of_true rfl hcounts.1, hcounts.2⟩

theorem move_given (hypot : ℚ → ℚ → ℚ) (contact : Contact) (now x y : ℚ) :
    total (move hypot contact now x y).1.given =
      total contact.given + (move hypot contact now x y).2 := by
  unfold move
  cases contact.started with
  | none => exact (add_zero _).symm
  | some started =>
    dsimp only
    split
    · exact (add_zero _).symm
    · rw [drain_given]
      rfl

/-- Steps are only given out after those before them. -/
theorem move_extends (hypot : ℚ → ℚ → ℚ) (contact : Contact) (now x y : ℚ) :
    contact.given <+: (move hypot contact now x y).1.given := by
  unfold move
  cases contact.started with
  | none => exact List.prefix_refl _
  | some started =>
    dsimp only
    split
    · exact List.prefix_refl _
    · exact List.prefix_append _ _

theorem move_flushArmedFor (hypot : ℚ → ℚ → ℚ) (contact : Contact) (now x y : ℚ) :
    (move hypot contact now x y).1.flushArmedFor = contact.flushArmedFor := by
  unfold move
  cases contact.started with
  | none => rfl
  | some started =>
    dsimp only
    split
    · rfl
    · rfl

theorem Filtered.drain (h : Filtered hypot reports contact) (now : ℚ) :
    Filtered hypot reports (drain contact now).1 :=
  ⟨h.started, h.position, h.recent, h.settled, h.steps⟩

theorem Filtered.arm (h : Filtered hypot reports contact) (flushArmedFor : Option ℚ) :
    Filtered hypot reports { contact with flushArmedFor } :=
  ⟨h.started, h.position, h.recent, h.settled, h.steps⟩

theorem Conserved.arm (h : Conserved contact) (flushArmedFor : Option ℚ) :
    Conserved { contact with flushArmedFor } :=
  ⟨h.sorted, h.prompt, h.partition⟩

end Keymasq.Analog.TouchpadContact
