import Keymasq.Analog.Curves

/-!
# Moving the pointer within an area

A stick in area mode stands for a displacement of the pointer. Each report emits the whole
steps between the displacement before and now, and carries the rest over. When reports were
lost, the stick is taken up again where it is, without a step.
-/

namespace Keymasq.Analog.AreaMouse
open Curves

/-- The range and calibration of one axis. -/
structure Axis where
  minimum : ℤ := defaultStickMin
  maximum : ℤ := defaultStickMax
  center : Option ℤ := none
  invert : Bool := false

def Axis.value (axis : Axis) (raw : ℤ) : ℚ :=
  normalizeAxisValue raw axis.minimum axis.maximum axis.center axis.invert

structure Motion where
  areaRadiusX : ℚ
  areaRadiusY : ℚ
  deadzone : ℚ := 0
  sensitivity : ℚ := 1
  responseCurve : ℚ := 1
  invertX : Bool := false
  invertY : Bool := false
  areaStartEnabled : Bool := false

/-- A stick control with its axes. `movesCursor` tells whether the cursor can be set. -/
structure Control where
  pow : ℚ → ℚ → ℚ
  xAxis : Axis := {}
  yAxis : Axis := {}
  motion : Motion
  movesCursor : Bool := false

/- `analog_gamepad_output_distance`. -/
def outputDistance (pow : ℚ → ℚ → ℚ) (motion : Motion) (value : ℚ) : ℚ :=
  let value := max 0 (min 1 value)
  let deadzone := max 0 (min (95 / 100) motion.deadzone)
  let sensitivity := max (1 / 10) (min 2 motion.sensitivity)
  let responseCurve := max (1 / 4) (min 4 motion.responseCurve)
  if value ≤ deadzone then 0
  else
    let normalized := (value - deadzone) / max (1 / 1000) (1 - deadzone)
    max 0 (min 1 (pow normalized responseCurve * sensitivity))

def copysign (magnitude sign : ℚ) : ℚ := if sign < 0 then -|magnitude| else |magnitude|

def applySignedAxisOutputCurve (pow : ℚ → ℚ → ℚ) (motion : Motion) (value : ℚ) : ℚ :=
  let value := clampUnit value
  copysign (outputDistance pow motion (max 0 (min 1 |value|))) value

/- `mouse_area_position`, for a stick. -/
def mouseAreaPosition (control : Control) (x y : ℚ) : ℚ × ℚ :=
  let motion := control.motion
  (applySignedAxisOutputCurve control.pow motion x * motion.areaRadiusX *
      (if motion.invertX then -1 else 1),
    applySignedAxisOutputCurve control.pow motion y * motion.areaRadiusY *
      if motion.invertY then -1 else 1)

/-- The displacement that the raw values stand for. -/
def target (control : Control) (raw : ℤ × ℤ) : ℚ × ℚ :=
  mouseAreaPosition control (control.xAxis.value raw.1) (control.yAxis.value raw.2)

def wholeStep (value : ℚ) : ℤ := if 0 ≤ value then ⌊value⌋ else ⌈value⌉

/-- What the runtime keeps about the control, and the steps emitted so far. The last two fields
are for the proofs: where the stick was taken up last, and what had been emitted then. -/
structure State where
  sourceX : Option ℤ := none
  sourceY : Option ℤ := none
  position : Option (ℚ × ℚ) := none
  accumulator : Option (ℚ × ℚ) := none
  pending : Bool := false
  needsRelease : Bool := false
  resyncing : Bool := false
  boundary : Bool := false
  emitted : ℤ × ℤ := (0, 0)
  startedAt : ℚ × ℚ := (0, 0)
  startedWith : ℤ × ℤ := (0, 0)

def State.source (s : State) : Option (ℤ × ℤ) :=
  match s.sourceX, s.sourceY with
  | some x, some y => some (x, y)
  | _, _ => none

/- `_emit_mouse_delta`, with the mouse open. -/
def emitMouseDelta (s : State) (dx dy : ℚ) : State :=
  let accumX := (s.accumulator.getD (0, 0)).1 + dx
  let accumY := (s.accumulator.getD (0, 0)).2 + dy
  { s with
    accumulator := some (accumX - wholeStep accumX, accumY - wholeStep accumY)
    emitted := (s.emitted.1 + wholeStep accumX, s.emitted.2 + wholeStep accumY) }

/- The cursor is put where the area starts; the displacement counts from there. -/
def jumpToStart (control : Control) (s : State) (goal previous : ℚ × ℚ) : State :=
  if goal ≠ (0, 0) ∧ previous = (0, 0) ∧ control.motion.areaStartEnabled = true ∧
      control.movesCursor = true then
    { s with accumulator := none, startedAt := (0, 0), startedWith := s.emitted }
  else s

/- `emit_mouse_area_motion`, for a stick. -/
def emitMouseAreaMotion (control : Control) (s : State) : State :=
  match s.source with
  | none => s
  | some raw =>
    if s.needsRelease then s
    else
      let goal := target control raw
      let previous := s.position.getD (0, 0)
      emitMouseDelta { jumpToStart control s goal previous with position := some goal }
        (goal.1 - previous.1) (goal.2 - previous.2)

/-- How a query of the axes can end: with all values known, with reports that came in the meantime
and were discarded, or not at all. -/
inductive ReadResult
  | snapshot (raw : ℤ × ℤ)
  | drained (snapshot : Option (ℤ × ℤ))
  | failed

/- Lost reports: motion starts again once the axes are known. -/
def loseReports (s : State) : State :=
  let affected := s.position.isSome || s.pending
  { s with
    needsRelease := s.needsRelease || affected
    accumulator := if affected then none else s.accumulator
    position := none
    pending := false
    resyncing := true }

def withSource (s : State) (raw : ℤ × ℤ) : State :=
  { s with sourceX := some raw.1, sourceY := some raw.2 }

/- `read_missing_source_axes`: whether all values are known now. A query that discards no report
finds the values that are known, if only those of other axes are missing. -/
def readMissingSourceAxes (s : State) (result : ReadResult) : State × Bool :=
  match result with
  | .snapshot raw => (if s.source.isSome then s else withSource s raw, true)
  | .drained none => ({ loseReports s with boundary := true }, false)
  | .drained (some raw) => (withSource { loseReports s with boundary := true } raw, false)
  | .failed => (s, false)

/- A stick is taken up where it is. -/
def rebase (control : Control) (s : State) : State :=
  match s.source with
  | none => s
  | some raw =>
    let s := if s.needsRelease then
      { s with position := some (target control raw), needsRelease := false } else s
    { s with startedAt := target control raw, startedWith := s.emitted }

/-- What the reader reads. `atBoundary` marks the last event that is older than the snapshot,
`others` tells whether another area control has a report to flush. -/
inductive Event
  | axisX (value : ℤ) (atBoundary : Bool)
  | axisY (value : ℤ) (atBoundary : Bool)
  | synReport (atBoundary : Bool) (resync flush : ReadResult) (others : Bool)
  | synDropped (atBoundary : Bool)

/- Whether the event is too old to be observed. -/
def isStale (s : State) (atBoundary : Bool) : Bool := s.boundary && !atBoundary

/- `observe_analog_source_event` and `process_analog_event` for an axis event. -/
def axisEvent (s : State) (atBoundary : Bool) (record : State → State) : State :=
  let observed :=
    if isStale s atBoundary then s
    else
      let s := { s with boundary := false }
      if s.resyncing then s else record s
  if observed.resyncing then observed else { observed with pending := true }

/- `observe_analog_source_event` at the end of a report. -/
def observeReport (control : Control) (s : State) (atBoundary : Bool) (result : ReadResult) :
    State :=
  if isStale s atBoundary then s
  else
    let s := { s with boundary := false }
    if s.resyncing then
      let (s, known) := readMissingSourceAxes s result
      if known then rebase control { s with resyncing := false } else s
    else s

/- `process_analog_syn_event`. -/
def processReport (control : Control) (s : State) (result : ReadResult) (others : Bool) : State :=
  if s.resyncing || !(s.pending || others) then s
  else
    let (s, known) := readMissingSourceAxes s result
    if known && s.pending then emitMouseAreaMotion control { s with pending := false } else s

def step (control : Control) (s : State) : Event → State
  | .axisX value atBoundary => axisEvent s atBoundary fun s => { s with sourceX := some value }
  | .axisY value atBoundary => axisEvent s atBoundary fun s => { s with sourceY := some value }
  | .synReport atBoundary resync flush others =>
    processReport control (observeReport control s atBoundary resync) flush others
  | .synDropped atBoundary =>
    if isStale s atBoundary then s
    else { loseReports s with boundary := false, sourceX := none, sourceY := none }

def run (control : Control) (events : List Event) : State := events.foldl (step control) {}

/-! ## What has been emitted -/

/-- The displacement is what was emitted since the stick was taken up, and a rest below one. -/
structure Balanced (position startedAt rest : ℚ) (emitted startedWith : ℤ) : Prop where
  sum : position - startedAt = (emitted - startedWith : ℤ) + rest
  small : |rest| < 1

theorem abs_sub_wholeStep (value : ℚ) : |value - wholeStep value| < 1 := by
  unfold wholeStep
  rw [abs_lt]
  split
  · have hlow := Int.floor_le value
    have hhigh := Int.lt_floor_add_one value
    constructor <;> linarith
  · have hlow := Int.ceil_lt_add_one value
    have hhigh := Int.le_ceil value
    constructor <;> linarith

theorem balanced_start (position : ℚ) (emitted : ℤ) :
    Balanced position position 0 emitted emitted :=
  ⟨by simp, by simp⟩

/-- The whole steps of a change go out, what is left is carried over. -/
theorem Balanced.emit {position startedAt rest : ℚ} {emitted startedWith : ℤ}
    (h : Balanced position startedAt rest emitted startedWith) (goal : ℚ) :
    Balanced goal startedAt (rest + (goal - position) - wholeStep (rest + (goal - position)))
      (emitted + wholeStep (rest + (goal - position))) startedWith := by
  refine ⟨?_, abs_sub_wholeStep _⟩
  have hsum := h.sum
  push_cast at hsum ⊢
  linarith

/-- Where the displacement is what it was at the start, nothing has been emitted since. -/
theorem Balanced.back {position startedAt rest : ℚ} {emitted startedWith : ℤ}
    (h : Balanced position startedAt rest emitted startedWith) (hback : position = startedAt) :
    emitted = startedWith ∧ rest = 0 := by
  have hsum := h.sum
  have hsmall := abs_lt.mp h.small
  rw [hback, sub_self] at hsum
  have hrest : rest = -((emitted - startedWith : ℤ) : ℚ) := by linarith
  have hlow : (-1 : ℤ) < emitted - startedWith := by
    have hcast : ((-1 : ℤ) : ℚ) < ((emitted - startedWith : ℤ) : ℚ) := by
      push_cast at hsum hrest ⊢
      linarith
    exact_mod_cast hcast
  have hhigh : emitted - startedWith < 1 := by
    have hcast : ((emitted - startedWith : ℤ) : ℚ) < ((1 : ℤ) : ℚ) := by
      push_cast at hsum hrest ⊢
      linarith
    exact_mod_cast hcast
  have hzero : emitted - startedWith = 0 := by omega
  rw [hzero] at hrest
  exact ⟨by omega, by rw [hrest]; simp⟩

theorem Balanced.close {position startedAt rest : ℚ} {emitted startedWith : ℤ}
    (h : Balanced position startedAt rest emitted startedWith) :
    |((emitted - startedWith : ℤ) : ℚ) - (position - startedAt)| < 1 := by
  have hrest : ((emitted - startedWith : ℤ) : ℚ) - (position - startedAt) = -rest := by
    rw [h.sum]
    ring
  rw [hrest, abs_neg]
  exact h.small

variable {control : Control} {s : State} {result : ReadResult}

/-- What is known about the control between two events. -/
structure Tracked (control : Control) (s : State) : Prop where
  balancedX : ∀ p ∈ s.position, Balanced p.1 s.startedAt.1 (s.accumulator.getD (0, 0)).1
    s.emitted.1 s.startedWith.1
  balancedY : ∀ p ∈ s.position, Balanced p.2 s.startedAt.2 (s.accumulator.getD (0, 0)).2
    s.emitted.2 s.startedWith.2
  known : s.position.isSome = true → s.source.isSome = true
  current : ∀ p ∈ s.position, s.pending = false →
    ∃ raw, s.source = some raw ∧ p = target control raw
  unmoved : s.position = none → s.accumulator = none
  fresh : s.position = none → s.needsRelease = false → s.resyncing = false →
    s.startedAt = (0, 0) ∧ s.startedWith = s.emitted
  lost : s.resyncing = true → s.position = none ∧ s.pending = false
  released : s.needsRelease = true → s.resyncing = true

theorem tracked_start (control : Control) : Tracked control {} where
  balancedX p hp := by cases hp
  balancedY p hp := by cases hp
  known h := by cases h
  current p hp := by cases hp
  unmoved _ := rfl
  fresh _ _ _ := ⟨rfl, rfl⟩
  lost h := by cases h
  released h := by cases h

theorem Tracked.setBoundary (h : Tracked control s) (boundary : Bool) :
    Tracked control { s with boundary } :=
  ⟨h.balancedX, h.balancedY, h.known, h.current, h.unmoved, h.fresh, h.lost, h.released⟩

/-- Without a position the source values do not matter. -/
theorem Tracked.setSource (h : Tracked control s) (hnone : s.position = none)
    (sourceX sourceY : Option ℤ) : Tracked control { s with sourceX, sourceY } where
  balancedX := h.balancedX
  balancedY := h.balancedY
  known hsome := by
    rw [hnone] at hsome
    cases hsome
  current p hp := by
    rw [hnone] at hp
    cases hp
  unmoved := h.unmoved
  fresh := h.fresh
  lost := h.lost
  released := h.released

theorem Tracked.loseReports (h : Tracked control s) : Tracked control (loseReports s) where
  balancedX p hp := by cases hp
  balancedY p hp := by cases hp
  known hsome := by cases hsome
  current p hp := by cases hp
  unmoved _ := by
    unfold AreaMouse.loseReports
    dsimp only
    split
    · rfl
    case isFalse hunaffected =>
      refine h.unmoved ?_
      cases hposition : s.position with
      | none => rfl
      | some p =>
        rw [hposition] at hunaffected
        exact absurd rfl hunaffected
  fresh _ _ hresyncing := by cases hresyncing
  lost _ := ⟨rfl, rfl⟩
  released _ := rfl

/-- A new value waits for the end of the report. -/
theorem Tracked.record (h : Tracked control s) (hresyncing : s.resyncing = false)
    (sourceX sourceY : Option ℤ)
    (hknown : s.source.isSome = true → ({ s with sourceX, sourceY } : State).source.isSome = true) :
    Tracked control { s with sourceX, sourceY, pending := true } where
  balancedX := h.balancedX
  balancedY := h.balancedY
  known hsome := hknown (h.known hsome)
  current p hp hpending := by cases hpending
  unmoved := h.unmoved
  fresh := h.fresh
  lost hlost := by
    rw [hresyncing] at hlost
    cases hlost
  released := h.released

theorem Tracked.axisEvent (h : Tracked control s) (atBoundary : Bool) {record : State → State}
    (hrecord : ∀ s : State, ∃ sourceX sourceY, record s = { s with sourceX, sourceY } ∧
      (s.source.isSome = true → ({ s with sourceX, sourceY } : State).source.isSome = true)) :
    Tracked control (axisEvent s atBoundary record) := by
  unfold AreaMouse.axisEvent
  obtain ⟨sourceX, sourceY, heq, hknown⟩ := hrecord { s with boundary := false }
  dsimp only
  rw [heq]
  by_cases hstale : isStale s atBoundary = true
  · rw [if_pos hstale]
    by_cases hresyncing : s.resyncing = true
    · rw [if_pos hresyncing]
      exact h
    · rw [if_neg hresyncing]
      exact h.record (Bool.eq_false_iff.mpr hresyncing) s.sourceX s.sourceY id
  · rw [if_neg hstale]
    by_cases hresyncing : s.resyncing = true
    · -- the value is neither observed nor does it wait
      rw [if_pos hresyncing, if_pos hresyncing]
      exact h.setBoundary false
    · rw [if_neg hresyncing, if_neg hresyncing]
      exact (h.setBoundary false).record (Bool.eq_false_iff.mpr hresyncing) _ _ hknown

/-! ## A query of the axes -/

/-- The values are known afterwards, and nothing else has changed. -/
theorem read_known (h : (readMissingSourceAxes s result).2 = true) :
    ∃ raw, (readMissingSourceAxes s result).1.source = some raw ∧
      (readMissingSourceAxes s result).1 = withSource s raw ∧
      (s.source.isSome = true → s.source = some raw) := by
  cases result with
  | snapshot raw =>
    unfold readMissingSourceAxes
    dsimp only
    by_cases hsome : s.source.isSome = true
    · rw [if_pos hsome]
      unfold State.source at hsome ⊢
      split
      case h_1 x y hx hy => exact ⟨(x, y), rfl, by unfold withSource; rw [← hx, ← hy], fun _ => rfl⟩
      case h_2 hnone =>
        split at hsome
        case h_1 x y hx hy => exact absurd hy (hnone x y hx)
        · cases hsome
    · rw [if_neg hsome]
      exact ⟨raw, rfl, rfl, fun h => absurd h hsome⟩
  | drained snapshot =>
    cases snapshot with
    | none => cases h
    | some raw => cases h
  | failed => cases h

theorem Tracked.read_unknown (htracked : Tracked control s)
    (h : (readMissingSourceAxes s result).2 = false) :
    Tracked control (readMissingSourceAxes s result).1 := by
  cases result with
  | snapshot raw => cases h
  | drained snapshot =>
    have hlost := htracked.loseReports.setBoundary true
    cases snapshot with
    | none => exact hlost
    | some raw => exact hlost.setSource rfl _ _
  | failed => exact htracked

theorem Tracked.withSource (h : Tracked control s) {raw : ℤ × ℤ}
    (hsame : s.source.isSome = true → s.source = some raw) :
    Tracked control (withSource s raw) where
  balancedX := h.balancedX
  balancedY := h.balancedY
  known _ := rfl
  current p hp hpending := by
    obtain ⟨known, hknown, htarget⟩ := h.current p hp hpending
    have hraw := hsame (by rw [hknown]; rfl)
    rw [hknown, Option.some.injEq] at hraw
    exact ⟨raw, rfl, by rw [← hraw]; exact htarget⟩
  unmoved := h.unmoved
  fresh := h.fresh
  lost := h.lost
  released := h.released

/-! ## Emitting -/

theorem Tracked.not_needsRelease (h : Tracked control s) (hresyncing : s.resyncing = false) :
    s.needsRelease = false := by
  rw [Bool.eq_false_iff]
  intro hneeds
  rw [h.released hneeds] at hresyncing
  cases hresyncing

/-- What a report starts from: without a position, the stick was at its centre. -/
theorem Tracked.previous (h : Tracked control s) (hresyncing : s.resyncing = false) :
    Balanced (s.position.getD (0, 0)).1 s.startedAt.1 (s.accumulator.getD (0, 0)).1
        s.emitted.1 s.startedWith.1 ∧
      Balanced (s.position.getD (0, 0)).2 s.startedAt.2 (s.accumulator.getD (0, 0)).2
        s.emitted.2 s.startedWith.2 := by
  cases hposition : s.position with
  | some p => exact ⟨h.balancedX p hposition, h.balancedY p hposition⟩
  | none =>
    obtain ⟨hat, hwith⟩ := h.fresh hposition (h.not_needsRelease hresyncing) hresyncing
    rw [hat, hwith, h.unmoved hposition]
    exact ⟨balanced_start 0 _, balanced_start 0 _⟩

theorem jumpToStart_balanced (control : Control) (goal : ℚ × ℚ) {previous : ℚ × ℚ}
    (hx : Balanced previous.1 s.startedAt.1 (s.accumulator.getD (0, 0)).1
      s.emitted.1 s.startedWith.1)
    (hy : Balanced previous.2 s.startedAt.2 (s.accumulator.getD (0, 0)).2
      s.emitted.2 s.startedWith.2) :
    Balanced previous.1 (jumpToStart control s goal previous).startedAt.1
        ((jumpToStart control s goal previous).accumulator.getD (0, 0)).1
        (jumpToStart control s goal previous).emitted.1
        (jumpToStart control s goal previous).startedWith.1 ∧
      Balanced previous.2 (jumpToStart control s goal previous).startedAt.2
        ((jumpToStart control s goal previous).accumulator.getD (0, 0)).2
        (jumpToStart control s goal previous).emitted.2
        (jumpToStart control s goal previous).startedWith.2 := by
  unfold jumpToStart
  split
  case isTrue hjump =>
    rw [hjump.2.1]
    exact ⟨balanced_start 0 _, balanced_start 0 _⟩
  · exact ⟨hx, hy⟩

theorem jumpToStart_source (control : Control) (s : State) (goal previous : ℚ × ℚ) :
    (jumpToStart control s goal previous).source = s.source ∧
      (jumpToStart control s goal previous).resyncing = s.resyncing ∧
      (jumpToStart control s goal previous).needsRelease = s.needsRelease := by
  unfold jumpToStart
  split
  · exact ⟨rfl, rfl, rfl⟩
  · exact ⟨rfl, rfl, rfl⟩

theorem Tracked.emit (h : Tracked control s) (hresyncing : s.resyncing = false) {raw : ℤ × ℤ}
    (hraw : s.source = some raw) :
    Tracked control (emitMouseAreaMotion control { s with pending := false }) := by
  have hneeds := h.not_needsRelease hresyncing
  obtain ⟨hx, hy⟩ := h.previous hresyncing
  obtain ⟨hjumpX, hjumpY⟩ := jumpToStart_balanced (s := { s with pending := false }) control
    (target control raw) hx hy
  obtain ⟨hsource, hresync, hrelease⟩ := jumpToStart_source control
    { s with pending := false } (target control raw) (s.position.getD (0, 0))
  have heq : emitMouseAreaMotion control { s with pending := false } =
      emitMouseDelta { jumpToStart control { s with pending := false } (target control raw)
        (s.position.getD (0, 0)) with position := some (target control raw) }
        ((target control raw).1 - (s.position.getD (0, 0)).1)
        ((target control raw).2 - (s.position.getD (0, 0)).2) := by
    have hknown : ({ s with pending := false } : State).source = some raw := hraw
    unfold emitMouseAreaMotion
    rw [hknown]
    dsimp only
    rw [hneeds, if_neg Bool.false_ne_true]
  rw [heq]
  exact {
    balancedX p hp := by
      cases hp
      exact hjumpX.emit _
    balancedY p hp := by
      cases hp
      exact hjumpY.emit _
    known _ := by
      have hkeep := hsource.trans hraw
      exact Option.isSome_iff_exists.mpr ⟨raw, hkeep⟩
    current p hp _ := by
      cases hp
      exact ⟨raw, hsource.trans hraw, rfl⟩
    unmoved hnone := by cases hnone
    fresh hnone _ _ := by cases hnone
    lost hlost := absurd ((hresync.trans hresyncing).symm.trans hlost) Bool.false_ne_true
    released hreleased := absurd ((hrelease.trans hneeds).symm.trans hreleased)
      Bool.false_ne_true }

/-! ## Steps and runs -/

/-- The values that the stick is taken up at, where the event ends a resync. -/
def recovered (s : State) : Event → Option (ℤ × ℤ)
  | .synReport atBoundary resync _ _ =>
    if isStale s atBoundary || !s.resyncing then none
    else
      let (s, known) := readMissingSourceAxes { s with boundary := false } resync
      if known then s.source else none
  | _ => none

/-- The stick had a position or a report to flush when reports were lost, or is at its centre
when it is taken up. -/
def Recovers (control : Control) (s : State) (event : Event) : Prop :=
  ∀ raw ∈ recovered s event, s.needsRelease = true ∨ target control raw = (0, 0)

def Recoverable (control : Control) : State → List Event → Prop
  | _, [] => True
  | s, event :: events =>
    Recovers control s event ∧ Recoverable control (step control s event) events

theorem Tracked.rebase (h : Tracked control s) (hresyncing : s.resyncing = true) {raw : ℤ × ℤ}
    (hraw : s.source = some raw)
    (hrecovers : s.needsRelease = true ∨ target control raw = (0, 0)) :
    Tracked control (rebase control { s with resyncing := false }) := by
  obtain ⟨hposition, hpending⟩ := h.lost hresyncing
  have haccumulator := h.unmoved hposition
  have hknown : ({ s with resyncing := false } : State).source = some raw := hraw
  unfold AreaMouse.rebase
  rw [hknown]
  dsimp only
  by_cases hneeds : s.needsRelease = true
  · rw [if_pos hneeds]
    exact {
      balancedX p hp := by
        cases hp
        dsimp only
        rw [haccumulator]
        exact balanced_start _ _
      balancedY p hp := by
        cases hp
        dsimp only
        rw [haccumulator]
        exact balanced_start _ _
      known _ := Option.isSome_iff_exists.mpr ⟨raw, hraw⟩
      current p hp _ := by
        cases hp
        exact ⟨raw, hraw, rfl⟩
      unmoved hnone := by cases hnone
      fresh hnone _ _ := by cases hnone
      lost hlost := by cases hlost
      released hreleased := by cases hreleased }
  · rw [if_neg hneeds]
    have hcentre := hrecovers.resolve_left hneeds
    exact {
      balancedX p hp := by
        rw [hposition] at hp
        cases hp
      balancedY p hp := by
        rw [hposition] at hp
        cases hp
      known hsome := by
        rw [hposition] at hsome
        cases hsome
      current p hp _ := by
        rw [hposition] at hp
        cases hp
      unmoved _ := haccumulator
      fresh _ _ _ := ⟨hcentre, rfl⟩
      lost hlost := by cases hlost
      released hreleased := absurd hreleased hneeds }

theorem Tracked.observeReport (h : Tracked control s) (atBoundary : Bool) (result : ReadResult)
    (hrecovers : ∀ raw ∈ recovered s (.synReport atBoundary result .failed false),
      s.needsRelease = true ∨ target control raw = (0, 0)) :
    Tracked control (observeReport control s atBoundary result) := by
  unfold AreaMouse.observeReport
  by_cases hstale : isStale s atBoundary = true
  · rw [if_pos hstale]
    exact h
  · rw [if_neg hstale]
    have hkept := h.setBoundary false
    dsimp only
    by_cases hresyncing : s.resyncing = true
    · rw [if_pos hresyncing]
      by_cases hknown : (readMissingSourceAxes { s with boundary := false } result).2 = true
      · rw [if_pos hknown]
        obtain ⟨raw, hraw, heq, hsame⟩ := read_known hknown
        rw [heq] at hraw ⊢
        refine (hkept.withSource hsame).rebase hresyncing hraw (hrecovers raw ?_)
        have hends : (isStale s atBoundary || !s.resyncing) = false := by
          rw [Bool.eq_false_iff.mpr hstale, hresyncing]
          rfl
        unfold recovered
        dsimp only
        rw [hends, if_neg Bool.false_ne_true, if_pos hknown, heq]
        exact hraw
      · rw [if_neg hknown]
        exact hkept.read_unknown (Bool.eq_false_iff.mpr hknown)
    · rw [if_neg hresyncing]
      exact hkept

theorem Tracked.processReport (h : Tracked control s) (result : ReadResult) (others : Bool) :
    Tracked control (processReport control s result others) := by
  unfold AreaMouse.processReport
  split
  · exact h
  case isFalse hflush =>
    have hresyncing : s.resyncing = false := by
      rw [Bool.eq_false_iff]
      intro hresyncing
      exact hflush (by rw [hresyncing]; rfl)
    dsimp only
    by_cases hknown : (readMissingSourceAxes s result).2 = true
    · obtain ⟨raw, hraw, heq, hsame⟩ := read_known hknown
      have hread := h.withSource hsame
      rw [heq] at hraw ⊢
      split
      · exact hread.emit hresyncing hraw
      · exact hread
    · rw [Bool.eq_false_iff.mpr hknown]
      exact h.read_unknown (Bool.eq_false_iff.mpr hknown)

/-- Setting one of the values keeps both known. -/
theorem source_setX (s : State) (value : ℤ) (h : s.source.isSome = true) :
    ({ s with sourceX := some value } : State).source.isSome = true := by
  unfold State.source at h ⊢
  cases hy : s.sourceY with
  | none =>
    rw [hy] at h
    cases hx : s.sourceX with
    | none =>
      rw [hx] at h
      cases h
    | some x =>
      rw [hx] at h
      cases h
  | some y => rfl

theorem source_setY (s : State) (value : ℤ) (h : s.source.isSome = true) :
    ({ s with sourceY := some value } : State).source.isSome = true := by
  unfold State.source at h ⊢
  cases hx : s.sourceX with
  | none =>
    rw [hx] at h
    cases h
  | some x => rfl

theorem Tracked.step (h : Tracked control s) (event : Event)
    (hrecovers : Recovers control s event) : Tracked control (step control s event) := by
  cases event with
  | axisX value atBoundary =>
    exact h.axisEvent atBoundary fun s => ⟨some value, s.sourceY, rfl, source_setX s value⟩
  | axisY value atBoundary =>
    exact h.axisEvent atBoundary fun s => ⟨s.sourceX, some value, rfl, source_setY s value⟩
  | synReport atBoundary resync flush others =>
    exact (h.observeReport atBoundary resync hrecovers).processReport flush others
  | synDropped atBoundary =>
    unfold AreaMouse.step
    dsimp only
    split
    · exact h
    · exact (h.loseReports.setBoundary false).setSource rfl none none

theorem Tracked.run (h : Tracked control s) (events : List Event)
    (hrecoverable : Recoverable control s events) :
    Tracked control (events.foldl (AreaMouse.step control) s) := by
  induction events generalizing s with
  | nil => exact h
  | cons event events ih => exact ih (h.step event hrecoverable.1) hrecoverable.2

/-! ## Lost reports -/

theorem readMissingSourceAxes_kept (s : State) (result : ReadResult) :
    (readMissingSourceAxes s result).1.emitted = s.emitted ∧
      (s.pending = false → (readMissingSourceAxes s result).1.pending = false) := by
  cases result with
  | snapshot raw =>
    unfold readMissingSourceAxes
    dsimp only
    split
    · exact ⟨rfl, id⟩
    · exact ⟨rfl, id⟩
  | drained snapshot =>
    cases snapshot with
    | none => exact ⟨rfl, fun _ => rfl⟩
    | some raw => exact ⟨rfl, fun _ => rfl⟩
  | failed => exact ⟨rfl, id⟩

theorem rebase_kept (control : Control) (s : State) :
    (rebase control s).emitted = s.emitted ∧ (rebase control s).pending = s.pending := by
  unfold rebase
  cases s.source with
  | none => exact ⟨rfl, rfl⟩
  | some raw =>
    dsimp only
    split
    · exact ⟨rfl, rfl⟩
    · exact ⟨rfl, rfl⟩

theorem observeReport_kept (control : Control) (s : State) (atBoundary : Bool)
    (result : ReadResult) :
    (observeReport control s atBoundary result).emitted = s.emitted ∧
      (s.pending = false → (observeReport control s atBoundary result).pending = false) := by
  unfold observeReport
  split
  · exact ⟨rfl, id⟩
  · dsimp only
    obtain ⟨hemitted, hpending⟩ := readMissingSourceAxes_kept { s with boundary := false } result
    split
    · split
      · obtain ⟨hrebased, hwaiting⟩ := rebase_kept control
          { (readMissingSourceAxes { s with boundary := false } result).1 with resyncing := false }
        exact ⟨hrebased.trans hemitted, fun h => hwaiting.trans (hpending h)⟩
      · exact ⟨hemitted, hpending⟩
    · exact ⟨rfl, id⟩

theorem processReport_quiet (control : Control) (result : ReadResult) (others : Bool)
    (hpending : s.pending = false) :
    (processReport control s result others).emitted = s.emitted := by
  obtain ⟨hemitted, hquiet⟩ := readMissingSourceAxes_kept s result
  unfold processReport
  split
  · rfl
  · dsimp only
    rw [hquiet hpending, Bool.and_false, if_neg Bool.false_ne_true]
    exact hemitted

theorem axisEvent_emitted (s : State) (atBoundary : Bool) {record : State → State}
    (hrecord : ∀ s, (record s).emitted = s.emitted) :
    (axisEvent s atBoundary record).emitted = s.emitted := by
  have hwaits : ∀ observed : State, (if observed.resyncing then observed
      else { observed with pending := true }).emitted = observed.emitted := by
    intro observed
    split
    · rfl
    · rfl
  refine (hwaits _).trans ?_
  split
  · rfl
  · dsimp only
    split
    · rfl
    · exact hrecord _

/-- While the stick is not known, nothing is emitted, and neither is when it is taken up. -/
theorem Tracked.not_replayed (h : Tracked control s) (hresyncing : s.resyncing = true)
    (event : Event) : (AreaMouse.step control s event).emitted = s.emitted := by
  cases event with
  | axisX value atBoundary
  | axisY value atBoundary => exact axisEvent_emitted s atBoundary fun _ => rfl
  | synReport atBoundary resync flush others =>
    obtain ⟨hemitted, hquiet⟩ := observeReport_kept control s atBoundary resync
    exact (processReport_quiet control flush others (hquiet (h.lost hresyncing).2)).trans hemitted
  | synDropped atBoundary =>
    unfold AreaMouse.step
    dsimp only
    split
    · rfl
    · rfl

/-! ## Without loss -/

def ReadResult.loses : ReadResult → Bool
  | .drained _ => true
  | _ => false

def Event.loses : Event → Bool
  | .axisX _ _ => false
  | .axisY _ _ => false
  | .synReport _ resync flush _ => resync.loses || flush.loses
  | .synDropped _ => true

def Event.isAxis : Event → Bool
  | .axisX _ _ => true
  | .axisY _ _ => true
  | _ => false

/-- Nothing was lost: the displacement counts from the centre. -/
structure Undisturbed (s : State) : Prop where
  startedAt : s.startedAt = (0, 0)
  startedWith : s.startedWith = (0, 0)
  resyncing : s.resyncing = false
  boundary : s.boundary = false

theorem Undisturbed.clearBoundary (h : Undisturbed s) :
    ({ s with boundary := false } : State) = s := by
  rw [← h.boundary]

theorem Undisturbed.isStale (h : Undisturbed s) (atBoundary : Bool) :
    isStale s atBoundary = false := by
  unfold AreaMouse.isStale
  rw [h.boundary]
  rfl

theorem Undisturbed.not_resyncing (h : Undisturbed s) : ¬ s.resyncing = true :=
  Bool.eq_false_iff.mp h.resyncing

theorem Undisturbed.jumpToStart (h : Undisturbed s) (control : Control) (goal : ℚ × ℚ)
    {previous : ℚ × ℚ}
    (hx : Balanced previous.1 s.startedAt.1 (s.accumulator.getD (0, 0)).1
      s.emitted.1 s.startedWith.1)
    (hy : Balanced previous.2 s.startedAt.2 (s.accumulator.getD (0, 0)).2
      s.emitted.2 s.startedWith.2) :
    Undisturbed (jumpToStart control s goal previous) := by
  unfold AreaMouse.jumpToStart
  split
  case isTrue hjump =>
    -- back at the centre, all that was emitted has been taken back
    have hemitted : s.emitted = (0, 0) := by
      rw [hjump.2.1, h.startedAt, h.startedWith] at hx hy
      exact Prod.ext (hx.back rfl).1 (hy.back rfl).1
    exact ⟨rfl, hemitted, h.resyncing, h.boundary⟩
  · exact h

theorem Undisturbed.emit (h : Undisturbed s) (htracked : Tracked control s) :
    Undisturbed (emitMouseAreaMotion control { s with pending := false }) := by
  obtain ⟨hx, hy⟩ := htracked.previous h.resyncing
  unfold emitMouseAreaMotion
  split
  · exact ⟨h.startedAt, h.startedWith, h.resyncing, h.boundary⟩
  · split
    · exact ⟨h.startedAt, h.startedWith, h.resyncing, h.boundary⟩
    case h_2 raw _ _ =>
      have hclear : Undisturbed { s with pending := false } :=
        ⟨h.startedAt, h.startedWith, h.resyncing, h.boundary⟩
      have hjump := hclear.jumpToStart control (target control raw) hx hy
      exact ⟨hjump.startedAt, hjump.startedWith, hjump.resyncing, hjump.boundary⟩

theorem Undisturbed.processReport (h : Undisturbed s) (htracked : Tracked control s)
    (hlossless : result.loses = false) (others : Bool) :
    Undisturbed (processReport control s result others) := by
  unfold AreaMouse.processReport
  split
  · exact h
  · cases result with
    | snapshot raw =>
      have hknown : (readMissingSourceAxes s (.snapshot raw)).2 = true := rfl
      obtain ⟨raw, -, heq, hsame⟩ := read_known hknown
      have hread : Undisturbed (withSource s raw) :=
        ⟨h.startedAt, h.startedWith, h.resyncing, h.boundary⟩
      dsimp only
      rw [heq]
      split
      · exact hread.emit (htracked.withSource hsame)
      · exact hread
    | drained snapshot => cases hlossless
    | failed => exact h

theorem Undisturbed.observeReport (h : Undisturbed s) (control : Control) (atBoundary : Bool)
    (result : ReadResult) : observeReport control s atBoundary result = s := by
  unfold AreaMouse.observeReport
  rw [h.isStale, if_neg Bool.false_ne_true]
  dsimp only
  rw [if_neg h.not_resyncing, h.clearBoundary]

theorem Undisturbed.axisEvent (h : Undisturbed s) (atBoundary : Bool) {record : State → State}
    (hrecord : ∀ s : State, ∃ sourceX sourceY, record s = { s with sourceX, sourceY }) :
    Undisturbed (axisEvent s atBoundary record) ∧
      (axisEvent s atBoundary record).pending = true := by
  obtain ⟨sourceX, sourceY, heq⟩ := hrecord s
  unfold AreaMouse.axisEvent
  dsimp only
  rw [h.isStale, if_neg Bool.false_ne_true, if_neg h.not_resyncing, h.clearBoundary, heq]
  dsimp only
  rw [if_neg h.not_resyncing]
  exact ⟨⟨h.startedAt, h.startedWith, h.resyncing, h.boundary⟩, rfl⟩

theorem Undisturbed.step (h : Undisturbed s) (htracked : Tracked control s) {event : Event}
    (hlossless : event.loses = false) : Undisturbed (step control s event) := by
  cases event with
  | axisX value atBoundary =>
    exact (h.axisEvent atBoundary fun s => ⟨some value, s.sourceY, rfl⟩).1
  | axisY value atBoundary =>
    exact (h.axisEvent atBoundary fun s => ⟨s.sourceX, some value, rfl⟩).1
  | synReport atBoundary resync flush others =>
    unfold AreaMouse.step
    dsimp only
    rw [h.observeReport control atBoundary resync]
    exact h.processReport htracked (Bool.or_eq_false_iff.mp hlossless).2 others
  | synDropped atBoundary => cases hlossless

/-- No resync ends where none has begun. -/
theorem Undisturbed.recovers (h : Undisturbed s) (event : Event) : Recovers control s event := by
  intro raw hraw
  unfold recovered at hraw
  cases event with
  | axisX value atBoundary => cases hraw
  | axisY value atBoundary => cases hraw
  | synDropped atBoundary => cases hraw
  | synReport atBoundary resync flush others =>
    dsimp only at hraw
    rw [h.resyncing, Bool.not_false, Bool.or_true, if_pos rfl] at hraw
    cases hraw

theorem Undisturbed.run (h : Undisturbed s) (htracked : Tracked control s) {events : List Event}
    (hlossless : ∀ event ∈ events, event.loses = false) :
    Undisturbed (events.foldl (AreaMouse.step control) s) ∧ Recoverable control s events := by
  induction events generalizing s with
  | nil => exact ⟨h, trivial⟩
  | cons event events ih =>
    have hrecovers : Recovers control s event := h.recovers event
    obtain ⟨hrun, hrecoverable⟩ := ih (h.step htracked (hlossless event List.mem_cons_self))
      (htracked.step event hrecovers) fun e he => hlossless e (List.mem_cons_of_mem event he)
    exact ⟨hrun, hrecovers, hrecoverable⟩

theorem emitMouseAreaMotion_position (control : Control) {raw : ℤ × ℤ} (hraw : s.source = some raw)
    (hneeds : s.needsRelease = false) :
    (emitMouseAreaMotion control s).position = some (target control raw) := by
  unfold emitMouseAreaMotion
  rw [hraw]
  dsimp only
  rw [hneeds, if_neg Bool.false_ne_true]
  rfl

/-- A stick that has moved waits for the end of the report or has a position. -/
theorem Undisturbed.moved (h : Undisturbed s) (htracked : Tracked control s) {event : Event}
    (hlossless : event.loses = false) (hmoved : event.isAxis = true ∨ s.pending = true ∨
      s.position.isSome = true) :
    (AreaMouse.step control s event).pending = true ∨
      (AreaMouse.step control s event).position.isSome = true := by
  cases event with
  | axisX value atBoundary =>
    exact .inl (h.axisEvent atBoundary fun s => ⟨some value, s.sourceY, rfl⟩).2
  | axisY value atBoundary =>
    exact .inl (h.axisEvent atBoundary fun s => ⟨s.sourceX, some value, rfl⟩).2
  | synReport atBoundary resync flush others =>
    have hkept : s.pending = true ∨ s.position.isSome = true :=
      hmoved.resolve_left Bool.false_ne_true
    unfold AreaMouse.step
    dsimp only
    rw [h.observeReport control atBoundary resync]
    unfold AreaMouse.processReport
    split
    · exact hkept
    · cases flush with
      | snapshot raw =>
        have hknown : (readMissingSourceAxes s (.snapshot raw)).2 = true := rfl
        obtain ⟨raw, hraw, heq, -⟩ := read_known hknown
        dsimp only
        rw [heq] at hraw ⊢
        split
        · right
          have hposition := emitMouseAreaMotion_position
            (s := { withSource s raw with pending := false }) control hraw
            (htracked.not_needsRelease h.resyncing)
          exact Option.isSome_iff_exists.mpr ⟨_, hposition⟩
        · exact hkept
      | drained snapshot =>
        obtain ⟨-, hflush⟩ := Bool.or_eq_false_iff.mp hlossless
        cases hflush
      | failed => exact hkept
  | synDropped atBoundary => cases hlossless

theorem Undisturbed.run_moved (h : Undisturbed s) (htracked : Tracked control s)
    {events : List Event} (hlossless : ∀ event ∈ events, event.loses = false)
    (hmoved : (∃ event ∈ events, event.isAxis = true) ∨ s.pending = true ∨
      s.position.isSome = true) :
    (events.foldl (AreaMouse.step control) s).pending = true ∨
      (events.foldl (AreaMouse.step control) s).position.isSome = true := by
  induction events generalizing s with
  | nil =>
    refine hmoved.resolve_left ?_
    intro haxis
    obtain ⟨event, hmem, -⟩ := haxis
    cases hmem
  | cons event events ih =>
    have hfirst := hlossless event List.mem_cons_self
    have hrest : ∀ e ∈ events, e.loses = false :=
      fun e he => hlossless e (List.mem_cons_of_mem event he)
    refine ih (h.step htracked hfirst) (htracked.step event (h.recovers event)) hrest ?_
    rcases hmoved with haxis | hkept
    · obtain ⟨axis, hmem, haxis⟩ := haxis
      rcases List.mem_cons.mp hmem with heq | hlater
      · rw [heq] at haxis
        exact .inr (h.moved htracked hfirst (.inl haxis))
      · exact .inl ⟨axis, hlater, haxis⟩
    · exact .inr (h.moved htracked hfirst (.inr hkept))

/-! ## Drift -/

theorem applySignedAxisOutputCurve_zero (pow : ℚ → ℚ → ℚ) (motion : Motion) :
    applySignedAxisOutputCurve pow motion 0 = 0 := by
  have hclamped : clampUnit 0 = 0 := by
    unfold clampUnit
    norm_num
  have hdistance : outputDistance pow motion (max 0 (min 1 |(0 : ℚ)|)) = 0 := by
    have hdeadzone : max 0 (min 1 (max 0 (min 1 |(0 : ℚ)|))) ≤
        max 0 (min (95 / 100) motion.deadzone) := by
      rw [abs_zero]
      norm_num
    unfold outputDistance
    exact if_pos hdeadzone
  unfold applySignedAxisOutputCurve
  dsimp only
  rw [hclamped, hdistance]
  unfold copysign
  rw [abs_zero, neg_zero, ite_self]

theorem target_centred (control : Control) (raw : ℤ × ℤ) :
    (control.xAxis.value raw.1 = 0 → (target control raw).1 = 0) ∧
      (control.yAxis.value raw.2 = 0 → (target control raw).2 = 0) := by
  unfold target mouseAreaPosition
  dsimp only
  constructor
  · intro hvalue
    rw [hvalue, applySignedAxisOutputCurve_zero, zero_mul, zero_mul]
  · intro hvalue
    rw [hvalue, applySignedAxisOutputCurve_zero, zero_mul, zero_mul]

/-- All motion emitted so far is the displacement, but for less than one step. -/
structure DriftFree (control : Control) (s : State) : Prop where
  close : ∀ p ∈ s.position, |(s.emitted.1 : ℚ) - p.1| < 1 ∧ |(s.emitted.2 : ℚ) - p.2| < 1
  centred : ∀ raw, s.position = some (target control raw) →
    (control.xAxis.value raw.1 = 0 → s.emitted.1 = 0) ∧
      (control.yAxis.value raw.2 = 0 → s.emitted.2 = 0)
  current : s.pending = false → ∀ p ∈ s.position,
    ∃ raw, s.source = some raw ∧ p = target control raw
  still : s.position = none → s.emitted = (0, 0)

/-- The motion emitted since the stick was taken up is the change of its displacement, but for
less than one step. -/
structure Following (control : Control) (s : State) : Prop where
  close : ∀ p ∈ s.position,
    |((s.emitted.1 - s.startedWith.1 : ℤ) : ℚ) - (p.1 - s.startedAt.1)| < 1 ∧
      |((s.emitted.2 - s.startedWith.2 : ℤ) : ℚ) - (p.2 - s.startedAt.2)| < 1
  current : s.pending = false → ∀ p ∈ s.position,
    ∃ raw, s.source = some raw ∧ p = target control raw
  waiting : s.resyncing = true → ∀ event, (step control s event).emitted = s.emitted

theorem Tracked.following (h : Tracked control s) : Following control s where
  close p hp := ⟨(h.balancedX p hp).close, (h.balancedY p hp).close⟩
  current hpending p hp := h.current p hp hpending
  waiting := h.not_replayed

theorem Tracked.driftFree (h : Tracked control s) (hundisturbed : Undisturbed s) :
    DriftFree control s where
  close p hp := by
    have hx := (h.balancedX p hp).close
    have hy := (h.balancedY p hp).close
    rw [hundisturbed.startedAt, hundisturbed.startedWith] at hx hy
    dsimp only at hx hy
    rw [Int.sub_zero, sub_zero] at hx hy
    exact ⟨hx, hy⟩
  centred raw hposition := by
    obtain ⟨hx, hy⟩ := target_centred control raw
    have hbalancedX := h.balancedX _ hposition
    have hbalancedY := h.balancedY _ hposition
    rw [hundisturbed.startedAt, hundisturbed.startedWith] at hbalancedX hbalancedY
    exact ⟨fun hvalue => (hbalancedX.back (hx hvalue)).1,
      fun hvalue => (hbalancedY.back (hy hvalue)).1⟩
  current hpending p hp := h.current p hp hpending
  still hposition := by
    obtain ⟨-, hwith⟩ := h.fresh hposition (h.not_needsRelease hundisturbed.resyncing)
      hundisturbed.resyncing
    rw [← hwith, hundisturbed.startedWith]

/-- Without loss, also by a query of the axes, the emitted motion is the displacement of the stick;
with lost reports it follows the stick from where it was taken up, if no resync finds a displaced
stick that had neither a position nor a report to flush. -/
theorem area_drift_free (control : Control) (events : List Event) :
    ((∀ event ∈ events, event.loses = false) →
      DriftFree control (run control events) ∧
        ((∃ event ∈ events, event.isAxis = true) → (run control events).pending = false →
          (run control events).position.isSome = true)) ∧
    (Recoverable control {} events → Following control (run control events)) := by
  have hstart := tracked_start control
  constructor
  · intro hlossless
    have hundisturbed : Undisturbed {} := ⟨rfl, rfl, rfl, rfl⟩
    obtain ⟨hrun, hrecoverable⟩ := hundisturbed.run hstart hlossless
    refine ⟨(hstart.run events hrecoverable).driftFree hrun, ?_⟩
    intro haxis hpending
    refine (hundisturbed.run_moved hstart hlossless (.inl haxis)).resolve_left ?_
    exact Bool.eq_false_iff.mp hpending
  · intro hrecoverable
    exact (hstart.run events hrecoverable).following

/-- A stick with a full tilt of 400 steps. -/
def wideStick : Control where
  pow x _ := x
  xAxis := { minimum := -100, maximum := 100, center := some 0 }
  yAxis := { minimum := -100, maximum := 100, center := some 0 }
  motion := { areaRadiusX := 400, areaRadiusY := 300 }

/-- The first reports are lost, then the stick reports a change of the other axis. -/
def lostFirst : List Event :=
  [.synDropped false, .synReport false (.snapshot (100, 0)) .failed false, .axisY 100 false,
    .synReport false .failed (.snapshot (100, 100)) false]

theorem wideStick_curve (value : ℚ) (h : value = 0 ∨ value = 1) :
    applySignedAxisOutputCurve wideStick.pow wideStick.motion value = value := by
  rcases h with rfl | rfl
  · exact applySignedAxisOutputCurve_zero _ _
  · norm_num [applySignedAxisOutputCurve, outputDistance, copysign, clampUnit, wideStick]

theorem wideStick_value :
    wideStick.xAxis.value 100 = 1 ∧ wideStick.yAxis.value 100 = 1 ∧
      wideStick.yAxis.value 0 = 0 := by
  norm_num [Axis.value, normalizeAxisValue, stickRange, exactMidpoint, clampUnit, wideStick]

theorem wideStick_target :
    target wideStick (100, 0) = (400, 0) ∧ target wideStick (100, 100) = (400, 300) := by
  obtain ⟨hx, hy, hcentre⟩ := wideStick_value
  unfold target mouseAreaPosition
  dsimp only
  rw [hx, hy, hcentre, wideStick_curve 1 (.inr rfl), wideStick_curve 0 (.inl rfl)]
  norm_num [wideStick]

/-- The full tilt goes out, although the stick was taken up there. -/
theorem lostFirst_run : (run wideStick lostFirst).emitted = (400, 300) ∧
    (run wideStick lostFirst).position = some (400, 300) ∧
    (run wideStick lostFirst).startedAt = (400, 0) ∧
    (run wideStick lostFirst).startedWith = (0, 0) := by
  let s : State :=
    { sourceX := some 100, sourceY := some 100, startedAt := target wideStick (100, 0) }
  have hlast : run wideStick lostFirst = emitMouseAreaMotion wideStick s := rfl
  have hjump : jumpToStart wideStick s (target wideStick (100, 100)) (0, 0) = s :=
    if_neg fun h => Bool.false_ne_true h.2.2.1
  have hemit : emitMouseAreaMotion wideStick s =
      emitMouseDelta { jumpToStart wideStick s (target wideStick (100, 100)) (0, 0) with
        position := some (target wideStick (100, 100)) }
        ((target wideStick (100, 100)).1 - 0) ((target wideStick (100, 100)).2 - 0) := rfl
  rw [hlast, hemit, hjump, wideStick_target.2]
  refine ⟨?_, rfl, wideStick_target.1, rfl⟩
  have hx : wholeStep (0 + (400 - 0)) = 400 := by norm_num [wholeStep]
  have hy : wholeStep (0 + (300 - 0)) = 300 := by norm_num [wholeStep]
  exact Prod.ext (by rw [← hx]; exact Int.zero_add _) (by rw [← hy]; exact Int.zero_add _)

/-- A query of the axes of a stick that moves finds a queued report: it is discarded together with
the one that is to be flushed. -/
def drainedFirst : List Event :=
  [.axisX 50 false, .synReport false .failed (.drained (some (100, 0))) false, .axisX 100 false,
    .synReport true (.snapshot (100, 0)) .failed false]

/-- The stick is taken up where it is, without a step. -/
theorem drainedFirst_run : (run wideStick drainedFirst).emitted = (0, 0) ∧
    (run wideStick drainedFirst).position = some (400, 0) := by
  have hposition :
      (run wideStick drainedFirst).position = some (target wideStick (100, 0)) := rfl
  rw [hposition, wideStick_target.1]
  exact ⟨rfl, rfl⟩

/-- Neither a stick that is not rebased nor one whose reports are discarded is free of drift. -/
theorem not_area_drift_free :
    (¬ ∀ (control : Control) (events : List Event), Following control (run control events)) ∧
    ¬ ∀ (control : Control) (events : List Event),
      (∀ atBoundary, Event.synDropped atBoundary ∉ events) →
        DriftFree control (run control events) := by
  constructor
  · intro hall
    obtain ⟨hemitted, hposition, hat, hwith⟩ := lostFirst_run
    have hclose := ((hall wideStick lostFirst).close _ hposition).1
    rw [hemitted, hat, hwith] at hclose
    norm_num at hclose
  · intro hall
    obtain ⟨hemitted, hposition⟩ := drainedFirst_run
    have hclose := ((hall wideStick drainedFirst (by simp [drainedFirst])).close _ hposition).1
    rw [hemitted] at hclose
    norm_num at hclose

/-- A stick with a report to flush when others are lost is taken up where it is. -/
theorem area_drift_free_lost :
    (∀ event ∈ [Event.axisX 100 false, .synReport false .failed (.snapshot (100, 0)) false],
      event.loses = false) ∧
    DriftFree wideStick (run wideStick
      [.axisX 100 false, .synReport false .failed (.snapshot (100, 0)) false]) ∧
    Recoverable wideStick {} [.axisX 100 false, .synDropped false,
      .synReport false (.snapshot (100, 0)) .failed false, .axisY 100 false,
      .synReport false .failed .failed false] ∧
    Following wideStick (run wideStick [.axisX 100 false, .synDropped false,
      .synReport false (.snapshot (100, 0)) .failed false, .axisY 100 false,
      .synReport false .failed .failed false]) := by
  have hlossless : ∀ event ∈
      [Event.axisX 100 false, .synReport false .failed (.snapshot (100, 0)) false],
      event.loses = false := by decide
  have hrecoverable : Recoverable wideStick {} [.axisX 100 false, .synDropped false,
      .synReport false (.snapshot (100, 0)) .failed false, .axisY 100 false,
      .synReport false .failed .failed false] :=
    ⟨fun _ h => (by cases h), fun _ h => (by cases h), fun _ _ => .inl rfl,
      fun _ h => (by cases h), fun _ h => (by cases h), trivial⟩
  exact ⟨hlossless, ((area_drift_free _ _).1 hlossless).1, hrecoverable,
    (area_drift_free _ _).2 hrecoverable⟩

end Keymasq.Analog.AreaMouse
