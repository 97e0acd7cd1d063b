import Keymasq.Foundation.Rounding
import Mathlib.Tactic.NormNum
import Mathlib.Algebra.Order.Archimedean.Real.Basic
import Mathlib.Analysis.Real.Sqrt

/-!
# Natural cursor moves

A natural move asks the pointer for one small move a frame and reads back where the cursor
is. Speed, response gain, jitter, carried remainders and the one-axis detours only choose
among moves that lie between the reported position and the target; where nothing is left of
them, the smallest move is asked for instead.
-/

namespace Keymasq.Pointer.NaturalMove
open Foundation.Rounding


variable {K : Type} [Field K] [LinearOrder K]

/-- The Euclidean norm of a vector (`math.hypot`). -/
structure Hypot (K : Type) [Field K] [LinearOrder K] where
  dist : K → K → K
  nonneg : ∀ x y, 0 ≤ dist x y
  sq : ∀ x y, dist x y * dist x y = x * x + y * y

inductive Curve
  | linear | natural

/- The cursor goes straight, or follows an edge along one axis. -/
inductive Mode
  | direct | x | y
  deriving DecidableEq

structure Config (K : Type) where
  speedPxS : K
  jitterPx : K
  curve : Curve
  tolerancePx : ℤ
  maxDurationMs : ℤ
  tickHz : K

def defaultTickHz : K := 120
def edgeFollowRetryS : K := 9 / 100
def stuckFrameLimit : ℕ := 8
def approachBrakeFraction : K := 55 / 100
def jitterBrakeFraction : K := 25 / 100
def gainSmoothing : K := 35 / 100
def maxResponseGain : K := 8

def Config.normalized (config : Config K) : Config K :=
  { speedPxS := max 1 config.speedPxS
    jitterPx := max 0 config.jitterPx
    curve := config.curve
    tolerancePx := max 0 config.tolerancePx
    maxDurationMs := max 1 config.maxDurationMs
    tickHz := max 30 (min 240 config.tickHz) }

variable (hypot : Hypot K)

def distanceToTarget (position target : ℤ × ℤ) : K :=
  hypot.dist (target.1 - position.1 : ℤ) (target.2 - position.2 : ℤ)

/-! ## The parts of one frame -/

def curveVelocityScale (curve : Curve) (progress : K) : K :=
  let progress := min 1 (max 0 progress)
  match curve with
  | .linear => 1
  | .natural => max (18 / 100) ((30 * progress * progress * (1 - progress) ^ 2) / (1875 / 1000))

def reliableApproachStepPx (nominalStepPx distance : K) (tolerance : ℤ) (responseGain : K) : K :=
  let remaining := max 1 (distance - (max 0 tolerance : ℤ))
  let brakeStep := max 1 (remaining * approachBrakeFraction)
  let gain := max 1 (min maxResponseGain responseGain)
  max 1 (min nominalStepPx brakeStep / gain)

def effectiveJitterPx (jitterPx distance : K) (tolerance : ℤ) : K :=
  if jitterPx ≤ 0 then 0
  else min jitterPx (max 0 (distance - (max 0 tolerance : ℤ)) * jitterBrakeFraction)

def updatedResponseGain (responseGain : K) (requested actual : ℤ × ℤ) : K :=
  let requestedDistance := hypot.dist (requested.1 : K) requested.2
  if requestedDistance ≤ 0 then responseGain
  else
    let actualAlongRequest :=
      ((actual.1 * requested.1 + actual.2 * requested.2 : ℤ) : K) / requestedDistance
    if actualAlongRequest ≤ 0 then responseGain
    else
      let observedGain := max 1 (min maxResponseGain (actualAlongRequest / requestedDistance))
      max 1 (min maxResponseGain
        (responseGain * (1 - gainSmoothing) + observedGain * gainSmoothing))

def directionForMode (mode : Mode) (error : ℤ × ℤ) : K × K :=
  match mode with
  | .x => (error.1.sign, 0)
  | .y => (0, error.2.sign)
  | .direct =>
    let distance := hypot.dist (error.1 : K) error.2
    if distance ≤ 0 then (0, 0) else (error.1 / distance, error.2 / distance)

def axisErrorDone (mode : Mode) (error : ℤ × ℤ) (tolerance : ℤ) : Bool :=
  match mode with
  | .x => |error.1| ≤ tolerance
  | .y => |error.2| ≤ tolerance
  | .direct => true

/- `draw` is what `random.uniform` returns. -/
def applyPerpendicularJitter (move : K × K) (jitterPx draw : K) : K × K :=
  if jitterPx ≤ 0 then move
  else
    let length := hypot.dist move.1 move.2
    if length ≤ 0 then move
    else (move.1 + (-move.2 / length) * draw, move.2 + (move.1 / length) * draw)

/- What is asked for on one axis never points away from the target nor past it. -/
def clampToError (emit error : ℤ) : ℤ :=
  if 0 < error then max 0 (min emit error)
  else if error < 0 then min 0 (max emit error)
  else 0

def quantizeMove [FloorRing K] (move residual : K × K) (error : ℤ × ℤ) : (ℤ × ℤ) × (K × K) :=
  let next := (residual.1 + move.1, residual.2 + move.2)
  let emit := (roundHalfEven next.1, roundHalfEven next.2)
  ((clampToError emit.1 error.1, clampToError emit.2 error.2),
    (next.1 - emit.1, next.2 - emit.2))

def minimumMove (error : ℤ × ℤ) (mode : Mode) : ℤ × ℤ :=
  match mode with
  | .x => (error.1.sign, 0)
  | .y => (0, error.2.sign)
  | .direct => if |error.2| ≤ |error.1| then (error.1.sign, 0) else (0, error.2.sign)

def nextRouteMode (mode : Mode) (retryAt now : K) (requested actual error : ℤ × ℤ)
    (tolerance : ℤ) : Mode × K :=
  if mode ≠ .direct then (mode, retryAt)
  else
    let xBlocked := requested.1 ≠ 0 ∧ actual.1 = 0 ∧ tolerance < |error.1|
    let yBlocked := requested.2 ≠ 0 ∧ actual.2 = 0 ∧ tolerance < |error.2|
    if xBlocked ∧ tolerance < |error.2| then (.y, now + edgeFollowRetryS)
    else if yBlocked ∧ tolerance < |error.1| then (.x, now + edgeFollowRetryS)
    else (mode, retryAt)

/-! ## The loop -/

/-- What stays the same during one move. -/
structure Task (K : Type) where
  config : Config K
  target : ℤ × ℤ
  startedAt : K
  deadline : K
  nominalDurationS : K

structure Frame (K : Type) where
  position : ℤ × ℤ
  residual : K × K
  mode : Mode
  modeRetryAt : K
  stuckFrames : ℕ
  emittedFrames : ℕ
  responseGain : K

/-- What one turn of the loop reads: the clock, the cancel flag, the draw and the cursor, which
answers to the move it is asked for. -/
structure Reading (K : Type) where
  top : K
  cancelTop : Bool
  now : K
  draw : K
  cancelAfter : Bool
  routeAt : K
  cursor : ℤ × ℤ → ℤ × ℤ → Option (ℤ × ℤ)

inductive Result
  | noDevice
  | unavailable
  | cancelled
  | lost (last : ℤ × ℤ)
  | success (position : ℤ × ℤ) (frames : ℕ)
  | notReached (last : ℤ × ℤ) (frames : ℕ)

def Result.message : Result → Option String
  | .noDevice => some "No mouse uinput device available"
  | .unavailable => some "Realtime cursor position is unavailable"
  | .cancelled => some "Cursor move cancelled"
  | .lost _ => some "Realtime cursor position became unavailable"
  | .success _ _ => none
  | .notReached _ _ => some "Cursor did not reach target"

/-- A move asked for, and the position that was reported before it. -/
structure Emit where
  position : ℤ × ℤ
  move : ℤ × ℤ

def Task.error (task : Task K) (frame : Frame K) : ℤ × ℤ :=
  (task.target.1 - frame.position.1, task.target.2 - frame.position.2)

/- A detour ends when its time is up or its axis is done. -/
def routeMode (task : Task K) (frame : Frame K) (now : K) : Mode :=
  if frame.mode ≠ .direct ∧ (frame.modeRetryAt ≤ now ∨
      axisErrorDone frame.mode (task.error frame) task.config.tolerancePx = true) then .direct
  else frame.mode

/- The mode and the direction of the frame, `none` where there is nowhere to go. -/
def aim (mode : Mode) (error : ℤ × ℤ) : Option (Mode × (K × K)) :=
  if directionForMode hypot mode error ≠ (0, 0) then
    some (mode, directionForMode hypot mode error)
  else if directionForMode hypot .direct error ≠ (0, 0) then
    some (.direct, directionForMode hypot .direct error)
  else none

def stepPx (task : Task K) (frame : Frame K) (now distance : K) : K :=
  let tickS := 1 / task.config.tickHz
  let progress := min 1 (max 0 ((now - task.startedAt) / task.nominalDurationS))
  reliableApproachStepPx
    (max 1 (task.config.speedPxS * tickS * curveVelocityScale task.config.curve progress))
    distance task.config.tolerancePx frame.responseGain

def frameMove [FloorRing K] (task : Task K) (frame : Frame K) (reading : Reading K) (distance : K)
    (mode : Mode) (direction : K × K) : (ℤ × ℤ) × (K × K) :=
  let step := stepPx task frame reading.now distance
  let wanted := applyPerpendicularJitter hypot (direction.1 * step, direction.2 * step)
    (effectiveJitterPx task.config.jitterPx distance task.config.tolerancePx) reading.draw
  let quantized := quantizeMove wanted frame.residual (task.error frame)
  if quantized.1 = (0, 0) then (minimumMove (task.error frame) mode, quantized.2) else quantized

/- How many frames in a row the cursor did not move. -/
def stuckCount (frame : Frame K) (actual : ℤ × ℤ) : ℕ :=
  if actual = (0, 0) then frame.stuckFrames + 1 else 0

/- After the move and the sleep: the cancel flag, the cursor, gain, route and the stuck count. -/
def afterMove (task : Task K) (frame : Frame K) (reading : Reading K) (mode : Mode)
    (move : ℤ × ℤ) (residual : K × K) : Frame K ⊕ Result :=
  if reading.cancelAfter = true then .inr .cancelled
  else
    match reading.cursor frame.position move with
    | none => .inr (.lost frame.position)
    | some nextPosition =>
      let actual := (nextPosition.1 - frame.position.1, nextPosition.2 - frame.position.2)
      let stuckFrames := stuckCount frame actual
      let route := nextRouteMode mode frame.modeRetryAt reading.routeAt move actual
        (task.error frame) task.config.tolerancePx
      if stuckFrameLimit ≤ stuckFrames then
        .inr (.notReached nextPosition (frame.emittedFrames + 1))
      else .inl
        { position := nextPosition
          residual := residual
          mode := route.1
          modeRetryAt := route.2
          stuckFrames := stuckFrames
          emittedFrames := frame.emittedFrames + 1
          responseGain := updatedResponseGain hypot frame.responseGain move actual }

/-- One turn of the loop: the move it asks for, and the next frame or the result. -/
def turn [FloorRing K] (task : Task K) (frame : Frame K) (reading : Reading K) :
    Option Emit × (Frame K ⊕ Result) :=
  let distance := distanceToTarget hypot frame.position task.target
  if task.deadline < reading.top then (none, .inr (.notReached frame.position frame.emittedFrames))
  else if reading.cancelTop = true then (none, .inr .cancelled)
  else if distance ≤ task.config.tolerancePx then
    (none, .inr (.success frame.position frame.emittedFrames))
  else
    match aim hypot (routeMode task frame reading.now) (task.error frame) with
    | none => (none, .inr (.success frame.position frame.emittedFrames))
    | some (mode, direction) =>
      let (move, residual) := frameMove hypot task frame reading distance mode direction
      (some ⟨frame.position, move⟩, afterMove hypot task frame reading mode move residual)

/- The loop over the readings; no result yet where they end before it does. -/
def moveLoop [FloorRing K] (task : Task K) : Frame K → List (Reading K) → List Emit × Option Result
  | _, [] => ([], none)
  | frame, reading :: readings =>
    match turn hypot task frame reading with
    | (emit, .inr result) => (emit.toList, some result)
    | (emit, .inl next) =>
      let rest := moveLoop task next readings
      (emit.toList ++ rest.1, rest.2)

def startTask (config : Config K) (target start : ℤ × ℤ) (startedAt : K) : Task K :=
  let config := config.normalized
  let startDistance := max 1 (distanceToTarget hypot start target)
  { config := config
    target := target
    startedAt := startedAt
    deadline := startedAt + config.maxDurationMs / 1000
    nominalDurationS := max (1 / config.tickHz)
      (min (config.maxDurationMs / 1000) (startDistance / config.speedPxS)) }

def firstFrame (start : ℤ × ℤ) (startedAt : K) : Frame K :=
  { position := start
    residual := (0, 0)
    mode := .direct
    modeRetryAt := startedAt
    stuckFrames := 0
    emittedFrames := 0
    responseGain := 1 }

/- `uinput` is whether there is a mouse; the flags are the two readings before the loop. -/
def moveCursorNaturally [FloorRing K] (uinput : Bool) (target : ℤ × ℤ) (config : Config K)
    (cancelled cancelledAfter : Bool) (cursor : Option (ℤ × ℤ)) (startedAt : K)
    (readings : List (Reading K)) : List Emit × Option Result :=
  if uinput = false then ([], some .noDevice)
  else if cancelled = true then ([], some .cancelled)
  else if cancelledAfter = true then ([], some .cancelled)
  else
    match cursor with
    | none => ([], some .unavailable)
    | some start =>
      moveLoop hypot (startTask hypot config target start startedAt) (firstFrame start startedAt)
        readings

/-! ## Every move goes towards the target -/

/-- On one axis: from where the cursor is at most to the target. -/
def Toward (error move : ℤ) : Prop := 0 ≤ move ∧ move ≤ error ∨ error ≤ move ∧ move ≤ 0

/-- Within the box between the position and the target. -/
def InBox (error move : ℤ × ℤ) : Prop := Toward error.1 move.1 ∧ Toward error.2 move.2

theorem toward_zero (error : ℤ) : Toward error 0 := by
  unfold Toward
  omega

theorem toward_sign (error : ℤ) : Toward error error.sign := by
  unfold Toward
  obtain hneg | hzero | hpos := lt_trichotomy error 0
  · rw [Int.sign_eq_neg_one_of_neg hneg]
    omega
  · rw [hzero, Int.sign_zero]
    omega
  · rw [Int.sign_eq_one_of_pos hpos]
    omega

theorem toward_clampToError (emit error : ℤ) : Toward error (clampToError emit error) := by
  unfold Toward clampToError
  split
  · omega
  · split <;> omega

/-- The mode names an axis on which the target is not reached yet. -/
def Aimed (mode : Mode) (error : ℤ × ℤ) : Prop :=
  match mode with
  | .x => error.1 ≠ 0
  | .y => error.2 ≠ 0
  | .direct => error ≠ (0, 0)

theorem inBox_minimumMove (error : ℤ × ℤ) (mode : Mode) : InBox error (minimumMove error mode) := by
  have hx : InBox error (error.1.sign, 0) := ⟨toward_sign _, toward_zero _⟩
  have hy : InBox error (0, error.2.sign) := ⟨toward_zero _, toward_sign _⟩
  unfold minimumMove
  cases mode with
  | x => exact hx
  | y => exact hy
  | direct =>
    dsimp only
    split
    · exact hx
    · exact hy

variable {mode : Mode}

theorem minimumMove_ne_zero {error : ℤ × ℤ} (h : Aimed mode error) :
    minimumMove error mode ≠ (0, 0) := by
  have hx : error.1 ≠ 0 → (error.1.sign, (0 : ℤ)) ≠ (0, 0) := fun hne heq =>
    hne (Int.sign_eq_zero_iff_zero.mp (Prod.mk.inj heq).1)
  have hy : error.2 ≠ 0 → ((0 : ℤ), error.2.sign) ≠ (0, 0) := fun hne heq =>
    hne (Int.sign_eq_zero_iff_zero.mp (Prod.mk.inj heq).2)
  unfold minimumMove
  cases mode with
  | x => exact hx h
  | y => exact hy h
  | direct =>
    dsimp only
    split
    case isTrue hle =>
      -- the longer side of an error that is not zero is not zero
      refine hx fun hzero => h ?_
      rw [hzero, abs_zero] at hle
      exact Prod.ext hzero (abs_nonpos_iff.mp hle)
    case isFalse hlt =>
      exact hy fun hzero => hlt (by rw [hzero, abs_zero]; exact abs_nonneg _)

theorem aimed_of_direction {error : ℤ × ℤ} (h : directionForMode hypot mode error ≠ (0, 0)) :
    Aimed mode error := by
  unfold directionForMode at h
  cases mode with
  | x
  | y
  | direct => exact fun hzero => h (by simp [hzero])

section
variable [IsStrictOrderedRing K]

theorem hypot_eq_zero {x y : K} (h : hypot.dist x y ≤ 0) : x = 0 ∧ y = 0 := by
  have hzero : hypot.dist x y = 0 := le_antisymm h (hypot.nonneg x y)
  have hsq := hypot.sq x y
  rw [hzero, mul_zero] at hsq
  have hx := mul_self_nonneg x
  have hy := mul_self_nonneg y
  exact ⟨mul_self_eq_zero.mp (by linarith), mul_self_eq_zero.mp (by linarith)⟩

theorem hypot_zero : hypot.dist 0 0 = 0 := by
  have hsq := hypot.sq 0 0
  rw [mul_zero, add_zero] at hsq
  exact mul_self_eq_zero.mp hsq

theorem direction_direct_ne_zero {error : ℤ × ℤ} (h : error ≠ (0, 0)) :
    directionForMode hypot .direct error ≠ (0, 0) := by
  have hpos : ¬ hypot.dist (error.1 : K) error.2 ≤ 0 := by
    intro hle
    obtain ⟨hx, hy⟩ := hypot_eq_zero hypot hle
    exact h (Prod.ext (Int.cast_eq_zero.mp hx) (Int.cast_eq_zero.mp hy))
  intro hzero
  simp only [directionForMode, if_neg hpos] at hzero
  obtain ⟨hx, hy⟩ := Prod.mk.inj hzero
  have hne : hypot.dist (error.1 : K) error.2 ≠ 0 := fun heq => hpos heq.le
  rw [div_eq_zero_iff, or_iff_left hne, Int.cast_eq_zero] at hx hy
  exact h (Prod.ext hx hy)

/-- There is always somewhere to go until the target is reached. -/
theorem aim_isSome (mode : Mode) {error : ℤ × ℤ} (h : error ≠ (0, 0)) :
    ∃ aimed direction, aim hypot mode error = some (aimed, direction) ∧ Aimed aimed error := by
  unfold aim
  by_cases hmode : directionForMode hypot mode error ≠ (0, 0)
  · exact ⟨mode, _, if_pos hmode, aimed_of_direction hypot hmode⟩
  · rw [if_neg hmode, if_pos (direction_direct_ne_zero hypot h)]
    exact ⟨.direct, _, rfl, h⟩

variable [FloorRing K]

omit [IsStrictOrderedRing K] in
theorem frameMove_spec (task : Task K) (frame : Frame K) (reading : Reading K) (distance : K)
    (direction : K × K) (h : Aimed mode (task.error frame)) :
    (frameMove hypot task frame reading distance mode direction).1 ≠ (0, 0) ∧
      InBox (task.error frame) (frameMove hypot task frame reading distance mode direction).1 := by
  unfold frameMove
  dsimp only
  split
  · exact ⟨minimumMove_ne_zero h, inBox_minimumMove _ _⟩
  case isFalse hne => exact ⟨hne, toward_clampToError _ _, toward_clampToError _ _⟩

/-! ## What one turn does -/

/-- The turns that end before a move, and the one that asks for a move. -/
theorem turn_cases (task : Task K) (htolerance : 0 ≤ task.config.tolerancePx) (frame : Frame K)
    (reading : Reading K) :
    (turn hypot task frame reading =
        (none, .inr (.notReached frame.position frame.emittedFrames)) ∧
      task.deadline < reading.top) ∨
    (turn hypot task frame reading = (none, .inr .cancelled) ∧ reading.cancelTop = true) ∨
    (turn hypot task frame reading =
        (none, .inr (.success frame.position frame.emittedFrames)) ∧
      distanceToTarget hypot frame.position task.target ≤ task.config.tolerancePx) ∨
    ∃ mode move residual,
      turn hypot task frame reading =
        (some ⟨frame.position, move⟩, afterMove hypot task frame reading mode move residual) ∧
      move ≠ (0, 0) ∧ InBox (task.error frame) move := by
  unfold turn
  dsimp only
  by_cases hlate : task.deadline < reading.top
  · exact .inl ⟨if_pos hlate, hlate⟩
  rw [if_neg hlate]
  by_cases hcancel : reading.cancelTop = true
  · exact .inr (.inl ⟨if_pos hcancel, hcancel⟩)
  rw [if_neg hcancel]
  by_cases hnear : distanceToTarget hypot frame.position task.target ≤ task.config.tolerancePx
  · exact .inr (.inr (.inl ⟨if_pos hnear, hnear⟩))
  rw [if_neg hnear]
  have herror : task.error frame ≠ (0, 0) := by
    intro hzero
    obtain ⟨hx, hy⟩ := Prod.mk.inj hzero
    apply hnear
    unfold distanceToTarget
    rw [hx, hy, Int.cast_zero, hypot_zero]
    exact_mod_cast htolerance
  obtain ⟨mode, direction, haim, haimed⟩ :=
    aim_isSome hypot (routeMode task frame reading.now) herror
  rw [haim]
  exact .inr (.inr (.inr ⟨mode, _, _, rfl, frameMove_spec hypot task frame reading _ direction
    haimed⟩))

omit [IsStrictOrderedRing K] [FloorRing K] in
/-- A cursor that moves as it is asked to is never stuck. -/
theorem afterMove_obeyed (task : Task K) {frame : Frame K} (reading : Reading K) (mode : Mode)
    {move : ℤ × ℤ} (residual : K × K) (hmove : move ≠ (0, 0))
    (hcursor : reading.cursor frame.position move =
      some (frame.position.1 + move.1, frame.position.2 + move.2)) :
    (afterMove hypot task frame reading mode move residual = .inr .cancelled ∧
      reading.cancelAfter = true) ∨
    ∃ next, afterMove hypot task frame reading mode move residual = .inl next ∧
      next.position = (frame.position.1 + move.1, frame.position.2 + move.2) ∧
      next.emittedFrames = frame.emittedFrames + 1 := by
  unfold afterMove
  by_cases hcancel : reading.cancelAfter = true
  · exact .inl ⟨if_pos hcancel, hcancel⟩
  have hactual : (frame.position.1 + move.1 - frame.position.1,
      frame.position.2 + move.2 - frame.position.2) = move :=
    Prod.ext (add_sub_cancel_left _ _) (add_sub_cancel_left _ _)
  have hstuck : ¬ stuckFrameLimit ≤ stuckCount frame move := by
    unfold stuckCount stuckFrameLimit
    rw [if_neg hmove]
    omega
  rw [if_neg hcancel, hcursor]
  dsimp only
  rw [hactual, if_neg hstuck]
  exact .inr ⟨_, rfl, rfl, rfl⟩

/-! ## The whole move -/

/-- How far it is along both axes. -/
def l1 (error : ℤ × ℤ) : ℕ := error.1.natAbs + error.2.natAbs

def offset (position target : ℤ × ℤ) : ℤ × ℤ := (target.1 - position.1, target.2 - position.2)

/- The cursor moves exactly as it is asked to. -/
def Obeys (reading : Reading K) : Prop :=
  ∀ position move, reading.cursor position move = some (position.1 + move.1, position.2 + move.2)

/- The deadline or a cancel ends the move at this reading. -/
def Stops (task : Task K) (reading : Reading K) : Prop :=
  task.deadline < reading.top ∨ reading.cancelTop = true ∨ reading.cancelAfter = true

/-- Each move starts where the one before it led, and comes closer to the target. -/
def Approaches (target : ℤ × ℤ) : ℤ × ℤ → List Emit → Prop
  | _, [] => True
  | position, e :: es =>
    e.position = position ∧
      l1 (offset (position.1 + e.move.1, position.2 + e.move.2) target) <
        l1 (offset position target) ∧
      Approaches target (position.1 + e.move.1, position.2 + e.move.2) es

theorem l1_lt {position target move : ℤ × ℤ} (hne : move ≠ (0, 0))
    (hbox : InBox (offset position target) move) :
    l1 (offset (position.1 + move.1, position.2 + move.2) target) <
      l1 (offset position target) := by
  have hsome : move.1 ≠ 0 ∨ move.2 ≠ 0 := by
    by_contra hzero
    rw [not_or, not_not, not_not] at hzero
    exact hne (Prod.ext hzero.1 hzero.2)
  unfold InBox Toward offset at hbox
  unfold l1 offset
  dsimp only at hbox ⊢
  omega

theorem Approaches.length_le {target position : ℤ × ℤ} {es : List Emit}
    (h : Approaches target position es) : es.length ≤ l1 (offset position target) := by
  induction es generalizing position with
  | nil => exact Nat.zero_le _
  | cons e es ih =>
    have hrest := ih h.2.2
    have hless := h.2.1
    rw [List.length_cons]
    omega

omit [IsStrictOrderedRing K] in
theorem moveLoop_ended {task : Task K} {frame : Frame K} {reading : Reading K} {emit : Option Emit}
    {result : Result} (h : turn hypot task frame reading = (emit, .inr result))
    (readings : List (Reading K)) :
    moveLoop hypot task frame (reading :: readings) = (emit.toList, some result) := by
  rw [moveLoop, h]

omit [IsStrictOrderedRing K] in
theorem moveLoop_next {task : Task K} {frame next : Frame K} {reading : Reading K}
    {emit : Option Emit} (h : turn hypot task frame reading = (emit, .inl next))
    (readings : List (Reading K)) :
    moveLoop hypot task frame (reading :: readings) =
      (emit.toList ++ (moveLoop hypot task next readings).1,
        (moveLoop hypot task next readings).2) := by
  rw [moveLoop, h]

theorem moveLoop_moves (task : Task K) (htolerance : 0 ≤ task.config.tolerancePx)
    (readings : List (Reading K)) (frame : Frame K) :
    ∀ e ∈ (moveLoop hypot task frame readings).1,
      e.move ≠ (0, 0) ∧ InBox (offset e.position task.target) e.move := by
  induction readings generalizing frame with
  | nil =>
    intro e he
    cases he
  | cons reading readings ih =>
    intro e he
    obtain ⟨hturn, -⟩ | ⟨hturn, -⟩ | ⟨hturn, -⟩ | ⟨mode, move, residual, hturn, hne, hbox⟩ :=
      turn_cases hypot task htolerance frame reading
    · rw [moveLoop_ended hypot hturn] at he
      cases he
    · rw [moveLoop_ended hypot hturn] at he
      cases he
    · rw [moveLoop_ended hypot hturn] at he
      cases he
    cases hafter : afterMove hypot task frame reading mode move residual with
    | inr result =>
      rw [hafter] at hturn
      rw [moveLoop_ended hypot hturn] at he
      rw [List.mem_singleton.mp he]
      exact ⟨hne, hbox⟩
    | inl next =>
      rw [hafter] at hturn
      rw [moveLoop_next hypot hturn] at he
      obtain rfl | hrest := List.mem_cons.mp he
      · exact ⟨hne, hbox⟩
      · exact ih next e hrest

/-- What a run of an obedient cursor comes to. -/
structure Arrives (task : Task K) (frame : Frame K) (readings : List (Reading K))
    (outcome : List Emit × Option Result) : Prop where
  approaches : Approaches task.target frame.position outcome.1
  /- Every reading that does not end the move asks for one. -/
  busy : outcome.2 = none → outcome.1.length = readings.length
  ended : ∀ result ∈ outcome.2, (∃ reading ∈ readings, Stops task reading) ∨
    ∃ position, result = .success position (frame.emittedFrames + outcome.1.length) ∧
      distanceToTarget hypot position task.target ≤ task.config.tolerancePx

theorem moveLoop_arrives (task : Task K) (htolerance : 0 ≤ task.config.tolerancePx)
    (readings : List (Reading K)) (hobeys : ∀ reading ∈ readings, Obeys reading)
    (frame : Frame K) :
    Arrives hypot task frame readings (moveLoop hypot task frame readings) := by
  induction readings generalizing frame with
  | nil =>
    refine ⟨trivial, fun _ => rfl, fun result hresult => ?_⟩
    cases hresult
  | cons reading readings ih =>
    have hhead := List.mem_cons_self (a := reading) (l := readings)
    have hstop (hstops : Stops task reading) (result : Result) :
        Arrives hypot task frame (reading :: readings) ([], some result) :=
      ⟨trivial, fun h => (by cases h), fun _ _ => .inl ⟨reading, hhead, hstops⟩⟩
    obtain ⟨hturn, hlate⟩ | ⟨hturn, hcancel⟩ | ⟨hturn, hnear⟩ |
      ⟨mode, move, residual, hturn, hne, hbox⟩ := turn_cases hypot task htolerance frame reading
    · rw [moveLoop_ended hypot hturn]
      exact hstop (.inl hlate) _
    · rw [moveLoop_ended hypot hturn]
      exact hstop (.inr (.inl hcancel)) _
    · rw [moveLoop_ended hypot hturn]
      exact ⟨trivial, fun h => (by cases h), fun result hresult =>
        .inr ⟨frame.position, (Option.some.inj hresult).symm, hnear⟩⟩
    have hcloser := l1_lt hne hbox
    obtain ⟨hafter, hcancel⟩ | ⟨next, hafter, hposition, hframes⟩ :=
      afterMove_obeyed hypot task reading mode residual hne (hobeys reading hhead _ _)
    · rw [hafter] at hturn
      rw [moveLoop_ended hypot hturn]
      exact ⟨⟨rfl, hcloser, trivial⟩, fun h => (by cases h),
        fun _ _ => .inl ⟨reading, hhead, .inr (.inr hcancel)⟩⟩
    · rw [hafter] at hturn
      rw [moveLoop_next hypot hturn]
      obtain ⟨happroaches, hbusy, hended⟩ :=
        ih (fun r hr => hobeys r (List.mem_cons_of_mem _ hr)) next
      rw [hposition] at happroaches
      refine ⟨⟨rfl, hcloser, happroaches⟩, fun hnone => ?_, fun result hresult => ?_⟩
      · exact congrArg (· + 1) (hbusy hnone)
      · obtain ⟨r, hr, hstops⟩ | ⟨position, hsuccess, hreached⟩ := hended result hresult
        · exact .inl ⟨r, List.mem_cons_of_mem _ hr, hstops⟩
        · refine .inr ⟨position, ?_, hreached⟩
          have hcount : next.emittedFrames + (moveLoop hypot task next readings).1.length =
              frame.emittedFrames + ((moveLoop hypot task next readings).1.length + 1) := by
            rw [hframes]
            omega
          rw [hsuccess, hcount]
          rfl

end

/-! ## A move of three steps -/

noncomputable def realHypot : Hypot ℝ where
  dist x y := Real.sqrt (x * x + y * y)
  nonneg _ _ := Real.sqrt_nonneg _
  sq x y := Real.mul_self_sqrt (add_nonneg (mul_self_nonneg x) (mul_self_nonneg y))

noncomputable def steadyConfig : Config ℝ := ⟨1200, 3 / 10, .natural, 0, 3000, defaultTickHz⟩

/- The clock stands still at the start and the cursor obeys. -/
noncomputable def obedient : Reading ℝ :=
  ⟨0, false, 0, 0, false, 0, fun position move =>
    some (position.1 + move.1, position.2 + move.2)⟩

end Keymasq.Pointer.NaturalMove
