import Mathlib.Algebra.Order.Ring.Rat
import Mathlib.Tactic.Linarith
import Mathlib.Tactic.NormNum
import Mathlib.Tactic.Ring
import Keymasq.Foundation.Transition

/-!
# The timeline of a macro

An iteration of a macro is anchored at its start. Blocking actions and pauses move the
deadlines of its later events by the time that they took, a pause during an action once.
Times are exact seconds, timestamps are microseconds.
-/

namespace Keymasq.Macros.Timeline
open Foundation.Transition

/- `changed` is the event that wakes the player. -/
structure MacroPauseState where
  pausedAt : Option ℚ := none
  elapsed : ℚ := 0
  changed : Bool := false

namespace MacroPauseState

def paused (pause : MacroPauseState) : Bool := pause.pausedAt.isSome

def total (pause : MacroPauseState) (now : ℚ) : ℚ :=
  pause.elapsed + pause.pausedAt.elim 0 fun pausedAt => max 0 (now - pausedAt)

/-- A pause that is paused already stays as it is. -/
def pauseAt (pause : MacroPauseState) (now : ℚ) : MacroPauseState :=
  if pause.paused then pause else { pause with pausedAt := some now, changed := true }

def resumeAt (pause : MacroPauseState) (now : ℚ) : MacroPauseState :=
  { pausedAt := none, elapsed := pause.total now, changed := true }

end MacroPauseState

/- `MacroPlaybackTimeline`; the pause state that it points to is handed to it. -/
structure MacroPlaybackTimeline where
  anchor : ℚ
  speedFactor : ℚ
  blockingOffset : ℚ := 0
  pauseBaseline : ℚ := 0

namespace MacroPlaybackTimeline

def eventDeadline (line : MacroPlaybackTimeline) (timestamp : ℤ) : ℚ :=
  line.anchor + line.blockingOffset + timestamp / line.speedFactor / 1000000

def pauseOffset (line : MacroPlaybackTimeline) (pause : Option MacroPauseState) (now : ℚ) : ℚ :=
  pause.elim 0 fun pause => pause.total now - line.pauseBaseline

def eventDelay (line : MacroPlaybackTimeline) (pause : Option MacroPauseState) (timestamp : ℤ)
    (now : ℚ) : ℚ :=
  max 0 (line.eventDeadline timestamp + line.pauseOffset pause now - now)

def extendForBlockingAction (line : MacroPlaybackTimeline) (elapsed : ℚ) : MacroPlaybackTimeline :=
  { line with blockingOffset := line.blockingOffset + max 0 elapsed }

/-- Blocking actions do not move the end. -/
def nominalEndDeadline (line : MacroPlaybackTimeline) (duration : ℤ) : ℚ :=
  line.anchor + duration / line.speedFactor / 1000000

def nominalEndDelay (line : MacroPlaybackTimeline) (pause : Option MacroPauseState) (duration : ℤ)
    (now : ℚ) : ℚ :=
  max 0 (line.nominalEndDeadline duration + line.pauseOffset pause now - now)

end MacroPlaybackTimeline

/-! ## The player -/

/- Child macros and natural movements are timed by the player, a control action reports the
time that it blocked. -/
inductive EventKind
  | plain
  | timed
  | control

structure MacroEvent where
  timestamp : ℤ
  kind : EventKind := .plain

/- What `wait_until` waits for: an event, or the nominal end of the iteration. -/
inductive Goal
  | event (timestamp : ℤ)
  | nominalEnd (duration : ℤ)

/- How far the player is: between two iterations, before its next event, at the top of the
loop of `wait_until`, asleep in it, past it, at an action that blocks, and in it. -/
inductive Phase
  | between
  | next
  | waiting (goal : Goal)
  | sleeping (goal : Goal) (wakeAt : ℚ)
  | due (goal : Goal)
  | starting (control : Bool)
  | blocking (control : Bool) (startedAt pauseBefore : ℚ)

/- An event that was emitted, or an action that was begun, with the parts of its deadline. -/
structure Emission where
  timestamp : ℤ
  time : ℚ
  anchor : ℚ
  blocked : ℚ
  paused : ℚ

/- The player of one instance. `pausedFor` and `blockedFor` are the times that the clock ran in
this iteration while the macro was paused, and while it was not but an action blocked it;
`pausedAtStart` is the former at the start of the action. -/
structure Player where
  speed : ℚ
  pause : Option MacroPauseState
  timeline : MacroPlaybackTimeline
  events : List MacroEvent := []
  duration : ℤ := 0
  phase : Phase := .between
  now : ℚ
  emitted : List Emission := []
  pausedFor : ℚ := 0
  blockedFor : ℚ := 0
  pausedAtStart : ℚ := 0

/-- The timeline of an iteration that starts now. -/
def newTimeline (speed : ℚ) (pause : Option MacroPauseState) (now : ℚ) : MacroPlaybackTimeline :=
  { anchor := now
    speedFactor := max (1 / 100) speed
    pauseBaseline := pause.elim 0 fun pause => pause.total now }

namespace Player

/-- `play_macro_task`, with or without a pause state. -/
def start (speed : ℚ) (pausable : Bool) (now : ℚ) : Player :=
  let pause := if pausable then some {} else none
  { speed := speed, pause := pause, timeline := newTimeline speed pause now, now := now }

def isPaused (s : Player) : Bool := s.pause.any MacroPauseState.paused

/-- The clock is read again. -/
def advance (s : Player) (now : ℚ) : Player :=
  { s with
    now := now
    pausedFor := s.pausedFor + if s.isPaused then now - s.now else 0
    blockedFor := s.blockedFor +
      match s.phase with
      | .blocking false _ _ => if s.isPaused then 0 else now - s.now
      | _ => 0 }

def delay (s : Player) : Goal → ℚ
  | .event timestamp => s.timeline.eventDelay s.pause timestamp s.now
  | .nominalEnd duration => s.timeline.nominalEndDelay s.pause duration s.now

/-- The wait for a goal begins; without a pause state it is a sleep. -/
def await (s : Player) (goal : Goal) (after : Phase) : Player :=
  match s.pause with
  | some _ => { s with phase := .waiting goal }
  | none =>
    if s.delay goal < 1 / 2000 then { s with phase := after }
    else { s with phase := .sleeping goal (s.now + s.delay goal) }

/-- One round of the loop of `wait_until`, while the macro runs. -/
def round (s : Player) (pause : MacroPauseState) (goal : Goal) : Player :=
  if s.delay goal < 1 / 2000 then
    { s with pause := some { pause with changed := false }, phase := .due goal }
  else
    { s with
      pause := some { pause with changed := false }
      phase := .sleeping goal (s.now + s.delay goal) }

def emission (s : Player) (timestamp : ℤ) : Emission :=
  { timestamp := timestamp, time := s.now, anchor := s.timeline.anchor, blocked := s.blockedFor,
    paused := s.pausedFor }

end Player

inductive Action
  | pause
  | resume
  | iterate (events : List MacroEvent) (duration : ℤ)
  | look
  | check
  | wake
  | proceed
  | begin
  | finish (elapsed : ℚ)

def act (s : Player) : Action → Option Player
  | .pause => s.pause.map fun pause => { s with pause := some (pause.pauseAt s.now) }
  | .resume => s.pause.map fun pause => { s with pause := some (pause.resumeAt s.now) }
  | .iterate events duration =>
    match s.phase with
    | .between =>
      if s.isPaused then none
      else
        some { s with
          timeline := newTimeline s.speed s.pause s.now
          events := events
          duration := duration
          phase := .next
          pausedFor := 0
          blockedFor := 0 }
    | _ => none
  | .look =>
    match s.phase, s.events with
    | .next, event :: _ => some (s.await (.event event.timestamp) (.due (.event event.timestamp)))
    | .next, [] => some (s.await (.nominalEnd s.duration) .between)
    | _, _ => none
  | .check =>
    match s.phase, s.pause with
    | .waiting goal, some pause => if pause.paused then none else some (s.round pause goal)
    | _, _ => none
  | .wake =>
    match s.phase, s.pause with
    | .sleeping goal wakeAt, some pause =>
      if pause.changed ∨ wakeAt ≤ s.now then some { s with phase := .waiting goal } else none
    | .sleeping goal wakeAt, none =>
      if wakeAt ≤ s.now then some { s with phase := .due goal } else none
    | _, _ => none
  | .proceed =>
    match s.phase, s.events with
    | .due (.event _), event :: events =>
      let s := { s with events := events, emitted := s.emitted ++ [s.emission event.timestamp] }
      match event.kind with
      | .plain => some { s with phase := .next }
      | .timed => some { s with phase := .starting false }
      | .control => some { s with phase := .starting true }
    | .due (.nominalEnd _), _ => some { s with phase := .between }
    | _, _ => none
  | .begin =>
    match s.phase with
    | .starting control =>
      some { s with
        phase := .blocking control s.now (s.timeline.pauseOffset s.pause s.now)
        pausedAtStart := s.pausedFor }
    | _ => none
  | .finish elapsed =>
    match s.phase with
    | .blocking false startedAt pauseBefore =>
      some { s with
        timeline := s.timeline.extendForBlockingAction
          (s.now - startedAt - (s.timeline.pauseOffset s.pause s.now - pauseBefore))
        phase := .next }
    | .blocking true _ pauseBefore =>
      some { s with
        timeline := s.timeline.extendForBlockingAction
          (elapsed - (s.timeline.pauseOffset s.pause s.now - pauseBefore))
        phase := .next
        blockedFor := s.blockedFor + max 0 (elapsed - (s.pausedFor - s.pausedAtStart)) }
    | _ => none

/-- A step at a time that is not before the last one. -/
def step (s : Player) (a : ℚ × Action) : Option Player :=
  if s.now ≤ a.1 then act (s.advance a.1) a.2 else none

/-! ## Paused time -/

namespace MacroPauseState

theorem total_pauseAt (pause : MacroPauseState) (now : ℚ) :
    (pause.pauseAt now).total now = pause.total now := by
  unfold pauseAt
  split
  · rfl
  · next hpaused =>
    unfold paused at hpaused
    rw [Option.isSome_iff_ne_none, not_not] at hpaused
    simp [total, hpaused]

theorem total_resumeAt (pause : MacroPauseState) (now : ℚ) :
    (pause.resumeAt now).total now = pause.total now := add_zero _

/-- The total grows with the clock while the macro is paused. -/
theorem total_later {pause : MacroPauseState} {now later : ℚ} (hlater : now ≤ later)
    (hsince : ∀ pausedAt, pause.pausedAt = some pausedAt → pausedAt ≤ now) :
    pause.total later = pause.total now + if pause.paused then later - now else 0 := by
  unfold total paused
  cases hpaused : pause.pausedAt with
  | none => simp
  | some pausedAt =>
    have hle := hsince pausedAt hpaused
    rw [Option.elim_some, Option.elim_some, max_eq_right (by linarith), max_eq_right (by linarith),
      Option.isSome_some, if_pos rfl]
    ring

end MacroPauseState

/-! ## The clock of the player -/

/-- The deadline of an event, moved by the blocked and the paused time. -/
def Player.deadline (s : Player) (timestamp : ℤ) : ℚ :=
  s.timeline.anchor + s.blockedFor + timestamp / max (1 / 100) s.speed / 1000000 + s.pausedFor

def Emission.deadline (e : Emission) (speed : ℚ) : ℚ :=
  e.anchor + e.blocked + e.timestamp / max (1 / 100) speed / 1000000 + e.paused

/-- The timeline has counted all that actions have blocked. -/
def Counted (s : Player) : Prop := s.blockedFor = s.timeline.blockingOffset

/-- The player waits for its next event. -/
def Next (s : Player) (timestamp : ℤ) : Prop :=
  ∃ event events, s.events = event :: events ∧ event.timestamp = timestamp

/-- What a phase relies on; an action in progress has blocked what is not counted yet. -/
def Fits (s : Player) : Phase → Prop
  | .blocking control startedAt pauseBefore =>
    pauseBefore = s.pausedAtStart ∧ s.pausedAtStart ≤ s.pausedFor ∧
      s.pausedFor - s.pausedAtStart ≤ s.now - startedAt ∧
      s.blockedFor = s.timeline.blockingOffset +
        if control then 0 else s.now - startedAt - (s.pausedFor - s.pausedAtStart)
  | .waiting (.event timestamp) => Counted s ∧ Next s timestamp
  | .sleeping (.event timestamp) wakeAt =>
    Counted s ∧ Next s timestamp ∧ (s.pause = none → s.deadline timestamp ≤ wakeAt)
  | .due (.event timestamp) =>
    Counted s ∧ Next s timestamp ∧ s.deadline timestamp - s.now < 1 / 2000
  | _ => Counted s

structure Timed (speed : ℚ) (s : Player) : Prop where
  same : s.speed = speed
  factor : s.timeline.speedFactor = max (1 / 100) speed
  since : ∀ pause, s.pause = some pause → ∀ pausedAt, pause.pausedAt = some pausedAt →
    pausedAt ≤ s.now
  offset : s.timeline.pauseOffset s.pause s.now = s.pausedFor
  fits : Fits s s.phase
  emitted : ∀ e ∈ s.emitted, e.deadline speed - 1 / 2000 < e.time

section Clock

variable {speed now : ℚ} {s : Player}

/-- Outside of actions that block, the timeline has the deadline. -/
theorem Timed.eventDeadline (h : Timed speed s) (hcounted : Counted s) (timestamp : ℤ) :
    s.timeline.eventDeadline timestamp + s.timeline.pauseOffset s.pause s.now =
      s.deadline timestamp := by
  unfold MacroPlaybackTimeline.eventDeadline Player.deadline
  rw [h.offset, h.factor, hcounted, h.same]

/-- The delay ends at the deadline. -/
theorem Timed.delay (h : Timed speed s) (hcounted : Counted s) (timestamp : ℤ) :
    s.delay (.event timestamp) = max 0 (s.deadline timestamp - s.now) := by
  change max 0 (_ + _ - s.now) = _
  rw [h.eventDeadline hcounted]

theorem Timed.counted (h : Timed speed s)
    (hphase : ∀ control startedAt pauseBefore, s.phase ≠ .blocking control startedAt pauseBefore) :
    Counted s := by
  have hfits := h.fits
  cases heq : s.phase with
  | blocking control startedAt pauseBefore => exact absurd heq (hphase control startedAt pauseBefore)
  | waiting goal
  | sleeping goal wakeAt
  | due goal =>
    rw [heq] at hfits
    cases goal with
    | event timestamp => exact hfits.1
    | nominalEnd duration => exact hfits
  | _ =>
    rw [heq] at hfits
    exact hfits

/-- Only the phase changes. -/
theorem Timed.to_phase (h : Timed speed s) (phase : Phase) (hfits : Fits s phase) :
    Timed speed { s with phase := phase } :=
  ⟨h.same, h.factor, h.since, h.offset, hfits, h.emitted⟩

/-! ## The clock runs -/

theorem pausedFor_advance (s : Player) (now : ℚ) :
    (s.advance now).pausedFor = s.pausedFor + if s.isPaused then now - s.now else 0 := rfl

theorem blockedFor_advance
    (hphase : ∀ startedAt pauseBefore, s.phase ≠ .blocking false startedAt pauseBefore) :
    (s.advance now).blockedFor = s.blockedFor := by
  unfold Player.advance
  simp only
  exact add_zero _

theorem offset_advance (h : Timed speed s) (hnow : s.now ≤ now) :
    s.timeline.pauseOffset s.pause now = (s.advance now).pausedFor := by
  rw [pausedFor_advance, ← h.offset]
  unfold MacroPlaybackTimeline.pauseOffset Player.isPaused
  cases hpause : s.pause with
  | none => simp
  | some pause =>
    have hlater := MacroPauseState.total_later hnow (h.since pause hpause)
    rw [Option.elim_some, Option.elim_some, Option.any_some, hlater]
    ring

/-- A deadline moves with the clock while the macro is paused. -/
theorem deadline_advance
    (hphase : ∀ startedAt pauseBefore, s.phase ≠ .blocking false startedAt pauseBefore)
    (timestamp : ℤ) : (s.advance now).deadline timestamp =
      s.deadline timestamp + if s.isPaused then now - s.now else 0 := by
  unfold Player.deadline
  rw [pausedFor_advance, blockedFor_advance hphase]
  change s.timeline.anchor + _ + _ / max (1 / 100) s.speed / _ + _ = _
  ring

theorem fits_blocking_advance (hnow : s.now ≤ now) {control : Bool} {startedAt pauseBefore : ℚ}
    (hphase : s.phase = .blocking control startedAt pauseBefore) (hfits : Fits s s.phase) :
    Fits (s.advance now) s.phase := by
  rw [hphase] at hfits ⊢
  obtain ⟨hbefore, hstart, hpart, hsum⟩ := hfits
  refine ⟨hbefore, ?_, ?_, ?_⟩
  · change s.pausedAtStart ≤ _
    rw [pausedFor_advance]
    split
    · linarith
    · linarith
  · change _ - s.pausedAtStart ≤ now - startedAt
    rw [pausedFor_advance]
    split
    · linarith
    · linarith
  · change _ = s.timeline.blockingOffset + if control then 0 else
      now - startedAt - ((s.advance now).pausedFor - s.pausedAtStart)
    rw [pausedFor_advance]
    unfold Player.advance
    rw [hphase]
    simp only
    cases control with
    | true => simp only [hsum, if_true, add_zero]
    | false =>
      simp only [hsum, Bool.false_eq_true, if_false]
      split
      · ring
      · ring

theorem timed_advance (h : Timed speed s) (hnow : s.now ≤ now) : Timed speed (s.advance now) := by
  refine ⟨h.same, h.factor, fun pause hpause pausedAt hat => (h.since pause hpause pausedAt hat).trans hnow,
    offset_advance h hnow, ?_, h.emitted⟩
  change Fits (s.advance now) s.phase
  have hfits := h.fits
  have hcounted {phase : Phase} (hphase : s.phase = phase)
      (hblocking : ∀ startedAt pauseBefore, phase ≠ .blocking false startedAt pauseBefore)
      (hcounted : Counted s) : Counted (s.advance now) :=
    (blockedFor_advance (by rwa [hphase])).trans hcounted
  cases hphase : s.phase with
  | blocking control startedAt pauseBefore =>
    rw [← hphase]
    exact fits_blocking_advance hnow hphase hfits
  | waiting goal =>
    rw [hphase] at hfits
    cases goal with
    | event timestamp => exact ⟨hcounted hphase (by simp) hfits.1, hfits.2⟩
    | nominalEnd duration => exact hcounted hphase (by simp) hfits
  | sleeping goal wakeAt =>
    rw [hphase] at hfits
    cases goal with
    | event timestamp =>
      refine ⟨hcounted hphase (by simp) hfits.1, hfits.2.1, fun hnone => ?_⟩
      have hrunning : s.isPaused = false := by
        unfold Player.isPaused
        rw [show s.pause = none from hnone]
        rfl
      rw [deadline_advance (by simp [hphase]), hrunning]
      simpa using hfits.2.2 hnone
    | nominalEnd duration => exact hcounted hphase (by simp) hfits
  | due goal =>
    rw [hphase] at hfits
    cases goal with
    | event timestamp =>
      refine ⟨hcounted hphase (by simp) hfits.1, hfits.2.1, ?_⟩
      have hdue := hfits.2.2
      rw [deadline_advance (by simp [hphase])]
      change _ - now < _
      split
      · linarith
      · linarith
    | nominalEnd duration => exact hcounted hphase (by simp) hfits
  | _ =>
    rw [hphase] at hfits
    exact hcounted hphase (by simp) hfits

/-! ## Actions of the player -/

/-- A pause or a resume moves nothing by itself. -/
theorem Timed.of_pause (h : Timed speed s) {before after : MacroPauseState} (hpause : s.pause = some before)
    (htotal : after.total s.now = before.total s.now)
    (hsince : ∀ pausedAt, after.pausedAt = some pausedAt → pausedAt ≤ s.now) :
    Timed speed { s with pause := some after } := by
  refine ⟨h.same, h.factor, fun pause heq => ?_, ?_, ?_, h.emitted⟩
  · cases heq
    exact hsince
  · have hoffset := h.offset
    unfold MacroPlaybackTimeline.pauseOffset at hoffset ⊢
    rw [hpause, Option.elim_some] at hoffset
    rw [Option.elim_some, htotal]
    exact hoffset
  · have hfits := h.fits
    change Fits { s with pause := some after } s.phase
    cases hphase : s.phase with
    | sleeping goal wakeAt =>
      rw [hphase] at hfits
      cases goal with
      | event timestamp => exact ⟨hfits.1, hfits.2.1, fun hnone => by cases hnone⟩
      | nominalEnd duration => exact hfits
    | waiting goal
    | due goal =>
      rw [hphase] at hfits
      cases goal with
      | event timestamp => exact hfits
      | nominalEnd duration => exact hfits
    | _ =>
      rw [hphase] at hfits
      exact hfits

theorem timed_new (h : Timed speed s) (events : List MacroEvent) (duration : ℤ) :
    Timed speed { s with
      timeline := newTimeline s.speed s.pause s.now
      events := events
      duration := duration
      phase := .next
      pausedFor := 0
      blockedFor := 0 } := by
  refine ⟨h.same, congrArg (max (1 / 100)) h.same, h.since, ?_, rfl, h.emitted⟩
  unfold MacroPlaybackTimeline.pauseOffset newTimeline
  cases s.pause with
  | none => rfl
  | some pause => exact sub_self _

/-- The player waits for the deadline of its next event. -/
theorem timed_await (h : Timed speed s) (hcounted : Counted s) {timestamp : ℤ}
    (hnext : Next s timestamp) : Timed speed (s.await (.event timestamp) (.due (.event timestamp))) := by
  have hdelay := h.delay hcounted timestamp
  have hle := le_max_right 0 (s.deadline timestamp - s.now)
  unfold Player.await
  split
  · exact h.to_phase (.waiting (.event timestamp)) ⟨hcounted, hnext⟩
  · split
    · next hnear =>
      refine h.to_phase (.due (.event timestamp)) ⟨hcounted, hnext, ?_⟩
      linarith
    · refine h.to_phase (.sleeping (.event timestamp) _) ⟨hcounted, hnext, fun _ => ?_⟩
      linarith

/-- The player waits for the nominal end. -/
theorem timed_awaitEnd (h : Timed speed s) (hcounted : Counted s) (duration : ℤ) :
    Timed speed (s.await (.nominalEnd duration) .between) := by
  unfold Player.await
  split
  · exact h.to_phase (.waiting (.nominalEnd duration)) hcounted
  · split
    · exact h.to_phase (.between) hcounted
    · exact h.to_phase (.sleeping (.nominalEnd duration) _) hcounted

theorem timed_round (h : Timed speed s) {pause : MacroPauseState} {goal : Goal}
    (hpause : s.pause = some pause) (hphase : s.phase = .waiting goal) :
    Timed speed (s.round pause goal) := by
  have hclear : Timed speed { s with pause := some { pause with changed := false } } :=
    h.of_pause hpause rfl (h.since pause hpause)
  have hfits := h.fits
  rw [hphase] at hfits
  unfold Player.round
  cases goal with
  | event timestamp =>
    have hdelay := h.delay hfits.1 timestamp
    have hle := le_max_right 0 (s.deadline timestamp - s.now)
    split
    · next hnear =>
      refine hclear.to_phase (.due (.event timestamp)) ⟨hfits.1, hfits.2, ?_⟩
      change s.deadline timestamp - s.now < _
      linarith
    · exact hclear.to_phase (.sleeping (.event timestamp) _)
        ⟨hfits.1, hfits.2, fun hnone => by cases hnone⟩
  | nominalEnd duration =>
    split
    · exact hclear.to_phase (.due (.nominalEnd duration)) hfits
    · exact hclear.to_phase (.sleeping (.nominalEnd duration) _) hfits

/-- An event is emitted, or an action begun, when it is due. -/
theorem timed_emit (h : Timed speed s) {timestamp : ℤ} (hphase : s.phase = .due (.event timestamp))
    {event : MacroEvent} {events : List MacroEvent} (hevents : s.events = event :: events)
    (phase : Phase) (hquiet : ∀ s', Counted s' → Fits s' phase) :
    Timed speed { s with
      events := events
      emitted := s.emitted ++ [s.emission event.timestamp]
      phase := phase } := by
  have hfits := h.fits
  rw [hphase] at hfits
  obtain ⟨hcounted, ⟨event', events', hhead, htimestamp⟩, hdue⟩ := hfits
  rw [hevents] at hhead
  cases hhead
  refine ⟨h.same, h.factor, h.since, h.offset, hquiet _ hcounted, fun e he => ?_⟩
  obtain he | he := List.mem_append.mp he
  · exact h.emitted e he
  · rw [List.mem_singleton.mp he, htimestamp]
    rw [← h.same]
    change s.deadline timestamp - 1 / 2000 < s.now
    linarith

/-- The action has blocked what the clock ran while the macro was not paused. -/
theorem timed_finish (h : Timed speed s) {startedAt pauseBefore : ℚ}
    (hphase : s.phase = .blocking false startedAt pauseBefore) :
    Timed speed { s with
      timeline := s.timeline.extendForBlockingAction
        (s.now - startedAt - (s.timeline.pauseOffset s.pause s.now - pauseBefore))
      phase := .next } := by
  have hfits := h.fits
  rw [hphase] at hfits
  obtain ⟨hbefore, -, hpart, hsum⟩ := hfits
  refine ⟨h.same, h.factor, h.since, h.offset, ?_, h.emitted⟩
  change s.blockedFor = s.timeline.blockingOffset + max 0 _
  rw [h.offset, hbefore, max_eq_right (by linarith)]
  exact hsum

/-- The action has blocked what it reports, less the time paused meanwhile. -/
theorem timed_control (h : Timed speed s) {startedAt pauseBefore : ℚ} (elapsed : ℚ)
    (hphase : s.phase = .blocking true startedAt pauseBefore) :
    Timed speed { s with
      timeline := s.timeline.extendForBlockingAction
        (elapsed - (s.timeline.pauseOffset s.pause s.now - pauseBefore))
      phase := .next
      blockedFor := s.blockedFor + max 0 (elapsed - (s.pausedFor - s.pausedAtStart)) } := by
  have hfits := h.fits
  rw [hphase] at hfits
  obtain ⟨hbefore, -, -, hsum⟩ := hfits
  refine ⟨h.same, h.factor, h.since, h.offset, ?_, h.emitted⟩
  change s.blockedFor + _ = s.timeline.blockingOffset + max 0 _
  rw [h.offset, hbefore, hsum, if_pos rfl, add_zero]

theorem timed_act {a : Action} {t : Player} (h : Timed speed s) (hstep : act s a = some t) :
    Timed speed t := by
  cases a with
  | pause =>
    obtain ⟨pause, hpause, rfl⟩ := Option.map_eq_some_iff.mp hstep
    refine h.of_pause hpause (pause.total_pauseAt s.now) fun pausedAt hat => ?_
    unfold MacroPauseState.pauseAt at hat
    split at hat
    · exact h.since pause hpause pausedAt hat
    · cases hat
      exact le_refl _
  | resume =>
    obtain ⟨pause, hpause, rfl⟩ := Option.map_eq_some_iff.mp hstep
    exact h.of_pause hpause (pause.total_resumeAt s.now) fun pausedAt hat => by cases hat
  | iterate events duration =>
    simp only [act] at hstep
    split at hstep
    · split at hstep
      · cases hstep
      · rw [← Option.some.inj hstep]
        exact timed_new h events duration
    · cases hstep
  | look =>
    simp only [act] at hstep
    split at hstep
    · next event events hphase hevents =>
      rw [← Option.some.inj hstep]
      exact timed_await h (h.counted (by simp [hphase])) ⟨event, events, hevents, rfl⟩
    · next hphase hevents =>
      rw [← Option.some.inj hstep]
      exact timed_awaitEnd h (h.counted (by simp [hphase])) _
    · cases hstep
  | check =>
    simp only [act] at hstep
    split at hstep
    · next goal pause hphase hpause =>
      split at hstep
      · cases hstep
      · rw [← Option.some.inj hstep]
        exact timed_round h hpause hphase
    · cases hstep
  | wake =>
    have hfits := h.fits
    simp only [act] at hstep
    split at hstep
    · next goal wakeAt pause hphase hpause =>
      obtain ⟨-, hstep⟩ := Option.ite_none_right_eq_some.mp hstep
      rw [← Option.some.inj hstep]
      rw [hphase] at hfits
      cases goal with
      | event timestamp => exact h.to_phase (.waiting (.event timestamp)) ⟨hfits.1, hfits.2.1⟩
      | nominalEnd duration => exact h.to_phase (.waiting (.nominalEnd duration)) hfits
    · next goal wakeAt hphase hpause =>
      obtain ⟨hwake, hstep⟩ := Option.ite_none_right_eq_some.mp hstep
      rw [← Option.some.inj hstep]
      rw [hphase] at hfits
      cases goal with
      | event timestamp =>
        have hdeadline := hfits.2.2 hpause
        refine h.to_phase (.due (.event timestamp)) ⟨hfits.1, hfits.2.1, ?_⟩
        linarith
      | nominalEnd duration => exact h.to_phase (.due (.nominalEnd duration)) hfits
    · cases hstep
  | proceed =>
    simp only [act] at hstep
    split at hstep
    · next timestamp event events hphase hevents =>
      split at hstep
      · rw [← Option.some.inj hstep]
        exact timed_emit h hphase hevents .next fun _ hcounted => hcounted
      · rw [← Option.some.inj hstep]
        exact timed_emit h hphase hevents (.starting false) fun _ hcounted => hcounted
      · rw [← Option.some.inj hstep]
        exact timed_emit h hphase hevents (.starting true) fun _ hcounted => hcounted
    · next duration hphase =>
      rw [← Option.some.inj hstep]
      exact h.to_phase .between (h.counted (by simp [hphase]))
    · cases hstep
  | begin =>
    simp only [act] at hstep
    split at hstep
    · next control hphase =>
      rw [← Option.some.inj hstep]
      refine ⟨h.same, h.factor, h.since, h.offset, ⟨h.offset, le_refl _, ?_, ?_⟩, h.emitted⟩
      · change s.pausedFor - s.pausedFor ≤ s.now - s.now
        rw [sub_self, sub_self]
      · have hcounted := h.counted (by simp [hphase])
        change s.blockedFor = s.timeline.blockingOffset +
          if control then 0 else s.now - s.now - (s.pausedFor - s.pausedFor)
        rw [hcounted, sub_self, sub_self, sub_self, ite_self, add_zero]
    · cases hstep
  | finish elapsed =>
    simp only [act] at hstep
    split at hstep
    · next startedAt pauseBefore hphase =>
      rw [← Option.some.inj hstep]
      exact timed_finish h hphase
    · next startedAt pauseBefore hphase =>
      rw [← Option.some.inj hstep]
      exact timed_control h elapsed hphase
    · cases hstep

theorem timed_step {a : ℚ × Action} {t : Player} (h : Timed speed s) (hstep : step s a = some t) :
    Timed speed t := by
  obtain ⟨hnow, hact⟩ := Option.ite_none_right_eq_some.mp hstep
  exact timed_act (timed_advance h hnow) hact

end Clock

/-! ## Runs -/

theorem timed_start (speed : ℚ) (pausable : Bool) (now : ℚ) :
    Timed speed (Player.start speed pausable now) := by
  refine ⟨rfl, rfl, fun pause hpause pausedAt hat => ?_, ?_, rfl, fun e he => by cases he⟩
  · cases pausable with
    | true =>
      cases hpause
      cases hat
    | false => cases hpause
  · cases pausable with
    | true => exact sub_self _
    | false => rfl

/-- In every run with a clock that does not go back, the deadline of an event is the anchor,
the time that actions blocked, its timestamp at the speed, but at a hundredth at least, and the
time that the macro was paused; and no event is emitted half a millisecond before it. -/
theorem events_on_time {speed now : ℚ} {pausable : Bool} {as : List (ℚ × Action)} {t : Player}
    (hrun : run step (Player.start speed pausable now) as = some t) :
    (∀ timestamp, (∀ control startedAt pauseBefore,
        t.phase ≠ .blocking control startedAt pauseBefore) →
      t.timeline.eventDeadline timestamp + t.timeline.pauseOffset t.pause t.now =
        t.timeline.anchor + t.blockedFor + timestamp / max (1 / 100) speed / 1000000 +
          t.pausedFor) ∧
      ∀ e ∈ t.emitted, e.anchor + e.blocked + e.timestamp / max (1 / 100) speed / 1000000 +
        e.paused - 1 / 2000 < e.time := by
  have h : Timed speed t :=
    run_invariant (fun _ _ _ h hstep => timed_step h hstep) (timed_start speed pausable now) hrun
  refine ⟨fun timestamp hphase => ?_, h.emitted⟩
  rw [h.eventDeadline (h.counted hphase)]
  unfold Player.deadline
  rw [h.same]

theorem run_of_step {s t u : Player} {a : ℚ × Action} {as : List (ℚ × Action)}
    (hstep : step s a = some t) (hrun : run step t as = some u) :
    run step s (a :: as) = some u := run_cons_eq_some.mpr ⟨t, hstep, hrun⟩

/-- A child macro blocks the player for three seconds, one of which the macro is paused. -/
def pausedChild : List (ℚ × Action) :=
  [(0, .iterate [{ timestamp := 0, kind := .timed }, { timestamp := 2000000 }] 2000000),
    (0, .look), (0, .check), (0, .proceed), (0, .begin), (1, .pause), (2, .resume),
    (3, .finish 0), (4, .look), (4, .check), (4, .proceed)]

/-- At twice the speed the next event is due at four seconds: two were blocked, one paused. -/
theorem events_on_time_pausedChild :
    ∃ t, run step (Player.start 2 true 0) pausedChild = some t ∧
      t.emitted = [⟨0, 0, 0, 0, 0⟩, ⟨2000000, 4, 0, 2, 1⟩] ∧
      ∀ e ∈ t.emitted, e.anchor + e.blocked + e.timestamp / max (1 / 100) 2 / 1000000 +
        e.paused - 1 / 2000 < e.time := by
  have hrun : ∃ t, run step (Player.start 2 true 0) pausedChild = some t ∧
      t.emitted = [⟨0, 0, 0, 0, 0⟩, ⟨2000000, 4, 0, 2, 1⟩] := by
    unfold pausedChild
    apply Exists.intro
    constructor
    · repeat
        apply run_of_step
        · norm_num [step, act, Player.start, Player.advance, Player.isPaused, newTimeline,
            Player.await, Player.round, Player.delay, MacroPlaybackTimeline.eventDelay,
            MacroPlaybackTimeline.eventDeadline, MacroPlaybackTimeline.pauseOffset,
            MacroPlaybackTimeline.extendForBlockingAction, MacroPauseState.total,
            MacroPauseState.paused, MacroPauseState.pauseAt, MacroPauseState.resumeAt,
            Player.emission]
          exact rfl
      exact rfl
    · rfl
  obtain ⟨t, ht, hemitted⟩ := hrun
  exact ⟨t, ht, hemitted, (events_on_time ht).2⟩

/-- At a speed below a hundredth the event is emitted at a hundredth of the speed, before
its time at the speed that was asked for. -/
theorem slow_speed_clamped :
    ∃ t, run step (Player.start (1 / 200) false 0)
        [(0, .iterate [{ timestamp := 1000000 }] 1000000), (0, .look), (100, .wake),
          (100, .proceed)] = some t ∧
      t.emitted = [⟨1000000, 100, 0, 0, 0⟩] ∧
      t.timeline.eventDeadline 1000000 + t.timeline.pauseOffset t.pause t.now = 100 ∧
      t.timeline.anchor + t.blockedFor + 1000000 / (1 / 200) / 1000000 + t.pausedFor = 200 := by
  apply Exists.intro
  constructor
  · repeat
      apply run_of_step
      · norm_num [step, act, Player.start, Player.advance, Player.isPaused, newTimeline,
          Player.await, Player.delay, MacroPlaybackTimeline.eventDelay,
          MacroPlaybackTimeline.eventDeadline, MacroPlaybackTimeline.pauseOffset, Player.emission]
        exact rfl
    exact rfl
  · refine ⟨rfl, ?_, ?_⟩
    · norm_num [MacroPlaybackTimeline.eventDeadline, MacroPlaybackTimeline.pauseOffset]
    · norm_num

end Keymasq.Macros.Timeline
