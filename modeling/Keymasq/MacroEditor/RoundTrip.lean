import Keymasq.MacroEditor.Model
import Mathlib.Algebra.Order.Group.Multiset
import Mathlib.Data.List.Pairwise
import Mathlib.Tactic.Abel

/-!
# Opening and saving a macro

Every event that is read ends up in one of the lists, and is written again as it was: a pair as
its press and its release, a press without a release as an event of its own. The order numbers
put them back where they were.
-/

namespace Keymasq.MacroEditor.RoundTrip
open Foundation Strings Sorting

/- Only a gamepad event names an output, and without blanks around it. -/
def OutputNormal (event : MacroEvent) : Prop :=
  ∀ name ∈ event.outputId, event.deviceType = "gamepad" ∧ name ≠ "" ∧ strip name = name

/- A control has the fields of its own kind, within their limits, and the others at their
defaults. -/
def ControlNormal (mode : ControlMode) (options : ControlOptions) : Prop :=
  match mode with
  | .wait => options = { durationUs := options.durationUs }
  | .waitRandom => options = { minUs := options.minUs, maxUs := options.maxUs }
  | .execSync | .execParallel =>
    options.timeoutMs ≠ 0 ∧
      options = { command := options.command, timeoutMs := options.timeoutMs
                  inhibitMouse := options.inhibitMouse }
  | .execAsync => options = { command := options.command }
  | .compositorDispatch =>
    options = { compositorId := options.compositorId
                compositorDispatcher := options.compositorDispatcher
                compositorArgs := options.compositorArgs }
  | .macroSync | .macroParallel =>
    (1 / 100 ≤ options.speed ∧ options.loopMode ≠ "" ∧ 1 ≤ options.loopCount ∧
      0 ≤ options.pauseTimeoutS ∧ options.loopStopBehavior ≠ "") ∧
      options = { macroName := options.macroName
                  replayMouseMovement := options.replayMouseMovement
                  replayMouseClicks := options.replayMouseClicks
                  speed := options.speed
                  loopMode := options.loopMode
                  loopCount := options.loopCount
                  loopStopBehavior := options.loopStopBehavior
                  pauseTimeoutS := options.pauseTimeoutS }

/- The fields of a semantic action are within the editor's limits. -/
def ActionNormal (event : MacroEvent) : Prop :=
  match event.action with
  | .rapidfire durationUs holdMs waitMs =>
    event.value = 0 ∧ 0 ≤ durationUs ∧ 0 ≤ holdMs ∧ 1 ≤ waitMs
  | .move mode _ _ options =>
    event = macroEvent event.tUs event.action ∧
      if mode = .natural then options.curve ∈ naturalMouseMoveCurves else options = {}
  | .control mode options =>
    event = macroEvent event.tUs event.action ∧ ControlNormal mode options
  | _ => True

/-- An event as the recorder and the editor write it. -/
def Recorded (event : MacroEvent) : Prop := OutputNormal event ∧ ActionNormal event

/- A sync event, which has no place in the editor. -/
def isSyn (event : MacroEvent) : Bool := event.action = .none && event.type = evSyn

/-- All that has been read so far, as it is written again. -/
def slots (s : ParseState) : Multiset OrderedEvent :=
  (s.editable.flatMap EditableEvent.written : List OrderedEvent) +
    (s.relEvents + ((s.moves.map EditableMove.written : List OrderedEvent) +
      ((s.controls.map EditableControl.written : List OrderedEvent) +
        (s.passthrough + (openPressEvents s.openPresses : List OrderedEvent)))))

/-! ## One event -/

theorem OutputNormal.kept {event : MacroEvent} (h : OutputNormal event) :
    event.outputId = gamepadOutput event.deviceType (strippedOutputId event.outputId) := by
  unfold gamepadOutput strippedOutputId
  cases houtput : event.outputId with
  | none =>
    split
    · rfl
    · rfl
  | some name =>
    obtain ⟨hgamepad, hname, hstrip⟩ := h name houtput
    have hnamed : (some name).filter (fun s => decide (s ≠ "")) = some name := by
      rw [Option.filter_some, decide_eq_true hname]
      rfl
    rw [if_pos hgamepad, Option.map_some, hstrip, hnamed, hnamed]

theorem normalize_known {curve : String} (h : curve ∈ naturalMouseMoveCurves) :
    normalizeNaturalMouseMoveCurve curve = curve := by
  have hknown : ∀ curve ∈ naturalMouseMoveCurves, normalizeNaturalMouseMoveCurve curve = curve := by
    decide
  exact hknown curve h

theorem ControlNormal.kept_macro {options : ControlOptions} (h : ControlNormal .macroSync options) :
    options.read.written .macroSync = options := by
  obtain ⟨⟨hspeed, hmode, hcount, hpause, hstop⟩, hfields⟩ := h
  have htimeout : (if 0 < options.pauseTimeoutS ∨ options.loopStopBehavior = "pause_run" then
      options.pauseTimeoutS else 0) = options.pauseTimeoutS := by
    split
    · rfl
    · next hnone => exact le_antisymm hpause (not_lt.mp (not_or.mp hnone).1)
  unfold ControlOptions.written ControlOptions.read
  dsimp only
  rw [if_neg hmode, if_neg hstop, if_neg hstop, max_eq_right hspeed, max_eq_right hspeed,
    max_eq_right hcount, max_eq_right hcount, max_eq_right hpause, max_eq_right hpause, htimeout]
  exact hfields.symm

/-- A control within the limits is read and written as it is. -/
theorem ControlNormal.kept {mode : ControlMode} {options : ControlOptions}
    (h : ControlNormal mode options) : options.read.written mode = options := by
  cases mode with
  | wait
  | waitRandom
  | execAsync
  | compositorDispatch => exact Eq.symm h
  | execSync | execParallel =>
    obtain ⟨htimeout, hfields⟩ := h
    unfold ControlOptions.written ControlOptions.read
    dsimp only
    rw [if_neg htimeout]
    exact hfields.symm
  | macroSync | macroParallel => exact ControlNormal.kept_macro h

theorem openPressEvents_split (openPresses : Dict PressKey (List (ℤ × ℤ))) (key : PressKey) :
    (openPressEvents openPresses : Multiset OrderedEvent) =
      ((openPresses.getD key []).map (openPress key) : List OrderedEvent) +
        (openPressEvents (openPresses.erase key) : List OrderedEvent) := by
  unfold openPressEvents
  cases hkey : openPresses.get? key with
  | none =>
    have hempty : openPresses.getD key [] = [] := by
      unfold Dict.getD
      rw [hkey]
      rfl
    rw [hempty, Dict.erase_of_get?_eq_none hkey]
    exact (zero_add _).symm
  | some stack =>
    have hstack : openPresses.getD key [] = stack := by
      unfold Dict.getD
      rw [hkey]
      rfl
    rw [hstack, Multiset.coe_add, Multiset.coe_eq_coe]
    exact (Dict.entries_perm_of_get? hkey).flatMap_right _

theorem openPressEvents_insert (openPresses : Dict PressKey (List (ℤ × ℤ))) (key : PressKey)
    (stack : List (ℤ × ℤ)) :
    (openPressEvents (openPresses.insert key stack) : Multiset OrderedEvent) =
      (stack.map (openPress key) : List OrderedEvent) +
        (openPressEvents (openPresses.erase key) : List OrderedEvent) := by
  unfold openPressEvents
  rw [Multiset.coe_add, Multiset.coe_eq_coe]
  exact (Dict.entries_insert_perm openPresses key stack).flatMap_right _

theorem slots_keep (s : ParseState) (event : MacroEvent) (order : ℤ) :
    slots (s.keep event order) = slots s + {⟨event, some order⟩} := by
  unfold slots ParseState.keep
  dsimp only
  rw [← Multiset.coe_add, Multiset.coe_singleton]
  abel

/-- What an event is written as: at its time, and as it was where it was written so. -/
def Version (event event' : MacroEvent) : Prop :=
  event'.tUs = event.tUs ∧ (Recorded event → event' = event)

theorem Version.refl (event : MacroEvent) : Version event event := ⟨rfl, fun _ => rfl⟩

/- An open press is written with the output that belongs to its key. -/
theorem openPress_version {event : MacroEvent} (htype : event.type = evKey)
    (hvalue : event.value = 1) (haction : event.action = .none) (order : ℤ) :
    ∃ event', Version event event' ∧
      openPress (pressKey event) (event.tUs, order) = ⟨event', some order⟩ := by
  obtain ⟨deviceType, type, code, value, tUs, outputId, action⟩ := event
  dsimp only at htype hvalue haction
  subst htype hvalue haction
  refine ⟨_, ?_, rfl⟩
  refine ⟨rfl, fun hrecorded => ?_⟩
  have houtput : outputId = gamepadOutput deviceType (strippedOutputId outputId) :=
    hrecorded.1.kept
  unfold pressKey
  dsimp only
  rw [← houtput]

/-- The output of a pair: what it keeps of it is written again. -/
theorem gamepadOutput_kept (deviceType : String) (outputId : Option String) :
    gamepadOutput deviceType (if deviceType = "gamepad" then outputId else none) =
      gamepadOutput deviceType outputId := by
  unfold gamepadOutput
  by_cases hgamepad : deviceType = "gamepad"
  · rw [if_pos hgamepad, if_pos hgamepad, if_pos hgamepad]
  · rw [if_neg hgamepad, if_neg hgamepad]

/-- A pair is written as the open press and the release that was read. -/
theorem pair_version {event : MacroEvent} (htype : event.type = evKey)
    (hvalue : event.value = 0) (haction : event.action = .none) (press : ℤ × ℤ) (order : ℤ) :
    ∃ event', Version event event' ∧ EditableEvent.written
      { deviceType := event.deviceType
        evType := evKey
        code := event.code
        pressTUs := press.1
        releaseTUs := event.tUs
        outputId :=
          if event.deviceType = "gamepad" then strippedOutputId event.outputId else none
        originalPressOrder := some press.2
        originalReleaseOrder := some order } =
      [openPress (pressKey event) press, ⟨event', some order⟩] := by
  obtain ⟨deviceType, type, code, value, tUs, outputId, action⟩ := event
  dsimp only at htype hvalue haction
  subst htype hvalue haction
  unfold EditableEvent.written EditableEvent.rapidfire openPress pressKey
  dsimp only
  rw [Bool.false_and, if_neg Bool.false_ne_true, if_pos rfl, gamepadOutput_kept]
  refine ⟨_, ?_, rfl⟩
  refine ⟨rfl, fun hrecorded => ?_⟩
  have houtput : outputId = gamepadOutput deviceType (strippedOutputId outputId) :=
    hrecorded.1.kept
  rw [← houtput]

theorem slots_parseKey {event : MacroEvent} (htype : event.type = evKey)
    (haction : event.action = .none) (s : ParseState) (order : ℤ) :
    ∃ event', Version event event' ∧
      slots (parseKey s event order) = slots s + {⟨event', some order⟩} := by
  unfold parseKey
  dsimp only
  split
  case isTrue hpress =>
    obtain ⟨event', hversion, hopen⟩ := openPress_version htype hpress haction order
    refine ⟨event', hversion, ?_⟩
    unfold slots
    dsimp only
    rw [openPressEvents_insert, openPressEvents_split s.openPresses (pressKey event),
      List.map_append, ← Multiset.coe_add, List.map_singleton, hopen, Multiset.coe_singleton]
    abel
  · split
    case isFalse => exact ⟨event, Version.refl event, slots_keep s event order⟩
    case isTrue hrelease =>
      split
      case h_2 => exact ⟨event, Version.refl event, slots_keep s event order⟩
      case h_1 pressT pressOrder hlast =>
        obtain ⟨rest, hrest⟩ := List.getLast?_eq_some_iff.mp hlast
        obtain ⟨event', hversion, hwritten⟩ :=
          pair_version htype hrelease haction (pressT, pressOrder) order
        have hpair : ∀ a b : OrderedEvent, (([a, b] : List OrderedEvent) : Multiset OrderedEvent) =
            {a} + {b} := fun _ _ => rfl
        refine ⟨event', hversion, ?_⟩
        unfold slots
        dsimp only
        rw [openPressEvents_insert, openPressEvents_split s.openPresses (pressKey event), hrest,
          List.dropLast_concat, List.flatMap_append, List.map_append, ← Multiset.coe_add,
          ← Multiset.coe_add, List.flatMap_singleton, List.map_singleton, hwritten, hpair,
          Multiset.coe_singleton]
        abel

/- An item is put behind the keys and axes. -/
theorem slots_editable (s : ParseState) {e : EditableEvent} {entry : OrderedEvent}
    (h : e.written = [entry]) :
    slots { s with editable := s.editable ++ [e] } = slots s + {entry} := by
  unfold slots
  dsimp only
  rw [List.flatMap_append, List.flatMap_singleton, h, ← Multiset.coe_add, Multiset.coe_singleton]
  abel

theorem slots_parsePlain {event : MacroEvent} (haction : event.action = .none)
    (hsyn : event.type ≠ evSyn) (s : ParseState) (order : ℤ) :
    ∃ event', Version event event' ∧
      slots (parsePlain s event order) = slots s + {⟨event', some order⟩} := by
  unfold parsePlain
  split
  case isTrue htype => exact slots_parseKey htype haction s order
  · split
    case isTrue haxis =>
      have hwritten : ∃ event', Version event event' ∧ EditableEvent.written
          { deviceType := "gamepad"
            evType := evAbs
            code := event.code
            pressTUs := event.tUs
            releaseTUs := event.tUs + 1
            value := event.value
            outputId := strippedOutputId event.outputId
            originalPressOrder := some order } = [⟨event', some order⟩] := by
        obtain ⟨deviceType, type, code, value, tUs, outputId, action⟩ := event
        dsimp only at haction haxis
        obtain ⟨rfl, rfl⟩ := haxis
        subst haction
        unfold EditableEvent.written EditableEvent.rapidfire
        dsimp only
        rw [Bool.false_and, if_neg Bool.false_ne_true, if_neg (by decide)]
        refine ⟨_, ?_, rfl⟩
        refine ⟨rfl, fun hrecorded => ?_⟩
        have houtput : outputId = gamepadOutput "gamepad" (strippedOutputId outputId) :=
          hrecorded.1.kept
        rw [← houtput]
      obtain ⟨event', hversion, hwritten⟩ := hwritten
      exact ⟨event', hversion, slots_editable s hwritten⟩
    · split
      · refine ⟨event, Version.refl event, ?_⟩
        unfold slots
        dsimp only
        rw [← Multiset.coe_add, Multiset.coe_singleton]
        abel
      · exact ⟨event, Version.refl event, slots_keep s event order⟩

/-- Whatever is read is written. -/
theorem slots_parseEvent {event : MacroEvent} (hsyn : isSyn event = false) (s : ParseState)
    (order : ℤ) :
    ∃ event', Version event event' ∧
      slots (parseEvent s event order) = slots s + {⟨event', some order⟩} := by
  unfold parseEvent
  split
  case h_1 durationUs holdMs waitMs haction =>
    split
    case isFalse => exact ⟨event, Version.refl event, slots_keep s event order⟩
    case isTrue hblock =>
      have hwritten : ∃ event', Version event event' ∧ EditableEvent.written
          { deviceType := event.deviceType
            evType := evKey
            code := event.code
            pressTUs := event.tUs
            releaseTUs := event.tUs + max 0 durationUs
            outputId := strippedOutputId event.outputId
            originalPressOrder := some order
            originalReleaseOrder := some order
            rapidfireEnabled := true
            rapidfireHoldMs := clampRapidfireHoldMs holdMs
            rapidfireWaitMs := clampRapidfireWaitMs waitMs } = [⟨event', some order⟩] := by
        obtain ⟨deviceType, type, code, value, tUs, outputId, action⟩ := event
        dsimp only at haction hblock
        obtain ⟨rfl, -⟩ := hblock
        subst haction
        unfold EditableEvent.written EditableEvent.rapidfire clampRapidfireHoldMs
          clampRapidfireWaitMs
        dsimp only
        rw [Bool.true_and, decide_eq_true rfl, if_pos rfl, add_sub_cancel_left]
        refine ⟨_, ?_, rfl⟩
        refine ⟨rfl, fun hrecorded => ?_⟩
        obtain ⟨houtput, hvalue, hduration, hhold, hwait⟩ := hrecorded
        dsimp only at hvalue
        subst hvalue
        have hnamed : outputId = gamepadOutput deviceType (strippedOutputId outputId) :=
          houtput.kept
        rw [← hnamed, max_eq_right hduration, max_eq_right hduration, max_eq_right hhold,
          max_eq_right hwait]
      obtain ⟨event', hversion, hwritten⟩ := hwritten
      exact ⟨event', hversion, slots_editable s hwritten⟩
  case h_2 mode x y options haction =>
    have hwritten : ∃ event', Version event event' ∧ EditableMove.written
        { mode := mode
          tUs := event.tUs
          x := x
          y := y
          options := { options with curve := normalizeNaturalMouseMoveCurve options.curve }
          originalOrder := some order } = ⟨event', some order⟩ := by
      refine ⟨_, ?_, rfl⟩
      refine ⟨rfl, fun hrecorded => ?_⟩
      have hnormal := hrecorded.2
      unfold ActionNormal at hnormal
      rw [haction] at hnormal
      obtain ⟨hevent, hoptions⟩ := hnormal
      dsimp only
      by_cases hnatural : mode = .natural
      · rw [if_pos hnatural] at hoptions ⊢
        rw [normalize_known hoptions, normalize_known hoptions]
        exact hevent.symm
      · rw [if_neg hnatural] at hoptions ⊢
        rw [← hoptions]
        exact hevent.symm
    obtain ⟨event', hversion, hwritten⟩ := hwritten
    refine ⟨event', hversion, ?_⟩
    unfold slots
    dsimp only
    rw [List.map_append, List.map_singleton, hwritten, ← Multiset.coe_add, Multiset.coe_singleton]
    abel
  case h_3 mode options haction =>
    have hwritten : ∃ event', Version event event' ∧ EditableControl.written
        { mode := mode
          tUs := event.tUs
          options := options.read
          originalOrder := some order } = ⟨event', some order⟩ := by
      refine ⟨_, ?_, rfl⟩
      refine ⟨rfl, fun hrecorded => ?_⟩
      have hnormal := hrecorded.2
      unfold ActionNormal at hnormal
      rw [haction] at hnormal
      obtain ⟨hevent, hoptions⟩ := hnormal
      dsimp only
      rw [hoptions.kept]
      exact hevent.symm
    obtain ⟨event', hversion, hwritten⟩ := hwritten
    refine ⟨event', hversion, ?_⟩
    unfold slots
    dsimp only
    rw [List.map_append, List.map_singleton, hwritten, ← Multiset.coe_add, Multiset.coe_singleton]
    abel
  case h_4 => exact ⟨event, Version.refl event, slots_keep s event order⟩
  case h_5 haction =>
    have htype : event.type ≠ evSyn := by
      unfold isSyn at hsyn
      rw [haction, decide_eq_true rfl, Bool.true_and, decide_eq_false_iff_not] at hsyn
      exact hsyn
    exact slots_parsePlain haction htype s order

/-! ## All events -/

theorem parseEvent_syn {event : MacroEvent} (hsyn : isSyn event = true) (s : ParseState)
    (order : ℤ) : parseEvent s event order = s := by
  unfold isSyn at hsyn
  rw [Bool.and_eq_true, decide_eq_true_eq, decide_eq_true_eq] at hsyn
  obtain ⟨deviceType, type, code, value, tUs, outputId, action⟩ := event
  obtain ⟨rfl, rfl⟩ := hsyn
  have hkinds : evSyn ≠ evKey ∧ evSyn ≠ evAbs ∧ evSyn ≠ evRel := by decide
  unfold parseEvent parsePlain
  dsimp only
  rw [if_neg hkinds.1, if_neg fun h => hkinds.2.1 h.1, if_neg hkinds.2.2, if_pos rfl]

/-- What the events that have a place in the editor are written as, with their order numbers. -/
inductive Numbered : ℤ → List MacroEvent → List OrderedEvent → Prop
  | nil {order : ℤ} : Numbered order [] []
  | syn {order : ℤ} {event : MacroEvent} {events : List MacroEvent} {entries : List OrderedEvent}
    (hsyn : isSyn event = true) (h : Numbered (order + 1) events entries) :
    Numbered order (event :: events) entries
  | read {order : ℤ} {event event' : MacroEvent} {events : List MacroEvent}
    {entries : List OrderedEvent} (hsyn : isSyn event = false) (hversion : Version event event')
    (h : Numbered (order + 1) events entries) :
    Numbered order (event :: events) (⟨event', some order⟩ :: entries)

theorem slots_parseFrom (events : List MacroEvent) (s : ParseState) (order : ℤ) :
    ∃ entries, Numbered order events entries ∧
      slots (parseFrom s order events) = slots s + (entries : List OrderedEvent) := by
  induction events generalizing s order with
  | nil => exact ⟨[], .nil, (add_zero _).symm⟩
  | cons event events ih =>
    unfold parseFrom
    cases hsyn : isSyn event with
    | true =>
      obtain ⟨entries, hnumbered, hslots⟩ := ih s (order + 1)
      rw [parseEvent_syn hsyn]
      exact ⟨entries, .syn hsyn hnumbered, hslots⟩
    | false =>
      obtain ⟨event', hversion, hevent⟩ := slots_parseEvent hsyn s order
      obtain ⟨entries, hnumbered, hslots⟩ := ih (parseEvent s event order) (order + 1)
      refine ⟨_, .read hsyn hversion hnumbered, ?_⟩
      rw [hslots, hevent, ← Multiset.cons_coe, add_assoc, Multiset.singleton_add]

/-- The lists are what was read, in another order. -/
theorem written_parseEvents (events : List MacroEvent) :
    ∃ entries, Numbered 0 events entries ∧ (parseEvents events).written.Perm entries := by
  obtain ⟨entries, hnumbered, hslots⟩ := slots_parseFrom events {} 0
  refine ⟨entries, hnumbered, ?_⟩
  have hempty : slots {} = 0 := rfl
  rw [hempty, zero_add] at hslots
  rw [← Multiset.coe_eq_coe, ← hslots]
  unfold TimelineLists.written parseEvents slots
  dsimp only
  rw [Multiset.coe_eq_coe.mpr ((sortedOn_perm _ _).append_left _), ← Multiset.coe_add,
    ← Multiset.coe_add, ← Multiset.coe_add, ← Multiset.coe_add, ← Multiset.coe_add,
    Multiset.coe_eq_coe.mpr ((sortedOn_perm _ _).flatMap_right _),
    Multiset.coe_eq_coe.mpr ((sortedOn_perm _ _).map EditableMove.written),
    Multiset.coe_eq_coe.mpr ((sortedOn_perm _ _).map EditableControl.written)]
  abel

namespace Numbered

variable {order : ℤ} {events : List MacroEvent} {entries : List OrderedEvent}

/- Each entry comes from an event at its time, and its number is a place in the list. -/
theorem mem (h : Numbered order events entries) {entry : OrderedEvent} (hentry : entry ∈ entries) :
    (∃ event ∈ events, entry.event.tUs = event.tUs) ∧
      ∃ number, entry.order = some number ∧ order ≤ number ∧ number < order + events.length := by
  induction h with
  | nil => cases hentry
  | @syn order event events entries hsyn h ih =>
    obtain ⟨⟨e, he, htime⟩, number, hnumber, hle, hlt⟩ := ih hentry
    rw [List.length_cons]
    exact ⟨⟨e, List.mem_cons_of_mem event he, htime⟩, number, hnumber, by omega, by omega⟩
  | @read order event event' events entries hsyn hversion h ih =>
    rw [List.length_cons]
    rcases List.mem_cons.mp hentry with rfl | hentry
    · exact ⟨⟨event, List.mem_cons_self, hversion.1⟩, order, rfl, le_rfl, by omega⟩
    · obtain ⟨⟨e, he, htime⟩, number, hnumber, hle, hlt⟩ := ih hentry
      exact ⟨⟨e, List.mem_cons_of_mem event he, htime⟩, number, hnumber, by omega, by omega⟩

theorem isSome_order (h : Numbered order events entries) {entry : OrderedEvent}
    (hentry : entry ∈ entries) : entry.order.isSome = true := by
  obtain ⟨-, number, hnumber, -⟩ := h.mem hentry
  rw [hnumber]
  rfl

theorem map_tUs (h : Numbered order events entries) :
    entries.map (fun entry => entry.event.tUs) =
      (events.filter fun event => !isSyn event).map MacroEvent.tUs := by
  induction h with
  | nil => rfl
  | syn hsyn h ih =>
    rw [List.filter_cons_of_neg (by rw [hsyn]; decide)]
    exact ih
  | read hsyn hversion h ih =>
    rw [List.filter_cons_of_pos (by rw [hsyn]; rfl), List.map_cons, List.map_cons, ih, hversion.1]

theorem map_event (h : Numbered order events entries)
    (hrecorded : ∀ event ∈ events, Recorded event) :
    entries.map OrderedEvent.event = events.filter fun event => !isSyn event := by
  induction h with
  | nil => rfl
  | @syn order event events entries hsyn h ih =>
    rw [List.filter_cons_of_neg (by rw [hsyn]; decide)]
    exact ih fun e he => hrecorded e (List.mem_cons_of_mem event he)
  | @read order event event' events entries hsyn hversion h ih =>
    rw [List.filter_cons_of_pos (by rw [hsyn]; rfl), List.map_cons,
      ih fun e he => hrecorded e (List.mem_cons_of_mem event he),
      hversion.2 (hrecorded event List.mem_cons_self)]

/- The numbers ascend. -/
theorem pairwise_order (h : Numbered order events entries) :
    entries.Pairwise fun a b => a.order.getD 0 < b.order.getD 0 := by
  induction h with
  | nil => exact List.Pairwise.nil
  | syn hsyn h ih => exact ih
  | @read order event event' events entries hsyn hversion h ih =>
    refine List.pairwise_cons.mpr ⟨?_, ih⟩
    intro later hlater
    obtain ⟨-, number, hnumber, hle, -⟩ := h.mem hlater
    rw [hnumber]
    change order < number
    omega

/- Events that come in order of time are entries in order of time. -/
theorem pairwise_tUs (h : Numbered order events entries)
    (hsorted : events.Pairwise fun a b => a.tUs ≤ b.tUs) :
    entries.Pairwise fun a b => a.event.tUs ≤ b.event.tUs := by
  induction h with
  | nil => exact List.Pairwise.nil
  | syn hsyn h ih => exact ih (List.pairwise_cons.mp hsorted).2
  | read hsyn hversion h ih =>
    obtain ⟨hhead, hrest⟩ := List.pairwise_cons.mp hsorted
    refine List.pairwise_cons.mpr ⟨?_, ih hrest⟩
    intro later hlater
    obtain ⟨⟨e, he, htime⟩, -⟩ := h.mem hlater
    rw [hversion.1, htime]
    exact hhead e he

end Numbered

/-! ## The order -/

/- What the events are sorted by, where all have an order number. -/
def orderKey (entry : OrderedEvent) : ℤ ×ₗ ℤ := toLex (entry.event.tUs, entry.order.getD 0)

variable {entries : List OrderedEvent}

theorem orderKey_inj (hsorted : entries.Pairwise fun a b => orderKey a < orderKey b)
    {a b : OrderedEvent} (ha : a ∈ entries) (hb : b ∈ entries) (heq : orderKey a = orderKey b) :
    a = b := by
  have hsymm : Std.Symm fun a b : OrderedEvent => orderKey a ≠ orderKey b :=
    ⟨fun _ _ hne => hne.symm⟩
  by_contra hne
  exact (hsorted.imp ne_of_lt).forall ha hb hne heq

/-- With order numbers there is only one way to put the events in order. -/
theorem reconstructEvents_eq {lists : TimelineLists} (hperm : lists.written.Perm entries)
    (hnumbered : ∀ entry ∈ entries, entry.order.isSome = true)
    (hsorted : entries.Pairwise fun a b => orderKey a < orderKey b) :
    reconstructEvents lists = entries.map OrderedEvent.event := by
  have hkey : ∀ (m : ℤ) (entry : OrderedEvent × ℕ), entry.1.order.isSome = true →
      reconstructKey m entry = orderKey entry.1 := by
    intro m entry hsome
    obtain ⟨order, horder⟩ := Option.isSome_iff_exists.mp hsome
    unfold reconstructKey resolvedOrder orderKey
    rw [horder]
    rfl
  have hall : ∀ m, ∀ entry ∈ sortedOn (reconstructKey m) lists.written.zipIdx,
      entry.1.order.isSome = true := by
    intro m entry hentry
    have hmem := (sortedOn_perm (reconstructKey m) lists.written.zipIdx).mem_iff.mp hentry
    exact hnumbered entry.1 (hperm.mem_iff.mp (List.fst_mem_of_mem_zipIdx hmem))
  have hsame : ∀ m, (sortedOn (reconstructKey m) lists.written.zipIdx).map Prod.fst = entries := by
    intro m
    have hentries : ((sortedOn (reconstructKey m) lists.written.zipIdx).map Prod.fst).Perm
        entries := by
      refine ((sortedOn_perm (reconstructKey m) lists.written.zipIdx).map Prod.fst).trans ?_
      rw [List.zipIdx_map_fst]
      exact hperm
    have hpairwise : ((sortedOn (reconstructKey m) lists.written.zipIdx).map Prod.fst).Pairwise
        fun a b => orderKey a ≤ orderKey b := by
      rw [List.pairwise_map]
      refine (sortedOn_pairwise (reconstructKey m) lists.written.zipIdx).imp_of_mem ?_
      intro a b ha hb hle
      rw [hkey m a (hall m a ha), hkey m b (hall m b hb)] at hle
      exact hle
    refine hentries.eq_of_pairwise ?_ hpairwise (hsorted.imp le_of_lt)
    intro a b ha hb hab hba
    exact orderKey_inj hsorted (hentries.mem_iff.mp ha) hb (le_antisymm hab hba)
  unfold reconstructEvents
  dsimp only
  rw [← hsame (maxOrder (lists.written.map (·.order))), List.map_map]
  rfl

theorem orderKey_lt {a b : OrderedEvent} (htime : a.event.tUs ≤ b.event.tUs)
    (horder : a.order.getD 0 < b.order.getD 0) : orderKey a < orderKey b := by
  unfold orderKey
  rw [Prod.Lex.toLex_lt_toLex]
  rcases lt_or_eq_of_le htime with hlt | heq
  · exact .inl hlt
  · exact .inr ⟨heq, horder⟩

/-- Entries in order of time whose numbers ascend have ascending keys. -/
theorem orderKey_pairwise (htime : entries.Pairwise fun a b => a.event.tUs ≤ b.event.tUs)
    (horder : entries.Pairwise fun a b => a.order.getD 0 < b.order.getD 0) :
    entries.Pairwise fun a b => orderKey a < orderKey b :=
  (htime.and horder).imp fun hab => orderKey_lt hab.1 hab.2

/-- Opening a recording and saving it gives the same events, but for sync events. -/
theorem reconstruct_parse {events : List MacroEvent}
    (hsorted : events.Pairwise fun a b => a.tUs ≤ b.tUs)
    (hrecorded : ∀ event ∈ events, Recorded event) :
    reconstructEvents (parseEvents events) = events.filter fun event => !isSyn event := by
  obtain ⟨entries, hnumbered, hperm⟩ := written_parseEvents events
  rw [← hnumbered.map_event hrecorded]
  exact reconstructEvents_eq hperm (fun _ => hnumbered.isSome_order)
    (orderKey_pairwise (hnumbered.pairwise_tUs hsorted) hnumbered.pairwise_order)

end Keymasq.MacroEditor.RoundTrip
