import Keymasq.Foundation.Dict
import Keymasq.Foundation.Sorting
import Keymasq.Foundation.Strings
import Keymasq.MacroEditor.Items
import Mathlib.Data.Prod.Lex

/-!
# From events to items and back

Opening a macro splits its events into the five lists of the editor: a press and the release
that follows it become one item, what has no partner stays as it is. Saving writes the events
of all items and sorts them by time and, at one time, by their order numbers.
-/

namespace Keymasq.MacroEditor
open Foundation Sorting Strings

/-! ## Reading -/

def missingEditorOrder : ℤ := 2 ^ 63 - 1

def originalOrderOrLast (order : Option ℤ) : ℤ := order.getD missingEditorOrder

def clampRapidfireHoldMs (ms : ℤ) : ℤ := max 0 ms
def clampRapidfireWaitMs (ms : ℤ) : ℤ := max 1 ms

def naturalMouseMoveCurves : List String := ["linear", "natural"]

/- `str(value or "").strip().lower().replace("-", "_")`, or the default for another curve. -/
def normalizeNaturalMouseMoveCurve (value : String) : String :=
  let curve := String.ofList (((strip value).toList.map Char.toLower).map fun c =>
    if c = '-' then '_' else c)
  if curve ∈ naturalMouseMoveCurves then curve else "natural"

/- `str(output_id or "").strip() or None`. -/
def strippedOutputId (outputId : Option String) : Option String :=
  (outputId.map strip).filter (· ≠ "")

def rapidfireDevices : List String := ["keyboard", "mouse", "gamepad"]

/- What reading makes of the fields of a control. -/
def ControlOptions.read (options : ControlOptions) : ControlOptions :=
  { options with
    timeoutMs := if options.timeoutMs = 0 then defaultTimeoutMs else options.timeoutMs
    speed := max (1 / 100) options.speed
    loopMode := if options.loopMode = "" then "none" else options.loopMode
    loopCount := max 1 options.loopCount
    pauseTimeoutS := max 0 options.pauseTimeoutS
    loopStopBehavior :=
      if options.loopStopBehavior = "" then "finish_run" else options.loopStopBehavior }

abbrev PressKey := String × ℤ × Option String

/-- The lists as the loop over the events fills them. -/
structure ParseState where
  editable : List EditableEvent := []
  relEvents : List OrderedEvent := []
  passthrough : List OrderedEvent := []
  moves : List EditableMove := []
  controls : List EditableControl := []
  openPresses : Dict PressKey (List (ℤ × ℤ)) := ∅

def ParseState.keep (s : ParseState) (event : MacroEvent) (order : ℤ) : ParseState :=
  { s with passthrough := s.passthrough ++ [⟨event, some order⟩] }

def pressKey (event : MacroEvent) : PressKey :=
  (event.deviceType, event.code, strippedOutputId event.outputId)

/- A press opens a key, a release takes the latest open press of its key. -/
def parseKey (s : ParseState) (event : MacroEvent) (order : ℤ) : ParseState :=
  let key := pressKey event
  if event.value = 1 then
    { s with openPresses :=
        s.openPresses.insert key (s.openPresses.getD key [] ++ [(event.tUs, order)]) }
  else if event.value = 0 then
    match (s.openPresses.getD key []).getLast? with
    | some (pressT, pressOrder) =>
      { s with
        openPresses := s.openPresses.insert key (s.openPresses.getD key []).dropLast
        editable := s.editable ++ [
          { deviceType := event.deviceType
            evType := evKey
            code := event.code
            pressTUs := pressT
            releaseTUs := event.tUs
            outputId :=
              if event.deviceType = "gamepad" then strippedOutputId event.outputId else none
            originalPressOrder := some pressOrder
            originalReleaseOrder := some order }] }
    | none => s.keep event order
  else s.keep event order

def parsePlain (s : ParseState) (event : MacroEvent) (order : ℤ) : ParseState :=
  if event.type = evKey then parseKey s event order
  else if event.type = evAbs ∧ event.deviceType = "gamepad" then
    { s with editable := s.editable ++ [
        { deviceType := "gamepad"
          evType := evAbs
          code := event.code
          pressTUs := event.tUs
          releaseTUs := event.tUs + 1
          value := event.value
          outputId := strippedOutputId event.outputId
          originalPressOrder := some order }] }
  else if event.type = evRel then
    { s with relEvents := s.relEvents ++ [⟨event, some order⟩] }
  else if event.type = evSyn then s
  else s.keep event order

def parseEvent (s : ParseState) (event : MacroEvent) (order : ℤ) : ParseState :=
  match event.action with
  | .rapidfire durationUs holdMs waitMs =>
    if event.type = evKey ∧ event.deviceType ∈ rapidfireDevices then
      { s with editable := s.editable ++ [
          { deviceType := event.deviceType
            evType := evKey
            code := event.code
            pressTUs := event.tUs
            releaseTUs := event.tUs + max 0 durationUs
            outputId := strippedOutputId event.outputId
            originalPressOrder := some order
            originalReleaseOrder := some order
            rapidfireEnabled := true
            rapidfireHoldMs := clampRapidfireHoldMs holdMs
            rapidfireWaitMs := clampRapidfireWaitMs waitMs }] }
    else s.keep event order
  | .move mode x y options =>
    { s with moves := s.moves ++ [
        { mode := mode
          tUs := event.tUs
          x := x
          y := y
          options := { options with curve := normalizeNaturalMouseMoveCurve options.curve }
          originalOrder := some order }] }
  | .control mode options =>
    { s with controls := s.controls ++ [
        { mode := mode
          tUs := event.tUs
          options := options.read
          originalOrder := some order }] }
  | .other _ => s.keep event order
  | .none => parsePlain s event order

/- The loop: the order number of an event is its place in the list. -/
def parseFrom (s : ParseState) (order : ℤ) : List MacroEvent → ParseState
  | [] => s
  | event :: events => parseFrom (parseEvent s event order) (order + 1) events

/- `if ev.device_type == "gamepad" and ev.output_id`. -/
def gamepadOutput (deviceType : String) (outputId : Option String) : Option String :=
  if deviceType = "gamepad" then outputId.filter (· ≠ "") else none

/- A press that no release followed is written again as an event of its own. -/
def openPress (key : PressKey) (press : ℤ × ℤ) : OrderedEvent :=
  { event :=
      { deviceType := key.1
        type := evKey
        code := key.2.1
        value := 1
        tUs := press.1
        outputId := gamepadOutput key.1 key.2.2 }
    order := some press.2 }

def openPressEvents (openPresses : Dict PressKey (List (ℤ × ℤ))) : List OrderedEvent :=
  openPresses.entries.flatMap fun entry => entry.2.map (openPress entry.1)

def parseEvents (events : List MacroEvent) : TimelineLists :=
  let s := parseFrom {} 0 events
  { events := sortedOn (fun e => toLex (e.pressTUs, originalOrderOrLast e.originalPressOrder))
      s.editable
    relative := s.relEvents
    raw := sortedOn (fun e => toLex (e.event.tUs, originalOrderOrLast e.order))
      (s.passthrough ++ openPressEvents s.openPresses)
    moves := sortedOn (fun m => toLex (m.tUs, originalOrderOrLast m.originalOrder)) s.moves
    controls := sortedOn (fun c => toLex (c.tUs, originalOrderOrLast c.originalOrder))
      s.controls }

/-! ## Writing -/

def EditableEvent.rapidfire (e : EditableEvent) : Bool :=
  e.rapidfireEnabled && decide (e.evType = evKey)

/- A rapid-fire block is one event, a key two, an axis one. -/
def EditableEvent.written (e : EditableEvent) : List OrderedEvent :=
  let event : MacroEvent :=
    { deviceType := e.deviceType
      type := e.evType
      code := e.code
      value := 0
      tUs := e.pressTUs
      outputId := gamepadOutput e.deviceType e.outputId }
  let durationUs := max 0 (e.releaseTUs - e.pressTUs)
  if e.rapidfire = true then
    [⟨{ event with action := .rapidfire durationUs e.rapidfireHoldMs e.rapidfireWaitMs },
      e.originalPressOrder⟩]
  else if e.evType = evKey then
    [⟨{ event with value := 1 }, e.originalPressOrder⟩,
      ⟨{ event with tUs := e.releaseTUs }, e.originalReleaseOrder⟩]
  else [⟨{ event with value := e.value }, e.originalPressOrder⟩]

def macroEvent (tUs : ℤ) (action : MacroAction) : MacroEvent :=
  { deviceType := "macro", type := 0, code := 0, value := 0, tUs := tUs, action := action }

def EditableMove.written (m : EditableMove) : OrderedEvent :=
  let options : NaturalOptions :=
    if m.mode = .natural then
      { m.options with curve := normalizeNaturalMouseMoveCurve m.options.curve }
    else {}
  ⟨macroEvent m.tUs (.move m.mode m.x m.y options), m.originalOrder⟩

/- Only the fields of the control's own kind are written. -/
def ControlOptions.written (mode : ControlMode) (options : ControlOptions) : ControlOptions :=
  match mode with
  | .wait => { durationUs := options.durationUs }
  | .waitRandom => { minUs := options.minUs, maxUs := options.maxUs }
  | .execSync | .execParallel =>
    { command := options.command, timeoutMs := options.timeoutMs
      inhibitMouse := options.inhibitMouse }
  | .execAsync => { command := options.command }
  | .compositorDispatch =>
    { compositorId := options.compositorId
      compositorDispatcher := options.compositorDispatcher
      compositorArgs := options.compositorArgs }
  | .macroSync | .macroParallel =>
    { macroName := options.macroName
      replayMouseMovement := options.replayMouseMovement
      replayMouseClicks := options.replayMouseClicks
      speed := max (1 / 100) options.speed
      loopMode := options.loopMode
      loopCount := max 1 options.loopCount
      pauseTimeoutS :=
        if 0 < options.pauseTimeoutS ∨ options.loopStopBehavior = "pause_run" then
          max 0 options.pauseTimeoutS
        else 0
      loopStopBehavior :=
        if options.loopStopBehavior = "" then "finish_run" else options.loopStopBehavior }

def EditableControl.written (c : EditableControl) : OrderedEvent :=
  ⟨macroEvent c.tUs (.control c.mode (c.options.written c.mode)), c.originalOrder⟩

/- All events, the lists one after the other. -/
def TimelineLists.written (lists : TimelineLists) : List OrderedEvent :=
  lists.events.flatMap EditableEvent.written ++ lists.relative ++
    lists.moves.map EditableMove.written ++ lists.controls.map EditableControl.written ++
      lists.raw

def maxOrder (orders : List (Option ℤ)) : ℤ := (orders.reduceOption.max?).getD (-1)

/- The order number of the event at a place: its own, or one behind all that there are. -/
def resolvedOrder (maxOriginalOrder : ℤ) (entry : OrderedEvent × ℕ) : ℤ :=
  entry.1.order.getD (maxOriginalOrder + 1 + entry.2)

def reconstructKey (maxOriginalOrder : ℤ) (entry : OrderedEvent × ℕ) : ℤ ×ₗ ℤ :=
  toLex (entry.1.event.tUs, resolvedOrder maxOriginalOrder entry)

def reconstructEvents (lists : TimelineLists) : List MacroEvent :=
  let raw := lists.written
  let maxOriginalOrder := maxOrder (raw.map (·.order))
  (sortedOn (reconstructKey maxOriginalOrder) raw.zipIdx).map (·.1.event)

end Keymasq.MacroEditor
