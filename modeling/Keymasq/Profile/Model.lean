import Keymasq.Combo.Names
import Keymasq.Foundation.Dict
import Keymasq.Foundation.Json

/-!
# Profiles

A profile maps the buttons of devices to actions and brings combos and rollover
groups of its own. Window rules tell when it applies.
-/

namespace Keymasq.Profile.Model
open Foundation Foundation.Json

inductive ActionType
  | passthrough
  | keyboard
  | mouse
  | gamepad
  | gamepadAxis
  | analogControl
  | motionControl
  | pointerMovement
  | exec
  | compositorDispatch
  | suppress
  | superkey
  | startMacroRecording
  | stopMacroRecording
  | playMacroSlot
  | cancelMacroPlayback
  | emergencyReset
  | macro'
  | mouseMoveRel
  | mouseMoveAbs
  | mouseMoveNaturalAbs
  | profileEnable
  | profileDisable
  | profileToggle
  | mpris
  | repeat
deriving DecidableEq

structure ProfileDeactivationPolicy where
  onTriggerEnd : Bool := false
  afterActions : Option ℤ := none
  timeoutMs : Option ℤ := none
deriving DecidableEq

namespace ProfileDeactivationPolicy

def hasCondition (p : ProfileDeactivationPolicy) : Bool :=
  p.onTriggerEnd || p.afterActions.any (0 < ·) || p.timeoutMs.any (0 < ·)

def positiveIntOrNone (value : Option ℤ) : Option ℤ := value.filter (0 < ·)

def normalized (p : ProfileDeactivationPolicy) : ProfileDeactivationPolicy where
  onTriggerEnd := p.onTriggerEnd
  afterActions := positiveIntOrNone p.afterActions
  timeoutMs := positiveIntOrNone p.timeoutMs

/- A policy sent to the daemon and read there keeps its positive conditions; with none left
there is no policy. -/
def parse (data : ProfileDeactivationPolicy) : Option ProfileDeactivationPolicy :=
  if data.normalized.hasCondition then some data.normalized else none

theorem positiveIntOrNone_twice (value : Option ℤ) :
    positiveIntOrNone (positiveIntOrNone value) = positiveIntOrNone value := by
  unfold positiveIntOrNone
  cases value with
  | none => rfl
  | some n => by_cases h : 0 < n <;> simp [Option.filter, h]

theorem parse_hasCondition {data p : ProfileDeactivationPolicy} (h : parse data = some p) :
    p.hasCondition = true := by
  unfold parse at h
  split at h
  · cases h
    assumption
  · cases h

/-- What one side has parsed, the other side parses to the same policy. -/
theorem parse_parse {data p : ProfileDeactivationPolicy} (h : parse data = some p) :
    parse p = some p := by
  have hcondition := parse_hasCondition h
  unfold parse at h
  split at h
  · cases h
    have htwice : data.normalized.normalized = data.normalized := by
      simp only [normalized, positiveIntOrNone_twice]
    rw [parse, htwice, if_pos hcondition]
  · cases h

end ProfileDeactivationPolicy

structure PointerMovementConfig where
  mode : String := "mouse"
  factorX : ℚ := 1
  factorY : ℚ := 1
  invertX : Bool := false
  invertY : Bool := false
  swapAxes : Bool := false
  outputId : Option String := none
  behavior : String := "velocity"
  fullSpeed : ℚ := 4000
  windowMs : ℤ := 20
  radius : ℚ := 1500
  overshoot : String := "drag"
  recenterMs : ℤ := 0
  xAxis : Option String := some "abs_rx"
  yAxis : Option String := some "abs_ry"
  xDirection : String := "both"
  yDirection : String := "both"
  deadzone : ℚ := 0
  minimumOutput : ℚ := 0
  responseCurve : ℚ := 1

/-- The fields of an action that profiles store or the session sends. -/
structure MappingAction where
  actionType : ActionType
  target : Option String := none
  outputId : Option String := none
  keys : Option Value := none
  cmd : Option String := none
  superkeyName : Option String := none
  analogControlNames : List String := []
  motionControlNames : List String := []
  pointerMovement : Option PointerMovementConfig := none
  macroName : Option String := none
  macroReplayMouseMovement : Bool := true
  macroReplayMouseClicks : Bool := true
  macroSpeed : ℚ := 1
  macroLoopMode : String := "none"
  macroLoopCount : ℤ := 1
  macroLoopStopBehavior : String := "finish_run"
  macroPauseTimeoutS : ℚ := 0
  macroBlockMouseMovement : Bool := false
  macroBlockKeyboard : Bool := false
  macroRecordingSlot : ℤ := 0
  profileName : Option String := none
  compositorId : Option String := none
  compositorDispatcher : Option String := none
  compositorArgs : Option String := none
  mprisCommand : Option String := none
  moveX : ℤ := 0
  moveY : ℤ := 0
  axisValue : ℤ := 0
  moveSpeed : ℚ := 12000
  moveJitter : ℚ := 3 / 10
  moveCurve : String := "natural"
  moveTolerance : ℤ := 2
  moveMaxDurationMs : ℤ := 3000
  rapidfireEnabled : Bool := false
  rapidfireHoldMs : ℤ := 20
  rapidfireWaitMs : ℤ := 20
  tapEnabled : Bool := false
  tapHoldMs : ℤ := 10
  profileDeactivation : Option ProfileDeactivationPolicy := none
  sourceProfileName : Option String := none
  repeatCategories : Option (List String) := none

structure WindowRule where
  field : String
  pattern : String

inductive RolloverWinner
  | newest
  | oldest
  | neutral
  | priority
deriving DecidableEq

structure RolloverMember where
  hardwareId : String
  button : String
deriving DecidableEq

structure RolloverGroup where
  name : String
  members : List RolloverMember := []
  winner : RolloverWinner := .newest
  restore : Bool := true
deriving DecidableEq

/-- Two groups without a common member. -/
def Apart (g g' : RolloverGroup) : Prop := ∀ m ∈ g.members, m ∉ g'.members

instance decidableApart (g g' : RolloverGroup) : Decidable (Apart g g') :=
  inferInstanceAs (Decidable (∀ m ∈ g.members, m ∉ g'.members))

theorem Apart.symm {g g' : RolloverGroup} (h : Apart g g') : Apart g' g :=
  fun m hm hm' => h m hm' hm

structure DeviceProfileLayer where
  hardwareId : String
  alwaysGrabAll : Bool := false
  mappings : Dict String MappingAction := ∅

structure ComboEvent where
  evdev : String
  hardwareId : String := ""
  source : Option String := none

structure ComboStep where
  events : List ComboEvent := []
  timeoutMs : Option ℤ := none

structure ComboConfig where
  id : String
  name : String := ""
  steps : List ComboStep := []
  action : Option MappingAction := none
  recallTriggerKeys : Bool := false
  restoreTriggerKeys : List String := []
  matchAcrossDevices : Bool := false

/-- `createdAt` counts the microseconds since `datetime.min`. -/
structure ProfileConfig where
  name : String
  enabled : Bool := true
  isPermanent : Bool := false
  priority : ℤ := 0
  notifyOnActivation : Bool := true
  activationMacroName : Option String := none
  deactivationMacroName : Option String := none
  windowRules : List WindowRule := []
  deviceLayers : Dict String DeviceProfileLayer := ∅
  combos : List ComboConfig := []
  rolloverGroups : List RolloverGroup := []
  image : Option String := none
  createdAt : Option ℕ := none

def ProfileConfig.getLayer (profile : ProfileConfig) (hardwareId : String) :
    Option DeviceProfileLayer :=
  profile.deviceLayers.get? hardwareId

end Keymasq.Profile.Model
