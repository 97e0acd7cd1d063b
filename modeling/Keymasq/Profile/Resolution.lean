import Keymasq.Foundation.Sorting
import Keymasq.Profile.Model
import Mathlib.Data.Finset.Dedup
import Mathlib.Data.Prod.Lex
import Mathlib.Data.String.Basic

/-!
# Resolving the active profiles

The profiles that apply to a window are put in order, runtime activations go on
top, and each later layer overrides the mappings, combos and rollover groups of
the layers below it.
-/

namespace Keymasq.Profile.Resolution
open Foundation Foundation.Json Foundation.Sorting Keymasq.Combo.Names Keymasq.Profile.Model

/-- String operations besides those of `PyStr`: `casefold`, `str(value)`, and `re.search` with
`none` for a pattern that is no regular expression. -/
class PyText extends PyStr where
  casefold : String → String
  str : Value → String
  search : String → String → Option Bool

variable [PyText]

/-! ## Window rules -/

abbrev WindowInfo := Dict String Value

def normalizeWindowRuleField (value : String) : String :=
  let field := PyStr.lower (PyStr.strip value)
  if field = "tags" then "tag" else field

def windowRuleFieldCapabilities : List (String × String) :=
  [("tag", "window_tags"), ("layer", "layer_focus")]

def windowRuleFieldSupported (field : String) (capabilities : List String) : Bool :=
  match windowRuleFieldCapabilities.lookup (normalizeWindowRuleField field) with
  | none => true
  | some capability => capability ∈ capabilities

def hasUnsupportedRules (config : ProfileConfig) (capabilities : List String) : Bool :=
  config.windowRules.any fun rule => !windowRuleFieldSupported rule.field capabilities

/- `any(re.search(pattern, str(tag)) for tag in tags)`: a bad pattern raises at the first tag. -/
def searchTags (pattern : String) : List Value → Option Bool
  | [] => some false
  | tag :: tags =>
    match PyText.search pattern (PyText.str tag) with
    | none => none
    | some true => some true
    | some false => searchTags pattern tags

def matchesRule (rule : WindowRule) (windowInfo : WindowInfo) : Bool :=
  let field := normalizeWindowRuleField rule.field
  if field = "tag" then
    (searchTags rule.pattern (((windowInfo.get? "tags").map Value.items).getD [])).getD false
  else if field ∈ ["class", "title", "layer"] then
    match windowInfo.getD field (.str "") with
    | .str text => text ≠ "" && (PyText.search rule.pattern text).getD false
    | _ => false
  else false

def matchesWindowRules (profile : ProfileConfig) (windowInfo : Option WindowInfo) : Bool :=
  match windowInfo with
  | none => false
  | some info =>
    !profile.windowRules.isEmpty && !info.entries.isEmpty &&
      profile.windowRules.all fun rule => matchesRule rule info

/-! ## Rollover groups -/

def rolloverMinMembers : ℕ := 2

/- A group replaces every earlier group that shares a member with it. -/
def layerRolloverGroup (layered : List RolloverGroup) (group : RolloverGroup) :
    List RolloverGroup :=
  if group.members.dedup.length < rolloverMinMembers then layered
  else
    (layered.filter fun existing => existing.members.all (· ∉ group.members)) ++ [group]

def layerRolloverGroups (groups : List RolloverGroup) : List RolloverGroup :=
  groups.foldl layerRolloverGroup []

/-! ## Devices -/

structure ResolvedDeviceProfile where
  hardwareId : String
  activeProfileNames : List String := []
  mappings : Dict String MappingAction := ∅
  mappingProfileNames : Dict String String := ∅
  alwaysGrabAll : Bool := false
  notifyProfiles : List String := []
  comboEventCount : ℕ := 0
  comboSources : Finset String := ∅
  rolloverButtons : Finset String := ∅

def applyMapping (profile : ProfileConfig) (resolved : ResolvedDeviceProfile)
    (mapping : String × MappingAction) : ResolvedDeviceProfile :=
  if mapping.2.actionType = .passthrough then
    { resolved with
      mappings := resolved.mappings.erase mapping.1
      mappingProfileNames := resolved.mappingProfileNames.erase mapping.1 }
  else
    { resolved with
      mappings := resolved.mappings.insert mapping.1
        { mapping.2 with sourceProfileName := some profile.name }
      mappingProfileNames := resolved.mappingProfileNames.insert mapping.1 profile.name }

def applyLayer (hardwareId : String) (resolved : ResolvedDeviceProfile)
    (profile : ProfileConfig) : ResolvedDeviceProfile :=
  match profile.getLayer hardwareId with
  | none => resolved
  | some layer =>
    layer.mappings.entries.foldl (applyMapping profile)
      { resolved with
        activeProfileNames := resolved.activeProfileNames ++ [profile.name]
        alwaysGrabAll := resolved.alwaysGrabAll || layer.alwaysGrabAll
        notifyProfiles :=
          if profile.notifyOnActivation then resolved.notifyProfiles ++ [profile.name]
          else resolved.notifyProfiles }

/- `sorted(set(ids))`. -/
def sortedSet (ids : List String) : List String := sortedOn id ids.dedup

def resolveDevices (activeProfiles : List ProfileConfig) (knownHardwareIds : List String) :
    Dict String ResolvedDeviceProfile :=
  Dict.ofList ((sortedSet knownHardwareIds).map fun hardwareId =>
    (hardwareId, activeProfiles.foldl (applyLayer hardwareId) { hardwareId := hardwareId }))

/-! ## Combos -/

abbrev ComboEventSignature := String × String × String

abbrev ComboSignature := List (List ComboEventSignature)

structure ResolvedCombo where
  id : String
  name : String
  steps : List ComboStep := []
  action : Option MappingAction := none
  profileName : String := ""
  recallTriggerKeys : Bool := false
  restoreTriggerKeys : List String := []
  matchAcrossDevices : Bool := false

def normalizeComboRestoreKeys (keys : List String) : List String :=
  ((keys.map normalizeComboEvdev).filter (· ≠ "")).eraseDups

def effectiveStep (combo : ComboConfig) (step : ComboStep) : ComboStep :=
  if combo.matchAcrossDevices then
    { step with events := step.events.map fun event =>
        { event with hardwareId := "", source := none } }
  else step

def stepSignature (step : ComboStep) : List ComboEventSignature :=
  sortedOn (fun event => toLex (event.1, toLex event.2))
    ((step.events.filter fun event => event.evdev ≠ "").map fun event =>
      (event.hardwareId, event.source.getD "", normalizeComboEvdev event.evdev))

/- `none` where a step has no events. -/
def normalizeComboSteps (combo : ComboConfig) : Option (ComboSignature × List ComboStep) :=
  let steps := combo.steps.map (effectiveStep combo)
  if combo.steps.any (fun step => step.events.isEmpty) ||
      steps.any (fun step => (stepSignature step).isEmpty) then none
  else some (steps.map stepSignature, steps)

def markComboEvent (profile : ProfileConfig) (devices : Dict String ResolvedDeviceProfile)
    (event : ComboEventSignature) : Dict String ResolvedDeviceProfile :=
  if event.1 = "" then devices
  else
    let resolved := devices.getD event.1 { hardwareId := event.1 }
    devices.insert event.1
      { resolved with
        activeProfileNames :=
          if profile.name ∈ resolved.activeProfileNames then resolved.activeProfileNames
          else resolved.activeProfileNames ++ [profile.name]
        comboEventCount := resolved.comboEventCount + 1
        notifyProfiles :=
          if profile.notifyOnActivation && profile.name ∉ resolved.notifyProfiles then
            resolved.notifyProfiles ++ [profile.name]
          else resolved.notifyProfiles
        comboSources :=
          if event.2.1 = "" then resolved.comboSources else insert event.2.1 resolved.comboSources }

structure CombosState where
  devices : Dict String ResolvedDeviceProfile
  combosBySignature : Dict ComboSignature ResolvedCombo := ∅

def resolveCombo (profile : ProfileConfig) (state : CombosState) (combo : ComboConfig) :
    CombosState :=
  match combo.action with
  | none => state
  | some action =>
    if combo.steps.isEmpty then state
    else
      match normalizeComboSteps combo with
      | none => state
      | some (signature, steps) =>
        { devices := signature.flatten.foldl (markComboEvent profile) state.devices
          combosBySignature := (state.combosBySignature.erase signature).insert signature
            { id := combo.id
              name := combo.name
              steps := steps
              action := some { action with sourceProfileName := some profile.name }
              profileName := profile.name
              recallTriggerKeys := combo.recallTriggerKeys
              restoreTriggerKeys := normalizeComboRestoreKeys combo.restoreTriggerKeys
              matchAcrossDevices := combo.matchAcrossDevices } }

def resolveCombos (activeProfiles : List ProfileConfig)
    (devices : Dict String ResolvedDeviceProfile) : CombosState :=
  activeProfiles.foldl (fun state profile => profile.combos.foldl (resolveCombo profile) state)
    { devices := devices }

/-! ## The whole resolution -/

structure Query where
  windowInfo : Option WindowInfo := none
  capabilities : List String := []
  hardwareIds : List String := []
  runtimeProfileNames : List String := []

structure ResolvedProfiles where
  activeProfiles : List ProfileConfig
  devices : Dict String ResolvedDeviceProfile
  combos : List ResolvedCombo
  rolloverGroups : List RolloverGroup

/- The profile applies without a runtime activation. -/
def applies (query : Query) (profile : ProfileConfig) : Bool :=
  profile.enabled && !hasUnsupportedRules profile query.capabilities &&
    (profile.isPermanent || matchesWindowRules profile query.windowInfo)

def sortKey (profile : ProfileConfig) : ℕ ×ₗ ℤ ×ₗ ℕ ×ₗ String :=
  toLex (if profile.isPermanent then 0 else 1,
    toLex (profile.priority,
      toLex (profile.createdAt.getD 0, PyText.casefold profile.name)))

def runtimeNames (query : Query) : List String :=
  ((query.runtimeProfileNames.map PyStr.strip).filter (· ≠ "")).eraseDups

def findProfile (profiles : List ProfileConfig) (name : String) : Option ProfileConfig :=
  profiles.find? fun profile => profile.name = name

def runtimeProfiles (query : Query) (profiles : List ProfileConfig) : List ProfileConfig :=
  (runtimeNames query).filterMap (findProfile profiles)

/- Runtime activations go on top; a profile that also applies moves there. -/
def layerOrder (query : Query) (profiles : List ProfileConfig) : List ProfileConfig :=
  let active := sortedOn sortKey (profiles.filter (applies query))
  let runtime := runtimeProfiles query profiles
  if runtime.isEmpty then active
  else active.filter (fun profile => profile.name ∉ runtime.map ProfileConfig.name) ++ runtime

def layerIds (profiles : List ProfileConfig) : List String :=
  profiles.flatMap fun profile => profile.deviceLayers.keys

def addRolloverButton (devices : Dict String ResolvedDeviceProfile) (member : RolloverMember) :
    Dict String ResolvedDeviceProfile :=
  let resolved := devices.getD member.hardwareId { hardwareId := member.hardwareId }
  devices.insert member.hardwareId
    { resolved with rolloverButtons := insert member.button resolved.rolloverButtons }

/-- `profiles` are the loaded profiles in the order they were loaded. -/
def resolve (query : Query) (profiles : List ProfileConfig) : ResolvedProfiles :=
  let active := layerOrder query profiles
  let groups := layerRolloverGroups (active.flatMap ProfileConfig.rolloverGroups)
  let members := groups.flatMap RolloverGroup.members
  let knownHardwareIds := query.hardwareIds ++ layerIds (profiles.filter (applies query)) ++
    layerIds active ++ members.map RolloverMember.hardwareId
  let devices := members.foldl addRolloverButton (resolveDevices active knownHardwareIds)
  let combos := resolveCombos active devices
  ⟨active, combos.devices, combos.combosBySignature.values, groups⟩

end Keymasq.Profile.Resolution
