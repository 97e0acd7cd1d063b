import Keymasq.Foundation.Strings
import Keymasq.Profile.Model

/-!
# References of a profile

Actions name analog controls, motion controls and superkeys. When one of these is renamed or
deleted, the profiles that name it are rewritten. An action of a loaded profile has names only,
one that a caller builds may carry inline configurations as well.
-/

namespace Keymasq.Profile.References
open Foundation Strings Model

/-- An action with the first-name aliases and the inline configurations. -/
structure Action (α μ : Type) extends MappingAction where
  analogControlName : Option String := none
  analogControlConfig : Option α := none
  analogControlConfigs : List α := []
  motionControlName : Option String := none
  motionControlConfig : Option μ := none
  motionControlConfigs : List μ := []

structure Layer (α μ : Type) where
  hardwareId : String
  alwaysGrabAll : Bool := false
  mappings : Dict String (Action α μ) := ∅

structure Combo (α μ : Type) where
  id : String
  name : String := ""
  steps : List ComboStep := []
  action : Option (Action α μ) := none
  recallTriggerKeys : Bool := false
  restoreTriggerKeys : List String := []
  matchAcrossDevices : Bool := false

structure Config (α μ : Type) where
  name : String
  enabled : Bool := true
  isPermanent : Bool := false
  priority : ℤ := 0
  notifyOnActivation : Bool := true
  activationMacroName : Option String := none
  deactivationMacroName : Option String := none
  windowRules : List WindowRule := []
  deviceLayers : Dict String (Layer α μ) := ∅
  combos : List (Combo α μ) := []
  rolloverGroups : List RolloverGroup := []
  image : Option String := none
  createdAt : Option ℕ := none

structure Rewrite (α μ : Type) where
  config : Option (Config α μ)
  count : ℕ := 0

variable {α μ : Type} {found : Action α μ → Bool}

def suppress : Action α μ := { actionType := .suppress }

/- `MappingAction(ANALOG_CONTROL, analog_control_names=names)`: blank names go, the first one is
the alias. -/
def analogControl (names : List String) : Action α μ :=
  let names := (names.map strip).filter (· ≠ "")
  { actionType := .analogControl, analogControlNames := names, analogControlName := names.head? }

namespace Config

def layerActions (config : Config α μ) : List (Action α μ) :=
  config.deviceLayers.values.flatMap fun layer => layer.mappings.values

def comboActions (config : Config α μ) : List (Action α μ) := config.combos.filterMap Combo.action

def actions (config : Config α μ) : List (Action α μ) := config.layerActions ++ config.comboActions

def mapLayers (f : Action α μ → Action α μ) (config : Config α μ) : Config α μ :=
  { config with deviceLayers := config.deviceLayers.mapVal fun _ layer =>
      { layer with mappings := layer.mappings.mapVal fun _ => f } }

def mapCombos (f : Action α μ → Action α μ) (config : Config α μ) : Config α μ :=
  { config with combos := config.combos.map fun combo =>
      { combo with action := combo.action.map f } }

def mapActions (f : Action α μ → Action α μ) (config : Config α μ) : Config α μ :=
  (config.mapLayers f).mapCombos f

end Config

/- `Rewrite(updated if count else None, count)`. -/
def counted (updated : Config α μ) (count : ℕ) : Rewrite α μ :=
  ⟨if count = 0 then none else some updated, count⟩

def onlyWhere (found : Action α μ → Bool) (rewrite : Action α μ → Action α μ)
    (action : Action α μ) : Action α μ :=
  if found action then rewrite action else action

/- The loop over the mappings of every layer. -/
def rewriteLayers (found : Action α μ → Bool) (rewrite : Action α μ → Action α μ)
    (config : Config α μ) : Rewrite α μ :=
  counted (config.mapLayers (onlyWhere found rewrite)) (config.layerActions.countP found)

/- The loops over the mappings of every layer and over the combos. -/
def rewriteActions (found : Action α μ → Bool) (rewrite : Action α μ → Action α μ)
    (config : Config α μ) : Rewrite α μ :=
  counted (config.mapActions (onlyWhere found rewrite)) (config.actions.countP found)

def namesAnalogControl (name : String) (action : Action α μ) : Bool :=
  action.actionType = .analogControl ∧ name ∈ action.analogControlNames

def namesMotionControl (name : String) (action : Action α μ) : Bool :=
  action.actionType = .motionControl ∧ name ∈ action.motionControlNames

def namesSuperkey (name : String) (action : Action α μ) : Bool :=
  action.actionType = .superkey ∧ action.superkeyName = some name

def removeAnalogControl (config : Config α μ) (name : String) : Rewrite α μ :=
  rewriteLayers (namesAnalogControl name) (fun action =>
    let remainingNames := action.analogControlNames.filter (· ≠ name)
    if remainingNames = [] then suppress else analogControl remainingNames) config

def renameAnalogControl (config : Config α μ) (oldName newName : String) : Rewrite α μ :=
  if oldName = newName then ⟨none, 0⟩
  else rewriteLayers (namesAnalogControl oldName) (fun action =>
    let names := action.analogControlNames.map fun name => if name = oldName then newName else name
    { action with analogControlNames := names, analogControlName := names.head? }) config

def removeMotionControl (config : Config α μ) (name : String) : Rewrite α μ :=
  rewriteLayers (namesMotionControl name) (fun action =>
    let remainingNames := action.motionControlNames.filter (· ≠ name)
    if remainingNames = [] ∧ action.motionControlConfigs.isEmpty = true then suppress
    else { action with
      motionControlNames := remainingNames, motionControlName := remainingNames.head? }) config

def renameMotionControl (config : Config α μ) (oldName newName : String) : Rewrite α μ :=
  if oldName = newName then ⟨none, 0⟩
  else rewriteLayers (namesMotionControl oldName) (fun action =>
    let names := action.motionControlNames.map fun name => if name = oldName then newName else name
    { action with motionControlNames := names, motionControlName := names.head? }) config

def removeSuperkey (config : Config α μ) (name : String) : Rewrite α μ :=
  rewriteActions (namesSuperkey name) (fun _ => suppress) config

def renameSuperkey (config : Config α μ) (oldName newName : String) : Rewrite α μ :=
  if oldName = newName then ⟨none, 0⟩
  else rewriteActions (namesSuperkey oldName)
    (fun action => { action with superkeyName := some newName }) config

/-! ## What a rewrite is for -/

inductive Kind
  | analogControl | motionControl | superkey
  deriving DecidableEq

namespace Kind

def actionType : Kind → ActionType
  | analogControl => .analogControl
  | motionControl => .motionControl
  | superkey => .superkey

def names (action : Action α μ) : Kind → List String
  | analogControl => action.analogControlNames
  | motionControl => action.motionControlNames
  | superkey => action.superkeyName.toList

def firstName (action : Action α μ) : Kind → Option String
  | analogControl => action.analogControlName
  | motionControl => action.motionControlName
  | superkey => action.superkeyName

def hasInline (action : Action α μ) : Kind → Bool
  | analogControl => !action.analogControlConfigs.isEmpty
  | motionControl => !action.motionControlConfigs.isEmpty
  | superkey => false

/- The action with other references, and with nothing else changed. -/
def withNames (action : Action α μ) (names : List String) : Kind → Action α μ
  | analogControl => { action with analogControlNames := names, analogControlName := names.head? }
  | motionControl => { action with motionControlNames := names, motionControlName := names.head? }
  | superkey => { action with superkeyName := names.head? }

/-- The action refers to the name, in its list or by its alias. -/
def refers (kind : Kind) (name : String) (action : Action α μ) : Bool :=
  action.actionType = kind.actionType ∧
    (name ∈ kind.names action ∨ kind.firstName action = some name)

end Kind

/-- Removal, or renaming to the given name. -/
structure Operation where
  kind : Kind
  newName : Option String

def Operation.run (operation : Operation) (config : Config α μ) (name : String) : Rewrite α μ :=
  match operation with
  | ⟨.analogControl, none⟩ => removeAnalogControl config name
  | ⟨.analogControl, some newName⟩ => renameAnalogControl config name newName
  | ⟨.motionControl, none⟩ => removeMotionControl config name
  | ⟨.motionControl, some newName⟩ => renameMotionControl config name newName
  | ⟨.superkey, none⟩ => removeSuperkey config name
  | ⟨.superkey, some newName⟩ => renameSuperkey config name newName

/- An action with nothing left to run is suppressed. -/
def Operation.rewritten (operation : Operation) (name : String) (action : Action α μ) :
    Action α μ :=
  let kind := operation.kind
  match operation.newName with
  | none =>
    let remaining := (kind.names action).filter (· ≠ name)
    if remaining = [] ∧ kind.hasInline action = false then suppress
    else kind.withNames action remaining
  | some newName =>
    kind.withNames action ((kind.names action).map fun n => if n = name then newName else n)

/-- Every reference is rewritten, nothing else changes, and the report tells whether there was
one. -/
structure Exact (operation : Operation) (name : String) (config : Config α μ)
    (result : Rewrite α μ) : Prop where
  clean : ∀ action ∈ (result.config.getD config).actions,
    operation.kind.refers name action = false
  framed : result.config.getD config =
    config.mapActions (onlyWhere (operation.kind.refers name) (operation.rewritten name))
  reported : result.config.isSome = true ↔
    ∃ action ∈ config.actions, operation.kind.refers name action = true
  positive : 0 < result.count ↔
    ∃ action ∈ config.actions, operation.kind.refers name action = true

/-- What `MappingAction` makes of its fields, and the codec of a stored action. -/
structure Normal (action : Action α μ) : Prop where
  analogNames : (action.analogControlNames.map strip).filter (· ≠ "") = action.analogControlNames
  analogAlias : action.analogControlName = action.analogControlNames.head?
  analogInline : action.analogControlConfig = action.analogControlConfigs.head?
  motionAlias : action.motionControlName = action.motionControlNames.head?

/-- No combo names the control, and a rebuilt action had no fields to lose. -/
structure Covered (operation : Operation) (name : String) (config : Config α μ) : Prop where
  combos : operation.kind ≠ .superkey →
    ∀ action ∈ config.comboActions, operation.kind.refers name action = false
  rebuilt : operation.kind = .analogControl → operation.newName = none →
    ∀ action ∈ config.layerActions, operation.kind.refers name action = true →
      action.analogControlConfigs = [] ∧
        ((∃ other ∈ action.analogControlNames, other ≠ name) →
          action = analogControl action.analogControlNames)

/-! ## Rewriting the actions of a profile -/

section
variable {config : Config α μ} {f g : Action α μ → Action α μ}

theorem mem_layerActions {action : Action α μ} :
    action ∈ config.layerActions ↔ ∃ hardwareId layer, config.deviceLayers.get? hardwareId = some layer ∧
      ∃ button, layer.mappings.get? button = some action := by
  unfold Config.layerActions
  rw [List.mem_flatMap]
  constructor
  · rintro ⟨layer, hlayer, haction⟩
    obtain ⟨hardwareId, hget⟩ := Dict.mem_values_iff.mp hlayer
    exact ⟨hardwareId, layer, hget, Dict.mem_values_iff.mp haction⟩
  · rintro ⟨hardwareId, layer, hget, haction⟩
    exact ⟨layer, Dict.mem_values_iff.mpr ⟨hardwareId, hget⟩, Dict.mem_values_iff.mpr haction⟩

theorem values_mapVal {κ ν ξ : Type} (h : κ → ν → ξ) (d : Dict κ ν) :
    (d.mapVal h).values = d.entries.map fun e => h e.1 e.2 := by
  unfold Dict.values Dict.mapVal
  rw [List.map_map]
  rfl

@[simp] theorem layerActions_mapLayers (f : Action α μ → Action α μ) (config : Config α μ) :
    (config.mapLayers f).layerActions = config.layerActions.map f := by
  unfold Config.layerActions Config.mapLayers
  rw [values_mapVal, List.map_flatMap, Dict.values, List.flatMap_map, List.flatMap_map]
  refine List.flatMap_congr fun e _ => ?_
  rw [values_mapVal, Dict.values, List.map_map]
  rfl

@[simp] theorem comboActions_mapCombos (f : Action α μ → Action α μ) (config : Config α μ) :
    (config.mapCombos f).comboActions = config.comboActions.map f := by
  unfold Config.comboActions Config.mapCombos
  rw [List.filterMap_map, List.map_filterMap]
  rfl

@[simp] theorem comboActions_mapLayers (f : Action α μ → Action α μ) (config : Config α μ) :
    (config.mapLayers f).comboActions = config.comboActions := rfl

@[simp] theorem layerActions_mapCombos (f : Action α μ → Action α μ) (config : Config α μ) :
    (config.mapCombos f).layerActions = config.layerActions := rfl

@[simp] theorem actions_mapActions (f : Action α μ → Action α μ) (config : Config α μ) :
    (config.mapActions f).actions = config.actions.map f := by
  unfold Config.actions Config.mapActions
  rw [layerActions_mapCombos, layerActions_mapLayers, comboActions_mapCombos,
    comboActions_mapLayers, List.map_append]

theorem mapVal_congr {κ ν ξ : Type} {h k : κ → ν → ξ} {d : Dict κ ν}
    (heq : ∀ e ∈ d.entries, h e.1 e.2 = k e.1 e.2) : d.mapVal h = d.mapVal k :=
  Dict.ext_entries (List.map_congr_left fun e he => by rw [heq e he])

theorem mapLayers_congr (h : ∀ action ∈ config.layerActions, f action = g action) :
    config.mapLayers f = config.mapLayers g := by
  unfold Config.mapLayers
  congr 1
  refine mapVal_congr fun layer hlayer => ?_
  congr 1
  refine mapVal_congr fun e he => h e.2 (List.mem_flatMap.mpr ⟨layer.2, ?_, ?_⟩)
  · exact List.mem_map_of_mem hlayer
  · exact List.mem_map_of_mem he

theorem mapCombos_congr (h : ∀ action ∈ config.comboActions, f action = g action) :
    config.mapCombos f = config.mapCombos g := by
  unfold Config.mapCombos
  congr 1
  refine List.map_congr_left fun combo hcombo => ?_
  congr 1
  refine Option.map_congr fun action haction => h action ?_
  exact List.mem_filterMap.mpr ⟨combo, hcombo, haction⟩

theorem mapLayers_id (config : Config α μ) : config.mapLayers id = config := by
  have hdict {κ ν : Type} (d : Dict κ ν) : (d.mapVal fun _ => id) = d :=
    Dict.ext_entries (List.map_id _)
  unfold Config.mapLayers
  simp only [hdict]
  exact congrArg (fun layers => { config with deviceLayers := layers }) (hdict config.deviceLayers)

theorem mapCombos_id (config : Config α μ) : config.mapCombos id = config := by
  unfold Config.mapCombos
  simp only [Option.map_id, id_eq, List.map_id_fun']

end

/-! ## What a rewrite does -/

variable {operation : Operation} {name : String} {config : Config α μ}

theorem onlyWhere_of_not {action : Action α μ} (h : found action = false)
    (rewrite : Action α μ → Action α μ) :
    onlyWhere found rewrite action = action := if_neg (by rw [h]; exact Bool.false_ne_true)

/-- What a rewrite leaves is the rewritten profile, also when it reports no change. -/
theorem getD_counted {updated : Config α μ} {count : ℕ} (h : count = 0 → updated = config) :
    (counted updated count).config.getD config = updated := by
  unfold counted
  dsimp only
  split
  case isTrue hzero => exact (h hzero).symm
  · rfl

theorem isSome_counted {updated : Config α μ} {count : ℕ} :
    (counted updated count).config.isSome = true ↔ 0 < count := by
  unfold counted
  dsimp only
  split
  case isTrue hzero =>
    rw [hzero]
    simp
  case isFalse hcount =>
    simp [Nat.pos_of_ne_zero hcount]

theorem mapLayers_of_none {rewrite : Action α μ → Action α μ}
    (h : ∀ action ∈ config.layerActions, found action = false) :
    config.mapLayers (onlyWhere found rewrite) = config :=
  (mapLayers_congr fun action haction => onlyWhere_of_not (h action haction) rewrite).trans
    (mapLayers_id config)

theorem mapCombos_of_none {rewrite : Action α μ → Action α μ}
    (h : ∀ action ∈ config.comboActions, found action = false) :
    config.mapCombos (onlyWhere found rewrite) = config :=
  (mapCombos_congr fun action haction => onlyWhere_of_not (h action haction) rewrite).trans
    (mapCombos_id config)

theorem rewriteLayers_spec (found : Action α μ → Bool) (rewrite : Action α μ → Action α μ)
    (config : Config α μ) :
    (rewriteLayers found rewrite config).config.getD config =
        config.mapLayers (onlyWhere found rewrite) ∧
      ((rewriteLayers found rewrite config).config.isSome = true ↔
        ∃ action ∈ config.layerActions, found action = true) ∧
      (0 < (rewriteLayers found rewrite config).count ↔
        ∃ action ∈ config.layerActions, found action = true) := by
  refine ⟨getD_counted fun hzero => mapLayers_of_none fun action haction => ?_, ?_, ?_⟩
  · exact Bool.eq_false_iff.mpr (List.countP_eq_zero.mp hzero action haction)
  · exact isSome_counted.trans List.countP_pos_iff
  · exact List.countP_pos_iff

theorem rewriteActions_spec (found : Action α μ → Bool) (rewrite : Action α μ → Action α μ)
    (config : Config α μ) :
    (rewriteActions found rewrite config).config.getD config =
        config.mapActions (onlyWhere found rewrite) ∧
      ((rewriteActions found rewrite config).config.isSome = true ↔
        ∃ action ∈ config.actions, found action = true) ∧
      (0 < (rewriteActions found rewrite config).count ↔
        ∃ action ∈ config.actions, found action = true) := by
  refine ⟨getD_counted fun hzero => ?_, ?_, ?_⟩
  · have hnone (action : Action α μ) (haction : action ∈ config.actions) : found action = false :=
      Bool.eq_false_iff.mpr (List.countP_eq_zero.mp hzero action haction)
    unfold Config.mapActions
    rw [mapLayers_of_none fun action haction => hnone action (List.mem_append_left _ haction)]
    exact mapCombos_of_none fun action haction => hnone action (List.mem_append_right _ haction)
  · exact isSome_counted.trans List.countP_pos_iff
  · exact List.countP_pos_iff

/-- A rewritten action does not refer to the name. -/
theorem refers_rewritten (hnew : operation.newName ≠ some name) (action : Action α μ) :
    operation.kind.refers name (operation.rewritten name action) = false := by
  obtain ⟨kind, newName⟩ := operation
  have hnames {names : List String} (hclean : name ∉ names) :
      kind.refers name (kind.withNames action names) = false := by
    have hhead : names.head? ≠ some name := fun hhead => hclean (List.mem_of_head? hhead)
    cases kind with
    | analogControl
    | motionControl => simp [Kind.refers, Kind.withNames, Kind.names, Kind.firstName, hclean, hhead]
    | superkey => simp [Kind.refers, Kind.withNames, Kind.names, Kind.firstName, hhead]
  cases newName with
  | none =>
    unfold Operation.rewritten
    dsimp only
    split
    · cases kind <;> rfl
    · refine hnames fun hmem => ?_
      simpa using (List.mem_filter.mp hmem).2
  | some newName =>
    refine hnames fun hmem => ?_
    obtain ⟨n, -, hn⟩ := List.mem_map.mp hmem
    split at hn
    · exact hnew (congrArg some hn)
    case isFalse hne => exact hne hn

/-- In an action of a loaded profile the alias refers to nothing that the names do not. -/
theorem found_eq_refers {action : Action α μ} (h : Normal action) (name : String) :
    namesAnalogControl name action = Kind.analogControl.refers name action ∧
      namesMotionControl name action = Kind.motionControl.refers name action ∧
      namesSuperkey name action = Kind.superkey.refers name action := by
  unfold namesAnalogControl namesMotionControl namesSuperkey Kind.refers Kind.names Kind.firstName
    Kind.actionType
  have hanalog := h.analogAlias
  have hmotion := h.motionAlias
  refine ⟨?_, ?_, ?_⟩
  · rw [decide_eq_decide, hanalog]
    have hhead : action.analogControlNames.head? = some name → name ∈ action.analogControlNames :=
      List.mem_of_head?
    tauto
  · rw [decide_eq_decide, hmotion]
    have hhead : action.motionControlNames.head? = some name → name ∈ action.motionControlNames :=
      List.mem_of_head?
    tauto
  · rw [decide_eq_decide]
    exact and_congr_right fun _ => (or_iff_right_of_imp Option.mem_toList.mp).symm

section
variable {found : Action α μ → Bool} {rewrite : Action α μ → Action α μ}
  (hnew : operation.newName ≠ some name)
  (hfound : ∀ action ∈ config.actions, found action = operation.kind.refers name action)
include hnew hfound

/-- A rewrite of all actions is exact if it rewrites each one as it should. -/
theorem exact_of_actions
    (hrewrite : ∀ action, operation.kind.refers name action = true →
      rewrite action = operation.rewritten name action) :
    Exact operation name config (rewriteActions found rewrite config) := by
  obtain ⟨hafter, hsome, hcount⟩ := rewriteActions_spec found rewrite config
  have hsame : ∀ action ∈ config.actions, onlyWhere found rewrite action =
      onlyWhere (operation.kind.refers name) (operation.rewritten name) action := by
    intro action haction
    unfold onlyWhere
    rw [hfound action haction]
    split
    case isTrue hrefers => exact hrewrite action hrefers
    · rfl
  have hframed : (rewriteActions found rewrite config).config.getD config = config.mapActions
      (onlyWhere (operation.kind.refers name) (operation.rewritten name)) := by
    rw [hafter]
    unfold Config.mapActions
    rw [mapLayers_congr fun action haction => hsame action (List.mem_append_left _ haction)]
    exact mapCombos_congr fun action haction => hsame action (List.mem_append_right _ haction)
  have hexists : (∃ action ∈ config.actions, found action = true) ↔
      ∃ action ∈ config.actions, operation.kind.refers name action = true :=
    exists_congr fun action => and_congr_right fun haction => by rw [hfound action haction]
  refine ⟨?_, hframed, hsome.trans hexists, hcount.trans hexists⟩
  rw [hframed, actions_mapActions]
  intro action haction
  obtain ⟨before, hbefore, rfl⟩ := List.mem_map.mp haction
  unfold onlyWhere
  split
  · exact refers_rewritten hnew before
  case isFalse hrefers => exact Bool.eq_false_iff.mpr hrefers

/-- Where no combo refers to the name, the layers are all there is to rewrite. -/
theorem exact_of_layers
    (hcombos : ∀ action ∈ config.comboActions, operation.kind.refers name action = false)
    (hrewrite : ∀ action ∈ config.layerActions, operation.kind.refers name action = true →
      rewrite action = operation.rewritten name action) :
    Exact operation name config (rewriteLayers found rewrite config) := by
  obtain ⟨hafter, hsome, hcount⟩ := rewriteLayers_spec found rewrite config
  have hall : Exact operation name config
      (rewriteActions found (operation.rewritten name) config) :=
    exact_of_actions hnew hfound fun _ _ => rfl
  obtain ⟨hafter', hsome', hcount'⟩ := rewriteActions_spec found (operation.rewritten name) config
  have hlayers : config.mapLayers (onlyWhere found rewrite) =
      config.mapLayers (onlyWhere found (operation.rewritten name)) := by
    refine mapLayers_congr fun action haction => ?_
    have hrefers := hfound action (List.mem_append_left _ haction)
    unfold onlyWhere
    split
    case isTrue hmatch => exact hrewrite action haction (hrefers.symm.trans hmatch)
    · rfl
  have hsame : (rewriteLayers found rewrite config).config.getD config =
      (rewriteActions found (operation.rewritten name) config).config.getD config := by
    rw [hafter, hafter', hlayers]
    unfold Config.mapActions
    refine (mapCombos_of_none fun action haction => ?_).symm
    rw [hfound action (List.mem_append_right _ haction)]
    exact hcombos action haction
  have hexists : (∃ action ∈ config.layerActions, found action = true) ↔
      ∃ action ∈ config.actions, found action = true := by
    constructor
    · rintro ⟨action, haction, hmatch⟩
      exact ⟨action, List.mem_append_left _ haction, hmatch⟩
    · rintro ⟨action, haction, hmatch⟩
      obtain hlayer | hcombo := List.mem_append.mp haction
      · exact ⟨action, hlayer, hmatch⟩
      · rw [hfound action haction, hcombos action hcombo] at hmatch
        exact absurd hmatch Bool.false_ne_true
  refine ⟨?_, ?_, ?_, ?_⟩
  · rw [hsame]
    exact hall.clean
  · rw [hsame]
    exact hall.framed
  · exact (hsome.trans (hexists.trans hsome'.symm)).trans hall.reported
  · exact (hcount.trans (hexists.trans hcount'.symm)).trans hall.positive

omit hnew hfound in
/-- A rewrite of the layers leaves the combos alone. -/
theorem combos_of_exact (h : Exact operation name config (rewriteLayers found rewrite config)) :
    ∀ action ∈ config.comboActions, operation.kind.refers name action = false := by
  intro action haction
  refine h.clean action (List.mem_append_right _ ?_)
  rw [(rewriteLayers_spec found rewrite config).1]
  exact haction

end

/-! ## Rebuilding the action of an analog control -/

section
variable {action : Action α μ}

theorem Normal.clean_names (h : Normal action) :
    ∀ n ∈ action.analogControlNames, strip n = n ∧ n ≠ "" := by
  intro n hn
  rw [← h.analogNames] at hn
  obtain ⟨hmem, hblank⟩ := List.mem_filter.mp hn
  obtain ⟨m, -, rfl⟩ := List.mem_map.mp hmem
  exact ⟨strip_strip m, of_decide_eq_true hblank⟩

theorem Normal.kept_names (h : Normal action) (p : String → Bool) :
    ((action.analogControlNames.filter p).map strip).filter (· ≠ "") =
      action.analogControlNames.filter p := by
  have hclean : ∀ n ∈ action.analogControlNames.filter p, strip n = n ∧ n ≠ "" :=
    fun n hn => h.clean_names n (List.mem_of_mem_filter hn)
  rw [(List.map_congr_left fun n hn => (hclean n hn).1).trans (List.map_id' _)]
  exact List.filter_eq_self.mpr fun n hn => decide_eq_true (hclean n hn).2

/-- Rebuilding the action changes nothing else if there was nothing else. -/
theorem rebuilt_iff (h : Normal action) (p : String → Bool) :
    analogControl (action.analogControlNames.filter p) =
        Kind.analogControl.withNames action (action.analogControlNames.filter p) ↔
      action = analogControl action.analogControlNames := by
  unfold analogControl
  dsimp only
  rw [h.kept_names p, h.analogNames]
  constructor
  · intro heq
    calc action
        = { Kind.analogControl.withNames action (action.analogControlNames.filter p) with
            analogControlNames := action.analogControlNames
            analogControlName := action.analogControlName } := rfl
      _ = _ := by rw [← heq, h.analogAlias]
  · intro heq
    rw [heq]
    rfl

end

/-- Two rewrites with the same result agree on every action of the layers. -/
theorem eq_of_mapLayers {f g : Action α μ → Action α μ}
    (h : (config.mapLayers f).deviceLayers = (config.mapLayers g).deviceLayers) :
    ∀ action ∈ config.layerActions, f action = g action := by
  intro action haction
  obtain ⟨hardwareId, layer, hlayer, button, haction⟩ := mem_layerActions.mp haction
  have hlayers := congrArg (Dict.get? · hardwareId) h
  unfold Config.mapLayers at hlayers
  simp only [Dict.get?_mapVal, hlayer, Option.map_some, Option.some.injEq, Layer.mk.injEq,
    true_and] at hlayers
  have hmappings := congrArg (Dict.get? · button) hlayers
  simp only [Dict.get?_mapVal, haction, Option.map_some, Option.some.injEq] at hmappings
  exact hmappings

section
variable {action : Action α μ}

/- What `removeAnalogControl` makes of an action that names the control. -/
def withoutAnalogControl (name : String) (action : Action α μ) : Action α μ :=
  let remainingNames := action.analogControlNames.filter (· ≠ name)
  if remainingNames = [] then suppress else analogControl remainingNames

theorem exists_other_iff :
    (∃ other ∈ action.analogControlNames, other ≠ name) ↔
      action.analogControlNames.filter (· ≠ name) ≠ [] := by
  rw [ne_eq, List.filter_eq_nil_iff]
  simp

/-- The action is what it should be exactly if there was nothing to lose. -/
theorem withoutAnalogControl_iff (h : Normal action)
    (hrefers : Kind.analogControl.refers name action = true) :
    withoutAnalogControl name action =
        Operation.rewritten ⟨.analogControl, none⟩ name action ↔
      action.analogControlConfigs = [] ∧
        ((∃ other ∈ action.analogControlNames, other ≠ name) →
          action = analogControl action.analogControlNames) := by
  rw [exists_other_iff]
  unfold withoutAnalogControl Operation.rewritten
  dsimp only [Kind.names]
  by_cases hnone : action.analogControlNames.filter (· ≠ name) = []
  · rw [if_pos hnone, hnone]
    by_cases hinline : Kind.analogControl.hasInline action = false
    · rw [if_pos ⟨rfl, hinline⟩]
      have hconfigs : action.analogControlConfigs = [] := by
        unfold Kind.hasInline at hinline
        simpa using hinline
      exact ⟨fun _ => ⟨hconfigs, fun hne => absurd rfl hne⟩, fun _ => rfl⟩
    · rw [if_neg fun hboth => hinline hboth.2]
      constructor
      · -- the rebuilt action is suppressed, the other one still runs its configurations
        intro heq
        have htype : action.actionType = .analogControl := (of_decide_eq_true hrefers).1
        have hsuppress := congrArg (fun a : Action α μ => a.actionType) heq
        have hne : ActionType.suppress ≠ .analogControl := by decide
        exact absurd (hsuppress.trans htype) hne
      · rintro ⟨hconfigs, -⟩
        refine absurd ?_ hinline
        unfold Kind.hasInline
        rw [hconfigs]
        rfl
  · rw [if_neg hnone, if_neg fun hboth => hnone hboth.1, rebuilt_iff h]
    constructor
    · intro heq
      refine ⟨?_, fun _ => heq⟩
      rw [heq]
      rfl
    · rintro ⟨-, hbare⟩
      exact hbare hnone

end

/-- A rewrite is exact exactly if no combo names the control and the action rebuilt by the removal
of an analog control had nothing but names. -/
theorem rewrite_exact_iff (operation : Operation) (name : String) (config : Config α μ)
    (hnormal : ∀ action ∈ config.actions, Normal action) (hnew : operation.newName ≠ some name) :
    Exact operation name config (operation.run config name) ↔ Covered operation name config := by
  have hfound (action : Action α μ) (haction : action ∈ config.actions) :=
    found_eq_refers (hnormal action haction) name
  have hcovered (hcombos : operation.kind ≠ .superkey →
      ∀ action ∈ config.comboActions, operation.kind.refers name action = false)
      (hother : operation ≠ ⟨.analogControl, none⟩) : Covered operation name config :=
    ⟨hcombos, fun hkind hremove => absurd (by cases operation; cases hkind; cases hremove; rfl) hother⟩
  obtain ⟨kind, newName⟩ := operation
  cases kind with
  | analogControl =>
    have hanalog := fun action haction => (hfound action haction).1
    have hkind : Kind.analogControl ≠ .superkey := by decide
    cases newName with
    | none =>
      change Exact _ name config (rewriteLayers (namesAnalogControl name)
        (withoutAnalogControl name) config) ↔ _
      constructor
      · intro hexact
        refine ⟨fun _ => combos_of_exact hexact, fun _ _ action haction hrefers => ?_⟩
        have hmem := List.mem_append_left config.comboActions haction
        have hframed := hexact.framed
        rw [(rewriteLayers_spec _ _ config).1] at hframed
        have hlayers : (config.mapLayers (onlyWhere (namesAnalogControl name)
              (withoutAnalogControl name))).deviceLayers =
            (config.mapLayers (onlyWhere (Kind.analogControl.refers name)
              (Operation.rewritten ⟨.analogControl, none⟩ name))).deviceLayers := by
          rw [hframed]
          rfl
        have heq := eq_of_mapLayers hlayers action haction
        unfold onlyWhere at heq
        rw [if_pos ((hanalog action hmem).trans hrefers), if_pos hrefers] at heq
        exact (withoutAnalogControl_iff (hnormal action hmem) hrefers).mp heq
      · rintro ⟨hcombos, hrebuilt⟩
        refine exact_of_layers hnew hanalog (hcombos hkind) fun action haction hrefers => ?_
        have hmem := List.mem_append_left config.comboActions haction
        exact (withoutAnalogControl_iff (hnormal action hmem) hrefers).mpr
          (hrebuilt rfl rfl action haction hrefers)
    | some newName =>
      have hne : ¬ name = newName := fun heq => hnew (congrArg some heq.symm)
      change Exact _ name config (if name = newName then _ else _) ↔ _
      rw [if_neg hne]
      constructor
      · exact fun hexact => hcovered (fun _ => combos_of_exact hexact) (by simp)
      · exact fun h => exact_of_layers hnew hanalog (h.combos hkind) fun _ _ _ => rfl
  | motionControl =>
    have hmotion := fun action haction => (hfound action haction).2.1
    have hkind : Kind.motionControl ≠ .superkey := by decide
    cases newName with
    | none =>
      change Exact _ name config (rewriteLayers (namesMotionControl name) _ config) ↔ _
      constructor
      · exact fun hexact => hcovered (fun _ => combos_of_exact hexact) (by simp)
      · refine fun h => exact_of_layers hnew hmotion (h.combos hkind) fun action _ _ => ?_
        unfold Operation.rewritten Kind.hasInline
        simp only [Bool.not_eq_false']
        rfl
    | some newName =>
      have hne : ¬ name = newName := fun heq => hnew (congrArg some heq.symm)
      change Exact _ name config (if name = newName then _ else _) ↔ _
      rw [if_neg hne]
      constructor
      · exact fun hexact => hcovered (fun _ => combos_of_exact hexact) (by simp)
      · exact fun h => exact_of_layers hnew hmotion (h.combos hkind) fun _ _ _ => rfl
  | superkey =>
    have hsuperkey := fun action haction => (hfound action haction).2.2
    refine ⟨fun _ => hcovered (fun hkind => absurd rfl hkind) (by simp), fun _ => ?_⟩
    have hname {action : Action α μ} (hrefers : Kind.superkey.refers name action = true) :
        action.superkeyName = some name := by
      have hboth := (of_decide_eq_true hrefers).2
      unfold Kind.names Kind.firstName at hboth
      exact hboth.elim Option.mem_toList.mp id
    cases newName with
    | none =>
      refine exact_of_actions hnew hsuperkey fun action hrefers => ?_
      unfold Operation.rewritten Kind.names
      simp [hname hrefers, Kind.hasInline]
    | some newName =>
      have hne : ¬ name = newName := fun heq => hnew (congrArg some heq.symm)
      change Exact _ name config (if name = newName then _ else _)
      rw [if_neg hne]
      refine exact_of_actions hnew hsuperkey fun action hrefers => ?_
      unfold Operation.rewritten Kind.names Kind.withNames
      simp [hname hrefers]

/- A combo with the analog control `Look`, as the codec reads it. -/
def comboWithControl : Config Unit Unit :=
  { name := "Game"
    combos := [{ id := "combo", action := some (analogControl ["Look"]) }] }

theorem normal_comboWithControl : ∀ action ∈ comboWithControl.actions, Normal action := by
  intro action haction
  obtain rfl := List.mem_singleton.mp haction
  exact ⟨by decide, by decide, rfl, rfl⟩

/-- The control is deleted and the combo keeps its name. -/
theorem not_rewrite_exact :
    ¬ ∀ (operation : Operation) (name : String) (config : Config Unit Unit),
      (∀ action ∈ config.actions, Normal action) → operation.newName ≠ some name →
        Exact operation name config (operation.run config name) := by
  intro h
  have hexact : Exact ⟨.analogControl, none⟩ "Look" comboWithControl
      (rewriteLayers (namesAnalogControl "Look") (withoutAnalogControl "Look") comboWithControl) :=
    h ⟨.analogControl, none⟩ "Look" comboWithControl normal_comboWithControl (by decide)
  exact absurd (combos_of_exact hexact _ (List.mem_singleton_self _)) (by decide)

/- Two controls for a stick. -/
def layerWithControls : Config Unit Unit :=
  { name := "Game"
    deviceLayers := (∅ : Dict String (Layer Unit Unit)).insert "pad"
      { hardwareId := "pad", mappings := (∅ : Dict String (Action Unit Unit)).insert "left_stick"
          (analogControl ["Look", "Walk"]) } }

theorem rewrite_exact_layer :
    Exact ⟨.analogControl, none⟩ "Look" layerWithControls
      (removeAnalogControl layerWithControls "Look") := by
  refine (rewrite_exact_iff ⟨.analogControl, none⟩ "Look" layerWithControls ?_ (by decide)).mpr
    ⟨fun _ action haction => absurd haction List.not_mem_nil, fun _ _ action haction _ => ?_⟩
  · intro action haction
    obtain rfl := List.mem_singleton.mp haction
    exact ⟨by decide, by decide, rfl, rfl⟩
  · obtain rfl := List.mem_singleton.mp haction
    exact ⟨rfl, fun _ => rfl⟩

end Keymasq.Profile.References
