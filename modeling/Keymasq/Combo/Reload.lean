import Keymasq.Foundation.Json
import Keymasq.Combo.StepRange

/-!
# New combos under candidates

A new list of combos keeps the candidates of the combos that did not change. Whether a combo
changed is decided on the first combo of its id, while the candidate goes on with the last.
-/

namespace Keymasq.Combo.Reload
open Foundation Foundation.Transition Foundation.Sorting Json Names Engine Candidates Coherence
  StepRange

variable {A : Type*}

/-! ## The combos of a payload -/

/-- What the code calls on the values of a payload, and the action of the emergency combos. -/
class ComboPayloads (A : Type*) where
  str : Value → String
  parseAction : Value → Option A
  emergencyAction : A

section Parse
variable [PyStr] [ComboPayloads A]

def getField (fields : List (String × Value)) (name : String) : Value :=
  (fields.lookup name).getD .null

/- `coerce_str(value, "").lower()`. -/
def lowerStr (A : Type*) [ComboPayloads A] (value : Value) : String :=
  match value with
  | .null => PyStr.lower ""
  | value => PyStr.lower (ComboPayloads.str A value)

def coerceStr (A : Type*) [ComboPayloads A] (value : Value) : String :=
  match value with
  | .null => ""
  | value => ComboPayloads.str A value

def normalizeComboRestoreKeys (A : Type*) [ComboPayloads A] (keys : List Value) : List String :=
  keys.foldl
    (fun normalized key =>
      let token := normalizeComboEvdev (if key.truthy then ComboPayloads.str A key else "")
      if token = "" ∨ token ∈ normalized then normalized else normalized ++ [token])
    []

def parseBinding (A : Type*) [ComboPayloads A] (matchAcrossDevices : Bool) (eventData : Value) :
    Option RuntimeComboBinding :=
  match eventData with
  | .obj eventDict =>
    let evdevName := lowerStr A (getField eventDict "evdev")
    if evdevName = "" then none
    else if matchAcrossDevices then some { hardwareId := "", evdev := evdevName, source := "" }
    else some
      { hardwareId := lowerStr A (getField eventDict "hardware_id")
        evdev := evdevName
        source := lowerStr A (getField eventDict "source") }
  | _ => none

def parseStep (A : Type*) [ComboPayloads A] (matchAcrossDevices : Bool) (stepData : Value) :
    Option RuntimeComboStep :=
  match stepData with
  | .obj stepDict =>
    let bindings := (getField stepDict "events").items.filterMap (parseBinding A matchAcrossDevices)
    if bindings = [] then none
    else some
      { bindings := bindings
        timeoutMs := match getField stepDict "timeout_ms" with
          | .null => none
          | timeoutRaw => some (coerceInt (some timeoutRaw) 0) }
  | _ => none

/- The combo of one payload or none; the outer `none` is an error of the action parser. -/
def parseRuntimeCombo (comboData : Value) : Option (List (RuntimeCombo A)) :=
  match comboData with
  | .obj comboDict =>
    match getField comboDict "action" with
    | .str _ | .obj _ =>
      let matchAcrossDevices := (getField comboDict "match_across_devices").truthy
      let steps := (getField comboDict "steps").items.filterMap (parseStep A matchAcrossDevices)
      if steps = [] then some []
      else (ComboPayloads.parseAction (getField comboDict "action")).map fun action =>
        [{ id := coerceStr A (getField comboDict "id")
           name := coerceStr A (getField comboDict "name")
           steps := steps
           action := some action
           profileName := coerceStr A (getField comboDict "profile_name")
           recallTriggerKeys := (getField comboDict "recall_trigger_keys").truthy
           restoreTriggerKeys :=
            normalizeComboRestoreKeys A (getField comboDict "restore_trigger_keys").items
           matchAcrossDevices := matchAcrossDevices }]
    | _ => some []
  | _ => some []

def parseRuntimeCombos : List Value → Option (List (RuntimeCombo A))
  | [] => some []
  | comboData :: payloads => (parseRuntimeCombo comboData).bind fun parsed =>
    (parseRuntimeCombos payloads).map (parsed ++ ·)

theorem steps_ne_nil_of_parse_one {comboData : Value} {parsed : List (RuntimeCombo A)}
    (h : parseRuntimeCombo comboData = some parsed) : ∀ combo ∈ parsed, combo.steps ≠ [] := by
  have hnone : some [] = some parsed → ∀ combo ∈ parsed, combo.steps ≠ [] := by
    intro heq combo hmem
    rw [← Option.some.inj heq] at hmem
    cases hmem
  have hsome (action : Value) {fields : List (String × Value)}
      (heq : (if (getField fields "steps").items.filterMap
          (parseStep A (getField fields "match_across_devices").truthy) = [] then some []
        else (ComboPayloads.parseAction action).map fun action =>
          [{ id := coerceStr A (getField fields "id")
             name := coerceStr A (getField fields "name")
             steps := (getField fields "steps").items.filterMap
              (parseStep A (getField fields "match_across_devices").truthy)
             action := some action
             profileName := coerceStr A (getField fields "profile_name")
             recallTriggerKeys := (getField fields "recall_trigger_keys").truthy
             restoreTriggerKeys :=
              normalizeComboRestoreKeys A (getField fields "restore_trigger_keys").items
             matchAcrossDevices := (getField fields "match_across_devices").truthy }]) =
        some parsed) : ∀ combo ∈ parsed, combo.steps ≠ [] := by
    split at heq
    · exact hnone heq
    · next hsteps =>
      obtain ⟨action, -, rfl⟩ := Option.map_eq_some_iff.mp heq
      intro combo hmem
      rw [List.mem_singleton.mp hmem]
      exact hsteps
  unfold parseRuntimeCombo at h
  split at h
  · split at h
    · exact hsome _ h
    · exact hsome _ h
    · exact hnone h
  · exact hnone h

/-- An accepted combo has a step. -/
theorem steps_ne_nil_of_parse {payloads : List Value} {combos : List (RuntimeCombo A)}
    (h : parseRuntimeCombos payloads = some combos) : ∀ combo ∈ combos, combo.steps ≠ [] := by
  induction payloads generalizing combos with
  | nil =>
    rw [← Option.some.inj h]
    intro combo hmem
    cases hmem
  | cons comboData payloads ih =>
    obtain ⟨parsed, hparsed, htail⟩ := Option.bind_eq_some_iff.mp h
    obtain ⟨rest, hrest, rfl⟩ := Option.map_eq_some_iff.mp htail
    intro combo hmem
    rcases List.mem_append.mp hmem with hmem | hmem
    · exact steps_ne_nil_of_parse_one hparsed combo hmem
    · exact ih hrest combo hmem

end Parse

/-! ## Signatures -/

section Signatures
variable [PyStr]

/- `combo_runtime_signature`: all fields but the name. -/
structure ComboRuntimeSignature (A : Type*) where
  id : String
  profileName : String
  steps : List (List Parts × Option ℤ)
  action : Option A
  recallTriggerKeys : Bool
  restoreTriggerKeys : List String
  matchAcrossDevices : Bool
  releaseOutputsOnCancel : Bool
  deriving DecidableEq

def loweredParts (b : RuntimeComboBinding) : Parts :=
  (PyStr.lower b.hardwareId, PyStr.lower b.source, PyStr.lower b.evdev)

def partsSortKey (parts : Parts) : String ×ₗ String ×ₗ String :=
  toLex (parts.1, toLex (parts.2.1, parts.2.2))

def stepSignature (step : RuntimeComboStep) : List Parts × Option ℤ :=
  (sortedOn partsSortKey (step.bindings.map loweredParts), step.timeoutMs)

def comboRuntimeSignature (combo : RuntimeCombo A) : ComboRuntimeSignature A :=
  { id := combo.id
    profileName := combo.profileName
    steps := combo.steps.map stepSignature
    action := combo.action
    recallTriggerKeys := combo.recallTriggerKeys
    restoreTriggerKeys := combo.restoreTriggerKeys
    matchAcrossDevices := combo.matchAcrossDevices
    releaseOutputsOnCancel := combo.releaseOutputsOnCancel }

def comboRuntimeSignatures (combos : List (RuntimeCombo A)) :
    Dict String (ComboRuntimeSignature A) :=
  Dict.ofList ((combos.filter fun combo => combo.id ≠ "").map fun combo =>
    (combo.id, comboRuntimeSignature combo))

/- The loop over the new combos; a combo whose id was seen before is skipped. -/
def unchangedLoop [DecidableEq A] (oldSignatures : Dict String (ComboRuntimeSignature A))
    (seen : List String) : List (RuntimeCombo A) → Finset String
  | [] => ∅
  | combo :: combos =>
    if combo.id = "" ∨ combo.id ∈ seen then unchangedLoop oldSignatures seen combos
    else
      let preserved := unchangedLoop oldSignatures (combo.id :: seen) combos
      if oldSignatures.get? combo.id = some (comboRuntimeSignature combo) then
        insert combo.id preserved
      else preserved

def unchangedComboIds [DecidableEq A] (oldSignatures : Dict String (ComboRuntimeSignature A))
    (newCombos : List (RuntimeCombo A)) : Finset String :=
  unchangedLoop oldSignatures [] newCombos

/- The same bindings, up to case and order, and the same timeout. -/
def SameStep (s t : RuntimeComboStep) : Prop :=
  (s.bindings.map loweredParts).Perm (t.bindings.map loweredParts) ∧ s.timeoutMs = t.timeoutMs

/-- The same steps and options. -/
structure SameDefinition (old new : RuntimeCombo A) : Prop where
  id : old.id = new.id
  profileName : old.profileName = new.profileName
  steps : List.Forall₂ SameStep old.steps new.steps
  action : old.action = new.action
  recallTriggerKeys : old.recallTriggerKeys = new.recallTriggerKeys
  restoreTriggerKeys : old.restoreTriggerKeys = new.restoreTriggerKeys
  matchAcrossDevices : old.matchAcrossDevices = new.matchAcrossDevices
  releaseOutputsOnCancel : old.releaseOutputsOnCancel = new.releaseOutputsOnCancel

omit [PyStr] in
theorem partsSortKey_injective : Function.Injective partsSortKey := by
  intro p q h
  have hfirst : p.1 = q.1 := congrArg (fun key => (ofLex key).1) h
  have hsecond : p.2.1 = q.2.1 := congrArg (fun key => (ofLex (ofLex key).2).1) h
  have hthird : p.2.2 = q.2.2 := congrArg (fun key => (ofLex (ofLex key).2).2) h
  exact Prod.ext hfirst (Prod.ext hsecond hthird)

theorem stepSignature_eq_iff {s t : RuntimeComboStep} :
    stepSignature s = stepSignature t ↔ SameStep s t := by
  unfold stepSignature SameStep
  rw [Prod.mk.injEq]
  refine and_congr_left fun _ => ⟨fun h => ?_, fun h => ?_⟩
  · exact (sortedOn_perm partsSortKey _).symm.trans
      (h ▸ sortedOn_perm partsSortKey (t.bindings.map loweredParts))
  · exact sortedOn_eq_of_perm h fun a _ b _ heq => partsSortKey_injective heq

theorem signature_eq_iff {old new : RuntimeCombo A} :
    comboRuntimeSignature old = comboRuntimeSignature new ↔ SameDefinition old new := by
  have hsteps : old.steps.map stepSignature = new.steps.map stepSignature ↔
      List.Forall₂ SameStep old.steps new.steps := by
    rw [← List.forall₂_eq_eq_eq, List.forall₂_map_left_iff, List.forall₂_map_right_iff]
    simp only [stepSignature_eq_iff]
  unfold comboRuntimeSignature
  rw [ComboRuntimeSignature.mk.injEq, hsteps]
  constructor
  · rintro ⟨hid, hprofile, hsame, haction, hrecall, hrestore, hmatch, hrelease⟩
    exact ⟨hid, hprofile, hsame, haction, hrecall, hrestore, hmatch, hrelease⟩
  · intro h
    exact ⟨h.id, h.profileName, h.steps, h.action, h.recallTriggerKeys, h.restoreTriggerKeys,
      h.matchAcrossDevices, h.releaseOutputsOnCancel⟩

end Signatures

/-! ## Repeated ids -/

section Repeated
variable [PyStr]

def firstWithId (combos : List (RuntimeCombo A)) (comboId : String) : Option (RuntimeCombo A) :=
  combos.find? (·.id = comboId)

def lastWithId (combos : List (RuntimeCombo A)) (comboId : String) : Option (RuntimeCombo A) :=
  combos.reverse.find? (·.id = comboId)

omit [PyStr] in
/-- A dictionary built from the combos keeps the last of each id. -/
theorem get?_ofList_combos {ν : Type*} (f : RuntimeCombo A → ν) (combos : List (RuntimeCombo A))
    (comboId : String) :
    (Dict.ofList (combos.map fun combo => (combo.id, f combo))).get? comboId =
      (lastWithId combos comboId).map f := by
  unfold lastWithId
  induction combos using List.reverseRecOn with
  | nil => rfl
  | append_singleton combos combo ih =>
    have hlast : Dict.ofList ((combos ++ [combo]).map fun combo => (combo.id, f combo)) =
        (Dict.ofList (combos.map fun combo => (combo.id, f combo))).insert combo.id (f combo) := by
      unfold Dict.ofList
      rw [List.map_append, List.foldl_append]
      rfl
    rw [hlast, Dict.get?_insert, List.reverse_concat, List.find?_cons]
    by_cases hid : comboId = combo.id
    · rw [if_pos hid, hid]
      simp only [decide_true, Option.map_some]
    · have hne : ¬ combo.id = comboId := fun heq => hid heq.symm
      rw [if_neg hid, ih, decide_eq_false hne]

theorem configure_get? (e : ComboEngine A) (combos : List (RuntimeCombo A)) (comboId : String) :
    (configure e combos).comboMap.get? comboId = lastWithId combos comboId := by
  have hget := get?_ofList_combos id combos comboId
  rw [Option.map_id] at hget
  exact hget

variable {comboId : String}

omit [PyStr] in
theorem lastWithId_id {combos : List (RuntimeCombo A)} {combo : RuntimeCombo A}
    (h : lastWithId combos comboId = some combo) : combo ∈ combos ∧ combo.id = comboId := by
  have hid := List.find?_some h
  exact ⟨List.mem_reverse.mp (List.mem_of_find?_eq_some h), of_decide_eq_true hid⟩

omit [PyStr] in
theorem lastWithId_filter {combos : List (RuntimeCombo A)} (hid : comboId ≠ "") :
    lastWithId (combos.filter fun combo => combo.id ≠ "") comboId = lastWithId combos comboId := by
  unfold lastWithId
  rw [← List.filter_reverse, List.find?_filter]
  congr 1
  funext combo
  by_cases heq : combo.id = comboId
  · simp [heq, hid]
  · simp [heq]

theorem signatures_get? {combos : List (RuntimeCombo A)} (hid : comboId ≠ "") :
    (comboRuntimeSignatures combos).get? comboId =
      (lastWithId combos comboId).map comboRuntimeSignature := by
  unfold comboRuntimeSignatures
  rw [get?_ofList_combos, lastWithId_filter hid]

/-- The loop compares the first combo of each id. -/
theorem mem_unchangedLoop [DecidableEq A] {oldSignatures : Dict String (ComboRuntimeSignature A)}
    {seen : List String} {combos : List (RuntimeCombo A)} :
    comboId ∈ unchangedLoop oldSignatures seen combos ↔
      comboId ≠ "" ∧ comboId ∉ seen ∧ ∃ combo, firstWithId combos comboId = some combo ∧
        oldSignatures.get? comboId = some (comboRuntimeSignature combo) := by
  unfold firstWithId
  induction combos generalizing seen with
  | nil => simp [unchangedLoop]
  | cons combo combos ih =>
    rw [List.find?_cons]
    unfold unchangedLoop
    by_cases hid : combo.id = comboId
    · subst hid
      simp only [decide_true, Option.some.injEq, exists_eq_left']
      by_cases hskip : combo.id = "" ∨ combo.id ∈ seen
      · rw [if_pos hskip, ih]
        constructor
        · rintro ⟨hne, hnot, -⟩
          exact absurd hskip (not_or.mpr ⟨hne, hnot⟩)
        · rintro ⟨hne, hnot, -⟩
          exact absurd hskip (not_or.mpr ⟨hne, hnot⟩)
      · obtain ⟨hne, hnot⟩ := not_or.mp hskip
        have hlater : combo.id ∉ unchangedLoop oldSignatures (combo.id :: seen) combos := by
          rw [ih]
          rintro ⟨-, hfresh, -⟩
          exact hfresh List.mem_cons_self
        rw [if_neg hskip]
        by_cases hsame : oldSignatures.get? combo.id = some (comboRuntimeSignature combo)
        · simp only [if_pos hsame]
          exact ⟨fun _ => ⟨hne, hnot, hsame⟩, fun _ => Finset.mem_insert_self _ _⟩
        · simp only [if_neg hsame]
          exact ⟨fun hmem => absurd hmem hlater, fun h => absurd h.2.2 hsame⟩
    · have hother : comboId ≠ combo.id := fun heq => hid heq.symm
      simp only [decide_eq_false hid]
      by_cases hskip : combo.id = "" ∨ combo.id ∈ seen
      · rw [if_pos hskip, ih]
      · have hseen : comboId ∉ combo.id :: seen ↔ comboId ∉ seen := by
          rw [List.mem_cons, not_or]
          exact and_iff_right hother
        rw [if_neg hskip]
        split
        · rw [Finset.mem_insert, ih, hseen]
          exact or_iff_right hother
        · rw [ih, hseen]

theorem mem_unchangedComboIds [DecidableEq A] {old new : List (RuntimeCombo A)} :
    comboId ∈ unchangedComboIds (comboRuntimeSignatures old) new ↔
      comboId ≠ "" ∧ ∃ tracked first, lastWithId old comboId = some tracked ∧
        firstWithId new comboId = some first ∧
          comboRuntimeSignature tracked = comboRuntimeSignature first := by
  unfold unchangedComboIds
  rw [mem_unchangedLoop]
  refine and_congr_right fun hid => ?_
  rw [signatures_get? hid]
  constructor
  · rintro ⟨-, first, hfirst, hsame⟩
    obtain ⟨tracked, htracked, heq⟩ := Option.map_eq_some_iff.mp hsame
    exact ⟨tracked, first, htracked, hfirst, heq⟩
  · rintro ⟨tracked, first, htracked, hfirst, heq⟩
    refine ⟨List.not_mem_nil, first, hfirst, ?_⟩
    rw [htracked, Option.map_some, heq]

end Repeated

/-! ## The configured combos stay under events -/

section Stays
variable [PyStr]

theorem comboMap_handlePressEvent {e : ComboEngine A} (h : Coherent e) {order : SetOrder}
    {b : RuntimeComboBinding} {now : ℤ} (hb : bindingIsPulse b = false → b ∈ e.heldBindings) :
    (handlePressEvent e order b now).engine.comboMap = e.comboMap :=
  (eachCandidate_handlePressEvent (Q := fun _ _ => True) order now h.indexed hb
    (fun _ _ _ => trivial) (fun _ _ _ _ _ _ _ _ => trivial) (fun _ _ _ _ _ => trivial)
    (fun _ _ => trivial)).2.comboMap

omit [PyStr] in
theorem comboMap_finishEvent (expired had : Bool) (outcome : PressOutcome A) :
    (finishEvent expired had outcome).engine.comboMap = outcome.engine.comboMap := by
  simp only [finishEvent]
  split <;> rfl

theorem comboMap_handleEvent {e : ComboEngine A} (h : Coherent e) (order : SetOrder)
    (event : ComboInputEvent) (now : ℤ) :
    (handleEvent e order event now).engine.comboMap = e.comboMap := by
  have hexp := h.expireTimeouts now
  have hmap : (expireTimeouts e now).1.comboMap = e.comboMap := rfl
  simp only [handleEvent]
  split
  · rfl
  · split
    · rw [comboMap_finishEvent]
      split
      · rename_i hpulse
        exact comboMap_handlePressEvent hexp fun hfalse => by simp [hpulse] at hfalse
      · rw [comboMap_handlePressEvent (hexp.recordHeldPress event.binding) fun _ => by
          rw [recordHeldPress_held]
          exact Finset.mem_insert_self _ _]
        exact (recordHeldPress_candidates _ _).2
    · rw [comboMap_finishEvent, (removeHeldBinding_frame _ _).2.1,
        (handleReleaseEvent_frame _ event now).comboMap, hmap]

theorem primeHeldBindings_frame (e : ComboEngine A) (held : Finset RuntimeComboBinding) :
    (primeHeldBindings e held).candidates = e.candidates ∧
      (primeHeldBindings e held).comboMap = e.comboMap :=
  List.foldlRecOn (motive := fun e' : ComboEngine A => e'.candidates = e.candidates ∧
    e'.comboMap = e.comboMap) _ _ ⟨rfl, rfl⟩ fun e' he' b _ => by
      obtain ⟨hcand, hmap⟩ := recordHeldPress_candidates e' b
      exact ⟨hcand.trans he'.1, hmap.trans he'.2⟩

/- A call on the engine other than `set_combos`. -/
def OnEvents : EngineOp A → Prop
  | .setCombos _ _ => False
  | _ => True

instance decidableOnEvents (op : EngineOp A) : Decidable (OnEvents op) :=
  match op with
  | .setCombos _ _ => isFalse id
  | .reset => isTrue trivial
  | .primeHeldBindings _ => isTrue trivial
  | .dropCandidatesForBindingScope _ _ => isTrue trivial
  | .expireTimeouts _ => isTrue trivial
  | .handleEvent _ _ _ => isTrue trivial

theorem comboMap_step {e e' : ComboEngine A} (h : Coherent e) {op : EngineOp A}
    (hop : OnEvents op) (hstep : Engine.step e op = some e') : e'.comboMap = e.comboMap := by
  cases op with
  | setCombos combos ids => exact absurd hop id
  | reset
  | expireTimeouts now =>
    rw [← Option.some.inj hstep]
    rfl
  | primeHeldBindings held =>
    rw [← Option.some.inj hstep]
    exact (primeHeldBindings_frame e held).2
  | dropCandidatesForBindingScope hardwareId source =>
    rw [← Option.some.inj hstep]
    simp only [dropCandidatesForBindingScope]
    split
    · rfl
    · split <;> exact (rebuild_frame _).2.1
  | handleEvent order event now =>
    rw [← Option.some.inj hstep]
    exact comboMap_handleEvent h order event now

end Stays

/-! ## The manager -/

def emergencyCancelComboIdPrefix : String := "__keymasq_emergency_cancel:"

def emergencyCancelComboEvdevs : List String := ["ctrl", "alt", "key_esc"]

/- `_grabbed_keyboard_hardware_ids` is read from the grabbed devices: `keyboards` is what it
returns at the moment. -/
structure ComboManager (A : Type*) where
  emergencyCancelComboEnabled : Bool
  keyboards : List String := []
  configuredCombos : List (RuntimeCombo A) := []
  activeCombos : List (RuntimeCombo A) := []
  engine : ComboEngine A := {}

/- How far a refresh gets: it may be cancelled while it waits for the locks, and stopping the
actions of changed combos may raise. -/
inductive Refresh
  | notStarted
  | interrupted
  | done (held : Finset RuntimeComboBinding)

inductive ManagerOp (A : Type*)
  | setCombos (payloads : List Value) (refresh : Refresh)
  | refreshPreservingUnchanged (refresh : Refresh)
  | refreshAll (refresh : Refresh)
  | keyboardsChanged (keyboards : List String)
  | onEngine (op : EngineOp A)

section Manager
variable [PyStr] [ComboPayloads A] [DecidableEq A]

omit [DecidableEq A] in
def emergencyCancelCombo (hardwareId : String) : RuntimeCombo A :=
  { id := emergencyCancelComboIdPrefix ++ hardwareId
    name := "Keymasq Emergency Cancel"
    steps := [{ bindings := emergencyCancelComboEvdevs.map fun evdev => ⟨hardwareId, evdev, ""⟩ }]
    action := some ComboPayloads.emergencyAction
    profileName := "__keymasq_internal"
    recallTriggerKeys := true
    releaseOutputsOnCancel := true }

def isEmergencyCancelComboEvdevs (evdevNames : List String) : Bool :=
  (evdevNames.map normalizeComboEvdev).toFinset.erase "" = emergencyCancelComboEvdevs.toFinset

def isEmergencyCancelDuplicate (combo : RuntimeCombo A) (keyboards : List String) : Bool :=
  match combo.steps with
  | [step] =>
    !step.bindings.isEmpty && isEmergencyCancelComboEvdevs (step.bindings.map (·.evdev)) &&
      step.bindings.all fun b => b.hardwareId = "" ∨ b.hardwareId ∈ keyboards
  | _ => false

def withEmergencyCancelCombos (m : ComboManager A) (combos : List (RuntimeCombo A)) :
    List (RuntimeCombo A) :=
  if !m.emergencyCancelComboEnabled then combos
  else if m.keyboards = [] then combos
  else m.keyboards.map emergencyCancelCombo ++
    combos.filter fun combo => !isEmergencyCancelDuplicate combo m.keyboards

/- The ids that a refresh keeps, `none` where no combo is unchanged. -/
def preserveComboIds (m : ComboManager A) : Option (Finset String) :=
  let unchanged := unchangedComboIds (comboRuntimeSignatures m.activeCombos)
    (withEmergencyCancelCombos m m.configuredCombos)
  if unchanged = ∅ then none else some unchanged

def refreshComboRuntime (m : ComboManager A) (ids : Option (Finset String)) :
    Refresh → ComboManager A
  | .notStarted => m
  | .interrupted =>
    { m with
      activeCombos := withEmergencyCancelCombos m m.configuredCombos
      engine := match ids with
        | none => reset m.engine
        | some _ => m.engine }
  | .done held =>
    let active := withEmergencyCancelCombos m m.configuredCombos
    { m with
      activeCombos := active
      engine := primeHeldBindings (setCombos m.engine active ids) held }

def step (m : ComboManager A) : ManagerOp A → Option (ComboManager A)
  | .setCombos payloads refresh => (parseRuntimeCombos payloads).map fun parsed =>
    let m' := { m with configuredCombos := parsed }
    refreshComboRuntime m' (preserveComboIds m') refresh
  | .refreshPreservingUnchanged refresh =>
    some (refreshComboRuntime m (preserveComboIds m) refresh)
  | .refreshAll refresh => some (refreshComboRuntime m none refresh)
  | .keyboardsChanged keyboards => some { m with keyboards := keyboards }
  | .onEngine op =>
    if OnEvents op then (Engine.step m.engine op).map fun e => { m with engine := e } else none

/-! ## Kept candidates -/

def newActiveCombos (m : ComboManager A) : List (RuntimeCombo A) :=
  withEmergencyCancelCombos m m.configuredCombos

def unchangedIds (m : ComboManager A) : Finset String :=
  unchangedComboIds (comboRuntimeSignatures m.activeCombos) (newActiveCombos m)

/- Where a candidate's combo counts as unchanged, the first and the last new combo of its id
are the same. -/
def RepeatsAgree (m : ComboManager A) : Prop :=
  ∀ comboId c first last, m.engine.candidates.get? comboId = some c → comboId ∈ unchangedIds m →
    firstWithId (newActiveCombos m) comboId = some first →
      lastWithId (newActiveCombos m) comboId = some last →
        comboRuntimeSignature first = comboRuntimeSignature last

def Agrees (m : ComboManager A) : ManagerOp A → Prop
  | .setCombos payloads refresh => refresh ≠ .interrupted ∧
    ∀ parsed, parseRuntimeCombos payloads = some parsed →
      RepeatsAgree { m with configuredCombos := parsed }
  | .refreshPreservingUnchanged refresh => refresh ≠ .interrupted ∧ RepeatsAgree m
  | .refreshAll refresh => refresh ≠ .interrupted
  | _ => True

/-- What the manager and the engine hold between two calls. -/
structure Tracks (m : ComboManager A) : Prop where
  inRange : InRange m.engine
  configured : ∀ combo ∈ m.configuredCombos, combo.steps ≠ []
  active : ∀ combo ∈ m.activeCombos, combo.steps ≠ []
  map : ∀ comboId, m.engine.comboMap.get? comboId = lastWithId m.activeCombos comboId

/-- Every kept candidate is in range of its combo, which is as it was. -/
def KeepsDefinitions (m m' : ComboManager A) : Prop :=
  ∀ comboId c', m'.engine.candidates.get? comboId = some c' →
    ∃ c, m.engine.candidates.get? comboId = some c ∧ c'.stepIndex = c.stepIndex ∧
      m'.engine.comboMap.get? comboId = some c'.combo ∧
      c'.stepIndex < c'.combo.steps.length ∧ SameDefinition c.combo c'.combo

variable {m : ComboManager A} {comboId : String}

omit [DecidableEq A] in
theorem steps_ne_nil_of_active (h : ∀ combo ∈ m.configuredCombos, combo.steps ≠ []) :
    ∀ combo ∈ newActiveCombos m, combo.steps ≠ [] := by
  unfold newActiveCombos withEmergencyCancelCombos
  split
  · exact h
  · split
    · exact h
    · intro combo hmem
      rcases List.mem_append.mp hmem with hmem | hmem
      · obtain ⟨hardwareId, -, rfl⟩ := List.mem_map.mp hmem
        exact List.cons_ne_nil _ _
      · exact h combo (List.mem_filter.mp hmem).1

omit [ComboPayloads A] [DecidableEq A] in
/-- A kept candidate goes on with the last new combo of its id. -/
theorem reloaded_candidates (e : ComboEngine A) (combos : List (RuntimeCombo A))
    (kept : Finset String) (held : Finset RuntimeComboBinding) (comboId : String)
    (c' : ActiveCandidate A) :
    (primeHeldBindings (setCombos e combos (some kept)) held).candidates.get? comboId = some c' ↔
      ∃ c combo, e.candidates.get? comboId = some c ∧ comboId ∈ kept ∧
        lastWithId combos comboId = some combo ∧ c' = { c with combo := combo } := by
  rw [(primeHeldBindings_frame _ _).1]
  change (e.candidates.filterMapVal (preserveCandidate (configure e combos).comboMap
    kept)).get? comboId = some c' ↔ _
  rw [Dict.get?_filterMapVal, Option.bind_eq_some_iff]
  unfold preserveCandidate
  constructor
  · rintro ⟨c, hc, hkept⟩
    split at hkept
    · next hmem =>
      obtain ⟨combo, hget, rfl⟩ := Option.map_eq_some_iff.mp hkept
      rw [configure_get?] at hget
      exact ⟨c, combo, hc, hmem, hget, rfl⟩
    · cases hkept
  · rintro ⟨c, combo, hc, hmem, hlast, rfl⟩
    refine ⟨c, hc, ?_⟩
    rw [if_pos hmem, configure_get?, hlast]
    rfl

omit [ComboPayloads A] [DecidableEq A] in
theorem reloaded_map (e : ComboEngine A) (combos : List (RuntimeCombo A))
    (ids : Option (Finset String)) (held : Finset RuntimeComboBinding) (comboId : String) :
    (primeHeldBindings (setCombos e combos ids) held).comboMap.get? comboId =
      lastWithId combos comboId := by
  rw [(primeHeldBindings_frame _ _).2, ← configure_get? e]
  cases ids with
  | none => rfl
  | some kept => rfl

omit [ComboPayloads A] [DecidableEq A] in
/-- Reloading keeps the engine in range where the kept combos keep their number of steps. -/
theorem inRange_reload {e : ComboEngine A} (h : InRange e) {combos : List (RuntimeCombo A)}
    (hsteps : ∀ combo ∈ combos, combo.steps ≠ []) {ids : Option (Finset String)}
    (hkeep : ∀ kept, ids = some kept → ∀ comboId c combo, e.candidates.get? comboId = some c →
      comboId ∈ kept → lastWithId combos comboId = some combo →
        c.combo.steps.length = combo.steps.length) (held : Finset RuntimeComboBinding) :
    InRange (primeHeldBindings (setCombos e combos ids) held) := by
  refine ⟨(h.coherent.setCombos combos ids).primeHeldBindings held, ?_, ?_⟩
  · intro key comboId combo _ hget
    rw [reloaded_map] at hget
    exact hsteps combo (lastWithId_id hget).1
  · intro comboId c' hc'
    cases ids with
    | none =>
      rw [(primeHeldBindings_frame _ _).1] at hc'
      exact absurd hc' Dict.not_get?_empty
    | some kept =>
      obtain ⟨c, combo, hc, hmem, hlast, rfl⟩ := (reloaded_candidates _ _ _ _ _ _).mp hc'
      change c.stepIndex < combo.steps.length
      rw [← hkeep kept rfl comboId c combo hc hmem hlast]
      exact h.candidates comboId c hc

/-- An unchanged id that a candidate tracks has the signature of the tracked combo. -/
theorem Tracks.unchanged (h : Tracks m) {c : ActiveCandidate A}
    (hc : m.engine.candidates.get? comboId = some c) (hmem : comboId ∈ unchangedIds m) : ∃ first,
      firstWithId (newActiveCombos m) comboId = some first ∧
        comboRuntimeSignature c.combo = comboRuntimeSignature first := by
  obtain ⟨-, tracked, first, htracked, hfirst, hsame⟩ := mem_unchangedComboIds.mp hmem
  have hcombo := (h.inRange.coherent.candidates comboId c hc).configured
  rw [h.map, htracked] at hcombo
  cases hcombo
  exact ⟨first, hfirst, hsame⟩

theorem preserveComboIds_eq (m : ComboManager A) {kept : Finset String}
    (h : preserveComboIds m = some kept) : kept = unchangedIds m := by
  unfold preserveComboIds at h
  simp only at h
  split at h
  · cases h
  · exact (Option.some.inj h).symm

theorem preserveComboIds_of_mem (h : comboId ∈ unchangedIds m) :
    preserveComboIds m = some (unchangedIds m) :=
  if_neg (Finset.ne_empty_of_mem h)

/-- The candidates keep their definitions exactly where the repeated ids agree. -/
theorem Tracks.keepsDefinitions_iff (h : Tracks m) (held : Finset RuntimeComboBinding) :
    KeepsDefinitions m (refreshComboRuntime m (preserveComboIds m) (.done held)) ↔
      RepeatsAgree m := by
  constructor
  · intro hkeeps comboId c first last hc hmem hfirst hlast
    obtain ⟨first', hfirst', hsame⟩ := h.unchanged hc hmem
    rw [hfirst] at hfirst'
    cases hfirst'
    have hkept : (refreshComboRuntime m (preserveComboIds m)
        (.done held)).engine.candidates.get? comboId = some { c with combo := last } := by
      rw [preserveComboIds_of_mem hmem]
      exact (reloaded_candidates _ _ _ _ _ _).mpr ⟨c, last, hc, hmem, hlast, rfl⟩
    obtain ⟨tracked, htracked, -, -, -, hdefinition⟩ := hkeeps comboId _ hkept
    rw [hc] at htracked
    cases htracked
    exact hsame.symm.trans (signature_eq_iff.mpr hdefinition)
  · intro hagree comboId c' hc'
    cases hids : preserveComboIds m with
    | none =>
      rw [hids] at hc'
      change (primeHeldBindings (reset _) held).candidates.get? comboId = some c' at hc'
      rw [(primeHeldBindings_frame _ _).1] at hc'
      exact absurd hc' Dict.not_get?_empty
    | some kept =>
      rw [hids] at hc'
      obtain ⟨c, last, hc, hmem, hlast, rfl⟩ := (reloaded_candidates _ _ _ _ _ _).mp hc'
      rw [preserveComboIds_eq m hids] at hmem
      obtain ⟨first, hfirst, hsame⟩ := h.unchanged hc hmem
      have hlastSame := hsame.trans (hagree comboId c first last hc hmem hfirst hlast)
      have hdefinition := signature_eq_iff.mp hlastSame
      refine ⟨c, hc, rfl, ?_, ?_, hdefinition⟩
      · exact (reloaded_map _ _ _ _ _).trans hlast
      · change c.stepIndex < last.steps.length
        rw [← hdefinition.steps.length_eq]
        exact h.inRange.candidates comboId c hc

omit [PyStr] [ComboPayloads A] [DecidableEq A] in
theorem firstWithId_eq_lastWithId {combos : List (RuntimeCombo A)}
    (hnodup : (combos.map (·.id)).Nodup) {first last : RuntimeCombo A}
    (hfirst : firstWithId combos comboId = some first)
    (hlast : lastWithId combos comboId = some last) : first = last := by
  obtain ⟨hmem, hid⟩ := lastWithId_id hlast
  unfold firstWithId at hfirst
  have hid' := List.find?_some hfirst
  exact List.inj_on_of_nodup_map hnodup (List.mem_of_find?_eq_some hfirst) hmem
    ((of_decide_eq_true hid').trans hid.symm)

/-- Distinct ids agree. -/
theorem repeatsAgree_of_nodup (hnodup : ((newActiveCombos m).map (·.id)).Nodup) :
    RepeatsAgree m := by
  intro comboId c first last _ _ hfirst hlast
  rw [firstWithId_eq_lastWithId hnodup hfirst hlast]

omit [DecidableEq A] in
theorem newActiveCombos_of_no_keyboard (h : m.keyboards = []) :
    newActiveCombos m = m.configuredCombos := by
  unfold newActiveCombos withEmergencyCancelCombos
  rw [if_pos h]
  exact ite_self _

/-! ## Runs -/

/-- A refresh that is not interrupted keeps the manager's tables in step. -/
theorem Tracks.refresh (h : Tracks m) {ids : Option (Finset String)}
    (hkeep : ∀ kept, ids = some kept → kept = unchangedIds m ∧ RepeatsAgree m) {refresh : Refresh}
    (hdone : refresh ≠ .interrupted) :
    Tracks (refreshComboRuntime m ids refresh) := by
  cases refresh with
  | notStarted => exact h
  | interrupted => exact absurd rfl hdone
  | done held =>
    have hactive := steps_ne_nil_of_active h.configured
    refine ⟨?_, h.configured, hactive, reloaded_map _ _ _ _⟩
    refine inRange_reload h.inRange hactive ?_ held
    intro kept hids comboId c last hc hmem hlast
    obtain ⟨hunchanged, hagree⟩ := hkeep kept hids
    rw [hunchanged] at hmem
    obtain ⟨first, hfirst, hsame⟩ := h.unchanged hc hmem
    exact (signature_eq_iff.mp
      (hsame.trans (hagree comboId c first last hc hmem hfirst hlast))).steps.length_eq

omit [DecidableEq A] in
theorem Tracks.configure (h : Tracks m) {payloads : List Value} {parsed : List (RuntimeCombo A)}
    (hparsed : parseRuntimeCombos payloads = some parsed) :
    Tracks { m with configuredCombos := parsed } :=
  ⟨h.inRange, steps_ne_nil_of_parse hparsed, h.active, h.map⟩

theorem Tracks.step {m' : ComboManager A} (h : Tracks m) {op : ManagerOp A} (hagree : Agrees m op)
    (hstep : step m op = some m') : Tracks m' := by
  cases op with
  | setCombos payloads refresh =>
    obtain ⟨parsed, hparsed, rfl⟩ := Option.map_eq_some_iff.mp hstep
    exact (h.configure hparsed).refresh
      (fun kept hids => ⟨preserveComboIds_eq _ hids, hagree.2 parsed hparsed⟩) hagree.1
  | refreshPreservingUnchanged refresh =>
    rw [← Option.some.inj hstep]
    exact h.refresh (fun kept hids => ⟨preserveComboIds_eq _ hids, hagree.2⟩) hagree.1
  | refreshAll refresh =>
    rw [← Option.some.inj hstep]
    exact h.refresh (fun kept hids => by cases hids) hagree
  | keyboardsChanged keyboards =>
    rw [← Option.some.inj hstep]
    exact ⟨h.inRange, h.configured, h.active, h.map⟩
  | onEngine op =>
    unfold Reload.step at hstep
    simp only at hstep
    split at hstep
    · next hop =>
      obtain ⟨e, he, rfl⟩ := Option.map_eq_some_iff.mp hstep
      have hkeeps : KeepsUnchanged m.engine op := by
        cases op with
        | setCombos combos ids => exact absurd hop id
        | reset => trivial
        | primeHeldBindings held => trivial
        | dropCandidatesForBindingScope hardwareId source => trivial
        | expireTimeouts now => trivial
        | handleEvent order event now => trivial
      refine ⟨h.inRange.step hkeeps he, h.configured, h.active, fun comboId => ?_⟩
      change e.comboMap.get? comboId = _
      rw [comboMap_step h.inRange.coherent hop he]
      exact h.map comboId
    · cases hstep

/- The manager at the start of the daemon. -/
def started (A : Type*) (emergencyCancelComboEnabled : Bool) : ComboManager A :=
  { emergencyCancelComboEnabled := emergencyCancelComboEnabled }

omit [ComboPayloads A] [DecidableEq A] in
theorem tracks_started (enabled : Bool) : Tracks (started A enabled) := by
  refine ⟨⟨coherent_empty, ?_, eachCandidate_of_empty rfl⟩, fun _ h => (by cases h),
    fun _ h => (by cases h), fun comboId => ?_⟩
  · intro key comboId combo _ hget
    exact absurd hget Dict.not_get?_empty
  · exact Dict.get?_empty comboId

theorem tracks_run {enabled : Bool} {ops : List (ManagerOp A)}
    (hagrees : Guarded step Agrees (started A enabled) ops)
    (hrun : run step (started A enabled) ops = some m) : Tracks m :=
  guarded_run_invariant (fun _ _ _ h hagree hstep => h.step hagree hstep)
    (tracks_started enabled) hagrees hrun

/- A refresh that gets to its end. -/
def Reloads : ManagerOp A → Prop
  | .setCombos _ (.done _) => True
  | .refreshPreservingUnchanged (.done _) => True
  | .refreshAll (.done _) => True
  | _ => False

/-- After a run whose reloads agree, a reload keeps every candidate in range and on its own
combo exactly where it agrees as well. -/
theorem reload_keeps_definitions_iff {enabled : Bool} {ops : List (ManagerOp A)}
    {m m' : ComboManager A} {op : ManagerOp A}
    (hagrees : Guarded step Agrees (started A enabled) ops)
    (hrun : run step (started A enabled) ops = some m) (hreloads : Reloads op)
    (hstep : step m op = some m') : KeepsDefinitions m m' ↔ Agrees m op := by
  have h := tracks_run hagrees hrun
  cases op with
  | setCombos payloads refresh =>
    cases refresh with
    | notStarted => exact absurd hreloads id
    | interrupted => exact absurd hreloads id
    | done held =>
      obtain ⟨parsed, hparsed, rfl⟩ := Option.map_eq_some_iff.mp hstep
      have hiff := (h.configure hparsed).keepsDefinitions_iff held
      constructor
      · intro hkeeps
        refine ⟨fun heq => (by cases heq), fun parsed' hparsed' => ?_⟩
        rw [hparsed] at hparsed'
        cases hparsed'
        exact hiff.mp hkeeps
      · intro hagree
        exact hiff.mpr (hagree.2 parsed hparsed)
  | refreshPreservingUnchanged refresh =>
    cases refresh with
    | notStarted => exact absurd hreloads id
    | interrupted => exact absurd hreloads id
    | done held =>
      rw [← Option.some.inj hstep]
      exact ⟨fun hkeeps => ⟨fun heq => (by cases heq), (h.keepsDefinitions_iff held).mp hkeeps⟩,
        fun hagree => (h.keepsDefinitions_iff held).mpr hagree.2⟩
  | refreshAll refresh =>
    cases refresh with
    | notStarted => exact absurd hreloads id
    | interrupted => exact absurd hreloads id
    | done held =>
      rw [← Option.some.inj hstep]
      refine ⟨fun _ heq => (by cases heq), fun _ comboId c' hc' => ?_⟩
      change (primeHeldBindings (reset _) held).candidates.get? comboId = some c' at hc'
      rw [(primeHeldBindings_frame _ _).1] at hc'
      exact absurd hc' Dict.not_get?_empty
  | keyboardsChanged keyboards => exact absurd hreloads id
  | onEngine op => exact absurd hreloads id

end Manager

/-! ## Two combos of one id -/

/-- Payloads of ASCII text; every action is accepted. -/
@[reducible] def textPayloads : ComboPayloads String where
  str value := match value with
    | .str s => s
    | _ => "?"
  parseAction value := match value with
    | .str s => some s
    | _ => none
  emergencyAction := "emergency"

def comboPayload (comboId : String) (keys : List String) : Value :=
  .obj [("id", .str comboId), ("action", .str "exec"),
    ("steps", .arr (keys.map fun key =>
      .obj [("events", .arr [.obj [("hardware_id", .str ""), ("evdev", .str key)]])]))]

/- A combo of two steps, the first of them done. -/
def firstStepDone : List (ManagerOp String) :=
  [.setCombos [comboPayload "c" ["key_a", "key_b"]] (.done ∅),
    .onEngine (.handleEvent nameOrder ⟨⟨"kbd", "key_a", ""⟩, 1⟩ 0),
    .onEngine (.handleEvent nameOrder ⟨⟨"kbd", "key_a", ""⟩, 0⟩ 0)]

/- The same combo again, and another one of its id with a single step. -/
def repeatedId : ManagerOp String :=
  .setCombos [comboPayload "c" ["key_a", "key_b"], comboPayload "c" ["key_x"]] (.done ∅)

section Runs

attribute [local instance] Names.asciiStr textPayloads

theorem firstStepDone_runs :
    ((run step (started String true) firstStepDone).any fun m => m.keyboards = [] ∧
      (m.engine.candidates.get? "c").any (fun c => c.stepIndex = 1) ∧
      (step m repeatedId).any fun m' => (m'.engine.candidates.get? "c").any fun c =>
        c.stepIndex = 1 ∧ c.combo.steps.length = 1) = true := by
  decide +kernel

theorem parsed_ids_nodup :
    ((parseRuntimeCombos [comboPayload "c" ["key_a", "key_b"]] :
      Option (List (RuntimeCombo String))).all fun parsed => (parsed.map (·.id)).Nodup) = true := by
  decide

theorem guarded_firstStepDone : Guarded step Agrees (started String true) firstStepDone := by
  refine ⟨⟨fun heq => (by cases heq), fun parsed _ comboId c _ _ hc => ?_⟩, ?_⟩
  · exact absurd hc Dict.not_get?_empty
  · split
    · trivial
    · refine ⟨trivial, ?_⟩
      split
      · trivial
      · refine ⟨trivial, ?_⟩
        split <;> trivial

theorem reload_keeps_definitions_iff_same :
    ∃ m m', run step (started String true) firstStepDone = some m ∧
      step m (.setCombos [comboPayload "c" ["key_a", "key_b"]] (.done ∅)) = some m' ∧
        KeepsDefinitions m m' := by
  obtain ⟨m, hrun, hm⟩ := (Option.any_eq_true _ _).mp firstStepDone_runs
  obtain ⟨hkeyboards, -⟩ := of_decide_eq_true hm
  have hnodup := (Option.all_eq_true _ _).mp parsed_ids_nodup
  cases hparsed : (parseRuntimeCombos [comboPayload "c" ["key_a", "key_b"]] :
      Option (List (RuntimeCombo String))) with
  | none => exact absurd hparsed (by decide)
  | some parsed =>
    have hstep : step m (.setCombos [comboPayload "c" ["key_a", "key_b"]] (.done ∅)) =
        some (refreshComboRuntime { m with configuredCombos := parsed }
          (preserveComboIds { m with configuredCombos := parsed }) (.done ∅)) := by
      simp only [step, hparsed, Option.map_some]
    have hreloads : Reloads (A := String)
        (.setCombos [comboPayload "c" ["key_a", "key_b"]] (.done ∅)) := trivial
    refine ⟨m, _, hrun, hstep, (reload_keeps_definitions_iff guarded_firstStepDone hrun
      hreloads hstep).mpr ⟨fun heq => (by cases heq), fun parsed' hparsed' => ?_⟩⟩
    rw [hparsed] at hparsed'
    cases hparsed'
    refine repeatsAgree_of_nodup ?_
    rw [newActiveCombos_of_no_keyboard (m := { m with configuredCombos := parsed }) hkeyboards]
    exact of_decide_eq_true (hnodup parsed hparsed)

theorem repeated_id_rebinds_candidate :
    ∃ m m' c', Guarded step Agrees (started String true) firstStepDone ∧
      run step (started String true) firstStepDone = some m ∧ step m repeatedId = some m' ∧
        m'.engine.candidates.get? "c" = some c' ∧ ¬ c'.stepIndex < c'.combo.steps.length ∧
          ¬ KeepsDefinitions m m' := by
  obtain ⟨m, hrun, hm⟩ := (Option.any_eq_true _ _).mp firstStepDone_runs
  obtain ⟨-, -, hrepeated⟩ := of_decide_eq_true hm
  obtain ⟨m', hstep, hm'⟩ := (Option.any_eq_true _ _).mp hrepeated
  obtain ⟨c', hc', hrange⟩ := (Option.any_eq_true _ _).mp hm'
  obtain ⟨hindex, hlength⟩ := of_decide_eq_true hrange
  have hout : ¬ c'.stepIndex < c'.combo.steps.length := by omega
  refine ⟨m, m', c', guarded_firstStepDone, hrun, hstep, hc', hout, fun hkeeps => ?_⟩
  obtain ⟨c, -, -, -, hlt, -⟩ := hkeeps "c" c' hc'
  exact hout hlt

end Runs

end Keymasq.Combo.Reload
