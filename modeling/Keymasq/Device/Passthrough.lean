import Keymasq.Combo.Engine
import Keymasq.Foundation.Strings

/-!
# A grabbed device without mappings

Key events pass the combo engine and are consumed or written to the passthrough
output. The device records which source keys are held, which outputs are down,
which keys pass through beside a combo and which a combo has recalled.
-/

namespace Keymasq.Device.Passthrough
open Foundation Foundation.Sorting Foundation.Strings Combo.Names Combo.Engine

variable [PyStr]

/- The key codes of the device, `K`, with the names of their events and the
codes that names resolve to; both tables are the input library's. -/
structure KeyNames (K : Type*) where
  hardwareId : String
  interfaceId : String
  eventName : K → String
  resolveOutputCode : String → Option K
  eventName_injective : Function.Injective eventName
  lower_eventName : ∀ code, PyStr.lower (eventName code) = eventName code
  resolve_lower : ∀ evdev code output, PyStr.lower evdev = eventName code →
    resolveOutputCode evdev = some output → output = code

/-- The state of the device; the held source keys are a set kept in order of their presses. -/
structure GrabbedDevice (K : Type*) where
  heldSourceKeys : List String := []
  heldOutputKeys : Finset K := ∅
  comboRecalledBindings : Finset String := ∅
  comboPassthroughHeld : Finset String := ∅
  written : List (K × ℤ) := []

variable {K : Type*} [DecidableEq K] (names : KeyNames K)

/-! ## The device -/

/-- The binding under which an event of the device reaches the engine. -/
def KeyNames.binding (eventName : String) : RuntimeComboBinding :=
  ⟨names.hardwareId, eventName, names.interfaceId⟩

/-- `find_grabbed_device_for_binding` finds the device. -/
def KeyNames.findsDevice (b : RuntimeComboBinding) : Bool :=
  b.hardwareId = names.hardwareId ∧ (b.source = "" ∨ names.interfaceId = b.source)

omit [PyStr] in
/-- `write_key`: the event is written and tracked. -/
def writeKey (d : GrabbedDevice K) (code : K) (value : ℤ) : GrabbedDevice K :=
  { d with
    written := d.written ++ [(code, value)]
    heldOutputKeys :=
      if value = 1 then insert code d.heldOutputKeys
      else if value = 0 then d.heldOutputKeys.erase code
      else d.heldOutputKeys }

/-- `_combo_binding_output` where no source action is held. -/
def comboBindingOutput (evdev : String) : Option K := names.resolveOutputCode evdev

def comboPassthroughBindingActive (d : GrabbedDevice K) (evdev : String) : Bool :=
  match comboBindingOutput names evdev with
  | none => false
  | some code => code ∈ d.heldOutputKeys

def emitComboRelease (d : GrabbedDevice K) (evdev : String) : GrabbedDevice K :=
  match comboBindingOutput names evdev with
  | none => d
  | some code => writeKey d code 0

def emitComboPress (d : GrabbedDevice K) (evdev : String) : GrabbedDevice K :=
  match comboBindingOutput names evdev with
  | none => d
  | some code =>
    { writeKey d code 1 with
      comboPassthroughHeld := insert (PyStr.lower evdev) d.comboPassthroughHeld }

def comboSourceBindingHeld (d : GrabbedDevice K) (evdev : String) : Bool :=
  PyStr.lower evdev ∈ d.heldSourceKeys

def comboBindingRecalled (d : GrabbedDevice K) (evdev : String) : Bool :=
  normalizeComboEvdev evdev ∈ d.comboRecalledBindings

def markComboRecalledBinding (d : GrabbedDevice K) (evdev : String) : GrabbedDevice K :=
  { d with comboRecalledBindings := insert (normalizeComboEvdev evdev) d.comboRecalledBindings }

def clearComboRecalledBinding (d : GrabbedDevice K) (evdev : String) : GrabbedDevice K :=
  { d with comboRecalledBindings := d.comboRecalledBindings.erase (normalizeComboEvdev evdev) }

def comboPassthroughHeldModifiers (d : GrabbedDevice K) : List String :=
  d.heldSourceKeys.filter fun eventName => normalizeComboEvdev eventName ∈ genericModifiers

/-! ## Recall and restoration -/

def emitComboRecall (d : GrabbedDevice K) (event : ComboSyntheticEvent) : GrabbedDevice K :=
  if ¬ names.findsDevice event.binding then d
  else if ¬ comboPassthroughBindingActive names d event.binding.evdev then d
  else markComboRecalledBinding (emitComboRelease names d event.binding.evdev) event.binding.evdev

def emitComboRecalls (d : GrabbedDevice K) (recallEvents : List ComboSyntheticEvent) :
    GrabbedDevice K :=
  recallEvents.foldl (emitComboRecall names) d

def orderedUniqueBindings (bindings : List RuntimeComboBinding) : List RuntimeComboBinding :=
  bindings.foldl (fun ordered b => if b ∈ ordered then ordered else ordered ++ [b]) []

/-- One trigger of `combo_trigger_recall_state`, with the recalled bindings so far. -/
def recallTrigger (state : GrabbedDevice K × List RuntimeComboBinding) (b : RuntimeComboBinding) :
    GrabbedDevice K × List RuntimeComboBinding :=
  if ¬ names.findsDevice b then state
  else if comboBindingRecalled state.1 b.evdev then (state.1, state.2 ++ [b])
  else if ¬ comboPassthroughBindingActive names state.1 b.evdev then state
  else (markComboRecalledBinding (emitComboRelease names state.1 b.evdev) b.evdev, state.2 ++ [b])

/-- The device afterwards and the bindings to restore when the action ends. -/
def comboTriggerRecallState {A : Type*} (d : GrabbedDevice K) (combo : Option (RuntimeCombo A))
    (triggerBindings : List RuntimeComboBinding) : GrabbedDevice K × List RuntimeComboBinding :=
  match combo with
  | none => (d, [])
  | some combo =>
    if combo.recallTriggerKeys = false then (d, [])
    else
      let ordered := orderedUniqueBindings triggerBindings
      let (d, recalled) := ordered.reverse.foldl (recallTrigger names) (d, [])
      (d, ordered.filter fun b =>
        b ∈ recalled ∧ normalizeComboEvdev b.evdev ∈ combo.restoreTriggerKeys)

def restoreComboTriggerBinding (d : GrabbedDevice K) (b : RuntimeComboBinding) :
    GrabbedDevice K :=
  if ¬ names.findsDevice b then d
  else if ¬ comboSourceBindingHeld d b.evdev then clearComboRecalledBinding d b.evdev
  else if comboPassthroughBindingActive names d b.evdev then clearComboRecalledBinding d b.evdev
  else clearComboRecalledBinding (emitComboPress names d b.evdev) b.evdev

def restoreComboTriggerBindings (d : GrabbedDevice K)
    (restoreBindings : List RuntimeComboBinding) : GrabbedDevice K :=
  restoreBindings.foldl (restoreComboTriggerBinding names) d

/-! ## Combo actions -/

/-- How the start of a combo action ends: nothing starts, it is registered until
its stop, or it is over at once. -/
inductive StartOutcome
  | declined
  | registered
  | finished

/-- A transition runs at once, or in a task of its own once the cursor has moved. -/
inductive Plan
  | inline (outcome : StartOutcome)
  | detached

/-- What an event meets: a walk order of sets, the clock, and how the actions go. -/
structure Surroundings (A : Type*) where
  order : SetOrder
  now : ℤ
  plan : ComboActionTransition A → Plan

/-- The device with the combo runtime; an active action carries the bindings to restore. -/
structure Runtime (K A : Type*) where
  device : GrabbedDevice K := {}
  activeCombos : List (RuntimeCombo A) := []
  engine : ComboEngine A := {}
  activeActions : Dict String (List RuntimeComboBinding) := ∅
  queued : List (ComboActionTransition A) := []

variable {A : Type*}

omit [PyStr] [DecidableEq K] in
def runtimeCombo (s : Runtime K A) (comboId : String) : Option (RuntimeCombo A) :=
  s.activeCombos.find? fun combo => combo.id = comboId

def stopComboAction (s : Runtime K A) (comboId : String) : Runtime K A :=
  match s.activeActions.get? comboId with
  | none => s
  | some restoreBindings =>
    { s with
      activeActions := s.activeActions.erase comboId
      device := restoreComboTriggerBindings names s.device restoreBindings }

def startComboAction (s : Runtime K A) (transition : ComboActionTransition A)
    (outcome : StartOutcome) : Runtime K A :=
  match transition.action with
  | none => s
  | some _ =>
    let s := stopComboAction names s transition.comboId
    let (device, restoreBindings) := comboTriggerRecallState names s.device
      (runtimeCombo s transition.comboId) transition.triggerBindings
    match outcome with
    | .declined => s
    | .registered =>
      { s with
        device := device
        activeActions := s.activeActions.insert transition.comboId restoreBindings }
    | .finished => { s with device := restoreComboTriggerBindings names device restoreBindings }

def applyComboActionTransition (s : Runtime K A) (transition : ComboActionTransition A)
    (outcome : StartOutcome) : Runtime K A :=
  match transition.kind with
  | .press => startComboAction names s transition outcome
  | .pulse => stopComboAction names (startComboAction names s transition outcome)
      transition.comboId
  | .release => stopComboAction names s transition.comboId

/-- A transition waits behind those of its combo that wait already. -/
def performTransition (plan : ComboActionTransition A → Plan) (s : Runtime K A)
    (transition : ComboActionTransition A) : Runtime K A :=
  if s.queued.any fun waiting => waiting.comboId = transition.comboId then
    { s with queued := s.queued ++ [transition] }
  else
    match plan transition with
    | .inline outcome => applyComboActionTransition names s transition outcome
    | .detached => { s with queued := s.queued ++ [transition] }

/-- `prime_held_bindings` with names that are held on the device. -/
def primeHeld (e : ComboEngine A) (held : List String) : ComboEngine A :=
  (sortedOn bindingSortKey (held.map names.binding)).foldl recordHeldPress e

/-! ## Replacing the combos -/

/-- `combo_id.split("#", 1)[0]`. -/
def rootComboId (comboId : String) : String :=
  String.ofList (comboId.toList.takeWhile (· ≠ '#'))

/-- `_refresh_combo_runtime`; the ids are those of the unchanged combos, if any. -/
def replaceCombos (s : Runtime K A) (combos : List (RuntimeCombo A))
    (preserveComboIds : Option (Finset String)) : Runtime K A :=
  let s := { s with activeCombos := combos }
  let s :=
    match preserveComboIds with
    | none =>
      s.activeActions.keys.foldl (stopComboAction names)
        { s with engine := reset s.engine, queued := [] }
    | some ids =>
      (s.activeActions.keys.filter fun comboId => rootComboId comboId ∉ ids).foldl
        (stopComboAction names)
        { s with queued := s.queued.filter fun waiting => rootComboId waiting.comboId ∈ ids }
  { s with
    engine := primeHeld names (setCombos s.engine combos preserveComboIds)
      s.device.heldSourceKeys }

/-! ## Key events -/

/-- Only keys and buttons of known codes are combo input. -/
def readsCombos (eventName : String) : Bool :=
  hasPrefix "key_" eventName || hasPrefix "btn_" eventName

/-- The engine that takes the event: before a press it learns of the modifiers that are held. -/
def primedEngine (s : Runtime K A) (eventName : String) (value : ℤ) : ComboEngine A :=
  if value = 1 ∧ ¬ isComboPulseEvdev eventName then
    primeHeld names s.engine ((comboPassthroughHeldModifiers s.device).filter (· ≠ eventName))
  else s.engine

def processRuntimeComboEvent (s : Runtime K A) (around : Surroundings A) (eventName : String)
    (value : ℤ) : Runtime K A × Option (ComboDecision A) :=
  if ¬ readsCombos eventName ∨ s.activeCombos = [] then (s, none)
  else
    let outcome := handleEvent (primedEngine names s eventName value) around.order
      ⟨names.binding eventName, value⟩ around.now
    let decision := outcome.decision
    let s := { s with
      engine := outcome.engine
      device := emitComboRecalls names s.device decision.recallEvents }
    let s := (transitionsOf decision).foldl (performTransition names around.plan) s
    if decision.consumeCurrentEvent ∨ decision.passthroughCurrentEvent ∨
        decision.recallEvents ≠ [] ∨ transitionsOf decision ≠ [] ∨ decision.resetCandidates then
      (s, some decision)
    else (s, none)

omit [PyStr] [DecidableEq K] in
/-- `_observe_source_key_transition`. -/
def observeSourceKeyTransition (d : GrabbedDevice K) (eventName : String) (value : ℤ) :
    GrabbedDevice K :=
  if value = 1 then
    if eventName ∈ d.heldSourceKeys then d
    else { d with heldSourceKeys := d.heldSourceKeys ++ [eventName] }
  else if value = 0 then
    { d with heldSourceKeys := d.heldSourceKeys.filter (· ≠ eventName) }
  else d

structure RecalledEventInterception where
  stopProcessing : Bool := false
  suppressReleaseAfterCallback : Bool := false

omit [DecidableEq K] in
def interceptRecalledEvent (d : GrabbedDevice K) (eventName : String) (value : ℤ) :
    GrabbedDevice K × RecalledEventInterception :=
  if normalizeComboEvdev eventName ∉ d.comboRecalledBindings then (d, {})
  else if value = 2 then (d, { stopProcessing := true })
  else
    ({ d with
        comboRecalledBindings := d.comboRecalledBindings.erase (normalizeComboEvdev eventName)
        comboPassthroughHeld := d.comboPassthroughHeld.erase eventName },
      { suppressReleaseAfterCallback := decide (value = 0) })

structure ComboCallbackRoute where
  stopProcessing : Bool := false
  passthroughRequested : Bool := false

omit [PyStr] [DecidableEq K] in
/-- No source action is held, so only a key that passes beside a combo keeps its route. -/
def routeComboCallbackResult (d : GrabbedDevice K) (result : Option (ComboDecision A))
    (eventName : String) (value : ℤ) : ComboCallbackRoute :=
  match result with
  | none => {}
  | some decision =>
    if decision.consumeCurrentEvent = false then
      { passthroughRequested := decision.passthroughCurrentEvent }
    else if value = 0 ∧ eventName ∈ d.comboPassthroughHeld then
      { passthroughRequested := decision.passthroughCurrentEvent }
    else { stopProcessing := true }

omit [PyStr] in
/-- The event passes beside a combo; its release ends that. -/
def emitHeldPassthrough (d : GrabbedDevice K) (code : K) (eventName : String) (value : ℤ) :
    GrabbedDevice K :=
  let d := writeKey d code value
  if value = 0 then { d with comboPassthroughHeld := d.comboPassthroughHeld.erase eventName }
  else d

omit [PyStr] in
def applyFastPassthrough (d : GrabbedDevice K) (code : K) (eventName : String) (value : ℤ)
    (passthroughRequested : Bool) : GrabbedDevice K :=
  let d :=
    if passthroughRequested ∧ value = 1 then
      { d with comboPassthroughHeld := insert eventName d.comboPassthroughHeld }
    else d
  writeKey d code value

omit [PyStr] in
/-- The end of the pipeline for an event that no combo stopped. -/
def emitKey (d : GrabbedDevice K) (code : K) (eventName : String) (value : ℤ)
    (passthroughRequested : Bool) : GrabbedDevice K :=
  if eventName ∈ d.comboPassthroughHeld then emitHeldPassthrough d code eventName value
  else applyFastPassthrough d code eventName value passthroughRequested

/-- `_process_event` for one key event. -/
def processKeyEvent (s : Runtime K A) (around : Surroundings A) (code : K) (value : ℤ) :
    Runtime K A :=
  let eventName := names.eventName code
  let observed := observeSourceKeyTransition s.device eventName value
  let (device, recalled) := interceptRecalledEvent observed eventName value
  let s := { s with device := device }
  if recalled.stopProcessing then s
  else
    let (s, result) := processRuntimeComboEvent names s around eventName value
    let route := routeComboCallbackResult s.device result eventName value
    if route.stopProcessing then s
    else if recalled.suppressReleaseAfterCallback then s
    else { s with device := emitKey s.device code eventName value route.passthroughRequested }

/-! ## Steps -/

inductive Label (K A : Type*)
  | press (code : K) (around : Surroundings A)
  | hold (code : K) (around : Surroundings A)
  | release (code : K) (around : Surroundings A)
  | expireTimeouts (now : ℤ)
  | setCombos (combos : List (RuntimeCombo A)) (preserveComboIds : Option (Finset String))
  | runQueued (comboId : String) (outcome : StartOutcome)

/-- A key is pressed when it is up, repeats and is released when it is down. -/
def step (s : Runtime K A) : Label K A → Option (Runtime K A)
  | .press code around =>
    if names.eventName code ∈ s.device.heldSourceKeys then none
    else some (processKeyEvent names s around code 1)
  | .hold code around =>
    if names.eventName code ∈ s.device.heldSourceKeys then
      some (processKeyEvent names s around code 2)
    else none
  | .release code around =>
    if names.eventName code ∈ s.device.heldSourceKeys then
      some (processKeyEvent names s around code 0)
    else none
  | .expireTimeouts now => some { s with engine := (expireTimeouts s.engine now).1 }
  | .setCombos combos preserveComboIds => some (replaceCombos names s combos preserveComboIds)
  | .runQueued comboId outcome =>
    match s.queued.find? fun waiting => waiting.comboId = comboId with
    | none => none
    | some transition =>
      some (applyComboActionTransition names
        { s with queued := s.queued.eraseP fun waiting => waiting.comboId = comboId }
        transition outcome)

end Keymasq.Device.Passthrough
