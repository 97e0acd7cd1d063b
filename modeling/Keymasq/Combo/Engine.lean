import Mathlib.Data.Finset.Option
import Mathlib.Data.Finset.Sort
import Mathlib.Data.Prod.Lex
import Keymasq.Foundation.Dict
import Keymasq.Foundation.Sorting
import Keymasq.Combo.Names

/-!
# The combo engine

A combo is a sequence of steps, a step a list of bindings held together. The
engine tracks which combos are under way and decides what happens to each key.
-/

namespace Keymasq.Combo.Engine
open Foundation Foundation.Sorting Names

structure RuntimeComboBinding where
  hardwareId : String
  evdev : String
  source : String := ""
  deriving DecidableEq

structure RuntimeComboStep where
  bindings : List RuntimeComboBinding
  timeoutMs : Option ℤ := none
  deriving DecidableEq

structure RuntimeCombo (A : Type*) where
  id : String
  name : String
  steps : List RuntimeComboStep := []
  action : Option A := none
  profileName : String := ""
  recallTriggerKeys : Bool := false
  restoreTriggerKeys : List String := []
  matchAcrossDevices : Bool := false
  releaseOutputsOnCancel : Bool := false
  deriving DecidableEq

structure ComboInputEvent where
  binding : RuntimeComboBinding
  value : ℤ

structure ComboSyntheticEvent where
  binding : RuntimeComboBinding
  value : ℤ := 0

inductive TransitionKind
  | press
  | release
  | pulse

structure ComboActionTransition (A : Type*) where
  comboId : String
  action : Option A
  kind : TransitionKind
  triggerBinding : RuntimeComboBinding
  triggerBindings : List RuntimeComboBinding := []

structure ComboDecision (A : Type*) where
  consumeCurrentEvent : Bool := false
  passthroughCurrentEvent : Bool := false
  recallEvents : List ComboSyntheticEvent := []
  actionTransition : Option (ComboActionTransition A) := none
  extraActionTransitions : List (ComboActionTransition A) := []
  resetCandidates : Bool := false

structure TrackedPress where
  binding : RuntimeComboBinding
  pressOrder : ℕ
  passedThrough : Bool
  isPulse : Bool := false
  deriving DecidableEq

structure ActiveCandidate (A : Type*) where
  combo : RuntimeCombo A
  stepIndex : ℕ := 0
  trackedPresses : List TrackedPress := []
  pressedBindings : Finset RuntimeComboBinding := ∅
  releasing : Bool := false
  nextStepDeadlineMonotonic : Option ℤ := none
  finalCompletingBinding : Option RuntimeComboBinding := none
  actionActive : Bool := false
  deriving DecidableEq

variable {A : Type*}

/- Indexing past the steps would raise; `StepRange.stepIndex_lt` rules it out,
so the default is never read. -/
def ActiveCandidate.currentStep (c : ActiveCandidate A) : RuntimeComboStep :=
  c.combo.steps.getD c.stepIndex ⟨[], none⟩

abbrev Parts := String × String × String

/-- `ComboEngine`: the configuration, the candidates and the held keys. -/
structure ComboEngine (A : Type*) where
  combos : List (RuntimeCombo A) := []
  comboMap : Dict String (RuntimeCombo A) := ∅
  comboOrder : Dict String ℕ := ∅
  firstStepBindingIndex : Dict Parts (List String) := ∅
  candidates : Dict String (ActiveCandidate A) := ∅
  pressCounter : ℕ := 0
  heldBindings : Finset RuntimeComboBinding := ∅
  heldPressOrder : Dict RuntimeComboBinding ℕ := ∅
  heldBindingIndex : Dict Parts (Finset RuntimeComboBinding) := ∅
  heldBindingAnySourceIndex : Dict (String × String) (Finset RuntimeComboBinding) := ∅
  heldBindingAnyHardwareIndex : Dict (String × String) (Finset RuntimeComboBinding) := ∅
  heldBindingAnyHardwareAnySourceIndex : Dict String (Finset RuntimeComboBinding) := ∅

/- A set is walked in no fixed order: each walk over the held keys that may
match a binding comes with the order in which this process walks it. -/
structure SetOrder where
  iter : RuntimeComboBinding → Finset RuntimeComboBinding → List RuntimeComboBinding
  mem_iter : ∀ expected held b, b ∈ iter expected held ↔ b ∈ held

def defaultComboStepTimeoutMs : ℤ := 600

/-! ## Matching -/

section Matching

variable [PyStr]

def normalizedBindingParts (b : RuntimeComboBinding) : Parts :=
  (b.hardwareId, normalizeComboEvdev b.evdev, b.source)

def bindingIsModifier (b : RuntimeComboBinding) : Bool :=
  (normalizedBindingParts b).2.1 ∈ genericModifiers

def bindingIsPulse (b : RuntimeComboBinding) : Bool := isComboPulseEvdev b.evdev

def bindingMatches (expected actual : RuntimeComboBinding) : Bool :=
  (expected.hardwareId = "" ∨ expected.hardwareId = actual.hardwareId) ∧
    normalizeComboEvdev expected.evdev = normalizeComboEvdev actual.evdev ∧
    (expected.source = "" ∨ expected.source = actual.source)

def stepMatchesBinding (step : RuntimeComboStep) (b : RuntimeComboBinding) : Bool :=
  step.bindings.any fun expected => bindingMatches expected b

def stepMatchesScope (step : RuntimeComboStep) (b : RuntimeComboBinding) : Bool :=
  step.bindings.any fun expected =>
    (expected.hardwareId = "" ∨ expected.hardwareId = b.hardwareId) ∧
      (expected.source = "" ∨ expected.source = b.source)

end Matching

def bindingInScope (b : RuntimeComboBinding) (hardwareId : String) (source : Option String) :
    Bool :=
  b.hardwareId = hardwareId &&
    match source with
    | none => true
    | some source => b.source = source

def candidateBindings (c : ActiveCandidate A) : Finset RuntimeComboBinding :=
  c.pressedBindings ∪ (c.trackedPresses.map fun tracked => tracked.binding).toFinset ∪
    c.finalCompletingBinding.toFinset

def candidateMatchesScope (c : ActiveCandidate A) (hardwareId : String) (source : Option String) :
    Bool :=
  decide (∃ b ∈ candidateBindings c, bindingInScope b hardwareId source = true)

def effectiveTimeoutMs (step : RuntimeComboStep) : ℤ :=
  match step.timeoutMs with
  | none => defaultComboStepTimeoutMs
  | some ms => max 1 ms

/-! ## Held keys -/

/-- The sort key of `prime_held_bindings`; no two bindings share it. -/
def bindingSortKey (b : RuntimeComboBinding) : String ×ₗ String ×ₗ String :=
  toLex (b.hardwareId, toLex (b.source, b.evdev))

theorem bindingSortKey_injective : Function.Injective bindingSortKey := by
  intro b c h
  cases b
  cases c
  simp only [bindingSortKey, EmbeddingLike.apply_eq_iff_eq, Prod.mk.injEq] at h
  simp [h]

def bindingLe (b c : RuntimeComboBinding) : Prop := bindingSortKey b ≤ bindingSortKey c

instance : DecidableRel bindingLe := fun b c =>
  inferInstanceAs (Decidable (bindingSortKey b ≤ bindingSortKey c))

instance : IsTrans RuntimeComboBinding bindingLe := ⟨fun _ _ _ => le_trans⟩
instance : Std.Antisymm bindingLe :=
  ⟨fun _ _ h h' => bindingSortKey_injective (le_antisymm h h')⟩
instance : Std.Total bindingLe := ⟨fun _ _ => le_total _ _⟩

def sortedBindings (held : Finset RuntimeComboBinding) : List RuntimeComboBinding :=
  held.sort bindingLe

section Held

variable [PyStr]

def indexHeldBinding (e : ComboEngine A) (b : RuntimeComboBinding) : ComboEngine A :=
  let (hardwareId, normalized, source) := normalizedBindingParts b
  { e with
    heldBindingIndex := e.heldBindingIndex.addTo (hardwareId, normalized, source) b
    heldBindingAnySourceIndex := e.heldBindingAnySourceIndex.addTo (hardwareId, normalized) b
    heldBindingAnyHardwareIndex := e.heldBindingAnyHardwareIndex.addTo (normalized, source) b
    heldBindingAnyHardwareAnySourceIndex :=
      e.heldBindingAnyHardwareAnySourceIndex.addTo normalized b }

def deindexHeldBinding (e : ComboEngine A) (b : RuntimeComboBinding) : ComboEngine A :=
  let (hardwareId, normalized, source) := normalizedBindingParts b
  { e with
    heldBindingIndex := e.heldBindingIndex.discardFrom (hardwareId, normalized, source) b
    heldBindingAnySourceIndex := e.heldBindingAnySourceIndex.discardFrom (hardwareId, normalized) b
    heldBindingAnyHardwareIndex := e.heldBindingAnyHardwareIndex.discardFrom (normalized, source) b
    heldBindingAnyHardwareAnySourceIndex :=
      e.heldBindingAnyHardwareAnySourceIndex.discardFrom normalized b }

/- The source walks the set as it comes; only the buckets are read back, and
they do not depend on that order. -/
def rebuildHeldBindingIndexes (e : ComboEngine A) : ComboEngine A :=
  (sortedBindings e.heldBindings).foldl indexHeldBinding
    { e with
      heldBindingIndex := ∅
      heldBindingAnySourceIndex := ∅
      heldBindingAnyHardwareIndex := ∅
      heldBindingAnyHardwareAnySourceIndex := ∅ }

def recordHeldPress (e : ComboEngine A) (b : RuntimeComboBinding) : ComboEngine A :=
  if b ∈ e.heldBindings then e
  else
    indexHeldBinding
      { e with
        pressCounter := e.pressCounter + 1
        heldBindings := insert b e.heldBindings
        heldPressOrder := e.heldPressOrder.insert b (e.pressCounter + 1) } b

def removeHeldBinding (e : ComboEngine A) (b : RuntimeComboBinding) : ComboEngine A :=
  if b ∈ e.heldBindings then
    deindexHeldBinding
      { e with
        heldBindings := e.heldBindings.erase b
        heldPressOrder := e.heldPressOrder.erase b } b
  else { e with heldPressOrder := e.heldPressOrder.erase b }

def heldCandidatesForBinding (e : ComboEngine A) (expected : RuntimeComboBinding) :
    Finset RuntimeComboBinding :=
  let (hardwareId, normalized, source) := normalizedBindingParts expected
  if hardwareId ≠ "" ∧ source ≠ "" then
    e.heldBindingIndex.getD (hardwareId, normalized, source) ∅
  else if hardwareId ≠ "" then
    e.heldBindingAnySourceIndex.getD (hardwareId, normalized) ∅
  else if source ≠ "" then
    e.heldBindingAnyHardwareIndex.getD (normalized, source) ∅
  else e.heldBindingAnyHardwareAnySourceIndex.getD normalized ∅

/-- The loop of `_held_bindings_for_step`, with the locals it carries. -/
def heldBindingsLoop (e : ComboEngine A) (order : SetOrder) (current : RuntimeComboBinding) :
    List RuntimeComboBinding → Finset RuntimeComboBinding → Bool →
      Option (Finset RuntimeComboBinding)
  | [], heldMatched, _ => some heldMatched
  | expected :: rest, heldMatched, currentMatched =>
    if currentMatched = false ∧ bindingMatches expected current then
      heldBindingsLoop e order current rest (insert current heldMatched) true
    else
      match (order.iter expected (heldCandidatesForBinding e expected)).find?
          (· ∉ heldMatched) with
      | none => none
      | some actual =>
        heldBindingsLoop e order current rest (insert actual heldMatched) currentMatched

def heldBindingsForStep (e : ComboEngine A) (order : SetOrder) (step : RuntimeComboStep)
    (current : RuntimeComboBinding) : Option (Finset RuntimeComboBinding) :=
  heldBindingsLoop e order current step.bindings ∅ false

end Held

/-! ## Configuration -/

section Configuration

def reset (e : ComboEngine A) : ComboEngine A :=
  { e with
    candidates := ∅
    pressCounter := 0
    heldBindings := ∅
    heldPressOrder := ∅
    heldBindingIndex := ∅
    heldBindingAnySourceIndex := ∅
    heldBindingAnyHardwareIndex := ∅
    heldBindingAnyHardwareAnySourceIndex := ∅ }

/-- The candidate that is kept under the new definitions, if any. -/
def preserveCandidate (comboMap : Dict String (RuntimeCombo A)) (ids : Finset String)
    (comboId : String) (candidate : ActiveCandidate A) : Option (ActiveCandidate A) :=
  if comboId ∈ ids then (comboMap.get? comboId).map fun combo => { candidate with combo := combo }
  else none

def preserveCandidates (e : ComboEngine A) (ids : Finset String) : ComboEngine A :=
  { e with candidates := e.candidates.filterMapVal (preserveCandidate e.comboMap ids) }

variable [PyStr]

/-- The index entries of one combo: none without steps. -/
def indexFirstStep (index : Dict Parts (List String)) (combo : RuntimeCombo A) :
    Dict Parts (List String) :=
  match combo.steps with
  | [] => index
  | first :: _ =>
    first.bindings.foldl
      (fun index b =>
        index.insert (normalizedBindingParts b)
          (index.getD (normalizedBindingParts b) [] ++ [combo.id]))
      index

def configure (e : ComboEngine A) (combos : List (RuntimeCombo A)) : ComboEngine A :=
  { e with
    combos := combos
    comboMap := Dict.ofList (combos.map fun combo => (combo.id, combo))
    comboOrder := Dict.ofList (combos.zipIdx.map fun p => (p.1.id, p.2))
    firstStepBindingIndex := combos.foldl indexFirstStep ∅ }

def setCombos (e : ComboEngine A) (combos : List (RuntimeCombo A))
    (preserveCandidateIds : Option (Finset String)) : ComboEngine A :=
  match preserveCandidateIds with
  | some ids => preserveCandidates (configure e combos) ids
  | none => reset (configure e combos)

def primeHeldBindings (e : ComboEngine A) (held : Finset RuntimeComboBinding) : ComboEngine A :=
  (sortedBindings held).foldl recordHeldPress e

/-- The engine afterwards and the ids whose active action was dropped. -/
def dropCandidatesForBindingScope (e : ComboEngine A) (hardwareId : String)
    (source : Option String) : ComboEngine A × List String :=
  if hardwareId = "" then (e, [])
  else
    let dropped := e.candidates.filter fun _ c => candidateMatchesScope c hardwareId source
    let activeComboIds := (dropped.filter fun _ c => c.actionActive).keys
    let keptHeld := e.heldBindings.filter fun b => ¬ bindingInScope b hardwareId source
    let e' := rebuildHeldBindingIndexes
      { e with
        candidates := e.candidates.filter fun _ c => !candidateMatchesScope c hardwareId source
        heldBindings := keptHeld
        heldPressOrder := e.heldPressOrder.filter fun b _ => b ∈ keptHeld }
    if e'.candidates.entries = [] ∧ e'.heldBindings = ∅ then
      ({ e' with pressCounter := 0 }, activeComboIds)
    else (e', activeComboIds)

def isExpired (now : ℤ) (c : ActiveCandidate A) : Bool :=
  match c.nextStepDeadlineMonotonic with
  | none => false
  | some deadline => deadline ≤ now

/-- The engine afterwards and whether a candidate was dropped. -/
def expireTimeouts (e : ComboEngine A) (now : ℤ) : ComboEngine A × Bool :=
  ({ e with candidates := e.candidates.filter fun _ c => !isExpired now c },
    e.candidates.values.any (isExpired now))

end Configuration

/-! ## Presses -/

section Presses

variable [PyStr]

def candidateFirstStepComboIds (e : ComboEngine A) (b : RuntimeComboBinding) : List String :=
  let (hardwareId, normalized, source) := normalizedBindingParts b
  let hardwareKeys := if hardwareId ≠ "" then [hardwareId, ""] else [hardwareId]
  let sourceKeys := if source ≠ "" then [source, ""] else [source]
  let all := hardwareKeys.flatMap fun hardwareKey => sourceKeys.flatMap fun sourceKey =>
    e.firstStepBindingIndex.getD (hardwareKey, normalized, sourceKey) []
  all.foldl (fun comboIds comboId => if comboId ∈ comboIds then comboIds else comboIds ++ [comboId])
    []

def candidateFirstStepCombos (e : ComboEngine A) (b : RuntimeComboBinding) :
    List (RuntimeCombo A) :=
  (candidateFirstStepComboIds e b).filterMap e.comboMap.get?

def bindingMatchesAnyFirstStep (e : ComboEngine A) (b : RuntimeComboBinding) : Bool :=
  candidateFirstStepComboIds e b ≠ []

/-- `_track_press`: the press counter afterwards and the candidate. -/
def trackPress (counter : ℕ) (candidate : ActiveCandidate A) (b : RuntimeComboBinding)
    (passedThrough : Bool) : ℕ × ActiveCandidate A :=
  if candidate.trackedPresses.any fun tracked => tracked.binding = b then (counter, candidate)
  else
    (counter + 1,
      { candidate with
        pressedBindings :=
          if bindingIsPulse b then candidate.pressedBindings
          else insert b candidate.pressedBindings
        nextStepDeadlineMonotonic := none
        trackedPresses := candidate.trackedPresses ++
          [{ binding := b, pressOrder := counter + 1, passedThrough := passedThrough,
             isPulse := bindingIsPulse b }] })

def completeCurrentStep (counter : ℕ) (candidate : ActiveCandidate A)
    (completing : RuntimeComboBinding) (isFinal passedThrough : Bool) : ℕ × ActiveCandidate A :=
  let (counter, candidate) := trackPress counter candidate completing passedThrough
  (counter,
    { candidate with
      pressedBindings :=
        if bindingIsPulse completing then candidate.pressedBindings
        else insert completing candidate.pressedBindings
      releasing := true
      nextStepDeadlineMonotonic := none
      finalCompletingBinding := if isFinal then some completing else none
      actionActive := isFinal })

/-- Move on to the next step and start its timeout. -/
def enterNextStep (candidate : ActiveCandidate A) (now : ℤ) : ActiveCandidate A :=
  let next := { candidate with stepIndex := candidate.stepIndex + 1 }
  { next with
    trackedPresses := []
    releasing := false
    finalCompletingBinding := none
    nextStepDeadlineMonotonic := some (now + effectiveTimeoutMs next.currentStep) }

def isLastStep (candidate : ActiveCandidate A) : Bool :=
  candidate.combo.steps.length - 1 ≤ candidate.stepIndex

def advancePulseCompletedStep (candidate : ActiveCandidate A) (now : ℤ) : ActiveCandidate A :=
  if candidate.actionActive ∨ ¬ candidate.releasing ∨ candidate.pressedBindings.Nonempty then
    candidate
  else if isLastStep candidate then candidate
  else enterNextStep candidate now

def triggerBindings (candidate : ActiveCandidate A) : List RuntimeComboBinding :=
  (sortedBy (·.pressOrder) candidate.trackedPresses).map (·.binding)

def recallEvents (candidate : ActiveCandidate A) : List ComboSyntheticEvent :=
  (sortedByDesc (·.pressOrder)
    (candidate.trackedPresses.filter fun tracked =>
      some tracked.binding ≠ candidate.finalCompletingBinding ∧
        !bindingIsModifier tracked.binding ∧ !tracked.isPulse)).map
    fun tracked => { binding := tracked.binding, value := 0 }

def dedupeRecallEvents (events : List ComboSyntheticEvent) : List ComboSyntheticEvent :=
  events.foldl
    (fun deduped event =>
      if deduped.any fun earlier => earlier.binding = event.binding then deduped
      else deduped ++ [event])
    []

/-- A step that this event completed; kept for the proofs only. -/
structure CompletedStep where
  comboId : String
  stepIndex : ℕ
  step : RuntimeComboStep

/-- The locals of the two press loops, and the steps completed so far. -/
structure PressLoop (A : Type*) where
  engine : ComboEngine A
  transitions : List (ComboActionTransition A) := []
  recallEvents : List ComboSyntheticEvent := []
  partialMatch : Bool := false
  completedStep : Bool := false
  matchedExistingOrActivated : Bool := false
  completed : List CompletedStep := []

def transitionKind (b : RuntimeComboBinding) : TransitionKind :=
  if bindingIsPulse b then .pulse else .press

/- The tail that both loops share: recall the keys and, when the last step is
complete, emit the transition; a pulse leaves no candidate behind. -/
def emitCompletion (loop : PressLoop A) (comboId : String) (candidate : ActiveCandidate A)
    (b : RuntimeComboBinding) : PressLoop A :=
  let loop := { loop with recallEvents := loop.recallEvents ++ recallEvents candidate }
  if candidate.actionActive then
    let loop := { loop with
      transitions := loop.transitions ++
        [{ comboId := candidate.combo.id
           action := candidate.combo.action
           kind := transitionKind b
           triggerBinding := b
           triggerBindings := triggerBindings candidate }] }
    if bindingIsPulse b then
      { loop with engine :=
          { loop.engine with candidates := loop.engine.candidates.erase comboId } }
    else loop
  else loop

/-- The current step of a stored candidate is complete. -/
def completeStored (loop : PressLoop A) (comboId : String) (counter : ℕ)
    (candidate : ActiveCandidate A) (b : RuntimeComboBinding) (isFinal : Bool) (now : ℤ) :
    PressLoop A :=
  let (counter, done) := completeCurrentStep counter candidate b isFinal false
  let advanced := advancePulseCompletedStep done now
  emitCompletion
    { loop with
      engine := { loop.engine with
        pressCounter := counter
        candidates := loop.engine.candidates.insert comboId advanced }
      completed := loop.completed ++ [⟨comboId, candidate.stepIndex, candidate.currentStep⟩] }
    comboId advanced b

/-- One round of the loop over the waiting candidates that match the press. -/
def waitingRound (b : RuntimeComboBinding) (now : ℤ) (loop : PressLoop A) (comboId : String) :
    PressLoop A :=
  match loop.engine.candidates.get? comboId with
  | none => loop
  | some candidate =>
    if candidate.pressedBindings.card + 1 = candidate.currentStep.bindings.length then
      completeStored { loop with completedStep := true } comboId loop.engine.pressCounter candidate
        b (isLastStep candidate) now
    else if bindingIsPulse b then { loop with partialMatch := true }
    else
      let (counter, tracked) := trackPress loop.engine.pressCounter candidate b true
      { loop with
        partialMatch := true
        engine := { loop.engine with
          pressCounter := counter
          candidates := loop.engine.candidates.insert comboId tracked } }

/-- What a press handler leaves: engine, decision and the completed steps. -/
structure PressOutcome (A : Type*) where
  engine : ComboEngine A
  decision : ComboDecision A := {}
  completed : List CompletedStep := []

def decisionOfTransitions (transitions : List (ComboActionTransition A)) : ComboDecision A :=
  { actionTransition := transitions.head?, extraActionTransitions := transitions.tail }

/-- How a press meets a waiting candidate. -/
inductive PressClass
  | repeated
  | matching
  | scopedNonmatching
  | unscoped
  deriving DecidableEq

def pressClass (candidate : ActiveCandidate A) (b : RuntimeComboBinding) : PressClass :=
  if b ∈ candidate.pressedBindings then .repeated
  else if stepMatchesBinding candidate.currentStep b then .matching
  else if stepMatchesScope candidate.currentStep b then .scopedNonmatching
  else .unscoped

/-- Ids of the waiting candidates in the given classes, in dictionary order. -/
def waitingIds (e : ComboEngine A) (b : RuntimeComboBinding) (classes : List PressClass) :
    List String :=
  (e.candidates.filter fun _ c => !c.releasing && decide (pressClass c b ∈ classes)).keys

def dropCandidates (e : ComboEngine A) (ids : List String) : ComboEngine A :=
  { e with candidates := ids.foldl Dict.erase e.candidates }

def handleWaitingCandidatePress (e : ComboEngine A) (b : RuntimeComboBinding) (now : ℤ) :
    PressOutcome A :=
  let matchingIds := waitingIds e b [.matching]
  let repeatedIds := waitingIds e b [.repeated]
  let scopedIds := waitingIds e b [.repeated, .matching, .scopedNonmatching]
  if repeatedIds ≠ [] ∧ matchingIds = [] then
    { engine := e, decision := { consumeCurrentEvent := true } }
  else if matchingIds = [] then
    if scopedIds = [] then { engine := e }
    else
      let e := dropCandidates e scopedIds
      { engine := e,
        decision := { passthroughCurrentEvent := true,
                      resetCandidates := decide (e.candidates.entries = []) } }
  else
    let e := dropCandidates e (waitingIds e b [.scopedNonmatching])
    let sortedIds := sortedBy (fun comboId => e.comboOrder.getD comboId 0) matchingIds
    let loop := sortedIds.foldl (waitingRound b now) { engine := e }
    let consume := decide (loop.transitions ≠ []) || loop.completedStep ||
      matchingIds.any fun comboId => (loop.engine.candidates.get? comboId).any (·.releasing)
    { engine := loop.engine
      decision := { decisionOfTransitions loop.transitions with
        consumeCurrentEvent := consume
        passthroughCurrentEvent := loop.partialMatch && !consume
        recallEvents := dedupeRecallEvents loop.recallEvents }
      completed := loop.completed }

def pulseCanCompleteFirstStep (combo : RuntimeCombo A) (b : RuntimeComboBinding)
    (held : Finset RuntimeComboBinding) : Bool :=
  if ¬ bindingIsPulse b then true
  else if combo.steps.length = 1 ∧ (combo.steps.getD 0 ⟨[], none⟩).bindings.length = 1 then true
  else decide (∃ h ∈ held, h ≠ b ∧ ¬ bindingIsPulse h)

/-- A new candidate that tracks the held keys of its first step, oldest first. -/
def newCandidate (e : ComboEngine A) (combo : RuntimeCombo A) (held : Finset RuntimeComboBinding)
    (b : RuntimeComboBinding) : ℕ × ActiveCandidate A :=
  (sortedBy (fun h => e.heldPressOrder.getD h (e.pressCounter + 1)) (sortedBindings held)).foldl
    (fun state h => trackPress state.1 state.2 h (h ≠ b))
    (e.pressCounter, { combo := combo })

/-- One round of the loop over the combos whose first step the press matches. -/
def firstStepRound (order : SetOrder) (b : RuntimeComboBinding) (now : ℤ) (loop : PressLoop A)
    (combo : RuntimeCombo A) : PressLoop A :=
  match loop.engine.candidates.get? combo.id with
  | some candidate =>
    { loop with matchedExistingOrActivated :=
        loop.matchedExistingOrActivated || decide (b ∈ candidate.pressedBindings) }
  | none =>
    match heldBindingsForStep loop.engine order (combo.steps.getD 0 ⟨[], none⟩) b with
    | none => loop
    | some held =>
      if bindingIsPulse b ∧ ¬ pulseCanCompleteFirstStep combo b held then loop
      else
        let (counter, candidate) := newCandidate loop.engine combo held b
        completeStored { loop with matchedExistingOrActivated := true } combo.id counter candidate
          b (decide (combo.steps.length = 1)) now

def activateSatisfiedFirstSteps (e : ComboEngine A) (order : SetOrder) (b : RuntimeComboBinding)
    (now : ℤ) : PressOutcome A :=
  let loop := (candidateFirstStepCombos e b).foldl (firstStepRound order b now) { engine := e }
  if loop.transitions = [] ∧ loop.matchedExistingOrActivated = false then
    { engine := loop.engine, completed := loop.completed }
  else
    { engine := loop.engine
      decision := { decisionOfTransitions loop.transitions with
        consumeCurrentEvent := true
        recallEvents := dedupeRecallEvents loop.recallEvents }
      completed := loop.completed }

def transitionsOf (d : ComboDecision A) : List (ComboActionTransition A) :=
  d.actionTransition.toList ++ d.extraActionTransitions

def mergeDecisions (d d' : ComboDecision A) : ComboDecision A :=
  let consume := d.consumeCurrentEvent || d'.consumeCurrentEvent
  { decisionOfTransitions (transitionsOf d ++ transitionsOf d') with
    consumeCurrentEvent := consume
    passthroughCurrentEvent := !consume && (d.passthroughCurrentEvent || d'.passthroughCurrentEvent)
    recallEvents := dedupeRecallEvents (d.recallEvents ++ d'.recallEvents)
    resetCandidates := d.resetCandidates || d'.resetCandidates }

def handlePressEvent (e : ComboEngine A) (order : SetOrder) (b : RuntimeComboBinding) (now : ℤ) :
    PressOutcome A :=
  let waiting := handleWaitingCandidatePress e b now
  let firstStep := activateSatisfiedFirstSteps waiting.engine order b now
  let decision := mergeDecisions waiting.decision firstStep.decision
  let decision :=
    if !decision.consumeCurrentEvent ∧ !decision.passthroughCurrentEvent ∧
        bindingMatchesAnyFirstStep firstStep.engine b then
      { decision with passthroughCurrentEvent := true }
    else decision
  { engine := firstStep.engine, decision := decision,
    completed := waiting.completed ++ firstStep.completed }

end Presses

/-! ## Releases -/

section Releases

def bindingWasPassedThrough (candidate : ActiveCandidate A) (b : RuntimeComboBinding) : Bool :=
  match candidate.trackedPresses.find? fun tracked => tracked.binding = b with
  | none => false
  | some tracked => tracked.passedThrough

def handleReleaseBeforeCompletion (e : ComboEngine A) (b : RuntimeComboBinding) :
    ComboEngine A × ComboDecision A :=
  let dropped := e.candidates.filter fun _ c => b ∈ c.pressedBindings
  let kept := e.candidates.filter fun _ c => b ∉ c.pressedBindings
  if dropped.entries = [] then (e, {})
  else
    let e := { e with candidates := kept }
    if dropped.values.any fun c => bindingWasPassedThrough c b then
      (e, { passthroughCurrentEvent := true, resetCandidates := decide (kept.entries = []) })
    else (e, { consumeCurrentEvent := true, resetCandidates := decide (kept.entries = []) })

/-- What `_handle_releasing_event` does with one candidate. -/
structure ReleaseRound (A : Type*) where
  kept : Option (ActiveCandidate A)
  transition : Option (ComboActionTransition A) := none
  matchedStepBinding : Bool := false
  droppedBeforeCompletion : Bool := false
  releasedWasPassthrough : Bool := false

variable [PyStr]

def releaseRound (event : ComboInputEvent) (now : ℤ) (candidate : ActiveCandidate A) :
    ReleaseRound A :=
  if candidate.releasing = false then
    if event.binding ∈ candidate.pressedBindings then
      { kept := none
        droppedBeforeCompletion := true
        releasedWasPassthrough := bindingWasPassedThrough candidate event.binding }
    else { kept := some candidate }
  else if ¬ stepMatchesBinding candidate.currentStep event.binding then { kept := some candidate }
  else if event.value = 0 then
    if event.binding ∉ candidate.pressedBindings then { kept := some candidate }
    else
      let transition :=
        if candidate.actionActive then
          some { comboId := candidate.combo.id
                 action := candidate.combo.action
                 kind := .release
                 triggerBinding := event.binding }
        else none
      let released := { candidate with
        actionActive := false
        pressedBindings := candidate.pressedBindings.erase event.binding }
      let kept :=
        if released.pressedBindings.Nonempty then
          if released.stepIndex = 0 ∧ released.combo.steps.length = 1 then none
          else some released
        else if isLastStep released then none
        else some (enterNextStep released now)
      { kept := kept, transition := transition, matchedStepBinding := true }
  else { kept := some candidate }

def handleReleasingEvent (e : ComboEngine A) (event : ComboInputEvent) (now : ℤ) :
    ComboEngine A × ComboDecision A :=
  let rounds := e.candidates.values.map (releaseRound event now)
  let kept := e.candidates.filterMapVal fun _ c => (releaseRound event now c).kept
  let matchedStep := rounds.any (·.matchedStepBinding)
  let dropped := rounds.any (·.droppedBeforeCompletion)
  let passthrough := rounds.any (·.releasedWasPassthrough)
  let consume := matchedStep || (dropped && !passthrough)
  let e := { e with candidates := kept }
  if matchedStep ∨ dropped then
    (e, { decisionOfTransitions (rounds.filterMap (·.transition)) with
      consumeCurrentEvent := consume
      passthroughCurrentEvent := dropped && passthrough && !consume
      resetCandidates := decide (kept.entries = []) })
  else (e, {})

def handleReleaseEvent (e : ComboEngine A) (event : ComboInputEvent) (now : ℤ) :
    ComboEngine A × ComboDecision A :=
  if e.candidates.values.any (·.releasing) then handleReleasingEvent e event now
  else handleReleaseBeforeCompletion e event.binding

end Releases

/-! ## Events and operations -/

section Events

variable [PyStr]

/-- The candidate and counter bookkeeping after a press or a release. -/
def finishEvent (expired hadCandidates : Bool) (outcome : PressOutcome A) : PressOutcome A :=
  let noCandidates := decide (outcome.engine.candidates.entries = [])
  let d := outcome.decision
  let resetCandidates :=
    if hadCandidates ∧ noCandidates ∧
        (expired ∨ d.consumeCurrentEvent ∨ d.passthroughCurrentEvent) then true
    else d.resetCandidates
  { outcome with
    decision := { d with resetCandidates := resetCandidates }
    engine :=
      if noCandidates ∧ outcome.engine.heldBindings = ∅ then
        { outcome.engine with pressCounter := 0 }
      else outcome.engine }

def handleEvent (e : ComboEngine A) (order : SetOrder) (event : ComboInputEvent) (now : ℤ) :
    PressOutcome A :=
  let (e, expired) := expireTimeouts e now
  if event.value = 2 then
    { engine := e,
      decision := { resetCandidates := expired && decide (e.candidates.entries = []) } }
  else
    let hadCandidates := decide (e.candidates.entries ≠ [])
    if event.value = 1 then
      let e := if bindingIsPulse event.binding then e else recordHeldPress e event.binding
      finishEvent expired hadCandidates (handlePressEvent e order event.binding now)
    else
      let (e, decision) := handleReleaseEvent e event now
      finishEvent expired hadCandidates
        { engine := removeHeldBinding e event.binding, decision := decision }

inductive EngineOp (A : Type*)
  | setCombos (combos : List (RuntimeCombo A)) (preserveCandidateIds : Option (Finset String))
  | reset
  | primeHeldBindings (held : Finset RuntimeComboBinding)
  | dropCandidatesForBindingScope (hardwareId : String) (source : Option String)
  | expireTimeouts (now : ℤ)
  | handleEvent (order : SetOrder) (event : ComboInputEvent) (now : ℤ)

/-- One call on the engine; no call fails. -/
def step (e : ComboEngine A) : EngineOp A → Option (ComboEngine A)
  | .setCombos combos ids => some (setCombos e combos ids)
  | .reset => some (reset e)
  | .primeHeldBindings held => some (primeHeldBindings e held)
  | .dropCandidatesForBindingScope hardwareId source =>
    some (dropCandidatesForBindingScope e hardwareId source).1
  | .expireTimeouts now => some (expireTimeouts e now).1
  | .handleEvent order event now => some (handleEvent e order event now).engine

end Events

end Keymasq.Combo.Engine
