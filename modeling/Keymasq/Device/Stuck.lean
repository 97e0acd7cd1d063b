import Keymasq.Foundation.Alternation
import Keymasq.Combo.Consumption
import Keymasq.Device.Passthrough

/-!
# No passthrough key is stuck

The device keeps three records for a held key: it was recalled, it passes beside
a combo, or nothing, and then the engine tells whether a completed combo has
withheld it. While a release finds the record of its own key, an output is down
only for a held source key and its presses and releases alternate.
-/

namespace Keymasq.Device.Stuck
open Foundation Foundation.Alternation Foundation.Transition Combo.Names Combo.Engine
open Combo.Coherence Combo.Consumption Passthrough

section Device

variable [PyStr] {K A : Type*} [DecidableEq K] {names : KeyNames K}

/-! ## What one event may do to the device -/

/- `held` are the source keys from before a release or after a press, so that
the key of the event is among them until the event is over. -/
structure Tracked (names : KeyNames K) (held : List String) (d : GrabbedDevice K) : Prop where
  named : ∀ eventName ∈ held, ∃ code, eventName = names.eventName code
  source_held : ∀ eventName ∈ d.heldSourceKeys, eventName ∈ held
  down_held : ∀ code ∈ d.heldOutputKeys, names.eventName code ∈ held
  passthrough_held : ∀ eventName ∈ d.comboPassthroughHeld, eventName ∈ held
  written : ∀ code, downAfter code d.written = some (decide (code ∈ d.heldOutputKeys))

structure Moves (names : KeyNames K) (held : List String) (d d' : GrabbedDevice K) : Prop where
  tracked : Tracked names held d'
  source : d'.heldSourceKeys = d.heldSourceKeys

/-- A recall writes releases only and leaves what passes beside a combo. -/
structure Recalls (names : KeyNames K) (held : List String) (d d' : GrabbedDevice K) : Prop
    extends Moves names held d d' where
  down : d'.heldOutputKeys ⊆ d.heldOutputKeys
  passthrough : d'.comboPassthroughHeld = d.comboPassthroughHeld

/-- The end of an action leaves the keys alone whose source is up. -/
structure Settles (names : KeyNames K) (held : List String) (d d' : GrabbedDevice K) : Prop
    extends Moves names held d d' where
  down : ∀ code, names.eventName code ∉ d.heldSourceKeys →
    (code ∈ d'.heldOutputKeys ↔ code ∈ d.heldOutputKeys)
  passthrough : ∀ eventName, eventName ∉ d.heldSourceKeys →
    (eventName ∈ d'.comboPassthroughHeld ↔ eventName ∈ d.comboPassthroughHeld)

section Relations

variable {held : List String} {d d' d'' : GrabbedDevice K} {code : K} {evdev : String}

theorem Moves.refl (h : Tracked names held d) : Moves names held d d := ⟨h, rfl⟩

theorem Moves.trans (h : Moves names held d d') (h' : Moves names held d' d'') :
    Moves names held d d'' := ⟨h'.tracked, h'.source.trans h.source⟩

theorem Recalls.refl (h : Tracked names held d) : Recalls names held d d :=
  ⟨Moves.refl h, Finset.Subset.refl _, rfl⟩

theorem Recalls.trans (h : Recalls names held d d') (h' : Recalls names held d' d'') :
    Recalls names held d d'' :=
  ⟨h.toMoves.trans h'.toMoves, h'.down.trans h.down, h'.passthrough.trans h.passthrough⟩

theorem Settles.refl (h : Tracked names held d) : Settles names held d d :=
  ⟨Moves.refl h, fun _ _ => Iff.rfl, fun _ _ => Iff.rfl⟩

theorem Settles.trans (h : Settles names held d d') (h' : Settles names held d' d'') :
    Settles names held d d'' := by
  refine ⟨h.toMoves.trans h'.toMoves, ?_, ?_⟩
  · intro code hcode
    exact (h'.down code (by rwa [h.source])).trans (h.down code hcode)
  · intro eventName hname
    exact (h'.passthrough eventName (by rwa [h.source])).trans (h.passthrough eventName hname)

/-! ## Writes -/

omit [PyStr] in
/-- One more event is written in turn when the tracked set follows it. -/
theorem downAfter_writeKey
    (h : ∀ code, downAfter code d.written = some (decide (code ∈ d.heldOutputKeys))) {value : ℤ}
    (hturn : edgeStep (decide (code ∈ d.heldOutputKeys)) value =
      some (decide (code ∈ (writeKey d code value).heldOutputKeys)))
    (hother : ∀ other, other ≠ code →
      (other ∈ (writeKey d code value).heldOutputKeys ↔ other ∈ d.heldOutputKeys)) (other : K) :
    downAfter other (writeKey d code value).written =
      some (decide (other ∈ (writeKey d code value).heldOutputKeys)) := by
  change downAfter other (d.written ++ [(code, value)]) = _
  by_cases hsame : other = code
  · subst hsame
    rw [downAfter_append_self, h, Option.bind_some, hturn]
  · rw [downAfter_append_of_ne (Ne.symm hsame), h]
    simp only [hother other hsame]

theorem Tracked.release (h : Tracked names held d) (hdown : code ∈ d.heldOutputKeys) :
    Tracked names held (writeKey d code 0) := by
  have hkeys : (writeKey d code 0).heldOutputKeys = d.heldOutputKeys.erase code := rfl
  refine ⟨h.named, h.source_held, ?_, h.passthrough_held, downAfter_writeKey h.written ?_ ?_⟩
  · intro other hother
    rw [hkeys] at hother
    exact h.down_held other (Finset.mem_of_mem_erase hother)
  · simp [hkeys, hdown, edgeStep]
  · intro other hother
    simp [hkeys, hother]

theorem Tracked.press (h : Tracked names held d) (hup : code ∉ d.heldOutputKeys)
    (hheld : names.eventName code ∈ held) : Tracked names held (writeKey d code 1) := by
  have hkeys : (writeKey d code 1).heldOutputKeys = insert code d.heldOutputKeys := rfl
  refine ⟨h.named, h.source_held, ?_, h.passthrough_held, downAfter_writeKey h.written ?_ ?_⟩
  · intro other hother
    rw [hkeys, Finset.mem_insert] at hother
    rcases hother with rfl | hother
    · exact hheld
    · exact h.down_held other hother
  · simp [hkeys, hup, edgeStep]
  · intro other hother
    simp [hkeys, hother]

/-- A repeat is no edge. -/
theorem Tracked.hold (h : Tracked names held d) (code : K) :
    Tracked names held (writeKey d code 2) := by
  have hkeys : (writeKey d code 2).heldOutputKeys = d.heldOutputKeys := rfl
  refine ⟨h.named, h.source_held, h.down_held, h.passthrough_held,
    downAfter_writeKey h.written ?_ ?_⟩
  · rw [hkeys]
    cases decide (code ∈ d.heldOutputKeys) <;> rfl
  · intro other _
    rw [hkeys]

theorem Tracked.marks (h : Tracked names held d) (marks : Finset String) :
    Tracked names held { d with comboRecalledBindings := marks } :=
  ⟨h.named, h.source_held, h.down_held, h.passthrough_held, h.written⟩

/-- The name of a held key resolves to the output of that key. -/
theorem Tracked.output_name (h : Tracked names held d) (hheld : PyStr.lower evdev ∈ held)
    (hcode : comboBindingOutput names evdev = some code) :
    names.eventName code = PyStr.lower evdev := by
  obtain ⟨source, hsource⟩ := h.named _ hheld
  rw [hsource, names.resolve_lower evdev source code hsource hcode]

/-! ## Recalls -/

theorem Tracked.emitComboRelease (h : Tracked names held d)
    (hactive : comboPassthroughBindingActive names d evdev = true) :
    Recalls names held d (markComboRecalledBinding (emitComboRelease names d evdev) evdev) := by
  simp only [comboPassthroughBindingActive] at hactive
  cases hcode : comboBindingOutput names evdev with
  | none =>
    rw [hcode] at hactive
    cases hactive
  | some code =>
    rw [hcode] at hactive
    have hrelease := h.release (of_decide_eq_true hactive)
    simp only [Passthrough.emitComboRelease, hcode]
    refine ⟨⟨hrelease.marks _, rfl⟩, ?_, rfl⟩
    exact Finset.erase_subset _ _

theorem Tracked.emitComboRecalls (h : Tracked names held d)
    (events : List ComboSyntheticEvent) :
    Recalls names held d (emitComboRecalls names d events) := by
  refine List.foldlRecOn (motive := fun d' => Recalls names held d d') events _
    (Recalls.refl h) ?_
  intro d' hd' event _
  simp only [emitComboRecall]
  split
  · exact hd'
  · split
    · exact hd'
    · rename_i hactive
      exact hd'.trans (hd'.tracked.emitComboRelease (by simpa using hactive))

theorem Tracked.comboTriggerRecallState (h : Tracked names held d)
    (combo : Option (RuntimeCombo A)) (triggers : List RuntimeComboBinding) :
    Recalls names held d (comboTriggerRecallState names d combo triggers).1 := by
  cases combo with
  | none => exact Recalls.refl h
  | some combo =>
    simp only [Passthrough.comboTriggerRecallState]
    split
    · exact Recalls.refl h
    · refine List.foldlRecOn (motive := fun state : GrabbedDevice K × List RuntimeComboBinding =>
        Recalls names held d state.1) _ (recallTrigger names) (Recalls.refl h) ?_
      intro state hstate b _
      simp only [recallTrigger]
      split
      · exact hstate
      · split
        · exact hstate
        · split
          · exact hstate
          · rename_i hactive
            exact hstate.trans (hstate.tracked.emitComboRelease (by simpa using hactive))

/-! ## Restoration -/

theorem Tracked.emitComboPress (h : Tracked names held d)
    (hheld : comboSourceBindingHeld d evdev = true)
    (hup : comboPassthroughBindingActive names d evdev = false) :
    Settles names held d (emitComboPress names d evdev) := by
  have hsource : PyStr.lower evdev ∈ d.heldSourceKeys := of_decide_eq_true hheld
  have hin := h.source_held _ hsource
  simp only [Passthrough.emitComboPress, comboPassthroughBindingActive] at hup ⊢
  cases hcode : comboBindingOutput names evdev with
  | none => exact Settles.refl h
  | some code =>
    rw [hcode] at hup
    have hname := h.output_name hin hcode
    have hpress := h.press (of_decide_eq_false hup) (hname ▸ hin)
    refine ⟨⟨⟨hpress.named, hpress.source_held, hpress.down_held, ?_, hpress.written⟩, rfl⟩,
      ?_, ?_⟩
    · intro eventName hmem
      rcases Finset.mem_insert.mp hmem with rfl | hmem
      · exact hin
      · exact h.passthrough_held eventName hmem
    · intro other hother
      have hne : other ≠ code := by
        rintro rfl
        exact hother (hname ▸ hsource)
      change other ∈ insert code d.heldOutputKeys ↔ _
      simp [hne]
    · intro eventName hmissing
      have hne : eventName ≠ PyStr.lower evdev := by
        rintro rfl
        exact hmissing hsource
      simp [hne]

theorem Tracked.restoreComboTriggerBindings (h : Tracked names held d)
    (bindings : List RuntimeComboBinding) :
    Settles names held d (restoreComboTriggerBindings names d bindings) := by
  have hclear : ∀ d' evdev, Settles names held d d' →
      Settles names held d (clearComboRecalledBinding d' evdev) := by
    intro d' evdev hd'
    exact ⟨⟨hd'.tracked.marks _, hd'.source⟩, hd'.down, hd'.passthrough⟩
  refine List.foldlRecOn (motive := fun d' => Settles names held d d') bindings _
    (Settles.refl h) ?_
  intro d' hd' b _
  simp only [restoreComboTriggerBinding]
  split
  · exact hd'
  · split
    · exact hclear _ _ hd'
    · rename_i hheld
      split
      · exact hclear _ _ hd'
      · rename_i hactive
        refine hclear _ _ (hd'.trans (hd'.tracked.emitComboPress ?_ ?_))
        · simpa using hheld
        · simpa using hactive

end Relations

/-! ## Combo actions -/

section Actions

variable {held : List String} {s : Runtime K A}

theorem stopComboAction_spec (h : Tracked names held s.device) (comboId : String) :
    (stopComboAction names s comboId).engine = s.engine ∧
      Settles names held s.device (stopComboAction names s comboId).device := by
  simp only [stopComboAction]
  split
  · exact ⟨rfl, Settles.refl h⟩
  · exact ⟨rfl, h.restoreComboTriggerBindings _⟩

theorem startComboAction_spec (h : Tracked names held s.device)
    (transition : ComboActionTransition A) (outcome : StartOutcome) :
    (startComboAction names s transition outcome).engine = s.engine ∧
      Moves names held s.device (startComboAction names s transition outcome).device := by
  simp only [startComboAction]
  split
  · exact ⟨rfl, Moves.refl h⟩
  · obtain ⟨hengine, hstop⟩ := stopComboAction_spec h transition.comboId
    have hrecall := hstop.tracked.comboTriggerRecallState
      (runtimeCombo (stopComboAction names s transition.comboId) transition.comboId)
      transition.triggerBindings
    have hmoves := hstop.toMoves.trans hrecall.toMoves
    cases outcome with
    | declined => exact ⟨hengine, hstop.toMoves⟩
    | registered => exact ⟨hengine, hmoves⟩
    | finished =>
      exact ⟨hengine, hmoves.trans (hmoves.tracked.restoreComboTriggerBindings _).toMoves⟩

theorem applyComboActionTransition_spec (h : Tracked names held s.device)
    (transition : ComboActionTransition A) (outcome : StartOutcome) :
    (applyComboActionTransition names s transition outcome).engine = s.engine ∧
      Moves names held s.device (applyComboActionTransition names s transition outcome).device := by
  obtain ⟨hengine, hstart⟩ := startComboAction_spec h transition outcome
  cases hkind : transition.kind with
  | press =>
    simp only [applyComboActionTransition, hkind]
    exact ⟨hengine, hstart⟩
  | pulse =>
    simp only [applyComboActionTransition, hkind]
    obtain ⟨hengine', hstop⟩ := stopComboAction_spec hstart.tracked transition.comboId
    exact ⟨hengine'.trans hengine, hstart.trans hstop.toMoves⟩
  | release =>
    simp only [applyComboActionTransition, hkind]
    obtain ⟨hengine', hstop⟩ := stopComboAction_spec h transition.comboId
    exact ⟨hengine', hstop.toMoves⟩

theorem performTransition_spec (h : Tracked names held s.device)
    (plan : ComboActionTransition A → Plan) (transition : ComboActionTransition A) :
    (performTransition names plan s transition).engine = s.engine ∧
      Moves names held s.device (performTransition names plan s transition).device := by
  simp only [performTransition]
  split
  · exact ⟨rfl, Moves.refl h⟩
  · split
    · exact applyComboActionTransition_spec h transition _
    · exact ⟨rfl, Moves.refl h⟩

theorem performTransition_release (h : Tracked names held s.device)
    (plan : ComboActionTransition A → Plan) {transition : ComboActionTransition A}
    (hkind : transition.kind = .release) :
    Settles names held s.device (performTransition names plan s transition).device := by
  simp only [performTransition]
  split
  · exact Settles.refl h
  · split
    · simp only [applyComboActionTransition, hkind]
      exact (stopComboAction_spec h transition.comboId).2
    · exact Settles.refl h

theorem performTransitions_spec (h : Tracked names held s.device)
    (plan : ComboActionTransition A → Plan) (transitions : List (ComboActionTransition A)) :
    (transitions.foldl (performTransition names plan) s).engine = s.engine ∧
      Moves names held s.device (transitions.foldl (performTransition names plan) s).device := by
  refine List.foldlRecOn (motive := fun s' : Runtime K A => s'.engine = s.engine ∧
    Moves names held s.device s'.device) transitions _ ⟨rfl, Moves.refl h⟩ ?_
  rintro s' ⟨hengine, hmoves⟩ transition _
  obtain ⟨hengine', hmoves'⟩ := performTransition_spec hmoves.tracked plan transition
  exact ⟨hengine'.trans hengine, hmoves.trans hmoves'⟩

theorem performTransitions_release (h : Tracked names held s.device)
    (plan : ComboActionTransition A → Plan) {transitions : List (ComboActionTransition A)}
    (hkinds : ∀ t ∈ transitions, t.kind = .release) :
    Settles names held s.device (transitions.foldl (performTransition names plan) s).device := by
  refine List.foldlRecOn (motive := fun s' : Runtime K A => Settles names held s.device s'.device)
    transitions _ (Settles.refl h) ?_
  intro s' hsettles transition hmem
  exact hsettles.trans (performTransition_release hsettles.tracked plan (hkinds transition hmem))

end Actions

/-! ## The combo callback -/

omit [DecidableEq K] in
theorem coherent_primeHeld {e : ComboEngine A} (h : Coherent e) (held : List String) :
    Coherent (primeHeld names e held) :=
  List.foldlRecOn _ _ h fun _ he b _ => he.recordHeldPress b

omit [DecidableEq K] in
theorem allCollected_primeHeld {e : ComboEngine A} (h : AllCollected e) (held : List String) :
    AllCollected (primeHeld names e held) :=
  List.foldlRecOn (motive := fun e' : ComboEngine A => AllCollected e') _ _ h
    fun e' he b _ => he.of_candidates (recordHeldPress_candidates e' b).1

/-- The engine's part of what the records must agree with. -/
def comboHolds (names : KeyNames K) (s : Runtime K A) (eventName : String) : Bool :=
  readsCombos eventName && !s.activeCombos.isEmpty &&
    completedHolds s.engine (names.binding eventName)

def consumed (result : Option (ComboDecision A)) : Bool :=
  result.any fun decision => decision.consumeCurrentEvent

variable {s : Runtime K A}

/- A callback that reads the event: the engine, primed before a press, takes it,
then the recalls are written and the transitions performed. -/
theorem processRuntimeComboEvent_cases (hcoherent : Coherent s.engine)
    (hcollected : AllCollected s.engine) (around : Surroundings A) (eventName : String)
    (value : ℤ) :
    (processRuntimeComboEvent names s around eventName value = (s, none) ∧
      comboHolds names s eventName = false) ∨
    ∃ e : ComboEngine A, Coherent e ∧ AllCollected e ∧ (value ≠ 1 → e = s.engine) ∧
      let outcome := handleEvent e around.order ⟨names.binding eventName, value⟩ around.now
      let s' : Runtime K A := { s with
        engine := outcome.engine
        device := emitComboRecalls names s.device outcome.decision.recallEvents }
      (processRuntimeComboEvent names s around eventName value).1 =
        (transitionsOf outcome.decision).foldl (performTransition names around.plan) s' ∧
      consumed (processRuntimeComboEvent names s around eventName value).2 =
        outcome.decision.consumeCurrentEvent ∧
      comboHolds names s eventName = completedHolds s.engine (names.binding eventName) := by
  by_cases hread : ¬ readsCombos eventName ∨ s.activeCombos = []
  · left
    refine ⟨by simp only [processRuntimeComboEvent, if_pos hread], ?_⟩
    rcases hread with hread | hread
    · simp [comboHolds, hread]
    · simp [comboHolds, hread]
  · right
    refine ⟨primedEngine names s eventName value, ?_, ?_,
      fun hvalue => if_neg fun h => hvalue h.1, ?_, ?_, ?_⟩
    · unfold primedEngine
      split
      · exact coherent_primeHeld hcoherent _
      · exact hcoherent
    · unfold primedEngine
      split
      · exact allCollected_primeHeld hcollected _
      · exact hcollected
    · simp only [processRuntimeComboEvent, if_neg hread]
      split <;> rfl
    · simp only [processRuntimeComboEvent, if_neg hread]
      split
      · rfl
      · rename_i hquiet
        simp only [not_or, Bool.not_eq_true] at hquiet
        exact hquiet.1.symm
    · rw [not_or, not_not] at hread
      simp [comboHolds, hread.1, hread.2]

section Callback

variable {held : List String} {s : Runtime K A} (hcoherent : Coherent s.engine)
  (hcollected : AllCollected s.engine) (h : Tracked names held s.device)
  (around : Surroundings A) (eventName : String)

include hcoherent hcollected h

theorem processRuntimeComboEvent_spec (value : ℤ) :
    let s' := (processRuntimeComboEvent names s around eventName value).1
    Coherent s'.engine ∧ AllCollected s'.engine ∧ Moves names held s.device s'.device := by
  rcases processRuntimeComboEvent_cases hcoherent hcollected around eventName value with
    ⟨heq, -⟩ | ⟨e, he, hec, -, heq, -, -⟩
  · rw [heq]
    exact ⟨hcoherent, hcollected, Moves.refl h⟩
  · rw [heq]
    have hrecall := h.emitComboRecalls
      (handleEvent e around.order ⟨names.binding eventName, value⟩
        around.now).decision.recallEvents
    obtain ⟨hengine, hmoves⟩ := performTransitions_spec (s := { s with
      engine := (handleEvent e around.order ⟨names.binding eventName, value⟩ around.now).engine
      device := emitComboRecalls names s.device (handleEvent e around.order
        ⟨names.binding eventName, value⟩ around.now).decision.recallEvents })
      hrecall.tracked around.plan (transitionsOf (handleEvent e around.order
        ⟨names.binding eventName, value⟩ around.now).decision)
    refine ⟨?_, ?_, hrecall.toMoves.trans hmoves⟩
    · rw [hengine]
      exact he.handleEvent _ _ _
    · rw [hengine]
      exact hec.handleEvent _ _ _

/-- A press that goes on to the output has at most recalled other keys. -/
theorem processRuntimeComboEvent_press
    (hpasses : consumed (processRuntimeComboEvent names s around eventName 1).2 = false) :
    Recalls names held s.device
      (processRuntimeComboEvent names s around eventName 1).1.device := by
  rcases processRuntimeComboEvent_cases hcoherent hcollected around eventName 1 with
    ⟨heq, -⟩ | ⟨e, -, -, -, heq, hconsumed, -⟩
  · rw [heq]
    exact Recalls.refl h
  · rw [hconsumed] at hpasses
    rw [heq, handleEvent_press e around.order _ around.now hpasses]
    exact h.emitComboRecalls _

/-- A release is consumed when a completed combo holds the key, and no key whose source is up
is touched. -/
theorem processRuntimeComboEvent_release :
    Settles names held s.device
        (processRuntimeComboEvent names s around eventName 0).1.device ∧
      consumed (processRuntimeComboEvent names s around eventName 0).2 =
        comboHolds names s eventName := by
  rcases processRuntimeComboEvent_cases hcoherent hcollected around eventName 0 with
    ⟨heq, hholds⟩ | ⟨e, he, hec, hsame, heq, hconsumed, hholds⟩
  · rw [heq, hholds]
    exact ⟨Settles.refl h, rfl⟩
  · obtain ⟨hdecision, hkinds, hrecalls⟩ :=
      handleEvent_release he hec around.order (names.binding eventName) around.now
    rw [heq, hconsumed, hdecision, hholds, hsame (by decide)]
    refine ⟨?_, rfl⟩
    rw [hsame (by decide)] at hkinds hrecalls
    rw [hrecalls]
    exact performTransitions_release (s := { s with
      engine := (handleEvent s.engine around.order ⟨names.binding eventName, 0⟩
        around.now).engine }) h around.plan hkinds

end Callback

/-! ## Key events -/

structure Inv (names : KeyNames K) (s : Runtime K A) : Prop where
  tracked : Tracked names s.device.heldSourceKeys s.device
  coherent : Coherent s.engine
  collected : AllCollected s.engine

/- The record of a key says what its output is: a recall mark on the name is the
key's own, a key that passes beside a combo is down, and any other key is down
unless a completed combo has withheld it. -/
structure RouteAgrees (names : KeyNames K) (s : Runtime K A) (code : K) : Prop where
  recalled_up : comboBindingRecalled s.device (names.eventName code) = true →
    code ∉ s.device.heldOutputKeys
  passing_down : comboBindingRecalled s.device (names.eventName code) = false →
    names.eventName code ∈ s.device.comboPassthroughHeld → code ∈ s.device.heldOutputKeys
  plain_iff : comboBindingRecalled s.device (names.eventName code) = false →
    names.eventName code ∉ s.device.comboPassthroughHeld →
    (code ∈ s.device.heldOutputKeys ↔ comboHolds names s (names.eventName code) = false)

instance (s : Runtime K A) (code : K) : Decidable (RouteAgrees names s code) :=
  decidable_of_iff
    ((comboBindingRecalled s.device (names.eventName code) = true →
        code ∉ s.device.heldOutputKeys) ∧
      (comboBindingRecalled s.device (names.eventName code) = false →
        names.eventName code ∈ s.device.comboPassthroughHeld → code ∈ s.device.heldOutputKeys) ∧
      (comboBindingRecalled s.device (names.eventName code) = false →
        names.eventName code ∉ s.device.comboPassthroughHeld →
        (code ∈ s.device.heldOutputKeys ↔ comboHolds names s (names.eventName code) = false)))
    ⟨fun h => ⟨h.1, h.2.1, h.2.2⟩, fun h => ⟨h.1, h.2, h.3⟩⟩

omit [PyStr] [DecidableEq K] in
theorem route_stop (d : GrabbedDevice K) (result : Option (ComboDecision A)) (eventName : String)
    (value : ℤ) : (routeComboCallbackResult d result eventName value).stopProcessing = true ↔
      consumed result = true ∧ ¬ (value = 0 ∧ eventName ∈ d.comboPassthroughHeld) := by
  cases result with
  | none => simp [routeComboCallbackResult, consumed]
  | some decision =>
    simp only [routeComboCallbackResult, consumed, Option.any_some]
    cases hconsume : decision.consumeCurrentEvent with
    | false => simp
    | true =>
      simp only [Bool.true_eq_false, if_false, true_and]
      split
      · rename_i hpasses
        simp [hpasses]
      · rename_i hpasses
        simp [hpasses]

section Events

variable {s : Runtime K A} (around : Surroundings A) (code : K)

theorem Tracked.observed_press {held : List String} {d : GrabbedDevice K}
    (h : Tracked names held d) (heq : d.heldSourceKeys = held) :
    Tracked names (held ++ [names.eventName code])
      { d with heldSourceKeys := d.heldSourceKeys ++ [names.eventName code] } := by
  refine ⟨?_, ?_, ?_, ?_, h.written⟩
  · intro eventName hmem
    rcases List.mem_append.mp hmem with hmem | hmem
    · exact h.named eventName hmem
    · exact ⟨code, List.mem_singleton.mp hmem⟩
  · intro eventName hmem
    rwa [heq] at hmem
  · intro other hother
    exact List.mem_append_left _ (h.down_held other hother)
  · intro eventName hmem
    exact List.mem_append_left _ (h.passthrough_held eventName hmem)

/-- Once its output is up and it passes no more, a released key is out of the records. -/
theorem Tracked.released {held : List String} {d : GrabbedDevice K} (h : Tracked names held d)
    (hsource : d.heldSourceKeys = held.filter (· ≠ names.eventName code))
    (hup : code ∉ d.heldOutputKeys) (hpassed : names.eventName code ∉ d.comboPassthroughHeld) :
    Tracked names d.heldSourceKeys d := by
  refine ⟨?_, fun _ hmem => hmem, ?_, ?_, h.written⟩
  · intro eventName hmem
    exact h.named eventName (h.source_held eventName hmem)
  · intro other hother
    rw [hsource, List.mem_filter]
    refine ⟨h.down_held other hother, decide_eq_true ?_⟩
    intro hname
    exact hup (names.eventName_injective hname ▸ hother)
  · intro eventName hmem
    rw [hsource, List.mem_filter]
    refine ⟨h.passthrough_held eventName hmem, decide_eq_true ?_⟩
    rintro rfl
    exact hpassed hmem

theorem Inv.press (h : Inv names s) (hup : names.eventName code ∉ s.device.heldSourceKeys) :
    Inv names (processKeyEvent names s around code 1) := by
  have hout : code ∉ s.device.heldOutputKeys := fun hdown => hup (h.tracked.down_held code hdown)
  have hpassing : names.eventName code ∉ s.device.comboPassthroughHeld := fun hmem =>
    hup (h.tracked.passthrough_held _ hmem)
  have hobserved := h.tracked.observed_press code rfl
  -- the mark of the name is gone, and nothing else was recorded for the key
  obtain ⟨device, hdevice, htracked, hsource, hout', hpassing'⟩ :
      ∃ device : GrabbedDevice K,
        interceptRecalledEvent (observeSourceKeyTransition s.device (names.eventName code) 1)
          (names.eventName code) 1 = (device, { }) ∧
        Tracked names (s.device.heldSourceKeys ++ [names.eventName code]) device ∧
        device.heldSourceKeys = s.device.heldSourceKeys ++ [names.eventName code] ∧
        code ∉ device.heldOutputKeys ∧
        names.eventName code ∉ device.comboPassthroughHeld := by
    simp only [observeSourceKeyTransition, if_true, if_neg hup, interceptRecalledEvent]
    split
    · exact ⟨_, rfl, hobserved, rfl, hout, hpassing⟩
    · refine ⟨_, rfl, ?_, rfl, hout, ?_⟩
      · refine ⟨hobserved.named, hobserved.source_held, hobserved.down_held, ?_,
          hobserved.written⟩
        intro eventName hmem
        exact hobserved.passthrough_held eventName (Finset.mem_of_mem_erase hmem)
      · intro hmem
        exact hpassing (Finset.mem_of_mem_erase hmem)
  let s₁ : Runtime K A := { s with device := device }
  obtain ⟨hcoherent, hcollected, hmoves⟩ := processRuntimeComboEvent_spec (s := s₁) h.coherent
    h.collected htracked around (names.eventName code) 1
  have hpress := processRuntimeComboEvent_press (s := s₁) h.coherent h.collected htracked around
    (names.eventName code)
  have hheld := hmoves.source.trans hsource
  simp only [processKeyEvent, hdevice, Bool.false_eq_true, if_false]
  change Inv names (if _ then (processRuntimeComboEvent names s₁ around _ 1).1 else _)
  split
  · exact ⟨hheld ▸ hmoves.tracked, hcoherent, hcollected⟩
  · rename_i hroute
    rw [route_stop] at hroute
    have hpasses : consumed (processRuntimeComboEvent names s₁ around
        (names.eventName code) 1).2 = false := by
      simpa using hroute
    have hrecalls := hpress hpasses
    have hup' : code ∉ (processRuntimeComboEvent names s₁ around
        (names.eventName code) 1).1.device.heldOutputKeys := fun hdown =>
      hout' (hrecalls.down hdown)
    have hmem : names.eventName code ∈ s.device.heldSourceKeys ++ [names.eventName code] := by
      simp
    refine ⟨?_, hcoherent, hcollected⟩
    simp only [emitKey]
    rw [hrecalls.passthrough, if_neg hpassing']
    simp only [applyFastPassthrough]
    split
    · -- the press passes beside a combo
      have hadded : Tracked names (s.device.heldSourceKeys ++ [names.eventName code])
          { (processRuntimeComboEvent names s₁ around (names.eventName code) 1).1.device with
            comboPassthroughHeld := insert (names.eventName code)
              (processRuntimeComboEvent names s₁ around
                (names.eventName code) 1).1.device.comboPassthroughHeld } := by
        refine ⟨hmoves.tracked.named, hmoves.tracked.source_held, hmoves.tracked.down_held, ?_,
          hmoves.tracked.written⟩
        intro eventName hin
        rcases Finset.mem_insert.mp hin with rfl | hin
        · exact hmem
        · exact hmoves.tracked.passthrough_held eventName hin
      have hpressed := hadded.press hup' hmem
      exact (congrArg (fun held => Tracked names held _) hheld).mpr hpressed
    · have hpressed := hmoves.tracked.press hup' hmem
      exact (congrArg (fun held => Tracked names held _) hheld).mpr hpressed

/-- A repeat writes no edge, wherever it goes. -/
theorem Inv.hold (h : Inv names s) : Inv names (processKeyEvent names s around code 2) := by
  have hobserved : observeSourceKeyTransition s.device (names.eventName code) 2 = s.device := rfl
  simp only [processKeyEvent, hobserved, interceptRecalledEvent]
  by_cases hmark : normalizeComboEvdev (names.eventName code) ∈ s.device.comboRecalledBindings
  · simp only [hmark, not_true, if_false, if_true]
    exact h
  · simp only [hmark, not_false_eq_true, if_true, Bool.false_eq_true, if_false]
    obtain ⟨hcoherent, hcollected, hmoves⟩ := processRuntimeComboEvent_spec (s := s) h.coherent
      h.collected h.tracked around (names.eventName code) 2
    split
    · exact ⟨hmoves.source ▸ hmoves.tracked, hcoherent, hcollected⟩
    · refine ⟨?_, hcoherent, hcollected⟩
      have hheld := hmoves.tracked.hold code
      have hemit : ∀ (d : GrabbedDevice K) (requested : Bool),
          emitKey d code (names.eventName code) 2 requested = writeKey d code 2 := by
        intro d requested
        simp [emitKey, emitHeldPassthrough, applyFastPassthrough]
      rw [hemit]
      exact (congrArg (fun held => Tracked names held _) hmoves.source).mpr hheld

/- The release takes the key out of the records when they agreed: whatever the
callback does, it leaves the released key alone. -/
theorem Inv.release (h : Inv names s) (hroute : RouteAgrees names s code) :
    Inv names (processKeyEvent names s around code 0) := by
  have hobserved : Tracked names s.device.heldSourceKeys
      (observeSourceKeyTransition s.device (names.eventName code) 0) := by
    refine ⟨h.tracked.named, ?_, h.tracked.down_held, h.tracked.passthrough_held,
      h.tracked.written⟩
    intro eventName hmem
    exact List.mem_of_mem_filter hmem
  have hgone : names.eventName code ∉
      (observeSourceKeyTransition s.device (names.eventName code) 0).heldSourceKeys := by
    intro hmem
    simpa using (List.mem_filter.mp hmem).2
  cases hmark : comboBindingRecalled s.device (names.eventName code) with
  | true =>
    have hin : normalizeComboEvdev (names.eventName code) ∈ s.device.comboRecalledBindings :=
      of_decide_eq_true hmark
    let d : GrabbedDevice K :=
      { observeSourceKeyTransition s.device (names.eventName code) 0 with
        comboRecalledBindings :=
          s.device.comboRecalledBindings.erase (normalizeComboEvdev (names.eventName code))
        comboPassthroughHeld := s.device.comboPassthroughHeld.erase (names.eventName code) }
    have hintercept : interceptRecalledEvent
        (observeSourceKeyTransition s.device (names.eventName code) 0) (names.eventName code) 0 =
        (d, { suppressReleaseAfterCallback := true }) := by
      have hin' : normalizeComboEvdev (names.eventName code) ∈
          (observeSourceKeyTransition s.device (names.eventName code) 0).comboRecalledBindings :=
        hin
      simp only [interceptRecalledEvent, not_true, hin', if_false]
      rfl
    have htracked : Tracked names s.device.heldSourceKeys d := by
      refine ⟨hobserved.named, hobserved.source_held, hobserved.down_held, ?_, hobserved.written⟩
      intro eventName hmem
      exact hobserved.passthrough_held eventName (Finset.mem_of_mem_erase hmem)
    obtain ⟨hcoherent, hcollected, -⟩ := processRuntimeComboEvent_spec
      (s := { s with device := d }) h.coherent h.collected htracked around
      (names.eventName code) 0
    obtain ⟨hsettles, -⟩ := processRuntimeComboEvent_release (s := { s with device := d })
      h.coherent h.collected htracked around (names.eventName code)
    have hkept := hsettles.tracked.released code hsettles.source
      (fun hdown => hroute.recalled_up hmark ((hsettles.down code hgone).mp hdown))
      (fun hmem => by simpa [d] using (hsettles.passthrough _ hgone).mp hmem)
    simp only [processKeyEvent, hintercept, Bool.false_eq_true, if_false, if_true, ite_self]
    exact ⟨hkept, hcoherent, hcollected⟩
  | false =>
    have hnone : normalizeComboEvdev (names.eventName code) ∉
        (observeSourceKeyTransition s.device (names.eventName code) 0).comboRecalledBindings :=
      of_decide_eq_false hmark
    obtain ⟨hcoherent, hcollected, -⟩ := processRuntimeComboEvent_spec
      (s := { s with device := observeSourceKeyTransition s.device (names.eventName code) 0 })
      h.coherent h.collected hobserved around (names.eventName code) 0
    obtain ⟨hsettles, hconsumed⟩ := processRuntimeComboEvent_release
      (s := { s with device := observeSourceKeyTransition s.device (names.eventName code) 0 })
      h.coherent h.collected hobserved around (names.eventName code)
    simp only [processKeyEvent, interceptRecalledEvent, if_pos hnone, Bool.false_eq_true,
      if_false]
    generalize processRuntimeComboEvent names
      { s with device := observeSourceKeyTransition s.device (names.eventName code) 0 }
      around (names.eventName code) 0 = callback at hcoherent hcollected hsettles hconsumed ⊢
    obtain ⟨s', result⟩ := callback
    have hdown := hsettles.down code hgone
    have hpassing := hsettles.passthrough (names.eventName code) hgone
    change consumed result = comboHolds names s (names.eventName code) at hconsumed
    simp only
    split
    · -- withheld by a completed combo, and so not down
      rename_i hstop
      obtain ⟨hconsume, hnot⟩ := (route_stop _ _ _ _).mp hstop
      have hplain : names.eventName code ∉ s.device.comboPassthroughHeld := fun hmem =>
        hnot ⟨rfl, hpassing.mpr hmem⟩
      rw [hconsumed] at hconsume
      refine ⟨hsettles.tracked.released code hsettles.source ?_ ?_, hcoherent, hcollected⟩
      · intro hmem
        have hfree := (hroute.plain_iff hmark hplain).mp (hdown.mp hmem)
        rw [hconsume] at hfree
        cases hfree
      · exact fun hmem => hplain (hpassing.mp hmem)
    · rename_i hstop
      rw [route_stop] at hstop
      refine ⟨?_, hcoherent, hcollected⟩
      simp only [emitKey]
      split
      · rename_i hmem
        have hwrite := hsettles.tracked.release
          (hdown.mpr (hroute.passing_down hmark (hpassing.mp hmem)))
        have hended : Tracked names s.device.heldSourceKeys
            { writeKey s'.device code 0 with
              comboPassthroughHeld :=
                s'.device.comboPassthroughHeld.erase (names.eventName code) } := by
          refine ⟨hwrite.named, hwrite.source_held, hwrite.down_held, ?_, hwrite.written⟩
          intro eventName hin
          exact hwrite.passthrough_held eventName (Finset.mem_of_mem_erase hin)
        exact hended.released code hsettles.source (by simp [writeKey]) (by simp)
      · rename_i hmem
        have hfree : comboHolds names s (names.eventName code) = false := by
          rw [← hconsumed, ← Bool.not_eq_true]
          exact fun hconsume => hstop ⟨hconsume, fun hboth => hmem hboth.2⟩
        have hplain : names.eventName code ∉ s.device.comboPassthroughHeld := fun hin =>
          hmem (hpassing.mpr hin)
        have hwrite := hsettles.tracked.release
          (hdown.mpr ((hroute.plain_iff hmark hplain).mpr hfree))
        have hemit : ∀ requested : Bool, applyFastPassthrough s'.device code
            (names.eventName code) 0 requested = writeKey s'.device code 0 := by
          intro requested
          simp [applyFastPassthrough]
        rw [hemit]
        exact hwrite.released code hsettles.source (by simp [writeKey]) hmem

end Events

/-! ## Runs -/

theorem stopComboActions_spec {held : List String} (h : Tracked names held s.device)
    (comboIds : List String) :
    (comboIds.foldl (stopComboAction names) s).engine = s.engine ∧
      Moves names held s.device (comboIds.foldl (stopComboAction names) s).device := by
  refine List.foldlRecOn (motive := fun s' : Runtime K A => s'.engine = s.engine ∧
    Moves names held s.device s'.device) comboIds _ ⟨rfl, Moves.refl h⟩ ?_
  rintro s' ⟨hengine, hmoves⟩ comboId _
  obtain ⟨hengine', hstop⟩ := stopComboAction_spec hmoves.tracked comboId
  exact ⟨hengine'.trans hengine, hmoves.trans hstop.toMoves⟩

/-- Combos may be replaced at any time; what is held stays known to the engine. -/
theorem Inv.replaceCombos (h : Inv names s) (combos : List (RuntimeCombo A))
    (preserveComboIds : Option (Finset String)) :
    Inv names (replaceCombos names s combos preserveComboIds) := by
  have hstop : ∀ (comboIds : List String) (s' : Runtime K A), s'.device = s.device →
      Coherent s'.engine → AllCollected s'.engine →
      Inv names { comboIds.foldl (stopComboAction names) s' with
        engine := primeHeld names
          (setCombos (comboIds.foldl (stopComboAction names) s').engine combos preserveComboIds)
          (comboIds.foldl (stopComboAction names) s').device.heldSourceKeys } := by
    intro comboIds s' hdevice hcoherent hcollected
    have htracked : Tracked names s.device.heldSourceKeys s'.device := hdevice ▸ h.tracked
    obtain ⟨hengine, hmoves⟩ := stopComboActions_spec htracked comboIds
    refine ⟨?_, coherent_primeHeld ?_ _, allCollected_primeHeld ?_ _⟩
    · have hsource := hmoves.source.trans (congrArg GrabbedDevice.heldSourceKeys hdevice)
      exact (congrArg (fun held => Tracked names held _) hsource).mpr hmoves.tracked
    · rw [hengine]
      exact hcoherent.setCombos _ _
    · rw [hengine]
      exact hcollected.setCombos _ _
  cases preserveComboIds with
  | none =>
    exact hstop _ { s with activeCombos := combos, engine := reset s.engine, queued := [] } rfl
      ⟨Combo.HeldIndex.heldIndexed_reset s.engine, h.coherent.combo_id,
        eachCandidate_of_empty rfl⟩ (eachCandidate_of_empty rfl)
  | some ids =>
    exact hstop (s.activeActions.keys.filter fun comboId => rootComboId comboId ∉ ids)
      { s with
        activeCombos := combos
        queued := s.queued.filter fun waiting => rootComboId waiting.comboId ∈ ids }
      rfl h.coherent h.collected

/-- A release finds the records of its key in agreement. -/
def RouteKnown (names : KeyNames K) (s : Runtime K A) : Label K A → Prop
  | .release code _ => RouteAgrees names s code
  | _ => True

instance (s : Runtime K A) (label : Label K A) : Decidable (RouteKnown names s label) := by
  cases label <;> unfold RouteKnown <;> infer_instance

theorem Inv.step {s' : Runtime K A} {label : Label K A} (h : Inv names s)
    (hroute : RouteKnown names s label) (hstep : step names s label = some s') :
    Inv names s' := by
  cases label with
  | press code around =>
    simp only [Passthrough.step] at hstep
    split at hstep
    · cases hstep
    · rename_i hup
      obtain rfl := Option.some.inj hstep
      exact h.press around code hup
  | hold code around =>
    simp only [Passthrough.step] at hstep
    split at hstep
    · obtain rfl := Option.some.inj hstep
      exact h.hold around code
    · cases hstep
  | release code around =>
    simp only [Passthrough.step] at hstep
    split at hstep
    · obtain rfl := Option.some.inj hstep
      exact h.release around code hroute
    · cases hstep
  | expireTimeouts now =>
    obtain rfl := Option.some.inj hstep
    exact ⟨h.tracked, h.coherent.expireTimeouts now, h.collected.expireTimeouts now⟩
  | setCombos combos preserveComboIds =>
    obtain rfl := Option.some.inj hstep
    exact h.replaceCombos combos preserveComboIds
  | runQueued comboId outcome =>
    simp only [Passthrough.step] at hstep
    split at hstep
    · cases hstep
    · rename_i transition _
      obtain rfl := Option.some.inj hstep
      obtain ⟨hengine, hmoves⟩ := applyComboActionTransition_spec (s := { s with
        queued := s.queued.eraseP fun waiting => waiting.comboId = comboId })
        h.tracked transition outcome
      refine ⟨?_, ?_, ?_⟩
      · exact (congrArg (fun held => Tracked names held _) hmoves.source).mpr hmoves.tracked
      · rw [hengine]
        exact h.coherent
      · rw [hengine]
        exact h.collected

theorem inv_init : Inv names ({} : Runtime K A) :=
  ⟨⟨fun _ h => absurd h List.not_mem_nil, fun _ h => absurd h List.not_mem_nil,
      fun _ h => absurd h (Finset.notMem_empty _), fun _ h => absurd h (Finset.notMem_empty _),
      fun _ => rfl⟩,
    coherent_empty, eachCandidate_of_empty rfl⟩

/-- With every source key up and no action active no output is down, and the
presses and releases written for each output alternate. -/
def NothingStuck (s : Runtime K A) : Prop :=
  (s.device.heldSourceKeys = [] → s.activeActions.entries = [] → s.device.heldOutputKeys = ∅) ∧
    ∀ code, downAfter code s.device.written ≠ none

/-- As long as every release finds the records of its key in agreement, no
passthrough key is ever stuck. -/
theorem passthrough_never_stuck (names : KeyNames K) (labels : List (Label K A))
    (s : Runtime K A) (hroute : Guarded (step names) (RouteKnown names) {} labels)
    (hrun : run (step names) {} labels = some s) : NothingStuck s := by
  have hinv := guarded_run_invariant (I := Inv names)
    (fun _ _ _ h hguard hstep => h.step hguard hstep) inv_init hroute hrun
  refine ⟨?_, ?_⟩
  · intro hup _
    rw [Finset.eq_empty_iff_forall_notMem]
    intro code hdown
    have hheld := hinv.tracked.down_held code hdown
    rw [hup] at hheld
    cases hheld
  · intro code
    rw [hinv.tracked.written code]
    exact Option.some_ne_none _

end Device

/-! ## Two control keys and one recall mark -/

attribute [local instance] Combo.Names.asciiStr

inductive DemoKey
  | rightctrl
  | leftctrl
  | x
  | a
  deriving DecidableEq

def demoName : DemoKey → String
  | .rightctrl => "key_rightctrl"
  | .leftctrl => "key_leftctrl"
  | .x => "key_x"
  | .a => "key_a"

def demoCode (evdev : String) : Option DemoKey :=
  [DemoKey.rightctrl, .leftctrl, .x, .a].find? fun code => demoName code = PyStr.lower evdev

theorem demoCode_lower (evdev : String) (code output : DemoKey)
    (hname : PyStr.lower evdev = demoName code) (hcode : demoCode evdev = some output) :
    output = code := by
  have hfound := List.find?_some hcode
  simp only [hname, decide_eq_true_eq] at hfound
  revert hfound
  cases output <;> cases code <;> decide +kernel

def demoNames : KeyNames DemoKey where
  hardwareId := "kbd"
  interfaceId := "if0"
  eventName := demoName
  resolveOutputCode := demoCode
  eventName_injective code code' := by cases code <;> cases code' <;> decide +kernel
  lower_eventName code := by cases code <;> decide +kernel
  resolve_lower := demoCode_lower

/-- First a key alone, then control with another key, which recalls what triggered it. -/
def recallCombo : RuntimeCombo Unit :=
  { id := "c", name := "recall", action := some (), recallTriggerKeys := true
    steps := [{ bindings := [⟨"", "key_x", ""⟩] },
      { bindings := [⟨"", "ctrl", ""⟩, ⟨"", "key_a", ""⟩] }] }

def demoAround : Surroundings Unit := ⟨nameOrder, 0, fun _ => .inline .registered⟩

/-- The combo completes with the left control key. -/
def chordDown : List (Label DemoKey Unit) :=
  [.press .x demoAround, .release .x demoAround, .press .leftctrl demoAround,
    .press .a demoAround]

def chordUp : List (Label DemoKey Unit) :=
  [.release .leftctrl demoAround, .release .a demoAround]

theorem passthrough_never_stuck_chord :
    ∃ s, run (step demoNames) {} (.setCombos [recallCombo] none :: chordDown ++ chordUp) = some s ∧
      NothingStuck s := by
  have hsome : (run (step demoNames) {}
      (.setCombos [recallCombo] none :: chordDown ++ chordUp)).isSome = true := by decide +kernel
  obtain ⟨s, hrun⟩ := Option.isSome_iff_exists.mp hsome
  exact ⟨s, hrun, passthrough_never_stuck demoNames
    (.setCombos [recallCombo] none :: chordDown ++ chordUp) s (by decide +kernel) hrun⟩

/- The right control key is down beside the chord. The mark of the left one
swallows its release, so it stays down with every key up and no action active. -/
theorem right_control_stuck : ¬ ∀ (labels : List (Label DemoKey Unit)) (s : Runtime DemoKey Unit),
    run (step demoNames) {} labels = some s → NothingStuck s := by
  intro hall
  have houtcome : (run (step demoNames) ({} : Runtime DemoKey Unit)
      (.setCombos [recallCombo] none :: .press .rightctrl demoAround :: chordDown ++
        .release .rightctrl demoAround :: chordUp)).map (fun s =>
      (s.device.heldSourceKeys, s.activeActions.entries.map Prod.fst,
        decide (DemoKey.rightctrl ∈ s.device.heldOutputKeys))) = some ([], [], true) := by
    decide +kernel
  obtain ⟨s, hrun, heq⟩ := Option.map_eq_some_iff.mp houtcome
  simp only [Prod.mk.injEq, List.map_eq_nil_iff, decide_eq_true_eq] at heq
  have hempty := (hall _ s hrun).1 heq.1 heq.2.1
  rw [hempty] at heq
  exact absurd heq.2.2 (Finset.notMem_empty _)

end Keymasq.Device.Stuck
