import Keymasq.Combo.Coherence

/-!
# Completing a step

A first step is completed by a search that deals a held key to each binding.
A later step is completed by a count of the pressed keys that match the step,
which is right when those keys do not crowd into fewer bindings than they are.
-/

namespace Keymasq.Combo.Completion
open Foundation Foundation.Assignment Foundation.Transition
open Names Engine HeldIndex Candidates Coherence

section Steps

variable [PyStr] {A : Type*}

/-- Each binding of the step has a held key of its own; a pulse counts as its binding. -/
def StepSatisfied (held : Finset RuntimeComboBinding) (b : RuntimeComboBinding)
    (step : RuntimeComboStep) : Prop :=
  ∃ dealt : List RuntimeComboBinding, dealt.Nodup ∧
    List.Forall₂ (fun expected x => bindingMatches expected x = true) step.bindings dealt ∧
    ∀ x ∈ dealt, x ∈ held ∨ (x = b ∧ bindingIsPulse b = true)

/- The log of completed steps is complete: a transition, a new candidate and a
candidate at another stage than before each have their entry. -/
structure Logged (e : ComboEngine A) (transitions : List (ComboActionTransition A))
    (engine : ComboEngine A) (completed : List CompletedStep) : Prop where
  transition : ∀ t ∈ transitions, ∃ done ∈ completed, done.comboId = t.comboId
  stage : ∀ comboId c', engine.candidates.get? comboId = some c' →
    (∃ c, e.candidates.get? comboId = some c ∧ c'.stepIndex = c.stepIndex ∧
      c'.releasing = c.releasing) ∨ ∃ done ∈ completed, done.comboId = comboId

/-- The steps a call completes are logged, and satisfied by the keys held then. -/
def CompletedHeld (e : ComboEngine A) : EngineOp A → Prop
  | .handleEvent order event now =>
    let outcome := handleEvent e order event now
    (∀ done ∈ outcome.completed,
      StepSatisfied outcome.engine.heldBindings event.binding done.step) ∧
    (event.value = 1 → Logged (expireTimeouts e now).1 (transitionsOf outcome.decision)
      outcome.engine outcome.completed)
  | _ => True

/- At a press that completes a waiting candidate by count, the counted keys do
not crowd into fewer bindings of the step than there are keys. -/
def CountedApart (e : ComboEngine A) : EngineOp A → Prop
  | .handleEvent _ event now =>
    event.value = 1 → ∀ entry ∈ (expireTimeouts e now).1.candidates.entries,
      entry.2.releasing = false → pressClass entry.2 event.binding = .matching →
      entry.2.pressedBindings.card + 1 = entry.2.currentStep.bindings.length →
      ¬ Crowded (fun expected x => bindingMatches expected x = true) entry.2.currentStep.bindings
        (insert event.binding entry.2.pressedBindings)
  | _ => True

instance decidableCountedApart (e : ComboEngine A) : ∀ op, Decidable (CountedApart e op)
  | .handleEvent _ event now => inferInstanceAs (Decidable (event.value = 1 →
      ∀ entry ∈ (expireTimeouts e now).1.candidates.entries,
        entry.2.releasing = false → pressClass entry.2 event.binding = .matching →
        entry.2.pressedBindings.card + 1 = entry.2.currentStep.bindings.length →
        ¬ Crowded (fun expected x => bindingMatches expected x = true)
          entry.2.currentStep.bindings (insert event.binding entry.2.pressedBindings)))
  | .setCombos .. => isTrue trivial
  | .reset => isTrue trivial
  | .primeHeldBindings _ => isTrue trivial
  | .dropCandidatesForBindingScope .. => isTrue trivial
  | .expireTimeouts _ => isTrue trivial

variable {b : RuntimeComboBinding} {e : ComboEngine A}

theorem stepSatisfied_of_assignable {held items : Finset RuntimeComboBinding}
    {step : RuntimeComboStep}
    (h : Assignable (fun expected x => bindingMatches expected x = true) step.bindings items)
    (hitems : ∀ x ∈ items, x ∈ held ∨ x = b) (hb : bindingIsPulse b = false → b ∈ held) :
    StepSatisfied held b step := by
  obtain ⟨dealt, hnd, rfl, hall⟩ := h
  refine ⟨dealt, hnd, hall, fun x hx => ?_⟩
  rcases hitems x (List.mem_toFinset.mpr hx) with hheld | rfl
  · exact Or.inl hheld
  · cases hpulse : bindingIsPulse x with
    | false => exact Or.inl (hb hpulse)
    | true => exact Or.inr ⟨rfl, rfl⟩

/-- A missing key refutes the step, unless the event is a pulse. -/
theorem not_stepSatisfied_of_missing {held : Finset RuntimeComboBinding}
    (expected : RuntimeComboBinding) {step : RuntimeComboStep} (hb : bindingIsPulse b = false)
    (hmem : expected ∈ step.bindings) (hmissing : ∀ x ∈ held, bindingMatches expected x = false) :
    ¬ StepSatisfied held b step := by
  rintro ⟨dealt, -, hall, hheld⟩
  rw [List.forall₂_iff_get] at hall
  obtain ⟨i, rfl⟩ := List.get_of_mem hmem
  have hi := hall.2 i i.2 (hall.1 ▸ i.2)
  rcases hheld _ (List.get_mem dealt ⟨i, hall.1 ▸ i.2⟩) with hx | ⟨-, hpulse⟩
  · rw [hmissing _ hx] at hi
    cases hi
  · rw [hb] at hpulse
    cases hpulse

omit [PyStr] in
theorem Logged.trans {e' e'' : ComboEngine A} {ts ts' : List (ComboActionTransition A)}
    {log log' : List CompletedStep} (h : Logged e ts e' log) (h' : Logged e' ts' e'' log') :
    Logged e (ts ++ ts') e'' (log ++ log') := by
  constructor
  · intro t ht
    rcases List.mem_append.mp ht with ht | ht
    · obtain ⟨done, hdone, hid⟩ := h.transition t ht
      exact ⟨done, List.mem_append_left _ hdone, hid⟩
    · obtain ⟨done, hdone, hid⟩ := h'.transition t ht
      exact ⟨done, List.mem_append_right _ hdone, hid⟩
  · intro comboId c'' hc''
    rcases h'.stage comboId c'' hc'' with ⟨c', hc', hindex', hrel'⟩ | ⟨done, hdone, hid⟩
    · rcases h.stage comboId c' hc' with ⟨c, hc, hindex, hrel⟩ | ⟨done, hdone, hid⟩
      · exact Or.inl ⟨c, hc, hindex'.trans hindex, hrel'.trans hrel⟩
      · exact Or.inr ⟨done, List.mem_append_left _ hdone, hid⟩
    · exact Or.inr ⟨done, List.mem_append_right _ hdone, hid⟩

theorem Logged.completeStored (loop : PressLoop A)
    (h : Logged e loop.transitions loop.engine loop.completed) (c : ActiveCandidate A) (counter : ℕ)
    (b : RuntimeComboBinding) (isFinal : Bool) (now : ℤ) :
    let after := completeStored loop c.combo.id counter c b isFinal now
    Logged e after.transitions after.engine after.completed := by
  have hcombo := (completedCandidate_cases counter c b isFinal now).1
  constructor
  · intro t ht
    rw [completeStored_completed]
    rw [completeStored_transitions] at ht
    rcases List.mem_append.mp ht with ht | ht
    · obtain ⟨done, hdone, hid⟩ := h.transition t ht
      exact ⟨done, List.mem_append_left _ hdone, hid⟩
    · refine ⟨_, List.mem_append_right _ (List.mem_singleton_self _), ?_⟩
      cases isFinal with
      | false => cases ht
      | true =>
        obtain rfl := List.mem_singleton.mp ht
        simp only [completionTransition, hcombo]
  · intro comboId c' hc'
    rw [completeStored_completed]
    rw [completeStored_get?] at hc'
    split at hc'
    · rename_i hid
      exact Or.inr ⟨_, List.mem_append_right _ (List.mem_singleton_self _), hid.symm⟩
    · rcases h.stage comboId c' hc' with hsame | ⟨done, hdone, hid⟩
      · exact Or.inl hsame
      · exact Or.inr ⟨done, List.mem_append_left _ hdone, hid⟩

/-- Every press logs the steps it completes. -/
theorem logged_handlePressEvent (h : Coherent e) (order : SetOrder) (b : RuntimeComboBinding)
    (now : ℤ) :
    Logged e (transitionsOf (handlePressEvent e order b now).decision)
      (handlePressEvent e order b now).engine (handlePressEvent e order b now).completed := by
  have hwaiting : Logged e (transitionsOf (handleWaitingCandidatePress e b now).decision)
      (handleWaitingCandidatePress e b now).engine
      (handleWaitingCandidatePress e b now).completed := by
    refine waitingPress_rule (R := fun engine transitions => Logged e transitions engine) now
      (fun dropped _ => ⟨fun _ ht => (List.not_mem_nil ht).elim,
        eachCandidate_drop (fun comboId c hc => Or.inl ⟨c, hc, rfl, rfl⟩) dropped⟩) ?_
    · intro loop comboId c hloop hc hget _ _
      rcases waitingRound_cases b now hget with ⟨-, heq⟩ | ⟨-, heq⟩ | ⟨-, heq⟩
      · have hid := h.combo_id comboId c.combo (h.candidates comboId c hc).configured
        subst hid
        rw [heq]
        exact Logged.completeStored { loop with completedStep := true } hloop c _ _ _ _
      · rw [heq]
        exact hloop
      · rw [heq]
        refine ⟨hloop.transition, fun other c' hc' => ?_⟩
        simp only [Dict.get?_insert] at hc'
        split at hc'
        · rename_i hother
          subst hother
          cases hc'
          exact Or.inl ⟨c, hc, trackPress_stepIndex, trackPress_releasing⟩
        · exact hloop.stage other c' hc'
  have hfirst : Logged (handleWaitingCandidatePress e b now).engine
      (transitionsOf (activateSatisfiedFirstSteps
        (handleWaitingCandidatePress e b now).engine order b now).decision)
      (activateSatisfiedFirstSteps (handleWaitingCandidatePress e b now).engine order b now).engine
      (activateSatisfiedFirstSteps (handleWaitingCandidatePress e b now).engine order b
        now).completed := by
    obtain ⟨hengine, htrans, hcompleted⟩ := activateSatisfiedFirstSteps_eq
      (handleWaitingCandidatePress e b now).engine order b now
    rw [hengine, htrans, hcompleted]
    refine firstStepLoop_rule (P := fun loop : PressLoop A =>
      Logged (handleWaitingCandidatePress e b now).engine loop.transitions loop.engine
        loop.completed) rfl
      ⟨fun _ ht => (List.not_mem_nil ht).elim, fun _ c hc => Or.inl ⟨c, hc, rfl, rfl⟩⟩ ?_
    intro loop combo _ hloop _
    rcases firstStepRound_cases order b now loop combo with ⟨matched, heq⟩ | ⟨held, -, -, heq⟩
    · rw [heq]
      exact hloop
    · rw [heq]
      have hstored := Logged.completeStored { loop with matchedExistingOrActivated := true }
        hloop (newCandidate loop.engine combo held b).2
        (newCandidate loop.engine combo held b).1 b (decide (combo.steps.length = 1)) now
      rwa [(newCandidate_combo loop.engine combo held b).1] at hstored
  rw [transitionsOf_handlePressEvent]
  exact hwaiting.trans hfirst

/-- The counted keys of a waiting candidate, dealt to its step. -/
theorem stepSatisfied_of_count (h : Coherent e) (hb : bindingIsPulse b = false → b ∈ e.heldBindings)
    {comboId : String} {c : ActiveCandidate A} (hc : e.candidates.get? comboId = some c)
    (hrel : c.releasing = false) (hclass : pressClass c b = .matching)
    (hcount : c.pressedBindings.card + 1 = c.currentStep.bindings.length)
    (hapart : ¬ Crowded (fun expected x => bindingMatches expected x = true)
      c.currentStep.bindings (insert b c.pressedBindings)) :
    StepSatisfied e.heldBindings b c.currentStep := by
  have hnew : b ∉ c.pressedBindings := by
    intro hmem
    simp [pressClass, hmem] at hclass
  have hcard : (insert b c.pressedBindings).card = c.currentStep.bindings.length := by
    rw [Finset.card_insert_of_notMem hnew, hcount]
  refine stepSatisfied_of_assignable ((assignable_iff_not_crowded hcard).mpr hapart) ?_ hb
  intro x hx
  rcases Finset.mem_insert.mp hx with rfl | hx
  · exact Or.inr rfl
  · exact Or.inl ((h.candidates comboId c hc).held_of_waiting hrel hx)

/-- Every step completed by a press is satisfied when the counted keys are apart. -/
theorem completed_handlePressEvent (h : Coherent e) (order : SetOrder) (now : ℤ)
    (hb : bindingIsPulse b = false → b ∈ e.heldBindings)
    (hapart : ∀ comboId c, e.candidates.get? comboId = some c → c.releasing = false →
      pressClass c b = .matching →
      c.pressedBindings.card + 1 = c.currentStep.bindings.length →
      ¬ Crowded (fun expected x => bindingMatches expected x = true) c.currentStep.bindings
        (insert b c.pressedBindings)) :
    ∀ done ∈ (handlePressEvent e order b now).completed,
      StepSatisfied e.heldBindings b done.step := by
  have hwaiting : Frame e (handleWaitingCandidatePress e b now).engine ∧
      ∀ done ∈ (handleWaitingCandidatePress e b now).completed,
        StepSatisfied e.heldBindings b done.step := by
    refine waitingPress_rule (R := fun engine _ completed => Frame e engine ∧
      ∀ done ∈ completed, StepSatisfied e.heldBindings b done.step) now
      (fun dropped _ => ⟨dropCandidates_frame e dropped, fun _ hdone => by cases hdone⟩) ?_
    intro loop comboId c hloop hc hget hrel hclass
    refine ⟨hloop.1.trans (waitingRound_frame _ _ _ _), ?_⟩
    rcases waitingRound_cases b now hget with
      ⟨hcount, heq⟩ | ⟨-, heq⟩ | ⟨-, heq⟩
    · rw [heq, completeStored_completed]
      intro done hdone
      rcases List.mem_append.mp hdone with hdone | hdone
      · exact hloop.2 done hdone
      · rw [List.mem_singleton] at hdone
        subst hdone
        exact stepSatisfied_of_count h hb hc hrel hclass hcount
          (hapart comboId c hc hrel hclass hcount)
    · rw [heq]
      exact hloop.2
    · rw [heq]
      exact hloop.2
  -- The search deals held keys, or the current one, to the first step.
  have hfirst : ∀ done ∈ (activateSatisfiedFirstSteps
      (handleWaitingCandidatePress e b now).engine order b now).completed,
      StepSatisfied e.heldBindings b done.step := by
    rw [(activateSatisfiedFirstSteps_eq _ order b now).2.2]
    refine (firstStepLoop_rule (P := fun loop : PressLoop A => Frame e loop.engine ∧
      ∀ done ∈ loop.completed, StepSatisfied e.heldBindings b done.step) rfl
      ⟨hwaiting.1, fun _ hdone => by cases hdone⟩ ?_).2
    intro loop combo _ hloop _
    refine ⟨hloop.1.trans (firstStepRound_frame _ _ _ _ _), ?_⟩
    rcases firstStepRound_cases order b now loop combo with ⟨matched, heq⟩ | ⟨held, -, hheld, heq⟩
    · rw [heq]
      exact hloop.2
    · rw [heq, completeStored_completed]
      intro done hdone
      rcases List.mem_append.mp hdone with hdone | hdone
      · exact hloop.2 done hdone
      · rw [List.mem_singleton] at hdone
        subst hdone
        obtain ⟨hcombo, hindex, -⟩ := newCandidate_combo loop.engine combo held b
        have hstep : (newCandidate loop.engine combo held b).2.currentStep =
            combo.steps.getD 0 ⟨[], none⟩ := by
          rw [ActiveCandidate.currentStep, hcombo, hindex]
        have hassign := assignable_of_heldBindingsForStep (h.indexed.congr hloop.1.sameHeld) hheld
        rw [hloop.1.sameHeld.held] at hassign
        change StepSatisfied _ _ (newCandidate loop.engine combo held b).2.currentStep
        rw [hstep]
        exact stepSatisfied_of_assignable hassign.1 hassign.2 hb
  intro done hdone
  rcases List.mem_append.mp hdone with hdone | hdone
  · exact hwaiting.2 done hdone
  · exact hfirst done hdone

theorem completedHeld_handleEvent (h : Coherent e) {order : SetOrder} {event : ComboInputEvent}
    {now : ℤ} (hapart : CountedApart e (.handleEvent order event now)) :
    CompletedHeld e (.handleEvent order event now) := by
  have hexp := h.expireTimeouts now
  by_cases hpress : event.value = 1
  · let start := if bindingIsPulse event.binding then (expireTimeouts e now).1
      else recordHeldPress (expireTimeouts e now).1 event.binding
    have hstart : Coherent start ∧ start.candidates = (expireTimeouts e now).1.candidates ∧
        (bindingIsPulse event.binding = false → event.binding ∈ start.heldBindings) := by
      cases hpulse : bindingIsPulse event.binding with
      | true => simpa [start, hpulse] using hexp
      | false =>
        simp only [start, hpulse, Bool.false_eq_true, if_false]
        refine ⟨hexp.recordHeldPress _, (recordHeldPress_candidates _ _).1, fun _ => ?_⟩
        rw [recordHeldPress_held]
        exact Finset.mem_insert_self _ _
    have hevent : handleEvent e order event now = finishEvent (expireTimeouts e now).2
        (decide ((expireTimeouts e now).1.candidates.entries ≠ []))
        (handlePressEvent start order event.binding now) := by
      have hrepeat : event.value ≠ 2 := by omega
      simp only [handleEvent, if_neg hrepeat, if_pos hpress, start]
    obtain ⟨hcand, htrans⟩ := finishEvent_candidates (expireTimeouts e now).2
      (decide ((expireTimeouts e now).1.candidates.entries ≠ []))
      (handlePressEvent start order event.binding now)
    have hheld : (handleEvent e order event now).engine.heldBindings = start.heldBindings := by
      have hframe := (eachCandidate_handlePressEvent (Q := fun _ _ => True) order
        now hstart.1.indexed hstart.2.2 (fun _ _ _ => trivial)
        (fun _ _ _ _ _ _ _ _ => trivial) (fun _ _ _ _ _ => trivial) (fun _ _ => trivial)).2
      rw [hevent, ← hframe.sameHeld.held]
      simp only [finishEvent]
      split <;> rfl
    have hlogged := logged_handlePressEvent hstart.1 order event.binding now
    refine ⟨fun done hdone => ?_, fun _ => ?_⟩
    · rw [hheld]
      rw [hevent] at hdone
      refine completed_handlePressEvent hstart.1 order now hstart.2.2 ?_ done hdone
      intro comboId c hc
      rw [hstart.2.1] at hc
      exact hapart hpress (comboId, c) (Dict.get?_eq_some_iff.mp hc)
    · rw [hevent, htrans]
      refine ⟨hlogged.transition, fun comboId c' hc' => ?_⟩
      rw [hcand] at hc'
      rw [← hstart.2.1]
      exact hlogged.stage comboId c' hc'
  · refine ⟨fun done hdone => ?_, fun hfalse => absurd hfalse hpress⟩
    simp only [handleEvent, if_neg hpress, finishEvent] at hdone
    split at hdone <;> cases hdone

theorem completedHeld_of_countedApart (h : Coherent e) {op : EngineOp A}
    (hapart : CountedApart e op) : CompletedHeld e op := by
  cases op with
  | handleEvent order event now => exact completedHeld_handleEvent h hapart
  | setCombos combos ids => trivial
  | reset => trivial
  | primeHeldBindings held => trivial
  | dropCandidatesForBindingScope hardwareId source => trivial
  | expireTimeouts now => trivial

end Steps

/-! ## Control with another key, and both control keys -/

attribute [local instance] Names.asciiStr

/-- First a key alone, then control with another key. -/
def chordCombo : RuntimeCombo Unit :=
  { id := "c", name := "chord", action := some ()
    steps := [{ bindings := [⟨"", "key_b", ""⟩] },
      { bindings := [⟨"", "ctrl", ""⟩, ⟨"", "key_a", ""⟩] }] }

def keyEvent (evdev : String) (value : ℤ) : ComboInputEvent := ⟨⟨"kbd", evdev, ""⟩, value⟩

/-- The run up to the second step, with one control key down. -/
def controlDown : List (EngineOp Unit) :=
  [.setCombos [chordCombo] none, .handleEvent nameOrder (keyEvent "key_b" 1) 0,
    .handleEvent nameOrder (keyEvent "key_b" 0) 0,
    .handleEvent nameOrder (keyEvent "key_leftctrl" 1) 0]

end Keymasq.Combo.Completion
