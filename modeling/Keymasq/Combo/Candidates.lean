import Keymasq.Foundation.Transition
import Keymasq.Combo.HeldIndex

/-!
# Candidates

What each call can do to the candidates: a press tracks a key, completes a
step or starts a candidate, everything else only keeps or drops them.
-/

namespace Keymasq.Combo.Candidates
open Foundation Foundation.Sorting Foundation.Transition Names Engine HeldIndex

variable [PyStr] {A : Type*}

/-! ## One candidate -/

section Track
variable {counter : ℕ} {c : ActiveCandidate A} {b : RuntimeComboBinding} {p : Bool}

@[simp] theorem trackPress_combo : (trackPress counter c b p).2.combo = c.combo := by
  unfold trackPress
  split <;> rfl

@[simp] theorem trackPress_stepIndex : (trackPress counter c b p).2.stepIndex = c.stepIndex := by
  unfold trackPress
  split <;> rfl

@[simp] theorem trackPress_releasing : (trackPress counter c b p).2.releasing = c.releasing := by
  unfold trackPress
  split <;> rfl

@[simp] theorem trackPress_actionActive :
    (trackPress counter c b p).2.actionActive = c.actionActive := by
  unfold trackPress
  split <;> rfl

/-- Only a key that stays down joins the pressed keys. -/
theorem mem_pressed_of_trackPress {x : RuntimeComboBinding}
    (hx : x ∈ (trackPress counter c b p).2.pressedBindings) :
    x ∈ c.pressedBindings ∨ (x = b ∧ bindingIsPulse b = false) := by
  unfold trackPress at hx
  split at hx
  · exact Or.inl hx
  · simp only at hx
    split at hx
    · exact Or.inl hx
    · rename_i hpulse
      rcases Finset.mem_insert.mp hx with rfl | hx
      · exact Or.inr ⟨rfl, by simpa using hpulse⟩
      · exact Or.inl hx

end Track

/-- The candidate that a completion stores. -/
def completedCandidate (counter : ℕ) (c : ActiveCandidate A) (b : RuntimeComboBinding)
    (isFinal : Bool) (now : ℤ) : ActiveCandidate A :=
  advancePulseCompletedStep (completeCurrentStep counter c b isFinal false).2 now

/-- A completed candidate waits for releases, or a pulse moved it to its next step. -/
theorem completedCandidate_cases (counter : ℕ) (c : ActiveCandidate A) (b : RuntimeComboBinding)
    (isFinal : Bool) (now : ℤ) :
    let c' := completedCandidate counter c b isFinal now
    c'.combo = c.combo ∧ c'.actionActive = isFinal ∧
      ((c'.releasing = true ∧ c'.nextStepDeadlineMonotonic = none ∧ c'.stepIndex = c.stepIndex) ∨
        (c'.releasing = false ∧ c'.pressedBindings = ∅ ∧ isFinal = false ∧
          c.stepIndex + 1 < c.combo.steps.length ∧ c'.stepIndex = c.stepIndex + 1)) := by
  simp only [completedCandidate, advancePulseCompletedStep]
  split
  · refine ⟨?_, rfl, Or.inl ⟨rfl, rfl, ?_⟩⟩ <;> simp [completeCurrentStep]
  · rename_i hmove
    simp only [not_or, Finset.not_nonempty_iff_eq_empty] at hmove
    split
    · refine ⟨?_, rfl, Or.inl ⟨rfl, rfl, ?_⟩⟩ <;> simp [completeCurrentStep]
    · rename_i hlast
      refine ⟨?_, rfl, Or.inr ⟨rfl, hmove.2.2, ?_, ?_, ?_⟩⟩
      · simp [enterNextStep, completeCurrentStep]
      · simpa [completeCurrentStep] using hmove.1
      · simp only [isLastStep, completeCurrentStep, trackPress_combo, trackPress_stepIndex,
          decide_eq_true_eq, not_le] at hlast
        omega
      · simp [enterNextStep, completeCurrentStep]

/-! ## The press loops -/

/-- Only candidates and the press counter differ. -/
def Frame (e e' : ComboEngine A) : Prop :=
  ∃ candidates counter, e' = { e with candidates := candidates, pressCounter := counter }

omit [PyStr] in
theorem Frame.refl (e : ComboEngine A) : Frame e e := ⟨e.candidates, e.pressCounter, rfl⟩

variable {e : ComboEngine A} {b : RuntimeComboBinding} {loop : PressLoop A}

omit [PyStr] in
theorem Frame.trans {e' e'' : ComboEngine A} (h : Frame e e') (h' : Frame e' e'') :
    Frame e e'' := by
  obtain ⟨cs, n, rfl⟩ := h
  obtain ⟨cs', n', rfl⟩ := h'
  exact ⟨cs', n', rfl⟩

omit [PyStr] in
theorem Frame.sameHeld {e' : ComboEngine A} (h : Frame e e') : SameHeld e e' := by
  obtain ⟨cs, n, rfl⟩ := h
  exact ⟨rfl, rfl, rfl, rfl, rfl⟩

omit [PyStr] in
theorem Frame.comboMap {e' : ComboEngine A} (h : Frame e e') : e'.comboMap = e.comboMap := by
  obtain ⟨cs, n, rfl⟩ := h
  rfl

theorem Frame.candidateFirstStepCombos {e' : ComboEngine A} (h : Frame e e')
    (b : RuntimeComboBinding) :
    candidateFirstStepCombos e' b = candidateFirstStepCombos e b := by
  obtain ⟨cs, n, rfl⟩ := h
  rfl

/-- The transition of a completed last step. -/
def completionTransition (c : ActiveCandidate A) (b : RuntimeComboBinding) :
    ComboActionTransition A :=
  { comboId := c.combo.id
    action := c.combo.action
    kind := transitionKind b
    triggerBinding := b
    triggerBindings := triggerBindings c }

section Complete
variable (loop : PressLoop A) (comboId : String) (counter : ℕ) (c : ActiveCandidate A)
  (b : RuntimeComboBinding) (isFinal : Bool) (now : ℤ)

theorem completeStored_frame :
    Frame loop.engine (completeStored loop comboId counter c b isFinal now).engine := by
  simp only [completeStored, emitCompletion]
  split
  · split
    · exact ⟨_, _, rfl⟩
    · exact ⟨_, _, rfl⟩
  · exact ⟨_, _, rfl⟩

@[simp] theorem completeStored_completed :
    (completeStored loop comboId counter c b isFinal now).completed =
      loop.completed ++ [⟨comboId, c.stepIndex, c.currentStep⟩] := by
  simp only [completeStored, emitCompletion]
  split
  · split <;> rfl
  · rfl

/-- The last step emits its transition, any other none. -/
theorem completeStored_transitions :
    (completeStored loop comboId counter c b isFinal now).transitions =
      loop.transitions ++ if isFinal then
        [completionTransition (completedCandidate counter c b isFinal now) b] else [] := by
  have hactive := (completedCandidate_cases counter c b isFinal now).2.1
  simp only [completeStored, emitCompletion]
  change (if (completedCandidate counter c b isFinal now).actionActive then _ else _ :
    PressLoop A).transitions = _
  rw [hactive]
  cases isFinal with
  | false => simp
  | true =>
    simp only [if_true]
    split <;> rfl

/-- A pulse that completes the last step leaves no candidate, else it is stored. -/
theorem completeStored_get? (comboId' : String) :
    (completeStored loop comboId counter c b isFinal now).engine.candidates.get? comboId' =
      if comboId' = comboId then
        if isFinal && bindingIsPulse b then none
        else some (completedCandidate counter c b isFinal now)
      else loop.engine.candidates.get? comboId' := by
  have hactive := (completedCandidate_cases counter c b isFinal now).2.1
  simp only [completeStored, emitCompletion]
  change (if (completedCandidate counter c b isFinal now).actionActive then _ else _ :
    PressLoop A).engine.candidates.get? comboId' = _
  rw [hactive]
  by_cases hid : comboId' = comboId
  · subst hid
    cases isFinal with
    | false => simp [completedCandidate]
    | true =>
      cases hpulse : bindingIsPulse b with
      | false => simp [completedCandidate]
      | true => simp
  · cases isFinal with
    | false => simp [Dict.get?_insert_of_ne _ _ hid, hid]
    | true =>
      cases hpulse : bindingIsPulse b with
      | false => simp [Dict.get?_insert_of_ne _ _ hid, hid]
      | true => simp [Dict.get?_insert_of_ne _ _ hid, Dict.get?_erase_of_ne _ hid, hid]

end Complete

/-- Another candidate is not touched by a round. -/
theorem waitingRound_get?_of_ne {now : ℤ} {comboId comboId' : String} (h : comboId' ≠ comboId) :
    (waitingRound b now loop comboId).engine.candidates.get? comboId' =
      loop.engine.candidates.get? comboId' := by
  unfold waitingRound
  split
  · rfl
  · split
    · rw [completeStored_get?, if_neg h]
    · split
      · rfl
      · exact Dict.get?_insert_of_ne _ _ h

/-- What a round does to the waiting candidate it is about. -/
theorem waitingRound_cases (b : RuntimeComboBinding) (now : ℤ) {comboId : String}
    {c : ActiveCandidate A} (hc : loop.engine.candidates.get? comboId = some c) :
    (c.pressedBindings.card + 1 = c.currentStep.bindings.length ∧
      waitingRound b now loop comboId =
        completeStored { loop with completedStep := true } comboId loop.engine.pressCounter c b
          (isLastStep c) now) ∨
    (bindingIsPulse b = true ∧
      waitingRound b now loop comboId = { loop with partialMatch := true }) ∨
    (bindingIsPulse b = false ∧
      waitingRound b now loop comboId =
        { loop with
          partialMatch := true
          engine := { loop.engine with
            pressCounter := (trackPress loop.engine.pressCounter c b true).1
            candidates := loop.engine.candidates.insert comboId
              (trackPress loop.engine.pressCounter c b true).2 } }) := by
  unfold waitingRound
  rw [hc]
  simp only
  split
  · exact Or.inl ⟨by assumption, rfl⟩
  · split
    · exact Or.inr (Or.inl ⟨by assumption, rfl⟩)
    · rename_i hpulse
      exact Or.inr (Or.inr ⟨by simpa using hpulse, rfl⟩)

theorem waitingRound_frame (b : RuntimeComboBinding) (now : ℤ) (loop : PressLoop A)
    (comboId : String) : Frame loop.engine (waitingRound b now loop comboId).engine := by
  unfold waitingRound
  split
  · exact Frame.refl _
  · split
    · exact completeStored_frame { loop with completedStep := true } _ _ _ _ _ _
    · split
      · exact Frame.refl _
      · exact ⟨_, _, rfl⟩

/- Rule of the loop over the waiting candidates: when its round comes, a
candidate is still as the loop found it, since every id comes once. -/
theorem waitingLoop_rule {P : PressLoop A → Prop} {now : ℤ} {ids : List String} (hnd : ids.Nodup)
    (hP : P loop)
    (hround : ∀ (loop' : PressLoop A) (comboId : String), comboId ∈ ids → P loop' →
      Frame loop.engine loop'.engine →
      loop'.engine.candidates.get? comboId = loop.engine.candidates.get? comboId →
      P (waitingRound b now loop' comboId)) :
    P (ids.foldl (waitingRound b now) loop) := by
  have hgen : ∀ (rest : List String) (loop' : PressLoop A), rest.Nodup → rest ⊆ ids → P loop' →
      Frame loop.engine loop'.engine →
      (∀ comboId ∈ rest,
        loop'.engine.candidates.get? comboId = loop.engine.candidates.get? comboId) →
      P (rest.foldl (waitingRound b now) loop') := by
    intro rest
    induction rest with
    | nil => exact fun _ _ _ hP' _ _ => hP'
    | cons comboId rest ih =>
      intro loop' hnd' hsub hP' hframe hsame
      rw [List.nodup_cons] at hnd'
      refine ih _ hnd'.2 (fun _ hm => hsub (List.mem_cons_of_mem _ hm))
        (hround loop' comboId (hsub List.mem_cons_self) hP' hframe (hsame _ List.mem_cons_self))
        (hframe.trans (waitingRound_frame _ _ _ _)) ?_
      intro other hother
      have hne : other ≠ comboId := fun heq => hnd'.1 (heq ▸ hother)
      rw [waitingRound_get?_of_ne hne]
      exact hsame other (List.mem_cons_of_mem _ hother)
  exact hgen ids loop hnd (fun _ h => h) hP (Frame.refl _) (fun _ _ => rfl)

omit [PyStr] in
@[simp] theorem transitionsOf_decisionOfTransitions (ts : List (ComboActionTransition A)) :
    ts.head?.toList ++ ts.tail = ts := by
  cases ts <;> rfl

/-- An id of a waiting candidate whose class is one of the given ones. -/
theorem mem_waitingIds {classes : List PressClass} {comboId : String} :
    comboId ∈ waitingIds e b classes ↔
      ∃ c, e.candidates.get? comboId = some c ∧ c.releasing = false ∧ pressClass c b ∈ classes := by
  rw [waitingIds, ← Dict.contains_iff, Dict.contains, Option.isSome_iff_exists]
  simp only [Dict.get?_filter_eq_some, Bool.and_eq_true, Bool.not_eq_true', decide_eq_true_eq]

theorem waitingIds_nodup (e : ComboEngine A) (b : RuntimeComboBinding)
    (classes : List PressClass) : (waitingIds e b classes).Nodup := Dict.nodup _

/-- The waiting part of a press: drop some waiting candidates, then loop over others. -/
theorem handleWaitingCandidatePress_eq (e : ComboEngine A) (b : RuntimeComboBinding) (now : ℤ) :
    ∃ dropped looped : List String,
      (∀ comboId ∈ dropped, ∃ c, e.candidates.get? comboId = some c ∧ c.releasing = false) ∧
      looped.Nodup ∧
      (∀ comboId ∈ looped, comboId ∉ dropped ∧
        ∃ c, e.candidates.get? comboId = some c ∧ c.releasing = false ∧
          pressClass c b = .matching) ∧
      let loop := looped.foldl (waitingRound b now) { engine := dropCandidates e dropped }
      let outcome := handleWaitingCandidatePress e b now
      outcome.engine = loop.engine ∧ transitionsOf outcome.decision = loop.transitions ∧
        outcome.completed = loop.completed := by
  have hwait : ∀ {classes : List PressClass}, ∀ comboId ∈ waitingIds e b classes,
      ∃ c, e.candidates.get? comboId = some c ∧ c.releasing = false := by
    intro classes comboId h
    obtain ⟨c, hc, hrel, -⟩ := mem_waitingIds.mp h
    exact ⟨c, hc, hrel⟩
  simp only [handleWaitingCandidatePress]
  split
  · exact ⟨[], [], by simp, List.nodup_nil, by simp, rfl, rfl, rfl⟩
  · split
    · split
      · exact ⟨[], [], by simp, List.nodup_nil, by simp, rfl, rfl, rfl⟩
      · exact ⟨waitingIds e b [.repeated, .matching, .scopedNonmatching], [], hwait,
          List.nodup_nil, by simp, rfl, rfl, rfl⟩
    · refine ⟨waitingIds e b [.scopedNonmatching],
        sortedBy (fun comboId => e.comboOrder.getD comboId 0) (waitingIds e b [.matching]), hwait,
        sortedBy_nodup (waitingIds_nodup e b _), ?_, ?_⟩
      · intro comboId h
        rw [mem_sortedBy] at h
        obtain ⟨c, hc, hrel, hclass⟩ := mem_waitingIds.mp h
        rw [List.mem_singleton] at hclass
        refine ⟨?_, c, hc, hrel, hclass⟩
        intro hdrop
        obtain ⟨c', hc', -, hclass'⟩ := mem_waitingIds.mp hdrop
        rw [hc] at hc'
        cases hc'
        rw [hclass] at hclass'
        simp at hclass'
      · have horder : (dropCandidates e (waitingIds e b [.scopedNonmatching])).comboOrder =
            e.comboOrder := rfl
        simp only [horder, transitionsOf, decisionOfTransitions,
          transitionsOf_decisionOfTransitions, and_self]

theorem activateSatisfiedFirstSteps_eq (e : ComboEngine A) (order : SetOrder)
    (b : RuntimeComboBinding) (now : ℤ) :
    let loop := (candidateFirstStepCombos e b).foldl (firstStepRound order b now) { engine := e }
    let outcome := activateSatisfiedFirstSteps e order b now
    outcome.engine = loop.engine ∧ transitionsOf outcome.decision = loop.transitions ∧
      outcome.completed = loop.completed := by
  simp only [activateSatisfiedFirstSteps]
  split
  · rename_i h
    exact ⟨rfl, h.1.symm, rfl⟩
  · simp only [transitionsOf, decisionOfTransitions, transitionsOf_decisionOfTransitions, and_self]

omit [PyStr] in
theorem transitionsOf_mergeDecisions (d d' : ComboDecision A) :
    transitionsOf (mergeDecisions d d') = transitionsOf d ++ transitionsOf d' := by
  simp only [mergeDecisions]
  change (decisionOfTransitions _).actionTransition.toList ++ _ = _
  simp only [decisionOfTransitions, transitionsOf_decisionOfTransitions]

theorem transitionsOf_handlePressEvent (e : ComboEngine A) (order : SetOrder)
    (b : RuntimeComboBinding) (now : ℤ) :
    transitionsOf (handlePressEvent e order b now).decision =
      transitionsOf (handleWaitingCandidatePress e b now).decision ++
        transitionsOf (activateSatisfiedFirstSteps
          (handleWaitingCandidatePress e b now).engine order b now).decision := by
  rw [← transitionsOf_mergeDecisions, handlePressEvent]
  simp only
  split <;> rfl

omit [PyStr] in
theorem finishEvent_candidates (expired had : Bool) (outcome : PressOutcome A) :
    (finishEvent expired had outcome).engine.candidates = outcome.engine.candidates ∧
      transitionsOf (finishEvent expired had outcome).decision = transitionsOf outcome.decision := by
  simp only [finishEvent]
  refine ⟨?_, rfl⟩
  split <;> rfl

/-- What a round of the first-step loop does. -/
theorem firstStepRound_cases (order : SetOrder) (b : RuntimeComboBinding) (now : ℤ)
    (loop : PressLoop A) (combo : RuntimeCombo A) :
    (∃ matched, firstStepRound order b now loop combo =
      { loop with matchedExistingOrActivated := matched }) ∨
    ∃ held, loop.engine.candidates.get? combo.id = none ∧
      heldBindingsForStep loop.engine order (combo.steps.getD 0 ⟨[], none⟩) b = some held ∧
      firstStepRound order b now loop combo =
        completeStored { loop with matchedExistingOrActivated := true } combo.id
          (newCandidate loop.engine combo held b).1 (newCandidate loop.engine combo held b).2 b
          (decide (combo.steps.length = 1)) now := by
  simp only [firstStepRound]
  split
  · exact Or.inl ⟨_, rfl⟩
  · rename_i hnone
    split
    · exact Or.inl ⟨loop.matchedExistingOrActivated, rfl⟩
    · rename_i held hheld
      split
      · exact Or.inl ⟨loop.matchedExistingOrActivated, rfl⟩
      · exact Or.inr ⟨held, hnone, hheld, rfl⟩

theorem firstStepRound_frame (order : SetOrder) (b : RuntimeComboBinding) (now : ℤ)
    (loop : PressLoop A) (combo : RuntimeCombo A) :
    Frame loop.engine (firstStepRound order b now loop combo).engine := by
  rcases firstStepRound_cases order b now loop combo with ⟨matched, heq⟩ | ⟨held, -, -, heq⟩
  · rw [heq]
    exact Frame.refl _
  · rw [heq]
    exact completeStored_frame { loop with matchedExistingOrActivated := true } _ _ _ _ _ _

/-- Rule of the first-step loop. -/
theorem firstStepLoop_rule {P : PressLoop A → Prop} {order : SetOrder} {now : ℤ}
    (hstart : loop.engine = e) (hP : P loop)
    (hround : ∀ (loop' : PressLoop A), ∀ combo ∈ candidateFirstStepCombos e b, P loop' →
      Frame e loop'.engine → P (firstStepRound order b now loop' combo)) :
    P ((candidateFirstStepCombos e b).foldl (firstStepRound order b now) loop) := by
  have hboth := List.foldlRecOn (motive := fun loop' => P loop' ∧ Frame e loop'.engine)
    (candidateFirstStepCombos e b) (firstStepRound order b now) (b := loop)
    ⟨hP, hstart ▸ Frame.refl _⟩
    fun loop' h combo hmem => ⟨hround loop' combo hmem h.1 h.2,
      h.2.trans (firstStepRound_frame order b now loop' combo)⟩
  exact hboth.1

end Keymasq.Combo.Candidates
