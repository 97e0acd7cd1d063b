import Keymasq.Combo.Coherence

/-!
# Which releases the engine consumes

A press that completes a combo is consumed. The release of a key is consumed
exactly when a completed step still holds that key: the keys a waiting
candidate has collected were all passed through, and so are their releases.
-/

namespace Keymasq.Combo.Consumption
open Foundation Foundation.Sorting Foundation.Transition Names Engine HeldIndex Candidates Coherence

variable [PyStr] {A : Type*}

/-! ## Presses -/

theorem consume_of_waiting_transition (e : ComboEngine A) (b : RuntimeComboBinding) (now : ℤ)
    (h : transitionsOf (handleWaitingCandidatePress e b now).decision ≠ []) :
    (handleWaitingCandidatePress e b now).decision.consumeCurrentEvent = true := by
  simp only [handleWaitingCandidatePress] at h ⊢
  split at h
  · exact absurd rfl h
  · split at h
    · split at h <;> exact absurd rfl h
    · rename_i hrepeated hmatching
      rw [if_neg hrepeated, if_neg hmatching]
      simp only [transitionsOf, decisionOfTransitions, transitionsOf_decisionOfTransitions] at h
      simp only [h, ne_eq, not_false_eq_true, decide_true, Bool.true_or]

theorem consume_of_firstStep_transition (e : ComboEngine A) (order : SetOrder)
    (b : RuntimeComboBinding) (now : ℤ)
    (h : transitionsOf (activateSatisfiedFirstSteps e order b now).decision ≠ []) :
    (activateSatisfiedFirstSteps e order b now).decision.consumeCurrentEvent = true := by
  simp only [activateSatisfiedFirstSteps] at h ⊢
  split at h
  · exact absurd rfl h
  · rename_i hnone
    rw [if_neg hnone]

theorem consume_of_press_transition (e : ComboEngine A) (order : SetOrder)
    (b : RuntimeComboBinding) (now : ℤ)
    (h : transitionsOf (handlePressEvent e order b now).decision ≠ []) :
    (handlePressEvent e order b now).decision.consumeCurrentEvent = true := by
  rw [transitionsOf_handlePressEvent] at h
  have hconsume : (mergeDecisions (handleWaitingCandidatePress e b now).decision
      (activateSatisfiedFirstSteps (handleWaitingCandidatePress e b now).engine order b
        now).decision).consumeCurrentEvent = true := by
    simp only [mergeDecisions, Bool.or_eq_true]
    by_cases hwaiting : transitionsOf (handleWaitingCandidatePress e b now).decision = []
    · rw [hwaiting, List.nil_append] at h
      exact Or.inr (consume_of_firstStep_transition _ order b now h)
    · exact Or.inl (consume_of_waiting_transition e b now hwaiting)
  simp only [handlePressEvent]
  split <;> exact hconsume

/-! ## Keys that a waiting candidate has collected -/

/-- The candidate passed through every key it has collected. -/
def Collected (c : ActiveCandidate A) : Prop :=
  c.releasing = false → ∀ b ∈ c.pressedBindings, bindingWasPassedThrough c b = true

def AllCollected (e : ComboEngine A) : Prop := EachCandidate (fun _ c => Collected c) e

variable {c : ActiveCandidate A} {e : ComboEngine A}

theorem Collected.trackPress (h : Collected c) (counter : ℕ) (b : RuntimeComboBinding) :
    Collected (trackPress counter c b true).2 := by
  intro hrel x hx
  rw [trackPress_releasing] at hrel
  have hbefore := h hrel
  unfold Engine.trackPress at hx ⊢
  split at hx
  · rename_i htracked
    rw [if_pos htracked]
    exact hbefore x hx
  · rename_i htracked
    rw [if_neg htracked]
    simp only [bindingWasPassedThrough, List.find?_append]
    by_cases hxb : x = b
    · -- not tracked before, so the entry just made is the one that is found
      subst hxb
      have hnone : c.trackedPresses.find? (fun tracked => decide (tracked.binding = x)) = none := by
        rw [List.find?_eq_none]
        intro tracked hmem hfound
        exact htracked (List.any_eq_true.mpr ⟨tracked, hmem, hfound⟩)
      rw [hnone]
      simp
    · have hold : x ∈ c.pressedBindings := by
        simp only at hx
        split at hx
        · exact hx
        · exact (Finset.mem_insert.mp hx).resolve_left hxb
      have hpassed := hbefore x hold
      simp only [bindingWasPassedThrough] at hpassed
      cases hfind : c.trackedPresses.find? (fun tracked => decide (tracked.binding = x)) with
      | none =>
        rw [hfind] at hpassed
        cases hpassed
      | some tracked =>
        rw [hfind] at hpassed
        exact hpassed

/-- A completed candidate is done collecting, or a pulse left it without keys. -/
theorem collected_completed (counter : ℕ) (c : ActiveCandidate A) (b : RuntimeComboBinding)
    (isFinal : Bool) (now : ℤ) : Collected (completedCandidate counter c b isFinal now) := by
  intro hrel x hx
  rcases (completedCandidate_cases counter c b isFinal now).2.2 with ⟨htrue, -⟩ | ⟨-, hempty, -⟩
  · rw [htrue] at hrel
    cases hrel
  · rw [hempty] at hx
    cases hx

omit [PyStr] in
theorem collected_of_empty (h : c.pressedBindings = ∅) : Collected c := by
  intro _ x hx
  rw [h] at hx
  cases hx

theorem AllCollected.handlePressEvent (h : AllCollected e) (order : SetOrder)
    (b : RuntimeComboBinding) (now : ℤ) :
    AllCollected (handlePressEvent e order b now).engine := by
  have hwaiting : AllCollected (handleWaitingCandidatePress e b now).engine := by
    refine waitingPress_rule (R := fun engine _ _ => AllCollected engine) now
      (fun dropped _ => eachCandidate_drop h dropped) ?_
    · intro loop comboId c hloop _ hget _ _
      rcases waitingRound_cases b now hget with ⟨-, heq⟩ | ⟨-, heq⟩ | ⟨-, heq⟩
      · rw [heq]
        exact eachCandidate_completeStored { loop with completedStep := true } hloop
          (collected_completed _ _ _ _ _)
      · rw [heq]
        exact hloop
      · rw [heq]
        intro comboId' c' hc'
        simp only [Dict.get?_insert] at hc'
        split at hc'
        · cases hc'
          exact (hloop comboId c hget).trackPress _ _
        · exact hloop comboId' c' hc'
  rw [Engine.handlePressEvent]
  simp only [(activateSatisfiedFirstSteps_eq _ order b now).1]
  refine firstStepLoop_rule (P := fun loop => AllCollected loop.engine) rfl hwaiting ?_
  intro loop combo _ hloop _
  rcases firstStepRound_cases order b now loop combo with ⟨matched, heq⟩ | ⟨held, -, -, heq⟩
  · rw [heq]
    exact hloop
  · rw [heq]
    exact eachCandidate_completeStored { loop with matchedExistingOrActivated := true } hloop
      (collected_completed _ _ _ _ _)

theorem Collected.released {c' : ActiveCandidate A} (h : Collected c) {event : ComboInputEvent}
    {now : ℤ} (hkept : (releaseRound event now c).kept = some c') : Collected c' := by
  rcases releaseRound_cases event now c with ⟨-, -, hnone, -⟩ | ⟨hsame, -, -⟩ |
      ⟨hrel, -, -, hnone | herase | ⟨hempty, -, hnext⟩⟩
  · rw [hnone] at hkept
    cases hkept
  · rw [hsame] at hkept
    cases hkept
    exact h
  · rw [hnone] at hkept
    cases hkept
  · rw [herase] at hkept
    cases hkept
    intro hfalse
    simp only [hrel] at hfalse
    cases hfalse
  · rw [hnext] at hkept
    cases hkept
    exact collected_of_empty hempty

theorem AllCollected.handleReleaseEvent (h : AllCollected e) (event : ComboInputEvent) (now : ℤ) :
    AllCollected (handleReleaseEvent e event now).1 := by
  intro comboId c' hc'
  rw [handleReleaseEvent_get?, Option.bind_eq_some_iff] at hc'
  obtain ⟨c, hc, hkept⟩ := hc'
  split at hkept
  · exact (h comboId c hc).released hkept
  · split at hkept
    · cases hkept
    · obtain rfl := Option.some.inj hkept
      exact h comboId _ hc

omit [PyStr] in
theorem AllCollected.of_candidates {e' : ComboEngine A} (h : AllCollected e)
    (hsame : e'.candidates = e.candidates) : AllCollected e' := by
  intro comboId c hc
  rw [hsame] at hc
  exact h comboId c hc

omit [PyStr] in
theorem AllCollected.expireTimeouts (h : AllCollected e) (now : ℤ) :
    AllCollected (expireTimeouts e now).1 := eachCandidate_filter h _

theorem AllCollected.setCombos (h : AllCollected e) (combos : List (RuntimeCombo A))
    (ids : Option (Finset String)) :
    AllCollected (setCombos e combos ids) := by
  intro comboId c' hc'
  obtain ⟨_, c, _, -, -, hc, -, rfl⟩ := candidate_of_setCombos hc'
  exact h comboId c hc

theorem AllCollected.handleEvent (h : AllCollected e) (order : SetOrder) (event : ComboInputEvent)
    (now : ℤ) : AllCollected (handleEvent e order event now).engine := by
  simp only [Engine.handleEvent]
  have hexp := h.expireTimeouts now
  split
  · exact hexp
  · split
    · refine AllCollected.of_candidates ?_ (finishEvent_candidates _ _ _).1
      apply AllCollected.handlePressEvent
      split
      · exact hexp
      · exact hexp.of_candidates (recordHeldPress_candidates _ _).1
    · refine AllCollected.of_candidates ?_ (finishEvent_candidates _ _ _).1
      exact (hexp.handleReleaseEvent event now).of_candidates (removeHeldBinding_frame _ _).1

/-! ## Releases -/

/-- A completed step holds the key. -/
def completedHolds (e : ComboEngine A) (b : RuntimeComboBinding) : Bool :=
  e.candidates.values.any fun c =>
    c.releasing && stepMatchesBinding c.currentStep b && decide (b ∈ c.pressedBindings)

theorem completedHolds_eq_true {b : RuntimeComboBinding} :
    completedHolds e b = true ↔ ∃ comboId c, e.candidates.get? comboId = some c ∧
      c.releasing = true ∧ stepMatchesBinding c.currentStep b = true ∧ b ∈ c.pressedBindings := by
  simp only [completedHolds, List.any_eq_true, Dict.mem_values_iff, Bool.and_eq_true,
    decide_eq_true_eq]
  constructor
  · rintro ⟨c, ⟨comboId, hc⟩, ⟨hrel, hmatch⟩, hb⟩
    exact ⟨comboId, c, hc, hrel, hmatch, hb⟩
  · rintro ⟨comboId, c, hc, hrel, hmatch, hb⟩
    exact ⟨c, ⟨comboId, hc⟩, ⟨hrel, hmatch⟩, hb⟩

/-- Candidates that are being released carry no deadline and do not expire. -/
theorem completedHolds_expireTimeouts (h : Coherent e) (now : ℤ) (b : RuntimeComboBinding) :
    completedHolds (expireTimeouts e now).1 b = completedHolds e b := by
  rw [Bool.eq_iff_iff, completedHolds_eq_true, completedHolds_eq_true]
  apply exists_congr
  intro comboId
  apply exists_congr
  intro c
  change (e.candidates.filter _).get? comboId = some c ∧ _ ↔ _
  rw [Dict.get?_filter_eq_some]
  constructor
  · rintro ⟨⟨hc, -⟩, hrest⟩
    exact ⟨hc, hrest⟩
  · rintro ⟨hc, hrel, hrest⟩
    have hdeadline := (h.candidates comboId c hc).no_deadline hrel
    exact ⟨⟨hc, by simp [isExpired, hdeadline]⟩, hrel, hrest⟩

theorem releaseRound_matched {event : ComboInputEvent} (hvalue : event.value = 0) (now : ℤ)
    (c : ActiveCandidate A) : (releaseRound event now c).matchedStepBinding =
      (c.releasing && stepMatchesBinding c.currentStep event.binding &&
        decide (event.binding ∈ c.pressedBindings)) := by
  cases hrel : c.releasing with
  | false => by_cases hb : event.binding ∈ c.pressedBindings <;> simp [releaseRound, hrel, hb]
  | true =>
    cases hmatch : stepMatchesBinding c.currentStep event.binding with
    | false => simp [releaseRound, hrel, hmatch]
    | true =>
      by_cases hb : event.binding ∈ c.pressedBindings <;>
        simp [releaseRound, hrel, hmatch, hvalue, hb]

/-- A candidate that is dropped has passed the released key through. -/
theorem releaseRound_dropped {event : ComboInputEvent} {now : ℤ} (h : Collected c)
    (hdropped : (releaseRound event now c).droppedBeforeCompletion = true) :
    (releaseRound event now c).releasedWasPassthrough = true := by
  simp only [releaseRound] at hdropped ⊢
  split at hdropped
  · rename_i hrel
    split at hdropped
    · rename_i hb
      rw [if_pos hrel, if_pos hb]
      exact h hrel _ hb
    · cases hdropped
  · split at hdropped
    · cases hdropped
    · split at hdropped
      · split at hdropped <;> cases hdropped
      · cases hdropped

theorem consume_releasing_iff (h : AllCollected e) {event : ComboInputEvent}
    (hvalue : event.value = 0) (now : ℤ) :
    (handleReleasingEvent e event now).2.consumeCurrentEvent = completedHolds e event.binding := by
  have hmatched : (e.candidates.values.map (releaseRound event now)).any (·.matchedStepBinding) =
      completedHolds e event.binding := by
    rw [List.any_map, completedHolds]
    congr 1
    funext c
    exact releaseRound_matched hvalue now c
  have hpassed : (e.candidates.values.map (releaseRound event now)).any
        (·.droppedBeforeCompletion) = true →
      (e.candidates.values.map (releaseRound event now)).any (·.releasedWasPassthrough) = true := by
    intro hdropped
    obtain ⟨round, hmem, hround⟩ := List.any_eq_true.mp hdropped
    refine List.any_eq_true.mpr ⟨round, hmem, ?_⟩
    obtain ⟨c, hc, rfl⟩ := List.mem_map.mp hmem
    obtain ⟨comboId, hget⟩ := Dict.mem_values_iff.mp hc
    exact releaseRound_dropped (h comboId c hget) hround
  simp only [handleReleasingEvent, hmatched]
  split
  · cases hdropped : (e.candidates.values.map (releaseRound event now)).any
        (·.droppedBeforeCompletion) with
    | false => simp
    | true => simp [hpassed hdropped]
  · rename_i hnone
    rw [not_or] at hnone
    simpa using hnone.1

/-- The release of a key is consumed exactly when a completed step holds it. -/
theorem consume_release_iff (h : AllCollected e) {event : ComboInputEvent}
    (hvalue : event.value = 0) (now : ℤ) :
    (handleReleaseEvent e event now).2.consumeCurrentEvent = completedHolds e event.binding := by
  simp only [handleReleaseEvent]
  split
  · exact consume_releasing_iff h hvalue now
  · rename_i hwaiting
    have hnot : ∀ c ∈ e.candidates.values, c.releasing = false := by
      intro c hc
      cases hrel : c.releasing with
      | false => rfl
      | true => exact absurd (List.any_eq_true.mpr ⟨c, hc, hrel⟩) hwaiting
    have hfalse : completedHolds e event.binding = false := by
      rw [completedHolds, List.any_eq_false]
      intro c hc
      simp [hnot c hc]
    rw [hfalse]
    simp only [handleReleaseBeforeCompletion]
    split
    · rfl
    · rename_i hdropped
      -- whoever collected the key passed it through
      obtain ⟨⟨comboId, c⟩, hmem⟩ := List.exists_mem_of_ne_nil _ hdropped
      have hget := Dict.get?_eq_some_iff.mpr hmem
      obtain ⟨hc, hb⟩ := Dict.get?_filter_eq_some.mp hget
      rw [if_pos]
      refine List.any_eq_true.mpr ⟨c, Dict.mem_values_iff.mpr ⟨comboId, hget⟩, ?_⟩
      exact h comboId c hc (hnot c (Dict.mem_values_iff.mpr ⟨comboId, hc⟩)) _ (by simpa using hb)

theorem release_kinds (e : ComboEngine A) (event : ComboInputEvent) (now : ℤ) :
    (∀ t ∈ transitionsOf (handleReleaseEvent e event now).2, t.kind = .release) ∧
      (handleReleaseEvent e event now).2.recallEvents = [] := by
  simp only [handleReleaseEvent]
  split
  · simp only [handleReleasingEvent]
    split
    · refine ⟨?_, rfl⟩
      intro t ht
      simp only [transitionsOf, decisionOfTransitions, transitionsOf_decisionOfTransitions,
        List.mem_filterMap, List.mem_map] at ht
      obtain ⟨round, ⟨c, -, rfl⟩, hround⟩ := ht
      rcases releaseRound_cases event now c with ⟨-, -, -, hnone⟩ | ⟨-, hnone, -⟩ |
          ⟨-, -, htransition, -⟩
      · rw [hnone] at hround
        cases hround
      · rw [hnone] at hround
        cases hround
      · rw [htransition] at hround
        split at hround
        · obtain rfl := Option.some.inj hround
          rfl
        · cases hround
    · exact ⟨by simp [transitionsOf], rfl⟩
  · simp only [handleReleaseBeforeCompletion]
    split
    · exact ⟨by simp [transitionsOf], rfl⟩
    · split <;> exact ⟨by simp [transitionsOf], rfl⟩

/-! ## Events -/

omit [PyStr] in
theorem finishEvent_decision (expired had : Bool) (outcome : PressOutcome A) :
    (finishEvent expired had outcome).decision.consumeCurrentEvent =
        outcome.decision.consumeCurrentEvent ∧
      (finishEvent expired had outcome).decision.recallEvents = outcome.decision.recallEvents ∧
      transitionsOf (finishEvent expired had outcome).decision =
        transitionsOf outcome.decision := ⟨rfl, rfl, rfl⟩

theorem handleEvent_press (e : ComboEngine A) (order : SetOrder) (b : RuntimeComboBinding)
    (now : ℤ) (h : (handleEvent e order ⟨b, 1⟩ now).decision.consumeCurrentEvent = false) :
    transitionsOf (handleEvent e order ⟨b, 1⟩ now).decision = [] := by
  have hneg : ¬ ((1 : ℤ) = 2) := by decide
  simp only [Engine.handleEvent, if_neg hneg, if_true] at h ⊢
  by_contra htransitions
  have hconsume := consume_of_press_transition _ order b now htransitions
  rw [(finishEvent_decision _ _ _).1, hconsume] at h
  cases h

theorem handleEvent_release (hcoherent : Coherent e) (h : AllCollected e) (order : SetOrder)
    (b : RuntimeComboBinding) (now : ℤ) :
    let d := (handleEvent e order ⟨b, 0⟩ now).decision
    d.consumeCurrentEvent = completedHolds e b ∧ (∀ t ∈ transitionsOf d, t.kind = .release) ∧
      d.recallEvents = [] := by
  simp only [Engine.handleEvent]
  rw [if_neg (by decide), if_neg (by decide)]
  have hvalue : (⟨b, 0⟩ : ComboInputEvent).value = 0 := rfl
  have hconsume := consume_release_iff (h.expireTimeouts now) hvalue now
  rw [completedHolds_expireTimeouts hcoherent] at hconsume
  obtain ⟨hkinds, hrecalls⟩ := release_kinds (expireTimeouts e now).1 ⟨b, 0⟩ now
  exact ⟨hconsume, hkinds, hrecalls⟩

end Keymasq.Combo.Consumption
