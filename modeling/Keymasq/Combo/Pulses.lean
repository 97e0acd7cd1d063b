import Keymasq.Combo.Coherence

/-!
# Wheel pulses

A notch of the wheel is a pulse: it is pressed and never released. The high-resolution event
before it is suppressed when the engine is about to consume the notch, which
`would_consume_pulse` answers without changing the engine.
-/

namespace Keymasq.Combo.Pulses
open Foundation Foundation.Sorting Foundation.Transition Names Engine HeldIndex Candidates Coherence

section Prediction
variable [PyStr] {A : Type*}

/-! ## The prediction -/

/- The pulse is the last binding that the step of a waiting candidate misses. -/
def completesStep (b : RuntimeComboBinding) (c : ActiveCandidate A) : Bool :=
  !c.releasing && stepMatchesBinding c.currentStep b &&
    decide (c.pressedBindings.card + 1 = c.currentStep.bindings.length)

/- With the held keys the pulse makes up the first step of the combo. -/
def completesFirstStep (e : ComboEngine A) (order : SetOrder) (b : RuntimeComboBinding)
    (combo : RuntimeCombo A) : Bool :=
  match heldBindingsForStep e order (combo.steps.getD 0 ⟨[], none⟩) b with
  | none => false
  | some held => pulseCanCompleteFirstStep combo b held

def wouldConsumePulse (e : ComboEngine A) (order : SetOrder) (b : RuntimeComboBinding) : Bool :=
  if !bindingIsPulse b then false
  else e.candidates.values.any (completesStep b) ||
    (candidateFirstStepCombos e b).any fun combo =>
      !e.candidates.contains combo.id && completesFirstStep e order b combo

variable {e e' : ComboEngine A} {b : RuntimeComboBinding} {c : ActiveCandidate A} {now : ℤ}
  {loop : PressLoop A} {comboId : String} {order : SetOrder}

theorem any_completesStep :
    e.candidates.values.any (completesStep b) = true ↔
      ∃ comboId c, e.candidates.get? comboId = some c ∧ completesStep b c = true := by
  rw [List.any_eq_true]
  constructor
  · rintro ⟨c, hmem, hc⟩
    obtain ⟨entry, hentry, rfl⟩ := List.mem_map.mp hmem
    exact ⟨entry.1, entry.2, Dict.get?_eq_some_iff.mpr hentry, hc⟩
  · rintro ⟨comboId, c, hget, hc⟩
    exact ⟨c, List.mem_map.mpr ⟨(comboId, c), Dict.get?_eq_some_iff.mp hget, rfl⟩, hc⟩

/-! ## No pulse stays pressed -/

def NoPulse (c : ActiveCandidate A) : Prop := ∀ b ∈ c.pressedBindings, bindingIsPulse b = false

def NoPulses (e : ComboEngine A) : Prop := EachCandidate (fun _ c => NoPulse c) e

theorem NoPulse.trackPress (h : NoPulse c) (counter : ℕ) (b : RuntimeComboBinding) (p : Bool) :
    NoPulse (trackPress counter c b p).2 := by
  intro x hx
  rcases mem_pressed_of_trackPress hx with hx | ⟨rfl, hpulse⟩
  · exact h x hx
  · exact hpulse

theorem NoPulse.completeCurrentStep (h : NoPulse c) (counter : ℕ) (b : RuntimeComboBinding)
    (isFinal p : Bool) :
    NoPulse (completeCurrentStep counter c b isFinal p).2 := by
  intro x hx
  simp only [Engine.completeCurrentStep] at hx
  split at hx
  · exact h.trackPress counter b p x hx
  · next hpulse =>
    rcases Finset.mem_insert.mp hx with rfl | hx
    · exact Bool.eq_false_of_not_eq_true hpulse
    · exact h.trackPress counter b p x hx

theorem NoPulse.completed (h : NoPulse c) (counter : ℕ) (b : RuntimeComboBinding) (isFinal : Bool)
    (now : ℤ) :
    NoPulse (completedCandidate counter c b isFinal now) := by
  have hdone := h.completeCurrentStep counter b isFinal false
  unfold completedCandidate advancePulseCompletedStep
  split
  · exact hdone
  · split
    · exact hdone
    · exact hdone

theorem noPulse_of_empty (h : c.pressedBindings = ∅) : NoPulse c := by
  intro x hx
  rw [h] at hx
  cases hx

theorem NoPulses.handlePressEvent (h : NoPulses e) (hcoherent : Coherent e) (order : SetOrder)
    (now : ℤ) (hb : bindingIsPulse b = false → b ∈ e.heldBindings) :
    NoPulses (handlePressEvent e order b now).engine :=
  (eachCandidate_handlePressEvent order now hcoherent.indexed hb h
    (fun _ _ _ _ _ _ _ hc => hc.trackPress _ _ _) (fun _ _ _ _ hc => hc.completed _ _ _ _)
    (fun _ _ => noPulse_of_empty rfl)).1

theorem NoPulses.of_candidates (h : NoPulses e) (hcand : e'.candidates = e.candidates) :
    NoPulses e' := by
  intro comboId c hc
  rw [hcand] at hc
  exact h comboId c hc

/-- A release only takes keys away from a candidate. -/
theorem pressed_of_released {event : ComboInputEvent} {c' : ActiveCandidate A}
    (hkept : (releaseRound event now c).kept = some c') :
    c'.pressedBindings ⊆ c.pressedBindings := by
  rcases releaseRound_cases event now c with ⟨-, -, hnone, -⟩ | ⟨hsame, -, -⟩ |
      ⟨-, -, -, hnone | herase | ⟨hempty, -, hnext⟩⟩
  · rw [hnone] at hkept
    cases hkept
  · rw [hsame] at hkept
    obtain rfl := Option.some.inj hkept
    exact Finset.Subset.refl _
  · rw [hnone] at hkept
    cases hkept
  · rw [herase] at hkept
    obtain rfl := Option.some.inj hkept
    exact Finset.erase_subset _ _
  · rw [hnext] at hkept
    obtain rfl := Option.some.inj hkept
    change c.pressedBindings.erase event.binding ⊆ _
    exact Finset.erase_subset _ _

theorem NoPulses.handleReleaseEvent (h : NoPulses e) (event : ComboInputEvent) (now : ℤ) :
    NoPulses (handleReleaseEvent e event now).1 := by
  intro comboId c' hc'
  rw [handleReleaseEvent_get?, Option.bind_eq_some_iff] at hc'
  obtain ⟨c, hc, hkept⟩ := hc'
  split at hkept
  · exact fun x hx => h comboId c hc x (pressed_of_released hkept hx)
  · split at hkept
    · cases hkept
    · obtain rfl := Option.some.inj hkept
      exact h comboId _ hc

theorem NoPulses.setCombos (h : NoPulses e) (combos : List (RuntimeCombo A))
    (ids : Option (Finset String)) : NoPulses (setCombos e combos ids) := by
  intro comboId c' hc'
  obtain ⟨_, c, _, -, -, hc, -, rfl⟩ := candidate_of_setCombos hc'
  exact h comboId c hc

theorem NoPulses.handleEvent (h : NoPulses e) (hcoherent : Coherent e) (order : SetOrder)
    (event : ComboInputEvent) (now : ℤ) :
    NoPulses (handleEvent e order event now).engine := by
  have hexp : NoPulses (expireTimeouts e now).1 := eachCandidate_filter h _
  have hcoherent' := hcoherent.expireTimeouts now
  simp only [Engine.handleEvent]
  split
  · exact hexp
  · split
    · refine NoPulses.of_candidates ?_ (finishEvent_candidates _ _ _).1
      split
      · rename_i hpulse
        exact hexp.handlePressEvent hcoherent' order now fun hfalse => by simp [hpulse] at hfalse
      · refine (hexp.of_candidates (recordHeldPress_candidates _ _).1).handlePressEvent
          (hcoherent'.recordHeldPress event.binding) order now fun _ => ?_
        rw [recordHeldPress_held]
        exact Finset.mem_insert_self _ _
    · refine NoPulses.of_candidates ?_ (finishEvent_candidates _ _ _).1
      exact (hexp.handleReleaseEvent event now).of_candidates (removeHeldBinding_frame _ _).1

theorem NoPulses.step (h : NoPulses e) (hcoherent : Coherent e) {op : EngineOp A}
    (hstep : step e op = some e') : NoPulses e' := by
  cases op with
  | setCombos combos ids =>
    rw [← Option.some.inj hstep]
    exact h.setCombos combos ids
  | reset =>
    rw [← Option.some.inj hstep]
    exact eachCandidate_of_empty rfl
  | primeHeldBindings held =>
    rw [← Option.some.inj hstep]
    exact List.foldlRecOn _ _ h fun e' he' b _ =>
      NoPulses.of_candidates he' (recordHeldPress_candidates e' b).1
  | dropCandidatesForBindingScope hardwareId source =>
    rw [← Option.some.inj hstep]
    by_cases hid : hardwareId = ""
    · simp only [dropCandidatesForBindingScope, if_pos hid]
      exact h
    · intro comboId c hc
      rw [drop_candidates e hardwareId source hid] at hc
      exact h comboId c (Dict.get?_filter_eq_some.mp hc).1
  | expireTimeouts now =>
    rw [← Option.some.inj hstep]
    exact eachCandidate_filter h _
  | handleEvent order event now =>
    rw [← Option.some.inj hstep]
    exact h.handleEvent hcoherent order event now

theorem noPulses_run {ops : List (EngineOp A)} (hrun : run step {} ops = some e) : NoPulses e := by
  have hboth : Coherent e ∧ NoPulses e :=
    run_invariant (I := fun e => Coherent e ∧ NoPulses e)
      (fun _ op _ h hstep => ⟨h.1.step op hstep, h.2.step h.1 hstep⟩)
      ⟨coherent_empty, eachCandidate_of_empty rfl⟩ hrun
  exact hboth.2

/-! ## The waiting candidates -/

/- A waiting candidate is in the scope of the pulse, but its step has another binding. -/
def blocked (b : RuntimeComboBinding) (c : ActiveCandidate A) : Bool :=
  !c.releasing && decide (pressClass c b = .scopedNonmatching)

theorem pressClass_ne_repeated (h : NoPulse c) (hb : bindingIsPulse b = true) :
    b ∉ c.pressedBindings := by
  intro hmem
  rw [h b hmem] at hb
  cases hb

theorem pressClass_eq_matching (h : NoPulse c) (hb : bindingIsPulse b = true) :
    pressClass c b = .matching ↔ stepMatchesBinding c.currentStep b = true := by
  unfold pressClass
  rw [if_neg (pressClass_ne_repeated h hb)]
  split
  · next hmatch => exact ⟨fun _ => hmatch, fun _ => rfl⟩
  · next hmatch =>
    refine ⟨fun hclass => ?_, fun hm => absurd hm hmatch⟩
    split at hclass
    · cases hclass
    · cases hclass

theorem repeatedIds_eq_nil (h : NoPulses e) (hb : bindingIsPulse b = true) :
    waitingIds e b [.repeated] = [] := by
  rw [List.eq_nil_iff_forall_not_mem]
  intro comboId hmem
  obtain ⟨c, hc, -, hclass⟩ := mem_waitingIds.mp hmem
  have hnot := pressClass_ne_repeated (h comboId c hc) hb
  rw [List.mem_singleton] at hclass
  unfold pressClass at hclass
  rw [if_neg hnot] at hclass
  split at hclass
  · cases hclass
  · split at hclass
    · cases hclass
    · cases hclass

theorem completeStored_completedStep (loop : PressLoop A) (comboId : String) (counter : ℕ)
    (c : ActiveCandidate A) (b : RuntimeComboBinding) (isFinal : Bool) (now : ℤ) :
    (completeStored loop comboId counter c b isFinal now).completedStep = loop.completedStep := by
  simp only [completeStored, emitCompletion]
  split
  · split <;> rfl
  · rfl

theorem completeStored_matched (loop : PressLoop A) (comboId : String) (counter : ℕ)
    (c : ActiveCandidate A) (b : RuntimeComboBinding) (isFinal : Bool) (now : ℤ) :
    (completeStored loop comboId counter c b isFinal now).matchedExistingOrActivated =
      loop.matchedExistingOrActivated := by
  simp only [completeStored, emitCompletion]
  split
  · split <;> rfl
  · rfl

theorem waitingRound_completedStep (h : loop.completedStep = true) (comboId : String) :
    (waitingRound b now loop comboId).completedStep = true := by
  unfold waitingRound
  split
  · exact h
  · split
    · exact completeStored_completedStep _ _ _ _ _ _ _
    · split
      · exact h
      · exact h

/-- A completing candidate among the ids sets the flag of the loop. -/
theorem completedStep_of_mem {ids : List String} (hmem : comboId ∈ ids)
    (hget : loop.engine.candidates.get? comboId = some c)
    (hdone : c.pressedBindings.card + 1 = c.currentStep.bindings.length) :
    (ids.foldl (waitingRound b now) loop).completedStep = true := by
  induction ids generalizing loop with
  | nil => cases hmem
  | cons first ids ih =>
    rw [List.foldl_cons]
    by_cases hfirst : comboId = first
    · have hset : (waitingRound b now loop first).completedStep = true := by
        unfold waitingRound
        rw [← hfirst, hget]
        simp only
        rw [if_pos hdone]
        exact completeStored_completedStep _ _ _ _ _ _ _
      exact List.foldlRecOn (motive := fun loop' : PressLoop A => loop'.completedStep = true)
        _ _ hset fun _ h comboId _ => waitingRound_completedStep h comboId
    · refine ih ((List.mem_cons.mp hmem).resolve_left hfirst) ?_
      rw [waitingRound_get?_of_ne hfirst]
      exact hget

/-- Without one, a pulse leaves the loop with what it began with. -/
theorem waitingLoop_idle (hb : bindingIsPulse b = true) (now : ℤ) {ids : List String}
    (hnodup : ids.Nodup)
    (hnone : ∀ comboId c, comboId ∈ ids → e.candidates.get? comboId = some c →
      c.pressedBindings.card + 1 ≠ c.currentStep.bindings.length) :
    let loop := ids.foldl (waitingRound b now) ({ engine := e } : PressLoop A)
    loop.engine = e ∧ loop.transitions = [] ∧ loop.completedStep = false := by
  refine waitingLoop_rule (P := fun loop : PressLoop A =>
    loop.engine = e ∧ loop.transitions = [] ∧ loop.completedStep = false) hnodup
    ⟨rfl, rfl, rfl⟩ ?_
  intro loop comboId hmem hloop _ hsame
  cases hget : e.candidates.get? comboId with
  | none =>
    have hround : waitingRound b now loop comboId = loop := by
      unfold waitingRound
      rw [hsame, hget]
    rw [hround]
    exact hloop
  | some c =>
    rcases waitingRound_cases b now (hsame.trans hget) with ⟨hdone, -⟩ | ⟨-, heq⟩ | ⟨hpulse, -⟩
    · exact absurd hdone (hnone comboId c hmem hget)
    · rw [heq]
      exact hloop
    · rw [hb] at hpulse
      cases hpulse

theorem mem_matchingIds (h : NoPulses e) (hb : bindingIsPulse b = true) :
    comboId ∈ waitingIds e b [.matching] ↔
      ∃ c, e.candidates.get? comboId = some c ∧ c.releasing = false ∧
        stepMatchesBinding c.currentStep b = true := by
  rw [mem_waitingIds]
  constructor
  · rintro ⟨c, hc, hrel, hclass⟩
    rw [List.mem_singleton, pressClass_eq_matching (h comboId c hc) hb] at hclass
    exact ⟨c, hc, hrel, hclass⟩
  · rintro ⟨c, hc, hrel, hmatch⟩
    refine ⟨c, hc, hrel, ?_⟩
    rw [List.mem_singleton, pressClass_eq_matching (h comboId c hc) hb]
    exact hmatch

theorem completesStep_iff :
    completesStep b c = true ↔ c.releasing = false ∧ stepMatchesBinding c.currentStep b = true ∧
      c.pressedBindings.card + 1 = c.currentStep.bindings.length := by
  unfold completesStep
  rw [Bool.and_eq_true, Bool.and_eq_true, Bool.not_eq_true', decide_eq_true_eq, and_assoc]

/-- A pulse that a waiting candidate's step misses last is consumed. -/
theorem waiting_consumes (h : NoPulses e) (hb : bindingIsPulse b = true) (now : ℤ)
    (hc : e.candidates.get? comboId = some c) (hdone : completesStep b c = true) :
    (handleWaitingCandidatePress e b now).decision.consumeCurrentEvent = true := by
  obtain ⟨hrel, hmatch, hcard⟩ := completesStep_iff.mp hdone
  have hmem : comboId ∈ waitingIds e b [.matching] :=
    (mem_matchingIds h hb).mpr ⟨c, hc, hrel, hmatch⟩
  have hkept : (dropCandidates e (waitingIds e b [.scopedNonmatching])).candidates.get? comboId =
      some c := by
    rw [dropCandidates_get?, if_neg, hc]
    intro hdrop
    obtain ⟨c', hc', -, hclass⟩ := mem_waitingIds.mp hdrop
    rw [hc] at hc'
    obtain rfl := Option.some.inj hc'
    rw [(pressClass_eq_matching (h comboId c hc) hb).mpr hmatch, List.mem_singleton] at hclass
    cases hclass
  unfold handleWaitingCandidatePress
  simp only
  rw [if_neg (fun hrepeated => hrepeated.1 (repeatedIds_eq_nil h hb)),
    if_neg (List.ne_nil_of_mem hmem)]
  have hstep : ((sortedBy (fun comboId => (dropCandidates e
      (waitingIds e b [.scopedNonmatching])).comboOrder.getD comboId 0)
      (waitingIds e b [.matching])).foldl (waitingRound b now)
        { engine := dropCandidates e (waitingIds e b [.scopedNonmatching]) }).completedStep =
      true :=
    completedStep_of_mem (mem_sortedBy.mpr hmem) hkept hcard
  simp only [hstep, Bool.or_true, Bool.true_or]

/-- Dropping the waiting candidates of the classes drops the blocked ones. -/
theorem dropped_blocked {classes : List PressClass}
    (hclasses : ∀ comboId c, e.candidates.get? comboId = some c → c.releasing = false →
      (pressClass c b ∈ classes ↔ pressClass c b = .scopedNonmatching)) (comboId : String) :
    (dropCandidates e (waitingIds e b classes)).candidates.get? comboId =
      (e.candidates.get? comboId).filter (!blocked b ·) := by
  rw [dropCandidates_get?]
  split
  · next hmem =>
    obtain ⟨c, hc, hrel, hclass⟩ := mem_waitingIds.mp hmem
    have hblocked : blocked b c = true := by
      unfold blocked
      rw [hrel, decide_eq_true ((hclasses comboId c hc hrel).mp hclass)]
      rfl
    rw [hc, Option.filter_some_eq_none.mpr]
    rw [hblocked]
    exact Bool.false_ne_true
  · next hmem =>
    cases hc : e.candidates.get? comboId with
    | none => rfl
    | some c =>
      have hblocked : blocked b c = false := by
        cases hrel : c.releasing with
        | true =>
          unfold blocked
          rw [hrel]
          rfl
        | false =>
          unfold blocked
          rw [hrel, decide_eq_false]
          · rfl
          · intro hclass
            exact hmem (mem_waitingIds.mpr ⟨c, hc, hrel, (hclasses comboId c hc hrel).mpr hclass⟩)
      rw [Option.filter_some, hblocked]
      rfl

/-- Otherwise the waiting candidates only lose the blocked ones. -/
theorem waiting_passes (h : NoPulses e) (hb : bindingIsPulse b = true) (now : ℤ)
    (hnone : ∀ comboId c, e.candidates.get? comboId = some c → completesStep b c = false) :
    (handleWaitingCandidatePress e b now).decision.consumeCurrentEvent = false ∧
      Frame e (handleWaitingCandidatePress e b now).engine ∧
      ∀ comboId, (handleWaitingCandidatePress e b now).engine.candidates.get? comboId =
        (e.candidates.get? comboId).filter (!blocked b ·) := by
  have hrepeated : ∀ comboId c, e.candidates.get? comboId = some c → c.releasing = false →
      pressClass c b ≠ .repeated := by
    intro comboId c hc hrel hclass
    have hmem : comboId ∈ waitingIds e b [.repeated] :=
      mem_waitingIds.mpr ⟨c, hc, hrel, List.mem_singleton.mpr hclass⟩
    rw [repeatedIds_eq_nil h hb] at hmem
    cases hmem
  unfold handleWaitingCandidatePress
  simp only
  rw [if_neg (fun hrepeat => hrepeat.1 (repeatedIds_eq_nil h hb))]
  by_cases hmatching : waitingIds e b [.matching] = []
  · have hmatch : ∀ comboId c, e.candidates.get? comboId = some c → c.releasing = false →
        pressClass c b ≠ .matching := by
      intro comboId c hc hrel hclass
      have hmem : comboId ∈ waitingIds e b [.matching] :=
        mem_waitingIds.mpr ⟨c, hc, hrel, List.mem_singleton.mpr hclass⟩
      rw [hmatching] at hmem
      cases hmem
    have hdropped : ∀ comboId, (dropCandidates e (waitingIds e b
        [.repeated, .matching, .scopedNonmatching])).candidates.get? comboId =
          (e.candidates.get? comboId).filter (!blocked b ·) := by
      refine dropped_blocked fun comboId c hc hrel => ?_
      have hne := hrepeated comboId c hc hrel
      have hne' := hmatch comboId c hc hrel
      simp only [List.mem_cons, hne, hne', false_or, List.not_mem_nil, or_false]
    rw [if_pos hmatching]
    split
    · next hscoped =>
      rw [hscoped] at hdropped
      exact ⟨rfl, Frame.refl e, hdropped⟩
    · exact ⟨rfl, dropCandidates_frame e _, hdropped⟩
  · rw [if_neg hmatching]
    have hdropped : ∀ comboId, (dropCandidates e (waitingIds e b
        [.scopedNonmatching])).candidates.get? comboId =
          (e.candidates.get? comboId).filter (!blocked b ·) :=
      dropped_blocked fun _ _ _ _ => List.mem_singleton
    have hframe := dropCandidates_frame e (waitingIds e b [.scopedNonmatching])
    generalize dropCandidates e (waitingIds e b [.scopedNonmatching]) = e' at hdropped hframe ⊢
    have hkept (comboId : String) (c : ActiveCandidate A)
        (hmem : comboId ∈ waitingIds e b [.matching])
        (hc : e'.candidates.get? comboId = some c) : c.releasing = false ∧
          c.pressedBindings.card + 1 ≠ c.currentStep.bindings.length := by
      obtain ⟨c', hc', hrel, hmatch⟩ := (mem_matchingIds h hb).mp hmem
      rw [hdropped] at hc
      rw [Option.eq_some_of_filter_eq_some hc] at hc'
      obtain rfl := Option.some.inj hc'
      refine ⟨hrel, fun hdone => ?_⟩
      have hcompletes := hnone comboId c (Option.eq_some_of_filter_eq_some hc)
      rw [completesStep_iff.mpr ⟨hrel, hmatch, hdone⟩] at hcompletes
      cases hcompletes
    have hnodup : (sortedBy (fun comboId => e'.comboOrder.getD comboId 0)
        (waitingIds e b [.matching])).Nodup := sortedBy_nodup (waitingIds_nodup e b _)
    obtain ⟨hengine, htransitions, hstep⟩ := waitingLoop_idle hb now hnodup
      fun comboId c hmem hc => (hkept comboId c (mem_sortedBy.mp hmem) hc).2
    have hreleasing : ((waitingIds e b [.matching]).any fun comboId =>
        (e'.candidates.get? comboId).any (·.releasing)) = false := by
      rw [List.any_eq_false]
      intro comboId hmem
      cases hc : e'.candidates.get? comboId with
      | none => exact Bool.false_ne_true
      | some c =>
        rw [Option.any_some, (hkept comboId c hmem hc).1]
        exact Bool.false_ne_true
    simp only [hengine, htransitions, hstep, hreleasing, ne_eq, not_true_eq_false, decide_false,
      Bool.or_false]
    exact ⟨trivial, hframe, hdropped⟩

/-! ## The first steps -/

theorem heldBindingsLoop_congr (h : SameHeld e e') (order : SetOrder)
    (current : RuntimeComboBinding) (bindings : List RuntimeComboBinding)
    (heldMatched : Finset RuntimeComboBinding) (currentMatched : Bool) :
    heldBindingsLoop e' order current bindings heldMatched currentMatched =
      heldBindingsLoop e order current bindings heldMatched currentMatched := by
  have hcandidates (expected : RuntimeComboBinding) :
      heldCandidatesForBinding e' expected = heldCandidatesForBinding e expected := by
    unfold heldCandidatesForBinding
    rw [h.exact, h.anySource, h.anyHardware, h.name]
  induction bindings generalizing heldMatched currentMatched with
  | nil => rfl
  | cons expected bindings ih =>
    unfold heldBindingsLoop
    simp only [hcandidates, ih]

theorem completesFirstStep_congr (h : Frame e e') (order : SetOrder) (b : RuntimeComboBinding)
    (combo : RuntimeCombo A) :
    completesFirstStep e' order b combo = completesFirstStep e order b combo := by
  unfold completesFirstStep heldBindingsForStep
  rw [heldBindingsLoop_congr h.sameHeld]

/-- What a round of the first-step loop does for a pulse. -/
theorem firstStepRound_pulse (hb : bindingIsPulse b = true) (order : SetOrder) (now : ℤ)
    (loop : PressLoop A) (h : NoPulses loop.engine) (combo : RuntimeCombo A) :
    ((loop.engine.candidates.get? combo.id ≠ none ∨
        completesFirstStep loop.engine order b combo = false) ∧
      firstStepRound order b now loop combo = loop) ∨
    (loop.engine.candidates.get? combo.id = none ∧
      completesFirstStep loop.engine order b combo = true ∧
      (firstStepRound order b now loop combo).matchedExistingOrActivated = true) := by
  unfold firstStepRound completesFirstStep
  cases hc : loop.engine.candidates.get? combo.id with
  | some c =>
    refine .inl ⟨.inl (Option.some_ne_none c), ?_⟩
    simp only
    rw [decide_eq_false (pressClass_ne_repeated (h combo.id c hc) hb), Bool.or_false]
  | none =>
    simp only
    cases heldBindingsForStep loop.engine order (combo.steps.getD 0 ⟨[], none⟩) b with
    | none => exact .inl ⟨.inr rfl, rfl⟩
    | some held =>
      simp only
      cases hpulse : pulseCanCompleteFirstStep combo b held with
      | false =>
        rw [if_pos ⟨hb, Bool.false_ne_true⟩]
        exact .inl ⟨.inr rfl, rfl⟩
      | true =>
        rw [if_neg fun hnot => hnot.2 rfl]
        exact .inr ⟨trivial, rfl, completeStored_matched _ _ _ _ _ _ _⟩

theorem firstStepRound_matched (h : loop.matchedExistingOrActivated = true)
    (combo : RuntimeCombo A) :
    (firstStepRound order b now loop combo).matchedExistingOrActivated = true := by
  unfold firstStepRound
  split
  · simp only [h, Bool.true_or]
  · split
    · exact h
    · split
      · exact h
      · exact completeStored_matched _ _ _ _ _ _ _

/-- The loop matches exactly where a combo without a candidate has its first step made up. -/
theorem firstStepLoop_pulse (hb : bindingIsPulse b = true) (order : SetOrder) (now : ℤ)
    (h : NoPulses e) (combos : List (RuntimeCombo A)) :
    let loop := combos.foldl (firstStepRound order b now) ({ engine := e } : PressLoop A)
    (loop.matchedExistingOrActivated = true ∧ ∃ combo ∈ combos,
      e.candidates.get? combo.id = none ∧ completesFirstStep e order b combo = true) ∨
    (loop = { engine := e } ∧ ∀ combo ∈ combos,
      e.candidates.get? combo.id ≠ none ∨ completesFirstStep e order b combo = false) := by
  induction combos with
  | nil => exact .inr ⟨rfl, fun combo hmem => by cases hmem⟩
  | cons combo combos ih =>
    simp only [List.foldl_cons]
    rcases firstStepRound_pulse hb order now { engine := e } h combo with
      ⟨hidle, heq⟩ | ⟨hfresh, hdone, hmatched⟩
    · rw [heq]
      rcases ih with ⟨hmatched, other, hmem, hother⟩ | ⟨hloop, hall⟩
      · exact .inl ⟨hmatched, other, List.mem_cons_of_mem _ hmem, hother⟩
      · refine .inr ⟨hloop, fun other hmem => ?_⟩
        rcases List.mem_cons.mp hmem with rfl | hmem
        · exact hidle
        · exact hall other hmem
    · refine .inl ⟨?_, combo, List.mem_cons_self, hfresh, hdone⟩
      exact List.foldlRecOn (motive := fun loop : PressLoop A =>
        loop.matchedExistingOrActivated = true) _ _ hmatched
          fun _ hloop combo _ => firstStepRound_matched hloop combo

theorem firstSteps_consume (h : NoPulses e) (hb : bindingIsPulse b = true) (order : SetOrder)
    (now : ℤ) :
    (activateSatisfiedFirstSteps e order b now).decision.consumeCurrentEvent = true ↔
      ∃ combo ∈ candidateFirstStepCombos e b,
        e.candidates.get? combo.id = none ∧ completesFirstStep e order b combo = true := by
  unfold activateSatisfiedFirstSteps
  rcases firstStepLoop_pulse hb order now h (candidateFirstStepCombos e b) with
    ⟨hmatched, hcombo⟩ | ⟨hloop, hall⟩
  · rw [if_neg fun hnone => by rw [hmatched] at hnone; cases hnone.2]
    exact ⟨fun _ => hcombo, fun _ => rfl⟩
  · rw [hloop, if_pos ⟨rfl, rfl⟩]
    refine ⟨fun hfalse => (by cases hfalse), ?_⟩
    rintro ⟨combo, hmem, hfresh, hdone⟩
    rcases hall combo hmem with hne | hfalse
    · exact absurd hfresh hne
    · rw [hdone] at hfalse
      cases hfalse

/-! ## The notch and the event before it -/

def evRel : ℤ := 2
def relHwheel : ℤ := 6
def relWheel : ℤ := 8
def relWheelHiRes : ℤ := 11
def relHwheelHiRes : ℤ := 12

def wheelBindings : List ((String × ℤ) × String) :=
  [(("rel_wheel", 1), "wheel_up"), (("rel_wheel", -1), "wheel_down"),
    (("rel_hwheel", -1), "wheel_left"), (("rel_hwheel", 1), "wheel_right")]

omit [PyStr] in
def normalizeWheelValue (value : ℤ) : Option ℤ :=
  if value = 0 then none else some (if 0 < value then 1 else -1)

def wheelButtonId (evdevName : String) (value : ℤ) : Option String :=
  (normalizeWheelValue value).bind fun value =>
    wheelBindings.lookup (PyStr.lower (PyStr.strip evdevName), value)

def highResWheelLowResCode (code : ℤ) : Option ℤ :=
  if code = relWheelHiRes then some relWheel
  else if code = relHwheelHiRes then some relHwheel
  else none

def lowResWheelEvdevName (code : ℤ) : Option String :=
  if code = relWheel then some "rel_wheel"
  else if code = relHwheel then some "rel_hwheel"
  else none

def comboWheelEvdevForRelEvent (code value : ℤ) : Option String :=
  (lowResWheelEvdevName code).bind fun relEvdev =>
    (normalizeWheelValue value).bind fun value => wheelButtonId relEvdev value

/- The binding of a wheel event in a payload; its value there is 1. -/
def wheelBinding (hardwareId source : String) (code value : ℤ) : Option RuntimeComboBinding :=
  (comboWheelEvdevForRelEvent code value).map fun evdev =>
    { hardwareId := PyStr.lower hardwareId, evdev := evdev, source := PyStr.lower source }

def shouldSuppressHighResComboWheelEvent (e : ComboEngine A) (order : SetOrder)
    (hardwareId source : String) (eventType code value : ℤ) : Bool :=
  if eventType ≠ evRel then false
  else
    match highResWheelLowResCode code with
    | none => false
    | some lowResCode =>
      match wheelBinding hardwareId source lowResCode value with
      | none => false
      | some b => wouldConsumePulse e order b

/-- A high-resolution event asks for the notch of its own direction. -/
theorem shouldSuppress_eq {hardwareId source : String} {code lowResCode value notch : ℤ}
    (hcode : highResWheelLowResCode code = some lowResCode)
    (hsame : normalizeWheelValue value = normalizeWheelValue notch)
    (hnotch : wheelBinding hardwareId source lowResCode notch = some b) :
    shouldSuppressHighResComboWheelEvent e order hardwareId source evRel code value =
      wouldConsumePulse e order b := by
  have hbinding : wheelBinding hardwareId source lowResCode value = some b := by
    rw [← hnotch]
    unfold wheelBinding comboWheelEvdevForRelEvent
    rw [hsame]
  unfold shouldSuppressHighResComboWheelEvent
  rw [if_neg fun hne => hne rfl, hcode]
  simp only
  rw [hbinding]

/-! ## The prediction is right -/

def Nonexpired (e : ComboEngine A) (now : ℤ) : Prop :=
  ∀ comboId c, e.candidates.get? comboId = some c → isExpired now c = false

omit [PyStr] in
theorem nonexpired_of_all (h : (e.candidates.values.all fun c => !isExpired now c) = true) :
    Nonexpired e now := by
  intro comboId c hc
  have hmem : c ∈ e.candidates.values :=
    List.mem_map.mpr ⟨(comboId, c), Dict.get?_eq_some_iff.mp hc, rfl⟩
  have hkept := List.all_eq_true.mp h c hmem
  rwa [Bool.not_eq_true'] at hkept

omit [PyStr] in
theorem expireTimeouts_of_nonexpired (h : Nonexpired e now) : (expireTimeouts e now).1 = e := by
  have hfilter : (e.candidates.filter fun _ c => !isExpired now c) = e.candidates := by
    refine Dict.ext_entries (List.filter_eq_self.mpr fun entry hmem => ?_)
    have hkept := h entry.1 entry.2 (Dict.get?_eq_some_iff.mpr hmem)
    simp only [hkept, Bool.not_false]
  unfold expireTimeouts
  simp only
  rw [hfilter]

theorem consume_handlePressEvent (e : ComboEngine A) (order : SetOrder)
    (b : RuntimeComboBinding) (now : ℤ) :
    (handlePressEvent e order b now).decision.consumeCurrentEvent =
      ((handleWaitingCandidatePress e b now).decision.consumeCurrentEvent ||
        (activateSatisfiedFirstSteps (handleWaitingCandidatePress e b now).engine order b
          now).decision.consumeCurrentEvent) := by
  unfold handlePressEvent
  simp only
  split <;> rfl

theorem consume_pulse (hb : bindingIsPulse b = true) (hnow : Nonexpired e now) (order : SetOrder) :
    (handleEvent e order ⟨b, 1⟩ now).decision.consumeCurrentEvent =
      (handlePressEvent e order b now).decision.consumeCurrentEvent := by
  unfold handleEvent
  simp only
  rw [if_neg (by decide), if_pos trivial, if_pos hb, expireTimeouts_of_nonexpired hnow]
  rfl

/- A step or a first step without a candidate that the pulse makes up. -/
def Completes (e : ComboEngine A) (order : SetOrder) (b : RuntimeComboBinding) : Prop :=
  (∃ comboId c, e.candidates.get? comboId = some c ∧ completesStep b c = true) ∨
    ∃ combo ∈ candidateFirstStepCombos e b,
      e.candidates.get? combo.id = none ∧ completesFirstStep e order b combo = true

/- The pulse makes up the first step of a combo whose own candidate is in its way. -/
def CompletesBlocked (e : ComboEngine A) (order : SetOrder) (b : RuntimeComboBinding) : Prop :=
  ∃ combo ∈ candidateFirstStepCombos e b, (e.candidates.get? combo.id).any (blocked b) = true ∧
    completesFirstStep e order b combo = true

theorem wouldConsumePulse_iff (hb : bindingIsPulse b = true) :
    wouldConsumePulse e order b = true ↔ Completes e order b := by
  unfold wouldConsumePulse
  rw [hb, Bool.not_true, if_neg Bool.false_ne_true, Bool.or_eq_true, any_completesStep,
    List.any_eq_true]
  refine or_congr_right (exists_congr fun combo => and_congr_right fun _ => ?_)
  rw [Bool.and_eq_true, Bool.not_eq_true']
  refine and_congr_left fun _ => ?_
  unfold Dict.contains
  cases e.candidates.get? combo.id with
  | none => exact ⟨fun _ => rfl, fun _ => rfl⟩
  | some c => exact ⟨fun h => (by cases h), fun h => (by cases h)⟩

/-- The notch is consumed where it makes up a step, its own candidate in the way or not. -/
theorem consume_pulse_iff (h : NoPulses e) (hb : bindingIsPulse b = true) (hnow : Nonexpired e now)
    (order : SetOrder) :
    (handleEvent e order ⟨b, 1⟩ now).decision.consumeCurrentEvent = true ↔
      Completes e order b ∨ CompletesBlocked e order b := by
  rw [consume_pulse hb hnow, consume_handlePressEvent, Bool.or_eq_true]
  by_cases hstep : ∃ comboId c, e.candidates.get? comboId = some c ∧ completesStep b c = true
  · obtain ⟨comboId, c, hc, hdone⟩ := hstep
    exact ⟨fun _ => .inl (.inl ⟨comboId, c, hc, hdone⟩),
      fun _ => .inl (waiting_consumes h hb now hc hdone)⟩
  · have hnone : ∀ comboId c, e.candidates.get? comboId = some c → completesStep b c = false :=
      fun comboId c hc => Bool.eq_false_of_not_eq_true fun hdone => hstep ⟨comboId, c, hc, hdone⟩
    obtain ⟨hpasses, hframe, hkept⟩ := waiting_passes h hb now hnone
    have hpulses : NoPulses (handleWaitingCandidatePress e b now).engine := by
      intro comboId c hc
      rw [hkept] at hc
      exact h comboId c (Option.eq_some_of_filter_eq_some hc)
    rw [hpasses, firstSteps_consume hpulses hb order now, hframe.candidateFirstStepCombos]
    simp only [Bool.false_eq_true, false_or, hkept, completesFirstStep_congr hframe]
    constructor
    · rintro ⟨combo, hmem, hfresh, hdone⟩
      cases hc : e.candidates.get? combo.id with
      | none => exact .inl (.inr ⟨combo, hmem, hc, hdone⟩)
      | some c =>
        rw [hc, Option.filter_some_eq_none, Bool.not_eq_true', Bool.not_eq_false] at hfresh
        refine .inr ⟨combo, hmem, ?_, hdone⟩
        rw [hc, Option.any_some, hfresh]
    · rintro ((⟨comboId, c, hc, hdone⟩ | ⟨combo, hmem, hfresh, hdone⟩) |
        ⟨combo, hmem, hblocked, hdone⟩)
      · exact absurd ⟨comboId, c, hc, hdone⟩ hstep
      · exact ⟨combo, hmem, by rw [hfresh]; rfl, hdone⟩
      · obtain ⟨c, hc, hblocked⟩ := (Option.any_eq_true _ _).mp hblocked
        refine ⟨combo, hmem, ?_, hdone⟩
        rw [hc, Option.filter_some_eq_none, hblocked]
        exact Bool.false_ne_true

/-- In every reachable state the prediction is right, for a notch and for the event before it,
exactly where the pulse makes up no first step behind its own candidate alone. -/
theorem prediction_right_iff {ops : List (EngineOp A)} {e : ComboEngine A}
    (hrun : run step {} ops = some e) {now : ℤ} (hnow : Nonexpired e now)
    {b : RuntimeComboBinding} (hb : bindingIsPulse b = true) (order : SetOrder) :
    (wouldConsumePulse e order b =
        (handleEvent e order ⟨b, 1⟩ now).decision.consumeCurrentEvent ↔
      (CompletesBlocked e order b → Completes e order b)) ∧
    ∀ hardwareId source code lowResCode value notch,
      highResWheelLowResCode code = some lowResCode →
      normalizeWheelValue value = normalizeWheelValue notch →
      wheelBinding hardwareId source lowResCode notch = some b →
        (shouldSuppressHighResComboWheelEvent e order hardwareId source evRel code value =
            (handleEvent e order ⟨b, 1⟩ now).decision.consumeCurrentEvent ↔
          (CompletesBlocked e order b → Completes e order b)) := by
  have hiff : wouldConsumePulse e order b =
      (handleEvent e order ⟨b, 1⟩ now).decision.consumeCurrentEvent ↔
        (CompletesBlocked e order b → Completes e order b) := by
    rw [Bool.eq_iff_iff, wouldConsumePulse_iff hb, consume_pulse_iff (noPulses_run hrun) hb hnow]
    constructor
    · intro h hblocked
      exact h.mpr (.inr hblocked)
    · intro h
      exact ⟨.inl, fun hor => hor.elim id h⟩
  refine ⟨hiff, ?_⟩
  intro hardwareId source code lowResCode value notch hcode hsame hnotch
  rw [shouldSuppress_eq hcode hsame hnotch]
  exact hiff

end Prediction

/-! ## A notch behind its own candidate -/

section Runs

attribute [local instance] Names.asciiStr

/-- Control with a notch, then the left button of the mouse. -/
def scrollCombo : RuntimeCombo Unit :=
  { id := "c", name := "scroll", action := some ()
    steps := [{ bindings := [⟨"kbd", "ctrl", ""⟩, ⟨"mouse", "wheel_up", ""⟩] },
      { bindings := [⟨"mouse", "btn_left", ""⟩] }] }

def notchUp : RuntimeComboBinding := ⟨"mouse", "wheel_up", ""⟩

def control : RuntimeComboBinding := ⟨"kbd", "key_leftctrl", ""⟩

def controlKey (value : ℤ) : EngineOp Unit := .handleEvent nameOrder ⟨control, value⟩ 0

def controlDown : List (EngineOp Unit) := [.setCombos [scrollCombo] none, controlKey 1]

/- The first step is done, and control goes up and down again. -/
def controlAgain : List (EngineOp Unit) :=
  controlDown ++ [.handleEvent nameOrder ⟨notchUp, 1⟩ 0, controlKey 0, controlKey 1]

def downEngine : ComboEngine Unit := (run step {} controlDown).getD {}

theorem run_controlDown : run step ({} : ComboEngine Unit) controlDown = some downEngine := by
  have hsome : (run step ({} : ComboEngine Unit) controlDown).isSome = true := by decide
  obtain ⟨e, he⟩ := Option.isSome_iff_exists.mp hsome
  unfold downEngine
  rw [he]
  rfl

/- The candidate that control and the notch start. -/
def scrolled : ActiveCandidate Unit :=
  { combo := scrollCombo
    trackedPresses := [⟨control, 2, true, false⟩, ⟨notchUp, 3, false, true⟩]
    pressedBindings := {control} }

/- The two presses tracked in the order they were held. -/
def trackedPair : Nat × ActiveCandidate Unit :=
  (Sorting.sortedBy (fun h => downEngine.heldPressOrder.getD h (downEngine.pressCounter + 1))
    [control, notchUp]).foldl (fun state h => trackPress state.1 state.2 h (decide (h ≠ notchUp)))
      (downEngine.pressCounter, { combo := scrollCombo })

theorem downEngine_checked :
    (downEngine.candidates.values.all fun c => !isExpired 0 c) = true ∧
      downEngine.candidates.entries = [] ∧
      candidateFirstStepCombos downEngine notchUp = [scrollCombo] ∧
      heldBindingsForStep downEngine nameOrder (scrollCombo.steps.getD 0 ⟨[], none⟩) notchUp =
        some {control, notchUp} ∧
      trackedPair = (3, scrolled) := by
  decide +kernel

theorem prediction_right_iff_controlDown :
    run step ({} : ComboEngine Unit) controlDown = some downEngine ∧ Nonexpired downEngine 0 ∧
      (wouldConsumePulse downEngine nameOrder notchUp =
        (handleEvent downEngine nameOrder ⟨notchUp, 1⟩ 0).decision.consumeCurrentEvent) := by
  obtain ⟨hnow, hempty, -, -⟩ := downEngine_checked
  refine ⟨run_controlDown, nonexpired_of_all hnow, (prediction_right_iff run_controlDown
    (nonexpired_of_all hnow) (by decide) nameOrder).1.mpr fun hblocked => ?_⟩
  obtain ⟨combo, -, hc, -⟩ := hblocked
  obtain ⟨c, hget, -⟩ := (Option.any_eq_true _ _).mp hc
  have hmem := Dict.get?_eq_some_iff.mp hget
  rw [hempty] at hmem
  cases hmem

theorem sortedBindings_pair : sortedBindings {control, notchUp} = [control, notchUp] := by
  unfold sortedBindings
  rw [Finset.sort_insert bindingLe, Finset.sort_singleton]
  · intro b hmem
    rw [Finset.mem_singleton.mp hmem]
    decide
  · decide

theorem newCandidate_down :
    newCandidate downEngine scrollCombo {control, notchUp} notchUp = (3, scrolled) := by
  unfold newCandidate
  rw [sortedBindings_pair]
  exact downEngine_checked.2.2.2.2

/- The engine after the notch. -/
def notchEngine : ComboEngine Unit :=
  (completeStored { engine := downEngine, matchedExistingOrActivated := true } "c" 3 scrolled
    notchUp false 0).engine

theorem firstStep_down : firstStepRound nameOrder notchUp 0 { engine := downEngine } scrollCombo =
    completeStored { engine := downEngine, matchedExistingOrActivated := true } "c" 3 scrolled
      notchUp false 0 := by
  have hnone : downEngine.candidates.get? scrollCombo.id = none := by
    rw [Dict.ext_entries (d := downEngine.candidates) (e := ∅) downEngine_checked.2.1]
    rfl
  unfold firstStepRound
  simp only
  rw [hnone, downEngine_checked.2.2.2.1]
  simp only
  rw [if_neg (by decide), newCandidate_down]
  rfl

theorem notchEngine_checked :
    ¬ (notchEngine.candidates.entries = []) ∧
      ((run step notchEngine [controlKey 0, controlKey 1]).any fun e =>
      (e.candidates.values.all fun c => !isExpired 0 c) ∧
      wouldConsumePulse e nameOrder notchUp = false ∧
      scrollCombo ∈ candidateFirstStepCombos e notchUp ∧
      (e.candidates.get? scrollCombo.id).any (blocked notchUp) = true ∧
      completesFirstStep e nameOrder notchUp scrollCombo = true) = true := by
  decide +kernel

theorem press_down :
    (handlePressEvent downEngine nameOrder notchUp 0).engine = notchEngine := by
  have hwaiting : (handleWaitingCandidatePress downEngine notchUp 0).engine = downEngine := by
    have hnone (classes : List PressClass) : waitingIds downEngine notchUp classes = [] := by
      unfold waitingIds
      rw [Dict.ext_entries (d := downEngine.candidates) (e := ∅) downEngine_checked.2.1]
      rfl
    unfold handleWaitingCandidatePress
    simp only [hnone, ne_eq, not_true_eq_false, false_and, if_false, if_true]
  unfold handlePressEvent
  simp only [hwaiting]
  rw [(activateSatisfiedFirstSteps_eq downEngine nameOrder notchUp 0).1,
    downEngine_checked.2.2.1, List.foldl_cons, List.foldl_nil, firstStep_down]
  rfl

theorem notch_step :
    step downEngine (.handleEvent nameOrder ⟨notchUp, 1⟩ 0) = some notchEngine := by
  have hexpire := expireTimeouts_of_nonexpired (nonexpired_of_all downEngine_checked.1)
  simp only [step, handleEvent]
  rw [if_neg (by decide), if_pos trivial, if_pos (by decide), hexpire]
  simp only [finishEvent, press_down, notchEngine_checked.1, decide_false, Bool.false_eq_true,
    false_and, if_false]

theorem notch_consumed_unpredicted :
    ∃ e, run step ({} : ComboEngine Unit) controlAgain = some e ∧ Nonexpired e 0 ∧
      bindingIsPulse notchUp = true ∧ wouldConsumePulse e nameOrder notchUp = false ∧
        (handleEvent e nameOrder ⟨notchUp, 1⟩ 0).decision.consumeCurrentEvent = true := by
  obtain ⟨e, hafter, he⟩ := (Option.any_eq_true _ _).mp notchEngine_checked.2
  obtain ⟨hnow, hwould, hmem, hblocked, hdone⟩ := of_decide_eq_true he
  have hrun : run step ({} : ComboEngine Unit) controlAgain = some e := by
    unfold controlAgain
    rw [run_append, run_controlDown, Option.bind_some, run_cons, notch_step, Option.bind_some]
    exact hafter
  have hpulse : bindingIsPulse notchUp = true := by decide
  exact ⟨e, hrun, nonexpired_of_all hnow, hpulse, hwould,
    (consume_pulse_iff (noPulses_run hrun) hpulse (nonexpired_of_all hnow) nameOrder).mpr
      (.inr ⟨scrollCombo, hmem, hblocked, hdone⟩)⟩

end Runs

end Keymasq.Combo.Pulses
