import Keymasq.Combo.Coherence

/-!
# Transitions of one combo

An observer of one combo sees its presses, releases and pulses, and the calls
that close an outstanding press without a release: a device-scope drop that
returns the id, a new configuration that does not keep the candidate, a reset.
-/

namespace Keymasq.Combo.Transitions
open Foundation Foundation.Transition Names Engine HeldIndex Candidates Coherence

inductive Seen
  | press
  | release
  | pulse
  | closed
  deriving DecidableEq

/-- Whether a press is outstanding; a sighting out of turn has no successor. -/
def outstandingStep : Bool → Seen → Option Bool
  | false, .press => some true
  | true, .release => some false
  | false, .pulse => some false
  | _, .closed => some false
  | _, _ => none

def seenKind : TransitionKind → Seen
  | .press => .press
  | .release => .release
  | .pulse => .pulse

variable {A : Type*}

/-- The sightings of one combo among emitted transitions. -/
def seen (comboId : String) (ts : List (ComboActionTransition A)) : List Seen :=
  (ts.filter fun t => t.comboId = comboId).map fun t => seenKind t.kind

/-- An action is active: its press was emitted and it is still tracked. -/
def isActive (e : ComboEngine A) (comboId : String) : Bool :=
  (e.candidates.get? comboId).any (·.actionActive)

section Observed
variable [PyStr]

def emitted (e : ComboEngine A) : EngineOp A → List (ComboActionTransition A)
  | .handleEvent order event now => transitionsOf (handleEvent e order event now).decision
  | _ => []

/-- The call hands an outstanding press back to the caller, without a transition. -/
def closes (e : ComboEngine A) (comboId : String) : EngineOp A → Bool
  | .setCombos combos ids => ((setCombos e combos ids).candidates.get? comboId).isNone
  | .reset => true
  | .dropCandidatesForBindingScope hardwareId source =>
    comboId ∈ (dropCandidatesForBindingScope e hardwareId source).2
  | _ => false

def observed (e : ComboEngine A) (comboId : String) (op : EngineOp A) : List Seen :=
  seen comboId (emitted e op) ++ if closes e comboId op then [.closed] else []

/-- What is seen of one combo over a run, closings included. -/
def trace (comboId : String) : ComboEngine A → List (EngineOp A) → List Seen
  | _, [] => []
  | e, op :: ops => observed e comboId op ++
      match step e op with
      | none => []
      | some e' => trace comboId e' ops

/-- The emitted transitions of one combo over a run. -/
def emittedTrace (comboId : String) : ComboEngine A → List (EngineOp A) → List Seen
  | _, [] => []
  | e, op :: ops => seen comboId (emitted e op) ++
      match step e op with
      | none => []
      | some e' => emittedTrace comboId e' ops

end Observed

/-- Presses and releases in turn, press first, pulses only in between. -/
def StrictlyAlternates (sightings : List Seen) : Prop :=
  run outstandingStep false sightings ≠ none

instance (sightings : List Seen) : Decidable (StrictlyAlternates sightings) :=
  inferInstanceAs (Decidable (_ ≠ _))

@[simp] theorem seen_nil (comboId : String) : seen comboId ([] : List (ComboActionTransition A)) = [] :=
  rfl

theorem seen_append (comboId : String) (ts ts' : List (ComboActionTransition A)) :
    seen comboId (ts ++ ts') = seen comboId ts ++ seen comboId ts' := by
  simp only [seen, List.filter_append, List.map_append]

theorem run_append_some {before after : Bool} {xs ys : List Seen} {b : Bool}
    (hx : run outstandingStep b xs = some before) (hy : run outstandingStep before ys = some after) :
    run outstandingStep b (xs ++ ys) = some after := by
  rw [run_append, hx]
  exact hy

/-- An outstanding press ends with a release or a closing. -/
theorem release_or_closed_of_run {xs : List Seen}
    (h : run outstandingStep true xs = some false) : .release ∈ xs ∨ .closed ∈ xs := by
  cases xs with
  | nil => cases h
  | cons x xs =>
    cases x with
    | press => cases h
    | release => exact Or.inl List.mem_cons_self
    | pulse => cases h
    | closed => exact Or.inr List.mem_cons_self

section Calls

variable [PyStr]

variable {e e' : ComboEngine A} {comboId : String} {c : ActiveCandidate A}

omit [PyStr] in
theorem isActive_congr (h : e'.candidates.get? comboId = e.candidates.get? comboId) :
    isActive e' comboId = isActive e comboId := by
  simp only [isActive, h]

omit [PyStr] in
theorem isActive_of_get? (h : e.candidates.get? comboId = some c) :
    isActive e comboId = c.actionActive := by
  simp only [isActive, h, Option.any_some]

omit [PyStr] in
/-- Dropping candidates that are not active changes nothing for the observer. -/
theorem isActive_of_dropped
    (h : e'.candidates.get? comboId = e.candidates.get? comboId ∨
      e'.candidates.get? comboId = none ∧
        ∀ c, e.candidates.get? comboId = some c → c.actionActive = false) :
    isActive e' comboId = isActive e comboId := by
  rcases h with h | ⟨hnone, hinactive⟩
  · exact isActive_congr h
  · cases hc : e.candidates.get? comboId with
    | none => simp only [isActive, hc, hnone]
    | some c => rw [isActive_of_get? hc, hinactive c hc, isActive, hnone, Option.any_none]

omit [PyStr] in
theorem CandidateOk.inactive_of_waiting {comboMap : Dict String (RuntimeCombo A)}
    {held : Finset RuntimeComboBinding} (h : CandidateOk comboMap held comboId c)
    (hrel : c.releasing = false) :
    c.actionActive = false := by
  cases hactive : c.actionActive with
  | false => rfl
  | true =>
    rw [h.releasing_of_active hactive] at hrel
    cases hrel

theorem isActive_expireTimeouts (h : Coherent e) (now : ℤ) (comboId : String) :
    isActive (expireTimeouts e now).1 comboId = isActive e comboId := by
  apply isActive_of_dropped
  change (e.candidates.filter _).get? comboId = _ ∨ (e.candidates.filter _).get? comboId = none ∧ _
  rw [Dict.get?_filter]
  cases hc : e.candidates.get? comboId with
  | none => exact Or.inl rfl
  | some c =>
    cases hexp : isExpired now c with
    | false => exact Or.inl (by simp [hexp])
    | true =>
      refine Or.inr ⟨by simp [hexp], ?_⟩
      rintro _ ⟨⟩
      have hok := h.candidates comboId c hc
      refine CandidateOk.inactive_of_waiting hok ?_
      cases hrel : c.releasing with
      | false => rfl
      | true =>
        simp only [isExpired, hok.no_deadline hrel] at hexp
        cases hexp

/-! ## Presses -/

/-- The transitions so far lead from the start of the event to the present state. -/
def LoopAlternates (e : ComboEngine A) (loop : PressLoop A) : Prop :=
  ∀ comboId, run outstandingStep (isActive e comboId) (seen comboId loop.transitions) =
    some (isActive loop.engine comboId)

theorem LoopAlternates.completeStored (loop : PressLoop A) (h : LoopAlternates e loop)
    (hinactive : isActive loop.engine c.combo.id = false) (counter : ℕ) (b : RuntimeComboBinding)
    (isFinal : Bool) (now : ℤ) :
    LoopAlternates e (completeStored loop c.combo.id counter c b isFinal now) := by
  intro comboId
  have hcases := completedCandidate_cases counter c b isFinal now
  rw [completeStored_transitions, seen_append]
  have hbefore := h comboId
  by_cases hid : comboId = c.combo.id
  · subst hid
    rw [hinactive] at hbefore
    refine run_append_some hbefore ?_
    simp only [isActive, completeStored_get?, if_true]
    cases isFinal with
    | false => simp [hcases.2.1]
    | true =>
      cases hpulse : bindingIsPulse b with
      | false =>
        simp [seen, completionTransition, hcases.1, hcases.2.1, transitionKind, hpulse, seenKind,
          run_cons, outstandingStep]
      | true =>
        simp [seen, completionTransition, hcases.1, transitionKind, hpulse, seenKind, run_cons,
          outstandingStep]
  · have hseen : seen comboId (if isFinal then
        [completionTransition (completedCandidate counter c b isFinal now) b] else []) = [] := by
      have hne : ¬ c.combo.id = comboId := fun heq => hid heq.symm
      cases isFinal <;> simp [seen, completionTransition, hcases.1, hne]
    rw [hseen, List.append_nil, hbefore, isActive_congr]
    rw [completeStored_get?, if_neg hid]

theorem loopAlternates_waiting (h : Coherent e) (b : RuntimeComboBinding) (now : ℤ)
    (comboId : String) :
    run outstandingStep (isActive e comboId)
        (seen comboId (transitionsOf (handleWaitingCandidatePress e b now).decision)) =
      some (isActive (handleWaitingCandidatePress e b now).engine comboId) := by
  refine waitingPress_rule (R := fun engine transitions _ => ∀ comboId,
    run outstandingStep (isActive e comboId) (seen comboId transitions) =
      some (isActive engine comboId)) now (fun dropped hdropped => ?_) ?_ comboId
  · intro comboId
    have hsame : isActive (dropCandidates e dropped) comboId = isActive e comboId := by
      apply isActive_of_dropped
      rw [dropCandidates_get?]
      split
      · rename_i hmem
        refine Or.inr ⟨rfl, fun c hc => ?_⟩
        obtain ⟨c', hc', hrel⟩ := hdropped comboId hmem
        rw [hc] at hc'
        cases hc'
        exact CandidateOk.inactive_of_waiting (h.candidates comboId c hc) hrel
      · exact Or.inl rfl
    simp only [seen_nil, run_nil, hsame]
  · intro loop comboId c hloop hc hget hrel _
    have hok := h.candidates comboId c hc
    have hid : c.combo.id = comboId := h.combo_id comboId c.combo hok.configured
    have hinactive := CandidateOk.inactive_of_waiting hok hrel
    rcases waitingRound_cases b now hget with ⟨-, heq⟩ | ⟨-, heq⟩ | ⟨-, heq⟩
    · subst hid
      rw [heq]
      exact LoopAlternates.completeStored { loop with completedStep := true } hloop
        ((isActive_of_get? hget).trans hinactive) _ _ _ _
    · rw [heq]
      exact hloop
    · rw [heq]
      intro other
      rw [hloop other]
      by_cases hother : other = comboId
      · subst hother
        simp only [isActive, hget, Dict.get?_insert_self, Option.any_some, trackPress_actionActive]
      · exact congrArg some (isActive_congr (Dict.get?_insert_of_ne _ _ hother)).symm

theorem loopAlternates_firstSteps (e : ComboEngine A) (order : SetOrder) (b : RuntimeComboBinding)
    (now : ℤ) (comboId : String) :
    run outstandingStep (isActive e comboId)
        (seen comboId (transitionsOf (activateSatisfiedFirstSteps e order b now).decision)) =
      some (isActive (activateSatisfiedFirstSteps e order b now).engine comboId) := by
  obtain ⟨hengine, htrans, -⟩ := activateSatisfiedFirstSteps_eq e order b now
  rw [hengine, htrans]
  refine firstStepLoop_rule (P := LoopAlternates e) rfl (fun _ => rfl) ?_ comboId
  intro loop combo _ hloop _
  rcases firstStepRound_cases order b now loop combo with ⟨matched, heq⟩ | ⟨held, hnone, -, heq⟩
  · rw [heq]
    exact hloop
  · rw [heq]
    have hcombo := (newCandidate_combo loop.engine combo held b).1
    have hstored := LoopAlternates.completeStored
      { loop with matchedExistingOrActivated := true }
      (c := (newCandidate loop.engine combo held b).2) hloop
      (by rw [hcombo]; simp only [isActive, hnone, Option.any_none])
      (newCandidate loop.engine combo held b).1 b (decide (combo.steps.length = 1)) now
    rwa [hcombo] at hstored

theorem alternates_handlePressEvent (h : Coherent e) (order : SetOrder) (b : RuntimeComboBinding)
    (now : ℤ) (comboId : String) :
    run outstandingStep (isActive e comboId)
        (seen comboId (transitionsOf (handlePressEvent e order b now).decision)) =
      some (isActive (handlePressEvent e order b now).engine comboId) := by
  rw [transitionsOf_handlePressEvent, seen_append]
  exact run_append_some (loopAlternates_waiting h b now comboId)
    (loopAlternates_firstSteps _ order b now comboId)

/-! ## Releases -/

/-- A release round ends an active action and starts none. -/
theorem alternates_releaseRound {comboMap : Dict String (RuntimeCombo A)}
    {held : Finset RuntimeComboBinding} (h : CandidateOk comboMap held comboId c)
    (event : ComboInputEvent) (now : ℤ) :
    run outstandingStep c.actionActive
        (((releaseRound event now c).transition.toList).map fun t => seenKind t.kind) =
      some ((releaseRound event now c).kept.any (·.actionActive)) := by
  rcases releaseRound_cases event now c with ⟨hrel, -, hkept, htrans⟩ | ⟨hkept, htrans, -⟩ |
      ⟨-, -, htrans, hkept⟩
  · rw [hkept, htrans, CandidateOk.inactive_of_waiting h hrel]
    rfl
  · rw [hkept, htrans]
    rfl
  · have hinactive : (releaseRound event now c).kept.any (·.actionActive) = false := by
      rcases hkept with hkept | hkept | ⟨-, -, hkept⟩ <;> rw [hkept] <;> rfl
    rw [hinactive, htrans]
    cases c.actionActive <;> rfl

theorem transitionsOf_handleReleaseEvent (e : ComboEngine A) (event : ComboInputEvent) (now : ℤ) :
    transitionsOf (handleReleaseEvent e event now).2 =
      if e.candidates.values.any (·.releasing) then
        e.candidates.values.filterMap fun c => (releaseRound event now c).transition
      else [] := by
  simp only [handleReleaseEvent]
  split
  · simp only [handleReleasingEvent, List.filterMap_map, Function.comp_def]
    split
    · simp only [transitionsOf, decisionOfTransitions, transitionsOf_decisionOfTransitions]
    · rename_i hno
      simp only [List.any_map, not_or, Bool.not_eq_true, List.any_eq_false] at hno
      refine (List.filterMap_eq_nil_iff.mpr fun c hc => ?_).symm
      have hunmatched := hno.1 c hc
      simp only [Function.comp_apply] at hunmatched
      rcases releaseRound_cases event now c with ⟨-, -, -, htrans⟩ | ⟨-, htrans, -⟩ |
          ⟨-, hmatched, -⟩
      · exact htrans
      · exact htrans
      · rw [hmatched] at hunmatched
        simp at hunmatched
  · simp only [handleReleaseBeforeCompletion]
    split
    · rfl
    · split <;> rfl

theorem alternates_handleReleaseEvent (h : Coherent e) (event : ComboInputEvent) (now : ℤ)
    (comboId : String) :
    run outstandingStep (isActive e comboId)
        (seen comboId (transitionsOf (handleReleaseEvent e event now).2)) =
      some (isActive (handleReleaseEvent e event now).1 comboId) := by
  rw [transitionsOf_handleReleaseEvent]
  simp only [isActive, handleReleaseEvent_get?]
  by_cases hreleasing : e.candidates.values.any (·.releasing) = true
  · simp only [if_pos hreleasing, seen]
    have htag : ∀ k c t, e.candidates.get? k = some c →
        (releaseRound event now c).transition = some t → t.comboId = k := by
      intro k c t hc ht
      have hid := h.combo_id k c.combo (h.candidates k c hc).configured
      rcases releaseRound_cases event now c with ⟨-, -, -, htrans⟩ | ⟨-, htrans, -⟩ |
          ⟨-, -, htrans, -⟩
      · rw [htrans] at ht
        cases ht
      · rw [htrans] at ht
        cases ht
      · rw [htrans] at ht
        split at ht
        · cases ht
          exact hid
        · cases ht
    rw [Dict.filter_filterMap_values (fun c => (releaseRound event now c).transition)
      (fun t => t.comboId) e.candidates htag comboId]
    cases hc : e.candidates.get? comboId with
    | none => rfl
    | some c => exact alternates_releaseRound (h.candidates comboId c hc) event now
  · simp only [if_neg hreleasing, seen_nil, run_nil, Option.some.injEq]
    cases hc : e.candidates.get? comboId with
    | none => rfl
    | some c =>
      have hrel : c.releasing = false := by
        simp only [List.any_eq_true, not_exists, not_and, Bool.not_eq_true] at hreleasing
        refine hreleasing c ?_
        exact List.mem_map.mpr ⟨(comboId, c), Dict.get?_eq_some_iff.mp hc, rfl⟩
      have hinactive := CandidateOk.inactive_of_waiting (h.candidates comboId c hc) hrel
      simp only [Option.any_some, Option.bind_some, hinactive]
      split
      · rfl
      · simp [hinactive]

/-! ## Calls and runs -/

theorem alternates_handleEvent (h : Coherent e) (order : SetOrder) (event : ComboInputEvent)
    (now : ℤ) (comboId : String) :
    run outstandingStep (isActive e comboId)
        (seen comboId (transitionsOf (handleEvent e order event now).decision)) =
      some (isActive (handleEvent e order event now).engine comboId) := by
  have hexp := h.expireTimeouts now
  rw [← isActive_expireTimeouts h now comboId]
  simp only [handleEvent]
  split
  · rfl
  · split
    · obtain ⟨hcand, htrans⟩ := finishEvent_candidates (expireTimeouts e now).2
        (decide ((expireTimeouts e now).1.candidates.entries ≠ []))
        (handlePressEvent (if bindingIsPulse event.binding then (expireTimeouts e now).1 else
          recordHeldPress (expireTimeouts e now).1 event.binding) order event.binding now)
      rw [htrans, isActive_congr (congrArg (Dict.get? · comboId) hcand)]
      split
      · exact alternates_handlePressEvent hexp order event.binding now comboId
      · have hrecorded := recordHeldPress_candidates (expireTimeouts e now).1 event.binding
        rw [← isActive_congr (congrArg (Dict.get? · comboId) hrecorded.1)]
        exact alternates_handlePressEvent (hexp.recordHeldPress event.binding) order event.binding
          now comboId
    · obtain ⟨hcand, htrans⟩ := finishEvent_candidates (expireTimeouts e now).2
        (decide ((expireTimeouts e now).1.candidates.entries ≠ []))
        { engine := removeHeldBinding (handleReleaseEvent (expireTimeouts e now).1 event now).1
            event.binding,
          decision := (handleReleaseEvent (expireTimeouts e now).1 event now).2 }
      rw [htrans, isActive_congr (congrArg (Dict.get? · comboId) hcand)]
      have hremoved := (removeHeldBinding_frame
        (handleReleaseEvent (expireTimeouts e now).1 event now).1 event.binding).1
      rw [isActive_congr (congrArg (Dict.get? · comboId) hremoved)]
      exact alternates_handleReleaseEvent hexp event now comboId

theorem primeHeldBindings_candidates (e : ComboEngine A) (held : Finset RuntimeComboBinding) :
    (primeHeldBindings e held).candidates = e.candidates :=
  List.foldlRecOn (motive := fun e' : ComboEngine A => e'.candidates = e.candidates) _ _ rfl
    fun e' he' b _ => (recordHeldPress_candidates e' b).1.trans he'

theorem alternates_drop (hardwareId : String) (source : Option String) (comboId : String) :
    run outstandingStep (isActive e comboId)
        (observed e comboId (.dropCandidatesForBindingScope hardwareId source)) =
      some (isActive (dropCandidatesForBindingScope e hardwareId source).1 comboId) := by
  simp only [observed, emitted, seen_nil, List.nil_append, closes, decide_eq_true_eq]
  by_cases hid : hardwareId = ""
  · simp [dropCandidatesForBindingScope, hid]
  · have hcand := drop_candidates e hardwareId source hid
    have hmem : comboId ∈ (dropCandidatesForBindingScope e hardwareId source).2 ↔
        ∃ c, e.candidates.get? comboId = some c ∧
          candidateMatchesScope c hardwareId source = true ∧ c.actionActive = true := by
      have hids : (dropCandidatesForBindingScope e hardwareId source).2 =
          ((e.candidates.filter fun _ c => candidateMatchesScope c hardwareId source).filter
            fun _ c => c.actionActive).keys := by
        simp only [dropCandidatesForBindingScope, if_neg hid]
        split <;> rfl
      rw [hids, ← Dict.contains_iff, Dict.contains, Option.isSome_iff_exists]
      simp only [Dict.get?_filter_eq_some, and_assoc]
    have hafter : isActive (dropCandidatesForBindingScope e hardwareId source).1 comboId =
        ((e.candidates.get? comboId).filter fun c =>
          !candidateMatchesScope c hardwareId source).any (·.actionActive) := by
      rw [isActive, hcand, Dict.get?_filter]
    rw [hafter]
    cases hc : e.candidates.get? comboId with
    | none => simp [hmem, hc, isActive]
    | some c =>
      rw [isActive_of_get? hc]
      cases hscope : candidateMatchesScope c hardwareId source <;>
        cases hactive : c.actionActive <;>
        simp [hmem, hc, hscope, hactive, run_cons, outstandingStep]

theorem alternates_setCombos (combos : List (RuntimeCombo A)) (ids : Option (Finset String))
    (comboId : String) :
    run outstandingStep (isActive e comboId) (observed e comboId (.setCombos combos ids)) =
      some (isActive (setCombos e combos ids) comboId) := by
  simp only [observed, emitted, seen_nil, List.nil_append, closes]
  rcases Option.eq_none_or_eq_some ((setCombos e combos ids).candidates.get? comboId) with
    hc' | ⟨c', hc'⟩
  · simp only [isActive, hc', Option.isNone_none, if_true, Option.any_none]
    cases (e.candidates.get? comboId).any (·.actionActive) <;> rfl
  · simp only [hc', Option.isNone_some, Bool.false_eq_true, if_false, run_nil]
    rw [isActive_of_get? hc']
    obtain ⟨_, c, _, -, -, hc, -, rfl⟩ := candidate_of_setCombos hc'
    rw [isActive_of_get? hc]

/-- What a call shows of a combo leads from its activity before to that after. -/
theorem observed_step (h : Coherent e) {op : EngineOp A} (hstep : step e op = some e')
    (comboId : String) :
    run outstandingStep (isActive e comboId) (observed e comboId op) =
      some (isActive e' comboId) := by
  cases op with
  | setCombos combos ids =>
    cases hstep
    exact alternates_setCombos combos ids comboId
  | reset =>
    cases hstep
    simp only [observed, emitted, closes, seen_nil, List.nil_append, if_true]
    cases isActive e comboId <;> rfl
  | primeHeldBindings held =>
    cases hstep
    exact congrArg some
      (isActive_congr (congrArg (Dict.get? · comboId) (primeHeldBindings_candidates e held))).symm
  | dropCandidatesForBindingScope hardwareId source =>
    cases hstep
    exact alternates_drop hardwareId source comboId
  | expireTimeouts now =>
    cases hstep
    exact congrArg some (isActive_expireTimeouts h now comboId).symm
  | handleEvent order event now =>
    cases hstep
    simp only [observed, emitted, closes, Bool.false_eq_true, if_false, List.append_nil]
    exact alternates_handleEvent h order event now comboId

theorem trace_run (h : Coherent e) (ops : List (EngineOp A)) (comboId : String) :
    ∃ e', run step e ops = some e' ∧
      run outstandingStep (isActive e comboId) (trace comboId e ops) =
        some (isActive e' comboId) := by
  induction ops generalizing e with
  | nil => exact ⟨e, rfl, rfl⟩
  | cons op ops ih =>
    have hstep : ∃ e', step e op = some e' := by
      cases op <;> exact ⟨_, rfl⟩
    obtain ⟨e', hstep⟩ := hstep
    obtain ⟨e'', hrun, htrace⟩ := ih (h.step op hstep)
    refine ⟨e'', run_cons_eq_some.mpr ⟨e', hstep, hrun⟩, ?_⟩
    simp only [trace, hstep]
    exact run_append_some (observed_step h hstep comboId) htrace

/- Every call sequence: presses and releases alternate up to closings, the
outstanding press is exactly the active candidate, and an active candidate
goes only with a release or a closing. -/
theorem transitions_alternate (ops : List (EngineOp A)) (comboId : String) :
    ∃ e, run step {} ops = some e ∧
      run outstandingStep false (trace comboId {} ops) = some (isActive e comboId) ∧
      ∀ op e', step e op = some e' → isActive e comboId = true → isActive e' comboId = false →
        .release ∈ seen comboId (emitted e op) ∨ closes e comboId op = true := by
  obtain ⟨e, hrun, htrace⟩ := trace_run (A := A) coherent_empty ops comboId
  refine ⟨e, hrun, htrace, fun op e' hstep hactive hinactive => ?_⟩
  have hobs := observed_step (coherent_run hrun) hstep comboId
  rw [hactive, hinactive] at hobs
  rcases release_or_closed_of_run hobs with hmem | hmem
  · simp only [observed, List.mem_append] at hmem
    rcases hmem with hmem | hmem
    · exact Or.inl hmem
    · split at hmem
      · exact Or.inr (by assumption)
      · cases hmem
  · simp only [observed, List.mem_append] at hmem
    rcases hmem with hmem | hmem
    · obtain ⟨t, -, hkind⟩ := List.mem_map.mp hmem
      cases hk : t.kind <;> rw [hk] at hkind <;> cases hkind
    · split at hmem
      · exact Or.inr (by assumption)
      · cases hmem

end Calls

/-! ## A press, its device dropped, another press -/

attribute [local instance] Names.asciiStr

/-- One key held on its device, with an action. -/
def tapCombo : RuntimeCombo Unit :=
  { id := "c", name := "tap", steps := [{ bindings := [⟨"kbd", "key_a", ""⟩] }], action := some () }

def pressAfterDrop : List (EngineOp Unit) :=
  let press := EngineOp.handleEvent nameOrder ⟨⟨"kbd", "key_a", ""⟩, 1⟩ 0
  [.setCombos [tapCombo] none, press, .dropCandidatesForBindingScope "kbd" none, press]

/-- After a drop the same combo is pressed again, with no release in between. -/
theorem pressAfterDrop_twice :
    emittedTrace "c" {} pressAfterDrop = [.press, .press] ∧
      ¬ StrictlyAlternates (emittedTrace "c" {} pressAfterDrop) := by
  decide +kernel

end Keymasq.Combo.Transitions
