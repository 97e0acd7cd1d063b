import Keymasq.Combo.Candidates

/-!
# Coherence of the engine

Every candidate belongs to the configured combo of its id, is active only
while its keys are being released, carries a deadline only while it waits, and
counts only held keys while it waits.
-/

namespace Keymasq.Combo.Coherence
open Foundation Foundation.Sorting Foundation.Transition Names Engine HeldIndex Candidates

variable {A : Type*}

/-- A property of every candidate with its id. -/
def EachCandidate (Q : String → ActiveCandidate A → Prop) (e : ComboEngine A) : Prop :=
  ∀ comboId c, e.candidates.get? comboId = some c → Q comboId c

variable {Q : String → ActiveCandidate A → Prop} {e : ComboEngine A} {b : RuntimeComboBinding}
  {combo : RuntimeCombo A} {comboId : String} {c : ActiveCandidate A} {now : ℤ}

theorem eachCandidate_of_empty (h : e.candidates = ∅) : EachCandidate Q e := by
  intro comboId c hc
  rw [h, Dict.get?_empty] at hc
  cases hc

theorem mem_sortedBindings {held : Finset RuntimeComboBinding} :
    b ∈ sortedBindings held ↔ b ∈ held := by
  simp [sortedBindings]

/-- Held keys walked in the order of their names. -/
def nameOrder : SetOrder where
  iter _ held := sortedBindings held
  mem_iter _ _ _ := mem_sortedBindings

variable [PyStr]

/-- A new candidate has tracked held keys only. -/
theorem newCandidate_rule {Q : ActiveCandidate A → Prop} (e : ComboEngine A)
    {held : Finset RuntimeComboBinding} (b : RuntimeComboBinding) (hstart : Q { combo := combo })
    (htrack : ∀ counter c h p, h ∈ held → c.releasing = false → Q c →
      Q (trackPress counter c h p).2) : Q (newCandidate e combo held b).2 := by
  have hboth := List.foldlRecOn
    (motive := fun state : ℕ × ActiveCandidate A => state.2.releasing = false ∧ Q state.2)
    (sortedBy (fun h => e.heldPressOrder.getD h (e.pressCounter + 1)) (sortedBindings held))
    (fun state h => trackPress state.1 state.2 h (h ≠ b))
    (b := (e.pressCounter, { combo := combo })) ⟨rfl, hstart⟩
    fun state hstate h hmem => by
      rw [mem_sortedBy, mem_sortedBindings] at hmem
      exact ⟨by rw [trackPress_releasing]; exact hstate.1, htrack _ _ _ _ hmem hstate.1 hstate.2⟩
  exact hboth.2

theorem newCandidate_combo (e : ComboEngine A) (combo : RuntimeCombo A)
    (held : Finset RuntimeComboBinding) (b : RuntimeComboBinding) :
    (newCandidate e combo held b).2.combo = combo ∧
      (newCandidate e combo held b).2.stepIndex = 0 ∧
      (newCandidate e combo held b).2.actionActive = false :=
  newCandidate_rule (Q := fun c => c.combo = combo ∧ c.stepIndex = 0 ∧ c.actionActive = false) e b
    ⟨rfl, rfl, rfl⟩ fun counter c h p _ _ hq => by simpa using hq

omit [PyStr] in
theorem eachCandidate_filter (h : EachCandidate Q e) (p : String → ActiveCandidate A → Bool) :
    EachCandidate Q { e with candidates := e.candidates.filter p } := by
  intro comboId c hc
  exact h comboId c (Dict.get?_filter_eq_some.mp hc).1

omit [PyStr] in
theorem dropCandidates_get? (e : ComboEngine A) (ids : List String) (comboId : String) :
    (dropCandidates e ids).candidates.get? comboId =
      if comboId ∈ ids then none else e.candidates.get? comboId :=
  Dict.get?_foldl_erase ids e.candidates comboId

omit [PyStr] in
theorem dropCandidates_frame (e : ComboEngine A) (ids : List String) :
    Frame e (dropCandidates e ids) := ⟨_, _, rfl⟩

omit [PyStr] in
theorem eachCandidate_drop (h : EachCandidate Q e) (ids : List String) :
    EachCandidate Q (dropCandidates e ids) := by
  intro comboId c hc
  rw [dropCandidates_get?] at hc
  split at hc
  · cases hc
  · exact h comboId c hc

/- Rule for the waiting part of a press: some waiting candidates are dropped, and each round
finds its candidate as it was before the press. -/
theorem waitingPress_rule
    {R : ComboEngine A → List (ComboActionTransition A) → List CompletedStep → Prop} (now : ℤ)
    (hdrop : ∀ dropped : List String, (∀ comboId ∈ dropped,
      ∃ c, e.candidates.get? comboId = some c ∧ c.releasing = false) →
        R (dropCandidates e dropped) [] [])
    (hround : ∀ (loop : PressLoop A) (comboId : String) (c : ActiveCandidate A),
      R loop.engine loop.transitions loop.completed → e.candidates.get? comboId = some c →
      loop.engine.candidates.get? comboId = some c → c.releasing = false →
      pressClass c b = .matching → R (waitingRound b now loop comboId).engine
        (waitingRound b now loop comboId).transitions
        (waitingRound b now loop comboId).completed) :
    R (handleWaitingCandidatePress e b now).engine
      (transitionsOf (handleWaitingCandidatePress e b now).decision)
      (handleWaitingCandidatePress e b now).completed := by
  obtain ⟨dropped, looped, hdropped, hnd, hlooped, hengine, htrans, hcompleted⟩ :=
    handleWaitingCandidatePress_eq e b now
  rw [hengine, htrans, hcompleted]
  refine waitingLoop_rule
    (P := fun loop : PressLoop A => R loop.engine loop.transitions loop.completed) hnd
    (hdrop dropped hdropped) fun loop comboId hmem hloop _ hsame => ?_
  obtain ⟨hnot, c, hc, hrel, hclass⟩ := hlooped comboId hmem
  refine hround loop comboId c hloop hc ?_ hrel hclass
  rw [hsame, dropCandidates_get?, if_neg hnot, hc]

theorem eachCandidate_completeStored (loop : PressLoop A) {counter : ℕ} {isFinal : Bool}
    (h : EachCandidate Q loop.engine)
    (hc : Q comboId (completedCandidate counter c b isFinal now)) :
    EachCandidate Q (completeStored loop comboId counter c b isFinal now).engine := by
  intro comboId' c' hc'
  rw [completeStored_get?] at hc'
  split at hc'
  · rename_i hid
    subst hid
    split at hc'
    · cases hc'
    · cases hc'
      exact hc
  · exact h comboId' c' hc'

/- Rule for a press: a property of candidates holds afterwards when tracking a
held key and completing a step keep it and a fresh candidate has it. -/
theorem eachCandidate_handlePressEvent (order : SetOrder) (now : ℤ) (hidx : HeldIndexed e)
    (hb : bindingIsPulse b = false → b ∈ e.heldBindings) (h : EachCandidate Q e)
    (htrack : ∀ comboId counter c h p, (bindingIsPulse h = false → h ∈ e.heldBindings) →
      c.releasing = false → Q comboId c → Q comboId (trackPress counter c h p).2)
    (hcomplete : ∀ comboId counter c isFinal, Q comboId c →
      Q comboId (completedCandidate counter c b isFinal now))
    (hnew : ∀ combo ∈ candidateFirstStepCombos e b, Q combo.id { combo := combo }) :
    EachCandidate Q (handlePressEvent e order b now).engine ∧
      Frame e (handlePressEvent e order b now).engine := by
  have hwaiting : EachCandidate Q (handleWaitingCandidatePress e b now).engine ∧
      Frame e (handleWaitingCandidatePress e b now).engine := by
    refine waitingPress_rule (R := fun engine _ _ => EachCandidate Q engine ∧ Frame e engine) now
      (fun dropped _ => ⟨eachCandidate_drop h dropped, dropCandidates_frame e dropped⟩) ?_
    · intro loop comboId c hloop _ hget hrel _
      refine ⟨?_, hloop.2.trans (waitingRound_frame _ _ _ _)⟩
      have hq : Q comboId c := hloop.1 comboId c hget
      rcases waitingRound_cases b now hget with
        ⟨-, heq⟩ | ⟨-, heq⟩ | ⟨hpulse, heq⟩
      · rw [heq]
        exact eachCandidate_completeStored { loop with completedStep := true } hloop.1
          (hcomplete _ _ _ _ hq)
      · rw [heq]
        exact hloop.1
      · rw [heq]
        intro comboId' c' hc'
        simp only [Dict.get?_insert] at hc'
        split at hc'
        · rename_i hid
          subst hid
          cases hc'
          exact htrack _ _ _ _ _ (fun _ => hb hpulse) hrel hq
        · exact hloop.1 comboId' c' hc'
  rw [handlePressEvent]
  simp only [(activateSatisfiedFirstSteps_eq _ order b now).1]
  refine firstStepLoop_rule (P := fun loop => EachCandidate Q loop.engine ∧ Frame e loop.engine)
    rfl hwaiting ?_
  intro loop combo hmem hloop _
  refine ⟨?_, hloop.2.trans (firstStepRound_frame _ _ _ _ _)⟩
  rw [hwaiting.2.candidateFirstStepCombos] at hmem
  rcases firstStepRound_cases order b now loop combo with ⟨matched, heq⟩ | ⟨held, -, hheld, heq⟩
  · rw [heq]
    exact hloop.1
  · rw [heq]
    refine eachCandidate_completeStored { loop with matchedExistingOrActivated := true }
      hloop.1 (hcomplete _ _ _ _ ?_)
    refine newCandidate_rule (Q := Q combo.id) loop.engine b (hnew combo hmem) ?_
    intro counter c k p hk hrel hq
    refine htrack _ _ _ _ _ (fun hpulse => ?_) hrel hq
    have hin := (assignable_of_heldBindingsForStep (hidx.congr hloop.2.sameHeld) hheld).2 k hk
    rw [hloop.2.sameHeld.held] at hin
    rcases hin with hin | rfl
    · exact hin
    · exact hb hpulse

/-- What a release does to one candidate. -/
theorem releaseRound_cases (event : ComboInputEvent) (now : ℤ) (c : ActiveCandidate A) :
    let r := releaseRound event now c
    (c.releasing = false ∧ event.binding ∈ c.pressedBindings ∧ r.kept = none ∧
      r.transition = none) ∨
    (r.kept = some c ∧ r.transition = none ∧
      (c.releasing = false → event.binding ∉ c.pressedBindings)) ∨
    (c.releasing = true ∧ r.matchedStepBinding = true ∧
      r.transition = (if c.actionActive then
        some { comboId := c.combo.id
               action := c.combo.action
               kind := .release
               triggerBinding := event.binding } else none) ∧
      (r.kept = none ∨
        r.kept = some { c with
          actionActive := false
          pressedBindings := c.pressedBindings.erase event.binding } ∨
        (c.pressedBindings.erase event.binding = ∅ ∧
          c.stepIndex + 1 < c.combo.steps.length ∧
          r.kept = some (enterNextStep { c with
            actionActive := false
            pressedBindings := c.pressedBindings.erase event.binding } now)))) := by
  intro r
  cases hrel : c.releasing with
  | false =>
    by_cases hpressed : event.binding ∈ c.pressedBindings
    · left
      simp [r, releaseRound, hrel, hpressed]
    · right
      left
      simp [r, releaseRound, hrel, hpressed]
  | true =>
    right
    by_cases hmatch : stepMatchesBinding c.currentStep event.binding = true
    · by_cases hvalue : event.value = 0
      · by_cases hpressed : event.binding ∈ c.pressedBindings
        · right
          refine ⟨rfl, ?_, ?_, ?_⟩
          · simp [r, releaseRound, hrel, hmatch, hvalue, hpressed]
          · simp [r, releaseRound, hrel, hmatch, hvalue, hpressed]
          · simp only [r, releaseRound, hrel, hmatch, hvalue, hpressed]
            simp only [Bool.true_eq_false, not_true, if_false, if_true]
            split
            · split
              · exact Or.inl rfl
              · exact Or.inr (Or.inl (by simp))
            · rename_i hempty
              split
              · exact Or.inl rfl
              · rename_i hlast
                refine Or.inr (Or.inr ⟨Finset.not_nonempty_iff_eq_empty.mp hempty, ?_, ?_⟩)
                · simp only [isLastStep, decide_eq_true_eq, not_le] at hlast
                  omega
                · simp
        · left
          simp [r, releaseRound, hrel, hmatch, hvalue, hpressed]
      · left
        simp [r, releaseRound, hrel, hmatch, hvalue]
    · left
      simp [r, releaseRound, hrel, hmatch]

theorem handleReleaseEvent_frame (e : ComboEngine A) (event : ComboInputEvent) (now : ℤ) :
    Frame e (handleReleaseEvent e event now).1 := by
  simp only [handleReleaseEvent, handleReleasingEvent, handleReleaseBeforeCompletion]
  split
  · split <;> exact ⟨_, _, rfl⟩
  · split
    · exact Frame.refl _
    · split <;> exact ⟨_, _, rfl⟩

/-- A release treats every candidate by itself. -/
theorem handleReleaseEvent_get? (e : ComboEngine A) (event : ComboInputEvent) (now : ℤ)
    (comboId : String) :
    (handleReleaseEvent e event now).1.candidates.get? comboId =
      (e.candidates.get? comboId).bind fun c =>
        if e.candidates.values.any (·.releasing) then (releaseRound event now c).kept
        else if event.binding ∈ c.pressedBindings then none else some c := by
  simp only [handleReleaseEvent]
  split
  · simp only [handleReleasingEvent]
    split <;> exact Dict.get?_filterMapVal _ _ _
  · simp only [handleReleaseBeforeCompletion]
    split
    · rename_i hnone
      cases hc : e.candidates.get? comboId with
      | none => rfl
      | some c =>
        have hnot : event.binding ∉ c.pressedBindings := by
          intro hb
          have hmem : (e.candidates.filter fun _ c => decide (event.binding ∈ c.pressedBindings)).get?
              comboId = some c := Dict.get?_filter_eq_some.mpr ⟨hc, by simpa using hb⟩
          rw [Dict.get?_eq_some_iff, hnone] at hmem
          cases hmem
        simp [hnot]
    · have hfilter : ∀ (o : Option (ActiveCandidate A)),
          (o.filter fun c => decide (event.binding ∉ c.pressedBindings)) =
            o.bind fun c => if event.binding ∈ c.pressedBindings then none else some c := by
        intro o
        cases o with
        | none => rfl
        | some c => by_cases hb : event.binding ∈ c.pressedBindings <;> simp [Option.filter, hb]
      split <;> (simp only [Dict.get?_filter]; exact hfilter _)

omit [PyStr] in
/-- What holds of every candidate under the configured combos and held keys. -/
structure CandidateOk (comboMap : Dict String (RuntimeCombo A))
    (held : Finset RuntimeComboBinding) (comboId : String) (c : ActiveCandidate A) : Prop where
  configured : comboMap.get? comboId = some c.combo
  releasing_of_active : c.actionActive = true → c.releasing = true
  no_deadline : c.releasing = true → c.nextStepDeadlineMonotonic = none
  held_of_waiting : c.releasing = false → c.pressedBindings ⊆ held

structure Coherent (e : ComboEngine A) : Prop where
  indexed : HeldIndexed e
  combo_id : ∀ comboId combo, e.comboMap.get? comboId = some combo → combo.id = comboId
  candidates : EachCandidate (CandidateOk e.comboMap e.heldBindings) e

theorem CandidateOk.trackPress {comboMap : Dict String (RuntimeCombo A)}
    {held : Finset RuntimeComboBinding} (h : CandidateOk comboMap held comboId c)
    (hrel : c.releasing = false) {counter : ℕ} {p : Bool}
    (hb : bindingIsPulse b = false → b ∈ held) :
    CandidateOk comboMap held comboId (trackPress counter c b p).2 := by
  constructor
  · rw [trackPress_combo]
    exact h.configured
  · rw [trackPress_actionActive, trackPress_releasing]
    exact h.releasing_of_active
  · rw [trackPress_releasing, hrel]
    exact nofun
  · intro _ x hx
    rcases mem_pressed_of_trackPress hx with hx | ⟨rfl, hpulse⟩
    · exact h.held_of_waiting hrel hx
    · exact hb hpulse

theorem CandidateOk.completed {comboMap : Dict String (RuntimeCombo A)}
    {held : Finset RuntimeComboBinding} (h : CandidateOk comboMap held comboId c) {counter : ℕ}
    {isFinal : Bool} :
    CandidateOk comboMap held comboId (completedCandidate counter c b isFinal now) := by
  obtain ⟨hcombo, hactive, hcase⟩ := completedCandidate_cases counter c b isFinal now
  rcases hcase with ⟨hrel, hdeadline, -⟩ | ⟨hrel, hpressed, hfinal, -, -⟩
  · exact ⟨hcombo ▸ h.configured, fun _ => hrel, fun _ => hdeadline, fun hfalse => by
      rw [hrel] at hfalse
      cases hfalse⟩
  · refine ⟨hcombo ▸ h.configured, fun htrue => ?_, fun htrue => ?_, fun _ => ?_⟩
    · rw [hactive, hfinal] at htrue
      cases htrue
    · rw [hrel] at htrue
      cases htrue
    · rw [hpressed]
      exact Finset.empty_subset _

theorem CandidateOk.released {comboMap : Dict String (RuntimeCombo A)}
    {held : Finset RuntimeComboBinding} {c' : ActiveCandidate A}
    (h : CandidateOk comboMap held comboId c) {event : ComboInputEvent}
    (hkept : (releaseRound event now c).kept = some c') :
    CandidateOk comboMap (held.erase event.binding) comboId c' := by
  rcases releaseRound_cases event now c with ⟨-, -, hnone, -⟩ | ⟨hsame, -, hnot⟩ |
      ⟨hrel, -, -, hnone | herase | ⟨hempty, -, hnext⟩⟩
  · rw [hnone] at hkept
    cases hkept
  · rw [hsame] at hkept
    cases hkept
    refine ⟨h.configured, h.releasing_of_active, h.no_deadline, fun hrel _ hx => ?_⟩
    refine Finset.mem_erase.mpr ⟨?_, h.held_of_waiting hrel hx⟩
    rintro rfl
    exact hnot hrel hx
  · rw [hnone] at hkept
    cases hkept
  · rw [herase] at hkept
    cases hkept
    refine ⟨h.configured, nofun, fun _ => h.no_deadline hrel, ?_⟩
    intro hfalse
    simp only [hrel] at hfalse
    cases hfalse
  · rw [hnext] at hkept
    cases hkept
    refine ⟨h.configured, nofun, nofun, fun _ => ?_⟩
    change c.pressedBindings.erase event.binding ⊆ _
    rw [hempty]
    exact Finset.empty_subset _

omit [PyStr] in
theorem CandidateOk.mono {comboMap : Dict String (RuntimeCombo A)}
    {held held' : Finset RuntimeComboBinding} (h : CandidateOk comboMap held comboId c)
    (hsub : c.pressedBindings ∩ held ⊆ held') :
    CandidateOk comboMap held' comboId c :=
  ⟨h.configured, h.releasing_of_active, h.no_deadline, fun hrel _ hx =>
    hsub (Finset.mem_inter.mpr ⟨hx, h.held_of_waiting hrel hx⟩)⟩

theorem coherent_empty : Coherent ({} : ComboEngine A) := by
  refine ⟨heldIndexed_empty, ?_, eachCandidate_of_empty rfl⟩
  intro comboId combo hget
  rw [show ({} : ComboEngine A).comboMap = ∅ from rfl, Dict.get?_empty] at hget
  cases hget

/-- Only counters, candidates and held keys are checked by `Coherent`. -/
theorem Coherent.finishEvent {outcome : PressOutcome A} (h : Coherent outcome.engine)
    (expired had : Bool) : Coherent (finishEvent expired had outcome).engine := by
  simp only [Engine.finishEvent]
  split
  · exact ⟨h.indexed.congr ⟨rfl, rfl, rfl, rfl, rfl⟩, h.combo_id, h.candidates⟩
  · exact h

theorem Coherent.expireTimeouts (h : Coherent e) (now : ℤ) : Coherent (expireTimeouts e now).1 :=
  ⟨h.indexed.congr ⟨rfl, rfl, rfl, rfl, rfl⟩, h.combo_id, eachCandidate_filter h.candidates _⟩

theorem recordHeldPress_held (e : ComboEngine A) (b : RuntimeComboBinding) :
    (recordHeldPress e b).heldBindings = insert b e.heldBindings := by
  unfold recordHeldPress
  split
  · rename_i hb
    exact (Finset.insert_eq_of_mem hb).symm
  · rfl

theorem recordHeldPress_candidates (e : ComboEngine A) (b : RuntimeComboBinding) :
    (recordHeldPress e b).candidates = e.candidates ∧
      (recordHeldPress e b).comboMap = e.comboMap := by
  unfold recordHeldPress
  split <;> exact ⟨rfl, rfl⟩

theorem Coherent.recordHeldPress (h : Coherent e) (b : RuntimeComboBinding) :
    Coherent (recordHeldPress e b) := by
  obtain ⟨hcand, hmap⟩ := recordHeldPress_candidates e b
  refine ⟨heldIndexed_recordHeldPress h.indexed b, hmap ▸ h.combo_id, ?_⟩
  rw [hmap, recordHeldPress_held]
  intro comboId c hc
  rw [hcand] at hc
  exact (h.candidates comboId c hc).mono
    (Finset.inter_subset_right.trans (Finset.subset_insert _ _))

theorem Coherent.primeHeldBindings (h : Coherent e) (held : Finset RuntimeComboBinding) :
    Coherent (primeHeldBindings e held) :=
  List.foldlRecOn _ _ h fun _ he b _ => he.recordHeldPress b

theorem mem_candidateFirstStepCombos (h : Coherent e)
    (hmem : combo ∈ candidateFirstStepCombos e b) :
    e.comboMap.get? combo.id = some combo ∧ combo.id ∈ candidateFirstStepComboIds e b := by
  obtain ⟨comboId, hid, hget⟩ := List.mem_filterMap.mp hmem
  have heq := h.combo_id comboId combo hget
  subst heq
  exact ⟨hget, hid⟩

theorem Coherent.handlePressEvent (h : Coherent e) {order : SetOrder}
    (hb : bindingIsPulse b = false → b ∈ e.heldBindings) :
    Coherent (handlePressEvent e order b now).engine := by
  obtain ⟨hcand, hframe⟩ := eachCandidate_handlePressEvent order now h.indexed
    hb h.candidates (fun _ _ _ _ _ hk hrel hq => hq.trackPress hrel hk)
    (fun _ _ _ _ hq => hq.completed) (fun combo hmem =>
      ⟨(mem_candidateFirstStepCombos h hmem).1, nofun,
        nofun, fun _ => Finset.empty_subset _⟩)
  refine ⟨h.indexed.congr hframe.sameHeld, hframe.comboMap ▸ h.combo_id, ?_⟩
  rw [hframe.comboMap, hframe.sameHeld.held]
  exact hcand

theorem removeHeldBinding_frame (e : ComboEngine A) (b : RuntimeComboBinding) :
    (removeHeldBinding e b).candidates = e.candidates ∧
      (removeHeldBinding e b).comboMap = e.comboMap ∧
      (removeHeldBinding e b).heldBindings = e.heldBindings.erase b := by
  unfold removeHeldBinding
  split
  · exact ⟨rfl, rfl, rfl⟩
  · rename_i hb
    exact ⟨rfl, rfl, (Finset.erase_eq_of_notMem hb).symm⟩

theorem Coherent.release (h : Coherent e) (event : ComboInputEvent) (now : ℤ) :
    Coherent (removeHeldBinding (handleReleaseEvent e event now).1 event.binding) := by
  have hframe := handleReleaseEvent_frame e event now
  obtain ⟨hcand, hmap, hheld⟩ :=
    removeHeldBinding_frame (handleReleaseEvent e event now).1 event.binding
  refine ⟨heldIndexed_removeHeldBinding (h.indexed.congr hframe.sameHeld) _, ?_, ?_⟩
  · rw [hmap, hframe.comboMap]
    exact h.combo_id
  · intro comboId c' hc'
    rw [hmap, hheld, hframe.comboMap, hframe.sameHeld.held]
    rw [hcand, handleReleaseEvent_get?, Option.bind_eq_some_iff] at hc'
    obtain ⟨c, hc, hkept⟩ := hc'
    have hok := h.candidates comboId c hc
    split at hkept
    · exact hok.released hkept
    · split at hkept
      · cases hkept
      · rename_i hnot
        cases hkept
        refine hok.mono fun x hx => ?_
        rw [Finset.mem_inter] at hx
        refine Finset.mem_erase.mpr ⟨?_, hx.2⟩
        rintro rfl
        exact hnot hx.1

theorem Coherent.handleEvent (h : Coherent e) (order : SetOrder) (event : ComboInputEvent)
    (now : ℤ) : Coherent (handleEvent e order event now).engine := by
  simp only [Engine.handleEvent]
  have hexp := h.expireTimeouts now
  split
  · exact hexp
  · split
    · apply Coherent.finishEvent
      split
      · rename_i hpulse
        exact hexp.handlePressEvent fun hfalse => by simp [hpulse] at hfalse
      · refine (hexp.recordHeldPress event.binding).handlePressEvent fun _ => ?_
        rw [recordHeldPress_held]
        exact Finset.mem_insert_self _ _
    · exact Coherent.finishEvent (hexp.release event now) _ _

theorem configure_combo_id (e : ComboEngine A) (combos : List (RuntimeCombo A))
    (h : (configure e combos).comboMap.get? comboId = some combo) :
    combo ∈ combos ∧ combo.id = comboId := by
  obtain ⟨combo', hmem, heq⟩ := List.mem_map.mp (Dict.mem_of_get?_ofList h)
  cases heq
  exact ⟨hmem, rfl⟩

/-- A candidate after a reload was one before it, with the new definition. -/
theorem candidate_of_setCombos {combos : List (RuntimeCombo A)} {ids : Option (Finset String)}
    {c' : ActiveCandidate A} (h : (setCombos e combos ids).candidates.get? comboId = some c') :
    ∃ kept c combo, ids = some kept ∧ comboId ∈ kept ∧ e.candidates.get? comboId = some c ∧
      (configure e combos).comboMap.get? comboId = some combo ∧
      c' = { c with combo := combo } := by
  cases ids with
  | none => cases h
  | some kept =>
    change (e.candidates.filterMapVal (preserveCandidate _ kept)).get? comboId = some c' at h
    rw [Dict.get?_filterMapVal, Option.bind_eq_some_iff] at h
    obtain ⟨c, hc, hkept⟩ := h
    obtain ⟨hmem, hget⟩ := Option.ite_none_right_eq_some.mp hkept
    obtain ⟨combo, hcombo, rfl⟩ := Option.map_eq_some_iff.mp hget
    exact ⟨kept, c, combo, rfl, hmem, hc, hcombo, rfl⟩

theorem Coherent.setCombos (h : Coherent e) (combos : List (RuntimeCombo A))
    (ids : Option (Finset String)) : Coherent (setCombos e combos ids) := by
  have hid : ∀ comboId combo, (configure e combos).comboMap.get? comboId = some combo →
      combo.id = comboId := fun _ _ hget => (configure_combo_id e combos hget).2
  cases ids with
  | none => exact ⟨heldIndexed_reset _, hid, eachCandidate_of_empty rfl⟩
  | some ids =>
    refine ⟨h.indexed.congr ⟨rfl, rfl, rfl, rfl, rfl⟩, hid, fun comboId c' hc' => ?_⟩
    change (Engine.setCombos e combos (some ids)).candidates.get? comboId = some c' at hc'
    obtain ⟨_, c, _, -, -, hc, hget, rfl⟩ := candidate_of_setCombos hc'
    have hok := h.candidates comboId c hc
    exact ⟨hget, hok.releasing_of_active, hok.no_deadline, hok.held_of_waiting⟩

omit [PyStr] in
/-- A candidate that stays after a drop has no pressed key in the scope. -/
theorem not_inScope_of_kept {hardwareId : String} {source : Option String}
    (h : candidateMatchesScope c hardwareId source = false) (hb : b ∈ c.pressedBindings) :
    bindingInScope b hardwareId source = false := by
  simp only [candidateMatchesScope, decide_eq_false_iff_not, not_exists, not_and,
    Bool.not_eq_true] at h
  exact h b (by simp [candidateBindings, hb])

theorem rebuild_frame (e : ComboEngine A) :
    (rebuildHeldBindingIndexes e).candidates = e.candidates ∧
      (rebuildHeldBindingIndexes e).comboMap = e.comboMap ∧
      (rebuildHeldBindingIndexes e).heldBindings = e.heldBindings :=
  List.foldlRecOn (motive := fun e' : ComboEngine A => e'.candidates = e.candidates ∧
    e'.comboMap = e.comboMap ∧ e'.heldBindings = e.heldBindings) _ _ ⟨rfl, rfl, rfl⟩
    fun _ he' _ _ => he'

theorem drop_candidates (e : ComboEngine A) (hardwareId : String) (source : Option String)
    (hid : hardwareId ≠ "") :
    (dropCandidatesForBindingScope e hardwareId source).1.candidates =
      e.candidates.filter fun _ c => !candidateMatchesScope c hardwareId source := by
  simp only [dropCandidatesForBindingScope, if_neg hid]
  split <;> exact (rebuild_frame _).1

theorem Coherent.drop (h : Coherent e) (hardwareId : String) (source : Option String) :
    Coherent (dropCandidatesForBindingScope e hardwareId source).1 := by
  by_cases hid : hardwareId = ""
  · simpa only [dropCandidatesForBindingScope, if_pos hid] using h
  · let e' : ComboEngine A := { e with
      candidates := e.candidates.filter fun _ c => !candidateMatchesScope c hardwareId source
      heldBindings := e.heldBindings.filter fun b => ¬ bindingInScope b hardwareId source
      heldPressOrder := e.heldPressOrder.filter fun b _ =>
        b ∈ e.heldBindings.filter fun b => ¬ bindingInScope b hardwareId source }
    obtain ⟨hcand, hmap, hheld⟩ := rebuild_frame e'
    have hrebuilt : Coherent (rebuildHeldBindingIndexes e') := by
      refine ⟨heldIndexed_rebuildHeldBindingIndexes e', hmap ▸ h.combo_id, ?_⟩
      rw [hmap, hheld]
      intro comboId c hc
      rw [hcand] at hc
      obtain ⟨hget, hkept⟩ := Dict.get?_filter_eq_some.mp hc
      refine (h.candidates comboId c hget).mono fun b hb => ?_
      rw [Finset.mem_inter] at hb
      have hout := not_inScope_of_kept (by simpa using hkept) hb.1
      exact Finset.mem_filter.mpr ⟨hb.2, by simp [hout]⟩
    simp only [dropCandidatesForBindingScope, if_neg hid]
    split
    · exact ⟨hrebuilt.indexed.congr ⟨rfl, rfl, rfl, rfl, rfl⟩, hrebuilt.combo_id,
        hrebuilt.candidates⟩
    · exact hrebuilt

theorem Coherent.step {e' : ComboEngine A} (h : Coherent e) (op : EngineOp A)
    (hstep : step e op = some e') : Coherent e' := by
  cases op with
  | setCombos combos ids =>
    cases hstep
    exact h.setCombos combos ids
  | reset =>
    cases hstep
    exact ⟨heldIndexed_reset e, h.combo_id, eachCandidate_of_empty rfl⟩
  | primeHeldBindings held =>
    cases hstep
    exact h.primeHeldBindings held
  | dropCandidatesForBindingScope hardwareId source =>
    cases hstep
    exact h.drop hardwareId source
  | expireTimeouts now =>
    cases hstep
    exact h.expireTimeouts now
  | handleEvent order event now =>
    cases hstep
    exact h.handleEvent order event now

theorem coherent_run {ops : List (EngineOp A)} (hrun : run step {} ops = some e) : Coherent e :=
  run_invariant (fun _ op _ h hstep => h.step op hstep) coherent_empty hrun

end Keymasq.Combo.Coherence
