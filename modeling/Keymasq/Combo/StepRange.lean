import Keymasq.Combo.Coherence

/-!
# The current step exists

Combos are replaced under candidates, so a candidate could point past its
combo. It never does when the combo ids of each call are distinct and only
candidates of combos with unchanged steps are kept.
-/

namespace Keymasq.Combo.StepRange
open Foundation Foundation.Transition Names Engine HeldIndex Candidates Coherence

variable {A : Type*}

/-- The same steps, up to the order of the bindings within a step. -/
def SameSteps (old new : RuntimeCombo A) : Prop :=
  List.Forall₂ (fun s t => s.bindings.Perm t.bindings ∧ s.timeoutMs = t.timeoutMs)
    old.steps new.steps

section Range
variable [PyStr]

/-- A new configuration names each combo once and keeps only unchanged combos. -/
def KeepsUnchanged (e : ComboEngine A) : EngineOp A → Prop
  | .setCombos combos ids =>
    (combos.map (·.id)).Nodup ∧ ∀ kept ∈ ids, ∀ comboId ∈ kept, ∀ old new,
      e.comboMap.get? comboId = some old →
      (configure e combos).comboMap.get? comboId = some new → SameSteps old new
  | _ => True

structure InRange (e : ComboEngine A) : Prop where
  coherent : Coherent e
  indexed : ∀ key comboId combo, comboId ∈ e.firstStepBindingIndex.getD key [] →
    e.comboMap.get? comboId = some combo → combo.steps ≠ []
  candidates : EachCandidate (fun _ c => c.stepIndex < c.combo.steps.length) e

variable {comboId : String} {e e' : ComboEngine A}

theorem mem_indexFirstStep {index : Dict Parts (List String)} {combo : RuntimeCombo A} {key : Parts}
    (h : comboId ∈ (indexFirstStep index combo).getD key []) :
    comboId ∈ index.getD key [] ∨ (comboId = combo.id ∧ combo.steps ≠ []) := by
  unfold indexFirstStep at h
  split at h
  · exact Or.inl h
  · rename_i first rest hsteps
    have hne : combo.steps ≠ [] := by
      rw [hsteps]
      exact List.cons_ne_nil _ _
    have hgen : ∀ (bs : List RuntimeComboBinding) (index' : Dict Parts (List String)),
        comboId ∈ (bs.foldl (fun index b => index.insert (normalizedBindingParts b)
          (index.getD (normalizedBindingParts b) [] ++ [combo.id])) index').getD key [] →
        comboId ∈ index'.getD key [] ∨ comboId = combo.id := by
      intro bs
      induction bs with
      | nil => exact fun _ hmem => Or.inl hmem
      | cons b bs ih =>
        intro index' hmem
        rcases ih _ hmem with hin | hid
        · rw [Dict.getD, Dict.get?_insert] at hin
          split at hin
          · rename_i hkey
            subst hkey
            simpa using hin
          · exact Or.inl hin
        · exact Or.inr hid
    rcases hgen first.bindings index h with hmem | hid
    · exact Or.inl hmem
    · exact Or.inr ⟨hid, hne⟩

theorem mem_foldl_indexFirstStep {combos : List (RuntimeCombo A)} {index : Dict Parts (List String)}
    {key : Parts} (h : comboId ∈ (combos.foldl indexFirstStep index).getD key []) :
    comboId ∈ index.getD key [] ∨ ∃ combo ∈ combos, combo.id = comboId ∧ combo.steps ≠ [] := by
  induction combos generalizing index with
  | nil => exact Or.inl h
  | cons combo combos ih =>
    rcases ih h with hmem | ⟨combo', hmem, hid⟩
    · rcases mem_indexFirstStep hmem with hmem | ⟨hid, hne⟩
      · exact Or.inl hmem
      · exact Or.inr ⟨combo, List.mem_cons_self, hid.symm, hne⟩
    · exact Or.inr ⟨combo', List.mem_cons_of_mem _ hmem, hid⟩

/-- With distinct ids, an indexed combo has a first step. -/
theorem configure_indexed {combos : List (RuntimeCombo A)} (hnd : (combos.map (·.id)).Nodup)
    {key : Parts} {combo : RuntimeCombo A}
    (hmem : comboId ∈ (configure e combos).firstStepBindingIndex.getD key [])
    (hget : (configure e combos).comboMap.get? comboId = some combo) : combo.steps ≠ [] := by
  rcases mem_foldl_indexFirstStep hmem with hnil | ⟨combo', hmem', hid, hne⟩
  · cases hnil
  · obtain ⟨hcombo, hid'⟩ := configure_combo_id e combos hget
    have heq := List.inj_on_of_nodup_map hnd hmem' hcombo (hid.trans hid'.symm)
    rwa [← heq]

theorem mem_candidateFirstStepComboIds {b : RuntimeComboBinding}
    (h : comboId ∈ candidateFirstStepComboIds e b) :
    ∃ key, comboId ∈ e.firstStepBindingIndex.getD key [] := by
  have hdedupe : ∀ (all acc : List String), comboId ∈ all.foldl
      (fun comboIds comboId => if comboId ∈ comboIds then comboIds else comboIds ++ [comboId]) acc →
      comboId ∈ acc ∨ comboId ∈ all := by
    intro all
    induction all with
    | nil => exact fun _ hmem => Or.inl hmem
    | cons x all ih =>
      intro acc hmem
      rcases ih _ hmem with hin | hin
      · dsimp only at hin
        split at hin
        · exact Or.inl hin
        · rcases List.mem_append.mp hin with hin | hin
          · exact Or.inl hin
          · exact Or.inr (List.mem_cons.mpr (Or.inl (List.mem_singleton.mp hin)))
      · exact Or.inr (List.mem_cons_of_mem _ hin)
  rcases hdedupe _ _ h with hmem | hmem
  · cases hmem
  · obtain ⟨hardwareKey, -, hmem⟩ := List.mem_flatMap.mp hmem
    obtain ⟨sourceKey, -, hmem⟩ := List.mem_flatMap.mp hmem
    exact ⟨_, hmem⟩

/-- What the steps of a candidate are read through stays as it is. -/
theorem InRange.of_same (h : InRange e) (hcoherent : Coherent e')
    (hindex : e'.firstStepBindingIndex = e.firstStepBindingIndex) (hmap : e'.comboMap = e.comboMap)
    (hcand : EachCandidate (fun _ c => c.stepIndex < c.combo.steps.length) e') : InRange e' :=
  ⟨hcoherent, by rw [hindex, hmap]; exact h.indexed, hcand⟩

theorem recordHeldPress_index (e : ComboEngine A) (b : RuntimeComboBinding) :
    (recordHeldPress e b).firstStepBindingIndex = e.firstStepBindingIndex := by
  unfold recordHeldPress
  split <;> rfl

omit [PyStr] in
theorem Frame.firstStepBindingIndex (h : Frame e e') :
    e'.firstStepBindingIndex = e.firstStepBindingIndex := by
  obtain ⟨cs, n, rfl⟩ := h
  rfl

theorem InRange.handlePressEvent (h : InRange e) {order : SetOrder} {b : RuntimeComboBinding}
    {now : ℤ} (hb : bindingIsPulse b = false → b ∈ e.heldBindings) :
    InRange (handlePressEvent e order b now).engine := by
  obtain ⟨hcand, hframe⟩ := eachCandidate_handlePressEvent order now
    h.coherent.indexed hb h.candidates (fun _ _ _ _ _ _ _ hq => by simpa using hq)
    (fun comboId counter c isFinal hq => by
      obtain ⟨hcombo, -, hcase⟩ := completedCandidate_cases counter c b isFinal now
      rw [hcombo]
      rcases hcase with ⟨-, -, hindex⟩ | ⟨-, -, -, hnext, hindex⟩
      · rw [hindex]
        exact hq
      · rw [hindex]
        exact hnext)
    (fun combo hmem => by
      obtain ⟨hget, hid⟩ := mem_candidateFirstStepCombos h.coherent hmem
      obtain ⟨key, hkey⟩ := mem_candidateFirstStepComboIds hid
      exact List.length_pos_iff.mpr (h.indexed key combo.id combo hkey hget))
  exact h.of_same (h.coherent.handlePressEvent hb) (Frame.firstStepBindingIndex hframe)
    hframe.comboMap hcand

theorem InRange.release (h : InRange e) (event : ComboInputEvent) (now : ℤ) :
    InRange (removeHeldBinding (handleReleaseEvent e event now).1 event.binding) := by
  have hframe := handleReleaseEvent_frame e event now
  obtain ⟨hcand, hmap, -⟩ :=
    removeHeldBinding_frame (handleReleaseEvent e event now).1 event.binding
  have hindex : (removeHeldBinding (handleReleaseEvent e event now).1
      event.binding).firstStepBindingIndex = e.firstStepBindingIndex := by
    rw [← Frame.firstStepBindingIndex hframe]
    unfold removeHeldBinding
    split <;> rfl
  refine h.of_same (h.coherent.release event now) hindex (hmap.trans hframe.comboMap) ?_
  intro comboId c' hc'
  rw [hcand, handleReleaseEvent_get?, Option.bind_eq_some_iff] at hc'
  obtain ⟨c, hc, hkept⟩ := hc'
  have hrange := h.candidates comboId c hc
  split at hkept
  · rcases releaseRound_cases event now c with ⟨-, -, hnone, -⟩ | ⟨hsame, -, -⟩ |
        ⟨-, -, -, hnone | herase | ⟨-, hnext, henter⟩⟩
    · rw [hnone] at hkept
      cases hkept
    · rw [hsame] at hkept
      cases hkept
      exact hrange
    · rw [hnone] at hkept
      cases hkept
    · rw [herase] at hkept
      cases hkept
      exact hrange
    · rw [henter] at hkept
      cases hkept
      exact hnext
  · split at hkept
    · cases hkept
    · cases hkept
      exact hrange

theorem InRange.expireTimeouts (h : InRange e) (now : ℤ) : InRange (expireTimeouts e now).1 :=
  h.of_same (h.coherent.expireTimeouts now) rfl rfl (eachCandidate_filter h.candidates _)

theorem InRange.recordHeldPress (h : InRange e) (b : RuntimeComboBinding) :
    InRange (recordHeldPress e b) := by
  obtain ⟨hcand, hmap⟩ := recordHeldPress_candidates e b
  refine h.of_same (h.coherent.recordHeldPress b) (recordHeldPress_index e b) hmap ?_
  intro comboId c hc
  rw [hcand] at hc
  exact h.candidates comboId c hc

theorem InRange.handleEvent (h : InRange e) (order : SetOrder) (event : ComboInputEvent) (now : ℤ) :
    InRange (handleEvent e order event now).engine := by
  have hcoherent := h.coherent.handleEvent order event now
  have hexp := h.expireTimeouts now
  have hfinish : ∀ (outcome : PressOutcome A) (expired had : Bool), InRange outcome.engine →
      Coherent (finishEvent expired had outcome).engine →
      InRange (finishEvent expired had outcome).engine := by
    intro outcome expired had hout hcoh
    refine hout.of_same hcoh ?_ ?_ ?_
    · simp only [finishEvent]
      split <;> rfl
    · simp only [finishEvent]
      split <;> rfl
    · intro comboId c hc
      rw [(finishEvent_candidates expired had outcome).1] at hc
      exact hout.candidates comboId c hc
  simp only [Engine.handleEvent] at hcoherent ⊢
  split
  · exact hexp
  · split
    · refine hfinish _ _ _ ?_ ?_
      · split
        · rename_i hpulse
          exact hexp.handlePressEvent fun hfalse => by simp [hpulse] at hfalse
        · refine (hexp.recordHeldPress event.binding).handlePressEvent fun _ => ?_
          rw [recordHeldPress_held]
          exact Finset.mem_insert_self _ _
      · simpa [*] using hcoherent
    · exact hfinish _ _ _ (hexp.release event now) (by simpa [*] using hcoherent)

theorem InRange.step (h : InRange e) {op : EngineOp A} (hkeeps : KeepsUnchanged e op)
    (hstep : step e op = some e') : InRange e' := by
  have hcoherent := h.coherent.step op hstep
  cases op with
  | setCombos combos ids =>
    cases hstep
    refine ⟨hcoherent, fun _ _ _ hmem hget => ?_, fun comboId c' hc' => ?_⟩
    · cases ids with
      | none
      | some kept => exact configure_indexed (e := e) hkeeps.1 hmem hget
    · obtain ⟨kept, c, combo, rfl, hmem, hc, hget, rfl⟩ := candidate_of_setCombos hc'
      have hsame := hkeeps.2 kept rfl comboId hmem c.combo combo
        (h.coherent.candidates comboId c hc).configured hget
      change c.stepIndex < combo.steps.length
      rw [← hsame.length_eq]
      exact h.candidates comboId c hc
  | reset =>
    cases hstep
    exact h.of_same hcoherent rfl rfl fun _ _ hc => by cases hc
  | primeHeldBindings held =>
    cases hstep
    exact List.foldlRecOn _ _ h fun _ he b _ => he.recordHeldPress b
  | dropCandidatesForBindingScope hardwareId source =>
    cases hstep
    by_cases hid : hardwareId = ""
    · simpa only [dropCandidatesForBindingScope, if_pos hid] using h
    · refine h.of_same hcoherent ?_ ?_ ?_
      · have hrebuild : ∀ e' : ComboEngine A,
            (rebuildHeldBindingIndexes e').firstStepBindingIndex = e'.firstStepBindingIndex :=
          fun e' => List.foldlRecOn (motive := fun e'' : ComboEngine A =>
            e''.firstStepBindingIndex = e'.firstStepBindingIndex) _ _ rfl fun _ he'' _ _ => he''
        simp only [dropCandidatesForBindingScope, if_neg hid]
        split <;> exact hrebuild _
      · simp only [dropCandidatesForBindingScope, if_neg hid]
        split <;> exact (rebuild_frame _).2.1
      · intro comboId c hc
        rw [drop_candidates e hardwareId source hid] at hc
        exact h.candidates comboId c (Dict.get?_filter_eq_some.mp hc).1
  | expireTimeouts now =>
    cases hstep
    exact h.expireTimeouts now
  | handleEvent order event now =>
    cases hstep
    exact h.handleEvent order event now

/-- No candidate ever points past the steps of its combo. -/
theorem stepIndex_lt {ops : List (EngineOp A)}
    (hkeeps : Guarded step KeepsUnchanged ({} : ComboEngine A) ops)
    (hrun : run step {} ops = some e) {c : ActiveCandidate A}
    (hc : e.candidates.get? comboId = some c) :
    c.stepIndex < c.combo.steps.length := by
  have hstart : InRange ({} : ComboEngine A) := by
    refine ⟨coherent_empty, ?_, eachCandidate_of_empty rfl⟩
    intro key comboId combo _ hget
    rw [show ({} : ComboEngine A).comboMap = ∅ from rfl, Dict.get?_empty] at hget
    cases hget
  exact (guarded_run_invariant (fun _ _ _ h hk hstep => h.step hk hstep) hstart hkeeps
    hrun).candidates comboId c hc

end Range

attribute [local instance] asciiStr

def twoKeys : RuntimeCombo Unit :=
  { id := "c", name := "two keys"
    steps := [{ bindings := [⟨"", "key_a", ""⟩] }, { bindings := [⟨"", "key_b", ""⟩] }] }

def firstKeyDown : List (EngineOp Unit) :=
  [.setCombos [twoKeys] none, .handleEvent nameOrder ⟨⟨"kbd", "key_a", ""⟩, 1⟩ 0]

theorem stepIndex_lt_firstKeyDown :
    ∃ e c, run step {} firstKeyDown = some e ∧ e.candidates.get? "c" = some c ∧
      c.stepIndex < c.combo.steps.length := by
  have hsome : ((run step {} firstKeyDown).any fun e => (e.candidates.get? "c").isSome) = true := by
    decide +kernel
  obtain ⟨e, hrun, he⟩ := (Option.any_eq_true _ _).mp hsome
  obtain ⟨c, hc⟩ := Option.isSome_iff_exists.mp he
  have hkeeps : Guarded step KeepsUnchanged {} firstKeyDown :=
    ⟨⟨by decide, fun kept hkept => by cases hkept⟩, trivial, trivial⟩
  exact ⟨e, c, hrun, hc, stepIndex_lt hkeeps hrun hc⟩

end Keymasq.Combo.StepRange
