import Keymasq.Combo.StepRange

/-!
# The indexes agree with a plain scan

Besides the buckets of held keys the engine keeps the order of their presses
and an index of the combos by the bindings of their first steps. Each lookup
returns what a scan over all held keys, or over all combos, would find.
-/

namespace Keymasq.Combo.Indexes
open Foundation Foundation.Sorting Foundation.Transition Names Engine HeldIndex Candidates Coherence

section Engine

variable {A : Type*}

/-! ## Buckets are never empty -/

structure HeldFilled (e : ComboEngine A) : Prop where
  exact : Dict.Filled e.heldBindingIndex
  anySource : Dict.Filled e.heldBindingAnySourceIndex
  anyHardware : Dict.Filled e.heldBindingAnyHardwareIndex
  name : Dict.Filled e.heldBindingAnyHardwareAnySourceIndex

variable {e e' : ComboEngine A}

theorem heldFilled_empty (hexact : e.heldBindingIndex = ∅)
    (hsource : e.heldBindingAnySourceIndex = ∅) (hhardware : e.heldBindingAnyHardwareIndex = ∅)
    (hname : e.heldBindingAnyHardwareAnySourceIndex = ∅) : HeldFilled e := by
  constructor
  · rw [hexact]
    exact Dict.filled_empty
  · rw [hsource]
    exact Dict.filled_empty
  · rw [hhardware]
    exact Dict.filled_empty
  · rw [hname]
    exact Dict.filled_empty

theorem HeldFilled.congr (h : HeldFilled e) (hs : SameHeld e e') : HeldFilled e' := by
  constructor
  · rw [hs.exact]
    exact h.exact
  · rw [hs.anySource]
    exact h.anySource
  · rw [hs.anyHardware]
    exact h.anyHardware
  · rw [hs.name]
    exact h.name

variable [PyStr]

theorem HeldFilled.indexHeldBinding (h : HeldFilled e) (b : RuntimeComboBinding) :
    HeldFilled (indexHeldBinding e b) :=
  ⟨h.exact.addTo _ _, h.anySource.addTo _ _, h.anyHardware.addTo _ _, h.name.addTo _ _⟩

theorem HeldFilled.deindexHeldBinding (h : HeldFilled e) (b : RuntimeComboBinding) :
    HeldFilled (deindexHeldBinding e b) :=
  ⟨h.exact.discardFrom _ _, h.anySource.discardFrom _ _, h.anyHardware.discardFrom _ _,
    h.name.discardFrom _ _⟩

/-! ## The order of the presses -/

/-- The press-order table numbers exactly the held keys, each with its own number. -/
structure Ordered (e : ComboEngine A) : Prop where
  held : ∀ b, (∃ n, e.heldPressOrder.get? b = some n) ↔ b ∈ e.heldBindings
  counted : ∀ b n, e.heldPressOrder.get? b = some n → n ≤ e.pressCounter
  distinct : ∀ b b' n, e.heldPressOrder.get? b = some n → e.heldPressOrder.get? b' = some n →
    b = b'

omit [PyStr] in
theorem ordered_empty (hheld : e.heldBindings = ∅) (horder : e.heldPressOrder = ∅) : Ordered e := by
  constructor
  · simp [hheld, horder]
  · simp [horder]
  · simp [horder]

omit [PyStr] in
/-- The counter may only go up. -/
theorem Ordered.congr (h : Ordered e) (hheld : e'.heldBindings = e.heldBindings)
    (horder : e'.heldPressOrder = e.heldPressOrder) (hcounter : e.pressCounter ≤ e'.pressCounter) :
    Ordered e' := by
  constructor
  · rw [hheld, horder]
    exact h.held
  · intro b n hb
    rw [horder] at hb
    exact (h.counted b n hb).trans hcounter
  · rw [horder]
    exact h.distinct

omit [PyStr] in
/-- A newly held key gets the next number. -/
theorem Ordered.insert (h : Ordered e) (b : RuntimeComboBinding) :
    Ordered { e with
      pressCounter := e.pressCounter + 1
      heldBindings := insert b e.heldBindings
      heldPressOrder := e.heldPressOrder.insert b (e.pressCounter + 1) } := by
  have hfresh : ∀ b' n, e.heldPressOrder.get? b' = some n → n ≠ e.pressCounter + 1 := by
    intro b' n hb
    have hle := h.counted b' n hb
    omega
  constructor
  · intro b'
    simp only [Dict.get?_insert, Finset.mem_insert]
    by_cases heq : b' = b
    · simp [heq]
    · simp [heq, h.held b']
  · intro b' n hb
    simp only [Dict.get?_insert] at hb
    split at hb
    · cases hb
      exact le_refl _
    · have hle := h.counted b' n hb
      exact hle.trans (Nat.le_succ _)
  · intro b' b'' n hb hb'
    simp only [Dict.get?_insert] at hb hb'
    split at hb <;> split at hb'
    · rename_i heq heq'
      rw [heq, heq']
    · cases hb
      exact absurd rfl (hfresh b'' _ hb')
    · cases hb'
      exact absurd rfl (hfresh b' _ hb)
    · exact h.distinct b' b'' n hb hb'

omit [PyStr] in
/-- Held keys are dropped together with their numbers. -/
theorem Ordered.restrict (h : Ordered e) (kept : RuntimeComboBinding → Prop)
    (hheld : ∀ b, b ∈ e'.heldBindings ↔ b ∈ e.heldBindings ∧ kept b)
    (horder : ∀ b n, e'.heldPressOrder.get? b = some n ↔ e.heldPressOrder.get? b = some n ∧ kept b)
    (hcounter : e.pressCounter ≤ e'.pressCounter) : Ordered e' := by
  constructor
  · intro b
    rw [hheld, ← h.held b]
    simp only [horder, exists_and_right]
  · intro b n hb
    exact (h.counted b n ((horder b n).mp hb).1).trans hcounter
  · intro b b' n hb hb'
    exact h.distinct b b' n ((horder b n).mp hb).1 ((horder b' n).mp hb').1

/-! ## The first steps -/

/-- The index entries come from the configured combos, whose ids are distinct. -/
structure Configured (e : ComboEngine A) : Prop where
  distinct : (e.combos.map (·.id)).Nodup
  indexed : e.firstStepBindingIndex = e.combos.foldl indexFirstStep ∅

theorem Configured.congr (h : Configured e) (hcombos : e'.combos = e.combos)
    (hindex : e'.firstStepBindingIndex = e.firstStepBindingIndex) : Configured e' := by
  constructor
  · rw [hcombos]
    exact h.distinct
  · rw [hcombos, hindex]
    exact h.indexed

/-- What a scan over the combos finds: a binding of the first step matches the key. -/
def firstStepMatches (combo : RuntimeCombo A) (b : RuntimeComboBinding) : Bool :=
  match combo.steps with
  | [] => false
  | first :: _ => stepMatchesBinding first b

def firstStepKeys (combo : RuntimeCombo A) : List Parts :=
  match combo.steps with
  | [] => []
  | first :: _ => first.bindings.map normalizedBindingParts

theorem mem_indexFirstStep_iff {index : Dict Parts (List String)} {combo : RuntimeCombo A}
    {key : Parts} {comboId : String} : comboId ∈ (indexFirstStep index combo).getD key [] ↔
      comboId ∈ index.getD key [] ∨ (comboId = combo.id ∧ key ∈ firstStepKeys combo) := by
  cases hsteps : combo.steps with
  | nil => simp [indexFirstStep, firstStepKeys, hsteps]
  | cons first rest =>
    simp only [indexFirstStep, firstStepKeys, hsteps]
    generalize first.bindings = bs
    induction bs generalizing index with
    | nil => simp
    | cons b bs ih =>
      rw [List.foldl_cons, ih, Dict.getD, Dict.get?_insert]
      by_cases hkey : key = normalizedBindingParts b
      · simp only [hkey, if_true, Option.getD_some, List.mem_append,
          List.map_cons, List.mem_cons, true_or, and_true]
        tauto
      · simp only [hkey, if_false, List.map_cons, List.mem_cons, false_or]
        exact Iff.rfl

theorem mem_foldl_indexFirstStep_iff {combos : List (RuntimeCombo A)}
    {index : Dict Parts (List String)} {key : Parts} {comboId : String} :
    comboId ∈ (combos.foldl indexFirstStep index).getD key [] ↔
      comboId ∈ index.getD key [] ∨
        ∃ combo ∈ combos, combo.id = comboId ∧ key ∈ firstStepKeys combo := by
  induction combos generalizing index with
  | nil => simp
  | cons combo combos ih =>
    rw [List.foldl_cons, ih, mem_indexFirstStep_iff]
    simp only [List.mem_cons, exists_eq_or_imp]
    constructor
    · rintro ((hmem | ⟨hid, hkey⟩) | hrest)
      · exact Or.inl hmem
      · exact Or.inr (Or.inl ⟨hid.symm, hkey⟩)
      · exact Or.inr (Or.inr hrest)
    · rintro (hmem | ⟨hid, hkey⟩ | hrest)
      · exact Or.inl (Or.inl hmem)
      · exact Or.inl (Or.inr ⟨hid.symm, hkey⟩)
      · exact Or.inr hrest

/-- The keys under which a lookup searches. -/
def lookupKeys (b : RuntimeComboBinding) : List Parts :=
  let (hardwareId, normalized, source) := normalizedBindingParts b
  let hardwareKeys := if hardwareId ≠ "" then [hardwareId, ""] else [hardwareId]
  let sourceKeys := if source ≠ "" then [source, ""] else [source]
  hardwareKeys.flatMap fun hardwareKey => sourceKeys.map fun sourceKey =>
    (hardwareKey, normalized, sourceKey)

/-- The wildcard keys on the side of the event are those of the bindings that match it. -/
theorem mem_lookupKeys_iff (expected b : RuntimeComboBinding) :
    normalizedBindingParts expected ∈ lookupKeys b ↔ bindingMatches expected b = true := by
  have hwild : ∀ x y : String, x ∈ (if y ≠ "" then [y, ""] else [y]) ↔ x = "" ∨ x = y := by
    intro x y
    by_cases hy : y = ""
    · simp [hy]
    · simp [hy, or_comm]
  simp only [lookupKeys, normalizedBindingParts, List.mem_flatMap, List.mem_map, Prod.mk.injEq,
    bindingMatches, decide_eq_true_eq]
  constructor
  · rintro ⟨hardwareKey, hhardware, sourceKey, hsource, rfl, hname, rfl⟩
    exact ⟨(hwild _ _).mp hhardware, hname.symm, (hwild _ _).mp hsource⟩
  · rintro ⟨hhardware, hname, hsource⟩
    exact ⟨_, (hwild _ _).mpr hhardware, _, (hwild _ _).mpr hsource, rfl, hname.symm, rfl⟩

theorem firstStepMatches_iff (combo : RuntimeCombo A) (b : RuntimeComboBinding) :
    firstStepMatches combo b = true ↔ ∃ key ∈ lookupKeys b, key ∈ firstStepKeys combo := by
  unfold firstStepMatches firstStepKeys
  split
  · simp
  · simp only [stepMatchesBinding, List.any_eq_true, List.mem_map]
    constructor
    · rintro ⟨expected, hmem, hmatch⟩
      exact ⟨_, (mem_lookupKeys_iff expected b).mpr hmatch, expected, hmem, rfl⟩
    · rintro ⟨key, hkey, expected, hmem, rfl⟩
      exact ⟨expected, hmem, (mem_lookupKeys_iff expected b).mp hkey⟩

section Dedupe

variable {α : Type*} [DecidableEq α]

omit [PyStr] in
/-- Collecting what was not seen before keeps each item once. -/
theorem foldl_unseen (all acc : List α) (hacc : acc.Nodup) :
    (all.foldl (fun seen a => if a ∈ seen then seen else seen ++ [a]) acc).Nodup ∧
      ∀ a, a ∈ all.foldl (fun seen a => if a ∈ seen then seen else seen ++ [a]) acc ↔
        a ∈ acc ∨ a ∈ all := by
  induction all generalizing acc with
  | nil => exact ⟨hacc, by simp⟩
  | cons x all ih =>
    rw [List.foldl_cons]
    by_cases hx : x ∈ acc
    · rw [if_pos hx]
      obtain ⟨hnd, hmem⟩ := ih acc hacc
      refine ⟨hnd, fun a => ?_⟩
      rw [hmem, List.mem_cons]
      constructor
      · rintro (ha | ha)
        · exact Or.inl ha
        · exact Or.inr (Or.inr ha)
      · rintro (ha | rfl | ha)
        · exact Or.inl ha
        · exact Or.inl hx
        · exact Or.inr ha
    · rw [if_neg hx]
      have hnew : (acc ++ [x]).Nodup := by
        rw [List.nodup_append]
        refine ⟨hacc, List.nodup_singleton x, ?_⟩
        intro a ha b hb
        rw [List.mem_singleton.mp hb]
        rintro rfl
        exact hx ha
      obtain ⟨hnd, hmem⟩ := ih (acc ++ [x]) hnew
      refine ⟨hnd, fun a => ?_⟩
      rw [hmem, List.mem_append, List.mem_singleton, List.mem_cons, or_assoc]

end Dedupe

/-- A lookup finds the combos that the scan finds, each once. -/
theorem candidateFirstStepComboIds_spec (h : Configured e) (b : RuntimeComboBinding) :
    (candidateFirstStepComboIds e b).Nodup ∧
      ∀ comboId, comboId ∈ candidateFirstStepComboIds e b ↔
        ∃ combo ∈ e.combos, combo.id = comboId ∧ firstStepMatches combo b = true := by
  have heq : candidateFirstStepComboIds e b =
      ((lookupKeys b).flatMap fun key => e.firstStepBindingIndex.getD key []).foldl
        (fun seen comboId => if comboId ∈ seen then seen else seen ++ [comboId]) [] := by
    simp only [candidateFirstStepComboIds, lookupKeys, List.flatMap_assoc, List.flatMap_map]
  rw [heq]
  obtain ⟨hnd, hmem⟩ := foldl_unseen
    ((lookupKeys b).flatMap fun key => e.firstStepBindingIndex.getD key []) [] List.nodup_nil
  refine ⟨hnd, fun comboId => ?_⟩
  rw [hmem]
  simp only [List.not_mem_nil, false_or, List.mem_flatMap, h.indexed,
    mem_foldl_indexFirstStep_iff, Dict.getD_empty]
  constructor
  · rintro ⟨key, hkey, combo, hcombo, hid, hfirst⟩
    exact ⟨combo, hcombo, hid, (firstStepMatches_iff combo b).mpr ⟨key, hkey, hfirst⟩⟩
  · rintro ⟨combo, hcombo, hid, hmatch⟩
    obtain ⟨key, hkey, hfirst⟩ := (firstStepMatches_iff combo b).mp hmatch
    exact ⟨key, hkey, combo, hcombo, hid, hfirst⟩

/-! ## Calls -/

theorem trackPress_counter (counter : ℕ) (c : ActiveCandidate A) (b : RuntimeComboBinding)
    (p : Bool) : counter ≤ (trackPress counter c b p).1 := by
  unfold trackPress
  split
  · exact le_refl _
  · exact Nat.le_succ _

theorem emitCompletion_counter (loop : PressLoop A) (comboId : String) (c : ActiveCandidate A)
    (b : RuntimeComboBinding) :
    (emitCompletion loop comboId c b).engine.pressCounter = loop.engine.pressCounter := by
  simp only [emitCompletion]
  split
  · split <;> rfl
  · rfl

theorem completeStored_counter (loop : PressLoop A) (comboId : String) (counter : ℕ)
    (c : ActiveCandidate A) (b : RuntimeComboBinding) (isFinal : Bool) (now : ℤ) :
    counter ≤ (completeStored loop comboId counter c b isFinal now).engine.pressCounter := by
  simp only [completeStored, emitCompletion_counter]
  exact trackPress_counter counter c b false

theorem newCandidate_counter (e : ComboEngine A) (combo : RuntimeCombo A)
    (held : Finset RuntimeComboBinding) (b : RuntimeComboBinding) :
    e.pressCounter ≤ (newCandidate e combo held b).1 :=
  List.foldlRecOn (motive := fun state : ℕ × ActiveCandidate A => e.pressCounter ≤ state.1) _ _
    (le_refl _) fun _ hstate _ _ => hstate.trans (trackPress_counter _ _ _ _)

theorem handlePressEvent_counter (e : ComboEngine A) (order : SetOrder) (b : RuntimeComboBinding)
    (now : ℤ) : e.pressCounter ≤ (handlePressEvent e order b now).engine.pressCounter := by
  have hwaiting : e.pressCounter ≤ (handleWaitingCandidatePress e b now).engine.pressCounter := by
    refine waitingPress_rule (R := fun engine _ _ => e.pressCounter ≤ engine.pressCounter) now
      (fun _ _ => le_refl _) ?_
    intro loop comboId c hloop _ _ _ _
    simp only [waitingRound]
    split
    · exact hloop
    · split
      · exact hloop.trans (completeStored_counter { loop with completedStep := true } _ _ _ _ _ _)
      · split
        · exact hloop
        · exact hloop.trans (trackPress_counter _ _ _ _)
  rw [handlePressEvent]
  simp only [(activateSatisfiedFirstSteps_eq _ order b now).1]
  refine firstStepLoop_rule (P := fun loop => e.pressCounter ≤ loop.engine.pressCounter) rfl
    hwaiting ?_
  intro loop combo _ hloop _
  rcases firstStepRound_cases order b now loop combo with ⟨matched, heq⟩ | ⟨held, -, -, heq⟩
  · rw [heq]
    exact hloop
  · rw [heq]
    exact (hloop.trans (newCandidate_counter _ _ _ _)).trans
      (completeStored_counter { loop with matchedExistingOrActivated := true } _ _ _ _ _ _)

/-- The tables that the engine keeps beside the held keys and the combos. -/
structure Tables (e : ComboEngine A) : Prop where
  filled : HeldFilled e
  ordered : Ordered e
  configured : Configured e

omit [PyStr] in
theorem Frame.pressOrder (h : Frame e e') :
    e'.heldPressOrder = e.heldPressOrder ∧ e'.combos = e.combos := by
  obtain ⟨cs, n, rfl⟩ := h
  exact ⟨rfl, rfl⟩

/-- Candidates may change, and the counter may go up. -/
theorem Tables.of_frame (h : Tables e) (hframe : Frame e e')
    (hcounter : e.pressCounter ≤ e'.pressCounter) : Tables e' :=
  ⟨h.filled.congr hframe.sameHeld,
    h.ordered.congr hframe.sameHeld.held (Frame.pressOrder hframe).1 hcounter,
    h.configured.congr (Frame.pressOrder hframe).2
      (StepRange.Frame.firstStepBindingIndex hframe)⟩

theorem Tables.recordHeldPress (h : Tables e) (b : RuntimeComboBinding) :
    Tables (recordHeldPress e b) := by
  unfold Engine.recordHeldPress
  split
  · exact h
  · rename_i hnew
    have hfilled : HeldFilled { e with
        pressCounter := e.pressCounter + 1
        heldBindings := insert b e.heldBindings
        heldPressOrder := e.heldPressOrder.insert b (e.pressCounter + 1) } :=
      ⟨h.filled.exact, h.filled.anySource, h.filled.anyHardware, h.filled.name⟩
    have hordered := h.ordered.insert b
    exact ⟨hfilled.indexHeldBinding b, ⟨hordered.held, hordered.counted, hordered.distinct⟩,
      ⟨h.configured.distinct, h.configured.indexed⟩⟩

theorem Tables.primeHeldBindings (h : Tables e) (held : Finset RuntimeComboBinding) :
    Tables (primeHeldBindings e held) :=
  List.foldlRecOn _ _ h fun _ he b _ => he.recordHeldPress b

theorem Tables.removeHeldBinding (h : Tables e) (b : RuntimeComboBinding) :
    Tables (removeHeldBinding e b) := by
  have hfilled : HeldFilled (Engine.removeHeldBinding e b) := by
    unfold Engine.removeHeldBinding
    split
    · have hsame : HeldFilled { e with
          heldBindings := e.heldBindings.erase b
          heldPressOrder := e.heldPressOrder.erase b } :=
        ⟨h.filled.exact, h.filled.anySource, h.filled.anyHardware, h.filled.name⟩
      exact hsame.deindexHeldBinding b
    · exact ⟨h.filled.exact, h.filled.anySource, h.filled.anyHardware, h.filled.name⟩
  have hrest : (Engine.removeHeldBinding e b).combos = e.combos ∧
      (Engine.removeHeldBinding e b).firstStepBindingIndex = e.firstStepBindingIndex ∧
      (Engine.removeHeldBinding e b).heldPressOrder = e.heldPressOrder.erase b ∧
      (Engine.removeHeldBinding e b).pressCounter = e.pressCounter := by
    unfold Engine.removeHeldBinding
    split <;> exact ⟨rfl, rfl, rfl, rfl⟩
  obtain ⟨hcombos, hindex, horder, hcounter⟩ := hrest
  refine ⟨hfilled, h.ordered.restrict (· ≠ b) ?_ ?_ (le_of_eq hcounter.symm),
    h.configured.congr hcombos hindex⟩
  · intro b'
    rw [(removeHeldBinding_frame e b).2.2, Finset.mem_erase, and_comm]
  · intro b' n
    rw [horder, Dict.get?_erase]
    by_cases heq : b' = b <;> simp [heq]

/-- The counter starts again only when no key is held. -/
theorem Tables.restart (h : Tables e) (hempty : e.heldBindings = ∅) :
    Tables { e with pressCounter := 0 } := by
  refine ⟨⟨h.filled.exact, h.filled.anySource, h.filled.anyHardware, h.filled.name⟩,
    ⟨h.ordered.held, ?_, h.ordered.distinct⟩, ⟨h.configured.distinct, h.configured.indexed⟩⟩
  intro b n hb
  have hheld := (h.ordered.held b).mp ⟨n, hb⟩
  rw [hempty] at hheld
  cases hheld

theorem Tables.finishEvent {outcome : PressOutcome A} (h : Tables outcome.engine)
    (expired had : Bool) : Tables (finishEvent expired had outcome).engine := by
  simp only [Engine.finishEvent]
  split
  · rename_i hempty
    exact h.restart hempty.2
  · exact h

theorem Tables.expireTimeouts (h : Tables e) (now : ℤ) :
    Tables (expireTimeouts e now).1 := h.of_frame ⟨_, _, rfl⟩ (le_refl _)

theorem handleReleaseEvent_counter (e : ComboEngine A) (event : ComboInputEvent) (now : ℤ) :
    (handleReleaseEvent e event now).1.pressCounter = e.pressCounter := by
  simp only [handleReleaseEvent, handleReleasingEvent, handleReleaseBeforeCompletion]
  split
  · split <;> rfl
  · split
    · rfl
    · split <;> rfl

theorem Tables.handlePressEvent (h : Tables e) (hcoherent : Coherent e) (order : SetOrder)
    {b : RuntimeComboBinding} (now : ℤ) (hb : bindingIsPulse b = false → b ∈ e.heldBindings) :
    Tables (handlePressEvent e order b now).engine := by
  have hframe := (eachCandidate_handlePressEvent (Q := fun _ _ => True) order now
    hcoherent.indexed hb (fun _ _ _ => trivial) (fun _ _ _ _ _ _ _ _ => trivial)
    (fun _ _ _ _ _ => trivial) (fun _ _ => trivial)).2
  exact h.of_frame hframe (handlePressEvent_counter e order b now)

theorem Tables.handleEvent (h : Tables e) (hcoherent : Coherent e) (order : SetOrder)
    (event : ComboInputEvent) (now : ℤ) :
    Tables (handleEvent e order event now).engine := by
  have hexp := h.expireTimeouts now
  have hcoherent' := hcoherent.expireTimeouts now
  simp only [Engine.handleEvent]
  split
  · exact hexp
  · split
    · apply Tables.finishEvent
      split
      · rename_i hpulse
        exact hexp.handlePressEvent hcoherent' order now fun hfalse => by simp [hpulse] at hfalse
      · refine (hexp.recordHeldPress event.binding).handlePressEvent
          (hcoherent'.recordHeldPress event.binding) order now fun _ => ?_
        rw [recordHeldPress_held]
        exact Finset.mem_insert_self _ _
    · apply Tables.finishEvent
      apply Tables.removeHeldBinding
      exact hexp.of_frame (handleReleaseEvent_frame _ event now)
        (le_of_eq (handleReleaseEvent_counter _ event now).symm)

theorem HeldFilled.rebuild (e : ComboEngine A) : HeldFilled (rebuildHeldBindingIndexes e) := by
  unfold rebuildHeldBindingIndexes
  exact List.foldlRecOn (motive := fun e' : ComboEngine A => HeldFilled e') _ _
    (heldFilled_empty rfl rfl rfl rfl) fun e' he' b _ => he'.indexHeldBinding b

/-- The index rebuild leaves what the indexes are built from. -/
theorem rebuild_kept (e : ComboEngine A) :
    (rebuildHeldBindingIndexes e).combos = e.combos ∧
      (rebuildHeldBindingIndexes e).firstStepBindingIndex = e.firstStepBindingIndex ∧
      (rebuildHeldBindingIndexes e).heldPressOrder = e.heldPressOrder ∧
      (rebuildHeldBindingIndexes e).pressCounter = e.pressCounter :=
  List.foldlRecOn (motive := fun e' : ComboEngine A => e'.combos = e.combos ∧
    e'.firstStepBindingIndex = e.firstStepBindingIndex ∧ e'.heldPressOrder = e.heldPressOrder ∧
    e'.pressCounter = e.pressCounter) _ _ ⟨rfl, rfl, rfl, rfl⟩ fun _ he' _ _ => he'

theorem Tables.drop (h : Tables e) (hardwareId : String) (source : Option String) :
    Tables (dropCandidatesForBindingScope e hardwareId source).1 := by
  by_cases hid : hardwareId = ""
  · simpa only [dropCandidatesForBindingScope, if_pos hid] using h
  · let e' : ComboEngine A := { e with
      candidates := e.candidates.filter fun _ c => !candidateMatchesScope c hardwareId source
      heldBindings := e.heldBindings.filter fun b => ¬ bindingInScope b hardwareId source
      heldPressOrder := e.heldPressOrder.filter fun b _ =>
        b ∈ e.heldBindings.filter fun b => ¬ bindingInScope b hardwareId source }
    obtain ⟨hcombos, hindex, horder, hcounter⟩ := rebuild_kept e'
    have hheld := (rebuild_frame e').2.2
    have hrebuilt : Tables (rebuildHeldBindingIndexes e') := by
      refine ⟨HeldFilled.rebuild e', h.ordered.restrict
        (fun b => ¬ bindingInScope b hardwareId source = true) ?_ ?_ (le_of_eq hcounter.symm),
        h.configured.congr hcombos hindex⟩
      · intro b
        rw [hheld]
        simp [e']
      · intro b n
        rw [horder]
        simp only [e', Dict.get?_filter_eq_some, Finset.mem_filter, decide_eq_true_eq]
        constructor
        · rintro ⟨hget, -, hscope⟩
          exact ⟨hget, hscope⟩
        · rintro ⟨hget, hscope⟩
          exact ⟨hget, (h.ordered.held b).mp ⟨n, hget⟩, hscope⟩
    simp only [dropCandidatesForBindingScope, if_neg hid]
    split
    · rename_i hempty
      exact hrebuilt.restart hempty.2
    · exact hrebuilt

omit [PyStr] in
/-- A new configuration names each combo once. -/
def DistinctIds : EngineOp A → Prop
  | .setCombos combos _ => (combos.map (·.id)).Nodup
  | _ => True

theorem Tables.step (h : Tables e) (hcoherent : Coherent e) {op : EngineOp A}
    (hids : DistinctIds op) (hstep : step e op = some e') : Tables e' := by
  cases op with
  | setCombos combos ids =>
    cases hstep
    cases ids with
    | none =>
      exact ⟨heldFilled_empty rfl rfl rfl rfl, ordered_empty rfl rfl, ⟨hids, rfl⟩⟩
    | some ids =>
      exact ⟨h.filled.congr ⟨rfl, rfl, rfl, rfl, rfl⟩, h.ordered.congr rfl rfl (le_refl _),
        ⟨hids, rfl⟩⟩
  | reset =>
    cases hstep
    exact ⟨heldFilled_empty rfl rfl rfl rfl, ordered_empty rfl rfl,
      ⟨h.configured.distinct, h.configured.indexed⟩⟩
  | primeHeldBindings held =>
    cases hstep
    exact h.primeHeldBindings held
  | dropCandidatesForBindingScope hardwareId source =>
    cases hstep
    exact h.drop hardwareId source
  | expireTimeouts now =>
    cases hstep
    exact h.expireTimeouts now
  | handleEvent order event now =>
    cases hstep
    exact h.handleEvent hcoherent order event now

theorem tables_empty : Tables ({} : ComboEngine A) :=
  ⟨heldFilled_empty rfl rfl rfl rfl, ordered_empty rfl rfl, ⟨List.nodup_nil, rfl⟩⟩

/-- The tables of the engine say what a scan over its held keys and combos finds. -/
structure AgreesWithScan (e : ComboEngine A) : Prop where
  partition : HeldIndexed e
  filled : HeldFilled e
  pressOrder : ∀ b, (e.heldPressOrder.get? b).isSome = true ↔ b ∈ e.heldBindings
  pressOrder_distinct : ∀ b b' n, e.heldPressOrder.get? b = some n →
    e.heldPressOrder.get? b' = some n → b = b'
  firstStep_once : ∀ b, (candidateFirstStepComboIds e b).Nodup
  firstStep : ∀ b comboId, comboId ∈ candidateFirstStepComboIds e b ↔
    ∃ combo ∈ e.combos, combo.id = comboId ∧ firstStepMatches combo b = true
  held : ∀ expected b, b ∈ heldCandidatesForBinding e expected ↔
    b ∈ e.heldBindings ∧ bindingMatches expected b = true

/-- In every reachable state each lookup agrees with the scan. -/
theorem indexes_agree (ops : List (EngineOp A)) (hids : ∀ op ∈ ops, DistinctIds op)
    (e : ComboEngine A) (hrun : run step {} ops = some e) : AgreesWithScan e := by
  have hguard : Guarded step (fun _ op => DistinctIds op ∧ True) ({} : ComboEngine A) ops :=
    guarded_and hids (guarded_true _ _)
  have hinv := guarded_run_invariant (I := fun e : ComboEngine A => Coherent e ∧ Tables e)
    (fun _ op _ h hid hstep => ⟨h.1.step op hstep, h.2.step h.1 hid.1 hstep⟩)
    ⟨coherent_empty, tables_empty⟩ hguard hrun
  obtain ⟨hcoherent, htables⟩ := hinv
  refine ⟨hcoherent.indexed, htables.filled, ?_, htables.ordered.distinct, ?_, ?_, ?_⟩
  · intro b
    rw [Option.isSome_iff_exists]
    exact htables.ordered.held b
  · exact fun b => (candidateFirstStepComboIds_spec htables.configured b).1
  · exact fun b => (candidateFirstStepComboIds_spec htables.configured b).2
  · exact mem_heldCandidatesForBinding hcoherent.indexed

end Engine

attribute [local instance] Names.asciiStr

/-- A chord on any keyboard and a key of one keyboard. -/
def scanCombos : List (RuntimeCombo Unit) :=
  [{ id := "c", name := "chord", steps := [{ bindings := [⟨"", "ctrl", ""⟩, ⟨"", "key_a", ""⟩] }] },
    { id := "k", name := "key", steps := [{ bindings := [⟨"kbd", "key_b", "if0"⟩] }] }]

theorem indexes_agree_pressed :
    ∃ e, run step ({} : ComboEngine Unit) [.setCombos scanCombos none,
        .handleEvent nameOrder ⟨⟨"kbd", "key_leftctrl", "if0"⟩, 1⟩ 0,
        .handleEvent nameOrder ⟨⟨"kbd", "key_b", "if0"⟩, 1⟩ 0] = some e ∧ AgreesWithScan e := by
  refine ⟨_, rfl, indexes_agree [.setCombos scanCombos none,
    .handleEvent nameOrder ⟨⟨"kbd", "key_leftctrl", "if0"⟩, 1⟩ 0,
    .handleEvent nameOrder ⟨⟨"kbd", "key_b", "if0"⟩, 1⟩ 0] ?_ _ rfl⟩
  intro op hop
  simp only [List.mem_cons, List.not_mem_nil, or_false] at hop
  rcases hop with rfl | rfl | rfl
  · simp [DistinctIds, scanCombos]
  · trivial
  · trivial

end Keymasq.Combo.Indexes
