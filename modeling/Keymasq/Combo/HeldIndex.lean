import Keymasq.Foundation.Assignment
import Keymasq.Combo.Engine

/-!
# The indexes of the held keys

Each of the four indexes sorts the held keys by one part of their normalised
names, so a lookup returns exactly the held keys that match a binding.
-/

namespace Keymasq.Combo.HeldIndex
open Foundation Foundation.Assignment Names Engine

variable [PyStr] {A : Type*}

def anySourceKey (b : RuntimeComboBinding) : String × String :=
  ((normalizedBindingParts b).1, (normalizedBindingParts b).2.1)
def anyHardwareKey (b : RuntimeComboBinding) : String × String :=
  (normalizedBindingParts b).2
def nameKey (b : RuntimeComboBinding) : String := (normalizedBindingParts b).2.1

/-- The four indexes sort exactly the held keys. -/
structure HeldIndexed (e : ComboEngine A) : Prop where
  exact : Dict.Bucketed normalizedBindingParts e.heldBindings e.heldBindingIndex
  anySource : Dict.Bucketed anySourceKey e.heldBindings e.heldBindingAnySourceIndex
  anyHardware : Dict.Bucketed anyHardwareKey e.heldBindings e.heldBindingAnyHardwareIndex
  name : Dict.Bucketed nameKey e.heldBindings e.heldBindingAnyHardwareAnySourceIndex

/-- Held keys and indexes are the same; candidates and counters may differ. -/
structure SameHeld (e e' : ComboEngine A) : Prop where
  held : e'.heldBindings = e.heldBindings
  exact : e'.heldBindingIndex = e.heldBindingIndex
  anySource : e'.heldBindingAnySourceIndex = e.heldBindingAnySourceIndex
  anyHardware : e'.heldBindingAnyHardwareIndex = e.heldBindingAnyHardwareIndex
  name : e'.heldBindingAnyHardwareAnySourceIndex = e.heldBindingAnyHardwareAnySourceIndex

omit [PyStr] in
theorem SameHeld.refl (e : ComboEngine A) : SameHeld e e := ⟨rfl, rfl, rfl, rfl, rfl⟩

variable {e : ComboEngine A}

theorem HeldIndexed.congr {e' : ComboEngine A} (h : HeldIndexed e) (hs : SameHeld e e') :
    HeldIndexed e' := by
  constructor
  · rw [hs.held, hs.exact]
    exact h.exact
  · rw [hs.held, hs.anySource]
    exact h.anySource
  · rw [hs.held, hs.anyHardware]
    exact h.anyHardware
  · rw [hs.held, hs.name]
    exact h.name

theorem heldIndexed_empty : HeldIndexed ({} : ComboEngine A) :=
  ⟨Dict.bucketed_empty _, Dict.bucketed_empty _, Dict.bucketed_empty _, Dict.bucketed_empty _⟩

theorem heldIndexed_reset (e : ComboEngine A) : HeldIndexed (reset e) :=
  ⟨Dict.bucketed_empty _, Dict.bucketed_empty _, Dict.bucketed_empty _, Dict.bucketed_empty _⟩

/-- Indexing a key accounts for one more held key. -/
theorem heldIndexed_indexHeldBinding (e' : ComboEngine A) (b : RuntimeComboBinding)
    (h : HeldIndexed e) (hs : SameHeld { e with heldBindings := insert b e.heldBindings } e') :
    HeldIndexed (indexHeldBinding e' b) := by
  constructor
  · simpa only [indexHeldBinding, hs.held, hs.exact] using h.exact.addTo b
  · simpa only [indexHeldBinding, anySourceKey, hs.held, hs.anySource] using h.anySource.addTo b
  · simpa only [indexHeldBinding, anyHardwareKey, hs.held, hs.anyHardware] using h.anyHardware.addTo b
  · simpa only [indexHeldBinding, nameKey, hs.held, hs.name] using h.name.addTo b

theorem heldIndexed_deindexHeldBinding {e' : ComboEngine A} (b : RuntimeComboBinding)
    (h : HeldIndexed e) (hs : SameHeld { e with heldBindings := e.heldBindings.erase b } e') :
    HeldIndexed (deindexHeldBinding e' b) := by
  constructor
  · simpa only [deindexHeldBinding, hs.held, hs.exact] using h.exact.discardFrom b
  · simpa only [deindexHeldBinding, anySourceKey, hs.held, hs.anySource] using h.anySource.discardFrom b
  · simpa only [deindexHeldBinding, anyHardwareKey, hs.held, hs.anyHardware] using h.anyHardware.discardFrom b
  · simpa only [deindexHeldBinding, nameKey, hs.held, hs.name] using h.name.discardFrom b

theorem heldIndexed_recordHeldPress (h : HeldIndexed e) (b : RuntimeComboBinding) :
    HeldIndexed (recordHeldPress e b) := by
  unfold recordHeldPress
  split
  · exact h
  · exact heldIndexed_indexHeldBinding _ b h ⟨rfl, rfl, rfl, rfl, rfl⟩

theorem heldIndexed_removeHeldBinding (h : HeldIndexed e) (b : RuntimeComboBinding) :
    HeldIndexed (removeHeldBinding e b) := by
  unfold removeHeldBinding
  split
  · exact heldIndexed_deindexHeldBinding b h ⟨rfl, rfl, rfl, rfl, rfl⟩
  · exact h.congr ⟨rfl, rfl, rfl, rfl, rfl⟩

/-- Indexing only adds to the buckets. -/
theorem foldl_indexHeldBinding_held (bs : List RuntimeComboBinding) (e : ComboEngine A) :
    (bs.foldl indexHeldBinding e).heldBindings = e.heldBindings :=
  List.foldlRecOn (motive := fun e' : ComboEngine A => e'.heldBindings = e.heldBindings) _ _ rfl
    fun _ he' _ _ => he'

theorem foldl_indexHeldBinding_bucketed (bs : List RuntimeComboBinding)
    (items : Finset RuntimeComboBinding) (h : HeldIndexed { e with heldBindings := items }) :
    HeldIndexed { bs.foldl indexHeldBinding e with heldBindings := items ∪ bs.toFinset } := by
  induction bs generalizing e items with
  | nil => simpa using h
  | cons b bs ih =>
    have hone : HeldIndexed { indexHeldBinding e b with heldBindings := insert b items } :=
      (heldIndexed_indexHeldBinding { e with heldBindings := insert b items } b h
        ⟨rfl, rfl, rfl, rfl, rfl⟩).congr ⟨rfl, rfl, rfl, rfl, rfl⟩
    have hset : insert b items ∪ bs.toFinset = items ∪ (b :: bs).toFinset := by
      ext x
      simp only [List.toFinset_cons, Finset.mem_union, Finset.mem_insert]
      tauto
    simpa only [List.foldl_cons, hset] using ih _ hone

theorem heldIndexed_rebuildHeldBindingIndexes (e : ComboEngine A) :
    HeldIndexed (rebuildHeldBindingIndexes e) := by
  have h := foldl_indexHeldBinding_bucketed (sortedBindings e.heldBindings)
    (e := { e with
      heldBindingIndex := ∅
      heldBindingAnySourceIndex := ∅
      heldBindingAnyHardwareIndex := ∅
      heldBindingAnyHardwareAnySourceIndex := ∅ }) ∅
    ⟨Dict.bucketed_empty _, Dict.bucketed_empty _, Dict.bucketed_empty _, Dict.bucketed_empty _⟩
  refine h.congr ⟨?_, rfl, rfl, rfl, rfl⟩
  rw [rebuildHeldBindingIndexes, foldl_indexHeldBinding_held]
  simp [sortedBindings]

/-- A lookup finds exactly the held keys that match. -/
theorem mem_heldCandidatesForBinding (h : HeldIndexed e) (expected b : RuntimeComboBinding) :
    b ∈ heldCandidatesForBinding e expected ↔
      b ∈ e.heldBindings ∧ bindingMatches expected b = true := by
  simp only [heldCandidatesForBinding, bindingMatches, decide_eq_true_eq]
  split
  · rename_i hc
    rw [h.exact]
    simp only [normalizedBindingParts, Prod.mk.injEq] at hc ⊢
    grind
  · split
    · rw [h.anySource]
      simp only [normalizedBindingParts, anySourceKey, Prod.mk.injEq] at *
      grind
    · split
      · rw [h.anyHardware]
        simp only [normalizedBindingParts, anyHardwareKey, Prod.mk.injEq] at *
        grind
      · rw [h.name]
        simp only [normalizedBindingParts, nameKey] at *
        grind

/-- The keys picked for the rest of a step: new ones, each matching its binding. -/
theorem heldBindingsLoop_spec (h : HeldIndexed e) (order : SetOrder) (current : RuntimeComboBinding)
    (bindings : List RuntimeComboBinding) (before : Finset RuntimeComboBinding)
    (currentMatched : Bool) (hcurrent : currentMatched = false → current ∉ before)
    {held : Finset RuntimeComboBinding}
    (hloop : heldBindingsLoop e order current bindings before currentMatched = some held) :
    ∃ dealt : List RuntimeComboBinding,
      List.Forall₂ (fun x y => bindingMatches x y = true) bindings dealt ∧ dealt.Nodup ∧
        (∀ b ∈ dealt, b ∉ before) ∧ (∀ b ∈ dealt, b ∈ e.heldBindings ∨ b = current) ∧
        held = before ∪ dealt.toFinset := by
  induction bindings generalizing before currentMatched with
  | nil =>
    cases hloop
    exact ⟨[], List.Forall₂.nil, List.nodup_nil, by simp, by simp, by simp⟩
  | cons expected rest ih =>
    rw [heldBindingsLoop] at hloop
    -- Each round picks a key outside `before`; the recursion adds it there.
    have hpick : ∀ (actual : RuntimeComboBinding) (currentMatched' : Bool),
        bindingMatches expected actual = true → actual ∉ before →
        (actual ∈ e.heldBindings ∨ actual = current) →
        (currentMatched' = false → current ∉ insert actual before) →
        heldBindingsLoop e order current rest (insert actual before) currentMatched' = some held →
        ∃ dealt : List RuntimeComboBinding,
          List.Forall₂ (fun x y => bindingMatches x y = true) (expected :: rest) dealt ∧
            dealt.Nodup ∧ (∀ b ∈ dealt, b ∉ before) ∧
            (∀ b ∈ dealt, b ∈ e.heldBindings ∨ b = current) ∧
            held = before ∪ dealt.toFinset := by
      intro actual currentMatched' hmatch hnew hheld hcur hrest
      obtain ⟨dealt, hall, hnd, hout, hin, heq⟩ := ih (insert actual before) currentMatched' hcur hrest
      refine ⟨actual :: dealt, List.Forall₂.cons hmatch hall, ?_, ?_, ?_, ?_⟩
      · exact List.nodup_cons.mpr ⟨fun hm => hout actual hm (Finset.mem_insert_self _ _), hnd⟩
      · intro b hb
        rcases List.mem_cons.mp hb with rfl | hb
        · exact hnew
        · exact fun hm => hout b hb (Finset.mem_insert_of_mem hm)
      · intro b hb
        rcases List.mem_cons.mp hb with rfl | hb
        · exact hheld
        · exact hin b hb
      · rw [heq, List.toFinset_cons, Finset.insert_union, Finset.union_insert]
    split at hloop
    · rename_i hc
      exact hpick current true hc.2 (hcurrent hc.1) (Or.inr rfl) (by simp) hloop
    · rename_i hc
      split at hloop
      · cases hloop
      · rename_i actual hfind
        have hmem := List.mem_of_find?_eq_some hfind
        rw [order.mem_iter, mem_heldCandidatesForBinding h] at hmem
        have hnew : actual ∉ before := by simpa using List.find?_some hfind
        refine hpick actual currentMatched hmem.2 hnew (Or.inl hmem.1) ?_ hloop
        intro hfalse hcur
        rcases Finset.mem_insert.mp hcur with rfl | hcur
        · exact hc ⟨hfalse, hmem.2⟩
        · exact hcurrent hfalse hcur

/-- The search for a first step deals held keys, or the current one, to its bindings. -/
theorem assignable_of_heldBindingsForStep (h : HeldIndexed e) {order : SetOrder}
    {step : RuntimeComboStep} {current : RuntimeComboBinding} {held : Finset RuntimeComboBinding}
    (hheld : heldBindingsForStep e order step current = some held) :
    Assignable (fun x y => bindingMatches x y = true) step.bindings held ∧
      ∀ b ∈ held, b ∈ e.heldBindings ∨ b = current := by
  obtain ⟨dealt, hall, hnd, -, hin, rfl⟩ :=
    heldBindingsLoop_spec h order current step.bindings ∅ false (by simp) hheld
  refine ⟨⟨dealt, hnd, by simp, hall⟩, fun b hb => hin b ?_⟩
  simpa using hb

end Keymasq.Combo.HeldIndex
