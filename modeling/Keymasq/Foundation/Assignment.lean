import Mathlib.Combinatorics.Hall.Basic
import Mathlib.Data.Fintype.EquivFin
import Mathlib.Data.List.Nodup
import Mathlib.Data.List.OfFn

/-!
# Assigning items to slots

As many distinct items as there are slots can be dealt out to the slots exactly
when no group of items crowds into fewer slots than it has members (Hall).
-/

namespace Foundation.Assignment

variable {α β : Type*} {fits : α → β → Prop}

/-- The items can be listed in slot order, each fitting its slot. -/
def Assignable [DecidableEq β] (fits : α → β → Prop) (slots : List α) (items : Finset β) : Prop :=
  ∃ dealt : List β, dealt.Nodup ∧ dealt.toFinset = items ∧ List.Forall₂ fits slots dealt

/-- The positions of the slots that one of the items fits. -/
def slotsOf (fits : α → β → Prop) [DecidableRel fits] (slots : List α) (items : Finset β) :
    Finset (Fin slots.length) :=
  Finset.univ.filter fun i => ∃ y ∈ items, fits (slots.get i) y

/-- Some of the items fit fewer slots than there are of them. -/
def Crowded (fits : α → β → Prop) [DecidableRel fits] (slots : List α) (items : Finset β) : Prop :=
  ∃ group ∈ items.powerset, (slotsOf fits slots group).card < group.card

instance (fits : α → β → Prop) [DecidableRel fits] [DecidableEq β] (slots : List α)
    (items : Finset β) : Decidable (Crowded fits slots items) :=
  inferInstanceAs (Decidable (∃ group ∈ items.powerset,
    (slotsOf fits slots group).card < group.card))

theorem exists_slot_of_assignable [DecidableEq β] {slots : List α} {items : Finset β}
    (h : Assignable fits slots items) :
    ∃ slot : items → Fin slots.length,
      Function.Injective slot ∧ ∀ y, fits (slots.get (slot y)) y := by
  obtain ⟨dealt, -, hitems, hfits⟩ := h
  rw [List.forall₂_iff_get] at hfits
  obtain ⟨hlen, hfits⟩ := hfits
  have hmem : ∀ y : items, (y : β) ∈ dealt := by
    intro y
    rw [← List.mem_toFinset, hitems]
    exact y.2
  have hlt : ∀ y : items, dealt.idxOf (y : β) < dealt.length := fun y =>
    List.idxOf_lt_length_of_mem (hmem y)
  refine ⟨fun y => ⟨dealt.idxOf (y : β), hlen.symm ▸ hlt y⟩, ?_, ?_⟩
  · intro y z hyz
    have hidx : dealt.idxOf (y : β) = dealt.idxOf (z : β) := by simpa using hyz
    exact Subtype.ext ((List.idxOf_inj (hmem y)).mp hidx)
  · intro y
    have hfit := hfits (dealt.idxOf (y : β)) (hlen.symm ▸ hlt y) (hlt y)
    simpa using hfit

theorem assignable_of_exists_slot [DecidableEq β] {slots : List α} {items : Finset β}
    (hcard : items.card = slots.length)
    (h : ∃ slot : items → Fin slots.length,
      Function.Injective slot ∧ ∀ y, fits (slots.get (slot y)) y) :
    Assignable fits slots items := by
  obtain ⟨slot, hinj, hfits⟩ := h
  have hbij : Function.Bijective slot :=
    (Fintype.bijective_iff_injective_and_card slot).mpr ⟨hinj, by simpa using hcard⟩
  let item := (Equiv.ofBijective slot hbij).symm
  have hslot : ∀ i, slot (item i) = i := (Equiv.ofBijective slot hbij).apply_symm_apply
  refine ⟨List.ofFn fun i => (item i : β), ?_, ?_, ?_⟩
  · rw [List.nodup_ofFn]
    exact Subtype.val_injective.comp item.injective
  · ext y
    rw [List.mem_toFinset, List.mem_ofFn]
    constructor
    · rintro ⟨i, rfl⟩
      exact (item i).2
    · intro hy
      have hback : item (slot ⟨y, hy⟩) = ⟨y, hy⟩ :=
        (Equiv.ofBijective slot hbij).symm_apply_apply ⟨y, hy⟩
      exact ⟨slot ⟨y, hy⟩, congrArg Subtype.val hback⟩
  · rw [List.forall₂_iff_get]
    refine ⟨by simp, fun i h₁ h₂ => ?_⟩
    have hfit := hfits (item ⟨i, h₁⟩)
    rw [hslot] at hfit
    simpa using hfit

theorem assignable_iff_not_crowded [DecidableEq β] [DecidableRel fits] {slots : List α}
    {items : Finset β} (hcard : items.card = slots.length) :
    Assignable fits slots items ↔ ¬ Crowded fits slots items := by
  have hhall := Finset.all_card_le_biUnion_card_iff_exists_injective
    fun y : items => slotsOf fits slots {(y : β)}
  have hunion : ∀ s : Finset items,
      s.biUnion (fun y => slotsOf fits slots {(y : β)}) =
        slotsOf fits slots (s.map (Function.Embedding.subtype _)) := by
    intro s
    ext i
    simp [slotsOf]
  have hslots : (∃ slot : items → Fin slots.length,
      Function.Injective slot ∧ ∀ y, fits (slots.get (slot y)) y) ↔ ¬ Crowded fits slots items := by
    have hone : ∀ (slot : items → Fin slots.length) (y : items),
        slot y ∈ slotsOf fits slots {(y : β)} ↔ fits (slots.get (slot y)) y := by
      intro slot y
      simp [slotsOf]
    simp only [hone] at hhall
    rw [← hhall]
    constructor
    · rintro hall ⟨group, hgroup, hlt⟩
      rw [Finset.mem_powerset] at hgroup
      have hle := hall (group.subtype (· ∈ items))
      rw [hunion, Finset.subtype_map_of_mem hgroup] at hle
      rw [Finset.card_subtype, Finset.filter_true_of_mem hgroup] at hle
      omega
    · intro hnot s
      by_contra hlt
      refine hnot ⟨s.map (Function.Embedding.subtype _), ?_, ?_⟩
      · rw [Finset.mem_powerset]
        intro y hy
        obtain ⟨z, -, rfl⟩ := Finset.mem_map.mp hy
        exact z.2
      · rw [Finset.card_map, ← hunion]
        omega
  rw [← hslots]
  exact ⟨exists_slot_of_assignable, assignable_of_exists_slot hcard⟩

end Foundation.Assignment
