import Mathlib.Data.List.Sort

/-!
# Sorting by a numeric key

A stable sort: items of equal key keep their order.
-/

namespace Foundation.Sorting

variable {α : Type*}

/-- `sorted(items, key=key)`. -/
def sortedBy (key : α → ℕ) (items : List α) : List α :=
  items.insertionSort fun a b => key a ≤ key b

/-- `sorted(items, key=key, reverse=True)`; equal keys keep their order here too. -/
def sortedByDesc (key : α → ℕ) (items : List α) : List α :=
  items.insertionSort fun a b => key b ≤ key a

theorem sortedBy_perm (key : α → ℕ) (items : List α) : (sortedBy key items).Perm items :=
  List.perm_insertionSort _ items

@[simp] theorem mem_sortedBy {key : α → ℕ} {items : List α} {a : α} :
    a ∈ sortedBy key items ↔ a ∈ items :=
  (sortedBy_perm key items).mem_iff

theorem sortedBy_nodup {key : α → ℕ} {items : List α} (h : items.Nodup) :
    (sortedBy key items).Nodup :=
  (sortedBy_perm key items).nodup_iff.mpr h

theorem sortedBy_pairwise (key : α → ℕ) (items : List α) :
    (sortedBy key items).Pairwise fun a b => key a ≤ key b := by
  have hsorted := List.pairwise_insertionSort (fun a b : α => key a ≤ key b) items
  exact hsorted

/-- Items already in order stay in that order. -/
theorem sublist_sortedBy {key : α → ℕ} {part items : List α}
    (hpart : part.Pairwise fun a b => key a ≤ key b) (hsub : part.Sublist items) :
    part.Sublist (sortedBy key items) :=
  List.sublist_insertionSort hpart hsub

/-- `bisect.insort(items, a, key=key)`: after the items of the same key. -/
def insortBy (key : α → ℕ) (a : α) (items : List α) : List α :=
  items.takeWhile (fun b => key b ≤ key a) ++ a :: items.dropWhile fun b => key b ≤ key a

theorem insortBy_perm (key : α → ℕ) (a : α) (items : List α) :
    (insortBy key a items).Perm (a :: items) := by
  have hsplit := List.takeWhile_append_dropWhile (p := fun b => decide (key b ≤ key a))
    (l := items)
  calc insortBy key a items
      _ = items.takeWhile (fun b => key b ≤ key a) ++
          a :: items.dropWhile (fun b => key b ≤ key a) := rfl
      _ |>.Perm (a :: (items.takeWhile (fun b => key b ≤ key a) ++
          items.dropWhile fun b => key b ≤ key a)) := List.perm_middle
      _ = a :: items := by rw [hsplit]

theorem insortBy_pairwise {key : α → ℕ} {a : α} {items : List α}
    (h : items.Pairwise fun b c => key b ≤ key c) :
    (insortBy key a items).Pairwise fun b c => key b ≤ key c := by
  induction items with
  | nil => simp [insortBy]
  | cons b items ih =>
    rw [List.pairwise_cons] at h
    by_cases hb : key b ≤ key a
    · have hcons : insortBy key a (b :: items) = b :: insortBy key a items := by
        simp [insortBy, hb]
      rw [hcons, List.pairwise_cons]
      refine ⟨fun c hc => ?_, ih h.2⟩
      rcases List.mem_cons.mp ((insortBy_perm key a items).mem_iff.mp hc) with rfl | hc
      · exact hb
      · exact h.1 c hc
    · have hcons : insortBy key a (b :: items) = a :: b :: items := by
        simp [insortBy, hb]
      rw [hcons, List.pairwise_cons, List.pairwise_cons]
      refine ⟨fun c hc => ?_, h⟩
      rcases List.mem_cons.mp hc with rfl | hc
      · omega
      · have hbc := h.1 c hc
        omega

/-! ## Keys of any linear order -/

variable {κ : Type*} [LinearOrder κ]

/-- `sorted(items, key=key)` for keys that need not be numbers. -/
def sortedOn (key : α → κ) (items : List α) : List α :=
  items.insertionSort fun a b => key a ≤ key b

theorem sortedOn_perm (key : α → κ) (items : List α) : (sortedOn key items).Perm items :=
  List.perm_insertionSort _ items

theorem sortedOn_pairwise (key : α → κ) (items : List α) :
    (sortedOn key items).Pairwise fun a b => key a ≤ key b := by
  have hsorted := List.pairwise_insertionSort (fun a b : α => key a ≤ key b) items
  exact hsorted

/-- Where the key tells the items apart that are kept, their order before the sort does not
matter. -/
theorem filter_sortedOn_eq_of_perm {key : α → κ} {p : α → Bool} {items items' : List α}
    (h : items.Perm items')
    (hkey : ∀ a ∈ items, ∀ b ∈ items, p a = true → p b = true → key a = key b → a = b) :
    (sortedOn key items).filter p = (sortedOn key items').filter p := by
  have hperm : ((sortedOn key items).filter p).Perm ((sortedOn key items').filter p) :=
    ((sortedOn_perm key items).trans (h.trans (sortedOn_perm key items').symm)).filter p
  refine hperm.eq_of_pairwise ?_ ((sortedOn_pairwise key items).filter p)
    ((sortedOn_pairwise key items').filter p)
  intro a b ha hb hab hba
  obtain ⟨ha', hpa⟩ := List.mem_filter.mp ha
  obtain ⟨hb', hpb⟩ := List.mem_filter.mp hb
  exact hkey a ((sortedOn_perm key items).mem_iff.mp ha') b
    (h.mem_iff.mpr ((sortedOn_perm key items').mem_iff.mp hb')) hpa hpb (le_antisymm hab hba)

/-- Where the key tells the items apart, their order before the sort does not matter. -/
theorem sortedOn_eq_of_perm {key : α → κ} {items items' : List α} (h : items.Perm items')
    (hkey : ∀ a ∈ items, ∀ b ∈ items, key a = key b → a = b) :
    sortedOn key items = sortedOn key items' := by
  have hfilter := filter_sortedOn_eq_of_perm (p := fun _ => true) h
    fun a ha b hb _ _ => hkey a ha b hb
  rwa [List.filter_true, List.filter_true] at hfilter

/-- The sort is stable: two items of one key keep their order. -/
theorem pair_sublist_sortedOn {key : α → κ} {a b : α} {items : List α} (hkey : key a = key b)
    (h : [a, b].Sublist items) : [a, b].Sublist (sortedOn key items) := by
  refine List.sublist_insertionSort ?_ h
  rw [List.pairwise_pair]
  exact hkey.le

/-- What holds from an item to the later ones of no smaller key, and back from those of a smaller
key, holds along the sorted list. -/
theorem sortedOn_pairwise_of {key : α → κ} {P : α → α → Prop} {items : List α}
    (h : items.Pairwise fun a b => (key a ≤ key b → P a b) ∧ (key b < key a → P b a)) :
    (sortedOn key items).Pairwise P := by
  induction items with
  | nil => exact List.Pairwise.nil
  | cons a items ih =>
    obtain ⟨hhead, htail⟩ := List.pairwise_cons.mp h
    have hsorted := sortedOn_pairwise key items
    have hmem : ∀ b ∈ sortedOn key items, b ∈ items :=
      fun b hb => (sortedOn_perm key items).mem_iff.mp hb
    change ((sortedOn key items).orderedInsert (fun a b => key a ≤ key b) a).Pairwise P
    have hrest := ih htail
    generalize sortedOn key items = rest at hrest hsorted hmem
    induction rest with
    | nil => exact List.pairwise_singleton P a
    | cons b rest ihrest =>
      obtain ⟨hb, hrest⟩ := List.pairwise_cons.mp hrest
      obtain ⟨hle, hsorted⟩ := List.pairwise_cons.mp hsorted
      rw [List.orderedInsert_cons]
      split
      case isTrue hab =>
        refine List.pairwise_cons.mpr ⟨?_, List.pairwise_cons.mpr ⟨hb, hrest⟩⟩
        intro c hc
        refine (hhead c (hmem c hc)).1 ?_
        rcases List.mem_cons.mp hc with rfl | hc
        · exact hab
        · exact hab.trans (hle c hc)
      case isFalse hab =>
        refine List.pairwise_cons.mpr
          ⟨?_, ihrest hrest hsorted fun c hc => hmem c (List.mem_cons_of_mem b hc)⟩
        intro c hc
        rcases (List.mem_orderedInsert _).mp hc with rfl | hc
        · exact (hhead b (hmem b List.mem_cons_self)).2 (not_le.mp hab)
        · exact hb c hc

theorem sortedOn_map {β : Type*} (f : β → α) (key : α → κ) (items : List β) :
    sortedOn key (items.map f) = (sortedOn (fun b => key (f b)) items).map f :=
  (List.map_insertionSort _ _ f items fun _ _ _ _ => Iff.rfl).symm

end Foundation.Sorting
