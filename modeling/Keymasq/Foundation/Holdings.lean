import Keymasq.Foundation.Dict
import Mathlib.Data.Finset.Card

/-!
# Counted holdings

Holders record the items they hold, and a table keeps, for each item, how many
holders record it. The table has an entry exactly for the items that are held.
-/

namespace Foundation

/-- What each holder records, and the count of every item. -/
structure Holdings (ι κ : Type*) where
  held : Dict ι (List κ)
  count : Dict κ Int

namespace Holdings

variable {ι κ : Type*} [DecidableEq ι] [DecidableEq κ]

instance : EmptyCollection (Holdings ι κ) := ⟨⟨∅, ∅⟩⟩
instance : Inhabited (Holdings ι κ) := ⟨∅⟩

instance : DecidableEq (Holdings ι κ) := fun g h =>
  decidable_of_iff (g.held = h.held ∧ g.count = h.count) (by cases g; cases h; simp)

def heldBy (h : Holdings ι κ) (i : ι) : List κ := h.held.getD i []

/-- The holders that record the item. -/
def holders (h : Holdings ι κ) (k : κ) : Finset ι := h.held.keys.toFinset.filter (k ∈ h.heldBy ·)

def countOf (h : Holdings ι κ) (k : κ) : Int := h.count.getD k 0

/-- One holder less: the entry goes with the last one. -/
def decrement (count : Dict κ Int) (k : κ) : Dict κ Int :=
  if count.getD k 0 ≤ 1 then count.erase k else count.insert k (count.getD k 0 - 1)

def add (h : Holdings ι κ) (i : ι) (k : κ) : Holdings ι κ :=
  if k ∈ h.heldBy i then h
  else { held := h.held.insert i (h.heldBy i ++ [k]), count := h.count.insert k (h.countOf k + 1) }

def remove (h : Holdings ι κ) (i : ι) (k : κ) : Holdings ι κ :=
  if k ∈ h.heldBy i then
    { held := h.held.insert i ((h.heldBy i).erase k), count := decrement h.count k }
  else h

/-- The holder gives up all it records. -/
def drop (h : Holdings ι κ) (i : ι) : Holdings ι κ :=
  { held := h.held.erase i, count := (h.heldBy i).foldl decrement h.count }

/-- A new holder, with nothing recorded. -/
def enroll (h : Holdings ι κ) (i : ι) : Holdings ι κ := { h with held := h.held.insert i [] }

variable {h : Holdings ι κ} {i : ι} {k : κ}

theorem mem_holders : i ∈ h.holders k ↔ k ∈ h.heldBy i := by
  rw [holders, Finset.mem_filter, List.mem_toFinset]
  refine ⟨And.right, fun hk => ⟨?_, hk⟩⟩
  by_contra hi
  rw [← Dict.get?_eq_none_iff] at hi
  rw [heldBy, Dict.getD, hi] at hk
  exact absurd hk List.not_mem_nil

omit [DecidableEq κ] in
theorem heldBy_insert (held : Dict ι (List κ)) (count : Dict κ Int) (i j : ι) (ks : List κ) :
    heldBy ⟨held.insert i ks, count⟩ j = if j = i then ks else held.getD j [] := by
  rw [heldBy, Dict.getD, Dict.get?_insert]
  split
  · rfl
  · rfl

theorem heldBy_add (h : Holdings ι κ) (i j : ι) (k : κ) :
    (h.add i k).heldBy j = if j = i ∧ k ∉ h.heldBy i then h.heldBy i ++ [k] else h.heldBy j := by
  unfold add
  by_cases hk : k ∈ h.heldBy i
  · rw [if_pos hk, if_neg (fun hc => hc.2 hk)]
  · rw [if_neg hk, heldBy_insert]
    by_cases hj : j = i
    · rw [if_pos hj, if_pos ⟨hj, hk⟩]
    · rw [if_neg hj, if_neg (fun hc => hj hc.1)]
      rfl

theorem heldBy_remove (h : Holdings ι κ) (i j : ι) (k : κ) :
    (h.remove i k).heldBy j = if j = i then (h.heldBy i).erase k else h.heldBy j := by
  unfold remove
  by_cases hk : k ∈ h.heldBy i
  · rw [if_pos hk, heldBy_insert]
    rfl
  · rw [if_neg hk]
    split
    · rename_i hj
      rw [List.erase_of_not_mem hk, hj]
    · rfl

theorem mem_heldBy_add {j : ι} {k' : κ} :
    k' ∈ (h.add i k).heldBy j ↔ k' ∈ h.heldBy j ∨ (j = i ∧ k' = k) := by
  rw [heldBy_add]
  split
  · rename_i hj
    obtain ⟨rfl, -⟩ := hj
    simp
  · rename_i hj
    refine ⟨Or.inl, fun hmem => ?_⟩
    rcases hmem with hmem | ⟨rfl, rfl⟩
    · exact hmem
    · by_contra hk
      exact hj ⟨rfl, hk⟩

theorem heldBy_add_of_ne (h : Holdings ι κ) {j : ι} (k : κ) (hj : j ≠ i) :
    (h.add i k).heldBy j = h.heldBy j := by
  rw [heldBy_add, if_neg (fun hc => hj hc.1)]

theorem mem_heldBy_remove_of_ne {j : ι} {k' : κ} (hk : k' ≠ k) :
    k' ∈ (h.remove i k).heldBy j ↔ k' ∈ h.heldBy j := by
  rw [heldBy_remove]
  split
  · rename_i hj
    rw [hj, List.mem_erase_of_ne hk]
  · rfl

theorem heldBy_remove_of_ne (h : Holdings ι κ) {j : ι} (k : κ) (hj : j ≠ i) :
    (h.remove i k).heldBy j = h.heldBy j := by
  rw [heldBy_remove, if_neg hj]

theorem heldBy_drop (h : Holdings ι κ) (i j : ι) :
    (h.drop i).heldBy j = if j = i then [] else h.heldBy j := by
  rw [drop, heldBy, Dict.getD, Dict.get?_erase]
  split
  · rfl
  · rfl

omit [DecidableEq κ] in
theorem heldBy_enroll (h : Holdings ι κ) (i j : ι) :
    (h.enroll i).heldBy j = if j = i then [] else h.heldBy j :=
  heldBy_insert h.held h.count i j []

theorem getD_decrement (count : Dict κ Int) (k k' : κ) (hpos : 0 < count.getD k 0) :
    (decrement count k).getD k' 0 = if k' = k then count.getD k 0 - 1 else count.getD k' 0 := by
  unfold decrement
  split
  · rename_i hle
    rw [Dict.getD, Dict.get?_erase]
    split
    · rw [Option.getD_none]
      omega
    · rfl
  · rw [Dict.getD, Dict.get?_insert]
    split
    · rfl
    · rfl

theorem getD_foldl_decrement (ks : List κ) (hnd : ks.Nodup) (count : Dict κ Int)
    (hpos : ∀ k ∈ ks, 0 < count.getD k 0) (k' : κ) :
    (ks.foldl decrement count).getD k' 0 =
      if k' ∈ ks then count.getD k' 0 - 1 else count.getD k' 0 := by
  induction ks generalizing count with
  | nil => simp
  | cons k ks ih =>
    rw [List.nodup_cons] at hnd
    have hk := hpos k List.mem_cons_self
    have hrest : ∀ l ∈ ks, 0 < (decrement count k).getD l 0 := by
      intro l hl
      have hne : l ≠ k := fun heq => hnd.1 (heq ▸ hl)
      rw [getD_decrement count k l hk, if_neg hne]
      exact hpos l (List.mem_cons_of_mem _ hl)
    rw [List.foldl_cons, ih hnd.2 _ hrest, getD_decrement count k k' hk]
    by_cases heq : k' = k
    · subst heq
      simp [hnd.1]
    · simp [heq]

theorem get?_decrement_pos {count : Dict κ Int} (hpos : ∀ k n, count.get? k = some n → 0 < n)
    (k k' : κ) {n : Int} (hn : (decrement count k).get? k' = some n) : 0 < n := by
  unfold decrement at hn
  split at hn
  · rw [Dict.get?_erase] at hn
    split at hn
    · cases hn
    · exact hpos k' n hn
  · rw [Dict.get?_insert] at hn
    split at hn
    · cases hn
      omega
    · exact hpos k' n hn

theorem get?_foldl_decrement_pos (ks : List κ) {count : Dict κ Int}
    (hpos : ∀ k n, count.get? k = some n → 0 < n) {n : Int}
    (hn : (ks.foldl decrement count).get? k = some n) : 0 < n := by
  induction ks generalizing count with
  | nil => exact hpos k n hn
  | cons k' ks ih => exact ih (fun _ _ hm => get?_decrement_pos hpos k' _ hm) hn

/-- The counts are the numbers of holders, no holder records an item twice, and
the table has no entry without a holder. -/
structure Counted (h : Holdings ι κ) : Prop where
  nodup : ∀ i, (h.heldBy i).Nodup
  count : ∀ k, h.countOf k = (h.holders k).card
  entry_pos : ∀ k n, h.count.get? k = some n → 0 < n

theorem counted_empty : Counted (∅ : Holdings ι κ) where
  nodup := fun _ => List.nodup_nil
  count := fun _ => rfl
  entry_pos := fun _ _ hn => by cases hn

theorem Counted.countOf_pos (hc : Counted h) (hk : k ∈ h.heldBy i) : 0 < h.countOf k := by
  rw [hc.count k, Int.natCast_pos, Finset.card_pos]
  exact ⟨i, mem_holders.mpr hk⟩

/-- A holder no longer records what it has removed. -/
theorem Counted.not_mem_heldBy_remove (hc : Counted h) (i : ι) (k : κ) :
    k ∉ (h.remove i k).heldBy i := by
  rw [heldBy_remove, if_pos rfl]
  exact (hc.nodup i).not_mem_erase

theorem Counted.mem_heldBy_remove (hc : Counted h) {j : ι} {k' : κ} :
    k' ∈ (h.remove i k).heldBy j ↔ k' ∈ h.heldBy j ∧ ¬(j = i ∧ k' = k) := by
  by_cases hk : k' = k
  · subst hk
    by_cases hj : j = i
    · subst hj
      simp [hc.not_mem_heldBy_remove j k']
    · rw [heldBy_remove_of_ne h k' hj]
      simp [hj]
  · rw [mem_heldBy_remove_of_ne hk]
    simp [hk]

/-- An item with a count of at most one has no other holder. -/
theorem Counted.eq_of_countOf_le_one (hc : Counted h) {j : ι} (hi : k ∈ h.heldBy i)
    (hj : k ∈ h.heldBy j) (hle : h.countOf k ≤ 1) : j = i := by
  rw [hc.count k] at hle
  have hcard : (h.holders k).card ≤ 1 := by omega
  exact Finset.card_le_one.mp hcard j (mem_holders.mpr hj) i (mem_holders.mpr hi)

/-- An item with a count above one has another holder. -/
theorem Counted.exists_other (hc : Counted h) (i : ι) (hlt : 1 < h.countOf k) :
    ∃ j, j ≠ i ∧ k ∈ h.heldBy j := by
  rw [hc.count k] at hlt
  have hcard : 1 < (h.holders k).card := by omega
  obtain ⟨j, hj, hne⟩ := Finset.exists_mem_ne hcard i
  exact ⟨j, hne, mem_holders.mp hj⟩

theorem holders_add (h : Holdings ι κ) (i : ι) (k k' : κ) :
    (h.add i k).holders k' = if k' = k then Insert.insert i (h.holders k) else h.holders k' := by
  ext j
  rw [mem_holders, heldBy_add]
  by_cases hk' : k' = k
  · subst hk'
    rw [if_pos rfl, Finset.mem_insert, mem_holders]
    by_cases hj : j = i <;> by_cases hk : k' ∈ h.heldBy i <;> simp [hj, hk]
  · rw [if_neg hk', mem_holders]
    by_cases hj : j = i <;> by_cases hk : k ∈ h.heldBy i <;> simp [hj, hk, hk']

theorem holders_remove (h : Holdings ι κ) (hc : Counted h) (i : ι) (k k' : κ) :
    (h.remove i k).holders k' = if k' = k then (h.holders k).erase i else h.holders k' := by
  ext j
  rw [mem_holders, heldBy_remove]
  by_cases hk' : k' = k
  · subst hk'
    rw [if_pos rfl, Finset.mem_erase, mem_holders]
    by_cases hj : j = i
    · simp [hj, (hc.nodup i).mem_erase_iff]
    · simp [hj]
  · rw [if_neg hk', mem_holders]
    by_cases hj : j = i
    · simp [hj, (hc.nodup i).mem_erase_iff, hk']
    · simp [hj]

theorem holders_drop (h : Holdings ι κ) (i : ι) (k : κ) :
    (h.drop i).holders k = (h.holders k).erase i := by
  ext j
  rw [mem_holders, heldBy_drop, Finset.mem_erase, mem_holders]
  by_cases hj : j = i <;> simp [hj]

theorem Counted.add (hc : Counted h) (i : ι) (k : κ) : Counted (h.add i k) where
  nodup := by
    intro j
    rw [heldBy_add]
    split
    · rename_i hj
      exact List.nodup_append.mpr ⟨hc.nodup i, List.nodup_singleton k, by
        rintro a ha b hb rfl
        exact hj.2 (List.mem_singleton.mp hb ▸ ha)⟩
    · exact hc.nodup j
  count := by
    intro k'
    rw [holders_add]
    by_cases hk : k ∈ h.heldBy i
    · have hi : i ∈ h.holders k := mem_holders.mpr hk
      rw [Finset.insert_eq_of_mem hi, Holdings.add, if_pos hk]
      split
      · rename_i heq
        rw [heq]
        exact hc.count k
      · exact hc.count k'
    · have hi : i ∉ h.holders k := fun hm => hk (mem_holders.mp hm)
      rw [Holdings.add, if_neg hk]
      simp only [countOf, Dict.getD, Dict.get?_insert]
      split
      · rw [Finset.card_insert_of_notMem hi, Option.getD_some]
        have hcount := hc.count k
        simp only [countOf, Dict.getD] at hcount
        omega
      · exact hc.count k'
  entry_pos := by
    intro k' n hn
    unfold Holdings.add at hn
    split at hn
    · exact hc.entry_pos k' n hn
    · rw [Dict.get?_insert] at hn
      split at hn
      · cases hn
        have hcount := hc.count k
        omega
      · exact hc.entry_pos k' n hn

theorem Counted.remove (hc : Counted h) (i : ι) (k : κ) :
    Counted (h.remove i k) where
  nodup := by
    intro j
    rw [heldBy_remove]
    split
    · exact (hc.nodup i).erase k
    · exact hc.nodup j
  count := by
    intro k'
    rw [holders_remove h hc]
    by_cases hk : k ∈ h.heldBy i
    · have hpos := hc.countOf_pos hk
      have hcard := Finset.card_erase_of_mem (mem_holders.mpr hk)
      rw [Holdings.remove, if_pos hk]
      show (decrement h.count k).getD k' 0 = _
      rw [getD_decrement h.count k k' hpos]
      split
      · have hcount := hc.count k
        simp only [countOf] at hcount hpos
        omega
      · exact hc.count k'
    · have hi : i ∉ h.holders k := fun hm => hk (mem_holders.mp hm)
      rw [Holdings.remove, if_neg hk, Finset.erase_eq_of_notMem hi]
      split
      · rename_i heq
        rw [heq]
        exact hc.count k
      · exact hc.count k'
  entry_pos := by
    intro k' n hn
    unfold Holdings.remove at hn
    split at hn
    · exact get?_decrement_pos hc.entry_pos k k' hn
    · exact hc.entry_pos k' n hn

theorem Counted.drop (hc : Counted h) (i : ι) : Counted (h.drop i) where
  nodup := by
    intro j
    rw [heldBy_drop]
    split
    · exact List.nodup_nil
    · exact hc.nodup j
  count := by
    intro k
    rw [holders_drop]
    show ((h.heldBy i).foldl decrement h.count).getD k 0 = _
    rw [getD_foldl_decrement (h.heldBy i) (hc.nodup i) h.count (fun l hl => hc.countOf_pos hl)]
    have hcount := hc.count k
    split
    · rename_i hk
      have hpos := hc.countOf_pos hk
      have hcard := Finset.card_erase_of_mem (mem_holders.mpr hk)
      simp only [countOf] at hcount hpos
      omega
    · rename_i hk
      have hi : i ∉ h.holders k := fun hm => hk (mem_holders.mp hm)
      rw [Finset.erase_eq_of_notMem hi]
      exact hcount
  entry_pos := fun _ _ hn => get?_foldl_decrement_pos (h.heldBy i) hc.entry_pos hn

theorem Counted.enroll (hc : Counted h) (hi : h.heldBy i = []) : Counted (h.enroll i) := by
  have hsame : ∀ j, (h.enroll i).heldBy j = h.heldBy j := by
    intro j
    rw [heldBy_enroll]
    split
    · rename_i hj
      rw [hj, hi]
    · rfl
  refine ⟨fun j => hsame j ▸ hc.nodup j, fun k => ?_, hc.entry_pos⟩
  have hholders : (h.enroll i).holders k = h.holders k := by
    ext j
    rw [mem_holders, mem_holders, hsame j]
  rw [hholders]
  exact hc.count k

end Holdings

end Foundation
