import Mathlib.Data.List.Nodup
import Mathlib.Data.List.Perm.Basic

/-!
# Custody of items that are given away once

Holders keep items until they are spent. An item is issued to one holder or spent at
once; its holder may pass it on, and in the end it moves to what is spent.
-/

namespace Foundation.Custody

variable {ι α : Type*} {held held' : ι → List α} {spent spent' : List α} {issued : α → Prop}

/-- Every issued item is with one holder or spent, once, and nothing else is. -/
structure Exclusive (held : ι → List α) (spent : List α) (issued : α → Prop) : Prop where
  spent_nodup : spent.Nodup
  held_nodup : ∀ i, (held i).Nodup
  unspent : ∀ i, ∀ a ∈ held i, a ∉ spent
  one : ∀ i j a, a ∈ held i → a ∈ held j → i = j
  all : ∀ a, (a ∈ spent ∨ ∃ i, a ∈ held i) ↔ issued a

theorem exclusive_empty : Exclusive (fun _ : ι => ([] : List α)) [] fun _ => False := by
  refine ⟨List.nodup_nil, fun _ => List.nodup_nil, fun i a ha => ?_, fun i j a ha => ?_,
    fun a => ?_⟩
  · cases ha
  · cases ha
  · simp

theorem Exclusive.perm (h : Exclusive held spent issued) (hperm : spent.Perm spent') :
    Exclusive held spent' issued := by
  refine ⟨hperm.nodup_iff.mp h.spent_nodup, h.held_nodup, fun i a ha hspent => ?_, h.one,
    fun a => ?_⟩
  · exact h.unspent i a ha (hperm.mem_iff.mpr hspent)
  · rw [← hperm.mem_iff]
    exact h.all a

theorem Exclusive.congr (h : Exclusive held spent issued) (hheld : ∀ i, held' i = held i) :
    Exclusive held' spent issued := by
  rwa [funext hheld]

/-- A holder spends the first part of what it holds. -/
theorem Exclusive.spend (h : Exclusive held spent issued) (i : ι) {out : List α}
    (hsplit : held i = out ++ held' i) (hother : ∀ j, j ≠ i → held' j = held j) :
    Exclusive held' (spent ++ out) issued := by
  have hsub (j : ι) (a : α) (ha : a ∈ held' j) : a ∈ held j := by
    by_cases hj : j = i
    · rw [hj] at ha ⊢
      rw [hsplit]
      exact List.mem_append_right _ ha
    · rwa [hother j hj] at ha
  have hnodup := h.held_nodup i
  rw [hsplit, List.nodup_append'] at hnodup
  obtain ⟨hout, hrest, hdisjoint⟩ := hnodup
  have hmem {a : α} (ha : a ∈ out) : a ∈ held i := by
    rw [hsplit]
    exact List.mem_append_left _ ha
  refine ⟨?_, fun j => ?_, fun j a ha hspent => ?_, fun j k a ha hk => ?_, fun a => ?_⟩
  · rw [List.nodup_append']
    exact ⟨h.spent_nodup, hout, fun a hspent ha => h.unspent i a (hmem ha) hspent⟩
  · by_cases hj : j = i
    · rwa [hj]
    · rw [hother j hj]
      exact h.held_nodup j
  · obtain hold | hnew := List.mem_append.mp hspent
    · exact h.unspent j a (hsub j a ha) hold
    · have hj := h.one j i a (hsub j a ha) (hmem hnew)
      rw [hj] at ha
      exact hdisjoint hnew ha
  · exact h.one j k a (hsub j a ha) (hsub k a hk)
  · rw [← h.all a, List.mem_append]
    constructor
    · intro hany
      obtain (hspent | ha) | ⟨j, ha⟩ := hany
      · exact .inl hspent
      · exact .inr ⟨i, hmem ha⟩
      · exact .inr ⟨j, hsub j a ha⟩
    · intro hany
      obtain hspent | ⟨j, ha⟩ := hany
      · exact .inl (.inl hspent)
      · by_cases hj : j = i
        · rw [hj, hsplit] at ha
          obtain hgone | hleft := List.mem_append.mp ha
          · exact .inl (.inr hgone)
          · exact .inr ⟨i, hleft⟩
        · refine .inr ⟨j, ?_⟩
          rwa [hother j hj]

/-- New items are issued to a holder. -/
theorem Exclusive.give (h : Exclusive held spent issued) (i : ι) {new : List α}
    (hnodup : new.Nodup) (hfresh : ∀ a ∈ new, ¬ issued a) (hnew : held' i = held i ++ new)
    (hother : ∀ j, j ≠ i → held' j = held j) :
    Exclusive held' spent fun a => issued a ∨ a ∈ new := by
  have hissued {j : ι} {a : α} (ha : a ∈ held j) : issued a := (h.all a).mp (.inr ⟨j, ha⟩)
  have hsub (j : ι) (a : α) (ha : a ∈ held' j) : a ∈ held j ∨ j = i ∧ a ∈ new := by
    by_cases hj : j = i
    · rw [hj, hnew] at ha
      obtain hold | hnew := List.mem_append.mp ha
      · rw [hj]
        exact .inl hold
      · exact .inr ⟨hj, hnew⟩
    · rw [hother j hj] at ha
      exact .inl ha
  refine ⟨h.spent_nodup, fun j => ?_, fun j a ha hspent => ?_, fun j k a ha hk => ?_, fun a => ?_⟩
  · by_cases hj : j = i
    · rw [hj, hnew, List.nodup_append']
      exact ⟨h.held_nodup i, hnodup, fun a hold ha => hfresh a ha (hissued hold)⟩
    · rw [hother j hj]
      exact h.held_nodup j
  · obtain ha | ⟨-, ha⟩ := hsub j a ha
    · exact h.unspent j a ha hspent
    · exact hfresh a ha ((h.all a).mp (.inl hspent))
  · obtain hja | ⟨hj, hja⟩ := hsub j a ha
    · obtain hka | ⟨-, hka⟩ := hsub k a hk
      · exact h.one j k a hja hka
      · exact absurd (hissued hja) (hfresh a hka)
    · obtain hka | ⟨hk, -⟩ := hsub k a hk
      · exact absurd (hissued hka) (hfresh a hja)
      · rw [hj, hk]
  · rw [← h.all a]
    constructor
    · intro hany
      obtain hspent | ⟨j, ha⟩ := hany
      · exact .inl (.inl hspent)
      · obtain ha | ⟨-, ha⟩ := hsub j a ha
        · exact .inl (.inr ⟨j, ha⟩)
        · exact .inr ha
    · intro hany
      have hkeeps {j : ι} (ha : a ∈ held j) : a ∈ held' j := by
        by_cases hj : j = i
        · rw [hj] at ha ⊢
          rw [hnew]
          exact List.mem_append_left _ ha
        · rwa [hother j hj]
      obtain (hspent | ⟨j, ha⟩) | ha := hany
      · exact .inl hspent
      · exact .inr ⟨j, hkeeps ha⟩
      · refine .inr ⟨i, ?_⟩
        rw [hnew]
        exact List.mem_append_right _ ha

/-- A holder passes all that it holds on to one that holds nothing. -/
theorem Exclusive.pass (h : Exclusive held spent issued) {i k : ι} (hne : i ≠ k)
    (hempty : held k = []) (hfrom : held' i = []) (hto : held' k = held i)
    (hother : ∀ j, j ≠ i → j ≠ k → held' j = held j) : Exclusive held' spent issued := by
  have hsub (j : ι) (a : α) (ha : a ∈ held' j) :
      j ≠ i ∧ (j = k ∧ a ∈ held i ∨ j ≠ k ∧ a ∈ held j) := by
    by_cases hj : j = i
    · rw [hj, hfrom] at ha
      cases ha
    · by_cases hk : j = k
      · rw [hk, hto] at ha
        exact ⟨hj, .inl ⟨hk, ha⟩⟩
      · rw [hother j hj hk] at ha
        exact ⟨hj, .inr ⟨hk, ha⟩⟩
  refine ⟨h.spent_nodup, fun j => ?_, fun j a ha => ?_, fun j l a ha hl => ?_, fun a => ?_⟩
  · by_cases hj : j = i
    · rw [hj, hfrom]
      exact List.nodup_nil
    · by_cases hk : j = k
      · rw [hk, hto]
        exact h.held_nodup i
      · rw [hother j hj hk]
        exact h.held_nodup j
  · obtain ⟨-, ⟨-, ha⟩ | ⟨-, ha⟩⟩ := hsub j a ha
    · exact h.unspent i a ha
    · exact h.unspent j a ha
  · obtain ⟨hji, ⟨hj, ha⟩ | ⟨-, ha⟩⟩ := hsub j a ha
    · obtain ⟨hli, ⟨hl, -⟩ | ⟨-, hl⟩⟩ := hsub l a hl
      · rw [hj, hl]
      · exact absurd (h.one l i a hl ha) hli
    · obtain ⟨-, ⟨-, hl⟩ | ⟨-, hl⟩⟩ := hsub l a hl
      · exact absurd (h.one j i a ha hl) hji
      · exact h.one j l a ha hl
  · rw [← h.all a]
    constructor
    · intro hany
      obtain hspent | ⟨j, ha⟩ := hany
      · exact .inl hspent
      · obtain ⟨-, ⟨-, ha⟩ | ⟨-, ha⟩⟩ := hsub j a ha
        · exact .inr ⟨i, ha⟩
        · exact .inr ⟨j, ha⟩
    · intro hany
      obtain hspent | ⟨j, ha⟩ := hany
      · exact .inl hspent
      · by_cases hj : j = i
        · rw [hj] at ha
          exact .inr ⟨k, by rwa [hto]⟩
        · have hk : j ≠ k := by
            rintro rfl
            rw [hempty] at ha
            cases ha
          exact .inr ⟨j, by rwa [hother j hj hk]⟩

/-- New items are spent at once. -/
theorem Exclusive.waste (h : Exclusive held spent issued) {new : List α} (hnodup : new.Nodup)
    (hfresh : ∀ a ∈ new, ¬ issued a) :
    Exclusive held (spent ++ new) fun a => issued a ∨ a ∈ new := by
  refine ⟨?_, h.held_nodup, fun j a ha hspent => ?_, h.one, fun a => ?_⟩
  · rw [List.nodup_append']
    exact ⟨h.spent_nodup, hnodup, fun a hspent ha => hfresh a ha ((h.all a).mp (.inl hspent))⟩
  · obtain hold | hnew := List.mem_append.mp hspent
    · exact h.unspent j a ha hold
    · exact hfresh a hnew ((h.all a).mp (.inr ⟨j, ha⟩))
  · rw [← h.all a, List.mem_append]
    exact ⟨fun hmem => by tauto, fun hmem => by tauto⟩

end Foundation.Custody
