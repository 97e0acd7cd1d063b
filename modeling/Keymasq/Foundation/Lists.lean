import Mathlib.Data.List.Nodup

/-!
# Finding, removing and renewing items
-/

namespace Foundation.Lists

variable {α β σ : Type*}

/-- The item that is found is the one `eraseP` takes out. -/
theorem perm_cons_eraseP {p : α → Bool} {items : List α} {a : α} (h : items.find? p = some a) :
    items.Perm (a :: items.eraseP p) := by
  obtain ⟨hp, front, back, rfl, hfront⟩ := List.find?_eq_some_iff_append.mp h
  have hnot : ∀ b ∈ front, ¬p b = true := fun b hb hpb => by simpa [hpb] using hfront b hb
  rw [List.eraseP_append_right _ hnot, List.eraseP_cons_of_pos hp]
  exact List.perm_middle

/-- Where a key is used once, it selects one item. -/
theorem filter_eq_singleton [DecidableEq β] {f : α → β} {items : List α}
    (hnd : (items.map f).Nodup) {a : α} (ha : a ∈ items) :
    (items.filter fun b => f b = f a) = [a] := by
  induction items with
  | nil => cases ha
  | cons b items ih =>
    rw [List.map_cons, List.nodup_cons] at hnd
    rcases List.mem_cons.mp ha with rfl | ha
    · have hnil : (items.filter fun b => f b = f a) = [] := by
        rw [List.filter_eq_nil_iff]
        intro c hc
        have hne : f c ≠ f a := fun heq => hnd.1 (heq ▸ List.mem_map_of_mem hc)
        simpa using hne
      rw [List.filter_cons_of_pos (by simp), hnil]
    · have hne : f b ≠ f a := fun heq => hnd.1 (heq ▸ List.mem_map_of_mem ha)
      rw [List.filter_cons_of_neg (by simpa using hne), ih hnd.2 ha]

/-- Two items of a list without repetition come in one order only. -/
theorem not_pair_sublist_swap {α : Type*} {a b : α} {l : List α} (h : l.Nodup)
    (hab : [a, b].Sublist l) (hba : [b, a].Sublist l) : False := by
  induction l with
  | nil => cases hab
  | cons c l ih =>
    rw [List.nodup_cons] at h
    rcases List.sublist_cons_iff.mp hab with htab | ⟨tail, heq, hb⟩
    · rcases List.sublist_cons_iff.mp hba with htba | ⟨tail, heq, -⟩
      · exact ih h.2 htab htba
      · cases heq
        exact h.1 (htab.subset (List.mem_cons_of_mem _ (List.mem_singleton_self b)))
    · cases heq
      rcases List.sublist_cons_iff.mp hba with htba | ⟨tail, heq, ha⟩
      · exact h.1 (htba.subset (List.mem_cons_of_mem _ (List.mem_singleton_self a)))
      · cases heq
        exact h.1 (ha.subset (List.mem_singleton_self a))

/-- In an ordered list what comes first has the smaller index. -/
theorem idxOf_lt_idxOf [BEq α] [LawfulBEq α] {R : α → α → Prop} {l : List α} (h : l.Pairwise R) {a b : α}
    (ha : a ∈ l) (hb : b ∈ l) (hne : a ≠ b) (hnot : ¬R b a) : l.idxOf a < l.idxOf b := by
  induction l with
  | nil => cases ha
  | cons c l ih =>
    obtain ⟨hhead, htail⟩ := List.pairwise_cons.mp h
    by_cases hac : c = a
    · subst hac
      rw [List.idxOf_cons_self, List.idxOf_cons_ne l hne]
      exact Nat.succ_pos _
    have ha' : a ∈ l := List.mem_of_ne_of_mem (fun heq => hac heq.symm) ha
    by_cases hbc : c = b
    · subst hbc
      exact absurd (hhead a ha') hnot
    have hb' : b ∈ l := List.mem_of_ne_of_mem (fun heq => hbc heq.symm) hb
    rw [List.idxOf_cons_ne l hac, List.idxOf_cons_ne l hbc]
    exact Nat.succ_lt_succ (ih htail ha' hb')

/-- Where what is marked comes last, the list is the unmarked items and then the marked ones. -/
theorem filter_append_filter {p : α → Bool} {l : List α}
    (h : l.Pairwise fun a b => p a = true → p b = true) :
    (l.filter fun a => !p a) ++ l.filter p = l := by
  induction l with
  | nil => rfl
  | cons a l ih =>
    obtain ⟨hhead, htail⟩ := List.pairwise_cons.mp h
    cases ha : p a with
    | true =>
      have hnone : (l.filter fun b => !p b) = [] := by
        rw [List.filter_eq_nil_iff]
        intro b hb
        rw [hhead b hb ha]
        decide
      rw [List.filter_cons_of_neg (by rw [ha]; decide), List.filter_cons_of_pos ha, hnone,
        List.nil_append, List.filter_eq_self.mpr fun b hb => hhead b hb ha]
    | false =>
      rw [List.filter_cons_of_pos (by rw [ha]; rfl), List.filter_cons_of_neg (by rw [ha]; decide),
        List.cons_append, ih htail]

/-- Two parts change places. -/
theorem pairwise_append_swap {R : α → α → Prop} {l m n : List α} (h : (l ++ (m ++ n)).Pairwise R)
    (hswap : ∀ a ∈ m, ∀ b ∈ n, R a b → R b a) : (l ++ (n ++ m)).Pairwise R := by
  obtain ⟨hl, hmn, hcross⟩ := List.pairwise_append.mp h
  obtain ⟨hm, hn, hacross⟩ := List.pairwise_append.mp hmn
  refine List.pairwise_append.mpr ⟨hl, List.pairwise_append.mpr ⟨hn, hm, ?_⟩, ?_⟩
  · exact fun b hb a ha => hswap a ha b hb (hacross a ha b hb)
  · exact fun a ha b hb => hcross a ha b (List.mem_append.mpr (List.mem_append.mp hb).symm)

theorem zip_append_drop (l m : List α) (n : List β) :
    (l ++ m).zip n = l.zip n ++ m.zip (n.drop l.length) := by
  induction l generalizing n with
  | nil => rfl
  | cons a l ih =>
    cases n with
    | nil =>
      rw [List.zip_nil_right, List.zip_nil_right, List.drop_nil, List.zip_nil_right]
      rfl
    | cons b n => exact congrArg ((a, b) :: ·) (ih n)

/-! ## A state that is handed from item to item -/

/- Each item is changed with the state that the items before it left. -/
def thread (f : σ → α → β × σ) : σ → List α → List β × σ
  | s, [] => ([], s)
  | s, a :: items => ((f s a).1 :: (thread f (f s a).2 items).1, (thread f (f s a).2 items).2)

theorem map_thread {γ : Type*} {f : σ → α → β × σ} {g : β → γ} {g' : α → γ}
    (h : ∀ s a, g (f s a).1 = g' a) (s : σ) (items : List α) :
    (thread f s items).1.map g = items.map g' := by
  induction items generalizing s with
  | nil => rfl
  | cons a items ih =>
    unfold thread
    rw [List.map_cons, List.map_cons, h, ih]

theorem forall_thread {f : σ → α → β × σ} {P : α → Prop} {Q : β → Prop}
    (h : ∀ s a, P a → Q (f s a).1) (s : σ) {items : List α} (hall : ∀ a ∈ items, P a) :
    ∀ b ∈ (thread f s items).1, Q b := by
  induction items generalizing s with
  | nil =>
    intro b hb
    cases hb
  | cons a items ih =>
    intro b hb
    rcases List.mem_cons.mp hb with rfl | hb
    · exact h s a (hall a List.mem_cons_self)
    · exact ih (f s a).2 (fun a' ha' => hall a' (List.mem_cons_of_mem a ha')) b hb

end Foundation.Lists
