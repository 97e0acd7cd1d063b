import Mathlib.Algebra.BigOperators.Group.List.Basic
import Mathlib.Algebra.GroupWithZero.Nat
import Mathlib.Data.List.Sort
import Mathlib.Data.Prod.Lex
import Mathlib.Order.WithBot

/-!
# Merging streams with a priority queue

Each stream is in the order of its times. The queue holds the next item of every stream that
has one, least time first and, at equal times, least number first.
-/

namespace Foundation.Merge

/-- A stream in the queue: its next item and the items behind it. -/
structure Stream (α : Type*) where
  number : ℕ
  item : α
  rest : List α

variable {α τ : Type*} {queue : List (Stream α)} {number : ℕ} {s : Stream α}

def Stream.items (s : Stream α) : List α := s.item :: s.rest

/-- How many items the streams of the queue have left. -/
def size (queue : List (Stream α)) : ℕ := (queue.map (·.items.length)).sum

variable [LinearOrder τ] (time : α → τ)

/-- Items are compared by their time, then by the number of their stream. -/
def key (e : ℕ × α) : τ ×ₗ ℕ := toLex (time e.2, e.1)

def Stream.key (s : Stream α) : τ ×ₗ ℕ := Merge.key time (s.number, s.item)

/-- Put the next item of a stream into the queue, if it has one. -/
def push (queue : List (Stream α)) (number : ℕ) : List α → List (Stream α)
  | [] => queue
  | item :: rest =>
    queue.orderedInsert (fun s t => s.key time ≤ t.key time) ⟨number, item, rest⟩

theorem push_cons (queue : List (Stream α)) (number : ℕ) (item : α) (rest : List α) :
    push time queue number (item :: rest) =
      queue.orderedInsert (fun s t => s.key time ≤ t.key time) ⟨number, item, rest⟩ := rfl

theorem size_push (queue : List (Stream α)) (number : ℕ) (items : List α) :
    size (push time queue number items) = size queue + items.length := by
  cases items with
  | nil => rfl
  | cons item rest =>
    unfold size
    rw [push_cons, ((List.perm_orderedInsert _ _ _).map _).sum_eq, List.map_cons, List.sum_cons, add_comm]
    rfl

/-- Take items from the queue as long as the first key is within the bound. -/
def drain (bound : WithTop (τ ×ₗ ℕ)) (queue : List (Stream α)) :
    List (ℕ × α) × List (Stream α) :=
  match queue with
  | [] => ([], [])
  | s :: queue =>
    if (s.key time : WithTop (τ ×ₗ ℕ)) ≤ bound then
      let later := drain bound (push time queue s.number s.rest)
      ((s.number, s.item) :: later.1, later.2)
    else ([], s :: queue)
termination_by size queue
decreasing_by
  rw [size_push]
  change size queue + s.rest.length < (s.rest.length + 1) + size queue
  omega

variable {time}

theorem mem_push {items : List α} (h : s ∈ push time queue number items) :
    s ∈ queue ∨ s.number = number ∧ s.items = items := by
  cases items with
  | nil => exact Or.inl h
  | cons item rest =>
    rw [push_cons] at h
    rcases (List.mem_orderedInsert _).mp h with rfl | h
    · exact Or.inr ⟨rfl, rfl⟩
    · exact Or.inl h

/-! ## What the queue promises -/

/-- The queue is in the order of its keys, with one entry for a stream. -/
structure Queue (time : α → τ) (queue : List (Stream α)) : Prop where
  sorted : queue.Pairwise fun s t => s.key time ≤ t.key time
  numbers : (queue.map (·.number)).Nodup
  ordered : ∀ s ∈ queue, s.items.Pairwise (time · ≤ time ·)

theorem queue_nil : Queue time ([] : List (Stream α)) where
  sorted := List.Pairwise.nil
  numbers := List.nodup_nil
  ordered _ hmem := absurd hmem List.not_mem_nil

theorem Queue.push {items : List α} (h : Queue time queue) (hnew : ∀ s ∈ queue, s.number ≠ number)
    (hordered : items.Pairwise (time · ≤ time ·)) :
    Queue time (push time queue number items) := by
  cases items with
  | nil => exact h
  | cons item rest =>
    refine ⟨?_, ?_, ?_⟩
    · have : IsTrans (Stream α) fun s t => s.key time ≤ t.key time :=
        ⟨fun _ _ _ hle hle' => le_trans hle hle'⟩
      have : Std.Total fun s t : Stream α => s.key time ≤ t.key time :=
        ⟨fun s t => le_total (s.key time) (t.key time)⟩
      exact h.sorted.orderedInsert _ _
    · rw [push_cons, ((List.perm_orderedInsert _ _ _).map _).nodup_iff, List.map_cons, List.nodup_cons]
      refine ⟨fun hmem => ?_, h.numbers⟩
      obtain ⟨s, hs, heq⟩ := List.mem_map.mp hmem
      exact hnew s hs heq
    · intro s hmem
      rcases mem_push hmem with hmem | ⟨-, heq⟩
      · exact h.ordered s hmem
      · rw [heq]
        exact hordered

/-- Taking the first item and putting back what is behind it keeps the queue, and all keys
come after the one taken. -/
theorem Queue.advance (h : Queue time (s :: queue)) :
    Queue time (Merge.push time queue s.number s.rest) ∧
      ∀ t ∈ Merge.push time queue s.number s.rest, s.key time ≤ t.key time := by
  obtain ⟨hfirst, hsorted⟩ := List.pairwise_cons.mp h.sorted
  obtain ⟨hnew, hnumbers⟩ := List.nodup_cons.mp h.numbers
  obtain ⟨hbefore, hordered⟩ := List.pairwise_cons.mp (h.ordered s List.mem_cons_self)
  have htail : Queue time queue :=
    ⟨hsorted, hnumbers, fun t ht => h.ordered t (List.mem_cons_of_mem s ht)⟩
  refine ⟨htail.push (fun t ht heq => hnew (List.mem_map.mpr ⟨t, ht, heq⟩)) hordered, ?_⟩
  intro t ht
  rcases mem_push ht with ht | ⟨hnumber, hitems⟩
  · exact hfirst t ht
  · unfold Stream.key key
    rw [hnumber, Prod.Lex.toLex_le_toLex', and_iff_left (fun _ => le_refl _)]
    have hmem : t.item ∈ t.items := List.mem_cons_self
    rw [hitems] at hmem
    exact hbefore t.item hmem

/-! ## Nothing is lost -/

/-- The items of one number, in order. -/
def ofNumber {β : Type*} (n : ℕ) (events : List (ℕ × β)) : List β :=
  (events.filter (·.1 = n)).map (·.2)

/-- What the queue still holds of one number. -/
def remaining (n : ℕ) (queue : List (Stream α)) : List α :=
  (queue.filter (·.number = n)).flatMap Stream.items

variable (time) in
theorem push_perm (queue : List (Stream α)) (number : ℕ) (items : List α) :
    ((push time queue number items).flatMap Stream.items).Perm
      (items ++ queue.flatMap Stream.items) := by
  cases items with
  | nil => rfl
  | cons item rest => exact (List.perm_orderedInsert _ _ _).flatMap_right _

theorem filter_of_new (hnew : ∀ s ∈ queue, s.number ≠ number) :
    queue.filter (·.number = number) = [] :=
  List.filter_eq_nil_iff.mpr fun s hs => by
    rw [decide_eq_true_iff]
    exact hnew s hs

theorem remaining_of_new (hnew : ∀ s ∈ queue, s.number ≠ number) : remaining number queue = [] := by
  unfold remaining
  rw [filter_of_new hnew]
  rfl

variable (time) in
theorem remaining_push (hnew : ∀ s ∈ queue, s.number ≠ number) (items : List α) (n : ℕ) :
    remaining n (push time queue number items) =
      if n = number then items else remaining n queue := by
  cases items with
  | nil =>
    by_cases heq : n = number
    · rw [if_pos heq, heq]
      exact remaining_of_new hnew
    · rw [if_neg heq]
      rfl
  | cons item rest =>
    unfold remaining
    rw [push_cons]
    by_cases heq : n = number
    · have hperm := (List.perm_orderedInsert (fun s t => s.key time ≤ t.key time)
        (⟨number, item, rest⟩ : Stream α) queue).filter (fun s => decide (s.number = number))
      rw [List.filter_cons_of_pos (by exact decide_eq_true rfl), filter_of_new hnew] at hperm
      rw [if_pos heq, heq, List.perm_singleton.mp hperm]
      exact List.append_nil _
    · rw [if_neg heq, List.orderedInsert_eq_take_drop, List.filter_append,
        List.filter_cons_of_neg (by rw [decide_eq_true_iff]; exact fun h => heq h.symm),
        ← List.filter_append, List.takeWhile_append_dropWhile]

/-! ## Draining -/

theorem drain_nil (bound : WithTop (τ ×ₗ ℕ)) : drain time bound [] = ([], []) := by
  rw [drain]

theorem drain_of_le {bound : WithTop (τ ×ₗ ℕ)} (queue : List (Stream α))
    (h : (s.key time : WithTop (τ ×ₗ ℕ)) ≤ bound) : drain time bound (s :: queue) =
      ((s.number, s.item) :: (drain time bound (push time queue s.number s.rest)).1,
        (drain time bound (push time queue s.number s.rest)).2) := by
  rw [drain, if_pos h]

theorem drain_of_not_le {bound : WithTop (τ ×ₗ ℕ)} (queue : List (Stream α))
    (h : ¬ (s.key time : WithTop (τ ×ₗ ℕ)) ≤ bound) :
    drain time bound (s :: queue) = ([], s :: queue) := by
  rw [drain, if_neg h]

variable (time) in
/-- What was taken and what is left are what the queue held. -/
theorem drain_perm (bound : WithTop (τ ×ₗ ℕ)) (queue : List (Stream α)) :
    ((drain time bound queue).1.map (·.2) ++ (drain time bound queue).2.flatMap Stream.items).Perm
      (queue.flatMap Stream.items) := by
  induction queue using drain.induct time bound with
  | case1 =>
    rw [drain_nil]
    rfl
  | case2 s queue hle ih =>
    rw [drain_of_le queue hle]
    exact (ih.trans (push_perm time queue s.number s.rest)).cons s.item
  | case3 s queue hle =>
    rw [drain_of_not_le queue hle]
    rfl

/-- What one drain does: the items come in the order of their keys up to the bound, the queue
is left with the later ones, and no stream loses an item or its order. -/
structure Drained (time : α → τ) (bound : WithTop (τ ×ₗ ℕ)) (queue : List (Stream α))
    (taken : List (ℕ × α)) (left : List (Stream α)) : Prop where
  ready : Queue time left
  sorted : taken.Pairwise fun e f => key time e ≤ key time f
  within : ∀ e ∈ taken, (key time e : WithTop (τ ×ₗ ℕ)) ≤ bound
  beyond : ∀ s ∈ left, ¬ (s.key time : WithTop (τ ×ₗ ℕ)) ≤ bound
  low : ∀ low : τ ×ₗ ℕ, (∀ s ∈ queue, low ≤ s.key time) → ∀ e ∈ taken, low ≤ key time e
  numbers : ∀ s ∈ left, ∃ t ∈ queue, t.number = s.number
  kept : ∀ n, ofNumber n taken ++ remaining n left = remaining n queue

theorem drain_spec (bound : WithTop (τ ×ₗ ℕ)) (h : Queue time queue) :
    Drained time bound queue (drain time bound queue).1 (drain time bound queue).2 := by
  induction queue using drain.induct time bound with
  | case1 =>
    rw [drain_nil]
    exact ⟨h, List.Pairwise.nil, fun e he => absurd he List.not_mem_nil,
      fun s hs => absurd hs List.not_mem_nil, fun _ _ e he => absurd he List.not_mem_nil,
      fun s hs => absurd hs List.not_mem_nil, fun n => rfl⟩
  | case2 s queue hle ih =>
    obtain ⟨hqueue, hafter⟩ := h.advance
    have hlater := ih hqueue
    have hnew : ∀ t ∈ queue, t.number ≠ s.number := fun t ht heq =>
      (List.nodup_cons.mp h.numbers).1 (List.mem_map.mpr ⟨t, ht, heq⟩)
    rw [drain_of_le queue hle]
    refine ⟨hlater.ready, ?_, ?_, hlater.beyond, ?_, ?_, ?_⟩
    · exact List.pairwise_cons.mpr ⟨fun e he => hlater.low (s.key time) hafter e he, hlater.sorted⟩
    · intro e he
      rcases List.mem_cons.mp he with rfl | he
      · exact hle
      · exact hlater.within e he
    · intro low hlow e he
      rcases List.mem_cons.mp he with rfl | he
      · exact hlow s List.mem_cons_self
      · exact le_trans (hlow s List.mem_cons_self) (hlater.low (s.key time) hafter e he)
    · intro t ht
      obtain ⟨t', ht', heq⟩ := hlater.numbers t ht
      rcases mem_push ht' with hmem | ⟨hnumber, -⟩
      · exact ⟨t', List.mem_cons_of_mem s hmem, heq⟩
      · exact ⟨s, List.mem_cons_self, hnumber.symm.trans heq⟩
    · intro n
      have hkept := hlater.kept n
      rw [remaining_push time hnew] at hkept
      unfold ofNumber remaining at *
      by_cases heq : s.number = n
      · rw [if_pos heq.symm] at hkept
        have hgone := filter_of_new hnew
        rw [heq] at hgone
        rw [List.filter_cons_of_pos (by exact decide_eq_true heq), List.map_cons, List.cons_append,
          hkept, List.filter_cons_of_pos (by exact decide_eq_true heq), hgone]
        exact (List.append_nil _).symm
      · rw [if_neg (fun h => heq h.symm)] at hkept
        rw [List.filter_cons_of_neg (by rw [decide_eq_true_iff]; exact heq), hkept,
          List.filter_cons_of_neg (by rw [decide_eq_true_iff]; exact heq)]
  | case3 s queue hle =>
    rw [drain_of_not_le queue hle]
    refine ⟨h, List.Pairwise.nil, fun e he => absurd he List.not_mem_nil, ?_,
      fun _ _ e he => absurd he List.not_mem_nil, fun t ht => ⟨t, ht, rfl⟩, fun n => rfl⟩
    intro t ht hwithin
    rcases List.mem_cons.mp ht with rfl | ht
    · exact hle hwithin
    · have hfirst := (List.pairwise_cons.mp h.sorted).1 t ht
      exact hle (le_trans (WithTop.coe_le_coe.mpr hfirst) hwithin)

/-- Without a bound the queue is emptied. -/
theorem drain_top (queue : List (Stream α)) : (drain time ⊤ queue).2 = [] := by
  induction queue using drain.induct time ⊤ with
  | case1 => rw [drain_nil]
  | case2 s queue hle ih =>
    rw [drain_of_le queue hle]
    exact ih
  | case3 s queue hle => exact absurd le_top hle

end Foundation.Merge
