import Keymasq.Foundation.Sorting
import Mathlib.Data.Prod.Lex
import Mathlib.Logic.Relation
import Mathlib.Order.MinMax

/-!
# Spans joined from left to right

A list of spans in order is joined to fewer ones: a span that starts before the one so far
has ended (or when it ends) makes it longer. The joined spans are apart from each other, and
those that touch are joined exactly where a chain of touching spans leads from one to the
other.
-/

namespace Foundation.Spans
open Sorting

variable {α : Type} [LinearOrder α]

/- `sorted(spans)`: by start, then by end. -/
def sortedSpans (spans : List (α × α)) : List (α × α) := sortedOn toLex spans

/- `joins x e` is whether a span that starts at `x` belongs to one that ends at `e`. -/
def joinFrom (joins : α → α → Bool) (current : α × α) : List (α × α) → List (α × α)
  | [] => [current]
  | s :: rest =>
    if joins s.1 current.2 then joinFrom joins (current.1, max current.2 s.2) rest
    else current :: joinFrom joins s rest

def joined (joins : α → α → Bool) : List (α × α) → List (α × α)
  | [] => []
  | s :: rest => joinFrom joins s rest

/-- Where a later start joins, an earlier one does. -/
def EarlierJoins (joins : α → α → Bool) : Prop :=
  ∀ x y e, x ≤ y → joins y e = true → joins x e = true

variable {joins : α → α → Bool} {current s : α × α} {spans rest : List (α × α)}

theorem sortedSpans_perm (spans : List (α × α)) : (sortedSpans spans).Perm spans :=
  sortedOn_perm toLex spans

theorem mem_sortedSpans : s ∈ sortedSpans spans ↔ s ∈ spans :=
  (sortedSpans_perm spans).mem_iff

theorem sortedSpans_pairwise (spans : List (α × α)) :
    (sortedSpans spans).Pairwise fun s t => toLex s ≤ toLex t :=
  sortedOn_pairwise toLex spans

theorem sortedSpans_starts (spans : List (α × α)) :
    (sortedSpans spans).Pairwise fun s t => s.1 ≤ t.1 :=
  (sortedSpans_pairwise spans).imp fun hle => (Prod.Lex.toLex_le_toLex'.mp hle).1

/-- A list that is in order is what sorting makes of it. -/
theorem sortedSpans_eq_self (h : spans.Pairwise fun s t => toLex s ≤ toLex t) :
    sortedSpans spans = spans :=
  (sortedSpans_perm spans).eq_of_pairwise
    (fun _ _ _ _ hle hge => toLex.injective (hle.antisymm hge)) (sortedSpans_pairwise spans) h

theorem sortedSpans_eq_of_perm {spans' : List (α × α)} (h : spans.Perm spans') :
    sortedSpans spans = sortedSpans spans' :=
  sortedOn_eq_of_perm h fun _ _ _ _ heq => toLex.injective heq

theorem joinFrom_of_joins (h : joins s.1 current.2 = true) :
    joinFrom joins current (s :: rest) = joinFrom joins (current.1, max current.2 s.2) rest :=
  if_pos h

theorem joinFrom_of_apart (h : ¬ joins s.1 current.2 = true) :
    joinFrom joins current (s :: rest) = current :: joinFrom joins s rest :=
  if_neg h

/-- What holds of every span and is kept when one is joined holds of the joined spans. -/
theorem joinFrom_all {P : α × α → Prop} (hcurrent : P current) (hrest : ∀ s ∈ rest, P s)
    (hstarts : (current :: rest).Pairwise fun s t => s.1 ≤ t.1)
    (hjoin : ∀ a, ∀ s ∈ rest, P a → a.1 ≤ s.1 → joins s.1 a.2 = true → P (a.1, max a.2 s.2)) :
    ∀ t ∈ joinFrom joins current rest, P t := by
  induction rest generalizing current with
  | nil =>
    intro t ht
    rw [List.mem_singleton.mp ht]
    exact hcurrent
  | cons s rest ih =>
    obtain ⟨hhead, hstarts'⟩ := List.pairwise_cons.mp hstarts
    have hs := hrest s List.mem_cons_self
    have hle := hhead s List.mem_cons_self
    have htail : ∀ u ∈ rest, P u := fun u hu => hrest u (List.mem_cons_of_mem _ hu)
    have hjoin' : ∀ a, ∀ u ∈ rest, P a → a.1 ≤ u.1 → joins u.1 a.2 = true →
        P (a.1, max a.2 u.2) := fun a u hu => hjoin a u (List.mem_cons_of_mem _ hu)
    by_cases hjoins : joins s.1 current.2 = true
    · rw [joinFrom_of_joins hjoins]
      exact ih (hjoin current s List.mem_cons_self hcurrent hle hjoins) htail
        (List.pairwise_cons.mpr ⟨fun u hu => hhead u (List.mem_cons_of_mem _ hu),
          (List.pairwise_cons.mp hstarts').2⟩) hjoin'
    · rw [joinFrom_of_apart hjoins]
      intro t ht
      obtain rfl | ht := List.mem_cons.mp ht
      · exact hcurrent
      · exact ih hs htail hstarts' hjoin' t ht

/-- The first joined span starts where the first span does. -/
theorem joinFrom_head (joins : α → α → Bool) (current : α × α) (rest : List (α × α)) :
    ∃ e tail, joinFrom joins current rest = (current.1, e) :: tail ∧ current.2 ≤ e := by
  induction rest generalizing current with
  | nil => exact ⟨current.2, [], rfl, le_rfl⟩
  | cons s rest ih =>
    by_cases hjoins : joins s.1 current.2 = true
    · obtain ⟨e, tail, htail, hle⟩ := ih (current.1, max current.2 s.2)
      rw [joinFrom_of_joins hjoins]
      exact ⟨e, tail, htail, (le_max_left _ _).trans hle⟩
    · rw [joinFrom_of_apart hjoins]
      exact ⟨current.2, _, rfl, le_rfl⟩

/-- Every joined span starts where one of the spans does. -/
theorem joinFrom_start {t : α × α} (ht : t ∈ joinFrom joins current rest) :
    ∃ s ∈ current :: rest, s.1 = t.1 := by
  induction rest generalizing current with
  | nil => exact ⟨current, List.mem_cons_self, by rw [List.mem_singleton.mp ht]⟩
  | cons s rest ih =>
    by_cases hjoins : joins s.1 current.2 = true
    · rw [joinFrom_of_joins hjoins] at ht
      obtain ⟨u, hu, hstart⟩ := ih ht
      obtain rfl | hu := List.mem_cons.mp hu
      · exact ⟨current, List.mem_cons_self, hstart⟩
      · exact ⟨u, List.mem_cons_of_mem _ (List.mem_cons_of_mem _ hu), hstart⟩
    · rw [joinFrom_of_apart hjoins] at ht
      obtain rfl | ht := List.mem_cons.mp ht
      · exact ⟨t, List.mem_cons_self, rfl⟩
      · obtain ⟨u, hu, hstart⟩ := ih ht
        exact ⟨u, List.mem_cons_of_mem _ hu, hstart⟩

/-- Each joined span has ended before the next one starts. -/
theorem joinFrom_apart (hanti : EarlierJoins joins)
    (hstarts : (current :: rest).Pairwise fun s t => s.1 ≤ t.1) :
    (joinFrom joins current rest).Pairwise fun s t => ¬ joins t.1 s.2 = true := by
  induction rest generalizing current with
  | nil => exact List.pairwise_singleton _ _
  | cons s rest ih =>
    obtain ⟨hhead, hstarts'⟩ := List.pairwise_cons.mp hstarts
    by_cases hjoins : joins s.1 current.2 = true
    · rw [joinFrom_of_joins hjoins]
      exact ih (List.pairwise_cons.mpr ⟨fun u hu => hhead u (List.mem_cons_of_mem _ hu),
        (List.pairwise_cons.mp hstarts').2⟩)
    · rw [joinFrom_of_apart hjoins]
      refine List.pairwise_cons.mpr ⟨fun t ht hlate => hjoins ?_, ih hstarts'⟩
      obtain ⟨u, hu, hstart⟩ := joinFrom_start ht
      have hle : s.1 ≤ t.1 := by
        rw [← hstart]
        obtain rfl | hu := List.mem_cons.mp hu
        · exact le_rfl
        · exact (List.pairwise_cons.mp hstarts').1 u hu
      exact hanti _ _ _ hle hlate

/-- Every span lies in a joined one. -/
theorem joinFrom_cover (hstarts : (current :: rest).Pairwise fun s t => s.1 ≤ t.1) :
    ∀ s ∈ current :: rest, ∃ t ∈ joinFrom joins current rest, t.1 ≤ s.1 ∧ s.2 ≤ t.2 := by
  induction rest generalizing current with
  | nil =>
    intro s hs
    rw [List.mem_singleton.mp hs]
    exact ⟨current, List.mem_singleton_self _, le_rfl, le_rfl⟩
  | cons s rest ih =>
    obtain ⟨hhead, hstarts'⟩ := List.pairwise_cons.mp hstarts
    by_cases hjoins : joins s.1 current.2 = true
    · have hgrown := @ih (current.1, max current.2 s.2)
        (List.pairwise_cons.mpr ⟨fun u hu => hhead u (List.mem_cons_of_mem _ hu),
          (List.pairwise_cons.mp hstarts').2⟩)
      rw [joinFrom_of_joins hjoins]
      obtain ⟨t, ht, hlow, hhigh⟩ := hgrown _ List.mem_cons_self
      intro u hu
      obtain rfl | hu := List.mem_cons.mp hu
      · exact ⟨t, ht, hlow, (le_max_left _ _).trans hhigh⟩
      obtain rfl | hu := List.mem_cons.mp hu
      · exact ⟨t, ht, hlow.trans (hhead _ List.mem_cons_self), (le_max_right _ _).trans hhigh⟩
      · exact hgrown u (List.mem_cons_of_mem _ hu)
    · rw [joinFrom_of_apart hjoins]
      intro u hu
      obtain rfl | hu := List.mem_cons.mp hu
      · exact ⟨u, List.mem_cons_self, le_rfl, le_rfl⟩
      · obtain ⟨t, ht, hin⟩ := ih hstarts' u hu
        exact ⟨t, List.mem_cons_of_mem _ ht, hin⟩

/-! ## Spans in any order -/

theorem joined_all {P : α × α → Prop} (hspans : ∀ s ∈ spans, P s)
    (hjoin : ∀ a, ∀ s ∈ spans, P a → a.1 ≤ s.1 → joins s.1 a.2 = true → P (a.1, max a.2 s.2)) :
    ∀ t ∈ joined joins (sortedSpans spans), P t := by
  have hstarts := sortedSpans_starts spans
  have hmem : ∀ s ∈ sortedSpans spans, s ∈ spans := fun s hs => mem_sortedSpans.mp hs
  cases hsorted : sortedSpans spans with
  | nil =>
    intro t ht
    cases ht
  | cons s rest =>
    rw [hsorted] at hstarts hmem
    refine joinFrom_all (hspans s (hmem s List.mem_cons_self))
      (fun u hu => hspans u (hmem u (List.mem_cons_of_mem _ hu))) hstarts
      fun a u hu => hjoin a u (hmem u (List.mem_cons_of_mem _ hu))

theorem joined_apart (hanti : EarlierJoins joins) (spans : List (α × α)) :
    (joined joins (sortedSpans spans)).Pairwise fun s t => ¬ joins t.1 s.2 = true := by
  have hstarts := sortedSpans_starts spans
  cases hsorted : sortedSpans spans with
  | nil => exact List.Pairwise.nil
  | cons s rest =>
    rw [hsorted] at hstarts
    exact joinFrom_apart hanti hstarts

theorem joined_cover (joins : α → α → Bool) (hs : s ∈ spans) :
    ∃ t ∈ joined joins (sortedSpans spans), t.1 ≤ s.1 ∧ s.2 ≤ t.2 := by
  have hstarts := sortedSpans_starts spans
  have hmem := mem_sortedSpans.mpr hs
  cases hsorted : sortedSpans spans with
  | nil =>
    rw [hsorted] at hmem
    cases hmem
  | cons u rest =>
    rw [hsorted] at hstarts hmem
    exact joinFrom_cover hstarts s hmem

/-! ## Spans that touch -/

/- Joined where the next span starts no later than the one so far ends. -/
def touching (x e : α) : Bool := x ≤ e

/-- Two spans of the list overlap or touch. -/
def Touch (spans : List (α × α)) (s t : α × α) : Prop :=
  s ∈ spans ∧ t ∈ spans ∧ s.1 ≤ t.2 ∧ t.1 ≤ s.2

def Within (s t : α × α) : Prop := t.1 ≤ s.1 ∧ s.2 ≤ t.2

theorem Within.trans {t u : α × α} (hst : Within s t) (htu : Within t u) : Within s u :=
  ⟨htu.1.trans hst.1, hst.2.trans htu.2⟩

theorem earlierJoins_touching : EarlierJoins (touching : α → α → Bool) := by
  intro x y e hle hjoins
  exact decide_eq_true (hle.trans (of_decide_eq_true hjoins))

theorem joined_touching_apart (spans : List (α × α)) :
    (joined touching (sortedSpans spans)).Pairwise fun s t => s.2 < t.1 :=
  (joined_apart earlierJoins_touching spans).imp fun hapart =>
    not_le.mp fun hle => hapart (decide_eq_true hle)

/-- The spans that start in one joined span all hang together. -/
theorem joined_touching_linked (hordered : ∀ s ∈ spans, s.1 ≤ s.2) :
    ∀ t ∈ joined touching (sortedSpans spans), ∃ b ∈ spans, b.1 = t.1 ∧
      ∀ s ∈ spans, t.1 ≤ s.1 → s.1 ≤ t.2 → Relation.EqvGen (Touch spans) b s := by
  refine joined_all (fun b hb => ⟨b, hb, rfl, fun s hs hlow hhigh => ?_⟩)
    fun a s hs ha hle hjoins => ?_
  · exact .rel _ _ ⟨hb, hs, hlow.trans (hordered s hs), hhigh⟩
  · obtain ⟨b, hb, hstart, hlinked⟩ := ha
    have hsa : s.1 ≤ a.2 := of_decide_eq_true hjoins
    refine ⟨b, hb, hstart, fun u hu hlow hhigh => ?_⟩
    by_cases hua : u.1 ≤ a.2
    · exact hlinked u hu hlow hua
    · -- it starts behind the span so far, so it touches the one that is joined
      have hus : u.1 ≤ s.2 := (le_max_iff.mp hhigh).resolve_left hua
      exact (hlinked s hs hle hsa).trans _ _ _
        (.rel _ _ ⟨hs, hu, (hsa.trans (not_le.mp hua).le).trans (hordered u hu), hus⟩)

/-- Of two spans that are apart one ends before the other starts. -/
theorem apart_of_ne (happart : spans.Pairwise fun s t => s.2 < t.1) {t : α × α} (hs : s ∈ spans)
    (ht : t ∈ spans) (hne : s ≠ t) : s.2 < t.1 ∨ t.2 < s.1 := by
  let R : α × α → α × α → Prop := fun p q => p ≠ q → p.2 < q.1 ∨ q.2 < p.1
  have hside : ∀ p ∈ spans, ∀ q ∈ spans, R p q :=
    fun p hp q hq => List.Pairwise.forall_of_forall_of_flip (R := R)
      (fun _ _ hself => absurd rfl hself) (happart.imp fun hlt _ => .inl hlt)
      (happart.imp fun hlt _ => .inr hlt) hp hq
  exact hside s hs t ht hne

/-- Spans that hang together lie in the same joined span. -/
theorem within_of_linked {u t : α × α}
    (hlinked : Relation.EqvGen (Touch spans) s u) (ht : t ∈ joined touching (sortedSpans spans)) :
    Within s t ↔ Within u t := by
  have hstep {x y : α × α} (htouch : Touch spans x y) (hx : Within x t) : Within y t := by
    obtain ⟨-, hy, hxy, hyx⟩ := htouch
    obtain ⟨t', ht', hlow, hhigh⟩ := joined_cover touching hy
    by_cases heq : t' = t
    · rw [← heq]
      exact ⟨hlow, hhigh⟩
    obtain hbefore | hafter := apart_of_ne (joined_touching_apart spans) ht' ht heq
    · exact absurd (hx.1.trans (hxy.trans hhigh)) (not_le.mpr hbefore)
    · exact absurd (hlow.trans (hyx.trans hx.2)) (not_le.mpr hafter)
  induction hlinked with
  | rel x y htouch => exact ⟨hstep htouch, hstep ⟨htouch.2.1, htouch.1, htouch.2.2.2, htouch.2.2.1⟩⟩
  | refl x => exact Iff.rfl
  | symm x y _ ih => exact ih.symm
  | trans x y z _ _ ih₁ ih₂ => exact ih₁.trans ih₂

end Foundation.Spans
