import Mathlib.Algebra.Group.Nat.Even
import Mathlib.Data.List.Count
import Mathlib.Data.List.Nodup
import Keymasq.Foundation.Transition

/-!
# Alternating edges

A list of edges names a key and the value it takes, 1 for pressed and 0 for
released. The list is balanced when the edges of each key alternate, from
released to released.
-/

namespace Foundation.Alternation

/-- The values are pairs of a press and a release. -/
def alternates : List Int → Bool
  | [] => true
  | 1 :: 0 :: values => alternates values
  | _ => false

theorem alternates_append (as bs : List Int) (heven : Even as.length) :
    alternates (as ++ bs) = (alternates as && alternates bs) := by
  induction as using alternates.induct with
  | case1 => rfl
  | case2 values ih =>
    have hrest : Even values.length := by
      rw [List.length_cons, List.length_cons, Nat.even_add_one, Nat.even_add_one, not_not] at heven
      exact heven
    exact ih hrest
  | case3 values hnil hpair =>
    match values, heven with
    | [], _ => exact absurd rfl hnil
    | [_], heven => simp at heven
    | a :: b :: values, _ =>
      have hfalse : ∀ rest, alternates (a :: b :: rest) = false := by
        intro rest
        unfold alternates
        split
        · rename_i heq
          cases heq
        · rename_i heq
          cases heq
          exact absurd rfl (hpair values)
        · rfl
      rw [List.cons_append, List.cons_append, hfalse, hfalse, Bool.false_and]

/-- Presses followed by as many releases alternate when there is at most one of each. -/
theorem alternates_replicate (n : Nat) :
    alternates (List.replicate n 1 ++ List.replicate n 0) = true ↔ n ≤ 1 := by
  match n with
  | 0 => decide
  | 1 => decide
  | n + 2 => simp [List.replicate_succ, alternates]

section Edges

variable {κ : Type*} [DecidableEq κ]

/-- The values the key takes, in order. -/
def valuesOf (k : κ) (edges : List (κ × Int)) : List Int :=
  (edges.filter fun e => e.1 = k).map Prod.snd

def Balanced (edges : List (κ × Int)) : Prop := ∀ k, alternates (valuesOf k edges) = true

/-- Every key has as many presses as releases, so their number is even. -/
def Paired (edges : List (κ × Int)) : Prop := ∀ k, Even (valuesOf k edges).length

theorem valuesOf_append (k : κ) (as bs : List (κ × Int)) :
    valuesOf k (as ++ bs) = valuesOf k as ++ valuesOf k bs := by
  rw [valuesOf, List.filter_append, List.map_append]
  rfl

theorem balanced_nil : Balanced ([] : List (κ × Int)) := fun _ => rfl

theorem paired_nil : Paired ([] : List (κ × Int)) := fun _ => Even.zero

theorem Paired.append {as bs : List (κ × Int)} (ha : Paired as) (hb : Paired bs) :
    Paired (as ++ bs) := by
  intro k
  rw [valuesOf_append, List.length_append]
  exact (ha k).add (hb k)

theorem balanced_append_iff {as bs : List (κ × Int)} (ha : Paired as) :
    Balanced (as ++ bs) ↔ Balanced as ∧ Balanced bs := by
  simp only [Balanced, valuesOf_append, alternates_append _ _ (ha _), Bool.and_eq_true]
  exact forall_and

/-- The keys are pressed in order and released in the opposite order. -/
def chord (ks : List κ) : List (κ × Int) :=
  (ks.map fun k => (k, 1)) ++ (ks.reverse.map fun k => (k, 0))

theorem valuesOf_map (k : κ) (ks : List κ) (value : Int) :
    valuesOf k (ks.map fun l => (l, value)) = List.replicate (ks.count k) value := by
  induction ks with
  | nil => rfl
  | cons l ks ih =>
    have hcons : valuesOf k ((l :: ks).map fun l => (l, value)) =
        if l = k then value :: valuesOf k (ks.map fun l => (l, value))
        else valuesOf k (ks.map fun l => (l, value)) := by
      by_cases hl : l = k
      · simp [valuesOf, hl]
      · simp [valuesOf, hl]
    rw [hcons, ih]
    by_cases hl : l = k
    · rw [if_pos hl, hl, List.count_cons_self, List.replicate_succ]
    · rw [if_neg hl, List.count_cons_of_ne hl]

theorem valuesOf_chord (k : κ) (ks : List κ) :
    valuesOf k (chord ks) = List.replicate (ks.count k) 1 ++ List.replicate (ks.count k) 0 := by
  rw [chord, valuesOf_append, valuesOf_map, valuesOf_map, List.count_reverse]

theorem paired_chord (ks : List κ) : Paired (chord ks) := by
  intro k
  rw [valuesOf_chord, List.length_append, List.length_replicate, List.length_replicate]
  exact Even.add_self _

/-- A chord is balanced when no key occurs in it twice. -/
theorem balanced_chord_iff (ks : List κ) : Balanced (chord ks) ↔ ks.Nodup := by
  rw [List.nodup_iff_count_le_one]
  apply forall_congr'
  intro k
  rw [valuesOf_chord]
  exact alternates_replicate _

/-! ## Edges that are still being written -/

/-- Whether a key is down after an edge; a repeat leaves it, an edge out of turn is lost. -/
def edgeStep : Bool → Int → Option Bool
  | false, 1 => some true
  | true, 0 => some false
  | down, 2 => some down
  | _, _ => none

/-- Whether the key is down after the edges, `none` once one came out of turn. -/
def downAfter (k : κ) (edges : List (κ × Int)) : Option Bool :=
  Transition.run edgeStep false (valuesOf k edges)

@[simp] theorem downAfter_nil (k : κ) : downAfter k ([] : List (κ × Int)) = some false := rfl

theorem downAfter_append_self (k : κ) (edges : List (κ × Int)) (value : Int) :
    downAfter k (edges ++ [(k, value)]) = (downAfter k edges).bind fun down =>
      edgeStep down value := by
  have hvalues : valuesOf k [(k, value)] = [value] := by simp [valuesOf]
  rw [downAfter, valuesOf_append, Transition.run_append, hvalues, downAfter]
  cases Transition.run edgeStep false (valuesOf k edges) with
  | none => rfl
  | some down =>
    simp only [Option.bind_some, Transition.run_cons, Transition.run_nil]
    cases edgeStep down value <;> rfl

theorem downAfter_append_of_ne {k l : κ} (h : l ≠ k) (edges : List (κ × Int)) (value : Int) :
    downAfter k (edges ++ [(l, value)]) = downAfter k edges := by
  have hvalues : valuesOf k [(l, value)] = [] := by simp [valuesOf, h]
  rw [downAfter, valuesOf_append, hvalues, List.append_nil, downAfter]

/-- Whether the last edge of a key that is no repeat is a press, in turn or not. -/
def isDown (k : κ) (edges : List (κ × Int)) : Bool :=
  (valuesOf k edges).foldl (fun down value => if value = 1 then true else if value = 0 then false
    else down) false

@[simp] theorem isDown_nil (k : κ) : isDown k ([] : List (κ × Int)) = false := rfl

theorem isDown_append_self (k : κ) (edges : List (κ × Int)) (value : Int) :
    isDown k (edges ++ [(k, value)]) =
      if value = 1 then true else if value = 0 then false else isDown k edges := by
  have hvalues : valuesOf k [(k, value)] = [value] := by simp [valuesOf]
  rw [isDown, valuesOf_append, hvalues, List.foldl_append]
  rfl

theorem isDown_append_of_ne {k l : κ} (h : l ≠ k) (edges : List (κ × Int)) (value : Int) :
    isDown k (edges ++ [(l, value)]) = isDown k edges := by
  have hvalues : valuesOf k [(l, value)] = [] := by simp [valuesOf, h]
  rw [isDown, valuesOf_append, hvalues, List.append_nil, isDown]

/-! ## The last edge of a key -/

/-- The value of the last edge of a key. -/
def lastValue (k : κ) : List (κ × Int) → Option Int
  | [] => none
  | e :: edges => (lastValue k edges).or (if e.1 = k then some e.2 else none)

@[simp] theorem lastValue_nil (k : κ) : lastValue k ([] : List (κ × Int)) = none := rfl

theorem lastValue_cons (k : κ) (e : κ × Int) (edges : List (κ × Int)) :
    lastValue k (e :: edges) = (lastValue k edges).or (if e.1 = k then some e.2 else none) := rfl

theorem lastValue_append (k : κ) (as bs : List (κ × Int)) :
    lastValue k (as ++ bs) = (lastValue k bs).or (lastValue k as) := by
  induction as with
  | nil => rw [List.nil_append, lastValue_nil, Option.or_none]
  | cons e as ih => rw [List.cons_append, lastValue_cons, ih, lastValue_cons, Option.or_assoc]

theorem lastValue_append_self (k : κ) (edges : List (κ × Int)) (value : Int) :
    lastValue k (edges ++ [(k, value)]) = some value := by
  rw [lastValue_append, lastValue_cons, if_pos rfl]
  rfl

theorem lastValue_append_of_ne {k l : κ} (h : l ≠ k) (edges : List (κ × Int)) (value : Int) :
    lastValue k (edges ++ [(l, value)]) = lastValue k edges := by
  rw [lastValue_append, lastValue_cons, if_neg h]
  rfl

/-- All edges of a key have one value. -/
theorem lastValue_map (k : κ) (ks : List κ) (value : Int) :
    lastValue k (ks.map (·, value)) = if k ∈ ks then some value else none := by
  induction ks with
  | nil => rfl
  | cons l ks ih =>
    rw [List.map_cons, lastValue_cons, ih]
    by_cases hk : k ∈ ks
    · simp [hk]
    · by_cases hl : l = k
      · simp [hl, hk]
      · simp [hk, hl, Ne.symm hl]

end Edges

end Foundation.Alternation
