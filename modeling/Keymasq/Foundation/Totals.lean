import Keymasq.Foundation.Dict
import Mathlib.Algebra.Order.BigOperators.Group.List

/-!
# Totals over a dictionary

What the entries weigh together, as entries come and go.
-/

namespace Foundation.Dict

variable {κ ν M : Type*} [DecidableEq κ] [AddCommMonoid M] (f : ν → M)

/-- The weight of all values. -/
def total (d : Dict κ ν) : M := (d.values.map f).sum

omit [DecidableEq κ] in
@[simp] theorem total_empty : total f (∅ : Dict κ ν) = 0 := rfl

variable {d : Dict κ ν}

theorem total_erase {k : κ} {v : ν} (h : d.get? k = some v) :
    total f d = f v + total f (d.erase k) := by
  obtain ⟨before, after, hsplit⟩ := List.append_of_mem (get?_eq_some_iff.mp h)
  have hkeys := d.nodup
  rw [hsplit, List.map_append, List.map_cons, List.nodup_middle, List.nodup_cons,
    List.mem_append] at hkeys
  have hall (es : List (κ × ν)) (hnew : k ∉ es.map Prod.fst) :
      es.filter (fun e => decide (e.1 ≠ k)) = es :=
    List.filter_eq_self.mpr fun e he => decide_eq_true fun heq =>
      hnew (List.mem_map.mpr ⟨e, he, heq⟩)
  have herase : (d.erase k).entries = before ++ after := by
    change d.entries.filter (fun e => decide (e.1 ≠ k)) = _
    rw [hsplit, List.filter_append, hall before fun hmem => hkeys.1 (Or.inl hmem),
      List.filter_cons_of_neg (by rw [decide_eq_true_iff]; exact fun hne => hne rfl),
      hall after fun hmem => hkeys.1 (Or.inr hmem)]
  unfold total values
  rw [hsplit, herase, List.map_append, List.map_append, List.map_append, List.map_append,
    List.sum_append, List.sum_append, List.map_cons, List.map_cons, List.sum_cons,
    add_left_comm]

theorem total_insert_new {k : κ} (h : d.get? k = none) (v : ν) :
    total f (d.insert k v) = f v + total f d := by
  have hnew : k ∉ d.keys := get?_eq_none_iff.mp h
  have hentries : (d.insert k v).entries = d.entries ++ [(k, v)] := by
    rw [insert, dif_neg hnew]
  unfold total values
  rw [hentries, List.map_append, List.map_append, List.sum_append, add_comm]
  exact congrArg (· + _) (List.sum_singleton)

/-- A value in the place of another. -/
theorem total_insert {k : κ} {old : ν} (h : d.get? k = some old) (v : ν) :
    f old + total f (d.insert k v) = f v + total f d := by
  have hself : (d.insert k v).get? k = some v := get?_insert_self d k v
  rw [total_erase f hself, erase_insert_self, total_erase f h, add_left_comm]

section Order

variable {f : ν → M} [PartialOrder M] [IsOrderedAddMonoid M]

omit [AddCommMonoid M] [IsOrderedAddMonoid M] in
theorem forall_get? {P : ν → Prop} (h : ∀ k v, d.get? k = some v → P v) :
    ∀ v ∈ d.values, P v := fun v hmem => by
  obtain ⟨k, hk⟩ := mem_values_iff.mp hmem
  exact h k v hk

theorem total_nonneg (h : ∀ k v, d.get? k = some v → 0 ≤ f v) : 0 ≤ total f d := by
  refine List.sum_nonneg fun m hm => ?_
  obtain ⟨v, hv, rfl⟩ := List.mem_map.mp hm
  exact forall_get? h v hv

theorem le_total (hnonneg : ∀ k v, d.get? k = some v → 0 ≤ f v) {k : κ} {v : ν}
    (h : d.get? k = some v) : f v ≤ total f d := by
  rw [total_erase f h]
  refine le_add_of_nonneg_right (total_nonneg fun k' v' h' => ?_)
  exact hnonneg k' v' (get?_filter_eq_some.mp h').1

end Order

end Foundation.Dict
