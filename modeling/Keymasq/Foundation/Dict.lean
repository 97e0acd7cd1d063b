import Mathlib.Data.Finset.Card
import Mathlib.Data.List.Basic
import Mathlib.Data.List.Nodup

/-!
# Insertion-ordered dictionaries

Assignment to a present key replaces the value in place, assignment to an
absent key appends, and iteration follows the order of first insertion.
-/

namespace Foundation

/-- A finite map that remembers insertion order; no key occurs twice. -/
structure Dict (κ ν : Type*) where
  entries : List (κ × ν)
  nodup : (entries.map Prod.fst).Nodup

namespace Dict

variable {κ ν : Type*} {d : Dict κ ν} {k k' : κ} {v : ν}

instance [DecidableEq κ] [DecidableEq ν] : DecidableEq (Dict κ ν) := fun d e =>
  match d, e with
  | ⟨as, _⟩, ⟨bs, _⟩ =>
    if h : as = bs then isTrue (by subst h; rfl)
    else isFalse fun he => h (congrArg Dict.entries he)

theorem ext_entries {e : Dict κ ν} (h : d.entries = e.entries) : d = e := by
  cases d
  cases e
  cases h
  rfl

def empty : Dict κ ν := ⟨[], List.nodup_nil⟩

instance : EmptyCollection (Dict κ ν) := ⟨empty⟩
instance : Inhabited (Dict κ ν) := ⟨empty⟩

def keys (d : Dict κ ν) : List κ := d.entries.map Prod.fst
def values (d : Dict κ ν) : List ν := d.entries.map Prod.snd

/-- Keep the entries that satisfy the test, in order. -/
def filter (p : κ → ν → Bool) (d : Dict κ ν) : Dict κ ν :=
  ⟨d.entries.filter fun e => p e.1 e.2, d.nodup.sublist (List.filter_sublist.map Prod.fst)⟩

/-- Apply a function to every value, keeping keys and order. -/
def mapVal {μ : Type*} (f : κ → ν → μ) (d : Dict κ ν) : Dict κ μ :=
  ⟨d.entries.map fun e => (e.1, f e.1 e.2), by
    have h : (d.entries.map fun e => (e.1, f e.1 e.2)).map Prod.fst = d.entries.map Prod.fst := by
      simp only [List.map_map, Function.comp_def]
    rw [h]
    exact d.nodup⟩

/-- Rewrite or drop every entry, in order. -/
def filterMapVal {μ : Type*} (f : κ → ν → Option μ) (d : Dict κ ν) : Dict κ μ :=
  ⟨d.entries.filterMap fun e => (f e.1 e.2).map (e.1, ·), by
    have hsub : ∀ es : List (κ × ν), ((es.filterMap fun e => (f e.1 e.2).map (e.1, ·)).map
        Prod.fst).Sublist (es.map Prod.fst) := by
      intro es
      induction es with
      | nil => exact List.Sublist.refl _
      | cons e es ih =>
        cases h : f e.1 e.2 with
        | none => simpa [h] using ih.cons e.1
        | some v => simpa [h] using ih.cons_cons e.1
    exact d.nodup.sublist (hsub d.entries)⟩

variable [DecidableEq κ]

/-- `d.get(k)`. -/
def get? (d : Dict κ ν) (k : κ) : Option ν := d.entries.lookup k

/-- `k in d`. -/
def contains (d : Dict κ ν) (k : κ) : Bool := (d.get? k).isSome

def getD (d : Dict κ ν) (k : κ) (v : ν) : ν := (d.get? k).getD v

/-- `d.pop(k, None)`, the dictionary that is left. -/
def erase (d : Dict κ ν) (k : κ) : Dict κ ν := d.filter fun k' _ => k' ≠ k

theorem get?_eq_some_iff : d.get? k = some v ↔ (k, v) ∈ d.entries := by
  rw [get?, List.lookup_eq_some_iff]
  constructor
  · rintro ⟨before, after, hsplit, -⟩
    rw [hsplit]
    exact List.mem_append_right _ List.mem_cons_self
  · intro hmem
    obtain ⟨before, after, hsplit⟩ := List.append_of_mem hmem
    refine ⟨before, after, hsplit, fun e he => ?_⟩
    have hnd := d.nodup
    rw [hsplit, List.map_append, List.nodup_append] at hnd
    have hne : e.1 ≠ k := hnd.2.2 e.1 (List.mem_map_of_mem he) k List.mem_cons_self
    exact bne_iff_ne.mpr hne.symm

theorem get?_eq_none_iff : d.get? k = none ↔ k ∉ d.keys := by
  rw [Option.eq_none_iff_forall_ne_some]
  constructor
  · intro h hk
    obtain ⟨e, he, rfl⟩ := List.mem_map.mp hk
    exact h e.2 (get?_eq_some_iff.mpr he)
  · intro h v hv
    exact h (List.mem_map.mpr ⟨(k, v), get?_eq_some_iff.mp hv, rfl⟩)

theorem contains_iff : d.contains k = true ↔ k ∈ d.keys := by
  rw [contains, Option.isSome_iff_ne_none, ne_eq, get?_eq_none_iff, not_not]

theorem mem_values_iff : v ∈ d.values ↔ ∃ k, d.get? k = some v := by
  simp only [values, List.mem_map, get?_eq_some_iff, Prod.exists, exists_eq_right]

@[simp] theorem get?_empty (k : κ) : (∅ : Dict κ ν).get? k = none := rfl

theorem not_get?_empty : (∅ : Dict κ ν).get? k ≠ some v := by
  rw [get?_empty]
  exact Option.some_ne_none v |>.symm

/-- `d[k] = v`. -/
def insert (d : Dict κ ν) (k : κ) (v : ν) : Dict κ ν :=
  if h : k ∈ d.keys then
    d.mapVal fun k' v' => if k' = k then v else v'
  else
    ⟨d.entries ++ [(k, v)], by
      rw [List.map_append, List.nodup_append]
      refine ⟨d.nodup, List.nodup_singleton _, ?_⟩
      rintro a ha b hb rfl
      simp only [List.map_cons, List.map_nil, List.mem_singleton] at hb
      exact h (hb ▸ ha)⟩

theorem get?_filter_eq_some {p : κ → ν → Bool} :
    (d.filter p).get? k = some v ↔ d.get? k = some v ∧ p k v = true := by
  rw [get?_eq_some_iff, get?_eq_some_iff]
  simp only [filter, List.mem_filter]

omit [DecidableEq κ] in
theorem keys_mapVal {μ : Type*} (f : κ → ν → μ) (d : Dict κ ν) : (d.mapVal f).keys = d.keys := by
  simp only [keys, mapVal, List.map_map]
  rfl

theorem get?_mapVal {μ : Type*} (f : κ → ν → μ) (d : Dict κ ν) (k : κ) :
    (d.mapVal f).get? k = (d.get? k).map (f k) := by
  cases h : d.get? k with
  | none =>
    rw [get?_eq_none_iff] at h
    rw [Option.map_none, get?_eq_none_iff, keys_mapVal]
    exact h
  | some v =>
    rw [Option.map_some, get?_eq_some_iff]
    exact List.mem_map.mpr ⟨(k, v), get?_eq_some_iff.mp h, rfl⟩

theorem get?_filterMapVal {μ : Type*} (f : κ → ν → Option μ) (d : Dict κ ν) (k : κ) :
    (d.filterMapVal f).get? k = (d.get? k).bind (f k) := by
  ext w
  rw [get?_eq_some_iff, Option.bind_eq_some_iff]
  simp only [filterMapVal, List.mem_filterMap, Option.map_eq_some_iff, Prod.mk.injEq]
  constructor
  · rintro ⟨e, he, v, hv, rfl, rfl⟩
    exact ⟨e.2, get?_eq_some_iff.mpr he, hv⟩
  · rintro ⟨v, hv, hw⟩
    exact ⟨(k, v), get?_eq_some_iff.mp hv, w, hw, rfl, rfl⟩

theorem get?_filter (p : κ → ν → Bool) (d : Dict κ ν) (k : κ) :
    (d.filter p).get? k = (d.get? k).filter (p k) := by
  ext v
  rw [get?_filter_eq_some, Option.filter_eq_some_iff]

@[simp] theorem get?_insert_self (d : Dict κ ν) (k : κ) (v : ν) :
    (d.insert k v).get? k = some v := by
  unfold insert
  split
  · rename_i h
    rw [get?_mapVal]
    obtain ⟨w, hw⟩ := Option.ne_none_iff_exists'.mp fun hn => get?_eq_none_iff.mp hn h
    rw [hw, Option.map_some, if_pos rfl]
  · exact get?_eq_some_iff.mpr (List.mem_append_right _ List.mem_cons_self)

theorem get?_insert_of_ne (d : Dict κ ν) (v : ν) (h : k' ≠ k) :
    (d.insert k v).get? k' = d.get? k' := by
  unfold insert
  split
  · rw [get?_mapVal]
    simp [h]
  · ext w
    rw [get?_eq_some_iff, get?_eq_some_iff]
    simp [h]

theorem get?_insert (d : Dict κ ν) (k k' : κ) (v : ν) :
    (d.insert k v).get? k' = if k' = k then some v else d.get? k' := by
  split
  · subst k'
    exact get?_insert_self d k v
  · exact get?_insert_of_ne d v (by assumption)

/-- Putting what is there changes nothing. -/
theorem insert_of_get? (h : d.get? k = some v) : d.insert k v = d := by
  have hmem : k ∈ d.keys := contains_iff.mp (by rw [contains, h, Option.isSome_some])
  apply ext_entries
  unfold insert
  rw [dif_pos hmem]
  change d.entries.map (fun e => (e.1, if e.1 = k then v else e.2)) = d.entries
  conv_rhs => rw [← List.map_id d.entries]
  refine List.map_congr_left fun e he => ?_
  split
  · next heq =>
    have hget : d.get? e.1 = some e.2 := get?_eq_some_iff.mpr he
    rw [heq, h] at hget
    cases hget
    rfl
  · rfl

theorem get?_erase (d : Dict κ ν) (k k' : κ) :
    (d.erase k).get? k' = if k' = k then none else d.get? k' := by
  ext w
  rw [erase, get?_filter_eq_some]
  split <;> simp_all

@[simp] theorem get?_erase_self (d : Dict κ ν) (k : κ) : (d.erase k).get? k = none := by
  rw [get?_erase, if_pos rfl]

theorem get?_erase_of_ne (d : Dict κ ν) (h : k' ≠ k) : (d.erase k).get? k' = d.get? k' := by
  rw [get?_erase, if_neg h]

theorem erase_insert_self (d : Dict κ ν) (k : κ) (v : ν) : (d.insert k v).erase k = d.erase k := by
  apply ext_entries
  have hmap : ∀ es : List (κ × ν),
      (es.map fun e => (e.1, if e.1 = k then v else e.2)).filter (fun e => e.1 ≠ k) =
        es.filter fun e => e.1 ≠ k := by
    intro es
    induction es with
    | nil => rfl
    | cons e es ih =>
      by_cases he : e.1 = k
      · simpa [he] using ih
      · simpa [he] using ih
  unfold insert erase filter mapVal
  split
  · exact hmap d.entries
  · simp

theorem erase_of_get?_eq_none (h : d.get? k = none) : d.erase k = d := by
  apply ext_entries
  refine List.filter_eq_self.mpr fun e he => ?_
  rw [decide_eq_true_eq]
  intro heq
  exact get?_eq_none_iff.mp h (List.mem_map.mpr ⟨e, he, heq⟩)

/-- An entry can be taken to the front. -/
theorem entries_perm_of_get? (h : d.get? k = some v) :
    d.entries.Perm ((k, v) :: (d.erase k).entries) := by
  obtain ⟨before, after, hsplit⟩ := List.append_of_mem (get?_eq_some_iff.mp h)
  have hnodup := d.nodup
  rw [hsplit, List.map_append, List.map_cons, List.nodup_append, List.nodup_cons] at hnodup
  obtain ⟨-, ⟨hafter, -⟩, hbefore⟩ := hnodup
  have hkept : ∀ es : List (κ × ν), (∀ e ∈ es, e.1 ≠ k) → es.filter (fun e => e.1 ≠ k) = es :=
    fun es hes => List.filter_eq_self.mpr fun e he => decide_eq_true (hes e he)
  have hrest : (d.erase k).entries = before ++ after := by
    change d.entries.filter (fun e => e.1 ≠ k) = before ++ after
    rw [hsplit, List.filter_append, List.filter_cons_of_neg (by simp)]
    have hlater : ∀ e ∈ after, e.1 ≠ k := by
      intro e he heq
      have hmem : e.1 ∈ after.map Prod.fst := List.mem_map_of_mem he
      rw [heq] at hmem
      exact hafter hmem
    rw [hkept before fun e he => hbefore e.1 (List.mem_map_of_mem he) k List.mem_cons_self,
      hkept after hlater]
  rw [hrest, hsplit]
  exact List.perm_middle

theorem entries_insert_perm (d : Dict κ ν) (k : κ) (v : ν) :
    (d.insert k v).entries.Perm ((k, v) :: (d.erase k).entries) := by
  have hperm := entries_perm_of_get? (get?_insert_self d k v)
  rw [erase_insert_self] at hperm
  exact hperm

theorem contains_insert : (d.insert k v).contains k' = true ↔ k' = k ∨ d.contains k' = true := by
  rw [contains, contains, get?_insert]
  by_cases h : k' = k
  · simp [h]
  · simp [h]

theorem contains_erase : (d.erase k).contains k' = true ↔ k' ≠ k ∧ d.contains k' = true := by
  rw [contains, contains, get?_erase]
  by_cases h : k' = k
  · simp [h]
  · simp [h]

/-- Assign the pairs in order, so the last value of a repeated key stands. -/
def ofList (es : List (κ × ν)) : Dict κ ν := es.foldl (fun d e => d.insert e.1 e.2) ∅

theorem get?_foldl_insert (es : List (κ × ν)) (d : Dict κ ν) (k : κ) (v : ν)
    (h : (es.foldl (fun d e => d.insert e.1 e.2) d).get? k = some v) :
    (k, v) ∈ es ∨ d.get? k = some v := by
  induction es generalizing d with
  | nil => exact Or.inr h
  | cons e es ih =>
    rcases ih (d.insert e.1 e.2) h with hm | hg
    · exact Or.inl (List.mem_cons_of_mem _ hm)
    · rw [get?_insert] at hg
      split at hg
      · rename_i hk
        cases hg
        exact Or.inl (by simp [hk])
      · exact Or.inr hg

theorem mem_of_get?_ofList {es : List (κ × ν)} (h : (ofList es).get? k = some v) : (k, v) ∈ es := by
  rcases get?_foldl_insert es ∅ k v h with hm | hg
  · exact hm
  · cases hg

section Buckets

variable {α : Type*} [DecidableEq α]

/-- `d.setdefault(k, set()).add(a)`. -/
def addTo (d : Dict κ (Finset α)) (k : κ) (a : α) : Dict κ (Finset α) :=
  d.insert k (Insert.insert a (d.getD k ∅))

/-- Discard `a` from the bucket of `k`, and drop a bucket left empty. -/
def discardFrom (d : Dict κ (Finset α)) (k : κ) (a : α) : Dict κ (Finset α) :=
  match d.get? k with
  | none => d
  | some bucket =>
    if bucket.erase a = ∅ then d.erase k else d.insert k (bucket.erase a)

@[simp] theorem getD_empty (k : κ) (v : ν) : (∅ : Dict κ ν).getD k v = v := rfl

variable {d : Dict κ (Finset α)}

theorem mem_getD_addTo {a b : α} :
    b ∈ (d.addTo k a).getD k' ∅ ↔ (k' = k ∧ b = a) ∨ b ∈ d.getD k' ∅ := by
  rw [addTo, getD, get?_insert]
  split
  · rename_i hk
    subst hk
    simp
  · rename_i hk
    simp [hk, getD]

theorem mem_getD_discardFrom {a b : α} :
    b ∈ (d.discardFrom k a).getD k' ∅ ↔ b ∈ d.getD k' ∅ ∧ ¬ (k' = k ∧ b = a) := by
  unfold discardFrom
  cases h : d.get? k with
  | none =>
    refine ⟨fun hb => ⟨hb, ?_⟩, And.left⟩
    rintro ⟨rfl, -⟩
    simp [getD, h] at hb
  | some bucket =>
    by_cases hk : k' = k
    · subst hk
      by_cases hempty : bucket.erase a = ∅
      · have hiff := Finset.ext_iff.mp hempty b
        simp only [Finset.mem_erase, Finset.notMem_empty, iff_false, not_and] at hiff
        simp only [hempty, if_true, getD, get?_erase_self, h, Option.getD_none, Option.getD_some]
        simp only [Finset.notMem_empty, true_and, false_iff, not_and, not_not]
        intro hb
        by_contra hne
        exact hiff hne hb
      · simp only [hempty, if_false, getD, get?_insert_self, h, Option.getD_some]
        rw [Finset.mem_erase]
        tauto
    · have hne : ¬ (k' = k ∧ b = a) := fun hc => hk hc.1
      by_cases hempty : bucket.erase a = ∅
      · simp only [hempty, if_true, getD, get?_erase_of_ne d hk, hne, not_false_iff, and_true]
      · simp only [hempty, if_false, getD, get?_insert_of_ne d _ hk, hne, not_false_iff, and_true]

/-- The buckets sort the items by their key. -/
def Bucketed (key : α → κ) (items : Finset α) (d : Dict κ (Finset α)) : Prop :=
  ∀ k a, a ∈ d.getD k ∅ ↔ a ∈ items ∧ key a = k

omit [DecidableEq α] in
theorem bucketed_empty (key : α → κ) : Bucketed key ∅ ∅ := by
  intro k a
  simp

theorem Bucketed.addTo {key : α → κ} {items : Finset α} (h : Bucketed key items d) (a : α) :
    Bucketed key (Insert.insert a items) (d.addTo (key a) a) := by
  intro k b
  rw [mem_getD_addTo, h k b, Finset.mem_insert]
  constructor
  · rintro (⟨rfl, rfl⟩ | ⟨hb, rfl⟩)
    · exact ⟨Or.inl rfl, rfl⟩
    · exact ⟨Or.inr hb, rfl⟩
  · rintro ⟨rfl | hb, rfl⟩
    · exact Or.inl ⟨rfl, rfl⟩
    · exact Or.inr ⟨hb, rfl⟩

theorem Bucketed.discardFrom {key : α → κ} {items : Finset α} (h : Bucketed key items d) (a : α) :
    Bucketed key (items.erase a) (d.discardFrom (key a) a) := by
  intro k b
  rw [mem_getD_discardFrom, h k b, Finset.mem_erase]
  constructor
  · rintro ⟨⟨hb, rfl⟩, hne⟩
    refine ⟨⟨?_, hb⟩, rfl⟩
    rintro rfl
    exact hne ⟨rfl, rfl⟩
  · rintro ⟨⟨hne, hb⟩, rfl⟩
    exact ⟨⟨hb, rfl⟩, fun hc => hne hc.2⟩

omit [DecidableEq α] in
/-- No bucket is empty. -/
def Filled (d : Dict κ (Finset α)) : Prop := ∀ k bucket, d.get? k = some bucket → bucket ≠ ∅

omit [DecidableEq α] in
theorem filled_empty : Filled (∅ : Dict κ (Finset α)) := nofun

theorem Filled.addTo (h : Filled d) (k : κ) (a : α) : Filled (d.addTo k a) := by
  intro k' bucket hget
  rw [Dict.addTo, get?_insert] at hget
  split at hget
  · cases hget
    exact Finset.insert_ne_empty _ _
  · exact h k' bucket hget

theorem Filled.discardFrom (h : Filled d) (k : κ) (a : α) : Filled (d.discardFrom k a) := by
  intro k' bucket hget
  unfold Dict.discardFrom at hget
  split at hget
  · exact h k' bucket hget
  · split at hget
    · rw [get?_erase] at hget
      split at hget
      · cases hget
      · exact h k' bucket hget
    · rename_i hleft
      rw [get?_insert] at hget
      split at hget
      · cases hget
        exact hleft
      · exact h k' bucket hget

end Buckets

/-- Of results tagged with their keys, those of one key come from its entry. -/
theorem filter_filterMap_values {τ : Type*} (f : ν → Option τ) (tag : τ → κ) (d : Dict κ ν)
    (htag : ∀ k v t, d.get? k = some v → f v = some t → tag t = k) (k : κ) :
    (d.values.filterMap f).filter (fun t => tag t = k) = ((d.get? k).bind f).toList := by
  obtain ⟨es, hnd⟩ := d
  simp only [get?_eq_some_iff] at htag
  simp only [values, get?]
  induction es with
  | nil => rfl
  | cons e es ih =>
    obtain ⟨k', v⟩ := e
    rw [List.map_cons, List.nodup_cons] at hnd
    have hrest := ih hnd.2 fun k v t hm => htag k v t (List.mem_cons_of_mem _ hm)
    have hv : ∀ t, f v = some t → tag t = k' := fun t => htag k' v t List.mem_cons_self
    by_cases hk : k = k'
    · subst hk
      have hlookup : es.lookup k = none := by
        rw [List.lookup_eq_none_iff]
        intro e he
        have hmem : e.1 ∈ es.map Prod.fst := List.mem_map_of_mem he
        have hne : k ≠ e.1 := fun heq => hnd.1 (heq ▸ hmem)
        exact bne_iff_ne.mpr hne
      rw [hlookup] at hrest
      simp only [List.map_cons, List.lookup_cons_self, Option.bind_some]
      cases hf : f v with
      | none =>
        rw [List.filterMap_cons_none hf]
        exact hrest
      | some t =>
        have ht : decide (tag t = k) = true := decide_eq_true (hv t hf)
        rw [List.filterMap_cons_some hf, List.filter_cons_of_pos (p := fun t => tag t = k) ht,
          hrest]
        rfl
    · have hlookup : ((k', v) :: es).lookup k = es.lookup k := by
        have hbeq : (k == k') = false := beq_eq_false_iff_ne.mpr hk
        rw [List.lookup_cons, hbeq]
      rw [hlookup, ← hrest]
      simp only [List.map_cons]
      cases hf : f v with
      | none => rw [List.filterMap_cons_none hf]
      | some t =>
        have ht : tag t ≠ k := by
          rw [hv t hf]
          exact fun heq => hk heq.symm
        rw [List.filterMap_cons_some hf,
          List.filter_cons_of_neg (p := fun t => tag t = k) (by rwa [decide_eq_true_eq])]

theorem get?_foldl_erase (ks : List κ) (d : Dict κ ν) (k : κ) :
    (ks.foldl erase d).get? k = if k ∈ ks then none else d.get? k := by
  induction ks generalizing d with
  | nil => simp
  | cons k' ks ih =>
    rw [List.foldl_cons, ih, get?_erase]
    by_cases hk : k ∈ ks <;> by_cases hk' : k = k' <;> simp [hk, hk']

/-- `d.update(e)`. -/
def update (d e : Dict κ ν) : Dict κ ν := e.entries.foldl (fun d e => d.insert e.1 e.2) d

theorem get?_foldl_insert_nodup (es : List (κ × ν)) (hnd : (es.map Prod.fst).Nodup)
    (d : Dict κ ν) (k : κ) :
    (es.foldl (fun d e => d.insert e.1 e.2) d).get? k = (es.lookup k).or (d.get? k) := by
  induction es generalizing d with
  | nil => rfl
  | cons e es ih =>
    obtain ⟨k', v⟩ := e
    rw [List.map_cons, List.nodup_cons] at hnd
    rw [List.foldl_cons, ih hnd.2, get?_insert, List.lookup_cons]
    by_cases hk : k = k'
    · have hnone : es.lookup k = none := by
        rw [List.lookup_eq_none_iff]
        intro e' he'
        rw [hk, bne_iff_ne]
        exact fun heq => hnd.1 (List.mem_map.mpr ⟨e', he', heq.symm⟩)
      rw [hnone, if_pos hk, hk, beq_self_eq_true]
      rfl
    · rw [if_neg hk, beq_eq_false_iff_ne.mpr hk]

theorem get?_update (d e : Dict κ ν) (k : κ) :
    (d.update e).get? k = (e.get? k).or (d.get? k) :=
  get?_foldl_insert_nodup e.entries e.nodup d k

/-- The keys whose values satisfy the test. -/
def keysWhere (p : ν → Bool) (d : Dict κ ν) : Finset κ := (d.filter fun _ v => p v).keys.toFinset

theorem mem_keysWhere {p : ν → Bool} : k ∈ d.keysWhere p ↔ ∃ v, d.get? k = some v ∧ p v = true := by
  rw [keysWhere, List.mem_toFinset, ← contains_iff, contains, Option.isSome_iff_exists]
  simp only [get?_filter_eq_some]

theorem keysWhere_insert (p : ν → Bool) (d : Dict κ ν) (k : κ) (v : ν) :
    (d.insert k v).keysWhere p =
      if p v = true then Insert.insert k (d.keysWhere p) else (d.keysWhere p).erase k := by
  ext k'
  by_cases hv : p v = true
  · rw [if_pos hv, Finset.mem_insert, mem_keysWhere, mem_keysWhere, get?_insert]
    by_cases hk : k' = k
    · simp [hk, hv]
    · simp [hk]
  · rw [if_neg hv, Finset.mem_erase, mem_keysWhere, mem_keysWhere, get?_insert]
    by_cases hk : k' = k
    · simp [hk, hv]
    · simp [hk]

theorem keysWhere_erase (p : ν → Bool) (d : Dict κ ν) (k : κ) :
    (d.erase k).keysWhere p = (d.keysWhere p).erase k := by
  ext k'
  rw [Finset.mem_erase, mem_keysWhere, mem_keysWhere, get?_erase]
  by_cases hk : k' = k
  · simp [hk]
  · simp [hk]

theorem card_keysWhere_insert (p : ν → Bool) (hv : d.get? k = some v) (w : ν) :
    ((d.insert k w).keysWhere p).card + (if p v = true then 1 else 0) =
      (d.keysWhere p).card + (if p w = true then 1 else 0) := by
  have hmem : k ∈ d.keysWhere p ↔ p v = true := by
    rw [mem_keysWhere, hv]
    simp
  rw [keysWhere_insert]
  by_cases hpv : p v = true
  · have hk := hmem.mpr hpv
    have hpos := Finset.card_pos.mpr ⟨k, hk⟩
    by_cases hpw : p w = true
    · rw [if_pos hpw, if_pos hpv, if_pos hpw, Finset.insert_eq_of_mem hk]
    · rw [if_neg hpw, if_pos hpv, if_neg hpw, Finset.card_erase_of_mem hk]
      omega
  · have hk : k ∉ d.keysWhere p := fun hk => hpv (hmem.mp hk)
    by_cases hpw : p w = true
    · rw [if_pos hpw, if_neg hpv, if_pos hpw, Finset.card_insert_of_notMem hk]
    · rw [if_neg hpw, if_neg hpv, if_neg hpw, Finset.erase_eq_of_notMem hk]

theorem card_keysWhere_insert_new (p : ν → Bool) (hk : d.get? k = none) (v : ν) :
    ((d.insert k v).keysWhere p).card = (d.keysWhere p).card + (if p v = true then 1 else 0) := by
  have hmem : k ∉ d.keysWhere p := by
    rw [mem_keysWhere, hk]
    nofun
  rw [keysWhere_insert]
  by_cases hpv : p v = true
  · rw [if_pos hpv, if_pos hpv, Finset.card_insert_of_notMem hmem]
  · rw [if_neg hpv, if_neg hpv, Finset.erase_eq_of_notMem hmem, Nat.add_zero]

theorem card_keysWhere_erase (p : ν → Bool) (hv : d.get? k = some v) :
    ((d.erase k).keysWhere p).card + (if p v = true then 1 else 0) = (d.keysWhere p).card := by
  have hmem : k ∈ d.keysWhere p ↔ p v = true := by
    rw [mem_keysWhere, hv]
    simp
  rw [keysWhere_erase]
  by_cases hpv : p v = true
  · have hk := hmem.mpr hpv
    have hpos := Finset.card_pos.mpr ⟨k, hk⟩
    rw [if_pos hpv, Finset.card_erase_of_mem hk]
    omega
  · rw [if_neg hpv, Finset.erase_eq_of_notMem fun hk => hpv (hmem.mp hk), Nat.add_zero]

end Dict

end Foundation
