import Keymasq.Foundation.Dict
import Mathlib.Data.Finset.Lattice.Lemmas

/-!
# Opaque command references

Commands to execute never leave the session: a payload carries numbers, and the
session keeps which command a number stands for. References of a payload that
is being applied are staged; once it is acknowledged they become current, and
the ones they replace are retired until the daemon no longer uses them.
-/

namespace Keymasq.Session.References
open Foundation

/-- What a payload configures: the combos, or the mapping of one device. -/
inductive Owner
  | combos
  | device (hardwareId : String)
deriving DecidableEq

structure ExecBinding where
  cmd : String
  owner : Owner
deriving DecidableEq

/-- `registered` holds `combo_exec_refs` and `device_exec_refs`; `issued` remembers what every
reference was allocated for. -/
structure ExecRuntimeState where
  execRefs : Dict ℕ ExecBinding := ∅
  retiredExecRefs : Dict ℕ ExecBinding := ∅
  nextExecRef : ℕ := 1
  registered : Dict Owner (Finset ℕ) := ∅
  issued : Dict ℕ ExecBinding := ∅

structure ReferenceSnapshot where
  bindings : Dict ℕ ExecBinding
  registered : Bool := true

namespace ExecRuntimeState

def resolve (st : ExecRuntimeState) (reference : ℕ) : Option ExecBinding :=
  (st.execRefs.get? reference).or (st.retiredExecRefs.get? reference)

def refsOf (st : ExecRuntimeState) (owner : Owner) : Finset ℕ := st.registered.getD owner ∅

def allocate (st : ExecRuntimeState) (cmd : String) (owner : Owner) : ℕ × ExecRuntimeState :=
  (st.nextExecRef, { st with
    nextExecRef := st.nextExecRef + 1
    registered := st.registered.addTo owner st.nextExecRef
    execRefs := st.execRefs.insert st.nextExecRef ⟨cmd, owner⟩
    issued := st.issued.insert st.nextExecRef ⟨cmd, owner⟩ })

/-- `take_device` and `take_combos`: detach the current references of an owner. The combos are
always registered. -/
def take (st : ExecRuntimeState) (owner : Owner) : ReferenceSnapshot × ExecRuntimeState :=
  (⟨st.execRefs.filter fun ref _ => ref ∈ st.refsOf owner,
      decide (owner = .combos) || st.registered.contains owner⟩,
    { st with
      execRefs := st.execRefs.filter fun ref _ => ref ∉ st.refsOf owner
      registered := st.registered.erase owner })

/-- `clear_device` and `clear_combos`. -/
def clear (st : ExecRuntimeState) (owner : Owner) : ExecRuntimeState := (st.take owner).2

/-- `expose`: make staged references resolvable. -/
def expose (st : ExecRuntimeState) (snapshot : ReferenceSnapshot) : ExecRuntimeState :=
  { st with execRefs := st.execRefs.update snapshot.bindings }

/-- `discard`: forget the references of a payload that was not accepted. -/
def discard (st : ExecRuntimeState) (snapshot : ReferenceSnapshot) : ExecRuntimeState :=
  { st with execRefs := st.execRefs.filter fun ref _ => !snapshot.bindings.contains ref }

/-- `restore_device` and `restore_combos`. -/
def restore (st : ExecRuntimeState) (owner : Owner) (snapshot : ReferenceSnapshot) :
    ExecRuntimeState :=
  let st := st.clear owner
  let registered :=
    if snapshot.registered then st.registered.insert owner snapshot.bindings.keys.toFinset
    else st.registered
  { st with registered }.expose snapshot

/-- `retain_device` and `retain_combos`: add references without replacing newer ones. -/
def retain (st : ExecRuntimeState) (owner : Owner) (snapshot : ReferenceSnapshot) :
    ExecRuntimeState :=
  let registered :=
    if snapshot.registered then
      st.registered.insert owner (st.refsOf owner ∪ snapshot.bindings.keys.toFinset)
    else st.registered
  { st with registered }.expose snapshot

/-- `retire_device` and `retire_combos`. -/
def retire (st : ExecRuntimeState) (owner : Owner) : ExecRuntimeState :=
  { st.clear owner with
    retiredExecRefs := st.retiredExecRefs.update (st.take owner).1.bindings }

/- Serializing a payload allocates a reference for every command in it. -/
def serialize (st : ExecRuntimeState) (owner : Owner) : List String → List ℕ × ExecRuntimeState
  | [] => ([], st)
  | cmd :: cmds =>
    let (ref, st) := st.allocate cmd owner
    let (refs, st) := st.serialize owner cmds
    (ref :: refs, st)

/- `mapping.serialize` registers its device even when it allocates nothing. -/
def register (st : ExecRuntimeState) (owner : Owner) : ExecRuntimeState :=
  if owner = .combos ∨ st.registered.contains owner = true then st
  else { st with registered := st.registered.insert owner ∅ }

/-- Serialize a payload off to the side; the current references stay as they are. -/
def stage (st : ExecRuntimeState) (owner : Owner) (cmds : List String) :
    ReferenceSnapshot × List ℕ × ExecRuntimeState :=
  let (previous, st) := st.take owner
  let (refs, st) := (st.register owner).serialize owner cmds
  let (staged, st) := st.take owner
  (staged, refs, st.restore owner previous)

/-- `_commit_device_references` and `_commit_combo_references`. -/
def commit (st : ExecRuntimeState) (owner : Owner) (staged : ReferenceSnapshot)
    (current : Bool) : ExecRuntimeState :=
  if current then (st.retire owner).restore owner staged else st.retain owner staged

/-- The references a collection asks the daemon about. -/
def collectable (st : ExecRuntimeState) : List (ℕ × ExecBinding) :=
  st.retiredExecRefs.entries.take 1024

/- A reference the daemon no longer uses is forgotten if it still means the same. -/
def forgetUnused (st : ExecRuntimeState) (snapshot : List (ℕ × ExecBinding)) (unused : List ℕ) :
    ExecRuntimeState :=
  { st with retiredExecRefs := st.retiredExecRefs.filter fun ref binding =>
      !decide (ref ∈ unused ∧ (ref, binding) ∈ snapshot) }

/- The references of the snapshot that are still in use move to the end. -/
def rotate (retired : Dict ℕ ExecBinding) (snapshot : List (ℕ × ExecBinding)) :
    Dict ℕ ExecBinding :=
  snapshot.foldl (fun retired e =>
    if retired.get? e.1 = some e.2 then (retired.erase e.1).insert e.1 e.2 else retired) retired

def collected (st : ExecRuntimeState) (snapshot : List (ℕ × ExecBinding)) (unused : List ℕ) :
    ExecRuntimeState :=
  let st := st.forgetUnused snapshot unused
  { st with retiredExecRefs := rotate st.retiredExecRefs snapshot }

end ExecRuntimeState

variable {st : ExecRuntimeState} {owner : Owner}

/-! ## Lookup after an operation -/

theorem rotate_get? (retired : Dict ℕ ExecBinding) (snapshot : List (ℕ × ExecBinding)) (r : ℕ) :
    (ExecRuntimeState.rotate retired snapshot).get? r = retired.get? r := by
  unfold ExecRuntimeState.rotate
  induction snapshot generalizing retired with
  | nil => rfl
  | cons e snapshot ih =>
    rw [List.foldl_cons, ih]
    split
    · rename_i hget
      rw [Dict.get?_insert]
      split
      · rename_i heq
        rw [heq, hget]
      · rw [Dict.get?_erase_of_ne _ (by assumption)]
    · rfl

theorem take_bindings (st : ExecRuntimeState) (owner : Owner) (r : ℕ) :
    (st.take owner).1.bindings.get? r =
      if r ∈ st.refsOf owner then st.execRefs.get? r else none := by
  simp only [ExecRuntimeState.take, Dict.get?_filter]
  by_cases h : r ∈ st.refsOf owner <;> cases st.execRefs.get? r <;> simp [h]

theorem take_execRefs (st : ExecRuntimeState) (owner : Owner) (r : ℕ) :
    (st.take owner).2.execRefs.get? r =
      if r ∈ st.refsOf owner then none else st.execRefs.get? r := by
  simp only [ExecRuntimeState.take, Dict.get?_filter]
  by_cases h : r ∈ st.refsOf owner <;> cases st.execRefs.get? r <;> simp [h]

theorem take_refsOf (st : ExecRuntimeState) (owner other : Owner) :
    (st.take owner).2.refsOf other = if other = owner then ∅ else st.refsOf other := by
  simp only [ExecRuntimeState.take, ExecRuntimeState.refsOf, Dict.getD, Dict.get?_erase]
  split <;> rfl

theorem expose_execRefs (st : ExecRuntimeState) (snapshot : ReferenceSnapshot) (r : ℕ) :
    (st.expose snapshot).execRefs.get? r =
      (snapshot.bindings.get? r).or (st.execRefs.get? r) :=
  Dict.get?_update _ _ _

theorem discard_execRefs (st : ExecRuntimeState) (snapshot : ReferenceSnapshot) (r : ℕ) :
    (st.discard snapshot).execRefs.get? r =
      if (snapshot.bindings.get? r).isSome then none else st.execRefs.get? r := by
  simp only [ExecRuntimeState.discard, Dict.get?_filter, Dict.contains]
  cases snapshot.bindings.get? r <;> cases st.execRefs.get? r <;> simp

theorem refsOf_insert (st : ExecRuntimeState) (owner other : Owner) (refs : Finset ℕ) :
    { st with registered := st.registered.insert owner refs }.refsOf other =
      if other = owner then refs else st.refsOf other := by
  simp only [ExecRuntimeState.refsOf, Dict.getD, Dict.get?_insert]
  split <;> rfl

theorem register_refsOf (st : ExecRuntimeState) (owner other : Owner) :
    (st.register owner).refsOf other = st.refsOf other := by
  unfold ExecRuntimeState.register
  split
  · rfl
  · rename_i hnot
    rw [refsOf_insert]
    split
    · rename_i heq
      rw [not_or, Dict.contains, Bool.not_eq_true, Option.isSome_eq_false_iff,
        Option.isNone_iff_eq_none] at hnot
      rw [heq, ExecRuntimeState.refsOf, Dict.getD, hnot.2, Option.getD_none]
    · rfl

theorem register_frame (st : ExecRuntimeState) (owner : Owner) :
    (st.register owner).execRefs = st.execRefs ∧
      (st.register owner).retiredExecRefs = st.retiredExecRefs ∧
      (st.register owner).nextExecRef = st.nextExecRef ∧
      (st.register owner).issued = st.issued := by
  unfold ExecRuntimeState.register
  split <;> exact ⟨rfl, rfl, rfl, rfl⟩

theorem register_registered (st : ExecRuntimeState) (owner : Owner) :
    owner = .combos ∨ (st.register owner).registered.contains owner = true := by
  unfold ExecRuntimeState.register
  split
  · assumption
  · right
    rw [Dict.contains, Dict.get?_insert_self]
    rfl

/-! ## Staging -/

/-- What serializing commands adds to the tables. -/
structure Serialized (st st' : ExecRuntimeState) (owner : Owner) (cmds : List String)
    (refs : List ℕ) : Prop where
  range : ∀ r ∈ refs, st.nextExecRef ≤ r ∧ r < st'.nextExecRef
  next_le : st.nextExecRef ≤ st'.nextExecRef
  execRefs : ∀ r, st'.execRefs.get? r =
    if r ∈ refs then st'.issued.get? r else st.execRefs.get? r
  issued : ∀ r, r ∉ refs → st'.issued.get? r = st.issued.get? r
  bindings : refs.map st'.issued.get? = cmds.map fun cmd => some ⟨cmd, owner⟩
  refsOf : ∀ t, st'.refsOf t = if t = owner then st.refsOf t ∪ refs.toFinset else st.refsOf t
  retired : st'.retiredExecRefs = st.retiredExecRefs
  registered : ∀ t, st.registered.contains t = true → st'.registered.contains t = true

theorem addTo_refsOf (st : ExecRuntimeState) (owner other : Owner) (ref : ℕ) :
    { st with registered := st.registered.addTo owner ref }.refsOf other =
      if other = owner then insert ref (st.refsOf other) else st.refsOf other := by
  rw [Dict.addTo, refsOf_insert]
  split
  · rename_i heq
    rw [heq]
    rfl
  · rfl

theorem serialize_spec (st : ExecRuntimeState) (owner : Owner) (cmds : List String) :
    Serialized st (st.serialize owner cmds).2 owner cmds (st.serialize owner cmds).1 := by
  induction cmds generalizing st with
  | nil => exact ⟨nofun, Nat.le_refl _, fun r => rfl, fun _ _ => rfl, rfl, fun t => by
      simp [ExecRuntimeState.serialize], rfl, fun _ h => h⟩
  | cons cmd cmds ih =>
    let first := (st.allocate cmd owner).2
    have h := ih first
    have hnext : first.nextExecRef = st.nextExecRef + 1 := rfl
    have hnew : st.nextExecRef ∉ (first.serialize owner cmds).1 := by
      intro hmem
      have hrange := (h.range _ hmem).1
      omega
    have hissued : (first.serialize owner cmds).2.issued.get? st.nextExecRef =
        some ⟨cmd, owner⟩ := by
      rw [h.issued _ hnew]
      exact Dict.get?_insert_self _ _ _
    refine ⟨fun r hr => ?_, ?_, fun r => ?_, fun r hr => ?_, ?_, fun t => ?_, h.retired,
      fun t ht => ?_⟩
    · rcases List.mem_cons.mp hr with rfl | hr
      · have hle := h.next_le
        show st.nextExecRef ≤ st.nextExecRef ∧
          st.nextExecRef < (first.serialize owner cmds).2.nextExecRef
        omega
      · have hrange := h.range r hr
        show st.nextExecRef ≤ r ∧ r < (first.serialize owner cmds).2.nextExecRef
        omega
    · have hle := h.next_le
      show st.nextExecRef ≤ (first.serialize owner cmds).2.nextExecRef
      omega
    · show (first.serialize owner cmds).2.execRefs.get? r =
        if r ∈ st.nextExecRef :: (first.serialize owner cmds).1 then
          (first.serialize owner cmds).2.issued.get? r
        else st.execRefs.get? r
      rw [h.execRefs]
      by_cases hr : r = st.nextExecRef
      · rw [hr, if_neg hnew, if_pos List.mem_cons_self, hissued]
        exact Dict.get?_insert_self _ _ _
      · simp only [List.mem_cons, hr, false_or]
        split
        · rfl
        · exact Dict.get?_insert_of_ne _ _ hr
    · have hr : r ∉ st.nextExecRef :: (first.serialize owner cmds).1 := hr
      rw [List.mem_cons, not_or] at hr
      show (first.serialize owner cmds).2.issued.get? r = st.issued.get? r
      rw [h.issued r hr.2]
      exact Dict.get?_insert_of_ne _ _ hr.1
    · show ((first.serialize owner cmds).2.issued.get? st.nextExecRef ::
        (first.serialize owner cmds).1.map (first.serialize owner cmds).2.issued.get?) = _
      rw [hissued, h.bindings]
      rfl
    · show (first.serialize owner cmds).2.refsOf t =
        if t = owner then
          st.refsOf t ∪ (st.nextExecRef :: (first.serialize owner cmds).1).toFinset
        else st.refsOf t
      rw [h.refsOf]
      have hfirst : first.refsOf t =
          if t = owner then insert st.nextExecRef (st.refsOf t) else st.refsOf t :=
        addTo_refsOf st owner t st.nextExecRef
      rw [hfirst]
      split
      · rw [List.toFinset_cons, Finset.insert_union, Finset.union_insert]
      · rfl
    · refine h.registered t ?_
      show (st.registered.insert owner _).contains t = true
      rw [Dict.contains, Dict.get?_insert]
      split
      · rfl
      · exact ht

/-! ## Accounting for references -/

/-- The tables of references, with the snapshots that are staged for payloads under way. -/
structure Accounted (st : ExecRuntimeState) (snaps : List (Owner × ReferenceSnapshot)) :
    Prop where
  current : ∀ {r b}, st.execRefs.get? r = some b → st.issued.get? r = some b
  retired : ∀ {r b}, st.retiredExecRefs.get? r = some b → st.issued.get? r = some b
  fresh : ∀ {r b}, st.issued.get? r = some b → r < st.nextExecRef
  registered : ∀ {t r}, r ∈ st.refsOf t → ∃ b, st.execRefs.get? r = some b ∧ b.owner = t
  flagged : ∀ s ∈ snaps, s.2.registered = true
  staged : ∀ s ∈ snaps, ∀ {r b}, s.2.bindings.get? r = some b →
    st.execRefs.get? r = some b ∧ b.owner = s.1 ∧ r ∉ st.refsOf s.1
  apart : snaps.Pairwise fun s s' => ∀ r, s.2.bindings.get? r = none ∨
    s'.2.bindings.get? r = none

/-- The reference stays resolvable whatever becomes of the staged snapshots. -/
def Held (st : ExecRuntimeState) (r : ℕ) : Prop :=
  (∃ t, r ∈ st.refsOf t) ∨ (st.retiredExecRefs.get? r).isSome = true

variable {snaps rest : List (Owner × ReferenceSnapshot)} {s : Owner × ReferenceSnapshot}

theorem accounted_start : Accounted {} [] :=
  ⟨nofun, nofun, nofun, nofun, nofun, nofun, List.Pairwise.nil⟩

variable {r : ℕ}

/-- A reference is never looked up to another command than it was issued for. -/
theorem Accounted.resolve_issued (h : Accounted st snaps) {b : ExecBinding}
    (hr : st.resolve r = some b) : st.issued.get? r = some b := by
  unfold ExecRuntimeState.resolve at hr
  cases hget : st.execRefs.get? r with
  | some b' =>
    rw [hget, Option.some_or] at hr
    rw [← hr]
    exact h.current hget
  | none =>
    rw [hget, Option.none_or] at hr
    exact h.retired hr

theorem resolve_of_current {b : ExecBinding} (h : st.execRefs.get? r = some b) :
    st.resolve r = some b := by
  rw [ExecRuntimeState.resolve, h, Option.some_or]

theorem Accounted.resolve_held (h : Accounted st snaps) (hr : Held st r) : st.resolve r ≠ none := by
  rcases hr with ⟨t, hr⟩ | hr
  · obtain ⟨b, hget, -⟩ := h.registered hr
    rw [resolve_of_current hget]
    simp
  · rw [ExecRuntimeState.resolve]
    cases st.execRefs.get? r with
    | some b => simp
    | none =>
      rw [Option.none_or]
      exact Option.isSome_iff_ne_none.mp hr

theorem Accounted.owner_unique (h : Accounted st snaps) {t t' : Owner} (hr : r ∈ st.refsOf t)
    (hr' : r ∈ st.refsOf t') : t = t' := by
  obtain ⟨b, hget, rfl⟩ := h.registered hr
  obtain ⟨b', hget', rfl⟩ := h.registered hr'
  rw [hget] at hget'
  cases hget'
  rfl

/-- A staged reference is registered for nobody. -/
theorem Accounted.staged_free (h : Accounted st snaps) (hs : s ∈ snaps) {b : ExecBinding}
    (hr : s.2.bindings.get? r = some b) (t : Owner) : r ∉ st.refsOf t := by
  intro hmem
  obtain ⟨hget, howner, hnot⟩ := h.staged s hs hr
  obtain ⟨b', hget', hb'⟩ := h.registered hmem
  rw [hget] at hget'
  cases hget'
  rw [← hb', howner] at hmem
  exact hnot hmem

theorem Accounted.perm (h : Accounted st snaps) {snaps' : List (Owner × ReferenceSnapshot)}
    (hperm : snaps.Perm snaps') : Accounted st snaps' :=
  { h with
    flagged := fun s hs => h.flagged s (hperm.mem_iff.mpr hs)
    staged := fun s hs => h.staged s (hperm.mem_iff.mpr hs)
    apart := hperm.pairwise h.apart fun hss r => (hss r).symm }

/-- What staging leaves behind. -/
structure Staged (st st' : ExecRuntimeState) (owner : Owner) (cmds : List String)
    (snapshot : ReferenceSnapshot) (refs : List ℕ) : Prop where
  execRefs : ∀ r, st'.execRefs.get? r = st.execRefs.get? r
  refsOf : ∀ t, st'.refsOf t = st.refsOf t
  retired : st'.retiredExecRefs = st.retiredExecRefs
  bindings : refs.map st'.issued.get? = cmds.map fun cmd => some ⟨cmd, owner⟩
  taken : ∀ r, snapshot.bindings.get? r = if r ∈ refs then st'.issued.get? r else none
  issued : ∀ r, r ∉ refs → st'.issued.get? r = st.issued.get? r
  range : ∀ r ∈ refs, st.nextExecRef ≤ r ∧ r < st'.nextExecRef
  next_le : st.nextExecRef ≤ st'.nextExecRef
  flagged : snapshot.registered = true

theorem Accounted.unissued (h : Accounted st snaps) (hr : st.nextExecRef ≤ r) :
    st.issued.get? r = none ∧ st.execRefs.get? r = none := by
  have hissued : st.issued.get? r = none := by
    rw [Option.eq_none_iff_forall_ne_some]
    intro b hb
    have hlt := h.fresh hb
    omega
  refine ⟨hissued, ?_⟩
  rw [Option.eq_none_iff_forall_ne_some]
  intro b hb
  rw [h.current hb] at hissued
  cases hissued

theorem restore_execRefs (st : ExecRuntimeState) (owner : Owner) (snapshot : ReferenceSnapshot)
    (r : ℕ) : (st.restore owner snapshot).execRefs.get? r =
      (snapshot.bindings.get? r).or
        (if r ∈ st.refsOf owner then none else st.execRefs.get? r) := by
  rw [ExecRuntimeState.restore, expose_execRefs, ← take_execRefs]
  rfl

theorem restore_refsOf (st : ExecRuntimeState) (owner other : Owner)
    (snapshot : ReferenceSnapshot) : (st.restore owner snapshot).refsOf other =
      if other = owner then
        if snapshot.registered then snapshot.bindings.keys.toFinset else ∅
      else st.refsOf other := by
  have hclear := take_refsOf st owner other
  unfold ExecRuntimeState.restore
  by_cases hflag : snapshot.registered = true
  · simp only [hflag, if_true]
    have hinsert := refsOf_insert (st.clear owner) owner other snapshot.bindings.keys.toFinset
    refine hinsert.trans ?_
    split
    · rfl
    · rename_i hne
      exact hclear.trans (if_neg hne)
  · simp only [hflag, if_false, Bool.false_eq_true]
    exact hclear

theorem mem_keys {d : Dict ℕ ExecBinding} : r ∈ d.keys.toFinset ↔ (d.get? r).isSome = true := by
  rw [List.mem_toFinset, ← Dict.contains_iff, Dict.contains]

theorem stage_spec (h : Accounted st snaps) (owner : Owner) (cmds : List String) :
    Staged st (st.stage owner cmds).2.2 owner cmds (st.stage owner cmds).1
      (st.stage owner cmds).2.1 := by
  let taken := (st.take owner).2
  let before := taken.register owner
  obtain ⟨hexec, hretired, hnext, hissued⟩ := register_frame taken owner
  have hspec := serialize_spec before owner cmds
  let after := (before.serialize owner cmds).2
  let refs := (before.serialize owner cmds).1
  have hown : after.refsOf owner = refs.toFinset := by
    have htaken := take_refsOf st owner owner
    rw [if_pos rfl] at htaken
    rw [hspec.refsOf, if_pos rfl, register_refsOf, htaken, Finset.empty_union]
  have hrange : ∀ r ∈ refs, st.nextExecRef ≤ r ∧ r < after.nextExecRef := by
    intro r hr
    have hr := hspec.range r hr
    rw [hnext] at hr
    exact hr
  refine ⟨fun r => ?_, fun t => ?_, ?_, hspec.bindings, fun r => ?_, fun r hr => ?_, hrange, ?_,
    ?_⟩
  · show (((after.take owner).2).restore owner (st.take owner).1).execRefs.get? r = _
    have hnone := take_refsOf after owner owner
    rw [if_pos rfl] at hnone
    rw [restore_execRefs, hnone, if_neg (Finset.notMem_empty r), take_bindings, take_execRefs,
      hown]
    by_cases hold : r ∈ st.refsOf owner
    · obtain ⟨b, hget, -⟩ := h.registered hold
      rw [if_pos hold, hget, Option.some_or]
    · rw [if_neg hold, Option.none_or]
      split
      · rename_i hr
        exact (h.unissued (hrange r (List.mem_toFinset.mp hr)).1).2.symm
      · rename_i hr
        rw [hspec.execRefs, if_neg (fun hmem => hr (List.mem_toFinset.mpr hmem)), hexec,
          take_execRefs, if_neg hold]
  · show (((after.take owner).2).restore owner (st.take owner).1).refsOf t = _
    rw [restore_refsOf]
    split
    · rename_i heq
      rw [heq]
      have hkeys : (st.take owner).1.bindings.keys.toFinset = st.refsOf owner := by
        ext r
        rw [mem_keys, take_bindings]
        constructor
        · intro hr
          by_contra hnot
          rw [if_neg hnot] at hr
          cases hr
        · intro hr
          obtain ⟨b, hget, -⟩ := h.registered hr
          rw [if_pos hr, hget]
          rfl
      split
      · exact hkeys
      · rename_i hflag
        simp only [ExecRuntimeState.take, Bool.or_eq_true, not_or, Dict.contains,
          Bool.not_eq_true, Option.isSome_eq_false_iff, Option.isNone_iff_eq_none] at hflag
        rw [ExecRuntimeState.refsOf, Dict.getD, hflag.2, Option.getD_none]
    · rename_i hne
      have hafter := take_refsOf after owner t
      have htaken := take_refsOf st owner t
      rw [if_neg hne] at hafter htaken
      rw [hafter, hspec.refsOf, if_neg hne, register_refsOf, htaken]
  · exact hspec.retired.trans hretired
  · show (after.take owner).1.bindings.get? r = if r ∈ refs then after.issued.get? r else none
    rw [take_bindings, hown, hspec.execRefs]
    by_cases hr : r ∈ refs
    · rw [if_pos (List.mem_toFinset.mpr hr), if_pos hr, if_pos hr]
    · rw [if_neg (fun hmem => hr (List.mem_toFinset.mp hmem)), if_neg hr]
  · exact (hspec.issued r hr).trans (congrArg (Dict.get? · r) hissued)
  · exact hnext ▸ hspec.next_le
  · show (decide (owner = .combos) || after.registered.contains owner) = true
    rcases register_registered taken owner with hcombos | hcontains
    · rw [decide_eq_true hcombos, Bool.true_or]
    · rw [hspec.registered owner hcontains, Bool.or_true]

variable {st' : ExecRuntimeState} {cmds : List String}

theorem Staged.issued_owner {snapshot : ReferenceSnapshot} {refs : List ℕ}
    (h : Staged st st' owner cmds snapshot refs) (hr : r ∈ refs) :
    ∃ cmd, st'.issued.get? r = some ⟨cmd, owner⟩ := by
  have hmem : st'.issued.get? r ∈ refs.map st'.issued.get? := List.mem_map_of_mem hr
  rw [h.bindings] at hmem
  obtain ⟨cmd, -, heq⟩ := List.mem_map.mp hmem
  exact ⟨cmd, heq.symm⟩

theorem Staged.mem {snapshot : ReferenceSnapshot} {refs : List ℕ}
    (h : Staged st st' owner cmds snapshot refs) {b : ExecBinding}
    (hr : snapshot.bindings.get? r = some b) :
    r ∈ refs ∧ st'.issued.get? r = some b ∧ b.owner = owner := by
  rw [h.taken] at hr
  split at hr
  · rename_i hmem
    obtain ⟨cmd, hcmd⟩ := h.issued_owner hmem
    refine ⟨hmem, hr, ?_⟩
    rw [hcmd] at hr
    cases hr
    rfl
  · cases hr

/-- References that are staged and exposed join the accounting. -/
theorem Accounted.stage (h : Accounted st snaps) {snapshot : ReferenceSnapshot} {refs : List ℕ}
    (hstaged : Staged st st' owner cmds snapshot refs) :
    Accounted (st'.expose snapshot) ((owner, snapshot) :: snaps) := by
  have hissued : ∀ {r b}, st.issued.get? r = some b → r ∉ refs ∧ st'.issued.get? r = some b := by
    intro r b hr
    have hlt := h.fresh hr
    have hnot : r ∉ refs := by
      intro hmem
      have hle := (hstaged.range r hmem).1
      omega
    exact ⟨hnot, by rw [hstaged.issued r hnot, hr]⟩
  have hexec : ∀ {r b}, st.execRefs.get? r = some b →
      snapshot.bindings.get? r = none ∧ (st'.expose snapshot).execRefs.get? r = some b := by
    intro r b hr
    have hnone : snapshot.bindings.get? r = none := by
      rw [hstaged.taken, if_neg (hissued (h.current hr)).1]
    exact ⟨hnone, by rw [expose_execRefs, hnone, Option.none_or, hstaged.execRefs, hr]⟩
  refine ⟨fun {r b} hr => ?_, fun {r b} hr => ?_, fun {r b} hr => ?_, fun {t r} hr => ?_,
    fun s hs => ?_, fun s hs r b hr => ?_, List.pairwise_cons.mpr ⟨fun s hs r => ?_, h.apart⟩⟩
  · rw [expose_execRefs] at hr
    cases hsnap : snapshot.bindings.get? r with
    | some b' =>
      rw [hsnap, Option.some_or] at hr
      rw [← hr]
      exact (hstaged.mem hsnap).2.1
    | none =>
      rw [hsnap, Option.none_or, hstaged.execRefs] at hr
      exact (hissued (h.current hr)).2
  · have hr : st'.retiredExecRefs.get? r = some b := hr
    rw [hstaged.retired] at hr
    exact (hissued (h.retired hr)).2
  · have hr : st'.issued.get? r = some b := hr
    by_cases hmem : r ∈ refs
    · exact (hstaged.range r hmem).2
    · rw [hstaged.issued r hmem] at hr
      exact Nat.lt_of_lt_of_le (h.fresh hr) hstaged.next_le
  · have hr : r ∈ st'.refsOf t := hr
    rw [hstaged.refsOf] at hr
    obtain ⟨b, hget, howner⟩ := h.registered hr
    exact ⟨b, (hexec hget).2, howner⟩
  · rcases List.mem_cons.mp hs with rfl | hs
    · exact hstaged.flagged
    · exact h.flagged s hs
  · show _ ∧ _ ∧ r ∉ st'.refsOf s.1
    rw [hstaged.refsOf]
    rcases List.mem_cons.mp hs with rfl | hs
    · obtain ⟨hmem, -, howner⟩ := hstaged.mem hr
      refine ⟨by rw [expose_execRefs, hr, Option.some_or], howner, fun hreg => ?_⟩
      obtain ⟨b', hget, -⟩ := h.registered hreg
      exact (hissued (h.current hget)).1 hmem
    · obtain ⟨hget, howner, hnot⟩ := h.staged s hs hr
      exact ⟨(hexec hget).2, howner, hnot⟩
  · cases hsnap : s.2.bindings.get? r with
    | none => exact Or.inr rfl
    | some b => exact Or.inl (hexec (h.staged s hs hsnap).1).1

theorem held_stage {snapshot : ReferenceSnapshot} {refs : List ℕ}
    (hstaged : Staged st st' owner cmds snapshot refs) {r : ℕ} (hr : Held st r) :
    Held (st'.expose snapshot) r := by
  rcases hr with ⟨t, hr⟩ | hr
  · refine Or.inl ⟨t, ?_⟩
    show r ∈ st'.refsOf t
    rw [hstaged.refsOf]
    exact hr
  · refine Or.inr ?_
    show (st'.retiredExecRefs.get? r).isSome = true
    rw [hstaged.retired]
    exact hr

/-- Discarding a staged snapshot touches nothing else. -/
theorem Accounted.discard (h : Accounted st (s :: rest)) : Accounted (st.discard s.2) rest := by
  have hkeep : ∀ {r b}, s.2.bindings.get? r = none → st.execRefs.get? r = some b →
      (st.discard s.2).execRefs.get? r = some b := by
    intro r b hnone hr
    rw [discard_execRefs, hnone]
    exact hr
  refine ⟨fun {r b} hr => ?_, h.retired, h.fresh, fun {t r} hr => ?_,
    fun s' hs => h.flagged s' (List.mem_cons_of_mem _ hs), fun s' hs r b hr => ?_,
    (List.pairwise_cons.mp h.apart).2⟩
  · rw [discard_execRefs] at hr
    split at hr
    · cases hr
    · exact h.current hr
  · obtain ⟨b, hget, howner⟩ := h.registered hr
    refine ⟨b, hkeep ?_ hget, howner⟩
    cases hsnap : s.2.bindings.get? r with
    | none => rfl
    | some b' => exact absurd hr (h.staged_free List.mem_cons_self hsnap t)
  · obtain ⟨hget, howner, hnot⟩ := h.staged s' (List.mem_cons_of_mem _ hs) hr
    refine ⟨hkeep ?_ hget, howner, hnot⟩
    rcases (List.pairwise_cons.mp h.apart).1 s' hs r with hnone | hnone
    · exact hnone
    · rw [hnone] at hr
      cases hr

/-- Retiring keeps every reference resolvable. -/
theorem Accounted.retire (h : Accounted st snaps) (owner : Owner) :
    Accounted (st.retire owner) snaps := by
  have hexec : ∀ r, (st.retire owner).execRefs.get? r =
      if r ∈ st.refsOf owner then none else st.execRefs.get? r := take_execRefs st owner
  have hrefs : ∀ t, (st.retire owner).refsOf t = if t = owner then ∅ else st.refsOf t :=
    take_refsOf st owner
  have hretired : ∀ r, (st.retire owner).retiredExecRefs.get? r =
      (if r ∈ st.refsOf owner then st.execRefs.get? r else none).or
        (st.retiredExecRefs.get? r) := by
    intro r
    rw [← take_bindings]
    exact Dict.get?_update _ _ _
  refine ⟨fun {r b} hr => ?_, fun {r b} hr => ?_, h.fresh, fun {t r} hr => ?_, h.flagged,
    fun s hs r b hr => ?_, h.apart⟩
  · rw [hexec] at hr
    split at hr
    · cases hr
    · exact h.current hr
  · rw [hretired] at hr
    split at hr
    · rename_i hmem
      obtain ⟨b', hget, -⟩ := h.registered hmem
      rw [hget, Option.some_or] at hr
      rw [← hr]
      exact h.current hget
    · rw [Option.none_or] at hr
      exact h.retired hr
  · rw [hrefs] at hr
    split at hr
    · cases hr
    · rename_i hne
      obtain ⟨b, hget, howner⟩ := h.registered hr
      refine ⟨b, ?_, howner⟩
      rw [hexec, if_neg, hget]
      exact fun hmem => hne (h.owner_unique hr hmem)
  · obtain ⟨hget, howner, -⟩ := h.staged s hs hr
    rw [hexec, if_neg (h.staged_free hs hr owner), hrefs]
    refine ⟨hget, howner, ?_⟩
    split
    · exact Finset.notMem_empty r
    · exact h.staged_free hs hr s.1

theorem Accounted.held_retire (h : Accounted st snaps) (owner : Owner) (hr : Held st r) :
    Held (st.retire owner) r := by
  have hretired : (st.retire owner).retiredExecRefs.get? r =
      (if r ∈ st.refsOf owner then st.execRefs.get? r else none).or
        (st.retiredExecRefs.get? r) := by
    rw [← take_bindings]
    exact Dict.get?_update _ _ _
  rcases hr with ⟨t, hr⟩ | hr
  · by_cases ht : t = owner
    · obtain ⟨b, hget, -⟩ := h.registered hr
      right
      rw [hretired, if_pos (ht ▸ hr), hget, Option.some_or]
      rfl
    · refine Or.inl ⟨t, ?_⟩
      have hrefs : (st.retire owner).refsOf t = if t = owner then ∅ else st.refsOf t :=
        take_refsOf st owner t
      rw [hrefs, if_neg ht]
      exact hr
  · right
    rw [hretired, Option.isSome_or, hr, Bool.or_true]

/-- References that are retained stand beside the current ones. -/
theorem Accounted.retain (h : Accounted st (s :: rest)) :
    Accounted (st.retain s.1 s.2) rest ∧
      (∀ r, Held st r → Held (st.retain s.1 s.2) r) ∧
      ∀ r b, s.2.bindings.get? r = some b → Held (st.retain s.1 s.2) r := by
  have hflag := h.flagged s List.mem_cons_self
  have hexec : ∀ r, (st.retain s.1 s.2).execRefs.get? r = st.execRefs.get? r := by
    intro r
    rw [ExecRuntimeState.retain, expose_execRefs]
    cases hsnap : s.2.bindings.get? r with
    | none => rfl
    | some b => exact (h.staged s List.mem_cons_self hsnap).1.symm
  have hrefs : ∀ t, (st.retain s.1 s.2).refsOf t =
      if t = s.1 then st.refsOf s.1 ∪ s.2.bindings.keys.toFinset else st.refsOf t := by
    intro t
    unfold ExecRuntimeState.retain
    rw [if_pos hflag]
    exact refsOf_insert st s.1 t _
  refine ⟨⟨fun {r b} hr => h.current ((hexec r).symm.trans hr), h.retired, h.fresh,
    fun {t r} hr => ?_, fun s' hs => h.flagged s' (List.mem_cons_of_mem _ hs),
    fun s' hs r b hr => ?_, (List.pairwise_cons.mp h.apart).2⟩, fun r hr => ?_, fun r b hr => ?_⟩
  · rw [hexec]
    rw [hrefs] at hr
    split at hr
    · rename_i ht
      rw [ht]
      rcases Finset.mem_union.mp hr with hr | hr
      · exact h.registered hr
      · obtain ⟨b, hb⟩ := Option.isSome_iff_exists.mp (mem_keys.mp hr)
        obtain ⟨hget, howner, -⟩ := h.staged s List.mem_cons_self hb
        exact ⟨b, hget, howner⟩
    · exact h.registered hr
  · have hs' := List.mem_cons_of_mem s hs
    obtain ⟨hget, howner, -⟩ := h.staged s' hs' hr
    rw [hexec, hrefs]
    refine ⟨hget, howner, ?_⟩
    split
    · rw [Finset.mem_union, not_or]
      refine ⟨h.staged_free hs' hr s.1, fun hmem => ?_⟩
      have hsome := mem_keys.mp hmem
      rcases (List.pairwise_cons.mp h.apart).1 s' hs r with hnone | hnone
      · rw [hnone] at hsome
        cases hsome
      · rw [hnone] at hr
        cases hr
    · exact h.staged_free hs' hr s'.1
  · rcases hr with ⟨t, hr⟩ | hr
    · refine Or.inl ⟨t, ?_⟩
      rw [hrefs]
      split
      · rename_i ht
        exact Finset.mem_union_left _ (ht ▸ hr)
      · exact hr
    · exact Or.inr hr
  · refine Or.inl ⟨s.1, ?_⟩
    rw [hrefs, if_pos rfl]
    exact Finset.mem_union_right _ (mem_keys.mpr (by rw [hr]; rfl))

/-- Once the owner has no current references, restoring is retaining. -/
theorem restore_of_empty (snapshot : ReferenceSnapshot) (hempty : st.refsOf owner = ∅)
    (hflag : snapshot.registered = true) (r : ℕ) (t : Owner) :
    (st.restore owner snapshot).execRefs.get? r = (st.retain owner snapshot).execRefs.get? r ∧
      (st.restore owner snapshot).refsOf t = (st.retain owner snapshot).refsOf t := by
  constructor
  · rw [restore_execRefs, hempty, if_neg (Finset.notMem_empty r), ExecRuntimeState.retain,
      expose_execRefs]
  · rw [restore_refsOf, ExecRuntimeState.retain]
    simp only [hflag, if_true, hempty, Finset.empty_union]
    exact (refsOf_insert st owner t _).symm

theorem Accounted.commit (h : Accounted st (s :: rest)) (current : Bool) :
    Accounted (st.commit s.1 s.2 current) rest ∧
      (∀ r, Held st r → Held (st.commit s.1 s.2 current) r) ∧
      ∀ r b, s.2.bindings.get? r = some b → Held (st.commit s.1 s.2 current) r := by
  unfold ExecRuntimeState.commit
  cases current with
  | false => exact h.retain
  | true =>
    have hretired := h.retire s.1
    obtain ⟨haccounted, hheld, hnew⟩ := hretired.retain
    have hempty : (st.retire s.1).refsOf s.1 = ∅ := by
      have hrefs := take_refsOf st s.1 s.1
      rw [if_pos rfl] at hrefs
      exact hrefs
    have hsame := restore_of_empty s.2 hempty (h.flagged s List.mem_cons_self)
    have hback : ∀ r, Held ((st.retire s.1).retain s.1 s.2) r →
        Held ((st.retire s.1).restore s.1 s.2) r := by
      rintro r (⟨t, hr⟩ | hr)
      · exact Or.inl ⟨t, by rw [(hsame r t).2]; exact hr⟩
      · exact Or.inr hr
    refine ⟨⟨fun {r b} hr => ?_, haccounted.retired, haccounted.fresh, fun {t r} hr => ?_,
      haccounted.flagged, fun s' hs r b hr => ?_, haccounted.apart⟩,
      fun r hr => hback r (hheld r (h.held_retire s.1 hr)), fun r b hr => hback r (hnew r b hr)⟩
    · rw [if_pos rfl, (hsame r s.1).1] at hr
      exact haccounted.current hr
    · rw [if_pos rfl, (hsame r t).2] at hr
      obtain ⟨b, hget, howner⟩ := haccounted.registered hr
      exact ⟨b, by rw [if_pos rfl, (hsame r t).1]; exact hget, howner⟩
    · obtain ⟨hget, howner, hnot⟩ := haccounted.staged s' hs hr
      rw [if_pos rfl, (hsame r s'.1).1, (hsame r s'.1).2]
      exact ⟨hget, howner, hnot⟩

/-- A collection forgets only references the daemon has reported. -/
theorem Accounted.collected (h : Accounted st snaps) (snapshot : List (ℕ × ExecBinding))
    (unused : List ℕ) : Accounted (st.collected snapshot unused) snaps ∧
      ∀ r, Held st r → r ∉ unused → Held (st.collected snapshot unused) r := by
  have hretired : ∀ r, (st.collected snapshot unused).retiredExecRefs.get? r =
      (st.forgetUnused snapshot unused).retiredExecRefs.get? r := rotate_get? _ _
  refine ⟨⟨h.current, fun {r b} hr => ?_, h.fresh, h.registered, h.flagged, h.staged, h.apart⟩,
    fun r hr hnot => ?_⟩
  · rw [hretired] at hr
    exact h.retired (Dict.get?_filter_eq_some.mp hr).1
  · rcases hr with ⟨t, hr⟩ | hr
    · exact Or.inl ⟨t, hr⟩
    · obtain ⟨b, hb⟩ := Option.isSome_iff_exists.mp hr
      right
      rw [hretired]
      have hkept : (st.forgetUnused snapshot unused).retiredExecRefs.get? r = some b :=
        Dict.get?_filter_eq_some.mpr ⟨hb, by simp [hnot]⟩
      rw [hkept]
      rfl

end Keymasq.Session.References
