import Keymasq.Rollover.Settle

/-!
# Replacing the groups

Which states a replacement keeps, what a fresh group takes over from the
replaced ones, and which keys are quarantined.
-/

namespace Keymasq.Rollover.Replacement
open Foundation Foundation.Sorting Groups Settle Keymasq.Combo.Names Keymasq.Profile.Model

variable {O : Type*} {st : GroupState O} {groups : List RolloverGroup} {old : List (GroupState O)}

/-- Adding held members of the group keeps it orderly up to the order. -/
structure Gathered (st : GroupState O) : Prop where
  nodup : (st.held.map (·.member)).Nodup
  lost_held : ∀ m ∈ st.lost, ∃ h ∈ st.held, h.member = m
  mem_group : ∀ h ∈ st.held, h.member ∈ st.group.members
  active_held : ∀ m, st.active = some m → ∃ h ∈ st.held, h.member = m

theorem gathered_fresh (group : RolloverGroup) : Gathered ({ group := group } : GroupState O) :=
  ⟨List.nodup_nil, by simp, by simp, by simp⟩

theorem Gathered.sorted (h : Gathered st) : Gathered (sortHeld st) := by
  have hperm := sortedBy_perm (fun h : HeldMember O => h.pressSeq) st.held
  refine ⟨(hperm.map _).nodup_iff.mpr h.nodup, ?_, ?_, ?_⟩
  · intro m hm
    obtain ⟨x, hx, hxm⟩ := h.lost_held m hm
    exact ⟨x, mem_sortedBy.mpr hx, hxm⟩
  · intro x hx
    exact h.mem_group x (mem_sortedBy.mp hx)
  · intro m hm
    obtain ⟨x, hx, hxm⟩ := h.active_held m hm
    exact ⟨x, mem_sortedBy.mpr hx, hxm⟩

theorem Gathered.orderly (h : Gathered st) : Orderly (sortHeld st) :=
  ⟨h.sorted.nodup, sortedBy_pairwise _ _, h.sorted.lost_held, h.sorted.mem_group⟩

/-- One more held member at the end. -/
theorem Gathered.append (h : Gathered st) {x : HeldMember O} (hnew : st.member x.member = none)
    (hmem : x.member ∈ st.group.members) {lost : Finset RolloverMember}
    (hlost : ∀ m ∈ lost, m ∈ st.lost ∨ m = x.member) {active : Option RolloverMember}
    (hactive : active = st.active ∨ active = some x.member) :
    Gathered { st with held := st.held ++ [x], lost := lost, active := active } := by
  have hlast : x ∈ st.held ++ [x] := List.mem_append_right _ (List.mem_singleton_self x)
  refine ⟨?_, ?_, ?_, ?_⟩
  · rw [List.map_append, List.nodup_append]
    refine ⟨h.nodup, List.nodup_singleton _, ?_⟩
    rintro m hm m' hm' rfl
    obtain ⟨y, hy, rfl⟩ := List.mem_map.mp hm
    rw [List.map_singleton, List.mem_singleton] at hm'
    exact member_eq_none.mp hnew y hy hm'
  · intro m hm
    rcases hlost m hm with hm | rfl
    · obtain ⟨y, hy, hym⟩ := h.lost_held m hm
      exact ⟨y, List.mem_append_left _ hy, hym⟩
    · exact ⟨x, hlast, rfl⟩
  · intro y hy
    rcases List.mem_append.mp hy with hy | hy
    · exact h.mem_group y hy
    · rw [List.mem_singleton.mp hy]
      exact hmem
  · intro m hm
    rcases hactive with rfl | rfl
    · obtain ⟨y, hy, hym⟩ := h.active_held m hm
      exact ⟨y, List.mem_append_left _ hy, hym⟩
    · cases hm
      exact ⟨x, hlast, rfl⟩

/-! ## Carrying held members over -/

@[simp] theorem carryOne_group (old st : GroupState O) (h : HeldMember O) :
    (carryOne old st h).group = st.group := by
  unfold carryOne
  split <;> rfl

theorem Gathered.carryOne (hst : Gathered st) (old : GroupState O) (h : HeldMember O) :
    Gathered (carryOne old st h) := by
  unfold Groups.carryOne
  split
  · exact hst
  · rename_i hnot
    rw [not_or, not_not, Option.not_isSome_iff_eq_none] at hnot
    refine hst.append hnot.2 hnot.1 ?_ ?_
    · intro m hm
      split at hm
      · exact (Finset.mem_insert.mp hm).symm
      · exact Or.inl hm
    · split
      · exact Or.inr rfl
      · exact Or.inl rfl

/-- The state before the carried members are sorted. -/
def carryAll (st : GroupState O) (old : List (GroupState O)) : GroupState O :=
  old.foldl (fun st old => old.held.foldl (carryOne old) st) st

theorem foldl_carryOne_group (old : GroupState O) (hs : List (HeldMember O)) (st : GroupState O) :
    (hs.foldl (carryOne old) st).group = st.group :=
  List.foldlRecOn (motive := fun st' : GroupState O => st'.group = st.group) _ _ rfl
    fun st' h x _ => (carryOne_group old st' x).trans h

theorem carryAll_group (st : GroupState O) (old : List (GroupState O)) :
    (carryAll st old).group = st.group :=
  List.foldlRecOn (motive := fun st' : GroupState O => st'.group = st.group) _ _ rfl
    fun st' h x _ => (foldl_carryOne_group x x.held st').trans h

theorem Gathered.carryAll (h : Gathered st) (old : List (GroupState O)) :
    Gathered (carryAll st old) :=
  List.foldlRecOn _ _ h fun _ h' old _ =>
    List.foldlRecOn _ _ h' fun _ h'' x _ => h''.carryOne old x

/-! ## Matching groups with old states -/

theorem matchStates_kept (h : Slot.kept st ∈ (matchStates groups old).1) :
    ∃ old' ∈ old, ∃ group ∈ groups, sameBehavior old'.group group = true ∧
      st = { old' with group := group } := by
  induction groups generalizing old with
  | nil => cases h
  | cons group groups ih =>
    simp only [matchStates] at h
    cases hfind : old.find? fun st => sameBehavior st.group group with
    | none =>
      rw [hfind] at h
      rcases List.mem_cons.mp h with hfalse | h
      · cases hfalse
      · obtain ⟨old', hold, group', hgroup, hrest⟩ := ih h
        exact ⟨old', hold, group', List.mem_cons_of_mem _ hgroup, hrest⟩
    | some found =>
      have hsame : sameBehavior found.group group = true := by simpa using List.find?_some hfind
      rw [hfind] at h
      rcases List.mem_cons.mp h with heq | h
      · cases heq
        exact ⟨found, List.mem_of_find?_eq_some hfind, group, List.mem_cons_self, hsame, rfl⟩
      · obtain ⟨old', hold, group', hgroup, hrest⟩ := ih h
        exact ⟨old', List.mem_of_mem_eraseP hold, group', List.mem_cons_of_mem _ hgroup, hrest⟩

theorem matchStates_fresh {group : RolloverGroup}
    (h : Slot.fresh group ∈ (matchStates groups old).1) :
    group ∈ groups := by
  induction groups generalizing old with
  | nil => cases h
  | cons group' groups ih =>
    simp only [matchStates] at h
    cases hfind : old.find? fun st => sameBehavior st.group group' with
    | none =>
      rw [hfind] at h
      rcases List.mem_cons.mp h with heq | h
      · cases heq
        exact List.mem_cons_self
      · exact List.mem_cons_of_mem _ (ih h)
    | some found =>
      rw [hfind] at h
      rcases List.mem_cons.mp h with heq | h
      · cases heq
      · exact List.mem_cons_of_mem _ (ih h)

/-! ## Adopting held keys -/

section Adopt
variable [PyStr]

variable {quarantined : Finset (ℕ × String)}

theorem heldInput_member {devices : Devices O} {member : RolloverMember} {h : HeldMember O}
    (hheld : (heldInput devices quarantined member).1 = some h) : h.member = member := by
  unfold heldInput at hheld
  simp only at hheld
  split at hheld
  · cases hheld
  · split at hheld
    · cases hheld
    · split at hheld
      · cases hheld
      · split at hheld
        · cases hheld
        · cases hheld
          rfl

/-- A round adopts nothing, or one new member that is down. -/
theorem adoptMember_cases (devices : Devices O) (acc : GroupState O × Finset (ℕ × String))
    (member : RolloverMember) :
    (adoptMember devices acc member).1 = acc.1 ∨
      ∃ h : HeldMember O, h.member = member ∧ acc.1.member h.member = none ∧
        (adoptMember devices acc member).1 = { acc.1 with held := acc.1.held ++ [h] } := by
  unfold adoptMember
  split
  · exact Or.inl rfl
  · rename_i hnone
    simp only
    split
    · exact Or.inl rfl
    · rename_i h hheld
      have hmember := heldInput_member hheld
      exact Or.inr ⟨h, hmember, hmember ▸ hnone, rfl⟩

theorem foldl_adoptMember_rule {P : GroupState O → Prop} (devices : Devices O)
    (members : List RolloverMember) (acc : GroupState O × Finset (ℕ × String)) (hP : P acc.1)
    (hadopt : ∀ st : GroupState O, ∀ h : HeldMember O, h.member ∈ members → P st →
      st.member h.member = none → P { st with held := st.held ++ [h] }) :
    P (members.foldl (adoptMember devices) acc).1 := by
  refine List.foldlRecOn (motive := fun acc : GroupState O × Finset (ℕ × String) => P acc.1)
    _ _ hP ?_
  intro acc' hacc' member hmember
  rcases adoptMember_cases devices acc' member with heq | ⟨h, rfl, hnone, heq⟩
  · rw [heq]
    exact hacc'
  · rw [heq]
    exact hadopt _ h hmember hacc' hnone

/-- A group that adopts held keys is gathered, sorted and keeps what it had. -/
theorem adoptHeldKeys_orderly (devices : Devices O) (h : Gathered st)
    (quarantined : Finset (ℕ × String)) :
    Orderly (adoptHeldKeys devices st quarantined).1 ∧
      Gathered (adoptHeldKeys devices st quarantined).1 := by
  have hrule := foldl_adoptMember_rule
    (P := fun st' : GroupState O => Gathered st' ∧ st'.group = st.group) devices st.group.members
    (st, quarantined) ⟨h, rfl⟩ fun st' x hx hst' hnone =>
      ⟨hst'.1.append hnone (hst'.2 ▸ hx) (fun _ hm => Or.inl hm) (Or.inl rfl), hst'.2⟩
  exact ⟨hrule.1.orderly, hrule.1.sorted⟩

omit [PyStr] in
theorem slotState_gathered (replaced : List (GroupState O)) (group : RolloverGroup) :
    Gathered (slotState replaced (.fresh group)) :=
  ((gathered_fresh group).carryAll replaced).sorted

/-- Every state of a replacement is a kept one, or a fresh one that adopted keys. -/
theorem mem_adoptSlots {devices : Devices O} {replaced : List (GroupState O)}
    {slots : List (Slot O)} {p : GroupState O × Bool}
    (h : p ∈ (adoptSlots devices replaced slots quarantined).1) :
    (∃ st, Slot.kept st ∈ slots ∧ p = (st, false)) ∨
      ∃ group, Slot.fresh group ∈ slots ∧ ∃ q,
        p.1 = (adoptHeldKeys devices (slotState replaced (.fresh group)) q).1 ∧
          p.2 = decide (p.1.held ≠ []) := by
  induction slots generalizing quarantined with
  | nil => cases h
  | cons slot slots ih =>
    have htail : ∀ {q}, p ∈ (adoptSlots devices replaced slots q).1 →
        (∃ st, Slot.kept st ∈ slot :: slots ∧ p = (st, false)) ∨
          ∃ group, Slot.fresh group ∈ slot :: slots ∧ ∃ q,
            p.1 = (adoptHeldKeys devices (slotState replaced (.fresh group)) q).1 ∧
              p.2 = decide (p.1.held ≠ []) := by
      intro q hp
      rcases ih hp with ⟨st, hst, heq⟩ | ⟨group, hgroup, hrest⟩
      · exact Or.inl ⟨st, List.mem_cons_of_mem _ hst, heq⟩
      · exact Or.inr ⟨group, List.mem_cons_of_mem _ hgroup, hrest⟩
    cases slot with
    | kept st =>
      rcases List.mem_cons.mp h with heq | h
      · exact Or.inl ⟨st, List.mem_cons_self, heq⟩
      · exact htail h
    | fresh group =>
      rcases List.mem_cons.mp h with heq | h
      · refine Or.inr ⟨group, List.mem_cons_self, quarantined, ?_, ?_⟩
        · rw [heq]
          rfl
        · rw [heq]
          rfl
      · exact htail h

end Adopt

end Keymasq.Rollover.Replacement
