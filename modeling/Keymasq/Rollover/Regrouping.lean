import Keymasq.Rollover.Matching

/-!
# No held key is lost when the groups are replaced

A replaced group's held members move to the fresh groups they belong to, and
those that belong nowhere are quarantined or keep their mapping's press.
-/

namespace Keymasq.Rollover.Regrouping
open Foundation Foundation.Lists Foundation.Sorting
open Groups Settle Replacement Matching Keymasq.Combo.Names Keymasq.Profile.Model

variable {O : Type*} {st : GroupState O} {m : RolloverMember} {old : List (GroupState O)}

/-! ## What a fresh group takes over -/

theorem foldl_carryOne_held (old : GroupState O) {hs : List (HeldMember O)} (st : GroupState O)
    (hnd : (hs.map (·.member)).Nodup) (hnew : ∀ x ∈ hs, ∀ y ∈ st.held, y.member ≠ x.member) :
    (hs.foldl (carryOne old) st).held =
      st.held ++ hs.filter fun x => x.member ∈ st.group.members := by
  induction hs generalizing st with
  | nil => simp
  | cons x hs ih =>
    rw [List.map_cons, List.nodup_cons] at hnd
    have hnone : st.member x.member = none := member_eq_none.mpr (hnew x List.mem_cons_self)
    rw [List.foldl_cons]
    by_cases hmem : x.member ∈ st.group.members
    · have hheld : (carryOne old st x).held = st.held ++ [x] := by
        simp [carryOne, hmem, hnone]
      rw [ih _ hnd.2, carryOne_group, hheld, List.filter_cons_of_pos (by simpa using hmem),
        List.append_assoc, List.singleton_append]
      intro y hy z hz
      rw [hheld, List.mem_append, List.mem_singleton] at hz
      rcases hz with hz | rfl
      · exact hnew y (List.mem_cons_of_mem _ hy) z hz
      · intro heq
        exact hnd.1 (List.mem_map.mpr ⟨y, hy, heq.symm⟩)
    · have hskip : carryOne old st x = st := by simp [carryOne, hmem]
      rw [hskip, ih _ hnd.2 fun y hy => hnew y (List.mem_cons_of_mem _ hy),
        List.filter_cons_of_neg (by simpa using hmem)]

/-- With distinct members a group takes over exactly those it has. -/
theorem carryAll_held (st : GroupState O) (hnd : ((old.flatMap (·.held)).map (·.member)).Nodup)
    (hnew : ∀ x ∈ old.flatMap (·.held), ∀ y ∈ st.held, y.member ≠ x.member) :
    (carryAll st old).held =
      st.held ++ (old.flatMap (·.held)).filter fun x => x.member ∈ st.group.members := by
  induction old generalizing st with
  | nil => simp [carryAll]
  | cons o old ih =>
    rw [List.flatMap_cons, List.map_append, List.nodup_append] at hnd
    rw [List.flatMap_cons] at hnew
    have hheld := foldl_carryOne_held o st hnd.1
      fun x hx => hnew x (List.mem_append_left _ hx)
    have hcons : carryAll st (o :: old) = carryAll (o.held.foldl (carryOne o) st) old := rfl
    rw [hcons, ih _ hnd.2.1, hheld, foldl_carryOne_group, List.flatMap_cons, List.filter_append,
      List.append_assoc]
    intro x hx y hy
    rw [hheld, List.mem_append] at hy
    rcases hy with hy | hy
    · exact hnew x (List.mem_append_right _ hx) y hy
    · exact hnd.2.2 _ (List.mem_map_of_mem (List.mem_of_mem_filter hy)) _ (List.mem_map_of_mem hx)

/-- The active member of the carried state was active in one of the old ones. -/
theorem carryAll_active (h : (carryAll st old).active = some m) :
    st.active = some m ∨ ∃ o ∈ old, o.active = some m := by
  have hrule : ∀ m, (carryAll st old).active = some m →
      st.active = some m ∨ ∃ o ∈ old, o.active = some m := by
    refine List.foldlRecOn (motive := fun st' : GroupState O => ∀ m, st'.active = some m →
      st.active = some m ∨ ∃ o ∈ old, o.active = some m) _ _ (fun _ => Or.inl) ?_
    intro st' hst' o ho
    refine List.foldlRecOn (motive := fun st' : GroupState O => ∀ m, st'.active = some m →
      st.active = some m ∨ ∃ o ∈ old, o.active = some m) _ _ hst' ?_
    intro st'' hst'' x _ m hm
    unfold carryOne at hm
    split at hm
    · exact hst'' m hm
    · simp only at hm
      split at hm
      · rename_i hactive
        exact Or.inr ⟨o, ho, hactive.1.trans hm⟩
      · exact hst'' m hm
  exact hrule m h

theorem slotState_fresh_held {replaced : List (GroupState O)}
    (hnd : ((replaced.flatMap (·.held)).map (·.member)).Nodup) (group : RolloverGroup) :
    (slotState replaced (.fresh group)).held = sortedBy (·.pressSeq)
      ((replaced.flatMap (·.held)).filter fun x => x.member ∈ group.members) := by
  have hheld := carryAll_held { group := group } hnd (by simp)
  rw [List.nil_append] at hheld
  calc (slotState replaced (.fresh group)).held
      _ = sortedBy (·.pressSeq)
          (carryAll ({ group := group } : GroupState O) replaced).held := rfl
      _ = _ := by rw [hheld]

theorem slotState_fresh_group (replaced : List (GroupState O)) (group : RolloverGroup) :
    (slotState replaced (.fresh group)).group = group :=
  carryAll_group _ replaced

/-! ## The states of the slots -/

section Adopt
variable [PyStr]

/-- A group that adopts keys changes in its held list only, which it adds to. -/
theorem adoptHeldKeys_frame (devices : Devices O) (st : GroupState O)
    (quarantined : Finset (ℕ × String)) :
    ∃ extra, (adoptHeldKeys devices st quarantined).1 =
      { st with held := sortedBy (·.pressSeq) (st.held ++ extra) } := by
  have hrule := foldl_adoptMember_rule
    (P := fun st' : GroupState O => ∃ extra, st' = { st with held := st.held ++ extra })
    devices st.group.members (st, quarantined) ⟨[], by simp⟩ ?_
  · obtain ⟨extra, hextra⟩ := hrule
    refine ⟨extra, ?_⟩
    calc (adoptHeldKeys devices st quarantined).1
        _ = sortHeld (st.group.members.foldl (adoptMember devices) (st, quarantined)).1 := rfl
        _ = _ := by rw [hextra]; rfl
  · rintro st' x - ⟨extra, rfl⟩ -
    exact ⟨extra ++ [x], by simp⟩

/-- The state of a fresh group after it took over held members and adopted keys. -/
def freshState (devices : Devices O) (replaced : List (GroupState O)) (group : RolloverGroup)
    (quarantined : Finset (ℕ × String)) : GroupState O :=
  (adoptHeldKeys devices (slotState replaced (.fresh group)) quarantined).1

theorem freshState_group (devices : Devices O) (replaced : List (GroupState O))
    (group : RolloverGroup) (quarantined : Finset (ℕ × String)) :
    (freshState devices replaced group quarantined).group = group := by
  obtain ⟨extra, hframe⟩ :=
    adoptHeldKeys_frame devices (slotState replaced (.fresh group)) quarantined
  rw [freshState, hframe]
  exact slotState_fresh_group replaced group

theorem freshState_wellHeld (devices : Devices O) (replaced : List (GroupState O))
    (group : RolloverGroup) (quarantined : Finset (ℕ × String)) :
    WellHeld (freshState devices replaced group quarantined) := by
  obtain ⟨horderly, hgathered⟩ :=
    adoptHeldKeys_orderly devices (slotState_gathered replaced group) quarantined
  exact ⟨horderly, hgathered.active_held⟩

/-- Members of the replaced states in press order stay in it. -/
theorem freshState_sublist (devices : Devices O) {replaced : List (GroupState O)}
    (hnd : ((replaced.flatMap (·.held)).map (·.member)).Nodup) (group : RolloverGroup)
    (quarantined : Finset (ℕ × String)) {part : List (HeldMember O)}
    (hpart : part.Pairwise fun h h' => h.pressSeq ≤ h'.pressSeq)
    (hsub : part.Sublist ((replaced.flatMap (·.held)).filter
      fun x => x.member ∈ group.members)) :
    part.Sublist (freshState devices replaced group quarantined).held := by
  obtain ⟨extra, hframe⟩ :=
    adoptHeldKeys_frame devices (slotState replaced (.fresh group)) quarantined
  rw [freshState, hframe, slotState_fresh_held hnd]
  refine sublist_sortedBy hpart ?_
  exact (sublist_sortedBy hpart hsub).trans (List.sublist_append_left _ _)

variable {group : RolloverGroup} {quarantined : Finset (ℕ × String)} {states : List (GroupState O)}

theorem freshState_active {devices : Devices O} {replaced : List (GroupState O)}
    (h : (freshState devices replaced group quarantined).active = some m) :
    ∃ o ∈ replaced, o.active = some m := by
  obtain ⟨extra, hframe⟩ :=
    adoptHeldKeys_frame devices (slotState replaced (.fresh group)) quarantined
  rw [freshState, hframe] at h
  rcases carryAll_active h with hnone | hold
  · cases hnone
  · exact hold

theorem adoptSlots_groups (devices : Devices O) (replaced : List (GroupState O))
    (slots : List (Slot O)) (quarantined : Finset (ℕ × String)) :
    (adoptSlots devices replaced slots quarantined).1.map (·.1.group) = slots.map slotGroup := by
  induction slots generalizing quarantined with
  | nil => rfl
  | cons slot slots ih =>
    cases slot with
    | kept st => exact congrArg (st.group :: ·) (ih _)
    | fresh group =>
      have hhead := freshState_group devices replaced group quarantined
      simp only [adoptSlots, isFresh, if_true, List.map_cons, ih, slotGroup]
      exact congrArg (· :: slots.map slotGroup) hhead

theorem mem_adoptSlots_of_kept (devices : Devices O) (replaced : List (GroupState O))
    {slots : List (Slot O)} (quarantined : Finset (ℕ × String)) (h : Slot.kept st ∈ slots) :
    (st, false) ∈ (adoptSlots devices replaced slots quarantined).1 := by
  induction slots generalizing quarantined with
  | nil => cases h
  | cons slot slots ih =>
    rcases List.mem_cons.mp h with rfl | h
    · exact List.mem_cons_self
    · exact List.mem_cons_of_mem _ (ih _ h)

theorem mem_adoptSlots_of_fresh (devices : Devices O) (replaced : List (GroupState O))
    {slots : List (Slot O)} (quarantined : Finset (ℕ × String)) (h : Slot.fresh group ∈ slots) :
    ∃ q, ∃ p ∈ (adoptSlots devices replaced slots quarantined).1,
      p.1 = freshState devices replaced group q := by
  induction slots generalizing quarantined with
  | nil => cases h
  | cons slot slots ih =>
    rcases List.mem_cons.mp h with rfl | h
    · exact ⟨quarantined, _, List.mem_cons_self, rfl⟩
    · obtain ⟨q, p, hp, heq⟩ := ih (if isFresh slot then
        adoptHeldKeys devices (slotState replaced slot) quarantined
        else (slotState replaced slot, quarantined)).2 h
      exact ⟨q, p, List.mem_cons_of_mem _ hp, heq⟩

/-! ## Quarantined keys -/

/-- A key down on a device that its mapping table names the member for. -/
def KeyOf (devices : Devices O) (member : RolloverMember) (key : ℕ × String) : Prop :=
  ∃ runtime ∈ devices.runtimes, runtime.id = key.1 ∧ runtime.hardwareId = member.hardwareId ∧
    key.2 ∈ runtime.heldSourceKeys ∧
    runtime.evdevToButton.get? (PyStr.lower key.2) = some member.button

omit [PyStr] in
theorem mem_retireKeys {carried : Finset RolloverMember} {key : ℕ × String} :
    key ∈ retireKeys carried st ↔ ∃ h ∈ st.held, h.member ∉ carried ∧ h.pressed = false ∧
      h.recalled = false ∧ (h.runtime, h.eventName) = key := by
  simp only [retireKeys, List.mem_toFinset, List.mem_map, List.mem_filter, Bool.and_eq_true,
    decide_eq_true_eq, Bool.not_eq_true']
  constructor
  · rintro ⟨h, ⟨hheld, ⟨hcarried, hpressed⟩, hrecalled⟩, heq⟩
    exact ⟨h, hheld, hcarried, hpressed, hrecalled, heq⟩
  · rintro ⟨h, hheld, hcarried, hpressed, hrecalled, heq⟩
    exact ⟨h, ⟨hheld, ⟨hcarried, hpressed⟩, hrecalled⟩, heq⟩

omit [PyStr] in
theorem mem_retireAll {carried : Finset RolloverMember} {key : ℕ × String} :
    key ∈ retireAll carried states quarantined ↔
      key ∈ quarantined ∨ ∃ st ∈ states, key ∈ retireKeys carried st := by
  induction states generalizing quarantined with
  | nil => simp [retireAll]
  | cons st states ih =>
    have hcons : retireAll carried (st :: states) quarantined =
        retireAll carried states (quarantined ∪ retireKeys carried st) := rfl
    rw [hcons, ih, Finset.mem_union, List.exists_mem_cons_iff, or_assoc]

omit [PyStr] in
theorem mem_carriedMembers {replaced : List (GroupState O)} {slots : List (Slot O)} :
    m ∈ carriedMembers replaced slots ↔ ∃ group, Slot.fresh group ∈ slots ∧
      ∃ h ∈ (slotState replaced (.fresh group)).held, h.member = m := by
  simp only [carriedMembers, List.mem_toFinset, List.mem_map, List.mem_flatMap, List.mem_filter]
  constructor
  · rintro ⟨h, ⟨slot, ⟨hslot, hfresh⟩, hheld⟩, rfl⟩
    cases slot with
    | kept st => cases hfresh
    | fresh group => exact ⟨group, hslot, h, hheld, rfl⟩
  · rintro ⟨group, hslot, h, hheld, rfl⟩
    exact ⟨h, ⟨.fresh group, ⟨hslot, rfl⟩, hheld⟩, rfl⟩

/-- Looking for a member's key quarantines that key or nothing. -/
theorem heldInput_quarantined (devices : Devices O) (quarantined : Finset (ℕ × String))
    (member : RolloverMember) :
    quarantined ⊆ (heldInput devices quarantined member).2 ∧
      ∀ key ∈ (heldInput devices quarantined member).2,
        key ∈ quarantined ∨ KeyOf devices member key := by
  have hsame : quarantined ⊆ quarantined ∧
      ∀ key ∈ quarantined, key ∈ quarantined ∨ KeyOf devices member key :=
    ⟨Finset.Subset.refl _, fun _ => Or.inl⟩
  unfold heldInput
  simp only
  split
  · exact hsame
  · rename_i runtime name hhead
    split
    · exact hsame
    · split
      · exact hsame
      · split
        · have hmem := List.mem_of_head? hhead
          obtain ⟨found, hfound, hname⟩ := List.mem_flatMap.mp hmem
          split at hname
          · cases hname
          · rename_i hid
            obtain ⟨name', hname', heq⟩ := List.mem_map.mp hname
            cases heq
            rw [List.mem_filter] at hname'
            refine ⟨Finset.subset_insert _ _, fun key hkey => ?_⟩
            rcases Finset.mem_insert.mp hkey with rfl | hkey
            · exact Or.inr ⟨runtime, hfound, rfl, not_not.mp hid, hname'.1, by simpa using hname'.2⟩
            · exact Or.inl hkey
        · exact hsame

theorem adoptMember_quarantined (devices : Devices O)
    (acc : GroupState O × Finset (ℕ × String)) (member : RolloverMember) :
    acc.2 ⊆ (adoptMember devices acc member).2 ∧
      ∀ key ∈ (adoptMember devices acc member).2, key ∈ acc.2 ∨ KeyOf devices member key := by
  have hinput := heldInput_quarantined devices acc.2 member
  unfold adoptMember
  split
  · exact ⟨Finset.Subset.refl _, fun _ => Or.inl⟩
  · simp only
    split
    · exact hinput
    · exact hinput

theorem adoptHeldKeys_quarantined (devices : Devices O) (st : GroupState O)
    (quarantined : Finset (ℕ × String)) :
    quarantined ⊆ (adoptHeldKeys devices st quarantined).2 ∧
      ∀ key ∈ (adoptHeldKeys devices st quarantined).2,
        key ∈ quarantined ∨ ∃ m ∈ st.group.members, KeyOf devices m key := by
  refine List.foldlRecOn (motive := fun acc : GroupState O × Finset (ℕ × String) =>
    quarantined ⊆ acc.2 ∧ ∀ key ∈ acc.2,
      key ∈ quarantined ∨ ∃ m ∈ st.group.members, KeyOf devices m key) _ _
    ⟨Finset.Subset.refl _, fun _ => Or.inl⟩ ?_
  intro acc hacc member hmember
  obtain ⟨hsub, hnew⟩ := adoptMember_quarantined devices acc member
  refine ⟨hacc.1.trans hsub, fun key hkey => ?_⟩
  rcases hnew key hkey with hkey | hkey
  · exact hacc.2 key hkey
  · exact Or.inr ⟨member, hmember, hkey⟩

theorem adoptSlots_quarantined (devices : Devices O) (replaced : List (GroupState O))
    (slots : List (Slot O)) (quarantined : Finset (ℕ × String)) :
    quarantined ⊆ (adoptSlots devices replaced slots quarantined).2 ∧
      ∀ key ∈ (adoptSlots devices replaced slots quarantined).2, key ∈ quarantined ∨
        ∃ slot ∈ slots, ∃ m ∈ (slotGroup slot).members, KeyOf devices m key := by
  induction slots generalizing quarantined with
  | nil => exact ⟨Finset.Subset.refl _, fun _ => Or.inl⟩
  | cons slot slots ih =>
    cases slot with
    | kept st =>
      obtain ⟨hsub, hnew⟩ := ih quarantined
      refine ⟨hsub, fun key hkey => ?_⟩
      rcases hnew key hkey with hkey | ⟨slot, hslot, hrest⟩
      · exact Or.inl hkey
      · exact Or.inr ⟨slot, List.mem_cons_of_mem _ hslot, hrest⟩
    | fresh group =>
      obtain ⟨hsub, hnew⟩ :=
        adoptHeldKeys_quarantined devices (slotState replaced (.fresh group)) quarantined
      rw [slotState_fresh_group] at hnew
      obtain ⟨hsub', hnew'⟩ :=
        ih (adoptHeldKeys devices (slotState replaced (.fresh group)) quarantined).2
      refine ⟨hsub.trans hsub', fun key hkey => ?_⟩
      rcases hnew' key hkey with hkey | ⟨slot, hslot, hrest⟩
      · rcases hnew key hkey with hkey | hkey
        · exact Or.inl hkey
        · exact Or.inr ⟨.fresh group, List.mem_cons_self, hkey⟩
      · exact Or.inr ⟨slot, List.mem_cons_of_mem _ hslot, hrest⟩

/-! ## The states under new groups -/

/-- The new states, before any settle. -/
def newStates (old : List (GroupState O)) (groups : List RolloverGroup) (devices : Devices O)
    (quarantined : Finset (ℕ × String)) : List (GroupState O) :=
  (replaceStates old groups devices quarantined).1.map (·.1)

section States
variable {old : List (GroupState O)} {groups : List RolloverGroup} {o : GroupState O}

theorem newStates_groups (old : List (GroupState O)) (groups : List RolloverGroup)
    (devices : Devices O) (quarantined : Finset (ℕ × String)) :
    (newStates old groups devices quarantined).map (·.group) = groups := by
  rw [newStates, List.map_map]
  exact (adoptSlots_groups devices _ _ _).trans (matchStates_groups groups old)

theorem mem_newStates {devices : Devices O} (h : st ∈ newStates old groups devices quarantined) :
    Slot.kept st ∈ (matchStates groups old).1 ∨
      ∃ group, Slot.fresh group ∈ (matchStates groups old).1 ∧
        ∃ q, st = freshState devices (matchStates groups old).2 group q := by
  obtain ⟨p, hp, rfl⟩ := List.mem_map.mp h
  rcases mem_adoptSlots hp with ⟨st, hst, rfl⟩ | ⟨group, hgroup, q, hstate, -⟩
  · exact Or.inl hst
  · exact Or.inr ⟨group, hgroup, q, hstate⟩

theorem kept_mem_newStates (devices : Devices O) (quarantined : Finset (ℕ × String))
    (h : Slot.kept st ∈ (matchStates groups old).1) :
    st ∈ newStates old groups devices quarantined :=
  List.mem_map.mpr ⟨(st, false), mem_adoptSlots_of_kept devices _ _ h, rfl⟩

theorem fresh_mem_newStates (devices : Devices O) (quarantined : Finset (ℕ × String))
    (h : Slot.fresh group ∈ (matchStates groups old).1) :
    ∃ q, freshState devices (matchStates groups old).2 group q ∈
      newStates old groups devices quarantined := by
  obtain ⟨q, p, hp, heq⟩ := mem_adoptSlots_of_fresh devices (matchStates groups old).2
    (retireAll (carriedMembers (matchStates groups old).2 (matchStates groups old).1)
      (matchStates groups old).2 quarantined) h
  exact ⟨q, List.mem_map.mpr ⟨p, hp, heq⟩⟩

variable (hold : old.Pairwise StatesApart) (hwell : ∀ st ∈ old, WellHeld st)
include hold hwell

omit [PyStr] in
theorem replaced_nodup :
    (((matchStates groups old).2.flatMap (·.held)).map (·.member)).Nodup :=
  nodup_held (matchStates_left_apart groups hold)
    fun st hst => (hwell st (matchStates_left hst)).toOrderly

omit hold in
theorem newStates_wellHeld {devices : Devices O}
    (h : st ∈ newStates old groups devices quarantined) : WellHeld st := by
  rcases mem_newStates h with hkept | ⟨group, -, q, rfl⟩
  · obtain ⟨old', hold', group, -, hsame, rfl⟩ := matchStates_kept hkept
    exact (hwell old' hold').rename hsame
  · exact freshState_wellHeld devices _ group q

omit [PyStr] in
/-- A member of a replaced state that a new group has is carried to a fresh group. -/
theorem carried_slot (ho : o ∈ (matchStates groups old).2) {h : HeldMember O} (hh : h ∈ o.held)
    (hgroup : group ∈ groups) (hmem : h.member ∈ group.members) :
    Slot.fresh group ∈ (matchStates groups old).1 ∧
      h ∈ ((matchStates groups old).2.flatMap (·.held)).filter
        fun x => x.member ∈ group.members := by
  obtain ⟨slot, hslot, hname⟩ := exists_slot old hgroup
  cases slot with
  | kept st =>
    have hdisjoint := matchStates_kept_apart hold hslot ho
    have hst : h.member ∈ st.group.members := by
      rw [← hname] at hmem
      exact hmem
    exact absurd ((hwell o (matchStates_left ho)).mem_group h hh) (hdisjoint _ hst)
  | fresh group' =>
    cases hname
    refine ⟨hslot, List.mem_filter.mpr ⟨List.mem_flatMap.mpr ⟨o, ho, hh⟩, by simpa using hmem⟩⟩

/-- A held member of a new group is held under the new groups. -/
theorem held_kept (devices : Devices O) (quarantined : Finset (ℕ × String))
    {h : HeldMember O} (hh : h ∈ old.flatMap (·.held))
    (hgroup : ∃ group ∈ groups, h.member ∈ group.members) :
    h ∈ (newStates old groups devices quarantined).flatMap (·.held) := by
  obtain ⟨o, ho, hh⟩ := List.mem_flatMap.mp hh
  obtain ⟨group, hgroup, hmem⟩ := hgroup
  rcases matchStates_cases groups ho with hleft | ⟨group', -, -, hkept⟩
  · obtain ⟨hslot, hcarried⟩ := carried_slot hold hwell hleft hh hgroup hmem
    obtain ⟨q, hq⟩ := fresh_mem_newStates devices quarantined hslot
    have hsub := freshState_sublist devices (replaced_nodup hold hwell) group q
      (List.pairwise_singleton _ h) (List.singleton_sublist.mpr hcarried)
    exact List.mem_flatMap.mpr ⟨_, hq, List.singleton_sublist.mp hsub⟩
  · exact List.mem_flatMap.mpr ⟨_, kept_mem_newStates devices quarantined hkept, hh⟩

omit [PyStr] hold hwell in
/-- An old state that is kept shares nothing with a fresh group. -/
theorem kept_apart_fresh (hgroups : groups.Pairwise Apart) (ho : o ∈ old) {group' : RolloverGroup}
    (hgroup : group ∈ groups) (hsame : sameBehavior o.group group = true)
    (hfresh : Slot.fresh group' ∈ (matchStates groups old).1) : Apart o.group group' := by
  intro m hm hm'
  by_cases heq : group = group'
  · rw [heq] at hsame
    rw [matchStates_fresh_new hgroups hfresh ho hsame] at hm'
    cases hm'
  · have hdisjoint : Apart group group' := hgroups.forall hgroup (matchStates_fresh hfresh) heq
    exact hdisjoint m (sameBehavior_members hsame ▸ hm) hm'

omit [PyStr] hold hwell in
/-- A group takes nothing from a state it shares no member with. -/
theorem shared_sublist (ho : WellHeld o) (hdisjoint : StatesApart o st) :
    (o.held.filter fun h => h.member ∈ st.group.members).Sublist st.held := by
  have hnil : (o.held.filter fun h => h.member ∈ st.group.members) = [] := by
    rw [List.filter_eq_nil_iff]
    intro h hh
    simpa using hdisjoint _ (ho.mem_group h hh)
  rw [hnil]
  exact List.nil_sublist _

/-- The members a new group shares with an old one keep their order. -/
theorem order_kept (hgroups : groups.Pairwise Apart) {devices : Devices O} (ho : o ∈ old)
    (hst : st ∈ newStates old groups devices quarantined) :
    (o.held.filter fun h => h.member ∈ st.group.members).Sublist st.held := by
  rcases mem_newStates hst with hkept | ⟨group, hfresh, q, rfl⟩
  · obtain ⟨old', hold', group, -, hsame, rfl⟩ := matchStates_kept hkept
    by_cases heq : o = old'
    · rw [heq]
      exact List.filter_sublist
    · have hdisjoint : StatesApart o old' := hold.forall ho hold' heq
      exact shared_sublist (hwell o ho)
        fun m hm hm' => hdisjoint m hm (sameBehavior_members hsame ▸ hm')
  · rcases matchStates_cases groups ho with hleft | ⟨group', hgroup', hsame, -⟩
    · refine freshState_sublist devices (replaced_nodup hold hwell) group q
        ((hwell o ho).sorted.sublist List.filter_sublist) ?_
      rw [freshState_group]
      exact (List.sublist_flatten_of_mem (List.mem_map_of_mem hleft)).filter _
    · refine shared_sublist (hwell o ho) ?_
      rw [StatesApart, freshState_group]
      exact kept_apart_fresh hgroups ho hgroup' hsame hfresh

omit hold hwell in
/-- The active member of a new state was the active one of an old state. -/
theorem active_kept {devices : Devices O} (hst : st ∈ newStates old groups devices quarantined)
    (hactive : st.active = some m) : ∃ o ∈ old, o.active = some m := by
  rcases mem_newStates hst with hkept | ⟨group, -, q, rfl⟩
  · obtain ⟨old', hold', group, -, -, rfl⟩ := matchStates_kept hkept
    exact ⟨old', hold', hactive⟩
  · obtain ⟨o, ho, hom⟩ := freshState_active hactive
    exact ⟨o, matchStates_left ho, hom⟩

/-- A group whose behaviour did not change keeps its state. -/
theorem state_kept (hgroups : groups.Pairwise Apart) (devices : Devices O)
    (quarantined : Finset (ℕ × String)) (ho : o ∈ old) (hgroup : group ∈ groups)
    (hsame : sameBehavior o.group group = true) :
    { o with group := group } ∈ newStates old groups devices quarantined := by
  obtain ⟨slot, hslot, rfl⟩ := exists_slot old hgroup
  cases slot with
  | kept st =>
    obtain ⟨old', hold', group', -, hsame', rfl⟩ := matchStates_kept hslot
    have hmembers : o.group.members = old'.group.members :=
      (sameBehavior_members hsame).trans (sameBehavior_members hsame').symm
    have heq := eq_of_same_members hold hwell ho hold' hmembers
    have hstate : { o with group := group' } = { old' with group := group' } := by
      rw [heq]
    rw [slotGroup, hstate]
    exact kept_mem_newStates devices quarantined hslot
  | fresh group' =>
    have hempty := matchStates_fresh_new hgroups hslot ho hsame
    obtain ⟨q, hq⟩ := fresh_mem_newStates devices quarantined hslot
    have hnew := Gathered.of_no_members
      (freshState_wellHeld devices (matchStates groups old).2 group' q).gathered
      (by rw [freshState_group]; exact hempty)
    have hold_eq := Gathered.of_no_members ((hwell o ho).rename hsame).gathered hempty
    rw [freshState_group] at hnew
    rw [hnew] at hq
    rw [hold_eq]
    exact hq

/-- What a replacement quarantines. -/
theorem mem_newQuarantine (groups : List RolloverGroup) (devices : Devices O)
    (quarantined : Finset (ℕ × String)) :
    quarantined ⊆ (replaceStates old groups devices quarantined).2 ∧
      (∀ h ∈ old.flatMap (·.held), (∀ group ∈ groups, h.member ∉ group.members) →
        h.pressed = false → h.recalled = false →
        (h.runtime, h.eventName) ∈ (replaceStates old groups devices quarantined).2) ∧
      ∀ key ∈ (replaceStates old groups devices quarantined).2, key ∈ quarantined ∨
        (∃ h ∈ old.flatMap (·.held), (∀ group ∈ groups, h.member ∉ group.members) ∧
          h.pressed = false ∧ h.recalled = false ∧ (h.runtime, h.eventName) = key) ∨
        ∃ group ∈ groups, ∃ m ∈ group.members, KeyOf devices m key := by
  have hadopt := adoptSlots_quarantined devices (matchStates groups old).2
    (matchStates groups old).1
    (retireAll (carriedMembers (matchStates groups old).2 (matchStates groups old).1)
      (matchStates groups old).2 quarantined)
  refine ⟨fun key hkey => hadopt.1 (mem_retireAll.mpr (Or.inl hkey)), ?_, ?_⟩
  · intro h hh hnone hpressed hrecalled
    obtain ⟨o, ho, hh⟩ := List.mem_flatMap.mp hh
    rcases matchStates_cases groups ho with hleft | ⟨group, hgroup, hsame, -⟩
    · refine hadopt.1 (mem_retireAll.mpr (Or.inr ⟨o, hleft, ?_⟩))
      refine mem_retireKeys.mpr ⟨h, hh, fun hcarried => ?_, hpressed, hrecalled, rfl⟩
      obtain ⟨group, hslot, h', hh', hname⟩ := mem_carriedMembers.mp hcarried
      have hmem := (slotState_gathered (matchStates groups old).2 group).mem_group h' hh'
      rw [slotState_fresh_group, hname] at hmem
      exact hnone group (matchStates_fresh hslot) hmem
    · exact absurd (sameBehavior_members hsame ▸ (hwell o ho).mem_group h hh) (hnone group hgroup)
  · intro key hkey
    rcases hadopt.2 key hkey with hkey | ⟨slot, hslot, m, hm, hof⟩
    · rcases mem_retireAll.mp hkey with hkey | ⟨o, ho, hkey⟩
      · exact Or.inl hkey
      · obtain ⟨h, hh, hcarried, hpressed, hrecalled, hname⟩ := mem_retireKeys.mp hkey
        refine Or.inr (Or.inl ⟨h, List.mem_flatMap.mpr ⟨o, matchStates_left ho, hh⟩, ?_,
          hpressed, hrecalled, hname⟩)
        intro group hgroup hmem
        obtain ⟨hslot, hin⟩ := carried_slot hold hwell ho hh hgroup hmem
        refine hcarried (mem_carriedMembers.mpr ⟨group, hslot, h, ?_, rfl⟩)
        rw [slotState_fresh_held (replaced_nodup hold hwell), mem_sortedBy]
        exact hin
    · refine Or.inr (Or.inr ⟨slotGroup slot, ?_, m, hm, hof⟩)
      have hin := List.mem_map_of_mem (f := slotGroup) hslot
      rwa [matchStates_groups] at hin

end States

/-! ## The replacement as a whole -/

/-- All held members of the installed groups. -/
def allHeld (sys : System O) : List (HeldMember O) := (oldStates sys).flatMap (·.held)

/-- Installed groups are disjoint, and each has its state. -/
structure Installed (sys : System O) : Prop where
  groups_eq : ∀ rollover, sys.rollover = some rollover →
    rollover.states.map (·.group) = rollover.groups
  apart : (oldStates sys).Pairwise StatesApart
  wellHeld : ∀ st ∈ oldStates sys, WellHeld st

/-- What a replacement of the groups does to the held members and their keys. -/
structure KeysKept (sys sys' : System O) (groups : List RolloverGroup) (devices : Devices O) :
    Prop where
  states_groups : (oldStates sys').map (·.group) = groups
  held_once : ∀ h ∈ allHeld sys, (∃ group ∈ groups, h.member ∈ group.members) →
    ((allHeld sys').filter fun h' => h'.member = h.member) = [h]
  in_group : ∀ st ∈ oldStates sys', ∀ h ∈ st.held, h.member ∈ st.group.members
  in_press_order : ∀ st ∈ oldStates sys', st.held.Pairwise fun h h' => h.pressSeq ≤ h'.pressSeq
  order_kept : ∀ old ∈ oldStates sys, ∀ st ∈ oldStates sys',
    (old.held.filter fun h => h.member ∈ st.group.members).Sublist st.held
  one_active : ∀ st ∈ oldStates sys', ∀ m, st.active = some m →
    (∃ h ∈ st.held, h.member = m) ∧ ∃ old ∈ oldStates sys, old.active = some m
  unchanged_kept : ∀ old ∈ oldStates sys, ∀ group ∈ groups,
    sameBehavior old.group group = true → { old with group := group } ∈ oldStates sys'
  stay_quarantined : sys.quarantined ⊆ sys'.quarantined
  dropped_quarantined : ∀ h ∈ allHeld sys, (∀ group ∈ groups, h.member ∉ group.members) →
    h.pressed = false → h.recalled = false → (h.runtime, h.eventName) ∈ sys'.quarantined
  only_quarantined : ∀ key ∈ sys'.quarantined, key ∈ sys.quarantined ∨
    (∃ h ∈ allHeld sys, (∀ group ∈ groups, h.member ∉ group.members) ∧ h.pressed = false ∧
      h.recalled = false ∧ (h.runtime, h.eventName) = key) ∨
    ∃ group ∈ groups, ∃ m ∈ group.members, KeyOf devices m key

omit [PyStr] in
theorem pairwise_statesApart (h : (states.map (·.group)).Pairwise Apart) :
    states.Pairwise StatesApart := by
  rw [List.pairwise_map] at h
  exact h

/-- Groups that stay as they are keep everything. -/
theorem keysKept_same {sys : System O} (h : Installed sys) {rollover : RolloverRuntime O}
    (hrollover : sys.rollover = some rollover) (devices : Devices O) :
    KeysKept sys sys rollover.groups devices := by
  have hstates : oldStates sys = rollover.states := by simp [oldStates, hrollover]
  have hgroups := h.groups_eq rollover hrollover
  have hgroup_of : ∀ st ∈ oldStates sys, st.group ∈ rollover.groups := by
    intro st hst
    rw [hstates] at hst
    rw [← hgroups]
    exact List.mem_map_of_mem hst
  have hown : ∀ hm ∈ allHeld sys, ∃ group ∈ rollover.groups, hm.member ∈ group.members := by
    intro hm hhm
    obtain ⟨st, hst, hhm⟩ := List.mem_flatMap.mp hhm
    exact ⟨st.group, hgroup_of st hst, (h.wellHeld st hst).mem_group hm hhm⟩
  have hnd := nodup_held h.apart fun st hst => (h.wellHeld st hst).toOrderly
  refine ⟨hstates ▸ hgroups, fun hm hhm _ => filter_eq_singleton hnd hhm,
    fun st hst => (h.wellHeld st hst).mem_group, fun st hst => (h.wellHeld st hst).sorted,
    ?_, ?_, ?_, Finset.Subset.refl _, ?_, fun _ => Or.inl⟩
  · intro old hold st hst
    by_cases heq : old = st
    · rw [heq]
      exact List.filter_sublist
    · exact shared_sublist (h.wellHeld old hold) (h.apart.forall hold hst heq)
  · exact fun st hst m hm => ⟨(h.wellHeld st hst).active_held m hm, st, hst, hm⟩
  · intro old hold group hgroup hsame
    rw [← hgroups] at hgroup
    obtain ⟨st, hst, rfl⟩ := List.mem_map.mp hgroup
    rw [← hstates] at hst
    have heq := eq_of_same_members h.apart h.wellHeld hst hold (sameBehavior_members hsame).symm
    rw [← heq]
    exact hst
  · intro hm hhm hnone
    obtain ⟨group, hgroup, hmem⟩ := hown hm hhm
    exact absurd hmem (hnone group hgroup)

/-- The new states, with the quarantined keys of the replacement, keep everything. -/
theorem keysKept_new {sys : System O} (h : Installed sys) {groups : List RolloverGroup}
    (hgroups : groups.Pairwise Apart) (devices : Devices O) {sys' : System O}
    (hstates : oldStates sys' = newStates (oldStates sys) groups devices sys.quarantined)
    (hquarantined : sys'.quarantined =
      (replaceStates (oldStates sys) groups devices sys.quarantined).2) :
    KeysKept sys sys' groups devices := by
  have hnames : (oldStates sys').map (·.group) = groups := hstates ▸ newStates_groups _ _ devices _
  have hwell : ∀ st ∈ oldStates sys', WellHeld st := by
    intro st hst
    rw [hstates] at hst
    exact newStates_wellHeld h.wellHeld hst
  have hapart : (oldStates sys').Pairwise StatesApart := by
    apply pairwise_statesApart
    rw [hnames]
    exact hgroups
  have hnd := nodup_held hapart fun st hst => (hwell st hst).toOrderly
  obtain ⟨hstay, hdropped, honly⟩ :=
    mem_newQuarantine h.apart h.wellHeld groups devices sys.quarantined
  rw [← hquarantined] at hstay hdropped honly
  refine ⟨hnames, ?_, fun st hst => (hwell st hst).mem_group, fun st hst => (hwell st hst).sorted,
    ?_, ?_, ?_, hstay, hdropped, honly⟩
  · intro hm hhm hgroup
    have hkept := held_kept h.apart h.wellHeld devices sys.quarantined hhm hgroup
    rw [← hstates] at hkept
    exact filter_eq_singleton hnd hkept
  · intro old hold st hst
    rw [hstates] at hst
    exact order_kept h.apart h.wellHeld hgroups hold hst
  · intro st hst m hm
    refine ⟨(hwell st hst).active_held m hm, ?_⟩
    rw [hstates] at hst
    exact active_kept hst hm
  · intro old hold group hgroup hsame
    rw [hstates]
    exact state_kept h.apart h.wellHeld hgroups devices sys.quarantined hold hgroup hsame

/-- Replacing disjoint groups by disjoint groups loses no held key. -/
theorem replace_keeps_keys {sys : System O} (h : Installed sys) {groups : List RolloverGroup}
    (hgroups : groups.Pairwise Apart) (devices : Devices O) :
    KeysKept sys (replaceRolloverGroups id sys groups devices) groups devices := by
  unfold replaceRolloverGroups
  split
  · rename_i hsame
    cases hrollover : sys.rollover with
    | none => simp [hrollover] at hsame
    | some rollover =>
      have heq : rollover.groups = groups := by simpa [hrollover] using hsame
      rw [← heq]
      exact keysKept_same h hrollover devices
  · split
    · rename_i hempty
      subst hempty
      exact keysKept_new h hgroups devices rfl rfl
    · refine keysKept_new h hgroups devices ?_ rfl
      simp only [oldStates, newStates, id_eq, ite_self]

end Adopt

attribute [local instance] asciiStr

def keyOn (button : String) : RolloverMember := { hardwareId := "pad", button := button }

def heldKey (button : String) (pressSeq : ℕ) (pressed : Bool) : HeldMember ℕ :=
  { member := keyOn button, runtime := 0, eventCode := 0, eventName := button,
    pressSeq := pressSeq, pressed := pressed }

/-- Left and right are held in one group, up in another. -/
def crossSystem : System ℕ :=
  let sides : RolloverGroup := { name := "sides", members := [keyOn "left", keyOn "right"] }
  let heights : RolloverGroup := { name := "heights", members := [keyOn "up", keyOn "down"] }
  { rollover := some
      { groups := [sides, heights]
        states :=
          [{ group := sides, held := [heldKey "left" 1 false, heldKey "right" 3 true],
             active := some (keyOn "right") },
           { group := heights, held := [heldKey "up" 2 true], active := some (keyOn "up") }] } }

/-- One new group takes a member of each old one; the key left out is quarantined. -/
def mixedGroups : List RolloverGroup :=
  [{ name := "mixed", members := [keyOn "up", keyOn "right"] }]

theorem crossSystem_installed : Installed crossSystem := by
  refine ⟨?_, pairwise_statesApart (by decide), ?_⟩
  · intro rollover hrollover
    cases hrollover
    decide
  · intro st hst
    simp only [oldStates, crossSystem, List.mem_cons, List.not_mem_nil, or_false] at hst
    rcases hst with rfl | rfl
    · refine ⟨⟨by decide, by decide, nofun, by decide⟩, ?_⟩
      rintro m ⟨⟩
      exact ⟨heldKey "right" 3 true, by simp, rfl⟩
    · refine ⟨⟨by decide, by decide, nofun, by decide⟩, ?_⟩
      rintro m ⟨⟩
      exact ⟨heldKey "up" 2 true, by simp, rfl⟩

theorem replace_keeps_keys_cross :
    KeysKept crossSystem (replaceRolloverGroups id crossSystem mixedGroups noDevices) mixedGroups
        noDevices ∧
      allHeld (replaceRolloverGroups id crossSystem mixedGroups noDevices) =
        [heldKey "up" 2 true, heldKey "right" 3 true] ∧
      (0, "left") ∈ (replaceRolloverGroups id crossSystem mixedGroups noDevices).quarantined :=
  ⟨replace_keeps_keys crossSystem_installed (by decide) noDevices, by decide,
    by decide⟩

/-- The second group also has the key that the first one holds. -/
def overlapSystem : System ℕ :=
  let first : RolloverGroup := { name := "first", members := [keyOn "left", keyOn "right"] }
  let second : RolloverGroup := { name := "second", members := [keyOn "right", keyOn "up"] }
  { rollover := some
      { groups := [first, second]
        states :=
          [{ group := first, held := [heldKey "right" 1 true], active := some (keyOn "right") },
           { group := second }] } }

/-- Old groups that overlap lose a held key: the kept group does not take it over. -/
theorem overlap_loses_key :
    ¬ ∀ (sys : System ℕ) (groups : List RolloverGroup) (devices : Devices ℕ),
      groups.Pairwise Apart → ∀ h ∈ allHeld sys, (∃ group ∈ groups, h.member ∈ group.members) →
        ∃ st ∈ oldStates (replaceRolloverGroups id sys groups devices), h ∈ st.held := by
  intro hall
  have hlost := hall overlapSystem
    [{ name := "second", members := [keyOn "right", keyOn "up"] }] noDevices (by decide)
    (heldKey "right" 1 true) (by decide) (by decide)
  revert hlost
  decide

end Keymasq.Rollover.Regrouping
