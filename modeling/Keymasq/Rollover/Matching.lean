import Mathlib.Data.List.Pairwise
import Keymasq.Foundation.Lists
import Keymasq.Rollover.Replacement

/-!
# Disjoint groups under a replacement

With disjoint groups, the states a replacement keeps, the ones it drops and the
fresh groups share no members, so every held member has one place to go.
-/

namespace Keymasq.Rollover.Matching
open Foundation Foundation.Lists Foundation.Sorting Groups Settle Replacement Keymasq.Profile.Model

variable {O : Type*} {st : GroupState O} {group : RolloverGroup} {groups : List RolloverGroup}
  {old : List (GroupState O)}

instance symmApart : Std.Symm Apart := ⟨fun _ _ => Apart.symm⟩

def StatesApart (st st' : GroupState O) : Prop := Apart st.group st'.group

instance symmStatesApart : Std.Symm (StatesApart (O := O)) := ⟨fun _ _ => Apart.symm⟩

/-- What is known of the states of installed groups. -/
structure WellHeld (st : GroupState O) : Prop extends Orderly st where
  active_held : ∀ m, st.active = some m → ∃ h ∈ st.held, h.member = m

theorem WellHeld.gathered (h : WellHeld st) : Gathered st :=
  ⟨h.nodup, h.lost_held, h.mem_group, h.active_held⟩

theorem sameBehavior_members {g g' : RolloverGroup} (h : sameBehavior g g' = true) :
    g.members = g'.members := by
  simp only [sameBehavior, decide_eq_true_eq] at h
  exact h.1

/-- A group without members holds nothing. -/
theorem Gathered.of_no_members (h : Gathered st) (hempty : st.group.members = []) :
    st = { group := st.group } := by
  have hheld : st.held = [] := by
    rw [List.eq_nil_iff_forall_not_mem]
    intro x hx
    have hmem := h.mem_group x hx
    rw [hempty] at hmem
    cases hmem
  have hlost : st.lost = ∅ := by
    rw [Finset.eq_empty_iff_forall_notMem]
    intro m hm
    obtain ⟨x, hx, -⟩ := h.lost_held m hm
    rw [hheld] at hx
    cases hx
  have hactive : st.active = none := by
    cases hsome : st.active with
    | none => rfl
    | some m =>
      obtain ⟨x, hx, -⟩ := h.active_held m hsome
      rw [hheld] at hx
      cases hx
  obtain ⟨group, held, lost, active⟩ := st
  simp only at hheld hlost hactive
  rw [hheld, hlost, hactive]

/-- Disjoint states of the same members differ in their group's name and rule only. -/
theorem eq_of_same_members {states : List (GroupState O)} (hapart : states.Pairwise StatesApart)
    (hwell : ∀ st ∈ states, WellHeld st) {st' : GroupState O} (hst : st ∈ states)
    (hst' : st' ∈ states) (hsame : st.group.members = st'.group.members) :
    st = { st' with group := st.group } := by
  by_cases heq : st = st'
  · rw [heq]
  · have hdisjoint : StatesApart st st' := hapart.forall hst hst' heq
    have hempty : st.group.members = [] := by
      rw [List.eq_nil_iff_forall_not_mem]
      intro m hm
      exact hdisjoint m hm (hsame ▸ hm)
    have hst_eq := Gathered.of_no_members (hwell st hst).gathered hempty
    have hst'_eq := Gathered.of_no_members (hwell st' hst').gathered (hsame ▸ hempty)
    rw [hst'_eq]
    exact hst_eq

theorem WellHeld.rename (h : WellHeld st) (hsame : sameBehavior st.group group = true) :
    WellHeld { st with group := group } :=
  ⟨⟨h.nodup, h.sorted, h.lost_held, fun x hx => sameBehavior_members hsame ▸ h.mem_group x hx⟩,
    h.active_held⟩

/-- The members held by disjoint states are distinct. -/
theorem nodup_held {states : List (GroupState O)} (hapart : states.Pairwise StatesApart)
    (horderly : ∀ st ∈ states, Orderly st) :
    ((states.flatMap (·.held)).map (·.member)).Nodup := by
  rw [List.map_flatMap, List.nodup_flatMap]
  refine ⟨fun st hst => (horderly st hst).nodup, ?_⟩
  refine List.Pairwise.imp_of_mem ?_ hapart
  intro st st' hst hst' hdisjoint m hm hm'
  obtain ⟨x, hx, rfl⟩ := List.mem_map.mp hm
  obtain ⟨y, hy, hname⟩ := List.mem_map.mp hm'
  exact hdisjoint x.member ((horderly st hst).mem_group x hx)
    (hname ▸ (horderly st' hst').mem_group y hy)

/-! ## What becomes of the slots -/

def slotGroup : Slot O → RolloverGroup
  | .kept st => st.group
  | .fresh group => group

theorem matchStates_groups (groups : List RolloverGroup) (old : List (GroupState O)) :
    (matchStates groups old).1.map slotGroup = groups := by
  induction groups generalizing old with
  | nil => rfl
  | cons group groups ih =>
    simp only [matchStates]
    cases old.find? fun st => sameBehavior st.group group with
    | none => simp only [List.map_cons, slotGroup, ih]
    | some st => simp only [List.map_cons, slotGroup, ih]

/-- Every group has its slot. -/
theorem exists_slot (old : List (GroupState O)) (h : group ∈ groups) :
    ∃ slot ∈ (matchStates groups old).1, slotGroup slot = group := by
  rw [← matchStates_groups groups old] at h
  exact List.mem_map.mp h

/-- An old state is kept under a group of its behaviour, or replaced. -/
theorem matchStates_cases (groups : List RolloverGroup) (h : st ∈ old) :
    st ∈ (matchStates groups old).2 ∨
      ∃ group ∈ groups, sameBehavior st.group group = true ∧
        Slot.kept { st with group := group } ∈ (matchStates groups old).1 := by
  induction groups generalizing old with
  | nil => exact Or.inl h
  | cons group groups ih =>
    simp only [matchStates]
    cases hfind : old.find? fun st => sameBehavior st.group group with
    | none =>
      rcases ih h with hleft | ⟨group', hgroup', hsame, hkept⟩
      · exact Or.inl hleft
      · exact Or.inr ⟨group', List.mem_cons_of_mem _ hgroup', hsame, List.mem_cons_of_mem _ hkept⟩
    | some found =>
      have hperm := perm_cons_eraseP hfind
      rcases List.mem_cons.mp (hperm.mem_iff.mp h) with rfl | h
      · have hsame : sameBehavior st.group group = true := by simpa using List.find?_some hfind
        exact Or.inr ⟨group, List.mem_cons_self, hsame, List.mem_cons_self⟩
      · rcases ih h with hleft | ⟨group', hgroup', hsame, hkept⟩
        · exact Or.inl hleft
        · exact Or.inr
            ⟨group', List.mem_cons_of_mem _ hgroup', hsame, List.mem_cons_of_mem _ hkept⟩

theorem matchStates_left (h : st ∈ (matchStates groups old).2) : st ∈ old := by
  induction groups generalizing old with
  | nil => exact h
  | cons group groups ih =>
    simp only [matchStates] at h
    cases hfind : old.find? fun st => sameBehavior st.group group with
    | none =>
      rw [hfind] at h
      exact ih h
    | some found =>
      rw [hfind] at h
      exact List.mem_of_mem_eraseP (ih h)

theorem matchStates_left_apart (groups : List RolloverGroup) (hapart : old.Pairwise StatesApart) :
    (matchStates groups old).2.Pairwise StatesApart := by
  induction groups generalizing old with
  | nil => exact hapart
  | cons group groups ih =>
    simp only [matchStates]
    cases old.find? fun st => sameBehavior st.group group with
    | none => exact ih hapart
    | some found => exact ih (hapart.sublist List.eraseP_sublist)

/-- A kept state and a replaced one come from two old states. -/
theorem matchStates_kept_apart (hapart : old.Pairwise StatesApart) {st' : GroupState O}
    (hkept : Slot.kept st ∈ (matchStates groups old).1) (hleft : st' ∈ (matchStates groups old).2) :
    StatesApart st st' := by
  induction groups generalizing old with
  | nil => cases hkept
  | cons group groups ih =>
    simp only [matchStates] at hkept hleft
    cases hfind : old.find? fun st => sameBehavior st.group group with
    | none =>
      rw [hfind] at hkept hleft
      rcases List.mem_cons.mp hkept with hfalse | hkept
      · cases hfalse
      · exact ih hapart hkept hleft
    | some found =>
      have hperm := perm_cons_eraseP hfind
      have hsplit := (hperm.pairwise_iff fun {_ _} => Apart.symm).mp hapart
      rw [List.pairwise_cons] at hsplit
      rw [hfind] at hkept hleft
      rcases List.mem_cons.mp hkept with heq | hkept
      · cases heq
        have hsame : sameBehavior found.group group = true := by simpa using List.find?_some hfind
        have hfound := hsplit.1 st' (matchStates_left hleft)
        intro m hm
        exact hfound m (sameBehavior_members hsame ▸ hm)
      · exact ih hsplit.2 hkept hleft

/-- A fresh group behaves like no old one, if it has a member at all. -/
theorem matchStates_fresh_new (hgroups : groups.Pairwise Apart)
    (hfresh : Slot.fresh group ∈ (matchStates groups old).1) (hst : st ∈ old)
    (hsame : sameBehavior st.group group = true) : group.members = [] := by
  induction groups generalizing old with
  | nil => cases hfresh
  | cons group' groups ih =>
    rw [List.pairwise_cons] at hgroups
    simp only [matchStates] at hfresh
    cases hfind : old.find? fun st => sameBehavior st.group group' with
    | none =>
      rw [hfind] at hfresh
      rcases List.mem_cons.mp hfresh with heq | hfresh
      · cases heq
        exact absurd hsame (List.find?_eq_none.mp hfind st hst)
      · exact ih hgroups.2 hfresh hst
    | some found =>
      rw [hfind] at hfresh
      rcases List.mem_cons.mp hfresh with heq | hfresh
      · cases heq
      · by_cases hpast : sameBehavior st.group group' = true
        · have hdisjoint := hgroups.1 group (matchStates_fresh hfresh)
          have hmembers : group'.members = group.members :=
            (sameBehavior_members hpast).symm.trans (sameBehavior_members hsame)
          rw [List.eq_nil_iff_forall_not_mem]
          intro m hm
          exact hdisjoint m (hmembers ▸ hm) hm
        · have hstay := (List.mem_eraseP_of_neg (l := old)
            (p := fun st => sameBehavior st.group group') hpast).mpr hst
          exact ih hgroups.2 hfresh hstay

end Keymasq.Rollover.Matching
