import Keymasq.Rollover.Operations
import Keymasq.Rollover.Regrouping

/-!
# The installed groups along a run

No operation but a replacement changes which groups are installed, so groups
that are always replaced by disjoint ones stay disjoint.
-/

namespace Keymasq.Rollover.Layout
open Foundation Foundation.Transition
open Groups Settle Replacement Matching Regrouping Operations Keymasq.Combo.Names Keymasq.Profile.Model

variable {O : Type*} {sys : System O}

/-- The groups of the states, in order. -/
def layout (sys : System O) : List RolloverGroup := (oldStates sys).map (·.group)

structure Laid (sys : System O) : Prop where
  groups_eq : ∀ rollover, sys.rollover = some rollover →
    rollover.states.map (·.group) = rollover.groups
  apart : (layout sys).Pairwise Apart

theorem laid_of_none (h : sys.rollover = none) : Laid sys := by
  have hnil : layout sys = [] := by simp [layout, oldStates, h]
  refine ⟨fun rollover hsome => ?_, hnil ▸ List.Pairwise.nil⟩
  rw [h] at hsome
  cases hsome

/-- An operation that changes states in place keeps the layout. -/
theorem Laid.of_map {sys' : System O} (h : Laid sys) {f : List (GroupState O) → List (GroupState O)}
    (hsys : sys'.rollover = sys.rollover.map fun r => { r with states := f r.states })
    (hf : ∀ states, (f states).map (·.group) = states.map (·.group)) : Laid sys' := by
  cases hrollover : sys.rollover with
  | none =>
    rw [hrollover, Option.map_none] at hsys
    exact laid_of_none hsys
  | some rollover =>
    rw [hrollover, Option.map_some] at hsys
    have hlayout : layout sys' = layout sys := by simp [layout, oldStates, hsys, hrollover, hf]
    refine ⟨fun rollover' hsome => ?_, hlayout ▸ h.apart⟩
    rw [hsys] at hsome
    cases hsome
    exact (hf _).trans (h.groups_eq rollover hrollover)

theorem onGroupOf_groups {member : RolloverMember} {f : GroupState O → GroupState O}
    (hf : ∀ st, (f st).group = st.group) (states : List (GroupState O)) :
    (onGroupOf member f states).map (·.group) = states.map (·.group) := by
  induction states with
  | nil => rfl
  | cons st states ih =>
    unfold onGroupOf
    split
    · rw [List.map_cons, List.map_cons, hf]
    · rw [List.map_cons, List.map_cons, ih]

theorem Laid.onGroup (h : Laid sys) (member : RolloverMember) {f : GroupState O → GroupState O}
    (hf : ∀ st, (f st).group = st.group) :
    Laid (sys.onGroup member f) :=
  h.of_map rfl (onGroupOf_groups hf)

section Steps
variable [DecidableEq O]

@[simp] theorem settle_group (env : SettleEnv O) (st : GroupState O)
    (departed : Option (HeldMember O)) : (settle env st departed).1.group = st.group := by
  rw [settle_state]
  exact (markLosers_frame st _).1

theorem applyMemberEvent_group (env : SettleEnv O) (st : GroupState O) (member : RolloverMember)
    (runtime : ℕ) (eventCode : ℤ) (eventName : String) (value : ℤ) (pressSeq : ℕ) :
    (applyMemberEvent env st member runtime eventCode eventName value pressSeq).group =
      st.group := by
  unfold applyMemberEvent
  simp only
  split
  · rfl
  · split
    · split
      · split
        · rfl
        · exact settle_group env _ none
      · exact settle_group env _ none
    · split
      · rfl
      · exact settle_group env _ _

theorem runConsumedRelease_group (env : SettleEnv O) (st : GroupState O)
    (member : RolloverMember) : (runConsumedRelease env st member).group = st.group := by
  unfold runConsumedRelease
  split
  · rfl
  · exact settle_group env _ _

theorem recallMember_group (env : SettleEnv O) (st : GroupState O) (member : RolloverMember) :
    (recallMember env st member).group = st.group := by
  unfold recallMember
  split
  · rfl
  · exact settle_group env _ none

theorem restoreMember_group (env : SettleEnv O) (st : GroupState O) (member : RolloverMember) :
    (restoreMember env st member).group = st.group := by
  unfold restoreMember
  split
  · rfl
  · split
    · rfl
    · exact settle_group env _ none

theorem forgetAndSettle_group (env : SettleEnv O) (runtime : ℕ) (st : GroupState O) :
    (forgetAndSettle env runtime st).group = st.group := by
  have hforget : (forgetGroupRuntime st runtime).1.group = st.group := by
    unfold forgetGroupRuntime
    split <;> rfl
  unfold forgetAndSettle
  simp only
  split
  · exact (settle_group env _ none).trans hforget
  · exact hforget

variable [PyStr]

omit [DecidableEq O] in
theorem Laid.replace (h : Laid sys) {finish : GroupState O → GroupState O}
    (hfinish : ∀ st, (finish st).group = st.group) {groups : List RolloverGroup}
    (hgroups : groups.Pairwise Apart) (devices : Devices O) :
    Laid (replaceRolloverGroups finish sys groups devices) := by
  unfold replaceRolloverGroups
  split
  · exact h
  · split
    · exact laid_of_none rfl
    · have hstates : ((replaceStates (oldStates sys) groups devices sys.quarantined).1.map
          fun p => if p.2 then finish p.1 else p.1).map (·.group) = groups := by
        refine Eq.trans ?_ (newStates_groups (oldStates sys) groups devices sys.quarantined)
        rw [newStates, List.map_map, List.map_map]
        refine List.map_congr_left fun p _ => ?_
        simp only [Function.comp_apply]
        split
        · exact hfinish p.1
        · rfl
      refine ⟨?_, ?_⟩
      · rintro rollover ⟨⟩
        exact hstates
      · have hapart := hgroups
        rw [← hstates] at hapart
        exact hapart

/-- Replacements are given disjoint groups. -/
def DisjointGroups : RolloverOp O → Prop
  | .replaceGroups _ groups _ => groups.Pairwise Apart
  | _ => True

theorem Laid.step {sys' : System O} (h : Laid sys) {op : RolloverOp O} (hop : DisjointGroups op)
    (hstep : step sys op = some sys') : Laid sys' := by
  cases op with
  | memberEvent env member runtime eventCode eventName value pressSeq =>
    cases hstep
    have hgroup : ∀ st : GroupState O, (applyMemberEvent env st member runtime eventCode eventName
        value pressSeq).group = st.group := fun st =>
      applyMemberEvent_group env st member runtime eventCode eventName value pressSeq
    have herase : Laid { sys with quarantined := sys.quarantined.erase (runtime, eventName) } :=
      ⟨h.groups_eq, h.apart⟩
    split
    · split
      · exact herase
      · split
        · exact h
        · exact herase.onGroup member hgroup
    · exact h.onGroup member hgroup
  | consumedRelease env member runtime eventName =>
    cases hstep
    have herase : Laid { sys with quarantined := sys.quarantined.erase (runtime, eventName) } :=
      ⟨h.groups_eq, h.apart⟩
    exact herase.onGroup member fun st => runConsumedRelease_group env st member
  | «recall» env member =>
    cases hstep
    exact h.onGroup member fun st => recallMember_group env st member
  | restore env member =>
    cases hstep
    exact h.onGroup member fun st => restoreMember_group env st member
  | forgetRuntime env runtime =>
    cases hstep
    refine h.of_map (f := List.map (forgetAndSettle env runtime)) rfl fun states => ?_
    rw [List.map_map]
    exact List.map_congr_left fun st _ => forgetAndSettle_group env runtime st
  | replaceGroups env groups devices =>
    cases hstep
    exact h.replace (fun st => settle_group env st none) hop devices

omit [DecidableEq O] [PyStr] in
/-- A settled group's active member is held. -/
theorem wellHeld_of_coherent {st : GroupState O} (h : Coherent st) : WellHeld st := by
  refine ⟨h.toOrderly, fun m hm => ?_⟩
  rw [h.active_chosen] at hm
  exact mem_competing (chooseActive_mem hm).1

/-- Whatever happened before, the next replacement starts from installed groups. -/
theorem installed_run {ops : List (RolloverOp O)}
    (hops : Guarded step (fun _ op => DisjointGroups op) ({} : System O) ops)
    (hrun : run step ({} : System O) ops = some sys) : Installed sys := by
  have hinv := guarded_run_invariant (I := fun sys : System O => Laid sys ∧ AllCoherent sys)
    (fun s op t hs hop hstep => ⟨hs.1.step hop hstep, hs.2.step op hstep⟩)
    ⟨laid_of_none rfl, fun _ hnone => by cases hnone⟩ hops hrun
  exact ⟨hinv.1.groups_eq, pairwise_statesApart hinv.1.apart,
    fun st hst => wellHeld_of_coherent (hinv.2.oldStates hst)⟩

end Steps

attribute [local instance] asciiStr

/-- A key goes down in the group that was just installed. -/
def pressInGroup : List (RolloverOp ℕ) :=
  [.replaceGroups plainEnv mixedGroups noDevices, .memberEvent plainEnv (keyOn "up") 0 7 "up" 1 1]

theorem installed_run_press :
    ∃ sys, run step {} pressInGroup = some sys ∧ layout sys = mixedGroups ∧ Installed sys :=
  have hapart : mixedGroups.Pairwise Apart := by decide
  have hdisjoint : Guarded step (fun _ op => DisjointGroups op) {} pressInGroup :=
    ⟨hapart, trivial, trivial⟩
  ⟨_, rfl, by decide, installed_run hdisjoint rfl⟩

end Keymasq.Rollover.Layout
