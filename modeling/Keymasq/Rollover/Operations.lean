import Keymasq.Foundation.Transition
import Keymasq.Rollover.Replacement

/-!
# Runs of rollover operations

Every group is settled after every operation: distinct held members in press
order, exactly the chosen one pressed, and a further settle does nothing.
-/

namespace Keymasq.Rollover.Operations
open Foundation Foundation.Sorting Foundation.Transition
open Groups Settle Replacement Keymasq.Combo.Names Keymasq.Profile.Model

variable {O : Type*} {st : GroupState O}

/-! ## Operations on one group -/

theorem Orderly.remove (h : Orderly st) (m : RolloverMember) : Orderly (st.remove m) := by
  have hsub : (st.remove m).held.Sublist st.held := List.filter_sublist
  refine ⟨h.nodup.sublist (hsub.map _), h.sorted.sublist hsub, ?_, fun x hx => ?_⟩
  · intro m' hm'
    obtain ⟨hne, hlost⟩ := Finset.mem_erase.mp hm'
    obtain ⟨x, hx, rfl⟩ := h.lost_held m' hlost
    exact ⟨x, List.mem_filter.mpr ⟨hx, by simpa using hne⟩, rfl⟩
  · exact h.mem_group x (hsub.subset hx)

theorem remove_member_none (st : GroupState O) (m : RolloverMember) :
    (st.remove m).member m = none := by
  rw [member_eq_none]
  intro x hx
  simpa using (List.mem_filter.mp hx).2

theorem Orderly.insort (h : Orderly st) {x : HeldMember O} (hnew : st.member x.member = none)
    (hmem : x.member ∈ st.group.members) :
    Orderly (st.insort x) := by
  have hperm := insortBy_perm (fun h : HeldMember O => h.pressSeq) x st.held
  refine ⟨?_, insortBy_pairwise h.sorted, ?_, ?_⟩
  · have hnd : ((x :: st.held).map (·.member)).Nodup := by
      rw [List.map_cons, List.nodup_cons]
      refine ⟨fun hin => ?_, h.nodup⟩
      obtain ⟨y, hy, hyx⟩ := List.mem_map.mp hin
      exact member_eq_none.mp hnew y hy hyx
    exact (hperm.map _).nodup_iff.mpr hnd
  · intro m hm
    obtain ⟨y, hy, hym⟩ := h.lost_held m hm
    exact ⟨y, hperm.mem_iff.mpr (List.mem_cons_of_mem _ hy), hym⟩
  · intro y hy
    rcases List.mem_cons.mp (hperm.mem_iff.mp hy) with rfl | hy
    · exact hmem
    · exact h.mem_group y hy

/-- Changing a held member's marks keeps the group orderly. -/
theorem Orderly.updateMember (h : Orderly st) (m : RolloverMember) {f : HeldMember O → HeldMember O}
    (hmember : ∀ x, (f x).member = x.member) (hseq : ∀ x, (f x).pressSeq = x.pressSeq) :
    Orderly (updateMember st m f) := by
  have hname : ∀ x : HeldMember O, (if x.member = m then f x else x).member = x.member := by
    intro x
    split
    · exact hmember x
    · rfl
  have horder : ∀ x : HeldMember O, (if x.member = m then f x else x).pressSeq = x.pressSeq := by
    intro x
    split
    · exact hseq x
    · rfl
  refine ⟨?_, ?_, ?_, ?_⟩
  · simpa only [Groups.updateMember, List.map_map, Function.comp_def, hname] using h.nodup
  · simpa only [Groups.updateMember, List.pairwise_map, horder] using h.sorted
  · intro m' hm'
    obtain ⟨x, hx, hxm⟩ := h.lost_held m' hm'
    exact ⟨_, List.mem_map_of_mem hx, (hname x).trans hxm⟩
  · intro y hy
    obtain ⟨x, hx, rfl⟩ := List.mem_map.mp hy
    rw [hname]
    exact h.mem_group x hx

section Steps
variable [DecidableEq O]

theorem coherent_applyMemberEvent (h : Coherent st) (env : SettleEnv O) {member : RolloverMember}
    (hmem : member ∈ st.group.members) (runtime : ℕ) (eventCode : ℤ) (eventName : String)
    (value : ℤ) (pressSeq : ℕ) :
    Coherent (applyMemberEvent env st member runtime eventCode eventName value pressSeq) := by
  unfold applyMemberEvent
  simp only
  split
  · exact h
  · split
    · split
      · rename_i x hx
        split
        · exact h
        · have hname := ((member_eq_some h.nodup).mp hx).2
          apply settle_coherent
          refine Orderly.insort (Orderly.remove h.toOrderly member) ?_ ?_
          · rw [hname]
            exact remove_member_none st member
          · rw [hname]
            exact hmem
      · rename_i hnone
        exact settle_coherent env (Orderly.insort h.toOrderly hnone hmem) none
    · split
      · exact h
      · exact settle_coherent env (Orderly.remove h.toOrderly member) _

theorem coherent_runConsumedRelease (h : Coherent st) (env : SettleEnv O)
    (member : RolloverMember) : Coherent (runConsumedRelease env st member) := by
  unfold runConsumedRelease
  split
  · exact h
  · exact settle_coherent env (Orderly.remove h.toOrderly member) _

theorem coherent_recallMember (h : Coherent st) (env : SettleEnv O) (member : RolloverMember) :
    Coherent (recallMember env st member) := by
  unfold recallMember
  split
  · exact h
  · apply settle_coherent
    exact Orderly.updateMember h.toOrderly member (fun _ => rfl) fun _ => rfl

theorem coherent_restoreMember (h : Coherent st) (env : SettleEnv O) (member : RolloverMember) :
    Coherent (restoreMember env st member) := by
  unfold restoreMember
  split
  · exact h
  · split
    · exact h
    · apply settle_coherent
      exact Orderly.updateMember h.toOrderly member (fun _ => rfl) fun _ => rfl

omit [DecidableEq O] in
/-- A member that stays is not among the removed ones, as members are distinct. -/
theorem not_mem_heldOn (hnd : (st.held.map (·.member)).Nodup) {runtime : ℕ} {x : HeldMember O}
    (hx : x ∈ (withoutRuntime st runtime).held) :
    x.member ∉ (heldOn st runtime).map (·.member) := by
  intro hin
  obtain ⟨y, hy, hname⟩ := List.mem_map.mp hin
  obtain ⟨hyheld, hyrt⟩ := List.mem_filter.mp hy
  obtain ⟨hxheld, hxrt⟩ := List.mem_filter.mp hx
  have heq := List.inj_on_of_nodup_map hnd hyheld hxheld hname
  rw [heq] at hyrt
  simp only [decide_eq_true_eq] at hyrt hxrt
  exact hxrt hyrt

omit [DecidableEq O] in
theorem Orderly.withoutRuntime (h : Orderly st) (runtime : ℕ) :
    Orderly (withoutRuntime st runtime) := by
  have hsub : (Groups.withoutRuntime st runtime).held.Sublist st.held := List.filter_sublist
  refine ⟨h.nodup.sublist (hsub.map _), h.sorted.sublist hsub, ?_,
    fun x hx => h.mem_group x (hsub.subset hx)⟩
  intro m hm
  obtain ⟨hlost, hnot⟩ := Finset.mem_sdiff.mp hm
  obtain ⟨x, hx, rfl⟩ := h.lost_held m hlost
  refine ⟨x, List.mem_filter.mpr ⟨hx, ?_⟩, rfl⟩
  simp only [decide_eq_true_eq]
  intro hrt
  have hon : x ∈ heldOn st runtime := List.mem_filter.mpr ⟨hx, by simpa using hrt⟩
  exact hnot (List.mem_toFinset.mpr (List.mem_map_of_mem hon))

omit [DecidableEq O] in
/-- For a member that stays, the active pointer means the same before and after. -/
theorem active_withoutRuntime (hnd : (st.held.map (·.member)).Nodup) {runtime : ℕ}
    {x : HeldMember O} (hx : x ∈ (withoutRuntime st runtime).held) :
    (withoutRuntime st runtime).active = some x.member ↔ st.active = some x.member := by
  by_cases hgone : ((heldOn st runtime).any fun y => decide (some y.member = st.active)) = true
  · obtain ⟨y, hy, hname⟩ := List.any_eq_true.mp hgone
    have hname' : some y.member = st.active := by simpa using hname
    have hnone : (withoutRuntime st runtime).active = none := if_pos hgone
    rw [hnone, ← hname']
    constructor
    · intro hfalse
      cases hfalse
    · intro heq
      exact absurd (List.mem_map.mpr ⟨y, hy, Option.some.inj heq⟩) (not_mem_heldOn hnd hx)
  · have hkeep : (withoutRuntime st runtime).active = st.active := if_neg hgone
    rw [hkeep]

/- A device goes away. Where no settle is requested the rest of the group is
settled as it is: the members that stay keep their marks, and the active one,
if it stays, is still the one the rule picks. -/
theorem coherent_forgetAndSettle (h : Coherent st) (env : SettleEnv O) (runtime : ℕ) :
    Coherent (forgetAndSettle env runtime st) := by
  have hsub : (withoutRuntime st runtime).held.Sublist st.held := List.filter_sublist
  have horderly := Orderly.withoutRuntime h.toOrderly runtime
  unfold forgetAndSettle forgetGroupRuntime
  simp only
  by_cases hremoved : heldOn st runtime = []
  · simp only [if_pos hremoved]
    exact h
  · simp only [if_neg hremoved]
    split
    · exact settle_coherent env horderly none
    · rename_i hsame
      have hactive : (withoutRuntime st runtime).nextActive.map (·.member) =
          (withoutRuntime st runtime).active := by simpa using hsame
      refine { horderly with active_chosen := ?_, pressed_iff := ?_, losers_lost := ?_ }
      · rw [← hactive, nextActive_name]
      · intro x hx
        rw [active_withoutRuntime h.nodup hx]
        exact h.pressed_iff x (hsub.subset hx)
      · intro hrestore x hx hne
        rw [ne_eq, active_withoutRuntime h.nodup hx] at hne
        refine Finset.mem_sdiff.mpr ⟨h.losers_lost hrestore x (hsub.subset hx) hne, ?_⟩
        rw [List.mem_toFinset]
        exact not_mem_heldOn h.nodup hx

omit [DecidableEq O] in
theorem mem_onGroupOf {member : RolloverMember} {f : GroupState O → GroupState O}
    {states : List (GroupState O)} {st' : GroupState O} (h : st' ∈ onGroupOf member f states) :
    st' ∈ states ∨ ∃ st ∈ states, member ∈ st.group.members ∧ st' = f st := by
  induction states with
  | nil => cases h
  | cons st states ih =>
    unfold onGroupOf at h
    split at h
    · rename_i hmem
      rcases List.mem_cons.mp h with rfl | h
      · exact Or.inr ⟨st, List.mem_cons_self, hmem, rfl⟩
      · exact Or.inl (List.mem_cons_of_mem _ h)
    · rcases List.mem_cons.mp h with rfl | h
      · exact Or.inl List.mem_cons_self
      · rcases ih h with h | ⟨st'', hst'', hrest⟩
        · exact Or.inl (List.mem_cons_of_mem _ h)
        · exact Or.inr ⟨st'', List.mem_cons_of_mem _ hst'', hrest⟩

omit [DecidableEq O] in
/-- A kept state follows its group, whose rule is the same. -/
theorem Coherent.rename (h : Coherent st) {group : RolloverGroup}
    (hsame : sameBehavior st.group group = true) : Coherent { st with group := group } := by
  simp only [sameBehavior, decide_eq_true_eq] at hsame
  obtain ⟨hmembers, hwinner, hrestore⟩ := hsame
  refine ⟨⟨h.nodup, h.sorted, h.lost_held, fun x hx => hmembers ▸ h.mem_group x hx⟩, ?_,
    h.pressed_iff, fun hr => h.losers_lost (hrestore.trans hr)⟩
  have hchosen := h.active_chosen
  have hpriority : priorityOf st.group = priorityOf group := by
    funext m
    simp only [priorityOf, hmembers]
  simp only [chooseActive, hwinner, hrestore, hpriority] at hchosen
  exact hchosen

omit [DecidableEq O] in
/-- A group that holds nothing is settled. -/
theorem coherent_of_empty (h : Orderly st) (hgathered : Gathered st) (hempty : st.held = []) :
    Coherent st := by
  refine { h with active_chosen := ?_, pressed_iff := by simp [hempty],
                  losers_lost := by simp [hempty] }
  have hactive : st.active = none := by
    cases hsome : st.active with
    | none => rfl
    | some m =>
      obtain ⟨x, hx, -⟩ := hgathered.active_held m hsome
      rw [hempty] at hx
      cases hx
  have hcompeting : st.competing = [] := by simp [GroupState.competing, hempty]
  rw [hactive, hcompeting]
  unfold chooseActive
  cases st.group.winner <;> simp [minByKey]

def AllCoherent (sys : System O) : Prop :=
  ∀ rollover, sys.rollover = some rollover → ∀ st ∈ rollover.states, Coherent st

omit [DecidableEq O] in
theorem AllCoherent.onGroup (sys : System O) (h : AllCoherent sys) {member : RolloverMember}
    {f : GroupState O → GroupState O}
    (hf : ∀ st, Coherent st → member ∈ st.group.members → Coherent (f st)) :
    AllCoherent (sys.onGroup member f) := by
  intro rollover' hrollover' st' hst'
  obtain ⟨rollover, hrollover, rfl⟩ := Option.map_eq_some_iff.mp hrollover'
  rcases mem_onGroupOf hst' with hst' | ⟨st, hst, hmem, rfl⟩
  · exact h rollover hrollover st' hst'
  · exact hf st (h rollover hrollover st hst) hmem

omit [DecidableEq O] in
theorem AllCoherent.oldStates {sys : System O} (h : AllCoherent sys) (hst : st ∈ oldStates sys) :
    Coherent st := by
  unfold Groups.oldStates at hst
  split at hst
  · cases hst
  · rename_i rollover hrollover
    exact h rollover hrollover st hst

theorem AllCoherent.replace [PyStr] {sys : System O} (h : AllCoherent sys) (env : SettleEnv O)
    (groups : List RolloverGroup) (devices : Devices O) :
    AllCoherent (replaceRolloverGroups (fun st => (settle env st none).1) sys groups devices) := by
  unfold replaceRolloverGroups
  split
  · exact h
  · split
    · exact fun _ hnone => by cases hnone
    · intro rollover hrollover st hst
      cases hrollover
      obtain ⟨p, hp, rfl⟩ := List.mem_map.mp hst
      rcases mem_adoptSlots hp with ⟨kept, hkept, rfl⟩ | ⟨group, -, q, hstate, hflag⟩
      · obtain ⟨old, hold, group, -, hsame, rfl⟩ := matchStates_kept hkept
        exact Coherent.rename (h.oldStates hold) hsame
      · obtain ⟨horderly, hgathered⟩ := adoptHeldKeys_orderly devices
          (slotState_gathered (matchStates groups (Groups.oldStates sys)).2 group) q
        rw [← hstate] at horderly hgathered
        rw [hflag]
        split
        · exact settle_coherent env horderly none
        · rename_i hempty
          exact coherent_of_empty horderly hgathered (by simpa using hempty)

theorem AllCoherent.step [PyStr] {sys sys' : System O} (h : AllCoherent sys) (op : RolloverOp O)
    (hstep : step sys op = some sys') : AllCoherent sys' := by
  cases op with
  | memberEvent env member runtime eventCode eventName value pressSeq =>
    cases hstep
    split
    · split
      · exact h
      · split
        · exact h
        · exact AllCoherent.onGroup { sys with quarantined := _ } h fun st hst hmem =>
            coherent_applyMemberEvent hst env hmem runtime eventCode eventName value pressSeq
    · exact h.onGroup _ fun st hst hmem =>
        coherent_applyMemberEvent hst env hmem runtime eventCode eventName value pressSeq
  | consumedRelease env member runtime eventName =>
    cases hstep
    exact AllCoherent.onGroup { sys with quarantined := _ } h fun st hst _ =>
      coherent_runConsumedRelease hst env member
  | «recall» env member =>
    cases hstep
    exact h.onGroup _ fun st hst _ => coherent_recallMember hst env member
  | restore env member =>
    cases hstep
    exact h.onGroup _ fun st hst _ => coherent_restoreMember hst env member
  | forgetRuntime env runtime =>
    cases hstep
    intro rollover' hrollover' st' hst'
    obtain ⟨rollover, hrollover, rfl⟩ := Option.map_eq_some_iff.mp hrollover'
    obtain ⟨st, hst, rfl⟩ := List.mem_map.mp hst'
    exact coherent_forgetAndSettle (h rollover hrollover st hst) env runtime
  | replaceGroups env groups devices =>
    cases hstep
    exact h.replace env groups devices

/-- What holds of every group once it is settled. -/
structure Settled (st : GroupState O) : Prop extends Coherent st where
  one_pressed : ∀ h ∈ st.held, ∀ h' ∈ st.held, h.pressed = true → h'.pressed = true → h = h'
  stable : ∀ env, settle env st none = (st, [])

theorem settled_of_coherent (h : Coherent st) : Settled st := by
  refine { h with one_pressed := ?_, stable := fun env => settle_again env h }
  intro x hx y hy hpx hpy
  have hname : some x.member = some y.member :=
    ((h.pressed_iff x hx).mp hpx).symm.trans ((h.pressed_iff y hy).mp hpy)
  exact List.inj_on_of_nodup_map h.nodup hx hy (Option.some.inj hname)

/-- After any operations, each followed by its settles, every group is settled. -/
theorem groups_settled [PyStr] (ops : List (RolloverOp O)) :
    ∃ sys, run step ({} : System O) ops = some sys ∧
      ∀ rollover, sys.rollover = some rollover → ∀ st ∈ rollover.states, Settled st := by
  have hgen : ∀ (ops : List (RolloverOp O)) (sys : System O), AllCoherent sys →
      ∃ sys', run step sys ops = some sys' ∧ AllCoherent sys' := by
    intro ops
    induction ops with
    | nil => exact fun sys h => ⟨sys, rfl, h⟩
    | cons op ops ih =>
      intro sys h
      have htotal : ∃ sys', step sys op = some sys' := by
        cases op <;> exact ⟨_, rfl⟩
      obtain ⟨sys', hstep⟩ := htotal
      obtain ⟨sys'', hrun, hcoherent⟩ := ih sys' (h.step op hstep)
      exact ⟨sys'', run_cons_eq_some.mpr ⟨sys', hstep, hrun⟩, hcoherent⟩
  obtain ⟨sys, hrun, hcoherent⟩ := hgen ops {} fun _ hnone => by cases hnone
  exact ⟨sys, hrun, fun rollover hrollover st hst =>
    settled_of_coherent (hcoherent rollover hrollover st hst)⟩

end Steps

end Keymasq.Rollover.Operations
