import Keymasq.Rollover.Operations

/-!
# Recalled members

A combo recalls held members of a group and restores them later; each of both asks for a
settle, which runs then or after the next one. Members that come back find the group as it
was, unless the group has no restore and was settled without its active member.
-/

namespace Keymasq.Rollover.Recalls
open Foundation Foundation.Sorting Foundation.Transition
open Groups Settle Operations Keymasq.Combo.Names Keymasq.Profile.Model

section Recalled
variable {O : Type*}

/- The steps of a combo between two member events. -/
inductive RecallStep (O : Type*)
  | memberRecalled (member : RolloverMember)
  | memberRestored (member : RolloverMember)
  | settled (env : SettleEnv O)

/-- `recall_rollover_member` without the settle. -/
def recallHeld (st : GroupState O) (member : RolloverMember) : GroupState O :=
  updateMember st member fun h => { h with recalled := true, pressed := false }

/-- `restore_rollover_member` without the settle. -/
def restoreHeld (st : GroupState O) (member : RolloverMember) : GroupState O :=
  updateMember st member fun h => { h with recalled := false }

/-- The combo has recalled the member and not restored it yet. -/
def isRecalled (member : RolloverMember) (recalled : Bool) : RecallStep O → Bool
  | .memberRecalled m => if m = member then true else recalled
  | .memberRestored m => if m = member then false else recalled
  | .settled _ => recalled

def recalledAfter (member : RolloverMember) (steps : List (RecallStep O)) : Bool :=
  steps.foldl (isRecalled member) false

/-- The group is settled while the member is recalled. -/
def SettledWithout (member : RolloverMember) (steps : List (RecallStep O)) : Prop :=
  ∃ before env after, steps = before ++ .settled env :: after ∧ recalledAfter member before = true

section Steps
variable [DecidableEq O]

def recallStep (st : GroupState O) : RecallStep O → GroupState O
  | .memberRecalled member => recallHeld st member
  | .memberRestored member => restoreHeld st member
  | .settled env => (settle env st none).1

def recallRun (st : GroupState O) (steps : List (RecallStep O)) : GroupState O :=
  steps.foldl recallStep st

end Steps

/-! ## Who is recalled -/

def flags (st : GroupState O) : List (RolloverMember × Bool) :=
  st.held.map fun h => (h.member, h.recalled)

theorem competing_eq_flags (st : GroupState O) :
    st.competing = ((flags st).filter fun p => !p.2).map Prod.fst := by
  unfold GroupState.competing flags
  rw [List.filter_map, List.map_map]
  rfl

theorem flags_recallHeld (st : GroupState O) (member : RolloverMember) :
    flags (recallHeld st member) =
      (flags st).map fun p => (p.1, if p.1 = member then true else p.2) := by
  simp only [flags, recallHeld, updateMember, List.map_map]
  refine List.map_congr_left fun h _ => ?_
  simp only [Function.comp_apply]
  split
  · rfl
  · rfl

theorem flags_restoreHeld (st : GroupState O) (member : RolloverMember) :
    flags (restoreHeld st member) =
      (flags st).map fun p => (p.1, if p.1 = member then false else p.2) := by
  simp only [flags, restoreHeld, updateMember, List.map_map]
  refine List.map_congr_left fun h _ => ?_
  simp only [Function.comp_apply]
  split
  · rfl
  · rfl

theorem recalledAfter_append (member : RolloverMember) (steps : List (RecallStep O))
    (step : RecallStep O) : recalledAfter member (steps ++ [step]) =
      isRecalled member (recalledAfter member steps) step := by
  unfold recalledAfter
  rw [List.foldl_append]
  rfl

theorem settledWithout_append (member : RolloverMember) (steps : List (RecallStep O))
    (step : RecallStep O) : SettledWithout member (steps ++ [step]) ↔
      SettledWithout member steps ∨
        ∃ env, step = .settled env ∧ recalledAfter member steps = true := by
  constructor
  · rintro ⟨before, env, after, heq, hrecalled⟩
    obtain rfl | ⟨after', last, rfl⟩ := List.eq_nil_or_concat after
    · obtain ⟨rfl, hstep⟩ := List.append_inj' heq rfl
      exact .inr ⟨env, List.head_eq_of_cons_eq hstep, hrecalled⟩
    · rw [List.concat_eq_append, ← List.cons_append, ← List.append_assoc] at heq
      obtain ⟨rfl, -⟩ := List.append_inj' heq rfl
      exact .inl ⟨before, env, after', rfl, hrecalled⟩
  · rintro (⟨before, env, after, rfl, hrecalled⟩ | ⟨env, rfl, hrecalled⟩)
    · exact ⟨before, env, after ++ [step], by rw [List.append_assoc]; rfl, hrecalled⟩
    · exact ⟨steps, env, [], rfl, hrecalled⟩

section Run
variable [DecidableEq O]

theorem flags_settle (env : SettleEnv O) (st : GroupState O) (departed : Option (HeldMember O)) :
    flags (settle env st departed).1 = flags st := by
  rw [settle_state]
  simp only [flags, List.map_map]
  refine List.map_congr_left fun h _ => ?_
  have hframe := settleHeld_frame env st departed h
  simp only [Function.comp_apply, hframe.1, hframe.2.2]

/-- What holds of the group after some steps of the combo. -/
structure Along (st : GroupState O) (steps : List (RecallStep O)) (t : GroupState O) : Prop where
  orderly : Orderly t
  group : t.group = st.group
  flags : flags t = st.held.map fun h => (h.member, h.recalled || recalledAfter h.member steps)

/-- The combo leaves members alone that are recalled already. -/
def LeavesRecalled (st : GroupState O) (steps : List (RecallStep O)) : Prop :=
  ∀ h ∈ st.held, h.recalled = true →
    .memberRecalled h.member ∉ steps ∧ .memberRestored h.member ∉ steps

variable {st t : GroupState O} {steps : List (RecallStep O)} {m : RolloverMember}

theorem along_append {step : RecallStep O} (h : Along st steps t)
    (hleaves : LeavesRecalled st (steps ++ [step])) :
    Along st (steps ++ [step]) (recallStep t step) := by
  have hname (x : HeldMember O) : (x.member, x.recalled || recalledAfter x.member (steps ++ [step])) =
      (x.member, x.recalled || isRecalled x.member (recalledAfter x.member steps) step) := by
    rw [recalledAfter_append]
  cases step with
  | memberRecalled member =>
    refine ⟨Orderly.updateMember h.orderly member (fun _ => rfl) (fun _ => rfl), h.group, ?_⟩
    change Recalls.flags (recallHeld t member) = _
    rw [flags_recallHeld, h.flags, List.map_map]
    refine List.map_congr_left fun x _ => ?_
    rw [hname]
    by_cases hx : x.member = member
    · simp [isRecalled, hx]
    · simp [isRecalled, hx, Ne.symm hx]
  | memberRestored member =>
    refine ⟨Orderly.updateMember h.orderly member (fun _ => rfl) (fun _ => rfl), h.group, ?_⟩
    change Recalls.flags (restoreHeld t member) = _
    rw [flags_restoreHeld, h.flags, List.map_map]
    refine List.map_congr_left fun x hmem => ?_
    rw [hname]
    by_cases hx : x.member = member
    · have hfree : x.recalled = false := by
        by_contra hrecalled
        rw [Bool.not_eq_false] at hrecalled
        refine (hleaves x hmem hrecalled).2 ?_
        rw [hx]
        exact List.mem_append_right _ (List.mem_singleton_self _)
      simp [isRecalled, hx, hfree]
    · simp [isRecalled, hx, Ne.symm hx]
  | settled env =>
    refine ⟨(settle_coherent env h.orderly none).toOrderly, ?_, ?_⟩
    · change (settle env t none).1.group = st.group
      rw [settle_state]
      exact (markLosers_frame t _).1.trans h.group
    · change Recalls.flags (settle env t none).1 = _
      rw [flags_settle, h.flags]
      exact List.map_congr_left fun x _ => (hname x).symm

theorem along_run (hst : Orderly st) (steps : List (RecallStep O))
    (hleaves : LeavesRecalled st steps) : Along st steps (recallRun st steps) := by
  induction steps using List.reverseRecOn with
  | nil =>
    refine ⟨hst, rfl, ?_⟩
    simp [recallRun, Recalls.flags, recalledAfter]
  | append_singleton steps step ih =>
    have hbefore : LeavesRecalled st steps := fun x hx hrecalled =>
      ⟨fun hin => (hleaves x hx hrecalled).1 (List.mem_append_left _ hin),
        fun hin => (hleaves x hx hrecalled).2 (List.mem_append_left _ hin)⟩
    have hstep := along_append (ih hbefore) hleaves
    unfold recallRun at hstep ⊢
    rwa [List.foldl_append]

omit [DecidableEq O] in
theorem Along.members (h : Along st steps t) : t.held.map (·.member) = st.held.map (·.member) := by
  have hmap := congrArg (List.map Prod.fst) h.flags
  simp only [Recalls.flags, List.map_map] at hmap
  exact hmap

omit [DecidableEq O] in
theorem mem_competing_iff : m ∈ st.competing ↔ (m, false) ∈ flags st := by
  rw [competing_eq_flags]
  simp only [List.mem_map, List.mem_filter, Prod.exists, exists_and_right, exists_eq_right,
    Bool.not_eq_true']

omit [DecidableEq O] in
/-- Who competes competed before, and is not recalled. -/
theorem Along.mem_competing (h : Along st steps t) :
    m ∈ t.competing ↔ m ∈ st.competing ∧ recalledAfter m steps = false := by
  rw [mem_competing_iff, mem_competing_iff, h.flags]
  simp only [Recalls.flags, List.mem_map, Prod.mk.injEq, Bool.or_eq_false_iff]
  constructor
  · rintro ⟨x, hx, rfl, hfree, hafter⟩
    exact ⟨⟨x, hx, rfl, hfree⟩, hafter⟩
  · rintro ⟨⟨x, hx, rfl, hfree⟩, hafter⟩
    exact ⟨x, hx, rfl, hfree, hafter⟩

omit [DecidableEq O] in
/-- Once all are restored, the same members compete. -/
theorem Along.competing (h : Along st steps t) (hrestored : ∀ m, recalledAfter m steps = false) :
    t.competing = st.competing := by
  rw [competing_eq_flags, competing_eq_flags, h.flags]
  simp only [hrestored, Bool.or_false, Recalls.flags]

/-! ## Who has lost -/

/-- Nobody comes back without a press. -/
theorem lost_run (steps : List (RecallStep O)) (hlost : m ∈ st.lost) :
    m ∈ (recallRun st steps).lost := by
  induction steps using List.reverseRecOn with
  | nil => exact hlost
  | append_singleton steps step ih =>
    unfold recallRun at ih ⊢
    rw [List.foldl_append]
    cases step with
    | memberRecalled member => exact ih
    | memberRestored member => exact ih
    | settled env =>
      change m ∈ (settle env _ none).1.lost
      rw [settle_state]
      exact (mem_markLosers _ _ _).mpr (.inl ih)

omit [DecidableEq O] in
/-- With restore nobody loses. -/
theorem chooseActive_of_restore {group : RolloverGroup} (hrestore : group.restore = true)
    (held : List RolloverMember) (lost lost' : Finset RolloverMember) :
    chooseActive group held lost = chooseActive group held lost' := by
  unfold chooseActive
  simp only [hrestore, if_true, true_or]

omit [DecidableEq O] in
/-- The only candidate is chosen. -/
theorem chooseActive_only {group : RolloverGroup} {held : List RolloverMember}
    {lost : Finset RolloverMember} {a : RolloverMember} (hrestore : group.restore = false)
    (hmem : a ∈ held) (hnot : a ∉ lost) (hothers : ∀ m ∈ held, m ≠ a → m ∈ lost)
    (halone : group.winner = .neutral → held = [a]) : chooseActive group held lost = some a := by
  by_cases hwinner : group.winner = .neutral
  · unfold chooseActive
    rw [hwinner, halone hwinner]
    simp [hnot]
  · obtain ⟨hchosen, hnone⟩ := chooseActive_of_ne_neutral held lost hwinner
    have ha : a ∈ candidates group held lost := by
      simp [candidates, hrestore, hmem, hnot]
    cases hc : chooseActive group held lost with
    | none =>
      rw [hnone hc] at ha
      cases ha
    | some m =>
      obtain ⟨hin, hkept⟩ := mem_candidates (hchosen m hc)
      by_contra hne
      exact hkept hrestore (hothers m hin fun heq => hne (by rw [heq]))

/- Without restore: all but the active member have lost before, and the active one loses
when the group is settled without it. -/
structure Losing (st : GroupState O) (a : RolloverMember) (steps : List (RecallStep O))
    (t : GroupState O) : Prop where
  others : ∀ h ∈ st.held, h.member ≠ a → h.member ∈ t.lost
  active : a ∈ t.lost ↔ SettledWithout a steps

theorem losing_append {a : RolloverMember} (step : RecallStep O) (hst : Coherent st)
    (hrestore : st.group.restore = false) (hactive : st.active = some a) (halong : Along st steps t)
    (h : Losing st a steps t) :
    Losing st a (steps ++ [step]) (recallStep t step) := by
  have hsame (hnot : ∀ env, step ≠ .settled env) :
      SettledWithout a (steps ++ [step]) ↔ SettledWithout a steps := by
    rw [settledWithout_append]
    refine or_iff_left ?_
    rintro ⟨env, heq, -⟩
    exact hnot env heq
  cases step with
  | memberRecalled member
  | memberRestored member => exact ⟨h.others, h.active.trans (hsame (by simp)).symm⟩
  | settled env =>
    have hchosen : chooseActive st.group st.competing st.lost = some a := by
      rw [← hst.active_chosen, hactive]
    have hcompeted := (chooseActive_mem hchosen).1
    have hgroup : t.group.restore = false := by rw [halong.group, hrestore]
    obtain ⟨x, hx, hxa⟩ := mem_competing hcompeted
    have hheld : ∃ y ∈ t.held, y.member = a := by
      have hin : a ∈ t.held.map (·.member) := by
        rw [halong.members]
        exact List.mem_map.mpr ⟨x, hx, hxa⟩
      exact List.mem_map.mp hin
    have hlost (m : RolloverMember) : m ∈ (recallStep t (.settled env)).lost ↔ m ∈ t.lost ∨
        (∃ y ∈ t.held, y.member = m ∧ some m ≠ chooseActive t.group t.competing t.lost) := by
      change m ∈ (settle env t none).1.lost ↔ _
      rw [settle_state, mem_markLosers, nextActive_name]
      simp only [hgroup, true_and]
    refine ⟨fun y hy hne => (hlost _).mpr (.inl (h.others y hy hne)), ?_⟩
    rw [hlost, settledWithout_append, h.active]
    refine or_congr_right' fun hnever => ?_
    have hkept : a ∉ t.lost := fun hin => hnever (h.active.mp hin)
    constructor
    · rintro ⟨y, -, -, hne⟩
      refine ⟨env, rfl, ?_⟩
      by_contra hfree
      rw [Bool.not_eq_true] at hfree
      have hcompetes := halong.mem_competing.mpr ⟨hcompeted, hfree⟩
      refine hne (chooseActive_only hgroup hcompetes hkept (fun m hm hma => ?_) fun hwinner => ?_).symm
      · obtain ⟨z, hz, rfl⟩ := mem_competing (halong.mem_competing.mp hm).1
        exact h.others z hz hma
      · rw [halong.group] at hwinner
        have honly := (chooseActive_neutral hwinner hchosen).1
        have hnodup : t.competing.Nodup := halong.orderly.nodup.sublist
          (List.filter_sublist.map _)
        have hall (m : RolloverMember) (hm : m ∈ t.competing) : m = a := by
          have hin := (halong.mem_competing.mp hm).1
          rw [honly] at hin
          exact List.mem_singleton.mp hin
        have hreplicate := List.eq_replicate_of_mem hall
        rw [hreplicate, List.nodup_replicate] at hnodup
        have hlength := List.length_pos_of_mem hcompetes
        rwa [show t.competing.length = 1 by omega] at hreplicate
    · rintro ⟨-, -, hrecalled⟩
      obtain ⟨y, hy, hya⟩ := hheld
      refine ⟨y, hy, hya, fun heq => ?_⟩
      have hin := (chooseActive_mem heq.symm).1
      rw [(halong.mem_competing.mp hin).2] at hrecalled
      cases hrecalled

theorem losing_run {a : RolloverMember} (hst : Coherent st) (hrestore : st.group.restore = false)
    (hactive : st.active = some a) (steps : List (RecallStep O))
    (hleaves : LeavesRecalled st steps) :
    Losing st a steps (recallRun st steps) := by
  induction steps using List.reverseRecOn with
  | nil =>
    have hchosen : chooseActive st.group st.competing st.lost = some a := by
      rw [← hst.active_chosen, hactive]
    refine ⟨fun h hmem hne => hst.losers_lost hrestore h hmem ?_, ?_⟩
    · rw [hactive]
      exact fun heq => hne (Option.some.inj heq).symm
    · refine iff_of_false ((chooseActive_mem hchosen).2 hrestore) ?_
      rintro ⟨before, env, after, heq, -⟩
      exact absurd heq (by simp)
  | append_singleton steps step ih =>
    have hbefore : LeavesRecalled st steps := fun x hx hrecalled =>
      ⟨fun hin => (hleaves x hx hrecalled).1 (List.mem_append_left _ hin),
        fun hin => (hleaves x hx hrecalled).2 (List.mem_append_left _ hin)⟩
    have hstep := losing_append step hst hrestore hactive
      (along_run hst.toOrderly steps hbefore) (ih hbefore)
    unfold recallRun at hstep ⊢
    rwa [List.foldl_append]

/-- The active member after all are restored and the group is settled. -/
theorem active_settled (hst : Coherent st) (hleaves : LeavesRecalled st steps)
    (hrestored : ∀ m, recalledAfter m steps = false) (env : SettleEnv O) :
    (settle env (recallRun st steps) none).1.active = st.active ↔
      (st.group.restore = true ∨ ∀ a, st.active = some a → ¬ SettledWithout a steps) := by
  have halong := along_run hst.toOrderly steps hleaves
  have hactive : (settle env (recallRun st steps) none).1.active =
      chooseActive st.group st.competing (recallRun st steps).lost := by
    rw [settle_state, ← halong.group, ← halong.competing hrestored]
    exact nextActive_name _
  rw [hactive]
  by_cases hrestore : st.group.restore = true
  · refine iff_of_true ?_ (.inl hrestore)
    rw [hst.active_chosen]
    exact chooseActive_of_restore hrestore _ _ _
  · rw [Bool.not_eq_true] at hrestore
    simp only [hrestore, Bool.false_eq_true, false_or]
    cases ha : st.active with
    | none =>
      refine iff_of_true ?_ fun a heq => by cases heq
      -- All held members have lost already.
      cases hc : chooseActive st.group st.competing (recallRun st steps).lost with
      | none => rfl
      | some m =>
        obtain ⟨hin, hkept⟩ := chooseActive_mem hc
        obtain ⟨x, hx, rfl⟩ := mem_competing hin
        have hlost := hst.losers_lost hrestore x hx (by simp [ha])
        exact absurd (lost_run steps hlost) (hkept hrestore)
    | some a =>
      have hlosing := losing_run hst hrestore ha steps hleaves
      have hchosen : chooseActive st.group st.competing st.lost = some a := by
        rw [← hst.active_chosen, ha]
      have hcompeted := (chooseActive_mem hchosen).1
      constructor
      · intro heq a' ha'
        cases ha'
        rw [← hlosing.active]
        exact (chooseActive_mem heq).2 hrestore
      · intro hnever
        refine chooseActive_only hrestore hcompeted (fun hin => hnever a rfl (hlosing.active.mp hin))
          (fun m hm hne => ?_) fun hwinner => (chooseActive_neutral hwinner hchosen).1
        obtain ⟨x, hx, rfl⟩ := mem_competing hm
        exact hlosing.others x hx hne

/-- The member that was pressed is pressed again, and the active member is the same. -/
def ComesBack (st t : GroupState O) : Prop :=
  (∀ h ∈ st.held, h.pressed = true → ∃ h' ∈ t.held, h'.member = h.member ∧ h'.pressed = true) ∧
    t.active = st.active

theorem comesBack_settled (hst : Coherent st) (hleaves : LeavesRecalled st steps)
    (env : SettleEnv O) :
    ComesBack st (settle env (recallRun st steps) none).1 ↔
      (settle env (recallRun st steps) none).1.active = st.active := by
  refine ⟨fun h => h.2, fun hactive => ⟨fun h hmem hpressed => ?_, hactive⟩⟩
  have halong := along_run hst.toOrderly steps hleaves
  have hcoherent := settle_coherent env halong.orderly none
  have hmembers : (settle env (recallRun st steps) none).1.held.map (·.member) =
      st.held.map (·.member) := by
    have hfst := congrArg (List.map Prod.fst) (flags_settle env (recallRun st steps) none)
    simp only [flags, List.map_map] at hfst
    exact hfst.trans halong.members
  have hin : h.member ∈ (settle env (recallRun st steps) none).1.held.map (·.member) := by
    rw [hmembers]
    exact List.mem_map_of_mem hmem
  obtain ⟨h', hmem', hname⟩ := List.mem_map.mp hin
  refine ⟨h', hmem', hname, (hcoherent.pressed_iff h' hmem').mpr ?_⟩
  rw [hactive, (hst.pressed_iff h hmem).mp hpressed, hname]

theorem coherent_of_run [PyStr] {ops : List (RolloverOp O)} {sys : System O}
    (hrun : run step {} ops = some sys) : AllCoherent sys :=
  run_invariant (fun _ op _ h hstep => AllCoherent.step h op hstep) (fun _ hnone => by cases hnone)
    hrun

/-- A combo recalls and restores members of a group of any reachable state, with settles
in between in any order, and all that it recalled is restored. Then the pressed member comes
back if and only if the group restores or was never settled while its active member was
recalled. -/
theorem recall_restore_iff [PyStr] {ops : List (RolloverOp O)} {sys : System O}
    {rollover : RolloverRuntime O} {st : GroupState O} (hrun : run step {} ops = some sys)
    (hrollover : sys.rollover = some rollover) (hst : st ∈ rollover.states)
    (steps : List (RecallStep O)) (hleaves : LeavesRecalled st steps)
    (hrestored : ∀ m, recalledAfter m steps = false) (env : SettleEnv O) :
    ComesBack st (settle env (recallRun st steps) none).1 ↔
      (st.group.restore = true ∨ ∀ a, st.active = some a → ¬ SettledWithout a steps) := by
  have hcoherent := coherent_of_run hrun rollover hrollover st hst
  exact (comesBack_settled hcoherent hleaves env).trans (active_settled hcoherent hleaves hrestored env)

end Run

end Recalled

/-! ## Runs -/

def key (button : String) : RolloverMember := { hardwareId := "pad", button := button }

def strafe (restore : Bool) : RolloverGroup :=
  { name := "strafe", members := [key "a", key "d"], restore := restore }

/-- A group of two members of which the first is held, then the second. -/
def heldOps (restore : Bool) : List (RolloverOp ℕ) :=
  [.replaceGroups plainEnv [strafe restore] noDevices, .memberEvent plainEnv (key "a") 0 30 "a" 1 1,
    .memberEvent plainEnv (key "d") 0 32 "d" 1 2]

/-- The active member is recalled and restored. -/
def recallActive : List (RecallStep ℕ) :=
  [.memberRecalled (key "d"), .settled plainEnv, .memberRestored (key "d")]

/-- With restore the first member takes over and the second one comes back. -/
theorem recall_restore_iff_strafe :
    letI := asciiStr
    ∃ sys rollover st, run step ({} : System ℕ) (heldOps true) = some sys ∧
      sys.rollover = some rollover ∧ st ∈ rollover.states ∧
      (recallRun st (recallActive.take 2)).active = some (key "a") ∧
      ComesBack st (settle plainEnv (recallRun st recallActive) none).1 := by
  let := asciiStr
  have hfacts : (run step ({} : System ℕ) (heldOps true)).any (fun sys =>
      sys.rollover.any fun rollover => rollover.states.any fun st =>
        st.group.restore = true ∧ st.active = some (key "d") ∧ (∀ h ∈ st.held, h.recalled = false) ∧
        (recallRun st (recallActive.take 2)).active = some (key "a")) = true := by
    decide
  obtain ⟨sys, hsys, hfacts⟩ := (Option.any_eq_true _ _).mp hfacts
  obtain ⟨rollover, hrollover, hfacts⟩ := (Option.any_eq_true _ _).mp hfacts
  obtain ⟨st, hst, hfacts⟩ := List.any_eq_true.mp hfacts
  obtain ⟨hrestore, hactive, hfree, htaken⟩ := of_decide_eq_true hfacts
  refine ⟨sys, rollover, st, hsys, hrollover, hst, htaken, ?_⟩
  refine (recall_restore_iff hsys hrollover hst recallActive (fun h hmem hrecalled => ?_)
    (fun m => ?_) plainEnv).mpr (.inl hrestore)
  · rw [hfree h hmem] at hrecalled
    cases hrecalled
  · unfold recalledAfter recallActive
    simp [isRecalled]

/-- Without restore, a member that was alone is recalled and restored and stays out. -/
theorem recalled_member_stays_out :
    letI := asciiStr
    (run step ({} : System ℕ) ((heldOps false).take 2)).any (fun sys =>
      sys.rollover.any fun rollover => rollover.states.any fun st =>
        st.active = some (key "a") ∧ st.held.map (fun h => (h.member, h.pressed, h.recalled)) =
            [(key "a", true, false)] ∧
        (settle plainEnv (recallRun st [.memberRecalled (key "a"), .settled plainEnv,
          .memberRestored (key "a")]) none).1.active = none ∧
        (settle plainEnv (recallRun st [.memberRecalled (key "a"), .settled plainEnv,
          .memberRestored (key "a")]) none).1.held.map (fun h => (h.member, h.pressed, h.recalled)) =
            [(key "a", false, false)]) = true := by
  let := asciiStr
  decide

end Keymasq.Rollover.Recalls
