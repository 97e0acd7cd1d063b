import Keymasq.Masking.Records

/-!
# Recovery drops no record too early

The steps of a recovery, up to the last one that drops the record of the permissions,
and the runs of takeovers and recoveries: every change has its record throughout.
-/

namespace Keymasq.Masking.Undo
open Foundation Transition
open LizardMode (Mode)
open Takeover Records

variable {B : Type} {hardware : Hardware B}

/-! ## The steps of a recovery -/

section Undo

variable {s t : System B} {r : Recovery} {left : List B} {b : B} {j : Journal B}

/-- After an error the drivers are left to the next recovery. -/
theorem undoing_error (h : Undoing hardware s r left) (left' : List B) :
    Undoing hardware s { r with repairError := true } left' := by
  refine ⟨h.bare, h.journal, h.port, ?_, h.missing, h.connection⟩
  intro _ herror
  cases herror

theorem undoing_tail (h : Undoing hardware s r (b :: left)) (hb : b ∉ s.unbound) :
    Undoing hardware s r left := by
  refine ⟨h.bare, h.journal, h.port, fun hintact herror ha b' hb' => ?_, h.missing, h.connection⟩
  obtain rfl | hrest := List.mem_cons.mp (h.drivers hintact herror ha b' hb')
  · exact absurd hb' hb
  · exact hrest

theorem undoing_bind [DecidableEq B] (h : Undoing hardware s r (b :: left)) :
    Undoing hardware { s with unbound := s.unbound.erase b } r left := by
  refine ⟨h.bare, h.journal, h.port, fun hintact herror ha b' hb' => ?_, h.missing, h.connection⟩
  obtain ⟨hne, hold⟩ := Finset.mem_erase.mp hb'
  obtain rfl | hrest := List.mem_cons.mp (h.drivers hintact herror ha b' hold)
  · exact absurd rfl hne
  · exact hrest

theorem undoing_unbind [DecidableEq B] (h : Undoing hardware s r (b :: left)) :
    Undoing hardware { s with unbound := insert b s.unbound } r (b :: left) := by
  refine ⟨h.bare, h.journal, h.port, fun hintact herror ha b' hb' => ?_, h.missing, h.connection⟩
  obtain rfl | hold := Finset.mem_insert.mp hb'
  · exact List.mem_cons_self
  · exact h.drivers hintact herror ha b' hold

/-- Rules that go leave what a recovery relies on. -/
theorem undoing_unrule (h : Undoing hardware s r left)
    (ht : t = { s with early := t.early, late := t.late, rulesLoaded := t.rulesLoaded })
    (hforce : inForce t = true → inForce s = true) : Undoing hardware t r left := by
  rw [ht] at hforce ⊢
  refine ⟨h.bare, h.journal, h.port, h.drivers, fun hfound ha => ?_, h.connection⟩
  obtain ⟨hrestricted, hmatch⟩ := h.missing hfound ha
  exact ⟨hrestricted, fun h => hmatch (hforce h)⟩

theorem undone_unrule (h : Undone hardware s r)
    (ht : t = { s with early := t.early, late := t.late, rulesLoaded := t.rulesLoaded })
    (hforce : inForce t = true → inForce s = true) : Undone hardware t r := by
  refine ⟨undoing_unrule h.1 ht hforce, ?_⟩
  rw [ht]
  exact h.2

theorem recorded_unrule (hr : Recorded s)
    (ht : t = { s with early := t.early, late := t.late, rulesLoaded := t.rulesLoaded })
    (hforce : inForce t = true → inForce s = true) : Recorded t := by
  rw [ht] at hforce ⊢
  exact ⟨fun h => hr.rules (hforce h), hr.access, hr.drivers, hr.port, hr.mode⟩

theorem consistent_unrule (hc : Consistent hardware s)
    (ht : t = { s with early := t.early, late := t.late, rulesLoaded := t.rulesLoaded }) :
    Consistent hardware t := by
  rw [ht]
  exact ⟨hc.recordedMode, hc.absent, hc.named, hc.saved, hc.restrictedBy⟩

theorem inForce_dropEarly (h : inForce { s with early := false } = true) : inForce s = true := by
  simp only [inForce, Bool.false_or, Bool.or_eq_true] at h ⊢
  tauto

theorem inForce_dropLate (h : inForce { s with late := false } = true) : inForce s = true := by
  simp only [inForce, Bool.or_false, Bool.or_eq_true] at h ⊢
  tauto

theorem foundNothing_intact (h : foundNothing r = true) :
    intact r = true ∧ r.found = none ∧ r.keepRules = false := by
  simp only [foundNothing, Bool.and_eq_true, Option.isNone_iff_eq_none, Bool.not_eq_true'] at h
  exact ⟨h.1.1, h.1.2, h.2⟩

theorem undoing_found (hc : Consistent hardware s) (hj : s.journal.isSome = true)
    (hintact : intact r = true) (hport : s.portDisabled = false) {error : Bool}
    (hdrivers : error = false → s.attached = true → ∀ b ∈ s.unbound, b ∈ left) :
    Undoing hardware s { r with found := some s.generation, repairError := error } left where
  bare := by
    intro hbare
    have hjournaled : r.journaled = false := hbare
    rw [intact, hjournaled, Bool.and_false] at hintact
    cases hintact
  journal := fun _ => hj
  port := fun _ => hport
  drivers := fun _ herror => hdrivers herror
  missing := by
    intro hnothing
    have hfound : some s.generation = none := (foundNothing_intact hnothing).2.1
    cases hfound
  connection := by
    intro g hg
    have heq : s.generation = g := Option.some.inj hg
    refine ⟨Nat.le_of_eq heq.symm, fun m hm => ?_⟩
    obtain ⟨m', hm', hle⟩ := hc.named m hm
    have hsaved := hc.saved m' hm'
    omega

/-- Interfaces that are unbound are those of the connection the journal is about. -/
theorem bound_of_otherGeneration (hr : Recorded s) (hj : s.journal = some j)
    (hgeneration : j.generation ≠ some s.generation) (ha : s.attached = true) (hb : b ∈ s.unbound) :
    b ∈ left := by
  obtain ⟨j', hj', hgen, -⟩ := hr.drivers ha b hb
  rw [hj] at hj'
  cases hj'
  exact absurd hgen hgeneration

/-- The end of a recovery: the journal goes only where all it describes is undone. -/
theorem sound_afterAccess (hr : Recorded s) (hc : Consistent hardware s)
    (hundone : Undone hardware s r) (hjournaled : r.damaged = false → r.journaled = true)
    (hrules : intact r = true → r.keepRules = false → Unmasked s) :
    Sound hardware (afterAccess s r) := by
  unfold afterAccess
  split
  · exact sound_finish hr hc
  · next hend =>
    rw [Bool.not_eq_true, Bool.or_eq_false_iff] at hend
    obtain ⟨hdamaged, herror⟩ := hend
    have hintact : intact r = true := by
      rw [intact, hdamaged, hjournaled hdamaged]
      rfl
    refine sound_goOn hr hc ⟨hundone.1.port hintact, fun ha => ?_, hundone.2 hintact herror,
      hrules hintact⟩
    rw [Finset.eq_empty_iff_forall_notMem]
    intro b hb
    exact List.not_mem_nil (hundone.1.drivers hintact herror ha b hb)

/-- The journal goes when no driver, port or mode needs it. -/
theorem recorded_dropJournal (hr : Recorded s) (hport : s.portDisabled = false)
    (hdrivers : s.attached = true → s.unbound = ∅) (hmode : s.mode = s.originalMode)
    (haccess : s.attached = true → s.restricted = true →
      s.armedRecord = true ∨ s.permissions = true) : Recorded { s with journal := none } := by
  refine ⟨hr.rules, fun ha h => .inr (haccess ha h), fun ha b hb => ?_, fun h => ?_,
    fun h => absurd hmode h⟩
  · rw [show s.unbound = ∅ from hdrivers ha] at hb
    simp at hb
  · rw [show s.portDisabled = true from h] at hport
    cases hport

/-- A recovery of rules alone starts where there is nothing else to undo. -/
theorem undone_start (hintact : intact r = false) (hfound : r.found = none)
    (hbare : r.journaled = false → s.armedRecord = false) : Undone hardware s r := by
  have habsurd {P : Prop} (h : intact r = true) : P := by
    rw [hintact] at h
    cases h
  refine ⟨⟨hbare, habsurd, habsurd, habsurd, fun h => habsurd (foundNothing_intact h).1,
    fun g hg => ?_⟩, habsurd⟩
  rw [hfound] at hg
  cases hg

theorem sound_modeRestored (hr : Recorded s) (hc : Consistent hardware s)
    (hintact : intact r = true) (hundone : Undone hardware s r) :
    Sound hardware (if r.keepRules then afterAccess s r else goOn s (.removingEarly r)) := by
  split
  · next hkeep =>
    refine sound_afterAccess hr hc hundone ?_ ?_
    · intro _
      exact (Bool.and_eq_true_iff.mp hintact).2
    · intro _ hkeep'
      rw [hkeep] at hkeep'
      cases hkeep'
  · exact sound_goOn hr hc hundone

variable [DecidableEq B]

theorem undoing_notFound (hj : s.journal = some j) (hintact : intact r = true)
    (hport : s.portDisabled = false) (hfinds : finds hardware s j = false)
    (hguard : abandons hardware s r = false) :
    Undoing hardware s { r with found := none } [] := by
  have hrest (ha : s.attached = true) : s.unbound = ∅ ∧
      (r.keepRules = false → s.restricted = false ∧
        (inForce s = true → ruleMatches hardware s = false)) := by
    simp only [abandons, ha, hj, Option.any_some, hfinds, Bool.not_false, Bool.true_and,
      Bool.or_eq_false_iff, decide_eq_false_iff_not, not_not, Bool.and_eq_false_iff,
      Bool.not_eq_false'] at hguard
    refine ⟨hguard.1, fun hkeep => ?_⟩
    obtain hkeep' | ⟨hrestricted, hrules⟩ := hguard.2
    · rw [hkeep] at hkeep'
      cases hkeep'
    · refine ⟨hrestricted, fun hforce => ?_⟩
      obtain hnone | hmatch := hrules
      · rw [hforce] at hnone
        cases hnone
      · exact hmatch
  refine ⟨fun hbare => ?_, fun _ => ?_, fun _ => hport, fun _ _ ha b hb => ?_,
    fun hnothing ha => ?_, fun g hg => ?_⟩
  · have hjournaled : r.journaled = false := hbare
    rw [intact, hjournaled, Bool.and_false] at hintact
    cases hintact
  · rw [hj]
    rfl
  · rw [(hrest ha).1] at hb
    simp at hb
  · exact (hrest ha).2 (foundNothing_intact hnothing).2.2
  · cases hg

theorem sound_resolve (hr : Recorded s) (hc : Consistent hardware s) (hj : s.journal = some j)
    (hintact : intact r = true) (hport : s.portDisabled = false)
    (hguard : abandons hardware s r = false) : Sound hardware (resolve hardware s r j) := by
  have hsome : s.journal.isSome = true := by
    rw [hj]
    rfl
  unfold resolve
  split
  · refine sound_goOn hr hc ⟨hintact, undoing_found hc hsome hintact hport ?_⟩
    intro _ ha b hb
    obtain ⟨j', hj', -, hmem⟩ := hr.drivers ha b hb
    rw [hj] at hj'
    cases hj'
    exact hmem
  · next hnot =>
    split
    · next hlive =>
      have hother : j.generation ≠ some s.generation := fun h => hnot ⟨hlive.1, h⟩
      have hdrivers (left : List B) (error : Bool) : error = false → s.attached = true →
          ∀ b ∈ s.unbound, b ∈ left :=
        fun _ ha b hb => bound_of_otherGeneration hr hj hother ha hb
      split
      · split
        · exact sound_goOn hr hc ⟨hintact, undoing_found hc hsome hintact hport (hdrivers _ _)⟩
        · exact sound_goOn hr hc ⟨hintact, undoing_found hc hsome hintact hport (hdrivers _ _)⟩
      · exact sound_goOn hr hc ⟨hintact, undoing_found hc hsome hintact hport (hdrivers _ _)⟩
    · next husb =>
      refine sound_goOn hr hc ⟨hintact, undoing_notFound hj hintact hport ?_ hguard⟩
      rw [finds, Bool.and_eq_false_iff]
      cases hlisted : listed hardware s with
      | false => exact .inl rfl
      | true =>
        right
        simp only [Bool.or_eq_false_iff, decide_eq_false_iff_not]
        refine ⟨fun h => hnot ⟨hlisted, h⟩, ?_⟩
        rw [Bool.eq_false_iff]
        exact fun h => husb ⟨hlisted, h⟩

theorem sound_repair (hr : Recorded s) (hc : Consistent hardware s) (hintact : intact r = true)
    {rest : List B} (h : Undoing hardware s r (b :: rest)) (hguard : unbindsUnlisted s r b = false)
    (meets : Meets) :
    Sound hardware (repair hardware s r b rest meets) := by
  unfold repair
  split
  · exact sound_goOn hr hc ⟨hintact, undoing_error h rest⟩
  · next hlive =>
    split
    · exact sound_goOn hr hc ⟨hintact, h⟩
    · next hb =>
      split
      · exact sound_goOn hr hc ⟨hintact, undoing_tail h hb⟩
      · next hmode =>
        simp only [Bool.or_eq_true, Bool.not_eq_true', not_or, Bool.not_eq_false,
          Bool.and_eq_true, decide_eq_true_eq] at hlive
        obtain ⟨-, hlisted, hfound⟩ := hlive
        obtain ⟨j, hj⟩ := Option.isSome_iff_exists.mp (h.journal hintact)
        have hmode' : j.mode.isSome = true := by
          rw [hj, Option.bind_some, Option.isNone_iff_eq_none] at hmode
          exact Option.isSome_iff_ne_none.mpr hmode
        -- The guard says that the journal lists what is unbound here.
        have hlists : j.generation = some s.generation ∧ b ∈ j.bindings := by
          simpa [unbindsUnlisted, hfound, hb, hj, hmode'] using hguard
        exact sound_goOn (recorded_unbind hr hj hlists.1 hlists.2)
          (consistent_unbind hc (attached_of_listed hlisted)) ⟨hintact, undoing_unbind h⟩

theorem sound_restoreMode (hr : Recorded s) (hc : Consistent hardware s) (hintact : intact r = true)
    (h : Undoing hardware s r []) (meets : Meets) :
    Sound hardware (advance hardware s meets (.restoringMode r)) := by
  simp only [advance]
  cases hrecord : s.journal.bind Journal.mode with
  | none =>
    -- A mode that is not recorded has not been changed.
    refine sound_modeRestored hr hc hintact ⟨h, fun _ _ => ?_⟩
    by_contra hne
    obtain ⟨j, hj, hmode⟩ := hr.mode hne
    rw [hj, Option.bind_some, hmode] at hrecord
    cases hrecord
  | some m =>
    obtain ⟨j, hj, hmode⟩ := Option.bind_eq_some_iff.mp hrecord
    have horiginal := hc.recordedMode j m hj hmode
    simp only
    split
    · have hundone : Undone hardware s { r with repairError := true } := by
        refine ⟨undoing_error h [], fun _ herror => ?_⟩
        cases herror
      have hintact' : intact { r with repairError := true } = true := hintact
      exact sound_modeRestored hr hc hintact' hundone
    · refine sound_modeRestored ⟨hr.rules, hr.access, hr.drivers, hr.port, fun hne => ?_⟩
        ⟨hc.recordedMode, hc.absent, hc.named, hc.saved, hc.restrictedBy⟩ hintact
        ⟨⟨h.bare, h.journal, h.port, h.drivers, h.missing, h.connection⟩, fun _ _ => horiginal⟩
      exact absurd horiginal hne

theorem sound_removeRecord (hr : Recorded s) (hc : Consistent hardware s)
    (h : Undone hardware s r) (hunruled : Unruled s) (hdamaged : r.damaged = false)
    (meets : Meets) :
    Sound hardware (advance hardware s meets (.removingRecord r)) := by
  have hnone := (unruled_iff s).mp hunruled
  have hrules : inForce s = true → (false : Bool) = true := by
    intro hforce
    rw [hnone] at hforce
    cases hforce
  simp only [advance]
  cases hjournaled : r.journaled with
  | true =>
    have hintact : intact r = true := by
      rw [intact, hdamaged, hjournaled]
      rfl
    have hundone : Undone hardware { s with armedRecord := false } r :=
      ⟨⟨fun _ => rfl, h.1.journal, h.1.port, h.1.drivers, h.1.missing, h.1.connection⟩, h.2⟩
    exact sound_goOn ⟨hrules, fun _ _ => .inl (h.1.journal hintact), hr.drivers, hr.port, hr.mode⟩
      ⟨hc.recordedMode, hc.absent, hc.named, hc.saved, hc.restrictedBy⟩
      ⟨hundone, hunruled, fun _ => hjournaled⟩
  | false =>
    have harmed := h.1.bare hjournaled
    refine sound_finish ⟨hrules, fun ha hrestricted => ?_, hr.drivers, hr.port, hr.mode⟩
      ⟨hc.recordedMode, hc.absent, hc.named, hc.saved, hc.restrictedBy⟩
    obtain hold | hrecord | hold := hr.access ha hrestricted
    · exact .inl hold
    · rw [harmed] at hrecord
      cases hrecord
    · exact .inr (.inr hold)

/-- Nodes that a recovery does not reach are not restricted. -/
theorem unrestricted_of_unreached (hc : Consistent hardware s) (h : Undoing hardware s r left)
    (hintact : intact r = true) (hkeep : r.keepRules = false)
    (hreach : reaches hardware s r = false) (ha : s.attached = true) : s.restricted = false := by
  have hdamaged : r.damaged = false := by
    simpa using (Bool.and_eq_true_iff.mp hintact).1
  cases hfound : r.found with
  | none =>
    refine (h.missing ?_ ha).1
    rw [foundNothing, hintact, hfound, hkeep]
    rfl
  | some g =>
    simp only [reaches, hdamaged, Bool.false_eq_true, if_false, hfound, Option.any_some,
      Bool.or_eq_false_iff, decide_eq_false_iff_not] at hreach
    obtain ⟨husb, hne⟩ := hreach
    rw [Bool.eq_false_iff]
    intro hrestricted
    have hmatch := hc.restrictedBy ha hrestricted
    simp only [ruleMatches, husb, Bool.false_or, decide_eq_true_eq] at hmatch
    obtain ⟨hle, hrule⟩ := h.connection g hfound
    have hbound := hrule _ hmatch
    omega

theorem sound_restoreAccess (hr : Recorded s) (hc : Consistent hardware s)
    (h : Undone hardware s r) (hunruled : Unruled s)
    (hjournaled : r.damaged = false → r.journaled = true) (meets : Meets) :
    Sound hardware (advance hardware s meets (.restoringAccess r)) := by
  simp only [advance]
  cases hreach : reaches hardware s r with
  | true =>
    refine sound_afterAccess ⟨hr.rules, ?_, hr.drivers, hr.port, hr.mode⟩
      ⟨hc.recordedMode, hc.absent, hc.named, hc.saved, ?_⟩
      ⟨⟨h.1.bare, h.1.journal, h.1.port, h.1.drivers, ?_, h.1.connection⟩, h.2⟩ hjournaled
      fun _ _ => ⟨hunruled, fun _ => rfl⟩
    · intro _ hrestricted
      cases hrestricted
    · intro _ hrestricted
      cases hrestricted
    · intro hnothing ha
      exact ⟨rfl, (h.1.missing hnothing ha).2⟩
  | false =>
    refine sound_afterAccess hr hc h hjournaled fun hintact hkeep => ⟨hunruled, fun ha => ?_⟩
    exact unrestricted_of_unreached hc h.1 hintact hkeep hreach ha

theorem sound_dropJournal (hr : Recorded s) (hc : Consistent hardware s)
    (h : Grounded hardware s (.droppingJournal r)) (hguard : (r.keepRules && lastRecord s) = false)
    (meets : Meets) : Sound hardware (advance hardware s meets (.droppingJournal r)) := by
  obtain ⟨hport, hdrivers, hmode, hrules⟩ := h
  have hc' : Consistent hardware { s with journal := none } := by
    refine ⟨?_, hc.absent, hc.named, hc.saved, hc.restrictedBy⟩
    intro j m hj
    cases hj
  simp only [advance]
  cases hkeep : r.keepRules with
  | true =>
    refine sound_finish (recorded_dropJournal hr hport hdrivers hmode fun ha hrestricted => ?_) hc'
    simpa [hkeep, lastRecord, ha, hrestricted, or_iff_not_imp_left] using hguard
  | false =>
    have hunmasked := hrules hkeep
    refine sound_goOn (recorded_dropJournal hr hport hdrivers hmode fun ha hrestricted => ?_) hc'
      hunmasked
    rw [hunmasked.2 ha] at hrestricted
    cases hrestricted

theorem sound_dropPermissions (hr : Recorded s) (hc : Consistent hardware s) (h : Unmasked s)
    (meets : Meets) : Sound hardware (advance hardware s meets .droppingPermissions) := by
  refine sound_finish ⟨hr.rules, fun ha hrestricted => ?_, hr.drivers, hr.port, hr.mode⟩
    ⟨hc.recordedMode, hc.absent, hc.named, hc.saved, hc.restrictedBy⟩
  rw [show s.restricted = false from h.2 ha] at hrestricted
  cases hrestricted

end Undo

/-! ## What drops a record -/

section Drops

@[simp] theorem goOn_permissions (s : System B) (phase : Phase B) :
    (goOn s phase).system.permissions = s.permissions := rfl

@[simp] theorem finish_permissions (s : System B) :
    (finish s).system.permissions = s.permissions := rfl

@[simp] theorem udevEvent_permissions (s : System B) :
    (udevEvent hardware s).permissions = s.permissions := by
  rw [udevEvent_eq]

@[simp] theorem updateJournal_permissions (s : System B) (f : Journal B → Journal B) :
    (updateJournal s f).permissions = s.permissions := rfl

@[simp] theorem afterRebinds_permissions (s : System B) (bindings : List B) :
    (afterRebinds hardware s bindings).system.permissions = s.permissions := by
  cases bindings <;> rfl

@[simp] theorem beginRecovery_permissions (s : System B) (r : Recovery) (meets : Meets) :
    (beginRecovery s r meets).system.permissions = s.permissions := by
  unfold beginRecovery
  repeat' split
  all_goals rfl

@[simp] theorem afterRules_permissions (s : System B) (r : Recovery) :
    (afterRules s r).system.permissions = s.permissions := by
  unfold afterRules
  split <;> rfl

@[simp] theorem afterAccess_permissions (s : System B) (r : Recovery) :
    (afterAccess s r).system.permissions = s.permissions := by
  unfold afterAccess
  split <;> rfl

variable [DecidableEq B]

@[simp] theorem snapshot_permissions (s : System B) (meets : Meets) :
    (snapshot hardware s meets).system.permissions = s.permissions := by
  unfold snapshot installRules
  split
  · rfl
  · split <;> rfl

@[simp] theorem resolve_permissions (s : System B) (r : Recovery) (j : Journal B) :
    (resolve hardware s r j).system.permissions = s.permissions := by
  unfold resolve
  repeat' split
  all_goals rfl

@[simp] theorem repair_permissions (s : System B) (r : Recovery) (b : B) (rest : List B)
    (meets : Meets) : (repair hardware s r b rest meets).system.permissions = s.permissions := by
  unfold repair
  repeat' split
  all_goals rfl

/-- A job that goes on keeps the permissions record until its last step drops it. -/
theorem advance_permissions {s : System B} {phase : Phase B} (meets : Meets)
    (h : s.permissions = true) (hphase : phase ≠ .droppingPermissions) :
    (advance hardware s meets phase).system.permissions = true := by
  cases phase with
  | droppingPermissions => exact absurd rfl hphase
  | rebinding bindings =>
    cases bindings with
    | nil => exact h
    | cons b rest =>
      simp only [advance]
      repeat' split
      all_goals exact h
  | repairing r bindings =>
    cases bindings with
    | nil => exact h
    | cons b rest => exact (repair_permissions s r b rest meets).trans h
  | binding b bindings => exact (afterRebinds_permissions _ _).trans h
  | unloading r => exact (afterRules_permissions _ r).trans h
  | recovering r => exact (beginRecovery_permissions s r meets).trans h
  | snapshotting =>
    simp only [advance]
    split
    · exact (snapshot_permissions _ meets).trans h
    · exact h
  | choosing =>
    simp only [advance]
    repeat' split
    all_goals simp [h]
  | resolving r =>
    simp only [advance]
    split
    · exact h
    · exact (resolve_permissions s r _).trans h
  | _ =>
    simp only [advance]
    repeat' split
    all_goals simp [h, disconnect]

theorem permissions_dropped {s t : State B} {a : Step} (hstep : step hardware s a = some t)
    (hsome : s.system.permissions = true) (hnone : t.system.permissions = false) :
    s.job = some .droppingPermissions ∧ t.system = { s.system with permissions := false } := by
  have hkept (h : t.system.permissions = s.system.permissions) : False := by
    rw [h, hsome] at hnone
    cases hnone
  cases a with
  | begin kind =>
    refine (hkept ?_).elim
    simp only [step] at hstep
    split at hstep
    · cases hstep
      cases kind with
      | arm =>
        simp only [begin]
        split <;> rfl
      | activate => rfl
      | refresh =>
        simp only [begin]
        split <;> rfl
      | recover keepRules => rfl
    · cases hstep
  | advance meets =>
    obtain ⟨phase, hjob, rfl⟩ := Option.map_eq_some_iff.mp hstep
    by_cases hphase : phase = .droppingPermissions
    · subst hphase
      exact ⟨hjob, rfl⟩
    · rw [advance_permissions meets hsome hphase] at hnone
      cases hnone
  | fail =>
    obtain ⟨phase, -, rfl⟩ := Option.map_eq_some_iff.mp hstep
    exact (hkept rfl).elim
  | unplug
  | appear =>
    obtain ⟨-, ht⟩ := Option.ite_none_right_eq_some.mp hstep
    cases ht
    exact (hkept rfl).elim
  | udevReload =>
    cases hstep
    exact (hkept rfl).elim
  | udevEvent =>
    cases hstep
    exact (hkept (udevEvent_permissions s.system)).elim

end Drops

/-! ## Steps and runs -/

section Runs

variable {s : System B}

theorem sound_beginRecovery (hr : Recorded s) (hc : Consistent hardware s) {r : Recovery}
    (hintact : intact r = true) (hfound : r.found = none) (meets : Meets) :
    Sound hardware (beginRecovery s r meets) := by
  have hjournaled : r.journaled = true := (Bool.and_eq_true_iff.mp hintact).2
  unfold beginRecovery
  split
  · refine sound_goOn hr hc (undone_start rfl hfound fun h => ?_)
    have hnot : r.journaled = false := h
    rw [hjournaled] at hnot
    cases hnot
  · split
    · exact sound_goOn hr hc hintact
    · next hnone =>
      split
      · exact sound_finish hr hc
      · split
        · next hbare =>
          refine sound_goOn hr hc (undone_start (Bool.and_false _) hfound fun _ => ?_)
          exact Bool.eq_false_iff.mpr hbare.1
        · refine sound_goOn (recorded_newJournal hr hnone _) (consistent_newJournal hc _ ?_) hintact
          intro m hm
          cases hm

/-- What is not on record any more is not in force any more. -/
theorem recorded_undone (hr : Recorded s) (hnone : s.journal = none) :
    s.portDisabled = false ∧ s.mode = s.originalMode ∧ (s.attached = true → s.unbound = ∅) := by
  refine ⟨?_, original_of_noJournal hr hnone, fun ha => ?_⟩
  · rw [Bool.eq_false_iff]
    intro hdisabled
    obtain ⟨j, hj, -⟩ := hr.port hdisabled
    rw [hnone] at hj
    cases hj
  · rw [Finset.eq_empty_iff_forall_notMem]
    intro b hb
    obtain ⟨j, hj, -⟩ := hr.drivers ha b hb
    rw [hnone] at hj
    cases hj

/-- The attachment before any takeover, connected or not. -/
def initial (attached : Bool) (mode : Mode) : State B :=
  { system := { attached := attached, mode := mode, originalMode := mode } }

theorem sound_initial (attached : Bool) (mode : Mode) :
    Sound hardware (initial attached mode : State B) where
  recorded := by
    refine ⟨?_, ?_, ?_, ?_, ?_⟩
    · intro h
      cases h
    · intro _ h
      cases h
    · intro _ b hb
      simp [initial] at hb
    · intro h
      cases h
    · intro h
      exact absurd rfl h
  consistent := by
    refine ⟨?_, fun _ => rfl, ?_, ?_, ?_⟩
    · intro j m h
      cases h
    · intro g h
      cases h
    · intro m h
      cases h
    · intro _ h
      cases h
  grounded := by
    intro phase h
    cases h

variable [DecidableEq B]

theorem sound_enablePort (hr : Recorded s) (hc : Consistent hardware s) {r : Recovery}
    (hintact : intact r = true) (meets : Meets) :
    Sound hardware (advance hardware s meets (.enablingPort r)) := by
  simp only [advance]
  split
  · exact sound_goOn (recorded_enable hr)
      ⟨hc.recordedMode, hc.absent, hc.named, hc.saved, hc.restrictedBy⟩ ⟨hintact, rfl⟩
  · next hnot =>
    refine sound_goOn hr hc ⟨hintact, ?_⟩
    rw [Bool.eq_false_iff]
    intro hdisabled
    obtain ⟨j, hj, hport⟩ := hr.port hdisabled
    rw [hj, Option.bind_some] at hnot
    exact hnot hport

/-- A step of a job that loses no record. -/
theorem sound_advance (hr : Recorded s) (hc : Consistent hardware s) {phase : Phase B}
    (hg : Grounded hardware s phase) (hguard : goesOn hardware s phase = true) (meets : Meets) :
    Sound hardware (advance hardware s meets phase) := by
  have hsame (t : System B) (ht : t.journal = s.journal ∧ t.originalMode = s.originalMode ∧
      t.attached = s.attached ∧ t.unbound = s.unbound ∧ t.ruleGeneration = s.ruleGeneration ∧
      t.selector = s.selector ∧ t.generation = s.generation ∧ t.restricted = s.restricted) :
      Consistent hardware t := by
    obtain ⟨h₁, h₂, h₃, h₄, h₅, h₆, h₇, h₈⟩ := ht
    refine ⟨?_, ?_, ?_, ?_, ?_⟩
    · rw [h₁, h₂]
      exact hc.recordedMode
    · rw [h₃, h₄]
      exact hc.absent
    · rw [h₅, h₆]
      exact hc.named
    · rw [h₆, h₇]
      exact hc.saved
    · rw [ruleMatches, h₃, h₅, h₇, h₈]
      exact hc.restrictedBy
  cases phase with
  | capturing activates =>
    simp only [advance]
    split
    · exact sound_goOn (recorded_permissions hr true fun _ => rfl) (hsame _ (by simp)) trivial
    · exact sound_goOn hr hc trivial
  | arming activates => exact sound_goOn (recorded_arm hr) (hsame _ (by simp)) rfl
  | writingLate activates =>
    exact sound_goOn ⟨fun _ => hg, hr.access, hr.drivers, hr.port, hr.mode⟩
      (consistent_writeLate hc) hg
  | writingEarly activates =>
    exact sound_goOn ⟨fun _ => hg, hr.access, hr.drivers, hr.port, hr.mode⟩
      (hsame _ (by simp)) trivial
  | reloading activates =>
    simp only [advance]
    split
    · exact sound_goOn (recorded_reload hr) (consistent_reload hc) trivial
    · exact sound_finish (recorded_reload hr) (consistent_reload hc)
  | snapshotting =>
    simp only [advance]
    split
    · exact sound_snapshot (recorded_select hr) (consistent_select hc) hg meets
    · exact sound_finish hr hc
  | triggering => exact sound_goOn (recorded_udevEvent hr) (consistent_udevEvent hc) trivial
  | choosing => exact sound_choose hr hc meets
  | rebinding bindings => exact sound_rebind hr hc hg meets
  | binding b bindings =>
    exact sound_afterRebinds (recorded_bind hr b) (consistent_bind hc b) hg
  | recordingPort =>
    refine sound_goOn (recorded_updateJournal hr (fun _ => rfl) (fun _ => rfl) (fun _ => rfl)
      fun _ _ _ => rfl) (consistent_updateJournal hc fun _ => rfl) ?_
    intro j hj
    obtain ⟨j', -, rfl⟩ := Option.map_eq_some_iff.mp hj
    rfl
  | disabling => exact sound_disable hr hc hg meets
  | enabling continues => exact sound_goOn (recorded_enable hr) (hsame _ (by simp)) rfl
  | enabled continues =>
    have hport : s.portDisabled = true → ∀ j : Journal B, j.usbPort = some true →
        (j.usbPort.map fun _ => false) = some true := by
      intro h
      rw [show s.portDisabled = false from hg] at h
      cases h
    have hr' := recorded_updateJournal (f := fun j => { j with
      usbPort := j.usbPort.map fun _ => false }) hr (fun _ => rfl) (fun _ => rfl) (fun _ => rfl)
      hport
    simp only [advance]
    split
    · exact sound_goOn hr' (consistent_updateJournal hc fun _ => rfl) trivial
    · exact sound_finish hr' (consistent_updateJournal hc fun _ => rfl)
  | awaitingDevice => exact sound_await hr hc meets
  | readingMode => exact sound_readMode hr hc meets
  | writingMode =>
    exact sound_goOn ⟨hr.rules, hr.access, hr.drivers, hr.port, fun _ => hg⟩
      (hsame _ (by simp)) trivial
  | verifying
  | refreshing => exact sound_finish (recorded_udevEvent hr) (consistent_udevEvent hc)
  | recovering r => exact sound_beginRecovery hr hc hg.1 hg.2 meets
  | enablingPort r => exact sound_enablePort hr hc hg meets
  | portEnabled r =>
    refine sound_goOn (recorded_updateJournal hr (fun _ => rfl) (fun _ => rfl) (fun _ => rfl) ?_)
      (consistent_updateJournal hc fun _ => rfl) hg
    intro h
    rw [hg.2] at h
    cases h
  | resolving r =>
    simp only [advance]
    split
    · exact sound_finish hr hc
    · next j hj => exact sound_resolve hr hc hj hg.1 hg.2 (by simpa [goesOn] using hguard)
  | repairing r bindings =>
    cases bindings with
    | nil => exact sound_goOn hr hc hg
    | cons b rest => exact sound_repair hr hc hg.1 hg.2 (by simpa [goesOn] using hguard) meets
  | bindingBack r b bindings =>
    simp only [advance]
    split
    · exact sound_goOn hr hc ⟨hg.1, undoing_error hg.2 bindings⟩
    · exact sound_goOn (recorded_bind hr b) (consistent_bind hc b) ⟨hg.1, undoing_bind hg.2⟩
  | restoringMode r => exact sound_restoreMode hr hc hg.1 hg.2 meets
  | removingEarly r =>
    exact sound_goOn (recorded_unrule hr rfl inForce_dropEarly) (consistent_unrule hc rfl)
      ⟨undone_unrule hg rfl inForce_dropEarly, rfl⟩
  | removingLate r =>
    exact sound_goOn (recorded_unrule hr rfl inForce_dropLate) (consistent_unrule hc rfl)
      ⟨undone_unrule hg.1 rfl inForce_dropLate, hg.2, rfl⟩
  | unloading r =>
    have hundone := undone_unrule (t := { s with rulesLoaded := s.early || s.late }) hg.1 rfl
      (inForce_reload s)
    have hunruled : Unruled { s with rulesLoaded := s.early || s.late } :=
      ⟨hg.2.1, hg.2.2, by rw [hg.2.1, hg.2.2]; rfl⟩
    simp only [advance, afterRules]
    split
    · next hdamaged =>
      refine sound_goOn (recorded_reload hr) (consistent_reload hc) ⟨hundone, hunruled, ?_⟩
      intro h
      rw [hdamaged] at h
      cases h
    · next hdamaged =>
      exact sound_goOn (recorded_reload hr) (consistent_reload hc)
        ⟨hundone, hunruled, Bool.eq_false_iff.mpr hdamaged⟩
  | removingRecord r => exact sound_removeRecord hr hc hg.1 hg.2.1 hg.2.2 meets
  | restoringAccess r => exact sound_restoreAccess hr hc hg.1 hg.2.1 hg.2.2 meets
  | droppingJournal r => exact sound_dropJournal hr hc hg (Bool.not_eq_true' _ ▸ hguard) meets
  | droppingPermissions => exact sound_dropPermissions hr hc hg meets

/-- Every step that loses no record keeps the records. -/
theorem sound_step {s t : State B} {a : Step} (h : Sound hardware s)
    (hguard : Admitted hardware s a) (hstep : step hardware s a = some t) : Sound hardware t := by
  have hr := h.recorded
  have hc := h.consistent
  cases a with
  | begin kind =>
    simp only [step] at hstep
    split at hstep
    · cases hstep
      cases kind with
      | arm =>
        simp only [begin]
        split
        · exact sound_goOn hr hc trivial
        · exact sound_finish hr hc
      | activate => exact sound_goOn hr hc hguard
      | refresh =>
        simp only [begin]
        split
        · exact sound_goOn hr hc trivial
        · exact sound_finish hr hc
      | recover keepRules => exact sound_goOn hr hc ⟨rfl, rfl⟩
    · cases hstep
  | advance meets =>
    obtain ⟨phase, hjob, rfl⟩ := Option.map_eq_some_iff.mp hstep
    have hgoesOn : goesOn hardware s.system phase = true := by
      simpa [Admitted, hjob] using hguard
    exact sound_advance hr hc (h.grounded phase hjob) hgoesOn meets
  | fail =>
    obtain ⟨phase, -, rfl⟩ := Option.map_eq_some_iff.mp hstep
    exact sound_finish hr hc
  | unplug =>
    obtain ⟨-, ht⟩ := Option.ite_none_right_eq_some.mp hstep
    cases ht
    refine ⟨recorded_disconnect hr, consistent_disconnect hc, fun phase hjob => ?_⟩
    refine (drift_disconnect s.system).grounded (fun _ _ _ ha => ?_) (h.grounded phase hjob)
    cases ha
  | appear =>
    obtain ⟨-, ht⟩ := Option.ite_none_right_eq_some.mp hstep
    cases ht
    refine ⟨recorded_appear hr, consistent_appear hc, fun phase hjob => ?_⟩
    refine (drift_appear s.system).grounded (fun hmisses hforce _ => ?_) (h.grounded phase hjob)
    have hjob' : s.job = some phase := hjob
    refine missing_appear hc ?_
    simpa [Admitted, hjob', hforce, hmisses] using hguard
  | udevReload =>
    cases hstep
    refine ⟨recorded_reload hr, consistent_reload hc, fun phase hjob => ?_⟩
    exact (drift_reload s.system).grounded (fun _ _ hmissing => missing_reload hmissing)
      (h.grounded phase hjob)
  | udevEvent =>
    cases hstep
    refine ⟨recorded_udevEvent hr, consistent_udevEvent hc, fun phase hjob => ?_⟩
    exact (drift_udevEvent s.system).grounded (fun _ _ hmissing => missing_udevEvent hmissing)
      (h.grounded phase hjob)

theorem dropsUndone_step {s t : State B} {a : Step} (h : Sound hardware s)
    (hguard : Admitted hardware s a) (hstep : step hardware s a = some t) :
    DropsUndone s.system t.system := by
  have hr := (sound_step h hguard hstep).recorded
  refine ⟨fun _ hnone => recorded_undone hr hnone, fun _ hnone => ?_, fun hsome hnone ha => ?_⟩
  · rw [Bool.eq_false_iff]
    intro hforce
    rw [hr.rules hforce] at hnone
    cases hnone
  · obtain ⟨hjob, ht⟩ := permissions_dropped hstep hsome hnone
    have hunmasked : Unmasked s.system := h.grounded _ hjob
    rw [ht] at ha ⊢
    exact hunmasked.2 ha

/-- Whatever is changed has its record in every state of a run that loses none, and a
step drops no record of what is still to be undone. -/
theorem records_outlive_changes (hardware : Hardware B) (attached : Bool) (mode : Mode)
    (as : List Step) (s : State B)
    (hguard : Guarded (step hardware) (Admitted hardware) (initial attached mode) as)
    (hrun : run (step hardware) (initial attached mode) as = some s) :
    Recorded s.system ∧ ∀ a t, Admitted hardware s a → step hardware s a = some t →
      DropsUndone s.system t.system := by
  have hsound : Sound hardware s :=
    guarded_run_invariant (fun _ _ _ h ha hstep => sound_step h ha hstep)
      (sound_initial attached mode) hguard hrun
  exact ⟨hsound.recorded, fun a t ha hstep => dropsUndone_step hsound ha hstep⟩

end Runs

/- A USB gamepad with one interface of a vendor class, which the inventory lists by
its input only, and a controller whose one interface is a HID. -/
def gamepad : Hardware Nat :=
  { usb := true, isDeck := false, hidListed := false, interfaces := [0]
    hidInterface := fun _ => false }

def controller : Hardware Nat :=
  { usb := true, isDeck := false, hidListed := true, interfaces := [0]
    hidInterface := fun _ => true }

def takeover : List Step := .begin .activate :: List.replicate 9 (.advance {})

def fullRecovery (steps : Nat) : List Step :=
  .begin (.recover false) :: List.replicate steps (.advance {})

theorem controller_records :
    Recorded ((run (step controller) (initial true .y)
      (takeover ++ .fail :: fullRecovery 14)).get (by decide)).system :=
  (records_outlive_changes controller true .y (takeover ++ .fail :: fullRecovery 14) _
    (by decide) (Option.some_get _).symm).1

/-- The takeover ends between unbind and bind, and the recovery does not find the gamepad. -/
theorem gamepad_loses_records :
    ∃ s, run (step gamepad) (initial true .y) (takeover ++ .fail :: fullRecovery 12) = some s ∧
      s.job = none ∧ s.system.attached = true ∧ 0 ∈ s.system.unbound ∧
      s.system.restricted = true ∧ s.system.journal = none ∧ s.system.armedRecord = false ∧
      s.system.permissions = false ∧ ¬ Recorded s.system := by
  have hfinal : (run (step gamepad) (initial true .y)
      (takeover ++ .fail :: fullRecovery 12)).any (fun s => s.job = none ∧
        s.system.attached = true ∧ 0 ∈ s.system.unbound ∧ s.system.restricted = true ∧
        s.system.journal = none ∧ s.system.armedRecord = false ∧
        s.system.permissions = false) = true := by
    decide
  obtain ⟨s, hs, hstate⟩ := (Option.any_eq_true _ _).mp hfinal
  obtain ⟨hjob, ha, hb, hrestricted, hjournal, harmed, hpermissions⟩ := of_decide_eq_true hstate
  refine ⟨s, hs, hjob, ha, hb, hrestricted, hjournal, harmed, hpermissions, fun hr => ?_⟩
  obtain ⟨j, hj, -⟩ := hr.drivers ha 0 hb
  rw [hjournal] at hj
  cases hj

end Keymasq.Masking.Undo
