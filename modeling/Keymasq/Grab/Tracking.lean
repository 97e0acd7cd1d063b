import Keymasq.Grab.Rollback

/-!
# Open handles and the table

Releases keep a device in the table until its handle is closed. An attempt that fails
takes its device out of the table whatever its clean-up did.
-/

namespace Keymasq.Grab.Tracking
open Foundation Transition Transactions Tables Acquisition Rollback


variable {H P C M : Type} [DecidableEq H] [DecidableEq P]

/-- Every handle that is open belongs to a device of the table. -/
def Tracked (s : State H P C M) : Prop := ∀ id ∈ s.handles, ∃ h, ∃ d ∈ devices s h, d.id = id

/-- The clean-up of every attempt, and of every new device that a rollback lets go, gets
to the handle. -/
def ClosesHandles (s : State H P C M) : Step H P C → Prop
  | .grab h plan meets => ∀ plan', plan = some plan' →
      let tried := attempts (transaction s h true plan') meets plan'.requestedPaths
      (∀ p, (p, Interface.gone true) ∉ tried ∧ (p, .fails true) ∉ tried ∧
        (p, .cancelled true) ∉ tried) ∧
      (RollsBack tried → ∀ p, (p, .grabs true) ∈ tried → meets.rollback p ≠ .fails false)
  | _ => True

/-! ## Grabs -/

section Grabs

variable {s s₀ s' : State H P C M} {t : Transaction H P C} {meets : GrabMeets P}
  {new : List (Device P)} {tried : List (P × Interface)}

omit [DecidableEq P] in
theorem tracked_of_subset {u : State H P C M} (hs : Tracked s) (hgrabbed : u.grabbed = s.grabbed)
    (hhandles : ∀ id ∈ u.handles, id ∈ s.handles) : Tracked u := by
  intro id hid
  obtain ⟨h, d, hd, heq⟩ := hs id (hhandles id hid)
  refine ⟨h, d, ?_, heq⟩
  rwa [devices_congr hgrabbed]

/-- The handles that are open between two paths are those of devices. -/
theorem tracked_midway (hs : Tracked s) (h : Prepared s s₀ t)
    (hmidway : Midway t meets s₀ s' new tried) (hleaked : ¬ Leaked tried) : Tracked s' := by
  obtain ⟨hgrabbed, hopen, -, -⟩ := h.fields
  intro id hid
  obtain hstart | ⟨d, hd, heq, -⟩ | hleaks := hmidway.only id hid
  · rw [hopen] at hstart
    obtain ⟨h', d, hd, heq⟩ := hs id hstart
    refine ⟨h', d, ?_, heq⟩
    rw [hmidway.table]
    split
    · next hh =>
      rw [h.existing, ← hh]
      exact List.mem_append_left _ hd
    · rwa [devices_congr hgrabbed]
  · refine ⟨t.hardware, d, ?_, heq⟩
    rw [hmidway.table, if_pos rfl]
    exact List.mem_append_right _ hd
  · exact absurd hleaks hleaked

omit [DecidableEq P] in
/-- The table of another device is the same, and the hardware has its new devices. -/
theorem tracked_store (hs : Tracked s') {h : H} {ds : List (Device P)}
    (hds : ∀ d ∈ devices s' h, d ∈ ds) : Tracked (storeGrabbedDevices s' h ds) := by
  intro id hid
  obtain ⟨h', d, hd, heq⟩ := hs id hid
  refine ⟨h', d, ?_, heq⟩
  rw [devices_store]
  split
  · next hh =>
    rw [hh] at hd
    exact hds d hd
  · exact hd

variable [DecidableEq M]

omit [DecidableEq P] in
theorem tracked_finalize (modelKey : H → Option M) (hs : Tracked s') {finish : Finish}
    {available : Nat} (htable : devices s' t.hardware = t.existing ++ new) :
    Tracked (finalizeGrab modelKey s' t finish new available).1 := by
  have hstored : Tracked (storeGrabbedDevices s' t.hardware (t.existing ++ new)) :=
    tracked_store hs fun d hd => by rwa [← htable]
  unfold finalizeGrab
  simp only
  split
  · exact hs
  · split
    · exact hstored
    · split
      · split
        · exact tracked_of_subset hstored rfl fun _ hid => hid
        · exact tracked_of_subset hstored rfl fun _ hid => hid
      · exact hstored

omit [DecidableEq H] [DecidableEq P] [DecidableEq M] in
theorem releaseNew_subset {s : State H P C M} {rollback : P → Release} {new : List (Device P)}
    {id : Nat} (hid : id ∈ (releaseNew s rollback new).1.handles) : id ∈ s.handles := by
  induction new generalizing s with
  | nil => exact hid
  | cons d ds ih =>
    unfold releaseNew at hid
    split at hid
    · exact mem_closeHandle (ih hid)
    · exact mem_closeHandle (ih hid)
    · exact mem_closeHandle hid

omit [DecidableEq M] in
/-- A new device is out of the table after its handle was closed only. -/
theorem tracked_rollback (hs : Tracked s) (h : Prepared s s₀ t)
    (hmidway : Midway t meets s₀ s' new tried) (hleaked : ¬ Leaked tried)
    (hcloses : ∀ p, (p, Interface.grabs true) ∈ tried → meets.rollback p ≠ .fails false) :
    Tracked (rollbackFailedGrab (openHandle s' false) t meets.rollback new) := by
  have hmid := tracked_midway hs h hmidway hleaked
  cases hraised : (releaseNew (openHandle s' false) meets.rollback new).2 with
  | raised =>
    rw [rollback_raised hraised]
    refine tracked_of_subset hmid ?_ fun id hid => ?_
    · rw [releaseNew_same]
      rfl
    · exact releaseNew_subset (s := openHandle s' false) hid
  | done =>
    obtain ⟨htable, -, -, -, -, hhandles⟩ := rollback_done (t := t) hraised
    obtain ⟨hgrabbed, hopen, -, -⟩ := h.fields
    intro id hid
    rw [hhandles, releaseNew_handles _ _ _ hraised] at hid
    obtain ⟨hmem, hreleased⟩ := hid
    obtain hstart | ⟨d, hd, heq, hi⟩ | hleaks := hmidway.only id hmem
    · rw [hopen] at hstart
      obtain ⟨h', d, hd, heq⟩ := hs id hstart
      refine ⟨h', d, ?_, heq⟩
      rw [htable]
      split
      · next hh => rwa [h.existing, ← hh]
      · next hh =>
        change d ∈ devices s' h'
        rwa [hmidway.table, if_neg hh, devices_congr hgrabbed]
    · obtain ⟨exclusive, hi', hgrab⟩ := hmidway.source d hd
      rw [hi] at hi'
      cases hi'
      have hnot := hreleased d hd
      have hdone := (releaseNew_ended _ _ _).mp hraised d hd
      cases hrollback : meets.rollback d.path with
      | done =>
        rw [hrollback] at hnot
        exact absurd ⟨heq, rfl⟩ hnot
      | cancelled closed => exact absurd hrollback (hdone closed)
      | fails closed =>
        cases closed with
        | true =>
          rw [hrollback] at hnot
          exact absurd ⟨heq, rfl⟩ hnot
        | false => exact absurd hrollback (hcloses d.path hgrab)
    · exact absurd hleaks hleaked

theorem tracked_acquire (modelKey : H → Option M) (hs : Tracked s) (h : Prepared s s₀ t)
    {paths : List P}
    (hclosed : ∀ p, (p, Interface.gone true) ∉ attempts t meets paths ∧
      (p, .fails true) ∉ attempts t meets paths ∧ (p, .cancelled true) ∉ attempts t meets paths)
    (hrolls : RollsBack (attempts t meets paths) →
      ∀ p, (p, .grabs true) ∈ attempts t meets paths → meets.rollback p ≠ .fails false) :
    Tracked (acquire modelKey t meets s₀ [] 0 paths).1 := by
  obtain ⟨s', new, tried, hmidway, -, hends⟩ :=
    acquire_ends modelKey (h.midway meets) paths
  have htable := hmidway.table t.hardware
  rw [if_pos rfl] at htable
  generalize acquire modelKey t meets s₀ [] 0 paths = r at hends ⊢
  generalize attempts t meets paths = all at hends hclosed hrolls
  have hleaked (hsub : ∀ q ∈ tried, q ∈ all) : ¬ Leaked tried := by
    intro hleaks
    obtain ⟨p, hp⟩ := hleaks
    exact (hclosed p).1 (hsub _ hp)
  cases hends with
  | finalized available hall _ =>
    subst hall
    exact tracked_finalize modelKey (tracked_midway hs h hmidway (hleaked fun _ hq => hq)) htable
  | rolledBack p isOpen hall =>
    subst hall
    have hsub (q : P × Interface) (hq : q ∈ tried) := List.mem_append_left [(p, .fails isOpen)] hq
    cases isOpen with
    | true => exact absurd (List.mem_append_right _ List.mem_cons_self) (hclosed p).2.1
    | false =>
      refine tracked_rollback hs h hmidway (hleaked hsub) fun q hq => ?_
      exact hrolls ⟨p, false, List.mem_append_right _ List.mem_cons_self⟩ q (hsub _ hq)
  | left p isOpen hall =>
    subst hall
    have hsub (q : P × Interface) (hq : q ∈ tried) :=
      List.mem_append_left [(p, .cancelled isOpen)] hq
    cases isOpen with
    | true => exact absurd (List.mem_append_right _ List.mem_cons_self) (hclosed p).2.2
    | false =>
      exact tracked_of_subset (tracked_midway hs h hmidway (hleaked hsub)) rfl fun _ hid => hid

theorem tracked_grabDevice (modelKey : H → Option M) (hlinked : Linked s) (hs : Tracked s) (h : H)
    (plan : Option (Plan P C)) (meets : GrabMeets P)
    (hcloses : ClosesHandles s (.grab h plan meets)) :
    Tracked (grabDevice modelKey s h true plan meets).1 := by
  unfold grabDevice
  cases plan with
  | none => exact tracked_of_subset hs rfl fun _ hid => hid
  | some plan =>
    obtain ⟨hclosed, hrolls⟩ := hcloses plan rfl
    exact tracked_acquire modelKey (t := transaction s h true plan) hs ⟨hlinked, rfl, rfl⟩ hclosed
      hrolls

end Grabs

/-! ## Releases -/

section Releases

variable {s : State H P C M}

omit [DecidableEq H] [DecidableEq P] in
/-- A device leaves the list with its handle closed. -/
theorem letGo_spec (s : State H P C M) (meets : Nat → Release) (ds : List (Device P)) :
    (letGo s meets ds).1 = { s with handles := (letGo s meets ds).1.handles } ∧
    ∀ id ∈ (letGo s meets ds).1.handles, id ∈ s.handles ∧
      ((∃ d ∈ ds, d.id = id) → ∃ d ∈ (letGo s meets ds).2.1, d.id = id) := by
  induction ds generalizing s with
  | nil => exact ⟨rfl, fun id hid => ⟨hid, fun hd => hd⟩⟩
  | cons d ds ih =>
    unfold letGo
    split
    · obtain ⟨hsame, hspec⟩ := ih (closeHandle s d.id true)
      refine ⟨hsame, fun id hid => ?_⟩
      obtain ⟨hmem, hkept⟩ := hspec id hid
      refine ⟨mem_closeHandle hmem, fun hd => hkept ?_⟩
      obtain ⟨e, he, heq⟩ := hd
      obtain rfl | he := List.mem_cons.mp he
      · rw [mem_closeHandle_iff] at hmem
        exact absurd ⟨heq.symm, rfl⟩ hmem.2
      · exact ⟨e, he, heq⟩
    · next closed _ =>
      obtain ⟨hsame, hspec⟩ := ih (closeHandle s d.id closed)
      refine ⟨hsame, fun id hid => ?_⟩
      obtain ⟨hmem, hkept⟩ := hspec id hid
      refine ⟨mem_closeHandle hmem, fun hd => ?_⟩
      obtain ⟨e, he, heq⟩ := hd
      obtain rfl | he := List.mem_cons.mp he
      · exact ⟨e, List.mem_cons_self, heq⟩
      · obtain ⟨e', he', heq'⟩ := hkept ⟨e, he, heq⟩
        exact ⟨e', List.mem_cons_of_mem _ he', heq'⟩
    · exact ⟨rfl, fun id hid => ⟨mem_closeHandle hid, fun hd => hd⟩⟩

omit [DecidableEq P] in
/-- The devices of the hardware are let go, and the others are those of before. -/
theorem tracked_letGo (hs : Tracked s) (h : H) (meets : Nat → Release) {u : State H P C M}
    (hgrabbed : u.grabbed = s.grabbed.erase h) (hhandles : u.handles = s.handles) :
    Tracked (storeGrabbedDevices (letGo u meets (devices s h)).1 h
      (letGo u meets (devices s h)).2.1) := by
  obtain ⟨hsame, hspec⟩ := letGo_spec u meets (devices s h)
  intro id hid
  obtain ⟨hmem, hkept⟩ := hspec id hid
  rw [hhandles] at hmem
  obtain ⟨h', d, hd, heq⟩ := hs id hmem
  by_cases hh : h' = h
  · rw [hh] at hd
    obtain ⟨e, he, heq⟩ := hkept ⟨d, hd, heq⟩
    refine ⟨h, e, ?_, heq⟩
    rwa [devices_store_self]
  · refine ⟨h', d, ?_, heq⟩
    rw [devices_store, if_neg hh, devices_congr (s := u) (by rw [hsame])]
    unfold devices Dict.getD at hd ⊢
    rwa [hgrabbed, Dict.get?_erase_of_ne _ hh]

theorem tracked_releaseTables (hs : Tracked s) (h : H) (meets : ReleaseMeets) :
    Tracked (releaseTables s h meets).1 := by
  have hcancelled := sameTables_cancelInterfaces (cancelPendingHardwareRelease s h) h
  unfold SameTables at hcancelled
  unfold releaseTables
  simp only
  generalize cancelPendingInterfaceReleases (cancelPendingHardwareRelease s h) h = u
    at hcancelled ⊢
  have hgrabbed : u.grabbed = s.grabbed := by
    rw [hcancelled]
    rfl
  have hhandles : u.handles = s.handles := by
    rw [hcancelled]
    rfl
  have hu : Tracked u := tracked_of_subset hs hgrabbed fun id hid => by rwa [← hhandles]
  split
  · exact hu
  · have hgo := tracked_letGo hu h meets.device (u := { u with
      desiredGrabs := u.desiredGrabs.erase h, grabbed := u.grabbed.erase h }) rfl rfl
    split
    · next heq =>
      rw [heq] at hgo
      exact hgo
    · next heq =>
      rw [heq] at hgo
      exact tracked_of_subset hgo rfl fun _ hid => hid

variable (modelKey : H → Option M)

variable [DecidableEq M]

theorem tracked_releaseDevice (hs : Tracked s) (h : H) (meets : ReleaseMeets) :
    Tracked (releaseDevice modelKey s h meets) :=
  tracked_of_subset (tracked_releaseTables hs h meets) rfl fun _ hid => hid

omit [DecidableEq P] in
theorem tracked_runPolicies (hs : Tracked s) (policy : List (H × Bool)) :
    Tracked (policy.foldl (fun s entry => runPolicy modelKey s entry.1 entry.2) s) := by
  induction policy generalizing s with
  | nil => exact hs
  | cons entry policy ih => exact ih (tracked_of_subset hs rfl fun _ hid => hid)

theorem tracked_releaseEach (meets : H → ReleaseMeets) (hs : Tracked s)
    (policy : List (H × Bool)) (hardware : List H) :
    Tracked (releaseEach modelKey meets s policy hardware) := by
  induction hardware generalizing s policy with
  | nil => exact tracked_runPolicies modelKey hs policy
  | cons h hardware ih =>
    have htables := tracked_releaseTables hs h (meets h)
    unfold releaseEach
    simp only
    split
    · exact tracked_runPolicies modelKey htables _
    · exact ih htables _

omit [DecidableEq P] in
theorem tracked_schedule (hs : Tracked s) (h : H) (meets : ScheduleMeets) :
    Tracked (scheduleHardwareRelease modelKey s h meets) := by
  unfold scheduleHardwareRelease
  simp only
  split
  · split
    · exact hs
    · exact hs
  · split
    · exact hs
    · split
      · exact hs
      · exact hs

theorem takeAt_spec {p : P} {ds keep : List (Device P)} {removed : Device P}
    (htake : takeAt p ds = some (removed, keep)) : ∀ d ∈ ds, d = removed ∨ d ∈ keep := by
  induction ds generalizing keep with
  | nil => cases htake
  | cons e ds ih =>
    unfold takeAt at htake
    split at htake
    · cases htake
      exact fun d hd => List.mem_cons.mp hd
    · obtain ⟨r, hr, heq⟩ := Option.map_eq_some_iff.mp htake
      cases heq
      intro d hd
      obtain rfl | hd := List.mem_cons.mp hd
      · exact .inr List.mem_cons_self
      · obtain hremoved | hkeep := ih hr d hd
        · exact .inl hremoved
        · exact .inr (List.mem_cons_of_mem _ hkeep)

theorem tracked_releaseInterface (hs : Tracked s) (h : H) (p : P) (meets : InterfaceMeets) :
    Tracked (releaseInterface modelKey s h p meets) := by
  unfold releaseInterface
  split
  · exact hs
  · next removed keep htake =>
    split
    · exact hs
    · split
      · exact tracked_of_subset hs rfl fun _ hid => mem_closeHandle hid
      · exact tracked_of_subset hs rfl fun _ hid => mem_closeHandle hid
      · have hstored :
            Tracked (storeGrabbedDevices (closeHandle s removed.id true) h keep) := by
          intro id hid
          obtain ⟨hmem, hne⟩ := mem_closeHandle_iff.mp hid
          obtain ⟨h', d, hd, heq⟩ := hs id hmem
          refine ⟨h', d, ?_, heq⟩
          rw [devices_store]
          split
          · next hh =>
            rw [hh] at hd
            obtain hremoved | hkeep := takeAt_spec htake d hd
            · exact absurd ⟨by rw [← heq, hremoved], rfl⟩ hne
            · exact hkeep
          · exact hd
        simp only
        split
        · exact hstored
        · split
          · split
            · exact tracked_of_subset hstored rfl fun _ hid => hid
            · exact hstored
          · exact tracked_of_subset hstored rfl fun _ hid => hid

end Releases

/-! ## Runs -/

section Runs

variable (modelKey : H → Option M) {s t : State H P C M}

variable [DecidableEq M]

theorem tracked_step {a : Step H P C} (hlinked : Linked s) (hs : Tracked s)
    (hcloses : ClosesHandles s a) (hstep : step modelKey s a = some t) : Tracked t := by
  cases a with
  | grab h plan meets =>
    cases hstep
    exact tracked_grabDevice modelKey hlinked hs h plan meets hcloses
  | release h meets =>
    cases hstep
    exact tracked_releaseDevice modelKey hs h meets
  | releaseAll meets =>
    cases hstep
    exact tracked_releaseEach modelKey meets hs [] _
  | schedule h meets =>
    cases hstep
    exact tracked_schedule modelKey hs h meets
  | setMapping h
  | press device
  | letUp device =>
    cases hstep
    exact hs
  | releaseInterface h p meets =>
    cases hstep
    exact tracked_releaseInterface modelKey hs h p meets
  | fire task pressed hardware interface =>
    obtain ⟨timer, -, rfl⟩ := Option.map_eq_some_iff.mp hstep
    cases timer with
    | hardware h =>
      change Tracked (fireHardware modelKey s task h pressed hardware)
      unfold fireHardware
      simp only
      split
      · exact hs
      · split
        · exact hs
        · exact hs
        · have hstopped :
              Tracked (readerStops { s with timers := s.timers.erase task } pressed) :=
            tracked_of_subset hs rfl fun _ hid => hid
          exact tracked_releaseDevice modelKey hstopped h hardware
    | interface h p =>
      change Tracked (fireInterface modelKey s task h p interface)
      unfold fireInterface
      simp only
      split
      · exact hs
      · split
        · exact hs
        · have hended : Tracked { s with
              timers := s.timers.erase task
              pendingInterface := s.pendingInterface.erase (h, p) } :=
            tracked_of_subset hs rfl fun _ hid => hid
          exact tracked_releaseInterface modelKey hended h p interface

/-- While every clean-up gets to the handle, no open device is lost. -/
theorem open_devices_tracked {as : List (Step H P C)}
    (hguarded : Guarded (step modelKey) ClosesHandles ({} : State H P C M) as)
    (hrun : run (step modelKey) {} as = some s) : Tracked s := by
  have hboth := guarded_run_invariant (I := fun s : State H P C M => Linked s ∧ Tracked s)
    (fun s a t hinv hcloses hstep =>
      ⟨linked_step modelKey hinv.1 hstep, tracked_step modelKey hinv.1 hinv.2 hcloses hstep⟩)
    ⟨linked_initial, fun id hid => by simp at hid⟩ hguarded hrun
  exact hboth.2

end Runs

/-! ### A handle that is lost -/

variable [DecidableEq M]

theorem grabbed_interfaces_tracked :
    ∃ s, run (step fun _ => none) ({} : State Nat Nat Unit Nat)
        [.grab 0 (some (planOf [0, 1])) allGrabbed] = some s ∧ Tracked s := by
  have hguarded : Guarded (step fun _ => none) ClosesHandles ({} : State Nat Nat Unit Nat)
      [.grab 0 (some (planOf [0, 1])) allGrabbed] := by
    refine ⟨?_, trivial⟩
    intro plan hplan
    cases hplan
    have hattempts : attempts (transaction ({} : State Nat Nat Unit Nat) 0 true (planOf [0, 1]))
        allGrabbed (planOf [0, 1]).requestedPaths = [(0, .grabs true), (1, .grabs true)] := rfl
    simp only [hattempts]
    exact ⟨fun p => by simp, fun _ p _ => by simp [allGrabbed]⟩
  exact ⟨_, rfl, open_devices_tracked (fun _ => none) hguarded rfl⟩

/-- The second attempt fails, and the grab is cancelled before its clean-up gets to the
handle. -/
def secondCancelled : GrabMeets Nat :=
  { interface := fun p => if p = 1 then .cancelled true else .grabs true }

/-- The device of the second attempt is open and grabbed, and in no table. -/
theorem cancelled_cleanup_loses_handle :
    ∃ s, run (step fun _ => none) ({} : State Nat Nat Unit Nat)
        [.grab 0 (some (planOf [0, 1])) secondCancelled] = some s ∧ ¬ Tracked s := by
  have hlost : (run (step fun _ => none) ({} : State Nat Nat Unit Nat)
      [.grab 0 (some (planOf [0, 1])) secondCancelled]).any (fun s =>
        1 ∈ s.handles ∧ s.grabbed.keys = [0] ∧ ∀ d ∈ devices s 0, d.id ≠ 1) = true := by
    decide
  obtain ⟨s, hrun, hs⟩ := (Option.any_eq_true _ _).mp hlost
  rw [decide_eq_true_eq] at hs
  obtain ⟨hopen, hkeys, hother⟩ := hs
  refine ⟨s, hrun, fun htracked => ?_⟩
  obtain ⟨h, d, hd, hid⟩ := htracked 1 hopen
  by_cases hh : h = 0
  · rw [hh] at hd
    exact hother d hd hid
  · have hnone : s.grabbed.get? h = none := by
      rw [Dict.get?_eq_none_iff, hkeys]
      simp [hh]
    unfold devices Dict.getD at hd
    rw [hnone] at hd
    cases hd

end Keymasq.Grab.Tracking
