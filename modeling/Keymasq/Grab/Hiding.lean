import Keymasq.Grab.Delayed

/-!
# The hiding flags and the hardware that waits

A flag of a model is there for desired gamepads without a device. It is computed anew at
the end of the transactions, except where a grab ends early.
-/

namespace Keymasq.Grab.Hiding
open Foundation Transition Transactions Tables Acquisition Rollback Tracking Delayed


variable {H P C M : Type} [DecidableEq H] [DecidableEq P]
variable (modelKey : H → Option M)

/-- Every flag is of a model of which a desired grab waits with its source hidden. -/
def Follows (s : State H P C M) : Prop :=
  ∀ m ∈ s.hiddenModels, ∃ h, waitsHidden s h = true ∧ modelKey h = some m

/-- The flag of the model is there for this hardware alone. -/
def RestsOn (s : State H P C M) (h : H) : Prop :=
  ∃ m ∈ s.hiddenModels, modelKey h = some m ∧
    ∀ h', waitsHidden s h' = true → modelKey h' = some m → h' = h

/-- The grab ends before its flags are computed, and is not rolled back: it is cancelled,
or finds interfaces of the model without mapped keys only. -/
def EndsEarly (s : State H P C M) (h : H) (plan : Plan P C) (meets : GrabMeets P)
    (tried : List (P × Interface)) : Prop :=
  (∃ p isOpen, (p, Interface.cancelled isOpen) ∈ tried) ∨
  (RollsBack tried ∧ ∃ p exclusive closed, (p, .grabs exclusive) ∈ tried ∧
    meets.rollback p = .cancelled closed) ∨
  (¬ RollsBack tried ∧ (meets.finish = .refreshCancelled ∨
    devices s h = [] ∧ plan.mapped = true ∧ (∃ p, (p, .unmapped) ∈ tried) ∧
      ∀ p exclusive, (p, .grabs exclusive) ∉ tried))

/-- A grab that ends early does not take away the waiting hardware that a flag rests on,
and neither does a cancelled request to release it. -/
def KeepsFlag (s : State H P C M) : Step H P C → Prop
  | .grab h plan meets => ∀ plan', plan = some plan' →
      let tried := attempts (transaction s h true plan') meets plan'.requestedPaths
      EndsEarly s h plan' meets tried → RestsOn modelKey s h →
        plan'.hidesSource = true ∧ ∀ p exclusive, (p, Interface.grabs exclusive) ∉ tried
  | .schedule h meets => meets = .refreshCancelled → ¬ RestsOn modelKey s h
  | _ => True

/-! ## Flags and one hardware -/

section Flags

variable {modelKey} {s t : State H P C M} {h : H}

omit [DecidableEq P] in
theorem waits_congr (hconfig : t.desiredGrabs.get? h = s.desiredGrabs.get? h)
    (hdevices : devices t h = devices s h) : waitsHidden t h = waitsHidden s h := by
  unfold waitsHidden
  rw [hconfig, hdevices]

/-- Every flag but that of the hardware has somebody who waits. -/
def FollowsBut (modelKey : H → Option M) (s : State H P C M) (h : H) : Prop :=
  ∀ m ∈ s.hiddenModels, modelKey h = some m ∨
    ∃ h', waitsHidden s h' = true ∧ modelKey h' = some m

omit [DecidableEq P] in
theorem followsBut_of_elsewhere (hs : Follows modelKey s)
    (hflags : t.hiddenModels = s.hiddenModels)
    (hother : ∀ h', h' ≠ h → waitsHidden t h' = waitsHidden s h') : FollowsBut modelKey t h := by
  intro m hm
  rw [hflags] at hm
  obtain ⟨h', hwaits, hkey⟩ := hs m hm
  by_cases hh : h' = h
  · rw [hh] at hkey
    exact .inl hkey
  · exact .inr ⟨h', by rwa [hother h' hh], hkey⟩

omit [DecidableEq P] in
/-- The hardware changes, and still waits where a flag rests on it. -/
theorem follows_elsewhere (hs : Follows modelKey s) (hflags : t.hiddenModels = s.hiddenModels)
    (hother : ∀ h', h' ≠ h → waitsHidden t h' = waitsHidden s h')
    (hrests : RestsOn modelKey s h → waitsHidden t h = true) : Follows modelKey t := by
  intro m hm
  obtain hkey | hwaits := followsBut_of_elsewhere hs hflags hother m hm
  · by_cases hrest : RestsOn modelKey s h
    · exact ⟨h, hrests hrest, hkey⟩
    · rw [hflags] at hm
      have hsibling : ∃ h', waitsHidden s h' = true ∧ modelKey h' = some m ∧ h' ≠ h := by
        by_contra hnone
        refine hrest ⟨m, hm, hkey, fun h' hwaits hkey' => ?_⟩
        by_contra hne
        exact hnone ⟨h', hwaits, hkey', hne⟩
      obtain ⟨h', hwaits, hkey', hne⟩ := hsibling
      exact ⟨h', by rwa [hother h' hne], hkey'⟩
  · exact hwaits

omit [DecidableEq P] in
theorem follows_congr (hs : Follows modelKey s) (hflags : t.hiddenModels = s.hiddenModels)
    (hwaits : ∀ h, waitsHidden t h = waitsHidden s h) : Follows modelKey t := by
  intro m hm
  rw [hflags] at hm
  obtain ⟨h, hwait, hkey⟩ := hs m hm
  exact ⟨h, by rwa [hwaits], hkey⟩

variable [DecidableEq M]

omit [DecidableEq P] in
theorem follows_enable (hs : FollowsBut modelKey s h) (hwaits : waitsHidden s h = true) :
    Follows modelKey (enableHotplugHiding modelKey s h) := by
  intro m hm
  change m ∈ (modelKey h).elim s.hiddenModels fun m => insert m s.hiddenModels at hm
  have hold (hm : m ∈ s.hiddenModels) :
      ∃ h', waitsHidden s h' = true ∧ modelKey h' = some m := by
    obtain hkey | hwait := hs m hm
    · exact ⟨h, hwaits, hkey⟩
    · exact hwait
  cases hkey : modelKey h with
  | none =>
    rw [hkey] at hm
    exact hold hm
  | some m' =>
    rw [hkey] at hm
    obtain rfl | hm := Finset.mem_insert.mp hm
    · exact ⟨h, hwaits, hkey⟩
    · exact hold hm

omit [DecidableEq P] in
/-- A flag that stays has a sibling that waits. -/
theorem mem_disable {m : M}
    (hm : m ∈ (disableHotplugHidingIfUnused modelKey s h).hiddenModels) :
    m ∈ s.hiddenModels ∧ (modelKey h = some m →
      ∃ h', waitsHidden s h' = true ∧ modelKey h' = some m) := by
  change m ∈ (modelKey h).elim s.hiddenModels _ at hm
  cases hkey : modelKey h with
  | none =>
    rw [hkey] at hm
    exact ⟨hm, fun hkey' => by cases hkey'⟩
  | some m' =>
    rw [hkey] at hm
    simp only [Option.elim_some] at hm
    split at hm
    · next hsibling =>
      refine ⟨hm, fun hkey' => ?_⟩
      cases hkey'
      obtain ⟨h', -, hwait⟩ := List.any_eq_true.mp hsibling
      rw [decide_eq_true_eq] at hwait
      exact ⟨h', hwait.2.1, hwait.2.2⟩
    · obtain ⟨hne, hm⟩ := Finset.mem_erase.mp hm
      refine ⟨hm, fun hkey' => ?_⟩
      cases hkey'
      exact absurd rfl hne

omit [DecidableEq P] in
theorem follows_disable (hs : FollowsBut modelKey s h) :
    Follows modelKey (disableHotplugHidingIfUnused modelKey s h) := by
  intro m hm
  obtain ⟨hm, hsibling⟩ := mem_disable hm
  obtain hkey | hwait := hs m hm
  · exact hsibling hkey
  · exact hwait

end Flags

/-! ## Grabs -/

section Grabs

variable {modelKey} {s s₀ s' : State H P C M} {t : Transaction H P C} {meets : GrabMeets P}
  {new : List (Device P)} {tried : List (P × Interface)}

/-- Between two paths the hardware waits as the plan says, if it has no device yet. -/
theorem waits_midway (hp : Prepared s s₀ t) (hupdate : t.updateDesired = true)
    (hmidway : Midway t meets s₀ s' new tried) :
    s'.hiddenModels = s.hiddenModels ∧
      (∀ h, h ≠ t.hardware → waitsHidden s' h = waitsHidden s h) ∧
      (waitsHidden s' t.hardware = true ↔ t.plan.hidesSource = true ∧ t.existing ++ new = []) := by
  obtain ⟨hgrabbed, -, -, -⟩ := hp.fields
  obtain ⟨-, -, -, -, hflags, -⟩ := prepare_grabbed (cancelPendingHardwareRelease s t.hardware) t
  obtain ⟨-, hconfigs⟩ := prepare_desired (cancelPendingHardwareRelease s t.hardware) t
  rw [← hp.start] at hflags hconfigs
  rw [if_pos hupdate] at hconfigs
  have hsame := hmidway.same
  have hconfig : s'.desiredGrabs = s₀.desiredGrabs := by rw [hsame]
  refine ⟨?_, fun h hh => ?_, ?_⟩
  · rw [hsame]
    exact hflags
  · refine waits_congr ?_ ?_
    · rw [hconfig, hconfigs, Dict.get?_insert_of_ne _ _ hh]
      rfl
    · rw [hmidway.table, if_neg hh, devices_congr hgrabbed]
  · unfold waitsHidden
    rw [hconfig, hconfigs, Dict.get?_insert_self, hmidway.table, if_pos rfl]
    simp only [Option.any_some, Bool.and_eq_true, decide_eq_true_eq]
    rfl

/-- A state of the grab that leaves the flags as they are. -/
theorem follows_left (hs : Follows modelKey s) (hp : Prepared s s₀ t)
    (hupdate : t.updateDesired = true) (hmidway : Midway t meets s₀ s' new tried)
    (hkeeps : RestsOn modelKey s t.hardware →
      t.plan.hidesSource = true ∧ ∀ p exclusive, (p, Interface.grabs exclusive) ∉ tried)
    (hexisting : RestsOn modelKey s t.hardware → t.existing = []) : Follows modelKey s' := by
  obtain ⟨hflags, hother, hhere⟩ := waits_midway hp hupdate hmidway
  refine follows_elsewhere hs hflags hother fun hrests => hhere.mpr ?_
  obtain ⟨hhides, hgrabs⟩ := hkeeps hrests
  refine ⟨hhides, ?_⟩
  rw [hexisting hrests, List.nil_append, List.eq_nil_iff_forall_not_mem]
  intro d hd
  obtain ⟨exclusive, -, hmem⟩ := hmidway.source d hd
  exact hgrabs _ _ hmem

omit [DecidableEq P] in
/-- Hardware that a flag rests on waits. -/
theorem rests_waits (hs : Follows modelKey s) {h : H} (hrests : RestsOn modelKey s h) :
    waitsHidden s h = true ∧ devices s h = [] := by
  obtain ⟨m, hm, -, honly⟩ := hrests
  obtain ⟨h', hwaits, hkey⟩ := hs m hm
  rw [honly h' hwaits hkey] at hwaits
  refine ⟨hwaits, ?_⟩
  unfold waitsHidden at hwaits
  rw [Bool.and_eq_true] at hwaits
  exact decide_eq_true_eq.mp hwaits.2

variable [DecidableEq M]

theorem follows_finalize (hs : Follows modelKey s) (hp : Prepared s s₀ t)
    (hupdate : t.updateDesired = true) (hmidway : Midway t meets s₀ s' new tried)
    {finish : Finish} {available : Nat} (hthere : available ≠ 0 → Available tried)
    (hkeeps : (finish = .refreshCancelled ∨ devices s t.hardware = [] ∧ t.plan.mapped = true ∧
        (∃ p, (p, Interface.unmapped) ∈ tried) ∧
        ∀ p exclusive, (p, Interface.grabs exclusive) ∉ tried) →
      RestsOn modelKey s t.hardware →
        t.plan.hidesSource = true ∧ ∀ p exclusive, (p, Interface.grabs exclusive) ∉ tried) :
    Follows modelKey (finalizeGrab modelKey s' t finish new available).1 := by
  have htable := hmidway.table t.hardware
  rw [if_pos rfl] at htable
  have hexisting (hrests : RestsOn modelKey s t.hardware) : t.existing = [] :=
    hp.existing.trans (rests_waits hs hrests).2
  have hleft := follows_left hs hp hupdate hmidway
  obtain ⟨hflags, hother, hhere⟩ := waits_midway hp hupdate hmidway
  have hstored (h : H) : waitsHidden (storeGrabbedDevices s' t.hardware (t.existing ++ new)) h =
      waitsHidden s' h := by
    refine waits_congr rfl ?_
    rw [devices_store]
    split
    · next hh => rw [hh, htable]
    · rfl
  have hbut : FollowsBut modelKey (storeGrabbedDevices s' t.hardware (t.existing ++ new))
      t.hardware :=
    followsBut_of_elsewhere hs hflags fun h hh => (hstored h).trans (hother h hh)
  unfold finalizeGrab
  simp only
  split
  · next hunmatched =>
    obtain ⟨hnot, hnone, hpaths, hmapped, hnew⟩ := hunmatched
    rw [htable, hnew, List.append_nil] at hnone
    have hgrabs (p : P) (exclusive : Bool) : (p, Interface.grabs exclusive) ∉ tried := by
      intro hmem
      obtain ⟨d, hd, -⟩ := hmidway.grabbed p exclusive hmem
      rw [hnew] at hd
      cases hd
    refine hleft (hkeeps (.inr ⟨hp.existing ▸ hnone, hmapped, ?_, hgrabs⟩)) hexisting
    have hpos : available ≠ 0 := by
      intro hzero
      exact hnot ⟨.inl hpaths, hzero, by rw [hnone, hnew]; rfl⟩
    obtain ⟨p, hp | ⟨exclusive, hp⟩⟩ := hthere hpos
    · exact ⟨p, hp⟩
    · exact absurd hp (hgrabs p exclusive)
  · split
    · next hrefresh => exact follows_congr (hleft (hkeeps (.inl hrefresh.2)) hexisting) rfl hstored
    · split
      · next hwaiting =>
        refine follows_enable hbut ?_
        rw [hstored]
        exact hhere.mpr ⟨hwaiting.1, hwaiting.2.2.2⟩
      · exact follows_disable hbut

omit [DecidableEq M] in
theorem rollback_flags (u : State H P C M) (t : Transaction H P C) (rollback : P → Release)
    (new : List (Device P)) :
    (rollbackFailedGrab u t rollback new).hiddenModels = u.hiddenModels := by
  have hsame := releaseNew_same u rollback new
  unfold rollbackFailedGrab
  split
  · next heq =>
    rw [heq] at hsame
    simp only at hsame ⊢
    rw [hsame]
  · next v heq =>
    rw [heq] at hsame
    simp only at hsame ⊢
    have hcancelled := sameTables_cancelInterfaces (storeGrabbedDevices v t.hardware t.existing)
      t.hardware
    unfold SameTables at hcancelled
    split
    · change (cancelPendingInterfaceReleases _ _).hiddenModels = _
      rw [hcancelled, hsame]
      rfl
    · rw [hcancelled, hsame]
      rfl

omit [DecidableEq M] in
/-- After a rollback everybody waits as before. -/
theorem waits_rolledBack (hp : Prepared s s₀ t) (hupdate : t.updateDesired = true)
    (hmidway : Midway t meets s₀ s' new tried) {isOpen : Bool}
    (hdone : (releaseNew (openHandle s' isOpen) meets.rollback new).2 = .done) (h : H) :
    waitsHidden (rollbackFailedGrab (openHandle s' isOpen) t meets.rollback new) h =
      waitsHidden s h := by
  obtain ⟨htable, -, hconfigs, -, -, -⟩ := rollback_done (t := t) hdone
  rw [if_pos hupdate] at hconfigs
  obtain ⟨-, hother, -⟩ := waits_midway hp hupdate hmidway
  by_cases hh : h = t.hardware
  · rw [hh]
    refine waits_congr ?_ ?_
    · rw [hconfigs, restore_get?, hp.transaction]
      rfl
    · rw [htable, if_pos rfl, hp.existing]
  · rw [← hother h hh]
    refine waits_congr ?_ ?_
    · rw [hconfigs, restore_get?_of_ne _ _ hh]
      rfl
    · rw [htable, if_neg hh]
      rfl

theorem follows_acquire (hs : Follows modelKey s) (hp : Prepared s s₀ t)
    (hupdate : t.updateDesired = true) {paths : List P}
    (hkeeps : EndsEarly s t.hardware t.plan meets (attempts t meets paths) →
      RestsOn modelKey s t.hardware → t.plan.hidesSource = true ∧
        ∀ p exclusive, (p, Interface.grabs exclusive) ∉ attempts t meets paths) :
    Follows modelKey (acquire modelKey t meets s₀ [] 0 paths).1 := by
  obtain ⟨s', new, tried, hmidway, hunbroken, hends⟩ :=
    acquire_ends modelKey (hp.midway meets) paths
  generalize acquire modelKey t meets s₀ [] 0 paths = r at hends ⊢
  generalize attempts t meets paths = all at hends hkeeps
  have hexisting (hrests : RestsOn modelKey s t.hardware) : t.existing = [] :=
    hp.existing.trans (rests_waits hs hrests).2
  have hleft := follows_left hs hp hupdate hmidway
  cases hends with
  | finalized available hall hthere =>
    subst hall
    have hno : ¬ RollsBack all := by
      intro hrolls
      obtain ⟨p, isOpen, hp⟩ := hrolls
      exact (hunbroken p isOpen).1 hp
    exact follows_finalize hs hp hupdate hmidway hthere
      fun hearly => hkeeps (.inr (.inr ⟨hno, hearly⟩))
  | rolledBack p isOpen hall =>
    subst hall
    have hsub {q : P × Interface} (hq : q ∈ tried) := List.mem_append_left [(p, .fails isOpen)] hq
    have hrolls : RollsBack (tried ++ [(p, .fails isOpen)]) :=
      ⟨p, isOpen, List.mem_append_right _ List.mem_cons_self⟩
    cases hraised : (releaseNew (openHandle s' isOpen) meets.rollback new).2 with
    | raised =>
      -- The device whose release was cancelled is still in the table.
      have hcancelled : ∃ d ∈ new, ∃ closed, meets.rollback d.path = .cancelled closed := by
        by_contra hnone
        have hdone := (releaseNew_ended (openHandle s' isOpen) meets.rollback new).mpr
          fun d hd closed hc => hnone ⟨d, hd, closed, hc⟩
        rw [hdone] at hraised
        cases hraised
      obtain ⟨d, hd, closed, hc⟩ := hcancelled
      obtain ⟨exclusive, -, hmem⟩ := hmidway.source d hd
      have hno : ¬ RestsOn modelKey s t.hardware := fun hrests =>
        (hkeeps (.inr (.inl ⟨hrolls, d.path, exclusive, closed, hsub hmem, hc⟩)) hrests).2 _ _
          (hsub hmem)
      rw [rollback_raised hraised, releaseNew_same]
      exact follows_congr (hleft (fun hrests => absurd hrests hno) hexisting) rfl fun _ => rfl
    | done =>
      have hflags := (waits_midway hp hupdate hmidway).1
      exact follows_congr hs ((rollback_flags _ _ _ _).trans hflags)
        (waits_rolledBack hp hupdate hmidway hraised)
  | left p isOpen hall =>
    subst hall
    have hlast := hkeeps (.inl ⟨p, isOpen, List.mem_append_right _ List.mem_cons_self⟩)
    have hfollows := hleft (fun hrests => ⟨(hlast hrests).1, fun q e hq =>
      (hlast hrests).2 q e (List.mem_append_left _ hq)⟩) hexisting
    exact follows_congr hfollows rfl fun _ => rfl

end Grabs

variable [DecidableEq M]

theorem follows_grabDevice {s : State H P C M} (hlinked : Linked s) (hs : Follows modelKey s)
    (h : H) (plan : Option (Plan P C)) (meets : GrabMeets P)
    (hkeeps : KeepsFlag modelKey s (.grab h plan meets)) :
    Follows modelKey (grabDevice modelKey s h true plan meets).1 := by
  unfold grabDevice
  cases plan with
  | none => exact follows_congr hs rfl fun _ => rfl
  | some plan =>
    exact follows_acquire (t := transaction s h true plan) hs ⟨hlinked, rfl, rfl⟩ rfl
      (hkeeps plan rfl)

/-! ## Releases -/

section Releases

variable {modelKey} {s : State H P C M}

/-- Every flag has somebody who waits, or is computed anew by the policy to come. -/
def FollowsSoon (modelKey : H → Option M) (policy : List (H × Bool)) (s : State H P C M) : Prop :=
  ∀ m ∈ s.hiddenModels, (∃ entry ∈ policy, entry.2 = true ∧ modelKey entry.1 = some m) ∨
    ∃ h, waitsHidden s h = true ∧ modelKey h = some m

omit [DecidableEq M] in
/-- Hardware that waited is taken care of by the policy of its release. -/
theorem waits_releaseTables (s : State H P C M) (h : H) (meets : ReleaseMeets) :
    (releaseTables s h meets).1.hiddenModels = s.hiddenModels ∧
      (∀ h', h' ≠ h → waitsHidden (releaseTables s h meets).1 h' = waitsHidden s h') ∧
      (waitsHidden s h = true → (releaseTables s h meets).2.1 = true ∨
        waitsHidden (releaseTables s h meets).1 h = true) := by
  have hcancelled := sameTables_cancelInterfaces (cancelPendingHardwareRelease s h) h
  unfold SameTables at hcancelled
  have hother (h' : H) (hh : h' ≠ h) :=
    (Prod.mk.inj ((view_releaseTables s h meets).1 h' hh)).1
  unfold releaseTables at hother ⊢
  simp only at hother ⊢
  generalize cancelPendingInterfaceReleases (cancelPendingHardwareRelease s h) h = u
    at hcancelled hother ⊢
  have hconfigs : u.desiredGrabs = s.desiredGrabs := by
    rw [hcancelled]
    rfl
  have hflags : u.hiddenModels = s.hiddenModels := by
    rw [hcancelled]
    rfl
  have hgrabbed : u.grabbed = s.grabbed := by
    rw [hcancelled]
    rfl
  split
  · have hwaits (h' : H) : waitsHidden u h' = waitsHidden s h' :=
      waits_congr (by rw [hconfigs]) (devices_congr hgrabbed h')
    exact ⟨hflags, fun h' _ => hwaits h', fun hwait => .inr (by rwa [hwaits])⟩
  · next hgo =>
    rw [if_neg hgo] at hother
    have hspec := (letGo_spec { u with
      desiredGrabs := u.desiredGrabs.erase h, grabbed := u.grabbed.erase h } meets.device
      (devices u h)).1
    have hhides (hwait : waitsHidden s h = true) :
        (u.desiredGrabs.get? h).any Config.hidesSource = true := by
      unfold waitsHidden at hwait
      rw [Bool.and_eq_true, ← hconfigs] at hwait
      exact hwait.1
    have hconfig (v : State H P C M) (hv : v = { u with
        desiredGrabs := u.desiredGrabs.erase h
        grabbed := u.grabbed.erase h
        handles := v.handles }) : v.hiddenModels = s.hiddenModels ∧
        ∀ h', h' ≠ h → v.desiredGrabs.get? h' = s.desiredGrabs.get? h' := by
      rw [hv]
      refine ⟨hflags, fun h' hh => ?_⟩
      rw [← hconfigs]
      exact Dict.get?_erase_of_ne _ hh
    split
    · next v unreleased heq =>
      simp only [heq] at hspec hother
      obtain ⟨hflags', hconfigs'⟩ := hconfig v hspec
      exact ⟨hflags', fun h' hh => waits_congr (hconfigs' h' hh) (hother h' hh),
        fun hwait => .inl (hhides hwait)⟩
    · next v unreleased heq =>
      simp only [heq] at hspec hother
      obtain ⟨hflags', hconfigs'⟩ := hconfig v hspec
      exact ⟨hflags', fun h' hh => waits_congr (hconfigs' h' hh) (hother h' hh),
        fun hwait => .inl (hhides hwait)⟩

omit [DecidableEq M] in
theorem soon_releaseTables (policy : List (H × Bool)) (hs : FollowsSoon modelKey policy s) (h : H)
    (meets : ReleaseMeets) :
    FollowsSoon modelKey (policy ++ [(h, (releaseTables s h meets).2.1)])
      (releaseTables s h meets).1 := by
  obtain ⟨hflags, hother, hhere⟩ := waits_releaseTables s h meets
  intro m hm
  rw [hflags] at hm
  obtain ⟨entry, hentry, hpolicy⟩ | ⟨h', hwaits, hkey⟩ := hs m hm
  · exact .inl ⟨entry, List.mem_append_left _ hentry, hpolicy⟩
  · by_cases hh : h' = h
    · rw [hh] at hwaits hkey
      obtain hhides | hwaits := hhere hwaits
      · exact .inl ⟨_, List.mem_append_right _ List.mem_cons_self, hhides, hkey⟩
      · exact .inr ⟨h, hwaits, hkey⟩
    · exact .inr ⟨h', by rwa [hother h' hh], hkey⟩

omit [DecidableEq P] in
theorem follows_policies (policy : List (H × Bool)) (hs : FollowsSoon modelKey policy s) :
    Follows modelKey (policy.foldl (fun s entry => runPolicy modelKey s entry.1 entry.2) s) := by
  induction policy generalizing s with
  | nil =>
    intro m hm
    obtain ⟨entry, hentry, -⟩ | hwaits := hs m hm
    · cases hentry
    · exact hwaits
  | cons entry policy ih =>
    obtain ⟨h, hides⟩ := entry
    refine ih fun m hm => ?_
    cases hides with
    | false =>
      obtain ⟨entry, hentry, hpolicy⟩ | hwaits := hs m hm
      · obtain rfl | hentry := List.mem_cons.mp hentry
        · cases hpolicy.1
        · exact .inl ⟨entry, hentry, hpolicy⟩
      · exact .inr hwaits
    | true =>
      obtain ⟨hm, hsibling⟩ := mem_disable hm
      obtain ⟨entry, hentry, hpolicy⟩ | hwaits := hs m hm
      · obtain rfl | hentry := List.mem_cons.mp hentry
        · exact .inr (hsibling hpolicy.2)
        · exact .inl ⟨entry, hentry, hpolicy⟩
      · exact .inr hwaits

omit [DecidableEq P] [DecidableEq M] in
theorem follows_soon {policy : List (H × Bool)} (hs : Follows modelKey s) :
    FollowsSoon modelKey policy s := fun m hm => .inr (hs m hm)

theorem follows_releaseDevice (hs : Follows modelKey s) (h : H) (meets : ReleaseMeets) :
    Follows modelKey (releaseDevice modelKey s h meets) :=
  follows_policies [(h, _)] (soon_releaseTables [] (follows_soon hs) h meets)

theorem follows_releaseEach (meets : H → ReleaseMeets) {policy : List (H × Bool)}
    (hs : FollowsSoon modelKey policy s) (hardware : List H) :
    Follows modelKey (releaseEach modelKey meets s policy hardware) := by
  induction hardware generalizing s policy with
  | nil => exact follows_policies _ hs
  | cons h hardware ih =>
    have htables := soon_releaseTables _ hs h (meets h)
    unfold releaseEach
    simp only
    split
    · exact follows_policies _ htables
    · exact ih htables

omit [DecidableEq P] in
theorem follows_schedule (hs : Follows modelKey s) (h : H) (meets : ScheduleMeets)
    (hkeeps : meets = .refreshCancelled → ¬ RestsOn modelKey s h) :
    Follows modelKey (scheduleHardwareRelease modelKey s h meets) := by
  unfold scheduleHardwareRelease
  simp only
  split
  · have hother (h' : H) (hh : h' ≠ h) : waitsHidden { s with
        desiredGrabs := s.desiredGrabs.erase h, desiredPaths := s.desiredPaths.erase h } h' =
        waitsHidden s h' :=
      waits_congr (Dict.get?_erase_of_ne _ hh) rfl
    split
    · next hrefresh =>
      exact follows_elsewhere hs rfl hother fun hrests => absurd hrests (hkeeps hrefresh)
    · refine follows_policies [(h, _)] fun m hm => ?_
      obtain ⟨h', hwaits, hkey⟩ := hs m hm
      by_cases hh : h' = h
      · rw [hh] at hwaits hkey
        unfold waitsHidden at hwaits
        rw [Bool.and_eq_true] at hwaits
        exact .inl ⟨_, List.mem_cons_self, hwaits.1, hkey⟩
      · exact .inr ⟨h', by rwa [hother h' hh], hkey⟩
  · split
    · exact hs
    · have hempty : Follows modelKey { s with desiredPaths := s.desiredPaths.insert h ∅ } :=
        follows_congr hs rfl fun _ => rfl
      split
      · exact hempty
      · exact follows_congr (follows_policies [(h, _)] (follows_soon hempty)) rfl
          fun _ => rfl

theorem follows_releaseInterface (hs : Follows modelKey s) (h : H) (p : P)
    (meets : InterfaceMeets) : Follows modelKey (releaseInterface modelKey s h p meets) := by
  unfold releaseInterface
  split
  · exact hs
  · next removed keep htake =>
    split
    · exact hs
    · split
      · exact follows_congr hs rfl fun _ => rfl
      · exact follows_congr hs rfl fun _ => rfl
      · have hother (h' : H) (hh : h' ≠ h) : waitsHidden
            (storeGrabbedDevices (closeHandle s removed.id true) h keep) h' = waitsHidden s h' := by
          refine waits_congr rfl ?_
          rw [devices_store, if_neg hh]
          rfl
        have hhere := devices_store_self (closeHandle s removed.id true) h keep
        have hno : ¬ RestsOn modelKey s h := by
          intro hrests
          have hnil := (rests_waits hs hrests).2
          rw [hnil] at htake
          cases htake
        have hstored : Follows modelKey
            (storeGrabbedDevices (closeHandle s removed.id true) h keep) :=
          follows_elsewhere hs rfl hother fun hrests => absurd hrests hno
        simp only
        split
        · exact hstored
        · next hkeep =>
          rw [not_not] at hkeep
          split
          · split
            · next hhides =>
              refine follows_enable (followsBut_of_elsewhere hs rfl hother) ?_
              unfold waitsHidden
              rw [hhides, hhere, decide_eq_true hkeep]
              rfl
            · exact hstored
          · refine follows_elsewhere hs rfl (fun h' hh => ?_) fun hrests => absurd hrests hno
            rw [← hother h' hh]
            exact waits_congr (Dict.get?_erase_of_ne _ hh) rfl

end Releases

/-! ## Runs -/

section Runs

variable {s t : State H P C M}

theorem follows_step {a : Step H P C} (hlinked : Linked s) (hs : Follows modelKey s)
    (hkeeps : KeepsFlag modelKey s a) (hstep : step modelKey s a = some t) :
    Follows modelKey t := by
  cases a with
  | grab h plan meets =>
    cases hstep
    exact follows_grabDevice modelKey hlinked hs h plan meets hkeeps
  | release h meets =>
    cases hstep
    exact follows_releaseDevice hs h meets
  | releaseAll meets =>
    cases hstep
    exact follows_releaseEach meets (follows_soon hs) _
  | schedule h meets =>
    cases hstep
    exact follows_schedule hs h meets hkeeps
  | setMapping h
  | press device
  | letUp device =>
    cases hstep
    exact follows_congr hs rfl fun _ => rfl
  | releaseInterface h p meets =>
    cases hstep
    exact follows_releaseInterface hs h p meets
  | fire task pressed meets interface =>
    obtain ⟨timer, -, rfl⟩ := Option.map_eq_some_iff.mp hstep
    have hended : Follows modelKey { s with timers := s.timers.erase task } :=
      follows_congr hs rfl fun _ => rfl
    cases timer with
    | hardware h =>
      change Follows modelKey (fireHardware modelKey s task h pressed meets)
      unfold fireHardware
      simp only
      split
      · exact hended
      · split
        · exact follows_congr hs rfl fun _ => rfl
        · exact hs
        · have hstopped : Follows modelKey
              (readerStops { s with timers := s.timers.erase task } pressed) :=
            follows_congr hs rfl fun _ => rfl
          exact follows_releaseDevice hstopped h meets
    | interface h p =>
      change Follows modelKey (fireInterface modelKey s task h p interface)
      have herased : Follows modelKey { s with
          timers := s.timers.erase task
          pendingInterface := s.pendingInterface.erase (h, p) } :=
        follows_congr hs rfl fun _ => rfl
      unfold fireInterface
      simp only
      split
      · exact hended
      · split
        · exact herased
        · exact follows_releaseInterface herased h p interface

/-- In every run of such steps a model is hidden only while somebody waits for it. -/
theorem hidden_models_awaited {as : List (Step H P C)}
    (hguarded : Guarded (step modelKey) (KeepsFlag modelKey) ({} : State H P C M) as)
    (hrun : run (step modelKey) {} as = some s) : Follows modelKey s := by
  have hboth := guarded_run_invariant
    (I := fun s : State H P C M => Linked s ∧ Follows modelKey s)
    (fun s a t hinv hkeeps hstep => ⟨linked_step modelKey hinv.1 hstep,
      follows_step modelKey hinv.1 hinv.2 hkeeps hstep⟩)
    ⟨linked_initial, fun m hm => by simp at hm⟩ hguarded hrun
  exact hboth.2

end Runs

/-! ### A flag that nobody waits for -/

/-- A request for all gamepads of a model, of which none is there. -/
def absentGamepad : Plan Nat Unit := { planOf [] with hidesSource := true }

/-- The interfaces of the model have none of the mapped keys. -/
def noneMapped : GrabMeets Nat := { interface := fun _ => .unmapped }

theorem absent_gamepad_awaited :
    ∃ s, run (step fun _ => some 0) ({} : State Nat Nat Unit Nat)
        [.grab 0 (some absentGamepad) allGrabbed] = some s ∧
      s.hiddenModels = {0} ∧ Follows (fun _ => some 0) s := by
  have hhidden : (run (step fun _ => some 0) ({} : State Nat Nat Unit Nat)
      [.grab 0 (some absentGamepad) allGrabbed]).any (fun s => s.hiddenModels = {0}) = true := by
    decide
  obtain ⟨s, hrun, hs⟩ := (Option.any_eq_true _ _).mp hhidden
  rw [decide_eq_true_eq] at hs
  have hguarded : Guarded (step fun _ => some 0) (KeepsFlag fun _ => some 0)
      ({} : State Nat Nat Unit Nat) [.grab 0 (some absentGamepad) allGrabbed] := by
    refine ⟨?_, trivial⟩
    intro plan _ tried _ hrests
    obtain ⟨m, hm, -⟩ := hrests
    exact absurd hm (Finset.notMem_empty m)
  exact ⟨s, hrun, hs, hidden_models_awaited (fun _ => some 0) hguarded hrun⟩

/-- The hardware is requested as a keyboard that has none of the mapped keys: the request
fails, what is desired is the keyboard, and the model stays hidden. -/
theorem unmatched_grab_keeps_model_hidden :
    ∃ s, run (step fun _ => some 0) ({} : State Nat Nat Unit Nat)
        [.grab 0 (some absentGamepad) allGrabbed, .grab 0 (some (planOf [1])) noneMapped] =
          some s ∧
      ¬ Follows (fun _ => some 0) s := by
  have hhidden : (run (step fun _ => some 0) ({} : State Nat Nat Unit Nat)
      [.grab 0 (some absentGamepad) allGrabbed, .grab 0 (some (planOf [1])) noneMapped]).any
      (fun s => 0 ∈ s.hiddenModels ∧ s.desiredGrabs.keys = [0] ∧
        waitsHidden s 0 = false) = true := by
    decide
  obtain ⟨s, hrun, hs⟩ := (Option.any_eq_true _ _).mp hhidden
  rw [decide_eq_true_eq] at hs
  obtain ⟨hflag, hkeys, hwaits⟩ := hs
  refine ⟨s, hrun, fun hfollows => ?_⟩
  obtain ⟨h, hwait, -⟩ := hfollows 0 hflag
  by_cases hh : h = 0
  · rw [hh, hwaits] at hwait
    cases hwait
  · have hnone : s.desiredGrabs.get? h = none := by
      rw [Dict.get?_eq_none_iff, hkeys]
      simp [hh]
    unfold waitsHidden at hwait
    rw [hnone] at hwait
    cases hwait

end Keymasq.Grab.Hiding
