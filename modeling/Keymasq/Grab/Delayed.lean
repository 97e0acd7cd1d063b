import Keymasq.Grab.Tracking

/-!
# The delayed release of unwanted hardware

Hardware of which nothing is desired keeps its devices until a timer lets them go.
-/

namespace Keymasq.Grab.Delayed
open Foundation Transition Transactions Tables Acquisition Rollback Tracking


variable {H P C M : Type} [DecidableEq H] [DecidableEq P]

/-- Grabbed devices, and an empty set of desired paths. -/
def Unwanted (s : State H P C M) (h : H) : Prop :=
  devices s h ≠ [] ∧ s.desiredPaths.get? h = some ∅

/-- The hardware has a delayed release whose timer is there. -/
def Awaited (s : State H P C M) (h : H) : Prop :=
  ∃ task, s.pendingHardware.get? h = some task ∧ s.timers.get? task = some (.hardware h)

/-- A delayed hardware release that changes the devices has nothing desired and no held
source input, when the devices are let go. -/
def LetsGoUnwanted (s : State H P C M) (t : State H P C M) : Step H P C → Prop
  | .fire task pressed _ _ => ∀ h, s.timers.get? task = some (.hardware h) →
      devices t h ≠ devices s h →
        s.desiredPaths.getD h ∅ = ∅ ∧ hardwareHasHeldInputs (readerStops s pressed) h = false
  | _ => True

/-- The release of a hardware ends before all of its devices were tried. -/
def CutShort (s : State H P C M) (h : H) (meets : ReleaseMeets) : Prop :=
  meets.aborts = true ∨ ∃ d ∈ devices s h, ∃ closed, meets.device d.id = .cancelled closed

/-- Unwanted hardware gets no mapping, no grab that fails in its plan or is rolled back,
and no release that is cut short; a grab without paths is for hardware without devices, a
request for a delayed release is cancelled only if there is one already, and no key is
read while the readers are stopped. -/
def KeepsRelease (s : State H P C M) : Step H P C → Prop
  | .grab h plan meets =>
    (plan = none → ¬ Unwanted s h) ∧ ∀ plan', plan = some plan' →
      (RollsBack (attempts (transaction s h true plan') meets plan'.requestedPaths) →
        ¬ Unwanted s h) ∧
      (plan'.desiredPaths = ∅ → devices s h = [])
  | .release h meets => CutShort s h meets → ¬ Unwanted s h
  | .releaseAll meets => ∀ h, CutShort s h (meets h) → ¬ Unwanted s h
  | .schedule h meets => meets = .refreshCancelled → devices s h ≠ [] →
      (s.desiredGrabs.get? h).any Config.hidesSource = true → s.pendingHardware.get? h ≠ none
  | .setMapping h => ¬ Unwanted s h
  | .fire task pressed meets _ => ∀ h, s.timers.get? task = some (.hardware h) →
      (CutShort s h meets → ¬ Unwanted s h) ∧ ∀ d ∈ devices s h, d.id ∉ pressed
  | _ => True

/-! ## One hardware at a time -/

/-- What the rule reads of a hardware. -/
def view (s : State H P C M) (h : H) : List (Device P) × Option (Finset P) × Option Nat :=
  (devices s h, s.desiredPaths.get? h, s.pendingHardware.get? h)

/-- A hardware that is unwanted has a pending release. -/
def Awaits (s : State H P C M) (h : H) : Prop := Unwanted s h → s.pendingHardware.get? h ≠ none

section Views

variable {s t : State H P C M} {h : H}

omit [DecidableEq P] in
theorem unwanted_congr (hview : view t h = view s h) : Unwanted t h ↔ Unwanted s h := by
  obtain ⟨hdevices, hrest⟩ := Prod.mk.inj hview
  obtain ⟨hdesired, -⟩ := Prod.mk.inj hrest
  unfold Unwanted
  rw [hdevices, hdesired]

omit [DecidableEq P] in
theorem awaits_congr (hview : view t h = view s h) (hs : Awaits s h) : Awaits t h := by
  obtain ⟨-, hrest⟩ := Prod.mk.inj hview
  obtain ⟨-, hpending⟩ := Prod.mk.inj hrest
  intro hunwanted
  rw [hpending]
  exact hs ((unwanted_congr hview).mp hunwanted)

omit [DecidableEq P] in
/-- A step on one hardware. -/
theorem awaits_elsewhere (hs : ∀ h', Awaits s h') (hother : ∀ h', h' ≠ h → view t h' = view s h')
    (hhere : Awaits t h) (h' : H) : Awaits t h' := by
  by_cases hh : h' = h
  · rw [hh]
    exact hhere
  · exact awaits_congr (hother h' hh) (hs h')

end Views

/-! ## Grabs -/

section Grabs

variable {s s₀ s' : State H P C M} {t : Transaction H P C} {meets : GrabMeets P}
  {new : List (Device P)} {tried : List (P × Interface)}

variable [DecidableEq M]

omit [DecidableEq H] in
theorem mem_of_mem_attempts {paths : List P} {p : P} {i : Interface}
    (hmem : (p, i) ∈ attempts t meets paths) : p ∈ paths := by
  induction paths with
  | nil => cases hmem
  | cons q rest ih =>
    unfold attempts at hmem
    split at hmem
    · exact List.mem_cons_of_mem _ (ih hmem)
    · cases hi : meets.interface q with
      | fails isOpen =>
        rw [hi, List.mem_singleton] at hmem
        cases hmem
        exact List.mem_cons_self
      | cancelled isOpen =>
        rw [hi, List.mem_singleton] at hmem
        cases hmem
        exact List.mem_cons_self
      | _ =>
        rw [hi] at hmem
        obtain heq | hrest := List.mem_cons.mp hmem
        · cases heq
          exact List.mem_cons_self
        · exact List.mem_cons_of_mem _ (ih hrest)

omit [DecidableEq M] in
/-- Between two paths nothing but the table of the hardware has changed. -/
theorem view_midway (h : Prepared s s₀ t) (hupdate : t.updateDesired = true)
    (hmidway : Midway t meets s₀ s' new tried) (h' : H) :
    view s' h' = if h' = t.hardware then
      (t.existing ++ new, some t.plan.desiredPaths, none) else view s h' := by
  obtain ⟨hgrabbed, -, -, hhardware⟩ := h.fields
  obtain ⟨hpaths, -⟩ := prepare_desired (cancelPendingHardwareRelease s t.hardware) t
  rw [← h.start, if_pos hupdate] at hpaths
  have hsame := hmidway.same
  unfold view
  rw [hmidway.table, show s'.desiredPaths = s₀.desiredPaths by rw [hsame],
    show s'.pendingHardware = s₀.pendingHardware by rw [hsame], hpaths, hhardware]
  split
  · next hh => rw [hh, Dict.get?_insert_self, Dict.get?_erase_self]
  · next hh =>
    rw [Dict.get?_insert_of_ne _ _ hh, Dict.get?_erase_of_ne _ hh, devices_congr hgrabbed]
    rfl

omit [DecidableEq M] in
/-- Without desired paths nothing is tried, so nothing is grabbed. -/
theorem no_desired (hdesired : t.plan.desiredPaths = ∅)
    (hmidway : Midway t meets s₀ s' new tried)
    (hsub : ∀ q ∈ tried, q ∈ attempts t meets t.plan.requestedPaths) : new = [] := by
  rw [List.eq_nil_iff_forall_not_mem]
  intro d hd
  obtain ⟨exclusive, -, hmem⟩ := hmidway.source d hd
  have hpath := t.plan.requested_desired _ (mem_of_mem_attempts (hsub _ hmem))
  rw [hdesired] at hpath
  exact absurd hpath (Finset.notMem_empty _)

omit [DecidableEq P] [DecidableEq M] in
/-- The hardware is desired, or has no devices. -/
theorem awaits_of_desired {u : State H P C M} {h : H} {ds : List (Device P)} {paths : Finset P}
    (hview : view u h = (ds, some paths, none)) (hempty : paths = ∅ → ds = []) : Awaits u h := by
  obtain ⟨hdevices, hrest⟩ := Prod.mk.inj hview
  obtain ⟨hdesired, -⟩ := Prod.mk.inj hrest
  intro hunwanted
  have hpaths := hunwanted.2
  rw [hdesired] at hpaths
  rw [Option.some.inj hpaths] at hempty
  exact absurd (by rw [hdevices, hempty rfl]) hunwanted.1

omit [DecidableEq P] in
theorem view_finalize (modelKey : H → Option M) {u : State H P C M} {finish : Finish}
    {available : Nat} (htable : devices u t.hardware = t.existing ++ new) (h : H) :
    view (finalizeGrab modelKey u t finish new available).1 h = view u h := by
  have hstored : view (storeGrabbedDevices u t.hardware (t.existing ++ new)) h = view u h := by
    unfold view
    rw [devices_store]
    split
    · next hh =>
      rw [hh, htable]
      rfl
    · rfl
  unfold finalizeGrab
  simp only
  split
  · rfl
  · split
    · exact hstored
    · split
      · split
        · exact hstored
        · exact hstored
      · exact hstored

theorem restore_get?_of_ne {κ ν : Type} [DecidableEq κ] (d : Dict κ ν) {k k' : κ} (v : Option ν)
    (hk : k' ≠ k) : (restore d k v).get? k' = d.get? k' := by
  cases v with
  | none => exact Dict.get?_erase_of_ne d hk
  | some v => exact Dict.get?_insert_of_ne d v hk

omit [DecidableEq M] in
theorem view_rollback (hp : Prepared s s₀ t) (hupdate : t.updateDesired = true)
    (hmidway : Midway t meets s₀ s' new tried) {isOpen : Bool}
    (hdone : (releaseNew (openHandle s' isOpen) meets.rollback new).2 = .done) (h : H) :
    view (rollbackFailedGrab (openHandle s' isOpen) t meets.rollback new) h =
      if h = t.hardware then (devices s h, s.desiredPaths.get? h, none) else view s h := by
  obtain ⟨htable, hpaths, -, hpending, -, -⟩ := rollback_done (t := t) hdone
  have hview := view_midway hp hupdate hmidway h
  rw [if_pos hupdate] at hpaths
  have hprevious : t.previousPaths = s.desiredPaths.get? t.hardware := by
    rw [hp.transaction]
    rfl
  unfold view at hview ⊢
  rw [htable, hpaths, hpending]
  change (_, (restore s'.desiredPaths t.hardware t.previousPaths).get? h,
    s'.pendingHardware.get? h) = _
  split
  · next hh =>
    rw [hh, if_pos rfl] at hview
    obtain ⟨-, hrest⟩ := Prod.mk.inj hview
    rw [hh, hp.existing, restore_get?, hprevious, (Prod.mk.inj hrest).2]
  · next hh =>
    rw [if_neg hh] at hview
    rw [← hview, restore_get?_of_ne _ _ hh]
    rfl

theorem awaits_acquire (modelKey : H → Option M) (hs : ∀ h, Awaits s h) (hp : Prepared s s₀ t)
    (hupdate : t.updateDesired = true)
    (hrolls : RollsBack (attempts t meets t.plan.requestedPaths) → ¬ Unwanted s t.hardware)
    (hempty : t.plan.desiredPaths = ∅ → t.existing = []) (h : H) :
    Awaits (acquire modelKey t meets s₀ [] 0 t.plan.requestedPaths).1 h := by
  obtain ⟨s', new, tried, hmidway, -, hends⟩ :=
    acquire_ends modelKey (hp.midway meets) t.plan.requestedPaths
  have hview := view_midway hp hupdate hmidway
  have htable := hmidway.table t.hardware
  rw [if_pos rfl] at htable
  have hnew (hdesired : t.plan.desiredPaths = ∅) := no_desired hdesired hmidway
  generalize acquire modelKey t meets s₀ [] 0 t.plan.requestedPaths = r at hends ⊢
  generalize attempts t meets t.plan.requestedPaths = all at hends hrolls hnew
  -- The state keeps what is desired.
  have hkeeps (u : State H P C M) (hu : ∀ h, view u h = view s' h)
      (hsub : ∀ q ∈ tried, q ∈ all) : Awaits u h := by
    refine awaits_elsewhere hs (h := t.hardware) (fun h' hh => ?_) ?_ h
    · rw [hu, hview, if_neg hh]
    · have hhere := hu t.hardware
      rw [hview, if_pos rfl] at hhere
      refine awaits_of_desired hhere fun hnone => ?_
      rw [hempty hnone, hnew hnone hsub, List.append_nil]
  cases hends with
  | finalized available hall _ =>
    subst hall
    exact hkeeps _ (view_finalize modelKey htable) fun _ hq => hq
  | rolledBack p isOpen hall =>
    subst hall
    cases hraised : (releaseNew (openHandle s' isOpen) meets.rollback new).2 with
    | raised =>
      refine hkeeps _ (fun h => ?_) fun q hq => List.mem_append_left _ hq
      rw [rollback_raised hraised, releaseNew_same]
      rfl
    | done =>
      have hrolled := view_rollback hp hupdate hmidway hraised
      refine awaits_elsewhere hs (h := t.hardware) (fun h' hh => ?_) ?_ h
      · rw [hrolled, if_neg hh]
      · have hhere := hrolled t.hardware
        rw [if_pos rfl] at hhere
        obtain ⟨hdevices, hrest⟩ := Prod.mk.inj hhere
        obtain ⟨hdesired, -⟩ := Prod.mk.inj hrest
        intro hunwanted
        unfold Unwanted at hunwanted
        rw [hdevices, hdesired] at hunwanted
        exact absurd hunwanted (hrolls ⟨p, isOpen, List.mem_append_right _ List.mem_cons_self⟩)
  | left p isOpen hall =>
    subst hall
    exact hkeeps _ (fun _ => rfl) fun q hq => List.mem_append_left _ hq

theorem awaits_grabDevice (modelKey : H → Option M) (hlinked : Linked s) (hs : ∀ h, Awaits s h)
    (h : H) (plan : Option (Plan P C)) (meets : GrabMeets P)
    (hkeeps : KeepsRelease s (.grab h plan meets)) (h' : H) :
    Awaits (grabDevice modelKey s h true plan meets).1 h' := by
  unfold grabDevice
  cases plan with
  | none =>
    refine awaits_elsewhere hs (h := h) (fun h' hh => ?_) (fun hunwanted => ?_) h'
    · change (_, _, (s.pendingHardware.erase h).get? h') = _
      rw [Dict.get?_erase_of_ne _ hh]
      rfl
    · exact absurd hunwanted (hkeeps.1 rfl)
  | some plan =>
    obtain ⟨hrolls, hempty⟩ := hkeeps.2 plan rfl
    exact awaits_acquire modelKey (t := transaction s h true plan) hs ⟨hlinked, rfl, rfl⟩ rfl
      hrolls hempty h'

end Grabs

/-! ## Releases -/

section Releases

variable {s : State H P C M}

omit [DecidableEq H] [DecidableEq P] in
theorem letGo_raised {s : State H P C M} {meets : Nat → Release} {ds : List (Device P)}
    (hraised : (letGo s meets ds).2.2 = .raised) :
    ∃ d ∈ ds, ∃ closed, meets d.id = .cancelled closed := by
  induction ds generalizing s with
  | nil => cases hraised
  | cons d ds ih =>
    unfold letGo at hraised
    split at hraised
    · obtain ⟨e, he, hcancelled⟩ := ih hraised
      exact ⟨e, List.mem_cons_of_mem _ he, hcancelled⟩
    · obtain ⟨e, he, hcancelled⟩ := ih hraised
      exact ⟨e, List.mem_cons_of_mem _ he, hcancelled⟩
    · next closed heq => exact ⟨d, List.mem_cons_self, closed, heq⟩

/-- The hardware has nothing pending any more; if the release is not cut short, nothing
is desired of it. -/
theorem view_releaseTables (s : State H P C M) (h : H) (meets : ReleaseMeets) :
    (∀ h', h' ≠ h → view (releaseTables s h meets).1 h' = view s h') ∧
      (¬ CutShort s h meets → (releaseTables s h meets).1.desiredPaths.get? h = none) ∧
      ((releaseTables s h meets).1.desiredPaths.get? h = some ∅ →
        devices (releaseTables s h meets).1 h ≠ [] → Unwanted s h) := by
  have hcancelled := sameTables_cancelInterfaces (cancelPendingHardwareRelease s h) h
  unfold SameTables at hcancelled
  unfold releaseTables
  simp only
  generalize cancelPendingInterfaceReleases (cancelPendingHardwareRelease s h) h = u
    at hcancelled ⊢
  have hgrabbed : u.grabbed = s.grabbed := by
    rw [hcancelled]
    rfl
  have hpaths : u.desiredPaths = s.desiredPaths := by
    rw [hcancelled]
    rfl
  have hpending : u.pendingHardware = s.pendingHardware.erase h := by
    rw [hcancelled]
    rfl
  have hdevices (h' : H) : devices u h' = devices s h' := devices_congr hgrabbed h'
  split
  · next haborts =>
    refine ⟨fun h' hh => ?_, fun hnot => absurd (.inl haborts) hnot, fun hdesired hne => ?_⟩
    · unfold view
      rw [hdevices, hpaths, hpending, Dict.get?_erase_of_ne _ hh]
    · rw [hdevices] at hne
      rw [hpaths] at hdesired
      exact ⟨hne, hdesired⟩
  · have hspec := (letGo_spec { u with
      desiredGrabs := u.desiredGrabs.erase h, grabbed := u.grabbed.erase h } meets.device
      (devices u h)).1
    have hcut (hraised : (letGo { u with
        desiredGrabs := u.desiredGrabs.erase h, grabbed := u.grabbed.erase h } meets.device
        (devices u h)).2.2 = .raised) := letGo_raised hraised
    have hview (v : State H P C M) (ds : List (Device P)) (hv : v = { u with
        desiredGrabs := u.desiredGrabs.erase h
        grabbed := u.grabbed.erase h
        handles := v.handles }) (h' : H) (hh : h' ≠ h) :
        view (storeGrabbedDevices v h ds) h' = view s h' := by
      unfold view
      rw [devices_store, if_neg hh]
      change (devices v h', v.desiredPaths.get? h', v.pendingHardware.get? h') = _
      rw [hv]
      change (devices { u with grabbed := u.grabbed.erase h } h', u.desiredPaths.get? h',
        u.pendingHardware.get? h') = _
      rw [hpaths, hpending, Dict.get?_erase_of_ne _ hh, ← hdevices]
      unfold devices Dict.getD
      rw [Dict.get?_erase_of_ne _ hh]
    split
    · next v unreleased heq =>
      rw [heq] at hspec hcut
      simp only at hspec
      obtain ⟨d, hd, hcancel⟩ := hcut rfl
      rw [hdevices] at hd
      refine ⟨fun h' hh => hview v unreleased hspec h' hh, fun hnot => ?_, fun hdesired _ => ?_⟩
      · exact absurd (.inr ⟨d, hd, hcancel⟩) hnot
      · change v.desiredPaths.get? h = some ∅ at hdesired
        rw [hspec] at hdesired
        change u.desiredPaths.get? h = some ∅ at hdesired
        rw [hpaths] at hdesired
        exact ⟨List.ne_nil_of_mem hd, hdesired⟩
    · next v unreleased heq =>
      rw [heq] at hspec
      refine ⟨fun h' hh => ?_, fun _ => Dict.get?_erase_self _ _, fun hdesired => ?_⟩
      · rw [← hview v unreleased hspec h' hh]
        unfold view
        simp only [Dict.get?_erase_of_ne _ hh]
        rfl
      · simp only [Dict.get?_erase_self] at hdesired
        cases hdesired

theorem awaits_releaseTables (hs : ∀ h, Awaits s h) (h : H) (meets : ReleaseMeets)
    (hkeeps : CutShort s h meets → ¬ Unwanted s h) (h' : H) :
    Awaits (releaseTables s h meets).1 h' := by
  obtain ⟨hother, hdone, hcut⟩ := view_releaseTables s h meets
  refine awaits_elsewhere hs (h := h) hother (fun hunwanted => ?_) h'
  by_cases hshort : CutShort s h meets
  · exact absurd (hcut hunwanted.2 hunwanted.1) (hkeeps hshort)
  · have hnone := hunwanted.2
    rw [hdone hshort] at hnone
    cases hnone

variable (modelKey : H → Option M)

variable [DecidableEq M]

theorem awaits_releaseDevice (hs : ∀ h, Awaits s h) (h : H) (meets : ReleaseMeets)
    (hkeeps : CutShort s h meets → ¬ Unwanted s h) (h' : H) :
    Awaits (releaseDevice modelKey s h meets) h' :=
  awaits_releaseTables hs h meets hkeeps h'

omit [DecidableEq P] in
theorem awaits_runPolicies (hs : ∀ h, Awaits s h) (policy : List (H × Bool)) (h : H) :
    Awaits (policy.foldl (fun s entry => runPolicy modelKey s entry.1 entry.2) s) h := by
  induction policy generalizing s with
  | nil => exact hs h
  | cons entry policy ih => exact ih fun h => hs h

/-- The releases of different hardware do not meet. -/
theorem awaits_releaseEach (meets : H → ReleaseMeets) (hs : ∀ h, Awaits s h)
    (policy : List (H × Bool)) (hardware : List H) (hnodup : hardware.Nodup)
    (hkeeps : ∀ h ∈ hardware, CutShort s h (meets h) → ¬ Unwanted s h) (h' : H) :
    Awaits (releaseEach modelKey meets s policy hardware) h' := by
  induction hardware generalizing s policy with
  | nil => exact awaits_runPolicies modelKey hs policy h'
  | cons h hardware ih =>
    have hother := (view_releaseTables s h (meets h)).1
    have htables := awaits_releaseTables hs h (meets h) (hkeeps h List.mem_cons_self)
    obtain ⟨hnotin, hnodup⟩ := List.nodup_cons.mp hnodup
    unfold releaseEach
    simp only
    split
    · exact awaits_runPolicies modelKey htables _ h'
    · refine ih htables _ hnodup fun e he hcut => ?_
      have hne : e ≠ h := fun heq => hnotin (by rwa [← heq])
      rw [unwanted_congr (hother e hne)]
      refine hkeeps e (List.mem_cons_of_mem _ he) ?_
      unfold CutShort at hcut ⊢
      rwa [(Prod.mk.inj (hother e hne)).1] at hcut

theorem awaits_releaseInterface (hs : ∀ h, Awaits s h) (h : H) (p : P) (meets : InterfaceMeets)
    (h' : H) : Awaits (releaseInterface modelKey s h p meets) h' := by
  unfold releaseInterface
  split
  · exact hs h'
  · next removed keep htake =>
    split
    · exact hs h'
    · split
      · exact hs h'
      · exact hs h'
      · have hother (h' : H) (hh : h' ≠ h) :
            view (storeGrabbedDevices (closeHandle s removed.id true) h keep) h' = view s h' := by
          unfold view
          rw [devices_store, if_neg hh]
          rfl
        have hhere := devices_store_self (closeHandle s removed.id true) h keep
        have hne : devices s h ≠ [] := by
          intro hnil
          rw [hnil] at htake
          cases htake
        have hstored (h' : H) :
            Awaits (storeGrabbedDevices (closeHandle s removed.id true) h keep) h' := by
          refine awaits_elsewhere hs (h := h) hother (fun hunwanted => ?_) h'
          exact hs h ⟨hne, hunwanted.2⟩
        simp only
        split
        · exact hstored h'
        · next hkeep =>
          rw [not_not] at hkeep
          split
          · split
            · exact hstored h'
            · exact hstored h'
          · refine awaits_elsewhere hstored (h := h) (fun h' hh => ?_) (fun hunwanted => ?_) h'
            · unfold view
              simp only [Dict.get?_erase_of_ne _ hh]
              rfl
            · exact absurd (hhere.trans hkeep) hunwanted.1

theorem awaits_schedule (hs : ∀ h, Awaits s h) (h : H) (meets : ScheduleMeets)
    (hkeeps : KeepsRelease s (.schedule h meets : Step H P C)) (h' : H) :
    Awaits (scheduleHardwareRelease modelKey s h meets) h' := by
  unfold scheduleHardwareRelease
  simp only
  split
  · next hnil =>
    have hgone : ∀ h', Awaits { s with
        desiredGrabs := s.desiredGrabs.erase h, desiredPaths := s.desiredPaths.erase h } h' := by
      refine awaits_elsewhere hs (h := h) (fun h' hh => ?_) fun hunwanted => ?_
      · unfold view
        simp only [Dict.get?_erase_of_ne _ hh]
        rfl
      · exact absurd hnil hunwanted.1
    split
    · exact hgone h'
    · exact hgone h'
  · next hne =>
    split
    · exact hs h'
    · split
      · next hrefresh =>
        refine awaits_elsewhere hs (h := h) (fun h' hh => ?_) (fun _ => ?_) h'
        · unfold view
          simp only [Dict.get?_insert_of_ne _ _ hh]
          rfl
        · exact hkeeps hrefresh.1 hne hrefresh.2
      · refine awaits_elsewhere hs (h := h) (fun h' hh => ?_) (fun _ => ?_) h'
        · unfold view
          simp only [cancelPendingHardwareRelease, cancelTask, runPolicy,
            Dict.get?_insert_of_ne _ _ hh, Dict.get?_erase_of_ne _ hh]
          rfl
        · simp only [Dict.get?_insert_self]
          simp

end Releases

/-! ## Runs -/

section Runs

variable (modelKey : H → Option M) {s t : State H P C M}

variable [DecidableEq M]

theorem awaits_fireHardware (hs : ∀ h, Awaits s h) {task : Nat} {h : H} (pressed : List Nat)
    (meets : ReleaseMeets) (hkeeps : CutShort s h meets → ¬ Unwanted s h) (h' : H) :
    Awaits (fireHardware modelKey s task h pressed meets) h' := by
  unfold fireHardware
  simp only
  split
  · exact hs h'
  · split
    · next hdecision =>
      refine awaits_elsewhere hs (h := h) (fun h' hh => ?_) (fun hunwanted => ?_) h'
      · unfold view
        simp only [Dict.get?_erase_of_ne _ hh]
        rfl
      · have hdesired : s.desiredPaths.get? h = some ∅ := hunwanted.2
        unfold hardwareReleaseDecision at hdecision
        simp only [Dict.getD, hdesired, Option.getD_some, ne_eq, not_true, if_false] at hdecision
        split at hdecision
        · cases hdecision
        · cases hdecision
    · exact hs h'
    · exact awaits_releaseDevice modelKey (s := readerStops { s with
        timers := s.timers.erase task } pressed) hs h meets hkeeps h'

theorem awaits_step {a : Step H P C} (hlinked : Linked s) (hs : ∀ h, Awaits s h)
    (hkeeps : KeepsRelease s a) (hstep : step modelKey s a = some t) (h' : H) : Awaits t h' := by
  cases a with
  | grab h plan meets =>
    cases hstep
    exact awaits_grabDevice modelKey hlinked hs h plan meets hkeeps h'
  | release h meets =>
    cases hstep
    exact awaits_releaseDevice modelKey hs h meets hkeeps h'
  | releaseAll meets =>
    cases hstep
    exact awaits_releaseEach modelKey meets hs [] _ (List.nodup_dedup _) (fun h _ => hkeeps h) h'
  | schedule h meets =>
    cases hstep
    exact awaits_schedule modelKey hs h meets hkeeps h'
  | setMapping h =>
    cases hstep
    refine awaits_elsewhere hs (h := h) (fun h' hh => ?_) (fun hunwanted => ?_) h'
    · change (_, _, (s.pendingHardware.erase h).get? h') = _
      rw [Dict.get?_erase_of_ne _ hh]
      rfl
    · exact absurd hunwanted hkeeps
  | releaseInterface h p meets =>
    cases hstep
    exact awaits_releaseInterface modelKey hs h p meets h'
  | fire task pressed meets interface =>
    obtain ⟨timer, htimer, rfl⟩ := Option.map_eq_some_iff.mp hstep
    cases timer with
    | hardware h => exact awaits_fireHardware modelKey hs pressed meets (hkeeps h htimer).1 h'
    | interface h p =>
      change Awaits (fireInterface modelKey s task h p interface) h'
      unfold fireInterface
      simp only
      split
      · exact hs h'
      · split
        · exact hs h'
        · exact awaits_releaseInterface modelKey (s := { s with
            timers := s.timers.erase task
            pendingInterface := s.pendingInterface.erase (h, p) }) hs h p interface h'
  | press device =>
    cases hstep
    exact hs h'
  | letUp device =>
    cases hstep
    exact hs h'

/-- A timer that lets devices go has decided so, and no key was read after that. -/
theorem fire_lets_go {a : Step H P C} (hkeeps : KeepsRelease s a)
    (hstep : step modelKey s a = some t) : LetsGoUnwanted s t a := by
  cases a with
  | fire task pressed meets interface =>
    intro h htimer hgone
    obtain ⟨timer, htimer', rfl⟩ := Option.map_eq_some_iff.mp hstep
    rw [htimer] at htimer'
    cases htimer'
    have hpressed := (hkeeps h htimer).2
    change devices (fireHardware modelKey s task h pressed meets) h ≠ _ at hgone
    unfold fireHardware at hgone
    simp only at hgone
    split at hgone
    · exact absurd rfl hgone
    · split at hgone
      · exact absurd rfl hgone
      · exact absurd rfl hgone
      · next hdecision =>
        unfold hardwareReleaseDecision at hdecision
        split at hdecision
        · cases hdecision
        · next hdesired =>
          split at hdecision
          · cases hdecision
          · next hheld =>
            refine ⟨not_not.mp hdesired, ?_⟩
            rw [Bool.not_eq_true] at hheld
            unfold hardwareHasHeldInputs at hheld ⊢
            rw [List.any_eq_false] at hheld ⊢
            intro d hd
            have hnot := hheld d hd
            have hnew := hpressed d hd
            simp only [readerStops, decide_eq_true_eq, Finset.mem_union, List.mem_toFinset,
              not_or] at hnot ⊢
            exact ⟨hnot, hnew⟩
  | _ => trivial

/-- In every run of such steps: unwanted hardware has a delayed release, and a delayed
release lets devices go only if nothing is desired and nothing held. -/
theorem unwanted_hardware_awaited {as : List (Step H P C)}
    (hguarded : Guarded (step modelKey) KeepsRelease ({} : State H P C M) as)
    (hrun : run (step modelKey) {} as = some s) :
    (∀ h, Unwanted s h → Awaited s h) ∧
      ∀ a t, KeepsRelease s a → step modelKey s a = some t → LetsGoUnwanted s t a := by
  obtain ⟨hlinked, hawaits⟩ :=
    guarded_run_invariant (I := fun s : State H P C M => Linked s ∧ ∀ h, Awaits s h)
      (fun s a t hinv hkeeps hstep => ⟨linked_step modelKey hinv.1 hstep,
        awaits_step modelKey hinv.1 hinv.2 hkeeps hstep⟩)
      ⟨linked_initial, fun h hunwanted => absurd rfl hunwanted.1⟩ hguarded hrun
  refine ⟨fun h hunwanted => ?_, fun a t hkeeps hstep => fire_lets_go modelKey hkeeps hstep⟩
  obtain ⟨task, htask⟩ := Option.ne_none_iff_exists'.mp (hawaits h hunwanted)
  exact ⟨task, htask, hlinked.hardware h task htask⟩

/-- In every run a pending release is a timer that still runs and is its own, and the numbers of
tasks and handles are not given out again. -/
theorem pending_releases_linked {as : List (Step H P C)}
    (hrun : run (step modelKey) ({} : State H P C M) as = some s) : Linked s :=
  linked_run modelKey linked_initial hrun

end Runs

variable [DecidableEq M]

theorem pending_releases_linked_schedule :
    ∃ s, run (step fun _ => none) ({} : State Nat Nat Unit Nat)
        [.grab 0 (some (planOf [0])) allGrabbed, .schedule 0 .done] = some s ∧
      s.pendingHardware.get? 0 ≠ none ∧ Linked s := by
  have hpending : (run (step fun _ => none) ({} : State Nat Nat Unit Nat)
      [.grab 0 (some (planOf [0])) allGrabbed, .schedule 0 .done]).any (fun s =>
        s.pendingHardware.get? 0 ≠ none) = true := by
    decide
  obtain ⟨s, hrun, hs⟩ := (Option.any_eq_true _ _).mp hpending
  exact ⟨s, hrun, of_decide_eq_true hs, pending_releases_linked (fun _ => none) hrun⟩

/-! ### A device that nothing lets go -/

theorem scheduled_hardware_awaited :
    ∃ s, run (step fun _ => none) ({} : State Nat Nat Unit Nat)
        [.grab 0 (some (planOf [0])) allGrabbed, .schedule 0 .done] = some s ∧
      Unwanted s 0 ∧ Awaited s 0 := by
  have hunwanted : (run (step fun _ => none) ({} : State Nat Nat Unit Nat)
      [.grab 0 (some (planOf [0])) allGrabbed, .schedule 0 .done]).any (fun s =>
        devices s 0 ≠ [] ∧ s.desiredPaths.get? 0 = some ∅) = true := by
    decide
  obtain ⟨s, hrun, hs⟩ := (Option.any_eq_true _ _).mp hunwanted
  rw [decide_eq_true_eq] at hs
  have hgrab : KeepsRelease ({} : State Nat Nat Unit Nat)
      (.grab 0 (some (planOf [0])) allGrabbed) := by
    refine ⟨by simp, fun plan hplan => ⟨fun _ hunwanted => absurd rfl hunwanted.1, fun _ => rfl⟩⟩
  have hguarded : Guarded (step fun _ => none) KeepsRelease ({} : State Nat Nat Unit Nat)
      [.grab 0 (some (planOf [0])) allGrabbed, .schedule 0 .done] := by
    refine ⟨hgrab, ?_, trivial⟩
    intro hmeets
    cases hmeets
  exact ⟨s, hrun, hs, (unwanted_hardware_awaited (fun _ => none) hguarded hrun).1 0 hs⟩

/-- The grab that is rolled back takes the delayed release with it. -/
theorem rolled_back_grab_strands_hardware :
    ∃ s, run (step fun _ => none) ({} : State Nat Nat Unit Nat)
        [.grab 0 (some (planOf [0])) allGrabbed, .schedule 0 .done,
          .grab 0 (some (planOf [0, 1])) secondFails] = some s ∧
      Unwanted s 0 ∧ ¬ Awaited s 0 := by
  have hstranded : (run (step fun _ => none) ({} : State Nat Nat Unit Nat)
      [.grab 0 (some (planOf [0])) allGrabbed, .schedule 0 .done,
        .grab 0 (some (planOf [0, 1])) secondFails]).any (fun s =>
        (devices s 0 ≠ [] ∧ s.desiredPaths.get? 0 = some ∅) ∧
          s.pendingHardware.get? 0 = none) = true := by
    decide
  obtain ⟨s, hrun, hs⟩ := (Option.any_eq_true _ _).mp hstranded
  rw [decide_eq_true_eq] at hs
  refine ⟨s, hrun, hs.1, fun hawaited => ?_⟩
  obtain ⟨task, htask, -⟩ := hawaited
  rw [hs.2] at htask
  cases htask

end Keymasq.Grab.Delayed
