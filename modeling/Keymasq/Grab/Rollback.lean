import Keymasq.Grab.Acquisition

/-!
# What a failed grab leaves behind

An error of one interface is rolled back to the snapshot of the plan. The snapshot has
no pending release in it, and the other ways to fail are not rolled back at all.
-/

namespace Keymasq.Grab.Rollback
open Foundation Transition Transactions Tables Acquisition


variable {H P C M : Type} [DecidableEq H] [DecidableEq P]

/-- The tables of the hardware are as before, and no new device is open and grabbed. -/
structure Restored (s s' : State H P C M) (h : H) : Prop where
  grabbed : devices s' h = devices s h
  desiredPaths : s'.desiredPaths.get? h = s.desiredPaths.get? h
  desiredGrabs : s'.desiredGrabs.get? h = s.desiredGrabs.get? h
  pendingHardware : s'.pendingHardware.get? h = s.pendingHardware.get? h
  pendingInterface : ∀ p, s'.pendingInterface.get? (h, p) = s.pendingInterface.get? (h, p)
  handles : ∀ id ∈ s'.handles, id ∈ s.handles

/-! ## When it restores -/

/-- The configuration that a grab persists. -/
def desiredConfig (plan : Plan P C) : Config P C :=
  { paths := plan.desiredPaths, hidesSource := plan.hidesSource, settings := plan.settings }

/-- The error of an interface is rolled back. -/
def RollsBack (tried : List (P × Interface)) : Prop := ∃ p isOpen, (p, .fails isOpen) ∈ tried

/-- There was no pending release to lose, and every clean-up gets to the handle. -/
structure UndoesAll (s : State H P C M) (h : H) (rollback : P → Release)
    (tried : List (P × Interface)) : Prop where
  pending : ∀ p, s.pendingInterface.get? (h, p) = none
  closes : ∀ p, (p, Interface.gone true) ∉ tried ∧ (p, Interface.fails true) ∉ tried
  releases : ∀ p exclusive, (p, .grabs exclusive) ∈ tried →
    (∀ closed, rollback p ≠ .cancelled closed) ∧ (exclusive = true → rollback p ≠ .fails false)

/-- Nothing has been changed that a rollback would have had to undo. -/
structure NothingToUndo (s : State H P C M) (h : H) (updateDesired : Bool) (plan : Plan P C)
    (tried : List (P × Interface)) : Prop where
  desired : updateDesired = true → s.desiredPaths.get? h = some plan.desiredPaths ∧
    s.desiredGrabs.get? h = some (desiredConfig plan)
  existing : ∀ d ∈ devices s h,
    kept plan d = true ∧ s.pendingInterface.get? (h, d.path) = none
  closes : ∀ p, (p, Interface.gone true) ∉ tried ∧ (p, Interface.cancelled true) ∉ tried
  grabs : ∀ p exclusive, (p, Interface.grabs exclusive) ∉ tried

def RestoresWhen (s : State H P C M) (h : H) (updateDesired : Bool) (plan : Option (Plan P C))
    (meets : GrabMeets P) : Prop :=
  s.pendingHardware.get? h = none ∧ ∀ plan', plan = some plan' →
    let tried := attempts (transaction s h updateDesired plan') meets plan'.requestedPaths
    (RollsBack tried → UndoesAll s h meets.rollback tried) ∧
    (¬ RollsBack tried → NothingToUndo s h updateDesired plan' tried)

/-! ## The parts of a grab -/

section Parts

variable {s s₀ u : State H P C M} {t : Transaction H P C} {meets : GrabMeets P}
  {new : List (Device P)} {tried : List (P × Interface)}

theorem prepare_grabbed (s : State H P C M) (t : Transaction H P C) :
    (prepare s t).grabbed = s.grabbed ∧ (prepare s t).handles = s.handles ∧
      (prepare s t).nextDevice = s.nextDevice ∧
      (prepare s t).pendingHardware = s.pendingHardware ∧
      (prepare s t).hiddenModels = s.hiddenModels ∧ (prepare s t).held = s.held := by
  unfold prepare
  simp only
  have hsame := sameTables_reconcile (if t.updateDesired = true then
    persistDesiredGrab s t.hardware t.plan else s) t.hardware t.plan t.existing
  unfold SameTables at hsame
  rw [hsame]
  split
  · exact ⟨rfl, rfl, rfl, rfl, rfl, rfl⟩
  · exact ⟨rfl, rfl, rfl, rfl, rfl, rfl⟩

theorem prepare_desired (s : State H P C M) (t : Transaction H P C) :
    (prepare s t).desiredPaths = (if t.updateDesired then
      s.desiredPaths.insert t.hardware t.plan.desiredPaths else s.desiredPaths) ∧
    (prepare s t).desiredGrabs = (if t.updateDesired then
      s.desiredGrabs.insert t.hardware (desiredConfig t.plan) else s.desiredGrabs) := by
  unfold prepare
  simp only
  have hsame := sameTables_reconcile (if t.updateDesired = true then
    persistDesiredGrab s t.hardware t.plan else s) t.hardware t.plan t.existing
  unfold SameTables at hsame
  rw [hsame]
  split
  · exact ⟨rfl, rfl⟩
  · exact ⟨rfl, rfl⟩

theorem nextTask_cancelFold (paths : List P) (s : State H P C M) (h : H) :
    (paths.foldl (fun s p => cancelPendingInterfaceRelease s h p) s).nextTask = s.nextTask := by
  induction paths generalizing s with
  | nil => rfl
  | cons p paths ih => exact ih (cancelPendingInterfaceRelease s h p)

/-- Pending releases of kept devices are cancelled, those of the others are new tasks. -/
theorem reconcile_pending (hs : Linked s) (h : H) (plan : Plan P C) (existing : List (Device P)) :
    (∀ p, (reconcileExistingInterfaceReleases s h plan existing).pendingInterface.get? (h, p) =
      s.pendingInterface.get? (h, p)) ↔
    ∀ d ∈ existing, kept plan d = true ∧ s.pendingInterface.get? (h, d.path) = none := by
  unfold reconcileExistingInterfaceReleases
  simp only
  have hcancelled (p : P) := pending_cancelFold
    ((existing.filter (kept plan)).map Device.path) s h h p
  have htask := nextTask_cancelFold ((existing.filter (kept plan)).map Device.path) s h
  rw [List.foldl_map] at htask
  simp only [List.foldl_map, true_and] at hcancelled
  generalize (existing.filter (kept plan)).foldl
    (fun s d => cancelPendingInterfaceRelease s h d.path) s = cancelled at hcancelled htask ⊢
  constructor
  · intro hsame d hd
    have hkeeps (e : Device P) (he : e ∈ existing) : kept plan e = true := by
      by_contra hkept
      obtain ⟨-, id, hle, hget⟩ | ⟨hnone, -⟩ := pending_scheduleFold
        (existing.filter fun d => ¬ kept plan d) cancelled h h e.path
      · rw [hsame] at hget
        have hlt := hs.task id _ (hs.interface h e.path id hget)
        omega
      · exact hnone e (List.mem_filter.mpr ⟨he, by simpa using hkept⟩) ⟨rfl, rfl⟩
    refine ⟨hkeeps d hd, ?_⟩
    obtain ⟨⟨e, he, -⟩, -⟩ | ⟨-, hget⟩ := pending_scheduleFold
      (existing.filter fun d => ¬ kept plan d) cancelled h h d.path
    · obtain ⟨he, hnot⟩ := List.mem_filter.mp he
      rw [hkeeps e he] at hnot
      simp at hnot
    · rw [hsame, hcancelled, if_pos] at hget
      · exact hget
      · exact List.mem_map.mpr ⟨d, List.mem_filter.mpr ⟨hd, hkeeps d hd⟩, rfl⟩
  · intro hkeeps p
    have hempty : existing.filter (fun d => ¬ kept plan d) = [] := by
      rw [List.filter_eq_nil_iff]
      intro d hd
      simp [(hkeeps d hd).1]
    rw [hempty, List.foldl_nil, hcancelled]
    split
    · next hmem =>
      obtain ⟨d, hd, rfl⟩ := List.mem_map.mp hmem
      exact ((hkeeps d (List.mem_filter.mp hd).1).2).symm
    · rfl

theorem prepare_pending (hs : Linked s) (t : Transaction H P C) :
    (∀ p, (prepare s t).pendingInterface.get? (t.hardware, p) =
      s.pendingInterface.get? (t.hardware, p)) ↔
    ∀ d ∈ t.existing,
      kept t.plan d = true ∧ s.pendingInterface.get? (t.hardware, d.path) = none := by
  unfold prepare
  simp only
  split
  · exact reconcile_pending (s := persistDesiredGrab s t.hardware t.plan)
      (linked_edits ((Edits.refl s).then (by constructor <;> rfl)) hs) t.hardware t.plan t.existing
  · exact reconcile_pending hs t.hardware t.plan t.existing

/-! ### The rollback -/

omit [DecidableEq H] [DecidableEq P] in
/-- A clean-up of the new devices changes their handles only. -/
theorem releaseNew_same (s : State H P C M) (rollback : P → Release) (new : List (Device P)) :
    (releaseNew s rollback new).1 =
      { s with handles := (releaseNew s rollback new).1.handles } := by
  induction new generalizing s with
  | nil => rfl
  | cons d ds ih =>
    unfold releaseNew
    split
    · exact ih (closeHandle s d.id true)
    · next closed _ => exact ih (closeHandle s d.id closed)
    · rfl

omit [DecidableEq H] [DecidableEq P] in
theorem releaseNew_ended (s : State H P C M) (rollback : P → Release) (new : List (Device P)) :
    (releaseNew s rollback new).2 = .done ↔
      ∀ d ∈ new, ∀ closed, rollback d.path ≠ .cancelled closed := by
  induction new generalizing s with
  | nil => simp [releaseNew]
  | cons d ds ih =>
    unfold releaseNew
    rw [List.forall_mem_cons]
    split
    · next heq => simp [heq, ih]
    · next closed heq => simp [heq, ih]
    · next closed heq => simp [heq]

/-- The release of a device closed its handle. -/
def closes : Release → Bool
  | .done => true
  | .fails closed => closed
  | .cancelled closed => closed

omit [DecidableEq H] [DecidableEq P] in
theorem mem_closeHandle_iff {id id' : Nat} {closed : Bool} :
    id ∈ (closeHandle s id' closed).handles ↔ id ∈ s.handles ∧ ¬ (id = id' ∧ closed = true) := by
  cases closed with
  | false =>
    change id ∈ s.handles ↔ _
    simp
  | true =>
    change id ∈ s.handles.erase id' ↔ _
    rw [Finset.mem_erase, and_comm]
    simp only [and_true, ne_eq]

omit [DecidableEq H] [DecidableEq P] in
theorem releaseNew_handles (s : State H P C M) (rollback : P → Release) (new : List (Device P))
    (hdone : (releaseNew s rollback new).2 = .done) (id : Nat) :
    id ∈ (releaseNew s rollback new).1.handles ↔
      id ∈ s.handles ∧ ∀ d ∈ new, ¬ (d.id = id ∧ closes (rollback d.path) = true) := by
  induction new generalizing s with
  | nil => simp [releaseNew]
  | cons d ds ih =>
    unfold releaseNew at hdone ⊢
    rw [List.forall_mem_cons]
    split
    · next heq =>
      rw [heq] at hdone
      rw [ih _ hdone, mem_closeHandle_iff, heq]
      simp only [closes, and_true, eq_comm, and_assoc]
    · next closed heq =>
      rw [heq] at hdone
      rw [ih _ hdone, mem_closeHandle_iff, heq]
      simp only [closes, eq_comm, and_assoc]
    · next closed heq =>
      rw [heq] at hdone
      cases hdone

/-! ### The rest of the state -/

/-- The acquisition starts from here. -/
structure Prepared (s s₀ : State H P C M) (t : Transaction H P C) : Prop where
  linked : Linked s
  transaction : t = Transactions.transaction s t.hardware t.updateDesired t.plan
  start : s₀ = prepare (cancelPendingHardwareRelease s t.hardware) t

theorem Prepared.fields (h : Prepared s s₀ t) :
    s₀.grabbed = s.grabbed ∧ s₀.handles = s.handles ∧ s₀.nextDevice = s.nextDevice ∧
      s₀.pendingHardware = s.pendingHardware.erase t.hardware := by
  have hprepared := prepare_grabbed (cancelPendingHardwareRelease s t.hardware) t
  rw [← h.start] at hprepared
  obtain ⟨hgrabbed, hhandles, hnext, hpending, -, -⟩ := hprepared
  exact ⟨hgrabbed, hhandles, hnext, hpending⟩

theorem Prepared.existing (h : Prepared s s₀ t) : t.existing = devices s t.hardware := by
  rw [h.transaction]
  rfl

theorem Prepared.midway (h : Prepared s s₀ t) (meets : GrabMeets P) :
    Midway t meets s₀ s₀ [] [] := by
  apply midway_start
  rw [h.existing, devices_congr h.fields.1]

variable [DecidableEq M]

theorem desired_iff {κ ν : Type} [DecidableEq κ] (d : Dict κ ν) (update : Bool) (k : κ) (v : ν) :
    (if update then d.insert k v else d).get? k = d.get? k ↔
      (update = true → d.get? k = some v) := by
  cases update with
  | false => simp
  | true => simp [eq_comm]

omit [DecidableEq M] in
/-- Where nothing is rolled back, the plan and the new devices stay. -/
theorem restored_iff_untouched {s' : State H P C M} {all : List (P × Interface)}
    (h : Prepared s s₀ t) (hmidway : Midway t meets s₀ s' new tried)
    (hgrabs : ∀ p exclusive, (p, Interface.grabs exclusive) ∈ all ↔
      (p, Interface.grabs exclusive) ∈ tried) (htable : devices u t.hardware = t.existing ++ new)
    (hsame : u.desiredPaths = s₀.desiredPaths ∧ u.desiredGrabs = s₀.desiredGrabs ∧
      u.pendingHardware = s₀.pendingHardware ∧ u.pendingInterface = s₀.pendingInterface)
    (hhandles : (∀ id ∈ u.handles, id ∈ s.handles) ↔
      (∀ id ∈ s'.handles, id ∈ s.handles) ∧ ∀ p, (p, Interface.cancelled true) ∉ all)
    (hgone : ∀ p, (p, Interface.gone true) ∈ all ↔ (p, Interface.gone true) ∈ tried) :
    Restored s u t.hardware ↔ s.pendingHardware.get? t.hardware = none ∧
      NothingToUndo s t.hardware t.updateDesired t.plan all := by
  obtain ⟨-, hopen, hnext, hhardware⟩ := h.fields
  obtain ⟨hpaths, hconfigs⟩ := prepare_desired (cancelPendingHardwareRelease s t.hardware) t
  have hpending := prepare_pending (linked_cancelHardware h.linked t.hardware) t
  rw [← h.start] at hpaths hconfigs hpending
  have hnone : new = [] ↔ ∀ p exclusive, (p, Interface.grabs exclusive) ∉ all := by
    constructor
    · intro hnew p exclusive hmem
      obtain ⟨d, hd, -⟩ := hmidway.grabbed p exclusive ((hgrabs p exclusive).mp hmem)
      rw [hnew] at hd
      cases hd
    · intro hnone
      rw [List.eq_nil_iff_forall_not_mem]
      intro d hd
      obtain ⟨exclusive, -, hmem⟩ := hmidway.source d hd
      exact hnone d.path exclusive ((hgrabs d.path exclusive).mpr hmem)
  have hleaks (hnew : new = []) : (∀ id ∈ s'.handles, id ∈ s.handles) ↔
      ∀ p, (p, Interface.gone true) ∉ all := by
    constructor
    · intro hold p hmem
      obtain ⟨id, hlow, -, hid, -⟩ := hmidway.leaked ⟨p, (hgone p).mp hmem⟩
      have hlt := h.linked.handle id (hold id hid)
      omega
    · intro hclosed id hid
      obtain hstart | ⟨d, hd, -⟩ | ⟨p, hp⟩ := hmidway.only id hid
      · rwa [hopen] at hstart
      · rw [hnew] at hd
        cases hd
      · exact absurd ((hgone p).mpr hp) (hclosed p)
  constructor
  · intro hrestored
    have hnew : new = [] := by
      have hgrabbed := hrestored.grabbed
      rw [htable, h.existing] at hgrabbed
      exact List.append_right_eq_self.mp hgrabbed
    obtain ⟨hcloses, hleft⟩ := hhandles.mp hrestored.handles
    refine ⟨?_, ?_, ?_, ?_, hnone.mp hnew⟩
    · rw [← hrestored.pendingHardware, hsame.2.2.1, hhardware, Dict.get?_erase_self]
    · have hp := hrestored.desiredPaths
      have hc := hrestored.desiredGrabs
      rw [hsame.1, hpaths] at hp
      rw [hsame.2.1, hconfigs] at hc
      exact fun hupdate =>
        ⟨(desired_iff _ _ _ _).mp hp hupdate, (desired_iff _ _ _ _).mp hc hupdate⟩
    · intro d hd
      rw [← h.existing] at hd
      exact hpending.mp (fun p => by rw [← hsame.2.2.2]; exact hrestored.pendingInterface p) d hd
    · exact fun p => ⟨(hleaks hnew).mp hcloses p, hleft p⟩
  · intro hnothing
    obtain ⟨hfree, hnothing⟩ := hnothing
    have hnew := hnone.mpr hnothing.grabs
    refine ⟨?_, ?_, ?_, ?_, ?_, ?_⟩
    · rw [htable, hnew, List.append_nil, h.existing]
    · rw [hsame.1, hpaths]
      exact (desired_iff _ _ _ _).mpr fun hupdate => (hnothing.desired hupdate).1
    · rw [hsame.2.1, hconfigs]
      exact (desired_iff _ _ _ _).mpr fun hupdate => (hnothing.desired hupdate).2
    · rw [hsame.2.2.1, hhardware, Dict.get?_erase_self, hfree]
    · rw [hsame.2.2.2]
      refine hpending.mpr ?_
      rw [h.existing]
      exact hnothing.existing
    · exact hhandles.mpr ⟨(hleaks hnew).mpr fun p => (hnothing.closes p).1,
        fun p => (hnothing.closes p).2⟩

omit [DecidableEq M] in
theorem rollback_done {rollback : P → Release} (hdone : (releaseNew u rollback new).2 = .done) :
    (∀ h, devices (rollbackFailedGrab u t rollback new) h =
      if h = t.hardware then t.existing else devices u h) ∧
    (rollbackFailedGrab u t rollback new).desiredPaths = (if t.updateDesired then
      restore u.desiredPaths t.hardware t.previousPaths else u.desiredPaths) ∧
    (rollbackFailedGrab u t rollback new).desiredGrabs = (if t.updateDesired then
      restore u.desiredGrabs t.hardware t.previousConfig else u.desiredGrabs) ∧
    (rollbackFailedGrab u t rollback new).pendingHardware = u.pendingHardware ∧
    (∀ p, (rollbackFailedGrab u t rollback new).pendingInterface.get? (t.hardware, p) = none) ∧
    (rollbackFailedGrab u t rollback new).handles = (releaseNew u rollback new).1.handles := by
  have hsame := releaseNew_same u rollback new
  unfold rollbackFailedGrab
  split
  · next heq =>
    rw [heq] at hdone
    cases hdone
  · next v heq =>
    rw [heq] at hsame ⊢
    simp only at hsame ⊢
    have hcancelled := sameTables_cancelInterfaces (storeGrabbedDevices v t.hardware t.existing)
      t.hardware
    have hpending (p : P) := pending_cancelInterfaces
      (storeGrabbedDevices v t.hardware t.existing) t.hardware t.hardware p
    simp only [if_true] at hpending
    generalize cancelPendingInterfaceReleases (storeGrabbedDevices v t.hardware t.existing)
      t.hardware = w at hcancelled hpending ⊢
    have hdevices (h : H) : devices w h = if h = t.hardware then t.existing else devices u h := by
      unfold SameTables at hcancelled
      rw [devices_congr (s := storeGrabbedDevices v t.hardware t.existing) (by rw [hcancelled]),
        devices_store, devices_congr (s := u) (t := v) (by rw [hsame])]
    have hfields : w.desiredPaths = u.desiredPaths ∧ w.desiredGrabs = u.desiredGrabs ∧
        w.pendingHardware = u.pendingHardware ∧ w.handles = v.handles := by
      unfold SameTables at hcancelled
      rw [hcancelled, hsame]
      exact ⟨rfl, rfl, rfl, rfl⟩
    obtain ⟨hpaths, hconfigs, hhardware, hhandles⟩ := hfields
    split
    · refine ⟨hdevices, ?_, ?_, hhardware, hpending, hhandles⟩
      · rw [← hpaths]
        rfl
      · rw [← hconfigs]
        rfl
    · exact ⟨hdevices, hpaths, hconfigs, hhardware, hpending, hhandles⟩

omit [DecidableEq M] in
theorem rollback_raised {rollback : P → Release}
    (hraised : (releaseNew u rollback new).2 = .raised) :
    rollbackFailedGrab u t rollback new = (releaseNew u rollback new).1 := by
  unfold rollbackFailedGrab
  split
  · next heq => rw [heq]
  · next heq =>
    rw [heq] at hraised
    cases hraised

theorem restore_get? {κ ν : Type} [DecidableEq κ] (d : Dict κ ν) (k : κ) (v : Option ν) :
    (restore d k v).get? k = v := by
  cases v with
  | none => exact Dict.get?_erase_self d k
  | some v => exact Dict.get?_insert_self d k v

theorem restored_get? {κ ν : Type} [DecidableEq κ] (d : Dict κ ν) (update : Bool) (k : κ) (v : ν) :
    (if update then restore (if update then d.insert k v else d) k (d.get? k)
      else if update then d.insert k v else d).get? k = d.get? k := by
  cases update with
  | false => rfl
  | true => exact restore_get? _ k _

omit [DecidableEq M] in
/-- The handles that a rollback leaves open. -/
theorem rollback_handles {s' : State H P C M} (h : Prepared s s₀ t)
    (hmidway : Midway t meets s₀ s' new tried) (isOpen : Bool)
    (hdone : (releaseNew (openHandle s' isOpen) meets.rollback new).2 = .done) :
    (∀ id ∈ (releaseNew (openHandle s' isOpen) meets.rollback new).1.handles, id ∈ s.handles) ↔
      isOpen = false ∧ ¬ Leaked tried ∧
        ∀ d ∈ new, meets.interface d.path = .grabs true →
          closes (meets.rollback d.path) = true := by
  obtain ⟨-, hopen, hnext, -⟩ := h.fields
  have hfirst := hmidway.first
  constructor
  · intro hold
    refine ⟨?_, ?_, ?_⟩
    · by_contra htrue
      rw [Bool.not_eq_false] at htrue
      subst htrue
      have hmem := hold s'.nextDevice ((releaseNew_handles _ _ _ hdone _).mpr
        ⟨Finset.mem_insert_self _ _, fun d hd hclosed => ?_⟩)
      · have hlt := h.linked.handle _ hmem
        omega
      · have hhigh := (hmidway.ids d hd).2
        omega
    · intro hleaked
      obtain ⟨id, hlow, -, hid, hother⟩ := hmidway.leaked hleaked
      have hmem := hold id ((releaseNew_handles _ _ _ hdone _).mpr ⟨?_, fun d hd hclosed =>
        hother d hd hclosed.1⟩)
      · have hlt := h.linked.handle _ hmem
        omega
      · cases isOpen with
        | false => exact hid
        | true => exact Finset.mem_insert_of_mem hid
    · intro d hd hgrabs
      by_contra hnot
      have hmem := hold d.id ((releaseNew_handles _ _ _ hdone _).mpr ⟨?_, fun e he hclosed => ?_⟩)
      · have hlt := h.linked.handle _ hmem
        have hlow := (hmidway.ids d hd).1
        omega
      · have hid := hmidway.opened d hd hgrabs
        cases isOpen with
        | false => exact hid
        | true => exact Finset.mem_insert_of_mem hid
      · have hids : (new.map Device.id).Nodup := List.pairwise_map.mpr hmidway.distinct
        have hsame : d = e := List.inj_on_of_nodup_map hids hd he hclosed.1.symm
        rw [hsame] at hnot
        exact hnot hclosed.2
  · intro hcloses id hid
    obtain ⟨rfl, hleaked, hclosed⟩ := hcloses
    obtain ⟨hmem, hreleased⟩ := (releaseNew_handles _ _ _ hdone _).mp hid
    obtain hstart | ⟨d, hd, hid, hgrabs⟩ | hleaks := hmidway.only id hmem
    · rwa [hopen] at hstart
    · exact absurd ⟨hid, hclosed d hd hgrabs⟩ (hreleased d hd)
    · exact absurd hleaks hleaked

omit [DecidableEq H] in
theorem met_of_mem_attempts {paths : List P} {p : P} {i : Interface}
    (hmem : (p, i) ∈ attempts t meets paths) : meets.interface p = i := by
  induction paths with
  | nil => cases hmem
  | cons q rest ih =>
    unfold attempts at hmem
    split at hmem
    · exact ih hmem
    · cases hi : meets.interface q with
      | fails isOpen =>
        rw [hi, List.mem_singleton] at hmem
        cases hmem
        exact hi
      | cancelled isOpen =>
        rw [hi, List.mem_singleton] at hmem
        cases hmem
        exact hi
      | _ =>
        rw [hi] at hmem
        obtain heq | hrest := List.mem_cons.mp hmem
        · cases heq
          exact hi
        · exact ih hrest

omit [DecidableEq M] in
/-- The error of an interface: what was there is there again, unless it was pending. -/
theorem restored_iff_undone {s' : State H P C M} (h : Prepared s s₀ t)
    (hmidway : Midway t meets s₀ s' new tried) (hunbroken : Unbroken tried)
    (hmet : ∀ q i, (q, i) ∈ tried → meets.interface q = i) (p : P) (isOpen : Bool) :
    Restored s (rollbackFailedGrab (openHandle s' isOpen) t meets.rollback new) t.hardware ↔
      s.pendingHardware.get? t.hardware = none ∧
        UndoesAll s t.hardware meets.rollback (tried ++ [(p, .fails isOpen)]) := by
  obtain ⟨hgrabbed, -, -, hhardware⟩ := h.fields
  obtain ⟨hpaths, hconfigs⟩ := prepare_desired (cancelPendingHardwareRelease s t.hardware) t
  rw [← h.start] at hpaths hconfigs
  have hended := releaseNew_ended (openHandle s' isOpen) meets.rollback new
  have hgrab {q : P} {exclusive : Bool}
      (hq : (q, Interface.grabs exclusive) ∈ tried ++ [(p, .fails isOpen)]) :
      (q, Interface.grabs exclusive) ∈ tried := by
    obtain hold | hnew := List.mem_append.mp hq
    · exact hold
    · rw [List.mem_singleton] at hnew
      cases hnew
  cases hraised : (releaseNew (openHandle s' isOpen) meets.rollback new).2 with
  | raised =>
    -- The rollback was cancelled, with a new device still in the table.
    have hnot : ¬ ∀ d ∈ new, ∀ closed, meets.rollback d.path ≠ .cancelled closed := by
      intro hall
      rw [hended.mpr hall] at hraised
      cases hraised
    constructor
    · intro hrestored
      have htable := hrestored.grabbed
      rw [rollback_raised hraised, devices_congr (s := s') (by rw [releaseNew_same]; rfl),
        hmidway.table, if_pos rfl, h.existing] at htable
      rw [List.append_right_eq_self.mp htable] at hnot
      exact absurd (fun d hd => absurd hd List.not_mem_nil) hnot
    · intro hundone
      refine absurd (fun d hd => ?_) hnot
      obtain ⟨exclusive, -, hmem⟩ := hmidway.source d hd
      exact (hundone.2.releases d.path exclusive (List.mem_append_left _ hmem)).1
  | done =>
    obtain ⟨htable, hpaths', hconfigs', hhardware', hpending, hhandles⟩ :=
      rollback_done (t := t) hraised
    have hleft := rollback_handles h hmidway isOpen hraised
    have hall := hended.mp hraised
    constructor
    · intro hrestored
      obtain ⟨hclosed, hleaked, hreleased⟩ := hleft.mp fun id hid =>
        hrestored.handles id (by rwa [hhandles])
      refine ⟨?_, fun q => ?_, fun q => ⟨fun hmem => ?_, fun hmem => ?_⟩, fun q e hmem => ?_⟩
      · rw [← hrestored.pendingHardware, hhardware']
        have hsame := hmidway.same
        rw [show (openHandle s' isOpen).pendingHardware = s'.pendingHardware from rfl, hsame,
          hhardware, Dict.get?_erase_self]
      · rw [← hrestored.pendingInterface, hpending]
      · obtain hold | hnew := List.mem_append.mp hmem
        · exact hleaked ⟨q, hold⟩
        · rw [List.mem_singleton] at hnew
          cases hnew
      · obtain hold | hnew := List.mem_append.mp hmem
        · exact (hunbroken q true).1 hold
        · rw [List.mem_singleton] at hnew
          cases hnew
          cases hclosed
      · obtain ⟨d, hd, rfl⟩ := hmidway.grabbed q e (hgrab hmem)
        refine ⟨hall d hd, fun he hfails => ?_⟩
        subst he
        have hclose := hreleased d hd (hmet d.path _ (hgrab hmem))
        rw [hfails] at hclose
        cases hclose
    · intro hundone
      obtain ⟨hfree, hundone⟩ := hundone
      have hsame := hmidway.same
      refine ⟨?_, ?_, ?_, ?_, fun q => ?_, fun id hid => ?_⟩
      · rw [htable, if_pos rfl, h.existing]
      · rw [hpaths', show (openHandle s' isOpen).desiredPaths = s'.desiredPaths from rfl, hsame,
          hpaths, h.transaction]
        exact restored_get? _ _ _ _
      · rw [hconfigs', show (openHandle s' isOpen).desiredGrabs = s'.desiredGrabs from rfl, hsame,
          hconfigs, h.transaction]
        exact restored_get? _ _ _ _
      · rw [hhardware', show (openHandle s' isOpen).pendingHardware = s'.pendingHardware from rfl,
          hsame, hhardware, Dict.get?_erase_self, hfree]
      · rw [hpending, hundone.pending]
      · rw [hhandles] at hid
        refine hleft.mpr ⟨?_, ?_, fun d hd hi => ?_⟩ id hid
        · by_contra htrue
          rw [Bool.not_eq_false] at htrue
          subst htrue
          exact (hundone.closes p).2 (List.mem_append_right _ List.mem_cons_self)
        · intro hleaked
          obtain ⟨q, hq⟩ := hleaked
          exact (hundone.closes q).1 (List.mem_append_left _ hq)
        · obtain ⟨e, he, hmem⟩ := hmidway.source d hd
          rw [hi] at he
          cases he
          have hrelease := hundone.releases d.path true (List.mem_append_left _ hmem)
          cases hmeets : meets.rollback d.path with
          | done => rfl
          | cancelled closed => exact absurd hmeets (hrelease.1 closed)
          | fails closed =>
            cases closed with
            | true => rfl
            | false => exact absurd hmeets (hrelease.2 rfl)

/-! ## The end of a grab -/

variable (modelKey : H → Option M)

omit [DecidableEq P] in
/-- The end of an acquisition changes the table and the hiding flag, also where it raises. -/
theorem finalize_table {finish : Finish} {available : Nat}
    (htable : devices u t.hardware = t.existing ++ new) :
    devices (finalizeGrab modelKey u t finish new available).1 t.hardware = t.existing ++ new ∧
      (finalizeGrab modelKey u t finish new available).1 =
        { u with
          grabbed := (finalizeGrab modelKey u t finish new available).1.grabbed
          hiddenModels := (finalizeGrab modelKey u t finish new available).1.hiddenModels } := by
  have hstored := devices_store_self u t.hardware (t.existing ++ new)
  unfold finalizeGrab
  simp only
  split
  · exact ⟨htable, rfl⟩
  · split
    · exact ⟨hstored, rfl⟩
    · split
      · split
        · exact ⟨hstored, rfl⟩
        · exact ⟨hstored, rfl⟩
      · exact ⟨hstored, rfl⟩

theorem restored_iff_of_acquire (meets : GrabMeets P) (paths : List P) (h : Prepared s s₀ t) :
    Restored s (acquire modelKey t meets s₀ [] 0 paths).1 t.hardware ↔
      s.pendingHardware.get? t.hardware = none ∧
      (RollsBack (attempts t meets paths) →
        UndoesAll s t.hardware meets.rollback (attempts t meets paths)) ∧
      (¬ RollsBack (attempts t meets paths) →
        NothingToUndo s t.hardware t.updateDesired t.plan (attempts t meets paths)) := by
  obtain ⟨s', new, tried, hmidway, hunbroken, hends⟩ :=
    acquire_ends modelKey (h.midway meets) paths
  have hmet (q : P) (i : Interface) (hmem : (q, i) ∈ attempts t meets paths) :=
    met_of_mem_attempts hmem
  have hsame := hmidway.same
  have htable := hmidway.table t.hardware
  rw [if_pos rfl] at htable
  generalize acquire modelKey t meets s₀ [] 0 paths = r at hends ⊢
  generalize attempts t meets paths = all at hends hmet ⊢
  have hkeeps (hno : ¬ RollsBack all) {A B D : Prop} (hiff : D ↔ A ∧ B) :
      D ↔ A ∧ (RollsBack all → UndoesAll s t.hardware meets.rollback all) ∧
        (¬ RollsBack all → B) := by
    rw [hiff, imp_iff_right hno]
    exact ⟨fun hab => ⟨hab.1, fun hyes => absurd hyes hno, hab.2⟩, fun hab => ⟨hab.1, hab.2.2⟩⟩
  cases hends with
  | finalized available hall _ =>
    subst hall
    obtain ⟨htable', hsame'⟩ := finalize_table modelKey htable
    refine hkeeps (fun hrolls => ?_) (restored_iff_untouched h hmidway (fun _ _ => Iff.rfl)
      htable' ?_ ?_ fun _ => Iff.rfl)
    · obtain ⟨p, isOpen, hp⟩ := hrolls
      exact (hunbroken p isOpen).1 hp
    · rw [hsame', hsame]
      exact ⟨rfl, rfl, rfl, rfl⟩
    · rw [hsame']
      exact ⟨fun hold => ⟨hold, fun p => (hunbroken p true).2⟩, And.left⟩
  | rolledBack p isOpen hall =>
    subst hall
    have hrolls : RollsBack (tried ++ [(p, .fails isOpen)]) :=
      ⟨p, isOpen, List.mem_append_right _ List.mem_cons_self⟩
    rw [restored_iff_undone h hmidway hunbroken
      (fun q i hq => hmet q i (List.mem_append_left _ hq)) p isOpen, imp_iff_right hrolls]
    exact ⟨fun hundone => ⟨hundone.1, hundone.2, fun hno => absurd hrolls hno⟩,
      fun hundone => ⟨hundone.1, hundone.2.1⟩⟩
  | left p isOpen hall =>
    subst hall
    have hlast {q : P} {i : Interface} (hi : ∀ isOpen, i ≠ .cancelled isOpen) :
        (q, i) ∈ tried ++ [(p, .cancelled isOpen)] ↔ (q, i) ∈ tried := by
      rw [List.mem_append, List.mem_singleton, Prod.mk.injEq]
      exact or_iff_left fun heq => hi isOpen heq.2
    refine hkeeps (fun hrolls => ?_) (restored_iff_untouched h hmidway
      (fun _ _ => hlast (by simp)) htable ?_ ?_ fun _ => hlast (by simp))
    · obtain ⟨q, o, hq⟩ := hrolls
      exact (hunbroken q o).1 ((hlast (by simp)).mp hq)
    · rw [hsame]
      exact ⟨rfl, rfl, rfl, rfl⟩
    · constructor
      · intro hold
        refine ⟨fun id hid => hold id ?_, fun q hq => ?_⟩
        · cases isOpen with
          | false => exact hid
          | true => exact Finset.mem_insert_of_mem hid
        · obtain hprior | hnew := List.mem_append.mp hq
          · exact (hunbroken q true).2 hprior
          · rw [List.mem_singleton] at hnew
            cases hnew
            have hlt := h.linked.handle _ (hold _ (Finset.mem_insert_self _ _))
            have hfirst := hmidway.first
            rw [h.fields.2.2.1] at hfirst
            omega
      · intro hold id hid
        obtain rfl | hprior := mem_openHandle hid
        · cases isOpen with
          | false => exact hold.1 _ hid
          | true => exact absurd (List.mem_append_right _ List.mem_cons_self) (hold.2 p)
        · exact hold.1 id hprior

end Parts

/-! ## Failed grabs -/

variable [DecidableEq M]

/-- In every state that the manager can be in: a grab that raises leaves the hardware as
it was exactly if there was nothing pending that the grab cancels, and either a rollback
got to every handle or the grab had changed nothing. -/
theorem grabDevice_restores_iff (modelKey : H → Option M) {as : List (Step H P C)}
    {s : State H P C M} (hrun : run (step modelKey) {} as = some s) (h : H)
    (updateDesired : Bool) (plan : Option (Plan P C)) (meets : GrabMeets P) :
    (grabDevice modelKey s h updateDesired plan meets).2 = .raised →
      (Restored s (grabDevice modelKey s h updateDesired plan meets).1 h ↔
        RestoresWhen s h updateDesired plan meets) := by
  have hlinked := linked_run modelKey linked_initial hrun
  intro _
  unfold grabDevice RestoresWhen
  cases plan with
  | none =>
    simp only [reduceCtorEq, false_implies, implies_true, and_true]
    constructor
    · intro hrestored
      rw [← hrestored.pendingHardware]
      exact Dict.get?_erase_self _ _
    · intro hfree
      exact ⟨rfl, rfl, rfl, (Dict.get?_erase_self _ _).trans hfree.symm, fun _ => rfl,
        fun _ hid => hid⟩
  | some plan =>
    have hiff := restored_iff_of_acquire modelKey (s := s) (t := transaction s h updateDesired plan)
      meets plan.requestedPaths ⟨hlinked, rfl, rfl⟩
    simp only [Option.some.injEq, forall_eq']
    exact hiff

/-! ### A release that is forgotten -/

/-- A request for interfaces whose keys are mapped. -/
def planOf (paths : List Nat) : Plan Nat Unit where
  requestedPaths := paths
  desiredPaths := paths.toFinset
  requestedClaims := paths.toFinset
  claims p := {p}
  configured := true
  mapped := true
  hidesSource := false
  settings := ()
  requested_desired _ hp := List.mem_toFinset.mpr hp

def allGrabbed : GrabMeets Nat := { interface := fun _ => .grabs true }

/-- The second interface cannot be grabbed. -/
def secondFails : GrabMeets Nat :=
  { interface := fun p => if p = 1 then .fails false else .grabs true }

/-- The second grab of a new hardware fails, and the first is released. -/
theorem first_grab_restored :
    Restored {} (grabDevice (fun _ => none) ({} : State Nat Nat Unit Nat) 0 true
      (some (planOf [0, 1])) secondFails).1 0 := by
  have hrun : run (step fun _ => none) ({} : State Nat Nat Unit Nat) [] = some {} := rfl
  refine (grabDevice_restores_iff (fun _ => none) hrun 0 true _ _ (by decide)).mpr
    ⟨rfl, fun plan hplan => ?_⟩
  cases hplan
  have hattempts : attempts (transaction ({} : State Nat Nat Unit Nat) 0 true (planOf [0, 1]))
      secondFails (planOf [0, 1]).requestedPaths = [(0, .grabs true), (1, .fails false)] := rfl
  have hrolls : RollsBack [(0, .grabs true), (1, .fails false)] := ⟨1, false, by simp⟩
  have hundone : UndoesAll ({} : State Nat Nat Unit Nat) 0 secondFails.rollback
      [(0, .grabs true), (1, .fails false)] := by
    refine ⟨fun _ => rfl, ?_, ?_⟩
    · simp
    · simp [secondFails]
  simp only [hattempts]
  exact ⟨fun _ => hundone, fun hno => absurd hrolls hno⟩

/-- A device that is not wanted any more has a delayed release. An interface that cannot
be grabbed is rolled back, but the device has no release any more. -/
theorem failed_grab_forgets_release :
    ∃ s, run (step fun _ => none) ({} : State Nat Nat Unit Nat)
        [.grab 0 (some (planOf [0])) allGrabbed, .schedule 0 .done] = some s ∧
      (grabDevice (fun _ => none) s 0 true (some (planOf [0, 1])) secondFails).2 = .raised ∧
      ¬ Restored s
        (grabDevice (fun _ => none) s 0 true (some (planOf [0, 1])) secondFails).1 0 := by
  have hlost : (run (step fun _ => none) ({} : State Nat Nat Unit Nat)
      [.grab 0 (some (planOf [0])) allGrabbed, .schedule 0 .done]).any (fun s =>
        let r := grabDevice (fun _ => none) s 0 true (some (planOf [0, 1])) secondFails
        r.2 = .raised ∧ r.1.pendingHardware.get? 0 ≠ s.pendingHardware.get? 0) = true := by
    decide
  obtain ⟨s, hrun, hs⟩ := (Option.any_eq_true _ _).mp hlost
  rw [decide_eq_true_eq] at hs
  exact ⟨s, hrun, hs.1, fun hrestored => hs.2 hrestored.pendingHardware⟩

end Keymasq.Grab.Rollback
