import Keymasq.Grab.Transactions
import Mathlib.Logic.Relation

/-!
# What the transactions do to the tables

Field lemmas of the small operations, the link between pending releases and timers,
and the ways a grab and a release can end.
-/

namespace Keymasq.Grab.Tables
open Foundation Transition Transactions


variable {H P C M : Type} [DecidableEq H]

/-! ## The small operations -/

section Fields

variable (s : State H P C M) (h : H)

theorem devices_store (ds : List (Device P)) (h' : H) :
    devices (storeGrabbedDevices s h ds) h' = if h' = h then ds else devices s h' := by
  unfold devices storeGrabbedDevices Dict.getD
  by_cases hds : ds = []
  · simp only [hds, if_true, Dict.get?_erase]
    split <;> rfl
  · simp only [hds, if_false, Dict.get?_insert]
    split <;> rfl

@[simp] theorem devices_store_self (ds : List (Device P)) :
    devices (storeGrabbedDevices s h ds) h = ds := by
  rw [devices_store, if_pos rfl]

theorem devices_congr {s t : State H P C M} (hg : t.grabbed = s.grabbed) (h : H) :
    devices t h = devices s h := by
  unfold devices
  rw [hg]

omit [DecidableEq H] in
theorem cancelTask_timers (task : Option Nat) (id : Nat) :
    (cancelTask s task).timers.get? id = if task = some id then none else s.timers.get? id := by
  cases task with
  | none => rfl
  | some id' =>
    change (s.timers.erase id').get? id = _
    rw [Dict.get?_erase]
    simp only [Option.some.injEq, eq_comm]

omit [DecidableEq H] in
theorem mem_closeHandle {s : State H P C M} {id id' : Nat} {closed : Bool}
    (hid : id ∈ (closeHandle s id' closed).handles) : id ∈ s.handles := by
  cases closed with
  | false => exact hid
  | true => exact Finset.mem_of_mem_erase hid

omit [DecidableEq H] in
theorem mem_openHandle {s : State H P C M} {id : Nat} {isOpen : Bool}
    (hid : id ∈ (openHandle s isOpen).handles) : id = s.nextDevice ∨ id ∈ s.handles := by
  cases isOpen with
  | false => exact .inr hid
  | true => exact Finset.mem_insert.mp hid

end Fields

/-! ## Pending releases of interfaces -/

section Interfaces

/-- Only pending releases of interfaces and their timers differ. -/
def SameTables (s t : State H P C M) : Prop :=
  t = { s with pendingInterface := t.pendingInterface, timers := t.timers, nextTask := t.nextTask }

omit [DecidableEq H] in
theorem sameTables_foldl {α : Type} (f : State H P C M → α → State H P C M)
    (hf : ∀ s a, SameTables s (f s a)) (as : List α) (s : State H P C M) :
    SameTables s (as.foldl f s) := by
  induction as generalizing s with
  | nil => rfl
  | cons a as ih =>
    have hhead := hf s a
    have htail := ih (f s a)
    unfold SameTables at hhead htail ⊢
    rw [List.foldl_cons, htail, hhead]

variable [DecidableEq P]

theorem sameTables_cancelInterfaces (s : State H P C M) (h : H) :
    SameTables s (cancelPendingInterfaceReleases s h) :=
  sameTables_foldl (fun s p => cancelPendingInterfaceRelease s h p) (fun _ _ => rfl) _ s

theorem sameTables_reconcile (s : State H P C M) (h : H) (plan : Plan P C)
    (existing : List (Device P)) :
    SameTables s (reconcileExistingInterfaceReleases s h plan existing) := by
  have hcancel := sameTables_foldl
    (fun s (d : Device P) => cancelPendingInterfaceRelease s h d.path)
    (fun _ _ => rfl) (existing.filter (kept plan)) s
  have hschedule := sameTables_foldl (fun s (d : Device P) => scheduleInterfaceRelease s h d.path)
    (fun _ _ => rfl) (existing.filter fun d => ¬ kept plan d)
    ((existing.filter (kept plan)).foldl (fun s d => cancelPendingInterfaceRelease s h d.path) s)
  unfold SameTables at hcancel hschedule ⊢
  unfold reconcileExistingInterfaceReleases
  simp only
  rw [hschedule, hcancel]

theorem pending_cancelInterface (s : State H P C M) (h h' : H) (p p' : P) :
    (cancelPendingInterfaceRelease s h p).pendingInterface.get? (h', p') =
      if h' = h ∧ p' = p then none else s.pendingInterface.get? (h', p') := by
  change (s.pendingInterface.erase (h, p)).get? (h', p') = _
  rw [Dict.get?_erase]
  simp only [Prod.mk.injEq]

theorem pending_cancelFold (paths : List P) (s : State H P C M) (h h' : H) (p' : P) :
    (paths.foldl (fun s p => cancelPendingInterfaceRelease s h p) s).pendingInterface.get?
      (h', p') = if h' = h ∧ p' ∈ paths then none else s.pendingInterface.get? (h', p') := by
  induction paths generalizing s with
  | nil => simp
  | cons p paths ih =>
    rw [List.foldl_cons, ih, pending_cancelInterface]
    by_cases hh : h' = h
    · by_cases hp : p' = p
      · simp [hh, hp]
      · simp [hh, hp]
    · simp [hh]

theorem pending_cancelInterfaces (s : State H P C M) (h h' : H) (p' : P) :
    (cancelPendingInterfaceReleases s h).pendingInterface.get? (h', p') =
      if h' = h then none else s.pendingInterface.get? (h', p') := by
  unfold cancelPendingInterfaceReleases
  rw [pending_cancelFold]
  by_cases hh : h' = h
  · subst hh
    rw [if_pos rfl]
    split
    · rfl
    · next hmem =>
      rw [Dict.get?_eq_none_iff]
      intro hkey
      refine hmem ⟨rfl, List.mem_map.mpr ⟨(h', p'), ?_, rfl⟩⟩
      exact List.mem_filter.mpr ⟨hkey, by simp⟩
  · simp [hh]

/-- A rescheduled release is a new task. -/
theorem pending_scheduleFold (ds : List (Device P)) (s : State H P C M) (h h' : H) (p' : P) :
    (∃ d ∈ ds, h' = h ∧ d.path = p') ∧ (∃ id, s.nextTask ≤ id ∧
      (ds.foldl (fun s d => scheduleInterfaceRelease s h d.path) s).pendingInterface.get?
        (h', p') = some id) ∨
    (∀ d ∈ ds, ¬ (h' = h ∧ d.path = p')) ∧
      (ds.foldl (fun s d => scheduleInterfaceRelease s h d.path) s).pendingInterface.get?
        (h', p') = s.pendingInterface.get? (h', p') := by
  induction ds generalizing s with
  | nil => exact .inr ⟨by simp, rfl⟩
  | cons d ds ih =>
    rw [List.foldl_cons]
    obtain ⟨⟨e, he, hsame⟩, id, hle, hget⟩ | ⟨hnone, hget⟩ :=
      ih (scheduleInterfaceRelease s h d.path)
    · refine .inl ⟨⟨e, List.mem_cons_of_mem _ he, hsame⟩, id, ?_, hget⟩
      exact Nat.le_of_succ_le hle
    · have hone : (scheduleInterfaceRelease s h d.path).pendingInterface.get? (h', p') =
          if h' = h ∧ d.path = p' then some s.nextTask
          else s.pendingInterface.get? (h', p') := by
        change ((s.pendingInterface.erase (h, d.path)).insert (h, d.path) s.nextTask).get? _ = _
        rw [Dict.get?_insert, Dict.get?_erase]
        simp only [Prod.mk.injEq]
        by_cases hh : h' = h
        · by_cases hp : d.path = p'
          · simp [hh, hp]
          · simp [hh, hp, Ne.symm hp]
        · simp [hh]
      rw [hget, hone]
      by_cases hsame : h' = h ∧ d.path = p'
      · rw [if_pos hsame]
        exact .inl ⟨⟨d, List.mem_cons_self, hsame⟩, s.nextTask, Nat.le_refl _, rfl⟩
      · rw [if_neg hsame]
        refine .inr ⟨fun e he => ?_, rfl⟩
        obtain rfl | hrest := List.mem_cons.mp he
        · exact hsame
        · exact hnone e hrest

end Interfaces

/-! ## Edits of the pending releases and the handles

Every transaction is a sequence of a few edits, as far as tasks and handles go. -/

variable [DecidableEq P]

/-- Pending releases are live timers, and new tasks and handles are new. -/
structure Linked (s : State H P C M) : Prop where
  hardware : ∀ h id, s.pendingHardware.get? h = some id → s.timers.get? id = some (.hardware h)
  interface : ∀ h p id, s.pendingInterface.get? (h, p) = some id →
    s.timers.get? id = some (.interface h p)
  task : ∀ id timer, s.timers.get? id = some timer → id < s.nextTask
  handle : ∀ id ∈ s.handles, id < s.nextDevice

def scheduleHardware (s : State H P C M) (h : H) : State H P C M :=
  { s with
    pendingHardware := s.pendingHardware.insert h s.nextTask
    timers := s.timers.insert s.nextTask (.hardware h)
    nextTask := s.nextTask + 1 }

inductive Edit : State H P C M → State H P C M → Prop
  | tables {s t : State H P C M} (hardware : t.pendingHardware = s.pendingHardware)
      (interface : t.pendingInterface = s.pendingInterface) (timers : t.timers = s.timers)
      (task : t.nextTask = s.nextTask) (handles : t.handles = s.handles)
      (device : t.nextDevice = s.nextDevice) : Edit s t
  | close (s : State H P C M) (id : Nat) (closed : Bool) : Edit s (closeHandle s id closed)
  | openHandle (s : State H P C M) (isOpen : Bool) : Edit s (openHandle s isOpen)
  | cancelHardware (s : State H P C M) (h : H) : Edit s (cancelPendingHardwareRelease s h)
  | cancelInterface (s : State H P C M) (h : H) (p : P) :
      Edit s (cancelPendingInterfaceRelease s h p)
  | scheduleInterface (s : State H P C M) (h : H) (p : P) :
      Edit s (scheduleInterfaceRelease s h p)
  | scheduleHardware (s : State H P C M) (h : H) : Edit s (scheduleHardware s h)

/-- A sequence of edits. -/
def Edits : State H P C M → State H P C M → Prop := Relation.ReflTransGen Edit

variable {s t : State H P C M}

theorem linked_cancelHardware (hs : Linked s) (h : H) :
    Linked (cancelPendingHardwareRelease s h) := by
  refine ⟨fun h' id hget => ?_, fun h' p id hget => ?_, fun id timer hget => ?_, hs.handle⟩
  · have hget' : (s.pendingHardware.erase h).get? h' = some id := hget
    rw [Dict.get?_erase] at hget'
    split at hget'
    · cases hget'
    · next hne =>
      change (cancelTask s _).timers.get? id = _
      rw [cancelTask_timers, if_neg, hs.hardware h' id hget']
      intro hsame
      have h₁ := hs.hardware h id hsame
      rw [hs.hardware h' id hget'] at h₁
      exact hne (Timer.hardware.inj (Option.some.inj h₁))
  · have hlive := hs.interface h' p id hget
    change (cancelTask s _).timers.get? id = _
    rw [cancelTask_timers, if_neg, hlive]
    intro hsame
    have h₁ := hs.hardware h id hsame
    rw [hlive] at h₁
    cases h₁
  · change (cancelTask s _).timers.get? id = _ at hget
    rw [cancelTask_timers] at hget
    split at hget
    · cases hget
    · exact hs.task id timer hget

theorem linked_cancelInterface (hs : Linked s) (h : H) (p : P) :
    Linked (cancelPendingInterfaceRelease s h p) := by
  refine ⟨fun h' id hget => ?_, fun h' p' id hget => ?_, fun id timer hget => ?_, hs.handle⟩
  · have hlive := hs.hardware h' id hget
    change (cancelTask s _).timers.get? id = _
    rw [cancelTask_timers, if_neg, hlive]
    intro hsame
    have h₁ := hs.interface h p id hsame
    rw [hlive] at h₁
    cases h₁
  · have hget' : (s.pendingInterface.erase (h, p)).get? (h', p') = some id := hget
    rw [Dict.get?_erase] at hget'
    split at hget'
    · cases hget'
    · next hne =>
      have hlive := hs.interface h' p' id hget'
      change (cancelTask s _).timers.get? id = _
      rw [cancelTask_timers, if_neg, hlive]
      intro hsame
      have h₁ := hs.interface h p id hsame
      rw [hlive] at h₁
      cases h₁
      exact hne rfl
  · change (cancelTask s _).timers.get? id = _ at hget
    rw [cancelTask_timers] at hget
    split at hget
    · cases hget
    · exact hs.task id timer hget

theorem timer_insert_old (hs : Linked s) {id : Nat} {timer : Timer H P} (new : Timer H P)
    (hget : s.timers.get? id = some timer) :
    (s.timers.insert s.nextTask new).get? id = some timer := by
  have hlt := hs.task id timer hget
  rw [Dict.get?_insert, if_neg (by omega), hget]

theorem timer_insert_bound (hs : Linked s) {id : Nat} {timer new : Timer H P}
    (hget : (s.timers.insert s.nextTask new).get? id = some timer) : id < s.nextTask + 1 := by
  rw [Dict.get?_insert] at hget
  split at hget
  · omega
  · have hlt := hs.task id timer hget
    omega

theorem linked_scheduleHardware (hs : Linked s) (h : H) : Linked (scheduleHardware s h) := by
  refine ⟨fun h' id hget => ?_, fun h' p id hget => ?_, fun id timer hget => ?_, hs.handle⟩
  · have hget' : (s.pendingHardware.insert h s.nextTask).get? h' = some id := hget
    rw [Dict.get?_insert] at hget'
    split at hget'
    · next heq =>
      cases hget'
      rw [heq]
      exact Dict.get?_insert_self _ _ _
    · exact timer_insert_old hs _ (hs.hardware h' id hget')
  · exact timer_insert_old hs _ (hs.interface h' p id hget)
  · exact timer_insert_bound hs hget

theorem linked_scheduleInterface (hs : Linked s) (h : H) (p : P) :
    Linked (scheduleInterfaceRelease s h p) := by
  have hs' := linked_cancelInterface hs h p
  refine ⟨fun h' id hget => ?_, fun h' p' id hget => ?_, fun id timer hget => ?_, hs.handle⟩
  · exact timer_insert_old hs' _ (hs'.hardware h' id hget)
  · have hget' : ((cancelPendingInterfaceRelease s h p).pendingInterface.insert (h, p)
        (cancelPendingInterfaceRelease s h p).nextTask).get? (h', p') = some id := hget
    rw [Dict.get?_insert] at hget'
    split at hget'
    · next heq =>
      cases hget'
      cases heq
      exact Dict.get?_insert_self _ _ _
    · exact timer_insert_old hs' _ (hs'.interface h' p' id hget')
  · exact timer_insert_bound hs' hget

theorem linked_edit (h : Edit s t) (hs : Linked s) : Linked t := by
  cases h with
  | tables hardware interface timers task handles device =>
    refine ⟨?_, ?_, ?_, ?_⟩
    · rw [hardware, timers]
      exact hs.hardware
    · rw [interface, timers]
      exact hs.interface
    · rw [timers, task]
      exact hs.task
    · rw [handles, device]
      exact hs.handle
  | close id closed =>
    exact ⟨hs.hardware, hs.interface, hs.task, fun id' hid => hs.handle id' (mem_closeHandle hid)⟩
  | openHandle isOpen =>
    refine ⟨hs.hardware, hs.interface, hs.task, fun id hid => ?_⟩
    change id < s.nextDevice + 1
    obtain rfl | hold := mem_openHandle hid
    · omega
    · have hlt := hs.handle id hold
      omega
  | cancelHardware h => exact linked_cancelHardware hs h
  | cancelInterface h p => exact linked_cancelInterface hs h p
  | scheduleInterface h p => exact linked_scheduleInterface hs h p
  | scheduleHardware h => exact linked_scheduleHardware hs h

theorem linked_edits (h : Edits s t) (hs : Linked s) : Linked t := by
  induction h with
  | refl => exact hs
  | tail _ hedit ih => exact linked_edit hedit ih

/-! ### The transactions as edits -/

section Edits

variable {s t : State H P C M}

theorem Edits.one (h : Edit s t) : Edits s t := Relation.ReflTransGen.single h

theorem Edits.refl (s : State H P C M) : Edits s s := Relation.ReflTransGen.refl

theorem Edits.trans {u : State H P C M} (h : Edits s t) (h' : Edits t u) : Edits s u :=
  Relation.ReflTransGen.trans h h'

/-- The tables that hold tasks and handles are the same in both states. -/
structure SameTasks (t u : State H P C M) : Prop where
  hardware : u.pendingHardware = t.pendingHardware
  interface : u.pendingInterface = t.pendingInterface
  timers : u.timers = t.timers
  task : u.nextTask = t.nextTask
  handles : u.handles = t.handles
  device : u.nextDevice = t.nextDevice

theorem Edits.then {u : State H P C M} (h : Edits s t) (same : SameTasks t u) : Edits s u :=
  h.trans (Edits.one
    (.tables same.hardware same.interface same.timers same.task same.handles same.device))

theorem edits_foldl {α : Type} (f : State H P C M → α → State H P C M)
    (hf : ∀ s a, Edits s (f s a)) (as : List α) (s : State H P C M) : Edits s (as.foldl f s) := by
  induction as generalizing s with
  | nil => exact Edits.refl s
  | cons a as ih => exact (hf s a).trans (ih (f s a))

theorem edits_cancelInterfaces (s : State H P C M) (h : H) :
    Edits s (cancelPendingInterfaceReleases s h) :=
  edits_foldl _ (fun s p => Edits.one (.cancelInterface s h p)) _ s

theorem edits_reconcile (s : State H P C M) (h : H) (plan : Plan P C)
    (existing : List (Device P)) :
    Edits s (reconcileExistingInterfaceReleases s h plan existing) :=
  (edits_foldl _ (fun s (d : Device P) => Edits.one (.cancelInterface s h d.path)) _ s).trans
    (edits_foldl _ (fun s (d : Device P) => Edits.one (.scheduleInterface s h d.path)) _ _)

theorem edits_releaseNew (s : State H P C M) (rollback : P → Release) (new : List (Device P)) :
    Edits s (releaseNew s rollback new).1 := by
  induction new generalizing s with
  | nil => exact Edits.refl s
  | cons d ds ih =>
    unfold releaseNew
    split
    · exact (Edits.one (.close s d.id true)).trans (ih _)
    · next closed _ => exact (Edits.one (.close s d.id closed)).trans (ih _)
    · next closed _ => exact Edits.one (.close s d.id closed)

theorem edits_letGo (s : State H P C M) (meets : Nat → Release) (ds : List (Device P)) :
    Edits s (letGo s meets ds).1 := by
  induction ds generalizing s with
  | nil => exact Edits.refl s
  | cons d ds ih =>
    unfold letGo
    split
    · exact (Edits.one (.close s d.id true)).trans (ih _)
    · next closed _ => exact (Edits.one (.close s d.id closed)).trans (ih _)
    · next closed _ => exact Edits.one (.close s d.id closed)

theorem edits_rollback (s : State H P C M) (t : Transaction H P C) (rollback : P → Release)
    (new : List (Device P)) : Edits s (rollbackFailedGrab s t rollback new) := by
  have hnew := edits_releaseNew s rollback new
  unfold rollbackFailedGrab
  split
  · next heq =>
    rw [heq] at hnew
    exact hnew
  · next s' heq =>
    rw [heq] at hnew
    have hstored := hnew.then (u := storeGrabbedDevices s' t.hardware t.existing)
      (by constructor <;> rfl)
    have hcancelled := hstored.trans (edits_cancelInterfaces _ t.hardware)
    simp only
    split
    · exact hcancelled.then (by constructor <;> rfl)
    · exact hcancelled

variable (modelKey : H → Option M)

variable [DecidableEq M]

theorem edits_finalize (s : State H P C M) (t : Transaction H P C) (finish : Finish)
    (new : List (Device P)) (available : Nat) :
    Edits s (finalizeGrab modelKey s t finish new available).1 := by
  unfold finalizeGrab
  simp only
  split
  · exact Edits.refl s
  · split
    · exact (Edits.refl s).then (by constructor <;> rfl)
    · split
      · split
        · exact (Edits.refl s).then (by constructor <;> rfl)
        · exact (Edits.refl s).then (by constructor <;> rfl)
      · exact (Edits.refl s).then (by constructor <;> rfl)

theorem edits_acquire (t : Transaction H P C) (meets : GrabMeets P) (s : State H P C M)
    (new : List (Device P)) (available : Nat) (paths : List P) :
    Edits s (acquire modelKey t meets s new available paths).1 := by
  induction paths generalizing s new available with
  | nil => exact edits_finalize modelKey s t meets.finish new available
  | cons p rest ih =>
    unfold acquire
    split
    · exact ih s new available
    · split
      · exact ih s new available
      · exact ih s new available
      · exact ih s new (available + 1)
      · next isOpen _ => exact (Edits.one (.openHandle s isOpen)).trans (ih _ new available)
      · next isOpen _ =>
        exact (Edits.one (.openHandle s isOpen)).trans (edits_rollback _ t meets.rollback new)
      · next isOpen _ => exact Edits.one (.openHandle s isOpen)
      · next exclusive _ =>
        exact ((Edits.refl s).then (by constructor <;> rfl)).trans
          ((Edits.one (.openHandle _ exclusive)).trans (ih _ _ _))

omit [DecidableEq M] in
theorem edits_prepare (s : State H P C M) (t : Transaction H P C) : Edits s (prepare s t) := by
  unfold prepare
  split
  · exact ((Edits.refl s).then (by constructor <;> rfl)).trans (edits_reconcile _ _ _ _)
  · exact edits_reconcile _ _ _ _

theorem edits_grabDevice (s : State H P C M) (h : H) (updateDesired : Bool)
    (plan : Option (Plan P C)) (meets : GrabMeets P) :
    Edits s (grabDevice modelKey s h updateDesired plan meets).1 := by
  have hcancel := Edits.one (Edit.cancelHardware s h)
  unfold grabDevice
  simp only
  split
  · exact hcancel
  · exact hcancel.trans ((edits_prepare _ _).trans (edits_acquire modelKey _ meets _ _ _ _))

omit [DecidableEq M] in
theorem edits_releaseTables (s : State H P C M) (h : H) (meets : ReleaseMeets) :
    Edits s (releaseTables s h meets).1 := by
  have hcancel := (Edits.one (Edit.cancelHardware s h)).trans (edits_cancelInterfaces _ h)
  unfold releaseTables
  simp only
  split
  · exact hcancel
  · have hgo := (hcancel.then (by constructor <;> rfl)).trans (edits_letGo { cancelPendingInterfaceReleases
      (cancelPendingHardwareRelease s h) h with
      desiredGrabs := (cancelPendingInterfaceReleases (cancelPendingHardwareRelease s h)
        h).desiredGrabs.erase h
      grabbed := (cancelPendingInterfaceReleases (cancelPendingHardwareRelease s h)
        h).grabbed.erase h } meets.device
      (devices (cancelPendingInterfaceReleases (cancelPendingHardwareRelease s h) h) h))
    split
    · next heq =>
      rw [heq] at hgo
      exact hgo.then (by constructor <;> rfl)
    · next heq =>
      rw [heq] at hgo
      exact hgo.then (by constructor <;> rfl)

theorem edits_releaseDevice (s : State H P C M) (h : H) (meets : ReleaseMeets) :
    Edits s (releaseDevice modelKey s h meets) :=
  (edits_releaseTables s h meets).then (by constructor <;> rfl)

theorem edits_runPolicies (policy : List (H × Bool)) (s : State H P C M) :
    Edits s (policy.foldl (fun s entry => runPolicy modelKey s entry.1 entry.2) s) :=
  edits_foldl _ (fun s _ => (Edits.refl s).then (by constructor <;> rfl)) policy s

theorem edits_releaseEach (meets : H → ReleaseMeets) (s : State H P C M)
    (policy : List (H × Bool)) (hs : List H) :
    Edits s (releaseEach modelKey meets s policy hs) := by
  induction hs generalizing s policy with
  | nil => exact edits_runPolicies modelKey policy s
  | cons h hs ih =>
    have htables := edits_releaseTables s h (meets h)
    unfold releaseEach
    simp only
    split
    · exact htables.trans (edits_runPolicies modelKey _ _)
    · exact htables.trans (ih _ _)

theorem edits_schedule (s : State H P C M) (h : H) (meets : ScheduleMeets) :
    Edits s (scheduleHardwareRelease modelKey s h meets) := by
  unfold scheduleHardwareRelease
  simp only
  split
  · split
    · exact (Edits.refl s).then (by constructor <;> rfl)
    · exact (Edits.refl s).then (by constructor <;> rfl)
  · split
    · exact Edits.refl s
    · split
      · exact (Edits.refl s).then (by constructor <;> rfl)
      · exact ((Edits.refl s).then (by constructor <;> rfl)).trans ((Edits.one (.cancelHardware _ h)).trans
          (Edits.one (.scheduleHardware _ h)))

theorem edits_releaseInterface (s : State H P C M) (h : H) (p : P) (meets : InterfaceMeets) :
    Edits s (releaseInterface modelKey s h p meets) := by
  unfold releaseInterface
  split
  · exact Edits.refl s
  · next removed keep _ =>
    split
    · exact Edits.refl s
    · split
      · next closed _ => exact Edits.one (.close s removed.id closed)
      · next closed _ => exact Edits.one (.close s removed.id closed)
      · have hclosed := Edits.one (Edit.close s removed.id true)
        simp only
        split
        · exact hclosed.then (by constructor <;> rfl)
        · split
          · split
            · exact hclosed.then (by constructor <;> rfl)
            · exact hclosed.then (by constructor <;> rfl)
          · exact hclosed.then (by constructor <;> rfl)

end Edits

/-! ### Timers that end -/

section Fire

variable {s : State H P C M} {task : Nat}

/-- A timer that is not pending ends without a trace. -/
theorem linked_endTimer (hs : Linked s) (hhardware : ∀ h, s.pendingHardware.get? h ≠ some task)
    (hinterface : ∀ h p, s.pendingInterface.get? (h, p) ≠ some task) :
    Linked { s with timers := s.timers.erase task } := by
  refine ⟨fun h id hget => ?_, fun h p id hget => ?_, fun id timer hget => ?_, hs.handle⟩
  · have hne : id ≠ task := by
      rintro rfl
      exact hhardware h hget
    rw [Dict.get?_erase_of_ne _ hne]
    exact hs.hardware h id hget
  · have hne : id ≠ task := by
      rintro rfl
      exact hinterface h p hget
    rw [Dict.get?_erase_of_ne _ hne]
    exact hs.interface h p id hget
  · simp only at hget
    rw [Dict.get?_erase] at hget
    split at hget
    · cases hget
    · exact hs.task id timer hget

variable [DecidableEq M]

omit [DecidableEq H] [DecidableEq P] in
theorem erase_erase_timer (timers : Dict Nat (Timer H P)) (task : Nat) :
    (timers.erase task).erase task = timers.erase task := by
  apply Dict.ext_entries
  simp only [Dict.erase, Dict.filter, List.filter_filter, Bool.and_self]

omit [DecidableEq M] [DecidableEq P] in
/-- The timer that runs its own release is cancelled as any other. -/
theorem cancelHardware_ended {h : H} (hpending : s.pendingHardware.get? h = some task) :
    cancelPendingHardwareRelease { s with timers := s.timers.erase task } h =
      cancelPendingHardwareRelease s h := by
  simp only [cancelPendingHardwareRelease, cancelTask, hpending, Option.elim_some,
    erase_erase_timer]

theorem releaseDevice_ended (modelKey : H → Option M) {h : H} (pressed : List Nat)
    (meets : ReleaseMeets) (hpending : s.pendingHardware.get? h = some task) :
    releaseDevice modelKey (readerStops { s with timers := s.timers.erase task } pressed) h meets =
      releaseDevice modelKey (readerStops s pressed) h meets := by
  have hcancel := cancelHardware_ended (s := readerStops s pressed) hpending
  unfold releaseDevice releaseTables
  rw [show readerStops { s with timers := s.timers.erase task } pressed =
    { readerStops s pressed with timers := (readerStops s pressed).timers.erase task } from rfl,
    hcancel]

variable (modelKey : H → Option M)

theorem linked_fireHardware (hs : Linked s) {h : H}
    (htimer : s.timers.get? task = some (.hardware h)) (pressed : List Nat) (meets : ReleaseMeets) :
    Linked (fireHardware modelKey s task h pressed meets) := by
  unfold fireHardware
  simp only
  split
  · next hpending =>
    refine linked_endTimer hs (fun h' hget => ?_) (fun h' p hget => ?_)
    · have hlive := hs.hardware h' task hget
      rw [htimer] at hlive
      cases hlive
      exact hpending hget
    · have hlive := hs.interface h' p task hget
      rw [htimer] at hlive
      cases hlive
  · next hpending =>
    rw [not_not] at hpending
    split
    · have hcancelled := linked_cancelHardware hs h
      simp only [cancelPendingHardwareRelease, cancelTask, hpending, Option.elim_some] at hcancelled
      exact hcancelled
    · exact hs
    · rw [releaseDevice_ended modelKey pressed meets hpending]
      exact linked_edits (((Edits.refl s).then (by constructor <;> rfl)).trans
        (edits_releaseDevice modelKey _ h meets)) hs

theorem linked_fireInterface (hs : Linked s) {h : H} {p : P}
    (htimer : s.timers.get? task = some (.interface h p)) (meets : InterfaceMeets) :
    Linked (fireInterface modelKey s task h p meets) := by
  unfold fireInterface
  simp only
  split
  · next hpending =>
    refine linked_endTimer hs (fun h' hget => ?_) (fun h' p' hget => ?_)
    · have hlive := hs.hardware h' task hget
      rw [htimer] at hlive
      cases hlive
    · have hlive := hs.interface h' p' task hget
      rw [htimer] at hlive
      cases hlive
      exact hpending hget
  · next hpending =>
    rw [not_not] at hpending
    have hcancelled := linked_cancelInterface hs h p
    simp only [cancelPendingInterfaceRelease, cancelTask, hpending, Option.elim_some] at hcancelled
    split
    · exact hcancelled
    · exact linked_edits (edits_releaseInterface modelKey _ h p meets) hcancelled

theorem linked_step {a : Step H P C} (hs : Linked s) (hstep : step modelKey s a = some t) :
    Linked t := by
  cases a with
  | grab h plan meets =>
    cases hstep
    exact linked_edits (edits_grabDevice modelKey s h true plan meets) hs
  | release h meets =>
    cases hstep
    exact linked_edits (edits_releaseDevice modelKey s h meets) hs
  | releaseAll meets =>
    cases hstep
    exact linked_edits (edits_releaseEach modelKey meets s [] _) hs
  | schedule h meets =>
    cases hstep
    exact linked_edits (edits_schedule modelKey s h meets) hs
  | setMapping h =>
    cases hstep
    exact linked_cancelHardware hs h
  | releaseInterface h p meets =>
    cases hstep
    exact linked_edits (edits_releaseInterface modelKey s h p meets) hs
  | fire task pressed hardware interface =>
    obtain ⟨timer, htimer, rfl⟩ := Option.map_eq_some_iff.mp hstep
    cases timer with
    | hardware h => exact linked_fireHardware modelKey hs htimer pressed hardware
    | interface h p => exact linked_fireInterface modelKey hs htimer interface
  | press device
  | letUp device =>
    cases hstep
    exact ⟨hs.hardware, hs.interface, hs.task, hs.handle⟩

omit [DecidableEq M] in
theorem linked_initial : Linked ({} : State H P C M) := by
  refine ⟨?_, ?_, ?_, ?_⟩
  · intro h id hget
    simp at hget
  · intro h p id hget
    simp at hget
  · intro id timer hget
    simp at hget
  · intro id hid
    simp at hid

theorem linked_run {as : List (Step H P C)} (hs : Linked s)
    (hrun : run (step modelKey) s as = some t) : Linked t :=
  run_invariant (fun _ _ _ hs hstep => linked_step modelKey hs hstep) hs hrun

end Fire

end Keymasq.Grab.Tables
