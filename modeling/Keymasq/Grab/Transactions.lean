import Keymasq.Foundation.Dict
import Keymasq.Foundation.Transition

/-!
# Grabs and releases of physical devices

The transactions that run under the operation lock of the device manager: a grab
acquires the interfaces of one hardware one by one, a release lets them go at once or
after a grace time. Every step of a transaction may fail or be cancelled.
-/

namespace Keymasq.Grab.Transactions
open Foundation

/- One grabbed interface; `id` is the identity of the object and of its handle. -/
structure Device (P : Type) where
  id : Nat
  path : P

/- `DesiredGrabConfig`: `hidesSource` says that its interfaces have a gamepad whose source
is to be hidden, `settings` is the rest of it. -/
structure Config (P C : Type) where
  paths : Finset P
  hidesSource : Bool
  settings : C

/- A delayed release that sleeps, or waits for the operation lock. -/
inductive Timer (H P : Type)
  | hardware (h : H)
  | interface (h : H) (p : P)

/- The tables of the manager and of its grab state, the hotplug-hiding flags of the
models, the handles that are open and grabbed, and the devices with held inputs. -/
structure State (H P C M : Type) where
  grabbed : Dict H (List (Device P)) := ∅
  desiredPaths : Dict H (Finset P) := ∅
  desiredGrabs : Dict H (Config P C) := ∅
  pendingInterface : Dict (H × P) Nat := ∅
  pendingHardware : Dict H Nat := ∅
  timers : Dict Nat (Timer H P) := ∅
  hiddenModels : Finset M := ∅
  handles : Finset Nat := ∅
  held : Finset Nat := ∅
  nextDevice : Nat := 0
  nextTask : Nat := 0

/- What `build_grab_plan` resolves for a request; `configured` says that it has raw
interfaces, `mapped` that it has mapped names or bindings, and `claims` are the paths
that a grabbed device claims. -/
structure Plan (P C : Type) where
  requestedPaths : List P
  desiredPaths : Finset P
  requestedClaims : Finset P
  claims : P → Finset P
  configured : Bool
  mapped : Bool
  hidesSource : Bool
  settings : C
  requested_desired : ∀ p ∈ requestedPaths, p ∈ desiredPaths

/- How the release of one device goes; `closed` says whether its handle was closed
before the step that ended it. -/
inductive Release
  | done
  | fails (closed : Bool)
  | cancelled (closed : Bool)
  deriving DecidableEq

/- What the grab of one requested path meets: it is blocked by masking, of another
model, without mapped buttons, grabbed (or observed, where it is not `exclusive`), not
there any more, or ends with an error or a cancellation. `open` says that the clean-up
of the attempt did not get to the handle, which stays open and grabbed. -/
inductive Interface
  | blocked
  | otherModel
  | unmapped
  | grabs (exclusive : Bool)
  | gone (isOpen : Bool)
  | fails (isOpen : Bool)
  | cancelled (isOpen : Bool)

/- The end of `finalize_grab`: the refresh of the hiding flag is cancelled, or the
update of the kept devices raises. -/
inductive Finish
  | done
  | refreshCancelled
  | updateRaises
  deriving DecidableEq

structure GrabMeets (P : Type) where
  interface : P → Interface
  rollback : P → Release := fun _ => .done
  finish : Finish := .done

/- How a release of all devices of a hardware goes: it may end before it takes them
from the table. -/
structure ReleaseMeets where
  aborts : Bool := false
  device : Nat → Release := fun _ => .done

inductive Ended
  | done
  | raised
  deriving DecidableEq

variable {H P C M : Type} [DecidableEq H] [DecidableEq P] [DecidableEq M]
variable (modelKey : H → Option M)

/-! ## The tables -/

def devices (s : State H P C M) (h : H) : List (Device P) := s.grabbed.getD h []

/-- `store_grabbed_devices`. -/
def storeGrabbedDevices (s : State H P C M) (h : H) (ds : List (Device P)) : State H P C M :=
  { s with grabbed := if ds = [] then s.grabbed.erase h else s.grabbed.insert h ds }

def closeHandle (s : State H P C M) (id : Nat) (closed : Bool) : State H P C M :=
  { s with handles := if closed then s.handles.erase id else s.handles }

/-! ## Delayed releases -/

/-- `_cancel_unless_current`; the task that runs a release is not among the timers. -/
def cancelTask (s : State H P C M) (task : Option Nat) : State H P C M :=
  { s with timers := task.elim s.timers s.timers.erase }

def cancelPendingHardwareRelease (s : State H P C M) (h : H) : State H P C M :=
  { cancelTask s (s.pendingHardware.get? h) with pendingHardware := s.pendingHardware.erase h }

def cancelPendingInterfaceRelease (s : State H P C M) (h : H) (p : P) : State H P C M :=
  { cancelTask s (s.pendingInterface.get? (h, p)) with
    pendingInterface := s.pendingInterface.erase (h, p) }

def cancelPendingInterfaceReleases (s : State H P C M) (h : H) : State H P C M :=
  ((s.pendingInterface.keys.filter fun key => key.1 = h).map Prod.snd).foldl
    (fun s p => cancelPendingInterfaceRelease s h p) s

def scheduleInterfaceRelease (s : State H P C M) (h : H) (p : P) : State H P C M :=
  let s := cancelPendingInterfaceRelease s h p
  { s with
    pendingInterface := s.pendingInterface.insert (h, p) s.nextTask
    timers := s.timers.insert s.nextTask (.interface h p)
    nextTask := s.nextTask + 1 }

/-! ## Hotplug hiding -/

/-- `hardware_waiting_for_grab`, for a desired grab that asks for source hiding. -/
def waitsHidden (s : State H P C M) (h : H) : Bool :=
  (s.desiredGrabs.get? h).any Config.hidesSource && devices s h = []

/-- `enable_hardware_hotplug_hiding`. -/
def enableHotplugHiding (s : State H P C M) (h : H) : State H P C M :=
  { s with hiddenModels := (modelKey h).elim s.hiddenModels fun m => insert m s.hiddenModels }

/-- `disable_hardware_hotplug_hiding_if_unused`. -/
def disableHotplugHidingIfUnused (s : State H P C M) (h : H) : State H P C M :=
  { s with hiddenModels := (modelKey h).elim s.hiddenModels fun m =>
      if s.desiredGrabs.keys.any fun h' => h' ≠ h ∧ waitsHidden s h' ∧ modelKey h' = some m then
        s.hiddenModels
      else s.hiddenModels.erase m }

/-! ## Grabs -/

/- A grab request with its plan, and the snapshot that the plan has of the state. -/
structure Transaction (H P C : Type) where
  hardware : H
  updateDesired : Bool
  plan : Plan P C
  existing : List (Device P)
  previousPaths : Option (Finset P)
  previousConfig : Option (Config P C)

def restore {κ ν : Type} [DecidableEq κ] (d : Dict κ ν) (k : κ) : Option ν → Dict κ ν
  | none => d.erase k
  | some v => d.insert k v

def persistDesiredGrab (s : State H P C M) (h : H) (plan : Plan P C) : State H P C M :=
  { s with
    desiredPaths := s.desiredPaths.insert h plan.desiredPaths
    desiredGrabs := s.desiredGrabs.insert h
      { paths := plan.desiredPaths, hidesSource := plan.hidesSource, settings := plan.settings } }

def restoreDesiredGrabState (s : State H P C M) (t : Transaction H P C) : State H P C M :=
  { s with
    desiredPaths := restore s.desiredPaths t.hardware t.previousPaths
    desiredGrabs := restore s.desiredGrabs t.hardware t.previousConfig }

/-- An existing device whose interface is requested again. -/
def kept (plan : Plan P C) (d : Device P) : Bool :=
  ¬ Disjoint (plan.claims d.path) plan.requestedClaims

def reconcileExistingInterfaceReleases (s : State H P C M) (h : H) (plan : Plan P C)
    (existing : List (Device P)) : State H P C M :=
  let s := (existing.filter (kept plan)).foldl
    (fun s d => cancelPendingInterfaceRelease s h d.path) s
  (existing.filter fun d => ¬ kept plan d).foldl
    (fun s d => scheduleInterfaceRelease s h d.path) s

/-- `existing_by_claim_path`. -/
def claimed (t : Transaction H P C) (p : P) : Bool :=
  t.existing.any fun d => p ∈ t.plan.claims d.path

/-- The rollback lets the new devices go; a cancellation leaves it. -/
def releaseNew (s : State H P C M) (rollback : P → Release) :
    List (Device P) → State H P C M × Ended
  | [] => (s, .done)
  | d :: ds =>
    match rollback d.path with
    | .done => releaseNew (closeHandle s d.id true) rollback ds
    | .fails closed => releaseNew (closeHandle s d.id closed) rollback ds
    | .cancelled closed => (closeHandle s d.id closed, .raised)

/-- `rollback_failed_grab_report`. -/
def rollbackFailedGrab (s : State H P C M) (t : Transaction H P C) (rollback : P → Release)
    (new : List (Device P)) : State H P C M :=
  match releaseNew s rollback new with
  | (s, .raised) => s
  | (s, .done) =>
    let s := storeGrabbedDevices s t.hardware t.existing
    let s := cancelPendingInterfaceReleases s t.hardware
    if t.updateDesired then restoreDesiredGrabState s t else s

def finalizeGrab (s : State H P C M) (t : Transaction H P C) (finish : Finish)
    (new : List (Device P)) (available : Nat) : State H P C M × Ended :=
  let waiting := (t.plan.requestedPaths ≠ [] ∨ t.plan.configured) ∧ available = 0 ∧
    t.existing ++ new = []
  if ¬ waiting ∧ devices s t.hardware = [] ∧ t.plan.requestedPaths ≠ [] ∧ t.plan.mapped ∧
      new = [] then
    (s, .raised)
  else
    let s := storeGrabbedDevices s t.hardware (t.existing ++ new)
    if t.updateDesired ∧ finish = .refreshCancelled then (s, .raised)
    else
      let s :=
        if t.updateDesired then
          if t.plan.hidesSource ∧ waiting then enableHotplugHiding modelKey s t.hardware
          else disableHotplugHidingIfUnused modelKey s t.hardware
        else s
      (s, if finish = .updateRaises then .raised else .done)

/-- A new device, with a handle that is open and grabbed or without. -/
def openHandle (s : State H P C M) (isOpen : Bool) : State H P C M :=
  { s with
    handles := if isOpen then insert s.nextDevice s.handles else s.handles
    nextDevice := s.nextDevice + 1 }

/-- `grab_one_interface` for each requested path, and then `finalize_grab`. -/
def acquire (t : Transaction H P C) (meets : GrabMeets P) :
    State H P C M → List (Device P) → Nat → List P → State H P C M × Ended
  | s, new, available, [] => finalizeGrab modelKey s t meets.finish new available
  | s, new, available, p :: rest =>
    if claimed t p then acquire t meets s new available rest
    else
      match meets.interface p with
      | .blocked => acquire t meets s new available rest
      | .otherModel => acquire t meets s new available rest
      | .unmapped => acquire t meets s new (available + 1) rest
      | .gone isOpen => acquire t meets (openHandle s isOpen) new available rest
      | .fails isOpen => (rollbackFailedGrab (openHandle s isOpen) t meets.rollback new, .raised)
      | .cancelled isOpen => (openHandle s isOpen, .raised)
      | .grabs exclusive =>
        let device : Device P := { id := s.nextDevice, path := p }
        let s := storeGrabbedDevices s t.hardware (t.existing ++ (new ++ [device]))
        acquire t meets (openHandle s exclusive) (new ++ [device]) (available + 1) rest

/-- What a grab takes down of the state, before it changes what is desired. -/
def transaction (s : State H P C M) (h : H) (updateDesired : Bool) (plan : Plan P C) :
    Transaction H P C :=
  { hardware := h
    updateDesired := updateDesired
    plan := plan
    existing := devices s h
    previousPaths := s.desiredPaths.get? h
    previousConfig := s.desiredGrabs.get? h }

/-- The grab up to the first requested path. -/
def prepare (s : State H P C M) (t : Transaction H P C) : State H P C M :=
  let s := if t.updateDesired then persistDesiredGrab s t.hardware t.plan else s
  reconcileExistingInterfaceReleases s t.hardware t.plan t.existing

/-- `grab_device_unlocked`; there is no plan where `build_grab_plan` raises. -/
def grabDevice (s : State H P C M) (h : H) (updateDesired : Bool) (plan : Option (Plan P C))
    (meets : GrabMeets P) : State H P C M × Ended :=
  let s := cancelPendingHardwareRelease s h
  match plan with
  | none => (s, .raised)
  | some plan =>
    let t := transaction s h updateDesired plan
    acquire modelKey t meets (prepare s t) [] 0 plan.requestedPaths

/-! ## Releases -/

/-- The release attempts of all devices; those that are not released stay. -/
def letGo (s : State H P C M) (meets : Nat → Release) :
    List (Device P) → State H P C M × List (Device P) × Ended
  | [] => (s, [], .done)
  | d :: ds =>
    match meets d.id with
    | .done => letGo (closeHandle s d.id true) meets ds
    | .fails closed =>
      let (s, unreleased, ended) := letGo (closeHandle s d.id closed) meets ds
      (s, d :: unreleased, ended)
    | .cancelled closed => (closeHandle s d.id closed, d :: ds, .raised)

/-- `release_device_unlocked` without its source policy; the result says whether the
policy is to be refreshed, and whether the release was cancelled. -/
def releaseTables (s : State H P C M) (h : H) (meets : ReleaseMeets) :
    State H P C M × Bool × Ended :=
  let s := cancelPendingInterfaceReleases (cancelPendingHardwareRelease s h) h
  if meets.aborts then (s, false, .raised)
  else
    let hides := (s.desiredGrabs.get? h).any Config.hidesSource
    let ds := devices s h
    let s := { s with desiredGrabs := s.desiredGrabs.erase h, grabbed := s.grabbed.erase h }
    match letGo s meets.device ds with
    | (s, unreleased, .raised) => (storeGrabbedDevices s h unreleased, hides, .raised)
    | (s, unreleased, .done) =>
      let s := storeGrabbedDevices s h unreleased
      ({ s with desiredPaths := s.desiredPaths.erase h }, hides, .done)

def runPolicy (s : State H P C M) (h : H) (hides : Bool) : State H P C M :=
  { s with hiddenModels :=
      if hides then (disableHotplugHidingIfUnused modelKey s h).hiddenModels else s.hiddenModels }

def releaseDevice (s : State H P C M) (h : H) (meets : ReleaseMeets) : State H P C M :=
  let r := releaseTables s h meets
  runPolicy modelKey r.1 h r.2.1

/-- The hardware that `release_all_devices` releases, one after the other; a
cancellation ends it, and all policy runs at the end. -/
def releaseEach (meets : H → ReleaseMeets) :
    State H P C M → List (H × Bool) → List H → State H P C M
  | s, policy, [] => policy.foldl (fun s entry => runPolicy modelKey s entry.1 entry.2) s
  | s, policy, h :: hs =>
    let r := releaseTables s h (meets h)
    let policy := policy ++ [(h, r.2.1)]
    if r.2.2 = .raised ∧ ¬ (meets h).aborts then
      policy.foldl (fun s entry => runPolicy modelKey s entry.1 entry.2) r.1
    else releaseEach meets r.1 policy hs

def releaseAllDevices (s : State H P C M) (meets : H → ReleaseMeets) : State H P C M :=
  releaseEach modelKey meets s [] (s.grabbed.keys ++ s.desiredGrabs.keys).dedup

/- The request for a delayed release: the reset of the devices raises, or the refresh
of the hiding flag is cancelled. -/
inductive ScheduleMeets
  | done
  | resetRaises
  | refreshCancelled
  deriving DecidableEq

/-- `schedule_hardware_release_unlocked`. -/
def scheduleHardwareRelease (s : State H P C M) (h : H) (meets : ScheduleMeets) :
    State H P C M :=
  let hides := (s.desiredGrabs.get? h).any Config.hidesSource
  if devices s h = [] then
    let s := { s with
      desiredGrabs := s.desiredGrabs.erase h, desiredPaths := s.desiredPaths.erase h }
    if meets = .refreshCancelled then s else runPolicy modelKey s h hides
  else if meets = .resetRaises then s
  else
    let s := { s with desiredPaths := s.desiredPaths.insert h ∅ }
    if meets = .refreshCancelled ∧ hides then s
    else
      let s := cancelPendingHardwareRelease (runPolicy modelKey s h hides) h
      { s with
        pendingHardware := s.pendingHardware.insert h s.nextTask
        timers := s.timers.insert s.nextTask (.hardware h)
        nextTask := s.nextTask + 1 }

/-- The lists without and with the first device at the path. -/
def takeAt (p : P) : List (Device P) → Option (Device P × List (Device P))
  | [] => none
  | d :: ds =>
    if d.path = p then some (d, ds)
    else (takeAt p ds).map fun r => (r.1, d :: r.2)

/- How the release of one interface goes; it may end before the device is released. -/
structure InterfaceMeets where
  aborts : Bool := false
  device : Release := .done

/-- `release_interface_unlocked`. -/
def releaseInterface (s : State H P C M) (h : H) (p : P) (meets : InterfaceMeets) :
    State H P C M :=
  match takeAt p (devices s h) with
  | none => s
  | some (removed, keep) =>
    if meets.aborts then s
    else
      match meets.device with
      | .fails closed => closeHandle s removed.id closed
      | .cancelled closed => closeHandle s removed.id closed
      | .done =>
        let s := storeGrabbedDevices (closeHandle s removed.id true) h keep
        if keep ≠ [] then s
        else if (s.desiredPaths.getD h ∅) ≠ ∅ then
          if (s.desiredGrabs.get? h).any Config.hidesSource then enableHotplugHiding modelKey s h
          else s
        else
          { s with
            desiredPaths := s.desiredPaths.erase h
            desiredGrabs := s.desiredGrabs.erase h }

/-! ## The timers -/

inductive Decision
  | cancel
  | defer
  | release

def hardwareHasHeldInputs (s : State H P C M) (h : H) : Bool :=
  (devices s h).any fun d => d.id ∈ s.held

/-- `hardware_release_decision`. -/
def hardwareReleaseDecision (s : State H P C M) (h : H) : Decision :=
  if s.desiredPaths.getD h ∅ ≠ ∅ then .cancel
  else if hardwareHasHeldInputs s h then .defer
  else .release

/-- Keys that the readers of the hardware still read while they are stopped. -/
def readerStops (s : State H P C M) (pressed : List Nat) : State H P C M :=
  { s with held := s.held ∪ pressed.toFinset }

/-- `delayed_hardware_release` with the lock; the timer sleeps again if it defers. -/
def fireHardware (s : State H P C M) (task : Nat) (h : H) (pressed : List Nat)
    (meets : ReleaseMeets) : State H P C M :=
  let ended := { s with timers := s.timers.erase task }
  if s.pendingHardware.get? h ≠ some task then ended
  else
    match hardwareReleaseDecision s h with
    | .cancel => { ended with pendingHardware := ended.pendingHardware.erase h }
    | .defer => s
    | .release => releaseDevice modelKey (readerStops ended pressed) h meets

/-- `delayed_interface_release` with the lock. -/
def fireInterface (s : State H P C M) (task : Nat) (h : H) (p : P) (meets : InterfaceMeets) :
    State H P C M :=
  let ended := { s with timers := s.timers.erase task }
  if s.pendingInterface.get? (h, p) ≠ some task then ended
  else
    let s := { ended with pendingInterface := ended.pendingInterface.erase (h, p) }
    if p ∈ s.desiredPaths.getD h ∅ then s
    else releaseInterface modelKey s h p meets

/-! ## Steps -/

/- One transaction, or an input event. The topology watcher and the reader of a
disconnected device release single interfaces. -/
inductive Step (H P C : Type)
  | grab (h : H) (plan : Option (Plan P C)) (meets : GrabMeets P)
  | release (h : H) (meets : ReleaseMeets)
  | releaseAll (meets : H → ReleaseMeets)
  | schedule (h : H) (meets : ScheduleMeets)
  | setMapping (h : H)
  | releaseInterface (h : H) (p : P) (meets : InterfaceMeets)
  | fire (task : Nat) (pressed : List Nat) (hardware : ReleaseMeets) (interface : InterfaceMeets)
  | press (device : Nat)
  | letUp (device : Nat)

def step (s : State H P C M) : Step H P C → Option (State H P C M)
  | .grab h plan meets => some (grabDevice modelKey s h true plan meets).1
  | .release h meets => some (releaseDevice modelKey s h meets)
  | .releaseAll meets => some (releaseAllDevices modelKey s meets)
  | .schedule h meets => some (scheduleHardwareRelease modelKey s h meets)
  -- Neither an error of the mapping nor its success changes these tables further.
  | .setMapping h => some (cancelPendingHardwareRelease s h)
  | .releaseInterface h p meets => some (releaseInterface modelKey s h p meets)
  | .fire task pressed hardware interface =>
    (s.timers.get? task).map fun timer =>
      match timer with
      | .hardware h => fireHardware modelKey s task h pressed hardware
      | .interface h p => fireInterface modelKey s task h p interface
  | .press device => some { s with held := insert device s.held }
  | .letUp device => some { s with held := s.held.erase device }

end Keymasq.Grab.Transactions
