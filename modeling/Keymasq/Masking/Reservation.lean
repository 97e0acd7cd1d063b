import Keymasq.Foundation.Dict
import Keymasq.Foundation.Transition

/-!
# The reservation of one attachment

The handlers of a reservation take its operation lock, and wait for files and for the
backend while they have it. An activation ends without the lock, and a restore request
writes its phase without it. A refresh leaves the activation before it running.
-/

namespace Keymasq.Masking.Reservation
open Foundation Transition

/- `MaskPhase`. -/
inductive Phase
  | unmasked
  | applying
  | acquiring
  | trial
  | masked
  | restoring
  | restored
  | recoveryFailed
deriving DecidableEq

def Phase.isActive : Phase → Bool
  | .applying | .acquiring | .trial | .masked => true
  | _ => false

def Phase.isRecovering : Phase → Bool
  | .restoring | .recoveryFailed => true
  | _ => false

/- Why a mask is restored; `recoveryFailed` is found in markers only. -/
inductive Reason
  | userRestore
  | monitorFailed
  | lifecycleStop
  | serviceStopped
  | daemonDisconnected
  | daemonUnresponsive
  | serviceRestart
  | replacementUnavailable
  | activationFailed
  | trialExpired
  | hardwareDisconnected
  | hardwareInterfacesChanged
  | recoveryFailed
  | retry
deriving DecidableEq

/- `policy.json`; its `id` is that of the reservation. -/
structure Policy where
  ownerUid : ℕ
  persist : Bool
  hasSelector : Bool := false

/- `_apply`, or the `refresh` of `refresh_interfaces`, of the activation `token`; `quiesced`:
it has waited for the readers. -/
structure ApplyTask where
  token : ℕ
  quiesced : Bool := false

/- The handler that has the operation lock, at an await. `authorised`: the policy allowed
the start when it was looked at. -/
inductive Handler
  | mask (persist : Bool)
  | autostart (authorised : Bool)
  | startingAutomatically
  | keep (token : Option ℕ) (policy : Policy) (asked : ℕ)
  | monitor
  | replacement (forget : Bool)
  | restore (reason : Reason) (inTask : Bool)

/- A request that waits for the operation lock, after what it has checked without it. -/
inductive Waiting
  | replacement (forget : Bool)
  | forget (reason : Reason)
  | enable

/- `MaskReservation`; times are in milliseconds. `tasks` are the unfinished activations and
`applyTask` the last one; `recoveryTask` is the unfinished recovery of a restore request.
`completed` is the last activation whose backend step has succeeded; `authority` says that
the mask, which no recovery has touched, was started by policy, or has been masked. -/
structure State where
  phase : Phase := .unmasked
  token : Option ℕ := none
  automatic : Bool := false
  error : Bool := false
  reason : Option Reason := none
  usb : Bool := false
  policy : Option Policy := none
  sessionUid : Option ℕ := none
  clock : ℕ := 0
  activationDeadline : ℕ := 0
  confirmationDeadline : Option ℕ := none
  tasks : Dict ℕ ApplyTask := ∅
  applyTask : Option ℕ := none
  recoveryTask : Option Reason := none
  handler : Option Handler := none
  waiting : Dict ℕ Waiting := ∅
  marker : Option Reason := none
  journal : Bool := false
  armed : Bool := false
  nextToken : ℕ := 0
  nextId : ℕ := 0
  completed : Option ℕ := none
  authority : Bool := false

def trialMs : ℕ := 30000

/-- `HARDWARE_JOB_TIMEOUT + 15.0` -/
def activationMs : ℕ := 90000

def active (s : State) : Bool := s.phase.isActive

def deadline (s : State) : ℕ :=
  match s.confirmationDeadline with
  | none => s.activationDeadline
  | some confirmationDeadline =>
    if s.phase = .trial then confirmationDeadline
    else min s.activationDeadline confirmationDeadline

def activationTimedOut (s : State) : Bool :=
  (s.phase = .applying || s.phase = .acquiring) && s.activationDeadline ≤ s.clock &&
    s.confirmationDeadline.all fun confirmationDeadline =>
      s.activationDeadline < confirmationDeadline

/-- `check_deadline` does not raise. -/
def inTime (s : State) : Bool := s.clock < deadline s

/-- `save_policy` raises without a session. -/
def savedPolicy (s : State) (persist : Bool) : Option Policy :=
  s.sessionUid.map fun uid =>
    { ownerUid := uid
      persist := persist
      hasSelector := s.usb || s.policy.any Policy.hasSelector }

/-- The saved policy is that of the session's user. -/
def owned (s : State) : Bool := s.policy.any fun policy => s.sessionUid = some policy.ownerUid

/-- The policy of the session's user asks for the mask. -/
def policyAllows (s : State) : Bool := owned s && s.policy.any Policy.persist

/-! ## Activation -/

/-- The end of `_mask`. -/
def activate (s : State) (automatic authorised usb : Bool) : State :=
  { s with
    phase := .applying
    token := some s.nextToken
    automatic := automatic
    error := false
    reason := none
    usb := usb
    activationDeadline := s.clock + activationMs
    confirmationDeadline := none
    tasks := s.tasks.insert s.nextId { token := s.nextToken }
    applyTask := some s.nextId
    marker := none
    nextToken := s.nextToken + 1
    nextId := s.nextId + 1
    authority := authorised }

def refreshInterfaces (s : State) : State :=
  { s with
    phase := .applying
    token := some s.nextToken
    automatic := s.phase = .masked || s.automatic
    activationDeadline :=
      if s.phase = .masked ∨ s.phase = .trial then s.clock + activationMs
      else s.activationDeadline
    confirmationDeadline :=
      if s.phase = .masked ∨ s.automatic then none else s.confirmationDeadline
    tasks := s.tasks.insert s.nextId { token := s.nextToken }
    applyTask := some s.nextId
    nextToken := s.nextToken + 1
    nextId := s.nextId + 1
    authority := s.phase = .masked || s.authority }

def quiesced (s : State) (token : Option ℕ) : State :=
  if inTime s ∧ s.phase = .applying ∧ token = s.token then
    { s with tasks := s.tasks.mapVal fun _ task => { task with quiesced := true } }
  else s

/-- The backend has succeeded or failed. -/
def applied (s : State) (id : ℕ) (task : ApplyTask) (ok : Bool) : State :=
  let s := { s with tasks := s.tasks.erase id }
  if ok then { s with phase := .acquiring, completed := some task.token }
  else { s with error := true, activationDeadline := s.clock }

/-! ## Confirmation -/

/-- `saved`: the policy could be saved once more. -/
def becomeMasked (s : State) (saved : Bool) : State :=
  { s with
    phase := .masked
    policy :=
      if s.automatic ∧ saved then
        (s.policy.bind fun policy => savedPolicy s policy.persist).or s.policy
      else s.policy }

def ready (s : State) (token : Option ℕ) (saved : Bool) : State :=
  if token = s.token ∧ active s ∧ inTime s ∧ s.phase = .acquiring then
    if s.automatic then becomeMasked s saved
    else { s with
      phase := .trial
      confirmationDeadline := some (s.confirmationDeadline.getD (s.clock + trialMs)) }
  else s

/-- `keep`, up to the await of `save_policy`. -/
def keep (s : State) (token : Option ℕ) (persist : Bool) : State :=
  if token = s.token ∧ active s ∧ inTime s ∧ s.phase = .trial then
    match savedPolicy s persist with
    | none => s
    | some policy => { s with handler := some (.keep token policy s.clock) }
  else s

def kept (s : State) (policy : Policy) (saved : Bool) : State :=
  let s := { s with handler := none }
  if saved then
    let s := { s with policy := some policy }
    if s.phase = .trial then becomeMasked s saved else s
  else s

def persistence (s : State) (token : Option ℕ) (persist saved : Bool) : State :=
  if saved ∧ s.policy.all (fun policy => s.sessionUid = some policy.ownerUid) ∧
      (if active s then s.phase = .masked ∧ token = s.token else s.policy.isSome) then
    { s with policy := (savedPolicy s persist).or s.policy }
  else s

/-! ## Recovery -/

/-- `_restore`, up to its await of `recover`. -/
def beginRestore (s : State) (reason : Reason) (inTask : Bool) : State :=
  let reason :=
    if (reason = .lifecycleStop ∨ reason = .serviceStopped) ∧ s.phase = .recoveryFailed then
      s.reason.getD reason
    else reason
  let hadMask := active s || s.journal || s.armed || s.phase.isRecovering
  let clean : Bool := reason = .lifecycleStop ∨ reason = .serviceStopped
  let keepRules :=
    (reason = .hardwareDisconnected || reason = .hardwareInterfacesChanged) && s.usb &&
      policyAllows s && s.policy.any Policy.hasSelector
  let interruptedTrial := hadMask && s.phase ≠ .masked && !s.automatic
  let s := { s with
    marker := if !keepRules && (!clean || interruptedTrial) then some reason else s.marker }
  if hadMask then
    { s with
      phase := .restoring
      reason := some reason
      tasks := s.applyTask.elim s.tasks s.tasks.erase
      handler := some (.restore reason inTask)
      authority := false }
  else
    { s with
      phase := if clean then s.phase else .restored
      reason := if clean then s.reason else some reason
      recoveryTask := if inTask then none else s.recoveryTask
      handler := none
      authority := false }

def recovered (s : State) (reason : Reason) (inTask ok : Bool) : State :=
  { s with
    phase := if ok then .restored else .recoveryFailed
    error := s.error || !ok
    marker := if ok ∧ s.marker = some .recoveryFailed then some reason else s.marker
    recoveryTask := if inTask then none else s.recoveryTask
    handler := none }

def restoreIfExpired (s : State) : Option State :=
  if s.phase = .masked ∨ inTime s then none
  else some (beginRestore { s with error := s.error || activationTimedOut s } .trialExpired false)

/-- What a restore request does without the lock. -/
def beginRecovery (s : State) (reason : Reason) : State :=
  if s.recoveryTask.isNone then
    { s with phase := .restoring, reason := some reason, recoveryTask := some reason }
  else s

/-- `save_policy(False)`, if the policy is the user's own. -/
def forget (s : State) : State :=
  if owned s then { s with policy := (savedPolicy s false).or s.policy } else s

def wait (s : State) (request : Waiting) : State :=
  { s with waiting := s.waiting.insert s.nextId request, nextId := s.nextId + 1 }

/-- `MaskCoordinator.request` with `restore`, up to its first await. -/
def requestRestore (s : State) (token : Option ℕ) (unavailable forgets : Bool) : State :=
  let reason := if unavailable then Reason.replacementUnavailable else .userRestore
  if token ≠ s.token then s
  else if unavailable ∧ s.usb ∧
      (s.phase = .trial ∨ s.phase = .masked ∨ s.phase = .acquiring) then
    wait s (.replacement forgets)
  else if forgets then wait s (.forget reason)
  else beginRecovery s reason

/-- The interfaces have been read. -/
def replaced (s : State) (forgets refreshable : Bool) : State :=
  let s := { s with handler := none }
  if refreshable then refreshInterfaces s
  else if forgets then wait s (.forget .replacementUnavailable)
  else beginRecovery s .replacementUnavailable

/-! ## Automatic start -/

/-- `autostart`, up to the scan. -/
def autostart (s : State) : State :=
  if active s ∨ s.journal ∨ policyAllows s = false ∨
      s.marker.any (fun reason => reason ≠ .lifecycleStop && reason ≠ .serviceStopped) then s
  else { s with marker := none, handler := some (.autostart (policyAllows s)) }

/- The attachment is there and can be masked, it is absent or not due, or its start fails. -/
inductive Start
  | started
  | absent
  | failed

def autostarted (s : State) (authorised : Bool) (outcome : Start) (usb : Bool) : State :=
  let s := { s with handler := none }
  match outcome with
  | .absent => s
  | .failed => { s with error := true }
  | .started =>
    if active s ∨ s.journal then { s with error := true }
    else { activate s false authorised usb with handler := some .startingAutomatically }

/-- `resolved` and `saved`: the attachment is found, and the policy could be saved. -/
def masked (s : State) (persist resolved saved usb : Bool) : State :=
  let s := { s with handler := none }
  let confirmed := persist && owned s
  if resolved = false ∨ (confirmed ∧ saved = false) then s
  else
    let s := { s with policy := if confirmed then savedPolicy s true else s.policy }
    activate s confirmed (confirmed && policyAllows s) usb

/-! ## The monitor -/

/-- `_monitor_once`, up to its first await. -/
def monitor (s : State) (verificationDue : Bool) : State :=
  if s.phase = .recoveryFailed then beginRestore s (s.reason.getD .retry) false
  else if active s then
    if s.error then beginRestore s .activationFailed false
    else match restoreIfExpired s with
      | some t => t
      | none =>
        if s.phase = .applying ∨ verificationDue = false then s
        else { s with handler := some .monitor }
  else s

inductive Finding
  | unreadable
  | missing
  | same
  | refreshable
  | changed

def monitored (s : State) (finding : Finding) : State :=
  let s := { s with handler := none }
  match finding with
  | .unreadable => s
  | .missing => beginRestore s .hardwareDisconnected false
  | .same => (restoreIfExpired s).getD s
  | .refreshable => refreshInterfaces s
  | .changed => beginRestore s .hardwareInterfacesChanged false

/-! ## Steps -/

/-- A request that waited has the lock; `saved`: the policy could be saved. -/
def enter (s : State) (saved : Bool) : Waiting → State
  | .replacement forgets => { s with handler := some (.replacement forgets) }
  | .forget reason =>
    if owned s ∧ saved = false then s else beginRecovery (forget s) reason
  | .enable =>
    if active s ∨ s.journal ∨ saved = false then s
    else match savedPolicy s true with
      | none => s
      | some policy => autostart { s with policy := some policy, marker := none }

/- The steps after `session` and `backend`, which is what the backend does to its journal
and rules, are requests and those of the monitor; a past participle is the end of an await,
`recover` the begin of the recovery task, and `enter` the end of a wait for the lock. -/
inductive Step
  | tick (elapsed : ℕ)
  | session (uid : Option ℕ)
  | backend (journal armed : Bool)
  | mask (persist : Bool)
  | masked (resolved saved usb : Bool)
  | quiesced (token : Option ℕ)
  | applied (id : ℕ) (ok : Bool)
  | ready (token : Option ℕ) (saved : Bool)
  | keep (token : Option ℕ) (persist : Bool)
  | kept (saved : Bool)
  | persistence (token : Option ℕ) (persist saved : Bool)
  | resume
  | autostart
  | autostarted (outcome : Start) (usb : Bool)
  | startedAutomatically
  | monitor (verificationDue : Bool)
  | monitored (finding : Finding)
  | requestRestore (token : Option ℕ) (unavailable forgets : Bool)
  | requestEnable
  | enter (id : ℕ) (saved : Bool)
  | replaced (refreshable : Bool)
  | recover
  | restore (reason : Reason) (forgets : Bool)
  | recovered (ok : Bool)

/-- With the operation lock. -/
def locked (s t : State) : Option State := if s.handler.isSome then none else some t

def step (s : State) : Step → Option State
  | .tick elapsed => some { s with clock := s.clock + elapsed }
  | .session uid => some { s with sessionUid := uid }
  | .backend journal armed => some { s with journal := journal, armed := armed }
  | .mask persist =>
    locked s (if active s ∨ s.journal then s else { s with handler := some (.mask persist) })
  | .masked resolved saved usb =>
    match s.handler with
    | some (.mask persist) => some (masked s persist resolved saved usb)
    | _ => none
  | .quiesced token => locked s (quiesced s token)
  | .applied id ok =>
    (s.tasks.get? id).bind fun task => if task.quiesced then some (applied s id task ok) else none
  | .ready token saved => locked s (ready s token saved)
  | .keep token persist => locked s (keep s token persist)
  | .kept saved =>
    match s.handler with
    | some (.keep _ policy _) => some (kept s policy saved)
    | _ => none
  | .persistence token persist saved => locked s (persistence s token persist saved)
  | .resume => locked s (if active s ∨ s.journal then s else { s with marker := none })
  | .autostart => locked s (autostart s)
  | .autostarted outcome usb =>
    match s.handler with
    | some (.autostart authorised) => some (autostarted s authorised outcome usb)
    | _ => none
  | .startedAutomatically =>
    match s.handler with
    | some .startingAutomatically => some { s with handler := none, automatic := true }
    | _ => none
  | .monitor verificationDue => locked s (monitor s verificationDue)
  | .monitored finding =>
    match s.handler with
    | some .monitor => some (monitored s finding)
    | _ => none
  | .requestRestore token unavailable forgets => some (requestRestore s token unavailable forgets)
  | .requestEnable => some (if owned s then wait s .enable else s)
  | .enter id saved =>
    (s.waiting.get? id).bind fun request =>
      locked s (enter { s with waiting := s.waiting.erase id } saved request)
  | .replaced refreshable =>
    match s.handler with
    | some (.replacement forgets) => some (replaced s forgets refreshable)
    | _ => none
  | .recover => s.recoveryTask.bind fun reason => locked s (beginRestore s reason true)
  | .restore reason forgets =>
    locked s (beginRestore (if forgets then forget s else s) reason false)
  | .recovered ok =>
    match s.handler with
    | some (.restore reason inTask) => some (recovered s reason inTask ok)
    | _ => none

end Keymasq.Masking.Reservation
