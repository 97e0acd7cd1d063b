import Keymasq.Foundation.Transition
import Keymasq.Session.References

/-!
# Applying profile payloads

Every reevaluation starts a new generation, which supersedes the apply in
flight of the older one. A superseded apply still waits for its answer before
it ends, so applies of several generations can wait side by side. The daemon
handles commands in the order they were sent.
-/

namespace Keymasq.Session.Apply
open Foundation References

/-- How resolved combos or mappings become payloads: the commands that need a reference, and the
signature the session compares. -/
structure Serializer (Content S : Type) where
  commands : Content → List String
  signature : Content → S

/-- The data of SET_COMBOS or SET_MAPPING. -/
structure Payload (Content : Type) where
  requestId : ℕ
  target : Owner
  content : Content
  refs : List ℕ
deriving DecidableEq

inductive Command (Content : Type)
  | set (payload : Payload Content)
  | releaseDevice (hardwareId : String)
  | unusedExecRefs (refs : List ℕ)
deriving DecidableEq

structure Request (Content : Type) where
  requestId : ℕ
  command : Command Content

/-- `waiting` is an `ok` with `waiting_for_device`. -/
inductive Verdict
  | ok
  | waiting
  | error
  | unused (refs : List ℕ)
deriving DecidableEq

structure Response where
  requestId : ℕ
  verdict : Verdict
deriving DecidableEq

/-- An `update_combos`, `update_mapping` or `_send_set_mapping_command` that awaits its answer. -/
structure PendingApply (Content : Type) where
  payload : Payload Content
  staged : ReferenceSnapshot
  generation : ℕ
  deviceRequest : ℕ

/-- A `deactivate_profile` that awaits its answer. -/
structure Release where
  requestId : ℕ
  hardwareId : String

/-- A `collect_retired` that awaits its answer. -/
structure Collection where
  requestId : ℕ
  snapshot : List (ℕ × ExecBinding)

/-- `acknowledged`, `accepted` and `reportedUnused` only remember what happened: the command
each stored signature comes from, the payloads the daemon has taken and the references it has
reported unused. -/
structure System (Content S : Type) where
  applyGeneration : ℕ := 0
  lastSentSignatures : Dict Owner S := ∅
  acknowledged : Dict Owner ℕ := ∅
  grabbedDevices : Finset String := ∅
  acknowledgedDeviceRequests : Dict String ℕ := ∅
  deviceRequestSequence : ℕ := 0
  execState : ExecRuntimeState := {}
  applies : List (PendingApply Content) := []
  release : Option Release := none
  collection : Option Collection := none
  requestCounter : ℕ := 0
  requests : List (Request Content) := []
  responses : List Response := []
  installed : Dict Owner (Payload Content) := ∅
  accepted : List (Payload Content) := []
  reportedUnused : Finset ℕ := ∅

namespace System

variable {Content S : Type}

/- The newest generation runs one command after the other. -/
def idle (x : System Content S) : Bool :=
  x.release.isNone && x.applies.all fun a => a.generation ≠ x.applyGeneration

/-- `begin`: the task of the previous generation is cancelled. A pending release ends at once,
applies settle first. -/
def begin (x : System Content S) : System Content S :=
  { x with applyGeneration := x.applyGeneration + 1, release := none }

def send (x : System Content S) (command : Command Content) : System Content S :=
  { x with
    requestCounter := x.requestCounter + 1
    requests := x.requests ++ [⟨x.requestCounter + 1, command⟩] }

/- `_begin_device_request`; combos have no request number of their own. -/
def nextDeviceRequest (x : System Content S) : Owner → ℕ
  | .combos => x.deviceRequestSequence
  | .device _ => x.deviceRequestSequence + 1

/-- Stage the references of a payload, expose them and send the payload. -/
def apply (ser : Serializer Content S) (x : System Content S) (target : Owner)
    (content : Content) : System Content S :=
  let (staged, refs, execState) := x.execState.stage target (ser.commands content)
  let payload : Payload Content := ⟨x.requestCounter + 1, target, content, refs⟩
  { x with
    execState := execState.expose staged
    deviceRequestSequence := x.nextDeviceRequest target
    applies := ⟨payload, staged, x.applyGeneration, x.nextDeviceRequest target⟩ ::
      x.applies }.send (.set payload)

/- The socket refuses the command, so nothing is sent. -/
def applyUnsent (ser : Serializer Content S) (x : System Content S) (target : Owner)
    (content : Content) : System Content S :=
  let (staged, _, execState) := x.execState.stage target (ser.commands content)
  { x with
    execState := (execState.expose staged).discard staged
    deviceRequestSequence := x.nextDeviceRequest target }

def tryApply (ser : Serializer Content S) (x : System Content S) (target : Owner)
    (content : Content) (sent : Bool) : System Content S :=
  if sent then x.apply ser target content else x.applyUnsent ser target content

def unchanged [DecidableEq S] (ser : Serializer Content S) (x : System Content S) (target : Owner)
    (content : Content) : Bool :=
  x.lastSentSignatures.get? target = some (ser.signature content)

def updateCombos [DecidableEq S] (ser : Serializer Content S) (x : System Content S)
    (content : Content) (sent : Bool) : System Content S :=
  if x.unchanged ser .combos content then x else x.tryApply ser .combos content sent

/-- `_reconcile_existing_grab` and `update_mapping`. -/
def updateMapping [DecidableEq S] (ser : Serializer Content S) (x : System Content S)
    (hardwareId : String) (content : Content) (sent : Bool) : System Content S :=
  if x.unchanged ser (.device hardwareId) content ∨ hardwareId ∉ x.grabbedDevices then x
  else x.tryApply ser (.device hardwareId) content sent

/- After a grab the mapping is sent in any case. -/
def setMapping (ser : Serializer Content S) (x : System Content S) (hardwareId : String)
    (content : Content) (sent : Bool) : System Content S :=
  if hardwareId ∉ x.grabbedDevices then x
  else x.tryApply ser (.device hardwareId) content sent

def acknowledgeDeviceRequest (x : System Content S) (hardwareId : String) (request : ℕ) :
    System Content S :=
  { x with
    acknowledgedDeviceRequests := x.acknowledgedDeviceRequests.insert hardwareId
      (max (x.acknowledgedDeviceRequests.getD hardwareId 0) request) }

/-- What `_send_grab_device_command` records about an answered grab. -/
def grabDevice (x : System Content S) (hardwareId : String) (grabbed : Bool) :
    System Content S :=
  let x := { x with deviceRequestSequence := x.deviceRequestSequence + 1 }
  if grabbed then
    { x with grabbedDevices := insert hardwareId x.grabbedDevices }.acknowledgeDeviceRequest
      hardwareId x.deviceRequestSequence
  else
    { x with
      grabbedDevices := x.grabbedDevices.erase hardwareId
      lastSentSignatures := x.lastSentSignatures.erase (.device hardwareId) }

def deactivateProfile (x : System Content S) (hardwareId : String) : System Content S :=
  if hardwareId ∉ x.grabbedDevices then x
  else
    { x with release := some ⟨x.requestCounter + 1, hardwareId⟩ }.send
      (.releaseDevice hardwareId)

def clearHardwareRuntimeState (x : System Content S) (hardwareId : String) :
    System Content S :=
  { x with
    grabbedDevices := x.grabbedDevices.erase hardwareId
    lastSentSignatures := x.lastSentSignatures.erase (.device hardwareId)
    execState := x.execState.retire (.device hardwareId) }

/- A later request of the device has been acknowledged. -/
def overtaken (x : System Content S) (hardwareId : String) (request : ℕ) : Bool :=
  x.acknowledgedDeviceRequests.getD hardwareId 0 > request

def deferMappingUntilRegrab (x : System Content S) (hardwareId : String) (request : ℕ) :
    System Content S :=
  if x.overtaken hardwareId request then x else x.clearHardwareRuntimeState hardwareId

def isCurrent (x : System Content S) (a : PendingApply Content) : Bool :=
  a.generation = x.applyGeneration

def finish (x : System Content S) (a : PendingApply Content) : System Content S :=
  { x with applies := x.applies.filter (·.payload.requestId ≠ a.payload.requestId) }

def discardStaged (x : System Content S) (a : PendingApply Content) : System Content S :=
  { x with execState := x.execState.discard a.staged }

/- The signature becomes the last one sent. -/
def storeSignature (ser : Serializer Content S) (x : System Content S)
    (a : PendingApply Content) : System Content S :=
  let x := { x with
    lastSentSignatures :=
      x.lastSentSignatures.insert a.payload.target (ser.signature a.payload.content)
    acknowledged := x.acknowledged.insert a.payload.target a.payload.requestId }
  match a.payload.target with
  | .combos => x
  | .device hardwareId => x.acknowledgeDeviceRequest hardwareId a.deviceRequest

def commitReferences (x : System Content S) (a : PendingApply Content) : System Content S :=
  { x with execState := x.execState.commit a.payload.target a.staged (x.isCurrent a) }

/-- The daemon has taken the payload. Only the newest generation stores the signature. -/
def commit (ser : Serializer Content S) (x : System Content S) (a : PendingApply Content) :
    System Content S :=
  if x.isCurrent a then (x.commitReferences a).storeSignature ser a
  else x.commitReferences a

/-- An answer ends the apply that waits for it. -/
def settle (ser : Serializer Content S) (x : System Content S) (a : PendingApply Content)
    (verdict : Verdict) : System Content S :=
  match verdict, a.payload.target with
  | .error, _ => (x.discardStaged a).finish a
  | .waiting, .device hardwareId =>
    ((x.deferMappingUntilRegrab hardwareId a.deviceRequest).discardStaged a).finish a
  | _, _ => (x.commit ser a).finish a

def settleRelease (x : System Content S) (release : Release) (verdict : Verdict) :
    System Content S :=
  let x := { x with release := none }
  if verdict = .error then x else x.clearHardwareRuntimeState release.hardwareId

def settleCollection (x : System Content S) (collection : Collection) (verdict : Verdict) :
    System Content S :=
  let x := { x with collection := none }
  match verdict with
  | .unused refs => { x with execState := x.execState.collected collection.snapshot refs }
  | _ => x

def applyOf (x : System Content S) (requestId : ℕ) : Option (PendingApply Content) :=
  x.applies.find? (·.payload.requestId = requestId)

def releaseOf (x : System Content S) (requestId : ℕ) : Option Release :=
  x.release.filter fun release => release.requestId = requestId

def collectionOf (x : System Content S) (requestId : ℕ) : Option Collection :=
  x.collection.filter fun collection => collection.requestId = requestId

/- Nobody waits for an answer that came too late. -/
def answered (ser : Serializer Content S) (x : System Content S) (response : Response) :
    Option (System Content S) :=
  if response ∈ x.responses then
    let x := { x with responses := x.responses.erase response }
    some <| match x.applyOf response.requestId with
    | some a => x.settle ser a response.verdict
    | none =>
      match x.releaseOf response.requestId with
      | some release => x.settleRelease release response.verdict
      | none =>
        match x.collectionOf response.requestId with
        | some collection => x.settleCollection collection response.verdict
        | none => x
  else none

/-- The connection is closed: the session forgets what it knew of the daemon. -/
def disconnect (x : System Content S) : System Content S :=
  { x with
    lastSentSignatures := ∅
    grabbedDevices := ∅
    execState := { x.execState with execRefs := ∅, retiredExecRefs := ∅, registered := ∅ }
    applies := []
    release := none
    collection := none
    requests := []
    responses := []
    installed := ∅
    accepted := [] }

/-- A mapping apply whose answer does not come closes the connection. Combos, and applies that
were superseded, drop their references. -/
def applyTimeout (x : System Content S) (a : PendingApply Content) : System Content S :=
  if a.payload.target ≠ .combos ∧ x.isCurrent a then x.disconnect
  else (x.discardStaged a).finish a

/- The answer does not come in time. -/
def timedOut (x : System Content S) (requestId : ℕ) : Option (System Content S) :=
  match x.applyOf requestId with
  | some a => some (x.applyTimeout a)
  | none =>
    match x.releaseOf requestId with
    | some _ => some { x with release := none }
    | none => (x.collectionOf requestId).map fun _ => { x with collection := none }

def collectRetired (x : System Content S) : System Content S :=
  let snapshot := x.execState.collectable
  if snapshot.isEmpty then x
  else
    { x with collection := some ⟨x.requestCounter + 1, snapshot⟩ }.send
      (.unusedExecRefs (snapshot.map Prod.fst))

/-- The signature is forgotten, so that the next reevaluation sends again. -/
def invalidate (x : System Content S) (target : Owner) : System Content S :=
  { x with lastSentSignatures := x.lastSentSignatures.erase target }

/- The daemon's side. An answer that never comes is not written at all. -/
def answer (x : System Content S) (request : Request Content) (verdict : Verdict)
    (answers : Bool) : System Content S :=
  { x with responses :=
      if answers then x.responses ++ [⟨request.requestId, verdict⟩] else x.responses }

def install (x : System Content S) (payload : Payload Content) : System Content S :=
  { x with installed := x.installed.insert payload.target payload }

def accept (x : System Content S) (payload : Payload Content) : System Content S :=
  { x with accepted := payload :: x.accepted }

def report (x : System Content S) (refs : List ℕ) : System Content S :=
  { x with reportedUnused := x.reportedUnused ∪ refs.toFinset }

def uninstall (x : System Content S) (hardwareId : String) : System Content S :=
  { x with installed := x.installed.erase (.device hardwareId) }

end System

/-- How the daemon handles a command; `done` tells whether a command answered with an error
took effect. -/
inductive Outcome
  | ok
  | waiting
  | error (done : Bool)
  | unused (refs : List ℕ)

namespace System

variable {Content S : Type}

def perform (x : System Content S) (request : Request Content) (outcome : Outcome)
    (answers : Bool) : Option (System Content S) :=
  match request.command, outcome with
  | .set payload, .ok => some (((x.install payload).accept payload).answer request .ok answers)
  | .set payload, .waiting =>
    if payload.target = .combos then none else some (x.answer request .waiting answers)
  | .set payload, .error done =>
    some ((if done then x.install payload else x).answer request .error answers)
  | .releaseDevice hardwareId, .ok =>
    some ((x.uninstall hardwareId).answer request .ok answers)
  | .releaseDevice hardwareId, .error done =>
    some ((if done then x.uninstall hardwareId else x).answer request .error answers)
  | .unusedExecRefs _, .unused refs =>
    some ((x.report refs).answer request (.unused refs) answers)
  | .unusedExecRefs _, .error _ => some (x.answer request .error answers)
  | _, _ => none

def handleCommand (x : System Content S) (outcome : Outcome) (answers : Bool) :
    Option (System Content S) :=
  match x.requests with
  | [] => none
  | request :: requests => { x with requests }.perform request outcome answers

end System

/- A label names the event and everything the environment decides about it. -/
inductive Op (Content : Type)
  | begin
  | updateCombos (content : Content) (sent : Bool)
  | updateMapping (hardwareId : String) (content : Content) (sent : Bool)
  | setMapping (hardwareId : String) (content : Content) (sent : Bool)
  | grabDevice (hardwareId : String) (grabbed : Bool)
  | deactivateProfile (hardwareId : String)
  | answered (response : Response)
  | timedOut (requestId : ℕ)
  | disconnected
  | collectRetired
  | invalidate (target : Owner)
  | command (outcome : Outcome) (answers : Bool)

variable {Content S : Type}

def step [DecidableEq S] (ser : Serializer Content S) (x : System Content S) :
    Op Content → Option (System Content S)
  | .begin => some x.begin
  | .updateCombos content sent =>
    if x.idle then some (x.updateCombos ser content sent) else none
  | .updateMapping hardwareId content sent =>
    if x.idle then some (x.updateMapping ser hardwareId content sent) else none
  | .setMapping hardwareId content sent =>
    if x.idle then some (x.setMapping ser hardwareId content sent) else none
  | .grabDevice hardwareId grabbed =>
    if x.idle then some (x.grabDevice hardwareId grabbed) else none
  | .deactivateProfile hardwareId =>
    if x.idle then some (x.deactivateProfile hardwareId) else none
  | .answered response => x.answered ser response
  | .timedOut requestId => x.timedOut requestId
  | .disconnected => some x.disconnect
  | .collectRetired => if x.collection.isNone then some x.collectRetired else none
  | .invalidate target => some (x.invalidate target)
  | .command outcome answers => x.handleCommand outcome answers

/-- No apply is running and no message is in flight. -/
def quiet (x : System Content S) : Bool :=
  x.applies.isEmpty && x.release.isNone && x.requests.isEmpty && x.responses.isEmpty

end Keymasq.Session.Apply
