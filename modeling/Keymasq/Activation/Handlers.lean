import Keymasq.Activation.Tracker

/-!
# Handlers of profile triggers

The session keeps one temporary activation for a profile and asks the daemon to
track it. Every trigger is handled by a task of its own, which runs from one
`await` to the next; commands reach the daemon in the order they were sent.
-/

namespace Keymasq.Activation.Handlers
open Foundation Foundation.Strings Tracker Keymasq.Profile.Model

inductive TriggerAction
  | profileEnable
  | profileDisable
  | profileToggle
deriving DecidableEq

structure RuntimeProfileActivation where
  profileName : String
  activationId : String
  sequence : ℕ
  deactivation : ProfileDeactivationPolicy
  sourceDevice : String
  sourceButton : String
  triggerId : String
  tracked : Bool := false
deriving DecidableEq

/-- The data of a profile trigger event. -/
structure TriggerData where
  actionType : TriggerAction
  profileName : String
  triggerId : String := ""
  sourceDevice : String := ""
  sourceButton : String := ""
  deactivation : Option ProfileDeactivationPolicy := none

def normalizeProfileDeactivationPolicy (actionType : TriggerAction)
    (policy : Option ProfileDeactivationPolicy) : Option ProfileDeactivationPolicy :=
  if actionType = .profileDisable then none else policy.bind ProfileDeactivationPolicy.parse

def triggerDeactivationPolicy (data : TriggerData) : Option ProfileDeactivationPolicy :=
  normalizeProfileDeactivationPolicy data.actionType
    (data.deactivation.bind ProfileDeactivationPolicy.parse)

/-- Commands about temporary activations. -/
inductive Command
  | trackProfileActivation (profileName activationId triggerId : String)
      (deactivation : ProfileDeactivationPolicy)
  | cancelProfileActivation (profileName activationId : String)

structure Request where
  requestId : ℕ
  command : Command

/-- `tracked` is the field of the daemon's answer, where it has one. -/
structure Response where
  requestId : ℕ
  tracked : Option Bool := none
deriving DecidableEq

/-- What a handler still has to do, cut at the awaits. -/
inductive Segment
  | cancel (reevaluate : Bool)
  | setProfileEnabled (actionType : TriggerAction) (enabled : Option Bool)
  | reevaluate
  | track (activation : RuntimeProfileActivation)

/-- What a handler is waiting for. -/
inductive Await
  | configWrite (actionType : TriggerAction) (enabled : Option Bool)
  | reevaluation
  | cancelAnswer (requestId : ℕ)
  | trackAnswer (requestId : ℕ) (activation : RuntimeProfileActivation)
deriving DecidableEq

structure Task where
  taskId : ℕ
  profileName : String
  awaiting : Await
  rest : List Segment

/-- `issued` are the activation ids given out so far, each with its profile. -/
structure System where
  activations : Dict String RuntimeProfileActivation := ∅
  activationSeq : ℕ := 0
  requestCounter : ℕ := 0
  taskCounter : ℕ := 0
  tasks : List Task := []
  requests : List Request := []
  responses : List Response := []
  daemon : ProfileActivationTracker := {}
  issued : Dict String String := ∅

namespace System

def send (sys : System) (command : Command) : System :=
  { sys with
    requestCounter := sys.requestCounter + 1
    requests := sys.requests ++ [⟨sys.requestCounter + 1, command⟩] }

def suspend (sys : System) (profileName : String) (awaiting : Await) (rest : List Segment) :
    System :=
  { sys with
    taskCounter := sys.taskCounter + 1
    tasks := sys.tasks ++ [⟨sys.taskCounter + 1, profileName, awaiting, rest⟩] }

def finish (sys : System) (taskId : ℕ) : System :=
  { sys with tasks := sys.tasks.filter (·.taskId ≠ taskId) }

/- Whether the activation is still the one its profile has. -/
def isCurrent (sys : System) (a : RuntimeProfileActivation) : Bool :=
  (sys.activations.get? a.profileName).any (·.activationId = a.activationId)

/- Tracking failed: the activation is rolled back unless a later one replaced it. -/
def trackFailed (sys : System) (a : RuntimeProfileActivation) : System :=
  if sys.isCurrent a then
    { sys with activations := sys.activations.erase a.profileName }.suspend
      a.profileName .reevaluation []
  else sys

/- Tracking succeeded: the activation is marked unless a later one replaced it. -/
def trackSucceeded (sys : System) (a : RuntimeProfileActivation) : System :=
  match sys.activations.get? a.profileName with
  | none => sys
  | some current =>
    if current.activationId = a.activationId then
      let marked := { current with tracked := true }
      { sys with activations := sys.activations.insert a.profileName marked }
    else sys

/-- Run a handler to its next await. -/
def proceed (sys : System) (profileName : String) : List Segment → System
  | [] => sys
  | .cancel reevaluate :: rest =>
    match sys.activations.get? profileName with
    | none => sys.proceed profileName rest
    | some activation =>
      ({ sys with activations := sys.activations.erase profileName }.send
        (.cancelProfileActivation profileName activation.activationId)).suspend profileName
          (.cancelAnswer (sys.requestCounter + 1))
          (if reevaluate then .reevaluate :: rest else rest)
  | .setProfileEnabled actionType enabled :: rest =>
    sys.suspend profileName (.configWrite actionType enabled) rest
  | .reevaluate :: rest => sys.suspend profileName .reevaluation rest
  | .track activation :: rest =>
    match activation.deactivation.parse with
    | none => sys.trackFailed activation
    | some deactivation =>
      (sys.send (.trackProfileActivation activation.profileName activation.activationId
        activation.triggerId deactivation)).suspend profileName
          (.trackAnswer (sys.requestCounter + 1) activation) rest

/- `uuid4` has not returned the id before. -/
def freshId (sys : System) (activationId : String) : Bool :=
  !sys.issued.contains activationId && decide (strip activationId = activationId) &&
    decide (activationId ≠ "")

def triggerIdOf (data : TriggerData) : String :=
  let triggerId := strip data.triggerId
  if triggerId = "" then data.sourceDevice ++ ":" ++ data.sourceButton else triggerId

def newActivation (sys : System) (data : TriggerData) (profileName : String)
    (deactivation : ProfileDeactivationPolicy) (uuid : String) : RuntimeProfileActivation where
  profileName
  activationId := uuid
  sequence := sys.activationSeq + 1
  deactivation
  sourceDevice := data.sourceDevice
  sourceButton := data.sourceButton
  triggerId := triggerIdOf data

/-- `found` says whether the profile exists, `uuid` is what `uuid4` returns. -/
def handleLifetimeProfileTrigger (sys : System) (data : TriggerData) (profileName : String)
    (deactivation : ProfileDeactivationPolicy) (found : Bool) (uuid : String) : Option System :=
  if !found then some sys
  else if data.actionType = .profileToggle ∧ sys.activations.contains profileName then
    some (sys.proceed profileName [.cancel true])
  else if !sys.freshId uuid then none
  else
    let activation := sys.newActivation data profileName deactivation uuid
    some ({ sys with
      activationSeq := sys.activationSeq + 1
      issued := sys.issued.insert uuid profileName
      activations := sys.activations.insert profileName activation }.proceed profileName
        [.reevaluate, .track activation])

def enabledArgument : TriggerAction → Option Bool
  | .profileEnable => some true
  | .profileDisable => some false
  | .profileToggle => none

def handleProfileTrigger (sys : System) (data : TriggerData) (found : Bool) (uuid : String) :
    Option System :=
  let profileName := strip data.profileName
  if profileName = "" then some sys
  else
    match triggerDeactivationPolicy data with
    | some deactivation =>
      sys.handleLifetimeProfileTrigger data profileName deactivation found uuid
    | none =>
      let write := Segment.setProfileEnabled data.actionType (enabledArgument data.actionType)
      some (sys.proceed profileName
        (if data.actionType = .profileEnable then [write] else [.cancel true, write]))

/- `set_profile_enabled` after the write and the end of its caller. -/
def afterWrite (actionType : TriggerAction) (enabled : Bool) : List Segment :=
  (if enabled then [] else [.cancel false]) ++ .reevaluate ::
    (if actionType = .profileDisable ∨ (actionType = .profileToggle ∧ enabled = false) then
      [.cancel true] else [])

/- The session drops an activation the daemon reports as expired. -/
def handleProfileDeactivateRequested (sys : System) (request : DeactivateRequest) : System :=
  let profileName := strip request.profileName
  let activationId := strip request.activationId
  if profileName = "" ∨ activationId = "" then sys
  else
    match sys.activations.get? profileName with
    | none => sys
    | some activation =>
      if activation.activationId ≠ activationId then sys
      else { sys with activations := sys.activations.erase profileName }.proceed profileName
        [.reevaluate]

/- The answer to the first command leaves the daemon in its new state. -/
def answer (sys : System) (requests : List Request) (response : Response)
    (daemon : ProfileActivationTracker) : System :=
  { sys with requests, responses := sys.responses ++ [response], daemon }

/- The daemon handles one command at a time, in the order of arrival. -/
def handleCommand (sys : System) : Option System :=
  match sys.requests with
  | [] => none
  | request :: requests =>
    match request.command with
    | .trackProfileActivation profileName activationId triggerId deactivation =>
      match deactivation.parse with
      | none => some (sys.answer requests ⟨request.requestId, some false⟩ sys.daemon)
      | some policy => some (sys.answer requests ⟨request.requestId, some true⟩
          (sys.daemon.track profileName activationId triggerId policy))
    | .cancelProfileActivation profileName activationId =>
      some (sys.answer requests ⟨request.requestId, none⟩
        (sys.daemon.cancel profileName activationId))

end System

/- A label names the event and everything the environment decides about it. -/
inductive Op
  | trigger (data : TriggerData) (found : Bool) (uuid : String)
  | written (taskId : ℕ) (enabled : Option Bool)
  | reevaluated (taskId : ℕ)
  | raised (taskId : ℕ)
  | answered (response : Response)
  | sendFailed (taskId : ℕ)
  | deactivateRequested (request : DeactivateRequest)
  | command
  | triggerStart (triggerId : String)
  | triggerEnd (triggerId : String)
  | action (triggerId : String)
  | timeout (activationId : String)

/- The handler that awaits the answer to a request. -/
def awaits (requestId : ℕ) (task : Task) : Bool :=
  match task.awaiting with
  | .cancelAnswer other => other = requestId
  | .trackAnswer other _ => other = requestId
  | _ => false

/- The answer resumes the handler that waits for it; nobody waits for one that came too late. -/
def stepAnswered (sys : System) (response : Response) : Option System :=
  if response ∈ sys.responses then
    let sys := { sys with responses := sys.responses.erase response }
    match sys.tasks.find? (awaits response.requestId) with
    | none => some sys
    | some task =>
      match task.awaiting with
      | .cancelAnswer _ => some ((sys.finish task.taskId).proceed task.profileName task.rest)
      | .trackAnswer _ activation =>
        if response.tracked = some false then
          some ((sys.finish task.taskId).trackFailed activation)
        else some ((sys.finish task.taskId).trackSucceeded activation)
      | _ => none
  else none

/- A config write that reports no profile ends the handler. -/
def stepWritten (sys : System) (taskId : ℕ) (result : Option Bool) : Option System :=
  match sys.tasks.find? (·.taskId = taskId) with
  | none => none
  | some task =>
    match task.awaiting with
    | .configWrite actionType enabled =>
      match result with
      | none => some (sys.finish taskId)
      | some value =>
        if enabled = some (!value) then none
        else some ((sys.finish taskId).proceed task.profileName
          (System.afterWrite actionType value ++ task.rest))
    | _ => none

def stepReevaluated (sys : System) (taskId : ℕ) : Option System :=
  match sys.tasks.find? (·.taskId = taskId) with
  | none => none
  | some task =>
    if task.awaiting = .reevaluation then
      some ((sys.finish taskId).proceed task.profileName task.rest)
    else none

/- An exception out of the config write or the reevaluation ends the handler. -/
def stepRaised (sys : System) (taskId : ℕ) : Option System :=
  match sys.tasks.find? (·.taskId = taskId) with
  | none => none
  | some task =>
    match task.awaiting with
    | .configWrite _ _ => some (sys.finish taskId)
    | .reevaluation => some (sys.finish taskId)
    | _ => none

/- A timeout or a socket error instead of an answer; the command may still be handled. -/
def stepSendFailed (sys : System) (taskId : ℕ) : Option System :=
  match sys.tasks.find? (·.taskId = taskId) with
  | none => none
  | some task =>
    match task.awaiting with
    | .cancelAnswer _ => some ((sys.finish taskId).proceed task.profileName task.rest)
    | .trackAnswer _ activation => some ((sys.finish taskId).trackFailed activation)
    | _ => none

def stepDeactivateRequested (sys : System) (request : DeactivateRequest) : Option System :=
  if request ∈ sys.daemon.requested then
    some ({ sys with daemon := { sys.daemon with
      requested := sys.daemon.requested.erase request } }.handleProfileDeactivateRequested request)
  else none

def step (sys : System) : Op → Option System
  | .trigger data found uuid => sys.handleProfileTrigger data found uuid
  | .written taskId enabled => stepWritten sys taskId enabled
  | .reevaluated taskId => stepReevaluated sys taskId
  | .raised taskId => stepRaised sys taskId
  | .answered response => stepAnswered sys response
  | .sendFailed taskId => stepSendFailed sys taskId
  | .deactivateRequested request => stepDeactivateRequested sys request
  | .command => sys.handleCommand
  | .triggerStart triggerId =>
    some { sys with daemon := sys.daemon.observeTriggerStart triggerId }
  | .triggerEnd triggerId => some { sys with daemon := sys.daemon.observeTriggerEnd triggerId }
  | .action triggerId => some { sys with daemon := sys.daemon.recordAction triggerId }
  | .timeout activationId =>
    (sys.daemon.timeoutAfter activationId).map fun daemon => { sys with daemon := daemon }

/-- No command, answer or expiry report is under way. -/
def quiet (sys : System) : Bool :=
  sys.requests.isEmpty && sys.responses.isEmpty && sys.daemon.requested.isEmpty

/- The daemon has been asked to track the activation. -/
def trackSent (sys : System) (a : RuntimeProfileActivation) : Bool :=
  a.tracked || sys.tasks.any fun task =>
    match task.awaiting with
    | .trackAnswer _ other => other.activationId = a.activationId
    | _ => false

/-- The activation was replaced by one that the daemon has already been asked to track, and
that is not known to have expired. -/
def overtaken (sys : System) (a : RuntimeProfileActivation) : Bool :=
  (sys.activations.get? a.profileName).any fun current =>
    decide (current.activationId ≠ a.activationId) && trackSent sys current &&
      decide (⟨a.profileName, current.activationId⟩ ∉ sys.daemon.requested)

/-- No handler sends the TRACK of an activation that has been overtaken. -/
def tracksInOrder (sys : System) : Op → Bool
  | .reevaluated taskId =>
    (sys.tasks.find? (·.taskId = taskId)).all fun task =>
      match task.rest with
      | .track a :: _ => !overtaken sys a
      | _ => true
  | _ => true

end Keymasq.Activation.Handlers
