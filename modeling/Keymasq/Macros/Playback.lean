import Keymasq.Foundation.Dict
import Keymasq.Foundation.Transition

/-!
# Macro playback requests

A press of a trigger starts, resumes or stops macros and a release pauses or
stops them. Requests of one trigger are served one after the other, each with
the load of its macro; instances start children and end in between.
-/

namespace Keymasq.Macros.Playback
open Foundation Foundation.Transition

/-- `source_device` and `source_button`. -/
abbrev Key := String × String

inductive LoopMode
  | none
  | count
  | hold
  | toggle
  deriving DecidableEq

inductive StopBehavior
  | finishRun
  | cancelRun
  | pauseRun
  deriving DecidableEq

def normalizeLoopMode (value : String) : LoopMode :=
  let mode := value.toLower
  if mode = "count" then .count
  else if mode = "hold" then .hold
  else if mode = "toggle" then .toggle
  else .none

def normalizeMacroLoopStopBehavior (value : String) : StopBehavior :=
  let behavior := value.toLower
  if behavior = "cancel_run" then .cancelRun
  else if behavior = "pause_run" then .pauseRun
  else .finishRun

/- `instance_meta`. The two flags of the source lifecycle are kept in roots. -/
structure InstanceMeta where
  loopMode : LoopMode
  source : Key
  macroName : String
  loopActive : Bool
  loopStopBehavior : StopBehavior
  parentInstanceId : Option ℕ
  rootInstanceId : ℕ
  playbackId : String
  sourceLifecycleAvailable : Bool := false
  sourceLifecycleActive : Bool := false

/- The part of the playback state that triggers work on. An instance has a task
while it has metadata; `alive` are the tasks that are not done, `dying` those
that have been cancelled. -/
structure MacroRuntimeState where
  instanceSeq : ℕ := 0
  instanceMeta : Dict ℕ InstanceMeta := ∅
  instanceChildren : Dict ℕ (Finset ℕ) := ∅
  cancelInstanceIds : Finset ℕ := ∅
  pauses : Dict ℕ Bool := ∅
  alive : Finset ℕ := ∅
  dying : Finset ℕ := ∅

/- The options a request is judged by; `eventSource` is the event count of a
source that comes with the request. -/
structure MacroPlaybackOptions where
  macroName : String
  macroEvents : ℕ := 0
  eventSource : Option ℕ := none
  loopMode : String := "none"
  loopStopBehavior : String := "finish_run"
  source : Key := ("", "")
  triggerValue : Int := 1
  playbackId : String := ""
  loadStoredMacro : Bool := true

def isSource (source : Key) : Bool := source.1 ≠ "" ∨ source.2 ≠ ""

/-! ## Instances -/

/- `source_lifecycle`. -/
def sourceLifecycle (m : MacroRuntimeState) (instanceId : ℕ) : Bool × Bool :=
  let rootId := match m.instanceMeta.get? instanceId with
    | some info => info.rootInstanceId
    | none => instanceId
  match m.instanceMeta.get? rootId with
  | some info => (info.sourceLifecycleAvailable, info.sourceLifecycleActive)
  | none => (false, false)

/- Children are younger than their parents, so one pass over the ids in order
reaches the whole subtrees. -/
def descendantInstanceIds (m : MacroRuntimeState) (ids : Finset ℕ) : Finset ℕ :=
  (List.range (m.instanceSeq + 1)).foldl
    (fun ids i => if i ∈ ids then ids ∪ m.instanceChildren.getD i ∅ else ids) ids

/- `call_chain_contains`, up the ancestors, of which there are fewer than ids. -/
def callChainContains (m : MacroRuntimeState) (macroName : String) : ℕ → ℕ → Bool
  | 0, _ => false
  | fuel + 1, instanceId =>
    match m.instanceMeta.get? instanceId with
    | none => macroName = ""
    | some info =>
      if info.macroName = macroName then true
      else match info.parentInstanceId with
        | none => false
        | some parent => callChainContains m macroName fuel parent

def forgetInstance (m : MacroRuntimeState) (instanceId : ℕ) : MacroRuntimeState :=
  let children := match (m.instanceMeta.get? instanceId).bind (·.parentInstanceId) with
    | none => m.instanceChildren
    | some parent =>
      match m.instanceChildren.get? parent with
      | none => m.instanceChildren
      | some siblings => m.instanceChildren.insert parent (siblings.erase instanceId)
  { m with
    cancelInstanceIds := m.cancelInstanceIds.erase instanceId
    instanceMeta := m.instanceMeta.erase instanceId
    instanceChildren := children.erase instanceId
    pauses := m.pauses.erase instanceId }

def markSourceReleased (m : MacroRuntimeState) (source : Key) : MacroRuntimeState :=
  { m with instanceMeta := m.instanceMeta.mapVal fun _ info =>
      if info.parentInstanceId = none ∧ info.source = source then
        { info with sourceLifecycleActive := false }
      else info }

/- `find_matching_macro_instances`, in the order of their tasks. -/
def findMatchingMacroInstances (m : MacroRuntimeState) (loopMode : Option LoopMode)
    (source : Key) : List ℕ :=
  (m.instanceMeta.filter fun i info =>
    i ∈ m.alive ∧ i ∉ m.cancelInstanceIds ∧ (loopMode = none ∨ loopMode = some info.loopMode) ∧
      info.source = source).keys

/- `allocate_instance`, for the instance `instanceSeq + 1`. -/
def allocateInstance (m : MacroRuntimeState) (options : MacroPlaybackOptions)
    (loopMode : LoopMode) (source : Key) (parent : Option ℕ) : MacroRuntimeState :=
  let instanceId := m.instanceSeq + 1
  let info : InstanceMeta :=
    { loopMode
      source
      macroName := options.macroName
      loopActive := loopMode = .hold ∨ loopMode = .toggle
      loopStopBehavior := normalizeMacroLoopStopBehavior options.loopStopBehavior
      parentInstanceId := parent
      rootInstanceId := match parent.bind m.instanceMeta.get? with
        | some above => above.rootInstanceId
        | none => instanceId
      playbackId := options.playbackId
      sourceLifecycleAvailable := parent = none ∧ isSource source
      sourceLifecycleActive := parent = none }
  { m with
    instanceSeq := instanceId
    instanceMeta := m.instanceMeta.insert instanceId info
    instanceChildren := match parent with
      | none => m.instanceChildren.insert instanceId ∅
      | some parent => (m.instanceChildren.insert instanceId ∅).addTo parent instanceId
    cancelInstanceIds := m.cancelInstanceIds.erase instanceId
    alive := insert instanceId m.alive }

/- `_start_macro_instance`. -/
def startMacroInstance (m : MacroRuntimeState) (options : MacroPlaybackOptions)
    (loopMode : LoopMode) (source : Key) (parent : Option ℕ) : MacroRuntimeState :=
  let instanceId := m.instanceSeq + 1
  let m := allocateInstance m options loopMode source parent
  let lifecycle := sourceLifecycle m instanceId
  if normalizeMacroLoopStopBehavior options.loopStopBehavior = .pauseRun ∧ loopMode ≠ .toggle ∧
      lifecycle.1 = true then
    { m with pauses := m.pauses.insert instanceId !lifecycle.2 }
  else m

/- `start_child_macro`; a call that is not started leaves the state as it is. -/
def startChildMacro (m : MacroRuntimeState) (options : MacroPlaybackOptions) (parent : ℕ) :
    MacroRuntimeState :=
  let lifecycle := sourceLifecycle m parent
  let mode := normalizeLoopMode options.loopMode
  let mode := if mode = .toggle then .none else mode
  if mode = .hold ∧ lifecycle.1 = true ∧ lifecycle.2 = false ∧
      options.loopStopBehavior ≠ "pause_run" then m
  else
    let mode := if mode = .hold ∧ lifecycle.1 = false then .none else mode
    if callChainContains m options.macroName (m.instanceSeq + 1) parent then m
    else
      let source := match m.instanceMeta.get? parent with
        | some info => info.source
        | none => ("", "")
      startMacroInstance m options mode source (some parent)

/-! ## Ends of instances -/

/- `cancel_instance_ids.update(ids)`, and every task of these is cancelled. -/
def markCancelled (m : MacroRuntimeState) (ids : Finset ℕ) : MacroRuntimeState :=
  { m with
    cancelInstanceIds := m.cancelInstanceIds ∪ ids
    dying := m.dying ∪ ids }

/- `cancel_macro_instances` up to its wait, with the ids to forget after it. -/
def cancelMacroInstances (m : MacroRuntimeState) (ids : List ℕ) : MacroRuntimeState × Finset ℕ :=
  let uniqueIds := descendantInstanceIds m ids.toFinset
  (markCancelled m uniqueIds, uniqueIds)

def forgetDone (m : MacroRuntimeState) (instanceId : ℕ) : MacroRuntimeState :=
  if instanceId ∈ m.alive then m else forgetInstance m instanceId

def expirePausedInstance (m : MacroRuntimeState) (instanceId : ℕ) : MacroRuntimeState :=
  if instanceId ∈ m.cancelInstanceIds ∨ m.instanceMeta.contains instanceId = false then m
  else
    let ids := descendantInstanceIds m {instanceId}
    ((List.range (m.instanceSeq + 1)).filter (· ∈ ids)).foldl forgetDone (markCancelled m ids)

/- The task of the instance is over, after it has cleaned up. -/
def endTask (m : MacroRuntimeState) (instanceId : ℕ) : MacroRuntimeState :=
  { m with alive := m.alive.erase instanceId }

/-! ## Presses and releases -/

/- One paused instance in the loop of `resume_paused_macro`: its root is noted
when the root plays the macro; `expired` are the instances past their timeout. -/
def resumableRoot (macroName : String) (expired : Finset ℕ) (s : List ℕ × MacroRuntimeState)
    (instanceId : ℕ) : List ℕ × MacroRuntimeState :=
  let m := s.2
  if instanceId ∈ m.cancelInstanceIds then s
  else if m.pauses.get? instanceId ≠ some true then s
  else if instanceId ∈ expired then (s.1, expirePausedInstance m instanceId)
  else
    match m.instanceMeta.get? instanceId with
    | none => s
    | some info =>
      match m.instanceMeta.get? info.rootInstanceId with
      | none => s
      | some root =>
        if root.macroName = macroName then (s.1 ++ [info.rootInstanceId], m) else s

def resumeInstance (m : MacroRuntimeState) (instanceId : ℕ) : MacroRuntimeState :=
  if instanceId ∈ m.cancelInstanceIds then m
  else if m.pauses.get? instanceId = none then m
  else { m with pauses := m.pauses.insert instanceId false }

def resumeRoot (m : MacroRuntimeState) (rootId : ℕ) : MacroRuntimeState :=
  match m.instanceMeta.get? rootId with
  | none => m
  | some info =>
    let m := { m with
      instanceMeta := m.instanceMeta.insert rootId { info with sourceLifecycleActive := true } }
    let ids := descendantInstanceIds m {rootId}
    ((List.range (m.instanceSeq + 1)).filter (· ∈ ids)).foldl resumeInstance m

/- `resume_paused_macro`, with whether it resumed anything. -/
def resumePausedMacro (m : MacroRuntimeState) (options : MacroPlaybackOptions)
    (expired : Finset ℕ) : Bool × MacroRuntimeState :=
  if options.triggerValue ≠ 1 then (false, m)
  else
    let (roots, m) := (findMatchingMacroInstances m none options.source).foldl
      (resumableRoot options.macroName expired) ([], m)
    let roots := roots.filter (· ∉ m.cancelInstanceIds)
    (roots ≠ [], roots.foldl resumeRoot m)

def pauseInstance (m : MacroRuntimeState) (instanceId : ℕ) : MacroRuntimeState :=
  if m.pauses.get? instanceId = some false then
    { m with pauses := m.pauses.insert instanceId true }
  else m

/- `mark_loop_instances_stopping`. -/
def markLoopStopping (m : MacroRuntimeState) (ids : List ℕ) : MacroRuntimeState :=
  { m with instanceMeta := m.instanceMeta.mapVal fun i info =>
      if i ∈ ids then { info with loopActive := false } else info }

/- `plan_loop_stop`: the instances a stop cancels. -/
def cancelsRun (m : MacroRuntimeState) (instanceId : ℕ) : Bool :=
  match m.instanceMeta.get? instanceId with
  | some info => info.loopStopBehavior = .cancelRun
  | none => false

/- `_stop_loop_instances` up to its wait. -/
def stopLoopInstances (m : MacroRuntimeState) (ids : List ℕ) : MacroRuntimeState × Finset ℕ :=
  let ids := ids.filter fun i => m.pauses.get? i = none
  let cancelIds := ids.filter (cancelsRun m)
  let finishIds := ids.filter fun i => !cancelsRun m i
  cancelMacroInstances (markLoopStopping m finishIds) cancelIds

def releaseTrigger (m : MacroRuntimeState) (source : Key) : MacroRuntimeState × Finset ℕ :=
  let m := if isSource source then markSourceReleased m source else m
  let m := (findMatchingMacroInstances m none source).foldl pauseInstance m
  stopLoopInstances m (findMatchingMacroInstances m (some .hold) source)

/- The press in `play_macro`, with the event count of the loaded macro. -/
def pressTrigger (m : MacroRuntimeState) (options : MacroPlaybackOptions) (events : Option ℕ)
    (expired : Finset ℕ) : MacroRuntimeState × Finset ℕ :=
  let (resumed, m) := resumePausedMacro m options expired
  if resumed then (m, ∅)
  else
    let mode := normalizeLoopMode options.loopMode
    let toggles := (findMatchingMacroInstances m (some .toggle) options.source).filter fun i =>
      ((m.instanceMeta.get? i).map (·.playbackId)).getD "" = ""
    if mode = .toggle ∧ options.playbackId = "" ∧ toggles ≠ [] then stopLoopInstances m toggles
    else
      let mode := if mode = .hold ∧ isSource options.source = false then .none else mode
      if mode = .hold ∧ (findMatchingMacroInstances m (some .hold) options.source).any
          (fun i => m.pauses.get? i ≠ some true) then (m, ∅)
      else if events.getD options.macroEvents = 0 then (m, ∅)
      else (startMacroInstance m options mode options.source none, ∅)

/-! ## Requests -/

inductive Phase
  | waiting
  | loading
  | stopping (ids : Finset ℕ)

/-- A call of `play_macro`, numbered by its arrival. -/
structure Request where
  serial : ℕ
  options : MacroPlaybackOptions
  phase : Phase := .waiting

/- `lastHandled` records the last press or release of each trigger that was
handled, with the number of its request. -/
structure State where
  macroState : MacroRuntimeState := {}
  requests : Dict Key (List Request) := ∅
  arrived : ℕ := 0
  lastHandled : Dict Key (ℕ × Int) := ∅
  outputs : Bool := true
  inputPaused : Bool := false

/- `loaded` carries the event count of the macro, `none` when it is not there.
The load of a child reads nothing that the start of the child depends on, so
`child` is the start alone. -/
inductive Op
  | arrive (options : MacroPlaybackOptions)
  | serve (source : Key) (serial : ℕ) (expired : Finset ℕ)
  | loaded (source : Key) (serial : ℕ) (events : Option ℕ) (expired : Finset ℕ)
  | stopped (source : Key) (serial : ℕ)
  | drop (source : Key) (serial : ℕ)
  | child (parent : ℕ) (options : MacroPlaybackOptions)
  | iterate (instanceId : ℕ)
  | ends (instanceId : ℕ)
  | vanish (instanceId : ℕ)
  | expire (instanceId : ℕ)
  | cancel (ids : List ℕ)
  | forget (ids : List ℕ)
  | setOutputs (outputs : Bool)
  | setInputPaused (inputPaused : Bool)

def initial : State := {}

def queueOf (s : State) (source : Key) : List Request := s.requests.getD source []

/- Requests without a source take no lock, the others are served at the head. -/
def requestOf (s : State) (source : Key) (serial : ℕ) : Option Request :=
  if isSource source then (queueOf s source).head?.filter fun r => r.serial = serial
  else (queueOf s source).find? fun r => r.serial = serial

def State.setQueue (s : State) (source : Key) (queue : List Request) : State :=
  { s with requests := s.requests.insert source queue }

def removeRequest (s : State) (source : Key) (serial : ℕ) : State :=
  s.setQueue source ((queueOf s source).filter fun r => r.serial ≠ serial)

def setPhase (s : State) (source : Key) (serial : ℕ) (phase : Phase) : State :=
  s.setQueue source ((queueOf s source).map fun r =>
    if r.serial = serial then { r with phase } else r)

/- The request is over, or waits for the tasks that it has cancelled. -/
def afterPlay (s : State) (source : Key) (serial : ℕ) (result : MacroRuntimeState × Finset ℕ) :
    State :=
  let s := { s with macroState := result.1 }
  if result.2 = ∅ then removeRequest s source serial
  else setPhase s source serial (.stopping result.2)

def State.handled (s : State) (source : Key) (serial : ℕ) (value : Int) : State :=
  if isSource source then { s with lastHandled := s.lastHandled.insert source (serial, value) }
  else s

/- `playback.play_macro`. -/
def playMacro (s : State) (r : Request) (events : Option ℕ) (expired : Finset ℕ) : State :=
  let source := r.options.source
  if s.outputs = false then removeRequest s source r.serial
  else if r.options.triggerValue = 0 then
    afterPlay (s.handled source r.serial 0) source r.serial (releaseTrigger s.macroState source)
  else if r.options.triggerValue ≠ 1 then removeRequest s source r.serial
  else afterPlay s source r.serial (pressTrigger s.macroState r.options events expired)

/- `_play_macro_request` up to the load of the macro, or to its end. -/
def serveRequest (s : State) (r : Request) (expired : Finset ℕ) : State :=
  let source := r.options.source
  let press : Bool := r.options.triggerValue = 1
  if press && s.inputPaused then removeRequest s source r.serial
  else
    let s := if press then s.handled source r.serial 1 else s
    let (resumed, m) := resumePausedMacro s.macroState r.options expired
    let s := { s with macroState := m }
    if resumed then removeRequest s source r.serial
    else if press && r.options.loadStoredMacro && r.options.eventSource.isNone &&
        r.options.macroName ≠ "" && r.options.macroEvents = 0 then
      setPhase s source r.serial .loading
    else playMacro s r r.options.eventSource expired

/- `is_loop_instance_active` and `should_continue`; `count` has its own count. -/
def shouldContinue (info : InstanceMeta) : Bool :=
  match info.loopMode with
  | .none => false
  | .count => true
  | .hold => info.loopActive
  | .toggle => info.loopActive

def step (s : State) : Op → Option State
  | .arrive options =>
    let source := options.source
    some { s.setQueue source (queueOf s source ++ [⟨s.arrived, options, .waiting⟩]) with
      arrived := s.arrived + 1 }
  | .serve source serial expired =>
    match requestOf s source serial with
    | some ⟨serial, options, .waiting⟩ =>
      some (serveRequest s ⟨serial, options, .waiting⟩ expired)
    | _ => none
  | .loaded source serial events expired =>
    match requestOf s source serial with
    | some ⟨serial, options, .loading⟩ =>
      match events with
      | none => some (removeRequest s source serial)
      | some events =>
        if s.inputPaused then some (removeRequest s source serial)
        else some (playMacro s ⟨serial, options, .loading⟩ (some events) expired)
    | _ => none
  | .stopped source serial =>
    match requestOf s source serial with
    | some ⟨serial, _, .stopping ids⟩ =>
      let ids := (List.range (s.macroState.instanceSeq + 1)).filter (· ∈ ids)
      some { removeRequest s source serial with macroState := ids.foldl forgetInstance s.macroState }
    | _ => none
  | .drop source serial => some (removeRequest s source serial)
  | .child parent options =>
    if parent ∈ s.macroState.alive ∧ parent ∉ s.macroState.dying then
      some { s with macroState := startChildMacro s.macroState options parent }
    else none
  | .iterate instanceId =>
    if instanceId ∈ s.macroState.alive ∧ instanceId ∉ s.macroState.dying then
      match s.macroState.instanceMeta.get? instanceId with
      | none => none
      | some info =>
        if shouldContinue info ∧ instanceId ∉ s.macroState.cancelInstanceIds ∧
            s.macroState.pauses.get? instanceId ≠ some true then some s
        else none
    else none
  | .ends instanceId =>
    if instanceId ∈ s.macroState.alive then
      some { s with macroState := forgetInstance (endTask s.macroState instanceId) instanceId }
    else none
  | .vanish instanceId =>
    if instanceId ∈ s.macroState.alive ∧ instanceId ∈ s.macroState.dying then
      some { s with macroState := endTask s.macroState instanceId }
    else none
  | .expire instanceId =>
    if s.macroState.pauses.get? instanceId = some true then
      some { s with macroState := expirePausedInstance s.macroState instanceId }
    else none
  | .cancel ids =>
    if ∀ i ∈ ids, s.macroState.instanceMeta.contains i = true then
      some { s with macroState := (cancelMacroInstances s.macroState ids).1 }
    else none
  | .forget ids =>
    if ∀ i ∈ ids, i ∈ s.macroState.dying then
      some { s with macroState := ids.foldl forgetInstance s.macroState }
    else none
  | .setOutputs outputs => some { s with outputs }
  | .setInputPaused inputPaused => some { s with inputPaused }

end Keymasq.Macros.Playback
