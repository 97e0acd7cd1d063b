import Mathlib.Data.Int.Notation
import Keymasq.Foundation.Transition
import Keymasq.Profile.Model

/-!
# The superkey machine

One key with up to four gestures: tap, double tap, hold and tap-hold. An action
that is executed may suspend its task, so a task is kept as the piece of code it
resumes with; where an action awaits nothing, as a key does, the task resumes with
the very next label. A label says which call is made or which task resumes; timers
are tasks asleep in their timeout.
-/

namespace Keymasq.Superkey.Machine
open Keymasq.Profile.Model

structure SuperkeyActionData where
  actionType : ActionType
  target : Option String := none
  deriving DecidableEq

structure SuperkeyConfig where
  tapTimeoutMs : ℤ := 200
  tapActions : List SuperkeyActionData := []
  doubleTapActions : List SuperkeyActionData := []
  holdActions : List SuperkeyActionData := []
  tapHoldActions : List SuperkeyActionData := []

inductive SuperkeyState
  | idle
  | downWait
  | upWait
  | holding
  | downWait2
  | tapHolding
  deriving DecidableEq

inductive Slot
  | tap
  | doubleTap
  | hold
  | tapHold
  deriving DecidableEq

/-- `runs_natural_move` of one list. -/
def runsNaturalMove (actions : List SuperkeyActionData) : Bool :=
  actions.any fun action =>
    action.actionType = .mouseMoveNaturalAbs || action.actionType = .repeat

/-! ## What the actions do -/

/-- One pass of an action from its press to its release; the index is its place in the list. -/
structure Entry where
  serial : ℕ
  index : ℕ
  action : SuperkeyActionData
  deriving DecidableEq

structure Executed where
  entry : Entry
  down : Bool
  deriving DecidableEq

/-- `_held_actions`, the last one first, and everything executed so far. -/
structure Outputs where
  heldActions : List Entry := []
  executed : List Executed := []
  nextSerial : ℕ := 0

/-- `_execute_action_down` -/
def Outputs.down (out : Outputs) (action : SuperkeyActionData) (index : ℕ) : Outputs × Entry :=
  let entry : Entry := { serial := out.nextSerial, index := index, action := action }
  ({ out with executed := out.executed ++ [⟨entry, true⟩], nextSerial := out.nextSerial + 1 }, entry)

/-- `_execute_action_up` -/
def Outputs.up (out : Outputs) (entry : Entry) : Outputs :=
  { out with executed := out.executed ++ [⟨entry, false⟩] }

/-- What is handed to `_run_sequence`. -/
inductive Step
  | tap (actions : List SuperkeyActionData)
  | press (actions : List SuperkeyActionData)
  | release
  deriving DecidableEq

/- Where a task is suspended: asleep in a timeout, waiting for the task before
it, or after an action of one of the three loops. -/
inductive Body
  | holdTimeout
  | doubleTapTimeout
  | waiting (step : Step)
  | tapping (pressed : List Entry) (rest : List (SuperkeyActionData × ℕ))
  | tapSleep (pressed : List Entry)
  | tapReleasing (left : List Entry)
  | pressing (rest : List (SuperkeyActionData × ℕ))
  | releasing
  deriving DecidableEq

/-- The loops stop after an emergency reset. -/
def remaining (action : SuperkeyActionData) (rest : List (SuperkeyActionData × ℕ)) :
    List (SuperkeyActionData × ℕ) :=
  if action.actionType = .emergencyReset then [] else rest

/-- The loop of `_execute_actions_tap`, up to its sleep. -/
def tapNext (out : Outputs) (pressed : List Entry) :
    List (SuperkeyActionData × ℕ) → Outputs × Option Body
  | [] => (out, some (.tapSleep pressed))
  | (action, index) :: rest =>
    let (out, entry) := out.down action index
    (out, some (.tapping (entry :: pressed) (remaining action rest)))

/-- Its `finally` block. -/
def tapRelease (out : Outputs) : List Entry → Outputs × Option Body
  | [] => (out, none)
  | entry :: left => (out.up entry, some (.tapReleasing left))

/-- `_execute_actions_down`; it may suspend after any action, though not every action awaits. -/
def pressNext (out : Outputs) : List (SuperkeyActionData × ℕ) → Outputs × Option Body
  | [] => (out, none)
  | (action, index) :: rest =>
    let (out, entry) := out.down action index
    ({ out with heldActions := entry :: out.heldActions },
      some (.pressing (remaining action rest)))

/-- `_execute_held_actions_up` -/
def releaseHeld (out : Outputs) : Outputs × Option Body :=
  match out.heldActions with
  | [] => (out, none)
  | entry :: held => ({ out with heldActions := held }.up entry, some .releasing)

def Step.start (out : Outputs) : Step → Outputs × Option Body
  | .tap actions => tapNext out [] actions.zipIdx
  | .press actions => pressNext out actions.zipIdx
  | .release => releaseHeld out

/-- A suspended loop goes on to its next suspension or ends. -/
def Body.resume (out : Outputs) : Body → Outputs × Option Body
  | .holdTimeout => (out, none)
  | .doubleTapTimeout => (out, none)
  | .waiting step => step.start out
  | .tapping pressed rest => tapNext out pressed rest
  | .tapSleep pressed => tapRelease out pressed
  | .tapReleasing left => tapRelease out left
  | .pressing rest => pressNext out rest
  | .releasing => releaseHeld out

/-- `CancelledError` arrives: only the emission of a tap still releases what it pressed. -/
def Body.cancel (out : Outputs) : Body → Outputs × Option Body
  | .tapping pressed _ => tapRelease out pressed
  | .tapSleep pressed => tapRelease out pressed
  | _ => (out, none)

/-! ## Tasks -/

/- What a task does after its loop: nothing, `_become_idle`, nothing but for the
release pass of `_execute_sequence_step` when it is cancelled, or that pass. -/
inductive After
  | done
  | becomeIdle
  | sequence
  | releaseHeld
  deriving DecidableEq

structure Task where
  id : ℕ
  body : Body
  after : After := .done
  cancelled : Bool := false
  deriving DecidableEq

/- The machine with its suspended tasks. `lane` holds the tasks of
`ActionSequences` for this key in order; all but the first wait for the one
before. `slots` are the slots run since the machine last left `idle`. -/
structure SuperkeyMachine where
  config : SuperkeyConfig
  sequences : Bool
  state : SuperkeyState := .idle
  pressStartedAt : Option ℤ := none
  holdTask : Option ℕ := none
  doubleTapTask : Option ℕ := none
  outputs : Outputs := {}
  running : Bool := true
  tasks : List Task := []
  lane : List Task := []
  nextId : ℕ := 0
  slots : List Slot := []

namespace SuperkeyMachine

def becomeIdle (m : SuperkeyMachine) : SuperkeyMachine := { m with state := .idle }

def cancelTask (m : SuperkeyMachine) (task : Option ℕ) : SuperkeyMachine :=
  { m with tasks := m.tasks.map fun t => if task = some t.id then { t with cancelled := true } else t }

def cancelHoldTask (m : SuperkeyMachine) : SuperkeyMachine :=
  { m.cancelTask m.holdTask with holdTask := none }

def cancelDoubleTapTask (m : SuperkeyMachine) : SuperkeyMachine :=
  { m.cancelTask m.doubleTapTask with doubleTapTask := none }

/-- `ActionSequences.cancel`: the lane is dropped and its tasks are cancelled. -/
def cancelLane (m : SuperkeyMachine) : SuperkeyMachine :=
  { m with tasks := m.tasks ++ m.lane.map fun t => { t with cancelled := true }, lane := [] }

def startHoldTask (m : SuperkeyMachine) : SuperkeyMachine :=
  { m with
    tasks := m.tasks ++ [{ id := m.nextId, body := .holdTimeout }]
    holdTask := some m.nextId
    nextId := m.nextId + 1 }

def startDoubleTapTask (m : SuperkeyMachine) : SuperkeyMachine :=
  { m with
    tasks := m.tasks ++ [{ id := m.nextId, body := .doubleTapTimeout }]
    doubleTapTask := some m.nextId
    nextId := m.nextId + 1 }

/-- The task `id` is suspended in `body`, or its loop is over. -/
def proceed (m : SuperkeyMachine) (id : ℕ) (after : After) : Option Body → SuperkeyMachine
  | some body => { m with tasks := m.tasks ++ [{ id := id, body := body, after := after }] }
  | none =>
    match after with
    | .done => m
    | .sequence => m
    | .becomeIdle => m.becomeIdle
    | .releaseHeld =>
      let (out, body) := Machine.releaseHeld m.outputs
      match body with
      | none => { m with outputs := out }
      | some body =>
        { m with outputs := out, tasks := m.tasks ++ [{ id := id, body := body }] }

/- `_run_sequence` called by the task `id`, which is never one of the lane. A
detached step starts at once when the lane is free; a step that is not queued
runs in the caller. -/
def runSequence (m : SuperkeyMachine) (id : ℕ) (step : Step) (detach : Bool) (after : After) :
    SuperkeyMachine :=
  if m.sequences && (detach || m.lane ≠ []) then
    if m.lane = [] then
      let (out, body) := step.start m.outputs
      { m with
        outputs := out
        lane := body.toList.map fun body => { id := m.nextId, body := body, after := .sequence }
        nextId := m.nextId + 1 }.proceed id after none
    else
      let task : Task := { id := m.nextId, body := .waiting step, after := .sequence }
      { m with lane := m.lane ++ [task], nextId := m.nextId + 1 }.proceed id after none
  else
    let (out, body) := step.start m.outputs
    { m with outputs := out }.proceed id after body

/-- `_record_repeat_path` -/
def recordSlot (m : SuperkeyMachine) (slot : Slot) : SuperkeyMachine :=
  { m with slots := m.slots ++ [slot] }

def emitTap (m : SuperkeyMachine) (id : ℕ) (after : After) : SuperkeyMachine :=
  if m.config.tapActions = [] then m.proceed id after none
  else
    (m.recordSlot .tap).runSequence id (.tap m.config.tapActions)
      (runsNaturalMove m.config.tapActions) after

def emitDoubleTap (m : SuperkeyMachine) (id : ℕ) (after : After) : SuperkeyMachine :=
  if m.config.doubleTapActions = [] then m.proceed id after none
  else
    (m.recordSlot .doubleTap).runSequence id (.tap m.config.doubleTapActions)
      (runsNaturalMove m.config.doubleTapActions) after

def emitHoldDown (m : SuperkeyMachine) (id : ℕ) (after : After) : SuperkeyMachine :=
  if m.config.holdActions = [] then m.proceed id after none
  else
    (m.recordSlot .hold).runSequence id (.press m.config.holdActions)
      (runsNaturalMove m.config.holdActions) after

def emitTapHoldDown (m : SuperkeyMachine) (id : ℕ) (after : After) : SuperkeyMachine :=
  if m.config.tapHoldActions = [] then m.proceed id after none
  else
    (m.recordSlot .tapHold).runSequence id (.press m.config.tapHoldActions)
      (runsNaturalMove m.config.tapHoldActions) after

def emitHoldUp (m : SuperkeyMachine) (id : ℕ) (after : After) : SuperkeyMachine :=
  if m.config.holdActions = [] then m.proceed id after none
  else m.runSequence id .release (runsNaturalMove []) after

def emitTapHoldUp (m : SuperkeyMachine) (id : ℕ) (after : After) : SuperkeyMachine :=
  if m.config.tapHoldActions = [] then m.proceed id after none
  else m.runSequence id .release (runsNaturalMove []) after

/-! ## The calls -/

def transitionToDownWait (m : SuperkeyMachine) (now : ℤ) : SuperkeyMachine :=
  let m := { m with state := .downWait, pressStartedAt := some now, slots := [] }
  if m.config.holdActions = [] then m else m.startHoldTask

def onSecondDown (m : SuperkeyMachine) (now : ℤ) : SuperkeyMachine :=
  let m : SuperkeyMachine :=
    { m.cancelDoubleTapTask with state := .downWait2, pressStartedAt := some now }
  if m.config.tapHoldActions = [] ∧ m.config.holdActions = [] then m else m.startHoldTask

def onDown (m : SuperkeyMachine) (now : ℤ) : SuperkeyMachine :=
  match m.state with
  | .idle => m.transitionToDownWait now
  | .upWait => m.onSecondDown now
  | _ => m

/-- `_release_qualifies_as_tap`; the clock counts microseconds. -/
def releaseQualifiesAsTap (m : SuperkeyMachine) (now : ℤ) : Bool :=
  match m.pressStartedAt with
  | none => false
  | some startedAt => max 0 (now - startedAt) ≤ max 0 m.config.tapTimeoutMs * 1000

def onFirstUp (m : SuperkeyMachine) (id : ℕ) (now : ℤ) : SuperkeyMachine :=
  let isTap := m.releaseQualifiesAsTap now
  let m := { m with pressStartedAt := none }.cancelHoldTask
  if !isTap then m.becomeIdle
  else if m.config.doubleTapActions ≠ [] ∨ m.config.tapHoldActions ≠ [] then
    { m with state := .upWait }.startDoubleTapTask
  else if m.config.tapActions ≠ [] then m.emitTap id .becomeIdle
  else m.becomeIdle

def onSecondUp (m : SuperkeyMachine) (id : ℕ) (now : ℤ) : SuperkeyMachine :=
  let isTap := m.releaseQualifiesAsTap now
  let m := { m with pressStartedAt := none }.cancelHoldTask
  if isTap ∧ m.config.doubleTapActions ≠ [] then m.emitDoubleTap id .becomeIdle
  else if m.config.tapActions ≠ [] then m.emitTap id .becomeIdle
  else m.becomeIdle

/-- The call is a task of its own, which ends with `_become_idle` where it suspends. -/
def onUp (m : SuperkeyMachine) (now : ℤ) : SuperkeyMachine :=
  let id := m.nextId
  let called := { m with nextId := m.nextId + 1 }
  match m.state with
  | .downWait => called.onFirstUp id now
  | .holding => called.emitHoldUp id .becomeIdle
  | .downWait2 => called.onSecondUp id now
  | .tapHolding => called.emitTapHoldUp id .becomeIdle
  | _ => m

def stop (m : SuperkeyMachine) : SuperkeyMachine :=
  let id := m.nextId
  let m := { m with running := false, pressStartedAt := none, nextId := m.nextId + 1 }
  let m := m.cancelHoldTask.cancelDoubleTapTask
  let m := if m.sequences then m.cancelLane else m
  let (out, body) := Machine.releaseHeld m.outputs
  { m with outputs := out }.proceed id .becomeIdle body

/-! ## Timers and suspended tasks -/

def startHolding (m : SuperkeyMachine) (id : ℕ) : SuperkeyMachine :=
  { m with pressStartedAt := none, state := .holding }.emitHoldDown id .done

def startTapHolding (m : SuperkeyMachine) (id : ℕ) : SuperkeyMachine :=
  if m.config.tapHoldActions = [] then m.startHolding id
  else { m with pressStartedAt := none, state := .tapHolding }.emitTapHoldDown id .done

/-- `_hold_timeout` after its sleep. -/
def holdTimeout (m : SuperkeyMachine) (id : ℕ) : SuperkeyMachine :=
  if !m.running then m
  else
    match m.state with
    | .downWait => m.startHolding id
    | .downWait2 => m.startTapHolding id
    | _ => m

/-- `_double_tap_timeout` after its sleep. -/
def doubleTapTimeout (m : SuperkeyMachine) (id : ℕ) : SuperkeyMachine :=
  if !m.running then m
  else if m.state = .upWait then
    if m.config.tapActions ≠ [] then m.emitTap id .becomeIdle else m.becomeIdle
  else m

/-- What remains of a task once its cancellation is delivered. -/
def afterCancel (t : Task) : After :=
  match t.body, t.after with
  | .waiting _, _ => .done
  | _, .sequence => .releaseHeld
  | _, _ => .done

/-- One task goes on; it has been taken off the list. -/
def resumeTask (m : SuperkeyMachine) (t : Task) : SuperkeyMachine :=
  if t.cancelled then
    let (out, body) := t.body.cancel m.outputs
    { m with outputs := out }.proceed t.id (afterCancel t) body
  else
    match t.body with
    | .holdTimeout => m.holdTimeout t.id
    | .doubleTapTimeout => m.doubleTapTimeout t.id
    | body =>
      let (out, body) := body.resume m.outputs
      { m with outputs := out }.proceed t.id t.after body

/-- The first task of the lane goes on. -/
def resumeLane (m : SuperkeyMachine) (t : Task) (rest : List Task) : SuperkeyMachine :=
  let (out, body) := t.body.resume m.outputs
  { m with outputs := out, lane := (body.toList.map fun body => { t with body := body }) ++ rest }

end SuperkeyMachine

inductive Op
  | onDown (now : ℤ)
  | onUp (now : ℤ)
  | stop
  | resume (id : ℕ)
  deriving DecidableEq

def step (m : SuperkeyMachine) : Op → Option SuperkeyMachine
  | .onDown now => some (m.onDown now)
  | .onUp now => some (m.onUp now)
  | .stop => some m.stop
  | .resume id =>
    match m.tasks.find? fun t => t.id = id with
    | some t => some ({ m with tasks := m.tasks.eraseP fun t => t.id = id }.resumeTask t)
    | none =>
      match m.lane with
      | [] => none
      | t :: rest => if t.id = id then some (m.resumeLane t rest) else none

end Keymasq.Superkey.Machine
