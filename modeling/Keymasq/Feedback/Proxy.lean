import Keymasq.Foundation.Dict
import Keymasq.Foundation.Transition

/-!
# The force-feedback proxy

Upload, erase and play requests of a virtual device are passed on to the physical one.
Uploads and erases run in a thread of the worker, plays that come meanwhile for the same
effect are parked; all others wait for the operation before them.
-/

namespace Keymasq.Feedback.Proxy
open Foundation

/- A play of a virtual effect; `number` counts the plays that came in. -/
structure Play (V : Type) where
  number : Nat
  effect : V
  value : Int
  deriving DecidableEq

/- An upload or erase request, a play of a mapped effect, or another output event. -/
inductive Kind (V : Type)
  | upload (effect : V)
  | erase (effect : V)
  | play (play : Play V)
  | other
  deriving DecidableEq

/- How far an operation is. An upload has begun, has published its mapping, was
acknowledged, and then its parked plays are written; an erase has taken the mapping out;
a play has looked it up. The previous mapping is that at the begin of the upload. -/
inductive Phase (V P : Type)
  | waiting
  | begun (previous : Option P)
  | published (previous : Option P) (physical : P)
  | acknowledged (physical : P)
  | flushing (physical : P) (plays : List (Play V))
  | erasing (physical : P)
  | writing (physical : P)
  | done (ok : Bool)
  deriving DecidableEq

/- `previous` is the operation that it waits for. -/
structure Operation (V P : Type) where
  kind : Kind V
  previous : Option Nat
  phase : Phase V P := .waiting

/- `PassthroughFeedbackProxy`, the effects that live on the physical device, and the
plays that came in, were written (with the physical effect) and were dropped. Finished
operations are kept. -/
structure State (V P : Type) where
  effects : Dict V P := ∅
  pendingUploads : Finset V := ∅
  queuedUploadPlays : Dict V (List (Play V)) := ∅
  operations : Dict Nat (Operation V P) := ∅
  requestQueue : List Nat := []
  operationTail : Option Nat := none
  nextOperation : Nat := 0
  live : Finset P := ∅
  arrived : List (Play V) := []
  written : List (Play V × P) := []
  dropped : List (Play V) := []

variable {V P : Type} [DecidableEq V] [DecidableEq P]

def Operation.isDone (op : Operation V P) : Bool :=
  match op.phase with
  | .done _ => true
  | _ => false

def Operation.isRequest (op : Operation V P) : Bool :=
  match op.kind with
  | .upload _ => true
  | .erase _ => true
  | _ => false

/-! ## Events of the virtual device -/

def schedule (s : State V P) (kind : Kind V) : State V P :=
  { s with
    operations := s.operations.insert s.nextOperation
      { kind := kind, previous := s.operationTail }
    operationTail := some s.nextOperation
    nextOperation := s.nextOperation + 1 }

/-- `_queue_request`. -/
def queueRequest (s : State V P) (kind : Kind V) : State V P :=
  { schedule s kind with requestQueue := s.requestQueue ++ [s.nextOperation] }

/-- A play is parked while its effect is uploaded, and dropped if it is not mapped. -/
def playEvent (s : State V P) (effect : V) (value : Int) : State V P :=
  let play : Play V := { number := s.arrived.length, effect := effect, value := value }
  let s := { s with arrived := s.arrived ++ [play] }
  if effect ∈ s.pendingUploads then
    { s with queuedUploadPlays :=
        s.queuedUploadPlays.insert effect (s.queuedUploadPlays.getD effect [] ++ [play]) }
  else
    match s.effects.get? effect with
    | none => { s with dropped := s.dropped ++ [play] }
    | some _ => schedule s (.play play)

/-! ## Operations -/

def setPhase (s : State V P) (id : Nat) (op : Operation V P) (phase : Phase V P) : State V P :=
  { s with operations := s.operations.insert id { op with phase := phase } }

/-- The operation is finished; the worker goes on to its next request. -/
def complete (s : State V P) (id : Nat) (op : Operation V P) (ok : Bool) : State V P :=
  { setPhase s id op (.done ok) with requestQueue := s.requestQueue.erase id }

/-- `_wait_for_operation` returns. -/
def previousDone (s : State V P) (op : Operation V P) : Bool :=
  op.previous.all fun id => (s.operations.get? id).any Operation.isDone

/-- `_discard_pending_upload`. -/
def discardPendingUpload (s : State V P) (effect : V) : State V P :=
  { s with
    pendingUploads := s.pendingUploads.erase effect
    dropped := s.dropped ++ s.queuedUploadPlays.getD effect []
    queuedUploadPlays := s.queuedUploadPlays.erase effect }

/-- The operation starts: a request is begun at the virtual device, a play looks its
effect up. -/
def start (s : State V P) (id : Nat) (ok : Bool) : Option (State V P) :=
  (s.operations.get? id).bind fun op =>
    if op.phase = .waiting ∧ previousDone s op ∧
        (op.isRequest → s.requestQueue.head? = some id) then
      match op.kind with
      | .upload effect =>
        if ok then
          some { setPhase s id op (.begun (s.effects.get? effect)) with
            pendingUploads := insert effect s.pendingUploads }
        else some (complete s id op false)
      | .erase effect =>
        if ok then
          match s.effects.get? effect with
          | none => some (complete s id op false)
          | some physical =>
            some { setPhase s id op (.erasing physical) with effects := s.effects.erase effect }
        else some (complete s id op false)
      | .play play =>
        match s.effects.get? play.effect with
        | none => some { complete s id op false with dropped := s.dropped ++ [play] }
        | some physical => some (setPhase s id op (.writing physical))
      | .other => some (complete s id op true)
    else none

/-- The physical id that an upload may return: a new one, or the one it was given. -/
def uploadReturns (s : State V P) (previous : Option P) (physical : P) : Bool :=
  previous.elim (physical ∉ s.live) fun p => physical = p

/-- The physical upload raises, or returns an id, which is published. -/
def uploadEffect (s : State V P) (id : Nat) (result : Option P) : Option (State V P) :=
  (s.operations.get? id).bind fun op =>
    match op.phase, op.kind with
    | .begun previous, .upload effect =>
      match result with
      | none => some (complete (discardPendingUpload s effect) id op false)
      | some physical =>
        if uploadReturns s previous physical then
          some { setPhase s id op (.published previous physical) with
            live := insert physical s.live
            effects := s.effects.insert effect physical }
        else none
    | _, _ => none

/-- `_restore_upload_mapping` and `_rollback_uploaded_effect`. -/
def rollbackUpload (s : State V P) (effect : V) (previous : Option P) (physical : P)
    (erased : Bool) : State V P :=
  { s with
    effects := previous.elim (s.effects.erase effect) (s.effects.insert effect)
    live := if previous = some physical ∨ ¬ erased then s.live else s.live.erase physical }

/-- The acknowledgement of an upload succeeds, or the upload is rolled back. -/
def endUpload (s : State V P) (id : Nat) (ok erased : Bool) : Option (State V P) :=
  (s.operations.get? id).bind fun op =>
    match op.phase, op.kind with
    | .published previous physical, .upload effect =>
      if ok then some (setPhase s id op (.acknowledged physical))
      else
        some (complete (discardPendingUpload (rollbackUpload s effect previous physical erased)
          effect) id op false)
    | _, _ => none

/-- `_finish_upload`. -/
def finishUpload (s : State V P) (id : Nat) : Option (State V P) :=
  (s.operations.get? id).bind fun op =>
    match op.phase, op.kind with
    | .acknowledged physical, .upload effect =>
      if s.effects.get? effect = some physical then
        some { setPhase s id op
            (.flushing physical (s.queuedUploadPlays.getD effect [])) with
          pendingUploads := s.pendingUploads.erase effect
          queuedUploadPlays := s.queuedUploadPlays.erase effect }
      else some (setPhase (discardPendingUpload s effect) id op (.flushing physical []))
    | _, _ => none

/-- `_write_physical_event` of the next parked play, or of a play. -/
def write (s : State V P) (id : Nat) : Option (State V P) :=
  (s.operations.get? id).bind fun op =>
    match op.phase, op.kind with
    | .flushing physical (play :: plays), .upload _ =>
      some { setPhase s id op (.flushing physical plays) with
        written := s.written ++ [(play, physical)] }
    | .flushing _ [], .upload _ => some (complete s id op true)
    | .writing physical, .play play =>
      some { complete s id op true with written := s.written ++ [(play, physical)] }
    | _, _ => none

/-- The physical erase succeeds, or the mapping comes back. -/
def eraseEffect (s : State V P) (id : Nat) (ok : Bool) : Option (State V P) :=
  (s.operations.get? id).bind fun op =>
    match op.phase, op.kind with
    | .erasing physical, .erase effect =>
      if ok then some { complete s id op true with live := s.live.erase physical }
      else some { complete s id op false with effects := s.effects.insert effect physical }
    | _, _ => none

/-- The tail is forgotten when it is finished. -/
def forgetTail (s : State V P) : Option (State V P) :=
  s.operationTail.bind fun id =>
    if (s.operations.get? id).any Operation.isDone then some { s with operationTail := none }
    else none

/-! ## Steps -/

inductive Step (V P : Type)
  | uploadRequest (effect : V)
  | eraseRequest (effect : V)
  | play (effect : V) (value : Int)
  | otherEvent
  | start (id : Nat) (ok : Bool)
  | uploadEffect (id : Nat) (result : Option P)
  | endUpload (id : Nat) (ok erased : Bool)
  | finishUpload (id : Nat)
  | write (id : Nat)
  | eraseEffect (id : Nat) (ok : Bool)
  | forgetTail

def step (s : State V P) : Step V P → Option (State V P)
  | .uploadRequest effect => some (queueRequest s (.upload effect))
  | .eraseRequest effect => some (queueRequest s (.erase effect))
  | .play effect value => some (playEvent s effect value)
  | .otherEvent => some (schedule s .other)
  | .start id ok => start s id ok
  | .uploadEffect id result => uploadEffect s id result
  | .endUpload id ok erased => endUpload s id ok erased
  | .finishUpload id => finishUpload s id
  | .write id => write s id
  | .eraseEffect id ok => eraseEffect s id ok
  | .forgetTail => forgetTail s

end Keymasq.Feedback.Proxy
