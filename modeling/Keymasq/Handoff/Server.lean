import Keymasq.Foundation.Dict
import Keymasq.Foundation.Transition

/-!
# Handed-off file descriptors

Root jobs send descriptors over a socket, with the token that somebody waits for. The
descriptors are numbered in the order in which they are received.
-/

namespace Keymasq.Handoff.Server
open Foundation

/- The future of a `PendingHandoff`. -/
inductive Future
  | pending
  | done (fds : List Nat)
  | cancelled
  deriving DecidableEq

/- Where the task is that expects the token: in the block without a claim, in a claim, or
out of the block. -/
inductive Phase
  | inside
  | claiming
  | left
  deriving DecidableEq

/- `PendingHandoff`, with the token and the task of its `expect` block. -/
structure Handoff where
  token : String
  future : Future := .pending
  claimed : Bool := false
  phase : Phase := .inside

/- `FdHandoffServer`; connections are kept with the peer's uid. `closed` and `returned`
are the descriptors that were closed, and returned by a claim, in this order. -/
structure State where
  trustedUid : Nat := 0
  listening : Bool := false
  pending : Dict String Nat := ∅
  connections : Dict Nat Nat := ∅
  handoffs : Dict Nat Handoff := ∅
  nextConnection : Nat := 0
  nextHandoff : Nat := 0
  nextFd : Nat := 0
  closed : List Nat := []
  returned : List Nat := []

/- What `recvmsg` returns: the number of descriptors, whether a part is missing, and the
token of the message if it is a JSON object with a string there. -/
structure Message where
  fds : Nat
  truncated : Bool
  token : Option String

/- A receive has nothing yet, fails, or has a message. -/
inductive Received
  | blocked
  | fails
  | message (m : Message)

/-- `TOKEN.fullmatch`. -/
def isToken (token : String) : Bool :=
  token.length = 32 && token.toList.all fun c => ('0' ≤ c ∧ c ≤ '9') ∨ ('a' ≤ c ∧ c ≤ 'f')

/-- `_close_all`. -/
def closeAll (s : State) (fds : List Nat) : State := { s with closed := s.closed ++ fds }

def setHandoff (s : State) (id : Nat) (h : Handoff) : State :=
  { s with handoffs := s.handoffs.insert id h }

/-! ## A pending handoff -/

/-- The task in the block claims, and waits for the future, with a timeout. -/
def claim (s : State) (id : Nat) : Option State :=
  (s.handoffs.get? id).bind fun h =>
    if h.phase = .inside then some (setHandoff s id { h with phase := .claiming }) else none

/-- The claim goes on with the result of the future, or with its cancellation. -/
def wake (s : State) (id : Nat) : Option State :=
  (s.handoffs.get? id).bind fun h =>
    if h.phase = .claiming then
      match h.future with
      | .pending => none
      | .done fds => some { setHandoff s id { h with claimed := true, phase := .inside } with
          returned := s.returned ++ fds }
      | .cancelled => some (setHandoff s id { h with phase := .inside })
    else none

/-- The timeout or a cancellation ends the claim, whether or not the future is done; the
future is shielded. -/
def interrupt (s : State) (id : Nat) : Option State :=
  (s.handoffs.get? id).bind fun h =>
    if h.phase = .claiming then some (setHandoff s id { h with phase := .inside }) else none

def discard (s : State) (id : Nat) : State :=
  match s.handoffs.get? id with
  | none => s
  | some h =>
    if h.claimed then s
    else
      match h.future with
      | .done fds => closeAll s fds
      | .pending => setHandoff s id { h with future := .cancelled }
      | .cancelled => s

/-! ## The server -/

/-- `expect`, up to the block; a bad token raises. -/
def expect (s : State) (token : String) : State :=
  if ¬ isToken token ∨ s.pending.contains token then s
  else
    { setHandoff s s.nextHandoff { token := token } with
      pending := s.pending.insert token s.nextHandoff
      nextHandoff := s.nextHandoff + 1 }

/-- The end of the `expect` block, however it is left. -/
def leave (s : State) (id : Nat) : Option State :=
  (s.handoffs.get? id).bind fun h =>
    if h.phase = .inside then
      let s := { s with
        pending := if s.pending.get? h.token = some id then s.pending.erase h.token
          else s.pending }
      let s := discard s id
      some (setHandoff s id { s.handoffs.getD id h with phase := .left })
    else none

def stop (s : State) : State :=
  let s := { s with listening := false, connections := ∅ }
  { s.pending.values.foldl discard s with pending := ∅ }

/-- `_accept` of one connection; there is no uid if the credentials cannot be read. -/
def accept (s : State) (uid : Option Nat) : Option State :=
  if s.listening then
    if uid = some s.trustedUid then
      some { s with
        connections := s.connections.insert s.nextConnection s.trustedUid
        nextConnection := s.nextConnection + 1 }
    else some s
  else none

/-- `_drop`. -/
def drop (s : State) (connection : Nat) : State :=
  { s with connections := s.connections.erase connection }

/-- The descriptors go to the handoff that waits for the token, or are closed. -/
def deliver (s : State) (m : Message) (received : List Nat) : State :=
  if m.truncated then closeAll s received
  else
    match m.token with
    | none => closeAll s received
    | some token =>
      match s.pending.get? token with
      | none => closeAll s received
      | some id =>
        let s := { s with pending := s.pending.erase token }
        match s.handoffs.get? id with
        | none => closeAll s received
        | some h =>
          if h.future = .pending then setHandoff s id { h with future := .done received }
          else closeAll s received

/-- `_receive`. -/
def receive (s : State) (connection : Nat) : Received → Option State
  | .blocked => if s.connections.contains connection then some s else none
  | .fails => if s.connections.contains connection then some (drop s connection) else none
  | .message m =>
    if s.connections.contains connection then
      let received := List.range' s.nextFd m.fds
      some (deliver { drop s connection with nextFd := s.nextFd + m.fds } m received)
    else none

/-! ## Steps -/

/- `drop` is the timeout of a connection. -/
inductive Step
  | start
  | stop
  | expect (token : String)
  | claim (id : Nat)
  | wake (id : Nat)
  | timeout (id : Nat)
  | cancel (id : Nat)
  | leave (id : Nat)
  | accept (uid : Option Nat)
  | drop (connection : Nat)
  | receive (connection : Nat) (received : Received)

def step (s : State) : Step → Option State
  | .start => some { s with listening := true }
  | .stop => some (stop s)
  | .expect token => some (expect s token)
  | .claim id => claim s id
  | .wake id => wake s id
  | .timeout id => interrupt s id
  | .cancel id => interrupt s id
  | .leave id => leave s id
  | .accept uid => accept s uid
  | .drop connection => some (drop s connection)
  | .receive connection received => receive s connection received

end Keymasq.Handoff.Server
