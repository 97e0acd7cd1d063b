import Keymasq.Recording.Store

/-!
# The slot table of the session

The session keeps what it knows of pending recordings by slot, the daemon keeps the
recordings by id. Requests wait for their answers while other requests go on.
-/

namespace Keymasq.Session.Slots
open Foundation Recording.Store

/- What the session is told of a pending recording. Recordings are numbered in the order in
which they were made; a missing or blank `pending_recording_id` is none. -/
structure PendingData (M : Type) where
  recordingId : Option Nat := none
  info : Option M := none
  startPositionRecorded : Bool := false
  deriving DecidableEq

structure PendingSlot (M W : Type) where
  data : PendingData M
  token : Nat
  owner : Option W := none
  deriving DecidableEq

/- A recording of the daemon. -/
structure Recording (M : Type) where
  slot : Nat
  info : M

/- An answer of the daemon: to a stop, the recording if the daemon tells one. -/
inductive Answer (M : Type)
  | error
  | stopped (data : Option (PendingData M))
  | deleted
  | listed (recordings : List (Nat × Recording M))

/- Who waits for an answer: `stop_recording`, `delete_pending_macro_slot`,
`store_pending_macro_save` that has the slot emptied (`stops` if a stop called it, not an
event), and `sync_pending_macro_slots_from_daemon`. -/
inductive Request (M : Type)
  | stop (slot : Nat)
  | delete (slot : Nat) (recordingId : Nat)
  | store (slot : Nat) (recordingId : Nat) (data : PendingData M) (stops : Bool)
  | sync

/- `known` are the recordings in the table of the session when the daemon answered. -/
structure Task (M : Type) where
  request : Request M
  answer : Option (Answer M) := none
  known : Finset Nat := ∅

/- `manager.recording_state`, the tasks that wait, and the daemon: the slot that it
records, its pending recordings, and its events that are under way. -/
structure State (M W : Type) where
  active : Bool := false
  activeSlot : Nat := 0
  startCursor : Bool := false
  activeOwner : Option W := none
  pendingSlots : Dict Nat (PendingSlot M W) := ∅
  nextToken : Nat := 0
  tasks : Dict Nat (Task M) := ∅
  nextTask : Nat := 0
  recordingSlot : Option Nat := none
  recordings : Dict Nat (Recording M) := ∅
  nextRecording : Nat := 0
  events : List (Nat × Recording M) := []

variable {M W : Type} [DecidableEq M] [DecidableEq W]

/-- `normalize_pending_macro_recording_slot`. -/
def normalizePendingSlot (slot fallback : Nat) : Nat :=
  if normalizeMacroRecordingSlot slot ≠ 0 then normalizeMacroRecordingSlot slot
  else if 1 ≤ fallback ∧ fallback ≤ maxMacroRecordingSlots then fallback else 1

/-- `dict.update`: what is told replaces what was told before. -/
def PendingData.update (old new : PendingData M) : PendingData M where
  recordingId := new.recordingId.or old.recordingId
  info := new.info.or old.info
  startPositionRecorded := new.startPositionRecorded || old.startPositionRecorded

/-- `pending_macro_save_slot_for_token`. -/
def slotForToken (s : State M W) (token : Option Nat) : Option Nat :=
  token.bind fun token =>
    (s.pendingSlots.entries.find? fun entry => entry.2.token = token).map Prod.fst

/-- `pending_macro_save_slot`: the slot of the token, else the slot itself, else the only one. -/
def pendingSaveSlot (s : State M W) (slot : Nat) (token : Option Nat) : Option Nat :=
  match slotForToken s token with
  | some slot => some slot
  | none =>
    if token.isSome then none
    else if normalizeMacroRecordingSlot slot ≠ 0 then
      if s.pendingSlots.contains (normalizeMacroRecordingSlot slot) then
        some (normalizeMacroRecordingSlot slot)
      else none
    else
      match s.pendingSlots.keys with
      | [slot] => some slot
      | _ => none

/-- The recording in a slot of the session. -/
def heldIn (s : State M W) (slot : Nat) : Option Nat :=
  (s.pendingSlots.get? slot).bind fun entry => entry.data.recordingId

def send (s : State M W) (request : Request M) : State M W :=
  { s with tasks := s.tasks.insert s.nextTask { request := request }, nextTask := s.nextTask + 1 }

/-- `clear_pending_macro_save` of a slot. -/
def clear (s : State M W) (slot : Nat) : State M W :=
  { s with pendingSlots := s.pendingSlots.erase slot }

/-- `begin_pending_macro_save`. -/
def beginSave (s : State M W) (data : PendingData M) (slot : Nat) : State M W :=
  { s with
    pendingSlots := s.pendingSlots.insert slot
      { data := data, token := s.nextToken, owner := s.activeOwner }
    nextToken := s.nextToken + 1
    activeOwner := none }

/-- What `stop_recording` and the event handler do when the recording is stored. -/
def finishStop (s : State M W) (stops : Bool) : State M W :=
  { s with active := if stops then false else s.active, activeSlot := 0, startCursor := false }

/-- `delete_pending_macro_slot`, up to its request. -/
def deleteSlot (s : State M W) (slot : Nat) (token : Option Nat) : State M W :=
  match pendingSaveSlot s slot token with
  | none => s
  | some slot =>
    match heldIn s slot with
    | none => clear s slot
    | some recordingId => send s (.delete slot recordingId)

/-- `store_pending_macro_save`; another recording of the slot is deleted first. -/
def store (s : State M W) (data : PendingData M) (slot : Nat) (stops : Bool) : State M W :=
  let slot := normalizePendingSlot slot 1
  match s.pendingSlots.get? slot with
  | none => finishStop (beginSave s data slot) stops
  | some existing =>
    match existing.data.recordingId with
    | none => finishStop (beginSave (clear s slot) data slot) stops
    | some recordingId =>
      if data.recordingId = some recordingId then
        finishStop { s with
          pendingSlots := s.pendingSlots.insert slot
            { existing with data := existing.data.update data } } stops
      else send s (.store slot recordingId data stops)

/-- One recording of the list in `replace_pending_macro_slots_from_daemon`. -/
def putListed (old : Dict Nat (PendingSlot M W)) (s : State M W) (item : Nat × Recording M) :
    State M W :=
  let slot := normalizeMacroRecordingSlot item.2.slot
  let data : PendingData M := { recordingId := some item.1, info := some item.2.info }
  if slot = 0 then s
  else
    match old.get? slot with
    | some existing =>
      if existing.data.recordingId = some item.1 then
        { s with
          pendingSlots := s.pendingSlots.insert slot
            { existing with data := existing.data.update data } }
      else
        { s with
          pendingSlots := s.pendingSlots.insert slot { data := data, token := s.nextToken }
          nextToken := s.nextToken + 1 }
    | none =>
      { s with
        pendingSlots := s.pendingSlots.insert slot { data := data, token := s.nextToken }
        nextToken := s.nextToken + 1 }

/-- `replace_pending_macro_slots_from_daemon`. -/
def replaceSlots (s : State M W) (recordings : List (Nat × Recording M)) : State M W :=
  recordings.foldl (putListed s.pendingSlots) { s with pendingSlots := ∅ }

/-! ## Requests of the session -/

/-- `stop_recording`, up to its request. -/
def callStop (s : State M W) (slot : Nat) : State M W :=
  if s.active then
    let slot :=
      if normalizeMacroRecordingSlot slot ≠ 0 then normalizeMacroRecordingSlot slot
      else s.activeSlot
    send s (.stop (normalizePendingSlot slot 1))
  else s

/-- The session handles a `RECORDING_STOPPED` event. -/
def handleStopped (s : State M W) (recordingId : Nat) (recording : Recording M) : State M W :=
  let slot := if recording.slot = 0 then s.activeSlot else recording.slot
  store { s with active := false }
    { recordingId := some recordingId, info := some recording.info
      startPositionRecorded := s.startCursor } (normalizePendingSlot slot 1) false

/-- The request goes on with its answer. -/
def resume (s : State M W) (request : Request M) (answer : Answer M) : State M W :=
  match request, answer with
  | .stop slot, .stopped (some data) =>
    store s { data with startPositionRecorded := data.startPositionRecorded || s.startCursor } slot
      true
  | .stop _, .stopped none =>
    { s with active := false, activeSlot := 0, startCursor := false, activeOwner := none }
  | .delete slot _, .deleted => clear s slot
  | .store slot _ data stops, .deleted => finishStop (beginSave (clear s slot) data slot) stops
  | .store slot _ data stops, _ => finishStop (beginSave s data slot) stops
  | .sync, .listed recordings => replaceSlots s recordings
  | _, _ => s

/-! ## The daemon -/

/-- The recordings of the slots. -/
def listPendingRecordings (s : State M W) : List (Nat × Recording M) :=
  s.recordings.entries.filter fun entry => normalizeMacroRecordingSlot entry.2.slot ≠ 0

/-- `_stop_locked`: the new recording replaces those of its slot. -/
def stopRecording (s : State M W) (slot : Nat) (info : M) : State M W :=
  { s with
    recordingSlot := none
    recordings := (s.recordings.filter fun _ recording =>
      slot = 0 ∨ recording.slot ≠ slot).insert s.nextRecording { slot := slot, info := info }
    nextRecording := s.nextRecording + 1
    events := s.events ++ [(s.nextRecording, { slot := slot, info := info })] }

/-- The recordings in the table of the session. -/
def known (s : State M W) : Finset Nat :=
  (s.pendingSlots.values.filterMap fun entry => entry.data.recordingId).toFinset

def setAnswer (s : State M W) (id : Nat) (task : Task M) (answer : Answer M) : State M W :=
  { s with
    tasks := s.tasks.insert id
      { request := task.request, answer := some answer, known := known s } }

/-- The daemon serves a stop, a delete or a list. -/
def serve (s : State M W) (id : Nat) (info : M) : Option (State M W) :=
  (s.tasks.get? id).bind fun task =>
    if task.answer.isSome then none
    else
      match task.request with
      | .stop _ =>
        match s.recordingSlot with
        | none => some (setAnswer s id task (.stopped (some {})))
        | some slot =>
          some (setAnswer (stopRecording s slot info) id task
            (.stopped (some { recordingId := some s.nextRecording, info := some info })))
      | .delete _ recordingId =>
        some (setAnswer { s with recordings := s.recordings.erase recordingId } id task .deleted)
      | .store _ recordingId _ _ =>
        some (setAnswer { s with recordings := s.recordings.erase recordingId } id task .deleted)
      | .sync => some (setAnswer s id task (.listed (listPendingRecordings s)))

/-! ## Steps -/

/- `activate`: a recording was started. `record`, `limit`: the daemon starts to record into a
slot, and stops by itself. `refuse`: the daemon answers with an error; a delete may have been
done. `fail`: the request times out, or the connection breaks. -/
inductive Step (M W : Type)
  | activate (slot : Nat) (owner : Option W) (cursor : Bool)
  | callStop (slot : Nat)
  | callDelete (slot : Nat) (token : Option Nat)
  | callSync
  | event
  | resume (id : Nat)
  | fail (id : Nat)
  | record (slot : Nat)
  | limit (info : M)
  | serve (id : Nat) (info : M)
  | refuse (id : Nat) (deletes : Bool)

/-- The recording that a request has deleted. -/
def Request.deletes : Request M → Option Nat
  | .delete _ recordingId => some recordingId
  | .store _ recordingId _ _ => some recordingId
  | _ => none

def step (s : State M W) : Step M W → Option (State M W)
  | .activate slot owner cursor =>
    some { s with active := true, activeSlot := slot, activeOwner := owner, startCursor := cursor }
  | .callStop slot => some (callStop s slot)
  | .callDelete slot token => some (deleteSlot s slot token)
  | .callSync => some (send s .sync)
  | .event =>
    match s.events with
    | [] => none
    | (recordingId, recording) :: events =>
      some (handleStopped { s with events := events } recordingId recording)
  | .resume id =>
    (s.tasks.get? id).bind fun task => task.answer.map fun answer =>
      resume { s with tasks := s.tasks.erase id } task.request answer
  | .fail id =>
    (s.tasks.get? id).map fun task =>
      resume { s with tasks := s.tasks.erase id } task.request .error
  | .record slot =>
    if s.recordingSlot = none ∧ normalizeMacroRecordingSlot slot ≠ 0 then
      some { s with recordingSlot := some (normalizeMacroRecordingSlot slot) }
    else none
  | .limit info => s.recordingSlot.map fun slot => stopRecording s slot info
  | .serve id info => serve s id info
  | .refuse id deletes =>
    (s.tasks.get? id).bind fun task =>
      if task.answer.isSome then none
      else
        some (setAnswer { s with recordings := if deletes then
          task.request.deletes.elim s.recordings s.recordings.erase else s.recordings } id task
            .error)

end Keymasq.Session.Slots
