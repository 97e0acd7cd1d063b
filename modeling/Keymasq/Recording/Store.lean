import Keymasq.Foundation.Dict
import Keymasq.Foundation.Transition

/-!
# Pending recordings

A finished recording waits in a table until a client has claimed and saved it.
A recording made into a slot also has its events in a file of its own, and one
metadata file per slot names the recording the slot holds. The files are
written in a thread while other requests are handled.
-/

namespace Keymasq.Recording.Store
open Foundation

def maxMacroRecordingSlots : ℕ := 4

def normalizeMacroRecordingSlot (slot : ℕ) : ℕ :=
  if 1 ≤ slot ∧ slot ≤ maxMacroRecordingSlots then slot else 0

/-- Files of the spool directory. -/
inductive Path
  | spool (name : ℕ)
  | slotEvent (slot : ℕ) (recordingId : String)
  | slotMeta (slot : ℕ)
deriving DecidableEq

inductive File
  | events (recordingId : String)
  | slotMeta (recordingId : String) (recordingSlot : ℕ) (eventFile : Path)

structure RecordingSnapshot where
  recordingId : String
  spoolPath : Option Path
  recordingSlot : ℕ := 0
  cleanupPaths : List Path := []
deriving DecidableEq

/-- Where a stop is: collecting the events, between two file operations of
`_persist_slot_snapshot`, or about to put the recording into the table. -/
inductive Stop
  | finishing (slot : ℕ)
  | persisting (slot : ℕ) (snapshot : RecordingSnapshot)
  | eventsWritten (slot : ℕ) (snapshot : RecordingSnapshot)
  | metaWritten (slot : ℕ) (snapshot : RecordingSnapshot)
  | finished (slot : ℕ) (snapshot : RecordingSnapshot)

/-- `issued` and `cleaned` only remember what happened: the recording ids given out and the
snapshots that were cleaned up. -/
structure Manager where
  pending : Dict String RecordingSnapshot := ∅
  pendingCreatedAt : Dict String ℕ := ∅
  claimed : Dict String RecordingSnapshot := ∅
  claimedCreatedAt : Dict String ℕ := ∅
  discardRequested : Finset String := ∅
  files : Dict Path File := ∅
  stop : Option Stop := none
  issued : Finset String := ∅
  cleaned : List (String × Option Path) := []

namespace Manager

/-- `RecordingSnapshot.cleanup`. -/
def cleanup (m : Manager) (snapshot : RecordingSnapshot) : Manager :=
  { m with
    files := (snapshot.spoolPath.toList ++ snapshot.cleanupPaths).foldl Dict.erase m.files
    cleaned := m.cleaned ++ [(snapshot.recordingId, snapshot.spoolPath)] }

def dropPending (m : Manager) (recordingId : String) : Manager :=
  { m with
    pending := m.pending.erase recordingId
    pendingCreatedAt := m.pendingCreatedAt.erase recordingId }

def dropClaimed (m : Manager) (recordingId : String) : Manager :=
  { m with
    claimed := m.claimed.erase recordingId
    claimedCreatedAt := m.claimedCreatedAt.erase recordingId
    discardRequested := m.discardRequested.erase recordingId }

/- A recording leaves the table of pending ones and is cleaned up. -/
def removePending (m : Manager) (recordingId : String) : Manager :=
  match m.pending.get? recordingId with
  | none => m.dropPending recordingId
  | some snapshot => (m.dropPending recordingId).cleanup snapshot

/- The slot of a new recording no longer belongs to an older one that is pending. Its metadata
file stays, since it is the new one already. -/
def replacePending (slot : ℕ) (m : Manager) (recordingId : String) : Manager :=
  match m.pending.get? recordingId with
  | none => m
  | some snapshot =>
    if normalizeMacroRecordingSlot snapshot.recordingSlot = slot then
      (m.dropPending recordingId).cleanup { snapshot with cleanupPaths := [] }
    else m

/- An older recording that is claimed is discarded when its claim is released. -/
def replaceClaimed (slot : ℕ) (m : Manager) (recordingId : String) : Manager :=
  match m.claimed.get? recordingId with
  | none => m
  | some snapshot =>
    if normalizeMacroRecordingSlot snapshot.recordingSlot = slot then
      { m with
        claimed := m.claimed.insert recordingId { snapshot with cleanupPaths := [] }
        discardRequested := insert recordingId m.discardRequested }
    else m

/-- `_discard_existing_slot_recordings_locked` and the cleanup that follows. -/
def discardExistingSlotRecordings (m : Manager) (slot : ℕ) (keepRecordingId : String) : Manager :=
  let normalized := normalizeMacroRecordingSlot slot
  if normalized = 0 then m
  else
    let m := (m.pending.keys.filter (· ≠ keepRecordingId)).foldl (replacePending normalized) m
    (m.claimed.keys.filter (· ≠ keepRecordingId)).foldl (replaceClaimed normalized) m

def storePending (m : Manager) (snapshot : RecordingSnapshot) (now : ℕ) : Manager :=
  { m with
    pending := m.pending.insert snapshot.recordingId snapshot
    pendingCreatedAt := m.pendingCreatedAt.insert snapshot.recordingId now }

/-- The end of `_stop_locked`. -/
def store (m : Manager) (slot : ℕ) (snapshot : RecordingSnapshot) (now : ℕ) : Manager :=
  let m := if slot = 0 then m else m.discardExistingSlotRecordings slot snapshot.recordingId
  { m.storePending snapshot now with stop := none }

def claimPendingRecording (m : Manager) (recordingId : String) (now : ℕ) : Manager :=
  match m.pending.get? recordingId with
  | none => m.dropPending recordingId
  | some snapshot =>
    { m.dropPending recordingId with
      claimed := m.claimed.insert recordingId snapshot
      claimedCreatedAt := m.claimedCreatedAt.insert recordingId now
      discardRequested := m.discardRequested.erase recordingId }

def releasePendingRecordingClaim (m : Manager) (recordingId : String) (saved : Bool)
    (now : ℕ) : Manager :=
  match m.claimed.get? recordingId with
  | none => m.dropClaimed recordingId
  | some snapshot =>
    if saved ∨ recordingId ∈ m.discardRequested then (m.dropClaimed recordingId).cleanup snapshot
    else
      { m.dropClaimed recordingId with
        pending := m.pending.insert recordingId snapshot
        pendingCreatedAt :=
          m.pendingCreatedAt.insert recordingId (m.claimedCreatedAt.getD recordingId now) }

def discardPendingRecording (m : Manager) (recordingId : String) : Manager :=
  let claimed := !m.pending.contains recordingId && m.claimed.contains recordingId
  let m := m.removePending recordingId
  if claimed then { m with discardRequested := insert recordingId m.discardRequested } else m

def unslotted (snapshot : RecordingSnapshot) : Bool :=
  normalizeMacroRecordingSlot snapshot.recordingSlot = 0

/- Recordings in slots survive. -/
def discardAllPendingRecordings (m : Manager) : Manager :=
  let ids := (m.pending.filter fun _ snapshot => unslotted snapshot).keys
  let m := ids.foldl removePending m
  { m with discardRequested :=
      m.discardRequested ∪ (m.claimed.filter fun _ snapshot => unslotted snapshot).keys.toFinset }

/- Recordings in slots do not expire. -/
def expirePending (m : Manager) (recordingId : String) : Manager :=
  match m.pending.get? recordingId with
  | none => m.dropPending recordingId
  | some snapshot =>
    if unslotted snapshot then m.removePending recordingId
    else { m with pending := (m.pending.erase recordingId).insert recordingId snapshot }

/- Unless their discard was requested while they were claimed. -/
def expireClaimed (m : Manager) (recordingId : String) : Manager :=
  match m.claimed.get? recordingId with
  | none => m.dropClaimed recordingId
  | some snapshot =>
    if unslotted snapshot ∨ recordingId ∈ m.discardRequested then
      (m.dropClaimed recordingId).cleanup snapshot
    else { m with claimed := (m.claimed.erase recordingId).insert recordingId snapshot }

def expired (createdAt : Dict String ℕ) (now ttl : ℕ) : List String :=
  (createdAt.filter fun _ created => created + ttl ≤ now).keys

def discardExpiredPendingRecordings (m : Manager) (now ttl : ℕ) : Manager :=
  (expired m.claimedCreatedAt now ttl).foldl expireClaimed
    ((expired m.pendingCreatedAt now ttl).foldl expirePending m)

/-! ## Stopping a recording -/

def setStop (m : Manager) (stop : Stop) : Manager := { m with stop := some stop }

def write (m : Manager) (path : Path) (file : File) : Manager :=
  { m with files := m.files.insert path file }

/- What `_persist_slot_snapshot` returns. -/
def persisted (slot : ℕ) (snapshot : RecordingSnapshot) : RecordingSnapshot where
  recordingId := snapshot.recordingId
  spoolPath := some (.slotEvent slot snapshot.recordingId)
  recordingSlot := slot
  cleanupPaths := [.slotMeta slot]

/- The spool gives the recording an id that `uuid4` has not returned before. Only what was
written to disk before the stop has a file. -/
def finish (m : Manager) (slot : ℕ) (recordingId : String) (spoolName : Option ℕ) : Manager :=
  let snapshot : RecordingSnapshot := { recordingId, spoolPath := spoolName.map Path.spool }
  let m := { m with issued := insert recordingId m.issued }
  if normalizeMacroRecordingSlot slot = 0 then m.setStop (.finished slot snapshot)
  else m.setStop (.persisting slot snapshot)

/-- One file operation of `_persist_slot_snapshot`; the last one removes the spool file. -/
def persist (m : Manager) : Stop → Option Manager
  | .persisting slot snapshot =>
    some ((m.write (.slotEvent slot snapshot.recordingId) (.events snapshot.recordingId)).setStop
      (.eventsWritten slot snapshot))
  | .eventsWritten slot snapshot =>
    some ((m.write (.slotMeta slot) (.slotMeta snapshot.recordingId slot
      (.slotEvent slot snapshot.recordingId))).setStop (.metaWritten slot snapshot))
  | .metaWritten slot snapshot =>
    some ((m.cleanup snapshot).setStop (.finished slot (persisted slot snapshot)))
  | _ => none

end Manager

/- Every label is one stretch of a request between two awaits, or one file operation of the
thread; the environment decides the times and whether a stop fails. -/
inductive Op
  | stop (slot : ℕ)
  | finish (recordingId : String) (spoolName : Option ℕ)
  | persist
  | fail
  | store (now : ℕ)
  | claim (recordingId : String) (now : ℕ)
  | release (recordingId : String) (saved : Bool) (now : ℕ)
  | discard (recordingId : String)
  | discardAll
  | expire (now ttl : ℕ)

def step (m : Manager) : Op → Option Manager
  | .stop slot =>
    if m.stop = none then some (m.setStop (.finishing (normalizeMacroRecordingSlot slot)))
    else none
  | .finish recordingId spoolName =>
    match m.stop with
    | some (.finishing slot) =>
      if recordingId ∈ m.issued then none else some (m.finish slot recordingId spoolName)
    | _ => none
  | .persist => m.stop.bind m.persist
  | .fail => if m.stop = none then none else some { m with stop := none }
  | .store now =>
    match m.stop with
    | some (.finished slot snapshot) => some (m.store slot snapshot now)
    | _ => none
  | .claim recordingId now => some (m.claimPendingRecording recordingId now)
  | .release recordingId saved now => some (m.releasePendingRecordingClaim recordingId saved now)
  | .discard recordingId => some (m.discardPendingRecording recordingId)
  | .discardAll => some m.discardAllPendingRecordings
  | .expire now ttl => some (m.discardExpiredPendingRecordings now ttl)

end Keymasq.Recording.Store
