import Keymasq.Foundation.Json

/-!
# Frames of the daemon connection

A message is a JSON object behind a length of four bytes. The sender packs one,
the receiver takes the messages off the front of its buffer as they complete.
-/

namespace Keymasq.Ipc.Framing
open Foundation.Json

inductive CommandType
  | hardwareInventory
  | maskHardware
  | keepHardwareMask
  | restoreHardware
  | resumeHardware
  | setHardwareMaskPersistence
  | grabDevice
  | releaseDevice
  | setMapping
  | setCombos
  | setRolloverGroups
  | unusedExecRefs
  | listDevices
  | deviceRuntimeStatus
  | ping
  | deviceEvent
  | actionTrigger
  | trackProfileActivation
  | cancelProfileActivation
  | profileDeactivateRequested
  | deviceConnected
  | deviceDisconnected
  | deviceGrabStatus
  | getActiveProfiles
  | profileChanged
  | profilesChanged
  | getCompositor
  | keymasqdStatus
  | startRecording
  | stopRecording
  | recordingStarted
  | recordingStopped
  | recordingProgress
  | macroPlaybackFinished
  | macroPlaybackCancelled
  | runtimeReset
  | playMacro
  | macroListMeta
  | macroGet
  | macroCreate
  | macroUpdate
  | macroRename
  | macroDelete
  | macroSaveRecording
  | macroListRecordings
  | macroDeleteRecording
  | macroPlayRecording
  | macroPlayByName
  | cancelMacroPlayback
  | emergencyReset
  | macroExecComplete
  | cursorPositionRequest
  | cursorPositionResponse
  | cursorPositionTrackingStop
  | captureBegin
  | captureRead
  | captureEnd
  | captureCombo
  | setDiagnostics
  | setVirtualGamepads
  | diagnosticsSnapshot
  | deviceInspectorStart
  | deviceInspectorStop
  | deviceInspectorEnableSuppression
  | deviceInspectorDisableSuppression
  | deviceInspectorEvent
  | deviceInspectorStatus
deriving DecidableEq

namespace CommandType

def value : CommandType → String
  | .hardwareInventory => "hardware_inventory"
  | .maskHardware => "mask_hardware"
  | .keepHardwareMask => "keep_hardware_mask"
  | .restoreHardware => "restore_hardware"
  | .resumeHardware => "resume_hardware"
  | .setHardwareMaskPersistence => "set_hardware_mask_persistence"
  | .grabDevice => "grab_device"
  | .releaseDevice => "release_device"
  | .setMapping => "set_mapping"
  | .setCombos => "set_combos"
  | .setRolloverGroups => "set_rollover_groups"
  | .unusedExecRefs => "unused_exec_refs"
  | .listDevices => "list_devices"
  | .deviceRuntimeStatus => "device_runtime_status"
  | .ping => "ping"
  | .deviceEvent => "device_event"
  | .actionTrigger => "action_trigger"
  | .trackProfileActivation => "track_profile_activation"
  | .cancelProfileActivation => "cancel_profile_activation"
  | .profileDeactivateRequested => "profile_deactivate_requested"
  | .deviceConnected => "device_connected"
  | .deviceDisconnected => "device_disconnected"
  | .deviceGrabStatus => "device_grab_status"
  | .getActiveProfiles => "get_active_profiles"
  | .profileChanged => "profile_changed"
  | .profilesChanged => "profiles_changed"
  | .getCompositor => "get_compositor"
  | .keymasqdStatus => "keymasqd_status"
  | .startRecording => "start_recording"
  | .stopRecording => "stop_recording"
  | .recordingStarted => "recording_started"
  | .recordingStopped => "recording_stopped"
  | .recordingProgress => "recording_progress"
  | .macroPlaybackFinished => "macro_playback_finished"
  | .macroPlaybackCancelled => "macro_playback_cancelled"
  | .runtimeReset => "runtime_reset"
  | .playMacro => "play_macro"
  | .macroListMeta => "macro_list_meta"
  | .macroGet => "macro_get"
  | .macroCreate => "macro_create"
  | .macroUpdate => "macro_update"
  | .macroRename => "macro_rename"
  | .macroDelete => "macro_delete"
  | .macroSaveRecording => "macro_save_recording"
  | .macroListRecordings => "macro_list_recordings"
  | .macroDeleteRecording => "macro_delete_recording"
  | .macroPlayRecording => "macro_play_recording"
  | .macroPlayByName => "macro_play_by_name"
  | .cancelMacroPlayback => "cancel_macro_playback"
  | .emergencyReset => "emergency_reset"
  | .macroExecComplete => "macro_exec_complete"
  | .cursorPositionRequest => "cursor_position_request"
  | .cursorPositionResponse => "cursor_position_response"
  | .cursorPositionTrackingStop => "cursor_position_tracking_stop"
  | .captureBegin => "capture_begin"
  | .captureRead => "capture_read"
  | .captureEnd => "capture_end"
  | .captureCombo => "capture_combo"
  | .setDiagnostics => "set_diagnostics"
  | .setVirtualGamepads => "set_virtual_gamepads"
  | .diagnosticsSnapshot => "diagnostics_snapshot"
  | .deviceInspectorStart => "device_inspector_start"
  | .deviceInspectorStop => "device_inspector_stop"
  | .deviceInspectorEnableSuppression => "device_inspector_enable_suppression"
  | .deviceInspectorDisableSuppression => "device_inspector_disable_suppression"
  | .deviceInspectorEvent => "device_inspector_event"
  | .deviceInspectorStatus => "device_inspector_status"

def all : List CommandType :=
  [.hardwareInventory, .maskHardware, .keepHardwareMask, .restoreHardware, .resumeHardware,
    .setHardwareMaskPersistence, .grabDevice, .releaseDevice, .setMapping, .setCombos,
    .setRolloverGroups, .unusedExecRefs, .listDevices, .deviceRuntimeStatus, .ping, .deviceEvent,
    .actionTrigger, .trackProfileActivation, .cancelProfileActivation,
    .profileDeactivateRequested, .deviceConnected, .deviceDisconnected, .deviceGrabStatus,
    .getActiveProfiles, .profileChanged, .profilesChanged, .getCompositor, .keymasqdStatus,
    .startRecording, .stopRecording, .recordingStarted, .recordingStopped, .recordingProgress,
    .macroPlaybackFinished, .macroPlaybackCancelled, .runtimeReset, .playMacro, .macroListMeta,
    .macroGet, .macroCreate, .macroUpdate, .macroRename, .macroDelete, .macroSaveRecording,
    .macroListRecordings, .macroDeleteRecording, .macroPlayRecording, .macroPlayByName,
    .cancelMacroPlayback, .emergencyReset, .macroExecComplete, .cursorPositionRequest,
    .cursorPositionResponse, .cursorPositionTrackingStop, .captureBegin, .captureRead,
    .captureEnd, .captureCombo, .setDiagnostics, .setVirtualGamepads, .diagnosticsSnapshot,
    .deviceInspectorStart, .deviceInspectorStop, .deviceInspectorEnableSuppression,
    .deviceInspectorDisableSuppression, .deviceInspectorEvent, .deviceInspectorStatus]

/- `CommandType(value)`, `none` where it raises a `ValueError`. -/
def ofValue : Value → Option CommandType
  | .str text => all.find? fun command => command.value = text
  | _ => none

theorem mem_all (command : CommandType) : command ∈ all := by
  cases command <;> exact List.elem_iff.mp rfl

theorem ofValue_value (command : CommandType) : ofValue (.str command.value) = some command := by
  have hall : ∀ c ∈ all, ofValue (.str c.value) = some c := by decide
  exact hall command (mem_all command)

end CommandType

structure Command where
  command : CommandType
  data : Value
  requestId : Value

structure Response where
  status : Value
  data : Value
  error : Value
  requestId : Value

/-- What becomes of the text of a frame: `json.loads` may also raise something else than the
errors of a malformed text, such as a `RecursionError`. -/
inductive Loaded
  | value (v : Value)
  | malformed
  | raises

/-- `json.dumps(..).encode("utf-8")` and `json.loads(data.decode("utf-8"))`. -/
structure JsonCodec where
  dumps : Value → List UInt8
  loads : List UInt8 → Loaded

def headerSize : ℕ := 4

def maxPayloadSize : ℕ := 16 * 1024 * 1024

/- `struct.pack("!I", n)`, `none` where it raises. -/
def packHeader (n : ℕ) : Option (List UInt8) :=
  if n < 2 ^ 32 then
    some [UInt8.ofNat (n / 2 ^ 24), UInt8.ofNat (n / 2 ^ 16), UInt8.ofNat (n / 2 ^ 8),
      UInt8.ofNat n]
  else none

/- `struct.unpack("!I", data[:HEADER_SIZE])`. -/
def unpackHeader (data : List UInt8) : ℕ :=
  (data.take headerSize).foldl (fun n byte => n * 256 + byte.toNat) 0

def encodeFrame (json : JsonCodec) (payload : Value) : Option (List UInt8) :=
  let jsonBytes := json.dumps payload
  (packHeader jsonBytes.length).map (· ++ jsonBytes)

/-- The result of decoding the front of a buffer. -/
inductive Decoded (α : Type)
  | nothing
  | message (m : α)
  | raises

/- `_decode_frame_payload`: what is decoded and what remains of the buffer. -/
def decodeFramePayload (json : JsonCodec) (data : List UInt8) :
    Decoded (List (String × Value)) × List UInt8 :=
  if data.length < headerSize then (.nothing, data)
  else
    let payloadLen := unpackHeader data
    let totalLen := headerSize + payloadLen
    if payloadLen > maxPayloadSize then
      (.nothing, if data.length ≥ totalLen then data.drop totalLen else [])
    else if data.length < totalLen then (.nothing, data)
    else
      let jsonBytes := (data.take totalLen).drop headerSize
      let remaining := data.drop totalLen
      match json.loads jsonBytes with
      | .value (.obj payload) => (.message payload, remaining)
      | .value _ => (.nothing, remaining)
      | .malformed => (.nothing, remaining)
      | .raises => (.raises, remaining)

def Command.payload (cmd : Command) : Value :=
  .obj [("command", .str cmd.command.value), ("data", cmd.data), ("request_id", cmd.requestId)]

def encodeCommand (json : JsonCodec) (cmd : Command) : Option (List UInt8) :=
  encodeFrame json cmd.payload

/- `none` for a `KeyError` or a `ValueError`. -/
def commandOfPayload (payload : List (String × Value)) : Option Command :=
  ((payload.lookup "command").bind CommandType.ofValue).map fun command =>
    ⟨command, (payload.lookup "data").getD (.obj []), (payload.lookup "request_id").getD .null⟩

def Response.payload (resp : Response) : Value :=
  .obj [("status", resp.status), ("data", resp.data), ("error", resp.error),
    ("request_id", resp.requestId)]

def encodeResponse (json : JsonCodec) (resp : Response) : Option (List UInt8) :=
  encodeFrame json resp.payload

def responseOfPayload (payload : List (String × Value)) : Option Response :=
  (payload.lookup "status").map fun status =>
    ⟨status, (payload.lookup "data").getD .null, (payload.lookup "error").getD .null,
      (payload.lookup "request_id").getD .null⟩

/- The payload of the frame is read as a message, or the frame is dropped. -/
def Decoded.read {α β : Type} (f : α → Option β) : Decoded α → Decoded β
  | .nothing => .nothing
  | .message payload =>
    match f payload with
    | some m => .message m
    | none => .nothing
  | .raises => .raises

def decodeCommand (json : JsonCodec) (data : List UInt8) : Decoded Command × List UInt8 :=
  let (payload, remaining) := decodeFramePayload json data
  (payload.read commandOfPayload, remaining)

def decodeResponse (json : JsonCodec) (data : List UInt8) : Decoded Response × List UInt8 :=
  let (payload, remaining) := decodeFramePayload json data
  (payload.read responseOfPayload, remaining)

/-! ## The receive loop -/

/-- The client's side of the connection. `position` is where the buffer starts in the stream
and `starts` are the positions at which it has looked for a frame. -/
structure Listener where
  buffer : List UInt8 := []
  handled : List Response := []
  ended : Bool := false
  position : ℕ := 0
  starts : List ℕ := []

namespace Listener

/- The listener has looked for a frame where its buffer starts. -/
def look (l : Listener) : Listener :=
  if l.buffer = [] then l else { l with starts := l.starts ++ [l.position] }

def take (l : Listener) (remaining : List UInt8) : Listener :=
  { l with
    buffer := remaining
    position := l.position + (l.buffer.length - remaining.length) }

def handleResponse (l : Listener) (response : Response) : Listener :=
  { l with handled := l.handled ++ [response] }

end Listener

/- A frame that is taken shortens the buffer, and only then is something decoded. -/
theorem decodeFramePayload_remaining (json : JsonCodec) (data : List UInt8) :
    (decodeFramePayload json data = (.nothing, data)) ∨
      (decodeFramePayload json data).2.length < data.length := by
  by_cases hshort : data.length < headerSize
  · exact Or.inl (by simp only [decodeFramePayload, if_pos hshort])
  have hdrop : ∀ n, (data.drop (headerSize + n)).length < data.length := by
    intro n
    rw [List.length_drop]
    simp only [headerSize] at hshort ⊢
    omega
  simp only [decodeFramePayload, if_neg hshort]
  split
  · right
    dsimp only
    split
    · exact hdrop _
    · simp only [List.length_nil, headerSize] at hshort ⊢
      omega
  split
  · exact Or.inl rfl
  · right
    split <;> exact hdrop _

theorem decodeResponse_remaining (json : JsonCodec) (data : List UInt8) :
    (decodeResponse json data = (.nothing, data)) ∨
      (decodeResponse json data).2.length < data.length := by
  rcases decodeFramePayload_remaining json data with heq | hlt
  · left
    simp only [decodeResponse, heq, Decoded.read]
  · exact Or.inr hlt

/- The inner loop of `_listen_loop`. -/
def drain (json : JsonCodec) (l : Listener) : Listener :=
  match _h : decodeResponse json l.buffer with
  | (.raises, _) => { l.look with ended := true }
  | (.message response, remaining) =>
    drain json ((l.look.take remaining).handleResponse response)
  | (.nothing, remaining) =>
    if remaining ≠ l.buffer then drain json (l.look.take remaining) else l.look
termination_by l.buffer.length
decreasing_by
  · rcases decodeResponse_remaining json l.buffer with heq | hlt
    · rw [heq] at _h
      cases _h
    · rwa [_h] at hlt
  · rename_i hne
    rcases decodeResponse_remaining json l.buffer with heq | hlt
    · rw [heq] at _h
      cases _h
      exact absurd rfl hne
    · rwa [_h] at hlt

/- One read of the outer loop. -/
def receive (json : JsonCodec) (l : Listener) (data : List UInt8) : Listener :=
  if l.ended then l else drain json { l with buffer := l.buffer ++ data }

def listen (json : JsonCodec) (reads : List (List UInt8)) : Listener :=
  reads.foldl (receive json) {}

end Keymasq.Ipc.Framing
