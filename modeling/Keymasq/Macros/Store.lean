import Keymasq.Foundation.Dict
import Keymasq.Foundation.Json
import Keymasq.Foundation.Transition

/-!
# The macro store

Each macro is one file. Updates, renames and deletions run one at a time inside
the mutation guard, a step for each access to the files; creations and reads do
not enter it and may come between any two of these steps.
-/

namespace Keymasq.Macros.Store
open Foundation Foundation.Json

abbrev MacroPayload := Dict String Value

def internalMacroPrefix : String := "__"

/- `name.startswith(INTERNAL_MACRO_PREFIX)`. -/
def isInternalName (name : String) : Bool := internalMacroPrefix.toList.isPrefixOf name.toList

def keptInName (c : Char) : Bool :=
  c.toNat < 128 && (c.isAlphanum || c == '_' || c == '.' || c == '-')

def sanitizeName (name : String) : String :=
  String.ofList (Strings.stripList (fun c => c == '.' || c == '_')
    (name.toList.map fun c => if keptInName c then c else '_'))

/- `macro_payload_int`. -/
def macroPayloadInt (payload : MacroPayload) (key : String) (default : ℤ) : ℤ :=
  match payload.get? key with
  | none => default
  | some value => value.toInt.getD default

def macroPayloadStr (payload : MacroPayload) (key : String) (default : String) : String :=
  match payload.get? key with
  | some (.str s) => s
  | _ => default

/- `_payload_events`. -/
def payloadEvents (payload : MacroPayload) : List Value :=
  (((payload.get? "events").map Value.items).getD []).filter Value.isObj

/-- A stored macro. The stamp only tells the versions apart that were ever written. -/
structure MacroFile where
  stamp : ℕ
  revision : ℤ
  payload : MacroPayload

inductive Change
  | update (payload : MacroPayload)
  | rename (newName : String)
  | delete

/-- A change with `expected_revision`. `seen` is the stamp of the version the client has read
when it sends the change. -/
structure Request where
  client : ℕ
  name : String
  change : Change
  expectedRevision : Option ℤ
  seen : ℕ

namespace Request

def path (request : Request) : String := sanitizeName request.name

/- The name a rename gives to the macro. -/
def newPath (request : Request) : String :=
  match request.change with
  | .rename newName => sanitizeName newName
  | _ => request.path

end Request

/-- How far the request inside the mutation guard is; the last two only occur in a rename, when
the new name was found free and when the macro was written under it. -/
inductive Phase
  | entered
  | loaded (current : MacroFile)
  | checked (current : MacroFile)
  | written (current : MacroFile) (stamp : ℕ)

structure Pending where
  request : Request
  phase : Phase

/-- A client has read the version with this stamp and revision under this name. -/
structure Reading where
  client : ℕ
  path : String
  revision : ℤ
  stamp : ℕ
deriving DecidableEq

structure State where
  internal : List String := []
  files : Dict String MacroFile := ∅
  guard : Option Pending := none
  issued : ℕ := 0
  readings : List Reading := []

inductive Op
  | create (payload : MacroPayload)
  | get (client : ℕ) (name : String)
  | enter (request : Request)
  | load
  | apply
  | link
  | validate (valid : Bool)
  | fail

namespace State

def put (s : State) (path : String) (revision : ℤ) (payload : MacroPayload) : State :=
  { s with
    files := s.files.insert path ⟨s.issued, revision, payload⟩
    issued := s.issued + 1 }

def unlink (s : State) (path : String) : State := { s with files := s.files.erase path }

def release (s : State) : State := { s with guard := none }

def advance (s : State) (request : Request) (phase : Phase) : State :=
  { s with guard := some ⟨request, phase⟩ }

end State

/- `_create_from_events`: the name must be free when the file is linked. -/
def createFromEvents (s : State) (payload : MacroPayload) : State :=
  let rawName := macroPayloadStr payload "name" ""
  let name := sanitizeName rawName
  if isInternalName rawName || name = "" then s
  else if (s.files.get? name).isSome then s
  else s.put name (macroPayloadInt payload "revision" 1) (payload.insert "name" (.str name))

def get (s : State) (client : ℕ) (name : String) : State :=
  if name ∈ s.internal then s
  else
    match s.files.get? (sanitizeName name) with
    | none => s
    | some file =>
      { s with
        readings := ⟨client, sanitizeName name, file.revision, file.stamp⟩ :: s.readings }

/- The checks before the mutation guard. -/
def acceptsRequest (s : State) (request : Request) : Bool :=
  request.name ∉ s.internal && request.path ≠ "" &&
    match request.change with
    | .rename newName => !isInternalName newName && request.newPath ≠ ""
    | _ => true

/- `_raise_revision_conflict`. -/
def revisionConflict (expectedRevision : Option ℤ) (currentRevision : ℤ) : Bool :=
  match expectedRevision with
  | none => false
  | some expected => expected ≠ currentRevision

/- What `update` writes besides the revision. -/
def updatedPayload (current payload : MacroPayload) : MacroPayload :=
  let kept := payload.filter fun key _ => key ∉ ["name", "created_at", "revision"]
  let data := current.update kept
  let data := data.insert "event_count" (.int (payloadEvents data).length)
  if payload.contains "events" then
    let data := if payload.contains "duration_us" then data else data.erase "duration_us"
    let data := if payload.contains "device_types" then data else data.erase "device_types"
    if ((payload.get? "type_binding").map Value.isTrue).getD false &&
        payload.contains "type_text" then data
    else
      (["type_text", "type_down_ms", "type_pause_ms", "type_use_unicode_input",
        "type_layout"].foldl Dict.erase data).insert "type_binding" (.bool false)
  else data

def renamedPayload (current : MacroPayload) (newPath : String) : MacroPayload :=
  (current.insert "name" (.str newPath)).insert "event_count"
    (.int (payloadEvents current).length)

/- The current macro is loaded and its revision compared. -/
def load (s : State) (request : Request) : State :=
  match s.files.get? request.path with
  | none => s.release
  | some current =>
    if revisionConflict request.expectedRevision current.revision then s.release
    else s.advance request (.loaded current)

/- An update replaces the file and a deletion unlinks it; a rename checks the new name. -/
def apply (s : State) (request : Request) (current : MacroFile) : State :=
  match request.change with
  | .update payload =>
    (s.put request.path (current.revision + 1) (updatedPayload current.payload payload)).release
  | .delete => (s.unlink request.path).release
  | .rename _ =>
    if (s.files.get? request.newPath).isSome then s.release
    else s.advance request (.checked current)

/- A rename writes the macro under its new name, unless that was taken meanwhile. -/
def link (s : State) (request : Request) (current : MacroFile) : State :=
  if (s.files.get? request.newPath).isSome then s.release
  else
    (s.put request.newPath (current.revision + 1)
      (renamedPayload current.payload request.newPath)).advance request
        (.written current s.issued)

/- A rename reads the new file back and removes the old one, or the new one where the two do
not agree. -/
def validate (s : State) (request : Request) (valid : Bool) : State :=
  if valid then (s.unlink request.path).release else (s.unlink request.newPath).release

/- An exception inside the guard. A rename that was writing its new file unlinks it. -/
def fail (s : State) (pending : Pending) : State :=
  match pending.phase with
  | .checked _ => (s.unlink pending.request.newPath).release
  | .written _ _ => (s.unlink pending.request.newPath).release
  | _ => s.release

/-- A client that sends an expected revision has read it under that name. -/
def Informed (s : State) (request : Request) : Prop :=
  ∀ r, request.expectedRevision = some r →
    ⟨request.client, request.path, r, request.seen⟩ ∈ s.readings

instance (s : State) (request : Request) : Decidable (Informed s request) :=
  match h : request.expectedRevision with
  | none => isTrue fun r hr => by rw [h] at hr; cases hr
  | some r =>
    if hm : ⟨request.client, request.path, r, request.seen⟩ ∈ s.readings then
      isTrue fun r' hr' => by
        rw [h] at hr'
        cases hr'
        exact hm
    else isFalse fun hall => hm (hall r h)

def step (s : State) : Op → Option State
  | .create payload => some (createFromEvents s payload)
  | .get client name => some (get s client name)
  | .enter request =>
    if s.guard.isNone ∧ Informed s request then
      if acceptsRequest s request then some (s.advance request .entered) else some s
    else none
  | .load =>
    match s.guard with
    | some ⟨request, .entered⟩ => some (load s request)
    | _ => none
  | .apply =>
    match s.guard with
    | some ⟨request, .loaded current⟩ => some (apply s request current)
    | _ => none
  | .link =>
    match s.guard with
    | some ⟨request, .checked current⟩ => some (link s request current)
    | _ => none
  | .validate valid =>
    match s.guard with
    | some ⟨request, .written _ _⟩ => some (validate s request valid)
    | _ => none
  | .fail =>
    match s.guard with
    | some pending => some (fail s pending)
    | none => none

end Keymasq.Macros.Store
