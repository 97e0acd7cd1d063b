import Keymasq.Foundation.Dict
import Keymasq.Foundation.Sorting

/-!
# A grabbed device with mappings

A key event is refused while input is paused or its key is quarantined, is
passed through at once where no mapping is active, and runs its mapped action
otherwise. The action found at the press is kept until the release. The held
keys are compared with the key state of the kernel on request.
-/

namespace Keymasq.Device.Mapped
open Foundation Foundation.Sorting

/-- The tables of one device over the key codes `K`; a default route passes keys to a virtual
gamepad, which has some buttons only. -/
structure SourceKeys (K : Type*) where
  eventName : K → String
  codeOf : String → Option K
  defaultRoute : Option (K → Bool)
  eventBindingToButton : K → ℤ → Option String
  eventCodeToButton : K → Option String
  evdevToButton : String → Option String
  codeOf_eventName : ∀ code, codeOf (eventName code) = some code

/-- What an action writes: at an event, and when a held key is found at a reconcile. -/
structure ActionEffects (K A O : Type*) where
  passthrough : K → Option O
  execute : A → K → ℤ → List (O × ℤ)
  reconcile : A → List (O × ℤ)

/-- The state of the device; the held source keys are a set in the order of their presses. -/
structure GrabbedDevice (A O : Type*) where
  mapping : Dict String A := ∅
  heldSourceKeys : List String := []
  heldSourceActions : Dict String (Option A) := ∅
  quarantinedSourceKeys : Finset String := ∅
  written : List (O × ℤ) := []

variable {K A O : Type*} (keys : SourceKeys K) (effects : ActionEffects K A O)

/-! ## Dispatch -/

def findActionForCode (mapping : Dict String A) (code : K) (value : ℤ) : Option A :=
  ((keys.eventBindingToButton code value).bind mapping.get?).or
    (((keys.eventCodeToButton code).bind mapping.get?).or
      ((keys.evdevToButton (keys.eventName code)).bind mapping.get?))

def write (d : GrabbedDevice A O) (events : List (O × ℤ)) : GrabbedDevice A O :=
  { d with written := d.written ++ events }

/-- A press that goes to a default route is remembered as held. -/
def emitPassthroughEvent (d : GrabbedDevice A O) (code : K) (value : ℤ) : GrabbedDevice A O :=
  let d :=
    if keys.defaultRoute.isSome ∧ value = 1 ∧
        d.heldSourceActions.contains (keys.eventName code) = false then
      { d with heldSourceActions := d.heldSourceActions.insert (keys.eventName code) none }
    else d
  match effects.passthrough code with
  | none => d
  | some output => write d [(output, value)]

def observeSourceKeyTransition (d : GrabbedDevice A O) (name : String) (value : ℤ) :
    GrabbedDevice A O :=
  if value = 1 then
    if name ∈ d.heldSourceKeys then d
    else { d with heldSourceKeys := d.heldSourceKeys ++ [name] }
  else if value = 0 then { d with heldSourceKeys := d.heldSourceKeys.filter (· ≠ name) }
  else d

/- The action of an event: a press keeps the one it finds, repeats and the release use it. -/
def sourceAction (d : GrabbedDevice A O) (code : K) (value : ℤ) : Option A :=
  let found := findActionForCode keys d.mapping code value
  if value = 0 ∨ value = 2 then (d.heldSourceActions.get? (keys.eventName code)).getD found
  else found

def holdSourceAction (d : GrabbedDevice A O) (code : K) (value : ℤ) : GrabbedDevice A O :=
  if value = 1 ∧ d.heldSourceActions.contains (keys.eventName code) = false then
    { d with
      heldSourceActions := d.heldSourceActions.insert (keys.eventName code)
        (findActionForCode keys d.mapping code value) }
  else d

def executeOrPassthrough (d : GrabbedDevice A O) (action : Option A) (code : K) (value : ℤ) :
    GrabbedDevice A O :=
  match action with
  | some action => write d (effects.execute action code value)
  | none => emitPassthroughEvent keys effects d code value

def applyMappedActionOrPassthrough (d : GrabbedDevice A O) (code : K) (value : ℤ) :
    GrabbedDevice A O :=
  let action := sourceAction keys d code value
  let d := executeOrPassthrough keys effects (holdSourceAction keys d code value) action code value
  if value = 0 then
    { d with heldSourceActions := d.heldSourceActions.erase (keys.eventName code) }
  else d

/-- The fast path is taken without a mapping, a recording and an action held by the key. -/
def dispatchKey (d : GrabbedDevice A O) (recordingActive : Bool) (code : K) (value : ℤ) :
    GrabbedDevice A O :=
  if d.mapping.entries = [] ∧ recordingActive = false ∧
      d.heldSourceActions.contains (keys.eventName code) = false then
    emitPassthroughEvent keys effects d code value
  else applyMappedActionOrPassthrough keys effects d code value

/-! ## Refused events -/

/-- The device, and whether it has refused the event. -/
def interceptPausedOrQuarantinedInput (d : GrabbedDevice A O) (paused : Bool) (name : String)
    (value : ℤ) : GrabbedDevice A O × Bool :=
  if paused then
    if value = 1 ∨ value = 2 then
      ({ d with quarantinedSourceKeys := insert name d.quarantinedSourceKeys }, true)
    else ({ d with quarantinedSourceKeys := d.quarantinedSourceKeys.erase name }, true)
  else if name ∉ d.quarantinedSourceKeys then (d, false)
  else if value = 1 then
    ({ d with quarantinedSourceKeys := d.quarantinedSourceKeys.erase name }, false)
  else if value = 0 then
    ({ d with quarantinedSourceKeys := d.quarantinedSourceKeys.erase name }, true)
  else (d, true)

/-- `_process_event` for one key event. -/
def processKeyEvent (d : GrabbedDevice A O) (paused recordingActive : Bool) (code : K)
    (value : ℤ) : GrabbedDevice A O :=
  let name := keys.eventName code
  let (d, refused) := interceptPausedOrQuarantinedInput d paused name value
  if refused then d
  else dispatchKey keys effects (observeSourceKeyTransition d name value) recordingActive code value

/-! ## Comparing with the kernel -/

def seedStartupHeldAction (d : GrabbedDevice A O) (code : K) : GrabbedDevice A O :=
  let name := keys.eventName code
  if d.heldSourceActions.contains name then d
  else
    let action := findActionForCode keys d.mapping code 1
    let d := { d with
      heldSourceKeys := if name ∈ d.heldSourceKeys then d.heldSourceKeys
        else d.heldSourceKeys ++ [name]
      heldSourceActions := d.heldSourceActions.insert name action }
    match action with
    | none => d
    | some action => write d (effects.reconcile action)

def seedStartupHeldActions (d : GrabbedDevice A O) (activeCodes : List K) : GrabbedDevice A O :=
  activeCodes.foldl (seedStartupHeldAction keys effects) d

/-- The codes the device holds. -/
def heldCodes (d : GrabbedDevice A O) : List K :=
  (d.heldSourceKeys ++ d.heldSourceActions.keys).filterMap keys.codeOf

variable [LinearOrder K]

instance lawfulBEqKeyCode : LawfulBEq K := inferInstance

/- One buffered event; the first set is what the history leads to, the second what is followed. -/
def projectEvent (state : List K × List K) (event : K × ℤ) : List K × List K :=
  (if event.2 = 0 then state.1.filter (· ≠ event.1)
    else if event.1 ∈ state.1 then state.1 else state.1 ++ [event.1],
    if event.1 ∈ state.2 then state.2 else state.2 ++ [event.1])

def projected (d : GrabbedDevice A O) (buffer : List (K × ℤ)) : List K × List K :=
  let held := (heldCodes keys d).dedup
  buffer.foldl projectEvent (held, held)

/-- The events that lead the buffered history to the queried key state. -/
def repairs (d : GrabbedDevice A O) (buffer : List (K × ℤ)) (active : List K) : List (K × ℤ) :=
  let held := projected keys d buffer
  (sortedOn id (held.1.filter (· ∉ active))).map (·, 0) ++
    (sortedOn id (active.filter fun code => code ∉ held.1 ∧ code ∈ held.2)).map (·, 1)

/-- The second half of `reconcile_live_key_state`, once the key state is known. -/
def reconcileKeyState (d : GrabbedDevice A O) (buffer : List (K × ℤ)) (active : List K) :
    GrabbedDevice A O × List (K × ℤ) :=
  let known := (projected keys d buffer).2
  (seedStartupHeldActions keys effects d (sortedOn id (active.filter (· ∉ known))),
    buffer ++ repairs keys d buffer active)

end Keymasq.Device.Mapped
