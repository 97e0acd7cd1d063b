import Keymasq.Foundation.Transition
import Keymasq.Masking.LizardMode
import Mathlib.Data.Finset.Basic

/-!
# The jobs that take over one attachment

A takeover writes a journal, installs access rules, and rebinds the drivers of the
attachment or disconnects its USB port; a Steam Deck also loses its lizard mode.
Recovery undoes all of it from the journal, or from the record of the armed rules
and the record of the original permissions. A job may end at any of its steps.
-/

namespace Keymasq.Masking.Takeover
open LizardMode (Mode)

/- What the attachment is. `hidListed` says that the inventory lists it by an
interface of the HID class or a HID device, whatever its drivers do;
`interfaces` are those that get a driver when it appears, and `hidInterface` those
whose missing driver the inventory reports as an error. -/
structure Hardware (B : Type) where
  usb : Bool
  isDeck : Bool
  hidListed : Bool
  interfaces : List B
  hidInterface : B → Bool

/-- The journal; `usbPort` is the recorded port and whether it is disabled. -/
structure Journal (B : Type) where
  generation : Option Nat
  bindings : List B
  usbPort : Option Bool := none
  usbReconnect : Bool := false
  mode : Option Mode := none

/- What a job can change or read: the record files, the rule files, the rules
udev has loaded, and the attachment. `generation` counts its connections,
`selector` is the one whose name the saved selector has and `ruleGeneration` the one
whose name the rules of a HID device match, `restricted` says that its nodes have the
access of the rules, and `originalMode` is the lizard mode before any takeover. -/
structure System (B : Type) where
  journal : Option (Journal B) := none
  armedRecord : Bool := false
  permissions : Bool := false
  selector : Option Nat := none
  early : Bool := false
  late : Bool := false
  rulesLoaded : Bool := false
  ruleGeneration : Option Nat := none
  attached : Bool := true
  generation : Nat := 0
  unbound : Finset B := ∅
  restricted : Bool := false
  portDisabled : Bool := false
  mode : Mode := .y
  originalMode : Mode := .y

/- How a recovery goes: `found` is the connection of the attachment it found, and
`journaled` is false where there was nothing to undo but rules. -/
structure Recovery where
  keepRules : Bool
  damaged : Bool := false
  journaled : Bool := true
  found : Option Nat := none
  repairError : Bool := false
  deriving DecidableEq

/- Where a job is. The phases from `capturing` to `reloading` are
`install_rules`, alone or within an activation; those from `recordingPort` to
`awaitingDevice` are `reconnect`; those after `refreshing` are `recover`. -/
inductive Phase (B : Type)
  | capturing (activates : Bool)
  | arming (activates : Bool)
  | writingLate (activates : Bool)
  | writingEarly (activates : Bool)
  | reloading (activates : Bool)
  | snapshotting
  | triggering
  | choosing
  | rebinding (bindings : List B)
  | binding (b : B) (bindings : List B)
  | recordingPort
  | disabling
  | enabling (continues : Bool)
  | enabled (continues : Bool)
  | awaitingDevice
  | readingMode
  | writingMode
  | verifying
  | refreshing
  | recovering (r : Recovery)
  | enablingPort (r : Recovery)
  | portEnabled (r : Recovery)
  | resolving (r : Recovery)
  | repairing (r : Recovery) (bindings : List B)
  | bindingBack (r : Recovery) (b : B) (bindings : List B)
  | restoringMode (r : Recovery)
  | removingEarly (r : Recovery)
  | removingLate (r : Recovery)
  | unloading (r : Recovery)
  | removingRecord (r : Recovery)
  | restoringAccess (r : Recovery)
  | droppingJournal (r : Recovery)
  | droppingPermissions
  deriving DecidableEq

structure State (B : Type) where
  system : System B := {}
  job : Option (Phase B) := none

inductive JobKind
  | arm
  | activate
  | refresh
  | recover (keepRules : Bool)

/- What a step of a job meets: another process holds the device, an operation
whose error the job goes on after fails, the module has no mode parameter yet,
the independent records disagree. -/
structure Meets where
  deviceInUse : Bool := false
  fails : Bool := false
  modeMissing : Bool := false
  damaged : Bool := false

inductive Step
  | begin (kind : JobKind)
  | advance (meets : Meets)
  | fail
  | unplug
  | appear
  | udevReload
  | udevEvent

variable {B : Type} [DecidableEq B] (hardware : Hardware B)

/-! ## The inventory -/

/-- The inventory lists the attachment: by what it is, or by the input it publishes. -/
def listed (s : System B) : Bool :=
  s.attached && (!hardware.usb || hardware.hidListed ||
    hardware.interfaces.any fun b => b ∉ s.unbound)

/-- `inventory.bindings`; none where an interface of the HID has lost its driver. -/
def currentBindings (s : System B) : Option (List B) :=
  if hardware.interfaces.any fun b => hardware.hidInterface b && b ∈ s.unbound then none
  else some (hardware.interfaces.filter fun b => b ∉ s.unbound)

def System.armed (s : System B) : Bool := s.early || s.late || s.armedRecord

/-- The rules match the nodes of the attachment; those of a HID device name its connection. -/
def ruleMatches (s : System B) : Bool := hardware.usb || s.ruleGeneration = some s.generation

/-- A udev event of the attachment under the loaded rules. -/
def udevEvent (s : System B) : System B :=
  if s.attached && s.rulesLoaded && ruleMatches hardware s then { s with restricted := true } else s

/-- The attachment is connected, with drivers for its interfaces. -/
def appear (s : System B) : System B :=
  { s with
    attached := true
    generation := s.generation + 1
    unbound := ∅
    restricted := s.rulesLoaded && hardware.usb }

def disconnect (s : System B) : System B :=
  { s with attached := false, unbound := ∅, restricted := false }

def updateJournal (s : System B) (f : Journal B → Journal B) : System B :=
  { s with journal := s.journal.map f }

/-! ## The steps of a job -/

def goOn (s : System B) (phase : Phase B) : State B := ⟨s, some phase⟩

def finish (s : System B) : State B := ⟨s, none⟩

def installRules (s : System B) (activates : Bool) : State B := goOn s (.capturing activates)

/-- Rebind the next interface of an activation, or go on to its mode. -/
def afterRebinds (s : System B) (bindings : List B) : State B :=
  match bindings with
  | [] => goOn s (if hardware.isDeck then .readingMode else .verifying)
  | b :: rest => goOn s (.rebinding (b :: rest))

/-- The data of `_snapshot`, and the journal saved with it. -/
def snapshot (s : System B) (meets : Meets) : State B :=
  match currentBindings hardware s with
  | none => finish s
  | some bindings =>
    if bindings = [] ∧ ¬ hardware.usb then finish s
    else
      installRules { s with journal := some {
        generation := some s.generation
        bindings := bindings
        mode := if hardware.isDeck && !meets.modeMissing then some s.mode else none } } true

/-- What a recovery does with the interfaces of the attachment it looked for. -/
def resolve (s : System B) (r : Recovery) (journal : Journal B) : State B :=
  if listed hardware s ∧ journal.generation = some s.generation then
    goOn s (.repairing { r with found := some s.generation } journal.bindings)
  else if listed hardware s ∧ hardware.usb then
    -- Drivers of an old connection are never applied to a new one.
    if journal.usbReconnect then
      match currentBindings hardware s with
      | some (b :: rest) => goOn s (.repairing { r with found := some s.generation } (b :: rest))
      | _ => goOn s (.repairing { r with found := some s.generation, repairError := true } [])
    else goOn s (.repairing { r with found := some s.generation } [])
  else goOn s (.repairing { r with found := none } [])

/-- One interface of a recovery; a recorded mode asks for a new binding. -/
def repair (s : System B) (r : Recovery) (b : B) (rest : List B) (meets : Meets) : State B :=
  if meets.fails || !(listed hardware s && r.found = some s.generation) then
    goOn s (.repairing { r with repairError := true } rest)
  else if b ∈ s.unbound then goOn s (.bindingBack r b rest)
  else if (s.journal.bind Journal.mode).isNone then goOn s (.repairing r rest)
  else goOn { s with unbound := insert b s.unbound } (.bindingBack r b rest)

/-- The first step of a recovery. -/
def beginRecovery (s : System B) (r : Recovery) (meets : Meets) : State B :=
  if meets.damaged then goOn s (.removingEarly { r with damaged := true })
  else
    match s.journal with
    | some _ => goOn s (.enablingPort r)
    | none =>
      if r.keepRules then finish s
      else if ¬ s.armedRecord ∧ ¬ s.permissions then
        goOn s (.removingEarly { r with journaled := false })
      else
        -- Recovery intent is on disk before the rules go.
        goOn { s with journal := some { generation := none, bindings := [] } } (.enablingPort r)

/- The nodes whose access a recovery restores are those below the path of the
attachment it found, which a HID device has for one connection only. A damaged
journal leaves the attachment that the independent records name. -/
def reaches (s : System B) (r : Recovery) : Bool :=
  if r.damaged then listed hardware s && s.permissions
  else r.found.any fun generation => hardware.usb || generation = s.generation

/-- What follows the removal of the rules. -/
def afterRules (s : System B) (r : Recovery) : State B :=
  if r.damaged then goOn s (.restoringAccess r)
  else goOn s (.removingRecord r)

/-- The end of a recovery that has undone what it could. -/
def afterAccess (s : System B) (r : Recovery) : State B :=
  if r.damaged || r.repairError then finish s else goOn s (.droppingJournal r)

def advance (s : System B) (meets : Meets) : Phase B → State B
  | .capturing activates =>
    goOn (if ¬ s.armed ∧ listed hardware s then { s with permissions := true } else s)
      (.arming activates)
  | .arming activates => goOn { s with armedRecord := true } (.writingLate activates)
  | .writingLate activates =>
    goOn { s with late := true, ruleGeneration := s.selector } (.writingEarly activates)
  | .writingEarly activates => goOn { s with early := true } (.reloading activates)
  | .reloading activates =>
    if activates then goOn { s with rulesLoaded := s.early || s.late } .triggering
    else finish { s with rulesLoaded := s.early || s.late }
  | .snapshotting =>
    if listed hardware s then snapshot hardware { s with selector := some s.generation } meets
    else finish s
  | .triggering => goOn (udevEvent hardware s) .choosing
  | .choosing =>
    match s.journal with
    | none => finish s
    | some journal =>
      if meets.deviceInUse || journal.bindings = [] then
        if hardware.usb then goOn s .recordingPort else finish s
      else afterRebinds hardware s journal.bindings
  | .rebinding [] => finish s
  | .rebinding (b :: rest) =>
    match s.journal with
    | none => finish s
    | some journal =>
      if listed hardware s ∧ journal.generation = some s.generation then
        goOn { s with unbound := insert b s.unbound } (.binding b rest)
      else finish s
  | .binding b rest => afterRebinds hardware { s with unbound := s.unbound.erase b } rest
  | .recordingPort =>
    goOn (updateJournal s fun j => { j with usbPort := some true, usbReconnect := true }) .disabling
  | .disabling =>
    match s.journal with
    | none => finish s
    | some journal =>
      if listed hardware s ∧ journal.generation = some s.generation ∧ ¬ meets.fails then
        goOn { disconnect s with portDisabled := true } (.enabling true)
      else goOn s (.enabling false)
  | .enabling continues => goOn { s with portDisabled := false } (.enabled continues)
  | .enabled continues =>
    let s := updateJournal s fun j => { j with usbPort := j.usbPort.map fun _ => false }
    if continues then goOn s .awaitingDevice else finish s
  | .awaitingDevice =>
    match s.journal, currentBindings hardware s with
    | some journal, some (b :: rest) =>
      if listed hardware s ∧ journal.generation ≠ some s.generation then
        goOn { s with journal := some { journal with
            generation := some s.generation
            bindings := b :: rest } }
          (if hardware.isDeck then .readingMode else .verifying)
      else goOn s .awaitingDevice
    | _, _ => goOn s .awaitingDevice
  | .readingMode =>
    match s.journal with
    | none => finish s
    | some journal =>
      if journal.mode.isNone then
        goOn { s with journal := some { journal with mode := some s.mode } } .writingMode
      else goOn s .writingMode
  | .writingMode => goOn { s with mode := .n } .verifying
  | .verifying => finish (udevEvent hardware s)
  | .refreshing => finish (udevEvent hardware s)
  | .recovering r => beginRecovery s r meets
  | .enablingPort r =>
    if (s.journal.bind Journal.usbPort) = some true then
      goOn { s with portDisabled := false } (.portEnabled r)
    else goOn s (.resolving r)
  | .portEnabled r =>
    goOn (updateJournal s fun j => { j with usbPort := some false }) (.resolving r)
  | .resolving r =>
    match s.journal with
    | none => finish s
    | some journal => resolve hardware s r journal
  | .repairing r [] => goOn s (.restoringMode r)
  | .repairing r (b :: rest) => repair hardware s r b rest meets
  | .bindingBack r b rest =>
    if meets.fails then goOn s (.repairing { r with repairError := true } rest)
    else goOn { s with unbound := s.unbound.erase b } (.repairing r rest)
  | .restoringMode r =>
    let next (s : System B) (r : Recovery) : State B :=
      if r.keepRules then afterAccess s r else goOn s (.removingEarly r)
    match s.journal.bind Journal.mode with
    | none => next s r
    | some mode =>
      if meets.fails then next s { r with repairError := true } else next { s with mode } r
  | .removingEarly r => goOn { s with early := false } (.removingLate r)
  | .removingLate r => goOn { s with late := false } (.unloading r)
  | .unloading r => afterRules { s with rulesLoaded := s.early || s.late } r
  | .removingRecord r =>
    let s := { s with armedRecord := false }
    if r.journaled then goOn s (.restoringAccess r) else finish s
  | .restoringAccess r =>
    afterAccess (if reaches hardware s r then { s with restricted := false } else s) r
  | .droppingJournal r =>
    if r.keepRules then finish { s with journal := none }
    else goOn { s with journal := none } .droppingPermissions
  | .droppingPermissions => finish { s with permissions := false }

/-- The operation lock of the attachment admits one job. -/
def begin (s : System B) : JobKind → State B
  | .arm => if s.selector.isSome then installRules s false else finish s
  | .activate => goOn s .snapshotting
  | .refresh => if s.armed ∧ s.journal.isSome then goOn s .refreshing else finish s
  | .recover keepRules => goOn s (.recovering { keepRules })

def step (s : State B) : Step → Option (State B)
  | .begin kind =>
    match s.job with
    | none => some (begin s.system kind)
    | some _ => none
  | .advance meets => s.job.map (advance hardware s.system meets)
  | .fail => s.job.map fun _ => finish s.system
  | .unplug => if s.system.attached then some { s with system := disconnect s.system } else none
  | .appear =>
    if ¬ s.system.attached ∧ ¬ s.system.portDisabled then
      some { s with system := appear hardware s.system }
    else none
  | .udevReload =>
    some { s with system := { s.system with rulesLoaded := s.system.early || s.system.late } }
  | .udevEvent => some { s with system := udevEvent hardware s.system }

end Keymasq.Masking.Takeover
