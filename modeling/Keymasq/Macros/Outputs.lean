import Keymasq.Foundation.Holdings
import Keymasq.Foundation.Transition

/-!
# Macro outputs

Every playing macro writes to the same output devices. Each instance records the
keys and axes it has pressed, counts say how many instances record one, and the
cleanup of an instance releases what no other instance records.
-/

namespace Keymasq.Macros.Outputs
open Foundation

/-- The virtual devices a macro writes to, by the class that names them. -/
inductive OutputClass
  | keyboard
  | mouse
  | gamepad (outputId : String)
  deriving DecidableEq

inductive DeviceType
  | keyboard
  | mouse
  | gamepad
  | other

inductive EventType
  | key
  | rel
  | abs
  | other (type : Int)
  deriving DecidableEq

/-- A device class and a code. -/
abbrev Key := OutputClass × Int

instance lawfulBEqKey : LawfulBEq Key := inferInstance

/- The uinput devices that are open. A gamepad id is listed when it resolves to
a virtual gamepad that exists or to grabbed hardware with a gamepad output. -/
structure OutputState where
  keyboardUinput : Bool
  mouseUinput : Bool
  gamepads : List String

def OutputState.hasWriter (o : OutputState) : OutputClass → Bool
  | .keyboard => o.keyboardUinput
  | .mouse => o.mouseUinput
  | .gamepad outputId => o.gamepads.contains outputId

def defaultGamepadOutput : String := "virtual-gamepad-1"

/- The id comes stripped from the scheduler, `none` for an empty one. -/
def resolveGamepadOutput (o : OutputState) (outputId : Option String) : Option OutputClass :=
  let resolvedId := match outputId with
    | none => defaultGamepadOutput
    | some outputId => if outputId = "" then defaultGamepadOutput else outputId
  if o.gamepads.contains resolvedId then some (.gamepad resolvedId) else none

def resolveMacroOutput (o : OutputState) (eventType : EventType) (deviceType : DeviceType)
    (outputId : Option String) : Option OutputClass :=
  let opened (c : OutputClass) : Option OutputClass := if o.hasWriter c then some c else none
  match deviceType with
  | .keyboard => opened .keyboard
  | .mouse => opened .mouse
  | .gamepad => resolveGamepadOutput o outputId
  | .other =>
    match eventType with
    | .key => opened .keyboard
    | .rel => opened .mouse
    | .abs => opened .mouse
    | .other _ => none

/- `gamepad_abs_cleanup_codes`: ABS_X, ABS_Y, ABS_Z, ABS_RX, ABS_RY, ABS_RZ,
ABS_HAT0X and ABS_HAT0Y. -/
def gamepadAbsCleanupCodes : List Int := [0, 1, 2, 3, 4, 5, 16, 17]

def gamepadOutputClass : OutputClass → Option String
  | .gamepad outputId => if outputId = "" then none else some outputId
  | _ => none

/- The part of the playback state that concerns outputs: `keys` is
`instance_held` with `held_refcount`, `axes` is `instance_held_abs` with
`held_abs_refcount`, and `pauses` says which instances with a pause are paused. -/
structure MacroRuntimeState where
  instanceSeq : Nat := 0
  instanceMeta : Finset Nat := ∅
  keys : Holdings Nat Key := ∅
  axes : Holdings Nat Key := ∅
  cancelInstanceIds : Finset Nat := ∅
  pauses : Dict Nat Bool := ∅
  pauseReleased : Dict Nat (Finset (OutputClass × EventType × Int)) := ∅

/-- The playback state, the open devices, and the keys macros have left down on them. -/
structure Manager where
  macroState : MacroRuntimeState
  outputState : OutputState
  down : Finset Key

/- What a write does to the keys of the device: a value of 0 releases the key, a
repeat leaves it as it is, and every other value presses it. -/
def Manager.write (m : Manager) (c : OutputClass) (eventType : EventType) (code value : Int) :
    Manager :=
  match eventType with
  | .key =>
    if value = 0 then { m with down := m.down.erase (c, code) }
    else if value = 2 then m
    else { m with down := insert (c, code) m.down }
  | _ => m

def Manager.withKeys (m : Manager) (keys : Holdings Nat Key) : Manager :=
  { m with macroState := { m.macroState with keys := keys } }

def Manager.withAxes (m : Manager) (axes : Holdings Nat Key) : Manager :=
  { m with macroState := { m.macroState with axes := axes } }

def trackMacroKeyPress (m : Manager) (instanceId : Nat) (c : OutputClass) (code : Int) : Manager :=
  m.withKeys (m.macroState.keys.add instanceId (c, code))

def trackMacroKeyRelease (m : Manager) (instanceId : Nat) (c : OutputClass) (code : Int) :
    Manager :=
  m.withKeys (m.macroState.keys.remove instanceId (c, code))

def trackMacroAbsValue (m : Manager) (instanceId : Nat) (c : OutputClass) (code value : Int) :
    Manager :=
  if gamepadOutputClass c = none then m
  else if code ∉ gamepadAbsCleanupCodes then m
  else if value = 0 then m.withAxes (m.macroState.axes.remove instanceId (c, code))
  else m.withAxes (m.macroState.axes.add instanceId (c, code))

def trackMacroEvent (m : Manager) (instanceId : Nat) (c : OutputClass) (eventType : EventType)
    (code value : Int) : Manager :=
  match eventType with
  | .key =>
    if value = 1 then trackMacroKeyPress m instanceId c code
    else if value = 0 then trackMacroKeyRelease m instanceId c code
    else m
  | .abs => trackMacroAbsValue m instanceId c code value
  | _ => m

/- `released.discard(key)`, on the set of the instance. -/
def Manager.discardReleased (m : Manager) (instanceId : Nat)
    (key : OutputClass × EventType × Int) : Manager :=
  { m with macroState := { m.macroState with
      pauseReleased := m.macroState.pauseReleased.insert instanceId
        ((m.macroState.pauseReleased.getD instanceId ∅).erase key) } }

/- `emit_macro_event`, with whether the event was written. -/
def emitMacroEvent (m : Manager) (instanceId : Nat) (eventType : EventType) (code value : Int)
    (deviceType : DeviceType) (outputId : Option String) : Bool × Manager :=
  match resolveMacroOutput m.outputState eventType deviceType outputId with
  | none => (false, m)
  | some c =>
    let key := (c, eventType, code)
    let written (m : Manager) : Bool × Manager :=
      (true, trackMacroEvent (m.write c eventType code value) instanceId c eventType code value)
    if key ∈ m.macroState.pauseReleased.getD instanceId ∅ then
      if value = 0 then (false, m.discardReleased instanceId key)
      else if eventType = .key ∧ value = 2 then (false, m)
      else written (m.discardReleased instanceId key)
    else written m

/- One key of the cleanup: it is released on the device with the last instance
that records it, if the device is still there. -/
def releaseHeldKey (o : OutputState) (s : Dict Key Int × Finset Key) (key : Key) :
    Dict Key Int × Finset Key :=
  let count := s.1.getD key 0
  if 1 < count then (s.1.insert key (count - 1), s.2)
  else (s.1.erase key, if o.hasWriter key.1 then s.2.erase key else s.2)

/- The axes go back to zero the same way, which leaves the keys as they are. -/
def releaseMacroHeldForInstance (m : Manager) (instanceId : Nat) : Manager :=
  let held := m.macroState.keys.heldBy instanceId
  let released := held.foldl (releaseHeldKey m.outputState) (m.macroState.keys.count, m.down)
  { m with
    down := released.2
    macroState := { m.macroState with
      keys := { held := m.macroState.keys.held.erase instanceId, count := released.1 }
      axes := m.macroState.axes.drop instanceId } }

def pauseMacroOutputs (m : Manager) (instanceId : Nat) : Manager :=
  let keys := (m.macroState.keys.heldBy instanceId).map fun k => (k.1, EventType.key, k.2)
  let axes := (m.macroState.axes.heldBy instanceId).map fun k => (k.1, EventType.abs, k.2)
  let released := m.macroState.pauseReleased.getD instanceId ∅ ∪ (keys ++ axes).toFinset
  releaseMacroHeldForInstance
    { m with macroState := { m.macroState with
        pauseReleased := m.macroState.pauseReleased.insert instanceId released } } instanceId

section Cleanup

variable {o : OutputState}

theorem releaseHeldKey_count (s : Dict Key Int × Finset Key) (key : Key) :
    (releaseHeldKey o s key).1 = Holdings.decrement s.1 key := by
  unfold releaseHeldKey Holdings.decrement
  by_cases h : 1 < s.1.getD key 0
  · simp only [h, if_true, if_neg (not_le.mpr h)]
  · simp only [h, if_false, if_pos (not_lt.mp h)]

theorem foldl_releaseHeldKey_count (held : List Key) (s : Dict Key Int × Finset Key) :
    (held.foldl (releaseHeldKey o) s).1 = held.foldl Holdings.decrement s.1 := by
  induction held generalizing s with
  | nil => rfl
  | cons key held ih => rw [List.foldl_cons, List.foldl_cons, ih, releaseHeldKey_count]

theorem mem_releaseHeldKey {s : Dict Key Int × Finset Key} {key k : Key} :
    k ∈ (releaseHeldKey o s key).2 ↔
      k ∈ s.2 ∧ ¬ (k = key ∧ s.1.getD key 0 ≤ 1 ∧ o.hasWriter key.1 = true) := by
  unfold releaseHeldKey
  by_cases h : 1 < s.1.getD key 0
  · simp only [h, if_true, not_le.mpr h, false_and, and_false, not_false_eq_true, and_true]
  · by_cases hw : o.hasWriter key.1 = true
    · simp only [h, hw, if_true, if_false, not_lt.mp h, and_true, Finset.mem_erase]
      exact And.comm
    · simp [h, hw]

/-- The cleanup loop releases the keys whose count says that nobody else records them. -/
theorem mem_foldl_releaseHeldKey (held : List Key) (hnd : held.Nodup)
    (s : Dict Key Int × Finset Key) (hpos : ∀ k ∈ held, 0 < s.1.getD k 0) (k : Key) :
    k ∈ (held.foldl (releaseHeldKey o) s).2 ↔
      k ∈ s.2 ∧ ¬ (k ∈ held ∧ s.1.getD k 0 ≤ 1 ∧ o.hasWriter k.1 = true) := by
  induction held generalizing s with
  | nil => simp
  | cons key held ih =>
    rw [List.nodup_cons] at hnd
    have hkey := hpos key List.mem_cons_self
    have hsame : ∀ l ∈ held, (releaseHeldKey o s key).1.getD l 0 = s.1.getD l 0 := by
      intro l hl
      have hne : l ≠ key := fun heq => hnd.1 (heq ▸ hl)
      rw [releaseHeldKey_count, Holdings.getD_decrement s.1 key l hkey, if_neg hne]
    have hrest : ∀ l ∈ held, 0 < (releaseHeldKey o s key).1.getD l 0 := by
      intro l hl
      rw [hsame l hl]
      exact hpos l (List.mem_cons_of_mem _ hl)
    rw [List.foldl_cons, ih hnd.2 _ hrest, mem_releaseHeldKey, List.mem_cons]
    by_cases hk : k ∈ held
    · have hne : k ≠ key := fun heq => hnd.1 (heq ▸ hk)
      simp [hk, hne, hsame k hk]
    · by_cases heq : k = key
      · subst heq
        simp [hk]
      · simp [hk, heq]

end Cleanup

theorem releaseMacroHeldForInstance_keys (m : Manager) (instanceId : Nat) :
    (releaseMacroHeldForInstance m instanceId).macroState.keys =
      m.macroState.keys.drop instanceId := by
  simp only [releaseMacroHeldForInstance, Holdings.drop, foldl_releaseHeldKey_count]

theorem releaseMacroHeldForInstance_axes (m : Manager) (instanceId : Nat) :
    (releaseMacroHeldForInstance m instanceId).macroState.axes =
      m.macroState.axes.drop instanceId := rfl

/-- What stays down after the cleanup of an instance. -/
theorem mem_down_releaseMacroHeldForInstance {m : Manager} (hc : m.macroState.keys.Counted)
    (instanceId : Nat) (k : Key) :
    k ∈ (releaseMacroHeldForInstance m instanceId).down ↔
      k ∈ m.down ∧ ¬ (k ∈ m.macroState.keys.heldBy instanceId ∧ m.macroState.keys.countOf k ≤ 1 ∧
        m.outputState.hasWriter k.1 = true) :=
  mem_foldl_releaseHeldKey _ (hc.nodup instanceId) (m.macroState.keys.count, m.down)
    (fun _ hl => hc.countOf_pos hl) k

/-- A class that resolves has a writer. -/
theorem hasWriter_of_resolveMacroOutput {o : OutputState} {eventType : EventType}
    {deviceType : DeviceType} {outputId : Option String} {c : OutputClass}
    (h : resolveMacroOutput o eventType deviceType outputId = some c) : o.hasWriter c = true := by
  have hopened : ∀ c', (if o.hasWriter c' then some c' else none) = some c →
      o.hasWriter c = true := by
    intro c' hc
    split at hc
    · cases hc
      assumption
    · cases hc
  cases deviceType with
  | keyboard => exact hopened _ h
  | mouse => exact hopened _ h
  | gamepad => exact hopened (.gamepad _) h
  | other =>
    cases eventType with
    | key => exact hopened _ h
    | rel => exact hopened _ h
    | abs => exact hopened _ h
    | other type => cases h

end Keymasq.Macros.Outputs
