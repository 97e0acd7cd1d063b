import Mathlib.Algebra.Group.Int.Defs
import Mathlib.Algebra.Order.Ring.Unbundled.Rat
import Mathlib.Data.Rat.Defs
import Mathlib.Data.List.Lex
import Mathlib.Data.List.MinMax

/-!
# What the macro editor edits

Five lists: keys and axes with a press and a release, pointer motion, raw events, mouse moves
and controls. Motion and raw events are the recorded events themselves, the others are made
of them. An order number tells recorded items of one time apart; new items have none yet.
-/

namespace Keymasq.MacroEditor

def evSyn : ℤ := 0
def evKey : ℤ := 1
def evRel : ℤ := 2
def evAbs : ℤ := 3

def defaultRapidfireHoldMs : ℤ := 20
def defaultRapidfireWaitMs : ℤ := 20
def defaultTimeoutMs : ℤ := 30000

inductive MoveMode
  | rel | abs | natural
  deriving DecidableEq

inductive ControlMode
  | wait | waitRandom | execSync | execParallel | execAsync
  | compositorDispatch | macroSync | macroParallel
  deriving DecidableEq

/-- How a natural mouse move goes. -/
structure NaturalOptions where
  speed : ℚ := 12000
  jitter : ℚ := 3 / 10
  curve : String := "natural"
  tolerance : ℤ := 2
  maxDurationMs : ℤ := 3000
  stopOnFailure : Bool := false
  deriving DecidableEq

/-- What a control waits for, runs or calls. -/
structure ControlOptions where
  durationUs : ℤ := 0
  minUs : ℤ := 0
  maxUs : ℤ := 0
  command : String := ""
  timeoutMs : ℤ := defaultTimeoutMs
  inhibitMouse : Bool := false
  compositorId : String := ""
  compositorDispatcher : String := ""
  compositorArgs : String := ""
  macroName : String := ""
  replayMouseMovement : Bool := true
  replayMouseClicks : Bool := true
  speed : ℚ := 1
  loopMode : String := "none"
  loopCount : ℤ := 1
  loopStopBehavior : String := "finish_run"
  pauseTimeoutS : ℚ := 0
  deriving DecidableEq

/- The `macro_action` of an event with the fields that belong to it. Reading gives a field that
is missing its default, so it is here with its default. -/
inductive MacroAction
  | none
  | rapidfire (durationUs holdMs waitMs : ℤ)
  | move (mode : MoveMode) (x y : ℤ) (options : NaturalOptions)
  | control (mode : ControlMode) (options : ControlOptions)
  | other (name : String)
  deriving DecidableEq

/-- An event of a macro. The order number is not part of it. -/
structure MacroEvent where
  deviceType : String
  type : ℤ
  code : ℤ
  value : ℤ
  tUs : ℤ
  outputId : Option String := none
  action : MacroAction := .none
  deriving DecidableEq

/-- An event with its `_keymasq_editor_order`. -/
structure OrderedEvent where
  event : MacroEvent
  order : Option ℤ := none
  deriving DecidableEq

structure EditableEvent where
  deviceType : String
  evType : ℤ
  code : ℤ
  pressTUs : ℤ
  releaseTUs : ℤ
  value : ℤ := 0
  outputId : Option String := none
  originalPressOrder : Option ℤ := none
  originalReleaseOrder : Option ℤ := none
  rapidfireEnabled : Bool := false
  rapidfireHoldMs : ℤ := defaultRapidfireHoldMs
  rapidfireWaitMs : ℤ := defaultRapidfireWaitMs
  deriving DecidableEq

structure EditableMove where
  mode : MoveMode
  tUs : ℤ
  x : ℤ
  y : ℤ
  options : NaturalOptions := {}
  originalOrder : Option ℤ := none
  deriving DecidableEq

structure EditableControl where
  mode : ControlMode
  tUs : ℤ
  options : ControlOptions := {}
  originalOrder : Option ℤ := none
  deriving DecidableEq

inductive Item
  | event (event : EditableEvent)
  | raw (event : OrderedEvent)
  | move (move : EditableMove)
  | control (control : EditableControl)
  deriving DecidableEq

/-- `TimelineLists`. -/
structure TimelineLists where
  events : List EditableEvent := []
  relative : List OrderedEvent := []
  raw : List OrderedEvent := []
  moves : List EditableMove := []
  controls : List EditableControl := []

def TimelineLists.items (lists : TimelineLists) : List Item :=
  lists.events.map .event ++ lists.relative.map .raw ++ lists.raw.map .raw ++
    lists.moves.map .move ++ lists.controls.map .control

namespace Item

def start : Item → ℤ
  | event e => e.pressTUs
  | raw e => e.event.tUs
  | move m => m.tUs
  | control c => c.tUs

/- `end`: an absolute move sends a second event one microsecond later. -/
def stop : Item → ℤ
  | event e => e.releaseTUs
  | raw e => e.event.tUs
  | move m => m.tUs + if m.mode = .abs then 1 else 0
  | control c => c.tUs

def shift (item : Item) (deltaUs : ℤ) : Item :=
  match item with
  | event e => event { e with
      pressTUs := e.pressTUs + deltaUs, releaseTUs := e.releaseTUs + deltaUs }
  | raw e => raw { e with event := { e.event with tUs := e.event.tUs + deltaUs } }
  | move m => move { m with tUs := m.tUs + deltaUs }
  | control c => control { c with tUs := c.tUs + deltaUs }

/- Recorded motion of the pointer. -/
def isMotion : Item → Bool
  | raw e => e.event.type = evRel
  | _ => false

@[simp] theorem start_shift (item : Item) (d : ℤ) : (item.shift d).start = item.start + d := by
  cases item <;> rfl

@[simp] theorem stop_shift (item : Item) (d : ℤ) : (item.shift d).stop = item.stop + d := by
  cases item with
  | event e => rfl
  | raw e => rfl
  | control c => rfl
  | move m => exact Int.add_right_comm _ _ _

@[simp] theorem isMotion_shift (item : Item) (d : ℤ) : (item.shift d).isMotion = item.isMotion := by
  cases item <;> rfl

@[simp] theorem shift_zero (item : Item) : item.shift 0 = item := by
  cases item <;> simp [shift]

end Item

/- `bounds`: from the first start to the last end. -/
def bounds (selected : List Item) : ℤ × ℤ :=
  (((selected.map Item.start).min?).getD 0, ((selected.map Item.stop).max?).getD 0)

theorem bounds_first {items : List Item} (h : items ≠ []) :
    (∃ item ∈ items, item.start = (bounds items).1) ∧
      ∀ item ∈ items, (bounds items).1 ≤ item.start := by
  unfold bounds
  cases hmin : (items.map Item.start).min? with
  | none =>
    rw [List.min?_eq_none_iff, List.map_eq_nil_iff] at hmin
    exact absurd hmin h
  | some m =>
    obtain ⟨hmem, hle⟩ := List.min?_eq_some_iff.mp hmin
    obtain ⟨item, hitem, rfl⟩ := List.mem_map.mp hmem
    exact ⟨⟨item, hitem, rfl⟩, fun i hi => hle _ (List.mem_map_of_mem hi)⟩

theorem bounds_last {items : List Item} (h : items ≠ []) :
    (∃ item ∈ items, item.stop = (bounds items).2) ∧
      ∀ item ∈ items, item.stop ≤ (bounds items).2 := by
  unfold bounds
  cases hmax : (items.map Item.stop).max? with
  | none =>
    rw [List.max?_eq_none_iff, List.map_eq_nil_iff] at hmax
    exact absurd hmax h
  | some m =>
    obtain ⟨hmem, hle⟩ := List.max?_eq_some_iff.mp hmax
    obtain ⟨item, hitem, rfl⟩ := List.mem_map.mp hmem
    exact ⟨⟨item, hitem, rfl⟩, fun i hi => hle _ (List.mem_map_of_mem hi)⟩

theorem bounds_shift {items : List Item} (h : items ≠ []) (d : ℤ) :
    bounds (items.map fun item => item.shift d) = ((bounds items).1 + d, (bounds items).2 + d) := by
  have hne : items.map (fun item => item.shift d) ≠ [] := by
    rw [ne_eq, List.map_eq_nil_iff]
    exact h
  obtain ⟨⟨a, ha, hfirst⟩, hstart⟩ := bounds_first h
  obtain ⟨⟨b, hb, hlast⟩, hstop⟩ := bounds_last h
  obtain ⟨⟨a', ha', hfirst'⟩, hstart'⟩ := bounds_first hne
  obtain ⟨⟨b', hb', hlast'⟩, hstop'⟩ := bounds_last hne
  obtain ⟨a₀, ha₀, rfl⟩ := List.mem_map.mp ha'
  obtain ⟨b₀, hb₀, rfl⟩ := List.mem_map.mp hb'
  have h₁ := hstart a₀ ha₀
  have h₂ := hstop b₀ hb₀
  have h₃ := hstart' _ (List.mem_map_of_mem ha)
  have h₄ := hstop' _ (List.mem_map_of_mem hb)
  rw [Item.start_shift] at hfirst' h₃
  rw [Item.stop_shift] at hlast' h₄
  exact Prod.ext (by omega) (by omega)
end Keymasq.MacroEditor
