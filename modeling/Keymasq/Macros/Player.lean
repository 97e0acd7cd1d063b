import Keymasq.Macros.Instances

/-!
# Players of macro timelines

The task of an instance waits for the deadline of each step of its timeline. A
wait does not end while the instance is paused. Beside parallel children or
commands the wait is a task of its own, and the player takes its turn after it.
-/

namespace Keymasq.Macros.Player
open Foundation Foundation.Transition Keymasq.Macros.Outputs

/-- An output as an event names it. -/
abbrev Output := OutputClass × EventType × Int

/-- `move` writes one mouse movement, `moveNatural` many while it lasts. A blocking step is a wait,
an awaited command or child; a parallel one runs beside the timeline. -/
inductive TimelineStep
  | emit (event : Instances.MacroEvent)
  | move
  | moveNatural
  | blocking
  | parallel

inductive Phase
  | between
  | waiting (next : TimelineStep)
  | waitingBeside (next : TimelineStep)
  | due (next : TimelineStep)
  | scheduled (next : TimelineStep)
  | blocked (moving : Bool)

structure Player where
  phase : Phase := .between
  parallel : ℕ := 0

/-- What happens to an output; `released` is the release of a held output on a pause. -/
inductive What
  | written (output : Output) (value : Int)
  | swallowed (output : Output) (value : Int)
  | released (output : Output)
  | moved (natural : Bool)
  deriving DecidableEq

/-- `paused` says whether the author was paused. -/
structure Entry where
  author : ℕ
  paused : Bool
  what : What
  deriving DecidableEq

/- `dying` are the instances whose task has been cancelled: it emits nothing more. The log is a
record of what was written and why. -/
structure State where
  base : Instances.State
  players : Dict ℕ Player := ∅
  dying : Finset ℕ := ∅
  log : List Entry := []

inductive Op
  | task (op : Instances.Op)
  | next (instanceId : ℕ) (step : TimelineStep)
  | elapsed (instanceId : ℕ)
  | turn (instanceId : ℕ)
  | act (instanceId : ℕ)
  | moves (instanceId : ℕ)
  | finishes (instanceId : ℕ)
  | parallelEnds (instanceId : ℕ)

def initial (outputs : OutputState) : State where
  base := Instances.initial outputs

def Paused (s : State) (i : ℕ) : Prop := s.base.manager.macroState.pauses.get? i = some true

instance (s : State) (i : ℕ) : Decidable (Paused s i) := by
  unfold Paused
  infer_instance

/-! ## Steps of a timeline -/

def State.record (s : State) (i : ℕ) (what : What) : State :=
  { s with log := s.log ++ [⟨i, decide (Paused s i), what⟩] }

def State.setPlayer (s : State) (i : ℕ) (player : Player) : State :=
  { s with players := s.players.insert i player }

/-- `emit_macro_event` for the event of a timeline. -/
def emitEvent (s : State) (i : ℕ) (event : Instances.MacroEvent) : State :=
  let m := s.base.manager
  match resolveMacroOutput m.outputState event.eventType event.deviceType event.outputId with
  | none => s
  | some c =>
    let (written, m) := emitMacroEvent m i event.eventType event.code event.value event.deviceType
      event.outputId
    let output := (c, event.eventType, event.code)
    let s := s.record i
      (if written then .written output event.value else .swallowed output event.value)
    { s with base := { s.base with manager := m } }

def perform (s : State) (i : ℕ) (player : Player) : TimelineStep → State
  | .emit event => (emitEvent s i event).setPlayer i { player with phase := .between }
  | .move => (s.record i (.moved false)).setPlayer i { player with phase := .between }
  | .moveNatural => s.setPlayer i { player with phase := .blocked true }
  | .blocking => s.setPlayer i { player with phase := .blocked false }
  | .parallel => s.setPlayer i { phase := .between, parallel := player.parallel + 1 }

/- Beside parallel tasks an event is emitted in the player's turn, a move or a blocking step is a
task of its own again. -/
def takeTurn (s : State) (i : ℕ) (player : Player) : TimelineStep → State
  | .emit event => perform s i player (.emit event)
  | .parallel => perform s i player .parallel
  | next => s.setPlayer i { player with phase := .scheduled next }

/-- The player of an instance that plays and is not cancelled. -/
def playerOf (s : State) (i : ℕ) : Option Player :=
  if i ∈ s.base.playing ∧ i ∉ s.dying then s.players.get? i else none

/-- The outputs an instance holds, as a pause releases them. -/
def heldOutputs (m : Manager) (i : ℕ) : List Output :=
  (m.macroState.keys.heldBy i).map (fun k => (k.1, EventType.key, k.2)) ++
    (m.macroState.axes.heldBy i).map fun k => (k.1, EventType.abs, k.2)

/-- What a step of the tasks means for the players. -/
def taskStep (s : State) (op : Instances.Op) : Option State :=
  match op with
  | .emit _ _ => none
  | .start _ => (Instances.step s.base op).map fun base =>
      { s with base, dying := s.dying.erase base.manager.macroState.instanceSeq }
  | .begin i => (Instances.step s.base op).map fun base => { s.setPlayer i {} with base }
  | .unwind i =>
    (Instances.step s.base op).map fun base => { s with base, players := s.players.erase i }
  | .pause i => (Instances.step s.base op).map fun base =>
      { s with
        base
        log := s.log ++ (heldOutputs s.base.manager i).map fun o => ⟨i, false, .released o⟩ }
  | .cancel ids =>
    (Instances.step s.base op).map fun base => { s with base, dying := s.dying ∪ ids.toFinset }
  | .expire i ids =>
    let macroState := s.base.manager.macroState
    let dying := if i ∈ macroState.cancelInstanceIds ∨ i ∉ macroState.instanceMeta then s.dying
      else s.dying ∪ (i :: ids).toFinset
    (Instances.step s.base op).map fun base => { s with base, dying }
  | .forget ids =>
    if ∀ i ∈ ids, i ∈ s.dying then
      (Instances.step s.base op).map fun base => { s with base }
    else none
  | op => (Instances.step s.base op).map fun base => { s with base }

def step (s : State) : Op → Option State
  | .task op => taskStep s op
  | .next i next =>
    match playerOf s i with
    | some ⟨.between, parallel⟩ =>
      some (s.setPlayer i
        ⟨if parallel = 0 then .waiting next else .waitingBeside next, parallel⟩)
    | _ => none
  | .elapsed i =>
    if Paused s i then none
    else
      match playerOf s i with
      | some ⟨.waiting next, parallel⟩ => some (perform s i ⟨.waiting next, parallel⟩ next)
      | some ⟨.waitingBeside next, parallel⟩ => some (s.setPlayer i ⟨.due next, parallel⟩)
      | _ => none
  | .turn i =>
    match playerOf s i with
    | some ⟨.due next, parallel⟩ => some (takeTurn s i ⟨.due next, parallel⟩ next)
    | _ => none
  | .act i =>
    match playerOf s i with
    | some ⟨.scheduled next, parallel⟩ => some (perform s i ⟨.scheduled next, parallel⟩ next)
    | _ => none
  | .moves i =>
    match playerOf s i with
    | some ⟨.blocked true, _⟩ => some (s.record i (.moved true))
    | _ => none
  | .finishes i =>
    match playerOf s i with
    | some ⟨.blocked _, parallel⟩ => some (s.setPlayer i ⟨.between, parallel⟩)
    | _ => none
  | .parallelEnds i =>
    match playerOf s i with
    | some ⟨phase, parallel + 1⟩ => some (s.setPlayer i ⟨phase, parallel⟩)
    | _ => none

end Keymasq.Macros.Player
