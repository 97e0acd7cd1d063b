import Mathlib.Data.Finset.Image
import Keymasq.Foundation.Sorting
import Keymasq.Profile.Model

/-!
# Rollover groups

A group tracks which of its members are held, in press order, and which one is
active. A settle picks the active member and hands the output over to it.
What the mappings of the devices answer is given by an environment; the record
of which device owns which output is not modelled.
-/

namespace Keymasq.Rollover.Groups
open Foundation Foundation.Sorting Keymasq.Combo.Names Keymasq.Profile.Model

/-- `min(items, key=key)`: the first of the least items. -/
def minByKey {α : Type*} (key : α → ℕ) : List α → Option α
  | [] => none
  | a :: as => some (as.foldl (fun best b => if key b < key best then b else best) a)

/-- The position of a member in its group, the group's size for any other. -/
def priorityOf (group : RolloverGroup) (member : RolloverMember) : ℕ :=
  let order := Dict.ofList group.members.zipIdx
  order.getD member order.keys.length

/-- `choose_active`: the active one of the members held, in press order. -/
def chooseActive (group : RolloverGroup) (held : List RolloverMember)
    (lost : Finset RolloverMember) : Option RolloverMember :=
  let candidates := if group.restore then held else held.filter (· ∉ lost)
  match group.winner with
  | .neutral =>
    match held with
    | [only] => if group.restore ∨ only ∉ lost then some only else none
    | _ => none
  | .oldest => candidates.head?
  | .priority => minByKey (priorityOf group) candidates
  | .newest => candidates.getLast?

/-- `HeldMember`; `runtime` says which grabbed interface the key is on. -/
structure HeldMember (O : Type*) where
  member : RolloverMember
  runtime : ℕ
  eventCode : ℤ
  eventName : String
  pressSeq : ℕ := 0
  output : Option O := none
  pressed : Bool := false
  recalled : Bool := false
  fired : Bool := false
  deriving DecidableEq

variable {O : Type*}

/- `active` names the held member it points to. Between a release and the
settle that follows it, that member has left the list; the settle is handed it. -/
structure GroupState (O : Type*) where
  group : RolloverGroup
  held : List (HeldMember O) := []
  lost : Finset RolloverMember := ∅
  active : Option RolloverMember := none
  deriving DecidableEq

namespace GroupState

def member (st : GroupState O) (m : RolloverMember) : Option (HeldMember O) :=
  st.held.find? fun h => h.member = m

/-- The held members that compete. -/
def competing (st : GroupState O) : List RolloverMember :=
  (st.held.filter fun h => !h.recalled).map (·.member)

def nextActive (st : GroupState O) : Option (HeldMember O) :=
  (chooseActive st.group st.competing st.lost).bind st.member

/-- Without restore, every held member but the winner is out until pressed again. -/
def markLosers (st : GroupState O) (winner : Option RolloverMember) : GroupState O :=
  if st.group.restore then st
  else
    { st with lost := st.lost ∪
        ((st.held.filter fun h => some h.member ≠ winner).map (·.member)).toFinset }

/-- `held.remove(held)` and `lost.discard(member)`. -/
def remove (st : GroupState O) (m : RolloverMember) : GroupState O :=
  { st with held := st.held.filter fun h => h.member ≠ m, lost := st.lost.erase m }

/-- `bisect.insort(held, item, key=press_seq)` -/
def insort (st : GroupState O) (h : HeldMember O) : GroupState O :=
  { st with held := insortBy (·.pressSeq) h st.held }

end GroupState

/-! ## Settling -/

/-- What the devices and their mappings answer during a settle. -/
structure SettleEnv (O : Type*) where
  plannedOutput : HeldMember O → Option O
  pressedOutput : HeldMember O → Option O
  tapOutput : HeldMember O → Option O
  tapRunning : HeldMember O → Bool
  oneShot : HeldMember O → Bool

/-- No mapping writes a plain output. -/
def plainEnv : SettleEnv O where
  plannedOutput _ := none
  pressedOutput _ := none
  tapOutput _ := none
  tapRunning _ := false
  oneShot _ := false

inductive HandoverEvent
  | release (m : RolloverMember)
  | handOver (m : RolloverMember)
  | endTap (m : RolloverMember)
  | reassert (m : RolloverMember) (rewrite : Bool)
  | press (m : RolloverMember) (dispatched : Bool)

/-- The locals of the loop over the losers. -/
structure LoserLoop where
  donors : List RolloverMember := []
  tapReleasedOutput : Bool := false
  events : List HandoverEvent := []

section Settle
variable [DecidableEq O]

def chosenOutput (env : SettleEnv O) (chosen : HeldMember O) : Option O :=
  if chosen.pressed then chosen.output else env.plannedOutput chosen

def loserRound (env : SettleEnv O) (chosen : Option (HeldMember O)) (loop : LoserLoop)
    (h : HeldMember O) : LoserLoop :=
  let output := chosen.bind (chosenOutput env)
  if output ≠ none ∧ h.output = output then
    { loop with
      donors := loop.donors ++ [h.member]
      events := loop.events ++ [.handOver h.member] }
  else
    let tap := env.tapOutput h
    let loop := { loop with events := loop.events ++ [.release h.member] }
    let shared := tap ≠ none ∧ tap = output
    let unknown := chosen.any (fun c => !c.pressed) ∧ output = none
    if (shared ∨ (unknown ∧ tap ≠ none)) ∧ env.tapRunning h then
      { loop with
        tapReleasedOutput := loop.tapReleasedOutput || decide shared
        events := loop.events ++ [.endTap h.member] }
    else loop

/-- The object the group's active pointer stands for. -/
def previousActive (st : GroupState O) (departed : Option (HeldMember O)) :
    Option (HeldMember O) :=
  match st.active with
  | none => none
  | some m => st.member m <|> departed.filter fun h => h.member = m

/-- The pressed members that give up their output, the previous active one first. -/
def losers (st : GroupState O) (departed : Option (HeldMember O))
    (chosen : Option RolloverMember) : List (HeldMember O) :=
  let held := st.held.filter fun h => h.pressed && decide (some h.member ≠ chosen)
  match previousActive st departed with
  | none => held
  | some previous =>
    if previous.pressed ∧ some previous.member ≠ chosen then
      previous :: held.filter fun h => h.member ≠ previous.member
    else held

/-- `_settle`: the group afterwards and what it does to the outputs. -/
def settle (env : SettleEnv O) (st : GroupState O) (departed : Option (HeldMember O)) :
    GroupState O × List HandoverEvent :=
  let chosen := st.nextActive
  let name := chosen.map (·.member)
  let st := st.markLosers name
  let giving := losers st departed name
  let loop := giving.foldl (loserRound env chosen) {}
  let held := st.held.map fun h =>
    if h.member ∈ giving.map (·.member) then { h with pressed := false } else h
  match chosen with
  | none => ({ st with held := held, active := none }, loop.events)
  | some c =>
    if c.pressed then
      ({ st with held := held, active := some c.member },
        if loop.donors ≠ [] ∨ loop.tapReleasedOutput then
          loop.events ++ [.reassert c.member loop.tapReleasedOutput]
        else loop.events)
    else
      ({ st with
          held := held.map fun h =>
            if h.member = c.member then
              { h with pressed := true, fired := true, output := env.pressedOutput c }
            else h
          active := some c.member },
        loop.events ++ [.press c.member (!(c.fired && env.oneShot c))])

/-! ## Member events -/

/-- `_apply_member_event` on the member's group. -/
def applyMemberEvent (env : SettleEnv O) (st : GroupState O) (member : RolloverMember)
    (runtime : ℕ) (eventCode : ℤ) (eventName : String) (value : ℤ) (pressSeq : ℕ) :
    GroupState O :=
  let held := st.member member
  if value ≠ 0 ∧ value ≠ 1 then st
  else if value = 1 then
    match held with
    | some h =>
      if !h.recalled then st
      else
        -- The release of a recalled key went missing: it competes as the newest press.
        (settle env ((st.remove member).insort
          { h with recalled := false, fired := false, pressSeq := pressSeq }) none).1
    | none =>
      (settle env (st.insort
        { member := member, runtime := runtime, eventCode := eventCode, eventName := eventName,
          pressSeq := pressSeq }) none).1
  else
    match held with
    | none => st
    | some h => (settle env (st.remove member) (some h)).1

/-- `_run_consumed_release` on the member's group. -/
def runConsumedRelease (env : SettleEnv O) (st : GroupState O) (member : RolloverMember) :
    GroupState O :=
  match st.member member with
  | none => st
  | some h => (settle env (st.remove member) (some h)).1

/-- Change the held entry of one member. -/
def updateMember (st : GroupState O) (member : RolloverMember)
    (f : HeldMember O → HeldMember O) : GroupState O :=
  { st with held := st.held.map fun h => if h.member = member then f h else h }

/-- `recall_rollover_member` and the settle it requests. -/
def recallMember (env : SettleEnv O) (st : GroupState O) (member : RolloverMember) :
    GroupState O :=
  match st.member member with
  | none => st
  | some _ =>
    (settle env (updateMember st member fun h => { h with recalled := true, pressed := false })
      none).1

/-- `restore_rollover_member` and the settle it requests. -/
def restoreMember (env : SettleEnv O) (st : GroupState O) (member : RolloverMember) :
    GroupState O :=
  match st.member member with
  | none => st
  | some h =>
    if !h.recalled then st
    else (settle env (updateMember st member fun h => { h with recalled := false }) none).1

/-- The held members on one grabbed interface. -/
def heldOn (st : GroupState O) (runtime : ℕ) : List (HeldMember O) :=
  st.held.filter fun h => h.runtime = runtime

/-- The group without them. -/
def withoutRuntime (st : GroupState O) (runtime : ℕ) : GroupState O :=
  { st with
    held := st.held.filter fun h => h.runtime ≠ runtime
    lost := st.lost \ ((heldOn st runtime).map (·.member)).toFinset
    active :=
      if (heldOn st runtime).any fun h => some h.member = st.active then none else st.active }

/-- `RolloverGroupState.forget_runtime`: the group, the keys to quarantine, settle or not. -/
def forgetGroupRuntime (st : GroupState O) (runtime : ℕ) :
    GroupState O × Finset (ℕ × String) × Bool :=
  if heldOn st runtime = [] then (st, ∅, false)
  else
    (withoutRuntime st runtime,
      ((heldOn st runtime).map fun h => (runtime, h.eventName)).toFinset,
      decide ((withoutRuntime st runtime).nextActive.map (·.member) ≠
        (withoutRuntime st runtime).active))

end Settle

/-! ## The runtime of all groups -/

structure RolloverRuntime (O : Type*) where
  groups : List RolloverGroup
  states : List (GroupState O)

/-- The installed groups, and the keys whose repeats and release are swallowed. -/
structure System (O : Type*) where
  rollover : Option (RolloverRuntime O) := none
  quarantined : Finset (ℕ × String) := ∅

/-- What `_held_input` reads of a grabbed interface. -/
structure DeviceRuntime (O : Type*) where
  id : ℕ
  hardwareId : String
  evdevToButton : Dict String String
  heldSourceKeys : List String
  comboRecalledBindings : Finset String
  heldSourceActions : Finset String
  heldPassthroughKeys : Finset ℤ
  heldSourcePressOrder : Dict String ℕ
  sourceOutput : String → ℤ → Option O

/-- The grabbed interfaces and the table of output codes. -/
structure Devices (O : Type*) where
  runtimes : List (DeviceRuntime O) := []
  resolveOutputCode : String → Option ℤ

def noDevices : Devices O := { resolveOutputCode := fun _ => none }

def sameBehavior (old new : RolloverGroup) : Bool :=
  old.members = new.members ∧ old.winner = new.winner ∧ old.restore = new.restore

/-- `RolloverGroupState.retire`: the keys it quarantines; the group is left empty. -/
def retireKeys (carried : Finset RolloverMember) (st : GroupState O) : Finset (ℕ × String) :=
  ((st.held.filter fun h => h.member ∉ carried && !h.pressed && !h.recalled).map
    fun h => (h.runtime, h.eventName)).toFinset

/-- One held member moved over, unless it is not wanted or there already. -/
def carryOne (old : GroupState O) (st : GroupState O) (h : HeldMember O) : GroupState O :=
  if h.member ∉ st.group.members ∨ (st.member h.member).isSome then st
  else
    { st with
      held := st.held ++ [h]
      lost := if h.member ∈ old.lost then insert h.member st.lost else st.lost
      active := if old.active = some h.member ∧ st.active = none then some h.member
        else st.active }

def sortHeld (st : GroupState O) : GroupState O := { st with held := sortedBy (·.pressSeq) st.held }

/-- `_carry_held_members` -/
def carryHeldMembers (st : GroupState O) (old : List (GroupState O)) : GroupState O :=
  sortHeld (old.foldl (fun st old => old.held.foldl (carryOne old) st) st)

/-- A group's state, kept from an old one of the same behaviour or fresh. -/
inductive Slot (O : Type*)
  | kept (st : GroupState O)
  | fresh (group : RolloverGroup)

/-- The first loop of the constructor: slots in group order, and the old states left. -/
def matchStates : List RolloverGroup → List (GroupState O) → List (Slot O) × List (GroupState O)
  | [], old => ([], old)
  | group :: groups, old =>
    match old.find? fun st => sameBehavior st.group group with
    | none =>
      let (slots, left) := matchStates groups old
      (.fresh group :: slots, left)
    | some st =>
      let (slots, left) := matchStates groups (old.eraseP fun st => sameBehavior st.group group)
      (.kept { st with group := group } :: slots, left)

def slotState (replaced : List (GroupState O)) : Slot O → GroupState O
  | .kept st => st
  | .fresh group => carryHeldMembers { group := group } replaced

def isFresh : Slot O → Bool
  | .kept _ => false
  | .fresh _ => true

section Adopt
variable [PyStr]

/-- `_held_input`: a member key down outside any group, or a key to quarantine. -/
def heldInput (devices : Devices O) (quarantined : Finset (ℕ × String))
    (member : RolloverMember) : Option (HeldMember O) × Finset (ℕ × String) :=
  let keys := devices.runtimes.flatMap fun runtime =>
    if runtime.hardwareId ≠ member.hardwareId then []
    else (runtime.heldSourceKeys.filter fun name =>
      runtime.evdevToButton.get? (PyStr.lower name) = some member.button).map (runtime, ·)
  match keys.head? with
  | none => (none, quarantined)
  | some (runtime, name) =>
    if (runtime.id, name) ∈ quarantined then (none, quarantined)
    else
      match devices.resolveOutputCode name with
      | none => (none, quarantined)
      | some code =>
        let recalled : Bool := normalizeComboEvdev name ∈ runtime.comboRecalledBindings
        let drivesOutput : Bool :=
          name ∈ runtime.heldSourceActions ∨ code ∈ runtime.heldPassthroughKeys
        if !drivesOutput && !recalled then (none, insert (runtime.id, name) quarantined)
        else
          (some
            { member := member
              runtime := runtime.id
              eventCode := code
              eventName := name
              pressSeq := runtime.heldSourcePressOrder.getD name 0
              output := runtime.sourceOutput name code
              pressed := !recalled
              recalled := recalled
              fired := true },
            quarantined)

/-- One round of `adopt_held_keys` over the members of a fresh group. -/
def adoptMember (devices : Devices O) (acc : GroupState O × Finset (ℕ × String))
    (member : RolloverMember) : GroupState O × Finset (ℕ × String) :=
  match acc.1.member member with
  | some _ => acc
  | none =>
    let (held, quarantined) := heldInput devices acc.2 member
    match held with
    | none => (acc.1, quarantined)
    | some h => ({ acc.1 with held := acc.1.held ++ [h] }, quarantined)

def adoptHeldKeys (devices : Devices O) (st : GroupState O) (quarantined : Finset (ℕ × String)) :
    GroupState O × Finset (ℕ × String) :=
  let (st, quarantined) := st.group.members.foldl (adoptMember devices) (st, quarantined)
  (sortHeld st, quarantined)

/-- The states of the slots in order, each with whether a settle is requested for it. -/
def adoptSlots (devices : Devices O) (replaced : List (GroupState O)) :
    List (Slot O) → Finset (ℕ × String) → List (GroupState O × Bool) × Finset (ℕ × String)
  | [], quarantined => ([], quarantined)
  | slot :: slots, quarantined =>
    let (st, quarantined) :=
      if isFresh slot then adoptHeldKeys devices (slotState replaced slot) quarantined
      else (slotState replaced slot, quarantined)
    let (states, quarantined) := adoptSlots devices replaced slots quarantined
    ((st, isFresh slot && decide (st.held ≠ [])) :: states, quarantined)

def oldStates (sys : System O) : List (GroupState O) :=
  match sys.rollover with
  | none => []
  | some previous => previous.states

/-- The members that fresh groups took over from replaced ones. -/
def carriedMembers (replaced : List (GroupState O)) (slots : List (Slot O)) :
    Finset RolloverMember :=
  (((slots.filter isFresh).flatMap fun slot => (slotState replaced slot).held).map
    (·.member)).toFinset

def retireAll (carried : Finset RolloverMember) (states : List (GroupState O))
    (quarantined : Finset (ℕ × String)) : Finset (ℕ × String) :=
  states.foldl (fun quarantined st => quarantined ∪ retireKeys carried st) quarantined

/-- The states under new groups, with the settles requested, and the quarantined keys. -/
def replaceStates (old : List (GroupState O)) (groups : List RolloverGroup) (devices : Devices O)
    (quarantined : Finset (ℕ × String)) : List (GroupState O × Bool) × Finset (ℕ × String) :=
  let (slots, replaced) := matchStates groups old
  adoptSlots devices replaced slots
    (retireAll (carriedMembers replaced slots) replaced quarantined)

/-- `replace_rollover_groups`; `finish` is what becomes of the states that need a settle. -/
def replaceRolloverGroups (finish : GroupState O → GroupState O) (sys : System O)
    (groups : List RolloverGroup) (devices : Devices O) : System O :=
  if sys.rollover.any fun previous => previous.groups = groups then sys
  else if groups = [] then
    { rollover := none, quarantined := retireAll ∅ (oldStates sys) sys.quarantined }
  else
    let (states, quarantined) := replaceStates (oldStates sys) groups devices sys.quarantined
    { rollover := some
        { groups := groups
          states := states.map fun p => if p.2 then finish p.1 else p.1 }
      quarantined := quarantined }

end Adopt

/-! ## Operations -/

/-- Change the first group that has the member; `_by_member` finds that one. -/
def onGroupOf (member : RolloverMember) (f : GroupState O → GroupState O) :
    List (GroupState O) → List (GroupState O)
  | [] => []
  | st :: states => if member ∈ st.group.members then f st :: states else st :: onGroupOf member f states

def System.onGroup (sys : System O) (member : RolloverMember)
    (f : GroupState O → GroupState O) : System O :=
  { sys with rollover := sys.rollover.map fun rollover =>
      { rollover with states := onGroupOf member f rollover.states } }

inductive RolloverOp (O : Type*)
  | memberEvent (env : SettleEnv O) (member : RolloverMember) (runtime : ℕ) (eventCode : ℤ)
      (eventName : String) (value : ℤ) (pressSeq : ℕ)
  | consumedRelease (env : SettleEnv O) (member : RolloverMember) (runtime : ℕ)
      (eventName : String)
  | recall (env : SettleEnv O) (member : RolloverMember)
  | restore (env : SettleEnv O) (member : RolloverMember)
  | forgetRuntime (env : SettleEnv O) (runtime : ℕ)
  | replaceGroups (env : SettleEnv O) (groups : List RolloverGroup) (devices : Devices O)

section Operations
variable [DecidableEq O]

/-- A group after a device is gone, settled if that is requested. -/
def forgetAndSettle (env : SettleEnv O) (runtime : ℕ) (st : GroupState O) : GroupState O :=
  let (st, _, resettle) := forgetGroupRuntime st runtime
  if resettle then (settle env st none).1 else st

/-- `forget_runtime_rollover` and the settles it requests. -/
def forgetRuntime (env : SettleEnv O) (sys : System O) (runtime : ℕ) : System O :=
  let cleared := sys.quarantined.filter fun key => key.1 ≠ runtime
  { rollover := sys.rollover.map fun rollover =>
      { rollover with states := rollover.states.map (forgetAndSettle env runtime) }
    quarantined := (oldStates sys).foldl
      (fun quarantined st => quarantined ∪ (forgetGroupRuntime st runtime).2.1) cleared }

variable [PyStr]

/- Each operation with the settles it asks for. A quarantined key reaches its
group again with its next press; a consumed release ends the quarantine. -/
def step (sys : System O) : RolloverOp O → Option (System O)
  | .memberEvent env member runtime eventCode eventName value pressSeq =>
    let sys' := { sys with quarantined := sys.quarantined.erase (runtime, eventName) }
    let apply := fun st : GroupState O =>
      applyMemberEvent env st member runtime eventCode eventName value pressSeq
    some <|
      if (runtime, eventName) ∈ sys.quarantined then
        if value = 0 then sys' else if value ≠ 1 then sys else sys'.onGroup member apply
      else sys.onGroup member apply
  | .consumedRelease env member runtime eventName =>
    let sys' := { sys with quarantined := sys.quarantined.erase (runtime, eventName) }
    some (sys'.onGroup member fun st => runConsumedRelease env st member)
  | .recall env member => some (sys.onGroup member fun st => recallMember env st member)
  | .restore env member => some (sys.onGroup member fun st => restoreMember env st member)
  | .forgetRuntime env runtime => some (forgetRuntime env sys runtime)
  | .replaceGroups env groups devices =>
    some (replaceRolloverGroups (fun st => (settle env st none).1) sys groups devices)

end Operations

end Keymasq.Rollover.Groups
