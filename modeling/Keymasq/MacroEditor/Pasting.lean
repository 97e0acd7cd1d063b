import Keymasq.Foundation.Lists
import Keymasq.MacroEditor.Ranges

/-!
# Pasting

A copied section is put behind what there is at its time, or, with insertion, between: what
comes later makes room, and the order numbers leave a gap for those of the section.
-/

namespace Keymasq.MacroEditor.Pasting
open Foundation Lists Sorting Ranges

/-! ## Making room -/

/- What starts at the insertion point or later moves, what is held across it gets longer. -/
def roomForEvent (atUs durationUs : ℤ) (e : EditableEvent) : EditableEvent :=
  if atUs ≤ e.pressTUs then
    { e with pressTUs := e.pressTUs + durationUs, releaseTUs := e.releaseTUs + durationUs }
  else if atUs < e.releaseTUs then { e with releaseTUs := e.releaseTUs + durationUs }
  else e

def roomForRaw (atUs durationUs : ℤ) (e : OrderedEvent) : OrderedEvent :=
  if atUs ≤ e.event.tUs then { e with event := shiftEvent durationUs e.event } else e

def roomForMove (atUs durationUs : ℤ) (m : EditableMove) : EditableMove :=
  if atUs ≤ m.tUs then { m with tUs := m.tUs + durationUs } else m

def roomForControl (atUs durationUs : ℤ) (c : EditableControl) : EditableControl :=
  if atUs ≤ c.tUs then { c with tUs := c.tUs + durationUs } else c

def makeRoom (atUs durationUs : ℤ) (lists : TimelineLists) : TimelineLists :=
  { events := lists.events.map (roomForEvent atUs durationUs)
    relative := lists.relative.map (roomForRaw atUs durationUs)
    raw := lists.raw.map (roomForRaw atUs durationUs)
    moves := lists.moves.map (roomForMove atUs durationUs)
    controls := lists.controls.map (roomForControl atUs durationUs) }

/-! ## Order numbers -/

def existingOrders (lists : TimelineLists) : List (Option ℤ) :=
  (lists.events.flatMap fun e => [e.originalPressOrder, e.originalReleaseOrder]) ++
    lists.relative.map (·.order) ++ lists.raw.map (·.order) ++
      lists.moves.map (·.originalOrder) ++ lists.controls.map (·.originalOrder)

/- The number that is there, or the next one. -/
def numberOrder (nextOrder : ℤ) (order : Option ℤ) : Option ℤ × ℤ :=
  match order with
  | none => (some nextOrder, nextOrder + 1)
  | some number => (some number, nextOrder)

def numberEvent (nextOrder : ℤ) (e : EditableEvent) : EditableEvent × ℤ :=
  let press := numberOrder nextOrder e.originalPressOrder
  let release :=
    if e.evType = evKey then numberOrder press.2 e.originalReleaseOrder
    else (e.originalReleaseOrder, press.2)
  ({ e with originalPressOrder := press.1, originalReleaseOrder := release.1 }, release.2)

def numberRaw (nextOrder : ℤ) (e : OrderedEvent) : OrderedEvent × ℤ :=
  ({ e with order := (numberOrder nextOrder e.order).1 }, (numberOrder nextOrder e.order).2)

def numberMove (nextOrder : ℤ) (m : EditableMove) : EditableMove × ℤ :=
  ({ m with originalOrder := (numberOrder nextOrder m.originalOrder).1 },
    (numberOrder nextOrder m.originalOrder).2)

def numberControl (nextOrder : ℤ) (c : EditableControl) : EditableControl × ℤ :=
  ({ c with originalOrder := (numberOrder nextOrder c.originalOrder).1 },
    (numberOrder nextOrder c.originalOrder).2)

/- The lists are numbered in the order in which their events are written. -/
def assignMissingOrders (lists : TimelineLists) : TimelineLists × ℤ :=
  let events := thread numberEvent (maxOrder (existingOrders lists) + 1) lists.events
  let relative := thread numberRaw events.2 lists.relative
  let moves := thread numberMove relative.2 lists.moves
  let controls := thread numberControl moves.2 lists.controls
  let raw := thread numberRaw controls.2 lists.raw
  ({ events := events.1, relative := relative.1, raw := raw.1, moves := moves.1,
     controls := controls.1 }, raw.2)

/- Whether a slot comes after what is inserted, and its number. -/
def slotKey (endUs stamp : ℤ) (order : Option ℤ) : Bool × ℤ :=
  (decide (endUs ≤ stamp), order.getD 0)

def eventKeys (endUs : ℤ) (e : EditableEvent) : List (Bool × ℤ) :=
  slotKey endUs e.pressTUs e.originalPressOrder ::
    if e.evType = evKey then [slotKey endUs e.releaseTUs e.originalReleaseOrder] else []

def rawKey (endUs : ℤ) (e : OrderedEvent) : Bool × ℤ := slotKey endUs e.event.tUs e.order
def moveKey (endUs : ℤ) (m : EditableMove) : Bool × ℤ := slotKey endUs m.tUs m.originalOrder
def controlKey (endUs : ℤ) (c : EditableControl) : Bool × ℤ := slotKey endUs c.tUs c.originalOrder

def insertKeys (endUs : ℤ) (lists : TimelineLists) : List (Bool × ℤ) :=
  lists.events.flatMap (eventKeys endUs) ++ (lists.relative.map (rawKey endUs) ++
    (lists.raw.map (rawKey endUs) ++ (lists.moves.map (moveKey endUs) ++
      lists.controls.map (controlKey endUs))))

/- The new number of each slot: its place in the sorted slots, behind the gap for those that
come after what is inserted. -/
def compacted (count : ℕ) (keys : List (Bool × ℤ)) : List ℤ :=
  let sorted := sortedOn (fun entry : (Bool × ℤ) × ℕ => toLex entry.1) keys.zipIdx
  keys.zipIdx.map fun entry =>
    ((sorted.idxOf entry + if entry.1.1 = true then count else 0 : ℕ) : ℤ)

def renumberEvent (numbers : List ℤ) (e : EditableEvent) : EditableEvent × List ℤ :=
  if e.evType = evKey then
    ({ e with originalPressOrder := numbers.head?, originalReleaseOrder := numbers.tail.head? },
      numbers.tail.tail)
  else ({ e with originalPressOrder := numbers.head? }, numbers.tail)

def renumberRaw (numbers : List ℤ) (e : OrderedEvent) : OrderedEvent × List ℤ :=
  ({ e with order := numbers.head? }, numbers.tail)

def renumberMove (numbers : List ℤ) (m : EditableMove) : EditableMove × List ℤ :=
  ({ m with originalOrder := numbers.head? }, numbers.tail)

def renumberControl (numbers : List ℤ) (c : EditableControl) : EditableControl × List ℤ :=
  ({ c with originalOrder := numbers.head? }, numbers.tail)

/- `_reserve_insert_orders`: each slot gets its new number, in the order of the slots. -/
def reserveInsertOrders (lists : TimelineLists) (endUs : ℤ) (count : ℕ) : TimelineLists × ℤ :=
  let keys := insertKeys endUs lists
  let events := thread renumberEvent (compacted count keys) lists.events
  let relative := thread renumberRaw events.2 lists.relative
  let raw := thread renumberRaw relative.2 lists.raw
  let moves := thread renumberMove raw.2 lists.moves
  let controls := thread renumberControl moves.2 lists.controls
  ({ events := events.1, relative := relative.1, raw := raw.1, moves := moves.1,
     controls := controls.1 }, (keys.countP fun key => !key.1 : ℕ))

/-! ## The section -/

def offsetEvent (nextOrder : ℤ) (e : EditableEvent) : EditableEvent :=
  { e with
    originalPressOrder := e.originalPressOrder.map (· + nextOrder)
    originalReleaseOrder := e.originalReleaseOrder.map (· + nextOrder) }

def offsetRaw (nextOrder : ℤ) (e : OrderedEvent) : OrderedEvent :=
  { e with order := some (e.order.getD 0 + nextOrder) }

def offsetMove (nextOrder : ℤ) (m : EditableMove) : EditableMove :=
  { m with originalOrder := m.originalOrder.map (· + nextOrder) }

def offsetControl (nextOrder : ℤ) (c : EditableControl) : EditableControl :=
  { c with originalOrder := c.originalOrder.map (· + nextOrder) }

def offset (nextOrder : ℤ) (lists : TimelineLists) : TimelineLists :=
  { events := lists.events.map (offsetEvent nextOrder)
    relative := lists.relative.map (offsetRaw nextOrder)
    raw := lists.raw.map (offsetRaw nextOrder)
    moves := lists.moves.map (offsetMove nextOrder)
    controls := lists.controls.map (offsetControl nextOrder) }

def extend (lists added : TimelineLists) : TimelineLists :=
  { events := lists.events ++ added.events
    relative := lists.relative ++ added.relative
    raw := lists.raw ++ added.raw
    moves := lists.moves ++ added.moves
    controls := lists.controls ++ added.controls }

/- The lists with the section in them, and its items. -/
def paste (fragment : Fragment) (lists : TimelineLists) (atUs : ℤ) (insert : Bool) :
    TimelineLists × List Item :=
  let atUs := max 0 atUs
  let roomy := if insert = true then makeRoom atUs fragment.durationUs lists else lists
  let assigned := assignMissingOrders roomy
  let reserved :=
    if insert = true then
      reserveInsertOrders assigned.1 (atUs + fragment.durationUs) fragment.events.length
    else assigned
  let added := offset reserved.2 (parseEvents (fragment.events.map (shiftEvent atUs)))
  (extend reserved.1 added, added.items)

/-! ## The events with their items -/

/-- An event as it is written, and from when to when its item goes. -/
structure Slot where
  entry : OrderedEvent
  start : ℤ
  stop : ℤ

def slot (item : Item) (entry : OrderedEvent) : Slot := ⟨entry, item.start, item.stop⟩

/- In the order in which they are written. -/
def writtenSlots (lists : TimelineLists) : List Slot :=
  (lists.events.flatMap fun e => e.written.map (slot (.event e))) ++
    lists.relative.map (fun e => slot (.raw e) e) ++
      lists.moves.map (fun m => slot (.move m) m.written) ++
        lists.controls.map (fun c => slot (.control c) c.written) ++
          lists.raw.map fun e => slot (.raw e) e

def slotOrder (maxOriginalOrder : ℤ) (s : Slot × ℕ) : ℤ :=
  resolvedOrder maxOriginalOrder (s.1.entry, s.2)

def slotKeyIn (maxOriginalOrder : ℤ) (s : Slot × ℕ) : ℤ ×ₗ ℤ :=
  toLex (s.1.entry.event.tUs, slotOrder maxOriginalOrder s)

/-- The events in the order in which they are played. -/
def timeline (lists : TimelineLists) : List Slot :=
  let maxOriginalOrder := maxOrder (lists.written.map (·.order))
  (sortedOn (slotKeyIn maxOriginalOrder) (writtenSlots lists).zipIdx).map Prod.fst

theorem entry_writtenSlots (lists : TimelineLists) :
    (writtenSlots lists).map Slot.entry = lists.written := by
  have hsame : ∀ item, Slot.entry ∘ slot item = id := fun _ => rfl
  have hraw : Slot.entry ∘ (fun e : OrderedEvent => slot (.raw e) e) = id := rfl
  have hmove : Slot.entry ∘ (fun m : EditableMove => slot (.move m) m.written) =
      EditableMove.written := rfl
  have hcontrol : Slot.entry ∘ (fun c : EditableControl => slot (.control c) c.written) =
      EditableControl.written := rfl
  unfold writtenSlots TimelineLists.written
  simp only [List.map_append, List.map_flatMap, List.map_map, hsame, hraw, hmove, hcontrol,
    List.map_id]

/-- What is saved is the timeline. -/
theorem reconstructEvents_eq_timeline (lists : TimelineLists) :
    reconstructEvents lists = (timeline lists).map fun s => s.entry.event := by
  have hzip : lists.written.zipIdx = (writtenSlots lists).zipIdx.map fun s => (s.1.entry, s.2) := by
    rw [← entry_writtenSlots, List.zipIdx_map]
    rfl
  unfold reconstructEvents timeline
  dsimp only
  rw [hzip, sortedOn_map, List.map_map, List.map_map]
  rfl

/-! ## Before and after the insertion point -/

/- Before it, or the release at it of what was pressed before. -/
def early (atUs : ℤ) (s : Slot) : Bool :=
  decide (s.entry.event.tUs < atUs) ||
    (decide (s.entry.event.tUs = atUs) && decide (s.start < atUs))

/- A rapid-fire block that is held across the insertion point gets longer. -/
def kept (atUs durationUs : ℤ) (s : Slot) : MacroEvent :=
  match s.entry.event.action with
  | .rapidfire heldUs holdMs waitMs =>
    if atUs < s.stop then
      { s.entry.event with action := .rapidfire (heldUs + durationUs) holdMs waitMs }
    else s.entry.event
  | _ => s.entry.event

def roomy (atUs durationUs : ℤ) (s : Slot) : MacroEvent :=
  if early atUs s = true then kept atUs durationUs s else shiftEvent durationUs s.entry.event

/-- No key is released before it is pressed. -/
def Lasting (lists : TimelineLists) : Prop := ∀ e ∈ lists.events, e.pressTUs ≤ e.releaseTUs

variable {atUs durationUs : ℤ} {s : Slot}

theorem early_iff (s : Slot) :
    early atUs s = true ↔
      s.entry.event.tUs < atUs ∨ s.entry.event.tUs = atUs ∧ s.start < atUs := by
  unfold early
  rw [Bool.or_eq_true, Bool.and_eq_true, decide_eq_true_eq, decide_eq_true_eq, decide_eq_true_eq]

/- The events of an item lie between its press and its release. -/
theorem written_bounds {e : EditableEvent} (h : e.pressTUs ≤ e.releaseTUs) {entry : OrderedEvent}
    (hentry : entry ∈ e.written) :
    e.pressTUs ≤ entry.event.tUs ∧ entry.event.tUs ≤ e.releaseTUs := by
  unfold EditableEvent.written at hentry
  dsimp only at hentry
  split at hentry
  · obtain rfl := List.mem_singleton.mp hentry
    exact ⟨le_rfl, h⟩
  · split at hentry
    · rcases List.mem_cons.mp hentry with rfl | hentry
      · exact ⟨le_rfl, h⟩
      · obtain rfl := List.mem_singleton.mp hentry
        exact ⟨h, le_rfl⟩
    · obtain rfl := List.mem_singleton.mp hentry
      exact ⟨le_rfl, h⟩

/- What belongs to an item that starts at the insertion point or later moves. -/
theorem roomy_late (h : atUs ≤ s.start) (hle : atUs ≤ s.entry.event.tUs) :
    roomy atUs durationUs s = shiftEvent durationUs s.entry.event := by
  unfold roomy
  rw [if_neg]
  rw [early_iff]
  omega

/- So does what comes behind it. -/
theorem roomy_behind (h : atUs < s.entry.event.tUs) :
    roomy atUs durationUs s = shiftEvent durationUs s.entry.event := by
  unfold roomy
  rw [if_neg]
  rw [early_iff]
  omega

theorem roomy_before (h : s.start < atUs) (hle : s.entry.event.tUs ≤ atUs) :
    roomy atUs durationUs s = kept atUs durationUs s := by
  unfold roomy
  rw [if_pos]
  rw [early_iff]
  omega

theorem kept_over (h : s.stop ≤ atUs) : kept atUs durationUs s = s.entry.event := by
  unfold kept
  split
  · exact if_neg (not_lt.mpr h)
  · rfl

theorem kept_held {heldUs holdMs waitMs : ℤ}
    (haction : s.entry.event.action = .rapidfire heldUs holdMs waitMs) (h : atUs < s.stop) :
    kept atUs durationUs s =
      { s.entry.event with action := .rapidfire (heldUs + durationUs) holdMs waitMs } := by
  unfold kept
  rw [haction]
  exact if_pos h

theorem kept_plain (h : s.entry.event.action = .none) : kept atUs durationUs s = s.entry.event := by
  unfold kept
  rw [h]

theorem written_roomForEvent {e : EditableEvent} (h : e.pressTUs ≤ e.releaseTUs)
    (hduration : 0 ≤ durationUs) :
    (roomForEvent atUs durationUs e).written =
      e.written.map fun entry =>
        ⟨roomy atUs durationUs (slot (.event e) entry), entry.order⟩ := by
  unfold roomForEvent
  by_cases hpress : atUs ≤ e.pressTUs
  · have hlate : ∀ entry : OrderedEvent, e.pressTUs ≤ entry.event.tUs →
        roomy atUs durationUs (slot (.event e) entry) = shiftEvent durationUs entry.event :=
      fun entry hle => roomy_late hpress (hpress.trans hle)
    rw [if_pos hpress]
    unfold EditableEvent.written EditableEvent.rapidfire
    dsimp only
    split
    · have hheld : e.releaseTUs + durationUs - (e.pressTUs + durationUs) =
          e.releaseTUs - e.pressTUs := by omega
      rw [List.map_singleton, hlate _ le_rfl, hheld]
      rfl
    · split
      · rw [List.map_cons, List.map_singleton, hlate _ le_rfl, hlate _ h]
        rfl
      · rw [List.map_singleton, hlate _ le_rfl]
        rfl
  rw [if_neg hpress]
  have hstart : e.pressTUs < atUs := not_le.mp hpress
  have hbefore : ∀ entry : OrderedEvent, entry.event.tUs ≤ atUs →
      roomy atUs durationUs (slot (.event e) entry) =
        kept atUs durationUs (slot (.event e) entry) :=
    fun entry hle => roomy_before hstart hle
  by_cases hrelease : atUs < e.releaseTUs
  · rw [if_pos hrelease]
    unfold EditableEvent.written EditableEvent.rapidfire
    dsimp only
    split
    · have hlonger : max 0 (e.releaseTUs + durationUs - e.pressTUs) =
          max 0 (e.releaseTUs - e.pressTUs) + durationUs := by omega
      rw [List.map_singleton, hbefore _ hstart.le, kept_held rfl hrelease, hlonger]
      rfl
    · split
      · have hbehind : ∀ entry : OrderedEvent, entry.event.tUs = e.releaseTUs →
            roomy atUs durationUs (slot (.event e) entry) = shiftEvent durationUs entry.event :=
          fun entry heq => roomy_behind (heq ▸ hrelease)
        rw [List.map_cons, List.map_singleton, hbefore _ hstart.le, hbehind _ rfl,
          kept_plain rfl]
        rfl
      · rw [List.map_singleton, hbefore _ hstart.le, kept_plain rfl]
        rfl
  · rw [if_neg hrelease]
    have hsame : ∀ entry ∈ e.written,
        roomy atUs durationUs (slot (.event e) entry) = entry.event := by
      intro entry hentry
      have htime : entry.event.tUs ≤ e.releaseTUs := (written_bounds h hentry).2
      rw [hbefore entry (htime.trans (not_lt.mp hrelease))]
      exact kept_over (not_lt.mp hrelease)
    rw [List.map_congr_left fun entry hentry =>
      congrArg (fun event => OrderedEvent.mk event entry.order) (hsame entry hentry)]
    exact (List.map_id e.written).symm

/- The other items are at one time. -/
theorem roomy_instant (hstart : s.start = s.entry.event.tUs)
    (hstop : s.entry.event.tUs < atUs → s.stop ≤ atUs) :
    roomy atUs durationUs s =
      if atUs ≤ s.entry.event.tUs then shiftEvent durationUs s.entry.event
      else s.entry.event := by
  by_cases hlate : atUs ≤ s.entry.event.tUs
  · rw [if_pos hlate, roomy_late (hstart ▸ hlate) hlate]
  · rw [if_neg hlate, roomy_before (by omega) (by omega), kept_over (hstop (by omega))]

theorem roomForRaw_eq (e : OrderedEvent) :
    roomForRaw atUs durationUs e = ⟨roomy atUs durationUs (slot (.raw e) e), e.order⟩ := by
  rw [roomy_instant rfl fun hlt => hlt.le]
  unfold roomForRaw slot
  dsimp only
  split
  · rfl
  · rfl

theorem written_roomForMove (m : EditableMove) :
    (roomForMove atUs durationUs m).written =
      ⟨roomy atUs durationUs (slot (.move m) m.written), m.written.order⟩ := by
  have hstop : m.tUs < atUs → m.tUs + (if m.mode = .abs then 1 else 0) ≤ atUs := by
    intro hlt
    split <;> omega
  rw [roomy_instant rfl hstop]
  unfold roomForMove
  by_cases hlate : atUs ≤ m.tUs
  · rw [if_pos hlate]
    exact (congrArg (fun event => OrderedEvent.mk event m.originalOrder) (if_pos hlate)).symm
  · rw [if_neg hlate]
    exact (congrArg (fun event => OrderedEvent.mk event m.originalOrder) (if_neg hlate)).symm

theorem written_roomForControl (c : EditableControl) :
    (roomForControl atUs durationUs c).written =
      ⟨roomy atUs durationUs (slot (.control c) c.written), c.written.order⟩ := by
  rw [roomy_instant rfl fun hlt => hlt.le]
  unfold roomForControl
  by_cases hlate : atUs ≤ c.tUs
  · rw [if_pos hlate]
    exact (congrArg (fun event => OrderedEvent.mk event c.originalOrder) (if_pos hlate)).symm
  · rw [if_neg hlate]
    exact (congrArg (fun event => OrderedEvent.mk event c.originalOrder) (if_neg hlate)).symm

/-- What is written once there is room: each event where it was, or later. -/
theorem written_makeRoom {lists : TimelineLists} (h : Lasting lists) (hduration : 0 ≤ durationUs) :
    (makeRoom atUs durationUs lists).written =
      (writtenSlots lists).map fun s => ⟨roomy atUs durationUs s, s.entry.order⟩ := by
  have hevents : (lists.events.map (roomForEvent atUs durationUs)).flatMap EditableEvent.written =
      lists.events.flatMap fun e => (e.written.map (slot (.event e))).map fun s =>
        ⟨roomy atUs durationUs s, s.entry.order⟩ := by
    rw [List.flatMap_map]
    refine List.flatMap_congr fun e he => ?_
    rw [written_roomForEvent (h e he) hduration, List.map_map]
    rfl
  have hraw : roomForRaw atUs durationUs = fun e : OrderedEvent =>
      ⟨roomy atUs durationUs (slot (.raw e) e), e.order⟩ := funext roomForRaw_eq
  have hmove : EditableMove.written ∘ roomForMove atUs durationUs = fun m : EditableMove =>
      ⟨roomy atUs durationUs (slot (.move m) m.written), m.written.order⟩ :=
    funext written_roomForMove
  have hcontrol : EditableControl.written ∘ roomForControl atUs durationUs =
      fun c : EditableControl =>
        ⟨roomy atUs durationUs (slot (.control c) c.written), c.written.order⟩ :=
    funext written_roomForControl
  unfold makeRoom writtenSlots TimelineLists.written
  dsimp only
  rw [List.map_append, List.map_append, List.map_append, List.map_append, List.map_flatMap,
    hevents, hraw, List.map_map, List.map_map, List.map_map, List.map_map, List.map_map,
    List.map_map, hmove, hcontrol]
  rfl

end Keymasq.MacroEditor.Pasting
