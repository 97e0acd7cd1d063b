import Keymasq.Foundation.Dict
import Keymasq.Foundation.Transition

/-!
# Input blocks of macros

An instance may block the keyboard and mouse movement while it plays. It takes
its blocks when its task starts and when it resumes, and gives them back when it
is paused and when its task ends. A control action may inhibit the mouse too.
Cancelling all playback waits for the tasks and then resets the shared counters.
-/

namespace Keymasq.Macros.Blocks
open Foundation Foundation.Transition

/-- `pause` is `none` without a pause state, else whether the instance is paused. The owned blocks
are the local flags of the task. -/
structure Instance where
  blockMouseMovement : Bool
  blockKeyboard : Bool
  pause : Option Bool
  playing : Bool := false
  ownsMouseInhibit : Bool := false
  ownsKeyboardBlock : Bool := false
  deriving DecidableEq

/-- The instances whose task has not ended, the control actions that inhibit the mouse, and the
calls that are about to reset the counters. -/
structure State where
  instanceSeq : ℕ := 0
  instances : Dict ℕ Instance := ∅
  controlSeq : ℕ := 0
  inhibiting : Finset ℕ := ∅
  keyboardBlockCount : ℕ := 0
  mouseInhibitCount : ℕ := 0
  mouseRelSuppressed : Bool := false
  watchdog : Bool := false
  cancelling : ℕ := 0

inductive Op
  | start (blockMouseMovement blockKeyboard : Bool) (pause : Option Bool)
  | begin (instanceId : ℕ)
  | pause (instanceId : ℕ)
  | resume (instanceId : ℕ)
  | renew (instanceId : ℕ)
  | inhibit (instanceId : ℕ)
  | inhibitEnds (control : ℕ)
  | watchdog
  | unwind (instanceId : ℕ)
  | reap (instanceId : ℕ)
  | cancelPlayback
  | cancelPlaybackEnds

/-! ## Mouse inhibition -/

def beginMouseRelSuppression (s : State) : State :=
  { s with mouseRelSuppressed := true, watchdog := true }

def endMouseRelSuppression (s : State) : State :=
  { s with mouseRelSuppressed := false, watchdog := false }

def acquireMacroMouseInhibit (s : State) : State :=
  beginMouseRelSuppression { s with mouseInhibitCount := s.mouseInhibitCount + 1 }

def releaseMacroMouseInhibit (s : State) : State :=
  let s := if 0 < s.mouseInhibitCount then
    { s with mouseInhibitCount := s.mouseInhibitCount - 1 } else s
  if s.mouseInhibitCount = 0 then endMouseRelSuppression s else s

/-- The watchdog that is armed runs out. -/
def mouseRelSuppressionWatchdog (s : State) : State :=
  { s with
    mouseRelSuppressed := if s.mouseInhibitCount = 0 then false else s.mouseRelSuppressed
    watchdog := false }

/-! ## The blocks of an instance -/

/-- `block_input` of the task with the given flags. -/
def blockInput (s : State) (i : ℕ) (inst : Instance) : State :=
  let s := if inst.blockMouseMovement ∧ inst.ownsMouseInhibit = false then
    acquireMacroMouseInhibit s else s
  let s := if inst.blockKeyboard ∧ inst.ownsKeyboardBlock = false then
    { s with keyboardBlockCount := s.keyboardBlockCount + 1 } else s
  { s with
    instances := s.instances.insert i { inst with
      ownsMouseInhibit := inst.ownsMouseInhibit || inst.blockMouseMovement
      ownsKeyboardBlock := inst.ownsKeyboardBlock || inst.blockKeyboard } }

/-- `unblock_input`; the counter of the keyboard does not go below zero. -/
def unblockInput (s : State) (i : ℕ) (inst : Instance) : State :=
  let s := if inst.ownsMouseInhibit then releaseMacroMouseInhibit s else s
  let s := if inst.ownsKeyboardBlock then
    { s with keyboardBlockCount := s.keyboardBlockCount - 1 } else s
  { s with
    instances := s.instances.insert i
      { inst with ownsMouseInhibit := false, ownsKeyboardBlock := false } }

/- The callbacks of a pause are set by the first step of the task. `unwind` is the end of a task
for whatever reason; a task that is cancelled before its first step is reaped. Other tasks run
while `cancelPlayback` waits. -/
def step (s : State) : Op → Option State
  | .start blockMouseMovement blockKeyboard pause =>
    some { s with
      instanceSeq := s.instanceSeq + 1
      instances := s.instances.insert (s.instanceSeq + 1)
        { blockMouseMovement, blockKeyboard, pause } }
  | .begin i =>
    match s.instances.get? i with
    | none => none
    | some inst =>
      if inst.playing then none
      else
        let inst := { inst with playing := true }
        if inst.pause = some true then some { s with instances := s.instances.insert i inst }
        else some (blockInput s i inst)
  | .pause i =>
    match s.instances.get? i with
    | none => none
    | some inst =>
      if inst.pause = some false then
        let inst := { inst with pause := some true }
        if inst.playing then some (unblockInput s i inst)
        else some { s with instances := s.instances.insert i inst }
      else none
  | .resume i =>
    match s.instances.get? i with
    | none => none
    | some inst =>
      if inst.pause = some true then
        let inst := { inst with pause := some false }
        if inst.playing then some (blockInput s i inst)
        else some { s with instances := s.instances.insert i inst }
      else none
  | .renew i =>
    match s.instances.get? i with
    | none => none
    | some inst =>
      if inst.playing ∧ inst.blockMouseMovement then some (beginMouseRelSuppression s) else none
  | .inhibit i =>
    match s.instances.get? i with
    | none => none
    | some inst =>
      if inst.playing then
        some { acquireMacroMouseInhibit s with
          controlSeq := s.controlSeq + 1
          inhibiting := insert (s.controlSeq + 1) s.inhibiting }
      else none
  | .inhibitEnds control =>
    if control ∈ s.inhibiting then
      some { releaseMacroMouseInhibit s with inhibiting := s.inhibiting.erase control }
    else none
  | .watchdog => if s.watchdog then some (mouseRelSuppressionWatchdog s) else none
  | .unwind i =>
    match s.instances.get? i with
    | none => none
    | some inst =>
      if inst.playing then
        let s := unblockInput s i inst
        some { s with instances := s.instances.erase i }
      else none
  | .reap i =>
    match s.instances.get? i with
    | none => none
    | some inst =>
      if inst.playing then none else some { s with instances := s.instances.erase i }
  | .cancelPlayback => some { s with cancelling := s.cancelling + 1 }
  | .cancelPlaybackEnds =>
    if 0 < s.cancelling then
      some (endMouseRelSuppression
        { s with mouseInhibitCount := 0, keyboardBlockCount := 0, cancelling := s.cancelling - 1 })
    else none

def macroKeyboardBlocked (s : State) : Bool := 0 < s.keyboardBlockCount

/-! ## Balance -/

/-- The instance is live and not paused. -/
def Instance.running (inst : Instance) : Bool := inst.playing && inst.pause != some true

def Instance.blocksKeyboard (inst : Instance) : Bool := inst.running && inst.blockKeyboard

def Instance.blocksMouse (inst : Instance) : Bool := inst.running && inst.blockMouseMovement

def keyboardBlockers (s : State) : Finset ℕ := s.instances.keysWhere Instance.blocksKeyboard

def mouseBlockers (s : State) : Finset ℕ := s.instances.keysWhere Instance.blocksMouse

/-- The counters are not reset under a live instance or action that blocks, and an instance that
is paused does not renew the suppression. -/
def Unshared (s : State) : Op → Prop
  | .cancelPlaybackEnds => keyboardBlockers s = ∅ ∧ mouseBlockers s = ∅ ∧ s.inhibiting = ∅
  | .renew i => i ∈ mouseBlockers s
  | _ => True

instance (s : State) (op : Op) : Decidable (Unshared s op) := by
  unfold Unshared
  cases op with
  | cancelPlaybackEnds => infer_instance
  | renew i => infer_instance
  | _ => exact inferInstanceAs (Decidable True)

/-- The flags of a task are what it blocks, and the counters count the blocks. -/
structure Balanced (s : State) : Prop where
  fresh : ∀ i, s.instanceSeq < i → s.instances.get? i = none
  freshControl : ∀ c ∈ s.inhibiting, c ≤ s.controlSeq
  owns : ∀ i inst, s.instances.get? i = some inst →
    inst.ownsKeyboardBlock = inst.blocksKeyboard ∧ inst.ownsMouseInhibit = inst.blocksMouse
  keyboard : s.keyboardBlockCount = (keyboardBlockers s).card
  mouse : s.mouseInhibitCount = (mouseBlockers s).card + s.inhibiting.card
  suppressed : s.mouseRelSuppressed = true ↔ 0 < s.mouseInhibitCount

section Counters

variable {s t : State} {i : ℕ} {inst old new : Instance}

/-- What the blocks of one instance leave as it is. -/
structure SameInstances (s t : State) : Prop where
  instanceSeq : t.instanceSeq = s.instanceSeq
  controlSeq : t.controlSeq = s.controlSeq
  inhibiting : t.inhibiting = s.inhibiting

theorem release_frame (s : State) :
    (releaseMacroMouseInhibit s).instances = s.instances ∧
      SameInstances s (releaseMacroMouseInhibit s) ∧
      (releaseMacroMouseInhibit s).keyboardBlockCount = s.keyboardBlockCount ∧
      (releaseMacroMouseInhibit s).mouseInhibitCount = s.mouseInhibitCount - 1 := by
  unfold releaseMacroMouseInhibit
  by_cases hpos : 0 < s.mouseInhibitCount
  · simp only [hpos, if_true]
    split
    · exact ⟨rfl, ⟨rfl, rfl, rfl⟩, rfl, rfl⟩
    · exact ⟨rfl, ⟨rfl, rfl, rfl⟩, rfl, rfl⟩
  · simp only [hpos, if_false]
    have hzero : s.mouseInhibitCount - 1 = s.mouseInhibitCount := by omega
    split
    · exact ⟨rfl, ⟨rfl, rfl, rfl⟩, rfl, hzero.symm⟩
    · exact ⟨rfl, ⟨rfl, rfl, rfl⟩, rfl, hzero.symm⟩

theorem release_suppressed (h : s.mouseRelSuppressed = true ↔ 0 < s.mouseInhibitCount) :
    (releaseMacroMouseInhibit s).mouseRelSuppressed = true ↔
      0 < (releaseMacroMouseInhibit s).mouseInhibitCount := by
  unfold releaseMacroMouseInhibit
  by_cases hpos : 0 < s.mouseInhibitCount
  · simp only [hpos, if_true]
    by_cases hzero : s.mouseInhibitCount - 1 = 0
    · simp [hzero, endMouseRelSuppression]
    · simp only [hzero, if_false]
      exact iff_of_true (h.mpr hpos) (Nat.pos_of_ne_zero hzero)
  · have hzero : s.mouseInhibitCount = 0 := by omega
    simp [hzero, endMouseRelSuppression]

theorem acquire_suppressed (s : State) :
    (acquireMacroMouseInhibit s).mouseRelSuppressed = true ↔
      0 < (acquireMacroMouseInhibit s).mouseInhibitCount :=
  iff_of_true rfl (Nat.succ_pos _)

/-- A task that owns nothing takes what its instance blocks. -/
theorem blockInput_frame (s : State) (i : ℕ) (hmouse : inst.ownsMouseInhibit = false)
    (hkeyboard : inst.ownsKeyboardBlock = false) :
    (blockInput s i inst).instances = s.instances.insert i { inst with
        ownsMouseInhibit := inst.blockMouseMovement, ownsKeyboardBlock := inst.blockKeyboard } ∧
      SameInstances s (blockInput s i inst) ∧
      (blockInput s i inst).keyboardBlockCount =
        s.keyboardBlockCount + (if inst.blockKeyboard then 1 else 0) ∧
      (blockInput s i inst).mouseInhibitCount =
        s.mouseInhibitCount + (if inst.blockMouseMovement then 1 else 0) := by
  obtain ⟨blockMouseMovement, blockKeyboard, pause, playing, ownsMouse, ownsKeyboard⟩ := inst
  cases hmouse
  cases hkeyboard
  cases blockMouseMovement with
  | false
  | true =>
    cases blockKeyboard with
    | false => exact ⟨rfl, ⟨rfl, rfl, rfl⟩, rfl, rfl⟩
    | true => exact ⟨rfl, ⟨rfl, rfl, rfl⟩, rfl, rfl⟩

theorem blockInput_suppressed (i : ℕ) (inst : Instance)
    (h : s.mouseRelSuppressed = true ↔ 0 < s.mouseInhibitCount) :
    (blockInput s i inst).mouseRelSuppressed = true ↔
      0 < (blockInput s i inst).mouseInhibitCount := by
  unfold blockInput
  simp only
  split
  · split
    · exact acquire_suppressed s
    · exact h
  · split
    · exact acquire_suppressed s
    · exact h

/-- A task gives back what it owns. -/
theorem unblockInput_frame (s : State) (i : ℕ) (inst : Instance) :
    (unblockInput s i inst).instances = s.instances.insert i
        { inst with ownsMouseInhibit := false, ownsKeyboardBlock := false } ∧
      SameInstances s (unblockInput s i inst) ∧
      (unblockInput s i inst).keyboardBlockCount =
        s.keyboardBlockCount - (if inst.ownsKeyboardBlock then 1 else 0) ∧
      (unblockInput s i inst).mouseInhibitCount =
        s.mouseInhibitCount - (if inst.ownsMouseInhibit then 1 else 0) := by
  obtain ⟨hinstances, hsame, hkeyboard, hmouse⟩ := release_frame s
  obtain ⟨blockMouseMovement, blockKeyboard, pause, playing, ownsMouse, ownsKeyboard⟩ := inst
  cases ownsMouse with
  | false =>
    cases ownsKeyboard with
    | false => exact ⟨rfl, ⟨rfl, rfl, rfl⟩, rfl, rfl⟩
    | true => exact ⟨rfl, ⟨rfl, rfl, rfl⟩, rfl, rfl⟩
  | true =>
    have hinserted := congrArg (·.insert i (⟨blockMouseMovement, blockKeyboard, pause, playing,
      false, false⟩ : Instance)) hinstances
    cases ownsKeyboard with
    | false => exact ⟨hinserted, ⟨hsame.1, hsame.2, hsame.3⟩, hkeyboard, hmouse⟩
    | true => exact ⟨hinserted, ⟨hsame.1, hsame.2, hsame.3⟩, congrArg (· - 1) hkeyboard, hmouse⟩

theorem unblockInput_suppressed (i : ℕ) (inst : Instance)
    (h : s.mouseRelSuppressed = true ↔ 0 < s.mouseInhibitCount) :
    (unblockInput s i inst).mouseRelSuppressed = true ↔
      0 < (unblockInput s i inst).mouseInhibitCount := by
  unfold unblockInput
  simp only
  split
  · split
    · exact release_suppressed h
    · exact h
  · split
    · exact release_suppressed h
    · exact h

theorem Balanced.fresh_of (h : Balanced s) (hseq : t.instanceSeq = s.instanceSeq)
    (hgone : ∀ j, s.instances.get? j = none → t.instances.get? j = none) :
    ∀ j, t.instanceSeq < j → t.instances.get? j = none := by
  intro j hj
  rw [hseq] at hj
  exact hgone j (h.fresh j hj)

/-- One instance changes, and the counters change with what it blocks. -/
theorem Balanced.of_insert (h : Balanced s) (hsame : SameInstances s t)
    (hold : s.instances.get? i = some old) (hinstances : t.instances = s.instances.insert i new)
    (howns : new.ownsKeyboardBlock = new.blocksKeyboard ∧ new.ownsMouseInhibit = new.blocksMouse)
    (hkeyboard : t.keyboardBlockCount + (if old.blocksKeyboard then 1 else 0) =
      s.keyboardBlockCount + (if new.blocksKeyboard then 1 else 0))
    (hmouse : t.mouseInhibitCount + (if old.blocksMouse then 1 else 0) =
      s.mouseInhibitCount + (if new.blocksMouse then 1 else 0))
    (hsuppressed : t.mouseRelSuppressed = true ↔ 0 < t.mouseInhibitCount) : Balanced t := by
  have hkeyboards := Dict.card_keysWhere_insert Instance.blocksKeyboard hold new
  have hmice := Dict.card_keysWhere_insert Instance.blocksMouse hold new
  have hcount := h.keyboard
  have hcount' := h.mouse
  refine ⟨h.fresh_of hsame.instanceSeq fun j hj => ?_, ?_, fun j inst hj => ?_, ?_, ?_, hsuppressed⟩
  · rw [hinstances, Dict.get?_insert_of_ne]
    · exact hj
    · rintro rfl
      rw [hold] at hj
      cases hj
  · rw [hsame.inhibiting, hsame.controlSeq]
    exact h.freshControl
  · rw [hinstances, Dict.get?_insert] at hj
    split at hj
    · cases hj
      exact howns
    · exact h.owns j inst hj
  · rw [keyboardBlockers] at hcount ⊢
    rw [hinstances]
    omega
  · rw [mouseBlockers] at hcount' ⊢
    rw [hinstances, hsame.inhibiting]
    omega

/-- One instance ends, and takes what it blocks from the counters. -/
theorem Balanced.of_erase (h : Balanced s) (hsame : SameInstances s t)
    (hold : s.instances.get? i = some old) (hinstances : t.instances = s.instances.erase i)
    (hkeyboard : t.keyboardBlockCount + (if old.blocksKeyboard then 1 else 0) =
      s.keyboardBlockCount)
    (hmouse : t.mouseInhibitCount + (if old.blocksMouse then 1 else 0) = s.mouseInhibitCount)
    (hsuppressed : t.mouseRelSuppressed = true ↔ 0 < t.mouseInhibitCount) : Balanced t := by
  have hkeyboards := Dict.card_keysWhere_erase Instance.blocksKeyboard hold
  have hmice := Dict.card_keysWhere_erase Instance.blocksMouse hold
  have hcount := h.keyboard
  have hcount' := h.mouse
  refine ⟨h.fresh_of hsame.instanceSeq fun j hj => ?_, ?_, fun j inst hj => ?_, ?_, ?_, hsuppressed⟩
  · rw [hinstances, Dict.get?_erase]
    split
    · rfl
    · exact hj
  · rw [hsame.inhibiting, hsame.controlSeq]
    exact h.freshControl
  · rw [hinstances, Dict.get?_erase] at hj
    split at hj
    · cases hj
    · exact h.owns j inst hj
  · rw [keyboardBlockers] at hcount ⊢
    rw [hinstances]
    omega
  · rw [mouseBlockers] at hcount' ⊢
    rw [hinstances, hsame.inhibiting]
    omega

/-- What an instance blocks is counted. -/
theorem Balanced.counted (h : Balanced s) (hold : s.instances.get? i = some old) :
    (if old.blocksKeyboard then 1 else 0) ≤ s.keyboardBlockCount ∧
      (if old.blocksMouse then 1 else 0) ≤ s.mouseInhibitCount := by
  have hcount := h.keyboard
  have hcount' := h.mouse
  constructor
  · split
    · rename_i hblocks
      have hpos := Finset.card_pos.mpr ⟨i, Dict.mem_keysWhere.mpr ⟨old, hold, hblocks⟩⟩
      rw [keyboardBlockers] at hcount
      omega
    · exact Nat.zero_le _
  · split
    · rename_i hblocks
      have hpos := Finset.card_pos.mpr ⟨i, Dict.mem_keysWhere.mpr ⟨old, hold, hblocks⟩⟩
      rw [mouseBlockers] at hcount'
      omega
    · exact Nat.zero_le _

theorem blocks_of_not_running (h : inst.running = false) :
    inst.blocksKeyboard = false ∧ inst.blocksMouse = false := by
  simp [Instance.blocksKeyboard, Instance.blocksMouse, h]

theorem blocks_of_running (h : inst.running = true) :
    inst.blocksKeyboard = inst.blockKeyboard ∧ inst.blocksMouse = inst.blockMouseMovement := by
  simp [Instance.blocksKeyboard, Instance.blocksMouse, h]

/-- A live instance that stops being paused, or starts, takes its blocks. -/
theorem Balanced.block (h : Balanced s) (hold : s.instances.get? i = some old)
    (hstopped : old.running = false) (hruns : inst.running = true)
    (hsame : inst.ownsMouseInhibit = old.ownsMouseInhibit ∧
      inst.ownsKeyboardBlock = old.ownsKeyboardBlock) : Balanced (blockInput s i inst) := by
  obtain ⟨hkeyboard, hmouse⟩ := blocks_of_not_running hstopped
  obtain ⟨hownsKeyboard, hownsMouse⟩ := h.owns i old hold
  obtain ⟨hinstances, hframe, hkeyboards, hmice⟩ := blockInput_frame s i
    (hsame.1.trans (hownsMouse.trans hmouse)) (hsame.2.trans (hownsKeyboard.trans hkeyboard))
  have hblocks : ({ inst with
        ownsMouseInhibit := inst.blockMouseMovement
        ownsKeyboardBlock := inst.blockKeyboard } : Instance).blocksKeyboard = inst.blockKeyboard ∧
      ({ inst with
        ownsMouseInhibit := inst.blockMouseMovement
        ownsKeyboardBlock := inst.blockKeyboard } : Instance).blocksMouse =
          inst.blockMouseMovement := blocks_of_running hruns
  refine h.of_insert hframe hold hinstances ⟨hblocks.1.symm, hblocks.2.symm⟩ ?_ ?_
    (blockInput_suppressed i inst h.suppressed)
  · rw [hblocks.1, hkeyboard, hkeyboards]
    simp
  · rw [hblocks.2, hmouse, hmice]
    simp

/-- A live instance that is paused gives its blocks back. -/
theorem Balanced.unblock (h : Balanced s) (hold : s.instances.get? i = some old)
    (hstops : inst.running = false)
    (hsame : inst.ownsMouseInhibit = old.ownsMouseInhibit ∧
      inst.ownsKeyboardBlock = old.ownsKeyboardBlock) : Balanced (unblockInput s i inst) := by
  obtain ⟨hownsKeyboard, hownsMouse⟩ := h.owns i old hold
  obtain ⟨hinstances, hframe, hkeyboards, hmice⟩ := unblockInput_frame s i inst
  obtain ⟨hcounted, hcounted'⟩ := h.counted hold
  have hblocks : ({ inst with
        ownsMouseInhibit := false
        ownsKeyboardBlock := false } : Instance).blocksKeyboard = false ∧
      ({ inst with
        ownsMouseInhibit := false
        ownsKeyboardBlock := false } : Instance).blocksMouse = false :=
    blocks_of_not_running hstops
  refine h.of_insert hframe hold hinstances ⟨hblocks.1.symm, hblocks.2.symm⟩ ?_ ?_
    (unblockInput_suppressed i inst h.suppressed)
  · rw [hblocks.1, hkeyboards, hsame.2, hownsKeyboard]
    simp only [Bool.false_eq_true, if_false]
    omega
  · rw [hblocks.2, hmice, hsame.1, hownsMouse]
    simp only [Bool.false_eq_true, if_false]
    omega

/-- An instance that is not running before and after the step owns and blocks nothing. -/
theorem Balanced.idle (h : Balanced s) (hold : s.instances.get? i = some old)
    (hstopped : old.running = false) (hstops : inst.running = false)
    (hsame : inst.ownsMouseInhibit = old.ownsMouseInhibit ∧
      inst.ownsKeyboardBlock = old.ownsKeyboardBlock) :
    Balanced { s with instances := s.instances.insert i inst } := by
  obtain ⟨hkeyboard, hmouse⟩ := blocks_of_not_running hstopped
  obtain ⟨hkeyboard', hmouse'⟩ := blocks_of_not_running hstops
  obtain ⟨hownsKeyboard, hownsMouse⟩ := h.owns i old hold
  refine h.of_insert ⟨rfl, rfl, rfl⟩ hold rfl ⟨?_, ?_⟩ ?_ ?_ h.suppressed
  · rw [hsame.2, hownsKeyboard, hkeyboard, hkeyboard']
  · rw [hsame.1, hownsMouse, hmouse, hmouse']
  · rw [hkeyboard, hkeyboard']
  · rw [hmouse, hmouse']

theorem Balanced.step {op : Op} (h : Balanced s) (hguard : Unshared s op)
    (hstep : Blocks.step s op = some t) : Balanced t := by
  cases op with
  | start blockMouseMovement blockKeyboard pause =>
    cases hstep
    have hnone := h.fresh (s.instanceSeq + 1) (Nat.lt_succ_self _)
    have hkeyboards := Dict.card_keysWhere_insert_new Instance.blocksKeyboard hnone
      { blockMouseMovement, blockKeyboard, pause }
    have hmice := Dict.card_keysWhere_insert_new Instance.blocksMouse hnone
      { blockMouseMovement, blockKeyboard, pause }
    refine ⟨fun j hj => ?_, h.freshControl, fun j inst hj => ?_, ?_, ?_, h.suppressed⟩
    · have hlt : s.instanceSeq + 1 < j := hj
      rw [Dict.get?_insert_of_ne _ _ (by omega)]
      exact h.fresh j (by omega)
    · rw [Dict.get?_insert] at hj
      split at hj
      · cases hj
        exact ⟨rfl, rfl⟩
      · exact h.owns j inst hj
    · exact h.keyboard.trans hkeyboards.symm
    · exact h.mouse.trans (congrArg (· + s.inhibiting.card) hmice.symm)
  | begin i =>
    simp only [Blocks.step] at hstep
    split at hstep
    · cases hstep
    · rename_i old hold
      split at hstep
      · cases hstep
      · rename_i hplaying
        have hstopped : old.running = false := by simp [Instance.running, hplaying]
        split at hstep
        · rename_i hpaused
          cases hstep
          exact h.idle hold hstopped (by simp [Instance.running, hpaused]) ⟨rfl, rfl⟩
        · rename_i hpaused
          cases hstep
          exact h.block hold hstopped (by simpa [Instance.running] using hpaused) ⟨rfl, rfl⟩
  | pause i =>
    simp only [Blocks.step] at hstep
    split at hstep
    · cases hstep
    · rename_i old hold
      split at hstep
      · split at hstep
        · cases hstep
          exact h.unblock hold (by simp [Instance.running]) ⟨rfl, rfl⟩
        · rename_i hplaying
          cases hstep
          exact h.idle hold (by simp [Instance.running, hplaying]) (by simp [Instance.running])
            ⟨rfl, rfl⟩
      · cases hstep
  | resume i =>
    simp only [Blocks.step] at hstep
    split at hstep
    · cases hstep
    · rename_i old hold
      split at hstep
      · rename_i hpaused
        have hstopped : old.running = false := by simp [Instance.running, hpaused]
        split at hstep
        · rename_i hplaying
          cases hstep
          exact h.block hold hstopped (by simp [Instance.running, hplaying]) ⟨rfl, rfl⟩
        · rename_i hplaying
          cases hstep
          exact h.idle hold hstopped (by simp [Instance.running, hplaying]) ⟨rfl, rfl⟩
      · cases hstep
  | renew i =>
    simp only [Blocks.step] at hstep
    split at hstep
    · cases hstep
    · split at hstep
      · cases hstep
        have hpos : 0 < s.mouseInhibitCount := by
          have hcount := h.mouse
          have hmember := Finset.card_pos.mpr ⟨i, hguard⟩
          omega
        exact { h with suppressed := iff_of_true rfl hpos }
      · cases hstep
  | inhibit i =>
    simp only [Blocks.step] at hstep
    split at hstep
    · cases hstep
    · split at hstep
      · cases hstep
        have hnew : s.controlSeq + 1 ∉ s.inhibiting := fun hmem => by
          have hle := h.freshControl _ hmem
          omega
        refine { h with
          freshControl := fun c hc => ?_, mouse := ?_, suppressed := acquire_suppressed s }
        · show c ≤ s.controlSeq + 1
          rcases Finset.mem_insert.mp hc with rfl | hold
          · exact Nat.le_refl _
          · exact Nat.le_succ_of_le (h.freshControl c hold)
        · have hcount := h.mouse
          have hcard := Finset.card_insert_of_notMem hnew
          show s.mouseInhibitCount + 1 = (mouseBlockers s).card + (insert _ s.inhibiting).card
          omega
      · cases hstep
  | inhibitEnds control =>
    obtain ⟨hmem, rfl⟩ := enabled_eq_some.mp hstep
    obtain ⟨hinstances, hframe, hkeyboards, hmice⟩ := release_frame s
    refine ⟨?_, fun c hc => ?_, ?_, ?_, ?_, release_suppressed h.suppressed⟩
    · simp only [hinstances, hframe.instanceSeq]
      exact h.fresh
    · simp only [hframe.controlSeq]
      exact h.freshControl c (Finset.mem_of_mem_erase hc)
    · simp only [hinstances]
      exact h.owns
    · simp only [hkeyboards, keyboardBlockers, hinstances]
      exact h.keyboard
    · have hcount := h.mouse
      have hcard := Finset.card_erase_of_mem hmem
      have hpos := Finset.card_pos.mpr ⟨control, hmem⟩
      rw [mouseBlockers] at hcount
      simp only [hmice, mouseBlockers, hinstances]
      omega
  | watchdog =>
    obtain ⟨-, rfl⟩ := enabled_eq_some.mp hstep
    refine { h with suppressed := ?_ }
    have hsuppressed := h.suppressed
    simp only [mouseRelSuppressionWatchdog]
    split
    · rename_i hzero
      simp [hzero]
    · exact hsuppressed
  | unwind i =>
    simp only [Blocks.step] at hstep
    split at hstep
    · cases hstep
    · rename_i old hold
      split at hstep
      · cases hstep
        obtain ⟨hinstances, hframe, hkeyboards, hmice⟩ := unblockInput_frame s i old
        obtain ⟨hownsKeyboard, hownsMouse⟩ := h.owns i old hold
        obtain ⟨hcounted, hcounted'⟩ := h.counted hold
        refine h.of_erase ⟨hframe.1, hframe.2, hframe.3⟩ hold ?_ ?_ ?_
          (unblockInput_suppressed i old h.suppressed)
        · simp only [hinstances, Dict.erase_insert_self]
        · simp only [hkeyboards, hownsKeyboard]
          omega
        · simp only [hmice, hownsMouse]
          omega
      · cases hstep
  | reap i =>
    simp only [Blocks.step] at hstep
    split at hstep
    · cases hstep
    · rename_i old hold
      split at hstep
      · cases hstep
      · rename_i hplaying
        cases hstep
        have hstopped : old.running = false := by simp [Instance.running, hplaying]
        have hblocks := blocks_of_not_running hstopped
        refine h.of_erase ⟨rfl, rfl, rfl⟩ hold rfl ?_ ?_ h.suppressed
        · rw [hblocks.1]
          rfl
        · rw [hblocks.2]
          rfl
  | cancelPlayback =>
    cases hstep
    exact { h with }
  | cancelPlaybackEnds =>
    obtain ⟨-, rfl⟩ := enabled_eq_some.mp hstep
    obtain ⟨hkeyboard, hmouse, hinhibiting⟩ := hguard
    refine { h with keyboard := ?_, mouse := ?_, suppressed := by simp [endMouseRelSuppression] }
    · show 0 = (keyboardBlockers s).card
      rw [hkeyboard, Finset.card_empty]
    · show 0 = (mouseBlockers s).card + s.inhibiting.card
      rw [hmouse, hinhibiting, Finset.card_empty]

end Counters

theorem balanced_initial : Balanced {} where
  fresh := fun _ _ => rfl
  freshControl := fun _ hc => absurd hc (Finset.notMem_empty _)
  owns := fun _ _ hi => by cases hi
  keyboard := rfl
  mouse := rfl
  suppressed := by decide

/-- The counters count the live, unpaused blockers and the actions that inhibit the mouse, mouse
movement is suppressed while one of them is there, and nothing is blocked without them. -/
theorem macro_blocks_balanced {ops : List Op} {s : State}
    (hguard : Guarded step Unshared {} ops) (hrun : run step {} ops = some s) :
    s.keyboardBlockCount = (keyboardBlockers s).card ∧
      s.mouseInhibitCount = (mouseBlockers s).card + s.inhibiting.card ∧
      (0 < s.mouseInhibitCount → s.mouseRelSuppressed = true) ∧
      (∀ i ∈ keyboardBlockers s, macroKeyboardBlocked s = true) ∧
      (∀ i ∈ mouseBlockers s, s.mouseRelSuppressed = true) ∧
      ((∀ i inst, s.instances.get? i = some inst → inst.playing = false) → s.inhibiting = ∅ →
        s.keyboardBlockCount = 0 ∧ s.mouseInhibitCount = 0 ∧ s.mouseRelSuppressed = false) := by
  have h : Balanced s :=
    guarded_run_invariant (fun _ _ _ h hg hstep => h.step hg hstep) balanced_initial hguard hrun
  refine ⟨h.keyboard, h.mouse, h.suppressed.mpr, fun i hi => ?_, fun i hi => h.suppressed.mpr ?_,
    fun hended hinhibiting => ?_⟩
  · rw [macroKeyboardBlocked, decide_eq_true_eq, h.keyboard]
    exact Finset.card_pos.mpr ⟨i, hi⟩
  · rw [h.mouse]
    exact Nat.add_pos_left (Finset.card_pos.mpr ⟨i, hi⟩) _
  have hkeyboard := h.keyboard
  have hmouse := h.mouse
  have hstopped : ∀ i inst, s.instances.get? i = some inst → inst.running = false :=
    fun i inst hi => by simp [Instance.running, hended i inst hi]
  have hnone : keyboardBlockers s = ∅ ∧ mouseBlockers s = ∅ := by
    simp only [Finset.eq_empty_iff_forall_notMem, keyboardBlockers, mouseBlockers,
      Dict.mem_keysWhere]
    constructor
    · rintro i ⟨inst, hi, hblocks⟩
      rw [(blocks_of_not_running (hstopped i inst hi)).1] at hblocks
      cases hblocks
    · rintro i ⟨inst, hi, hblocks⟩
      rw [(blocks_of_not_running (hstopped i inst hi)).2] at hblocks
      cases hblocks
  rw [hnone.1, Finset.card_empty] at hkeyboard
  rw [hnone.2, hinhibiting, Finset.card_empty] at hmouse
  refine ⟨hkeyboard, hmouse, ?_⟩
  rw [← Bool.not_eq_true, h.suppressed]
  omega

/-- Two instances block input, one of them is paused, and all playback is cancelled. -/
def cancelledAfterPause : List Op :=
  [.start true true (some false), .begin 1, .start false true none, .begin 2, .inhibit 2, .renew 1,
    .pause 1, .resume 1, .pause 1, .cancelPlayback, .unwind 2, .inhibitEnds 1, .unwind 1,
    .cancelPlaybackEnds]

theorem macro_blocks_balanced_cancelled :
    ∃ s, run step {} cancelledAfterPause = some s ∧ s.keyboardBlockCount = 0 ∧
      s.mouseInhibitCount = 0 ∧ s.mouseRelSuppressed = false := by
  have hends : (run step {} cancelledAfterPause).map (fun s => (s.instances.entries,
      s.inhibiting)) = some ([], ∅) := by decide
  obtain ⟨s, hrun, heq⟩ := Option.map_eq_some_iff.mp hends
  simp only [Prod.mk.injEq] at heq
  refine ⟨s, hrun, (macro_blocks_balanced (by decide) hrun).2.2.2.2.2 ?_ heq.2⟩
  intro i inst hi
  rw [Dict.get?, heq.1] at hi
  cases hi

/-- A macro starts while cancelled playback is still ending. -/
def startedWhileCancelling : List Op :=
  [.start false true none, .begin 1, .cancelPlayback, .start false true none, .begin 2, .unwind 1,
    .cancelPlaybackEnds]

/- The reset takes the block of the new instance away, which goes on playing. -/
theorem reset_unblocks_new_instance : ¬ ∀ ops s, run step {} ops = some s →
    s.keyboardBlockCount = (keyboardBlockers s).card := by
  intro hall
  have hends : (run step {} startedWhileCancelling).map (fun s => (s.keyboardBlockCount,
      (keyboardBlockers s).card)) = some (0, 1) := by decide
  obtain ⟨s, hrun, heq⟩ := Option.map_eq_some_iff.mp hends
  simp only [Prod.mk.injEq] at heq
  have hcount := hall _ s hrun
  rw [heq.1, heq.2] at hcount
  cases hcount

end Keymasq.Macros.Blocks
