import Keymasq.Macros.Outputs

/-!
# Macro instances

The life of macro instances on the event loop: they are allocated, their tasks
start, emit events, are paused, resumed and cancelled, and unwind. Labels of
different instances come in any order.
-/

namespace Keymasq.Macros.Instances
open Foundation Foundation.Transition Keymasq.Macros.Outputs

/-- An event of a macro's timeline; a key event is a press, a release or a repeat. -/
structure MacroEvent where
  eventType : EventType
  code : Int
  value : Int
  deviceType : DeviceType
  outputId : Option String
  key_value : eventType = .key → value = 0 ∨ value = 1 ∨ value = 2

/-- The manager, the tasks that wait for their first step, and those that are playing. -/
structure State where
  manager : Manager
  created : Finset Nat
  playing : Finset Nat

inductive Op
  | start (paused : Option Bool)
  | begin (instanceId : Nat)
  | emit (instanceId : Nat) (event : MacroEvent)
  | pause (instanceId : Nat)
  | resume (instanceId : Nat)
  | expire (instanceId : Nat) (ids : List Nat)
  | cancel (ids : List Nat)
  | forget (ids : List Nat)
  | unwind (instanceId : Nat)
  | reap (instanceId : Nat)
  | reopen (outputs : OutputState) (recreated : List OutputClass)

def initial (outputs : OutputState) : State where
  manager := { macroState := {}, outputState := outputs, down := ∅ }
  created := ∅
  playing := ∅

def Manager.withState (m : Manager) (s : MacroRuntimeState) : Manager := { m with macroState := s }

/- `allocate_instance`, with the pause state of an instance that has one. -/
def allocateInstance (s : MacroRuntimeState) (paused : Option Bool) : MacroRuntimeState :=
  let instanceId := s.instanceSeq + 1
  { s with
    instanceSeq := instanceId
    keys := s.keys.enroll instanceId
    axes := s.axes.enroll instanceId
    cancelInstanceIds := s.cancelInstanceIds.erase instanceId
    instanceMeta := insert instanceId s.instanceMeta
    pauses := match paused with
      | none => s.pauses
      | some paused => s.pauses.insert instanceId paused }

def forgetInstance (m : Manager) (instanceId : Nat) : Manager :=
  Manager.withState m
    { m.macroState with
      cancelInstanceIds := m.macroState.cancelInstanceIds.erase instanceId
      instanceMeta := m.macroState.instanceMeta.erase instanceId
      pauses := m.macroState.pauses.erase instanceId
      pauseReleased := m.macroState.pauseReleased.erase instanceId }

def setPaused (m : Manager) (instanceId : Nat) (paused : Bool) : Manager :=
  Manager.withState m
    { m.macroState with pauses := m.macroState.pauses.insert instanceId paused }

/- `cancel_instance_ids.update(ids)`. -/
def markCancelled (m : Manager) (ids : List Nat) : Manager :=
  Manager.withState m
    { m.macroState with cancelInstanceIds := m.macroState.cancelInstanceIds ∪ ids.toFinset }

/- The loop of `expire_paused_instance` over the expired subtree: an instance
whose task is over is forgotten at once, the others when their task ends. -/
def expireInstance (alive : Nat → Bool) (m : Manager) (instanceId : Nat) : Manager :=
  let m := releaseMacroHeldForInstance m instanceId
  if alive instanceId then m else forgetInstance m instanceId

/- An output that is closed or created anew has no key down. -/
def reopenOutputs (m : Manager) (outputs : OutputState) (recreated : List OutputClass) : Manager :=
  { m with
    outputState := outputs
    down := m.down.filter fun k => outputs.hasWriter k.1 = true ∧ k.1 ∉ recreated }

/- `expire` and `cancel` name the instance with the descendants that go with it.
`cancel` is `cancel_macro_instances` up to its wait for the tasks, `forget` what
follows the wait, `unwind` the end of a task for whatever reason. A task that is
cancelled before its first step never runs; `reap` forgets its instance. -/
def step (s : State) : Op → Option State
  | .start paused =>
    let macroState := allocateInstance s.manager.macroState paused
    some { s with
      manager := Manager.withState s.manager macroState
      created := insert macroState.instanceSeq s.created }
  | .begin instanceId =>
    if instanceId ∈ s.created then
      some { s with created := s.created.erase instanceId, playing := insert instanceId s.playing }
    else none
  | .emit instanceId event =>
    if instanceId ∈ s.playing then
      some { s with manager := (emitMacroEvent s.manager instanceId event.eventType event.code
        event.value event.deviceType event.outputId).2 }
    else none
  | .pause instanceId =>
    if s.manager.macroState.pauses.get? instanceId = some false ∧
        instanceId ∉ s.manager.macroState.cancelInstanceIds then
      some { s with manager := pauseMacroOutputs (setPaused s.manager instanceId true) instanceId }
    else none
  | .resume instanceId =>
    if s.manager.macroState.pauses.get? instanceId = some true ∧
        instanceId ∉ s.manager.macroState.cancelInstanceIds then
      some { s with manager := setPaused s.manager instanceId false }
    else none
  | .expire instanceId ids =>
    if instanceId ∈ s.manager.macroState.cancelInstanceIds ∨
        instanceId ∉ s.manager.macroState.instanceMeta then some s
    else
      let alive (i : Nat) : Bool := i ∈ s.created ∨ i ∈ s.playing
      some { s with
        manager := (instanceId :: ids).foldl (expireInstance alive)
          (markCancelled s.manager (instanceId :: ids)) }
  | .cancel ids =>
    some { s with manager := ids.foldl releaseMacroHeldForInstance (markCancelled s.manager ids) }
  | .forget ids => some { s with manager := ids.foldl forgetInstance s.manager }
  | .unwind instanceId =>
    if instanceId ∈ s.playing then
      some { s with
        manager := forgetInstance (releaseMacroHeldForInstance s.manager instanceId) instanceId
        playing := s.playing.erase instanceId }
    else none
  | .reap instanceId =>
    if instanceId ∈ s.created then
      some { s with
        manager := forgetInstance s.manager instanceId
        created := s.created.erase instanceId }
    else none
  | .reopen outputs recreated =>
    some { s with manager := reopenOutputs s.manager outputs recreated }

/-- The counts are right, every key that is down is recorded by an instance and
its device is there to release it, and only playing instances record anything. -/
structure Sound (m : Manager) (playing : Finset Nat) : Prop where
  keys : m.macroState.keys.Counted
  axes : m.macroState.axes.Counted
  recorded : ∀ k ∈ m.down,
    m.outputState.hasWriter k.1 = true ∧ ∃ i, k ∈ m.macroState.keys.heldBy i
  keys_playing : ∀ i, i ∉ playing → m.macroState.keys.heldBy i = []
  axes_playing : ∀ i, i ∉ playing → m.macroState.axes.heldBy i = []

/-- What an operation on the bookkeeping alone leaves as it is. -/
structure SameOutputs (m m' : Manager) : Prop where
  keys : m'.macroState.keys = m.macroState.keys
  axes : m'.macroState.axes = m.macroState.axes
  outputState : m'.outputState = m.outputState
  down : m'.down = m.down

variable {m : Manager} {playing : Finset Nat} {i : Nat}

theorem SameOutputs.sound {m' : Manager} (h : SameOutputs m m') (hs : Sound m playing) :
    Sound m' playing := by
  obtain ⟨hkeys, haxes, hout, hdown⟩ := h
  constructor
  · rw [hkeys]
    exact hs.keys
  · rw [haxes]
    exact hs.axes
  · rw [hdown, hout, hkeys]
    exact hs.recorded
  · rw [hkeys]
    exact hs.keys_playing
  · rw [haxes]
    exact hs.axes_playing

theorem sameOutputs_forgetInstance (m : Manager) (i : Nat) : SameOutputs m (forgetInstance m i) :=
  ⟨rfl, rfl, rfl, rfl⟩

theorem sameOutputs_setPaused (m : Manager) (i : Nat) (paused : Bool) :
    SameOutputs m (setPaused m i paused) :=
  ⟨rfl, rfl, rfl, rfl⟩

theorem sameOutputs_markCancelled (m : Manager) (ids : List Nat) :
    SameOutputs m (markCancelled m ids) :=
  ⟨rfl, rfl, rfl, rfl⟩

theorem sameOutputs_discardReleased (m : Manager) (i : Nat) (key : OutputClass × EventType × Int) :
    SameOutputs m (m.discardReleased i key) :=
  ⟨rfl, rfl, rfl, rfl⟩

/-- The cleanup of an instance: a key it leaves down is recorded by another one. -/
theorem Sound.release (hs : Sound m playing) (i : Nat) :
    Sound (releaseMacroHeldForInstance m i) playing where
  keys := by
    rw [releaseMacroHeldForInstance_keys]
    exact hs.keys.drop i
  axes := by
    rw [releaseMacroHeldForInstance_axes]
    exact hs.axes.drop i
  recorded := by
    intro k hk
    rw [mem_down_releaseMacroHeldForInstance hs.keys] at hk
    obtain ⟨hdown, hkept⟩ := hk
    obtain ⟨hwriter, j, hj⟩ := hs.recorded k hdown
    refine ⟨hwriter, ?_⟩
    rw [releaseMacroHeldForInstance_keys]
    have hother : ∃ j', j' ≠ i ∧ k ∈ m.macroState.keys.heldBy j' := by
      by_cases hji : j = i
      · subst hji
        have hlt : 1 < m.macroState.keys.countOf k := by
          by_contra hle
          exact hkept ⟨hj, not_lt.mp hle, hwriter⟩
        exact hs.keys.exists_other j hlt
      · exact ⟨j, hji, hj⟩
    obtain ⟨j', hne, hj'⟩ := hother
    refine ⟨j', ?_⟩
    rw [Holdings.heldBy_drop, if_neg hne]
    exact hj'
  keys_playing := by
    intro j hj
    rw [releaseMacroHeldForInstance_keys, Holdings.heldBy_drop]
    split
    · rfl
    · exact hs.keys_playing j hj
  axes_playing := by
    intro j hj
    rw [releaseMacroHeldForInstance_axes, Holdings.heldBy_drop]
    split
    · rfl
    · exact hs.axes_playing j hj

theorem Sound.pauseOutputs (hs : Sound m playing) (i : Nat) :
    Sound (pauseMacroOutputs m i) playing := by
  apply Sound.release
  exact SameOutputs.sound (m := m) ⟨rfl, rfl, rfl, rfl⟩ hs

theorem Sound.foldl {f : Manager → Nat → Manager}
    (hf : ∀ m i, Sound m playing → Sound (f m i) playing) (ids : List Nat) (hs : Sound m playing) :
    Sound (ids.foldl f m) playing := by
  induction ids generalizing m with
  | nil => exact hs
  | cons i ids ih => exact ih (hf m i hs)

theorem Sound.track_axes (hs : Sound m playing) (hi : i ∈ playing) (c : OutputClass)
    (code value : Int) :
    Sound (trackMacroAbsValue m i c code value) playing := by
  unfold trackMacroAbsValue
  split
  · exact hs
  · split
    · exact hs
    · split
      · refine { hs with axes := hs.axes.remove i _, axes_playing := fun j hj => ?_ }
        have hne : j ≠ i := fun heq => hj (heq ▸ hi)
        exact (Holdings.heldBy_remove_of_ne _ _ hne).trans (hs.axes_playing j hj)
      · refine { hs with axes := hs.axes.add i _, axes_playing := fun j hj => ?_ }
        have hne : j ≠ i := fun heq => hj (heq ▸ hi)
        exact (Holdings.heldBy_add_of_ne _ _ hne).trans (hs.axes_playing j hj)

/-- A press is recorded by the instance that makes it. -/
theorem Sound.press (hs : Sound m playing) (hi : i ∈ playing) {c : OutputClass}
    (hc : m.outputState.hasWriter c = true) (code : Int) :
    Sound (trackMacroKeyPress (m.write c .key code 1) i c code) playing := by
  refine { hs with keys := hs.keys.add i _, recorded := ?_, keys_playing := ?_ }
  · intro k hk
    rcases Finset.mem_insert.mp hk with rfl | hold
    · exact ⟨hc, i, Holdings.mem_heldBy_add.mpr (Or.inr ⟨rfl, rfl⟩)⟩
    · obtain ⟨hwriter, j, hj⟩ := hs.recorded k hold
      exact ⟨hwriter, j, Holdings.mem_heldBy_add.mpr (Or.inl hj)⟩
  · intro j hj
    have hne : j ≠ i := fun heq => hj (heq ▸ hi)
    exact (Holdings.heldBy_add_of_ne _ _ hne).trans (hs.keys_playing j hj)

/-- A release leaves the key up, whoever records it. -/
theorem Sound.releaseKey (hs : Sound m playing) (hi : i ∈ playing) (c : OutputClass) (code : Int) :
    Sound (trackMacroKeyRelease (m.write c .key code 0) i c code) playing := by
  refine { hs with keys := hs.keys.remove i _, recorded := ?_, keys_playing := ?_ }
  · intro k hk
    obtain ⟨hne, hold⟩ := Finset.mem_erase.mp hk
    obtain ⟨hwriter, j, hj⟩ := hs.recorded k hold
    exact ⟨hwriter, j, (Holdings.mem_heldBy_remove_of_ne hne).mpr hj⟩
  · intro j hj
    have hne : j ≠ i := fun heq => hj (heq ▸ hi)
    exact (Holdings.heldBy_remove_of_ne _ _ hne).trans (hs.keys_playing j hj)

theorem Sound.written (hs : Sound m playing) (hi : i ∈ playing) {c : OutputClass}
    (hc : m.outputState.hasWriter c = true) (event : MacroEvent) :
    Sound (trackMacroEvent (m.write c event.eventType event.code event.value) i c
      event.eventType event.code event.value) playing := by
  cases htype : event.eventType with
  | key =>
    rcases event.key_value htype with hv | hv | hv
    · rw [hv]
      exact hs.releaseKey hi c event.code
    · rw [hv]
      exact hs.press hi hc event.code
    · rw [hv]
      exact hs
  | rel => exact hs
  | other type => exact hs
  | abs => exact hs.track_axes hi c event.code event.value

theorem Sound.emit (hs : Sound m playing) (hi : i ∈ playing) (event : MacroEvent) :
    Sound (emitMacroEvent m i event.eventType event.code event.value event.deviceType
      event.outputId).2 playing := by
  unfold emitMacroEvent
  split
  · exact hs
  · rename_i c hresolve
    have hc := hasWriter_of_resolveMacroOutput hresolve
    have hdiscard := fun key => (sameOutputs_discardReleased m i key).sound hs
    dsimp only
    split
    · split
      · exact hdiscard _
      · split
        · exact hs
        · exact (hdiscard _).written hi hc event
    · exact hs.written hi hc event

/-- A new instance records nothing, and nothing was recorded under its id. -/
theorem Sound.allocate (hs : Sound m playing) (hfresh : m.macroState.instanceSeq + 1 ∉ playing)
    (paused : Option Bool) :
    Sound (Manager.withState m (allocateInstance m.macroState paused)) playing := by
  have hkeys := hs.keys_playing _ hfresh
  have haxes := hs.axes_playing _ hfresh
  constructor
  · exact hs.keys.enroll hkeys
  · exact hs.axes.enroll haxes
  · intro k hk
    obtain ⟨hwriter, j, hj⟩ := hs.recorded k hk
    refine ⟨hwriter, j, ?_⟩
    show k ∈ (m.macroState.keys.enroll _).heldBy j
    rw [Holdings.heldBy_enroll, if_neg]
    · exact hj
    · rintro rfl
      rw [hkeys] at hj
      cases hj
  · intro j hj
    show (m.macroState.keys.enroll _).heldBy j = []
    rw [Holdings.heldBy_enroll]
    split
    · rfl
    · exact hs.keys_playing j hj
  · intro j hj
    show (m.macroState.axes.enroll _).heldBy j = []
    rw [Holdings.heldBy_enroll]
    split
    · rfl
    · exact hs.axes_playing j hj

theorem Sound.reopen (hs : Sound m playing) (outputs : OutputState) (recreated : List OutputClass) :
    Sound (reopenOutputs m outputs recreated) playing := by
  refine { hs with recorded := fun k hk => ?_ }
  obtain ⟨hold, hwriter, -⟩ := Finset.mem_filter.mp hk
  exact ⟨hwriter, (hs.recorded k hold).2⟩

/-- Ids are issued in order, and an instance that has unwound records nothing. -/
structure Inv (s : State) : Prop where
  sound : Sound s.manager s.playing
  issued : ∀ i, i ∈ s.created ∨ i ∈ s.playing → i ≤ s.manager.macroState.instanceSeq

theorem inv_initial (outputs : OutputState) : Inv (initial outputs) where
  sound :=
    { keys := Holdings.counted_empty
      axes := Holdings.counted_empty
      recorded := fun k hk => absurd hk (Finset.notMem_empty k)
      keys_playing := fun _ _ => rfl
      axes_playing := fun _ _ => rfl }
  issued := by
    intro i hi
    rcases hi with hi | hi
    · exact absurd hi (Finset.notMem_empty i)
    · exact absurd hi (Finset.notMem_empty i)

theorem instanceSeq_foldl {f : Manager → Nat → Manager}
    (hf : ∀ m i, (f m i).macroState.instanceSeq = m.macroState.instanceSeq) (ids : List Nat)
    (m : Manager) : (ids.foldl f m).macroState.instanceSeq = m.macroState.instanceSeq := by
  induction ids generalizing m with
  | nil => rfl
  | cons i ids ih => exact (ih (f m i)).trans (hf m i)

theorem instanceSeq_expireInstance (alive : Nat → Bool) (m : Manager) (i : Nat) :
    (expireInstance alive m i).macroState.instanceSeq = m.macroState.instanceSeq := by
  unfold expireInstance
  dsimp only
  split
  · rfl
  · rfl

theorem instanceSeq_written (m : Manager) (i : Nat) (c : OutputClass) (eventType : EventType)
    (code value : Int) :
    (trackMacroEvent (m.write c eventType code value) i c eventType code
      value).macroState.instanceSeq = m.macroState.instanceSeq := by
  have hwrite : (m.write c eventType code value).macroState = m.macroState := by
    unfold Manager.write
    split
    · split
      · rfl
      · split
        · rfl
        · rfl
    · rfl
  rw [← hwrite]
  unfold trackMacroEvent
  split
  · split
    · rfl
    · split
      · rfl
      · rfl
  · unfold trackMacroAbsValue
    split
    · rfl
    · split
      · rfl
      · split
        · rfl
        · rfl
  · rfl

theorem instanceSeq_emitMacroEvent (m : Manager) (i : Nat) (eventType : EventType)
    (code value : Int) (deviceType : DeviceType) (outputId : Option String) :
    (emitMacroEvent m i eventType code value deviceType outputId).2.macroState.instanceSeq =
      m.macroState.instanceSeq := by
  unfold emitMacroEvent
  split
  · rfl
  · dsimp only
    split
    · split
      · rfl
      · split
        · rfl
        · exact instanceSeq_written _ i _ eventType code value
    · exact instanceSeq_written m i _ eventType code value

theorem Sound.expire (hs : Sound m playing) (alive : Nat → Bool) (i : Nat) :
    Sound (expireInstance alive m i) playing := by
  unfold expireInstance
  dsimp only
  split
  · exact hs.release i
  · exact (sameOutputs_forgetInstance _ i).sound (hs.release i)

/-- A playing instance that has been cleaned up may stop playing. -/
theorem Sound.stop (hs : Sound m playing) (i : Nat) :
    Sound (releaseMacroHeldForInstance m i) (playing.erase i) := by
  have hreleased := hs.release i
  refine { hreleased with keys_playing := fun j hj => ?_, axes_playing := fun j hj => ?_ }
  · by_cases hji : j = i
    · rw [releaseMacroHeldForInstance_keys, Holdings.heldBy_drop, if_pos hji]
    · exact hreleased.keys_playing j fun hp => hj (Finset.mem_erase.mpr ⟨hji, hp⟩)
  · by_cases hji : j = i
    · rw [releaseMacroHeldForInstance_axes, Holdings.heldBy_drop, if_pos hji]
    · exact hreleased.axes_playing j fun hp => hj (Finset.mem_erase.mpr ⟨hji, hp⟩)

theorem Sound.play (hs : Sound m playing) (i : Nat) : Sound m (insert i playing) :=
  { hs with
    keys_playing := fun j hj => hs.keys_playing j fun hp => hj (Finset.mem_insert_of_mem hp)
    axes_playing := fun j hj => hs.axes_playing j fun hp => hj (Finset.mem_insert_of_mem hp) }

theorem Inv.step {s t : State} {op : Op} (h : Inv s) (hstep : step s op = some t) : Inv t := by
  obtain ⟨hs, hissued⟩ := h
  cases op with
  | start paused =>
    cases hstep
    have hfresh : s.manager.macroState.instanceSeq + 1 ∉ s.playing := by
      intro hmem
      have hle := hissued _ (Or.inr hmem)
      omega
    refine ⟨hs.allocate hfresh paused, fun i hi => ?_⟩
    show i ≤ s.manager.macroState.instanceSeq + 1
    rcases hi with hi | hi
    · rcases Finset.mem_insert.mp hi with rfl | hold
      · exact Nat.le_refl _
      · exact Nat.le_succ_of_le (hissued i (Or.inl hold))
    · exact Nat.le_succ_of_le (hissued i (Or.inr hi))
  | begin i =>
    obtain ⟨hcreated, rfl⟩ := enabled_eq_some.mp hstep
    refine ⟨hs.play i, fun j hj => ?_⟩
    rcases hj with hj | hj
    · exact hissued j (Or.inl (Finset.mem_of_mem_erase hj))
    · rcases Finset.mem_insert.mp hj with rfl | hold
      · exact hissued j (Or.inl hcreated)
      · exact hissued j (Or.inr hold)
  | emit i event =>
    obtain ⟨hplaying, rfl⟩ := enabled_eq_some.mp hstep
    refine ⟨hs.emit hplaying event, fun j hj => ?_⟩
    show j ≤ (emitMacroEvent s.manager i _ _ _ _ _).2.macroState.instanceSeq
    rw [instanceSeq_emitMacroEvent]
    exact hissued j hj
  | pause i =>
    obtain ⟨-, rfl⟩ := enabled_eq_some.mp hstep
    exact ⟨((sameOutputs_setPaused s.manager i true).sound hs).pauseOutputs i, hissued⟩
  | resume i =>
    obtain ⟨-, rfl⟩ := enabled_eq_some.mp hstep
    exact ⟨(sameOutputs_setPaused s.manager i false).sound hs, hissued⟩
  | expire i ids =>
    simp only [Instances.step] at hstep
    split at hstep
    · cases hstep
      exact ⟨hs, hissued⟩
    · cases hstep
      refine ⟨?_, fun j hj => ?_⟩
      · exact Sound.foldl (fun m j hm => hm.expire _ j) (i :: ids)
          ((sameOutputs_markCancelled s.manager (i :: ids)).sound hs)
      · have hseq := instanceSeq_foldl (instanceSeq_expireInstance
          fun i => decide (i ∈ s.created ∨ i ∈ s.playing)) (i :: ids)
          (markCancelled s.manager (i :: ids))
        exact (hissued j hj).trans_eq hseq.symm
  | cancel ids =>
    cases hstep
    refine ⟨?_, fun j hj => ?_⟩
    · exact Sound.foldl (fun m j hm => hm.release j) ids
        ((sameOutputs_markCancelled s.manager ids).sound hs)
    · have hseq := instanceSeq_foldl (f := releaseMacroHeldForInstance) (fun _ _ => rfl) ids
        (markCancelled s.manager ids)
      exact (hissued j hj).trans_eq hseq.symm
  | forget ids =>
    cases hstep
    refine ⟨?_, fun j hj => ?_⟩
    · exact Sound.foldl (fun m j hm => (sameOutputs_forgetInstance m j).sound hm) ids hs
    · have hseq := instanceSeq_foldl (f := forgetInstance) (fun _ _ => rfl) ids s.manager
      exact (hissued j hj).trans_eq hseq.symm
  | unwind i =>
    obtain ⟨-, rfl⟩ := enabled_eq_some.mp hstep
    refine ⟨(sameOutputs_forgetInstance _ i).sound (hs.stop i), fun j hj => ?_⟩
    rcases hj with hj | hj
    · exact hissued j (Or.inl hj)
    · exact hissued j (Or.inr (Finset.mem_of_mem_erase hj))
  | reap i =>
    obtain ⟨-, rfl⟩ := enabled_eq_some.mp hstep
    refine ⟨(sameOutputs_forgetInstance s.manager i).sound hs, fun j hj => ?_⟩
    rcases hj with hj | hj
    · exact hissued j (Or.inl (Finset.mem_of_mem_erase hj))
    · exact hissued j (Or.inr hj)
  | reopen outputs recreated =>
    cases hstep
    exact ⟨hs.reopen outputs recreated, hissued⟩

/-- The counts of an instance's keys are the numbers of instances that record
them, and once no instance is left no key is down. -/
theorem macros_leave_no_output_down {outputs : OutputState} {ops : List Op} {s : State}
    (hrun : run step (initial outputs) ops = some s) :
    (∀ k, s.manager.macroState.keys.countOf k = (s.manager.macroState.keys.holders k).card) ∧
    (∀ k, s.manager.macroState.axes.countOf k = (s.manager.macroState.axes.holders k).card) ∧
    (∀ i k, k ∈ s.manager.macroState.keys.heldBy i → 0 < s.manager.macroState.keys.countOf k) ∧
    (∀ i k, k ∈ s.manager.macroState.axes.heldBy i → 0 < s.manager.macroState.axes.countOf k) ∧
    (s.created = ∅ → s.playing = ∅ → s.manager.down = ∅) := by
  have hinv : Inv s := run_invariant (fun _ _ _ h hstep => h.step hstep) (inv_initial outputs) hrun
  have hs := hinv.sound
  refine ⟨hs.keys.count, hs.axes.count, ?_, ?_, ?_⟩
  · exact fun _ _ hk => hs.keys.countOf_pos hk
  · exact fun _ _ hk => hs.axes.countOf_pos hk
  · intro _ hplaying
    rw [Finset.eq_empty_iff_forall_notMem]
    intro k hk
    obtain ⟨-, i, hi⟩ := hs.recorded k hk
    rw [hs.keys_playing i (hplaying ▸ Finset.notMem_empty i)] at hi
    exact absurd hi List.not_mem_nil

def keyA (value : Int) (h : value = 0 ∨ value = 1 ∨ value = 2) : MacroEvent where
  eventType := .key
  code := 30
  value := value
  deviceType := .keyboard
  outputId := none
  key_value := fun _ => h

theorem press_value : (1 : Int) = 0 ∨ (1 : Int) = 1 ∨ (1 : Int) = 2 := by omega

theorem release_value : (0 : Int) = 0 ∨ (0 : Int) = 1 ∨ (0 : Int) = 2 := by omega

/- Two instances hold one key; the first is paused, the second releases the key
directly and presses it again, the first resumes and ends, the second is cancelled. -/
def overlappingRun : List Op :=
  [.start (some false), .begin 1, .emit 1 (keyA 1 press_value), .start none, .begin 2,
    .emit 2 (keyA 1 press_value), .pause 1, .emit 2 (keyA 0 release_value),
    .emit 2 (keyA 1 press_value), .resume 1, .emit 1 (keyA 0 release_value), .unwind 1, .cancel [2],
    .unwind 2]

theorem macros_leave_no_output_down_overlapping :
    ∃ s, run step (initial ⟨true, false, []⟩) overlappingRun = some s ∧ s.manager.down = ∅ := by
  have hsome : (run step (initial ⟨true, false, []⟩) overlappingRun).isSome = true := by
    decide
  obtain ⟨s, hs⟩ := Option.isSome_iff_exists.mp hsome
  have hcreated : (run step (initial ⟨true, false, []⟩) overlappingRun).map State.created =
      some ∅ := by decide
  have hplaying : (run step (initial ⟨true, false, []⟩) overlappingRun).map State.playing =
      some ∅ := by decide
  rw [hs, Option.map_some, Option.some.injEq] at hcreated hplaying
  exact ⟨s, hs, (macros_leave_no_output_down hs).2.2.2.2 hcreated hplaying⟩

end Keymasq.Macros.Instances
