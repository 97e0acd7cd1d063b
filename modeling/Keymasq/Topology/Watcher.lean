import Keymasq.Foundation.Transition
import Keymasq.Topology.Events

/-!
# The topology watcher

The watcher scans the devices and schedules a debounced reconcile for every
change, which cancels the reconcile in flight. After a wake and after reader
failures it reconciles itself. A reconcile reads what to announce and advances the
reconciled snapshot under the operation lock, and broadcasts its events after it.
-/

namespace Keymasq.Topology.Watcher
open Foundation Transition Combo.Names Events

/- Where a reconcile waits: for the debounce or the operation lock, for the
releases under the lock, or for a broadcast, with the events still to send. -/
inductive Phase
  | waiting
  | releasing (r : Reconcile)
  | broadcasting (remaining : List Event)
  deriving DecidableEq

/-- A call of `reconcile_topology`. -/
structure ReconcileTask where
  snapshot : Snapshot
  validateReaders : Bool := false
  reannounce : List String := []
  phase : Phase := .waiting
  deriving DecidableEq

/-- Why the watcher reconciles itself. -/
inductive Purpose
  | wake
  | readerRegrab
  deriving DecidableEq

inductive WatcherTask
  | stopped
  | polling
  | reconciling (purpose : Purpose) (task : ReconcileTask)
  deriving DecidableEq

/- `history` holds the reconciles whose snapshot became the reconciled one, and
`log` the events that were broadcast. -/
structure State where
  liveSnapshot : Snapshot
  reconciledSnapshot : Snapshot
  wakeReconcilePending : Bool := false
  reconcileTask : Option ReconcileTask := none
  watcherTask : WatcherTask := .polling
  history : List Reconcile := []
  log : List Event := []
  deriving DecidableEq

/-- The state once `start_topology_watcher` is done. -/
def started (snapshot : Snapshot) : State where
  liveSnapshot := snapshot
  reconciledSnapshot := snapshot

/-- Which task a reconcile runs in. -/
inductive Runner
  | scheduled
  | watcher
  deriving DecidableEq

def State.task (s : State) : Runner → Option ReconcileTask
  | .scheduled => s.reconcileTask
  | .watcher =>
    match s.watcherTask with
    | .reconciling _ task => some task
    | _ => none

def State.setPhase (s : State) (runner : Runner) (phase : Phase) : State :=
  match runner with
  | .scheduled => { s with reconcileTask := s.reconcileTask.map fun task => { task with phase } }
  | .watcher =>
    match s.watcherTask with
    | .reconciling purpose task =>
      { s with watcherTask := .reconciling purpose { task with phase } }
    | _ => s

/-! ## Steps -/

/- What a reconcile reads under the lock: the desired hardware, the paths of
hidden grabbed sources and the masked hardware. -/
structure Reading where
  desiredHardwareIds : List String
  hiddenSourcePaths : List String
  maskedHardwareIds : List String

inductive Step
  | poll (snapshot : Snapshot) (regrabIds : List String)
  | wake
  | beginReconcile (runner : Runner) (reading : Reading)
  | releaseFails (runner : Runner)
  | commit (runner : Runner)
  | broadcast (runner : Runner) (delivered : Bool)
  | finish (runner : Runner)
  | stop

def scheduleTopologyReconcile (s : State) (snapshot : Snapshot) : State :=
  { s with reconcileTask := some { snapshot } }

/-- The watcher cancels the scheduled reconcile and waits for its end. -/
def reconcileNow (s : State) (purpose : Purpose) (task : ReconcileTask) : State :=
  { s with reconcileTask := none, watcherTask := .reconciling purpose task }

/-- A round of the watch loop; `regrabIds` are the reader regrabs that are due. -/
def poll (s : State) (snapshot : Snapshot) (regrabIds : List String) : State :=
  if s.wakeReconcilePending then reconcileNow s .wake { snapshot, validateReaders := true }
  else if regrabIds ≠ [] then reconcileNow s .readerRegrab { snapshot, reannounce := regrabIds }
  else if snapshot ≠ s.liveSnapshot then
    scheduleTopologyReconcile { s with liveSnapshot := snapshot } snapshot
  else if snapshot ≠ s.reconciledSnapshot ∧ s.reconcileTask.isNone then
    scheduleTopologyReconcile s snapshot
  else s

/-- The end of a reconcile; a failed wake reconcile is tried again. -/
def endReconcile (s : State) (runner : Runner) (succeeded : Bool) : State :=
  match runner with
  | .scheduled => { s with reconcileTask := none }
  | .watcher =>
    match s.watcherTask with
    | .reconciling purpose task =>
      if succeeded then
        { s with
          watcherTask := .polling
          liveSnapshot := task.snapshot
          wakeReconcilePending := if purpose = .wake then false else s.wakeReconcilePending }
      else { s with watcherTask := .polling }
    | _ => s

def reconcileOf (s : State) (task : ReconcileTask) (reading : Reading) : Reconcile where
  previous := s.reconciledSnapshot
  current := task.snapshot
  desiredHardwareIds := reading.desiredHardwareIds
  hiddenSourcePaths := reading.hiddenSourcePaths
  maskedHardwareIds := reading.maskedHardwareIds
  validateReaders := task.validateReaders
  reannounce := task.reannounce

/-- The events a reconcile has still to broadcast. -/
def ReconcileTask.remaining (task : ReconcileTask) : List Event :=
  match task.phase with
  | .broadcasting remaining => remaining
  | _ => []

def State.pending (s : State) : List Event :=
  ((s.task .scheduled).map ReconcileTask.remaining).getD [] ++
    ((s.task .watcher).map ReconcileTask.remaining).getD []

/-- No reconcile is scheduled or running. -/
def State.Quiet (s : State) : Prop := s.task .scheduled = none ∧ s.task .watcher = none

/- A step loses events: it cancels a reconcile that has some left to broadcast,
or a broadcast is not made. -/
def Loses (s : State) : Step → Prop
  | .poll snapshot regrabIds =>
    (s.wakeReconcilePending = true ∨ regrabIds ≠ [] ∨ snapshot ≠ s.liveSnapshot) ∧
      ((s.task .scheduled).map ReconcileTask.remaining).getD [] ≠ []
  | .broadcast _ delivered => delivered = false
  | .stop => s.pending ≠ []
  | _ => False

def Keeps (s : State) (a : Step) : Prop := ¬ Loses s a

instance decidableLoses (s : State) : (a : Step) → Decidable (Loses s a)
  | .poll snapshot regrabIds =>
    inferInstanceAs (Decidable ((s.wakeReconcilePending = true ∨ regrabIds ≠ [] ∨
      snapshot ≠ s.liveSnapshot) ∧
        ((s.task .scheduled).map ReconcileTask.remaining).getD [] ≠ []))
  | .broadcast _ delivered => inferInstanceAs (Decidable (delivered = false))
  | .stop => inferInstanceAs (Decidable (s.pending ≠ []))
  | .wake => inferInstanceAs (Decidable False)
  | .beginReconcile _ _ => inferInstanceAs (Decidable False)
  | .releaseFails _ => inferInstanceAs (Decidable False)
  | .commit _ => inferInstanceAs (Decidable False)
  | .finish _ => inferInstanceAs (Decidable False)

instance decidableKeeps (s : State) (a : Step) : Decidable (Keeps s a) :=
  inferInstanceAs (Decidable (¬ Loses s a))

/-! ## The history of the reconciles -/

/-- The reconciles lead from one snapshot to another. -/
def Chain : Snapshot → List Reconcile → Snapshot → Prop
  | start, [], finish => start = finish
  | start, r :: rest, finish => r.previous = start ∧ Chain r.current rest finish

variable {history : List Reconcile} {s : State} {runner : Runner}

theorem chain_append {start finish : Snapshot} {history' : List Reconcile} :
    Chain start (history ++ history') finish ↔
      ∃ middle, Chain start history middle ∧ Chain middle history' finish := by
  induction history generalizing start with
  | nil => simp [Chain]
  | cons r rest ih => simp [Chain, ih, and_assoc]

theorem pending_of_task {task : ReconcileTask}
    (hexclusive : s.task .watcher ≠ none → s.task .scheduled = none)
    (htask : s.task runner = some task) : s.pending = task.remaining := by
  unfold State.pending
  cases runner with
  | scheduled =>
    have hwatcher : s.task .watcher = none := by
      by_contra h
      rw [hexclusive h] at htask
      cases htask
    rw [htask, hwatcher]
    simp
  | watcher =>
    rw [htask, hexclusive (by simp [htask])]
    simp

theorem setPhase_task {task : ReconcileTask} (phase : Phase) (htask : s.task runner = some task)
    (runner' : Runner) :
    (s.setPhase runner phase).task runner' =
      if runner' = runner then some { task with phase } else s.task runner' := by
  cases runner with
  | scheduled =>
    have htask' : s.reconcileTask = some task := htask
    cases runner' <;> simp [State.setPhase, State.task, htask']
  | watcher =>
    cases hw : s.watcherTask with
    | stopped => simp [State.task, hw] at htask
    | polling => simp [State.task, hw] at htask
    | reconciling purpose task' =>
      have htask' : task' = task := by simpa [State.task, hw] using htask
      cases runner' <;> simp [State.setPhase, State.task, hw, htask']

theorem setPhase_frame (s : State) (runner : Runner) (phase : Phase) :
    (s.setPhase runner phase).history = s.history ∧ (s.setPhase runner phase).log = s.log ∧
      (s.setPhase runner phase).reconciledSnapshot = s.reconciledSnapshot := by
  cases runner with
  | scheduled => exact ⟨rfl, rfl, rfl⟩
  | watcher =>
    unfold State.setPhase
    cases s.watcherTask <;> exact ⟨rfl, rfl, rfl⟩

theorem task_other {runner' : Runner} {task : ReconcileTask}
    (hexclusive : s.task .watcher ≠ none → s.task .scheduled = none)
    (htask : s.task runner = some task) (hne : runner' ≠ runner) : s.task runner' = none := by
  by_contra hsome
  have hboth : s.task .watcher ≠ none ∧ s.task .scheduled ≠ none := by
    cases runner <;> cases runner' <;> simp_all
  exact hboth.2 (hexclusive hboth.1)

theorem endReconcile_frame (s : State) (runner : Runner) (succeeded : Bool) :
    (endReconcile s runner succeeded).history = s.history ∧
      (endReconcile s runner succeeded).log = s.log ∧
      (endReconcile s runner succeeded).reconciledSnapshot = s.reconciledSnapshot := by
  cases runner with
  | scheduled => exact ⟨rfl, rfl, rfl⟩
  | watcher =>
    unfold endReconcile
    cases s.watcherTask with
    | stopped => exact ⟨rfl, rfl, rfl⟩
    | polling => exact ⟨rfl, rfl, rfl⟩
    | reconciling purpose task => cases succeeded <;> exact ⟨rfl, rfl, rfl⟩

theorem endReconcile_task {task : ReconcileTask} (succeeded : Bool)
    (hexclusive : s.task .watcher ≠ none → s.task .scheduled = none)
    (htask : s.task runner = some task) (runner' : Runner) :
    (endReconcile s runner succeeded).task runner' = none := by
  have hother (hne : runner' ≠ runner) := task_other hexclusive htask hne
  cases runner with
  | scheduled =>
    cases runner' with
    | scheduled => rfl
    | watcher => exact hother (by simp)
  | watcher =>
    cases hw : s.watcherTask with
    | stopped => simp [State.task, hw] at htask
    | polling => simp [State.task, hw] at htask
    | reconciling purpose task' =>
      cases runner' with
      | scheduled =>
        have hnone : s.reconcileTask = none := hother (by simp)
        cases succeeded <;> simpa [endReconcile, hw, State.task] using hnone
      | watcher => cases succeeded <;> simp [endReconcile, hw, State.task]

/-! ## Runs -/

section
variable [PyStr] [PyDecimal]

def step (s : State) : Step → Option State
  | .poll snapshot regrabIds =>
    match s.watcherTask with
    | .polling => some (poll s snapshot regrabIds)
    | _ => none
  | .wake => some { s with wakeReconcilePending := true }
  | .beginReconcile runner reading =>
    match s.task runner with
    | some ⟨snapshot, validateReaders, reannounce, .waiting⟩ =>
      some (s.setPhase runner
        (.releasing (reconcileOf s ⟨snapshot, validateReaders, reannounce, .waiting⟩ reading)))
    | _ => none
  | .releaseFails runner =>
    match (s.task runner).map ReconcileTask.phase with
    | some (.releasing _) => some (endReconcile s runner false)
    | _ => none
  | .commit runner =>
    match (s.task runner).map ReconcileTask.phase with
    | some (.releasing r) =>
      some { s.setPhase runner (.broadcasting r.events) with
        reconciledSnapshot := r.current
        history := s.history ++ [r] }
    | _ => none
  | .broadcast runner delivered =>
    match (s.task runner).map ReconcileTask.phase with
    | some (.broadcasting (event :: remaining)) =>
      some { s.setPhase runner (.broadcasting remaining) with
        log := if delivered then s.log ++ [event] else s.log }
    | _ => none
  | .finish runner =>
    match (s.task runner).map ReconcileTask.phase with
    | some (.broadcasting []) => some (endReconcile s runner true)
    | _ => none
  | .stop =>
    match s.watcherTask with
    | .stopped => none
    | _ => some { s with reconcileTask := none, watcherTask := .stopped }

/-! ### What a step does -/

variable {t : State}

theorem step_poll {snapshot : Snapshot} {regrabIds : List String}
    (h : step s (.poll snapshot regrabIds) = some t) :
    s.watcherTask = .polling ∧ t = poll s snapshot regrabIds := by
  cases hw : s.watcherTask with
  | polling =>
    simp only [step, hw, Option.some.injEq] at h
    exact ⟨rfl, h.symm⟩
  | stopped => simp [step, hw] at h
  | reconciling purpose task => simp [step, hw] at h

theorem step_stop (h : step s .stop = some t) :
    t = { s with reconcileTask := none, watcherTask := .stopped } := by
  cases hw : s.watcherTask <;> simp [step, hw] at h <;> exact h.symm

theorem step_beginReconcile {reading : Reading}
    (h : step s (.beginReconcile runner reading) = some t) :
    ∃ task, s.task runner = some task ∧ task.phase = .waiting ∧
      t = s.setPhase runner (.releasing (reconcileOf s task reading)) := by
  cases htask : s.task runner with
  | none => simp [step, htask] at h
  | some task =>
    obtain ⟨snapshot, validateReaders, reannounce, phase⟩ := task
    cases phase with
    | waiting =>
      simp only [step, htask, Option.some.injEq] at h
      exact ⟨_, rfl, rfl, h.symm⟩
    | releasing r => simp [step, htask] at h
    | broadcasting remaining => simp [step, htask] at h

theorem step_releaseFails (h : step s (.releaseFails runner) = some t) :
    ∃ task r, s.task runner = some task ∧ task.phase = .releasing r ∧
      t = endReconcile s runner false := by
  cases htask : s.task runner with
  | none => simp [step, htask] at h
  | some task =>
    cases hphase : task.phase <;> simp [step, htask, hphase] at h
    exact ⟨task, _, rfl, hphase, h.symm⟩

theorem step_commit (h : step s (.commit runner) = some t) :
    ∃ task r, s.task runner = some task ∧ task.phase = .releasing r ∧
      t = { s.setPhase runner (.broadcasting r.events) with
        reconciledSnapshot := r.current
        history := s.history ++ [r] } := by
  cases htask : s.task runner with
  | none => simp [step, htask] at h
  | some task =>
    cases hphase : task.phase <;> simp [step, htask, hphase] at h
    exact ⟨task, _, rfl, hphase, h.symm⟩

theorem step_broadcast {delivered : Bool} (h : step s (.broadcast runner delivered) = some t) :
    ∃ task event remaining, s.task runner = some task ∧
      task.phase = .broadcasting (event :: remaining) ∧
      t = { s.setPhase runner (.broadcasting remaining) with
        log := if delivered then s.log ++ [event] else s.log } := by
  cases htask : s.task runner with
  | none => simp [step, htask] at h
  | some task =>
    cases hphase : task.phase with
    | waiting => simp [step, htask, hphase] at h
    | releasing r => simp [step, htask, hphase] at h
    | broadcasting remaining =>
      cases remaining with
      | nil => simp [step, htask, hphase] at h
      | cons event rest =>
        simp only [step, htask, Option.map_some, hphase, Option.some.injEq] at h
        exact ⟨task, event, rest, rfl, hphase, h.symm⟩

theorem step_finish (h : step s (.finish runner) = some t) :
    ∃ task, s.task runner = some task ∧ task.phase = .broadcasting [] ∧
      t = endReconcile s runner true := by
  cases htask : s.task runner with
  | none => simp [step, htask] at h
  | some task =>
    cases hphase : task.phase with
    | waiting => simp [step, htask, hphase] at h
    | releasing r => simp [step, htask, hphase] at h
    | broadcasting remaining =>
      cases remaining with
      | cons event rest => simp [step, htask, hphase] at h
      | nil =>
        simp only [step, htask, Option.map_some, hphase, Option.some.injEq] at h
        exact ⟨task, rfl, hphase, h.symm⟩

/-! ### What holds along a run -/

/-- What holds between the steps of a watcher that started with `initial`. -/
structure Accounted (initial : Snapshot) (s : State) : Prop where
  chain : Chain initial s.history s.reconciledSnapshot
  exclusive : s.task .watcher ≠ none → s.task .scheduled = none
  releasing : ∀ runner task r, s.task runner = some task → task.phase = .releasing r →
    r.previous = s.reconciledSnapshot
  announced : s.log ++ s.pending = s.history.flatMap Reconcile.events

theorem accounted_started (snapshot : Snapshot) : Accounted snapshot (started snapshot) where
  chain := rfl
  exclusive := fun _ => rfl
  releasing := by
    intro runner task r htask
    cases runner <;> cases htask
  announced := rfl

/-- A state without events to broadcast may go on with any tasks that wait. -/
theorem Accounted.restart {initial : Snapshot} (h : Accounted initial s) (hpending : s.pending = [])
    (hhistory : t.history = s.history) (hlog : t.log = s.log)
    (hreconciled : t.reconciledSnapshot = s.reconciledSnapshot)
    (hexclusive : t.task .watcher ≠ none → t.task .scheduled = none)
    (hwaiting : ∀ runner task, t.task runner = some task → task.phase = .waiting) :
    Accounted initial t where
  chain := by rw [hhistory, hreconciled]; exact h.chain
  exclusive := hexclusive
  releasing := by
    intro runner task r htask hphase
    rw [hwaiting runner task htask] at hphase
    cases hphase
  announced := by
    have hnone (runner : Runner) : ((t.task runner).map ReconcileTask.remaining).getD [] = [] := by
      cases htask : t.task runner with
      | none => rfl
      | some task => simp [ReconcileTask.remaining, hwaiting runner task htask]
    have hpending' : t.pending = [] := by
      unfold State.pending
      rw [hnone, hnone]
      rfl
    have hbefore := h.announced
    rw [hpending] at hbefore
    rw [hpending', hlog, hhistory]
    exact hbefore

theorem accounted_endReconcile {initial : Snapshot} (h : Accounted initial s) {task : ReconcileTask}
    (htask : s.task runner = some task) (hremaining : task.remaining = []) (succeeded : Bool) :
    Accounted initial (endReconcile s runner succeeded) := by
  obtain ⟨hhistory, hlog, hreconciled⟩ := endReconcile_frame s runner succeeded
  have hnone := endReconcile_task succeeded h.exclusive htask
  refine h.restart ?_ hhistory hlog hreconciled (fun _ => hnone .scheduled) ?_
  · rw [pending_of_task h.exclusive htask, hremaining]
  · intro runner' task' htask'
    rw [hnone runner'] at htask'
    cases htask'

/-- The watcher polls: a reconcile it cancels had nothing left to broadcast. -/
theorem accounted_poll {initial : Snapshot} (h : Accounted initial s)
    (hpolling : s.watcherTask = .polling) {snapshot : Snapshot} {regrabIds : List String}
    (hkeeps : Keeps s (.poll snapshot regrabIds)) :
    Accounted initial (poll s snapshot regrabIds) := by
  have hwatcher : s.task .watcher = none := by simp [State.task, hpolling]
  have hpending : (s.wakeReconcilePending = true ∨ regrabIds ≠ [] ∨ snapshot ≠ s.liveSnapshot) →
      s.pending = [] := by
    intro hcancels
    have hremaining : ((s.task .scheduled).map ReconcileTask.remaining).getD [] = [] := by
      by_contra hleft
      exact hkeeps ⟨hcancels, hleft⟩
    unfold State.pending
    rw [hremaining, hwatcher]
    rfl
  have hnow (purpose : Purpose) (task : ReconcileTask) (hphase : task.phase = .waiting)
      (hcancels : s.wakeReconcilePending = true ∨ regrabIds ≠ [] ∨ snapshot ≠ s.liveSnapshot) :
      Accounted initial (reconcileNow s purpose task) := by
    refine h.restart (hpending hcancels) rfl rfl rfl (fun _ => rfl) ?_
    intro runner task' htask'
    cases runner with
    | scheduled => cases htask'
    | watcher =>
      cases htask'
      exact hphase
  have hscheduled (live : Snapshot) (hnothing : s.pending = []) :
      Accounted initial (scheduleTopologyReconcile { s with liveSnapshot := live } snapshot) := by
    refine h.restart hnothing rfl rfl rfl ?_ ?_
    · intro hsome
      exact absurd hwatcher hsome
    · intro runner task' htask'
      cases runner with
      | scheduled =>
        cases htask'
        rfl
      | watcher =>
        have hnone : s.task .watcher = some task' := htask'
        rw [hwatcher] at hnone
        cases hnone
  unfold poll
  split
  · rename_i hwake
    exact hnow .wake _ rfl (.inl hwake)
  · split
    · rename_i hregrab
      exact hnow .readerRegrab _ rfl (.inr (.inl hregrab))
    · split
      · rename_i hlive
        exact hscheduled snapshot (hpending (.inr (.inr hlive)))
      · split
        · rename_i hretry
          refine hscheduled s.liveSnapshot ?_
          have hnone : s.task .scheduled = none := by simpa [State.task] using hretry.2
          unfold State.pending
          rw [hnone, hwatcher]
          rfl
        · exact h

theorem accounted_setPhase {initial : Snapshot} (h : Accounted initial s) {task : ReconcileTask}
    (htask : s.task runner = some task) (phase : Phase)
    (htasks : ∀ runner', t.task runner' = (s.setPhase runner phase).task runner')
    (hchain : Chain initial t.history t.reconciledSnapshot)
    (hreleasing : ∀ r, phase = .releasing r → r.previous = t.reconciledSnapshot)
    (hannounced : t.log ++ ({ task with phase } : ReconcileTask).remaining =
      t.history.flatMap Reconcile.events) : Accounted initial t := by
  have hthis : t.task runner = some { task with phase } := by
    rw [htasks, setPhase_task phase htask, if_pos rfl]
  have hother (runner' : Runner) (hne : runner' ≠ runner) : t.task runner' = none := by
    rw [htasks, setPhase_task phase htask, if_neg hne]
    exact task_other h.exclusive htask hne
  have hexclusive : t.task .watcher ≠ none → t.task .scheduled = none := by
    intro hsome
    refine hother .scheduled ?_
    rintro rfl
    exact hsome (hother .watcher (by simp))
  refine ⟨hchain, hexclusive, ?_, ?_⟩
  · intro runner' task' r htask' hphase
    by_cases heq : runner' = runner
    · rw [heq, hthis] at htask'
      cases htask'
      exact hreleasing r hphase
    · rw [hother runner' heq] at htask'
      cases htask'
  · rw [pending_of_task hexclusive hthis]
    exact hannounced

theorem accounted_step {initial : Snapshot} (s : State) (a : Step) (t : State)
    (h : Accounted initial s) (hkeeps : Keeps s a) (hstep : step s a = some t) :
    Accounted initial t := by
  cases a with
  | poll snapshot regrabIds =>
    obtain ⟨hpolling, rfl⟩ := step_poll hstep
    exact accounted_poll h hpolling hkeeps
  | wake =>
    cases hstep
    exact ⟨h.chain, h.exclusive, h.releasing, h.announced⟩
  | stop =>
    have hpending : s.pending = [] := by
      by_contra hleft
      exact hkeeps hleft
    rw [step_stop hstep]
    refine h.restart hpending rfl rfl rfl (fun _ => rfl) ?_
    intro runner task htask
    cases runner <;> cases htask
  | beginReconcile runner reading =>
    obtain ⟨task, htask, hphase, rfl⟩ := step_beginReconcile hstep
    have hannounced := h.announced
    rw [pending_of_task h.exclusive htask, ReconcileTask.remaining, hphase] at hannounced
    have hframe := setPhase_frame s runner
    refine accounted_setPhase h htask _ (fun _ => rfl) ?_ ?_ ?_
    · rw [(hframe _).1, (hframe _).2.2]
      exact h.chain
    · intro r hr
      cases hr
      rw [(hframe _).2.2]
      rfl
    · rw [(hframe _).1, (hframe _).2.1]
      exact hannounced
  | releaseFails runner =>
    obtain ⟨task, r, htask, hphase, rfl⟩ := step_releaseFails hstep
    exact accounted_endReconcile h htask (by simp [ReconcileTask.remaining, hphase]) false
  | finish runner =>
    obtain ⟨task, htask, hphase, rfl⟩ := step_finish hstep
    exact accounted_endReconcile h htask (by simp [ReconcileTask.remaining, hphase]) true
  | commit runner =>
    obtain ⟨task, r, htask, hphase, ht⟩ := step_commit hstep
    have hprevious := h.releasing runner task r htask hphase
    have hannounced := h.announced
    rw [pending_of_task h.exclusive htask, ReconcileTask.remaining, hphase,
      List.append_nil] at hannounced
    have hlog : t.log = s.log := by rw [ht]; exact (setPhase_frame s runner _).2.1
    have hhistory : t.history = s.history ++ [r] := by rw [ht]
    have hreconciled : t.reconciledSnapshot = r.current := by rw [ht]
    refine accounted_setPhase h htask (.broadcasting r.events) ?_ ?_ ?_ ?_
    · intro runner'
      rw [ht]
      cases runner' <;> rfl
    · rw [hhistory, hreconciled]
      exact chain_append.mpr ⟨_, h.chain, hprevious, rfl⟩
    · intro r' hr'
      cases hr'
    · rw [hlog, hhistory, List.flatMap_append, ← hannounced]
      simp [ReconcileTask.remaining]
  | broadcast runner delivered =>
    have hdelivered : delivered = true := by
      cases delivered with
      | true => rfl
      | false => exact absurd rfl hkeeps
    obtain ⟨task, event, remaining, htask, hphase, ht⟩ := step_broadcast hstep
    have hannounced := h.announced
    rw [pending_of_task h.exclusive htask, ReconcileTask.remaining, hphase] at hannounced
    have hhistory : t.history = s.history := by rw [ht]; exact (setPhase_frame s runner _).1
    have hreconciled : t.reconciledSnapshot = s.reconciledSnapshot := by
      rw [ht]
      exact (setPhase_frame s runner _).2.2
    have hlog : t.log = s.log ++ [event] := by rw [ht, hdelivered, if_pos rfl]
    refine accounted_setPhase h htask (.broadcasting remaining) ?_ ?_ ?_ ?_
    · intro runner'
      rw [ht]
      cases runner' <;> rfl
    · rw [hhistory, hreconciled]
      exact h.chain
    · intro r hr
      cases hr
    · rw [hlog, hhistory, ← hannounced]
      simp [ReconcileTask.remaining]

/-! ## The last change of an interface -/

/-- Two listings of a path are of different hardware, paths or interfaces, or one is missing. -/
def Differs (before now : Option LiveInterfaceInfo) : Prop :=
  match before, now with
  | none, none => False
  | some info, some info' =>
    ¬ (normalizeHardwareId info.hardwareId = normalizeHardwareId info'.hardwareId ∧
      info.path = info'.path ∧ info.interfaceId = info'.interfaceId)
  | _, _ => True

omit [PyDecimal] in
theorem not_differs_trans {a b c : Option LiveInterfaceInfo} (hab : ¬ Differs a b)
    (hbc : ¬ Differs b c) : ¬ Differs a c := by
  unfold Differs at hab hbc ⊢
  cases a with
  | none =>
    cases b with
    | none => exact hbc
    | some info' => exact absurd trivial hab
  | some info =>
    cases b with
    | none => exact absurd trivial hab
    | some info' =>
      cases c with
      | none => exact absurd trivial hbc
      | some info'' =>
        simp only [not_not] at hab hbc ⊢
        exact ⟨hab.1.trans hbc.1, hab.2.1.trans hbc.2.1, hab.2.2.trans hbc.2.2⟩

omit [PyDecimal] in
theorem not_differs_of_unchanged {r : Reconcile} {path : String} (h : ¬ r.Changes path) :
    ¬ Differs (r.previous.entries.get? path) (r.current.entries.get? path) := by
  unfold Reconcile.Changes at h
  unfold Differs
  cases hp : r.previous.entries.get? path with
  | none =>
    cases hc : r.current.entries.get? path with
    | none => simp
    | some info => simp [hp, hc] at h
  | some info =>
    cases hc : r.current.entries.get? path with
    | none => simp [hp, hc] at h
    | some info' =>
      simp only [hp, hc] at h
      obtain ⟨hhardware, hpath, hinterface⟩ := reflects_unchanged (reflects_self info) h
      exact not_not_intro ⟨hhardware, hpath, hinterface⟩

omit [PyDecimal] in
theorem not_differs_of_chain {start final : Snapshot} {path : String}
    (hchain : Chain start history final) (hsame : ∀ r ∈ history, ¬ r.Changes path) :
    ¬ Differs (start.entries.get? path) (final.entries.get? path) := by
  induction history generalizing start with
  | nil =>
    cases hchain
    cases h : final.entries.get? path <;> simp [Differs]
  | cons r rest ih =>
    obtain ⟨hprevious, hrest⟩ := hchain
    have hfirst := not_differs_of_unchanged (hsame r List.mem_cons_self)
    rw [hprevious] at hfirst
    exact not_differs_trans hfirst (ih hrest fun r' hr' => hsame r' (List.mem_cons_of_mem _ hr'))

omit [PyStr] [PyDecimal] in
theorem exists_last {α : Type} {P : α → Prop} {items : List α} (h : ∃ a ∈ items, P a) :
    ∃ before a after, items = before ++ a :: after ∧ P a ∧ ∀ b ∈ after, ¬ P b := by
  induction items with
  | nil => simp at h
  | cons a items ih =>
    by_cases hlater : ∃ b ∈ items, P b
    · obtain ⟨before, b, after, heq, hb, hafter⟩ := ih hlater
      exact ⟨a :: before, b, after, by rw [heq]; rfl, hb, hafter⟩
    · obtain ⟨b, hb, hP⟩ := h
      obtain heq | hin := List.mem_cons.mp hb
      · refine ⟨[], a, items, rfl, heq ▸ hP, fun c hc hPc => hlater ⟨c, hc, hPc⟩⟩
      · exact absurd ⟨b, hin, hP⟩ hlater

omit [PyDecimal] in
/-- A path that is listed differently in the end was changed by some last reconcile. -/
theorem exists_last_change {initial final : Snapshot} (hchain : Chain initial history final)
    {path : String} (h : Differs (initial.entries.get? path) (final.entries.get? path)) :
    ∃ before r after, history = before ++ r :: after ∧ r.Changes path ∧
      ∀ r' ∈ after, ¬ r'.Changes path := by
  refine exists_last ?_
  by_contra hnone
  refine not_differs_of_chain hchain (fun r hr hchanges => hnone ⟨r, hr, hchanges⟩) h

omit [PyDecimal] in
/-- What was broadcast before does not matter to the last event about a path. -/
theorem announced_after {path : String} (earlier : List Event) {events : List Event}
    {before now : Option LiveInterfaceInfo} (h : Announced events path before now) :
    Announced (earlier ++ events) path before now := by
  unfold Announced at h ⊢
  cases now with
  | none =>
    obtain ⟨info, hbefore, hlast⟩ := h
    exact ⟨info, hbefore, lastAbout_append_of_some earlier hlast⟩
  | some info =>
    obtain ⟨payload, hlast, hreflects⟩ := h
    exact ⟨payload, lastAbout_append_of_some earlier hlast, hreflects⟩

/-- What the last changing reconcile announced is still in force at the end. -/
theorem announced_last_change {start final : Snapshot} {after : List Reconcile} {path : String}
    {before : Option LiveInterfaceInfo} {events : List Event} (hchain : Chain start after final)
    (hsame : ∀ r ∈ after, ¬ r.Changes path)
    (h : Announced events path before (start.entries.get? path)) :
    Announced (events ++ after.flatMap Reconcile.events) path before
      (final.entries.get? path) := by
  induction after generalizing start events with
  | nil =>
    cases hchain
    simpa using h
  | cons r after ih =>
    obtain ⟨hprevious, hrest⟩ := hchain
    rw [List.flatMap_cons, ← List.append_assoc]
    refine ih hrest (fun r' hr' => hsame r' (List.mem_cons_of_mem _ hr')) ?_
    refine announced_unchanged ?_ (hsame r List.mem_cons_self)
    rw [hprevious]
    exact h

/- In a quiet state of a run that loses no event, an interface that is listed
otherwise than at the start has a last change, and a last change of desired
hardware is what was last broadcast about it. -/
theorem topology_changes_are_announced (initial : Snapshot) (as : List Step) (s : State)
    (hkeeps : Guarded step Keeps (started initial) as)
    (hrun : run step (started initial) as = some s) (hquiet : s.Quiet) (path : String) :
    (Differs (initial.entries.get? path) (s.reconciledSnapshot.entries.get? path) →
      ∃ before r after, s.history = before ++ r :: after ∧ r.Changes path ∧
        ∀ r' ∈ after, ¬ r'.Changes path) ∧
    ∀ before r after, s.history = before ++ r :: after → r.Changes path → r.Announces path →
      (∀ r' ∈ after, ¬ r'.Changes path) →
      Announced s.log path (r.previous.entries.get? path)
        (s.reconciledSnapshot.entries.get? path) := by
  have haccounted : Accounted initial s :=
    guarded_run_invariant accounted_step (accounted_started initial) hkeeps hrun
  refine ⟨exists_last_change haccounted.chain, ?_⟩
  intro before r after hhistory hchanges hannounces hsame
  have hlog : s.log = before.flatMap Reconcile.events ++ r.events ++
      after.flatMap Reconcile.events := by
    have hannounced := haccounted.announced
    rw [State.pending, hquiet.1, hquiet.2, hhistory] at hannounced
    simpa [List.append_assoc] using hannounced
  have hchain := haccounted.chain
  rw [hhistory] at hchain
  obtain ⟨start, -, -, hafter⟩ := chain_append.mp hchain
  have hchange := announced_change hchanges hannounces
  rw [hlog]
  exact announced_last_change hafter hsame (announced_after _ hchange)

end

/-! ## A reconcile cancelled while it broadcasts -/

attribute [local instance] asciiStr

/-- Decimal digits of ASCII text. -/
local instance asciiDecimal : PyDecimal where
  isdecimal s := s.toList ≠ [] && s.toList.all Char.isDigit

def keyboardInfo (stablePath path : String) : LiveInterfaceInfo where
  hardwareId := "046d:c31c"
  vendorId := "046d"
  productId := "c31c"
  stablePath := stablePath
  path := path
  interfaceId := ""

def firstScan : Snapshot := Snapshot.empty.add (keyboardInfo "/dev/input/by-id/kbd" "/dev/input/event3")

def secondScan : Snapshot := firstScan.add (keyboardInfo "/dev/input/by-id/kbd-if01" "/dev/input/event4")

def desiredKeyboard : Reading := ⟨["046d:c31c"], [], []⟩

/- The second interface of a keyboard appears while the first one is about to be
announced; the next reconcile finds only the second. -/
def cancelledBroadcast : List Step :=
  [.poll firstScan [], .beginReconcile .scheduled desiredKeyboard, .commit .scheduled,
    .poll secondScan [], .beginReconcile .scheduled desiredKeyboard, .commit .scheduled,
    .broadcast .scheduled true, .finish .scheduled]

def firstReconcile : Reconcile := ⟨Snapshot.empty, firstScan, ["046d:c31c"], [], [], false, []⟩

def secondReconcile : Reconcile := ⟨firstScan, secondScan, ["046d:c31c"], [], [], false, []⟩

def afterCancelledBroadcast : State where
  liveSnapshot := secondScan
  reconciledSnapshot := secondScan
  history := [firstReconcile, secondReconcile]
  log := secondReconcile.events

theorem cancelled_broadcast_is_lost :
    ¬ ∀ (initial : Snapshot) (as : List Step) (s : State), run step (started initial) as = some s →
      s.Quiet → ∀ path before r after, s.history = before ++ r :: after → r.Changes path →
        r.Announces path → (∀ r' ∈ after, ¬ r'.Changes path) →
        Announced s.log path (r.previous.entries.get? path)
          (s.reconciledSnapshot.entries.get? path) := by
  intro h
  have hrun : run step (started Snapshot.empty) cancelledBroadcast =
      some afterCancelledBroadcast := by decide
  have hentry : firstReconcile.current.entries.get? "/dev/input/by-id/kbd" =
      some (keyboardInfo "/dev/input/by-id/kbd" "/dev/input/event3") := by decide
  have hentry' : secondReconcile.current.entries.get? "/dev/input/by-id/kbd" =
      some (keyboardInfo "/dev/input/by-id/kbd" "/dev/input/event3") := by decide
  have hannounces : firstReconcile.Announces "/dev/input/by-id/kbd" := by
    unfold Reconcile.Announces
    rw [hentry]
    exact ⟨by decide, by decide +kernel⟩
  have hchanges : firstReconcile.Changes "/dev/input/by-id/kbd" := by
    unfold Reconcile.Changes
    rw [hentry]
    trivial
  have hsame : ¬ secondReconcile.Changes "/dev/input/by-id/kbd" := by
    unfold Reconcile.Changes
    rw [hentry', show secondReconcile.previous = firstReconcile.current from rfl, hentry]
    decide
  have hlast : lastAbout "/dev/input/by-id/kbd" afterCancelledBroadcast.log = none := by
    decide
  have hannounced := h Snapshot.empty cancelledBroadcast afterCancelledBroadcast hrun ⟨rfl, rfl⟩
    "/dev/input/by-id/kbd" [] firstReconcile [secondReconcile] rfl hchanges hannounces
    (by simpa using hsame)
  rw [show afterCancelledBroadcast.reconciledSnapshot = secondReconcile.current from rfl,
    hentry'] at hannounced
  obtain ⟨payload, hevent, -⟩ := hannounced
  rw [hlast] at hevent
  cases hevent

/-- A reconcile that is left alone announces the interface. -/
theorem first_scan_is_announced :
    ∃ s, run step (started Snapshot.empty)
        [.poll firstScan [], .beginReconcile .scheduled desiredKeyboard, .commit .scheduled,
          .broadcast .scheduled true, .finish .scheduled] = some s ∧
      Announced s.log "/dev/input/by-id/kbd"
        (firstReconcile.previous.entries.get? "/dev/input/by-id/kbd")
        (s.reconciledSnapshot.entries.get? "/dev/input/by-id/kbd") := by
  have hrun : run step (started Snapshot.empty)
      [.poll firstScan [], .beginReconcile .scheduled desiredKeyboard, .commit .scheduled,
        .broadcast .scheduled true, .finish .scheduled] =
      some { liveSnapshot := firstScan, reconciledSnapshot := firstScan,
             history := [firstReconcile], log := firstReconcile.events } := by decide
  have hentry : firstReconcile.current.entries.get? "/dev/input/by-id/kbd" =
      some (keyboardInfo "/dev/input/by-id/kbd" "/dev/input/event3") := by decide
  have hkeeps : Guarded step Keeps (started Snapshot.empty)
      [.poll firstScan [], .beginReconcile .scheduled desiredKeyboard, .commit .scheduled,
        .broadcast .scheduled true, .finish .scheduled] := by
    decide
  have hannounces : firstReconcile.Announces "/dev/input/by-id/kbd" := by
    unfold Reconcile.Announces
    rw [hentry]
    exact ⟨by decide, by decide +kernel⟩
  have hchanges : firstReconcile.Changes "/dev/input/by-id/kbd" := by
    unfold Reconcile.Changes
    rw [hentry]
    trivial
  exact ⟨_, hrun, (topology_changes_are_announced Snapshot.empty _ _ hkeeps hrun ⟨rfl, rfl⟩
    "/dev/input/by-id/kbd").2 [] firstReconcile [] rfl hchanges hannounces (by simp)⟩

end Keymasq.Topology.Watcher
