import Keymasq.Topology.Watcher

/-!
# Regrabs after reader failures

A reader that fails releases its interface and asks for its hardware to be
announced again, once more after every failure and with growing delays. The
watcher takes the requests that are due into a reconcile of its own and clears
them when that reconcile has announced.
-/

namespace Keymasq.Topology.Regrabs
open Foundation Foundation.Sorting Transition Combo.Names Events Watcher

def regrabRetry : ℤ := 1000
def regrabRetryMax : ℤ := 60000

/-- A request for a regrab, with its times in milliseconds. -/
structure ReaderRegrab where
  due : Option ℤ
  delay : ℤ
  announced : Option ℤ := none

abbrev ReaderRegrabs := Dict String ReaderRegrab

/-! ## The requests -/

/-- A regrab of hardware that was not announced, or not lately, is due at once. -/
def requestReaderRegrab (regrabs : ReaderRegrabs) (hardwareId : String) (now : ℤ) :
    ReaderRegrabs :=
  let fresh := regrabs.insert hardwareId { due := some now, delay := regrabRetry }
  match regrabs.get? hardwareId with
  | none => fresh
  | some regrab =>
    match regrab.due, regrab.announced with
    | some _, _ => regrabs
    | none, none => fresh
    | none, some announced =>
      if regrabRetryMax ≤ now - announced then fresh
      else regrabs.insert hardwareId
        { regrab with
          due := some (announced + regrab.delay)
          delay := min (regrab.delay * 2) regrabRetryMax }

/-- An announced regrab is forgotten after the longest delay. -/
def ReaderRegrab.expired (regrab : ReaderRegrab) (now : ℤ) : Bool :=
  match regrab.due, regrab.announced with
  | none, some announced => regrabRetryMax ≤ now - announced
  | _, _ => false

/-- What is kept of the requests, and the hardware whose regrab is due. -/
def dueReaderRegrabs (regrabs : ReaderRegrabs) (now : ℤ) : ReaderRegrabs × List String :=
  let kept := regrabs.filter fun _ regrab => ! regrab.expired now
  (kept, sortedOn id (kept.filter fun _ regrab => regrab.due.any (· ≤ now)).keys)

def markReaderRegrabAnnounced (now : ℤ) (regrabs : ReaderRegrabs) (hardwareId : String) :
    ReaderRegrabs :=
  match regrabs.get? hardwareId with
  | none => regrabs
  | some regrab =>
    if regrab.due.isSome then
      regrabs.insert hardwareId { regrab with due := none, announced := some now }
    else regrabs

def markReaderRegrabsAnnounced (regrabs : ReaderRegrabs) (hardwareIds : List String) (now : ℤ) :
    ReaderRegrabs :=
  hardwareIds.foldl (markReaderRegrabAnnounced now) regrabs

/-- A retry is recorded. -/
def Recorded (regrabs : ReaderRegrabs) (hardwareId : String) : Prop :=
  ∃ regrab due, regrabs.get? hardwareId = some regrab ∧ regrab.due = some due

theorem recorded_requestReaderRegrab (regrabs : ReaderRegrabs) (hardwareId : String) (now : ℤ) :
    Recorded (requestReaderRegrab regrabs hardwareId now) hardwareId := by
  have hfresh : Recorded
      (regrabs.insert hardwareId { due := some now, delay := regrabRetry }) hardwareId :=
    ⟨_, now, Dict.get?_insert_self .., rfl⟩
  unfold requestReaderRegrab
  cases hget : regrabs.get? hardwareId with
  | none => exact hfresh
  | some regrab =>
    cases hdue : regrab.due with
    | some due => simpa only [hdue] using ⟨regrab, due, hget, hdue⟩
    | none =>
      cases hannounced : regrab.announced with
      | none => simpa only [hdue, hannounced] using hfresh
      | some announced =>
        simp only [hdue, hannounced]
        split
        · exact hfresh
        · exact ⟨_, announced + regrab.delay, Dict.get?_insert_self .., rfl⟩

variable {hardwareId : String} {regrabs : ReaderRegrabs}

theorem get?_requestReaderRegrab_of_ne (regrabs : ReaderRegrabs) {other : String} (now : ℤ)
    (hne : other ≠ hardwareId) :
    (requestReaderRegrab regrabs hardwareId now).get? other = regrabs.get? other := by
  unfold requestReaderRegrab
  repeat' split
  all_goals first | rfl | exact Dict.get?_insert_of_ne _ _ hne

theorem Recorded.request {other : String} (h : Recorded regrabs other) (hardwareId : String)
    (now : ℤ) :
    Recorded (requestReaderRegrab regrabs hardwareId now) other := by
  by_cases heq : other = hardwareId
  · subst heq
    exact recorded_requestReaderRegrab regrabs other now
  · obtain ⟨regrab, due, hget, hdue⟩ := h
    refine ⟨regrab, due, ?_, hdue⟩
    rw [get?_requestReaderRegrab_of_ne regrabs now heq]
    exact hget

theorem get?_kept {regrab : ReaderRegrab} {due : ℤ} (hget : regrabs.get? hardwareId = some regrab)
    (hdue : regrab.due = some due) (now : ℤ) :
    (dueReaderRegrabs regrabs now).1.get? hardwareId = some regrab := by
  refine Dict.get?_filter_eq_some.mpr ⟨hget, ?_⟩
  simp [ReaderRegrab.expired, hdue]

/-- Only announced regrabs are forgotten. -/
theorem Recorded.kept (h : Recorded regrabs hardwareId) (now : ℤ) :
    Recorded (dueReaderRegrabs regrabs now).1 hardwareId := by
  obtain ⟨regrab, due, hget, hdue⟩ := h
  exact ⟨regrab, due, get?_kept hget hdue now, hdue⟩

/-- A recorded retry becomes due. -/
theorem Recorded.becomes_due (h : Recorded regrabs hardwareId) :
    ∃ due, ∀ now, due ≤ now → hardwareId ∈ (dueReaderRegrabs regrabs now).2 := by
  obtain ⟨regrab, due, hget, hdue⟩ := h
  refine ⟨due, fun now hnow => ?_⟩
  have hin : ((dueReaderRegrabs regrabs now).1.filter
      fun _ regrab => regrab.due.any (· ≤ now)).get? hardwareId = some regrab := by
    refine Dict.get?_filter_eq_some.mpr ⟨get?_kept hget hdue now, ?_⟩
    simpa [hdue] using hnow
  refine (sortedOn_perm id _).mem_iff.mpr ?_
  by_contra hnot
  have hnone := Dict.get?_eq_none_iff.mpr hnot
  exact absurd (hnone.symm.trans hin) (by simp)

/-- A request without a time is never due. -/
theorem not_due_of_no_due
    (h : (regrabs.get? hardwareId).any (fun regrab => regrab.due.isNone) = true) :
    ¬ ∃ due, ∀ now, due ≤ now → hardwareId ∈ (dueReaderRegrabs regrabs now).2 := by
  rintro ⟨due, hdue⟩
  obtain ⟨regrab, hget, hnone⟩ := (Option.any_eq_true _ _).mp h
  have hin := (sortedOn_perm id _).mem_iff.mp (hdue due le_rfl)
  obtain ⟨regrab', hget'⟩ := Option.isSome_iff_exists.mp (Dict.contains_iff.mpr hin)
  obtain ⟨hkept, hpast⟩ := Dict.get?_filter_eq_some.mp hget'
  obtain ⟨hget', -⟩ := Dict.get?_filter_eq_some.mp hkept
  rw [hget] at hget'
  cases hget'
  rw [Option.isNone_iff_eq_none.mp hnone] at hpast
  cases hpast

theorem get?_markReaderRegrabAnnounced_of_ne (regrabs : ReaderRegrabs) {other : String} (now : ℤ)
    (hne : other ≠ hardwareId) :
    (markReaderRegrabAnnounced now regrabs hardwareId).get? other = regrabs.get? other := by
  unfold markReaderRegrabAnnounced
  repeat' split
  all_goals first | rfl | exact Dict.get?_insert_of_ne _ _ hne

theorem get?_markReaderRegrabsAnnounced_of_not_mem {hardwareIds : List String}
    (hnot : hardwareId ∉ hardwareIds) (regrabs : ReaderRegrabs) (now : ℤ) :
    (markReaderRegrabsAnnounced regrabs hardwareIds now).get? hardwareId =
      regrabs.get? hardwareId := by
  unfold markReaderRegrabsAnnounced
  induction hardwareIds generalizing regrabs with
  | nil => rfl
  | cons marked rest ih =>
    obtain ⟨hne, hrest⟩ := not_or.mp (mt List.mem_cons.mpr hnot)
    rw [List.foldl_cons, ih hrest]
    exact get?_markReaderRegrabAnnounced_of_ne regrabs now hne

/-! ## The watcher with its requests -/

/- `desired` is the hardware with a desired grab. The rest says what became of the
failures: `awaiting` is the hardware with a failed reader that has not been grabbed
again, `announced` what was announced to the session since its last failure.
`undelivered` is hardware whose announcement failed in the reconcile that took its
request, and `skipped` hardware that this reconcile did not announce because it was
masked or not listed. -/
structure System where
  base : Watcher.State
  readerRegrabs : ReaderRegrabs := ∅
  desired : List String := []
  awaiting : Finset String := ∅
  announced : Finset String := ∅
  undelivered : Finset String := ∅
  skipped : Finset String := ∅

def System.started (snapshot : Snapshot) (desired : List String) : System where
  base := Watcher.started snapshot
  desired := desired

inductive Label
  | poll (snapshot : Snapshot) (now : ℤ)
  | wake
  | beginReconcile (runner : Runner) (hiddenSourcePaths maskedHardwareIds : List String)
  | releaseFails (runner : Runner)
  | commit (runner : Runner)
  | broadcast (runner : Runner) (delivered : Bool)
  | finish (runner : Runner) (now : ℤ)
  | stop
  | readerFailed (hardwareId : String) (now : ℤ)
  | grab (hardwareId : String)
  | ungrab (hardwareId : String)

/-- The hardware whose requests the end of a reconcile clears. -/
def System.marked (s : System) (runner : Runner) : List String :=
  match runner, s.base.watcherTask with
  | .watcher, .reconciling .wake _ => s.readerRegrabs.keys
  | .watcher, .reconciling .readerRegrab task => task.reannounce
  | _, _ => []

/-- The watcher's own reconcile clears a request for `hardwareId` when it ends. -/
def takes (s : Watcher.State) (hardwareId : String) : Bool :=
  match s.watcherTask with
  | .reconciling .wake _ => true
  | .reconciling .readerRegrab task => hardwareId ∈ task.reannounce
  | _ => false

/-- A reconcile holds the operation lock. -/
def locked (s : Watcher.State) : Bool :=
  [Runner.scheduled, .watcher].any fun runner =>
    match (s.task runner).map ReconcileTask.phase with
    | some (.releasing _) => true
    | _ => false

def System.Answered (s : System) (hardwareId : String) : Prop :=
  hardwareId ∈ s.announced ∨ hardwareId ∈ s.undelivered ∨ hardwareId ∈ s.skipped

section
variable [PyStr] [PyDecimal]

/-- An event announces that hardware is connected. -/
def announces (event : Event) (hardwareId : String) : Bool :=
  event.1 = .deviceConnected &&
    hardwareIdMatchesDesired event.2.hardwareId [hardwareId] event.2.interfaceId

/-- A reconcile does not announce masked hardware again, nor hardware that is not listed. -/
def skips (r : Reconcile) (hardwareId : String) : Bool :=
  hardwareId ∈ r.maskedHardwareIds ||
    r.current.entries.values.all fun info => ! liveInterfaceMatchesDesired info [hardwareId]

/- A broadcast by any reconcile may announce; what a reconcile skips or fails to
broadcast counts where that reconcile clears the request. -/
def commit (s : System) (runner : Runner) : System :=
  match runner, (s.base.task runner).map ReconcileTask.phase with
  | .watcher, some (.releasing r) =>
    { s with
      skipped := s.skipped ∪ s.awaiting.filter fun hw => takes s.base hw && skips r hw }
  | _, _ => s

def broadcast (s : System) (runner : Runner) (delivered : Bool) : System :=
  match (s.base.task runner).map ReconcileTask.phase with
  | some (.broadcasting (event :: _)) =>
    if delivered then
      { s with announced := s.announced ∪ s.awaiting.filter fun hw => announces event hw }
    else if runner = .watcher then
      { s with
        undelivered := s.undelivered ∪
          s.awaiting.filter fun hw => takes s.base hw && announces event hw }
    else s
  | _ => s

/-- `runtime_disconnect_callback`, once the interface is released. -/
def readerFailed (s : System) (hardwareId : String) (now : ℤ) : System :=
  if hardwareId ∈ s.desired then
    { s with
      readerRegrabs := requestReaderRegrab s.readerRegrabs hardwareId now
      awaiting := insert hardwareId s.awaiting
      announced := s.announced.erase hardwareId
      undelivered := s.undelivered.erase hardwareId
      skipped := s.skipped.erase hardwareId }
  else s

/- Interfaces are released and hardware is grabbed under the operation lock; a
reconcile may itself release the last interface of undesired hardware. -/
def step (s : System) : Label → Option System
  | .poll snapshot now =>
    let (kept, due) :=
      if s.base.wakeReconcilePending then (s.readerRegrabs, [])
      else dueReaderRegrabs s.readerRegrabs now
    (Watcher.step s.base (.poll snapshot due)).map fun base =>
      { s with base, readerRegrabs := kept }
  | .wake => (Watcher.step s.base .wake).map fun base => { s with base }
  | .beginReconcile runner hidden masked =>
    (Watcher.step s.base (.beginReconcile runner ⟨s.desired, hidden, masked⟩)).map fun base =>
      { s with base }
  | .releaseFails runner =>
    (Watcher.step s.base (.releaseFails runner)).map fun base => { s with base }
  | .commit runner =>
    (Watcher.step s.base (.commit runner)).map fun base => { commit s runner with base }
  | .broadcast runner delivered =>
    (Watcher.step s.base (.broadcast runner delivered)).map fun base =>
      { broadcast s runner delivered with base }
  | .finish runner now =>
    (Watcher.step s.base (.finish runner)).map fun base =>
      { s with
        base
        readerRegrabs := markReaderRegrabsAnnounced s.readerRegrabs (s.marked runner) now }
  | .stop => (Watcher.step s.base .stop).map fun base => { s with base }
  | .readerFailed hardwareId now =>
    if locked s.base then none else some (readerFailed s hardwareId now)
  | .grab hardwareId =>
    if locked s.base then none
    else some
      { s with
        desired := if hardwareId ∈ s.desired then s.desired else s.desired ++ [hardwareId]
        awaiting := s.awaiting.erase hardwareId }
  | .ungrab hardwareId =>
    some
      { s with
        desired := s.desired.filter fun hw => hw ≠ hardwareId
        awaiting := s.awaiting.erase hardwareId }

/- A reader does not fail while the reconcile that clears the request for its
hardware broadcasts, unless an announcement of the hardware is still to come. -/
def Timely (s : System) : Label → Prop
  | .readerFailed hardwareId _ =>
    match s.base.task .watcher with
    | none => True
    | some task =>
      match task.phase with
      | .broadcasting remaining =>
        takes s.base hardwareId = true →
          (remaining.any fun event => announces event hardwareId) = true
      | _ => True
  | _ => True

/-! ## What a reconcile announces again -/

theorem mem_foldl_announceAgain {reapplied : List String} (infos : List LiveInterfaceInfo)
    (events : List Event) :
    (∀ event ∈ events, event ∈ infos.foldl (announceAgain reapplied) events) ∧
      ∀ info ∈ infos, liveInterfaceMatchesDesired info reapplied = true →
        (.deviceConnected, liveInterfacePayload info) ∈
          infos.foldl (announceAgain reapplied) events := by
  induction infos generalizing events with
  | nil => exact ⟨fun _ hevent => hevent, fun info hinfo => absurd hinfo List.not_mem_nil⟩
  | cons first rest ih =>
    obtain ⟨hkept, hrest⟩ := ih (announceAgain reapplied events first)
    have hevents (event : Event) (hevent : event ∈ events) :
        event ∈ announceAgain reapplied events first := by
      unfold announceAgain
      split
      · exact List.mem_append_left _ hevent
      · exact hevent
    refine ⟨fun event hevent => hkept event (hevents event hevent), ?_⟩
    intro info hinfo hmatches
    obtain rfl | hlater := List.mem_cons.mp hinfo
    · refine hkept _ ?_
      by_cases hthere : (CommandType.deviceConnected, liveInterfacePayload info) ∈ events
      · exact hevents _ hthere
      · rw [announceAgain, if_pos ⟨hmatches, hthere⟩]
        exact List.mem_append_right _ (List.mem_singleton.mpr rfl)
    · exact hrest info hlater hmatches

/-- What matches one desired hardware id matches every list with it. -/
theorem liveInterfaceMatchesDesired_of_mem {info : LiveInterfaceInfo} {desired : List String}
    (hin : hardwareId ∈ desired) (h : liveInterfaceMatchesDesired info [hardwareId] = true) :
    liveInterfaceMatchesDesired info desired = true := by
  simp only [liveInterfaceMatchesDesired, hardwareIdMatchesDesired] at h ⊢
  by_cases hempty : normalizeHardwareId info.hardwareId = ""
  · rw [if_pos hempty] at h
    cases h
  · rw [if_neg hempty, List.any_cons, List.any_nil, Bool.or_false] at h
    rw [if_neg hempty]
    exact List.any_eq_true.mpr ⟨hardwareId, hin, h⟩

/-- A reconcile announces the desired hardware that it announces again and does not skip. -/
theorem announces_of_reconcile {r : Reconcile} (hdesired : hardwareId ∈ r.desiredHardwareIds)
    (hagain : r.validateReaders = true ∨ hardwareId ∈ r.reannounce)
    (hskips : skips r hardwareId = false) :
    (r.events.any fun event => announces event hardwareId) = true := by
  simp only [skips, Bool.or_eq_false_iff, decide_eq_false_iff_not, List.all_eq_false,
    Bool.not_eq_true, Bool.not_eq_false'] at hskips
  obtain ⟨hmasked, info, hinfo, hmatches⟩ := hskips
  have hreapplied : hardwareId ∈ r.reapplied := by
    refine List.mem_filter.mpr ⟨?_, by simpa using hmasked⟩
    split
    · exact hdesired
    · rename_i hvalidates
      exact List.mem_filter.mpr ⟨hdesired, by simpa using hagain.resolve_left hvalidates⟩
  refine List.any_eq_true.mpr ⟨(.deviceConnected, liveInterfacePayload info), ?_, ?_⟩
  · exact (mem_foldl_announceAgain r.current.entries.values _).2 info hinfo
      (liveInterfaceMatchesDesired_of_mem hreapplied hmatches)
  · rw [announces, decide_eq_true rfl, Bool.true_and]
    exact hmatches

/-! ## What holds along a run -/

/- What the watcher's own reconcile has done about the failures whose requests it
clears: it will announce them, or has announced or skipped them. -/
structure TaskKept (s : System) (task : ReconcileTask) : Prop where
  taken : ∀ hw, takes s.base hw = true → task.validateReaders = true ∨ hw ∈ task.reannounce
  releasing : ∀ r, task.phase = .releasing r → r.validateReaders = task.validateReaders ∧
    r.reannounce = task.reannounce ∧ ∀ hw ∈ s.awaiting, hw ∈ r.desiredHardwareIds
  broadcasting : ∀ remaining, task.phase = .broadcasting remaining → ∀ hw ∈ s.awaiting,
    takes s.base hw = true →
      s.Answered hw ∨ (remaining.any fun event => announces event hw) = true

structure Kept (s : System) : Prop where
  desired : ∀ hw ∈ s.awaiting, hw ∈ s.desired
  promised : ∀ hw ∈ s.awaiting, Recorded s.readerRegrabs hw ∨ s.Answered hw
  watcher : ∀ task, s.base.task .watcher = some task → TaskKept s task

omit [PyStr] [PyDecimal] in
theorem takes_setPhase (s : Watcher.State) (runner : Runner) (phase : Phase) (hw : String) :
    takes (s.setPhase runner phase) hw = takes s hw := by
  cases runner with
  | scheduled => rfl
  | watcher =>
    unfold State.setPhase takes
    cases hwatcher : s.watcherTask with
    | stopped => simp [hwatcher]
    | polling => simp [hwatcher]
    | reconciling purpose task => cases purpose <;> simp

variable {s t : System} {runner : Runner} {hw : String}

/-- A step that neither fails a reader nor ends the watcher's reconcile. -/
theorem TaskKept.same {task : ReconcileTask} (h : TaskKept s task)
    (htakes : ∀ hw, takes t.base hw = takes s.base hw) (hawaiting : t.awaiting ⊆ s.awaiting)
    (hanswered : ∀ hw, s.Answered hw → t.Answered hw) : TaskKept t task where
  taken := fun hw hw' => h.taken hw (by rw [← htakes]; exact hw')
  releasing := by
    intro r hphase
    obtain ⟨hvalidates, hreannounce, hdesired⟩ := h.releasing r hphase
    exact ⟨hvalidates, hreannounce, fun hw hin => hdesired hw (hawaiting hin)⟩
  broadcasting := by
    intro remaining hphase hw hin htaken
    rw [htakes] at htaken
    obtain hdone | hleft := h.broadcasting remaining hphase hw (hawaiting hin) htaken
    · exact .inl (hanswered hw hdone)
    · exact .inr hleft

theorem kept_started (snapshot : Snapshot) (desired : List String) :
    Kept (System.started snapshot desired) where
  desired := fun hw hin => absurd hin (Finset.notMem_empty hw)
  promised := fun hw hin => absurd hin (Finset.notMem_empty hw)
  watcher := by
    intro task htask
    cases htask

/-- The watcher's reconcile ends, or is cancelled. -/
theorem Kept.ended (h : Kept s) {base : Watcher.State} (htask : base.task .watcher = none) :
    Kept { s with base } where
  desired := h.desired
  promised := h.promised
  watcher := by
    intro task htask'
    rw [htask] at htask'
    cases htask'

omit [PyStr] [PyDecimal] in
theorem endReconcile_watcher_task (s : Watcher.State) (succeeded : Bool) :
    (endReconcile s .watcher succeeded).task .watcher = none := by
  unfold endReconcile
  cases hw : s.watcherTask with
  | stopped => simp [State.task, hw]
  | polling => simp [State.task, hw]
  | reconciling purpose task => cases succeeded <;> rfl

omit [PyStr] [PyDecimal] in
/-- The end of a reconcile clears the requests it has taken. -/
theorem mem_marked (h : hw ∈ s.marked runner) : runner = .watcher ∧ takes s.base hw = true := by
  unfold System.marked at h
  cases runner with
  | scheduled => exact absurd h List.not_mem_nil
  | watcher =>
    refine ⟨rfl, ?_⟩
    unfold takes
    cases hwatcher : s.base.watcherTask with
    | stopped => simp [hwatcher] at h
    | polling => simp [hwatcher] at h
    | reconciling purpose task =>
      cases purpose with
      | wake => rfl
      | readerRegrab => simpa [hwatcher] using h

theorem kept_poll (h : Kept s) {snapshot : Snapshot} {now : ℤ}
    (hstep : step s (.poll snapshot now) = some t) : Kept t := by
  simp only [step] at hstep
  obtain ⟨kept, due, hdue, hrecorded⟩ : ∃ kept due,
      (if s.base.wakeReconcilePending then (s.readerRegrabs, [])
        else dueReaderRegrabs s.readerRegrabs now) = (kept, due) ∧
      ∀ hw, Recorded s.readerRegrabs hw → Recorded kept hw := by
    split
    · exact ⟨_, _, rfl, fun _ h => h⟩
    · exact ⟨_, _, rfl, fun _ h => h.kept now⟩
  rw [hdue] at hstep
  obtain ⟨base, hbase, rfl⟩ := Option.map_eq_some_iff.mp hstep
  obtain ⟨hpolling, rfl⟩ := step_poll hbase
  refine ⟨h.desired, fun hw hin => (h.promised hw hin).imp_left (hrecorded hw), ?_⟩
  have hnone : s.base.task .watcher = none := by simp [State.task, hpolling]
  have hnow (purpose : Purpose) (task : ReconcileTask) (hphase : task.phase = .waiting)
      (hpurpose : purpose = .wake → task.validateReaders = true) :
      TaskKept { s with
        base := reconcileNow s.base purpose task
        readerRegrabs := kept } task := by
    refine ⟨fun hw htaken => ?_, fun r hr => ?_, fun remaining hr => ?_⟩
    · cases purpose with
      | wake => exact .inl (hpurpose rfl)
      | readerRegrab => exact .inr (by simpa [takes, reconcileNow] using htaken)
    · rw [hphase] at hr
      cases hr
    · rw [hphase] at hr
      cases hr
  intro task htask
  unfold poll at htask ⊢
  by_cases hwake : s.base.wakeReconcilePending
  · simp only [if_pos hwake] at htask ⊢
    cases htask
    exact hnow .wake _ rfl fun _ => rfl
  · simp only [if_neg hwake] at htask ⊢
    by_cases hids : due ≠ []
    · simp only [if_pos hids] at htask ⊢
      cases htask
      exact hnow .readerRegrab _ rfl fun hpurpose => by cases hpurpose
    · simp only [if_neg hids] at htask ⊢
      -- a scheduled reconcile leaves the watcher polling
      have hidle : (if snapshot ≠ s.base.liveSnapshot then
          scheduleTopologyReconcile { s.base with liveSnapshot := snapshot } snapshot
        else if snapshot ≠ s.base.reconciledSnapshot ∧ s.base.reconcileTask.isNone then
          scheduleTopologyReconcile s.base snapshot
        else s.base).task .watcher = none := by
        repeat' split
        all_goals exact hnone
      rw [hidle] at htask
      cases htask

theorem kept_beginReconcile (h : Kept s) {hidden masked : List String}
    (hstep : step s (.beginReconcile runner hidden masked) = some t) : Kept t := by
  obtain ⟨base, hbase, rfl⟩ := Option.map_eq_some_iff.mp hstep
  obtain ⟨task, htask, -, rfl⟩ := step_beginReconcile hbase
  refine ⟨h.desired, h.promised, fun task' htask' => ?_⟩
  rw [setPhase_task _ htask] at htask'
  split at htask'
  · rename_i hrunner
    cases htask'
    rw [← hrunner] at htask
    have hkept := h.watcher task htask
    refine ⟨fun hw htaken => ?_, fun r hr => ?_, fun remaining hr => ?_⟩
    · rw [takes_setPhase] at htaken
      exact hkept.taken hw htaken
    · cases hr
      exact ⟨rfl, rfl, h.desired⟩
    · cases hr
  · exact (h.watcher task' htask').same (takes_setPhase _ _ _) subset_rfl fun _ => id

theorem answered_commit (h : s.Answered hw) (runner : Runner) : (commit s runner).Answered hw := by
  unfold commit
  split
  · exact h.imp_right (Or.imp_right (Finset.mem_union_left _))
  · exact h

theorem commit_frame (s : System) (runner : Runner) :
    (commit s runner).desired = s.desired ∧ (commit s runner).awaiting = s.awaiting ∧
      (commit s runner).readerRegrabs = s.readerRegrabs := by
  unfold commit
  split <;> exact ⟨rfl, rfl, rfl⟩

theorem answered_broadcast (h : s.Answered hw) (runner : Runner) (delivered : Bool) :
    (broadcast s runner delivered).Answered hw := by
  unfold broadcast
  split
  · split
    · exact h.imp_left (Finset.mem_union_left _)
    · split
      · exact h.imp_right (Or.imp_left (Finset.mem_union_left _))
      · exact h
  · exact h

theorem broadcast_frame (s : System) (runner : Runner) (delivered : Bool) :
    (broadcast s runner delivered).desired = s.desired ∧
      (broadcast s runner delivered).awaiting = s.awaiting ∧
      (broadcast s runner delivered).readerRegrabs = s.readerRegrabs := by
  unfold broadcast
  repeat' split
  all_goals exact ⟨rfl, rfl, rfl⟩

/- A reconcile that becomes the reconciled one has the announcement of every failure
it clears among its events, or skips it. -/
theorem kept_commit (h : Kept s) (hstep : step s (.commit runner) = some t) : Kept t := by
  obtain ⟨base, hbase, rfl⟩ := Option.map_eq_some_iff.mp hstep
  obtain ⟨task, r, htask, hphase, rfl⟩ := step_commit hbase
  obtain ⟨hdesired, hawaiting, hregrabs⟩ := commit_frame s runner
  refine ⟨?_, ?_, fun task' htask' => ?_⟩
  · intro hw hin
    rw [hawaiting] at hin
    rw [hdesired]
    exact h.desired hw hin
  · intro hw hin
    rw [hawaiting] at hin
    rw [hregrabs]
    exact (h.promised hw hin).imp_right fun hdone => answered_commit hdone runner
  · have htakes (hw : String) : takes (s.base.setPhase runner (.broadcasting r.events)) hw =
        takes s.base hw := takes_setPhase _ _ _ _
    cases runner with
    | scheduled =>
      exact (h.watcher task' htask').same htakes (by rw [hawaiting]) fun hw => id
    | watcher =>
      have hthis := setPhase_task (.broadcasting r.events) htask .watcher
      rw [if_pos rfl] at hthis
      obtain rfl : { task with phase := .broadcasting r.events } = task' :=
        Option.some.inj (hthis.symm.trans htask')
      have hkept := h.watcher task htask
      obtain ⟨hvalidates, hreannounce, hall⟩ := hkept.releasing r hphase
      refine ⟨fun hw htaken => hkept.taken hw (by rw [← htakes]; exact htaken),
        fun r' hr' => ?_, ?_⟩
      · cases hr'
      · intro remaining hremaining hw hin htaken
        cases hremaining
        rw [hawaiting] at hin
        have htaken' : takes s.base hw = true := (htakes hw).symm.trans htaken
        cases hskips : skips r hw with
        | true =>
          refine .inl (.inr (.inr ?_))
          have hin' : hw ∈ s.awaiting.filter fun hw => takes s.base hw && skips r hw := by
            refine Finset.mem_filter.mpr ⟨hin, ?_⟩
            rw [htaken', hskips]
            rfl
          simp only [commit, htask, Option.map_some, hphase]
          exact Finset.mem_union_right _ hin'
        | false =>
          refine .inr (announces_of_reconcile (hall hw hin) ?_ hskips)
          rw [hvalidates, hreannounce]
          exact hkept.taken hw htaken'

/- A broadcast of the watcher's reconcile announces the failures it is about, or
fails to. -/
theorem kept_broadcast (h : Kept s) {delivered : Bool}
    (hstep : step s (.broadcast runner delivered) = some t) : Kept t := by
  obtain ⟨base, hbase, rfl⟩ := Option.map_eq_some_iff.mp hstep
  obtain ⟨task, event, remaining, htask, hphase, rfl⟩ := step_broadcast hbase
  obtain ⟨hdesired, hawaiting, hregrabs⟩ := broadcast_frame s runner delivered
  refine ⟨?_, ?_, fun task' htask' => ?_⟩
  · intro hw hin
    rw [hawaiting] at hin
    rw [hdesired]
    exact h.desired hw hin
  · intro hw hin
    rw [hawaiting] at hin
    rw [hregrabs]
    exact (h.promised hw hin).imp_right fun hdone => answered_broadcast hdone runner delivered
  · have htakes (hw : String) : takes (s.base.setPhase runner (.broadcasting remaining)) hw =
        takes s.base hw := takes_setPhase _ _ _ _
    cases runner with
    | scheduled =>
      exact (h.watcher task' htask').same htakes (by rw [hawaiting]) fun hw hdone =>
        answered_broadcast hdone .scheduled delivered
    | watcher =>
      have hthis := setPhase_task (.broadcasting remaining) htask .watcher
      rw [if_pos rfl] at hthis
      obtain rfl : { task with phase := .broadcasting remaining } = task' :=
        Option.some.inj (hthis.symm.trans htask')
      have hkept := h.watcher task htask
      refine ⟨fun hw htaken => hkept.taken hw (by rw [← htakes]; exact htaken),
        fun r' hr' => ?_, ?_⟩
      · cases hr'
      · intro remaining' hremaining hw hin htaken
        cases hremaining
        rw [hawaiting] at hin
        have htaken' : takes s.base hw = true := (htakes hw).symm.trans htaken
        obtain hdone | hleft := hkept.broadcasting _ hphase hw hin htaken'
        · exact .inl (answered_broadcast hdone .watcher delivered)
        · rw [List.any_cons, Bool.or_eq_true] at hleft
          refine hleft.imp_left fun hannounces => ?_
          simp only [System.Answered, broadcast, htask, Option.map_some, hphase]
          cases delivered with
          | true =>
            exact .inl (Finset.mem_union_right _ (Finset.mem_filter.mpr ⟨hin, hannounces⟩))
          | false =>
            refine .inr (.inl (Finset.mem_union_right _ (Finset.mem_filter.mpr ⟨hin, ?_⟩)))
            rw [htaken', hannounces]
            rfl

/-- The end of the watcher's reconcile clears requests that are answered. -/
theorem kept_finish (h : Kept s) {now : ℤ} (hstep : step s (.finish runner now) = some t) :
    Kept t := by
  obtain ⟨base, hbase, rfl⟩ := Option.map_eq_some_iff.mp hstep
  obtain ⟨task, htask, hphase, rfl⟩ := step_finish hbase
  refine ⟨h.desired, fun hw hin => ?_, fun task' htask' => ?_⟩
  · by_cases hmarked : hw ∈ s.marked runner
    · obtain ⟨rfl, htaken⟩ := mem_marked hmarked
      obtain hdone | hleft := (h.watcher task htask).broadcasting [] hphase hw hin htaken
      · exact .inr hdone
      · cases hleft
    · refine (h.promised hw hin).imp_left fun hrecorded => ?_
      obtain ⟨regrab, due, hget, hdue⟩ := hrecorded
      refine ⟨regrab, due, ?_, hdue⟩
      rw [get?_markReaderRegrabsAnnounced_of_not_mem hmarked]
      exact hget
  · cases runner with
    | scheduled => exact (h.watcher task' htask').same (fun _ => rfl) subset_rfl fun _ => id
    | watcher =>
      rw [endReconcile_watcher_task] at htask'
      cases htask'

omit [PyStr] [PyDecimal] in
theorem not_releasing_of_not_locked {s : Watcher.State} (h : ¬ locked s = true)
    {task : ReconcileTask} (htask : s.task runner = some task) (r : Reconcile) :
    task.phase ≠ .releasing r := by
  intro hphase
  refine h (List.any_eq_true.mpr ⟨runner, by cases runner <;> simp, ?_⟩)
  rw [htask, Option.map_some, hphase]

theorem kept_readerFailed (h : Kept s) {now : ℤ} (htimely : Timely s (.readerFailed hardwareId now))
    (hstep : step s (.readerFailed hardwareId now) = some t) : Kept t := by
  simp only [step] at hstep
  split at hstep
  · cases hstep
  · rename_i hlocked
    cases hstep
    unfold readerFailed
    split
    · rename_i hdesired
      have hanswered (hw : String) (hne : hw ≠ hardwareId) (hdone : s.Answered hw) :
          hw ∈ s.announced.erase hardwareId ∨ hw ∈ s.undelivered.erase hardwareId ∨
            hw ∈ s.skipped.erase hardwareId :=
        hdone.imp (fun h => Finset.mem_erase.mpr ⟨hne, h⟩)
          (Or.imp (fun h => Finset.mem_erase.mpr ⟨hne, h⟩)
            fun h => Finset.mem_erase.mpr ⟨hne, h⟩)
      refine ⟨fun hw hin => ?_, fun hw hin => ?_, fun task htask => ?_⟩
      · obtain rfl | hin := Finset.mem_insert.mp hin
        · exact hdesired
        · exact h.desired hw hin
      · by_cases hne : hw = hardwareId
        · subst hne
          exact .inl (recorded_requestReaderRegrab _ _ _)
        · have hin := (Finset.mem_insert.mp hin).resolve_left hne
          exact (h.promised hw hin).imp (fun hrecorded => hrecorded.request hardwareId now)
            (hanswered hw hne)
      · have hkept := h.watcher task htask
        refine ⟨hkept.taken, fun r hr => ?_, fun remaining hremaining hw hin htaken => ?_⟩
        · exact absurd hr (not_releasing_of_not_locked hlocked htask r)
        · by_cases hne : hw = hardwareId
          · subst hne
            have hleft := htimely
            simp only [Timely, show s.base.task .watcher = some task from htask,
              hremaining] at hleft
            exact .inr (hleft htaken)
          · have hin := (Finset.mem_insert.mp hin).resolve_left hne
            exact (hkept.broadcasting remaining hremaining hw hin htaken).imp_left
              (hanswered hw hne)
    · exact h

theorem kept_step (s : System) (a : Label) (t : System) (h : Kept s) (htimely : Timely s a)
    (hstep : step s a = some t) : Kept t := by
  cases a with
  | poll snapshot now => exact kept_poll h hstep
  | wake =>
    cases hstep
    exact ⟨h.desired, h.promised, fun task htask =>
      (h.watcher task htask).same (fun _ => rfl) subset_rfl fun _ => id⟩
  | beginReconcile runner hidden masked => exact kept_beginReconcile h hstep
  | releaseFails runner =>
    obtain ⟨base, hbase, rfl⟩ := Option.map_eq_some_iff.mp hstep
    obtain ⟨task, r, htask, -, rfl⟩ := step_releaseFails hbase
    cases runner with
    | scheduled =>
      exact ⟨h.desired, h.promised, fun task htask =>
        (h.watcher task htask).same (fun _ => rfl) subset_rfl fun _ => id⟩
    | watcher => exact h.ended (endReconcile_watcher_task _ _)
  | commit runner => exact kept_commit h hstep
  | broadcast runner delivered => exact kept_broadcast h hstep
  | finish runner now => exact kept_finish h hstep
  | stop =>
    obtain ⟨base, hbase, rfl⟩ := Option.map_eq_some_iff.mp hstep
    obtain rfl := step_stop hbase
    exact h.ended rfl
  | readerFailed hardwareId now => exact kept_readerFailed h htimely hstep
  | grab hardwareId =>
    simp only [step] at hstep
    split at hstep
    · cases hstep
    · rename_i hlocked
      cases hstep
      refine ⟨fun hw hin => ?_, fun hw hin => h.promised hw (Finset.mem_of_mem_erase hin),
        fun task htask => (h.watcher task htask).same (fun _ => rfl)
          (Finset.erase_subset _ _) fun _ => id⟩
      have hdesired := h.desired hw (Finset.mem_of_mem_erase hin)
      split
      · exact hdesired
      · exact List.mem_append_left _ hdesired
  | ungrab hardwareId =>
    cases hstep
    refine ⟨fun hw hin => ?_, fun hw hin => h.promised hw (Finset.mem_of_mem_erase hin),
      fun task htask => (h.watcher task htask).same (fun _ => rfl)
        (Finset.erase_subset _ _) fun _ => id⟩
    obtain ⟨hne, hin⟩ := Finset.mem_erase.mp hin
    exact List.mem_filter.mpr ⟨h.desired hw hin, by simpa using hne⟩

/- Until hardware with a failed reader is grabbed again or no longer desired, its
retry is recorded and becomes due, or the hardware was announced since the failure,
or the reconcile that took the request failed to announce it or had to skip it. -/
theorem reader_failures_are_remembered (snapshot : Snapshot) (desired : List String)
    (as : List Label) (s : System)
    (htimely : Guarded step Timely (System.started snapshot desired) as)
    (hrun : run step (System.started snapshot desired) as = some s) (hw : String)
    (hawaiting : hw ∈ s.awaiting) :
    (∃ due, ∀ now, due ≤ now → hw ∈ (dueReaderRegrabs s.readerRegrabs now).2) ∨
      hw ∈ s.announced ∨ hw ∈ s.undelivered ∨ hw ∈ s.skipped := by
  have hkept : Kept s :=
    guarded_run_invariant kept_step (kept_started snapshot desired) htimely hrun
  exact (hkept.promised hw hawaiting).imp_left Recorded.becomes_due

end

/-! ## Masked hardware and late failures -/

attribute [local instance] asciiStr asciiDecimal

/-- A reader of the keyboard fails; the reconcile that takes its request starts. -/
def failedReader (maskedHardwareIds : List String) : List Label :=
  [.readerFailed "046d:c31c" 0, .poll firstScan 10, .beginReconcile .watcher [] maskedHardwareIds,
    .commit .watcher]

def keyboardStarted : System := System.started firstScan ["046d:c31c"]

theorem failed_reader_is_announced :
    ∃ s, run step keyboardStarted (failedReader [] ++ [.broadcast .watcher true,
        .finish .watcher 20]) = some s ∧
      "046d:c31c" ∈ s.awaiting ∧ "046d:c31c" ∈ s.announced ∧
      ((∃ due, ∀ now, due ≤ now → "046d:c31c" ∈ (dueReaderRegrabs s.readerRegrabs now).2) ∨
        "046d:c31c" ∈ s.announced ∨ "046d:c31c" ∈ s.undelivered ∨ "046d:c31c" ∈ s.skipped) := by
  have hsome : (run step keyboardStarted (failedReader [] ++ [.broadcast .watcher true,
      .finish .watcher 20])).any (fun s => "046d:c31c" ∈ s.awaiting ∧
        "046d:c31c" ∈ s.announced) = true := by decide
  obtain ⟨s, hrun, hs⟩ := (Option.any_eq_true _ _).mp hsome
  have hs := of_decide_eq_true hs
  have htimely : Guarded step Timely keyboardStarted (failedReader [] ++
      [.broadcast .watcher true, .finish .watcher 20]) :=
    ⟨trivial, trivial, trivial, trivial, trivial, trivial, trivial⟩
  exact ⟨s, hrun, hs.1, hs.2,
    reader_failures_are_remembered firstScan ["046d:c31c"] _ s htimely hrun "046d:c31c" hs.1⟩

/- The request of masked hardware is cleared by a reconcile that leaves the
hardware to the coordinator of its restoration. -/
theorem masked_hardware_is_not_announced :
    ¬ ∀ (snapshot : Snapshot) (desired : List String) (as : List Label) (s : System),
      run step (System.started snapshot desired) as = some s → ∀ hw ∈ s.awaiting,
        (∃ due, ∀ now, due ≤ now → hw ∈ (dueReaderRegrabs s.readerRegrabs now).2) ∨
          hw ∈ s.announced := by
  intro h
  have hsome : (run step keyboardStarted (failedReader ["046d:c31c"] ++
      [.finish .watcher 20])).any (fun s => "046d:c31c" ∈ s.awaiting ∧
        "046d:c31c" ∉ s.announced ∧
        (s.readerRegrabs.get? "046d:c31c").any (fun regrab => regrab.due.isNone)) = true := by
    decide
  obtain ⟨s, hrun, hs⟩ := (Option.any_eq_true _ _).mp hsome
  obtain ⟨hawaiting, hannounced, hdue⟩ := of_decide_eq_true hs
  obtain hretry | hdone := h firstScan ["046d:c31c"] _ s hrun "046d:c31c" hawaiting
  · exact not_due_of_no_due hdue hretry
  · exact hannounced hdone

/-- A second reader of the keyboard fails after the announcement was sent and before its request is
cleared. -/
theorem late_failure_is_forgotten :
    ¬ ∀ (snapshot : Snapshot) (desired : List String) (as : List Label) (s : System),
      run step (System.started snapshot desired) as = some s → ∀ hw ∈ s.awaiting,
        (∃ due, ∀ now, due ≤ now → hw ∈ (dueReaderRegrabs s.readerRegrabs now).2) ∨
          hw ∈ s.announced ∨ hw ∈ s.undelivered ∨ hw ∈ s.skipped := by
  intro h
  have hsome : (run step keyboardStarted (failedReader [] ++ [.broadcast .watcher true,
      .readerFailed "046d:c31c" 15, .finish .watcher 20])).any (fun s => "046d:c31c" ∈ s.awaiting ∧
        ("046d:c31c" ∉ s.announced ∧ "046d:c31c" ∉ s.undelivered ∧ "046d:c31c" ∉ s.skipped) ∧
        (s.readerRegrabs.get? "046d:c31c").any (fun regrab => regrab.due.isNone)) = true := by
    decide
  obtain ⟨s, hrun, hs⟩ := (Option.any_eq_true _ _).mp hsome
  obtain ⟨hawaiting, hforgotten, hdue⟩ := of_decide_eq_true hs
  obtain hretry | hdone := h firstScan ["046d:c31c"] _ s hrun "046d:c31c" hawaiting
  · exact not_due_of_no_due hdue hretry
  · exact not_or.mpr ⟨hforgotten.1, not_or.mpr hforgotten.2⟩ hdone

end Keymasq.Topology.Regrabs
