import Keymasq.Foundation.Dict
import Keymasq.Foundation.Transition

/-!
# Grab admission

An emergency stop latches admission, and then awaits its clean-ups. Answers may raise the
pause; those to a startup, a mask or a global resume open admission again if no stop
began or ended since the request.
-/

namespace Keymasq.Masking.Admission
open Foundation Transition


/- `MASK_COMMANDS`. -/
inductive Operation
  | inventory
  | mask
  | keep
  | restore
  | resume
  | persistence
  deriving DecidableEq

/- The clean-ups of an emergency stop. -/
inductive Cleanup
  | neutralizing
  | releasingDevices
  | releasingReaders
  | restoring

/- What goes on after a startup: a command (without an `id` it is global), with the latch
when it began, or the monitor. -/
inductive Next
  | handle (operation : Operation) (isGlobal : Bool) (latched : Bool)
  | monitor

/- A task at an await: a command releases readers, waits for the answer to its startup or
to its own request; the monitor lets the coordinator look at the hardware, or waits for
the answer to its poll; or an emergency stop. Requests know the generation before them. -/
inductive Work
  | releasing (isGlobal : Bool)
  | startup (next : Next) (generation : Nat)
  | request (operation : Operation) (isGlobal : Bool) (suspended : Bool) (generation : Nat)
  | scanning
  | poll (generation : Nat)
  | stop (cleanup : Cleanup)

/- `idle`: no stop was under way when the task came to its await; `begun`: how many had
begun. -/
structure Waiting where
  work : Work
  idle : Bool
  begun : Nat

/- `HardwareMasking`, the user that the coordinator knows, the tasks, and the number of
stops that have begun. -/
structure State where
  maskingSuspended : Bool := false
  emergencyLatched : Bool := false
  observedPaused : Bool := false
  stopGeneration : Nat := 0
  sessionUid : Option Nat := none
  coordinatorUid : Option Nat := none
  needsStartup : Bool := true
  tasks : Dict Nat Waiting := ∅
  nextTask : Nat := 0
  begun : Nat := 0

/-- The marker of a pause is looked up when the daemon starts. -/
def initial (suspended : Bool) : State :=
  { maskingSuspended := suspended, observedPaused := suspended }

def Work.isStop : Work → Bool
  | .stop _ => true
  | _ => false

/-- An emergency stop is under way. -/
def stopping (s : State) : Bool := s.tasks.values.any fun task => task.work.isStop

/-- `_sync_admission`. -/
def syncAdmission (s : State) : State :=
  { s with maskingSuspended := s.emergencyLatched || s.observedPaused }

/-- `_apply_status`; `suspended` is what the answer says. -/
def applyStatus (s : State) (suspended : Bool) (generation : Nat) (transition : Bool) : State :=
  syncAdmission
    (if suspended then { s with observedPaused := true }
    else if transition ∧ generation = s.stopGeneration then
      { s with observedPaused := false, emergencyLatched := false }
    else s)

def await (s : State) (work : Work) : State :=
  { s with
    tasks := s.tasks.insert s.nextTask { work := work, idle := !stopping s, begun := s.begun }
    nextTask := s.nextTask + 1 }

/-! ## Commands and the monitor -/

/-- A mask and a global resume may open admission. -/
def isExplicit (operation : Operation) (isGlobal : Bool) : Bool :=
  operation = .mask || (operation = .resume && isGlobal)

/-- After the startup. -/
def proceed (s : State) : Next → State
  | .handle operation isGlobal latched =>
    await s (.request operation isGlobal
      (operation = .resume && isGlobal && (latched || s.emergencyLatched)) s.stopGeneration)
  | .monitor => await s .scanning

/-- `startup`, if it is needed. -/
def startup (s : State) (next : Next) : State :=
  if s.sessionUid.isSome ∧ (s.needsStartup ∨ s.coordinatorUid ≠ s.sessionUid) then
    await s (.startup next s.stopGeneration)
  else proceed s next

/-- `handle`, up to its first await. Another user ends the session of the one before. -/
def handle (s : State) (operation : Operation) (isGlobal : Bool) (uid : Nat) : State :=
  let s := if s.sessionUid.isSome ∧ s.sessionUid ≠ some uid then
    { s with coordinatorUid := none, needsStartup := true } else s
  let s := { s with sessionUid := some uid }
  if operation = .restore then await s (.releasing isGlobal)
  else startup s (.handle operation isGlobal s.emergencyLatched)

/-- The task goes on: readers are released, or there is an answer; a request that fails
changes nothing. -/
def advance (s : State) : Work → Option Bool → Option State
  | .releasing isGlobal, _ => some (startup s (.handle .restore isGlobal s.emergencyLatched))
  | .startup next generation, some suspended =>
    some (proceed (applyStatus { s with needsStartup := false, coordinatorUid := s.sessionUid }
      suspended generation true) next)
  | .request operation isGlobal _ generation, some suspended =>
    some (applyStatus s suspended generation (isExplicit operation isGlobal))
  | .scanning, _ => some (await s (.poll s.stopGeneration))
  | .poll generation, some suspended => some (applyStatus s suspended generation false)
  | .stop _, _ => none
  | _, none => some s

/-! ## The emergency stop -/

/-- `restore`, up to its first clean-up. -/
def beginStop (s : State) : State :=
  await (syncAdmission { s with
    emergencyLatched := true, stopGeneration := s.stopGeneration + 1, begun := s.begun + 1 })
    (.stop .neutralizing)

/-- The `finally` block of `restore`. -/
def endStop (s : State) : State :=
  syncAdmission { s with stopGeneration := s.stopGeneration + 1 }

/-- The clean-up is over, whether or not it failed. -/
def afterCleanup (s : State) : Cleanup → State
  | .neutralizing => await s (.stop .releasingDevices)
  | .releasingDevices => await s (.stop .releasingReaders)
  | .releasingReaders => await s (.stop .restoring)
  | .restoring => endStop s

/-- The stop is cancelled; the first two clean-ups are outside of the `try` block. -/
def cancelStop (s : State) : Cleanup → State
  | .neutralizing => s
  | .releasingDevices => s
  | .releasingReaders => endStop s
  | .restoring => endStop s

/-! ## Steps -/

/- `answer` ends an await of a command or of the monitor, with what the answer says;
`suspend` is a sleep of the machine. -/
inductive Step
  | handle (operation : Operation) (isGlobal : Bool) (uid : Nat)
  | monitor
  | suspend
  | answer (id : Nat) (suspended : Option Bool)
  | beginStop
  | cleanup (id : Nat)
  | cancelStop (id : Nat)

def step (s : State) : Step → Option State
  | .handle operation isGlobal uid => some (handle s operation isGlobal uid)
  | .monitor => some (startup s .monitor)
  | .suspend => some { s with needsStartup := true }
  | .answer id suspended =>
    (s.tasks.get? id).bind fun task =>
      advance { s with tasks := s.tasks.erase id } task.work suspended
  | .beginStop => some (beginStop s)
  | .cleanup id =>
    (s.tasks.get? id).bind fun task =>
      match task.work with
      | .stop cleanup => some (afterCleanup { s with tasks := s.tasks.erase id } cleanup)
      | _ => none
  | .cancelStop id =>
    (s.tasks.get? id).bind fun task =>
      match task.work with
      | .stop cleanup => some (cancelStop { s with tasks := s.tasks.erase id } cleanup)
      | _ => none

/-! ## What opens admission -/

/-- The generation before a startup, a mask or a global resume. -/
def Work.opens : Work → Option Nat
  | .startup _ generation => some generation
  | .request operation isGlobal _ generation =>
    if isExplicit operation isGlobal then some generation else none
  | _ => none

/-- A startup, mask or global resume that was issued during a stop is not answered "not
suspended" before the generation changes. -/
def inOrder (s : State) : Step → Bool
  | .answer id (some false) =>
    (s.tasks.get? id).all fun task =>
      task.idle || task.work.opens.all fun generation => generation ≠ s.stopGeneration
  | _ => true

/-- Admission is open after the step only by the answer to a startup, mask or global resume
that was issued while no stop was under way, and no stop has begun since. -/
def OpensInOrder (s : State) (a : Step) (t : State) : Prop :=
  t.maskingSuspended = false → s.maskingSuspended = false ∨
    ∃ id task, a = .answer id (some false) ∧ s.tasks.get? id = some task ∧
      task.work.opens.isSome = true ∧ task.idle = true ∧ task.begun = s.begun

section Invariant

variable {s t : State}

/- Admission is what latch and pause say; a request whose generation is still the current
one has seen no stop begin. -/
structure Sound (s : State) : Prop where
  synced : s.maskingSuspended = (s.emergencyLatched || s.observedPaused)
  generations : ∀ id task, s.tasks.get? id = some task → ∀ generation,
    task.work.opens = some generation → generation ≤ s.stopGeneration ∧
      (generation = s.stopGeneration → task.begun = s.begun)

/-- Fewer tasks, and the same admission. -/
theorem sound_same (h : Sound s) (hsuspended : t.maskingSuspended = s.maskingSuspended)
    (hlatched : t.emergencyLatched = s.emergencyLatched)
    (hpaused : t.observedPaused = s.observedPaused)
    (hgeneration : t.stopGeneration = s.stopGeneration) (hbegun : t.begun = s.begun)
    (htasks : ∀ id task, t.tasks.get? id = some task → s.tasks.get? id = some task) :
    Sound t := by
  refine ⟨?_, fun id task hget => ?_⟩
  · rw [hsuspended, hlatched, hpaused]
    exact h.synced
  · rw [hgeneration, hbegun]
    exact h.generations id task (htasks id task hget)

theorem sound_await (h : Sound s) (work : Work)
    (hopens : ∀ generation, work.opens = some generation → generation = s.stopGeneration) :
    Sound (await s work) := by
  refine ⟨h.synced, fun id task hget generation hgeneration => ?_⟩
  simp only [await, Dict.get?_insert] at hget
  split at hget
  · cases hget
    exact ⟨Nat.le_of_eq (hopens generation hgeneration), fun _ => rfl⟩
  · exact h.generations id task hget generation hgeneration

theorem sound_proceed (h : Sound s) (next : Next) : Sound (proceed s next) := by
  cases next with
  | handle operation isGlobal latched =>
    refine sound_await h _ fun generation hgeneration => ?_
    simp only [Work.opens] at hgeneration
    split at hgeneration
    · cases hgeneration
      rfl
    · cases hgeneration
  | monitor => exact sound_await h _ fun generation hgeneration => by cases hgeneration

theorem sound_startup (h : Sound s) (next : Next) : Sound (startup s next) := by
  unfold startup
  split
  · refine sound_await h _ fun generation hgeneration => ?_
    cases hgeneration
    rfl
  · exact sound_proceed h next

theorem sound_handle (h : Sound s) (operation : Operation) (isGlobal : Bool) (uid : Nat) :
    Sound (handle s operation isGlobal uid) := by
  have hnew : Sound { (if s.sessionUid.isSome ∧ s.sessionUid ≠ some uid then
      { s with coordinatorUid := none, needsStartup := true } else s) with
      sessionUid := some uid } := by
    split
    · exact sound_same h rfl rfl rfl rfl rfl fun _ _ hget => hget
    · exact sound_same h rfl rfl rfl rfl rfl fun _ _ hget => hget
  unfold handle
  simp only
  split
  · exact sound_await hnew _ fun generation hgeneration => by cases hgeneration
  · exact sound_startup hnew _

theorem sound_applyStatus (h : Sound s) (suspended : Bool) (generation : Nat)
    (transition : Bool) : Sound (applyStatus s suspended generation transition) := by
  unfold applyStatus
  split
  · exact ⟨rfl, h.generations⟩
  · split
    · exact ⟨rfl, h.generations⟩
    · exact ⟨rfl, h.generations⟩

theorem sound_endStop (h : Sound s) : Sound (endStop s) := by
  refine ⟨rfl, fun id task hget generation hgeneration => ?_⟩
  have hle := (h.generations id task hget generation hgeneration).1
  refine ⟨Nat.le_succ_of_le hle, fun heq => ?_⟩
  change generation = s.stopGeneration + 1 at heq
  omega

theorem sound_beginStop (h : Sound s) : Sound (beginStop s) := by
  have hbegun : Sound (syncAdmission { s with
      emergencyLatched := true, stopGeneration := s.stopGeneration + 1
      begun := s.begun + 1 }) := by
    refine ⟨rfl, fun id task hget generation hgeneration => ?_⟩
    have hle := (h.generations id task hget generation hgeneration).1
    refine ⟨Nat.le_succ_of_le hle, fun heq => ?_⟩
    change generation = s.stopGeneration + 1 at heq
    omega
  exact sound_await hbegun _ fun generation hgeneration => by cases hgeneration

theorem sound_erase (h : Sound s) (id : Nat) : Sound { s with tasks := s.tasks.erase id } := by
  refine sound_same h rfl rfl rfl rfl rfl fun id' task hget => ?_
  rw [Dict.get?_erase] at hget
  split at hget
  · cases hget
  · exact hget

theorem sound_advance (h : Sound s) {work : Work} {suspended : Option Bool}
    (hstep : advance s work suspended = some t) : Sound t := by
  cases work with
  | releasing isGlobal =>
    cases hstep
    exact sound_startup h _
  | startup next generation =>
    cases suspended with
    | none =>
      cases hstep
      exact h
    | some suspended =>
      cases hstep
      have hstarted : Sound { s with needsStartup := false, coordinatorUid := s.sessionUid } :=
        sound_same h rfl rfl rfl rfl rfl fun _ _ hget => hget
      exact sound_proceed (sound_applyStatus hstarted suspended generation true) next
  | request operation isGlobal latched generation =>
    cases suspended with
    | none =>
      cases hstep
      exact h
    | some suspended =>
      cases hstep
      exact sound_applyStatus h suspended generation _
  | scanning =>
    cases hstep
    exact sound_await h _ fun generation hgeneration => by cases hgeneration
  | poll generation =>
    cases suspended with
    | none =>
      cases hstep
      exact h
    | some suspended =>
      cases hstep
      exact sound_applyStatus h suspended generation false
  | stop cleanup => cases hstep

theorem sound_afterCleanup (h : Sound s) (cleanup : Cleanup) : Sound (afterCleanup s cleanup) := by
  cases cleanup with
  | restoring => exact sound_endStop h
  | _ => exact sound_await h _ fun generation hgeneration => by cases hgeneration

theorem sound_cancelStop (h : Sound s) (cleanup : Cleanup) : Sound (cancelStop s cleanup) := by
  cases cleanup with
  | neutralizing => exact h
  | releasingDevices => exact h
  | _ => exact sound_endStop h

theorem sound_step {a : Step} (h : Sound s) (hstep : step s a = some t) : Sound t := by
  cases a with
  | handle operation isGlobal uid =>
    cases hstep
    exact sound_handle h operation isGlobal uid
  | monitor =>
    cases hstep
    exact sound_startup h _
  | suspend =>
    cases hstep
    exact sound_same h rfl rfl rfl rfl rfl fun _ _ hget => hget
  | answer id suspended =>
    obtain ⟨task, -, hstep⟩ := Option.bind_eq_some_iff.mp hstep
    exact sound_advance (sound_erase h id) hstep
  | beginStop =>
    cases hstep
    exact sound_beginStop h
  | cleanup id =>
    obtain ⟨task, -, hstep⟩ := Option.bind_eq_some_iff.mp hstep
    split at hstep
    · cases hstep
      exact sound_afterCleanup (sound_erase h id) _
    · cases hstep
  | cancelStop id =>
    obtain ⟨task, -, hstep⟩ := Option.bind_eq_some_iff.mp hstep
    split at hstep
    · cases hstep
      exact sound_cancelStop (sound_erase h id) _
    · cases hstep

theorem sound_initial (suspended : Bool) : Sound (initial suspended) := by
  refine ⟨?_, fun id task hget => by cases hget⟩
  cases suspended with
  | false => rfl
  | true => rfl

/-! ## Each step -/

theorem maskingSuspended_startup (next : Next) :
    (startup s next).maskingSuspended = s.maskingSuspended := by
  unfold startup
  split
  · rfl
  · cases next with
    | handle operation isGlobal latched => rfl
    | monitor => rfl

theorem maskingSuspended_handle (operation : Operation) (isGlobal : Bool) (uid : Nat) :
    (handle s operation isGlobal uid).maskingSuspended = s.maskingSuspended := by
  unfold handle
  simp only
  split
  · split
    · rfl
    · rfl
  · rw [maskingSuspended_startup]
    split
    · rfl
    · rfl

theorem maskingSuspended_endStop (h : Sound s) :
    (endStop s).maskingSuspended = s.maskingSuspended := h.synced.symm

theorem maskingSuspended_afterCleanup (h : Sound s) (cleanup : Cleanup) :
    (afterCleanup s cleanup).maskingSuspended = s.maskingSuspended := by
  cases cleanup with
  | restoring => exact maskingSuspended_endStop h
  | _ => rfl

theorem maskingSuspended_cancelStop (h : Sound s) (cleanup : Cleanup) :
    (cancelStop s cleanup).maskingSuspended = s.maskingSuspended := by
  cases cleanup with
  | neutralizing => rfl
  | releasingDevices => rfl
  | _ => exact maskingSuspended_endStop h

/-- Only a transition of the current generation takes the pause away. -/
theorem applyStatus_opens (h : Sound s) {suspended transition : Bool} {generation : Nat}
    (hclosed : s.maskingSuspended = true)
    (hopen : (applyStatus s suspended generation transition).maskingSuspended = false) :
    suspended = false ∧ transition = true ∧ generation = s.stopGeneration := by
  unfold applyStatus at hopen
  split at hopen
  · have hpaused : (s.emergencyLatched || true) = false := hopen
    rw [Bool.or_true] at hpaused
    cases hpaused
  · next hsuspended =>
    split at hopen
    · next htransition =>
      exact ⟨Bool.not_eq_true _ ▸ hsuspended, htransition.1, htransition.2⟩
    · have hsame : s.maskingSuspended = false := h.synced.trans hopen
      rw [hclosed] at hsame
      cases hsame

/-- An answer opens admission only if it says "not suspended", and its request may open it
and is of the current generation. -/
theorem advance_opens (h : Sound s) {work : Work} {suspended : Option Bool}
    (hstep : advance s work suspended = some t) (hclosed : s.maskingSuspended = true)
    (hopen : t.maskingSuspended = false) :
    suspended = some false ∧ work.opens = some s.stopGeneration := by
  cases work with
  | releasing isGlobal =>
    cases hstep
    rw [maskingSuspended_startup, hclosed] at hopen
    cases hopen
  | startup next generation =>
    cases suspended with
    | none =>
      cases hstep
      rw [hclosed] at hopen
      cases hopen
    | some suspended =>
      cases hstep
      have hstarted : Sound { s with needsStartup := false, coordinatorUid := s.sessionUid } :=
        sound_same h rfl rfl rfl rfl rfl fun _ _ hget => hget
      have happlied : (applyStatus { s with
          needsStartup := false, coordinatorUid := s.sessionUid }
          suspended generation true).maskingSuspended = false := by
        cases next with
        | handle operation isGlobal latched => exact hopen
        | monitor => exact hopen
      obtain ⟨hanswer, -, hgeneration⟩ := applyStatus_opens hstarted hclosed happlied
      have hcurrent : generation = s.stopGeneration := hgeneration
      rw [hanswer, hcurrent]
      exact ⟨rfl, rfl⟩
  | request operation isGlobal latched generation =>
    cases suspended with
    | none =>
      cases hstep
      rw [hclosed] at hopen
      cases hopen
    | some suspended =>
      cases hstep
      obtain ⟨hanswer, hexplicit, hgeneration⟩ := applyStatus_opens h hclosed hopen
      rw [hanswer, hgeneration]
      exact ⟨rfl, if_pos hexplicit⟩
  | scanning =>
    cases hstep
    rw [show (await s (.poll s.stopGeneration)).maskingSuspended = s.maskingSuspended from rfl,
      hclosed] at hopen
    cases hopen
  | poll generation =>
    cases suspended with
    | none =>
      cases hstep
      rw [hclosed] at hopen
      cases hopen
    | some suspended =>
      cases hstep
      obtain ⟨-, htransition, -⟩ := applyStatus_opens h hclosed hopen
      cases htransition
  | stop cleanup => cases hstep

/-- A step other than an answer keeps admission closed. -/
theorem step_keeps_closed {a : Step} (h : Sound s) (hstep : step s a = some t)
    (hclosed : s.maskingSuspended = true) :
    t.maskingSuspended = true ∨ ∃ id suspended, a = .answer id suspended := by
  cases a with
  | handle operation isGlobal uid =>
    cases hstep
    exact .inl ((maskingSuspended_handle operation isGlobal uid).trans hclosed)
  | monitor =>
    cases hstep
    exact .inl ((maskingSuspended_startup .monitor).trans hclosed)
  | suspend =>
    cases hstep
    exact .inl hclosed
  | answer id suspended => exact .inr ⟨id, suspended, rfl⟩
  | beginStop =>
    cases hstep
    exact .inl rfl
  | cleanup id =>
    obtain ⟨task, -, hstep⟩ := Option.bind_eq_some_iff.mp hstep
    split at hstep
    · cases hstep
      exact .inl ((maskingSuspended_afterCleanup (sound_erase h id) _).trans hclosed)
    · cases hstep
  | cancelStop id =>
    obtain ⟨task, -, hstep⟩ := Option.bind_eq_some_iff.mp hstep
    split at hstep
    · cases hstep
      exact .inl ((maskingSuspended_cancelStop (sound_erase h id) _).trans hclosed)
    · cases hstep

theorem opensInOrder_step {a : Step} (h : Sound s) (ha : inOrder s a = true)
    (hstep : step s a = some t) : OpensInOrder s a t := by
  intro hopen
  cases hclosed : s.maskingSuspended with
  | false => exact .inl rfl
  | true =>
    right
    rcases step_keeps_closed h hstep hclosed with hkept | ⟨id, suspended, rfl⟩
    · rw [hopen] at hkept
      cases hkept
    · obtain ⟨task, hget, hadvance⟩ := Option.bind_eq_some_iff.mp hstep
      obtain ⟨rfl, hopens⟩ := advance_opens (sound_erase h id) hadvance hclosed hopen
      have hcurrent : task.work.opens = some s.stopGeneration := hopens
      -- The generation is the current one, so the request saw no stop.
      have hidle : task.idle = true := by
        simp only [inOrder, hget, hcurrent, Option.all_some, ne_eq, not_true_eq_false,
          decide_false, Bool.or_false] at ha
        exact ha
      refine ⟨id, task, rfl, hget, ?_, hidle, ?_⟩
      · rw [hcurrent]
        rfl
      · exact (h.generations id task hget _ hcurrent).2 rfl

end Invariant

/-- As long as no startup, mask or global resume issued during a stop is answered before
the generation changes, admission is closed from the beginning of a stop until the answer
to one that was issued when no stop was under way, and after the last stop had begun. -/
theorem admission_stays_closed {suspended : Bool} {steps : List Step} {s t : State} {a : Step}
    (hguard : Guarded step (fun s a => inOrder s a = true) (initial suspended) (steps ++ [a]))
    (hrun : run step (initial suspended) steps = some s) (hstep : step s a = some t) :
    OpensInOrder s a t ∧ (a = .beginStop → t.maskingSuspended = true) := by
  obtain ⟨hsound, hlast⟩ := guarded_run_split (I := Sound)
    (fun _ _ _ h _ hstep => sound_step h hstep) (sound_initial suspended) hguard hrun
  refine ⟨opensInOrder_step hsound hlast hstep, ?_⟩
  intro hstop
  subst hstop
  cases hstep
  rfl

/-- A stop, and a global resume after it. -/
def resumed : List Step :=
  [.beginStop, .cleanup 0, .cleanup 1, .cleanup 2, .cleanup 3, .handle .resume true 1,
    .answer 4 (some true)]

theorem resumed_opens : ∃ s t, run step (initial false) resumed = some s ∧
    step s (.answer 5 (some false)) = some t ∧ s.maskingSuspended = true ∧
    t.maskingSuspended = false ∧ OpensInOrder s (.answer 5 (some false)) t := by
  have hruns : ((run step (initial false) resumed).any fun s =>
      (step s (.answer 5 (some false))).any fun t =>
        s.maskingSuspended && !t.maskingSuspended) = true := by decide
  obtain ⟨s, hrun, hs⟩ := (Option.any_eq_true _ _).mp hruns
  obtain ⟨t, hstep, ht⟩ := (Option.any_eq_true _ _).mp hs
  rw [Bool.and_eq_true, Bool.not_eq_true'] at ht
  exact ⟨s, t, hrun, hstep, ht.1, ht.2,
    (admission_stays_closed (by decide) hrun hstep).1⟩

/-- A mask is asked for while the stop neutralizes the outputs, and answered before the
stop has recorded its marker. -/
def maskDuringStop : List Step :=
  [.handle .inventory false 1, .answer 0 (some false), .answer 1 (some false), .beginStop,
    .handle .mask false 1]

theorem mask_during_stop_opens : ∃ s t, run step (initial false) maskDuringStop = some s ∧
    step s (.answer 3 (some false)) = some t ∧ s.maskingSuspended = true ∧
    t.maskingSuspended = false ∧ stopping t = true ∧ ¬ OpensInOrder s (.answer 3 (some false)) t
    ∧ (run step t [.cleanup 2, .cleanup 4, .cleanup 5, .cleanup 6]).any
      (fun u => !stopping u && !u.maskingSuspended) = true := by
  have hruns : ((run step (initial false) maskDuringStop).any fun s =>
      (step s (.answer 3 (some false))).any fun t =>
        s.maskingSuspended && !t.maskingSuspended && stopping t
        && (s.tasks.get? 3).all (fun task => !task.idle)
        && (run step t [.cleanup 2, .cleanup 4, .cleanup 5, .cleanup 6]).any
          (fun u => !stopping u && !u.maskingSuspended)) = true := by decide
  obtain ⟨s, hrun, hs⟩ := (Option.any_eq_true _ _).mp hruns
  obtain ⟨t, hstep, ht⟩ := (Option.any_eq_true _ _).mp hs
  simp only [Bool.and_eq_true, Bool.not_eq_true'] at ht
  obtain ⟨⟨⟨⟨hclosed, hopen⟩, hstopping⟩, hduring⟩, hend⟩ := ht
  refine ⟨s, t, hrun, hstep, hclosed, hopen, hstopping, fun hopens => ?_, ?_⟩
  · rcases hopens hopen with hearlier | ⟨id, task, hanswer, hget, -, hidle, -⟩
    · rw [hclosed] at hearlier
      cases hearlier
    · cases hanswer
      rw [hget, Option.all_some, hidle] at hduring
      cases hduring
  · simpa only [Bool.and_eq_true, Bool.not_eq_true'] using hend

end Keymasq.Masking.Admission
