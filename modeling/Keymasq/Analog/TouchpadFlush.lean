import Keymasq.Analog.TouchpadContact
import Mathlib.Logic.Function.Basic

/-!
# The flush task of a touchpad

A report gives out the steps that are due and sees to it that a task sleeps for those still held.
When the task wakes, it gives out what is due for its own touch, and sleeps again. A lift drops
what is held and cancels the task.
-/

namespace Keymasq.Analog.TouchpadFlush
open TouchpadContact

/-- A task has been created, sleeps until a time, or has ended. -/
inductive Phase
  | created
  | sleeping (wakes : ℚ)
  | done

structure Task where
  contact : ℕ := 0
  phase : Phase := .done
  cancelled : Bool := false

/-- What the runtime keeps for the control. The contacts and tasks are the objects made so far. The
last two fields are for the proofs: what was reported for each contact, and what was passed on for
it, before scaling. -/
structure State where
  now : ℚ := 0
  contacts : ℕ → Contact := fun _ => {}
  made : ℕ := 0
  tasks : ℕ → Task := fun _ => {}
  created : ℕ := 0
  positioned : Bool := false
  contact : Option ℕ := none
  task : Option ℕ := none
  reports : ℕ → List Report := fun _ => []
  motion : ℕ → ℚ × ℚ := fun _ => 0

/- Monotonic time: it never goes back. -/
def State.clock (s : State) (now : ℚ) : State := { s with now := max s.now now }

/- Cancelling a task that has ended has no effect. -/
def cancel (tasks : ℕ → Task) : Option ℕ → ℕ → Task
  | none => tasks
  | some i => Function.update tasks i { tasks i with cancelled := true }

def Task.isDone (task : Task) : Bool :=
  match task.phase with
  | .done => true
  | _ => false

/- The branch of `emit_mouse_area_motion` for a lift. -/
def lift (s : State) : State :=
  { s with contact := none, tasks := cancel s.tasks s.task, task := none, positioned := false }

/- A new `TouchpadContact`. -/
def newContact (s : State) : State :=
  { s with
    contacts := Function.update s.contacts s.made {}
    made := s.made + 1
    contact := some s.made }

/- The contact under way, or else a new one. -/
def currentContact (s : State) : State × ℕ :=
  match s.contact with
  | some c => (s, c)
  | none => (newContact s, s.made)

/- The position that `move` is called with. -/
def record (s : State) (c : ℕ) (x y : ℚ) : State :=
  { s with reports := Function.update s.reports c (s.reports c ++ [⟨s.now, x, y⟩]) }

/- What `move` or `drain` returns is passed on. -/
def giveOut (s : State) (c : ℕ) (result : Contact × (ℚ × ℚ)) : State :=
  { s with
    contacts := Function.update s.contacts c result.1
    motion := Function.update s.motion c (s.motion c + result.2) }

/- Whether the task sleeps for this contact, and no longer than until `due`. -/
def flushes (s : State) (contact : Contact) (due : ℚ) : Bool :=
  match s.task, contact.flushArmedFor with
  | some i, some armed => !(s.tasks i).isDone && armed ≤ due
  | _, _ => false

def arm (s : State) (c : ℕ) (due : Option ℚ) : State :=
  { s with contacts := Function.update s.contacts c { s.contacts c with flushArmedFor := due } }

/- `_ensure_touchpad_flush_task`. -/
def ensureFlushTask (s : State) (c : ℕ) : State :=
  match nextDue (s.contacts c) with
  | none => s
  | some due =>
    if flushes s (s.contacts c) due then s
    else
      { arm s c (some due) with
        tasks := Function.update (cancel s.tasks s.task) s.created
          { contact := c, phase := .created }
        created := s.created + 1
        task := some s.created }

/- The branch for a touchpad: the contact moves, and a task sees to what it holds. -/
def moveContact (hypot : ℚ → ℚ → ℚ) (s : State) (c : ℕ) (x y : ℚ) : State :=
  ensureFlushTask (giveOut (record s c x y) c (move hypot (s.contacts c) s.now x y)) c

/- `emit_mouse_area_motion`, for a touchpad. -/
def report (hypot : ℚ → ℚ → ℚ) (s : State) (x y : ℚ) : State :=
  if x = 0 ∧ y = 0 then lift s
  else
    let s := if s.positioned then s else newContact s
    let (s, c) := currentContact { s with positioned := true }
    moveContact hypot s c x y

def setPhase (s : State) (i : ℕ) (phase : Phase) : State :=
  { s with tasks := Function.update s.tasks i { s.tasks i with phase } }

/- The head of the loop in `_touchpad_flush_loop`. -/
def flushLoop (s : State) (i c : ℕ) : State :=
  match nextDue (s.contacts c) with
  | none => setPhase (arm s c none) i .done
  | some due => setPhase (arm s c (some due)) i (.sleeping (s.now + max 0 (due - s.now)))

/- A task goes on, maybe before it was to wake, until it sleeps or ends. It reads the clock again
before it sleeps. -/
def wake (s : State) (i : ℕ) (later : ℚ) : State :=
  match (s.tasks i).phase with
  | .done => s
  | .created =>
    if (s.tasks i).cancelled then setPhase s i .done else flushLoop s i (s.tasks i).contact
  | .sleeping _ =>
    if (s.tasks i).cancelled then setPhase s i .done
    else if s.contact ≠ some (s.tasks i).contact || !s.positioned then setPhase s i .done
    else
      flushLoop ((giveOut s (s.tasks i).contact
        (drain (s.contacts (s.tasks i).contact) s.now)).clock later) i (s.tasks i).contact

/-- A report of the touchpad, (0, 0) for a lift, or a task that goes on. -/
inductive Event
  | report (now x y : ℚ)
  | wake (now later : ℚ) (i : ℕ)

def step (hypot : ℚ → ℚ → ℚ) (s : State) : Event → State
  | .report now x y => report hypot (s.clock now) x y
  | .wake now later i => wake (s.clock now) i later

def run (hypot : ℚ → ℚ → ℚ) (events : List Event) : State := events.foldl (step hypot) {}

/-! ## The invariant -/

/-- The task goes on until it has flushed what its contact holds. -/
def Live (s : State) (i : ℕ) : Prop :=
  (s.tasks i).isDone = false ∧ (s.tasks i).cancelled = false

/-- The task has just been created or sleeps no longer than it is armed for. -/
def Sleeps (s : State) (i : ℕ) (armed : ℚ) : Prop :=
  ∀ wakes, (s.tasks i).phase = .sleeping wakes → wakes ≤ max armed s.now

/-- The objects agree; the only task that goes on is the one that is known, for the touch that
is under way. -/
structure Base (hypot : ℚ → ℚ → ℚ) (s : State) : Prop where
  conserved : ∀ c, Conserved (s.contacts c) ∧ Filtered hypot (s.reports c) (s.contacts c)
  past : ∀ c, ∀ last ∈ (s.reports c).getLast?, last.arrival ≤ s.now
  given : ∀ c, s.motion c = total (s.contacts c).given
  fresh : ∀ c, s.made ≤ c → s.contacts c = {} ∧ s.reports c = []
  freshTask : ∀ i, s.created ≤ i → (s.tasks i).isDone = true
  positioned : s.positioned = s.contact.isSome
  known : ∀ c ∈ s.contact, c < s.made
  current : ∀ i ∈ s.task, i < s.created ∧ (s.tasks i).cancelled = false
  live : ∀ i, Live s i → s.task = some i ∧ s.contact = some (s.tasks i).contact ∧
    ∃ armed, (s.contacts (s.tasks i).contact).flushArmedFor = some armed ∧ Sleeps s i armed

/-- Moreover, the task wakes in time for the first step that is held, and there is one. -/
structure Sound (hypot : ℚ → ℚ → ℚ) (s : State) : Prop extends Base hypot s where
  timely : ∀ i, Live s i → ∀ armed,
    (s.contacts (s.tasks i).contact).flushArmedFor = some armed →
    ∀ due ∈ nextDue (s.contacts (s.tasks i).contact), armed ≤ due
  flushed : ∀ c ∈ s.contact, ∀ due ∈ nextDue (s.contacts c), ∃ i, Live s i

theorem sound_start (hypot : ℚ → ℚ → ℚ) : Sound hypot {} where
  conserved _ := ⟨conserved_new, filtered_new hypot⟩
  past c last hlast := by cases hlast
  given _ := rfl
  fresh _ _ := ⟨rfl, rfl⟩
  freshTask _ _ := rfl
  positioned := rfl
  known c hc := by cases hc
  current i hi := by cases hi
  live i hlive := by cases hlive.1
  timely i hlive := by cases hlive.1
  flushed c hc := by cases hc

variable {hypot : ℚ → ℚ → ℚ} {s : State} {made c : ℕ} {under : Option ℕ}

theorem Base.clock (h : Base hypot s) (now : ℚ) : Base hypot (s.clock now) where
  conserved := h.conserved
  past c last hlast := (h.past c last hlast).trans (le_max_left s.now now)
  given := h.given
  fresh := h.fresh
  freshTask := h.freshTask
  positioned := h.positioned
  known := h.known
  current := h.current
  live i hlive := by
    obtain ⟨htask, hcontact, armed, harmed, hsleeps⟩ := h.live i hlive
    refine ⟨htask, hcontact, armed, harmed, fun wakes hwakes => ?_⟩
    exact (hsleeps wakes hwakes).trans (max_le_max_left armed (le_max_left s.now now))

theorem Sound.clock (h : Sound hypot s) (now : ℚ) : Sound hypot (s.clock now) :=
  ⟨h.toBase.clock now, h.timely, h.flushed⟩

/-- What a contact gives out is passed on. -/
theorem Base.giveOut (h : Base hypot s) {c : ℕ} (hcontact : s.contact = some c)
    {reports : List Report} {result : Contact × (ℚ × ℚ)} (hconserved : Conserved result.1)
    (hfiltered : Filtered hypot reports result.1)
    (hpast : ∀ last ∈ reports.getLast?, last.arrival ≤ s.now)
    (hgiven : total result.1.given = total (s.contacts c).given + result.2)
    (harmed : result.1.flushArmedFor = (s.contacts c).flushArmedFor) :
    Base hypot
      (giveOut { s with reports := Function.update s.reports c reports } c result) where
  conserved other := by
    unfold TouchpadFlush.giveOut
    dsimp only
    by_cases hother : other = c
    · subst hother
      rw [Function.update_self, Function.update_self]
      exact ⟨hconserved, hfiltered⟩
    · rw [Function.update_of_ne hother, Function.update_of_ne hother]
      exact h.conserved other
  past other := by
    unfold TouchpadFlush.giveOut
    dsimp only
    by_cases hother : other = c
    · subst hother
      rw [Function.update_self]
      exact hpast
    · rw [Function.update_of_ne hother]
      exact h.past other
  given other := by
    unfold TouchpadFlush.giveOut
    dsimp only
    by_cases hother : other = c
    · subst hother
      rw [Function.update_self, Function.update_self, hgiven, h.given]
    · rw [Function.update_of_ne hother, Function.update_of_ne hother]
      exact h.given other
  fresh other hfresh := by
    have hother : other ≠ c := (lt_of_lt_of_le (h.known c hcontact) hfresh).ne'
    unfold TouchpadFlush.giveOut
    dsimp only
    rw [Function.update_of_ne hother, Function.update_of_ne hother]
    exact h.fresh other hfresh
  freshTask := h.freshTask
  positioned := h.positioned
  known := h.known
  current := h.current
  live i hlive := by
    obtain ⟨htask, hmine, armed, hmineArmed, hsleeps⟩ := h.live i hlive
    refine ⟨htask, hmine, armed, ?_, hsleeps⟩
    have hc : (s.tasks i).contact = c := Option.some.inj (hmine.symm.trans hcontact)
    unfold TouchpadFlush.giveOut
    dsimp only
    rw [hc, Function.update_self, harmed, ← hc]
    exact hmineArmed

theorem cancel_self (tasks : ℕ → Task) (i : ℕ) :
    cancel tasks (some i) i = { tasks i with cancelled := true } :=
  Function.update_self _ _ _

theorem cancel_of_ne (tasks : ℕ → Task) {i known : ℕ} (h : i ≠ known) :
    cancel tasks (some known) i = tasks i :=
  Function.update_of_ne h _ _

theorem cancel_isDone (tasks : ℕ → Task) (task : Option ℕ) (i : ℕ) :
    (cancel tasks task i).isDone = (tasks i).isDone := by
  cases task with
  | none => rfl
  | some known =>
    by_cases hknown : i = known
    · rw [hknown, cancel_self]
      rfl
    · rw [cancel_of_ne tasks hknown]

/-- Once the known task is cancelled, no task goes on. -/
theorem Base.cancelled (h : Base hypot s) (i : ℕ) (hdone : (cancel s.tasks s.task i).isDone = false) :
    (cancel s.tasks s.task i).cancelled = true := by
  rw [cancel_isDone] at hdone
  by_cases hcancelled : (s.tasks i).cancelled = true
  · cases s.task with
    | none => exact hcancelled
    | some known =>
      by_cases hknown : i = known
      · rw [hknown, cancel_self]
      · rw [cancel_of_ne s.tasks hknown]
        exact hcancelled
  · rw [(h.live i ⟨hdone, Bool.eq_false_iff.mpr hcancelled⟩).1, cancel_self]

theorem Base.lift (h : Base hypot s) : Sound hypot (lift s) where
  conserved := h.conserved
  past := h.past
  given := h.given
  fresh := h.fresh
  freshTask i hi := (cancel_isDone s.tasks s.task i).trans (h.freshTask i hi)
  positioned := rfl
  known c hc := by cases hc
  current i hi := by cases hi
  live i hlive := absurd ((h.cancelled i hlive.1).symm.trans hlive.2) (by decide)
  timely i hlive := absurd ((h.cancelled i hlive.1).symm.trans hlive.2) (by decide)
  flushed c hc := by cases hc

/-- Without a touch no task goes on. -/
theorem Base.not_live (h : Base hypot s) (hnone : s.contact = none) (i : ℕ) : ¬ Live s i := by
  intro hlive
  have hcontact := (h.live i hlive).2.1
  rw [hnone] at hcontact
  cases hcontact

theorem Base.newContact (h : Base hypot s) (hnone : s.contact = none) :
    Base hypot { newContact s with positioned := true } where
  conserved c := by
    unfold TouchpadFlush.newContact
    dsimp only
    by_cases hc : c = s.made
    · rw [hc, Function.update_self, (h.fresh s.made (le_refl s.made)).2]
      exact ⟨conserved_new, filtered_new hypot⟩
    · rw [Function.update_of_ne hc]
      exact h.conserved c
  past := h.past
  given c := by
    unfold TouchpadFlush.newContact
    dsimp only
    by_cases hc : c = s.made
    · rw [hc, Function.update_self, h.given, (h.fresh s.made (le_refl s.made)).1]
    · rw [Function.update_of_ne hc]
      exact h.given c
  fresh c hc := by
    unfold TouchpadFlush.newContact at hc ⊢
    dsimp only at hc ⊢
    rw [Function.update_of_ne (by omega)]
    exact h.fresh c (by omega)
  freshTask := h.freshTask
  positioned := rfl
  known c hc := by
    cases hc
    exact Nat.lt_succ_self s.made
  current := h.current
  live i hlive := absurd hlive (h.not_live hnone i)

theorem Base.arm (h : Base hypot s) {c : ℕ} (hcontact : s.contact = some c) (due : Option ℚ) :
    (∀ other, Conserved ((arm s c due).contacts other) ∧
      Filtered hypot (s.reports other) ((arm s c due).contacts other)) ∧
    (∀ other, s.motion other = total ((arm s c due).contacts other).given) ∧
    (∀ other, s.made ≤ other → (arm s c due).contacts other = {} ∧ s.reports other = []) ∧
    ((arm s c due).contacts c).flushArmedFor = due ∧
    nextDue ((arm s c due).contacts c) = nextDue (s.contacts c) := by
  unfold TouchpadFlush.arm
  dsimp only
  refine ⟨?_, ?_, ?_, ?_, ?_⟩
  · intro other
    by_cases hother : other = c
    · rw [hother, Function.update_self]
      exact ⟨(h.conserved c).1.arm due, (h.conserved c).2.arm due⟩
    · rw [Function.update_of_ne hother]
      exact h.conserved other
  · intro other
    by_cases hother : other = c
    · rw [hother, Function.update_self]
      exact h.given c
    · rw [Function.update_of_ne hother]
      exact h.given other
  · intro other hfresh
    rw [Function.update_of_ne (lt_of_lt_of_le (h.known c hcontact) hfresh).ne']
    exact h.fresh other hfresh
  · rw [Function.update_self]
  · rw [Function.update_self]
    rfl

/-- After a report, a task goes on for what is held. -/
theorem Base.ensureFlushTask (h : Base hypot s) {c : ℕ} (hcontact : s.contact = some c) :
    Sound hypot (ensureFlushTask s c) := by
  have hmine : ∀ i, Live s i → (s.tasks i).contact = c := fun i hlive =>
    Option.some.inj ((h.live i hlive).2.1.symm.trans hcontact)
  unfold TouchpadFlush.ensureFlushTask
  cases hdue : nextDue (s.contacts c) with
  | none =>
    refine ⟨h, ?_, ?_⟩
    · intro i hlive armed _ due hnext
      rw [hmine i hlive, hdue] at hnext
      cases hnext
    · intro other hother due hnext
      have hsame : c = other := Option.some.inj (hcontact.symm.trans hother)
      rw [← hsame, hdue] at hnext
      cases hnext
  | some due =>
    dsimp only
    split
    case isTrue hflushes =>
      unfold flushes at hflushes
      split at hflushes
      case h_2 => cases hflushes
      case h_1 known armed htask harmed =>
        rw [Bool.and_eq_true, Bool.not_eq_true', decide_eq_true_eq] at hflushes
        refine ⟨h, ?_, ?_⟩
        · intro i hlive other hother next hnext
          rw [hmine i hlive] at hother hnext
          rw [harmed, Option.some.injEq] at hother
          rw [hdue, Option.mem_some_iff] at hnext
          rw [← hother, ← hnext]
          exact hflushes.2
        · intro _ _ _ _
          exact ⟨known, hflushes.1, (h.current known htask).2⟩
    · obtain ⟨hconserved, hgiven, hfresh, harmed, hnext⟩ := h.arm hcontact (some due)
      have hlast : ∀ i, Live { TouchpadFlush.arm s c (some due) with
          tasks := Function.update (cancel s.tasks s.task) s.created
            { contact := c, phase := .created }
          created := s.created + 1
          task := some s.created } i → i = s.created := by
        intro i hlive
        by_contra hother
        obtain ⟨hdone, hcancelled⟩ := hlive
        dsimp only at hdone hcancelled
        rw [Function.update_of_ne hother] at hdone hcancelled
        exact absurd ((h.cancelled i hdone).symm.trans hcancelled) (by decide)
      exact {
        conserved := hconserved
        past := h.past
        given := hgiven
        fresh := hfresh
        freshTask := by
          intro i hi
          dsimp only at hi ⊢
          rw [Function.update_of_ne (by omega), cancel_isDone]
          exact h.freshTask i (by omega)
        positioned := h.positioned
        known := h.known
        current := by
          intro i hi
          cases hi
          dsimp only
          rw [Function.update_self]
          exact ⟨Nat.lt_succ_self s.created, rfl⟩
        live := by
          intro i hlive
          rw [hlast i hlive]
          unfold Sleeps
          dsimp only
          rw [Function.update_self]
          exact ⟨rfl, hcontact, due, harmed, fun wakes hwakes => by cases hwakes⟩
        timely := by
          intro i hlive armed hnow next hmem
          rw [hlast i hlive] at hnow hmem
          dsimp only at hnow hmem
          rw [Function.update_self] at hnow hmem
          rw [harmed, Option.some.injEq] at hnow
          rw [hnext, hdue, Option.mem_some_iff] at hmem
          rw [← hnow, ← hmem]
        flushed := by
          intro _ _ _ _
          refine ⟨s.created, ?_, ?_⟩
          · dsimp only
            rw [Function.update_self]
            rfl
          · dsimp only
            rw [Function.update_self] }

theorem setPhase_self (s : State) (i : ℕ) (phase : Phase) :
    (setPhase s i phase).tasks i = { s.tasks i with phase } :=
  Function.update_self _ _ _

theorem setPhase_of_ne (s : State) {i other : ℕ} (phase : Phase) (h : other ≠ i) :
    (setPhase s i phase).tasks other = s.tasks other :=
  Function.update_of_ne h _ _

/-- A task that does not go on may end. -/
theorem Sound.finish (h : Sound hypot s) {i : ℕ} (hidle : ¬ Live s i) :
    Sound hypot (setPhase s i .done) := by
  have hkept : ∀ other, Live (setPhase s i .done) other → other ≠ i ∧ Live s other := by
    intro other hlive
    have hother : other ≠ i := by
      intro heq
      have hdone := hlive.1
      rw [heq, setPhase_self] at hdone
      cases hdone
    unfold Live at hlive ⊢
    rw [setPhase_of_ne s .done hother] at hlive
    exact ⟨hother, hlive⟩
  exact {
    conserved := h.conserved
    past := h.past
    given := h.given
    fresh := h.fresh
    freshTask := by
      intro other hother
      by_cases heq : other = i
      · rw [heq, setPhase_self]
        rfl
      · rw [setPhase_of_ne s .done heq]
        exact h.freshTask other hother
    positioned := h.positioned
    known := h.known
    current := by
      intro other hother
      obtain ⟨hcreated, hcancelled⟩ := h.current other hother
      refine ⟨hcreated, ?_⟩
      by_cases heq : other = i
      · rw [heq] at hcancelled ⊢
        rw [setPhase_self]
        exact hcancelled
      · rw [setPhase_of_ne s .done heq]
        exact hcancelled
    live := by
      intro other hlive
      obtain ⟨hother, hbefore⟩ := hkept other hlive
      unfold Sleeps
      rw [setPhase_of_ne s .done hother]
      exact h.live other hbefore
    timely := by
      intro other hlive
      obtain ⟨hother, hbefore⟩ := hkept other hlive
      rw [setPhase_of_ne s .done hother]
      exact h.timely other hbefore
    flushed := by
      intro c hc due hdue
      obtain ⟨other, hlive⟩ := h.flushed c hc due hdue
      have hother : other ≠ i := fun heq => hidle (heq ▸ hlive)
      refine ⟨other, ?_⟩
      unfold Live
      rw [setPhase_of_ne s .done hother]
      exact hlive }

/-- A task that goes on sleeps for what is held, or ends where nothing is. -/
theorem Base.flushLoop (h : Base hypot s) {i : ℕ} (hlive : Live s i) :
    Sound hypot (flushLoop s i (s.tasks i).contact) := by
  obtain ⟨htask, hcontact, -⟩ := h.live i hlive
  have honly : ∀ other, Live s other → other = i := fun other hother =>
    Option.some.inj ((h.live other hother).1.symm.trans htask)
  have hlast : ∀ due phase other,
      Live (setPhase (TouchpadFlush.arm s (s.tasks i).contact due) i phase) other →
        other = i := by
    intro due phase other hother
    by_contra heq
    unfold Live at hother
    rw [setPhase_of_ne _ _ heq] at hother
    exact heq (honly other hother)
  have hcurrent : ∀ due phase, ∀ other ∈ s.task, other < s.created ∧
      ((setPhase (TouchpadFlush.arm s (s.tasks i).contact due) i phase).tasks other).cancelled =
        false := by
    intro due phase other hother
    rw [htask] at hother
    cases hother
    rw [setPhase_self]
    exact h.current i htask
  have hfreshTask : ∀ due phase other, s.created ≤ other →
      ((setPhase (TouchpadFlush.arm s (s.tasks i).contact due) i phase).tasks other).isDone =
        true := by
    intro due phase other hother
    have heq : other ≠ i := (lt_of_lt_of_le (h.current i htask).1 hother).ne'
    rw [setPhase_of_ne _ _ heq]
    exact h.freshTask other hother
  unfold TouchpadFlush.flushLoop
  cases hdue : nextDue (s.contacts (s.tasks i).contact) with
  | none =>
    obtain ⟨hconserved, hgiven, hfresh, -, hnext⟩ := h.arm hcontact none
    have hnone : ∀ other,
        ¬ Live (setPhase (TouchpadFlush.arm s (s.tasks i).contact none) i .done) other := by
      intro other hother
      rw [hlast none .done other hother] at hother
      have hdone := hother.1
      rw [setPhase_self] at hdone
      cases hdone
    exact {
      conserved := hconserved
      past := h.past
      given := hgiven
      fresh := hfresh
      freshTask := hfreshTask none .done
      positioned := h.positioned
      known := h.known
      current := hcurrent none .done
      live := fun other hother => absurd hother (hnone other)
      timely := fun other hother => absurd hother (hnone other)
      flushed := by
        intro c hc due hmem
        have hsame : (s.tasks i).contact = c := Option.some.inj (hcontact.symm.trans hc)
        rw [← hsame] at hmem
        cases (hnext.trans hdue).symm.trans hmem }
  | some due =>
    obtain ⟨hconserved, hgiven, hfresh, harmed, hnext⟩ := h.arm hcontact (some due)
    have hwakes : s.now + max 0 (due - s.now) ≤ max due s.now := by
      rw [← max_add_add_left, add_zero, add_sub_cancel, max_comm]
    exact {
      conserved := hconserved
      past := h.past
      given := hgiven
      fresh := hfresh
      freshTask := hfreshTask (some due) _
      positioned := h.positioned
      known := h.known
      current := hcurrent (some due) _
      live := by
        intro other hother
        rw [hlast _ _ other hother]
        unfold Sleeps
        rw [setPhase_self]
        refine ⟨htask, hcontact, due, harmed, ?_⟩
        intro wakes heq
        cases heq
        exact hwakes
      timely := by
        intro other hother armed hnow next hmem
        rw [hlast _ _ other hother, setPhase_self] at hnow hmem
        have hsome : some due = some armed := harmed.symm.trans hnow
        have hsame : some due = some next := (hnext.trans hdue).symm.trans hmem
        rw [← Option.some.inj hsome, ← Option.some.inj hsame]
      flushed := by
        intro _ _ _ _
        refine ⟨i, ?_, ?_⟩
        · rw [setPhase_self]
          rfl
        · rw [setPhase_self]
          exact hlive.2 }

theorem Sound.wake (h : Sound hypot s) (i : ℕ) (later : ℚ) : Sound hypot (wake s i later) := by
  have hidle : (s.tasks i).cancelled = true → ¬ Live s i := by
    intro hcancelled hlive
    rw [hlive.2] at hcancelled
    cases hcancelled
  unfold TouchpadFlush.wake
  split
  · exact h
  case h_2 hcreated =>
    split
    case isTrue hcancelled => exact h.finish (hidle hcancelled)
    case isFalse hcancelled =>
      refine h.flushLoop ⟨?_, Bool.eq_false_iff.mpr hcancelled⟩
      unfold Task.isDone
      rw [hcreated]
  case h_3 wakes hsleeping =>
    split
    case isTrue hcancelled => exact h.finish (hidle hcancelled)
    case isFalse hcancelled =>
      have hlive : Live s i := by
        refine ⟨?_, Bool.eq_false_iff.mpr hcancelled⟩
        unfold Task.isDone
        rw [hsleeping]
      obtain ⟨-, hcontact, -⟩ := h.live i hlive
      split
      case isTrue hgone =>
        -- the touch is the one under way
        rw [h.positioned, hcontact] at hgone
        simp at hgone
      · obtain ⟨hconserved, hfiltered⟩ := h.conserved (s.tasks i).contact
        have hgiven := h.toBase.giveOut hcontact (hconserved.drain s.now) (hfiltered.drain s.now)
          (h.past _) (drain_given _ s.now) rfl
        rw [Function.update_eq_self] at hgiven
        exact (hgiven.clock later).flushLoop hlive

theorem Base.moveContact (h : Base hypot s) (hcontact : s.contact = some c) (x y : ℚ) :
    Sound hypot (moveContact hypot s c x y) := by
  obtain ⟨hconserved, hfiltered⟩ := h.conserved c
  refine (h.giveOut hcontact (hconserved.move hypot s.now x y)
    (hfiltered.move (h.past c) x y) (fun last hlast => ?_) (move_given hypot _ _ x y)
    (move_flushArmedFor hypot _ _ x y)).ensureFlushTask hcontact
  rw [List.getLast?_concat, Option.mem_some_iff] at hlast
  rw [← hlast]

/-- A position moves the contact that is under way, or else a new one. -/
theorem Base.report_cases (h : Base hypot s) {x y : ℚ} (htouches : ¬(x = 0 ∧ y = 0)) :
    (∃ c, s.contact = some c ∧
      TouchpadFlush.report hypot s x y = TouchpadFlush.moveContact hypot s c x y) ∨
    s.contact = none ∧ TouchpadFlush.report hypot s x y =
      TouchpadFlush.moveContact hypot { TouchpadFlush.newContact s with positioned := true } s.made
        x y := by
  unfold TouchpadFlush.report
  rw [if_neg htouches]
  dsimp only
  by_cases hpositioned : s.positioned = true
  · obtain ⟨c, hcontact⟩ := Option.isSome_iff_exists.mp (h.positioned.symm.trans hpositioned)
    have hkept : ({ s with positioned := true } : State) = s := by rw [← hpositioned]
    have hcurrent : currentContact { s with positioned := true } = (s, c) := by
      refine (congrArg currentContact hkept).trans ?_
      unfold currentContact
      rw [hcontact]
    rw [if_pos hpositioned, hcurrent]
    exact .inl ⟨c, hcontact, rfl⟩
  · have hnone : s.contact = none := by
      rw [← Option.not_isSome_iff_eq_none, ← h.positioned]
      exact hpositioned
    rw [if_neg hpositioned]
    exact .inr ⟨hnone, rfl⟩

theorem Sound.report (h : Sound hypot s) (x y : ℚ) : Sound hypot (report hypot s x y) := by
  by_cases htouches : x = 0 ∧ y = 0
  · unfold TouchpadFlush.report
    rw [if_pos htouches]
    exact h.lift
  · obtain ⟨c, hcontact, heq⟩ | ⟨hnone, heq⟩ := h.toBase.report_cases htouches
    · rw [heq]
      exact h.toBase.moveContact hcontact x y
    · rw [heq]
      exact (h.toBase.newContact hnone).moveContact rfl x y

theorem Sound.step (h : Sound hypot s) (event : Event) : Sound hypot (step hypot s event) := by
  cases event with
  | report now x y => exact (h.clock now).report x y
  | wake now later i => exact (h.clock now).wake i later

theorem Sound.run (h : Sound hypot s) (events : List Event) :
    Sound hypot (events.foldl (TouchpadFlush.step hypot) s) := by
  induction events generalizing s with
  | nil => exact h
  | cons event events ih => exact ih (h.step event)

/-! ## What a step leaves as it was -/

/-- Of the first contacts, only the one under way changes, and that by reports and steps at the
end. -/
def Kept (made : ℕ) (under : Option ℕ) (before after : State) : Prop :=
  ∀ c < made, before.reports c <+: after.reports c ∧
    (before.contacts c).given <+: (after.contacts c).given ∧
    (under ≠ some c → after.contacts c = before.contacts c ∧
      after.reports c = before.reports c ∧ after.motion c = before.motion c)

theorem Kept.refl (made : ℕ) (under : Option ℕ) (s : State) : Kept made under s s :=
  fun _ _ => ⟨List.prefix_refl _, List.prefix_refl _, fun _ => ⟨rfl, rfl, rfl⟩⟩

theorem Kept.trans {made : ℕ} {under : Option ℕ} {s₁ s₂ s₃ : State} (h : Kept made under s₁ s₂)
    (h' : Kept made under s₂ s₃) : Kept made under s₁ s₃ := by
  intro c hc
  obtain ⟨hreports, hgiven, hother⟩ := h c hc
  obtain ⟨hreports', hgiven', hother'⟩ := h' c hc
  refine ⟨hreports.trans hreports', hgiven.trans hgiven', fun hne => ?_⟩
  obtain ⟨hcontact, hreported, hmotion⟩ := hother hne
  obtain ⟨hcontact', hreported', hmotion'⟩ := hother' hne
  exact ⟨hcontact'.trans hcontact, hreported'.trans hreported, hmotion'.trans hmotion⟩

theorem kept_record (hc : under = some c ∨ made ≤ c) (x y : ℚ) :
    Kept made under s (record s c x y) := by
  intro other hother
  unfold record
  dsimp only
  by_cases heq : other = c
  · rw [heq, Function.update_self]
    refine ⟨List.prefix_append _ _, List.prefix_refl _, fun hne => ?_⟩
    rcases hc with hunder | hnew
    · exact absurd hunder hne
    · exact absurd hother (by omega)
  · rw [Function.update_of_ne heq]
    exact ⟨List.prefix_refl _, List.prefix_refl _, fun _ => ⟨rfl, rfl, rfl⟩⟩

theorem kept_giveOut (hc : under = some c ∨ made ≤ c) {result : Contact × (ℚ × ℚ)}
    (hgiven : (s.contacts c).given <+: result.1.given) :
    Kept made under s (giveOut s c result) := by
  intro other hother
  unfold giveOut
  dsimp only
  by_cases heq : other = c
  · rw [heq, Function.update_self]
    refine ⟨List.prefix_refl _, hgiven, fun hne => ?_⟩
    rcases hc with hunder | hnew
    · exact absurd hunder hne
    · exact absurd hother (by omega)
  · rw [Function.update_of_ne heq, Function.update_of_ne heq]
    exact ⟨List.prefix_refl _, List.prefix_refl _, fun _ => ⟨rfl, rfl, rfl⟩⟩

theorem kept_arm (hc : under = some c ∨ made ≤ c) (due : Option ℚ) :
    Kept made under s (arm s c due) := by
  intro other hother
  unfold arm
  dsimp only
  by_cases heq : other = c
  · rw [heq, Function.update_self]
    refine ⟨List.prefix_refl _, List.prefix_refl _, fun hne => ?_⟩
    rcases hc with hunder | hnew
    · exact absurd hunder hne
    · exact absurd hother (by omega)
  · rw [Function.update_of_ne heq]
    exact ⟨List.prefix_refl _, List.prefix_refl _, fun _ => ⟨rfl, rfl, rfl⟩⟩

theorem kept_ensureFlushTask (hc : under = some c ∨ made ≤ c) :
    Kept made under s (ensureFlushTask s c) := by
  unfold ensureFlushTask
  split
  · exact Kept.refl made under s
  case h_2 due _ =>
    split
    · exact Kept.refl made under s
    · exact kept_arm hc (some due)

theorem kept_flushLoop (hc : under = some c ∨ made ≤ c) (i : ℕ) :
    Kept made under s (flushLoop s i c) := by
  unfold flushLoop
  split
  · exact kept_arm hc none
  case h_2 due _ => exact kept_arm hc (some due)

theorem kept_newContact (s : State) (under : Option ℕ) :
    Kept s.made under s (newContact s) := by
  intro other hother
  unfold newContact
  dsimp only
  rw [Function.update_of_ne hother.ne]
  exact ⟨List.prefix_refl _, List.prefix_refl _, fun _ => ⟨rfl, rfl, rfl⟩⟩

theorem kept_moveContact (hc : under = some c ∨ made ≤ c) (x y : ℚ) :
    Kept made under s (moveContact hypot s c x y) := by
  have hgiven := kept_giveOut (s := record s c x y) hc (move_extends hypot (s.contacts c) s.now x y)
  exact ((kept_record hc x y).trans hgiven).trans (kept_ensureFlushTask hc)

theorem Sound.kept_report (h : Sound hypot s) (x y : ℚ) :
    Kept s.made s.contact s (TouchpadFlush.report hypot s x y) := by
  by_cases htouches : x = 0 ∧ y = 0
  · unfold TouchpadFlush.report
    rw [if_pos htouches]
    exact Kept.refl s.made s.contact s
  · obtain ⟨c, hcontact, heq⟩ | ⟨-, heq⟩ := h.toBase.report_cases htouches
    · rw [heq]
      exact kept_moveContact (.inl hcontact) x y
    · rw [heq]
      have hnew : Kept s.made s.contact s { newContact s with positioned := true } :=
        kept_newContact s s.contact
      exact hnew.trans (kept_moveContact (.inr (le_refl s.made)) x y)

theorem Sound.kept_wake (h : Sound hypot s) (i : ℕ) (later : ℚ) :
    Kept s.made s.contact s (TouchpadFlush.wake s i later) := by
  have hlive : (s.tasks i).isDone = false → ¬ (s.tasks i).cancelled = true →
      s.contact = some (s.tasks i).contact := fun hdone hcancelled =>
    (h.live i ⟨hdone, Bool.eq_false_iff.mpr hcancelled⟩).2.1
  unfold TouchpadFlush.wake
  split
  · exact Kept.refl s.made s.contact s
  case h_2 hcreated =>
    split
    · exact Kept.refl s.made s.contact s
    case isFalse hcancelled =>
      refine kept_flushLoop (.inl (hlive ?_ hcancelled)) i
      unfold Task.isDone
      rw [hcreated]
  case h_3 wakes hsleeping =>
    split
    · exact Kept.refl s.made s.contact s
    case isFalse hcancelled =>
      split
      · exact Kept.refl s.made s.contact s
      · have hdone : (s.tasks i).isDone = false := by
          unfold Task.isDone
          rw [hsleeping]
        have hcontact := hlive hdone hcancelled
        exact (kept_giveOut (.inl hcontact) (List.prefix_append _ _)).trans
          (kept_flushLoop (s := (TouchpadFlush.giveOut s (s.tasks i).contact
            (drain (s.contacts (s.tasks i).contact) s.now)).clock later) (.inl hcontact) i)

theorem Sound.kept (h : Sound hypot s) (event : Event) :
    Kept s.made s.contact s (TouchpadFlush.step hypot s event) := by
  cases event with
  | report now x y => exact (h.clock now).kept_report x y
  | wake now later i => exact (h.clock now).kept_wake i later

theorem ensureFlushTask_reports (s : State) (c : ℕ) :
    (ensureFlushTask s c).contact = s.contact ∧ (ensureFlushTask s c).reports = s.reports := by
  unfold ensureFlushTask
  split
  · exact ⟨rfl, rfl⟩
  · split
    · exact ⟨rfl, rfl⟩
    · exact ⟨rfl, rfl⟩

theorem moveContact_reports (hypot : ℚ → ℚ → ℚ) (s : State) (c : ℕ) (x y : ℚ) :
    (moveContact hypot s c x y).contact = s.contact ∧
      (moveContact hypot s c x y).reports c = s.reports c ++ [⟨s.now, x, y⟩] := by
  unfold moveContact
  rw [(ensureFlushTask_reports _ c).1, (ensureFlushTask_reports _ c).2]
  exact ⟨rfl, Function.update_self _ _ _⟩

/-- A position is a report of the touch that is under way, or the first one of a new touch. -/
theorem Sound.recorded (h : Sound hypot s) {x y : ℚ} (htouches : ¬(x = 0 ∧ y = 0)) :
    ∃ c, (TouchpadFlush.report hypot s x y).contact = some c ∧
      (s.contact = some c ∨ s.contact = none ∧ s.reports c = []) ∧
      (TouchpadFlush.report hypot s x y).reports c = s.reports c ++ [⟨s.now, x, y⟩] := by
  obtain ⟨c, hcontact, heq⟩ | ⟨hnone, heq⟩ := h.toBase.report_cases htouches
  · obtain ⟨hsame, hreports⟩ := moveContact_reports hypot s c x y
    rw [heq]
    exact ⟨c, hsame.trans hcontact, .inl hcontact, hreports⟩
  · obtain ⟨hsame, hreports⟩ :=
      moveContact_reports hypot { newContact s with positioned := true } s.made x y
    rw [heq]
    exact ⟨s.made, hsame, .inr ⟨hnone, (h.fresh s.made (le_refl s.made)).2⟩, hreports⟩

/-! ## Conservation of motion -/

/-- Motion is conserved: the steps between the reports of a touch, from the one that settled it
on, are passed on once and in order, or still held for a task that wakes in time. -/
structure Conserves (hypot : ℚ → ℚ → ℚ) (s : State) : Prop where
  sorted : ∀ c, (s.contacts c).held.Pairwise fun first second => first.due ≤ second.due
  prompt : ∀ c, ∀ held ∈ (s.contacts c).held, held.due ≤ held.step.arrival + 24 / 1000
  ordered : ∀ c, stepsBetween (counted hypot (s.reports c)) =
    (s.contacts c).given ++ (s.contacts c).held.map Held.step
  passed : ∀ c, s.motion c = total (s.contacts c).given
  balance : ∀ c, s.motion c + total ((s.contacts c).held.map Held.step) =
    travel (counted hypot (s.reports c))
  armed : ∀ c ∈ s.contact, ∀ first ∈ (s.contacts c).held.head?,
    ∃ i ∈ s.task, (s.tasks i).contact = c ∧ (s.tasks i).isDone = false ∧
      (s.tasks i).cancelled = false ∧
      ∃ armed, (s.contacts c).flushArmedFor = some armed ∧ armed ≤ first.due ∧
        ∀ wakes, (s.tasks i).phase = .sleeping wakes → wakes ≤ max armed s.now

theorem Sound.conserves (h : Sound hypot s) : Conserves hypot s where
  sorted c := (h.conserved c).1.sorted
  prompt c := (h.conserved c).1.prompt
  ordered c := (h.conserved c).2.steps.symm.trans (h.conserved c).1.partition
  passed := h.given
  balance c := by
    rw [h.given c, ← total_append, ← (h.conserved c).1.partition, (h.conserved c).2.steps]
    exact total_stepsBetween _
  armed c hc first hfirst := by
    have hnext : first.due ∈ nextDue (s.contacts c) := by
      unfold nextDue
      rw [Option.mem_def.mp hfirst]
      rfl
    obtain ⟨i, hlive⟩ := h.flushed c hc first.due hnext
    obtain ⟨htask, hcontact, armed, harmed, hsleeps⟩ := h.live i hlive
    have hmine : (s.tasks i).contact = c := Option.some.inj (hcontact.symm.trans hc)
    rw [hmine] at harmed
    refine ⟨i, htask, hmine, hlive.1, hlive.2, armed, harmed, ?_, hsleeps⟩
    refine h.timely i hlive armed ?_ first.due ?_
    · rw [hmine]
      exact harmed
    · rw [hmine]
      exact hnext

/-- After any reports, lifts and flushes motion is conserved, and whatever comes next, the given
steps of a contact only grow at the end, and so do its reports by every position of the touch; a
contact that has been lifted never changes again. -/
theorem motion_conserved (hypot : ℚ → ℚ → ℚ) (events : List Event) :
    Conserves hypot (run hypot events) ∧
    (∀ event, ∀ c < (run hypot events).made,
      (run hypot events).reports c <+: (step hypot (run hypot events) event).reports c ∧
        ((run hypot events).contacts c).given <+:
          ((step hypot (run hypot events) event).contacts c).given ∧
        ((run hypot events).contact ≠ some c →
          (step hypot (run hypot events) event).contacts c = (run hypot events).contacts c ∧
            (step hypot (run hypot events) event).reports c = (run hypot events).reports c ∧
            (step hypot (run hypot events) event).motion c = (run hypot events).motion c)) ∧
    ∀ now x y, ¬(x = 0 ∧ y = 0) →
      ∃ c, (step hypot (run hypot events) (.report now x y)).contact = some c ∧
        ((run hypot events).contact = some c ∨
          (run hypot events).contact = none ∧ (run hypot events).reports c = []) ∧
        (step hypot (run hypot events) (.report now x y)).reports c =
          (run hypot events).reports c ++ [⟨max (run hypot events).now now, x, y⟩] := by
  have hsound : Sound hypot (run hypot events) := (sound_start hypot).run events
  exact ⟨hsound.conserves, hsound.kept, fun now x y htouches => (hsound.clock now).recorded htouches⟩

/- A touch settles and holds a step, which the task flushes; the next step is still held when the
finger is lifted. -/
example :
    let s := run (fun dx _ => |dx|)
      [.report 0 (1 / 10) 0, .report (7 / 100) (2 / 10) 0, .wake (7 / 100) (7 / 100) 0,
        .wake (94 / 1000) (94 / 1000) 0, .report (1 / 10) (1 / 4) 0, .report (102 / 1000) 0 0]
    s.contact = none ∧ s.motion 0 = (1 / 10, 0) ∧
      (s.contacts 0).held.map Held.step = [⟨1 / 10, 1 / 20, 0⟩] ∧
      travel (counted (fun dx _ => |dx|) (s.reports 0)) = (1 / 10 + 1 / 20, 0) := by
  decide +kernel

end Keymasq.Analog.TouchpadFlush
