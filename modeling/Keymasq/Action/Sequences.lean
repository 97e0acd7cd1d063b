import Mathlib.Data.List.Nodup
import Mathlib.Logic.Function.Basic

/-!
# Action sequences

The steps of a source run one after another. A step becomes a task when it is detached or when
another step of its source has not finished; the task waits for the last one before it. A task
that need not wait starts at once, inside the call that submits it, and is put in its lane when
it first suspends.
-/

namespace Keymasq.Action.Sequences

variable {K Owner : Type} {t : ℕ}

/-- A task. It is `watched` from when it is put in its lane until its done callback has run. -/
structure Task (K : Type) where
  key : K
  previous : Option ℕ
  begun : Bool
  done : Bool := false
  cancelled : Bool := false
  watched : Bool := false

/-- A call of `run` whose task starts eagerly. -/
structure Start (K Owner : Type) where
  task : ℕ
  key : K
  owner : Option Owner

/-- What the event loop runs: a task, or something else. -/
inductive Code
  | other
  | task (t : ℕ)

/-- The tables, the tasks in the order of their submission, and the calls under way. -/
structure State (K Owner : Type) where
  lanes : K → Option (List ℕ) := fun _ => none
  owners : K → Option Owner := fun _ => none
  tasks : ℕ → Option (Task K) := fun _ => none
  submitted : ℕ := 0
  running : Option Code := none
  starts : List (Start K Owner) := []

variable (s : State K Owner)

def State.isDone (t : ℕ) : Bool := (s.tasks t).any Task.done

/- `asyncio.current_task`: an eager start is a task of its own. -/
def State.current : Option ℕ :=
  match s.starts with
  | start :: _ => some start.task
  | [] =>
    match s.running with
    | some (.task t) => some t
    | _ => none

def setTask (t : ℕ) (f : Task K → Task K) : State K Owner :=
  { s with tasks := Function.update s.tasks t ((s.tasks t).map f) }

/- `_pending_tail`. -/
def pendingTail (lane : List ℕ) : Option ℕ := lane.getLast?.filter fun tail => !s.isDone tail

/- The task that a new one waits for. -/
def previousOf (key : K) : Option ℕ := (s.lanes key).bind (pendingTail s)

/- Whether `run` returns false: its caller is to run the step. -/
def runsInline (key : K) (detach : Bool) : Bool :=
  match s.lanes key with
  | none => !detach
  | some lane => s.current.any (lane.contains ·) || (pendingTail s lane).isNone && !detach

variable [DecidableEq K]

/- The task is put in its lane, and its done callback is added. -/
def enlist (t : ℕ) (key : K) (owner : Option Owner) : State K Owner :=
  { setTask s t ({ · with watched := true }) with
    lanes := Function.update s.lanes key (some ((s.lanes key).getD [] ++ [t]))
    owners := match owner with
      | none => s.owners
      | some _ => Function.update s.owners key ((s.owners key).or owner) }

/- `run`, where the step becomes a task. -/
def submit (key : K) (owner : Option Owner) : State K Owner :=
  let t := s.submitted
  let previous := previousOf s key
  let s := { s with
    tasks := Function.update s.tasks t (some { key, previous, begun := previous.isNone })
    submitted := t + 1 }
  if previous.isNone then { s with starts := ⟨t, key, owner⟩ :: s.starts }
  else enlist s t key owner

/- `cancel`, for every key that is selected. A task that is done is not cancelled. -/
def cancelWhere (selected : K → Bool) : State K Owner :=
  { s with
    lanes := fun key => if selected key then none else s.lanes key
    owners := fun key => if selected key then none else s.owners key
    tasks := fun t => (s.tasks t).map fun task =>
      if selected task.key && (s.lanes task.key).any (·.contains t) && !task.done then
        { task with cancelled := true }
      else task }

/- What runs suspends. An eager start ends, and its task is put in its lane. -/
def leave : State K Owner :=
  match s.starts with
  | start :: starts => enlist { s with starts } start.task start.key start.owner
  | [] => { s with running := none }

/- What runs returns or fails. -/
def finish : State K Owner :=
  match s.starts with
  | start :: starts => setTask { s with starts } start.task ({ · with done := true })
  | [] =>
    match s.running with
    | some (.task t) => setTask { s with running := none } t ({ · with done := true })
    | _ => { s with running := none }

/- The loop goes on with a task. One that waits begins its step once the task it waits for is
done, or ends without it when it was cancelled. -/
def enter : Code → State K Owner
  | .other => { s with running := some .other }
  | .task t =>
    match s.tasks t with
    | none => s
    | some task =>
      if task.done then s
      else if task.begun then { s with running := some (.task t) }
      else if task.cancelled then setTask s t ({ · with done := true })
      else if task.previous.all s.isDone then
        { setTask s t ({ · with begun := true }) with running := some (.task t) }
      else s

/- `_forget`, the done callback. -/
def forget (t : ℕ) : State K Owner :=
  match s.tasks t with
  | none => s
  | some task =>
    if task.done && task.watched then
      let s := setTask s t ({ · with watched := false })
      match s.lanes task.key with
      | none => s
      | some lane =>
        if lane.erase t = [] then
          { s with
            lanes := Function.update s.lanes task.key none
            owners := Function.update s.owners task.key none }
        else { s with lanes := Function.update s.lanes task.key (some (lane.erase t)) }
    else s

/-- What can happen: the loop goes on with some code or a done callback, and the code that runs
calls the sequences, suspends or returns. -/
inductive Event (K Owner : Type)
  | enter (code : Code)
  | leave
  | finish
  | run (key : K) (detach : Bool) (owner : Option Owner)
  | cancel (key : K)
  | cancelAll
  | cancelOwnedWhere (retired : K → Owner → Bool)
  | forget (t : ℕ)

/- The loop runs one thing at a time; an event that cannot happen changes nothing. -/
def step : Event K Owner → State K Owner
  | .enter code => if s.running.isNone then enter s code else s
  | .forget t => if s.running.isNone then forget s t else s
  | .leave => if s.running.isSome then leave s else s
  | .finish => if s.running.isSome then finish s else s
  | .run key detach owner =>
    if s.running.isSome && !runsInline s key detach then submit s key owner else s
  | .cancel key => if s.running.isSome then cancelWhere s fun other => other = key else s
  | .cancelAll => if s.running.isSome then cancelWhere s fun key => (s.lanes key).isSome else s
  | .cancelOwnedWhere retired =>
    if s.running.isSome then cancelWhere s fun key => (s.owners key).any (retired key) else s

def run (events : List (Event K Owner)) : State K Owner := events.foldl (step · ·) {}

/-! ## Updates of one task -/

omit [DecidableEq K] in
theorem setTask_self {task : Task K} (h : s.tasks t = some task) (f : Task K → Task K) :
    (setTask s t f).tasks t = some (f task) := by
  unfold setTask
  dsimp only
  rw [Function.update_self, h]
  rfl

omit [DecidableEq K] in
theorem setTask_of_ne {u : ℕ} (h : u ≠ t) (f : Task K → Task K) :
    (setTask s t f).tasks u = s.tasks u :=
  Function.update_of_ne h _ _

variable {f : Task K → Task K}

omit [DecidableEq K] in
theorem setTask_eq_some {u : ℕ} {task : Task K} (h : (setTask s t f).tasks u = some task) :
    (u = t ∧ ∃ before, s.tasks u = some before ∧ task = f before) ∨
      (u ≠ t ∧ s.tasks u = some task) := by
  by_cases hu : u = t
  · left
    refine ⟨hu, ?_⟩
    unfold setTask at h
    dsimp only at h
    rw [hu, Function.update_self, Option.map_eq_some_iff] at h
    obtain ⟨before, hbefore, heq⟩ := h
    exact ⟨before, hu ▸ hbefore, heq.symm⟩
  · rw [setTask_of_ne s hu] at h
    exact .inr ⟨hu, h⟩

omit [DecidableEq K] in
theorem cancelWhere_eq_some {selected : K → Bool} {task : Task K}
    (h : (cancelWhere s selected).tasks t = some task) :
    ∃ before, s.tasks t = some before ∧ task = if selected before.key &&
      (s.lanes before.key).any (·.contains t) && !before.done then
        { before with cancelled := true } else before := by
  unfold cancelWhere at h
  dsimp only at h
  rw [Option.map_eq_some_iff] at h
  obtain ⟨before, hbefore, heq⟩ := h
  exact ⟨before, hbefore, heq.symm⟩

/-! ## The tables -/

variable {s}

/-- The tables hold tasks whose callback has still to run, and no empty lane; a task that starts
eagerly is not in them. -/
structure Tabled (s : State K Owner) : Prop where
  idle : s.running = none → s.starts = []
  bound : ∀ t task, s.tasks t = some task → t < s.submitted
  nonempty : ∀ key lane, s.lanes key = some lane → lane ≠ []
  nodup : ∀ key lane, s.lanes key = some lane → lane.Nodup
  member : ∀ key lane, s.lanes key = some lane → ∀ t ∈ lane,
    ∃ task, s.tasks t = some task ∧ task.key = key ∧ task.watched = true ∧ task.cancelled = false
  owned : ∀ key owner, s.owners key = some owner → ∃ lane, s.lanes key = some lane
  started : ∀ start ∈ s.starts, ∃ task, s.tasks start.task = some task ∧ task.key = start.key ∧
    task.watched = false ∧ task.begun = true ∧ task.done = false ∧ task.cancelled = false
  distinct : (s.starts.map Start.task).Nodup

omit [DecidableEq K] in
theorem tabled_start : Tabled ({} : State K Owner) where
  idle _ := rfl
  bound t task h := by cases h
  nonempty key lane h := by cases h
  nodup key lane h := by cases h
  member key lane h := by cases h
  owned key owner h := by cases h
  started start h := by cases h
  distinct := List.nodup_nil

omit [DecidableEq K] in
/-- A task in a lane stays there when only its progress changes. -/
theorem Tabled.member_setTask (h : Tabled s) (t : ℕ) (hkey : ∀ task, (f task).key = task.key)
    (hwatched : ∀ task, (f task).watched = task.watched)
    (hcancelled : ∀ task, (f task).cancelled = task.cancelled) :
    ∀ key lane, s.lanes key = some lane → ∀ u ∈ lane, ∃ task, (setTask s t f).tasks u = some task ∧
      task.key = key ∧ task.watched = true ∧ task.cancelled = false := by
  intro key lane hlane u hu
  obtain ⟨task, htask, hmine, hw, hc⟩ := h.member key lane hlane u hu
  by_cases heq : u = t
  · rw [heq] at htask ⊢
    refine ⟨f task, setTask_self s htask f, ?_, ?_, ?_⟩
    · rw [hkey, hmine]
    · rw [hwatched, hw]
    · rw [hcancelled, hc]
  · exact ⟨task, (setTask_of_ne s heq f).trans htask, hmine, hw, hc⟩

omit [DecidableEq K] in
theorem Tabled.bound_setTask (h : Tabled s) (t : ℕ) (f : Task K → Task K) :
    ∀ u task, (setTask s t f).tasks u = some task → u < s.submitted := by
  intro u task htask
  rcases setTask_eq_some s htask with ⟨-, before, hbefore, -⟩ | ⟨-, hbefore⟩
  · exact h.bound u before hbefore
  · exact h.bound u task hbefore

theorem Tabled.enlist (h : Tabled s) {task : Task K} (htask : s.tasks t = some task)
    (hwatched : task.watched = false) (hcancelled : task.cancelled = false)
    (hstarts : ∀ start ∈ s.starts, start.task ≠ t) (owner : Option Owner) :
    Tabled (enlist s t task.key owner) := by
  have hfresh : ∀ key lane, s.lanes key = some lane → t ∉ lane := by
    intro key lane hlane hmem
    obtain ⟨other, hother, -, hw, -⟩ := h.member key lane hlane t hmem
    rw [htask, Option.some.injEq] at hother
    rw [← hother, hwatched] at hw
    cases hw
  have hmine : ∀ lane, (s.lanes task.key).getD [] = lane → t ∉ lane ∧ lane.Nodup ∧
      ∀ u ∈ lane, u ≠ t ∧ ∃ other, s.tasks u = some other ∧ other.key = task.key ∧
        other.watched = true ∧ other.cancelled = false := by
    intro lane hlane
    cases hbefore : s.lanes task.key with
    | none =>
      rw [hbefore] at hlane
      rw [← hlane]
      exact ⟨List.not_mem_nil, List.nodup_nil, fun u hu => by cases hu⟩
    | some before =>
      rw [hbefore] at hlane
      change before = lane at hlane
      rw [← hlane]
      refine ⟨hfresh _ _ hbefore, h.nodup _ _ hbefore, fun u hu => ⟨?_, ?_⟩⟩
      · intro heq
        exact hfresh _ _ hbefore (heq ▸ hu)
      · exact h.member _ _ hbefore u hu
  obtain ⟨hnot, hnodup, hmember⟩ := hmine _ rfl
  unfold Sequences.enlist
  exact {
    idle := h.idle
    bound := h.bound_setTask t _
    nonempty := by
      intro key lane hlane
      dsimp only at hlane
      by_cases hkey : key = task.key
      · rw [hkey, Function.update_self, Option.some.injEq] at hlane
        rw [← hlane]
        exact List.append_ne_nil_of_right_ne_nil _ (List.cons_ne_nil t [])
      · rw [Function.update_of_ne hkey] at hlane
        exact h.nonempty key lane hlane
    nodup := by
      intro key lane hlane
      dsimp only at hlane
      by_cases hkey : key = task.key
      · rw [hkey, Function.update_self, Option.some.injEq] at hlane
        rw [← hlane]
        exact List.nodup_append.mpr ⟨hnodup, List.nodup_singleton t, fun u hu v hv => by
          rw [List.mem_singleton.mp hv]
          exact (hmember u hu).1⟩
      · rw [Function.update_of_ne hkey] at hlane
        exact h.nodup key lane hlane
    member := by
      intro key lane hlane u hu
      dsimp only at hlane ⊢
      by_cases hkey : key = task.key
      · rw [hkey, Function.update_self, Option.some.injEq] at hlane
        rw [← hlane] at hu
        rcases List.mem_append.mp hu with hold | hnew
        · obtain ⟨hne, other, hother, hrest⟩ := hmember u hold
          rw [hkey]
          exact ⟨other, (setTask_of_ne s hne _).trans hother, hrest⟩
        · rw [List.mem_singleton.mp hnew, hkey]
          exact ⟨_, setTask_self s htask _, rfl, rfl, hcancelled⟩
      · rw [Function.update_of_ne hkey] at hlane
        obtain ⟨other, hother, hrest⟩ := h.member key lane hlane u hu
        have hne : u ≠ t := fun heq => hfresh key lane hlane (heq ▸ hu)
        exact ⟨other, (setTask_of_ne s hne _).trans hother, hrest⟩
    owned := by
      intro key found hfound
      dsimp only at hfound ⊢
      by_cases hkey : key = task.key
      · rw [hkey, Function.update_self]
        exact ⟨_, rfl⟩
      · rw [Function.update_of_ne hkey]
        cases owner with
        | none => exact h.owned key found hfound
        | some mine =>
          dsimp only at hfound
          rw [Function.update_of_ne hkey] at hfound
          exact h.owned key found hfound
    started := by
      intro start hstart
      obtain ⟨other, hother, hrest⟩ := h.started start hstart
      exact ⟨other, (setTask_of_ne s (hstarts start hstart) _).trans hother, hrest⟩
    distinct := h.distinct }

omit [DecidableEq K] in
/-- A new task is in no lane. -/
theorem Tabled.add (h : Tabled s) (task : Task K) :
    Tabled { s with
      tasks := Function.update s.tasks s.submitted (some task)
      submitted := s.submitted + 1 } where
  idle := h.idle
  bound t other hother := by
    dsimp only at hother ⊢
    by_cases hnew : t = s.submitted
    · omega
    · rw [Function.update_of_ne hnew] at hother
      exact Nat.lt_succ_of_lt (h.bound t other hother)
  nonempty := h.nonempty
  nodup := h.nodup
  member key lane hlane t ht := by
    obtain ⟨other, hother, hrest⟩ := h.member key lane hlane t ht
    have hne : t ≠ s.submitted := Nat.ne_of_lt (h.bound t other hother)
    exact ⟨other, (Function.update_of_ne hne _ _).trans hother, hrest⟩
  owned := h.owned
  started start hstart := by
    obtain ⟨other, hother, hrest⟩ := h.started start hstart
    have hne : start.task ≠ s.submitted := Nat.ne_of_lt (h.bound _ other hother)
    exact ⟨other, (Function.update_of_ne hne _ _).trans hother, hrest⟩
  distinct := h.distinct

omit [DecidableEq K] in
theorem Tabled.start_lt (h : Tabled s) : ∀ start ∈ s.starts, start.task < s.submitted := by
  intro start hstart
  obtain ⟨task, htask, -⟩ := h.started start hstart
  exact h.bound _ task htask

theorem Tabled.submit (h : Tabled s) (hrunning : s.running ≠ none) (key : K)
    (owner : Option Owner) : Tabled (submit s key owner) := by
  unfold Sequences.submit
  dsimp only
  have hadd := h.add { key, previous := previousOf s key, begun := (previousOf s key).isNone }
  split
  case isTrue hnone =>
    exact {
      idle := fun hidle => absurd hidle hrunning
      bound := hadd.bound
      nonempty := hadd.nonempty
      nodup := hadd.nodup
      member := hadd.member
      owned := hadd.owned
      started := by
        intro start hstart
        rcases List.mem_cons.mp hstart with rfl | hold
        · exact ⟨_, Function.update_self _ _ _, rfl, rfl, hnone, rfl, rfl⟩
        · exact hadd.started start hold
      distinct := by
        rw [List.map_cons, List.nodup_cons]
        refine ⟨?_, h.distinct⟩
        intro hmem
        obtain ⟨start, hstart, heq⟩ := List.mem_map.mp hmem
        exact absurd (h.start_lt start hstart) (by rw [heq]; exact Nat.lt_irrefl _) }
  · have hnew := hadd.enlist (t := s.submitted) (Function.update_self _ _ _) rfl rfl
      (fun start hstart => Nat.ne_of_lt (h.start_lt start hstart)) owner
    exact hnew

omit [DecidableEq K] in
/-- A cancelled lane is gone, and its tasks with it. -/
theorem Tabled.cancelWhere (h : Tabled s) (selected : K → Bool) :
    Tabled (cancelWhere s selected) where
  idle := h.idle
  bound t task htask := by
    obtain ⟨before, hbefore, -⟩ := cancelWhere_eq_some s htask
    exact h.bound t before hbefore
  nonempty key lane hlane := by
    unfold Sequences.cancelWhere at hlane
    dsimp only at hlane
    split at hlane
    · cases hlane
    · exact h.nonempty key lane hlane
  nodup key lane hlane := by
    unfold Sequences.cancelWhere at hlane
    dsimp only at hlane
    split at hlane
    · cases hlane
    · exact h.nodup key lane hlane
  member key lane hlane t ht := by
    unfold Sequences.cancelWhere at hlane ⊢
    dsimp only at hlane ⊢
    split at hlane
    · cases hlane
    case isFalse hkept =>
      obtain ⟨task, htask, hkey, hrest⟩ := h.member key lane hlane t ht
      refine ⟨task, ?_, hkey, hrest⟩
      rw [htask, Option.map_some, hkey, Bool.eq_false_iff.mpr hkept, Bool.false_and,
        Bool.false_and, if_neg Bool.false_ne_true]
  owned key owner howner := by
    unfold Sequences.cancelWhere at howner ⊢
    dsimp only at howner ⊢
    split at howner
    · cases howner
    case isFalse hkept =>
      rw [if_neg hkept]
      exact h.owned key owner howner
  started start hstart := by
    obtain ⟨task, htask, hkey, hwatched, hrest⟩ := h.started start hstart
    refine ⟨task, ?_, hkey, hwatched, hrest⟩
    -- a task that starts eagerly is in no lane
    have hnot : (s.lanes task.key).any (·.contains start.task) = false := by
      cases hlane : s.lanes task.key with
      | none => rfl
      | some lane =>
        rw [Option.any_some, Bool.eq_false_iff, Ne, List.contains_iff_mem]
        intro hmem
        obtain ⟨other, hother, -, hw, -⟩ := h.member _ lane hlane _ hmem
        rw [htask, Option.some.injEq] at hother
        rw [← hother, hwatched] at hw
        cases hw
    unfold Sequences.cancelWhere
    dsimp only
    rw [htask, Option.map_some, hnot, Bool.and_false, Bool.false_and,
      if_neg Bool.false_ne_true]
  distinct := h.distinct

omit [DecidableEq K] in
/-- The eager start on top ends: the others go on. -/
theorem Tabled.pop (h : Tabled s) {start : Start K Owner} {starts : List (Start K Owner)}
    (hstarts : s.starts = start :: starts) :
    Tabled { s with starts } ∧ ∀ other ∈ starts, other.task ≠ start.task := by
  have hdistinct := h.distinct
  rw [hstarts, List.map_cons, List.nodup_cons] at hdistinct
  refine ⟨?_, ?_⟩
  · exact {
      idle := by
        intro hidle
        have hempty := h.idle hidle
        rw [hstarts] at hempty
        cases hempty
      bound := h.bound
      nonempty := h.nonempty
      nodup := h.nodup
      member := h.member
      owned := h.owned
      started := by
        intro other hother
        exact h.started other (hstarts ▸ List.mem_cons_of_mem start hother)
      distinct := hdistinct.2 }
  · intro other hother heq
    exact hdistinct.1 (List.mem_map.mpr ⟨other, hother, heq⟩)

theorem Tabled.leave (h : Tabled s) : Tabled (leave s) := by
  unfold Sequences.leave
  split
  case h_1 start starts hstarts =>
    obtain ⟨hpop, hothers⟩ := h.pop hstarts
    obtain ⟨task, htask, hkey, hwatched, -, -, hcancelled⟩ :=
      h.started start (hstarts ▸ List.mem_cons_self)
    rw [← hkey]
    exact hpop.enlist htask hwatched hcancelled hothers start.owner
  case h_2 hstarts =>
    exact ⟨fun _ => hstarts, h.bound, h.nonempty, h.nodup, h.member, h.owned, h.started,
      h.distinct⟩

omit [DecidableEq K] in
/-- The progress of a task that does not start eagerly does not matter for the tables. -/
theorem Tabled.setTask (h : Tabled s) (hkey : ∀ task, (f task).key = task.key)
    (hwatched : ∀ task, (f task).watched = task.watched)
    (hcancelled : ∀ task, (f task).cancelled = task.cancelled)
    (hstarts : ∀ start ∈ s.starts, start.task ≠ t) : Tabled (setTask s t f) where
  idle := h.idle
  bound := h.bound_setTask t f
  nonempty := h.nonempty
  nodup := h.nodup
  member := h.member_setTask t hkey hwatched hcancelled
  owned := h.owned
  started start hstart := by
    obtain ⟨other, hother, hrest⟩ := h.started start hstart
    exact ⟨other, (setTask_of_ne s (hstarts start hstart) f).trans hother, hrest⟩
  distinct := h.distinct

omit [DecidableEq K] in
theorem Tabled.setRunning (h : Tabled s) (hstarts : s.starts = []) (running : Option Code) :
    Tabled { s with running } :=
  ⟨fun _ => hstarts, h.bound, h.nonempty, h.nodup, h.member, h.owned, h.started, h.distinct⟩

omit [DecidableEq K] in
theorem Tabled.finish (h : Tabled s) : Tabled (finish s) := by
  unfold Sequences.finish
  split
  case h_1 start starts hstarts =>
    obtain ⟨hpop, hothers⟩ := h.pop hstarts
    exact hpop.setTask (fun _ => rfl) (fun _ => rfl) (fun _ => rfl) hothers
  case h_2 hstarts =>
    have hnone : ∀ t, ∀ start ∈ s.starts, start.task ≠ t := by
      intro t start hstart
      rw [hstarts] at hstart
      cases hstart
    split
    case h_1 t _ =>
      exact (h.setRunning hstarts none).setTask (fun _ => rfl) (fun _ => rfl) (fun _ => rfl)
        (hnone t)
    · exact h.setRunning hstarts none

omit [DecidableEq K] in
theorem Tabled.enter (h : Tabled s) (hidle : s.running = none) (code : Code) :
    Tabled (enter s code) := by
  have hstarts := h.idle hidle
  have hnone : ∀ t, ∀ start ∈ s.starts, start.task ≠ t := by
    intro t start hstart
    rw [hstarts] at hstart
    cases hstart
  cases code with
  | other => exact h.setRunning hstarts (some .other)
  | task t =>
    unfold Sequences.enter
    dsimp only
    split
    · exact h
    · split
      · exact h
      · split
        · exact h.setRunning hstarts (some (.task t))
        · split
          · exact h.setTask (fun _ => rfl) (fun _ => rfl) (fun _ => rfl) (hnone t)
          · split
            · exact (h.setTask (f := ({ · with begun := true })) (fun _ => rfl) (fun _ => rfl)
                (fun _ => rfl) (hnone t)).setRunning hstarts (some (.task t))
            · exact h

/-- A task whose callback runs leaves its lane. -/
theorem Tabled.relane (h : Tabled s) {task : Task K} (htask : s.tasks t = some task)
    (hwatched : task.watched = true) (next : Option (List ℕ)) (owners : K → Option Owner)
    (hnext : ∀ lane, next = some lane → lane ≠ [] ∧ lane.Nodup ∧ ∀ u ∈ lane, u ≠ t ∧
      ∃ before, s.lanes task.key = some before ∧ u ∈ before)
    (howners : ∀ key owner, owners key = some owner → s.owners key = some owner ∧
      (key = task.key → next.isSome = true)) :
    Tabled { Sequences.setTask s t ({ · with watched := false }) with
      lanes := Function.update s.lanes task.key next
      owners } := by
  have hstarts : ∀ start ∈ s.starts, start.task ≠ t := by
    intro start hstart heq
    obtain ⟨other, hother, -, hw, -⟩ := h.started start hstart
    rw [heq, htask, Option.some.injEq] at hother
    rw [← hother, hwatched] at hw
    cases hw
  have hkept : ∀ key lane, s.lanes key = some lane → ∀ u ∈ lane, u ≠ t →
      ∃ other, (Sequences.setTask s t ({ · with watched := false })).tasks u = some other ∧
        other.key = key ∧ other.watched = true ∧ other.cancelled = false := by
    intro key lane hlane u hu hne
    obtain ⟨other, hother, hrest⟩ := h.member key lane hlane u hu
    exact ⟨other, (setTask_of_ne s hne _).trans hother, hrest⟩
  exact {
    idle := h.idle
    bound := h.bound_setTask t _
    nonempty := by
      intro key lane hlane
      dsimp only at hlane
      by_cases hkey : key = task.key
      · rw [hkey, Function.update_self] at hlane
        exact (hnext lane hlane).1
      · rw [Function.update_of_ne hkey] at hlane
        exact h.nonempty key lane hlane
    nodup := by
      intro key lane hlane
      dsimp only at hlane
      by_cases hkey : key = task.key
      · rw [hkey, Function.update_self] at hlane
        exact (hnext lane hlane).2.1
      · rw [Function.update_of_ne hkey] at hlane
        exact h.nodup key lane hlane
    member := by
      intro key lane hlane u hu
      dsimp only at hlane
      by_cases hkey : key = task.key
      · rw [hkey, Function.update_self] at hlane
        obtain ⟨hne, before, hbefore, hmem⟩ := (hnext lane hlane).2.2 u hu
        rw [hkey]
        exact hkept task.key before hbefore u hmem hne
      · rw [Function.update_of_ne hkey] at hlane
        refine hkept key lane hlane u hu fun heq => hkey ?_
        obtain ⟨other, hother, hmine, -⟩ := h.member key lane hlane u hu
        rw [heq, htask, Option.some.injEq] at hother
        rw [← hmine, ← hother]
    owned := by
      intro key owner howner
      dsimp only at howner ⊢
      obtain ⟨hbefore, hlane⟩ := howners key owner howner
      by_cases hkey : key = task.key
      · rw [hkey, Function.update_self]
        exact Option.isSome_iff_exists.mp (hlane hkey)
      · rw [Function.update_of_ne hkey]
        exact h.owned key owner hbefore
    started := by
      intro start hstart
      obtain ⟨other, hother, hrest⟩ := h.started start hstart
      exact ⟨other, (setTask_of_ne s (hstarts start hstart) _).trans hother, hrest⟩
    distinct := h.distinct }

theorem Tabled.forget (h : Tabled s) (t : ℕ) : Tabled (forget s t) := by
  unfold Sequences.forget
  split
  · exact h
  case h_2 task htask =>
    split
    case isFalse => exact h
    case isTrue hdone =>
      rw [Bool.and_eq_true] at hdone
      have hlanes : (Sequences.setTask s t ({ · with watched := false })).lanes task.key =
        s.lanes task.key := rfl
      dsimp only
      rw [hlanes]
      cases hlane : s.lanes task.key with
      | none =>
        have hsame : Function.update s.lanes task.key none = s.lanes := by
          rw [← hlane, Function.update_eq_self]
        have hrelane := h.relane htask hdone.2 none s.owners
          (fun lane hnone => by cases hnone) (fun key owner howner => ⟨howner, fun hkey => by
            obtain ⟨lane, hfound⟩ := h.owned key owner howner
            rw [hkey, hlane] at hfound
            cases hfound⟩)
        rw [hsame] at hrelane
        exact hrelane
      | some lane =>
        dsimp only
        split
        · refine h.relane htask hdone.2 none _ (fun lane hnone => by cases hnone) ?_
          intro key owner howner
          by_cases hkey : key = task.key
          · rw [hkey, Function.update_self] at howner
            cases howner
          · rw [Function.update_of_ne hkey] at howner
            exact ⟨howner, fun heq => absurd heq hkey⟩
        case isFalse hrest =>
          refine h.relane htask hdone.2 (some _) s.owners ?_
            fun key owner howner => ⟨howner, fun _ => rfl⟩
          intro found hfound
          cases hfound
          refine ⟨hrest, (h.nodup _ _ hlane).erase t, fun u hu => ?_⟩
          obtain ⟨hne, hmem⟩ := (h.nodup _ _ hlane).mem_erase_iff.mp hu
          exact ⟨hne, lane, hlane, hmem⟩

theorem Tabled.step (h : Tabled s) (event : Event K Owner) : Tabled (step s event) := by
  cases event with
  | enter code =>
    unfold Sequences.step
    dsimp only
    split
    case isTrue hidle => exact h.enter (Option.isNone_iff_eq_none.mp hidle) code
    · exact h
  | leave =>
    unfold Sequences.step
    dsimp only
    split
    · exact h.leave
    · exact h
  | finish =>
    unfold Sequences.step
    dsimp only
    split
    · exact h.finish
    · exact h
  | run key detach owner =>
    unfold Sequences.step
    dsimp only
    split
    case isTrue hrun =>
      rw [Bool.and_eq_true] at hrun
      exact h.submit (Option.isSome_iff_ne_none.mp hrun.1) key owner
    · exact h
  | cancel key
  | cancelAll
  | cancelOwnedWhere retired =>
    unfold Sequences.step
    dsimp only
    split
    · exact h.cancelWhere _
    · exact h
  | forget t =>
    unfold Sequences.step
    dsimp only
    split
    · exact h.forget t
    · exact h

end Keymasq.Action.Sequences
