import Keymasq.Superkey.AfterStop

/-!
# A superkey leaves no action held

Every press is released once by the time the machine is idle and no task is
suspended, under a condition on when a key comes up and when tasks are cancelled.
-/

namespace Keymasq.Superkey.Unheld
open Foundation.Transition Foundation.Lists Machine Machine.SuperkeyMachine Superkey.Order
open Accounting Release AfterStop

/-! ## Presses and releases balance -/

/-- What is open is accounted for, and no cancellation to come loses any of it. -/
structure Kept (m : SuperkeyMachine) : Prop where
  balanced : Accounting.Balanced m
  clean : ∀ t ∈ m.tasks, t.cancelled = true → betweenReleases t.body = false

variable {m : SuperkeyMachine}

theorem Kept.cancelTask (h : Kept m) (task : Option ℕ)
    (htask : ∀ t ∈ m.tasks, task = some t.id → betweenReleases t.body = false) :
    Kept (m.cancelTask task) := by
  refine ⟨?_, fun t ht hc => ?_⟩
  · show Accounted m.outputs (m.outputs.heldActions ++
      (taskEntries (m.tasks.map _) ++ taskEntries m.lane))
    rw [taskEntries_map fun t => by split <;> rfl]
    exact h.balanced
  · rcases mem_cancelTask ht with ⟨ht, -⟩ | ⟨t', ht', hid, rfl⟩
    · exact h.clean t ht hc
    · exact htask t' ht' hid

theorem Kept.join (h : Kept m) {t : Task} (hentries : bodyEntries t.body = [])
    (hcancelled : t.cancelled = false) : Kept { m with tasks := m.tasks ++ [t] } := by
  refine ⟨?_, fun t' ht' hc => ?_⟩
  · show Accounted m.outputs (m.outputs.heldActions ++
      (taskEntries (m.tasks ++ [t]) ++ taskEntries m.lane))
    have hnil : taskEntries [t] = [] := by simp [taskEntries, hentries]
    rw [taskEntries_append, hnil, List.append_nil]
    exact h.balanced
  · rcases List.mem_append.mp ht' with ht' | ht'
    · exact h.clean t' ht' hc
    · rw [List.mem_singleton.mp ht', hcancelled] at hc
      cases hc

/-- Going on cancels no task. -/
theorem proceed_clean (h : ∀ t ∈ m.tasks, t.cancelled = true → betweenReleases t.body = false)
    (id : ℕ) (after : After) (body : Option Body) :
    ∀ t ∈ (m.proceed id after body).tasks, t.cancelled = true → betweenReleases t.body = false := by
  have hjoin : ∀ t : Task, t.cancelled = false → ∀ t' ∈ m.tasks ++ [t], t'.cancelled = true →
      betweenReleases t'.body = false := by
    intro t ht t' ht' hc
    rcases List.mem_append.mp ht' with ht' | ht'
    · exact h t' ht' hc
    · rw [List.mem_singleton.mp ht', ht] at hc
      cases hc
  cases body with
  | some b => exact hjoin _ rfl
  | none =>
    cases after with
    | done => exact h
    | sequence => exact h
    | becomeIdle => exact h
    | releaseHeld =>
      simp only [proceed]
      split
      · exact h
      · exact hjoin _ rfl

theorem Kept.runSequence (h : Kept m) (id : ℕ) (step : Step) (detach : Bool) (after : After) :
    Kept (m.runSequence id step detach after) := by
  refine ⟨balanced_runSequence h.balanced id step detach after, ?_⟩
  obtain ⟨out, lane, next, body, heq, -⟩ := runSequence_proceed m id step detach after
  rw [heq]
  exact proceed_clean (m := { m with outputs := out, lane := lane, nextId := next }) h.clean id
    after body

theorem Kept.onDown (h : Kept m) (now : ℤ)
    (hguard : m.state = .upWait → ∀ t ∈ m.tasks, m.doubleTapTask = some t.id →
      betweenReleases t.body = false) : Kept (m.onDown now) := by
  refine onDown_rule now h (fun hstate => ?_) (fun m _ _ _ h => ⟨h.balanced, h.clean⟩) fun m h => ?_
  · have hcancel := h.cancelTask _ (hguard hstate)
    exact ⟨hcancel.balanced, hcancel.clean⟩
  · have hjoin := h.join (t := { id := m.nextId, body := .holdTimeout }) rfl rfl
    exact ⟨hjoin.balanced, hjoin.clean⟩

theorem Kept.onUp (h : Kept m) (now : ℤ)
    (hguard : m.state = .downWait ∨ m.state = .downWait2 →
      ∀ t ∈ m.tasks, m.holdTask = some t.id → betweenReleases t.body = false) :
    Kept (m.onUp now) := by
  refine onUp_rule now h ⟨h.balanced, h.clean⟩ (fun hstate => ?_)
    (fun m _ _ h => ⟨h.balanced, h.clean⟩) (fun m h => ?_)
    fun m id step detach _ h => h.runSequence id step detach _
  · have hcancel := h.cancelTask _ (hguard hstate)
    exact ⟨hcancel.balanced, hcancel.clean⟩
  · have hjoin := h.join (t := { id := m.nextId, body := .doubleTapTimeout }) rfl rfl
    exact ⟨hjoin.balanced, hjoin.clean⟩

theorem Kept.holdTimeout (h : Kept m) (id : ℕ) : Kept (m.holdTimeout id) := by
  have hemit : ∀ (state : SuperkeyState) (slot : Slot) (actions : List SuperkeyActionData),
      Kept (if actions = [] then { m with pressStartedAt := none, state := state }.proceed id .done none
        else ({ m with pressStartedAt := none, state := state }.recordSlot slot).runSequence id
          (.press actions) (runsNaturalMove actions) .done) := by
    intro state slot actions
    split
    · exact ⟨h.balanced, h.clean⟩
    · have hrecord : Kept ({ m with pressStartedAt := none, state := state }.recordSlot slot) :=
        ⟨h.balanced, h.clean⟩
      exact hrecord.runSequence id _ _ _
  unfold SuperkeyMachine.holdTimeout
  split
  · exact h
  · split
    · exact hemit .holding .hold m.config.holdActions
    · unfold startTapHolding
      split
      · exact hemit .holding .hold m.config.holdActions
      · exact hemit .tapHolding .tapHold m.config.tapHoldActions
    · exact h

theorem Kept.doubleTapTimeout (h : Kept m) (id : ℕ) : Kept (m.doubleTapTimeout id) := by
  rcases doubleTapTimeout_cases m id with heq | ⟨-, -, heq | heq⟩
  · rwa [heq]
  · rw [heq]
    exact ⟨h.balanced, h.clean⟩
  · rw [heq]
    have hrecord : Kept (m.recordSlot .tap) := ⟨h.balanced, h.clean⟩
    exact hrecord.runSequence id _ _ _

theorem Kept.resumeTask (h : Kept m) {t : Task} {rest : List Task}
    (hperm : m.tasks.Perm (t :: rest)) : Kept ({ m with tasks := rest }.resumeTask t) := by
  have hloop := balanced_resumeTask_loop h.balanced hperm
  have hmem : t ∈ m.tasks := hperm.mem_iff.mpr List.mem_cons_self
  have hclean : ∀ t' ∈ rest, t'.cancelled = true → betweenReleases t'.body = false :=
    fun t' ht' => h.clean t' (hperm.mem_iff.mpr (List.mem_cons_of_mem _ ht'))
  have hrest : bodyEntries t.body = [] → Kept { m with tasks := rest } := by
    intro hentries
    rw [hentries, List.nil_append] at hloop
    exact ⟨hloop, hclean⟩
  cases hcancelled : t.cancelled with
  | true =>
    rw [resumeTask_cancelled hcancelled]
    refine ⟨balanced_proceed ?_, proceed_clean
      (m := { m with outputs := (t.body.cancel m.outputs).1, tasks := rest }) hclean _ _ _⟩
    exact cancel_accounts hloop (h.clean t hmem hcancelled)
  | false =>
    cases hbody : t.body with
    | holdTimeout =>
      rw [resumeTask_holdTimeout hcancelled hbody]
      exact (hrest (by rw [hbody]; rfl)).holdTimeout t.id
    | doubleTapTimeout =>
      rw [resumeTask_doubleTapTimeout hcancelled hbody]
      exact (hrest (by rw [hbody]; rfl)).doubleTapTimeout t.id
    | _ =>
      rw [resumeTask_awake hcancelled (by rw [hbody]; rfl)]
      exact ⟨balanced_proceed (resume_accounts hloop), proceed_clean
        (m := { m with outputs := (t.body.resume m.outputs).1, tasks := rest }) hclean _ _ _⟩

theorem Kept.resumeLane (h : Kept m) {t : Task} {rest : List Task} (hlane : m.lane = t :: rest) :
    Kept (m.resumeLane t rest) := by
  refine ⟨?_, h.clean⟩
  have hloop : Accounted m.outputs (m.outputs.heldActions ++
      (bodyEntries t.body ++ (taskEntries m.tasks ++ taskEntries rest))) := by
    refine Accounted.perm h.balanced (List.Perm.append_left _ ?_)
    rw [hlane]
    show (taskEntries m.tasks ++ (bodyEntries t.body ++ taskEntries rest)).Perm _
    exact List.perm_append_comm_assoc _ _ _
  refine Accounted.perm (resume_accounts hloop) (List.Perm.append_left _ ?_)
  have hhead : taskEntries (((t.body.resume m.outputs).2.toList.map fun body =>
      { t with body := body }) ++ rest) =
      optionEntries (t.body.resume m.outputs).2 ++ taskEntries rest := by
    rw [taskEntries_append]
    cases (t.body.resume m.outputs).2 with
    | none => rfl
    | some b => simp [taskEntries, optionEntries]
  show (_ ++ (taskEntries m.tasks ++ taskEntries rest)).Perm (taskEntries m.tasks ++
    taskEntries (((t.body.resume m.outputs).2.toList.map fun body =>
      { t with body := body }) ++ rest))
  rw [hhead]
  exact List.perm_append_comm_assoc _ _ _

theorem Kept.cancelLane (h : Kept m) (hlane : ∀ t ∈ m.lane, betweenReleases t.body = false) :
    Kept m.cancelLane := by
  refine ⟨?_, fun t ht hc => ?_⟩
  · show Accounted m.outputs (m.outputs.heldActions ++
      (taskEntries (m.tasks ++ m.lane.map _) ++ taskEntries []))
    rw [taskEntries_append, taskEntries_map (f := fun t => { t with cancelled := true }) fun _ => rfl]
    have hnil : taskEntries ([] : List Task) = [] := rfl
    rw [hnil, List.append_nil]
    exact h.balanced
  · rcases List.mem_append.mp ht with ht | ht
    · exact h.clean t ht hc
    · obtain ⟨t', ht', rfl⟩ := List.mem_map.mp ht
      exact hlane t' ht'

theorem Kept.stop (h : Kept m)
    (htasks : ∀ t ∈ m.tasks, m.holdTask = some t.id ∨ m.doubleTapTask = some t.id →
      betweenReleases t.body = false)
    (hlane : m.sequences = true → ∀ t ∈ m.lane, betweenReleases t.body = false) :
    Kept m.stop := by
  have hstart : Kept { m with running := false, pressStartedAt := none, nextId := m.nextId + 1 } :=
    ⟨h.balanced, h.clean⟩
  have hhold : Kept { m with
      running := false, pressStartedAt := none, nextId := m.nextId + 1 }.cancelHoldTask := by
    have hcancel := hstart.cancelTask _ fun t ht hid => htasks t ht (Or.inl hid)
    exact ⟨hcancel.balanced, hcancel.clean⟩
  have hdouble : Kept { m with
      running := false, pressStartedAt := none
      nextId := m.nextId + 1 }.cancelHoldTask.cancelDoubleTapTask := by
    have hcancel := hhold.cancelTask m.doubleTapTask fun t ht hid => ?_
    · exact ⟨hcancel.balanced, hcancel.clean⟩
    · rcases mem_cancelTask ht with ⟨ht, -⟩ | ⟨t', ht', hid', rfl⟩
      · exact htasks t ht (Or.inr hid)
      · exact htasks t' ht' (Or.inl hid')
  have hfinish : ∀ base : SuperkeyMachine, Kept base →
      Kept ({ base with outputs := (Machine.releaseHeld base.outputs).1 }.proceed m.nextId
        .becomeIdle (Machine.releaseHeld base.outputs).2) := fun base hbase =>
    ⟨balanced_proceed (releaseHeld_accounts hbase.balanced), proceed_clean
      (m := { base with outputs := (Machine.releaseHeld base.outputs).1 }) hbase.clean _ _ _⟩
  unfold SuperkeyMachine.stop
  simp only
  refine hfinish _ ?_
  split
  · rename_i hseq
    exact hdouble.cancelLane (hlane hseq)
  · exact hdouble

/-! ## Runs -/

/-- The tasks that a call cancels. -/
def Cancels (m : SuperkeyMachine) : Op → Task → Prop
  | .onDown _, t => m.state = .upWait ∧ m.doubleTapTask = some t.id ∧ t ∈ m.tasks
  | .onUp _, t =>
    (m.state = .downWait ∨ m.state = .downWait2) ∧ m.holdTask = some t.id ∧ t ∈ m.tasks
  | .stop, t =>
    (m.holdTask = some t.id ∨ m.doubleTapTask = some t.id) ∧ t ∈ m.tasks ∨
      m.sequences = true ∧ t ∈ m.lane
  | .resume _, _ => False

instance decidableCancels (m : SuperkeyMachine) : ∀ op t, Decidable (Cancels m op t)
  | .onDown _, t => inferInstanceAs (Decidable
      (m.state = .upWait ∧ m.doubleTapTask = some t.id ∧ t ∈ m.tasks))
  | .onUp _, t => inferInstanceAs (Decidable
      ((m.state = .downWait ∨ m.state = .downWait2) ∧ m.holdTask = some t.id ∧ t ∈ m.tasks))
  | .stop, t => inferInstanceAs (Decidable
      ((m.holdTask = some t.id ∨ m.doubleTapTask = some t.id) ∧ t ∈ m.tasks ∨
        m.sequences = true ∧ t ∈ m.lane))
  | .resume _, _ => inferInstanceAs (Decidable False)

/-- A release that the machine reacts to, before a stop. -/
def Releases (m : SuperkeyMachine) : Op → Prop
  | .onUp _ => m.running = true ∧ m.state ≠ .idle ∧ m.state ≠ .upWait
  | _ => False

instance decidableReleases (m : SuperkeyMachine) : ∀ op, Decidable (Releases m op)
  | .onUp _ => inferInstanceAs (Decidable (m.running = true ∧ m.state ≠ .idle ∧ m.state ≠ .upWait))
  | .onDown _ => inferInstanceAs (Decidable False)
  | .stop => inferInstanceAs (Decidable False)
  | .resume _ => inferInstanceAs (Decidable False)

/- No call cancels a task between two releases of a tap, and no key comes up while
a task is still pressing the held list itself or is still to return the machine
to `idle`. -/
structure Orderly (m : SuperkeyMachine) (op : Op) : Prop where
  no_cut : ∀ t ∈ m.tasks ++ m.lane, Cancels m op t → betweenReleases t.body = false
  no_overlap : Releases m op → ∀ t ∈ m.tasks,
    ending t = false ∧ (t.cancelled = false → presses t.body = false)

instance decidableOrderly (m : SuperkeyMachine) (op : Op) : Decidable (Orderly m op) :=
  decidable_of_iff
    ((∀ t ∈ m.tasks ++ m.lane, Cancels m op t → betweenReleases t.body = false) ∧
      (Releases m op → ∀ t ∈ m.tasks,
        ending t = false ∧ (t.cancelled = false → presses t.body = false)))
    ⟨fun h => ⟨h.1, h.2⟩, fun h => ⟨h.no_cut, h.no_overlap⟩⟩

structure Sound (m : SuperkeyMachine) : Prop extends Kept m where
  phase : Covered m ∨ Stopped m

theorem Sound.step {m' : SuperkeyMachine} (h : Sound m) {op : Op} (hguard : Orderly m op)
    (hstep : step m op = some m') : Sound m' := by
  cases op with
  | onDown now =>
    cases hstep
    refine ⟨h.toKept.onDown now fun hstate t ht hid => ?_,
      h.phase.imp (fun h => h.onDown now) fun h => h.onDown now⟩
    exact hguard.no_cut t (List.mem_append_left _ ht) ⟨hstate, hid, ht⟩
  | onUp now =>
    cases hstep
    refine ⟨h.toKept.onUp now fun hstate t ht hid => ?_, ?_⟩
    · exact hguard.no_cut t (List.mem_append_left _ ht) ⟨hstate, hid, ht⟩
    · rcases h.phase with hcovered | hstopped
      · exact Or.inl (hcovered.onUp now fun hidle hup =>
          hguard.no_overlap ⟨hcovered.running, hidle, hup⟩)
      · exact Or.inr (hstopped.onUp now)
  | stop =>
    cases hstep
    refine ⟨h.toKept.stop (fun t ht hid => ?_) fun hseq t ht => ?_, Or.inr ?_⟩
    · exact hguard.no_cut t (List.mem_append_left _ ht) (Or.inl ⟨hid, ht⟩)
    · exact hguard.no_cut t (List.mem_append_right _ ht) (Or.inr ⟨hseq, ht⟩)
    · rcases h.phase with hcovered | hstopped
      · refine stopped_stop (fun t ht hc hp => (hcovered.inline_press t ht hc hp).1) fun hseq t ht => ?_
        rw [hcovered.lane_sequences hseq] at ht
        cases ht
      · refine stopped_stop (fun t ht hc hp => ?_) fun _ => hstopped.lane_press
        rw [hstopped.no_press t ht hc] at hp
        cases hp
  | resume id =>
    simp only [Machine.step] at hstep
    cases hfind : m.tasks.find? fun t => t.id = id with
    | some t =>
      rw [hfind] at hstep
      cases hstep
      have hperm := perm_cons_eraseP hfind
      exact ⟨h.toKept.resumeTask hperm,
        h.phase.imp (fun h => h.resumeTask hperm) fun h => h.resumeTask hperm⟩
    | none =>
      rw [hfind] at hstep
      cases hlane : m.lane with
      | nil =>
        rw [hlane] at hstep
        cases hstep
      | cons t rest =>
        rw [hlane] at hstep
        simp only at hstep
        split at hstep
        · cases hstep
          exact ⟨h.toKept.resumeLane hlane,
            h.phase.imp (fun h => h.resumeLane hlane) fun h => h.resumeLane hlane⟩
        · cases hstep

theorem sound_start (config : SuperkeyConfig) (sequences : Bool) :
    Sound { config := config, sequences := sequences } := by
  have hquiet : Quiet { config := config, sequences := sequences } := fun t ht => by cases ht
  have hfree : Free { config := config, sequences := sequences } :=
    ⟨rfl, by simp, by simp, by simp, fun _ => rfl⟩
  refine ⟨⟨⟨List.nodup_nil, by simp, by simp [taskEntries], by simp⟩, by simp⟩, Or.inl ?_⟩
  exact hfree.covered (hquiet.ordered ⟨by simp, by simp⟩) fun howed => absurd rfl howed

/-- Nothing is suspended but timers that are asleep. -/
def AtRest (m : SuperkeyMachine) : Prop :=
  m.state = .idle ∧ m.lane = [] ∧ ∀ t ∈ m.tasks, sleeping t.body = true

theorem Sound.atRest (h : Sound m) (hrest : AtRest m) :
    m.outputs.heldActions = [] ∧ ∀ x ∈ m.outputs.executed,
      trace m.outputs x.entry.serial = [⟨x.entry, true⟩, ⟨x.entry, false⟩] := by
  obtain ⟨hidle, hlane, hasleep⟩ := hrest
  have hheld : m.outputs.heldActions = [] := by
    by_contra hheld
    rcases h.phase with hcovered | hstopped
    · have hholding : Holding m := hcovered.owed_holding (by rw [hlane]; exact hheld)
      simp [Holding, hidle] at hholding
    · obtain ⟨t, ht, hr⟩ := hstopped.released hheld
      have hsleep := hasleep t ht
      rw [hr.releasing] at hsleep
      cases hsleep
  have hentries : taskEntries m.tasks = [] := by
    rw [taskEntries, List.flatMap_eq_nil_iff]
    intro t ht
    have hsleep := hasleep t ht
    cases hbody : t.body with
    | holdTimeout => rfl
    | doubleTapTimeout => rfl
    | _ =>
      rw [hbody] at hsleep
      cases hsleep
  refine ⟨hheld, fun x hx => ?_⟩
  have hbalanced := h.balanced
  rw [Accounting.Balanced, hheld, hentries, hlane] at hbalanced
  exact hbalanced.closed_up x hx (by simp [taskEntries])

/-- In a run of orderly calls nothing stays held, and every press is released once. -/
theorem nothing_left_held {config : SuperkeyConfig} {sequences : Bool} {ops : List Op}
    {m : SuperkeyMachine}
    (hguard : Guarded step Orderly { config := config, sequences := sequences } ops)
    (hrun : run step { config := config, sequences := sequences } ops = some m)
    (hrest : AtRest m) :
    m.outputs.heldActions = [] ∧ ∀ x ∈ m.outputs.executed,
      trace m.outputs x.entry.serial = [⟨x.entry, true⟩, ⟨x.entry, false⟩] :=
  (guarded_run_invariant (I := Sound) (fun _ _ _ h hop hstep => h.step hop hstep)
    (sound_start config sequences) hguard hrun).atRest hrest

instance decidableAtRest (m : SuperkeyMachine) : Decidable (AtRest m) :=
  inferInstanceAs (Decidable (m.state = .idle ∧ m.lane = [] ∧ ∀ t ∈ m.tasks, sleeping t.body = true))

/-- A macro, whose start is awaited, and a key. -/
def holdConfig : SuperkeyConfig :=
  { holdActions := [{ actionType := .macro' }, { actionType := .keyboard, target := some "b" }] }

/-- The hold list is pressed to its end before the key comes up. -/
def holdRun : List Op :=
  [.onDown 0, .resume 0, .resume 0, .resume 0, .onUp 900000, .resume 1, .resume 1]

theorem nothing_left_held_hold :
    (run step { config := holdConfig, sequences := false } holdRun).any (fun m =>
      m.outputs.heldActions = [] ∧ m.outputs.executed.length = 4 ∧ ∀ x ∈ m.outputs.executed,
        trace m.outputs x.entry.serial = [⟨x.entry, true⟩, ⟨x.entry, false⟩]) = true := by
  cases hrun : run step { config := holdConfig, sequences := false } holdRun with
  | none => exact absurd hrun (by decide)
  | some m =>
    have hm : (run step { config := holdConfig, sequences := false } holdRun).all (fun m =>
      AtRest m ∧ m.outputs.executed.length = 4) = true := by decide
    rw [hrun] at hm
    simp only [Option.all_some, decide_eq_true_eq] at hm
    have hheld := nothing_left_held (by decide) hrun hm.1
    simp only [Option.any_some, decide_eq_true_eq]
    exact ⟨hheld.1, hm.2, hheld.2⟩

/- The key comes up while the macro starts: the release pass finds only the macro, and the
second action is pressed on the idle machine. -/
def earlyReleaseRun : List Op :=
  [.onDown 0, .resume 0, .onUp 400000, .resume 1, .resume 0, .resume 0]

/-- Without the condition a superkey leaves an action held. -/
theorem left_held_after_early_release :
    ¬∀ (config : SuperkeyConfig) (sequences : Bool) (ops : List Op) (m : SuperkeyMachine),
      run step { config := config, sequences := sequences } ops = some m → AtRest m →
      m.outputs.heldActions = [] ∧ ∀ x ∈ m.outputs.executed, x.down = true →
        trace m.outputs x.entry.serial = [⟨x.entry, true⟩, ⟨x.entry, false⟩] := by
  intro hall
  cases hrun : run step { config := holdConfig, sequences := false } earlyReleaseRun with
  | none => exact absurd hrun (by decide)
  | some m =>
    have hm : (run step { config := holdConfig, sequences := false } earlyReleaseRun).all (fun m =>
      AtRest m ∧ m.outputs.heldActions ≠ []) = true := by decide
    rw [hrun] at hm
    simp only [Option.all_some, decide_eq_true_eq] at hm
    exact hm.2 (hall holdConfig false earlyReleaseRun m hrun hm.1).1

end Keymasq.Superkey.Unheld
