import Mathlib.Data.List.Count
import Keymasq.Foundation.Lists
import Keymasq.Superkey.Machine

/-!
# One task at a time changes the state

Before the machine is stopped at most one of its tasks can still change the
state: the timer of the current wait, or a task that is to return it to `idle`.
-/

namespace Keymasq.Superkey.Order
open Foundation.Transition Machine Machine.SuperkeyMachine

/-! ## Bodies -/

def sleeping : Body → Bool
  | .holdTimeout => true
  | .doubleTapTimeout => true
  | _ => false

variable {out : Outputs} {body : Body} {t : Task} {m : SuperkeyMachine}
  {rest : List (SuperkeyActionData × ℕ)} {P : SuperkeyMachine → Prop}

theorem tapNext_awake {pressed : List Entry} (h : (tapNext out pressed rest).2 = some body) :
    sleeping body = false := by
  cases rest with
  | nil =>
    cases h
    rfl
  | cons a rest =>
    cases h
    rfl

theorem tapRelease_awake {left : List Entry} (h : (tapRelease out left).2 = some body) :
    sleeping body = false := by
  cases left with
  | nil => cases h
  | cons e left =>
    cases h
    rfl

theorem pressNext_awake (h : (pressNext out rest).2 = some body) : sleeping body = false := by
  cases rest with
  | nil => cases h
  | cons a rest =>
    cases h
    rfl

theorem releaseHeld_body (h : (Machine.releaseHeld out).2 = some body) : body = .releasing := by
  unfold Machine.releaseHeld at h
  split at h
  · cases h
  · cases h
    rfl

theorem start_awake {step : Step} (h : (step.start out).2 = some body) : sleeping body = false := by
  cases step with
  | tap actions => exact tapNext_awake h
  | press actions => exact pressNext_awake h
  | release => rw [releaseHeld_body h]; rfl

theorem resume_awake {body' : Body} (h : (body.resume out).2 = some body') :
    sleeping body' = false := by
  cases body with
  | holdTimeout => cases h
  | doubleTapTimeout => cases h
  | waiting step => exact start_awake h
  | tapping pressed rest => exact tapNext_awake h
  | tapSleep pressed => exact tapRelease_awake h
  | tapReleasing left => exact tapRelease_awake h
  | pressing rest => exact pressNext_awake h
  | releasing => rw [releaseHeld_body h]; rfl

theorem cancel_awake {body' : Body} (h : (body.cancel out).2 = some body') :
    sleeping body' = false := by
  cases body with
  | tapping pressed rest => exact tapRelease_awake h
  | tapSleep pressed => exact tapRelease_awake h
  | holdTimeout
  | doubleTapTimeout
  | waiting step
  | tapReleasing left
  | pressing rest
  | releasing => cases h

/-! ## Tasks that change the state -/

/-- A suspended task that is to return the machine to `idle`. -/
def ending (t : Task) : Bool := !t.cancelled && !sleeping t.body && t.after = .becomeIdle

/-- A task that may still change the state. -/
def live (t : Task) : Bool := !t.cancelled && (sleeping t.body || t.after = .becomeIdle)

theorem live_of_ending (h : ending t = true) : live t = true := by
  simp only [ending, live, Bool.and_eq_true, Bool.or_eq_true] at h ⊢
  exact ⟨h.1.1, Or.inr h.2⟩

theorem live_cases (h : live t = true) :
    t.cancelled = false ∧ (t.body = .holdTimeout ∨ t.body = .doubleTapTimeout ∨
      ending t = true ∧ sleeping t.body = false) := by
  simp only [live, Bool.and_eq_true, Bool.or_eq_true, Bool.not_eq_true'] at h
  refine ⟨h.1, ?_⟩
  cases hbody : t.body with
  | holdTimeout => exact Or.inl rfl
  | doubleTapTimeout => exact Or.inr (Or.inl rfl)
  | _ =>
    refine Or.inr (Or.inr ⟨?_, rfl⟩)
    rw [hbody] at h
    simpa [ending, hbody, sleeping, h.1] using h.2

def Quiet (m : SuperkeyMachine) : Prop := ∀ t ∈ m.tasks, live t = false

/-- Which task the state waits for. -/
def Fits (m : SuperkeyMachine) (t : Task) : Prop :=
  match m.state with
  | .idle => False
  | .downWait =>
    t.body = .holdTimeout ∧ m.holdTask = some t.id ∧ m.config.holdActions ≠ [] ∨ ending t = true
  | .upWait =>
    (t.body = .doubleTapTimeout ∨ ending t = true) ∧ m.doubleTapTask = some t.id
  | .downWait2 =>
    t.body = .holdTimeout ∧ m.holdTask = some t.id ∧
      (m.config.tapHoldActions ≠ [] ∨ m.config.holdActions ≠ []) ∨ ending t = true
  | .holding => ending t = true ∧ t.body = .releasing
  | .tapHolding => ending t = true ∧ t.body = .releasing

/-- A hold timer that fits has actions to start. -/
theorem Fits.hold_actions (h : Fits m t) (hbody : t.body = .holdTimeout) :
    (m.state = .downWait → m.config.holdActions ≠ []) ∧
      (m.state = .downWait2 → m.config.tapHoldActions ≠ [] ∨ m.config.holdActions ≠ []) := by
  have hnot : ending t = false := by simp [ending, hbody, sleeping]
  constructor
  · intro hstate
    simp only [Fits, hstate, hnot, Bool.false_eq_true, or_false] at h
    exact h.2.2
  · intro hstate
    simp only [Fits, hstate, hnot, Bool.false_eq_true, or_false] at h
    exact h.2.2

theorem Fits.holdTask_eq (h : Fits m t) (hbody : t.body = .holdTimeout)
    (hstate : m.state = .downWait ∨ m.state = .downWait2) :
    m.holdTask = some t.id := by
  have hnot : ending t = false := by simp [ending, hbody, sleeping]
  rcases hstate with hs | hs <;>
    (simp only [Fits, hs, hnot, Bool.false_eq_true, or_false] at h; exact h.2.1)

/-- A holding state has actions to hold. -/
def HoldsActions (m : SuperkeyMachine) : Prop :=
  (m.state = .holding → m.config.holdActions ≠ []) ∧
    (m.state = .tapHolding → m.config.tapHoldActions ≠ [])

/-- What the tasks have to do with the state until the machine is stopped. -/
structure Ordered (m : SuperkeyMachine) : Prop where
  one : m.tasks.countP live ≤ 1
  fits : ∀ t ∈ m.tasks, live t = true → Fits m t
  holds : HoldsActions m

theorem Quiet.ordered (h : Quiet m) (hholds : HoldsActions m) : Ordered m := by
  refine ⟨?_, fun t ht hlive => ?_, hholds⟩
  · have hzero : m.tasks.countP live = 0 := by
      rw [List.countP_eq_zero]
      intro t ht
      rw [h t ht]
      exact Bool.false_ne_true
    omega
  · rw [h t ht] at hlive
    cases hlive

/-- What is left of the tasks when one of them is taken off the list. -/
theorem Ordered.take (h : Ordered m) {rest : List Task} (hperm : m.tasks.Perm (t :: rest)) :
    Ordered { m with tasks := rest } ∧ (live t = true → Quiet { m with tasks := rest }) := by
  have hcount := hperm.countP_eq live
  rw [List.countP_cons] at hcount
  have hone := h.one
  refine ⟨⟨?_, fun t' ht' hlive => ?_, h.holds⟩, fun hlive t' ht' => ?_⟩
  · show rest.countP live ≤ 1
    omega
  · exact h.fits t' (hperm.mem_iff.mpr (List.mem_cons_of_mem _ ht')) hlive
  · rw [if_pos hlive] at hcount
    have hzero : rest.countP live = 0 := by omega
    rw [List.countP_eq_zero] at hzero
    simpa using hzero t' ht'

/-- A task that changes no state may join. -/
theorem Ordered.join (h : Ordered m) (ht : live t = false) :
    Ordered { m with tasks := m.tasks ++ [t] } := by
  refine ⟨?_, fun t' ht' hlive => ?_, h.holds⟩
  · show (m.tasks ++ [t]).countP live ≤ 1
    rw [List.countP_append, List.countP_singleton, ht]
    exact h.one
  · rcases List.mem_append.mp ht' with ht' | ht'
    · exact h.fits t' ht' hlive
    · rw [List.mem_singleton.mp ht', ht] at hlive
      cases hlive

/-- When no other task changes the state, one that fits may join. -/
theorem Quiet.join_fits (h : Quiet m) (hholds : HoldsActions m) (ht : Fits m t) :
    Ordered { m with tasks := m.tasks ++ [t] } := by
  refine ⟨?_, fun t' ht' hlive => ?_, hholds⟩
  · have hzero : m.tasks.countP live = 0 := by
      rw [List.countP_eq_zero]
      intro t ht
      rw [h t ht]
      exact Bool.false_ne_true
    show (m.tasks ++ [t]).countP live ≤ 1
    rw [List.countP_append, List.countP_singleton, hzero]
    split <;> omega
  · rcases List.mem_append.mp ht' with ht' | ht'
    · rw [h t' ht'] at hlive
      cases hlive
    · rw [List.mem_singleton.mp ht']
      exact ht

/-! ## Cancelling -/

theorem mem_cancelTask {task : Option ℕ} (h : t ∈ (m.cancelTask task).tasks) :
    (t ∈ m.tasks ∧ task ≠ some t.id) ∨
      ∃ t' ∈ m.tasks, task = some t'.id ∧ t = { t' with cancelled := true } := by
  obtain ⟨t', ht', heq⟩ := List.mem_map.mp h
  by_cases hid : task = some t'.id
  · rw [if_pos hid] at heq
    exact Or.inr ⟨t', ht', hid, heq.symm⟩
  · rw [if_neg hid] at heq
    subst heq
    exact Or.inl ⟨ht', hid⟩

theorem mem_of_cancelTask {task : Option ℕ} (h : t ∈ (m.cancelTask task).tasks)
    (hcancelled : t.cancelled = false) :
    t ∈ m.tasks ∧ task ≠ some t.id := by
  rcases mem_cancelTask h with h | ⟨t', -, -, rfl⟩
  · exact h
  · cases hcancelled

/-- Cancelling the only task that changes the state leaves none. -/
theorem quiet_cancelTask {task : Option ℕ} (h : ∀ t ∈ m.tasks, live t = true → task = some t.id) :
    Quiet (m.cancelTask task) := by
  intro t ht
  rcases mem_cancelTask ht with ⟨ht, hne⟩ | ⟨t', -, -, rfl⟩
  · rw [← Bool.not_eq_true]
    exact fun hlive => hne (h t ht hlive)
  · simp [live]

/-! ## Going on -/

variable {body : Option Body}

/-- A task that returns the machine to `idle` fits where it is suspended. -/
theorem Quiet.proceed_ending (h : Quiet m) (hholds : HoldsActions m) (hidle : m.state ≠ .idle)
    {id : ℕ}
    (hbody : ∀ b, body = some b → sleeping b = false ∧
      (m.state = .upWait → m.doubleTapTask = some id) ∧
      (m.state = .holding ∨ m.state = .tapHolding → b = .releasing)) :
    Ordered (m.proceed id .becomeIdle body) := by
  cases body with
  | none =>
    have hquiet : Quiet m.becomeIdle := h
    exact hquiet.ordered ⟨nofun, nofun⟩
  | some b =>
    obtain ⟨hawake, hdouble, hreleasing⟩ := hbody b rfl
    refine h.join_fits hholds ?_
    have hending : ending { id := id, body := b, after := .becomeIdle } = true := by
      simp [ending, hawake]
    unfold Fits
    cases hstate : m.state with
    | idle => exact absurd hstate hidle
    | downWait => exact Or.inr hending
    | upWait => exact ⟨Or.inr hending, hdouble hstate⟩
    | downWait2 => exact Or.inr hending
    | holding => exact ⟨hending, hreleasing (Or.inl hstate)⟩
    | tapHolding => exact ⟨hending, hreleasing (Or.inr hstate)⟩

theorem releaseHeld_shrinks (h : (Machine.releaseHeld out).1.heldActions ≠ []) :
    out.heldActions ≠ [] := by
  intro hnil
  unfold Machine.releaseHeld at h
  rw [hnil] at h
  exact h hnil

/-- A task that joins the list, and what it is suspended in. -/
structure Joins (id : ℕ) (body : Option Body) (t : Task) : Prop where
  same_id : t.id = id
  not_cancelled : t.cancelled = false
  not_live : live t = false
  in_body : body = some t.body ∨ t.body = .releasing

/-- Where a task goes on that leaves the state alone. -/
theorem proceed_other (m : SuperkeyMachine) (id : ℕ) {after : After} (hafter : after ≠ .becomeIdle)
    (hbody : ∀ b, body = some b → sleeping b = false) :
    ∃ out tasks, m.proceed id after body = { m with outputs := out, tasks := m.tasks ++ tasks } ∧
      (∀ t ∈ tasks, Joins id body t) ∧ tasks.length ≤ 1 ∧
      (out.heldActions ≠ [] → m.outputs.heldActions ≠ []) := by
  cases body with
  | some b =>
    refine ⟨m.outputs, [{ id := id, body := b, after := after }], rfl, ?_, Nat.le_refl 1,
      fun h => h⟩
    intro t ht
    rw [List.mem_singleton.mp ht]
    exact ⟨rfl, rfl, by simp [live, hbody b rfl, hafter], Or.inl rfl⟩
  | none =>
    cases after with
    | done => exact ⟨m.outputs, [], by simp [proceed], by simp, Nat.zero_le 1, fun h => h⟩
    | sequence => exact ⟨m.outputs, [], by simp [proceed], by simp, Nat.zero_le 1, fun h => h⟩
    | becomeIdle => exact absurd rfl hafter
    | releaseHeld =>
      simp only [proceed]
      split
      · exact ⟨(Machine.releaseHeld m.outputs).1, [], by simp, by simp, Nat.zero_le 1,
          releaseHeld_shrinks⟩
      · rename_i b hb
        refine ⟨(Machine.releaseHeld m.outputs).1, [{ id := id, body := b }], rfl, ?_,
          Nat.le_refl 1, releaseHeld_shrinks⟩
        intro t ht
        rw [List.mem_singleton.mp ht, releaseHeld_body hb]
        exact ⟨rfl, rfl, rfl, Or.inr rfl⟩

/-- `_run_sequence` starts the lane, queues behind it, or runs the step in the caller. -/
theorem runSequence_cases (m : SuperkeyMachine) (id : ℕ) (step : Step) (detach : Bool)
    (after : After) :
    (m.sequences = true ∧ m.lane = [] ∧ m.runSequence id step detach after =
      { m with
        outputs := (step.start m.outputs).1
        lane := (step.start m.outputs).2.toList.map fun body =>
          { id := m.nextId, body := body, after := .sequence }
        nextId := m.nextId + 1 }.proceed id after none) ∨
    (m.sequences = true ∧ m.lane ≠ [] ∧ m.runSequence id step detach after =
      { m with
        lane := m.lane ++ [Task.mk m.nextId (.waiting step) .sequence false]
        nextId := m.nextId + 1 }.proceed id after none) ∨
    ((m.sequences = true → m.lane = []) ∧ m.runSequence id step detach after =
      { m with outputs := (step.start m.outputs).1 }.proceed id after (step.start m.outputs).2) := by
  unfold runSequence
  split
  · rename_i hqueue
    rw [Bool.and_eq_true] at hqueue
    split
    · rename_i hlane
      exact Or.inl ⟨hqueue.1, hlane, rfl⟩
    · rename_i hlane
      exact Or.inr (Or.inl ⟨hqueue.1, hlane, rfl⟩)
  · rename_i hqueue
    refine Or.inr (Or.inr ⟨fun hseq => ?_, rfl⟩)
    rw [hseq, Bool.true_and, Bool.or_eq_true, not_or] at hqueue
    simpa using hqueue.2

/-- However the step is run, the caller goes on, suspended in the step or past it. -/
theorem runSequence_proceed (m : SuperkeyMachine) (id : ℕ) (step : Step) (detach : Bool)
    (after : After) :
    ∃ out lane next body, m.runSequence id step detach after =
        { m with outputs := out, lane := lane, nextId := next }.proceed id after body ∧
      ∀ b, body = some b → (step.start m.outputs).2 = some b := by
  rcases runSequence_cases m id step detach after with ⟨-, -, h⟩ | ⟨-, -, h⟩ | ⟨-, h⟩
  · exact ⟨_, _, _, none, h, nofun⟩
  · exact ⟨_, _, _, none, h, nofun⟩
  · exact ⟨_, m.lane, m.nextId, _, h, fun b hb => hb⟩

theorem Quiet.runSequence_ending (h : Quiet m) (hholds : HoldsActions m) (hidle : m.state ≠ .idle)
    {id : ℕ} (hdouble : m.state = .upWait → m.doubleTapTask = some id) {step : Step}
    (hstep : m.state = .holding ∨ m.state = .tapHolding → step = .release) (detach : Bool) :
    Ordered (m.runSequence id step detach .becomeIdle) := by
  obtain ⟨out, lane, next, body, heq, hbody⟩ :=
    runSequence_proceed m id step detach .becomeIdle
  rw [heq]
  have hquiet : Quiet { m with outputs := out, lane := lane, nextId := next } := h
  refine hquiet.proceed_ending hholds hidle fun b hb => ⟨start_awake (hbody b hb), hdouble, ?_⟩
  intro hstate
  have hstart := hbody b hb
  rw [hstep hstate] at hstart
  exact releaseHeld_body hstart

theorem Quiet.runSequence_done (h : Quiet m) (hholds : HoldsActions m) (id : ℕ) (step : Step)
    (detach : Bool) : Ordered (m.runSequence id step detach .done) := by
  obtain ⟨out, lane, next, body, heq, hbody⟩ := runSequence_proceed m id step detach .done
  rw [heq]
  have hquiet : Quiet { m with outputs := out, lane := lane, nextId := next } := h
  have hordered := hquiet.ordered hholds
  cases body with
  | none => exact hordered
  | some b => exact hordered.join (by simp [live, start_awake (hbody b rfl)])

/-! ## The calls -/

theorem onUp_other (h : m.state = .idle ∨ m.state = .upWait) (now : ℤ) : m.onUp now = m := by
  unfold onUp
  split <;> simp_all

/-- The machine as a release starts on it: the hold timer is cancelled. -/
def released (m : SuperkeyMachine) : SuperkeyMachine :=
  { m with nextId := m.nextId + 1, pressStartedAt := none }.cancelHoldTask

theorem onFirstUp_cases (m : SuperkeyMachine) (id : ℕ) (now : ℤ) :
    let after := { m with pressStartedAt := none }.cancelHoldTask
    m.onFirstUp id now = after.becomeIdle ∨
    m.onFirstUp id now = { after with state := .upWait }.startDoubleTapTask ∨
    m.onFirstUp id now = (after.recordSlot .tap).runSequence id (.tap m.config.tapActions)
      (runsNaturalMove m.config.tapActions) .becomeIdle := by
  unfold onFirstUp
  simp only
  split
  · exact Or.inl rfl
  · split
    · exact Or.inr (Or.inl rfl)
    · split
      · rename_i htap
        exact Or.inr (Or.inr (if_neg htap))
      · exact Or.inl rfl

theorem onSecondUp_cases (m : SuperkeyMachine) (id : ℕ) (now : ℤ) :
    let after := { m with pressStartedAt := none }.cancelHoldTask
    m.onSecondUp id now = after.becomeIdle ∨
    ∃ slot actions, m.onSecondUp id now = (after.recordSlot slot).runSequence id (.tap actions)
      (runsNaturalMove actions) .becomeIdle := by
  unfold onSecondUp
  simp only
  split
  · rename_i hdouble
    exact Or.inr ⟨.doubleTap, m.config.doubleTapActions, if_neg hdouble.2⟩
  · split
    · rename_i htap
      exact Or.inr ⟨.tap, m.config.tapActions, if_neg htap⟩
    · exact Or.inl rfl

theorem onUp_waiting (h : m.state = .downWait ∨ m.state = .downWait2) (now : ℤ) :
    m.onUp now = (released m).becomeIdle ∨
    (m.state = .downWait ∧ m.onUp now = { released m with state := .upWait }.startDoubleTapTask) ∨
    ∃ slot actions, m.onUp now = ((released m).recordSlot slot).runSequence m.nextId (.tap actions)
      (runsNaturalMove actions) .becomeIdle := by
  rcases h with h | h
  · have hcall : m.onUp now = { m with nextId := m.nextId + 1 }.onFirstUp m.nextId now := by
      unfold onUp
      split <;> simp_all
    rw [hcall]
    rcases onFirstUp_cases { m with nextId := m.nextId + 1 } m.nextId now with heq | heq | heq
    · exact Or.inl heq
    · exact Or.inr (Or.inl ⟨h, heq⟩)
    · exact Or.inr (Or.inr ⟨.tap, m.config.tapActions, heq⟩)
  · have hcall : m.onUp now = { m with nextId := m.nextId + 1 }.onSecondUp m.nextId now := by
      unfold onUp
      split <;> simp_all
    rw [hcall]
    rcases onSecondUp_cases { m with nextId := m.nextId + 1 } m.nextId now with heq | heq
    · exact Or.inl heq
    · exact Or.inr (Or.inr heq)

theorem onUp_emitHoldUp (h : m.state = .holding) (now : ℤ) :
    m.onUp now = { m with nextId := m.nextId + 1 }.emitHoldUp m.nextId .becomeIdle := by
  unfold onUp
  split <;> simp_all

theorem onUp_emitTapHoldUp (h : m.state = .tapHolding) (now : ℤ) :
    m.onUp now = { m with nextId := m.nextId + 1 }.emitTapHoldUp m.nextId .becomeIdle := by
  unfold onUp
  split <;> simp_all

theorem onUp_holding (hholds : HoldsActions m) (h : m.state = .holding ∨ m.state = .tapHolding)
    (now : ℤ) :
    m.onUp now =
      { m with nextId := m.nextId + 1 }.runSequence m.nextId .release false .becomeIdle := by
  rcases h with h | h
  · exact (onUp_emitHoldUp h now).trans (if_neg (hholds.1 h))
  · exact (onUp_emitTapHoldUp h now).trans (if_neg (hholds.2 h))

/-- A property that the parts of a release keep is kept by the release. -/
theorem onUp_rule (now : ℤ) (hm : P m) (hcall : P { m with nextId := m.nextId + 1 })
    (hreleased : m.state = .downWait ∨ m.state = .downWait2 → P (released m))
    (hstate : ∀ m state slots, P m → P { m with state := state, slots := slots })
    (htimer : ∀ m, P m → P m.startDoubleTapTask)
    (hrun : ∀ m id step detach, ((∃ actions, step = .tap actions) ∨ step = .release) → P m →
      P (m.runSequence id step detach .becomeIdle)) : P (m.onUp now) := by
  have hwaiting : m.state = .downWait ∨ m.state = .downWait2 → P (m.onUp now) := by
    intro h
    have hbase := hreleased h
    rcases onUp_waiting h now with heq | ⟨-, heq⟩ | ⟨slot, actions, heq⟩
    · rw [heq]
      exact hstate _ .idle _ hbase
    · rw [heq]
      exact htimer _ (hstate _ .upWait _ hbase)
    · rw [heq]
      exact hrun _ _ _ _ (Or.inl ⟨actions, rfl⟩) (hstate _ _ ((released m).slots ++ [slot]) hbase)
  have hup : ∀ actions : List SuperkeyActionData,
      P (if actions = [] then { m with nextId := m.nextId + 1 }.becomeIdle
        else { m with nextId := m.nextId + 1 }.runSequence m.nextId .release false
          .becomeIdle) := by
    intro actions
    split
    · exact hstate _ .idle _ hcall
    · exact hrun _ _ _ _ (Or.inr rfl) hcall
  cases h : m.state with
  | idle => rwa [onUp_other (Or.inl h)]
  | downWait => exact hwaiting (Or.inl h)
  | upWait => rwa [onUp_other (Or.inr h)]
  | holding =>
    rw [onUp_emitHoldUp h]
    exact hup m.config.holdActions
  | downWait2 => exact hwaiting (Or.inr h)
  | tapHolding =>
    rw [onUp_emitTapHoldUp h]
    exact hup m.config.tapHoldActions

/-- A property that the parts of a press keep is kept by the press. -/
theorem onDown_rule (now : ℤ) (hm : P m) (hcancelled : m.state = .upWait → P m.cancelDoubleTapTask)
    (hstate : ∀ m state started slots, P m →
      P { m with state := state, pressStartedAt := started, slots := slots })
    (htimer : ∀ m, P m → P m.startHoldTask) : P (m.onDown now) := by
  unfold SuperkeyMachine.onDown
  split
  · unfold transitionToDownWait
    simp only
    split
    · exact hstate _ _ _ _ hm
    · exact htimer _ (hstate _ _ _ _ hm)
  · rename_i h
    unfold onSecondDown
    simp only
    split
    · exact hstate _ _ _ m.cancelDoubleTapTask.slots (hcancelled h)
    · exact htimer _ (hstate _ _ _ m.cancelDoubleTapTask.slots (hcancelled h))
  · exact hm

theorem quiet_released (h : Ordered m) (hstate : m.state = .downWait ∨ m.state = .downWait2)
    (hnone : ∀ t ∈ m.tasks, ending t = false) : Quiet (released m) := by
  have hquiet : Quiet ({ m with nextId := m.nextId + 1, pressStartedAt := none }.cancelTask
      m.holdTask) := by
    refine quiet_cancelTask (m := { m with nextId := m.nextId + 1, pressStartedAt := none })
      fun t ht hlive => ?_
    have hfits := h.fits t ht hlive
    unfold Fits at hfits
    rcases hstate with hs | hs
    · rw [hs] at hfits
      rcases hfits with ⟨-, htask, -⟩ | hending
      · exact htask
      · rw [hnone t ht] at hending
        cases hending
    · rw [hs] at hfits
      rcases hfits with ⟨-, htask, -⟩ | hending
      · exact htask
      · rw [hnone t ht] at hending
        cases hending
  exact hquiet

/-- A key comes up while no task is to return the machine to `idle`. -/
theorem Ordered.onUp (h : Ordered m) (now : ℤ)
    (hnone : m.state ≠ .idle → m.state ≠ .upWait → ∀ t ∈ m.tasks, ending t = false) :
    Ordered (m.onUp now) := by
  have hwaiting : m.state = .downWait ∨ m.state = .downWait2 → Ordered (m.onUp now) := by
    intro hstate
    have hidle : m.state ≠ .idle := by rcases hstate with hs | hs <;> simp [hs]
    have hup : m.state ≠ .upWait := by rcases hstate with hs | hs <;> simp [hs]
    have hhold : ¬(m.state = .holding ∨ m.state = .tapHolding) := by
      rcases hstate with hs | hs <;> simp [hs]
    have hquiet := quiet_released h hstate (hnone hidle hup)
    rcases onUp_waiting hstate now with heq | ⟨-, heq⟩ | ⟨slot, actions, heq⟩
    · rw [heq]
      have hidle : Quiet (released m).becomeIdle := hquiet
      exact hidle.ordered ⟨nofun, nofun⟩
    · rw [heq]
      have hwait : Quiet { released m with
          state := .upWait, doubleTapTask := some (released m).nextId
          nextId := (released m).nextId + 1 } := hquiet
      exact hwait.join_fits ⟨nofun, nofun⟩ ⟨Or.inl rfl, rfl⟩
    · rw [heq]
      have hrecord : Quiet ((released m).recordSlot slot) := hquiet
      exact hrecord.runSequence_ending h.holds hidle (fun hs => absurd hs hup)
        (fun hs => absurd hs hhold) _
  have hholding : m.state = .holding ∨ m.state = .tapHolding → Ordered (m.onUp now) := by
    intro hstate
    have hidle : m.state ≠ .idle := by rcases hstate with hs | hs <;> simp [hs]
    have hup : m.state ≠ .upWait := by rcases hstate with hs | hs <;> simp [hs]
    rw [onUp_holding h.holds hstate]
    have hquiet : Quiet { m with nextId := m.nextId + 1 } := by
      intro t ht
      rw [← Bool.not_eq_true]
      intro hlive
      have hfits := h.fits t ht hlive
      have hno := hnone hidle hup t ht
      unfold Fits at hfits
      rcases hstate with hs | hs
      · rw [hs] at hfits
        rw [hno] at hfits
        cases hfits.1
      · rw [hs] at hfits
        rw [hno] at hfits
        cases hfits.1
    exact hquiet.runSequence_ending h.holds hidle (fun hs => absurd hs hup) (fun _ => rfl) false
  cases hstate : m.state with
  | idle => rwa [onUp_other (Or.inl hstate)]
  | downWait => exact hwaiting (Or.inl hstate)
  | upWait => rwa [onUp_other (Or.inr hstate)]
  | holding => exact hholding (Or.inl hstate)
  | downWait2 => exact hwaiting (Or.inr hstate)
  | tapHolding => exact hholding (Or.inr hstate)

theorem Ordered.quiet_idle (h : Ordered m) (hstate : m.state = .idle) : Quiet m := by
  intro t ht
  rw [← Bool.not_eq_true]
  intro hlive
  have hfits := h.fits t ht hlive
  unfold Fits at hfits
  rw [hstate] at hfits
  exact hfits

/-- In `upWait` the task that changes the state is the one of the window. -/
theorem Ordered.quiet_window (h : Ordered m) (hstate : m.state = .upWait) :
    Quiet (m.cancelTask m.doubleTapTask) := by
  refine quiet_cancelTask fun t ht hlive => ?_
  have hfits := h.fits t ht hlive
  unfold Fits at hfits
  rw [hstate] at hfits
  exact hfits.2

/-- A key goes down; in `upWait` the window's task is cancelled, whatever it is doing. -/
theorem Ordered.onDown (h : Ordered m) (now : ℤ) : Ordered (m.onDown now) := by
  unfold SuperkeyMachine.onDown
  split
  · rename_i hstate
    have hquiet := h.quiet_idle hstate
    unfold transitionToDownWait
    simp only
    split
    · have hdown : Quiet { m with
          state := .downWait, pressStartedAt := some now, slots := [] } := hquiet
      exact hdown.ordered ⟨nofun, nofun⟩
    · rename_i hhold
      have hdown : Quiet { m with
          state := .downWait, pressStartedAt := some now, slots := []
          holdTask := some m.nextId, nextId := m.nextId + 1 } := hquiet
      exact hdown.join_fits ⟨nofun, nofun⟩ (Or.inl ⟨rfl, rfl, hhold⟩)
  · rename_i hstate
    have hquiet := h.quiet_window hstate
    unfold onSecondDown
    simp only
    split
    · have hdown : Quiet { m.cancelDoubleTapTask with
          state := .downWait2, pressStartedAt := some now } := hquiet
      exact hdown.ordered ⟨nofun, nofun⟩
    · rename_i hactions
      have hdown : Quiet { m.cancelDoubleTapTask with
          state := .downWait2, pressStartedAt := some now
          holdTask := some m.nextId, nextId := m.nextId + 1 } := hquiet
      refine hdown.join_fits ⟨nofun, nofun⟩ (Or.inl ⟨rfl, rfl, ?_⟩)
      by_cases htap : m.config.tapHoldActions = []
      · exact Or.inr fun hhold => hactions ⟨htap, hhold⟩
      · exact Or.inl htap
  · exact h

/-! ## Timers and suspended tasks -/

/-- The hold timer does nothing, or starts a hold in the wait that it belongs to. -/
theorem holdTimeout_cases (m : SuperkeyMachine) (id : ℕ)
    (hdown : m.state = .downWait → m.config.holdActions ≠ [])
    (hdown2 : m.state = .downWait2 → m.config.tapHoldActions ≠ [] ∨ m.config.holdActions ≠ []) :
    m.holdTimeout id = m ∨
    (m.running = true ∧ (m.state = .downWait ∨ m.state = .downWait2) ∧
      ∃ state slot actions, (state = .holding ∧ m.config.holdActions ≠ [] ∨
        state = .tapHolding ∧ m.config.tapHoldActions ≠ []) ∧
      m.holdTimeout id =
        ({ m with pressStartedAt := none, state := state }.recordSlot slot).runSequence id
          (.press actions) (runsNaturalMove actions) .done) := by
  unfold holdTimeout
  split
  · exact Or.inl rfl
  · rename_i hrunning
    have hrunning : m.running = true := by simpa using hrunning
    split
    · rename_i hstate
      refine Or.inr ⟨hrunning, Or.inl hstate, .holding, .hold, m.config.holdActions,
        Or.inl ⟨rfl, hdown hstate⟩, ?_⟩
      exact if_neg (hdown hstate)
    · rename_i hstate
      refine Or.inr ⟨hrunning, Or.inr hstate, ?_⟩
      unfold startTapHolding
      split
      · rename_i htap
        have hhold : m.config.holdActions ≠ [] := (hdown2 hstate).resolve_left (not_not.mpr htap)
        exact ⟨.holding, .hold, m.config.holdActions, Or.inl ⟨rfl, hhold⟩, if_neg hhold⟩
      · rename_i htap
        exact ⟨.tapHolding, .tapHold, m.config.tapHoldActions, Or.inr ⟨rfl, htap⟩, if_neg htap⟩
    · exact Or.inl rfl

/-- The window's timer does nothing, or ends the wait, with the tap if there is one. -/
theorem doubleTapTimeout_cases (m : SuperkeyMachine) (id : ℕ) :
    m.doubleTapTimeout id = m ∨
    (m.running = true ∧ m.state = .upWait ∧
      (m.doubleTapTimeout id = m.becomeIdle ∨
        m.doubleTapTimeout id = (m.recordSlot .tap).runSequence id (.tap m.config.tapActions)
          (runsNaturalMove m.config.tapActions) .becomeIdle)) := by
  unfold doubleTapTimeout
  split
  · exact Or.inl rfl
  · rename_i hrunning
    split
    · rename_i hstate
      refine Or.inr ⟨by simpa using hrunning, hstate, ?_⟩
      split
      · rename_i htap
        exact Or.inr (if_neg htap)
      · exact Or.inl rfl
    · exact Or.inl rfl

theorem afterCancel_ne (t : Task) : afterCancel t ≠ .becomeIdle := by
  unfold afterCancel
  split <;> simp

/-- A task that is neither asleep nor cancelled goes on in its loop. -/
theorem resumeTask_awake (hcancelled : t.cancelled = false) (hawake : sleeping t.body = false) :
    m.resumeTask t = { m with outputs := (t.body.resume m.outputs).1 }.proceed t.id t.after
      (t.body.resume m.outputs).2 := by
  unfold resumeTask
  rw [hcancelled]
  simp only [Bool.false_eq_true, if_false]
  split
  · rename_i hbody
    rw [hbody] at hawake
    cases hawake
  · rename_i hbody
    rw [hbody] at hawake
    cases hawake
  · rfl

theorem resumeTask_cancelled (hcancelled : t.cancelled = true) :
    m.resumeTask t = { m with outputs := (t.body.cancel m.outputs).1 }.proceed t.id (afterCancel t)
      (t.body.cancel m.outputs).2 := by
  unfold resumeTask
  rw [if_pos hcancelled]

theorem resumeTask_holdTimeout (hcancelled : t.cancelled = false) (hbody : t.body = .holdTimeout) :
    m.resumeTask t = m.holdTimeout t.id := by
  unfold resumeTask
  rw [hcancelled, hbody]
  rfl

theorem resumeTask_doubleTapTimeout (hcancelled : t.cancelled = false)
    (hbody : t.body = .doubleTapTimeout) :
    m.resumeTask t = m.doubleTapTimeout t.id := by
  unfold resumeTask
  rw [hcancelled, hbody]
  rfl

/-- A task that leaves the state alone goes on. -/
theorem Ordered.proceed_other (h : Ordered m) {id : ℕ} {after : After}
    (hafter : after ≠ .becomeIdle) (hbody : ∀ b, body = some b → sleeping b = false) :
    Ordered (m.proceed id after body) := by
  obtain ⟨out, tasks, heq, hjoins, hlength, -⟩ := Order.proceed_other m id hafter hbody
  rw [heq]
  match tasks, hlength with
  | [], _ =>
    rw [List.append_nil]
    exact ⟨h.one, h.fits, h.holds⟩
  | [t], _ =>
    have hout : Ordered { m with outputs := out } := ⟨h.one, h.fits, h.holds⟩
    exact hout.join (hjoins t (List.mem_singleton_self t)).not_live

/-- A task of the list goes on, `rest` being the others. -/
theorem Ordered.resumeTask (h : Ordered m) {rest : List Task} (hperm : m.tasks.Perm (t :: rest)) :
    Ordered ({ m with tasks := rest }.resumeTask t) := by
  obtain ⟨hrest, hquiet⟩ := h.take hperm
  have hmem : t ∈ m.tasks := hperm.mem_iff.mpr List.mem_cons_self
  cases hcancelled : t.cancelled with
  | true =>
    rw [resumeTask_cancelled hcancelled]
    have hout : Ordered { m with
        outputs := (t.body.cancel m.outputs).1, tasks := rest } :=
      ⟨hrest.one, hrest.fits, hrest.holds⟩
    exact hout.proceed_other (afterCancel_ne t) fun b hb => cancel_awake hb
  | false =>
    by_cases hlive : live t = true
    · have hfits := h.fits t hmem hlive
      have hquiet := hquiet hlive
      rcases (live_cases hlive).2 with hbody | hbody | ⟨hending, hawake⟩
      · rw [resumeTask_holdTimeout hcancelled hbody]
        obtain ⟨hdown, hdown2⟩ := hfits.hold_actions hbody
        rcases holdTimeout_cases { m with tasks := rest } t.id hdown hdown2 with
          heq | ⟨-, -, state, slot, actions, hstate, heq⟩
        · rw [heq]
          exact hrest
        · rw [heq]
          have hhold : Quiet ({ m with
              tasks := rest, pressStartedAt := none, state := state }.recordSlot slot) := hquiet
          refine hhold.runSequence_done ?_ t.id _ _
          rcases hstate with ⟨rfl, hactions⟩ | ⟨rfl, hactions⟩
          · exact ⟨fun _ => hactions, nofun⟩
          · exact ⟨nofun, fun _ => hactions⟩
      · rw [resumeTask_doubleTapTimeout hcancelled hbody]
        rcases doubleTapTimeout_cases { m with tasks := rest } t.id with
          heq | ⟨-, hstate, heq | heq⟩
        · rw [heq]
          exact hrest
        · rw [heq]
          have hidle : Quiet { m with tasks := rest }.becomeIdle := hquiet
          exact hidle.ordered ⟨nofun, nofun⟩
        · rw [heq]
          have hstate : m.state = .upWait := hstate
          have hdouble : m.doubleTapTask = some t.id := by
            simp only [Fits, hstate] at hfits
            exact hfits.2
          have hrecord : Quiet ({ m with tasks := rest }.recordSlot .tap) := hquiet
          refine hrecord.runSequence_ending h.holds ?_ (fun _ => hdouble) ?_ _
          · show m.state ≠ .idle
            simp [hstate]
          · intro hhold
            have hhold : m.state = .holding ∨ m.state = .tapHolding := hhold
            simp [hstate] at hhold
      · rw [resumeTask_awake hcancelled hawake]
        have hafter : t.after = .becomeIdle := by
          simp only [ending, Bool.and_eq_true, decide_eq_true_eq] at hending
          exact hending.2
        rw [hafter]
        have hout : Quiet { m with
            outputs := (t.body.resume m.outputs).1, tasks := rest } := hquiet
        refine hout.proceed_ending h.holds ?_ fun b hb => ⟨resume_awake hb, ?_, ?_⟩
        · intro hidle
          have hidle : m.state = .idle := hidle
          simp [Fits, hidle] at hfits
        · intro hstate
          have hstate : m.state = .upWait := hstate
          simp only [Fits, hstate] at hfits
          exact hfits.2
        · intro hhold
          have hhold : m.state = .holding ∨ m.state = .tapHolding := hhold
          have hbody : t.body = .releasing := by
            rcases hhold with hs | hs <;> (simp only [Fits, hs] at hfits; exact hfits.2)
          rw [hbody] at hb
          exact releaseHeld_body hb
    · have hdead : live t = false := by simpa using hlive
      have hawake : sleeping t.body = false := by
        simp only [live, hcancelled, Bool.not_false, Bool.true_and, Bool.or_eq_false_iff] at hdead
        exact hdead.1
      have hafter : t.after ≠ .becomeIdle := by
        simp only [live, hcancelled, Bool.not_false, Bool.true_and, Bool.or_eq_false_iff,
          decide_eq_false_iff_not] at hdead
        exact hdead.2
      rw [resumeTask_awake hcancelled hawake]
      have hout : Ordered { m with
          outputs := (t.body.resume m.outputs).1, tasks := rest } :=
        ⟨hrest.one, hrest.fits, hrest.holds⟩
      exact hout.proceed_other hafter fun b hb => resume_awake hb

theorem Ordered.resumeLane (h : Ordered m) (t : Task) (rest : List Task) :
    Ordered (m.resumeLane t rest) :=
  ⟨h.one, h.fits, h.holds⟩

end Keymasq.Superkey.Order
