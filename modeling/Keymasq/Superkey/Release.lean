import Keymasq.Superkey.Accounting

/-!
# Whatever is held will be released

Until the machine is stopped, whatever is held or still to be pressed has a
release after it, or the machine is in a holding state.
-/

namespace Keymasq.Superkey.Release
open Foundation.Transition Foundation.Lists Machine Machine.SuperkeyMachine Superkey.Order
open Accounting

/-! ## Pressing and releasing steps -/

/-- A step of `_execute_actions_down`, running or to come. -/
def presses : Body → Bool
  | .waiting (.press _) => true
  | .pressing _ => true
  | _ => false

/-- A release pass, running or to come. -/
def releases : Body → Bool
  | .waiting .release => true
  | .releasing => true
  | _ => false

def waits : Body → Bool
  | .waiting _ => true
  | _ => false

variable {out : Outputs} {body : Body} {t : Task} {m : SuperkeyMachine} {rest : List Task}

theorem tapNext_body {pressed : List Entry} {rest : List (SuperkeyActionData × ℕ)}
    (h : (tapNext out pressed rest).2 = some body) :
    presses body = false ∧ releases body = false ∧ waits body = false := by
  cases rest with
  | nil =>
    cases h
    exact ⟨rfl, rfl, rfl⟩
  | cons a rest =>
    cases h
    exact ⟨rfl, rfl, rfl⟩

@[simp] theorem tapNext_held (out : Outputs) (pressed : List Entry)
    (rest : List (SuperkeyActionData × ℕ)) :
    (tapNext out pressed rest).1.heldActions = out.heldActions := by
  cases rest <;> rfl

theorem tapRelease_body {left : List Entry} (h : (tapRelease out left).2 = some body) :
    presses body = false ∧ releases body = false ∧ waits body = false := by
  cases left with
  | nil => cases h
  | cons e left =>
    cases h
    exact ⟨rfl, rfl, rfl⟩

@[simp] theorem tapRelease_held (out : Outputs) (left : List Entry) :
    (tapRelease out left).1.heldActions = out.heldActions := by
  cases left <;> rfl

theorem pressNext_body {rest : List (SuperkeyActionData × ℕ)}
    (h : (pressNext out rest).2 = some body) : presses body = true ∧ waits body = false := by
  cases rest with
  | nil => cases h
  | cons a rest =>
    cases h
    exact ⟨rfl, rfl⟩

/-- A release pass ends when nothing is held. -/
theorem releaseHeld_none (h : (Machine.releaseHeld out).2 = none) :
    (Machine.releaseHeld out).1.heldActions = [] := by
  unfold Machine.releaseHeld at h ⊢
  cases hheld : out.heldActions with
  | nil => simp [hheld]
  | cons e held =>
    rw [hheld] at h
    cases h

/-- A loop that presses nothing for the held list only shortens that list. -/
theorem resume_shrinks (h : presses body = false) (hheld : (body.resume out).1.heldActions ≠ []) :
    out.heldActions ≠ [] := by
  cases body with
  | waiting step =>
    cases step with
    | tap actions => simpa [Body.resume, Step.start] using hheld
    | press actions => cases h
    | release => exact releaseHeld_shrinks hheld
  | tapping pressed rest
  | tapSleep pressed
  | tapReleasing left => simpa [Body.resume] using hheld
  | pressing rest => cases h
  | releasing => exact releaseHeld_shrinks hheld
  | holdTimeout => exact hheld
  | doubleTapTimeout => exact hheld

/-- What a loop resumes as is of its own kind, and no longer waits. -/
theorem resume_body {body' : Body} (h : (body.resume out).2 = some body') :
    presses body' = presses body ∧ releases body' = releases body ∧ waits body' = false := by
  cases body with
  | waiting step =>
    cases step with
    | tap actions => exact tapNext_body h
    | press actions =>
      cases hactions : actions.zipIdx with
      | nil =>
        simp only [Body.resume, Step.start, hactions, pressNext] at h
        cases h
      | cons a rest =>
        simp only [Body.resume, Step.start, hactions, pressNext] at h
        cases h
        exact ⟨rfl, rfl, rfl⟩
    | release =>
      have hreleasing := releaseHeld_body h
      subst hreleasing
      exact ⟨rfl, rfl, rfl⟩
  | tapping pressed rest => exact tapNext_body h
  | tapSleep pressed => exact tapRelease_body h
  | tapReleasing left => exact tapRelease_body h
  | pressing rest =>
    cases rest with
    | nil => cases h
    | cons a rest =>
      cases h
      exact ⟨rfl, rfl, rfl⟩
  | releasing =>
    have hreleasing := releaseHeld_body h
    subst hreleasing
    exact ⟨rfl, rfl, rfl⟩
  | holdTimeout => cases h
  | doubleTapTimeout => cases h

theorem cancel_body {body' : Body} (h : (body.cancel out).2 = some body') :
    presses body' = false ∧ waits body' = false := by
  cases body with
  | tapping pressed rest
  | tapSleep pressed => exact ⟨(tapRelease_body h).1, (tapRelease_body h).2.2⟩
  | holdTimeout
  | doubleTapTimeout
  | waiting step
  | tapReleasing left
  | pressing rest
  | releasing => cases h

@[simp] theorem cancel_held (out : Outputs) (body : Body) :
    (body.cancel out).1.heldActions = out.heldActions := by
  cases body <;> simp [Body.cancel]

/-! ## The lane -/

/- Whether something is held once the steps of the lane have run, `held` telling
whether something is before. -/
def Owed (held : Prop) : List Task → Prop
  | [] => held
  | t :: ts =>
    if presses t.body then Owed True ts else if releases t.body then Owed False ts else Owed held ts

theorem Owed.mono {held held' : Prop} (h : held → held') {ts : List Task} (howed : Owed held ts) :
    Owed held' ts := by
  induction ts generalizing held held' with
  | nil => exact h howed
  | cons t ts ih =>
    unfold Owed at howed ⊢
    by_cases hpress : presses t.body = true
    · rwa [if_pos hpress] at howed ⊢
    · rw [if_neg hpress] at howed ⊢
      by_cases hrelease : releases t.body = true
      · rwa [if_pos hrelease] at howed ⊢
      · rw [if_neg hrelease] at howed ⊢
        exact ih h howed

theorem owed_append (held : Prop) (ts ts' : List Task) :
    Owed held (ts ++ ts') = Owed (Owed held ts) ts' := by
  induction ts generalizing held with
  | nil => rfl
  | cons t ts ih =>
    simp only [List.cons_append, Owed]
    split
    · exact ih True
    · split
      · exact ih False
      · exact ih held

theorem owed_releases {held : Prop} (ts : List Task) (h : releases t.body = true) :
    ¬Owed held (ts ++ [t]) := by
  have hpress : presses t.body = false := by
    cases hbody : t.body with
    | waiting step =>
      rw [hbody] at h
      cases step with
      | press actions => cases h
      | _ => rfl
    | pressing rest =>
      rw [hbody] at h
      cases h
    | _ => rfl
  rw [owed_append]
  simp [Owed, hpress, h]

theorem owed_tap {held : Prop} {ts : List Task} (hpress : presses t.body = false)
    (hrelease : releases t.body = false) : Owed held (ts ++ [t]) ↔ Owed held ts := by
  rw [owed_append]
  simp [Owed, hpress, hrelease]

/-- A step that starts the lane leaves nothing held unless it presses. -/
theorem not_owed_started {body : Option Body} (id : ℕ) (hnone : body = none → out.heldActions = [])
    (hsome : ∀ b, body = some b → releases b = true ∨
      presses b = false ∧ releases b = false ∧ out.heldActions = []) :
    ¬Owed (out.heldActions ≠ [])
      (body.toList.map fun b => { id := id, body := b, after := .sequence }) := by
  cases body with
  | none => simp [Owed, hnone rfl]
  | some b =>
    rcases hsome b rfl with hrelease | ⟨hpress, hrelease, hheld⟩
    · exact owed_releases [] hrelease
    · simp [Owed, hpress, hrelease, hheld]

/-! ## Until the machine is stopped -/

def Holding (m : SuperkeyMachine) : Prop := m.state = .holding ∨ m.state = .tapHolding

/-- What holds until the machine is stopped. -/
structure Covered (m : SuperkeyMachine) : Prop extends Ordered m where
  running : m.running = true
  not_waiting : ∀ t ∈ m.tasks, t.cancelled = false → waits t.body = false
  inline_press : ∀ t ∈ m.tasks, t.cancelled = false → presses t.body = true →
    m.holdTask = some t.id ∧ Holding m ∧ ∀ t' ∈ m.tasks, ending t' = false
  owed_holding : Owed (m.outputs.heldActions ≠ []) m.lane → Holding m
  lane_free : ∀ t ∈ m.tasks, ending t = true → m.lane = []
  lane_sequences : m.sequences = false → m.lane = []

/-- No task presses, waits or is to return the machine to `idle`. -/
structure Free (m : SuperkeyMachine) : Prop where
  running : m.running = true
  not_waiting : ∀ t ∈ m.tasks, t.cancelled = false → waits t.body = false
  no_press : ∀ t ∈ m.tasks, t.cancelled = false → presses t.body = false
  no_ending : ∀ t ∈ m.tasks, ending t = false
  lane_sequences : m.sequences = false → m.lane = []

theorem Free.covered (h : Free m) (hordered : Ordered m)
    (howed : Owed (m.outputs.heldActions ≠ []) m.lane → Holding m) : Covered m :=
  { hordered with
    running := h.running
    not_waiting := h.not_waiting
    inline_press := fun t ht hcancelled hpress => by
      rw [h.no_press t ht hcancelled] at hpress
      cases hpress
    owed_holding := howed
    lane_free := fun t ht hending => by
      rw [h.no_ending t ht] at hending
      cases hending
    lane_sequences := h.lane_sequences }

/-- A task that returns the machine to `idle` is suspended, or does so now. -/
theorem Free.proceed (h : Free m) {id : ℕ} {body : Option Body}
    (hordered : Ordered (m.proceed id .becomeIdle body))
    (hsome : ∀ b, body = some b → m.lane = [] ∧ presses b = false ∧ waits b = false ∧
      (m.outputs.heldActions ≠ [] → Holding m))
    (hnone : body = none → ¬Owed (m.outputs.heldActions ≠ []) m.lane) :
    Covered (m.proceed id .becomeIdle body) := by
  cases body with
  | none =>
    have hfree : Free m.becomeIdle :=
      ⟨h.running, h.not_waiting, h.no_press, h.no_ending, h.lane_sequences⟩
    exact hfree.covered hordered fun howed => absurd howed (hnone rfl)
  | some b =>
    obtain ⟨hlane, hpress, hwaits, hheld⟩ := hsome b rfl
    refine { hordered with
      running := h.running, not_waiting := fun t ht hcancelled => ?_,
      inline_press := fun t ht hcancelled hpresses => ?_,
      owed_holding := fun howed => ?_, lane_free := fun _ _ _ => hlane,
      lane_sequences := fun _ => hlane }
    · rcases List.mem_append.mp ht with ht | ht
      · exact h.not_waiting t ht hcancelled
      · rw [List.mem_singleton.mp ht]
        exact hwaits
    · rcases List.mem_append.mp ht with ht | ht
      · rw [h.no_press t ht hcancelled] at hpresses
        cases hpresses
      · rw [List.mem_singleton.mp ht] at hpresses
        have hpresses : presses b = true := hpresses
        rw [hpress] at hpresses
        cases hpresses
    · have howed : Owed (m.outputs.heldActions ≠ []) m.lane := howed
      rw [hlane] at howed
      exact hheld howed

/-- The emission of a tap, or the release pass of a holding state. -/
theorem Free.runSequence (h : Free m) {id : ℕ} {step : Step} {detach : Bool}
    (hordered : Ordered (m.runSequence id step detach .becomeIdle))
    (hstep : (∃ actions, step = .tap actions) ∧ ¬Owed (m.outputs.heldActions ≠ []) m.lane ∨
      step = .release ∧ Holding m) :
    Covered (m.runSequence id step detach .becomeIdle) := by
  have hbody : ∀ b, (step.start m.outputs).2 = some b → presses b = false ∧ waits b = false := by
    intro b hb
    rcases hstep with ⟨⟨actions, rfl⟩, -⟩ | ⟨rfl, -⟩
    · exact ⟨(tapNext_body hb).1, (tapNext_body hb).2.2⟩
    · rw [releaseHeld_body hb]
      exact ⟨rfl, rfl⟩
  rcases runSequence_cases m id step detach .becomeIdle with
    ⟨hseq, hlane, heq⟩ | ⟨hseq, -, heq⟩ | ⟨hlane, heq⟩
  · rw [heq] at hordered ⊢
    have hfree : Free { m with
        outputs := (step.start m.outputs).1
        lane := (step.start m.outputs).2.toList.map fun body =>
          { id := m.nextId, body := body, after := .sequence }
        nextId := m.nextId + 1 } :=
      ⟨h.running, h.not_waiting, h.no_press, h.no_ending,
        fun hfalse => Bool.noConfusion (hseq.symm.trans hfalse)⟩
    refine hfree.proceed hordered (fun b hb => by cases hb) fun _ => ?_
    rcases hstep with ⟨⟨actions, rfl⟩, hnone⟩ | ⟨rfl, -⟩
    · have hheld : ((Step.tap actions).start m.outputs).1.heldActions = [] := by
        rw [hlane] at hnone
        simpa [Owed, Step.start] using hnone
      exact not_owed_started m.nextId (fun _ => hheld) fun b hb =>
        Or.inr ⟨(tapNext_body hb).1, (tapNext_body hb).2.1, hheld⟩
    · refine not_owed_started m.nextId releaseHeld_none fun b hb => Or.inl ?_
      rw [releaseHeld_body hb]
      rfl
  · rw [heq] at hordered ⊢
    have hfree : Free { m with
        lane := m.lane ++ [Task.mk m.nextId (.waiting step) .sequence false]
        nextId := m.nextId + 1 } :=
      ⟨h.running, h.not_waiting, h.no_press, h.no_ending,
        fun hfalse => Bool.noConfusion (hseq.symm.trans hfalse)⟩
    refine hfree.proceed hordered (fun b hb => by cases hb) fun _ howed => ?_
    rcases hstep with ⟨⟨actions, rfl⟩, hnone⟩ | ⟨rfl, -⟩
    · exact hnone ((owed_tap rfl rfl).mp howed)
    · exact owed_releases _ rfl howed
  · have hlane : m.lane = [] := by
      cases hseq : m.sequences with
      | true => exact hlane hseq
      | false => exact h.lane_sequences hseq
    rw [heq] at hordered ⊢
    have hfree : Free { m with outputs := (step.start m.outputs).1 } :=
      ⟨h.running, h.not_waiting, h.no_press, h.no_ending, h.lane_sequences⟩
    refine hfree.proceed hordered (fun b hb => ⟨hlane, (hbody b hb).1, (hbody b hb).2, fun hheld => ?_⟩)
      fun hstart howed => ?_
    · rcases hstep with ⟨⟨actions, rfl⟩, hnone⟩ | ⟨rfl, hholding⟩
      · rw [hlane] at hnone
        exact absurd (by simpa [Step.start, Owed] using hheld) hnone
      · exact hholding
    · have howed : Owed ((step.start m.outputs).1.heldActions ≠ []) m.lane := howed
      rw [hlane] at howed
      rcases hstep with ⟨⟨actions, rfl⟩, hnone⟩ | ⟨rfl, -⟩
      · rw [hlane] at hnone
        exact hnone (by simpa [Step.start, Owed] using howed)
      · exact howed (releaseHeld_none hstart)

theorem not_ending_of_quiet (h : Quiet m) : ∀ t ∈ m.tasks, ending t = false := by
  intro t ht
  rw [← Bool.not_eq_true]
  intro hending
  have hdead := h t ht
  rw [live_of_ending hending] at hdead
  cases hdead

theorem Covered.no_press (h : Covered m) (hnot : ¬Holding m) :
    ∀ t ∈ m.tasks, t.cancelled = false → presses t.body = false := by
  intro t ht hcancelled
  rw [← Bool.not_eq_true]
  exact fun hpress => hnot (h.inline_press t ht hcancelled hpress).2.1

/-- Cancelling tasks sets no other one to work. -/
theorem Free.of_cancelTask {task : Option ℕ} (hquiet : Quiet (m.cancelTask task))
    (hrunning : m.running = true)
    (hwaits : ∀ t ∈ m.tasks, t.cancelled = false → waits t.body = false)
    (hpress : ∀ t ∈ m.tasks, t.cancelled = false → presses t.body = false)
    (hlane : m.sequences = false → m.lane = []) : Free (m.cancelTask task) :=
  ⟨hrunning, fun t ht hc => hwaits t (mem_of_cancelTask ht hc).1 hc,
    fun t ht hc => hpress t (mem_of_cancelTask ht hc).1 hc, not_ending_of_quiet hquiet, hlane⟩

/-- A timer joins the tasks. -/
theorem Free.join (h : Free m) (hpress : presses t.body = false) (hwaits : waits t.body = false)
    (hending : ending t = false) :
    Free { m with tasks := m.tasks ++ [t] } := by
  refine ⟨h.running, fun t' ht' hc => ?_, fun t' ht' hc => ?_, fun t' ht' => ?_,
    h.lane_sequences⟩
  · rcases List.mem_append.mp ht' with ht' | ht'
    · exact h.not_waiting t' ht' hc
    · rw [List.mem_singleton.mp ht']
      exact hwaits
  · rcases List.mem_append.mp ht' with ht' | ht'
    · exact h.no_press t' ht' hc
    · rw [List.mem_singleton.mp ht']
      exact hpress
  · rcases List.mem_append.mp ht' with ht' | ht'
    · exact h.no_ending t' ht'
    · rw [List.mem_singleton.mp ht']
      exact hending

theorem Covered.onDown (h : Covered m) (now : ℤ) : Covered (m.onDown now) := by
  have hordered := h.toOrdered.onDown now
  unfold SuperkeyMachine.onDown at hordered ⊢
  split at hordered
  · rename_i hstate
    have hnot : ¬Holding m := by simp [Holding, hstate]
    have howed : ¬Owed (m.outputs.heldActions ≠ []) m.lane := fun ho => hnot (h.owed_holding ho)
    have hfree : Free m := ⟨h.running, h.not_waiting, h.no_press hnot,
      not_ending_of_quiet (h.quiet_idle hstate), h.lane_sequences⟩
    unfold transitionToDownWait at hordered ⊢
    simp only at hordered ⊢
    split at hordered
    · have hdown : Free { m with state := .downWait, pressStartedAt := some now, slots := [] } :=
        ⟨hfree.running, hfree.not_waiting, hfree.no_press, hfree.no_ending, hfree.lane_sequences⟩
      rename_i hhold
      rw [if_pos hhold]
      exact hdown.covered hordered fun ho => absurd ho howed
    · have hdown : Free { m with
          state := .downWait, pressStartedAt := some now, slots := [], holdTask := some m.nextId
          nextId := m.nextId + 1 } :=
        ⟨hfree.running, hfree.not_waiting, hfree.no_press, hfree.no_ending, hfree.lane_sequences⟩
      rename_i hhold
      rw [if_neg hhold]
      exact (hdown.join rfl rfl rfl).covered hordered fun ho => absurd ho howed
  · rename_i hstate
    have hnot : ¬Holding m := by simp [Holding, hstate]
    have howed : ¬Owed (m.outputs.heldActions ≠ []) m.lane := fun ho => hnot (h.owed_holding ho)
    have hfree := Free.of_cancelTask (h.quiet_window hstate) h.running h.not_waiting
      (h.no_press hnot) h.lane_sequences
    unfold onSecondDown at hordered ⊢
    simp only at hordered ⊢
    split at hordered
    · have hdown : Free { m.cancelDoubleTapTask with
          state := .downWait2, pressStartedAt := some now } :=
        ⟨hfree.running, hfree.not_waiting, hfree.no_press, hfree.no_ending, hfree.lane_sequences⟩
      rename_i hactions
      rw [if_pos hactions]
      exact hdown.covered hordered fun ho => absurd ho howed
    · have hdown : Free { m.cancelDoubleTapTask with
          state := .downWait2, pressStartedAt := some now, holdTask := some m.nextId
          nextId := m.nextId + 1 } :=
        ⟨hfree.running, hfree.not_waiting, hfree.no_press, hfree.no_ending, hfree.lane_sequences⟩
      rename_i hactions
      rw [if_neg hactions]
      exact (hdown.join rfl rfl rfl).covered hordered fun ho => absurd ho howed
  · exact h

/-- A release finds no task that is still pressing or to return the machine to `idle`. -/
theorem Covered.onUp (h : Covered m) (now : ℤ)
    (hguard : m.state ≠ .idle → m.state ≠ .upWait →
      ∀ t ∈ m.tasks, ending t = false ∧ (t.cancelled = false → presses t.body = false)) :
    Covered (m.onUp now) := by
  have hordered := h.toOrdered.onUp now fun hidle hup t ht => (hguard hidle hup t ht).1
  have hwaiting : m.state = .downWait ∨ m.state = .downWait2 → Covered (m.onUp now) := by
    intro hstate
    have hidle : m.state ≠ .idle := by rcases hstate with hs | hs <;> simp [hs]
    have hup : m.state ≠ .upWait := by rcases hstate with hs | hs <;> simp [hs]
    have hnot : ¬Holding m := by rcases hstate with hs | hs <;> simp [Holding, hs]
    have howed : ¬Owed (m.outputs.heldActions ≠ []) m.lane := fun ho => hnot (h.owed_holding ho)
    have hquiet := quiet_released h.toOrdered hstate fun t ht => (hguard hidle hup t ht).1
    have hreleased := Free.of_cancelTask
      (m := { m with nextId := m.nextId + 1, pressStartedAt := none }) hquiet h.running
      h.not_waiting (h.no_press hnot) h.lane_sequences
    have hfree : ∀ state slots, Free { released m with state := state, slots := slots } :=
      fun _ _ => ⟨hreleased.running, hreleased.not_waiting, hreleased.no_press,
        hreleased.no_ending, hreleased.lane_sequences⟩
    rcases onUp_waiting hstate now with heq | ⟨-, heq⟩ | ⟨slot, actions, heq⟩
    · rw [heq] at hordered ⊢
      exact (hfree .idle m.slots).covered hordered fun ho => absurd ho howed
    · rw [heq] at hordered ⊢
      have htimer : Free { released m with
          state := .upWait, doubleTapTask := some (released m).nextId
          nextId := (released m).nextId + 1 } :=
        ⟨hreleased.running, hreleased.not_waiting, hreleased.no_press, hreleased.no_ending,
          hreleased.lane_sequences⟩
      exact (htimer.join rfl rfl rfl).covered hordered fun ho => absurd ho howed
    · rw [heq] at hordered ⊢
      have hrecord : Free ((released m).recordSlot slot) := hfree m.state (m.slots ++ [slot])
      exact hrecord.runSequence hordered (Or.inl ⟨⟨actions, rfl⟩, howed⟩)
  have hholding : Holding m → Covered (m.onUp now) := by
    intro hstate
    have hidle : m.state ≠ .idle := by rcases hstate with hs | hs <;> simp [hs]
    have hup : m.state ≠ .upWait := by rcases hstate with hs | hs <;> simp [hs]
    rw [onUp_holding h.holds hstate] at hordered ⊢
    have hfree : Free { m with nextId := m.nextId + 1 } :=
      ⟨h.running, h.not_waiting, fun t ht => (hguard hidle hup t ht).2,
        fun t ht => (hguard hidle hup t ht).1, h.lane_sequences⟩
    exact hfree.runSequence hordered (Or.inr ⟨rfl, hstate⟩)
  cases hstate : m.state with
  | idle => rwa [onUp_other (Or.inl hstate)]
  | downWait => exact hwaiting (Or.inl hstate)
  | upWait => rwa [onUp_other (Or.inr hstate)]
  | holding => exact hholding (Or.inl hstate)
  | downWait2 => exact hwaiting (Or.inr hstate)
  | tapHolding => exact hholding (Or.inr hstate)

/-- The other tasks stay covered when one is taken off the list. -/
theorem Covered.take (h : Covered m) (hperm : m.tasks.Perm (t :: rest)) :
    Covered { m with tasks := rest } := by
  have hmem : ∀ t' ∈ rest, t' ∈ m.tasks := fun t' ht' =>
    hperm.mem_iff.mpr (List.mem_cons_of_mem _ ht')
  refine { (h.toOrdered.take hperm).1 with
    running := h.running, not_waiting := fun t' ht' => h.not_waiting t' (hmem t' ht'),
    inline_press := fun t' ht' hc hp => ?_, owed_holding := h.owed_holding,
    lane_free := fun t' ht' => h.lane_free t' (hmem t' ht'),
    lane_sequences := h.lane_sequences }
  obtain ⟨htask, hholding, hnone⟩ := h.inline_press t' (hmem t' ht') hc hp
  exact ⟨htask, hholding, fun t'' ht'' => hnone t'' (hmem t'' ht'')⟩

/-- A task that leaves the state alone goes on with the outputs `out`. -/
theorem Covered.proceed_other (h : Covered m) {id : ℕ} {after : After} {body : Option Body}
    (hafter : after ≠ .becomeIdle)
    (hbody : ∀ b, body = some b → sleeping b = false ∧ waits b = false ∧ (presses b = true →
      m.holdTask = some id ∧ Holding m ∧ ∀ t ∈ m.tasks, ending t = false))
    (howed : Owed (out.heldActions ≠ []) m.lane → Holding m)
    (hordered : Ordered ({ m with outputs := out }.proceed id after body)) :
    Covered ({ m with outputs := out }.proceed id after body) := by
  obtain ⟨out', tasks, heq, hjoins, -, hshrinks⟩ := Order.proceed_other
    { m with outputs := out } id hafter fun b hb => (hbody b hb).1
  rw [heq] at hordered ⊢
  have hnew : ∀ t ∈ tasks, ending t = false := by
    intro t ht
    rw [← Bool.not_eq_true]
    intro hending
    have hlive := live_of_ending hending
    rw [(hjoins t ht).not_live] at hlive
    cases hlive
  refine { hordered with
    running := h.running, not_waiting := fun t ht hc => ?_, inline_press := fun t ht hc hp => ?_,
    owed_holding := fun ho => howed (ho.mono hshrinks), lane_free := fun t ht hending => ?_,
    lane_sequences := h.lane_sequences }
  · rcases List.mem_append.mp ht with ht | ht
    · exact h.not_waiting t ht hc
    · rcases (hjoins t ht).in_body with hb | hb
      · exact (hbody _ hb).2.1
      · rw [hb]
        rfl
  · have hall : (∀ t' ∈ m.tasks, ending t' = false) →
        ∀ t' ∈ m.tasks ++ tasks, ending t' = false := by
      intro hold t' ht'
      rcases List.mem_append.mp ht' with ht' | ht'
      · exact hold t' ht'
      · exact hnew t' ht'
    rcases List.mem_append.mp ht with ht | ht
    · obtain ⟨htask, hholding, hnone⟩ := h.inline_press t ht hc hp
      exact ⟨htask, hholding, hall hnone⟩
    · rcases (hjoins t ht).in_body with hb | hb
      · obtain ⟨htask, hholding, hnone⟩ := (hbody _ hb).2.2 hp
        rw [← (hjoins t ht).same_id] at htask
        exact ⟨htask, hholding, hall hnone⟩
      · rw [hb] at hp
        cases hp
  · rcases List.mem_append.mp ht with ht | ht
    · exact h.lane_free t ht hending
    · rw [hnew t ht] at hending
      cases hending

/-- The hold timer starts a hold: its own task presses, or the lane does. -/
theorem Free.startHold (h : Free m) (hholding : Holding m) {id : ℕ} (hid : m.holdTask = some id)
    {actions : List SuperkeyActionData} {detach : Bool}
    (hordered : Ordered (m.runSequence id (.press actions) detach .done)) :
    Covered (m.runSequence id (.press actions) detach .done) := by
  rcases runSequence_cases m id (.press actions) detach .done with
    ⟨hseq, -, heq⟩ | ⟨hseq, -, heq⟩ | ⟨hlane, heq⟩
  · rw [heq] at hordered ⊢
    have hfree : Free { m with
        outputs := ((Step.press actions).start m.outputs).1
        lane := ((Step.press actions).start m.outputs).2.toList.map fun body =>
          { id := m.nextId, body := body, after := .sequence }
        nextId := m.nextId + 1 } :=
      ⟨h.running, h.not_waiting, h.no_press, h.no_ending,
        fun hfalse => Bool.noConfusion (hseq.symm.trans hfalse)⟩
    exact hfree.covered hordered fun _ => hholding
  · rw [heq] at hordered ⊢
    have hfree : Free { m with
        lane := m.lane ++ [Task.mk m.nextId (.waiting (.press actions)) .sequence false]
        nextId := m.nextId + 1 } :=
      ⟨h.running, h.not_waiting, h.no_press, h.no_ending,
        fun hfalse => Bool.noConfusion (hseq.symm.trans hfalse)⟩
    exact hfree.covered hordered fun _ => hholding
  · rw [heq] at hordered ⊢
    have hfree : Free { m with outputs := ((Step.press actions).start m.outputs).1 } :=
      ⟨h.running, h.not_waiting, h.no_press, h.no_ending, h.lane_sequences⟩
    have hquiet : Ordered { m with outputs := ((Step.press actions).start m.outputs).1 } := by
      cases hbody : ((Step.press actions).start m.outputs).2 with
      | none =>
        rw [hbody] at hordered
        exact hordered
      | some b =>
        rw [hbody] at hordered
        refine ⟨?_, fun t ht => hordered.fits t (List.mem_append_left _ ht), hordered.holds⟩
        have hone : (m.tasks ++ [_]).countP live ≤ 1 := hordered.one
        rw [List.countP_append] at hone
        show m.tasks.countP live ≤ 1
        omega
    refine (hfree.covered hquiet fun _ => hholding).proceed_other nofun (fun b hb => ?_)
      (fun _ => hholding) hordered
    exact ⟨start_awake hb, (pressNext_body hb).2, fun _ => ⟨hid, hholding, h.no_ending⟩⟩

/-- A task that is not suspended in a timer goes on. -/
theorem Covered.resume_awake (h : Covered m) (hperm : m.tasks.Perm (t :: rest))
    (hcancelled : t.cancelled = false) (hawake : sleeping t.body = false) :
    Covered ({ m with tasks := rest }.resumeTask t) := by
  have hordered := h.toOrdered.resumeTask hperm
  have hrest := h.take hperm
  have hmem : t ∈ m.tasks := hperm.mem_iff.mpr List.mem_cons_self
  rw [resumeTask_awake hcancelled hawake] at hordered ⊢
  by_cases hending : ending t = true
  · have hafter : t.after = .becomeIdle := by
      simp only [ending, Bool.and_eq_true, decide_eq_true_eq] at hending
      exact hending.2
    have hlane := h.lane_free t hmem hending
    have hpress : ∀ t' ∈ m.tasks, t'.cancelled = false → presses t'.body = false := by
      intro t' ht' hc
      rw [← Bool.not_eq_true]
      intro hp
      have hnone := (h.inline_press t' ht' hc hp).2.2 t hmem
      rw [hnone] at hending
      cases hending
    have hquiet := (h.toOrdered.take hperm).2 (live_of_ending hending)
    have hfree : Free { m with outputs := (t.body.resume m.outputs).1, tasks := rest } :=
      ⟨h.running, hrest.not_waiting,
        fun t' ht' => hpress t' (hperm.mem_iff.mpr (List.mem_cons_of_mem _ ht')),
        not_ending_of_quiet hquiet, h.lane_sequences⟩
    have hnotpress := hpress t hmem hcancelled
    have hheld : (t.body.resume m.outputs).1.heldActions ≠ [] → Holding m := by
      intro hheld
      refine h.owed_holding ?_
      rw [hlane]
      exact resume_shrinks hnotpress hheld
    rw [hafter] at hordered ⊢
    refine hfree.proceed hordered (fun b hb => ?_) fun hnone howed => ?_
    · obtain ⟨hp, -, hw⟩ := resume_body hb
      exact ⟨hlane, hp.trans hnotpress, hw, hheld⟩
    · have howed : Owed ((t.body.resume m.outputs).1.heldActions ≠ []) m.lane := howed
      rw [hlane] at howed
      have hholding := hheld howed
      have hfits := h.fits t hmem (live_of_ending hending)
      have hbody : t.body = .releasing := by
        rcases hholding with hs | hs <;> (simp only [Fits, hs] at hfits; exact hfits.2)
      rw [hbody] at hnone howed
      exact howed (releaseHeld_none hnone)
  · have hafter : t.after ≠ .becomeIdle := by
      intro hafter
      simp [ending, hcancelled, hawake, hafter] at hending
    refine hrest.proceed_other hafter (fun b hb => ?_) (fun howed => ?_) hordered
    · obtain ⟨hp, -, hw⟩ := resume_body hb
      refine ⟨Order.resume_awake hb, hw, fun hpress => ?_⟩
      rw [hp] at hpress
      obtain ⟨htask, hholding, hnone⟩ := h.inline_press t hmem hcancelled hpress
      exact ⟨htask, hholding,
        fun t' ht' => hnone t' (hperm.mem_iff.mpr (List.mem_cons_of_mem _ ht'))⟩
    · by_cases hpress : presses t.body = true
      · exact (h.inline_press t hmem hcancelled hpress).2.1
      · exact h.owed_holding (howed.mono (resume_shrinks (by simpa using hpress)))

theorem Covered.resumeTask (h : Covered m) (hperm : m.tasks.Perm (t :: rest)) :
    Covered ({ m with tasks := rest }.resumeTask t) := by
  have hordered := h.toOrdered.resumeTask hperm
  have hrest := h.take hperm
  have hmem : t ∈ m.tasks := hperm.mem_iff.mpr List.mem_cons_self
  cases hcancelled : t.cancelled with
  | true =>
    rw [resumeTask_cancelled hcancelled] at hordered ⊢
    refine hrest.proceed_other (afterCancel_ne t) (fun b hb => ?_) (fun howed => ?_) hordered
    · obtain ⟨hp, hw⟩ := cancel_body hb
      refine ⟨cancel_awake hb, hw, fun hpress => ?_⟩
      rw [hp] at hpress
      cases hpress
    · exact h.owed_holding (by simpa using howed)
  | false =>
    by_cases hawake : sleeping t.body = true
    · have hlive : live t = true := by simp [live, hcancelled, hawake]
      have hfits := h.fits t hmem hlive
      have hquiet := (h.toOrdered.take hperm).2 hlive
      rcases (live_cases hlive).2 with hbody | hbody | ⟨-, hfalse⟩
      · rw [resumeTask_holdTimeout hcancelled hbody] at hordered ⊢
        obtain ⟨hdown, hdown2⟩ := hfits.hold_actions hbody
        rcases holdTimeout_cases { m with tasks := rest } t.id hdown hdown2 with
          heq | ⟨-, hwait, state, slot, actions, hstate, heq⟩
        · rw [heq]
          exact hrest
        · rw [heq] at hordered ⊢
          have hwait : m.state = .downWait ∨ m.state = .downWait2 := hwait
          have hnot : ¬Holding m := by rcases hwait with hs | hs <;> simp [Holding, hs]
          have hfree : Free ({ m with
              tasks := rest, pressStartedAt := none, state := state }.recordSlot slot) :=
            ⟨h.running, hrest.not_waiting, hrest.no_press hnot, not_ending_of_quiet hquiet,
              h.lane_sequences⟩
          refine hfree.startHold ?_ (hfits.holdTask_eq hbody hwait) hordered
          exact hstate.imp And.left And.left
      · rw [resumeTask_doubleTapTimeout hcancelled hbody] at hordered ⊢
        rcases doubleTapTimeout_cases { m with tasks := rest } t.id with
          heq | ⟨-, hstate, heq⟩
        · rw [heq]
          exact hrest
        · have hstate : m.state = .upWait := hstate
          have hnot : ¬Holding m := by simp [Holding, hstate]
          have howed : ¬Owed (m.outputs.heldActions ≠ []) m.lane :=
            fun ho => hnot (h.owed_holding ho)
          have hfree : ∀ state slots, Free { m with
              tasks := rest, state := state, slots := slots } := fun _ _ =>
            ⟨h.running, hrest.not_waiting, hrest.no_press hnot, not_ending_of_quiet hquiet,
              h.lane_sequences⟩
          rcases heq with heq | heq
          · rw [heq] at hordered ⊢
            exact (hfree .idle m.slots).covered hordered fun ho => absurd ho howed
          · rw [heq] at hordered ⊢
            have hrecord : Free ({ m with tasks := rest }.recordSlot .tap) :=
              hfree m.state (m.slots ++ [Slot.tap])
            exact hrecord.runSequence hordered (Or.inl ⟨⟨_, rfl⟩, howed⟩)
      · rw [hfalse] at hawake
        cases hawake
    · exact h.resume_awake hperm hcancelled (by simpa using hawake)

/-- The first task of the lane goes on: the lane owes no more than before. -/
theorem owed_resume
    (h : Owed ((t.body.resume out).1.heldActions ≠ [])
      (((t.body.resume out).2.toList.map fun body => { t with body := body }) ++ rest)) :
    Owed (out.heldActions ≠ []) (t :: rest) := by
  unfold Owed
  by_cases hpress : presses t.body = true
  · rw [if_pos hpress]
    cases hbody : (t.body.resume out).2 with
    | none =>
      rw [hbody] at h
      exact h.mono fun _ => trivial
    | some b =>
      rw [hbody] at h
      have hb : presses b = true := (resume_body hbody).1.trans hpress
      simpa [Owed, hb] using h
  · rw [if_neg hpress]
    have hpress : presses t.body = false := by simpa using hpress
    by_cases hrelease : releases t.body = true
    · rw [if_pos hrelease]
      cases hbody : (t.body.resume out).2 with
      | none =>
        rw [hbody] at h
        refine h.mono fun hheld => ?_
        have hrun : t.body.resume out = Machine.releaseHeld out := by
          cases hkind : t.body with
          | waiting step =>
            rw [hkind] at hrelease
            cases step with
            | release => rfl
            | tap actions => cases hrelease
            | press actions => cases hrelease
          | releasing => rfl
          | holdTimeout => rw [hkind] at hrelease; cases hrelease
          | doubleTapTimeout => rw [hkind] at hrelease; cases hrelease
          | tapping pressed todo => rw [hkind] at hrelease; cases hrelease
          | tapSleep pressed => rw [hkind] at hrelease; cases hrelease
          | tapReleasing left => rw [hkind] at hrelease; cases hrelease
          | pressing todo => rw [hkind] at hrelease; cases hrelease
        rw [hrun] at hbody hheld
        exact hheld (releaseHeld_none hbody)
      | some b =>
        rw [hbody] at h
        have hb := resume_body hbody
        simpa [Owed, hb.1.trans hpress, hb.2.1.trans hrelease] using h
    · rw [if_neg hrelease]
      have hrelease : releases t.body = false := by simpa using hrelease
      cases hbody : (t.body.resume out).2 with
      | none =>
        rw [hbody] at h
        exact h.mono (resume_shrinks hpress)
      | some b =>
        rw [hbody] at h
        have hb := resume_body hbody
        have htail : Owed ((t.body.resume out).1.heldActions ≠ []) rest := by
          simpa [Owed, hb.1.trans hpress, hb.2.1.trans hrelease] using h
        exact htail.mono (resume_shrinks hpress)

theorem Covered.resumeLane (h : Covered m) (hlane : m.lane = t :: rest) :
    Covered (m.resumeLane t rest) := by
  refine { h.toOrdered.resumeLane t rest with
    running := h.running, not_waiting := h.not_waiting, inline_press := h.inline_press,
    owed_holding := fun howed => ?_, lane_free := fun t' ht' hending => ?_,
    lane_sequences := fun hseq => ?_ }
  · refine h.owed_holding ?_
    rw [hlane]
    exact owed_resume howed
  · have hempty := h.lane_free t' ht' hending
    rw [hlane] at hempty
    cases hempty
  · have hempty := h.lane_sequences hseq
    rw [hlane] at hempty
    cases hempty

end Keymasq.Superkey.Release
