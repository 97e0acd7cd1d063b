import Keymasq.Superkey.Order

/-!
# One slot per gesture

Between leaving `idle` and returning to it the machine runs at most one slot,
provided no key event overtakes a task that is still to return it to `idle`.
-/

namespace Keymasq.Superkey.Slots
open Foundation.Transition Foundation.Lists Machine Machine.SuperkeyMachine Superkey.Order

/-- No slot has run in a wait, unless the wait is about to end. -/
structure OneSlot (m : SuperkeyMachine) : Prop extends Ordered m where
  at_most_one : m.slots.length ≤ 1
  none_yet : m.state = .downWait ∨ m.state = .upWait ∨ m.state = .downWait2 →
    (∀ t ∈ m.tasks, ending t = false) → m.slots = []

@[simp] theorem proceed_slots (m : SuperkeyMachine) (id : ℕ) (after : After)
    (body : Option Body) : (m.proceed id after body).slots = m.slots := by
  unfold proceed
  split
  · rfl
  · split
    · rfl
    · rfl
    · rfl
    · simp only
      split <;> rfl

@[simp] theorem runSequence_slots (m : SuperkeyMachine) (id : ℕ) (step : Step) (detach : Bool)
    (after : After) : (m.runSequence id step detach after).slots = m.slots := by
  obtain ⟨out, lane, next, body, heq, -⟩ := runSequence_proceed m id step detach after
  rw [heq, proceed_slots]

/-- The machine is idle, or a task is about to make it so. -/
def Ends (m : SuperkeyMachine) : Prop :=
  m.state = .idle ∨ ∃ t ∈ m.tasks, ending t = true

theorem proceed_ends (m : SuperkeyMachine) (id : ℕ) {body : Option Body}
    (hbody : ∀ b, body = some b → sleeping b = false) : Ends (m.proceed id .becomeIdle body) := by
  cases body with
  | none => exact Or.inl rfl
  | some b =>
    refine Or.inr ⟨_, List.mem_append_right _ (List.mem_singleton_self _), ?_⟩
    simp [ending, hbody b rfl]

theorem runSequence_ends (m : SuperkeyMachine) (id : ℕ) (step : Step) (detach : Bool) :
    Ends (m.runSequence id step detach .becomeIdle) := by
  obtain ⟨out, lane, next, body, heq, hbody⟩ :=
    runSequence_proceed m id step detach .becomeIdle
  rw [heq]
  exact proceed_ends _ id fun b hb => start_awake (hbody b hb)

variable {m : SuperkeyMachine} {rest : List Task}

theorem Ends.oneSlot (h : Ends m) (hordered : Ordered m) (hcount : m.slots.length ≤ 1) :
    OneSlot m := by
  refine { hordered with at_most_one := hcount, none_yet := fun hwait hnone => ?_ }
  rcases h with hidle | ⟨t, ht, hending⟩
  · simp [hidle] at hwait
  · rw [hnone t ht] at hending
    cases hending

theorem OneSlot.onDown (h : OneSlot m) (now : ℤ)
    (hnone : m.state = .upWait → ∀ t ∈ m.tasks, ending t = false) : OneSlot (m.onDown now) := by
  have hordered := h.toOrdered.onDown now
  have hslots : (m.onDown now).slots = [] ∨ m.onDown now = m := by
    unfold SuperkeyMachine.onDown
    split
    · refine Or.inl ?_
      unfold transitionToDownWait
      simp only
      split <;> rfl
    · rename_i hstate
      have hempty : m.slots = [] := h.none_yet (Or.inr (Or.inl hstate)) (hnone hstate)
      refine Or.inl (Eq.trans ?_ hempty)
      unfold onSecondDown
      simp only
      split <;> rfl
    · exact Or.inr rfl
  rcases hslots with hslots | heq
  · exact { hordered with at_most_one := by simp [hslots], none_yet := fun _ _ => hslots }
  · rwa [heq]

theorem OneSlot.onUp (h : OneSlot m) (now : ℤ)
    (hnone : m.state ≠ .idle → m.state ≠ .upWait → ∀ t ∈ m.tasks, ending t = false) :
    OneSlot (m.onUp now) := by
  have hordered := h.toOrdered.onUp now hnone
  have hwaiting : m.state = .downWait ∨ m.state = .downWait2 → OneSlot (m.onUp now) := by
    intro hstate
    have hempty : m.slots = [] := by
      rcases hstate with hs | hs
      · exact h.none_yet (Or.inl hs) (hnone (by simp [hs]) (by simp [hs]))
      · exact h.none_yet (Or.inr (Or.inr hs)) (hnone (by simp [hs]) (by simp [hs]))
    have hreleased : (released m).slots = [] := hempty
    rcases onUp_waiting hstate now with heq | ⟨-, heq⟩ | ⟨slot, actions, heq⟩
    · rw [heq] at hordered ⊢
      have hslots : (released m).becomeIdle.slots = [] := hreleased
      exact { hordered with at_most_one := by simp [hslots], none_yet := fun _ _ => hslots }
    · rw [heq] at hordered ⊢
      have hslots : ({ released m with state := .upWait }.startDoubleTapTask).slots = [] :=
        hreleased
      exact { hordered with at_most_one := by simp [hslots], none_yet := fun _ _ => hslots }
    · rw [heq] at hordered ⊢
      refine (runSequence_ends _ _ _ _).oneSlot hordered ?_
      rw [runSequence_slots]
      simp [recordSlot, hreleased]
  have hholding : m.state = .holding ∨ m.state = .tapHolding → OneSlot (m.onUp now) := by
    intro hstate
    rw [onUp_holding h.holds hstate] at hordered ⊢
    refine (runSequence_ends _ _ _ _).oneSlot hordered ?_
    rw [runSequence_slots]
    exact h.at_most_one
  cases hstate : m.state with
  | idle => rwa [onUp_other (Or.inl hstate)]
  | downWait => exact hwaiting (Or.inl hstate)
  | upWait => rwa [onUp_other (Or.inr hstate)]
  | holding => exact hholding (Or.inl hstate)
  | downWait2 => exact hwaiting (Or.inr hstate)
  | tapHolding => exact hholding (Or.inr hstate)

/-- No task was about to end the wait if none of the others is and the resumed one was not. -/
theorem none_ending {t : Task} (hperm : m.tasks.Perm (t :: rest)) (ht : ending t = false)
    (hrest : ∀ t' ∈ rest, ending t' = false) :
    ∀ t' ∈ m.tasks, ending t' = false := by
  intro t' ht'
  rcases List.mem_cons.mp (hperm.mem_iff.mp ht') with rfl | ht'
  · exact ht
  · exact hrest t' ht'

theorem OneSlot.proceed_other (h : OneSlot m) {t : Task} (hperm : m.tasks.Perm (t :: rest))
    (ht : ending t = false) {out : Outputs} {after : After} {body : Option Body}
    (hafter : after ≠ .becomeIdle) (hbody : ∀ b, body = some b → sleeping b = false)
    (hordered : Ordered ({ m with outputs := out, tasks := rest }.proceed t.id after body)) :
    OneSlot ({ m with outputs := out, tasks := rest }.proceed t.id after body) := by
  obtain ⟨out', tasks, heq, -, -, -⟩ := Order.proceed_other
    { m with outputs := out, tasks := rest } t.id hafter hbody
  rw [heq] at hordered ⊢
  refine { hordered with at_most_one := h.at_most_one, none_yet := fun hwait hnone => ?_ }
  refine h.none_yet hwait (none_ending hperm ht fun t' ht' => ?_)
  exact hnone t' (List.mem_append_left _ ht')

theorem OneSlot.resumeTask (h : OneSlot m) {t : Task} (hperm : m.tasks.Perm (t :: rest)) :
    OneSlot ({ m with tasks := rest }.resumeTask t) := by
  have hordered := h.toOrdered.resumeTask hperm
  have hquiet := (h.toOrdered.take hperm).2
  cases hcancelled : t.cancelled with
  | true =>
    rw [resumeTask_cancelled hcancelled] at hordered ⊢
    exact h.proceed_other hperm (by simp [ending, hcancelled]) (afterCancel_ne t)
      (fun b hb => cancel_awake hb) hordered
  | false =>
    by_cases hlive : live t = true
    · have hfits := h.fits t (hperm.mem_iff.mpr List.mem_cons_self) hlive
      have hrest : ∀ t' ∈ rest, ending t' = false := by
        intro t' ht'
        rw [← Bool.not_eq_true]
        intro hending
        have hdead : live t' = false := hquiet hlive t' ht'
        rw [live_of_ending hending] at hdead
        cases hdead
      rcases (live_cases hlive).2 with hbody | hbody | ⟨hending, hawake⟩
      · rw [resumeTask_holdTimeout hcancelled hbody] at hordered ⊢
        have ht : ending t = false := by simp [ending, hbody, sleeping]
        obtain ⟨hdown, hdown2⟩ := hfits.hold_actions hbody
        rcases holdTimeout_cases { m with tasks := rest } t.id hdown hdown2 with
          heq | ⟨-, hwait, state, slot, actions, hstate, heq⟩
        · rw [heq] at hordered ⊢
          exact { hordered with
            at_most_one := h.at_most_one
            none_yet := fun hwait _ => h.none_yet hwait (none_ending hperm ht hrest) }
        · rw [heq] at hordered ⊢
          have hwait : m.state = .downWait ∨ m.state = .upWait ∨ m.state = .downWait2 :=
            hwait.imp_right Or.inr
          have hempty := h.none_yet hwait (none_ending hperm ht hrest)
          obtain ⟨out, lane, next, body, hproceed, hstart⟩ := runSequence_proceed
            ({ m with tasks := rest, pressStartedAt := none, state := state }.recordSlot slot)
            t.id (.press actions) (runsNaturalMove actions) .done
          rw [hproceed] at hordered ⊢
          obtain ⟨out', tasks, hother, -, -, -⟩ := Order.proceed_other
            { { m with tasks := rest, pressStartedAt := none, state := state }.recordSlot
              slot with outputs := out, lane := lane, nextId := next } t.id
            (by decide : After.done ≠ .becomeIdle) fun b hb => start_awake (hstart b hb)
          rw [hother] at hordered ⊢
          refine { hordered with at_most_one := ?_, none_yet := fun hwait' _ => ?_ }
          · show (m.slots ++ [slot]).length ≤ 1
            simp [hempty]
          · have hwait' : state = .downWait ∨ state = .upWait ∨ state = .downWait2 := hwait'
            rcases hstate with ⟨rfl, -⟩ | ⟨rfl, -⟩ <;> simp at hwait'
      · rw [resumeTask_doubleTapTimeout hcancelled hbody] at hordered ⊢
        have ht : ending t = false := by simp [ending, hbody, sleeping]
        rcases doubleTapTimeout_cases { m with tasks := rest } t.id with
          heq | ⟨-, hstate, heq | heq⟩
        · rw [heq] at hordered ⊢
          exact { hordered with
            at_most_one := h.at_most_one
            none_yet := fun hwait _ => h.none_yet hwait (none_ending hperm ht hrest) }
        · rw [heq] at hordered ⊢
          have hends : Ends { m with tasks := rest }.becomeIdle := Or.inl rfl
          exact hends.oneSlot hordered h.at_most_one
        · rw [heq] at hordered ⊢
          have hempty := h.none_yet (Or.inr (Or.inl hstate)) (none_ending hperm ht hrest)
          refine (runSequence_ends _ _ _ _).oneSlot hordered ?_
          rw [runSequence_slots]
          simp [recordSlot, hempty]
      · rw [resumeTask_awake hcancelled hawake] at hordered ⊢
        have hafter : t.after = .becomeIdle := by
          simp only [ending, Bool.and_eq_true, decide_eq_true_eq] at hending
          exact hending.2
        rw [hafter] at hordered ⊢
        refine (proceed_ends _ _ fun b hb => resume_awake hb).oneSlot hordered ?_
        rw [proceed_slots]
        exact h.at_most_one
    · have hdead : live t = false := by simpa using hlive
      have ht : ending t = false := by
        rw [← Bool.not_eq_true]
        exact fun hending => hlive (live_of_ending hending)
      simp only [live, hcancelled, Bool.not_false, Bool.true_and, Bool.or_eq_false_iff,
        decide_eq_false_iff_not] at hdead
      rw [resumeTask_awake hcancelled hdead.1] at hordered ⊢
      exact h.proceed_other hperm ht hdead.2 (fun b hb => resume_awake hb) hordered

/-! ## Runs of key events and timers -/

/-- A key event the machine reacts to while a task is still to return it to `idle`. -/
def Overtakes (m : SuperkeyMachine) : Op → Prop
  | .onDown _ => m.state = .upWait ∧ ∃ t ∈ m.tasks, ending t = true
  | .onUp _ => m.state ≠ .idle ∧ m.state ≠ .upWait ∧ ∃ t ∈ m.tasks, ending t = true
  | _ => False

instance decidableOvertakes (m : SuperkeyMachine) : ∀ op, Decidable (Overtakes m op)
  | .onDown _ => inferInstanceAs (Decidable (m.state = .upWait ∧ ∃ t ∈ m.tasks, ending t = true))
  | .onUp _ => inferInstanceAs (Decidable
      (m.state ≠ .idle ∧ m.state ≠ .upWait ∧ ∃ t ∈ m.tasks, ending t = true))
  | .stop => inferInstanceAs (Decidable False)
  | .resume _ => inferInstanceAs (Decidable False)

theorem OneSlot.step {m' : SuperkeyMachine} (h : OneSlot m) {op : Op} (hstop : op ≠ .stop)
    (hguard : ¬Overtakes m op) (hstep : step m op = some m') : OneSlot m' := by
  cases op with
  | onDown now =>
    cases hstep
    refine h.onDown now fun hstate t ht => ?_
    rw [← Bool.not_eq_true]
    exact fun hending => hguard ⟨hstate, t, ht, hending⟩
  | onUp now =>
    cases hstep
    refine h.onUp now fun hidle hup t ht => ?_
    rw [← Bool.not_eq_true]
    exact fun hending => hguard ⟨hidle, hup, t, ht, hending⟩
  | stop => exact absurd rfl hstop
  | resume id =>
    simp only [Machine.step] at hstep
    cases hfind : m.tasks.find? fun t => t.id = id with
    | some t =>
      rw [hfind] at hstep
      cases hstep
      exact h.resumeTask (perm_cons_eraseP hfind)
    | none =>
      rw [hfind] at hstep
      cases hlane : m.lane with
      | nil =>
        rw [hlane] at hstep
        cases hstep
      | cons t rest =>
        rw [hlane] at hstep
        simp only at hstep
        split at hstep
        · cases hstep
          exact { h.toOrdered.resumeLane t rest with
            at_most_one := h.at_most_one, none_yet := h.none_yet }
        · cases hstep

theorem oneSlot_start (config : SuperkeyConfig) (sequences : Bool) :
    OneSlot { config := config, sequences := sequences } := by
  have hquiet : Quiet { config := config, sequences := sequences } := fun t ht => by cases ht
  exact { hquiet.ordered ⟨nofun, nofun⟩ with
    at_most_one := Nat.zero_le 1, none_yet := fun _ _ => rfl }

/-- A gesture runs at most one slot while no key event overtakes a task that ends it. -/
theorem one_slot_per_gesture {config : SuperkeyConfig} {sequences : Bool} {ops : List Op}
    {m : SuperkeyMachine} (hkeys : ∀ op ∈ ops, op ≠ .stop)
    (hguard : Guarded step (fun m op => ¬Overtakes m op)
      { config := config, sequences := sequences } ops)
    (hrun : run step { config := config, sequences := sequences } ops = some m) :
    m.slots.length ≤ 1 := by
  have hinv := guarded_run_invariant (I := OneSlot)
    (fun _ _ _ h hop hstep => h.step hop.1 hop.2 hstep) (oneSlot_start config sequences)
    (guarded_and hkeys hguard) hrun
  exact hinv.at_most_one

def key (target : String) : SuperkeyActionData :=
  { actionType := .keyboard, target := some target }

def tapConfig : SuperkeyConfig :=
  { tapActions := [key "a"], doubleTapActions := [key "b"], holdActions := [key "c"] }

/-- A double tap: the first release starts the window, the second press closes it. -/
def doubleTapRun : List Op :=
  [.onDown 0, .onUp 50000, .onDown 100000, .onUp 150000, .resume 4, .resume 4, .resume 4]

theorem one_slot_per_gesture_double_tap :
    (run step { config := tapConfig, sequences := false } doubleTapRun).any (fun m =>
      m.slots.length ≤ 1 && m.slots = [.doubleTap] && m.state = .idle) = true := by
  cases hrun : run step { config := tapConfig, sequences := false } doubleTapRun with
  | none => exact absurd hrun (by decide)
  | some m =>
    have hslots := one_slot_per_gesture (by decide) (by decide) hrun
    have hm : (run step { config := tapConfig, sequences := false } doubleTapRun).all (fun m =>
      m.slots = [.doubleTap] && m.state = .idle) = true := by decide
    rw [hrun] at hm
    simp only [Option.all_some, Bool.and_eq_true] at hm
    simp [hslots, hm.1, hm.2]

/- The window's timer fires and the tap is emitted, which suspends. The second
press still finds the machine waiting for it, and its release emits the double
tap. -/
def overtakenRun : List Op :=
  [.onDown 0, .onUp 50000, .resume 2, .onDown 360000, .onUp 400000]

/-- Without the condition one gesture runs two slots. -/
theorem two_slots_in_one_gesture :
    ¬∀ (config : SuperkeyConfig) (sequences : Bool) (ops : List Op) (m : SuperkeyMachine),
      (∀ op ∈ ops, op ≠ .stop) →
      run step { config := config, sequences := sequences } ops = some m →
      ∀ s ∈ m.slots, ∀ s' ∈ m.slots, s = s' := by
  intro hall
  cases hrun : run step { config := tapConfig, sequences := false } overtakenRun with
  | none => exact absurd hrun (by decide)
  | some m =>
    have hone := hall tapConfig false overtakenRun m (by decide) hrun
    have hslots : (run step { config := tapConfig, sequences := false } overtakenRun).all
      (fun m => m.slots = [.tap, .doubleTap]) = true := by decide
    rw [hrun] at hslots
    have hm : m.slots = [.tap, .doubleTap] := by simpa using hslots
    rw [hm] at hone
    exact absurd (hone .tap (by simp) .doubleTap (by simp)) (by decide)

end Keymasq.Superkey.Slots
