import Keymasq.Superkey.Release

/-!
# After a stop

Nothing is pressed for the held list any more, and a release pass that no call
cancels takes what is left of it.
-/

namespace Keymasq.Superkey.AfterStop
open Foundation.Transition Foundation.Lists Machine Machine.SuperkeyMachine Superkey.Order
open Accounting Release

/-- A release pass that no call cancels. -/
structure Releaser (m : SuperkeyMachine) (t : Task) : Prop where
  releasing : t.body = .releasing
  not_cancelled : t.cancelled = false
  not_hold : m.holdTask ≠ some t.id
  not_double : m.doubleTapTask ≠ some t.id
  old : t.id < m.nextId

structure Stopped (m : SuperkeyMachine) : Prop where
  stopped : m.running = false
  no_press : ∀ t ∈ m.tasks, t.cancelled = false → presses t.body = false
  lane_press : ∀ t ∈ m.lane, presses t.body = false
  released : m.outputs.heldActions ≠ [] → ∃ t ∈ m.tasks, Releaser m t

variable {m m' : SuperkeyMachine} {t : Task}

/-- What may change after a stop. -/
theorem Stopped.move (h : Stopped m) (hrunning : m'.running = false)
    (htasks : ∀ t ∈ m'.tasks, t.cancelled = false → t ∈ m.tasks ∨ presses t.body = false)
    (hlane : ∀ t ∈ m'.lane, t ∈ m.lane ∨ presses t.body = false)
    (hheld : m'.outputs.heldActions ≠ [] → m.outputs.heldActions ≠ [])
    (hreleaser : m'.outputs.heldActions ≠ [] → ∀ t ∈ m.tasks, Releaser m t →
      ∃ t' ∈ m'.tasks, Releaser m' t') : Stopped m' := by
  refine ⟨hrunning, fun t ht hc => ?_, fun t ht => ?_, fun hheld' => ?_⟩
  · rcases htasks t ht hc with ht | hp
    · exact h.no_press t ht hc
    · exact hp
  · rcases hlane t ht with ht | hp
    · exact h.lane_press t ht
    · exact hp
  · obtain ⟨t, ht, hr⟩ := h.released (hheld hheld')
    exact hreleaser hheld' t ht hr

theorem Stopped.proceed (h : Stopped m) (id : ℕ) (after : After) {body : Option Body}
    (hbody : ∀ b, body = some b → presses b = false) :
    Stopped (m.proceed id after body) := by
  have hjoin : ∀ (out : Outputs) (t : Task), presses t.body = false →
      (out.heldActions ≠ [] → m.outputs.heldActions ≠ []) →
      Stopped { m with outputs := out, tasks := m.tasks ++ [t] } := by
    intro out t ht hheld
    refine h.move h.stopped (fun t' ht' _ => ?_) (fun t' ht' => Or.inl ht') hheld
      fun _ t' ht' hr => ⟨t', List.mem_append_left _ ht',
        ⟨hr.releasing, hr.not_cancelled, hr.not_hold, hr.not_double, hr.old⟩⟩
    rcases List.mem_append.mp ht' with ht' | ht'
    · exact Or.inl ht'
    · rw [List.mem_singleton.mp ht']
      exact Or.inr ht
  cases body with
  | some b => exact hjoin m.outputs _ (hbody b rfl) fun hheld => hheld
  | none =>
    cases after with
    | done => exact h
    | sequence => exact h
    | becomeIdle => exact ⟨h.stopped, h.no_press, h.lane_press, fun hheld =>
        (h.released hheld).imp fun t ht => ⟨ht.1, ⟨ht.2.releasing, ht.2.not_cancelled,
          ht.2.not_hold, ht.2.not_double, ht.2.old⟩⟩⟩
    | releaseHeld =>
      simp only [SuperkeyMachine.proceed]
      split
      · exact h.move h.stopped (fun t ht _ => Or.inl ht) (fun t ht => Or.inl ht)
          releaseHeld_shrinks fun _ t ht hr => ⟨t, ht,
            ⟨hr.releasing, hr.not_cancelled, hr.not_hold, hr.not_double, hr.old⟩⟩
      · rename_i b hb
        refine hjoin _ _ ?_ releaseHeld_shrinks
        rw [releaseHeld_body hb]
        rfl

theorem Stopped.runSequence (h : Stopped m) (id : ℕ) {step : Step}
    (hstep : presses (.waiting step) = false) (detach : Bool) (after : After) :
    Stopped (m.runSequence id step detach after) := by
  have hshrinks : (step.start m.outputs).1.heldActions ≠ [] → m.outputs.heldActions ≠ [] :=
    @resume_shrinks m.outputs (.waiting step) hstep
  have hbody : ∀ b, (step.start m.outputs).2 = some b → presses b = false :=
    fun b hb => (@resume_body m.outputs (.waiting step) b hb).1.trans hstep
  have hmove : ∀ out lane next, m.nextId ≤ next →
      (out.heldActions ≠ [] → m.outputs.heldActions ≠ []) →
      (∀ t ∈ lane, t ∈ m.lane ∨ presses t.body = false) →
      Stopped { m with outputs := out, lane := lane, nextId := next } := by
    intro out lane next hnext hheld hlane
    exact h.move h.stopped (fun t ht _ => Or.inl ht) hlane hheld fun _ t ht hr =>
      ⟨t, ht, ⟨hr.releasing, hr.not_cancelled, hr.not_hold, hr.not_double,
        Nat.lt_of_lt_of_le hr.old hnext⟩⟩
  rcases runSequence_cases m id step detach after with ⟨-, -, heq⟩ | ⟨-, -, heq⟩ | ⟨-, heq⟩
  · rw [heq]
    refine (hmove _ _ _ (Nat.le_succ _) hshrinks fun t ht => ?_).proceed id after nofun
    obtain ⟨b, hb, rfl⟩ := List.mem_map.mp ht
    exact Or.inr (hbody b (Option.mem_toList.mp hb))
  · rw [heq]
    refine (hmove m.outputs _ _ (Nat.le_succ _) (fun hheld => hheld) fun t ht => ?_).proceed id
      after nofun
    rcases List.mem_append.mp ht with ht | ht
    · exact Or.inl ht
    · rw [List.mem_singleton.mp ht]
      exact Or.inr hstep
  · rw [heq]
    exact (hmove _ m.lane m.nextId (Nat.le_refl _) hshrinks fun t ht => Or.inl ht).proceed id
      after hbody

/-- A release pass goes on past changes of the timers. -/
theorem Releaser.of_timers (h : Releaser m t)
    (hhold : m'.holdTask = m.holdTask ∨ m'.holdTask = none ∨ m'.holdTask = some m.nextId)
    (hdouble : m'.doubleTapTask = m.doubleTapTask ∨ m'.doubleTapTask = none ∨
      m'.doubleTapTask = some m.nextId) (hnext : m.nextId ≤ m'.nextId) : Releaser m' t := by
  have hold := h.old
  refine ⟨h.releasing, h.not_cancelled, ?_, ?_, by omega⟩
  · rcases hhold with heq | heq | heq
    · rw [heq]
      exact h.not_hold
    · rw [heq]
      nofun
    · rw [heq]
      intro hid
      rw [Option.some.injEq] at hid
      omega
  · rcases hdouble with heq | heq | heq
    · rw [heq]
      exact h.not_double
    · rw [heq]
      nofun
    · rw [heq]
      intro hid
      rw [Option.some.injEq] at hid
      omega

theorem Stopped.cancelTask (h : Stopped m) {task : Option ℕ}
    (htask : ∀ t ∈ m.tasks, Releaser m t → task ≠ some t.id) (hrunning : m'.running = m.running)
    (htasks : m'.tasks = (m.cancelTask task).tasks) (hlane : m'.lane = m.lane)
    (hout : m'.outputs = m.outputs) (hhold : m'.holdTask = m.holdTask ∨ m'.holdTask = none)
    (hdouble : m'.doubleTapTask = m.doubleTapTask ∨ m'.doubleTapTask = none)
    (hnext : m.nextId ≤ m'.nextId) : Stopped m' := by
  refine h.move (hrunning.trans h.stopped) (fun t ht hc => ?_) (fun t ht => ?_) ?_
    fun _ t ht hr => ⟨t, ?_, ?_⟩
  · rw [htasks] at ht
    exact Or.inl (mem_of_cancelTask ht hc).1
  · exact Or.inl (hlane ▸ ht)
  · exact fun hheld => hout ▸ hheld
  · rw [htasks]
    exact List.mem_map.mpr ⟨t, ht, if_neg (htask t ht hr)⟩
  · exact hr.of_timers (hhold.imp_right Or.inl) (hdouble.imp_right Or.inl) hnext

theorem Stopped.join (h : Stopped m) (ht : presses t.body = false)
    (hrunning : m'.running = m.running) (htasks : m'.tasks = m.tasks ++ [t])
    (hlane : m'.lane = m.lane) (hout : m'.outputs = m.outputs)
    (hhold : m'.holdTask = m.holdTask ∨ m'.holdTask = some m.nextId)
    (hdouble : m'.doubleTapTask = m.doubleTapTask ∨ m'.doubleTapTask = some m.nextId)
    (hnext : m.nextId ≤ m'.nextId) : Stopped m' := by
  refine h.move (hrunning.trans h.stopped) (fun t' ht' hc => ?_) (fun t' ht' => ?_) ?_
    fun _ t' ht' hr => ⟨t', ?_, ?_⟩
  · rw [htasks] at ht'
    rcases List.mem_append.mp ht' with ht' | ht'
    · exact Or.inl ht'
    · rw [List.mem_singleton.mp ht']
      exact Or.inr ht
  · exact Or.inl (hlane ▸ ht')
  · exact fun hheld => hout ▸ hheld
  · rw [htasks]
    exact List.mem_append_left _ ht'
  · exact hr.of_timers (hhold.imp_right Or.inr) (hdouble.imp_right Or.inr) hnext

theorem Stopped.withState (h : Stopped m) (hrunning : m'.running = m.running)
    (htasks : m'.tasks = m.tasks) (hlane : m'.lane = m.lane) (hout : m'.outputs = m.outputs)
    (hhold : m'.holdTask = m.holdTask) (hdouble : m'.doubleTapTask = m.doubleTapTask)
    (hnext : m.nextId ≤ m'.nextId) :
    Stopped m' := by
  refine h.move (hrunning.trans h.stopped) (fun t ht _ => Or.inl (htasks ▸ ht))
    (fun t ht => Or.inl (hlane ▸ ht)) (fun hheld => hout ▸ hheld) fun _ t ht hr => ⟨t, ?_, ?_⟩
  · rw [htasks]
    exact ht
  · exact hr.of_timers (Or.inl hhold) (Or.inl hdouble) hnext

theorem Stopped.onDown (h : Stopped m) (now : ℤ) : Stopped (m.onDown now) := by
  refine onDown_rule now h (fun _ => ?_) (fun m state started slots h => ?_) fun m h => ?_
  · exact h.cancelTask (fun t _ hr => hr.not_double) rfl rfl rfl rfl (Or.inl rfl) (Or.inr rfl)
      (Nat.le_refl _)
  · exact h.withState rfl rfl rfl rfl rfl rfl (Nat.le_refl _)
  · exact h.join rfl rfl rfl rfl rfl (Or.inr rfl) (Or.inl rfl) (Nat.le_succ _)

theorem Stopped.onUp (h : Stopped m) (now : ℤ) : Stopped (m.onUp now) := by
  refine onUp_rule now h ?_ (fun _ => ?_) (fun m state slots h => ?_) (fun m h => ?_) ?_
  · exact h.withState rfl rfl rfl rfl rfl rfl (Nat.le_succ _)
  · exact h.cancelTask (fun t _ hr => hr.not_hold) rfl rfl rfl rfl (Or.inr rfl) (Or.inl rfl)
      (Nat.le_succ _)
  · exact h.withState rfl rfl rfl rfl rfl rfl (Nat.le_refl _)
  · exact h.join rfl rfl rfl rfl rfl (Or.inl rfl) (Or.inr rfl) (Nat.le_succ _)
  · rintro m id step detach (⟨actions, rfl⟩ | rfl) h
    · exact h.runSequence id rfl detach _
    · exact h.runSequence id rfl detach _

/-- A task of a stopped machine goes on. -/
theorem Stopped.resumeTask (h : Stopped m) {rest : List Task} (hperm : m.tasks.Perm (t :: rest)) :
    Stopped ({ m with tasks := rest }.resumeTask t) := by
  have hmem : ∀ t' ∈ rest, t' ∈ m.tasks := fun t' ht' =>
    hperm.mem_iff.mpr (List.mem_cons_of_mem _ ht')
  -- Off the list, the others keep a release pass unless `t` was the only one.
  have htake : ∀ out : Outputs, (out.heldActions ≠ [] → m.outputs.heldActions ≠ []) →
      (Releaser m t → out.heldActions = []) → Stopped { m with outputs := out, tasks := rest } := by
    intro out hheld hempty
    refine h.move h.stopped (fun t' ht' _ => Or.inl (hmem t' ht')) (fun t' ht' => Or.inl ht') hheld
      fun hheld' t' ht' hr => ?_
    rcases List.mem_cons.mp (hperm.mem_iff.mp ht') with rfl | ht'
    · exact absurd (hempty hr) hheld'
    · exact ⟨t', ht', hr.of_timers (Or.inl rfl) (Or.inl rfl) (Nat.le_refl _)⟩
  cases hcancelled : t.cancelled with
  | true =>
    rw [resumeTask_cancelled hcancelled]
    refine (htake _ (fun hheld => by simpa using hheld) fun hr => ?_).proceed t.id _
      fun b hb => (cancel_body hb).1
    have hnot := hr.not_cancelled
    rw [hcancelled] at hnot
    cases hnot
  | false =>
    have hpress := h.no_press t (hperm.mem_iff.mpr List.mem_cons_self) hcancelled
    cases hasleep : sleeping t.body with
    | true =>
      have hrest := htake m.outputs (fun hheld => hheld) fun hr => by
        rw [hr.releasing] at hasleep
        cases hasleep
      have hidle : ∀ m' : SuperkeyMachine, m'.running = false →
          m'.holdTimeout t.id = m' ∧ m'.doubleTapTimeout t.id = m' := by
        intro m' hrunning
        exact ⟨if_pos (by simp [hrunning]), if_pos (by simp [hrunning])⟩
      cases hbody : t.body with
      | holdTimeout =>
        rw [resumeTask_holdTimeout hcancelled hbody,
          (hidle { m with tasks := rest } h.stopped).1]
        exact hrest
      | doubleTapTimeout =>
        rw [resumeTask_doubleTapTimeout hcancelled hbody,
          (hidle { m with tasks := rest } h.stopped).2]
        exact hrest
      | _ =>
        rw [hbody] at hasleep
        cases hasleep
    | false =>
      rw [resumeTask_awake hcancelled hasleep]
      cases hresume : (t.body.resume m.outputs).2 with
      | none =>
        refine (htake _ (resume_shrinks hpress) fun hr => ?_).proceed t.id t.after nofun
        rw [hr.releasing] at hresume ⊢
        exact releaseHeld_none hresume
      | some b =>
        obtain ⟨hp, -, -⟩ := resume_body hresume
        refine h.move h.stopped (fun t' ht' hc => ?_) (fun t' ht' => Or.inl ht')
          (resume_shrinks hpress) fun _ t' ht' hr => ?_
        · rcases List.mem_append.mp ht' with ht' | ht'
          · exact Or.inl (hmem t' ht')
          · rw [List.mem_singleton.mp ht']
            exact Or.inr (hp.trans hpress)
        · rcases List.mem_cons.mp (hperm.mem_iff.mp ht') with rfl | ht'
          · refine ⟨_, List.mem_append_right _ (List.mem_singleton_self _), ?_⟩
            rw [hr.releasing] at hresume
            exact ⟨releaseHeld_body hresume, rfl, hr.not_hold, hr.not_double, hr.old⟩
          · exact ⟨t', List.mem_append_left _ ht',
              hr.of_timers (Or.inl rfl) (Or.inl rfl) (Nat.le_refl _)⟩

theorem Stopped.resumeLane (h : Stopped m) {rest : List Task} (hlane : m.lane = t :: rest) :
    Stopped (m.resumeLane t rest) := by
  have hpress : presses t.body = false := h.lane_press t (hlane ▸ List.mem_cons_self)
  refine h.move h.stopped (fun t' ht' _ => Or.inl ht') (fun t' ht' => ?_) (resume_shrinks hpress)
    fun _ t' ht' hr => ⟨t', ht', hr.of_timers (Or.inl rfl) (Or.inl rfl) (Nat.le_refl _)⟩
  rcases List.mem_append.mp ht' with ht' | ht'
  · obtain ⟨b, hb, rfl⟩ := List.mem_map.mp ht'
    exact Or.inr ((resume_body (Option.mem_toList.mp hb)).1.trans hpress)
  · rw [hlane]
    exact Or.inl (List.mem_cons_of_mem _ ht')

/-- A stop cancels whatever may press, and releases what is held. -/
theorem stopped_stop
    (hpress : ∀ t ∈ m.tasks, t.cancelled = false → presses t.body = true → m.holdTask = some t.id)
    (hlane : m.sequences = false → ∀ t ∈ m.lane, presses t.body = false) : Stopped m.stop := by
  have hbase : ∀ base : SuperkeyMachine, base.running = false → base.holdTask = none →
      base.doubleTapTask = none → m.nextId < base.nextId →
      (∀ t ∈ base.tasks, t.cancelled = false → presses t.body = false) →
      (∀ t ∈ base.lane, presses t.body = false) →
      Stopped ({ base with outputs := (Machine.releaseHeld base.outputs).1 }.proceed m.nextId
        .becomeIdle (Machine.releaseHeld base.outputs).2) := by
    intro base hrunning hhold hdouble hnext htasks hlane
    cases hbody : (Machine.releaseHeld base.outputs).2 with
    | none =>
      refine ⟨hrunning, htasks, hlane, fun hheld => ?_⟩
      exact absurd (releaseHeld_none hbody) hheld
    | some b =>
      have hreleasing := releaseHeld_body hbody
      subst hreleasing
      refine ⟨hrunning, fun t ht hc => ?_, hlane, fun _ => ?_⟩
      · rcases List.mem_append.mp ht with ht | ht
        · exact htasks t ht hc
        · rw [List.mem_singleton.mp ht]
          rfl
      · refine ⟨_, List.mem_append_right _ (List.mem_singleton_self _), rfl, rfl, ?_, ?_, hnext⟩
        · show base.holdTask ≠ _
          rw [hhold]
          nofun
        · show base.doubleTapTask ≠ _
          rw [hdouble]
          nofun
  have hcancelled : ∀ t ∈ ({ m with
      running := false, pressStartedAt := none
      nextId := m.nextId + 1 }.cancelHoldTask.cancelDoubleTapTask).tasks,
      t.cancelled = false → presses t.body = false := by
    intro t ht hc
    have hdouble := mem_of_cancelTask ht hc
    have hhold := mem_of_cancelTask hdouble.1 hc
    rw [← Bool.not_eq_true]
    exact fun hp => hhold.2 (hpress t hhold.1 hc hp)
  unfold SuperkeyMachine.stop
  simp only
  refine hbase _ ?_ ?_ ?_ ?_ ?_ ?_
  · split <;> rfl
  · split <;> rfl
  · split <;> rfl
  · split <;> exact Nat.lt_succ_self _
  · split
    · intro t ht hc
      rcases List.mem_append.mp ht with ht | ht
      · exact hcancelled t ht hc
      · obtain ⟨t', -, rfl⟩ := List.mem_map.mp ht
        cases hc
    · exact hcancelled
  · split
    · intro t ht
      cases ht
    · rename_i hseq
      exact hlane (Bool.eq_false_iff.mpr hseq)

end Keymasq.Superkey.AfterStop
