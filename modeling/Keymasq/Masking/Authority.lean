import Keymasq.Masking.Reservation

/-!
# Who may make a mask permanent

A mask becomes permanent by a confirmation of its activation: the user keeps the trial, or
the activation is automatic. This rests on one activation at a time, which a refresh that
does not look at the activation before it breaks.
-/

namespace Keymasq.Masking.Authority
open Foundation Transition Reservation

/-- No activation runs. -/
def idle (s : State) : Bool := s.tasks.entries.isEmpty

/-- Activations begin one after the other, and a restore request does not refresh an
automatic mask that a recovery has taken down while the request waited. -/
def inTurn (s : State) : Step → Bool
  | .masked true _ _ => idle s
  | .autostarted .started _ => idle s
  | .replaced true => idle s && (!s.automatic || s.authority)
  | _ => true

/-- The step starts a mask, and not a refresh. -/
def starts : Step → Bool
  | .masked _ _ _ => true
  | .autostarted .started _ => true
  | _ => false

/- What a step may do. `granted` and `allowed` say what `authority` is: the policy of the
session's user asks for the mask, or the mask has been permanent. -/
structure ByAuthority (s : State) (a : Step) (t : State) : Prop where
  masked : t.phase = .masked → s.phase ≠ .masked →
    s.token.isSome = true ∧ s.completed = s.token ∧
      ((∃ saved, a = .ready s.token saved ∧ inTime s = true ∧ s.automatic = true ∧
          s.authority = true) ∨
        ∃ saved policy asked, a = .kept saved ∧ s.handler = some (.keep s.token policy asked) ∧
          s.phase = .trial ∧ asked < deadline s)
  granted : t.authority = true → s.authority = true ∨ s.phase = .masked ∨
    policyAllows t = true ∨ s.handler = some (.autostart true)
  allowed : ∀ authorised, t.handler = some (.autostart authorised) →
    s.handler = some (.autostart authorised) ∨ policyAllows t = true
  messages : ∀ token, token ≠ s.token → ((∃ saved, a = .ready token saved) ∨
    (∃ persist, a = .keep token persist) ∨ a = .quiesced token) → t = s
  completions : ∀ id ok, a = .applied id ok → t.phase ≠ s.phase →
    ∃ task, s.tasks.get? id = some task ∧ some task.token = s.token
  window : ∀ time, s.confirmationDeadline = some time →
    t.confirmationDeadline = some time ∨
      t.confirmationDeadline = none ∧ (starts a = true ∨ t.authority = true)
  expired : ∀ due, a = .monitor due → active s = true → s.phase ≠ .masked →
    deadline s ≤ s.clock →
    t.phase = .restoring ∧ ∃ reason, t.handler = some (.restore reason false)
  restored : ∀ ok reason inTask, a = .recovered ok →
    s.handler = some (.restore reason inTask) →
    t.phase = if ok then .restored else .recoveryFailed
  retried : ∀ due, a = .monitor due → s.phase = .recoveryFailed →
    t.phase = .restoring ∧ ∃ reason, t.handler = some (.restore reason false)

/-- The states of a reservation that has been loaded: nothing runs. -/
structure Initial (s : State) : Prop where
  phase : s.phase = .unmasked ∨ s.phase = .restored ∨ s.phase = .recoveryFailed
  tasks : s.tasks = ∅
  handler : s.handler = none
  authority : s.authority = false

section Invariant

variable {s t u : State}

/- One activation at a time, and it is that of the token. -/
structure Base (s : State) : Prop where
  single : ∀ id task, s.tasks.get? id = some task → some task.token = s.token ∧
    s.applyTask = some id ∧ (s.phase = .applying ∨ s.phase = .restoring)
  completed : s.phase = .acquiring ∨ s.phase = .trial ∨ s.phase = .masked →
    s.completed = s.token ∧ s.token.isSome = true
  automatic : active s = true ∨ (∃ id task, s.tasks.get? id = some task) →
    s.automatic = true → s.authority = true
  window : s.phase = .trial → s.confirmationDeadline.isSome = true

/-- What a handler knows while it has the lock. -/
def Knows (s : State) : Handler → Prop
  | .keep token _ asked => token = s.token ∧
    (s.phase = .trial → ∀ time, s.confirmationDeadline = some time → asked < time)
  | .monitor => (∀ id, s.tasks.get? id = none) ∧ (s.automatic = true → s.authority = true)
  | .autostart authorised => authorised = true
  | .startingAutomatically => s.authority = true
  | .restore _ _ => ∀ id, s.tasks.get? id = none
  | _ => True

structure Sound (s : State) : Prop where
  base : Base s
  knows : ∀ handler, s.handler = some handler → Knows s handler

theorem Base.frame (h : Base s) (hphase : t.phase = s.phase) (htoken : t.token = s.token)
    (hautomatic : t.automatic = s.automatic)
    (htasks : ∀ id, t.tasks.get? id = s.tasks.get? id) (happly : t.applyTask = s.applyTask)
    (hcompleted : t.completed = s.completed) (hauthority : t.authority = s.authority)
    (hwindow : t.confirmationDeadline = s.confirmationDeadline) : Base t := by
  refine ⟨fun id task hget => ?_, fun hup => ?_, fun hup hauto => ?_, fun htrial => ?_⟩
  · rw [htoken, happly, hphase]
    exact h.single id task (htasks id ▸ hget)
  · rw [hcompleted, htoken]
    exact h.completed (hphase ▸ hup)
  · rw [hauthority]
    refine h.automatic ?_ (hautomatic ▸ hauto)
    unfold active at hup ⊢
    rw [hphase] at hup
    rcases hup with hactive | ⟨id, task, hget⟩
    · exact .inl hactive
    · exact .inr ⟨id, task, htasks id ▸ hget⟩
  · rw [hwindow]
    exact h.window (hphase ▸ htrial)

theorem idle_get? (h : idle s = true) (id : ℕ) : s.tasks.get? id = none := by
  unfold idle at h
  unfold Dict.get?
  rw [List.isEmpty_iff.mp h]
  rfl

/-- A mask that is up has no activation that runs. -/
theorem Base.no_tasks (h : Base s)
    (hphase : s.phase = .acquiring ∨ s.phase = .trial ∨ s.phase = .masked) (id : ℕ) :
    s.tasks.get? id = none := by
  cases hget : s.tasks.get? id with
  | none => rfl
  | some task =>
    obtain ⟨-, -, happlying⟩ := h.single id task hget
    rcases happlying with heq | heq
    · rw [heq] at hphase
      simp at hphase
    · rw [heq] at hphase
      simp at hphase

theorem deadline_trial {time : ℕ} (hphase : s.phase = .trial)
    (htime : s.confirmationDeadline = some time) : deadline s = time := by
  unfold deadline
  rw [htime]
  exact if_pos hphase

/-- Nothing runs and nothing is up. -/
theorem Base.down (htasks : ∀ id, s.tasks.get? id = none) (hinactive : active s = false) :
    Base s := by
  unfold active at hinactive
  refine ⟨fun id task hget => ?_, fun hup => ?_, fun hup => ?_, fun htrial => ?_⟩
  · rw [htasks id] at hget
    cases hget
  · rcases hup with heq | heq | heq
    · rw [heq] at hinactive
      cases hinactive
    · rw [heq] at hinactive
      cases hinactive
    · rw [heq] at hinactive
      cases hinactive
  · rcases hup with hactive | ⟨id, task, hget⟩
    · unfold active at hactive
      rw [hinactive] at hactive
      cases hactive
    · rw [htasks id] at hget
      cases hget
  · rw [htrial] at hinactive
    cases hinactive

/-! ## The begin of an activation -/

theorem Base.begun (hidle : ∀ id, s.tasks.get? id = none)
    (hphase : t.phase = .applying) (htoken : t.token = some s.nextToken)
    (htasks : t.tasks = s.tasks.insert s.nextId { token := s.nextToken })
    (happly : t.applyTask = some s.nextId)
    (hautomatic : t.automatic = true → t.authority = true) : Base t := by
  refine ⟨fun id task hget => ?_, fun hup => ?_, fun _ => hautomatic, fun htrial => ?_⟩
  · rw [htasks, Dict.get?_insert] at hget
    split at hget
    · next heq =>
      cases hget
      exact ⟨htoken.symm, heq ▸ happly, .inl hphase⟩
    · rw [hidle id] at hget
      cases hget
  · rw [hphase] at hup
    simp at hup
  · rw [hphase] at htrial
    cases htrial

theorem base_refreshInterfaces (hidle : ∀ id, s.tasks.get? id = none)
    (hauthority : s.automatic = true → s.authority = true) : Base (refreshInterfaces s) := by
  refine Base.begun hidle rfl rfl rfl rfl fun hautomatic => ?_
  simp only [refreshInterfaces, Bool.or_eq_true] at hautomatic ⊢
  exact hautomatic.imp_right hauthority

/-! ## Recovery -/

/-- The last activation is the only one that can run. -/
theorem Base.cancelled (h : Base s) (id : ℕ) :
    (s.applyTask.elim s.tasks s.tasks.erase).get? id = none := by
  cases happly : s.applyTask with
  | none =>
    rw [Option.elim_none]
    cases hget : s.tasks.get? id with
    | none => rfl
    | some task =>
      obtain ⟨-, hsome, -⟩ := h.single id task hget
      rw [happly] at hsome
      cases hsome
  | some last =>
    rw [Option.elim_some, Dict.get?_erase]
    split
    · rfl
    · next hne =>
      cases hget : s.tasks.get? id with
      | none => rfl
      | some task =>
        obtain ⟨-, hsome, -⟩ := h.single id task hget
        rw [happly] at hsome
        exact absurd (Option.some.inj hsome).symm hne

theorem base_beginRestore (h : Base s) (reason : Reason) (inTask : Bool) :
    Base (beginRestore s reason inTask) := by
  unfold beginRestore
  simp only
  split
  · exact Base.down h.cancelled rfl
  · next hmask =>
    simp only [Bool.not_eq_true, Bool.or_eq_false_iff] at hmask
    obtain ⟨⟨⟨hinactive, -⟩, -⟩, hrecovering⟩ := hmask
    refine Base.down (fun id => ?_) ?_
    · change s.tasks.get? id = none
      cases hget : s.tasks.get? id with
      | none => rfl
      | some task =>
        unfold active at hinactive
        obtain ⟨-, -, happlying | hrestoring⟩ := h.single id task hget
        · rw [happlying] at hinactive
          cases hinactive
        · rw [hrestoring] at hrecovering
          cases hrecovering
    · have hphase (clean : Bool) :
          (if clean then s.phase else .restored : Phase).isActive = false := by
        cases clean with
        | false => rfl
        | true => exact hinactive
      exact hphase _

theorem sound_beginRestore (h : Base s) (reason : Reason) (inTask : Bool) :
    Sound (beginRestore s reason inTask) := by
  refine ⟨base_beginRestore h reason inTask, fun handler hhandler => ?_⟩
  unfold beginRestore at hhandler ⊢
  simp only at hhandler ⊢
  split at hhandler
  · cases hhandler
    split
    · exact h.cancelled
    · contradiction
  · cases hhandler

/-- A mask that is up, or was not taken down, is taken down. -/
theorem beginRestore_up (hup : active s = true ∨ s.phase = .recoveryFailed) (reason : Reason)
    (inTask : Bool) : (beginRestore s reason inTask).phase = .restoring ∧
      ∃ final, (beginRestore s reason inTask).handler = some (.restore final inTask) := by
  have hmask : (active s || s.journal || s.armed || s.phase.isRecovering) = true := by
    rcases hup with hactive | hfailed
    · rw [hactive]
      rfl
    · rw [hfailed, Bool.or_eq_true]
      exact .inr rfl
  unfold beginRestore
  simp only [hmask, if_true]
  exact ⟨trivial, _, rfl⟩

/-! ## Steps -/

theorem Knows.frame {handler : Handler} (h : Knows s handler) (hphase : t.phase = s.phase)
    (htoken : t.token = s.token) (hautomatic : t.automatic = s.automatic)
    (htasks : t.tasks = s.tasks) (hauthority : t.authority = s.authority)
    (hwindow : t.confirmationDeadline = s.confirmationDeadline) : Knows t handler := by
  cases handler with
  | keep token policy asked =>
    refine ⟨h.1.trans htoken.symm, fun htrial time htime => h.2 (hphase ▸ htrial) time ?_⟩
    exact hwindow ▸ htime
  | monitor =>
    refine ⟨fun id => htasks ▸ h.1 id, fun hauto => ?_⟩
    rw [hauthority]
    exact h.2 (hautomatic ▸ hauto)
  | autostart authorised => exact h
  | startingAutomatically => exact hauthority.trans h
  | restore reason inTask => exact fun id => htasks ▸ h id
  | mask persist => trivial
  | replacement forgets => trivial

theorem Sound.frame (h : Sound s) (hphase : t.phase = s.phase) (htoken : t.token = s.token)
    (hautomatic : t.automatic = s.automatic) (htasks : t.tasks = s.tasks)
    (happly : t.applyTask = s.applyTask) (hcompleted : t.completed = s.completed)
    (hauthority : t.authority = s.authority)
    (hwindow : t.confirmationDeadline = s.confirmationDeadline)
    (hhandler : t.handler = s.handler) : Sound t := by
  refine ⟨h.base.frame hphase htoken hautomatic (fun id => by rw [htasks]) happly hcompleted
    hauthority hwindow, fun handler hget => ?_⟩
  exact (h.knows handler (hhandler ▸ hget)).frame hphase htoken hautomatic htasks hauthority hwindow

theorem Base.unlocked (h : Base s) (hhandler : s.handler = none) : Sound s := by
  refine ⟨h, fun handler hget => ?_⟩
  rw [hhandler] at hget
  cases hget

/-- The handler gives the lock back. -/
theorem Base.release (h : Base s) : Sound { s with handler := none } := by
  have hbase : Base { s with handler := none } :=
    h.frame rfl rfl rfl (fun _ => rfl) rfl rfl rfl rfl
  exact hbase.unlocked rfl

theorem Base.take (h : Base s) (handler : Handler) (hknows : Knows s handler) :
    Sound { s with handler := some handler } := by
  refine ⟨h.frame rfl rfl rfl (fun _ => rfl) rfl rfl rfl rfl, fun handler' hget => ?_⟩
  cases hget
  exact hknows.frame rfl rfl rfl rfl rfl rfl

theorem policyAllows_saved (howned : owned s = true) :
    policyAllows { s with policy := savedPolicy s true } = true := by
  unfold owned at howned
  cases hpolicy : s.policy with
  | none =>
    rw [hpolicy] at howned
    cases howned
  | some policy =>
    rw [hpolicy, Option.any_some, decide_eq_true_eq] at howned
    unfold policyAllows owned savedPolicy
    simp only [howned, Option.map_some, Option.any_some, decide_true, Bool.and_self]

theorem sound_masked (h : Sound s) (persist resolved saved usb : Bool)
    (hturn : resolved = true → idle s = true) :
    Sound (masked s persist resolved saved usb) := by
  unfold Reservation.masked
  simp only
  split
  · exact h.base.release
  · next hresolved =>
    rw [not_or, Bool.not_eq_false] at hresolved
    have hidle := hturn hresolved.1
    refine Base.unlocked (Base.begun (idle_get? hidle) rfl rfl rfl rfl fun hconfirmed => ?_) rfl
    simp only [activate] at hconfirmed ⊢
    have howned : owned { s with handler := none } = true := (Bool.and_eq_true _ _ ▸ hconfirmed).2
    rw [hconfirmed, Bool.true_and]
    exact policyAllows_saved howned

theorem sound_quiesced (h : Sound s) (token : Option ℕ) (hfree : s.handler = none) :
    Sound (quiesced s token) := by
  unfold Reservation.quiesced
  split
  · have htasks (id : ℕ) (task : ApplyTask)
        (hget : (s.tasks.mapVal fun _ task => { task with quiesced := true }).get? id =
          some task) : ∃ before, s.tasks.get? id = some before ∧ task.token = before.token := by
      rw [Dict.get?_mapVal] at hget
      obtain ⟨before, hbefore, rfl⟩ := Option.map_eq_some_iff.mp hget
      exact ⟨before, hbefore, rfl⟩
    refine Base.unlocked ⟨fun id task hget => ?_, h.base.completed, fun hup => ?_,
      h.base.window⟩ hfree
    · obtain ⟨before, hbefore, htoken⟩ := htasks id task hget
      rw [htoken]
      exact h.base.single id before hbefore
    · refine h.base.automatic (hup.imp_right ?_)
      rintro ⟨id, task, hget⟩
      obtain ⟨before, hbefore, -⟩ := htasks id task hget
      exact ⟨id, before, hbefore⟩
  · exact h

theorem sound_applied (h : Sound s) {id : ℕ} {task : ApplyTask} (hget : s.tasks.get? id = some task)
    (ok : Bool) : Sound (applied s id task ok) := by
  obtain ⟨htoken, hlast, hphase⟩ := h.base.single id task hget
  have hnone (id' : ℕ) : (s.tasks.erase id).get? id' = none := by
    rw [Dict.get?_erase]
    split
    · rfl
    · next hne =>
      cases hget' : s.tasks.get? id' with
      | none => rfl
      | some task' =>
        obtain ⟨-, hlast', -⟩ := h.base.single id' task' hget'
        rw [hlast] at hlast'
        exact absurd (Option.some.inj hlast').symm hne
  have hauto := h.base.automatic (.inr ⟨id, task, hget⟩)
  have hknows (t : State) (htoken : t.token = s.token) (htrial : t.phase ≠ .trial)
      (hauthority : t.authority = s.authority) (handler : Handler)
      (hhandler : s.handler = some handler) : Knows t handler := by
    have hbefore := h.knows handler hhandler
    cases handler with
    | keep token policy asked =>
      exact ⟨hbefore.1.trans htoken.symm, fun heq => absurd heq htrial⟩
    | monitor =>
      rw [hbefore.1 id] at hget
      cases hget
    | restore reason inTask =>
      rw [hbefore id] at hget
      cases hget
    | autostart authorised => exact hbefore
    | startingAutomatically => exact hauthority.trans hbefore
    | mask persist => trivial
    | replacement forgets => trivial
  unfold applied
  simp only
  split
  · refine ⟨⟨fun id' task' hget' => ?_, fun _ => ⟨htoken, htoken ▸ rfl⟩, fun _ => hauto,
      fun htrial => (by cases htrial)⟩, hknows _ rfl (fun heq => (by cases heq)) rfl⟩
    rw [hnone id'] at hget'
    cases hget'
  · refine ⟨⟨fun id' task' hget' => ?_, h.base.completed, fun _ => hauto, h.base.window⟩,
      hknows _ rfl (fun htrial => ?_) rfl⟩
    · rw [hnone id'] at hget'
      cases hget'
    · change s.phase = .trial at htrial
      rw [htrial] at hphase
      simp at hphase

/-- A mask that is up gets another phase. -/
theorem Base.up (h : Base s) (hphase : s.phase = .acquiring ∨ s.phase = .trial)
    (htoken : t.token = s.token) (htasks : t.tasks = s.tasks)
    (hcompleted : t.completed = s.completed) (hautomatic : t.automatic = s.automatic)
    (hauthority : t.authority = s.authority)
    (hwindow : t.phase = .trial → t.confirmationDeadline.isSome = true) : Base t := by
  have hbefore : s.phase = .acquiring ∨ s.phase = .trial ∨ s.phase = .masked :=
    hphase.imp_right .inl
  refine ⟨fun id task hget => ?_, fun _ => ?_, fun _ hauto => ?_, hwindow⟩
  · rw [htasks, h.no_tasks hbefore id] at hget
    cases hget
  · rw [hcompleted, htoken]
    exact h.completed hbefore
  · rw [hauthority]
    refine h.automatic (.inl ?_) (hautomatic ▸ hauto)
    unfold active
    rcases hphase with heq | heq
    · rw [heq]
      rfl
    · rw [heq]
      rfl

theorem sound_ready (h : Sound s) (hfree : s.handler = none) (token : Option ℕ) (saved : Bool) :
    Sound (ready s token saved) := by
  unfold ready
  split
  · next hready =>
    split
    · exact Base.unlocked (h.base.up (.inl hready.2.2.2) rfl rfl rfl rfl rfl
        fun htrial => (by cases htrial)) hfree
    · exact Base.unlocked (h.base.up (.inl hready.2.2.2) rfl rfl rfl rfl rfl
        fun _ => rfl) hfree
  · exact h

theorem sound_keep (h : Sound s) (token : Option ℕ) (persist : Bool) :
    Sound (keep s token persist) := by
  unfold keep
  split
  · next hkeep =>
    split
    · exact h
    · refine h.base.take _ ⟨hkeep.1, fun htrial time htime => ?_⟩
      have htimely := hkeep.2.2.1
      unfold inTime at htimely
      rw [deadline_trial htrial htime, decide_eq_true_eq] at htimely
      exact htimely
  · exact h

theorem sound_kept (h : Sound s) (policy : Policy) (saved : Bool) :
    Sound (kept s policy saved) := by
  unfold kept
  simp only
  split
  · split
    · next htrial =>
      exact Base.unlocked (h.base.up (.inr htrial) rfl rfl rfl rfl rfl
        fun htrial => (by cases htrial)) rfl
    · have hbase : Base { s with handler := none, policy := some policy } :=
        h.base.frame rfl rfl rfl (fun _ => rfl) rfl rfl rfl rfl
      exact hbase.unlocked rfl
  · exact h.base.release

theorem sound_autostart (h : Sound s) : Sound (autostart s) := by
  unfold autostart
  split
  · exact h
  · next hstart =>
    have hbase : Base { s with marker := none } :=
      h.base.frame rfl rfl rfl (fun _ => rfl) rfl rfl rfl rfl
    refine hbase.take (.autostart (policyAllows s)) ?_
    simp only [not_or, Bool.not_eq_false] at hstart
    exact hstart.2.2.1

theorem sound_autostarted (h : Sound s) {authorised : Bool} {outcome : Start} {usb : Bool}
    (hhandler : s.handler = some (.autostart authorised))
    (hturn : outcome = .started → idle s = true) :
    Sound (autostarted s authorised outcome usb) := by
  have hfailed : Sound { s with handler := none, error := true } := by
    have hbase : Base { s with handler := none, error := true } :=
      h.base.frame rfl rfl rfl (fun _ => rfl) rfl rfl rfl rfl
    exact hbase.unlocked rfl
  unfold autostarted
  cases outcome with
  | absent => exact h.base.release
  | failed => exact hfailed
  | started =>
    simp only
    split
    · exact hfailed
    · have hbase : Base (activate { s with handler := none } false authorised usb) :=
        Base.begun (idle_get? (hturn rfl)) rfl rfl rfl rfl fun hauto => (by cases hauto)
      have hknows : authorised = true := h.knows _ hhandler
      exact hbase.take .startingAutomatically hknows

theorem sound_startedAutomatically (h : Sound s)
    (hhandler : s.handler = some .startingAutomatically) :
    Sound { s with handler := none, automatic := true } := by
  have hauthority : s.authority = true := h.knows _ hhandler
  exact Base.unlocked ⟨h.base.single, h.base.completed, fun _ _ => hauthority, h.base.window⟩ rfl

theorem sound_restoreIfExpired (h : Base s) (hexpired : restoreIfExpired s = some t) : Sound t := by
  unfold restoreIfExpired at hexpired
  split at hexpired
  · cases hexpired
  · cases hexpired
    have hbase : Base { s with error := s.error || activationTimedOut s } :=
      h.frame rfl rfl rfl (fun _ => rfl) rfl rfl rfl rfl
    exact sound_beginRestore hbase _ _

theorem sound_monitor (h : Sound s) (verificationDue : Bool) : Sound (monitor s verificationDue) := by
  unfold Reservation.monitor
  split
  · exact sound_beginRestore h.base _ _
  · split
    · next hactive =>
      split
      · exact sound_beginRestore h.base _ _
      · split
        · next hexpired => exact sound_restoreIfExpired h.base hexpired
        · split
          · exact h
          · next hphase =>
            have hup : s.phase = .acquiring ∨ s.phase = .trial ∨ s.phase = .masked := by
              unfold active at hactive
              cases hcurrent : s.phase with
              | applying => exact absurd (.inl hcurrent) hphase
              | acquiring => exact .inl rfl
              | trial => exact .inr (.inl rfl)
              | masked => exact .inr (.inr rfl)
              | _ =>
                rw [hcurrent] at hactive
                cases hactive
            exact h.base.take _ ⟨h.base.no_tasks hup, h.base.automatic (.inl hactive)⟩
    · exact h

theorem sound_monitored (h : Sound s) (hhandler : s.handler = some .monitor) (finding : Finding) :
    Sound (monitored s finding) := by
  obtain ⟨hidle, hauthority⟩ : Knows s .monitor := h.knows _ hhandler
  have hbase : Base { s with handler := none } := h.base.release.base
  unfold monitored
  cases finding with
  | unreadable => exact h.base.release
  | missing => exact sound_beginRestore hbase _ _
  | changed => exact sound_beginRestore hbase _ _
  | same =>
    simp only
    cases hexpired : restoreIfExpired { s with handler := none } with
    | none => exact h.base.release
    | some t => exact sound_restoreIfExpired hbase hexpired
  | refreshable =>
    have hrefreshed : Base (refreshInterfaces { s with handler := none }) :=
      base_refreshInterfaces hidle hauthority
    exact hrefreshed.unlocked rfl

theorem sound_wait (h : Sound s) (request : Waiting) : Sound (wait s request) :=
  h.frame rfl rfl rfl rfl rfl rfl rfl rfl rfl

theorem sound_beginRecovery (h : Sound s) (reason : Reason) : Sound (beginRecovery s reason) := by
  unfold beginRecovery
  split
  · refine ⟨⟨fun id task hget => ?_, fun hup => ?_, fun hup => ?_, fun htrial => ?_⟩,
      fun handler hhandler => ?_⟩
    · obtain ⟨htoken, hlast, -⟩ := h.base.single id task hget
      exact ⟨htoken, hlast, .inr rfl⟩
    · simp at hup
    · rcases hup with hactive | htasks
      · cases hactive
      · exact h.base.automatic (.inr htasks)
    · cases htrial
    · have hbefore := h.knows handler hhandler
      cases handler with
      | keep token policy asked => exact ⟨hbefore.1, fun htrial => (by cases htrial)⟩
      | monitor
      | restore reason inTask
      | autostart authorised
      | startingAutomatically => exact hbefore
      | mask persist => trivial
      | replacement forgets => trivial
  · exact h

theorem forget_cases (s : State) :
    forget s = s ∨ ∃ policy, forget s = { s with policy := policy } :=
  (ite_eq_or_eq _ _ _).symm.imp_right fun heq => ⟨_, heq⟩

theorem persistence_cases (s : State) (token : Option ℕ) (persist saved : Bool) :
    persistence s token persist saved = s ∨
      ∃ policy, persistence s token persist saved = { s with policy := policy } :=
  (ite_eq_or_eq _ _ _).symm.imp_right fun heq => ⟨_, heq⟩

theorem sound_forget (h : Sound s) : Sound (forget s) := by
  obtain heq | ⟨policy, heq⟩ := forget_cases s
  · rw [heq]
    exact h
  · rw [heq]
    exact h.frame rfl rfl rfl rfl rfl rfl rfl rfl rfl

theorem sound_requestRestore (h : Sound s) (token : Option ℕ) (unavailable forgets : Bool) :
    Sound (requestRestore s token unavailable forgets) := by
  unfold requestRestore
  simp only
  split
  · exact h
  · split
    · exact sound_wait h _
    · split
      · exact sound_wait h _
      · exact sound_beginRecovery h _

theorem sound_enter (h : Sound s) (saved : Bool) (request : Waiting) :
    Sound (enter s saved request) := by
  cases request with
  | replacement forgets => exact h.base.take _ trivial
  | forget reason =>
    simp only [enter]
    split
    · exact h
    · exact sound_beginRecovery (sound_forget h) reason
  | enable =>
    simp only [enter]
    split
    · exact h
    · split
      · exact h
      · exact sound_autostart (h.frame rfl rfl rfl rfl rfl rfl rfl rfl rfl)

theorem sound_replaced (h : Sound s) (forgets refreshable : Bool)
    (hturn : refreshable = true → idle s = true ∧ (s.automatic = true → s.authority = true)) :
    Sound (replaced s forgets refreshable) := by
  unfold Reservation.replaced
  simp only
  split
  · next hrefreshable =>
    obtain ⟨hidle, hauthority⟩ := hturn hrefreshable
    have hrefreshed : Base (refreshInterfaces { s with handler := none }) :=
      base_refreshInterfaces (idle_get? hidle) hauthority
    exact hrefreshed.unlocked rfl
  · split
    · exact sound_wait h.base.release _
    · exact sound_beginRecovery h.base.release _

theorem sound_recovered (h : Sound s) {reason : Reason} {inTask : Bool}
    (hhandler : s.handler = some (.restore reason inTask)) (ok : Bool) :
    Sound (recovered s reason inTask ok) := by
  have hnone : ∀ id, s.tasks.get? id = none := h.knows _ hhandler
  have hbase : Base (recovered s reason inTask ok) := by
    refine Base.down hnone ?_
    cases ok with
    | false => rfl
    | true => rfl
  exact hbase.unlocked rfl

theorem locked_eq_some (h : locked s t = some u) : s.handler = none ∧ u = t := by
  unfold locked at h
  split at h
  · cases h
  · next hfree =>
    cases h
    exact ⟨Option.not_isSome_iff_eq_none.mp hfree, rfl⟩

theorem sound_step {a : Step} (h : Sound s) (hturn : inTurn s a = true)
    (hstep : step s a = some t) : Sound t := by
  cases a with
  | tick elapsed
  | session uid
  | backend journal armed =>
    cases hstep
    exact h.frame rfl rfl rfl rfl rfl rfl rfl rfl rfl
  | mask persist =>
    obtain ⟨-, rfl⟩ := locked_eq_some hstep
    split
    · exact h
    · exact h.base.take _ trivial
  | masked resolved saved usb =>
    simp only [step] at hstep
    split at hstep
    · cases hstep
      refine sound_masked h _ resolved saved usb fun hresolved => ?_
      rw [hresolved] at hturn
      exact hturn
    · cases hstep
  | quiesced token =>
    obtain ⟨hfree, rfl⟩ := locked_eq_some hstep
    exact sound_quiesced h token hfree
  | applied id ok =>
    obtain ⟨task, hget, hstep⟩ := Option.bind_eq_some_iff.mp hstep
    split at hstep
    · cases hstep
      exact sound_applied h hget ok
    · cases hstep
  | ready token saved =>
    obtain ⟨hfree, rfl⟩ := locked_eq_some hstep
    exact sound_ready h hfree token saved
  | keep token persist =>
    obtain ⟨-, rfl⟩ := locked_eq_some hstep
    exact sound_keep h token persist
  | kept saved =>
    simp only [step] at hstep
    split at hstep
    · cases hstep
      exact sound_kept h _ saved
    · cases hstep
  | persistence token persist saved =>
    obtain ⟨-, rfl⟩ := locked_eq_some hstep
    obtain heq | ⟨policy, heq⟩ := persistence_cases s token persist saved
    · rw [heq]
      exact h
    · rw [heq]
      exact h.frame rfl rfl rfl rfl rfl rfl rfl rfl rfl
  | resume =>
    obtain ⟨-, rfl⟩ := locked_eq_some hstep
    split
    · exact h
    · exact h.frame rfl rfl rfl rfl rfl rfl rfl rfl rfl
  | autostart =>
    obtain ⟨-, rfl⟩ := locked_eq_some hstep
    exact sound_autostart h
  | autostarted outcome usb =>
    simp only [step] at hstep
    split at hstep
    · next authorised hhandler =>
      cases hstep
      refine sound_autostarted h hhandler fun houtcome => ?_
      rw [houtcome] at hturn
      exact hturn
    · cases hstep
  | startedAutomatically =>
    simp only [step] at hstep
    split at hstep
    · next hhandler =>
      cases hstep
      exact sound_startedAutomatically h hhandler
    · cases hstep
  | monitor verificationDue =>
    obtain ⟨-, rfl⟩ := locked_eq_some hstep
    exact sound_monitor h verificationDue
  | monitored finding =>
    simp only [step] at hstep
    split at hstep
    · next hhandler =>
      cases hstep
      exact sound_monitored h hhandler finding
    · cases hstep
  | requestRestore token unavailable forgets =>
    cases hstep
    exact sound_requestRestore h token unavailable forgets
  | requestEnable =>
    cases hstep
    split
    · exact sound_wait h _
    · exact h
  | enter id saved =>
    obtain ⟨request, -, hstep⟩ := Option.bind_eq_some_iff.mp hstep
    obtain ⟨-, rfl⟩ := locked_eq_some hstep
    have hentered : Sound { s with waiting := s.waiting.erase id } :=
      h.frame rfl rfl rfl rfl rfl rfl rfl rfl rfl
    exact sound_enter hentered saved request
  | replaced refreshable =>
    simp only [step] at hstep
    split at hstep
    · cases hstep
      refine sound_replaced h _ refreshable fun hrefreshable => ?_
      rw [hrefreshable] at hturn
      have hboth : idle s = true ∧ (!s.automatic || s.authority) = true :=
        Bool.and_eq_true _ _ ▸ hturn
      refine ⟨hboth.1, fun hauto => ?_⟩
      simpa [hauto] using hboth.2
    · cases hstep
  | recover =>
    obtain ⟨reason, -, hstep⟩ := Option.bind_eq_some_iff.mp hstep
    obtain ⟨-, rfl⟩ := locked_eq_some hstep
    exact sound_beginRestore h.base reason true
  | restore reason forgets =>
    obtain ⟨-, rfl⟩ := locked_eq_some hstep
    split
    · exact sound_beginRestore (sound_forget h).base reason false
    · exact sound_beginRestore h.base reason false
  | recovered ok =>
    simp only [step] at hstep
    split at hstep
    · next reason inTask hhandler =>
      cases hstep
      exact sound_recovered h hhandler ok
    · cases hstep

/-! ## What a step does to phase and authority -/

/- Nothing becomes permanent, and nothing is started. -/
structure Modest (s t : State) : Prop where
  phase : t.phase = .masked → s.phase = .masked
  authority : t.authority = true → s.authority = true ∨ s.phase = .masked
  allowed : ∀ authorised, t.handler = some (.autostart authorised) →
    s.handler = some (.autostart authorised) ∨ policyAllows t = true
  window : ∀ time, s.confirmationDeadline = some time →
    t.confirmationDeadline = some time ∨ t.confirmationDeadline = none ∧ t.authority = true

theorem Modest.of_same (hphase : t.phase = s.phase) (hauthority : t.authority = s.authority)
    (hwindow : t.confirmationDeadline = s.confirmationDeadline)
    (hhandler : t.handler = s.handler) : Modest s t := by
  refine ⟨fun heq => hphase ▸ heq, fun heq => .inl (hauthority ▸ heq),
    fun authorised heq => .inl (hhandler ▸ heq), fun time htime => .inl (hwindow.trans htime)⟩

/-- The handler is another one than `autostart`. -/
theorem Modest.of_handler (hphase : t.phase = .masked → s.phase = .masked)
    (hauthority : t.authority = true → s.authority = true)
    (hwindow : t.confirmationDeadline = s.confirmationDeadline)
    (hhandler : ∀ authorised, t.handler ≠ some (.autostart authorised)) : Modest s t := by
  refine ⟨hphase, fun heq => .inl (hauthority heq),
    fun authorised heq => absurd heq (hhandler authorised),
    fun time htime => .inl (hwindow.trans htime)⟩

theorem Modest.refl (s : State) : Modest s s := Modest.of_same rfl rfl rfl rfl

/-- Before the step, only what does not matter here has changed. -/
theorem Modest.after (h : Modest s t) (hphase : s.phase = u.phase)
    (hauthority : s.authority = u.authority)
    (hwindow : s.confirmationDeadline = u.confirmationDeadline)
    (hhandler : ∀ authorised, s.handler = some (.autostart authorised) →
      u.handler = some (.autostart authorised)) : Modest u t := by
  refine ⟨fun heq => hphase ▸ h.phase heq, fun heq => ?_, fun authorised heq => ?_,
    fun time htime => h.window time (hwindow.trans htime)⟩
  · rw [← hauthority, ← hphase]
    exact h.authority heq
  · exact (h.allowed authorised heq).imp_left (hhandler authorised)

theorem modest_beginRestore (reason : Reason) (inTask : Bool) :
    Modest s (beginRestore s reason inTask) := by
  unfold beginRestore
  simp only
  split
  · exact Modest.of_handler (fun heq => (by cases heq)) (fun heq => (by cases heq)) rfl
      fun _ heq => (by cases heq)
  · refine Modest.of_handler (fun heq => ?_) (fun heq => (by cases heq)) rfl
      fun _ heq => (by cases heq)
    have hphase (clean : Bool) (hmasked : (if clean then s.phase else .restored) = .masked) :
        s.phase = .masked := by
      cases clean with
      | false => cases hmasked
      | true => exact hmasked
    exact hphase _ heq

theorem modest_restoreIfExpired (hexpired : restoreIfExpired s = some t) : Modest s t := by
  unfold restoreIfExpired at hexpired
  split at hexpired
  · cases hexpired
  · cases hexpired
    exact (modest_beginRestore _ _).after rfl rfl rfl fun _ heq => heq

theorem modest_refreshInterfaces (hfree : ∀ authorised, s.handler ≠ some (.autostart authorised))
    (hauthority : s.automatic = true → s.authority = true) : Modest s (refreshInterfaces s) := by
  refine ⟨fun heq => (by cases heq), fun heq => ?_, fun authorised heq =>
    absurd heq (hfree authorised), fun time htime => ?_⟩
  · simp only [refreshInterfaces, Bool.or_eq_true, decide_eq_true_eq] at heq
    exact heq.symm
  · simp only [refreshInterfaces, Bool.or_eq_true, decide_eq_true_eq]
    split
    · next hkept => exact .inr ⟨rfl, hkept.imp_right hauthority⟩
    · exact .inl htime

theorem modest_beginRecovery (reason : Reason) : Modest s (beginRecovery s reason) := by
  unfold beginRecovery
  split
  · exact ⟨fun heq => (by cases heq), fun heq => .inl heq, fun _ heq => .inl heq,
      fun _ htime => .inl htime⟩
  · exact Modest.refl s

theorem modest_autostart : Modest s (autostart s) := by
  unfold autostart
  split
  · exact Modest.refl s
  · next hstart =>
    simp only [not_or, Bool.not_eq_false] at hstart
    exact ⟨fun heq => heq, fun heq => .inl heq, fun _ _ => .inr hstart.2.2.1,
      fun _ htime => .inl htime⟩

theorem modest_requestRestore (token : Option ℕ) (unavailable forgets : Bool) :
    Modest s (requestRestore s token unavailable forgets) := by
  unfold requestRestore
  simp only
  split
  · exact Modest.refl s
  · split
    · exact Modest.of_same rfl rfl rfl rfl
    · split
      · exact Modest.of_same rfl rfl rfl rfl
      · exact modest_beginRecovery _

theorem modest_enter (saved : Bool) (request : Waiting) : Modest s (enter s saved request) := by
  cases request with
  | replacement forgets =>
    exact Modest.of_handler (fun heq => heq) (fun heq => heq) rfl fun _ heq => (by cases heq)
  | forget reason =>
    simp only [enter]
    split
    · exact Modest.refl s
    · obtain heq | ⟨policy, heq⟩ := forget_cases s
      · rw [heq]
        exact modest_beginRecovery reason
      · rw [heq]
        exact (modest_beginRecovery reason).after rfl rfl rfl fun _ heq => heq
  | enable =>
    simp only [enter]
    split
    · exact Modest.refl s
    · split
      · exact Modest.refl s
      · exact modest_autostart.after rfl rfl rfl fun _ heq => heq

theorem modest_monitor (verificationDue : Bool) : Modest s (monitor s verificationDue) := by
  unfold Reservation.monitor
  split
  · exact modest_beginRestore _ _
  · split
    · split
      · exact modest_beginRestore _ _
      · split
        · next hexpired => exact modest_restoreIfExpired hexpired
        · split
          · exact Modest.refl s
          · exact Modest.of_handler (fun heq => heq) (fun heq => heq) rfl
              fun _ heq => (by cases heq)
    · exact Modest.refl s

/-- The handler gives the lock back, and goes on. -/
theorem Modest.released (h : Modest { s with handler := none } t) : Modest s t :=
  h.after rfl rfl rfl fun _ heq => (by cases heq)

theorem modest_release : Modest s { s with handler := none } :=
  Modest.of_handler (fun heq => heq) (fun heq => heq) rfl fun _ heq => (by cases heq)

theorem modest_monitored (h : Sound s) (hhandler : s.handler = some .monitor) (finding : Finding) :
    Modest s (monitored s finding) := by
  obtain ⟨-, hauthority⟩ : Knows s .monitor := h.knows _ hhandler
  unfold monitored
  cases finding with
  | unreadable => exact modest_release
  | missing
  | changed => exact (modest_beginRestore _ _).released
  | same =>
    simp only
    cases hexpired : restoreIfExpired { s with handler := none } with
    | none => exact modest_release
    | some t => exact (modest_restoreIfExpired hexpired).released
  | refreshable =>
    have hrefreshed : Modest { s with handler := none }
        (refreshInterfaces { s with handler := none }) :=
      modest_refreshInterfaces (fun _ heq => (by cases heq)) hauthority
    exact hrefreshed.released

theorem modest_replaced (forgets refreshable : Bool)
    (hturn : refreshable = true → s.automatic = true → s.authority = true) :
    Modest s (replaced s forgets refreshable) := by
  unfold Reservation.replaced
  simp only
  split
  · next hrefreshable =>
    have hrefreshed : Modest { s with handler := none }
        (refreshInterfaces { s with handler := none }) :=
      modest_refreshInterfaces (fun _ heq => (by cases heq)) (hturn hrefreshable)
    exact hrefreshed.released
  · split
    · exact Modest.of_handler (fun heq => heq) (fun heq => heq) rfl fun _ heq => (by cases heq)
    · exact (modest_beginRecovery _).released

theorem modest_keep (token : Option ℕ) (persist : Bool) : Modest s (keep s token persist) := by
  unfold keep
  split
  · split
    · exact Modest.refl s
    · exact Modest.of_handler (fun heq => heq) (fun heq => heq) rfl fun _ heq => (by cases heq)
  · exact Modest.refl s

theorem modest_quiesced (token : Option ℕ) : Modest s (quiesced s token) := by
  unfold Reservation.quiesced
  split
  · exact Modest.of_same rfl rfl rfl rfl
  · exact Modest.refl s

theorem modest_applied (id : ℕ) (task : ApplyTask) (ok : Bool) :
    Modest s (applied s id task ok) := by
  unfold applied
  simp only
  split
  · exact ⟨fun heq => (by cases heq), fun heq => .inl heq, fun _ heq => .inl heq,
      fun _ htime => .inl htime⟩
  · exact Modest.of_same rfl rfl rfl rfl

/-- All steps but a confirmation and the start of a mask are modest. -/
theorem modest_step {a : Step} (h : Sound s) (hturn : inTurn s a = true)
    (hstep : step s a = some t) : Modest s t ∨ (∃ token saved, a = .ready token saved) ∨
      (∃ saved, a = .kept saved) ∨ starts a = true := by
  cases a with
  | tick elapsed
  | session uid
  | backend journal armed =>
    cases hstep
    exact .inl (Modest.of_same rfl rfl rfl rfl)
  | mask persist =>
    obtain ⟨-, rfl⟩ := locked_eq_some hstep
    left
    split
    · exact Modest.refl s
    · exact Modest.of_handler (fun heq => heq) (fun heq => heq) rfl fun _ heq => (by cases heq)
  | masked resolved saved usb => exact .inr (.inr (.inr rfl))
  | quiesced token =>
    obtain ⟨-, rfl⟩ := locked_eq_some hstep
    exact .inl (modest_quiesced token)
  | applied id ok =>
    obtain ⟨task, -, hstep⟩ := Option.bind_eq_some_iff.mp hstep
    split at hstep
    · cases hstep
      exact .inl (modest_applied id task ok)
    · cases hstep
  | ready token saved => exact .inr (.inl ⟨token, saved, rfl⟩)
  | keep token persist =>
    obtain ⟨-, rfl⟩ := locked_eq_some hstep
    exact .inl (modest_keep token persist)
  | kept saved => exact .inr (.inr (.inl ⟨saved, rfl⟩))
  | persistence token persist saved =>
    obtain ⟨-, rfl⟩ := locked_eq_some hstep
    left
    obtain heq | ⟨policy, heq⟩ := persistence_cases s token persist saved
    · rw [heq]
      exact Modest.refl s
    · rw [heq]
      exact Modest.of_same rfl rfl rfl rfl
  | resume =>
    obtain ⟨-, rfl⟩ := locked_eq_some hstep
    left
    split
    · exact Modest.refl s
    · exact Modest.of_same rfl rfl rfl rfl
  | autostart =>
    obtain ⟨-, rfl⟩ := locked_eq_some hstep
    exact .inl modest_autostart
  | autostarted outcome usb =>
    cases outcome with
    | started => exact .inr (.inr (.inr rfl))
    | absent =>
      simp only [step] at hstep
      split at hstep
      · cases hstep
        exact .inl modest_release
      · cases hstep
    | failed =>
      simp only [step] at hstep
      split at hstep
      · cases hstep
        exact .inl (Modest.of_handler (fun heq => heq) (fun heq => heq) rfl
          fun _ heq => (by cases heq))
      · cases hstep
  | startedAutomatically =>
    simp only [step] at hstep
    split at hstep
    · cases hstep
      exact .inl (Modest.of_handler (fun heq => heq) (fun heq => heq) rfl
        fun _ heq => (by cases heq))
    · cases hstep
  | monitor verificationDue =>
    obtain ⟨-, rfl⟩ := locked_eq_some hstep
    exact .inl (modest_monitor verificationDue)
  | monitored finding =>
    simp only [step] at hstep
    split at hstep
    · next hhandler =>
      cases hstep
      exact .inl (modest_monitored h hhandler finding)
    · cases hstep
  | requestRestore token unavailable forgets =>
    cases hstep
    exact .inl (modest_requestRestore token unavailable forgets)
  | requestEnable =>
    cases hstep
    left
    split
    · exact Modest.of_same rfl rfl rfl rfl
    · exact Modest.refl s
  | enter id saved =>
    obtain ⟨request, -, hstep⟩ := Option.bind_eq_some_iff.mp hstep
    obtain ⟨-, rfl⟩ := locked_eq_some hstep
    exact .inl ((modest_enter saved request).after rfl rfl rfl fun _ heq => heq)
  | replaced refreshable =>
    simp only [step] at hstep
    split at hstep
    · cases hstep
      refine .inl (modest_replaced _ refreshable fun hrefreshable hauto => ?_)
      rw [hrefreshable] at hturn
      have hboth : (!s.automatic || s.authority) = true := (Bool.and_eq_true _ _ ▸ hturn).2
      simpa [hauto] using hboth
    · cases hstep
  | recover =>
    obtain ⟨reason, -, hstep⟩ := Option.bind_eq_some_iff.mp hstep
    obtain ⟨-, rfl⟩ := locked_eq_some hstep
    exact .inl (modest_beginRestore reason true)
  | restore reason forgets =>
    obtain ⟨-, rfl⟩ := locked_eq_some hstep
    left
    split
    · obtain heq | ⟨policy, heq⟩ := forget_cases s
      · rw [heq]
        exact modest_beginRestore reason false
      · rw [heq]
        exact (modest_beginRestore reason false).after rfl rfl rfl fun _ heq => heq
    · exact modest_beginRestore reason false
  | recovered ok =>
    simp only [step] at hstep
    split at hstep
    · next reason inTask hhandler =>
      cases hstep
      refine .inl (Modest.of_handler (fun heq => ?_) (fun heq => heq) rfl
        fun _ heq => (by cases heq))
      cases ok with
      | false => cases heq
      | true => cases heq
    · cases hstep

/-! ## The steps that are not modest -/

theorem ready_cases (token : Option ℕ) (saved : Bool) : ready s token saved = s ∨
    token = s.token ∧ inTime s = true ∧ s.phase = .acquiring ∧
      (s.automatic = true ∧ ready s token saved = becomeMasked s saved ∨
        ready s token saved = { s with
          phase := .trial
          confirmationDeadline := some (s.confirmationDeadline.getD (s.clock + trialMs)) }) := by
  unfold ready
  split
  · next hready =>
    refine .inr ⟨hready.1, hready.2.2.1, hready.2.2.2, ?_⟩
    split
    · next hauto => exact .inl ⟨hauto, rfl⟩
    · exact .inr rfl
  · exact .inl rfl

theorem kept_cases (policy : Policy) (saved : Bool) :
    (kept s policy saved).handler = none ∧ (kept s policy saved).authority = s.authority ∧
      (kept s policy saved).confirmationDeadline = s.confirmationDeadline ∧
      ((kept s policy saved).phase = s.phase ∨ s.phase = .trial) := by
  unfold kept
  simp only
  split
  · split
    · next htrial => exact ⟨rfl, rfl, rfl, .inr htrial⟩
    · exact ⟨rfl, rfl, rfl, .inl rfl⟩
  · exact ⟨rfl, rfl, rfl, .inl rfl⟩

/- A start that is refused, or a mask that is put up. -/
structure Starts (s t : State) : Prop where
  phase : t.phase = s.phase ∨ t.phase = .applying
  authority : t.authority = true →
    s.authority = true ∨ policyAllows t = true ∨ s.handler = some (.autostart true)
  handler : ∀ authorised, t.handler ≠ some (.autostart authorised)
  window : t.confirmationDeadline = s.confirmationDeadline ∨ t.confirmationDeadline = none

theorem starts_step {a : Step} (hstarts : starts a = true) (hstep : step s a = some t) :
    Starts s t := by
  cases a with
  | masked resolved saved usb =>
    simp only [step] at hstep
    split at hstep
    · next persist _ =>
      cases hstep
      unfold Reservation.masked
      simp only
      split
      · exact ⟨.inl rfl, fun heq => .inl heq, fun _ heq => (by cases heq), .inl rfl⟩
      · refine ⟨.inr rfl, fun heq => .inr (.inl ?_), fun _ heq => (by cases heq), .inr rfl⟩
        simp only [activate] at heq
        rw [Bool.and_eq_true] at heq
        exact heq.2
    · cases hstep
  | autostarted outcome usb =>
    simp only [step] at hstep
    split at hstep
    · next authorised hhandler =>
      cases hstep
      cases outcome with
      | absent => cases hstarts
      | failed => cases hstarts
      | started =>
        unfold autostarted
        simp only
        split
        · exact ⟨.inl rfl, fun heq => .inl heq, fun _ heq => (by cases heq), .inl rfl⟩
        · refine ⟨.inr rfl, fun heq => .inr (.inr ?_), fun _ heq => (by cases heq), .inr rfl⟩
          have hauthorised : authorised = true := heq
          rw [hhandler, hauthorised]
    · cases hstep
  | _ => cases hstarts

theorem masked_step {a : Step} (h : Sound s) (hturn : inTurn s a = true)
    (hstep : step s a = some t) (hafter : t.phase = .masked) (hbefore : s.phase ≠ .masked) :
    s.token.isSome = true ∧ s.completed = s.token ∧
      ((∃ saved, a = .ready s.token saved ∧ inTime s = true ∧ s.automatic = true ∧
          s.authority = true) ∨
        ∃ saved policy asked, a = .kept saved ∧ s.handler = some (.keep s.token policy asked) ∧
          s.phase = .trial ∧ asked < deadline s) := by
  rcases modest_step h hturn hstep with
    hmodest | ⟨token, saved, rfl⟩ | ⟨saved, rfl⟩ | hstarts
  · exact absurd (hmodest.phase hafter) hbefore
  · obtain ⟨-, rfl⟩ := locked_eq_some hstep
    rcases ready_cases (s := s) token saved with heq | ⟨rfl, htime, hphase, ⟨hauto, -⟩ | heq⟩
    · rw [heq] at hafter
      exact absurd hafter hbefore
    · obtain ⟨hcompleted, htoken⟩ := h.base.completed (.inl hphase)
      refine ⟨htoken, hcompleted, .inl ⟨saved, rfl, htime, hauto, ?_⟩⟩
      refine h.base.automatic (.inl ?_) hauto
      unfold active
      rw [hphase]
      rfl
    · rw [heq] at hafter
      cases hafter
  · simp only [step] at hstep
    split at hstep
    · next token policy asked hhandler =>
      cases hstep
      obtain ⟨-, -, -, hphase | htrial⟩ := kept_cases (s := s) policy saved
      · exact absurd (hphase.symm.trans hafter) hbefore
      · obtain ⟨hcompleted, htoken⟩ := h.base.completed (.inr (.inl htrial))
        obtain ⟨rfl, hasked⟩ : Knows s (.keep token policy asked) := h.knows _ hhandler
        obtain ⟨time, htime⟩ := Option.isSome_iff_exists.mp (h.base.window htrial)
        refine ⟨htoken, hcompleted, .inr ⟨saved, policy, asked, rfl, hhandler, htrial, ?_⟩⟩
        rw [deadline_trial htrial htime]
        exact hasked htrial time htime
    · cases hstep
  · rcases (starts_step hstarts hstep).phase with hphase | hphase
    · exact absurd (hphase.symm.trans hafter) hbefore
    · rw [hafter] at hphase
      cases hphase

theorem granted_step {a : Step} (h : Sound s) (hturn : inTurn s a = true)
    (hstep : step s a = some t) (hauthority : t.authority = true) :
    s.authority = true ∨ s.phase = .masked ∨ policyAllows t = true ∨
      s.handler = some (.autostart true) := by
  rcases modest_step h hturn hstep with
    hmodest | ⟨token, saved, rfl⟩ | ⟨saved, rfl⟩ | hstarts
  · exact (hmodest.authority hauthority).imp_right .inl
  · obtain ⟨-, rfl⟩ := locked_eq_some hstep
    left
    rcases ready_cases (s := s) token saved with heq | ⟨-, -, -, ⟨-, heq⟩ | heq⟩
    · exact heq ▸ hauthority
    · rw [heq] at hauthority
      exact hauthority
    · rw [heq] at hauthority
      exact hauthority
  · simp only [step] at hstep
    split at hstep
    · next policy _ _ =>
      cases hstep
      obtain ⟨-, hsame, -⟩ := kept_cases (s := s) policy saved
      exact .inl (hsame.symm.trans hauthority)
    · cases hstep
  · exact ((starts_step hstarts hstep).authority hauthority).imp_right .inr

theorem allowed_step {a : Step} (h : Sound s) (hturn : inTurn s a = true)
    (hstep : step s a = some t) {authorised : Bool}
    (hhandler : t.handler = some (.autostart authorised)) :
    s.handler = some (.autostart authorised) ∨ policyAllows t = true := by
  rcases modest_step h hturn hstep with
    hmodest | ⟨token, saved, rfl⟩ | ⟨saved, rfl⟩ | hstarts
  · exact hmodest.allowed authorised hhandler
  · obtain ⟨-, rfl⟩ := locked_eq_some hstep
    left
    rcases ready_cases (s := s) token saved with heq | ⟨-, -, -, ⟨-, heq⟩ | heq⟩
    · exact heq ▸ hhandler
    · rw [heq] at hhandler
      exact hhandler
    · rw [heq] at hhandler
      exact hhandler
  · simp only [step] at hstep
    split at hstep
    · next policy _ _ =>
      cases hstep
      obtain ⟨hnone, -⟩ := kept_cases (s := s) policy saved
      rw [hnone] at hhandler
      cases hhandler
    · cases hstep
  · exact absurd hhandler ((starts_step hstarts hstep).handler authorised)

theorem window_step {a : Step} (h : Sound s) (hturn : inTurn s a = true)
    (hstep : step s a = some t) {time : ℕ} (htime : s.confirmationDeadline = some time) :
    t.confirmationDeadline = some time ∨
      t.confirmationDeadline = none ∧ (starts a = true ∨ t.authority = true) := by
  rcases modest_step h hturn hstep with
    hmodest | ⟨token, saved, rfl⟩ | ⟨saved, rfl⟩ | hstarts
  · exact (hmodest.window time htime).imp_right fun hnone => ⟨hnone.1, .inr hnone.2⟩
  · obtain ⟨-, rfl⟩ := locked_eq_some hstep
    left
    rcases ready_cases (s := s) token saved with heq | ⟨-, -, -, ⟨-, heq⟩ | heq⟩
    · rw [heq]
      exact htime
    · rw [heq]
      exact htime
    · rw [heq, htime]
      rfl
  · simp only [step] at hstep
    split at hstep
    · next policy _ _ =>
      cases hstep
      obtain ⟨-, -, hsame, -⟩ := kept_cases (s := s) policy saved
      exact .inl (hsame.trans htime)
    · cases hstep
  · rcases (starts_step hstarts hstep).window with hsame | hnone
    · exact .inl (hsame.trans htime)
    · exact .inr ⟨hnone, .inl hstarts⟩

/-! ## Messages, completions and the monitor -/

theorem stale_message {a : Step} {token : Option ℕ} (hstale : token ≠ s.token)
    (ha : (∃ saved, a = .ready token saved) ∨ (∃ persist, a = .keep token persist) ∨
      a = .quiesced token) (hstep : step s a = some t) : t = s := by
  rcases ha with ⟨saved, rfl⟩ | ⟨persist, rfl⟩ | rfl
  · obtain ⟨-, rfl⟩ := locked_eq_some hstep
    unfold ready
    rw [if_neg fun hready => hstale hready.1]
  · obtain ⟨-, rfl⟩ := locked_eq_some hstep
    unfold keep
    rw [if_neg fun hkeep => hstale hkeep.1]
  · obtain ⟨-, rfl⟩ := locked_eq_some hstep
    unfold Reservation.quiesced
    rw [if_neg fun hquiesced => hstale hquiesced.2.2]

theorem expired_monitor {due : Bool} (hactive : active s = true) (hphase : s.phase ≠ .masked)
    (hexpired : deadline s ≤ s.clock) : (monitor s due).phase = .restoring ∧
      ∃ reason, (monitor s due).handler = some (.restore reason false) := by
  unfold Reservation.monitor
  split
  · next hfailed =>
    unfold active at hactive
    rw [hfailed] at hactive
    cases hactive
  · split
    · exact beginRestore_up (.inl hactive) _ _
    · have hlate : ¬ (s.phase = .masked ∨ inTime s = true) := by
        rintro (heq | htime)
        · exact hphase heq
        · unfold inTime at htime
          rw [decide_eq_true_eq] at htime
          omega
      unfold restoreIfExpired
      rw [if_neg hlate]
      exact beginRestore_up (s := { s with error := s.error || activationTimedOut s })
        (.inl hactive) .trialExpired false

theorem byAuthority_step {a : Step} (h : Sound s) (hturn : inTurn s a = true)
    (hstep : step s a = some t) : ByAuthority s a t where
  masked := fun hafter hbefore => masked_step h hturn hstep hafter hbefore
  granted := fun hauthority => granted_step h hturn hstep hauthority
  allowed := fun _ hhandler => allowed_step h hturn hstep hhandler
  messages := fun _ hstale ha => stale_message hstale ha hstep
  completions := by
    intro id ok ha _
    subst ha
    obtain ⟨task, hget, -⟩ := Option.bind_eq_some_iff.mp hstep
    exact ⟨task, hget, (h.base.single id task hget).1⟩
  window := fun _ htime => window_step h hturn hstep htime
  expired := by
    intro due ha hactive hphase hexpired
    subst ha
    obtain ⟨-, rfl⟩ := locked_eq_some hstep
    exact expired_monitor hactive hphase hexpired
  restored := by
    intro ok reason inTask ha hhandler
    subst ha
    simp only [step, hhandler] at hstep
    cases hstep
    rfl
  retried := by
    intro due ha hfailed
    subst ha
    obtain ⟨-, rfl⟩ := locked_eq_some hstep
    unfold Reservation.monitor
    rw [if_pos hfailed]
    exact beginRestore_up (.inr hfailed) _ _

theorem sound_initial (h : Initial s) : Sound s := by
  refine Base.unlocked (Base.down (fun id => ?_) ?_) h.handler
  · rw [h.tasks]
    rfl
  · unfold active
    rcases h.phase with heq | heq | heq
    · rw [heq]
      rfl
    · rw [heq]
      rfl
    · rw [heq]
      rfl

end Invariant

/-- Where activations begin one after the other, every step of a reservation is by
authority. -/
theorem masked_by_authority {s u t : State} {steps : List Step} {a : Step} (hinitial : Initial s)
    (hguard : Guarded step (fun s a => inTurn s a = true) s (steps ++ [a]))
    (hrun : run step s steps = some u) (hstep : step u a = some t) : ByAuthority u a t := by
  obtain ⟨hsound, hturn⟩ := guarded_run_split (I := Sound)
    (fun _ _ _ h hturn hstep => sound_step h hturn hstep) (sound_initial hinitial) hguard hrun
  exact byAuthority_step hsound hturn hstep

/-- A USB receiver with a policy, which asks for the mask. -/
def savedMask : State :=
  { phase := .restored, policy := some { ownerUid := 1, persist := true }, sessionUid := some 1 }

/-- The mask is started, and its readers are there. -/
def automaticStart : List Step :=
  [.autostart, .autostarted .started true, .startedAutomatically, .quiesced (some 0),
    .applied 0 true]

theorem initial_savedMask : Initial savedMask := ⟨.inr (.inl rfl), rfl, rfl, rfl⟩

theorem automatic_start_masked : ∃ u t, run step savedMask automaticStart = some u ∧
    step u (.ready (some 0) true) = some t ∧ t.phase = .masked ∧
    u.completed = some 0 ∧ u.authority = true := by
  have hruns : ((run step savedMask automaticStart).any fun u =>
      (step u (.ready (some 0) true)).any fun t =>
        t.phase = .masked && u.phase = .acquiring && u.token = some 0) = true := by
    decide
  obtain ⟨u, hrun, hu⟩ := (Option.any_eq_true _ _).mp hruns
  obtain ⟨t, hstep, ht⟩ := (Option.any_eq_true _ _).mp hu
  simp only [Bool.and_eq_true, decide_eq_true_eq] at ht
  obtain ⟨⟨hmasked, hacquiring⟩, htoken⟩ := ht
  have hauthority := masked_by_authority initial_savedMask (by decide) hrun hstep
  obtain ⟨-, hcompleted, hready | ⟨_, _, _, hkept, -⟩⟩ :=
    hauthority.masked hmasked (by rw [hacquiring]; intro heq; cases heq)
  · obtain ⟨_, -, -, -, hgranted⟩ := hready
    exact ⟨u, t, hrun, hstep, hmasked, hcompleted.trans htoken, hgranted⟩
  · cases hkept

/-- The monitor and a restore request both see that the interfaces have changed, and each
of them refreshes the mask. -/
def refreshedTwice : List Step :=
  automaticStart ++ [.ready (some 0) true, .monitor true, .requestRestore (some 0) true false,
    .monitored .refreshable, .enter 1 true, .replaced true, .quiesced (some 2), .applied 2 true]

/-- The end of the first refresh makes the second one permanent, whose activation still
runs. -/
theorem refreshed_twice_masked : ∃ u t, run step savedMask refreshedTwice = some u ∧
    step u (.ready (some 2) true) = some t ∧ u.phase = .acquiring ∧ t.phase = .masked ∧
    u.token = some 2 ∧ u.completed = some 1 ∧ idle t = false ∧
    ¬ ByAuthority u (.ready (some 2) true) t := by
  have hruns : ((run step savedMask refreshedTwice).any fun u =>
      (step u (.ready (some 2) true)).any fun t =>
        u.phase = .acquiring && t.phase = .masked && u.token = some 2 && u.completed = some 1 &&
          !idle t) = true := by
    decide
  obtain ⟨u, hrun, hu⟩ := (Option.any_eq_true _ _).mp hruns
  obtain ⟨t, hstep, ht⟩ := (Option.any_eq_true _ _).mp hu
  simp only [Bool.and_eq_true, decide_eq_true_eq, Bool.not_eq_true'] at ht
  obtain ⟨⟨⟨⟨hacquiring, hmasked⟩, htoken⟩, hcompleted⟩, hruns⟩ := ht
  refine ⟨u, t, hrun, hstep, hacquiring, hmasked, htoken, hcompleted, hruns, fun hauthority => ?_⟩
  obtain ⟨-, hsame, -⟩ := hauthority.masked hmasked
    (by rw [hacquiring]; intro heq; cases heq)
  rw [hcompleted, htoken] at hsame
  cases hsame

end Keymasq.Masking.Authority
