import Keymasq.Feedback.Effects

/-!
# Every operation can be finished

The first operation that is not finished can go on, whatever it is: so from every state
all requests and plays can be worked off.
-/

namespace Keymasq.Feedback.Progress
open Foundation Transition Proxy Sequence Effects


variable {V P : Type} [DecidableEq V] [DecidableEq P]

/-- A step of an operation, not an event of the virtual device. -/
def answers : Step V P → Bool
  | .uploadRequest _ => false
  | .eraseRequest _ => false
  | .play _ _ => false
  | .otherEvent => false
  | _ => true

/-- All operations are finished. -/
def Quiet (s : State V P) : Prop :=
  ∀ id op, s.operations.get? id = some op → op.isDone = true

/-- The operation is finished, the others are as they were. -/
def Settled (id : Nat) (s t : State V P) : Prop :=
  t.nextOperation = s.nextOperation ∧
    (∀ j, j ≠ id → t.operations.get? j = s.operations.get? j) ∧
    ∃ op, t.operations.get? id = some op ∧ op.isDone = true

/-- Steps of operations finish the operation. -/
def CanSettle (id : Nat) (s : State V P) : Prop :=
  ∃ more t, (∀ a ∈ more, answers a = true) ∧ run step s more = some t ∧ Settled id s t

section Settle

variable {s t : State V P} {id : Nat} {op : Operation V P} {physical : P}

/-- One step finishes the operation. -/
theorem settle_done {a : Step V P} {ok : Bool} (ha : answers a = true) (hstep : step s a = some t)
    (hnext : t.nextOperation = s.nextOperation)
    (hops : ∀ j, t.operations.get? j =
      if j = id then some { op with phase := .done ok } else s.operations.get? j) :
    CanSettle id s := by
  refine ⟨[a], t, ?_, by rw [run_cons, hstep]; rfl, hnext, fun j hj => ?_, ?_⟩
  · intro b hb
    rwa [List.mem_singleton.mp hb]
  · rw [hops, if_neg hj]
  · exact ⟨_, by rw [hops, if_pos rfl], rfl⟩

/-- One step leads to where the operation can be finished. -/
theorem settle_step {a : Step V P} {op' : Operation V P} (ha : answers a = true)
    (hstep : step s a = some t) (hnext : t.nextOperation = s.nextOperation)
    (hops : ∀ j, t.operations.get? j = if j = id then some op' else s.operations.get? j)
    (hrest : CanSettle id t) : CanSettle id s := by
  obtain ⟨more, u, hmore, hrun, hcount, hothers, hdone⟩ := hrest
  refine ⟨a :: more, u, ?_, by rw [run_cons, hstep]; exact hrun, hcount.trans hnext,
    fun j hj => ?_, hdone⟩
  · intro b hb
    obtain rfl | hb := List.mem_cons.mp hb
    · exact ha
    · exact hmore b hb
  · rw [hothers j hj, hops, if_neg hj]

omit [DecidableEq V] [DecidableEq P] in
theorem get?_setPhase_self (s : State V P) (id : Nat) (op : Operation V P) (phase : Phase V P) :
    (setPhase s id op phase).operations.get? id = some { op with phase := phase } :=
  (get?_setPhase s id op phase id).trans (if_pos rfl)

theorem settle_flushing {effect : V} {plays : List (Play V)} (hget : s.operations.get? id = some op)
    (hkind : op.kind = .upload effect) (hphase : op.phase = .flushing physical plays) :
    CanSettle id s := by
  induction plays generalizing s op with
  | nil =>
    have hstep : step s (.write id) = some (complete s id op true) := by
      simp only [step, write, hget, Option.bind_some, hphase, hkind]
    exact settle_done rfl hstep rfl (get?_setPhase s id op _)
  | cons play plays ih =>
    have hstep : step s (.write id) = some { setPhase s id op (.flushing physical plays) with
        written := s.written ++ [(play, physical)] } := by
      simp only [step, write, hget, Option.bind_some, hphase, hkind]
    exact settle_step rfl hstep rfl (get?_setPhase s id op _)
      (ih (get?_setPhase_self s id op _) hkind rfl)

theorem settle_acknowledged {effect : V} (hget : s.operations.get? id = some op)
    (hkind : op.kind = .upload effect) (hphase : op.phase = .acknowledged physical)
    (hmapped : s.effects.get? effect = some physical) : CanSettle id s := by
  have hstep : step s (.finishUpload id) = some { setPhase s id op
      (.flushing physical (s.queuedUploadPlays.getD effect [])) with
        pendingUploads := s.pendingUploads.erase effect
        queuedUploadPlays := s.queuedUploadPlays.erase effect } := by
    simp only [step, finishUpload, hget, Option.bind_some, hphase, hkind, hmapped, if_true]
  exact settle_step rfl hstep rfl (get?_setPhase s id op _)
    (settle_flushing (get?_setPhase_self s id op _) hkind rfl)

theorem settle_writing {play : Play V} (hget : s.operations.get? id = some op)
    (hkind : op.kind = .play play) (hphase : op.phase = .writing physical) : CanSettle id s := by
  have hstep : step s (.write id) = some { complete s id op true with
      written := s.written ++ [(play, physical)] } := by
    simp only [step, write, hget, Option.bind_some, hphase, hkind]
  exact settle_done rfl hstep rfl (get?_setPhase s id op _)

omit [DecidableEq V] [DecidableEq P] in
/-- The first request that is not finished is the next of the worker. -/
theorem head_of_first (hs : Serial s) (hget : s.operations.get? id = some op)
    (hunfinished : op.isDone = false)
    (hbefore : ∀ j g, j < id → s.operations.get? j = some g → g.isDone = true)
    (hrequest : op.isRequest = true) : s.requestQueue.head? = some id := by
  have hmem := (hs.requests id).mpr ⟨op, hget, hrequest, hunfinished⟩
  have hsorted := hs.sorted
  have hunfinished' (j : Nat) (hj : j ∈ s.requestQueue) : ¬ j < id := by
    obtain ⟨g, hg, -, hdone⟩ := (hs.requests j).mp hj
    intro hlt
    rw [hbefore j g hlt hg] at hdone
    cases hdone
  cases hqueue : s.requestQueue with
  | nil =>
    rw [hqueue] at hmem
    cases hmem
  | cons k rest =>
    rw [hqueue] at hmem hsorted
    obtain rfl | hrest := List.mem_cons.mp hmem
    · rfl
    · have hlt := (List.pairwise_cons.mp hsorted).1 id hrest
      exact absurd hlt (hunfinished' k (by rw [hqueue]; exact List.mem_cons_self))

omit [DecidableEq V] [DecidableEq P] in
theorem previousDone_of_before (hs : Serial s) (hget : s.operations.get? id = some op)
    (hbefore : ∀ j g, j < id → s.operations.get? j = some g → g.isDone = true) :
    previousDone s op = true := by
  unfold previousDone
  cases hp : op.previous with
  | none => rfl
  | some p =>
    have hid := hs.previous id op p hget hp
    have hlt := hs.domain id op hget
    obtain ⟨g, hg⟩ := hs.total p (by omega)
    rw [Option.all_some, hg, Option.any_some]
    exact hbefore p g (by omega) hg

theorem settle_waiting (hs : Serial s) (hget : s.operations.get? id = some op)
    (hphase : op.phase = .waiting)
    (hbefore : ∀ j g, j < id → s.operations.get? j = some g → g.isDone = true) :
    CanSettle id s := by
  have hunfinished : op.isDone = false := by
    unfold Operation.isDone
    rw [hphase]
  have hguard : op.phase = .waiting ∧ previousDone s op = true ∧
      (op.isRequest = true → s.requestQueue.head? = some id) :=
    ⟨hphase, previousDone_of_before hs hget hbefore, head_of_first hs hget hunfinished hbefore⟩
  cases hkind : op.kind with
  | upload effect
  | erase effect =>
    have hstep : step s (.start id false) = some (complete s id op false) := by
      simp only [step, start, hget, Option.bind_some, if_pos hguard, hkind]
      rfl
    exact settle_done rfl hstep rfl (get?_setPhase s id op _)
  | play play =>
    cases hmapped : s.effects.get? play.effect with
    | none =>
      have hstep : step s (.start id true) = some { complete s id op false with
          dropped := s.dropped ++ [play] } := by
        simp only [step, start, hget, Option.bind_some, if_pos hguard, hkind, hmapped]
      exact settle_done rfl hstep rfl (get?_setPhase s id op _)
    | some physical =>
      have hstep : step s (.start id true) = some (setPhase s id op (.writing physical)) := by
        simp only [step, start, hget, Option.bind_some, if_pos hguard, hkind, hmapped]
      exact settle_step rfl hstep rfl (get?_setPhase s id op _)
        (settle_writing (get?_setPhase_self s id op _) hkind rfl)
  | other =>
    have hstep : step s (.start id true) = some (complete s id op true) := by
      simp only [step, start, hget, Option.bind_some, if_pos hguard, hkind]
    exact settle_done rfl hstep rfl (get?_setPhase s id op _)

/-- The first operation that is not finished can be finished. -/
theorem can_settle (hs : Serial s) (hm : Mapped s) (hget : s.operations.get? id = some op)
    (hunfinished : op.isDone = false)
    (hbefore : ∀ j g, j < id → s.operations.get? j = some g → g.isDone = true) :
    CanSettle id s := by
  have hfits := hm.fits id op hget
  unfold Fits at hfits
  cases hphase : op.phase with
  | waiting => exact settle_waiting hs hget hphase hbefore
  | done ok =>
    unfold Operation.isDone at hunfinished
    rw [hphase] at hunfinished
    cases hunfinished
  | begun previous =>
    rw [hphase] at hfits
    cases hkind : op.kind with
    | upload effect =>
      have hstep : step s (.uploadEffect id none) =
          some (complete (discardPendingUpload s effect) id op false) := by
        simp only [step, uploadEffect, hget, Option.bind_some, hphase, hkind]
      exact settle_done rfl hstep rfl (get?_setPhase s id op _)
    | _ =>
      rw [hkind] at hfits
      exact hfits.elim
  | published previous physical =>
    rw [hphase] at hfits
    cases hkind : op.kind with
    | upload effect =>
      have hstep : step s (.endUpload id true true) =
          some (setPhase s id op (.acknowledged physical)) := by
        simp only [step, endUpload, hget, Option.bind_some, hphase, hkind, if_true]
      rw [hkind] at hfits
      exact settle_step rfl hstep rfl (get?_setPhase s id op _)
        (settle_acknowledged (get?_setPhase_self s id op _) hkind rfl hfits.1)
    | _ =>
      rw [hkind] at hfits
      exact hfits.elim
  | acknowledged physical =>
    rw [hphase] at hfits
    cases hkind : op.kind with
    | upload effect =>
      rw [hkind] at hfits
      exact settle_acknowledged hget hkind hphase hfits.1
    | _ =>
      rw [hkind] at hfits
      exact hfits.elim
  | flushing physical plays =>
    rw [hphase] at hfits
    cases hkind : op.kind with
    | upload effect => exact settle_flushing hget hkind hphase
    | _ =>
      rw [hkind] at hfits
      exact hfits.elim
  | erasing physical =>
    rw [hphase] at hfits
    cases hkind : op.kind with
    | erase effect =>
      have hstep : step s (.eraseEffect id true) = some { complete s id op true with
          live := s.live.erase physical } := by
        simp only [step, eraseEffect, hget, Option.bind_some, hphase, hkind, if_true]
      exact settle_done rfl hstep rfl (get?_setPhase s id op _)
    | _ =>
      rw [hkind] at hfits
      exact hfits.elim
  | writing physical =>
    rw [hphase] at hfits
    cases hkind : op.kind with
    | play play => exact settle_writing hget hkind hphase
    | _ =>
      rw [hkind] at hfits
      exact hfits.elim

end Settle

section Runs

variable {s t : State V P}

theorem serial_mapped_run {as : List (Step V P)} (hs : Serial s ∧ Mapped s)
    (hrun : run step s as = some t) : Serial t ∧ Mapped t := by
  refine run_invariant (I := fun s => Serial s ∧ Mapped s) (fun s a t h hstep => ?_) hs hrun
  have hmove := step_moves h.1 hstep
  exact ⟨serial_move h.1 hmove, mapped_move h.1 h.2 hmove⟩

/-- The operations are finished in turn; the induction is on how many are. -/
theorem finish_first (hs : Serial s) (hm : Mapped s) (n : Nat) (hn : n ≤ s.nextOperation) :
    ∃ more t, (∀ a ∈ more, answers a = true) ∧ run step s more = some t ∧
      t.nextOperation = s.nextOperation ∧
      ∀ j g, j < n → t.operations.get? j = some g → g.isDone = true := by
  induction n with
  | zero => exact ⟨[], s, fun a ha => (by cases ha), rfl, rfl, fun j g hj => by omega⟩
  | succ n ih =>
    obtain ⟨more, t, hmore, hrun, hnext, hbefore⟩ := ih (by omega)
    obtain ⟨hserial, hmapped⟩ := serial_mapped_run ⟨hs, hm⟩ hrun
    obtain ⟨op, hget⟩ := hserial.total n (by omega)
    cases hdone : op.isDone with
    | true =>
      refine ⟨more, t, hmore, hrun, hnext, fun j g hj hg => ?_⟩
      obtain hlt | rfl := Nat.lt_succ_iff_lt_or_eq.mp hj
      · exact hbefore j g hlt hg
      · rw [hget] at hg
        cases hg
        exact hdone
    | false =>
      obtain ⟨more', u, hmore', hrun', hnext', hothers, hsettled⟩ :=
        can_settle hserial hmapped hget hdone hbefore
      refine ⟨more ++ more', u, fun a ha => ?_, ?_, hnext'.trans hnext, fun j g hj hg => ?_⟩
      · obtain ha | ha := List.mem_append.mp ha
        · exact hmore a ha
        · exact hmore' a ha
      · rw [run_append, hrun]
        exact hrun'
      · obtain hlt | rfl := Nat.lt_succ_iff_lt_or_eq.mp hj
        · rw [hothers j (by omega)] at hg
          exact hbefore j g hlt hg
        · obtain ⟨op', hget', hdone'⟩ := hsettled
          rw [hget'] at hg
          cases hg
          exact hdone'

theorem can_finish (hs : Serial s) (hm : Mapped s) :
    ∃ more t, (∀ a ∈ more, answers a = true) ∧ run step s more = some t ∧ Quiet t := by
  obtain ⟨more, t, hmore, hrun, hnext, hdone⟩ := finish_first hs hm s.nextOperation (Nat.le_refl _)
  refine ⟨more, t, hmore, hrun, fun id op hget => hdone id op ?_ hget⟩
  rw [← hnext]
  exact (serial_mapped_run ⟨hs, hm⟩ hrun).1.domain id op hget

end Runs

end Keymasq.Feedback.Progress
