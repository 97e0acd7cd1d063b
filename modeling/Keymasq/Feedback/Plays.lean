import Keymasq.Foundation.Custody
import Keymasq.Feedback.Effects

/-!
# What becomes of a play

A play is parked, or carried by an operation, until it is written or dropped. While its
effect is established it is not dropped.
-/

namespace Keymasq.Feedback.Plays
open Foundation Transition Custody Proxy Sequence Effects


variable {V P : Type} [DecidableEq V]

/-- The plays that an operation is to write. -/
def carries (op : Operation V P) : List (Play V) :=
  match op.phase, op.kind with
  | .done _, _ => []
  | .flushing _ plays, _ => plays
  | _, .play play => [play]
  | _, _ => []

/-- The plays that are parked for an effect, or carried by an operation. -/
def holder (s : State V P) : V ⊕ Nat → List (Play V)
  | .inl effect => s.queuedUploadPlays.getD effect []
  | .inr id => (s.operations.get? id).elim [] carries

structure Kept (s : State V P) : Prop where
  owners : Exclusive (holder s) (s.written.map Prod.fst ++ s.dropped) fun play => play ∈ s.arrived
  numbered : ∀ play ∈ s.arrived, play.number < s.arrived.length

section Holders

variable {s t : State V P} {id : Nat} {op : Operation V P} {phase : Phase V P}

theorem holder_current (h : Current s id op) : holder s (.inr id) = carries op := by
  change (s.operations.get? id).elim [] carries = _
  rw [h.get]
  rfl

/-- The current operation carries something else. -/
theorem holder_phase
    (hops : ∀ j, t.operations.get? j =
      if j = id then some { op with phase := phase } else s.operations.get? j)
    (hqueued : t.queuedUploadPlays = s.queuedUploadPlays) (i : V ⊕ Nat) :
    holder t i = if i = .inr id then carries { op with phase := phase } else holder s i := by
  cases i with
  | inl v =>
    rw [if_neg (by simp)]
    unfold holder
    simp only
    rw [hqueued]
  | inr j =>
    unfold holder
    simp only [Sum.inr.injEq]
    rw [hops]
    split
    · rfl
    · rfl

/-- The operation goes on with what it carries. -/
theorem kept_phase (hk : Kept s) (h : Current s id op)
    (hops : ∀ j, t.operations.get? j =
      if j = id then some { op with phase := phase } else s.operations.get? j)
    (hqueued : t.queuedUploadPlays = s.queuedUploadPlays)
    (hcarries : carries ({ op with phase := phase } : Operation V P) = carries op)
    (harrived : t.arrived = s.arrived) (hwritten : t.written = s.written)
    (hdropped : t.dropped = s.dropped) : Kept t := by
  refine ⟨?_, by rw [harrived]; exact hk.numbered⟩
  rw [harrived, hwritten, hdropped]
  refine hk.owners.congr fun i => ?_
  rw [holder_phase hops hqueued]
  split
  · next heq => rw [heq, holder_current h, hcarries]
  · rfl

/-- The operation writes or drops the first play that it carries. -/
theorem kept_spend (hk : Kept s) (h : Current s id op) (play : Play V)
    (hops : ∀ j, t.operations.get? j =
      if j = id then some { op with phase := phase } else s.operations.get? j)
    (hqueued : t.queuedUploadPlays = s.queuedUploadPlays)
    (hcarries : carries op = play :: carries ({ op with phase := phase } : Operation V P))
    (harrived : t.arrived = s.arrived)
    (hspent : (s.written.map Prod.fst ++ s.dropped ++ [play]).Perm
      (t.written.map Prod.fst ++ t.dropped)) : Kept t := by
  refine ⟨?_, by rw [harrived]; exact hk.numbered⟩
  rw [harrived]
  have hspend : Exclusive (holder t) (s.written.map Prod.fst ++ s.dropped ++ [play]) fun play =>
      play ∈ s.arrived := by
    refine hk.owners.spend (.inr id) ?_ fun i hi => ?_
    · rw [holder_current h, holder_phase hops hqueued, if_pos rfl, hcarries]
      rfl
    · rw [holder_phase hops hqueued, if_neg hi]
  exact hspend.perm hspent

/-- The parked plays of the effect are dropped, and the operation carries nothing. -/
theorem kept_discard (hk : Kept s) (h : Current s id op) (effect : V)
    (hops : ∀ j, t.operations.get? j =
      if j = id then some { op with phase := phase } else s.operations.get? j)
    (hqueued : t.queuedUploadPlays = s.queuedUploadPlays.erase effect)
    (hcarries : carries ({ op with phase := phase } : Operation V P) = carries op)
    (harrived : t.arrived = s.arrived) (hwritten : t.written = s.written)
    (hdropped : t.dropped = s.dropped ++ s.queuedUploadPlays.getD effect []) : Kept t := by
  have hother (i : V ⊕ Nat) : holder t i = if i = .inl effect then [] else holder s i := by
    cases i with
    | inl v =>
      simp only [Sum.inl.injEq, holder, Dict.getD]
      rw [hqueued, Dict.get?_erase]
      split
      · rfl
      · rfl
    | inr j =>
      rw [if_neg (by simp)]
      unfold holder
      simp only
      rw [hops]
      split
      · next heq =>
        rw [heq, h.get, Option.elim_some, Option.elim_some, hcarries]
      · rfl
  refine ⟨?_, by rw [harrived]; exact hk.numbered⟩
  have hspend : Exclusive (holder t) (s.written.map Prod.fst ++ s.dropped ++
      s.queuedUploadPlays.getD effect []) fun play => play ∈ s.arrived := by
    refine hk.owners.spend (.inl effect) ?_ fun i hi => ?_
    · rw [hother, if_pos rfl, List.append_nil]
      rfl
    · rw [hother, if_neg hi]
  rw [harrived, hwritten, hdropped, ← List.append_assoc]
  exact hspend

/-- A new operation that is no play. -/
theorem kept_schedule (hs : Serial s) (hk : Kept s) {kind : Kind V}
    (hkind : carries ({ kind := kind, previous := s.operationTail } : Operation V P) = [])
    (hops : t.operations = s.operations.insert s.nextOperation
      { kind := kind, previous := s.operationTail })
    (hqueued : t.queuedUploadPlays = s.queuedUploadPlays) (harrived : t.arrived = s.arrived)
    (hwritten : t.written = s.written) (hdropped : t.dropped = s.dropped) : Kept t := by
  refine ⟨?_, by rw [harrived]; exact hk.numbered⟩
  rw [harrived, hwritten, hdropped]
  refine hk.owners.congr fun i => ?_
  cases i with
  | inl v =>
    unfold holder
    simp only
    rw [hqueued]
  | inr j =>
    unfold holder
    simp only
    rw [hops, Dict.get?_insert]
    split
    · next heq =>
      rw [Option.elim_some, hkind, heq]
      cases hget : s.operations.get? s.nextOperation with
      | none => rfl
      | some g => exact absurd (hs.domain _ g hget) (Nat.lt_irrefl _)
    · rfl

/-- A play with the next number is new. -/
theorem Kept.fresh (hk : Kept s) {play : Play V} (hnumber : play.number = s.arrived.length) :
    ∀ play' ∈ [play], ¬ play' ∈ s.arrived := by
  intro play' hplay hold
  rw [List.mem_singleton] at hplay
  have hlt := hk.numbered play' hold
  rw [hplay, hnumber] at hlt
  exact absurd hlt (Nat.lt_irrefl _)

theorem Kept.numbered_append (hk : Kept s) {play : Play V}
    (hnumber : play.number = s.arrived.length) :
    ∀ play' ∈ s.arrived ++ [play], play'.number < (s.arrived ++ [play]).length := by
  intro play' hplay
  rw [List.length_append, List.length_singleton]
  obtain hold | hnew := List.mem_append.mp hplay
  · have hlt := hk.numbered play' hold
    omega
  · rw [List.mem_singleton] at hnew
    rw [hnew, hnumber]
    exact Nat.lt_succ_self _

variable [DecidableEq P]

omit [DecidableEq V] in
theorem mem_append_singleton (plays : List (Play V)) (play : Play V) :
    (fun play' => play' ∈ plays ∨ play' ∈ [play]) = fun play' => play' ∈ plays ++ [play] := by
  funext play'
  rw [List.mem_append]

omit [DecidableEq P] in
/-- A new play comes to a holder. -/
theorem Kept.give (hk : Kept s) {play : Play V} (hnumber : play.number = s.arrived.length)
    (i : V ⊕ Nat) (hnew : holder t i = holder s i ++ [play])
    (hother : ∀ j, j ≠ i → holder t j = holder s j) (harrived : t.arrived = s.arrived ++ [play])
    (hwritten : t.written = s.written) (hdropped : t.dropped = s.dropped) : Kept t := by
  have hgive := hk.owners.give i (List.nodup_singleton play) (hk.fresh hnumber) hnew hother
  rw [mem_append_singleton] at hgive
  refine ⟨?_, ?_⟩
  · rwa [harrived, hwritten, hdropped]
  · rw [harrived]
    exact hk.numbered_append hnumber

omit [DecidableEq P] in
theorem kept_playEvent (hs : Serial s) (hk : Kept s) (effect : V) (value : Int) :
    Kept (playEvent s effect value) := by
  unfold playEvent
  simp only
  split
  · refine hk.give (rfl : (⟨s.arrived.length, effect, value⟩ : Play V).number = _) (.inl effect) ?_
      (fun i hi => ?_) rfl rfl rfl
    · simp [holder, Dict.getD, Dict.get?_insert_self]
    · cases i with
      | inl v =>
        have hv : v ≠ effect := fun heq => hi (by rw [heq])
        simp only [holder, Dict.getD, Dict.get?_insert_of_ne _ _ hv]
      | inr j => rfl
  · split
    · have hfresh := hk.fresh (rfl : (⟨s.arrived.length, effect, value⟩ : Play V).number = _)
      have hwaste := hk.owners.waste (List.nodup_singleton _) hfresh
      rw [mem_append_singleton, List.append_assoc] at hwaste
      exact ⟨hwaste, hk.numbered_append rfl⟩
    · have hnone : s.operations.get? s.nextOperation = none := by
        cases hget : s.operations.get? s.nextOperation with
        | none => rfl
        | some g => exact absurd (hs.domain _ g hget) (Nat.lt_irrefl _)
      refine hk.give (rfl : (⟨s.arrived.length, effect, value⟩ : Play V).number = _) (.inr s.nextOperation) ?_
        (fun i hi => ?_) rfl rfl rfl
      · simp only [holder, schedule, Dict.get?_insert_self, hnone, Option.elim_some,
          Option.elim_none, carries, List.nil_append]
      · cases i with
        | inl v => rfl
        | inr j =>
          have hj : j ≠ s.nextOperation := fun heq => hi (by rw [heq])
          simp only [holder, schedule, Dict.get?_insert_of_ne _ _ hj]

end Holders

section Moves

variable {s t : State V P}

omit [DecidableEq V] in
/-- A play moves to the end of what is written, before what is dropped. -/
theorem perm_written (written : List (Play V × P)) (dropped : List (Play V)) (play : Play V)
    (physical : P) : (written.map Prod.fst ++ dropped ++ [play]).Perm
      ((written ++ [(play, physical)]).map Prod.fst ++ dropped) := by
  rw [List.map_append, List.append_assoc, List.append_assoc]
  exact List.Perm.append_left _ List.perm_append_comm

/-- The parked plays of an upload pass to its operation. -/
theorem kept_finished (hk : Kept s) {id : Nat} {op : Operation V P} {effect : V} {physical : P}
    (h : Current s id op) (hphase : op.phase = .acknowledged physical)
    (hkind : op.kind = .upload effect) :
    Kept { setPhase s id op (.flushing physical (s.queuedUploadPlays.getD effect [])) with
      pendingUploads := s.pendingUploads.erase effect
      queuedUploadPlays := s.queuedUploadPlays.erase effect } := by
  refine ⟨?_, hk.numbered⟩
  refine hk.owners.pass (i := .inl effect) (k := .inr id) (by simp) ?_ ?_ ?_ fun j hi hk => ?_
  · rw [holder_current h]
    unfold carries
    rw [hphase, hkind]
  · simp [holder, Dict.getD, Dict.get?_erase_self]
  · change ((setPhase s id op _).operations.get? id).elim [] carries = _
    rw [get?_setPhase, if_pos rfl]
    rfl
  · cases j with
    | inl v =>
      have hv : v ≠ effect := fun heq => hi (by rw [heq])
      simp only [holder, Dict.getD, Dict.get?_erase_of_ne _ hv]
    | inr j =>
      have hj : j ≠ id := fun heq => hk (by rw [heq])
      change ((setPhase s id op _).operations.get? j).elim [] carries = _
      rw [get?_setPhase, if_neg hj]
      rfl

variable [DecidableEq P]

theorem kept_move (hs : Serial s) (hk : Kept s) (hmove : Move s t) : Kept t := by
  cases hmove with
  | requested kind hrequest =>
    refine kept_schedule hs hk ?_ rfl rfl rfl rfl rfl
    unfold Operation.isRequest at hrequest
    unfold carries
    cases kind with
    | play play => cases hrequest
    | _ => rfl
  | arrived effect value => exact kept_playEvent hs hk effect value
  | scheduled => exact kept_schedule hs hk rfl rfl rfl rfl rfl rfl
  | rejected id op h hphase hrequest =>
    refine kept_phase hk h (get?_setPhase s id op _) rfl ?_ rfl rfl rfl
    unfold Operation.isRequest at hrequest
    unfold carries
    rw [hphase]
    cases hkind : op.kind with
    | play play =>
      rw [hkind] at hrequest
      cases hrequest
    | _ => rfl
  | begun id op effect h hphase hkind
  | taken id op effect physical h hphase hkind hmapped
  | lookedUp id op play physical h hphase hkind hmapped
  | passed id op h hphase hkind
  | published id op effect previous physical h hphase hkind hreturns
  | acknowledged id op effect previous physical h hphase hkind
  | uploaded id op effect physical h hphase hkind
  | erased id op effect physical h hphase hkind
  | kept id op effect physical h hphase hkind =>
    exact kept_phase hk h (get?_setPhase s id op _) rfl (by simp [carries, hphase, hkind]) rfl rfl
      rfl
  | unmapped id op play h hphase hkind hmapped =>
    refine kept_spend hk h play (get?_setPhase s id op _) rfl ?_ rfl ?_
    · simp [carries, hphase, hkind]
    · rw [List.append_assoc]
      rfl
  | failed id op effect previous h hphase hkind
  | rolledBack id op effect previous physical erased h hphase hkind
  | mismatched id op effect physical h hphase hkind hmapped =>
    exact kept_discard hk h effect (get?_setPhase s id op _) rfl
      (by simp [carries, hphase, hkind]) rfl rfl rfl
  | finished id op effect physical h hphase hkind hmapped =>
    exact kept_finished hk h hphase hkind
  | flushed id op effect physical play plays h hphase hkind
  | played id op play physical h hphase hkind =>
    refine kept_spend hk h play (get?_setPhase s id op _) rfl ?_ rfl
      (perm_written _ _ _ _)
    simp [carries, hphase, hkind]
  | forgotten id op htail hget hdone =>
    exact ⟨hk.owners.congr fun i => by cases i <;> rfl, hk.numbered⟩

omit [DecidableEq P] in
theorem kept_initial : Kept ({} : State V P) := by
  refine ⟨?_, fun play hplay => by cases hplay⟩
  have hempty : holder ({} : State V P) = fun _ => [] := by
    funext i
    cases i with
    | inl v => rfl
    | inr j => rfl
  have hissued : (fun play => play ∈ ({} : State V P).arrived) = fun _ => False := by
    funext play
    simp
  rw [hempty, hissued]
  exact exclusive_empty

end Moves

end Keymasq.Feedback.Plays
