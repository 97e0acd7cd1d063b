import Keymasq.Feedback.Proxy

/-!
# One operation at a time

Every operation waits for the one before it, so at most one is under way; those before
it are finished, those after it wait.
-/

namespace Keymasq.Feedback.Sequence
open Foundation Transition Proxy


variable {V P : Type} [DecidableEq V] [DecidableEq P]

structure Serial (s : State V P) : Prop where
  domain : ∀ id op, s.operations.get? id = some op → id < s.nextOperation
  total : ∀ id, id < s.nextOperation → ∃ op, s.operations.get? id = some op
  tail : ∀ id, s.operationTail = some id → id + 1 = s.nextOperation
  idle : s.operationTail = none → ∀ id op, s.operations.get? id = some op → op.isDone = true
  previous : ∀ id op p, s.operations.get? id = some op → op.previous = some p → p + 1 = id
  first : ∀ id op, s.operations.get? id = some op → op.previous = none →
    ∀ j g, j < id → s.operations.get? j = some g → g.isDone = true
  started : ∀ id op, s.operations.get? id = some op → op.phase ≠ .waiting →
    ∀ j g, j < id → s.operations.get? j = some g → g.isDone = true
  requests : ∀ id, id ∈ s.requestQueue ↔
    ∃ op, s.operations.get? id = some op ∧ op.isRequest = true ∧ op.isDone = false
  sorted : s.requestQueue.Pairwise (· < ·)

/-- The operation is the first that is not finished, and no other is under way. -/
structure Current (s : State V P) (id : Nat) (op : Operation V P) : Prop where
  get : s.operations.get? id = some op
  unfinished : op.isDone = false
  before : ∀ j g, j < id → s.operations.get? j = some g → g.isDone = true
  after : ∀ j g, id < j → s.operations.get? j = some g → g.phase = .waiting

section Current

variable {s t : State V P} {id : Nat} {op : Operation V P}

omit [DecidableEq V] [DecidableEq P] in
theorem not_waiting_of_done (hdone : op.isDone = true) : op.phase ≠ .waiting := by
  intro hphase
  unfold Operation.isDone at hdone
  rw [hphase] at hdone
  cases hdone

theorem current_of_started (hs : Serial s) (hget : s.operations.get? id = some op)
    (hphase : op.phase ≠ .waiting) (hunfinished : op.isDone = false) : Current s id op := by
  refine ⟨hget, hunfinished, hs.started id op hget hphase, fun j g hj hg => ?_⟩
  by_contra hstarted
  have hdone := hs.started j g hg hstarted id op hj hget
  rw [hunfinished] at hdone
  cases hdone

theorem current_of_ready (hs : Serial s) (hget : s.operations.get? id = some op)
    (hphase : op.phase = .waiting) (hprevious : previousDone s op = true) : Current s id op := by
  have hunfinished : op.isDone = false := by
    unfold Operation.isDone
    rw [hphase]
  have hbefore (j : Nat) (g : Operation V P) (hj : j < id) (hg : s.operations.get? j = some g) :
      g.isDone = true := by
    cases hp : op.previous with
    | none => exact hs.first id op hget hp j g hj hg
    | some p =>
      have hid := hs.previous id op p hget hp
      unfold previousDone at hprevious
      rw [hp, Option.all_some] at hprevious
      obtain ⟨f, hf, hdone⟩ := (Option.any_eq_true _ _).mp hprevious
      by_cases hjp : j = p
      · rw [hjp, hf] at hg
        cases hg
        exact hdone
      · exact hs.started p f hf (not_waiting_of_done hdone) j g (by omega) hg
  refine ⟨hget, hunfinished, hbefore, fun j g hj hg => ?_⟩
  by_contra hstarted
  have hdone := hs.started j g hg hstarted id op hj hget
  rw [hunfinished] at hdone
  cases hdone

omit [DecidableEq V] [DecidableEq P] in
/-- All other operations wait or are finished. -/
theorem Current.others (h : Current s id op) {j : Nat} {g : Operation V P} (hj : j ≠ id)
    (hg : s.operations.get? j = some g) : g.phase = .waiting ∨ g.isDone = true := by
  obtain hlt | hgt := Nat.lt_or_gt_of_ne hj
  · exact .inr (h.before j g hlt hg)
  · exact .inl (h.after j g hgt hg)

omit [DecidableEq V] [DecidableEq P] in
/-- The current operation goes on. -/
theorem serial_phase (hs : Serial s) (h : Current s id op) {phase : Phase V P}
    (hops : ∀ j, t.operations.get? j =
      if j = id then some { op with phase := phase } else s.operations.get? j)
    (hnext : t.nextOperation = s.nextOperation) (htail : t.operationTail = s.operationTail)
    (hqueue : t.requestQueue = if ({ op with phase := phase } : Operation V P).isDone then
      s.requestQueue.erase id else s.requestQueue) : Serial t := by
  have hdone {j : Nat} {g : Operation V P} (hg : s.operations.get? j = some g)
      (hd : g.isDone = true) : ∃ g', t.operations.get? j = some g' ∧ g'.isDone = true := by
    have hj : j ≠ id := by
      rintro rfl
      rw [h.get] at hg
      cases hg
      rw [h.unfinished] at hd
      cases hd
    exact ⟨g, by rw [hops, if_neg hj, hg], hd⟩
  have hold {j : Nat} {g : Operation V P} (hg : t.operations.get? j = some g) :
      ∃ g', s.operations.get? j = some g' ∧ g.previous = g'.previous ∧ g.kind = g'.kind ∧
        (g'.isDone = true → g = g') ∧ (j ≠ id → g = g') := by
    rw [hops] at hg
    split at hg
    · next heq =>
      cases hg
      refine ⟨op, heq ▸ h.get, rfl, rfl, fun hd => ?_, fun hne => absurd heq hne⟩
      rw [h.unfinished] at hd
      cases hd
    · exact ⟨g, hg, rfl, rfl, fun _ => rfl, fun _ => rfl⟩
  have hkeeps {i : Nat} (hbefore : ∀ j g, j < i → s.operations.get? j = some g → g.isDone = true)
      (j : Nat) (g : Operation V P) (hj : j < i) (hg : t.operations.get? j = some g) :
      g.isDone = true := by
    obtain ⟨g', hg', -, -, hsame, -⟩ := hold hg
    have hd := hbefore j g' hj hg'
    rwa [hsame hd]
  refine ⟨fun j g hg => ?_, fun j hj => ?_, fun j hj => ?_, fun hnone j g hg => ?_,
    fun j g p hg hp => ?_, fun j g hg hp => ?_, fun j g hg hstarted => ?_, fun j => ?_, ?_⟩
  · obtain ⟨g', hg', -⟩ := hold hg
    rw [hnext]
    exact hs.domain j g' hg'
  · rw [hnext] at hj
    obtain ⟨g, hg⟩ := hs.total j hj
    by_cases hji : j = id
    · exact ⟨_, by rw [hops, if_pos hji]⟩
    · exact ⟨g, by rw [hops, if_neg hji, hg]⟩
  · rw [htail] at hj
    rw [hnext]
    exact hs.tail j hj
  · rw [htail] at hnone
    have hd := hs.idle hnone id op h.get
    rw [h.unfinished] at hd
    cases hd
  · obtain ⟨g', hg', hprevious, -⟩ := hold hg
    rw [hprevious] at hp
    exact hs.previous j g' p hg' hp
  · obtain ⟨g', hg', hprevious, -⟩ := hold hg
    rw [hprevious] at hp
    exact hkeeps (hs.first j g' hg' hp)
  · obtain ⟨g', hg', -, -, -, hsame⟩ := hold hg
    by_cases hji : j = id
    · rw [hji]
      exact hkeeps h.before
    · rw [hsame hji] at hstarted
      exact hkeeps (hs.started j g' hg' hstarted)
  · have hnodup : s.requestQueue.Nodup := hs.sorted.imp Nat.ne_of_lt
    by_cases hji : j = id
    · rw [hji, hops, if_pos rfl, hqueue]
      split
      · next hd =>
        simp only [hnodup.mem_erase_iff, ne_eq, not_true, false_and, Option.some.injEq,
          exists_eq_left', hd, Bool.true_eq_false, and_false]
      · next hd =>
        rw [hs.requests, h.get]
        simp only [Option.some.injEq, exists_eq_left', h.unfinished]
        rw [Bool.not_eq_true] at hd
        simp only [hd, and_true]
        rfl
    · rw [hops, if_neg hji, ← hs.requests, hqueue]
      split
      · rw [hnodup.mem_erase_iff]
        exact and_iff_right hji
      · rfl
  · rw [hqueue]
    split
    · exact hs.sorted.sublist List.erase_sublist
    · exact hs.sorted

omit [DecidableEq V] [DecidableEq P] in
/-- A new operation waits for the last one. -/
theorem serial_schedule (hs : Serial s) (kind : Kind V)
    (hops : t.operations = s.operations.insert s.nextOperation
      { kind := kind, previous := s.operationTail })
    (hnext : t.nextOperation = s.nextOperation + 1)
    (htail : t.operationTail = some s.nextOperation)
    (hqueue : t.requestQueue = if ({ kind := kind, previous := none } : Operation V P).isRequest
      then s.requestQueue ++ [s.nextOperation] else s.requestQueue) : Serial t := by
  have hget (j : Nat) : t.operations.get? j = if j = s.nextOperation then
      some { kind := kind, previous := s.operationTail } else s.operations.get? j := by
    rw [hops, Dict.get?_insert]
  have hold {j : Nat} {g : Operation V P} (hg : t.operations.get? j = some g)
      (hj : j < s.nextOperation) : s.operations.get? j = some g := by
    rwa [hget, if_neg (by omega)] at hg
  have hcases {j : Nat} {g : Operation V P} (hg : t.operations.get? j = some g) :
      j = s.nextOperation ∧ g = { kind := kind, previous := s.operationTail } ∨
        j < s.nextOperation ∧ s.operations.get? j = some g := by
    rw [hget] at hg
    split at hg
    · next heq =>
      cases hg
      exact .inl ⟨heq, rfl⟩
    · exact .inr ⟨hs.domain j g hg, hg⟩
  refine ⟨fun j g hg => ?_, fun j hj => ?_, fun j hj => ?_, fun hnone => ?_,
    fun j g p hg hp => ?_, fun j g hg hp i f hi hf => ?_, fun j g hg hstarted i f hi hf => ?_,
    fun j => ?_, ?_⟩
  · rw [hnext]
    obtain ⟨rfl, -⟩ | ⟨hj, -⟩ := hcases hg
    · omega
    · omega
  · by_cases hj' : j = s.nextOperation
    · exact ⟨_, by rw [hget, if_pos hj']⟩
    · obtain ⟨g, hg⟩ := hs.total j (by omega)
      exact ⟨g, by rw [hget, if_neg hj', hg]⟩
  · rw [htail] at hj
    cases hj
    exact hnext.symm
  · rw [htail] at hnone
    cases hnone
  · obtain ⟨rfl, rfl⟩ | ⟨-, hg⟩ := hcases hg
    · exact hs.tail p hp
    · exact hs.previous j g p hg hp
  · obtain ⟨rfl, rfl⟩ | ⟨hj, hg⟩ := hcases hg
    · exact hs.idle hp i f (hold hf hi)
    · exact hs.first j g hg hp i f hi (hold hf (by omega))
  · obtain ⟨rfl, rfl⟩ | ⟨hj, hg⟩ := hcases hg
    · exact absurd rfl hstarted
    · exact hs.started j g hg hstarted i f hi (hold hf (by omega))
  · have hfresh : s.nextOperation ∉ s.requestQueue := by
      rw [hs.requests]
      intro hmem
      obtain ⟨op, hop, -⟩ := hmem
      exact absurd (hs.domain _ _ hop) (Nat.lt_irrefl _)
    rw [hget, hqueue]
    by_cases hj : j = s.nextOperation
    · rw [if_pos hj, hj]
      split
      · next hrequest =>
        simp only [List.mem_append, List.mem_singleton, or_true, Option.some.injEq,
          exists_eq_left', true_iff]
        exact ⟨hrequest, rfl⟩
      · next hrequest =>
        simp only [hfresh, Option.some.injEq, exists_eq_left', false_iff]
        exact fun h => hrequest h.1
    · rw [if_neg hj, ← hs.requests]
      split
      · simp only [List.mem_append, List.mem_singleton, hj, or_false]
      · rfl
  · rw [hqueue]
    split
    · rw [List.pairwise_append]
      refine ⟨hs.sorted, List.pairwise_singleton _ _, fun i hi j hj => ?_⟩
      rw [List.mem_singleton] at hj
      obtain ⟨op, hop, -⟩ := (hs.requests i).mp hi
      rw [hj]
      exact hs.domain i op hop
    · exact hs.sorted

end Current

/-! ## What a step can do -/

/- The moves of a state: new requests and plays, and the ways the current operation goes
on, with what they need. -/
inductive Move (s : State V P) : State V P → Prop
  | requested (kind : Kind V)
      (hrequest : ({ kind := kind, previous := none } : Operation V P).isRequest = true) :
      Move s (queueRequest s kind)
  | arrived (effect : V) (value : Int) : Move s (playEvent s effect value)
  | scheduled : Move s (schedule s .other)
  | rejected (id : Nat) (op : Operation V P) (h : Current s id op) (hphase : op.phase = .waiting)
      (hrequest : op.isRequest = true) : Move s (complete s id op false)
  | begun (id : Nat) (op : Operation V P) (effect : V) (h : Current s id op)
      (hphase : op.phase = .waiting) (hkind : op.kind = .upload effect) :
      Move s { setPhase s id op (.begun (s.effects.get? effect)) with
        pendingUploads := insert effect s.pendingUploads }
  | taken (id : Nat) (op : Operation V P) (effect : V) (physical : P) (h : Current s id op)
      (hphase : op.phase = .waiting) (hkind : op.kind = .erase effect)
      (hmapped : s.effects.get? effect = some physical) :
      Move s { setPhase s id op (.erasing physical) with effects := s.effects.erase effect }
  | unmapped (id : Nat) (op : Operation V P) (play : Play V) (h : Current s id op)
      (hphase : op.phase = .waiting) (hkind : op.kind = .play play)
      (hmapped : s.effects.get? play.effect = none) :
      Move s { complete s id op false with dropped := s.dropped ++ [play] }
  | lookedUp (id : Nat) (op : Operation V P) (play : Play V) (physical : P) (h : Current s id op)
      (hphase : op.phase = .waiting) (hkind : op.kind = .play play)
      (hmapped : s.effects.get? play.effect = some physical) :
      Move s (setPhase s id op (.writing physical))
  | passed (id : Nat) (op : Operation V P) (h : Current s id op) (hphase : op.phase = .waiting)
      (hkind : op.kind = .other) : Move s (complete s id op true)
  | failed (id : Nat) (op : Operation V P) (effect : V) (previous : Option P)
      (h : Current s id op) (hphase : op.phase = .begun previous)
      (hkind : op.kind = .upload effect) :
      Move s (complete (discardPendingUpload s effect) id op false)
  | published (id : Nat) (op : Operation V P) (effect : V) (previous : Option P) (physical : P)
      (h : Current s id op) (hphase : op.phase = .begun previous)
      (hkind : op.kind = .upload effect) (hreturns : uploadReturns s previous physical = true) :
      Move s { setPhase s id op (.published previous physical) with
        live := insert physical s.live
        effects := s.effects.insert effect physical }
  | acknowledged (id : Nat) (op : Operation V P) (effect : V) (previous : Option P) (physical : P)
      (h : Current s id op) (hphase : op.phase = .published previous physical)
      (hkind : op.kind = .upload effect) :
      Move s (setPhase s id op (.acknowledged physical))
  | rolledBack (id : Nat) (op : Operation V P) (effect : V) (previous : Option P) (physical : P)
      (erased : Bool) (h : Current s id op) (hphase : op.phase = .published previous physical)
      (hkind : op.kind = .upload effect) :
      Move s (complete (discardPendingUpload (rollbackUpload s effect previous physical erased)
        effect) id op false)
  | finished (id : Nat) (op : Operation V P) (effect : V) (physical : P) (h : Current s id op)
      (hphase : op.phase = .acknowledged physical) (hkind : op.kind = .upload effect)
      (hmapped : s.effects.get? effect = some physical) :
      Move s { setPhase s id op
          (.flushing physical (s.queuedUploadPlays.getD effect [])) with
        pendingUploads := s.pendingUploads.erase effect
        queuedUploadPlays := s.queuedUploadPlays.erase effect }
  | mismatched (id : Nat) (op : Operation V P) (effect : V) (physical : P) (h : Current s id op)
      (hphase : op.phase = .acknowledged physical) (hkind : op.kind = .upload effect)
      (hmapped : s.effects.get? effect ≠ some physical) :
      Move s (setPhase (discardPendingUpload s effect) id op (.flushing physical []))
  | flushed (id : Nat) (op : Operation V P) (effect : V) (physical : P) (play : Play V)
      (plays : List (Play V)) (h : Current s id op)
      (hphase : op.phase = .flushing physical (play :: plays)) (hkind : op.kind = .upload effect) :
      Move s { setPhase s id op (.flushing physical plays) with
        written := s.written ++ [(play, physical)] }
  | uploaded (id : Nat) (op : Operation V P) (effect : V) (physical : P) (h : Current s id op)
      (hphase : op.phase = .flushing physical []) (hkind : op.kind = .upload effect) :
      Move s (complete s id op true)
  | played (id : Nat) (op : Operation V P) (play : Play V) (physical : P) (h : Current s id op)
      (hphase : op.phase = .writing physical) (hkind : op.kind = .play play) :
      Move s { complete s id op true with written := s.written ++ [(play, physical)] }
  | erased (id : Nat) (op : Operation V P) (effect : V) (physical : P) (h : Current s id op)
      (hphase : op.phase = .erasing physical) (hkind : op.kind = .erase effect) :
      Move s { complete s id op true with live := s.live.erase physical }
  | kept (id : Nat) (op : Operation V P) (effect : V) (physical : P) (h : Current s id op)
      (hphase : op.phase = .erasing physical) (hkind : op.kind = .erase effect) :
      Move s { complete s id op false with effects := s.effects.insert effect physical }
  | forgotten (id : Nat) (op : Operation V P) (htail : s.operationTail = some id)
      (hget : s.operations.get? id = some op) (hdone : op.isDone = true) :
      Move s { s with operationTail := none }

section Moves

variable {s t : State V P} {id : Nat}

theorem start_moves (hs : Serial s) {ok : Bool} (hstep : start s id ok = some t) : Move s t := by
  obtain ⟨op, hget, hstep⟩ := Option.bind_eq_some_iff.mp hstep
  split at hstep
  · next hguard =>
    obtain ⟨hphase, hprevious, -⟩ := hguard
    have hc := current_of_ready hs hget hphase hprevious
    split at hstep
    · next effect hkind =>
      split at hstep
      · cases hstep
        exact .begun id op effect hc hphase hkind
      · cases hstep
        exact .rejected id op hc hphase (by unfold Operation.isRequest; rw [hkind])
    · next effect hkind =>
      have hrequest : op.isRequest = true := by
        unfold Operation.isRequest
        rw [hkind]
      split at hstep
      · split at hstep
        · cases hstep
          exact .rejected id op hc hphase hrequest
        · next physical hmapped =>
          cases hstep
          exact .taken id op effect physical hc hphase hkind hmapped
      · cases hstep
        exact .rejected id op hc hphase hrequest
    · next play hkind =>
      split at hstep
      · next hmapped =>
        cases hstep
        exact .unmapped id op play hc hphase hkind hmapped
      · next physical hmapped =>
        cases hstep
        exact .lookedUp id op play physical hc hphase hkind hmapped
    · next hkind =>
      cases hstep
      exact .passed id op hc hphase hkind
  · cases hstep

/-- An operation that is under way is the current one. -/
theorem current_of_phase (hs : Serial s) {op : Operation V P}
    (hget : s.operations.get? id = some op) {phase : Phase V P} (hphase : op.phase = phase)
    (hwaiting : phase ≠ .waiting) (hdone : ∀ ok, phase ≠ .done ok) : Current s id op := by
  refine current_of_started hs hget (by rwa [hphase]) ?_
  unfold Operation.isDone
  rw [hphase]
  cases phase with
  | done ok => exact absurd rfl (hdone ok)
  | _ => rfl

theorem step_moves (hs : Serial s) {a : Step V P} (hstep : step s a = some t) : Move s t := by
  cases a with
  | uploadRequest effect
  | eraseRequest effect =>
    cases hstep
    exact .requested _ rfl
  | play effect value =>
    cases hstep
    exact .arrived effect value
  | otherEvent =>
    cases hstep
    exact .scheduled
  | start id ok => exact start_moves hs hstep
  | uploadEffect id result =>
    obtain ⟨op, hget, hstep⟩ := Option.bind_eq_some_iff.mp hstep
    split at hstep
    · next previous effect hphase hkind =>
      have hc := current_of_phase hs hget hphase (by simp) (by simp)
      cases result with
      | none =>
        cases hstep
        exact .failed id op effect previous hc hphase hkind
      | some physical =>
        obtain ⟨hreturns, rfl⟩ := enabled_eq_some.mp hstep
        exact .published id op effect previous physical hc hphase hkind hreturns
    · cases hstep
  | endUpload id ok erased =>
    obtain ⟨op, hget, hstep⟩ := Option.bind_eq_some_iff.mp hstep
    split at hstep
    · next previous physical effect hphase hkind =>
      have hc := current_of_phase hs hget hphase (by simp) (by simp)
      split at hstep
      · cases hstep
        exact .acknowledged id op effect previous physical hc hphase hkind
      · cases hstep
        exact .rolledBack id op effect previous physical erased hc hphase hkind
    · cases hstep
  | finishUpload id =>
    obtain ⟨op, hget, hstep⟩ := Option.bind_eq_some_iff.mp hstep
    split at hstep
    · next physical effect hphase hkind =>
      have hc := current_of_phase hs hget hphase (by simp) (by simp)
      split at hstep
      · next hmapped =>
        cases hstep
        exact .finished id op effect physical hc hphase hkind hmapped
      · next hmapped =>
        cases hstep
        exact .mismatched id op effect physical hc hphase hkind hmapped
    · cases hstep
  | write id =>
    obtain ⟨op, hget, hstep⟩ := Option.bind_eq_some_iff.mp hstep
    split at hstep
    · next physical play plays effect hphase hkind =>
      cases hstep
      exact .flushed id op effect physical play plays
        (current_of_phase hs hget hphase (by simp) (by simp)) hphase hkind
    · next physical effect hphase hkind =>
      cases hstep
      exact .uploaded id op effect physical
        (current_of_phase hs hget hphase (by simp) (by simp)) hphase hkind
    · next physical play hphase hkind =>
      cases hstep
      exact .played id op play physical
        (current_of_phase hs hget hphase (by simp) (by simp)) hphase hkind
    · cases hstep
  | eraseEffect id ok =>
    obtain ⟨op, hget, hstep⟩ := Option.bind_eq_some_iff.mp hstep
    split at hstep
    · next physical effect hphase hkind =>
      have hc := current_of_phase hs hget hphase (by simp) (by simp)
      split at hstep
      · cases hstep
        exact .erased id op effect physical hc hphase hkind
      · cases hstep
        exact .kept id op effect physical hc hphase hkind
    · cases hstep
  | forgetTail =>
    obtain ⟨id, htail, hstep⟩ := Option.bind_eq_some_iff.mp hstep
    split at hstep
    · next hdone =>
      cases hstep
      obtain ⟨op, hget, hdone⟩ := (Option.any_eq_true _ _).mp hdone
      exact .forgotten id op htail hget hdone
    · cases hstep

omit [DecidableEq V] [DecidableEq P] in
theorem get?_setPhase (s : State V P) (id : Nat) (op : Operation V P) (phase : Phase V P)
    (j : Nat) : (setPhase s id op phase).operations.get? j =
      if j = id then some { op with phase := phase } else s.operations.get? j :=
  Dict.get?_insert _ _ _ _

omit [DecidableEq V] [DecidableEq P] in
theorem serial_same (hs : Serial s) (hops : t.operations = s.operations)
    (hnext : t.nextOperation = s.nextOperation) (htail : t.operationTail = s.operationTail)
    (hqueue : t.requestQueue = s.requestQueue) : Serial t := by
  refine ⟨?_, ?_, ?_, ?_, ?_, ?_, ?_, ?_, ?_⟩
  · rw [hops, hnext]
    exact hs.domain
  · rw [hops, hnext]
    exact hs.total
  · rw [htail, hnext]
    exact hs.tail
  · rw [htail, hops]
    exact hs.idle
  · rw [hops]
    exact hs.previous
  · rw [hops]
    exact hs.first
  · rw [hops]
    exact hs.started
  · rw [hqueue, hops]
    exact hs.requests
  · rw [hqueue]
    exact hs.sorted

omit [DecidableEq P] in
theorem serial_playEvent (hs : Serial s) (effect : V) (value : Int) :
    Serial (playEvent s effect value) := by
  unfold playEvent
  simp only
  split
  · exact serial_same hs rfl rfl rfl rfl
  · split
    · exact serial_same hs rfl rfl rfl rfl
    · exact serial_schedule hs _ rfl rfl rfl rfl

omit [DecidableEq V] [DecidableEq P] in
theorem serial_forgotten (hs : Serial s) {op : Operation V P} (htail : s.operationTail = some id)
    (hget : s.operations.get? id = some op) (hdone : op.isDone = true) :
    Serial { s with operationTail := none } := by
  refine ⟨hs.domain, hs.total, fun j hj => (by cases hj), fun _ j g hg => ?_, hs.previous,
    hs.first, hs.started, hs.requests, hs.sorted⟩
  have hlt := hs.domain j g hg
  have hlast := hs.tail id htail
  by_cases hj : j = id
  · rw [hj] at hg
    change s.operations.get? id = some g at hg
    rw [hget] at hg
    cases hg
    exact hdone
  · exact hs.started id op hget (not_waiting_of_done hdone) j g (by omega) hg

theorem serial_move (hs : Serial s) (hmove : Move s t) : Serial t := by
  cases hmove with
  | requested kind hrequest =>
    exact serial_schedule hs kind rfl rfl rfl (by rw [if_pos hrequest]; rfl)
  | arrived effect value => exact serial_playEvent hs effect value
  | scheduled => exact serial_schedule hs .other rfl rfl rfl rfl
  | rejected id op h
  | begun id op effect h
  | taken id op effect physical h
  | unmapped id op play h
  | passed id op h
  | kept id op effect physical h => exact serial_phase hs h (get?_setPhase s id op _) rfl rfl rfl
  | lookedUp id op play physical h
  | failed id op effect previous h
  | published id op effect previous physical h
  | acknowledged id op effect previous physical h
  | rolledBack id op effect previous physical erased h
  | finished id op effect physical h
  | mismatched id op effect physical h
  | flushed id op effect physical play plays h
  | uploaded id op effect physical h
  | played id op play physical h
  | erased id op effect physical h =>
    exact serial_phase hs h (get?_setPhase s id op _) rfl rfl rfl
  | forgotten id op htail hget hdone => exact serial_forgotten hs htail hget hdone

omit [DecidableEq V] [DecidableEq P] in
theorem serial_initial : Serial ({} : State V P) := by
  refine ⟨fun id op hget => ?_, fun id hid => ?_, fun id hid => ?_, fun _ id op hget => ?_,
    fun id op p hget => ?_, fun id op hget => ?_, fun id op hget => ?_, fun id => ?_,
    List.Pairwise.nil⟩
  · simp at hget
  · simp at hid
  · simp at hid
  · simp at hget
  · simp at hget
  · simp at hget
  · simp at hget
  · simp

end Moves

end Keymasq.Feedback.Sequence
