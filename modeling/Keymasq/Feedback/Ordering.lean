import Keymasq.Feedback.Soundness

/-!
# Output events in order

What comes from the virtual device and what is written to the physical one are kept as two
lists. What the operations are still to write, operation by operation, is what came in and
was not written yet; a parked play joins it out of order where others wait already.
-/

namespace Keymasq.Feedback.Ordering
open Foundation Transition Proxy Sequence Effects Plays Soundness


/- A play of an effect, or another output event (LED, sound, gain, autocenter) with the
operation that is to write it. -/
inductive Arrival (V : Type)
  | play (play : Play V)
  | output (id : Nat) (type code : Nat) (value : Int)
  deriving DecidableEq

/- The proxy with the events that came in and those that were written, in order. -/
structure Traced (V P : Type) where
  base : State V P := {}
  arrivals : List (Arrival V) := []
  log : List (Arrival V) := []

variable {V P : Type} [DecidableEq V]

def Arrival.isOutput (id : Nat) : Arrival V → Bool
  | .output j _ _ _ => j = id
  | .play _ => false

def Arrival.play? : Arrival V → Option (Play V)
  | .play event => some event
  | .output _ _ _ _ => none

/-- The step from one state to the next writes the event. -/
def Arrival.passes (s t : State V P) : Arrival V → Bool
  | .play _ => false
  | .output id _ _ _ =>
    (s.operations.get? id).any (fun op => op.kind = .other ∧ op.isDone = false) &&
      (t.operations.get? id).any Operation.isDone

/-- What the step writes to the physical device. -/
def emitted (arrivals : List (Arrival V)) (s t : State V P) : List (Arrival V) :=
  (t.written.drop s.written.length).map (fun entry => .play entry.1) ++
    arrivals.filter (Arrival.passes s t)

/-- The proxy goes on; new plays come in. -/
def Traced.next (s : Traced V P) (t : State V P) : Traced V P :=
  { base := t
    arrivals := s.arrivals ++ (t.arrived.drop s.base.arrived.length).map .play
    log := s.log ++ emitted s.arrivals s.base t }

/- `handle_event` of an output event that is no play, or any other step. -/
inductive Label (V P : Type)
  | output (type code : Nat) (value : Int)
  | base (a : Step V P)

def traceStep [DecidableEq P] (s : Traced V P) : Label V P → Option (Traced V P)
  | .output type code value =>
    some { s with
      base := schedule s.base .other
      arrivals := s.arrivals ++ [.output s.base.nextOperation type code value] }
  | .base .otherEvent => none
  | .base a => (step s.base a).map s.next

/-- A play is parked only while nothing but requests waits. -/
def ParksLast (s : Traced V P) : Label V P → Prop
  | .base (.play effect _) =>
    effect ∈ s.base.pendingUploads →
      ∀ op ∈ s.base.operations.values, op.phase = .waiting → op.isRequest = true
  | _ => True

instance decidableParksLast [DecidableEq P] (s : Traced V P) : ∀ a, Decidable (ParksLast s a)
  | .base (.play effect _) => inferInstanceAs (Decidable (effect ∈ s.base.pendingUploads →
      ∀ op ∈ s.base.operations.values, op.phase = .waiting → op.isRequest = true))
  | .output _ _ _ => isTrue trivial
  | .base (.uploadRequest _) => isTrue trivial
  | .base (.eraseRequest _) => isTrue trivial
  | .base .otherEvent => isTrue trivial
  | .base (.start _ _) => isTrue trivial
  | .base (.uploadEffect _ _) => isTrue trivial
  | .base (.endUpload _ _ _) => isTrue trivial
  | .base (.finishUpload _) => isTrue trivial
  | .base (.write _) => isTrue trivial
  | .base (.eraseEffect _ _) => isTrue trivial
  | .base .forgetTail => isTrue trivial

/-! ## What is still to be written -/

/-- The events that an operation is to write; an upload those that are parked for it. -/
def writes (s : Traced V P) (id : Nat) (op : Operation V P) : List (Arrival V) :=
  match op.phase, op.kind with
  | .done _, _ => []
  | .flushing _ plays, _ => plays.map .play
  | .waiting, .upload _ => []
  | _, .upload effect => (s.base.queuedUploadPlays.getD effect []).map .play
  | _, .erase _ => []
  | _, .play play => [.play play]
  | _, .other => s.arrivals.filter (Arrival.isOutput id)

def toWrite (s : Traced V P) (id : Nat) : List (Arrival V) :=
  (s.base.operations.get? id).elim [] (writes s id)

def future (s : Traced V P) : List (Arrival V) :=
  (List.range s.base.nextOperation).flatMap (toWrite s)

/- `order`: what was written and what is to be written is in the order of arrival. -/
structure Ordered (s : Traced V P) : Prop where
  sound : Sound s.base
  plays : ∀ play, .play play ∈ s.arrivals → play.number < s.base.arrived.length
  outputs : ∀ id type code value, .output id type code value ∈ s.arrivals →
    id < s.base.nextOperation
  distinct : s.arrivals.Nodup
  logged : s.log.filterMap Arrival.play? = s.base.written.map Prod.fst
  order : (s.log ++ future s).Sublist s.arrivals

section Future

variable {s t : Traced V P} {id : Nat} {op : Operation V P}

theorem toWrite_eq (hget : s.base.operations.get? id = some op) :
    toWrite s id = writes s id op := by
  unfold toWrite
  rw [hget, Option.elim_some]

theorem toWrite_done (hget : s.base.operations.get? id = some op) (hdone : op.isDone = true) :
    toWrite s id = [] := by
  rw [toWrite_eq hget]
  unfold Operation.isDone at hdone
  unfold writes
  cases hphase : op.phase with
  | done ok => rfl
  | _ =>
    rw [hphase] at hdone
    cases hdone

theorem toWrite_request (hget : s.base.operations.get? id = some op) (hphase : op.phase = .waiting)
    (hrequest : op.isRequest = true) : toWrite s id = [] := by
  rw [toWrite_eq hget]
  unfold Operation.isRequest at hrequest
  unfold writes
  rw [hphase]
  cases hkind : op.kind with
  | upload effect => rfl
  | erase effect => rfl
  | _ =>
    rw [hkind] at hrequest
    cases hrequest

/-- An operation that waits does not look at the parked plays. -/
theorem toWrite_waiting (hget : t.base.operations.get? id = s.base.operations.get? id)
    (hwaiting : ∀ op, s.base.operations.get? id = some op → op.phase = .waiting)
    (harrivals : t.arrivals.filter (Arrival.isOutput id) =
      s.arrivals.filter (Arrival.isOutput id)) : toWrite t id = toWrite s id := by
  unfold toWrite
  rw [hget]
  cases hop : s.base.operations.get? id with
  | none => rfl
  | some op =>
    rw [Option.elim_some, Option.elim_some]
    unfold writes
    rw [hwaiting op hop]
    cases op.kind with
    | other => exact harrivals
    | _ => rfl

theorem toWrite_frame (hget : t.base.operations.get? id = s.base.operations.get? id)
    (hqueued : t.base.queuedUploadPlays = s.base.queuedUploadPlays)
    (harrivals : t.arrivals.filter (Arrival.isOutput id) =
      s.arrivals.filter (Arrival.isOutput id)) : toWrite t id = toWrite s id := by
  unfold toWrite writes
  rw [hget, hqueued, harrivals]

variable [DecidableEq P]

theorem flatMap_range_of_before {α : Type} {f : Nat → List α} {n : Nat} (hid : id < n)
    (hbefore : ∀ j, j < id → f j = []) :
    (List.range n).flatMap f =
      f id ++ (List.range (n - (id + 1))).flatMap fun j => f (id + 1 + j) := by
  have hn : n = id + (1 + (n - (id + 1))) := by omega
  have hfirst : (List.range id).flatMap f = [] := by
    rw [List.flatMap_eq_nil_iff]
    exact fun j hj => hbefore j (List.mem_range.mp hj)
  conv_lhs => rw [hn]
  rw [List.range_add, List.flatMap_append, hfirst, List.nil_append, List.flatMap_map,
    List.range_add, List.flatMap_append, List.flatMap_map]
  have hone : (List.range 1).flatMap (fun j => f (id + j)) = f id := List.append_nil _
  rw [hone]
  congr 1
  exact List.flatMap_congr fun j _ => by rw [Nat.add_assoc]

omit [DecidableEq P] in
/-- The current operation writes first. -/
theorem future_current (hs : Serial s.base) (h : Current s.base id op) :
    future s = toWrite s id ++ (List.range (s.base.nextOperation - (id + 1))).flatMap
      fun j => toWrite s (id + 1 + j) := by
  refine flatMap_range_of_before (hs.domain id op h.get) fun j hj => ?_
  obtain ⟨g, hg⟩ := hs.total j (by have := hs.domain id op h.get; omega)
  exact toWrite_done hg (h.before j g hj hg)

omit [DecidableEq P] in
/-- The current operation goes on; those after it wait as before. -/
theorem future_phase (hs : Serial s.base) (h : Current s.base id op) {phase : Phase V P}
    (hops : ∀ j, t.base.operations.get? j =
      if j = id then some { op with phase := phase } else s.base.operations.get? j)
    (hnext : t.base.nextOperation = s.base.nextOperation) (harrivals : t.arrivals = s.arrivals) :
    future t = toWrite t id ++ (List.range (s.base.nextOperation - (id + 1))).flatMap
      fun j => toWrite s (id + 1 + j) := by
  have hrest (j : Nat) : toWrite t (id + 1 + j) = toWrite s (id + 1 + j) :=
    toWrite_waiting (by rw [hops, if_neg (by omega)])
      (fun g hg => h.after _ g (by omega) hg) (by rw [harrivals])
  unfold future
  rw [hnext, flatMap_range_of_before (hs.domain id op h.get) fun j hj => ?_]
  · simp only [hrest]
  · obtain ⟨g, hg⟩ := hs.total j (by have := hs.domain id op h.get; omega)
    exact toWrite_done (by rw [hops, if_neg (by omega)]; exact hg) (h.before j g hj hg)

end Future

/-! ## What a step writes -/

section Emitted

variable {s t : State V P} {id : Nat} {op : Operation V P}

theorem filterMap_emitted (arrivals : List (Arrival V)) (s t : State V P) :
    (emitted arrivals s t).filterMap Arrival.play? =
      (t.written.drop s.written.length).map Prod.fst := by
  have hnone : (arrivals.filter (Arrival.passes s t)).filterMap Arrival.play? = [] := by
    rw [List.filterMap_eq_nil_iff]
    intro x hx
    cases x with
    | play play =>
      have hpasses := (List.mem_filter.mp hx).2
      cases hpasses
    | output id type code value => rfl
  unfold emitted
  rw [List.filterMap_append, hnone, List.append_nil, List.filterMap_map]
  have hplay : (Arrival.play? ∘ fun entry : Play V × P => .play entry.1) = some ∘ Prod.fst := rfl
  rw [hplay, List.filterMap_eq_map]

/-- Only the current operation can write an output event. -/
theorem passes_phase (h : Current s id op) {phase : Phase V P}
    (hops : ∀ j, t.operations.get? j =
      if j = id then some { op with phase := phase } else s.operations.get? j) (x : Arrival V) :
    x.passes s t = (decide (op.kind = .other ∧
      ({ op with phase := phase } : Operation V P).isDone = true) && x.isOutput id) := by
  cases x with
  | play play => exact (Bool.and_false _).symm
  | output j type code value =>
    unfold Arrival.passes Arrival.isOutput
    simp only
    rw [hops]
    by_cases hj : j = id
    · rw [if_pos hj, hj, h.get]
      simp [h.unfinished]
    · rw [if_neg hj]
      simp only [hj, decide_false, Bool.and_false]
      cases s.operations.get? j with
      | none => rfl
      | some g => cases hd : g.isDone <;> simp [hd]

theorem passes_still (hstill : ∀ j g g', s.operations.get? j = some g →
    t.operations.get? j = some g' → g.isDone = false → g'.isDone = false) (x : Arrival V) :
    x.passes s t = false := by
  cases x with
  | play play => rfl
  | output j type code value =>
    unfold Arrival.passes
    cases hg : s.operations.get? j with
    | none => simp [hg]
    | some g =>
      cases hg' : t.operations.get? j with
      | none => simp [hg']
      | some g' =>
        have hg'' := hstill j g g' hg hg'
        simp only [hg, hg', Option.any_some, Bool.and_eq_false_imp, decide_eq_true_eq]
        exact fun hother => hg'' hother.2

theorem emitted_still (arrivals : List (Arrival V)) (hwritten : t.written = s.written)
    (hstill : ∀ j g g', s.operations.get? j = some g → t.operations.get? j = some g' →
      g.isDone = false → g'.isDone = false) : emitted arrivals s t = [] := by
  unfold emitted
  rw [hwritten, List.drop_length, List.map_nil, List.nil_append, List.filter_eq_nil_iff]
  intro x _
  rw [passes_still hstill x]
  exact Bool.false_ne_true

/-- What the current operation writes when it goes on. -/
theorem emitted_phase (arrivals : List (Arrival V)) (h : Current s id op) {phase : Phase V P}
    {new : List (Play V × P)}
    (hops : ∀ j, t.operations.get? j =
      if j = id then some { op with phase := phase } else s.operations.get? j)
    (hwritten : t.written = s.written ++ new) :
    emitted arrivals s t = new.map (fun entry => .play entry.1) ++
      if op.kind = .other ∧ ({ op with phase := phase } : Operation V P).isDone = true then
        arrivals.filter (Arrival.isOutput id) else [] := by
  unfold emitted
  rw [hwritten, List.drop_left]
  congr 1
  rw [List.filter_congr fun x _ => passes_phase h hops x]
  split
  · next hpass =>
    refine List.filter_congr fun x _ => ?_
    rw [decide_eq_true hpass, Bool.true_and]
  · next hpass =>
    rw [List.filter_eq_nil_iff]
    intro x _
    rw [decide_eq_false hpass, Bool.false_and]
    exact Bool.false_ne_true

end Emitted

/-! ## Steps -/

section Steps

variable {s : Traced V P} {t : State V P} {id : Nat} {op : Operation V P} {kind : Kind V}

/-- No play comes in. -/
theorem ordered_next (h : Ordered s) (ht : Sound t) (hnext : s.base.nextOperation ≤ t.nextOperation)
    (harrived : t.arrived = s.base.arrived) (hgrows : ∃ new, t.written = s.base.written ++ new)
    (hsub : (emitted s.arrivals s.base t ++ future (s.next t)).Sublist (future s)) :
    Ordered (s.next t) := by
  have harrivals : (s.next t).arrivals = s.arrivals := by
    unfold Traced.next
    rw [harrived, List.drop_length, List.map_nil, List.append_nil]
  refine ⟨ht, ?_, ?_, ?_, ?_, ?_⟩
  · rw [harrivals]
    intro play hplay
    change play.number < t.arrived.length
    rw [harrived]
    exact h.plays play hplay
  · rw [harrivals]
    intro id type code value hx
    exact Nat.lt_of_lt_of_le (h.outputs id type code value hx) hnext
  · rw [harrivals]
    exact h.distinct
  · change (s.log ++ _).filterMap Arrival.play? = t.written.map Prod.fst
    obtain ⟨new, hnew⟩ := hgrows
    rw [List.filterMap_append, filterMap_emitted, h.logged, hnew, List.drop_left, List.map_append]
  · rw [harrivals]
    change (s.log ++ _ ++ _).Sublist s.arrivals
    rw [List.append_assoc]
    exact (hsub.append_left s.log).trans h.order

/-- The current operation goes on and writes from what it was to write. -/
theorem ordered_phase (h : Ordered s) (ht : Sound t) (hc : Current s.base id op)
    {phase : Phase V P} (new : List (Play V × P))
    (hops : ∀ j, t.operations.get? j =
      if j = id then some { op with phase := phase } else s.base.operations.get? j)
    (hnext : t.nextOperation = s.base.nextOperation) (harrived : t.arrived = s.base.arrived)
    (hwritten : t.written = s.base.written ++ new)
    (hsub : (new.map (fun entry => Arrival.play entry.1) ++
      (if op.kind = Kind.other ∧ ({ op with phase := phase } : Operation V P).isDone = true then
        s.arrivals.filter (Arrival.isOutput id) else []) ++
      writes (s.next t) id { op with phase := phase }).Sublist (writes s id op)) :
    Ordered (s.next t) := by
  have harrivals : (s.next t).arrivals = s.arrivals := by
    unfold Traced.next
    rw [harrived, List.drop_length, List.map_nil, List.append_nil]
  have hget : (s.next t).base.operations.get? id = some { op with phase := phase } := by
    change t.operations.get? id = _
    rw [hops, if_pos rfl]
  refine ordered_next h ht (Nat.le_of_eq hnext.symm) harrived ⟨new, hwritten⟩ ?_
  rw [emitted_phase s.arrivals hc hops hwritten, future_current h.sound.serial hc,
    future_phase (t := s.next t) h.sound.serial hc hops hnext harrivals, toWrite_eq hget,
    toWrite_eq hc.get, ← List.append_assoc]
  exact hsub.append_right _

/-- The current operation writes nothing. -/
theorem ordered_quiet (h : Ordered s) (ht : Sound t) (hc : Current s.base id op)
    {phase : Phase V P}
    (hops : ∀ j, t.operations.get? j =
      if j = id then some { op with phase := phase } else s.base.operations.get? j)
    (hnext : t.nextOperation = s.base.nextOperation) (harrived : t.arrived = s.base.arrived)
    (hwritten : t.written = s.base.written) (hkind : op.kind ≠ .other)
    (hsub : (writes (s.next t) id { op with phase := phase }).Sublist (writes s id op)) :
    Ordered (s.next t) := by
  refine ordered_phase h ht hc [] hops hnext harrived (by rw [hwritten, List.append_nil]) ?_
  rw [if_neg fun hother => hkind hother.1]
  exact hsub

/-- A new operation writes last. -/
theorem future_schedule (s s' : Traced V P)
    (hops : s'.base.operations = s.base.operations.insert s.base.nextOperation
      { kind := kind, previous := s.base.operationTail })
    (hnext : s'.base.nextOperation = s.base.nextOperation + 1)
    (hqueued : s'.base.queuedUploadPlays = s.base.queuedUploadPlays) {new : List (Arrival V)}
    (harrivals : s'.arrivals = s.arrivals ++ new)
    (hnew : ∀ j, j < s.base.nextOperation → new.filter (Arrival.isOutput j) = []) :
    future s' = future s ++ writes s' s.base.nextOperation
      { kind := kind, previous := s.base.operationTail } := by
  have hlast : toWrite s' s.base.nextOperation = writes s' s.base.nextOperation
      { kind := kind, previous := s.base.operationTail } :=
    toWrite_eq (by rw [hops, Dict.get?_insert_self])
  unfold future
  rw [hnext, List.range_succ, List.flatMap_append, List.flatMap_singleton, hlast]
  congr 1
  refine List.flatMap_congr fun j hj => ?_
  have hlt := List.mem_range.mp hj
  refine toWrite_frame ?_ hqueued ?_
  · rw [hops, Dict.get?_insert_of_ne _ _ (by omega)]
  · rw [harrivals, List.filter_append, hnew j hlt, List.append_nil]

omit [DecidableEq V] in
theorem schedule_still (hs : Serial s.base)
    (hops : t.operations = s.base.operations.insert s.base.nextOperation
      { kind := kind, previous := s.base.operationTail }) (j : Nat) (g g' : Operation V P)
    (hg : s.base.operations.get? j = some g) (hg' : t.operations.get? j = some g')
    (hdone : g.isDone = false) : g'.isDone = false := by
  have hlt := hs.domain j g hg
  rw [hops, Dict.get?_insert_of_ne _ _ (by omega), hg] at hg'
  rwa [← Option.some.inj hg']

/-- A request, or an operation that has no event to write. -/
theorem ordered_schedule (h : Ordered s) (ht : Sound t) (hplay : ∀ play, kind ≠ .play play)
    (hops : t.operations = s.base.operations.insert s.base.nextOperation
      { kind := kind, previous := s.base.operationTail })
    (hnext : t.nextOperation = s.base.nextOperation + 1)
    (hqueued : t.queuedUploadPlays = s.base.queuedUploadPlays)
    (harrived : t.arrived = s.base.arrived) (hwritten : t.written = s.base.written) :
    Ordered (s.next t) := by
  have harrivals : (s.next t).arrivals = s.arrivals := by
    unfold Traced.next
    rw [harrived, List.drop_length, List.map_nil, List.append_nil]
  refine ordered_next h ht (by omega) harrived ⟨[], by rw [hwritten, List.append_nil]⟩ ?_
  rw [emitted_still _ hwritten (schedule_still h.sound.serial hops), List.nil_append,
    future_schedule s (s.next t) hops hnext hqueued
      (by rw [harrivals, List.append_nil]) fun j _ => rfl]
  have hnone : writes (s.next t) s.base.nextOperation
      { kind := kind, previous := s.base.operationTail } = [] := by
    unfold writes
    cases kind with
    | play play => exact absurd rfl (hplay play)
    | other =>
      simp only [harrivals, List.filter_eq_nil_iff]
      intro x hx
      cases x with
      | play play => exact Bool.false_ne_true
      | output id type code value =>
        have hlt := h.outputs id type code value hx
        simp only [Arrival.isOutput, decide_eq_true_eq]
        omega
    | _ => rfl
  rw [hnone, List.append_nil]

variable [DecidableEq P]

/-- A move without a play that comes in. -/
theorem ordered_move (h : Ordered s) (ht : Sound t) (hmove : Move s.base t)
    (harrived : t.arrived = s.base.arrived) : Ordered (s.next t) := by
  cases hmove with
  | requested kind hrequest =>
    refine ordered_schedule h ht ?_ rfl rfl rfl rfl rfl
    rintro play rfl
    cases hrequest
  | arrived effect value =>
    -- A play makes the list longer.
    have hlength := congrArg List.length harrived
    unfold playEvent at hlength
    simp only at hlength
    split at hlength
    · simp at hlength
    · split at hlength
      · simp at hlength
      · simp [schedule] at hlength
  | scheduled => exact ordered_schedule h ht (by simp) rfl rfl rfl rfl rfl
  | rejected id op hc hphase hrequest =>
    refine ordered_quiet h ht hc (get?_setPhase s.base id op _) rfl rfl rfl ?_ (List.nil_sublist _)
    intro hkind
    unfold Operation.isRequest at hrequest
    rw [hkind] at hrequest
    cases hrequest
  | begun id op effect hc hphase hkind =>
    refine ordered_quiet h ht hc (get?_setPhase s.base id op _) rfl rfl rfl (by simp [hkind]) ?_
    have hnone : s.base.queuedUploadPlays.getD effect [] = [] := by
      rw [List.eq_nil_iff_forall_not_mem]
      intro play hplay
      exact not_pending h.sound.mapped hc (by simp [hphase, Parks]) effect
        (h.sound.mapped.parked effect play hplay).1
    simp [writes, hkind, hphase, Traced.next, setPhase, hnone]
  | taken id op effect physical hc hphase hkind hmapped
  | lookedUp id op play physical hc hphase hkind hmapped
  | finished id op effect physical hc hphase hkind hmapped =>
    refine ordered_quiet h ht hc (get?_setPhase s.base id op _) rfl rfl rfl (by simp [hkind]) ?_
    simp [writes, hkind, hphase]
  | unmapped id op play hc hphase hkind hmapped
  | failed id op effect previous hc hphase hkind
  | rolledBack id op effect previous physical erased hc hphase hkind
  | mismatched id op effect physical hc hphase hkind hmapped
  | uploaded id op effect physical hc hphase hkind
  | erased id op effect physical hc hphase hkind
  | kept id op effect physical hc hphase hkind =>
    exact ordered_quiet h ht hc (get?_setPhase s.base id op _) rfl rfl rfl (by simp [hkind])
      (List.nil_sublist _)
  | passed id op hc hphase hkind =>
    refine ordered_phase h ht hc [] (get?_setPhase s.base id op _) rfl rfl
      (List.append_nil _).symm ?_
    rw [if_pos ⟨hkind, rfl⟩]
    simp [writes, hkind, hphase]
  | published id op effect previous physical hc hphase hkind hreturns
  | acknowledged id op effect previous physical hc hphase hkind =>
    refine ordered_quiet h ht hc (get?_setPhase s.base id op _) rfl rfl rfl (by simp [hkind]) ?_
    simp [writes, hkind, hphase, Traced.next, setPhase]
  | flushed id op effect physical play plays hc hphase hkind
  | played id op play physical hc hphase hkind =>
    refine ordered_phase h ht hc [(play, physical)] (get?_setPhase s.base id op _) rfl rfl rfl ?_
    simp [writes, hkind, hphase]
  | forgotten id op htail hget hdone =>
    refine ordered_next h ht (Nat.le_refl _) rfl ⟨[], (List.append_nil _).symm⟩ ?_
    have hnone : emitted s.arrivals s.base { s.base with operationTail := none } = [] := by
      refine emitted_still _ rfl fun j g g' hg hg' hd => ?_
      change s.base.operations.get? j = some g' at hg'
      rw [hg] at hg'
      rwa [← Option.some.inj hg']
    have hsame : future (s.next { s.base with operationTail := none }) = future s := by
      refine List.flatMap_congr fun j _ => toWrite_frame rfl rfl ?_
      simp [Traced.next]
    rw [hnone, hsame, List.nil_append]

omit [DecidableEq P] in
/-- An event comes in that is to be written last. -/
theorem ordered_arrival (h : Ordered s) {s' : Traced V P} (hs' : Sound s'.base) (x : Arrival V)
    (hnext : s.base.nextOperation ≤ s'.base.nextOperation)
    (hlength : s.base.arrived.length ≤ s'.base.arrived.length)
    (hplay : ∀ play, x = .play play →
      play.number = s.base.arrived.length ∧ play.number < s'.base.arrived.length)
    (houtput : ∀ id type code value, x = .output id type code value →
      id = s.base.nextOperation ∧ id < s'.base.nextOperation)
    (harrivals : s'.arrivals = s.arrivals ++ [x]) (hlog : s'.log = s.log)
    (hwritten : s'.base.written = s.base.written)
    (hfuture : (future s').Sublist (future s ++ [x])) : Ordered s' := by
  have hfresh : x ∉ s.arrivals := by
    intro hx
    cases x with
    | play play => exact absurd (h.plays play hx) (by rw [(hplay play rfl).1]; exact Nat.lt_irrefl _)
    | output id type code value =>
      refine absurd (h.outputs id type code value hx) ?_
      rw [(houtput id type code value rfl).1]
      exact Nat.lt_irrefl _
  refine ⟨hs', fun play hx => ?_, fun id type code value hx => ?_, ?_, ?_, ?_⟩
  · rw [harrivals] at hx
    obtain hx | hx := List.mem_append.mp hx
    · exact Nat.lt_of_lt_of_le (h.plays play hx) hlength
    · exact (hplay play (List.mem_singleton.mp hx).symm).2
  · rw [harrivals] at hx
    obtain hx | hx := List.mem_append.mp hx
    · exact Nat.lt_of_lt_of_le (h.outputs id type code value hx) hnext
    · exact (houtput id type code value (List.mem_singleton.mp hx).symm).2
  · rw [harrivals]
    refine List.nodup_append.mpr ⟨h.distinct, List.nodup_singleton x, fun y hy z hz => ?_⟩
    rw [List.mem_singleton.mp hz]
    exact fun heq => hfresh (heq ▸ hy)
  · rw [hlog, hwritten]
    exact h.logged
  · rw [hlog, harrivals]
    refine (hfuture.append_left s.log).trans ?_
    rw [← List.append_assoc]
    exact h.order.append_right [x]

/-- A parked play is the last that is written, as nothing but requests waits. -/
theorem future_parked (h : Ordered s) (ht : Sound t) {effect : V} {play : Play V}
    (hpending : effect ∈ s.base.pendingUploads) (hops : t.operations = s.base.operations)
    (hrequests : ∀ op ∈ s.base.operations.values, op.phase = .waiting → op.isRequest = true)
    (hqueued : t.queuedUploadPlays.getD effect [] =
      s.base.queuedUploadPlays.getD effect [] ++ [play]) :
    future (s.next t) = future s ++ [.play play] := by
  obtain ⟨u, op, hget, hkind, hparks⟩ := h.sound.mapped.pending effect hpending
  obtain ⟨hwaiting, hunfinished⟩ := parks_active hparks
  have hc := current_of_started h.sound.serial hget hwaiting hunfinished
  have hc' : Current (s.next t).base u op :=
    current_of_started ht.serial ((congrArg (Dict.get? · u) hops).trans hget) hwaiting hunfinished
  have hrest (s' : Traced V P) (hops' : s'.base.operations = s.base.operations) (n : Nat) :
      (List.range n).flatMap (fun j => toWrite s' (u + 1 + j)) = [] := by
    rw [List.flatMap_eq_nil_iff]
    intro j _
    cases hg : s.base.operations.get? (u + 1 + j) with
    | none =>
      unfold toWrite
      rw [hops', hg]
      rfl
    | some g =>
      have hphase := hc.after _ g (by omega) hg
      exact toWrite_request (by rw [hops', hg]) hphase
        (hrequests g (Dict.mem_values_iff.mpr ⟨_, hg⟩) hphase)
  have hlast : writes (s.next t) u op = writes s u op ++ [.play play] := by
    have hnext : (s.next t).base.queuedUploadPlays.getD effect [] =
      s.base.queuedUploadPlays.getD effect [] ++ [play] := hqueued
    unfold writes
    rw [hkind]
    cases hphase : op.phase with
    | begun previous => simp [hnext]
    | published previous physical => simp [hnext]
    | acknowledged physical => simp [hnext]
    | _ =>
      rw [hphase] at hparks
      exact hparks.elim
  rw [future_current ht.serial hc', future_current h.sound.serial hc, hrest s rfl,
    hrest (s.next t) hops, toWrite_eq hc'.get, toWrite_eq hc.get, hlast, List.append_nil,
    List.append_nil]

theorem ordered_playEvent (h : Ordered s) {effect : V} {value : Int}
    (ht : Sound (playEvent s.base effect value)) (hlast : ParksLast s (.base (.play effect value))) :
    Ordered (s.next (playEvent s.base effect value)) := by
  have harrival {t : State V P} (ht : Sound t)
      (hnext : s.base.nextOperation ≤ t.nextOperation)
      (harrived : t.arrived = s.base.arrived ++ [⟨s.base.arrived.length, effect, value⟩])
      (hwritten : t.written = s.base.written)
      (hstill : ∀ j g g', s.base.operations.get? j = some g → t.operations.get? j = some g' →
        g.isDone = false → g'.isDone = false)
      (hfuture : (future (s.next t)).Sublist
        (future s ++ [.play ⟨s.base.arrived.length, effect, value⟩])) : Ordered (s.next t) := by
    have hlength : t.arrived.length = s.base.arrived.length + 1 := by
      rw [harrived, List.length_append, List.length_singleton]
    refine ordered_arrival h ht (.play ⟨s.base.arrived.length, effect, value⟩) hnext (by
      change _ ≤ t.arrived.length
      omega) (fun play hplay => ?_) (fun id type code value hx => by cases hx) ?_ ?_ hwritten hfuture
    · cases hplay
      refine ⟨rfl, ?_⟩
      change s.base.arrived.length < t.arrived.length
      omega
    · unfold Traced.next
      rw [harrived, List.drop_left]
      rfl
    · unfold Traced.next
      rw [emitted_still _ hwritten hstill, List.append_nil]
  have hsame (j : Nat) (g g' : Operation V P) (hg : s.base.operations.get? j = some g)
      (hg' : s.base.operations.get? j = some g') (hdone : g.isDone = false) :
      g'.isDone = false := by
    rw [hg] at hg'
    rwa [← Option.some.inj hg']
  have houtputs (j : Nat) : ([.play ⟨s.base.arrived.length, effect, value⟩] :
      List (Arrival V)).filter (Arrival.isOutput j) = [] := rfl
  have harrivals {t : State V P}
      (harrived : t.arrived = s.base.arrived ++ [⟨s.base.arrived.length, effect, value⟩]) :
      (s.next t).arrivals = s.arrivals ++ [.play ⟨s.base.arrived.length, effect, value⟩] := by
    unfold Traced.next
    rw [harrived, List.drop_left]
    rfl
  unfold playEvent at ht ⊢
  simp only at ht ⊢
  split at ht
  · next hpending =>
    rw [if_pos hpending]
    refine harrival ht (Nat.le_refl _) rfl rfl hsame ?_
    have hparked := future_parked h ht hpending rfl (hlast hpending)
      (show _ = _ ++ [⟨s.base.arrived.length, effect, value⟩] by
        simp only [Dict.getD, Dict.get?_insert_self, Option.getD_some])
    rw [hparked]
  · next hpending =>
    rw [if_neg hpending]
    split at ht
    · next hunmapped =>
      refine harrival ht (Nat.le_refl _) rfl rfl hsame ?_
      have hfuture : future (s.next { s.base with
          arrived := s.base.arrived ++ [⟨s.base.arrived.length, effect, value⟩]
          dropped := s.base.dropped ++ [⟨s.base.arrived.length, effect, value⟩] }) = future s := by
        refine List.flatMap_congr fun j _ => toWrite_frame rfl rfl ?_
        rw [harrivals rfl, List.filter_append, houtputs, List.append_nil]
      rw [hfuture]
      exact List.sublist_append_left _ _
    · next physical hmapped =>
      refine harrival ht (Nat.le_succ _) rfl rfl (schedule_still h.sound.serial rfl) ?_
      have hfuture := future_schedule s (s.next (schedule { s.base with
          arrived := s.base.arrived ++ [⟨s.base.arrived.length, effect, value⟩] }
          (.play ⟨s.base.arrived.length, effect, value⟩))) rfl rfl rfl
        (harrivals rfl) fun j _ => houtputs j
      exact hfuture ▸ List.Sublist.refl _

theorem ordered_output (h : Ordered s) (type code : Nat) (value : Int) :
    Ordered { s with
      base := schedule s.base .other
      arrivals := s.arrivals ++ [.output s.base.nextOperation type code value] } := by
  have hsound : Sound (schedule s.base .other) :=
    sound_step h.sound (rfl : step s.base .otherEvent = some _)
  refine ordered_arrival h hsound (.output s.base.nextOperation type code value) (Nat.le_succ _)
    (Nat.le_refl _) (fun play hplay => by cases hplay) (fun id type' code' value' hx => ?_) rfl rfl
    rfl ?_
  · cases hx
    exact ⟨rfl, Nat.lt_succ_self _⟩
  · have hfuture := future_schedule s { s with
        base := schedule s.base .other
        arrivals := s.arrivals ++ [.output s.base.nextOperation type code value] }
      rfl rfl rfl rfl fun j hj => ?_
    · rw [hfuture]
      refine List.Sublist.append_left ?_ _
      unfold writes
      simp only [List.filter_append]
      have hnone : s.arrivals.filter (Arrival.isOutput s.base.nextOperation) = [] := by
        rw [List.filter_eq_nil_iff]
        intro x hx
        cases x with
        | play play => exact Bool.false_ne_true
        | output id type code value =>
          have hlt := h.outputs id type code value hx
          simp only [Arrival.isOutput, decide_eq_true_eq]
          omega
      rw [hnone]
      simp [Arrival.isOutput]
    · have hne : s.base.nextOperation ≠ j := by omega
      simp [Arrival.isOutput, hne]

/-- Only a play event lets plays come in. -/
theorem step_arrived {s : State V P} {a : Step V P} (hplay : ∀ effect value, a ≠ .play effect value)
    (hstep : step s a = some t) : t.arrived = s.arrived := by
  cases a with
  | uploadRequest effect
  | eraseRequest effect
  | otherEvent =>
    cases hstep
    rfl
  | play effect value => exact absurd rfl (hplay effect value)
  | forgetTail =>
    obtain ⟨id, -, hstep⟩ := Option.bind_eq_some_iff.mp hstep
    obtain ⟨-, hstep⟩ := Option.ite_none_right_eq_some.mp hstep
    cases hstep
    rfl
  | _ =>
    obtain ⟨op, -, hstep⟩ := Option.bind_eq_some_iff.mp hstep
    repeat' split at hstep
    all_goals
      cases hstep
      try rfl

theorem traceStep_base {a : Step V P} (hother : a ≠ .otherEvent) :
    traceStep s (.base a) = (step s.base a).map s.next := by
  cases a with
  | otherEvent => exact absurd rfl hother
  | _ => rfl

theorem ordered_step {a : Label V P} {u : Traced V P} (h : Ordered s) (hlast : ParksLast s a)
    (hstep : traceStep s a = some u) : Ordered u := by
  cases a with
  | output type code value =>
    rw [← Option.some.inj hstep]
    exact ordered_output h type code value
  | base a =>
    have hother : a ≠ .otherEvent := by
      rintro rfl
      cases hstep
    rw [traceStep_base hother] at hstep
    obtain ⟨t, ht, rfl⟩ := Option.map_eq_some_iff.mp hstep
    have hsound := sound_step h.sound ht
    by_cases hplay : ∃ effect value, a = .play effect value
    · obtain ⟨effect, value, rfl⟩ := hplay
      rw [← Option.some.inj ht] at hsound ⊢
      exact ordered_playEvent h hsound hlast
    · exact ordered_move h hsound (step_moves h.sound.serial ht)
        (step_arrived (fun effect value heq => hplay ⟨effect, value, heq⟩) ht)

end Steps

theorem ordered_initial : Ordered ({} : Traced V P) :=
  ⟨sound_initial, fun play hplay => (by cases hplay), fun id type code value hx => (by cases hx),
    List.nodup_nil, rfl, List.Sublist.refl _⟩

/-! ## Runs -/

variable [DecidableEq P]

/-- In a run that parks plays only while nothing but requests waits, the plays and output
events that are written are in the order in which they came in; all of them are distinct,
and the plays are those written to the physical effects. -/
theorem written_in_order {as : List (Label V P)} {t : Traced V P}
    (hparks : Guarded traceStep ParksLast {} as) (hrun : run traceStep {} as = some t) :
    t.log.Sublist t.arrivals ∧ t.arrivals.Nodup ∧
      t.log.filterMap Arrival.play? = t.base.written.map Prod.fst := by
  have h : Ordered t :=
    guarded_run_invariant (fun _ _ _ h ha hstep => ordered_step h ha hstep) ordered_initial hparks
      hrun
  exact ⟨(List.sublist_append_left _ _).trans h.order, h.distinct, h.logged⟩

/-- An LED event and a play wait behind the upload of another effect, whose own play is parked
before them. -/
def parkedFirst : List (Label Nat Nat) :=
  [.base (.uploadRequest 0), .base (.start 0 true), .base (.uploadEffect 0 (some 5)),
    .base (.endUpload 0 true true), .base (.finishUpload 0), .base (.write 0),
    .base (.uploadRequest 1), .base (.start 1 true), .base (.play 1 1), .output 17 0 1,
    .base (.play 0 1), .base (.uploadEffect 1 (some 6)), .base (.endUpload 1 true true),
    .base (.finishUpload 1), .base (.write 1), .base (.write 1), .base (.start 2 true),
    .base (.start 3 true), .base (.write 3)]

theorem parkedFirst_in_order :
    (run traceStep ({} : Traced Nat Nat) parkedFirst).any (fun t =>
      t.log = [.play ⟨0, 1, 1⟩, .output 2 17 0 1, .play ⟨1, 0, 1⟩]) = true ∧
    ∀ t, run traceStep ({} : Traced Nat Nat) parkedFirst = some t →
      t.log.Sublist t.arrivals ∧ t.arrivals.Nodup ∧
        t.log.filterMap Arrival.play? = t.base.written.map Prod.fst :=
  ⟨by decide, fun _ ht => written_in_order (by decide) ht⟩

/-- The same, but the LED event comes in before the play that is parked. -/
def parkedLast : List (Label Nat Nat) :=
  [.base (.uploadRequest 0), .base (.start 0 true), .output 17 0 1, .base (.play 0 1),
    .base (.uploadEffect 0 (some 5)), .base (.endUpload 0 true true), .base (.finishUpload 0),
    .base (.write 0), .base (.write 0), .base (.start 1 true)]

/-- The parked play overtakes the LED event. -/
theorem parked_play_overtakes :
    (run traceStep ({} : Traced Nat Nat) parkedLast).any (fun t =>
      t.arrivals = [.output 1 17 0 1, .play ⟨0, 0, 1⟩] ∧
        t.log = [.play ⟨0, 0, 1⟩, .output 1 17 0 1] ∧ ¬ t.log.Sublist t.arrivals) = true := by
  decide

end Keymasq.Feedback.Ordering
