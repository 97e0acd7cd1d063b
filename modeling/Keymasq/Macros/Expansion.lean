import Keymasq.Foundation.Merge
import Keymasq.Macros.Rapidfire

/-!
# Expanding rapidfire blocks

The events of a macro come from a source. A rapidfire block among them is replaced by its
pulses, which go on while later events of the source are played.
-/

namespace Keymasq.Macros.Expansion
open Foundation Json Merge Rapidfire

variable {D : Type*}

/- An event of the source: the fields a block reads and whatever else it carries. -/
structure SourceEvent (D : Type*) where
  fields : MacroEvent
  rest : D

inductive Yielded (D : Type*)
  | event (event : SourceEvent D)
  | pulse (pulse : PulseEvent)

def SourceEvent.timestamp (event : SourceEvent D) : ℤ := coerceInt event.fields.tUs 0

def Yielded.timestamp : Yielded D → ℤ
  | .event e => e.timestamp
  | .pulse p => p.tUs

inductive Failure
  | raised (raised : Raised)
  | zeroDivisionError

def isRapidfire (event : SourceEvent D) : Bool :=
  match event.fields.macroAction with
  | some (.str name) => name = "macro_rapidfire"
  | _ => false

/- The checks of a block are made when its first pulse is asked for. -/
def blockPulses (event : SourceEvent D) : Except Failure (List PulseEvent) :=
  match macroRapidfireEvents event.fields with
  | none => .error .zeroDivisionError
  | some (.error raised) => .error (.raised raised)
  | some (.ok pulses) => .ok pulses

def yieldPulse (pulse : ℕ × PulseEvent) : ℕ × Yielded D := (pulse.1, .pulse pulse.2)

/- Where an event of the source stands. -/
def position (event : SourceEvent D) (order : ℕ) : ℤ ×ₗ ℕ := toLex (event.timestamp, order)

/- The pulses that are due before an event of the source. -/
def takeDue (event : SourceEvent D) (order : ℕ) (pending : List (Stream PulseEvent)) :
    List (ℕ × PulseEvent) × List (Stream PulseEvent) :=
  drain PulseEvent.tUs (position event order : WithTop (ℤ ×ₗ ℕ)) pending

/- The events are yielded with the position of the source event they come from. -/
def expandFrom (order : ℕ) (pending : List (Stream PulseEvent)) :
    List (SourceEvent D) → List (ℕ × Yielded D) × Option Failure
  | [] => ((drain PulseEvent.tUs ⊤ pending).1.map yieldPulse, none)
  | event :: source =>
    let due := takeDue event order pending
    if isRapidfire event then
      match blockPulses event with
      | .error failure => (due.1.map yieldPulse, some failure)
      | .ok pulses =>
        let later := expandFrom (order + 1) (push PulseEvent.tUs due.2 order pulses) source
        (due.1.map yieldPulse ++ later.1, later.2)
    else
      let later := expandFrom (order + 1) due.2 source
      (due.1.map yieldPulse ++ (order, .event event) :: later.1, later.2)

/- What the stream yields, and what it ends with. -/
def expandMacroRapidfire (source : List (SourceEvent D)) : List (Yielded D) × Option Failure :=
  ((expandFrom 0 [] source).1.map (·.2), (expandFrom 0 [] source).2)

/- What one event of the source becomes. -/
def expansion (event : SourceEvent D) : List (Yielded D) :=
  if isRapidfire event then
    match blockPulses event with
    | .error _ => []
    | .ok pulses => pulses.map .pulse
  else [.event event]

def Expands (event : SourceEvent D) : Prop :=
  isRapidfire event → ∃ pulses, blockPulses event = .ok pulses

/-! ## One block -/

theorem blockPulses_ordered {event : SourceEvent D} {pulses : List PulseEvent}
    (hblock : isRapidfire event) (h : blockPulses event = .ok pulses) :
    pulses.Pairwise (·.tUs ≤ ·.tUs) ∧ ∀ p ∈ pulses, event.timestamp ≤ p.tUs := by
  have haction : event.fields.macroAction = some (.str "macro_rapidfire") := by
    unfold isRapidfire at hblock
    split at hblock
    next name heq => rw [heq, of_decide_eq_true hblock]
    next => cases hblock
  obtain ⟨result, hresult, hspec⟩ := macroRapidfireEvents_spec event.fields haction
  unfold blockPulses at h
  rw [hresult] at h
  cases result with
  | error raised => cases h
  | ok events =>
    cases h
    obtain ⟨hsorted, hwithin⟩ := hspec _ rfl
    exact ⟨hsorted, fun p hp => (hwithin p hp).1⟩

section Step

variable {order : ℕ} {pending : List (Stream PulseEvent)} {event : SourceEvent D}
  {source : List (SourceEvent D)} {pulses : List PulseEvent}

theorem expandFrom_event (h : ¬ isRapidfire event) :
    expandFrom order pending (event :: source) =
      ((takeDue event order pending).1.map yieldPulse ++
        (order, .event event) :: (expandFrom (order + 1)
          (takeDue event order pending).2 source).1,
      (expandFrom (order + 1)
        (takeDue event order pending).2 source).2) := by
  rw [expandFrom, if_neg h]

theorem expandFrom_block (h : isRapidfire event) (hpulses : blockPulses event = .ok pulses) :
    expandFrom order pending (event :: source) =
      ((takeDue event order pending).1.map yieldPulse ++
        (expandFrom (order + 1) (push PulseEvent.tUs
          (takeDue event order pending).2 order pulses)
          source).1,
      (expandFrom (order + 1) (push PulseEvent.tUs
        (takeDue event order pending).2 order pulses)
        source).2) := by
  rw [expandFrom, if_pos h, hpulses]

theorem expandFrom_failed {failure : Failure} (h : isRapidfire event)
    (hfailed : blockPulses event = .error failure) :
    expandFrom order pending (event :: source) =
      ((takeDue event order pending).1.map yieldPulse,
        some failure) := by
  rw [expandFrom, if_pos h, hfailed]

end Step

/-! ## The order of the yielded events -/

/- The state between two events of the source: nothing that is to come is below `low`. -/
structure Ready (order : ℕ) (pending : List (Stream PulseEvent)) (source : List (SourceEvent D))
    (low : ℤ ×ₗ ℕ) : Prop where
  queue : Queue PulseEvent.tUs pending
  numbers : ∀ s ∈ pending, s.number < order
  pulses : ∀ s ∈ pending, low ≤ s.key PulseEvent.tUs
  events : ∀ event ∈ source, ∀ n ≥ order, low ≤ position event n
  ordered : source.Pairwise (·.timestamp ≤ ·.timestamp)

section Order

variable {order : ℕ} {pending : List (Stream PulseEvent)} {event : SourceEvent D}
  {source : List (SourceEvent D)} {low : ℤ ×ₗ ℕ}

theorem position_le {t : ℤ} {n : ℕ} (htime : event.timestamp ≤ t) (hn : order ≤ n) :
    position event order ≤ toLex (t, n) := by
  unfold position
  rw [Prod.Lex.toLex_le_toLex']
  exact ⟨htime, fun _ => hn⟩

theorem ready_start (h : source.Pairwise (·.timestamp ≤ ·.timestamp)) :
    ∃ low, Ready 0 [] source low := by
  cases source with
  | nil =>
    exact ⟨toLex (0, 0), queue_nil, fun s hs => absurd hs List.not_mem_nil,
      fun s hs => absurd hs List.not_mem_nil, fun e he => absurd he List.not_mem_nil, h⟩
  | cons event source =>
    refine ⟨position event 0, queue_nil, fun s hs => absurd hs List.not_mem_nil,
      fun s hs => absurd hs List.not_mem_nil, ?_, h⟩
    intro e he n hn
    refine position_le ?_ hn
    rcases List.mem_cons.mp he with rfl | he
    · exact le_refl _
    · exact (List.pairwise_cons.mp h).1 e he

/-- After the pulses that are due, everything to come is behind the event. -/
theorem Ready.due (h : Ready order pending (event :: source) low) :
    Drained PulseEvent.tUs (position event order) pending
        (takeDue event order pending).1
        (takeDue event order pending).2 ∧
      Ready order (takeDue event order pending).2 source
        (position event order) := by
  have hdrained := drain_spec (position event order : WithTop (ℤ ×ₗ ℕ)) h.queue
  refine ⟨hdrained, hdrained.ready, ?_, ?_, ?_, (List.pairwise_cons.mp h.ordered).2⟩
  · intro s hs
    obtain ⟨t, ht, heq⟩ := hdrained.numbers s hs
    rw [← heq]
    exact h.numbers t ht
  · intro s hs
    have hbeyond := hdrained.beyond s hs
    rw [WithTop.coe_le_coe] at hbeyond
    exact le_of_not_ge hbeyond
  · intro e he n hn
    exact position_le ((List.pairwise_cons.mp h.ordered).1 e he) hn

theorem Ready.next (h : Ready order pending source low) : Ready (order + 1) pending source low :=
  ⟨h.queue, fun s hs => Nat.lt_succ_of_lt (h.numbers s hs), h.pulses,
    fun e he n hn => h.events e he n (Nat.le_of_succ_le hn), h.ordered⟩

/-- The pulses of a block join those of the blocks before. -/
theorem Ready.block {pulses : List PulseEvent} (hblock : isRapidfire event)
    (hpulses : blockPulses event = .ok pulses)
    (h : Ready order pending source (position event order)) :
    Ready (order + 1) (push PulseEvent.tUs pending order pulses) source
      (position event order) := by
  obtain ⟨hsorted, hfrom⟩ := blockPulses_ordered hblock hpulses
  have hnew : ∀ s ∈ pending, s.number ≠ order := fun s hs => Nat.ne_of_lt (h.numbers s hs)
  refine ⟨h.queue.push hnew hsorted, ?_, ?_, h.next.events, h.ordered⟩
  · intro s hs
    rcases mem_push hs with hs | ⟨hnumber, -⟩
    · exact h.next.numbers s hs
    · omega
  · intro s hs
    rcases mem_push hs with hs | ⟨hnumber, hitems⟩
    · exact h.pulses s hs
    · have hmem : s.item ∈ s.items := List.mem_cons_self
      rw [hitems] at hmem
      unfold Stream.key key
      exact position_le (hfrom s.item hmem) (le_of_eq hnumber.symm)

/-- The yielded events are in the order of their times and, at equal times, of the positions
of their source events. -/
theorem expandFrom_sorted (h : Ready order pending source low) :
    (expandFrom order pending source).1.Pairwise
        (fun e f => key Yielded.timestamp e ≤ key Yielded.timestamp f) ∧
      ∀ e ∈ (expandFrom order pending source).1, low ≤ key Yielded.timestamp e := by
  induction source generalizing order pending low with
  | nil =>
    have hdrained := drain_spec ⊤ h.queue
    unfold expandFrom
    rw [List.pairwise_map]
    refine ⟨hdrained.sorted, fun e he => ?_⟩
    obtain ⟨p, hp, rfl⟩ := List.mem_map.mp he
    exact hdrained.low low h.pulses p hp
  | cons event source ih =>
    obtain ⟨hdrained, hready⟩ := h.due
    have hhere : low ≤ position event order :=
      h.events event List.mem_cons_self order (le_refl order)
    have hdue : ∀ e ∈ (takeDue event order pending).1.map
        (yieldPulse (D := D)), low ≤ key Yielded.timestamp e ∧
          key Yielded.timestamp e ≤ position event order := by
      intro e he
      obtain ⟨p, hp, rfl⟩ := List.mem_map.mp he
      exact ⟨hdrained.low low h.pulses p hp, WithTop.coe_le_coe.mp (hdrained.within p hp)⟩
    have hsorted : ((takeDue event order pending).1.map
        (yieldPulse (D := D))).Pairwise
          fun e f => key Yielded.timestamp e ≤ key Yielded.timestamp f :=
      List.pairwise_map.mpr hdrained.sorted
    by_cases hblock : isRapidfire event
    · cases hpulses : blockPulses event with
      | error failure =>
        rw [expandFrom_failed hblock hpulses]
        exact ⟨hsorted, fun e he => (hdue e he).1⟩
      | ok pulses =>
        obtain ⟨hlater, hafter⟩ := ih (hready.block hblock hpulses)
        rw [expandFrom_block hblock hpulses, List.pairwise_append]
        refine ⟨⟨hsorted, hlater, fun e he f hf => le_trans (hdue e he).2 (hafter f hf)⟩, ?_⟩
        intro e he
        rcases List.mem_append.mp he with he | he
        · exact (hdue e he).1
        · exact le_trans hhere (hafter e he)
    · obtain ⟨hlater, hafter⟩ := ih hready.next
      rw [expandFrom_event hblock, List.pairwise_append, List.pairwise_cons]
      have hmem : ∀ e ∈ ((order, .event event) : ℕ × Yielded D) :: (expandFrom (order + 1)
          (takeDue event order pending).2 source).1,
            position event order ≤ key Yielded.timestamp e := by
        intro e he
        rcases List.mem_cons.mp he with rfl | he
        · exact le_refl _
        · exact hafter e he
      refine ⟨⟨hsorted, ⟨hafter, hlater⟩,
        fun e he f hf => le_trans (hdue e he).2 (hmem f hf)⟩, ?_⟩
      intro e he
      rcases List.mem_append.mp he with he | he
      · exact (hdue e he).1
      · exact le_trans hhere (hmem e he)

end Order

/-! ## The content of the yielded events -/

section Content

variable {order : ℕ} {pending : List (Stream PulseEvent)} {event : SourceEvent D}
  {source : List (SourceEvent D)} {low : ℤ ×ₗ ℕ}

theorem expansion_event (h : ¬ isRapidfire event) : expansion event = [.event event] := by
  unfold expansion
  rw [if_neg h]

theorem expansion_block {pulses : List PulseEvent} (h : isRapidfire event)
    (hpulses : blockPulses event = .ok pulses) : expansion event = pulses.map .pulse := by
  unfold expansion
  rw [if_pos h, hpulses]

/-- The stream raises exactly where a block of the source cannot be expanded. -/
theorem raised_eq_none_iff :
    (expandFrom order pending source).2 = none ↔ ∀ event ∈ source, Expands event := by
  induction source generalizing order pending with
  | nil => exact ⟨fun _ e he => absurd he List.not_mem_nil, fun _ => rfl⟩
  | cons event source ih =>
    rw [List.forall_mem_cons]
    by_cases hblock : isRapidfire event
    · cases hpulses : blockPulses event with
      | error failure =>
        rw [expandFrom_failed hblock hpulses]
        refine ⟨fun h => (by cases h), fun h => ?_⟩
        obtain ⟨pulses, heq⟩ := h.1 hblock
        rw [hpulses] at heq
        cases heq
      | ok pulses =>
        rw [expandFrom_block hblock hpulses, ih]
        exact ⟨fun h => ⟨fun _ => ⟨pulses, hpulses⟩, h⟩, fun h => h.2⟩
    · rw [expandFrom_event hblock, ih]
      exact ⟨fun h => ⟨fun hyes => absurd hyes hblock, h⟩, fun h => h.2⟩

theorem map_snd_yieldPulse (taken : List (ℕ × PulseEvent)) :
    ((taken.map yieldPulse).map fun e : ℕ × Yielded D => e.2) =
      (taken.map fun p => p.2).map .pulse := by
  rw [List.map_map, List.map_map]
  rfl

/-- What an event becomes comes between the pulses due before it and the ones left. -/
theorem interleave_perm {β : Type*} {all due left : List β} (h : (due ++ left).Perm all)
    (here later : List β) : (due ++ (here ++ (left ++ later))).Perm (all ++ (here ++ later)) :=
  ((List.perm_append_comm_assoc here left later).append_left due).trans (by
    rw [← List.append_assoc]
    exact h.append_right _)

/-- Nothing is dropped and nothing is made up. -/
theorem expandFrom_perm (h : ∀ event ∈ source, Expands event) :
    ((expandFrom order pending source).1.map (·.2)).Perm
      ((pending.flatMap Stream.items).map .pulse ++ source.flatMap expansion) := by
  induction source generalizing order pending with
  | nil =>
    have hperm := drain_perm PulseEvent.tUs ⊤ pending
    rw [drain_top, List.flatMap_nil, List.append_nil] at hperm
    unfold expandFrom
    rw [map_snd_yieldPulse, List.flatMap_nil, List.append_nil]
    exact hperm.map _
  | cons event source ih =>
    obtain ⟨hevent, hsource⟩ := List.forall_mem_cons.mp h
    have hdue : ((((takeDue event order pending).1.map fun p : ℕ × PulseEvent => p.2).map
        (Yielded.pulse (D := D))) ++ ((takeDue event order pending).2.flatMap Stream.items).map
          Yielded.pulse).Perm ((pending.flatMap Stream.items).map Yielded.pulse) := by
      rw [← List.map_append]
      exact (drain_perm _ _ pending).map _
    rw [List.flatMap_cons]
    refine List.Perm.trans ?_ (interleave_perm hdue _ _)
    by_cases hblock : isRapidfire event
    · obtain ⟨pulses, hpulses⟩ := hevent hblock
      rw [expandFrom_block hblock hpulses, List.map_append, map_snd_yieldPulse,
        expansion_block hblock hpulses, ← List.append_assoc (pulses.map _), ← List.map_append]
      exact ((ih hsource).trans (((push_perm _ _ _ _).map _).append_right _)).append_left _
    · rw [expandFrom_event hblock, List.map_append, map_snd_yieldPulse, expansion_event hblock]
      exact ((ih hsource).cons _).append_left _

theorem ofNumber_append {β : Type*} (n : ℕ) (a b : List (ℕ × β)) :
    ofNumber n (a ++ b) = ofNumber n a ++ ofNumber n b := by
  unfold ofNumber
  rw [List.filter_append, List.map_append]

theorem ofNumber_yieldPulse (n : ℕ) (taken : List (ℕ × PulseEvent)) :
    ofNumber n (taken.map (yieldPulse (D := D))) = (ofNumber n taken).map .pulse := by
  unfold ofNumber
  rw [List.filter_map, List.map_map, List.map_map]
  rfl

theorem ofNumber_cons_self {β : Type*} (n : ℕ) (b : β) (events : List (ℕ × β)) :
    ofNumber n ((n, b) :: events) = b :: ofNumber n events := by
  unfold ofNumber
  rw [List.filter_cons_of_pos (by exact decide_eq_true rfl), List.map_cons]

theorem ofNumber_cons_of_ne {β : Type*} {m n : ℕ} (h : m ≠ n) (b : β) (events : List (ℕ × β)) :
    ofNumber n ((m, b) :: events) = ofNumber n events := by
  unfold ofNumber
  rw [List.filter_cons_of_neg (by rw [decide_eq_true_iff]; exact h)]

/-- No pulse of a later position is pending. -/
theorem Ready.remaining {n : ℕ} (h : Ready order pending source low) (hn : order ≤ n) :
    remaining n pending = [] :=
  remaining_of_new fun s hs => Nat.ne_of_lt (Nat.lt_of_lt_of_le (h.numbers s hs) hn)

/-- What is yielded for one position of the source: the pulses it has pending, or what its
event becomes. -/
theorem ofNumber_expandFrom (h : ∀ event ∈ source, Expands event)
    (hready : Ready order pending source low) :
    (∀ n < order, ofNumber n (expandFrom order pending source).1 =
      (remaining n pending).map .pulse) ∧
    ∀ k, ofNumber (order + k) (expandFrom order pending source).1 =
      (source[k]?).elim [] expansion := by
  induction source generalizing order pending low with
  | nil =>
    have hall (n : ℕ) : ofNumber n (expandFrom order pending ([] : List (SourceEvent D))).1 =
        (remaining n pending).map .pulse := by
      have hkept := (drain_spec ⊤ hready.queue).kept n
      rw [drain_top] at hkept
      unfold expandFrom
      rw [ofNumber_yieldPulse, ← hkept]
      exact congrArg _ (List.append_nil _).symm
    refine ⟨fun n _ => hall n, fun k => ?_⟩
    rw [hall, hready.remaining (Nat.le_add_right order k)]
    rfl
  | cons event source ih =>
    obtain ⟨hevent, hsource⟩ := List.forall_mem_cons.mp h
    obtain ⟨hdrained, hdue⟩ := hready.due
    have hkept (n : ℕ) : (remaining n pending).map Yielded.pulse =
        ofNumber n ((takeDue event order pending).1.map (yieldPulse (D := D))) ++
          (remaining n (takeDue event order pending).2).map .pulse := by
      rw [ofNumber_yieldPulse, ← List.map_append]
      exact congrArg _ (hdrained.kept n).symm
    have hnone (n : ℕ) (hn : order ≤ n) :
        ofNumber n ((takeDue event order pending).1.map (yieldPulse (D := D))) = [] := by
      have hempty := hkept n
      rw [hready.remaining hn] at hempty
      exact (List.append_eq_nil_iff.mp hempty.symm).1
    by_cases hblock : isRapidfire event
    · obtain ⟨pulses, hpulses⟩ := hevent hblock
      obtain ⟨hbefore, hafter⟩ := ih hsource (hdue.block hblock hpulses)
      have hremaining := remaining_push PulseEvent.tUs
        (fun s hs => Nat.ne_of_lt (hdue.numbers s hs)) pulses
      rw [expandFrom_block hblock hpulses]
      refine ⟨fun n hn => ?_, fun k => ?_⟩
      · rw [ofNumber_append, hbefore n (Nat.lt_succ_of_lt hn), hremaining,
          if_neg (Nat.ne_of_lt hn), hkept]
      · cases k with
        | zero =>
          rw [Nat.add_zero, ofNumber_append, hnone order (le_refl order),
            hbefore order (Nat.lt_succ_self order), hremaining, if_pos rfl]
          exact (expansion_block hblock hpulses).symm
        | succ k =>
          have hk := hafter k
          rw [Nat.add_right_comm] at hk
          rw [ofNumber_append, hnone _ (Nat.le_add_right order _), ← Nat.add_assoc, hk]
          rfl
    · obtain ⟨hbefore, hafter⟩ := ih hsource hdue.next
      rw [expandFrom_event hblock]
      refine ⟨fun n hn => ?_, fun k => ?_⟩
      · rw [ofNumber_append, ofNumber_cons_of_ne (Nat.ne_of_gt hn),
          hbefore n (Nat.lt_succ_of_lt hn), hkept]
      · cases k with
        | zero =>
          rw [Nat.add_zero, ofNumber_append, hnone order (le_refl order), ofNumber_cons_self,
            hbefore order (Nat.lt_succ_self order), hdue.remaining (le_refl order)]
          exact (expansion_event hblock).symm
        | succ k =>
          have hk := hafter k
          rw [Nat.add_right_comm] at hk
          rw [ofNumber_append, hnone _ (Nat.le_add_right order _),
            ofNumber_cons_of_ne (by omega), ← Nat.add_assoc, hk]
          rfl

end Content

/- The yielded events are the merge of what the source events become: `numbered` are the same
events with the positions of their source events. -/
structure SortedMerge (source : List (SourceEvent D)) (numbered : List (ℕ × Yielded D)) :
    Prop where
  sorted : numbered.Pairwise fun e f =>
    e.2.timestamp < f.2.timestamp ∨ e.2.timestamp = f.2.timestamp ∧ e.1 ≤ f.1
  perm : (numbered.map (·.2)).Perm (source.flatMap expansion)
  inOrder : ∀ k, ofNumber k numbered = (source[k]?).elim [] expansion

/-- For a source in time order the expansion is in time order, it ends without an error exactly
when every block can be expanded, and then it is a sorted merge. -/
theorem expansion_sorted_merge (source : List (SourceEvent D))
    (hordered : source.Pairwise (·.timestamp ≤ ·.timestamp)) :
    (expandMacroRapidfire source).1.Pairwise (·.timestamp ≤ ·.timestamp) ∧
    ((expandMacroRapidfire source).2 = none ↔ ∀ event ∈ source, Expands event) ∧
    ((expandMacroRapidfire source).2 = none → ∃ numbered,
      (expandMacroRapidfire source).1 = numbered.map (·.2) ∧ SortedMerge source numbered) := by
  obtain ⟨low, hready⟩ := ready_start hordered
  have hsorted : (expandFrom 0 [] source).1.Pairwise fun e f =>
      e.2.timestamp < f.2.timestamp ∨ e.2.timestamp = f.2.timestamp ∧ e.1 ≤ f.1 :=
    (expandFrom_sorted hready).1.imp fun hle => Prod.Lex.toLex_le_toLex.mp hle
  refine ⟨?_, raised_eq_none_iff, fun hended => ⟨_, rfl, hsorted, ?_, fun k => ?_⟩⟩
  · refine List.pairwise_map.mpr (hsorted.imp fun hle => ?_)
    rcases hle with hlt | ⟨heq, -⟩
    · exact le_of_lt hlt
    · exact le_of_eq heq
  · exact expandFrom_perm (raised_eq_none_iff.mp hended)
  · have hk := (ofNumber_expandFrom (raised_eq_none_iff.mp hended) hready).2 k
    rw [Nat.zero_add] at hk
    exact hk

/- Two blocks that overlap around a key event; the second one runs past the end. -/
def overlapping : List (SourceEvent Unit) :=
  [⟨⟨some (.str "macro_rapidfire"), some (.str "keyboard"), some (.int 1), some (.int 30), none,
      some (.int 0), some (.int 9000), none, none⟩, ()⟩,
    ⟨⟨none, some (.str "keyboard"), some (.int 1), some (.int 31), none,
      some (.int 4000), none, none, none⟩, ()⟩,
    ⟨⟨some (.str "macro_rapidfire"), some (.str "mouse"), some (.int 1), some (.int 272), none,
      some (.int 5000), some (.int 9000), none, none⟩, ()⟩]

theorem expansion_sorted_merge_overlapping :
    ∃ numbered, (expandMacroRapidfire overlapping).1 = numbered.map (·.2) ∧
      SortedMerge overlapping numbered ∧ ofNumber 2 numbered =
        [.pulse ⟨.str "mouse", .int 1, .int 272, none, 1, 5000⟩,
          .pulse ⟨.str "mouse", .int 1, .int 272, none, 0, 14000⟩] := by
  have hordered : overlapping.Pairwise (·.timestamp ≤ ·.timestamp) := by decide
  have hexpands : ∀ event ∈ overlapping, Expands event := by
    unfold overlapping
    simp only [List.forall_mem_cons]
    refine ⟨fun _ => ⟨_, rfl⟩, fun h => ?_, fun _ => ⟨_, rfl⟩, fun e he => ?_⟩
    · cases h
    · exact absurd he List.not_mem_nil
  obtain ⟨-, hended, hmerge⟩ := expansion_sorted_merge overlapping hordered
  obtain ⟨numbered, heq, hsorted⟩ := hmerge (hended.mpr hexpands)
  exact ⟨numbered, heq, hsorted, hsorted.inOrder 2⟩

end Keymasq.Macros.Expansion
