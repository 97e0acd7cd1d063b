import Keymasq.Ipc.Framing
import Mathlib.Data.List.Basic
import Mathlib.Order.Iterate

/-!
# Reading frames in pieces

The frames of a stream follow each other from its start. However the stream is
cut into reads, the client takes exactly these frames, unless one of them is
longer than the limit: as such a frame never arrives in one read, the client
drops its beginning and looks for the next frame inside it.
-/

namespace Keymasq.Ipc.Listening
open Foundation.Json Keymasq.Ipc.Framing

/-! ## The frames of a stream -/

/-- The position behind the frame that starts at this position. -/
def nextBoundary (stream : List UInt8) (p : ℕ) : ℕ :=
  p + (headerSize + unpackHeader (stream.drop p))

def Boundary (stream : List UInt8) (p : ℕ) : Prop := ∃ n, (nextBoundary stream)^[n] 0 = p

theorem lt_nextBoundary (stream : List UInt8) (p : ℕ) : p < nextBoundary stream p := by
  simp only [nextBoundary, headerSize]
  omega

theorem boundary_zero (stream : List UInt8) : Boundary stream 0 := ⟨0, rfl⟩

variable {stream buffer bytes : List UInt8} {json : JsonCodec} {l : Listener}
  {reads : List (List UInt8)}

theorem Boundary.next {p : ℕ} (h : Boundary stream p) :
    Boundary stream (nextBoundary stream p) := by
  obtain ⟨n, hn⟩ := h
  refine ⟨n + 1, ?_⟩
  rw [Function.iterate_succ_apply', hn]

/- No frame starts inside another one. -/
theorem Boundary.not_between {p q : ℕ} (hp : Boundary stream p) (hpq : p < q)
    (hq : q < nextBoundary stream p) : ¬ Boundary stream q := by
  rintro ⟨m, rfl⟩
  obtain ⟨n, rfl⟩ := hp
  have hmono : StrictMono fun k => (nextBoundary stream)^[k] 0 := by
    apply strictMono_nat_of_lt_succ
    intro k
    rw [Function.iterate_succ_apply']
    exact lt_nextBoundary stream _
  rw [← Function.iterate_succ_apply' (nextBoundary stream) n 0] at hq
  have hlow : n < m := hmono.lt_iff_lt.mp hpq
  have hhigh : m < n + 1 := hmono.lt_iff_lt.mp hq
  omega

/-- The frames before a position, and the messages in them. -/
structure Parsed where
  position : ℕ := 0
  messages : List Response := []

/- The frame at the position, if it is whole, within the limit and does not raise. -/
def advance (json : JsonCodec) (stream : List UInt8) (s : Parsed) : Option Parsed :=
  let rest := stream.drop s.position
  let payloadLen := unpackHeader rest
  if rest.length < headerSize ∨ payloadLen > maxPayloadSize ∨
      rest.length < headerSize + payloadLen then none
  else
    match (decodeResponse json rest).1 with
    | .raises => none
    | .nothing => some { s with position := s.position + (headerSize + payloadLen) }
    | .message response =>
      some ⟨s.position + (headerSize + payloadLen), s.messages ++ [response]⟩

def parsed (json : JsonCodec) (stream : List UInt8) : ℕ → Option Parsed
  | 0 => some {}
  | n + 1 => (parsed json stream n).bind (advance json stream)

variable {s : Parsed}

theorem boundary_of_parsed {n : ℕ} (h : parsed json stream n = some s) :
    Boundary stream s.position := by
  induction n generalizing s with
  | zero =>
    cases h
    exact boundary_zero stream
  | succ n ih =>
    obtain ⟨t, ht, hstep⟩ := Option.bind_eq_some_iff.mp h
    have hposition : s.position = nextBoundary stream t.position := by
      simp only [advance] at hstep
      split at hstep
      · cases hstep
      split at hstep
      · cases hstep
      · cases hstep
        rfl
      · cases hstep
        rfl
    rw [hposition]
    exact (ih ht).next

/- The frames are taken one after the other, so there is one last point. -/
theorem parsed_final_unique {m n : ℕ} {t : Parsed} (hs : parsed json stream m = some s)
    (ht : parsed json stream n = some t) (hsf : advance json stream s = none)
    (htf : advance json stream t = none) : s = t := by
  have hafter : ∀ (m k : ℕ) (s : Parsed), parsed json stream m = some s →
      advance json stream s = none → parsed json stream (m + 1 + k) = none := by
    intro m k s hs hsf
    induction k with
    | zero => simp only [parsed, hs, Option.bind_some, hsf]
    | succ k ih =>
      rw [← Nat.add_assoc, parsed, ih, Option.bind_none]
  rcases Nat.lt_trichotomy m n with hlt | heq | hgt
  · have hnone := hafter m (n - (m + 1)) s hs hsf
    rw [Nat.add_sub_cancel' hlt, ht] at hnone
    cases hnone
  · subst heq
    rw [hs] at ht
    exact Option.some.inj ht
  · have hnone := hafter n (m - (n + 1)) t ht htf
    rw [Nat.add_sub_cancel' hgt, hs] at hnone
    cases hnone

/-! ## Prefixes of a frame -/

/-- The buffer holds a whole frame within the limit. -/
def Whole (buffer : List UInt8) : Prop :=
  unpackHeader buffer ≤ maxPayloadSize ∧ headerSize + unpackHeader buffer ≤ buffer.length

/-- The frame in the buffer is not complete, and not known to be too long. -/
def Stuck (buffer : List UInt8) : Prop :=
  buffer.length < headerSize ∨
    unpackHeader buffer ≤ maxPayloadSize ∧ buffer.length < headerSize + unpackHeader buffer

/-- The header in the buffer announces a frame beyond the limit. -/
def Oversized (buffer : List UInt8) : Prop :=
  headerSize ≤ buffer.length ∧ maxPayloadSize < unpackHeader buffer

theorem stuck_or_oversized_or_whole (buffer : List UInt8) :
    Stuck buffer ∨ Oversized buffer ∨ Whole buffer := by
  simp only [Stuck, Oversized, Whole]
  omega

theorem decodeResponse_stuck (h : Stuck buffer) :
    decodeResponse json buffer = (.nothing, buffer) := by
  simp only [decodeResponse, decodeFramePayload]
  by_cases hshort : buffer.length < headerSize
  · simp only [if_pos hshort, Decoded.read]
  · obtain ⟨hlimit, hpartial⟩ := h.resolve_left hshort
    simp only [if_neg hshort, if_neg (Nat.not_lt.mpr hlimit), if_pos hpartial, Decoded.read]

theorem decodeResponse_oversized (h : Oversized buffer) :
    decodeResponse json buffer =
      (.nothing, if headerSize + unpackHeader buffer ≤ buffer.length then
        buffer.drop (headerSize + unpackHeader buffer) else []) := by
  simp only [decodeResponse, decodeFramePayload, if_neg (Nat.not_lt.mpr h.1), if_pos h.2,
    Decoded.read, ge_iff_le]

theorem unpackHeader_append (h : headerSize ≤ buffer.length) (rest : List UInt8) :
    unpackHeader (buffer ++ rest) = unpackHeader buffer := by
  simp only [unpackHeader, List.take_append_of_le_length h]

theorem Whole.headerSize_le (h : Whole buffer) : headerSize ≤ buffer.length :=
  Nat.le_trans (Nat.le_add_right _ _) h.2

theorem Whole.append (h : Whole buffer) (rest : List UInt8) : Whole (buffer ++ rest) := by
  have hheader := unpackHeader_append h.headerSize_le rest
  constructor
  · rw [hheader]
    exact h.1
  · rw [hheader, List.length_append]
    exact Nat.le_trans h.2 (Nat.le_add_right _ _)

/- What the text of a whole frame is read as. -/
def readText (json : JsonCodec) (text : List UInt8) : Decoded Response :=
  match json.loads text with
  | .value (.obj payload) => (Decoded.message payload).read responseOfPayload
  | .value _ => .nothing
  | .malformed => .nothing
  | .raises => .raises

theorem decodeResponse_whole (json : JsonCodec) (h : Whole buffer) :
    decodeResponse json buffer =
      (readText json ((buffer.take (headerSize + unpackHeader buffer)).drop headerSize),
        buffer.drop (headerSize + unpackHeader buffer)) := by
  simp only [decodeResponse, decodeFramePayload, if_neg (Nat.not_lt.mpr h.headerSize_le),
    if_neg (Nat.not_lt.mpr h.1), if_neg (Nat.not_lt.mpr h.2), readText]
  generalize json.loads _ = loaded
  cases loaded with
  | value v => cases v <;> rfl
  | malformed => rfl
  | raises => rfl

/- What follows a whole frame does not matter for it. -/
theorem decodeResponse_append (h : Whole buffer) (rest : List UInt8) :
    (decodeResponse json (buffer ++ rest)).1 = (decodeResponse json buffer).1 := by
  rw [decodeResponse_whole json h, decodeResponse_whole json (h.append rest),
    unpackHeader_append h.headerSize_le, List.take_append_of_le_length h.2]

/-! ## Following the stream -/

theorem advance_whole (json : JsonCodec) {rest : List UInt8}
    (hrest : stream.drop s.position = buffer ++ rest) (h : Whole buffer) :
    advance json stream s =
      match (decodeResponse json buffer).1 with
      | .raises => none
      | .nothing =>
        some { s with position := s.position + (headerSize + unpackHeader buffer) }
      | .message response =>
        some ⟨s.position + (headerSize + unpackHeader buffer), s.messages ++ [response]⟩ := by
  have h' := h.append rest
  have hcond : ¬ ((buffer ++ rest).length < headerSize ∨
      unpackHeader (buffer ++ rest) > maxPayloadSize ∨
      (buffer ++ rest).length < headerSize + unpackHeader (buffer ++ rest)) := by
    have h1 := h'.headerSize_le
    have h2 := h'.1
    have h3 := h'.2
    omega
  simp only [advance, hrest]
  rw [if_neg hcond, decodeResponse_append h, unpackHeader_append h.headerSize_le]

theorem advance_stuck (h : Stuck (stream.drop s.position)) : advance json stream s = none := by
  have hcond : (stream.drop s.position).length < headerSize ∨
      unpackHeader (stream.drop s.position) > maxPayloadSize ∨
      (stream.drop s.position).length <
        headerSize + unpackHeader (stream.drop s.position) := by
    simp only [Stuck] at h
    omega
  simp only [advance, if_pos hcond]

theorem advance_oversized (h : Oversized (stream.drop s.position)) :
    advance json stream s = none := by
  simp only [advance, if_pos (Or.inr (Or.inl h.2))]

theorem drain_raises {remaining : List UInt8}
    (h : decodeResponse json l.buffer = (.raises, remaining)) :
    drain json l = { l.look with ended := true } := by
  rw [drain]
  split
  · rfl
  · rename_i heq
    rw [h] at heq
    cases heq
  · rename_i heq
    rw [h] at heq
    cases heq

theorem drain_message {response : Response} {remaining : List UInt8}
    (h : decodeResponse json l.buffer = (.message response, remaining)) :
    drain json l = drain json ((l.look.take remaining).handleResponse response) := by
  rw [drain]
  split
  · rename_i heq
    rw [h] at heq
    cases heq
  · rename_i heq
    rw [h] at heq
    cases heq
    rfl
  · rename_i heq
    rw [h] at heq
    cases heq

theorem drain_nothing {remaining : List UInt8}
    (h : decodeResponse json l.buffer = (.nothing, remaining)) :
    drain json l =
      if remaining ≠ l.buffer then drain json (l.look.take remaining) else l.look := by
  rw [drain]
  split
  · rename_i heq
    rw [h] at heq
    cases heq
  · rename_i heq
    rw [h] at heq
    cases heq
  · rename_i heq
    rw [h] at heq
    cases heq
    rfl

/-- The client follows the stream up to `r`: its buffer is what was read and not taken yet. -/
structure Follows (json : JsonCodec) (stream : List UInt8) (r : ℕ) (l : Listener) : Prop where
  running : l.ended = false
  read : l.position ≤ r
  buffer : l.buffer = (stream.take r).drop l.position
  frames : ∃ n, parsed json stream n = some ⟨l.position, l.handled⟩
  starts : ∀ q ∈ l.starts, Boundary stream q

/-- Where the client stands when it has looked at everything it has read. In the last case the
header of a frame beyond the limit came at the very end. -/
inductive Rest (stream : List UInt8) (r : ℕ) (l : Listener) (s : Parsed) : Prop
  | ended (hended : l.ended = true) (hframe : Whole (stream.drop s.position))
  | waiting (hrunning : l.ended = false) (hposition : l.position = s.position)
      (hread : s.position ≤ r) (hbuffer : l.buffer = (stream.take r).drop s.position)
      (hstuck : Stuck l.buffer)
  | dropped (hrunning : l.ended = false) (hposition : l.position = r) (hbuffer : l.buffer = [])
      (hend : r = stream.length) (hframe : Oversized (stream.drop s.position))

structure Settled (json : JsonCodec) (stream : List UInt8) (r : ℕ) (l : Listener) : Prop where
  frames : ∃ n s, parsed json stream n = some s ∧ l.handled = s.messages ∧ Rest stream r l s ∧
    (l.ended = true → advance json stream s = none)
  starts : ∀ q ∈ l.starts, Boundary stream q

/-- No frame beyond the limit has a byte behind its header in the stream. -/
def Fits (json : JsonCodec) (stream : List UInt8) : Prop :=
  ∀ n s, parsed json stream n = some s → s.position + headerSize < stream.length →
    unpackHeader (stream.drop s.position) ≤ maxPayloadSize

theorem prefix_of_take (stream : List UInt8) (p r : ℕ) :
    ∃ rest, stream.drop p = (stream.take r).drop p ++ rest := by
  by_cases hpr : p ≤ (stream.take r).length
  · refine ⟨stream.drop r, ?_⟩
    rw [← List.drop_append_of_le_length hpr, List.take_append_drop]
  · refine ⟨stream.drop p, ?_⟩
    rw [List.drop_eq_nil_of_le (Nat.le_of_not_le hpr), List.nil_append]

theorem look_starts (h : ∀ q ∈ l.starts, Boundary stream q)
    (hposition : Boundary stream l.position) : ∀ q ∈ l.look.starts, Boundary stream q := by
  intro q hq
  simp only [Listener.look] at hq
  split at hq
  · exact h q hq
  · rcases List.mem_append.mp hq with hold | hnew
    · exact h q hold
    · rw [List.mem_singleton.mp hnew]
      exact hposition

theorem look_position (l : Listener) : l.look.position = l.position := by
  simp only [Listener.look]
  split <;> rfl

theorem look_buffer (l : Listener) : l.look.buffer = l.buffer := by
  simp only [Listener.look]
  split <;> rfl

theorem look_handled (l : Listener) : l.look.handled = l.handled := by
  simp only [Listener.look]
  split <;> rfl

theorem take_handled (l : Listener) (remaining : List UInt8) :
    (l.take remaining).handled = l.handled := rfl

theorem look_ended (l : Listener) : l.look.ended = l.ended := by
  simp only [Listener.look]
  split <;> rfl

theorem drain_stuck (h : Stuck l.buffer) : drain json l = l.look := by
  rw [drain_nothing (decodeResponse_stuck h), if_neg (fun hne => hne rfl)]

theorem stuck_nil : Stuck [] := Or.inl (by decide)

/- The frame in front of the buffer is taken, with the message in it if there is one. -/
theorem Follows.take {r : ℕ} (h : Follows json stream r l) (hwhole : Whole l.buffer)
    {messages : List Response}
    (hstep : advance json stream ⟨l.position, l.handled⟩ =
      some ⟨l.position + (headerSize + unpackHeader l.buffer), messages⟩) :
    Follows json stream r { l.look.take (l.buffer.drop (headerSize + unpackHeader l.buffer)) with
      handled := messages } := by
  have hlength : l.buffer.length = (stream.take r).length - l.position := by
    rw [h.buffer, List.length_drop]
  have htake : (stream.take r).length ≤ r := List.length_take_le r stream
  have hfit := hwhole.2
  have hposition : (l.look.take (l.buffer.drop (headerSize + unpackHeader l.buffer))).position =
      l.position + (headerSize + unpackHeader l.buffer) := by
    simp only [Listener.take, look_position, look_buffer, List.length_drop]
    omega
  obtain ⟨n, hn⟩ := h.frames
  constructor
  · exact (look_ended l).trans h.running
  · rw [hposition]
    simp only [headerSize] at hfit ⊢
    omega
  · rw [hposition]
    change l.buffer.drop (headerSize + unpackHeader l.buffer) = _
    conv_rhs => rw [← List.drop_drop, ← h.buffer]
  · refine ⟨n + 1, ?_⟩
    rw [parsed, hn, Option.bind_some, hstep]
    simp only [hposition]
  · exact look_starts h.starts (boundary_of_parsed hn)

theorem settled_of_follows (hfits : Fits json stream) {r : ℕ} (hr : r ≤ stream.length)
    (h : Follows json stream r l) :
    Settled json stream r (drain json l) := by
  induction hn : l.buffer.length using Nat.strong_induction_on generalizing l with
  | _ n ih =>
    subst hn
    obtain ⟨k, hk⟩ := h.frames
    obtain ⟨rest, hrest⟩ := prefix_of_take stream l.position r
    rw [← h.buffer] at hrest
    have hlength : l.buffer.length = r - l.position := by
      rw [h.buffer, List.length_drop, List.length_take, Nat.min_eq_left hr]
    rcases stuck_or_oversized_or_whole l.buffer with hstuck | hover | hwhole
    · rw [drain_stuck hstuck]
      refine ⟨⟨k, _, hk, look_handled l, ?_, ?_⟩, look_starts h.starts (boundary_of_parsed hk)⟩
      · refine Rest.waiting ((look_ended l).trans h.running) (look_position l) h.read ?_ ?_
        · exact (look_buffer l).trans h.buffer
        · rw [look_buffer]
          exact hstuck
      · intro hended
        rw [look_ended, h.running] at hended
        cases hended
    · -- The header is all there is of the stream, so what is dropped is nothing more.
      have hframe : Oversized (stream.drop l.position) := by
        rw [hrest]
        refine ⟨?_, ?_⟩
        · rw [List.length_append]
          exact Nat.le_trans hover.1 (Nat.le_add_right _ _)
        · rw [unpackHeader_append hover.1]
          exact hover.2
      have hend : stream.length ≤ l.position + headerSize := by
        by_contra hlt
        exact absurd (hfits k _ hk (Nat.lt_of_not_le hlt)) (Nat.not_le.mpr hframe.2)
      have hover1 := hover.1
      have hover2 := hover.2
      have hread := h.read
      have hpartial : ¬ headerSize + unpackHeader l.buffer ≤ l.buffer.length := by
        simp only [maxPayloadSize] at hover2
        omega
      have hne : ([] : List UInt8) ≠ l.buffer := by
        intro heq
        rw [← heq] at hover1
        simp only [List.length_nil, headerSize] at hover1
        omega
      rw [drain_nothing (decodeResponse_oversized hover), if_neg hpartial, if_pos hne,
        drain_stuck (l := l.look.take []) stuck_nil]
      have hlook : (l.look.take []).look = l.look.take [] := by
        simp only [Listener.look, Listener.take, if_true]
      rw [hlook]
      refine ⟨⟨k, _, hk, look_handled l, ?_, ?_⟩, look_starts h.starts (boundary_of_parsed hk)⟩
      · refine Rest.dropped ((look_ended l).trans h.running) ?_ rfl (by omega) hframe
        simp only [Listener.take, look_position, look_buffer, List.length_nil]
        omega
      · intro hended
        rw [show (l.look.take []).ended = l.look.ended from rfl, look_ended, h.running] at hended
        cases hended
    · have hstep := advance_whole json (s := ⟨l.position, l.handled⟩) hrest hwhole
      have hfit := hwhole.2
      have hdrop : l.buffer.drop (headerSize + unpackHeader l.buffer) ≠ l.buffer := by
        intro heq
        have hlen := congrArg List.length heq
        rw [List.length_drop] at hlen
        simp only [headerSize] at hlen hfit
        omega
      have hshort : (l.buffer.drop (headerSize + unpackHeader l.buffer)).length <
          l.buffer.length := by
        rw [List.length_drop]
        simp only [headerSize] at hfit ⊢
        omega
      have hdecode := decodeResponse_whole json hwhole
      rw [hdecode] at hstep
      cases hread : readText json
          ((l.buffer.take (headerSize + unpackHeader l.buffer)).drop headerSize) with
      | raises =>
        rw [hread] at hdecode hstep
        rw [drain_raises hdecode]
        refine ⟨⟨k, _, hk, look_handled l, ?_, fun _ => hstep⟩,
          look_starts h.starts (boundary_of_parsed hk)⟩
        apply Rest.ended rfl
        rw [hrest]
        exact hwhole.append rest
      | nothing =>
        rw [hread] at hdecode hstep
        rw [drain_nothing hdecode, if_pos hdrop]
        have hfollows := h.take hwhole hstep
        rw [← look_handled l] at hfollows
        exact ih _ hshort hfollows rfl
      | message response =>
        rw [hread] at hdecode hstep
        rw [drain_message hdecode]
        have hfollows := h.take hwhole hstep
        rw [← look_handled l] at hfollows
        exact ih _ hshort hfollows rfl

theorem settled_receive (hfits : Fits json stream) {r : ℕ} (h : Settled json stream r l)
    {data rest : List UInt8} (hdata : stream.drop r = data ++ rest) :
    Settled json stream (r + data.length) (receive json l data) := by
  obtain ⟨n, s, hn, hhandled, hrest, hlast⟩ := h.frames
  have hlength : data.length ≤ stream.length - r := by
    rw [← List.length_drop, hdata, List.length_append]
    exact Nat.le_add_right _ _
  cases hrest with
  | ended hended hframe =>
    rw [receive, if_pos hended]
    exact ⟨⟨n, s, hn, hhandled, Rest.ended hended hframe, hlast⟩, h.starts⟩
  | waiting hrunning hposition hread hbuffer hstuck =>
    rw [receive, if_neg (by rw [hrunning]; exact Bool.false_ne_true)]
    by_cases hr : r ≤ stream.length
    · apply settled_of_follows hfits (by omega)
      refine ⟨hrunning, ?_, ?_, ⟨n, ?_⟩, h.starts⟩
      · exact Nat.le_trans (Nat.le_of_eq hposition) (Nat.le_trans hread (Nat.le_add_right _ _))
      · have htake : stream.take (r + data.length) = stream.take r ++ data := by
          rw [List.take_add, hdata, List.take_left]
        change l.buffer ++ data = (stream.take (r + data.length)).drop l.position
        have hle : s.position ≤ (stream.take r).length := by
          rw [List.length_take, Nat.min_eq_left hr]
          exact hread
        rw [htake, hposition, List.drop_append_of_le_length hle, hbuffer]
      · rw [hn]
        change some s = some ⟨l.position, l.handled⟩
        rw [hposition, hhandled]
    · have hnil : data = [] := by
        rw [← List.length_eq_zero_iff]
        omega
      subst hnil
      have hsame : ({ l with buffer := l.buffer ++ [] } : Listener) = l := by
        rw [List.append_nil]
      rw [hsame, drain_stuck hstuck]
      refine ⟨⟨n, s, hn, (look_handled l).trans hhandled, ?_, ?_⟩, ?_⟩
      · refine Rest.waiting ((look_ended l).trans hrunning) ((look_position l).trans hposition)
          hread ((look_buffer l).trans hbuffer) ?_
        rw [look_buffer]
        exact hstuck
      · intro hended
        rw [look_ended, hrunning] at hended
        cases hended
      · apply look_starts h.starts
        rw [hposition]
        exact boundary_of_parsed hn
  | dropped hrunning hposition hbuffer hend hframe =>
    have hnil : data = [] := by
      rw [← List.length_eq_zero_iff]
      omega
    subst hnil
    rw [receive, if_neg (by rw [hrunning]; exact Bool.false_ne_true)]
    have hsame : ({ l with buffer := l.buffer ++ [] } : Listener) = l := by
      rw [List.append_nil]
    have hlook : l.look = l := by
      rw [Listener.look, if_pos hbuffer]
    rw [hsame, drain_stuck (by rw [hbuffer]; exact stuck_nil), hlook]
    exact ⟨⟨n, s, hn, hhandled, Rest.dropped hrunning hposition hbuffer hend hframe, hlast⟩,
      h.starts⟩

theorem settled_listen (hfits : Fits json stream) {r : ℕ} (h : Settled json stream r l)
    (hreads : stream.drop r = reads.flatten) :
    Settled json stream (r + reads.flatten.length) (reads.foldl (receive json) l) := by
  induction reads generalizing r l with
  | nil => exact h
  | cons data reads ih =>
    rw [List.flatten_cons] at hreads
    have hnext := settled_receive hfits h hreads
    have hdrop : stream.drop (r + data.length) = reads.flatten := by
      rw [← List.drop_drop, hreads, List.drop_left]
    have hrest := ih hnext hdrop
    rw [Nat.add_assoc, ← List.length_append, ← List.flatten_cons] at hrest
    exact hrest

theorem settled_init (json : JsonCodec) (stream : List UInt8) : Settled json stream 0 {} := by
  refine ⟨⟨0, {}, rfl, rfl, ?_, ?_⟩, ?_⟩
  · exact Rest.waiting rfl rfl (Nat.le_refl 0) rfl stuck_nil
  · intro hended
    cases hended
  · intro q hq
    cases hq

/- Everything was read, so the frames that were taken are all there are. -/
theorem settled_final (hfits : Fits json stream) (hreads : reads.flatten = stream) :
    ∃ n s, parsed json stream n = some s ∧ advance json stream s = none ∧
      (listen json reads).handled = s.messages ∧
      Rest stream stream.length (listen json reads) s ∧
      ∀ q ∈ (listen json reads).starts, Boundary stream q := by
  have hsettled := settled_listen hfits (settled_init json stream)
    (show stream.drop 0 = reads.flatten by rw [List.drop_zero, hreads])
  rw [hreads, Nat.zero_add] at hsettled
  obtain ⟨n, s, hn, hhandled, hrest, hlast⟩ := hsettled.frames
  refine ⟨n, s, hn, ?_, hhandled, hrest, hsettled.starts⟩
  cases hrest with
  | ended hended hframe => exact hlast hended
  | waiting hrunning hposition hread hbuffer hstuck =>
    rw [hbuffer, List.take_length] at hstuck
    exact advance_stuck hstuck
  | dropped hrunning hposition hbuffer hend hframe => exact advance_oversized hframe

/-- The reads of a stream: none is empty, and none exceeds the size the client asks for. -/
def Reads (stream : List UInt8) (reads : List (List UInt8)) : Prop :=
  reads.flatten = stream ∧ ∀ data ∈ reads, 0 < data.length ∧ data.length ≤ 4096

/-- The client yields what decoding the whole stream at once yields, and it looks for frames
only where one starts. -/
def Faithful (json : JsonCodec) (stream : List UInt8) (reads : List (List UInt8)) : Prop :=
  (listen json reads).handled = (listen json [stream]).handled ∧
    ∀ q ∈ (listen json reads).starts, Boundary stream q

theorem faithful_of_fits (hfits : Fits json stream) (hreads : reads.flatten = stream) :
    Faithful json stream reads := by
  obtain ⟨m, s, hs, hsf, hshandled, -, hstarts⟩ := settled_final hfits hreads
  obtain ⟨n, t, ht, htf, hthandled, -, -⟩ := settled_final hfits
    (show [stream].flatten = stream by
      rw [List.flatten_cons, List.flatten_nil, List.append_nil])
  constructor
  · rw [hshandled, hthandled, parsed_final_unique hs ht hsf htf]
  · exact hstarts

/-! ## A frame beyond the limit -/

theorem mem_starts_look {q : ℕ} (h : q ∈ l.starts) : q ∈ l.look.starts := by
  simp only [Listener.look]
  split
  · exact h
  · exact List.mem_append_left _ h

theorem mem_starts_drain {q : ℕ} (h : q ∈ l.starts) : q ∈ (drain json l).starts := by
  induction l using drain.induct json with
  | case1 l remaining hdecode =>
    rw [drain_raises hdecode]
    exact mem_starts_look h
  | case2 l response remaining hdecode ih =>
    rw [drain_message hdecode]
    exact ih (mem_starts_look h)
  | case3 l remaining hdecode hne ih =>
    rw [drain_nothing hdecode, if_pos hne]
    exact ih (mem_starts_look h)
  | case4 l remaining hdecode heq =>
    rw [drain_nothing hdecode, if_neg heq]
    exact mem_starts_look h

theorem mem_starts_foldl {q : ℕ} (h : q ∈ l.starts) :
    q ∈ (reads.foldl (receive json) l).starts := by
  induction reads generalizing l with
  | nil => exact h
  | cons data reads ih =>
    apply ih
    simp only [receive]
    split
    · exact h
    · exact mem_starts_drain h

/- What is parsed before a position is in the stream up to there. -/
theorem parsed_take {k n : ℕ} (hn : parsed json stream n = some s) (hk : s.position ≤ k) :
    parsed json (stream.take k) n = some s := by
  induction n generalizing s with
  | zero => exact hn
  | succ n ih =>
    obtain ⟨t, ht, hstep⟩ := Option.bind_eq_some_iff.mp hn
    obtain ⟨rest, hrest⟩ := prefix_of_take stream t.position k
    by_cases hcond : (stream.drop t.position).length < headerSize ∨
        unpackHeader (stream.drop t.position) > maxPayloadSize ∨
        (stream.drop t.position).length < headerSize + unpackHeader (stream.drop t.position)
    · simp only [advance, if_pos hcond] at hstep
      cases hstep
    have hposition : s.position = nextBoundary stream t.position := by
      simp only [advance, if_neg hcond] at hstep
      split at hstep
      · cases hstep
      · cases hstep
        rfl
      · cases hstep
        rfl
    simp only [nextBoundary] at hposition
    have hlength : headerSize + unpackHeader (stream.drop t.position) ≤
        ((stream.take k).drop t.position).length := by
      rw [List.length_drop, List.length_take]
      rw [List.length_drop] at hcond
      omega
    have hheader : unpackHeader (stream.drop t.position) =
        unpackHeader ((stream.take k).drop t.position) := by
      rw [hrest]
      exact unpackHeader_append (by omega) rest
    have hwhole : Whole ((stream.take k).drop t.position) := by
      constructor
      · omega
      · rw [← hheader]
        exact hlength
    rw [parsed, ih ht (by omega), Option.bind_some]
    rw [advance_whole json hrest hwhole] at hstep
    rw [advance_whole json (List.append_nil _).symm hwhole]
    exact hstep

theorem flatten_singletons (stream : List UInt8) :
    (stream.map fun byte => [byte]).flatten = stream := by
  induction stream with
  | nil => rfl
  | cons byte stream ih => rw [List.map_cons, List.flatten_cons, ih, List.singleton_append]

/- The client reads byte by byte: it drops the header of the frame at once, and takes the next
byte for the start of a frame. -/
theorem exists_reads_not_faithful (h : ¬ Fits json stream) :
    ∃ reads, Reads stream reads ∧ ¬ Faithful json stream reads := by
  simp only [Fits, not_forall] at h
  obtain ⟨n, s, hn, hbody, hlimit⟩ := h
  rw [Nat.not_le] at hlimit
  obtain ⟨rest, hrest⟩ := prefix_of_take stream s.position (s.position + headerSize)
  let start := stream.take (s.position + headerSize)
  have hstart : start.length = s.position + headerSize := by
    rw [List.length_take, Nat.min_eq_left (Nat.le_of_lt hbody)]
  have hframe : Oversized (start.drop s.position) := by
    have hlength : (start.drop s.position).length = headerSize := by
      rw [List.length_drop, hstart, Nat.add_sub_cancel_left]
    refine ⟨Nat.le_of_eq hlength.symm, ?_⟩
    rw [hrest, unpackHeader_append (Nat.le_of_eq hlength.symm)] at hlimit
    exact hlimit
  have hparsed : parsed json start n = some s := parsed_take hn (Nat.le_add_right _ _)
  have hfinal : advance json start s = none := advance_oversized hframe
  have hfits : Fits json start := by
    intro m t ht hlt
    by_contra hover
    rw [Nat.not_le] at hover
    have hlast : advance json start t = none := by
      apply advance_oversized
      refine ⟨?_, hover⟩
      rw [List.length_drop]
      omega
    have heq := parsed_final_unique ht hparsed hlast hfinal
    rw [heq, hstart] at hlt
    exact Nat.lt_irrefl _ hlt
  -- The client has dropped the header when it has read so far.
  obtain ⟨m, t, ht, htf, hhandled, hat, -⟩ := settled_final hfits (flatten_singletons start)
  have heq := parsed_final_unique ht hparsed htf hfinal
  subst heq
  have hdropped : (listen json (start.map fun byte => [byte])).ended = false ∧
      (listen json (start.map fun byte => [byte])).buffer = [] ∧
      (listen json (start.map fun byte => [byte])).position = t.position + headerSize := by
    cases hat with
    | ended hended hwhole => exact absurd hwhole.1 (Nat.not_le.mpr hframe.2)
    | waiting hrunning hposition hread hbuffer hstuck =>
      rw [hbuffer, List.take_length] at hstuck
      rcases hstuck with hshort | ⟨hle, -⟩
      · exact absurd hframe.1 (Nat.not_le.mpr hshort)
      · exact absurd hle (Nat.not_le.mpr hframe.2)
    | dropped hrunning hposition hbuffer hend hover =>
      exact ⟨hrunning, hbuffer, hposition.trans hstart⟩
  refine ⟨stream.map fun byte => [byte], ⟨flatten_singletons stream, ?_⟩, ?_⟩
  · intro data hdata
    obtain ⟨byte, -, rfl⟩ := List.mem_map.mp hdata
    simp only [List.length_singleton]
    omega
  · intro hfaithful
    have hmem : t.position + headerSize ∈
        (listen json (stream.map fun byte => [byte])).starts := by
      cases hbytes : stream.drop (t.position + headerSize) with
      | nil =>
        have hlen := congrArg List.length hbytes
        rw [List.length_drop, List.length_nil] at hlen
        omega
      | cons byte bytes =>
        have hsplit : stream = start ++ byte :: bytes := by
          rw [← hbytes, List.take_append_drop]
        have hlisten : listen json (stream.map fun byte => [byte]) =
            (bytes.map fun byte => [byte]).foldl (receive json)
              (receive json (listen json (start.map fun byte => [byte])) [byte]) := by
          conv_lhs => rw [hsplit]
          simp only [Framing.listen, List.map_append, List.map_cons, List.foldl_append, List.foldl_cons]
        rw [hlisten]
        apply mem_starts_foldl
        rw [receive, if_neg (by rw [hdropped.1]; exact Bool.false_ne_true), drain_stuck,
          Listener.look, if_neg]
        · rw [hdropped.2.2]
          exact List.mem_append_right _ (List.mem_singleton_self _)
        · rw [hdropped.2.1]
          exact List.cons_ne_nil _ _
        · rw [hdropped.2.1]
          exact Or.inl (show 1 < headerSize by decide)
    refine (boundary_of_parsed hn).not_between ?_ ?_ (hfaithful.2 _ hmem)
    · simp only [headerSize]
      omega
    · simp only [nextBoundary]
      omega

/-! ## Sending and decoding one message -/

theorem unpackHeader_packHeader {n : ℕ} {header : List UInt8} (h : packHeader n = some header)
    (rest : List UInt8) :
    header.length = headerSize ∧ unpackHeader (header ++ rest) = n := by
  simp only [packHeader] at h
  split at h
  · cases h
    refine ⟨rfl, ?_⟩
    simp only [unpackHeader, headerSize, List.cons_append, List.nil_append, List.take_succ_cons,
      List.take_zero, List.foldl_cons, List.foldl_nil, UInt8.toNat_ofNat']
    omega
  · cases h

theorem decodeFramePayload_encodeFrame {fields : List (String × Value)}
    (hjson : json.loads (json.dumps (.obj fields)) = .value (.obj fields))
    (hbytes : encodeFrame json (.obj fields) = some bytes) (rest : List UInt8) :
    (json.dumps (.obj fields)).length ≤ maxPayloadSize ∧
        decodeFramePayload json (bytes ++ rest) = (.message fields, rest) ∨
      maxPayloadSize < (json.dumps (.obj fields)).length ∧
        (decodeFramePayload json (bytes ++ rest)).1 = .nothing := by
  obtain ⟨header, hheader, rfl⟩ := Option.map_eq_some_iff.mp hbytes
  obtain ⟨hsize, hvalue⟩ := unpackHeader_packHeader hheader (json.dumps (.obj fields) ++ rest)
  rw [List.append_assoc]
  have hlong : ¬ (header ++ (json.dumps (.obj fields) ++ rest)).length < headerSize := by
    rw [List.length_append, hsize]
    omega
  by_cases hlimit : (json.dumps (.obj fields)).length ≤ maxPayloadSize
  · left
    refine ⟨hlimit, ?_⟩
    have hwhole : ¬ (header ++ (json.dumps (.obj fields) ++ rest)).length <
        headerSize + (json.dumps (.obj fields)).length := by
      rw [List.length_append, List.length_append, hsize]
      omega
    have htotal : headerSize + (json.dumps (.obj fields)).length =
        (header ++ json.dumps (.obj fields)).length := by
      rw [List.length_append, hsize]
    have htext : ((header ++ (json.dumps (.obj fields) ++ rest)).take
        (headerSize + (json.dumps (.obj fields)).length)).drop headerSize =
          json.dumps (.obj fields) := by
      rw [htotal, ← List.append_assoc, List.take_left, ← hsize, List.drop_left]
    have hrest : (header ++ (json.dumps (.obj fields) ++ rest)).drop
        (headerSize + (json.dumps (.obj fields)).length) = rest := by
      rw [htotal, ← List.append_assoc, List.drop_left]
    simp only [decodeFramePayload, if_neg hlong, hvalue]
    rw [if_neg (Nat.not_lt.mpr hlimit), if_neg hwhole, htext, hrest, hjson]
  · right
    rw [Nat.not_le] at hlimit
    refine ⟨hlimit, ?_⟩
    simp only [decodeFramePayload, if_neg hlong, hvalue]
    rw [if_pos hlimit]

theorem decodeResponse_encodeResponse {resp : Response}
    (hjson : json.loads (json.dumps resp.payload) = .value resp.payload)
    (hbytes : encodeResponse json resp = some bytes) :
    (∀ rest, decodeResponse json (bytes ++ rest) = (.message resp, rest)) ↔
      (json.dumps resp.payload).length ≤ maxPayloadSize := by
  have hdecode := decodeFramePayload_encodeFrame hjson hbytes
  constructor
  · intro h
    rcases hdecode [] with ⟨hlimit, -⟩ | ⟨-, hnothing⟩
    · exact hlimit
    · have hread := congrArg Prod.fst (h [])
      simp only [decodeResponse, hnothing, Decoded.read] at hread
      cases hread
  · intro hlimit rest
    rcases hdecode rest with ⟨-, hmessage⟩ | ⟨hover, -⟩
    · simp only [decodeResponse, hmessage]
      rfl
    · exact absurd hlimit (Nat.not_le.mpr hover)

theorem decodeCommand_encodeCommand {cmd : Command}
    (hjson : json.loads (json.dumps cmd.payload) = .value cmd.payload)
    (hbytes : encodeCommand json cmd = some bytes) :
    (∀ rest, decodeCommand json (bytes ++ rest) = (.message cmd, rest)) ↔
      (json.dumps cmd.payload).length ≤ maxPayloadSize := by
  have hdecode := decodeFramePayload_encodeFrame hjson hbytes
  constructor
  · intro h
    rcases hdecode [] with ⟨hlimit, -⟩ | ⟨-, hnothing⟩
    · exact hlimit
    · have hread := congrArg Prod.fst (h [])
      simp only [decodeCommand, hnothing, Decoded.read] at hread
      cases hread
  · intro hlimit rest
    have hfields : commandOfPayload [("command", .str cmd.command.value), ("data", cmd.data),
        ("request_id", cmd.requestId)] = some cmd := by
      have hvalue := CommandType.ofValue_value cmd.command
      simp only [commandOfPayload, List.lookup_cons_self, Option.bind_some, hvalue,
        Option.map_some]
      rfl
    rcases hdecode rest with ⟨-, hmessage⟩ | ⟨hover, -⟩
    · simp only [decodeCommand, hmessage, Decoded.read, hfields]
    · exact absurd hlimit (Nat.not_le.mpr hover)

/-- Framing works for a stream exactly if no frame beyond the limit has a byte behind its header
there, and a message comes back exactly if its text is within the limit. -/
theorem framing_exact (json : JsonCodec) (stream : List UInt8) (resp : Response) (cmd : Command)
    (hresp : json.loads (json.dumps resp.payload) = .value resp.payload)
    (hcmd : json.loads (json.dumps cmd.payload) = .value cmd.payload) :
    ((∀ reads, Reads stream reads → Faithful json stream reads) ↔ Fits json stream) ∧
      (∀ bytes, encodeResponse json resp = some bytes →
        ((∀ rest, decodeResponse json (bytes ++ rest) = (.message resp, rest)) ↔
          (json.dumps resp.payload).length ≤ maxPayloadSize)) ∧
      ∀ bytes, encodeCommand json cmd = some bytes →
        ((∀ rest, decodeCommand json (bytes ++ rest) = (.message cmd, rest)) ↔
          (json.dumps cmd.payload).length ≤ maxPayloadSize) := by
  refine ⟨⟨fun h => ?_, fun h reads hreads => faithful_of_fits h hreads.1⟩,
    fun bytes hbytes => decodeResponse_encodeResponse hresp hbytes,
    fun bytes hbytes => decodeCommand_encodeCommand hcmd hbytes⟩
  by_contra hfits
  obtain ⟨reads, hreads, hunfaithful⟩ := exists_reads_not_faithful hfits
  exact hunfaithful (h reads hreads)

def okResponse : Response := ⟨.str "ok", .null, .null, .null⟩

def pingCommand : Command := ⟨.ping, .obj [], .str "1"⟩

def okText : List UInt8 :=
  "\x7b\"status\": \"ok\", \"data\": null, \"error\": null, \"request_id\": null\x7d".toUTF8.toList

def pingText : List UInt8 :=
  "\x7b\"command\": \"ping\", \"data\": \x7b\x7d, \"request_id\": \"1\"\x7d".toUTF8.toList

/- JSON as far as these two messages go. -/
def smallJson : JsonCodec where
  dumps
    | .obj (("status", _) :: _) => okText
    | _ => pingText
  loads text :=
    if text = okText then .value okResponse.payload
    else if text = pingText then .value pingCommand.payload
    else .malformed

theorem framing_exact_messages :
    smallJson.loads (smallJson.dumps okResponse.payload) = .value okResponse.payload ∧
      smallJson.loads (smallJson.dumps pingCommand.payload) = .value pingCommand.payload ∧
      ((∀ reads, Reads okText reads → Faithful smallJson okText reads) ↔
        Fits smallJson okText) := by
  have hok : smallJson.loads (smallJson.dumps okResponse.payload) =
      .value okResponse.payload := by
    change (if okText = okText then Loaded.value okResponse.payload else _) = _
    rw [if_pos rfl]
  have hping : smallJson.loads (smallJson.dumps pingCommand.payload) =
      .value pingCommand.payload := by
    have hne : pingText ≠ okText := by decide +kernel
    change (if pingText = okText then _ else if pingText = pingText then
      Loaded.value pingCommand.payload else _) = _
    rw [if_neg hne, if_pos rfl]
  exact ⟨hok, hping, (framing_exact smallJson okText okResponse pingCommand hok hping).1⟩

theorem drain_nil (json : JsonCodec) (h : l.buffer = []) : drain json l = l := by
  rw [drain_stuck (by rw [h]; exact stuck_nil), Listener.look, if_pos h]

theorem handled_drain (h : l.handled ≠ []) : (drain json l).handled ≠ [] := by
  induction l using drain.induct json with
  | case1 l remaining hdecode =>
    rw [drain_raises hdecode]
    exact fun hnil => h ((look_handled l).symm.trans hnil)
  | case2 l response remaining hdecode ih =>
    rw [drain_message hdecode]
    exact ih (fun hnil => List.append_ne_nil_of_right_ne_nil _ (List.cons_ne_nil _ _) hnil)
  | case3 l remaining hdecode hne ih =>
    rw [drain_nothing hdecode, if_pos hne]
    exact ih (fun hnil => h ((look_handled l).symm.trans hnil))
  | case4 l remaining hdecode heq =>
    rw [drain_nothing hdecode, if_neg heq]
    exact fun hnil => h ((look_handled l).symm.trans hnil)

theorem handled_foldl (h : l.handled ≠ []) : (reads.foldl (receive json) l).handled ≠ [] := by
  induction reads generalizing l with
  | nil => exact h
  | cons data reads ih =>
    apply ih
    simp only [receive]
    split
    · exact h
    · exact handled_drain h

/- The header of a frame one byte beyond the limit. -/
def longHeader : List UInt8 := [1, 0, 0, 1]

def okFrame : List UInt8 := [0, 0, 0, 65] ++ okText

/- The body of the long frame begins like a frame, zeros follow. -/
def longFrame : List UInt8 := longHeader ++ (okFrame ++ List.replicate 16777148 0)

def longReads : List (List UInt8) :=
  [longHeader, okFrame] ++
    (List.replicate 4095 (List.replicate 4096 0) ++ [List.replicate 4028 0])

theorem unpackHeader_longFrame : unpackHeader longFrame = 16777217 := rfl

theorem okText_length : okText.length = 65 := by decide +kernel

theorem okFrame_length : okFrame.length = 69 := by
  rw [okFrame, List.length_append, okText_length]
  rfl

theorem unpackHeader_okFrame : unpackHeader okFrame = 65 := rfl

theorem longFrame_length : longFrame.length = headerSize + 16777217 := by
  have hheader : longHeader.length = headerSize := rfl
  rw [longFrame, List.length_append, List.length_append, List.length_replicate, okFrame_length,
    hheader]

theorem reads_longReads : Reads longFrame longReads := by
  constructor
  · rw [longReads, List.flatten_append, List.flatten_append, List.flatten_replicate_replicate,
      List.flatten_singleton, List.replicate_append_replicate, List.flatten_cons,
      List.flatten_singleton, longFrame, List.append_assoc]
  · intro data hdata
    rcases List.mem_append.mp hdata with hfirst | hzeros
    · rcases List.mem_pair.mp hfirst with heq | heq
      · rw [heq]
        decide
      · rw [heq, okFrame_length]
        decide
    · rcases List.mem_append.mp hzeros with hfull | hlast
      · rw [List.eq_of_mem_replicate hfull, List.length_replicate]
        omega
      · rw [List.mem_singleton.mp hlast, List.length_replicate]
        omega

theorem decodeResponse_okFrame :
    decodeResponse smallJson okFrame = (.message okResponse, []) := by
  have hwhole : Whole okFrame := by
    unfold Whole
    rw [unpackHeader_okFrame, okFrame_length]
    decide
  have hall : okFrame.take (headerSize + unpackHeader okFrame) = okFrame := by
    rw [unpackHeader_okFrame]
    exact List.take_of_length_le okFrame_length.le
  have htext : (okFrame.take (headerSize + unpackHeader okFrame)).drop headerSize = okText := by
    rw [hall]
    rfl
  have hrest : okFrame.drop (headerSize + unpackHeader okFrame) = [] := by
    rw [unpackHeader_okFrame]
    exact List.drop_of_length_le okFrame_length.le
  have hread : readText smallJson okText = .message okResponse := by
    have hloads : smallJson.loads okText = .value okResponse.payload := if_pos rfl
    simp only [readText, hloads]
    rfl
  rw [decodeResponse_whole smallJson hwhole, htext, hrest, hread]

/- A stream that is one frame beyond the limit is dropped when it is read at once. -/
theorem handled_listen_oversized (hover : Oversized stream)
    (hlength : stream.length = headerSize + unpackHeader stream) :
    (listen json [stream]).handled = [] := by
  have hdecode : decodeResponse json stream = _ := decodeResponse_oversized hover
  rw [← hlength, if_pos (Nat.le_refl _), List.drop_length] at hdecode
  have hne : [] ≠ stream := by
    intro heq
    have hheader := hover.1
    rw [← heq] at hheader
    simp only [List.length_nil, headerSize] at hheader
    omega
  simp only [Framing.listen, List.foldl_cons, List.foldl_nil, receive, Bool.false_eq_true, if_false,
    List.nil_append]
  rw [drain_nothing (l := { buffer := stream }) hdecode, if_pos hne, drain_nil _ rfl,
    take_handled, look_handled]

/- The message behind a header beyond the limit is handled when the header is read before. -/
theorem handled_listen_longHeader : (listen smallJson [longHeader, okFrame]).handled ≠ [] := by
  have hover : Oversized longHeader := by
    constructor
    · decide
    · decide
  have hdecode : decodeResponse smallJson longHeader = _ := decodeResponse_oversized hover
  have hpartial : ¬ headerSize + unpackHeader longHeader ≤ longHeader.length := by decide
  rw [if_neg hpartial] at hdecode
  have hne : [] ≠ longHeader := (List.cons_ne_nil _ _).symm
  have hfirst : receive smallJson {} longHeader = { position := 4, starts := [0] } := by
    simp only [receive, Bool.false_eq_true, if_false, List.nil_append]
    rw [drain_nothing (l := { buffer := longHeader }) hdecode, if_pos hne, drain_nil _ rfl]
    rfl
  simp only [Framing.listen, List.foldl_cons, List.foldl_nil]
  rw [hfirst]
  simp only [receive, Bool.false_eq_true, if_false, List.nil_append]
  rw [drain_message (l := { buffer := okFrame, position := 4, starts := [0] })
    decodeResponse_okFrame, drain_nil _ rfl]
  exact List.append_ne_nil_of_right_ne_nil _ (List.cons_ne_nil _ _)

/-- The client handles a message that is no message of the stream: it is part of the body of a
frame that was rejected. -/
theorem long_frame_read_inside :
    Reads longFrame longReads ∧ (listen smallJson [longFrame]).handled = [] ∧
      (listen smallJson longReads).handled ≠ [] := by
  refine ⟨reads_longReads, ?_, ?_⟩
  · apply handled_listen_oversized
    · constructor
      · rw [longFrame_length]
        exact Nat.le_add_right _ _
      · rw [unpackHeader_longFrame]
        decide
    · rw [longFrame_length, unpackHeader_longFrame]
  · rw [longReads, Framing.listen, List.foldl_append]
    exact handled_foldl handled_listen_longHeader

end Keymasq.Ipc.Listening
