import Mathlib.Data.Nat.Notation

/-!
# Messages from a stream that comes in pieces

A reader takes messages off the front of a buffer until it wants more data or fails. Where
what it takes does not depend on the data behind it, the messages are the same however the
stream is cut.
-/

namespace Foundation.Incremental

variable {α β ε : Type}

/-- One attempt on a buffer: a message with the rest, the want of data, or an error. -/
abbrev Pop (α β ε : Type) := List β → Except ε (Option (α × List β))

/-- What has come of the stream. -/
structure Received (α β ε : Type) where
  messages : List α := []
  buffer : List β := []
  raised : Option ε := none

/- Messages are taken for as long as there are any; `none` where so many attempts do not do. -/
def drain (pop : Pop α β ε) : ℕ → Received α β ε → Option (Received α β ε)
  | 0, _ => none
  | attempts + 1, s =>
    match pop s.buffer with
    | .error e => some { s with raised := some e }
    | .ok none => some s
    | .ok (some (message, rest)) =>
      drain pop attempts { s with messages := s.messages ++ [message], buffer := rest }

/- Each piece is put behind the buffer, which is then drained. An error ends it. -/
def receive (pop : Pop α β ε) (attempts : ℕ) :
    Received α β ε → List (List β) → Option (Received α β ε)
  | s, [] => some s
  | s, data :: reads =>
    match drain pop attempts { s with buffer := s.buffer ++ data } with
    | none => none
    | some s => if s.raised.isSome = true then some s else receive pop attempts s reads

/-- A message is shorter than nothing, and what is taken does not depend on what follows. -/
structure Prefixed (pop : Pop α β ε) : Prop where
  shorter : ∀ {buffer message rest}, pop buffer = .ok (some (message, rest)) →
    rest.length < buffer.length
  message : ∀ {buffer message rest}, pop buffer = .ok (some (message, rest)) →
    ∀ data, pop (buffer ++ data) = .ok (some (message, rest ++ data))
  error : ∀ {buffer e}, pop buffer = .error e → ∀ data, pop (buffer ++ data) = .error e

/-- The messages at the front of a buffer, what is left and whether it is an error. -/
inductive Drains (pop : Pop α β ε) : List β → List α → List β → Option ε → Prop
  | wanting {buffer : List β} (h : pop buffer = .ok none) : Drains pop buffer [] buffer none
  | raising {buffer : List β} {e : ε} (h : pop buffer = .error e) :
    Drains pop buffer [] buffer (some e)
  | message {buffer rest tail : List β} {message : α} {messages : List α} {raised : Option ε}
    (h : pop buffer = .ok (some (message, rest))) (hrest : Drains pop rest messages tail raised) :
    Drains pop buffer (message :: messages) tail raised

/- The attempt that gave no message. -/
def ended : Option ε → Except ε (Option (α × List β))
  | none => .ok none
  | some e => .error e

variable {pop : Pop α β ε} {buffer tail : List β} {messages : List α} {raised : Option ε}

/-! ## Draining ends -/

theorem drain_eq (h : Drains pop buffer messages tail raised) {attempts : ℕ}
    (hattempts : messages.length < attempts) (before : List α) :
    drain pop attempts ⟨before, buffer, none⟩ = some ⟨before ++ messages, tail, raised⟩ := by
  induction h generalizing attempts before with
  | wanting h
  | raising h =>
    cases attempts with
    | zero => exact absurd hattempts (Nat.not_lt_zero _)
    | succ attempts =>
      unfold drain
      dsimp only
      rw [h, List.append_nil]
  | @message _ _ _ message messages _ h _ ih =>
    cases attempts with
    | zero => exact absurd hattempts (Nat.not_lt_zero _)
    | succ attempts =>
      unfold drain
      dsimp only
      rw [h]
      dsimp only
      rw [ih (Nat.lt_of_succ_lt_succ hattempts), List.append_assoc, List.singleton_append]

/-- Every buffer is drained after finitely many messages. -/
theorem exists_drains (hpop : Prefixed pop) (buffer : List β) :
    ∃ messages tail raised, Drains pop buffer messages tail raised ∧
      messages.length ≤ buffer.length := by
  induction hlength : buffer.length using Nat.strongRecOn generalizing buffer with
  | ind length ih =>
    subst hlength
    cases hresult : pop buffer with
    | error e => exact ⟨[], buffer, some e, .raising hresult, Nat.zero_le _⟩
    | ok taken =>
      cases taken with
      | none => exact ⟨[], buffer, none, .wanting hresult, Nat.zero_le _⟩
      | some taken =>
        obtain ⟨message, rest⟩ := taken
        have hshorter := hpop.shorter hresult
        obtain ⟨messages, tail, raised, hdrains, hle⟩ := ih rest.length hshorter rest rfl
        exact ⟨message :: messages, tail, raised, .message hresult hdrains,
          Nat.lt_of_le_of_lt hle hshorter⟩

theorem Drains.unique {messages' : List α} {tail' : List β} {raised' : Option ε}
    (h : Drains pop buffer messages tail raised)
    (h' : Drains pop buffer messages' tail' raised') :
    messages = messages' ∧ tail = tail' ∧ raised = raised' := by
  induction h generalizing messages' with
  | wanting h =>
    cases h' with
    | wanting h' => exact ⟨rfl, rfl, rfl⟩
    | raising h' => cases h.symm.trans h'
    | message h' _ => cases h.symm.trans h'
  | raising h =>
    cases h' with
    | wanting h' => cases h.symm.trans h'
    | raising h' =>
      cases h.symm.trans h'
      exact ⟨rfl, rfl, rfl⟩
    | message h' _ => cases h.symm.trans h'
  | message h _ ih =>
    cases h' with
    | wanting h' => cases h.symm.trans h'
    | raising h' => cases h.symm.trans h'
    | message h' hrest =>
      cases h.symm.trans h'
      obtain ⟨hmessages, htail, hraised⟩ := ih hrest
      exact ⟨congrArg _ hmessages, htail, hraised⟩

/-- How it ends: with what wants more data, or with what fails. -/
theorem Drains.tail_eq (h : Drains pop buffer messages tail raised) :
    pop tail = ended raised := by
  induction h with
  | wanting h => exact h
  | raising h => exact h
  | message _ _ ih => exact ih

theorem Drains.length_le (hpop : Prefixed pop) (h : Drains pop buffer messages tail raised) :
    messages.length + tail.length ≤ buffer.length := by
  induction h with
  | wanting => exact Nat.le_of_eq (Nat.zero_add _)
  | raising => exact Nat.le_of_eq (Nat.zero_add _)
  | message h _ ih =>
    have hshorter := hpop.shorter h
    rw [List.length_cons]
    omega

/-! ## Data that comes later -/

/-- What was left goes on with the data behind it. -/
theorem Drains.append (hpop : Prefixed pop) (h : Drains pop buffer messages tail none)
    {data tail' : List β} {messages' : List α} {raised' : Option ε}
    (h' : Drains pop (tail ++ data) messages' tail' raised') :
    Drains pop (buffer ++ data) (messages ++ messages') tail' raised' := by
  generalize hraised : (none : Option ε) = raised at h
  induction h with
  | wanting => exact h'
  | raising => cases hraised
  | message h _ ih => exact .message (hpop.message h data) (ih h' hraised)

/-- After an error nothing is taken. -/
theorem Drains.append_error (hpop : Prefixed pop) {e : ε}
    (h : Drains pop buffer messages tail (some e)) (data : List β) :
    Drains pop (buffer ++ data) messages (tail ++ data) (some e) := by
  generalize hraised : some e = raised at h
  induction h with
  | wanting => cases hraised
  | raising h =>
    cases hraised
    exact .raising (hpop.error h data)
  | message h _ ih => exact .message (hpop.message h data) (ih hraised)

/-- However the stream is cut, the messages are those of the whole stream. What is unread after
an error is missing in the buffer, otherwise the buffer is what is left. -/
theorem receive_eq (hpop : Prefixed pop) {attempts : ℕ} (reads : List (List β))
    (hwanting : pop buffer = .ok none) (hattempts : (buffer ++ reads.flatten).length < attempts)
    (before : List α) (h : Drains pop (buffer ++ reads.flatten) messages tail raised) :
    ∃ left unread, receive pop attempts ⟨before, buffer, none⟩ reads =
        some ⟨before ++ messages, left, raised⟩ ∧
      left ++ unread = tail ∧ (raised = none → unread = []) ∧ pop left = ended raised := by
  induction reads generalizing buffer before messages with
  | nil =>
    rw [List.flatten_nil, List.append_nil] at h
    obtain ⟨rfl, rfl, rfl⟩ := h.unique (.wanting hwanting)
    refine ⟨tail, [], ?_, List.append_nil tail, fun _ => rfl, hwanting⟩
    rw [List.append_nil]
    rfl
  | cons data reads ih =>
    rw [List.flatten_cons, ← List.append_assoc] at h hattempts
    obtain ⟨first, left, raised', hfirst, hle⟩ := exists_drains hpop (buffer ++ data)
    have hshort : first.length < attempts := by
      rw [List.length_append] at hattempts
      omega
    have hdrain : drain pop attempts ⟨before, buffer ++ data, none⟩ =
        some ⟨before ++ first, left, raised'⟩ := drain_eq hfirst hshort before
    unfold receive
    dsimp only
    rw [hdrain]
    dsimp only
    cases raised' with
    | some e =>
      rw [if_pos (show (some e).isSome = true from rfl)]
      obtain ⟨rfl, rfl, rfl⟩ := h.unique (hfirst.append_error hpop reads.flatten)
      exact ⟨left, reads.flatten, rfl, rfl, fun hnone => (by cases hnone), hfirst.tail_eq⟩
    | none =>
      rw [if_neg (show ¬(none : Option ε).isSome = true from Bool.false_ne_true)]
      obtain ⟨later, tail', raised', hlater, -⟩ := exists_drains hpop (left ++ reads.flatten)
      obtain ⟨rfl, rfl, rfl⟩ := h.unique (hfirst.append hpop hlater)
      have hleft := hfirst.length_le hpop
      have henough : (left ++ reads.flatten).length < attempts := by
        rw [List.length_append] at hattempts ⊢
        omega
      rw [← List.append_assoc]
      exact ih hfirst.tail_eq henough (before ++ first) hlater

end Foundation.Incremental
