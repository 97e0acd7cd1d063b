import Keymasq.Device.HeldOutputs

/-!
# Withheld keystrokes

While a macro blocks the keyboard, presses of keyboard keys are withheld with their repeats
and releases. Several keys of a device can hold the same output, on their own or counted by a
tracker, and a count for every output says how many presses were withheld.
-/

namespace Keymasq.Device.Withholding
open Foundation Transition HeldOutputs

/-! ## Keys and their strokes -/

/-- A key of a device or a button of a superkey, with the output it holds. -/
structure Key where
  id : ℕ
  source : Source
  bucket : Bucket
  code : Int
  deriving DecidableEq

/-- Who holds an output: one key, or all keys of a tracker together. -/
inductive Holder
  | key (id : ℕ)
  | counter (counter : Counter)
  deriving DecidableEq

def Key.holder (k : Key) : Holder :=
  match k.source.counter with
  | none => .key k.id
  | some counter => .counter counter

def Key.output (k : Key) : Holder × Bucket × Int := (k.holder, k.bucket, k.code)

/- The machine whose runtime a key is written through, `none` for the device. -/
def Key.home (k : Key) : Option ℕ :=
  match k.source with
  | .superkey machine => some machine
  | _ => none

/-- A stroke that was begun by a write: where it was written and whether its press was
withheld. -/
structure Stroke where
  home : Option ℕ
  bucket : Bucket
  code : Int
  withheld : Bool
  deriving DecidableEq

/-- What became of a repeat or a release, and of the press before it. -/
structure Outcome where
  value : KeyValue
  pressWithheld : Bool
  withheld : Bool
  deriving DecidableEq

/- The device, the keys that are down, the strokes that were begun and not ended, and what
became of the repeats and releases so far. -/
structure System where
  base : State := {}
  keysDown : Finset Key := ∅
  strokes : Dict (Holder × Bucket × Int) Stroke := ∅
  log : List Outcome := []

inductive Event
  | key (k : Key) (value : KeyValue)
  | blockKeyboard (blocked : Bool)

def Key.event (k : Key) (value : KeyValue) : KeyEvent :=
  { source := k.source, bucket := k.bucket, code := k.code, value := value }

/- Whether the event is written: a tracker writes the first press and the last release. -/
def emits (s : State) (k : Key) (value : KeyValue) : Bool :=
  match k.source.counter with
  | none => true
  | some counter => (trackRefcountedOutputBucket s counter k.bucket k.code value).2

/- Whether the write is withheld. -/
def withholds (out : Outputs) (s : State) (k : Key) (value : KeyValue) : Bool :=
  (keyBlocked out s.keyboardBlocked (s.runtime k.source) k.bucket k.code value).2

def writes (out : Outputs) (s : State) (k : Key) (value : KeyValue) : Bool :=
  out.hasWriter k.bucket && emits s k value

def Key.stroke (k : Key) (withheld : Bool) : Stroke := ⟨k.home, k.bucket, k.code, withheld⟩

/- What a write does to the strokes and the log. -/
def record (s : System) (k : Key) (value : KeyValue) (withheld : Bool) : System :=
  match value, s.strokes.get? k.output with
  | .press, _ => { s with strokes := s.strokes.insert k.output (k.stroke withheld) }
  | _, none => s
  | .release, some stroke =>
    { s with
      strokes := s.strokes.erase k.output
      log := s.log ++ [⟨.release, stroke.withheld, withheld⟩] }
  | .hold, some stroke => { s with log := s.log ++ [⟨.hold, stroke.withheld, withheld⟩] }

def keysAfter (keysDown : Finset Key) (k : Key) (value : KeyValue) : Finset Key :=
  match value with
  | .press => insert k keysDown
  | .release => keysDown.erase k
  | .hold => keysDown

/- A key is pressed when it is up, and repeated or released when it is down. -/
def step (out : Outputs) (s : System) : Event → Option System
  | .key k value =>
    if value = .press ↔ k ∈ s.keysDown then none
    else
      let recorded :=
        if writes out s.base k value then record s k value (withholds out s.base k value) else s
      some { recorded with
        base := executeKeyAction out s.base (k.event value)
        keysDown := keysAfter s.keysDown k value }
  | .blockKeyboard blocked => some { s with base := { s.base with keyboardBlocked := blocked } }

/-! ## The counts of a state -/

def runtimeAt (s : State) : Option ℕ → RuntimeState
  | none => s.device
  | some machine => s.machines machine

/- How many presses of a key a runtime has withheld. -/
def heldBack (s : State) (home : Option ℕ) (bucket : Bucket) (code : Int) : ℕ :=
  ((runtimeAt s home).blockedOutputKeys.getD bucket ∅).getD code 0

theorem runtime_eq (s : State) (k : Key) : s.runtime k.source = runtimeAt s k.home := by
  unfold Key.home
  cases k.source <;> rfl

/- What a write makes of the count of its key. -/
def countAfter (keyboardBlocked : Bool) (count : ℕ) : KeyValue → ℕ
  | .press => if keyboardBlocked then count + 1 else 0
  | .release => count - 1
  | .hold => count

/- Whether a write is withheld, by the count of its key. -/
def withheldAt (keyboardBlocked : Bool) (count : ℕ) : KeyValue → Bool
  | .press => keyboardBlocked
  | _ => decide (0 < count)

section Counts

variable {counts : Dict Int ℕ} {code : Int}

/- No count of zero is kept. -/
def Positive (counts : Dict Int ℕ) : Prop := ∀ code n, counts.get? code = some n → 0 < n

theorem positive_empty : Positive ∅ := fun _ _ h => absurd h Dict.not_get?_empty

theorem count_insert (n : ℕ) (code' : Int) :
    (counts.insert code n).getD code' 0 = if code' = code then n else counts.getD code' 0 := by
  unfold Dict.getD
  rw [Dict.get?_insert]
  split <;> rfl

theorem count_erase (code' : Int) :
    (counts.erase code).getD code' 0 = if code' = code then 0 else counts.getD code' 0 := by
  unfold Dict.getD
  rw [Dict.get?_erase]
  split <;> rfl

theorem count_same (code' : Int) :
    counts.getD code' 0 = if code' = code then counts.getD code 0 else counts.getD code' 0 := by
  split
  next heq => rw [heq]
  next => rfl

theorem Positive.insert (h : Positive counts) {n : ℕ} (hn : 0 < n) :
    Positive (counts.insert code n) := fun code' m hm => by
  rw [Dict.get?_insert] at hm
  split at hm
  · cases hm
    exact hn
  · exact h code' m hm

theorem Positive.erase (h : Positive counts) : Positive (counts.erase code) :=
  fun code' m hm => h code' m (Dict.get?_filter_eq_some.mp hm).1

theorem Positive.get?_eq_none (h : Positive counts) (hzero : counts.getD code 0 = 0) :
    counts.get? code = none := by
  unfold Dict.getD at hzero
  cases hget : counts.get? code with
  | none => rfl
  | some n =>
    rw [hget] at hzero
    have hpos := h code n hget
    have hn : n = 0 := hzero
    omega

end Counts

/-- What a write makes of the presses its runtime withheld. -/
theorem keyBlocked_of_keyboard {out : Outputs} {code : Int} (h : out.keyboardKeyCode code)
    (keyboardBlocked : Bool) (r : RuntimeState) (bucket : Bucket) (value : KeyValue) :
    ∃ counts, keyBlocked out keyboardBlocked r bucket code value =
        ({ r with blockedOutputKeys := r.blockedOutputKeys.insert bucket counts },
          withheldAt keyboardBlocked ((r.blockedOutputKeys.getD bucket ∅).getD code 0) value) ∧
      (∀ code', counts.getD code' 0 = if code' = code then
        countAfter keyboardBlocked ((r.blockedOutputKeys.getD bucket ∅).getD code 0) value
        else (r.blockedOutputKeys.getD bucket ∅).getD code' 0) ∧
      (Positive (r.blockedOutputKeys.getD bucket ∅) → Positive counts) := by
  generalize hheld : r.blockedOutputKeys.getD bucket ∅ = held
  unfold keyBlocked
  rw [if_neg (not_not.mpr h)]
  simp only [hheld]
  cases value with
  | release =>
    simp only [withheldAt, countAfter]
    by_cases hzero : held.getD code 0 = 0
    · refine ⟨held, ?_, fun code' => ?_, id⟩
      · rw [if_pos hzero, hzero]
        rfl
      · have hsame : held.getD code' 0 =
            if code' = code then held.getD code 0 else held.getD code' 0 := count_same code'
        rw [hzero] at hsame ⊢
        exact hsame
    · have hpos : 0 < held.getD code 0 := Nat.pos_of_ne_zero hzero
      rw [if_neg hzero, decide_eq_true hpos]
      by_cases hmany : held.getD code 0 > 1
      · rw [if_pos hmany]
        exact ⟨_, rfl, count_insert _, fun h => h.insert (Nat.sub_pos_of_lt hmany)⟩
      · rw [if_neg hmany]
        refine ⟨_, rfl, fun code' => ?_, fun h => h.erase⟩
        rw [count_erase, Nat.sub_eq_zero_of_le (not_lt.mp hmany)]
  | hold => exact ⟨held, rfl, count_same, id⟩
  | press =>
    simp only [withheldAt, countAfter]
    cases keyboardBlocked with
    | false => exact ⟨held.erase code, rfl, count_erase, fun h => h.erase⟩
    | true => exact ⟨held.insert code _, rfl, count_insert _, fun h => h.insert (Nat.succ_pos _)⟩

/- How many keys hold an output after an event. -/
def holdersAfter (count : ℕ) : KeyValue → ℕ
  | .press => count + 1
  | .release => count - 1
  | .hold => count

/- Whether a tracker that counts so many holders lets an event through. -/
def letsThrough (count : ℕ) : KeyValue → Bool
  | .press => decide (count = 0)
  | .release => decide (count = 1)
  | .hold => true

theorem trackRefcountedHeldOutput_spec (refcounts : Dict Int ℕ) (held : Finset Int) (code : Int)
    (value : KeyValue) :
    ∃ counts held', trackRefcountedHeldOutput refcounts held code (decide (value = .press))
        (decide (value = .release)) =
          (counts, held', letsThrough (refcounts.getD code 0) value) ∧
      (∀ code', counts.getD code' 0 = if code' = code then
        holdersAfter (refcounts.getD code 0) value else refcounts.getD code' 0) ∧
      (Positive refcounts → Positive counts) := by
  unfold trackRefcountedHeldOutput
  cases value with
  | press => exact ⟨_, _, rfl, count_insert _, fun h => h.insert (Nat.succ_pos _)⟩
  | hold => exact ⟨_, _, rfl, count_same, id⟩
  | release =>
    simp only [holdersAfter, letsThrough]
    by_cases hle : refcounts.getD code 0 ≤ 1
    · refine ⟨refcounts.erase code, held.erase code, ?_, fun code' => ?_, fun h => h.erase⟩
      · simp only [hle, if_true]
        rfl
      · rw [count_erase, Nat.sub_eq_zero_of_le hle]
    · refine ⟨refcounts.insert code (refcounts.getD code 0 - 1), held, ?_, count_insert _,
        fun h => h.insert (by omega)⟩
      have hne : refcounts.getD code 0 ≠ 1 := fun heq => hle (le_of_eq heq)
      simp only [hle, if_false, hne, decide_false]
      rfl

/-! ## One event -/

/- The key is counted by the tracker under the output. -/
def CountedAt (counter : Counter) (bucket : Bucket) (code : Int) (k : Key) : Prop :=
  k.source.counter = some counter ∧ k.bucket = bucket ∧ k.code = code

instance decidableCountedAt (counter : Counter) (bucket : Bucket) (code : Int) (k : Key) :
    Decidable (CountedAt counter bucket code k) :=
  inferInstanceAs (Decidable (_ ∧ _ ∧ _))

section Event

variable (out : Outputs) (s : State) (k : Key) (value : KeyValue)

theorem runtimeAt_setRuntime (r : RuntimeState) (home : Option ℕ) :
    runtimeAt (s.setRuntime k.source r) home = if home = k.home then r else runtimeAt s home := by
  unfold Key.home
  cases k.source <;> cases home <;>
    simp [State.setRuntime, runtimeAt, Function.update_apply]

theorem setRuntime_refcounts (r : RuntimeState) (source : Source) (counter : Counter) :
    (s.setRuntime source r).refcounts counter = s.refcounts counter := by
  cases source <;> cases counter <;> rfl

theorem write_refcounts (e : KeyEvent) (counter : Counter) :
    (write out s e).refcounts counter = s.refcounts counter := by
  unfold write
  simp only
  split
  · rw [← setRuntime_refcounts s _ e.source counter]
    cases counter <;> rfl
  · exact setRuntime_refcounts s _ e.source counter

theorem trackKeyState_blocked (r : RuntimeState) (bucket : Bucket) (code : Int) :
    (trackKeyState r bucket code value).blockedOutputKeys = r.blockedOutputKeys := by
  cases value <;> rfl

theorem writeKey_blocked (keyboardBlocked : Bool) (r : RuntimeState) (bucket : Bucket)
    (code : Int) : (writeKey out keyboardBlocked r bucket code value none).1.blockedOutputKeys =
      if out.hasWriter bucket then
        (keyBlocked out keyboardBlocked r bucket code value).1.blockedOutputKeys
      else r.blockedOutputKeys := by
  unfold writeKey
  by_cases hwriter : out.hasWriter bucket = true
  · rw [if_neg (not_not.mpr hwriter), if_pos hwriter]
    simp only
    split
    · rfl
    · exact trackKeyState_blocked value _ bucket code
  · rw [if_pos hwriter, if_neg hwriter]

theorem write_blocked (home : Option ℕ) :
    (runtimeAt (write out s (k.event value)) home).blockedOutputKeys =
      if home = k.home ∧ out.hasWriter k.bucket then
        (keyBlocked out s.keyboardBlocked (runtimeAt s k.home) k.bucket k.code
          value).1.blockedOutputKeys
      else (runtimeAt s home).blockedOutputKeys := by
  have hwrite : (runtimeAt (write out s (k.event value)) home) =
      runtimeAt (s.setRuntime k.source (writeKey out s.keyboardBlocked (runtimeAt s k.home)
        k.bucket k.code value none).1) home := by
    rw [← runtime_eq]
    have hdown (t : State) (written : Bool) (down : Finset (Bucket × Int)) :
        runtimeAt (if written then { t with down := down } else t) home = runtimeAt t home := by
      cases written <;> cases home <;> rfl
    exact hdown _ _ _
  rw [hwrite, runtimeAt_setRuntime]
  by_cases hhome : home = k.home
  · rw [if_pos hhome, writeKey_blocked, hhome]
    by_cases hwriter : out.hasWriter k.bucket = true
    · rw [if_pos hwriter, if_pos ⟨rfl, hwriter⟩]
    · rw [if_neg hwriter, if_neg fun h => hwriter h.2]
  · rw [if_neg hhome, if_neg fun h => hhome h.1]

theorem track_blocked (counter : Counter) (bucket : Bucket) (code : Int) (home : Option ℕ) :
    (runtimeAt (trackRefcountedOutputBucket s counter bucket code value).1 home).blockedOutputKeys =
      (runtimeAt s home).blockedOutputKeys := by
  cases home <;> cases counter <;> rfl

theorem track_keyboardBlocked (counter : Counter) (bucket : Bucket) (code : Int) :
    (trackRefcountedOutputBucket s counter bucket code value).1.keyboardBlocked =
      s.keyboardBlocked := by
  cases counter <;> rfl

theorem keyBlocked_blocked_congr {r r' : RuntimeState}
    (h : r.blockedOutputKeys = r'.blockedOutputKeys) (keyboardBlocked : Bool) (bucket : Bucket)
    (code : Int) : (keyBlocked out keyboardBlocked r bucket code value).1.blockedOutputKeys =
      (keyBlocked out keyboardBlocked r' bucket code value).1.blockedOutputKeys := by
  simp only [keyBlocked, h]
  split
  · exact h
  · cases value <;> simp only <;> split <;> (try split) <;> rfl

theorem execute_plain {k : Key} (h : k.source.counter = none) :
    executeKeyAction out s (k.event value) = write out s (k.event value) := by
  have hsource : (k.event value).source.counter = none := h
  unfold executeKeyAction
  rw [hsource]

theorem execute_counted {k : Key} {counter : Counter} (h : k.source.counter = some counter) :
    executeKeyAction out s (k.event value) =
      if (trackRefcountedOutputBucket s counter k.bucket k.code value).2 then
        write out (trackRefcountedOutputBucket s counter k.bucket k.code value).1 (k.event value)
      else (trackRefcountedOutputBucket s counter k.bucket k.code value).1 := by
  have hsource : (k.event value).source.counter = some counter := h
  unfold executeKeyAction
  rw [hsource]
  rfl

/-- What an event does to the withheld presses: nothing where it is not written. -/
theorem execute_blocked (home : Option ℕ) :
    (runtimeAt (executeKeyAction out s (k.event value)) home).blockedOutputKeys =
      if home = k.home ∧ writes out s k value then
        (keyBlocked out s.keyboardBlocked (runtimeAt s k.home) k.bucket k.code
          value).1.blockedOutputKeys
      else (runtimeAt s home).blockedOutputKeys := by
  cases hcounter : k.source.counter with
  | none =>
    rw [execute_plain out s value hcounter]
    unfold writes emits
    simp only [hcounter, Bool.and_true]
    exact write_blocked out s k value home
  | some counter =>
    rw [execute_counted out s value hcounter]
    unfold writes emits
    simp only [hcounter, Bool.and_eq_true]
    have hkeep := track_blocked s value counter k.bucket k.code
    have hwrite := write_blocked out
      (trackRefcountedOutputBucket s counter k.bucket k.code value).1 k value home
    rw [hkeep, track_keyboardBlocked, keyBlocked_blocked_congr out value (hkeep k.home)] at hwrite
    by_cases hemit : (trackRefcountedOutputBucket s counter k.bucket k.code value).2 = true
    · rw [if_pos hemit]
      simp only [hemit, and_true]
      exact hwrite
    · rw [if_neg hemit, if_neg fun h => hemit h.2.2]
      exact hkeep home

/-- What an event does to the counts of the trackers. -/
theorem execute_refcounts (counter : Counter) :
    (executeKeyAction out s (k.event value)).refcounts counter =
      if k.source.counter = some counter then
        (trackRefcountedOutputBucket s counter k.bucket k.code value).1.refcounts counter
      else s.refcounts counter := by
  cases hcounter : k.source.counter with
  | none =>
    rw [execute_plain out s value hcounter, if_neg (Option.some_ne_none counter).symm]
    exact write_refcounts out s _ counter
  | some counter' =>
    rw [execute_counted out s value hcounter, apply_ite (State.refcounts · counter),
      write_refcounts, ite_self]
    by_cases heq : counter' = counter
    · rw [heq, if_pos rfl]
    · rw [if_neg fun h => heq (Option.some.inj h)]
      cases counter <;> cases counter' <;> first | rfl | exact absurd rfl heq

theorem track_refcounts (counter : Counter) (bucket : Bucket) (code : Int) :
    (trackRefcountedOutputBucket s counter bucket code value).1.refcounts counter =
      (s.refcounts counter).insert bucket (tracked s counter bucket code value).1 := by
  cases counter <;> rfl

theorem emits_eq : emits s k value =
    match k.source.counter with
    | none => true
    | some counter => letsThrough (s.count counter k.bucket k.code) value := by
  unfold emits
  split
  next => rfl
  next counter _ =>
    obtain ⟨counts, held', heq, -⟩ := trackRefcountedHeldOutput_spec
      ((s.refcounts counter).getD k.bucket ∅) (s.held k.bucket) k.code value
    rw [track_emits]
    unfold tracked
    rw [heq]
    rfl

theorem withholds_eq : withholds out s k value =
    (out.keyboardKeyCode k.code &&
      withheldAt s.keyboardBlocked (heldBack s k.home k.bucket k.code) value) := by
  unfold withholds
  rw [runtime_eq]
  by_cases hkeyboard : out.keyboardKeyCode k.code = true
  · obtain ⟨counts, heq, -⟩ := keyBlocked_of_keyboard hkeyboard s.keyboardBlocked
      (runtimeAt s k.home) k.bucket value
    rw [heq, hkeyboard, Bool.true_and]
    rfl
  · unfold keyBlocked
    rw [if_pos hkeyboard, Bool.eq_false_iff.mpr hkeyboard, Bool.false_and]

/-- The count of one key changes when an event of it is written. -/
theorem heldBack_execute (home : Option ℕ) (bucket : Bucket) (code : Int) :
    heldBack (executeKeyAction out s (k.event value)) home bucket code =
      if (home = k.home ∧ bucket = k.bucket ∧ code = k.code) ∧ writes out s k value ∧
          out.keyboardKeyCode k.code then
        countAfter s.keyboardBlocked (heldBack s k.home k.bucket k.code) value
      else heldBack s home bucket code := by
  unfold heldBack
  rw [execute_blocked]
  by_cases hwrite : home = k.home ∧ writes out s k value = true
  · obtain ⟨hhome, hwritten⟩ := hwrite
    rw [if_pos ⟨hhome, hwritten⟩]
    by_cases hkeyboard : out.keyboardKeyCode k.code = true
    · obtain ⟨counts, heq, hcounts, -⟩ := keyBlocked_of_keyboard hkeyboard s.keyboardBlocked
        (runtimeAt s k.home) k.bucket value
      rw [heq]
      simp only
      rw [getD_insert_bucket]
      by_cases hbucket : bucket = k.bucket
      · rw [if_pos hbucket, hcounts]
        by_cases hcode : code = k.code
        · rw [if_pos hcode, if_pos ⟨⟨hhome, hbucket, hcode⟩, hwritten, hkeyboard⟩]
        · rw [if_neg hcode, if_neg fun h => hcode h.1.2.2, hhome, hbucket]
      · rw [if_neg hbucket, if_neg fun h => hbucket h.1.2.1, hhome]
    · rw [if_neg fun h => hkeyboard h.2.2, hhome]
      unfold keyBlocked
      rw [if_pos hkeyboard]
  · rw [if_neg hwrite, if_neg fun h => hwrite ⟨h.1.1, h.2.1⟩]

theorem positive_execute
    (h : ∀ home bucket, Positive ((runtimeAt s home).blockedOutputKeys.getD bucket ∅))
    (home : Option ℕ) (bucket : Bucket) :
    Positive ((runtimeAt (executeKeyAction out s (k.event value))
      home).blockedOutputKeys.getD bucket ∅) := by
  rw [execute_blocked]
  split
  next hwrite =>
    by_cases hkeyboard : out.keyboardKeyCode k.code = true
    · obtain ⟨counts, heq, -, hpositive⟩ := keyBlocked_of_keyboard hkeyboard s.keyboardBlocked
        (runtimeAt s k.home) k.bucket value
      rw [heq]
      simp only
      rw [getD_insert_bucket]
      split
      · exact hpositive (h k.home k.bucket)
      · exact h k.home bucket
    · unfold keyBlocked
      rw [if_pos hkeyboard]
      exact h k.home bucket
  next => exact h home bucket

theorem count_execute (counter : Counter) (bucket : Bucket) (code : Int) :
    (executeKeyAction out s (k.event value)).count counter bucket code =
      if CountedAt counter bucket code k then
        holdersAfter (s.count counter bucket code) value
      else s.count counter bucket code := by
  unfold State.count
  rw [execute_refcounts]
  by_cases hcounter : k.source.counter = some counter
  · obtain ⟨counts, held', heq, hcounts, -⟩ := trackRefcountedHeldOutput_spec
      ((s.refcounts counter).getD k.bucket ∅) (s.held k.bucket) k.code value
    rw [if_pos hcounter, track_refcounts, getD_insert_bucket]
    unfold tracked
    rw [heq]
    by_cases hbucket : bucket = k.bucket
    · rw [if_pos hbucket, hcounts, hbucket]
      by_cases hcode : code = k.code
      · rw [if_pos hcode, hcode, if_pos ⟨hcounter, rfl, rfl⟩]
      · rw [if_neg hcode, if_neg fun h => hcode h.2.2.symm]
    · rw [if_neg hbucket, if_neg fun h => hbucket h.2.1.symm]
  · rw [if_neg hcounter, if_neg fun h => hcounter h.1]

theorem countPositive_execute
    (h : ∀ counter bucket, Positive ((s.refcounts counter).getD bucket ∅)) (counter : Counter)
    (bucket : Bucket) :
    Positive (((executeKeyAction out s (k.event value)).refcounts counter).getD bucket ∅) := by
  rw [execute_refcounts]
  split
  next =>
    obtain ⟨counts, held', heq, -, hpositive⟩ := trackRefcountedHeldOutput_spec
      ((s.refcounts counter).getD k.bucket ∅) (s.held k.bucket) k.code value
    rw [track_refcounts, getD_insert_bucket]
    split
    · unfold tracked
      rw [heq]
      exact hpositive (h counter k.bucket)
    · exact h counter bucket
  next => exact h counter bucket

end Event

/-! ## The counts along a run -/

/- The counts are the numbers of keys and of withheld strokes they stand for. -/
structure Sound (out : Outputs) (s : System) : Prop where
  withheld : ∀ home bucket code, heldBack s.base home bucket code =
    (s.strokes.keysWhere fun stroke => stroke = ⟨home, bucket, code, true⟩).card
  positive : ∀ home bucket, Positive ((runtimeAt s.base home).blockedOutputKeys.getD bucket ∅)
  counted : ∀ counter bucket code, s.base.count counter bucket code =
    (s.keysDown.filter (CountedAt counter bucket code)).card
  countPositive : ∀ counter bucket, Positive ((s.base.refcounts counter).getD bucket ∅)
  strokes : ∀ output stroke, s.strokes.get? output = some stroke →
    out.hasWriter output.2.1 ∧ (stroke.withheld → out.keyboardKeyCode output.2.2) ∧
      stroke.bucket = output.2.1 ∧ stroke.code = output.2.2 ∧
        ∃ k ∈ s.keysDown, k.output = output
  begun : ∀ k ∈ s.keysDown, out.hasWriter k.bucket →
    ∃ stroke, s.strokes.get? k.output = some stroke
  paired : ∀ o ∈ s.log, (o.pressWithheld → o.withheld) ∧
    (o.value = .release → ¬ o.pressWithheld → ¬ o.withheld)

/- No other stroke of the output of the key is withheld in its runtime. -/
def NoneWithheld (s : System) (k : Key) : Prop := k.stroke true ∉ s.strokes.values

instance decidableNoneWithheld (s : System) (k : Key) : Decidable (NoneWithheld s k) :=
  inferInstanceAs (Decidable (_ ∉ _))

/- A press that goes out, and the release of one that went out, meet no withheld stroke of the
same output; a withheld stroke goes on in the runtime in which it began. -/
def Unmixed (out : Outputs) (s : System) : Event → Prop
  | .blockKeyboard _ => True
  | .key k value => writes out s.base k value →
    (value = .press → s.base.keyboardBlocked = false → NoneWithheld s k) ∧
    (value ≠ .press → ∀ stroke ∈ s.strokes.get? k.output,
      stroke.withheld = true → stroke.home = k.home) ∧
    (value = .release → ∀ stroke ∈ s.strokes.get? k.output,
      stroke.withheld = false → NoneWithheld s k)

instance decidableUnmixed (out : Outputs) (s : System) : ∀ e, Decidable (Unmixed out s e)
  | .blockKeyboard _ => inferInstanceAs (Decidable True)
  | .key _ _ => inferInstanceAs (Decidable (_ → _ ∧ _ ∧ _))

section Keys

variable {k k' : Key} {counter : Counter}

theorem output_eq_iff (h : k.source.counter = some counter) :
    k'.output = k.output ↔ CountedAt counter k.bucket k.code k' := by
  unfold Key.output Key.holder CountedAt
  rw [h]
  simp only [Prod.mk.injEq]
  refine and_congr_left fun _ => ?_
  cases k'.source.counter with
  | none => exact ⟨fun h => (by cases h), fun h => (by cases h)⟩
  | some counter' => exact ⟨fun h => congrArg some (Holder.counter.inj h),
      fun h => congrArg Holder.counter (Option.some.inj h)⟩

/-- A key that no tracker counts has its output for itself. -/
theorem eq_of_output_eq (h : k.source.counter = none) (heq : k'.output = k.output) : k' = k := by
  cases k with
  | mk id source bucket code =>
  cases k' with
  | mk id' source' bucket' code' =>
  have hplain (source : Source) (hnone : source.counter = none) : source = .plain := by
    cases source <;> first | rfl | cases hnone
  unfold Key.output Key.holder at heq
  simp only [Prod.mk.injEq] at heq h
  rw [h] at heq
  obtain ⟨hholder, rfl, rfl⟩ := heq
  cases hcounter : source'.counter with
  | none =>
    rw [hcounter] at hholder
    rw [Holder.key.inj hholder, hplain source h, hplain source' hcounter]
  | some counter' =>
    rw [hcounter] at hholder
    cases hholder

end Keys

section Steps

variable {out : Outputs} {s : System} {k : Key} {value : KeyValue}

theorem Sound.noneWithheld_iff (h : Sound out s) :
    NoneWithheld s k ↔ heldBack s.base k.home k.bucket k.code = 0 := by
  rw [h.withheld, Finset.card_eq_zero, Finset.eq_empty_iff_forall_notMem]
  unfold NoneWithheld
  constructor
  · intro hnone output hmem
    obtain ⟨stroke, hget, heq⟩ := Dict.mem_keysWhere.mp hmem
    rw [of_decide_eq_true heq] at hget
    exact hnone (Dict.mem_values_iff.mpr ⟨output, hget⟩)
  · intro hnone hmem
    obtain ⟨output, hget⟩ := Dict.mem_values_iff.mp hmem
    exact hnone output (Dict.mem_keysWhere.mpr ⟨_, hget, decide_eq_true rfl⟩)

theorem Sound.keyboard (h : Sound out s) {stroke : Stroke}
    (hstroke : s.strokes.get? k.output = some stroke) (hwithheld : stroke.withheld = true) :
    out.keyboardKeyCode k.code = true :=
  (h.strokes k.output stroke hstroke).2.1 hwithheld

theorem Sound.stroke_eq (h : Sound out s) {stroke : Stroke}
    (hstroke : s.strokes.get? k.output = some stroke) (hhome : stroke.home = k.home) :
    stroke = k.stroke stroke.withheld := by
  obtain ⟨-, -, hbucket, hcode, -⟩ := h.strokes k.output stroke hstroke
  cases stroke with
  | mk home bucket code withheld =>
    simp only at hbucket hcode hhome
    rw [hbucket, hcode, hhome]
    rfl

/-- A key that is down keeps an emitted repeat or release from being the first event of its
output. -/
theorem Sound.other (h : Sound out s) (hmem : k ∈ s.keysDown) {k' : Key}
    (hmem' : k' ∈ s.keysDown) (hne : k' ≠ k) (houtput : k'.output = k.output) :
    ∃ counter, k.source.counter = some counter ∧
      2 ≤ s.base.count counter k.bucket k.code := by
  cases hcounter : k.source.counter with
  | none => exact absurd (eq_of_output_eq hcounter houtput) hne
  | some counter =>
    refine ⟨counter, rfl, ?_⟩
    rw [h.counted]
    have hself := Finset.mem_filter.mpr ⟨hmem, (output_eq_iff hcounter).mp rfl⟩
    have hother := Finset.mem_filter.mpr ⟨hmem', (output_eq_iff hcounter).mp houtput⟩
    exact Finset.one_lt_card.mpr ⟨k, hself, k', hother, fun heq => hne heq.symm⟩

theorem not_written (hwriter : out.hasWriter k.bucket = true)
    (hwritten : ¬ writes out s.base k value) :
    ∃ counter, k.source.counter = some counter ∧
      letsThrough (s.base.count counter k.bucket k.code) value = false := by
  unfold writes at hwritten
  rw [hwriter, Bool.true_and, emits_eq] at hwritten
  cases hcounter : k.source.counter with
  | none =>
    rw [hcounter] at hwritten
    exact absurd rfl hwritten
  | some counter =>
    rw [hcounter] at hwritten
    exact ⟨counter, rfl, Bool.eq_false_iff.mpr hwritten⟩

theorem Sound.counted_after (h : Sound out s) (henabled : ¬ (value = .press ↔ k ∈ s.keysDown))
    (counter : Counter) (bucket : Bucket) (code : Int) :
    (executeKeyAction out s.base (k.event value)).count counter bucket code =
      ((keysAfter s.keysDown k value).filter (CountedAt counter bucket code)).card := by
  rw [count_execute, h.counted]
  cases value with
  | press =>
    have hnew : k ∉ s.keysDown := fun hmem => henabled ⟨fun _ => hmem, fun _ => rfl⟩
    unfold keysAfter
    simp only
    rw [Finset.filter_insert]
    by_cases hcounted : CountedAt counter bucket code k
    · rw [if_pos hcounted, if_pos hcounted,
        Finset.card_insert_of_notMem fun hmem => hnew (Finset.mem_filter.mp hmem).1]
      rfl
    · rw [if_neg hcounted, if_neg hcounted]
  | release =>
    have hmem : k ∈ s.keysDown := by
      by_contra hnew
      exact henabled ⟨fun heq => (by cases heq), fun hmem => absurd hmem hnew⟩
    unfold keysAfter
    simp only
    rw [Finset.filter_erase]
    by_cases hcounted : CountedAt counter bucket code k
    · rw [if_pos hcounted, Finset.card_erase_of_mem (Finset.mem_filter.mpr ⟨hmem, hcounted⟩)]
      rfl
    · rw [if_neg hcounted,
        Finset.erase_eq_of_notMem fun hin => hcounted (Finset.mem_filter.mp hin).2]
  | hold =>
    unfold keysAfter
    split <;> rfl

theorem heldBack_not_written (hwritten : ¬ writes out s.base k value) (home : Option ℕ)
    (bucket : Bucket) (code : Int) :
    heldBack (executeKeyAction out s.base (k.event value)) home bucket code =
      heldBack s.base home bucket code := by
  rw [heldBack_execute, if_neg fun h => hwritten h.2.1]

/-- An event that is not written changes no stroke. -/
theorem Sound.unwritten (h : Sound out s) (henabled : ¬ (value = .press ↔ k ∈ s.keysDown))
    (hwritten : ¬ writes out s.base k value) :
    Sound out { s with
      base := executeKeyAction out s.base (k.event value)
      keysDown := keysAfter s.keysDown k value } where
  withheld home bucket code := by
    rw [heldBack_not_written hwritten]
    exact h.withheld home bucket code
  positive := positive_execute out s.base k value h.positive
  counted := h.counted_after henabled
  countPositive := countPositive_execute out s.base k value h.countPositive
  strokes output stroke hstroke := by
    obtain ⟨hwriter, hkeyboard, hbucket, hcode, k', hmem', houtput⟩ :=
      h.strokes output stroke hstroke
    refine ⟨hwriter, hkeyboard, hbucket, hcode, ?_⟩
    cases value with
    | press => exact ⟨k', Finset.mem_insert_of_mem hmem', houtput⟩
    | hold => exact ⟨k', hmem', houtput⟩
    | release =>
      have hmem : k ∈ s.keysDown := by
        by_contra hnew
        exact henabled ⟨fun heq => (by cases heq), fun hmem => absurd hmem hnew⟩
      by_cases hsame : k' = k
      · -- The last release of a tracker would have been written.
        rw [← houtput, hsame] at hwriter
        obtain ⟨counter, hcounter, hblocked⟩ := not_written hwriter hwritten
        have hcard := h.counted counter k.bucket k.code
        have hin : k ∈ s.keysDown.filter (CountedAt counter k.bucket k.code) :=
          Finset.mem_filter.mpr ⟨hmem, hcounter, rfl, rfl⟩
        have hne : s.base.count counter k.bucket k.code ≠ 1 := of_decide_eq_false hblocked
        have hpos := Finset.card_pos.mpr ⟨k, hin⟩
        have hmany : 1 < (s.keysDown.filter (CountedAt counter k.bucket k.code)).card := by omega
        obtain ⟨k'', hin'', hne''⟩ := Finset.exists_mem_ne hmany k
        obtain ⟨hmem'', hcounted''⟩ := Finset.mem_filter.mp hin''
        refine ⟨k'', Finset.mem_erase.mpr ⟨hne'', hmem''⟩, ?_⟩
        rw [← houtput, hsame]
        exact (output_eq_iff hcounter).mpr hcounted''
      · exact ⟨k', Finset.mem_erase.mpr ⟨hsame, hmem'⟩, houtput⟩
  begun k' hmem' hwriter := by
    cases value with
    | hold => exact h.begun k' hmem' hwriter
    | release => exact h.begun k' (Finset.mem_of_mem_erase hmem') hwriter
    | press =>
      rcases Finset.mem_insert.mp hmem' with rfl | hmem'
      · -- A press that is not written is not the first one of its tracker.
        obtain ⟨counter, hcounter, hblocked⟩ := not_written hwriter hwritten
        have hne : s.base.count counter k'.bucket k'.code ≠ 0 := of_decide_eq_false hblocked
        rw [h.counted] at hne
        obtain ⟨k'', hin''⟩ := Finset.card_pos.mp (Nat.pos_of_ne_zero hne)
        obtain ⟨hmem'', hcounted''⟩ := Finset.mem_filter.mp hin''
        have houtput := (output_eq_iff hcounter).mpr hcounted''
        rw [← houtput]
        exact h.begun k'' hmem'' (by rw [hcounted''.2.1]; exact hwriter)
      · exact h.begun k' hmem' hwriter
  paired := h.paired

theorem stroke_eq_iff {withheld : Bool} {home : Option ℕ} {bucket : Bucket} {code : Int} :
    k.stroke withheld = ⟨home, bucket, code, true⟩ ↔
      (home = k.home ∧ bucket = k.bucket ∧ code = k.code) ∧ withheld = true := by
  unfold Key.stroke
  simp only [Stroke.mk.injEq]
  exact ⟨fun ⟨h1, h2, h3, h4⟩ => ⟨⟨h1.symm, h2.symm, h3.symm⟩, h4⟩,
    fun ⟨⟨h1, h2, h3⟩, h4⟩ => ⟨h1.symm, h2.symm, h3.symm, h4⟩⟩

/-- The first press of an output begins a stroke. -/
theorem Sound.pressed (h : Sound out s) (hnew : k ∉ s.keysDown)
    (hwritten : writes out s.base k .press)
    (hclear : s.base.keyboardBlocked = false → NoneWithheld s k) :
    Sound out { record s k .press (withholds out s.base k .press) with
      base := executeKeyAction out s.base (k.event .press)
      keysDown := keysAfter s.keysDown k .press } := by
  have henabled : ¬ (KeyValue.press = .press ↔ k ∈ s.keysDown) := fun h => hnew (h.mp rfl)
  obtain ⟨hwriter, hemits⟩ := Bool.and_eq_true_iff.mp hwritten
  have hnone : s.strokes.get? k.output = none := by
    cases hstroke : s.strokes.get? k.output with
    | none => rfl
    | some stroke =>
      obtain ⟨-, -, -, -, k', hmem', houtput⟩ := h.strokes k.output stroke hstroke
      rw [emits_eq] at hemits
      cases hcounter : k.source.counter with
      | none => exact absurd (eq_of_output_eq hcounter houtput ▸ hmem') hnew
      | some counter =>
        rw [hcounter] at hemits
        have hzero : s.base.count counter k.bucket k.code = 0 := of_decide_eq_true hemits
        rw [h.counted, Finset.card_eq_zero] at hzero
        have hin := Finset.mem_filter.mpr ⟨hmem', (output_eq_iff hcounter).mp houtput⟩
        rw [hzero] at hin
        exact absurd hin (Finset.notMem_empty k')
  refine ⟨fun home bucket code => ?_, positive_execute out s.base k .press h.positive,
    h.counted_after henabled, countPositive_execute out s.base k .press h.countPositive, ?_, ?_,
    h.paired⟩
  · have hcard := Dict.card_keysWhere_insert_new
      (fun stroke => decide (stroke = ⟨home, bucket, code, true⟩)) hnone
      (k.stroke (withholds out s.base k .press))
    rw [heldBack_execute]
    refine Eq.trans ?_ hcard.symm
    rw [← h.withheld]
    simp only [decide_eq_true_iff, stroke_eq_iff, withholds_eq, withheldAt, Bool.and_eq_true]
    by_cases hsame : home = k.home ∧ bucket = k.bucket ∧ code = k.code
    · by_cases hkeyboard : out.keyboardKeyCode k.code = true
      · rw [if_pos ⟨hsame, hwritten, hkeyboard⟩, hsame.1, hsame.2.1, hsame.2.2]
        cases hblocked : s.base.keyboardBlocked with
        | true => rw [if_pos ⟨⟨rfl, rfl, rfl⟩, hkeyboard, rfl⟩]; rfl
        | false =>
          rw [h.noneWithheld_iff.mp (hclear hblocked), if_neg fun h => (by cases h.2.2)]
          rfl
      · rw [if_neg fun h => hkeyboard h.2.2, if_neg fun h => hkeyboard h.2.1, Nat.add_zero]
    · rw [if_neg fun h => hsame h.1, if_neg fun h => hsame h.1, Nat.add_zero]
  · intro output stroke hstroke
    have hget : (s.strokes.insert k.output (k.stroke (withholds out s.base k .press))).get?
        output = some stroke := hstroke
    rw [Dict.get?_insert] at hget
    split at hget
    next heq =>
      cases hget
      rw [heq]
      refine ⟨hwriter, fun hwithheld => ?_, rfl, rfl, k, Finset.mem_insert_self _ _, rfl⟩
      have hpress : withholds out s.base k .press = true := hwithheld
      rw [withholds_eq] at hpress
      exact (Bool.and_eq_true_iff.mp hpress).1
    next =>
      obtain ⟨hwriter', hkeyboard, hbucket, hcode, k', hmem', houtput⟩ :=
        h.strokes output stroke hget
      exact ⟨hwriter', hkeyboard, hbucket, hcode, k', Finset.mem_insert_of_mem hmem', houtput⟩
  · intro k' hmem' hwriter'
    have hget : ∃ stroke, (s.strokes.insert k.output
        (k.stroke (withholds out s.base k .press))).get? k'.output = some stroke := by
      rw [Dict.get?_insert]
      split
      next => exact ⟨_, rfl⟩
      next hne =>
        rcases Finset.mem_insert.mp hmem' with rfl | hmem'
        · exact absurd rfl hne
        · exact h.begun k' hmem' hwriter'
    exact hget

/-- Whether the write of a stroke that was begun is withheld, where strokes are kept apart. -/
theorem Sound.withholds_iff (h : Sound out s) (hvalue : value ≠ .press) {stroke : Stroke}
    (hstroke : s.strokes.get? k.output = some stroke) :
    (stroke.withheld = true → stroke.home = k.home → withholds out s.base k value = true) ∧
      (NoneWithheld s k → withholds out s.base k value = false) := by
  have hat : withheldAt s.base.keyboardBlocked (heldBack s.base k.home k.bucket k.code) value =
      decide (0 < heldBack s.base k.home k.bucket k.code) := by
    cases value <;> first | rfl | exact absurd rfl hvalue
  rw [withholds_eq, hat]
  constructor
  · intro hwithheld hhome
    have hpos : 0 < heldBack s.base k.home k.bucket k.code := by
      by_contra hzero
      refine (h.noneWithheld_iff (k := k)).mpr (by omega) (Dict.mem_values_iff.mpr ⟨k.output, ?_⟩)
      rw [hstroke, h.stroke_eq hstroke hhome, hwithheld]
    rw [h.keyboard hstroke hwithheld, decide_eq_true hpos]
    rfl
  · intro hnone
    rw [h.noneWithheld_iff.mp hnone]
    exact Bool.and_false _

theorem Sound.held_key (h : Sound out s) (henabled : ¬ (value = .press ↔ k ∈ s.keysDown))
    (hvalue : value ≠ .press) (hwritten : writes out s.base k value) :
    k ∈ s.keysDown ∧ ∃ stroke, s.strokes.get? k.output = some stroke := by
  have hmem : k ∈ s.keysDown := by
    by_contra hnew
    exact henabled ⟨fun heq => absurd heq hvalue, fun hmem => absurd hmem hnew⟩
  exact ⟨hmem, h.begun k hmem (Bool.and_eq_true_iff.mp hwritten).1⟩

/-- A repeat is withheld with its press. -/
theorem Sound.repeated (h : Sound out s) (hmem : k ∈ s.keysDown) {stroke : Stroke}
    (hstroke : s.strokes.get? k.output = some stroke)
    (hclear : stroke.withheld = true → stroke.home = k.home) :
    Sound out { record s k .hold (withholds out s.base k .hold) with
      base := executeKeyAction out s.base (k.event .hold)
      keysDown := keysAfter s.keysDown k .hold } := by
  have hrecord : record s k .hold (withholds out s.base k .hold) =
      { s with log := s.log ++ [⟨.hold, stroke.withheld, withholds out s.base k .hold⟩] } := by
    unfold record
    rw [hstroke]
  rw [hrecord]
  have henabled : ¬ (KeyValue.hold = .press ↔ k ∈ s.keysDown) :=
    fun h => (by cases h.mpr hmem)
  refine ⟨fun home bucket code => ?_, positive_execute out s.base k .hold h.positive,
    h.counted_after henabled, countPositive_execute out s.base k .hold h.countPositive,
    h.strokes, h.begun, ?_⟩
  · rw [heldBack_execute]
    split
    next hsame =>
      obtain ⟨⟨rfl, rfl, rfl⟩, -, -⟩ := hsame
      exact h.withheld _ _ _
    next => exact h.withheld home bucket code
  · intro o ho
    rcases List.mem_append.mp ho with ho | ho
    · exact h.paired o ho
    · rw [List.mem_singleton.mp ho]
      have hne : KeyValue.hold ≠ .press := fun heq => (by cases heq)
      have hwithholds := (h.withholds_iff hne hstroke).1
      exact ⟨fun hwithheld => hwithholds hwithheld (hclear hwithheld), fun heq => (by cases heq)⟩

/-- A release is withheld with its press, and goes out with it. -/
theorem Sound.released (h : Sound out s) (hmem : k ∈ s.keysDown) {stroke : Stroke}
    (hwritten : writes out s.base k .release)
    (hstroke : s.strokes.get? k.output = some stroke)
    (hclear : stroke.withheld = true → stroke.home = k.home)
    (hapart : stroke.withheld = false → NoneWithheld s k) :
    Sound out { record s k .release (withholds out s.base k .release) with
      base := executeKeyAction out s.base (k.event .release)
      keysDown := keysAfter s.keysDown k .release } := by
  have hrecord : record s k .release (withholds out s.base k .release) =
      { s with
        strokes := s.strokes.erase k.output
        log := s.log ++ [⟨.release, stroke.withheld, withholds out s.base k .release⟩] } := by
    unfold record
    rw [hstroke]
  rw [hrecord]
  have henabled : ¬ (KeyValue.release = .press ↔ k ∈ s.keysDown) :=
    fun h => (by cases h.mpr hmem)
  refine ⟨fun home bucket code => ?_, positive_execute out s.base k .release h.positive,
    h.counted_after henabled, countPositive_execute out s.base k .release h.countPositive,
    ?_, ?_, ?_⟩
  · have hcard := Dict.card_keysWhere_erase
      (fun stroke => decide (stroke = ⟨home, bucket, code, true⟩)) hstroke
    rw [← h.withheld] at hcard
    rw [heldBack_execute]
    simp only [decide_eq_true_iff] at hcard ⊢
    cases hwithheld : stroke.withheld with
    | true =>
      have heq := h.stroke_eq hstroke (hclear hwithheld)
      rw [hwithheld] at heq
      simp only [heq, stroke_eq_iff, and_true] at hcard
      by_cases hsame : home = k.home ∧ bucket = k.bucket ∧ code = k.code
      · rw [if_pos hsame] at hcard
        rw [if_pos ⟨hsame, hwritten, h.keyboard hstroke hwithheld⟩, ← hsame.1, ← hsame.2.1,
          ← hsame.2.2, ← hcard]
        exact Nat.add_sub_cancel _ _
      · rw [if_neg hsame, Nat.add_zero] at hcard
        rw [if_neg fun h => hsame h.1, hcard]
    | false =>
      have hne : stroke ≠ ⟨home, bucket, code, true⟩ := fun heq => by
        rw [heq] at hwithheld
        cases hwithheld
      rw [if_neg hne, Nat.add_zero] at hcard
      rw [hcard]
      split
      next hsame =>
        obtain ⟨⟨rfl, rfl, rfl⟩, -, -⟩ := hsame
        rw [h.noneWithheld_iff.mp (hapart hwithheld)]
        rfl
      next => rfl
  · intro output stroke' hstroke'
    have hget : (s.strokes.erase k.output).get? output = some stroke' := hstroke'
    rw [Dict.get?_erase] at hget
    split at hget
    next => cases hget
    next hne =>
      obtain ⟨hwriter', hkeyboard, hbucket, hcode, k', hmem', houtput⟩ :=
        h.strokes output stroke' hget
      refine ⟨hwriter', hkeyboard, hbucket, hcode, k', Finset.mem_erase.mpr ⟨?_, hmem'⟩, houtput⟩
      rintro rfl
      exact hne houtput.symm
  · intro k' hmem' hwriter'
    obtain ⟨hne, hmem'⟩ := Finset.mem_erase.mp hmem'
    have hget : ∃ stroke', (s.strokes.erase k.output).get? k'.output = some stroke' := by
      rw [Dict.get?_erase]
      split
      next heq =>
        -- Another key of the output keeps its tracker from writing the release.
        obtain ⟨counter, hcounter, hmany⟩ := h.other hmem hmem' hne heq
        have hemits := (Bool.and_eq_true_iff.mp hwritten).2
        rw [emits_eq, hcounter] at hemits
        have hone : s.base.count counter k.bucket k.code = 1 := of_decide_eq_true hemits
        omega
      next => exact h.begun k' hmem' hwriter'
    exact hget
  · intro o ho
    rcases List.mem_append.mp ho with ho | ho
    · exact h.paired o ho
    · rw [List.mem_singleton.mp ho]
      have hne : KeyValue.release ≠ .press := fun heq => (by cases heq)
      have hwithholds := h.withholds_iff hne hstroke
      refine ⟨fun hwithheld => hwithholds.1 hwithheld (hclear hwithheld), fun _ hout => ?_⟩
      rw [Bool.not_eq_true] at hout ⊢
      exact hwithholds.2 (hapart hout)

theorem Sound.step (h : Sound out s) {e : Event} {s' : System} (hclear : Unmixed out s e)
    (hstep : step out s e = some s') : Sound out s' := by
  cases e with
  | blockKeyboard blocked =>
    cases hstep
    refine ⟨fun home bucket code => ?_, fun home bucket => ?_, ?_, ?_, h.strokes, h.begun,
      h.paired⟩
    · rw [← h.withheld]
      cases home <;> rfl
    · have hpositive := h.positive home bucket
      cases home <;> exact hpositive
    · intro counter bucket code
      rw [← h.counted]
      cases counter <;> rfl
    · intro counter bucket
      have hpositive := h.countPositive counter bucket
      cases counter <;> exact hpositive
  | key k value =>
    simp only [Withholding.step] at hstep
    split at hstep
    next => cases hstep
    next henabled =>
      rw [← Option.some.inj hstep]
      by_cases hwritten : writes out s.base k value = true
      · rw [if_pos hwritten]
        obtain ⟨hpress, hother, hrelease⟩ := hclear hwritten
        cases value with
        | press =>
          have hnew : k ∉ s.keysDown := fun hmem => henabled ⟨fun _ => hmem, fun _ => rfl⟩
          exact h.pressed hnew hwritten (hpress rfl)
        | hold =>
          have hne : KeyValue.hold ≠ .press := fun heq => (by cases heq)
          obtain ⟨hmem, stroke, hstroke⟩ := h.held_key henabled hne hwritten
          exact h.repeated hmem hstroke (hother hne stroke hstroke)
        | release =>
          have hne : KeyValue.release ≠ .press := fun heq => (by cases heq)
          obtain ⟨hmem, stroke, hstroke⟩ := h.held_key henabled hne hwritten
          exact h.released hmem hwritten hstroke (hother hne stroke hstroke)
            (hrelease rfl stroke hstroke)
      · rw [if_neg hwritten]
        exact h.unwritten henabled hwritten

end Steps

/-! ## Runs -/

theorem sound_initial (out : Outputs) : Sound out {} where
  withheld home bucket code := by cases home <;> rfl
  positive home bucket := by cases home <;> exact positive_empty
  counted counter bucket code := by cases counter <;> rfl
  countPositive counter bucket := by cases counter <;> exact positive_empty
  strokes _ _ h := absurd h Dict.not_get?_empty
  begun k hmem _ := absurd hmem (Finset.notMem_empty k)
  paired o hmem := absurd hmem List.not_mem_nil

/- Repeats and releases follow their press, no count is zero, and none is left when all keys
are up. -/
structure Withheld (s : System) : Prop where
  paired : ∀ o ∈ s.log, (o.pressWithheld → o.withheld) ∧
    (o.value = .release → ¬ o.pressWithheld → ¬ o.withheld)
  positive : ∀ home bucket, Positive ((runtimeAt s.base home).blockedOutputKeys.getD bucket ∅)
  countPositive : ∀ counter bucket, Positive ((s.base.refcounts counter).getD bucket ∅)
  empty : s.keysDown = ∅ →
    (∀ home bucket code,
      ((runtimeAt s.base home).blockedOutputKeys.getD bucket ∅).get? code = none) ∧
    ∀ counter bucket code, ((s.base.refcounts counter).getD bucket ∅).get? code = none

theorem Sound.empty {out : Outputs} {s : System} (h : Sound out s) (hup : s.keysDown = ∅) :
    (∀ home bucket code,
      ((runtimeAt s.base home).blockedOutputKeys.getD bucket ∅).get? code = none) ∧
    ∀ counter bucket code, ((s.base.refcounts counter).getD bucket ∅).get? code = none := by
  refine ⟨fun home bucket code => (h.positive home bucket).get?_eq_none ?_,
    fun counter bucket code => (h.countPositive counter bucket).get?_eq_none ?_⟩
  · refine (h.withheld home bucket code).trans (Finset.card_eq_zero.mpr ?_)
    refine Finset.eq_empty_iff_forall_notMem.mpr fun output hmem => ?_
    obtain ⟨stroke, hstroke, -⟩ := Dict.mem_keysWhere.mp hmem
    obtain ⟨-, -, -, -, k, hdown, -⟩ := h.strokes output stroke hstroke
    rw [hup] at hdown
    exact Finset.notMem_empty k hdown
  · refine (h.counted counter bucket code).trans ?_
    rw [hup]
    rfl

def firstKey : Key := ⟨0, .plain, .keyboard, 30⟩
def secondKey : Key := ⟨1, .plain, .keyboard, 30⟩

/- The block starts during one stroke and ends during the next. -/
def apart : List Event :=
  [.key firstKey .press, .blockKeyboard true, .key firstKey .release, .key secondKey .press,
    .blockKeyboard false, .key secondKey .hold, .key secondKey .release]

/- Two keys hold the same output; the press of the first one goes out, that of the second one
is withheld, and the first one is released first. -/
def overlapping : List Event :=
  [.key firstKey .press, .blockKeyboard true, .key secondKey .press, .key firstKey .release]

end Keymasq.Device.Withholding
