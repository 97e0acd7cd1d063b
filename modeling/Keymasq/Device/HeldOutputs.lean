import Keymasq.Foundation.Dict
import Keymasq.Foundation.Transition
import Mathlib.Data.Finset.Sort
import Mathlib.Data.Int.Order.Basic

/-!
# Held outputs

The outputs a grabbed device holds down. Plain actions write a key and record it;
superkeys and analog thresholds count how many of them hold a code and write only
its first press and its last release. All of them share one set of held codes,
and what is in that set is let go of when the device is released.
-/

namespace Keymasq.Device.HeldOutputs
open Foundation Transition

/-- An output device, by the name under which its held codes are recorded. -/
inductive Bucket
  | passthrough
  | keyboard
  | mouse
  | gamepad
  | virtualGamepad (outputId : String)
  deriving DecidableEq

/-- The value of a key event: 0, 1 or 2. -/
inductive KeyValue
  | release
  | press
  | hold
  deriving DecidableEq

/- What the input library decides: the buckets with an open uinput device, and
the codes in `KEYBOARD_KEY_CODES`. -/
structure Outputs where
  hasWriter : Bucket → Bool
  keyboardKeyCode : Int → Bool

/-- What a runtime records about its own writes. -/
structure RuntimeState where
  heldOutputKeys : Dict Bucket (Finset Int) := ∅
  blockedOutputKeys : Dict Bucket (Dict Int Nat) := ∅

/-- The two refcounts that share the held codes of the device. -/
inductive Counter
  | superkey
  | analogThreshold
  deriving DecidableEq

/- Overload superkeys count with the superkeys but write through the device.
The machine of any other superkey writes through a runtime of its own. -/
inductive Source
  | plain
  | overload
  | superkey (machine : Nat)
  | threshold
  deriving DecidableEq

def Source.counter : Source → Option Counter
  | .plain => none
  | .overload => some .superkey
  | .superkey _ => some .superkey
  | .threshold => some .analogThreshold

/- A write can fail before the event reaches the device, or at the frame end
after it has. -/
inductive Failure
  | write
  | syn
  deriving DecidableEq

structure KeyEvent where
  source : Source
  bucket : Bucket
  code : Int
  value : KeyValue
  failure : Option Failure := none

/- `down` holds what the output devices themselves have down; `keyboardBlocked`
is the answer of the keyboard block getter. -/
structure State where
  device : RuntimeState := {}
  machines : Nat → RuntimeState := fun _ => {}
  superkeyOutputRefcounts : Dict Bucket (Dict Int Nat) := ∅
  analogThresholdOutputRefcounts : Dict Bucket (Dict Int Nat) := ∅
  keyboardBlocked : Bool := false
  down : Finset (Bucket × Int) := ∅

/-- The codes the device records as held. -/
def State.held (s : State) (bucket : Bucket) : Finset Int := s.device.heldOutputKeys.getD bucket ∅

def State.refcounts (s : State) : Counter → Dict Bucket (Dict Int Nat)
  | .superkey => s.superkeyOutputRefcounts
  | .analogThreshold => s.analogThresholdOutputRefcounts

def State.setRefcounts (s : State) (counter : Counter) (counts : Dict Bucket (Dict Int Nat)) :
    State :=
  match counter with
  | .superkey => { s with superkeyOutputRefcounts := counts }
  | .analogThreshold => { s with analogThresholdOutputRefcounts := counts }

/-- How many sources hold a code by a count. -/
def State.count (s : State) (counter : Counter) (bucket : Bucket) (code : Int) : Nat :=
  ((s.refcounts counter).getD bucket ∅).getD code 0

/-- The runtime a source writes through. -/
def State.runtime (s : State) : Source → RuntimeState
  | .superkey machine => s.machines machine
  | _ => s.device

def State.setRuntime (s : State) (source : Source) (r : RuntimeState) : State :=
  match source with
  | .superkey machine => { s with machines := Function.update s.machines machine r }
  | _ => { s with device := r }

/-! ## The trackers -/

/-- The counts and the held codes afterwards, and whether to emit the event. -/
def trackRefcountedHeldOutput (refcounts : Dict Int Nat) (held : Finset Int) (code : Int)
    (pressed released : Bool) : Dict Int Nat × Finset Int × Bool :=
  let current := refcounts.getD code 0
  if pressed then (refcounts.insert code (current + 1), insert code held, current = 0)
  else if released then
    if current ≤ 1 then (refcounts.erase code, held.erase code, current = 1)
    else (refcounts.insert code (current - 1), held, false)
  else (refcounts, held, true)

/-- `track_refcounted_output_bucket` over the held codes of the device. -/
def trackRefcountedOutputBucket (s : State) (counter : Counter) (bucket : Bucket) (code : Int)
    (value : KeyValue) : State × Bool :=
  let (refcounts, held, emit) := trackRefcountedHeldOutput
    ((s.refcounts counter).getD bucket ∅) (s.held bucket) code
    (value = .press) (value = .release)
  let s := s.setRefcounts counter ((s.refcounts counter).insert bucket refcounts)
  ({ s with device := { s.device with
      heldOutputKeys := s.device.heldOutputKeys.insert bucket held } }, emit)

/-! ## The key writer -/

def trackKeyState (r : RuntimeState) (bucket : Bucket) (code : Int) (value : KeyValue) :
    RuntimeState :=
  let held := r.heldOutputKeys.getD bucket ∅
  match value with
  | .press => { r with heldOutputKeys := r.heldOutputKeys.insert bucket (insert code held) }
  | .release => { r with heldOutputKeys := r.heldOutputKeys.insert bucket (held.erase code) }
  | .hold => { r with heldOutputKeys := r.heldOutputKeys.insert bucket held }

/- The presses held back while a macro blocks the keyboard are counted, and as
many releases are withheld. -/
def keyBlocked (out : Outputs) (keyboardBlocked : Bool) (r : RuntimeState) (bucket : Bucket)
    (code : Int) (value : KeyValue) : RuntimeState × Bool :=
  if ¬ out.keyboardKeyCode code then (r, false)
  else
    let heldBack := r.blockedOutputKeys.getD bucket ∅
    let count := heldBack.getD code 0
    let put (heldBack : Dict Int Nat) : RuntimeState :=
      { r with blockedOutputKeys := r.blockedOutputKeys.insert bucket heldBack }
    match value with
    | .release =>
      if count = 0 then (put heldBack, false)
      else if count > 1 then (put (heldBack.insert code (count - 1)), true)
      else (put (heldBack.erase code), true)
    | .hold => (put heldBack, count > 0)
    | .press =>
      -- A press that goes out owns the next release.
      if ¬ keyboardBlocked then (put (heldBack.erase code), false)
      else (put (heldBack.insert code (count + 1)), true)

/-- The runtime afterwards, and whether the event reached the output device. -/
def writeKey (out : Outputs) (keyboardBlocked : Bool) (r : RuntimeState) (bucket : Bucket)
    (code : Int) (value : KeyValue) (failure : Option Failure) : RuntimeState × Bool :=
  if ¬ out.hasWriter bucket then (r, false)
  else
    let (r, blocked) := keyBlocked out keyboardBlocked r bucket code value
    if blocked then (r, false)
    else
      match failure with
      | some .write => (r, false)
      | some .syn => (r, true)
      | none => (trackKeyState r bucket code value, true)

/-- What an event does to the keys an output device has down; repeats change nothing. -/
def deviceAfter (down : Finset (Bucket × Int)) (bucket : Bucket) (code : Int) (value : KeyValue) :
    Finset (Bucket × Int) :=
  match value with
  | .press => insert (bucket, code) down
  | .release => down.erase (bucket, code)
  | .hold => down

def write (out : Outputs) (s : State) (e : KeyEvent) : State :=
  let (r, written) := writeKey out s.keyboardBlocked (s.runtime e.source) e.bucket e.code e.value
    e.failure
  let s := s.setRuntime e.source r
  if written then { s with down := deviceAfter s.down e.bucket e.code e.value } else s

/-- The end of `execute_key_action`: a source with a tracker asks it whether to write. -/
def executeKeyAction (out : Outputs) (s : State) (e : KeyEvent) : State :=
  match e.source.counter with
  | none => write out s e
  | some counter =>
    let (s, shouldEmit) := trackRefcountedOutputBucket s counter e.bucket e.code e.value
    if shouldEmit then write out s e else s

/-! ## Release of all keys -/

/-- `d[bucket].clear()` where there is such a bucket. -/
def clearBucket {ν : Type} [EmptyCollection ν] (d : Dict Bucket ν) (bucket : Bucket) :
    Dict Bucket ν :=
  if d.contains bucket then d.insert bucket ∅ else d

def clearHeldOutputBucket (s : State) (bucket : Bucket) : State :=
  { s with
    device := { s.device with heldOutputKeys := clearBucket s.device.heldOutputKeys bucket }
    superkeyOutputRefcounts := clearBucket s.superkeyOutputRefcounts bucket
    analogThresholdOutputRefcounts := clearBucket s.analogThresholdOutputRefcounts bucket }

/-- The releases written to an output device. -/
def writeReleases (s : State) (bucket : Bucket) (codes : List Int) : State :=
  { s with down := s.down.filter fun k => ¬ (k.1 = bucket ∧ k.2 ∈ codes) }

/- One bucket of `release_all_keys`. `failures` gives the buckets whose release
fails with the number of codes written before. -/
def releaseBucket (out : Outputs) (failures : Bucket → Option Nat) (s : State)
    (bucket : Bucket) : State :=
  if ¬ out.hasWriter bucket then clearHeldOutputBucket s bucket
  else
    let held := (s.held bucket).sort (· ≤ ·)
    if held = [] then s
    else
      match failures bucket with
      | some written => writeReleases s bucket (held.take written)
      | none => clearHeldOutputBucket (writeReleases s bucket held) bucket

def isVirtualGamepad : Bucket → Bool
  | .virtualGamepad _ => true
  | _ => false

/-- The buckets `release_all_keys` goes through. -/
def releasedBuckets (s : State) : List Bucket :=
  [.passthrough, .keyboard, .mouse, .gamepad] ++
    s.device.heldOutputKeys.keys.filter fun bucket => isVirtualGamepad bucket

def releaseAllKeys (out : Outputs) (failures : Bucket → Option Nat) (s : State) : State :=
  let s := { s with device := { s.device with blockedOutputKeys := ∅ } }
  (releasedBuckets s).foldl (releaseBucket out failures) s

/-! ## Runs -/

inductive Step
  | key (e : KeyEvent)
  | blockKeyboard (blocked : Bool)
  | releaseAllKeys (failures : Bucket → Option Nat)

def perform (out : Outputs) (s : State) : Step → State
  | .key e => executeKeyAction out s e
  | .blockKeyboard blocked => { s with keyboardBlocked := blocked }
  | .releaseAllKeys failures => releaseAllKeys out failures s

def step (out : Outputs) (s : State) (a : Step) : Option State := some (perform out s a)

/-- Every output key that is down is recorded as held. -/
def Tracked (s : State) : Prop := ∀ bucket code, (bucket, code) ∈ s.down → code ∈ s.held bucket

/-- Keys are down on open devices only. -/
def Opened (out : Outputs) (s : State) : Prop :=
  ∀ bucket code, (bucket, code) ∈ s.down → out.hasWriter bucket = true

/-- A write that reaches the output device. -/
def Reaches (out : Outputs) (s : State) (e : KeyEvent) : Prop :=
  out.hasWriter e.bucket = true ∧
    (keyBlocked out s.keyboardBlocked (s.runtime e.source) e.bucket e.code e.value).2 = false ∧
    e.failure ≠ some .write

instance decidableReaches (out : Outputs) (s : State) (e : KeyEvent) :
    Decidable (Reaches out s e) :=
  inferInstanceAs (Decidable (_ ∧ _ ∧ _))

/- An event leaves a key down that is not recorded: a tracker forgets a code at a
release that is not written, or the frame of an uncounted press fails at its end. -/
def Loses (out : Outputs) (s : State) (e : KeyEvent) : Prop :=
  match e.source.counter with
  | some counter =>
    e.value = .release ∧ (e.bucket, e.code) ∈ s.down ∧ s.count counter e.bucket e.code ≤ 1 ∧
      ¬ (s.count counter e.bucket e.code = 1 ∧ Reaches out s e)
  | none =>
    e.value = .press ∧ e.failure = some .syn ∧ Reaches out s e ∧ e.code ∉ s.held e.bucket

def Keeps (out : Outputs) (s : State) : Step → Prop
  | .key e => ¬ Loses out s e
  | _ => True

/-! ## Frames of the trackers and of the writer -/

theorem setRuntime_down (s : State) (source : Source) (r : RuntimeState) :
    (s.setRuntime source r).down = s.down := by
  cases source <;> rfl

theorem setRefcounts_refcounts (s : State) (counter : Counter)
    (counts : Dict Bucket (Dict Int Nat)) :
    (s.setRefcounts counter counts).refcounts counter = counts := by
  cases counter <;> rfl

theorem setRefcounts_frame (s : State) (counter : Counter) (counts : Dict Bucket (Dict Int Nat)) :
    (s.setRefcounts counter counts).down = s.down ∧
      (s.setRefcounts counter counts).keyboardBlocked = s.keyboardBlocked ∧
      (s.setRefcounts counter counts).device = s.device ∧
      (s.setRefcounts counter counts).machines = s.machines := by
  cases counter <;> exact ⟨rfl, rfl, rfl, rfl⟩

theorem getD_insert_bucket {ν : Type} (d : Dict Bucket ν) (bucket bucket' : Bucket) (v w : ν) :
    (d.insert bucket v).getD bucket' w = if bucket' = bucket then v else d.getD bucket' w := by
  unfold Dict.getD
  rw [Dict.get?_insert]
  split <;> rfl

/-- The counts and the held codes of one bucket after a tracker has seen an event. -/
def tracked (s : State) (counter : Counter) (bucket : Bucket) (code : Int) (value : KeyValue) :
    Dict Int Nat × Finset Int × Bool :=
  trackRefcountedHeldOutput ((s.refcounts counter).getD bucket ∅) (s.held bucket) code
    (value = .press) (value = .release)

theorem track_emits (s : State) (counter : Counter) (bucket : Bucket) (code : Int)
    (value : KeyValue) :
    (trackRefcountedOutputBucket s counter bucket code value).2 =
      (tracked s counter bucket code value).2.2 := rfl

theorem track_held (s : State) (counter : Counter) (bucket bucket' : Bucket) (code : Int)
    (value : KeyValue) :
    (trackRefcountedOutputBucket s counter bucket code value).1.held bucket' =
      if bucket' = bucket then (tracked s counter bucket code value).2.1 else s.held bucket' := by
  have hframe := setRefcounts_frame s counter
    ((s.refcounts counter).insert bucket (tracked s counter bucket code value).1)
  simp only [trackRefcountedOutputBucket, State.held]
  rw [getD_insert_bucket]
  split
  · rfl
  · exact congrArg (fun r => r.heldOutputKeys.getD bucket' ∅) hframe.2.2.1

theorem track_count (s : State) (counter : Counter) (bucket : Bucket) (code : Int)
    (value : KeyValue) :
    (trackRefcountedOutputBucket s counter bucket code value).1.count counter bucket code =
      (tracked s counter bucket code value).1.getD code 0 := by
  have hcounts := setRefcounts_refcounts s counter
    ((s.refcounts counter).insert bucket (tracked s counter bucket code value).1)
  have hget := getD_insert_bucket (s.refcounts counter) bucket bucket
    (tracked s counter bucket code value).1 ∅
  rw [if_pos rfl] at hget
  rw [← hget, ← hcounts]
  cases counter <;> rfl

theorem track_down (s : State) (counter : Counter) (bucket : Bucket) (code : Int)
    (value : KeyValue) :
    (trackRefcountedOutputBucket s counter bucket code value).1.down = s.down :=
  (setRefcounts_frame s counter _).1

theorem keyBlocked_congr (out : Outputs) (keyboardBlocked : Bool) {r r' : RuntimeState}
    (h : r.blockedOutputKeys = r'.blockedOutputKeys) (bucket : Bucket) (code : Int)
    (value : KeyValue) :
    (keyBlocked out keyboardBlocked r bucket code value).2 =
      (keyBlocked out keyboardBlocked r' bucket code value).2 := by
  simp only [keyBlocked, h]
  split
  · rfl
  · cases value <;> simp only <;> split <;> (try split) <;> rfl

/-- A tracker leaves alone what the withholding of writes depends on. -/
theorem track_reaches (out : Outputs) (s : State) (counter : Counter) (e : KeyEvent) :
    Reaches out (trackRefcountedOutputBucket s counter e.bucket e.code e.value).1 e ↔
      Reaches out s e := by
  have hblocked : ((trackRefcountedOutputBucket s counter e.bucket e.code
      e.value).1.runtime e.source).blockedOutputKeys = (s.runtime e.source).blockedOutputKeys := by
    cases e.source <;> cases counter <;> rfl
  have hkeyboard : (trackRefcountedOutputBucket s counter e.bucket e.code
      e.value).1.keyboardBlocked = s.keyboardBlocked := by
    cases counter <;> rfl
  unfold Reaches
  rw [hkeyboard, keyBlocked_congr out s.keyboardBlocked hblocked]

/-- The sources that write through the runtime of the device. -/
def Source.throughDevice : Source → Bool
  | .superkey _ => false
  | _ => true

/-- What `track_key_state` makes of the held codes of its bucket. -/
def heldAfter (held : Finset Int) (code : Int) (value : KeyValue) : Finset Int :=
  match value with
  | .press => insert code held
  | .release => held.erase code
  | .hold => held

theorem trackKeyState_held (r : RuntimeState) (bucket bucket' : Bucket) (code : Int)
    (value : KeyValue) :
    (trackKeyState r bucket code value).heldOutputKeys.getD bucket' ∅ =
      if bucket' = bucket then heldAfter (r.heldOutputKeys.getD bucket ∅) code value
      else r.heldOutputKeys.getD bucket' ∅ := by
  cases value <;> exact getD_insert_bucket _ _ _ _ _

theorem keyBlocked_held (out : Outputs) (keyboardBlocked : Bool) (r : RuntimeState)
    (bucket : Bucket) (code : Int) (value : KeyValue) :
    (keyBlocked out keyboardBlocked r bucket code value).1.heldOutputKeys = r.heldOutputKeys := by
  simp only [keyBlocked]
  split
  · rfl
  · cases value <;> simp only <;> split <;> (try split) <;> rfl

theorem setRuntime_held (s : State) (source : Source) (r : RuntimeState) (bucket : Bucket) :
    (s.setRuntime source r).held bucket =
      if source.throughDevice then r.heldOutputKeys.getD bucket ∅ else s.held bucket := by
  cases source <;> rfl

theorem runtime_throughDevice (s : State) {source : Source} (h : source.throughDevice = true) :
    s.runtime source = s.device := by
  cases source with
  | superkey machine => cases h
  | plain => rfl
  | overload => rfl
  | threshold => rfl

theorem writeKey_written (out : Outputs) (s : State) (e : KeyEvent) :
    (writeKey out s.keyboardBlocked (s.runtime e.source) e.bucket e.code e.value e.failure).2 =
      true ↔ Reaches out s e := by
  unfold Reaches writeKey
  cases hwriter : out.hasWriter e.bucket with
  | false => simp
  | true =>
    simp only [not_true_eq_false, if_false, true_and]
    cases hblocked : (keyBlocked out s.keyboardBlocked (s.runtime e.source) e.bucket e.code
      e.value).2 with
    | true => simp
    | false =>
      cases e.failure with
      | none => simp
      | some failure => cases failure <;> simp

theorem writeKey_held (out : Outputs) (s : State) (e : KeyEvent) (bucket : Bucket) :
    (writeKey out s.keyboardBlocked (s.runtime e.source) e.bucket e.code e.value
      e.failure).1.heldOutputKeys.getD bucket ∅ =
      if (writeKey out s.keyboardBlocked (s.runtime e.source) e.bucket e.code e.value
          e.failure).2 = true ∧ e.failure = none ∧ bucket = e.bucket
        then heldAfter ((s.runtime e.source).heldOutputKeys.getD e.bucket ∅) e.code e.value
      else (s.runtime e.source).heldOutputKeys.getD bucket ∅ := by
  have hheld := keyBlocked_held out s.keyboardBlocked (s.runtime e.source) e.bucket e.code e.value
  unfold writeKey
  cases hwriter : out.hasWriter e.bucket with
  | false => simp
  | true =>
    simp only [not_true_eq_false, if_false]
    cases hblocked : (keyBlocked out s.keyboardBlocked (s.runtime e.source) e.bucket e.code
      e.value).2 with
    | true => simp [hheld]
    | false =>
      cases e.failure with
      | none => simp [trackKeyState_held, hheld]
      | some failure => cases failure <;> simp [hheld]

theorem write_down (out : Outputs) (s : State) (e : KeyEvent) :
    (write out s e).down =
      if Reaches out s e then deviceAfter s.down e.bucket e.code e.value else s.down := by
  have hwritten := writeKey_written out s e
  unfold write
  simp only
  by_cases h : Reaches out s e
  · rw [if_pos h, if_pos (hwritten.mpr h), setRuntime_down]
  · rw [if_neg h, if_neg (fun hc => h (hwritten.mp hc)), setRuntime_down]

/-- A write is recorded where it goes through the device and does not fail. -/
theorem write_held (out : Outputs) (s : State) (e : KeyEvent) (bucket : Bucket) :
    (write out s e).held bucket =
      if e.source.throughDevice ∧ Reaches out s e ∧ e.failure = none ∧ bucket = e.bucket
        then heldAfter (s.held e.bucket) e.code e.value
      else s.held bucket := by
  have hwritten := writeKey_written out s e
  have hheld := writeKey_held out s e bucket
  have hset : (write out s e).held bucket = (s.setRuntime e.source (writeKey out
      s.keyboardBlocked (s.runtime e.source) e.bucket e.code e.value e.failure).1).held bucket := by
    unfold write
    simp only
    split <;> rfl
  rw [hset, setRuntime_held]
  cases hdevice : e.source.throughDevice with
  | false => simp
  | true =>
    simp only [hwritten] at hheld
    simpa [State.held, runtime_throughDevice s hdevice] using hheld

/-! ## A tracker's answers -/

theorem press_emits (s : State) (counter : Counter) (bucket : Bucket) (code : Int) :
    ((trackRefcountedOutputBucket s counter bucket code .press).2 = true ↔
        s.count counter bucket code = 0) ∧
      (trackRefcountedOutputBucket s counter bucket code .press).1.count counter bucket code =
        s.count counter bucket code + 1 := by
  have hinsert (n : Nat) :
      (((s.refcounts counter).getD bucket ∅).insert code n).getD code 0 = n := by
    simp [Dict.getD]
  rw [track_emits, track_count]
  simp [tracked, trackRefcountedHeldOutput, State.count, hinsert]

theorem release_emits (s : State) (counter : Counter) (bucket : Bucket) (code : Int) :
    ((trackRefcountedOutputBucket s counter bucket code .release).2 = true ↔
        s.count counter bucket code = 1) ∧
      (trackRefcountedOutputBucket s counter bucket code .release).1.count counter bucket code =
        s.count counter bucket code - 1 := by
  rw [track_emits, track_count]
  by_cases hle : s.count counter bucket code ≤ 1
  · have herase : (((s.refcounts counter).getD bucket ∅).erase code).getD code 0 = 0 := by
      simp [Dict.getD]
    have hzero : s.count counter bucket code - 1 = 0 := by omega
    unfold State.count at hle hzero
    simp [tracked, trackRefcountedHeldOutput, State.count, hle, herase, hzero]
  · have hne : s.count counter bucket code ≠ 1 := by omega
    unfold State.count at hle hne
    have hinsert (n : Nat) : (((s.refcounts counter).getD bucket ∅).insert code n).getD code 0 = n := by
      simp [Dict.getD]
    simp [tracked, trackRefcountedHeldOutput, State.count, hle, hne, hinsert]

/-- A tracker emits a press when its count leaves zero and a release when it reaches zero. -/
theorem tracker_emits (s : State) (counter : Counter) (bucket : Bucket) (code : Int) :
    let pressed := trackRefcountedOutputBucket s counter bucket code .press
    let released := trackRefcountedOutputBucket s counter bucket code .release
    (pressed.2 = true ↔
        s.count counter bucket code = 0 ∧ pressed.1.count counter bucket code = 1) ∧
      (released.2 = true ↔
        s.count counter bucket code = 1 ∧ released.1.count counter bucket code = 0) := by
  obtain ⟨hpress, hpressed⟩ := press_emits s counter bucket code
  obtain ⟨hrelease, hreleased⟩ := release_emits s counter bucket code
  simp only [hpress, hpressed, hrelease, hreleased]
  omega

/-- A tracker forgets a code only at the release of its last holder, or of none. -/
theorem tracked_held (s : State) (counter : Counter) (bucket : Bucket) (code : Int)
    (value : KeyValue) :
    (tracked s counter bucket code value).2.1 =
      if value = .release ∧ s.count counter bucket code ≤ 1 then (s.held bucket).erase code
      else if value = .press then insert code (s.held bucket)
      else s.held bucket := by
  unfold tracked trackRefcountedHeldOutput State.count
  cases value with
  | press => simp
  | hold => simp
  | release =>
    by_cases hle : ((s.refcounts counter).getD bucket ∅).getD code 0 ≤ 1
    · simp [hle]
    · simp [hle]

/-! ## One key event -/

/-- Two states agree on the key `(bucket, code)`. -/
def Agree (s t : State) (bucket : Bucket) (code : Int) : Prop :=
  ((bucket, code) ∈ t.down ↔ (bucket, code) ∈ s.down) ∧
    (code ∈ t.held bucket ↔ code ∈ s.held bucket)

variable {s : State} {bucket : Bucket} {code : Int} {e : KeyEvent}

theorem agree_trans {t u : State} (h : Agree s t bucket code) (h' : Agree t u bucket code) :
    Agree s u bucket code :=
  ⟨h'.1.trans h.1, h'.2.trans h.2⟩

theorem write_frame (out : Outputs) (s : State) (e : KeyEvent)
    (h : ¬ (bucket = e.bucket ∧ code = e.code)) : Agree s (write out s e) bucket code := by
  have hne : (bucket, code) ≠ (e.bucket, e.code) := by simpa using h
  refine ⟨?_, ?_⟩
  · rw [write_down]
    split
    · cases hv : e.value <;> simp [deviceAfter, hne]
    · rfl
  · rw [write_held]
    split
    · rename_i hwrite
      have hcode : code ≠ e.code := fun hc => h ⟨hwrite.2.2.2, hc⟩
      rw [hwrite.2.2.2]
      cases hv : e.value <;> simp [heldAfter, hcode]
    · rfl

theorem track_frame (s : State) (counter : Counter) (e : KeyEvent)
    (h : ¬ (bucket = e.bucket ∧ code = e.code)) :
    Agree s (trackRefcountedOutputBucket s counter e.bucket e.code e.value).1 bucket code := by
  refine ⟨by rw [track_down], ?_⟩
  rw [track_held]
  split
  · rename_i hbucket
    have hcode : code ≠ e.code := fun hc => h ⟨hbucket, hc⟩
    rw [tracked_held, hbucket]
    cases hv : e.value with
    | press => simp [hcode]
    | hold => simp
    | release => by_cases hle : s.count counter e.bucket e.code ≤ 1 <;> simp [hle, hcode]
  · rfl

theorem executeKeyAction_frame (out : Outputs) (s : State) (e : KeyEvent)
    (h : ¬ (bucket = e.bucket ∧ code = e.code)) :
    Agree s (executeKeyAction out s e) bucket code := by
  unfold executeKeyAction
  cases e.source.counter with
  | none => exact write_frame out s e h
  | some counter =>
    simp only
    split
    · exact agree_trans (track_frame s counter e h) (write_frame out _ e h)
    · exact track_frame s counter e h

/-- After an event, only the tracking of its own key is in question. -/
theorem tracked_executeKeyAction (out : Outputs) (hs : Tracked s) (e : KeyEvent) :
    Tracked (executeKeyAction out s e) ↔
      ((e.bucket, e.code) ∈ (executeKeyAction out s e).down →
        e.code ∈ (executeKeyAction out s e).held e.bucket) := by
  refine ⟨fun h => h e.bucket e.code, fun h bucket code hdown => ?_⟩
  by_cases hkey : bucket = e.bucket ∧ code = e.code
  · rw [hkey.1, hkey.2] at hdown ⊢
    exact h hdown
  · obtain ⟨hdown', hheld'⟩ := executeKeyAction_frame out s e hkey
    exact hheld'.mpr (hs bucket code (hdown'.mp hdown))

/-- An uncounted event loses its key when the frame of its press fails at its end. -/
theorem plain_tracked (out : Outputs) (hs : Tracked s) (hsource : e.source.counter = none) :
    ((e.bucket, e.code) ∈ (write out s e).down → e.code ∈ (write out s e).held e.bucket) ↔
      ¬ (e.value = .press ∧ e.failure = some .syn ∧ Reaches out s e ∧
        e.code ∉ s.held e.bucket) := by
  have hdevice : e.source.throughDevice = true := by
    cases hkind : e.source <;> simp [hkind, Source.counter, Source.throughDevice] at hsource ⊢
  have hbefore := hs e.bucket e.code
  rw [write_down, write_held]
  by_cases hreaches : Reaches out s e
  · have hwrite : e.failure ≠ some .write := hreaches.2.2
    cases hfailure : e.failure with
    | none =>
      cases hv : e.value with
      | press => simp [hreaches, hdevice, deviceAfter, heldAfter]
      | release => simp [hreaches, hdevice, deviceAfter]
      | hold => simpa [hreaches, hdevice, deviceAfter, heldAfter] using hbefore
    | some failure =>
      cases failure with
      | write => exact absurd hfailure hwrite
      | syn =>
        cases hv : e.value with
        | press => simp [hreaches, deviceAfter]
        | release => simp [hreaches, deviceAfter]
        | hold => simpa [hreaches, deviceAfter] using hbefore
  · simpa [hreaches] using hbefore

theorem executeKeyAction_counted (out : Outputs) (s : State) {counter : Counter}
    (hsource : e.source.counter = some counter) :
    executeKeyAction out s e =
      if (trackRefcountedOutputBucket s counter e.bucket e.code e.value).2 then
        write out (trackRefcountedOutputBucket s counter e.bucket e.code e.value).1 e
      else (trackRefcountedOutputBucket s counter e.bucket e.code e.value).1 := by
  unfold executeKeyAction
  rw [hsource]

/-- A press and a repeat written to a recorded code leave it recorded. -/
theorem write_keeps_held (out : Outputs) (hvalue : e.value ≠ .release)
    (hheld : e.code ∈ s.held e.bucket) : e.code ∈ (write out s e).held e.bucket := by
  rw [write_held]
  split
  · cases hv : e.value with
    | press => simp [heldAfter]
    | hold => exact hheld
    | release => exact absurd hv hvalue
  · exact hheld

/-- A counted event loses its key when its tracker forgets it and nothing is written. -/
theorem counted_tracked (out : Outputs) (hs : Tracked s) {counter : Counter}
    (hsource : e.source.counter = some counter) :
    ((e.bucket, e.code) ∈ (executeKeyAction out s e).down →
        e.code ∈ (executeKeyAction out s e).held e.bucket) ↔
      ¬ (e.value = .release ∧ (e.bucket, e.code) ∈ s.down ∧
        s.count counter e.bucket e.code ≤ 1 ∧
        ¬ (s.count counter e.bucket e.code = 1 ∧ Reaches out s e)) := by
  have hbefore := hs e.bucket e.code
  have hheld := track_held s counter e.bucket e.bucket e.code e.value
  rw [if_pos rfl, tracked_held] at hheld
  have hdown := track_down s counter e.bucket e.code e.value
  have hreaches := track_reaches out s counter e
  rw [executeKeyAction_counted out s hsource]
  cases hv : e.value with
  | press =>
    rw [hv] at hheld
    have hin : e.code ∈ (trackRefcountedOutputBucket s counter e.bucket e.code .press).1.held
        e.bucket := by simp [hheld]
    have hwrite := write_keeps_held out (by simp [hv]) hin
    split <;> simp [hin, hwrite]
  | hold =>
    rw [hv] at hheld hdown
    have hemits : (trackRefcountedOutputBucket s counter e.bucket e.code .hold).2 = true := rfl
    have hkeeps : e.code ∈ s.held e.bucket → e.code ∈
        (write out (trackRefcountedOutputBucket s counter e.bucket e.code .hold).1 e).held
          e.bucket :=
      fun h => write_keeps_held out (by simp [hv]) (by simpa [hheld] using h)
    simp only [hemits, if_true, write_down, hv, deviceAfter, ite_self, hdown]
    simpa using fun h => hkeeps (hbefore h)
  | release =>
    rw [hv] at hheld hdown hreaches
    have hemits := (release_emits s counter e.bucket e.code).1
    simp only [true_and] at hheld
    by_cases hle : s.count counter e.bucket e.code ≤ 1
    · rw [if_pos hle] at hheld
      by_cases hone : s.count counter e.bucket e.code = 1
      · rw [if_pos (hemits.mpr hone)]
        simp only [write_down, write_held, hreaches, hdown, hheld, hv]
        by_cases hwritten : Reaches out s e
        · simp [hwritten, deviceAfter, hone]
        · simp [hwritten, hone]
      · rw [if_neg (fun h => hone (hemits.mp h))]
        simp [hdown, hheld, hle, hone]
    · rw [if_neg hle, if_neg (by simp)] at hheld
      have hquiet : ¬ (trackRefcountedOutputBucket s counter e.bucket e.code .release).2 = true :=
        fun h => hle (by rw [hemits.mp h])
      rw [if_neg hquiet, hdown, hheld]
      simpa [hle] using hbefore

/-- The exact condition for one event. -/
theorem tracked_key_iff (out : Outputs) (hs : Tracked s) (e : KeyEvent) :
    Tracked (executeKeyAction out s e) ↔ ¬ Loses out s e := by
  rw [tracked_executeKeyAction out hs e]
  unfold Loses
  cases hsource : e.source.counter with
  | none =>
    have hplain : executeKeyAction out s e = write out s e := by
      unfold executeKeyAction
      rw [hsource]
    rw [hplain]
    exact plain_tracked out hs hsource
  | some counter => exact counted_tracked out hs hsource

theorem opened_write (out : Outputs) (hs : Opened out s) (e : KeyEvent) :
    Opened out (write out s e) := by
  intro bucket code hdown
  rw [write_down] at hdown
  split at hdown
  · rename_i hreaches
    cases hv : e.value with
    | press =>
      rw [hv] at hdown
      obtain heq | hold := Finset.mem_insert.mp hdown
      · rw [(Prod.mk.inj heq).1]
        exact hreaches.1
      · exact hs bucket code hold
    | release =>
      rw [hv] at hdown
      exact hs bucket code (Finset.mem_of_mem_erase hdown)
    | hold =>
      rw [hv] at hdown
      exact hs bucket code hdown
  · exact hs bucket code hdown

theorem opened_executeKeyAction (out : Outputs) (hs : Opened out s) (e : KeyEvent) :
    Opened out (executeKeyAction out s e) := by
  unfold executeKeyAction
  cases e.source.counter with
  | none => exact opened_write out hs e
  | some counter =>
    have htrack : Opened out (trackRefcountedOutputBucket s counter e.bucket e.code e.value).1 := by
      intro bucket code hdown
      exact hs bucket code (by rwa [track_down] at hdown)
    simp only
    split
    · exact opened_write out htrack e
    · exact htrack

/-! ## Release of all keys -/

theorem getD_clearBucket (d : Dict Bucket (Finset Int)) (bucket bucket' : Bucket) :
    (clearBucket d bucket).getD bucket' ∅ = if bucket' = bucket then ∅ else d.getD bucket' ∅ := by
  unfold clearBucket
  by_cases hin : d.contains bucket = true
  · rw [if_pos hin]
    exact getD_insert_bucket d bucket bucket' ∅ ∅
  · rw [if_neg hin]
    split
    · rename_i hbucket
      have hnone : d.get? bucket = none := by
        simpa [Dict.contains] using hin
      simp [hbucket, Dict.getD, hnone]
    · rfl

theorem clear_held (s : State) (bucket bucket' : Bucket) :
    (clearHeldOutputBucket s bucket).held bucket' = if bucket' = bucket then ∅ else s.held bucket' :=
  getD_clearBucket s.device.heldOutputKeys bucket bucket'

theorem mem_writeReleases {bucket' : Bucket} {codes : List Int} :
    (bucket', code) ∈ (writeReleases s bucket codes).down ↔
      (bucket', code) ∈ s.down ∧ ¬ (bucket' = bucket ∧ code ∈ codes) := by
  simp [writeReleases]

/-- What holds of the outputs between the steps of a run. -/
def Sound (out : Outputs) (s : State) : Prop := Tracked s ∧ Opened out s

theorem opened_of_fewer {out : Outputs} {t : State} (hs : Opened out s)
    (hfewer : ∀ b code, (b, code) ∈ t.down → (b, code) ∈ s.down) : Opened out t :=
  fun b code h => hs b code (hfewer b code h)

theorem releaseBucket_fewer (out : Outputs) (failures : Bucket → Option Nat) (s : State)
    (bucket b : Bucket) (code : Int)
    (h : (b, code) ∈ (releaseBucket out failures s bucket).down) : (b, code) ∈ s.down := by
  unfold releaseBucket at h
  split at h
  · exact h
  · simp only at h
    split at h
    · exact h
    · cases hfailure : failures bucket with
      | none
      | some written =>
        rw [hfailure] at h
        exact (mem_writeReleases.mp h).1

/-- A bucket is released: what it held is up, or its failed writes leave it recorded. -/
theorem releaseBucket_tracked (out : Outputs) (failures : Bucket → Option Nat) (hs : Sound out s)
    (bucket : Bucket) : Tracked (releaseBucket out failures s bucket) := by
  obtain ⟨htracked, hopened⟩ := hs
  intro b code hdown
  have hsdown := releaseBucket_fewer out failures s bucket b code hdown
  have hbefore := htracked b code hsdown
  unfold releaseBucket at hdown ⊢
  split
  · rename_i hclosed
    have hb : b ≠ bucket := fun h => hclosed (h ▸ hopened b code hsdown)
    rw [clear_held, if_neg hb]
    exact hbefore
  · rename_i hwriter
    rw [if_neg hwriter] at hdown
    simp only at hdown ⊢
    split
    · exact hbefore
    · rename_i hheld
      rw [if_neg hheld] at hdown
      cases hfailure : failures bucket with
      | some written => exact hbefore
      | none =>
        rw [hfailure] at hdown
        have hnot := (mem_writeReleases.mp hdown).2
        have hb : b ≠ bucket := fun h => hnot ⟨h, by rw [← h]; simpa using hbefore⟩
        rw [clear_held, if_neg hb]
        exact hbefore

theorem releaseBucket_sound (out : Outputs) (failures : Bucket → Option Nat) (hs : Sound out s)
    (bucket : Bucket) : Sound out (releaseBucket out failures s bucket) :=
  ⟨releaseBucket_tracked out failures hs bucket,
    opened_of_fewer hs.2 (releaseBucket_fewer out failures s bucket)⟩

/-- A bucket whose release does not fail has nothing down afterwards. -/
theorem releaseBucket_up (out : Outputs) (failures : Bucket → Option Nat) (hs : Sound out s)
    (hnone : failures bucket = none) (code : Int) :
    (bucket, code) ∉ (releaseBucket out failures s bucket).down := by
  intro hdown
  have hbefore := releaseBucket_fewer out failures s bucket bucket code hdown
  have hheld := hs.1 bucket code hbefore
  unfold releaseBucket at hdown
  rw [if_neg (by simp [hs.2 bucket code hbefore])] at hdown
  simp only at hdown
  split at hdown
  · rename_i hempty
    have hmem : code ∈ (s.held bucket).sort (· ≤ ·) := by simpa using hheld
    rw [hempty] at hmem
    cases hmem
  · rw [hnone] at hdown
    exact (mem_writeReleases.mp hdown).2 ⟨rfl, by simpa using hheld⟩

theorem releaseBuckets_sound (out : Outputs) (failures : Bucket → Option Nat)
    (buckets : List Bucket) (hs : Sound out s) :
    Sound out (buckets.foldl (releaseBucket out failures) s) ∧
      ∀ b code, (b, code) ∈ (buckets.foldl (releaseBucket out failures) s).down →
        (b, code) ∈ s.down ∧ (b ∈ buckets → failures b ≠ none) := by
  induction buckets generalizing s with
  | nil => exact ⟨hs, fun b code h => ⟨h, by simp⟩⟩
  | cons bucket buckets ih =>
    obtain ⟨hsound, hdown⟩ := ih (releaseBucket_sound out failures hs bucket)
    refine ⟨hsound, fun b code h => ?_⟩
    obtain ⟨hmid, hlater⟩ := hdown b code h
    refine ⟨releaseBucket_fewer out failures s bucket b code hmid, fun hb hnone => ?_⟩
    obtain heq | hlist := List.mem_cons.mp hb
    · rw [heq] at hmid hnone
      exact releaseBucket_up out failures hs hnone code hmid
    · exact hlater hlist hnone

/-- The buckets gone through hold every recorded code. -/
theorem mem_releasedBuckets (h : code ∈ s.held bucket) : bucket ∈ releasedBuckets s := by
  have hkey : bucket ∈ s.device.heldOutputKeys.keys := by
    rw [← Dict.contains_iff]
    unfold Dict.contains
    cases hget : s.device.heldOutputKeys.get? bucket with
    | some held => rfl
    | none => simp [State.held, Dict.getD, hget] at h
  cases bucket <;> simp [releasedBuckets, isVirtualGamepad, hkey]

theorem releaseAllKeys_sound (out : Outputs) (failures : Bucket → Option Nat) (hs : Sound out s) :
    Sound out (releaseAllKeys out failures s) :=
  (releaseBuckets_sound out failures _ (s := { s with device := { s.device with
    blockedOutputKeys := ∅ } }) hs).1

/-- What is still down after a release of all keys is in a bucket whose release failed. -/
theorem releaseAllKeys_up (out : Outputs) (failures : Bucket → Option Nat) (hs : Sound out s)
    (h : (bucket, code) ∈ (releaseAllKeys out failures s).down) : failures bucket ≠ none := by
  obtain ⟨hbefore, hfailed⟩ := (releaseBuckets_sound out failures _ (s := { s with
    device := { s.device with blockedOutputKeys := ∅ } }) hs).2 bucket code h
  exact hfailed (mem_releasedBuckets (s := { s with
    device := { s.device with blockedOutputKeys := ∅ } }) (hs.1 bucket code hbefore))

/-! ## Runs -/

/-- A step keeps the outputs sound exactly if its event loses no key. -/
theorem sound_perform_iff (out : Outputs) (hs : Sound out s) (a : Step) :
    Sound out (perform out s a) ↔ Keeps out s a := by
  cases a with
  | key e =>
    refine ⟨fun h => (tracked_key_iff out hs.1 e).mp h.1, fun h => ?_⟩
    exact ⟨(tracked_key_iff out hs.1 e).mpr h, opened_executeKeyAction out hs.2 e⟩
  | blockKeyboard blocked => exact ⟨fun _ => trivial, fun _ => hs⟩
  | releaseAllKeys failures => exact ⟨fun _ => trivial, fun _ => releaseAllKeys_sound out failures hs⟩

theorem sound_initial (out : Outputs) : Sound out {} := by
  refine ⟨?_, ?_⟩
  · intro bucket code h
    simp at h
  · intro bucket code h
    simp at h

/- Along a run in which no event loses a key, every key that is down is recorded,
a release of all keys leaves down only what its failed writes left, and a tracker
emits the first press and the last release of each code. -/
theorem down_keys_are_tracked (out : Outputs) (as : List Step) (s : State)
    (hkeeps : Guarded (step out) (Keeps out) {} as) (hrun : run (step out) {} as = some s) :
    Tracked s ∧
      (∀ failures bucket code, failures bucket = none →
        (bucket, code) ∉ (releaseAllKeys out failures s).down) ∧
      ∀ counter bucket code,
        let pressed := trackRefcountedOutputBucket s counter bucket code .press
        let released := trackRefcountedOutputBucket s counter bucket code .release
        (pressed.2 = true ↔
            s.count counter bucket code = 0 ∧ pressed.1.count counter bucket code = 1) ∧
          (released.2 = true ↔
            s.count counter bucket code = 1 ∧ released.1.count counter bucket code = 0) := by
  have hsound : Sound out s := by
    refine guarded_run_invariant ?_ (sound_initial out) hkeeps hrun
    intro s a t hs hkeep hstep
    cases hstep
    exact (sound_perform_iff out hs a).mpr hkeep
  refine ⟨hsound.1, fun failures bucket code hnone h => ?_, fun counter bucket code => ?_⟩
  · exact releaseAllKeys_up out failures hsound h hnone
  · exact tracker_emits s counter bucket code

/- An overload superkey presses code 30, all keys are released, a plain action
presses it, and the button of the superkey is let go of late. -/
def lateRelease : List Step :=
  [.key ⟨.overload, .keyboard, 30, .press, none⟩, .releaseAllKeys fun _ => none,
    .key ⟨.plain, .keyboard, 30, .press, none⟩, .key ⟨.overload, .keyboard, 30, .release, none⟩]

def keyboardOnly : Outputs := ⟨fun bucket => bucket = .keyboard, fun code => 0 < code⟩

theorem late_release_loses_key :
    ¬ ∀ (out : Outputs) (as : List Step) (s : State), run (step out) {} as = some s →
      Tracked s ∧ ∀ bucket code, (bucket, code) ∉ (releaseAllKeys out (fun _ => none) s).down := by
  intro h
  have hrun : ∃ s, run (step keyboardOnly) {} lateRelease = some s ∧
      (Bucket.keyboard, (30 : Int)) ∈ (releaseAllKeys keyboardOnly (fun _ => none) s).down :=
    ⟨_, rfl, by decide +kernel⟩
  obtain ⟨s, hs, hdown⟩ := hrun
  exact (h keyboardOnly lateRelease s hs).2 .keyboard 30 hdown

/-- A superkey presses a key, and then a plain mapping presses it too. -/
theorem shared_press_is_tracked :
    ∃ s, run (step keyboardOnly) {}
        [.key ⟨.superkey 0, .keyboard, 30, .press, none⟩,
          .key ⟨.plain, .keyboard, 30, .press, none⟩] = some s ∧
      Tracked s := by
  refine ⟨_, rfl, (down_keys_are_tracked keyboardOnly
    [.key ⟨.superkey 0, .keyboard, 30, .press, none⟩,
      .key ⟨.plain, .keyboard, 30, .press, none⟩] _ ?_ rfl).1⟩
  refine ⟨?_, ?_, trivial⟩
  · simp [Keeps, Loses, Source.counter]
  · simp [Keeps, Loses, Source.counter]

end Keymasq.Device.HeldOutputs
