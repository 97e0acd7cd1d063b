import Keymasq.Device.Mapped
import Keymasq.Foundation.Alternation

/-!
# The reader of a grabbed device

Key events wait in the kernel until the reader takes them. A new mapping asks
the reader to compare the held keys with the key state of the kernel. The query
drops the events that are still unread, so they are moved to a buffer first and
what was lost in between is repaired.
-/

namespace Keymasq.Device.Reader
open Foundation Foundation.Alternation Foundation.Sorting Foundation.Transition Mapped

/-- The reader is between two events, moves unread events to its buffer, or is about to query. -/
inductive Phase
  | idle
  | draining (read : ℕ)
  | querying
  deriving DecidableEq

/-- `down` is the key state of the kernel and `queue` the events the reader has not read. -/
structure Reader (K A O : Type*) where
  down : List K := []
  queue : List (K × ℤ) := []
  inputEventBuffer : List (K × ℤ) := []
  keyStateReconcileRequested : Bool := false
  phase : Phase := .idle
  paused : Bool := false
  device : GrabbedDevice A O := {}

inductive Label (K A : Type*)
  | key (code : K) (value : ℤ)
  | pause
  | resume
  | setMapping (mapping : Dict String A)
  | deliver (recordingActive : Bool)
  | startReconcile
  | drain
  | query

variable {K A O : Type*} [LinearOrder K] (keys : SourceKeys K) (effects : ActionEffects K A O)

def keyStateDrainLimit : ℕ := 4096

/-- The kernel keeps a key event and changes its key state, whatever the reader does. -/
def physicalEvent (s : Reader K A O) (code : K) (value : ℤ) : Option (Reader K A O) :=
  if value = 1 ∧ code ∉ s.down then
    some { s with down := s.down ++ [code], queue := s.queue ++ [(code, value)] }
  else if value = 2 ∧ code ∈ s.down then some { s with queue := s.queue ++ [(code, value)] }
  else if value = 0 ∧ code ∈ s.down then
    some { s with down := s.down.filter (· ≠ code), queue := s.queue ++ [(code, value)] }
  else none

/-- The event the reader yields next, and the reader without it. -/
def nextEvent (s : Reader K A O) : Option ((K × ℤ) × Reader K A O) :=
  match s.inputEventBuffer, s.queue with
  | event :: rest, _ => some (event, { s with inputEventBuffer := rest })
  | [], event :: rest => some (event, { s with queue := rest })
  | [], [] => none

def step (s : Reader K A O) : Label K A → Option (Reader K A O)
  | .key code value => physicalEvent s code value
  | .pause => if s.phase = .idle then some { s with paused := true } else none
  | .resume => if s.phase = .idle then some { s with paused := false } else none
  | .setMapping mapping =>
    if s.phase = .idle then
      some { s with
        device := { s.device with mapping := mapping }
        keyStateReconcileRequested := true }
    else none
  | .deliver recordingActive =>
    if s.phase = .idle ∧ (s.keyStateReconcileRequested = false ∨ s.inputEventBuffer ≠ []) then
      (nextEvent s).map fun (event, s) => { s with
        device := processKeyEvent keys effects s.device s.paused recordingActive event.1 event.2 }
    else none
  | .startReconcile =>
    if s.phase = .idle ∧ s.keyStateReconcileRequested = true ∧ s.inputEventBuffer = [] then
      some { s with keyStateReconcileRequested := false, phase := .draining 0 }
    else none
  | .drain =>
    match s.phase, s.queue with
    | .draining _, [] => some { s with phase := .querying }
    | .draining read, event :: rest =>
      let s := { s with queue := rest, inputEventBuffer := s.inputEventBuffer ++ [event] }
      -- The queue may not be empty yet, so the query waits until this batch is delivered.
      if read + 1 = keyStateDrainLimit then
        some { s with phase := .idle, keyStateReconcileRequested := true }
      else some { s with phase := .draining (read + 1) }
    | _, _ => none
  | .query =>
    if s.phase = .querying then
      let (device, buffer) := reconcileKeyState keys effects s.device s.inputEventBuffer s.down
      some { s with device, inputEventBuffer := buffer, queue := [], phase := .idle }
    else none

/-- The device as it is grabbed: keys that are down already are seeded as held. -/
def start (mapping : Dict String A) (down : List K) : Reader K A O where
  down := down
  device := seedStartupHeldActions keys effects { mapping := mapping } (sortedOn id down)

/-! ## What the device holds -/

/-- The name is followed as held. -/
def Holds (d : GrabbedDevice A O) (name : String) : Prop :=
  name ∈ d.heldSourceKeys ∨ d.heldSourceActions.contains name = true

instance (d : GrabbedDevice A O) (name : String) : Decidable (Holds d name) := by
  unfold Holds
  infer_instance

def Named (d : GrabbedDevice A O) : Prop := ∀ name, Holds d name → ∃ code, keys.eventName code = name

section Device

variable {keys} {effects} {d d' : GrabbedDevice A O} {name : String} {code : K} {value : ℤ}

omit [LinearOrder K] in
theorem eventName_injective : Function.Injective keys.eventName := by
  intro code code' h
  have hcode := keys.codeOf_eventName code
  rw [h, keys.codeOf_eventName] at hcode
  exact (Option.some.inj hcode).symm

theorem holds_congr (hkeys : d'.heldSourceKeys = d.heldSourceKeys)
    (hactions : d'.heldSourceActions = d.heldSourceActions) : Holds d' name ↔ Holds d name := by
  rw [Holds, Holds, hkeys, hactions]

/-- A change of one name: other names are held as before. -/
def Touches (name : String) (d d' : GrabbedDevice A O) : Prop :=
  ∀ other, other ≠ name → (Holds d' other ↔ Holds d other)

theorem Touches.refl : Touches name d d := fun _ _ => Iff.rfl

theorem Touches.trans {d'' : GrabbedDevice A O} (h : Touches name d d')
    (h' : Touches name d' d'') : Touches name d d'' :=
  fun other hne => (h' other hne).trans (h other hne)

theorem touches_observe (name : String) (value : ℤ) :
    Touches name d (observeSourceKeyTransition d name value) := by
  intro other hne
  unfold observeSourceKeyTransition Holds
  split
  · split
    · exact Iff.rfl
    · simp only [List.mem_append, List.mem_singleton, hne, or_false]
  · split
    · simp only [List.mem_filter, hne, ne_eq, not_false_eq_true, decide_true, and_true]
    · exact Iff.rfl

omit [LinearOrder K] in
theorem touches_emitPassthroughEvent (code : K) (value : ℤ) :
    Touches (keys.eventName code) d (emitPassthroughEvent keys effects d code value) := by
  intro other hne
  unfold emitPassthroughEvent
  have hpress : Holds (if keys.defaultRoute.isSome ∧ value = 1 ∧
      d.heldSourceActions.contains (keys.eventName code) = false then
        { d with heldSourceActions := d.heldSourceActions.insert (keys.eventName code) none }
      else d) other ↔ Holds d other := by
    split
    · simp only [Holds, Dict.contains_insert, hne, false_or]
    · exact Iff.rfl
  simp only
  split
  · exact hpress
  · exact (holds_congr rfl rfl).trans hpress

omit [LinearOrder K] in
theorem touches_executeOrPassthrough (action : Option A) (code : K) (value : ℤ) :
    Touches (keys.eventName code) d (executeOrPassthrough keys effects d action code value) := by
  cases action with
  | none => exact touches_emitPassthroughEvent code value
  | some action => exact fun _ _ => holds_congr rfl rfl

omit [LinearOrder K] in
theorem touches_applyMapped (code : K) (value : ℤ) :
    Touches (keys.eventName code) d (applyMappedActionOrPassthrough keys effects d code value) := by
  have hhold : Touches (keys.eventName code) d (holdSourceAction keys d code value) := by
    intro other hne
    unfold holdSourceAction
    split
    · simp only [Holds, Dict.contains_insert, hne, false_or]
    · exact Iff.rfl
  have hdone : Touches (keys.eventName code) d (executeOrPassthrough keys effects
      (holdSourceAction keys d code value) (sourceAction keys d code value) code value) :=
    hhold.trans (touches_executeOrPassthrough _ code value)
  unfold applyMappedActionOrPassthrough
  simp only
  split
  · refine hdone.trans fun other hne => ?_
    simp only [Holds, Dict.contains_erase, hne, ne_eq, not_false_eq_true, true_and]
  · exact hdone

omit [LinearOrder K] in
theorem touches_dispatchKey (recordingActive : Bool) (code : K) (value : ℤ) :
    Touches (keys.eventName code) d
      (dispatchKey keys effects d recordingActive code value) := by
  unfold dispatchKey
  split
  · exact touches_emitPassthroughEvent code value
  · exact touches_applyMapped code value

omit [LinearOrder K] in
theorem heldSourceKeys_dispatchKey (recordingActive : Bool) (code : K) (value : ℤ) :
    (dispatchKey keys effects d recordingActive code value).heldSourceKeys =
      d.heldSourceKeys := by
  have hpass : ∀ u : GrabbedDevice A O,
      (emitPassthroughEvent keys effects u code value).heldSourceKeys = u.heldSourceKeys := by
    intro u
    unfold emitPassthroughEvent
    split <;> split <;> rfl
  have hhold : (holdSourceAction keys d code value).heldSourceKeys = d.heldSourceKeys := by
    unfold holdSourceAction
    split <;> rfl
  unfold dispatchKey
  split
  · exact hpass d
  · unfold applyMappedActionOrPassthrough executeOrPassthrough
    simp only
    split
    · split
      · exact hhold
      · exact (hpass _).trans hhold
    · split
      · exact hhold
      · exact (hpass _).trans hhold

omit [LinearOrder K] in
/-- The release of a key leaves no action held by it. -/
theorem not_contains_dispatchKey (recordingActive : Bool) (code : K) :
    (dispatchKey keys effects d recordingActive code 0).heldSourceActions.contains
      (keys.eventName code) = false := by
  unfold dispatchKey
  split
  · rename_i hfast
    unfold emitPassthroughEvent
    rw [if_neg (fun hpress => absurd hpress.2.1 (by decide))]
    split
    · exact hfast.2.2
    · exact hfast.2.2
  · unfold applyMappedActionOrPassthrough
    simp only [if_true]
    rw [Dict.contains, Dict.get?_erase_self]
    rfl

omit [LinearOrder K] in
theorem intercept_held (paused : Bool) (name : String) (value : ℤ) :
    (interceptPausedOrQuarantinedInput d paused name value).1.heldSourceKeys = d.heldSourceKeys ∧
      (interceptPausedOrQuarantinedInput d paused name value).1.heldSourceActions =
        d.heldSourceActions := by
  unfold interceptPausedOrQuarantinedInput
  split
  · split <;> exact ⟨rfl, rfl⟩
  · split
    · exact ⟨rfl, rfl⟩
    · split
      · exact ⟨rfl, rfl⟩
      · split <;> exact ⟨rfl, rfl⟩

omit [LinearOrder K] in
theorem touches_processKeyEvent (paused recordingActive : Bool) (code : K) (value : ℤ) :
    Touches (keys.eventName code) d
      (processKeyEvent keys effects d paused recordingActive code value) := by
  have hheld := intercept_held (d := d) paused (keys.eventName code) value
  unfold processKeyEvent
  simp only
  split
  · exact fun _ _ => holds_congr hheld.1 hheld.2
  · refine Touches.trans (fun _ _ => holds_congr hheld.1 hheld.2) ?_
    exact (touches_observe _ value).trans (touches_dispatchKey recordingActive code value)

/-- The release of a key that is neither refused for a pause nor for its quarantine. -/
def Accepts (paused : Bool) (d : GrabbedDevice A O) (name : String) : Prop :=
  paused = false ∧ name ∉ d.quarantinedSourceKeys

omit [LinearOrder K] in
theorem not_holds_release {paused : Bool} (recordingActive : Bool) (code : K)
    (haccepts : Accepts paused d (keys.eventName code)) :
    ¬Holds (processKeyEvent keys effects d paused recordingActive code 0)
      (keys.eventName code) := by
  have hgoes : interceptPausedOrQuarantinedInput d paused (keys.eventName code) 0 = (d, false) := by
    simp only [interceptPausedOrQuarantinedInput, haccepts.1, haccepts.2, Bool.false_eq_true,
      if_false, not_false_eq_true, if_true]
  unfold processKeyEvent
  simp only [hgoes, Bool.false_eq_true, if_false]
  rintro (hkey | haction)
  · rw [heldSourceKeys_dispatchKey] at hkey
    simp only [observeSourceKeyTransition, Int.reduceEq, if_false, if_true, List.mem_filter,
      ne_eq, not_true, decide_false, and_false, Bool.false_eq_true] at hkey
  · rw [not_contains_dispatchKey] at haction
    cases haction

omit [LinearOrder K] in
theorem holds_refused {paused : Bool} (recordingActive : Bool) (code : K)
    (hrefused : ¬Accepts paused d (keys.eventName code)) (name : String) :
    Holds (processKeyEvent keys effects d paused recordingActive code 0) name ↔ Holds d name := by
  have hstops : (interceptPausedOrQuarantinedInput d paused (keys.eventName code) 0).2 = true := by
    unfold interceptPausedOrQuarantinedInput
    by_cases hpaused : paused = true
    · simp only [hpaused, if_true, Int.reduceEq, or_self, if_false]
    · rw [Bool.not_eq_true] at hpaused
      have hquarantined : ¬keys.eventName code ∉ d.quarantinedSourceKeys :=
        fun hnot => hrefused ⟨hpaused, hnot⟩
      simp only [hpaused, hquarantined, Bool.false_eq_true, if_false, Int.reduceEq, if_true]
  have hheld := intercept_held (d := d) paused (keys.eventName code) 0
  unfold processKeyEvent
  simp only [hstops, if_true]
  exact holds_congr hheld.1 hheld.2

omit [LinearOrder K] in
/-- Only a release ends that a name is held. -/
theorem holds_processKeyEvent {paused : Bool} (recordingActive : Bool) (code : K)
    (hvalue : value ≠ 0) (h : Holds d name) :
    Holds (processKeyEvent keys effects d paused recordingActive code value) name := by
  have hpass : ∀ u : GrabbedDevice A O, u.heldSourceActions.contains name = true →
      (emitPassthroughEvent keys effects u code value).heldSourceActions.contains name = true := by
    intro u hu
    have hpress : (if keys.defaultRoute.isSome ∧ value = 1 ∧
        u.heldSourceActions.contains (keys.eventName code) = false then
          { u with heldSourceActions := u.heldSourceActions.insert (keys.eventName code) none }
        else u).heldSourceActions.contains name = true := by
      split
      · exact Dict.contains_insert.mpr (Or.inr hu)
      · exact hu
    unfold emitPassthroughEvent
    simp only
    split
    · exact hpress
    · exact hpress
  have hhold : ∀ u : GrabbedDevice A O, u.heldSourceActions.contains name = true →
      (holdSourceAction keys u code value).heldSourceActions.contains name = true := by
    intro u hu
    unfold holdSourceAction
    split
    · exact Dict.contains_insert.mpr (Or.inr hu)
    · exact hu
  have hdispatch : ∀ u : GrabbedDevice A O, Holds u name →
      Holds (dispatchKey keys effects u recordingActive code value) name := by
    rintro u (hkey | haction)
    · left
      rw [heldSourceKeys_dispatchKey]
      exact hkey
    · right
      unfold dispatchKey
      split
      · exact hpass u haction
      · unfold applyMappedActionOrPassthrough executeOrPassthrough
        simp only [if_neg hvalue]
        split
        · exact hhold u haction
        · exact hpass _ (hhold u haction)
  have hheld := intercept_held (d := d) paused (keys.eventName code) value
  unfold processKeyEvent
  simp only
  split
  · exact (holds_congr hheld.1 hheld.2).mpr h
  · refine hdispatch _ ?_
    have hbefore : Holds _ name := (holds_congr hheld.1 hheld.2).mpr h
    simp only [observeSourceKeyTransition, if_neg hvalue]
    split
    · split
      · exact hbefore
      · exact hbefore.imp_left (List.mem_append_left _)
    · exact hbefore

omit [LinearOrder K] in
/-- A key that is seeded is held, and no other name changes. -/
theorem holds_seed (code : K) (name : String) :
    Holds (seedStartupHeldAction keys effects d code) name ↔
      name = keys.eventName code ∨ Holds d name := by
  unfold seedStartupHeldAction
  simp only
  split
  · rename_i hcontains
    constructor
    · exact Or.inr
    · rintro (rfl | hname)
      · exact Or.inr hcontains
      · exact hname
  · have hkeys : ∀ held : List String, name ∈ (if keys.eventName code ∈ held then held
        else held ++ [keys.eventName code]) ↔ name = keys.eventName code ∨ name ∈ held := by
      intro held
      split
      · rename_i hmem
        constructor
        · exact Or.inr
        · rintro (rfl | hname)
          · exact hmem
          · exact hname
      · rw [List.mem_append, List.mem_singleton, or_comm]
    have hseeded : (name ∈ (if keys.eventName code ∈ d.heldSourceKeys then d.heldSourceKeys
        else d.heldSourceKeys ++ [keys.eventName code]) ∨
        (d.heldSourceActions.insert (keys.eventName code)
          (findActionForCode keys d.mapping code 1)).contains name = true) ↔
        name = keys.eventName code ∨ Holds d name := by
      rw [hkeys, Dict.contains_insert, Holds]
      tauto
    split
    · exact hseeded
    · exact hseeded

omit [LinearOrder K] in
theorem holds_seeds (codes : List K) (name : String) :
    Holds (seedStartupHeldActions keys effects d codes) name ↔
      (∃ code ∈ codes, keys.eventName code = name) ∨ Holds d name := by
  unfold seedStartupHeldActions
  induction codes generalizing d with
  | nil => simp
  | cons code codes ih =>
    rw [List.foldl_cons, ih, holds_seed, or_left_comm]
    simp only [List.mem_cons, exists_eq_or_imp, or_assoc, @eq_comm String name]

omit [LinearOrder K] in
theorem mem_heldCodes (hnamed : Named keys d) :
    code ∈ heldCodes keys d ↔ Holds d (keys.eventName code) := by
  have hholds : ∀ name, name ∈ d.heldSourceKeys ++ d.heldSourceActions.keys ↔ Holds d name := by
    intro name
    rw [List.mem_append, Holds, Dict.contains_iff]
  rw [heldCodes, List.mem_filterMap]
  constructor
  · rintro ⟨name, hname, hcode⟩
    obtain ⟨code', rfl⟩ := hnamed name ((hholds name).mp hname)
    rw [keys.codeOf_eventName] at hcode
    cases hcode
    exact (hholds _).mp hname
  · intro hheld
    exact ⟨_, (hholds _).mpr hheld, keys.codeOf_eventName code⟩

/-- What the history leads to, and what it follows. -/
theorem mem_projected (held : List K) (buffer : List (K × ℤ)) (code : K) :
    (code ∈ (buffer.foldl projectEvent (held, held)).1 ↔
      match lastValue code buffer with
      | some value => value ≠ 0
      | none => code ∈ held) ∧
    (code ∈ (buffer.foldl projectEvent (held, held)).2 ↔
      lastValue code buffer ≠ none ∨ code ∈ held) := by
  induction buffer using List.reverseRecOn with
  | nil => simp
  | append_singleton buffer event ih =>
    obtain ⟨changed, value⟩ := event
    rw [List.foldl_append]
    generalize buffer.foldl projectEvent (held, held) = state at ih
    obtain ⟨projected, known⟩ := state
    simp only [List.foldl_cons, List.foldl_nil, projectEvent]
    by_cases hcode : changed = code
    · subst hcode
      rw [lastValue_append_self]
      constructor
      · by_cases hvalue : value = 0
        · simp [hvalue]
        · by_cases hmem : changed ∈ projected <;> simp [hvalue, hmem]
      · by_cases hmem : changed ∈ known <;> simp [hmem]
    · rw [lastValue_append_of_ne hcode]
      have hne : code ≠ changed := fun heq => hcode heq.symm
      refine ⟨Iff.trans ?_ ih.1, Iff.trans ?_ ih.2⟩
      · by_cases hvalue : value = 0
        · simp [hvalue, hne]
        · by_cases hmem : changed ∈ projected <;> simp [hvalue, hmem, hne]
      · by_cases hmem : changed ∈ known <;> simp [hmem, hne]

end Device

/-! ## What is pending leads to the key state -/

/-- The events the device has not processed. -/
def Reader.pending (s : Reader K A O) : List (K × ℤ) := s.inputEventBuffer ++ s.queue

/-- A key is down after its pending events, or where none is pending and it is held. -/
structure Follows (s : Reader K A O) : Prop where
  named : Named keys s.device
  pending : ∀ code value, lastValue code s.pending = some value → (value ≠ 0 ↔ code ∈ s.down)
  held : ∀ code, lastValue code s.pending = none →
    Holds s.device (keys.eventName code) → code ∈ s.down

/-- The reader takes no release of a held key that the device refuses. -/
def ReleaseAccepted (s : Reader K A O) : Label K A → Prop
  | .deliver _ => match nextEvent s with
    | none => True
    | some (event, _) => event.2 = 0 → Holds s.device (keys.eventName event.1) →
        Accepts s.paused s.device (keys.eventName event.1)
  | _ => True

instance (s : Reader K A O) (label : Label K A) : Decidable (ReleaseAccepted keys s label) := by
  unfold ReleaseAccepted Accepts
  cases label with
  | deliver recordingActive =>
    simp only
    cases nextEvent s with
    | none => exact inferInstanceAs (Decidable True)
    | some next => infer_instance
  | _ => exact inferInstanceAs (Decidable True)

/-- The reader takes a release of the key, and the device processes it. -/
def ProcessesRelease (s : Reader K A O) (code : K) : Prop :=
  ∃ next, nextEvent s = some ((code, 0), next) ∧
    Accepts s.paused s.device (keys.eventName code)

section Runs

variable {keys} {effects} {s s' : Reader K A O}

omit [LinearOrder K] in
theorem nextEvent_pending {event : K × ℤ} {next : Reader K A O}
    (h : nextEvent s = some (event, next)) :
    s.pending = event :: next.pending ∧ next.down = s.down ∧ next.device = s.device ∧
      next.paused = s.paused := by
  unfold nextEvent at h
  split at h
  · rename_i hbuffer
    cases h
    simp only [Reader.pending, hbuffer, List.cons_append, and_self]
  · rename_i hbuffer hqueue
    cases h
    simp only [Reader.pending, hbuffer, hqueue, List.nil_append, and_self]
  · cases h

theorem Follows.physicalEvent {code : K} {value : ℤ} (h : Follows keys s)
    (hevent : physicalEvent s code value = some s') : Follows keys s' := by
  have hchange : ∀ down : List K, (∀ other, other ≠ code → (other ∈ down ↔ other ∈ s.down)) →
      (value ≠ 0 ↔ code ∈ down) →
      Follows keys { s with down := down, queue := s.queue ++ [(code, value)] } := by
    intro down hothers hself
    have hpending : (s.inputEventBuffer ++ (s.queue ++ [(code, value)])) =
        s.pending ++ [(code, value)] := by rw [← List.append_assoc, Reader.pending]
    refine ⟨h.named, fun other v hlast => ?_, fun other hlast hheld => ?_⟩
    · rw [Reader.pending, hpending] at hlast
      by_cases hcode : other = code
      · subst hcode
        rw [lastValue_append_self] at hlast
        cases hlast
        exact hself
      · rw [lastValue_append_of_ne (Ne.symm hcode)] at hlast
        exact (h.pending other v hlast).trans (hothers other hcode).symm
    · rw [Reader.pending, hpending] at hlast
      by_cases hcode : other = code
      · subst hcode
        rw [lastValue_append_self] at hlast
        cases hlast
      · rw [lastValue_append_of_ne (Ne.symm hcode)] at hlast
        exact (hothers other hcode).mpr (h.held other hlast hheld)
  unfold Reader.physicalEvent at hevent
  split at hevent
  · rename_i hpress
    cases hevent
    refine hchange _ (fun other hne => ?_) ?_
    · simp only [List.mem_append, List.mem_singleton, hne, or_false]
    · simp [hpress.1]
  · split at hevent
    · rename_i hrepeat
      cases hevent
      exact hchange s.down (fun _ _ => Iff.rfl) (by simp [hrepeat.1, hrepeat.2])
    · split at hevent
      · rename_i hrelease
        cases hevent
        refine hchange _ (fun other hne => ?_) ?_
        · simp only [List.mem_filter, hne, ne_eq, not_false_eq_true, decide_true, and_true]
        · simp [hrelease.1]
      · cases hevent

theorem Follows.deliver {event : K × ℤ} {next : Reader K A O} (h : Follows keys s)
    (recordingActive : Bool) (hnext : nextEvent s = some (event, next))
    (haccepts : event.2 = 0 → Holds s.device (keys.eventName event.1) →
      Accepts s.paused s.device (keys.eventName event.1)) :
    Follows keys { next with
      device := processKeyEvent keys effects next.device next.paused recordingActive event.1
        event.2 } := by
  obtain ⟨hpending, hdown, hdevice, hpaused⟩ := nextEvent_pending hnext
  obtain ⟨code, value⟩ := event
  have hothers := @touches_processKeyEvent K A O keys effects s.device s.paused recordingActive
    code value
  rw [hdevice, hpaused]
  refine ⟨fun name hheld => ?_, fun other v hlast => ?_, fun other hlast hheld => ?_⟩
  · by_cases hname : name = keys.eventName code
    · exact ⟨code, hname.symm⟩
    · exact h.named name ((hothers name hname).mp hheld)
  · show v ≠ 0 ↔ other ∈ next.down
    rw [hdown]
    refine h.pending other v ?_
    rw [hpending, lastValue_cons]
    have hrest : lastValue other next.pending = some v := hlast
    rw [hrest]
    rfl
  · show other ∈ next.down
    have hrest : lastValue other next.pending = none := hlast
    rw [hdown]
    by_cases hcode : code = other
    · subst hcode
      have hfirst : lastValue code s.pending = some value := by
        rw [hpending, lastValue_cons, hrest, if_pos rfl]
        rfl
      rw [← h.pending code value hfirst]
      rintro rfl
      by_cases haccept : Accepts s.paused s.device (keys.eventName code)
      · exact not_holds_release recordingActive code haccept hheld
      · exact haccept (haccepts rfl ((holds_refused recordingActive code haccept _).mp hheld))
    · refine h.held other ?_ ((hothers _ fun heq => hcode (eventName_injective heq).symm).mp hheld)
      rw [hpending, lastValue_cons, hrest, if_neg hcode]
      rfl

/-- After the repairs the buffered history leads to the queried key state. -/
theorem Follows.query (h : Follows keys s) :
    Follows keys { s with
      device := (reconcileKeyState keys effects s.device s.inputEventBuffer s.down).1
      inputEventBuffer := (reconcileKeyState keys effects s.device s.inputEventBuffer s.down).2
      queue := []
      phase := .idle } := by
  have hprojected : ∀ code, _ ∧ _ := fun code =>
    mem_projected (heldCodes keys s.device).dedup s.inputEventBuffer code
  simp only [List.mem_dedup, mem_heldCodes h.named] at hprojected
  have hlast : ∀ code, lastValue code (s.inputEventBuffer ++
      repairs keys s.device s.inputEventBuffer s.down) =
      if code ∈ s.down ∧ code ∉ (projected keys s.device s.inputEventBuffer).1 ∧
          code ∈ (projected keys s.device s.inputEventBuffer).2 then some 1
      else if code ∈ (projected keys s.device s.inputEventBuffer).1 ∧ code ∉ s.down then some 0
      else lastValue code s.inputEventBuffer := by
    intro code
    simp only [repairs, lastValue_append, lastValue_map, (sortedOn_perm _ _).mem_iff,
      List.mem_filter, decide_eq_true_eq]
    split
    · rfl
    · split <;> rfl
  refine ⟨fun name hheld => ?_, fun code value hvalue => ?_, fun code hnone hheld => ?_⟩
  · rcases (holds_seeds _ _).mp hheld with ⟨code, -, hname⟩ | hheld
    · exact ⟨code, hname⟩
    · exact h.named name hheld
  · change lastValue code (s.inputEventBuffer ++ repairs _ _ _ _ ++ []) = _ at hvalue
    rw [List.append_nil, hlast] at hvalue
    split at hvalue
    · rename_i hpress
      cases hvalue
      simp [hpress.1]
    · rename_i hnopress
      split at hvalue
      · rename_i hrelease
        cases hvalue
        simp [hrelease.2]
      · rename_i hnorelease
        have hmem := (hprojected code).1
        rw [hvalue] at hmem
        have hknown := (hprojected code).2.mpr (Or.inl (by rw [hvalue]; nofun))
        refine Iff.trans hmem.symm ?_
        constructor
        · intro hp
          by_contra hdown
          exact hnorelease ⟨hp, hdown⟩
        · intro hdown
          by_contra hp
          exact hnopress ⟨hdown, hp, hknown⟩
  · change lastValue code (s.inputEventBuffer ++ repairs _ _ _ _ ++ []) = _ at hnone
    rw [List.append_nil, hlast] at hnone
    split at hnone
    · cases hnone
    · split at hnone
      · cases hnone
      · rename_i hnorelease
        rcases (holds_seeds _ _).mp hheld with ⟨seeded, hseeded, hname⟩ | hheld
        · rw [(sortedOn_perm _ _).mem_iff, List.mem_filter] at hseeded
          rw [← eventName_injective hname]
          exact hseeded.1
        · have hmem := (hprojected code).1
          rw [hnone] at hmem
          have hp := hmem.mpr hheld
          by_contra hdown
          exact hnorelease ⟨hp, hdown⟩

theorem Follows.of_same (h : Follows keys s) (hpending : s'.pending = s.pending)
    (hdown : s'.down = s.down) (hkeys : s'.device.heldSourceKeys = s.device.heldSourceKeys)
    (hactions : s'.device.heldSourceActions = s.device.heldSourceActions) : Follows keys s' := by
  have hholds : ∀ name, Holds s'.device name ↔ Holds s.device name :=
    fun _ => holds_congr hkeys hactions
  refine ⟨fun name hheld => h.named name ((hholds name).mp hheld), fun code value hlast => ?_,
    fun code hlast hheld => ?_⟩
  · rw [hdown]
    exact h.pending code value (hpending ▸ hlast)
  · rw [hdown]
    exact h.held code (hpending ▸ hlast) ((hholds _).mp hheld)

theorem Follows.step {label : Label K A} (h : Follows keys s)
    (haccepted : ReleaseAccepted keys s label)
    (hstep : Reader.step keys effects s label = some s') : Follows keys s' := by
  cases label with
  | key code value => exact h.physicalEvent hstep
  | pause
  | resume
  | setMapping mapping
  | startReconcile =>
    simp only [Reader.step] at hstep
    split at hstep
    · cases hstep
      exact h.of_same rfl rfl rfl rfl
    · cases hstep
  | deliver recordingActive =>
    simp only [Reader.step] at hstep
    split at hstep
    · obtain ⟨⟨event, next⟩, hnext, rfl⟩ := Option.map_eq_some_iff.mp hstep
      simp only [ReleaseAccepted, hnext] at haccepted
      exact h.deliver recordingActive hnext haccepted
    · cases hstep
  | drain =>
    simp only [Reader.step] at hstep
    split at hstep
    · cases hstep
      exact h.of_same rfl rfl rfl rfl
    · rename_i read event rest hphase hqueue
      have hmoved : s.inputEventBuffer ++ [event] ++ rest = s.pending := by
        rw [Reader.pending, hqueue, List.append_assoc, List.singleton_append]
      split at hstep
      · cases hstep
        exact h.of_same hmoved rfl rfl rfl
      · cases hstep
        exact h.of_same hmoved rfl rfl rfl
    · cases hstep
  | query =>
    simp only [Reader.step] at hstep
    split at hstep
    · cases hstep
      exact h.query
    · cases hstep

theorem follows_start (mapping : Dict String A) (down : List K) :
    Follows keys (start keys effects mapping down) := by
  have hempty : ∀ name, ¬Holds ({ mapping := mapping } : GrabbedDevice A O) name := by
    rintro name (hkey | haction)
    · cases hkey
    · cases haction
  refine ⟨fun name hheld => ?_, fun code value hlast => ?_, fun code hlast hheld => ?_⟩
  · rcases (holds_seeds _ _).mp hheld with ⟨code, -, hname⟩ | hheld
    · exact ⟨code, hname⟩
    · exact absurd hheld (hempty name)
  · cases hlast
  · rcases (holds_seeds _ _).mp hheld with ⟨seeded, hseeded, hname⟩ | hheld
    · rw [← eventName_injective hname]
      exact (sortedOn_perm _ _).mem_iff.mp hseeded
    · exact absurd hheld (hempty _)

/-- A key stops being held where its release is processed. -/
theorem processesRelease_of_step {label : Label K A} {code : K}
    (hheld : Holds s.device (keys.eventName code))
    (hgone : ¬Holds s'.device (keys.eventName code))
    (hstep : step keys effects s label = some s') :
    (∃ recordingActive, label = .deliver recordingActive) ∧ ProcessesRelease keys s code := by
  have hsame : s'.device.heldSourceKeys = s.device.heldSourceKeys →
      s'.device.heldSourceActions = s.device.heldSourceActions →
      (∃ recordingActive, label = .deliver recordingActive) ∧ ProcessesRelease keys s code :=
    fun hkeys hactions => absurd ((holds_congr hkeys hactions).mpr hheld) hgone
  cases label with
  | key changed value =>
    simp only [step, physicalEvent] at hstep
    split at hstep
    · cases hstep
      exact hsame rfl rfl
    · split at hstep
      · cases hstep
        exact hsame rfl rfl
      · split at hstep
        · cases hstep
          exact hsame rfl rfl
        · cases hstep
  | deliver recordingActive =>
    simp only [step] at hstep
    split at hstep
    · obtain ⟨⟨⟨changed, value⟩, next⟩, hnext, rfl⟩ := Option.map_eq_some_iff.mp hstep
      obtain ⟨-, -, hdevice, hpaused⟩ := nextEvent_pending hnext
      simp only [hdevice, hpaused] at hgone
      refine ⟨⟨_, rfl⟩, ?_⟩
      by_cases hcode : changed = code
      · subst hcode
        by_cases hvalue : value = 0
        · subst hvalue
          refine ⟨next, hnext, ?_⟩
          by_contra hrefused
          exact hgone ((holds_refused recordingActive changed hrefused _).mpr hheld)
        · exact absurd (holds_processKeyEvent recordingActive changed hvalue hheld) hgone
      · have hothers := @touches_processKeyEvent K A O keys effects s.device s.paused
          recordingActive changed value
        exact absurd ((hothers _ fun heq => hcode (eventName_injective heq).symm).mpr hheld) hgone
    · cases hstep
  | query =>
    simp only [step] at hstep
    split at hstep
    · cases hstep
      exact absurd ((holds_seeds _ _).mpr (Or.inr hheld)) hgone
    · cases hstep
  | drain =>
    simp only [step] at hstep
    split at hstep
    · cases hstep
      exact hsame rfl rfl
    · split at hstep
      · cases hstep
        exact hsame rfl rfl
      · cases hstep
        exact hsame rfl rfl
    · cases hstep
  | _ =>
    simp only [step] at hstep
    split at hstep
    · cases hstep
      exact hsame rfl rfl
    · cases hstep

theorem processesRelease_of_run {labels : List (Label K A)} {code : K}
    (hheld : Holds s.device (keys.eventName code))
    (hgone : ¬Holds s'.device (keys.eventName code))
    (hrun : run (step keys effects) s labels = some s') :
    ∃ before recordingActive after u, labels = before ++ .deliver recordingActive :: after ∧
      run (step keys effects) s before = some u ∧ ProcessesRelease keys u code := by
  induction labels generalizing s with
  | nil =>
    cases hrun
    exact absurd hheld hgone
  | cons label labels ih =>
    obtain ⟨u, hu, hrest⟩ := run_cons_eq_some.mp hrun
    by_cases hstill : Holds u.device (keys.eventName code)
    · obtain ⟨before, recordingActive, after, v, rfl, hv, hrelease⟩ := ih hstill hrest
      exact ⟨label :: before, recordingActive, after, v, rfl,
        run_cons_eq_some.mpr ⟨u, hu, hv⟩, hrelease⟩
    · obtain ⟨⟨recordingActive, rfl⟩, hrelease⟩ := processesRelease_of_step hheld hstill hu
      exact ⟨[], recordingActive, labels, s, rfl, rfl, hrelease⟩

end Runs

/-- With nothing pending only keys that are down are held, and every other key that was held has
had its release processed. -/
theorem held_keys_down (mapping : Dict String A) (down : List K) {labels : List (Label K A)}
    {s : Reader K A O}
    (hguard : Guarded (step keys effects) (ReleaseAccepted keys)
      (start keys effects mapping down) labels)
    (hrun : run (step keys effects) (start keys effects mapping down) labels = some s)
    (hbuffer : s.inputEventBuffer = []) (hqueue : s.queue = []) :
    (∀ name, Holds s.device name → ∃ code ∈ s.down, keys.eventName code = name) ∧
      ∀ before after u code, labels = before ++ after →
        run (step keys effects) (start keys effects mapping down) before = some u →
        Holds u.device (keys.eventName code) → code ∉ s.down →
        ∃ mid recordingActive rest v, after = mid ++ .deliver recordingActive :: rest ∧
          run (step keys effects) u mid = some v ∧ ProcessesRelease keys v code := by
  have hfollows : Follows keys s := guarded_run_invariant
    (fun _ _ _ h haccepted hstep => h.step haccepted hstep) (follows_start mapping down) hguard hrun
  have hnone : ∀ code, lastValue code s.pending = none := by
    intro code
    rw [Reader.pending, hbuffer, hqueue]
    rfl
  have hdown : ∀ name, Holds s.device name → ∃ code ∈ s.down, keys.eventName code = name := by
    intro name hheld
    obtain ⟨code, rfl⟩ := hfollows.named name hheld
    exact ⟨code, hfollows.held code (hnone code) hheld, rfl⟩
  refine ⟨hdown, fun before after u code heq hu hheld hup => ?_⟩
  rw [heq, run_append, hu] at hrun
  refine processesRelease_of_run hheld (fun hstill => ?_) hrun
  obtain ⟨other, hother, hname⟩ := hdown _ hstill
  exact hup (eventName_injective hname ▸ hother)

/-! ## A release that is refused -/

def demoName (code : Bool) : String := if code then "key_b" else "key_a"

def demoKeys : SourceKeys Bool where
  eventName := demoName
  codeOf name := if name = "key_a" then some false else if name = "key_b" then some true else none
  defaultRoute := none
  eventBindingToButton _ _ := none
  eventCodeToButton _ := none
  evdevToButton _ := none
  codeOf_eventName code := by cases code <;> decide

def demoEffects : ActionEffects Bool Unit Bool where
  passthrough := some
  execute _ _ _ := []
  reconcile _ := []

/-- A key is pressed and released, and a mapping comes in between. -/
def pressAndRelease : List (Label Bool Unit) :=
  [.key false 1, .deliver false, .setMapping ∅, .key false 0, .startReconcile, .drain, .drain,
    .query, .deliver false]

theorem held_keys_down_release :
    ∃ s, run (step demoKeys demoEffects) (start demoKeys demoEffects ∅ []) pressAndRelease =
      some s ∧ ∀ name, Holds s.device name → ∃ code ∈ s.down, demoKeys.eventName code = name := by
  have hquiet : (run (step demoKeys demoEffects) (start demoKeys demoEffects ∅ [])
      pressAndRelease).map (fun s => (s.inputEventBuffer, s.queue)) = some ([], []) := by
    decide
  obtain ⟨s, hrun, heq⟩ := Option.map_eq_some_iff.mp hquiet
  simp only [Prod.mk.injEq] at heq
  exact ⟨s, hrun, (held_keys_down demoKeys demoEffects ∅ [] (by decide) hrun heq.1
    heq.2).1⟩

/-- A key that was pressed in a pause is quarantined, and seeded as held by a later mapping. -/
def seededInQuarantine : List (Label Bool Unit) :=
  [.pause, .key false 1, .deliver false, .resume, .setMapping ∅, .startReconcile, .drain, .query,
    .key false 0, .deliver false]

/- Its release is refused for the quarantine. The key is up, yet it stays held when nothing is
pending. -/
theorem release_refused_in_quarantine : ¬ ∀ (labels : List (Label Bool Unit)) s,
    run (step demoKeys demoEffects) (start demoKeys demoEffects ∅ []) labels = some s →
    s.pending = [] → s.paused = false →
    ∀ name, Holds s.device name → ∃ code ∈ s.down, demoKeys.eventName code = name := by
  intro hall
  have houtcome : (run (step demoKeys demoEffects) (start demoKeys demoEffects ∅ [])
      seededInQuarantine).map (fun s =>
        (s.pending, s.paused, s.down, s.device.heldSourceKeys)) =
      some ([], false, [], ["key_a"]) := by decide
  obtain ⟨s, hrun, heq⟩ := Option.map_eq_some_iff.mp houtcome
  simp only [Prod.mk.injEq] at heq
  obtain ⟨hpending, hpaused, hdown, hkeys⟩ := heq
  have hheld : Holds s.device "key_a" := Or.inl (hkeys ▸ List.mem_cons_self)
  obtain ⟨code, hcode, -⟩ := hall _ s hrun hpending hpaused "key_a" hheld
  rw [hdown] at hcode
  cases hcode

end Keymasq.Device.Reader
