import Keymasq.Device.Reader

/-!
# Mapping replacements under held keys

The mappings send keys to keyboard or mouse keys, pass them through or suppress
them. An event goes to the output of the action that is held by its key, so a
press and its release meet at one output as long as the press was recorded.
-/

namespace Keymasq.Device.Remapping
open Foundation Foundation.Alternation Foundation.Sorting Foundation.Transition Mapped Reader

/-- The output devices a plain action writes to. -/
inductive Bucket
  | passthrough
  | route
  | keyboard
  | mouse
  deriving DecidableEq

inductive PlainAction
  | passthrough
  | suppress
  | keyboard (target : String)
  | mouse (target : String)

/-- The codes of the targets, and the output devices that are open. A mouse target may be a
relative axis instead of a key. -/
structure OutputCodes (K : Type*) where
  resolveOutputCode : String → Option K
  mouseTargetIsRelative : String → Option Bool
  isOpen : Bucket → Bool

variable {K : Type*} (keys : SourceKeys K) (codes : OutputCodes K)

/-! ## Outputs -/

/-- The key of an open output device. -/
def openOutput (bucket : Bucket) (code : Option K) : Option (Bucket × K) :=
  if codes.isOpen bucket then code.map (bucket, ·) else none

def passthroughOutput (code : K) : Option (Bucket × K) :=
  match keys.defaultRoute with
  | some hasButton => openOutput codes .route (if hasButton code then some code else none)
  | none => openOutput codes .passthrough (some code)

/-- The output key an action writes; a relative axis has no press and no release. -/
def outputOf (action : PlainAction) (code : K) : Option (Bucket × K) :=
  match action with
  | .passthrough => passthroughOutput keys codes code
  | .suppress => none
  | .keyboard target =>
    if target = "" then none else openOutput codes .keyboard (codes.resolveOutputCode target)
  | .mouse target =>
    match codes.mouseTargetIsRelative target with
    | some false =>
      if target = "" then none else openOutput codes .mouse (codes.resolveOutputCode target)
    | some true => none
    | none => none

/-- A key found down at a reconcile has its output released first. -/
def reconcileStartupHeldAction (action : PlainAction) : List ((Bucket × K) × ℤ) :=
  match action with
  | .keyboard target =>
    if target = "" then []
    else ((openOutput codes .keyboard (codes.resolveOutputCode target)).map (·, 0)).toList
  | .mouse target =>
    if target = "" then []
    else ((openOutput codes .mouse (codes.resolveOutputCode target)).map (·, 0)).toList
  | .passthrough | .suppress => []

def plainEffects : ActionEffects K PlainAction (Bucket × K) where
  passthrough := passthroughOutput keys codes
  execute action code value := ((outputOf keys codes action code).map (·, value)).toList
  reconcile := reconcileStartupHeldAction codes

abbrev Device (K : Type*) := GrabbedDevice PlainAction (Bucket × K)

/-- Where an event goes whose action is known. -/
def outputOfAction (action : Option PlainAction) (code : K) : Option (Bucket × K) :=
  match action with
  | some action => outputOf keys codes action code
  | none => passthroughOutput keys codes code

/-- The output a held key has pressed. A press that was not recorded was passed through. -/
def heldOutput (d : Device K) (code : K) : Option (Bucket × K) :=
  outputOfAction keys codes ((d.heldSourceActions.get? (keys.eventName code)).getD none) code

/-- The press of the key was recorded, or its release is passed through as the press was. -/
def ReleasesHeldOutput (d : Device K) (code : K) : Prop :=
  d.heldSourceActions.contains (keys.eventName code) = true ∨ d.mapping.entries = [] ∨
    outputOfAction keys codes (findActionForCode keys d.mapping code 0) code =
      passthroughOutput keys codes code

/-! ## The system -/

inductive Label (K : Type*)
  | press (code : K)
  | hold (code : K)
  | release (code : K)
  | setMapping (mapping : Dict String PlainAction)

/-- The keys that are down and the device that has read every event. -/
structure Remapped (K : Type*) where
  down : List K := []
  device : Device K := {}

variable [LinearOrder K]

def readEvent (d : Device K) (event : K × ℤ) : Device K :=
  processKeyEvent keys (plainEffects keys codes) d false false event.1 event.2

def step (s : Remapped K) : Label K → Option (Remapped K)
  | .press code =>
    if code ∉ s.down then
      some { down := s.down ++ [code], device := readEvent keys codes s.device (code, 1) }
    else none
  | .hold code =>
    if code ∈ s.down then some { s with device := readEvent keys codes s.device (code, 2) }
    else none
  | .release code =>
    if code ∈ s.down then
      some {
        down := s.down.filter (· ≠ code)
        device := readEvent keys codes s.device (code, 0) }
    else none
  | .setMapping mapping =>
    let d := { s.device with mapping := mapping }
    let (d, repairs) := reconcileKeyState keys (plainEffects keys codes) d [] s.down
    some { s with device := repairs.foldl (readEvent keys codes) d }

def start (mapping : Dict String PlainAction) : Remapped K where
  device := { mapping := mapping }

/-- A release goes to the output its press went to. -/
def ReleaseMeetsPress (s : Remapped K) : Label K → Prop
  | .release code => ReleasesHeldOutput keys codes s.device code
  | _ => True

/-- A press goes to an output that no other key holds. -/
def PressesFreeOutput (s : Remapped K) : Label K → Prop
  | .press code => ∀ other ∈ s.down, ∀ output ∈ heldOutput keys codes s.device other,
      outputOfAction keys codes (findActionForCode keys s.device.mapping code 1) code ≠ some output
  | _ => True

instance (s : Remapped K) (label : Label K) : Decidable (ReleaseMeetsPress keys codes s label) := by
  unfold ReleaseMeetsPress ReleasesHeldOutput
  cases label with
  | release code => infer_instance
  | _ => exact inferInstanceAs (Decidable True)

instance (s : Remapped K) (label : Label K) : Decidable (PressesFreeOutput keys codes s label) := by
  unfold PressesFreeOutput
  cases label with
  | press code => infer_instance
  | _ => exact inferInstanceAs (Decidable True)

/-! ## One event -/

section Events

variable {keys} {codes} {d : Device K} {code : K} {value : ℤ}

omit [LinearOrder K] in
theorem findActionForCode_empty (h : d.mapping.entries = []) (code : K) (value : ℤ) :
    findActionForCode keys d.mapping code value = none := by
  have hnone : ∀ name, d.mapping.get? name = none := fun name => by rw [Dict.get?, h]; rfl
  simp only [findActionForCode, hnone, Option.bind_fun_none, Option.or_none]

omit [LinearOrder K] in
/-- A passthrough writes one event and may remember the press as held. -/
theorem emitPassthroughEvent_eq (d : Device K) (code : K) (value : ℤ) :
    emitPassthroughEvent keys (plainEffects keys codes) d code value =
      { d with
        heldSourceActions :=
          if keys.defaultRoute.isSome ∧ value = 1 ∧
              d.heldSourceActions.contains (keys.eventName code) = false then
            d.heldSourceActions.insert (keys.eventName code) none
          else d.heldSourceActions
        written := d.written ++ ((passthroughOutput keys codes code).map (·, value)).toList } := by
  unfold emitPassthroughEvent
  simp only [plainEffects]
  cases passthroughOutput keys codes code with
  | none =>
    simp only [Option.map_none, Option.toList_none, List.append_nil]
    split <;> rfl
  | some output =>
    simp only [Option.map_some, Option.toList_some, write]
    split <;> rfl

omit [LinearOrder K] in
theorem executeOrPassthrough_eq (d : Device K) (action : Option PlainAction) (code : K)
    (value : ℤ) :
    executeOrPassthrough keys (plainEffects keys codes) d action code value =
      { d with
        heldSourceActions :=
          if action = none ∧ keys.defaultRoute.isSome ∧ value = 1 ∧
              d.heldSourceActions.contains (keys.eventName code) = false then
            d.heldSourceActions.insert (keys.eventName code) none
          else d.heldSourceActions
        written := d.written ++
          ((outputOfAction keys codes action code).map (·, value)).toList } := by
  cases action with
  | none =>
    rw [executeOrPassthrough, emitPassthroughEvent_eq]
    simp only [outputOfAction, true_and]
  | some action => rfl

omit [LinearOrder K] in
/-- An event that is neither refused nor recorded. -/
theorem readEvent_eq (hquarantine : d.quarantinedSourceKeys = ∅) (code : K) (value : ℤ) :
    readEvent keys codes d (code, value) =
      dispatchKey keys (plainEffects keys codes)
        (observeSourceKeyTransition d (keys.eventName code) value) false code value := by
  have hgoes : interceptPausedOrQuarantinedInput d false (keys.eventName code) value =
      (d, false) := by
    simp [interceptPausedOrQuarantinedInput, hquarantine]
  simp only [readEvent, processKeyEvent, hgoes, Bool.false_eq_true, if_false]

omit [LinearOrder K] in
theorem observe_eq (d : Device K) (name : String) (value : ℤ) :
    ∃ held, observeSourceKeyTransition d name value = { d with heldSourceKeys := held } := by
  unfold observeSourceKeyTransition
  split
  · split
    · exact ⟨_, rfl⟩
    · exact ⟨_, rfl⟩
  · split
    · exact ⟨_, rfl⟩
    · exact ⟨_, rfl⟩

omit [LinearOrder K] in
/-- On both paths an event goes to the output of its source action. -/
theorem written_dispatchKey (d : Device K) (code : K) (value : ℤ) :
    (dispatchKey keys (plainEffects keys codes) d false code value).written =
      d.written ++ ((outputOfAction keys codes (sourceAction keys d code value) code).map
        (·, value)).toList := by
  unfold dispatchKey
  split
  · rename_i hfast
    have hget : d.heldSourceActions.get? (keys.eventName code) = none := by
      simpa [Dict.contains] using hfast.2.2
    have haction : sourceAction keys d code value = none := by
      simp only [sourceAction, hget, findActionForCode_empty hfast.1, Option.getD_none, ite_self]
    rw [emitPassthroughEvent_eq, haction]
    rfl
  · simp only [applyMappedActionOrPassthrough, executeOrPassthrough_eq]
    have hhold : (holdSourceAction keys d code value).written = d.written := by
      unfold holdSourceAction
      split <;> rfl
    simp only [hhold]
    split <;> rfl

omit [LinearOrder K] in
theorem get?_dispatchKey_of_ne {other : String} (hne : other ≠ keys.eventName code) :
    (dispatchKey keys (plainEffects keys codes) d false code value).heldSourceActions.get? other =
      d.heldSourceActions.get? other := by
  have hhold : (holdSourceAction keys d code value).heldSourceActions.get? other =
      d.heldSourceActions.get? other := by
    unfold holdSourceAction
    split
    · exact Dict.get?_insert_of_ne _ _ hne
    · rfl
  unfold dispatchKey
  split
  · rw [emitPassthroughEvent_eq]
    simp only
    split
    · exact Dict.get?_insert_of_ne _ _ hne
    · rfl
  · simp only [applyMappedActionOrPassthrough, executeOrPassthrough_eq]
    split
    · rw [Dict.get?_erase_of_ne _ hne]
      split
      · rw [Dict.get?_insert_of_ne _ _ hne, hhold]
      · exact hhold
    · split
      · rw [Dict.get?_insert_of_ne _ _ hne, hhold]
      · exact hhold

omit [LinearOrder K] in
/-- A press that finds nothing held by its key leaves the key holding the output it went to. -/
theorem heldOutput_dispatchKey_press
    (hfree : d.heldSourceActions.contains (keys.eventName code) = false) :
    heldOutput keys codes (dispatchKey keys (plainEffects keys codes) d false code 1) code =
      outputOfAction keys codes (findActionForCode keys d.mapping code 1) code := by
  have hget : d.heldSourceActions.get? (keys.eventName code) = none := by
    simpa [Dict.contains] using hfree
  unfold dispatchKey
  split
  · rename_i hfast
    rw [emitPassthroughEvent_eq, findActionForCode_empty hfast.1]
    unfold heldOutput
    simp only
    split
    · rw [Dict.get?_insert_self]
      rfl
    · rw [hget]
      rfl
  · have hhold : (holdSourceAction keys d code 1).heldSourceActions =
        d.heldSourceActions.insert (keys.eventName code)
          (findActionForCode keys d.mapping code 1) := by
      rw [holdSourceAction, if_pos ⟨rfl, hfree⟩]
    simp only [applyMappedActionOrPassthrough, executeOrPassthrough_eq, Int.reduceEq, if_false,
      hhold, Dict.contains, Dict.get?_insert_self, Option.isSome_some, Bool.true_eq_false,
      and_false, heldOutput, Option.getD_some]

omit [LinearOrder K] in
theorem heldOutput_dispatchKey_hold (code other : K) :
    heldOutput keys codes (dispatchKey keys (plainEffects keys codes) d false code 2) other =
      heldOutput keys codes d other := by
  have hsame : (dispatchKey keys (plainEffects keys codes) d false code 2).heldSourceActions =
      d.heldSourceActions := by
    unfold dispatchKey
    split
    · rw [emitPassthroughEvent_eq]
      simp
    · simp only [applyMappedActionOrPassthrough, executeOrPassthrough_eq]
      simp [holdSourceAction]
  rw [heldOutput, hsame, heldOutput]

omit [LinearOrder K] in
theorem heldOutput_dispatchKey_of_ne {other : K} (hne : other ≠ code) :
    heldOutput keys codes (dispatchKey keys (plainEffects keys codes) d false code value) other =
      heldOutput keys codes d other := by
  rw [heldOutput, get?_dispatchKey_of_ne fun heq => hne (eventName_injective heq), heldOutput]

omit [LinearOrder K] in
theorem quarantined_dispatchKey (d : Device K) (code : K) (value : ℤ) :
    (dispatchKey keys (plainEffects keys codes) d false code value).quarantinedSourceKeys =
      d.quarantinedSourceKeys := by
  unfold dispatchKey
  split
  · rw [emitPassthroughEvent_eq]
  · simp only [applyMappedActionOrPassthrough, executeOrPassthrough_eq]
    have hhold : (holdSourceAction keys d code value).quarantinedSourceKeys =
        d.quarantinedSourceKeys := by
      unfold holdSourceAction
      split <;> rfl
    split <;> exact hhold

end Events

/-! ## Held keys and their outputs -/

/-- The followed keys are those that are down, and an output is down for one of them only. -/
structure Inv (s : Remapped K) : Prop where
  held : ∀ name, Holds s.device name ↔ ∃ code ∈ s.down, keys.eventName code = name
  quarantine : s.device.quarantinedSourceKeys = ∅
  down : ∀ output, isDown output s.device.written = true →
    ∃ code ∈ s.down, heldOutput keys codes s.device code = some output

/-- No output is held by two keys, and the written events follow what is held. -/
structure Exclusive (s : Remapped K) : Prop where
  unique : ∀ code ∈ s.down, ∀ other ∈ s.down, ∀ output,
    heldOutput keys codes s.device code = some output →
    heldOutput keys codes s.device other = some output → code = other
  follows : ∀ output, ∃ down, downAfter output s.device.written = some down ∧
    (down = true ↔ ∃ code ∈ s.down, heldOutput keys codes s.device code = some output)

section Runs

variable {keys} {codes} {s s' : Remapped K} {code : K}

theorem Inv.free (h : Inv keys codes s) (hup : code ∉ s.down) :
    s.device.heldSourceActions.contains (keys.eventName code) = false := by
  rw [← Bool.not_eq_true]
  intro hcontains
  obtain ⟨other, hother, hname⟩ := (h.held _).mp (Or.inr hcontains)
  exact hup (eventName_injective hname ▸ hother)

/-- Reading an event changes what its own key holds only, and writes one event. -/
theorem readEvent_frame (h : Inv keys codes s) (code : K) (value : ℤ) :
    (readEvent keys codes s.device (code, value)).quarantinedSourceKeys = ∅ ∧
    (∀ other, other ≠ code → heldOutput keys codes (readEvent keys codes s.device (code, value))
      other = heldOutput keys codes s.device other) ∧
    (readEvent keys codes s.device (code, value)).written = s.device.written ++
      ((outputOfAction keys codes (sourceAction keys s.device code value) code).map
        (·, value)).toList := by
  obtain ⟨held, hobserve⟩ := observe_eq s.device (keys.eventName code) value
  rw [readEvent_eq h.quarantine, hobserve]
  exact ⟨(quarantined_dispatchKey _ _ _).trans h.quarantine,
    fun other hne => heldOutput_dispatchKey_of_ne hne, written_dispatchKey _ _ _⟩

/-- The output of the event and the value are all that a list of written events gains. -/
theorem isDown_append (target : Option (Bucket × K)) (output : Bucket × K)
    (written : List ((Bucket × K) × ℤ)) (value : ℤ) :
    isDown output (written ++ (target.map (·, value)).toList) =
      if target = some output then
        if value = 1 then true else if value = 0 then false else isDown output written
      else isDown output written := by
  cases target with
  | none => simp
  | some target =>
    simp only [Option.map_some, Option.toList_some, Option.some.injEq]
    by_cases heq : target = output
    · rw [if_pos heq, heq, isDown_append_self]
    · rw [if_neg heq, isDown_append_of_ne heq]

theorem downAfter_append (target : Option (Bucket × K)) (output : Bucket × K)
    (written : List ((Bucket × K) × ℤ)) (value : ℤ) :
    downAfter output (written ++ (target.map (·, value)).toList) =
      if target = some output then
        (downAfter output written).bind fun down => edgeStep down value
      else downAfter output written := by
  cases target with
  | none => simp
  | some target =>
    simp only [Option.map_some, Option.toList_some, Option.some.injEq]
    by_cases heq : target = output
    · rw [if_pos heq, heq, downAfter_append_self]
    · rw [if_neg heq, downAfter_append_of_ne heq]

/-! ## The steps -/

theorem holds_press (h : Inv keys codes s) (code : K) :
    Holds (readEvent keys codes s.device (code, 1)) (keys.eventName code) := by
  left
  rw [readEvent_eq h.quarantine, heldSourceKeys_dispatchKey]
  unfold observeSourceKeyTransition
  simp only [if_true]
  split
  · assumption
  · exact List.mem_append_right _ List.mem_cons_self

omit [LinearOrder K] in
theorem sourceAction_press (d : Device K) (code : K) :
    sourceAction keys d code 1 = findActionForCode keys d.mapping code 1 := by
  simp only [sourceAction, Int.reduceEq, or_self, if_false]

omit [LinearOrder K] in
/-- A release that was recorded, or that passes through as its press did, goes to the output the
key holds. -/
theorem release_target (d : Device K) (code : K) (hmeets : ReleasesHeldOutput keys codes d code) :
    outputOfAction keys codes (sourceAction keys d code 0) code = heldOutput keys codes d code := by
  simp only [sourceAction, true_or, if_true, heldOutput]
  cases hget : d.heldSourceActions.get? (keys.eventName code) with
  | some action => rfl
  | none =>
    simp only [Option.getD_none]
    rcases hmeets with hcontains | hempty | hsame
    · rw [Dict.contains, hget] at hcontains
      cases hcontains
    · rw [findActionForCode_empty hempty]
    · exact hsame

theorem heldOutput_press (h : Inv keys codes s) (hup : code ∉ s.down) :
    heldOutput keys codes (readEvent keys codes s.device (code, 1)) code =
      outputOfAction keys codes (findActionForCode keys s.device.mapping code 1) code := by
  obtain ⟨held, hobserve⟩ := observe_eq s.device (keys.eventName code) 1
  have hfree := h.free hup
  rw [readEvent_eq h.quarantine, hobserve]
  exact heldOutput_dispatchKey_press hfree

theorem heldOutput_hold (h : Inv keys codes s) (code other : K) :
    heldOutput keys codes (readEvent keys codes s.device (code, 2)) other =
      heldOutput keys codes s.device other := by
  obtain ⟨held, hobserve⟩ := observe_eq s.device (keys.eventName code) 2
  rw [readEvent_eq h.quarantine, hobserve]
  exact heldOutput_dispatchKey_hold code other

theorem Inv.press (h : Inv keys codes s) (hup : code ∉ s.down) :
    Inv keys codes { down := s.down ++ [code], device := readEvent keys codes s.device (code, 1) } := by
  obtain ⟨hquarantine, hothers, hwritten⟩ := readEvent_frame h code 1
  have htouches : Touches _ s.device (readEvent keys codes s.device (code, 1)) :=
    touches_processKeyEvent false false code 1
  refine ⟨fun name => ?_, hquarantine, fun output hdown => ?_⟩
  · by_cases hname : name = keys.eventName code
    · subst hname
      exact ⟨fun _ => ⟨code, List.mem_append_right _ List.mem_cons_self, rfl⟩,
        fun _ => holds_press h code⟩
    · refine (htouches name hname).trans ((h.held name).trans ?_)
      simp only [List.mem_append, List.mem_singleton, or_and_right, exists_or, exists_eq_left,
        Ne.symm hname, or_false]
  · simp only [hwritten, isDown_append, sourceAction_press] at hdown
    split at hdown
    · rename_i htarget
      exact ⟨code, List.mem_append_right _ List.mem_cons_self,
        (heldOutput_press h hup).trans htarget⟩
    · obtain ⟨other, hother, hheld⟩ := h.down output hdown
      have hne : other ≠ code := fun heq => hup (heq ▸ hother)
      exact ⟨other, List.mem_append_left _ hother, (hothers other hne).trans hheld⟩

theorem Inv.hold (h : Inv keys codes s) (hdown : code ∈ s.down) :
    Inv keys codes { s with device := readEvent keys codes s.device (code, 2) } := by
  obtain ⟨hquarantine, -, hwritten⟩ := readEvent_frame h code 2
  have htouches : Touches _ s.device (readEvent keys codes s.device (code, 2)) :=
    touches_processKeyEvent false false code 2
  refine ⟨fun name => ?_, hquarantine, fun output houtput => ?_⟩
  · by_cases hname : name = keys.eventName code
    · subst hname
      exact ⟨fun _ => ⟨code, hdown, rfl⟩, fun _ => holds_processKeyEvent false code
        (show (2 : ℤ) ≠ 0 by decide) ((h.held _).mpr ⟨code, hdown, rfl⟩)⟩
    · exact (htouches name hname).trans (h.held name)
  · simp only [hwritten, isDown_append, Int.reduceEq, if_false, ite_self] at houtput
    obtain ⟨other, hother, hheld⟩ := h.down output houtput
    exact ⟨other, hother, (heldOutput_hold h code other).trans hheld⟩

theorem Inv.release (h : Inv keys codes s) (hmeets : ReleasesHeldOutput keys codes s.device code) :
    Inv keys codes {
      down := s.down.filter (· ≠ code)
      device := readEvent keys codes s.device (code, 0) } := by
  obtain ⟨hquarantine, hothers, hwritten⟩ := readEvent_frame h code 0
  have htouches : Touches _ s.device (readEvent keys codes s.device (code, 0)) :=
    touches_processKeyEvent false false code 0
  refine ⟨fun name => ?_, hquarantine, fun output hdown => ?_⟩
  · by_cases hname : name = keys.eventName code
    · subst hname
      have hgone : ¬Holds (readEvent keys codes s.device (code, 0)) (keys.eventName code) :=
        not_holds_release false code ⟨rfl, by simp [h.quarantine]⟩
      refine ⟨fun hheld => absurd hheld hgone, ?_⟩
      rintro ⟨other, hother, heq⟩
      rw [eventName_injective heq] at hother
      simp at hother
    · refine (htouches name hname).trans ((h.held name).trans ?_)
      constructor
      · rintro ⟨other, hother, rfl⟩
        have hne : other ≠ code := fun heq => hname (congrArg keys.eventName heq)
        exact ⟨other, List.mem_filter.mpr ⟨hother, by simpa using hne⟩, rfl⟩
      · rintro ⟨other, hother, rfl⟩
        exact ⟨other, (List.mem_filter.mp hother).1, rfl⟩
  · simp only [hwritten, isDown_append, release_target _ _ hmeets] at hdown
    split at hdown
    · cases hdown
    · rename_i htarget
      obtain ⟨other, hother, hheld⟩ := h.down output hdown
      have hne : other ≠ code := by
        rintro rfl
        exact htarget hheld
      exact ⟨other, List.mem_filter.mpr ⟨hother, by simpa using hne⟩,
        (hothers other hne).trans hheld⟩

/-- A new mapping finds every followed key down, so it changes nothing else. -/
theorem setMapping_eq (h : Inv keys codes s) (mapping : Dict String PlainAction) :
    step keys codes s (.setMapping mapping) =
      some { s with device := { s.device with mapping := mapping } } := by
  have hnamed : Named keys { s.device with mapping := mapping } := fun name hheld =>
    ((h.held name).mp hheld).imp fun _ hcode => hcode.2
  have hheld : ∀ code, code ∈ (heldCodes keys { s.device with mapping := mapping }).dedup ↔
      code ∈ s.down := by
    intro code
    rw [List.mem_dedup, mem_heldCodes hnamed]
    refine (h.held _).trans ⟨?_, fun hdown => ⟨code, hdown, rfl⟩⟩
    rintro ⟨other, hother, heq⟩
    exact eventName_injective heq ▸ hother
  have hlost : (projected keys { s.device with mapping := mapping } []).1.filter
      (· ∉ s.down) = [] :=
    List.filter_eq_nil_iff.mpr fun code hcode => by simpa using (hheld code).mp hcode
  have hunknown : s.down.filter
      (· ∉ (projected keys { s.device with mapping := mapping } []).2) = [] :=
    List.filter_eq_nil_iff.mpr fun code hcode => by
      simpa [projected] using (hheld code).mpr hcode
  have hmissed : (s.down.filter fun code =>
      code ∉ (projected keys { s.device with mapping := mapping } []).1 ∧
        code ∈ (projected keys { s.device with mapping := mapping } []).2) = [] :=
    List.filter_eq_nil_iff.mpr fun code _ => by simp [projected]
  simp only [step, reconcileKeyState, repairs, hlost, hunknown, hmissed]
  rfl

theorem Inv.setMapping (h : Inv keys codes s) (mapping : Dict String PlainAction) :
    Inv keys codes { s with device := { s.device with mapping := mapping } } :=
  ⟨h.held, h.quarantine, h.down⟩

theorem Inv.step {label : Label K} (h : Inv keys codes s)
    (hmeets : ReleaseMeetsPress keys codes s label)
    (hstep : Remapping.step keys codes s label = some s') : Inv keys codes s' := by
  cases label with
  | press code =>
    simp only [Remapping.step] at hstep
    split at hstep
    · rename_i hup
      cases hstep
      exact h.press hup
    · cases hstep
  | hold code =>
    simp only [Remapping.step] at hstep
    split at hstep
    · rename_i hdown
      cases hstep
      exact h.hold hdown
    · cases hstep
  | release code =>
    simp only [Remapping.step] at hstep
    split at hstep
    · cases hstep
      exact h.release hmeets
    · cases hstep
  | setMapping mapping =>
    rw [setMapping_eq h] at hstep
    cases hstep
    exact h.setMapping mapping

/-! ## Alternation -/

theorem Exclusive.press (h : Inv keys codes s) (he : Exclusive keys codes s)
    (hfree : PressesFreeOutput keys codes s (.press code)) (hup : code ∉ s.down) :
    Exclusive keys codes
      { down := s.down ++ [code], device := readEvent keys codes s.device (code, 1) } := by
  obtain ⟨-, hothers, hwritten⟩ := readEvent_frame h code 1
  have hown := heldOutput_press h hup
  have hold : ∀ other ∈ s.down, other ≠ code ∧
      heldOutput keys codes (readEvent keys codes s.device (code, 1)) other =
        heldOutput keys codes s.device other := by
    intro other hother
    have hne : other ≠ code := fun heq => hup (heq ▸ hother)
    exact ⟨hne, hothers other hne⟩
  refine ⟨?_, fun output => ?_⟩
  · simp only [List.forall_mem_append, List.forall_mem_singleton]
    refine ⟨fun first hfirst => ⟨fun second hsecond output h1 h2 => ?_, fun output h1 h2 => ?_⟩,
      fun second hsecond output h1 h2 => ?_, fun _ _ _ => trivial⟩
    · rw [(hold first hfirst).2] at h1
      rw [(hold second hsecond).2] at h2
      exact he.unique first hfirst second hsecond output h1 h2
    · rw [(hold first hfirst).2] at h1
      exact absurd (hown.symm.trans h2) (hfree first hfirst output h1)
    · rw [(hold second hsecond).2] at h2
      exact absurd (hown.symm.trans h1) (hfree second hsecond output h2)
  · obtain ⟨down, hafter, hiff⟩ := he.follows output
    simp only [hwritten, downAfter_append, sourceAction_press, hafter, Option.bind_some]
    split
    · rename_i htarget
      have hfalse : down = false := by
        rw [← Bool.not_eq_true, hiff]
        rintro ⟨other, hother, hheld⟩
        exact hfree other hother output hheld htarget
      refine ⟨true, by rw [hfalse]; rfl, fun _ => ?_, fun _ => rfl⟩
      exact ⟨code, List.mem_append_right _ List.mem_cons_self, hown.trans htarget⟩
    · rename_i htarget
      refine ⟨down, rfl, hiff.trans ?_⟩
      constructor
      · rintro ⟨other, hother, hheld⟩
        exact ⟨other, List.mem_append_left _ hother, (hold other hother).2.trans hheld⟩
      · rintro ⟨other, hother, hheld⟩
        rcases List.mem_append.mp hother with hother | hother
        · exact ⟨other, hother, (hold other hother).2.symm.trans hheld⟩
        · rw [List.mem_singleton.mp hother] at hheld
          exact absurd (hown.symm.trans hheld) htarget

theorem Exclusive.hold (h : Inv keys codes s) (he : Exclusive keys codes s) (code : K) :
    Exclusive keys codes { s with device := readEvent keys codes s.device (code, 2) } := by
  obtain ⟨-, -, hwritten⟩ := readEvent_frame h code 2
  have hsame : ∀ other, heldOutput keys codes (readEvent keys codes s.device (code, 2)) other =
      heldOutput keys codes s.device other := heldOutput_hold h code
  refine ⟨fun first hfirst second hsecond output h1 h2 => ?_, fun output => ?_⟩
  · rw [hsame] at h1 h2
    exact he.unique first hfirst second hsecond output h1 h2
  · obtain ⟨down, hafter, hiff⟩ := he.follows output
    have hrepeat : edgeStep down 2 = some down := by cases down <;> rfl
    simp only [hwritten, downAfter_append, hafter, Option.bind_some, hrepeat, ite_self, hsame]
    exact ⟨down, rfl, hiff⟩

theorem Exclusive.release (h : Inv keys codes s) (he : Exclusive keys codes s)
    (hmeets : ReleasesHeldOutput keys codes s.device code) (hcode : code ∈ s.down) :
    Exclusive keys codes {
      down := s.down.filter (· ≠ code)
      device := readEvent keys codes s.device (code, 0) } := by
  obtain ⟨-, hothers, hwritten⟩ := readEvent_frame h code 0
  have hold : ∀ other, other ∈ s.down.filter (· ≠ code) → (other ∈ s.down ∧ other ≠ code) ∧
      heldOutput keys codes (readEvent keys codes s.device (code, 0)) other =
        heldOutput keys codes s.device other := by
    intro other hother
    rw [List.mem_filter, decide_eq_true_eq] at hother
    exact ⟨hother, hothers other hother.2⟩
  refine ⟨fun first hfirst second hsecond output h1 h2 => ?_, fun output => ?_⟩
  · rw [(hold first hfirst).2] at h1
    rw [(hold second hsecond).2] at h2
    exact he.unique first (hold first hfirst).1.1 second (hold second hsecond).1.1 output h1 h2
  · obtain ⟨down, hafter, hiff⟩ := he.follows output
    simp only [hwritten, downAfter_append, release_target _ _ hmeets, hafter, Option.bind_some]
    split
    · rename_i htarget
      have htrue : down = true := hiff.mpr ⟨code, hcode, htarget⟩
      refine ⟨false, by rw [htrue]; rfl, nofun, ?_⟩
      rintro ⟨other, hother, hheld⟩
      have hstill := (hold other hother).2.symm.trans hheld
      exact absurd (he.unique other (hold other hother).1.1 code hcode output hstill htarget)
        (hold other hother).1.2
    · rename_i htarget
      refine ⟨down, rfl, hiff.trans ?_⟩
      constructor
      · rintro ⟨other, hother, hheld⟩
        have hne : other ≠ code := by
          rintro rfl
          exact htarget hheld
        exact ⟨other, List.mem_filter.mpr ⟨hother, by simpa using hne⟩,
          (hothers other hne).trans hheld⟩
      · rintro ⟨other, hother, hheld⟩
        exact ⟨other, (hold other hother).1.1, (hold other hother).2.symm.trans hheld⟩

theorem Exclusive.step {label : Label K} (h : Inv keys codes s) (he : Exclusive keys codes s)
    (hmeets : ReleaseMeetsPress keys codes s label) (hfree : PressesFreeOutput keys codes s label)
    (hstep : Remapping.step keys codes s label = some s') : Exclusive keys codes s' := by
  cases label with
  | press code =>
    simp only [Remapping.step] at hstep
    split at hstep
    · rename_i hup
      cases hstep
      exact Exclusive.press h he hfree hup
    · cases hstep
  | hold code =>
    simp only [Remapping.step] at hstep
    split at hstep
    · cases hstep
      exact Exclusive.hold h he code
    · cases hstep
  | release code =>
    simp only [Remapping.step] at hstep
    split at hstep
    · rename_i hdown
      cases hstep
      exact Exclusive.release h he hmeets hdown
    · cases hstep
  | setMapping mapping =>
    rw [setMapping_eq h] at hstep
    cases hstep
    exact ⟨he.unique, he.follows⟩

theorem inv_start (mapping : Dict String PlainAction) :
    Inv keys codes (start mapping : Remapped K) := by
  refine ⟨fun name => ⟨?_, ?_⟩, rfl, fun output hdown => ?_⟩
  · rintro (hkey | haction)
    · cases hkey
    · cases haction
  · rintro ⟨code, hcode, -⟩
    cases hcode
  · cases hdown

theorem exclusive_start (mapping : Dict String PlainAction) :
    Exclusive keys codes (start mapping : Remapped K) := by
  refine ⟨fun code hcode => ?_, fun output => ⟨false, rfl, nofun, ?_⟩⟩
  · cases hcode
  · rintro ⟨code, hcode, -⟩
    cases hcode

end Runs

/-- Where every release meets its press, no output stays down when all keys are up. Where every
press also goes to a free output, the presses and releases of each output alternate. -/
theorem mapped_keys_never_stick (mapping : Dict String PlainAction) {labels : List (Label K)}
    {s : Remapped K}
    (hmeets : Guarded (step keys codes) (ReleaseMeetsPress keys codes) (start mapping) labels)
    (hrun : run (step keys codes) (start mapping) labels = some s) :
    (s.down = [] → ∀ output, isDown output s.device.written = false) ∧
      (Guarded (step keys codes) (PressesFreeOutput keys codes) (start mapping) labels →
        ∀ output, downAfter output s.device.written ≠ none) := by
  constructor
  · intro hup output
    have hinv : Inv keys codes s := guarded_run_invariant
      (fun _ _ _ h hmeets hstep => h.step hmeets hstep) (inv_start mapping) hmeets hrun
    rw [← Bool.not_eq_true]
    intro hdown
    obtain ⟨code, hcode, -⟩ := hinv.down output hdown
    rw [hup] at hcode
    cases hcode
  · intro hfree output
    have hinv := guarded_run_invariant (I := fun t => Inv keys codes t ∧ Exclusive keys codes t)
      (fun _ _ _ h hguard hstep =>
        ⟨h.1.step hguard.1 hstep, Exclusive.step h.1 h.2 hguard.1 hguard.2 hstep⟩)
      ⟨inv_start mapping, exclusive_start mapping⟩ (hmeets.both hfree) hrun
    obtain ⟨down, hafter, -⟩ := hinv.2.follows output
    rw [hafter]
    exact Option.some_ne_none down

/-! ## A release that misses its press -/

def typingKeys : SourceKeys Bool where
  eventName := demoName
  codeOf := demoKeys.codeOf
  defaultRoute := none
  eventBindingToButton _ _ := none
  eventCodeToButton _ := none
  evdevToButton := some
  codeOf_eventName := demoKeys.codeOf_eventName

def typingCodes : OutputCodes Bool where
  resolveOutputCode := demoKeys.codeOf
  mouseTargetIsRelative _ := none
  isOpen _ := true

def swapped : Dict String PlainAction :=
  Dict.ofList [("key_a", .keyboard "key_b"), ("key_b", .keyboard "key_a")]

/-- Both keys are pressed under one mapping and released under another. -/
def chordOverEmptyMapping : List (Label Bool) :=
  [.press false, .press true, .hold true, .setMapping ∅, .release false, .release true]

theorem mapped_keys_never_stick_chord :
    ∃ s, run (step typingKeys typingCodes) (start swapped) chordOverEmptyMapping = some s ∧
      (∀ output, isDown output s.device.written = false) ∧
      ∀ output, downAfter output s.device.written ≠ none := by
  have hup : (run (step typingKeys typingCodes) (start swapped) chordOverEmptyMapping).map
      Remapped.down = some [] := by decide
  obtain ⟨s, hrun, hdown⟩ := Option.map_eq_some_iff.mp hup
  have hsafe := mapped_keys_never_stick typingKeys typingCodes swapped (by decide) hrun
  exact ⟨s, hrun, hsafe.1 hdown, hsafe.2 (by decide)⟩

/-- A mapping comes in while a key is held that was passed through without being recorded. -/
def pressThenMap : List (Label Bool) := [.press false, .setMapping swapped, .release false]

/- The release goes to the new output, and the key that was passed through stays down. -/
theorem passed_through_key_sticks : ¬ ∀ (labels : List (Label Bool)) s,
    run (step typingKeys typingCodes) (start ∅) labels = some s → s.down = [] →
    (∀ output, isDown output s.device.written = false) ∧
      ∀ output, downAfter output s.device.written ≠ none := by
  intro hall
  have houtcome : (run (step typingKeys typingCodes) (start ∅) pressThenMap).map (fun s =>
      (s.down, isDown (.passthrough, false) s.device.written)) = some ([], true) := by
    decide
  obtain ⟨s, hrun, heq⟩ := Option.map_eq_some_iff.mp houtcome
  simp only [Prod.mk.injEq] at heq
  have hdown := (hall _ s hrun heq.1).1 (.passthrough, false)
  rw [heq.2] at hdown
  cases hdown

/-- Two keys with one output write two presses in a row. -/
example : (run (step typingKeys typingCodes)
    (start (Dict.ofList [("key_a", .keyboard "key_a"), ("key_b", .keyboard "key_a")]))
    [.press false, .press true]).map (fun s => downAfter (.keyboard, false) s.device.written) =
      some none := by decide

end Keymasq.Device.Remapping
