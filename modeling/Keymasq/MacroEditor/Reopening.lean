import Keymasq.MacroEditor.Insertion

/-!
# Saving, opening and saving again

What the editor writes is as the recorder writes it, as long as the fields of the items are
within the editor's limits. So a macro that was saved once is not changed by opening and saving
it again. Opening gives items within the limits, and pasting keeps them there.
-/

namespace Keymasq.MacroEditor.Reopening
open Foundation Strings Lists Sorting Ranges Pasting MacroEditor.Numbering RoundTrip Splice
open Insertion

/-! ## The limits -/

/-- The fields of a key or an axis that do not change once they are written. -/
structure EventLimits (e : EditableEvent) : Prop where
  typed : e.evType ≠ evSyn
  output : e.deviceType = "gamepad" → ∀ name ∈ e.outputId, name ≠ "" ∧ strip name = name
  hold : 0 ≤ e.rapidfireHoldMs
  wait : 1 ≤ e.rapidfireWaitMs

def ControlLimits (c : EditableControl) : Prop :=
  c.options.timeoutMs ≠ 0 ∧ c.options.loopMode ≠ ""

/- An event that is kept as it is, as it was recorded. -/
def RawLimits (event : MacroEvent) : Prop := Recorded event ∧ isSyn event = false

structure WithinLimits (lists : TimelineLists) : Prop where
  events : ∀ e ∈ lists.events, EventLimits e
  relative : ∀ e ∈ lists.relative, RawLimits e.event
  raw : ∀ e ∈ lists.raw, RawLimits e.event
  controls : ∀ c ∈ lists.controls, ControlLimits c

/-! ## What is written -/

theorem strippedOutputId_named {outputId : Option String} {name : String}
    (h : name ∈ strippedOutputId outputId) : name ≠ "" ∧ strip name = name := by
  unfold strippedOutputId at h
  obtain ⟨hmap, hname⟩ := Option.mem_filter_iff.mp h
  obtain ⟨original, -, rfl⟩ := Option.mem_map.mp hmap
  exact ⟨of_decide_eq_true hname, strip_strip original⟩

variable {e : EditableEvent} {lists : TimelineLists}

theorem outputNormal_written (h : EventLimits e) {event : MacroEvent}
    (htype : event.deviceType = e.deviceType)
    (houtput : event.outputId = gamepadOutput e.deviceType e.outputId) : OutputNormal event := by
  intro name hname
  rw [houtput] at hname
  unfold gamepadOutput at hname
  split at hname
  · next hgamepad =>
    exact ⟨htype.trans hgamepad, h.output hgamepad name (Option.mem_filter_iff.mp hname).1⟩
  · cases hname

theorem rawLimits_event (h : EventLimits e) : ∀ entry ∈ e.written, RawLimits entry.event := by
  have hplain : ∀ event : MacroEvent, event.deviceType = e.deviceType → event.type = e.evType →
      event.outputId = gamepadOutput e.deviceType e.outputId → event.action = .none →
        RawLimits event := by
    intro event hdevice htype houtput haction
    refine ⟨⟨outputNormal_written h hdevice houtput, ?_⟩, ?_⟩
    · unfold ActionNormal
      rw [haction]
      trivial
    · unfold isSyn
      rw [htype, decide_eq_false h.typed, Bool.and_false]
  intro entry hentry
  unfold EditableEvent.written at hentry
  dsimp only at hentry
  split at hentry
  · obtain rfl := List.mem_singleton.mp hentry
    refine ⟨⟨outputNormal_written h rfl rfl, ?_⟩, rfl⟩
    exact ⟨rfl, le_max_left 0 _, h.hold, h.wait⟩
  · split at hentry
    · rcases List.mem_cons.mp hentry with rfl | hrelease
      · exact hplain _ rfl rfl rfl rfl
      · obtain rfl := List.mem_singleton.mp hrelease
        exact hplain _ rfl rfl rfl rfl
    · obtain rfl := List.mem_singleton.mp hentry
      exact hplain _ rfl rfl rfl rfl

theorem normalize_mem (curve : String) :
    normalizeNaturalMouseMoveCurve curve ∈ naturalMouseMoveCurves := by
  unfold normalizeNaturalMouseMoveCurve
  dsimp only
  split
  · assumption
  · decide

theorem outputNormal_macroEvent (tUs : ℤ) (action : MacroAction) :
    OutputNormal (macroEvent tUs action) := by
  intro name hname
  cases hname

theorem rawLimits_move (m : EditableMove) : RawLimits m.written.event := by
  refine ⟨⟨outputNormal_macroEvent _ _, ?_⟩, rfl⟩
  unfold ActionNormal EditableMove.written macroEvent
  dsimp only
  refine ⟨rfl, ?_⟩
  by_cases hnatural : m.mode = .natural
  · rw [if_pos hnatural, if_pos hnatural]
    dsimp only
    exact normalize_mem m.options.curve
  · rw [if_neg hnatural, if_neg hnatural]

/- What is written of a called macro is within the limits: a missing behaviour is replaced. -/
theorem controlNormal_written_macro {options : ControlOptions} (hloop : options.loopMode ≠ "") :
    ControlNormal .macroSync (options.written .macroSync) := by
  refine ⟨⟨le_max_left _ _, hloop, le_max_left _ _, ?_, ?_⟩, rfl⟩
  · unfold ControlOptions.written
    dsimp only
    split
    · exact le_max_left _ _
    · exact le_rfl
  · unfold ControlOptions.written
    dsimp only
    split
    · decide
    · assumption

theorem controlNormal_written (mode : ControlMode) {options : ControlOptions}
    (htimeout : options.timeoutMs ≠ 0) (hloop : options.loopMode ≠ "") :
    ControlNormal mode (options.written mode) := by
  cases mode with
  | wait | waitRandom | execAsync | compositorDispatch => rfl
  | execSync | execParallel => exact ⟨htimeout, rfl⟩
  | macroSync | macroParallel => exact controlNormal_written_macro hloop

theorem rawLimits_control {c : EditableControl} (h : ControlLimits c) :
    RawLimits c.written.event :=
  ⟨⟨outputNormal_macroEvent _ _, rfl, controlNormal_written c.mode h.1 h.2⟩, rfl⟩

theorem rawLimits_written (h : WithinLimits lists) :
    ∀ entry ∈ lists.written, RawLimits entry.event := by
  intro entry hentry
  unfold TimelineLists.written at hentry
  simp only [List.mem_append, List.mem_flatMap, List.mem_map] at hentry
  rcases hentry with (((⟨e, he, hwritten⟩ | hrelative) | ⟨m, hm, rfl⟩) | ⟨c, hc, rfl⟩) | hraw
  · exact rawLimits_event (h.events e he) entry hwritten
  · exact h.relative entry hrelative
  · exact rawLimits_move m
  · exact rawLimits_control (h.controls c hc)
  · exact h.raw entry hraw

theorem reconstructEvents_sorted (lists : TimelineLists) :
    (reconstructEvents lists).Pairwise fun a b => a.tUs ≤ b.tUs := by
  unfold reconstructEvents
  dsimp only
  rw [List.pairwise_map]
  refine (sortedOn_pairwise _ _).imp fun hle => ?_
  exact (Prod.Lex.toLex_le_toLex'.mp hle).1

theorem mem_reconstructEvents {event : MacroEvent} (h : event ∈ reconstructEvents lists) :
    ∃ entry ∈ lists.written, entry.event = event := by
  unfold reconstructEvents at h
  dsimp only at h
  obtain ⟨entry, hentry, rfl⟩ := List.mem_map.mp h
  exact ⟨entry.1, List.fst_mem_of_mem_zipIdx ((sortedOn_perm _ _).mem_iff.mp hentry), rfl⟩

/-- Items within the limits are saved as they will be opened. -/
theorem reconstruct_twice (h : WithinLimits lists) :
    reconstructEvents (parseEvents (reconstructEvents lists)) = reconstructEvents lists := by
  have hlimits : ∀ event ∈ reconstructEvents lists, RawLimits event := by
    intro event hevent
    obtain ⟨entry, hentry, rfl⟩ := mem_reconstructEvents hevent
    exact rawLimits_written h entry hentry
  rw [reconstruct_parse (reconstructEvents_sorted lists) fun event hevent =>
    (hlimits event hevent).1, List.filter_eq_self]
  intro event hevent
  rw [(hlimits event hevent).2]
  rfl

/-! ## What is opened -/

structure Limited (s : ParseState) : Prop where
  events : ∀ e ∈ s.editable, EventLimits e
  controls : ∀ c ∈ s.controls, ControlLimits c

theorem Limited.append {s s' : ParseState} (h : Limited s) (he : EventLimits e)
    (heditable : s'.editable = s.editable ++ [e]) (hcontrols : s'.controls = s.controls) :
    Limited s' := by
  refine ⟨fun e' he' => ?_, fun c hc => h.controls c (hcontrols ▸ hc)⟩
  rw [heditable] at he'
  rcases List.mem_append.mp he' with he' | he'
  · exact h.events e' he'
  · obtain rfl := List.mem_singleton.mp he'
    exact he

theorem controlLimits_read (mode : ControlMode) (tUs : ℤ) (options : ControlOptions)
    (order : Option ℤ) : ControlLimits ⟨mode, tUs, options.read, order⟩ := by
  unfold ControlLimits ControlOptions.read
  dsimp only
  constructor
  · split
    · decide
    · assumption
  · split
    · decide
    · assumption

theorem limited_parseEvent {s : ParseState} (h : Limited s) (event : MacroEvent) (order : ℤ) :
    Limited (parseEvent s event order) := by
  have hsame : Limited (s.keep event order) := ⟨h.events, h.controls⟩
  have hkinds : evKey ≠ evSyn ∧ evAbs ≠ evSyn := by decide
  have hdefaults : 0 ≤ defaultRapidfireHoldMs ∧ 1 ≤ defaultRapidfireWaitMs := by decide
  unfold parseEvent
  split
  · split
    · refine h.append ?_ rfl rfl
      exact ⟨hkinds.1, fun _ _ => strippedOutputId_named, le_max_left 0 _, le_max_left 1 _⟩
    · exact hsame
  · exact ⟨h.events, h.controls⟩
  · refine ⟨h.events, fun c hc => ?_⟩
    rcases List.mem_append.mp hc with hc | hc
    · exact h.controls c hc
    · obtain rfl := List.mem_singleton.mp hc
      exact controlLimits_read _ _ _ _
  · exact hsame
  · unfold parsePlain
    split
    · unfold parseKey
      dsimp only
      split
      · exact ⟨h.events, h.controls⟩
      · split
        · split
          · refine h.append ?_ rfl rfl
            refine ⟨hkinds.1, fun hgamepad name hname => ?_, hdefaults.1, hdefaults.2⟩
            dsimp only at hgamepad hname
            rw [if_pos hgamepad] at hname
            exact strippedOutputId_named hname
          · exact hsame
        · exact hsame
    · split
      · refine h.append ?_ rfl rfl
        exact ⟨hkinds.2, fun _ _ => strippedOutputId_named, hdefaults.1, hdefaults.2⟩
      · split
        · exact ⟨h.events, h.controls⟩
        · split
          · exact h
          · exact hsame

theorem limited_parseFrom (events : List MacroEvent) {s : ParseState} (h : Limited s) (order : ℤ) :
    Limited (parseFrom s order events) := by
  induction events generalizing s order with
  | nil => exact h
  | cons event events ih => exact ih (limited_parseEvent h event order) (order + 1)

/-- What is opened is within the limits. -/
theorem withinLimits_parseEvents {events : List MacroEvent}
    (hrecorded : ∀ event ∈ events, Recorded event) : WithinLimits (parseEvents events) := by
  have hlimited : Limited (parseFrom {} 0 events) :=
    limited_parseFrom events ⟨fun e he => absurd he List.not_mem_nil,
      fun c hc => absurd hc List.not_mem_nil⟩ 0
  obtain ⟨entries, hnumbered, hperm⟩ := written_parseEvents events
  have hentries : ∀ entry ∈ (parseEvents events).written, RawLimits entry.event := by
    intro entry hentry
    have hmem : entry.event ∈ entries.map OrderedEvent.event :=
      List.mem_map_of_mem (hperm.mem_iff.mp hentry)
    rw [hnumbered.map_event hrecorded] at hmem
    obtain ⟨hevent, hkept⟩ := List.mem_filter.mp hmem
    exact ⟨hrecorded _ hevent, Bool.not_eq_true' _ ▸ hkept⟩
  refine ⟨fun e he => ?_, fun e he => ?_, fun e he => ?_, fun c hc => ?_⟩
  · exact hlimited.events e ((sortedOn_perm _ _).mem_iff.mp he)
  · refine hentries e ?_
    rw [written_actions]
    exact List.mem_append_left _ (List.mem_append_right _ he)
  · refine hentries e ?_
    rw [written_actions]
    exact List.mem_append_right _ (List.mem_append_right _ he)
  · exact hlimited.controls c ((sortedOn_perm _ _).mem_iff.mp hc)

/-! ## What is pasted -/

theorem EventLimits.of_fields {e' : EditableEvent} (h : EventLimits e)
    (htype : e'.evType = e.evType) (hdevice : e'.deviceType = e.deviceType)
    (houtput : e'.outputId = e.outputId) (hhold : e'.rapidfireHoldMs = e.rapidfireHoldMs)
    (hwait : e'.rapidfireWaitMs = e.rapidfireWaitMs) : EventLimits e' := by
  refine ⟨htype ▸ h.typed, fun hgamepad => ?_, hhold ▸ h.hold, hwait ▸ h.wait⟩
  rw [houtput]
  exact h.output (hdevice ▸ hgamepad)

theorem RawLimits.shiftEvent {event : MacroEvent} (h : RawLimits event) (deltaUs : ℤ) :
    RawLimits (shiftEvent deltaUs event) := ⟨recorded_shiftEvent h.1 deltaUs, h.2⟩

theorem withinLimits_makeRoom (h : WithinLimits lists) (atUs durationUs : ℤ) :
    WithinLimits (makeRoom atUs durationUs lists) := by
  have hraw : ∀ e : OrderedEvent, RawLimits e.event →
      RawLimits (roomForRaw atUs durationUs e).event := by
    intro e he
    unfold roomForRaw
    split
    · exact he.shiftEvent durationUs
    · exact he
  refine ⟨fun e he => ?_, fun e he => ?_, fun e he => ?_, fun c hc => ?_⟩
  · obtain ⟨e, hmem, rfl⟩ := List.mem_map.mp he
    unfold roomForEvent
    split
    · exact (h.events e hmem).of_fields rfl rfl rfl rfl rfl
    · split
      · exact (h.events e hmem).of_fields rfl rfl rfl rfl rfl
      · exact h.events e hmem
  · obtain ⟨e, hmem, rfl⟩ := List.mem_map.mp he
    exact hraw e (h.relative e hmem)
  · obtain ⟨e, hmem, rfl⟩ := List.mem_map.mp he
    exact hraw e (h.raw e hmem)
  · obtain ⟨c, hmem, rfl⟩ := List.mem_map.mp hc
    unfold roomForControl
    split
    · exact h.controls c hmem
    · exact h.controls c hmem

theorem withinLimits_assign (h : WithinLimits lists) :
    WithinLimits (assignMissingOrders lists).1 := by
  unfold assignMissingOrders
  refine ⟨forall_thread ?_ _ h.events, forall_thread ?_ _ h.relative, forall_thread ?_ _ h.raw,
    forall_thread ?_ _ h.controls⟩
  · exact fun _ _ he => he.of_fields rfl rfl rfl rfl rfl
  · exact fun _ _ he => he
  · exact fun _ _ he => he
  · exact fun _ _ hc => hc

theorem withinLimits_reserve (h : WithinLimits lists) (endUs : ℤ) (count : ℕ) :
    WithinLimits (reserveInsertOrders lists endUs count).1 := by
  unfold reserveInsertOrders
  refine ⟨forall_thread ?_ _ h.events, forall_thread ?_ _ h.relative, forall_thread ?_ _ h.raw,
    forall_thread ?_ _ h.controls⟩
  · intro numbers e he
    unfold renumberEvent
    split
    · exact he.of_fields rfl rfl rfl rfl rfl
    · exact he.of_fields rfl rfl rfl rfl rfl
  · exact fun _ _ he => he
  · exact fun _ _ he => he
  · exact fun _ _ hc => hc

theorem withinLimits_offset (h : WithinLimits lists) (nextOrder : ℤ) :
    WithinLimits (offset nextOrder lists) := by
  refine ⟨fun e he => ?_, fun e he => ?_, fun e he => ?_, fun c hc => ?_⟩
  · obtain ⟨e, hmem, rfl⟩ := List.mem_map.mp he
    exact (h.events e hmem).of_fields rfl rfl rfl rfl rfl
  · obtain ⟨e, hmem, rfl⟩ := List.mem_map.mp he
    exact h.relative e hmem
  · obtain ⟨e, hmem, rfl⟩ := List.mem_map.mp he
    exact h.raw e hmem
  · obtain ⟨c, hmem, rfl⟩ := List.mem_map.mp hc
    exact h.controls c hmem

theorem withinLimits_extend {added : TimelineLists} (h : WithinLimits lists)
    (hadded : WithinLimits added) : WithinLimits (extend lists added) :=
  ⟨List.forall_mem_append.mpr ⟨h.events, hadded.events⟩,
    List.forall_mem_append.mpr ⟨h.relative, hadded.relative⟩,
    List.forall_mem_append.mpr ⟨h.raw, hadded.raw⟩,
    List.forall_mem_append.mpr ⟨h.controls, hadded.controls⟩⟩

/-- Pasting a recorded section leaves all within the limits. -/
theorem withinLimits_paste (h : WithinLimits lists) {fragment : Fragment}
    (hrecorded : ∀ event ∈ fragment.events, Recorded event) (atUs : ℤ) (insert : Bool) :
    WithinLimits (paste fragment lists atUs insert).1 := by
  have hadded : WithinLimits (parseEvents (fragment.events.map (shiftEvent (max 0 atUs)))) := by
    refine withinLimits_parseEvents fun event hshifted => ?_
    obtain ⟨event, hevent, rfl⟩ := List.mem_map.mp hshifted
    exact recorded_shiftEvent (hrecorded event hevent) _
  unfold paste
  cases insert with
  | true =>
    refine withinLimits_extend ?_ (withinLimits_offset hadded _)
    exact withinLimits_reserve (withinLimits_assign (withinLimits_makeRoom h _ _)) _ _
  | false => exact withinLimits_extend (withinLimits_assign h) (withinLimits_offset hadded _)

/-! ## Everything the editor builds -/

/-- Lists that the editor comes to: a recording is opened, a recorded section is pasted, items
are added, changed or removed within the limits, kept events are retimed or removed. -/
inductive Built : TimelineLists → Prop
  | opened {events : List MacroEvent} (hrecorded : ∀ event ∈ events, Recorded event) :
    Built (parseEvents events)
  | pasted {lists : TimelineLists} (h : Built lists) {fragment : Fragment}
    (hrecorded : ∀ event ∈ fragment.events, Recorded event) (atUs : ℤ) (insert : Bool) :
    Built (paste fragment lists atUs insert).1
  | edited {lists lists' : TimelineLists} (h : Built lists)
    (hevents : ∀ e ∈ lists'.events, EventLimits e)
    (hcontrols : ∀ c ∈ lists'.controls, ControlLimits c)
    (hrelative : ∀ e ∈ lists'.relative, ∃ old ∈ lists.relative, ∃ deltaUs,
      e.event = shiftEvent deltaUs old.event)
    (hraw : ∀ e ∈ lists'.raw, ∃ old ∈ lists.raw, ∃ deltaUs,
      e.event = shiftEvent deltaUs old.event) : Built lists'

theorem withinLimits_built (h : Built lists) : WithinLimits lists := by
  induction h with
  | opened hrecorded => exact withinLimits_parseEvents hrecorded
  | pasted _ hrecorded atUs insert ih => exact withinLimits_paste ih hrecorded atUs insert
  | edited _ hevents hcontrols hrelative hraw ih =>
    refine ⟨hevents, fun e he => ?_, fun e he => ?_, hcontrols⟩
    · obtain ⟨old, hold, deltaUs, hshift⟩ := hrelative e he
      rw [hshift]
      exact (ih.relative old hold).shiftEvent deltaUs
    · obtain ⟨old, hold, deltaUs, hshift⟩ := hraw e he
      rw [hshift]
      exact (ih.raw old hold).shiftEvent deltaUs

/-- Opening and saving are inverse: a recording is saved as it was but for its sync events, and
what was saved once is saved the same again. -/
theorem parse_reconstruct_inverse :
    (∀ events : List MacroEvent, (events.Pairwise fun a b => a.tUs ≤ b.tUs) →
      (∀ event ∈ events, Recorded event) →
        reconstructEvents (parseEvents events) = events.filter fun event => !isSyn event) ∧
    ∀ lists, Built lists →
      reconstructEvents (parseEvents (reconstructEvents lists)) = reconstructEvents lists :=
  ⟨fun _ hsorted hrecorded => reconstruct_parse hsorted hrecorded,
    fun _ hbuilt => reconstruct_twice (withinLimits_built hbuilt)⟩

theorem recorded_keyAt (code value tUs : ℤ) : Recorded (keyAt code value tUs) :=
  ⟨fun _ hname => absurd hname (Option.not_mem_none _), trivial⟩

/- A call of another macro, three times over. -/
def callAt (tUs : ℤ) : MacroEvent :=
  macroEvent tUs (.control .macroSync { macroName := "Greeting", loopMode := "count", loopCount := 3 })

theorem recorded_callAt (tUs : ℤ) : Recorded (callAt tUs) :=
  ⟨outputNormal_macroEvent _ _, rfl, by decide +kernel, rfl⟩

/- A tap and a call that are opened, pasted into and saved. -/
theorem parse_reconstruct_inverse_tap :
    reconstructEvents (parseEvents [keyAt 30 1 0, keyAt 30 0 5, callAt 7]) =
        [keyAt 30 1 0, keyAt 30 0 5, callAt 7] ∧
      reconstructEvents (parseEvents (reconstructEvents
        (paste (tap 31) (parseEvents [keyAt 30 1 0, keyAt 30 0 5, callAt 7]) 5 true).1)) =
          [keyAt 30 1 0, keyAt 30 0 5, keyAt 31 1 5, keyAt 31 0 10, callAt 12] := by
  have hrecorded : ∀ event ∈ [keyAt 30 1 0, keyAt 30 0 5, callAt 7], Recorded event := by
    simp [recorded_keyAt, recorded_callAt]
  have htap : ∀ event ∈ (tap 31).events, Recorded event := by
    simp [tap, recorded_keyAt]
  have hsorted : [keyAt 30 1 0, keyAt 30 0 5, callAt 7].Pairwise fun a b => a.tUs ≤ b.tUs := by
    decide
  have hbuilt : Built (paste (tap 31)
      (parseEvents [keyAt 30 1 0, keyAt 30 0 5, callAt 7]) 5 true).1 :=
    .pasted (.opened hrecorded) htap 5 true
  constructor
  · rw [parse_reconstruct_inverse.1 _ hsorted hrecorded]
    decide
  · rw [parse_reconstruct_inverse.2 _ hbuilt]
    decide +kernel

end Keymasq.MacroEditor.Reopening
