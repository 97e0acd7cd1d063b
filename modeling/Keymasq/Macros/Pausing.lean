import Keymasq.Macros.Player

/-!
# Paused macros

A pause releases what the instance holds and remembers the releases that are
still to come in its timeline. Each of them is swallowed, unless the timeline
presses the output again first.
-/

namespace Keymasq.Macros.Pausing
open Foundation Foundation.Transition Keymasq.Macros.Outputs Keymasq.Macros.Player

/-- The instance holds the output, as a pause would release it. -/
def Held (m : Manager) (i : ℕ) (o : Output) : Prop :=
  match o.2.1 with
  | .key => (o.1, o.2.2) ∈ m.macroState.keys.heldBy i
  | .abs => (o.1, o.2.2) ∈ m.macroState.axes.heldBy i
  | _ => False

/-- The timeline still has the release of an output that a pause has released. -/
def Owed (m : Manager) (i : ℕ) (o : Output) : Prop := o ∈ m.macroState.pauseReleased.getD i ∅

/-- A pause releases keys, and the axes of gamepads that a cleanup resets. -/
def Tracked (o : Output) : Prop :=
  match o.2.1 with
  | .key => True
  | .abs => gamepadOutputClass o.1 ≠ none ∧ o.2.2 ∈ gamepadAbsCleanupCodes
  | _ => False

/-- Whether the output is active after a value: a key alternates between press and release, an
axis may move on. -/
def levelStep (eventType : EventType) (active : Bool) (value : Int) : Option Bool :=
  if value = 0 then if active then some false else none
  else if eventType = .key ∧ value = 2 then some active
  else if eventType = .key ∧ active = true then none
  else some true

instance (m : Manager) (i : ℕ) (o : Output) : Decidable (Held m i o) := by
  unfold Held
  cases o.2.1 <;> infer_instance

instance (o : Output) : Decidable (Tracked o) := by
  unfold Tracked
  cases o.2.1 <;> infer_instance

instance (m : Manager) (i : ℕ) (o : Output) : Decidable (Owed m i o) := by
  unfold Owed
  infer_instance

/-- The value the timeline gave the output. -/
def timelineValue (i : ℕ) (o : Output) (e : Entry) : Option Int :=
  if e.author = i then
    match e.what with
    | .written o' value => if o' = o then some value else none
    | .swallowed o' value => if o' = o then some value else none
    | _ => none
  else none

/-- The value that was written for the instance, by its timeline or by a pause. -/
def writtenValue (i : ℕ) (o : Output) (e : Entry) : Option Int :=
  if e.author = i then
    match e.what with
    | .written o' value => if o' = o then some value else none
    | .released o' => if o' = o then some 0 else none
    | _ => none
  else none

def swallowedReleases (i : ℕ) (o : Output) (log : List Entry) : ℕ :=
  log.countP fun e => e.author = i ∧ e.what = .swallowed o 0

def pauseReleases (i : ℕ) (o : Output) (log : List Entry) : ℕ :=
  log.countP fun e => e.author = i ∧ e.what = .released o

/-- Whether the output is active after all values of the log. -/
def levelAfter (value : Entry → Option Int) (o : Output) (log : List Entry) : Option Bool :=
  run (levelStep o.2.1) false (log.filterMap value)

/-! ## What an event does to what is held and owed -/

section Events

variable {m : Manager} {i j : ℕ} {o : Output}

theorem owed_discardReleased (i j : ℕ) (o o' : Output) :
    Owed (m.discardReleased i o) j o' ↔ Owed m j o' ∧ ¬(j = i ∧ o' = o) := by
  unfold Owed Manager.discardReleased
  simp only [Dict.getD, Dict.get?_insert]
  by_cases hj : j = i
  · simp [hj, and_comm]
  · simp [hj]

/-- A key that is pressed is held, one that is released is not, and a repeat changes nothing. -/
theorem held_trackKey (hkeys : m.macroState.keys.Counted) {value : Int}
    (hvalue : value = 0 ∨ value = 1 ∨ value = 2) (i j : ℕ) (c : OutputClass) (code : Int)
    (o : Output) :
    Held (trackMacroEvent (m.write c .key code value) i c .key code value) j o ↔
      if j = i ∧ o = (c, .key, code) then value ≠ 0 ∧ (value = 2 → Held m i o) else Held m j o := by
  obtain ⟨oc, ot, ocode⟩ := o
  have hother : ot ≠ .key → ¬(j = i ∧ (oc, ot, ocode) = (c, EventType.key, code)) := by
    rintro hne ⟨-, heq⟩
    simp only [Prod.mk.injEq] at heq
    exact hne heq.2.1
  cases ot with
  | key =>
    simp only [Prod.mk.injEq, true_and]
    rcases hvalue with rfl | rfl | rfl
    · change (oc, ocode) ∈ (m.macroState.keys.remove i (c, code)).heldBy j ↔ _
      rw [hkeys.mem_heldBy_remove, Prod.mk.injEq]
      by_cases hmatch : j = i ∧ oc = c ∧ ocode = code
      · simp [hmatch]
      · rw [if_neg hmatch]
        exact and_iff_left hmatch
    · change (oc, ocode) ∈ (m.macroState.keys.add i (c, code)).heldBy j ↔ _
      rw [Holdings.mem_heldBy_add, Prod.mk.injEq]
      by_cases hmatch : j = i ∧ oc = c ∧ ocode = code
      · simp [hmatch]
      · rw [if_neg hmatch]
        exact or_iff_left hmatch
    · change (oc, ocode) ∈ m.macroState.keys.heldBy j ↔ _
      by_cases hmatch : j = i ∧ oc = c ∧ ocode = code
      · rw [if_pos hmatch, hmatch.1]
        simp [Held]
      · rw [if_neg hmatch]
        rfl
  | abs
  | rel =>
    rw [if_neg (hother (by decide))]
    rcases hvalue with rfl | rfl | rfl <;> rfl
  | other type =>
    rw [if_neg (hother (by nofun))]
    rcases hvalue with rfl | rfl | rfl <;> rfl

/-- An axis that is tracked is held until it is back at zero. -/
theorem held_trackAbs (haxes : m.macroState.axes.Counted) (i j : ℕ) (c : OutputClass)
    (code value : Int) (o : Output) :
    Held (trackMacroAbsValue m i c code value) j o ↔
      if j = i ∧ o = (c, .abs, code) ∧ Tracked o then value ≠ 0 else Held m j o := by
  obtain ⟨oc, ot, ocode⟩ := o
  have hcodes : ¬(gamepadOutputClass c ≠ none ∧ code ∈ gamepadAbsCleanupCodes) →
      ¬(j = i ∧ (oc, ot, ocode) = (c, EventType.abs, code) ∧ Tracked (oc, ot, ocode)) := by
    rintro huntracked ⟨-, heq, htracked⟩
    simp only [Prod.mk.injEq] at heq
    obtain ⟨rfl, rfl, rfl⟩ := heq
    exact huntracked htracked
  have hother : ot ≠ .abs →
      ¬(j = i ∧ (oc, ot, ocode) = (c, EventType.abs, code) ∧ Tracked (oc, ot, ocode)) := by
    rintro hne ⟨-, heq, -⟩
    simp only [Prod.mk.injEq] at heq
    exact hne heq.2.1
  unfold trackMacroAbsValue
  split
  · rename_i hclass
    rw [if_neg (hcodes fun h => h.1 hclass)]
  · rename_i hclass
    split
    · rename_i hcode
      rw [if_neg (hcodes fun h => hcode h.2)]
    · rename_i hcode
      cases ot with
      | abs =>
        by_cases hmatch : j = i ∧ oc = c ∧ ocode = code
        · obtain ⟨rfl, rfl, rfl⟩ := hmatch
          have hmatch : j = j ∧ (oc, EventType.abs, ocode) = (oc, EventType.abs, ocode) ∧
              Tracked (oc, EventType.abs, ocode) := ⟨rfl, rfl, hclass, not_not.mp hcode⟩
          rw [if_pos hmatch]
          split
          · rename_i hzero
            change (oc, ocode) ∈ (m.macroState.axes.remove j (oc, ocode)).heldBy j ↔ _
            rw [haxes.mem_heldBy_remove]
            simp [hzero]
          · rename_i hzero
            change (oc, ocode) ∈ (m.macroState.axes.add j (oc, ocode)).heldBy j ↔ _
            rw [Holdings.mem_heldBy_add]
            simp [hzero]
        · have hne : ¬(j = i ∧ (oc, EventType.abs, ocode) = (c, EventType.abs, code) ∧
              Tracked (oc, EventType.abs, ocode)) := by
            rintro ⟨hj, heq, -⟩
            simp only [Prod.mk.injEq, true_and] at heq
            exact hmatch ⟨hj, heq⟩
          rw [if_neg hne]
          split
          · change (oc, ocode) ∈ (m.macroState.axes.remove i (c, code)).heldBy j ↔ _
            rw [haxes.mem_heldBy_remove, Prod.mk.injEq]
            exact and_iff_left hmatch
          · change (oc, ocode) ∈ (m.macroState.axes.add i (c, code)).heldBy j ↔ _
            rw [Holdings.mem_heldBy_add, Prod.mk.injEq]
            exact or_iff_left hmatch
      | key
      | rel =>
        rw [if_neg (hother (by decide))]
        split <;> rfl
      | other type =>
        rw [if_neg (hother (by nofun))]
        split <;> rfl

/-- The bookkeeping of a written value. -/
theorem held_trackMacroEvent (hkeys : m.macroState.keys.Counted) (haxes : m.macroState.axes.Counted)
    (i j : ℕ) (c : OutputClass) (o : Output) (event : Instances.MacroEvent) :
    Held (trackMacroEvent (m.write c event.eventType event.code event.value) i c event.eventType
        event.code event.value) j o ↔
      if j = i ∧ o = (c, event.eventType, event.code) ∧ Tracked o then
        event.value ≠ 0 ∧ (event.eventType = .key ∧ event.value = 2 → Held m i o)
      else Held m j o := by
  have huntracked : (∀ code, ¬Tracked (c, event.eventType, code)) →
      ¬(j = i ∧ o = (c, event.eventType, event.code) ∧ Tracked o) := by
    rintro hnone ⟨-, rfl, htracked⟩
    exact hnone _ htracked
  cases htype : event.eventType with
  | key =>
    rw [held_trackKey hkeys (event.key_value htype)]
    by_cases hmatch : j = i ∧ o = (c, EventType.key, event.code)
    · have htracked : Tracked o := by
        rw [hmatch.2]
        trivial
      rw [if_pos hmatch, if_pos ⟨hmatch.1, hmatch.2, htracked⟩]
      simp
    · rw [if_neg hmatch, if_neg fun h => hmatch ⟨h.1, h.2.1⟩]
  | abs =>
    refine (held_trackAbs haxes i j c event.code event.value o).trans ?_
    simp
  | rel
  | other type =>
    rw [htype] at huntracked
    rw [if_neg (huntracked fun _ h => h)]
    rfl

theorem owed_trackMacroEvent (i j : ℕ) (c : OutputClass) (o : Output) (eventType : EventType)
    (code value : Int) :
    Owed (trackMacroEvent (m.write c eventType code value) i c eventType code value) j o ↔
      Owed m j o := by
  have hsame : (trackMacroEvent (m.write c eventType code value) i c eventType code
      value).macroState.pauseReleased = m.macroState.pauseReleased := by
    have hwrite : (m.write c eventType code value).macroState = m.macroState := by
      unfold Manager.write
      split
      · split
        · rfl
        · split
          · rfl
          · rfl
      · rfl
    rw [← hwrite]
    unfold trackMacroEvent
    split
    · split
      · rfl
      · split
        · rfl
        · rfl
    · unfold trackMacroAbsValue
      split
      · rfl
      · split
        · rfl
        · split
          · rfl
          · rfl
    · rfl
  rw [Owed, hsame, Owed]

/-- An event is swallowed when it is a release that the pause has made already, or a repeat before
it; every other event is written. -/
theorem emitMacroEvent_cases (hkeys : m.macroState.keys.Counted)
    (haxes : m.macroState.axes.Counted) (i : ℕ) (event : Instances.MacroEvent) {c : OutputClass}
    (hresolve : resolveMacroOutput m.outputState event.eventType event.deviceType event.outputId =
      some c) (written : Bool) (m' : Manager)
    (hemit : emitMacroEvent m i event.eventType event.code event.value event.deviceType
      event.outputId = (written, m')) :
    (written = false ∧ Owed m i (c, event.eventType, event.code) ∧
      (event.value = 0 ∨ event.eventType = .key ∧ event.value = 2) ∧
      (∀ j o, Held m' j o ↔ Held m j o) ∧
      ∀ j o, Owed m' j o ↔
        Owed m j o ∧ ¬(j = i ∧ o = (c, event.eventType, event.code) ∧ event.value = 0)) ∨
    (written = true ∧
      (Owed m i (c, event.eventType, event.code) →
        event.value ≠ 0 ∧ ¬(event.eventType = .key ∧ event.value = 2)) ∧
      (∀ j o, Held m' j o ↔
        if j = i ∧ o = (c, event.eventType, event.code) ∧ Tracked o then
          event.value ≠ 0 ∧ (event.eventType = .key ∧ event.value = 2 → Held m i o)
        else Held m j o) ∧
      ∀ j o, Owed m' j o ↔
        Owed m j o ∧ ¬(j = i ∧ o = (c, event.eventType, event.code))) := by
  unfold emitMacroEvent at hemit
  rw [hresolve] at hemit
  dsimp only at hemit
  split at hemit
  · rename_i howed
    split at hemit
    · rename_i hzero
      cases hemit
      refine Or.inl ⟨rfl, howed, Or.inl hzero, fun _ _ => Iff.rfl, fun j o => ?_⟩
      rw [owed_discardReleased]
      simp [hzero]
    · rename_i hzero
      split at hemit
      · rename_i hrepeat
        cases hemit
        refine Or.inl ⟨rfl, howed, Or.inr hrepeat, fun _ _ => Iff.rfl, fun j o => ?_⟩
        simp [hzero]
      · rename_i hrepeat
        cases hemit
        refine Or.inr ⟨rfl, fun _ => ⟨hzero, hrepeat⟩, fun j o => ?_, fun j o => ?_⟩
        · exact held_trackMacroEvent (m := m.discardReleased i _) hkeys haxes i j c o event
        · rw [owed_trackMacroEvent]
          exact owed_discardReleased i j _ o
  · rename_i howed
    cases hemit
    refine Or.inr ⟨rfl, fun h => absurd h howed, fun j o => ?_, fun j o => ?_⟩
    · exact held_trackMacroEvent hkeys haxes i j c o event
    · rw [owed_trackMacroEvent]
      refine ⟨fun h => ⟨h, ?_⟩, fun h => h.1⟩
      rintro ⟨rfl, rfl⟩
      exact howed h

end Events

/-! ## What a pause does -/

variable {m : Manager} {i : ℕ} {o : Output} {e : Entry}

theorem mem_heldOutputs : o ∈ heldOutputs m i ↔ Held m i o := by
  obtain ⟨c, type, code⟩ := o
  unfold heldOutputs Held
  rw [List.mem_append, List.mem_map, List.mem_map]
  cases type with
  | key => simp
  | abs => simp
  | rel => simp
  | other type => simp

theorem nodup_heldOutputs (hkeys : m.macroState.keys.Counted) (haxes : m.macroState.axes.Counted)
    (i : ℕ) : (heldOutputs m i).Nodup := by
  refine List.Nodup.append ?_ ?_ ?_
  · refine (hkeys.nodup i).map fun k l h => ?_
    simp only [Prod.mk.injEq, true_and] at h
    exact Prod.ext h.1 h.2
  · refine (haxes.nodup i).map fun k l h => ?_
    simp only [Prod.mk.injEq, true_and] at h
    exact Prod.ext h.1 h.2
  · intro o hkey habs
    obtain ⟨k, -, rfl⟩ := List.mem_map.mp hkey
    obtain ⟨l, -, heq⟩ := List.mem_map.mp habs
    simp at heq

theorem held_release (m : Manager) (i j : ℕ) (o : Output) :
    Held (releaseMacroHeldForInstance m i) j o ↔ j ≠ i ∧ Held m j o := by
  unfold Held
  rw [releaseMacroHeldForInstance_keys, releaseMacroHeldForInstance_axes, Holdings.heldBy_drop,
    Holdings.heldBy_drop]
  by_cases hj : j = i
  · cases o.2.1 <;> simp [hj]
  · simp [hj]

theorem held_pauseMacroOutputs (m : Manager) (i j : ℕ) (o : Output) :
    Held (pauseMacroOutputs m i) j o ↔ j ≠ i ∧ Held m j o :=
  held_release _ i j o

theorem owed_pauseMacroOutputs (m : Manager) (i j : ℕ) (o : Output) :
    Owed (pauseMacroOutputs m i) j o ↔ Owed m j o ∨ j = i ∧ Held m i o := by
  have hset : (pauseMacroOutputs m i).macroState.pauseReleased =
      m.macroState.pauseReleased.insert i
        (m.macroState.pauseReleased.getD i ∅ ∪ (heldOutputs m i).toFinset) := rfl
  unfold Owed
  rw [hset]
  simp only [Dict.getD, Dict.get?_insert]
  by_cases hj : j = i
  · simp only [hj, if_true, Option.getD_some, Finset.mem_union, List.mem_toFinset,
      mem_heldOutputs, true_and]
  · simp [hj]

/-! ## Entries of the log -/

/-- The entry says nothing about the output of the instance. -/
def Unrelated (i : ℕ) (o : Output) (e : Entry) : Prop :=
  timelineValue i o e = none ∧ writtenValue i o e = none

theorem unrelated_of_author (h : e.author ≠ i) (o : Output) : Unrelated i o e := by
  unfold Unrelated timelineValue writtenValue
  rw [if_neg h, if_neg h]
  exact ⟨rfl, rfl⟩

theorem Unrelated.not_swallowed (h : Unrelated i o e) :
    ¬(e.author = i ∧ e.what = .swallowed o 0) := by
  rintro ⟨hauthor, hwhat⟩
  have hvalue := h.1
  rw [timelineValue, if_pos hauthor, hwhat] at hvalue
  simp at hvalue

theorem Unrelated.not_released (h : Unrelated i o e) : ¬(e.author = i ∧ e.what = .released o) := by
  rintro ⟨hauthor, hwhat⟩
  have hvalue := h.2
  rw [writtenValue, if_pos hauthor, hwhat] at hvalue
  simp at hvalue

theorem levelAfter_append (value : Entry → Option Int) (o : Output) (log log' : List Entry) :
    levelAfter value o (log ++ log') = (levelAfter value o log).bind fun active =>
      run (levelStep o.2.1) active (log'.filterMap value) := by
  rw [levelAfter, List.filterMap_append, run_append, levelAfter]

theorem swallowedReleases_append (i : ℕ) (o : Output) (log log' : List Entry) :
    swallowedReleases i o (log ++ log') = swallowedReleases i o log + swallowedReleases i o log' :=
  List.countP_append

theorem pauseReleases_append (i : ℕ) (o : Output) (log log' : List Entry) :
    pauseReleases i o (log ++ log') = pauseReleases i o log + pauseReleases i o log' :=
  List.countP_append

theorem levelAfter_append_value {value : Entry → Option Int} {v : Int} (hvalue : value e = some v)
    (o : Output) (log : List Entry) :
    levelAfter value o (log ++ [e]) =
      (levelAfter value o log).bind fun active => levelStep o.2.1 active v := by
  have hvalues : [e].filterMap value = [v] := by simp [hvalue]
  rw [levelAfter_append, hvalues]
  apply Option.bind_congr
  intro active _
  rw [run_cons]
  cases levelStep o.2.1 active v with
  | none => rfl
  | some active' => rfl

theorem levelAfter_append_none {value : Entry → Option Int} {log' : List Entry}
    (hvalue : ∀ e ∈ log', value e = none) (o : Output) (log : List Entry) :
    levelAfter value o (log ++ log') = levelAfter value o log := by
  rw [levelAfter_append, List.filterMap_eq_nil_iff.mpr hvalue]
  cases levelAfter value o log with
  | none => rfl
  | some active => rfl

/-- A value that presses: the output was not active, unless an axis moves on. -/
theorem levelStep_press {type : EventType} {active active' : Bool} {value : Int}
    (hzero : value ≠ 0) (hrepeat : ¬(type = .key ∧ value = 2)) :
    levelStep type active value = some active' ↔
      active' = true ∧ ¬(type = .key ∧ active = true) := by
  unfold levelStep
  rw [if_neg hzero, if_neg hrepeat]
  split
  · rename_i hdown
    simp [hdown]
  · rename_i hdown
    simp only [Option.some.injEq, hdown, not_false_eq_true, and_true]
    exact eq_comm

/-! ## One output of an instance -/

/-- The log of an output agrees with what the instance holds and has still to release. -/
structure Kept (m : Manager) (log : List Entry) (i : ℕ) (o : Output) : Prop where
  swallowed : swallowedReleases i o log + (if Owed m i o then 1 else 0) ≤ pauseReleases i o log
  levels : ∀ active, levelAfter (timelineValue i o) o log = some active →
    ∃ down, levelAfter (writtenValue i o) o log = some down ∧
      (active = true ↔ down = true ∨ Owed m i o) ∧ ¬(down = true ∧ Owed m i o) ∧
      (Tracked o → (down = true ↔ Held m i o))
  once : o.2.1 = .key → levelAfter (timelineValue i o) o log ≠ none →
    swallowedReleases i o log + (if Owed m i o then 1 else 0) = pauseReleases i o log

section Kept

variable {m m' : Manager} {log : List Entry} {i : ℕ} {o : Output} {outputs : List Output}

theorem Kept.append_unrelated (h : Kept m log i o) (hheld : Held m' i o ↔ Held m i o)
    (howed : Owed m' i o ↔ Owed m i o) {log' : List Entry}
    (hlog : ∀ e ∈ log', Unrelated i o e) : Kept m' (log ++ log') i o := by
  have hswallowed : swallowedReleases i o log' = 0 := by
    refine List.countP_eq_zero.mpr fun e he => ?_
    simpa using (hlog e he).not_swallowed
  have hreleased : pauseReleases i o log' = 0 := by
    refine List.countP_eq_zero.mpr fun e he => ?_
    simpa using (hlog e he).not_released
  have htimeline := levelAfter_append_none (fun e he => (hlog e he).1) o log
  have hwritten := levelAfter_append_none (fun e he => (hlog e he).2) o log
  constructor
  · rw [swallowedReleases_append, pauseReleases_append, hswallowed, hreleased]
    simp only [howed]
    exact h.swallowed
  · rw [htimeline, hwritten]
    simp only [howed, hheld]
    exact h.levels
  · rw [swallowedReleases_append, pauseReleases_append, hswallowed, hreleased, htimeline]
    simp only [howed]
    exact h.once

theorem Kept.congr (h : Kept m log i o) (hheld : Held m' i o ↔ Held m i o)
    (howed : Owed m' i o ↔ Owed m i o) : Kept m' log i o := by
  have hempty : Kept m' (log ++ []) i o :=
    h.append_unrelated hheld howed fun _ he => absurd he List.not_mem_nil
  rwa [List.append_nil] at hempty

/-- A value of the timeline that is written ends what the pause has left over. -/
theorem Kept.written (h : Kept m log i o) {value : Int}
    (hfree : Owed m i o → value ≠ 0 ∧ ¬(o.2.1 = .key ∧ value = 2))
    (hheld : Tracked o → (Held m' i o ↔ value ≠ 0 ∧ (o.2.1 = .key ∧ value = 2 → Held m i o)))
    (howed : ¬Owed m' i o) (paused : Bool) :
    Kept m' (log ++ [⟨i, paused, .written o value⟩]) i o := by
  have hswallowed : swallowedReleases i o [⟨i, paused, .written o value⟩] = 0 := by
    simp [swallowedReleases]
  have hreleased : pauseReleases i o [⟨i, paused, .written o value⟩] = 0 := by
    simp [pauseReleases]
  have htimeline : levelAfter (timelineValue i o) o (log ++ [⟨i, paused, .written o value⟩]) =
      (levelAfter (timelineValue i o) o log).bind fun active => levelStep o.2.1 active value :=
    levelAfter_append_value (by simp [timelineValue]) o log
  have hwritten : levelAfter (writtenValue i o) o (log ++ [⟨i, paused, .written o value⟩]) =
      (levelAfter (writtenValue i o) o log).bind fun active => levelStep o.2.1 active value :=
    levelAfter_append_value (by simp [writtenValue]) o log
  constructor
  · have hle := h.swallowed
    rw [swallowedReleases_append, pauseReleases_append, hswallowed, hreleased, if_neg howed]
    omega
  · intro active' hactive'
    rw [htimeline, Option.bind_eq_some_iff] at hactive'
    obtain ⟨active, hactive, hstep⟩ := hactive'
    obtain ⟨down, hdown, hiff, hnot, htracked⟩ := h.levels active hactive
    rw [hwritten, hdown, Option.bind_some]
    by_cases hzero : value = 0
    · have hfalse : ¬Owed m i o := fun hold => (hfree hold).1 hzero
      rw [hzero] at hstep ⊢
      cases active with
      | false => cases hstep
      | true =>
        cases hstep
        have htrue : down = true := (hiff.mp rfl).resolve_right hfalse
        refine ⟨false, by rw [htrue]; rfl, by simp [howed], by simp, fun ht => ?_⟩
        simp [hheld ht, hzero]
    · by_cases hrepeat : o.2.1 = .key ∧ value = 2
      · have hfalse : ¬Owed m i o := fun hold => (hfree hold).2 hrepeat
        rw [hrepeat.1, hrepeat.2] at hstep ⊢
        cases hstep
        refine ⟨down, rfl, ?_, by simp [howed], fun ht => ?_⟩
        · simpa [howed, hfalse] using hiff
        · rw [htracked ht, hheld ht]
          exact ⟨fun hold => ⟨hzero, fun _ => hold⟩, fun hold => hold.2 hrepeat⟩
      · obtain ⟨rfl, hinactive⟩ := (levelStep_press hzero hrepeat).mp hstep
        have hpress : levelStep o.2.1 down value = some true := by
          refine (levelStep_press hzero hrepeat).mpr ⟨rfl, fun hd => hinactive ⟨hd.1, ?_⟩⟩
          exact hiff.mpr (Or.inl hd.2)
        refine ⟨true, hpress, by simp, by simp [howed], fun ht => ?_⟩
        rw [hheld ht]
        exact ⟨fun _ => ⟨hzero, fun hr => absurd hr hrepeat⟩, fun _ => rfl⟩
  · intro hkey htime
    rw [htimeline] at htime
    obtain ⟨active', hactive'⟩ := Option.ne_none_iff_exists'.mp htime
    obtain ⟨active, hactive, hstep⟩ := Option.bind_eq_some_iff.mp hactive'
    obtain ⟨down, -, hiff, -⟩ := h.levels active hactive
    have hfalse : ¬Owed m i o := by
      intro hold
      obtain ⟨hzero, hrepeat⟩ := hfree hold
      have hinactive := ((levelStep_press hzero hrepeat).mp hstep).2
      exact hinactive ⟨hkey, hiff.mpr (Or.inr hold)⟩
    have honce := h.once hkey (by rw [hactive]; nofun)
    rw [if_neg hfalse] at honce
    rw [swallowedReleases_append, pauseReleases_append, hswallowed, hreleased, if_neg howed]
    omega

/-- A swallowed release is one that the pause has made. -/
theorem Kept.swallow (h : Kept m log i o) {value : Int} (howed : Owed m i o)
    (hvalue : value = 0 ∨ o.2.1 = .key ∧ value = 2) (hheld : Held m' i o ↔ Held m i o)
    (howed' : Owed m' i o ↔ Owed m i o ∧ value ≠ 0) (paused : Bool) :
    Kept m' (log ++ [⟨i, paused, .swallowed o value⟩]) i o := by
  have hswallowed : swallowedReleases i o [⟨i, paused, .swallowed o value⟩] =
      if value = 0 then 1 else 0 := by
    by_cases hzero : value = 0
    · simp [swallowedReleases, hzero]
    · simp [swallowedReleases, hzero]
  have hreleased : pauseReleases i o [⟨i, paused, .swallowed o value⟩] = 0 := by
    simp [pauseReleases]
  have htimeline : levelAfter (timelineValue i o) o (log ++ [⟨i, paused, .swallowed o value⟩]) =
      (levelAfter (timelineValue i o) o log).bind fun active => levelStep o.2.1 active value :=
    levelAfter_append_value (by simp [timelineValue]) o log
  have hwritten : levelAfter (writtenValue i o) o (log ++ [⟨i, paused, .swallowed o value⟩]) =
      levelAfter (writtenValue i o) o log :=
    levelAfter_append_none (by simp [writtenValue]) o log
  have hcount : (if value = 0 then 1 else 0) + (if Owed m' i o then 1 else 0) =
      if Owed m i o then 1 else 0 := by
    by_cases hzero : value = 0
    · simp [hzero, howed, howed']
    · simp [hzero, howed, howed']
  constructor
  · have hle := h.swallowed
    rw [swallowedReleases_append, pauseReleases_append, hswallowed, hreleased]
    omega
  · intro active' hactive'
    rw [htimeline, Option.bind_eq_some_iff] at hactive'
    obtain ⟨active, hactive, hstep⟩ := hactive'
    obtain ⟨down, hdown, hiff, hnot, htracked⟩ := h.levels active hactive
    have hup : down = false := by
      cases down with
      | false => rfl
      | true => exact absurd ⟨rfl, howed⟩ hnot
    have hactive : active = true := hiff.mpr (Or.inr howed)
    rw [hwritten, hheld, howed']
    refine ⟨down, hdown, ?_, fun hd => hnot ⟨hd.1, hd.2.1⟩, htracked⟩
    rw [hactive] at hstep
    rcases hvalue with rfl | ⟨hkey, rfl⟩
    · cases hstep
      simp [hup]
    · rw [hkey] at hstep
      cases hstep
      simp [howed]
  · intro hkey htime
    rw [htimeline] at htime
    have hbefore : levelAfter (timelineValue i o) o log ≠ none := by
      intro hnone
      rw [hnone] at htime
      exact htime rfl
    have honce := h.once hkey hbefore
    rw [swallowedReleases_append, pauseReleases_append, hswallowed, hreleased]
    omega

/-- The entries of a pause. -/
def releasedEntries (i : ℕ) (outputs : List Output) : List Entry :=
  outputs.map fun o => ⟨i, false, .released o⟩

theorem timelineValue_released (i j : ℕ) (o : Output) (outputs : List Output) :
    ∀ e ∈ releasedEntries j outputs, timelineValue i o e = none := by
  intro e he
  obtain ⟨o', -, rfl⟩ := List.mem_map.mp he
  simp [timelineValue]

theorem filterMap_released (hnodup : outputs.Nodup) (i : ℕ) (o : Output) :
    (releasedEntries i outputs).filterMap (writtenValue i o) =
      if o ∈ outputs then [0] else [] := by
  induction outputs with
  | nil => rfl
  | cons o' outputs ih =>
    obtain ⟨hnot, hrest⟩ := List.nodup_cons.mp hnodup
    have hcons : (releasedEntries i (o' :: outputs)).filterMap (writtenValue i o) =
        (if o' = o then [0] else []) ++
          (releasedEntries i outputs).filterMap (writtenValue i o) := by
      by_cases heq : o' = o
      · simp [releasedEntries, writtenValue, heq]
      · simp [releasedEntries, writtenValue, heq]
    rw [hcons, ih hrest]
    by_cases heq : o' = o
    · simp [← heq, hnot]
    · have hne : o ≠ o' := fun h => heq h.symm
      simp [heq, hne]

theorem swallowedReleases_released (i j : ℕ) (o : Output) (outputs : List Output) :
    swallowedReleases i o (releasedEntries j outputs) = 0 := by
  refine List.countP_eq_zero.mpr fun e he => ?_
  obtain ⟨o', -, rfl⟩ := List.mem_map.mp he
  simp

theorem pauseReleases_released (hnodup : outputs.Nodup) (i : ℕ) (o : Output) :
    pauseReleases i o (releasedEntries i outputs) = if o ∈ outputs then 1 else 0 := by
  have hcount : pauseReleases i o (releasedEntries i outputs) = outputs.count o := by
    rw [pauseReleases, releasedEntries, List.countP_map, List.count]
    apply List.countP_congr
    intro o' _
    simp
  rw [hcount, hnodup.count]

/-- A pause releases what is held and owes the releases to the timeline. -/
theorem Kept.pause (h : Kept m log i o) (htracked : Held m i o → Tracked o) (hnodup : outputs.Nodup)
    (hmem : o ∈ outputs ↔ Held m i o) (hheld : ¬Held m' i o)
    (howed : Owed m' i o ↔ Owed m i o ∨ Held m i o) :
    Kept m' (log ++ releasedEntries i outputs) i o := by
  have htimeline := levelAfter_append_none (timelineValue_released i i o outputs) o log
  have hwritten : levelAfter (writtenValue i o) o (log ++ releasedEntries i outputs) =
      (levelAfter (writtenValue i o) o log).bind fun down =>
        run (levelStep o.2.1) down (if Held m i o then [0] else []) := by
    rw [levelAfter_append, filterMap_released hnodup]
    simp only [hmem]
  have hreleased : pauseReleases i o (releasedEntries i outputs) =
      if Held m i o then 1 else 0 := by
    rw [pauseReleases_released hnodup]
    simp only [hmem]
  constructor
  · have hle := h.swallowed
    rw [swallowedReleases_append, pauseReleases_append, swallowedReleases_released, hreleased]
    simp only [howed]
    by_cases hold : Held m i o
    · simp only [hold, or_true, if_true]
      omega
    · simpa only [hold, or_false, if_false, Nat.add_zero] using hle
  · intro active hactive
    rw [htimeline] at hactive
    obtain ⟨down, hdown, hiff, hnot, hlevel⟩ := h.levels active hactive
    rw [hwritten, hdown, Option.bind_some]
    by_cases hold : Held m i o
    · have htrue : down = true := (hlevel (htracked hold)).mpr hold
      have hactive : active = true := hiff.mpr (Or.inl htrue)
      refine ⟨false, ?_, ?_, by simp, fun _ => by simp [hheld]⟩
      · rw [if_pos hold, htrue]
        rfl
      · simp [hactive, howed, hold]
    · refine ⟨down, ?_, ?_, ?_, fun ht => ?_⟩
      · rw [if_neg hold]
        rfl
      · simpa only [howed, hold, or_false] using hiff
      · simpa only [howed, hold, or_false] using hnot
      · simpa only [hheld, hold] using hlevel ht
  · intro hkey htime
    rw [htimeline] at htime
    have honce := h.once hkey htime
    obtain ⟨active, hactive⟩ := Option.ne_none_iff_exists'.mp htime
    obtain ⟨down, -, -, hnot, hlevel⟩ := h.levels active hactive
    rw [swallowedReleases_append, pauseReleases_append, swallowedReleases_released, hreleased]
    simp only [howed]
    by_cases hold : Held m i o
    · have hfalse : ¬Owed m i o := fun ho => hnot ⟨(hlevel (htracked hold)).mpr hold, ho⟩
      rw [if_neg hfalse] at honce
      simp only [hold, or_true, if_true]
      omega
    · simpa only [hold, or_false, if_false, Nat.add_zero] using honce

end Kept

/-! ## What other steps leave as it is -/

/-- The instance holds and owes what it did. -/
structure Frame (m m' : Manager) (i : ℕ) : Prop where
  held : ∀ o, Held m' i o ↔ Held m i o
  owed : ∀ o, Owed m' i o ↔ Owed m i o

/-- Nothing is held, owed or paused that was not, and what is cancelled stays so while it has a
pause. -/
structure Fewer (m m' : Manager) : Prop where
  held : ∀ i o, Held m' i o → Held m i o
  owed : ∀ i o, Owed m' i o → Owed m i o
  pauses : ∀ i, m'.macroState.pauses.get? i ≠ none → m.macroState.pauses.get? i ≠ none ∧
    (i ∈ m.macroState.cancelInstanceIds → i ∈ m'.macroState.cancelInstanceIds)
  paused : ∀ i, m'.macroState.pauses.get? i = some true → m.macroState.pauses.get? i = some true
  instanceSeq : m'.macroState.instanceSeq = m.macroState.instanceSeq

section Frames

variable {m m' m'' : Manager} {i j : ℕ} {f : Manager → ℕ → Manager} {ids : List ℕ}

theorem Frame.refl (m : Manager) (i : ℕ) : Frame m m i := ⟨fun _ => Iff.rfl, fun _ => Iff.rfl⟩

theorem Frame.trans (h : Frame m m' i) (h' : Frame m' m'' i) : Frame m m'' i :=
  ⟨fun o => (h'.held o).trans (h.held o), fun o => (h'.owed o).trans (h.owed o)⟩

theorem Fewer.refl (m : Manager) : Fewer m m :=
  ⟨fun _ _ h => h, fun _ _ h => h, fun _ h => ⟨h, fun hc => hc⟩, fun _ h => h, rfl⟩

theorem Fewer.trans (h : Fewer m m') (h' : Fewer m' m'') : Fewer m m'' where
  held := fun i o ho => h.held i o (h'.held i o ho)
  owed := fun i o ho => h.owed i o (h'.owed i o ho)
  pauses := by
    intro i hi
    obtain ⟨hi', hcancel'⟩ := h'.pauses i hi
    obtain ⟨hi'', hcancel⟩ := h.pauses i hi'
    exact ⟨hi'', fun hc => hcancel' (hcancel hc)⟩
  paused := fun i hi => h.paused i (h'.paused i hi)
  instanceSeq := h'.instanceSeq.trans h.instanceSeq

theorem Frame.foldl (hf : ∀ m, ∀ j ∈ ids, Frame m (f m j) i) (m : Manager) :
    Frame m (ids.foldl f m) i := by
  induction ids generalizing m with
  | nil => exact Frame.refl m i
  | cons j ids ih =>
    have hfirst := hf m j List.mem_cons_self
    exact hfirst.trans (ih (fun m k hk => hf m k (List.mem_cons_of_mem j hk)) (f m j))

theorem Fewer.foldl (hf : ∀ m j, Fewer m (f m j)) (ids : List ℕ) (m : Manager) :
    Fewer m (ids.foldl f m) := by
  induction ids generalizing m with
  | nil => exact Fewer.refl m
  | cons j ids ih => exact (hf m j).trans (ih (f m j))

theorem frame_release (hne : i ≠ j) : Frame m (releaseMacroHeldForInstance m j) i where
  held := fun o => by
    rw [held_release]
    exact and_iff_right hne
  owed := fun _ => Iff.rfl

theorem fewer_release (m : Manager) (j : ℕ) : Fewer m (releaseMacroHeldForInstance m j) where
  held := fun i o h => ((held_release m j i o).mp h).2
  owed := fun _ _ h => h
  pauses := fun _ h => ⟨h, fun hc => hc⟩
  paused := fun _ h => h
  instanceSeq := rfl

theorem frame_forget (hne : i ≠ j) : Frame m (Instances.forgetInstance m j) i where
  held := fun _ => Iff.rfl
  owed := fun o => by
    change o ∈ (m.macroState.pauseReleased.erase j).getD i ∅ ↔ _
    rw [Dict.getD, Dict.get?_erase, if_neg hne]
    exact Iff.rfl

theorem fewer_forget (m : Manager) (j : ℕ) : Fewer m (Instances.forgetInstance m j) where
  held := fun _ _ h => h
  owed := by
    intro i o h
    by_cases hi : i = j
    · change o ∈ (m.macroState.pauseReleased.erase j).getD i ∅ at h
      rw [Dict.getD, Dict.get?_erase, if_pos hi] at h
      simp at h
    · exact ((frame_forget hi).owed o).mp h
  pauses := by
    intro i h
    change (m.macroState.pauses.erase j).get? i ≠ none at h
    rw [Dict.get?_erase] at h
    by_cases hi : i = j
    · rw [if_pos hi] at h
      exact absurd rfl h
    · rw [if_neg hi] at h
      exact ⟨h, fun hc => Finset.mem_erase.mpr ⟨hi, hc⟩⟩
  paused := by
    intro i h
    change (m.macroState.pauses.erase j).get? i = some true at h
    rw [Dict.get?_erase] at h
    by_cases hi : i = j
    · rw [if_pos hi] at h
      cases h
    · rwa [if_neg hi] at h
  instanceSeq := rfl

theorem frame_expire (alive : ℕ → Bool) (hne : i ≠ j) :
    Frame m (Instances.expireInstance alive m j) i := by
  unfold Instances.expireInstance
  dsimp only
  split
  · exact frame_release hne
  · exact (frame_release hne).trans (frame_forget hne)

theorem fewer_expire (alive : ℕ → Bool) (m : Manager) (j : ℕ) :
    Fewer m (Instances.expireInstance alive m j) := by
  unfold Instances.expireInstance
  dsimp only
  split
  · exact fewer_release m j
  · exact (fewer_release m j).trans (fewer_forget _ j)

theorem fewer_markCancelled (m : Manager) (ids : List ℕ) :
    Fewer m (Instances.markCancelled m ids) where
  held := fun _ _ h => h
  owed := fun _ _ h => h
  pauses := fun _ h => ⟨h, fun hc => Finset.mem_union_left _ hc⟩
  paused := fun _ h => h
  instanceSeq := rfl

/-- Instances that are marked cancelled and then cleaned up one by one. -/
theorem frame_cancelled (hf : ∀ m j, i ≠ j → Frame m (f m j) i) (hi : i ∉ ids) (m : Manager) :
    Frame m (ids.foldl f (Instances.markCancelled m ids)) i := by
  have hmark : Frame m (Instances.markCancelled m ids) i := ⟨fun _ => Iff.rfl, fun _ => Iff.rfl⟩
  refine hmark.trans (Frame.foldl (fun m j hj => hf m j ?_) _)
  rintro rfl
  exact hi hj

theorem fewer_cancelled (hf : ∀ m j, Fewer m (f m j)) (m : Manager) (ids : List ℕ) :
    Fewer m (ids.foldl f (Instances.markCancelled m ids)) :=
  (fewer_markCancelled m ids).trans (Fewer.foldl hf ids _)

theorem mem_cancelled (hf : ∀ m j, Fewer m (f m j))
    (hi : (ids.foldl f (Instances.markCancelled m ids)).macroState.pauses.get? i ≠ none)
    (hmem : i ∈ ids) :
    i ∈ (ids.foldl f (Instances.markCancelled m ids)).macroState.cancelInstanceIds := by
  have hkeep := ((Fewer.foldl hf ids (Instances.markCancelled m ids)).pauses i hi).2
  exact hkeep (Finset.mem_union_right _ (List.mem_toFinset.mpr hmem))

theorem fewer_resume (hpaused : m.macroState.pauses.get? j ≠ none) :
    Fewer m (Instances.setPaused m j false) where
  held := fun _ _ h => h
  owed := fun _ _ h => h
  pauses := by
    intro i h
    change (m.macroState.pauses.insert j false).get? i ≠ none at h
    rw [Dict.get?_insert] at h
    by_cases hi : i = j
    · exact ⟨hi ▸ hpaused, fun hc => hc⟩
    · rw [if_neg hi] at h
      exact ⟨h, fun hc => hc⟩
  paused := by
    intro i h
    change (m.macroState.pauses.insert j false).get? i = some true at h
    rw [Dict.get?_insert] at h
    by_cases hi : i = j
    · rw [if_pos hi] at h
      cases h
    · rwa [if_neg hi] at h
  instanceSeq := rfl

end Frames

/-! ## The invariant -/

/-- The task of the instance has been created and not cancelled. -/
def Live (s : State) (i : ℕ) : Prop :=
  (i ∈ s.base.created ∨ i ∈ s.base.playing) ∧ i ∉ s.dying

/-- A new instance owes nothing, an instance with a pause is live until it is cancelled, and the
log of an instance agrees with what it holds for as long as it is live. -/
structure Inv (s : State) : Prop where
  base : Instances.Inv s.base
  disjoint : Disjoint s.base.created s.base.playing
  fresh : ∀ i, s.base.manager.macroState.instanceSeq < i → (∀ e ∈ s.log, e.author ≠ i) ∧
    (∀ o, ¬Owed s.base.manager i o) ∧ s.base.manager.macroState.pauses.get? i = none
  active : ∀ i, s.base.manager.macroState.pauses.get? i ≠ none →
    i ∉ s.base.manager.macroState.cancelInstanceIds → Live s i
  tracked : ∀ i o, Held s.base.manager i o → Tracked o
  kept : ∀ i o, Live s i → Kept s.base.manager s.log i o
  closed : ∀ i o, ∃ m, Kept m s.log i o

theorem kept_nil (hheld : ¬Held m i o) (howed : ¬Owed m i o) :
    Kept m [] i o where
  swallowed := by simp [howed, swallowedReleases, pauseReleases]
  levels := by
    intro active hactive
    cases hactive
    exact ⟨false, rfl, by simp [howed], by simp, fun _ => by simp [hheld]⟩
  once := by simp [howed, swallowedReleases, pauseReleases]

theorem kept_of_no_entry {log : List Entry} (hheld : ¬Held m i o) (howed : ¬Owed m i o)
    (hlog : ∀ e ∈ log, e.author ≠ i) :
    Kept m log i o :=
  (kept_nil hheld howed).append_unrelated Iff.rfl Iff.rfl
    (fun e he => unrelated_of_author (hlog e he) o)

theorem inv_initial (outputs : OutputState) : Inv (initial outputs) where
  base := Instances.inv_initial outputs
  disjoint := Finset.disjoint_empty_left _
  fresh := fun _ _ => ⟨fun _ he => absurd he List.not_mem_nil,
    fun _ ho => absurd ho (Finset.notMem_empty _), rfl⟩
  active := fun _ h => absurd rfl h
  tracked := by
    intro i o ho
    unfold Held at ho
    cases htype : o.2.1 with
    | key
    | abs
    | rel
    | other type => rw [htype] at ho; cases ho
  kept := by
    rintro i o ⟨hi, -⟩
    rcases hi with hi | hi
    · cases hi
    · cases hi
  closed := by
    refine fun i o => ⟨(initial outputs).base.manager, kept_nil ?_ (Finset.notMem_empty _)⟩
    unfold Held
    cases o.2.1 <;> nofun

section Steps

variable {s t : State} {i : ℕ} {op : Instances.Op}

theorem Inv.le_of_live (h : Inv s) (hlive : Live s i) :
    i ≤ s.base.manager.macroState.instanceSeq := h.base.issued i hlive.1

/-- A step that adds nothing to the log and nothing to what is held, owed and paused. -/
theorem Inv.fewer (h : Inv s) (hbase : Instances.Inv t.base)
    (hdisjoint : Disjoint t.base.created t.base.playing)
    (hfewer : Fewer s.base.manager t.base.manager) (hlog : t.log = s.log)
    (hlive : ∀ i, Live t i → Live s i ∧ Frame s.base.manager t.base.manager i)
    (hactive : ∀ i, t.base.manager.macroState.pauses.get? i ≠ none →
      i ∉ t.base.manager.macroState.cancelInstanceIds → Live s i → Live t i) : Inv t where
  base := hbase
  disjoint := hdisjoint
  fresh := by
    intro i hi
    rw [hfewer.instanceSeq] at hi
    obtain ⟨hentries, howed, hpauses⟩ := h.fresh i hi
    refine ⟨hlog ▸ hentries, fun o ho => howed o (hfewer.owed i o ho), ?_⟩
    by_contra hsome
    exact (hfewer.pauses i hsome).1 hpauses
  active := by
    intro i hi hcancel
    obtain ⟨hpauses, hkeep⟩ := hfewer.pauses i hi
    exact hactive i hi hcancel (h.active i hpauses fun hc => hcancel (hkeep hc))
  tracked := fun i o ho => h.tracked i o (hfewer.held i o ho)
  kept := by
    intro i o hi
    obtain ⟨hlive, hframe⟩ := hlive i hi
    rw [hlog]
    exact (h.kept i o hlive).congr (hframe.held o) (hframe.owed o)
  closed := hlog ▸ h.closed

theorem Inv.setPlayers (h : Inv s) (players : Dict ℕ Player) : Inv { s with players } :=
  ⟨h.base, h.disjoint, h.fresh, h.active, h.tracked, h.kept, h.closed⟩

/-- An entry that is about no output. -/
theorem Inv.move (h : Inv s) (hlive : Live s i) (natural : Bool) :
    Inv (s.record i (.moved natural)) := by
  have hunrelated : ∀ j o, Unrelated j o ⟨i, decide (Paused s i), .moved natural⟩ := by
    intro j o
    simp [Unrelated, timelineValue, writtenValue]
  have hentry : ∀ j o, ∀ e ∈ [(⟨i, decide (Paused s i), .moved natural⟩ : Entry)],
      Unrelated j o e := by
    intro j o e he
    rw [List.mem_singleton.mp he]
    exact hunrelated j o
  refine { h with fresh := ?_, active := h.active, kept := ?_, closed := ?_ }
  · intro j hj
    obtain ⟨hentries, howed, hpauses⟩ := h.fresh j hj
    refine ⟨fun e he => ?_, howed, hpauses⟩
    rcases List.mem_append.mp he with he | he
    · exact hentries e he
    · rw [List.mem_singleton.mp he]
      have hle := h.le_of_live hlive
      change i ≠ j
      change s.base.manager.macroState.instanceSeq < j at hj
      omega
  · exact fun j o hj => (h.kept j o hj).append_unrelated Iff.rfl Iff.rfl (hentry j o)
  · intro j o
    obtain ⟨m, hm⟩ := h.closed j o
    exact ⟨m, hm.append_unrelated Iff.rfl Iff.rfl (hentry j o)⟩

theorem keeps_trackMacroEvent (m : Manager) (i : ℕ) (c : OutputClass) (eventType : EventType)
    (code value : Int) :
    (trackMacroEvent (m.write c eventType code value) i c eventType code value).macroState.pauses =
        m.macroState.pauses ∧
      (trackMacroEvent (m.write c eventType code value) i c eventType code
        value).macroState.cancelInstanceIds = m.macroState.cancelInstanceIds := by
  have hwrite : (m.write c eventType code value).macroState = m.macroState := by
    unfold Manager.write
    split
    · split
      · rfl
      · split
        · rfl
        · rfl
    · rfl
  rw [← hwrite]
  unfold trackMacroEvent
  split
  · split
    · exact ⟨rfl, rfl⟩
    · split
      · exact ⟨rfl, rfl⟩
      · exact ⟨rfl, rfl⟩
  · unfold trackMacroAbsValue
    split
    · exact ⟨rfl, rfl⟩
    · split
      · exact ⟨rfl, rfl⟩
      · split
        · exact ⟨rfl, rfl⟩
        · exact ⟨rfl, rfl⟩
  · exact ⟨rfl, rfl⟩

theorem keeps_emitMacroEvent (m : Manager) (i : ℕ) (event : Instances.MacroEvent) :
    (emitMacroEvent m i event.eventType event.code event.value event.deviceType
        event.outputId).2.macroState.pauses = m.macroState.pauses ∧
      (emitMacroEvent m i event.eventType event.code event.value event.deviceType
        event.outputId).2.macroState.cancelInstanceIds = m.macroState.cancelInstanceIds := by
  unfold emitMacroEvent
  split
  · exact ⟨rfl, rfl⟩
  · dsimp only
    split
    · split
      · exact ⟨rfl, rfl⟩
      · split
        · exact ⟨rfl, rfl⟩
        · exact keeps_trackMacroEvent (m.discardReleased i _) i _ _ _ _
    · exact keeps_trackMacroEvent m i _ _ _ _

theorem emitEvent_cases (s : State) (i : ℕ) (event : Instances.MacroEvent) :
    emitEvent s i event = s ∨ ∃ c written m',
      resolveMacroOutput s.base.manager.outputState event.eventType event.deviceType
        event.outputId = some c ∧
      emitMacroEvent s.base.manager i event.eventType event.code event.value event.deviceType
        event.outputId = (written, m') ∧
      emitEvent s i event =
        { s with
          base := { s.base with manager := m' }
          log := s.log ++ [⟨i, decide (Paused s i),
            if written then .written (c, event.eventType, event.code) event.value
            else .swallowed (c, event.eventType, event.code) event.value⟩] } := by
  unfold emitEvent
  dsimp only
  cases hresolve : resolveMacroOutput s.base.manager.outputState event.eventType event.deviceType
      event.outputId with
  | none => exact Or.inl rfl
  | some c => exact Or.inr ⟨c, _, _, rfl, rfl, rfl⟩

/-- The event of a timeline; it is written, or swallowed in place of the release that a pause has
made. -/
theorem Inv.emit (h : Inv s) (hplaying : i ∈ s.base.playing) (hdying : i ∉ s.dying)
    (event : Instances.MacroEvent) : Inv (emitEvent s i event) := by
  rcases emitEvent_cases s i event with hsame | ⟨c, written, m', hresolve, hemit, hstate⟩
  · rw [hsame]
    exact h
  · have hm : (emitMacroEvent s.base.manager i event.eventType event.code event.value
        event.deviceType event.outputId).2 = m' := by rw [hemit]
    have hlive : Live s i := ⟨Or.inr hplaying, hdying⟩
    have hbase : Instances.Inv { s.base with manager := m' } := by
      have hstep : Instances.step s.base (.emit i event) =
          some { s.base with manager := m' } := by
        rw [Instances.step, if_pos hplaying, hm]
      exact h.base.step hstep
    have hkeeps := keeps_emitMacroEvent s.base.manager i event
    have hseq := Instances.instanceSeq_emitMacroEvent s.base.manager i event.eventType event.code
      event.value event.deviceType event.outputId
    rw [hm] at hkeeps hseq
    have hcases := emitMacroEvent_cases h.base.sound.keys h.base.sound.axes i event hresolve
      written m' hemit
    rw [hstate]
    have howed : ∀ j o, Owed m' j o → Owed s.base.manager j o := by
      intro j o ho
      rcases hcases with ⟨-, -, -, -, howed⟩ | ⟨-, -, -, howed⟩
      · exact ((howed j o).mp ho).1
      · exact ((howed j o).mp ho).1
    have hother : ∀ j o, ¬(j = i ∧ o = (c, event.eventType, event.code)) →
        (Held m' j o ↔ Held s.base.manager j o) ∧ (Owed m' j o ↔ Owed s.base.manager j o) := by
      intro j o hne
      rcases hcases with ⟨-, -, -, hheld, howed⟩ | ⟨-, -, hheld, howed⟩
      · refine ⟨hheld j o, (howed j o).trans (and_iff_left fun hr => hne ⟨hr.1, hr.2.1⟩)⟩
      · refine ⟨?_, (howed j o).trans (and_iff_left hne)⟩
        rw [hheld, if_neg fun hr => hne ⟨hr.1, hr.2.1⟩]
    have hunrelated : ∀ j o, ¬(j = i ∧ o = (c, event.eventType, event.code)) →
        ∀ e ∈ [(⟨i, decide (Paused s i),
            if written then .written (c, event.eventType, event.code) event.value
            else .swallowed (c, event.eventType, event.code) event.value⟩ : Entry)],
          Unrelated j o e := by
      intro j o hne e he
      rw [List.mem_singleton.mp he]
      by_cases hj : j = i
      · have ho : ¬(c, event.eventType, event.code) = o := fun heq => hne ⟨hj, heq.symm⟩
        cases written with
        | true
        | false => simp [Unrelated, timelineValue, writtenValue, ho]
      · exact unrelated_of_author (fun heq => hj heq.symm) o
    have hkept : ∀ j o, Live s j → Kept m' (s.log ++ [⟨i, decide (Paused s i),
        if written then .written (c, event.eventType, event.code) event.value
        else .swallowed (c, event.eventType, event.code) event.value⟩]) j o := by
      intro j o hj
      by_cases hmatch : j = i ∧ o = (c, event.eventType, event.code)
      · obtain ⟨rfl, rfl⟩ := hmatch
        rcases hcases with ⟨rfl, hold, hvalue, hheld, howed⟩ | ⟨rfl, hfree, hheld, howed⟩
        · refine (h.kept j _ hj).swallow hold hvalue (hheld _ _) ?_ _
          rw [howed]
          simp
        · refine (h.kept j _ hj).written hfree ?_ ?_ _
          · intro ht
            rw [hheld, if_pos ⟨rfl, rfl, ht⟩]
          · rw [howed]
            simp
      · exact (h.kept j o hj).append_unrelated (hother j o hmatch).1 (hother j o hmatch).2
          (hunrelated j o hmatch)
    refine ⟨hbase, h.disjoint, fun j hj => ?_, fun j hj hc => ?_, fun j o ho => ?_, hkept,
      fun j o => ?_⟩
    · change m'.macroState.instanceSeq < j at hj
      rw [hseq] at hj
      obtain ⟨hentries, hnone, hpauses⟩ := h.fresh j hj
      refine ⟨fun e he => ?_, fun o ho => hnone o (howed j o ho), hkeeps.1 ▸ hpauses⟩
      rcases List.mem_append.mp he with he | he
      · exact hentries e he
      · rw [List.mem_singleton.mp he]
        have hle := h.le_of_live hlive
        change i ≠ j
        omega
    · change m'.macroState.pauses.get? j ≠ none at hj
      change j ∉ m'.macroState.cancelInstanceIds at hc
      rw [hkeeps.1] at hj
      rw [hkeeps.2] at hc
      exact h.active j hj hc
    · by_cases hmatch : j = i ∧ o = (c, event.eventType, event.code)
      · rcases hcases with ⟨-, -, -, hheld, -⟩ | ⟨-, -, hheld, -⟩
        · exact h.tracked j o ((hheld j o).mp ho)
        · by_contra hnot
          have hnew := (hheld j o).mp ho
          rw [if_neg fun hr => hnot hr.2.2] at hnew
          exact hnot (h.tracked j o hnew)
      · exact h.tracked j o ((hother j o hmatch).1.mp ho)
    · by_cases hmatch : j = i ∧ o = (c, event.eventType, event.code)
      · exact ⟨m', hkept j o (hmatch.1 ▸ hlive)⟩
      · obtain ⟨m, hold⟩ := h.closed j o
        exact ⟨m, hold.append_unrelated Iff.rfl Iff.rfl (hunrelated j o hmatch)⟩

/-- A pause, which an instance that is live alone can meet. -/
theorem Inv.pause (h : Inv s) (hbase : Instances.Inv t.base)
    (hpauses : s.base.manager.macroState.pauses.get? i = some false)
    (hcancel : i ∉ s.base.manager.macroState.cancelInstanceIds)
    (ht : t.base = { s.base with
      manager := pauseMacroOutputs (Instances.setPaused s.base.manager i true) i })
    (hdying : t.dying = s.dying)
    (hlog : t.log = s.log ++ releasedEntries i (heldOutputs s.base.manager i)) : Inv t := by
  have hlive : Live s i := h.active i (by rw [hpauses]; simp) hcancel
  have hle := h.le_of_live hlive
  have hlive' : ∀ j, Live t j ↔ Live s j := by
    intro j
    unfold Live
    rw [ht, hdying]
  have hheld : ∀ j o, Held t.base.manager j o ↔ j ≠ i ∧ Held s.base.manager j o := by
    intro j o
    rw [ht]
    exact held_pauseMacroOutputs (Instances.setPaused s.base.manager i true) i j o
  have howed : ∀ j o, Owed t.base.manager j o ↔
      Owed s.base.manager j o ∨ j = i ∧ Held s.base.manager i o := by
    intro j o
    rw [ht]
    exact owed_pauseMacroOutputs (Instances.setPaused s.base.manager i true) i j o
  have hauthor : ∀ e ∈ releasedEntries i (heldOutputs s.base.manager i), e.author = i := by
    intro e he
    obtain ⟨o, -, rfl⟩ := List.mem_map.mp he
    rfl
  have hkept : ∀ j o, Live s j → Kept t.base.manager t.log j o := by
    intro j o hj
    rw [hlog]
    by_cases hji : j = i
    · rw [hji] at hj ⊢
      refine (h.kept i o hj).pause (h.tracked i o)
        (nodup_heldOutputs h.base.sound.keys h.base.sound.axes i) mem_heldOutputs ?_ ?_
      · rw [hheld]
        simp
      · rw [howed]
        simp
    · refine (h.kept j o hj).append_unrelated ?_ ?_ fun e he =>
        unrelated_of_author (fun heq => hji (heq.symm.trans (hauthor e he))) o
      · rw [hheld]
        exact and_iff_right hji
      · rw [howed]
        simp [hji]
  refine ⟨hbase, ht ▸ h.disjoint, fun j hj => ?_, fun j hj hc => ?_, fun j o ho => ?_, ?_,
    fun j o => ?_⟩
  · rw [ht] at hj
    obtain ⟨hentries, hnone, hfresh⟩ := h.fresh j hj
    change s.base.manager.macroState.instanceSeq < j at hj
    have hne : j ≠ i := by omega
    refine ⟨fun e he => ?_, fun o ho => ?_, ?_⟩
    · rw [hlog] at he
      rcases List.mem_append.mp he with he | he
      · exact hentries e he
      · exact fun heq => hne (heq.symm.trans (hauthor e he))
    · rcases (howed j o).mp ho with hold | ⟨heq, -⟩
      · exact hnone o hold
      · exact hne heq
    · rw [ht]
      change (s.base.manager.macroState.pauses.insert i true).get? j = none
      rw [Dict.get?_insert, if_neg hne]
      exact hfresh
  · rw [hlive']
    rw [ht] at hj hc
    change (s.base.manager.macroState.pauses.insert i true).get? j ≠ none at hj
    by_cases hji : j = i
    · exact hji ▸ hlive
    · rw [Dict.get?_insert, if_neg hji] at hj
      exact h.active j hj hc
  · exact h.tracked j o ((hheld j o).mp ho).2
  · exact fun j o hj => hkept j o ((hlive' j).mp hj)
  · by_cases hji : j = i
    · exact ⟨t.base.manager, hkept j o (hji ▸ hlive)⟩
    · obtain ⟨m, hold⟩ := h.closed j o
      refine ⟨m, ?_⟩
      rw [hlog]
      exact hold.append_unrelated Iff.rfl Iff.rfl fun e he =>
        unrelated_of_author (fun heq => hji (heq.symm.trans (hauthor e he))) o

theorem Inv.start (h : Inv s) {paused : Option Bool} (hbase : Instances.Inv t.base)
    (ht : t.base = { s.base with
      manager := Instances.Manager.withState s.base.manager
        (Instances.allocateInstance s.base.manager.macroState paused)
      created := insert (s.base.manager.macroState.instanceSeq + 1) s.base.created })
    (hdying : t.dying = s.dying.erase (s.base.manager.macroState.instanceSeq + 1))
    (hlog : t.log = s.log) : Inv t := by
  have hnew : ∀ i, i ∈ s.base.created ∨ i ∈ s.base.playing →
      i ≠ s.base.manager.macroState.instanceSeq + 1 := by
    intro i hi
    have hle := h.base.issued i hi
    omega
  obtain ⟨hentries, hnone, hpauses⟩ := h.fresh _ (Nat.lt_succ_self _)
  have hempty : s.base.manager.macroState.keys.heldBy (s.base.manager.macroState.instanceSeq + 1) =
        [] ∧
      s.base.manager.macroState.axes.heldBy (s.base.manager.macroState.instanceSeq + 1) = [] :=
    ⟨h.base.sound.keys_playing _ fun hi => hnew _ (Or.inr hi) rfl,
      h.base.sound.axes_playing _ fun hi => hnew _ (Or.inr hi) rfl⟩
  have hfree : ∀ o, ¬Held s.base.manager (s.base.manager.macroState.instanceSeq + 1) o := by
    intro o ho
    unfold Held at ho
    rw [hempty.1, hempty.2] at ho
    cases htype : o.2.1 with
    | key
    | abs
    | rel
    | other type => rw [htype] at ho; cases ho
  have hheld : ∀ j o, Held t.base.manager j o ↔ Held s.base.manager j o := by
    intro j o
    have hkeys : t.base.manager.macroState.keys.heldBy j =
        s.base.manager.macroState.keys.heldBy j := by
      rw [ht]
      change (s.base.manager.macroState.keys.enroll _).heldBy j = _
      rw [Holdings.heldBy_enroll]
      split
      · rename_i heq
        rw [heq]
        exact hempty.1.symm
      · rfl
    have haxes : t.base.manager.macroState.axes.heldBy j =
        s.base.manager.macroState.axes.heldBy j := by
      rw [ht]
      change (s.base.manager.macroState.axes.enroll _).heldBy j = _
      rw [Holdings.heldBy_enroll]
      split
      · rename_i heq
        rw [heq]
        exact hempty.2.symm
      · rfl
    unfold Held
    rw [hkeys, haxes]
  have howed : ∀ j o, Owed t.base.manager j o ↔ Owed s.base.manager j o := by
    intro j o
    rw [ht]
    exact Iff.rfl
  have hlive : ∀ j, j ≠ s.base.manager.macroState.instanceSeq + 1 → (Live t j ↔ Live s j) := by
    intro j hj
    unfold Live
    rw [ht, hdying]
    simp [hj]
  have hlivenew : Live t (s.base.manager.macroState.instanceSeq + 1) := by
    unfold Live
    rw [ht, hdying]
    simp
  refine ⟨hbase, ?_, fun j hj => ?_, fun j hj hc => ?_, fun j o ho => ?_, fun j o hj => ?_, ?_⟩
  · rw [ht]
    exact Finset.disjoint_insert_left.mpr ⟨fun hi => hnew _ (Or.inr hi) rfl, h.disjoint⟩
  · rw [ht] at hj
    change s.base.manager.macroState.instanceSeq + 1 < j at hj
    obtain ⟨hentries, hnone, hpauses⟩ := h.fresh j (by omega)
    refine ⟨hlog ▸ hentries, fun o ho => hnone o ((howed j o).mp ho), ?_⟩
    rw [ht]
    cases paused with
    | none => exact hpauses
    | some paused =>
      change (s.base.manager.macroState.pauses.insert _ paused).get? j = none
      rw [Dict.get?_insert, if_neg (by omega)]
      exact hpauses
  · by_cases hjnew : j = s.base.manager.macroState.instanceSeq + 1
    · exact hjnew ▸ hlivenew
    · rw [hlive j hjnew]
      refine h.active j ?_ ?_
      · rw [ht] at hj
        cases paused with
        | none => exact hj
        | some paused =>
          change (s.base.manager.macroState.pauses.insert _ paused).get? j ≠ none at hj
          rwa [Dict.get?_insert, if_neg hjnew] at hj
      · rw [ht] at hc
        exact fun hmem => hc (Finset.mem_erase.mpr ⟨hjnew, hmem⟩)
  · exact h.tracked j o ((hheld j o).mp ho)
  · rw [hlog]
    by_cases hjnew : j = s.base.manager.macroState.instanceSeq + 1
    · rw [hjnew]
      exact kept_of_no_entry (fun ho => hfree o ((hheld _ o).mp ho))
        (fun ho => hnone o ((howed _ o).mp ho)) hentries
    · exact (h.kept j o ((hlive j hjnew).mp hj)).congr (hheld j o) (howed j o)
  · exact hlog ▸ h.closed

theorem taskStep_base (hstep : taskStep s op = some t) :
    Instances.step s.base op = some t.base := by
  cases op with
  | emit i event => cases hstep
  | forget ids =>
    simp only [taskStep, Option.ite_none_right_eq_some, Option.map_eq_some_iff] at hstep
    obtain ⟨-, base, hbase, rfl⟩ := hstep
    exact hbase
  | start paused
  | cancel ids
  | reopen outputs recreated =>
    cases hstep
    rfl
  | begin i
  | pause i
  | resume i
  | expire i ids
  | unwind i
  | reap i =>
    obtain ⟨base, hbase, rfl⟩ := Option.map_eq_some_iff.mp hstep
    exact hbase

/-- Only a start and a pause add to what is held, owed or paused. -/
theorem taskStep_fewer (hstep : taskStep s op = some t) (hstart : ∀ paused, op ≠ .start paused)
    (hpause : ∀ i, op ≠ .pause i) :
    Fewer s.base.manager t.base.manager ∧ t.log = s.log := by
  cases op with
  | emit i event => cases hstep
  | start paused => exact absurd rfl (hstart paused)
  | begin i =>
    obtain ⟨-, rfl⟩ := enabled_map_eq_some.mp hstep
    exact ⟨Fewer.refl _, rfl⟩
  | pause i => exact absurd rfl (hpause i)
  | resume i =>
    obtain ⟨⟨hpauses, -⟩, rfl⟩ := enabled_map_eq_some.mp hstep
    exact ⟨fewer_resume (by rw [hpauses]; simp), rfl⟩
  | expire i ids =>
    obtain ⟨base, hbase, rfl⟩ := Option.map_eq_some_iff.mp hstep
    simp only [Instances.step] at hbase
    split at hbase
    · cases hbase
      exact ⟨Fewer.refl _, rfl⟩
    · cases hbase
      exact ⟨fewer_cancelled (fewer_expire _) _ (i :: ids), rfl⟩
  | cancel ids =>
    cases hstep
    exact ⟨fewer_cancelled fewer_release _ ids, rfl⟩
  | forget ids =>
    simp only [taskStep, Option.ite_none_right_eq_some, Option.map_eq_some_iff] at hstep
    obtain ⟨-, base, hbase, rfl⟩ := hstep
    cases hbase
    exact ⟨Fewer.foldl fewer_forget ids _, rfl⟩
  | unwind i =>
    obtain ⟨-, rfl⟩ := enabled_map_eq_some.mp hstep
    exact ⟨(fewer_release _ i).trans (fewer_forget _ i), rfl⟩
  | reap i =>
    obtain ⟨-, rfl⟩ := enabled_map_eq_some.mp hstep
    exact ⟨fewer_forget _ i, rfl⟩
  | reopen outputs recreated =>
    cases hstep
    exact ⟨⟨fun _ _ ho => ho, fun _ _ ho => ho, fun _ hp => ⟨hp, fun hc => hc⟩, fun _ hp => hp,
      rfl⟩, rfl⟩

/-- A step that frames every instance it does not put to its end. -/
theorem Inv.taskStep (h : Inv s) (hstep : taskStep s op = some t) : Inv t := by
  have hbase := taskStep_base hstep
  have hinv := h.base.step hbase
  have hfewer := taskStep_fewer hstep
  cases op with
  | emit i event => cases hstep
  | start paused =>
    cases hstep
    exact h.start hinv rfl rfl rfl
  | begin i =>
    obtain ⟨hcreated, rfl⟩ := enabled_map_eq_some.mp hstep
    have hlive : ∀ j, (j ∈ s.base.created.erase i ∨ j ∈ insert i s.base.playing) ∧ j ∉ s.dying ↔
        Live s j := by
      intro j
      unfold Live
      by_cases hj : j = i
      · simp [hj, hcreated]
      · simp [hj]
    refine h.fewer hinv ?_ (hfewer (by simp) (by simp)).1 rfl
      (fun j hj => ⟨(hlive j).mp hj, Frame.refl _ j⟩) (fun j _ _ hj => (hlive j).mpr hj)
    refine Finset.disjoint_insert_right.mpr ⟨Finset.notMem_erase i _, ?_⟩
    exact h.disjoint.mono_left (Finset.erase_subset i _)
  | pause i =>
    obtain ⟨⟨hpauses, hcancel⟩, rfl⟩ := enabled_map_eq_some.mp hstep
    exact h.pause hinv hpauses hcancel rfl rfl rfl
  | resume i =>
    obtain ⟨-, rfl⟩ := enabled_map_eq_some.mp hstep
    exact h.fewer hinv h.disjoint (hfewer (by simp) (by simp)).1 rfl
      (fun j hj => ⟨hj, fun _ => Iff.rfl, fun _ => Iff.rfl⟩) (fun _ _ _ hj => hj)
  | expire i ids =>
    obtain ⟨base, hbase, rfl⟩ := Option.map_eq_some_iff.mp hstep
    simp only [Instances.step] at hbase
    split at hbase
    · rename_i hover
      cases hbase
      refine h.fewer hinv h.disjoint (hfewer (by simp) (by simp)).1 rfl (fun j hj => ?_)
        (fun j _ _ hj => ?_)
      · rw [Live, if_pos hover] at hj
        exact ⟨hj, Frame.refl _ j⟩
      · rw [Live, if_pos hover]
        exact hj
    · rename_i hgoing
      cases hbase
      refine h.fewer hinv h.disjoint (hfewer (by simp) (by simp)).1 rfl
        (fun j hj => ?_) (fun j hp hc hj => ?_)
      · rw [Live, if_neg hgoing, Finset.mem_union, not_or, List.mem_toFinset] at hj
        exact ⟨⟨hj.1, hj.2.1⟩, frame_cancelled (fun _ _ => frame_expire _) hj.2.2 _⟩
      · rw [Live, if_neg hgoing, Finset.mem_union, not_or, List.mem_toFinset]
        exact ⟨hj.1, hj.2, fun hmem => hc (mem_cancelled (fewer_expire _) hp hmem)⟩
  | cancel ids =>
    cases hstep
    refine h.fewer hinv h.disjoint (hfewer (by simp) (by simp)).1 rfl (fun j hj => ?_)
      (fun j hp hc hj => ?_)
    · rw [Live, Finset.mem_union, not_or, List.mem_toFinset] at hj
      exact ⟨⟨hj.1, hj.2.1⟩, frame_cancelled (fun _ _ => frame_release) hj.2.2 _⟩
    · rw [Live, Finset.mem_union, not_or, List.mem_toFinset]
      exact ⟨hj.1, hj.2, fun hmem => hc (mem_cancelled fewer_release hp hmem)⟩
  | forget ids =>
    simp only [Player.taskStep, Option.ite_none_right_eq_some, Option.map_eq_some_iff] at hstep
    obtain ⟨hdying, base, hbase, rfl⟩ := hstep
    cases hbase
    refine h.fewer hinv h.disjoint (hfewer (by simp) (by simp)).1 rfl (fun j hj => ⟨hj, ?_⟩)
      (fun _ _ _ hj => hj)
    exact Frame.foldl (fun m k hk => frame_forget (i := j) fun heq => hj.2 (hdying j (heq ▸ hk))) _
  | unwind i =>
    obtain ⟨hplaying, rfl⟩ := enabled_map_eq_some.mp hstep
    refine h.fewer hinv (h.disjoint.mono_right (Finset.erase_subset i _))
      (hfewer (by simp) (by simp)).1 rfl (fun j hj => ?_) (fun j hp _ hj => ?_)
    · have hne : j ≠ i := by
        rintro rfl
        rcases hj.1 with hj | hj
        · exact Finset.disjoint_left.mp h.disjoint hj hplaying
        · exact Finset.notMem_erase j _ hj
      refine ⟨⟨hj.1.imp_right Finset.mem_of_mem_erase, hj.2⟩, ?_⟩
      exact (frame_release hne).trans (frame_forget hne)
    · have hne : j ≠ i := by
        rintro rfl
        apply hp
        change (s.base.manager.macroState.pauses.erase j).get? j = none
        rw [Dict.get?_erase, if_pos rfl]
      exact ⟨hj.1.imp_right fun hm => Finset.mem_erase.mpr ⟨hne, hm⟩, hj.2⟩
  | reap i =>
    obtain ⟨hcreated, rfl⟩ := enabled_map_eq_some.mp hstep
    refine h.fewer hinv (h.disjoint.mono_left (Finset.erase_subset i _))
      (hfewer (by simp) (by simp)).1 rfl
      (fun j hj => ?_) (fun j hp _ hj => ?_)
    · have hne : j ≠ i := by
        rintro rfl
        rcases hj.1 with hj | hj
        · exact Finset.notMem_erase j _ hj
        · exact Finset.disjoint_left.mp h.disjoint hcreated hj
      exact ⟨⟨hj.1.imp_left Finset.mem_of_mem_erase, hj.2⟩, frame_forget hne⟩
    · have hne : j ≠ i := by
        rintro rfl
        apply hp
        change (s.base.manager.macroState.pauses.erase j).get? j = none
        rw [Dict.get?_erase, if_pos rfl]
      exact ⟨hj.1.imp_left fun hm => Finset.mem_erase.mpr ⟨hne, hm⟩, hj.2⟩
  | reopen outputs recreated =>
    cases hstep
    exact h.fewer hinv h.disjoint (hfewer (by simp) (by simp)).1 rfl
      (fun j hj => ⟨hj, fun _ => Iff.rfl, fun _ => Iff.rfl⟩) (fun _ _ _ hj => hj)

/-! ## Steps of the timelines -/

/-- The step writes to an output when the player takes its turn. -/
def Writes : TimelineStep → Prop
  | .emit _ => True
  | .move => True
  | _ => False

/-- No player beside parallel tasks writes when its instance was paused after the step came due. -/
def InTime (s : State) : Op → Prop
  | .turn i => ∀ player event, s.players.get? i = some player → player.phase = .due (.emit event) →
      ¬Paused s i
  | .act i => ∀ player next, s.players.get? i = some player → player.phase = .scheduled next →
      Writes next → ¬Paused s i
  | _ => True

theorem playerOf_eq_some {player : Player} (h : playerOf s i = some player) :
    i ∈ s.base.playing ∧ i ∉ s.dying ∧ s.players.get? i = some player := by
  simp only [playerOf, Option.ite_none_right_eq_some] at h
  exact ⟨h.1.1, h.1.2, h.2⟩

/-- What a player does to the outputs of its instance. -/
theorem perform_cases (s : State) (i : ℕ) (player : Player) (next : TimelineStep) :
    (∃ players, perform s i player next = { s with players }) ∨
    (∃ players, Writes next ∧
      perform s i player next = { s.record i (.moved false) with players }) ∨
    ∃ event players, Writes next ∧
      perform s i player next = { emitEvent s i event with players } := by
  cases next with
  | emit event => exact Or.inr (Or.inr ⟨event, _, trivial, rfl⟩)
  | move => exact Or.inr (Or.inl ⟨_, trivial, rfl⟩)
  | moveNatural
  | blocking
  | parallel => exact Or.inl ⟨_, rfl⟩

/-- A step of a timeline writes nothing, moves the mouse, or emits an event. Only a natural move
may come while the instance is paused. -/
theorem step_cases {op : Op} (hstep : step s op = some t) :
    (∃ task, op = .task task ∧ taskStep s task = some t) ∨
    (∃ players, t = { s with players }) ∨
    (∃ i natural players, i ∈ s.base.playing ∧ i ∉ s.dying ∧
      (InTime s op → natural = true ∨ ¬Paused s i) ∧
      t = { s.record i (.moved natural) with players }) ∨
    ∃ i event players, i ∈ s.base.playing ∧ i ∉ s.dying ∧ (InTime s op → ¬Paused s i) ∧
      t = { emitEvent s i event with players } := by
  have hperform : ∀ i player next, i ∈ s.base.playing → i ∉ s.dying →
      (InTime s op → Writes next → ¬Paused s i) → perform s i player next = t →
      (∃ task, op = .task task ∧ taskStep s task = some t) ∨
      (∃ players, t = { s with players }) ∨
      (∃ i natural players, i ∈ s.base.playing ∧ i ∉ s.dying ∧
        (InTime s op → natural = true ∨ ¬Paused s i) ∧
        t = { s.record i (.moved natural) with players }) ∨
      ∃ i event players, i ∈ s.base.playing ∧ i ∉ s.dying ∧ (InTime s op → ¬Paused s i) ∧
        t = { emitEvent s i event with players } := by
    intro i player next hplaying hdying htime ht
    rcases perform_cases s i player next with ⟨players, h⟩ | ⟨players, hw, h⟩ |
      ⟨event, players, hw, h⟩
    · exact Or.inr (Or.inl ⟨players, ht.symm.trans h⟩)
    · exact Or.inr (Or.inr (Or.inl ⟨i, false, players, hplaying, hdying,
        fun hin => Or.inr (htime hin hw), ht.symm.trans h⟩))
    · exact Or.inr (Or.inr (Or.inr ⟨i, event, players, hplaying, hdying,
        fun hin => htime hin hw, ht.symm.trans h⟩))
  have hquiet : ∀ players, { s with players } = t → ∃ players, t = { s with players } :=
    fun players ht => ⟨players, ht.symm⟩
  cases op with
  | task task => exact Or.inl ⟨task, rfl, hstep⟩
  | next i next
  | finishes i
  | parallelEnds i =>
    simp only [step] at hstep
    split at hstep
    · exact Or.inr (Or.inl (hquiet _ (Option.some.inj hstep)))
    · cases hstep
  | elapsed i =>
    simp only [step] at hstep
    split at hstep
    · cases hstep
    · rename_i hnot
      split at hstep
      · rename_i hplayer
        obtain ⟨hplaying, hdying, -⟩ := playerOf_eq_some hplayer
        exact hperform i _ _ hplaying hdying (fun _ _ => hnot) (Option.some.inj hstep)
      · exact Or.inr (Or.inl (hquiet _ (Option.some.inj hstep)))
      · cases hstep
  | turn i =>
    simp only [step] at hstep
    split at hstep
    · rename_i next parallel hplayer
      obtain ⟨hplaying, hdying, hget⟩ := playerOf_eq_some hplayer
      have ht := Option.some.inj hstep
      cases next with
      | emit event =>
        exact hperform i _ (.emit event) hplaying hdying (fun hin _ => hin _ event hget rfl) ht
      | move => exact Or.inr (Or.inl (hquiet _ ht))
      | moveNatural => exact Or.inr (Or.inl (hquiet _ ht))
      | blocking => exact Or.inr (Or.inl (hquiet _ ht))
      | parallel => exact Or.inr (Or.inl (hquiet _ ht))
    · cases hstep
  | act i =>
    simp only [step] at hstep
    split at hstep
    · rename_i next parallel hplayer
      obtain ⟨hplaying, hdying, hget⟩ := playerOf_eq_some hplayer
      exact hperform i _ _ hplaying hdying (fun hin hw => hin _ next hget rfl hw)
        (Option.some.inj hstep)
    · cases hstep
  | moves i =>
    simp only [step] at hstep
    split at hstep
    · rename_i hplayer
      obtain ⟨hplaying, hdying, -⟩ := playerOf_eq_some hplayer
      exact Or.inr (Or.inr (Or.inl ⟨i, true, s.players, hplaying, hdying, fun _ => Or.inl rfl,
        (Option.some.inj hstep).symm⟩))
    · cases hstep

theorem Inv.step (h : Inv s) {op : Op} (hstep : step s op = some t) : Inv t := by
  rcases step_cases hstep with ⟨task, -, htask⟩ | ⟨players, rfl⟩ |
    ⟨i, natural, players, hplaying, hdying, -, rfl⟩ | ⟨i, event, players, hplaying, hdying, -, rfl⟩
  · exact h.taskStep htask
  · exact h.setPlayers players
  · exact (h.move ⟨Or.inr hplaying, hdying⟩ natural).setPlayers players
  · exact (h.emit hplaying hdying event).setPlayers players

/-! ## Paused instances are silent -/

/-- A release, or a repeat of a key. -/
def NoPress (what : What) : Prop :=
  ∀ o value, what = .swallowed o value → value = 0 ∨ o.2.1 = .key ∧ value = 2

/-- Only natural moves come while their instance is paused, and it holds nothing. -/
structure Silent (s : State) : Prop where
  log : ∀ e ∈ s.log, e.paused = true → e.what = .moved true
  held : ∀ i, Paused s i → ∀ o, ¬Held s.base.manager i o

theorem Silent.setPlayers (h : Silent s) (players : Dict ℕ Player) :
    Silent { s with players } := ⟨h.log, h.held⟩

theorem Silent.taskStep (h : Silent s) (hinv : Inv s) (hstep : taskStep s op = some t) :
    Silent t := by
  have hfewer := taskStep_fewer hstep
  have hsame : Fewer s.base.manager t.base.manager ∧ t.log = s.log → Silent t := by
    rintro ⟨hfewer, hlog⟩
    exact ⟨hlog ▸ h.log, fun i hi o ho => h.held i (hfewer.paused i hi) o (hfewer.held i o ho)⟩
  cases op with
  | start paused =>
    have hnext := hinv.taskStep hstep
    cases hstep
    refine ⟨h.log, fun i hi o ho => ?_⟩
    by_cases hi' : i = s.base.manager.macroState.instanceSeq + 1
    · have hfresh := hinv.base.issued i
      have hempty := hnext.base.sound.keys_playing i fun hp => by
        have hle := hfresh (Or.inr hp)
        omega
      have hempty' := hnext.base.sound.axes_playing i fun hp => by
        have hle := hfresh (Or.inr hp)
        omega
      unfold Held at ho
      rw [hempty, hempty'] at ho
      cases htype : o.2.1 with
      | key => rw [htype] at ho; cases ho
      | abs => rw [htype] at ho; cases ho
      | rel => rw [htype] at ho; cases ho
      | other type => rw [htype] at ho; cases ho
    · have hpaused : Paused s i := by
        cases paused with
        | none => exact hi
        | some paused =>
          change (s.base.manager.macroState.pauses.insert _ paused).get? i = some true at hi
          rwa [Dict.get?_insert, if_neg hi'] at hi
      refine h.held i hpaused o ?_
      have hkeys : (s.base.manager.macroState.keys.enroll
          (s.base.manager.macroState.instanceSeq + 1)).heldBy i =
          s.base.manager.macroState.keys.heldBy i := by
        rw [Holdings.heldBy_enroll, if_neg hi']
      have haxes : (s.base.manager.macroState.axes.enroll
          (s.base.manager.macroState.instanceSeq + 1)).heldBy i =
          s.base.manager.macroState.axes.heldBy i := by
        rw [Holdings.heldBy_enroll, if_neg hi']
      unfold Held at ho ⊢
      rw [← hkeys, ← haxes]
      exact ho
  | pause i =>
    obtain ⟨-, rfl⟩ := enabled_map_eq_some.mp hstep
    refine ⟨fun e he hp => ?_, fun j hj o ho => ?_⟩
    · rcases List.mem_append.mp he with he | he
      · exact h.log e he hp
      · obtain ⟨o, -, rfl⟩ := List.mem_map.mp he
        cases hp
    · obtain ⟨hji, hheld⟩ := (held_pauseMacroOutputs _ i j o).mp ho
      refine h.held j ?_ o hheld
      change (s.base.manager.macroState.pauses.insert i true).get? j = some true at hj
      rwa [Dict.get?_insert, if_neg hji] at hj
  | emit i event => cases hstep
  | begin i
  | resume i
  | expire i ids
  | cancel ids
  | forget ids
  | unwind i
  | reap i
  | reopen outputs recreated => exact hsame (hfewer (by simp) (by simp))

theorem Silent.emit (h : Silent s) (hinv : Inv s) (hnot : ¬Paused s i)
    (event : Instances.MacroEvent) : Silent (emitEvent s i event) := by
  rcases emitEvent_cases s i event with hsame | ⟨c, written, m', hresolve, hemit, hstate⟩
  · rw [hsame]
    exact h
  · have hm : (emitMacroEvent s.base.manager i event.eventType event.code event.value
        event.deviceType event.outputId).2 = m' := by rw [hemit]
    have hpauses := (keeps_emitMacroEvent s.base.manager i event).1
    rw [hm] at hpauses
    rw [hstate]
    have hcases := emitMacroEvent_cases hinv.base.sound.keys hinv.base.sound.axes i event hresolve
      written m' hemit
    refine ⟨fun e he hp => ?_, fun j hj o ho => ?_⟩
    · rcases List.mem_append.mp he with he | he
      · exact h.log e he hp
      · rw [List.mem_singleton.mp he] at hp
        exact absurd (of_decide_eq_true hp) hnot
    · have hj : Paused s j := by
        change m'.macroState.pauses.get? j = some true at hj
        rwa [hpauses] at hj
      have hji : j ≠ i := fun heq => hnot (heq ▸ hj)
      refine h.held j hj o ?_
      rcases hcases with ⟨-, -, -, hheld, -⟩ | ⟨-, -, hheld, -⟩
      · exact (hheld j o).mp ho
      · have hold := (hheld j o).mp ho
        rwa [if_neg fun hr => hji hr.1] at hold

theorem Silent.step (h : Silent s) (hinv : Inv s) {op : Op} (hin : InTime s op)
    (hstep : step s op = some t) : Silent t := by
  rcases step_cases hstep with ⟨task, -, htask⟩ | ⟨players, rfl⟩ |
    ⟨i, natural, players, -, -, hwhen, rfl⟩ | ⟨i, event, players, -, -, hwhen, rfl⟩
  · exact h.taskStep hinv htask
  · exact h.setPlayers players
  · refine Silent.setPlayers (s := s.record i (.moved natural))
      ⟨fun e he hp => ?_, h.held⟩ players
    rcases List.mem_append.mp he with he | he
    · exact h.log e he hp
    · rw [List.mem_singleton.mp he] at hp ⊢
      rcases hwhen hin with rfl | hnot
      · rfl
      · exact absurd (of_decide_eq_true hp) hnot
  · exact (h.emit hinv (hwhen hin) event).setPlayers players

/-- No press is swallowed. -/
def Unpressed (s : State) : Prop := ∀ e ∈ s.log, NoPress e.what

theorem Unpressed.append (h : Unpressed s) {new : List Entry} (hlog : t.log = s.log ++ new)
    (hnew : ∀ e ∈ new, NoPress e.what) : Unpressed t := by
  intro e he
  rw [hlog] at he
  rcases List.mem_append.mp he with he | he
  · exact h e he
  · exact hnew e he

theorem Unpressed.taskStep (h : Unpressed s) (hstep : taskStep s op = some t) : Unpressed t := by
  have hfewer := taskStep_fewer hstep
  have hsame : Fewer s.base.manager t.base.manager ∧ t.log = s.log → Unpressed t := fun hkept =>
    h.append (hkept.2.trans (List.append_nil _).symm) fun _ he => absurd he List.not_mem_nil
  cases op with
  | start paused =>
    cases hstep
    exact h
  | pause i =>
    obtain ⟨base, -, rfl⟩ := Option.map_eq_some_iff.mp hstep
    refine h.append rfl fun e he => ?_
    obtain ⟨o, -, rfl⟩ := List.mem_map.mp he
    intro o value heq
    cases heq
  | emit i event => cases hstep
  | begin i
  | resume i
  | expire i ids
  | cancel ids
  | forget ids
  | unwind i
  | reap i
  | reopen outputs recreated => exact hsame (hfewer (by simp) (by simp))

theorem Unpressed.emit (h : Unpressed s) (hinv : Inv s) (event : Instances.MacroEvent) :
    Unpressed (emitEvent s i event) := by
  rcases emitEvent_cases s i event with hsame | ⟨c, written, m', hresolve, hemit, hstate⟩
  · rw [hsame]
    exact h
  · rw [hstate]
    refine h.append rfl fun e he => ?_
    rw [List.mem_singleton.mp he]
    rcases emitMacroEvent_cases hinv.base.sound.keys hinv.base.sound.axes i event hresolve
      written m' hemit with ⟨rfl, -, hvalue, -⟩ | ⟨rfl, -⟩
    · intro o value heq
      cases heq
      exact hvalue
    · intro o value heq
      cases heq

theorem Unpressed.step (h : Unpressed s) (hinv : Inv s) {op : Op} (hstep : step s op = some t) :
    Unpressed t := by
  rcases step_cases hstep with ⟨task, -, htask⟩ | ⟨players, rfl⟩ |
    ⟨i, natural, players, -, -, -, rfl⟩ | ⟨i, event, players, -, -, -, rfl⟩
  · exact h.taskStep htask
  · exact h
  · refine h.append rfl fun e he => ?_
    rw [List.mem_singleton.mp he]
    intro o value heq
    cases heq
  · exact h.emit hinv event

end Steps

/-- While an instance is paused it writes nothing but the natural moves in progress and holds
nothing down, if no task goes on too late. What its pause released is swallowed once in its
timeline: the releases that are written and the presses alternate as in the timeline, and nothing
else is swallowed. -/
theorem paused_macro_emits_nothing {outputs : OutputState} {ops : List Op} {s : State}
    (hrun : run step (initial outputs) ops = some s) :
    (Guarded step InTime (initial outputs) ops →
      (∀ e ∈ s.log, e.paused = true → e.what = .moved true) ∧
      (∀ i, Paused s i → ∀ o, ¬Held s.base.manager i o) ∧
      ∀ k ∈ s.base.manager.down,
        ∃ i, ¬Paused s i ∧ k ∈ s.base.manager.macroState.keys.heldBy i) ∧
    (∀ e ∈ s.log, NoPress e.what) ∧
    (∀ i o, swallowedReleases i o s.log ≤ pauseReleases i o s.log) ∧
    (∀ i o, levelAfter (timelineValue i o) o s.log ≠ none →
      levelAfter (writtenValue i o) o s.log ≠ none) ∧
    ∀ i o, Live s i → ∀ active, levelAfter (timelineValue i o) o s.log = some active →
      (¬Owed s.base.manager i o → levelAfter (writtenValue i o) o s.log = some active) ∧
      (o.2.1 = .key → swallowedReleases i o s.log +
        (if Owed s.base.manager i o then 1 else 0) = pauseReleases i o s.log) := by
  have hstart : Unpressed (initial outputs) := fun _ he => absurd he List.not_mem_nil
  obtain ⟨hinv, hpresses⟩ : Inv s ∧ Unpressed s :=
    run_invariant (I := fun s => Inv s ∧ Unpressed s)
      (fun s op t h hstep => ⟨h.1.step hstep, h.2.step h.1 hstep⟩)
      ⟨inv_initial outputs, hstart⟩ hrun
  refine ⟨fun hg => ?_, hpresses, fun i o => ?_, fun i o htime => ?_,
    fun i o hlive active hactive => ⟨fun hnot => ?_, fun hkey => ?_⟩⟩
  · have hsilent : Inv s ∧ Silent s := by
      refine guarded_run_invariant (I := fun s => Inv s ∧ Silent s)
        (fun s op t h hin hstep => ⟨h.1.step hstep, h.2.step h.1 hin hstep⟩) ?_ hg hrun
      exact ⟨inv_initial outputs, fun _ he => absurd he List.not_mem_nil,
        fun _ hi => absurd hi (by simp [Paused, initial, Instances.initial])⟩
    refine ⟨hsilent.2.log, hsilent.2.held, fun k hk => ?_⟩
    obtain ⟨-, i, hi⟩ := hinv.base.sound.recorded k hk
    refine ⟨i, fun hp => ?_, hi⟩
    exact hsilent.2.held i hp (k.1, .key, k.2) hi
  · obtain ⟨m, hm⟩ := hinv.closed i o
    exact Nat.le_of_add_right_le hm.swallowed
  · obtain ⟨m, hm⟩ := hinv.closed i o
    obtain ⟨active, hactive⟩ := Option.ne_none_iff_exists'.mp htime
    obtain ⟨down, hdown, -⟩ := hm.levels active hactive
    rw [hdown]
    simp
  · obtain ⟨down, hdown, hiff, -⟩ := (hinv.kept i o hlive).levels active hactive
    rw [hdown, Option.some.injEq, Bool.eq_iff_iff, hiff]
    simp [hnot]
  · exact (hinv.kept i o hlive).once hkey (by rw [hactive]; simp)

/- The macro presses a key, is paused and resumed, and comes to its release. -/
def pausedPressRun : List Op :=
  [.task (.start (some false)), .task (.begin 1),
    .next 1 (.emit (Instances.keyA 1 Instances.press_value)), .elapsed 1,
    .next 1 (.emit (Instances.keyA 0 Instances.release_value)), .task (.pause 1),
    .task (.resume 1), .elapsed 1]

theorem paused_macro_emits_nothing_press : ∃ s,
    run step (initial ⟨true, true, []⟩) pausedPressRun = some s ∧
    s.log.map Entry.what = [.written (.keyboard, .key, 30) 1, .released (.keyboard, .key, 30),
      .swallowed (.keyboard, .key, 30) 0] ∧
    ∀ k ∈ s.base.manager.down, ∃ i, ¬Paused s i ∧
      k ∈ s.base.manager.macroState.keys.heldBy i := by
  have hlog : (run step (initial ⟨true, true, []⟩) pausedPressRun).map
      (fun s => s.log.map Entry.what) = some [.written (.keyboard, .key, 30) 1,
        .released (.keyboard, .key, 30), .swallowed (.keyboard, .key, 30) 0] := by
    decide
  obtain ⟨s, hs, hwhat⟩ := Option.map_eq_some_iff.mp hlog
  refine ⟨s, hs, hwhat, ((paused_macro_emits_nothing hs).1 ?_).2.2⟩
  simp only [pausedPressRun, Guarded, InTime, true_and]
  repeat' split
  all_goals trivial

/- A natural move is in progress when the macro is paused, and goes on. -/
def naturalMoveRun : List Op :=
  [.task (.start (some false)), .task (.begin 1), .next 1 .moveNatural, .elapsed 1,
    .task (.pause 1), .moves 1]

theorem natural_move_goes_on_while_paused :
    ¬∀ s, run step (initial ⟨true, true, []⟩) naturalMoveRun = some s →
      ∀ e ∈ s.log, e.paused = false := by
  intro h
  have hlog : (run step (initial ⟨true, true, []⟩) naturalMoveRun).map State.log =
      some [⟨1, true, .moved true⟩] := by decide
  obtain ⟨s, hs, hentries⟩ := Option.map_eq_some_iff.mp hlog
  have hfalse := h s hs ⟨1, true, .moved true⟩ (by rw [hentries]; exact List.mem_singleton_self _)
  cases hfalse

end Keymasq.Macros.Pausing
