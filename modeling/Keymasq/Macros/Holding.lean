import Keymasq.Macros.Instances

/-!
# Keys that macros hold

A key that an instance has pressed stays down until the instance releases it,
is paused, is cancelled or ends. The counted releases of a pause and of a
cleanup keep it; a release in the timeline of another instance does not.
-/

namespace Keymasq.Macros.Holding
open Foundation Foundation.Transition Keymasq.Macros.Outputs Keymasq.Macros.Instances

/-- The output key of a key event. -/
def keyOf (m : Manager) (event : MacroEvent) : Option Key :=
  if event.eventType = .key then
    (resolveMacroOutput m.outputState event.eventType event.deviceType event.outputId).map
      (·, event.code)
  else none

def Presses (s : State) (op : Op) (i : Nat) (k : Key) : Prop :=
  ∃ event, op = .emit i event ∧ event.value = 1 ∧ keyOf s.manager event = some k

/-- The instance releases the key itself, is paused, is cancelled or ends. -/
def Drops (s : State) (op : Op) (i : Nat) (k : Key) : Prop :=
  match op with
  | .emit j event => j = i ∧ event.value = 0 ∧ keyOf s.manager event = some k
  | .pause j => j = i
  | .expire j ids => i ∈ j :: ids ∧ j ∉ s.manager.macroState.cancelInstanceIds ∧
      j ∈ s.manager.macroState.instanceMeta
  | .cancel ids => i ∈ ids
  | .unwind j => j = i
  | _ => False

instance (s : State) (op : Op) (i : Nat) (k : Key) : Decidable (Drops s op i k) := by
  unfold Drops
  cases op with
  | emit j event
  | pause j
  | expire j ids
  | cancel ids
  | unwind j => infer_instance
  | _ => exact inferInstanceAs (Decidable False)

/-- No release is written for a key that another instance holds, and no device with a held key
is closed or opened anew. -/
def LeavesHeld (s : State) : Op → Prop
  | .emit i event =>
    match keyOf s.manager event with
    | none => True
    | some k => event.value = 0 →
        (k.1, EventType.key, k.2) ∉ s.manager.macroState.pauseReleased.getD i ∅ →
        ∀ j ∈ s.playing, j ≠ i → k ∉ s.manager.macroState.keys.heldBy j
  | .reopen outputs recreated => ∀ j ∈ s.playing, ∀ k ∈ s.manager.macroState.keys.heldBy j,
      outputs.hasWriter k.1 = true ∧ k.1 ∉ recreated
  | _ => True

instance (s : State) (op : Op) : Decidable (LeavesHeld s op) := by
  unfold LeavesHeld
  cases op with
  | emit i event =>
    simp only
    cases keyOf s.manager event with
    | none => exact inferInstanceAs (Decidable True)
    | some k => infer_instance
  | reopen outputs recreated => infer_instance
  | _ => exact inferInstanceAs (Decidable True)

/-- Whatever an instance records is down. -/
def HeldDown (m : Manager) : Prop := ∀ i, ∀ k ∈ m.macroState.keys.heldBy i, k ∈ m.down

/-! ## One event -/

theorem written_press (m : Manager) (i : Nat) (c : OutputClass) (code : Int) :
    let m' := trackMacroEvent (m.write c .key code 1) i c .key code 1
    m'.macroState.keys = m.macroState.keys.add i (c, code) ∧ m'.down = insert (c, code) m.down :=
  ⟨rfl, rfl⟩

theorem written_release (m : Manager) (i : Nat) (c : OutputClass) (code : Int) :
    let m' := trackMacroEvent (m.write c .key code 0) i c .key code 0
    m'.macroState.keys = m.macroState.keys.remove i (c, code) ∧ m'.down = m.down.erase (c, code) :=
  ⟨rfl, rfl⟩

/-- Repeats and the events of axes leave the keys as they are. -/
theorem written_other (m : Manager) (i : Nat) (c : OutputClass) {eventType : EventType}
    {value : Int} (code : Int) (hother : eventType = .key → value = 2) :
    let m' := trackMacroEvent (m.write c eventType code value) i c eventType code value
    m'.macroState.keys = m.macroState.keys ∧ m'.down = m.down := by
  cases eventType with
  | key =>
    rw [hother rfl]
    exact ⟨rfl, rfl⟩
  | abs =>
    simp only [trackMacroEvent, Manager.write, trackMacroAbsValue]
    split
    · exact ⟨rfl, rfl⟩
    · split
      · exact ⟨rfl, rfl⟩
      · split <;> exact ⟨rfl, rfl⟩
  | rel => exact ⟨rfl, rfl⟩
  | other type => exact ⟨rfl, rfl⟩

/-- The manager after an event of an instance. -/
def emitted (m : Manager) (i : Nat) (event : MacroEvent) : Manager :=
  (emitMacroEvent m i event.eventType event.code event.value event.deviceType event.outputId).2

variable {m : Manager} {k : Key} {playing : Finset Nat} {i : Nat}

theorem emitted_press {event : MacroEvent} (i : Nat) (hkey : keyOf m event = some k)
    (hvalue : event.value = 1) :
    (emitted m i event).macroState.keys = m.macroState.keys.add i k ∧
      (emitted m i event).down = insert k m.down := by
  unfold keyOf at hkey
  split at hkey
  · rename_i htype
    obtain ⟨c, hresolve, rfl⟩ := Option.map_eq_some_iff.mp hkey
    rw [htype] at hresolve
    simp only [emitted, emitMacroEvent, htype, hvalue, hresolve, Int.reduceEq, if_false, and_false]
    split
    · exact written_press _ i c event.code
    · exact written_press m i c event.code
  · cases hkey

theorem emitted_release {event : MacroEvent} (i : Nat) (hkey : keyOf m event = some k)
    (hvalue : event.value = 0) :
    if (k.1, EventType.key, k.2) ∈ m.macroState.pauseReleased.getD i ∅ then
      (emitted m i event).macroState.keys = m.macroState.keys ∧
        (emitted m i event).down = m.down
    else
      (emitted m i event).macroState.keys = m.macroState.keys.remove i k ∧
        (emitted m i event).down = m.down.erase k := by
  unfold keyOf at hkey
  split at hkey
  · rename_i htype
    obtain ⟨c, hresolve, rfl⟩ := Option.map_eq_some_iff.mp hkey
    rw [htype] at hresolve
    simp only [emitted, emitMacroEvent, htype, hvalue, hresolve, if_true]
    split
    · exact ⟨rfl, rfl⟩
    · exact written_release m i c event.code
  · cases hkey

theorem emitted_other {event : MacroEvent} (i : Nat)
    (hother : keyOf m event = none ∨ event.value = 2) :
    (emitted m i event).macroState.keys = m.macroState.keys ∧ (emitted m i event).down = m.down := by
  unfold emitted emitMacroEvent
  split
  · exact ⟨rfl, rfl⟩
  · rename_i c hresolve
    have hkey : event.eventType = .key → event.value = 2 := by
      intro htype
      rcases hother with hnone | htwo
      · rw [keyOf, if_pos htype, hresolve] at hnone
        cases hnone
      · exact htwo
    dsimp only
    split
    · split
      · exact ⟨rfl, rfl⟩
      · split
        · exact ⟨rfl, rfl⟩
        · exact written_other _ i c event.code hkey
    · exact written_other m i c event.code hkey

theorem value_of_keyOf {event : MacroEvent} (hkey : keyOf m event = some k) :
    event.value = 0 ∨ event.value = 1 ∨ event.value = 2 := by
  unfold keyOf at hkey
  split at hkey
  · rename_i htype
    exact event.key_value htype
  · cases hkey

/-! ## What is held is down -/

theorem HeldDown.release (hs : Sound m playing) (h : HeldDown m) (i : Nat) :
    HeldDown (releaseMacroHeldForInstance m i) := by
  intro j k hk
  rw [releaseMacroHeldForInstance_keys, Holdings.heldBy_drop] at hk
  split at hk
  · cases hk
  · rename_i hji
    rw [mem_down_releaseMacroHeldForInstance hs.keys]
    refine ⟨h j k hk, fun hlast => hji ?_⟩
    -- A count of one would make the cleaned instance the only one that records the key.
    exact hs.keys.eq_of_countOf_le_one hlast.1 hk hlast.2.1

theorem HeldDown.of_same {m' : Manager} (hsame : SameOutputs m m') (h : HeldDown m) :
    HeldDown m' := by
  intro i k hk
  rw [hsame.keys] at hk
  rw [hsame.down]
  exact h i k hk

theorem HeldDown.foldl {f : Manager → Nat → Manager}
    (hsound : ∀ m i, Sound m playing → Sound (f m i) playing)
    (hf : ∀ m i, Sound m playing → HeldDown m → HeldDown (f m i)) (ids : List Nat)
    (hs : Sound m playing) (h : HeldDown m) : HeldDown (ids.foldl f m) := by
  induction ids generalizing m with
  | nil => exact h
  | cons i ids ih => exact ih (hsound m i hs) (hf m i hs h)

theorem HeldDown.emit (hs : Sound m playing) (h : HeldDown m) (i : Nat) (event : MacroEvent)
    (hleaves : ∀ k, keyOf m event = some k → event.value = 0 →
      (k.1, EventType.key, k.2) ∉ m.macroState.pauseReleased.getD i ∅ →
      ∀ j ∈ playing, j ≠ i → k ∉ m.macroState.keys.heldBy j) :
    HeldDown (emitted m i event) := by
  cases hkey : keyOf m event with
  | none =>
    obtain ⟨hkeys, hdown⟩ := emitted_other i (Or.inl hkey)
    intro j k hk
    rw [hkeys] at hk
    rw [hdown]
    exact h j k hk
  | some key =>
    rcases value_of_keyOf hkey with hvalue | hvalue | hvalue
    · have hrelease := emitted_release i hkey hvalue
      split at hrelease
      · intro j k hk
        rw [hrelease.1] at hk
        rw [hrelease.2]
        exact h j k hk
      · rename_i hwritten
        intro j k hk
        rw [hrelease.1] at hk
        rw [hrelease.2, Finset.mem_erase]
        by_cases hj : j = i
        · subst hj
          have hne : k ≠ key := by
            rintro rfl
            exact hs.keys.not_mem_heldBy_remove j k hk
          exact ⟨hne, h j k ((Holdings.mem_heldBy_remove_of_ne hne).mp hk)⟩
        · rw [Holdings.heldBy_remove_of_ne _ _ hj] at hk
          refine ⟨?_, h j k hk⟩
          rintro rfl
          have hplaying : j ∈ playing := by
            by_contra hnot
            rw [hs.keys_playing j hnot] at hk
            cases hk
          exact hleaves k hkey hvalue hwritten j hplaying hj hk
    · obtain ⟨hkeys, hdown⟩ := emitted_press i hkey hvalue
      intro j k hk
      rw [hkeys, Holdings.mem_heldBy_add] at hk
      rw [hdown, Finset.mem_insert]
      rcases hk with hk | ⟨-, rfl⟩
      · exact Or.inr (h j k hk)
      · exact Or.inl rfl
    · obtain ⟨hkeys, hdown⟩ := emitted_other i (Or.inr hvalue)
      intro j k hk
      rw [hkeys] at hk
      rw [hdown]
      exact h j k hk

theorem HeldDown.expire (hs : Sound m playing) (h : HeldDown m) (alive : Nat → Bool) (i : Nat) :
    HeldDown (expireInstance alive m i) := by
  unfold expireInstance
  dsimp only
  split
  · exact h.release hs i
  · exact (h.release hs i).of_same (sameOutputs_forgetInstance _ i)

/-- A step keeps the keys of the instances down, as long as it leaves what others hold. -/
theorem HeldDown.step {s t : State} {op : Op} (hinv : Inv s) (h : HeldDown s.manager)
    (hleaves : LeavesHeld s op) (hstep : Instances.step s op = some t) : HeldDown t.manager := by
  have hs := hinv.sound
  cases op with
  | start paused =>
    cases hstep
    intro i k hk
    change k ∈ (s.manager.macroState.keys.enroll _).heldBy i at hk
    rw [Holdings.heldBy_enroll] at hk
    split at hk
    · cases hk
    · exact h i k hk
  | begin i =>
    obtain ⟨-, rfl⟩ := enabled_eq_some.mp hstep
    exact h
  | emit i event =>
    obtain ⟨-, rfl⟩ := enabled_eq_some.mp hstep
    refine h.emit hs i event fun k hkey hvalue hwritten => ?_
    simp only [LeavesHeld, hkey] at hleaves
    exact hleaves hvalue hwritten
  | pause i =>
    obtain ⟨-, rfl⟩ := enabled_eq_some.mp hstep
    have hsame : SameOutputs s.manager (setPaused s.manager i true) :=
      sameOutputs_setPaused s.manager i true
    exact HeldDown.release (hsame.sound hs) (h.of_same hsame) i
  | resume i =>
    obtain ⟨-, rfl⟩ := enabled_eq_some.mp hstep
    exact h.of_same (sameOutputs_setPaused s.manager i false)
  | expire i ids =>
    simp only [Instances.step] at hstep
    split at hstep
    · cases hstep
      exact h
    · cases hstep
      have hmarked := sameOutputs_markCancelled s.manager (i :: ids)
      exact HeldDown.foldl (fun m j hm => hm.expire _ j) (fun m j hm hd => hd.expire hm _ j)
        (i :: ids) (hmarked.sound hs) (h.of_same hmarked)
  | cancel ids =>
    cases hstep
    have hmarked := sameOutputs_markCancelled s.manager ids
    exact HeldDown.foldl (fun m j hm => hm.release j) (fun m j hm hd => hd.release hm j) ids
      (hmarked.sound hs) (h.of_same hmarked)
  | forget ids =>
    cases hstep
    exact HeldDown.foldl (fun m j hm => (sameOutputs_forgetInstance m j).sound hm)
      (fun m j _ hd => hd.of_same (sameOutputs_forgetInstance m j)) ids hs h
  | unwind i =>
    obtain ⟨-, rfl⟩ := enabled_eq_some.mp hstep
    exact (h.release hs i).of_same (sameOutputs_forgetInstance _ i)
  | reap i =>
    obtain ⟨-, rfl⟩ := enabled_eq_some.mp hstep
    exact h.of_same (sameOutputs_forgetInstance s.manager i)
  | reopen outputs recreated =>
    cases hstep
    intro i k hk
    have hplaying : i ∈ s.playing := by
      by_contra hnot
      have hnone := hs.keys_playing i hnot
      change k ∈ s.manager.macroState.keys.heldBy i at hk
      rw [hnone] at hk
      cases hk
    exact Finset.mem_filter.mpr ⟨h i k hk, hleaves i hplaying k hk⟩

/-! ## An instance keeps what it has pressed -/

theorem heldBy_foldl_release {ids : List Nat} (hi : i ∉ ids) (m : Manager) :
    (ids.foldl releaseMacroHeldForInstance m).macroState.keys.heldBy i =
      m.macroState.keys.heldBy i := by
  induction ids generalizing m with
  | nil => rfl
  | cons j ids ih =>
    rw [List.mem_cons, not_or] at hi
    rw [List.foldl_cons, ih hi.2, releaseMacroHeldForInstance_keys, Holdings.heldBy_drop,
      if_neg hi.1]

theorem heldBy_foldl_expire (alive : Nat → Bool) {ids : List Nat} (hi : i ∉ ids) (m : Manager) :
    (ids.foldl (expireInstance alive) m).macroState.keys.heldBy i =
      m.macroState.keys.heldBy i := by
  induction ids generalizing m with
  | nil => rfl
  | cons j ids ih =>
    rw [List.mem_cons, not_or] at hi
    have hone : (expireInstance alive m j).macroState.keys = m.macroState.keys.drop j := by
      unfold expireInstance
      dsimp only
      split
      · exact releaseMacroHeldForInstance_keys m j
      · exact releaseMacroHeldForInstance_keys m j
    rw [List.foldl_cons, ih hi.2, hone, Holdings.heldBy_drop, if_neg hi.1]

theorem keys_foldl_forget (ids : List Nat) (m : Manager) :
    (ids.foldl forgetInstance m).macroState.keys = m.macroState.keys := by
  induction ids generalizing m with
  | nil => rfl
  | cons j ids ih => exact ih (forgetInstance m j)

/-- Only the instance itself gives up a key it records. -/
theorem held_of_step {s t : State} {op : Op} (hinv : Inv s)
    (hheld : k ∈ s.manager.macroState.keys.heldBy i) (hkeeps : ¬Drops s op i k)
    (hstep : step s op = some t) : k ∈ t.manager.macroState.keys.heldBy i := by
  have hplaying : i ∈ s.playing := by
    by_contra hnot
    rw [hinv.sound.keys_playing i hnot] at hheld
    cases hheld
  cases op with
  | start paused =>
    cases hstep
    change k ∈ (s.manager.macroState.keys.enroll _).heldBy i
    rw [Holdings.heldBy_enroll, if_neg]
    · exact hheld
    · rintro rfl
      have hle := hinv.issued _ (Or.inr hplaying)
      omega
  | emit j event =>
    obtain ⟨-, rfl⟩ := enabled_eq_some.mp hstep
    change k ∈ (emitted s.manager j event).macroState.keys.heldBy i
    cases hkey : keyOf s.manager event with
    | none =>
      rw [(emitted_other j (Or.inl hkey)).1]
      exact hheld
    | some key =>
      rcases value_of_keyOf hkey with hvalue | hvalue | hvalue
      · have hrelease := emitted_release j hkey hvalue
        split at hrelease
        · rw [hrelease.1]
          exact hheld
        · rw [hrelease.1]
          by_cases hj : i = j
          · subst hj
            have hne : k ≠ key := by
              rintro rfl
              exact hkeeps ⟨rfl, hvalue, hkey⟩
            exact (Holdings.mem_heldBy_remove_of_ne hne).mpr hheld
          · rw [Holdings.heldBy_remove_of_ne _ _ hj]
            exact hheld
      · rw [(emitted_press j hkey hvalue).1]
        exact Holdings.mem_heldBy_add.mpr (Or.inl hheld)
      · rw [(emitted_other j (Or.inr hvalue)).1]
        exact hheld
  | pause j =>
    obtain ⟨-, rfl⟩ := enabled_eq_some.mp hstep
    have hne : i ≠ j := fun heq => hkeeps heq.symm
    rw [pauseMacroOutputs, releaseMacroHeldForInstance_keys, Holdings.heldBy_drop, if_neg hne]
    exact hheld
  | expire j ids =>
    simp only [step] at hstep
    split at hstep
    · cases hstep
      exact hheld
    · rename_i hlive
      rw [not_or, not_not] at hlive
      cases hstep
      have hne : i ∉ j :: ids := fun hmem => hkeeps ⟨hmem, hlive.1, hlive.2⟩
      rw [heldBy_foldl_expire _ hne]
      exact hheld
  | cancel ids =>
    cases hstep
    rw [heldBy_foldl_release hkeeps]
    exact hheld
  | forget ids =>
    cases hstep
    rw [keys_foldl_forget]
    exact hheld
  | unwind j =>
    obtain ⟨-, rfl⟩ := enabled_eq_some.mp hstep
    have hne : i ≠ j := fun heq => hkeeps heq.symm
    change k ∈ (releaseMacroHeldForInstance s.manager j).macroState.keys.heldBy i
    rw [releaseMacroHeldForInstance_keys, Holdings.heldBy_drop, if_neg hne]
    exact hheld
  | begin j
  | resume j
  | reap j =>
    obtain ⟨-, rfl⟩ := enabled_eq_some.mp hstep
    exact hheld
  | reopen outputs recreated =>
    cases hstep
    exact hheld

/-- The press is recorded, and it stays recorded until the instance drops the key. -/
theorem held_of_press {u t s : State} {op : Op} {ops : List Op} (hu : Inv u)
    (hpress : Presses u op i k) (hpressed : step u op = some t)
    (hkeeps : Guarded step (fun v op => ¬Drops v op i k) t ops) (hrun : run step t ops = some s) :
    k ∈ s.manager.macroState.keys.heldBy i := by
  obtain ⟨event, rfl, hvalue, hkey⟩ := hpress
  have ht : Inv t := hu.step hpressed
  have hheld : k ∈ t.manager.macroState.keys.heldBy i := by
    obtain ⟨-, rfl⟩ := enabled_eq_some.mp hpressed
    change k ∈ (emitted u.manager i event).macroState.keys.heldBy i
    rw [(emitted_press i hkey hvalue).1]
    exact Holdings.mem_heldBy_add.mpr (Or.inr ⟨rfl, rfl⟩)
  have hboth := guarded_run_invariant
    (I := fun v => Inv v ∧ k ∈ v.manager.macroState.keys.heldBy i)
    (fun _ _ _ hv hnot hstep => ⟨hv.1.step hstep, held_of_step hv.1 hv.2 hnot hstep⟩)
    ⟨ht, hheld⟩ hkeeps hrun
  exact hboth.2

/-- A key an instance has pressed is down until the instance drops it. -/
theorem held_key_stays_down {outputs : OutputState} {before after : List Op} {op : Op}
    {u t s : State} {i : Nat} {k : Key}
    (hguard : Guarded step LeavesHeld (initial outputs) (before ++ op :: after))
    (hbefore : run step (initial outputs) before = some u) (hpress : Presses u op i k)
    (hpressed : step u op = some t)
    (hkeeps : Guarded step (fun v op => ¬Drops v op i k) t after)
    (hafter : run step t after = some s) : k ∈ s.manager.down := by
  have hu : Inv u := run_invariant (fun _ _ _ h hstep => h.step hstep) (inv_initial outputs) hbefore
  have hrun : run step (initial outputs) (before ++ op :: after) = some s := by
    rw [run_append, hbefore, Option.bind_some, run_cons, hpressed]
    exact hafter
  have hboth := guarded_run_invariant (I := fun v => Inv v ∧ HeldDown v.manager)
    (fun _ _ _ hv hleaves hstep => ⟨hv.1.step hstep, hv.2.step hv.1 hleaves hstep⟩)
    ⟨inv_initial outputs, fun _ _ hk => absurd hk List.not_mem_nil⟩ hguard hrun
  exact hboth.2 i k (held_of_press hu hpress hpressed hkeeps hafter)

def pressA : MacroEvent := keyA 1 press_value

def releaseA : MacroEvent := keyA 0 release_value

def keyboardA : Key := (.keyboard, 30)

/-- Instance 1 holds a key before instance 2 presses it. -/
def beforePress : List Op :=
  [.start (some false), .begin 1, .start none, .begin 2, .emit 1 pressA]

/-- The others are paused and cancelled. -/
def othersCleanUp : List Op :=
  [.pause 1, .start none, .begin 3, .emit 3 pressA, .cancel [3], .unwind 3]

theorem held_key_stays_down_cleanup : ∃ u t s,
    run step (initial ⟨true, false, []⟩) beforePress = some u ∧ step u (.emit 2 pressA) = some t ∧
      run step t othersCleanUp = some s ∧ keyboardA ∈ s.manager.down := by
  have hsome : ((run step (initial ⟨true, false, []⟩) beforePress).bind fun u =>
      (step u (.emit 2 pressA)).bind fun t =>
        if keyOf u.manager pressA = some keyboardA ∧
            Guarded step (fun v op => ¬Drops v op 2 keyboardA) t othersCleanUp then
          run step t othersCleanUp
        else none).isSome = true := by decide
  obtain ⟨s, hs⟩ := Option.isSome_iff_exists.mp hsome
  obtain ⟨u, hu, hs⟩ := Option.bind_eq_some_iff.mp hs
  obtain ⟨t, ht, hs⟩ := Option.bind_eq_some_iff.mp hs
  obtain ⟨⟨hkey, hkeeps⟩, hs⟩ := Option.ite_none_right_eq_some.mp hs
  exact ⟨u, t, s, hu, ht, hs, held_key_stays_down (by decide) hu ⟨pressA, rfl, rfl, hkey⟩
    ht hkeeps hs⟩

/- Instance 1 releases in its timeline a key that instance 2 holds too. -/
theorem other_release_lets_go : ¬ ∀ outputs before after op u t s i k,
    run step (initial outputs) before = some u → Presses u op i k → step u op = some t →
    Guarded step (fun v op => ¬Drops v op i k) t after → run step t after = some s →
    k ∈ s.manager.down := by
  intro hall
  have hsome : ((run step (initial ⟨true, false, []⟩) beforePress).bind fun u =>
      (step u (.emit 2 pressA)).bind fun t =>
        if keyOf u.manager pressA = some keyboardA ∧
            Guarded step (fun v op => ¬Drops v op 2 keyboardA) t [.emit 1 releaseA] then
          (run step t [.emit 1 releaseA]).bind fun s =>
            if keyboardA ∉ s.manager.down then some s else none
        else none).isSome = true := by decide
  obtain ⟨s, hs⟩ := Option.isSome_iff_exists.mp hsome
  obtain ⟨u, hu, hs⟩ := Option.bind_eq_some_iff.mp hs
  obtain ⟨t, ht, hs⟩ := Option.bind_eq_some_iff.mp hs
  obtain ⟨⟨hkey, hkeeps⟩, hs⟩ := Option.ite_none_right_eq_some.mp hs
  obtain ⟨v, hv, hs⟩ := Option.bind_eq_some_iff.mp hs
  obtain ⟨hup, -⟩ := Option.ite_none_right_eq_some.mp hs
  exact hup (hall _ _ _ _ u t v 2 keyboardA hu ⟨pressA, rfl, rfl, hkey⟩ ht hkeeps hv)

end Keymasq.Macros.Holding
