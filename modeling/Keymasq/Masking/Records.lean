import Keymasq.Masking.Takeover

/-!
# The records of a takeover outlive its changes

A job may end at any step, so whatever it changes is on record before the change
and stays so until the change is undone. The invariant says it of the system and,
for each phase of a job, what the steps that follow rely on.
-/

namespace Keymasq.Masking.Records
open Foundation Transition
open LizardMode (Mode)
open Takeover

variable {B : Type} {hardware : Hardware B}

/-- Rules that can restrict a node, now or after a reload. -/
def inForce (s : System B) : Bool := s.early || s.late || s.rulesLoaded

/-- Every change that is in force for the attachment has the record that undoes it. -/
structure Recorded (s : System B) : Prop where
  rules : inForce s = true → s.armedRecord = true
  access : s.attached = true → s.restricted = true →
    s.journal.isSome = true ∨ s.armedRecord = true ∨ s.permissions = true
  drivers : s.attached = true → ∀ b ∈ s.unbound,
    ∃ j, s.journal = some j ∧ j.generation = some s.generation ∧ b ∈ j.bindings
  port : s.portDisabled = true → ∃ j, s.journal = some j ∧ j.usbPort = some true
  mode : s.mode ≠ s.originalMode → ∃ j, s.journal = some j ∧ j.mode = some s.originalMode

/-! ## The runs that keep the records -/

/-- A recovery finds the attachment: this connection of it, or a USB device again. -/
def finds [DecidableEq B] (hardware : Hardware B) (s : System B) (j : Journal B) : Bool :=
  listed hardware s && (j.generation = some s.generation || hardware.usb)

/-- Something is to be undone on the hardware that a recovery does not find. -/
def abandons [DecidableEq B] (hardware : Hardware B) (s : System B) (r : Recovery) : Bool :=
  s.attached && s.journal.any (fun j => !finds hardware s j) &&
    (s.unbound ≠ ∅ || !r.keepRules && (s.restricted || inForce s && ruleMatches hardware s))

/-- A recovery is to unbind an interface that the journal does not list for this connection. -/
def unbindsUnlisted [DecidableEq B] (s : System B) (r : Recovery) (b : B) : Bool :=
  r.found = some s.generation && b ∉ s.unbound &&
    s.journal.any fun j => j.mode.isSome && !(j.generation = some s.generation && b ∈ j.bindings)

/-- The journal is the last record of the access of the nodes, which stays restricted. -/
def lastRecord (s : System B) : Bool :=
  s.attached && s.restricted && !s.armedRecord && !s.permissions

/-- A recovery of the journal, not of the rules alone. -/
def intact (r : Recovery) : Bool := !r.damaged && r.journaled

/-- The recovery is to restore access and has found nothing to restore it on. -/
def foundNothing (r : Recovery) : Bool := intact r && r.found.isNone && !r.keepRules

/-- A recovery that has found nothing, before it has removed the rules. -/
def misses : Phase B → Bool
  | .repairing r _ => foundNothing r
  | .bindingBack r _ _ => foundNothing r
  | .restoringMode r => foundNothing r
  | .removingEarly r => foundNothing r
  | .removingLate r => foundNothing r
  | .unloading r => foundNothing r
  | _ => false

def goesOn [DecidableEq B] (hardware : Hardware B) (s : System B) : Phase B → Bool
  | .resolving r => !abandons hardware s r
  | .repairing r (b :: _) => !unbindsUnlisted s r b
  | .droppingJournal r => !(r.keepRules && lastRecord s)
  | _ => true

/-- What the steps that lose no record meet in the state before them. -/
def Admitted [DecidableEq B] (hardware : Hardware B) (s : State B) : Step → Prop
  | .begin .activate => s.system.journal = none
  | .advance _ => s.job.all (goesOn hardware s.system) = true
  | .appear => (hardware.usb && inForce s.system && s.job.any misses) = false
  | _ => True

instance decidableAdmitted [DecidableEq B] (hardware : Hardware B) (s : State B) :
    (a : Step) → Decidable (Admitted hardware s a)
  | .begin .activate => inferInstanceAs (Decidable (s.system.journal = none))
  | .begin .arm => inferInstanceAs (Decidable True)
  | .begin .refresh => inferInstanceAs (Decidable True)
  | .begin (.recover _) => inferInstanceAs (Decidable True)
  | .advance _ => inferInstanceAs (Decidable (s.job.all (goesOn hardware s.system) = true))
  | .appear =>
    inferInstanceAs (Decidable ((hardware.usb && inForce s.system && s.job.any misses) = false))
  | .fail => inferInstanceAs (Decidable True)
  | .unplug => inferInstanceAs (Decidable True)
  | .udevReload => inferInstanceAs (Decidable True)
  | .udevEvent => inferInstanceAs (Decidable True)

/-! ## What a job relies on -/

/-- What is known beside the records. -/
structure Consistent (hardware : Hardware B) (s : System B) : Prop where
  recordedMode : ∀ j m, s.journal = some j → j.mode = some m → m = s.originalMode
  absent : s.attached = false → s.unbound = ∅
  named : ∀ g, s.ruleGeneration = some g → ∃ m, s.selector = some m ∧ g ≤ m
  saved : ∀ m, s.selector = some m → m ≤ s.generation
  restrictedBy : s.attached = true → s.restricted = true → ruleMatches hardware s = true

/-- No rule restricts the nodes, now or later. -/
def Unruled (s : System B) : Prop :=
  s.early = false ∧ s.late = false ∧ s.rulesLoaded = false

def Unmasked (s : System B) : Prop := Unruled s ∧ (s.attached = true → s.restricted = false)

/-- Records that a step drops describe nothing that is still to be undone. -/
structure DropsUndone (s t : System B) : Prop where
  journal : s.journal.isSome = true → t.journal = none → t.portDisabled = false ∧
    t.mode = t.originalMode ∧ (t.attached = true → t.unbound = ∅)
  armedRecord : s.armedRecord = true → t.armedRecord = false → inForce t = false
  permissions : s.permissions = true → t.permissions = false → t.attached = true →
    t.restricted = false

/-- The hardware a recovery has not found is not restricted and will not be. -/
def Missing (hardware : Hardware B) (s : System B) : Prop :=
  s.attached = true → s.restricted = false ∧ (inForce s = true → ruleMatches hardware s = false)

/-- What a recovery relies on after it has looked for its attachment; `left` are the
interfaces it has yet to bind. -/
structure Undoing (hardware : Hardware B) (s : System B) (r : Recovery) (left : List B) : Prop where
  bare : r.journaled = false → s.armedRecord = false
  journal : intact r = true → s.journal.isSome = true
  port : intact r = true → s.portDisabled = false
  drivers : intact r = true → r.repairError = false → s.attached = true →
    ∀ b ∈ s.unbound, b ∈ left
  missing : foundNothing r = true → Missing hardware s
  connection : ∀ g, r.found = some g →
    g ≤ s.generation ∧ ∀ m, s.ruleGeneration = some m → m ≤ g

/-- Drivers and mode are restored, unless an error says that they are not. -/
def Undone (hardware : Hardware B) (s : System B) (r : Recovery) : Prop :=
  Undoing hardware s r [] ∧
    (intact r = true → r.repairError = false → s.mode = s.originalMode)

def Grounded (hardware : Hardware B) (s : System B) : Phase B → Prop
  | .snapshotting => s.journal = none
  | .writingLate _ => s.armedRecord = true
  | .writingEarly _ => s.armedRecord = true
  | .rebinding bindings => ∀ j, s.journal = some j → ∀ b ∈ bindings, b ∈ j.bindings
  | .binding _ bindings => ∀ j, s.journal = some j → ∀ b ∈ bindings, b ∈ j.bindings
  | .disabling => ∀ j, s.journal = some j → j.usbPort = some true
  | .enabled _ => s.portDisabled = false
  | .writingMode => ∃ j, s.journal = some j ∧ j.mode = some s.originalMode
  | .recovering r => intact r = true ∧ r.found = none
  | .enablingPort r => intact r = true
  | .portEnabled r => intact r = true ∧ s.portDisabled = false
  | .resolving r => intact r = true ∧ s.portDisabled = false
  | .repairing r bindings => intact r = true ∧ Undoing hardware s r bindings
  | .bindingBack r b bindings => intact r = true ∧ Undoing hardware s r (b :: bindings)
  | .restoringMode r => intact r = true ∧ Undoing hardware s r []
  | .removingEarly r => Undone hardware s r
  | .removingLate r => Undone hardware s r ∧ s.early = false
  | .unloading r => Undone hardware s r ∧ s.early = false ∧ s.late = false
  | .removingRecord r => Undone hardware s r ∧ Unruled s ∧ r.damaged = false
  | .restoringAccess r => Undone hardware s r ∧ Unruled s ∧ (r.damaged = false → r.journaled = true)
  | .droppingJournal r => s.portDisabled = false ∧ (s.attached = true → s.unbound = ∅) ∧
      s.mode = s.originalMode ∧ (r.keepRules = false → Unmasked s)
  | .droppingPermissions => Unmasked s
  | _ => True

structure Sound (hardware : Hardware B) (s : State B) : Prop where
  recorded : Recorded s.system
  consistent : Consistent hardware s.system
  grounded : ∀ phase, s.job = some phase → Grounded hardware s.system phase

theorem sound_goOn {s : System B} {phase : Phase B} (hr : Recorded s)
    (hc : Consistent hardware s) (hg : Grounded hardware s phase) :
    Sound hardware (goOn s phase) := by
  refine ⟨hr, hc, fun phase' h => ?_⟩
  cases h
  exact hg

theorem sound_finish {s : System B} (hr : Recorded s) (hc : Consistent hardware s) :
    Sound hardware (finish s) := by
  refine ⟨hr, hc, fun phase' h => ?_⟩
  cases h

theorem unruled_iff (s : System B) : Unruled s ↔ inForce s = false := by
  unfold Unruled inForce
  cases s.early <;> cases s.late <;> cases s.rulesLoaded <;> simp

/-! ## What happens to the attachment -/

section Environment

variable {s t : System B}

theorem recorded_disconnect (hr : Recorded s) : Recorded (disconnect s) := by
  refine ⟨hr.rules, ?_, ?_, hr.port, hr.mode⟩
  · intro h
    cases h
  · intro h
    cases h

theorem consistent_disconnect (hc : Consistent hardware s) :
    Consistent hardware (disconnect s) := by
  refine ⟨hc.recordedMode, fun _ => rfl, hc.named, hc.saved, ?_⟩
  intro h
  cases h

theorem inForce_of_rulesLoaded (h : s.rulesLoaded = true) : inForce s = true := by
  simp [inForce, h]

theorem recorded_appear (hr : Recorded s) : Recorded (appear hardware s) := by
  refine ⟨hr.rules, fun _ h => ?_, fun _ b hb => ?_, hr.port, hr.mode⟩
  · have hloaded : s.rulesLoaded = true := (Bool.and_eq_true_iff.mp h).1
    exact .inr (.inl (hr.rules (inForce_of_rulesLoaded hloaded)))
  · simp [appear] at hb

theorem consistent_appear (hc : Consistent hardware s) :
    Consistent hardware (appear hardware s) := by
  refine ⟨hc.recordedMode, fun _ => rfl, hc.named, fun m h => ?_, fun _ h => ?_⟩
  · have hle := hc.saved m h
    exact Nat.le_succ_of_le hle
  · have husb : hardware.usb = true := (Bool.and_eq_true_iff.mp h).2
    simp [ruleMatches, husb]

theorem udevEvent_eq (s : System B) :
    udevEvent hardware s = { s with restricted := s.restricted ||
      s.attached && s.rulesLoaded && ruleMatches hardware s } := by
  unfold udevEvent
  split
  · next h => simp [h]
  · next h => simp [Bool.eq_false_iff.mpr h]

theorem recorded_udevEvent (hr : Recorded s) : Recorded (udevEvent hardware s) := by
  rw [udevEvent_eq]
  refine ⟨hr.rules, fun ha h => ?_, hr.drivers, hr.port, hr.mode⟩
  obtain hold | hnew := Bool.or_eq_true_iff.mp h
  · exact hr.access ha hold
  · have hloaded : s.rulesLoaded = true := by
      simp only [Bool.and_eq_true] at hnew
      exact hnew.1.2
    exact .inr (.inl (hr.rules (inForce_of_rulesLoaded hloaded)))

theorem consistent_udevEvent (hc : Consistent hardware s) :
    Consistent hardware (udevEvent hardware s) := by
  rw [udevEvent_eq]
  refine ⟨hc.recordedMode, hc.absent, hc.named, hc.saved, fun ha h => ?_⟩
  obtain hold | hnew := Bool.or_eq_true_iff.mp h
  · exact hc.restrictedBy ha hold
  · exact (Bool.and_eq_true_iff.mp hnew).2

theorem inForce_reload (s : System B)
    (h : inForce { s with rulesLoaded := s.early || s.late } = true) : inForce s = true := by
  simp only [inForce, Bool.or_self] at h ⊢
  rw [h, Bool.true_or]

theorem recorded_reload (hr : Recorded s) :
    Recorded { s with rulesLoaded := s.early || s.late } :=
  ⟨fun h => hr.rules (inForce_reload s h), hr.access, hr.drivers, hr.port, hr.mode⟩

theorem consistent_reload (hc : Consistent hardware s) :
    Consistent hardware { s with rulesLoaded := s.early || s.late } :=
  ⟨hc.recordedMode, hc.absent, hc.named, hc.saved, hc.restrictedBy⟩

/-- What happens to the attachment leaves the records and the files alone. -/
structure Drift (s t : System B) : Prop where
  journal : t.journal = s.journal
  armedRecord : t.armedRecord = s.armedRecord
  early : t.early = s.early
  late : t.late = s.late
  ruleGeneration : t.ruleGeneration = s.ruleGeneration
  portDisabled : t.portDisabled = s.portDisabled
  mode : t.mode = s.mode
  originalMode : t.originalMode = s.originalMode
  generation : s.generation ≤ t.generation
  rulesLoaded : t.rulesLoaded = true → inForce s = true
  unbound : t.attached = true → t.unbound = ∅ ∨ s.attached = true ∧ t.unbound = s.unbound
  restricted : inForce s = false → t.attached = true → t.restricted = true →
    s.attached = true ∧ s.restricted = true

theorem drift_disconnect (s : System B) : Drift s (disconnect s) where
  journal := rfl
  armedRecord := rfl
  early := rfl
  late := rfl
  ruleGeneration := rfl
  portDisabled := rfl
  mode := rfl
  originalMode := rfl
  generation := Nat.le_refl _
  rulesLoaded := inForce_of_rulesLoaded
  unbound := fun _ => .inl rfl
  restricted := by
    intro _ h
    cases h

theorem drift_appear (s : System B) : Drift s (appear hardware s) where
  journal := rfl
  armedRecord := rfl
  early := rfl
  late := rfl
  ruleGeneration := rfl
  portDisabled := rfl
  mode := rfl
  originalMode := rfl
  generation := Nat.le_succ _
  rulesLoaded := inForce_of_rulesLoaded
  unbound := fun _ => .inl rfl
  restricted := by
    intro hnone _ h
    have hloaded := inForce_of_rulesLoaded (Bool.and_eq_true_iff.mp h).1
    rw [hnone] at hloaded
    cases hloaded

theorem drift_udevEvent (s : System B) : Drift s (udevEvent hardware s) := by
  rw [udevEvent_eq]
  refine ⟨rfl, rfl, rfl, rfl, rfl, rfl, rfl, rfl, Nat.le_refl _, inForce_of_rulesLoaded,
    fun h => .inr ⟨h, rfl⟩, ?_⟩
  intro hnone ha h
  obtain hold | hnew := Bool.or_eq_true_iff.mp h
  · exact ⟨ha, hold⟩
  · simp only [Bool.and_eq_true] at hnew
    have hloaded := inForce_of_rulesLoaded hnew.1.2
    rw [hnone] at hloaded
    cases hloaded

theorem drift_reload (s : System B) : Drift s { s with rulesLoaded := s.early || s.late } := by
  refine ⟨rfl, rfl, rfl, rfl, rfl, rfl, rfl, rfl, Nat.le_refl _, ?_,
    fun h => .inr ⟨h, rfl⟩, fun _ ha h => ⟨ha, h⟩⟩
  intro h
  have hfiles : (s.early || s.late) = true := h
  simp only [inForce, hfiles, Bool.true_or]

theorem missing_appear (hc : Consistent hardware s) (husb : hardware.usb = false) :
    Missing hardware (appear hardware s) := by
  intro _
  refine ⟨?_, fun _ => ?_⟩
  · simp [appear, husb]
  · simp only [ruleMatches, appear, husb, Bool.false_or, decide_eq_false_iff_not]
    intro hnamed
    obtain ⟨m, hm, hle⟩ := hc.named _ hnamed
    have hsaved := hc.saved m hm
    omega

theorem missing_udevEvent (h : Missing hardware s) : Missing hardware (udevEvent hardware s) := by
  rw [udevEvent_eq]
  intro ha
  obtain ⟨hrestricted, hmatch⟩ := h ha
  refine ⟨?_, hmatch⟩
  cases hloaded : s.rulesLoaded with
  | false => simp [hrestricted]
  | true =>
    have hnot := hmatch (inForce_of_rulesLoaded hloaded)
    simp [hrestricted, hnot]

theorem missing_reload (h : Missing hardware s) :
    Missing hardware { s with rulesLoaded := s.early || s.late } := by
  intro ha
  obtain ⟨hrestricted, hmatch⟩ := h ha
  exact ⟨hrestricted, fun hforce => hmatch (inForce_reload s hforce)⟩

theorem Drift.unruled (hd : Drift s t) (h : Unruled s) : Unruled t := by
  have hnone := (unruled_iff s).mp h
  refine ⟨hd.early ▸ h.1, hd.late ▸ h.2.1, ?_⟩
  rw [Bool.eq_false_iff]
  intro hloaded
  rw [hd.rulesLoaded hloaded] at hnone
  cases hnone

theorem Drift.unmasked (hd : Drift s t) (h : Unmasked s) : Unmasked t := by
  refine ⟨hd.unruled h.1, fun ha => ?_⟩
  rw [Bool.eq_false_iff]
  intro hrestricted
  obtain ⟨ha', h'⟩ := hd.restricted ((unruled_iff s).mp h.1) ha hrestricted
  rw [h.2 ha'] at h'
  cases h'

/-- Without rules the hardware that was not restricted stays so. -/
theorem Drift.missing (hd : Drift s t) (hnone : inForce s = false) (h : Missing hardware s) :
    Missing hardware t := by
  have hunruled := (unruled_iff s).mpr hnone
  intro ha
  refine ⟨?_, fun hforce => ?_⟩
  · have hunmasked : Unmasked s := ⟨hunruled, fun ha' => (h ha').1⟩
    exact (hd.unmasked hunmasked).2 ha
  · rw [(unruled_iff t).mp (hd.unruled hunruled)] at hforce
    cases hforce

theorem Drift.undoing (hd : Drift s t) {r : Recovery} {left : List B}
    (hmissing : foundNothing r = true → inForce s = true → Missing hardware s →
      Missing hardware t)
    (h : Undoing hardware s r left) : Undoing hardware t r left where
  bare := fun hbare => hd.armedRecord ▸ h.bare hbare
  journal := fun hintact => hd.journal ▸ h.journal hintact
  port := fun hintact => hd.portDisabled ▸ h.port hintact
  drivers := by
    intro hintact herror ha b hb
    obtain hempty | ⟨ha', hsame⟩ := hd.unbound ha
    · rw [hempty] at hb
      simp at hb
    · rw [hsame] at hb
      exact h.drivers hintact herror ha' b hb
  missing := by
    intro hfound
    cases hforce : inForce s with
    | true => exact hmissing hfound hforce (h.missing hfound)
    | false => exact hd.missing hforce (h.missing hfound)
  connection := by
    intro g hg
    obtain ⟨hle, hrule⟩ := h.connection g hg
    rw [hd.ruleGeneration]
    exact ⟨Nat.le_trans hle hd.generation, hrule⟩

theorem Drift.undone (hd : Drift s t) {r : Recovery}
    (hmissing : foundNothing r = true → inForce s = true → Missing hardware s →
      Missing hardware t)
    (h : Undone hardware s r) : Undone hardware t r := by
  refine ⟨hd.undoing hmissing h.1, ?_⟩
  rw [hd.mode, hd.originalMode]
  exact h.2

/-- What happens to the attachment leaves what the job relies on alone, unless it is a
recovery that has found nothing. -/
theorem Drift.grounded (hd : Drift s t) {phase : Phase B}
    (hmissing : misses phase = true → inForce s = true → Missing hardware s →
      Missing hardware t)
    (h : Grounded hardware s phase) : Grounded hardware t phase := by
  have hquiet (r : Recovery) (hunruled : Unruled s) : foundNothing r = true →
      inForce s = true → Missing hardware s → Missing hardware t := by
    intro _ hforce
    rw [(unruled_iff s).mp hunruled] at hforce
    cases hforce
  unfold Grounded at h ⊢
  cases phase with
  | snapshotting
  | rebinding bindings
  | binding b bindings
  | disabling => exact hd.journal ▸ h
  | writingLate activates => exact hd.armedRecord ▸ h
  | writingEarly activates => exact hd.armedRecord ▸ h
  | enabled continues => exact hd.portDisabled ▸ h
  | writingMode =>
    simp only at h ⊢
    rw [hd.journal, hd.originalMode]
    exact h
  | recovering r => exact h
  | enablingPort r => exact h
  | portEnabled r => exact ⟨h.1, hd.portDisabled ▸ h.2⟩
  | resolving r => exact ⟨h.1, hd.portDisabled ▸ h.2⟩
  | repairing r bindings
  | bindingBack r b bindings
  | restoringMode r => exact ⟨h.1, hd.undoing hmissing h.2⟩
  | removingEarly r => exact hd.undone hmissing h
  | removingLate r => exact ⟨hd.undone hmissing h.1, hd.early ▸ h.2⟩
  | unloading r => exact ⟨hd.undone hmissing h.1, hd.early ▸ h.2.1, hd.late ▸ h.2.2⟩
  | removingRecord r
  | restoringAccess r => exact ⟨hd.undone (hquiet r h.2.1) h.1, hd.unruled h.2.1, h.2.2⟩
  | droppingJournal r =>
    obtain ⟨hport, hdrivers, hmode, hrules⟩ := h
    refine ⟨hd.portDisabled ▸ hport, fun ha => ?_, ?_, fun hkeep => hd.unmasked (hrules hkeep)⟩
    · obtain hempty | ⟨ha', hsame⟩ := hd.unbound ha
      · exact hempty
      · rw [hsame]
        exact hdrivers ha'
    · rw [hd.mode, hd.originalMode]
      exact hmode
  | droppingPermissions => exact hd.unmasked h
  | _ => trivial

end Environment

/-! ## The steps of an activation -/

section Activation

variable {s : System B} {j : Journal B}

theorem recorded_permissions (hr : Recorded s) (b : Bool)
    (hkeep : s.permissions = true → b = true) : Recorded { s with permissions := b } := by
  refine ⟨hr.rules, fun ha h => ?_, hr.drivers, hr.port, hr.mode⟩
  obtain hjournal | harmed | hpermissions := hr.access ha h
  · exact .inl hjournal
  · exact .inr (.inl harmed)
  · exact .inr (.inr (hkeep hpermissions))

theorem recorded_arm (hr : Recorded s) : Recorded { s with armedRecord := true } :=
  ⟨fun _ => rfl, fun _ _ => .inr (.inl rfl), hr.drivers, hr.port, hr.mode⟩

theorem consistent_writeLate (hc : Consistent hardware s) :
    Consistent hardware { s with late := true, ruleGeneration := s.selector } := by
  refine ⟨hc.recordedMode, hc.absent, fun g h => ⟨g, h, Nat.le_refl g⟩, hc.saved, fun ha h => ?_⟩
  -- The rules name the connection that the selector has, which is not an older one.
  have hmatch := hc.restrictedBy ha h
  simp only [ruleMatches, Bool.or_eq_true, decide_eq_true_eq] at hmatch ⊢
  obtain husb | hnamed := hmatch
  · exact .inl husb
  · obtain ⟨m, hm, hle⟩ := hc.named _ hnamed
    have hsaved := hc.saved m hm
    have heq : m = s.generation := by omega
    exact .inr (heq ▸ hm)

theorem recorded_bind [DecidableEq B] (hr : Recorded s) (b : B) :
    Recorded { s with unbound := s.unbound.erase b } :=
  ⟨hr.rules, hr.access, fun ha b' hb => hr.drivers ha b' (Finset.mem_of_mem_erase hb), hr.port,
    hr.mode⟩

theorem consistent_bind [DecidableEq B] (hc : Consistent hardware s) (b : B) :
    Consistent hardware { s with unbound := s.unbound.erase b } := by
  refine ⟨hc.recordedMode, fun ha => ?_, hc.named, hc.saved, hc.restrictedBy⟩
  rw [hc.absent ha, Finset.erase_empty]

/-- An interface is unbound with a journal that lists it for this connection. -/
theorem recorded_unbind [DecidableEq B] (hr : Recorded s) {b : B} (hj : s.journal = some j)
    (hgeneration : j.generation = some s.generation) (hb : b ∈ j.bindings) :
    Recorded { s with unbound := insert b s.unbound } := by
  refine ⟨hr.rules, hr.access, fun ha b' hb' => ?_, hr.port, hr.mode⟩
  obtain rfl | hold := Finset.mem_insert.mp hb'
  · exact ⟨j, hj, hgeneration, hb⟩
  · exact hr.drivers ha b' hold

theorem consistent_unbind [DecidableEq B] (hc : Consistent hardware s) {b : B}
    (ha : s.attached = true) : Consistent hardware { s with unbound := insert b s.unbound } := by
  refine ⟨hc.recordedMode, fun h => ?_, hc.named, hc.saved, hc.restrictedBy⟩
  rw [ha] at h
  cases h

/-- A journal is saved where there was none, so that nothing rests on an old one. -/
theorem recorded_newJournal (hr : Recorded s) (hnone : s.journal = none) (j : Journal B) :
    Recorded { s with journal := some j } := by
  refine ⟨hr.rules, fun _ _ => .inl rfl, fun ha b hb => ?_, fun h => ?_, fun h => ?_⟩
  · obtain ⟨j', hj', -⟩ := hr.drivers ha b hb
    rw [hnone] at hj'
    cases hj'
  · obtain ⟨j', hj', -⟩ := hr.port h
    rw [hnone] at hj'
    cases hj'
  · obtain ⟨j', hj', -⟩ := hr.mode h
    rw [hnone] at hj'
    cases hj'

theorem original_of_noJournal (hr : Recorded s) (hnone : s.journal = none) :
    s.mode = s.originalMode := by
  by_contra hne
  obtain ⟨j, hj, -⟩ := hr.mode hne
  rw [hnone] at hj
  cases hj

theorem consistent_newJournal (hc : Consistent hardware s) (j : Journal B)
    (hmode : ∀ m, j.mode = some m → m = s.originalMode) :
    Consistent hardware { s with journal := some j } := by
  refine ⟨fun j' m hj' hm => ?_, hc.absent, hc.named, hc.saved, hc.restrictedBy⟩
  cases hj'
  exact hmode m hm

/-- An update of the journal that keeps all but the port of its record. -/
theorem recorded_updateJournal (hr : Recorded s) {f : Journal B → Journal B}
    (hgeneration : ∀ j, (f j).generation = j.generation)
    (hbindings : ∀ j, (f j).bindings = j.bindings)
    (hmode : ∀ j, (f j).mode = j.mode)
    (hport : s.portDisabled = true → ∀ j, j.usbPort = some true → (f j).usbPort = some true) :
    Recorded (updateJournal s f) := by
  refine ⟨hr.rules, fun ha h => ?_, fun ha b hb => ?_, fun h => ?_, fun h => ?_⟩
  · obtain hjournal | hrest := hr.access ha h
    · exact .inl (Option.isSome_map.trans hjournal)
    · exact .inr hrest
  · obtain ⟨j, hj, hgen, hmem⟩ := hr.drivers ha b hb
    exact ⟨f j, congrArg (Option.map f) hj, (hgeneration j).trans hgen, (hbindings j).symm ▸ hmem⟩
  · obtain ⟨j, hj, hdisabled⟩ := hr.port h
    exact ⟨f j, congrArg (Option.map f) hj, hport h j hdisabled⟩
  · obtain ⟨j, hj, hrecorded⟩ := hr.mode h
    exact ⟨f j, congrArg (Option.map f) hj, (hmode j).trans hrecorded⟩

theorem consistent_updateJournal (hc : Consistent hardware s) {f : Journal B → Journal B}
    (hmode : ∀ j, (f j).mode = j.mode) : Consistent hardware (updateJournal s f) := by
  refine ⟨fun j m hj hm => ?_, hc.absent, hc.named, hc.saved, hc.restrictedBy⟩
  obtain ⟨j', hj', rfl⟩ := Option.map_eq_some_iff.mp hj
  exact hc.recordedMode j' m hj' ((hmode j').symm.trans hm)

theorem recorded_disable (hr : Recorded s) (hj : s.journal = some j)
    (hport : j.usbPort = some true) : Recorded { disconnect s with portDisabled := true } :=
  have hr' := recorded_disconnect hr
  ⟨hr'.rules, hr'.access, hr'.drivers, fun _ => ⟨j, hj, hport⟩, hr'.mode⟩

theorem recorded_enable (hr : Recorded s) : Recorded { s with portDisabled := false } := by
  refine ⟨hr.rules, hr.access, hr.drivers, ?_, hr.mode⟩
  intro h
  cases h

/-- The drivers of a new connection are recorded; none of them was taken away. -/
theorem recorded_reconnected (hr : Recorded s) (hj : s.journal = some j)
    (hgeneration : j.generation ≠ some s.generation) (bindings : List B) :
    Recorded { s with journal := some { j with
      generation := some s.generation, bindings := bindings } } := by
  refine ⟨hr.rules, fun _ _ => .inl rfl, fun ha b hb => ?_, fun h => ?_, fun h => ?_⟩
  · obtain ⟨j', hj', hgen, -⟩ := hr.drivers ha b hb
    rw [hj] at hj'
    cases hj'
    exact absurd hgen hgeneration
  · obtain ⟨j', hj', hport⟩ := hr.port h
    rw [hj] at hj'
    cases hj'
    exact ⟨_, rfl, hport⟩
  · obtain ⟨j', hj', hmode⟩ := hr.mode h
    rw [hj] at hj'
    cases hj'
    exact ⟨_, rfl, hmode⟩

/-- The mode is recorded where it was not, before it is changed. -/
theorem recorded_recordMode (hr : Recorded s) (hj : s.journal = some j) (hnone : j.mode = none)
    (m : Mode) :
    Recorded { s with journal := some { j with mode := some m } } ∧ s.mode = s.originalMode := by
  have horiginal : s.mode = s.originalMode := by
    by_contra hne
    obtain ⟨j', hj', hmode⟩ := hr.mode hne
    rw [hj] at hj'
    cases hj'
    rw [hnone] at hmode
    cases hmode
  refine ⟨⟨hr.rules, fun _ _ => .inl rfl, fun ha b hb => ?_, fun h => ?_, fun h => ?_⟩, horiginal⟩
  · obtain ⟨j', hj', hlisted⟩ := hr.drivers ha b hb
    rw [hj] at hj'
    cases hj'
    exact ⟨_, rfl, hlisted⟩
  · obtain ⟨j', hj', hport⟩ := hr.port h
    rw [hj] at hj'
    cases hj'
    exact ⟨_, rfl, hport⟩
  · exact absurd horiginal h

theorem recorded_select (hr : Recorded s) : Recorded { s with selector := some s.generation } :=
  ⟨hr.rules, hr.access, hr.drivers, hr.port, hr.mode⟩

theorem consistent_select (hc : Consistent hardware s) :
    Consistent hardware { s with selector := some s.generation } := by
  refine ⟨hc.recordedMode, hc.absent, fun g h => ?_, fun m h => ?_, hc.restrictedBy⟩
  · obtain ⟨m, hm, hle⟩ := hc.named g h
    exact ⟨s.generation, rfl, Nat.le_trans hle (hc.saved m hm)⟩
  · cases h
    exact Nat.le_refl _

/-- An activation goes on to interfaces that the journal lists, or to the mode. -/
theorem sound_afterRebinds (hr : Recorded s) (hc : Consistent hardware s) {bindings : List B}
    (hlisted : ∀ j, s.journal = some j → ∀ b ∈ bindings, b ∈ j.bindings) :
    Sound hardware (afterRebinds hardware s bindings) := by
  cases bindings with
  | nil =>
    simp only [afterRebinds]
    cases hardware.isDeck
    · exact sound_goOn hr hc trivial
    · exact sound_goOn hr hc trivial
  | cons b rest => exact sound_goOn hr hc hlisted

variable [DecidableEq B]

theorem attached_of_listed (h : listed hardware s = true) : s.attached = true :=
  (Bool.and_eq_true_iff.mp h).1

theorem sound_snapshot (hr : Recorded s) (hc : Consistent hardware s) (hnone : s.journal = none)
    (meets : Meets) : Sound hardware (snapshot hardware s meets) := by
  unfold snapshot
  split
  · exact sound_finish hr hc
  · split
    · exact sound_finish hr hc
    · refine sound_goOn (recorded_newJournal hr hnone _) (consistent_newJournal hc _ ?_) trivial
      intro m hm
      simp only at hm
      split at hm
      · cases hm
        exact original_of_noJournal hr hnone
      · cases hm

theorem sound_rebind (hr : Recorded s) (hc : Consistent hardware s) {bindings : List B}
    (hlisted : ∀ j, s.journal = some j → ∀ b ∈ bindings, b ∈ j.bindings) (meets : Meets) :
    Sound hardware (advance hardware s meets (.rebinding bindings)) := by
  cases bindings with
  | nil => exact sound_finish hr hc
  | cons b rest =>
    simp only [advance]
    split
    · exact sound_finish hr hc
    · next j hj =>
      split
      · next hlive =>
        have hb := hlisted j hj b List.mem_cons_self
        refine sound_goOn (recorded_unbind hr hj hlive.2 hb)
          (consistent_unbind hc (attached_of_listed hlive.1)) ?_
        intro j' hj' b' hb'
        exact hlisted j' hj' b' (List.mem_cons_of_mem _ hb')
      · exact sound_finish hr hc

theorem sound_choose (hr : Recorded s) (hc : Consistent hardware s) (meets : Meets) :
    Sound hardware (advance hardware s meets .choosing) := by
  simp only [advance]
  split
  · exact sound_finish hr hc
  · next j hj =>
    split
    · split
      · exact sound_goOn hr hc trivial
      · exact sound_finish hr hc
    · refine sound_afterRebinds hr hc fun j' hj' b hb => ?_
      rw [hj] at hj'
      cases hj'
      exact hb

theorem sound_disable (hr : Recorded s) (hc : Consistent hardware s)
    (hport : ∀ j, s.journal = some j → j.usbPort = some true) (meets : Meets) :
    Sound hardware (advance hardware s meets .disabling) := by
  simp only [advance]
  split
  · exact sound_finish hr hc
  · next j hj =>
    split
    · have hc' := consistent_disconnect hc
      exact sound_goOn (recorded_disable hr hj (hport j hj))
        ⟨hc'.recordedMode, hc'.absent, hc'.named, hc'.saved, hc'.restrictedBy⟩ trivial
    · exact sound_goOn hr hc trivial

theorem sound_await (hr : Recorded s) (hc : Consistent hardware s) (meets : Meets) :
    Sound hardware (advance hardware s meets .awaitingDevice) := by
  simp only [advance]
  split
  · next j b rest hj _ =>
    split
    · next hnew =>
      refine sound_goOn (recorded_reconnected hr hj hnew.2 _)
        (consistent_newJournal hc _ fun m hm => hc.recordedMode j m hj hm) ?_
      cases hardware.isDeck
      · trivial
      · trivial
    · exact sound_goOn hr hc trivial
  · exact sound_goOn hr hc trivial

theorem sound_readMode (hr : Recorded s) (hc : Consistent hardware s) (meets : Meets) :
    Sound hardware (advance hardware s meets .readingMode) := by
  simp only [advance]
  split
  · exact sound_finish hr hc
  · next j hj =>
    cases hmode : j.mode with
    | none =>
      obtain ⟨hr', horiginal⟩ := recorded_recordMode hr hj hmode s.mode
      refine sound_goOn hr' (consistent_newJournal hc _ fun m hm => ?_) ?_
      · cases hm
        exact horiginal
      · exact ⟨_, rfl, congrArg some horiginal⟩
    | some m =>
      have hm := hc.recordedMode j m hj hmode
      exact sound_goOn hr hc ⟨j, hj, hm ▸ hmode⟩

end Activation

end Keymasq.Masking.Records
