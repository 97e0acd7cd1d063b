import Keymasq.Foundation.Dict
import Keymasq.Foundation.Transition

/-!
# The module-wide lizard mode

Masks of Steam Decks save the lizard mode of the kernel module in the journal of
their reservation, turn it off and write it back on recovery. The jobs of one
reservation exclude each other, those of different reservations run side by side;
a lock and a look at the other journals keep the mode with one of them.
-/

namespace Keymasq.Masking.LizardMode
open Foundation Transition

/-- The contents of the mode parameter. -/
inductive Mode
  | y
  | n
  deriving DecidableEq

/- The journal of a Steam Deck reservation, as far as it concerns the mode. Its
selector says that it is one; the mode is empty while it is not recorded. -/
structure Journal where
  mode : Option Mode
  deriving DecidableEq

/- Where a job is. A snapshot takes the lock, looks at the other journals, reads
the mode and saves the journal. An activation goes on to install rules and rebind
drivers, records the mode if it was not there before, and turns it off. A recovery
reads the journal, rebinds drivers, writes the mode back and restores access. -/
inductive Phase
  | locking (activates : Bool)
  | checking (activates : Bool)
  | reading (activates : Bool)
  | saving (activates : Bool) (mode : Option Mode)
  | applying (mode : Option Mode)
  | recording (mode : Mode)
  | masking
  | verifying
  | recovering
  | repairing (mode : Option Mode)
  | restoring (repairError : Bool)
  deriving DecidableEq

/- `mode` is none while the module is not loaded, `original` the mode it had when
it was loaded, and `deckModeLock` the reservation whose job holds the lock file. -/
structure State (R : Type) where
  mode : Option Mode
  original : Option Mode
  journals : Dict R Journal := ∅
  jobs : Dict R Phase := ∅
  deckModeLock : Option R := none
  deriving DecidableEq

variable {R : Type} [DecidableEq R]

inductive JobKind
  | snapshot
  | activate
  | recover

def JobKind.start : JobKind → Phase
  | .snapshot => .locking false
  | .activate => .locking true
  | .recover => .recovering

/- What a step of a job meets: whether a recovery without a journal has
rules or permissions to undo, whether the drivers could be bound again, and
whether the mode could be written back. -/
structure Meets where
  armed : Bool := true
  rebinds : Bool := true
  writes : Bool := true

inductive Step (R : Type)
  | loadModule (mode : Mode)
  | begin (r : R) (kind : JobKind)
  | advance (r : R) (meets : Meets)
  | fail (r : R)

/-- `other_deck_reservation_active`: another reservation has a journal. -/
def otherDeckReservationActive (s : State R) (r : R) : Bool :=
  s.journals.keys.any fun r' => r' ≠ r

def unlock (s : State R) (r : R) : Option R :=
  if s.deckModeLock = some r then none else s.deckModeLock

/-- The end of a job, with its locks. -/
def endJob (s : State R) (r : R) : State R :=
  { s with jobs := s.jobs.erase r, deckModeLock := unlock s r }

def goOn (s : State R) (r : R) (phase : Phase) : State R :=
  { s with jobs := s.jobs.insert r phase }

def saveJournal (s : State R) (r : R) (mode : Option Mode) : State R :=
  { s with journals := s.journals.insert r ⟨mode⟩ }

/-- The mode is written unless the module has no such parameter. -/
def writeMode (s : State R) (mode : Mode) : State R :=
  { s with mode := s.mode.map fun _ => mode }

/-- One step of the job of a reservation; a step that cannot be done ends it. -/
def advance (s : State R) (r : R) (meets : Meets) : Phase → State R
  | .locking activates =>
    if s.deckModeLock.isNone then { goOn s r (.checking activates) with deckModeLock := some r }
    else endJob s r
  | .checking activates =>
    if otherDeckReservationActive s r then endJob s r else goOn s r (.reading activates)
  | .reading activates => goOn s r (.saving activates s.mode)
  | .saving activates mode =>
    if activates then
      { goOn (saveJournal s r mode) r (.applying mode) with deckModeLock := unlock s r }
    else endJob (saveJournal s r mode) r
  | .applying (some _) => goOn s r .masking
  | .applying none =>
    match s.mode with
    | none => endJob s r
    | some mode => goOn s r (.recording mode)
  | .recording mode => goOn (saveJournal s r (some mode)) r .masking
  | .masking => if s.mode.isNone then endJob s r else goOn (writeMode s .n) r .verifying
  | .verifying => endJob s r
  | .recovering =>
    match s.journals.get? r with
    | some journal => goOn s r (.repairing journal.mode)
    | none =>
      -- A journal is made up only to undo what was armed without one.
      if meets.armed then goOn (saveJournal s r none) r (.repairing none) else endJob s r
  | .repairing mode =>
    match mode with
    | none => goOn s r (.restoring (¬ meets.rebinds))
    | some mode =>
      if meets.writes then goOn (writeMode s mode) r (.restoring (¬ meets.rebinds))
      else goOn s r (.restoring (¬ meets.rebinds ∨ s.mode.isSome))
  | .restoring repairError =>
    if repairError then endJob s r
    else endJob { s with journals := s.journals.erase r } r

def step (s : State R) : Step R → Option (State R)
  | .loadModule mode =>
    match s.mode with
    | none => some { s with mode := some mode, original := some mode }
    | some _ => none
  | .begin r kind =>
    -- The operation lock of a reservation admits one job.
    if s.jobs.get? r = none then some (goOn s r kind.start) else none
  | .advance r meets => (s.jobs.get? r).map (advance s r meets)
  | .fail r => (s.jobs.get? r).map fun _ => endJob s r

/-- The journal of a reservation owns the mode. -/
def Owns (s : State R) (r : R) : Prop := ∃ mode, s.journals.get? r = some ⟨some mode⟩

theorem owns_iff (s : State R) (r : R) :
    (s.journals.get? r).bind Journal.mode ≠ none ↔ Owns s r := by
  unfold Owns
  cases s.journals.get? r with
  | none => simp
  | some journal =>
    obtain ⟨mode⟩ := journal
    cases mode <;> simp

instance decidableOwns (s : State R) (r : R) : Decidable (Owns s r) :=
  decidable_of_iff _ (owns_iff s r)

/-- A snapshot or an activation starts only where no mode is recorded already. -/
def Admitted (s : State R) : Step R → Prop
  | .begin r .snapshot => ¬ Owns s r
  | .begin r .activate => ¬ Owns s r
  | _ => True

instance decidableAdmitted (s : State R) : (a : Step R) → Decidable (Admitted s a)
  | .begin r .snapshot => inferInstanceAs (Decidable (¬ Owns s r))
  | .begin r .activate => inferInstanceAs (Decidable (¬ Owns s r))
  | .begin _ .recover => inferInstanceAs (Decidable True)
  | .loadModule _ => inferInstanceAs (Decidable True)
  | .advance _ _ => inferInstanceAs (Decidable True)
  | .fail _ => inferInstanceAs (Decidable True)

/-! ## Who holds the mode -/

/-- The phases between the look at the other journals and a journal with the mode. -/
def Phase.claims : Phase → Bool
  | .reading _ => true
  | .saving _ _ => true
  | .applying _ => true
  | .recording _ => true
  | _ => false

/-- The journal of a reservation owns the mode, or its job is about to record it. -/
def Holder (s : State R) (r : R) : Prop :=
  Owns s r ∨ ∃ phase, s.jobs.get? r = some phase ∧ phase.claims = true

/-- What a job relies on in each phase. -/
def Grounded (s : State R) (r : R) : Phase → Prop
  | .locking _ => ¬ Owns s r
  | .checking _ => s.deckModeLock = some r ∧ ¬ Owns s r
  | .reading _ => s.deckModeLock = some r ∧ ¬ Owns s r
  | .saving _ mode => s.deckModeLock = some r ∧ ¬ Owns s r ∧ (mode = none ∨ mode = s.original)
  | .applying mode => s.journals.get? r = some ⟨mode⟩
  | .recording mode => s.journals.get? r = some ⟨none⟩ ∧ s.original = some mode
  | .masking => Owns s r
  | .verifying => True
  | .recovering => True
  | .repairing mode => s.journals.get? r = some ⟨mode⟩
  | .restoring repairError => repairError = false →
      ∃ mode, s.journals.get? r = some ⟨mode⟩ ∧ (mode = none ∨ s.mode = s.original)

structure Sound (s : State R) : Prop where
  present : s.mode.isSome = s.original.isSome
  recorded : ∀ r mode, s.journals.get? r = some ⟨some mode⟩ → s.original = some mode
  free : (∀ r, ¬ Owns s r) → s.mode = s.original
  single : ∀ r r', Holder s r → Holder s r' → r = r'
  grounded : ∀ r phase, s.jobs.get? r = some phase → Grounded s r phase

theorem sound_initial (mode : Option Mode) :
    Sound ({ mode := mode, original := mode } : State R) where
  present := rfl
  recorded := by
    intro r mode h
    simp at h
  free := fun _ => rfl
  single := by
    intro r r' h
    simp [Holder, Owns] at h
  grounded := by
    intro r phase h
    simp at h

/-- What the job of one reservation changes, as the other reservations see it. -/
structure Local (s t : State R) (r : R) : Prop where
  journals : ∀ r', r' ≠ r → t.journals.get? r' = s.journals.get? r'
  jobs : ∀ r', r' ≠ r → t.jobs.get? r' = s.jobs.get? r'
  lock : ∀ r', r' ≠ r → s.deckModeLock = some r' → t.deckModeLock = some r'
  original : t.original = s.original
  present : t.mode.isSome = s.mode.isSome
  mode : t.mode = s.mode ∨ Owns s r

variable {s t : State R} {r r' : R} {phase : Phase}

theorem Local.owns (h : Local s t r) (hr : r' ≠ r) : Owns t r' ↔ Owns s r' := by
  unfold Owns
  rw [h.journals r' hr]

theorem Local.holder (h : Local s t r) (hr : r' ≠ r) : Holder t r' ↔ Holder s r' := by
  unfold Holder
  rw [h.owns hr, h.jobs r' hr]

/-- A job keeps what the jobs of other reservations rely on. -/
theorem Local.grounded (h : Local s t r) (hs : Sound s) (hr : r' ≠ r)
    (hphase : Grounded s r' phase) : Grounded t r' phase := by
  have howns := h.owns hr
  have hjournal := h.journals r' hr
  have horiginal := h.original
  unfold Grounded at hphase ⊢
  cases phase with
  | locking activates => rwa [howns]
  | masking => rwa [howns]
  | checking activates
  | reading activates => exact ⟨h.lock r' hr hphase.1, by rw [howns]; exact hphase.2⟩
  | saving activates mode =>
    refine ⟨h.lock r' hr hphase.1, ?_, ?_⟩
    · rw [howns]
      exact hphase.2.1
    · rw [horiginal]
      exact hphase.2.2
  | applying mode => rwa [hjournal]
  | repairing mode => rwa [hjournal]
  | recording mode => rwa [hjournal, horiginal]
  | verifying => trivial
  | recovering => trivial
  | restoring repairError =>
    intro herror
    obtain ⟨mode, hget, hmode⟩ := hphase herror
    rw [hjournal]
    refine ⟨mode, hget, ?_⟩
    obtain hnone | hrestored := hmode
    · exact .inl hnone
    · obtain hsame | hown := h.mode
      · rw [hsame, horiginal]
        exact .inr hrestored
      · cases mode with
        | none => exact .inl rfl
        | some mode => exact absurd (hs.single r' r (.inl ⟨mode, hget⟩) (.inl hown)) hr

/-- A step of one job is sound if it is so for its own reservation. -/
theorem sound_of_local (hs : Sound s) (h : Local s t r)
    (hrecorded : ∀ mode, t.journals.get? r = some ⟨some mode⟩ → s.original = some mode)
    (hfree : (∀ r', ¬ Owns t r') → t.mode = t.original)
    (hsingle : Holder t r → Holder s r ∨ ∀ r', r' ≠ r → ¬ Holder s r')
    (hgrounded : ∀ phase, t.jobs.get? r = some phase → Grounded t r phase) : Sound t := by
  have hself (r' : R) (hr : r' ≠ r) (ht : Holder t r) (ht' : Holder t r') : r' = r := by
    have hs' := (h.holder hr).mp ht'
    obtain hold | hnone := hsingle ht
    · exact hs.single r' r hs' hold
    · exact absurd hs' (hnone r' hr)
  refine ⟨?_, ?_, hfree, ?_, ?_⟩
  · rw [h.present, h.original]
    exact hs.present
  · intro r' mode hget
    rw [h.original]
    by_cases hr : r' = r
    · rw [hr] at hget
      exact hrecorded mode hget
    · rw [h.journals r' hr] at hget
      exact hs.recorded r' mode hget
  · intro r₁ r₂ h₁ h₂
    by_cases hr₁ : r₁ = r
    · by_cases hr₂ : r₂ = r
      · rw [hr₁, hr₂]
      · rw [hr₁] at h₁
        rw [hr₁, hself r₂ hr₂ h₁ h₂]
    · by_cases hr₂ : r₂ = r
      · rw [hr₂] at h₂
        rw [hr₂, hself r₁ hr₁ h₂ h₁]
      · exact hs.single r₁ r₂ ((h.holder hr₁).mp h₁) ((h.holder hr₂).mp h₂)
  · intro r' phase hget
    by_cases hr : r' = r
    · rw [hr] at hget ⊢
      exact hgrounded phase hget
    · rw [h.jobs r' hr] at hget
      exact h.grounded hs hr (hs.grounded r' phase hget)

theorem unlock_other (s : State R) (hr : r' ≠ r) (h : s.deckModeLock = some r') :
    unlock s r = some r' := by
  unfold unlock
  rw [h, if_neg (fun heq => hr (Option.some.inj heq))]

theorem sound_endJob (hs : Sound s) (r : R) : Sound (endJob s r) := by
  have hlocal : Local s (endJob s r) r := by
    refine ⟨fun _ _ => rfl, fun r' hr => Dict.get?_erase_of_ne _ hr,
      fun r' hr => unlock_other s hr, rfl, rfl, .inl rfl⟩
  have hnone : (endJob s r).jobs.get? r = none := Dict.get?_erase_self _ _
  refine sound_of_local hs hlocal (hs.recorded r) hs.free (fun h => ?_) (fun phase h => ?_)
  · obtain hown | ⟨phase, hphase, -⟩ := h
    · exact .inl (.inl hown)
    · rw [hnone] at hphase
      cases hphase
  · rw [hnone] at h
    cases h

/-- A job goes on; it may claim the mode if it did before or nobody else holds it. -/
theorem sound_goOn (hs : Sound s)
    (hclaims : phase.claims = true → Holder s r ∨ ∀ r', r' ≠ r → ¬ Holder s r')
    (hgrounded : Grounded (goOn s r phase) r phase) : Sound (goOn s r phase) := by
  have hlocal : Local s (goOn s r phase) r := by
    refine ⟨fun _ _ => rfl, fun r' hr => Dict.get?_insert_of_ne _ _ hr, fun _ _ h => h, rfl, rfl,
      .inl rfl⟩
  have hself : (goOn s r phase).jobs.get? r = some phase := Dict.get?_insert_self _ _ _
  refine sound_of_local hs hlocal (hs.recorded r) hs.free (fun h => ?_) (fun phase' h => ?_)
  · obtain hown | ⟨phase', hphase', hclaims'⟩ := h
    · exact .inl (.inl hown)
    · rw [hself] at hphase'
      cases hphase'
      exact hclaims hclaims'
  · rw [hself] at h
    cases h
    exact hgrounded

/-- The mode is written by the owner of the mode. -/
theorem local_writeMode (hown : Owns s r) (mode : Mode) (phase : Phase) :
    Local s (goOn (writeMode s mode) r phase) r := by
  refine ⟨fun _ _ => rfl, fun r' hr => Dict.get?_insert_of_ne _ _ hr, fun _ _ h => h, rfl, ?_,
    .inr hown⟩
  simp [goOn, writeMode]

theorem sound_writeMode (hs : Sound s) (hown : Owns s r) (mode : Mode)
    (hgrounded : Grounded (goOn (writeMode s mode) r phase) r phase) :
    Sound (goOn (writeMode s mode) r phase) := by
  refine sound_of_local hs (local_writeMode hown mode phase) (hs.recorded r) (fun hnone => ?_)
    (fun _ => .inl (.inl hown)) (fun phase' h => ?_)
  · exact absurd hown (hnone r)
  · rw [show (goOn (writeMode s mode) r phase).jobs.get? r = some phase from
      Dict.get?_insert_self _ _ _] at h
    cases h
    exact hgrounded

/-- A job saves the mode that is in force in the journal it holds the mode with. -/
theorem local_saveJournal (s : State R) (r : R) (mode : Option Mode) (phase : Phase)
    {lock : Option R} (hlock : ∀ r' ≠ r, s.deckModeLock = some r' → lock = some r') :
    Local s { goOn (saveJournal s r mode) r phase with deckModeLock := lock } r :=
  ⟨fun _ hr => Dict.get?_insert_of_ne _ _ hr, fun _ hr => Dict.get?_insert_of_ne _ _ hr, hlock,
    rfl, rfl, .inl rfl⟩

theorem sound_saveJournal (hs : Sound s) {mode : Option Mode} (phase : Phase) (lock : Option R)
    (hlock : ∀ r' ≠ r, s.deckModeLock = some r' → lock = some r') (hnot : ¬ Owns s r)
    (hmode : mode = none ∨ mode = s.original)
    (hholder : (mode ≠ none ∨ phase.claims = true) → Holder s r)
    (hgrounded : Grounded { goOn (saveJournal s r mode) r phase with deckModeLock := lock } r
      phase) :
    Sound { goOn (saveJournal s r mode) r phase with deckModeLock := lock } := by
  have hlocal := local_saveJournal s r mode phase hlock
  have hjournal : (({ goOn (saveJournal s r mode) r phase with
      deckModeLock := lock } : State R)).journals.get? r = some ⟨mode⟩ :=
    Dict.get?_insert_self _ _ _
  have hself : (({ goOn (saveJournal s r mode) r phase with
      deckModeLock := lock } : State R)).jobs.get? r = some phase :=
    Dict.get?_insert_self _ _ _
  refine sound_of_local hs hlocal (fun mode' hget => ?_) (fun hnone => ?_) (fun h => .inl ?_)
    (fun phase' h => ?_)
  · rw [hjournal] at hget
    cases hget
    exact (hmode.resolve_left (by simp)).symm
  · refine hs.free fun r' hown => ?_
    by_cases hr : r' = r
    · rw [hr] at hown
      exact hnot hown
    · exact hnone r' ((hlocal.owns hr).mpr hown)
  · refine hholder ?_
    obtain ⟨mode', hget⟩ | ⟨phase', hphase, hclaims⟩ := h
    · rw [hjournal] at hget
      cases hget
      exact .inl (by simp)
    · rw [hself] at hphase
      cases hphase
      exact .inr hclaims
  · rw [hself] at h
    cases h
    exact hgrounded

/-- The journal is dropped once the mode is the original one again. -/
theorem sound_dropJournal (hs : Sound s) {mode : Option Mode}
    (hjournal : s.journals.get? r = some ⟨mode⟩) (hmode : mode = none ∨ s.mode = s.original) :
    Sound (endJob { s with journals := s.journals.erase r } r) := by
  have hlocal : Local s (endJob { s with journals := s.journals.erase r } r) r := by
    refine ⟨fun r' hr => Dict.get?_erase_of_ne _ hr, fun r' hr => Dict.get?_erase_of_ne _ hr,
      fun r' hr => unlock_other s hr, rfl, rfl, .inl rfl⟩
  have hnojournal : (endJob { s with journals := s.journals.erase r } r).journals.get? r = none :=
    Dict.get?_erase_self _ _
  have hnojob : (endJob { s with journals := s.journals.erase r } r).jobs.get? r = none :=
    Dict.get?_erase_self _ _
  refine sound_of_local hs hlocal (fun mode' hget => ?_) (fun hnone => ?_) (fun h => ?_)
    (fun phase h => ?_)
  · rw [hnojournal] at hget
    cases hget
  · obtain hempty | hrestored := hmode
    · refine hs.free fun r' hown => ?_
      by_cases hr : r' = r
      · obtain ⟨mode', hget⟩ := hown
        rw [hr, hjournal, hempty] at hget
        cases hget
      · exact hnone r' ((hlocal.owns hr).mpr hown)
    · exact hrestored
  · obtain ⟨mode', hget⟩ | ⟨phase, hphase, -⟩ := h
    · rw [hnojournal] at hget
      cases hget
    · rw [hnojob] at hphase
      cases hphase
  · rw [hnojob] at h
    cases h

/-- With the lock held and no other journal, nobody else holds the mode. -/
theorem not_holder_of_checked (hs : Sound s) (hr : r' ≠ r) (hlock : s.deckModeLock = some r)
    (hchecked : otherDeckReservationActive s r = false) :
    ¬ Holder s r' := by
  have hnojournal : s.journals.get? r' = none := by
    rw [Dict.get?_eq_none_iff]
    intro hin
    have hother : otherDeckReservationActive s r = true :=
      List.any_eq_true.mpr ⟨r', hin, by simp [hr]⟩
    rw [hchecked] at hother
    cases hother
  intro h
  obtain ⟨mode, hget⟩ | ⟨phase, hphase, hclaims⟩ := h
  · rw [hnojournal] at hget
    cases hget
  · have hgrounded := hs.grounded r' phase hphase
    have hnolock : s.deckModeLock ≠ some r' := by
      rw [hlock]
      intro heq
      exact hr (Option.some.inj heq).symm
    cases phase <;> simp only [Phase.claims, Bool.false_eq_true] at hclaims
    · exact hnolock hgrounded.1
    · exact hnolock hgrounded.1
    · rw [Grounded, hnojournal] at hgrounded
      cases hgrounded
    · rw [Grounded, hnojournal] at hgrounded
      cases hgrounded.1

/-- While a job about to record the mode has no journal with it, the mode is the original. -/
theorem mode_of_claiming (hs : Sound s) (hholder : Holder s r) (hnot : ¬ Owns s r) :
    s.mode = s.original := by
  refine hs.free fun r' hown => ?_
  rw [← hs.single r r' hholder (.inl hown)] at hown
  exact hnot hown

/-- A job takes the free lock. -/
theorem sound_takeLock (hs : Sound s) (activates : Bool) (hfree : s.deckModeLock = none)
    (hnot : ¬ Owns s r) :
    Sound { goOn s r (.checking activates) with deckModeLock := some r } := by
  have hself : ({ goOn s r (.checking activates) with
      deckModeLock := some r } : State R).jobs.get? r = some (.checking activates) :=
    Dict.get?_insert_self _ _ _
  refine sound_of_local hs ⟨fun _ _ => rfl, fun r' hr => Dict.get?_insert_of_ne _ _ hr, ?_, rfl,
    rfl, .inl rfl⟩ (hs.recorded r) hs.free (fun h => ?_) (fun phase h => ?_)
  · intro r' _ hheld
    rw [hfree] at hheld
    cases hheld
  · obtain hown | ⟨phase, hphase, hclaims⟩ := h
    · exact .inl (.inl hown)
    · rw [hself] at hphase
      cases hphase
      cases hclaims
  · rw [hself] at h
    cases h
    exact ⟨rfl, hnot⟩

theorem sound_advance (hs : Sound s) (meets : Meets) (hphase : s.jobs.get? r = some phase) :
    Sound (advance s r meets phase) := by
  have hgrounded := hs.grounded r phase hphase
  cases phase with
  | locking activates =>
    simp only [advance]
    split
    · rename_i hfree
      have hlock : s.deckModeLock = none := Option.isNone_iff_eq_none.mp hfree
      exact sound_takeLock hs activates hlock hgrounded
    · exact sound_endJob hs r
  | checking activates =>
    simp only [advance]
    split
    · exact sound_endJob hs r
    · rename_i hchecked
      refine sound_goOn hs (fun _ => .inr fun r' hr => ?_) hgrounded
      exact not_holder_of_checked hs hr hgrounded.1 (by simpa using hchecked)
  | reading activates =>
    have hholder : Holder s r := .inr ⟨_, hphase, rfl⟩
    refine sound_goOn hs (fun _ => .inl hholder) ⟨hgrounded.1, hgrounded.2, .inr ?_⟩
    exact mode_of_claiming hs hholder hgrounded.2
  | saving activates mode =>
    have hholder : Holder s r := .inr ⟨_, hphase, rfl⟩
    have hunlock (r' : R) (hr : r' ≠ r) (h : s.deckModeLock = some r') : unlock s r = some r' :=
      unlock_other s hr h
    simp only [advance]
    split
    · exact sound_saveJournal hs _ _ hunlock hgrounded.2.1 hgrounded.2.2 (fun _ => hholder)
        (Dict.get?_insert_self _ _ _)
    · have hsaved := sound_saveJournal hs .verifying s.deckModeLock
        (fun _ _ h => h) hgrounded.2.1 hgrounded.2.2 (fun _ => hholder) trivial
      have hend := sound_endJob hsaved r
      have heq : endJob { goOn (saveJournal s r mode) r .verifying with
          deckModeLock := s.deckModeLock } r = endJob (saveJournal s r mode) r := by
        simp only [endJob, goOn, saveJournal, Dict.erase_insert_self]
        rfl
      rw [heq] at hend
      exact hend
  | applying mode =>
    have hholder : Holder s r := .inr ⟨_, hphase, rfl⟩
    have hjournal : s.journals.get? r = some ⟨mode⟩ := hgrounded
    cases mode with
    | some mode => exact sound_goOn hs (fun h => by cases h) ⟨mode, hjournal⟩
    | none =>
      simp only [advance]
      have hnot : ¬ Owns s r := by
        intro hown
        obtain ⟨mode, hget⟩ := hown
        rw [hjournal] at hget
        cases hget
      cases hmode : s.mode with
      | none => exact sound_endJob hs r
      | some mode =>
        refine sound_goOn hs (fun _ => .inl hholder) ⟨hjournal, ?_⟩
        have horiginal := mode_of_claiming hs hholder hnot
        rw [hmode] at horiginal
        exact horiginal.symm
  | recording mode =>
    have hholder : Holder s r := .inr ⟨_, hphase, rfl⟩
    have hnot : ¬ Owns s r := by
      intro hown
      obtain ⟨mode, hget⟩ := hown
      rw [hgrounded.1] at hget
      cases hget
    exact sound_saveJournal hs _ s.deckModeLock (fun _ _ h => h) hnot
      (.inr hgrounded.2.symm) (fun _ => hholder) ⟨mode, Dict.get?_insert_self _ _ _⟩
  | masking =>
    simp only [advance]
    split
    · exact sound_endJob hs r
    · exact sound_writeMode hs hgrounded .n trivial
  | verifying => exact sound_endJob hs r
  | recovering =>
    simp only [advance]
    cases hjournal : s.journals.get? r with
    | some journal => exact sound_goOn hs (fun h => by cases h) hjournal
    | none =>
      have hnot : ¬ Owns s r := by
        intro hown
        obtain ⟨mode, hget⟩ := hown
        rw [hjournal] at hget
        cases hget
      simp only
      split
      · refine sound_saveJournal hs _ s.deckModeLock (fun _ _ h => h) hnot (.inl rfl) ?_
          (Dict.get?_insert_self _ _ _)
        intro h
        simp [Phase.claims] at h
      · exact sound_endJob hs r
  | repairing mode =>
    have hjournal : s.journals.get? r = some ⟨mode⟩ := hgrounded
    cases mode with
    | none => exact sound_goOn hs (fun h => by cases h) fun _ => ⟨none, hjournal, .inl rfl⟩
    | some mode =>
      have hown : Owns s r := ⟨mode, hjournal⟩
      have horiginal := hs.recorded r mode hjournal
      have hpresent := hs.present
      rw [horiginal] at hpresent
      simp only [advance]
      split
      · refine sound_writeMode hs hown mode fun _ => ⟨some mode, hjournal, .inr ?_⟩
        obtain ⟨current, hcurrent⟩ := Option.isSome_iff_exists.mp hpresent
        rw [show (goOn (writeMode s mode) r _).original = s.original from rfl, horiginal]
        simp [goOn, writeMode, hcurrent]
      · refine sound_goOn hs (fun h => by cases h) fun herror => ?_
        simp [hpresent] at herror
  | restoring repairError =>
    simp only [advance]
    split
    · exact sound_endJob hs r
    · rename_i herror
      obtain ⟨mode, hjournal, hmode⟩ := hgrounded (by simpa using herror)
      exact sound_dropJournal hs hjournal hmode

/-! ## Runs -/

/-- The module is loaded: what was the original mode is in force from here on. -/
theorem sound_loadModule (hs : Sound s) (hmode : s.mode = none) (mode : Mode) :
    Sound { s with mode := some mode, original := some mode } := by
  have horiginal : s.original = none := by
    have hpresent := hs.present
    rw [hmode] at hpresent
    exact Option.not_isSome_iff_eq_none.mp (by simp [← hpresent])
  have hunowned (r : R) : ¬ Owns s r := by
    intro hown
    obtain ⟨recorded, hget⟩ := hown
    have hrecorded := hs.recorded r recorded hget
    rw [horiginal] at hrecorded
    cases hrecorded
  refine ⟨rfl, fun r recorded hget => ?_, fun _ => rfl, hs.single, fun r phase hphase => ?_⟩
  · exact absurd ⟨recorded, hget⟩ (hunowned r)
  · have hgrounded := hs.grounded r phase hphase
    cases phase with
    | saving activates saved =>
      refine ⟨hgrounded.1, hgrounded.2.1, .inl ?_⟩
      rw [Grounded, horiginal] at hgrounded
      exact hgrounded.2.2.elim id id
    | recording recorded =>
      rw [Grounded, horiginal] at hgrounded
      cases hgrounded.2
    | restoring repairError =>
      intro herror
      obtain ⟨saved, hget, -⟩ := hgrounded herror
      exact ⟨saved, hget, .inr rfl⟩
    | locking activates
    | checking activates
    | reading activates
    | applying saved
    | masking
    | repairing saved => exact hgrounded
    | verifying => trivial
    | recovering => trivial

theorem sound_step (s : State R) (a : Step R) (t : State R) (hs : Sound s)
    (hadmitted : Admitted s a) (hstep : step s a = some t) : Sound t := by
  cases a with
  | loadModule mode =>
    cases hmode : s.mode with
    | some current => simp [step, hmode] at hstep
    | none =>
      simp only [step, hmode, Option.some.injEq] at hstep
      rw [← hstep]
      exact sound_loadModule hs hmode mode
  | begin r kind =>
    simp only [step, Option.ite_none_right_eq_some, Option.some.injEq] at hstep
    rw [← hstep.2]
    cases kind with
    | snapshot => exact sound_goOn hs (fun h => by cases h) hadmitted
    | activate => exact sound_goOn hs (fun h => by cases h) hadmitted
    | recover => exact sound_goOn hs (fun h => by cases h) trivial
  | advance r meets =>
    obtain ⟨phase, hphase, ht⟩ := Option.map_eq_some_iff.mp hstep
    rw [← ht]
    exact sound_advance hs meets hphase
  | fail r =>
    obtain ⟨phase, -, ht⟩ := Option.map_eq_some_iff.mp hstep
    rw [← ht]
    exact sound_endJob hs r

/- Along a run in which no snapshot or activation starts for a reservation whose
journal records a mode: one reservation at most has such a journal, what it records
is the original mode, and without one the mode is the original mode. -/
theorem original_mode_is_kept (mode : Option Mode) (as : List (Step R)) (s : State R)
    (hadmitted : Guarded step Admitted { mode := mode, original := mode } as)
    (hrun : run step { mode := mode, original := mode } as = some s) :
    (∀ r r', Owns s r → Owns s r' → r = r') ∧
      (∀ r recorded, s.journals.get? r = some ⟨some recorded⟩ → s.original = some recorded) ∧
      ((∀ r, ¬ Owns s r) → s.mode = s.original) := by
  have hsound : Sound s := guarded_run_invariant sound_step (sound_initial mode) hadmitted hrun
  exact ⟨fun r r' h h' => hsound.single r r' (.inl h) (.inl h'), hsound.recorded, hsound.free⟩

/-- All steps of a job that meets nothing in its way. -/
def job (r : R) (kind : JobKind) (steps : Nat) : List (Step R) :=
  .begin r kind :: List.replicate steps (.advance r {})

/- The same reservation is activated twice and then recovered; its second journal
holds the mode that the first activation wrote. -/
theorem second_activation_loses_mode :
    ¬ ∀ (mode : Option Mode) (as : List (Step Nat)) (s : State Nat),
      run step { mode := mode, original := mode } as = some s →
        (∀ r recorded, s.journals.get? r = some ⟨some recorded⟩ → s.original = some recorded) ∧
        ((∀ r, ¬ Owns s r) → s.mode = s.original) := by
  intro h
  have hrun : run step ({ mode := some .y, original := some .y } : State Nat)
      (job 0 .activate 7 ++ job 0 .activate 7 ++ job 0 .recover 3) =
        some { mode := some .n, original := some .y } := by decide
  have hlost := (h _ _ _ hrun).2 (by simp [Owns])
  cases hlost

/-- One Deck is masked while the activation of another is refused, and recovers. -/
theorem mode_after_recovery :
    ∃ s : State Nat, run step { mode := some .y, original := some .y }
        (job 0 .activate 7 ++ job 1 .activate 2 ++ job 0 .recover 3) = some s ∧
      s.mode = some .y := by
  have hrun : run step ({ mode := some .y, original := some .y } : State Nat)
      (job 0 .activate 7 ++ job 1 .activate 2 ++ job 0 .recover 3) =
        some { mode := some .y, original := some .y } := by decide
  exact ⟨_, hrun,
    (original_mode_is_kept (some .y) _ _ (by decide) hrun).2.2 (by simp [Owns])⟩

end Keymasq.Masking.LizardMode
