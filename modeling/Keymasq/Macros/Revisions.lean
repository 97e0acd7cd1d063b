import Keymasq.Macros.Store

/-!
# Expected revisions

The revision a client expects is compared with the one that is stored, and a
macro created under a name that was given up starts its revisions anew. The
comparison tells the version the client has read from every other one as long
as no version is stored under a name with a revision that a client has already
read there. A rename that fails while it writes must in addition find no file
under the new name that is not its own.
-/

namespace Keymasq.Macros.Revisions
open Foundation Foundation.Json Foundation.Transition Keymasq.Macros.Store

/- The name and the revision of the version that a step stores. -/
def stores (s : State) : Op → Option (String × ℤ)
  | .create payload =>
    let rawName := macroPayloadStr payload "name" ""
    let name := sanitizeName rawName
    if isInternalName rawName || name = "" then none
    else if (s.files.get? name).isSome then none
    else some (name, macroPayloadInt payload "revision" 1)
  | .apply =>
    match s.guard with
    | some ⟨request, .loaded current⟩ =>
      match request.change with
      | .update _ => some (request.path, current.revision + 1)
      | _ => none
    | _ => none
  | .link =>
    match s.guard with
    | some ⟨request, .checked current⟩ =>
      if (s.files.get? request.newPath).isSome then none
      else some (request.newPath, current.revision + 1)
    | _ => none
  | _ => none

/-- No client has read the revision that the step stores, under the name it stores it. -/
def FreshRevision (s : State) (op : Op) : Prop :=
  ∀ stored, stores s op = some stored →
    ∀ reading ∈ s.readings, (reading.path, reading.revision) ≠ stored

instance (s : State) (op : Op) : Decidable (FreshRevision s op) :=
  match h : stores s op with
  | none => isTrue fun stored hs => by rw [h] at hs; cases hs
  | some stored =>
    if hall : ∀ reading ∈ s.readings, (reading.path, reading.revision) ≠ stored then
      isTrue fun stored' hs => by
        rw [h] at hs
        cases hs
        exact hall
    else isFalse fun hf => hall (hf stored h)

/- A rename that fails while it writes finds a file under the new name. -/
def strandsFile (s : State) : Op → Bool
  | .fail =>
    match s.guard with
    | some ⟨request, .checked _⟩ => (s.files.get? request.newPath).isSome
    | _ => false
  | _ => false

/-- The condition under which the check is sound. -/
def keepsApart (s : State) (op : Op) : Prop := FreshRevision s op ∧ strandsFile s op = false

/- The change that a step completes with success. -/
def committed (s : State) : Op → Option Request
  | .apply =>
    match s.guard with
    | some ⟨request, .loaded _⟩ =>
      match request.change with
      | .rename _ => none
      | _ => some request
    | _ => none
  | .validate true => s.guard.map Pending.request
  | _ => none

/-- The version under the name is the one the client has read. -/
def IsSeen (s : State) (request : Request) (r : ℤ) : Prop :=
  ∃ file, s.files.get? request.path = some file ∧ file.stamp = request.seen ∧ file.revision = r

/- The stamp of the file a rename has written itself. -/
def ownStamp (s : State) : Option ℕ :=
  match s.guard with
  | some ⟨_, .written _ stamp⟩ => some stamp
  | _ => none

/-- The version of a file is not the same any more. -/
def Lost (s t : State) (path : String) (file : MacroFile) : Prop :=
  s.files.get? path = some file ∧ (t.files.get? path).map MacroFile.stamp ≠ some file.stamp

/-- The version that is lost is the one the client inside the guard has seen, or a file of its
own. -/
def Covered (s : State) (path : String) (file : MacroFile) : Prop :=
  ∃ request phase, s.guard = some ⟨request, phase⟩ ∧
    ∀ r, request.expectedRevision = some r →
      path = request.path ∧ file.stamp = request.seen ∨ ownStamp s = some file.stamp

/-- A change that succeeds is one of the version the client has read, and what a change
overwrites or deletes, whether it succeeds or not, is that version or a file of its own. -/
structure LosesNoUpdate (s : State) (op : Op) : Prop where
  succeeds : ∀ request r, committed s op = some request →
    request.expectedRevision = some r → IsSeen s request r
  keeps : ∀ t path file, step s op = some t → Lost s t path file → Covered s path file

/-! ## The invariant -/

/-- A stored version with the revision of a reading under its name is the version that was read. -/
def Told (s : State) : Prop :=
  ∀ reading ∈ s.readings, ∀ file, s.files.get? reading.path = some file →
    file.revision = reading.revision → file.stamp = reading.stamp

/-- The version loaded inside the guard is still stored, and it was the expected one. -/
def Loaded (s : State) (request : Request) (current : MacroFile) : Prop :=
  s.files.get? request.path = some current ∧
    revisionConflict request.expectedRevision current.revision = false

def PhaseSound (s : State) (request : Request) : Phase → Prop
  | .entered => True
  | .loaded current => Loaded s request current
  | .checked current => Loaded s request current
  | .written current stamp =>
    Loaded s request current ∧ request.newPath ≠ request.path ∧
      ∃ file, s.files.get? request.newPath = some file ∧ file.stamp = stamp

structure Sound (s : State) : Prop where
  told : Told s
  guarded : ∀ request phase, s.guard = some ⟨request, phase⟩ →
    Informed s request ∧ PhaseSound s request phase

theorem sound_init (internal : List String) : Sound { internal := internal } := by
  constructor
  · intro reading hreading
    cases hreading
  · intro request phase hguard
    cases hguard

variable {s t : State} {file : MacroFile} {phase : Phase}

theorem Told.put (h : Told s) {path : String} {revision : ℤ}
    (hfresh : ∀ reading ∈ s.readings, (reading.path, reading.revision) ≠ (path, revision))
    (payload : MacroPayload) : Told (s.put path revision payload) := by
  intro reading hreading file hfile hrevision
  change (s.files.insert path _).get? reading.path = some file at hfile
  by_cases hpath : reading.path = path
  · rw [hpath, Dict.get?_insert_self] at hfile
    cases hfile
    refine absurd ?_ (hfresh reading hreading)
    rw [hpath]
    exact congrArg (Prod.mk path) hrevision.symm
  · rw [Dict.get?_insert_of_ne _ _ hpath] at hfile
    exact h reading hreading file hfile hrevision

theorem Told.unlink (h : Told s) (path : String) : Told (s.unlink path) := by
  intro reading hreading file hfile hrevision
  change (s.files.erase path).get? reading.path = some file at hfile
  rw [Dict.get?_erase] at hfile
  split at hfile
  · cases hfile
  · exact h reading hreading file hfile hrevision

theorem Told.get (h : Told s) {client : ℕ} {path : String} (hfile : s.files.get? path = some file) :
    Told { s with readings := ⟨client, path, file.revision, file.stamp⟩ :: s.readings } := by
  intro reading hreading stored hstored hrevision
  rcases List.mem_cons.mp hreading with heq | hold
  · subst heq
    rw [show s.files.get? path = some stored from hstored] at hfile
    cases hfile
    rfl
  · exact h reading hold stored hstored hrevision

/-- A phase only speaks about the two files of its request. -/
theorem PhaseSound.of_files {request : Request} (h : PhaseSound s request phase)
    (hkeep : ∀ path file, s.files.get? path = some file → t.files.get? path = some file) :
    PhaseSound t request phase := by
  cases phase with
  | entered => trivial
  | loaded current => exact ⟨hkeep _ _ h.1, h.2⟩
  | checked current => exact ⟨hkeep _ _ h.1, h.2⟩
  | written current stamp =>
    obtain ⟨hloaded, hne, file, hfile, hstamp⟩ := h
    exact ⟨⟨hkeep _ _ hloaded.1, hloaded.2⟩, hne, file, hkeep _ _ hfile, hstamp⟩

theorem get?_put_of_some {path path' : String} (hfree : (s.files.get? path).isSome = false)
    (hfile : s.files.get? path' = some file) (revision : ℤ) (payload : MacroPayload) :
    (s.put path revision payload).files.get? path' = some file := by
  have hne : path' ≠ path := by
    intro heq
    rw [← heq, hfile] at hfree
    cases hfree
  change (s.files.insert path _).get? path' = some file
  rw [Dict.get?_insert_of_ne _ _ hne]
  exact hfile

theorem Sound.released (h : Told s) : Sound s.release := by
  constructor
  · exact h
  · intro request phase hguard
    cases hguard

theorem Sound.create (h : Sound s) {payload : MacroPayload}
    (hfresh : FreshRevision s (.create payload)) : Sound (createFromEvents s payload) := by
  simp only [createFromEvents]
  simp only [FreshRevision, stores] at hfresh
  split
  · exact h
  rename_i hname
  split
  · exact h
  rename_i hfree
  rw [if_neg hname, if_neg hfree] at hfresh
  rw [Bool.not_eq_true] at hfree
  constructor
  · exact h.told.put (hfresh _ rfl) _
  · intro request phase hguard
    obtain ⟨hinformed, hphase⟩ := h.guarded request phase hguard
    exact ⟨hinformed, hphase.of_files fun path file hfile => get?_put_of_some hfree hfile _ _⟩

theorem Sound.get (h : Sound s) (client : ℕ) (name : String) : Sound (Store.get s client name) := by
  simp only [Store.get]
  split
  · exact h
  split
  · exact h
  rename_i file hfile
  constructor
  · exact h.told.get hfile
  · intro request phase hguard
    obtain ⟨hinformed, hphase⟩ := h.guarded request phase hguard
    exact ⟨fun r hr => List.mem_cons_of_mem _ (hinformed r hr), hphase⟩

theorem Sound.advance (h : Told s) {request : Request} (hinformed : Informed s request)
    (hphase : PhaseSound s request phase) :
    Sound (s.advance request phase) := by
  constructor
  · exact h
  · intro request' phase' hguard
    cases hguard
    exact ⟨hinformed, hphase⟩

theorem Sound.load (h : Sound s) {request : Request} (hguard : s.guard = some ⟨request, .entered⟩) :
    Sound (Store.load s request) := by
  simp only [Store.load]
  split
  · exact Sound.released h.told
  rename_i current hcurrent
  split
  · exact Sound.released h.told
  · rename_i hconflict
    rw [Bool.not_eq_true] at hconflict
    exact Sound.advance h.told (h.guarded _ _ hguard).1 ⟨hcurrent, hconflict⟩

theorem Sound.apply (h : Sound s) {request : Request} {current : MacroFile}
    (hguard : s.guard = some ⟨request, .loaded current⟩) (hfresh : FreshRevision s .apply) :
    Sound (Store.apply s request current) := by
  obtain ⟨hinformed, hloaded⟩ := h.guarded _ _ hguard
  simp only [FreshRevision, stores, hguard] at hfresh
  simp only [Store.apply]
  cases hchange : request.change with
  | update payload =>
    rw [hchange] at hfresh
    exact Sound.released (h.told.put (hfresh _ rfl) _)
  | delete => exact Sound.released (h.told.unlink _)
  | rename newName =>
    dsimp only
    split
    · exact Sound.released h.told
    · exact Sound.advance h.told hinformed hloaded

theorem Sound.link (h : Sound s) {request : Request} {current : MacroFile}
    (hguard : s.guard = some ⟨request, .checked current⟩) (hfresh : FreshRevision s .link) :
    Sound (Store.link s request current) := by
  obtain ⟨hinformed, hloaded⟩ := h.guarded _ _ hguard
  simp only [FreshRevision, stores, hguard] at hfresh
  simp only [Store.link]
  split
  · exact Sound.released h.told
  rename_i hfree
  rw [if_neg hfree] at hfresh
  rw [Bool.not_eq_true] at hfree
  have hpath := get?_put_of_some hfree hloaded.1 (current.revision + 1)
    (renamedPayload current.payload request.newPath)
  apply Sound.advance (h.told.put (hfresh _ rfl) _) hinformed
  refine ⟨⟨hpath, hloaded.2⟩, ?_, _, Dict.get?_insert_self _ _ _, rfl⟩
  intro heq
  rw [heq, hloaded.1] at hfree
  cases hfree

theorem sound_step {op : Op} (h : Sound s) (hapart : keepsApart s op) (hstep : step s op = some t) :
    Sound t := by
  obtain ⟨hfresh, -⟩ := hapart
  cases op with
  | create payload =>
    cases hstep
    exact h.create hfresh
  | get client name =>
    cases hstep
    exact h.get client name
  | enter request =>
    simp only [step] at hstep
    split at hstep
    · rename_i hentry
      split at hstep
      · cases hstep
        exact Sound.advance h.told hentry.2 trivial
      · cases hstep
        exact h
    · cases hstep
  | load =>
    simp only [step] at hstep
    split at hstep
    · cases hstep
      exact h.load ‹_›
    · cases hstep
  | apply =>
    simp only [step] at hstep
    split at hstep
    · cases hstep
      exact h.apply ‹_› hfresh
    · cases hstep
  | link =>
    simp only [step] at hstep
    split at hstep
    · cases hstep
      exact h.link ‹_› hfresh
    · cases hstep
  | validate valid =>
    simp only [step] at hstep
    split at hstep
    · cases hstep
      simp only [validate]
      split
      · exact Sound.released (h.told.unlink _)
      · exact Sound.released (h.told.unlink _)
    · cases hstep
  | fail =>
    simp only [step] at hstep
    split at hstep
    · cases hstep
      simp only [fail]
      split
      · exact Sound.released (h.told.unlink _)
      · exact Sound.released (h.told.unlink _)
      · exact Sound.released h.told
    · cases hstep

/-! ## What a step overwrites -/

/- The expected revision was read by the client, so the loaded version is the one it read. -/
theorem Sound.isSeen (h : Sound s) {request : Request} {r : ℤ} {current : MacroFile}
    (hguard : s.guard = some ⟨request, phase⟩) (hloaded : Loaded s request current)
    (hexpected : request.expectedRevision = some r) :
    current.stamp = request.seen ∧ current.revision = r := by
  obtain ⟨hfile, hconflict⟩ := hloaded
  rw [hexpected] at hconflict
  simp only [revisionConflict, decide_eq_false_iff_not, ne_eq, not_not] at hconflict
  have hreading := (h.guarded _ _ hguard).1 r hexpected
  exact ⟨h.told _ hreading current hfile hconflict.symm, hconflict.symm⟩

/- The file of the request inside the guard, once it is loaded. -/
theorem PhaseSound.loaded {request : Request} (h : PhaseSound s request phase)
    (hphase : phase ≠ .entered) :
    ∃ current, Loaded s request current := by
  cases phase with
  | entered => exact absurd rfl hphase
  | loaded current => exact ⟨current, h⟩
  | checked current => exact ⟨current, h⟩
  | written current stamp => exact ⟨current, h.1⟩

theorem Sound.isSeen_of_phase (h : Sound s) {request : Request} {r : ℤ}
    (hguard : s.guard = some ⟨request, phase⟩) (hphase : phase ≠ .entered)
    (hexpected : request.expectedRevision = some r) : IsSeen s request r := by
  obtain ⟨current, hloaded⟩ := (h.guarded _ _ hguard).2.loaded hphase
  exact ⟨current, hloaded.1, h.isSeen hguard hloaded hexpected⟩

theorem Sound.succeeds (h : Sound s) {op : Op} (hstep : step s op = some t) {request : Request}
    {r : ℤ} (hcommitted : committed s op = some request)
    (hexpected : request.expectedRevision = some r) : IsSeen s request r := by
  cases op with
  | apply =>
    simp only [committed] at hcommitted
    split at hcommitted
    · rename_i hguard
      split at hcommitted
      · cases hcommitted
      · cases hcommitted
        exact h.isSeen_of_phase hguard (fun he => by cases he) hexpected
    · cases hcommitted
  | validate valid =>
    simp only [step] at hstep
    split at hstep
    · rename_i hguard
      cases valid with
      | false => cases hcommitted
      | true =>
        simp only [committed, hguard, Option.map_some] at hcommitted
        cases hcommitted
        exact h.isSeen_of_phase hguard (fun he => by cases he) hexpected
    · cases hstep
  | create _
  | get _ _
  | enter _
  | load
  | link
  | fail => cases hcommitted

theorem not_lost_of_get? {path : String}
    (h : s.files.get? path = some file → t.files.get? path = some file) :
    ¬ Lost s t path file := by
  intro hlost
  apply hlost.2
  rw [h hlost.1]
  rfl

theorem not_lost_put {new path : String} (hfree : (s.files.get? new).isSome = false) (revision : ℤ)
    (payload : MacroPayload) :
    ¬ Lost s (s.put new revision payload) path file :=
  not_lost_of_get? fun hfile => get?_put_of_some hfree hfile revision payload

theorem Lost.path_eq_put {new path : String} {revision : ℤ} {payload : MacroPayload}
    (h : Lost s (s.put new revision payload) path file) :
    path = new := by
  by_contra hne
  refine not_lost_of_get? (fun hfile => ?_) h
  exact (Dict.get?_insert_of_ne s.files _ hne).trans hfile

theorem Lost.path_eq_unlink {old path : String} (h : Lost s (s.unlink old) path file) :
    path = old := by
  by_contra hne
  refine not_lost_of_get? (fun hfile => ?_) h
  exact (Dict.get?_erase_of_ne s.files hne).trans hfile

/- The request overwrites or deletes its own macro. -/
theorem Sound.covered (h : Sound s) {request : Request} (hguard : s.guard = some ⟨request, phase⟩)
    (hphase : phase ≠ .entered) (hfile : s.files.get? request.path = some file) :
    Covered s request.path file := by
  refine ⟨request, phase, hguard, fun r hexpected => ?_⟩
  obtain ⟨seen, hseen, hstamp, -⟩ := h.isSeen_of_phase hguard hphase hexpected
  rw [hfile] at hseen
  cases hseen
  exact Or.inl ⟨rfl, hstamp⟩

/- A rename takes the file it has written back. -/
theorem Sound.covered_own (h : Sound s) {request : Request} {current : MacroFile} {stamp : ℕ}
    (hguard : s.guard = some ⟨request, .written current stamp⟩)
    (hfile : s.files.get? request.newPath = some file) : Covered s request.newPath file := by
  refine ⟨request, _, hguard, fun r hexpected => Or.inr ?_⟩
  obtain ⟨-, -, -, own, hown, hstamp⟩ := h.guarded _ _ hguard
  rw [hfile] at hown
  cases hown
  simp only [ownStamp, hguard, hstamp]

theorem Sound.covered_apply (h : Sound s) {request : Request} {current : MacroFile}
    (hguard : s.guard = some ⟨request, .loaded current⟩) {path : String}
    (hlost : Lost s (Store.apply s request current) path file) : Covered s path file := by
  have hphase : Phase.loaded current ≠ .entered := fun he => by cases he
  simp only [Store.apply] at hlost
  cases hchange : request.change with
  | update payload =>
    rw [hchange] at hlost
    have hpath := Lost.path_eq_put (s := s) ⟨hlost.1, hlost.2⟩
    subst hpath
    exact h.covered hguard hphase hlost.1
  | delete =>
    rw [hchange] at hlost
    have hpath := Lost.path_eq_unlink (s := s) ⟨hlost.1, hlost.2⟩
    subst hpath
    exact h.covered hguard hphase hlost.1
  | rename newName =>
    rw [hchange] at hlost
    dsimp only at hlost
    split at hlost
    · exact absurd hlost (not_lost_of_get? id)
    · exact absurd hlost (not_lost_of_get? id)

theorem Sound.covered_unlink (h : Sound s) {request : Request} {current : MacroFile} {stamp : ℕ}
    (hguard : s.guard = some ⟨request, .written current stamp⟩) {path : String}
    (hlost : Lost s (s.unlink request.newPath) path file) :
    Covered s path file := by
  have hpath := hlost.path_eq_unlink
  subst hpath
  exact h.covered_own hguard hlost.1

theorem Sound.covered_validate (h : Sound s) {request : Request} {current : MacroFile} {stamp : ℕ}
    (hguard : s.guard = some ⟨request, .written current stamp⟩) {valid : Bool} {path : String}
    (hlost : Lost s (validate s request valid) path file) : Covered s path file := by
  cases valid with
  | true =>
    have hpath := Lost.path_eq_unlink (s := s) ⟨hlost.1, hlost.2⟩
    subst hpath
    exact h.covered hguard (fun he => by cases he) hlost.1
  | false => exact h.covered_unlink hguard ⟨hlost.1, hlost.2⟩

/- A rename that fails before its new file is written unlinks the new name, which is free. -/
theorem Sound.covered_fail (h : Sound s) {pending : Pending} (hguard : s.guard = some pending)
    (hfree : strandsFile s .fail = false) {path : String}
    (hlost : Lost s (fail s pending) path file) : Covered s path file := by
  obtain ⟨request, phase⟩ := pending
  cases phase with
  | entered
  | loaded current => exact absurd hlost (not_lost_of_get? id)
  | checked current =>
    have hpath := Lost.path_eq_unlink (s := s) ⟨hlost.1, hlost.2⟩
    simp only [strandsFile, hguard] at hfree
    rw [← hpath, hlost.1] at hfree
    cases hfree
  | written current stamp => exact h.covered_unlink hguard ⟨hlost.1, hlost.2⟩

theorem Sound.covered_step (h : Sound s) {op : Op} (hapart : keepsApart s op)
    (hstep : step s op = some t) {path : String} (hlost : Lost s t path file) :
    Covered s path file := by
  cases op with
  | create payload =>
    cases hstep
    simp only [createFromEvents] at hlost
    split at hlost
    · exact absurd hlost (not_lost_of_get? id)
    split at hlost
    · exact absurd hlost (not_lost_of_get? id)
    · rename_i hfree
      rw [Bool.not_eq_true] at hfree
      exact absurd hlost (not_lost_put hfree _ _)
  | get client name =>
    cases hstep
    refine absurd hlost (not_lost_of_get? fun hfile => ?_)
    simp only [Store.get]
    split
    · exact hfile
    split
    · exact hfile
    · exact hfile
  | enter request =>
    simp only [step] at hstep
    split at hstep
    · split at hstep
      · cases hstep
        exact absurd hlost (not_lost_of_get? id)
      · cases hstep
        exact absurd hlost (not_lost_of_get? id)
    · cases hstep
  | load =>
    simp only [step] at hstep
    split at hstep
    · cases hstep
      refine absurd hlost (not_lost_of_get? fun hfile => ?_)
      simp only [Store.load]
      split
      · exact hfile
      split
      · exact hfile
      · exact hfile
    · cases hstep
  | apply =>
    simp only [step] at hstep
    split at hstep
    · cases hstep
      exact h.covered_apply ‹_› hlost
    · cases hstep
  | link =>
    simp only [step] at hstep
    split at hstep
    · cases hstep
      simp only [Store.link] at hlost
      split at hlost
      · exact absurd hlost (not_lost_of_get? id)
      · rename_i hfree
        rw [Bool.not_eq_true] at hfree
        exact absurd ⟨hlost.1, hlost.2⟩ (not_lost_put hfree _ _)
    · cases hstep
  | validate valid =>
    simp only [step] at hstep
    split at hstep
    · cases hstep
      exact h.covered_validate ‹_› hlost
    · cases hstep
  | fail =>
    simp only [step] at hstep
    split at hstep
    · cases hstep
      exact h.covered_fail ‹_› hapart.2 hlost
    · cases hstep

/-- In every run that stores no version with a revision a client has already read under its
name, and in which no rename that fails meets a file of another client, no change that carries
an expected revision overwrites or deletes a version its client has not seen. -/
theorem expected_revision_sound (internal : List String) (ops : List Op) (op : Op) (s t : State)
    (hguarded : Guarded step keepsApart { internal := internal } (ops ++ [op]))
    (hrun : run step { internal := internal } ops = some s) (hstep : step s op = some t) :
    LosesNoUpdate s op := by
  obtain ⟨hsound, hapart⟩ := guarded_run_split
    (fun _ _ _ h hg hs => sound_step h hg hs) (sound_init internal) hguarded hrun
  constructor
  · intro request r hcommitted hexpected
    exact hsound.succeeds hstep hcommitted hexpected
  · intro u path file hu hlost
    rw [hstep] at hu
    cases hu
    exact hsound.covered_step hapart hstep hlost

def noted (events : List Value) (revision : Option ℤ) : MacroPayload :=
  Dict.ofList ([("name", .str "m"), ("events", .arr events)] ++
    (revision.map fun r => ("revision", Value.int r)).toList)

def changing (client : ℕ) (change : Change) (expected : Option ℤ) (seen : ℕ) : Op :=
  .enter ⟨client, "m", change, expected, seen⟩

/- One client reads a macro, another deletes and creates it again with a higher revision. The
first one is refused, reads the new version and updates that. -/
def recreatedHigher : List Op :=
  [.create (noted [] none), .get 1 "m", changing 2 .delete none 0, .load, .apply,
    .create (noted [.obj []] (some 2)), changing 1 (.update ∅) (some 1) 0, .load, .get 1 "m",
    changing 1 (.update ∅) (some 2) 1, .load]

theorem expected_revision_sound_recreated :
    ∃ s t, step s .apply = some t ∧ committed s .apply = some ⟨1, "m", .update ∅, some 2, 1⟩ ∧
      LosesNoUpdate s .apply := by
  have hsome : ((run step {} recreatedHigher).bind fun s => step s .apply).isSome = true := by
    decide
  obtain ⟨t, ht⟩ := Option.isSome_iff_exists.mp hsome
  obtain ⟨s, hrun, hstep⟩ := Option.bind_eq_some_iff.mp ht
  refine ⟨s, t, hstep, ?_, expected_revision_sound [] recreatedHigher .apply s t ?_ hrun hstep⟩
  · have hcommitted : (run step {} recreatedHigher).bind (committed · .apply) =
        some ⟨1, "m", .update ∅, some 2, 1⟩ := by
      rfl
    rw [hrun] at hcommitted
    exact hcommitted
  · unfold keepsApart
    decide

/- One client reads a macro, another deletes it and creates another one under its name. The first
one then updates with the revision it has read. -/
def recreated : List Op :=
  [.create (noted [] none), .get 1 "m", changing 2 .delete none 0, .load, .apply,
    .create (noted [.obj []] none), changing 1 (.update ∅) (some 1) 0, .load]

/-- The update of a macro the client has never seen succeeds and overwrites it. -/
theorem recreated_macro_overwritten :
    ∃ s t, run step {} recreated = some s ∧ step s .apply = some t ∧
      ¬ LosesNoUpdate s .apply := by
  have hsome : ((run step {} recreated).bind fun s => step s .apply).isSome = true := by
    decide
  obtain ⟨t, ht⟩ := Option.isSome_iff_exists.mp hsome
  obtain ⟨s, hrun, hstep⟩ := Option.bind_eq_some_iff.mp ht
  refine ⟨s, t, hrun, hstep, fun h => ?_⟩
  have hcommitted : (run step {} recreated).bind (committed · .apply) =
      some ⟨1, "m", .update ∅, some 1, 0⟩ := by
    rfl
  have hstored : (run step {} recreated).bind (fun s => (s.files.get? "m").map MacroFile.stamp) =
      some 1 := by
    decide
  rw [hrun] at hcommitted hstored
  obtain ⟨file, hfile, hseen, -⟩ := h.succeeds _ 1 hcommitted rfl
  have hpath : (⟨1, "m", .update ∅, some 1, 0⟩ : Request).path = "m" := by decide
  rw [hpath] at hfile
  simp only [Option.bind_some, hfile, Option.map_some, Option.some.injEq] at hstored
  rw [hseen] at hstored
  cases hstored

end Keymasq.Macros.Revisions
