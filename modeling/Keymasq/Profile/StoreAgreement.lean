import Keymasq.Foundation.Transition
import Keymasq.Profile.Store

/-!
# Memory and disk agree

Every profile in memory has a file of its own that holds its name, and every file that can
be loaded is the one of a profile in memory. The calls keep this, unless the old file of a
renamed profile stays, or a write that raises has replaced its file.
-/

namespace Keymasq.Profile.StoreAgreement
open Foundation Transition Sorting Keymasq.Profile.Model Store

section Calls
variable [codec : ProfileCodec]

/-- What is written of the configuration can be loaded. -/
def reloads (config : ProfileConfig) : Bool := (codec.decode (codec.encode config)).isSome

/-- The calls after which memory and disk agree. -/
def sane (s : State) : Call → Prop
  | .saveProfile config held path now write =>
    write ≠ .unsynced ∧ (write = .done → reloads (stamp now config) = true) ∧
      (∀ name, path = some (.other name) → s.memory.contains config.name = true) ∧
      ∀ name info, held = some name → s.memory.get? name = some info → name = config.name ∧
        (info.config = config ∨ validateWindowRules config = true ∧ write = .done ∧
          (path = none ∨ path = some info.path))
  | .setProfileEnabled profileName enabled now write =>
    write ≠ .unsynced ∧ ∀ profile, s.memory.get? profileName = some profile → write = .done →
      reloads (stamp now { profile.config with
        enabled := enabled.getD !profile.config.enabled }) = true
  | .renameProfile oldName newName now write unlinked =>
    write ≠ .unsynced ∧ unlinked = true ∧
      ∀ profile, s.memory.get? oldName = some profile → write = .done →
        reloads (stamp now { profile.config with name := newName }) = true
  | .deleteProfile _ _ => True

section Loading

variable {files : Dict Path (FileData codec.Data)} {now : ℕ}

theorem loadFile_eq_some {entry : Path × FileData codec.Data} {info : ProfileInfo} :
    loadFile now entry = some info ↔
      ∃ stem, entry.1 = .profile stem ∧ info.path = .profile stem ∧
        decode stem now entry.2 = some info.config := by
  obtain ⟨path, data⟩ := entry
  cases path with
  | other name =>
    constructor
    · intro h
      cases h
    · rintro ⟨stem, hpath, -⟩
      cases hpath
  | profile stem =>
    simp only [loadFile, Option.map_eq_some_iff, Path.profile.injEq, exists_eq_left']
    constructor
    · rintro ⟨config, hdecode, rfl⟩
      exact ⟨rfl, hdecode⟩
    · rintro ⟨hpath, hdecode⟩
      exact ⟨info.config, hdecode, by rw [← hpath]⟩

omit codec in
/-- Files of different names do not compete. -/
theorem get?_foldl_addLoaded {profiles : List ProfileInfo} {d : Dict String ProfileInfo}
    (hnames : profiles.Pairwise fun i j => i.config.name ≠ j.config.name)
    (hnew : ∀ info ∈ profiles, d.get? info.config.name = none) (name : String)
    (loaded : ProfileInfo) : (profiles.foldl addLoaded d).get? name = some loaded ↔
      d.get? name = some loaded ∨ loaded ∈ profiles ∧ loaded.config.name = name := by
  induction profiles generalizing d with
  | nil => simp only [List.foldl_nil, List.not_mem_nil, false_and, or_false]
  | cons info profiles ih =>
    obtain ⟨hfirst, hrest⟩ := List.pairwise_cons.mp hnames
    have hinfo : d.get? info.config.name = none := hnew info List.mem_cons_self
    have hadd : addLoaded d info = d.insert info.config.name info := by
      unfold addLoaded
      rw [hinfo]
    rw [List.foldl_cons, hadd, ih hrest, Dict.get?_insert, List.mem_cons]
    · by_cases hname : name = info.config.name
      · rw [if_pos hname, hname, hinfo]
        constructor
        · rintro (hsame | ⟨hmem, heq⟩)
          · cases hsame
            exact .inr ⟨.inl rfl, rfl⟩
          · exact .inr ⟨.inr hmem, heq⟩
        · rintro (hnone | ⟨rfl | hmem, heq⟩)
          · cases hnone
          · exact .inl rfl
          · exact .inr ⟨hmem, heq⟩
      · rw [if_neg hname]
        constructor
        · rintro (hold | ⟨hmem, heq⟩)
          · exact .inl hold
          · exact .inr ⟨.inr hmem, heq⟩
        · rintro (hold | ⟨rfl | hmem, heq⟩)
          · exact .inl hold
          · exact absurd heq.symm hname
          · exact .inr ⟨hmem, heq⟩
    · intro other hother
      rw [Dict.get?_insert, if_neg (hfirst other hother).symm]
      exact hnew other (List.mem_cons_of_mem _ hother)

theorem get?_loadAll (hdistinct : DistinctNames files) (name : String) (loaded : ProfileInfo) :
    (loadAll files now).get? name = some loaded ↔
      ∃ stem data, files.get? (.profile stem) = some data ∧ loaded.path = .profile stem ∧
        decode stem now data = some loaded.config ∧ loaded.config.name = name := by
  unfold loadAll
  generalize hsorted : sortedOn (fun entry => fileName entry.1) files.entries = entries
  have hperm : entries.Perm files.entries := by
    rw [← hsorted]
    exact sortedOn_perm _ _
  have hget (entry : Path × FileData codec.Data) (hentry : entry ∈ entries) :
      files.get? entry.1 = some entry.2 :=
    Dict.get?_eq_some_iff.mpr (hperm.mem_iff.mp hentry)
  have hkeys : entries.Pairwise fun a b => a.1 ≠ b.1 := by
    have hnodup : (entries.map Prod.fst).Nodup := (hperm.map Prod.fst).nodup_iff.mpr files.nodup
    exact List.pairwise_map.mp hnodup
  have hnames : (entries.filterMap (loadFile now)).Pairwise
      fun i j => i.config.name ≠ j.config.name := by
    refine List.pairwise_filterMap.mpr (hkeys.imp_of_mem ?_)
    intro a b ha hb hne i hi j hj heq
    exact hne (hdistinct a.1 b.1 a.2 b.2 now i j (hget a ha) (hget b hb) hi hj heq)
  rw [get?_foldl_addLoaded hnames fun info _ => Dict.get?_empty info.config.name]
  simp only [Dict.get?_empty, reduceCtorEq, false_or, List.mem_filterMap, loadFile_eq_some]
  constructor
  · rintro ⟨⟨entry, hmem, stem, hstem, hpath, hdecode⟩, hname⟩
    exact ⟨stem, entry.2, hstem ▸ hget entry hmem, hpath, hdecode, hname⟩
  · rintro ⟨stem, data, hfile, hpath, hdecode, hname⟩
    have hmem := hperm.mem_iff.mpr (Dict.get?_eq_some_iff.mp hfile)
    exact ⟨⟨(.profile stem, data), hmem, stem, rfl, hpath, hdecode⟩, hname⟩

end Loading

section Invariant

variable {s t : State} {edited : Option String} {config : ProfileConfig} {stem name : String}
  {info : ProfileInfo} {now : ℕ}

/- The file of a profile in memory is loaded under the name of the profile, and has its
contents unless the caller has edited it; a file that is loaded is that of a profile. -/
structure Sound (edited : Option String) (s : State) : Prop where
  stored : ∀ name info, s.memory.get? name = some info → ∃ stem data loaded,
    info.path = .profile stem ∧ s.files.get? (.profile stem) = some data ∧
      (∀ now, decode stem now data = some loaded) ∧ loaded.name = name ∧
      (edited ≠ some name → info.config.name = name ∧
        info.config.createdAt.isSome = true ∧ SameContents info.config loaded)
  loaded : ∀ stem data now config, s.files.get? (.profile stem) = some data →
    decode stem now data = some config →
    ∃ info, s.memory.get? config.name = some info ∧ info.path = .profile stem

theorem Sound.weaken (h : Sound none s) (edited : Option String) : Sound edited s := by
  refine ⟨fun name info hget => ?_, h.loaded⟩
  obtain ⟨stem, data, loaded, hpath, hfile, hdecode, hname, hcontents⟩ := h.stored name info hget
  exact ⟨stem, data, loaded, hpath, hfile, hdecode, hname, fun _ => hcontents (by simp)⟩

theorem Sound.congr (h : Sound edited s)
    (hmemory : ∀ name, t.memory.get? name = s.memory.get? name)
    (hfiles : ∀ path, t.files.get? path = s.files.get? path) : Sound edited t := by
  refine ⟨fun name info hget => ?_, fun stem data now config hfile hdecode => ?_⟩
  · rw [hmemory] at hget
    obtain ⟨stem, data, loaded, hpath, hfile, hrest⟩ := h.stored name info hget
    exact ⟨stem, data, loaded, hpath, (hfiles _).trans hfile, hrest⟩
  · rw [hfiles] at hfile
    obtain ⟨info, hget, hpath⟩ := h.loaded stem data now config hfile hdecode
    exact ⟨info, (hmemory _).trans hget, hpath⟩

theorem Sound.path_unique (h : Sound edited s) {name' : String} {info' : ProfileInfo}
    (hget : s.memory.get? name = some info) (hget' : s.memory.get? name' = some info')
    (hpath : info.path = info'.path) : name = name' := by
  obtain ⟨stem, data, loaded, hstem, hfile, hdecode, rfl, -⟩ := h.stored name info hget
  obtain ⟨stem', data', loaded', hstem', hfile', hdecode', rfl, -⟩ := h.stored name' info' hget'
  rw [hstem, hstem'] at hpath
  cases hpath
  rw [hfile] at hfile'
  cases hfile'
  have heq := (hdecode 0).symm.trans (hdecode' 0)
  cases heq
  rfl

theorem Sound.distinct (h : Sound edited s) : DistinctNames s.files := by
  intro path path' data data' now info info' hfile hfile' hload hload' hname
  obtain ⟨stem, rfl, -, hdecode⟩ := loadFile_eq_some.mp hload
  obtain ⟨stem', rfl, -, hdecode'⟩ := loadFile_eq_some.mp hload'
  obtain ⟨held, hget, hpath⟩ := h.loaded stem data now info.config hfile hdecode
  obtain ⟨held', hget', hpath'⟩ := h.loaded stem' data' now info'.config hfile' hdecode'
  rw [hname, hget'] at hget
  cases hget
  exact hpath.symm.trans hpath'

theorem Sound.agrees (h : Sound none s) : Agrees s := by
  intro now name
  cases hget : s.memory.get? name with
  | none =>
    have hnone : (loadAll s.files now).get? name = none := by
      refine Option.eq_none_iff_forall_ne_some.mpr fun loaded hloaded => ?_
      obtain ⟨stem, data, hfile, -, hdecode, hname⟩ := (get?_loadAll h.distinct name loaded).mp
        hloaded
      obtain ⟨info, hinfo, -⟩ := h.loaded stem data now loaded.config hfile hdecode
      rw [hname, hget] at hinfo
      cases hinfo
    rw [hnone]
    exact .none
  | some info =>
    obtain ⟨stem, data, loaded, hpath, hfile, hdecode, hname, hcontents⟩ := h.stored name info hget
    have hloaded : (loadAll s.files now).get? name = some ⟨.profile stem, loaded⟩ :=
      (get?_loadAll h.distinct name _).mpr ⟨stem, data, hfile, rfl, hdecode now, hname⟩
    rw [hloaded]
    exact .some ⟨hpath, (hcontents (by simp)).2.2⟩

/-- What is written can be loaded under the name of the profile. -/
theorem decode_encode (hreloads : reloads config = true)
    (hcreated : config.createdAt.isSome = true) :
    ∃ loaded, (∀ stem now, decode stem now (encode config) = some loaded) ∧
      loaded.name = config.name := by
  obtain ⟨rest, hrest⟩ := Option.isSome_iff_exists.mp hreloads
  obtain ⟨time, htime⟩ := Option.isSome_iff_exists.mp hcreated
  refine ⟨{ rest with
    name := config.name
    enabled := config.enabled
    createdAt := some time }, fun stem now => ?_, rfl⟩
  unfold decode encode
  rw [hrest, htime]
  rfl

/-- A profile is written to a file that no other profile has. -/
theorem Sound.write (h : Sound (some config.name) s) (hreloads : reloads config = true)
    (hcreated : config.createdAt.isSome = true)
    (howner : ∀ name info, s.memory.get? name = some info → info.path = .profile stem →
      name = config.name)
    (hplace : ∀ info, s.memory.get? config.name = some info → info.path = .profile stem) :
    Sound none { s with
      memory := s.memory.insert config.name ⟨.profile stem, config⟩
      files := s.files.insert (.profile stem) (encode config) } := by
  obtain ⟨written, hwritten, hname⟩ := decode_encode hreloads hcreated
  refine ⟨fun name info hget => ?_, fun stem' data now config' hfile hdecode => ?_⟩
  · rw [Dict.get?_insert] at hget
    split at hget
    · next heq =>
      cases hget
      refine ⟨stem, encode config, written, rfl, Dict.get?_insert_self _ _ _, hwritten stem,
        hname.trans heq.symm, fun _ => ⟨heq.symm, hcreated, .inr ⟨stem, 0, hwritten stem 0⟩⟩⟩
    · next hne =>
      obtain ⟨stem', data, loaded, hpath, hfile, hdecode, hloaded, hcontents⟩ :=
        h.stored name info hget
      have hother : Path.profile stem' ≠ .profile stem := fun heq =>
        hne (howner name info hget (hpath.trans heq))
      refine ⟨stem', data, loaded, hpath, ?_, hdecode, hloaded, fun _ => hcontents fun heq => ?_⟩
      · exact (Dict.get?_insert_of_ne _ _ hother).trans hfile
      · exact hne (Option.some.inj heq).symm
  · rw [Dict.get?_insert] at hfile
    split at hfile
    · next heq =>
      cases heq
      cases hfile
      have hsame := (hwritten stem now).symm.trans hdecode
      cases hsame
      exact ⟨⟨.profile stem, config⟩, by rw [hname, Dict.get?_insert_self], rfl⟩
    · next hne =>
      obtain ⟨info, hget, hpath⟩ := h.loaded stem' data now config' hfile hdecode
      have hother : config'.name ≠ config.name := fun heq =>
        hne (hpath.symm.trans (hplace info (heq ▸ hget)))
      exact ⟨info, (Dict.get?_insert_of_ne _ _ hother).trans hget, hpath⟩

/-- A profile is deleted together with its file. -/
theorem Sound.remove (h : Sound none s) (hget : s.memory.get? name = some info) :
    Sound none { s with
      memory := s.memory.erase name
      files := s.files.erase info.path } := by
  refine ⟨fun name' info' hget' => ?_, fun stem data now config hfile hdecode => ?_⟩
  · rw [Dict.get?_erase] at hget'
    split at hget'
    · cases hget'
    · next hne =>
      obtain ⟨stem, data, loaded, hpath, hfile, hrest⟩ := h.stored name' info' hget'
      have hother : Path.profile stem ≠ info.path := fun heq =>
        hne (h.path_unique hget' hget (hpath.trans heq))
      exact ⟨stem, data, loaded, hpath, (Dict.get?_erase_of_ne _ hother).trans hfile, hrest⟩
  · rw [Dict.get?_erase] at hfile
    split at hfile
    · cases hfile
    · next hne =>
      obtain ⟨info', hget', hpath⟩ := h.loaded stem data now config hfile hdecode
      have hother : config.name ≠ name := by
        intro heq
        rw [heq, hget] at hget'
        cases hget'
        exact hne hpath.symm
      exact ⟨info', (Dict.get?_erase_of_ne _ hother).trans hget', hpath⟩

/-! ## Where a profile is written -/

omit codec in
theorem firstFree_spec {taken : Path → Bool} {attempts suffix : ℕ} {path : Path}
    (h : firstFree taken stem attempts suffix = some path) :
    (∃ stem, path = .profile stem) ∧ taken path = false := by
  induction attempts generalizing suffix with
  | zero => cases h
  | succ attempts ih =>
    simp only [firstFree] at h
    split at h
    · exact ih h
    · next hfree =>
      cases h
      exact ⟨⟨_, rfl⟩, Bool.not_eq_true _ ▸ hfree⟩

/-- The path that is allocated belongs to no profile but the one that is moved. -/
theorem allocatePath_spec {currentPath : Option Path} {path : Path}
    (h : allocatePath s name currentPath = some path) : ∃ stem, path = .profile stem ∧
      ∀ name info, s.memory.get? name = some info → info.path = path →
        some info.path = currentPath := by
  have hfree : (∃ stem, path = .profile stem) ∧
      ((s.memory.values.any fun info => some info.path ≠ currentPath && info.path = path) ||
        (s.files.contains path && some path ≠ currentPath)) = false := by
    unfold allocatePath at h
    simp only at h
    split at h
    · exact firstFree_spec h
    · next hfree =>
      cases h
      exact ⟨⟨_, rfl⟩, Bool.not_eq_true _ ▸ hfree⟩
  obtain ⟨⟨stem, rfl⟩, hfree⟩ := hfree
  refine ⟨stem, rfl, fun name info hget hpath => ?_⟩
  by_contra hne
  have hany := List.any_eq_false.mp (Bool.or_eq_false_iff.mp hfree).1 info
    (Dict.mem_values_iff.mpr ⟨name, hget⟩)
  simp only [hpath, decide_true, Bool.and_true, decide_eq_true_eq, not_not] at hany
  exact hne (hpath ▸ hany)

theorem pathOwner_spec {path : Path} (hget : s.memory.get? name = some info)
    (hpath : info.path = path) :
    ∃ owner info', pathOwner s path = some owner ∧ s.memory.get? owner = some info' ∧
      info'.path = path := by
  have hmem := Dict.get?_eq_some_iff.mp hget
  unfold pathOwner
  cases hfind : s.memory.entries.find? fun entry => entry.2.path = path with
  | none =>
    have hnone := List.find?_eq_none.mp hfind (name, info) hmem
    exact absurd (decide_eq_true hpath) hnone
  | some entry =>
    refine ⟨entry.1, entry.2, rfl, ?_, by simpa using List.find?_some hfind⟩
    exact Dict.get?_eq_some_iff.mpr (List.mem_of_find?_eq_some hfind)

/-- No other profile has the file, and the profile itself has no other file. -/
theorem storagePath_spec (h : Sound edited s) {held : Option String} {path : Option Path}
    {place : Path} (hpath : ∀ name, path = some (.other name) →
      s.memory.contains config.name = true)
    (hplace : storagePath s config held path = some place) : ∃ stem, place = .profile stem ∧
      (∀ name info, s.memory.get? name = some info → info.path = .profile stem →
        name = config.name) ∧
      ∀ info, s.memory.get? config.name = some info → info.path = .profile stem := by
  have hexisting (existing : ProfileInfo) (hget : s.memory.get? config.name = some existing) :
      ∃ stem, existing.path = .profile stem ∧
        (∀ name info, s.memory.get? name = some info → info.path = .profile stem →
          name = config.name) ∧
        ∀ info, s.memory.get? config.name = some info → info.path = .profile stem := by
    obtain ⟨stem, -, -, hstem, -⟩ := h.stored config.name existing hget
    refine ⟨stem, hstem, fun name info hother hsame => ?_, fun info hsame => ?_⟩
    · exact h.path_unique hother hget (hsame.trans hstem.symm)
    · rw [hget] at hsame
      cases hsame
      exact hstem
  unfold storagePath at hplace
  split at hplace
  · cases hplace
  · next howner =>
    split at hplace
    · next existing hget =>
      split at hplace
      · cases hplace
        exact hexisting existing hget
      · cases hplace
    · next existing given hget =>
      split at hplace
      · cases hplace
        exact hexisting existing hget
      · cases hplace
    · next given hget =>
      cases hplace
      cases place with
      | other name =>
        have hcontains := hpath name rfl
        unfold Dict.contains at hcontains
        rw [hget] at hcontains
        cases hcontains
      | profile stem =>
        refine ⟨stem, rfl, fun name info hother hsame => ?_, fun info hsame => ?_⟩
        · obtain ⟨owner, held, hfind, hheld, -⟩ := pathOwner_spec hother hsame
          simp only [Option.any_some, hfind, decide_eq_true_eq, ne_eq, not_not] at howner
          rw [howner, hget] at hheld
          cases hheld
        · rw [hget] at hsame
          cases hsame
    · next hget =>
      obtain ⟨stem, rfl, hfree⟩ := allocatePath_spec hplace
      refine ⟨stem, rfl, fun name info hother hsame => ?_, fun info hsame => ?_⟩
      · cases hfree name info hother hsame
      · rw [hget] at hsame
        cases hsame

/-! ## The object of the caller -/

theorem contains_holding (held : Option String) :
    (holding s held config).memory.contains name = s.memory.contains name := by
  unfold holding
  split
  · rfl
  · split
    · rfl
    · next name' info hget =>
      unfold Dict.contains
      rw [Dict.get?_insert]
      split
      · next heq =>
        rw [heq, hget]
        rfl
      · rfl

theorem holding_eq {held : Option String}
    (hheld : ∀ name info, held = some name → s.memory.get? name = some info →
      info.config = config) : holding s held config = s := by
  unfold holding
  split
  · rfl
  · next name =>
    split
    · rfl
    · next info hget =>
      rw [← hheld name info rfl hget, Dict.insert_of_get? hget]

theorem Sound.holding (h : Sound edited s) {held : Option String} {config' : ProfileConfig}
    (hheld : ∀ name info, held = some name → s.memory.get? name = some info →
      edited = some name) : Sound edited (holding s held config') := by
  unfold Store.holding
  split
  · exact h
  · next name =>
    split
    · exact h
    · next info hget =>
      refine ⟨fun name' info' hget' => ?_, fun stem data now config hfile hdecode => ?_⟩
      · rw [Dict.get?_insert] at hget'
        split at hget'
        · next heq =>
          cases hget'
          obtain ⟨stem, data, loaded, hpath, hfile, hdecode, hname, -⟩ := h.stored name info hget
          exact ⟨stem, data, loaded, hpath, hfile, hdecode, hname.trans heq.symm,
            fun hne => absurd (heq ▸ hheld name info rfl hget) hne⟩
        · exact h.stored name' info' hget'
      · obtain ⟨info', hget', hpath⟩ := h.loaded stem data now config hfile hdecode
        by_cases heq : config.name = name
        · rw [heq, hget] at hget'
          cases hget'
          exact ⟨{ info with config := config' }, by rw [heq, Dict.get?_insert_self], hpath⟩
        · exact ⟨info', (Dict.get?_insert_of_ne _ _ heq).trans hget', hpath⟩

/-! ## The calls -/

/- Memory and disk agree, and where the call has raised, they are as they were. -/
structure Kept (s : State) (result : State × Outcome) : Prop where
  sound : Sound none result.1
  unchanged : result.2 = .raised → result.1 = s

theorem Kept.of_raised (h : Sound none s) : Kept s (s, .raised) := ⟨h, fun _ => rfl⟩

omit codec in
theorem stamp_eq (hcreated : config.createdAt.isSome = true) : stamp now config = config := by
  obtain ⟨time, htime⟩ := Option.isSome_iff_exists.mp hcreated
  unfold stamp
  rw [htime, Option.getD_some, ← htime]

/-- A profile is saved where no other profile is; the object of the caller has what memory
holds, or else the write is done. -/
theorem Kept.write {held : Option String} {path : Option Path} {place : Path} {write : Write}
    (h : Sound none s) (hunsynced : write ≠ .unsynced)
    (hreloads : write = .done → reloads (stamp now config) = true)
    (hpath : ∀ name, path = some (.other name) → s.memory.contains config.name = true)
    (hheld : ∀ name info, held = some name → s.memory.get? name = some info →
      name = config.name ∧ (info.config = stamp now config ∨ write = .done))
    (hplace : storagePath (holding s held (stamp now config)) (stamp now config) held path =
      some place) :
    Kept s (writeProfile (holding s held (stamp now config)) (stamp now config) place write) := by
  have hholding : Sound (some (stamp now config).name) (holding s held (stamp now config)) :=
    (h.weaken (some config.name)).holding fun name info hname hget =>
      congrArg some (hheld name info hname hget).1.symm
  cases write with
  | unsynced => exact absurd rfl hunsynced
  | failed =>
    have hsame : holding s held (stamp now config) = s := by
      refine holding_eq fun name info hname hget => ?_
      obtain ⟨-, hsame | hdone⟩ := hheld name info hname hget
      · exact hsame
      · cases hdone
    rw [hsame]
    exact Kept.of_raised h
  | done =>
    obtain ⟨stem, rfl, howner, hown⟩ := storagePath_spec hholding
      (fun name hname => (contains_holding held).trans (hpath name hname)) hplace
    exact ⟨hholding.write (hreloads rfl) rfl howner hown, fun hraised => (by cases hraised)⟩

theorem Kept.saveProfile {held : Option String} {path : Option Path} {write : Write}
    (h : Sound none s) (hsane : sane s (.saveProfile config held path now write)) :
    Kept s (saveProfile s config held path now write) := by
  obtain ⟨hunsynced, hreloads, hpath, hheld⟩ := hsane
  -- What memory holds has a time already.
  have hstamp (name : String) (info : ProfileInfo) (hget : s.memory.get? name = some info)
      (hsame : info.config = config) : stamp now config = config := by
    obtain ⟨_, _, _, -, -, -, -, hcontents⟩ := h.stored name info hget
    exact stamp_eq (hsame ▸ (hcontents (by simp)).2.1)
  unfold Store.saveProfile
  split
  · next hinvalid =>
    have hsame : holding s held config = s := by
      refine holding_eq fun name info hname hget => ?_
      obtain ⟨-, hsame | ⟨hvalid, -⟩⟩ := hheld name info hname hget
      · exact hsame
      · rw [hinvalid] at hvalid
        cases hvalid
    rw [hsame]
    exact Kept.of_raised h
  · simp only
    split
    · next hraised =>
      have hsame : holding s held (stamp now config) = s := by
        refine holding_eq fun name info hname hget => ?_
        obtain ⟨hname', hsame | ⟨-, -, hgiven⟩⟩ := hheld name info hname hget
        · rw [hstamp name info hget hsame, hsame]
        · -- The object is saved where it is held, which does not raise.
          exfalso
          have hget' : (holding s held (stamp now config)).memory.get? config.name =
              some { info with config := stamp now config } := by
            unfold holding
            rw [hname]
            simp only [hget]
            rw [hname', Dict.get?_insert_self]
          have howner : (path.any fun path =>
              (pathOwner (holding s held (stamp now config)) path).any
                fun owner => owner ≠ config.name) = false := by
            have hholding : Sound (some config.name) (holding s held (stamp now config)) :=
              (h.weaken (some config.name)).holding fun name info hname hget =>
                congrArg some (hheld name info hname hget).1.symm
            obtain rfl | rfl := hgiven
            · rfl
            · obtain ⟨owner, info', hfind, howner, hsame⟩ := pathOwner_spec hget' rfl
              rw [Option.any_some, hfind, Option.any_some,
                hholding.path_unique howner hget' hsame]
              simp
          unfold storagePath at hraised
          rw [show (stamp now config).name = config.name from rfl, howner, hget'] at hraised
          obtain rfl | rfl := hgiven
          · simp [hname, hname'] at hraised
          · simp at hraised
      rw [hsame]
      exact Kept.of_raised h
    · next place hplace =>
      refine Kept.write h hunsynced hreloads hpath (fun name info hname hget => ?_) hplace
      obtain ⟨hname', hsame | ⟨-, hdone, -⟩⟩ := hheld name info hname hget
      · exact ⟨hname', .inl ((hstamp name info hget hsame).symm ▸ hsame)⟩
      · exact ⟨hname', .inr hdone⟩

theorem Kept.setProfileEnabled {enabled : Option Bool} {write : Write} (h : Sound none s)
    (hsane : sane s (.setProfileEnabled name enabled now write)) :
    Kept s (setProfileEnabled s name enabled now write) := by
  obtain ⟨hunsynced, hreloads⟩ := hsane
  unfold Store.setProfileEnabled
  split
  · exact ⟨h, fun hraised => (by cases hraised)⟩
  · next profile hget =>
    simp only
    split
    · exact ⟨h, fun hraised => (by cases hraised)⟩
    · obtain ⟨_, _, _, -, -, -, -, hcontents⟩ := h.stored name profile hget
      have hname : profile.config.name = name := (hcontents (by simp)).1
      refine Kept.saveProfile h ⟨hunsynced, hreloads profile hget, fun _ _ => ?_,
        fun _ _ hheld => (by cases hheld)⟩
      change s.memory.contains profile.config.name = true
      unfold Dict.contains
      rw [hname, hget, Option.isSome_some]

theorem Kept.renameProfile {newName : String} {write : Write} {unlinked : Bool} (h : Sound none s)
    (hsane : sane s (.renameProfile name newName now write unlinked)) :
    Kept s (renameProfile s name newName now write unlinked) := by
  obtain ⟨hunsynced, rfl, hreloads⟩ := hsane
  unfold Store.renameProfile
  split
  · exact Kept.of_raised h
  · next hnew =>
    split
    · exact Kept.of_raised h
    · next profile hget =>
      split
      · exact Kept.of_raised h
      · next newPath hallocated =>
        split
        · exact Kept.of_raised h
        · cases write with
          | unsynced => exact absurd rfl hunsynced
          | failed => exact Kept.of_raised h
          | done =>
            obtain ⟨stem, rfl, hfree⟩ := allocatePath_spec hallocated
            have howner (other : String) (info : ProfileInfo)
                (hother : (s.memory.erase name).get? other = some info)
                (hpath : info.path = .profile stem) : other = newName := by
              rw [Dict.get?_erase] at hother
              split at hother
              · cases hother
              · next hne =>
                have hpath' := Option.some.inj (hfree other info hother hpath)
                exact absurd (h.path_unique hother hget hpath') hne
            have hplace (info : ProfileInfo)
                (hother : (s.memory.erase name).get? newName = some info) :
                info.path = .profile stem := by
              rw [Dict.get?_erase] at hother
              split at hother
              · cases hother
              · next hne =>
                refine absurd ⟨?_, hne⟩ hnew
                rw [Dict.contains, hother, Option.isSome_some]
            -- The profile is deleted, and written again under its new name.
            have hwritten := ((h.remove hget).weaken (some newName)).write
              (hreloads profile hget rfl) rfl howner hplace
            refine ⟨hwritten.congr (fun _ => rfl) fun path => ?_,
              fun hraised => (by cases hraised)⟩
            simp only [ne_eq, and_true]
            split
            · next hne =>
              rw [Dict.get?_erase, Dict.get?_insert, Dict.get?_insert, Dict.get?_erase]
              by_cases heq : path = profile.path
              · rw [if_pos heq, if_pos heq, if_neg (heq ▸ hne.1)]
              · rw [if_neg heq, if_neg heq]
            · next hsame =>
              rw [Dict.get?_insert, Dict.get?_insert]
              split
              · rfl
              · next hne =>
                rw [Dict.get?_erase]
                split
                · next heq =>
                  -- The old file is there, unless it has been written to.
                  rw [heq]
                  by_contra hfile
                  refine hsame ⟨heq ▸ hne, ?_⟩
                  rw [Dict.contains, Dict.get?_insert, if_neg (heq ▸ hne)]
                  exact Option.isSome_iff_ne_none.mpr hfile
                · rfl

theorem Kept.deleteProfile {trash : Trash} (h : Sound none s) :
    Kept s (deleteProfile s name trash) := by
  unfold Store.deleteProfile
  split
  · exact ⟨h, fun hraised => (by cases hraised)⟩
  · next profile hget =>
    split
    · cases trash with
      | failed => exact Kept.of_raised h
      | moved
      | unlinked => exact ⟨h.remove hget, fun hraised => (by cases hraised)⟩
    · next hmissing =>
      obtain ⟨stem, data, -, hpath, hfile, -⟩ := h.stored name profile hget
      rw [hpath, Dict.contains, hfile] at hmissing
      exact absurd rfl hmissing

theorem Kept.call {c : Call} (h : Sound none s) (hsane : sane s c) : Kept s (call s c) := by
  cases c with
  | saveProfile config held path now write => exact Kept.saveProfile h hsane
  | setProfileEnabled name enabled now write => exact Kept.setProfileEnabled h hsane
  | renameProfile name newName now write unlinked => exact Kept.renameProfile h hsane
  | deleteProfile name trash => exact Kept.deleteProfile h

/-! ## The start -/

theorem decode_repaired {data : FileData codec.Data} {loaded : ProfileConfig}
    (hdecode : decode stem now data = some loaded) (time : ℕ) :
    decode stem time { data with createdAt := some (data.createdAt.getD now) } =
      some loaded := by
  unfold decode at hdecode ⊢
  rw [← hdecode]
  rfl

theorem loadFile_repaired {files : Dict Path (FileData codec.Data)} {time : ℕ}
    {data : FileData codec.Data} (hfile : (repaired files now).get? (.profile stem) = some data)
    (hdecode : decode stem time data = some config) :
    (∀ time, decode stem time data = some config) ∧
      ∃ original, files.get? (.profile stem) = some original ∧
        decode stem now original = some config := by
  unfold repaired at hfile
  rw [Dict.get?_mapVal] at hfile
  obtain ⟨original, horiginal, hdata⟩ := Option.map_eq_some_iff.mp hfile
  split at hdata
  · next hloads =>
    obtain ⟨info, hinfo⟩ := Option.isSome_iff_exists.mp hloads
    obtain ⟨stem', hstem, -, hloaded⟩ := loadFile_eq_some.mp hinfo
    cases hstem
    subst hdata
    have hrepaired := decode_repaired hloaded
    have hsame := (hrepaired time).symm.trans hdecode
    cases hsame
    exact ⟨hrepaired, original, horiginal, hloaded⟩
  · next hloads =>
    refine absurd ?_ hloads
    subst hdata
    unfold decode at hdecode
    unfold loadFile decode
    rw [Option.isSome_map, Option.isSome_map]
    obtain ⟨rest, hrest, -⟩ := Option.map_eq_some_iff.mp hdecode
    rw [hrest, Option.isSome_some]

theorem sound_start {files : Dict Path (FileData codec.Data)} (hdistinct : DistinctNames files)
    (now : ℕ) : Sound none (start files now) := by
  have hdistinct' : DistinctNames (repaired files now) := by
    intro path path' data data' time info info' hfile hfile' hload hload' hname
    obtain ⟨stem, rfl, hpath, hdecode⟩ := loadFile_eq_some.mp hload
    obtain ⟨stem', rfl, hpath', hdecode'⟩ := loadFile_eq_some.mp hload'
    obtain ⟨-, original, horiginal, hloaded⟩ := loadFile_repaired hfile hdecode
    obtain ⟨-, original', horiginal', hloaded'⟩ := loadFile_repaired hfile' hdecode'
    exact hdistinct _ _ original original' now info info' horiginal horiginal'
      (loadFile_eq_some.mpr ⟨stem, rfl, hpath, hloaded⟩)
      (loadFile_eq_some.mpr ⟨stem', rfl, hpath', hloaded'⟩) hname
  refine ⟨fun name info hget => ?_, fun stem data time config hfile hdecode => ?_⟩
  · obtain ⟨stem, data, hfile, hpath, hdecode, hname⟩ := (get?_loadAll hdistinct' name info).mp hget
    have hsame := (loadFile_repaired hfile hdecode).1
    refine ⟨stem, data, info.config, hpath, hfile, hsame, hname, fun _ => ⟨hname, ?_, .inl rfl⟩⟩
    obtain ⟨rest, -, hrest⟩ := Option.map_eq_some_iff.mp hdecode
    rw [← hrest]
    rfl
  · have hsame := (loadFile_repaired hfile hdecode).1
    exact ⟨⟨.profile stem, config⟩, (get?_loadAll hdistinct' config.name _).mpr
      ⟨stem, data, hfile, rfl, hsame now, rfl⟩, rfl⟩

end Invariant

/-- Every call that is sane leaves memory and disk in agreement, or as they were if it
raises. -/
theorem memory_agrees {files : Dict Path (FileData codec.Data)} {now : ℕ} {calls : List Call}
    {c : Call} {s : State} (hdistinct : DistinctNames files)
    (hguard : Guarded step sane (start files now) (calls ++ [c]))
    (hrun : run step (start files now) calls = some s) :
    Agrees (call s c).1 ∧ ((call s c).2 = .raised → (call s c).1 = s) := by
  obtain ⟨hsound, hsane⟩ := guarded_run_split (I := Sound none)
    (fun s c t h hsane hstep => Option.some.inj hstep ▸ (Kept.call h hsane).sound)
    (sound_start hdistinct now) hguard hrun
  have hkept := Kept.call hsound hsane
  exact ⟨hkept.sound.agrees, hkept.unchanged⟩

end Calls

/-! ## A profile is renamed -/

/-- For profiles without mappings: the rest is stored as it is. -/
@[reducible] def recordCodec : ProfileCodec where
  Data := ProfileConfig
  encode := id
  decode := some
  compiles := fun _ => true

def saveWork : Call := .saveProfile { name := "Work" } none none 1 .done

theorem distinctNames_empty : @DistinctNames recordCodec ∅ := by
  intro path path' data data' now info info' hfile
  cases hfile

theorem renamed_work_agrees : letI := recordCodec
    ∃ s, run step (start ∅ 0) [saveWork] = some s ∧
      (call s (.renameProfile "Work" "Home" 2 .done true)).1.memory.keys = ["Home"] ∧
      Agrees (call s (.renameProfile "Work" "Home" 2 .done true)).1 := by
  let := recordCodec
  have hguard : Guarded step sane (start ∅ 0)
      ([saveWork] ++ [.renameProfile "Work" "Home" 2 .done true]) :=
    ⟨⟨fun h => (by cases h), fun _ => rfl, fun _ h => (by cases h), fun _ _ h => (by cases h)⟩,
      ⟨fun h => (by cases h), rfl, fun _ _ _ => rfl⟩, trivial⟩
  exact ⟨_, rfl, by decide, (memory_agrees distinctNames_empty hguard rfl).1⟩

/-- The old file cannot be unlinked: it is loaded again under the old name. -/
theorem kept_file_disagrees : letI := recordCodec
    ∃ s, DistinctNames (∅ : Dict Path (FileData recordCodec.Data)) ∧
      run step (start ∅ 0) [saveWork] = some s ∧ Agrees s ∧
      (call s (.renameProfile "Work" "Home" 2 .done false)).2 = .returned ∧
      ¬ Agrees (call s (.renameProfile "Work" "Home" 2 .done false)).1 := by
  let := recordCodec
  have hsane : sane (start ∅ 0) saveWork :=
    ⟨fun h => (by cases h), fun _ => rfl, fun _ h => (by cases h), fun _ _ h => (by cases h)⟩
  have hsound := (Kept.call (sound_start distinctNames_empty 0) hsane).sound
  refine ⟨_, distinctNames_empty, rfl, hsound.agrees, by decide, fun hagrees => ?_⟩
  have hwork := hagrees 0 "Work"
  have hmemory : (((call (call (start ∅ 0) saveWork).1
      (.renameProfile "Work" "Home" 2 .done false)).1.memory.get? "Work").isNone) = true := by
    decide
  have hdisk : ((loadAll (call (call (start ∅ 0) saveWork).1
      (.renameProfile "Work" "Home" 2 .done false)).1.files 0).get? "Work").isSome = true := by
    decide
  rw [Option.isNone_iff_eq_none] at hmemory
  obtain ⟨loaded, hloaded⟩ := Option.isSome_iff_exists.mp hdisk
  rw [hmemory, hloaded] at hwork
  cases hwork

end Keymasq.Profile.StoreAgreement
