import Keymasq.Foundation.Sorting
import Keymasq.Foundation.Strings
import Keymasq.Foundation.Transition
import Keymasq.Profile.Model

/-!
# The profile store

The profiles are held in memory under their names and in files of their own. A file is
found by its path; the name in it counts.
-/

namespace Keymasq.Profile.Store
open Foundation Transition Sorting Strings Keymasq.Profile.Model

/- `PROFILES_DIR / f"{stem}.toml"`, or a path that `glob("*.toml")` does not find there. -/
inductive Path
  | profile (stem : String)
  | other (name : String)
deriving DecidableEq

/- The part of the codec that is not about `name`, `enabled` and `created_at`; a file that
cannot be read, or is no TOML, is one that is not decoded. `compiles` is `re.compile`. -/
class ProfileCodec where
  Data : Type
  encode : ProfileConfig → Data
  decode : Data → Option ProfileConfig
  compiles : String → Bool

/- What is read from a file. A `created_at` that is not a naive ISO time is missing. -/
structure FileData (Data : Type) where
  name : Option String := none
  enabled : Option Bool := none
  createdAt : Option ℕ := none
  rest : Data

structure ProfileInfo where
  path : Path
  config : ProfileConfig

variable [codec : ProfileCodec]

def encode (config : ProfileConfig) : FileData codec.Data :=
  { name := some config.name
    enabled := some config.enabled
    createdAt := config.createdAt
    rest := codec.encode config }

/-- `default_name` is the stem of the file. -/
def decode (defaultName : String) (now : ℕ) (data : FileData codec.Data) :
    Option ProfileConfig :=
  (codec.decode data.rest).map fun config => { config with
    name := data.name.getD defaultName
    enabled := data.enabled.getD true
    createdAt := some (data.createdAt.getD now) }

/- `_profiles` and the files. -/
structure State where
  memory : Dict String ProfileInfo := ∅
  files : Dict Path (FileData codec.Data) := ∅

/-! ## Paths -/

/-- `[a-zA-Z0-9_.-]` -/
def safeChar (c : Char) : Bool := c.isAlphanum || c = '_' || c = '.' || c = '-'

/-- Every run of other characters is one underscore; `replaced` within such a run. -/
def replaceUnsafe : Bool → List Char → List Char
  | _, [] => []
  | replaced, c :: cs =>
    if safeChar c then c :: replaceUnsafe false cs
    else if replaced then replaceUnsafe true cs
    else '_' :: replaceUnsafe true cs

def sanitizeStem (profileName : String) : String :=
  let safeName := String.ofList
    (stripList (fun c => c = '.' || c = '_') (replaceUnsafe false profileName.toList))
  if safeName = "" then "profile" else safeName

def canonicalPath (profileName : String) : Path := .profile (sanitizeStem profileName)

def isCanonical (profileName : String) (path : Path) : Bool := path = canonicalPath profileName

def maxPathAttempts : ℕ := 10000

/-- The loop of `allocate_path`, with the attempts that are left. -/
def firstFree (taken : Path → Bool) (stem : String) : ℕ → ℕ → Option Path
  | 0, _ => none
  | attempts + 1, suffix =>
    let candidate := Path.profile (stem ++ "_" ++ toString suffix)
    if taken candidate then firstFree taken stem attempts (suffix + 1) else some candidate

/-- `_profile_path_for_name`; `none` where it raises. -/
def allocatePath (s : State) (profileName : String) (currentPath : Option Path) : Option Path :=
  let taken := fun candidate =>
    (s.memory.values.any fun info => some info.path ≠ currentPath && info.path = candidate) ||
      (s.files.contains candidate && some candidate ≠ currentPath)
  if taken (canonicalPath profileName) then
    firstFree taken (sanitizeStem profileName) (maxPathAttempts - 1) 2
  else some (canonicalPath profileName)

/-! ## Loading -/

def selectDuplicate (first second : ProfileInfo) : ProfileInfo :=
  if isCanonical first.config.name first.path ∧ ¬ isCanonical second.config.name second.path then
    first
  else if isCanonical second.config.name second.path ∧
      ¬ isCanonical first.config.name first.path then second
  else first

def addLoaded (profiles : Dict String ProfileInfo) (profile : ProfileInfo) :
    Dict String ProfileInfo :=
  match profiles.get? profile.config.name with
  | none => profiles.insert profile.config.name profile
  | some existing => profiles.insert profile.config.name (selectDuplicate existing profile)

def loadFile (now : ℕ) : Path × FileData codec.Data → Option ProfileInfo
  | (.profile stem, data) => (decode stem now data).map fun config => ⟨.profile stem, config⟩
  | (.other _, _) => none

def fileName : Path → String
  | .profile stem => stem ++ ".toml"
  | .other name => name

/-- `load_all`: files that fail to load are left out. -/
def loadAll (files : Dict Path (FileData codec.Data)) (now : ℕ) : Dict String ProfileInfo :=
  ((sortedOn (fun entry => fileName entry.1) files.entries).filterMap (loadFile now)).foldl
    addLoaded ∅

/-- `repair_created_at` for the files that are loaded. -/
def repaired (files : Dict Path (FileData codec.Data)) (now : ℕ) :
    Dict Path (FileData codec.Data) :=
  files.mapVal fun path data =>
    if (loadFile now (path, data)).isSome then
      { data with createdAt := some (data.createdAt.getD now) }
    else data

/-- The manager of a directory, once its `created_at` repairs are written. -/
def start (files : Dict Path (FileData codec.Data)) (now : ℕ) : State :=
  { memory := loadAll (repaired files now) now
    files := repaired files now }

/-! ## The calls -/

inductive Outcome
  | returned
  | raised
deriving DecidableEq

/- How the atomic write ends: the file is replaced, nothing is changed, or it is replaced
and the sync of its directory fails. -/
inductive Write
  | done
  | failed
  | unsynced

/- Moved to the trash, or else unlinked; or neither. -/
inductive Trash
  | moved
  | unlinked
  | failed

def validateWindowRules (config : ProfileConfig) : Bool :=
  config.windowRules.all fun rule => codec.compiles rule.pattern

/-- `if config.created_at is None: config.created_at = datetime.now()` -/
def stamp (now : ℕ) (config : ProfileConfig) : ProfileConfig :=
  { config with createdAt := some (config.createdAt.getD now) }

/-- The caller's object is the one that is held under the name `held`, so its fields are
seen there. -/
def holding (s : State) (held : Option String) (config : ProfileConfig) : State :=
  match held with
  | none => s
  | some name =>
    match s.memory.get? name with
    | none => s
    | some info => { s with memory := s.memory.insert name { info with config := config } }

def pathOwner (s : State) (path : Path) : Option String :=
  (s.memory.entries.find? fun entry => entry.2.path = path).map Prod.fst

/-- Where `save_profile` writes; `none` where it raises. -/
def storagePath (s : State) (config : ProfileConfig) (held : Option String)
    (path : Option Path) : Option Path :=
  if path.any fun path => (pathOwner s path).any fun owner => owner ≠ config.name then none
  else match s.memory.get? config.name, path with
    | some existing, none => if held = some config.name then some existing.path else none
    | some existing, some path => if existing.path = path then some existing.path else none
    | none, some path => some path
    | none, none => allocatePath s config.name none

def writeProfile (s : State) (config : ProfileConfig) (path : Path) : Write → State × Outcome
  | .failed => (s, .raised)
  | .unsynced => ({ s with files := s.files.insert path (encode config) }, .raised)
  | .done =>
    ({ s with
      memory := s.memory.insert config.name ⟨path, config⟩
      files := s.files.insert path (encode config) }, .returned)

def saveProfile (s : State) (config : ProfileConfig) (held : Option String)
    (path : Option Path) (now : ℕ) (write : Write) : State × Outcome :=
  if validateWindowRules config = false then (holding s held config, .raised)
  else
    let config := stamp now config
    let s := holding s held config
    match storagePath s config held path with
    | none => (s, .raised)
    | some path => writeProfile s config path write

/-- `enabled` is absent where the flag is toggled. -/
def setProfileEnabled (s : State) (profileName : String) (enabled : Option Bool) (now : ℕ)
    (write : Write) : State × Outcome :=
  match s.memory.get? profileName with
  | none => (s, .returned)
  | some profile =>
    let targetEnabled := enabled.getD !profile.config.enabled
    if profile.config.enabled = targetEnabled then (s, .returned)
    else saveProfile s { profile.config with enabled := targetEnabled } none (some profile.path)
      now write

/-- `unlinked`: the old file can be unlinked. -/
def renameProfile (s : State) (oldName newName : String) (now : ℕ) (write : Write)
    (unlinked : Bool) : State × Outcome :=
  if s.memory.contains newName ∧ newName ≠ oldName then (s, .raised)
  else match s.memory.get? oldName with
    | none => (s, .raised)
    | some profile =>
      match allocatePath s newName (some profile.path) with
      | none => (s, .raised)
      | some newPath =>
        if validateWindowRules profile.config = false then (s, .raised)
        else
          let config := stamp now { profile.config with name := newName }
          let files := s.files.insert newPath (encode config)
          match write with
          | .failed => (s, .raised)
          | .unsynced => ({ s with files := files }, .raised)
          | .done =>
            ({ s with
              memory := (s.memory.erase oldName).insert newName ⟨newPath, config⟩
              files :=
                if profile.path ≠ newPath ∧ files.contains profile.path ∧ unlinked then
                  files.erase profile.path
                else files }, .returned)

def deleteProfile (s : State) (name : String) (trash : Trash) : State × Outcome :=
  match s.memory.get? name with
  | none => (s, .returned)
  | some profile =>
    if s.files.contains profile.path then
      match trash with
      | .failed => (s, .raised)
      | _ => ({ s with
        memory := s.memory.erase name
        files := s.files.erase profile.path }, .returned)
    else ({ s with memory := s.memory.erase name }, .returned)

/- `held`: the name under which the very object `config` is held, whatever the caller has
changed in it. -/
inductive Call
  | saveProfile (config : ProfileConfig) (held : Option String) (path : Option Path) (now : ℕ)
    (write : Write)
  | setProfileEnabled (profileName : String) (enabled : Option Bool) (now : ℕ) (write : Write)
  | renameProfile (oldName newName : String) (now : ℕ) (write : Write) (unlinked : Bool)
  | deleteProfile (name : String) (trash : Trash)

def call (s : State) : Call → State × Outcome
  | .saveProfile config held path now write => saveProfile s config held path now write
  | .setProfileEnabled profileName enabled now write =>
    setProfileEnabled s profileName enabled now write
  | .renameProfile oldName newName now write unlinked =>
    renameProfile s oldName newName now write unlinked
  | .deleteProfile name trash => deleteProfile s name trash

def step (s : State) (c : Call) : Option State := some (call s c).1

/-! ## Agreement -/

/-- Equal, or what is decoded from the encoding. -/
def SameContents (config loaded : ProfileConfig) : Prop :=
  loaded = config ∨ ∃ stem now, decode stem now (encode config) = some loaded

def SameProfile (info loaded : ProfileInfo) : Prop :=
  info.path = loaded.path ∧ SameContents info.config loaded.config

/-- The profiles in memory are those that `load_all` gives. -/
def Agrees (s : State) : Prop :=
  ∀ now name, Option.Rel SameProfile (s.memory.get? name) ((loadAll s.files now).get? name)

/-- No two files hold one profile name. -/
def DistinctNames (files : Dict Path (FileData codec.Data)) : Prop :=
  ∀ path path' data data' now info info', files.get? path = some data →
    files.get? path' = some data' → loadFile now (path, data) = some info →
    loadFile now (path', data') = some info' → info.config.name = info'.config.name →
    path = path'

end Keymasq.Profile.Store
