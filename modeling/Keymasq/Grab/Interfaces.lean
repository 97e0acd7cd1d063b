import Keymasq.Combo.Names
import Keymasq.Foundation.Dict
import Keymasq.Foundation.Strings
import Mathlib.Data.List.Sort
import Mathlib.Data.String.Basic

/-!
# Resolving the interfaces of a device

A configured interface names an event node, an alias of one, or only a device model. For a model
the present devices are ranked by what the configuration says about them. What was resolved
before is not taken again, but the names are compared as they are given.
-/

namespace Keymasq.Grab.Interfaces
open Foundation Strings Combo.Names

inductive DeviceType
  | mouse | keyboard | gamepad | motion | other
  deriving DecidableEq

/-- The texts of a descriptor; one that is missing is empty. -/
structure Descriptor where
  path : String
  id : String := ""
  type : String := ""
  phys : String := ""
  capabilities : List String := []

structure ResolvedInterface where
  path : String
  configuredPath : String
  interfaceId : String
  deviceType : DeviceType
  capabilities : List String

structure CachedDeviceInfo where
  vendorId : String
  productId : String
  phys : String
  deviceType : DeviceType
  capabilities : List String
  isKeymasqOutput : Bool

/-- The input source of a driver, and the event nodes of the same controller. -/
structure Binding where
  path : String
  companions : List String

/-- What is asked of the system: the event nodes, what is known about them, and their names. -/
structure Deps where
  devicePaths : List String
  cache : Dict String CachedDeviceInfo := ∅
  probe : String → Option CachedDeviceInfo
  stablePath : Option (String → Option String) := none
  realpath : String → String
  bindings : List Binding := []

structure MatchScore where
  typeMatch : ℕ
  physMatch : ℕ
  capOverlap : ℕ

structure Candidate where
  path : String
  orderPath : String
  score : MatchScore
  claimed : Bool

section
variable [PyStr]

def deviceType (value : String) : DeviceType :=
  match value with
  | "mouse" => .mouse
  | "keyboard" => .keyboard
  | "gamepad" => .gamepad
  | "motion" => .motion
  | _ => .other

def gamepadButtons : List String :=
  ["btn_south", "btn_east", "btn_north", "btn_west", "btn_tl", "btn_tr", "btn_select", "btn_start",
    "btn_mode", "btn_thumbl", "btn_thumbr", "btn_dpad_up", "btn_dpad_down", "btn_dpad_left",
    "btn_dpad_right"]

/- A set of names; the buttons of a gamepad are in it under their common names too. -/
def normalizeCapabilityNames (names : List String) : List String :=
  names.foldl (fun normalized item =>
    let name := PyStr.lower (PyStr.strip item)
    if name = "" then normalized
    else if canonicalGamepadButtonName name ∈ gamepadButtons then
      (normalized.insert name).insert (canonicalGamepadButtonName name)
    else normalized.insert name) []

def keymasqDevicePathPrefix : String := "keymasq:"

def isKeymasqDevicePath (path : String) : Bool :=
  hasPrefix keymasqDevicePathPrefix (PyStr.lower (PyStr.strip path))

/- Up to four hexadecimal digits. -/
def isHexId (value : String) : Bool :=
  1 ≤ value.length ∧ value.length ≤ 4 ∧
    value.toList.all (fun c => c ∈ "0123456789abcdef".toList) = true

def zfill4 (value : String) : String :=
  String.ofList (List.replicate (4 - value.length) '0' ++ value.toList)

def parseIds (vendor product : String) : Option (String × String) :=
  let vendorId := PyStr.strip vendor
  let productId := PyStr.strip product
  if isHexId vendorId ∧ isHexId productId then some (zfill4 vendorId, zfill4 productId) else none

def parseKeymasqDevicePath (path : String) : Option (String × String) :=
  let normalized := PyStr.lower (PyStr.strip path)
  if hasPrefix keymasqDevicePathPrefix normalized then
    match splitOn ':' (removePrefix keymasqDevicePathPrefix normalized) with
    | [vendor, product] => parseIds vendor product
    | _ => none
  else none

/- `parts = text.split(":", 1)` of the text before the first `@`. -/
def parseHardwareModelId (value : String) : Option (String × String) :=
  let normalized := removePrefix keymasqDevicePathPrefix (PyStr.lower (PyStr.strip value))
  let modelText := normalized.toList.takeWhile (· ≠ '@')
  if ':' ∈ modelText then
    parseIds (String.ofList (modelText.takeWhile (· ≠ ':')))
      (String.ofList ((modelText.dropWhile (· ≠ ':')).drop 1))
  else none

/- The model path of a gamepad agrees with the configured path. -/
def samePathAsModel (hardwareId : Option String) (configuredType : DeviceType) (enabled : Bool)
    (configuredPath : String) : Bool :=
  match hardwareId.bind parseHardwareModelId with
  | none => false
  | some model => enabled ∧ configuredType = .gamepad ∧
      parseKeymasqDevicePath configuredPath = some model

def candidateOrderPath (deps : Deps) (path : String) : String :=
  (deps.stablePath.bind (· path)).getD path

def pathMatchesResolved (deps : Deps) (path resolvedPath : String) (paths : List String) : Bool :=
  path ∈ paths ∨ resolvedPath ∈ paths ∨ deps.realpath path ∈ paths ∨
    deps.realpath resolvedPath ∈ paths

/- The cached device, or what a probe finds while nothing is cached. -/
def knownDevice (deps : Deps) (path : String) : Option CachedDeviceInfo :=
  match deps.cache.get? path with
  | some cached => some cached
  | none => if deps.cache.entries.isEmpty then deps.probe path else none

/-- What a descriptor with a model path asks for. -/
structure Wanted where
  vendorId : String
  productId : String
  type : DeviceType
  phys : String
  caps : List String

def Wanted.hasSelector (wanted : Wanted) : Bool :=
  wanted.type ≠ .other ∨ wanted.phys ≠ "" ∨ wanted.caps ≠ []

def Wanted.score (wanted : Wanted) (cached : CachedDeviceInfo) : MatchScore :=
  { typeMatch := if wanted.type = .other ∨ cached.deviceType = wanted.type then 1 else 0
    physMatch := if wanted.phys ≠ "" ∧ cached.phys = wanted.phys then 1 else 0
    capOverlap := (wanted.caps.filter (· ∈ cached.capabilities)).length }

/- A device of the model that the selectors do not rule out. -/
def Wanted.accepts (wanted : Wanted) (cached : CachedDeviceInfo) : Bool :=
  cached.isKeymasqOutput = false ∧ cached.vendorId = wanted.vendorId ∧
    cached.productId = wanted.productId ∧
    (wanted.hasSelector = true → (wanted.type ≠ .other ∧ cached.deviceType = wanted.type) ∨
      (wanted.score cached).physMatch ≠ 0 ∨ (wanted.score cached).capOverlap ≠ 0)

def candidateAt (deps : Deps) (wanted : Wanted) (selectedPaths excludedPaths : List String)
    (path : String) : Option Candidate :=
  if path ∈ selectedPaths then none
  else match knownDevice deps path with
    | none => none
    | some cached =>
      if wanted.accepts cached then
        let orderPath := candidateOrderPath deps path
        some { path, orderPath, score := wanted.score cached,
               claimed := pathMatchesResolved deps path orderPath excludedPaths }
      else none

/- The key of the sort: better scores first, then the name. -/
def Candidate.before (a b : Candidate) : Prop :=
  b.score.typeMatch < a.score.typeMatch ∨ a.score.typeMatch = b.score.typeMatch ∧
    (b.score.physMatch < a.score.physMatch ∨ a.score.physMatch = b.score.physMatch ∧
      (b.score.capOverlap < a.score.capOverlap ∨ a.score.capOverlap = b.score.capOverlap ∧
        a.orderPath ≤ b.orderPath))

instance candidateBefore_decidable : DecidableRel Candidate.before := fun _ _ =>
  inferInstanceAs (Decidable (_ ∨ _ ∧ (_ ∨ _ ∧ (_ ∨ _ ∧ _))))

/- `_resolve_keymasq_paths`, for a path that names a model. -/
def resolveKeymasqPaths (deps : Deps) (wanted : Wanted)
    (selectedPaths excludedPaths preferredPaths : List String) : Option Candidate :=
  let candidates := (deps.devicePaths.insertionSort (· ≤ ·)).filterMap
    (candidateAt deps wanted selectedPaths excludedPaths)
  let available := (candidates.insertionSort Candidate.before).filter fun c => !c.claimed
  (available.find? fun c => pathMatchesResolved deps c.path c.orderPath preferredPaths).or
    available.head?

/-- What the caller gives beside the descriptors. -/
structure Request where
  hardwareId : Option String := none
  excludedPaths : List String := []
  preferredPaths : List String := []
  matchModelGamepads : Bool := false

def sourcePrefix : String := "/dev/keymasq-sources/"

def givenPaths (paths : List String) : List String := (paths.map PyStr.strip).filter (· ≠ "")

/- A claimed source of a driver claims the nodes of its controller as well. -/
def expandClaims (bindings : List Binding) (paths : List String) : List String :=
  bindings.foldl (fun paths binding =>
    if binding.path ∈ paths then paths ++ binding.companions else paths) paths

/- The paths under the names they were given and as event nodes. -/
def normalizedPaths (deps : Deps) (request : Request) (paths : List String) : List String :=
  let given := givenPaths paths
  let expanded :=
    if ∃ path ∈ givenPaths request.excludedPaths ++ givenPaths request.preferredPaths,
        hasPrefix sourcePrefix path then expandClaims deps.bindings given
    else given
  expanded ++ expanded.map deps.realpath

def Request.excluded (request : Request) (deps : Deps) : List String :=
  normalizedPaths deps request request.excludedPaths

def Request.preferred (request : Request) (deps : Deps) : List String :=
  normalizedPaths deps request request.preferredPaths

/- What the descriptor asks for, if its path names a model. -/
def wantedOf (request : Request) (descriptor : Descriptor) : Option Wanted :=
  let configuredType := deviceType descriptor.type
  (parseKeymasqDevicePath (PyStr.strip descriptor.path)).map fun ids =>
    { vendorId := ids.1
      productId := ids.2
      type := configuredType
      phys := if samePathAsModel request.hardwareId configuredType request.matchModelGamepads
          (PyStr.strip descriptor.path) then "" else PyStr.strip descriptor.phys
      caps := normalizeCapabilityNames descriptor.capabilities }

/-- `resolved` and `selected_paths`. -/
structure Progress where
  resolved : List ResolvedInterface := []
  selectedPaths : List String := []

def Progress.add (progress : Progress) (descriptor : Descriptor) (path : String) : Progress :=
  { resolved := progress.resolved ++ [{
      path
      configuredPath := PyStr.strip descriptor.path
      interfaceId := PyStr.lower (PyStr.strip descriptor.id)
      deviceType := deviceType descriptor.type
      capabilities :=
        (normalizeCapabilityNames descriptor.capabilities).insertionSort (· ≤ ·) }]
    selectedPaths := path :: progress.selectedPaths }

/- One round of the loop. -/
def resolveInterface (deps : Deps) (request : Request) (progress : Progress)
    (descriptor : Descriptor) : Progress :=
  let configuredPath := PyStr.strip descriptor.path
  if configuredPath = "" then progress
  else if isKeymasqDevicePath configuredPath then
    match (wantedOf request descriptor).bind fun wanted =>
        resolveKeymasqPaths deps wanted progress.selectedPaths (request.excluded deps)
          (request.preferred deps) with
    | none => progress
    | some candidate => progress.add descriptor candidate.path
  else if pathMatchesResolved deps configuredPath (candidateOrderPath deps configuredPath)
      (request.excluded deps) then progress
  else progress.add descriptor configuredPath

/- `resolve_evdev_interfaces`, for descriptors of event nodes only. -/
def resolveEvdevInterfaces (deps : Deps) (request : Request) (interfaces : List Descriptor) :
    List ResolvedInterface :=
  (interfaces.foldl (resolveInterface deps request) {}).resolved

/-! ## Which names clash -/

def node (deps : Deps) (descriptor : Descriptor) : String :=
  deps.realpath (PyStr.strip descriptor.path)

def isConcrete (descriptor : Descriptor) : Bool :=
  PyStr.strip descriptor.path ≠ "" ∧ isKeymasqDevicePath (PyStr.strip descriptor.path) = false

/-- A concrete path that is not excluded. -/
def isKept (deps : Deps) (request : Request) (descriptor : Descriptor) : Bool :=
  isConcrete descriptor ∧ pathMatchesResolved deps (PyStr.strip descriptor.path)
    (candidateOrderPath deps (PyStr.strip descriptor.path)) (request.excluded deps) = false

/-- The node is a present device that the model path may be resolved to. -/
def isFree (deps : Deps) (request : Request) (descriptor : Descriptor) (path : String) : Bool :=
  path ∈ deps.devicePaths ∧ PyStr.strip descriptor.path ≠ "" ∧
    ∃ wanted ∈ wantedOf request descriptor,
      ∃ candidate ∈ candidateAt deps wanted [] (request.excluded deps) path,
        candidate.claimed = false

/-- No node of a concrete path is free for a model path, unless the concrete path comes first and
is the event node itself. -/
structure Apart (deps : Deps) (request : Request) (interfaces : List Descriptor) : Prop where
  earlier : ∀ c d, [c, d].Sublist interfaces → isKept deps request c = true →
    isFree deps request d (node deps c) = true → PyStr.strip c.path = node deps c
  later : ∀ c d, [d, c].Sublist interfaces → isKept deps request c = true →
    isFree deps request d (node deps c) = false

def nodes (deps : Deps) (resolved : List ResolvedInterface) : List String :=
  resolved.map fun r => deps.realpath r.path

/-! ## One round of the loop -/

variable {deps : Deps} {request : Request} {progress : Progress} {descriptor d : Descriptor}
  {candidate : Candidate} {wanted : Wanted} {r : ResolvedInterface} {interfaces : List Descriptor}

theorem isFree_iff {path : String} :
    isFree deps request descriptor path = true ↔ path ∈ deps.devicePaths ∧
      PyStr.strip descriptor.path ≠ "" ∧ ∃ wanted, wantedOf request descriptor = some wanted ∧
        ∃ candidate, candidateAt deps wanted [] (request.excluded deps) path = some candidate ∧
          candidate.claimed = false := by
  unfold isFree
  rw [decide_eq_true_eq]
  rfl

omit [PyStr] in
theorem candidateAt_eq_some {selected excluded : List String} {path : String} :
    candidateAt deps wanted selected excluded path = some candidate ↔
      path ∉ selected ∧ candidateAt deps wanted [] excluded path = some candidate := by
  unfold candidateAt
  by_cases hselected : path ∈ selected
  · simp [hselected]
  · simp [hselected]

omit [PyStr] in
theorem candidateAt_spec {excluded : List String} {path : String}
    (h : candidateAt deps wanted [] excluded path = some candidate) :
    candidate.path = path ∧
      candidate.claimed = pathMatchesResolved deps path (candidateOrderPath deps path) excluded ∧
      ∃ cached, knownDevice deps path = some cached ∧ cached.isKeymasqOutput = false := by
  unfold candidateAt at h
  rw [if_neg List.not_mem_nil] at h
  cases hknown : knownDevice deps path with
  | none =>
    rw [hknown] at h
    cases h
  | some cached =>
    rw [hknown] at h
    dsimp only at h
    split at h
    case isTrue haccepts =>
      cases h
      exact ⟨rfl, rfl, cached, rfl, (of_decide_eq_true haccepts).1⟩
    · cases h

omit [PyStr] in
/-- What is chosen is free and was not taken before under this name. -/
theorem resolveKeymasqPaths_spec {selected excluded preferred : List String}
    (h : resolveKeymasqPaths deps wanted selected excluded preferred = some candidate) :
    candidate.path ∈ deps.devicePaths ∧ candidate.path ∉ selected ∧
      candidateAt deps wanted [] excluded candidate.path = some candidate ∧
      candidate.claimed = false := by
  unfold resolveKeymasqPaths at h
  dsimp only at h
  have hmem : candidate ∈ ((((deps.devicePaths.insertionSort (· ≤ ·)).filterMap
      (candidateAt deps wanted selected excluded)).insertionSort Candidate.before).filter
        fun c => !c.claimed) := by
    obtain hpreferred | ⟨-, hbest⟩ := Option.or_eq_some_iff.mp h
    · exact List.mem_of_find?_eq_some hpreferred
    · exact List.mem_of_head? hbest
  obtain ⟨hsorted, hclaimed⟩ := List.mem_filter.mp hmem
  obtain ⟨path, hpath, hcandidate⟩ :=
    List.mem_filterMap.mp ((List.perm_insertionSort _ _).mem_iff.mp hsorted)
  obtain ⟨hselected, hcandidate⟩ := candidateAt_eq_some.mp hcandidate
  have hname := (candidateAt_spec hcandidate).1
  rw [hname]
  exact ⟨(List.perm_insertionSort _ _).mem_iff.mp hpath, hselected, hcandidate,
    by simpa using hclaimed⟩

/-- A round adds nothing, or a concrete path that is not excluded, or a free device that was not
taken under its own name. -/
theorem resolveInterface_cases (deps : Deps) (request : Request) (progress : Progress)
    (descriptor : Descriptor) :
    resolveInterface deps request progress descriptor = progress ∨
    ∃ path, resolveInterface deps request progress descriptor = progress.add descriptor path ∧
      ((isKept deps request descriptor = true ∧ path = PyStr.strip descriptor.path) ∨
        (isFree deps request descriptor path = true ∧ path ∉ progress.selectedPaths)) := by
  unfold resolveInterface
  dsimp only
  split
  · exact .inl rfl
  case isFalse hpath =>
  split
  · split
    · exact .inl rfl
    case h_2 candidate hchosen =>
      obtain ⟨wanted, hwanted, hcandidate⟩ := Option.bind_eq_some_iff.mp hchosen
      obtain ⟨hpresent, hselected, hat, hclaimed⟩ := resolveKeymasqPaths_spec hcandidate
      exact .inr ⟨candidate.path, rfl, .inr ⟨isFree_iff.mpr ⟨hpresent, hpath, wanted, hwanted, candidate,
        hat, hclaimed⟩, hselected⟩⟩
  case isFalse hconcrete =>
  split
  · exact .inl rfl
  case isFalse hexcluded =>
    refine .inr ⟨PyStr.strip descriptor.path, rfl, .inl ⟨?_, rfl⟩⟩
    exact decide_eq_true ⟨decide_eq_true ⟨hpath, Bool.eq_false_iff.mpr hconcrete⟩,
      Bool.eq_false_iff.mpr hexcluded⟩

/-! ## The whole loop -/

/-- An interface is a kept concrete path under its own name, or a device that is free for the
model path. -/
def ComesFrom (deps : Deps) (request : Request) (r : ResolvedInterface) (d : Descriptor) : Prop :=
  r.configuredPath = PyStr.strip d.path ∧
    ((isKept deps request d = true ∧ r.path = PyStr.strip d.path) ∨
      isFree deps request d r.path = true)

/-- What the rounds so far have resolved, and where from. -/
structure Sound (deps : Deps) (request : Request) (done : List Descriptor)
    (progress : Progress) : Prop where
  selected : ∀ path, path ∈ progress.selectedPaths ↔ ∃ r ∈ progress.resolved, r.path = path
  origin : ∀ r ∈ progress.resolved, ∃ d ∈ done, ComesFrom deps request r d

theorem Sound.more {done : List Descriptor} (h : Sound deps request done progress)
    (d : Descriptor) : Sound deps request (done ++ [d]) progress :=
  ⟨h.selected, fun r hr => by
    obtain ⟨d', hd', hfrom⟩ := h.origin r hr
    exact ⟨d', List.mem_append_left _ hd', hfrom⟩⟩

theorem Sound.add {done : List Descriptor} (h : Sound deps request done progress) {path : String}
    (hfrom : (isKept deps request d = true ∧ path = PyStr.strip d.path) ∨
      isFree deps request d path = true) :
    Sound deps request (done ++ [d]) (progress.add d path) := by
  refine ⟨fun other => ?_, fun r hr => ?_⟩
  · unfold Progress.add
    simp only [List.mem_cons, List.mem_append, h.selected other, List.not_mem_nil, or_false,
      or_and_right, exists_or, exists_eq_left]
    rw [or_comm, eq_comm]
  · obtain hold | hnew := List.mem_append.mp hr
    · exact (h.more d).origin r hold
    · rw [List.mem_singleton.mp hnew]
      exact ⟨d, List.mem_append_right _ (List.mem_singleton_self d), rfl, hfrom⟩

theorem sound_run (deps : Deps) (request : Request) (interfaces : List Descriptor) :
    Sound deps request interfaces (interfaces.foldl (resolveInterface deps request) {}) := by
  induction interfaces using List.reverseRecOn with
  | nil => exact ⟨fun path => by simp, fun r hr => absurd hr List.not_mem_nil⟩
  | append_singleton done d ih =>
    rw [List.foldl_append, List.foldl_cons, List.foldl_nil]
    obtain hsame | ⟨path, hadd, hpath⟩ := resolveInterface_cases deps request
      (done.foldl (resolveInterface deps request) {}) d
    · rw [hsame]
      exact ih.more d
    · rw [hadd]
      exact ih.add (hpath.imp_right And.left)

theorem concrete_of_kept (h : isKept deps request d = true) :
    isConcrete d = true := (of_decide_eq_true h).1

/-- Two different names for one node come from a pair that clashes. -/
theorem node_ne {done : List Descriptor} {d' : Descriptor} {path : String}
    (hreal : ∀ p ∈ deps.devicePaths, deps.realpath p = p)
    (hdistinct : ((done ++ [d]).filter isConcrete).Pairwise fun a b => node deps a ≠ node deps b)
    (hapart : Apart deps request (done ++ [d])) (hd' : d' ∈ done)
    (hold : ComesFrom deps request r d')
    (hnew : (isKept deps request d = true ∧ path = PyStr.strip d.path) ∨
      (isFree deps request d path = true ∧ r.path ≠ path)) :
    deps.realpath r.path ≠ deps.realpath path := by
  have hpair : [d', d].Sublist (done ++ [d]) :=
    (List.singleton_sublist.mpr hd').append (List.Sublist.refl [d])
  have hfixed {e : Descriptor} {p : String} (h : isFree deps request e p = true) :
      deps.realpath p = p := hreal p (isFree_iff.mp h).1
  obtain ⟨-, ⟨hkept', hname'⟩ | hfree'⟩ := hold
  · obtain ⟨hkept, rfl⟩ | ⟨hfree, hne⟩ := hnew
    · -- two concrete paths name different nodes
      rw [hname']
      have hconcrete := hdistinct.sublist (hpair.filter isConcrete)
      rw [List.filter_cons_of_pos (concrete_of_kept hkept'),
        List.filter_cons_of_pos (concrete_of_kept hkept)] at hconcrete
      exact (List.pairwise_cons.mp hconcrete).1 d List.mem_cons_self
    · intro heq
      rw [hfixed hfree, hname'] at heq
      rw [← heq] at hfree
      have hown := hapart.earlier d' d hpair hkept' hfree
      exact hne (hname'.trans (hown.trans heq))
  · obtain ⟨hkept, rfl⟩ | ⟨hfree, hne⟩ := hnew
    · intro heq
      rw [hfixed hfree'] at heq
      have hnone := hapart.later d d' hpair hkept
      rw [show node deps d = r.path from heq.symm, hfree'] at hnone
      cases hnone
    · rw [hfixed hfree', hfixed hfree]
      exact hne

theorem Apart.of_append {done rest : List Descriptor} (h : Apart deps request (done ++ rest)) :
    Apart deps request done :=
  ⟨fun c d hpair => h.earlier c d (hpair.trans (List.sublist_append_left _ _)),
    fun c d hpair => h.later c d (hpair.trans (List.sublist_append_left _ _))⟩

/-- Without a clash every node is taken once. -/
theorem nodes_nodup (deps : Deps) (hreal : ∀ p ∈ deps.devicePaths, deps.realpath p = p)
    (hdistinct : (interfaces.filter isConcrete).Pairwise fun a b => node deps a ≠ node deps b)
    (hapart : Apart deps request interfaces) :
    (nodes deps (resolveEvdevInterfaces deps request interfaces)).Nodup := by
  unfold resolveEvdevInterfaces
  induction interfaces using List.reverseRecOn with
  | nil => exact List.nodup_nil
  | append_singleton done d ih =>
    have hsound := sound_run deps request done
    have hfiltered := hdistinct
    rw [List.filter_append] at hfiltered
    have hbefore := ih (hfiltered.sublist (List.sublist_append_left _ _)) hapart.of_append
    rw [List.foldl_append, List.foldl_cons, List.foldl_nil]
    obtain hsame | ⟨path, hadd, hpath⟩ := resolveInterface_cases deps request
      (done.foldl (resolveInterface deps request) {}) d
    · rw [hsame]
      exact hbefore
    · rw [hadd]
      unfold nodes Progress.add
      rw [List.map_append]
      refine List.nodup_append.mpr ⟨hbefore, List.nodup_singleton _, ?_⟩
      intro n hn m hm
      obtain ⟨r, hr, rfl⟩ := List.mem_map.mp hn
      rw [List.map_singleton, List.mem_singleton] at hm
      subst hm
      obtain ⟨d', hd', hfrom⟩ := hsound.origin r hr
      refine node_ne hreal hdistinct hapart hd' hfrom (hpath.imp_right fun hfree => ⟨hfree.1, ?_⟩)
      exact fun heq => hfree.2 ((hsound.selected _).mpr ⟨r, hr, heq⟩)

theorem mem_excluded {e : String} (he : e ∈ givenPaths request.excludedPaths) :
    deps.realpath e ∈ request.excluded deps := by
  have hexpand (bindings : List Binding) (paths : List String) (hmem : e ∈ paths) :
      e ∈ expandClaims bindings paths := by
    unfold expandClaims
    induction bindings generalizing paths with
    | nil => exact hmem
    | cons binding rest ih =>
      refine ih _ ?_
      dsimp only
      split
      · exact List.mem_append_left _ hmem
      · exact hmem
  unfold Request.excluded normalizedPaths
  refine List.mem_append_right _ (List.mem_map_of_mem ?_)
  split
  · exact hexpand _ _ he
  · exact he

/-- No resolved interface is an excluded node, under any name. -/
theorem not_excluded (hfrom : ComesFrom deps request r d) :
    ∀ e ∈ givenPaths request.excludedPaths, deps.realpath e ≠ deps.realpath r.path := by
  have hclear : deps.realpath r.path ∉ request.excluded deps := by
    intro hmem
    have hmatches (resolvedPath : String) :
        pathMatchesResolved deps r.path resolvedPath (request.excluded deps) = true :=
      decide_eq_true (.inr (.inr (.inl hmem)))
    obtain ⟨-, ⟨hkept, hname⟩ | hfree⟩ := hfrom
    · have hnone := (of_decide_eq_true hkept).2
      rw [← hname, hmatches] at hnone
      cases hnone
    · obtain ⟨-, -, wanted, -, candidate, hat, hclaimed⟩ := isFree_iff.mp hfree
      rw [(candidateAt_spec hat).2.1, hmatches] at hclaimed
      cases hclaimed
  intro e he heq
  exact hclear (heq ▸ mem_excluded he)

/-- A model path is never resolved to an output device of Keymasq. -/
theorem not_output (hfrom : ComesFrom deps request r d)
    (hmodel : isKeymasqDevicePath r.configuredPath = true) :
    ∃ cached, knownDevice deps r.path = some cached ∧ cached.isKeymasqOutput = false := by
  obtain ⟨hconfigured, ⟨hkept, -⟩ | hfree⟩ := hfrom
  · have hconcrete := (of_decide_eq_true (concrete_of_kept hkept)).2
    rw [← hconfigured, hmodel] at hconcrete
    cases hconcrete
  · obtain ⟨-, -, wanted, -, candidate, hat, -⟩ := isFree_iff.mp hfree
    exact (candidateAt_spec hat).2.2

/-! ## A clash -/

/- The same system with other devices present. -/
def Deps.present (deps : Deps) (paths : List String) : Deps := { deps with devicePaths := paths }

omit [PyStr] in
theorem resolve_only {selected preferred excluded : List String} {path : String}
    (hselected : path ∉ selected) (hat : candidateAt deps wanted [] excluded path = some candidate)
    (hclaimed : candidate.claimed = false) :
    resolveKeymasqPaths (deps.present [path]) wanted selected excluded preferred = some candidate := by
  have hat' : candidateAt (deps.present [path]) wanted selected excluded path = some candidate :=
    candidateAt_eq_some.mpr ⟨hselected, hat⟩
  unfold resolveKeymasqPaths
  dsimp only
  have hsorted : (((deps.present [path]).devicePaths.insertionSort (· ≤ ·)).filterMap
      (candidateAt (deps.present [path]) wanted selected excluded)) = [candidate] := by
    change [path].filterMap _ = [candidate]
    rw [List.filterMap_cons, hat', List.filterMap_nil]
  have hone : ([candidate].insertionSort Candidate.before) = [candidate] := rfl
  have havailable : ([candidate].filter fun c => !c.claimed) = [candidate] :=
    List.filter_cons_of_pos (by rw [hclaimed]; rfl)
  rw [hsorted, hone, havailable, List.find?_singleton]
  split
  · rfl
  · rfl

/-- A free device that was not taken under its own name is taken if there is no other. -/
theorem resolveInterface_free {path : String} (hfree : isFree deps request d path = true)
    (hselected : path ∉ progress.selectedPaths) :
    resolveInterface (deps.present [path]) request progress d = progress.add d path := by
  obtain ⟨-, hpath, wanted, hwanted, candidate, hat, hclaimed⟩ := isFree_iff.mp hfree
  have hmodel : isKeymasqDevicePath (PyStr.strip d.path) = true := by
    obtain ⟨ids, hparsed, -⟩ := Option.map_eq_some_iff.mp hwanted
    unfold parseKeymasqDevicePath at hparsed
    dsimp only at hparsed
    split at hparsed
    case isTrue hprefix => exact hprefix
    · cases hparsed
  have hchosen : (wantedOf request d).bind (fun wanted =>
      resolveKeymasqPaths (deps.present [path]) wanted progress.selectedPaths
        (request.excluded (deps.present [path])) (request.preferred (deps.present [path]))) =
        some candidate := by
    rw [hwanted, Option.bind_some]
    exact resolve_only hselected hat hclaimed
  unfold resolveInterface
  dsimp only
  rw [if_neg hpath, if_pos hmodel, hchosen]
  exact congrArg (progress.add d) (candidateAt_spec hat).1

theorem resolveInterface_kept (hkept : isKept deps request d = true) (progress : Progress) :
    resolveInterface deps request progress d = progress.add d (PyStr.strip d.path) := by
  obtain ⟨hconcrete, hexcluded⟩ := of_decide_eq_true hkept
  obtain ⟨hpath, hmodel⟩ := of_decide_eq_true hconcrete
  unfold resolveInterface
  dsimp only
  rw [if_neg hpath, if_neg (Bool.eq_false_iff.mp hmodel), if_neg (Bool.eq_false_iff.mp hexcluded)]

/-- The rounds only add interfaces. -/
theorem resolved_grows (deps : Deps) (request : Request) (progress : Progress)
    (interfaces : List Descriptor) :
    progress.resolved <+: (interfaces.foldl (resolveInterface deps request) progress).resolved := by
  induction interfaces generalizing progress with
  | nil => exact List.prefix_refl _
  | cons d rest ih =>
    refine List.IsPrefix.trans ?_ (ih (resolveInterface deps request progress d))
    obtain hsame | ⟨path, hadd, -⟩ := resolveInterface_cases deps request progress d
    · rw [hsame]
    · rw [hadd]
      exact List.prefix_append _ _

theorem nodes_nodup_of_append (deps : Deps) {done rest : List Descriptor}
    (h : (nodes deps (resolveEvdevInterfaces deps request (done ++ rest))).Nodup) :
    (nodes deps (resolveEvdevInterfaces deps request done)).Nodup := by
  unfold resolveEvdevInterfaces at h ⊢
  rw [List.foldl_append] at h
  exact h.sublist ((resolved_grows deps request _ rest).map _).sublist

theorem exists_added (progress : Progress) (d : Descriptor) (path : String) :
    ∃ r ∈ (progress.add d path).resolved, r.path = path :=
  ⟨_, List.mem_append_right _ List.mem_cons_self, rfl⟩

/-- After the turn of a kept concrete path its name is taken. -/
theorem kept_resolved {done : List Descriptor} {c : Descriptor} (hc : c ∈ done)
    (hkept : isKept deps request c = true) :
    ∃ r ∈ resolveEvdevInterfaces deps request done, r.path = PyStr.strip c.path := by
  obtain ⟨before, after, rfl⟩ := List.append_of_mem hc
  unfold resolveEvdevInterfaces
  rw [List.foldl_append, List.foldl_cons, resolveInterface_kept hkept]
  obtain ⟨r, hr, hpath⟩ := exists_added (before.foldl (resolveInterface deps request) {}) c
    (PyStr.strip c.path)
  exact ⟨r, (resolved_grows deps request _ after).subset hr, hpath⟩

/-- After the turn of a model path the only device that is free for it is taken. -/
theorem free_resolved {done : List Descriptor} {path : String} (hd : d ∈ done)
    (hfree : isFree deps request d path = true) :
    ∃ r ∈ resolveEvdevInterfaces (deps.present [path]) request done, r.path = path := by
  obtain ⟨before, after, rfl⟩ := List.append_of_mem hd
  have hgrows := (resolved_grows (deps.present [path]) request
    (before.foldl (resolveInterface (deps.present [path]) request) {}) (d :: after)).subset
  unfold resolveEvdevInterfaces
  rw [List.foldl_append]
  by_cases hselected :
      path ∈ (before.foldl (resolveInterface (deps.present [path]) request) {}).selectedPaths
  · obtain ⟨r, hr, hpath⟩ :=
      ((sound_run (deps.present [path]) request before).selected path).mp hselected
    exact ⟨r, hgrows hr, hpath⟩
  · rw [List.foldl_cons, resolveInterface_free hfree hselected]
    obtain ⟨r, hr, hpath⟩ := exists_added
      (before.foldl (resolveInterface (deps.present [path]) request) {}) d path
    exact ⟨r, (resolved_grows (deps.present [path]) request _ after).subset hr, hpath⟩

omit [PyStr] in
theorem mem_nodes {resolved : List ResolvedInterface} (hr : r ∈ resolved) :
    deps.realpath r.path ∈ nodes deps resolved :=
  List.mem_map_of_mem hr

theorem not_nodup_add (deps : Deps) {path : String} (d : Descriptor)
    (h : deps.realpath path ∈ nodes deps progress.resolved) :
    ¬ (nodes deps (progress.add d path).resolved).Nodup := by
  intro hnodup
  unfold nodes Progress.add at hnodup
  rw [List.map_append] at hnodup
  exact (List.nodup_append.mp hnodup).2.2 _ h _ List.mem_cons_self rfl

omit [PyStr] in
theorem split_pair {a b : Descriptor} (h : [a, b].Sublist interfaces) :
    ∃ before after, interfaces = (before ++ [b]) ++ after ∧ a ∈ before := by
  obtain ⟨first, rest, rfl, ha, hb⟩ := List.cons_sublist_iff.mp h
  obtain ⟨before, after, rfl⟩ := List.append_of_mem (List.singleton_sublist.mp hb)
  refine ⟨first ++ before, after, ?_, List.mem_append_left _ ha⟩
  rw [List.append_assoc, List.append_assoc, List.singleton_append]

/-- If the nodes are distinct whatever devices are present, no names clash. -/
theorem apart_of_nodup (hreal : ∀ p ∈ deps.devicePaths, deps.realpath p = p)
    (h : ∀ paths ⊆ deps.devicePaths,
      (nodes deps (resolveEvdevInterfaces (deps.present paths) request interfaces)).Nodup) :
    Apart deps request interfaces := by
  have hone {d : Descriptor} {path : String} (hfree : isFree deps request d path = true) :
      (nodes deps (resolveEvdevInterfaces (deps.present [path]) request interfaces)).Nodup :=
    h [path] (List.cons_subset.mpr ⟨(isFree_iff.mp hfree).1, List.nil_subset _⟩)
  refine ⟨fun c d hpair hkept hfree => ?_, fun c d hpair hkept => ?_⟩
  · -- the name of the concrete path is another one, so the model path takes its node
    obtain ⟨before, after, rfl, hc⟩ := split_pair hpair
    by_contra hname
    have hfixed := hreal _ (isFree_iff.mp hfree).1
    have hkept' : isKept (deps.present [node deps c]) request c = true := hkept
    have hnodup := hone hfree
    replace hnodup := nodes_nodup_of_append (deps.present [node deps c]) hnodup
    obtain ⟨r, hr, hpath⟩ := kept_resolved hc hkept'
    unfold resolveEvdevInterfaces at hnodup hr
    rw [List.foldl_append, List.foldl_cons, List.foldl_nil] at hnodup
    by_cases hselected : node deps c ∈
        (before.foldl (resolveInterface (deps.present [node deps c]) request) {}).selectedPaths
    · obtain ⟨r', hr', hpath'⟩ :=
        ((sound_run (deps.present [node deps c]) request before).selected _).mp hselected
      have hbefore := hnodup.sublist
        ((resolved_grows (deps.present [node deps c]) request _ [d]).map _).sublist
      refine absurd (List.inj_on_of_nodup_map hbefore hr hr' ?_) fun heq => hname ?_
      · rw [hpath, hpath']
        exact hfixed.symm
      · rw [← hpath, heq, hpath']
    · rw [resolveInterface_free hfree hselected] at hnodup
      refine not_nodup_add (deps.present [node deps c]) d ?_ hnodup
      have hnode : deps.realpath (node deps c) = deps.realpath r.path := by
        rw [hfixed, hpath]
        rfl
      exact hnode ▸ mem_nodes hr
  · obtain ⟨before, after, rfl, hd⟩ := split_pair hpair
    by_contra hnone
    have hfree := Bool.not_eq_false _ ▸ hnone
    have hfixed := hreal _ (isFree_iff.mp hfree).1
    have hkept' : isKept (deps.present [node deps c]) request c = true := hkept
    have hnodup := hone hfree
    replace hnodup := nodes_nodup_of_append (deps.present [node deps c]) hnodup
    obtain ⟨r, hr, hpath⟩ := free_resolved hd hfree
    unfold resolveEvdevInterfaces at hnodup hr
    rw [List.foldl_append, List.foldl_cons, List.foldl_nil, resolveInterface_kept hkept'] at hnodup
    refine not_nodup_add (deps.present [node deps c]) c ?_ hnodup
    have hnode : deps.realpath (PyStr.strip c.path) = deps.realpath r.path := by
      rw [hpath, hfixed]
      rfl
    exact hnode ▸ mem_nodes hr

/-- With fewer devices there are fewer clashes. -/
theorem Apart.present (h : Apart deps request interfaces) {paths : List String}
    (hpaths : paths ⊆ deps.devicePaths) :
    Apart (deps.present paths) request interfaces := by
  have hfewer {d : Descriptor} {path : String}
      (hfree : isFree (deps.present paths) request d path = true) :
      isFree deps request d path = true := by
    obtain ⟨hpresent, hrest⟩ := isFree_iff.mp hfree
    exact isFree_iff.mpr ⟨hpaths hpresent, hrest⟩
  refine ⟨fun c d hpair hkept hfree => h.earlier c d hpair hkept (hfewer hfree),
    fun c d hpair hkept => ?_⟩
  by_contra hnone
  have hfree := hfewer (Bool.not_eq_false _ ▸ hnone)
  exact absurd (hfree.symm.trans (h.later c d hpair hkept)) (by decide)

/-- No excluded node and no output device is ever resolved. Whatever devices are present, the
nodes are distinct: exactly if no names clash. -/
theorem interfaces_distinct_iff (deps : Deps) (request : Request) (interfaces : List Descriptor)
    (hreal : ∀ p ∈ deps.devicePaths, deps.realpath p = p)
    (hdistinct : (interfaces.filter isConcrete).Pairwise fun a b => node deps a ≠ node deps b) :
    (∀ r ∈ resolveEvdevInterfaces deps request interfaces,
      (∀ e ∈ givenPaths request.excludedPaths, deps.realpath e ≠ deps.realpath r.path) ∧
      (isKeymasqDevicePath r.configuredPath = true →
        ∃ cached, knownDevice deps r.path = some cached ∧ cached.isKeymasqOutput = false)) ∧
    ((∀ paths ⊆ deps.devicePaths,
        (nodes deps (resolveEvdevInterfaces (deps.present paths) request interfaces)).Nodup) ↔
      Apart deps request interfaces) := by
  refine ⟨fun r hr => ?_, apart_of_nodup hreal, fun hapart paths hpaths => ?_⟩
  · obtain ⟨d, -, hfrom⟩ := (sound_run deps request interfaces).origin r hr
    exact ⟨not_excluded hfrom, not_output hfrom⟩
  · exact nodes_nodup (deps.present paths) (fun p hp => hreal p (hpaths hp)) hdistinct
      (hapart.present hpaths)

end

/-! ## One gamepad under two names -/

section
attribute [local instance] asciiStr

def padPath : String := "/dev/input/event3"
def padAlias : String := "/dev/input/by-id/usb-pad-event-joystick"

/- One gamepad, with an alias. -/
def padDeps : Deps :=
  { devicePaths := [padPath]
    probe := fun path =>
      if path = padPath then some ⟨"2dc8", "3106", "usb-1/input0", .gamepad, ["btn_south"], false⟩
      else none
    realpath := fun path => if path = padAlias then padPath else path }

def padByAlias : Descriptor := { path := padAlias }
def padByModel : Descriptor := { path := "keymasq:2dc8:3106" }

theorem padDeps_real : ∀ p ∈ padDeps.devicePaths, padDeps.realpath p = p := by
  intro p hp
  obtain rfl := List.mem_singleton.mp hp
  decide

theorem padByAlias_kept : isKept padDeps {} padByAlias = true := by decide

theorem padByModel_free : isFree padDeps {} padByModel padPath = true := by decide

theorem padByModel_model : isConcrete padByModel = false := by decide

theorem padByAlias_node : node padDeps padByAlias = padPath := by decide

/- Only the alias is a concrete path. -/
theorem pad_filter : [padByAlias, padByModel].filter isConcrete = [padByAlias] := by
  rw [List.filter_cons_of_pos (concrete_of_kept padByAlias_kept),
    List.filter_cons_of_neg (Bool.eq_false_iff.mp padByModel_model), List.filter_nil]

/-- The alias does not keep the model path from taking the same device. -/
theorem not_interfaces_distinct :
    ¬ ∀ (deps : Deps) (request : Request) (interfaces : List Descriptor),
      (∀ p ∈ deps.devicePaths, deps.realpath p = p) →
      ((interfaces.filter isConcrete).Pairwise fun a b => node deps a ≠ node deps b) →
        (nodes deps (resolveEvdevInterfaces deps request interfaces)).Nodup := by
  intro h
  have hdistinct : ([padByAlias, padByModel].filter isConcrete).Pairwise
      fun a b => node padDeps a ≠ node padDeps b := by
    rw [pad_filter]
    exact List.pairwise_singleton _ _
  have hnodup := h padDeps {} [padByAlias, padByModel] padDeps_real hdistinct
  have hsecond : padPath ∉ ((Progress.add {} padByAlias padAlias).selectedPaths) := by decide
  have htwice : nodes padDeps (resolveEvdevInterfaces padDeps {} [padByAlias, padByModel]) =
      [padPath, padPath] := by
    have hpresent : padDeps.present [padPath] = padDeps := rfl
    have hstrip : PyStr.strip padByAlias.path = padAlias := by decide
    have hlast : resolveInterface (padDeps.present [padPath]) {}
        (Progress.add {} padByAlias padAlias) padByModel =
          (Progress.add {} padByAlias padAlias).add padByModel padPath :=
      resolveInterface_free padByModel_free hsecond
    rw [hpresent] at hlast
    unfold resolveEvdevInterfaces
    rw [List.foldl_cons, List.foldl_cons, List.foldl_nil, resolveInterface_kept padByAlias_kept,
      hstrip, hlast]
    rfl
  rw [htwice] at hnodup
  exact (List.nodup_cons.mp hnodup).1 List.mem_cons_self

theorem interfaces_distinct_pad :
    ¬ Apart padDeps {} [padByAlias, padByModel] ∧ Apart padDeps {} [padByModel] ∧
      ∀ paths ⊆ padDeps.devicePaths,
        (nodes padDeps (resolveEvdevInterfaces (padDeps.present paths) {} [padByModel])).Nodup := by
  have halone : Apart padDeps {} [padByModel] :=
    ⟨fun _ _ hpair => absurd hpair.length_le (by simp),
      fun _ _ hpair => absurd hpair.length_le (by simp)⟩
  have hdistinct : ([padByModel].filter isConcrete).Pairwise
      fun a b => node padDeps a ≠ node padDeps b := by
    rw [List.filter_cons_of_neg (Bool.eq_false_iff.mp padByModel_model)]
    exact List.Pairwise.nil
  have hfree : isFree padDeps {} padByModel (node padDeps padByAlias) = true := by
    rw [padByAlias_node]
    exact padByModel_free
  refine ⟨fun hapart => ?_, halone,
    (interfaces_distinct_iff padDeps {} [padByModel] padDeps_real hdistinct).2.mpr halone⟩
  have hname := hapart.earlier padByAlias padByModel (List.Sublist.refl _) padByAlias_kept hfree
  rw [padByAlias_node] at hname
  exact absurd hname (by decide)

end

end Keymasq.Grab.Interfaces
