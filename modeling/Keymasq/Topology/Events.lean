import Keymasq.Combo.Names
import Keymasq.Foundation.Dict
import Keymasq.Foundation.Sorting

/-!
# Topology events

Two scans of the input devices are compared by stable path. What appeared,
disappeared or changed is announced if its hardware is desired, and hardware that
must be grabbed again is announced although the scans agree.
-/

namespace Keymasq.Topology.Events
open Foundation Foundation.Sorting Combo.Names

/-- `str.isdecimal()`. -/
class PyDecimal where
  isdecimal : String → Bool

structure LiveInterfaceInfo where
  hardwareId : String
  vendorId : String
  productId : String
  stablePath : String
  path : String
  interfaceId : String
  phys : String := ""
  deviceType : String := ""
  capabilities : List String := []
  registration : String := ""
  deriving DecidableEq

/-- The entries of a scan, each under its own stable path. -/
structure Snapshot where
  entries : Dict String LiveInterfaceInfo
  keyed : ∀ path info, entries.get? path = some info → info.stablePath = path
  deriving DecidableEq

theorem keyed_empty (path : String) (info : LiveInterfaceInfo)
    (h : (∅ : Dict String LiveInterfaceInfo).get? path = some info) : info.stablePath = path := by
  cases h

def Snapshot.empty : Snapshot := ⟨∅, keyed_empty⟩

theorem keyed_insert (snapshot : Snapshot) (info : LiveInterfaceInfo) (path : String)
    (info' : LiveInterfaceInfo)
    (h : (snapshot.entries.insert info.stablePath info).get? path = some info') :
    info'.stablePath = path := by
  rw [Dict.get?_insert] at h
  split at h
  · rename_i hpath
    cases h
    exact hpath.symm
  · exact snapshot.keyed path info' h

/-- `snapshot[stable_path] = LiveInterfaceInfo(...)`. -/
def Snapshot.add (snapshot : Snapshot) (info : LiveInterfaceInfo) : Snapshot :=
  ⟨snapshot.entries.insert info.stablePath info, keyed_insert snapshot info⟩

inductive CommandType
  | deviceConnected
  | deviceDisconnected
  deriving DecidableEq

/-- The payload of an event; an empty optional field is left out of it. -/
structure Payload where
  hardwareId : String
  vendorId : String
  productId : String
  path : String
  stablePath : String
  interfaceId : String
  phys : Option String
  deviceType : Option String
  capabilities : Option (List String)
  deriving DecidableEq

abbrev Event := CommandType × Payload

def liveInterfacePayload (info : LiveInterfaceInfo) : Payload where
  hardwareId := info.hardwareId
  vendorId := info.vendorId
  productId := info.productId
  path := info.path
  stablePath := info.stablePath
  interfaceId := info.interfaceId
  phys := if info.phys = "" then none else some info.phys
  deviceType := if info.deviceType = "" then none else some info.deviceType
  capabilities := if info.capabilities = [] then none else some info.capabilities

variable [PyStr]

/-! ## Desired hardware -/

def normalizeHardwareId (hardwareId : String) : String := PyStr.lower (PyStr.strip hardwareId)

/-- The base and the interface of a desired hardware id, split at its first `@`. -/
def splitDesiredHardwareId (desiredHardwareId : String) : String × String :=
  let normalized := (normalizeHardwareId desiredHardwareId).toList
  (String.ofList (normalized.takeWhile (· ≠ '@')),
    String.ofList ((normalized.dropWhile (· ≠ '@')).drop 1))

variable [PyDecimal]

/- A decimal suffix names an instance of the device and leaves the interface open. -/
def hardwareIdMatchesDesired (hardwareId : String) (desiredHardwareIds : List String)
    (interfaceId : String) : Bool :=
  let normalized := normalizeHardwareId hardwareId
  if normalized = "" then false
  else desiredHardwareIds.any fun desired =>
    let (desiredBase, desiredInterface) := splitDesiredHardwareId desired
    desiredBase = normalized &&
      (desiredInterface = "" || PyDecimal.isdecimal desiredInterface ||
        desiredInterface = normalizeHardwareId interfaceId)

def liveInterfaceMatchesDesired (info : LiveInterfaceInfo) (desiredHardwareIds : List String) :
    Bool :=
  hardwareIdMatchesDesired info.hardwareId desiredHardwareIds info.interfaceId

/-! ## Changes and hidden sources -/

omit [PyDecimal] in
def liveInterfaceChanged (previous current : LiveInterfaceInfo) : Bool :=
  normalizeHardwareId previous.hardwareId ≠ normalizeHardwareId current.hardwareId ||
    previous.path ≠ current.path || previous.interfaceId ≠ current.interfaceId ||
    (previous.registration ≠ "" && current.registration ≠ "" &&
      previous.registration ≠ current.registration)

omit [PyStr] [PyDecimal] in
def liveInterfaceConnectIsHiddenSourceChurn (stablePath : String) (previous : Snapshot)
    (currentInfo : LiveInterfaceInfo) (hiddenSourcePaths : List String) : Bool :=
  match previous.entries.get? stablePath with
  | none => false
  | some previousInfo =>
    currentInfo.path ∈ hiddenSourcePaths && previousInfo.path ∈ hiddenSourcePaths

omit [PyDecimal] in
def liveInterfaceIsHiddenSourceChurn (info : LiveInterfaceInfo) (current : Snapshot)
    (hiddenSourcePaths : List String) : Bool :=
  info.path ∈ hiddenSourcePaths && current.entries.values.any fun candidate =>
    candidate.path = info.path &&
      normalizeHardwareId candidate.hardwareId = normalizeHardwareId info.hardwareId

/-! ## The events of a comparison -/

variable (previous current : Snapshot) (desired hidden : List String)

/-- The disconnection of an interface that was listed as `info`. -/
def disconnectedEvents (info : LiveInterfaceInfo) : List Event :=
  if liveInterfaceIsHiddenSourceChurn info current hidden then []
  else if ¬ liveInterfaceMatchesDesired info desired then []
  else [(.deviceDisconnected, liveInterfacePayload info)]

/-- The connection of an interface that is listed as `info`. -/
def connectedEvents (stablePath : String) (info : LiveInterfaceInfo) : List Event :=
  if liveInterfaceConnectIsHiddenSourceChurn stablePath previous info hidden then []
  else if ¬ liveInterfaceMatchesDesired info desired then []
  else [(.deviceConnected, liveInterfacePayload info)]

/-- The events about one stable path. -/
def pathEvents (stablePath : String) : List Event :=
  match previous.entries.get? stablePath, current.entries.get? stablePath with
  | some previousInfo, none => disconnectedEvents current desired hidden previousInfo
  | some previousInfo, some currentInfo =>
    if ¬ liveInterfaceChanged previousInfo currentInfo then []
    else
      disconnectedEvents current desired hidden previousInfo ++
        connectedEvents previous desired hidden stablePath currentInfo
  | none, some currentInfo => connectedEvents previous desired hidden stablePath currentInfo
  | none, none => []

/-- What disappeared, then what changed, then what appeared, each in order of the paths. -/
def buildTopologyEvents : List Event :=
  let sorted (paths : List String) : List String := sortedOn id paths
  let old := previous.entries.keys
  let new := current.entries.keys
  (sorted (old.filter fun path => path ∉ new)).flatMap (pathEvents previous current desired hidden) ++
  (sorted (old.filter fun path => path ∈ new)).flatMap (pathEvents previous current desired hidden) ++
  (sorted (new.filter fun path => path ∉ old)).flatMap (pathEvents previous current desired hidden)

/-! ## One reconcile -/

/- What a reconcile of `current` with the reconciled snapshot `previous` reads
under the operation lock. -/
structure Reconcile where
  previous : Snapshot
  current : Snapshot
  desiredHardwareIds : List String
  hiddenSourcePaths : List String
  maskedHardwareIds : List String
  validateReaders : Bool
  reannounce : List String
  deriving DecidableEq

/-- The desired hardware to announce again although discovery is unchanged. -/
def Reconcile.reapplied (r : Reconcile) : List String :=
  (if r.validateReaders then r.desiredHardwareIds
    else r.desiredHardwareIds.filter fun id => id ∈ r.reannounce).filter
    fun id => id ∉ r.maskedHardwareIds

/-- Announce an interface again unless its event is there already. -/
def announceAgain (reapplied : List String) (events : List Event) (info : LiveInterfaceInfo) :
    List Event :=
  if liveInterfaceMatchesDesired info reapplied ∧
      (CommandType.deviceConnected, liveInterfacePayload info) ∉ events then
    events ++ [(.deviceConnected, liveInterfacePayload info)]
  else events

def Reconcile.events (r : Reconcile) : List Event :=
  r.current.entries.values.foldl (announceAgain r.reapplied)
    (buildTopologyEvents r.previous r.current r.desiredHardwareIds r.hiddenSourcePaths)

/-! ## The events about one path -/

/-- The events about one stable path, in their order. -/
def about (stablePath : String) (events : List Event) : List Event :=
  events.filter fun e => e.2.stablePath = stablePath

omit [PyStr] [PyDecimal] in
@[simp] theorem about_append (stablePath : String) (events events' : List Event) :
    about stablePath (events ++ events') = about stablePath events ++ about stablePath events' :=
  List.filter_append ..

variable {stablePath : String}

omit [PyStr] [PyDecimal] in
theorem about_self {events : List Event} (h : ∀ e ∈ events, e.2.stablePath = stablePath) :
    about stablePath events = events :=
  List.filter_eq_self.mpr fun e he => by simpa using h e he

omit [PyStr] [PyDecimal] in
theorem about_other {stablePath' : String} {events : List Event}
    (h : ∀ e ∈ events, e.2.stablePath = stablePath') (hne : stablePath' ≠ stablePath) :
    about stablePath events = [] := by
  refine List.filter_eq_nil_iff.mpr fun e he => ?_
  simp [h e he, hne]

omit [PyStr] [PyDecimal] in
/-- Of events made path by path, those about one path are its own. -/
theorem about_flatMap (f : String → List Event) (hf : ∀ path, ∀ e ∈ f path, e.2.stablePath = path)
    {paths : List String} (hnodup : paths.Nodup) (stablePath : String) :
    about stablePath (paths.flatMap f) = if stablePath ∈ paths then f stablePath else [] := by
  induction paths with
  | nil => rfl
  | cons path paths ih =>
    obtain ⟨hnot, hrest⟩ := List.nodup_cons.mp hnodup
    rw [List.flatMap_cons, about_append, ih hrest]
    by_cases heq : path = stablePath
    · subst heq
      rw [about_self (hf path)]
      simp [hnot]
    · rw [about_other (hf path) heq]
      simp [Ne.symm heq]

theorem pathEvents_about {previous current : Snapshot} {desired hidden : List String}
    (stablePath : String) :
    ∀ e ∈ pathEvents previous current desired hidden stablePath, e.2.stablePath = stablePath := by
  intro e he
  have hdisconnected (info : LiveInterfaceInfo) (hinfo : info.stablePath = stablePath)
      (h : e ∈ disconnectedEvents current desired hidden info) : e.2.stablePath = stablePath := by
    unfold disconnectedEvents at h
    split at h
    · cases h
    · split at h
      · cases h
      · rw [List.mem_singleton.mp h]
        exact hinfo
  have hconnected (info : LiveInterfaceInfo) (hinfo : info.stablePath = stablePath)
      (h : e ∈ connectedEvents previous desired hidden stablePath info) :
      e.2.stablePath = stablePath := by
    unfold connectedEvents at h
    split at h
    · cases h
    · split at h
      · cases h
      · rw [List.mem_singleton.mp h]
        exact hinfo
  unfold pathEvents at he
  cases hp : previous.entries.get? stablePath with
  | none =>
    cases hc : current.entries.get? stablePath with
    | none =>
      rw [hp, hc] at he
      cases he
    | some info =>
      rw [hp, hc] at he
      exact hconnected info (current.keyed stablePath info hc) he
  | some old =>
    have hold := previous.keyed stablePath old hp
    cases hc : current.entries.get? stablePath with
    | none =>
      rw [hp, hc] at he
      exact hdisconnected old hold he
    | some info =>
      rw [hp, hc] at he
      simp only at he
      split at he
      · cases he
      · obtain h | h := List.mem_append.mp he
        · exact hdisconnected old hold h
        · exact hconnected info (current.keyed stablePath info hc) h

/-- A comparison says about a path what the entries of that path say. -/
theorem about_buildTopologyEvents (previous current : Snapshot) (desired hidden : List String)
    (stablePath : String) :
    about stablePath (buildTopologyEvents previous current desired hidden) =
      pathEvents previous current desired hidden stablePath := by
  have hsorted (paths : List String) (h : paths.Nodup) (p : String → Bool) :
      about stablePath ((sortedOn id (paths.filter p)).flatMap
        (pathEvents previous current desired hidden)) =
        if stablePath ∈ paths ∧ p stablePath = true then
          pathEvents previous current desired hidden stablePath else [] := by
    have hperm := sortedOn_perm id (paths.filter p)
    rw [about_flatMap _ pathEvents_about (hperm.nodup_iff.mpr (h.filter p)) stablePath]
    simp [hperm.mem_iff]
  have hold := hsorted previous.entries.keys previous.entries.nodup
  have hnew := hsorted current.entries.keys current.entries.nodup
  unfold buildTopologyEvents
  simp only [about_append, hold, hnew]
  by_cases hp : stablePath ∈ previous.entries.keys
  · by_cases hc : stablePath ∈ current.entries.keys
    · simp [hp, hc]
    · simp [hp, hc]
  · by_cases hc : stablePath ∈ current.entries.keys
    · simp [hp, hc]
    · have hpnone := Dict.get?_eq_none_iff.mpr hp
      have hcnone := Dict.get?_eq_none_iff.mpr hc
      simp [hp, hc, pathEvents, hpnone, hcnone]

/-- Announcing again adds connections of the listed interfaces that were not there. -/
theorem about_announceAgain (reapplied : List String) (infos : List LiveInterfaceInfo)
    (events : List Event) (stablePath : String) :
    ∃ again, about stablePath (infos.foldl (announceAgain reapplied) events) =
        about stablePath events ++ again ∧
      ∀ e ∈ again, e ∉ about stablePath events ∧
        ∃ info ∈ infos, info.stablePath = stablePath ∧
          e = (.deviceConnected, liveInterfacePayload info) := by
  induction infos generalizing events with
  | nil => exact ⟨[], by simp, by simp⟩
  | cons info infos ih =>
    obtain ⟨again, heq, hagain⟩ := ih (announceAgain reapplied events info)
    rw [List.foldl_cons, heq]
    by_cases hadds : liveInterfaceMatchesDesired info reapplied ∧
        (CommandType.deviceConnected, liveInterfacePayload info) ∉ events
    · have hnext : announceAgain reapplied events info =
          events ++ [(.deviceConnected, liveInterfacePayload info)] := if_pos hadds
      rw [hnext, about_append] at hagain ⊢
      refine ⟨about stablePath [(.deviceConnected, liveInterfacePayload info)] ++ again,
        by rw [List.append_assoc], fun e he => ?_⟩
      obtain hnew | hlater := List.mem_append.mp he
      · obtain ⟨hsingle, habout⟩ := List.mem_filter.mp hnew
        rw [List.mem_singleton] at hsingle
        rw [hsingle] at habout ⊢
        refine ⟨fun hin => hadds.2 (List.mem_filter.mp hin).1, info, List.mem_cons_self, ?_, rfl⟩
        exact of_decide_eq_true habout
      · obtain ⟨hnot, info', hin, hpath, he'⟩ := hagain e hlater
        exact ⟨fun h => hnot (List.mem_append_left _ h), info', List.mem_cons_of_mem _ hin,
          hpath, he'⟩
    · have hnext : announceAgain reapplied events info = events := if_neg hadds
      rw [hnext] at hagain ⊢
      refine ⟨again, rfl, fun e he => ?_⟩
      obtain ⟨hnot, info', hin, hpath, he'⟩ := hagain e he
      exact ⟨hnot, info', List.mem_cons_of_mem _ hin, hpath, he'⟩

/-- What a reconcile says about a path: its change, or else its connection again. -/
theorem about_reconcile (r : Reconcile) (stablePath : String) :
    ∃ again, about stablePath r.events =
        pathEvents r.previous r.current r.desiredHardwareIds r.hiddenSourcePaths stablePath ++
          again ∧
      ∀ e ∈ again, e ∉ pathEvents r.previous r.current r.desiredHardwareIds r.hiddenSourcePaths
          stablePath ∧
        ∃ info, r.current.entries.get? stablePath = some info ∧
          e = (.deviceConnected, liveInterfacePayload info) := by
  obtain ⟨again, heq, hagain⟩ := about_announceAgain r.reapplied r.current.entries.values
    (buildTopologyEvents r.previous r.current r.desiredHardwareIds r.hiddenSourcePaths) stablePath
  rw [about_buildTopologyEvents] at heq hagain
  refine ⟨again, heq, fun e he => ?_⟩
  obtain ⟨hnot, info, hin, hpath, he'⟩ := hagain e he
  obtain ⟨path, hget⟩ := Dict.mem_values_iff.mp hin
  have hkey := r.current.keyed path info hget
  refine ⟨hnot, info, ?_, he'⟩
  rw [← hpath, hkey]
  exact hget

/-! ## Changes and their announcement -/

/-- The reconcile finds the interface of a path to appear, disappear or change. -/
def Reconcile.Changes (r : Reconcile) (stablePath : String) : Prop :=
  match r.previous.entries.get? stablePath, r.current.entries.get? stablePath with
  | none, none => False
  | some previousInfo, some currentInfo => liveInterfaceChanged previousInfo currentInfo = true
  | _, _ => True

/-- The changed interface is of desired hardware and not a hidden source listed anew. -/
def Reconcile.Announces (r : Reconcile) (stablePath : String) : Prop :=
  match r.current.entries.get? stablePath, r.previous.entries.get? stablePath with
  | some info, _ =>
    liveInterfaceMatchesDesired info r.desiredHardwareIds = true ∧
      liveInterfaceConnectIsHiddenSourceChurn stablePath r.previous info r.hiddenSourcePaths = false
  | none, some info =>
    liveInterfaceMatchesDesired info r.desiredHardwareIds = true ∧
      liveInterfaceIsHiddenSourceChurn info r.current r.hiddenSourcePaths = false
  | none, none => False

/-- An event carries the hardware, the path and the interface of an entry. -/
def Reflects (payload : Payload) (info : LiveInterfaceInfo) : Prop :=
  normalizeHardwareId payload.hardwareId = normalizeHardwareId info.hardwareId ∧
    payload.path = info.path ∧ payload.interfaceId = info.interfaceId

def lastAbout (stablePath : String) (events : List Event) : Option Event :=
  (about stablePath events).getLast?

/- The last event about a path connects it as it is listed now, or disconnects
it as it was listed before it went. -/
def Announced (events : List Event) (stablePath : String)
    (before now : Option LiveInterfaceInfo) : Prop :=
  match now with
  | some info => ∃ payload, lastAbout stablePath events = some (.deviceConnected, payload) ∧
      Reflects payload info
  | none => ∃ info, before = some info ∧
      lastAbout stablePath events = some (.deviceDisconnected, liveInterfacePayload info)

omit [PyStr] [PyDecimal] in
theorem lastAbout_append_of_some (events : List Event) {events' : List Event} {e : Event}
    (h : lastAbout stablePath events' = some e) :
    lastAbout stablePath (events ++ events') = some e := by
  unfold lastAbout at h ⊢
  rw [about_append, List.getLast?_append, h]
  rfl

omit [PyStr] [PyDecimal] in
theorem lastAbout_append_of_none (events : List Event) {events' : List Event}
    (h : about stablePath events' = []) :
    lastAbout stablePath (events ++ events') = lastAbout stablePath events := by
  unfold lastAbout
  rw [about_append, h, List.append_nil]

omit [PyDecimal] in
theorem reflects_self (info : LiveInterfaceInfo) : Reflects (liveInterfacePayload info) info :=
  ⟨rfl, rfl, rfl⟩

omit [PyDecimal] in
theorem reflects_unchanged {payload : Payload} {info info' : LiveInterfaceInfo}
    (h : Reflects payload info) (hsame : ¬ liveInterfaceChanged info info' = true) :
    Reflects payload info' := by
  obtain ⟨hhardware, hpath, hinterface⟩ := h
  simp only [liveInterfaceChanged, Bool.or_eq_true, decide_eq_true_eq, not_or, not_not] at hsame
  exact ⟨hhardware.trans hsame.1.1.1, hpath.trans hsame.1.1.2, hinterface.trans hsame.1.2⟩

/-- An announced change is the last thing its reconcile says about the path. -/
theorem announced_change {r : Reconcile} (hchanges : r.Changes stablePath)
    (hannounces : r.Announces stablePath) :
    Announced r.events stablePath (r.previous.entries.get? stablePath)
      (r.current.entries.get? stablePath) := by
  obtain ⟨again, habout, hagain⟩ := about_reconcile r stablePath
  unfold Reconcile.Changes at hchanges
  unfold Reconcile.Announces at hannounces
  unfold pathEvents at habout hagain
  unfold Announced
  cases hc : r.current.entries.get? stablePath with
  | none =>
    cases hp : r.previous.entries.get? stablePath with
    | none => simp [hc, hp] at hchanges
    | some old =>
      simp only [hc, hp] at hannounces habout hagain
      have hnothing : again = [] := by
        refine List.eq_nil_iff_forall_not_mem.mpr fun e he => ?_
        obtain ⟨-, info, hget, -⟩ := hagain e he
        simp at hget
      refine ⟨old, rfl, ?_⟩
      unfold lastAbout
      rw [habout, hnothing]
      simp [disconnectedEvents, hannounces]
  | some info =>
    simp only [hc] at hannounces habout hagain
    have hconnected : connectedEvents r.previous r.desiredHardwareIds r.hiddenSourcePaths
        stablePath info = [(.deviceConnected, liveInterfacePayload info)] := by
      simp [connectedEvents, hannounces]
    obtain ⟨first, hfirst⟩ : ∃ first, about stablePath r.events =
        first ++ [(.deviceConnected, liveInterfacePayload info)] ++ again ∧
        ∀ e ∈ again, e ∉ first ++ [(.deviceConnected, liveInterfacePayload info)] ∧
          e = (.deviceConnected, liveInterfacePayload info) := by
      cases hp : r.previous.entries.get? stablePath with
      | none =>
        simp only [hp, hconnected] at habout hagain
        refine ⟨[], by simpa using habout, fun e he => ?_⟩
        obtain ⟨hnot, info', hget, he'⟩ := hagain e he
        cases hget
        exact ⟨by simpa using hnot, he'⟩
      | some old =>
        simp only [hc, hp] at hchanges
        simp only [hp, hconnected, hchanges, not_true_eq_false, if_false] at habout hagain
        refine ⟨_, habout, fun e he => ?_⟩
        obtain ⟨hnot, info', hget, he'⟩ := hagain e he
        cases hget
        exact ⟨hnot, he'⟩
    have hnothing : again = [] := by
      refine List.eq_nil_iff_forall_not_mem.mpr fun e he => ?_
      obtain ⟨hnot, he'⟩ := hfirst.2 e he
      exact hnot (by simp [he'])
    refine ⟨liveInterfacePayload info, ?_, reflects_self info⟩
    unfold lastAbout
    rw [hfirst.1, hnothing]
    simp

/-- A reconcile that does not change a path leaves its announcement in force. -/
theorem announced_unchanged {r : Reconcile} {events : List Event}
    {before : Option LiveInterfaceInfo}
    (h : Announced events stablePath before (r.previous.entries.get? stablePath))
    (hsame : ¬ r.Changes stablePath) :
    Announced (events ++ r.events) stablePath before (r.current.entries.get? stablePath) := by
  obtain ⟨again, habout, hagain⟩ := about_reconcile r stablePath
  unfold Reconcile.Changes at hsame
  unfold pathEvents at habout hagain
  unfold Announced at h ⊢
  cases hc : r.current.entries.get? stablePath with
  | none =>
    cases hp : r.previous.entries.get? stablePath with
    | some old => simp [hc, hp] at hsame
    | none =>
      simp only [hp, hc] at h habout hagain
      obtain ⟨info, hbefore, hlast⟩ := h
      have hnothing : again = [] := by
        refine List.eq_nil_iff_forall_not_mem.mpr fun e he => ?_
        obtain ⟨-, info, hget, -⟩ := hagain e he
        simp at hget
      refine ⟨info, hbefore, ?_⟩
      rw [lastAbout_append_of_none events (by rw [habout, hnothing]; rfl)]
      exact hlast
  | some info =>
    cases hp : r.previous.entries.get? stablePath with
    | none => simp [hc, hp] at hsame
    | some old =>
      simp only [hc, hp] at hsame h
      simp only [hp, hc, hsame, Bool.false_eq_true, not_false_eq_true, if_true,
        List.nil_append] at habout hagain
      obtain ⟨payload, hlast, hreflects⟩ := h
      cases hlast' : again.getLast? with
      | none =>
        rw [List.getLast?_eq_none_iff.mp hlast'] at habout
        exact ⟨payload, by rw [lastAbout_append_of_none events habout]; exact hlast,
          reflects_unchanged hreflects hsame⟩
      | some e =>
        obtain ⟨-, info', hget, he⟩ := hagain e (List.mem_of_getLast? hlast')
        cases hget
        refine ⟨liveInterfacePayload info, ?_, reflects_self info⟩
        rw [← he]
        exact lastAbout_append_of_some events (by unfold lastAbout; rw [habout, hlast'])

end Keymasq.Topology.Events
