import Keymasq.Foundation.Json
import Keymasq.Foundation.Totals
import Keymasq.Foundation.Transition

/-!
# The replay cache

A macro played from its file is a candidate for the cache: its events are weighed as they
are read, and a candidate read to its end is stored. The least recently used entries make
room for new events.
-/

namespace Keymasq.Macros.ReplayCache
open Foundation Json Transition

/-! ## The weight of an event -/

/-- `sys.getsizeof(value)`, of the value alone, and the size of a slot of a tuple. -/
class PySizes where
  getsizeof : Value → ℕ
  eventSlotBytes : ℕ

section Weight

variable [PySizes]

mutual

/- `estimate(value)`: a value with all it holds. -/
def estimate : Value → ℕ
  | .obj fields => PySizes.getsizeof (.obj fields) + estimateFields fields
  | .arr items => PySizes.getsizeof (.arr items) + estimateItems items
  | value => PySizes.getsizeof value

def estimateFields : List (String × Value) → ℕ
  | [] => 0
  | (key, item) :: fields => PySizes.getsizeof (.str key) + estimate item + estimateFields fields

def estimateItems : List Value → ℕ
  | [] => 0
  | item :: items => estimate item + estimateItems items

end

abbrev MacroEvent := List (String × Value)

def estimateEventHeapBytes (event : MacroEvent) : ℤ :=
  (PySizes.eventSlotBytes + estimate (.obj event) : ℕ)

end Weight

/-! ## The cache -/

/-- A revision of a macro file: its path and what its file looks like. -/
structure MacroFileRevision (P I : Type*) where
  path : P
  identity : I
  deriving DecidableEq

section Cache
variable {P I : Type*}

structure MacroCacheEntry (P I : Type*) where
  revision : MacroFileRevision P I
  eventCount : ℤ
  durationUs : ℤ
  events : List MacroEvent
  weight : ℤ

/-- One streamed iteration that may be admitted to the cache. -/
structure MacroCacheCandidate (P I : Type*) where
  revision : MacroFileRevision P I
  eventCount : ℤ
  durationUs : ℤ
  events : List MacroEvent := []
  weight : ℤ := 0
  active : Bool := true

structure MacroReplayCache (P I : Type*) where
  maxBytes : ℤ
  entries : Dict (MacroFileRevision P I) (MacroCacheEntry P I) := ∅
  ineligible : List (MacroFileRevision P I) := []
  residentBytes : ℤ := 0
  candidateBytes : ℤ := 0

def newCache (maxBytes : ℤ) : MacroReplayCache P I := { maxBytes := max 0 maxBytes }

def maxIneligibleRevisions : ℕ := 256

variable [DecidableEq P] [DecidableEq I]

namespace MacroReplayCache

def totalBytes (cache : MacroReplayCache P I) : ℤ := cache.residentBytes + cache.candidateBytes

/- `self._entries.pop(revision)` and the bytes it frees. -/
def popEntry (cache : MacroReplayCache P I) (revision : MacroFileRevision P I) :
    MacroReplayCache P I :=
  match cache.entries.get? revision with
  | none => cache
  | some entry =>
    { cache with
      entries := cache.entries.erase revision
      residentBytes := cache.residentBytes - entry.weight }

/- Another revision of the same file. -/
def outdates (current revision : MacroFileRevision P I) : Bool :=
  revision.path = current.path && revision ≠ current

def discardOtherRevisions (cache : MacroReplayCache P I) (current : MacroFileRevision P I) :
    MacroReplayCache P I :=
  let outdated := cache.entries.keys.filter (outdates current)
  let cache := outdated.foldl popEntry cache
  { cache with ineligible := cache.ineligible.filter (!outdates current ·) }

def get (cache : MacroReplayCache P I) (revision : MacroFileRevision P I) :
    Option (MacroCacheEntry P I) × MacroReplayCache P I :=
  let cache := cache.discardOtherRevisions revision
  match cache.entries.get? revision with
  | none => (none, cache)
  | some entry =>
    (some entry, { cache with entries := (cache.entries.erase revision).insert revision entry })

/- No candidate where nothing can be cached or the revision is known already. -/
def beginCandidate (cache : MacroReplayCache P I) (revision : MacroFileRevision P I)
    (eventCount durationUs : ℤ) : Option (MacroCacheCandidate P I) × MacroReplayCache P I :=
  let cache := cache.discardOtherRevisions revision
  if cache.maxBytes ≤ 0 ∨ eventCount ≤ 0 ∨ cache.entries.contains revision ∨
      revision ∈ cache.ineligible then
    (none, cache)
  else
    (some {
      revision := revision
      eventCount := max 0 eventCount
      durationUs := max 0 durationUs }, cache)

/- Evict from the front until the bytes fit, at most as many entries as there are. -/
def evict (required : ℤ) : ℕ → MacroReplayCache P I → MacroReplayCache P I
  | 0, cache => cache
  | n + 1, cache =>
    if cache.totalBytes + required > cache.maxBytes then
      match cache.entries.keys with
      | [] => cache
      | revision :: _ => evict required n (cache.popEntry revision)
    else cache

def reserveCandidateBytes (cache : MacroReplayCache P I) (weight : ℤ) :
    Bool × MacroReplayCache P I :=
  let required := max 0 weight
  let cache := evict required cache.entries.keys.length cache
  if cache.totalBytes + required > cache.maxBytes then (false, cache)
  else (true, { cache with candidateBytes := cache.candidateBytes + required })

/- `max(0, self._candidate_bytes - max(0, candidate_bytes))`. -/
def releaseBytes (cache : MacroReplayCache P I) (bytes : ℤ) : MacroReplayCache P I :=
  { cache with candidateBytes := max 0 (cache.candidateBytes - max 0 bytes) }

def commitCandidate (cache : MacroReplayCache P I) (entry : MacroCacheEntry P I)
    (candidateBytes : ℤ) : MacroReplayCache P I :=
  let cache := (cache.releaseBytes candidateBytes).popEntry entry.revision
  { cache with
    entries := cache.entries.insert entry.revision entry
    residentBytes := cache.residentBytes + entry.weight
    ineligible := cache.ineligible.filter (· ≠ entry.revision) }

def releaseCandidate (cache : MacroReplayCache P I) (revision : MacroFileRevision P I)
    (weight : ℤ) (ineligible : Bool) : MacroReplayCache P I :=
  let cache := cache.releaseBytes weight
  if ineligible then
    let marked := cache.ineligible.filter (· ≠ revision) ++ [revision]
    { cache with ineligible := marked.drop (marked.length - maxIneligibleRevisions) }
  else cache

end MacroReplayCache

/-! ## One operation of the cache -/

/- The resident bytes are the weight of the entries, and each entry has its own key. -/
structure Balanced (cache : MacroReplayCache P I) : Prop where
  resident : cache.residentBytes = cache.entries.total (·.weight)
  keyed : ∀ revision entry, cache.entries.get? revision = some entry → entry.revision = revision
  nonneg : ∀ revision entry, cache.entries.get? revision = some entry → 0 ≤ entry.weight

/- What dropping entries leaves. -/
structure Trimmed (cache cache' : MacroReplayCache P I) : Prop where
  balanced : Balanced cache'
  maxBytes : cache'.maxBytes = cache.maxBytes
  candidateBytes : cache'.candidateBytes = cache.candidateBytes
  residentBytes : cache'.residentBytes ≤ cache.residentBytes
  entries : ∀ revision entry, cache'.entries.get? revision = some entry →
    cache.entries.get? revision = some entry

section Operations

variable {cache cache' : MacroReplayCache P I}

theorem Trimmed.refl (h : Balanced cache) : Trimmed cache cache :=
  ⟨h, rfl, rfl, le_refl _, fun _ _ he => he⟩

theorem Trimmed.trans {cache'' : MacroReplayCache P I} (h : Trimmed cache cache')
    (h' : Trimmed cache' cache'') : Trimmed cache cache'' :=
  ⟨h'.balanced, h'.maxBytes.trans h.maxBytes, h'.candidateBytes.trans h.candidateBytes,
    le_trans h'.residentBytes h.residentBytes,
    fun revision entry he => h.entries revision entry (h'.entries revision entry he)⟩

theorem Trimmed.totalBytes (h : Trimmed cache cache') : cache'.totalBytes ≤ cache.totalBytes := by
  have hresident := h.residentBytes
  have hcandidate := h.candidateBytes
  unfold MacroReplayCache.totalBytes
  omega

theorem popEntry_trimmed (h : Balanced cache) (revision : MacroFileRevision P I) :
    Trimmed cache (cache.popEntry revision) := by
  unfold MacroReplayCache.popEntry
  split
  next => exact Trimmed.refl h
  next entry hentry =>
    have hsub : ∀ r e, (cache.entries.erase revision).get? r = some e →
        cache.entries.get? r = some e := fun r e he => (Dict.get?_filter_eq_some.mp he).1
    refine ⟨⟨?_, fun r e he => h.keyed r e (hsub r e he),
      fun r e he => h.nonneg r e (hsub r e he)⟩, rfl, rfl, ?_, hsub⟩
    · have htotal := Dict.total_erase (·.weight) hentry
      have hresident := h.resident
      simp only
      omega
    · exact sub_le_self _ (h.nonneg revision entry hentry)

theorem foldl_popEntry_trimmed (revisions : List (MacroFileRevision P I)) (h : Balanced cache) :
    Trimmed cache (revisions.foldl MacroReplayCache.popEntry cache) := by
  induction revisions generalizing cache with
  | nil => exact Trimmed.refl h
  | cons revision revisions ih =>
    have hpop := popEntry_trimmed h revision
    exact hpop.trans (ih hpop.balanced)

/- The list of revisions that are not cached takes no part in the accounts. -/
theorem Trimmed.mark (h : Trimmed cache cache') (ineligible : List (MacroFileRevision P I)) :
    Trimmed cache { cache' with ineligible := ineligible } :=
  ⟨⟨h.balanced.resident, h.balanced.keyed, h.balanced.nonneg⟩, h.maxBytes, h.candidateBytes,
    h.residentBytes, h.entries⟩

theorem discardOtherRevisions_trimmed (h : Balanced cache) (current : MacroFileRevision P I) :
    Trimmed cache (cache.discardOtherRevisions current) :=
  (foldl_popEntry_trimmed _ h).mark _

theorem evict_trimmed (required : ℤ) (n : ℕ) (h : Balanced cache) :
    Trimmed cache (MacroReplayCache.evict required n cache) := by
  induction n generalizing cache with
  | zero => exact Trimmed.refl h
  | succ n ih =>
    unfold MacroReplayCache.evict
    split
    next =>
      split
      next => exact Trimmed.refl h
      next revision _ _ =>
        have hpop := popEntry_trimmed h revision
        exact hpop.trans (ih hpop.balanced)
    next => exact Trimmed.refl h

/-- Putting the entry back at the end changes nothing that is accounted for. -/
theorem get_trimmed (h : Balanced cache) (revision : MacroFileRevision P I) :
    Trimmed cache (cache.get revision).2 := by
  have htrimmed := discardOtherRevisions_trimmed h revision
  unfold MacroReplayCache.get
  simp only
  split
  next => exact htrimmed
  next entry hentry =>
    have hsame : ∀ r, (((cache.discardOtherRevisions revision).entries.erase revision).insert
        revision entry).get? r = (cache.discardOtherRevisions revision).entries.get? r := by
      intro r
      rw [Dict.get?_insert]
      split
      next heq => rw [heq, hentry]
      next hne => rw [Dict.get?_erase_of_ne _ hne]
    refine htrimmed.trans ⟨⟨?_, ?_, ?_⟩, rfl, rfl, le_refl _, ?_⟩
    · rw [Dict.total_insert_new _ (Dict.get?_erase_self _ _), ← Dict.total_erase _ hentry]
      exact htrimmed.balanced.resident
    · intro r e he
      rw [hsame] at he
      exact htrimmed.balanced.keyed r e he
    · intro r e he
      rw [hsame] at he
      exact htrimmed.balanced.nonneg r e he
    · intro r e he
      rw [hsame] at he
      exact he

theorem beginCandidate_trimmed (h : Balanced cache) (revision : MacroFileRevision P I)
    (eventCount durationUs : ℤ) :
    Trimmed cache (cache.beginCandidate revision eventCount durationUs).2 := by
  unfold MacroReplayCache.beginCandidate
  simp only
  split
  next => exact discardOtherRevisions_trimmed h revision
  next => exact discardOtherRevisions_trimmed h revision

/-- Bytes are reserved where they fit after the evictions, and not at all otherwise. -/
theorem reserveCandidateBytes_spec (h : Balanced cache) (weight : ℤ) :
    ∃ evicted, Trimmed cache evicted ∧
      (cache.reserveCandidateBytes weight = (false, evicted) ∨
        evicted.totalBytes + max 0 weight ≤ evicted.maxBytes ∧
        cache.reserveCandidateBytes weight =
          (true, { evicted with candidateBytes := evicted.candidateBytes + max 0 weight })) := by
  refine ⟨_, evict_trimmed (max 0 weight) cache.entries.keys.length h, ?_⟩
  unfold MacroReplayCache.reserveCandidateBytes
  simp only
  split
  next => exact Or.inl rfl
  next hfits => exact Or.inr ⟨not_lt.mp hfits, rfl⟩

theorem get?_popEntry (cache : MacroReplayCache P I) (revision : MacroFileRevision P I) :
    (cache.popEntry revision).entries.get? revision = none := by
  unfold MacroReplayCache.popEntry
  split
  next hnone => exact hnone
  next => exact Dict.get?_erase_self _ _

omit [DecidableEq P] [DecidableEq I] in
/-- Releasing what a candidate holds needs no clamp. -/
theorem releaseBytes_eq {bytes : ℤ} (hnonneg : 0 ≤ bytes) (hheld : bytes ≤ cache.candidateBytes) :
    cache.releaseBytes bytes = { cache with candidateBytes := cache.candidateBytes - bytes } := by
  unfold MacroReplayCache.releaseBytes
  rw [max_eq_right hnonneg, max_eq_right (sub_nonneg.mpr hheld)]

theorem releaseCandidate_eq {weight : ℤ} (hnonneg : 0 ≤ weight)
    (hheld : weight ≤ cache.candidateBytes) (revision : MacroFileRevision P I)
    (ineligible : Bool) :
    ∃ marked, cache.releaseCandidate revision weight ineligible =
      { cache with
        candidateBytes := cache.candidateBytes - weight
        ineligible := marked } := by
  unfold MacroReplayCache.releaseCandidate
  rw [releaseBytes_eq hnonneg hheld]
  split
  next => exact ⟨_, rfl⟩
  next => exact ⟨cache.ineligible, rfl⟩

end Operations

/-! ## Candidates -/

variable [PySizes]

namespace MacroCacheCandidate

def finished (candidate : MacroCacheCandidate P I) : MacroCacheCandidate P I :=
  { candidate with events := [], weight := 0, active := false }

def finish (candidate : MacroCacheCandidate P I) (cache : MacroReplayCache P I)
    (ineligible : Bool) : MacroCacheCandidate P I × MacroReplayCache P I :=
  if candidate.active then
    (candidate.finished, cache.releaseCandidate candidate.revision candidate.weight ineligible)
  else (candidate, cache)

def observe (candidate : MacroCacheCandidate P I) (cache : MacroReplayCache P I)
    (event : MacroEvent) : MacroCacheCandidate P I × MacroReplayCache P I :=
  if candidate.active then
    let weight := estimateEventHeapBytes event
    let reserved := cache.reserveCandidateBytes weight
    if reserved.1 then
      ({ candidate with
        events := candidate.events ++ [event]
        weight := candidate.weight + weight }, reserved.2)
    else candidate.finish reserved.2 (candidate.weight + weight > reserved.2.maxBytes)
  else (candidate, cache)

def entry (candidate : MacroCacheCandidate P I) : MacroCacheEntry P I where
  revision := candidate.revision
  eventCount := candidate.eventCount
  durationUs := candidate.durationUs
  events := candidate.events
  weight := candidate.weight

def commit (candidate : MacroCacheCandidate P I) (cache : MacroReplayCache P I) :
    Option (MacroCacheEntry P I) × MacroCacheCandidate P I × MacroReplayCache P I :=
  if candidate.active then
    if (candidate.events.length : ℤ) ≠ candidate.eventCount then
      (none, candidate.finish cache true)
    else
      (some candidate.entry, candidate.finished,
        cache.commitCandidate candidate.entry candidate.weight)
  else (none, candidate, cache)

end MacroCacheCandidate

/-! ## Runs -/

/-- The cache and the candidates that were begun, by a name for each. -/
structure State (P I : Type*) where
  cache : MacroReplayCache P I
  candidates : Dict ℕ (MacroCacheCandidate P I) := ∅

inductive Op (P I : Type*)
  | begin (id : ℕ) (revision : MacroFileRevision P I) (eventCount durationUs : ℤ)
  | observe (id : ℕ) (event : MacroEvent)
  | commit (id : ℕ)
  | reject (id : ℕ)
  | discard (id : ℕ)
  | get (revision : MacroFileRevision P I)

def State.put (s : State P I) (id : ℕ)
    (result : MacroCacheCandidate P I × MacroReplayCache P I) : State P I :=
  ⟨result.2, s.candidates.insert id result.1⟩

/- A call on a candidate needs one; a new candidate has a new name. -/
def step (s : State P I) : Op P I → Option (State P I)
  | .begin id revision eventCount durationUs =>
    if s.candidates.contains id then none
    else
      match s.cache.beginCandidate revision eventCount durationUs with
      | (none, cache) => some { s with cache := cache }
      | (some candidate, cache) => some (s.put id (candidate, cache))
  | .observe id event =>
    (s.candidates.get? id).map fun candidate => s.put id (candidate.observe s.cache event)
  | .commit id => (s.candidates.get? id).map fun candidate => s.put id (candidate.commit s.cache).2
  | .reject id =>
    (s.candidates.get? id).map fun candidate => s.put id (candidate.finish s.cache true)
  | .discard id =>
    (s.candidates.get? id).map fun candidate => s.put id (candidate.finish s.cache false)
  | .get revision => some { s with cache := (s.cache.get revision).2 }

def start (maxBytes : ℤ) : State P I := { cache := newCache maxBytes }

/- The events a candidate was shown. -/
def shownTo (id : ℕ) : Op P I → Option MacroEvent
  | .observe id' event => if id' = id then some event else none
  | _ => none

def observed (id : ℕ) (ops : List (Op P I)) : List MacroEvent := ops.filterMap (shownTo id)

/-! ## The accounts of a run -/

/- The candidate was begun with what it declares. -/
def BegunAs (ops : List (Op P I)) (id : ℕ) (revision : MacroFileRevision P I)
    (eventCount durationUs : ℤ) : Prop :=
  ∃ count duration, Op.begin id revision count duration ∈ ops ∧
    eventCount = max 0 count ∧ durationUs = max 0 duration

/- The weight of a list of events. -/
def weightOf (events : List MacroEvent) : ℤ := (events.map estimateEventHeapBytes).sum

/- What a candidate holds is what it was shown. -/
structure Candid (ops : List (Op P I)) (id : ℕ) (candidate : MacroCacheCandidate P I) :
    Prop where
  begun : BegunAs ops id candidate.revision candidate.eventCount candidate.durationUs
  shown : candidate.active → candidate.events = observed id ops
  weight : candidate.weight = weightOf candidate.events
  idle : candidate.active = false → candidate.events = []

/- The entry was committed by a candidate that had been shown exactly its events, as many as
it declared. -/
def Admitted (ops : List (Op P I)) (entry : MacroCacheEntry P I) : Prop :=
  ∃ before id after, ops = before ++ .commit id :: after ∧
    BegunAs before id entry.revision entry.eventCount entry.durationUs ∧
    entry.events = observed id before ∧ (entry.events.length : ℤ) = entry.eventCount ∧
    entry.weight = weightOf entry.events

structure Sound (maxBytes : ℤ) (ops : List (Op P I)) (s : State P I) : Prop where
  balanced : Balanced s.cache
  limit : s.cache.maxBytes = max 0 maxBytes
  candidates : s.cache.candidateBytes = s.candidates.total (·.weight)
  bounded : s.cache.totalBytes ≤ s.cache.maxBytes
  candid : ∀ id candidate, s.candidates.get? id = some candidate → Candid ops id candidate
  unseen : ∀ id, s.candidates.get? id = none → observed id ops = []
  admitted : ∀ revision entry, s.cache.entries.get? revision = some entry → Admitted ops entry

section Accounts

variable {maxBytes : ℤ} {ops : List (Op P I)} {op : Op P I} {s s' : State P I} {id : ℕ}
  {candidate : MacroCacheCandidate P I} {cache : MacroReplayCache P I}
  {revision : MacroFileRevision P I}

theorem estimateEventHeapBytes_nonneg (event : MacroEvent) : 0 ≤ estimateEventHeapBytes event :=
  Int.natCast_nonneg _

theorem weightOf_nonneg (events : List MacroEvent) : 0 ≤ weightOf events := by
  refine List.sum_nonneg fun weight hmem => ?_
  obtain ⟨event, -, rfl⟩ := List.mem_map.mp hmem
  exact estimateEventHeapBytes_nonneg event

omit [PySizes] [DecidableEq P] [DecidableEq I] in
theorem observed_append (id : ℕ) (ops ops' : List (Op P I)) :
    observed id (ops ++ ops') = observed id ops ++ observed id ops' :=
  List.filterMap_append

omit [PySizes] [DecidableEq P] [DecidableEq I] in
theorem BegunAs.mono {eventCount durationUs : ℤ} (h : BegunAs ops id revision eventCount durationUs)
    (ops' : List (Op P I)) :
    BegunAs (ops ++ ops') id revision eventCount durationUs := by
  obtain ⟨count, duration, hmem, hcount, hduration⟩ := h
  exact ⟨count, duration, List.mem_append_left ops' hmem, hcount, hduration⟩

omit [DecidableEq P] [DecidableEq I] in
theorem Candid.nonneg (h : Candid ops id candidate) : 0 ≤ candidate.weight := by
  rw [h.weight]
  exact weightOf_nonneg _

omit [DecidableEq P] [DecidableEq I] in
theorem Candid.mono (h : Candid ops id candidate) {ops' : List (Op P I)}
    (hquiet : observed id ops' = []) : Candid (ops ++ ops') id candidate := by
  refine ⟨h.begun.mono ops', fun hactive => ?_, h.weight, h.idle⟩
  rw [observed_append, hquiet, List.append_nil]
  exact h.shown hactive

omit [DecidableEq P] [DecidableEq I] in
/-- A candidate that is done stays what it is, whatever it is shown. -/
theorem Candid.mono_of_idle (h : Candid ops id candidate) (hidle : candidate.active = false)
    (ops' : List (Op P I)) : Candid (ops ++ ops') id candidate :=
  ⟨h.begun.mono ops', fun hactive => absurd (hidle.symm.trans hactive) Bool.false_ne_true,
    h.weight, h.idle⟩

omit [DecidableEq P] [DecidableEq I] in
theorem Candid.finished (h : Candid ops id candidate) (ops' : List (Op P I)) :
    Candid (ops ++ ops') id candidate.finished :=
  ⟨h.begun.mono ops', fun hactive => absurd hactive Bool.false_ne_true, rfl, fun _ => rfl⟩

omit [DecidableEq P] [DecidableEq I] in
theorem Admitted.mono {entry : MacroCacheEntry P I} (h : Admitted ops entry)
    (ops' : List (Op P I)) : Admitted (ops ++ ops') entry := by
  obtain ⟨before, id, after, rfl, hentry⟩ := h
  exact ⟨before, id, after ++ ops', by rw [List.append_assoc, List.cons_append], hentry⟩

theorem Sound.weight_le (h : Sound maxBytes ops s)
    (hcandidate : s.candidates.get? id = some candidate) :
    0 ≤ candidate.weight ∧ candidate.weight ≤ s.cache.candidateBytes := by
  have hnonneg : ∀ id c, s.candidates.get? id = some c → 0 ≤ c.weight :=
    fun id c hc => (h.candid id c hc).nonneg
  refine ⟨hnonneg id candidate hcandidate, ?_⟩
  rw [h.candidates]
  exact Dict.le_total hnonneg hcandidate

/-- An operation of the cache alone. -/
theorem Sound.trim (h : Sound maxBytes ops s) (htrimmed : Trimmed s.cache cache)
    (hquiet : ∀ id, observed id [op] = []) :
    Sound maxBytes (ops ++ [op]) { s with cache := cache } where
  balanced := htrimmed.balanced
  limit := htrimmed.maxBytes.trans h.limit
  candidates := htrimmed.candidateBytes.trans h.candidates
  bounded := by
    rw [htrimmed.maxBytes]
    exact le_trans htrimmed.totalBytes h.bounded
  candid id c hc := (h.candid id c hc).mono (hquiet id)
  unseen id hnone := by
    rw [observed_append, hquiet, h.unseen id hnone]
    rfl
  admitted revision entry he := (h.admitted revision entry (htrimmed.entries _ _ he)).mono [op]

/-- A call on one candidate: its weight and the bytes of the candidates change together. -/
theorem Sound.put (h : Sound maxBytes ops s)
    (hcandidate : s.candidates.get? id = some candidate)
    {result : MacroCacheCandidate P I × MacroReplayCache P I} (hbalanced : Balanced result.2)
    (hlimit : result.2.maxBytes = s.cache.maxBytes)
    (hbytes : candidate.weight + result.2.candidateBytes =
      result.1.weight + s.cache.candidateBytes)
    (hbounded : result.2.totalBytes ≤ s.cache.maxBytes)
    (hcandid : Candid (ops ++ [op]) id result.1)
    (hadmitted : ∀ revision entry, result.2.entries.get? revision = some entry →
      Admitted (ops ++ [op]) entry)
    (hquiet : ∀ id', id' ≠ id → observed id' [op] = []) :
    Sound maxBytes (ops ++ [op]) (s.put id result) where
  balanced := hbalanced
  limit := hlimit.trans h.limit
  candidates := by
    have htotal := Dict.total_insert (·.weight) hcandidate result.1
    have hbefore := h.candidates
    unfold State.put
    simp only at htotal ⊢
    omega
  bounded := le_of_le_of_eq hbounded hlimit.symm
  candid id' c hc := by
    unfold State.put at hc
    rw [Dict.get?_insert] at hc
    split at hc
    next heq =>
      cases hc
      rw [heq]
      exact hcandid
    next hne => exact (h.candid id' c hc).mono (hquiet id' hne)
  unseen id' hnone := by
    unfold State.put at hnone
    rw [Dict.get?_insert] at hnone
    split at hnone
    next => cases hnone
    next hne =>
      rw [observed_append, hquiet id' hne, h.unseen id' hnone]
      rfl
  admitted := hadmitted

/-- A candidate that gives up hands back what it holds. -/
theorem Sound.finish (h : Sound maxBytes ops s)
    (hcandidate : s.candidates.get? id = some candidate) (htrimmed : Trimmed s.cache cache)
    (hquiet : ∀ id', id' ≠ id → observed id' [op] = []) (ineligible : Bool) :
    Sound maxBytes (ops ++ [op]) (s.put id (candidate.finish cache ineligible)) := by
  have hcandid := h.candid id candidate hcandidate
  obtain ⟨hnonneg, hheld⟩ := h.weight_le hcandidate
  have htotal := le_trans htrimmed.totalBytes h.bounded
  have hadmitted : ∀ revision entry, cache.entries.get? revision = some entry →
      Admitted (ops ++ [op]) entry := fun revision entry he =>
    (h.admitted revision entry (htrimmed.entries revision entry he)).mono [op]
  unfold MacroCacheCandidate.finish
  split
  next =>
    have hheld' : candidate.weight ≤ cache.candidateBytes :=
      le_of_le_of_eq hheld htrimmed.candidateBytes.symm
    obtain ⟨marked, heq⟩ := releaseCandidate_eq hnonneg hheld' candidate.revision ineligible
    rw [heq]
    have hbalanced := htrimmed.balanced
    refine h.put hcandidate ⟨hbalanced.resident, hbalanced.keyed, hbalanced.nonneg⟩
      htrimmed.maxBytes ?_ ?_ (hcandid.finished [op]) hadmitted hquiet
    · have hsame := htrimmed.candidateBytes
      unfold MacroCacheCandidate.finished
      simp only
      omega
    · unfold MacroReplayCache.totalBytes at htotal ⊢
      simp only
      omega
  next hidle =>
    exact h.put hcandidate htrimmed.balanced htrimmed.maxBytes
      (congrArg (candidate.weight + ·) htrimmed.candidateBytes) htotal
      (hcandid.mono_of_idle (Bool.eq_false_iff.mpr hidle) [op]) hadmitted hquiet

omit [PySizes] [DecidableEq P] [DecidableEq I] in
theorem observed_observe_self (id : ℕ) (event : MacroEvent) :
    observed id [(.observe id event : Op P I)] = [event] :=
  List.filterMap_cons_some (if_pos rfl)

omit [PySizes] [DecidableEq P] [DecidableEq I] in
theorem observed_observe_of_ne {id id' : ℕ} (hne : id' ≠ id) (event : MacroEvent) :
    observed id' [(.observe id event : Op P I)] = [] :=
  List.filterMap_cons_none (if_neg (Ne.symm hne))

theorem Sound.observe (h : Sound maxBytes ops s)
    (hcandidate : s.candidates.get? id = some candidate) (event : MacroEvent) :
    Sound maxBytes (ops ++ [.observe id event])
      (s.put id (candidate.observe s.cache event)) := by
  have hquiet (id' : ℕ) (hne : id' ≠ id) :
      observed id' [(.observe id event : Op P I)] = [] := observed_observe_of_ne hne event
  unfold MacroCacheCandidate.observe
  split
  next hactive =>
    obtain ⟨evicted, htrimmed, hfull | ⟨hfits, hfits'⟩⟩ :=
      reserveCandidateBytes_spec h.balanced (estimateEventHeapBytes event)
    · simp only [hfull, Bool.false_eq_true, if_false]
      exact h.finish hcandidate htrimmed hquiet _
    · have hnonneg := estimateEventHeapBytes_nonneg event
      have hcandid := h.candid id candidate hcandidate
      rw [max_eq_right hnonneg] at hfits hfits'
      simp only [hfits', if_true]
      have hbalanced := htrimmed.balanced
      refine h.put hcandidate ⟨hbalanced.resident, hbalanced.keyed, hbalanced.nonneg⟩
        htrimmed.maxBytes ?_ ?_ ?_ ?_ hquiet
      · have hsame := htrimmed.candidateBytes
        simp only
        omega
      · have hsame := htrimmed.maxBytes
        unfold MacroReplayCache.totalBytes at hfits ⊢
        simp only
        omega
      · refine ⟨hcandid.begun.mono _, fun _ => ?_, ?_, fun hidle => ?_⟩
        · rw [observed_append, ← hcandid.shown hactive, observed_observe_self]
        · have hweight := hcandid.weight
          unfold weightOf at hweight ⊢
          rw [List.map_append, List.sum_append, ← hweight]
          exact congrArg (candidate.weight + ·) List.sum_singleton.symm
        · exact absurd (hidle.symm.trans hactive) Bool.false_ne_true
      · exact fun revision entry he =>
          (h.admitted revision entry (htrimmed.entries revision entry he)).mono _
  next hidle =>
    have hfinish := h.finish hcandidate (Trimmed.refl h.balanced) hquiet false
    unfold MacroCacheCandidate.finish at hfinish
    rw [if_neg hidle] at hfinish
    exact hfinish

omit [PySizes] [DecidableEq P] [DecidableEq I] in
theorem observed_commit (id id' : ℕ) : observed id' [(.commit id : Op P I)] = [] := rfl

/-- The bytes of a committed candidate become those of its entry. -/
theorem Sound.commit_entry (h : Sound maxBytes ops s)
    (hcandidate : s.candidates.get? id = some candidate) (hactive : candidate.active)
    (hcount : (candidate.events.length : ℤ) = candidate.eventCount) :
    Sound maxBytes (ops ++ [.commit id]) (s.put id
      (candidate.finished, s.cache.commitCandidate candidate.entry candidate.weight)) := by
  have hcandid := h.candid id candidate hcandidate
  obtain ⟨hnonneg, hheld⟩ := h.weight_le hcandidate
  have hfreed : Balanced
      { s.cache with candidateBytes := s.cache.candidateBytes - candidate.weight } :=
    ⟨h.balanced.resident, h.balanced.keyed, h.balanced.nonneg⟩
  have hpopped := popEntry_trimmed hfreed candidate.revision
  have hgone := get?_popEntry
    { s.cache with candidateBytes := s.cache.candidateBytes - candidate.weight } candidate.revision
  have hbalanced := hpopped.balanced
  have hentry : candidate.entry.revision = candidate.revision := rfl
  unfold MacroReplayCache.commitCandidate
  rw [releaseBytes_eq hnonneg hheld, hentry]
  refine h.put hcandidate ⟨?_, ?_, ?_⟩ hpopped.maxBytes ?_ ?_ (hcandid.finished _) ?_
    fun id' _ => observed_commit id id'
  · have htotal := Dict.total_insert_new (·.weight) hgone candidate.entry
    exact (add_comm _ _).trans
      ((congrArg (candidate.entry.weight + ·) hbalanced.resident).trans htotal.symm)
  · intro revision entry he
    rw [Dict.get?_insert] at he
    split at he
    next heq =>
      cases he
      exact heq.symm
    next => exact hbalanced.keyed revision entry he
  · intro revision entry he
    rw [Dict.get?_insert] at he
    split at he
    next =>
      cases he
      exact hnonneg
    next => exact hbalanced.nonneg revision entry he
  · have hsame := hpopped.candidateBytes
    unfold MacroCacheCandidate.finished
    simp only at hsame ⊢
    omega
  · have htotal := hpopped.totalBytes
    have hbounded := h.bounded
    have hweight : candidate.entry.weight = candidate.weight := rfl
    unfold MacroReplayCache.totalBytes at htotal hbounded ⊢
    simp only at htotal ⊢
    omega
  · intro revision entry he
    rw [Dict.get?_insert] at he
    split at he
    next =>
      cases he
      exact ⟨ops, id, [], rfl, hcandid.begun, hcandid.shown hactive, hcount, hcandid.weight⟩
    next => exact (h.admitted revision entry (hpopped.entries revision entry he)).mono _

theorem Sound.commit (h : Sound maxBytes ops s)
    (hcandidate : s.candidates.get? id = some candidate) :
    Sound maxBytes (ops ++ [.commit id]) (s.put id (candidate.commit s.cache).2) := by
  have hfinish := h.finish hcandidate (Trimmed.refl h.balanced)
    (fun id' _ => observed_commit id id') true
  unfold MacroCacheCandidate.commit
  split
  next hactive =>
    split
    next => exact hfinish
    next hcount => exact h.commit_entry hcandidate hactive (not_not.mp hcount)
  next hidle =>
    unfold MacroCacheCandidate.finish at hfinish
    rw [if_neg hidle] at hfinish
    exact hfinish

omit [PySizes] [DecidableEq P] [DecidableEq I] in
theorem observed_begin (id : ℕ) (revision : MacroFileRevision P I) (eventCount durationUs : ℤ)
    (id' : ℕ) : observed id' [Op.begin id revision eventCount durationUs] = [] := rfl

omit [PySizes] in
theorem beginCandidate_declares {candidate : MacroCacheCandidate P I} {eventCount durationUs : ℤ}
    (h : (cache.beginCandidate revision eventCount durationUs).1 = some candidate) :
    candidate = {
      revision := revision
      eventCount := max 0 eventCount
      durationUs := max 0 durationUs } := by
  unfold MacroReplayCache.beginCandidate at h
  simp only at h
  split at h
  next => cases h
  next => exact (Option.some.inj h).symm

theorem Sound.begin (h : Sound maxBytes ops s) {eventCount durationUs : ℤ}
    (hstep : step s (.begin id revision eventCount durationUs) = some s') :
    Sound maxBytes (ops ++ [.begin id revision eventCount durationUs]) s' := by
  have htrimmed := beginCandidate_trimmed h.balanced revision eventCount durationUs
  have hsound := h.trim htrimmed (observed_begin id revision eventCount durationUs)
  simp only [step] at hstep
  split at hstep
  next => cases hstep
  next hnew =>
    have hnone : s.candidates.get? id = none := by
      rw [Dict.contains, Bool.not_eq_true, Option.isSome_eq_false_iff,
        Option.isNone_iff_eq_none] at hnew
      exact hnew
    split at hstep
    next cache' heq =>
      cases hstep
      rw [heq] at hsound
      exact hsound
    next candidate cache' heq =>
      cases hstep
      have hcandidate := beginCandidate_declares (congrArg Prod.fst heq)
      rw [heq] at hsound
      refine ⟨hsound.balanced, hsound.limit, ?_, hsound.bounded, ?_, ?_, hsound.admitted⟩
      · have htotal := Dict.total_insert_new (·.weight) hnone candidate
        have hsame := hsound.candidates
        have hzero : candidate.weight = 0 := by rw [hcandidate]
        unfold State.put
        simp only at htotal hsame ⊢
        omega
      · intro id' c hc
        unfold State.put at hc
        rw [Dict.get?_insert] at hc
        split at hc
        next heq' =>
          cases hc
          rw [hcandidate, heq']
          refine ⟨⟨eventCount, durationUs, List.mem_append_right _ List.mem_cons_self, rfl, rfl⟩,
            fun _ => ?_, rfl, fun _ => rfl⟩
          exact (hsound.unseen id hnone).symm
        next => exact hsound.candid id' c hc
      · intro id' hnone'
        unfold State.put at hnone'
        rw [Dict.get?_insert] at hnone'
        split at hnone'
        next => cases hnone'
        next => exact hsound.unseen id' hnone'

theorem Sound.step (h : Sound maxBytes ops s) (hstep : step s op = some s') :
    Sound maxBytes (ops ++ [op]) s' := by
  cases op with
  | begin id revision eventCount durationUs => exact h.begin hstep
  | observe id event =>
    obtain ⟨candidate, hcandidate, rfl⟩ := Option.map_eq_some_iff.mp hstep
    exact h.observe hcandidate event
  | commit id =>
    obtain ⟨candidate, hcandidate, rfl⟩ := Option.map_eq_some_iff.mp hstep
    exact h.commit hcandidate
  | reject id =>
    obtain ⟨candidate, hcandidate, rfl⟩ := Option.map_eq_some_iff.mp hstep
    exact h.finish hcandidate (Trimmed.refl h.balanced) (fun _ _ => rfl) true
  | discard id =>
    obtain ⟨candidate, hcandidate, rfl⟩ := Option.map_eq_some_iff.mp hstep
    exact h.finish hcandidate (Trimmed.refl h.balanced) (fun _ _ => rfl) false
  | get revision =>
    cases hstep
    exact h.trim (get_trimmed h.balanced revision) fun _ => rfl

theorem sound_start (maxBytes : ℤ) : Sound maxBytes [] (start maxBytes : State P I) where
  balanced := ⟨rfl, fun _ _ he => absurd he Dict.not_get?_empty,
    fun _ _ he => absurd he Dict.not_get?_empty⟩
  limit := rfl
  candidates := rfl
  bounded := le_max_left 0 maxBytes
  candid _ _ hc := absurd hc Dict.not_get?_empty
  unseen _ _ := rfl
  admitted _ _ he := absurd he Dict.not_get?_empty

theorem Sound.run {ops' : List (Op P I)} (h : Sound maxBytes ops s)
    (hrun : run ReplayCache.step s ops' = some s') : Sound maxBytes (ops ++ ops') s' := by
  induction ops' generalizing ops s with
  | nil =>
    cases hrun
    rw [List.append_nil]
    exact h
  | cons op ops' ih =>
    obtain ⟨t, hstep, hrest⟩ := run_cons_eq_some.mp hrun
    have hsound := ih (h.step hstep) hrest
    rw [List.append_assoc] at hsound
    exact hsound

end Accounts

/- What holds of the counters and of the entries after a run. -/
structure Accounts (maxBytes : ℤ) (ops : List (Op P I)) (s : State P I) : Prop where
  resident : s.cache.residentBytes = (s.cache.entries.values.map (·.weight)).sum
  candidates : s.cache.candidateBytes =
    (s.candidates.values.map fun candidate => if candidate.active then candidate.weight else 0).sum
  limit : s.cache.maxBytes = max 0 maxBytes
  bounded : s.cache.residentBytes + s.cache.candidateBytes ≤ s.cache.maxBytes
  nonneg : 0 ≤ s.cache.residentBytes ∧ 0 ≤ s.cache.candidateBytes
  unclamped : ∀ id candidate, s.candidates.get? id = some candidate →
    max 0 (s.cache.candidateBytes - max 0 candidate.weight) =
      s.cache.candidateBytes - candidate.weight
  unclampedEvent : ∀ event, max 0 (estimateEventHeapBytes event) = estimateEventHeapBytes event
  committed : ∀ revision entry, s.cache.entries.get? revision = some entry →
    entry.revision = revision ∧ Admitted ops entry

/-- After every sequence of operations by any number of candidates the counters are the sums
they stand for, and an entry is what its candidate was shown. -/
theorem replay_cache_accounts (maxBytes : ℤ) (ops : List (Op P I)) (s : State P I)
    (hrun : run step (start maxBytes) ops = some s) : Accounts maxBytes ops s := by
  have hsound : Sound maxBytes ops s := (sound_start maxBytes).run hrun
  have hcandid (candidate : MacroCacheCandidate P I) (hmem : candidate ∈ s.candidates.values) :
      0 ≤ candidate.weight ∧ (if candidate.active then candidate.weight else 0) =
        candidate.weight := by
    obtain ⟨id, hid⟩ := Dict.mem_values_iff.mp hmem
    have hcandid := hsound.candid id candidate hid
    refine ⟨hcandid.nonneg, ?_⟩
    split
    next => rfl
    next hidle =>
      rw [hcandid.weight, hcandid.idle (Bool.eq_false_iff.mpr hidle)]
      rfl
  refine ⟨hsound.balanced.resident, ?_, hsound.limit, hsound.bounded, ⟨?_, ?_⟩, ?_, ?_, ?_⟩
  · rw [hsound.candidates, List.map_congr_left fun candidate hmem => (hcandid candidate hmem).2]
    rfl
  · rw [hsound.balanced.resident]
    exact Dict.total_nonneg hsound.balanced.nonneg
  · rw [hsound.candidates]
    exact Dict.total_nonneg fun id candidate hid => (hsound.candid id candidate hid).nonneg
  · intro id candidate hid
    obtain ⟨hnonneg, hheld⟩ := hsound.weight_le hid
    rw [max_eq_right hnonneg, max_eq_right (sub_nonneg.mpr hheld)]
  · exact fun event => max_eq_right (estimateEventHeapBytes_nonneg event)
  · exact fun revision entry he =>
      ⟨hsound.balanced.keyed revision entry he, hsound.admitted revision entry he⟩

end Cache

/- Every value takes ten bytes. -/
@[reducible] def flatSizes : PySizes where
  getsizeof _ := 10
  eventSlotBytes := 8

/- Two candidates; the second one needs the room of the first one's entry. -/
def turnover : List (Op ℕ ℕ) :=
  [.begin 0 ⟨0, 0⟩ 1 5, .begin 1 ⟨1, 0⟩ 2 5, .observe 0 [("t_us", .int 0)], .commit 0,
    .observe 1 [("t_us", .int 0)], .get ⟨0, 0⟩, .observe 1 [("t_us", .int 4)], .commit 1]

theorem replay_cache_accounts_turnover :
    letI := flatSizes
    ∃ s, run step (start 80) turnover = some s ∧ s.cache.residentBytes = 76 ∧
      Accounts 80 turnover s := by
  let := flatSizes
  have hrun : ((run step (start 80) turnover).any fun s => s.cache.residentBytes = 76) = true := by
    decide
  obtain ⟨s, hs, hbytes⟩ := (Option.any_eq_true _ _).mp hrun
  exact ⟨s, hs, of_decide_eq_true hbytes, replay_cache_accounts 80 turnover s hs⟩

end Keymasq.Macros.ReplayCache
