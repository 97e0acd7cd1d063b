import Keymasq.Recording.Store

/-!
# The tables of pending and claimed recordings

A recording is in one of the two tables, each with its time, until it is
cleaned up. A slot belongs to one recording; older ones that are still claimed
only wait to be discarded.
-/

namespace Keymasq.Recording.Tables
open Foundation Foundation.Transition Store

/-- The recording is in one of the tables. -/
def Entry (m : Manager) (recordingId : String) (snapshot : RecordingSnapshot) : Prop :=
  m.pending.get? recordingId = some snapshot ∨ m.claimed.get? recordingId = some snapshot

/-- The recording is pending, or claimed and not to be discarded. -/
def Live (m : Manager) (recordingId : String) (snapshot : RecordingSnapshot) : Prop :=
  m.pending.get? recordingId = some snapshot ∨
    m.claimed.get? recordingId = some snapshot ∧ recordingId ∉ m.discardRequested

/-- The files of a snapshot: those of a slot, without the metadata file once the slot has a new
recording, or at most a spool file. -/
def WellShaped (snapshot : RecordingSnapshot) : Prop :=
  (snapshot.recordingSlot = 0 ∧ snapshot.cleanupPaths = [] ∧
      (snapshot.spoolPath = none ∨ ∃ name, snapshot.spoolPath = some (.spool name))) ∨
    (snapshot.recordingSlot ≠ 0 ∧
      normalizeMacroRecordingSlot snapshot.recordingSlot = snapshot.recordingSlot ∧
      snapshot.spoolPath = some (.slotEvent snapshot.recordingSlot snapshot.recordingId) ∧
      (snapshot.cleanupPaths = [] ∨ snapshot.cleanupPaths = [.slotMeta snapshot.recordingSlot]))

/-- What a stop holds in its hands, before and after it has its own files. -/
def StopReady (m : Manager) : Stop → Prop
  | .finishing slot => normalizeMacroRecordingSlot slot = slot
  | .persisting slot snapshot | .eventsWritten slot snapshot | .metaWritten slot snapshot =>
    slot ≠ 0 ∧ normalizeMacroRecordingSlot slot = slot ∧ snapshot.recordingId ∈ m.issued ∧
      (∀ s, ¬Entry m snapshot.recordingId s) ∧
      (snapshot.spoolPath = none ∨ ∃ name, snapshot.spoolPath = some (.spool name)) ∧
      snapshot.cleanupPaths = [] ∧ ∀ path, (snapshot.recordingId, path) ∉ m.cleaned
  | .finished slot snapshot =>
    snapshot.recordingSlot = slot ∧ WellShaped snapshot ∧
      (slot ≠ 0 → snapshot.cleanupPaths = [.slotMeta slot]) ∧ snapshot.recordingId ∈ m.issued ∧
      (∀ s, ¬Entry m snapshot.recordingId s) ∧
      (snapshot.recordingId, snapshot.spoolPath) ∉ m.cleaned

structure Consistent (m : Manager) : Prop where
  disjoint : ∀ id s s', m.pending.get? id = some s → m.claimed.get? id = some s' → False
  pendingTimes : ∀ id, (m.pendingCreatedAt.get? id).isSome = (m.pending.get? id).isSome
  claimedTimes : ∀ id, (m.claimedCreatedAt.get? id).isSome = (m.claimed.get? id).isSome
  named : ∀ id s, Entry m id s → s.recordingId = id ∧ id ∈ m.issued ∧ WellShaped s
  kept : ∀ id s, Entry m id s → (id, s.spoolPath) ∉ m.cleaned
  slots : ∀ id s id' s', Entry m id s → Entry m id' s' → s.recordingSlot = s'.recordingSlot →
    s.cleanupPaths ≠ [] → s'.cleanupPaths ≠ [] → id = id'
  live : ∀ id s, Live m id s → s.recordingSlot ≠ 0 → s.cleanupPaths = [.slotMeta s.recordingSlot]
  known : ∀ e ∈ m.cleaned, e.1 ∈ m.issued
  once : m.cleaned.Nodup
  stop : ∀ stop, m.stop = some stop → StopReady m stop

theorem consistent_start : Consistent {} := by
  refine ⟨nofun, fun _ => rfl, fun _ => rfl, ?_, ?_, ?_, ?_, nofun, List.nodup_nil, nofun⟩
  · rintro id s (h | h) <;> cases h
  · rintro id s (h | h) <;> cases h
  · rintro id s id' s' (h | h) <;> cases h
  · rintro id s (h | ⟨h, -⟩) <;> cases h

variable {m m' : Manager} {id : String} {snapshot : RecordingSnapshot}
  {f : Manager → String → Manager}

theorem normalize_idem (slot : ℕ) :
    normalizeMacroRecordingSlot (normalizeMacroRecordingSlot slot) =
      normalizeMacroRecordingSlot slot := by
  unfold normalizeMacroRecordingSlot
  by_cases h : 1 ≤ slot ∧ slot ≤ maxMacroRecordingSlots
  · rw [if_pos h, if_pos h]
  · rw [if_neg h, if_neg (by omega)]

/-! ## One operation on the tables -/

/-- Recordings may leave, and the ones that leave may be cleaned up. -/
theorem StopReady.mono {stop : Stop} (h : StopReady m stop)
    (hentry : ∀ id s, Entry m' id s → ∃ s', Entry m id s') (hissued : m'.issued = m.issued)
    (hcleaned : ∀ e ∈ m'.cleaned, e ∈ m.cleaned ∨ ∃ s, Entry m e.1 s) : StopReady m' stop := by
  have hnone : ∀ {id}, (∀ s, ¬Entry m id s) → ∀ s, ¬Entry m' id s := by
    intro id hnot s hs
    obtain ⟨s', hs'⟩ := hentry id s hs
    exact hnot s' hs'
  cases stop with
  | finishing slot => exact h
  | persisting slot snapshot | eventsWritten slot snapshot | metaWritten slot snapshot =>
    obtain ⟨hslot, hnorm, hin, hnot, hpath, hnil, hclean⟩ := h
    refine ⟨hslot, hnorm, hissued ▸ hin, hnone hnot, hpath, hnil, fun path hmem => ?_⟩
    rcases hcleaned _ hmem with hold | ⟨s, hs⟩
    · exact hclean path hold
    · exact hnot s hs
  | finished slot snapshot =>
    obtain ⟨hslot, hshape, hpaths, hin, hnot, hclean⟩ := h
    refine ⟨hslot, hshape, hpaths, hissued ▸ hin, hnone hnot, fun hmem => ?_⟩
    rcases hcleaned _ hmem with hold | ⟨s, hs⟩
    · exact hclean hold
    · exact hnot s hs

/-- A recording leaves its table and is cleaned up. -/
theorem Consistent.remove (h : Consistent m) (hs : Entry m id snapshot)
    (hpending : ∀ k, m'.pending.get? k = if k = id then none else m.pending.get? k)
    (hclaimed : ∀ k, m'.claimed.get? k = if k = id then none else m.claimed.get? k)
    (hpendingAt : ∀ k, m'.pendingCreatedAt.get? k =
      if k = id then none else m.pendingCreatedAt.get? k)
    (hclaimedAt : ∀ k, m'.claimedCreatedAt.get? k =
      if k = id then none else m.claimedCreatedAt.get? k)
    (hdiscard : ∀ k, k ≠ id → k ∈ m.discardRequested → k ∈ m'.discardRequested)
    (hstop : m'.stop = m.stop) (hissued : m'.issued = m.issued)
    (hcleaned : m'.cleaned = m.cleaned ++ [(id, snapshot.spoolPath)]) : Consistent m' := by
  have hentry : ∀ k s, Entry m' k s → k ≠ id ∧ Entry m k s := by
    rintro k s (hk | hk)
    · rw [hpending] at hk
      split at hk
      · cases hk
      · exact ⟨by assumption, Or.inl hk⟩
    · rw [hclaimed] at hk
      split at hk
      · cases hk
      · exact ⟨by assumption, Or.inr hk⟩
  refine ⟨fun k s s' hk hk' => ?_, fun k => ?_, fun k => ?_, fun k s hk => ?_, fun k s hk => ?_,
    fun k s k' s' hk hk' => ?_, fun k s hk => ?_, fun e he => ?_, ?_, fun stop hst => ?_⟩
  · have hne := (hentry k s (Or.inl hk)).1
    rw [hpending, if_neg hne] at hk
    rw [hclaimed, if_neg hne] at hk'
    exact h.disjoint k s s' hk hk'
  · rw [hpending, hpendingAt]
    split
    · rfl
    · exact h.pendingTimes k
  · rw [hclaimed, hclaimedAt]
    split
    · rfl
    · exact h.claimedTimes k
  · rw [hissued]
    exact h.named k s (hentry k s hk).2
  · obtain ⟨hne, hold⟩ := hentry k s hk
    rw [hcleaned, List.mem_append, List.mem_singleton]
    rintro (hmem | heq)
    · exact h.kept k s hold hmem
    · exact hne (congrArg Prod.fst heq)
  · exact h.slots k s k' s' (hentry k s hk).2 (hentry k' s' hk').2
  · refine h.live k s ?_
    rcases hk with hk | ⟨hk, hnot⟩
    · obtain ⟨hne, -⟩ := hentry k s (Or.inl hk)
      rw [hpending, if_neg hne] at hk
      exact Or.inl hk
    · obtain ⟨hne, -⟩ := hentry k s (Or.inr hk)
      rw [hclaimed, if_neg hne] at hk
      exact Or.inr ⟨hk, fun hmem => hnot (hdiscard k hne hmem)⟩
  · rw [hcleaned, List.mem_append, List.mem_singleton] at he
    rw [hissued]
    rcases he with he | rfl
    · exact h.known e he
    · exact (h.named id snapshot hs).2.1
  · rw [hcleaned]
    refine List.nodup_append.mpr ⟨h.once, List.nodup_singleton _, ?_⟩
    rintro e he e' he' rfl
    rw [List.mem_singleton] at he'
    exact h.kept id snapshot hs (he' ▸ he)
  · rw [hstop] at hst
    refine (h.stop stop hst).mono (fun k s hk => ⟨s, (hentry k s hk).2⟩) hissued fun e he => ?_
    rw [hcleaned, List.mem_append, List.mem_singleton] at he
    rcases he with he | rfl
    · exact Or.inl he
    · exact Or.inr ⟨snapshot, hs⟩

theorem WellShaped.withoutMeta (h : WellShaped snapshot) :
    WellShaped { snapshot with cleanupPaths := [] } := by
  rcases h with ⟨hslot, -, hpath⟩ | ⟨hslot, hnorm, hpath, -⟩
  · exact Or.inl ⟨hslot, rfl, hpath⟩
  · exact Or.inr ⟨hslot, hnorm, hpath, Or.inl rfl⟩

/-- Recordings change tables, or lose their claim to the metadata file of their slot. -/
theorem Consistent.reenter (h : Consistent m)
    (hdisjoint : ∀ k s s', m'.pending.get? k = some s → m'.claimed.get? k = some s' → False)
    (hpendingTimes : ∀ k, (m'.pendingCreatedAt.get? k).isSome = (m'.pending.get? k).isSome)
    (hclaimedTimes : ∀ k, (m'.claimedCreatedAt.get? k).isSome = (m'.claimed.get? k).isSome)
    (hentry : ∀ k s, Entry m' k s → ∃ s', Entry m k s' ∧
      (s = s' ∨ s = { s' with cleanupPaths := [] }))
    (hlive : ∀ k s, Live m' k s → Live m k s) (hstop : m'.stop = m.stop)
    (hissued : m'.issued = m.issued) (hcleaned : m'.cleaned = m.cleaned) : Consistent m' := by
  refine ⟨hdisjoint, hpendingTimes, hclaimedTimes, fun k s hk => ?_, fun k s hk => ?_,
    fun k s k' s' hk hk' hslot hne hne' => ?_, fun k s hk => h.live k s (hlive k s hk),
    by rw [hcleaned, hissued]; exact h.known, by rw [hcleaned]; exact h.once, fun stop hst => ?_⟩
  · obtain ⟨s', hs', heq⟩ := hentry k s hk
    obtain ⟨hname, hin, hshape⟩ := h.named k s' hs'
    rw [hissued]
    rcases heq with rfl | rfl
    · exact ⟨hname, hin, hshape⟩
    · exact ⟨hname, hin, hshape.withoutMeta⟩
  · obtain ⟨s', hs', heq⟩ := hentry k s hk
    rw [hcleaned]
    rcases heq with rfl | rfl
    · exact h.kept k _ hs'
    · exact h.kept k s' hs'
  · obtain ⟨t, ht, heq⟩ := hentry k s hk
    obtain ⟨t', ht', heq'⟩ := hentry k' s' hk'
    rcases heq with rfl | rfl
    · rcases heq' with rfl | rfl
      · exact h.slots k _ k' _ ht ht' hslot hne hne'
      · exact absurd rfl hne'
    · exact absurd rfl hne
  · rw [hstop] at hst
    refine (h.stop stop hst).mono (fun k s hk => ?_) hissued fun e he => Or.inl (hcleaned ▸ he)
    obtain ⟨s', hs', -⟩ := hentry k s hk
    exact ⟨s', hs'⟩

/-- The tables answer as before, though some discards may have been requested. -/
theorem Consistent.retable (h : Consistent m)
    (hpending : ∀ k, m'.pending.get? k = m.pending.get? k)
    (hclaimed : ∀ k, m'.claimed.get? k = m.claimed.get? k)
    (hpendingAt : ∀ k, (m'.pendingCreatedAt.get? k).isSome = (m.pendingCreatedAt.get? k).isSome)
    (hclaimedAt : ∀ k, (m'.claimedCreatedAt.get? k).isSome = (m.claimedCreatedAt.get? k).isSome)
    (hdiscard : ∀ k s, m.claimed.get? k = some s → k ∈ m.discardRequested →
      k ∈ m'.discardRequested) (hstop : m'.stop = m.stop)
    (hissued : m'.issued = m.issued) (hcleaned : m'.cleaned = m.cleaned) : Consistent m' := by
  refine h.reenter (fun k s s' hk hk' => ?_) (fun k => ?_) (fun k => ?_) (fun k s hk => ?_)
    (fun k s hk => ?_) hstop hissued hcleaned
  · rw [hpending] at hk
    rw [hclaimed] at hk'
    exact h.disjoint k s s' hk hk'
  · rw [hpendingAt, hpending, h.pendingTimes]
  · rw [hclaimedAt, hclaimed, h.claimedTimes]
  · refine ⟨s, ?_, Or.inl rfl⟩
    unfold Entry at hk ⊢
    rwa [hpending, hclaimed] at hk
  · unfold Live at hk ⊢
    rw [hpending, hclaimed] at hk
    exact hk.imp_right fun hk => ⟨hk.1, fun hmem => hk.2 (hdiscard k s hk.1 hmem)⟩

/-! ## The operations of the manager -/

theorem Consistent.not_claimed (h : Consistent m) (hs : m.pending.get? id = some snapshot) :
    m.claimed.get? id = none ∧ m.claimedCreatedAt.get? id = none := by
  have hnone : m.claimed.get? id = none := by
    rw [Option.eq_none_iff_forall_ne_some]
    exact fun s' hs' => h.disjoint id snapshot s' hs hs'
  have htime := h.claimedTimes id
  rw [hnone] at htime
  exact ⟨hnone, Option.isNone_iff_eq_none.mp (by simpa using htime)⟩

theorem Consistent.not_pending (h : Consistent m) (hs : m.claimed.get? id = some snapshot) :
    m.pending.get? id = none ∧ m.pendingCreatedAt.get? id = none := by
  have hnone : m.pending.get? id = none := by
    rw [Option.eq_none_iff_forall_ne_some]
    exact fun s' hs' => h.disjoint id s' snapshot hs' hs
  have htime := h.pendingTimes id
  rw [hnone] at htime
  exact ⟨hnone, Option.isNone_iff_eq_none.mp (by simpa using htime)⟩

theorem get?_eq_ite_none {ν : Type} {d : Dict String ν} (hnone : d.get? id = none) (k : String) :
    d.get? k = if k = id then none else d.get? k := by
  split
  · rename_i heq
    rw [heq, hnone]
  · rfl

/- A pending recording is cleaned up, with or without the metadata file. -/
theorem Consistent.cleanupPending (h : Consistent m) (hs : m.pending.get? id = some snapshot)
    (paths : List Path) :
    Consistent ((m.dropPending id).cleanup { snapshot with cleanupPaths := paths }) := by
  obtain ⟨hclaimed, hclaimedAt⟩ := h.not_claimed hs
  refine h.remove (Or.inl hs) (fun k => Dict.get?_erase _ _ _) (get?_eq_ite_none hclaimed)
    (fun k => Dict.get?_erase _ _ _) (get?_eq_ite_none hclaimedAt) (fun _ _ hk => hk) rfl rfl ?_
  show m.cleaned ++ [(snapshot.recordingId, snapshot.spoolPath)] = _
  rw [(h.named id snapshot (Or.inl hs)).1]

theorem Consistent.cleanupClaimed (h : Consistent m) (hs : m.claimed.get? id = some snapshot) :
    Consistent ((m.dropClaimed id).cleanup snapshot) := by
  obtain ⟨hpending, hpendingAt⟩ := h.not_pending hs
  refine h.remove (Or.inr hs) (get?_eq_ite_none hpending) (fun k => Dict.get?_erase _ _ _)
    (get?_eq_ite_none hpendingAt) (fun k => Dict.get?_erase _ _ _)
    (fun k hne hk => Finset.mem_erase.mpr ⟨hne, hk⟩) rfl rfl ?_
  show m.cleaned ++ [(snapshot.recordingId, snapshot.spoolPath)] = _
  rw [(h.named id snapshot (Or.inr hs)).1]

theorem get?_erase_none {ν : Type} {d : Dict String ν} (hnone : d.get? id = none) (k : String) :
    (d.erase id).get? k = d.get? k := by
  rw [Dict.get?_erase]
  exact (get?_eq_ite_none hnone k).symm

theorem Consistent.dropPending_none (h : Consistent m) (hnone : m.pending.get? id = none) :
    Consistent (m.dropPending id) := by
  have htime := h.pendingTimes id
  rw [hnone] at htime
  have hat : m.pendingCreatedAt.get? id = none :=
    Option.isNone_iff_eq_none.mp (by simpa using htime)
  exact h.retable (get?_erase_none hnone) (fun _ => rfl)
    (fun k => congrArg Option.isSome (get?_erase_none hat k)) (fun _ => rfl)
    (fun _ _ _ hk => hk) rfl rfl rfl

theorem Consistent.dropClaimed_none (h : Consistent m) (hnone : m.claimed.get? id = none) :
    Consistent (m.dropClaimed id) := by
  have htime := h.claimedTimes id
  rw [hnone] at htime
  have hat : m.claimedCreatedAt.get? id = none :=
    Option.isNone_iff_eq_none.mp (by simpa using htime)
  refine h.retable (fun _ => rfl) (get?_erase_none hnone) (fun _ => rfl)
    (fun k => congrArg Option.isSome (get?_erase_none hat k)) (fun k s hs hk => ?_) rfl rfl rfl
  refine Finset.mem_erase.mpr ⟨?_, hk⟩
  rintro rfl
  rw [hnone] at hs
  cases hs

theorem Consistent.removePending (h : Consistent m) (id : String) :
    Consistent (m.removePending id) := by
  unfold Manager.removePending
  split
  · exact h.dropPending_none (by assumption)
  · rename_i snapshot hs
    exact h.cleanupPending hs snapshot.cleanupPaths

theorem Consistent.replacePending (h : Consistent m) (slot : ℕ) (id : String) :
    Consistent (Manager.replacePending slot m id) := by
  unfold Manager.replacePending
  split
  · exact h
  · rename_i snapshot hs
    split
    · exact h.cleanupPending hs []
    · exact h

theorem Consistent.replaceClaimed (h : Consistent m) (slot : ℕ) (id : String) :
    Consistent (Manager.replaceClaimed slot m id) := by
  unfold Manager.replaceClaimed
  split
  · exact h
  · rename_i snapshot hs
    split
    · have hget : ∀ k, (m.claimed.insert id { snapshot with cleanupPaths := [] }).get? k =
          if k = id then some { snapshot with cleanupPaths := [] } else m.claimed.get? k :=
        fun k => Dict.get?_insert _ _ _ _
      refine h.reenter (fun k s s' hk hk' => ?_) h.pendingTimes (fun k => ?_) (fun k s hk => ?_)
        (fun k s hk => ?_) rfl rfl rfl
      · rw [hget] at hk'
        split at hk'
        · rename_i heq
          exact h.disjoint k s snapshot hk (heq ▸ hs)
        · exact h.disjoint k s s' hk hk'
      · rw [hget]
        split
        · rename_i heq
          rw [h.claimedTimes, heq, hs]
          rfl
        · exact h.claimedTimes k
      · rcases hk with hk | hk
        · exact ⟨s, Or.inl hk, Or.inl rfl⟩
        · rw [hget] at hk
          split at hk
          · rename_i heq
            cases hk
            exact ⟨snapshot, Or.inr (heq ▸ hs), Or.inr rfl⟩
          · exact ⟨s, Or.inr hk, Or.inl rfl⟩
      · rcases hk with hk | ⟨hk, hnot⟩
        · exact Or.inl hk
        · rw [Finset.mem_insert, not_or] at hnot
          rw [hget, if_neg hnot.1] at hk
          exact Or.inr ⟨hk, hnot.2⟩
    · exact h

theorem Consistent.expirePending (h : Consistent m) (id : String) :
    Consistent (m.expirePending id) := by
  unfold Manager.expirePending
  split
  · exact h.dropPending_none (by assumption)
  · rename_i snapshot hs
    split
    · exact h.removePending id
    · refine h.retable (fun k => ?_) (fun _ => rfl) (fun _ => rfl) (fun _ => rfl)
        (fun _ _ _ hk => hk) rfl rfl rfl
      show ((m.pending.erase id).insert id snapshot).get? k = _
      rw [Dict.get?_insert, Dict.get?_erase]
      split
      · rename_i heq
        rw [heq, hs]
      · rfl

theorem Consistent.expireClaimed (h : Consistent m) (id : String) :
    Consistent (m.expireClaimed id) := by
  unfold Manager.expireClaimed
  split
  · exact h.dropClaimed_none (by assumption)
  · rename_i snapshot hs
    split
    · exact h.cleanupClaimed hs
    · refine h.retable (fun _ => rfl) (fun k => ?_) (fun _ => rfl) (fun _ => rfl)
        (fun _ _ _ hk => hk) rfl rfl rfl
      show ((m.claimed.erase id).insert id snapshot).get? k = _
      rw [Dict.get?_insert, Dict.get?_erase]
      split
      · rename_i heq
        rw [heq, hs]
      · rfl

/-- What every single removal keeps, a loop of them keeps. -/
theorem Consistent.foldl (h : Consistent m)
    (hf : ∀ {m} (id : String), Consistent m → Consistent (f m id)) (ids : List String) :
    Consistent (ids.foldl f m) := by
  induction ids generalizing m with
  | nil => exact h
  | cons id ids ih => exact ih (hf id h)

theorem Consistent.discardAll (h : Consistent m) :
    Consistent m.discardAllPendingRecordings := by
  have hall := h.foldl (fun id h => h.removePending id)
    (m.pending.filter fun _ snapshot => Manager.unslotted snapshot).keys
  exact hall.retable (fun _ => rfl) (fun _ => rfl) (fun _ => rfl) (fun _ => rfl)
    (fun _ _ _ hk => Finset.mem_union_left _ hk) rfl rfl rfl

theorem Consistent.expire (h : Consistent m) (now ttl : ℕ) :
    Consistent (m.discardExpiredPendingRecordings now ttl) :=
  (h.foldl (fun id h => h.expirePending id) _).foldl (fun id h => h.expireClaimed id) _

theorem Consistent.discard (h : Consistent m) (id : String) :
    Consistent (m.discardPendingRecording id) := by
  have hremoved := h.removePending id
  simp only [Manager.discardPendingRecording]
  split
  · exact hremoved.retable (fun _ => rfl) (fun _ => rfl) (fun _ => rfl) (fun _ => rfl)
      (fun _ _ _ hk => Finset.mem_insert_of_mem hk) rfl rfl rfl
  · exact hremoved

/- Claiming moves a recording from one table to the other. -/
theorem claim_moves (hs : m.pending.get? id = some snapshot) (now : ℕ) (k : String) :
    (∀ s, Entry (m.claimPendingRecording id now) k s → Entry m k s) ∧
      ∀ s, Live (m.claimPendingRecording id now) k s → Live m k s := by
  unfold Manager.claimPendingRecording
  simp only [hs]
  have hpending : ∀ s, (m.pending.erase id).get? k = some s → m.pending.get? k = some s := by
    intro s hk
    rw [Dict.get?_erase] at hk
    split at hk
    · cases hk
    · exact hk
  have hclaimed : ∀ s, (m.claimed.insert id snapshot).get? k = some s →
      (k = id ∧ m.pending.get? k = some s) ∨ (k ≠ id ∧ m.claimed.get? k = some s) := by
    intro s hk
    rw [Dict.get?_insert] at hk
    split at hk
    · rename_i heq
      exact Or.inl ⟨heq, by rw [heq, hs, hk]⟩
    · exact Or.inr ⟨by assumption, hk⟩
  constructor
  · rintro s (hk | hk)
    · exact Or.inl (hpending s hk)
    · rcases hclaimed s hk with ⟨-, hk⟩ | ⟨-, hk⟩
      · exact Or.inl hk
      · exact Or.inr hk
  · rintro s (hk | ⟨hk, hnot⟩)
    · exact Or.inl (hpending s hk)
    · rcases hclaimed s hk with ⟨-, hk⟩ | ⟨hne, hk⟩
      · exact Or.inl hk
      · exact Or.inr ⟨hk, fun hmem => hnot (Finset.mem_erase.mpr ⟨hne, hmem⟩)⟩

theorem Consistent.claim (h : Consistent m) (id : String) (now : ℕ) :
    Consistent (m.claimPendingRecording id now) := by
  cases hs : m.pending.get? id with
  | none =>
    unfold Manager.claimPendingRecording
    rw [hs]
    exact h.dropPending_none hs
  | some snapshot =>
    have hmoves := claim_moves hs now
    unfold Manager.claimPendingRecording at hmoves ⊢
    simp only [hs] at hmoves ⊢
    refine h.reenter (fun k s s' hk hk' => ?_) (fun k => ?_) (fun k => ?_)
      (fun k s hk => ⟨s, (hmoves k).1 s hk, Or.inl rfl⟩) (fun k s hk => (hmoves k).2 s hk) rfl rfl rfl
    · have hk : (m.pending.erase id).get? k = some s := hk
      rw [Dict.get?_erase] at hk
      rw [Dict.get?_insert] at hk'
      split at hk
      · cases hk
      · rw [if_neg (by assumption)] at hk'
        exact h.disjoint k s s' hk hk'
    · show ((m.pendingCreatedAt.erase id).get? k).isSome = ((m.pending.erase id).get? k).isSome
      rw [Dict.get?_erase, Dict.get?_erase]
      split
      · rfl
      · exact h.pendingTimes k
    · rw [Dict.get?_insert, Dict.get?_insert]
      split
      · rfl
      · exact h.claimedTimes k

/- A claim that is released without a discard goes back. -/
theorem release_moves (hs : m.claimed.get? id = some snapshot) {saved : Bool}
    (hkeep : ¬(saved = true ∨ id ∈ m.discardRequested)) (now : ℕ) (k : String) :
    (∀ s, Entry (m.releasePendingRecordingClaim id saved now) k s → Entry m k s) ∧
      ∀ s, Live (m.releasePendingRecordingClaim id saved now) k s → Live m k s := by
  unfold Manager.releasePendingRecordingClaim
  simp only [hs, if_neg hkeep]
  rw [not_or] at hkeep
  have hclaimed : ∀ s, (m.claimed.erase id).get? k = some s →
      k ≠ id ∧ m.claimed.get? k = some s := by
    intro s hk
    rw [Dict.get?_erase] at hk
    split at hk
    · cases hk
    · exact ⟨by assumption, hk⟩
  have hpending : ∀ s, (m.pending.insert id snapshot).get? k = some s →
      (k = id ∧ m.claimed.get? k = some s) ∨ m.pending.get? k = some s := by
    intro s hk
    rw [Dict.get?_insert] at hk
    split at hk
    · rename_i heq
      exact Or.inl ⟨heq, by rw [heq, hs, hk]⟩
    · exact Or.inr hk
  constructor
  · rintro s (hk | hk)
    · rcases hpending s hk with ⟨-, hk⟩ | hk
      · exact Or.inr hk
      · exact Or.inl hk
    · exact Or.inr (hclaimed s hk).2
  · rintro s (hk | ⟨hk, hnot⟩)
    · rcases hpending s hk with ⟨heq, hk⟩ | hk
      · exact Or.inr ⟨hk, heq ▸ hkeep.2⟩
      · exact Or.inl hk
    · obtain ⟨hne, hk⟩ := hclaimed s hk
      exact Or.inr ⟨hk, fun hmem => hnot (Finset.mem_erase.mpr ⟨hne, hmem⟩)⟩

theorem Consistent.release (h : Consistent m) (id : String) (saved : Bool) (now : ℕ) :
    Consistent (m.releasePendingRecordingClaim id saved now) := by
  cases hs : m.claimed.get? id with
  | none =>
    unfold Manager.releasePendingRecordingClaim
    rw [hs]
    exact h.dropClaimed_none hs
  | some snapshot =>
    by_cases hgone : saved = true ∨ id ∈ m.discardRequested
    · unfold Manager.releasePendingRecordingClaim
      simp only [hs, if_pos hgone]
      exact h.cleanupClaimed hs
    · have hmoves := release_moves hs hgone now
      unfold Manager.releasePendingRecordingClaim at hmoves ⊢
      simp only [hs, if_neg hgone] at hmoves ⊢
      refine h.reenter (fun k s s' hk hk' => ?_) (fun k => ?_) (fun k => ?_)
        (fun k s hk => ⟨s, (hmoves k).1 s hk, Or.inl rfl⟩) (fun k s hk => (hmoves k).2 s hk)
        rfl rfl rfl
      · have hk' : (m.claimed.erase id).get? k = some s' := hk'
        rw [Dict.get?_insert] at hk
        rw [Dict.get?_erase] at hk'
        split at hk'
        · cases hk'
        · rw [if_neg (by assumption)] at hk
          exact h.disjoint k s s' hk hk'
      · rw [Dict.get?_insert, Dict.get?_insert]
        split
        · rfl
        · exact h.pendingTimes k
      · show ((m.claimedCreatedAt.erase id).get? k).isSome = ((m.claimed.erase id).get? k).isSome
        rw [Dict.get?_erase, Dict.get?_erase]
        split
        · rfl
        · exact h.claimedTimes k

/-! ## The end of a stop -/

/-- A stop may end without a recording. -/
theorem Consistent.setStop (h : Consistent m) {stop : Option Stop}
    (hready : ∀ s, stop = some s → StopReady m s) : Consistent { m with stop } := by
  have hstop : ∀ s, stop = some s → StopReady { m with stop } s := fun s hs =>
    (hready s hs).mono (fun k s hk => ⟨s, hk⟩) rfl fun e he => Or.inl he
  exact { h with stop := hstop }

/- No entry of the slot keeps a claim to its metadata file. -/
def SlotFree (m : Manager) (slot : ℕ) (id : String) : Prop :=
  ∀ k s, Entry m k s → k ≠ id → s.recordingSlot = slot → s.cleanupPaths = []

theorem Consistent.storePending (h : Consistent m) {slot : ℕ} (now : ℕ)
    (hready : StopReady m (.finished slot snapshot))
    (hfree : slot ≠ 0 → SlotFree m slot snapshot.recordingId) :
    Consistent { m.storePending snapshot now with stop := none } := by
  obtain ⟨hslot, hshape, hpaths, hin, hnot, hclean⟩ := hready
  have hpending : ∀ k, (m.pending.insert snapshot.recordingId snapshot).get? k =
      if k = snapshot.recordingId then some snapshot else m.pending.get? k :=
    fun k => Dict.get?_insert _ _ _ _
  have hentry : ∀ k s, Entry { m.storePending snapshot now with stop := none } k s →
      (k = snapshot.recordingId ∧ s = snapshot) ∨ (k ≠ snapshot.recordingId ∧ Entry m k s) := by
    rintro k s (hk | hk)
    · have hk : (m.pending.insert snapshot.recordingId snapshot).get? k = some s := hk
      rw [hpending] at hk
      split at hk
      · cases hk
        exact Or.inl ⟨by assumption, rfl⟩
      · exact Or.inr ⟨by assumption, Or.inl hk⟩
    · by_cases heq : k = snapshot.recordingId
      · exact absurd (heq ▸ Or.inr hk) (hnot s)
      · exact Or.inr ⟨heq, Or.inr hk⟩
  have hmeta : snapshot.cleanupPaths ≠ [] → slot ≠ 0 := by
    intro hne hzero
    rcases hshape with ⟨-, hnil, -⟩ | ⟨hnonzero, -⟩
    · exact hne hnil
    · exact hnonzero (hslot.trans hzero)
  refine ⟨fun k s s' hk hk' => ?_, fun k => ?_, h.claimedTimes, fun k s hk => ?_,
    fun k s hk => ?_, fun k s k' s' hk hk' hsame hne hne' => ?_, fun k s hk hslotted => ?_,
    h.known, h.once, by simp⟩
  · rcases hentry k s (Or.inl hk) with ⟨heq, -⟩ | ⟨hne, -⟩
    · exact hnot s' (heq ▸ Or.inr hk')
    · have hk : (m.pending.insert snapshot.recordingId snapshot).get? k = some s := hk
      rw [hpending, if_neg hne] at hk
      exact h.disjoint k s s' hk hk'
  · show ((m.pendingCreatedAt.insert snapshot.recordingId now).get? k).isSome =
      ((m.pending.insert snapshot.recordingId snapshot).get? k).isSome
    rw [hpending, Dict.get?_insert]
    split
    · rfl
    · exact h.pendingTimes k
  · rcases hentry k s hk with ⟨rfl, rfl⟩ | ⟨-, hold⟩
    · exact ⟨rfl, hin, hshape⟩
    · exact h.named k s hold
  · rcases hentry k s hk with ⟨rfl, rfl⟩ | ⟨-, hold⟩
    · exact hclean
    · exact h.kept k s hold
  · rcases hentry k s hk with ⟨rfl, rfl⟩ | ⟨hkne, hold⟩
    · rcases hentry k' s' hk' with ⟨rfl, -⟩ | ⟨hkne', hold'⟩
      · rfl
      · exact absurd (hfree (hmeta hne) k' s' hold' hkne' (hsame.symm.trans hslot)) hne'
    · rcases hentry k' s' hk' with ⟨rfl, rfl⟩ | ⟨-, hold'⟩
      · exact absurd (hfree (hmeta hne') k s hold hkne (hsame.trans hslot)) hne
      · exact h.slots k s k' s' hold hold' hsame hne hne'
  · rcases hentry k s (hk.imp_right And.left) with ⟨rfl, rfl⟩ | ⟨hkne, -⟩
    · rw [hpaths (hslot ▸ hslotted), hslot]
    · refine h.live k s ?_ hslotted
      rcases hk with hk | hk
      · have hk : (m.pending.insert snapshot.recordingId snapshot).get? k = some s := hk
        rw [hpending, if_neg hkne] at hk
        exact Or.inl hk
      · exact Or.inr hk

/-- A loop that gives each recording a property, and takes it from none. -/
theorem foldl_all {P : Manager → String → Prop} (hgives : ∀ m id, P (f m id) id)
    (hkeeps : ∀ m id k, P m k → P (f m id) k) (ids : List String) (m : Manager) {k : String}
    (hk : P m k ∨ k ∈ ids) :
    P (ids.foldl f m) k := by
  induction ids generalizing m with
  | nil => exact hk.resolve_right List.not_mem_nil
  | cons id ids ih =>
    refine ih (f m id) ?_
    rcases hk with hk | hk
    · exact Or.inl (hkeeps m id k hk)
    · rcases List.mem_cons.mp hk with rfl | hk
      · exact Or.inl (hgives m k)
      · exact Or.inr hk

/- No pending recording of the slot, no claimed one with the metadata file. -/
def Gone (slot : ℕ) (m : Manager) (k : String) : Prop :=
  ∀ s, m.pending.get? k = some s → normalizeMacroRecordingSlot s.recordingSlot ≠ slot

def Stripped (slot : ℕ) (m : Manager) (k : String) : Prop :=
  ∀ s, m.claimed.get? k = some s → normalizeMacroRecordingSlot s.recordingSlot = slot →
    s.cleanupPaths = []

theorem replacePending_gone (slot : ℕ) (m : Manager) (id : String) :
    Gone slot (Manager.replacePending slot m id) id ∧
      ∀ k, Gone slot m k → Gone slot (Manager.replacePending slot m id) k := by
  unfold Manager.replacePending
  split
  · rename_i hnone
    refine ⟨fun s hs => ?_, fun k hk => hk⟩
    rw [hnone] at hs
    cases hs
  · rename_i snapshot hsome
    have herase : ∀ k s, (m.pending.erase id).get? k = some s → k ≠ id ∧ m.pending.get? k = some s := by
      intro k s hs
      rw [Dict.get?_erase] at hs
      split at hs
      · cases hs
      · exact ⟨by assumption, hs⟩
    split
    · exact ⟨fun s hs => absurd rfl (herase id s hs).1, fun k hk s hs => hk s (herase k s hs).2⟩
    · rename_i hslot
      refine ⟨fun s hs => ?_, fun k hk => hk⟩
      rw [hsome] at hs
      cases hs
      exact hslot

theorem replaceClaimed_stripped (slot : ℕ) (m : Manager) (id : String) :
    Stripped slot (Manager.replaceClaimed slot m id) id ∧
      ∀ k, Stripped slot m k → Stripped slot (Manager.replaceClaimed slot m id) k := by
  unfold Manager.replaceClaimed
  split
  · rename_i hnone
    refine ⟨fun s hs => ?_, fun k hk => hk⟩
    rw [hnone] at hs
    cases hs
  · rename_i snapshot hsome
    split
    · have hget : ∀ k, (m.claimed.insert id { snapshot with cleanupPaths := [] }).get? k =
          if k = id then some { snapshot with cleanupPaths := [] } else m.claimed.get? k :=
        fun k => Dict.get?_insert _ _ _ _
      refine ⟨fun s hs _ => ?_, fun k hk s hs hslot => ?_⟩
      · rw [hget, if_pos rfl] at hs
        cases hs
        rfl
      · rw [hget] at hs
        split at hs
        · cases hs
          rfl
        · exact hk s hs hslot
    · rename_i hslot
      refine ⟨fun s hs hsame => ?_, fun k hk => hk⟩
      rw [hsome] at hs
      cases hs
      exact absurd hsame hslot

theorem replaceClaimed_pending (slot : ℕ) (ids : List String) (m : Manager) :
    (ids.foldl (Manager.replaceClaimed slot) m).pending = m.pending := by
  induction ids generalizing m with
  | nil => rfl
  | cons id ids ih =>
    rw [List.foldl_cons, ih]
    unfold Manager.replaceClaimed
    split
    · rfl
    · split <;> rfl

theorem slotFree_discardExisting {slot : ℕ} (hslot : slot ≠ 0)
    (hnorm : normalizeMacroRecordingSlot slot = slot) (id : String) :
    SlotFree (m.discardExistingSlotRecordings slot id) slot id := by
  intro k s hk hne hsame
  rw [← hsame] at hnorm
  simp only [Manager.discardExistingSlotRecordings] at hk
  rw [← hsame, hnorm, if_neg (hsame ▸ hslot)] at hk
  rcases hk with hk | hk
  · rw [replaceClaimed_pending] at hk
    refine absurd hnorm (foldl_all (P := Gone s.recordingSlot)
      (fun m id => (replacePending_gone _ m id).1) (fun m id k => (replacePending_gone _ m id).2 k)
      _ m ?_ s hk)
    by_cases hmem : k ∈ m.pending.keys
    · exact Or.inr (List.mem_filter.mpr ⟨hmem, decide_eq_true hne⟩)
    · left
      intro s' hs'
      rw [Dict.get?_eq_none_iff.mpr hmem] at hs'
      cases hs'
  · refine foldl_all (P := Stripped s.recordingSlot)
      (fun m id => (replaceClaimed_stripped _ m id).1)
      (fun m id k => (replaceClaimed_stripped _ m id).2 k) _ _ ?_ s hk hnorm
    generalize (m.pending.keys.filter _).foldl (Manager.replacePending s.recordingSlot) m = m'
    by_cases hmem : k ∈ m'.claimed.keys
    · exact Or.inr (List.mem_filter.mpr ⟨hmem, decide_eq_true hne⟩)
    · left
      intro s' hs'
      rw [Dict.get?_eq_none_iff.mpr hmem] at hs'
      cases hs'

theorem Consistent.discardExisting (h : Consistent m) (slot : ℕ) (id : String) :
    Consistent (m.discardExistingSlotRecordings slot id) := by
  simp only [Manager.discardExistingSlotRecordings]
  split
  · exact h
  · exact (h.foldl (fun id h => h.replacePending _ id) _).foldl
      (fun id h => h.replaceClaimed _ id) _

/-- A loop that leaves a part of the state alone. -/
theorem foldl_same {β : Type} {g : Manager → β} (hf : ∀ m id, g (f m id) = g m) (ids : List String)
    (m : Manager) :
    g (ids.foldl f m) = g m := by
  induction ids generalizing m with
  | nil => rfl
  | cons id ids ih => exact (ih (f m id)).trans (hf m id)

theorem replacePending_stop (slot : ℕ) (m : Manager) (id : String) :
    (Manager.replacePending slot m id).stop = m.stop := by
  unfold Manager.replacePending
  split
  · rfl
  · split <;> rfl

theorem replaceClaimed_stop (slot : ℕ) (m : Manager) (id : String) :
    (Manager.replaceClaimed slot m id).stop = m.stop := by
  unfold Manager.replaceClaimed
  split
  · rfl
  · split <;> rfl

theorem discardExisting_stop (m : Manager) (slot : ℕ) (id : String) :
    (m.discardExistingSlotRecordings slot id).stop = m.stop := by
  simp only [Manager.discardExistingSlotRecordings]
  split
  · rfl
  · exact (foldl_same (g := Manager.stop) (replaceClaimed_stop _) _ _).trans
      (foldl_same (g := Manager.stop) (replacePending_stop _) _ _)

theorem Consistent.store (h : Consistent m) {slot : ℕ} (now : ℕ)
    (hstop : m.stop = some (.finished slot snapshot)) :
    Consistent (m.store slot snapshot now) := by
  have hready := h.stop _ hstop
  simp only [Manager.store]
  split
  · rename_i hzero
    exact h.storePending now hready fun hne => absurd hzero hne
  · rename_i hne
    have hdiscarded := h.discardExisting slot snapshot.recordingId
    have hstop' := (discardExisting_stop m slot snapshot.recordingId).trans hstop
    refine hdiscarded.storePending now (hdiscarded.stop _ hstop') fun _ => ?_
    refine slotFree_discardExisting hne ?_ _
    obtain ⟨hslot, hshape, -⟩ := hready
    rcases hshape with ⟨hzero, -⟩ | ⟨-, hnorm, -⟩
    · exact absurd (hslot.symm.trans hzero) hne
    · rw [← hslot]
      exact hnorm

theorem Consistent.finish (h : Consistent m) {slot : ℕ} {recordingId : String}
    {spoolName : Option ℕ} (hstop : m.stop = some (.finishing slot))
    (hfresh : recordingId ∉ m.issued) : Consistent (m.finish slot recordingId spoolName) := by
  have hnorm : normalizeMacroRecordingSlot slot = slot := h.stop _ hstop
  have hnone : ∀ s, ¬Entry m recordingId s := fun s hs => hfresh (h.named recordingId s hs).2.1
  have hclean : ∀ path, (recordingId, path) ∉ m.cleaned := fun path hmem =>
    hfresh (h.known _ hmem)
  have hissued : Consistent { m with stop := none, issued := insert recordingId m.issued } := by
    refine { h with
      named := fun k s hk => ?_
      known := fun e he => Finset.mem_insert_of_mem (h.known e he)
      stop := nofun }
    obtain ⟨hname, hin, hshape⟩ := h.named k s hk
    exact ⟨hname, Finset.mem_insert_of_mem hin, hshape⟩
  have hpath : spoolName.map Path.spool = none ∨
      ∃ name, spoolName.map Path.spool = some (.spool name) := by
    cases spoolName with
    | none => exact Or.inl rfl
    | some name => exact Or.inr ⟨name, rfl⟩
  simp only [Manager.finish]
  split
  · rename_i hzero
    refine hissued.setStop fun s hs => ?_
    cases hs
    exact ⟨(hnorm.symm.trans hzero).symm, Or.inl ⟨rfl, rfl, hpath⟩,
      fun hne => absurd (hnorm.symm.trans hzero) hne, Finset.mem_insert_self _ _, hnone,
      hclean _⟩
  · rename_i hne
    refine hissued.setStop fun s hs => ?_
    cases hs
    exact ⟨hnorm ▸ hne, hnorm, Finset.mem_insert_self _ _, hnone, hpath, rfl, hclean⟩

/-- The snapshot of the spool is cleaned up once it has files of its own. -/
theorem Consistent.cleanupSpool (h : Consistent m) {slot : ℕ}
    (hready : StopReady m (.metaWritten slot snapshot)) :
    Consistent ((m.cleanup snapshot).setStop (.finished slot (Manager.persisted slot snapshot))) := by
  obtain ⟨hslot, hnorm, hin, hnone, hpath, -, hclean⟩ := hready
  have hcleaned : Consistent { m.cleanup snapshot with stop := none } := by
    refine { h with
      kept := fun k s hk => ?_
      known := fun e he => ?_
      once := ?_
      stop := nofun }
    · have hold := h.kept k s hk
      show (k, s.spoolPath) ∉ m.cleaned ++ [(snapshot.recordingId, snapshot.spoolPath)]
      rw [List.mem_append, List.mem_singleton]
      rintro (hmem | heq)
      · exact hold hmem
      · have hid : k = snapshot.recordingId := congrArg Prod.fst heq
        exact hnone s (hid ▸ hk)
    · rcases List.mem_append.mp he with he | he
      · exact h.known e he
      · rw [List.mem_singleton.mp he]
        exact hin
    · refine List.nodup_append.mpr ⟨h.once, List.nodup_singleton _, ?_⟩
      rintro e he e' he' rfl
      rw [List.mem_singleton.mp he'] at he
      exact hclean _ he
  refine hcleaned.setStop fun s hs => ?_
  cases hs
  refine ⟨rfl, Or.inr ⟨hslot, hnorm, rfl, Or.inr rfl⟩, fun _ => rfl, hin, hnone, fun hmem => ?_⟩
  rcases List.mem_append.mp hmem with hmem | hmem
  · exact hclean _ hmem
  · rw [List.mem_singleton] at hmem
    have hsame : some (Path.slotEvent slot snapshot.recordingId) = snapshot.spoolPath :=
      congrArg Prod.snd hmem
    rcases hpath with hpath | ⟨name, hpath⟩ <;> rw [hpath] at hsame <;> cases hsame

theorem Consistent.persist (h : Consistent m) {stop : Stop} (hstop : m.stop = some stop)
    (hstep : m.persist stop = some m') : Consistent m' := by
  have hready := h.stop stop hstop
  cases stop with
  | persisting slot snapshot
  | eventsWritten slot snapshot =>
    cases hstep
    refine Consistent.setStop (m := m.write _ _) { h with stop := h.stop } fun s hs => ?_
    cases hs
    exact hready
  | metaWritten slot snapshot =>
    cases hstep
    exact h.cleanupSpool hready
  | finishing slot | finished slot snapshot => cases hstep

theorem Consistent.step {op : Op} (h : Consistent m) (hstep : Store.step m op = some m') :
    Consistent m' := by
  cases op with
  | stop slot =>
    obtain ⟨-, rfl⟩ := enabled_eq_some.mp hstep
    refine h.setStop fun s hs => ?_
    cases hs
    exact normalize_idem slot
  | finish recordingId spoolName =>
    simp only [Store.step] at hstep
    split at hstep
    · obtain ⟨hfresh, heq⟩ := Option.ite_none_left_eq_some.mp hstep
      cases heq
      exact h.finish (by assumption) hfresh
    · cases hstep
  | persist =>
    obtain ⟨stop, hstop, hpersist⟩ := Option.bind_eq_some_iff.mp hstep
    exact h.persist hstop hpersist
  | fail =>
    obtain ⟨-, heq⟩ := Option.ite_none_left_eq_some.mp hstep
    cases heq
    exact h.setStop nofun
  | store now =>
    simp only [Store.step] at hstep
    split at hstep
    · cases hstep
      exact h.store now (by assumption)
    · cases hstep
  | claim recordingId now =>
    cases hstep
    exact h.claim recordingId now
  | release recordingId saved now =>
    cases hstep
    exact h.release recordingId saved now
  | discard recordingId =>
    cases hstep
    exact h.discard recordingId
  | discardAll =>
    cases hstep
    exact h.discardAll
  | expire now ttl =>
    cases hstep
    exact h.expire now ttl

theorem Live.entry {s : RecordingSnapshot} (h : Live m id s) : Entry m id s :=
  h.imp_right And.left

/-- The tables stay apart and complete, a slot holds one recording, and no recording is cleaned
up twice or while it is in a table. -/
theorem recordings_consistent {ops : List Op} (hrun : run step {} ops = some m) :
    (∀ id, ¬(m.pending.contains id = true ∧ m.claimed.contains id = true)) ∧
      (∀ id, m.pendingCreatedAt.contains id = m.pending.contains id ∧
        m.claimedCreatedAt.contains id = m.claimed.contains id) ∧
      (∀ id s id' s', Live m id s → Live m id' s' → s.recordingSlot = s'.recordingSlot →
        s.recordingSlot ≠ 0 → id = id') ∧
      m.cleaned.Nodup ∧
      ∀ id s, Entry m id s → s.recordingId = id ∧ (id, s.spoolPath) ∉ m.cleaned := by
  have h : Consistent m := run_invariant (fun _ _ _ h hs => h.step hs) consistent_start hrun
  refine ⟨fun id hboth => ?_, fun id => ⟨h.pendingTimes id, h.claimedTimes id⟩,
    fun id s id' s' hs hs' hsame hne => ?_, h.once,
    fun id s hs => ⟨(h.named id s hs).1, h.kept id s hs⟩⟩
  · obtain ⟨s, hs⟩ := Option.isSome_iff_exists.mp hboth.1
    obtain ⟨s', hs'⟩ := Option.isSome_iff_exists.mp hboth.2
    exact h.disjoint id s s' hs hs'
  · refine h.slots id s id' s' hs.entry hs'.entry hsame ?_ ?_
    · rw [h.live id s hs hne]
      exact List.cons_ne_nil _ _
    · rw [h.live id' s' hs' (hsame ▸ hne)]
      exact List.cons_ne_nil _ _

/- A recording replaces one that is claimed, and is discarded while it is claimed itself. -/
def replacedClaim : List Op :=
  [.stop 1, .finish "a" none, .persist, .persist, .persist, .store 10, .claim "a" 11,
    .stop 1, .finish "b" (some 7), .persist, .persist, .persist, .store 20,
    .release "a" false 21, .claim "b" 22, .discard "b", .expire 3000 1800]

theorem recordings_consistent_replaced : ∃ m, run step {} replacedClaim = some m ∧
    m.cleaned = [("a", none), ("b", some (.spool 7)), ("a", some (.slotEvent 1 "a")),
      ("b", some (.slotEvent 1 "b"))] ∧
    (∀ id, ¬(m.pending.contains id = true ∧ m.claimed.contains id = true)) ∧
      (∀ id, m.pendingCreatedAt.contains id = m.pending.contains id ∧
        m.claimedCreatedAt.contains id = m.claimed.contains id) ∧
      (∀ id s id' s', Live m id s → Live m id' s' → s.recordingSlot = s'.recordingSlot →
        s.recordingSlot ≠ 0 → id = id') ∧
      m.cleaned.Nodup ∧
      ∀ id s, Entry m id s → s.recordingId = id ∧ (id, s.spoolPath) ∉ m.cleaned := by
  have hsome : (run step {} replacedClaim).any (fun m => decide (m.cleaned =
      [("a", none), ("b", some (.spool 7)), ("a", some (.slotEvent 1 "a")),
        ("b", some (.slotEvent 1 "b"))])) = true := by decide
  rw [Option.any_eq_true] at hsome
  obtain ⟨m, hrun, hm⟩ := hsome
  exact ⟨m, hrun, of_decide_eq_true hm, recordings_consistent hrun⟩

end Keymasq.Recording.Tables
