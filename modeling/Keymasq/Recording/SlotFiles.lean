import Keymasq.Recording.Tables

/-!
# The files of a slot

A stop replaces the metadata file of its slot before it replaces the recording
in the table. In between, the older recording still counts that file as its
own, and takes the new one away when it is cleaned up.
-/

namespace Keymasq.Recording.SlotFiles
open Foundation Foundation.Transition Store Tables

/-- The slot whose metadata file the stop has already replaced. -/
def rewritten : Stop → Option ℕ
  | .metaWritten slot _ | .finished slot _ => some slot
  | _ => none

/- The metadata files that are unlinked together with recordings of the tables. -/
def unlinks (m : Manager) : Op → List Path
  | .release recordingId saved _ =>
    match m.claimed.get? recordingId with
    | some snapshot =>
      if saved ∨ recordingId ∈ m.discardRequested then snapshot.cleanupPaths else []
    | none => []
  | .discard recordingId => ((m.pending.get? recordingId).map (·.cleanupPaths)).getD []
  | .expire now ttl => (Manager.expired m.claimedCreatedAt now ttl).flatMap fun recordingId =>
    match m.claimed.get? recordingId with
    | some snapshot => if recordingId ∈ m.discardRequested then snapshot.cleanupPaths else []
    | none => []
  | _ => []

/- No recording of the slot is pending, or claimed and not to be discarded. -/
def vacant (m : Manager) (slot : ℕ) : Bool :=
  (m.pending.entries.all fun e => e.2.recordingSlot ≠ slot) &&
    m.claimed.entries.all fun e => e.2.recordingSlot ≠ slot ∨ e.1 ∈ m.discardRequested

/-- Between the two replacements of a stop, no older recording of the slot is cleaned up with
its metadata file, and the stop does not fail while there is one. -/
def keepsMeta (m : Manager) (op : Op) : Bool :=
  match m.stop.bind rewritten with
  | none => true
  | some slot => decide (.slotMeta slot ∉ unlinks m op) &&
      match op with
      | .fail => vacant m slot
      | _ => true

/- The files of a recording that is in its slot. -/
def EventsAt (m : Manager) (slot : ℕ) (id : String) : Prop :=
  m.files.get? (.slotEvent slot id) = some (.events id)

def MetaAt (m : Manager) (slot : ℕ) (id : String) : Prop :=
  m.files.get? (.slotMeta slot) = some (.slotMeta id slot (.slotEvent slot id))

def StopFiles (m : Manager) : Stop → Prop
  | .eventsWritten slot snapshot => EventsAt m slot snapshot.recordingId
  | .metaWritten slot snapshot =>
    EventsAt m slot snapshot.recordingId ∧ MetaAt m slot snapshot.recordingId
  | .finished slot snapshot => slot ≠ 0 →
    EventsAt m slot snapshot.recordingId ∧ MetaAt m slot snapshot.recordingId
  | _ => True

/-- The files of the recordings in slots are there, but for the slot of a stop. -/
structure Stored (m : Manager) : Prop where
  consistent : Consistent m
  events : ∀ id s, Entry m id s → s.recordingSlot ≠ 0 → EventsAt m s.recordingSlot id
  live : ∀ id s, Live m id s → s.recordingSlot ≠ 0 →
    m.stop.bind rewritten = some s.recordingSlot ∨ MetaAt m s.recordingSlot id
  stop : ∀ stop, m.stop = some stop → StopFiles m stop

theorem stored_start : Stored {} := by
  refine ⟨consistent_start, ?_, ?_, nofun⟩
  · rintro id s (h | h) <;> cases h
  · rintro id s (h | ⟨h, -⟩) <;> cases h

variable {m m' : Manager} {id k : String} {snapshot : RecordingSnapshot}

theorem cleanup_files (m : Manager) (snapshot : RecordingSnapshot) (path : Path) :
    (m.cleanup snapshot).files.get? path =
      if path ∈ snapshot.spoolPath.toList ++ snapshot.cleanupPaths then none
      else m.files.get? path :=
  Dict.get?_foldl_erase _ _ _

/- A slot recording is stored under its own number and its own id. -/
theorem spoolPath_eq {slot : ℕ} (h : Consistent m) (hs : Entry m id snapshot)
    (hpath : Path.slotEvent slot k ∈ snapshot.spoolPath.toList) : k = id := by
  obtain ⟨hname, -, hshape⟩ := h.named id snapshot hs
  rw [Option.mem_toList] at hpath
  rcases hshape with ⟨-, -, hnone | ⟨name, hspool⟩⟩ | ⟨-, -, hevent, -⟩
  · rw [hnone] at hpath
    cases hpath
  · rw [hspool] at hpath
    cases hpath
  · rw [hevent] at hpath
    cases hpath
    exact hname

theorem meta_mem {slot : ℕ} (h : Consistent m) (hs : Entry m id snapshot)
    (hpath : Path.slotMeta slot ∈ snapshot.cleanupPaths) :
    snapshot.recordingSlot = slot ∧ slot ≠ 0 := by
  obtain ⟨-, -, hshape⟩ := h.named id snapshot hs
  rcases hshape with ⟨-, hnil, -⟩ | ⟨hne, -, -, hnil | hmeta⟩
  · rw [hnil] at hpath
    cases hpath
  · rw [hnil] at hpath
    cases hpath
  · rw [hmeta, List.mem_singleton] at hpath
    cases hpath
    exact ⟨rfl, hne⟩

/-! ## The files of recordings that stay -/

/- Cleaning up one recording leaves the events of the others. -/
theorem events_cleanup {cleaned : RecordingSnapshot} {slot : ℕ} (h : Consistent m)
    (hs : Entry m id snapshot) (hspool : cleaned.spoolPath = snapshot.spoolPath)
    (hpaths : cleaned.cleanupPaths ⊆ snapshot.cleanupPaths) (hne : k ≠ id)
    (hevents : EventsAt m slot k) : EventsAt (m.cleanup cleaned) slot k := by
  unfold EventsAt
  rw [cleanup_files, if_neg, hevents]
  rw [List.mem_append, hspool]
  rintro (hmem | hmem)
  · exact hne (spoolPath_eq h hs hmem)
  · have hin := hpaths hmem
    obtain ⟨-, -, hshape⟩ := h.named id snapshot hs
    rcases hshape with ⟨-, hnil, -⟩ | ⟨-, -, -, hnil | hmeta⟩
    · rw [hnil] at hin
      cases hin
    · rw [hnil] at hin
      cases hin
    · rw [hmeta, List.mem_singleton] at hin
      cases hin

theorem meta_cleanup {cleaned : RecordingSnapshot} {slot : ℕ} (h : Consistent m)
    (hs : Entry m id snapshot) (hspool : cleaned.spoolPath = snapshot.spoolPath)
    (hnot : Path.slotMeta slot ∉ cleaned.cleanupPaths) (hmeta : MetaAt m slot k) :
    MetaAt (m.cleanup cleaned) slot k := by
  unfold MetaAt
  rw [cleanup_files, if_neg, hmeta]
  rw [List.mem_append, hspool]
  rintro (hmem | hmem)
  · obtain ⟨-, -, hshape⟩ := h.named id snapshot hs
    rw [Option.mem_toList] at hmem
    rcases hshape with ⟨-, -, hnone | ⟨name, hname⟩⟩ | ⟨-, -, hevent, -⟩
    · rw [hnone] at hmem
      cases hmem
    · rw [hname] at hmem
      cases hmem
    · rw [hevent] at hmem
      cases hmem
  · exact hnot hmem

/-- A recording is cleaned up, and the metadata file of a running stop is not touched. -/
theorem Stored.remove (h : Stored m) (hs : Entry m id snapshot) (cleaned : RecordingSnapshot)
    (hspool : cleaned.spoolPath = snapshot.spoolPath)
    (hpaths : cleaned.cleanupPaths ⊆ snapshot.cleanupPaths) (hconsistent : Consistent m')
    (hfiles : m'.files = (m.cleanup cleaned).files) (hstop : m'.stop = m.stop)
    (hentry : ∀ k s, Entry m' k s → k ≠ id ∧ Entry m k s) (hlive : ∀ k s, Live m' k s → Live m k s)
    (hguard : ∀ slot, m.stop.bind rewritten = some slot →
      Path.slotMeta slot ∉ cleaned.cleanupPaths) : Stored m' := by
  have hevents : ∀ {slot k}, k ≠ id → EventsAt m slot k → EventsAt m' slot k := by
    intro slot k hne hat
    unfold EventsAt
    rw [hfiles]
    exact events_cleanup h.consistent hs hspool hpaths hne hat
  have hmeta : ∀ {slot k}, Path.slotMeta slot ∉ cleaned.cleanupPaths → MetaAt m slot k →
      MetaAt m' slot k := by
    intro slot k hnot hat
    unfold MetaAt
    rw [hfiles]
    exact meta_cleanup h.consistent hs hspool hnot hat
  refine ⟨hconsistent, fun k s hk hslot => ?_, fun k s hk hslot => ?_, fun stop hst => ?_⟩
  · obtain ⟨hne, hold⟩ := hentry k s hk
    exact hevents hne (h.events k s hold hslot)
  · rw [hstop]
    have hold := hlive k s hk
    rcases h.live k s hold hslot with hrunning | hat
    · exact Or.inl hrunning
    · refine Or.inr (hmeta (fun hmem => ?_) hat)
      have hsame := (meta_mem h.consistent hs (hpaths hmem)).1
      have hneither : s.cleanupPaths ≠ [] := by
        rw [h.consistent.live k s hold hslot]
        exact List.cons_ne_nil _ _
      exact (hentry k s hk.entry).1 (h.consistent.slots k s id snapshot hold.entry hs hsame.symm
        hneither (List.ne_nil_of_mem (hpaths hmem)))
  · rw [hstop] at hst
    have hready := h.consistent.stop stop hst
    have hold := h.stop stop hst
    cases stop with
    | finishing slot => trivial
    | persisting slot snapshot => trivial
    | eventsWritten slot new =>
      obtain ⟨-, -, -, hnone, -⟩ := hready
      refine hevents ?_ hold
      rintro rfl
      exact hnone snapshot hs
    | metaWritten slot new =>
      obtain ⟨-, -, -, hnone, -⟩ := hready
      refine ⟨hevents ?_ hold.1, hmeta (hguard slot (by rw [hst]; rfl)) hold.2⟩
      rintro rfl
      exact hnone snapshot hs
    | finished slot new =>
      obtain ⟨-, -, -, -, hnone, -⟩ := hready
      refine fun hslot => ⟨hevents ?_ (hold hslot).1,
        hmeta (hguard slot (by rw [hst]; rfl)) (hold hslot).2⟩
      rintro rfl
      exact hnone snapshot hs

/-- The files stay, and every recording that is in its slot was there before. -/
theorem Stored.reenter (h : Stored m) (hconsistent : Consistent m') (hfiles : m'.files = m.files)
    (hstop : m'.stop = m.stop)
    (hentry : ∀ k s, Entry m' k s → ∃ s', Entry m k s' ∧ s.recordingSlot = s'.recordingSlot)
    (hlive : ∀ k s, Live m' k s → Live m k s) : Stored m' := by
  refine ⟨hconsistent, fun k s hk hslot => ?_, fun k s hk hslot => ?_, fun stop hst => ?_⟩
  · obtain ⟨s', hs', hsame⟩ := hentry k s hk
    have hat := h.events k s' hs' (hsame ▸ hslot)
    unfold EventsAt at hat ⊢
    rw [hfiles, hsame]
    exact hat
  · have hat := h.live k s (hlive k s hk) hslot
    unfold MetaAt at hat ⊢
    rw [hfiles, hstop]
    exact hat
  · rw [hstop] at hst
    have hold := h.stop stop hst
    unfold StopFiles EventsAt MetaAt at hold ⊢
    rw [hfiles]
    exact hold

/-! ## The operations -/

theorem erase_imp {ν : Type} {d : Dict String ν} {v : ν} (h : (d.erase id).get? k = some v) :
    k ≠ id ∧ d.get? k = some v := by
  rw [Dict.get?_erase] at h
  split at h
  · cases h
  · exact ⟨by assumption, h⟩

theorem Stored.cleanupPending (h : Stored m) (hs : m.pending.get? id = some snapshot)
    {paths : List Path} (hpaths : paths ⊆ snapshot.cleanupPaths)
    (hguard : ∀ slot, m.stop.bind rewritten = some slot → Path.slotMeta slot ∉ paths) :
    Stored ((m.dropPending id).cleanup { snapshot with cleanupPaths := paths }) := by
  refine h.remove (Or.inl hs) { snapshot with cleanupPaths := paths } rfl hpaths
    (h.consistent.cleanupPending hs paths) rfl rfl
    (fun k s hk => ?_) (fun k s hk => ?_) hguard
  · rcases hk with hk | hk
    · exact ⟨(erase_imp hk).1, Or.inl (erase_imp hk).2⟩
    · refine ⟨?_, Or.inr hk⟩
      rintro rfl
      exact h.consistent.disjoint k snapshot s hs hk
  · exact hk.imp_left fun hk => (erase_imp hk).2

theorem Stored.cleanupClaimed (h : Stored m) (hs : m.claimed.get? id = some snapshot)
    (hguard : ∀ slot, m.stop.bind rewritten = some slot →
      Path.slotMeta slot ∉ snapshot.cleanupPaths) :
    Stored ((m.dropClaimed id).cleanup snapshot) := by
  refine h.remove (Or.inr hs) snapshot rfl (List.Subset.refl _) (h.consistent.cleanupClaimed hs) rfl rfl
    (fun k s hk => ?_) (fun k s hk => ?_) hguard
  · rcases hk with hk | hk
    · refine ⟨?_, Or.inl hk⟩
      rintro rfl
      exact h.consistent.disjoint k s snapshot hk hs
    · exact ⟨(erase_imp hk).1, Or.inr (erase_imp hk).2⟩
  · rcases hk with hk | ⟨hk, hnot⟩
    · exact Or.inl hk
    · obtain ⟨hne, hk⟩ := erase_imp hk
      exact Or.inr ⟨hk, fun hmem => hnot (Finset.mem_erase.mpr ⟨hne, hmem⟩)⟩

theorem Stored.dropPending_none (h : Stored m) (hnone : m.pending.get? id = none) :
    Stored (m.dropPending id) :=
  h.reenter (h.consistent.dropPending_none hnone) rfl rfl
    (fun _ s hk => ⟨s, hk.imp_left fun hk => (erase_imp hk).2, rfl⟩)
    fun _ _ hk => hk.imp_left fun hk => (erase_imp hk).2

theorem Stored.dropClaimed_none (h : Stored m) (hnone : m.claimed.get? id = none) :
    Stored (m.dropClaimed id) := by
  refine h.reenter (h.consistent.dropClaimed_none hnone) rfl rfl
    (fun _ s hk => ⟨s, hk.imp_right fun hk => (erase_imp hk).2, rfl⟩) fun k s hk => ?_
  rcases hk with hk | ⟨hk, hnot⟩
  · exact Or.inl hk
  · obtain ⟨hne, hk⟩ := erase_imp hk
    exact Or.inr ⟨hk, fun hmem => hnot (Finset.mem_erase.mpr ⟨hne, hmem⟩)⟩

theorem Stored.removePending (h : Stored m)
    (hguard : ∀ s, m.pending.get? id = some s → ∀ slot, m.stop.bind rewritten = some slot →
      Path.slotMeta slot ∉ s.cleanupPaths) : Stored (m.removePending id) := by
  unfold Manager.removePending
  split
  · exact h.dropPending_none (by assumption)
  · rename_i snapshot hs
    exact h.cleanupPending hs (List.Subset.refl _) (hguard snapshot hs)

/- A recording without a slot has no metadata file. -/
theorem unslotted_paths (h : Consistent m) (hs : Entry m id snapshot)
    (hunslotted : Manager.unslotted snapshot = true) : snapshot.cleanupPaths = [] := by
  obtain ⟨-, -, hshape⟩ := h.named id snapshot hs
  rcases hshape with ⟨-, hnil, -⟩ | ⟨hne, hnorm, -⟩
  · exact hnil
  · exact absurd (hnorm.symm.trans (of_decide_eq_true hunslotted)) hne

theorem Stored.replacePending (h : Stored m) (slot : ℕ) (id : String) :
    Stored (Manager.replacePending slot m id) := by
  unfold Manager.replacePending
  split
  · exact h
  · rename_i snapshot hs
    split
    · exact h.cleanupPending hs (List.nil_subset _) fun _ _ => List.not_mem_nil
    · exact h

theorem Stored.replaceClaimed (h : Stored m) (slot : ℕ) (id : String) :
    Stored (Manager.replaceClaimed slot m id) := by
  have hconsistent := h.consistent.replaceClaimed slot id
  unfold Manager.replaceClaimed at hconsistent ⊢
  split
  · exact h
  · rename_i snapshot hs
    simp only [hs] at hconsistent
    split
    · rename_i hslot
      rw [if_pos hslot] at hconsistent
      have hget : ∀ k, (m.claimed.insert id { snapshot with cleanupPaths := [] }).get? k =
          if k = id then some { snapshot with cleanupPaths := [] } else m.claimed.get? k :=
        fun k => Dict.get?_insert _ _ _ _
      refine h.reenter hconsistent rfl rfl (fun k s hk => ?_) fun k s hk => ?_
      · rcases hk with hk | hk
        · exact ⟨s, Or.inl hk, rfl⟩
        · rw [hget] at hk
          split at hk
          · rename_i heq
            cases hk
            exact ⟨snapshot, Or.inr (heq ▸ hs), rfl⟩
          · exact ⟨s, Or.inr hk, rfl⟩
      · rcases hk with hk | ⟨hk, hnot⟩
        · exact Or.inl hk
        · rw [Finset.mem_insert, not_or] at hnot
          rw [hget, if_neg hnot.1] at hk
          exact Or.inr ⟨hk, hnot.2⟩
    · exact h

theorem Stored.expirePending (h : Stored m) (id : String) : Stored (m.expirePending id) := by
  have hconsistent := h.consistent.expirePending id
  unfold Manager.expirePending at hconsistent ⊢
  split
  · exact h.dropPending_none (by assumption)
  · rename_i snapshot hs
    simp only [hs] at hconsistent
    split
    · rename_i hunslotted
      refine h.removePending fun s hs' slot _ => ?_
      rw [hs] at hs'
      cases hs'
      rw [unslotted_paths h.consistent (Or.inl hs) hunslotted]
      exact List.not_mem_nil
    · rename_i hslotted
      rw [if_neg hslotted] at hconsistent
      have hget : ∀ k, ((m.pending.erase id).insert id snapshot).get? k = m.pending.get? k := by
        intro k
        rw [Dict.get?_insert, Dict.get?_erase]
        split
        · rename_i heq
          rw [heq, hs]
        · rfl
      exact h.reenter hconsistent rfl rfl
        (fun k s hk => ⟨s, hk.imp_left fun hk => (hget k).symm.trans hk, rfl⟩)
        fun k s hk => hk.imp_left fun hk => (hget k).symm.trans hk

/- A claimed recording may be cleaned up if it takes no metadata file of a stop away. -/
def Removable (m : Manager) (id : String) : Prop :=
  ∀ s, m.claimed.get? id = some s → id ∈ m.discardRequested →
    ∀ slot, m.stop.bind rewritten = some slot → Path.slotMeta slot ∉ s.cleanupPaths

theorem Stored.expireClaimed (h : Stored m) (hguard : Removable m id) :
    Stored (m.expireClaimed id) := by
  have hconsistent := h.consistent.expireClaimed id
  unfold Manager.expireClaimed at hconsistent ⊢
  split
  · exact h.dropClaimed_none (by assumption)
  · rename_i snapshot hs
    simp only [hs] at hconsistent
    split
    · rename_i hgone
      refine h.cleanupClaimed hs fun slot hslot => ?_
      rcases hgone with hunslotted | hdiscard
      · rw [unslotted_paths h.consistent (Or.inr hs) hunslotted]
        exact List.not_mem_nil
      · exact hguard snapshot hs hdiscard slot hslot
    · rename_i hstays
      rw [if_neg hstays] at hconsistent
      have hget : ∀ k, ((m.claimed.erase id).insert id snapshot).get? k = m.claimed.get? k := by
        intro k
        rw [Dict.get?_insert, Dict.get?_erase]
        split
        · rename_i heq
          rw [heq, hs]
        · rfl
      exact h.reenter hconsistent rfl rfl
        (fun k s hk => ⟨s, hk.imp_right fun hk => (hget k).symm.trans hk, rfl⟩)
        fun k s hk => hk.imp_right fun hk => ⟨(hget k).symm.trans hk.1, hk.2⟩

/-- What the others may lose, they may still lose after one has expired. -/
theorem removable_expireClaimed (hk : Removable m k) : Removable (m.expireClaimed id) k := by
  unfold Manager.expireClaimed
  split
  · intro s hs hmem
    exact hk s (erase_imp hs).2 (Finset.mem_of_mem_erase hmem)
  · rename_i snapshot hsome
    split
    · intro s hs hmem
      exact hk s (erase_imp hs).2 (Finset.mem_of_mem_erase hmem)
    · intro s hs hmem
      have hs : ((m.claimed.erase id).insert id snapshot).get? k = some s := hs
      refine hk s ?_ hmem
      rw [Dict.get?_insert] at hs
      split at hs
      · rename_i heq
        cases hs
        rw [heq, hsome]
      · exact (erase_imp hs).2

theorem Stored.foldl (h : Stored m) {f : Manager → String → Manager}
    (hf : ∀ {m} (id : String), Stored m → Stored (f m id)) (ids : List String) :
    Stored (ids.foldl f m) := by
  induction ids generalizing m with
  | nil => exact h
  | cons id ids ih => exact ih (hf id h)

theorem Stored.foldl_expireClaimed (h : Stored m) {ids : List String}
    (hguard : ∀ id ∈ ids, Removable m id) : Stored (ids.foldl Manager.expireClaimed m) := by
  induction ids generalizing m with
  | nil => exact h
  | cons id ids ih =>
    refine ih (h.expireClaimed (hguard id List.mem_cons_self)) fun k hk => ?_
    exact removable_expireClaimed (hguard k (List.mem_cons_of_mem _ hk))

theorem expirePending_claimed (m : Manager) (id : String) :
    (m.expirePending id).claimed = m.claimed ∧
      (m.expirePending id).discardRequested = m.discardRequested ∧
      (m.expirePending id).stop = m.stop ∧
      (m.expirePending id).claimedCreatedAt = m.claimedCreatedAt := by
  unfold Manager.expirePending
  split
  · exact ⟨rfl, rfl, rfl, rfl⟩
  · split
    · unfold Manager.removePending
      split <;> exact ⟨rfl, rfl, rfl, rfl⟩
    · exact ⟨rfl, rfl, rfl, rfl⟩

/- The paths a guard speaks of are those a step can unlink. -/
theorem not_unlinked {op : Op} (hguard : keepsMeta m op = true) {slot : ℕ}
    (hslot : m.stop.bind rewritten = some slot) : Path.slotMeta slot ∉ unlinks m op := by
  unfold keepsMeta at hguard
  rw [hslot] at hguard
  exact of_decide_eq_true (Bool.and_eq_true_iff.mp hguard).1

theorem Stored.expire (h : Stored m) {now ttl : ℕ}
    (hguard : keepsMeta m (.expire now ttl) = true) :
    Stored (m.discardExpiredPendingRecordings now ttl) := by
  unfold Manager.discardExpiredPendingRecordings
  have hpending := h.foldl (fun id h => h.expirePending id)
    (Manager.expired m.pendingCreatedAt now ttl)
  refine hpending.foldl_expireClaimed fun id hid s hs hmem slot hslot hpath => ?_
  rw [foldl_same (g := Manager.claimed) fun m id => (expirePending_claimed m id).1] at hs
  rw [foldl_same (g := Manager.discardRequested)
    fun m id => (expirePending_claimed m id).2.1] at hmem
  rw [foldl_same (g := Manager.stop) fun m id => (expirePending_claimed m id).2.2.1] at hslot
  refine not_unlinked hguard hslot (List.mem_flatMap.mpr ⟨id, hid, ?_⟩)
  rw [hs]
  show _ ∈ if id ∈ m.discardRequested then s.cleanupPaths else []
  rw [if_pos hmem]
  exact hpath

theorem Stored.discardAll (h : Stored m) : Stored m.discardAllPendingRecordings := by
  have hconsistent := h.consistent.discardAll
  simp only [Manager.discardAllPendingRecordings] at hconsistent ⊢
  have hall : ∀ (ids : List String) (m : Manager), Stored m →
      (∀ id ∈ ids, ∀ s, m.pending.get? id = some s → s.cleanupPaths = []) →
      Stored (ids.foldl Manager.removePending m) := by
    intro ids
    induction ids with
    | nil => exact fun m h _ => h
    | cons id ids ih =>
      intro m h hnil
      refine ih _ (h.removePending fun s hs slot _ => ?_) fun k hk s hs => ?_
      · rw [hnil id List.mem_cons_self s hs]
        exact List.not_mem_nil
      · refine hnil k (List.mem_cons_of_mem _ hk) s ?_
        unfold Manager.removePending at hs
        split at hs <;> exact (erase_imp hs).2
  refine (hall _ m h fun id hid s hs => ?_).reenter hconsistent rfl rfl
    (fun _ s hk => ⟨s, hk, rfl⟩)
    fun _ _ hk => hk.imp_right fun hk => ⟨hk.1, fun hmem => hk.2 (Finset.mem_union_left _ hmem)⟩
  obtain ⟨e, he, rfl⟩ := List.mem_map.mp hid
  have hfound := Dict.get?_filter_eq_some.mp (Dict.get?_eq_some_iff.mpr he)
  rw [hfound.1] at hs
  cases hs
  exact unslotted_paths h.consistent (Or.inl hfound.1) hfound.2

theorem Stored.discard (h : Stored m) (hguard : keepsMeta m (.discard id) = true) :
    Stored (m.discardPendingRecording id) := by
  have hconsistent := h.consistent.discard id
  have hremoved : Stored (m.removePending id) := by
    refine h.removePending fun s hs slot hslot => ?_
    have hnot : Path.slotMeta slot ∉ ((m.pending.get? id).map (·.cleanupPaths)).getD [] :=
      not_unlinked hguard hslot
    rw [hs] at hnot
    exact hnot
  simp only [Manager.discardPendingRecording] at hconsistent ⊢
  split
  · rename_i hclaimed
    rw [if_pos hclaimed] at hconsistent
    exact hremoved.reenter hconsistent rfl rfl (fun _ s hk => ⟨s, hk, rfl⟩)
      fun _ _ hk => hk.imp_right fun hk => ⟨hk.1, fun hmem => hk.2 (Finset.mem_insert_of_mem hmem)⟩
  · exact hremoved

theorem Stored.claim (h : Stored m) (id : String) (now : ℕ) :
    Stored (m.claimPendingRecording id now) := by
  have hconsistent := h.consistent.claim id now
  cases hs : m.pending.get? id with
  | none =>
    unfold Manager.claimPendingRecording
    rw [hs]
    exact h.dropPending_none hs
  | some snapshot =>
    have hmoves := claim_moves hs now
    unfold Manager.claimPendingRecording at hconsistent hmoves ⊢
    simp only [hs] at hconsistent hmoves ⊢
    exact h.reenter hconsistent rfl rfl (fun k s hk => ⟨s, (hmoves k).1 s hk, rfl⟩)
      fun k s hk => (hmoves k).2 s hk

theorem Stored.release (h : Stored m) {saved : Bool} {now : ℕ}
    (hguard : keepsMeta m (.release id saved now) = true) :
    Stored (m.releasePendingRecordingClaim id saved now) := by
  have hconsistent := h.consistent.release id saved now
  cases hs : m.claimed.get? id with
  | none =>
    unfold Manager.releasePendingRecordingClaim
    rw [hs]
    exact h.dropClaimed_none hs
  | some snapshot =>
    by_cases hgone : saved = true ∨ id ∈ m.discardRequested
    · unfold Manager.releasePendingRecordingClaim
      simp only [hs, if_pos hgone]
      refine h.cleanupClaimed hs fun slot hslot => ?_
      have hnot := not_unlinked hguard hslot
      simp only [unlinks, hs, if_pos hgone] at hnot
      exact hnot
    · have hmoves := release_moves hs hgone now
      unfold Manager.releasePendingRecordingClaim at hconsistent hmoves ⊢
      simp only [hs, if_neg hgone] at hconsistent hmoves ⊢
      exact h.reenter hconsistent rfl rfl (fun k s hk => ⟨s, (hmoves k).1 s hk, rfl⟩)
        fun k s hk => (hmoves k).2 s hk

/-! ## A stop -/

theorem Stored.discardExisting (h : Stored m) (slot : ℕ) (id : String) :
    Stored (m.discardExistingSlotRecordings slot id) := by
  simp only [Manager.discardExistingSlotRecordings]
  split
  · exact h
  · exact (h.foldl (fun id h => h.replacePending _ id) _).foldl
      (fun id h => h.replaceClaimed _ id) _

/-- The new recording is the only one of its slot, and its files are there. -/
theorem Stored.storePending (h : Stored m) {slot : ℕ} (now : ℕ)
    (hstop : m.stop = some (.finished slot snapshot))
    (hfree : slot ≠ 0 → SlotFree m slot snapshot.recordingId) :
    Stored { m.storePending snapshot now with stop := none } := by
  have hready := h.consistent.stop _ hstop
  have hconsistent := h.consistent.storePending now hready hfree
  obtain ⟨hslot, -, -, -, hnone, -⟩ := hready
  have hown : snapshot.recordingSlot ≠ 0 → EventsAt m snapshot.recordingSlot snapshot.recordingId ∧
      MetaAt m snapshot.recordingSlot snapshot.recordingId := by
    rw [hslot]
    exact h.stop _ hstop
  have hpending : ∀ k s, (m.pending.insert snapshot.recordingId snapshot).get? k = some s →
      (k = snapshot.recordingId ∧ s = snapshot) ∨ m.pending.get? k = some s := by
    intro k s hk
    rw [Dict.get?_insert] at hk
    split at hk
    · exact Or.inl ⟨by assumption, (Option.some.inj hk).symm⟩
    · exact Or.inr hk
  refine ⟨hconsistent, fun k s hk hslotted => ?_, fun k s hk hslotted => Or.inr ?_, by simp⟩
  · rcases hk with hk | hk
    · rcases hpending k s hk with ⟨rfl, rfl⟩ | hk
      · exact (hown hslotted).1
      · exact h.events k s (Or.inl hk) hslotted
    · exact h.events k s (Or.inr hk) hslotted
  · have hcases : (k = snapshot.recordingId ∧ s = snapshot) ∨ Live m k s := by
      rcases hk with hk | hk
      · exact (hpending k s hk).imp_right Or.inl
      · exact Or.inr (Or.inr hk)
    rcases hcases with ⟨rfl, rfl⟩ | hold
    · exact (hown hslotted).2
    · rcases h.live k s hold hslotted with hrunning | hat
      · rw [hstop] at hrunning
        have hsame : slot = s.recordingSlot := Option.some.inj hrunning
        have hne : k ≠ snapshot.recordingId := by
          rintro rfl
          exact hnone s hold.entry
        have hnil := hfree (hsame ▸ hslotted) k s hold.entry hne hsame.symm
        rw [h.consistent.live k s hold hslotted] at hnil
        cases hnil
      · exact hat

theorem Stored.store (h : Stored m) {slot : ℕ} (now : ℕ)
    (hstop : m.stop = some (.finished slot snapshot)) : Stored (m.store slot snapshot now) := by
  simp only [Manager.store]
  split
  · rename_i hzero
    exact h.storePending now hstop fun hne => absurd hzero hne
  · rename_i hne
    have hstop' := (discardExisting_stop m slot snapshot.recordingId).trans hstop
    refine (h.discardExisting slot snapshot.recordingId).storePending now hstop' fun _ => ?_
    refine slotFree_discardExisting hne ?_ _
    obtain ⟨hslot, hshape, -⟩ := h.consistent.stop _ hstop
    rcases hshape with ⟨hzero, -⟩ | ⟨-, hnorm, -⟩
    · exact absurd (hslot.symm.trans hzero) hne
    · rw [← hslot]
      exact hnorm

/-- A file operation of the thread leaves the recordings alone, except the metadata file of the
slot it is about. -/
theorem Stored.files (h : Stored m) (hconsistent : Consistent m')
    (hentry : ∀ k s, Entry m' k s → Entry m k s) (hlive : ∀ k s, Live m' k s → Live m k s)
    (hevents : ∀ k s, Entry m k s → s.recordingSlot ≠ 0 → EventsAt m s.recordingSlot k →
      EventsAt m' s.recordingSlot k)
    (hmeta : ∀ k s, Live m k s → s.recordingSlot ≠ 0 →
      m.stop.bind rewritten = some s.recordingSlot ∨ MetaAt m s.recordingSlot k →
      m'.stop.bind rewritten = some s.recordingSlot ∨ MetaAt m' s.recordingSlot k)
    (hstop : ∀ stop, m'.stop = some stop → StopFiles m' stop) : Stored m' :=
  ⟨hconsistent, fun k s hk hslot => hevents k s (hentry k s hk) hslot
      (h.events k s (hentry k s hk) hslot),
    fun k s hk hslot => hmeta k s (hlive k s hk) hslot (h.live k s (hlive k s hk) hslot), hstop⟩

theorem write_files (path path' : Path) (file : File) :
    (m.write path file).files.get? path' =
      if path' = path then some file else m.files.get? path' :=
  Dict.get?_insert _ _ _ _

theorem Stored.persist (h : Stored m) {stop : Stop} (hstop : m.stop = some stop)
    (hstep : m.persist stop = some m') : Stored m' := by
  have hconsistent := h.consistent.persist hstop hstep
  have hready := h.consistent.stop stop hstop
  cases stop with
  | persisting slot snapshot =>
    cases hstep
    obtain ⟨-, -, -, hnone, -⟩ := hready
    refine h.files hconsistent (fun _ _ hk => hk) (fun _ _ hk => hk) (fun k s hk _ hat => ?_)
      (fun k s hk _ hat => ?_) fun stop hst => ?_
    · show (m.write _ _).files.get? _ = _
      rw [write_files, if_neg, hat]
      rintro heq
      cases heq
      exact hnone s hk
    · right
      rcases hat with hrunning | hat
      · rw [hstop] at hrunning
        cases hrunning
      · show (m.write _ _).files.get? _ = _
        rw [write_files, if_neg nofun, hat]
    · cases hst
      show (m.write _ _).files.get? _ = _
      rw [write_files, if_pos rfl]
  | eventsWritten slot snapshot =>
    cases hstep
    have hown := h.stop _ hstop
    refine h.files hconsistent (fun _ _ hk => hk) (fun _ _ hk => hk) (fun k s hk _ hat => ?_)
      (fun k s hk _ hat => ?_) fun stop hst => ?_
    · show (m.write _ _).files.get? _ = _
      rw [write_files, if_neg nofun, hat]
    · rcases hat with hrunning | hat
      · rw [hstop] at hrunning
        cases hrunning
      · by_cases hsame : s.recordingSlot = slot
        · exact Or.inl (congrArg some hsame.symm)
        · right
          show (m.write _ _).files.get? _ = _
          rw [write_files, if_neg, hat]
          rintro heq
          cases heq
          exact hsame rfl
    · cases hst
      constructor
      · show (m.write _ _).files.get? _ = _
        rw [write_files, if_neg nofun]
        exact hown
      · show (m.write _ _).files.get? _ = _
        rw [write_files, if_pos rfl]
  | metaWritten slot snapshot =>
    cases hstep
    have hown := h.stop _ hstop
    obtain ⟨-, -, -, -, hpath, hnil, -⟩ := hready
    have hkept : ∀ path file, (∀ name, path ≠ Path.spool name) → m.files.get? path = some file →
        (m.cleanup snapshot).files.get? path = some file := by
      intro path file hne hget
      rw [cleanup_files, if_neg, hget]
      rw [hnil, List.append_nil, Option.mem_toList]
      rcases hpath with hpath | ⟨name, hpath⟩
      · rw [hpath]
        rintro heq
        cases heq
      · rw [hpath]
        rintro heq
        exact hne name (Option.some.inj heq).symm
    refine h.files hconsistent (fun _ _ hk => hk) (fun _ _ hk => hk)
      (fun k s _ _ hat => hkept _ _ nofun hat) (fun k s _ _ hat => ?_) fun stop hst => ?_
    · rw [hstop] at hat
      exact hat.imp_right fun hat => hkept _ _ nofun hat
    · cases hst
      exact fun _ => ⟨hkept _ _ nofun hown.1, hkept _ _ nofun hown.2⟩
  | finishing slot | finished slot snapshot => cases hstep

theorem vacant_iff {slot : ℕ} (hvacant : vacant m slot = true) {s : RecordingSnapshot}
    (hs : Live m id s) : s.recordingSlot ≠ slot := by
  unfold vacant at hvacant
  rw [Bool.and_eq_true, List.all_eq_true, List.all_eq_true] at hvacant
  rcases hs with hs | ⟨hs, hnot⟩
  · exact of_decide_eq_true (hvacant.1 _ (Dict.get?_eq_some_iff.mp hs))
  · exact (of_decide_eq_true (hvacant.2 _ (Dict.get?_eq_some_iff.mp hs))).resolve_right hnot

theorem Stored.fail (h : Stored m) (hguard : keepsMeta m .fail = true) :
    Stored { m with stop := none } := by
  refine ⟨h.consistent.setStop nofun, h.events, fun k s hk hslot => Or.inr ?_, nofun⟩
  have hk : Live m k s := hk
  rcases h.live k s hk hslot with hrunning | hat
  · unfold keepsMeta at hguard
    rw [hrunning] at hguard
    exact absurd rfl (vacant_iff (Bool.and_eq_true_iff.mp hguard).2 hk)
  · exact hat

theorem Stored.finish (h : Stored m) {slot : ℕ} {recordingId : String} {spoolName : Option ℕ}
    (hstop : m.stop = some (.finishing slot)) (hfresh : recordingId ∉ m.issued) :
    Stored (m.finish slot recordingId spoolName) := by
  have hconsistent : Consistent (m.finish slot recordingId spoolName) :=
    h.consistent.finish hstop hfresh
  have hidle : m.stop.bind rewritten = none := by
    rw [hstop]
    rfl
  have hmeta : ∀ k s, Live m k s → s.recordingSlot ≠ 0 → MetaAt m s.recordingSlot k := by
    intro k s hk hslot
    refine (h.live k s hk hslot).resolve_left fun hrunning => ?_
    rw [hidle] at hrunning
    cases hrunning
  simp only [Manager.finish] at hconsistent ⊢
  split
  · rename_i hzero
    rw [if_pos hzero] at hconsistent
    refine ⟨hconsistent, h.events, fun k s hk hslot => Or.inr (hmeta k s hk hslot),
      fun stop hst => ?_⟩
    cases hst
    have hnorm : normalizeMacroRecordingSlot slot = slot := h.consistent.stop _ hstop
    exact fun hne => absurd (hnorm.symm.trans hzero) hne
  · rename_i hne
    rw [if_neg hne] at hconsistent
    refine ⟨hconsistent, h.events, fun k s hk hslot => Or.inr (hmeta k s hk hslot),
      fun stop hst => ?_⟩
    cases hst
    trivial

theorem Stored.step {op : Op} (h : Stored m) (hguard : keepsMeta m op = true)
    (hstep : Store.step m op = some m') : Stored m' := by
  cases op with
  | stop slot =>
    have hconsistent : Consistent m' := h.consistent.step hstep
    obtain ⟨hidle, rfl⟩ := enabled_eq_some.mp hstep
    refine ⟨hconsistent, h.events, fun k s hk hslot => Or.inr ?_, fun stop hst => ?_⟩
    · refine (h.live k s hk hslot).resolve_left fun hrunning => ?_
      rw [hidle] at hrunning
      cases hrunning
    · cases hst
      trivial
  | finish recordingId spoolName =>
    simp only [Store.step] at hstep
    split at hstep
    · obtain ⟨hfresh, heq⟩ := Option.ite_none_left_eq_some.mp hstep
      cases heq
      exact h.finish (by assumption) hfresh
    · cases hstep
  | persist =>
    obtain ⟨stop, hstop, hpersist⟩ := Option.bind_eq_some_iff.mp hstep
    exact h.persist hstop hpersist
  | fail =>
    obtain ⟨-, heq⟩ := Option.ite_none_left_eq_some.mp hstep
    cases heq
    exact h.fail hguard
  | store now =>
    simp only [Store.step] at hstep
    split at hstep
    · cases hstep
      exact h.store now (by assumption)
    · cases hstep
  | claim recordingId now =>
    cases hstep
    exact h.claim recordingId now
  | release recordingId saved now =>
    cases hstep
    exact h.release hguard
  | discard recordingId =>
    cases hstep
    exact h.discard hguard
  | discardAll =>
    cases hstep
    exact h.discardAll
  | expire now ttl =>
    cases hstep
    exact h.expire hguard

/-- When no stop is in progress, a recording that is pending for a slot has its event file, and
the metadata file of the slot names it. -/
theorem pending_slot_files {ops : List Op}
    (hguard : Guarded step (fun m op => keepsMeta m op = true) {} ops)
    (hrun : run step {} ops = some m) (hstop : m.stop = none)
    (hpending : m.pending.get? id = some snapshot) (hslot : snapshot.recordingSlot ≠ 0) :
    snapshot.spoolPath = some (.slotEvent snapshot.recordingSlot id) ∧
      m.files.get? (.slotEvent snapshot.recordingSlot id) = some (.events id) ∧
      m.files.get? (.slotMeta snapshot.recordingSlot) = some (.slotMeta id snapshot.recordingSlot
        (.slotEvent snapshot.recordingSlot id)) := by
  have h : Stored m := guarded_run_invariant (I := Stored) (fun _ _ _ h hg hs => h.step hg hs)
    stored_start hguard hrun
  obtain ⟨hname, -, hshape⟩ := h.consistent.named id snapshot (Or.inl hpending)
  refine ⟨?_, h.events id snapshot (Or.inl hpending) hslot,
    (h.live id snapshot (Or.inl hpending) hslot).resolve_left fun hrunning => ?_⟩
  · rcases hshape with ⟨hzero, -⟩ | ⟨-, -, hpath, -⟩
    · exact absurd hzero hslot
    · rw [hpath, hname]
  · rw [hstop] at hrunning
    cases hrunning

/- A recording replaces one that is claimed, which is then released; another replaces a pending
one. -/
def replaced : List Op :=
  [.stop 1, .finish "a" none, .persist, .persist, .persist, .store 10, .claim "a" 11,
    .stop 1, .finish "b" (some 7), .persist, .persist, .persist, .store 20,
    .release "a" false 21, .stop 1, .finish "c" none, .persist, .persist, .persist, .store 30]

theorem pending_slot_files_replaced :
    (∃ m, run step {} replaced = some m ∧ m.stop = none ∧
      m.pending.get? "c" = some (Manager.persisted 1 ⟨"c", none, 0, []⟩)) ∧
    ∀ m, run step {} replaced = some m → m.stop = none →
      m.pending.get? "c" = some (Manager.persisted 1 ⟨"c", none, 0, []⟩) →
        some (Path.slotEvent 1 "c") = some (.slotEvent 1 "c") ∧
          m.files.get? (.slotEvent 1 "c") = some (.events "c") ∧
          m.files.get? (.slotMeta 1) = some (.slotMeta "c" 1 (.slotEvent 1 "c")) := by
  have hguard : Guarded step (fun m op => keepsMeta m op = true) {} replaced := by decide
  have hsome : (run step {} replaced).any (fun m => decide (m.stop = none ∧
      m.pending.get? "c" = some (Manager.persisted 1 ⟨"c", none, 0, []⟩))) = true := by
    decide
  rw [Option.any_eq_true] at hsome
  obtain ⟨m, hrun, hm⟩ := hsome
  rw [decide_eq_true_eq] at hm
  exact ⟨⟨m, hrun, hm⟩, fun m hrun hstop hpending =>
    pending_slot_files hguard hrun hstop hpending (by decide)⟩

/- The older recording of the slot is discarded when the new metadata file is in place, but the
new recording is not in the table yet. -/
def discardedMeanwhile : List Op :=
  [.stop 1, .finish "a" none, .persist, .persist, .persist, .store 10,
    .stop 1, .finish "b" none, .persist, .persist, .discard "a", .persist, .store 20]

/-- The new recording is left without the metadata of its slot. -/
theorem slot_metadata_lost :
    ¬∀ (ops : List Op) (m : Manager), run step {} ops = some m → m.stop = none →
      ∀ id s, m.pending.get? id = some s → s.recordingSlot ≠ 0 →
        m.files.get? (.slotMeta s.recordingSlot) =
          some (.slotMeta id s.recordingSlot (.slotEvent s.recordingSlot id)) := by
  intro h
  have hlost : (run step {} discardedMeanwhile).any (fun m => decide (m.stop = none ∧
      m.pending.get? "b" = some (Manager.persisted 1 ⟨"b", none, 0, []⟩) ∧
      m.files.get? (.slotMeta 1) = none)) = true := by decide
  rw [Option.any_eq_true] at hlost
  obtain ⟨m, hrun, hm⟩ := hlost
  rw [decide_eq_true_eq] at hm
  obtain ⟨hstop, hpending, hnone⟩ := hm
  have hfile := h discardedMeanwhile m hrun hstop "b" _ hpending (by decide)
  have hslot : (Manager.persisted 1 ⟨"b", none, 0, []⟩).recordingSlot = 1 := rfl
  rw [hslot, hnone] at hfile
  cases hfile

end Keymasq.Recording.SlotFiles
