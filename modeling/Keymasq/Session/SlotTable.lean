import Keymasq.Session.Slots

/-!
# What stays in the slot table

A recording leaves the table of the session when the daemon no longer has it, or when a
newer one takes its slot, as long as answers come before the slot has changed.
-/

namespace Keymasq.Session.SlotTable
open Foundation Transition Slots
open Recording.Store (normalizeMacroRecordingSlot)


variable {M W : Type}

def Live (s : State M W) (id : Nat) : Prop := s.recordings.get? id ≠ none

/-- What leaves the table is not live, or has a newer recording in its slot. -/
def KeepsLive (s t : State M W) : Prop :=
  ∀ slot id, heldIn s slot = some id → Live t id →
    (∃ slot', heldIn t slot' = some id) ∨ ∃ id', id < id' ∧ heldIn t slot = some id'

/-! ## Answers that come in time -/

/-- The stored recording is the one in the slot, or a newer one. -/
def notNewer (data : PendingData M) (id : Nat) : Bool :=
  data.recordingId.any fun new => id ≤ new

/-- A delete finds in its slot what it deleted, a store nothing newer, and a list all that
was stored since it was made. -/
def inTime (s : State M W) (task : Slots.Task M) (answer : Answer M) : Bool :=
  match task.request, answer with
  | .delete slot recordingId, .deleted => (heldIn s slot).all fun id => id = recordingId
  | .store slot recordingId data _, .deleted =>
    (heldIn s slot).all fun id => id = recordingId || notNewer data id
  | .store slot _ data _, _ => (heldIn s slot).all (notNewer data)
  | .sync, .listed recordings =>
    decide (∀ id ∈ known s, id ∈ task.known ∨ id ∈ recordings.map Prod.fst)
  | _, _ => true

def orderly (s : State M W) : Step M W → Bool
  | .resume id => (s.tasks.get? id).all fun task => task.answer.all (inTime s task)
  | .fail id => (s.tasks.get? id).all fun task => inTime s task .error
  | _ => true

/-! ## The table -/

section Table

variable {s t u : State M W} {slot id : Nat}

theorem mem_known : id ∈ known s ↔ ∃ slot, heldIn s slot = some id := by
  unfold known heldIn
  simp only [List.mem_toFinset, List.mem_filterMap, Dict.mem_values_iff, Option.bind_eq_some_iff]
  constructor
  · intro h
    obtain ⟨entry, ⟨slot, hget⟩, hid⟩ := h
    exact ⟨slot, entry, hget, hid⟩
  · intro h
    obtain ⟨slot, entry, hget, hid⟩ := h
    exact ⟨entry, ⟨slot, hget⟩, hid⟩

theorem heldIn_congr (h : t.pendingSlots = s.pendingSlots) : heldIn t slot = heldIn s slot := by
  unfold heldIn
  rw [h]

theorem heldIn_erase (h : t.pendingSlots = s.pendingSlots.erase slot) (slot' : Nat) :
    heldIn t slot' = if slot' = slot then none else heldIn s slot' := by
  unfold heldIn
  rw [h, Dict.get?_erase]
  split
  · rfl
  · rfl

theorem heldIn_insert {entry : PendingSlot M W}
    (h : t.pendingSlots = s.pendingSlots.insert slot entry) (slot' : Nat) :
    heldIn t slot' = if slot' = slot then entry.data.recordingId else heldIn s slot' := by
  unfold heldIn
  rw [h, Dict.get?_insert]
  split
  · rfl
  · rfl

theorem update_recordingId {old new : PendingData M} (h : new.recordingId = some id) :
    (old.update new).recordingId = some id := by
  unfold PendingData.update
  rw [h]
  rfl

theorem KeepsLive.of_same (h : ∀ slot, heldIn t slot = heldIn s slot) : KeepsLive s t :=
  fun slot _ hid _ => .inl ⟨slot, (h slot).trans hid⟩

/-- Only one slot changes. -/
theorem KeepsLive.of_slot (slot : Nat)
    (hother : ∀ slot', slot' ≠ slot → heldIn t slot' = heldIn s slot')
    (hslot : ∀ id, heldIn s slot = some id → Live t id →
      ∃ new, id ≤ new ∧ heldIn t slot = some new) : KeepsLive s t := by
  intro slot' id hid hlive
  by_cases h : slot' = slot
  · rw [h] at hid ⊢
    obtain ⟨new, hle, hnew⟩ := hslot id hid hlive
    by_cases heq : id = new
    · exact .inl ⟨slot, heq ▸ hnew⟩
    · exact .inr ⟨new, by omega, hnew⟩
  · exact .inl ⟨slot', (hother slot' h).trans hid⟩

theorem heldIn_beginSave (s : State M W) (data : PendingData M) (slot slot' : Nat) :
    heldIn (beginSave s data slot) slot' =
      if slot' = slot then data.recordingId else heldIn s slot' :=
  heldIn_insert (t := beginSave s data slot) rfl slot'

theorem heldIn_clear (s : State M W) (slot slot' : Nat) :
    heldIn (clear s slot) slot' = if slot' = slot then none else heldIn s slot' :=
  heldIn_erase rfl slot'

@[simp] theorem heldIn_finishStop (s : State M W) (stops : Bool) :
    heldIn (finishStop s stops) slot = heldIn s slot := rfl

end Table

/-! ## The list of the daemon -/

section Listed

variable {s t : State M W} {old : Dict Nat (PendingSlot M W)} {slot id : Nat}

/-- The recordings have slots of their own. -/
structure Listed (recordings : List (Nat × Recording M)) : Prop where
  distinct : recordings.Pairwise fun a b => a.2.slot ≠ b.2.slot
  slots : ∀ item ∈ recordings, normalizeMacroRecordingSlot item.2.slot = item.2.slot ∧
    item.2.slot ≠ 0

theorem heldIn_putListed {item : Nat × Recording M}
    (hslot : normalizeMacroRecordingSlot item.2.slot = item.2.slot ∧ item.2.slot ≠ 0)
    (slot : Nat) : heldIn (putListed old s item) slot =
      if slot = item.2.slot then some item.1 else heldIn s slot := by
  have hinsert (t : State M W) (entry : PendingSlot M W)
      (hentry : entry.data.recordingId = some item.1)
      (ht : t.pendingSlots = s.pendingSlots.insert item.2.slot entry) :
      heldIn t slot = if slot = item.2.slot then some item.1 else heldIn s slot := by
    rw [heldIn_insert ht, hentry]
  unfold putListed
  simp only [hslot.1, if_neg hslot.2]
  split
  · split
    · exact hinsert _ _ (update_recordingId rfl) rfl
    · exact hinsert _ _ rfl rfl
  · exact hinsert _ _ rfl rfl

/-- The list is put into the table in turn. -/
theorem heldIn_foldl (old : Dict Nat (PendingSlot M W))
    {recordings : List (Nat × Recording M)} (h : Listed recordings) (slot : Nat) :
    (∀ item ∈ recordings, item.2.slot = slot →
        heldIn (recordings.foldl (putListed old) s) slot = some item.1) ∧
      ((∀ item ∈ recordings, item.2.slot ≠ slot) →
        heldIn (recordings.foldl (putListed old) s) slot = heldIn s slot) := by
  induction recordings generalizing s with
  | nil => exact ⟨fun item hitem => (by cases hitem), fun _ => rfl⟩
  | cons item recordings ih =>
    obtain ⟨hfirst, hrest⟩ := List.pairwise_cons.mp h.distinct
    have hitem := h.slots item List.mem_cons_self
    obtain ⟨hin, hout⟩ := ih (s := putListed old s item)
      ⟨hrest, fun other hother => h.slots other (List.mem_cons_of_mem _ hother)⟩
    refine ⟨fun other hother hslot => ?_, fun hnone => ?_⟩
    · obtain rfl | hother := List.mem_cons.mp hother
      · refine (hout fun next hnext heq => hfirst next hnext (hslot.trans heq.symm)).trans ?_
        rw [heldIn_putListed hitem, if_pos hslot.symm]
      · exact hin other hother hslot
    · refine (hout fun next hnext => hnone next (List.mem_cons_of_mem _ hnext)).trans ?_
      rw [heldIn_putListed hitem, if_neg fun heq => hnone item List.mem_cons_self heq.symm]

theorem heldIn_replaceSlots {recordings : List (Nat × Recording M)} (h : Listed recordings) :
    heldIn (replaceSlots s recordings) slot = some id ↔
      ∃ item ∈ recordings, item.1 = id ∧ item.2.slot = slot := by
  obtain ⟨hin, hout⟩ := heldIn_foldl s.pendingSlots (s := { s with pendingSlots := ∅ }) h slot
  constructor
  · intro hid
    by_cases hany : ∃ item ∈ recordings, item.2.slot = slot
    · obtain ⟨item, hitem, hslot⟩ := hany
      have heq := (hin item hitem hslot).symm.trans hid
      cases heq
      exact ⟨item, hitem, rfl, hslot⟩
    · have hnone := (hout fun item hitem hslot => hany ⟨item, hitem, hslot⟩).symm.trans hid
      cases hnone
  · intro hitem
    obtain ⟨item, hitem, rfl, hslot⟩ := hitem
    exact hin item hitem hslot

end Listed

/-! ## What the session does -/

section Session

variable {s t : State M W} {slot id : Nat}

theorem heldIn_of_get? {entry : PendingSlot M W} (hget : s.pendingSlots.get? slot = some entry) :
    heldIn s slot = entry.data.recordingId := by
  unfold heldIn
  rw [hget]
  rfl

theorem keeps_deleteSlot (s : State M W) (slot : Nat) (token : Option Nat) :
    KeepsLive s (deleteSlot s slot token) := by
  unfold deleteSlot
  split
  · exact .of_same fun _ => rfl
  · next slot' _ =>
    split
    · next hnone =>
      refine .of_slot slot' (fun other hother => ?_) fun id hid => ?_
      · rw [heldIn_clear, if_neg hother]
      · rw [hnone] at hid
        cases hid
    · exact .of_same fun _ => rfl

/-- Another recording is only waited for. -/
theorem keeps_store (s : State M W) (data : PendingData M) (slot : Nat) (stops : Bool) :
    KeepsLive s (store s data slot stops) := by
  unfold store
  generalize normalizePendingSlot slot 1 = slot
  simp only
  split
  · next hget =>
    refine .of_slot slot (fun other hother => ?_) fun id hid => ?_
    · rw [heldIn_finishStop, heldIn_beginSave, if_neg hother]
    · unfold heldIn at hid
      rw [hget] at hid
      cases hid
  · next existing hget =>
    have hheld := heldIn_of_get? hget
    split
    · next hnone =>
      refine .of_slot slot (fun other hother => ?_) fun id hid => ?_
      · rw [heldIn_finishStop, heldIn_beginSave, if_neg hother, heldIn_clear, if_neg hother]
      · rw [hheld, hnone] at hid
        cases hid
    · next recordingId hsome =>
      split
      · next hsame =>
        have hafter (other : Nat) := heldIn_insert (t := finishStop { s with
          pendingSlots := s.pendingSlots.insert slot
            { existing with data := existing.data.update data } } stops) rfl other
        refine .of_slot slot (fun other hother => ?_) fun id hid _ => ?_
        · rw [hafter, if_neg hother]
        · rw [hheld, hsome] at hid
          cases hid
          exact ⟨recordingId, Nat.le_refl _, by rw [hafter, if_pos rfl, update_recordingId hsame]⟩
      · exact .of_same fun _ => rfl

/-- The slot gets a recording that is not older than the one it had, if that is live. -/
theorem keeps_replaced {data : PendingData M} {stops : Bool} (hs : t.pendingSlots =
      (s.pendingSlots.erase slot) ∨ t.pendingSlots = s.pendingSlots)
    (hslot : ∀ id, heldIn s slot = some id → Live s id → notNewer data id = true)
    (hrecordings : t.recordings = s.recordings) :
    KeepsLive s (finishStop (beginSave t data slot) stops) := by
  have hother (other : Nat) (hne : other ≠ slot) : heldIn t other = heldIn s other := by
    obtain h | h := hs
    · rw [heldIn_erase h, if_neg hne]
    · exact heldIn_congr h
  refine .of_slot slot (fun other hne => ?_) fun id hid hlive => ?_
  · rw [heldIn_finishStop, heldIn_beginSave, if_neg hne, hother other hne]
  · have hlive' : Live s id := by
      unfold Live at hlive ⊢
      rw [← hrecordings]
      exact hlive
    obtain ⟨new, hnew, hle⟩ := (Option.any_eq_true _ _).mp (hslot id hid hlive')
    rw [decide_eq_true_eq] at hle
    exact ⟨new, hle, by rw [heldIn_finishStop, heldIn_beginSave, if_pos rfl, hnew]⟩

/- What the session may change: recordings come into the table from it or from `new`, and
requests name recordings of the table or of `new`. -/
structure Local (s t : State M W) (new : Nat → Prop) : Prop where
  recordings : t.recordings = s.recordings
  nextRecording : t.nextRecording = s.nextRecording
  recordingSlot : t.recordingSlot = s.recordingSlot
  events : t.events = s.events
  held : ∀ slot id, heldIn t slot = some id → (∃ slot', heldIn s slot' = some id) ∨ new id
  tasks : ∀ i task, t.tasks.get? i = some task → s.tasks.get? i = some task ∨
    task.answer = none ∧ task.known = ∅ ∧
      (∀ id, task.request.deletes = some id → ∃ slot, heldIn s slot = some id) ∧
      ∀ slot old data stops id, task.request = .store slot old data stops →
        data.recordingId = some id → new id

theorem Local.of_table {new : Nat → Prop} (htasks : t.tasks = s.tasks)
    (hrecordings : t.recordings = s.recordings) (hnext : t.nextRecording = s.nextRecording)
    (hslot : t.recordingSlot = s.recordingSlot) (hevents : t.events = s.events)
    (hheld : ∀ slot id, heldIn t slot = some id → (∃ slot', heldIn s slot' = some id) ∨ new id) :
    Local s t new :=
  ⟨hrecordings, hnext, hslot, hevents, hheld, fun i task hget => .inl (by rwa [← htasks])⟩

theorem local_send {new : Nat → Prop} {request : Request M}
    (hdeletes : ∀ id, request.deletes = some id → ∃ slot, heldIn s slot = some id)
    (hdata : ∀ slot old data stops id, request = .store slot old data stops →
      data.recordingId = some id → new id) : Local s (send s request) new := by
  refine ⟨rfl, rfl, rfl, rfl, fun slot id hid => .inl ⟨slot, hid⟩, fun i task hget => ?_⟩
  simp only [send, Dict.get?_insert] at hget
  split at hget
  · cases hget
    exact .inr ⟨rfl, rfl, hdeletes, hdata⟩
  · exact .inl hget

theorem local_deleteSlot (s : State M W) (slot : Nat) (token : Option Nat) :
    Local s (deleteSlot s slot token) fun _ => False := by
  unfold deleteSlot
  split
  · exact .of_table rfl rfl rfl rfl rfl fun slot id hid => .inl ⟨slot, hid⟩
  · next slot' _ =>
    split
    · refine .of_table rfl rfl rfl rfl rfl fun other id hid => .inl ⟨other, ?_⟩
      rw [heldIn_clear] at hid
      split at hid
      · cases hid
      · exact hid
    · next recordingId hheld =>
      refine local_send (fun id hid => ?_) fun _ _ _ _ _ h => by cases h
      cases hid
      exact ⟨slot', hheld⟩

/-- The recording that is stored comes into the table. -/
theorem local_beginSave {data : PendingData M} {stops : Bool}
    (hs : t.pendingSlots = (s.pendingSlots.erase slot) ∨ t.pendingSlots = s.pendingSlots)
    (htasks : t.tasks = s.tasks)
    (hrecordings : t.recordings = s.recordings) (hnext : t.nextRecording = s.nextRecording)
    (hslot : t.recordingSlot = s.recordingSlot) (hevents : t.events = s.events) :
    Local s (finishStop (beginSave t data slot) stops) fun id => data.recordingId = some id := by
  refine .of_table htasks hrecordings hnext hslot hevents fun other id hid => ?_
  rw [heldIn_finishStop, heldIn_beginSave] at hid
  split at hid
  · exact .inr hid
  · next hne =>
    refine .inl ⟨other, ?_⟩
    obtain h | h := hs
    · rwa [heldIn_erase h, if_neg hne] at hid
    · rwa [heldIn_congr h] at hid

theorem local_store (s : State M W) (data : PendingData M) (slot : Nat) (stops : Bool) :
    Local s (store s data slot stops) fun id => data.recordingId = some id := by
  unfold store
  generalize normalizePendingSlot slot 1 = slot
  simp only
  split
  · exact local_beginSave (.inr rfl) rfl rfl rfl rfl rfl
  · next existing hget =>
    split
    · exact local_beginSave (.inl rfl) rfl rfl rfl rfl rfl
    · next recordingId hsome =>
      split
      · next hsame =>
        refine .of_table rfl rfl rfl rfl rfl fun other id hid => ?_
        have hafter := heldIn_insert (t := finishStop { s with
          pendingSlots := s.pendingSlots.insert slot
            { existing with data := existing.data.update data } } stops) rfl other
        rw [hafter, update_recordingId hsame] at hid
        split at hid
        · cases hid
          exact .inr hsame
        · exact .inl ⟨other, hid⟩
      · refine local_send (fun id hid => ?_) fun _ _ _ _ _ h hid => ?_
        · cases hid
          exact ⟨slot, (heldIn_of_get? hget).trans hsome⟩
        · cases h
          exact hid

theorem local_foldl (recordings : List (Nat × Recording M)) (old : Dict Nat (PendingSlot M W))
    (s : State M W) : (recordings.foldl (putListed old) s).tasks = s.tasks ∧
      (recordings.foldl (putListed old) s).recordings = s.recordings ∧
      (recordings.foldl (putListed old) s).nextRecording = s.nextRecording ∧
      (recordings.foldl (putListed old) s).recordingSlot = s.recordingSlot ∧
      (recordings.foldl (putListed old) s).events = s.events := by
  induction recordings generalizing s with
  | nil => exact ⟨rfl, rfl, rfl, rfl, rfl⟩
  | cons item recordings ih =>
    have hitem : (putListed old s item).tasks = s.tasks ∧
        (putListed old s item).recordings = s.recordings ∧
        (putListed old s item).nextRecording = s.nextRecording ∧
        (putListed old s item).recordingSlot = s.recordingSlot ∧
        (putListed old s item).events = s.events := by
      unfold putListed
      simp only
      split
      · exact ⟨rfl, rfl, rfl, rfl, rfl⟩
      · split
        · split
          · exact ⟨rfl, rfl, rfl, rfl, rfl⟩
          · exact ⟨rfl, rfl, rfl, rfl, rfl⟩
        · exact ⟨rfl, rfl, rfl, rfl, rfl⟩
    obtain ⟨h1, h2, h3, h4, h5⟩ := ih (putListed old s item)
    obtain ⟨i1, i2, i3, i4, i5⟩ := hitem
    exact ⟨h1.trans i1, h2.trans i2, h3.trans i3, h4.trans i4, h5.trans i5⟩

theorem local_replaceSlots {recordings : List (Nat × Recording M)} (h : Listed recordings) :
    Local s (replaceSlots s recordings) fun id => ∃ item ∈ recordings, item.1 = id := by
  obtain ⟨h1, h2, h3, h4, h5⟩ := local_foldl recordings s.pendingSlots
    { s with pendingSlots := ∅ }
  refine .of_table h1 h2 h3 h4 h5 fun slot id hid => ?_
  obtain ⟨item, hitem, hid, -⟩ := (heldIn_replaceSlots h).mp hid
  exact .inr ⟨item, hitem, hid⟩

end Session

/-! ## What answers say -/

/- An answer to a delete says that the recording is gone, one to a list names all recordings
of the table that are live. -/
structure TaskSound (s : State M W) (task : Slots.Task M) : Prop where
  deletes : ∀ id, task.request.deletes = some id → id < s.nextRecording
  data : ∀ slot old data stops id, task.request = .store slot old data stops →
    data.recordingId = some id → id < s.nextRecording
  known : ∀ id ∈ task.known, id < s.nextRecording
  deleted : task.answer = some .deleted →
    ∀ id, task.request.deletes = some id → ¬ Live s id
  stopped : ∀ data id, task.answer = some (.stopped (some data)) →
    data.recordingId = some id → id < s.nextRecording
  listed : ∀ recordings, task.answer = some (.listed recordings) → Listed recordings ∧
    (∀ item ∈ recordings, item.1 < s.nextRecording) ∧
    ∀ id ∈ task.known, Live s id → id ∈ recordings.map Prod.fst

structure Sound (s : State M W) : Prop where
  held : ∀ slot id, heldIn s slot = some id → id < s.nextRecording
  fresh : ∀ id recording, s.recordings.get? id = some recording → id < s.nextRecording
  slots : ∀ id recording, s.recordings.get? id = some recording →
    normalizeMacroRecordingSlot recording.slot = recording.slot ∧ recording.slot ≠ 0
  distinct : ∀ id id' recording recording', s.recordings.get? id = some recording →
    s.recordings.get? id' = some recording' → recording.slot = recording'.slot → id = id'
  recording : ∀ slot, s.recordingSlot = some slot →
    normalizeMacroRecordingSlot slot = slot ∧ slot ≠ 0
  events : ∀ event ∈ s.events, event.1 < s.nextRecording
  tasks : ∀ i task, s.tasks.get? i = some task → TaskSound s task

section Sound

variable {s t : State M W} {i : Nat} {task : Slots.Task M}

/-- No recording comes back. -/
theorem TaskSound.mono (h : TaskSound s task) (hnext : s.nextRecording ≤ t.nextRecording)
    (hlive : ∀ id, id < s.nextRecording → Live t id → Live s id) : TaskSound t task := by
  refine ⟨fun id hid => ?_, fun slot old data stops id hreq hid => ?_, fun id hid => ?_,
    fun hanswer id hid hl => ?_, fun data id hanswer hid => ?_, fun recordings hanswer => ?_⟩
  · exact Nat.lt_of_lt_of_le (h.deletes id hid) hnext
  · exact Nat.lt_of_lt_of_le (h.data slot old data stops id hreq hid) hnext
  · exact Nat.lt_of_lt_of_le (h.known id hid) hnext
  · exact h.deleted hanswer id hid (hlive id (h.deletes id hid) hl)
  · exact Nat.lt_of_lt_of_le (h.stopped data id hanswer hid) hnext
  · obtain ⟨hlisted, hbound, hknown⟩ := h.listed recordings hanswer
    exact ⟨hlisted, fun item hitem => Nat.lt_of_lt_of_le (hbound item hitem) hnext,
      fun id hid hl => hknown id hid (hlive id (h.known id hid) hl)⟩

theorem sound_local (hs : Sound s) {new : Nat → Prop} (h : Local s t new)
    (hnew : ∀ id, new id → id < s.nextRecording) : Sound t := by
  have hlive (id : Nat) (hl : Live t id) : Live s id := by
    unfold Live at hl ⊢
    rwa [← h.recordings]
  have hheld (id : Nat) (hany : ∃ slot, heldIn s slot = some id) : id < s.nextRecording := by
    obtain ⟨slot, hid⟩ := hany
    exact hs.held slot id hid
  refine ⟨fun slot id hid => ?_, ?_, ?_, ?_, ?_, ?_, fun i task hget => ?_⟩
  · rw [h.nextRecording]
    obtain hold | hid := h.held slot id hid
    · exact hheld id hold
    · exact hnew id hid
  · rw [h.recordings, h.nextRecording]
    exact hs.fresh
  · rw [h.recordings]
    exact hs.slots
  · rw [h.recordings]
    exact hs.distinct
  · rw [h.recordingSlot]
    exact hs.recording
  · rw [h.events, h.nextRecording]
    exact hs.events
  · obtain hold | ⟨hanswer, hknown, hdeletes, hdata⟩ := h.tasks i task hget
    · exact (hs.tasks i task hold).mono (Nat.le_of_eq h.nextRecording.symm) fun id _ => hlive id
    · refine ⟨fun id hid => ?_, fun slot old data stops id hreq hid => ?_, fun id hid => ?_,
        fun hans => ?_, fun data id hans => ?_, fun recordings hans => ?_⟩
      · rw [h.nextRecording]
        exact hheld id (hdeletes id hid)
      · rw [h.nextRecording]
        exact hnew id (hdata slot old data stops id hreq hid)
      · rw [hknown] at hid
        cases hid
      · rw [hanswer] at hans
        cases hans
      · rw [hanswer] at hans
        cases hans
      · rw [hanswer] at hans
        cases hans

/-- A task is done, or an event is handled. -/
theorem sound_fewer (hs : Sound s) (hheld : ∀ slot, heldIn t slot = heldIn s slot)
    (hrecordings : t.recordings = s.recordings) (hnext : t.nextRecording = s.nextRecording)
    (hslot : t.recordingSlot = s.recordingSlot) (hevents : ∀ event ∈ t.events, event ∈ s.events)
    (htasks : ∀ i task, t.tasks.get? i = some task → s.tasks.get? i = some task) : Sound t := by
  refine ⟨fun slot id hid => ?_, ?_, ?_, ?_, ?_, fun event hevent => ?_, fun i task hget => ?_⟩
  · rw [hheld] at hid
    rw [hnext]
    exact hs.held slot id hid
  · rw [hrecordings, hnext]
    exact hs.fresh
  · rw [hrecordings]
    exact hs.slots
  · rw [hrecordings]
    exact hs.distinct
  · rw [hslot]
    exact hs.recording
  · rw [hnext]
    exact hs.events event (hevents event hevent)
  · refine (hs.tasks i task (htasks i task hget)).mono (Nat.le_of_eq hnext.symm) fun id _ hl => ?_
    unfold Live at hl ⊢
    rwa [← hrecordings]

/-- The daemon loses recordings, and answers. -/
theorem sound_answer (hs : Sound s) (hget : s.tasks.get? i = some task) {answer : Answer M}
    (hheld : ∀ slot, heldIn t slot = heldIn s slot)
    (hsub : ∀ id recording, t.recordings.get? id = some recording →
      s.recordings.get? id = some recording)
    (hnext : t.nextRecording = s.nextRecording) (hslot : t.recordingSlot = s.recordingSlot)
    (hevents : t.events = s.events) (htasks : t.tasks = s.tasks)
    (hdeleted : answer = .deleted → ∀ id, task.request.deletes = some id → ¬ Live t id)
    (hstopped : ∀ data id, answer = .stopped (some data) → data.recordingId = some id →
      id < s.nextRecording)
    (hlisted : ∀ recordings, answer = .listed recordings → Listed recordings ∧
      (∀ item ∈ recordings, item.1 < s.nextRecording) ∧
      ∀ id ∈ known t, Live t id → id ∈ recordings.map Prod.fst) :
    Sound (setAnswer t i task answer) := by
  have hlive (id : Nat) (hl : Live t id) : Live s id := by
    unfold Live at hl ⊢
    cases hrec : t.recordings.get? id with
    | none => exact absurd hrec hl
    | some recording =>
      rw [hsub id recording hrec]
      simp
  refine ⟨fun slot id hid => ?_, fun id recording hid => ?_, fun id recording hid => ?_,
    fun id id' recording recording' hid hid' => ?_, fun slot hid => ?_, fun event hevent => ?_,
    fun j other hother => ?_⟩
  · exact hnext ▸ hs.held slot id ((hheld slot).symm.trans hid)
  · exact hnext ▸ hs.fresh id recording (hsub id recording hid)
  · exact hs.slots id recording (hsub id recording hid)
  · exact hs.distinct id id' recording recording' (hsub _ _ hid) (hsub _ _ hid')
  · exact hs.recording slot (hslot ▸ hid)
  · exact hnext ▸ hs.events event (hevents ▸ hevent)
  · simp only [setAnswer, Dict.get?_insert] at hother
    have hold := hs.tasks i task hget
    split at hother
    · cases hother
      refine ⟨fun id hid => ?_, fun slot old data stops id hreq hid => ?_, fun id hid => ?_,
        fun hanswer id hid => ?_, fun data id hanswer hid => ?_, fun recordings hanswer => ?_⟩
      · exact hnext ▸ hold.deletes id hid
      · exact hnext ▸ hold.data slot old data stops id hreq hid
      · obtain ⟨slot, hid⟩ := mem_known.mp hid
        exact hnext ▸ hs.held slot id ((hheld slot).symm.trans hid)
      · cases hanswer
        exact hdeleted rfl id hid
      · cases hanswer
        exact hnext ▸ hstopped data id rfl hid
      · cases hanswer
        obtain ⟨hlist, hbound, hknown⟩ := hlisted recordings rfl
        exact ⟨hlist, fun item hitem => hnext ▸ hbound item hitem, hknown⟩
    · rw [htasks] at hother
      exact (hs.tasks j other hother).mono (Nat.le_of_eq hnext.symm) fun id _ => hlive id

/-- The recordings of the slots are listed. -/
theorem listed_recordings (hs : Sound s) : Listed (listPendingRecordings s) := by
  have hget (item : Nat × Recording M) (hitem : item ∈ listPendingRecordings s) :
      s.recordings.get? item.1 = some item.2 :=
    Dict.get?_eq_some_iff.mpr (List.mem_of_mem_filter hitem)
  refine ⟨?_, fun item hitem => hs.slots item.1 item.2 (hget item hitem)⟩
  have hnodup : (s.recordings.entries.map Prod.fst).Nodup := s.recordings.nodup
  have hpair := (List.pairwise_map.mp hnodup).sublist
    (List.filter_sublist (p := fun entry => normalizeMacroRecordingSlot entry.2.slot ≠ 0))
  refine List.Pairwise.imp_of_mem (fun ha hb hne heq => ?_) hpair
  exact hne (hs.distinct _ _ _ _ (hget _ ha) (hget _ hb) heq)

theorem mem_listed (hs : Sound s) {id : Nat} (hlive : Live s id) :
    id ∈ (listPendingRecordings s).map Prod.fst := by
  unfold Live at hlive
  cases hget : s.recordings.get? id with
  | none => exact absurd hget hlive
  | some recording =>
    refine List.mem_map.mpr ⟨(id, recording), List.mem_filter.mpr
      ⟨Dict.get?_eq_some_iff.mp hget, ?_⟩, rfl⟩
    obtain ⟨hslot, hne⟩ := hs.slots id recording hget
    simp [hslot, hne]

/-- The new recording replaces that of its slot. -/
theorem sound_stopRecording (hs : Sound s) {slot : Nat} (info : M)
    (hslot : normalizeMacroRecordingSlot slot = slot ∧ slot ≠ 0) :
    Sound (stopRecording s slot info) := by
  have hget (id : Nat) (recording : Recording M)
      (hid : (stopRecording s slot info).recordings.get? id = some recording) :
      id = s.nextRecording ∧ recording = { slot := slot, info := info } ∨
        s.recordings.get? id = some recording ∧ recording.slot ≠ slot := by
    simp only [stopRecording, Dict.get?_insert] at hid
    split at hid
    · next heq =>
      cases hid
      exact .inl ⟨heq, rfl⟩
    · obtain ⟨hold, hkeep⟩ := Dict.get?_filter_eq_some.mp hid
      rw [decide_eq_true_eq] at hkeep
      exact .inr ⟨hold, hkeep.resolve_left hslot.2⟩
  have hnext : s.nextRecording ≤ (stopRecording s slot info).nextRecording := Nat.le_succ _
  refine ⟨fun slot id hid => ?_, fun id recording hid => ?_, fun id recording hid => ?_,
    fun id id' recording recording' hid hid' heq => ?_, fun slot hid => ?_, fun event hevent => ?_,
    fun j other hother => ?_⟩
  · exact Nat.lt_of_lt_of_le (hs.held slot id hid) hnext
  · obtain ⟨rfl, -⟩ | ⟨hold, -⟩ := hget id recording hid
    · exact Nat.lt_succ_self _
    · exact Nat.lt_of_lt_of_le (hs.fresh id recording hold) hnext
  · obtain ⟨-, rfl⟩ | ⟨hold, -⟩ := hget id recording hid
    · exact hslot
    · exact hs.slots id recording hold
  · obtain ⟨rfl, rfl⟩ | ⟨hold, hne⟩ := hget id recording hid
    · obtain ⟨rfl, -⟩ | ⟨-, hne'⟩ := hget id' recording' hid'
      · rfl
      · exact absurd heq.symm hne'
    · obtain ⟨-, rfl⟩ | ⟨hold', -⟩ := hget id' recording' hid'
      · exact absurd heq hne
      · exact hs.distinct id id' recording recording' hold hold' heq
  · cases hid
  · obtain hold | hnew := List.mem_append.mp hevent
    · exact Nat.lt_of_lt_of_le (hs.events event hold) hnext
    · rw [List.mem_singleton.mp hnew]
      exact Nat.lt_succ_self _
  · refine (hs.tasks j other hother).mono hnext fun id hlt hl => ?_
    unfold Live at hl ⊢
    cases hrec : (stopRecording s slot info).recordings.get? id with
    | none => exact absurd hrec hl
    | some recording =>
      obtain ⟨rfl, -⟩ | ⟨hold, -⟩ := hget id recording hrec
      · exact absurd hlt (Nat.lt_irrefl _)
      · rw [hold]
        simp

theorem get?_erase_recording {id id' : Nat} {recording : Recording M}
    (h : (s.recordings.erase id).get? id' = some recording) :
    s.recordings.get? id' = some recording := by
  rw [Dict.get?_erase] at h
  split at h
  · cases h
  · exact h

theorem sound_serve (hs : Sound s) {info : M} (hstep : serve s i info = some t) : Sound t := by
  obtain ⟨task, hget, hstep⟩ := Option.bind_eq_some_iff.mp hstep
  split at hstep
  · cases hstep
  · split at hstep
    · split at hstep
      · cases hstep
        refine sound_answer hs hget (fun _ => rfl) (fun _ _ h => h) rfl rfl rfl rfl
          (fun h => by cases h) (fun data id h hid => ?_) fun _ h => by cases h
        cases h
        cases hid
      · next slot hslot =>
        cases hstep
        refine sound_answer (sound_stopRecording hs info (hs.recording slot hslot)) hget
          (fun _ => rfl) (fun _ _ h => h) rfl rfl rfl rfl (fun h => by cases h)
          (fun data id h hid => ?_) fun _ h => by cases h
        cases h
        cases hid
        exact Nat.lt_succ_self _
    · next slot recordingId hrequest =>
      cases hstep
      refine sound_answer hs hget (fun _ => rfl) (fun _ _ h => get?_erase_recording h) rfl rfl rfl
        rfl (fun _ id hid hl => ?_) (fun _ _ h => by cases h) fun _ h => by cases h
      rw [hrequest] at hid
      cases hid
      exact hl (Dict.get?_erase_self _ _)
    · next slot recordingId data stops hrequest =>
      cases hstep
      refine sound_answer hs hget (fun _ => rfl) (fun _ _ h => get?_erase_recording h) rfl rfl rfl
        rfl (fun _ id hid hl => ?_) (fun _ _ h => by cases h) fun _ h => by cases h
      rw [hrequest] at hid
      cases hid
      exact hl (Dict.get?_erase_self _ _)
    · cases hstep
      refine sound_answer hs hget (fun _ => rfl) (fun _ _ h => h) rfl rfl rfl rfl
        (fun h => by cases h) (fun _ _ h => by cases h) fun recordings h => ?_
      cases h
      refine ⟨listed_recordings hs, fun item hitem => ?_, fun id _ hl => mem_listed hs hl⟩
      exact hs.fresh item.1 item.2 (Dict.get?_eq_some_iff.mpr (List.mem_of_mem_filter hitem))

theorem sound_resume (hs : Sound s) {request : Request M} {answer : Answer M}
    (htask : ∀ slot old data stops id, request = .store slot old data stops →
      data.recordingId = some id → id < s.nextRecording)
    (hstopped : ∀ data id, answer = .stopped (some data) → data.recordingId = some id →
      id < s.nextRecording)
    (hlisted : ∀ recordings, answer = .listed recordings → Listed recordings ∧
      ∀ item ∈ recordings, item.1 < s.nextRecording) : Sound (resume s request answer) := by
  unfold resume
  split
  · exact sound_local hs (local_store s _ _ true) fun id hid => hstopped _ id rfl hid
  · exact sound_fewer hs (fun _ => rfl) rfl rfl rfl (fun _ h => h) fun _ _ h => h
  · next slot recordingId =>
    have hclear : Local s (clear s slot) fun _ => False := by
      refine .of_table rfl rfl rfl rfl rfl fun other id hid => .inl ⟨other, ?_⟩
      rw [heldIn_clear] at hid
      split at hid
      · cases hid
      · exact hid
    exact sound_local hs hclear fun _ h => h.elim
  · exact sound_local hs (local_beginSave (.inl rfl) rfl rfl rfl rfl rfl)
      fun id hid => htask _ _ _ _ id rfl hid
  · exact sound_local hs (local_beginSave (.inr rfl) rfl rfl rfl rfl rfl)
      fun id hid => htask _ _ _ _ id rfl hid
  · obtain ⟨hlist, hbound⟩ := hlisted _ rfl
    refine sound_local hs (local_replaceSlots hlist) fun id hid => ?_
    obtain ⟨item, hitem, rfl⟩ := hid
    exact hbound item hitem
  · exact hs

/-- A task is taken out. -/
theorem sound_erase (hs : Sound s) (i : Nat) : Sound { s with tasks := s.tasks.erase i } := by
  refine sound_fewer hs (fun _ => rfl) rfl rfl rfl (fun _ h => h) fun j task hget => ?_
  rw [Dict.get?_erase] at hget
  split at hget
  · cases hget
  · exact hget

/-- A request that deletes nothing is sent. -/
theorem sound_send (hs : Sound s) {request : Request M} (hdeletes : request.deletes = none) :
    Sound (send s request) := by
  have hlocal : Local s (send s request) fun _ => False := by
    refine local_send (fun id h => ?_) fun slot old data stops id h => ?_
    · rw [hdeletes] at h
      cases h
    · rw [h] at hdeletes
      cases hdeletes
  exact sound_local hs hlocal fun _ h => h.elim

theorem sound_callStop (hs : Sound s) (slot : Nat) : Sound (callStop s slot) := by
  unfold callStop
  split
  · exact sound_send hs rfl
  · exact hs

theorem sound_step {a : Step M W} (hs : Sound s) (hstep : step s a = some t) : Sound t := by
  cases a with
  | activate slot owner cursor =>
    cases hstep
    exact sound_fewer hs (fun _ => rfl) rfl rfl rfl (fun _ h => h) fun _ _ h => h
  | callStop slot =>
    cases hstep
    exact sound_callStop hs slot
  | callDelete slot token =>
    cases hstep
    exact sound_local hs (local_deleteSlot s slot token) fun _ h => h.elim
  | callSync =>
    cases hstep
    exact sound_send hs rfl
  | event =>
    unfold Slots.step at hstep
    simp only at hstep
    split at hstep
    · cases hstep
    · next recordingId recording events hevents =>
      cases hstep
      have hrest : Sound { s with events := events, active := false } :=
        sound_fewer hs (fun _ => rfl) rfl rfl rfl
          (fun event h => hevents ▸ List.mem_cons_of_mem _ h) fun _ _ h => h
      refine sound_local hrest (local_store _ _ _ false) fun id hid => ?_
      cases hid
      exact hs.events (recordingId, recording) (hevents ▸ List.mem_cons_self)
  | resume i =>
    obtain ⟨task, hget, hstep⟩ := Option.bind_eq_some_iff.mp hstep
    obtain ⟨answer, hanswer, rfl⟩ := Option.map_eq_some_iff.mp hstep
    have htask := hs.tasks i task hget
    refine sound_resume (sound_erase hs i) htask.data (fun data id h hid => ?_)
      fun recordings h => ?_
    · exact htask.stopped data id (h ▸ hanswer) hid
    · obtain ⟨hlist, hbound, -⟩ := htask.listed recordings (h ▸ hanswer)
      exact ⟨hlist, hbound⟩
  | fail i =>
    obtain ⟨task, hget, rfl⟩ := Option.map_eq_some_iff.mp hstep
    exact sound_resume (sound_erase hs i) (hs.tasks i task hget).data
      (fun data id h => by cases h) fun recordings h => by cases h
  | record slot =>
    obtain ⟨⟨-, hslot⟩, rfl⟩ := enabled_eq_some.mp hstep
    refine ⟨hs.held, hs.fresh, hs.slots, hs.distinct, fun slot' h => ?_, hs.events, fun j task h =>
      (hs.tasks j task h).mono (Nat.le_refl _) fun _ _ hl => hl⟩
    cases h
    refine ⟨?_, hslot⟩
    unfold normalizeMacroRecordingSlot at hslot ⊢
    split at hslot
    · next hrange => rw [if_pos hrange, if_pos hrange]
    · exact absurd rfl hslot
  | limit info =>
    obtain ⟨slot, hslot, rfl⟩ := Option.map_eq_some_iff.mp hstep
    exact sound_stopRecording hs info (hs.recording slot hslot)
  | serve i info => exact sound_serve hs hstep
  | refuse i deletes =>
    obtain ⟨task, hget, hstep⟩ := Option.bind_eq_some_iff.mp hstep
    split at hstep
    · cases hstep
    · cases hstep
      refine sound_answer hs hget (fun _ => rfl) (fun id recording h => ?_) rfl rfl rfl rfl
        (fun h => by cases h) (fun _ _ h => by cases h) fun _ h => by cases h
      change (if deletes then task.request.deletes.elim s.recordings s.recordings.erase
        else s.recordings).get? id = some recording at h
      split at h
      · cases hdel : task.request.deletes with
        | none => rwa [hdel] at h
        | some old =>
          rw [hdel] at h
          exact get?_erase_recording h
      · exact h

theorem sound_initial : Sound ({} : State M W) := by
  refine ⟨fun slot id h => ?_, fun id recording h => ?_, fun id recording h => ?_,
    fun id id' recording recording' h => ?_, fun slot h => ?_, fun event h => ?_,
    fun i task h => ?_⟩
  all_goals cases h

end Sound

/-! ## Steps in time -/

section Steps

variable {s t : State M W}

theorem inTime_store {task : Slots.Task M} {answer : Answer M} {slot old id : Nat}
    {data : PendingData M} {stops : Bool} (htime : inTime s task answer = true)
    (hrequest : task.request = .store slot old data stops) (hid : heldIn s slot = some id) :
    answer = .deleted ∧ id = old ∨ notNewer data id = true := by
  unfold inTime at htime
  rw [hrequest] at htime
  cases answer with
  | deleted =>
    simp only [hid, Option.all_some, Bool.or_eq_true, decide_eq_true_eq] at htime
    obtain heq | hnewer := htime
    · exact .inl ⟨rfl, heq⟩
    · exact .inr hnewer
  | _ =>
    simp only [hid, Option.all_some] at htime
    exact .inr htime

theorem keeps_resume {task : Slots.Task M} {answer : Answer M}
    (htask : TaskSound s task) (hanswer : task.answer = some answer ∨ answer = .error)
    (htime : inTime s task answer = true) : KeepsLive s (resume s task.request answer) := by
  unfold resume
  split
  · exact keeps_store s _ _ true
  · exact .of_same fun _ => rfl
  · next slot recordingId hrequest =>
    unfold inTime at htime
    rw [hrequest] at htime
    refine .of_slot slot (fun other hother => ?_) fun id hid hlive => ?_
    · rw [heldIn_clear, if_neg hother]
    · simp only [hid, Option.all_some, decide_eq_true_eq] at htime
      obtain hanswer | hanswer := hanswer
      · refine absurd hlive (htask.deleted hanswer id ?_)
        rw [hrequest, htime]
        rfl
      · cases hanswer
  · next slot recordingId data stops hrequest =>
    refine keeps_replaced (.inl rfl) (fun id hid hlive => ?_) rfl
    obtain ⟨-, heq⟩ | hnewer := inTime_store htime hrequest hid
    · obtain hanswer | hanswer := hanswer
      · refine absurd hlive (htask.deleted hanswer id ?_)
        rw [hrequest, heq]
        rfl
      · cases hanswer
    · exact hnewer
  · next slot recordingId data stops hrequest hother =>
    refine keeps_replaced (.inr rfl) (fun id hid _ => ?_) rfl
    obtain ⟨hanswer, -⟩ | hnewer := inTime_store htime hrequest hid
    · exact (hother hanswer).elim
    · exact hnewer
  · next recordings hrequest =>
    unfold inTime at htime
    rw [hrequest] at htime
    rw [decide_eq_true_eq] at htime
    obtain hanswer | hanswer := hanswer
    · obtain ⟨hlist, -, hknown⟩ := htask.listed recordings hanswer
      intro slot id hid hlive
      have hlive' : Live s id := by
        unfold Live at hlive ⊢
        rwa [(local_replaceSlots hlist).recordings] at hlive
      have hmem : id ∈ recordings.map Prod.fst := by
        obtain hold | hnew := htime id (mem_known.mpr ⟨slot, hid⟩)
        · exact hknown id hold hlive'
        · exact hnew
      obtain ⟨item, hitem, hid⟩ := List.mem_map.mp hmem
      exact .inl ⟨item.2.slot, (heldIn_replaceSlots hlist).mpr ⟨item, hitem, hid, rfl⟩⟩
    · cases hanswer
  · exact .of_same fun _ => rfl

/-- A task is waited for by the state without it. -/
theorem inTime_erase (s : State M W) (i : Nat) (task : Slots.Task M) (answer : Answer M) :
    inTime { s with tasks := s.tasks.erase i } task answer = inTime s task answer := rfl

theorem keeps_step {a : Step M W} (hs : Sound s) (ha : orderly s a = true)
    (hstep : Slots.step s a = some t) : KeepsLive s t := by
  cases a with
  | activate slot owner cursor
  | callSync =>
    cases hstep
    exact .of_same fun _ => rfl
  | callStop slot =>
    cases hstep
    unfold callStop
    split
    · exact .of_same fun _ => rfl
    · exact .of_same fun _ => rfl
  | callDelete slot token =>
    cases hstep
    exact keeps_deleteSlot s slot token
  | event =>
    unfold Slots.step at hstep
    simp only at hstep
    split at hstep
    · cases hstep
    · cases hstep
      exact keeps_store { s with events := _, active := false } _ _ false
  | resume i =>
    obtain ⟨task, hget, hstep⟩ := Option.bind_eq_some_iff.mp hstep
    obtain ⟨answer, hanswer, rfl⟩ := Option.map_eq_some_iff.mp hstep
    have htask := hs.tasks i task hget
    unfold orderly at ha
    simp only at ha
    rw [hget, Option.all_some, hanswer, Option.all_some, ← inTime_erase s i] at ha
    have hmono : TaskSound { s with tasks := s.tasks.erase i } task :=
      htask.mono (Nat.le_refl _) fun _ _ hl => hl
    exact keeps_resume hmono (.inl hanswer) ha
  | fail i =>
    obtain ⟨task, hget, rfl⟩ := Option.map_eq_some_iff.mp hstep
    unfold orderly at ha
    simp only at ha
    rw [hget, Option.all_some, ← inTime_erase s i] at ha
    have hmono : TaskSound { s with tasks := s.tasks.erase i } task :=
      (hs.tasks i task hget).mono (Nat.le_refl _) fun _ _ hl => hl
    exact keeps_resume hmono (.inr rfl) ha
  | record slot =>
    obtain ⟨-, rfl⟩ := enabled_eq_some.mp hstep
    exact .of_same fun _ => rfl
  | limit info =>
    obtain ⟨slot, -, rfl⟩ := Option.map_eq_some_iff.mp hstep
    exact .of_same fun _ => rfl
  | serve i info =>
    obtain ⟨task, hget, hstep⟩ := Option.bind_eq_some_iff.mp hstep
    refine .of_same fun slot => ?_
    split at hstep
    · cases hstep
    · split at hstep
      · split at hstep
        · cases hstep
          rfl
        · cases hstep
          rfl
      · cases hstep
        rfl
      · cases hstep
        rfl
      · cases hstep
        rfl
  | refuse i deletes =>
    obtain ⟨task, hget, hstep⟩ := Option.bind_eq_some_iff.mp hstep
    split at hstep
    · cases hstep
    · cases hstep
      exact .of_same fun _ => rfl

/-- While answers come in time, a recording leaves the table only when the daemon no longer
has it, or a newer one is in its slot. -/
theorem live_recordings_stay {as : List (Step M W)}
    (hguarded : Guarded Slots.step (fun s a => orderly s a = true) ({} : State M W) as)
    (hrun : run Slots.step {} as = some s) {a : Step M W} (ha : orderly s a = true)
    (hstep : Slots.step s a = some t) : KeepsLive s t := by
  have hsound : Sound s := guarded_run_invariant (fun _ _ _ hs _ hstep => sound_step hs hstep)
    sound_initial hguarded hrun
  exact keeps_step hsound ha hstep

end Steps

/-! ### A slot that is deleted while a new recording comes -/

/-- A recording is stored in slot 1, and another is stopped there. -/
def secondStopped : List (Step Unit Unit) :=
  [.activate 1 none false, .record 1, .callStop 1, .serve 0 (), .resume 0,
    .activate 1 none false, .record 1, .callStop 1, .serve 1 (), .resume 1]

theorem second_recording_replaces_first :
    ∃ s t, run Slots.step ({} : State Unit Unit) (secondStopped ++ [.serve 2 ()]) = some s ∧
      Slots.step s (.resume 2) = some t ∧ KeepsLive s t := by
  have hsome : (run Slots.step ({} : State Unit Unit) (secondStopped ++ [.serve 2 ()])).any
      (fun s => orderly s (.resume 2) && (Slots.step s (.resume 2)).isSome) = true := by
    decide
  obtain ⟨s, hrun, hs⟩ := (Option.any_eq_true _ _).mp hsome
  rw [Bool.and_eq_true] at hs
  obtain ⟨t, ht⟩ := Option.isSome_iff_exists.mp hs.2
  exact ⟨s, t, hrun, ht, live_recordings_stay (by decide) hrun hs.1 ht⟩

/-- The slot is deleted while the store waits for the same delete: both name the first
recording, and the later answer takes the second one out. -/
theorem delete_loses_newer_recording :
    ∃ s t, run Slots.step ({} : State Unit Unit)
        (secondStopped ++ [.callDelete 1 none, .serve 2 (), .serve 3 (), .resume 2]) = some s ∧
      Slots.step s (.resume 3) = some t ∧ ¬ KeepsLive s t := by
  have hlost : (run Slots.step ({} : State Unit Unit)
      (secondStopped ++ [.callDelete 1 none, .serve 2 (), .serve 3 (), .resume 2])).any
      (fun s => heldIn s 1 = some 1 ∧ (Slots.step s (.resume 3)).any fun t =>
        t.recordings.contains 1 ∧ t.pendingSlots = ∅) = true := by decide
  obtain ⟨s, hrun, hs⟩ := (Option.any_eq_true _ _).mp hlost
  rw [decide_eq_true_eq] at hs
  obtain ⟨hheld, hs⟩ := hs
  obtain ⟨t, hstep, ht⟩ := (Option.any_eq_true _ _).mp hs
  rw [decide_eq_true_eq] at ht
  obtain ⟨hlive, hempty⟩ := ht
  have hnone (slot : Nat) : heldIn t slot = none := by
    unfold heldIn
    rw [hempty]
    rfl
  refine ⟨s, t, hrun, hstep, fun hkeeps => ?_⟩
  have hlive' : Live t 1 := by
    unfold Live
    intro hget
    unfold Dict.contains at hlive
    rw [hget] at hlive
    cases hlive
  obtain ⟨slot, hslot⟩ | ⟨id, -, hid⟩ := hkeeps 1 1 hheld hlive'
  · rw [hnone] at hslot
    cases hslot
  · rw [hnone] at hid
    cases hid

end Keymasq.Session.SlotTable
