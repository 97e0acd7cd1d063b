import Keymasq.MacroEditor.Numbering
import Keymasq.MacroEditor.RoundTrip
import Mathlib.Logic.Relation

/-!
# Insertion is a splice of the event stream

What comes before the insertion point stays, then the section is played, then the rest as much
later as the section is long. The order numbers see to it at equal times, and after a paste
they are again such that the next one can rely on them.
-/

namespace Keymasq.MacroEditor.Splice
open Foundation Lists Sorting Ranges Pasting MacroEditor.Numbering RoundTrip

/-! ## The section -/

/- The section from its place on, as it is read and written. -/
def sectionEvents (fragment : Fragment) (atUs : ℤ) : List MacroEvent :=
  reconstructEvents (parseEvents (fragment.events.map (shiftEvent atUs)))

/-- What is accepted from the clipboard: all is within the duration. -/
structure Fragment.Valid (fragment : Fragment) : Prop where
  positive : 1 ≤ fragment.durationUs
  within : ∀ event ∈ fragment.events, 0 ≤ event.tUs ∧ event.tUs ≤ fragment.durationUs

/-- A section as the editor itself writes it. -/
structure Fragment.Written (fragment : Fragment) : Prop where
  sorted : fragment.events.Pairwise fun a b => a.tUs ≤ b.tUs
  recorded : ∀ event ∈ fragment.events, Recorded event

variable {entries : List OrderedEvent} {fragment : Fragment} {lists : TimelineLists}
  {atUs durationUs : ℤ}

theorem sorted_entries {order : ℤ} {events : List MacroEvent} (h : Numbered order events entries) :
    (sortedOn orderKey entries).Pairwise fun a b => orderKey a < orderKey b := by
  refine sortedOn_pairwise_of (h.pairwise_order.imp ?_)
  intro a b hlt
  refine ⟨fun hle => lt_of_le_of_ne hle fun heq => ?_, fun hback => hback⟩
  have horder : a.order.getD 0 = b.order.getD 0 := congrArg Prod.snd (toLex.injective heq)
  exact absurd horder hlt.ne

theorem reconstruct_parse_eq {order : ℤ} {events : List MacroEvent}
    (h : Numbered order events entries) (hperm : (parseEvents events).written.Perm entries) :
    reconstructEvents (parseEvents events) =
      (sortedOn orderKey entries).map OrderedEvent.event := by
  refine reconstructEvents_eq (hperm.trans (sortedOn_perm orderKey entries).symm) ?_
    (sorted_entries h)
  exact fun entry hentry => h.isSome_order ((sortedOn_perm orderKey entries).mem_iff.mp hentry)

/- There is one event for each of the section that has a place in the editor, at its time. -/
theorem sectionEvents_tUs (fragment : Fragment) (atUs : ℤ) :
    ((sectionEvents fragment atUs).map MacroEvent.tUs).Perm
      ((fragment.events.filter fun event => !isSyn event).map fun event => event.tUs + atUs) := by
  obtain ⟨entries, hnumbered, hperm⟩ :=
    written_parseEvents (fragment.events.map (shiftEvent atUs))
  have htimes := hnumbered.map_tUs
  rw [List.filter_map, List.map_map] at htimes
  unfold sectionEvents
  rw [reconstruct_parse_eq hnumbered hperm, List.map_map]
  refine ((sortedOn_perm orderKey entries).map _).trans ?_
  exact List.Perm.of_eq htimes

theorem recorded_shiftEvent {event : MacroEvent} (h : Recorded event) (atUs : ℤ) :
    Recorded (shiftEvent atUs event) := by
  refine ⟨h.1, ?_⟩
  have haction := h.2
  unfold ActionNormal at haction ⊢
  unfold shiftEvent
  dsimp only
  split at haction
  · exact haction
  · obtain ⟨hevent, hoptions⟩ := haction
    refine ⟨?_, hoptions⟩
    rw [hevent]
    rfl
  · obtain ⟨hevent, hoptions⟩ := haction
    refine ⟨?_, hoptions⟩
    rw [hevent]
    rfl
  · trivial

/-- A section that the editor wrote is what is played, but for sync events. -/
theorem sectionEvents_written (h : Fragment.Written fragment) (atUs : ℤ) :
    sectionEvents fragment atUs =
      (fragment.events.filter fun event => !isSyn event).map (shiftEvent atUs) := by
  have hsorted : (fragment.events.map (shiftEvent atUs)).Pairwise fun a b => a.tUs ≤ b.tUs := by
    rw [List.pairwise_map]
    exact h.sorted.imp fun hle => Int.add_le_add_right hle atUs
  have hrecorded : ∀ event ∈ fragment.events.map (shiftEvent atUs), Recorded event := by
    intro event hshifted
    obtain ⟨event, hevent, rfl⟩ := List.mem_map.mp hshifted
    exact recorded_shiftEvent (h.recorded event hevent) atUs
  unfold sectionEvents
  rw [reconstruct_parse hsorted hrecorded, List.filter_map]
  rfl

/- The numbers of the section are moved behind those before it. -/
def moved (nextOrder : ℤ) (entry : OrderedEvent) : OrderedEvent :=
  { entry with order := entry.order.map (· + nextOrder) }

theorem offsetRaw_eq {entry : OrderedEvent} (h : entry.order.isSome = true) (nextOrder : ℤ) :
    offsetRaw nextOrder entry = moved nextOrder entry := by
  obtain ⟨number, hnumber⟩ := Option.isSome_iff_exists.mp h
  unfold offsetRaw moved
  rw [hnumber]
  rfl

theorem written_offsetEvent (nextOrder : ℤ) (e : EditableEvent) :
    (offsetEvent nextOrder e).written = e.written.map (moved nextOrder) := by
  unfold EditableEvent.written EditableEvent.rapidfire offsetEvent
  dsimp only
  split
  · rfl
  · split
    · rfl
    · rfl

theorem written_offset (h : ∀ entry ∈ lists.written, entry.order.isSome = true) (nextOrder : ℤ) :
    (offset nextOrder lists).written = lists.written.map (moved nextOrder) := by
  have hrelative : lists.relative.map (offsetRaw nextOrder) =
      lists.relative.map (moved nextOrder) := by
    refine List.map_congr_left fun entry hentry => offsetRaw_eq (h entry ?_) nextOrder
    rw [written_actions]
    exact List.mem_append_left _ (List.mem_append_right _ hentry)
  have hraw : lists.raw.map (offsetRaw nextOrder) = lists.raw.map (moved nextOrder) := by
    refine List.map_congr_left fun entry hentry => offsetRaw_eq (h entry ?_) nextOrder
    rw [written_actions]
    exact List.mem_append_right _ (List.mem_append_right _ hentry)
  have hmoves : EditableMove.written ∘ offsetMove nextOrder =
      moved nextOrder ∘ EditableMove.written := rfl
  have hcontrols : EditableControl.written ∘ offsetControl nextOrder =
      moved nextOrder ∘ EditableControl.written := rfl
  unfold TimelineLists.written offset
  dsimp only
  rw [hrelative, hraw, List.flatMap_map, List.map_map, List.map_map, hmoves, hcontrols]
  simp only [List.map_append, List.map_flatMap, List.map_map, written_offsetEvent]

/-! ## The destination -/

/-- What the paste relies on, and what it leaves: no key is released before it is pressed, and
no raw event has the number of a move or a control. -/
structure WellFormed (lists : TimelineLists) : Prop where
  lasting : Lasting lists
  unmixed : Unmixed lists

/- An event of the destination with its place, its number before the paste and the new one. -/
abbrev Renewed := (Slot × ℕ) × ℤ × ℤ

def renewed (atUs durationUs : ℤ) (z : Renewed) : OrderedEvent :=
  ⟨roomy atUs durationUs z.1.1, some z.2.2⟩

theorem roomy_tUs (s : Slot) :
    (roomy atUs durationUs s).tUs =
      if early atUs s = true then s.entry.event.tUs else s.entry.event.tUs + durationUs := by
  unfold roomy
  split
  · unfold kept
    split
    · split
      · rfl
      · rfl
    · rfl
  · rfl

/- The suffix of the numbers is what is not early. -/
theorem suffix_eq (hduration : 1 ≤ durationUs) (s : Slot) :
    decide (atUs + durationUs ≤ (roomy atUs durationUs s).tUs) = !early atUs s := by
  rw [roomy_tUs]
  cases hearly : early atUs s with
  | true =>
    rw [early_iff] at hearly
    rw [if_pos rfl, Bool.not_true, decide_eq_false_iff_not]
    omega
  | false =>
    have hlate : ¬early atUs s = true := by
      rw [hearly]
      exact Bool.false_ne_true
    rw [early_iff] at hlate
    rw [if_neg Bool.false_ne_true, Bool.not_false, decide_eq_true_eq]
    omega

theorem unmixed_congr {lists' : TimelineLists} (h : Unmixed lists)
    (hactions : (actions lists').map (·.order) = (actions lists).map (·.order))
    (hraw : lists'.raw.map (·.order) = lists.raw.map (·.order)) : Unmixed lists' := by
  intro x hx y hy number hxnumber hynumber
  have hx' : some number ∈ (actions lists).map (·.order) := by
    rw [← hactions, ← hxnumber]
    exact List.mem_map_of_mem hx
  have hy' : some number ∈ lists.raw.map (·.order) := by
    rw [← hraw, ← hynumber]
    exact List.mem_map_of_mem hy
  obtain ⟨x', hxmem, hxorder⟩ := List.mem_map.mp hx'
  obtain ⟨y', hymem, hyorder⟩ := List.mem_map.mp hy'
  exact h x' hxmem y' hymem number hxorder hyorder

theorem unmixed_makeRoom (h : Unmixed lists) : Unmixed (makeRoom atUs durationUs lists) := by
  have hmove : ∀ m, (roomForMove atUs durationUs m).written.order = m.written.order :=
    fun m => by rw [written_roomForMove]
  have hcontrol : ∀ c, (roomForControl atUs durationUs c).written.order = c.written.order :=
    fun c => by rw [written_roomForControl]
  have hraw : ∀ e, (roomForRaw atUs durationUs e).order = e.order :=
    fun e => by rw [roomForRaw_eq]
  refine unmixed_congr h ?_ ?_
  · unfold actions makeRoom
    dsimp only
    simp only [List.map_append, List.map_map]
    refine congrArg₂ (· ++ ·) ?_ ?_
    · exact List.map_congr_left fun m _ => hmove m
    · exact List.map_congr_left fun c _ => hcontrol c
  · unfold makeRoom
    dsimp only
    rw [List.map_map]
    exact List.map_congr_left fun e _ => hraw e

theorem exists_zip {α β : Type} {items : List α} {first second : List β}
    (h : items.length = first.length) (h' : items.length = second.length) :
    ∃ zipped : List (α × β × β), zipped.map (fun z => z.1) = items ∧
      zipped.map (fun z => z.2.1) = first ∧ zipped.map (fun z => z.2.2) = second := by
  have hlength : first.length = second.length := h.symm.trans h'
  have hfirst : (items.zip (first.zip second)).map Prod.snd = first.zip second := by
    refine List.map_snd_zip ?_
    rw [List.length_zip]
    omega
  refine ⟨items.zip (first.zip second), ?_, ?_, ?_⟩
  · refine List.map_fst_zip ?_
    rw [List.length_zip]
    omega
  · have hcomp : (fun z : α × β × β => z.2.1) = Prod.fst ∘ Prod.snd := rfl
    rw [hcomp, ← List.map_map, hfirst, List.map_fst_zip hlength.le]
  · have hcomp : (fun z : α × β × β => z.2.2) = Prod.snd ∘ Prod.snd := rfl
    rw [hcomp, ← List.map_map, hfirst, List.map_snd_zip hlength.ge]

/-- The destination after the paste, event by event: the new numbers are in the order in which
the events were, and there is a gap between those before the section and those behind it. -/
theorem exists_renewed (h : WellFormed lists) (hduration : 1 ≤ durationUs) (count : ℕ)
    {assigned : TimelineLists}
    (hassigned : assigned = (assignMissingOrders (makeRoom atUs durationUs lists)).1) :
    ∃ zs : List Renewed, zs.map (fun z => z.1) = (writtenSlots lists).zipIdx ∧
      (reserveInsertOrders assigned (atUs + durationUs) count).1.written =
        zs.map (renewed atUs durationUs) ∧
      (zs.Pairwise fun z z' =>
        (slotOrder (maxOrder (lists.written.map (·.order))) z.1 ≤
            slotOrder (maxOrder (lists.written.map (·.order))) z'.1 → z.2.1 ≤ z'.2.1) ∧
          (slotOrder (maxOrder (lists.written.map (·.order))) z'.1 <
            slotOrder (maxOrder (lists.written.map (·.order))) z.1 → z'.2.1 < z.2.1)) ∧
      (zs.Pairwise fun z z' => Along ((!early atUs z.1.1, z.2.1), z.2.2)
        ((!early atUs z'.1.1, z'.2.1), z'.2.2)) ∧
      ∀ z ∈ zs, (early atUs z.1.1 = true →
          z.2.2 < (reserveInsertOrders assigned (atUs + durationUs) count).2) ∧
        (early atUs z.1.1 = false →
          (reserveInsertOrders assigned (atUs + durationUs) count).2 + count ≤ z.2.2) := by
  have hroom : (makeRoom atUs durationUs lists).written = (writtenSlots lists).map fun s =>
      ⟨roomy atUs durationUs s, s.entry.order⟩ := written_makeRoom h.lasting (by omega)
  obtain ⟨numbers, hfilled, hnumbers⟩ :=
    assignMissingOrders_written (makeRoom atUs durationUs lists)
  have hunmixed : Unmixed assigned := by
    rw [hassigned]
    exact assignMissingOrders_unmixed (unmixed_makeRoom h.unmixed)
  rw [← hassigned] at hnumbers
  have hsome : ∀ entry ∈ assigned.written, entry.order.isSome = true := by
    intro entry hentry
    rw [hnumbers] at hentry
    obtain ⟨number, -, hnumber⟩ := mem_zipWith_setOrder hentry
    rw [hnumber]
    rfl
  obtain ⟨pairs, hfst, hwritten, halong, hbounds⟩ :=
    reserveInsertOrders_written hunmixed hsome (atUs + durationUs) count
  have hentries : lists.written = (writtenSlots lists).map Slot.entry :=
    (entry_writtenSlots lists).symm
  have horders : (makeRoom atUs durationUs lists).written.map (·.order) =
      (writtenSlots lists).map fun s => s.entry.order := by
    rw [hroom, List.map_map]
    rfl
  rw [horders] at hfilled
  have hlength := hfilled.length_eq
  rw [List.length_map] at hlength
  have hlength' := congrArg List.length hfst
  rw [hnumbers, hroom, List.length_map, List.length_zipWith, List.length_map, ← hlength,
    Nat.min_self] at hlength'
  obtain ⟨zs, hslots, hfirst, hsecond⟩ : ∃ zs : List Renewed,
      zs.map (fun z => z.1) = (writtenSlots lists).zipIdx ∧ zs.map (fun z => z.2.1) = numbers ∧
        zs.map (fun z => z.2.2) = pairs.map Prod.snd := by
    refine exists_zip ?_ ?_
    · rw [List.length_zipIdx, hlength]
    · rw [List.length_zipIdx, List.length_map, hlength']
  have hslot : writtenSlots lists = zs.map fun z => z.1.1 := by
    rw [← List.zipIdx_map_fst 0 (writtenSlots lists), ← hslots, List.map_map]
    rfl
  have hpairs : pairs = zs.map fun z => (⟨roomy atUs durationUs z.1.1, some z.2.1⟩, z.2.2) := by
    have hassigned' : pairs.map Prod.fst =
        zs.map fun z => ⟨roomy atUs durationUs z.1.1, some z.2.1⟩ := by
      rw [hfst, hnumbers, hroom, hslot, List.map_map, ← hfirst, List.zipWith_map,
        List.zipWith_self]
      rfl
    have hzip : (pairs.map Prod.fst).zip (pairs.map Prod.snd) = pairs := by
      rw [List.zip_map']
      exact List.map_id pairs
    rw [← hzip, hassigned', ← hsecond, List.zip_map']
  have hkey : ∀ z : Renewed, rawKey (atUs + durationUs)
      ⟨roomy atUs durationUs z.1.1, some z.2.1⟩ = (!early atUs z.1.1, z.2.1) :=
    fun z => Prod.ext (suffix_eq hduration z.1.1) rfl
  refine ⟨zs, hslots, ?_, ?_, ?_, ?_⟩
  · rw [hwritten, hpairs, List.map_map]
    rfl
  · have hmax : ∀ number, some number ∈ (writtenSlots lists).map (fun s => s.entry.order) →
        number ≤ maxOrder (lists.written.map (·.order)) ∧
          number < maxOrder (existingOrders (makeRoom atUs durationUs lists)) + 1 := by
      intro number hnumber
      constructor
      · refine le_maxOrder ?_
        rw [hentries, List.map_map]
        exact hnumber
      · rw [← horders] at hnumber
        obtain ⟨entry, hentry, horder⟩ := List.mem_map.mp hnumber
        have hmem := order_mem_existingOrders hentry
        rw [horder] at hmem
        exact Int.lt_add_one_of_le (le_maxOrder hmem)
    have hresolved := hfilled.resolved_pairwise hmax 0
    have hzip : ((writtenSlots lists).map fun s => s.entry.order).zipIdx.zip numbers =
        zs.map fun z => ((z.1.1.entry.order, z.1.2), z.2.1) := by
      rw [List.zipIdx_map, ← hslots, List.map_map, ← hfirst, List.zip_map']
      rfl
    rw [hzip, List.pairwise_map] at hresolved
    exact hresolved
  · rw [hpairs, List.map_map, List.pairwise_map] at halong
    refine halong.imp ?_
    intro z z' hz
    dsimp only [Function.comp] at hz
    rw [hkey, hkey] at hz
    exact hz
  · intro z hz
    have hmem : ((⟨roomy atUs durationUs z.1.1, some z.2.1⟩ : OrderedEvent), z.2.2) ∈ pairs := by
      rw [hpairs]
      exact List.mem_map_of_mem hz
    have hbound := compacted_bounds count _ (hbounds _ hmem)
    dsimp only at hbound
    rw [hkey] at hbound
    refine ⟨fun hearly => ?_, fun hlate => ?_⟩
    · exact (hbound.1 (by dsimp only; rw [hearly]; rfl)).2
    · exact hbound.2 (by dsimp only; rw [hlate]; rfl)

variable {zs : List Renewed}

/- Along the timeline the new keys ascend, before the section and behind it. -/
theorem renewed_pairwise {maxOriginalOrder : ℤ}
    (horder : zs.Pairwise fun z z' =>
      (slotOrder maxOriginalOrder z.1 ≤ slotOrder maxOriginalOrder z'.1 → z.2.1 ≤ z'.2.1) ∧
        (slotOrder maxOriginalOrder z'.1 < slotOrder maxOriginalOrder z.1 → z'.2.1 < z.2.1))
    (halong : zs.Pairwise fun z z' => Along ((!early atUs z.1.1, z.2.1), z.2.2)
      ((!early atUs z'.1.1, z'.2.1), z'.2.2)) :
    (sortedOn (fun z => slotKeyIn maxOriginalOrder z.1) zs).Pairwise fun z z' =>
      early atUs z.1.1 = early atUs z'.1.1 →
        orderKey (renewed atUs durationUs z) < orderKey (renewed atUs durationUs z') := by
  have hkeys : ∀ z z' : Renewed, early atUs z.1.1 = early atUs z'.1.1 →
      z.1.1.entry.event.tUs < z'.1.1.entry.event.tUs ∨
        z.1.1.entry.event.tUs = z'.1.1.entry.event.tUs ∧ z.2.2 < z'.2.2 →
      orderKey (renewed atUs durationUs z) < orderKey (renewed atUs durationUs z') := by
    intro z z' hclass hlt
    have htimes : z.1.1.entry.event.tUs ≤ z'.1.1.entry.event.tUs →
        (roomy atUs durationUs z.1.1).tUs - z.1.1.entry.event.tUs =
          (roomy atUs durationUs z'.1.1).tUs - z'.1.1.entry.event.tUs := by
      intro _
      rw [roomy_tUs, roomy_tUs, hclass]
      split <;> omega
    unfold orderKey renewed
    rw [Prod.Lex.toLex_lt_toLex]
    dsimp only [Option.getD_some]
    rcases hlt with hlt | ⟨heq, hlt⟩
    · have hsame := htimes hlt.le
      exact .inl (by omega)
    · have hsame := htimes heq.le
      exact .inr ⟨by omega, hlt⟩
  refine sortedOn_pairwise_of ((horder.and halong).imp ?_)
  intro z z' hz
  obtain ⟨⟨hforth, hback⟩, halong, halong'⟩ := hz
  unfold slotKeyIn
  rw [Prod.Lex.toLex_le_toLex, Prod.Lex.toLex_lt_toLex]
  dsimp only at halong halong' ⊢
  refine ⟨fun hle hclass => hkeys z z' hclass ?_, fun hlt hclass => hkeys z' z hclass ?_⟩
  · refine hle.imp id fun htie => ⟨htie.1, halong ?_⟩
    rw [Prod.Lex.toLex_le_toLex]
    exact .inr ⟨congrArg (!·) hclass, hforth htie.2⟩
  · refine hlt.imp id fun htie => ⟨htie.1, halong' ?_⟩
    rw [Prod.Lex.toLex_lt_toLex]
    exact .inr ⟨congrArg (!·) hclass, hback htie.2⟩

theorem written_extend (lists added : TimelineLists) :
    (extend lists added).written.Perm (lists.written ++ added.written) := by
  rw [← Multiset.coe_eq_coe, ← Multiset.coe_add]
  unfold extend TimelineLists.written
  dsimp only
  simp only [List.flatMap_append, List.map_append, ← Multiset.coe_add]
  abel

/-! ## The whole -/

/- The events of the destination before and behind the section, and the section. -/
def spliced (lists : TimelineLists) (fragment : Fragment) (atUs : ℤ) : List MacroEvent :=
  ((timeline lists).filter fun s => early atUs s).map (kept atUs fragment.durationUs) ++
    (sectionEvents fragment atUs ++
      ((timeline lists).filter fun s => !early atUs s).map fun s =>
        shiftEvent fragment.durationUs s.entry.event)

/- The numbers of the destination are all different. -/
theorem renewed_apart {key : Renewed → ℤ ×ₗ ℤ}
    (halong : zs.Pairwise fun z z' => Along ((!early atUs z.1.1, z.2.1), z.2.2)
      ((!early atUs z'.1.1, z'.2.1), z'.2.2)) :
    (sortedOn key zs).Pairwise fun z z' => z.2.2 ≠ z'.2.2 := by
  refine ((sortedOn_perm key zs).pairwise_iff Ne.symm).mpr (halong.imp ?_)
  intro z z' hz
  obtain ⟨hforth, hback⟩ := hz
  dsimp only at hforth hback
  rcases le_or_gt (toLex (!early atUs z.1.1, z.2.1)) (toLex (!early atUs z'.1.1, z'.2.1)) with
    hle | hlt
  · exact (hforth hle).ne
  · exact (hback hlt).ne'

/- How what is written is told apart: by its place, and by its number alone. -/
def Before (a b : OrderedEvent) : Prop :=
  orderKey a < orderKey b ∧ a.order.getD 0 ≠ b.order.getD 0

theorem before_of_lt {a b : OrderedEvent} (htime : a.event.tUs ≤ b.event.tUs)
    (horder : a.order.getD 0 < b.order.getD 0) : Before a b :=
  ⟨orderKey_lt htime horder, horder.ne⟩

/- The part of the destination on one side of the section. -/
theorem renewed_before {key : Renewed → ℤ ×ₗ ℤ} (side : Bool)
    (hsorted : (sortedOn key zs).Pairwise fun z z' => early atUs z.1.1 = early atUs z'.1.1 →
      orderKey (renewed atUs durationUs z) < orderKey (renewed atUs durationUs z'))
    (hapart : (sortedOn key zs).Pairwise fun z z' => z.2.2 ≠ z'.2.2) :
    (((sortedOn key zs).filter fun z => early atUs z.1.1 == side).map
      (renewed atUs durationUs)).Pairwise Before := by
  rw [List.pairwise_map]
  refine ((hsorted.and hapart).filter _).imp_of_mem ?_
  intro z z' hz hz' hboth
  have hside := eq_of_beq (List.mem_filter.mp hz).2
  have hside' := eq_of_beq (List.mem_filter.mp hz').2
  exact ⟨hboth.1 (hside.trans hside'.symm), hboth.2⟩

theorem moved_before {order : ℤ} {events : List MacroEvent} (h : Numbered order events entries)
    (nextOrder : ℤ) :
    ((sortedOn orderKey entries).map (moved nextOrder)).Pairwise Before := by
  have hnumbers : (sortedOn orderKey entries).Pairwise fun a b =>
      a.order.getD 0 ≠ b.order.getD 0 :=
    ((sortedOn_perm orderKey entries).pairwise_iff Ne.symm).mpr (h.pairwise_order.imp ne_of_lt)
  rw [List.pairwise_map]
  refine ((sorted_entries h).and hnumbers).imp_of_mem ?_
  intro a b ha hb hboth
  obtain ⟨number, hnumber⟩ := Option.isSome_iff_exists.mp
    (h.isSome_order ((sortedOn_perm orderKey entries).mem_iff.mp ha))
  obtain ⟨number', hnumber'⟩ := Option.isSome_iff_exists.mp
    (h.isSome_order ((sortedOn_perm orderKey entries).mem_iff.mp hb))
  unfold Before orderKey moved at *
  rw [hnumber, hnumber'] at hboth ⊢
  rw [Prod.Lex.toLex_lt_toLex] at hboth ⊢
  dsimp only [Option.map_some, Option.getD_some] at hboth ⊢
  omega

/- The destination and the section are on the two sides of the gap. -/
theorem renewed_bounds {nextOrder : ℤ} {count : ℕ} {z : Renewed} {side : Bool}
    (hbounds : (early atUs z.1.1 = true → z.2.2 < nextOrder) ∧
      (early atUs z.1.1 = false → nextOrder + count ≤ z.2.2))
    (hside : early atUs z.1.1 = side) :
    if side = true then (renewed atUs durationUs z).event.tUs ≤ atUs ∧ z.2.2 < nextOrder
    else atUs + durationUs ≤ (renewed atUs durationUs z).event.tUs ∧ nextOrder + count ≤ z.2.2 := by
  have htime : (renewed atUs durationUs z).event.tUs =
      if early atUs z.1.1 = true then z.1.1.entry.event.tUs
      else z.1.1.entry.event.tUs + durationUs := roomy_tUs z.1.1
  have hearly : early atUs z.1.1 = true ↔ z.1.1.entry.event.tUs < atUs ∨
      z.1.1.entry.event.tUs = atUs ∧ z.1.1.start < atUs := early_iff z.1.1
  rw [htime]
  subst hside
  cases hside : early atUs z.1.1 with
  | true =>
    rw [if_pos rfl, if_pos rfl]
    have hplace := hearly.mp hside
    exact ⟨by omega, hbounds.1 hside⟩
  | false =>
    rw [if_neg Bool.false_ne_true, if_neg Bool.false_ne_true]
    have hplace := mt hearly.mpr (by rw [hside]; exact Bool.false_ne_true)
    exact ⟨by omega, hbounds.2 hside⟩

/-- What is written after a paste, in the order in which it is played. -/
theorem exists_entries (h : WellFormed lists) (hvalid : Fragment.Valid fragment) (insertUs : ℤ) :
    ∃ entries, (paste fragment lists insertUs true).1.written.Perm entries ∧
      (∀ entry ∈ entries, entry.order.isSome = true) ∧ entries.Pairwise Before ∧
      entries.map OrderedEvent.event = spliced lists fragment (max 0 insertUs) := by
  generalize hat : max 0 insertUs = atUs
  have hduration := hvalid.positive
  obtain ⟨zs, hslots, hwritten, horder, halong, hbounds⟩ :=
    exists_renewed h hduration fragment.events.length
      (rfl : (assignMissingOrders (makeRoom atUs fragment.durationUs lists)).1 = _)
  obtain ⟨added, hnumbered, hperm⟩ := written_parseEvents (fragment.events.map (shiftEvent atUs))
  have hpaste : (paste fragment lists insertUs true).1 =
      extend (reserveInsertOrders
          (assignMissingOrders (makeRoom atUs fragment.durationUs lists)).1
            (atUs + fragment.durationUs) fragment.events.length).1
        (offset (reserveInsertOrders
          (assignMissingOrders (makeRoom atUs fragment.durationUs lists)).1
            (atUs + fragment.durationUs) fragment.events.length).2
          (parseEvents (fragment.events.map (shiftEvent atUs)))) := by
    unfold paste
    rw [hat]
    rfl
  rw [hpaste]
  generalize reserveInsertOrders (assignMissingOrders (makeRoom atUs fragment.durationUs lists)).1
    (atUs + fragment.durationUs) fragment.events.length = reserved at *
  have htimeline : timeline lists =
      (sortedOn (fun z : Renewed => slotKeyIn (maxOrder (lists.written.map (·.order))) z.1) zs).map
        fun z => z.1.1 := by
    unfold timeline
    dsimp only
    rw [← hslots, sortedOn_map, List.map_map]
    rfl
  have hsides : ∀ side, (((sortedOn
      (fun z : Renewed => slotKeyIn (maxOrder (lists.written.map (·.order))) z.1) zs).filter
        fun z => early atUs z.1.1 == side).map (renewed atUs fragment.durationUs)).Pairwise
          Before :=
    fun side => renewed_before side (renewed_pairwise horder halong) (renewed_apart halong)
  have hzs := sortedOn_perm
    (fun z : Renewed => slotKeyIn (maxOrder (lists.written.map (·.order))) z.1) zs
  generalize sortedOn
    (fun z : Renewed => slotKeyIn (maxOrder (lists.written.map (·.order))) z.1) zs = sorted at *
  have hsection : ∀ entry ∈ (sortedOn orderKey added).map (moved reserved.2),
      (atUs ≤ entry.event.tUs ∧ entry.event.tUs ≤ atUs + fragment.durationUs) ∧
        ∃ number, entry.order = some number ∧ reserved.2 ≤ number ∧
          number < reserved.2 + fragment.events.length := by
    intro entry hentry
    obtain ⟨entry, hmem, rfl⟩ := List.mem_map.mp hentry
    obtain ⟨⟨shifted, hshifted, htime⟩, number, hnumber, hle, hlt⟩ :=
      hnumbered.mem ((sortedOn_perm orderKey added).mem_iff.mp hmem)
    obtain ⟨event, hevent, rfl⟩ := List.mem_map.mp hshifted
    obtain ⟨hstart, hstop⟩ := hvalid.within event hevent
    have hshift : (shiftEvent atUs event).tUs = event.tUs + atUs := rfl
    rw [List.length_map] at hlt
    unfold moved
    dsimp only
    rw [htime, hshift, hnumber]
    exact ⟨by omega, number + reserved.2, rfl, by omega, by omega⟩
  have hdestination : ∀ side, ∀ entry ∈ (sorted.filter fun z => early atUs z.1.1 == side).map
      (renewed atUs fragment.durationUs), ∃ number, entry.order = some number ∧
        if side = true then entry.event.tUs ≤ atUs ∧ number < reserved.2
        else atUs + fragment.durationUs ≤ entry.event.tUs ∧
          reserved.2 + fragment.events.length ≤ number := by
    intro side entry hentry
    obtain ⟨z, hz, rfl⟩ := List.mem_map.mp hentry
    obtain ⟨hmem, hside⟩ := List.mem_filter.mp hz
    exact ⟨z.2.2, rfl, renewed_bounds (hbounds z (hzs.mem_iff.mp hmem)) (eq_of_beq hside)⟩
  refine ⟨(sorted.filter fun z => early atUs z.1.1 == true).map
      (renewed atUs fragment.durationUs) ++ ((sortedOn orderKey added).map (moved reserved.2) ++
        (sorted.filter fun z => early atUs z.1.1 == false).map
          (renewed atUs fragment.durationUs)), ?_, ?_, ?_, ?_⟩
  · refine (written_extend _ _).trans ?_
    have hsome : ∀ entry ∈ (parseEvents (fragment.events.map (shiftEvent atUs))).written,
        entry.order.isSome = true :=
      fun entry hentry => hnumbered.isSome_order (hperm.mem_iff.mp hentry)
    have hadded := (hperm.trans (sortedOn_perm orderKey added).symm).map (moved reserved.2)
    have hparts : (zs.map (renewed atUs fragment.durationUs) : Multiset OrderedEvent) =
        ((sorted.filter fun z => early atUs z.1.1 == true).map
            (renewed atUs fragment.durationUs) : List OrderedEvent) +
          ((sorted.filter fun z => early atUs z.1.1 == false).map
            (renewed atUs fragment.durationUs) : List OrderedEvent) := by
      rw [Multiset.coe_add, ← List.map_append, Multiset.coe_eq_coe]
      refine (hzs.symm.trans ?_).map _
      simp only [beq_true, beq_false]
      exact (List.filter_append_perm _ sorted).symm
    rw [hwritten, written_offset hsome, ← Multiset.coe_eq_coe, ← Multiset.coe_add,
      ← Multiset.coe_add, ← Multiset.coe_add, hparts, Multiset.coe_eq_coe.mpr hadded]
    abel
  · intro entry hentry
    rcases List.mem_append.mp hentry with hfront | hentry
    · obtain ⟨number, hnumber, -⟩ := hdestination true entry hfront
      rw [hnumber]
      rfl
    · rcases List.mem_append.mp hentry with hmiddle | hback
      · obtain ⟨-, number, hnumber, -⟩ := hsection entry hmiddle
        rw [hnumber]
        rfl
      · obtain ⟨number, hnumber, -⟩ := hdestination false entry hback
        rw [hnumber]
        rfl
  · have hmiddle := moved_before hnumbered reserved.2
    refine List.pairwise_append.mpr ⟨hsides true,
      List.pairwise_append.mpr ⟨hmiddle, hsides false, ?_⟩, ?_⟩
    · intro a ha b hb
      obtain ⟨⟨-, hstop⟩, number, hnumber, -, hlt⟩ := hsection a ha
      obtain ⟨number', hnumber', hlate, hle⟩ := hdestination false b hb
      refine before_of_lt (hstop.trans hlate) ?_
      rw [hnumber, hnumber', Option.getD_some, Option.getD_some]
      omega
    · intro a ha b hb
      obtain ⟨number, hnumber, hearly, hlt⟩ := hdestination true a ha
      rcases List.mem_append.mp hb with hb | hb
      · obtain ⟨⟨hstart, -⟩, number', hnumber', hle, -⟩ := hsection b hb
        refine before_of_lt (hearly.trans hstart) ?_
        rw [hnumber, hnumber', Option.getD_some, Option.getD_some]
        omega
      · obtain ⟨number', hnumber', hlate, hle⟩ := hdestination false b hb
        refine before_of_lt (by omega) ?_
        rw [hnumber, hnumber', Option.getD_some, Option.getD_some]
        omega
  · have hfront : (sorted.filter fun z => early atUs z.1.1 == true).map
        (fun z => roomy atUs fragment.durationUs z.1.1) =
          ((timeline lists).filter fun s => early atUs s).map (kept atUs fragment.durationUs) := by
      rw [htimeline, List.filter_map, List.map_map]
      simp only [beq_true]
      refine List.map_congr_left fun z hz => ?_
      exact if_pos (List.mem_filter.mp hz).2
    have hback : (sorted.filter fun z => early atUs z.1.1 == false).map
        (fun z => roomy atUs fragment.durationUs z.1.1) =
          ((timeline lists).filter fun s => !early atUs s).map fun s =>
            shiftEvent fragment.durationUs s.entry.event := by
      rw [htimeline, List.filter_map, List.map_map]
      simp only [beq_false]
      refine List.map_congr_left fun z hz => if_neg ?_
      have hlate := (List.mem_filter.mp hz).2
      rw [Bool.not_eq_true'] at hlate
      rw [hlate]
      exact Bool.false_ne_true
    have hmiddle : ((sortedOn orderKey added).map (moved reserved.2)).map OrderedEvent.event =
        sectionEvents fragment atUs := by
      unfold sectionEvents
      rw [reconstruct_parse_eq hnumbered hperm, List.map_map]
      rfl
    unfold spliced
    rw [List.map_append, List.map_append, hmiddle, List.map_map, List.map_map, ← hfront, ← hback]
    rfl

/-- After a paste the macro is what was before it, the section, and what was behind it. -/
theorem reconstructEvents_paste (h : WellFormed lists) (hvalid : Fragment.Valid fragment)
    (insertUs : ℤ) :
    reconstructEvents (paste fragment lists insertUs true).1 =
      spliced lists fragment (max 0 insertUs) := by
  obtain ⟨entries, hperm, hnumbered, hbefore, hevents⟩ := exists_entries h hvalid insertUs
  rw [reconstructEvents_eq hperm hnumbered (hbefore.imp And.left), hevents]

theorem unmixed_of_apart (hperm : lists.written.Perm entries)
    (hapart : entries.Pairwise fun a b => a.order.getD 0 ≠ b.order.getD 0) : Unmixed lists := by
  have hwritten := (hperm.pairwise_iff Ne.symm).mpr hapart
  rw [written_actions] at hwritten
  have hback := (List.pairwise_append.mp hwritten).2.1
  intro x hx y hy number hxnumber hynumber
  have hne := (List.pairwise_append.mp hback).2.2 x hx y hy
  rw [hxnumber, hynumber] at hne
  exact hne rfl

theorem unmixed_paste (h : WellFormed lists) (hvalid : Fragment.Valid fragment) (insertUs : ℤ) :
    Unmixed (paste fragment lists insertUs true).1 := by
  obtain ⟨entries, hperm, -, hbefore, -⟩ := exists_entries h hvalid insertUs
  exact unmixed_of_apart hperm (hbefore.imp And.right)

end Keymasq.MacroEditor.Splice
