import Keymasq.MacroEditor.Splice

/-!
# Any number of insertions

What a paste relies on holds of every recording that is opened, and a paste keeps it. So each
of several pastes puts its section where it belongs, and what is held there is held longer.
-/

namespace Keymasq.MacroEditor.Insertion
open Foundation Lists Sorting Ranges Pasting MacroEditor.Numbering RoundTrip Splice

/-! ## Recordings -/

/-- No release that was read so far is before its press, and none that comes will be. -/
structure Timely (s : ParseState) (nowUs : ℤ) : Prop where
  lasting : ∀ e ∈ s.editable, e.pressTUs ≤ e.releaseTUs
  opened : ∀ key, ∀ press ∈ s.openPresses.getD key [], press.1 ≤ nowUs

theorem timely_empty (nowUs : ℤ) : Timely {} nowUs := by
  constructor
  · intro e he
    cases he
  · intro key press hpress
    cases hpress

variable {s : ParseState} {nowUs : ℤ} {e : EditableEvent} {lists lists' : TimelineLists}

theorem Timely.later {laterUs : ℤ} (h : Timely s nowUs) (hle : nowUs ≤ laterUs) :
    Timely s laterUs :=
  ⟨h.lasting, fun key press hpress => (h.opened key press hpress).trans hle⟩

theorem Timely.append (h : Timely s nowUs) (he : e.pressTUs ≤ e.releaseTUs) :
    Timely { s with editable := s.editable ++ [e] } nowUs := by
  refine ⟨fun e' he' => ?_, h.opened⟩
  rcases List.mem_append.mp he' with he' | he'
  · exact h.lasting e' he'
  · obtain rfl := List.mem_singleton.mp he'
    exact he

theorem getD_insert (openPresses : Dict PressKey (List (ℤ × ℤ))) (key key' : PressKey)
    (stack : List (ℤ × ℤ)) :
    (openPresses.insert key stack).getD key' [] =
      if key' = key then stack else openPresses.getD key' [] := by
  unfold Dict.getD
  rw [Dict.get?_insert]
  split
  · rfl
  · rfl

theorem Timely.insert (h : Timely s nowUs) {key : PressKey} {stack : List (ℤ × ℤ)}
    (hstack : ∀ press ∈ stack, press.1 ≤ nowUs) :
    Timely { s with openPresses := s.openPresses.insert key stack } nowUs := by
  refine ⟨h.lasting, fun key' press hpress => ?_⟩
  dsimp only at hpress
  rw [getD_insert] at hpress
  split at hpress
  · exact hstack press hpress
  · exact h.opened key' press hpress

theorem timely_parseKey {event : MacroEvent} (h : Timely s event.tUs) (order : ℤ) :
    Timely (parseKey s event order) event.tUs := by
  unfold parseKey
  dsimp only
  split
  · refine h.insert fun press hpress => ?_
    rcases List.mem_append.mp hpress with hpress | hpress
    · exact h.opened _ press hpress
    · obtain rfl := List.mem_singleton.mp hpress
      exact le_rfl
  · split
    · split
      · rename_i pressT pressOrder hlast
        have hopened := h.opened _ _ (List.mem_of_getLast? hlast)
        have hrest : ∀ press ∈ (s.openPresses.getD (pressKey event) []).dropLast,
            press.1 ≤ event.tUs :=
          fun press hpress => h.opened _ press (List.mem_of_mem_dropLast hpress)
        exact (h.insert hrest).append hopened
      · exact ⟨h.lasting, h.opened⟩
    · exact ⟨h.lasting, h.opened⟩

theorem timely_parseEvent {event : MacroEvent} (h : Timely s event.tUs) (order : ℤ) :
    Timely (parseEvent s event order) event.tUs := by
  unfold parseEvent
  split
  · split
    · exact h.append (Int.le_add_of_nonneg_right (le_max_left 0 _))
    · exact ⟨h.lasting, h.opened⟩
  · exact ⟨h.lasting, h.opened⟩
  · exact ⟨h.lasting, h.opened⟩
  · exact ⟨h.lasting, h.opened⟩
  · unfold parsePlain
    split
    · exact timely_parseKey h order
    · split
      · exact h.append (Int.le_add_of_nonneg_right Int.one_nonneg)
      · split
        · exact ⟨h.lasting, h.opened⟩
        · split
          · exact h
          · exact ⟨h.lasting, h.opened⟩

theorem lasting_parseFrom {events : List MacroEvent} (h : Timely s nowUs)
    (hsorted : events.Pairwise fun a b => a.tUs ≤ b.tUs)
    (hnow : ∀ event ∈ events, nowUs ≤ event.tUs) (order : ℤ) :
    ∀ e ∈ (parseFrom s order events).editable, e.pressTUs ≤ e.releaseTUs := by
  induction events generalizing s nowUs order with
  | nil => exact h.lasting
  | cons event events ih =>
    obtain ⟨hhead, hrest⟩ := List.pairwise_cons.mp hsorted
    have hlater := h.later (hnow event List.mem_cons_self)
    exact ih (timely_parseEvent hlater order) hrest hhead (order + 1)

theorem lasting_parseEvents {events : List MacroEvent}
    (hsorted : events.Pairwise fun a b => a.tUs ≤ b.tUs) : Lasting (parseEvents events) := by
  have hall : ∀ e ∈ (parseFrom {} 0 events).editable, e.pressTUs ≤ e.releaseTUs := by
    cases events with
    | nil => exact (timely_empty 0).lasting
    | cons event events =>
      refine lasting_parseFrom (timely_empty event.tUs) hsorted ?_ 0
      intro event' hevent'
      rcases List.mem_cons.mp hevent' with rfl | hevent'
      · exact le_rfl
      · exact (List.pairwise_cons.mp hsorted).1 event' hevent'
  intro e he
  exact hall e ((sortedOn_perm _ _).mem_iff.mp he)

/-- A recording that is opened can be pasted into. -/
theorem wellFormed_parseEvents {events : List MacroEvent}
    (hsorted : events.Pairwise fun a b => a.tUs ≤ b.tUs) : WellFormed (parseEvents events) := by
  obtain ⟨entries, hnumbered, hperm⟩ := written_parseEvents events
  exact ⟨lasting_parseEvents hsorted,
    unmixed_of_apart hperm (hnumbered.pairwise_order.imp ne_of_lt)⟩

/-! ## Held items -/

/- An item but for its order numbers, which every paste makes anew. -/
def unordered (e : EditableEvent) : EditableEvent :=
  { e with originalPressOrder := none, originalReleaseOrder := none }

theorem unordered_renumberEvent (numbers : List ℤ) (e : EditableEvent) :
    unordered (renumberEvent numbers e).1 = unordered e := by
  unfold renumberEvent
  split
  · rfl
  · rfl

/-- Order numbers apart, a paste makes room if it is to and adds the items of the section. -/
theorem events_paste (fragment : Fragment) (lists : TimelineLists) (atUs : ℤ) (insert : Bool) :
    (paste fragment lists atUs insert).1.events.map unordered =
      lists.events.map (fun e => unordered
        (if insert = true then roomForEvent (max 0 atUs) fragment.durationUs e else e)) ++
      (parseEvents (fragment.events.map (shiftEvent (max 0 atUs)))).events.map unordered := by
  have hnumbered : ∀ first e, unordered (numberEvent first e).1 = unordered e := fun _ _ => rfl
  have hoffset : ∀ nextOrder, unordered ∘ offsetEvent nextOrder = unordered := fun _ => rfl
  have hassigned : ∀ lists, (assignMissingOrders lists).1.events.map unordered =
      lists.events.map unordered := by
    intro lists
    unfold assignMissingOrders
    exact map_thread hnumbered _ _
  have hreserved : ∀ lists endUs count,
      (reserveInsertOrders lists endUs count).1.events.map unordered =
        lists.events.map unordered := by
    intro lists endUs count
    unfold reserveInsertOrders
    exact map_thread unordered_renumberEvent _ _
  have hadded : ∀ nextOrder lists, (offset nextOrder lists).events.map unordered =
      lists.events.map unordered := by
    intro nextOrder lists
    unfold offset
    dsimp only
    rw [List.map_map, hoffset]
  unfold paste extend
  dsimp only
  rw [List.map_append, hadded]
  refine congrArg (· ++ _) ?_
  cases insert with
  | true =>
    rw [if_pos rfl, if_pos rfl, hreserved, hassigned]
    unfold makeRoom
    dsimp only
    rw [List.map_map]
    rfl
  | false =>
    rw [if_neg Bool.false_ne_true, if_neg Bool.false_ne_true, hassigned]
    rfl

theorem lasting_iff_unordered (lists : TimelineLists) :
    Lasting lists ↔ ∀ e ∈ lists.events.map unordered, e.pressTUs ≤ e.releaseTUs := by
  rw [List.forall_mem_map]
  rfl

theorem lasting_roomForEvent {atUs durationUs : ℤ} (hduration : 0 ≤ durationUs)
    (h : e.pressTUs ≤ e.releaseTUs) :
    (roomForEvent atUs durationUs e).pressTUs ≤ (roomForEvent atUs durationUs e).releaseTUs := by
  unfold roomForEvent
  split
  · exact Int.add_le_add_right h durationUs
  · split
    · exact h.trans (Int.le_add_of_nonneg_right hduration)
    · exact h

theorem lasting_paste {fragment : Fragment} (hduration : 0 ≤ fragment.durationUs)
    (hsorted : fragment.events.Pairwise fun a b => a.tUs ≤ b.tUs) (h : Lasting lists) (atUs : ℤ)
    (insert : Bool) :
    Lasting (paste fragment lists atUs insert).1 := by
  have hshifted : (fragment.events.map (shiftEvent (max 0 atUs))).Pairwise
      fun a b => a.tUs ≤ b.tUs := by
    rw [List.pairwise_map]
    exact hsorted.imp fun hle => Int.add_le_add_right hle _
  rw [lasting_iff_unordered, events_paste]
  intro e hmem
  rcases List.mem_append.mp hmem with hroom | hadded
  · obtain ⟨e, he, rfl⟩ := List.mem_map.mp hroom
    cases insert with
    | true => exact lasting_roomForEvent hduration (h e he)
    | false => exact h e he
  · exact (lasting_iff_unordered _).mp (lasting_parseEvents hshifted) e hadded

/-- An item held across the insertion point is held longer by the length of the section. -/
theorem held_longer (fragment : Fragment) {insertUs : ℤ} (he : e ∈ lists.events)
    (hpress : e.pressTUs < max 0 insertUs) (hrelease : max 0 insertUs < e.releaseTUs) :
    unordered { e with releaseTUs := e.releaseTUs + fragment.durationUs } ∈
      (paste fragment lists insertUs true).1.events.map unordered := by
  have hroom : roomForEvent (max 0 insertUs) fragment.durationUs e =
      { e with releaseTUs := e.releaseTUs + fragment.durationUs } := by
    unfold roomForEvent
    rw [if_neg (not_le.mpr hpress), if_pos hrelease]
  rw [events_paste, ← hroom]
  exact List.mem_append_left _ (List.mem_map.mpr ⟨e, he, rfl⟩)

/-! ## Editing -/

theorem unmixed_extend {added : TimelineLists} (h : Unmixed lists) (hadded : Unmixed added)
    (nextOrder : ℤ)
    (hbelow : ∀ entry ∈ lists.written, ∀ number, entry.order = some number → number < nextOrder)
    (habove : ∀ entry ∈ added.written, ∀ number, entry.order = some number → nextOrder ≤ number) :
    Unmixed (extend lists added) := by
  have hactions : ∀ lists : TimelineLists, ∀ x ∈ actions lists, x ∈ lists.written := by
    intro lists x hx
    rw [written_actions]
    exact List.mem_append_right _ (List.mem_append_left _ hx)
  have hraw : ∀ lists : TimelineLists, ∀ y ∈ lists.raw, y ∈ lists.written := by
    intro lists y hy
    rw [written_actions]
    exact List.mem_append_right _ (List.mem_append_right _ hy)
  intro x hx y hy number hxnumber hynumber
  have hxparts : x ∈ actions lists ∨ x ∈ actions added := by
    unfold actions extend at hx
    unfold actions
    simp only [List.map_append, List.mem_append] at hx ⊢
    tauto
  rcases hxparts with hx | hx
  · rcases List.mem_append.mp hy with hy | hy
    · exact h x hx y hy number hxnumber hynumber
    · have hlt := hbelow x (hactions lists x hx) number hxnumber
      have hle := habove y (hraw added y hy) number hynumber
      omega
  · rcases List.mem_append.mp hy with hy | hy
    · have hlt := hbelow y (hraw lists y hy) number hynumber
      have hle := habove x (hactions added x hx) number hxnumber
      omega
    · exact hadded x hx y hy number hxnumber hynumber

/- A section that is put behind what there is gets numbers that nothing has. -/
theorem unmixed_append (h : Unmixed lists) (fragment : Fragment) (atUs : ℤ) :
    Unmixed (paste fragment lists atUs false).1 := by
  obtain ⟨numbers, hfilled, hwritten⟩ := assignMissingOrders_written lists
  obtain ⟨entries, hnumbered, hperm⟩ :=
    written_parseEvents (fragment.events.map (shiftEvent (max 0 atUs)))
  have hoffset : ∀ nextOrder, (offset nextOrder
      (parseEvents (fragment.events.map (shiftEvent (max 0 atUs))))).written.Perm
        ((sortedOn orderKey entries).map (moved nextOrder)) := by
    intro nextOrder
    rw [written_offset fun entry hentry => hnumbered.isSome_order (hperm.mem_iff.mp hentry)]
    exact (hperm.trans (sortedOn_perm orderKey entries).symm).map (moved nextOrder)
  unfold paste
  dsimp only
  rw [if_neg Bool.false_ne_true, if_neg Bool.false_ne_true]
  refine unmixed_extend (assignMissingOrders_unmixed h)
    (unmixed_of_apart (hoffset _) ((moved_before hnumbered _).imp And.right))
    (assignMissingOrders lists).2 ?_ ?_
  · intro entry hentry number hnumber
    rw [hwritten] at hentry
    obtain ⟨filled, hmem, hentrynumber⟩ := mem_zipWith_setOrder hentry
    obtain rfl : filled = number := Option.some_inj.mp (hentrynumber.symm.trans hnumber)
    rcases hfilled.mem hmem with hknown | ⟨-, hlt⟩
    · obtain ⟨known, hwritten', horder⟩ := List.mem_map.mp hknown
      have hexisting := order_mem_existingOrders hwritten'
      rw [horder] at hexisting
      have hmax := le_maxOrder hexisting
      have hlast := hfilled.le
      omega
    · exact hlt
  · intro entry hentry number hnumber
    obtain ⟨read, hread, rfl⟩ := List.mem_map.mp ((hoffset _).mem_iff.mp hentry)
    obtain ⟨-, place, hplace, hle, -⟩ :=
      hnumbered.mem ((sortedOn_perm orderKey entries).mem_iff.mp hread)
    unfold moved at hnumber
    rw [hplace, Option.map_some, Option.some_inj] at hnumber
    omega

/-- One step of the editor: a section in order of time is inserted, or put behind what there is,
or items are changed, removed or added, of which no event gets a number of its own. -/
inductive Edited : TimelineLists → TimelineLists → Prop
  | inserted {lists : TimelineLists} {fragment : Fragment} (hvalid : Fragment.Valid fragment)
    (hsorted : fragment.events.Pairwise fun a b => a.tUs ≤ b.tUs) (atUs : ℤ) :
    Edited lists (paste fragment lists atUs true).1
  | appended {lists : TimelineLists} {fragment : Fragment} (hvalid : Fragment.Valid fragment)
    (hsorted : fragment.events.Pairwise fun a b => a.tUs ≤ b.tUs) (atUs : ℤ) :
    Edited lists (paste fragment lists atUs false).1
  | changed {lists lists' : TimelineLists} (hlasting : Lasting lists')
    (hactions : ∀ x ∈ actions lists', x.order = none ∨ x.order ∈ (actions lists).map (·.order))
    (hraw : ∀ y ∈ lists'.raw, y.order = none ∨ y.order ∈ lists.raw.map (·.order)) :
    Edited lists lists'

theorem unmixed_changed (h : Unmixed lists)
    (hactions : ∀ x ∈ actions lists', x.order = none ∨ x.order ∈ (actions lists).map (·.order))
    (hraw : ∀ y ∈ lists'.raw, y.order = none ∨ y.order ∈ lists.raw.map (·.order)) :
    Unmixed lists' := by
  intro x hx y hy number hxnumber hynumber
  have hxorder := hactions x hx
  have hyorder := hraw y hy
  rw [hxnumber] at hxorder
  rw [hynumber] at hyorder
  rcases hxorder with hnone | hxorder
  · cases hnone
  rcases hyorder with hnone | hyorder
  · cases hnone
  obtain ⟨x', hx', hxnumber'⟩ := List.mem_map.mp hxorder
  obtain ⟨y', hy', hynumber'⟩ := List.mem_map.mp hyorder
  exact h x' hx' y' hy' number hxnumber' hynumber'

theorem wellFormed_edited (h : WellFormed lists) (hedited : Edited lists lists') :
    WellFormed lists' := by
  cases hedited with
  | inserted hvalid hsorted atUs =>
    have hduration := hvalid.positive
    exact ⟨lasting_paste (by omega) hsorted h.lasting atUs true, unmixed_paste h hvalid atUs⟩
  | appended hvalid hsorted atUs =>
    have hduration := hvalid.positive
    exact ⟨lasting_paste (by omega) hsorted h.lasting atUs false, unmixed_append h.unmixed _ atUs⟩
  | changed hlasting hactions hraw => exact ⟨hlasting, unmixed_changed h.unmixed hactions hraw⟩

theorem wellFormed_run (h : WellFormed lists) (hrun : Relation.ReflTransGen Edited lists lists') :
    WellFormed lists' := by
  induction hrun with
  | refl => exact h
  | tail _ hedited ih => exact wellFormed_edited ih hedited

/-- After any number of pastes and edits the next paste is a splice of what is played: what comes
before the insertion point, then the section at its place, then the rest as much later as it is
long. -/
theorem insert_splices {start lists : TimelineLists} (h : WellFormed start)
    (hrun : Relation.ReflTransGen Edited start lists) {fragment : Fragment}
    (hvalid : Fragment.Valid fragment) (insertUs : ℤ) :
    (reconstructEvents lists = (timeline lists).map fun s => s.entry.event) ∧
    reconstructEvents (paste fragment lists insertUs true).1 =
      ((timeline lists).filter fun s => early (max 0 insertUs) s).map
          (kept (max 0 insertUs) fragment.durationUs) ++
        (sectionEvents fragment (max 0 insertUs) ++
          ((timeline lists).filter fun s => !early (max 0 insertUs) s).map fun s =>
            shiftEvent fragment.durationUs s.entry.event) ∧
    ((sectionEvents fragment (max 0 insertUs)).map MacroEvent.tUs).Perm
      ((fragment.events.filter fun event => !isSyn event).map fun event =>
        event.tUs + max 0 insertUs) ∧
    (Fragment.Written fragment → sectionEvents fragment (max 0 insertUs) =
      (fragment.events.filter fun event => !isSyn event).map (shiftEvent (max 0 insertUs))) ∧
    ∀ e ∈ lists.events, e.pressTUs < max 0 insertUs → max 0 insertUs < e.releaseTUs →
      unordered { e with releaseTUs := e.releaseTUs + fragment.durationUs } ∈
        (paste fragment lists insertUs true).1.events.map unordered := by
  refine ⟨reconstructEvents_eq_timeline lists,
    reconstructEvents_paste (wellFormed_run h hrun) hvalid insertUs, sectionEvents_tUs fragment _,
    fun hwritten => sectionEvents_written hwritten _, ?_⟩
  intro e he hpress hrelease
  exact held_longer fragment he hpress hrelease

/- A key of the keyboard that is pressed or released. -/
def keyAt (code value tUs : ℤ) : MacroEvent :=
  { deviceType := "keyboard", type := evKey, code := code, value := value, tUs := tUs }

/- A key that is tapped. -/
def tap (code : ℤ) : Fragment := ⟨[keyAt code 1 0, keyAt code 0 5], 5, false⟩

theorem valid_tap (code : ℤ) : Fragment.Valid (tap code) := by
  have hpositive : (1 : ℤ) ≤ 5 := by decide
  have hlength : (0 : ℤ) ≤ 5 := by decide
  refine ⟨hpositive, fun event hevent => ?_⟩
  rcases List.mem_cons.mp hevent with rfl | hrelease
  · exact ⟨le_rfl, hlength⟩
  · obtain rfl := List.mem_singleton.mp hrelease
    exact ⟨hlength, le_rfl⟩

theorem sorted_tap (code : ℤ) :
    (tap code).events.Pairwise fun a b => a.tUs ≤ b.tUs :=
  List.pairwise_pair.mpr (by decide : (0 : ℤ) ≤ 5)

/- Two taps into a key that is held, both where it is released. -/
theorem insert_splices_twice :
    reconstructEvents (paste (tap 31) (paste (tap 30)
        (parseEvents [keyAt 29 1 0, keyAt 29 0 10]) 10 true).1 10 true).1 =
      [keyAt 29 1 0, keyAt 29 0 10, keyAt 31 1 10, keyAt 31 0 15, keyAt 30 1 15,
        keyAt 30 0 20] := by
  have hsorted : [keyAt 29 1 0, keyAt 29 0 10].Pairwise fun a b => a.tUs ≤ b.tUs :=
    List.pairwise_pair.mpr (by decide : (0 : ℤ) ≤ 10)
  have hpastes : Relation.ReflTransGen Edited (parseEvents [keyAt 29 1 0, keyAt 29 0 10])
      (paste (tap 30) (parseEvents [keyAt 29 1 0, keyAt 29 0 10]) 10 true).1 :=
    .single (.inserted (valid_tap 30) (sorted_tap 30) 10)
  have hspliced := (insert_splices (wellFormed_parseEvents hsorted) hpastes (valid_tap 31) 10).2.1
  rw [hspliced]
  decide

/- A sync event, which is accepted in a section and not played. -/
def syncOnly : Fragment :=
  ⟨[{ deviceType := "keyboard", type := evSyn, code := 0, value := 0, tUs := 0 }], 1, false⟩

/- A key that a file releases before it presses it. -/
def reversed : TimelineLists := parseEvents [keyAt 29 1 10, keyAt 29 0 5]

/-- So not every event of a section is in the macro after a paste, and what a file has the wrong
way round does not stay where it is before the insertion point. -/
theorem not_insert_splices :
    (WellFormed {} ∧ Fragment.Valid syncOnly ∧
      reconstructEvents (paste syncOnly {} 0 true).1 ≠
        ((timeline {}).filter fun s => early 0 s).map (kept 0 syncOnly.durationUs) ++
          (syncOnly.events.map (shiftEvent 0) ++
            ((timeline {}).filter fun s => !early 0 s).map fun s =>
              shiftEvent syncOnly.durationUs s.entry.event)) ∧
    (Fragment.Valid (tap 30) ∧
      reconstructEvents (paste (tap 30) reversed 7 true).1 ≠
        ((timeline reversed).filter fun s => early 7 s).map (kept 7 (tap 30).durationUs) ++
          ((tap 30).events.map (shiftEvent 7) ++
            ((timeline reversed).filter fun s => !early 7 s).map fun s =>
              shiftEvent (tap 30).durationUs s.entry.event)) := by
  refine ⟨⟨wellFormed_parseEvents List.Pairwise.nil, ⟨le_rfl, fun event hevent => ?_⟩, by decide⟩,
    valid_tap 30, by decide⟩
  obtain rfl := List.mem_singleton.mp hevent
  exact ⟨le_rfl, by decide⟩

end Keymasq.MacroEditor.Insertion
