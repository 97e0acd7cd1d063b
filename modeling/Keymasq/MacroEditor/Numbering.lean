import Keymasq.MacroEditor.Pasting
import Mathlib.Data.List.ReduceOption

/-!
# Order numbers before a paste

Every event gets a number that keeps it where it is: those that had one keep it, the others get
the next ones in the order in which they are written. With insertion the numbers are made
anew, with a gap where the section goes.
-/

namespace Keymasq.MacroEditor.Numbering
open Foundation Lists Sorting Pasting

def setOrder (entry : OrderedEvent) (number : ℤ) : OrderedEvent :=
  { entry with order := some number }

/- What is written, list by list. -/
theorem written_eq (lists : TimelineLists) :
    lists.written = lists.events.flatMap EditableEvent.written ++
      ((lists.relative.flatMap fun e => [e]) ++
        ((lists.moves.flatMap fun m => [m.written]) ++
          ((lists.controls.flatMap fun c => [c.written]) ++ lists.raw.flatMap fun e => [e]))) := by
  have hmoves : (lists.moves.flatMap fun m => [m.written]) = lists.moves.map EditableMove.written :=
    List.flatMap_pure_eq_map _ _
  have hcontrols : (lists.controls.flatMap fun c => [c.written]) =
      lists.controls.map EditableControl.written := List.flatMap_pure_eq_map _ _
  unfold TimelineLists.written
  rw [hmoves, hcontrols, List.flatMap_singleton', List.flatMap_singleton', List.append_assoc,
    List.append_assoc, List.append_assoc]

/-! ## Filling in -/

/-- Numbers that keep those that are there and fill in the others from a first one on. -/
inductive Filled : ℤ → List (Option ℤ) → List ℤ → ℤ → Prop
  | nil {first last : ℤ} (h : first ≤ last) : Filled first [] [] last
  | known {first last number : ℤ} {orders : List (Option ℤ)} {numbers : List ℤ}
    (h : Filled first orders numbers last) :
    Filled first (some number :: orders) (number :: numbers) last
  | missing {first last number : ℤ} {orders : List (Option ℤ)} {numbers : List ℤ}
    (hfirst : first ≤ number) (h : Filled (number + 1) orders numbers last) :
    Filled first (none :: orders) (number :: numbers) last

namespace Filled

variable {first last : ℤ} {orders : List (Option ℤ)} {numbers : List ℤ}

theorem length_eq (h : Filled first orders numbers last) : orders.length = numbers.length := by
  induction h with
  | nil => rfl
  | known _ ih => exact congrArg Nat.succ ih
  | missing _ _ ih => exact congrArg Nat.succ ih

theorem le (h : Filled first orders numbers last) : first ≤ last := by
  induction h with
  | nil h => exact h
  | known _ ih => exact ih
  | missing hfirst _ ih => omega

theorem append (h : Filled first orders numbers last) {orders' : List (Option ℤ)}
    {numbers' : List ℤ} {last' : ℤ} (h' : Filled last orders' numbers' last') :
    Filled first (orders ++ orders') (numbers ++ numbers') last' := by
  induction h with
  | @nil first last h =>
    cases h' with
    | nil h' => exact .nil (h.trans h')
    | known h' => exact .known (weaken h h')
    | missing hfirst h' => exact .missing (h.trans hfirst) h'
  | known _ ih => exact .known (ih h')
  | missing hfirst _ ih => exact .missing hfirst (ih h')
where
  weaken {a b last : ℤ} {orders : List (Option ℤ)} {numbers : List ℤ} (hle : a ≤ b)
      (h : Filled b orders numbers last) : Filled a orders numbers last := by
    induction h with
    | nil h => exact .nil (hle.trans h)
    | known _ ih => exact .known (ih hle)
    | missing hfirst h _ => exact .missing (hle.trans hfirst) h

/- A number is one that was there, or one of the new ones. -/
theorem mem_zip (h : Filled first orders numbers last) {order : Option ℤ} {number : ℤ}
    (hmem : (order, number) ∈ orders.zip numbers) :
    order = some number ∨ order = none ∧ first ≤ number ∧ number < last := by
  induction h with
  | nil => cases hmem
  | known _ ih =>
    rcases List.mem_cons.mp hmem with heq | hmem
    · cases heq
      exact .inl rfl
    · exact ih hmem
  | missing hfirst h ih =>
    rcases List.mem_cons.mp hmem with heq | hmem
    · cases heq
      have hlast := h.le
      exact .inr ⟨rfl, hfirst, by omega⟩
    · rcases ih hmem with hknown | ⟨hnone, hle, hlt⟩
      · exact .inl hknown
      · exact .inr ⟨hnone, by omega, hlt⟩

theorem mem (h : Filled first orders numbers last) {number : ℤ} (hmem : number ∈ numbers) :
    some number ∈ orders ∨ first ≤ number ∧ number < last := by
  have hsnd : number ∈ (orders.zip numbers).map Prod.snd := by
    rw [List.map_snd_zip h.length_eq.ge]
    exact hmem
  obtain ⟨⟨order, number⟩, hzip, rfl⟩ := List.mem_map.mp hsnd
  rcases h.mem_zip hzip with rfl | ⟨-, hbounds⟩
  · exact .inl (List.of_mem_zip hzip).1
  · exact .inr hbounds

/- Numbers that were apart stay apart, and the new ones are apart from all. -/
theorem apart {mid : ℤ} {orders' : List (Option ℤ)} {numbers' : List ℤ}
    (h : Filled first orders numbers mid) (h' : Filled mid orders' numbers' last)
    (hbelow : ∀ number, some number ∈ orders ++ orders' → number < first)
    (hapart : ∀ number, some number ∈ orders → some number ∉ orders') {number : ℤ}
    (hmem : number ∈ numbers) : number ∉ numbers' := by
  intro hmem'
  have hle := h.le
  rcases h.mem hmem with hknown | ⟨hfirst, hmid⟩
  · rcases h'.mem hmem' with hknown' | ⟨hmid', -⟩
    · exact hapart number hknown hknown'
    · have hlt := hbelow number (List.mem_append_left _ hknown)
      omega
  · rcases h'.mem hmem' with hknown' | ⟨hmid', -⟩
    · have hlt := hbelow number (List.mem_append_right _ hknown')
      omega
    · omega

end Filled

/-- How the events of one item are numbered. -/
def Numbers {α : Type} (written : α → List OrderedEvent) (number : ℤ → α → α × ℤ) : Prop :=
  ∀ first item, ∃ numbers, Filled first ((written item).map (·.order)) numbers
      (number first item).2 ∧
    written (number first item).1 = List.zipWith setOrder (written item) numbers

theorem numbers_thread {α : Type} {written : α → List OrderedEvent} {number : ℤ → α → α × ℤ}
    (h : Numbers written number) : Numbers (List.flatMap written) (thread number) := by
  intro first items
  induction items generalizing first with
  | nil => exact ⟨[], .nil le_rfl, rfl⟩
  | cons item items ih =>
    obtain ⟨numbers, hfilled, hwritten⟩ := h first item
    obtain ⟨numbers', hfilled', hwritten'⟩ := ih (number first item).2
    refine ⟨numbers ++ numbers', ?_, ?_⟩
    · rw [List.flatMap_cons, List.map_append]
      exact hfilled.append hfilled'
    · have hlength := hfilled.length_eq
      rw [List.length_map] at hlength
      unfold thread
      rw [List.flatMap_cons, List.flatMap_cons, hwritten, hwritten',
        List.zipWith_append hlength]

theorem filled_one (first : ℤ) (order : Option ℤ) :
    ∃ number, (numberOrder first order).1 = some number ∧
      Filled first [order] [number] (numberOrder first order).2 := by
  unfold numberOrder
  cases order with
  | none => exact ⟨first, rfl, .missing le_rfl (.nil le_rfl)⟩
  | some number => exact ⟨number, rfl, .known (.nil le_rfl)⟩

theorem numbers_raw : Numbers (fun e => [e]) numberRaw := by
  intro first e
  obtain ⟨number, hnumber, hfilled⟩ := filled_one first e.order
  refine ⟨[number], hfilled, ?_⟩
  unfold numberRaw
  dsimp only
  rw [hnumber]
  rfl

theorem numbers_move : Numbers (fun m => [m.written]) numberMove := by
  intro first m
  obtain ⟨number, hnumber, hfilled⟩ := filled_one first m.originalOrder
  refine ⟨[number], hfilled, ?_⟩
  unfold numberMove
  dsimp only
  rw [hnumber]
  rfl

theorem numbers_control : Numbers (fun c => [c.written]) numberControl := by
  intro first c
  obtain ⟨number, hnumber, hfilled⟩ := filled_one first c.originalOrder
  refine ⟨[number], hfilled, ?_⟩
  unfold numberControl
  dsimp only
  rw [hnumber]
  rfl

theorem numbers_event : Numbers EditableEvent.written numberEvent := by
  intro first e
  obtain ⟨press, hpress, hfilled⟩ := filled_one first e.originalPressOrder
  unfold numberEvent
  dsimp only
  rw [hpress]
  by_cases hkey : e.evType = evKey
  · obtain ⟨release, hrelease, hfilled'⟩ :=
      filled_one (numberOrder first e.originalPressOrder).2 e.originalReleaseOrder
    rw [if_pos hkey, hrelease]
    unfold EditableEvent.written EditableEvent.rapidfire
    dsimp only
    split
    · exact ⟨[press], hfilled.append (.nil hfilled'.le), rfl⟩
    · exact ⟨[press, release], hfilled.append hfilled', rfl⟩
  · rw [if_neg hkey]
    unfold EditableEvent.written EditableEvent.rapidfire
    dsimp only
    rw [if_neg hkey, if_neg hkey]
    have hnot : ¬(e.rapidfireEnabled && decide (e.evType = evKey)) = true := by
      rw [decide_eq_false hkey, Bool.and_false]
      exact Bool.false_ne_true
    rw [if_neg hnot, if_neg hnot]
    exact ⟨[press], hfilled, rfl⟩

theorem le_maxOrder {orders : List (Option ℤ)} {number : ℤ} (h : some number ∈ orders) :
    number ≤ maxOrder orders := by
  have hmem : number ∈ orders.reduceOption := List.reduceOption_mem_iff.mpr h
  unfold maxOrder
  cases hmax : orders.reduceOption.max? with
  | none =>
    rw [List.max?_eq_none_iff.mp hmax] at hmem
    cases hmem
  | some m => exact (List.max?_eq_some_iff.mp hmax).2 number hmem

variable {lists : TimelineLists} {numbers : List ℤ} {endUs : ℤ}

/- The numbers that are written are among those that are looked at. -/
theorem order_mem_existingOrders {entry : OrderedEvent} (h : entry ∈ lists.written) :
    entry.order ∈ existingOrders lists := by
  have hevent : ∀ e : EditableEvent, ∀ entry ∈ e.written,
      entry.order ∈ [e.originalPressOrder, e.originalReleaseOrder] := by
    intro e entry hentry
    unfold EditableEvent.written at hentry
    dsimp only at hentry
    split at hentry
    · obtain rfl := List.mem_singleton.mp hentry
      exact List.mem_cons_self
    · split at hentry
      · rcases List.mem_cons.mp hentry with rfl | hentry
        · exact List.mem_cons_self
        · obtain rfl := List.mem_singleton.mp hentry
          exact List.mem_cons_of_mem _ List.mem_cons_self
      · obtain rfl := List.mem_singleton.mp hentry
        exact List.mem_cons_self
  unfold TimelineLists.written at h
  unfold existingOrders
  simp only [List.mem_append, List.mem_flatMap, List.mem_map] at h ⊢
  rcases h with (((⟨e, he, hentry⟩ | hrelative) | ⟨m, hm, rfl⟩) | ⟨c, hc, rfl⟩) | hraw
  · exact .inl (.inl (.inl (.inl ⟨e, he, hevent e entry hentry⟩)))
  · exact .inl (.inl (.inl (.inr ⟨entry, hrelative, rfl⟩)))
  · exact .inl (.inr ⟨m, hm, rfl⟩)
  · exact .inr ⟨c, hc, rfl⟩
  · exact .inl (.inl (.inr ⟨entry, hraw, rfl⟩))

/- The events of the moves and the controls. -/
def actions (lists : TimelineLists) : List OrderedEvent :=
  lists.moves.map EditableMove.written ++ lists.controls.map EditableControl.written

theorem written_actions (lists : TimelineLists) :
    lists.written = lists.events.flatMap EditableEvent.written ++ lists.relative ++
      (actions lists ++ lists.raw) := by
  unfold TimelineLists.written actions
  simp only [List.append_assoc]

theorem actions_eq (lists : TimelineLists) :
    actions lists = (lists.moves.flatMap fun m => [m.written]) ++
      lists.controls.flatMap fun c => [c.written] := by
  unfold actions
  exact congrArg₂ (· ++ ·) (List.flatMap_pure_eq_map _ _).symm (List.flatMap_pure_eq_map _ _).symm

/- Each part of the lists once every event has a number. -/
theorem assignMissingOrders_parts (lists : TimelineLists) :
    ∃ front back raw : List ℤ, ∃ mid last : ℤ,
      Filled (maxOrder (existingOrders lists) + 1)
        ((lists.events.flatMap EditableEvent.written ++ lists.relative).map (·.order)) front mid ∧
      Filled mid ((actions lists).map (·.order)) back last ∧
      Filled last (lists.raw.map (·.order)) raw (assignMissingOrders lists).2 ∧
      (assignMissingOrders lists).1.events.flatMap EditableEvent.written ++
          (assignMissingOrders lists).1.relative =
        List.zipWith setOrder
          (lists.events.flatMap EditableEvent.written ++ lists.relative) front ∧
      actions (assignMissingOrders lists).1 = List.zipWith setOrder (actions lists) back ∧
      (assignMissingOrders lists).1.raw = List.zipWith setOrder lists.raw raw := by
  rw [actions_eq, actions_eq]
  unfold assignMissingOrders
  generalize maxOrder (existingOrders lists) + 1 = first
  dsimp only
  obtain ⟨events, hevents, hevents'⟩ := numbers_thread numbers_event first lists.events
  generalize (thread numberEvent first lists.events).2 = behind at *
  obtain ⟨relative, hrelative, hrelative'⟩ := numbers_thread numbers_raw behind lists.relative
  obtain ⟨moves, hmoves, hmoves'⟩ := numbers_thread numbers_move
    (thread numberRaw behind lists.relative).2 lists.moves
  obtain ⟨controls, hcontrols, hcontrols'⟩ := numbers_thread numbers_control
    (thread numberMove (thread numberRaw behind lists.relative).2 lists.moves).2 lists.controls
  obtain ⟨raw, hraw, hraw'⟩ := numbers_thread numbers_raw
    (thread numberControl (thread numberMove (thread numberRaw behind lists.relative).2
      lists.moves).2 lists.controls).2 lists.raw
  have hlevents := hevents.length_eq
  have hlmoves := hmoves.length_eq
  rw [List.length_map] at hlevents hlmoves
  rw [List.flatMap_singleton', List.flatMap_singleton'] at hrelative' hraw'
  rw [List.flatMap_singleton'] at hrelative hraw
  refine ⟨events ++ relative, moves ++ controls, raw,
    (thread numberRaw behind lists.relative).2, _, ?_, ?_, hraw, ?_, ?_, hraw'⟩
  · rw [List.map_append]
    exact hevents.append hrelative
  · rw [List.map_append]
    exact hmoves.append hcontrols
  · rw [List.zipWith_append hlevents, hevents', hrelative']
  · rw [List.zipWith_append hlmoves, hmoves', hcontrols']

/-- What the lists are once every event has a number. -/
theorem assignMissingOrders_written (lists : TimelineLists) :
    ∃ numbers, Filled (maxOrder (existingOrders lists) + 1) (lists.written.map (·.order)) numbers
        (assignMissingOrders lists).2 ∧
      (assignMissingOrders lists).1.written = List.zipWith setOrder lists.written numbers := by
  obtain ⟨front, back, raw, mid, last, hfront, hback, hraw, hfront', hback', hraw'⟩ :=
    assignMissingOrders_parts lists
  have hlfront := hfront.length_eq
  have hlback := hback.length_eq
  rw [List.length_map] at hlfront hlback
  refine ⟨front ++ (back ++ raw), ?_, ?_⟩
  · have horders : lists.written.map (·.order) =
        (lists.events.flatMap EditableEvent.written ++ lists.relative).map (·.order) ++
          ((actions lists).map (·.order) ++ lists.raw.map (·.order)) := by
      rw [written_actions]
      simp only [List.map_append]
    rw [horders]
    exact hfront.append (hback.append hraw)
  · rw [written_actions, written_actions, List.zipWith_append hlfront,
      List.zipWith_append hlback, hfront', hback', hraw']

/-- No raw event has the number of a move or a control. -/
def Unmixed (lists : TimelineLists) : Prop :=
  ∀ x ∈ actions lists, ∀ y ∈ lists.raw, ∀ number, x.order = some number → y.order ≠ some number

theorem mem_zipWith_setOrder {entries : List OrderedEvent} {x : OrderedEvent}
    (h : x ∈ List.zipWith setOrder entries numbers) :
    ∃ number ∈ numbers, x.order = some number := by
  rw [← List.map_uncurry_zip_eq_zipWith] at h
  obtain ⟨⟨entry, number⟩, hmem, rfl⟩ := List.mem_map.mp h
  exact ⟨number, (List.of_mem_zip hmem).2, rfl⟩

theorem assignMissingOrders_unmixed (h : Unmixed lists) :
    Unmixed (assignMissingOrders lists).1 := by
  obtain ⟨front, back, raw, mid, last, hfront, hback, hraw, -, hback', hraw'⟩ :=
    assignMissingOrders_parts lists
  have hbelow : ∀ number, some number ∈ (actions lists).map (·.order) ++ lists.raw.map (·.order) →
      number < mid := by
    intro number hnumber
    rw [← List.map_append] at hnumber
    obtain ⟨entry, hentry, horder⟩ := List.mem_map.mp hnumber
    have hwritten : entry ∈ lists.written := by
      rw [written_actions]
      exact List.mem_append_right _ hentry
    have hmem := order_mem_existingOrders hwritten
    rw [horder] at hmem
    have hmax := le_maxOrder hmem
    have hmid := hfront.le
    omega
  have hapart : ∀ number, some number ∈ (actions lists).map (·.order) →
      some number ∉ lists.raw.map (·.order) := by
    intro number hx hy
    obtain ⟨x, hx, horder⟩ := List.mem_map.mp hx
    obtain ⟨y, hy, horder'⟩ := List.mem_map.mp hy
    exact h x hx y hy number horder horder'
  intro x hx y hy number hxnumber hynumber
  rw [hback'] at hx
  rw [hraw'] at hy
  obtain ⟨n, hn, hxn⟩ := mem_zipWith_setOrder hx
  obtain ⟨m, hm, hym⟩ := mem_zipWith_setOrder hy
  cases hxn.symm.trans hxnumber
  cases hym.symm.trans hynumber
  exact hback.apart hraw hbelow hapart hn hm

/- Where an event without a number is put when the events are sorted. -/
def resolved (maxOriginalOrder : ℤ) (order : Option ℤ × ℕ) : ℤ :=
  order.1.getD (maxOriginalOrder + 1 + order.2)

/-- The numbers are in the order in which the events are sorted. -/
theorem Filled.resolved_pairwise {first last : ℤ} {orders : List (Option ℤ)}
    (h : Filled first orders numbers last) {maxOriginalOrder : ℤ}
    (hmax : ∀ number, some number ∈ orders → number ≤ maxOriginalOrder ∧ number < first) (k : ℕ) :
    ((orders.zipIdx k).zip numbers).Pairwise fun a b =>
      (resolved maxOriginalOrder a.1 ≤ resolved maxOriginalOrder b.1 → a.2 ≤ b.2) ∧
        (resolved maxOriginalOrder b.1 < resolved maxOriginalOrder a.1 → b.2 < a.2) := by
  have hlater : ∀ {first last : ℤ} {orders : List (Option ℤ)} {numbers : List ℤ} {k : ℕ},
      Filled first orders numbers last → ∀ b ∈ (orders.zipIdx k).zip numbers,
        (b.1.1, b.2) ∈ orders.zip numbers ∧ k ≤ b.1.2 := by
    intro first last orders numbers k _ b hb
    have hmap : ((orders.zipIdx k).zip numbers).map (fun b => (b.1.1, b.2)) =
        orders.zip numbers := by
      have hfst : (orders.zipIdx k).map Prod.fst = orders := List.zipIdx_map_fst k orders
      conv_rhs => rw [← hfst, List.zip_map_left]
      rfl
    refine ⟨?_, List.le_snd_of_mem_zipIdx (List.of_mem_zip hb).1⟩
    rw [← hmap]
    exact List.mem_map_of_mem hb
  induction h generalizing k with
  | nil => exact List.Pairwise.nil
  | @known first last number orders numbers h ih =>
    have hrest : ∀ n, some n ∈ orders → n ≤ maxOriginalOrder ∧ n < first :=
      fun n hn => hmax n (List.mem_cons_of_mem _ hn)
    have hnumber := hmax number List.mem_cons_self
    refine List.pairwise_cons.mpr ⟨?_, ih hrest (k + 1)⟩
    intro b hb
    obtain ⟨hmem, hplace⟩ := hlater h b hb
    obtain ⟨⟨order, place⟩, number'⟩ := b
    unfold resolved
    dsimp only at hmem hplace ⊢
    rcases h.mem_zip hmem with rfl | ⟨rfl, hle, -⟩
    · dsimp only [Option.getD_some]
      omega
    · dsimp only [Option.getD_some, Option.getD_none]
      omega
  | @missing first last number orders numbers hfirst h ih =>
    have hrest : ∀ n, some n ∈ orders → n ≤ maxOriginalOrder ∧ n < number + 1 := by
      intro n hn
      have hn' := hmax n (List.mem_cons_of_mem _ hn)
      omega
    refine List.pairwise_cons.mpr ⟨?_, ih hrest (k + 1)⟩
    intro b hb
    obtain ⟨hmem, hplace⟩ := hlater h b hb
    obtain ⟨⟨order, place⟩, number'⟩ := b
    unfold resolved
    dsimp only at hmem hplace ⊢
    rcases h.mem_zip hmem with rfl | ⟨rfl, hle, -⟩
    · have hn' := hmax number' (List.mem_cons_of_mem _ (List.of_mem_zip hmem).1)
      dsimp only [Option.getD_some, Option.getD_none]
      omega
    · dsimp only [Option.getD_none]
      omega

/-! ## Making the numbers anew -/

/- The new numbers are in the order of the keys, and where two are equal, of the slots. -/
def Along (x y : (Bool × ℤ) × ℤ) : Prop :=
  (toLex x.1 ≤ toLex y.1 → x.2 < y.2) ∧ (toLex y.1 < toLex x.1 → y.2 < x.2)

theorem Along.symm {x y : (Bool × ℤ) × ℤ} (h : Along x y) (hne : x.1.2 ≠ y.1.2) : Along y x := by
  have hkey : toLex y.1 ≠ toLex x.1 := fun heq => hne (congrArg Prod.snd (toLex.injective heq)).symm
  exact ⟨fun hle => h.2 (lt_of_le_of_ne hle hkey), fun hlt => h.1 hlt.le⟩

/- The slots that stand before what is inserted. -/
def prefixCount (keys : List (Bool × ℤ)) : ℕ := keys.countP fun key => !key.1

theorem length_compacted (count : ℕ) (keys : List (Bool × ℤ)) :
    (compacted count keys).length = keys.length := by
  unfold compacted
  rw [List.length_map, List.length_zipIdx]

theorem zip_compacted (count : ℕ) (keys : List (Bool × ℤ)) :
    keys.zip (compacted count keys) = keys.zipIdx.map fun entry =>
      (entry.1, (((sortedOn (fun entry : (Bool × ℤ) × ℕ => toLex entry.1) keys.zipIdx).idxOf entry +
        if entry.1.1 = true then count else 0 : ℕ) : ℤ)) := by
  unfold compacted
  have hfst : keys.zipIdx.map Prod.fst = keys := List.zipIdx_map_fst 0 keys
  conv_lhs =>
    arg 1
    rw [← hfst]
  rw [List.zip_map']

/- The sorted slots: by key, and by place where it is the same. -/
theorem sorted_pairwise (keys : List (Bool × ℤ)) :
    (sortedOn (fun entry : (Bool × ℤ) × ℕ => toLex entry.1) keys.zipIdx).Pairwise fun a b =>
      toLex a.1 < toLex b.1 ∨ a.1 = b.1 ∧ a.2 < b.2 := by
  have hplaces : keys.zipIdx.Pairwise fun a b => a.2 < b.2 := by
    have hrange : (keys.zipIdx.map Prod.snd).Pairwise (· < ·) := by
      rw [List.zipIdx_map_snd]
      exact List.pairwise_lt_range'
    exact List.pairwise_map.mp hrange
  refine sortedOn_pairwise_of (hplaces.imp fun hlt => ⟨fun hle => ?_, fun hgt => .inl hgt⟩)
  rcases lt_or_eq_of_le hle with h | h
  · exact .inl h
  · exact .inr ⟨toLex.injective h, hlt⟩

theorem suffix_of_le {x y : Bool × ℤ} (h : toLex x ≤ toLex y) (hx : x.1 = true) : y.1 = true := by
  have hle : x.1 ≤ y.1 := (Prod.Lex.toLex_le_toLex'.mp h).1
  rw [hx] at hle
  exact Bool.eq_true_of_true_le hle

/- A slot that comes earlier gets the smaller number. -/
theorem number_lt {count : ℕ} {keys : List (Bool × ℤ)} {a b : (Bool × ℤ) × ℕ}
    (ha : a ∈ keys.zipIdx) (hb : b ∈ keys.zipIdx)
    (h : toLex a.1 < toLex b.1 ∨ a.1 = b.1 ∧ a.2 < b.2) :
    (sortedOn (fun entry : (Bool × ℤ) × ℕ => toLex entry.1) keys.zipIdx).idxOf a +
        (if a.1.1 = true then count else 0) <
      (sortedOn (fun entry : (Bool × ℤ) × ℕ => toLex entry.1) keys.zipIdx).idxOf b +
        if b.1.1 = true then count else 0 := by
  have hmem : ∀ {e}, e ∈ keys.zipIdx →
      e ∈ sortedOn (fun entry : (Bool × ℤ) × ℕ => toLex entry.1) keys.zipIdx :=
    fun he => (sortedOn_perm _ _).mem_iff.mpr he
  have hne : a ≠ b := by
    rintro rfl
    rcases h with h | ⟨-, h⟩
    · exact lt_irrefl _ h
    · exact lt_irrefl _ h
  have hnot : ¬(toLex b.1 < toLex a.1 ∨ b.1 = a.1 ∧ b.2 < a.2) := by
    rintro (hback | ⟨heq, hback⟩)
    · rcases h with h | ⟨heq, -⟩
      · exact lt_asymm h hback
      · rw [heq] at hback
        exact lt_irrefl _ hback
    · rcases h with h | ⟨-, h⟩
      · rw [heq] at h
        exact lt_irrefl _ h
      · exact lt_asymm h hback
  have hle : toLex a.1 ≤ toLex b.1 := by
    rcases h with h | ⟨h, -⟩
    · exact h.le
    · rw [h]
  have hindex := idxOf_lt_idxOf (sorted_pairwise keys) (hmem ha) (hmem hb) hne hnot
  by_cases hsuffix : a.1.1 = true
  · rw [if_pos hsuffix, if_pos (suffix_of_le hle hsuffix)]
    exact Nat.add_lt_add_right hindex count
  · rw [if_neg hsuffix]
    exact Nat.lt_of_lt_of_le hindex (Nat.le_add_right _ _)

theorem compacted_along (count : ℕ) (keys : List (Bool × ℤ)) :
    (keys.zip (compacted count keys)).Pairwise Along := by
  have hplaces : keys.zipIdx.Pairwise fun a b => a.2 < b.2 := by
    have hrange : (keys.zipIdx.map Prod.snd).Pairwise (· < ·) := by
      rw [List.zipIdx_map_snd]
      exact List.pairwise_lt_range'
    exact List.pairwise_map.mp hrange
  rw [zip_compacted, List.pairwise_map]
  refine hplaces.imp_of_mem fun ha hb hlt => ⟨fun hle => ?_, fun hback => ?_⟩
  · rcases lt_or_eq_of_le hle with h | h
    · exact Int.ofNat_lt.mpr (number_lt ha hb (.inl h))
    · exact Int.ofNat_lt.mpr (number_lt ha hb (.inr ⟨toLex.injective h, hlt⟩))
  · exact Int.ofNat_lt.mpr (number_lt hb ha (.inl hback))

theorem compacted_bounds (count : ℕ) (keys : List (Bool × ℤ)) {z : (Bool × ℤ) × ℤ}
    (hz : z ∈ keys.zip (compacted count keys)) :
    (z.1.1 = false → 0 ≤ z.2 ∧ z.2 < prefixCount keys) ∧
      (z.1.1 = true → prefixCount keys + count ≤ z.2) := by
  rw [zip_compacted] at hz
  obtain ⟨entry, hentry, rfl⟩ := List.mem_map.mp hz
  have hmem := (sortedOn_perm (fun entry : (Bool × ℤ) × ℕ => toLex entry.1) keys.zipIdx).mem_iff.mpr
    hentry
  have hsplit := filter_append_filter (p := fun e : (Bool × ℤ) × ℕ => e.1.1)
    ((sortedOn_pairwise (fun entry : (Bool × ℤ) × ℕ => toLex entry.1) keys.zipIdx).imp
      fun hle => suffix_of_le hle)
  have hcount : ((sortedOn (fun entry : (Bool × ℤ) × ℕ => toLex entry.1) keys.zipIdx).filter
      fun e => !e.1.1).length = prefixCount keys := by
    have hfst : keys.zipIdx.map Prod.fst = keys := List.zipIdx_map_fst 0 keys
    unfold prefixCount
    rw [← List.countP_eq_length_filter, (sortedOn_perm _ _).countP_eq]
    conv_rhs => rw [← hfst, List.countP_map]
    rfl
  rw [← hsplit] at hmem ⊢
  constructor
  · intro hbefore
    dsimp only at hbefore ⊢
    have hfirst : entry ∈ (sortedOn (fun entry : (Bool × ℤ) × ℕ => toLex entry.1)
        keys.zipIdx).filter fun e => !e.1.1 := by
      rw [hsplit] at hmem
      exact List.mem_filter.mpr ⟨hmem, by rw [hbefore]; rfl⟩
    have hlt := List.idxOf_lt_length_of_mem hfirst
    rw [List.idxOf_append_of_mem hfirst, if_neg (by rw [hbefore]; exact Bool.false_ne_true)]
    omega
  · intro hsuffix
    dsimp only at hsuffix ⊢
    have hnot : entry ∉ (sortedOn (fun entry : (Bool × ℤ) × ℕ => toLex entry.1)
        keys.zipIdx).filter fun e => !e.1.1 := by
      intro hfirst
      have hfalse := (List.mem_filter.mp hfirst).2
      rw [hsuffix] at hfalse
      exact absurd hfalse (by decide)
    rw [List.idxOf_append_of_notMem hnot, if_pos hsuffix]
    omega

/-- How the events of one item get their new numbers: one for each of its slots, of which not
every one is an event. -/
def Renumbers {α : Type} (endUs : ℤ) (written : α → List OrderedEvent)
    (keys : α → List (Bool × ℤ)) (renumber : List ℤ → α → α × List ℤ) : Prop :=
  ∀ numbers item, (keys item).length ≤ numbers.length →
    (renumber numbers item).2 = numbers.drop (keys item).length ∧
      ∃ pairs : List (OrderedEvent × ℤ), pairs.map Prod.fst = written item ∧
        written (renumber numbers item).1 = pairs.map (fun z => setOrder z.1 z.2) ∧
          (pairs.map fun z => (rawKey endUs z.1, z.2)).Sublist ((keys item).zip numbers)

theorem renumbers_thread {α : Type} {written : α → List OrderedEvent} {keys : α → List (Bool × ℤ)}
    {renumber : List ℤ → α → α × List ℤ} (h : Renumbers endUs written keys renumber) :
    Renumbers endUs (List.flatMap written) (List.flatMap keys) (thread renumber) := by
  intro numbers items hlength
  induction items generalizing numbers with
  | nil => exact ⟨rfl, [], rfl, rfl, List.Sublist.refl []⟩
  | cons item items ih =>
    rw [List.flatMap_cons, List.length_append] at hlength
    obtain ⟨hrest, pairs, hfst, hwritten, hkeys⟩ := h numbers item (by omega)
    have hleft : (items.flatMap keys).length ≤ (numbers.drop (keys item).length).length := by
      rw [List.length_drop]
      omega
    obtain ⟨hrest', pairs', hfst', hwritten', hkeys'⟩ := ih _ hleft
    unfold thread
    dsimp only
    rw [hrest, List.flatMap_cons, List.flatMap_cons, List.flatMap_cons]
    refine ⟨?_, pairs ++ pairs', ?_, ?_, ?_⟩
    · rw [hrest', List.drop_drop, List.length_append]
    · rw [List.map_append, hfst, hfst']
    · rw [List.map_append, hwritten, hwritten']
    · rw [List.map_append, zip_append_drop]
      exact hkeys.append hkeys'

/- One part after the other. -/
theorem renumbers_then {α β : Type} {written : α → List OrderedEvent} {keys : α → List (Bool × ℤ)}
    {renumber : List ℤ → α → α × List ℤ} {written' : β → List OrderedEvent}
    {keys' : β → List (Bool × ℤ)} {renumber' : List ℤ → β → β × List ℤ}
    (h : Renumbers endUs written keys renumber) (h' : Renumbers endUs written' keys' renumber') :
    Renumbers endUs (fun item : α × β => written item.1 ++ written' item.2)
      (fun item => keys item.1 ++ keys' item.2)
      fun numbers item =>
        (((renumber numbers item.1).1, (renumber' (renumber numbers item.1).2 item.2).1),
          (renumber' (renumber numbers item.1).2 item.2).2) := by
  intro numbers item hlength
  rw [List.length_append] at hlength
  obtain ⟨hrest, pairs, hfst, hwritten, hkeys⟩ := h numbers item.1 (by omega)
  have hleft : (keys' item.2).length ≤ (numbers.drop (keys item.1).length).length := by
    rw [List.length_drop]
    omega
  obtain ⟨hrest', pairs', hfst', hwritten', hkeys'⟩ := h' _ item.2 hleft
  dsimp only
  rw [hrest]
  refine ⟨?_, pairs ++ pairs', ?_, ?_, ?_⟩
  · rw [hrest', List.drop_drop, List.length_append]
  · rw [List.map_append, hfst, hfst']
  · rw [List.map_append, hwritten, hwritten']
  · rw [List.map_append, zip_append_drop]
    exact hkeys.append hkeys'

/- Three parts, each with its pairs. -/
theorem renumbers_parts {α β γ : Type} {written : α → List OrderedEvent}
    {keys : α → List (Bool × ℤ)} {renumber : List ℤ → α → α × List ℤ}
    {written' : β → List OrderedEvent} {keys' : β → List (Bool × ℤ)}
    {renumber' : List ℤ → β → β × List ℤ} {written'' : γ → List OrderedEvent}
    {keys'' : γ → List (Bool × ℤ)} {renumber'' : List ℤ → γ → γ × List ℤ}
    (h : Renumbers endUs written keys renumber) (h' : Renumbers endUs written' keys' renumber')
    (h'' : Renumbers endUs written'' keys'' renumber'') {a : α} {b : β} {c : γ}
    (hlength : (keys a ++ (keys' b ++ keys'' c)).length ≤ numbers.length) :
    ∃ p p' p'' : List (OrderedEvent × ℤ),
      p.map Prod.fst = written a ∧ p'.map Prod.fst = written' b ∧ p''.map Prod.fst = written'' c ∧
      written (renumber numbers a).1 = p.map (fun z => setOrder z.1 z.2) ∧
      written' (renumber' (renumber numbers a).2 b).1 = p'.map (fun z => setOrder z.1 z.2) ∧
      written'' (renumber'' (renumber' (renumber numbers a).2 b).2 c).1 =
        p''.map (fun z => setOrder z.1 z.2) ∧
      ((p ++ (p' ++ p'')).map fun z => (rawKey endUs z.1, z.2)).Sublist
        ((keys a ++ (keys' b ++ keys'' c)).zip numbers) := by
  rw [List.length_append, List.length_append] at hlength
  obtain ⟨hrest, p, hfst, hwritten, hkeys⟩ := h numbers a (by omega)
  have hleft : (keys' b).length + (keys'' c).length ≤ (numbers.drop (keys a).length).length := by
    rw [List.length_drop]
    omega
  rw [hrest, zip_append_drop]
  generalize numbers.drop (keys a).length = behind at hleft ⊢
  obtain ⟨hrest', p', hfst', hwritten', hkeys'⟩ := h' behind b (by omega)
  have hleft' : (keys'' c).length ≤ (behind.drop (keys' b).length).length := by
    rw [List.length_drop]
    omega
  rw [hrest', zip_append_drop]
  obtain ⟨-, p'', hfst'', hwritten'', hkeys''⟩ := h'' _ c hleft'
  refine ⟨p, p', p'', hfst, hfst', hfst'', hwritten, hwritten', hwritten'', ?_⟩
  rw [List.map_append, List.map_append]
  exact hkeys.append (hkeys'.append hkeys'')

theorem renumbers_one {α : Type} {entry : α → OrderedEvent} {renumber : List ℤ → α → α × List ℤ}
    (hrest : ∀ numbers a, (renumber numbers a).2 = numbers.tail)
    (hentry : ∀ number numbers a,
      entry (renumber (number :: numbers) a).1 = setOrder (entry a) number) :
    Renumbers endUs (fun a => [entry a]) (fun a => [rawKey endUs (entry a)]) renumber := by
  intro numbers a hlength
  cases numbers with
  | nil => exact absurd hlength (Nat.not_succ_le_zero 0)
  | cons number numbers =>
    refine ⟨hrest _ a, [(entry a, number)], rfl, ?_, List.Sublist.refl _⟩
    exact congrArg (fun e => [e]) (hentry number numbers a)

theorem renumbers_raw (endUs : ℤ) :
    Renumbers endUs (fun e => [e]) (fun e => [rawKey endUs e]) renumberRaw :=
  renumbers_one (fun _ _ => rfl) fun _ _ _ => rfl

theorem renumbers_move (endUs : ℤ) :
    Renumbers endUs (fun m => [m.written]) (fun m => [moveKey endUs m]) renumberMove :=
  renumbers_one (fun _ _ => rfl) fun _ _ _ => rfl

theorem renumbers_control (endUs : ℤ) :
    Renumbers endUs (fun c => [c.written]) (fun c => [controlKey endUs c]) renumberControl :=
  renumbers_one (fun _ _ => rfl) fun _ _ _ => rfl

theorem renumbers_event (endUs : ℤ) :
    Renumbers endUs EditableEvent.written (eventKeys endUs) renumberEvent := by
  intro numbers e hlength
  unfold eventKeys at hlength ⊢
  unfold renumberEvent
  by_cases hkey : e.evType = evKey
  · rw [if_pos hkey] at hlength ⊢
    rcases numbers with _ | ⟨press, _ | ⟨release, numbers⟩⟩
    · exact absurd hlength (Nat.not_succ_le_zero 1)
    · exact absurd (Nat.le_of_succ_le_succ hlength) (Nat.not_succ_le_zero 0)
    rw [if_pos hkey]
    refine ⟨rfl, ?_⟩
    unfold EditableEvent.written EditableEvent.rapidfire
    dsimp only
    by_cases hrapidfire : (e.rapidfireEnabled && decide (e.evType = evKey)) = true
    · rw [if_pos hrapidfire, if_pos hrapidfire]
      exact ⟨[(_, press)], rfl, rfl, (List.nil_sublist _).cons_cons _⟩
    · rw [if_neg hrapidfire, if_neg hrapidfire, if_pos hkey, if_pos hkey]
      exact ⟨[(_, press), (_, release)], rfl, rfl, List.Sublist.refl _⟩
  · rw [if_neg hkey] at hlength ⊢
    rcases numbers with _ | ⟨press, numbers⟩
    · exact absurd hlength (Nat.not_succ_le_zero 0)
    rw [if_neg hkey]
    refine ⟨rfl, ?_⟩
    unfold EditableEvent.written EditableEvent.rapidfire
    dsimp only
    have hnot : ¬(e.rapidfireEnabled && decide (e.evType = evKey)) = true := by
      rw [decide_eq_false hkey, Bool.and_false]
      exact Bool.false_ne_true
    rw [if_neg hnot, if_neg hnot, if_neg hkey, if_neg hkey]
    exact ⟨[(_, press)], rfl, rfl, List.Sublist.refl _⟩

theorem insertKeys_eq (endUs : ℤ) (lists : TimelineLists) :
    insertKeys endUs lists =
      (lists.events.flatMap (eventKeys endUs) ++
          lists.relative.flatMap fun e => [rawKey endUs e]) ++
        ((lists.raw.flatMap fun e => [rawKey endUs e]) ++
          ((lists.moves.flatMap fun m => [moveKey endUs m]) ++
            lists.controls.flatMap fun c => [controlKey endUs c])) := by
  have hsingle : ∀ {α : Type} (f : α → Bool × ℤ) (items : List α),
      (items.flatMap fun a => [f a]) = items.map f :=
    fun f items => List.flatMap_pure_eq_map f items
  unfold insertKeys
  rw [hsingle, hsingle, hsingle, hsingle, List.append_assoc]

/-- What the lists are with the new numbers. -/
theorem reserveInsertOrders_written (hunmixed : Unmixed lists)
    (hnumbered : ∀ entry ∈ lists.written, entry.order.isSome = true) (endUs : ℤ) (count : ℕ) :
    ∃ pairs : List (OrderedEvent × ℤ), pairs.map Prod.fst = lists.written ∧
      (reserveInsertOrders lists endUs count).1.written = pairs.map (fun z => setOrder z.1 z.2) ∧
      (pairs.map fun z => (rawKey endUs z.1, z.2)).Pairwise Along ∧
      ∀ z ∈ pairs, (rawKey endUs z.1, z.2) ∈
        (insertKeys endUs lists).zip (compacted count (insertKeys endUs lists)) := by
  have hlength := length_compacted count (insertKeys endUs lists)
  have halong := compacted_along count (insertKeys endUs lists)
  unfold reserveInsertOrders
  dsimp only
  generalize compacted count (insertKeys endUs lists) = numbers at *
  rw [insertKeys_eq] at *
  -- the keys and the motion, then the raw events, then the moves and the controls
  obtain ⟨front, raw, back, hfront, hraw, hback, hfront', hraw', hback', hsub⟩ :=
    renumbers_parts
      (renumbers_then (renumbers_thread (renumbers_event endUs))
        (renumbers_thread (renumbers_raw endUs)))
      (renumbers_thread (renumbers_raw endUs))
      (renumbers_then (renumbers_thread (renumbers_move endUs))
        (renumbers_thread (renumbers_control endUs)))
      (a := (lists.events, lists.relative)) (b := lists.raw) (c := (lists.moves, lists.controls))
      hlength.ge
  refine ⟨front ++ (back ++ raw), ?_, ?_, ?_, ?_⟩
  · rw [List.map_append, List.map_append, hfront, hback, hraw, written_eq]
    simp only [List.append_assoc]
  · rw [List.map_append, List.map_append, ← hfront', ← hback', ← hraw', written_eq]
    simp only [List.append_assoc]
  · rw [List.map_append, List.map_append] at hsub ⊢
    refine pairwise_append_swap (halong.sublist hsub) ?_
    intro y hy x hx hyx
    obtain ⟨y, hyraw, rfl⟩ := List.mem_map.mp hy
    obtain ⟨x, hxback, rfl⟩ := List.mem_map.mp hx
    have hy' : y.1 ∈ lists.raw := by
      rw [← List.flatMap_singleton' lists.raw]
      exact hraw ▸ List.mem_map_of_mem hyraw
    have hx' : x.1 ∈ actions lists := by
      rw [actions_eq]
      exact hback ▸ List.mem_map_of_mem hxback
    have hwritten : ∀ z ∈ actions lists ++ lists.raw, z ∈ lists.written := by
      intro z hz
      rw [written_actions]
      exact List.mem_append_right _ hz
    obtain ⟨n, hn⟩ := Option.isSome_iff_exists.mp
      (hnumbered x.1 (hwritten x.1 (List.mem_append_left _ hx')))
    obtain ⟨m, hm⟩ := Option.isSome_iff_exists.mp
      (hnumbered y.1 (hwritten y.1 (List.mem_append_right _ hy')))
    refine hyx.symm fun heq => hunmixed x.1 hx' y.1 hy' n hn ?_
    have heq' : y.1.order.getD 0 = x.1.order.getD 0 := heq
    rw [hn, hm] at heq'
    rw [hm]
    exact congrArg some heq'
  · intro z hz
    refine hsub.subset ?_
    simp only [List.mem_append, List.mem_map] at hz ⊢
    rcases hz with hz | hz | hz
    · exact ⟨z, .inl hz, rfl⟩
    · exact ⟨z, .inr (.inr hz), rfl⟩
    · exact ⟨z, .inr (.inl hz), rfl⟩

end Keymasq.MacroEditor.Numbering
