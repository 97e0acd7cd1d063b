import Keymasq.Foundation.Spans
import Keymasq.MacroEditor.Model

/-!
# Selecting a range of time

The range is made longer until no held item reaches across a border. The holds are joined
first, so that one pass over them is enough. What is selected can be copied: each press is in
the copy together with its release.
-/

namespace Keymasq.MacroEditor.Ranges
open Foundation Spans

/- Spans that only touch stay apart. -/
def overlapping (left spanEnd : ℤ) : Bool := left < spanEnd

def heldSpans (candidates : List Item) : List (ℤ × ℤ) :=
  (candidates.filter fun item => item.start < item.stop).map fun item => (item.start, item.stop)

/- One round of the pass: a span that the range cuts is drawn in. -/
def expand (range span : ℤ × ℤ) : ℤ × ℤ :=
  if span.1 < range.2 ∧ range.1 < span.2 then (min range.1 span.1, max range.2 span.2) else range

/- `sorted((max(0, first), max(0, last)))`. -/
def requested (first last : ℤ) : ℤ × ℤ :=
  (min (max 0 first) (max 0 last), max (max 0 first) (max 0 last))

def selectTimeRange (candidates : List Item) (first last : ℤ) : List Item × (ℤ × ℤ) :=
  let range := requested first last
  let spans := joined overlapping (sortedSpans (heldSpans candidates))
  if range.1 = range.2 then ([], range)
  else
    let range := spans.foldl expand range
    (candidates.filter fun item => range.1 ≤ item.start ∧ item.start < range.2, range)

/-! ## Copying -/

/- `subset`: the items of each list that are selected. -/
def subset (lists : TimelineLists) (selected : List Item) : TimelineLists :=
  { events := lists.events.filter fun e => Item.event e ∈ selected
    relative := lists.relative.filter fun e => Item.raw e ∈ selected
    raw := lists.raw.filter fun e => Item.raw e ∈ selected
    moves := lists.moves.filter fun m => Item.move m ∈ selected
    controls := lists.controls.filter fun c => Item.control c ∈ selected }

structure Fragment where
  events : List MacroEvent
  durationUs : ℤ
  preserveRange : Bool := false

def shiftEvent (deltaUs : ℤ) (event : MacroEvent) : MacroEvent :=
  { event with tUs := event.tUs + deltaUs }

def incompleteRange : String := "The selected range must contain each complete action."

def Fragment.capture (lists : TimelineLists) (selected : List Item)
    (timeRange : Option (ℤ × ℤ)) : Except String Fragment :=
  let range := timeRange.getD (bounds selected)
  let fragment : Fragment :=
    { events := (reconstructEvents (subset lists selected)).map (shiftEvent (-range.1))
      durationUs := max 1 (range.2 - range.1)
      preserveRange := timeRange.isSome }
  if timeRange.isSome = true ∧ (range.1 < 0 ∨ range.2 ≤ range.1 ∨
      ∃ item ∈ selected, item.start < range.1 ∨ range.2 < item.stop) then .error incompleteRange
  else .ok fragment

/-! ## The least closed range -/

/-- No held item reaches across a border. -/
def Closed (candidates : List Item) (range : ℤ × ℤ) : Prop :=
  ∀ item ∈ candidates, item.start < item.stop →
    ¬ (item.start < range.1 ∧ range.1 < item.stop) ∧
    ¬ (item.start < range.2 ∧ range.2 < item.stop)

/- What the two have in common has no length, or the span lies in the range. -/
def Settled (span range : ℤ × ℤ) : Prop :=
  span.2 ≤ range.1 ∨ range.2 ≤ span.1 ∨ range.1 ≤ span.1 ∧ span.2 ≤ range.2

theorem mem_heldSpans {candidates : List Item} {span : ℤ × ℤ} :
    span ∈ heldSpans candidates ↔
      ∃ item ∈ candidates, item.start < item.stop ∧ (item.start, item.stop) = span := by
  unfold heldSpans
  simp only [List.mem_map, List.mem_filter, decide_eq_true_eq, and_assoc]

variable {range : ℤ × ℤ}

theorem closed_iff_settled {candidates : List Item} (h : range.1 < range.2) :
    Closed candidates range ↔ ∀ span ∈ heldSpans candidates, Settled span range := by
  unfold Closed Settled
  constructor
  · intro hclosed span hspan
    obtain ⟨item, hitem, hheld, rfl⟩ := mem_heldSpans.mp hspan
    have hborders := hclosed item hitem hheld
    dsimp only
    omega
  · intro hsettled item hitem hheld
    have hspan := hsettled _ (mem_heldSpans.mpr ⟨item, hitem, hheld, rfl⟩)
    dsimp only at hspan
    omega

theorem earlierJoins_overlapping : EarlierJoins overlapping := by
  intro x y e hle hjoins
  unfold overlapping at hjoins ⊢
  rw [decide_eq_true_eq] at hjoins ⊢
  omega

/-- The joined holds last, and each ends before the next one starts. -/
theorem joined_holds (candidates : List Item) :
    (∀ span ∈ joined overlapping (sortedSpans (heldSpans candidates)), span.1 < span.2) ∧
      (joined overlapping (sortedSpans (heldSpans candidates))).Pairwise fun s t => s.2 ≤ t.1 := by
  constructor
  · refine joined_all (fun span hspan => ?_) fun a s _ ha _ _ => lt_max_of_lt_left ha
    obtain ⟨item, -, hheld, rfl⟩ := mem_heldSpans.mp hspan
    exact hheld
  · refine (joined_apart earlierJoins_overlapping _).imp fun hapart => ?_
    unfold overlapping at hapart
    rw [decide_eq_true_eq] at hapart
    exact not_lt.mp hapart

theorem expand_grows (range span : ℤ × ℤ) :
    (expand range span).1 ≤ range.1 ∧ range.2 ≤ (expand range span).2 := by
  unfold expand
  split
  · exact ⟨min_le_left _ _, le_max_left _ _⟩
  · exact ⟨le_rfl, le_rfl⟩

theorem foldl_expand_grows (spans : List (ℤ × ℤ)) (range : ℤ × ℤ) :
    (spans.foldl expand range).1 ≤ range.1 ∧ range.2 ≤ (spans.foldl expand range).2 := by
  induction spans generalizing range with
  | nil => exact ⟨le_rfl, le_rfl⟩
  | cons span spans ih =>
    have hstep := expand_grows range span
    have hrest := ih (expand range span)
    exact ⟨hrest.1.trans hstep.1, hstep.2.trans hrest.2⟩

/-- A span the pass has left behind stays settled when a later one is drawn in. -/
theorem settled_expand {earlier span : ℤ × ℤ} (hbefore : earlier.2 ≤ span.1)
    (h : Settled earlier range) : Settled earlier (expand range span) := by
  unfold Settled expand at *
  split
  · dsimp only
    omega
  · exact h

theorem settled_expand_self (span range : ℤ × ℤ) : Settled span (expand range span) := by
  unfold Settled expand
  split
  · exact .inr (.inr ⟨min_le_right _ _, le_max_right _ _⟩)
  · omega

theorem foldl_expand_settled {spans : List (ℤ × ℤ)} {done : ℤ × ℤ → Prop}
    (hapart : spans.Pairwise fun s t => s.2 ≤ t.1)
    (hdone : ∀ earlier, done earlier → Settled earlier range ∧ ∀ span ∈ spans, earlier.2 ≤ span.1) :
    ∀ span, done span ∨ span ∈ spans → Settled span (spans.foldl expand range) := by
  induction spans generalizing range done with
  | nil =>
    rintro span (hspan | hspan)
    · exact (hdone span hspan).1
    · cases hspan
  | cons head spans ih =>
    obtain ⟨hhead, hapart'⟩ := List.pairwise_cons.mp hapart
    have hrest := @ih (expand range head) (fun s => done s ∨ s = head) hapart'
      fun earlier hearlier => by
        obtain hearlier | rfl := hearlier
        · obtain ⟨hsettled, hbefore⟩ := hdone earlier hearlier
          exact ⟨settled_expand (hbefore head List.mem_cons_self) hsettled,
            fun s hs => hbefore s (List.mem_cons_of_mem _ hs)⟩
        · exact ⟨settled_expand_self _ _, hhead⟩
    rintro span (hspan | hspan)
    · exact hrest span (.inl (.inl hspan))
    obtain rfl | hspan := List.mem_cons.mp hspan
    · exact hrest span (.inl (.inr rfl))
    · exact hrest span (.inr hspan)

/-- A settled range that holds the request holds every span that the pass draws in. -/
theorem foldl_expand_least {spans : List (ℤ × ℤ)} {outer : ℤ × ℤ}
    (hsettled : ∀ span ∈ spans, Settled span outer) (hrange : range.1 < range.2)
    (hlow : outer.1 ≤ range.1) (hhigh : range.2 ≤ outer.2) :
    outer.1 ≤ (spans.foldl expand range).1 ∧ (spans.foldl expand range).2 ≤ outer.2 := by
  induction spans generalizing range with
  | nil => exact ⟨hlow, hhigh⟩
  | cons span spans ih =>
    have hspan := hsettled span List.mem_cons_self
    have hstep : outer.1 ≤ (expand range span).1 ∧ (expand range span).2 ≤ outer.2 := by
      unfold Settled at hspan
      unfold expand
      split
      · dsimp only
        omega
      · exact ⟨hlow, hhigh⟩
    have hgrows := expand_grows range span
    exact ih (fun s hs => hsettled s (List.mem_cons_of_mem _ hs)) (by omega) hstep.1 hstep.2

/-- A range settles a joined span as soon as it settles the spans themselves. -/
theorem settled_joined {candidates : List Item} {outer : ℤ × ℤ} (houter : outer.1 < outer.2)
    (h : ∀ span ∈ heldSpans candidates, Settled span outer) :
    ∀ span ∈ joined overlapping (sortedSpans (heldSpans candidates)), Settled span outer := by
  refine joined_all h fun a s hs ha hle hjoins => ?_
  have hspan := h s hs
  obtain ⟨item, -, hheld, rfl⟩ := mem_heldSpans.mp hs
  unfold overlapping at hjoins
  rw [decide_eq_true_eq] at hjoins
  unfold Settled at *
  dsimp only at *
  omega

theorem settled_of_joined {candidates : List Item}
    (h : ∀ span ∈ joined overlapping (sortedSpans (heldSpans candidates)), Settled span range) :
    ∀ span ∈ heldSpans candidates, Settled span range := by
  intro span hspan
  obtain ⟨t, ht, hlow, hhigh⟩ := joined_cover overlapping hspan
  have hsettled := h t ht
  unfold Settled at hsettled ⊢
  omega

/-- The range that is selected for a request. -/
def selectedRange (candidates : List Item) (first last : ℤ) : ℤ × ℤ :=
  (joined overlapping (sortedSpans (heldSpans candidates))).foldl expand (requested first last)

theorem selectTimeRange_eq (candidates : List Item) {first last : ℤ}
    (h : (requested first last).1 < (requested first last).2) :
    selectTimeRange candidates first last =
      (candidates.filter fun item =>
        (selectedRange candidates first last).1 ≤ item.start ∧
          item.start < (selectedRange candidates first last).2,
        selectedRange candidates first last) :=
  if_neg h.ne

theorem selectedRange_spec (candidates : List Item) {first last : ℤ}
    (h : (requested first last).1 < (requested first last).2) :
    (selectedRange candidates first last).1 ≤ (requested first last).1 ∧
    (requested first last).2 ≤ (selectedRange candidates first last).2 ∧
    Closed candidates (selectedRange candidates first last) ∧
    ∀ outer : ℤ × ℤ, outer.1 ≤ (requested first last).1 → (requested first last).2 ≤ outer.2 →
      Closed candidates outer →
      outer.1 ≤ (selectedRange candidates first last).1 ∧
        (selectedRange candidates first last).2 ≤ outer.2 := by
  obtain ⟨hlow, hhigh⟩ := foldl_expand_grows
    (joined overlapping (sortedSpans (heldSpans candidates))) (requested first last)
  have hlast : (selectedRange candidates first last).1 < (selectedRange candidates first last).2 :=
    hlow.trans_lt (h.trans_le hhigh)
  refine ⟨hlow, hhigh, ?_, fun outer houter₁ houter₂ hclosed => ?_⟩
  · rw [closed_iff_settled hlast]
    refine settled_of_joined fun span hspan => ?_
    exact @foldl_expand_settled _ _ (fun _ => False) (joined_holds candidates).2
      (fun _ hfalse => hfalse.elim) span (.inr hspan)
  · have houter : outer.1 < outer.2 := houter₁.trans_lt (h.trans_le houter₂)
    exact foldl_expand_least (settled_joined houter ((closed_iff_settled houter).mp hclosed)) h
      houter₁ houter₂

/-! ## Copying what was selected -/

theorem foldl_expand_nonneg {spans : List (ℤ × ℤ)} (hspans : ∀ span ∈ spans, 0 ≤ span.1)
    (hrange : 0 ≤ range.1) : 0 ≤ (spans.foldl expand range).1 := by
  induction spans generalizing range with
  | nil => exact hrange
  | cons span spans ih =>
    refine ih (fun s hs => hspans s (List.mem_cons_of_mem _ hs)) ?_
    unfold expand
    split
    · exact le_min hrange (hspans span List.mem_cons_self)
    · exact hrange

/-- The range never starts before zero when no item does. -/
theorem selectedRange_nonneg {candidates : List Item} (hstart : ∀ item ∈ candidates, 0 ≤ item.start)
    (first last : ℤ) : 0 ≤ (selectedRange candidates first last).1 := by
  refine foldl_expand_nonneg (joined_all (fun span hspan => ?_) fun a s _ ha _ _ => ha)
    (le_min (le_max_left _ _) (le_max_left _ _))
  obtain ⟨item, hitem, -, rfl⟩ := mem_heldSpans.mp hspan
  exact hstart item hitem

theorem mem_items_event {lists : TimelineLists} {e : EditableEvent} (he : e ∈ lists.events) :
    Item.event e ∈ lists.items := by
  unfold TimelineLists.items
  simp only [List.append_assoc]
  exact List.mem_append_left _ (List.mem_map_of_mem he)

/-- A selected item ends within a closed range. -/
theorem stop_le_of_closed {candidates : List Item} (hclosed : Closed candidates range) {item : Item}
    (hitem : item ∈ candidates) (hbefore : item.start < range.2) :
    item.stop ≤ range.2 := by
  by_cases hheld : item.start < item.stop
  · have hborder := (hclosed item hitem hheld).2
    omega
  · omega

/-- The selected range is the least closed one around the request; the items that start in it are
selected; copying them never fails and never takes a press without its release. -/
theorem select_time_range (candidates : List Item) (first last : ℤ)
    (h : (requested first last).1 < (requested first last).2) :
    let range := (selectTimeRange candidates first last).2
    range.1 ≤ (requested first last).1 ∧ (requested first last).2 ≤ range.2 ∧
    Closed candidates range ∧
    (∀ outer : ℤ × ℤ, outer.1 ≤ (requested first last).1 → (requested first last).2 ≤ outer.2 →
      Closed candidates outer → outer.1 ≤ range.1 ∧ range.2 ≤ outer.2) ∧
    (selectTimeRange candidates first last).1 =
      candidates.filter (fun item => range.1 ≤ item.start ∧ item.start < range.2) ∧
    ∀ lists : TimelineLists, lists.items = candidates → (∀ item ∈ candidates, 0 ≤ item.start) →
      let copied := subset lists (selectTimeRange candidates first last).1
      Fragment.capture lists (selectTimeRange candidates first last).1 (some range) =
        .ok ⟨(reconstructEvents copied).map (shiftEvent (-range.1)), max 1 (range.2 - range.1),
          true⟩ ∧
      ∀ e ∈ lists.events, e.pressTUs ≤ e.releaseTUs →
        (e ∈ copied.events ∧ range.1 ≤ e.pressTUs ∧ e.releaseTUs ≤ range.2) ∨
        (e ∉ copied.events ∧ (e.releaseTUs ≤ range.1 ∨ range.2 ≤ e.pressTUs)) := by
  obtain ⟨hlow, hhigh, hclosed, hleast⟩ := selectedRange_spec candidates h
  have hrange := hlow.trans_lt (h.trans_le hhigh)
  rw [selectTimeRange_eq candidates h]
  refine ⟨hlow, hhigh, hclosed, hleast, rfl, fun lists hitems hstart => ⟨?_, fun e he hheld => ?_⟩⟩
  · have hnonneg := selectedRange_nonneg hstart first last
    refine if_neg ?_
    rintro ⟨-, hnegative | hempty | ⟨item, hitem, houtside⟩⟩
    · exact absurd hnonneg (not_le.mpr hnegative)
    · exact absurd hrange (not_lt.mpr hempty)
    · obtain ⟨hcandidate, hin⟩ := List.mem_filter.mp hitem
      rw [decide_eq_true_eq] at hin
      have hstop := stop_le_of_closed hclosed hcandidate hin.2
      obtain hearly | hlate := houtside
      · exact absurd hin.1 (not_le.mpr hearly)
      · exact absurd hstop (not_le.mpr hlate)
  · have hitem : Item.event e ∈ candidates := hitems ▸ mem_items_event he
    have hselected : e ∈ (subset lists (candidates.filter fun item =>
        (selectedRange candidates first last).1 ≤ item.start ∧
          item.start < (selectedRange candidates first last).2)).events ↔
        (selectedRange candidates first last).1 ≤ e.pressTUs ∧
          e.pressTUs < (selectedRange candidates first last).2 := by
      unfold subset
      simp only [List.mem_filter, he, true_and, decide_eq_true_eq, hitem]
      rfl
    rw [hselected]
    by_cases hin : (selectedRange candidates first last).1 ≤ e.pressTUs ∧
        e.pressTUs < (selectedRange candidates first last).2
    · exact .inl ⟨hin, hin.1, stop_le_of_closed hclosed hitem hin.2⟩
    · refine .inr ⟨hin, ?_⟩
      dsimp only
      by_cases hheld' : e.pressTUs < e.releaseTUs
      · have hborders := hclosed _ hitem hheld'
        change ¬ (e.pressTUs < _ ∧ _ < e.releaseTUs) ∧ _ at hborders
        omega
      · omega

/- Two holds that overlap, and a request for a moment of the first. -/
def chainedHolds : TimelineLists :=
  { events := [⟨"keyboard", evKey, 30, 100, 500, 0, none, none, none, false, 20, 20⟩,
      ⟨"keyboard", evKey, 31, 400, 600, 0, none, none, none, false, 20, 20⟩] }

theorem select_time_range_chained :
    Closed chainedHolds.items (selectTimeRange chainedHolds.items 450 460).2 :=
  (select_time_range chainedHolds.items 450 460 (by decide)).2.2.1

end Keymasq.MacroEditor.Ranges
