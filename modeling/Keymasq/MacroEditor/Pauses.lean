import Keymasq.Foundation.Spans
import Keymasq.MacroEditor.Items
import Mathlib.Data.List.Chain

/-!
# Setting the pauses between items

The selected items are grouped into sections that overlap or touch. A new length for each gap
moves every section by one offset, so that nothing within it changes. Each item looks its
offset up by where it starts.
-/

namespace Keymasq.MacroEditor.Pauses
open Foundation Spans

def motion (selected : List Item) : List Item := selected.filter Item.isMotion

/- The spans of the items; all motion of the pointer is one span. -/
def spans (selected : List Item) : List (ℤ × ℤ) :=
  (selected.filter fun item => !item.isMotion).map (fun item => (item.start, item.stop)) ++
    if motion selected = [] then [] else [bounds (motion selected)]

def pauseSections (selected : List Item) : List (ℤ × ℤ) :=
  joined touching (sortedSpans (spans selected))

/- The loop of `set_pauses` and `limit_pauses` over the sections after the first one. -/
def offsetsFrom (newGap : ℤ → ℤ) (previousEnd delta : ℤ) : List (ℤ × ℤ) → List (ℤ × ℤ)
  | [] => []
  | s :: rest =>
    let delta := delta + (newGap (s.1 - previousEnd) - (s.1 - previousEnd))
    (s.1, delta) :: offsetsFrom newGap s.2 delta rest

/-- `anchors` and `offsets`, each anchor with its offset. -/
def offsetTable (newGap : ℤ → ℤ) : List (ℤ × ℤ) → List (ℤ × ℤ)
  | [] => []
  | p :: rest => (p.1, 0) :: offsetsFrom newGap p.2 0 rest

def bisectRight (anchors : List ℤ) (x : ℤ) : ℕ := (anchors.takeWhile (· ≤ x)).length

/- `offsets[bisect_right(anchors, x) - 1]`; the index before the first one is the last. -/
def offsetAt (table : List (ℤ × ℤ)) (x : ℤ) : ℤ :=
  match bisectRight (table.map Prod.fst) x with
  | 0 => (table.map Prod.snd).getLastD 0
  | n + 1 => (table.map Prod.snd).getD n 0

def retime (newGap : ℤ → ℤ) (selected : List Item) : List Item :=
  let sections := pauseSections selected
  if sections.length < 2 then selected
  else selected.map fun item => item.shift (offsetAt (offsetTable newGap sections) item.start)

def setGap (pauseUs _gap : ℤ) : ℤ := max 0 pauseUs

def setPauses (selected : List Item) (pauseUs : ℤ) : List Item :=
  retime (setGap pauseUs) selected

def limitGap (minUs : ℤ) (maxUs : Option ℤ) (gap : ℤ) : ℤ :=
  let minUs := max 0 minUs
  match maxUs with
  | none => max minUs gap
  | some maxUs => max minUs (min gap (max minUs maxUs))

def limitPauses (selected : List Item) (minUs : ℤ) (maxUs : Option ℤ) : List Item :=
  retime (limitGap minUs maxUs) selected

/-! ## The offset of a section -/

/- The offset as a function of the time, section by section. -/
def offsetFrom (newGap : ℤ → ℤ) (current : ℤ × ℤ) (delta : ℤ) : List (ℤ × ℤ) → ℤ → ℤ
  | [], _ => delta
  | q :: rest, x =>
    if x < q.1 then delta
    else offsetFrom newGap q (delta + (newGap (q.1 - current.2) - (q.1 - current.2))) rest x

variable {newGap : ℤ → ℤ} {current p s q : ℤ × ℤ} {delta : ℤ} {sections rest : List (ℤ × ℤ)}
  {selected : List Item} {item : Item}

/-- The sections in order: each lasts, and ends before the next one starts. -/
structure Apart (sections : List (ℤ × ℤ)) : Prop where
  lasts : ∀ p ∈ sections, p.1 ≤ p.2
  apart : sections.Pairwise fun p q => p.2 < q.1

theorem Apart.tail (h : Apart (p :: sections)) : Apart sections :=
  ⟨fun q hq => h.lasts q (List.mem_cons_of_mem _ hq), (List.pairwise_cons.mp h.apart).2⟩

theorem Apart.before (h : Apart (p :: sections)) (hq : q ∈ sections) : p.2 < q.1 :=
  (List.pairwise_cons.mp h.apart).1 q hq

theorem Apart.starts (h : Apart (p :: sections)) (hq : q ∈ sections) : p.1 < q.1 :=
  (h.lasts p List.mem_cons_self).trans_lt (h.before hq)

theorem bisectRight_of_le {anchor x : ℤ} (h : anchor ≤ x) (anchors : List ℤ) :
    bisectRight (anchor :: anchors) x = bisectRight anchors x + 1 := by
  unfold bisectRight
  rw [List.takeWhile_cons, if_pos (decide_eq_true h), List.length_cons]

theorem bisectRight_of_lt {anchor x : ℤ} (h : x < anchor) (anchors : List ℤ) :
    bisectRight (anchor :: anchors) x = 0 := by
  unfold bisectRight
  rw [List.takeWhile_cons, if_neg fun hle => not_le.mpr h (of_decide_eq_true hle)]
  rfl

/-- Looking an offset up in the table is walking along the sections. -/
theorem offsetAt_table (h : Apart (current :: sections)) {x : ℤ} (hx : current.1 ≤ x) :
    offsetAt ((current.1, delta) :: offsetsFrom newGap current.2 delta sections) x =
      offsetFrom newGap current delta sections x := by
  induction sections generalizing current delta with
  | nil =>
    unfold offsetAt
    simp only [offsetsFrom, List.map_cons, List.map_nil, bisectRight_of_le hx]
    rfl
  | cons q rest ih =>
    have hq := h.starts List.mem_cons_self
    unfold offsetFrom
    by_cases hbefore : x < q.1
    · rw [if_pos hbefore]
      unfold offsetAt
      simp only [offsetsFrom, List.map_cons, bisectRight_of_le hx, bisectRight_of_lt hbefore]
      rfl
    · have hle := not_lt.mp hbefore
      rw [if_neg hbefore, ← ih h.tail hle]
      -- the anchor of the current section is passed, the next one is too
      unfold offsetAt
      simp only [offsetsFrom, List.map_cons, bisectRight_of_le hx, bisectRight_of_le hle]
      rfl

theorem offsetFrom_of_lt {x : ℤ} (h : x < q.1) :
    offsetFrom newGap current delta (q :: sections) x = delta := if_pos h

theorem offsetFrom_of_le {x : ℤ} (h : q.1 ≤ x) :
    offsetFrom newGap current delta (q :: sections) x =
      offsetFrom newGap q (delta + (newGap (q.1 - current.2) - (q.1 - current.2))) sections x :=
  if_neg (not_lt.mpr h)

theorem offsetFrom_current (h : Apart (current :: sections)) {x : ℤ} (hx : x ≤ current.2) :
    offsetFrom newGap current delta sections x = delta := by
  cases sections with
  | nil => rfl
  | cons q rest => exact offsetFrom_of_lt (hx.trans_lt (h.before List.mem_cons_self))

/-- Within a section the offset is the same everywhere. -/
theorem offsetFrom_within (h : Apart (current :: sections)) (hp : p ∈ current :: sections) {x : ℤ}
    (hlow : p.1 ≤ x) (hhigh : x ≤ p.2) :
    offsetFrom newGap current delta sections x = offsetFrom newGap current delta sections p.1 := by
  induction sections generalizing current delta with
  | nil => rfl
  | cons q rest ih =>
    obtain rfl | hp := List.mem_cons.mp hp
    · rw [offsetFrom_current h hhigh, offsetFrom_current h (hlow.trans hhigh)]
    · have hq : q.1 ≤ p.1 := by
        obtain rfl | hp := List.mem_cons.mp hp
        · exact le_rfl
        · exact (h.tail.starts hp).le
      rw [offsetFrom_of_le (hq.trans hlow), offsetFrom_of_le hq]
      exact ih h.tail hp

/-- Between two sections that follow each other the gap has its new length. -/
theorem offsetFrom_gaps (h : Apart (current :: sections)) :
    (current :: sections).IsChain fun p q =>
      q.1 + offsetFrom newGap current delta sections q.1 -
          (p.2 + offsetFrom newGap current delta sections p.1) = newGap (q.1 - p.2) := by
  induction sections generalizing current delta with
  | nil => exact List.isChain_singleton _
  | cons q rest ih =>
    have hlasts := h.lasts current List.mem_cons_self
    refine List.isChain_cons_cons.mpr ⟨?_, ?_⟩
    · rw [offsetFrom_current h hlasts, offsetFrom_of_le le_rfl,
        offsetFrom_current h.tail (h.tail.lasts q List.mem_cons_self)]
      omega
    · have hrest := @ih q (delta + (newGap (q.1 - current.2) - (q.1 - current.2))) h.tail
      refine hrest.imp_of_mem_imp fun p r hp hr hgap => ?_
      have hfrom {u : ℤ × ℤ} (hu : u ∈ q :: rest) : q.1 ≤ u.1 := by
        obtain rfl | hu := List.mem_cons.mp hu
        · exact le_rfl
        · exact (h.tail.starts hu).le
      rw [offsetFrom_of_le (hfrom hp), offsetFrom_of_le (hfrom hr)]
      exact hgap

/-- No moment of a section is moved past a later one. -/
theorem offsetFrom_mono (hnonneg : ∀ gap, 0 ≤ newGap gap) (h : Apart (current :: sections))
    {x y : ℤ} (hx : ∃ p ∈ current :: sections, p.1 ≤ x ∧ x ≤ p.2) (hxy : x ≤ y) :
    x + offsetFrom newGap current delta sections x ≤
      y + offsetFrom newGap current delta sections y := by
  induction sections generalizing current delta x with
  | nil => exact Int.add_le_add_right hxy _
  | cons q rest ih =>
    obtain ⟨p, hp, hlow, hhigh⟩ := hx
    obtain rfl | hp := List.mem_cons.mp hp
    · rw [offsetFrom_current h hhigh]
      by_cases hbefore : y < q.1
      · rw [offsetFrom_of_lt hbefore]
        omega
      · have hq := not_lt.mp hbefore
        have hstart := @ih q (delta + (newGap (q.1 - p.2) - (q.1 - p.2))) h.tail q.1
          ⟨q, List.mem_cons_self, le_rfl, h.tail.lasts q List.mem_cons_self⟩ hq
        rw [offsetFrom_current h.tail (h.tail.lasts q List.mem_cons_self)] at hstart
        rw [offsetFrom_of_le hq]
        have hgap := hnonneg (q.1 - p.2)
        omega
    · have hq : q.1 ≤ x := by
        obtain rfl | hp := List.mem_cons.mp hp
        · exact hlow
        · exact (h.tail.starts hp).le.trans hlow
      rw [offsetFrom_of_le hq, offsetFrom_of_le (hq.trans hxy)]
      exact ih h.tail ⟨p, hp, hlow, hhigh⟩ hxy

/-! ## The same operation again -/

def shiftSpan (d : ℤ) (s : ℤ × ℤ) : ℤ × ℤ := (s.1 + d, s.2 + d)

/- The spans behind the current one, each moved by what the gaps before it change. -/
def retimeFrom (newGap : ℤ → ℤ) (current : ℤ × ℤ) (delta : ℤ) : List (ℤ × ℤ) → List (ℤ × ℤ)
  | [] => []
  | s :: rest =>
    if s.1 ≤ current.2 then
      shiftSpan delta s :: retimeFrom newGap (current.1, max current.2 s.2) delta rest
    else
      let delta := delta + (newGap (s.1 - current.2) - (s.1 - current.2))
      shiftSpan delta s :: retimeFrom newGap s delta rest

theorem retimeFrom_of_le (h : s.1 ≤ current.2) (rest : List (ℤ × ℤ)) :
    retimeFrom newGap current delta (s :: rest) =
      shiftSpan delta s :: retimeFrom newGap (current.1, max current.2 s.2) delta rest :=
  if_pos h

theorem retimeFrom_of_lt (h : current.2 < s.1) (rest : List (ℤ × ℤ)) :
    retimeFrom newGap current delta (s :: rest) =
      shiftSpan (delta + (newGap (s.1 - current.2) - (s.1 - current.2))) s ::
        retimeFrom newGap s (delta + (newGap (s.1 - current.2) - (s.1 - current.2))) rest :=
  if_neg (not_le.mpr h)

/-- Each span is moved by the offset of where it starts. -/
theorem retimeFrom_eq_map (hstarts : (current :: rest).Pairwise fun s t => s.1 ≤ t.1) {e : ℤ}
    {tail : List (ℤ × ℤ)} (hjoined : joinFrom touching current rest = (current.1, e) :: tail)
    (hapart : Apart ((current.1, e) :: tail)) :
    retimeFrom newGap current delta rest =
      rest.map fun s => shiftSpan (offsetFrom newGap (current.1, e) delta tail s.1) s := by
  induction rest generalizing current delta e tail with
  | nil => rfl
  | cons s rest ih =>
    obtain ⟨hhead, hstarts'⟩ := List.pairwise_cons.mp hstarts
    by_cases hle : s.1 ≤ current.2
    · have hjoins : touching s.1 current.2 = true := decide_eq_true hle
      rw [joinFrom_of_joins hjoins] at hjoined
      obtain ⟨e', tail', hhead', hend⟩ := joinFrom_head touching (current.1, max current.2 s.2) rest
      have hends : max current.2 s.2 ≤ e := by
        rw [hhead', List.cons.injEq, Prod.mk.injEq] at hjoined
        rw [← hjoined.1.2]
        exact hend
      have hs : s.1 ≤ e := hle.trans ((le_max_left _ _).trans hends)
      rw [retimeFrom_of_le hle, List.map_cons, offsetFrom_current hapart hs]
      congr 1
      have hgrown : ((current.1, max current.2 s.2) :: rest).Pairwise fun s t => s.1 ≤ t.1 :=
        List.pairwise_cons.mpr ⟨fun u hu => hhead u (List.mem_cons_of_mem _ hu),
          (List.pairwise_cons.mp hstarts').2⟩
      exact ih hgrown hjoined hapart
    · have hlt := not_le.mp hle
      have hjoins : ¬ touching s.1 current.2 = true := fun hjoins => hle (of_decide_eq_true hjoins)
      rw [joinFrom_of_apart hjoins] at hjoined
      obtain ⟨e', tail', hhead', -⟩ := joinFrom_head touching s rest
      obtain ⟨hcurrent, htail⟩ := List.cons.inj hjoined
      have he : e = current.2 := (congrArg Prod.snd hcurrent).symm
      subst he
      rw [hhead'] at htail
      subst htail
      have hfrom {u : ℤ × ℤ} (hu : u ∈ s :: rest) : s.1 ≤ u.1 := by
        obtain rfl | hu := List.mem_cons.mp hu
        · exact le_rfl
        · exact (List.pairwise_cons.mp hstarts').1 u hu
      have hoffset {u : ℤ × ℤ} (hu : u ∈ s :: rest) :
          offsetFrom newGap (current.1, current.2) delta ((s.1, e') :: tail') u.1 =
            offsetFrom newGap (s.1, e') (delta + (newGap (s.1 - current.2) - (s.1 - current.2)))
              tail' u.1 := offsetFrom_of_le (q := (s.1, e')) (hfrom hu)
      have hself := hapart.tail.lasts _ List.mem_cons_self
      rw [retimeFrom_of_lt hlt, List.map_cons, hoffset List.mem_cons_self,
        offsetFrom_current hapart.tail hself, ih hstarts' hhead' hapart.tail]
      congr 1
      exact List.map_congr_left fun u hu => by rw [hoffset (List.mem_cons_of_mem _ hu)]

/-- Once the gaps have their new lengths, nothing moves again. -/
theorem retimeFrom_retimeFrom (hnonneg : ∀ gap, 0 ≤ newGap gap)
    (hagain : ∀ gap, 0 < newGap gap → newGap (newGap gap) = newGap gap)
    (hlasts : ∀ s ∈ rest, s.1 ≤ s.2) {current' : ℤ × ℤ}
    (hcurrent : current'.2 = current.2 + delta) :
    retimeFrom newGap current' 0 (retimeFrom newGap current delta rest) =
      retimeFrom newGap current delta rest := by
  have hzero (s : ℤ × ℤ) : shiftSpan 0 s = s := by
    unfold shiftSpan
    rw [Int.add_zero, Int.add_zero]
  induction rest generalizing current delta current' with
  | nil => rfl
  | cons s rest ih =>
    have hs := hlasts s List.mem_cons_self
    have hrest : ∀ u ∈ rest, u.1 ≤ u.2 := fun u hu => hlasts u (List.mem_cons_of_mem _ hu)
    by_cases hle : s.1 ≤ current.2
    · have hle' : (shiftSpan delta s).1 ≤ current'.2 := by
        rw [hcurrent]
        exact Int.add_le_add_right hle delta
      rw [retimeFrom_of_le hle, retimeFrom_of_le hle', hzero]
      congr 1
      refine ih hrest ?_
      unfold shiftSpan
      dsimp only
      rw [hcurrent]
      omega
    · have hlt := not_le.mp hle
      have hgap := hnonneg (s.1 - current.2)
      rw [retimeFrom_of_lt hlt]
      generalize hdelta : delta + (newGap (s.1 - current.2) - (s.1 - current.2)) = delta'
      obtain hpositive | hclosed := hgap.lt_or_eq
      · -- the gap stays open, and has the length that the operation gives it
        have hlt' : current'.2 < (shiftSpan delta' s).1 := by
          unfold shiftSpan
          dsimp only
          omega
        have hlength : (shiftSpan delta' s).1 - current'.2 = newGap (s.1 - current.2) := by
          unfold shiftSpan
          dsimp only
          omega
        rw [retimeFrom_of_lt hlt', hlength, hagain _ hpositive, Int.sub_self, Int.add_zero, hzero]
        congr 1
        exact ih hrest rfl
      · -- the sections touch now and become one
        have hle' : (shiftSpan delta' s).1 ≤ current'.2 := by
          unfold shiftSpan
          dsimp only
          omega
        rw [retimeFrom_of_le hle', hzero]
        congr 1
        refine ih hrest ?_
        unfold shiftSpan
        dsimp only
        omega

/-! ## The sections of the selected items -/

/-- The span an item counts as: its own, or that of all motion. -/
def spanOf (selected : List Item) (item : Item) : ℤ × ℤ :=
  if item.isMotion = true then bounds (motion selected) else (item.start, item.stop)

/-- No selected item ends before it starts. -/
def Lasting (selected : List Item) : Prop := ∀ item ∈ selected, item.start ≤ item.stop

theorem motion_ne_nil (hitem : item ∈ selected) (hmotion : item.isMotion = true) :
    motion selected ≠ [] :=
  List.ne_nil_of_mem (List.mem_filter.mpr ⟨hitem, hmotion⟩)

theorem mem_spans : s ∈ spans selected ↔ ∃ item ∈ selected, spanOf selected item = s := by
  unfold spans
  rw [List.mem_append, List.mem_map]
  constructor
  · rintro (⟨item, hitem, rfl⟩ | hmotion)
    · obtain ⟨hmem, hkind⟩ := List.mem_filter.mp hitem
      rw [Bool.not_eq_true'] at hkind
      exact ⟨item, hmem, if_neg (Bool.eq_false_iff.mp hkind)⟩
    · split at hmotion
      · cases hmotion
      case isFalse hne =>
        obtain ⟨item, hitem⟩ := List.exists_mem_of_ne_nil _ hne
        obtain ⟨hmem, hkind⟩ := List.mem_filter.mp hitem
        exact ⟨item, hmem, (if_pos hkind).trans (List.mem_singleton.mp hmotion).symm⟩
  · rintro ⟨item, hitem, rfl⟩
    unfold spanOf
    by_cases hkind : item.isMotion = true
    · rw [if_pos hkind, if_neg (motion_ne_nil hitem hkind)]
      exact .inr (List.mem_singleton_self _)
    · rw [if_neg hkind]
      exact .inl ⟨item, List.mem_filter.mpr ⟨hitem, by simp [hkind]⟩, rfl⟩

/-- The span of an item holds the item. -/
theorem within_spanOf (hitem : item ∈ selected) :
    Within (item.start, item.stop) (spanOf selected item) := by
  unfold spanOf
  split
  case isTrue hkind =>
    have hmem : item ∈ motion selected := List.mem_filter.mpr ⟨hitem, hkind⟩
    exact ⟨(bounds_first (motion_ne_nil hitem hkind)).2 item hmem,
      (bounds_last (motion_ne_nil hitem hkind)).2 item hmem⟩
  · exact ⟨le_rfl, le_rfl⟩

theorem spans_last (hlasting : Lasting selected) : ∀ s ∈ spans selected, s.1 ≤ s.2 := by
  intro s hs
  obtain ⟨item, hitem, rfl⟩ := mem_spans.mp hs
  have hwithin := within_spanOf hitem
  exact hwithin.1.trans ((hlasting item hitem).trans hwithin.2)

theorem apart_pauseSections (hlasting : Lasting selected) : Apart (pauseSections selected) :=
  ⟨joined_all (spans_last hlasting) fun _ _ _ ha _ _ => ha.trans (le_max_left _ _),
    joined_touching_apart _⟩

theorem exists_section (hitem : item ∈ selected) :
    ∃ p ∈ pauseSections selected, Within (spanOf selected item) p :=
  joined_cover touching (mem_spans.mpr ⟨item, hitem, rfl⟩)

/-- Two items are in one section if a chain of spans that overlap or touch leads from one to the
other. -/
def SameSection (selected : List Item) (a b : Item) : Prop :=
  Relation.EqvGen (Touch (spans selected)) (spanOf selected a) (spanOf selected b)

/-- The sections are the maximal groups, each as long as its items. -/
structure Sectioned (selected : List Item) (sections : List (ℤ × ℤ)) : Prop where
  apart : sections.Pairwise fun p q => p.2 < q.1
  covered : ∀ item ∈ selected, ∃ p ∈ sections, Within (item.start, item.stop) p
  same_iff : ∀ a ∈ selected, ∀ b ∈ selected, SameSection selected a b ↔
    ∃ p ∈ sections, Within (spanOf selected a) p ∧ Within (spanOf selected b) p
  tight : ∀ p ∈ sections, (∃ a ∈ selected, (spanOf selected a).1 = p.1) ∧
    ∃ b ∈ selected, (spanOf selected b).2 = p.2

theorem sectioned_pauseSections (hlasting : Lasting selected) :
    Sectioned selected (pauseSections selected) where
  apart := (apart_pauseSections hlasting).apart
  covered item hitem := by
    obtain ⟨p, hp, hwithin⟩ := exists_section hitem
    exact ⟨p, hp, (within_spanOf hitem).trans hwithin⟩
  same_iff a ha b hb := by
    constructor
    · intro hsame
      obtain ⟨p, hp, hwithin⟩ := exists_section ha
      exact ⟨p, hp, hwithin, (within_of_linked hsame hp).mp hwithin⟩
    · rintro ⟨p, hp, hpa, hpb⟩
      obtain ⟨base, -, -, hlinked⟩ := joined_touching_linked (spans_last hlasting) p hp
      have hfrom {item : Item} (hitem : item ∈ selected)
          (hwithin : Within (spanOf selected item) p) :
          Relation.EqvGen (Touch (spans selected)) base (spanOf selected item) := by
        have hmem := mem_spans.mpr ⟨item, hitem, rfl⟩
        exact hlinked _ hmem hwithin.1 ((spans_last hlasting _ hmem).trans hwithin.2)
      exact ((hfrom ha hpa).symm _ _).trans _ _ _ (hfrom hb hpb)
  tight := by
    refine joined_all (fun s hs => ?_) fun p s hs hp _ _ => ⟨hp.1, ?_⟩
    · obtain ⟨item, hitem, rfl⟩ := mem_spans.mp hs
      exact ⟨⟨item, hitem, rfl⟩, item, hitem, rfl⟩
    · obtain ⟨item, hitem, rfl⟩ := mem_spans.mp hs
      obtain hmax | hmax := max_choice p.2 (spanOf selected item).2
      · rw [hmax]
        exact hp.2
      · exact ⟨item, hitem, hmax.symm⟩

/-! ## What the operation does -/

/-- The offset of what starts at a time. -/
def offsetOf (newGap : ℤ → ℤ) (selected : List Item) (x : ℤ) : ℤ :=
  offsetAt (offsetTable newGap (pauseSections selected)) x

/-- With fewer than two sections all offsets are zero. -/
theorem retime_eq_map (newGap : ℤ → ℤ) (selected : List Item) :
    retime newGap selected =
      selected.map fun item => item.shift (offsetOf newGap selected item.start) := by
  unfold retime
  dsimp only
  split
  case isFalse => rfl
  case isTrue hshort =>
    have hzero (x : ℤ) : offsetOf newGap selected x = 0 := by
      unfold offsetOf offsetAt
      cases hsections : pauseSections selected with
      | nil => rfl
      | cons p rest =>
        rw [hsections, List.length_cons] at hshort
        have hnil : rest = [] := List.length_eq_zero_iff.mp (by omega)
        subst hnil
        simp only [offsetTable, offsetsFrom, List.map_cons, List.map_nil]
        cases bisectRight [p.1] x with
        | zero => rfl
        | succ n => cases n <;> rfl
    symm
    calc selected.map (fun item => item.shift (offsetOf newGap selected item.start))
        = selected.map id := List.map_congr_left fun item _ => by
          rw [hzero, Item.shift_zero]
          rfl
      _ = selected := List.map_id _

/-- Behind the start of the first section the table is the walk along the sections. -/
theorem offsetOf_eq (hlasting : Lasting selected) (hsections : pauseSections selected = p :: rest)
    {x : ℤ} (hx : p.1 ≤ x) :
    offsetOf newGap selected x = offsetFrom newGap p 0 rest x := by
  have hapart := apart_pauseSections hlasting
  rw [hsections] at hapart
  unfold offsetOf
  rw [hsections]
  exact offsetAt_table hapart hx

theorem first_le (h : Apart (p :: rest)) (hq : q ∈ p :: rest) : p.1 ≤ q.1 := by
  obtain rfl | hq := List.mem_cons.mp hq
  · exact le_rfl
  · exact (h.starts hq).le

theorem offsetOf_within (hlasting : Lasting selected) (hp : p ∈ pauseSections selected) {x : ℤ}
    (hlow : p.1 ≤ x) (hhigh : x ≤ p.2) :
    offsetOf newGap selected x = offsetOf newGap selected p.1 := by
  have hapart := apart_pauseSections hlasting
  cases hsections : pauseSections selected with
  | nil =>
    rw [hsections] at hp
    cases hp
  | cons q rest =>
    rw [hsections] at hp hapart
    have hq := first_le hapart hp
    rw [offsetOf_eq hlasting hsections (hq.trans hlow), offsetOf_eq hlasting hsections hq]
    exact offsetFrom_within hapart hp hlow hhigh

theorem offsetOf_mono (hnonneg : ∀ gap, 0 ≤ newGap gap) (hlasting : Lasting selected)
    (hp : p ∈ pauseSections selected) {x y : ℤ} (hlow : p.1 ≤ x) (hhigh : x ≤ p.2) (hxy : x ≤ y) :
    x + offsetOf newGap selected x ≤ y + offsetOf newGap selected y := by
  have hapart := apart_pauseSections hlasting
  cases hsections : pauseSections selected with
  | nil =>
    rw [hsections] at hp
    cases hp
  | cons q rest =>
    rw [hsections] at hp hapart
    have hq := (first_le hapart hp).trans hlow
    rw [offsetOf_eq hlasting hsections hq, offsetOf_eq hlasting hsections (hq.trans hxy)]
    exact offsetFrom_mono hnonneg hapart ⟨p, hp, hlow, hhigh⟩ hxy

/-- A span in its section, with the offset of the section. -/
theorem section_of_span (hlasting : Lasting selected) (newGap : ℤ → ℤ) (hs : s ∈ spans selected) :
    ∃ p ∈ pauseSections selected, p.1 ≤ s.1 ∧ s.2 ≤ p.2 ∧
      offsetOf newGap selected s.1 = offsetOf newGap selected p.1 := by
  obtain ⟨p, hp, hlow, hhigh⟩ := joined_cover touching hs
  exact ⟨p, hp, hlow, hhigh, offsetOf_within hlasting hp hlow
    ((spans_last hlasting s hs).trans hhigh)⟩

/-- The spans stay in order, first by where they start and then by where they end. -/
theorem moved_le (hnonneg : ∀ gap, 0 ≤ newGap gap) (hlasting : Lasting selected) {t : ℤ × ℤ}
    (hs : s ∈ spans selected) (ht : t ∈ spans selected) (hle : toLex s ≤ toLex t) :
    toLex (shiftSpan (offsetOf newGap selected s.1) s) ≤
      toLex (shiftSpan (offsetOf newGap selected t.1) t) := by
  obtain ⟨hstart, hstop⟩ := Prod.Lex.toLex_le_toLex'.mp hle
  obtain ⟨p, hp, hplow, hphigh, hoffset⟩ := section_of_span hlasting newGap hs
  obtain ⟨q, hq, hqlow, hqhigh, hoffset'⟩ := section_of_span hlasting newGap ht
  have hs' := spans_last hlasting s hs
  have ht' := spans_last hlasting t ht
  have hmono := offsetOf_mono hnonneg hlasting hp hplow (hs'.trans hphigh) hstart
  refine Prod.Lex.toLex_le_toLex'.mpr ⟨hmono, fun heq => ?_⟩
  unfold shiftSpan at heq ⊢
  dsimp only at heq ⊢
  by_cases hsame : p = q
  · subst hsame
    have hstarts : s.1 = t.1 := by omega
    have hstops := hstop hstarts
    omega
  · -- the section of the first has ended where that of the second begins
    have happart := apart_pauseSections hlasting
    obtain hbefore | hafter := apart_of_ne happart.apart hp hq hsame
    · have hends := offsetOf_mono hnonneg hlasting hp (happart.lasts p hp) le_rfl
        (hbefore.le.trans hqlow)
      rw [offsetOf_within hlasting hp (happart.lasts p hp) le_rfl] at hends
      omega
    · omega

/-- An item has the offset of the span it counts as. -/
theorem offsetOf_spanOf (hlasting : Lasting selected) (newGap : ℤ → ℤ) (hitem : item ∈ selected) :
    offsetOf newGap selected item.start = offsetOf newGap selected (spanOf selected item).1 := by
  obtain ⟨p, hp, hlow, hhigh, hoffset⟩ :=
    section_of_span hlasting newGap (mem_spans.mpr ⟨item, hitem, rfl⟩)
  have hwithin := within_spanOf hitem
  rw [hoffset]
  exact offsetOf_within hlasting hp (hlow.trans hwithin.1)
    ((hlasting item hitem).trans (hwithin.2.trans hhigh))

theorem lasting_retime (newGap : ℤ → ℤ) (hlasting : Lasting selected) :
    Lasting (retime newGap selected) := by
  rw [retime_eq_map]
  intro item hitem
  obtain ⟨before, hbefore, rfl⟩ := List.mem_map.mp hitem
  rw [Item.start_shift, Item.stop_shift]
  exact Int.add_le_add_right (hlasting before hbefore) _

/-- All motion is moved by the same offset. -/
theorem motion_retime (newGap : ℤ → ℤ) (hlasting : Lasting selected) :
    motion (retime newGap selected) = (motion selected).map fun item =>
      item.shift (offsetOf newGap selected (bounds (motion selected)).1) := by
  unfold motion
  rw [retime_eq_map, List.filter_map]
  have hkind : (Item.isMotion ∘ fun item => item.shift (offsetOf newGap selected item.start)) =
      Item.isMotion := funext fun item => Item.isMotion_shift item _
  rw [hkind]
  refine List.map_congr_left fun item hitem => ?_
  obtain ⟨hmem, hmotion⟩ := List.mem_filter.mp hitem
  rw [offsetOf_spanOf hlasting newGap hmem]
  unfold spanOf
  rw [if_pos hmotion]
  rfl

/-- The spans move as the items do. -/
theorem spans_retime (newGap : ℤ → ℤ) (hlasting : Lasting selected) :
    spans (retime newGap selected) =
      (spans selected).map fun s => shiftSpan (offsetOf newGap selected s.1) s := by
  have hothers : ((retime newGap selected).filter fun item => !item.isMotion).map
        (fun item => (item.start, item.stop)) =
      ((selected.filter fun item => !item.isMotion).map fun item => (item.start, item.stop)).map
        fun s => shiftSpan (offsetOf newGap selected s.1) s := by
    have hkind : ((fun item => !Item.isMotion item) ∘ fun item : Item =>
        item.shift (offsetOf newGap selected item.start)) = fun item => !Item.isMotion item :=
      funext fun item => congrArg (!·) (Item.isMotion_shift item _)
    rw [retime_eq_map, List.filter_map, hkind, List.map_map, List.map_map]
    refine List.map_congr_left fun item _ => ?_
    exact Prod.ext (Item.start_shift item _) (Item.stop_shift item _)
  unfold spans
  rw [hothers, List.map_append, motion_retime newGap hlasting]
  congr 1
  by_cases hnone : motion selected = []
  · rw [hnone]
    rfl
  · rw [if_neg hnone, if_neg fun hnil => hnone (List.map_eq_nil_iff.mp hnil), bounds_shift hnone]
    rfl

theorem sortedSpans_retime (hnonneg : ∀ gap, 0 ≤ newGap gap) (hlasting : Lasting selected) :
    sortedSpans (spans (retime newGap selected)) =
      (sortedSpans (spans selected)).map fun s => shiftSpan (offsetOf newGap selected s.1) s := by
  have hperm : (spans (retime newGap selected)).Perm
      ((sortedSpans (spans selected)).map fun s => shiftSpan (offsetOf newGap selected s.1) s) := by
    rw [spans_retime newGap hlasting]
    exact (sortedSpans_perm _).symm.map _
  rw [sortedSpans_eq_of_perm hperm]
  refine sortedSpans_eq_self (List.pairwise_map.mpr ?_)
  refine (sortedSpans_pairwise (spans selected)).imp_of_mem fun {s t} hs ht hle => ?_
  exact moved_le hnonneg hlasting (mem_sortedSpans.mp hs) (mem_sortedSpans.mp ht) hle

/-- The spans in order, moved: the first one stays, the others are walked along. -/
theorem moved_eq_retimeFrom (hlasting : Lasting selected) (newGap : ℤ → ℤ)
    (hsorted : sortedSpans (spans selected) = s :: rest) :
    offsetOf newGap selected s.1 = 0 ∧
      rest.map (fun t => shiftSpan (offsetOf newGap selected t.1) t) =
        retimeFrom newGap s 0 rest := by
  have hstarts := sortedSpans_starts (spans selected)
  have happart := apart_pauseSections hlasting
  obtain ⟨e, tail, hjoined, -⟩ := joinFrom_head touching s rest
  have hsections : pauseSections selected = (s.1, e) :: tail := by
    unfold pauseSections
    rw [hsorted]
    exact hjoined
  rw [hsorted] at hstarts
  rw [hsections] at happart
  have hfirst := happart.lasts _ List.mem_cons_self
  constructor
  · rw [offsetOf_eq hlasting hsections le_rfl]
    exact offsetFrom_current happart hfirst
  · rw [retimeFrom_eq_map hstarts hjoined happart]
    refine List.map_congr_left fun t ht => ?_
    rw [offsetOf_eq hlasting hsections ((List.pairwise_cons.mp hstarts).1 t ht)]

theorem shiftSpan_eq_self {d : ℤ} (h : shiftSpan d s = s) : d = 0 := by
  have hstart := congrArg Prod.fst h
  unfold shiftSpan at hstart
  dsimp only at hstart
  omega

/-- The second time every offset is zero. -/
theorem offsetOf_retime (hnonneg : ∀ gap, 0 ≤ newGap gap)
    (hagain : ∀ gap, 0 < newGap gap → newGap (newGap gap) = newGap gap)
    (hlasting : Lasting selected) :
    ∀ s ∈ spans (retime newGap selected), offsetOf newGap (retime newGap selected) s.1 = 0 := by
  intro s hs
  have hmem := mem_sortedSpans.mpr hs
  have hlasts : ∀ t ∈ sortedSpans (spans selected), t.1 ≤ t.2 :=
    fun t ht => spans_last hlasting t (mem_sortedSpans.mp ht)
  have hsorted' := sortedSpans_retime hnonneg hlasting
  cases hsorted : sortedSpans (spans selected) with
  | nil =>
    rw [hsorted', hsorted] at hmem
    cases hmem
  | cons u rest =>
    obtain ⟨hzero, hrest⟩ := moved_eq_retimeFrom hlasting newGap hsorted
    have hkept : shiftSpan 0 u = u := Prod.ext (Int.add_zero _) (Int.add_zero _)
    rw [hsorted, List.map_cons, hzero, hkept, hrest] at hsorted'
    rw [hsorted'] at hmem
    obtain ⟨hzero', hrest'⟩ := moved_eq_retimeFrom (lasting_retime newGap hlasting) newGap hsorted'
    rw [hsorted] at hlasts
    rw [retimeFrom_retimeFrom hnonneg hagain (fun t ht => hlasts t (List.mem_cons_of_mem _ ht))
      (Int.add_zero _).symm] at hrest'
    obtain rfl | hmem := List.mem_cons.mp hmem
    · exact hzero'
    · have hself := List.map_inj_left.mp (hrest'.trans (List.map_id _).symm) s hmem
      exact shiftSpan_eq_self hself

theorem retime_retime (hnonneg : ∀ gap, 0 ≤ newGap gap)
    (hagain : ∀ gap, 0 < newGap gap → newGap (newGap gap) = newGap gap)
    (hlasting : Lasting selected) :
    retime newGap (retime newGap selected) = retime newGap selected := by
  rw [retime_eq_map newGap (retime newGap selected)]
  refine (List.map_congr_left fun item hitem => ?_).trans (List.map_id _)
  rw [offsetOf_spanOf (lasting_retime newGap hlasting) newGap hitem,
    offsetOf_retime hnonneg hagain hlasting _ (mem_spans.mpr ⟨item, hitem, rfl⟩), Item.shift_zero]
  rfl

/-! ## The two operations -/

/-- Every section is moved as a whole and the first one not at all; the gaps get their new
lengths, which they keep, and no two items change their order. -/
structure Retimed (newGap : ℤ → ℤ) (selected after : List Item) (offset : ℤ × ℤ → ℤ) : Prop where
  items : List.Forall₂ (fun item item' => ∃ p ∈ pauseSections selected,
    Within (item.start, item.stop) p ∧ item' = item.shift (offset p)) selected after
  first : ∀ p ∈ (pauseSections selected).head?, offset p = 0
  gaps : (pauseSections selected).IsChain fun p q =>
    (q.1 + offset q) - (p.2 + offset p) = newGap (q.1 - p.2)
  kept : (pauseSections after).IsChain fun p q => q.1 - p.2 = newGap (q.1 - p.2)
  order : ∀ p ∈ pauseSections selected, ∀ q ∈ pauseSections selected, ∀ a ∈ selected,
    ∀ b ∈ selected, Within (a.start, a.stop) p → Within (b.start, b.stop) q →
      a.start ≤ b.start → a.start + offset p ≤ b.start + offset q

/-- The gaps between the sections with their new lengths. -/
theorem gaps_pauseSections (newGap : ℤ → ℤ) (hlasting : Lasting selected) :
    (pauseSections selected).IsChain fun p q =>
      (q.1 + offsetOf newGap selected q.1) - (p.2 + offsetOf newGap selected p.1) =
        newGap (q.1 - p.2) := by
  have happart := apart_pauseSections hlasting
  cases hsections : pauseSections selected with
  | nil => exact List.isChain_nil
  | cons p rest =>
    rw [hsections] at happart
    refine (@offsetFrom_gaps newGap _ 0 _ happart).imp_of_mem_imp ?_
    intro q r hq hr hgap
    rw [offsetOf_eq hlasting hsections (first_le happart hq),
      offsetOf_eq hlasting hsections (first_le happart hr)]
    exact hgap

theorem retimed (hnonneg : ∀ gap, 0 ≤ newGap gap)
    (hagain : ∀ gap, 0 < newGap gap → newGap (newGap gap) = newGap gap)
    (hlasting : Lasting selected) :
    Retimed newGap selected (retime newGap selected) fun p => offsetOf newGap selected p.1 where
  items := by
    rw [retime_eq_map, List.forall₂_map_right_iff, List.forall₂_same]
    intro item hitem
    obtain ⟨p, hp, hwithin⟩ := exists_section hitem
    have hown := (within_spanOf hitem).trans hwithin
    refine ⟨p, hp, hown, ?_⟩
    rw [offsetOf_within hlasting hp hown.1 ((hlasting item hitem).trans hown.2)]
  first := by
    intro p hp
    cases hsections : pauseSections selected with
    | nil =>
      rw [hsections] at hp
      cases hp
    | cons q rest =>
      rw [hsections, List.head?_cons, Option.mem_some_iff] at hp
      subst hp
      have happart := apart_pauseSections hlasting
      rw [hsections] at happart
      rw [offsetOf_eq hlasting hsections le_rfl]
      exact offsetFrom_current happart (happart.lasts _ List.mem_cons_self)
  gaps := gaps_pauseSections newGap hlasting
  kept := by
    have hlasting' := lasting_retime newGap hlasting
    refine (gaps_pauseSections newGap hlasting').imp_of_mem_imp fun p q hp hq hgap => ?_
    have hzero {r : ℤ × ℤ} (hr : r ∈ pauseSections (retime newGap selected)) :
        offsetOf newGap (retime newGap selected) r.1 = 0 := by
      obtain ⟨s, hs, hstart, -⟩ := joined_touching_linked (spans_last hlasting') r hr
      rw [← hstart]
      exact offsetOf_retime hnonneg hagain hlasting s hs
    rw [hzero hp, hzero hq, Int.add_zero, Int.add_zero] at hgap
    exact hgap
  order := by
    intro p hp q hq a ha b hb hap hbq hle
    have hmono := offsetOf_mono hnonneg hlasting hp hap.1 ((hlasting a ha).trans hap.2) hle
    rw [offsetOf_within hlasting hp hap.1 ((hlasting a ha).trans hap.2),
      offsetOf_within hlasting hq hbq.1 ((hlasting b hb).trans hbq.2)] at hmono
    exact hmono

theorem setGap_again (pauseUs gap : ℤ) :
    0 ≤ setGap pauseUs gap ∧ setGap pauseUs (setGap pauseUs gap) = setGap pauseUs gap :=
  ⟨le_max_left _ _, rfl⟩

/- A gap within the limits; the lower one decides when they exclude each other. -/
def clamped (minUs : ℤ) (maxUs : Option ℤ) (gap : ℤ) : ℤ :=
  max (max 0 minUs) (maxUs.elim gap (min gap))

theorem limitGap_eq_clamped (minUs : ℤ) (maxUs : Option ℤ) :
    limitGap minUs maxUs = clamped minUs maxUs := by
  funext gap
  unfold limitGap clamped
  cases maxUs with
  | none => rfl
  | some maxUs =>
    dsimp only [Option.elim_some]
    omega

theorem clamped_again (minUs : ℤ) (maxUs : Option ℤ) (gap : ℤ) :
    0 ≤ clamped minUs maxUs gap ∧
      clamped minUs maxUs (clamped minUs maxUs gap) = clamped minUs maxUs gap := by
  unfold clamped
  cases maxUs with
  | none =>
    dsimp only [Option.elim_none]
    omega
  | some maxUs =>
    dsimp only [Option.elim_some]
    omega

/-- Both operations move whole sections, give every gap its length, and do nothing the second
time. -/
structure Exact (selected : List Item) (pauseUs minUs : ℤ) (maxUs : Option ℤ) : Prop where
  sections : Sectioned selected (pauseSections selected)
  set : ∃ offset, Retimed (fun _ => max 0 pauseUs) selected (setPauses selected pauseUs) offset
  setTwice : setPauses (setPauses selected pauseUs) pauseUs = setPauses selected pauseUs
  limited :
    ∃ offset, Retimed (clamped minUs maxUs) selected (limitPauses selected minUs maxUs) offset
  limitedTwice : limitPauses (limitPauses selected minUs maxUs) minUs maxUs =
    limitPauses selected minUs maxUs

/-- Retiming is exact where no item ends before it starts. -/
theorem pauses_exact (hlasting : Lasting selected) (pauseUs minUs : ℤ) (maxUs : Option ℤ) :
    Exact selected pauseUs minUs maxUs := by
  have hset (gap : ℤ) := setGap_again pauseUs gap
  have hclamped (gap : ℤ) := clamped_again minUs maxUs gap
  have hsetTwice : setPauses (setPauses selected pauseUs) pauseUs = setPauses selected pauseUs :=
    retime_retime (fun gap => (hset gap).1) (fun gap _ => (hset gap).2) hlasting
  have hlimitTwice : limitPauses (limitPauses selected minUs maxUs) minUs maxUs =
      limitPauses selected minUs maxUs := by
    unfold limitPauses
    rw [limitGap_eq_clamped]
    exact retime_retime (fun gap => (hclamped gap).1) (fun gap _ => (hclamped gap).2) hlasting
  refine ⟨sectioned_pauseSections hlasting, ?_, hsetTwice, ?_, hlimitTwice⟩
  · exact ⟨_, @retimed (setGap pauseUs) _ (fun gap => (hset gap).1)
      (fun gap _ => (hset gap).2) hlasting⟩
  · unfold limitPauses
    rw [limitGap_eq_clamped]
    exact ⟨_, retimed (fun gap => (hclamped gap).1) (fun gap _ => (hclamped gap).2) hlasting⟩

/- Three keys of 10 ms with pauses of 90 ms and 390 ms. -/
def threeKeys : List Item :=
  [.event ⟨"keyboard", evKey, 30, 0, 10000, 0, none, none, none, false, 20, 20⟩,
    .event ⟨"keyboard", evKey, 48, 100000, 110000, 0, none, none, none, false, 20, 20⟩,
    .event ⟨"keyboard", evKey, 46, 500000, 510000, 0, none, none, none, false, 20, 20⟩]

theorem lasting_threeKeys : Lasting threeKeys := by
  unfold Lasting threeKeys
  decide

theorem pauses_exact_three : Sectioned threeKeys (pauseSections threeKeys) ∧
    (limitPauses threeKeys 50000 (some 200000)).map Item.start = [0, 100000, 310000] :=
  ⟨(pauses_exact lasting_threeKeys 0 50000 (some 200000)).sections, by decide⟩

/- A key whose release was recorded before its press, between two others. -/
def releasedFirst : List Item :=
  [.event ⟨"keyboard", evKey, 30, 0, 10000, 0, none, none, none, false, 20, 20⟩,
    .event ⟨"keyboard", evKey, 48, 100000, 50000, 0, none, none, none, false, 20, 20⟩,
    .event ⟨"keyboard", evKey, 46, 120000, 130000, 0, none, none, none, false, 20, 20⟩]

/-- The last key is moved before the first one, and once more the second time. -/
theorem not_pauses_exact :
    ¬∀ (selected : List Item) (pauseUs minUs : ℤ) (maxUs : Option ℤ),
      Exact selected pauseUs minUs maxUs := by
  intro hall
  have htwice := (hall releasedFirst 0 0 none).setTwice
  have hmoved : (setPauses releasedFirst 0).map Item.start = [0, 10000, -40000] ∧
      (setPauses (setPauses releasedFirst 0) 0).map Item.start ≠ [0, 10000, -40000] := by decide
  rw [htwice] at hmoved
  exact hmoved.2 hmoved.1

end Keymasq.MacroEditor.Pauses
