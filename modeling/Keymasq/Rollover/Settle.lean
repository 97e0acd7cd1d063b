import Keymasq.Rollover.Groups

/-!
# Settling one group

A settle leaves exactly the active member pressed, marks the others as losers,
and picks the same member when it is run again.
-/

namespace Keymasq.Rollover.Settle
open Foundation Foundation.Sorting Groups Keymasq.Profile.Model

variable {O : Type*} {group : RolloverGroup} {m : RolloverMember} {st : GroupState O}
  {h : HeldMember O} {departed : Option (HeldMember O)} {chosen : Option RolloverMember}

/-! ## Choosing the active member -/

section Choose
variable {α : Type*} {key : α → ℕ}

theorem minByKey_mem {items : List α} {a : α} (h : minByKey key items = some a) : a ∈ items := by
  cases items with
  | nil => cases h
  | cons b items =>
    simp only [minByKey, Option.some.injEq] at h
    subst h
    have hfold : ∀ (rest : List α) (best : α),
        rest.foldl (fun best b => if key b < key best then b else best) best ∈ best :: rest := by
      intro rest
      induction rest with
      | nil => exact fun best => List.mem_cons_self
      | cons c rest ih =>
        intro best
        rcases List.mem_cons.mp (ih (if key c < key best then c else best)) with heq | hmem
        · rw [List.foldl_cons, heq]
          split <;> simp
        · exact List.mem_cons_of_mem _ (List.mem_cons_of_mem _ hmem)
    exact hfold items b

theorem minByKey_eq_none {items : List α} : minByKey key items = none ↔ items = [] := by
  cases items <;> simp [minByKey]

end Choose

/-- The candidates the winner rules other than neutral choose from. -/
def candidates (group : RolloverGroup) (held : List RolloverMember)
    (lost : Finset RolloverMember) : List RolloverMember :=
  if group.restore then held else held.filter (· ∉ lost)

theorem mem_candidates {held : List RolloverMember} {lost : Finset RolloverMember}
    (h : m ∈ candidates group held lost) :
    m ∈ held ∧ (group.restore = false → m ∉ lost) := by
  unfold candidates at h
  split at h
  · rename_i hrestore
    exact ⟨h, fun hfalse => by rw [hrestore] at hfalse; cases hfalse⟩
  · rw [List.mem_filter] at h
    exact ⟨h.1, fun _ => by simpa using h.2⟩

/-- A rule picks a candidate, and none only when there is none. -/
theorem chooseActive_of_ne_neutral (held : List RolloverMember) (lost : Finset RolloverMember)
    (hwinner : group.winner ≠ .neutral) :
    (∀ m, chooseActive group held lost = some m → m ∈ candidates group held lost) ∧
      (chooseActive group held lost = none → candidates group held lost = []) := by
  unfold chooseActive
  rw [show (if group.restore = true then held else held.filter (· ∉ lost)) =
    candidates group held lost from rfl]
  cases hw : group.winner with
  | newest => exact ⟨fun m h => List.mem_of_getLast? h, fun h => List.getLast?_eq_none_iff.mp h⟩
  | oldest => exact ⟨fun m h => List.mem_of_head? h, fun h => List.head?_eq_none_iff.mp h⟩
  | neutral => exact absurd hw hwinner
  | priority => exact ⟨fun m h => minByKey_mem h, fun h => minByKey_eq_none.mp h⟩

theorem chooseActive_neutral {held : List RolloverMember} {lost : Finset RolloverMember}
    (hwinner : group.winner = .neutral) (h : chooseActive group held lost = some m) :
    held = [m] ∧ (group.restore = false → m ∉ lost) := by
  unfold chooseActive at h
  rw [hwinner] at h
  simp only at h
  split at h
  · rename_i only
    split at h
    · rename_i hkeep
      cases h
      refine ⟨rfl, fun hrestore => ?_⟩
      simpa [hrestore] using hkeep
    · cases h
  · cases h

theorem chooseActive_mem {held : List RolloverMember} {lost : Finset RolloverMember}
    (h : chooseActive group held lost = some m) :
    m ∈ held ∧ (group.restore = false → m ∉ lost) := by
  by_cases hwinner : group.winner = .neutral
  · obtain ⟨hheld, hlost⟩ := chooseActive_neutral hwinner h
    exact ⟨by simp [hheld], hlost⟩
  · exact mem_candidates ((chooseActive_of_ne_neutral held lost hwinner).1 m h)

/- Once every other competitor is marked as lost, the choice stands: the winner
is the only candidate left, and without a winner no candidate appears. -/
theorem chooseActive_marked {held : List RolloverMember} {lost lost' : Finset RolloverMember}
    (hrestore : group.restore = false)
    (hmarked : ∀ m ∈ held, m ∈ lost' ↔ m ∈ lost ∨ some m ≠ chooseActive group held lost) :
    chooseActive group held lost' = chooseActive group held lost := by
  by_cases hwinner : group.winner = .neutral
  · cases hchosen : chooseActive group held lost with
    | some m =>
      obtain ⟨rfl, hnot⟩ := chooseActive_neutral hwinner hchosen
      have hnot' : m ∉ lost' := by
        rw [hmarked m (by simp), hchosen]
        simp [hnot hrestore]
      simp [chooseActive, hwinner, hnot']
    | none =>
      cases hchosen' : chooseActive group held lost' with
      | none => rfl
      | some m =>
        obtain ⟨rfl, hnot'⟩ := chooseActive_neutral hwinner hchosen'
        have hlost : m ∈ lost' := by
          rw [hmarked m (by simp), hchosen]
          simp
        exact absurd hlost (hnot' hrestore)
  · obtain ⟨hmem, hnone⟩ := chooseActive_of_ne_neutral held lost hwinner
    obtain ⟨hmem', hnone'⟩ := chooseActive_of_ne_neutral held lost' hwinner
    cases hchosen : chooseActive group held lost with
    | none =>
      cases hchosen' : chooseActive group held lost' with
      | none => rfl
      | some m =>
        obtain ⟨hin, hnot⟩ := mem_candidates (hmem' m hchosen')
        have hlost : m ∈ lost' := by
          rw [hmarked m hin, hchosen]
          simp
        exact absurd hlost (hnot hrestore)
    | some c =>
      obtain ⟨hin, hnot⟩ := mem_candidates (hmem c hchosen)
      have hkept : c ∈ candidates group held lost' := by
        simp only [candidates, hrestore, Bool.false_eq_true, if_false, List.mem_filter, hin,
          true_and, decide_eq_true_eq]
        rw [hmarked c hin, hchosen]
        simp [hnot hrestore]
      cases hchosen' : chooseActive group held lost' with
      | none =>
        rw [hnone' hchosen'] at hkept
        cases hkept
      | some m =>
        obtain ⟨hin', hnot'⟩ := mem_candidates (hmem' m hchosen')
        have hstays := hnot' hrestore
        rw [hmarked m hin', hchosen, not_or, not_not] at hstays
        exact hstays.2

/-! ## The state of one group -/

/-- What member events rely on before a settle. -/
structure Orderly (st : GroupState O) : Prop where
  nodup : (st.held.map (·.member)).Nodup
  sorted : st.held.Pairwise fun h h' => h.pressSeq ≤ h'.pressSeq
  lost_held : ∀ m ∈ st.lost, ∃ h ∈ st.held, h.member = m
  mem_group : ∀ h ∈ st.held, h.member ∈ st.group.members

/-- A settled group: exactly the chosen member is pressed, and it is the active one. -/
structure Coherent (st : GroupState O) : Prop extends Orderly st where
  active_chosen : st.active = chooseActive st.group st.competing st.lost
  pressed_iff : ∀ h ∈ st.held, h.pressed = true ↔ st.active = some h.member
  losers_lost : st.group.restore = false →
    ∀ h ∈ st.held, st.active ≠ some h.member → h.member ∈ st.lost

theorem member_eq_some (hnd : (st.held.map (·.member)).Nodup) :
    st.member m = some h ↔ h ∈ st.held ∧ h.member = m := by
  constructor
  · intro hfind
    exact ⟨List.mem_of_find?_eq_some hfind, by simpa using List.find?_some hfind⟩
  · rintro ⟨hmem, rfl⟩
    cases hfind : st.member h.member with
    | none =>
      have hno := List.find?_eq_none.mp hfind h hmem
      simp at hno
    | some h' =>
      have hmem' := List.mem_of_find?_eq_some hfind
      have hname : h'.member = h.member := by simpa using List.find?_some hfind
      rw [List.inj_on_of_nodup_map hnd hmem' hmem hname]

theorem member_eq_none : st.member m = none ↔ ∀ h ∈ st.held, h.member ≠ m := by
  rw [GroupState.member, List.find?_eq_none]
  simp

theorem mem_competing (h : m ∈ st.competing) : ∃ held ∈ st.held, held.member = m := by
  obtain ⟨held, hheld, rfl⟩ := List.mem_map.mp h
  exact ⟨held, (List.mem_filter.mp hheld).1, rfl⟩

/-- The next active member is the held one that the winner rule names. -/
theorem nextActive_name (st : GroupState O) :
    st.nextActive.map (·.member) = chooseActive st.group st.competing st.lost := by
  unfold GroupState.nextActive
  cases hchosen : chooseActive st.group st.competing st.lost with
  | none => rfl
  | some m =>
    obtain ⟨held, hheld, hname⟩ := mem_competing (chooseActive_mem hchosen).1
    rw [Option.bind_some]
    cases hfind : st.member m with
    | none => exact absurd hname (member_eq_none.mp hfind held hheld)
    | some h =>
      have hm : h.member = m := by simpa using List.find?_some hfind
      simp [hm]

theorem nextActive_mem {c : HeldMember O} (h : st.nextActive = some c) : c ∈ st.held := by
  obtain ⟨m, -, hfind⟩ := Option.bind_eq_some_iff.mp h
  exact List.mem_of_find?_eq_some hfind

theorem markLosers_frame (st : GroupState O) (winner : Option RolloverMember) :
    (st.markLosers winner).group = st.group ∧ (st.markLosers winner).held = st.held ∧
      (st.markLosers winner).active = st.active := by
  unfold GroupState.markLosers
  split <;> exact ⟨rfl, rfl, rfl⟩

theorem mem_markLosers (st : GroupState O) (winner : Option RolloverMember) (m : RolloverMember) :
    m ∈ (st.markLosers winner).lost ↔ m ∈ st.lost ∨
      (st.group.restore = false ∧ ∃ h ∈ st.held, h.member = m ∧ some m ≠ winner) := by
  unfold GroupState.markLosers
  split
  · rename_i hrestore
    simp [hrestore]
  · rename_i hrestore
    simp only [Finset.mem_union, List.mem_toFinset, List.mem_map, List.mem_filter,
      decide_eq_true_eq, Bool.not_eq_true] at *
    simp only [hrestore, true_and]
    constructor
    · rintro (hm | ⟨h, ⟨hh, hne⟩, rfl⟩)
      · exact Or.inl hm
      · exact Or.inr ⟨h, hh, rfl, hne⟩
    · rintro (hm | ⟨h, hh, rfl, hne⟩)
      · exact Or.inl hm
      · exact Or.inr ⟨h, ⟨hh, hne⟩, rfl⟩

/-- A loser is no longer pressed. -/
def unpress (giving : List RolloverMember) (h : HeldMember O) : HeldMember O :=
  if h.member ∈ giving then { h with pressed := false } else h

/-- The chosen member is pressed unless it was. -/
def pressChosen (env : SettleEnv O) (chosen : Option (HeldMember O)) (h : HeldMember O) :
    HeldMember O :=
  match chosen with
  | none => h
  | some c =>
    if c.pressed = false ∧ h.member = c.member then
      { h with pressed := true, fired := true, output := env.pressedOutput c }
    else h

theorem unpress_frame (giving : List RolloverMember) (h : HeldMember O) :
    (unpress giving h).member = h.member ∧ (unpress giving h).pressSeq = h.pressSeq ∧
      (unpress giving h).recalled = h.recalled := by
  unfold unpress
  split <;> exact ⟨rfl, rfl, rfl⟩

theorem pressChosen_frame (env : SettleEnv O) (chosen : Option (HeldMember O)) (h : HeldMember O) :
    (pressChosen env chosen h).member = h.member ∧
      (pressChosen env chosen h).pressSeq = h.pressSeq ∧
      (pressChosen env chosen h).recalled = h.recalled := by
  unfold pressChosen
  split
  · exact ⟨rfl, rfl, rfl⟩
  · split <;> exact ⟨rfl, rfl, rfl⟩

theorem pressChosen_of_ne (env : SettleEnv O) {chosen : Option (HeldMember O)}
    (hne : chosen.map (·.member) ≠ some h.member) : pressChosen env chosen h = h := by
  unfold pressChosen
  split
  · rfl
  · rename_i c
    rw [if_neg]
    rintro ⟨-, heq⟩
    exact hne (by simp [heq])

/-- What a settle makes of one held member. -/
def settleHeld (env : SettleEnv O) (st : GroupState O) (departed : Option (HeldMember O))
    (h : HeldMember O) : HeldMember O :=
  let name := st.nextActive.map (·.member)
  pressChosen env st.nextActive
    (unpress ((losers (st.markLosers name) departed name).map (·.member)) h)

theorem settleHeld_frame (env : SettleEnv O) (st : GroupState O) (departed : Option (HeldMember O))
    (h : HeldMember O) :
    (settleHeld env st departed h).member = h.member ∧
      (settleHeld env st departed h).pressSeq = h.pressSeq ∧
      (settleHeld env st departed h).recalled = h.recalled := by
  have hpress := pressChosen_frame env st.nextActive
    (unpress ((losers (st.markLosers (st.nextActive.map (·.member))) departed
      (st.nextActive.map (·.member))).map (·.member)) h)
  have hunpress := unpress_frame ((losers (st.markLosers (st.nextActive.map (·.member))) departed
    (st.nextActive.map (·.member))).map (·.member)) h
  exact ⟨hpress.1.trans hunpress.1, hpress.2.1.trans hunpress.2.1,
    hpress.2.2.trans hunpress.2.2⟩

theorem mem_losers_ne (hmem : h ∈ losers st departed chosen) : some h.member ≠ chosen := by
  have hfilter : ∀ x ∈ st.held.filter (fun h => h.pressed && decide (some h.member ≠ chosen)),
      some x.member ≠ chosen := by
    intro x hx
    have hcond := (List.mem_filter.mp hx).2
    simp only [Bool.and_eq_true, decide_eq_true_eq] at hcond
    exact hcond.2
  unfold losers at hmem
  simp only at hmem
  split at hmem
  · exact hfilter h hmem
  · split at hmem
    · rename_i hprevious
      rcases List.mem_cons.mp hmem with rfl | hmem
      · exact hprevious.2
      · exact hfilter h (List.mem_filter.mp hmem).1
    · exact hfilter h hmem

theorem mem_losers_of_pressed (hmem : h ∈ st.held) (hpressed : h.pressed = true)
    (hne : some h.member ≠ chosen) :
    h.member ∈ (losers st departed chosen).map (·.member) := by
  have hfilter : h ∈ st.held.filter (fun h => h.pressed && decide (some h.member ≠ chosen)) := by
    simp [List.mem_filter, hmem, hpressed, hne]
  unfold losers
  simp only
  split
  · exact List.mem_map_of_mem hfilter
  · rename_i previous _
    split
    · rw [List.map_cons, List.mem_cons]
      by_cases heq : h.member = previous.member
      · exact Or.inl heq
      · refine Or.inr (List.mem_map_of_mem (List.mem_filter.mpr ⟨hfilter, ?_⟩))
        simpa using heq
    · exact List.mem_map_of_mem hfilter

/-- After a settle a held member is pressed exactly when it was chosen. -/
theorem settleHeld_pressed (env : SettleEnv O) (hok : Orderly st) (departed : Option (HeldMember O))
    (hmem : h ∈ st.held) :
    (settleHeld env st departed h).pressed = true ↔
      st.nextActive.map (·.member) = some h.member := by
  have hheld := (markLosers_frame st (st.nextActive.map (·.member))).2.1
  by_cases hchosen : st.nextActive.map (·.member) = some h.member
  · obtain ⟨c, hc, hname⟩ := Option.map_eq_some_iff.mp hchosen
    have heq : c = h := List.inj_on_of_nodup_map hok.nodup (nextActive_mem hc) hmem hname
    subst heq
    have hnot : c.member ∉ (losers (st.markLosers (some c.member)) departed (some c.member)).map
        (·.member) := by
      intro hin
      obtain ⟨x, hx, hxname⟩ := List.mem_map.mp hin
      exact mem_losers_ne hx (congrArg some hxname)
    simp only [settleHeld, hc, Option.map_some, unpress, if_neg hnot, pressChosen, and_true]
    cases hpressed : c.pressed <;> simp [hpressed]
  · simp only [hchosen, iff_false, Bool.not_eq_true]
    have hkeep : settleHeld env st departed h = unpress
        ((losers (st.markLosers (st.nextActive.map (·.member))) departed
          (st.nextActive.map (·.member))).map (·.member)) h :=
      pressChosen_of_ne env (by rw [(unpress_frame _ h).1]; exact hchosen)
    rw [hkeep, unpress]
    split
    · rfl
    · rename_i hnot
      cases hpressed : h.pressed with
      | false => rfl
      | true =>
        exact absurd (mem_losers_of_pressed (hheld ▸ hmem) hpressed (Ne.symm hchosen)) hnot

section Settle
variable [DecidableEq O]

/-- The state a settle leaves. -/
theorem settle_state (env : SettleEnv O) (st : GroupState O) (departed : Option (HeldMember O)) :
    (settle env st departed).1 =
      { st.markLosers (st.nextActive.map (·.member)) with
        held := st.held.map (settleHeld env st departed)
        active := st.nextActive.map (·.member) } := by
  have hheld := (markLosers_frame st (st.nextActive.map (·.member))).2.1
  unfold settle settleHeld pressChosen unpress
  cases hchosen : st.nextActive with
  | none =>
    rw [hchosen] at hheld
    simp only [Option.map_none] at hheld ⊢
    rw [hheld]
  | some c =>
    rw [hchosen] at hheld
    simp only [Option.map_some] at hheld ⊢
    rw [hheld]
    split
    · rename_i hpressed
      simp [hpressed]
    · rename_i hpressed
      simp only [Bool.not_eq_true] at hpressed
      simp [hpressed, List.map_map, Function.comp_def]

theorem settle_competing (env : SettleEnv O) (st : GroupState O)
    (departed : Option (HeldMember O)) :
    (settle env st departed).1.competing = st.competing := by
  rw [settle_state]
  simp only [GroupState.competing, List.filter_map, List.map_map]
  have hrecalled : ((fun h : HeldMember O => !h.recalled) ∘ settleHeld env st departed) =
      fun h => !h.recalled := by
    funext h
    simp [(settleHeld_frame env st departed h).2.2]
  have hmember : ((fun h : HeldMember O => h.member) ∘ settleHeld env st departed) =
      fun h => h.member := by
    funext h
    simp [(settleHeld_frame env st departed h).1]
  rw [hrecalled, hmember]

/-- Settling an orderly group makes it coherent. -/
theorem settle_coherent (env : SettleEnv O) (hok : Orderly st) (departed : Option (HeldMember O)) :
    Coherent (settle env st departed).1 := by
  have hframe := markLosers_frame st (st.nextActive.map (·.member))
  have hname := nextActive_name st
  have hstate := settle_state env st departed
  have hgroup : (settle env st departed).1.group = st.group := by
    rw [hstate]
    exact hframe.1
  have hlost : ∀ m, m ∈ (settle env st departed).1.lost ↔ m ∈ st.lost ∨
      (st.group.restore = false ∧ ∃ h ∈ st.held, h.member = m ∧
        some m ≠ st.nextActive.map (·.member)) := by
    intro m
    rw [hstate]
    exact mem_markLosers st _ m
  have hheld : (settle env st departed).1.held = st.held.map (settleHeld env st departed) := by
    rw [hstate]
  have hactive : (settle env st departed).1.active = st.nextActive.map (·.member) := by
    rw [hstate]
  have hmember : ∀ h, (settleHeld env st departed h).member = h.member :=
    fun h => (settleHeld_frame env st departed h).1
  refine ⟨⟨?_, ?_, ?_, ?_⟩, ?_, ?_, ?_⟩
  · rw [hheld, List.map_map]
    simpa only [Function.comp_def, hmember] using hok.nodup
  · rw [hheld, List.pairwise_map]
    simpa only [(settleHeld_frame env st departed _).2.1] using hok.sorted
  · intro m hm
    rw [hheld]
    rcases (hlost m).mp hm with hm | ⟨-, h, hh, rfl, -⟩
    · obtain ⟨h, hh, rfl⟩ := hok.lost_held m hm
      exact ⟨_, List.mem_map_of_mem hh, hmember h⟩
    · exact ⟨_, List.mem_map_of_mem hh, hmember h⟩
  · intro h' hh'
    rw [hheld] at hh'
    obtain ⟨h, hh, rfl⟩ := List.mem_map.mp hh'
    rw [hmember, hgroup]
    exact hok.mem_group h hh
  · rw [hactive, hgroup, settle_competing, hname]
    by_cases hrestore : st.group.restore = true
    · have hsame : ∀ lost, chooseActive st.group st.competing lost =
          chooseActive st.group st.competing st.lost := by
        intro lost
        simp [chooseActive, hrestore]
      exact (hsame _).symm
    · rw [Bool.not_eq_true] at hrestore
      refine (chooseActive_marked hrestore fun m hm => ?_).symm
      rw [hlost m, hname]
      obtain ⟨h, hh, hhm⟩ := mem_competing hm
      simp only [hrestore, true_and]
      constructor
      · rintro (hm | ⟨-, -, -, hne⟩)
        · exact Or.inl hm
        · exact Or.inr hne
      · rintro (hm | hne)
        · exact Or.inl hm
        · exact Or.inr ⟨h, hh, hhm, hne⟩
  · intro h' hh'
    rw [hheld] at hh'
    obtain ⟨h, hh, rfl⟩ := List.mem_map.mp hh'
    rw [hactive, hmember]
    exact settleHeld_pressed env hok departed hh
  · intro hrestore h' hh' hne
    rw [hgroup] at hrestore
    rw [hheld] at hh'
    obtain ⟨h, hh, rfl⟩ := List.mem_map.mp hh'
    rw [hactive, hmember] at hne
    rw [hmember, hlost]
    exact Or.inr ⟨hrestore, h, hh, rfl, Ne.symm hne⟩

/-- Settling a coherent group again changes nothing and touches no output. -/
theorem settle_again (env : SettleEnv O) (h : Coherent st) : settle env st none = (st, []) := by
  have hname : st.nextActive.map (·.member) = st.active :=
    (nextActive_name st).trans h.active_chosen.symm
  have hmark : st.markLosers st.active = st := by
    unfold GroupState.markLosers
    split
    · rfl
    · rename_i hrestore
      rw [Bool.not_eq_true] at hrestore
      have hunion : st.lost ∪ ((st.held.filter fun h => some h.member ≠ st.active).map
          (·.member)).toFinset = st.lost := by
        rw [Finset.union_eq_left]
        intro m hm
        rw [List.mem_toFinset] at hm
        obtain ⟨x, hx, rfl⟩ := List.mem_map.mp hm
        obtain ⟨hxheld, hxne⟩ := List.mem_filter.mp hx
        exact h.losers_lost hrestore x hxheld (Ne.symm (by simpa using hxne))
      rw [hunion]
  have hnone : losers st none st.active = [] := by
    have hfilter : (st.held.filter fun x => x.pressed && decide (some x.member ≠ st.active)) = [] := by
      rw [List.filter_eq_nil_iff]
      intro x hx
      simp only [Bool.and_eq_true, decide_eq_true_eq, not_and, not_not]
      exact fun hpressed => ((h.pressed_iff x hx).mp hpressed).symm
    unfold losers
    simp only [hfilter]
    split
    · rfl
    · rename_i previous hprevious
      have hactive : some previous.member = st.active := by
        unfold previousActive at hprevious
        split at hprevious
        · cases hprevious
        · rename_i m hm
          have hfind : st.member m = some previous := by simpa using hprevious
          rw [hm]
          exact congrArg some (by simpa using List.find?_some hfind)
      simp [hactive]
  unfold settle
  simp only [hname, hmark, hnone, List.foldl_nil, List.map_nil, List.not_mem_nil, if_false,
    List.map_id']
  cases hchosen : st.nextActive with
  | none =>
    rw [hchosen, Option.map_none] at hname
    simp only [hname]
  | some c =>
    rw [hchosen, Option.map_some] at hname
    have hpressed : c.pressed = true :=
      (h.pressed_iff c (nextActive_mem hchosen)).mpr hname.symm
    simp [hpressed, hname]

end Settle

end Keymasq.Rollover.Settle
