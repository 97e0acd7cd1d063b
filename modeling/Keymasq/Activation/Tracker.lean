import Keymasq.Foundation.Strings
import Keymasq.Profile.Model

/-!
# Trackers of temporary profile activations

The daemon keeps one tracker for every temporary activation the session asked
it to watch. A tracker expires when its trigger ends, after a number of actions
or after a time, and is then reported to the session and dropped.
-/

namespace Keymasq.Activation.Tracker
open Foundation Foundation.Strings Keymasq.Profile.Model

structure RuntimeProfileActivationTracker where
  profileName : String
  activationId : String
  triggerId : String
  deactivation : ProfileDeactivationPolicy
  actionCount : ℤ := 0
  expired : Bool := false

/-- The expiry of an activation, as the daemon reports it. -/
structure DeactivateRequest where
  profileName : String
  activationId : String
deriving DecidableEq

/-- `requested` are the reports the session has not handled yet. -/
structure ProfileActivationTracker where
  trackers : Dict String RuntimeProfileActivationTracker := ∅
  activationByProfile : Dict String String := ∅
  activeTriggerIds : Finset String := ∅
  requested : List DeactivateRequest := []

namespace ProfileActivationTracker

/- The second half of `cancel`: drop a tracker and, where it is its profile's current one, the
profile's entry. -/
def pop (t : ProfileActivationTracker) (activationId : String) : ProfileActivationTracker :=
  match t.trackers.get? activationId with
  | none => t
  | some tracker => { t with
      trackers := t.trackers.erase activationId
      activationByProfile :=
        if t.activationByProfile.get? tracker.profileName = some tracker.activationId then
          t.activationByProfile.erase tracker.profileName
        else t.activationByProfile }

def cancel (t : ProfileActivationTracker) (profileName activationId : String) :
    ProfileActivationTracker :=
  let activationId := strip activationId
  let profileName := strip profileName
  let activationId :=
    if activationId = "" ∧ profileName ≠ "" then t.activationByProfile.getD profileName ""
    else activationId
  if activationId = "" then t else t.pop activationId

/- Only the tracker that is still in the table expires, and only once. -/
def expire (t : ProfileActivationTracker) (tracker : RuntimeProfileActivationTracker) :
    ProfileActivationTracker :=
  match t.trackers.get? tracker.activationId with
  | none => t
  | some current =>
    if current.expired then t
    else
      let t := t.cancel "" tracker.activationId
      { t with requested := t.requested ++ [⟨tracker.profileName, tracker.activationId⟩] }

/- `track` replaces the tracker of an earlier activation of the profile. -/
def dropPrevious (t : ProfileActivationTracker) (profileName activationId : String) :
    ProfileActivationTracker :=
  let previous := t.activationByProfile.getD profileName ""
  if previous ≠ "" ∧ previous ≠ activationId then t.cancel "" previous else t

def track (t : ProfileActivationTracker) (profileName activationId triggerId : String)
    (deactivation : ProfileDeactivationPolicy) : ProfileActivationTracker :=
  let profileName := strip profileName
  let activationId := strip activationId
  let triggerId := strip triggerId
  if profileName = "" ∨ activationId = "" ∨ deactivation.hasCondition = false then t
  else
    let t := t.dropPrevious profileName activationId
    let tracker : RuntimeProfileActivationTracker :=
      { profileName, activationId, triggerId, deactivation }
    let t := { t with
      trackers := t.trackers.insert activationId tracker
      activationByProfile := t.activationByProfile.insert profileName activationId }
    if deactivation.onTriggerEnd = true ∧ triggerId ≠ "" ∧ triggerId ∉ t.activeTriggerIds then
      t.expire tracker
    else t

def observeTriggerStart (t : ProfileActivationTracker) (triggerId : String) :
    ProfileActivationTracker :=
  let triggerId := strip triggerId
  if triggerId = "" then t
  else { t with activeTriggerIds := insert triggerId t.activeTriggerIds }

def endTrigger (triggerId : String) (t : ProfileActivationTracker)
    (tracker : RuntimeProfileActivationTracker) : ProfileActivationTracker :=
  if tracker.triggerId = triggerId ∧ tracker.deactivation.onTriggerEnd = true ∧
    tracker.expired = false then t.expire tracker
  else t

/- The loops run over the trackers the table held when they started. -/
def observeTriggerEnd (t : ProfileActivationTracker) (triggerId : String) :
    ProfileActivationTracker :=
  let triggerId := strip triggerId
  if triggerId = "" then t
  else t.trackers.values.foldl (endTrigger triggerId)
    { t with activeTriggerIds := t.activeTriggerIds.erase triggerId }

def countAction (triggerId : String) (t : ProfileActivationTracker)
    (tracker : RuntimeProfileActivationTracker) : ProfileActivationTracker :=
  if tracker.expired = true ∨ (triggerId ≠ "" ∧ tracker.triggerId = triggerId) then t
  else
    match tracker.deactivation.afterActions with
    | none => t
    | some threshold =>
      if threshold ≤ 0 then t
      else
        let t := { t with
          trackers := t.trackers.mapVal fun activationId other =>
            if activationId = tracker.activationId then
              { other with actionCount := other.actionCount + 1 }
            else other }
        if threshold ≤ tracker.actionCount + 1 then t.expire tracker else t

def recordAction (t : ProfileActivationTracker) (triggerId : String) :
    ProfileActivationTracker :=
  t.trackers.values.foldl (countAction (strip triggerId)) t

def reset (t : ProfileActivationTracker) : ProfileActivationTracker :=
  { t with trackers := ∅, activationByProfile := ∅, activeTriggerIds := ∅ }

/- The timer of a tracker is cancelled with it, so it fires only for one still in the table. -/
def timeoutAfter (t : ProfileActivationTracker) (activationId : String) :
    Option ProfileActivationTracker :=
  match t.trackers.get? activationId with
  | none => none
  | some tracker => if tracker.deactivation.timeoutMs = none then none else some (t.expire tracker)

end ProfileActivationTracker

/-! ## The two tables agree -/

/-- Every tracker is its profile's current activation, and unexpired. -/
structure Coherent (t : ProfileActivationTracker) : Prop where
  named : ∀ {x tr}, t.trackers.get? x = some tr → tr.activationId = x
  stripped : ∀ {x tr}, t.trackers.get? x = some tr → strip x = x ∧ x ≠ ""
  unexpired : ∀ {x tr}, t.trackers.get? x = some tr → tr.expired = false
  current : ∀ {x tr}, t.trackers.get? x = some tr →
    t.activationByProfile.get? tr.profileName = some x
  indexed : ∀ {p x}, t.activationByProfile.get? p = some x →
    ∃ tr, t.trackers.get? x = some tr ∧ tr.profileName = p

/-- The activation has a tracker that can still expire. -/
def Live (t : ProfileActivationTracker) (p x : String) : Prop :=
  ∃ tr, t.trackers.get? x = some tr ∧ tr.profileName = p

def Reported (t : ProfileActivationTracker) (p x : String) : Prop :=
  (⟨p, x⟩ : DeactivateRequest) ∈ t.requested

/-- Every tracker carries the profile its activation was made for. -/
def OwnedBy (t : ProfileActivationTracker) (owner : String → Option String) : Prop :=
  ∀ {x tr}, t.trackers.get? x = some tr → owner x = some tr.profileName

variable {t : ProfileActivationTracker} {owner : String → Option String}
  {tr : RuntimeProfileActivationTracker}

theorem coherent_empty : Coherent {} := ⟨nofun, nofun, nofun, nofun, nofun⟩

/-- At most one activation of a profile is tracked. -/
theorem Coherent.unique (h : Coherent t) {p x y : String} (hx : Live t p x) (hy : Live t p y) :
    x = y := by
  obtain ⟨tr, hget, rfl⟩ := hx
  obtain ⟨tr', hget', heq⟩ := hy
  have hcurrent := h.current hget
  rw [← heq, h.current hget'] at hcurrent
  exact (Option.some.inj hcurrent).symm

/-! ## Removing a tracker -/

theorem cancel_of_stripped {p x : String} (hx : strip x = x) (hne : x ≠ "") :
    t.cancel p x = t.pop x := by
  simp only [ProfileActivationTracker.cancel, hx, hne, false_and, if_false]

theorem pop_none {x : String} (hget : t.trackers.get? x = none) : t.pop x = t := by
  simp only [ProfileActivationTracker.pop, hget]

theorem pop_some (h : Coherent t) {x : String} (hget : t.trackers.get? x = some tr) :
    t.pop x = { t with
      trackers := t.trackers.erase x
      activationByProfile := t.activationByProfile.erase tr.profileName } := by
  have hcurrent := h.current hget
  simp only [ProfileActivationTracker.pop, hget, h.named hget, hcurrent, if_true]

theorem pop_trackers (h : Coherent t) (x y : String) :
    (t.pop x).trackers.get? y = if y = x then none else t.trackers.get? y := by
  cases hget : t.trackers.get? x with
  | none =>
    rw [pop_none hget]
    split
    · rename_i heq
      rw [heq, hget]
    · rfl
  | some tr => rw [pop_some h hget, Dict.get?_erase]

theorem pop_requested (h : Coherent t) (x : String) : (t.pop x).requested = t.requested := by
  cases hget : t.trackers.get? x with
  | none => rw [pop_none hget]
  | some tr => rw [pop_some h hget]

theorem pop_get? (h : Coherent t) {x y : String} (hget : (t.pop x).trackers.get? y = some tr) :
    y ≠ x ∧ t.trackers.get? y = some tr := by
  rw [pop_trackers h] at hget
  split at hget
  · cases hget
  · exact ⟨by assumption, hget⟩

theorem coherent_pop (h : Coherent t) (x : String) : Coherent (t.pop x) := by
  cases hx : t.trackers.get? x with
  | none =>
    rw [pop_none hx]
    exact h
  | some tr =>
    have hprofile : ∀ p, (t.pop x).activationByProfile.get? p =
        if p = tr.profileName then none else t.activationByProfile.get? p := by
      intro p
      rw [pop_some h hx, Dict.get?_erase]
    refine ⟨fun hy => h.named (pop_get? h hy).2, fun hy => h.stripped (pop_get? h hy).2,
      fun hy => h.unexpired (pop_get? h hy).2, fun {y tr'} hy => ?_, fun {p y} hp => ?_⟩
    · obtain ⟨hne, hy⟩ := pop_get? h hy
      rw [hprofile, if_neg, h.current hy]
      intro heq
      have hcurrent := h.current hy
      rw [heq, h.current hx] at hcurrent
      exact hne (Option.some.inj hcurrent).symm
    · rw [hprofile] at hp
      split at hp
      · cases hp
      · rename_i hne
        obtain ⟨tr', hy, rfl⟩ := h.indexed hp
        refine ⟨tr', ?_, rfl⟩
        rw [pop_trackers h, if_neg, hy]
        rintro rfl
        rw [hx] at hy
        cases hy
        exact hne rfl

theorem live_pop (h : Coherent t) {p x y : String} (hlive : Live t p y) (hne : y ≠ x) :
    Live (t.pop x) p y := by
  obtain ⟨tr, hget, hp⟩ := hlive
  refine ⟨tr, ?_, hp⟩
  rw [pop_trackers h, if_neg hne, hget]

theorem ownedBy_pop (h : Coherent t) (howned : OwnedBy t owner) (x : String) :
    OwnedBy (t.pop x) owner :=
  fun hy => howned (pop_get? h hy).2

/-! ## Expiry -/

/-- From `t` to `t'` trackers may only expire, and each one that did is reported. -/
structure Expires (t t' : ProfileActivationTracker) : Prop where
  coherent : Coherent t'
  live : ∀ {p x}, Live t p x → Live t' p x ∨ Reported t' p x
  reported : ∀ {p x}, Reported t p x → Reported t' p x
  owned : ∀ {owner}, OwnedBy t owner → OwnedBy t' owner

theorem Expires.refl (h : Coherent t) : Expires t t := ⟨h, Or.inl, id, id⟩

theorem Expires.trans {u v : ProfileActivationTracker} (htu : Expires t u) (huv : Expires u v) :
    Expires t v := by
  refine ⟨huv.coherent, fun hlive => ?_, fun hr => huv.reported (htu.reported hr),
    fun ho => huv.owned (htu.owned ho)⟩
  rcases htu.live hlive with hlive | hreported
  · exact huv.live hlive
  · exact Or.inr (huv.reported hreported)

theorem expires_expire (h : Coherent t) (howned : OwnedBy t owner)
    (htr : owner tr.activationId = some tr.profileName) :
    Expires t (t.expire tr) := by
  unfold ProfileActivationTracker.expire
  cases hget : t.trackers.get? tr.activationId with
  | none => exact Expires.refl h
  | some current =>
    obtain ⟨hstrip, hne⟩ := h.stripped hget
    have hprofile : current.profileName = tr.profileName := by
      have howner := howned hget
      rw [htr] at howner
      exact (Option.some.inj howner).symm
    simp only [h.unexpired hget, Bool.false_eq_true, if_false, cancel_of_stripped hstrip hne,
      pop_requested h]
    have hpop := coherent_pop h tr.activationId
    refine ⟨⟨hpop.named, hpop.stripped, hpop.unexpired, hpop.current, hpop.indexed⟩,
      fun {p x} hlive => ?_, fun hr => List.mem_append_left _ hr,
      fun ho => ownedBy_pop h ho tr.activationId⟩
    by_cases hx : x = tr.activationId
    · obtain ⟨tr', hget', hp⟩ := hlive
      rw [hx, hget] at hget'
      cases hget'
      right
      rw [hx, ← hp, hprofile]
      exact List.mem_append_right _ (List.mem_singleton_self _)
    · exact Or.inl (live_pop h hlive hx)

/-- A loop over the trackers of a snapshot, each of which may expire. -/
theorem expires_foldl (h : Coherent t)
    {f : ProfileActivationTracker → RuntimeProfileActivationTracker → ProfileActivationTracker}
    (hf : ∀ {u owner tr}, Coherent u → OwnedBy u owner →
      owner tr.activationId = some tr.profileName → Expires u (f u tr)) :
    Expires t (t.trackers.values.foldl f t) := by
  let owner : String → Option String := fun x => (t.trackers.get? x).map (·.profileName)
  have howned : OwnedBy t owner := fun hget => by simp only [owner, hget, Option.map_some]
  have hsnapshot : ∀ tr ∈ t.trackers.values, owner tr.activationId = some tr.profileName := by
    intro tr htr
    obtain ⟨⟨x, tr'⟩, hmem, rfl⟩ := List.mem_map.mp htr
    have hget := Dict.get?_eq_some_iff.mpr hmem
    have hname := h.named hget
    simp only [owner, hname, hget, Option.map_some]
  have hloop : ∀ (trs : List RuntimeProfileActivationTracker) (u : ProfileActivationTracker),
      (∀ tr ∈ trs, owner tr.activationId = some tr.profileName) → Expires t u →
      Expires t (trs.foldl f u) := by
    intro trs
    induction trs with
    | nil => exact fun u _ hu => hu
    | cons tr trs ih =>
      intro u htrs hu
      exact ih _ (fun tr' h' => htrs tr' (List.mem_cons_of_mem _ h'))
        (hu.trans (hf hu.coherent (hu.owned howned) (htrs tr List.mem_cons_self)))
  exact hloop _ _ hsnapshot (Expires.refl h)

theorem expires_observeTriggerStart (h : Coherent t) (triggerId : String) :
    Expires t (t.observeTriggerStart triggerId) := by
  simp only [ProfileActivationTracker.observeTriggerStart]
  split
  · exact Expires.refl h
  · exact ⟨⟨h.named, h.stripped, h.unexpired, h.current, h.indexed⟩, Or.inl, id, id⟩

theorem expires_observeTriggerEnd (h : Coherent t) (triggerId : String) :
    Expires t (t.observeTriggerEnd triggerId) := by
  simp only [ProfileActivationTracker.observeTriggerEnd]
  split
  · exact Expires.refl h
  · have hended : Coherent { t with
        activeTriggerIds := t.activeTriggerIds.erase (strip triggerId) } :=
      ⟨h.named, h.stripped, h.unexpired, h.current, h.indexed⟩
    have hloop := expires_foldl hended (f := ProfileActivationTracker.endTrigger (strip triggerId))
      fun {u owner tr} hu howned htr => by
        unfold ProfileActivationTracker.endTrigger
        split
        · exact expires_expire hu howned htr
        · exact Expires.refl hu
    exact ⟨hloop.coherent, hloop.live, hloop.reported, hloop.owned⟩

/-- Counting an action changes a tracker in place, and may make it expire. -/
theorem expires_countAction (h : Coherent t) (howned : OwnedBy t owner) (triggerId : String)
    (htr : owner tr.activationId = some tr.profileName) :
    Expires t (t.countAction triggerId tr) := by
  unfold ProfileActivationTracker.countAction
  split
  · exact Expires.refl h
  · cases tr.deactivation.afterActions with
    | none => exact Expires.refl h
    | some threshold =>
      simp only
      split
      · exact Expires.refl h
      · let count : String → RuntimeProfileActivationTracker → RuntimeProfileActivationTracker :=
          fun activationId other =>
            if activationId = tr.activationId then
              { other with actionCount := other.actionCount + 1 }
            else other
        have hsame : ∀ x other, (count x other).profileName = other.profileName ∧
            (count x other).activationId = other.activationId ∧
            (count x other).expired = other.expired := by
          intro x other
          simp only [count]
          split <;> exact ⟨rfl, rfl, rfl⟩
        have hback : ∀ {x tr'}, (t.trackers.mapVal count).get? x = some tr' →
            ∃ other, t.trackers.get? x = some other ∧ count x other = tr' := by
          intro x tr' hget
          rw [Dict.get?_mapVal] at hget
          exact Option.map_eq_some_iff.mp hget
        have hcount : Expires t { t with trackers := t.trackers.mapVal count } := by
          refine ⟨⟨fun hx => ?_, fun hx => ?_, fun hx => ?_, fun hx => ?_, fun hp => ?_⟩,
            fun hlive => Or.inl ?_, id, fun ho _ _ hx => ?_⟩
          · obtain ⟨other, hget, rfl⟩ := hback hx
            exact (hsame _ _).2.1.trans (h.named hget)
          · obtain ⟨other, hget, rfl⟩ := hback hx
            exact h.stripped hget
          · obtain ⟨other, hget, rfl⟩ := hback hx
            exact (hsame _ _).2.2.trans (h.unexpired hget)
          · obtain ⟨other, hget, rfl⟩ := hback hx
            rw [(hsame _ _).1]
            exact h.current hget
          · obtain ⟨other, hget, hprofile⟩ := h.indexed hp
            exact ⟨_, by rw [Dict.get?_mapVal, hget]; rfl, (hsame _ _).1.trans hprofile⟩
          · obtain ⟨other, hget, hprofile⟩ := hlive
            exact ⟨_, by rw [Dict.get?_mapVal, hget]; rfl, (hsame _ _).1.trans hprofile⟩
          · obtain ⟨other, hget, rfl⟩ := hback hx
            rw [(hsame _ _).1]
            exact ho hget
        split
        · exact hcount.trans (expires_expire hcount.coherent (hcount.owned howned) htr)
        · exact hcount

theorem expires_recordAction (h : Coherent t) (triggerId : String) :
    Expires t (t.recordAction triggerId) :=
  expires_foldl h fun hu howned htr => expires_countAction hu howned (strip triggerId) htr

theorem expires_timeoutAfter (h : Coherent t) {x : String} {t' : ProfileActivationTracker}
    (htimeout : t.timeoutAfter x = some t') : Expires t t' := by
  unfold ProfileActivationTracker.timeoutAfter at htimeout
  cases hget : t.trackers.get? x with
  | none =>
    rw [hget] at htimeout
    cases htimeout
  | some tr =>
    simp only [hget] at htimeout
    split at htimeout
    · cases htimeout
    · cases htimeout
      refine @expires_expire t (fun y => (t.trackers.get? y).map (·.profileName)) tr h
        (fun hy => by simp only [hy, Option.map_some]) ?_
      simp only [h.named hget, hget, Option.map_some]

/-! ## Tracking -/

/-- The table once an activation is tracked, before it may expire at once. -/
theorem installed {p x : String} (h : Coherent t) (howned : OwnedBy t owner) (hx : owner x = some p)
    (hname : tr.activationId = x) (hprofile : tr.profileName = p) (hlive : tr.expired = false)
    (hstrip : strip x = x ∧ x ≠ "") (hfree : ∀ y, Live t p y → y = x) :
    Coherent { t with
      trackers := t.trackers.insert x tr
      activationByProfile := t.activationByProfile.insert p x } := by
  refine ⟨fun {y tr'} hy => ?_, fun {y tr'} hy => ?_, fun {y tr'} hy => ?_, fun {y tr'} hy => ?_,
    fun {q y} hq => ?_⟩
  · rw [Dict.get?_insert] at hy
    split at hy
    · cases hy
      rename_i heq
      rw [hname, heq]
    · exact h.named hy
  · rw [Dict.get?_insert] at hy
    split at hy
    · rename_i heq
      rw [heq]
      exact hstrip
    · exact h.stripped hy
  · rw [Dict.get?_insert] at hy
    split at hy
    · cases hy
      exact hlive
    · exact h.unexpired hy
  · rw [Dict.get?_insert] at hy
    rw [Dict.get?_insert]
    split at hy
    · cases hy
      rename_i heq
      rw [if_pos hprofile, heq]
    · rename_i hne
      rw [if_neg, h.current hy]
      exact fun heq => hne (hfree y ⟨tr', hy, heq⟩)
  · rw [Dict.get?_insert] at hq
    split at hq
    · cases hq
      rename_i heq
      exact ⟨tr, by rw [Dict.get?_insert, if_pos rfl], hprofile.trans heq.symm⟩
    · rename_i hne
      obtain ⟨tr', hy, rfl⟩ := h.indexed hq
      refine ⟨tr', ?_, rfl⟩
      rw [Dict.get?_insert, if_neg, hy]
      rintro rfl
      have howner := howned hy
      rw [hx] at howner
      exact hne (Option.some.inj howner).symm

theorem getD_of_live (h : Coherent t) {p x : String} (hlive : Live t p x) :
    t.activationByProfile.getD p "" = x := by
  obtain ⟨tr, hget, rfl⟩ := hlive
  rw [Dict.getD, h.current hget, Option.getD_some]

theorem live_of_getD (h : Coherent t) {p : String} (hne : t.activationByProfile.getD p "" ≠ "") :
    Live t p (t.activationByProfile.getD p "") := by
  unfold Dict.getD at hne ⊢
  cases hentry : t.activationByProfile.get? p with
  | none =>
    rw [hentry] at hne
    exact absurd rfl hne
  | some y => exact h.indexed hentry

/-- A tracker an earlier activation of the profile had is gone, the others are as before. -/
theorem dropPrevious_cases (h : Coherent t) (p x : String) :
    (t.dropPrevious p x = t ∧ ∀ y, Live t p y → y = x) ∨
      ∃ y, y ≠ x ∧ Live t p y ∧ t.dropPrevious p x = t.pop y := by
  simp only [ProfileActivationTracker.dropPrevious]
  split
  · rename_i hprevious
    have hlive := live_of_getD h hprevious.1
    obtain ⟨tr, hget, hprofile⟩ := hlive
    exact Or.inr ⟨_, hprevious.2, ⟨tr, hget, hprofile⟩,
      cancel_of_stripped (h.stripped hget).1 (h.stripped hget).2⟩
  · rename_i hprevious
    refine Or.inl ⟨rfl, fun y hlive => ?_⟩
    have hy := getD_of_live h hlive
    obtain ⟨tr, hget, -⟩ := hlive
    by_contra hne
    exact hprevious ⟨hy ▸ (h.stripped hget).2, hy ▸ hne⟩

theorem dropPrevious_spec (h : Coherent t) (p x : String) :
    Coherent (t.dropPrevious p x) ∧ (t.dropPrevious p x).requested = t.requested ∧
      (∀ y, Live (t.dropPrevious p x) p y → y = x) ∧
      (∀ {q y}, Live t q y → q ≠ p → Live (t.dropPrevious p x) q y) ∧
      ∀ {owner}, OwnedBy t owner → OwnedBy (t.dropPrevious p x) owner := by
  rcases dropPrevious_cases h p x with ⟨heq, honly⟩ | ⟨y, -, hlive, heq⟩
  · rw [heq]
    exact ⟨h, rfl, honly, fun hlive _ => hlive, fun ho => ho⟩
  · rw [heq]
    refine ⟨coherent_pop h y, pop_requested h y, fun z hz => ?_, fun {q z} hz hne => ?_,
      fun ho => ownedBy_pop h ho y⟩
    · obtain ⟨tr, hget, hprofile⟩ := hz
      obtain ⟨hne, hget⟩ := pop_get? h hget
      exact absurd (h.unique ⟨tr, hget, hprofile⟩ hlive) hne
    · refine live_pop h hz ?_
      rintro rfl
      obtain ⟨tr, hget, rfl⟩ := hz
      obtain ⟨tr', hget', rfl⟩ := hlive
      rw [hget] at hget'
      cases hget'
      exact hne rfl

/-- After `track`, the activation has a tracker or is already reported; other profiles keep
theirs. -/
structure Tracked (t t' : ProfileActivationTracker) (p x : String) : Prop where
  coherent : Coherent t'
  self : Live t' p x ∨ Reported t' p x
  other : ∀ {q y}, Live t q y → q ≠ p → Live t' q y ∨ Reported t' q y
  reported : ∀ {q y}, Reported t q y → Reported t' q y
  owned : ∀ {owner}, OwnedBy t owner → owner x = some p → OwnedBy t' owner

theorem Tracked.expires {u v : ProfileActivationTracker} {p x : String} (h : Tracked t u p x)
    (hexpires : Expires u v) : Tracked t v p x := by
  refine ⟨hexpires.coherent, ?_, fun hlive hne => ?_, fun hr => hexpires.reported (h.reported hr),
    fun ho hx => hexpires.owned (h.owned ho hx)⟩
  · rcases h.self with hlive | hr
    · exact hexpires.live hlive
    · exact Or.inr (hexpires.reported hr)
  · rcases h.other hlive hne with hlive | hr
    · exact hexpires.live hlive
    · exact Or.inr (hexpires.reported hr)

theorem tracked_install (h : Coherent t) (howned : OwnedBy t owner) {p x : String}
    (hx : owner x = some p) (hname : tr.activationId = x) (hprofile : tr.profileName = p)
    (hunexpired : tr.expired = false) (hstrip : strip x = x ∧ x ≠ "") :
    Tracked t { t.dropPrevious p x with
      trackers := (t.dropPrevious p x).trackers.insert x tr
      activationByProfile := (t.dropPrevious p x).activationByProfile.insert p x } p x := by
  obtain ⟨hcoherent, hrequested, hfree, hother, hkeep⟩ := dropPrevious_spec h p x
  refine ⟨installed hcoherent (hkeep howned) hx hname hprofile hunexpired hstrip hfree,
    Or.inl ⟨tr, Dict.get?_insert_self _ _ _, hprofile⟩, fun {q y} hlive hne => Or.inl ?_,
    fun {q y} hr => ?_, fun ho hx y tr' hy => ?_⟩
  · obtain ⟨tr', hget, rfl⟩ := hother hlive hne
    refine ⟨tr', ?_, rfl⟩
    rw [Dict.get?_insert, if_neg, hget]
    rintro rfl
    have howner := hkeep howned hget
    rw [hx] at howner
    exact hne (Option.some.inj howner).symm
  · show _ ∈ (t.dropPrevious p x).requested
    rw [hrequested]
    exact hr
  · rw [Dict.get?_insert] at hy
    split at hy
    · cases hy
      rename_i heq
      rw [heq, hx, hprofile]
    · exact hkeep ho hy

theorem tracked_track (h : Coherent t) (howned : OwnedBy t owner) {p x : String}
    (hx : owner x = some p) (hstrip : strip x = x ∧ x ≠ "") (hp : strip p = p ∧ p ≠ "")
    (triggerId : String) {d : ProfileDeactivationPolicy} (hd : d.hasCondition = true) :
    Tracked t (t.track p x triggerId d) p x := by
  simp only [ProfileActivationTracker.track, hp.1, hp.2, hstrip.1, hstrip.2, hd, false_or,
    Bool.true_eq_false, if_false]
  let tr : RuntimeProfileActivationTracker := .mk p x (strip triggerId) d 0 false
  have hinstalled := tracked_install h howned hx (rfl : tr.activationId = x) rfl rfl hstrip
  split
  · exact hinstalled.expires (expires_expire hinstalled.coherent (hinstalled.owned howned hx) hx)
  · exact hinstalled

end Keymasq.Activation.Tracker
