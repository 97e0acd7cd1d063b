import Keymasq.Activation.Tracker
import Keymasq.Foundation.Transition

/-!
# Deactivate requests

The tracker as the event loop drives it. An expiry schedules a task of its own
that sends the deactivate request. Seen from one activation the two tables are
a small automaton, its lifecycle: which tracker an event leaves, and whether it
schedules a request.
-/

namespace Keymasq.Activation.Requests
open Foundation Foundation.Strings Foundation.Transition Tracker Keymasq.Profile.Model

inductive Event
  | track (profileName activationId triggerId : String) (deactivation : ProfileDeactivationPolicy)
  | cancel (profileName activationId : String)
  | reset
  | triggerStart (triggerId : String)
  | triggerEnd (triggerId : String)
  | recordAction (triggerId : String)
  | timeout (activationId : String)
  | broadcast

/-- No request leaves the list of scheduled ones here; `sent` of their tasks have run, in order. -/
structure Loop where
  tracker : ProfileActivationTracker := {}
  sent : ℕ := 0

def Loop.issued (s : Loop) : List DeactivateRequest := s.tracker.requested.take s.sent

def act (t : ProfileActivationTracker) : Event → Option ProfileActivationTracker
  | .track profileName activationId triggerId deactivation =>
    some (t.track profileName activationId triggerId deactivation)
  | .cancel profileName activationId => some (t.cancel profileName activationId)
  | .reset => some t.reset
  | .triggerStart triggerId => some (t.observeTriggerStart triggerId)
  | .triggerEnd triggerId => some (t.observeTriggerEnd triggerId)
  | .recordAction triggerId => some (t.recordAction triggerId)
  | .timeout activationId => t.timeoutAfter activationId
  | .broadcast => some t

/- `_broadcast_expiry` is a task: it runs on a later turn of the loop. -/
def step (s : Loop) : Event → Option Loop
  | .broadcast =>
    if s.sent < s.tracker.requested.length then some { s with sent := s.sent + 1 } else none
  | e => (act s.tracker e).map fun tracker => { s with tracker }

/-! ## The lifecycle of one activation -/

namespace Event

/- The tracker a `track` call makes; without a profile, an id or a condition it makes none. -/
def tracker : Event → Option RuntimeProfileActivationTracker
  | .track profileName activationId triggerId deactivation =>
    if strip profileName = "" ∨ strip activationId = "" ∨ deactivation.hasCondition = false then
      none
    else some
      { profileName := strip profileName
        activationId := strip activationId
        triggerId := strip triggerId
        deactivation }
  | _ => none

def tracks (x : String) (e : Event) : Bool := e.tracker.any (·.activationId = x)

/-- Every activation is made for one profile. -/
def Owned (owner : String → String) (e : Event) : Prop :=
  ∀ tr, e.tracker = some tr → owner tr.activationId = tr.profileName

/-- The event cancels the activation, or a newer one of its profile supersedes it. -/
def Drops (owner : String → String) (x : String) (e : Event) : Prop :=
  match e with
  | .cancel profileName activationId =>
    strip activationId = x ∨
      (strip activationId = "" ∧ strip profileName ≠ "" ∧ strip profileName = owner x)
  | .reset => True
  | e => ∃ tr, e.tracker = some tr ∧ tr.profileName = owner x ∧ tr.activationId ≠ x

end Event

def limit (tr : RuntimeProfileActivationTracker) : Option ℤ :=
  ProfileDeactivationPolicy.positiveIntOrNone tr.deactivation.afterActions

/- Actions of the trigger that made the activation do not count towards its limit. -/
def counts (tr : RuntimeProfileActivationTracker) (triggerId : String) : Bool :=
  !(strip triggerId ≠ "" && tr.triggerId = strip triggerId)

def endedBy (tr : RuntimeProfileActivationTracker) (triggerId : String) : Bool :=
  strip triggerId ≠ "" && tr.triggerId = strip triggerId && tr.deactivation.onTriggerEnd

def recorded (tr : RuntimeProfileActivationTracker) (es : List Event) : ℕ :=
  es.countP fun e => match e with
    | .recordAction triggerId => counts tr triggerId
    | _ => false

/-- The tracker an event leaves to the activation `x`, and whether it schedules a request. -/
def lifecycle (active : Finset String) (x : String)
    (current : Option RuntimeProfileActivationTracker) (e : Event) :
    Option RuntimeProfileActivationTracker × Bool :=
  match e with
  | .track profileName activationId triggerId deactivation =>
    match (Event.track profileName activationId triggerId deactivation).tracker with
    | none => (current, false)
    | some tr =>
      if tr.activationId = x then
        if tr.deactivation.onTriggerEnd = true ∧ tr.triggerId ≠ "" ∧ tr.triggerId ∉ active then
          (none, true)
        else (some tr, false)
      else if current.any (·.profileName = tr.profileName) then (none, false)
      else (current, false)
  | .cancel profileName activationId =>
    if strip activationId = x ∨ (strip activationId = "" ∧ strip profileName ≠ "" ∧
        current.any (·.profileName = strip profileName)) then (none, false)
    else (current, false)
  | .reset => (none, false)
  | .triggerEnd triggerId =>
    if current.any (endedBy · triggerId) then (none, true) else (current, false)
  | .recordAction triggerId =>
    match current with
    | none => (none, false)
    | some tr =>
      match if counts tr triggerId then limit tr else none with
      | none => (some tr, false)
      | some threshold =>
        if threshold ≤ tr.actionCount + 1 then (none, true)
        else (some { tr with actionCount := tr.actionCount + 1 }, false)
  | .timeout activationId =>
    if activationId = x then (none, current.isSome) else (current, false)
  | .triggerStart _ => (current, false)
  | .broadcast => (current, false)

section

variable {active : Finset String} {x : String} {current : Option RuntimeProfileActivationTracker}

theorem lifecycle_cancel (profileName activationId : String) :
    lifecycle active x current (.cancel profileName activationId) =
      if strip activationId = x ∨ (strip activationId = "" ∧ strip profileName ≠ "" ∧
        current.any (·.profileName = strip profileName)) then (none, false)
      else (current, false) := rfl

theorem lifecycle_triggerEnd (triggerId : String) :
    lifecycle active x current (.triggerEnd triggerId) =
      if current.any (endedBy · triggerId) then (none, true) else (current, false) := rfl

theorem lifecycle_recordAction (tr : RuntimeProfileActivationTracker) (triggerId : String) :
    lifecycle active x (some tr) (.recordAction triggerId) =
      match if counts tr triggerId then limit tr else none with
      | none => (some tr, false)
      | some threshold =>
        if threshold ≤ tr.actionCount + 1 then (none, true)
        else (some { tr with actionCount := tr.actionCount + 1 }, false) := rfl

theorem lifecycle_timeout (activationId : String) :
    lifecycle active x current (.timeout activationId) =
      if activationId = x then (none, current.isSome) else (current, false) := rfl

end

/-- The requests scheduled for an activation. -/
def requests (t : ProfileActivationTracker) (x : String) : ℕ :=
  t.requested.countP (·.activationId = x)

/-! ## The tables follow the lifecycles -/

/-- From `t` to `t'` every activation moves as `out` says. -/
structure Yields (t t' : ProfileActivationTracker)
    (out : String → Option RuntimeProfileActivationTracker × Bool) : Prop where
  coherent : Coherent t'
  tracker : ∀ x, t'.trackers.get? x = (out x).1
  requests : ∀ x, requests t' x = requests t x + (out x).2.toNat

variable {t t' u : ProfileActivationTracker} {owner : String → String} {e : Event}
  {tr : RuntimeProfileActivationTracker}

theorem Yields.stay (h : Coherent t) : Yields t t fun x => (t.trackers.get? x, false) :=
  ⟨h, fun _ => rfl, fun _ => rfl⟩

theorem Yields.of_eq {out out' : String → Option RuntimeProfileActivationTracker × Bool}
    (h : Yields t t' out) (heq : ∀ x, out x = out' x) : Yields t t' out' := by
  have hout : out = out' := funext heq
  rwa [← hout]

/-- Trackers outside the table never expire; one in it leaves with one request. -/
theorem yields_expire (h : Coherent t) {current : RuntimeProfileActivationTracker}
    (hget : t.trackers.get? tr.activationId = some current) :
    Yields t (t.expire tr) fun x =>
      if x = tr.activationId then (none, true) else (t.trackers.get? x, false) := by
  obtain ⟨hstrip, hne⟩ := h.stripped hget
  have hexpire : t.expire tr = { t.pop tr.activationId with
      requested := t.requested ++ [⟨tr.profileName, tr.activationId⟩] } := by
    simp only [ProfileActivationTracker.expire, hget, h.unexpired hget, Bool.false_eq_true,
      if_false, cancel_of_stripped hstrip hne, pop_requested h]
  have hpop := coherent_pop h tr.activationId
  rw [hexpire]
  refine ⟨⟨hpop.named, hpop.stripped, hpop.unexpired, hpop.current, hpop.indexed⟩,
    fun x => ?_, fun x => ?_⟩
  · show (t.pop tr.activationId).trackers.get? x = _
    rw [pop_trackers h]
    split <;> rfl
  · show List.countP _ (t.requested ++ _) = _
    rw [List.countP_append, List.countP_singleton]
    by_cases hx : x = tr.activationId
    · simp only [hx, decide_true, if_true, Bool.toNat_true]
      rfl
    · have hx' : ¬tr.activationId = x := fun heq => hx heq.symm
      simp only [if_neg hx, decide_eq_true_eq, if_neg hx', Bool.toNat_false]
      rfl

/-- A loop over the table in which every tracker moves on its own. -/
theorem yields_foldl
    {f : ProfileActivationTracker → RuntimeProfileActivationTracker → ProfileActivationTracker}
    (out : RuntimeProfileActivationTracker → Option RuntimeProfileActivationTracker × Bool)
    (hf : ∀ {u tr}, Coherent u → u.trackers.get? tr.activationId = some tr →
      Yields u (f u tr) fun x =>
        if x = tr.activationId then out tr else (u.trackers.get? x, false))
    (h : Coherent t) :
    Yields t (t.trackers.values.foldl f t) fun x =>
      ((t.trackers.get? x).map out).getD (none, false) := by
  have hloop : ∀ (trs : List RuntimeProfileActivationTracker) (u : ProfileActivationTracker),
      Coherent u → (trs.map (·.activationId)).Nodup →
      (∀ tr ∈ trs, u.trackers.get? tr.activationId = some tr) →
      Yields u (trs.foldl f u) fun x =>
        ((trs.find? (·.activationId = x)).map out).getD (u.trackers.get? x, false) := by
    intro trs
    induction trs with
    | nil => exact fun u hu _ _ => Yields.stay hu
    | cons tr trs ih =>
      intro u hu hnodup hmem
      rw [List.map_cons, List.nodup_cons] at hnodup
      have hone := hf hu (hmem tr List.mem_cons_self)
      have hrest := ih (f u tr) hone.coherent hnodup.2 fun tr' htr' => by
        have hne : tr'.activationId ≠ tr.activationId := fun heq =>
          hnodup.1 (heq ▸ List.mem_map_of_mem htr')
        rw [hone.tracker, if_neg hne]
        exact hmem tr' (List.mem_cons_of_mem _ htr')
      have hnone : trs.find? (·.activationId = tr.activationId) = none := by
        rw [List.find?_eq_none]
        intro tr' htr' heq
        exact hnodup.1 (of_decide_eq_true heq ▸ List.mem_map_of_mem htr')
      refine ⟨hrest.coherent, fun x => ?_, fun x => ?_⟩
      · rw [List.foldl_cons, hrest.tracker, hone.tracker, List.find?_cons]
        by_cases hx : x = tr.activationId
        · subst hx
          simp only [hnone, Option.map_none, Option.getD_none, if_true, decide_true,
            Option.map_some, Option.getD_some]
        · have hx' : ¬tr.activationId = x := fun heq => hx heq.symm
          simp only [if_neg hx, decide_eq_false hx']
      · rw [List.foldl_cons, hrest.requests, hone.requests, hone.tracker, List.find?_cons]
        by_cases hx : x = tr.activationId
        · subst hx
          simp only [hnone, Option.map_none, Option.getD_none, if_true, decide_true,
            Option.map_some, Option.getD_some, Bool.toNat_false, Nat.add_zero]
        · have hx' : ¬tr.activationId = x := fun heq => hx heq.symm
          simp only [if_neg hx, decide_eq_false hx', Bool.toNat_false, Nat.add_zero]
  have hvalues : t.trackers.values.map (·.activationId) = t.trackers.keys := by
    rw [Dict.values, Dict.keys, List.map_map]
    exact List.map_congr_left fun e he => h.named (Dict.get?_eq_some_iff.mpr he)
  have hmem : ∀ tr ∈ t.trackers.values, t.trackers.get? tr.activationId = some tr := by
    intro tr htr
    obtain ⟨x, hx⟩ := Dict.mem_values_iff.mp htr
    rw [h.named hx, hx]
  refine (hloop _ t h (hvalues ▸ t.trackers.nodup) hmem).of_eq fun x => ?_
  cases hget : t.trackers.get? x with
  | none =>
    have hfind : t.trackers.values.find? (·.activationId = x) = none := by
      rw [List.find?_eq_none]
      intro tr htr heq
      have hsome := hmem tr htr
      rw [of_decide_eq_true heq, hget] at hsome
      cases hsome
    rw [hfind]
  | some tr =>
    have hsome : (t.trackers.values.find? (·.activationId = x)).isSome := by
      rw [List.find?_isSome]
      exact ⟨tr, Dict.mem_values_iff.mpr ⟨x, hget⟩, decide_eq_true (h.named hget)⟩
    obtain ⟨tr', hfind⟩ := Option.isSome_iff_exists.mp hsome
    have hx : tr'.activationId = x := by
      have hfound := List.find?_some hfind
      exact of_decide_eq_true hfound
    have heq := hmem tr' (List.mem_of_find?_eq_some hfind)
    rw [hx, hget] at heq
    cases heq
    rw [hfind]
    rfl

theorem yields_pop (h : Coherent t) (y : String) :
    Yields t (t.pop y) fun x => if x = y then (none, false) else (t.trackers.get? x, false) := by
  refine ⟨coherent_pop h y, fun x => ?_, fun x => ?_⟩
  · rw [pop_trackers h]
    split <;> rfl
  · rw [requests, pop_requested h]
    split <;> rfl

variable (active : Finset String)

theorem yields_cancel (h : Coherent t) (profileName activationId : String) :
    Yields t (t.cancel profileName activationId) fun x =>
      lifecycle active x (t.trackers.get? x) (.cancel profileName activationId) := by
  have hblank : t.trackers.get? "" = none := by
    cases hget : t.trackers.get? "" with
    | none => rfl
    | some tr => exact absurd rfl (h.stripped hget).2
  by_cases hid : strip activationId = ""
  · by_cases hprofile : strip profileName = ""
    · have hcancel : t.cancel profileName activationId = t := by
        simp only [ProfileActivationTracker.cancel, hid, hprofile, ne_eq, not_true, and_false,
          if_false, if_true]
      rw [hcancel]
      refine (Yields.stay h).of_eq fun x => ?_
      by_cases hx : x = ""
      · simp only [lifecycle_cancel, hx, hblank, hid, true_or, if_true]
      · have hx' : ¬"" = x := fun heq => hx heq.symm
        simp only [lifecycle_cancel, hid, hprofile, ne_eq, not_true, false_and, and_false, hx', or_self,
          if_false]
    · generalize hcurrent : t.activationByProfile.getD (strip profileName) "" = y
      have hcancel : t.cancel profileName activationId = if y = "" then t else t.pop y := by
        simp only [ProfileActivationTracker.cancel, hid, hprofile, ne_eq, not_false_eq_true,
          and_self, if_true, hcurrent]
      have hprofiles : ∀ x, (t.trackers.get? x).any (·.profileName = strip profileName) = true ↔
          y ≠ "" ∧ x = y := by
        intro x
        constructor
        · intro hany
          obtain ⟨tr, hget, hp⟩ := (Option.any_eq_true _ _).mp hany
          have hlive : Live t (strip profileName) x := ⟨tr, hget, of_decide_eq_true hp⟩
          rw [← hcurrent, getD_of_live h hlive]
          exact ⟨(h.stripped hget).2, rfl⟩
        · rintro ⟨hne, rfl⟩
          obtain ⟨tr, hget, hp⟩ := live_of_getD h (hcurrent ▸ hne)
          rw [hcurrent] at hget
          exact (Option.any_eq_true _ _).mpr ⟨tr, hget, decide_eq_true hp⟩
      rw [hcancel]
      by_cases hy : y = ""
      · rw [if_pos hy]
        refine (Yields.stay h).of_eq fun x => ?_
        have hany : ¬(t.trackers.get? x).any (·.profileName = strip profileName) = true :=
          fun hany => ((hprofiles x).mp hany).1 hy
        by_cases hx : x = ""
        · simp only [lifecycle_cancel, hx, hblank, hid, true_or, if_true]
        · have hx' : ¬"" = x := fun heq => hx heq.symm
          simp only [lifecycle_cancel, hid, hx', hany, and_false, or_self, if_false, Bool.false_eq_true]
      · rw [if_neg hy]
        refine (yields_pop h y).of_eq fun x => ?_
        by_cases hx : x = y
        · have hany := (hprofiles x).mpr ⟨hy, hx⟩
          simp only [lifecycle_cancel, hid, hprofile, hany, ne_eq, not_false_eq_true, and_self, or_true,
            if_true, if_pos hx]
        · have hany : ¬(t.trackers.get? x).any (·.profileName = strip profileName) = true :=
            fun hany => hx ((hprofiles x).mp hany).2
          rw [if_neg hx]
          by_cases hblank' : x = ""
          · simp only [lifecycle_cancel, hblank', hblank, hid, true_or, if_true]
          · have hx' : ¬"" = x := fun heq => hblank' heq.symm
            simp only [lifecycle_cancel, hid, hx', hany, and_false, or_self, if_false,
              Bool.false_eq_true]
  · have hcancel : t.cancel profileName activationId = t.pop (strip activationId) := by
      simp only [ProfileActivationTracker.cancel, hid, false_and, if_false]
    rw [hcancel]
    refine (yields_pop h _).of_eq fun x => ?_
    simp only [lifecycle_cancel, hid, false_and, or_false, eq_comm]

theorem yields_reset : Yields t t.reset fun _ => (none, false) :=
  ⟨⟨nofun, nofun, nofun, nofun, nofun⟩, fun _ => rfl, fun _ => rfl⟩

theorem yields_observeTriggerStart (h : Coherent t) (triggerId : String) :
    Yields t (t.observeTriggerStart triggerId) fun x => (t.trackers.get? x, false) := by
  have hstart := expires_observeTriggerStart h triggerId
  simp only [ProfileActivationTracker.observeTriggerStart] at hstart ⊢
  split
  · exact Yields.stay h
  · rename_i hblank
    rw [if_neg hblank] at hstart
    exact ⟨hstart.coherent, fun _ => rfl, fun _ => rfl⟩

theorem yields_observeTriggerEnd (h : Coherent t) (triggerId : String) :
    Yields t (t.observeTriggerEnd triggerId) fun x =>
      lifecycle active x (t.trackers.get? x) (.triggerEnd triggerId) := by
  simp only [ProfileActivationTracker.observeTriggerEnd]
  split
  · rename_i hblank
    refine (Yields.stay h).of_eq fun x => ?_
    have hended : ∀ tr, endedBy tr triggerId = false := fun tr => by
      simp only [endedBy, hblank, ne_eq, not_true, decide_false, Bool.false_and]
    cases hget : t.trackers.get? x with
    | none => rfl
    | some tr => simp only [lifecycle_triggerEnd, Option.any_some, hended, Bool.false_eq_true, if_false]
  · rename_i hne
    have hdiscarded : Coherent { t with
        activeTriggerIds := t.activeTriggerIds.erase (strip triggerId) } :=
      ⟨h.named, h.stripped, h.unexpired, h.current, h.indexed⟩
    have hloop := yields_foldl (f := ProfileActivationTracker.endTrigger (strip triggerId))
      (fun tr => if endedBy tr triggerId then (none, true) else (some tr, false))
      (fun {u tr} hu hget => by
        unfold ProfileActivationTracker.endTrigger
        have hended : (tr.triggerId = strip triggerId ∧ tr.deactivation.onTriggerEnd = true ∧
            tr.expired = false) ↔ endedBy tr triggerId = true := by
          simp only [endedBy, hne, hu.unexpired hget, ne_eq, not_false_eq_true, decide_true,
            Bool.true_and, and_true, Bool.and_eq_true, decide_eq_true_eq]
        by_cases hcase : endedBy tr triggerId = true
        · rw [if_pos (hended.mpr hcase)]
          simp only [hcase, if_true]
          exact yields_expire hu hget
        · rw [if_neg (fun heq => hcase (hended.mp heq))]
          refine (Yields.stay hu).of_eq fun x => ?_
          simp only [hcase, Bool.false_eq_true, if_false]
          split
          · rename_i hx
            rw [hx, hget]
          · rfl)
      hdiscarded
    refine ⟨hloop.coherent, fun x => (hloop.tracker x).trans ?_,
      fun x => (hloop.requests x).trans ?_⟩
    · cases hget : t.trackers.get? x with
      | none => rfl
      | some tr =>
        simp only [lifecycle_triggerEnd, Option.any_some, Option.map_some, Option.getD_some]
    · cases hget : t.trackers.get? x with
      | none => rfl
      | some tr =>
        simp only [lifecycle_triggerEnd, Option.any_some, Option.map_some, Option.getD_some]
        rfl

/-- The counter of a tracker moves in place. -/
theorem yields_count (h : Coherent t) (y : String) :
    Yields t { t with trackers := t.trackers.mapVal fun activationId other =>
        if activationId = y then { other with actionCount := other.actionCount + 1 } else other }
      fun x => ((t.trackers.get? x).map fun other =>
        if x = y then { other with actionCount := other.actionCount + 1 } else other, false) := by
  refine ⟨⟨fun {x tr} hx => ?_, fun {x tr} hx => ?_, fun {x tr} hx => ?_, fun {x tr} hx => ?_,
    fun {p x} hp => ?_⟩, fun x => Dict.get?_mapVal _ _ _, fun _ => rfl⟩
  · rw [Dict.get?_mapVal] at hx
    obtain ⟨other, hget, rfl⟩ := Option.map_eq_some_iff.mp hx
    have hname := h.named hget
    split <;> exact hname
  · rw [Dict.get?_mapVal] at hx
    obtain ⟨other, hget, -⟩ := Option.map_eq_some_iff.mp hx
    exact h.stripped hget
  · rw [Dict.get?_mapVal] at hx
    obtain ⟨other, hget, rfl⟩ := Option.map_eq_some_iff.mp hx
    have hunexpired := h.unexpired hget
    split <;> exact hunexpired
  · rw [Dict.get?_mapVal] at hx
    obtain ⟨other, hget, rfl⟩ := Option.map_eq_some_iff.mp hx
    have hcurrent := h.current hget
    split <;> exact hcurrent
  · obtain ⟨other, hget, hprofile⟩ := h.indexed hp
    refine ⟨_, by rw [Dict.get?_mapVal, hget]; rfl, ?_⟩
    split <;> exact hprofile

theorem yields_countAction (h : Coherent t) (triggerId : String)
    (hget : t.trackers.get? tr.activationId = some tr) :
    Yields t (t.countAction (strip triggerId) tr) fun x =>
      if x = tr.activationId then lifecycle active x (some tr) (.recordAction triggerId)
      else (t.trackers.get? x, false) := by
  have hstay : lifecycle active tr.activationId (some tr) (.recordAction triggerId) =
      (some tr, false) → Yields t t fun x =>
        if x = tr.activationId then lifecycle active x (some tr) (.recordAction triggerId)
        else (t.trackers.get? x, false) := by
    intro hsame
    refine (Yields.stay h).of_eq fun x => ?_
    split
    · rename_i hx
      rw [hx, hsame, hget]
    · rfl
  have hcounts : (tr.expired = true ∨ strip triggerId ≠ "" ∧ tr.triggerId = strip triggerId) ↔
      counts tr triggerId = false := by
    simp only [counts, h.unexpired hget, Bool.false_eq_true, false_or, Bool.not_eq_false',
      Bool.and_eq_true, decide_eq_true_eq]
  unfold ProfileActivationTracker.countAction
  by_cases hskip : counts tr triggerId = false
  · rw [if_pos (hcounts.mpr hskip)]
    exact hstay (by simp only [lifecycle_recordAction, hskip, Bool.false_eq_true, if_false])
  · rw [if_neg (fun hor => hskip (hcounts.mp hor))]
    rw [Bool.not_eq_false] at hskip
    cases hafter : tr.deactivation.afterActions with
    | none =>
      have hlimit : limit tr = none := by rw [limit, hafter]; rfl
      exact hstay (by simp only [lifecycle_recordAction, hlimit, ite_self])
    | some threshold =>
      by_cases hpos : threshold ≤ 0
      · have hlimit : limit tr = none := by
          have hnot : ¬0 < threshold := by omega
          rw [limit, hafter, ProfileDeactivationPolicy.positiveIntOrNone, Option.filter_some,
            decide_eq_false hnot]
          rfl
        simp only [if_pos hpos]
        exact hstay (by simp only [lifecycle_recordAction, hlimit, ite_self])
      · have hlimit : limit tr = some threshold := by
          have hgt : 0 < threshold := by omega
          rw [limit, hafter, ProfileDeactivationPolicy.positiveIntOrNone, Option.filter_some,
            decide_eq_true hgt]
          rfl
        simp only [if_neg hpos]
        have hcount := yields_count h tr.activationId
        generalize hmoved : ({ t with trackers := t.trackers.mapVal fun activationId other =>
          if activationId = tr.activationId then
            { other with actionCount := other.actionCount + 1 }
          else other } : ProfileActivationTracker) = moved at hcount ⊢
        have hself := hcount.tracker tr.activationId
        rw [hget, Option.map_some, if_pos rfl] at hself
        have hothers : ∀ x, x ≠ tr.activationId → moved.trackers.get? x = t.trackers.get? x := by
          intro x hx
          rw [hcount.tracker]
          simp only [if_neg hx, Option.map_id_fun', id_eq]
        by_cases hreached : threshold ≤ tr.actionCount + 1
        · rw [if_pos hreached]
          have hexpire := yields_expire hcount.coherent hself
          refine ⟨hexpire.coherent, fun x => ?_, fun x => ?_⟩
          · rw [hexpire.tracker]
            by_cases hx : x = tr.activationId
            · simp only [if_pos hx, lifecycle_recordAction, hskip, hlimit, if_true, if_pos hreached]
            · simp only [if_neg hx, hothers x hx]
          · rw [hexpire.requests, hcount.requests]
            by_cases hx : x = tr.activationId
            · simp only [if_pos hx, lifecycle_recordAction, hskip, hlimit, if_true, if_pos hreached]
              rfl
            · simp only [if_neg hx]
              rfl
        · rw [if_neg hreached]
          refine hcount.of_eq fun x => ?_
          by_cases hx : x = tr.activationId
          · simp only [hx, hget, lifecycle_recordAction, hskip, hlimit, if_true, if_neg hreached,
              Option.map_some]
          · simp only [if_neg hx, Option.map_id_fun', id_eq]

theorem yields_recordAction (h : Coherent t) (triggerId : String) :
    Yields t (t.recordAction triggerId) fun x =>
      lifecycle active x (t.trackers.get? x) (.recordAction triggerId) := by
  have hloop := yields_foldl
    (fun tr => lifecycle active tr.activationId (some tr) (.recordAction triggerId))
    (fun {u tr} hu hget => (yields_countAction active hu triggerId hget).of_eq fun x => by
      split
      · rename_i hx
        rw [hx]
      · rfl) h
  refine hloop.of_eq fun x => ?_
  cases hget : t.trackers.get? x with
  | none => rfl
  | some tr => rw [Option.map_some, Option.getD_some, h.named hget]

theorem yields_timeoutAfter (h : Coherent t) {y : String} (htimeout : t.timeoutAfter y = some t') :
    Yields t t' fun x => lifecycle active x (t.trackers.get? x) (.timeout y) := by
  unfold ProfileActivationTracker.timeoutAfter at htimeout
  cases hget : t.trackers.get? y with
  | none =>
    rw [hget] at htimeout
    cases htimeout
  | some tr =>
    have hname := h.named hget
    simp only [hget] at htimeout
    split at htimeout
    · cases htimeout
    · cases htimeout
      have hexpire := yields_expire h (hname ▸ hget)
      rw [hname] at hexpire
      refine hexpire.of_eq fun x => ?_
      by_cases hx : x = y
      · simp only [lifecycle_timeout, hx, if_true, hget, Option.isSome_some]
      · have hx' : ¬y = x := fun heq => hx heq.symm
        simp only [lifecycle_timeout, if_neg hx, if_neg hx']

theorem dropPrevious_activeTriggerIds (h : Coherent t) (p x : String) :
    (t.dropPrevious p x).activeTriggerIds = t.activeTriggerIds := by
  rcases dropPrevious_cases h p x with ⟨heq, -⟩ | ⟨y, -, ⟨tr, hget, -⟩, heq⟩
  · rw [heq]
  · rw [heq, pop_some h hget]

theorem dropPrevious_tracker (h : Coherent t) (p x : String) {y : String} (hne : y ≠ x) :
    (t.dropPrevious p x).trackers.get? y =
      if (t.trackers.get? y).any (·.profileName = p) then none else t.trackers.get? y := by
  have hany : (t.trackers.get? y).any (·.profileName = p) = true ↔ Live t p y := by
    simp only [Option.any_eq_true, decide_eq_true_eq, Live]
  rcases dropPrevious_cases h p x with ⟨heq, honly⟩ | ⟨z, -, hlive, heq⟩
  · rw [heq, if_neg (fun htrue => hne (honly y (hany.mp htrue)))]
  · rw [heq, pop_trackers h]
    by_cases hy : y = z
    · rw [if_pos hy, if_pos (hany.mpr (hy ▸ hlive))]
    · rw [if_neg hy, if_neg (fun htrue => hy (h.unique (hany.mp htrue) hlive))]

theorem yields_track (h : Coherent t) (howned : OwnedBy t fun x => some (owner x))
    {p y triggerId : String} {d : ProfileDeactivationPolicy}
    (hevent : (Event.track p y triggerId d).Owned owner) :
    Yields t (t.track p y triggerId d) fun x =>
      lifecycle t.activeTriggerIds x (t.trackers.get? x) (.track p y triggerId d) := by
  simp only [ProfileActivationTracker.track, lifecycle]
  cases htracker : (Event.track p y triggerId d).tracker with
  | none =>
    simp only [Event.tracker, ite_eq_left_iff, reduceCtorEq, imp_false, not_not] at htracker
    rw [if_pos htracker]
    exact Yields.stay h
  | some tr =>
    have howner := hevent tr htracker
    simp only [Event.tracker] at htracker
    split at htracker
    · cases htracker
    · rename_i hvalid
      have htr := Option.some.inj htracker
      have hname : tr.activationId = strip y := by rw [← htr]
      have hprofile : tr.profileName = strip p := by rw [← htr]
      have htrigger : tr.triggerId = strip triggerId := by rw [← htr]
      have hpolicy : tr.deactivation = d := by rw [← htr]
      have hunexpired : tr.expired = false := by rw [← htr]
      have hne : strip y ≠ "" := fun heq => hvalid (Or.inr (Or.inl heq))
      rw [hname, hprofile] at howner
      have hinstalled := tracked_install h howned (congrArg some howner) hname hprofile hunexpired
        ⟨strip_strip y, hne⟩
      have hrequested := (dropPrevious_spec h (strip p) (strip y)).2.1
      have hactive := dropPrevious_activeTriggerIds h (strip p) (strip y)
      have hdropped := fun x => @dropPrevious_tracker t h (strip p) (strip y) x
      rw [if_neg hvalid, htr]
      simp only [hname, hprofile, htrigger, hpolicy]
      generalize t.dropPrevious (strip p) (strip y) = u at hinstalled hrequested hactive hdropped ⊢
      rw [← hactive]
      obtain ⟨moved, hmoved⟩ : ∃ moved : ProfileActivationTracker, { u with
        trackers := u.trackers.insert (strip y) tr
        activationByProfile := u.activationByProfile.insert (strip p) (strip y) } = moved :=
          ⟨_, rfl⟩
      rw [hmoved] at hinstalled
      have htable : Yields t moved fun x =>
          if strip y = x then (some tr, false)
          else if (t.trackers.get? x).any (·.profileName = strip p) then (none, false)
          else (t.trackers.get? x, false) := by
        rw [← hmoved]
        refine ⟨hmoved.symm ▸ hinstalled.coherent, fun x => ?_, fun x => ?_⟩
        · show Dict.get? (Dict.insert _ _ _) x = _
          rw [Dict.get?_insert]
          by_cases hx : x = strip y
          · rw [if_pos hx, if_pos hx.symm]
          · rw [if_neg hx, if_neg (Ne.symm hx), hdropped x hx]
            split <;> rfl
        · rw [requests, hrequested]
          split
          · rfl
          · split <;> rfl
      by_cases hended : d.onTriggerEnd = true ∧ strip triggerId ≠ "" ∧
          strip triggerId ∉ u.activeTriggerIds
      · simp only [if_pos hended, hmoved]
        have hget : moved.trackers.get? tr.activationId = some tr := by
          rw [htable.tracker, if_pos hname.symm]
        have hexpire := yields_expire htable.coherent hget
        rw [hname] at hexpire
        refine ⟨hexpire.coherent, fun x => ?_, fun x => ?_⟩
        · rw [hexpire.tracker, htable.tracker]
          by_cases hx : x = strip y
          · simp only [hx, if_true]
          · have hx' : ¬strip y = x := fun heq => hx heq.symm
            simp only [if_neg hx, if_neg hx']
        · rw [hexpire.requests, htable.requests]
          by_cases hx : x = strip y
          · simp only [hx, if_true]
            rfl
          · have hx' : ¬strip y = x := fun heq => hx heq.symm
            simp only [if_neg hx, if_neg hx', Bool.toNat_false, Nat.add_zero]
      · simp only [if_neg hended, hmoved]
        exact htable

/-- One turn of the loop moves every activation along its lifecycle. -/
theorem act_yields (h : Coherent t) (howned : OwnedBy t fun x => some (owner x))
    (hevent : e.Owned owner) (hact : act t e = some t') :
    Yields t t' fun x => lifecycle t.activeTriggerIds x (t.trackers.get? x) e := by
  cases e with
  | track p y triggerId d =>
    rw [← Option.some.inj hact]
    exact yields_track h howned hevent
  | cancel p y =>
    rw [← Option.some.inj hact]
    exact yields_cancel _ h p y
  | reset =>
    rw [← Option.some.inj hact]
    exact yields_reset
  | triggerStart triggerId =>
    rw [← Option.some.inj hact]
    exact yields_observeTriggerStart h triggerId
  | triggerEnd triggerId =>
    rw [← Option.some.inj hact]
    exact yields_observeTriggerEnd _ h triggerId
  | recordAction triggerId =>
    rw [← Option.some.inj hact]
    exact yields_recordAction _ h triggerId
  | timeout y =>
    exact yields_timeoutAfter _ h hact
  | broadcast =>
    cases hact
    exact Yields.stay h

/-! ## What a lifecycle can do -/

section Lifecycle

variable {active : Finset String} {x : String} {current : Option RuntimeProfileActivationTracker}
  {tr : RuntimeProfileActivationTracker}

theorem tracks_iff : e.tracks x = true ↔ ∃ tr, e.tracker = some tr ∧ tr.activationId = x := by
  simp only [Event.tracks, Option.any_eq_true, decide_eq_true_eq]

/-- The tracker an event leaves was there before, up to its counter, or was made by the event. -/
theorem lifecycle_some (h : (lifecycle active x current e).1 = some tr) :
    (∃ old, current = some old ∧ old.profileName = tr.profileName) ∨
      (e.tracker = some tr ∧ tr.activationId = x) := by
  have hkeep : current = some tr →
      ∃ old, current = some old ∧ old.profileName = tr.profileName := fun hsome => ⟨tr, hsome, rfl⟩
  unfold lifecycle at h
  split at h
  · split at h
    · exact Or.inl (hkeep h)
    · rename_i made hmade
      split at h
      · rename_i hx
        split at h
        · cases h
        · cases h
          exact Or.inr ⟨hmade, hx⟩
      · split at h
        · cases h
        · exact Or.inl (hkeep h)
  · split at h
    · cases h
    · exact Or.inl (hkeep h)
  · cases h
  · split at h
    · cases h
    · exact Or.inl (hkeep h)
  · split at h
    · cases h
    · split at h
      · exact Or.inl (hkeep h)
      · split at h
        · cases h
        · cases h
          exact Or.inl ⟨_, rfl, rfl⟩
  · split at h
    · cases h
    · exact Or.inl (hkeep h)
  · exact Or.inl (hkeep h)
  · exact Or.inl (hkeep h)

/-- Only a tracker that was there, or that the event makes, ends with a request. -/
theorem lifecycle_budget :
    (lifecycle active x current e).2.toNat + (lifecycle active x current e).1.isSome.toNat ≤
      current.isSome.toNat + (e.tracks x).toNat := by
  unfold lifecycle
  split
  · split
    · simp only [Bool.toNat_false]
      omega
    · rename_i made hmade
      split
      · rename_i hx
        have htracks : Event.tracks x _ = true := tracks_iff.mpr ⟨made, hmade, hx⟩
        simp only [htracks, Bool.toNat_true]
        split
        · simp only [Option.isSome_none, Bool.toNat_false, Bool.toNat_true]
          omega
        · simp only [Option.isSome_some, Bool.toNat_false, Bool.toNat_true]
          omega
      · split
        · simp only [Option.isSome_none, Bool.toNat_false]
          omega
        · simp only [Bool.toNat_false]
          omega
  · split
    · simp only [Option.isSome_none, Bool.toNat_false]
      omega
    · simp only [Bool.toNat_false]
      omega
  · simp only [Option.isSome_none, Bool.toNat_false]
    omega
  · split
    · rename_i hany
      obtain ⟨tr, rfl, -⟩ := (Option.any_eq_true _ _).mp hany
      simp only [Option.isSome_some, Option.isSome_none, Bool.toNat_true, Bool.toNat_false]
      omega
    · simp only [Bool.toNat_false]
      omega
  · split
    · simp only [Option.isSome_none, Bool.toNat_false]
      omega
    · split
      · simp only [Bool.toNat_false]
        omega
      · split
        · simp only [Option.isSome_some, Option.isSome_none, Bool.toNat_true, Bool.toNat_false]
          omega
        · simp only [Option.isSome_some, Bool.toNat_true, Bool.toNat_false]
          omega
  · split
    · simp only [Option.isSome_none, Bool.toNat_false]
      omega
    · simp only [Bool.toNat_false]
      omega
  · simp only [Bool.toNat_false]
    omega
  · simp only [Bool.toNat_false]
    omega

theorem lifecycle_none (hnot : e.tracks x = false) : lifecycle active x none e = (none, false) := by
  have hbudget := @lifecycle_budget e active x none
  rw [hnot] at hbudget
  simp only [Option.isSome_none, Bool.toNat_false] at hbudget
  have hrequest : (lifecycle active x none e).2 = false := by
    cases hcase : (lifecycle active x none e).2 with
    | false => rfl
    | true =>
      rw [hcase, Bool.toNat_true] at hbudget
      omega
  have htracker : (lifecycle active x none e).1 = none := by
    cases hcase : (lifecycle active x none e).1 with
    | none => rfl
    | some tr =>
      rw [hcase, Option.isSome_some, Bool.toNat_true] at hbudget
      omega
  exact Prod.ext htracker hrequest

/-- A request ends the tracking it belongs to. -/
theorem lifecycle_request (h : (lifecycle active x current e).2 = true) :
    (lifecycle active x current e).1 = none ∧ (current ≠ none ∨ e.tracks x = true) := by
  have hbudget := @lifecycle_budget e active x current
  rw [h, Bool.toNat_true] at hbudget
  refine ⟨?_, ?_⟩
  · cases e with
    | track p y triggerId d =>
      simp only [lifecycle] at h ⊢
      cases hmade : (Event.track p y triggerId d).tracker with
      | none => simp only [hmade, Bool.false_eq_true] at h
      | some made =>
        simp only [hmade] at h ⊢
        by_cases hx : made.activationId = x
        · simp only [if_pos hx] at h ⊢
          split at h
          · rename_i hended
            rw [if_pos hended]
          · cases h
        · simp only [if_neg hx] at h
          split at h <;> cases h
    | cancel p y =>
      simp only [lifecycle] at h
      split at h <;> cases h
    | triggerEnd triggerId =>
      simp only [lifecycle] at h ⊢
      split at h
      · rename_i hany
        rw [if_pos hany]
      · cases h
    | recordAction triggerId =>
      cases current with
      | none => rfl
      | some tr =>
        simp only [lifecycle] at h ⊢
        split at h
        · cases h
        · split at h
          · rename_i hreached
            simp only [if_pos hreached]
          · cases h
    | timeout y =>
      simp only [lifecycle] at h ⊢
      split at h
      · rename_i hx
        rw [if_pos hx]
      · cases h
    | reset => rfl
    | triggerStart _ => cases h
    | broadcast => cases h
  · cases current with
    | some tr => exact Or.inl nofun
    | none =>
      right
      cases htracks : e.tracks x with
      | true => rfl
      | false =>
        rw [htracks] at hbudget
        simp only [Option.isSome_none, Bool.toNat_false] at hbudget
        omega

theorem lifecycle_drops (howner : ∀ tr, current = some tr → tr.profileName = owner x)
    (hdrops : e.Drops owner x) : lifecycle active x current e = (none, false) := by
  have hany : current ≠ none → current.any (·.profileName = owner x) = true := by
    intro hne
    obtain ⟨tr, rfl⟩ := Option.ne_none_iff_exists'.mp hne
    exact decide_eq_true (howner tr rfl)
  unfold Event.Drops at hdrops
  split at hdrops
  · rename_i profileName activationId
    simp only [lifecycle]
    rcases hdrops with hx | ⟨hblank, hne, hprofile⟩
    · rw [if_pos (Or.inl hx)]
    · cases current with
      | none => exact ite_self _
      | some tr =>
        rw [if_pos (Or.inr ⟨hblank, hne, hprofile ▸ hany nofun⟩)]
  · rfl
  · obtain ⟨tr, htracker, hprofile, hne⟩ := hdrops
    cases e with
    | track p y triggerId d =>
      simp only [lifecycle, htracker, if_neg hne, hprofile]
      cases current with
      | none => exact ite_self _
      | some tr => rw [if_pos (hany nofun)]
    | _ => cases htracker

end Lifecycle

/-! ## Runs of the loop -/

/-- The tracker tables point at each other. -/
def MutuallyInverse (t : ProfileActivationTracker) : Prop :=
  ∀ p x, t.activationByProfile.get? p = some x ↔
    ∃ tr, t.trackers.get? x = some tr ∧ tr.activationId = x ∧ tr.profileName = p

/-- The activation has a tracker and is the current one of its profile. -/
def Current (t : ProfileActivationTracker) (x : String) : Prop :=
  ∃ tr, t.trackers.get? x = some tr ∧ t.activationByProfile.get? tr.profileName = some x

structure Steady (owner : String → String) (s : Loop) : Prop where
  coherent : Coherent s.tracker
  owned : OwnedBy s.tracker fun x => some (owner x)

section Runs

variable {s s' : Loop} {x : String} {es : List Event}

theorem mutuallyInverse (h : Coherent t) : MutuallyInverse t := by
  intro p x
  constructor
  · intro hp
    obtain ⟨tr, hget, hprofile⟩ := h.indexed hp
    exact ⟨tr, hget, h.named hget, hprofile⟩
  · rintro ⟨tr, hget, -, rfl⟩
    exact h.current hget

theorem step_act (hstep : step s e = some s') : act s.tracker e = some s'.tracker := by
  cases e with
  | broadcast =>
    simp only [step] at hstep
    split at hstep
    · cases hstep
      rfl
    · cases hstep
  | _ =>
    unfold Requests.step at hstep
    obtain ⟨tracker, hact, rfl⟩ := Option.map_eq_some_iff.mp hstep
    exact hact

theorem Steady.yields (h : Steady owner s) (hevent : e.Owned owner) (hstep : step s e = some s') :
    Yields s.tracker s'.tracker fun x =>
      lifecycle s.tracker.activeTriggerIds x (s.tracker.trackers.get? x) e :=
  act_yields h.coherent h.owned hevent (step_act hstep)

theorem Steady.step (h : Steady owner s) (hevent : e.Owned owner) (hstep : step s e = some s') :
    Steady owner s' := by
  have hyields := h.yields hevent hstep
  refine ⟨hyields.coherent, fun {x tr} hget => ?_⟩
  rw [hyields.tracker] at hget
  rcases lifecycle_some hget with ⟨old, hold, hprofile⟩ | ⟨hmade, hx⟩
  · rw [← hprofile]
    exact h.owned hold
  · rw [← hx]
    exact congrArg some (hevent tr hmade)

theorem Steady.run (h : Steady owner s) (howned : ∀ e ∈ es, e.Owned owner)
    (hrun : Transition.run Requests.step s es = some s') : Steady owner s' := by
  induction es generalizing s with
  | nil =>
    cases hrun
    exact h
  | cons e es ih =>
    obtain ⟨u, hu, hrest⟩ := run_cons_eq_some.mp hrun
    exact ih (h.step (howned e List.mem_cons_self) hu)
      (fun e' he' => howned e' (List.mem_cons_of_mem _ he')) hrest

theorem steady_init : Steady owner {} := ⟨coherent_empty, nofun⟩

theorem Steady.profile (h : Steady owner s) (hget : s.tracker.trackers.get? x = some tr) :
    tr.profileName = owner x :=
  (Option.some.inj (h.owned hget)).symm

/-- Every request and every live tracker has a `track` call of its own. -/
theorem requests_le_tracks (h : Steady owner s) (howned : ∀ e ∈ es, e.Owned owner)
    (hrun : run step s es = some s') (x : String) :
    requests s'.tracker x + (s'.tracker.trackers.get? x).isSome.toNat ≤
      requests s.tracker x + (s.tracker.trackers.get? x).isSome.toNat +
        es.countP (Event.tracks x) := by
  induction es generalizing s with
  | nil =>
    cases hrun
    exact Nat.le_add_right _ _
  | cons e es ih =>
    obtain ⟨u, hu, hrest⟩ := run_cons_eq_some.mp hrun
    have hevent := howned e List.mem_cons_self
    have hyields := h.yields hevent hu
    have htail := ih (h.step hevent hu) (fun e' he' => howned e' (List.mem_cons_of_mem _ he')) hrest
    have hbudget := @lifecycle_budget e s.tracker.activeTriggerIds x (s.tracker.trackers.get? x)
    rw [← hyields.tracker] at hbudget
    rw [hyields.requests] at htail
    have hcount : (e :: es).countP (Event.tracks x) =
        es.countP (Event.tracks x) + (e.tracks x).toNat := by
      rw [List.countP_cons]
      cases e.tracks x <;> rfl
    omega

/-- An activation without a tracker gets no request until it is tracked again. -/
theorem requests_untracked (h : Steady owner s) (howned : ∀ e ∈ es, e.Owned owner)
    (hrun : run step s es = some s') (hgone : s.tracker.trackers.get? x = none)
    (hnot : ∀ e ∈ es, e.tracks x = false) :
    s'.tracker.trackers.get? x = none ∧ requests s'.tracker x = requests s.tracker x := by
  induction es generalizing s with
  | nil =>
    cases hrun
    exact ⟨hgone, rfl⟩
  | cons e es ih =>
    obtain ⟨u, hu, hrest⟩ := run_cons_eq_some.mp hrun
    have hevent := howned e List.mem_cons_self
    have hyields := h.yields hevent hu
    have hstay := @lifecycle_none e s.tracker.activeTriggerIds x (hnot e List.mem_cons_self)
    have hgone' : u.tracker.trackers.get? x = none := by rw [hyields.tracker, hgone, hstay]
    have hsame : requests u.tracker x = requests s.tracker x := by
      rw [hyields.requests, hgone, hstay]
      rfl
    obtain ⟨htracker, hrequests⟩ := ih (h.step hevent hu)
      (fun e' he' => howned e' (List.mem_cons_of_mem _ he')) hrest hgone'
      (fun e' he' => hnot e' (List.mem_cons_of_mem _ he'))
    exact ⟨htracker, hrequests.trans hsame⟩

/-- A request is scheduled for the current activation of a profile, and ends its tracking. -/
theorem request_current (h : Steady owner s) (hevent : e.Owned owner) (hstep : step s e = some s')
    (hrequest : requests s'.tracker x ≠ requests s.tracker x) :
    requests s'.tracker x = requests s.tracker x + 1 ∧
      (Current s.tracker x ∨ e.tracks x = true) ∧ s'.tracker.trackers.get? x = none := by
  have hyields := h.yields hevent hstep
  rw [hyields.requests] at hrequest
  have htrue : (lifecycle s.tracker.activeTriggerIds x (s.tracker.trackers.get? x) e).2 = true := by
    cases hcase : (lifecycle s.tracker.activeTriggerIds x (s.tracker.trackers.get? x) e).2 with
    | true => rfl
    | false =>
      rw [hcase] at hrequest
      exact absurd rfl hrequest
  obtain ⟨hnone, hlive⟩ := lifecycle_request htrue
  refine ⟨by rw [hyields.requests, htrue]; rfl, ?_, by rw [hyields.tracker, hnone]⟩
  rcases hlive with hlive | htracks
  · obtain ⟨tr, hget⟩ := Option.ne_none_iff_exists'.mp hlive
    exact Or.inl ⟨tr, hget, h.coherent.current hget⟩
  · exact Or.inr htracks

/-! ## The action count -/

/-- The tracker after some counted actions, all within the limit. -/
def Counted (tr : RuntimeProfileActivationTracker) (n : ℕ)
    (current : Option RuntimeProfileActivationTracker) : Prop :=
  current = none ∨ ∃ count : ℤ, current = some { tr with actionCount := count } ∧
    ∀ k, limit tr = some k → count = n ∧ (n : ℤ) < k

theorem Counted.lifecycle {n : ℕ} (active : Finset String)
    {current : Option RuntimeProfileActivationTracker} (h : Counted tr n current)
    (hnot : e.tracks x = false) :
    Counted tr (n + recorded tr [e]) (lifecycle active x current e).1 := by
  rcases h with rfl | ⟨count, rfl, hbound⟩
  · rw [lifecycle_none hnot]
    exact Or.inl rfl
  · have hkeep : recorded tr [e] = 0 → Counted tr (n + recorded tr [e])
        (some { tr with actionCount := count }) := by
      intro hzero
      rw [hzero]
      exact Or.inr ⟨count, rfl, hbound⟩
    cases e with
    | track p y triggerId d =>
      simp only [Requests.lifecycle]
      split
      · exact hkeep rfl
      · rename_i made hmade
        split
        · rename_i hx
          have htracks : (Event.track p y triggerId d).tracks x = true :=
            tracks_iff.mpr ⟨made, hmade, hx⟩
          rw [hnot] at htracks
          cases htracks
        · split
          · exact Or.inl rfl
          · exact hkeep rfl
    | cancel p y
    | triggerEnd _
    | timeout y =>
      simp only [Requests.lifecycle]
      split
      · exact Or.inl rfl
      · exact hkeep rfl
    | reset => exact Or.inl rfl
    | triggerStart _ => exact hkeep rfl
    | broadcast => exact hkeep rfl
    | recordAction triggerId =>
      have hcounts : counts { tr with actionCount := count } triggerId = counts tr triggerId := rfl
      have hlimit : limit { tr with actionCount := count } = limit tr := rfl
      simp only [Requests.lifecycle, hcounts, hlimit]
      cases hcase : counts tr triggerId with
      | false =>
        refine hkeep ?_
        simp only [recorded, List.countP_singleton, hcase, Bool.false_eq_true, if_false]
      | true =>
        have hone : recorded tr [.recordAction triggerId] = 1 := by
          simp only [recorded, List.countP_singleton, hcase, if_true]
        rw [hone, if_pos rfl]
        cases hthreshold : limit tr with
        | none =>
          refine Or.inr ⟨count, rfl, fun k hk => ?_⟩
          rw [hthreshold] at hk
          cases hk
        | some threshold =>
          have hcount := (hbound threshold hthreshold).1
          simp only
          split
          · exact Or.inl rfl
          · rename_i hbelow
            refine Or.inr ⟨count + 1, rfl, fun k hk => ?_⟩
            rw [hthreshold] at hk
            cases hk
            push_cast
            omega

/-- A tracker counts the actions since it was made. -/
theorem counted_run {n : ℕ} (h : Steady owner s) (howned : ∀ e ∈ es, e.Owned owner)
    (hrun : run step s es = some s') (hnot : ∀ e ∈ es, e.tracks x = false)
    (hcounted : Counted tr n (s.tracker.trackers.get? x)) :
    Counted tr (n + recorded tr es) (s'.tracker.trackers.get? x) := by
  induction es generalizing s n with
  | nil =>
    cases hrun
    exact hcounted
  | cons e es ih =>
    obtain ⟨u, hu, hrest⟩ := run_cons_eq_some.mp hrun
    have hevent := howned e List.mem_cons_self
    have hyields := h.yields hevent hu
    have hnext := hcounted.lifecycle s.tracker.activeTriggerIds (hnot e List.mem_cons_self)
    rw [← hyields.tracker] at hnext
    have htail := ih (h.step hevent hu) (fun e' he' => howned e' (List.mem_cons_of_mem _ he')) hrest
      (fun e' he' => hnot e' (List.mem_cons_of_mem _ he')) hnext
    have hsum : recorded tr (e :: es) = recorded tr [e] + recorded tr es := by
      rw [recorded, ← List.singleton_append, List.countP_append]
      rfl
    rwa [hsum, ← Nat.add_assoc]

/-- A tracker that was just made has counted nothing. -/
theorem counted_made (h : Steady owner s) (hevent : e.Owned owner) (hstep : step s e = some s')
    (hmade : e.tracker = some tr) :
    Counted tr 0 (s'.tracker.trackers.get? tr.activationId) := by
  have hyields := h.yields hevent hstep
  rw [hyields.tracker]
  cases e with
  | track p y triggerId d =>
    simp only [Requests.lifecycle, hmade, if_true]
    split
    · exact Or.inl rfl
    · refine Or.inr ⟨0, ?_, fun k hk => ⟨rfl, ?_⟩⟩
      · simp only [Event.tracker] at hmade
        split at hmade
        · cases hmade
        · cases hmade
          rfl
      · simp only [limit, ProfileDeactivationPolicy.positiveIntOrNone, Option.filter_eq_some_iff,
          decide_eq_true_eq] at hk
        exact_mod_cast hk.2
  | _ => cases hmade

/-- An action is the last one of a tracker, or leaves it. -/
theorem request_of_recordAction {n : ℕ} (h : Steady owner s)
    (hcounted : Counted tr n (s.tracker.trackers.get? x)) {triggerId : String}
    (hstep : step s (.recordAction triggerId) = some s') :
    requests s'.tracker x = requests s.tracker x + 1 ↔
      s.tracker.trackers.get? x ≠ none ∧ counts tr triggerId = true ∧
        limit tr = some ((n : ℤ) + 1) := by
  have hyields := h.yields (e := .recordAction triggerId) nofun hstep
  rw [hyields.requests]
  rcases hcounted with hnone | ⟨count, hsome, hbound⟩
  · rw [hnone]
    simp only [Requests.lifecycle, Bool.toNat_false, ne_eq, not_true, false_and, iff_false]
    omega
  · have hcounts : counts { tr with actionCount := count } triggerId = counts tr triggerId := rfl
    have hlimit : limit { tr with actionCount := count } = limit tr := rfl
    rw [hsome]
    simp only [Requests.lifecycle, hcounts, hlimit, ne_eq, reduceCtorEq, not_false_eq_true,
      true_and]
    cases hcase : counts tr triggerId with
    | false =>
      simp only [Bool.false_eq_true, if_false, Bool.toNat_false, false_and, iff_false]
      omega
    | true =>
      rw [if_pos rfl]
      cases hthreshold : limit tr with
      | none =>
        simp only [Bool.toNat_false, reduceCtorEq, and_false, iff_false]
        omega
      | some threshold =>
        obtain ⟨hcount, hbelow⟩ := hbound threshold hthreshold
        simp only [Option.some.injEq, true_and]
        split
        · simp only [Bool.toNat_true, true_iff]
          omega
        · simp only [Bool.toNat_false]
          omega

end Runs

/-- Every `track` call schedules at most one request, and only for the current activation. -/
theorem deactivation_requests (owner : String → String) {es : List Event} {s : Loop}
    (howned : ∀ e ∈ es, e.Owned owner) (hrun : run step {} es = some s) :
    MutuallyInverse s.tracker ∧
      (∀ x, s.issued.countP (·.activationId = x) ≤ requests s.tracker x ∧
        requests s.tracker x ≤ es.countP (Event.tracks x)) ∧
      (∀ x before after, es = before ++ after → (∀ e ∈ after, e.tracks x = false) →
        ∃ u, run step {} before = some u ∧
          requests s.tracker x ≤ requests u.tracker x + 1) ∧
      (∀ x e s', e.Owned owner → step s e = some s' →
        requests s'.tracker x ≠ requests s.tracker x →
        requests s'.tracker x = requests s.tracker x + 1 ∧
          (Current s.tracker x ∨ e.tracks x = true) ∧ s'.tracker.trackers.get? x = none) ∧
      (∀ x before e after, es = before ++ e :: after → e.Drops owner x →
        (∀ e' ∈ after, e'.tracks x = false) →
        ∃ u, run step {} before = some u ∧ requests s.tracker x = requests u.tracker x) ∧
      ∀ before e after tr, es = before ++ e :: after → e.tracker = some tr →
        (∀ e' ∈ after, e'.tracks tr.activationId = false) →
        (s.tracker.trackers.get? tr.activationId ≠ none →
          ∀ k, limit tr = some k → (recorded tr after : ℤ) < k) ∧
        ∀ triggerId s', step s (.recordAction triggerId) = some s' →
          (requests s'.tracker tr.activationId = requests s.tracker tr.activationId + 1 ↔
            s.tracker.trackers.get? tr.activationId ≠ none ∧ counts tr triggerId = true ∧
              limit tr = some ((recorded tr after : ℤ) + 1)) := by
  have hsteady : Steady owner s := steady_init.run howned hrun
  refine ⟨mutuallyInverse hsteady.coherent, fun x => ⟨?_, ?_⟩,
    fun x before after heq hnot => ?_,
    fun x e s' hevent hstep hrequest => request_current hsteady hevent hstep hrequest,
    fun x before e after heq hdrops hnot => ?_, fun before e after tr heq hmade hnot => ?_⟩
  · exact (List.take_sublist _ _).countP_le
  · have hle := requests_le_tracks steady_init howned hrun x
    have hzero : requests ({} : Loop).tracker x = 0 := rfl
    have hempty : (({} : Loop).tracker.trackers.get? x).isSome.toNat = 0 := rfl
    omega
  · subst heq
    rw [run_append] at hrun
    obtain ⟨u, hu, hrest⟩ := Option.bind_eq_some_iff.mp hrun
    have hbefore := steady_init.run (fun e he => howned e (List.mem_append_left _ he)) hu
    have hle := requests_le_tracks hbefore
      (fun e he => howned e (List.mem_append_right _ he)) hrest x
    have hcount : after.countP (Event.tracks x) = 0 :=
      List.countP_eq_zero.mpr fun e he htracks => by
        rw [hnot e he] at htracks
        cases htracks
    have hone := Bool.toNat_le (u.tracker.trackers.get? x).isSome
    exact ⟨u, hu, by omega⟩
  · subst heq
    rw [run_append] at hrun
    obtain ⟨u, hu, hrest⟩ := Option.bind_eq_some_iff.mp hrun
    obtain ⟨v, hv, hlast⟩ := run_cons_eq_some.mp hrest
    have hbefore := steady_init.run (fun e' he => howned e' (List.mem_append_left _ he)) hu
    have hevent := howned e (List.mem_append_right _ List.mem_cons_self)
    have hyields := hbefore.yields hevent hv
    have hdropped : lifecycle u.tracker.activeTriggerIds x (u.tracker.trackers.get? x) e =
        (none, false) :=
      lifecycle_drops (fun tr hget => hbefore.profile hget) hdrops
    have hgone : v.tracker.trackers.get? x = none := by rw [hyields.tracker, hdropped]
    have hsame : requests v.tracker x = requests u.tracker x := by
      rw [hyields.requests, hdropped]
      rfl
    have hafter := requests_untracked (hbefore.step hevent hv)
      (fun e' he => howned e' (List.mem_append_right _ (List.mem_cons_of_mem _ he)))
      hlast hgone hnot
    exact ⟨u, hu, hafter.2.trans hsame⟩
  · subst heq
    rw [run_append] at hrun
    obtain ⟨u, hu, hrest⟩ := Option.bind_eq_some_iff.mp hrun
    obtain ⟨v, hv, hlast⟩ := run_cons_eq_some.mp hrest
    have hbefore := steady_init.run (fun e' he => howned e' (List.mem_append_left _ he)) hu
    have hevent := howned e (List.mem_append_right _ List.mem_cons_self)
    have hcounted := counted_run (hbefore.step hevent hv)
      (fun e' he => howned e' (List.mem_append_right _ (List.mem_cons_of_mem _ he)))
      hlast hnot (counted_made hbefore hevent hv hmade)
    rw [Nat.zero_add] at hcounted
    refine ⟨fun hlive k hk => ?_,
      fun triggerId s' hstep => request_of_recordAction hsteady hcounted hstep⟩
    rcases hcounted with hnone | ⟨count, -, hbound⟩
    · exact absurd hnone hlive
    · exact (hbound k hk).2

/-! ## Three runs of one activation -/

/-- A layer that ends with the next action. -/
def oneShot : Event := .track "layer" "first" "caps" { afterActions := some 1 }

theorem deactivation_requests_oneShot :
    ∃ s, run step {} [oneShot, .recordAction "a"] = some s ∧
      ∀ x, requests s.tracker x ≤ [oneShot, .recordAction "a"].countP (Event.tracks x) := by
  have hprofile : ∀ e ∈ [oneShot, .recordAction "a"],
      e.tracker.all (·.profileName = "layer") = true := by decide
  have hsome : (run step {} [oneShot, .recordAction "a"]).isSome = true := by decide
  obtain ⟨s, hs⟩ := Option.isSome_iff_exists.mp hsome
  refine ⟨s, hs, fun x =>
    ((deactivation_requests (fun _ => "layer") (fun e he tr htr => ?_) hs).2.1 x).2⟩
  have hall := hprofile e he
  rw [htr] at hall
  exact (of_decide_eq_true hall).symm

/-- An activation tracked twice is reported twice, one that was cancelled after its expiry is still
reported, and a second press of its own trigger does not count. -/
theorem oneShot_runs :
    ((run step {} [oneShot, .recordAction "a", .broadcast, oneShot, .recordAction "a",
        .broadcast]).map Loop.issued =
      some [⟨"layer", "first"⟩, ⟨"layer", "first"⟩]) ∧
    ((run step {} [oneShot, .recordAction "a", .cancel "layer" "first"]).map Loop.issued =
      some []) ∧
    ((run step {} [oneShot, .recordAction "a", .cancel "layer" "first", .broadcast]).map
        Loop.issued = some [⟨"layer", "first"⟩]) ∧
    ((run step {} [oneShot, .recordAction "caps", .recordAction "caps"]).map
        (·.tracker.requested) = some []) := by
  decide

end Keymasq.Activation.Requests
