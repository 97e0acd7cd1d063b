import Keymasq.Foundation.Dict
import Keymasq.Foundation.Transition

/-!
# Lifecycle macros

A reevaluation resolves the active profiles, applies them to the daemon and
then plays one macro for each profile that became active or inactive. The list
of active names is replaced before the apply, and a newer reevaluation cancels
the older one wherever it is.
-/

namespace Keymasq.Session.Lifecycle
open Foundation Foundation.Transition

structure ProfileConfig where
  name : String
  activationMacroName : Option String
  deactivationMacroName : Option String
deriving DecidableEq

inductive Transition
  | activation
  | deactivation
deriving DecidableEq

/-- A MACRO_PLAY_BY_NAME that was sent. -/
structure Dispatch where
  profileName : String
  transition : Transition
  macroName : String

/-- Where the newest generation stands. While it applies, it remembers the names it replaced and
the profiles it resolved; while it dispatches, the transitions that are left. -/
inductive Generation
  | requested
  | applying (old : List String) (new : List ProfileConfig)
  | dispatching (deactivated : List String) (activated : List ProfileConfig)
deriving DecidableEq

/-- The dispatched macros stand with the newest one first. -/
structure Manager where
  profiles : Dict String ProfileConfig := ∅
  activeProfileNames : List String := []
  generation : Option Generation := none
  dispatched : List Dispatch := []

/- `play_profile_lifecycle_macro`. -/
def play (manager : Manager) (profileName : String) (transition : Transition)
    (macroName : Option String) : Manager :=
  match macroName with
  | none => manager
  | some macroName =>
    if macroName = "" then manager
    else { manager with dispatched := ⟨profileName, transition, macroName⟩ :: manager.dispatched }

/- `reconcile_resolved_profiles` up to the first apply. -/
def resolve (manager : Manager) (active : List ProfileConfig) : Manager :=
  { manager with
    activeProfileNames := active.map (·.name)
    generation := some (.applying manager.activeProfileNames active) }

/- `play_profile_lifecycle_macros`: what has to be played. -/
def transitions (old : List String) (new : List ProfileConfig) : Generation :=
  .dispatching (old.filter fun name => name ∉ new.map (·.name))
    (new.filter fun profile => profile.name ∉ old)

/- A profile that was deleted meanwhile has no macro any more. -/
def playDeactivation (manager : Manager) (name : String) : Manager :=
  match manager.profiles.get? name with
  | none => manager
  | some profile => play manager name .deactivation profile.deactivationMacroName

inductive Op
  | configure (profiles : Dict String ProfileConfig)
  | begin
  | raised
  | resolve (active : List ProfileConfig)
  | applied
  | playNext

/-- Deactivations are played first. -/
def playNext (manager : Manager) : List String → List ProfileConfig → Manager
  | name :: deactivated, activated =>
    playDeactivation { manager with generation := some (.dispatching deactivated activated) } name
  | [], profile :: activated =>
    play { manager with generation := some (.dispatching [] activated) } profile.name .activation
      profile.activationMacroName
  | [], [] => { manager with generation := none }

/- The resolved profiles are different ones of those that are configured. -/
def resolvable (manager : Manager) (active : List ProfileConfig) : Bool :=
  decide (active.map (·.name)).Nodup &&
    active.all fun profile => manager.profiles.get? profile.name = some profile

def step (manager : Manager) : Op → Option Manager
  | .configure profiles => some { manager with profiles }
  | .begin => some { manager with generation := some .requested }
  | .raised => some { manager with generation := none }
  | .resolve active =>
    if manager.generation = some .requested ∧ resolvable manager active then
      some (resolve manager active)
    else none
  | .applied =>
    match manager.generation with
    | some (.applying old new) => some { manager with generation := some (transitions old new) }
    | _ => none
  | .playNext =>
    match manager.generation with
    | some (.dispatching deactivated activated) => some (playNext manager deactivated activated)
    | _ => none

/-! ## One profile -/

/- The transitions whose macros were dispatched for a profile, the newest one first. -/
def played (manager : Manager) (profileName : String) : List Transition :=
  (manager.dispatched.filter (·.profileName = profileName)).map (·.transition)

/-- The generation has changed the standing of the profile without playing its macro yet. -/
def owes (profileName : String) : Generation → Bool
  | .requested => false
  | .applying old new => decide (profileName ∈ old) != decide (profileName ∈ new.map (·.name))
  | .dispatching deactivated activated =>
    decide (profileName ∈ deactivated) || decide (profileName ∈ activated.map (·.name))

/-- No generation is stopped while it owes the profile a macro. -/
def paysFirst (profileName : String) (manager : Manager) : Op → Bool
  | .begin | .raised => manager.generation.all fun generation => !owes profileName generation
  | _ => true

/- The profile is configured with both macros. -/
def HasBoth (profileName : String) (profiles : Dict String ProfileConfig) : Prop :=
  ∃ profile, profiles.get? profileName = some profile ∧
    (∃ macroName, profile.activationMacroName = some macroName ∧ macroName ≠ "") ∧
      ∃ macroName, profile.deactivationMacroName = some macroName ∧ macroName ≠ ""

/-- Whether transitions leave the profile active, if they alternate and start with an
activation. -/
def standing : List Transition → Option Bool
  | [] => some false
  | .activation :: earlier => if standing earlier = some false then some true else none
  | .deactivation :: earlier => if standing earlier = some true then some false else none

theorem standing_eq_some {ts : List Transition} {active : Bool}
    (h : standing ts = some active) :
    ts.IsChain (· ≠ ·) ∧ (ts.head? = some .activation ↔ active = true) ∧
      ts.getLast? ≠ some .deactivation := by
  induction ts generalizing active with
  | nil =>
    cases h
    exact ⟨.nil, by simp, by simp⟩
  | cons t earlier ih =>
    cases t with
    | activation =>
      obtain ⟨hearlier, hactive⟩ := Option.ite_none_right_eq_some.mp h
      obtain ⟨hchain, hhead, hlast⟩ := ih hearlier
      cases hactive
      cases earlier with
      | nil => exact ⟨.singleton _, by simp, by simp⟩
      | cons t' rest =>
        refine ⟨List.isChain_cons_cons.mpr ⟨?_, hchain⟩, by simp, ?_⟩
        · rintro rfl
          exact absurd (hhead.mp rfl) (by simp)
        · rwa [List.getLast?_cons_cons]
    | deactivation =>
      obtain ⟨hearlier, hactive⟩ := Option.ite_none_right_eq_some.mp h
      obtain ⟨hchain, hhead, hlast⟩ := ih hearlier
      cases hactive
      cases earlier with
      | nil => cases hearlier
      | cons t' rest =>
        refine ⟨List.isChain_cons_cons.mpr ⟨?_, hchain⟩, by simp, ?_⟩
        · rintro rfl
          exact absurd (hhead.mpr rfl) (by simp)
        · rwa [List.getLast?_cons_cons]

/-- What the dispatched macros of a profile say in each state of a generation. -/
def Owed (profileName : String) (manager : Manager) (played : Option Bool) : Prop :=
  let active := decide (profileName ∈ manager.activeProfileNames)
  match manager.generation with
  | none | some .requested => played = some active
  | some (.applying old new) =>
    manager.activeProfileNames = new.map (·.name) ∧ played = some (decide (profileName ∈ old))
  | some (.dispatching deactivated activated) =>
    deactivated.Nodup ∧ (activated.map (·.name)).Nodup ∧
      (profileName ∈ deactivated →
        profileName ∉ activated.map (·.name) ∧ active = false ∧ played = some true) ∧
      (profileName ∈ activated.map (·.name) → active = true ∧ played = some false) ∧
      (profileName ∉ deactivated → profileName ∉ activated.map (·.name) → played = some active)

/- The macros a generation may still have to play are there. -/
def Resolved (profileName : String) : Option Generation → Prop
  | some (.applying old new) => old.Nodup ∧ (new.map (·.name)).Nodup ∧
      ∀ profile ∈ new, profile.name = profileName →
        ∃ macroName, profile.activationMacroName = some macroName ∧ macroName ≠ ""
  | some (.dispatching _ activated) => ∀ profile ∈ activated, profile.name = profileName →
      ∃ macroName, profile.activationMacroName = some macroName ∧ macroName ≠ ""
  | _ => True

structure Settled (profileName : String) (manager : Manager) : Prop where
  configured : HasBoth profileName manager.profiles
  nodup : manager.activeProfileNames.Nodup
  resolved : Resolved profileName manager.generation
  owed : Owed profileName manager (standing (played manager profileName))

variable {manager manager' : Manager} {profileName : String}

theorem played_play (name : String) (transition : Transition) {macroName : String}
    (hplays : macroName ≠ "") :
    played (play manager name transition (some macroName)) profileName =
      if name = profileName then transition :: played manager profileName
      else played manager profileName := by
  unfold played play
  simp only [if_neg hplays, List.filter_cons]
  by_cases hname : name = profileName
  · simp [hname]
  · simp [hname]

/- Playing for another profile, with or without a macro. -/
theorem played_play_of_ne {name : String} (transition : Transition) (macroName : Option String)
    (hname : name ≠ profileName) :
    played (play manager name transition macroName) profileName = played manager profileName := by
  cases macroName with
  | none => rfl
  | some macroName =>
    by_cases hplays : macroName = ""
    · simp [play, hplays]
    · rw [played_play name transition hplays, if_neg hname]

theorem play_frame (name : String) (transition : Transition) (macroName : Option String) :
    (play manager name transition macroName).profiles = manager.profiles ∧
      (play manager name transition macroName).activeProfileNames = manager.activeProfileNames ∧
      (play manager name transition macroName).generation = manager.generation := by
  cases macroName with
  | none => exact ⟨rfl, rfl, rfl⟩
  | some macroName =>
    by_cases hplays : macroName = ""
    · rw [play, if_pos hplays]
      exact ⟨rfl, rfl, rfl⟩
    · rw [play, if_neg hplays]
      exact ⟨rfl, rfl, rfl⟩

theorem playDeactivation_frame (name : String) :
    (playDeactivation manager name).profiles = manager.profiles ∧
      (playDeactivation manager name).activeProfileNames = manager.activeProfileNames ∧
      (playDeactivation manager name).generation = manager.generation := by
  unfold playDeactivation
  split
  · exact ⟨rfl, rfl, rfl⟩
  · exact play_frame name .deactivation _

/-- What a profile owes is one thing while the generation lasts. -/
theorem Settled.stop (h : Settled profileName manager) {generation : Option Generation}
    (hpaid : (manager.generation.all fun g => !owes profileName g) = true)
    (hnew : generation = none ∨ generation = some .requested) :
    Settled profileName { manager with generation } := by
  have hpaidUp : standing (played manager profileName) =
      some (decide (profileName ∈ manager.activeProfileNames)) := by
    have howed := h.owed
    unfold Owed at howed
    cases hgeneration : manager.generation with
    | none =>
      rw [hgeneration] at howed
      exact howed
    | some g =>
      rw [hgeneration] at howed hpaid
      rw [Option.all_some, Bool.not_eq_true'] at hpaid
      cases g with
      | requested => exact howed
      | applying old new =>
        obtain ⟨hactive, hplayed⟩ := howed
        rw [hplayed, hactive]
        exact congrArg some (bne_eq_false_iff_eq.mp hpaid)
      | dispatching deactivated activated =>
        obtain ⟨-, -, -, -, hplayed⟩ := howed
        unfold owes at hpaid
        rw [Bool.or_eq_false_iff, decide_eq_false_iff_not, decide_eq_false_iff_not] at hpaid
        exact hplayed hpaid.1 hpaid.2
  rcases hnew with rfl | rfl
  · exact ⟨h.configured, h.nodup, trivial, hpaidUp⟩
  · exact ⟨h.configured, h.nodup, trivial, hpaidUp⟩

theorem Settled.resolve (h : Settled profileName manager) {active : List ProfileConfig}
    (hgeneration : manager.generation = some .requested)
    (hactive : resolvable manager active = true) :
    Settled profileName (Lifecycle.resolve manager active) := by
  unfold resolvable at hactive
  rw [Bool.and_eq_true, decide_eq_true_eq, List.all_eq_true] at hactive
  obtain ⟨hnodup, hprofiles⟩ := hactive
  refine ⟨h.configured, hnodup, ⟨h.nodup, hnodup, fun profile hmem hname => ?_⟩, rfl, ?_⟩
  · obtain ⟨configured, hget, hplays, -⟩ := h.configured
    have hsame := of_decide_eq_true (hprofiles profile hmem)
    rw [hname, hget] at hsame
    cases hsame
    exact hplays
  · have howed := h.owed
    unfold Owed at howed
    rw [hgeneration] at howed
    exact howed

theorem Settled.applied (h : Settled profileName manager) {old : List String}
    {new : List ProfileConfig} (hgeneration : manager.generation = some (.applying old new)) :
    Settled profileName { manager with generation := some (transitions old new) } := by
  have hresolved := h.resolved
  have howed := h.owed
  unfold Resolved at hresolved
  unfold Owed at howed
  rw [hgeneration] at hresolved howed
  obtain ⟨hold, hnew, hplays⟩ := hresolved
  obtain ⟨hactive, hplayed⟩ := howed
  have hmem : profileName ∈ (new.filter fun profile => decide (profile.name ∉ old)).map (·.name) ↔
      profileName ∈ new.map (·.name) ∧ profileName ∉ old := by
    simp only [List.mem_map, List.mem_filter, decide_eq_true_eq]
    constructor
    · rintro ⟨profile, ⟨hmem, hnot⟩, rfl⟩
      exact ⟨⟨profile, hmem, rfl⟩, hnot⟩
    · rintro ⟨⟨profile, hmem, rfl⟩, hnot⟩
      exact ⟨profile, ⟨hmem, hnot⟩, rfl⟩
  refine ⟨h.configured, h.nodup, fun profile hp => hplays profile (List.mem_of_mem_filter hp),
    hold.filter _, hnew.sublist (List.filter_sublist.map _), fun hin => ?_, fun hin => ?_,
    fun hnot hnot' => ?_⟩
  · rw [List.mem_filter, decide_eq_true_eq] at hin
    refine ⟨fun hin' => (hmem.mp hin').2 hin.1, ?_, ?_⟩
    · show decide (profileName ∈ manager.activeProfileNames) = false
      rw [hactive]
      exact decide_eq_false hin.2
    · exact hplayed.trans (congrArg some (decide_eq_true hin.1))
  · obtain ⟨hin, hnot⟩ := hmem.mp hin
    constructor
    · show decide (profileName ∈ manager.activeProfileNames) = true
      rw [hactive]
      exact decide_eq_true hin
    · exact hplayed.trans (congrArg some (decide_eq_false hnot))
  · rw [List.mem_filter, decide_eq_true_eq, not_and_not_right] at hnot
    rw [hmem, not_and_not_right] at hnot'
    show standing (played manager profileName) =
      some (decide (profileName ∈ manager.activeProfileNames))
    rw [hplayed, hactive]
    exact congrArg some (decide_eq_decide.mpr ⟨hnot, hnot'⟩)

/- The first deactivation is played, if it is of this profile. -/
theorem Settled.played_deactivation (h : Settled profileName manager)
    (generation : Option Generation) (name : String) :
    played (playDeactivation { manager with generation } name) profileName =
      if name = profileName then .deactivation :: played manager profileName
      else played manager profileName := by
  unfold playDeactivation
  by_cases hname : name = profileName
  · obtain ⟨configured, hget, -, macroName, hplays, hne⟩ := h.configured
    rw [if_pos hname, hname]
    show played (match manager.profiles.get? profileName with | none => _ | some profile => _) _ = _
    rw [hget]
    show played (play _ _ _ configured.deactivationMacroName) _ = _
    rw [hplays, played_play _ _ hne, if_pos rfl]
    rfl
  · rw [if_neg hname]
    split
    · rfl
    · exact played_play_of_ne .deactivation _ hname

theorem Settled.playNext (h : Settled profileName manager) {deactivated : List String}
    {activated : List ProfileConfig}
    (hgeneration : manager.generation = some (.dispatching deactivated activated)) :
    Settled profileName (Lifecycle.playNext manager deactivated activated) := by
  have hplays := h.resolved
  have howed := h.owed
  unfold Resolved at hplays
  unfold Owed at howed
  rw [hgeneration] at hplays howed
  obtain ⟨hnodup, hnodup', hdeactivated, hactivated, hothers⟩ := howed
  cases deactivated with
  | cons name rest =>
    obtain ⟨hprofiles, hnames, hgen⟩ := @playDeactivation_frame
      { manager with generation := some (.dispatching rest activated) } name
    have hplayed := h.played_deactivation (some (.dispatching rest activated)) name
    show Settled profileName (playDeactivation _ name)
    generalize playDeactivation _ name = after at hprofiles hnames hgen hplayed
    rw [List.nodup_cons] at hnodup
    refine ⟨hprofiles ▸ h.configured, hnames ▸ h.nodup, hgen ▸ hplays, ?_⟩
    unfold Owed
    rw [hgen, hnames, hplayed]
    refine ⟨hnodup.2, hnodup', fun hin => ?_, fun hin => ?_, fun hnot hnot' => ?_⟩
    · have hne : name ≠ profileName := fun heq => hnodup.1 (heq ▸ hin)
      rw [if_neg hne]
      exact hdeactivated (List.mem_cons_of_mem _ hin)
    · have hne : name ≠ profileName := by
        rintro rfl
        exact (hdeactivated List.mem_cons_self).1 hin
      rw [if_neg hne]
      exact hactivated hin
    · by_cases heq : name = profileName
      · obtain ⟨-, hinactive, hstanding⟩ := hdeactivated (heq ▸ List.mem_cons_self)
        rw [if_pos heq, hinactive, standing, if_pos hstanding]
      · rw [if_neg heq]
        refine hothers (fun hin => ?_) hnot'
        rcases List.mem_cons.mp hin with hin | hin
        · exact heq hin.symm
        · exact hnot hin
  | nil =>
    cases activated with
    | nil => exact ⟨h.configured, h.nodup, trivial, hothers List.not_mem_nil List.not_mem_nil⟩
    | cons profile rest =>
      obtain ⟨hprofiles, hnames, hgen⟩ := @play_frame
        { manager with generation := some (.dispatching [] rest) } profile.name
        .activation profile.activationMacroName
      have hplayed : played (play { manager with generation := some (.dispatching [] rest) }
          profile.name .activation profile.activationMacroName) profileName =
          if profile.name = profileName then .activation :: played manager profileName
          else played manager profileName := by
        by_cases hname : profile.name = profileName
        · obtain ⟨macroName, hsome, hne⟩ := hplays profile List.mem_cons_self hname
          rw [hsome, played_play _ _ hne]
          rfl
        · rw [if_neg hname]
          exact played_play_of_ne .activation _ hname
      show Settled profileName (play _ profile.name .activation profile.activationMacroName)
      generalize play _ profile.name .activation profile.activationMacroName = after
        at hprofiles hnames hgen hplayed
      rw [List.map_cons, List.nodup_cons] at hnodup'
      refine ⟨hprofiles ▸ h.configured, hnames ▸ h.nodup,
        hgen ▸ fun p hp => hplays p (List.mem_cons_of_mem _ hp), ?_⟩
      unfold Owed
      rw [hgen, hnames, hplayed]
      refine ⟨List.nodup_nil, hnodup'.2, fun hin => absurd hin List.not_mem_nil, fun hin => ?_,
        fun _ hnot' => ?_⟩
      · have hne : profile.name ≠ profileName := fun heq => hnodup'.1 (heq ▸ hin)
        rw [if_neg hne]
        exact hactivated (List.mem_cons_of_mem _ hin)
      · by_cases heq : profile.name = profileName
        · obtain ⟨hactive, hstanding⟩ := hactivated (List.mem_map.mpr ⟨profile, List.mem_cons_self, heq⟩)
          rw [if_pos heq, hactive, standing, if_pos hstanding]
        · rw [if_neg heq]
          refine hothers List.not_mem_nil fun hin => ?_
          rcases List.mem_cons.mp hin with hin | hin
          · exact heq hin.symm
          · exact hnot' hin

/-- The guard of a run for one profile: it stays configured, and is paid first. -/
theorem Settled.step {op : Op} (h : Settled profileName manager)
    (hconfigured : ∀ profiles, op = .configure profiles → HasBoth profileName profiles)
    (hguard : paysFirst profileName manager op = true)
    (hstep : Lifecycle.step manager op = some manager') : Settled profileName manager' := by
  cases op with
  | configure profiles =>
    cases hstep
    exact ⟨hconfigured profiles rfl, h.nodup, h.resolved, h.owed⟩
  | begin =>
    cases hstep
    exact h.stop hguard (Or.inr rfl)
  | raised =>
    cases hstep
    exact h.stop hguard (Or.inl rfl)
  | resolve active =>
    obtain ⟨⟨hgeneration, hactive⟩, rfl⟩ := enabled_eq_some.mp hstep
    exact h.resolve hgeneration hactive
  | applied =>
    simp only [Lifecycle.step] at hstep
    split at hstep
    · cases hstep
      exact h.applied (by assumption)
    · cases hstep
  | playNext =>
    simp only [Lifecycle.step] at hstep
    split at hstep
    · cases hstep
      exact h.playNext (by assumption)
    · cases hstep

theorem settled_start {profiles : Dict String ProfileConfig}
    (h : HasBoth profileName profiles) : Settled profileName { profiles } :=
  ⟨h, List.nodup_nil, trivial, rfl⟩

/-- When the last generation has run to its end, the macros of a profile have alternated and
the last one tells whether the profile is active. -/
theorem lifecycle_macros_alternate {profiles : Dict String ProfileConfig} {ops : List Op}
    (hconfigured : HasBoth profileName profiles)
    (hkept : ∀ op ∈ ops, ∀ profiles, op = .configure profiles → HasBoth profileName profiles)
    (hguard : Guarded step (fun manager op => paysFirst profileName manager op = true)
      { profiles } ops)
    (hrun : run step { profiles } ops = some manager) (hended : manager.generation = none) :
    (played manager profileName).IsChain (· ≠ ·) ∧
      ((played manager profileName).head? = some .activation ↔
        profileName ∈ manager.activeProfileNames) ∧
      (played manager profileName).getLast? ≠ some .deactivation := by
  have h : Settled profileName manager :=
    guarded_run_invariant (I := Settled profileName)
      (fun _ _ _ h hg hs => h.step hg.1 hg.2 hs) (settled_start hconfigured)
      (guarded_and hkept hguard) hrun
  have howed := h.owed
  unfold Owed at howed
  rw [hended] at howed
  obtain ⟨hchain, hhead, hlast⟩ := standing_eq_some howed
  exact ⟨hchain, hhead.trans decide_eq_true_iff, hlast⟩

def navigation : ProfileConfig := ⟨"Nav", some "on", some "off"⟩

def navigationOnly : Dict String ProfileConfig := Dict.ofList [("Nav", navigation)]

theorem navigation_hasBoth : HasBoth "Nav" navigationOnly :=
  ⟨navigation, by decide, ⟨"on", rfl, by decide⟩, "off", rfl, by decide⟩

/- A generation is superseded before it resolves; then one activates the profile and another
one deactivates it. -/
def toggled : List Op :=
  [.begin, .begin, .resolve [navigation], .applied, .playNext, .playNext,
    .begin, .resolve [], .applied, .playNext, .playNext]

theorem lifecycle_macros_alternate_toggled :
    (∃ manager, run step { profiles := navigationOnly } toggled = some manager ∧
      manager.generation = none ∧ played manager "Nav" = [.deactivation, .activation]) ∧
    ∀ manager, run step { profiles := navigationOnly } toggled = some manager →
      manager.generation = none → (played manager "Nav").IsChain (· ≠ ·) ∧
        ((played manager "Nav").head? = some .activation ↔ "Nav" ∈ manager.activeProfileNames) ∧
        (played manager "Nav").getLast? ≠ some .deactivation := by
  have hguard : Guarded step (fun manager op => paysFirst "Nav" manager op = true)
      { profiles := navigationOnly } toggled := by decide
  have hsome : (run step { profiles := navigationOnly } toggled).any (fun manager => decide
      (manager.generation = none ∧ played manager "Nav" = [.deactivation, .activation])) =
      true := by decide
  rw [Option.any_eq_true] at hsome
  obtain ⟨manager, hrun, hmanager⟩ := hsome
  rw [decide_eq_true_eq] at hmanager
  refine ⟨⟨manager, hrun, hmanager⟩, fun manager hrun hended => ?_⟩
  refine lifecycle_macros_alternate navigation_hasBoth ?_ hguard hrun hended
  intro op hop profiles heq
  rw [heq] at hop
  simp [toggled] at hop

/- The generation that activates the profile is superseded while it applies. -/
def supersededApply : List Op :=
  [.begin, .resolve [navigation], .begin, .resolve [navigation], .applied, .playNext]

/-- The profile is active, but its activation macro is never played. -/
theorem activation_macro_lost :
    ¬∀ (profiles : Dict String ProfileConfig) (ops : List Op) (manager : Manager)
      (profileName : String), HasBoth profileName profiles →
      (∀ op ∈ ops, ∀ profiles, op = .configure profiles → HasBoth profileName profiles) →
      run step { profiles } ops = some manager → manager.generation = none →
      ((played manager profileName).head? = some .activation ↔
        profileName ∈ manager.activeProfileNames) := by
  intro h
  have hlost : (run step { profiles := navigationOnly } supersededApply).any (fun manager => decide
      (manager.generation = none ∧ played manager "Nav" = [] ∧
        "Nav" ∈ manager.activeProfileNames)) = true := by decide
  rw [Option.any_eq_true] at hlost
  obtain ⟨manager, hrun, hmanager⟩ := hlost
  rw [decide_eq_true_eq] at hmanager
  obtain ⟨hended, hnone, hactive⟩ := hmanager
  have hlast := h navigationOnly supersededApply manager "Nav" navigation_hasBoth (by
    intro op hop profiles heq
    rw [heq] at hop
    simp [supersededApply] at hop) hrun hended
  rw [hnone] at hlast
  exact absurd (hlast.mpr hactive) (by simp)

end Keymasq.Session.Lifecycle
