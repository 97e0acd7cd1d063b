import Keymasq.Foundation.Lists
import Keymasq.Profile.Resolution

/-!
# The order in which profiles are loaded

Everything after the order of the layers depends on that order alone. The order
itself comes from a stable sort, so it is the same for every order of loading
exactly if the sort key tells the profiles apart that are sorted.
-/

namespace Keymasq.Profile.LoadOrder
open Foundation Foundation.Sorting Keymasq.Combo.Names Keymasq.Profile.Model
  Keymasq.Profile.Resolution

section Names

variable {profiles : List ProfileConfig}

theorem eq_of_name_eq (hnames : (profiles.map ProfileConfig.name).Nodup) {p q : ProfileConfig}
    (hp : p ∈ profiles) (hq : q ∈ profiles) (h : p.name = q.name) : p = q :=
  List.inj_on_of_nodup_map hnames hp hq h

theorem findProfile_eq_some (hnames : (profiles.map ProfileConfig.name).Nodup) {name : String}
    {p : ProfileConfig} :
    findProfile profiles name = some p ↔ p ∈ profiles ∧ p.name = name := by
  constructor
  · intro h
    exact ⟨List.mem_of_find?_eq_some h, by simpa using List.find?_some h⟩
  · rintro ⟨hp, rfl⟩
    cases hfind : findProfile profiles p.name with
    | none =>
      have hnone := List.find?_eq_none.mp hfind p hp
      exact absurd (decide_eq_true rfl) hnone
    | some q =>
      have hq : q.name = p.name := by simpa using List.find?_some hfind
      rw [eq_of_name_eq hnames (List.mem_of_find?_eq_some hfind) hp hq]

theorem findProfile_perm {profiles' : List ProfileConfig}
    (hnames : (profiles.map ProfileConfig.name).Nodup) (h : profiles'.Perm profiles) :
    findProfile profiles' = findProfile profiles := by
  have hnames' : (profiles'.map ProfileConfig.name).Nodup := (h.map _).nodup_iff.mpr hnames
  funext name
  apply Option.ext
  intro p
  rw [findProfile_eq_some hnames, findProfile_eq_some hnames', h.mem_iff]

theorem sortedSet_perm {ids ids' : List String} (h : ids'.Perm ids) :
    sortedSet ids' = sortedSet ids :=
  sortedOn_eq_of_perm h.dedup fun _ _ _ _ hkey => hkey

theorem resolveDevices_perm (active : List ProfileConfig) {ids ids' : List String}
    (h : ids'.Perm ids) : resolveDevices active ids' = resolveDevices active ids := by
  rw [resolveDevices, resolveDevices, sortedSet_perm h]

end Names

section Layers
variable [PyText]

/-- The profile has its place by the sort key, not by a runtime activation. -/
def Sorted (query : Query) (profiles : List ProfileConfig) (profile : ProfileConfig) : Prop :=
  profile ∈ profiles ∧ applies query profile = true ∧
    profile.name ∉ (runtimeProfiles query profiles).map ProfileConfig.name

/-- No two profiles that are sorted have the same key. -/
def KeysDiffer (query : Query) (profiles : List ProfileConfig) : Prop :=
  ∀ p q, Sorted query profiles p → Sorted query profiles q → sortKey p = sortKey q →
    p.name = q.name

/-! ## The order of the layers -/

variable {profiles profiles' : List ProfileConfig}

theorem runtimeProfiles_perm (hnames : (profiles.map ProfileConfig.name).Nodup)
    (h : profiles'.Perm profiles) (query : Query) :
    runtimeProfiles query profiles' = runtimeProfiles query profiles := by
  rw [runtimeProfiles, runtimeProfiles, findProfile_perm hnames h]

def keptBelow (query : Query) (profiles : List ProfileConfig) (profile : ProfileConfig) : Bool :=
  decide (profile.name ∉ (runtimeProfiles query profiles).map ProfileConfig.name)

theorem layerOrder_eq (query : Query) (profiles : List ProfileConfig) :
    layerOrder query profiles =
      (sortedOn sortKey (profiles.filter (applies query))).filter (keptBelow query profiles) ++
        runtimeProfiles query profiles := by
  simp only [layerOrder]
  split
  · rename_i hempty
    rw [List.isEmpty_iff] at hempty
    have hall : keptBelow query profiles = fun _ => true := by
      funext profile
      simp only [keptBelow, hempty, List.map_nil, List.not_mem_nil, not_false_eq_true,
        decide_true]
    rw [hall, List.filter_true, hempty, List.append_nil]
  · rfl

theorem sorted_iff {query : Query} {p : ProfileConfig} :
    Sorted query profiles p ↔
      p ∈ profiles.filter (applies query) ∧ keptBelow query profiles p = true := by
  rw [List.mem_filter, keptBelow, decide_eq_true_eq]
  exact and_assoc.symm

theorem layerOrder_perm {query : Query} (hnames : (profiles.map ProfileConfig.name).Nodup)
    (hkeys : KeysDiffer query profiles) (h : profiles'.Perm profiles) :
    layerOrder query profiles' = layerOrder query profiles := by
  have hkept : keptBelow query profiles' = keptBelow query profiles := by
    funext p
    rw [keptBelow, keptBelow, runtimeProfiles_perm hnames h]
  rw [layerOrder_eq, layerOrder_eq, runtimeProfiles_perm hnames h, hkept]
  congr 1
  symm
  apply filter_sortedOn_eq_of_perm (h.symm.filter _)
  intro p hp q hq hpkept hqkept hkey
  have hname := hkeys p q (sorted_iff.mpr ⟨hp, hpkept⟩) (sorted_iff.mpr ⟨hq, hqkept⟩) hkey
  exact eq_of_name_eq hnames (List.mem_of_mem_filter hp) (List.mem_of_mem_filter hq) hname

/- Two profiles of one key are layered in the order in which they were loaded. -/
theorem pair_sublist_layers {query : Query} {p q : ProfileConfig} (hp : Sorted query profiles p)
    (hq : Sorted query profiles q) (hkey : sortKey p = sortKey q)
    (hpair : [p, q].Sublist profiles') :
    [p, q].Sublist ((sortedOn sortKey (profiles'.filter (applies query))).filter
      (keptBelow query profiles)) := by
  have happlies : [p, q].filter (applies query) = [p, q] := by
    rw [List.filter_cons_of_pos hp.2.1, List.filter_cons_of_pos hq.2.1, List.filter_nil]
  have hkept : [p, q].filter (keptBelow query profiles) = [p, q] := by
    rw [List.filter_cons_of_pos (sorted_iff.mp hp).2, List.filter_cons_of_pos (sorted_iff.mp hq).2,
      List.filter_nil]
  have hactive := hpair.filter (applies query)
  rw [happlies] at hactive
  have hsorted := (pair_sublist_sortedOn hkey hactive).filter (keptBelow query profiles)
  rwa [hkept] at hsorted

theorem keysDiffer_of_layerOrder {query : Query} (hnames : (profiles.map ProfileConfig.name).Nodup)
    (horder : ∀ profiles', profiles'.Perm profiles →
      layerOrder query profiles' = layerOrder query profiles) : KeysDiffer query profiles := by
  intro p q hp hq hkey
  by_contra hname
  have hne : p ≠ q := fun heq => hname (congrArg ProfileConfig.name heq)
  classical
  obtain ⟨rest, hrest⟩ : ∃ rest, (p :: q :: rest).Perm profiles := by
    have hqp : q ∈ profiles.erase p := (List.mem_erase_of_ne hne.symm).mpr hq.1
    exact ⟨(profiles.erase p).erase q,
      ((List.perm_cons_erase hqp).symm.cons p).trans (List.perm_cons_erase hp.1).symm⟩
  have hswap : (q :: p :: rest).Perm profiles := (List.Perm.swap p q rest).trans hrest
  have hlayers : ∀ profiles' : List ProfileConfig, profiles'.Perm profiles →
      (sortedOn sortKey (profiles'.filter (applies query))).filter (keptBelow query profiles) =
        (sortedOn sortKey (profiles.filter (applies query))).filter
          (keptBelow query profiles) := by
    intro profiles' hperm
    have hsame := horder profiles' hperm
    have hkept : keptBelow query profiles' = keptBelow query profiles := by
      funext r
      rw [keptBelow, keptBelow, runtimeProfiles_perm hnames hperm]
    rw [layerOrder_eq, layerOrder_eq, runtimeProfiles_perm hnames hperm, hkept] at hsame
    exact List.append_cancel_right hsame
  have hpq := pair_sublist_layers hp hq hkey
    ((List.nil_sublist rest).cons_cons q |>.cons_cons p)
  have hqp := pair_sublist_layers hq hp hkey.symm
    ((List.nil_sublist rest).cons_cons p |>.cons_cons q)
  rw [hlayers _ hrest] at hpq
  rw [hlayers _ hswap] at hqp
  have hnodup : ((sortedOn sortKey (profiles.filter (applies query))).filter
      (keptBelow query profiles)).Nodup :=
    ((sortedOn_perm sortKey _).nodup_iff.mpr
      ((List.Nodup.of_map _ hnames).filter _)).filter _
  -- The two profiles cannot come in both orders in one list without repetition.
  exact Lists.not_pair_sublist_swap hnodup hpq hqp

/-! ## The whole resolution -/

theorem resolve_perm {query : Query}
    (horder : layerOrder query profiles' = layerOrder query profiles)
    (h : profiles'.Perm profiles) : resolve query profiles' = resolve query profiles := by
  have hids : (layerIds (profiles'.filter (applies query))).Perm
      (layerIds (profiles.filter (applies query))) :=
    (h.filter (applies query)).flatMap_right _
  simp only [resolve, horder]
  rw [resolveDevices_perm _ (((hids.append_left _).append_right _).append_right _)]

/-- Every order of loading resolves to the same layers, devices, combos and rollover groups
exactly if no two profiles that are sorted share permanence, priority, creation time and folded
name. -/
theorem resolve_load_order (query : Query) (profiles : List ProfileConfig)
    (hnames : (profiles.map ProfileConfig.name).Nodup) :
    (∀ profiles', profiles'.Perm profiles →
      resolve query profiles' = resolve query profiles) ↔ KeysDiffer query profiles := by
  constructor
  · intro h
    apply keysDiffer_of_layerOrder hnames
    intro profiles' hperm
    exact congrArg ResolvedProfiles.activeProfiles (h profiles' hperm)
  · intro hkeys profiles' hperm
    exact resolve_perm (layerOrder_perm hnames hkeys hperm) hperm

end Layers

/- The string operations on ASCII text, with patterns that are plain text. -/
@[reducible] def asciiText : PyText where
  toPyStr := asciiStr
  casefold s := String.ofList (s.toList.map Char.toLower)
  str
    | .str s => s
    | _ => ""
  search pattern text := some (decide (pattern.toList <:+: text.toList))

def pressing (name : String) (target : String) : ProfileConfig :=
  { name := name
    isPermanent := true
    deviceLayers := Dict.ofList [("mouse",
      { hardwareId := "mouse"
        mappings := Dict.ofList
          [("btn_side", { actionType := .keyboard, target := some target })] })] }

theorem resolve_load_order_distinct :
    @resolve asciiText {} [pressing "Work" "key_b", pressing "Game" "key_a"] =
      @resolve asciiText {} [pressing "Game" "key_a", pressing "Work" "key_b"] := by
  refine (@resolve_load_order asciiText {} _ (by decide)).mpr ?_ _ (List.Perm.swap _ _ _)
  intro p q hp hq hkey
  have hmem : ∀ r : ProfileConfig,
      r ∈ [pressing "Game" "key_a", pressing "Work" "key_b"] →
        r = pressing "Game" "key_a" ∨ r = pressing "Work" "key_b" := by
    intro r hr
    rcases List.mem_cons.mp hr with heq | hr
    · exact Or.inl heq
    · exact Or.inr (List.mem_singleton.mp hr)
  rcases hmem p hp.1 with rfl | rfl <;> rcases hmem q hq.1 with rfl | rfl
  · rfl
  · exact absurd hkey (by decide)
  · exact absurd hkey (by decide)
  · rfl

/- The target of the button in the resolved mapping. -/
def targetOf (resolved : ResolvedProfiles) : Option String :=
  (resolved.devices.get? "mouse").bind fun device =>
    (device.mappings.get? "btn_side").bind MappingAction.target

/-- Two names that differ only in case: the profile that is loaded later wins the button. -/
theorem load_order_decides :
    ([pressing "Game" "key_a", pressing "GAME" "key_b"].map ProfileConfig.name).Nodup ∧
      targetOf (@resolve asciiText {} [pressing "Game" "key_a", pressing "GAME" "key_b"]) ≠
        targetOf (@resolve asciiText {} [pressing "GAME" "key_b", pressing "Game" "key_a"]) := by
  decide

end Keymasq.Profile.LoadOrder
