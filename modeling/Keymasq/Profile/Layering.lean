import Keymasq.Profile.Resolution

/-!
# Layering rollover groups

The rollover groups of a profile file and of a request are parsed, and the groups of the
active profiles are laid over each other.
-/

namespace Keymasq.Profile.Layering
open Foundation Foundation.Json Keymasq.Combo.Names Keymasq.Profile.Model
open Keymasq.Profile.Resolution

/-! ## Parsing -/

/-- `repr(value)`. -/
class PyRepr extends PyText where
  repr : Value → String

section Parsing

variable [PyRepr]

/- `values.get(name)`; a missing field and a null are both `None`. -/
def getField (fields : List (String × Value)) (name : String) : Option Value :=
  match fields.lookup name with
  | some .null => none
  | found => found

/- `str(value or "")`. -/
def textOr (value : Option Value) : String :=
  match value with
  | none => ""
  | some (.str text) => text
  | some value => if value.truthy then PyText.str value else ""

def rolloverWinners : List (String × RolloverWinner) :=
  [("newest", .newest), ("oldest", .oldest), ("neutral", .neutral), ("priority", .priority)]

def parseRolloverWinner (value : Option Value) : RolloverWinner :=
  (rolloverWinners.lookup (PyStr.lower (PyStr.strip (textOr value)))).getD .newest

/- `coerce_bool(value, default)`. -/
def coerceBool (value : Option Value) (default : Bool) : Bool :=
  match value with
  | none => default
  | some (.str text) =>
    let normalized := PyStr.lower (PyStr.strip text)
    if normalized ∈ ["1", "true", "yes", "on"] then true
    else if normalized ∈ ["0", "false", "no", "off"] then false
    else default
  | some value => value.truthy

def rolloverMemberFromData (data : Value) : Option RolloverMember :=
  match data with
  | .obj values =>
    let hardwareId := PyStr.strip (textOr (getField values "hardware_id"))
    let button := PyStr.strip (textOr (getField values "button"))
    if hardwareId = "" ∨ button = "" then none else some ⟨hardwareId, button⟩
  | _ => none

/- Unique, valid members in their stored order. -/
def addMember (members : List RolloverMember) (raw : Value) : List RolloverMember :=
  match rolloverMemberFromData raw with
  | some member => if member ∈ members then members else members ++ [member]
  | none => members

def normalizeRolloverMembers (value : Option Value) : List RolloverMember :=
  match value with
  | some (.arr items) => items.foldl addMember []
  | _ => []

def rolloverGroupFromData (data : Value) : Option RolloverGroup :=
  match data with
  | .obj values =>
    let members := normalizeRolloverMembers (getField values "members")
    if members.length < rolloverMinMembers then none
    else some {
      name := PyStr.strip (textOr (getField values "name"))
      members := members
      winner := parseRolloverWinner (getField values "winner")
      restore := coerceBool (getField values "restore") true }
  | _ => none

def rolloverGroupsFromData (value : Value) : List RolloverGroup :=
  match value with
  | .arr items => items.filterMap rolloverGroupFromData
  | _ => []

/- A text field that is not blank. -/
def filledText (value : Option Value) : Option String :=
  match value with
  | some (.str text) => if PyStr.strip text = "" then none else some (PyStr.strip text)
  | _ => none

/- One member of a group in a profile file; `owners` holds the label of the group of every
member so far. -/
def tomlMember (label : String) (position : ℕ) (members : List RolloverMember)
    (owners : Dict RolloverMember String) (raw : Value) : Except String RolloverMember :=
  let fields := match raw with
    | .obj fields => fields
    | _ => []
  match filledText (getField fields "hardware_id"), filledText (getField fields "button") with
  | some hardwareId, some button =>
    let member : RolloverMember := ⟨hardwareId, button⟩
    if member ∈ members then
      .error (label ++ " lists " ++ hardwareId ++ " " ++ button ++ " twice")
    else match owners.get? member with
      | some owner =>
        .error (hardwareId ++ " " ++ button ++ " is in both " ++ owner ++ " and " ++ label)
      | none => .ok member
  | _, _ =>
    .error (label ++ " member " ++ toString position ++
      " needs a hardware_id and a button as strings")

def tomlMembers (label : String) (position : ℕ) (members : List RolloverMember)
    (owners : Dict RolloverMember String) :
    List Value → Except String (List RolloverMember × Dict RolloverMember String)
  | [] => .ok (members, owners)
  | raw :: rest =>
    match tomlMember label position members owners raw with
    | .error message => .error message
    | .ok member =>
      tomlMembers label (position + 1) (members ++ [member]) (owners.insert member label) rest

/- The label, the winner and the setting of a group, checked in the order of the source. -/
def tomlLabel (index : ℕ) (values : List (String × Value)) : Except String (String × String) :=
  match (values.lookup "name").getD (.str "") with
  | .str name =>
    let stripped := PyStr.strip name
    .ok (stripped, if stripped = "" then "rollover group " ++ toString index
      else "rollover group " ++ PyRepr.repr (.str stripped))
  | _ => .error ("rollover group " ++ toString index ++ " name must be a string")

def validWinner (winner : Option Value) : Bool :=
  match winner with
  | none => true
  | some (.str text) => (rolloverWinners.lookup (PyStr.lower (PyStr.strip text))).isSome
  | some _ => false

def tomlRestore (label : String) (restore : Option Value) : Except String Bool :=
  match restore with
  | none => .ok true
  | some (.bool b) => .ok b
  | some value => .error (label ++ " restore must be true or false, got " ++ PyRepr.repr value)

def tomlGroup (index : ℕ) (owners : Dict RolloverMember String) (item : Value) :
    Except String (RolloverGroup × Dict RolloverMember String) :=
  match item with
  | .obj values =>
    match tomlLabel index values with
    | .error message => .error message
    | .ok (name, label) =>
      let winner := getField values "winner"
      if !validWinner winner then
        .error (label ++ " winner must be one of " ++
          ", ".intercalate (rolloverWinners.map fun choice => PyRepr.repr (.str choice.1)) ++
          ", got " ++ PyRepr.repr (winner.getD .null))
      else match tomlRestore label (getField values "restore") with
        | .error message => .error message
        | .ok restore =>
          match getField values "members" with
          | some (.arr raw) =>
            match tomlMembers label 1 [] owners raw with
            | .error message => .error message
            | .ok (members, owners) =>
              if members.length < rolloverMinMembers then
                .error (label ++ " needs at least " ++ toString rolloverMinMembers ++ " members")
              else .ok (⟨name, members, parseRolloverWinner winner, restore⟩, owners)
          | _ => .error (label ++ " needs a members array")
  | _ => .error ("rollover group " ++ toString index ++ " must be a table")

def tomlGroups (index : ℕ) (owners : Dict RolloverMember String) :
    List Value → Except String (List RolloverGroup)
  | [] => .ok []
  | item :: rest =>
    match tomlGroup index owners item with
    | .error message => .error message
    | .ok (group, owners) => (tomlGroups (index + 1) owners rest).map (group :: ·)

def rolloverGroupsFromToml (value : Option Value) : Except String (List RolloverGroup) :=
  match value with
  | none | some .null => .ok []
  | some (.arr items) => tomlGroups 1 ∅ items
  | some _ => .error "rollover_groups must be an array of tables"

end Parsing

/-! ## Groups that fit together -/

/- A group needs two different members. -/
def Valid (group : RolloverGroup) : Prop := rolloverMinMembers ≤ group.members.dedup.length

instance decidableValid (group : RolloverGroup) : Decidable (Valid group) :=
  inferInstanceAs (Decidable (rolloverMinMembers ≤ group.members.dedup.length))

variable {group : RolloverGroup} {groups : List RolloverGroup}

theorem valid_of_nodup (h : group.members.Nodup)
    (hlength : ¬ group.members.length < rolloverMinMembers) : Valid group := by
  unfold Valid
  rw [h.dedup]
  exact not_lt.mp hlength

/-! ## What parsing promises -/

section Parsed

variable [PyRepr]

variable {owners owners' : Dict RolloverMember String}

theorem tomlMember_new {label : String} {position : ℕ} {members : List RolloverMember} {raw : Value}
    {member : RolloverMember} (h : tomlMember label position members owners raw = .ok member) :
    member ∉ members ∧ owners.get? member = none := by
  unfold tomlMember at h
  simp only at h
  split at h
  next =>
    split at h
    next => cases h
    next hnew =>
      split at h
      next => cases h
      next howner =>
        cases h
        exact ⟨hnew, howner⟩
  next => cases h

/- Every member has an owner, and the new members of the group had none before. -/
structure Claimed (before after : Dict RolloverMember String) (members : List RolloverMember) :
    Prop where
  fresh : ∀ m ∈ members, before.get? m = none
  owned : ∀ m ∈ members, after.get? m ≠ none
  kept : ∀ m, before.get? m ≠ none → after.get? m ≠ none

theorem tomlMembers_claimed {label : String} {raws : List Value} {position : ℕ}
    {members members' : List RolloverMember} {before : Dict RolloverMember String}
    (hnodup : members.Nodup) (hclaimed : Claimed before owners members)
    (h : tomlMembers label position members owners raws = .ok (members', owners')) :
    members'.Nodup ∧ Claimed before owners' members' := by
  induction raws generalizing position members owners with
  | nil =>
    cases h
    exact ⟨hnodup, hclaimed⟩
  | cons raw raws ih =>
    rw [tomlMembers] at h
    split at h
    next => cases h
    next member hmember =>
      obtain ⟨hnew, howner⟩ := tomlMember_new hmember
      refine ih ?_ ⟨?_, ?_, ?_⟩ h
      · exact List.nodup_append_comm.mp (List.nodup_cons.mpr ⟨hnew, hnodup⟩)
      · intro m hm
        rcases List.mem_append.mp hm with hm | hm
        · exact hclaimed.fresh m hm
        · rw [List.mem_singleton.mp hm]
          by_contra hbefore
          exact hclaimed.kept member hbefore howner
      · intro m hm
        rw [Dict.get?_insert]
        split
        next => exact Option.some_ne_none label
        next hne =>
          rcases List.mem_append.mp hm with hm | hm
          · exact hclaimed.owned m hm
          · exact absurd (List.mem_singleton.mp hm) hne
      · intro m hm
        rw [Dict.get?_insert]
        split
        next => exact Option.some_ne_none label
        next => exact hclaimed.kept m hm

/- What an accepted table holds: a name and an accepted array of enough members. -/
theorem tomlGroup_cases {index : ℕ} {item : Value}
    (h : tomlGroup index owners item = .ok (group, owners')) :
    ∃ text label raw, group.name = PyStr.strip text ∧
      tomlMembers label 1 [] owners raw = .ok (group.members, owners') ∧
        ¬group.members.length < rolloverMinMembers := by
  unfold tomlGroup at h
  split at h
  next values =>
    split at h
    next => cases h
    next name label hlabel =>
      have hname : ∃ text, name = PyStr.strip text := by
        unfold tomlLabel at hlabel
        split at hlabel
        next text _ =>
          cases hlabel
          exact ⟨text, rfl⟩
        next => cases hlabel
      obtain ⟨text, hname⟩ := hname
      simp only at h
      split at h
      next => cases h
      next =>
        split at h
        next => cases h
        next restore _ =>
          split at h
          next raw _ =>
            split at h
            next => cases h
            next members owners'' hmembers =>
              split at h
              next => cases h
              next hlength =>
                cases h
                exact ⟨text, label, raw, hname, hmembers, hlength⟩
          next => cases h
  next => cases h

theorem tomlGroup_claimed {index : ℕ} {item : Value}
    (h : tomlGroup index owners item = .ok (group, owners')) :
    Valid group ∧ group.members.Nodup ∧ Claimed owners owners' group.members := by
  obtain ⟨text, label, raw, -, hmembers, hlength⟩ := tomlGroup_cases h
  obtain ⟨hnodup, hclaimed⟩ := tomlMembers_claimed List.nodup_nil
    ⟨fun m hm => absurd hm List.not_mem_nil, fun m hm => absurd hm List.not_mem_nil,
      fun m hm => hm⟩ hmembers
  exact ⟨valid_of_nodup hnodup hlength, hnodup, hclaimed⟩

theorem tomlGroups_apart {items : List Value} {index : ℕ} {groups : List RolloverGroup}
    (h : tomlGroups index owners items = .ok groups) :
    (∀ g ∈ groups, Valid g ∧ ∀ m ∈ g.members, owners.get? m = none) ∧
      groups.Pairwise Apart := by
  induction items generalizing index owners groups with
  | nil =>
    cases h
    exact ⟨fun g hg => absurd hg List.not_mem_nil, List.Pairwise.nil⟩
  | cons item items ih =>
    rw [tomlGroups] at h
    split at h
    next => cases h
    next group owners' hgroup =>
      obtain ⟨hvalid, -, hclaimed⟩ := tomlGroup_claimed hgroup
      cases hrest : tomlGroups (index + 1) owners' items with
      | error message =>
        rw [hrest] at h
        cases h
      | ok rest =>
        rw [hrest] at h
        cases h
        obtain ⟨hfresh, hapart⟩ := ih hrest
        refine ⟨List.forall_mem_cons.mpr ⟨⟨hvalid, hclaimed.fresh⟩, fun g hg => ⟨(hfresh g hg).1,
          fun m hm => ?_⟩⟩, List.pairwise_cons.mpr ⟨fun g hg m hm hm' => ?_, hapart⟩⟩
        · by_contra howned
          exact hclaimed.kept m howned ((hfresh g hg).2 m hm)
        · exact hclaimed.owned m hm ((hfresh g hg).2 m hm')

end Parsed

/-! ## The layers -/

/- The groups of the list that no later one replaces. -/
def surviving : List RolloverGroup → List RolloverGroup
  | [] => []
  | group :: groups =>
    if Valid group ∧ ∀ later ∈ groups, Valid later → Apart group later then
      group :: surviving groups
    else surviving groups

theorem layerRolloverGroup_eq (layered : List RolloverGroup) (group : RolloverGroup) :
    layerRolloverGroup layered group =
      if Valid group then (layered.filter fun existing => Apart existing group) ++ [group]
      else layered := by
  unfold layerRolloverGroup
  by_cases h : Valid group
  · rw [if_neg (not_lt.mpr h), if_pos h]
    congr 2
    funext existing
    rw [Bool.eq_iff_iff, List.all_eq_true, decide_eq_true_iff]
    exact ⟨fun hall m hm => of_decide_eq_true (hall m hm),
      fun hall m hm => decide_eq_true (hall m hm)⟩
  · rw [if_pos (not_le.mp h), if_neg h]

/-- The loop keeps of the earlier groups what no group of the rest replaces. -/
theorem foldl_layerRolloverGroup (groups layered : List RolloverGroup) :
    groups.foldl layerRolloverGroup layered =
      (layered.filter fun g => ∀ later ∈ groups, Valid later → Apart g later) ++
        surviving groups := by
  induction groups generalizing layered with
  | nil =>
    rw [List.foldl_nil, surviving, List.append_nil, List.filter_eq_self.mpr]
    intro g _
    exact decide_eq_true fun later hlater => absurd hlater List.not_mem_nil
  | cons group groups ih =>
    rw [List.foldl_cons, ih, layerRolloverGroup_eq, surviving]
    by_cases hvalid : Valid group
    · rw [if_pos hvalid, List.filter_append, List.filter_filter, List.append_assoc]
      congr 1
      · refine List.filter_congr fun g _ => ?_
        rw [Bool.eq_iff_iff, Bool.and_eq_true, decide_eq_true_iff, decide_eq_true_iff,
          decide_eq_true_iff, List.forall_mem_cons]
        exact ⟨fun h => ⟨fun _ => h.2, h.1⟩, fun h => ⟨h.2, h.1 hvalid⟩⟩
      · by_cases hlater : ∀ later ∈ groups, Valid later → Apart group later
        · rw [if_pos ⟨hvalid, hlater⟩, List.filter_cons_of_pos (by exact decide_eq_true hlater)]
          rfl
        · rw [if_neg fun h => hlater h.2,
            List.filter_cons_of_neg (by rw [decide_eq_true_iff]; exact hlater)]
          rfl
    · rw [if_neg hvalid, if_neg fun h => hvalid h.1]
      congr 1
      refine List.filter_congr fun g _ => ?_
      rw [Bool.eq_iff_iff, decide_eq_true_iff, decide_eq_true_iff, List.forall_mem_cons]
      exact ⟨fun h => ⟨fun hyes => absurd hyes hvalid, h⟩, fun h => h.2⟩

theorem layerRolloverGroups_eq (groups : List RolloverGroup) :
    layerRolloverGroups groups = surviving groups := by
  unfold layerRolloverGroups
  rw [foldl_layerRolloverGroup]
  rfl

theorem mem_surviving {g : RolloverGroup} (h : g ∈ surviving groups) : g ∈ groups ∧ Valid g := by
  induction groups with
  | nil => exact absurd h List.not_mem_nil
  | cons group groups ih =>
    rw [surviving] at h
    split at h
    next hkept =>
      rcases List.mem_cons.mp h with rfl | h
      · exact ⟨List.mem_cons_self, hkept.1⟩
      · exact ⟨List.mem_cons_of_mem _ (ih h).1, (ih h).2⟩
    next => exact ⟨List.mem_cons_of_mem _ (ih h).1, (ih h).2⟩

theorem surviving_apart (groups : List RolloverGroup) :
    (surviving groups).Pairwise Apart := by
  induction groups with
  | nil => exact List.Pairwise.nil
  | cons group groups ih =>
    rw [surviving]
    split
    next hkept =>
      refine List.pairwise_cons.mpr ⟨fun later hmem => ?_, ih⟩
      obtain ⟨hgroups, hvalid⟩ := mem_surviving hmem
      exact hkept.2 later hgroups hvalid
    next => exact ih

/-- Valid groups that share no member all survive. -/
theorem surviving_eq_self (hvalid : ∀ g ∈ groups, Valid g) (hapart : groups.Pairwise Apart) :
    surviving groups = groups := by
  induction groups with
  | nil => rfl
  | cons group groups ih =>
    obtain ⟨hgroup, hrest⟩ := List.forall_mem_cons.mp hvalid
    obtain ⟨hhead, htail⟩ := List.pairwise_cons.mp hapart
    rw [surviving, if_pos ⟨hgroup, fun later hmem _ => hhead later hmem⟩, ih hrest htail]

/- The group at position `i` is valid and no later valid group shares a member with it. -/
def Survives (groups : List RolloverGroup) (i : ℕ) : Prop :=
  ∃ g, groups[i]? = some g ∧ Valid g ∧
    ∀ j > i, ∀ later, groups[j]? = some later → Valid later → Apart g later

theorem survives_zero :
    Survives (group :: groups) 0 ↔
      Valid group ∧ ∀ later ∈ groups, Valid later → Apart group later := by
  unfold Survives
  constructor
  · rintro ⟨g, heq, hvalid, hlater⟩
    cases heq
    refine ⟨hvalid, fun later hmem => ?_⟩
    obtain ⟨j, hj⟩ := List.mem_iff_getElem?.mp hmem
    exact hlater (j + 1) (Nat.succ_pos j) later hj
  · rintro ⟨hvalid, hlater⟩
    refine ⟨group, rfl, hvalid, fun j hj later heq => ?_⟩
    obtain ⟨k, rfl⟩ := Nat.exists_eq_add_one_of_ne_zero (Nat.ne_of_gt hj)
    exact hlater later (List.mem_iff_getElem?.mpr ⟨k, heq⟩)

theorem survives_succ {i : ℕ} : Survives (group :: groups) (i + 1) ↔ Survives groups i := by
  unfold Survives
  refine exists_congr fun g => and_congr_right fun _ => and_congr_right fun _ => ?_
  constructor
  · intro h j hj later heq
    exact h (j + 1) (Nat.succ_lt_succ hj) later heq
  · intro h j hj later heq
    obtain ⟨k, rfl⟩ := Nat.exists_eq_add_one_of_ne_zero (Nat.ne_of_gt (Nat.zero_lt_of_lt hj))
    exact h k (Nat.lt_of_succ_lt_succ hj) later heq

/-- The surviving groups are those at the surviving positions, in their order. -/
theorem surviving_positions (groups : List RolloverGroup) :
    ∃ kept : List ℕ, kept.Pairwise (· < ·) ∧
      (surviving groups).map some = kept.map (groups[·]?) ∧
      ∀ i, i ∈ kept ↔ Survives groups i := by
  induction groups with
  | nil =>
    refine ⟨[], List.Pairwise.nil, rfl, fun i => ⟨fun h => absurd h List.not_mem_nil, ?_⟩⟩
    rintro ⟨g, heq, -⟩
    cases heq
  | cons group groups ih =>
    obtain ⟨kept, hsorted, heq, hkept⟩ := ih
    have hrest : ((kept.map Nat.succ).map fun i => (group :: groups)[i]?) =
        (surviving groups).map some := by
      rw [heq, List.map_map]
      rfl
    have hsorted' : (kept.map Nat.succ).Pairwise (· < ·) :=
      List.pairwise_map.mpr (hsorted.imp Nat.succ_lt_succ)
    have hmem (i : ℕ) : i + 1 ∈ kept.map Nat.succ ↔ Survives (group :: groups) (i + 1) := by
      rw [survives_succ, ← hkept, List.mem_map]
      constructor
      · rintro ⟨k, hk, hsucc⟩
        rw [← Nat.succ.inj hsucc]
        exact hk
      · exact fun hi => ⟨i, hi, rfl⟩
    have hzero : 0 ∉ kept.map Nat.succ := fun h => by
      obtain ⟨k, -, hk⟩ := List.mem_map.mp h
      exact Nat.succ_ne_zero k hk
    rw [surviving]
    split
    next hyes =>
      refine ⟨0 :: kept.map Nat.succ, List.pairwise_cons.mpr ⟨fun i hi => ?_, hsorted'⟩, ?_, ?_⟩
      · obtain ⟨k, -, rfl⟩ := List.mem_map.mp hi
        exact Nat.succ_pos k
      · rw [List.map_cons, List.map_cons, hrest]
        rfl
      · intro i
        cases i with
        | zero => exact ⟨fun _ => survives_zero.mpr hyes, fun _ => List.mem_cons_self⟩
        | succ i =>
          rw [← hmem, List.mem_cons]
          exact or_iff_right (Nat.succ_ne_zero i)
    next hno =>
      refine ⟨kept.map Nat.succ, hsorted', hrest.symm, fun i => ?_⟩
      cases i with
      | zero => exact ⟨fun h => absurd h hzero, fun h => absurd (survives_zero.mp h) hno⟩
      | succ i => exact hmem i

/-- Over every list of layers: the groups left are pairwise disjoint and have two members, and
they are, in their order, the valid groups that no later valid group shares a member with. -/
theorem layered_groups_disjoint_later_wins (layers : List (List RolloverGroup)) :
    (layerRolloverGroups layers.flatten).Pairwise Apart ∧
    (∀ g ∈ layerRolloverGroups layers.flatten, 2 ≤ g.members.dedup.length) ∧
    ∃ kept : List ℕ, kept.Pairwise (· < ·) ∧
      (layerRolloverGroups layers.flatten).map some = kept.map (layers.flatten[·]?) ∧
      ∀ i, i ∈ kept ↔ Survives layers.flatten i := by
  rw [layerRolloverGroups_eq]
  exact ⟨surviving_apart _, fun g hmem => (mem_surviving hmem).2, surviving_positions _⟩

end Keymasq.Profile.Layering
