import Keymasq.Profile.Layering

/-!
# Rollover groups on their way

The session saves the groups of a profile in its file and sends those it resolved to the
daemon. Both are read again, the file strictly, the request leniently.
-/

namespace Keymasq.Profile.GroupStorage
open Foundation Foundation.Json Keymasq.Combo.Names Keymasq.Profile.Model
open Keymasq.Profile.Resolution Keymasq.Profile.Layering

/-! ## Writing -/

def winnerValue : RolloverWinner → String
  | .newest => "newest"
  | .oldest => "oldest"
  | .neutral => "neutral"
  | .priority => "priority"

def rolloverMemberToData (member : RolloverMember) : Value :=
  .obj [("hardware_id", .str member.hardwareId), ("button", .str member.button)]

def rolloverGroupToData (group : RolloverGroup) : Value :=
  .obj [("name", .str group.name), ("members", .arr (group.members.map rolloverMemberToData)),
    ("winner", .str (winnerValue group.winner)), ("restore", .bool group.restore)]

def serialize (groups : List RolloverGroup) : Value := .arr (groups.map rolloverGroupToData)

/- `encode`: a profile without groups has no such field. -/
def rolloverGroupsToToml (groups : List RolloverGroup) : Option Value :=
  if groups = [] then none else some (serialize groups)

variable [PyRepr]

/- The groups that the daemon installs for a request. -/
def setRolloverGroups (groups : Value) : List RolloverGroup :=
  layerRolloverGroups (rolloverGroupsFromData groups)

/-! ## What is stored -/

/-- Blanks are removed at once, and the winners are named by lower case words. -/
structure TextLaws : Prop where
  strip_strip : ∀ text, PyStr.strip (PyStr.strip text) = PyStr.strip text
  winner : ∀ choice ∈ rolloverWinners, PyStr.lower (PyStr.strip choice.1) = choice.1

/- No blanks around it, and not empty. -/
abbrev Clean (text : String) : Prop := PyStr.strip text = text ∧ text ≠ ""

/-- A group as reading leaves it. -/
structure Stored (group : RolloverGroup) : Prop where
  name : PyStr.strip group.name = group.name
  members : ∀ m ∈ group.members, Clean m.hardwareId ∧ Clean m.button
  nodup : group.members.Nodup
  enough : rolloverMinMembers ≤ group.members.length

theorem clean_of_filledText (laws : TextLaws) {value : Option Value} {text : String}
    (h : filledText value = some text) : Clean text := by
  unfold filledText at h
  split at h
  next =>
    split at h
    next => cases h
    next hfilled =>
      cases h
      exact ⟨laws.strip_strip _, hfilled⟩
  next => cases h

variable {owners : Dict RolloverMember String} {group : RolloverGroup} {groups : List RolloverGroup}

theorem clean_tomlMember (laws : TextLaws) {label : String} {position : ℕ}
    {members : List RolloverMember} {raw : Value} {member : RolloverMember}
    (h : tomlMember label position members owners raw = .ok member) :
    Clean member.hardwareId ∧ Clean member.button := by
  unfold tomlMember at h
  simp only at h
  split at h
  next hhardware hbutton =>
    split at h
    next => cases h
    next =>
      split at h
      next => cases h
      next =>
        cases h
        exact ⟨clean_of_filledText laws hhardware, clean_of_filledText laws hbutton⟩
  next => cases h

theorem clean_tomlMembers (laws : TextLaws) {label : String} {raws : List Value} {position : ℕ}
    {members members' : List RolloverMember} {owners' : Dict RolloverMember String}
    (hclean : ∀ m ∈ members, Clean m.hardwareId ∧ Clean m.button)
    (h : tomlMembers label position members owners raws = .ok (members', owners')) :
    ∀ m ∈ members', Clean m.hardwareId ∧ Clean m.button := by
  induction raws generalizing position members owners with
  | nil =>
    cases h
    exact hclean
  | cons raw raws ih =>
    rw [tomlMembers] at h
    split at h
    next => cases h
    next member hmember =>
      refine ih (fun m hm => ?_) h
      rcases List.mem_append.mp hm with hm | hm
      · exact hclean m hm
      · rw [List.mem_singleton.mp hm]
        exact clean_tomlMember laws hmember

theorem stored_tomlGroup (laws : TextLaws) {index : ℕ} {item : Value}
    {owners' : Dict RolloverMember String}
    (h : tomlGroup index owners item = .ok (group, owners')) : Stored group := by
  obtain ⟨text, label, raw, hname, hmembers, hlength⟩ := tomlGroup_cases h
  refine ⟨?_, clean_tomlMembers laws (fun m hm => absurd hm List.not_mem_nil) hmembers,
    (tomlGroup_claimed h).2.1, not_lt.mp hlength⟩
  rw [hname, laws.strip_strip]

theorem stored_tomlGroups (laws : TextLaws) {items : List Value} {index : ℕ}
    (h : tomlGroups index owners items = .ok groups) : ∀ g ∈ groups, Stored g := by
  induction items generalizing index owners groups with
  | nil =>
    cases h
    exact fun g hg => absurd hg List.not_mem_nil
  | cons item items ih =>
    rw [tomlGroups] at h
    split at h
    next => cases h
    next group owners' hgroup =>
      cases hrest : tomlGroups (index + 1) owners' items with
      | error message =>
        rw [hrest] at h
        cases h
      | ok rest =>
        rw [hrest] at h
        cases h
        exact List.forall_mem_cons.mpr ⟨stored_tomlGroup laws hgroup, ih hrest⟩

/-- The groups of a profile file are as reading leaves them and share no member. -/
theorem stored_groupsFromToml (laws : TextLaws) {value : Option Value}
    (h : rolloverGroupsFromToml value = .ok groups) :
    (∀ g ∈ groups, Stored g) ∧ groups.Pairwise Apart := by
  unfold rolloverGroupsFromToml at h
  split at h
  next =>
    cases h
    exact ⟨fun g hg => absurd hg List.not_mem_nil, List.Pairwise.nil⟩
  next =>
    cases h
    exact ⟨fun g hg => absurd hg List.not_mem_nil, List.Pairwise.nil⟩
  next items => exact ⟨stored_tomlGroups laws h, (tomlGroups_apart h).2⟩
  next => cases h

theorem Stored.valid (h : Stored group) : Valid group :=
  valid_of_nodup h.nodup (not_lt.mpr h.enough)

/-! ## Sending -/

omit [PyRepr] in
theorem winnerValue_mem (winner : RolloverWinner) :
    (winnerValue winner, winner) ∈ rolloverWinners := by
  cases winner <;> decide

theorem parseRolloverWinner_value (laws : TextLaws) (winner : RolloverWinner) :
    parseRolloverWinner (some (.str (winnerValue winner))) = winner := by
  unfold parseRolloverWinner textOr
  rw [laws.winner _ (winnerValue_mem winner)]
  cases winner <;> rfl

theorem memberFromData_toData {member : RolloverMember}
    (h : Clean member.hardwareId ∧ Clean member.button) :
    rolloverMemberFromData (rolloverMemberToData member) = some member := by
  have hblank : ¬(member.hardwareId = "" ∨ member.button = "") := not_or.mpr ⟨h.1.2, h.2.2⟩
  have hhardware : getField [("hardware_id", .str member.hardwareId),
      ("button", .str member.button)] "hardware_id" = some (.str member.hardwareId) := rfl
  have hbutton : getField [("hardware_id", .str member.hardwareId),
      ("button", .str member.button)] "button" = some (.str member.button) := rfl
  unfold rolloverMemberFromData rolloverMemberToData
  simp only [hhardware, hbutton, textOr, h.1.1, h.2.1]
  exact if_neg hblank

theorem foldl_addMember {members : List RolloverMember}
    (hclean : ∀ m ∈ members, Clean m.hardwareId ∧ Clean m.button) {before : List RolloverMember}
    (hnodup : (before ++ members).Nodup) :
    (members.map rolloverMemberToData).foldl addMember before = before ++ members := by
  induction members generalizing before with
  | nil => exact (List.append_nil before).symm
  | cons member members ih =>
    obtain ⟨hmember, hrest⟩ := List.forall_mem_cons.mp hclean
    have hnew : member ∉ before := fun hmem =>
      (List.disjoint_of_nodup_append hnodup) hmem List.mem_cons_self
    have hadd : addMember before (rolloverMemberToData member) = before ++ [member] := by
      unfold addMember
      rw [memberFromData_toData hmember]
      exact if_neg hnew
    rw [← List.singleton_append, ← List.append_assoc] at hnodup ⊢
    rw [List.singleton_append, List.map_cons, List.foldl_cons, hadd]
    exact ih hrest hnodup

theorem groupFromData_toData (laws : TextLaws) (h : Stored group) :
    rolloverGroupFromData (rolloverGroupToData group) = some group := by
  have hmembers : normalizeRolloverMembers (some (.arr (group.members.map rolloverMemberToData))) =
      group.members := foldl_addMember h.members h.nodup
  have hread : rolloverGroupFromData (rolloverGroupToData group) =
      let members :=
        normalizeRolloverMembers (some (.arr (group.members.map rolloverMemberToData)))
      if members.length < rolloverMinMembers then none
      else some
        { name := PyStr.strip group.name
          members := members
          winner := parseRolloverWinner (some (.str (winnerValue group.winner)))
          restore := group.restore } := rfl
  rw [hread, hmembers, h.name, parseRolloverWinner_value laws]
  exact if_neg (not_lt.mpr h.enough)

theorem groupsFromData_serialize (laws : TextLaws) (h : ∀ g ∈ groups, Stored g) :
    rolloverGroupsFromData (serialize groups) = groups := by
  show (groups.map rolloverGroupToData).filterMap rolloverGroupFromData = groups
  rw [List.filterMap_map]
  refine (List.filterMap_congr fun g hg => ?_).trans List.filterMap_some
  exact groupFromData_toData laws (h g hg)

/-- No file loses a group to another of its own, and the daemon installs just the groups that
the session resolved from the files. -/
theorem resolved_groups_installed (laws : TextLaws) {layers : List (List RolloverGroup)}
    (h : ∀ groups ∈ layers, ∃ file, rolloverGroupsFromToml file = .ok groups) :
    (∀ groups ∈ layers, layerRolloverGroups groups = groups) ∧
      setRolloverGroups (serialize (layerRolloverGroups layers.flatten)) =
        layerRolloverGroups layers.flatten := by
  have hlayers : ∀ groups ∈ layers, (∀ g ∈ groups, Stored g) ∧ groups.Pairwise Apart := by
    intro groups hmem
    obtain ⟨file, hfile⟩ := h groups hmem
    exact stored_groupsFromToml laws hfile
  have hresolved : ∀ g ∈ surviving layers.flatten, Stored g := by
    intro g hg
    obtain ⟨groups, hgroups, hmem⟩ := List.mem_flatten.mp (mem_surviving hg).1
    exact (hlayers groups hgroups).1 g hmem
  constructor
  · intro groups hmem
    rw [layerRolloverGroups_eq]
    exact surviving_eq_self (fun g hg => ((hlayers groups hmem).1 g hg).valid)
      (hlayers groups hmem).2
  · unfold setRolloverGroups
    rw [layerRolloverGroups_eq layers.flatten, groupsFromData_serialize laws hresolved,
      layerRolloverGroups_eq]
    exact surviving_eq_self (fun g hg => (hresolved g hg).valid) (surviving_apart _)

/-! ## Saving -/

theorem tomlMembers_toData (label : String) {members : List RolloverMember}
    (hclean : ∀ m ∈ members, Clean m.hardwareId ∧ Clean m.button) (position : ℕ)
    {before : List RolloverMember} (hnodup : (before ++ members).Nodup)
    (hfree : ∀ m ∈ members, owners.get? m = none) :
    ∃ owners', tomlMembers label position before owners (members.map rolloverMemberToData) =
        .ok (before ++ members, owners') ∧
      ∀ m ∉ members, owners.get? m = none → owners'.get? m = none := by
  induction members generalizing position before owners with
  | nil =>
    refine ⟨owners, ?_, fun m _ hm => hm⟩
    rw [List.append_nil]
    rfl
  | cons member members ih =>
    obtain ⟨⟨hhardware, hbutton⟩, hrest⟩ := List.forall_mem_cons.mp hclean
    have hnew : member ∉ before := fun hmem =>
      (List.disjoint_of_nodup_append hnodup) hmem List.mem_cons_self
    have hmember : tomlMember label position before owners (rolloverMemberToData member) =
        .ok member := by
      have hfilled : ∀ {text}, Clean text → filledText (some (.str text)) = some text := by
        intro text hc
        show (if PyStr.strip text = "" then none else some (PyStr.strip text)) = some text
        rw [hc.1]
        exact if_neg hc.2
      have hfields : filledText (getField [("hardware_id", .str member.hardwareId),
            ("button", .str member.button)] "hardware_id") = some member.hardwareId ∧
          filledText (getField [("hardware_id", .str member.hardwareId),
            ("button", .str member.button)] "button") = some member.button :=
        ⟨hfilled hhardware, hfilled hbutton⟩
      unfold tomlMember rolloverMemberToData
      simp only [hfields.1, hfields.2]
      rw [if_neg hnew, hfree member List.mem_cons_self]
    have hhead : member ∉ members :=
      (List.nodup_cons.mp (List.nodup_append.mp hnodup).2.1).1
    rw [← List.singleton_append, ← List.append_assoc] at hnodup
    have hfree' : ∀ m ∈ members, (owners.insert member label).get? m = none := by
      intro m hm
      have hne : m ≠ member := fun heq => hhead (heq ▸ hm)
      rw [Dict.get?_insert, if_neg hne]
      exact hfree m (List.mem_cons_of_mem _ hm)
    obtain ⟨owners', hmembers, howners⟩ := ih hrest (position + 1) hnodup hfree'
    refine ⟨owners', ?_, fun m hm hnone => ?_⟩
    · rw [List.map_cons, tomlMembers, hmember]
      rw [List.append_assoc] at hmembers
      exact hmembers
    · obtain ⟨hne, hnot⟩ := not_or.mp (List.mem_cons.not.mp hm)
      refine howners m hnot ?_
      rw [Dict.get?_insert, if_neg hne]
      exact hnone

theorem tomlGroup_toData (laws : TextLaws) (h : Stored group) (index : ℕ)
    (hfree : ∀ m ∈ group.members, owners.get? m = none) :
    ∃ owners', tomlGroup index owners (rolloverGroupToData group) = .ok (group, owners') ∧
      ∀ m ∉ group.members, owners.get? m = none → owners'.get? m = none := by
  obtain ⟨fields, hdata, ⟨label, hlabel⟩, hwinner, hrestore, hmembers⟩ :
      ∃ fields, rolloverGroupToData group = .obj fields ∧
        (∃ label, tomlLabel index fields = .ok (group.name, label)) ∧
        getField fields "winner" = some (.str (winnerValue group.winner)) ∧
        getField fields "restore" = some (.bool group.restore) ∧
        getField fields "members" = some (.arr (group.members.map rolloverMemberToData)) :=
    ⟨_, rfl, ⟨_, congrArg (fun name => Except.ok (name, _)) h.name⟩, rfl, rfl, rfl⟩
  have hvalid : validWinner (some (.str (winnerValue group.winner))) = true := by
    unfold validWinner
    simp only [laws.winner _ (winnerValue_mem group.winner)]
    cases group.winner <;> rfl
  have hnodup : ([] ++ group.members).Nodup := h.nodup
  obtain ⟨owners', htoml, howners⟩ := tomlMembers_toData label h.members 1 hnodup hfree
  refine ⟨owners', ?_, howners⟩
  rw [hdata]
  unfold tomlGroup
  simp only [hlabel, hwinner, hvalid, Bool.not_true, Bool.false_eq_true, if_false, hrestore,
    tomlRestore, hmembers, htoml, List.nil_append, parseRolloverWinner_value laws]
  exact if_neg (not_lt.mpr h.enough)

theorem tomlGroups_toData (laws : TextLaws) (h : ∀ g ∈ groups, Stored g)
    (hapart : groups.Pairwise Apart) {index : ℕ}
    (hfree : ∀ g ∈ groups, ∀ m ∈ g.members, owners.get? m = none) :
    tomlGroups index owners (groups.map rolloverGroupToData) = .ok groups := by
  induction groups generalizing index owners with
  | nil => rfl
  | cons group groups ih =>
    obtain ⟨hgroup, hrest⟩ := List.forall_mem_cons.mp h
    obtain ⟨hhead, htail⟩ := List.pairwise_cons.mp hapart
    obtain ⟨hfirst, hothers⟩ := List.forall_mem_cons.mp hfree
    obtain ⟨owners', htoml, howners⟩ := tomlGroup_toData laws hgroup index hfirst
    have hfree' : ∀ g ∈ groups, ∀ m ∈ g.members, owners'.get? m = none := fun g hg m hm =>
      howners m (fun hshared => hhead g hg m hshared hm) (hothers g hg m hm)
    rw [List.map_cons, tomlGroups, htoml]
    simp only
    rw [ih hrest htail hfree']
    rfl

theorem groupsFromToml_serialize (laws : TextLaws) (h : ∀ g ∈ groups, Stored g)
    (hapart : groups.Pairwise Apart) :
    rolloverGroupsFromToml (some (serialize groups)) = .ok groups :=
  tomlGroups_toData laws h hapart fun _ _ _ _ => rfl

theorem load_of_stored (laws : TextLaws) (h : ∀ g ∈ groups, Stored g)
    (hapart : groups.Pairwise Apart) :
    rolloverGroupsFromToml (rolloverGroupsToToml groups) = .ok groups := by
  unfold rolloverGroupsToToml
  split
  next hnone =>
    rw [hnone]
    rfl
  next => exact groupsFromToml_serialize laws h hapart

/-- Just the groups that are as reading leaves them and share no member are loaded as they
were saved. -/
theorem saved_groups_load (laws : TextLaws) (groups : List RolloverGroup) :
    rolloverGroupsFromToml (rolloverGroupsToToml groups) = .ok groups ↔
      (∀ g ∈ groups, Stored g) ∧ groups.Pairwise Apart :=
  ⟨stored_groupsFromToml laws, fun h => load_of_stored laws h.1 h.2⟩

/-! ## Removing -/

omit [PyRepr]

def dropRolloverMembers (groups : List RolloverGroup) (drop : RolloverMember → Bool) :
    List RolloverGroup :=
  groups.filterMap fun group =>
    let members := group.members.filter fun candidate => !drop candidate
    if members.length < rolloverMinMembers then none else some { group with members := members }

def removeRolloverMember (groups : List RolloverGroup) (member : RolloverMember) :
    List RolloverGroup :=
  dropRolloverMembers groups fun candidate => candidate = member

def removeRolloverDevice (groups : List RolloverGroup) (hardwareId : String) :
    List RolloverGroup :=
  dropRolloverMembers groups fun candidate => candidate.hardwareId = hardwareId

/- What is left of a group too small cannot become larger. -/
theorem drop_drop (groups : List RolloverGroup) (p q : RolloverMember → Bool) :
    dropRolloverMembers (dropRolloverMembers groups p) q =
      dropRolloverMembers groups fun m => p m || q m := by
  unfold dropRolloverMembers
  rw [List.filterMap_filterMap]
  refine List.filterMap_congr fun group _ => ?_
  have hboth : (group.members.filter fun m => !p m).filter (fun m => !q m) =
      group.members.filter fun m => !(p m || q m) := by
    rw [List.filter_filter]
    refine List.filter_congr fun m _ => ?_
    rw [Bool.not_or, Bool.and_comm]
  have hle := List.length_filter_le (fun m => !q m) (group.members.filter fun m => !p m)
  rw [hboth] at hle
  dsimp only
  split
  next hfew =>
    rw [if_pos (lt_of_le_of_lt hle hfew)]
    rfl
  next =>
    dsimp only [Option.bind_some]
    rw [hboth]

theorem foldl_drop (henough : ∀ g ∈ groups, rolloverMinMembers ≤ g.members.length)
    (drops : List (RolloverMember → Bool)) :
    drops.foldl dropRolloverMembers groups =
      dropRolloverMembers groups fun m => drops.any fun drop => drop m := by
  induction drops using List.reverseRecOn with
  | nil =>
    unfold dropRolloverMembers
    refine (List.filterMap_some.symm.trans (List.filterMap_congr fun g hg => ?_))
    simp only [List.any_nil, Bool.not_false, List.filter_true]
    rw [if_neg (not_lt.mpr (henough g hg))]
  | append_singleton drops drop ih =>
    rw [List.foldl_append, ih, List.foldl_cons, List.foldl_nil, drop_drop]
    simp only [List.any_append, List.any_cons, List.any_nil, Bool.or_false]

theorem stored_drop [PyRepr] (h : ∀ g ∈ groups, Stored g) (hapart : groups.Pairwise Apart)
    (drop : RolloverMember → Bool) :
    (∀ g ∈ dropRolloverMembers groups drop, Stored g) ∧
      (dropRolloverMembers groups drop).Pairwise Apart := by
  have hleft : ∀ g g' : RolloverGroup,
      (if (g.members.filter fun m => !drop m).length < rolloverMinMembers then none
        else some { g with members := g.members.filter fun m => !drop m }) = some g' →
      g'.members.Sublist g.members ∧ g'.name = g.name ∧
        rolloverMinMembers ≤ g'.members.length := by
    intro g g' heq
    split at heq
    next => cases heq
    next henough =>
      cases heq
      exact ⟨List.filter_sublist, rfl, not_lt.mp henough⟩
  constructor
  · intro g' hg'
    obtain ⟨g, hg, heq⟩ := List.mem_filterMap.mp hg'
    obtain ⟨hsub, hname, henough⟩ := hleft g g' heq
    have hstored := h g hg
    exact ⟨hname ▸ hstored.name, fun m hm => hstored.members m (hsub.subset hm),
      hstored.nodup.sublist hsub, henough⟩
  · refine List.Pairwise.filterMap _ (fun g₁ g₂ happart g₁' h₁ g₂' h₂ m hm hm' => ?_) hapart
    exact happart m ((hleft g₁ g₁' h₁).1.subset hm) ((hleft g₂ g₂' h₂).1.subset hm')

/-- However members and devices are removed from the groups of a file, and in whatever order,
what is left is what none of the removals drops, and it is loaded as it is saved. -/
theorem removals_load [PyRepr] (laws : TextLaws) {file : Option Value} {groups : List RolloverGroup}
    (h : rolloverGroupsFromToml file = .ok groups) {drops drops' : List (RolloverMember → Bool)}
    (hperm : drops.Perm drops') :
    drops'.foldl dropRolloverMembers groups =
        dropRolloverMembers groups (fun m => drops.any fun drop => drop m) ∧
      rolloverGroupsFromToml (rolloverGroupsToToml (drops'.foldl dropRolloverMembers groups)) =
        .ok (drops'.foldl dropRolloverMembers groups) := by
  obtain ⟨hstored, hapart⟩ := stored_groupsFromToml laws h
  have hany : (fun m => drops'.any fun drop => drop m) = fun m => drops.any fun drop => drop m :=
    funext fun m => (hperm.any_eq (f := fun drop => drop m)).symm
  rw [foldl_drop (fun g hg => (hstored g hg).enough), hany]
  refine ⟨rfl, ?_⟩
  obtain ⟨hstored', hapart'⟩ := stored_drop hstored hapart fun m => drops.any fun drop => drop m
  exact load_of_stored laws hstored' hapart'

/- The text operations, as far as the groups below need them. -/
@[reducible] def plainText : PyRepr where
  strip := Strings.strip
  lower text := String.ofList (text.toList.map Char.toLower)
  casefold text := String.ofList (text.toList.map Char.toLower)
  str
    | .str text => text
    | _ => ""
  search _ _ := none
  repr
    | .str text => "'" ++ text ++ "'"
    | _ => ""

theorem plainText_laws : letI := plainText
    TextLaws :=
  letI := plainText
  ⟨Strings.strip_strip, by decide⟩

def strafe : RolloverGroup :=
  { name := "strafe"
    members := [⟨"1234:5678", "key_a"⟩, ⟨"1234:5678", "key_d"⟩, ⟨"1234:5678", "key_s"⟩] }

def turn : RolloverGroup :=
  { name := "", members := [⟨"1234:5678", "key_d"⟩, ⟨"1234:5678", "key_e"⟩], winner := .oldest }

theorem stored_strafe_turn : letI := plainText
    Stored strafe ∧ Stored turn :=
  letI := plainText
  ⟨⟨by decide, by decide, by decide, by decide⟩, ⟨by decide, by decide, by decide, by decide⟩⟩

theorem resolved_groups_installed_strafe : letI := plainText
    setRolloverGroups (serialize (layerRolloverGroups [[strafe], [turn]].flatten)) = [turn] := by
  let := plainText
  have hone : ∀ g, Stored g → ∃ file, rolloverGroupsFromToml file = .ok [g] := fun g hg =>
    ⟨_, groupsFromToml_serialize plainText_laws (List.forall_mem_singleton.mpr hg)
      (List.pairwise_singleton _ _)⟩
  have hfile : ∀ groups ∈ [[strafe], [turn]], ∃ file, rolloverGroupsFromToml file = .ok groups :=
    List.forall_mem_cons.mpr ⟨hone strafe stored_strafe_turn.1,
      List.forall_mem_singleton.mpr (hone turn stored_strafe_turn.2)⟩
  exact (resolved_groups_installed plainText_laws hfile).2.trans (by decide)

theorem saved_groups_load_strafe : letI := plainText
    rolloverGroupsFromToml (rolloverGroupsToToml [strafe]) = .ok [strafe] := by
  let := plainText
  exact (saved_groups_load plainText_laws [strafe]).mpr
    ⟨List.forall_mem_singleton.mpr stored_strafe_turn.1, List.pairwise_singleton _ _⟩

theorem removals_load_strafe : letI := plainText
    rolloverGroupsFromToml (rolloverGroupsToToml
        (removeRolloverMember [strafe] ⟨"1234:5678", "key_s"⟩)) =
      .ok (removeRolloverMember [strafe] ⟨"1234:5678", "key_s"⟩) := by
  let := plainText
  have hfile : rolloverGroupsFromToml (some (serialize [strafe])) = .ok [strafe] :=
    groupsFromToml_serialize plainText_laws (List.forall_mem_singleton.mpr stored_strafe_turn.1)
      (List.pairwise_singleton _ _)
  exact (removals_load plainText_laws hfile
    (List.Perm.refl [fun m => decide (m = ⟨"1234:5678", "key_s"⟩)])).2

end Keymasq.Profile.GroupStorage
