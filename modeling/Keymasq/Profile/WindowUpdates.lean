import Keymasq.Profile.LoadOrder

/-!
# Window updates that are skipped

A window update is ignored if no field that the rules look at has changed. Both windows
then match the same profiles.
-/

namespace Keymasq.Profile.WindowUpdates
open Foundation Foundation.Json Foundation.Sorting Keymasq.Combo.Names Keymasq.Profile.Model
  Keymasq.Profile.Resolution Keymasq.Profile.LoadOrder

section Updates
variable [PyText]

/-! ## The comparison -/

def windowMatchFields : List String := ["class", "title", "tag", "layer"]

/-- The window that a compositor listener tells of. -/
def normalizeWindowInfo (windowClass windowTitle : String) (windowTags : List String)
    (layer : String) : WindowInfo :=
  let windowInfo := Dict.ofList
    [("class", .str windowClass), ("title", .str windowTitle),
      ("tags", .arr ((windowTags.filter fun tag => PyStr.strip tag ≠ "").map .str))]
  if layer = "" then windowInfo else windowInfo.insert "layer" (.str layer)

/-- A string field, else the blank string. -/
def textField (windowInfo : WindowInfo) (field : String) : String :=
  match windowInfo.getD field (.str "") with
  | .str text => text
  | _ => ""

/- The fields of a window in the form in which they are compared. -/
structure MatchState where
  windowClass : String
  title : String
  tag : List String
  layer : String
  deriving DecidableEq

/-- `str(tag)` of the tags that are not blank, sorted and without repetitions. -/
def normalizeWindowInfoForMatch (windowInfo : WindowInfo) : MatchState where
  windowClass := textField windowInfo "class"
  title := textField windowInfo "title"
  tag := sortedSet (((((windowInfo.get? "tags").map Value.items).getD []).filter fun tag =>
    PyStr.strip (if tag.truthy then PyText.str tag else "") ≠ "").map PyText.str)
  layer := textField windowInfo "layer"

/-- A field of the state: a string or a tuple of strings. -/
def MatchState.get? (state : MatchState) (field : String) : Option (String ⊕ List String) :=
  if field = "class" then some (.inl state.windowClass)
  else if field = "title" then some (.inl state.title)
  else if field = "tag" then some (.inr state.tag)
  else if field = "layer" then some (.inl state.layer)
  else none

/-- The profile can start to match, or stop, with a window update. -/
def conditional (capabilities : List String) (profile : ProfileConfig) : Bool :=
  profile.enabled && !profile.isPermanent && !profile.windowRules.isEmpty &&
    !hasUnsupportedRules profile capabilities

def windowFieldsInUse (profiles : List ProfileConfig) (capabilities : List String) :
    List String :=
  (((profiles.filter (conditional capabilities)).flatMap ProfileConfig.windowRules).map
    fun rule => normalizeWindowRuleField rule.field).filter fun field => field ∈ windowMatchFields

def windowUpdateChangesProfileMatches (profiles : List ProfileConfig)
    (capabilities : List String) (previousWindow currentWindow : WindowInfo) : Bool :=
  let previous := normalizeWindowInfoForMatch previousWindow
  let current := normalizeWindowInfoForMatch currentWindow
  if previous = current then false
  else
    (windowFieldsInUse profiles capabilities).any fun field =>
      previous.get? (normalizeWindowRuleField field) ≠
        current.get? (normalizeWindowRuleField field)

/-! ## What a match reads -/

/- The string operations: `str` of a string is the string, a pattern is bad for all texts or
for none, and the names of the fields have no blanks and no capitals. -/
structure TextLaws : Prop where
  str_text : ∀ text, PyText.str (.str text) = text
  pattern : ∀ pattern text text', PyText.search pattern text = none →
    PyText.search pattern text' = none
  field : ∀ field ∈ windowMatchFields, normalizeWindowRuleField field = field

section Matches

variable {a b : WindowInfo}
  {windowClass windowTitle layer windowClass' windowTitle' layer' : String}
  {windowTags windowTags' capabilities : List String} {profiles : List ProfileConfig}

/-- The tags match if one of them does; a bad pattern never does. -/
theorem searchTags_getD (laws : TextLaws) (pattern : String) (tags : List Value) :
    (searchTags pattern tags).getD false = true ↔
      ∃ tag ∈ tags, PyText.search pattern (PyText.str tag) = some true := by
  induction tags with
  | nil => simp [searchTags]
  | cons tag tags ih =>
    unfold searchTags
    split
    · next hbad =>
      simp only [Option.getD_none, Bool.false_eq_true, false_iff]
      intro hany
      obtain ⟨other, -, hother⟩ := hany
      rw [laws.pattern pattern _ _ hbad] at hother
      cases hother
    · next hfound => simp [hfound]
    · next hmissed => simp [hmissed, ih]

theorem get?_normalizeWindowInfo (field : String) :
    (normalizeWindowInfo windowClass windowTitle windowTags layer).get? field =
      if field = "layer" ∧ layer ≠ "" then some (.str layer)
      else if field = "tags" then
        some (.arr ((windowTags.filter fun tag => PyStr.strip tag ≠ "").map .str))
      else if field = "title" then some (.str windowTitle)
      else if field = "class" then some (.str windowClass)
      else none := by
  have hlist : (Dict.ofList [("class", Value.str windowClass), ("title", .str windowTitle),
      ("tags", .arr ((windowTags.filter fun tag => PyStr.strip tag ≠ "").map .str))]).get? field =
      if field = "tags" then
        some (.arr ((windowTags.filter fun tag => PyStr.strip tag ≠ "").map .str))
      else if field = "title" then some (.str windowTitle)
      else if field = "class" then some (.str windowClass)
      else none := by
    simp only [Dict.ofList, List.foldl_cons, List.foldl_nil, Dict.get?_insert, Dict.get?_empty]
  unfold normalizeWindowInfo
  simp only
  split
  · next hblank =>
    exact hlist.trans (if_neg fun h => h.2 hblank).symm
  · next hlayer =>
    rw [Dict.get?_insert]
    by_cases hfield : field = "layer"
    · rw [if_pos hfield, if_pos ⟨hfield, hlayer⟩]
    · rw [if_neg hfield]
      exact hlist.trans (if_neg fun h => hfield h.1).symm

/-- The listener's window has strings there. -/
theorem getD_field {field : String} (hfield : field ∈ ["class", "title", "layer"]) :
    (normalizeWindowInfo windowClass windowTitle windowTags layer).getD field (.str "") =
      .str (textField (normalizeWindowInfo windowClass windowTitle windowTags layer) field) := by
  have hstr : ∃ text, (normalizeWindowInfo windowClass windowTitle windowTags layer).getD field
      (.str "") = .str text := by
    unfold Dict.getD
    rw [get?_normalizeWindowInfo]
    simp only [List.mem_cons, List.not_mem_nil, or_false] at hfield
    obtain rfl | rfl | rfl := hfield
    · exact ⟨windowClass, rfl⟩
    · exact ⟨windowTitle, rfl⟩
    · by_cases hlayer : layer = ""
      · exact ⟨"", by simp [hlayer]⟩
      · exact ⟨layer, by simp [hlayer]⟩
  obtain ⟨text, htext⟩ := hstr
  unfold textField
  rw [htext]

/-- The compared tags are the tags themselves. -/
theorem mem_tag (laws : TextLaws) (text : String) :
    text ∈ (normalizeWindowInfoForMatch
        (normalizeWindowInfo windowClass windowTitle windowTags layer)).tag ↔
      ∃ tag ∈ (((normalizeWindowInfo windowClass windowTitle windowTags layer).get? "tags").map
        Value.items).getD [], PyText.str tag = text := by
  unfold normalizeWindowInfoForMatch
  simp only [sortedSet, (sortedOn_perm _ _).mem_iff, List.mem_dedup, List.mem_filter,
    List.mem_map, decide_eq_true_eq]
  constructor
  · intro h
    obtain ⟨tag, ⟨htag, -⟩, hstr⟩ := h
    exact ⟨tag, htag, hstr⟩
  · intro h
    obtain ⟨tag, htag, rfl⟩ := h
    refine ⟨tag, ⟨htag, ?_⟩, rfl⟩
    rw [get?_normalizeWindowInfo] at htag
    simp only [Option.map_some, Option.getD_some, Value.items, String.reduceEq,
      false_and, if_false, if_true, List.mem_map, List.mem_filter, decide_eq_true_eq] at htag
    obtain ⟨original, ⟨-, hkept⟩, rfl⟩ := htag
    rw [laws.str_text]
    split
    · exact hkept
    · next hblank =>
      have hempty : original = "" := by simpa [Value.truthy] using hblank
      rwa [hempty] at hkept

/-- A rule reads one field, and of it what is compared. -/
theorem matchesRule_congr (laws : TextLaws) (rule : WindowRule)
    (hsame : normalizeWindowRuleField rule.field ∈ windowMatchFields →
      (normalizeWindowInfoForMatch (normalizeWindowInfo windowClass windowTitle windowTags
          layer)).get? (normalizeWindowRuleField rule.field) =
        (normalizeWindowInfoForMatch (normalizeWindowInfo windowClass' windowTitle' windowTags'
          layer')).get? (normalizeWindowRuleField rule.field)) :
    matchesRule rule (normalizeWindowInfo windowClass windowTitle windowTags layer) =
      matchesRule rule (normalizeWindowInfo windowClass' windowTitle' windowTags' layer') := by
  unfold matchesRule
  generalize normalizeWindowRuleField rule.field = field at hsame ⊢
  simp only
  by_cases htag : field = "tag"
  · have heq := hsame (by simp [htag, windowMatchFields])
    rw [htag] at heq
    have htags : (normalizeWindowInfoForMatch
        (normalizeWindowInfo windowClass windowTitle windowTags layer)).tag =
      (normalizeWindowInfoForMatch
        (normalizeWindowInfo windowClass' windowTitle' windowTags' layer')).tag :=
      Sum.inr.inj (Option.some.inj heq)
    rw [if_pos htag, if_pos htag, Bool.eq_iff_iff, searchTags_getD laws, searchTags_getD laws]
    constructor
    · intro h
      obtain ⟨tag, hmem, hfound⟩ := h
      have htext := (mem_tag laws _).mpr ⟨tag, hmem, rfl⟩
      rw [htags] at htext
      obtain ⟨tag', hmem', hstr⟩ := (mem_tag laws _).mp htext
      exact ⟨tag', hmem', by rw [hstr, hfound]⟩
    · intro h
      obtain ⟨tag, hmem, hfound⟩ := h
      have htext := (mem_tag laws _).mpr ⟨tag, hmem, rfl⟩
      rw [← htags] at htext
      obtain ⟨tag', hmem', hstr⟩ := (mem_tag laws _).mp htext
      exact ⟨tag', hmem', by rw [hstr, hfound]⟩
  · rw [if_neg htag, if_neg htag]
    split
    · next hfield =>
      rw [getD_field hfield, getD_field hfield]
      have heq := hsame (by
        simp only [List.mem_cons, List.not_mem_nil, or_false] at hfield
        obtain rfl | rfl | rfl := hfield
        · simp [windowMatchFields]
        · simp [windowMatchFields]
        · simp [windowMatchFields])
      have htext : textField (normalizeWindowInfo windowClass windowTitle windowTags layer) field =
          textField (normalizeWindowInfo windowClass' windowTitle' windowTags' layer') field := by
        simp only [List.mem_cons, List.not_mem_nil, or_false] at hfield
        obtain rfl | rfl | rfl := hfield
        · exact Sum.inl.inj (Option.some.inj heq)
        · exact Sum.inl.inj (Option.some.inj heq)
        · exact Sum.inl.inj (Option.some.inj heq)
      rw [htext]
    · rfl

theorem mem_fieldsInUse {profile : ProfileConfig} {rule : WindowRule}
    (hprofile : profile ∈ profiles) (hconditional : conditional capabilities profile = true)
    (hrule : rule ∈ profile.windowRules)
    (hfield : normalizeWindowRuleField rule.field ∈ windowMatchFields) :
    normalizeWindowRuleField rule.field ∈ windowFieldsInUse profiles capabilities := by
  unfold windowFieldsInUse
  refine List.mem_filter.mpr ⟨List.mem_map.mpr ⟨rule, ?_, rfl⟩, by simpa using hfield⟩
  exact List.mem_flatMap.mpr ⟨profile, List.mem_filter.mpr ⟨hprofile, hconditional⟩, hrule⟩

/-- A skipped update has not changed any field that is in use. -/
theorem field_unchanged (laws : TextLaws) {field : String}
    (hskip : windowUpdateChangesProfileMatches profiles capabilities a b = false)
    (hfield : field ∈ windowFieldsInUse profiles capabilities) :
    (normalizeWindowInfoForMatch a).get? field = (normalizeWindowInfoForMatch b).get? field := by
  unfold windowUpdateChangesProfileMatches at hskip
  simp only at hskip
  split at hskip
  · next heq => rw [heq]
  · have hsame := List.any_eq_false.mp hskip field hfield
    have hmatch : field ∈ windowMatchFields := by
      have hin := (List.mem_filter.mp hfield).2
      simpa using hin
    rw [laws.field field hmatch] at hsame
    simpa using hsame

theorem matches_of_skipped (laws : TextLaws)
    (hskip : windowUpdateChangesProfileMatches profiles capabilities
      (normalizeWindowInfo windowClass windowTitle windowTags layer)
      (normalizeWindowInfo windowClass' windowTitle' windowTags' layer') = false)
    {profile : ProfileConfig} (hprofile : profile ∈ profiles)
    (hconditional : conditional capabilities profile = true) :
    matchesWindowRules profile (some (normalizeWindowInfo windowClass windowTitle windowTags
        layer)) =
      matchesWindowRules profile (some (normalizeWindowInfo windowClass' windowTitle' windowTags'
        layer')) := by
  have hnonempty (windowClass windowTitle : String) (windowTags : List String) (layer : String) :
      (normalizeWindowInfo windowClass windowTitle windowTags layer).entries.isEmpty = false := by
    have hget := @get?_normalizeWindowInfo _ windowClass windowTitle layer windowTags "class"
    cases hentries : (normalizeWindowInfo windowClass windowTitle windowTags layer).entries with
    | nil =>
      unfold Dict.get? at hget
      rw [hentries] at hget
      simp at hget
    | cons entry entries => rfl
  unfold matchesWindowRules
  simp only [hnonempty]
  congr 1
  rw [Bool.eq_iff_iff, List.all_eq_true, List.all_eq_true]
  have hrule (rule : WindowRule) (hmem : rule ∈ profile.windowRules) :=
    matchesRule_congr laws rule fun hfield =>
      field_unchanged laws hskip (mem_fieldsInUse hprofile hconditional hmem hfield)
  exact ⟨fun h rule hmem => (hrule rule hmem) ▸ h rule hmem,
    fun h rule hmem => (hrule rule hmem).symm ▸ h rule hmem⟩

end Matches

/-! ## Skipped updates -/

/-- The resolution looks at the window only through the profiles that apply. -/
theorem resolve_congr {query query' : Query} {profiles : List ProfileConfig}
    (hnames : query.runtimeProfileNames = query'.runtimeProfileNames)
    (hids : query.hardwareIds = query'.hardwareIds)
    (happlies : ∀ profile ∈ profiles, applies query profile = applies query' profile) :
    resolve query profiles = resolve query' profiles := by
  have hfilter : profiles.filter (applies query) = profiles.filter (applies query') :=
    List.filter_congr happlies
  have horder : layerOrder query profiles = layerOrder query' profiles := by
    unfold layerOrder runtimeProfiles runtimeNames
    rw [hnames, hfilter]
  unfold resolve
  rw [horder, hfilter, hids]

/-- After a skipped update each enabled profile that the compositor supports matches the new
window if and only if it matched the old one, and the same profiles are active. -/
theorem skipped_update_sound (laws : TextLaws) {profiles : List ProfileConfig} {query : Query}
    {windowClass windowTitle layer windowClass' windowTitle' layer' : String}
    {windowTags windowTags' : List String}
    (hskip : windowUpdateChangesProfileMatches profiles query.capabilities
      (normalizeWindowInfo windowClass windowTitle windowTags layer)
      (normalizeWindowInfo windowClass' windowTitle' windowTags' layer') = false) :
    (∀ profile ∈ profiles, profile.enabled = true → profile.isPermanent = false →
        hasUnsupportedRules profile query.capabilities = false →
        (matchesWindowRules profile
            (some (normalizeWindowInfo windowClass windowTitle windowTags layer)) = true ↔
          matchesWindowRules profile
            (some (normalizeWindowInfo windowClass' windowTitle' windowTags' layer')) = true)) ∧
      resolve { query with
          windowInfo := some (normalizeWindowInfo windowClass windowTitle windowTags layer) }
          profiles =
        resolve { query with
          windowInfo := some (normalizeWindowInfo windowClass' windowTitle' windowTags' layer') }
          profiles := by
  have hmatches (profile : ProfileConfig) (hmem : profile ∈ profiles)
      (henabled : profile.enabled = true) (hpermanent : profile.isPermanent = false)
      (hsupported : hasUnsupportedRules profile query.capabilities = false) :
      matchesWindowRules profile
          (some (normalizeWindowInfo windowClass windowTitle windowTags layer)) =
        matchesWindowRules profile
          (some (normalizeWindowInfo windowClass' windowTitle' windowTags' layer')) := by
    cases hrules : profile.windowRules.isEmpty with
    | true =>
      unfold matchesWindowRules
      rw [hrules]
      rfl
    | false =>
      refine matches_of_skipped laws hskip hmem ?_
      unfold conditional
      rw [henabled, hpermanent, hrules, hsupported]
      rfl
  refine ⟨fun profile hmem henabled hpermanent hsupported => ?_, ?_⟩
  · rw [hmatches profile hmem henabled hpermanent hsupported]
  · refine resolve_congr rfl rfl fun profile hmem => ?_
    unfold applies
    simp only
    cases henabled : profile.enabled with
    | false => rfl
    | true =>
      cases hsupported : hasUnsupportedRules profile query.capabilities with
      | true => rfl
      | false =>
        cases hpermanent : profile.isPermanent with
        | true => rfl
        | false => rw [hmatches profile hmem henabled hpermanent hsupported]

end Updates

/-! ### An update that is skipped -/

/-- A terminal changes its title, and the only rule is about the class. -/
theorem title_update_skipped :
    @windowUpdateChangesProfileMatches asciiText
        [{ name := "Terminal", windowRules := [⟨"class", "kitty"⟩] }] []
        (@normalizeWindowInfo asciiText "kitty" "~" [] "")
        (@normalizeWindowInfo asciiText "kitty" "~/src" [] "") = false ∧
      (@matchesWindowRules asciiText { name := "Terminal", windowRules := [⟨"class", "kitty"⟩] }
          (some (@normalizeWindowInfo asciiText "kitty" "~" [] "")) = true ↔
        @matchesWindowRules asciiText { name := "Terminal", windowRules := [⟨"class", "kitty"⟩] }
          (some (@normalizeWindowInfo asciiText "kitty" "~/src" [] "")) = true) := by
  have hlaws : @TextLaws asciiText := by
    refine @TextLaws.mk asciiText (fun _ => rfl) (fun _ _ _ h => by cases h) ?_
    decide
  have hskip : @windowUpdateChangesProfileMatches asciiText
      [{ name := "Terminal", windowRules := [⟨"class", "kitty"⟩] }] ({} : Query).capabilities
      (@normalizeWindowInfo asciiText "kitty" "~" [] "")
      (@normalizeWindowInfo asciiText "kitty" "~/src" [] "") = false := by decide
  obtain ⟨hmatches, -⟩ := @skipped_update_sound asciiText hlaws _ {} _ _ _ _ _ _ _ _ hskip
  exact ⟨hskip, hmatches _ List.mem_cons_self rfl rfl rfl⟩

end Keymasq.Profile.WindowUpdates
