import Keymasq.Foundation.Alternation
import Keymasq.TypeMacro.Compile
import Mathlib.Tactic.Linarith

/-!
# Balanced key events

The events of a typed text come in the order of their times. The edges of every
key alternate exactly when no chord of the text holds a key twice; a shortcut
does so when the key it names is one of the modifiers it holds.
-/

namespace Keymasq.TypeMacro.Balance
open Foundation Foundation.Alternation Foundation.Strings
open Keymasq.TypeMacro.Text Keymasq.TypeMacro.Compile

/-- A device and a code. -/
abbrev Key := DeviceType × Int

/-- The key events, as edges of their keys. -/
def keyEdges (events : List Event) : List (Key × Int) :=
  events.filterMap fun e =>
    if e.type = evKey then some ((e.deviceType, e.code), e.value) else none

theorem keyEdges_append (as bs : List Event) : keyEdges (as ++ bs) = keyEdges as ++ keyEdges bs :=
  List.filterMap_append

/-! ## What the helpers append -/

/-- The second timeline continues the first: the new events lie between the two
times, in order, and their edges are the given ones. -/
def Appends (s s' : Timeline) (edges : List (Key × Int)) : Prop :=
  ∃ new, s'.1 = s.1 ++ new ∧ keyEdges new = edges ∧ s.2 ≤ s'.2 ∧
    new.Pairwise (·.tUs ≤ ·.tUs) ∧ ∀ e ∈ new, s.2 ≤ e.tUs ∧ e.tUs ≤ s'.2

theorem Appends.trans {s s' s'' : Timeline} {as bs : List (Key × Int)} (ha : Appends s s' as)
    (hb : Appends s' s'' bs) : Appends s s'' (as ++ bs) := by
  obtain ⟨new, hnew, hedges, hle, hsorted, hbounds⟩ := ha
  obtain ⟨new', hnew', hedges', hle', hsorted', hbounds'⟩ := hb
  refine ⟨new ++ new', ?_, ?_, hle.trans hle', ?_, ?_⟩
  · rw [hnew', hnew, List.append_assoc]
  · rw [keyEdges_append, hedges, hedges']
  · rw [List.pairwise_append]
    refine ⟨hsorted, hsorted', fun a ha b hb => ?_⟩
    exact (hbounds a ha).2.trans (hbounds' b hb).1
  · intro e he
    rcases List.mem_append.mp he with he | he
    · exact ⟨(hbounds e he).1, (hbounds e he).2.trans hle'⟩
    · exact ⟨hle.trans (hbounds' e he).1, (hbounds' e he).2⟩

theorem appends_refl (s : Timeline) : Appends s s [] :=
  ⟨[], (List.append_nil _).symm, rfl, le_refl _, List.Pairwise.nil, fun _ he => by cases he⟩

/-- Time passes. -/
theorem appends_wait (events : List Event) {t t' : Int} (h : t ≤ t') :
    Appends (events, t) (events, t') [] :=
  ⟨[], (List.append_nil _).symm, rfl, h, List.Pairwise.nil, fun _ he => by cases he⟩

theorem appends_event (events : List Event) (e : Event) :
    Appends (events, e.tUs) (events ++ [e], e.tUs) (keyEdges [e]) := by
  refine ⟨[e], rfl, rfl, le_refl _, List.pairwise_singleton _ _, fun e' he => ?_⟩
  rw [List.mem_singleton.mp he]
  exact ⟨le_refl _, le_refl _⟩

theorem appends_keyEvent (events : List Event) (device : DeviceType) (code value t : Int) :
    Appends (events, t) (appendKeyEvent events device code value t, t) [((device, code), value)] :=
  appends_event events { deviceType := device, type := evKey, code := code, value := value, tUs := t }

theorem appends_macroEvent (events : List Event) (t : Int) (action : MacroAction) :
    Appends (events, t) (events ++ [macroEvent t action], t) [] :=
  appends_event events (macroEvent t action)

theorem appends_pressModifiers {settle : Int} (hsettle : 0 ≤ settle) (mods : List Int)
    (s : Timeline) :
    Appends s (mods.foldl (pressModifier settle) s)
      ((mods.map (Prod.mk DeviceType.keyboard)).map fun k => (k, 1)) := by
  induction mods generalizing s with
  | nil => exact appends_refl s
  | cons code mods ih =>
    have hpress := appends_keyEvent s.1 .keyboard code 1 s.2
    have hwait := appends_wait (appendKeyEvent s.1 .keyboard code 1 s.2)
      (show s.2 ≤ s.2 + settle by omega)
    exact (hpress.trans hwait).trans (ih _)

theorem appends_releaseModifiers {settle : Int} (hsettle : 0 ≤ settle) (mods : List Int)
    (s : Timeline) :
    Appends s (mods.foldl (releaseModifier settle) s)
      ((mods.map (Prod.mk DeviceType.keyboard)).map fun k => (k, 0)) := by
  induction mods generalizing s with
  | nil => exact appends_refl s
  | cons code mods ih =>
    have hwait := appends_wait s.1 (show s.2 ≤ s.2 + settle by omega)
    have hrelease := appends_keyEvent s.1 .keyboard code 0 (s.2 + settle)
    exact (hwait.trans hrelease).trans (ih _)

/-- A chord presses its modifiers and its key, and releases them in reverse. -/
theorem appends_chordEvents {down settle : Int} (hdown : 0 ≤ down) (hsettle : 0 ≤ settle)
    (s : Timeline) (mods : List Int) (code : Int) :
    Appends s (appendChordEvents s mods code down settle)
      (chord ((mods ++ [code]).map (Prod.mk DeviceType.keyboard))) := by
  unfold appendChordEvents
  dsimp only
  have hpress := appends_pressModifiers hsettle mods s
  generalize mods.foldl (pressModifier settle) s = s₁ at hpress ⊢
  have hkey := appends_keyEvent s₁.1 .keyboard code 1 s₁.2
  generalize appendKeyEvent s₁.1 .keyboard code 1 s₁.2 = events at hkey ⊢
  have hwait := appends_wait events (show s₁.2 ≤ s₁.2 + down * 1000 by omega)
  have hup := appends_keyEvent events .keyboard code 0 (s₁.2 + down * 1000)
  have hrelease := appends_releaseModifiers hsettle mods.reverse
    (appendKeyEvent events .keyboard code 0 (s₁.2 + down * 1000), s₁.2 + down * 1000)
  have hall := (((hpress.trans hkey).trans hwait).trans hup).trans hrelease
  have hedges : chord ((mods ++ [code]).map (Prod.mk DeviceType.keyboard)) =
      (mods.map (Prod.mk DeviceType.keyboard)).map (fun k => (k, 1)) ++
        [((DeviceType.keyboard, code), 1)] ++ [] ++ [((DeviceType.keyboard, code), 0)] ++
        (mods.reverse.map (Prod.mk DeviceType.keyboard)).map fun k => (k, 0) := by
    simp [chord]
  rw [hedges]
  exact hall

/-! ## Distinct chords -/

def DistinctPress (press : KeyPress) : Prop := (press.modifiers ++ [press.code]).Nodup

instance (press : KeyPress) : Decidable (DistinctPress press) :=
  inferInstanceAs (Decidable (List.Nodup _))

/-- No press of the character holds its own key. -/
def DistinctKey (key : TypedKey) : Prop := ∀ press ∈ TypedKey.presses key, DistinctPress press

/-- The timeline goes on with presses and releases that pair up, and that are
balanced exactly under the condition. -/
def Types (s s' : Timeline) (condition : Prop) : Prop :=
  ∃ edges, Appends s s' edges ∧ Paired edges ∧ (Balanced edges ↔ condition)

theorem Types.trans {s s' s'' : Timeline} {p q : Prop} (hp : Types s s' p) (hq : Types s' s'' q) :
    Types s s'' (p ∧ q) := by
  obtain ⟨as, ha, hpaired, hbalanced⟩ := hp
  obtain ⟨bs, hb, hpaired', hbalanced'⟩ := hq
  refine ⟨as ++ bs, ha.trans hb, hpaired.append hpaired', ?_⟩
  rw [balanced_append_iff hpaired, hbalanced, hbalanced']

theorem Types.of_iff {s s' : Timeline} {p q : Prop} (hp : Types s s' p) (h : p ↔ q) :
    Types s s' q := by
  rwa [propext h] at hp

theorem types_of_appends_nil {s s' : Timeline} (h : Appends s s' []) : Types s s' True :=
  ⟨[], h, paired_nil, iff_of_true balanced_nil trivial⟩

theorem types_chord {s s' : Timeline} {ks : List Key} (h : Appends s s' (chord ks)) :
    Types s s' ks.Nodup :=
  ⟨chord ks, h, paired_chord ks, balanced_chord_iff ks⟩

section Tokens

variable {down settle : Int} (hdown : 0 ≤ down) (hsettle : 0 ≤ settle)

include hdown hsettle

theorem types_chordEvents (s : Timeline) (mods : List Int) (code : Int) :
    Types s (appendChordEvents s mods code down settle) (mods ++ [code]).Nodup := by
  have hinj : Function.Injective (Prod.mk DeviceType.keyboard : Int → Key) :=
    Prod.mk_right_injective _
  apply (types_chord (appends_chordEvents hdown hsettle s mods code)).of_iff
  exact List.nodup_map_iff hinj

theorem types_nextPresses (presses : List KeyPress) (s : Timeline) :
    Types s (presses.foldl (appendNextPress down settle) s)
      (∀ press ∈ presses, DistinctPress press) := by
  induction presses generalizing s with
  | nil =>
    apply (types_of_appends_nil (appends_refl s)).of_iff
    simp
  | cons press presses ih =>
    have hwait := types_of_appends_nil (appends_wait s.1 (show s.2 ≤ s.2 + settle by omega))
    have hpress := types_chordEvents hdown hsettle (s.1, s.2 + settle) press.modifiers press.code
    apply ((hwait.trans hpress).trans (ih _)).of_iff
    rw [true_and, List.forall_mem_cons]
    rfl

theorem types_directKey (s : Timeline) (key : TypedKey) :
    Types s (appendDirectKeyEvents s key down settle) (DistinctKey key) := by
  unfold appendDirectKeyEvents DistinctKey
  cases TypedKey.presses key with
  | nil =>
    apply (types_of_appends_nil (appends_refl s)).of_iff
    simp
  | cons press presses =>
    have hpress := types_chordEvents hdown hsettle s press.modifiers press.code
    apply (hpress.trans (types_nextPresses hdown hsettle presses _)).of_iff
    rw [List.forall_mem_cons]
    rfl

omit hsettle in
theorem types_click (s : Timeline) (code : Int) : Types s (appendClick s code down) True := by
  have hpress := appends_keyEvent s.1 .mouse code 1 s.2
  have hwait := appends_wait (appendKeyEvent s.1 .mouse code 1 s.2)
    (show s.2 ≤ s.2 + down * 1000 by omega)
  have hrelease := appends_keyEvent (appendKeyEvent s.1 .mouse code 1 s.2) .mouse code 0
    (s.2 + down * 1000)
  have hclick : Appends s _ (chord [(DeviceType.mouse, code)]) :=
    (hpress.trans hwait).trans hrelease
  apply (types_chord hclick).of_iff
  simp

end Tokens

section Edges

variable [PyUnicode] [Ecodes]

/-- The chord that starts Unicode input and the hexadecimal digits hold no key twice. -/
def DistinctUnicode (ch : String) (layout : KeyboardLayout) : Prop :=
  (∀ uKey, layoutKey "u" layout = .ok uKey →
    uKey.code ≠ keyLeftCtrl ∧ uKey.code ≠ keyLeftShift) ∧
  ∀ digit ∈ hexDigits ch, ∀ key, layoutKey (String.ofList [digit]) layout = .ok key →
    DistinctKey key

/-- No chord of the token holds a key twice. The modifiers of a shortcut differ
from each other, so its key must not be one of them. -/
def DistinctToken (layout : KeyboardLayout) (token : Token) : Prop :=
  match token.kind with
  | .shortcut => ∀ modifierCodes keyCode,
      parseTypeMacroShortcut token.value layout = .ok (modifierCodes, keyCode) →
        keyCode ∉ modifierCodes
  | .key => ∀ key, resolveTypeMacroKey token.value layout = .ok key → DistinctKey key
  | .char =>
    match layoutKey token.value layout with
    | .ok key => DistinctKey key
    | .error _ => DistinctUnicode token.value layout
  | _ => True

omit [PyUnicode] [Ecodes] in
theorem shortcutModifiers_nodup {names : List String} {codes result : List Int}
    (hcodes : codes.Nodup) (h : shortcutModifiers codes names = .ok result) : result.Nodup := by
  induction names generalizing codes with
  | nil =>
    cases h
    exact hcodes
  | cons name names ih =>
    rw [shortcutModifiers] at h
    split at h
    · cases h
    · split at h
      · cases h
      · rename_i code _ hnew
        refine ih (List.nodup_append.mpr ⟨hcodes, List.nodup_singleton code, ?_⟩) h
        rintro a ha b hb rfl
        exact hnew (List.mem_singleton.mp hb ▸ ha)

omit [PyUnicode] [Ecodes] in
theorem foldl_addModifier_nodup (added : List Int) {codes : List Int} (hcodes : codes.Nodup) :
    (added.foldl addModifier codes).Nodup := by
  induction added generalizing codes with
  | nil => exact hcodes
  | cons code added ih =>
    refine ih ?_
    unfold addModifier
    split
    · exact hcodes
    · rename_i hnew
      refine List.nodup_append.mpr ⟨hcodes, List.nodup_singleton code, ?_⟩
      rintro a ha b hb rfl
      exact hnew (List.mem_singleton.mp hb ▸ ha)

/-- The modifiers of a shortcut differ from each other. -/
theorem parseTypeMacroShortcut_nodup {shortcut : String} {layout : KeyboardLayout}
    {modifierCodes : List Int} {keyCode : Int}
    (h : parseTypeMacroShortcut shortcut layout = .ok (modifierCodes, keyCode)) :
    modifierCodes.Nodup := by
  unfold parseTypeMacroShortcut at h
  dsimp only at h
  split at h
  · cases h
  · split at h
    · cases h
    · split at h
      · cases h
      · rename_i codes hcodes
        split at h
        · cases h
        · split at h
          · cases h
          · cases h
            exact foldl_addModifier_nodup _ (shortcutModifiers_nodup List.nodup_nil hcodes)

section Tokens

variable {down settle : Int} (hdown : 0 ≤ down) (hsettle : 0 ≤ settle)

include hdown hsettle

theorem types_shortcut {s s' : Timeline} {shortcut : String} {layout : KeyboardLayout}
    (h : appendTypeMacroShortcutEvents s shortcut down settle layout = .ok s') :
    Types s s' (∀ modifierCodes keyCode,
      parseTypeMacroShortcut shortcut layout = .ok (modifierCodes, keyCode) →
        keyCode ∉ modifierCodes) := by
  unfold appendTypeMacroShortcutEvents at h
  split at h
  · cases h
  · rename_i modifierCodes keyCode hparse
    cases h
    apply (types_chordEvents hdown hsettle s modifierCodes keyCode).of_iff
    have hnodup := parseTypeMacroShortcut_nodup hparse
    constructor
    · intro hchord mods code hsame
      rw [hparse] at hsame
      cases hsame
      exact fun hmem => (List.nodup_append.mp hchord).2.2 keyCode hmem keyCode (by simp) rfl
    · intro hnot
      refine List.nodup_append.mpr ⟨hnodup, List.nodup_singleton _, ?_⟩
      rintro a ha b hb rfl
      exact hnot modifierCodes keyCode hparse (List.mem_singleton.mp hb ▸ ha)

omit [Ecodes] in
theorem types_hexDigits {layout : KeyboardLayout} (digits : List Char) {s s' : Timeline}
    (h : appendHexDigits down settle layout s digits = .ok s') :
    Types s s' (∀ digit ∈ digits, ∀ key,
      layoutKey (String.ofList [digit]) layout = .ok key → DistinctKey key) := by
  induction digits generalizing s with
  | nil =>
    cases h
    apply (types_of_appends_nil (appends_refl _)).of_iff
    simp
  | cons digit digits ih =>
    rw [appendHexDigits] at h
    split at h
    · cases h
    · rename_i key hkey
      apply ((types_directKey hdown hsettle s key).trans (ih h)).of_iff
      rw [List.forall_mem_cons]
      apply and_congr_left'
      constructor
      · intro hdistinct key' hsame
        rw [hkey] at hsame
        cases hsame
        exact hdistinct
      · intro hall
        exact hall key hkey

omit [Ecodes] in
theorem types_unicodeChar {s s' : Timeline} {ch : String} {layout : KeyboardLayout}
    (h : appendUnicodeCharEvents s ch down settle layout = .ok s') :
    Types s s' (DistinctUnicode ch layout) := by
  unfold appendUnicodeCharEvents at h
  split at h
  · cases h
  · split at h
    · cases h
    · rename_i uKey hu
      dsimp only at h
      split at h
      · cases h
      · rename_i s₂ hdigits
        cases h
        have hchord := types_chordEvents hdown hsettle s [keyLeftCtrl, keyLeftShift] uKey.code
        generalize appendChordEvents s [keyLeftCtrl, keyLeftShift] uKey.code down settle = s₁
          at hchord hdigits
        have hwait := types_of_appends_nil
          (appends_wait s₁.1 (show s₁.2 ≤ s₁.2 + settle by omega))
        have hhex := types_hexDigits hdown hsettle _ hdigits
        have hspace := types_directKey hdown hsettle s₂ { code := keySpace }
        apply (((hchord.trans hwait).trans hhex).trans hspace).of_iff
        have hfinal : DistinctKey { code := keySpace } := by
          simp [DistinctKey, TypedKey.presses, DistinctPress]
        have hstart : ([keyLeftCtrl, keyLeftShift] ++ [uKey.code]).Nodup ↔
            ∀ uKey', layoutKey "u" layout = .ok uKey' →
              uKey'.code ≠ keyLeftCtrl ∧ uKey'.code ≠ keyLeftShift := by
          rw [hu]
          simp [keyLeftCtrl, keyLeftShift, eq_comm]
        rw [hstart, and_true, and_iff_left hfinal]
        rfl

end Tokens

omit [PyUnicode] [Ecodes] in
theorem types_naturalMove (s : Timeline) (x y : Int) (stopOnFailure : Bool) :
    Types s (appendTypeMacroNaturalMoveEvent s x y stopOnFailure, s.2 + 1) True := by
  apply types_of_appends_nil
  have hmove := appends_macroEvent s.1 s.2
    (.mouseMoveNaturalAbs { x := x, y := y, stopOnFailure := stopOnFailure })
  exact hmove.trans (appends_wait _ (by omega))

omit [PyUnicode] [Ecodes] in
theorem types_wait {s s' : Timeline} {args : List String} (h : appendWaitEvent s args = .ok s') :
    Types s s' True := by
  apply types_of_appends_nil
  unfold appendWaitEvent at h
  split at h
  · split at h
    · cases h
    · cases h
      exact appends_macroEvent s.1 s.2 _
  · split at h
    · cases h
    · split at h
      · cases h
      · split at h
        · cases h
        · cases h
          exact appends_macroEvent s.1 s.2 _
  · cases h

omit [PyUnicode] [Ecodes] in
theorem types_mouseMove {s s' : Timeline} {value : String}
    (h : appendTypeMacroMouseMoveEvent s value = .ok s') : Types s s' True := by
  unfold appendTypeMacroMouseMoveEvent at h
  split at h
  · cases h
  · cases h
    exact types_naturalMove s _ _ _

omit [PyUnicode] [Ecodes] in
theorem types_mouseClick {down : Int} (hdown : 0 ≤ down) {s s' : Timeline} {value : String}
    (h : appendTypeMacroMouseClickEvents s value down = .ok s') : Types s s' True := by
  unfold appendTypeMacroMouseClickEvents at h
  dsimp only at h
  split at h
  · cases h
  · split at h
    · cases h
      exact types_click hdown s _
    · split at h
      · cases h
      · split at h
        · cases h
        · cases h
          apply ((types_naturalMove s _ _ _).trans (types_click hdown _ _)).of_iff
          exact and_self_iff
    · cases h

/-- What a token appends is balanced exactly when its chords are distinct. -/
theorem types_token {o : TypeOptions} (hdown : 0 ≤ o.downMs) {index : Nat} {s s' : Timeline}
    {token : Token} (h : appendToken o index s token = .ok s') :
    Types s s' (DistinctToken o.layout token) := by
  have hsettle : 0 ≤ modifierSettleUs := by decide
  unfold appendToken at h
  unfold DistinctToken
  cases hkind : token.kind with
  | wait =>
    rw [hkind] at h
    exact types_wait h
  | macroCall =>
    rw [hkind] at h
    cases h
    exact types_of_appends_nil (appends_macroEvent s.1 s.2 _)
  | mouseMove =>
    rw [hkind] at h
    exact types_mouseMove h
  | mouseClick =>
    rw [hkind] at h
    exact types_mouseClick hdown h
  | shortcut =>
    rw [hkind] at h
    exact types_shortcut hdown hsettle h
  | key =>
    rw [hkind] at h
    dsimp only at h ⊢
    split at h
    · cases h
    · rename_i key hkey
      cases h
      apply (types_directKey hdown hsettle s key).of_iff
      constructor
      · intro hdistinct key' hsame
        rw [hkey] at hsame
        cases hsame
        exact hdistinct
      · intro hall
        exact hall key hkey
  | char =>
    rw [hkind] at h
    dsimp only at h ⊢
    cases hkey : layoutKey token.value o.layout with
    | ok key =>
      rw [hkey] at h
      cases h
      exact types_directKey hdown hsettle s key
    | error message =>
      rw [hkey] at h
      dsimp only at h ⊢
      split at h
      · exact types_unicodeChar hdown hsettle h
      · cases h

theorem types_tokens {o : TypeOptions} (hdown : 0 ≤ o.downMs) (hpause : 0 ≤ o.pauseMs)
    (tokens : List Token) {index : Nat} {s s' : Timeline}
    (h : appendTokens o index s tokens = .ok s') :
    Types s s' (∀ token ∈ tokens, DistinctToken o.layout token) := by
  induction tokens generalizing index s with
  | nil =>
    cases h
    apply (types_of_appends_nil (appends_refl _)).of_iff
    simp
  | cons token next ih =>
    rw [appendTokens] at h
    split at h
    · cases h
    · rename_i s₁ htoken
      dsimp only at h
      have hwait : Types s₁ (s₁.1,
          if (decide (token.kind ≠ .wait) && shouldAddTypePause o.pauseMs next) = true then
            s₁.2 + o.pauseMs * 1000 else s₁.2) True := by
        apply types_of_appends_nil
        apply appends_wait
        split
        · omega
        · exact le_refl _
      apply (((types_token hdown htoken).trans hwait).trans (ih h)).of_iff
      rw [and_true, List.forall_mem_cons]

/-- Every chord that the text asks for consists of distinct keys. -/
def DistinctChords (rounds : Nat) (text : List Char) (useUnicodeInput : Bool)
    (layout : KeyboardLayout) : Prop :=
  ∀ normalized tokens, normalizeFor rounds useUnicodeInput text = some normalized →
    typeMacroTokens normalized = .ok tokens → ∀ token ∈ tokens, DistinctToken layout token

/-- The compiled events are in order, and every key alternates between pressed
and released exactly when no chord of the text holds a key twice. -/
theorem typed_text_balanced_iff {rounds : Nat} {text : List Char} {downMs pauseMs : Int}
    {useUnicodeInput : Bool} {layout : KeyboardLayout} {events : List Event}
    (h : buildTypeMacroEvents rounds text downMs pauseMs useUnicodeInput layout =
      some (.ok events)) :
    (events.Pairwise (·.tUs ≤ ·.tUs) ∧ Balanced (keyEdges events)) ↔
      DistinctChords rounds text useUnicodeInput layout := by
  unfold buildTypeMacroEvents at h
  rw [Option.map_eq_some_iff] at h
  obtain ⟨normalized, hnormalized, h⟩ := h
  split at h
  · cases h
  · rename_i tokens htokens
    cases hrun : appendTokens ⟨max 0 downMs, max 0 pauseMs, useUnicodeInput, layout⟩ 0 ([], 0)
        tokens with
    | error message =>
      rw [hrun] at h
      cases h
    | ok s =>
      rw [hrun] at h
      cases h
      obtain ⟨edges, ⟨new, hnew, hedges, -, hsorted, -⟩, -, hbalanced⟩ :=
        types_tokens (le_max_left 0 downMs) (le_max_left 0 pauseMs) tokens hrun
      rw [List.nil_append] at hnew
      rw [hnew, hedges, hbalanced]
      constructor
      · rintro ⟨-, hall⟩ normalized' tokens' hsame htokens'
        rw [hnormalized] at hsame
        cases hsame
        rw [htokens] at htokens'
        cases htokens'
        exact hall
      · intro hall
        exact ⟨hsorted, hall normalized tokens hnormalized htokens⟩

end Edges

/-- The tables on the ASCII texts below. -/
@[reducible] def asciiUnicode : PyUnicode where
  lower s := String.ofList (s.toList.map Char.toLower)
  upper s := String.ofList (s.toList.map Char.toUpper)
  nfkc := id
  name _ := "UNKNOWN"
  repr s := "'" ++ s ++ "'"

@[reducible] def ctrlEcodes : Ecodes where
  code name := [("KEY_LEFTCTRL", keyLeftCtrl), ("KEY_A", 30)].lookup name
  isKey code := [keyLeftCtrl, 30].contains code

/- The letter of the US layout that the texts use. -/
def usLayout : KeyboardLayout := ⟨"us", Dict.ofList [("a", { code := 30 })]⟩

def selectAll : List Char := "<shortcut:ctrl+a>".toList

theorem typed_text_balanced_iff_selectAll :
    ∃ events, @buildTypeMacroEvents asciiUnicode ctrlEcodes 1 selectAll 5 10 false usLayout =
        some (.ok events) ∧ events.Pairwise (·.tUs ≤ ·.tUs) ∧ Balanced (keyEdges events) := by
  let := asciiUnicode
  let := ctrlEcodes
  have hbuild : buildTypeMacroEvents 1 selectAll 5 10 false usLayout =
      some (.ok [⟨.keyboard, 1, 29, 1, 0, none⟩, ⟨.keyboard, 1, 30, 1, 1000, none⟩,
        ⟨.keyboard, 1, 30, 0, 6000, none⟩, ⟨.keyboard, 1, 29, 0, 7000, none⟩]) := by
    decide
  have hnormalized : normalizeFor 1 false selectAll = some selectAll := by decide
  have htokens : typeMacroTokens selectAll = .ok [⟨.shortcut, "ctrl+a"⟩] := by decide
  have hparse : parseTypeMacroShortcut "ctrl+a" usLayout = .ok ([29], 30) := by decide
  refine ⟨_, hbuild, (typed_text_balanced_iff hbuild).mpr ?_⟩
  intro normalized tokens hsame htokens' token htoken
  rw [hnormalized] at hsame
  cases hsame
  rw [htokens] at htokens'
  cases htokens'
  cases List.mem_singleton.mp htoken
  intro mods code hmods
  rw [hparse] at hmods
  cases hmods
  decide

/-- A shortcut that names Left Ctrl as the key to press while Ctrl is held. -/
def ctrlTwice : List Char := "<shortcut:ctrl+leftctrl>".toList

theorem shortcut_presses_modifier_twice :
    ∃ events, @buildTypeMacroEvents asciiUnicode ctrlEcodes 1 ctrlTwice 5 10 false usLayout =
      some (.ok events) ∧ ¬ Balanced (keyEdges events) := by
  refine ⟨[⟨.keyboard, 1, 29, 1, 0, none⟩, ⟨.keyboard, 1, 29, 1, 1000, none⟩,
    ⟨.keyboard, 1, 29, 0, 6000, none⟩, ⟨.keyboard, 1, 29, 0, 7000, none⟩], by decide, ?_⟩
  intro hbalanced
  have htwice := hbalanced (.keyboard, 29)
  revert htwice
  decide

end Keymasq.TypeMacro.Balance
