import Keymasq.Foundation.Dict
import Keymasq.TypeMacro.Text

/-!
# Compiling typed text

Each token appends its events at the current time and moves the time on: a typed
character presses its key with its modifiers, a shortcut the keys it lists, and a
click a mouse button. Controls append one macro event.
-/

namespace Keymasq.TypeMacro.Compile
open Foundation Foundation.Strings Keymasq.TypeMacro.Text

/-! ## Layouts -/

/-- One press: a key and the modifiers held with it. -/
structure KeyPress where
  code : Int
  modifiers : List Int

/-- The presses of a character: its dead keys, which have none of their own, then its key. -/
structure TypedKey where
  code : Int
  modifiers : List Int := []
  deadKeys : List KeyPress := []

structure KeyboardLayout where
  id : String
  chars : Dict String TypedKey

def KeyboardLayout.keyFor (layout : KeyboardLayout) (ch : String) : Option TypedKey :=
  layout.chars.get? ch

/-- The tables of evdev: the code of a name, and whether a code is one of EV_KEY. -/
class Ecodes where
  code : String → Option Int
  isKey : Int → Bool

variable [PyUnicode] [Ecodes]

def layoutKey (ch : String) (layout : KeyboardLayout) : Except String TypedKey :=
  match layout.keyFor ch with
  | none => .error s!"Unsupported character for typing macro: {PyUnicode.repr ch}"
  | some key => .ok key

def resolveTypeMacroKey (value : String) (layout : KeyboardLayout) : Except String TypedKey :=
  match namedKeyCodes.lookup value with
  | some code => .ok { code := code }
  | none => layoutKey value layout

inductive DeviceType
  | keyboard
  | mouse
  | macro'
  deriving DecidableEq

def resolveKeyOrButton (name : String) : Except String (DeviceType × Int) :=
  let trimmed := PyUnicode.upper (strip name)
  if trimmed = "" then .error "empty key/button token"
  else
    let prefixed :=
      if hasPrefix "KEY_" trimmed ∨ hasPrefix "BTN_" trimmed then trimmed
      else if hasPrefix "BTN" trimmed then "BTN_" ++ removePrefix "BTN" trimmed
      else "KEY_" ++ trimmed
    let normalized := String.ofList (prefixed.toList.map fun c => if c = '-' then '_' else c)
    match Ecodes.code normalized with
    | none => .error s!"unknown key/button: {name}"
    | some code =>
      if Ecodes.isKey code then
        .ok (if hasPrefix "BTN_" normalized then .mouse else .keyboard, code)
      else .error s!"not an EV_KEY code: {name}"

/-! ## Shortcuts -/

def keyLeftCtrl : Int := 29
def keyLeftShift : Int := 42
def keyLeftAlt : Int := 56
def keyLeftMeta : Int := 125
def keySpace : Int := 57

def shortcutModifierCodes : List (String × Int) :=
  [("ctrl", keyLeftCtrl), ("control", keyLeftCtrl), ("shift", keyLeftShift), ("alt", keyLeftAlt),
    ("super", keyLeftMeta), ("meta", keyLeftMeta), ("win", keyLeftMeta)]

def resolveTypeMacroShortcutKey (value : String) (layout : KeyboardLayout) :
    Except String TypedKey :=
  match namedKeyCodes.lookup value with
  | some code => .ok { code := code }
  | none =>
    if value.toList.length = 1 then layoutKey value layout
    else
      match resolveKeyOrButton value with
      | .error _ => .error s!"unknown shortcut key: {value}"
      | .ok (deviceType, code) =>
        if deviceType = .keyboard then .ok { code := code }
        else .error s!"shortcut key must be a keyboard key: {value}"

/- The loop over the modifier names. -/
def shortcutModifiers (modifierCodes : List Int) : List String → Except String (List Int)
  | [] => .ok modifierCodes
  | name :: names =>
    match shortcutModifierCodes.lookup name with
    | none => .error s!"unknown shortcut modifier: {name}"
    | some code =>
      if code ∈ modifierCodes then .error s!"duplicate shortcut modifier: {name}"
      else shortcutModifiers (modifierCodes ++ [code]) names

def addModifier (modifierCodes : List Int) (code : Int) : List Int :=
  if code ∈ modifierCodes then modifierCodes else modifierCodes ++ [code]

def parseTypeMacroShortcut (shortcut : String) (layout : KeyboardLayout) :
    Except String (List Int × Int) :=
  let parts := (splitOn '+' shortcut).map strip
  if parts.length < 2 ∨ "" ∈ parts then .error "shortcut requires modifiers and a key"
  else
    let keyPart := parts.getLastD ""
    if (shortcutModifierCodes.lookup keyPart).isSome then
      .error "shortcut requires one non-modifier key"
    else
      match shortcutModifiers [] parts.dropLast with
      | .error message => .error message
      | .ok modifierCodes =>
        match resolveTypeMacroShortcutKey keyPart layout with
        | .error message => .error message
        | .ok key =>
          if key.deadKeys ≠ [] then
            .error (s!"shortcut key {PyUnicode.repr keyPart} needs a dead key sequence " ++
              "on this layout")
          else .ok (key.modifiers.foldl addModifier modifierCodes, key.code)

/-! ## Events -/

structure NaturalMove where
  x : Int
  y : Int
  stopOnFailure : Bool
  speed : ℚ := 100000
  jitter : ℚ := 0
  curve : String := "linear"
  tolerance : Int := 2
  maxDurationMs : Int := 3000
  deriving DecidableEq

structure MacroCall where
  macroName : String
  replayMouseMovement : Bool := true
  replayMouseClicks : Bool := true
  speed : ℚ := 1
  loopMode : String := "none"
  loopCount : Int := 1
  loopStopBehavior : String := "finish_run"
  deriving DecidableEq

inductive MacroAction
  | wait (durationUs : Int)
  | waitRandom (minUs maxUs : Int)
  | macroSync (call : MacroCall)
  | mouseMoveNaturalAbs (move : NaturalMove)
  deriving DecidableEq

structure Event where
  deviceType : DeviceType
  type : Int
  code : Int
  value : Int
  tUs : Int
  action : Option MacroAction := none
  deriving DecidableEq

def evKey : Int := 1

def macroEvent (tUs : Int) (action : MacroAction) : Event :=
  { deviceType := .macro', type := 0, code := 0, value := 0, tUs := tUs, action := some action }

/-- The events so far and the time reached. -/
abbrev Timeline := List Event × Int

def appendKeyEvent (events : List Event) (deviceType : DeviceType) (code value tUs : Int) :
    List Event :=
  events ++ [{ deviceType := deviceType, type := evKey, code := code, value := value, tUs := tUs }]

def pressModifier (modifierSettleUs : Int) (s : Timeline) (code : Int) : Timeline :=
  (appendKeyEvent s.1 .keyboard code 1 s.2, s.2 + modifierSettleUs)

def releaseModifier (modifierSettleUs : Int) (s : Timeline) (code : Int) : Timeline :=
  (appendKeyEvent s.1 .keyboard code 0 (s.2 + modifierSettleUs), s.2 + modifierSettleUs)

def appendChordEvents (s : Timeline) (modifierCodes : List Int) (keyCode downMs modifierSettleUs : Int) :
    Timeline :=
  let (events, t) := modifierCodes.foldl (pressModifier modifierSettleUs) s
  let events := appendKeyEvent events .keyboard keyCode 1 t
  let t := t + downMs * 1000
  let events := appendKeyEvent events .keyboard keyCode 0 t
  modifierCodes.reverse.foldl (releaseModifier modifierSettleUs) (events, t)

/- The presses after the first wait for the one before to settle. -/
def appendNextPress (downMs modifierSettleUs : Int) (s : Timeline) (press : KeyPress) : Timeline :=
  appendChordEvents (s.1, s.2 + modifierSettleUs) press.modifiers press.code downMs modifierSettleUs

def TypedKey.presses (key : TypedKey) : List KeyPress :=
  key.deadKeys ++ [⟨key.code, key.modifiers⟩]

def appendDirectKeyEvents (s : Timeline) (key : TypedKey) (downMs modifierSettleUs : Int) :
    Timeline :=
  match key.presses with
  | [] => s
  | press :: presses =>
    presses.foldl (appendNextPress downMs modifierSettleUs)
      (appendChordEvents s press.modifiers press.code downMs modifierSettleUs)

def appendTypeMacroShortcutEvents (s : Timeline) (shortcut : String)
    (downMs modifierSettleUs : Int) (layout : KeyboardLayout) : Except String Timeline :=
  match parseTypeMacroShortcut shortcut layout with
  | .error message => .error message
  | .ok (modifierCodes, keyCode) =>
    .ok (appendChordEvents s modifierCodes keyCode downMs modifierSettleUs)

def appendTypeMacroNaturalMoveEvent (s : Timeline) (x y : Int) (stopOnFailure : Bool) :
    List Event :=
  s.1 ++ [macroEvent s.2 (.mouseMoveNaturalAbs { x := x, y := y, stopOnFailure := stopOnFailure })]

def parseTypeMacroCoordinateValue (value : String) : Except String (Int × Int) :=
  match splitOn ':' value with
  | [x, y] =>
    match parseInt x "move x" with
    | .error message => .error message
    | .ok x =>
      match parseInt y "move y" with
      | .error message => .error message
      | .ok y => .ok (x, y)
  | _ => .error "move control requires x and y arguments"

def appendTypeMacroMouseMoveEvent (s : Timeline) (value : String) : Except String Timeline :=
  match parseTypeMacroCoordinateValue value with
  | .error message => .error message
  | .ok (x, y) => .ok (appendTypeMacroNaturalMoveEvent s x y false, s.2 + 1)

def appendClick (s : Timeline) (buttonCode downMs : Int) : Timeline :=
  let events := appendKeyEvent s.1 .mouse buttonCode 1 s.2
  let t := s.2 + downMs * 1000
  (appendKeyEvent events .mouse buttonCode 0 t, t)

def appendTypeMacroMouseClickEvents (s : Timeline) (value : String) (downMs : Int) :
    Except String Timeline :=
  let parts := splitOn ':' value
  match parseInt (parts.headD "") "click button" with
  | .error message => .error message
  | .ok buttonCode =>
    match parts with
    | [_] => .ok (appendClick s buttonCode downMs)
    | [_, x, y] =>
      match parseInt x "click x" with
      | .error message => .error message
      | .ok x =>
        match parseInt y "click y" with
        | .error message => .error message
        | .ok y =>
          .ok (appendClick (appendTypeMacroNaturalMoveEvent s x y true, s.2 + 1) buttonCode downMs)
    | _ => .error "click control accepts optional x and y arguments"

def unicodeInputCapabilityError (layout : KeyboardLayout) : Option String :=
  let unavailable (reason : String) : String :=
    s!"Unicode input is unavailable for keyboard layout {PyUnicode.repr layout.id}: {reason}"
  match layoutKey "u" layout with
  | .error _ => some (unavailable
      "the layout cannot type the Latin 'u' required by Ctrl+Shift+U")
  | .ok uKey =>
    if uKey.deadKeys ≠ [] ∨ uKey.modifiers.filter (· ≠ keyLeftShift) ≠ [] then
      some (unavailable "its Latin 'u' requires an unverified modifier chord")
    else none

/- The hexadecimal digits of the code point, typed one after the other. -/
def appendHexDigits (downMs modifierSettleUs : Int) (layout : KeyboardLayout) (s : Timeline) :
    List Char → Except String Timeline
  | [] => .ok s
  | digit :: digits =>
    match layoutKey (String.ofList [digit]) layout with
    | .error message => .error message
    | .ok key =>
      appendHexDigits downMs modifierSettleUs layout
        (appendDirectKeyEvents s key downMs modifierSettleUs) digits

/- `f"{ord(ch):x}"` of a string that holds one character. -/
def hexDigits (ch : String) : List Char := Nat.toDigits 16 ((ch.toList.headD ' ').toNat)

def appendUnicodeCharEvents (s : Timeline) (ch : String) (downMs modifierSettleUs : Int)
    (layout : KeyboardLayout) : Except String Timeline :=
  match unicodeInputCapabilityError layout with
  | some message => .error message
  | none =>
    match layoutKey "u" layout with
    | .error message => .error message
    | .ok uKey =>
      let (events, t) :=
        appendChordEvents s [keyLeftCtrl, keyLeftShift] uKey.code downMs modifierSettleUs
      match appendHexDigits downMs modifierSettleUs layout (events, t + modifierSettleUs)
          (hexDigits ch) with
      | .error message => .error message
      | .ok s => .ok (appendDirectKeyEvents s { code := keySpace } downMs modifierSettleUs)

def appendWaitEvent (s : Timeline) (args : List String) : Except String Timeline :=
  match args with
  | [duration] =>
    match parseNonNegativeInt duration "wait duration" with
    | .error message => .error message
    | .ok durationMs => .ok (s.1 ++ [macroEvent s.2 (.wait (durationMs * 1000))], s.2)
  | [min, max] =>
    match parseNonNegativeInt min "wait min" with
    | .error message => .error message
    | .ok minMs =>
      match parseNonNegativeInt max "wait max" with
      | .error message => .error message
      | .ok maxMs =>
        if maxMs < minMs then .error "wait max must be greater than or equal to wait min"
        else .ok (s.1 ++ [macroEvent s.2 (.waitRandom (minMs * 1000) (maxMs * 1000))], s.2)
  | _ => .error "wait requires one duration or min:max arguments"

def appendMacroCallEvent (s : Timeline) (macroName : String) : Timeline :=
  (s.1 ++ [macroEvent s.2 (.macroSync { macroName := macroName })], s.2)

/-! ## The compiler -/

/-- The options of a type macro. -/
structure TypeOptions where
  downMs : Int
  pauseMs : Int
  useUnicodeInput : Bool
  layout : KeyboardLayout

def modifierSettleUs : Int := 1000

/- The body of the loop for the token at `index`, without the pause. -/
def appendToken (o : TypeOptions) (index : Nat) (s : Timeline) (token : Token) :
    Except String Timeline :=
  match token.kind with
  | .wait => appendWaitEvent s (splitOn ':' token.value)
  | .macroCall => .ok (appendMacroCallEvent s token.value)
  | .mouseMove => appendTypeMacroMouseMoveEvent s token.value
  | .mouseClick => appendTypeMacroMouseClickEvents s token.value o.downMs
  | .shortcut =>
    appendTypeMacroShortcutEvents s token.value o.downMs modifierSettleUs o.layout
  | .key =>
    match resolveTypeMacroKey token.value o.layout with
    | .error message => .error message
    | .ok key => .ok (appendDirectKeyEvents s key o.downMs modifierSettleUs)
  | .char =>
    match layoutKey token.value o.layout with
    | .ok key => .ok (appendDirectKeyEvents s key o.downMs modifierSettleUs)
    | .error _ =>
      if o.useUnicodeInput then
        appendUnicodeCharEvents s token.value o.downMs modifierSettleUs o.layout
      else
        let name := PyUnicode.name (token.value.toList.headD ' ')
        .error (s!"Unsupported character at position {index + 1}: {PyUnicode.repr token.value} " ++
          s!"({name})")

/- `_should_add_type_pause`, on the tokens that follow. -/
def shouldAddTypePause (pauseMs : Int) (next : List Token) : Bool :=
  match next with
  | [] => false
  | token :: _ => decide (0 < pauseMs) && decide (token.kind ≠ .wait)

def appendTokens (o : TypeOptions) (index : Nat) (s : Timeline) :
    List Token → Except String Timeline
  | [] => .ok s
  | token :: next =>
    match appendToken o index s token with
    | .error message => .error message
    | .ok s =>
      let pause := decide (token.kind ≠ .wait) && shouldAddTypePause o.pauseMs next
      appendTokens o (index + 1) (s.1, if pause then s.2 + o.pauseMs * 1000 else s.2) next

/- The text as the compiler reads it; `none` when it does not become stable in
the given number of rounds. -/
def normalizeFor (rounds : Nat) (useUnicodeInput : Bool) (text : List Char) : Option (List Char) :=
  if useUnicodeInput then some (normalizeUnicodeTypeMacroText text)
  else normalizeTypeMacroText rounds text

def buildTypeMacroEvents (rounds : Nat) (text : List Char) (downMs pauseMs : Int)
    (useUnicodeInput : Bool) (layout : KeyboardLayout) : Option (Except String (List Event)) :=
  (normalizeFor rounds useUnicodeInput text).map fun normalized =>
    match typeMacroTokens normalized with
    | .error message => .error message
    | .ok tokens =>
      (appendTokens ⟨max 0 downMs, max 0 pauseMs, useUnicodeInput, layout⟩ 0 ([], 0) tokens).map
        Prod.fst

end Keymasq.TypeMacro.Compile
