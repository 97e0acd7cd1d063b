import Keymasq.Foundation.Json
import Keymasq.Foundation.Strings
import Mathlib.Data.List.SplitBy

/-!
# The text of a type macro

The text is normalised outside its macro calls and cut into tokens: characters,
and the controls written between angle brackets.
-/

namespace Keymasq.TypeMacro.Text
open Foundation Foundation.Strings

/-- The parts of `str` and `unicodedata` that depend on the Unicode tables. -/
class PyUnicode where
  lower : String → String
  upper : String → String
  nfkc : List Char → List Char
  name : Char → String
  repr : String → String

variable [PyUnicode]

/- `_TYPE_MACRO_TEXT_TRANSLATION`. -/
def textTranslation : List (Nat × List Char) :=
  [(0x00a0, [' ']), (0x00ad, []), (0x2007, [' ']), (0x200b, []), (0x200c, []), (0x200d, []),
    (0x2010, ['-']), (0x2011, ['-']), (0x2012, ['-']), (0x2013, ['-']), (0x2014, ['-']),
    (0x2015, ['-']), (0x2018, ['\'']), (0x2019, ['\'']), (0x201a, ['\'']), (0x201b, ['\'']),
    (0x201c, ['"']), (0x201d, ['"']), (0x201e, ['"']), (0x201f, ['"']), (0x2026, ['.', '.', '.']),
    (0x202f, [' ']), (0x2212, ['-']), (0xfeff, [])]

def translate (text : List Char) : List Char :=
  text.flatMap fun c => (textTranslation.lookup c.toNat).getD [c]

def normalizeTypedText (text : List Char) : List Char :=
  PyUnicode.nfkc (translate (PyUnicode.nfkc text))

/- `text.replace("\r\n", "\n")`. -/
def replaceCrLf : List Char → List Char
  | [] => []
  | '\r' :: '\n' :: rest => '\n' :: replaceCrLf rest
  | c :: rest => c :: replaceCrLf rest

def normalizeUnicodeTypeMacroText (text : List Char) : List Char :=
  (replaceCrLf text).map fun c => if c = '\r' then '\n' else c

def typeMacroCallPrefix : String := "macro:"

def isTypeMacroCallTag (rawTag : String) : Bool :=
  PyUnicode.lower (String.ofList (rawTag.toList.take typeMacroCallPrefix.toList.length)) =
    typeMacroCallPrefix

/- The text up to the next `>` behind a `<`, and how many characters it and the
bracket take. -/
def tagBody (rest : List Char) : Option (List Char × Nat) :=
  (rest.idxOf? '>').map fun n => (rest.take n, n + 1)

/- The scan of `_split_type_macro_calls`: `skip` characters belong to a tag that
has been read, `before` is the character before, and `part` the text since the
last call. A bracket that follows a backslash opens no tag. -/
def splitFrom (before : Option Char) (skip : Nat) (part : List Char) :
    List Char → List (List Char × Bool)
  | [] => [(part, false)]
  | c :: rest =>
    match skip with
    | skip + 1 => splitFrom (some c) skip part rest
    | 0 =>
      if c = '<' ∧ before ≠ some '\\' then
        match tagBody rest with
        | none => splitFrom (some c) 0 (part ++ [c]) rest
        | some (body, n) =>
          if isTypeMacroCallTag (strip (String.ofList body)) then
            (part, false) :: (c :: rest.take n, true) :: splitFrom (some c) n [] rest
          else splitFrom (some c) n (part ++ c :: rest.take n) rest
      else splitFrom (some c) 0 (part ++ [c]) rest

def splitTypeMacroCalls (text : List Char) : List (List Char × Bool) := splitFrom none 0 [] text

def normalizeOutsideMacroCalls (text : List Char) : List Char :=
  (splitTypeMacroCalls text).flatMap fun (part, isMacroCall) =>
    if isMacroCall then part else normalizeTypedText part

/- The loop of `normalize_type_macro_text`, `none` when it has not become stable
after the given number of rounds. -/
def normalizeUntilStable : Nat → List Char → Option (List Char)
  | 0, _ => none
  | rounds + 1, normalized =>
    let renormalized := normalizeOutsideMacroCalls normalized
    if renormalized = normalized then some normalized
    else normalizeUntilStable rounds renormalized

def normalizeTypeMacroText (rounds : Nat) (text : List Char) : Option (List Char) :=
  normalizeUntilStable rounds (normalizeUnicodeTypeMacroText text)

/-! ## Numbers -/

def parseInt (value label : String) : Except String Int :=
  match Json.intOfString value with
  | none => .error s!"{label} must be an integer"
  | some parsed => .ok parsed

def parseNonNegativeInt (value label : String) : Except String Int :=
  match parseInt value label with
  | .error message => .error message
  | .ok parsed => if parsed < 0 then .error s!"{label} must be non-negative" else .ok parsed

def parsePositiveInt (value label : String) : Except String Int :=
  match parseInt value label with
  | .error message => .error message
  | .ok parsed => if parsed ≤ 0 then .error s!"{label} must be greater than 0" else .ok parsed

/-! ## Tokens -/

inductive TokenKind
  | char
  | key
  | wait
  | macroCall
  | mouseMove
  | mouseClick
  | shortcut
  deriving DecidableEq

structure Token where
  kind : TokenKind
  value : String
  deriving DecidableEq

def charToken (c : Char) : Token := ⟨.char, String.ofList [c]⟩

/- `_TYPE_MACRO_NAMED_KEY_CODES`: KEY_SPACE, KEY_ENTER, KEY_TAB, KEY_ESC,
KEY_BACKSPACE, KEY_DELETE, KEY_UP, KEY_DOWN, KEY_LEFT, KEY_RIGHT, KEY_HOME,
KEY_END, KEY_PAGEUP and KEY_PAGEDOWN. -/
def namedKeyCodes : List (String × Int) :=
  [("space", 57), ("enter", 28), ("tab", 15), ("esc", 1), ("backspace", 14), ("delete", 111),
    ("up", 103), ("down", 108), ("left", 105), ("right", 106), ("home", 102), ("end", 107),
    ("pageup", 104), ("pagedown", 109)]

def btnLeft : Int := 0x110
def btnRight : Int := 0x111

def clickButtonCodes : List (String × Int) :=
  [("click", btnLeft), ("lclick", btnLeft), ("leftclick", btnLeft), ("rclick", btnRight),
    ("rightclick", btnRight)]

def settleWaitMs : Nat := 300
def maxRepeatCount : Int := 100

/- `none` where the tag is not a macro call. -/
def parseTypeMacroCallControl (rawTag : String) : Except String (Option Token) :=
  if isTypeMacroCallTag rawTag then
    let macroName := strip
      (String.ofList (rawTag.toList.drop typeMacroCallPrefix.toList.length))
    if macroName = "" then .error "macro control requires a macro name"
    else .ok (some ⟨.macroCall, macroName⟩)
  else .ok none

def parseTypeMacroMouseMoveControl (tag : String) : Except String (Option Token) :=
  if hasPrefix "move:" tag then
    match (splitOn ':' (removePrefix "move:" tag)).map strip with
    | [x, y] =>
      if x = "" ∨ y = "" then .error "move control requires x and y arguments"
      else
        match parseInt x "move x" with
        | .error message => .error message
        | .ok x =>
          match parseInt y "move y" with
          | .error message => .error message
          | .ok y => .ok (some ⟨.mouseMove, s!"{x}:{y}"⟩)
    | _ => .error "move control requires x and y arguments"
  else .ok none

def typeMacroMouseClickToken (buttonCode : Int) (args : List String) (name : String) :
    Except String Token :=
  match args with
  | [] => .ok ⟨.mouseClick, s!"{buttonCode}"⟩
  | [x, y] =>
    if x = "" ∨ y = "" then .error s!"{name} control accepts optional x and y arguments"
    else
      match parseInt x s!"{name} x" with
      | .error message => .error message
      | .ok x =>
        match parseInt y s!"{name} y" with
        | .error message => .error message
        | .ok y => .ok ⟨.mouseClick, s!"{buttonCode}:{x}:{y}"⟩
  | _ => .error s!"{name} control accepts optional x and y arguments"

def parseTypeMacroClickControl (tag : String) : Except String (Option (List Token)) :=
  let parts := (splitOn ':' tag).map strip
  let name := parts.headD ""
  if name = "doubleclick" then
    match typeMacroMouseClickToken btnLeft parts.tail name with
    | .error message => .error message
    | .ok firstClick => .ok (some [firstClick, ⟨.mouseClick, s!"{btnLeft}"⟩])
  else
    match clickButtonCodes.lookup name with
    | none => .ok none
    | some buttonCode =>
      match typeMacroMouseClickToken buttonCode parts.tail name with
      | .error message => .error message
      | .ok click => .ok (some [click])

def parseTypeMacroNamedKeyControl (tag : String) : Except String (Option (String × Nat)) :=
  if ':' ∉ tag.toList then
    if (namedKeyCodes.lookup tag).isNone then .ok none else .ok (some (tag, 1))
  else
    let parts := (splitOn ':' tag).map strip
    let name := parts.headD ""
    if (namedKeyCodes.lookup name).isNone then .ok none
    else
      match parts with
      | [_, count] =>
        match parsePositiveInt count s!"{name} repeat count" with
        | .error message => .error message
        | .ok repeatCount =>
          if maxRepeatCount < repeatCount then
            .error s!"{name} repeat count must be less than or equal to {maxRepeatCount}"
          else .ok (some (name, repeatCount.toNat))
      | _ => .error s!"{name} repeat control accepts one count argument"

/- `none` where the tag is no control and stands for its characters. -/
def typeMacroControlTokens (rawTag : String) : Except String (Option (List Token)) :=
  match parseTypeMacroCallControl rawTag with
  | .error message => .error message
  | .ok (some macroCall) => .ok (some [macroCall])
  | .ok none =>
    let tag := PyUnicode.lower rawTag
    if tag = "settle" then .ok (some [⟨.wait, s!"{settleWaitMs}"⟩])
    else if hasPrefix "wait:" tag then .ok (some [⟨.wait, removePrefix "wait:" tag⟩])
    else if hasPrefix "shortcut:" tag then
      let shortcut := strip (removePrefix "shortcut:" tag)
      if shortcut = "" then .error "shortcut requires modifiers and a key"
      else .ok (some [⟨.shortcut, shortcut⟩])
    else
      match parseTypeMacroMouseMoveControl tag with
      | .error message => .error message
      | .ok (some move) => .ok (some [move])
      | .ok none =>
        match parseTypeMacroClickControl tag with
        | .error message => .error message
        | .ok (some clicks) => .ok (some clicks)
        | .ok none =>
          match parseTypeMacroNamedKeyControl tag with
          | .error message => .error message
          | .ok none => .ok none
          | .ok (some (name, repeatCount)) =>
            .ok (some (List.replicate repeatCount ⟨.key, name⟩))

/- The scan of `_type_macro_tokens`: `skip` characters belong to a tag or an
escape that has been read. -/
def tokensFrom (skip : Nat) : List Char → Except String (List Token)
  | [] => .ok []
  | c :: rest =>
    match skip with
    | skip + 1 => tokensFrom skip rest
    | 0 =>
      if c = '\\' ∧ rest.head? = some '<' then
        (tokensFrom 1 rest).map (charToken '<' :: ·)
      else if c ≠ '<' then (tokensFrom 0 rest).map (charToken c :: ·)
      else
        match tagBody rest with
        | none => (tokensFrom 0 rest).map (charToken c :: ·)
        | some (body, n) =>
          match typeMacroControlTokens (strip (String.ofList body)) with
          | .error message => .error message
          | .ok (some controlTokens) => (tokensFrom n rest).map (controlTokens ++ ·)
          | .ok none => (tokensFrom n rest).map ((c :: rest.take n).map charToken ++ ·)

def typeMacroTokens (text : List Char) : Except String (List Token) := tokensFrom 0 text

end Keymasq.TypeMacro.Text
