import Mathlib.Data.String.Basic

/-!
# Event names in combos

Names are compared after normalisation: left and right modifiers share one
name, and the letter aliases of gamepad buttons stand for their positions.
-/

namespace Keymasq.Combo.Names

/-- The string methods of the host language that the code calls on names. -/
class PyStr where
  strip : String → String
  lower : String → String

/-- The two methods on ASCII text. -/
@[reducible] def asciiStr : PyStr where
  strip s := String.ofList
    (((s.toList.dropWhile Char.isWhitespace).reverse.dropWhile Char.isWhitespace).reverse)
  lower s := String.ofList (s.toList.map Char.toLower)

def gamepadButtonAliases : List (String × String) :=
  [("btn_a", "btn_south"), ("btn_b", "btn_east"), ("btn_x", "btn_north"), ("btn_y", "btn_west")]

def comboPulseEvdevs : List String := ["wheel_up", "wheel_down", "wheel_left", "wheel_right"]

def genericModifierMap : List (String × String) :=
  [("key_leftctrl", "ctrl"), ("key_rightctrl", "ctrl"),
    ("key_leftshift", "shift"), ("key_rightshift", "shift"),
    ("key_leftalt", "alt"), ("key_rightalt", "alt"),
    ("key_leftmeta", "meta"), ("key_rightmeta", "meta")]

def genericModifiers : List String := genericModifierMap.map Prod.snd

variable [PyStr]

def canonicalGamepadButtonName (evdevName : String) : String :=
  let label := PyStr.lower (PyStr.strip evdevName)
  (gamepadButtonAliases.lookup label).getD label

def normalizeComboEvdev (evdevName : String) : String :=
  let token := PyStr.lower (PyStr.strip evdevName)
  if token = "" then ""
  else canonicalGamepadButtonName ((genericModifierMap.lookup token).getD token)

def isComboPulseEvdev (evdevName : String) : Bool :=
  normalizeComboEvdev evdevName ∈ comboPulseEvdevs

end Keymasq.Combo.Names
