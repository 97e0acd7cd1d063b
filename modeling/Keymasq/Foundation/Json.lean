import Keymasq.Foundation.Strings
import Mathlib.Data.Rat.Floor

/-!
# JSON values

The values a request or a stored file carries, and `int(value)` on them.
-/

namespace Foundation.Json

inductive Value
  | null
  | bool (b : Bool)
  | int (n : ℤ)
  | float (q : ℚ)
  | str (s : String)
  | arr (items : List Value)
  | obj (fields : List (String × Value))

/- Digits with single underscores between them. -/
def digitsValue (value : ℕ) (afterDigit : Bool) : List Char → Option ℕ
  | [] => if afterDigit then some value else none
  | c :: cs =>
    if c = '_' then if afterDigit then digitsValue value false cs else none
    else if c.isDigit then digitsValue (value * 10 + (c.toNat - 48)) true cs
    else none

/- `int(text)` in base ten. -/
def intOfString (text : String) : Option ℤ :=
  match (Strings.strip text).toList with
  | '-' :: cs => (digitsValue 0 false cs).map fun n => -(n : ℤ)
  | '+' :: cs => (digitsValue 0 false cs).map Int.ofNat
  | cs => (digitsValue 0 false cs).map Int.ofNat

/- A float is cut towards zero. -/
def truncate (q : ℚ) : ℤ := if 0 ≤ q then ⌊q⌋ else ⌈q⌉

/- `int(value)`, `none` where it raises a `TypeError` or a `ValueError`. -/
def Value.toInt : Value → Option ℤ
  | .bool b => some (if b then 1 else 0)
  | .int n => some n
  | .float q => some (truncate q)
  | .str s => intOfString s
  | _ => none

/- `coerce_int(value, default)`; `none` where the field is missing. -/
def coerceInt (value : Option Value) (default : ℤ) : ℤ :=
  match value with
  | none | some .null | some (.bool _) => default
  | some (.str s) => if s = "" then default else (intOfString s).getD default
  | some value => value.toInt.getD default

/- `bool(value)`. -/
def Value.truthy : Value → Bool
  | .null => false
  | .bool b => b
  | .int n => n ≠ 0
  | .float q => q ≠ 0
  | .str s => s ≠ ""
  | .arr items => !items.isEmpty
  | .obj fields => !fields.isEmpty

def Value.isTrue : Value → Bool
  | .bool true => true
  | _ => false

def Value.isObj : Value → Bool
  | .obj _ => true
  | _ => false

def Value.items : Value → List Value
  | .arr items => items
  | _ => []

end Foundation.Json
