import Mathlib.Data.List.DropRight
import Mathlib.Data.List.TakeWhile
import Mathlib.Data.String.Basic

/-!
# Blanks around a string

`str.strip()`: the characters that `str.isspace()` accepts are removed at both
ends. Stripping twice is stripping once.
-/

namespace Foundation.Strings

/-- The code points of the white space characters. -/
def spaceCodes : List ℕ :=
  [0x09, 0x0A, 0x0B, 0x0C, 0x0D, 0x1C, 0x1D, 0x1E, 0x1F, 0x20, 0x85, 0xA0, 0x1680,
    0x2000, 0x2001, 0x2002, 0x2003, 0x2004, 0x2005, 0x2006, 0x2007, 0x2008, 0x2009, 0x200A,
    0x2028, 0x2029, 0x202F, 0x205F, 0x3000]

def isSpace (c : Char) : Bool := decide (c.toNat ∈ spaceCodes)

def stripList (p : Char → Bool) (cs : List Char) : List Char := (cs.dropWhile p).rdropWhile p

def strip (s : String) : String := String.ofList (stripList isSpace s.toList)

/-- What is left starts with no blank, and cutting the end keeps its start. -/
theorem stripList_stripList (p : Char → Bool) (cs : List Char) :
    stripList p (stripList p cs) = stripList p cs := by
  have hstart : (stripList p cs).dropWhile p = stripList p cs := by
    rw [List.dropWhile_eq_self_iff]
    intro hl
    have hstripped : stripList p cs <+: cs.dropWhile p := List.rdropWhile_prefix p _
    have hpos : 0 < (cs.dropWhile p).length := Nat.lt_of_lt_of_le hl hstripped.length_le
    rw [hstripped.getElem hl]
    exact List.dropWhile_get_zero_not p cs hpos
  unfold stripList at hstart ⊢
  rw [hstart, List.rdropWhile_idempotent]

theorem strip_strip (s : String) : strip (strip s) = strip s := by
  simp only [strip, String.toList_ofList, stripList_stripList]

/- `s.startswith(p)`. -/
def hasPrefix (p s : String) : Bool := p.toList.isPrefixOf s.toList

/- `s.removeprefix(p)`. -/
def removePrefix (p s : String) : String :=
  if hasPrefix p s then String.ofList (s.toList.drop p.toList.length) else s

/- `s.split(c)`. -/
def splitOn (c : Char) (s : String) : List String := (s.toList.splitOn c).map String.ofList

end Foundation.Strings
