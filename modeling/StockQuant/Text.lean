import Mathlib.Data.List.DropRight
import Mathlib.Tactic.Common

namespace StockQuant.Text

/-- The characters that `str.strip` removes, as far as they occur in practice. -/
def isSpace (c : Char) : Bool := c.isWhitespace || c == '\x0b' || c == '\x0c'

def strip (s : String) : String :=
  String.ofList ((s.toList.dropWhile isSpace).reverse.dropWhile isSpace).reverse

def lower (s : String) : String := String.ofList (s.toList.map Char.toLower)

def upper (s : String) : String := String.ofList (s.toList.map Char.toUpper)

def startsWith (pre s : String) : Bool := pre.toList.isPrefixOf s.toList

/-- Substring test, `sub in s`. -/
def hasSub (sub s : String) : Bool := s.toList.tails.any (fun t => sub.toList.isPrefixOf t)

/-- `s[:n]`. -/
def take (n : Nat) (s : String) : String := String.ofList (s.toList.take n)

/-- `sep.join(parts)`. -/
def join (sep : String) (parts : List String) : String :=
  String.ofList (List.intercalate sep.toList (parts.map String.toList))

/-- `s.rstrip(c)` for one character. -/
def rstripChar (c : Char) (s : String) : String :=
  String.ofList (s.toList.reverse.dropWhile (· == c)).reverse

/-- `s.split(sep)` for a one-character separator. -/
def splitOnChar (sep : Char) (s : String) : List String :=
  (s.toList.splitOn sep).map String.ofList

theorem strip_eq (s : String) :
    strip s = String.ofList ((s.toList.dropWhile isSpace).rdropWhile isSpace) := rfl

/-- Stripping the right end leaves the left one stripped. -/
theorem dropWhile_rdropWhile {α : Type*} (p : α → Bool) (cs : List α) :
    ((cs.dropWhile p).rdropWhile p).dropWhile p = (cs.dropWhile p).rdropWhile p := by
  apply List.dropWhile_eq_self_iff.mpr
  intro hlen
  have hpre := List.rdropWhile_prefix p (cs.dropWhile p)
  have hne : 0 < (cs.dropWhile p).length := hlen.trans_le hpre.length_le
  rw [hpre.getElem hlen]
  exact List.dropWhile_eq_self_iff.mp (List.dropWhile_idempotent p cs) hne

theorem strip_strip (s : String) : strip (strip s) = strip s := by
  rw [strip_eq (strip s), strip_eq s, String.toList_ofList, dropWhile_rdropWhile,
    List.rdropWhile_idempotent]

example : strip "  buy " = "buy" := by decide

example : hasSub "EGW00201" "error EGW00201: too fast" = true := by decide

end StockQuant.Text
