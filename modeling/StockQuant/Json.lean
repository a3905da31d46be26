import StockQuant.Num

namespace StockQuant.Json

open StockQuant

/-- A JSON scalar, or a Python value that would be one. -/
inductive Scalar
  | null
  | bool (b : Bool)
  | int (n : Int)
  | float (q : ℚ)
  | str (s : String)
  deriving DecidableEq, Repr

/-- `str(v)`. -/
def Scalar.pyStr : Scalar → String
  | .null => "None"
  | .bool b => if b then "True" else "False"
  | .int n => toString n
  | .float q => Num.pyFloat q
  | .str s => s

/-- The truth value of `v`. -/
def Scalar.truthy : Scalar → Bool
  | .null => false
  | .bool b => b
  | .int n => n != 0
  | .float q => q != 0
  | .str s => s != ""

/-- `float(v)`; `none` stands for the exception. -/
def Scalar.float? : Scalar → Option ℚ
  | .null => none
  | .bool b => some (if b then 1 else 0)
  | .int n => some n
  | .float q => some q
  | .str s => Num.parseFloat s

/-- `int(v)`. -/
def Scalar.int? : Scalar → Option Int
  | .null => none
  | .bool b => some (if b then 1 else 0)
  | .int n => some n
  | .float q => some (Num.toInt q)
  | .str s => Num.parseInt s

/-- One JSON object with scalar fields. -/
abbrev Row := List (String × Scalar)

/-- `row.get(key)`; a missing key reads as `None`. -/
def Row.get (row : Row) (key : String) : Scalar := (row.lookup key).getD .null

/-- `str(row.get(key) or "")`. -/
def Row.getStr (row : Row) (key : String) : String :=
  if (Row.get row key).truthy then (Row.get row key).pyStr else ""

end StockQuant.Json
