import StockQuant.Num

namespace StockQuant.PyValue

open StockQuant

/-- A float, with exact finite values. -/
inductive PyFloat
  | fin (q : ℚ)
  | inf
  | negInf
  | nan
  deriving DecidableEq, Repr

namespace PyFloat

def lt : PyFloat → PyFloat → Bool
  | fin a, fin b => a < b
  | fin _, inf | negInf, fin _ | negInf, inf => true
  | _, _ => false

def le : PyFloat → PyFloat → Bool
  | fin a, fin b => a ≤ b
  | fin _, inf | negInf, fin _ | negInf, inf | inf, inf | negInf, negInf => true
  | _, _ => false

/-- `a / b` for a positive `b`. -/
def divPos : PyFloat → PyFloat → PyFloat
  | fin a, fin b => fin (a / b)
  | fin _, inf => fin 0
  | inf, fin _ => inf
  | negInf, fin _ => negInf
  | _, _ => nan

/-- A function that is continuous and increasing, on a float. -/
def mapFin (f : ℚ → ℚ) : PyFloat → PyFloat
  | fin q => fin (f q)
  | x => x

/-- `round(x, n)`. -/
def round (n : Nat) : PyFloat → PyFloat := mapFin (Num.roundTo n)

end PyFloat

inductive PyError
  | attributeError
  | typeError
  | valueError
  | overflowError
  | unicodeDecodeError
  | recursionError
  | osError
  deriving DecidableEq, Repr

/-- What `json.loads` can return. -/
inductive Value
  | null
  | bool (b : Bool)
  | int (n : Int)
  | float (x : PyFloat)
  | str (s : String)
  | arr (xs : List Value)
  | obj (fields : List (String × Value))

abbrev Dict := List (String × Value)

/-- What `datetime.fromisoformat` can return: a time without a zone, or a point in time. -/
inductive DateTime
  | naive (local_ : Int)
  | aware (t : Int)
  deriving DecidableEq, Repr

/-- The readers of the standard library, whatever texts they take, and `str(v)` of a value that
is no string. The empty text is no number. -/
structure Readers where
  parseFloat : String → Option PyFloat
  parseInt : String → Option Int
  fromisoformat : String → Option DateTime
  repr : Value → String
  parseInt_empty : parseInt "" = none

/-- `d.get(key)`. -/
def Dict.get (d : Dict) (key : String) : Value := (d.lookup key).getD .null

namespace Value

def truthy : Value → Bool
  | null => false
  | bool b => b
  | int n => n != 0
  | float x => x != .fin 0
  | str s => s != ""
  | arr xs => !xs.isEmpty
  | obj fields => !fields.isEmpty

/-- The least magnitude of an integer that no float is near enough to. -/
def floatOverflow : Nat := 2 ^ 1024 - 2 ^ 970

/-- `float(v)`. -/
def toFloat (py : Readers) : Value → Except PyError PyFloat
  | bool b => .ok (.fin (if b then 1 else 0))
  | int n => if floatOverflow ≤ n.natAbs then .error .overflowError else .ok (.fin n)
  | float x => .ok x
  | str s =>
    match py.parseFloat s with
    | some x => .ok x
    | none => .error .valueError
  | null | arr _ | obj _ => .error .typeError

/-- `int(v)`. -/
def toInt (py : Readers) : Value → Except PyError Int
  | bool b => .ok (if b then 1 else 0)
  | int n => .ok n
  | float (.fin q) => .ok (Num.toInt q)
  | float .nan => .error .valueError
  | float .inf | float .negInf => .error .overflowError
  | str s =>
    match py.parseInt s with
    | some n => .ok n
    | none => .error .valueError
  | null | arr _ | obj _ => .error .typeError

/-- `str(v or "")`. -/
def textOrEmpty (py : Readers) : Value → String
  | str s => s
  | v => if v.truthy then py.repr v else ""

/-- `float(v or 0.0)`. -/
def toFloatOrZero (py : Readers) (v : Value) : Except PyError PyFloat :=
  if v.truthy then v.toFloat py else .ok (.fin 0)

/-- `int(v or 0)`. -/
def toIntOrZero (py : Readers) (v : Value) : Except PyError Int :=
  if v.truthy then v.toInt py else .ok 0

/-- The dictionary whose methods a caller uses; nothing else has a `get`. -/
def dict : Value → Except PyError Dict
  | obj fields => .ok fields
  | _ => .error .attributeError

variable {py : Readers} {v : Value}

/-- A number that counts as false is zero. -/
theorem toInt_falsy (hv : v.truthy = false) {n : Int} (hn : v.toInt py = .ok n) : n = 0 := by
  cases v with
  | null | arr | obj => cases hn
  | bool b =>
    cases b with
    | false => exact (Except.ok.inj hn).symm
    | true => cases hv
  | int m =>
    have hzero : m = 0 := by simpa [truthy] using hv
    exact (Except.ok.inj hn).symm.trans hzero
  | float x =>
    have hzero : x = .fin 0 := by simpa [truthy] using hv
    subst hzero
    exact (Except.ok.inj hn).symm.trans (by decide)
  | str s =>
    have hempty : s = "" := by simpa [truthy] using hv
    subst hempty
    simp [toInt, py.parseInt_empty] at hn

/-- `float` of a JSON value fails in no other way. -/
theorem toFloat_error {e : PyError} (h : v.toFloat py = .error e) :
    e = .typeError ∨ e = .valueError ∨ e = .overflowError := by
  unfold toFloat at h
  split at h
  · cases h
  · split at h
    · exact .inr (.inr (Except.error.inj h).symm)
    · cases h
  · cases h
  · split at h
    · cases h
    · exact .inr (.inl (Except.error.inj h).symm)
  · exact .inl (Except.error.inj h).symm
  · exact .inl (Except.error.inj h).symm
  · exact .inl (Except.error.inj h).symm

theorem toFloatOrZero_error {e : PyError} (h : v.toFloatOrZero py = .error e) :
    e = .typeError ∨ e = .valueError ∨ e = .overflowError := by
  unfold toFloatOrZero at h
  split at h
  · exact toFloat_error h
  · cases h

end Value

/-- What `json.loads` makes of a text. -/
inductive Loaded
  | malformed
  | raises (e : PyError)
  | value (v : Value)

/-- A file, as `is_file` and `read_text` find it. -/
inductive FileRead (α : Type)
  | absent
  | unreadable
  | undecodable
  | text (content : α)

end StockQuant.PyValue
