import Mathlib.Data.Rat.Floor
import StockQuant.Text

namespace StockQuant.Num

open StockQuant

/-- `int(x)`: truncation toward zero. -/
def toInt (x : ℚ) : Int := if 0 ≤ x then x.floor else x.ceil

/-- `round(x)`: to the nearest integer, ties to the even one. -/
def roundHalfEven (x : ℚ) : Int :=
  let lo := x.floor
  let frac := x - lo
  if frac < 1 / 2 then lo
  else if 1 / 2 < frac then lo + 1
  else if lo % 2 = 0 then lo else lo + 1

/-- `round(x, n)`. -/
def roundTo (n : Nat) (x : ℚ) : ℚ := (roundHalfEven (x * 10 ^ n) : ℚ) / 10 ^ n

def digitValue (c : Char) : Option Nat :=
  if c.isDigit then some (c.toNat - '0'.toNat) else none

/-- The value of a run of decimal digits. -/
def digits : List Char → Option Nat
  | [] => none
  | cs => cs.foldl (fun acc c => acc.bind fun a => (digitValue c).map (10 * a + ·)) (some 0)

/-- An optional sign and what follows it. -/
def splitSign : List Char → Int × List Char
  | '-' :: cs => (-1, cs)
  | '+' :: cs => (1, cs)
  | cs => (1, cs)

/-- `123`, `123.`, `.5` or `123.45`. -/
def mantissa (cs : List Char) : Option ℚ :=
  let (whole, rest) := cs.span (· != '.')
  match rest with
  | [] => (digits whole).map (fun n => (n : ℚ))
  | _ :: frac =>
    match whole, frac with
    | [], [] => none
    | _, _ =>
      let w := if whole.isEmpty then some 0 else digits whole
      let f := if frac.isEmpty then some 0 else digits frac
      w.bind fun w => f.map fun f => (w : ℚ) + (f : ℚ) / 10 ^ frac.length

/-- `int(s)` for a decimal numeral. -/
def parseInt (s : String) : Option Int :=
  let (sign, body) := splitSign (Text.strip s).toList
  (digits body).map fun n => sign * n

/-- `float(s)` for a decimal numeral; `none` stands for `ValueError`. -/
def parseFloat (s : String) : Option ℚ :=
  let (sign, body) := splitSign (Text.strip s).toList
  let (m, rest) := body.span (fun c => c != 'e' && c != 'E')
  match rest with
  | [] => (mantissa m).map fun q => sign * q
  | _ :: ex =>
    let (esign, edigits) := splitSign ex
    (mantissa m).bind fun q => (digits edigits).map fun e =>
      sign * q * (if esign = 1 then 10 ^ e else (10 ^ e)⁻¹)

/-- `f"{x:.{n}f}"`. -/
def fixed (n : Nat) (x : ℚ) : String :=
  let scaled := roundHalfEven (|x| * 10 ^ n)
  let ds := (toString scaled).toList
  let padded := List.replicate (n + 1 - ds.length) '0' ++ ds
  let whole := padded.take (padded.length - n)
  let frac := padded.drop (padded.length - n)
  String.ofList ((if x < 0 then ['-'] else []) ++ whole ++ (if n = 0 then [] else '.' :: frac))

/-- `str(x)` of a float with at most sixteen decimals. -/
def pyFloat (x : ℚ) : String :=
  let kept := ((fixed 16 x).toList.reverse.dropWhile (· == '0')).reverse
  String.ofList (if kept.getLast? = some '.' then kept ++ ['0'] else kept)

/-- Digits in groups of three, least significant first. -/
def groupReversed : List Char → List Char
  | a :: b :: c :: d :: rest => a :: b :: c :: ',' :: groupReversed (d :: rest)
  | cs => cs

/-- `f"{x:,.0f}"`. -/
def grouped (x : ℚ) : String :=
  let scaled := roundHalfEven |x|
  String.ofList ((if x < 0 then ['-'] else []) ++ (groupReversed (toString scaled).toList.reverse).reverse)

section Rounding

variable {x y : ℚ}

theorem toInt_le (x : ℚ) : (toInt x : ℚ) ≤ max 0 x := by
  unfold toInt
  split
  · exact (Rat.floor_le x).trans (le_max_right 0 x)
  · next h =>
    have hceil : x.ceil ≤ 0 := Rat.ceil_le_iff.mpr (by exact_mod_cast (not_le.mp h).le)
    exact (Int.cast_le.mpr hceil).trans ((Int.cast_zero).le.trans (le_max_left 0 x))

/-- A number of whole units fits when they do. -/
theorem le_toInt_iff {n : Int} (hn : 0 < n) : n ≤ toInt x ↔ (n : ℚ) ≤ x := by
  have hpos : (0 : ℚ) < n := by exact_mod_cast hn
  constructor
  · intro h
    have hle : (n : ℚ) ≤ max 0 x := (Int.cast_le.mpr h).trans (toInt_le x)
    exact (le_max_iff.mp hle).resolve_left (not_le.mpr hpos)
  · intro h
    rw [toInt, if_pos (hpos.le.trans h)]
    exact Rat.le_floor_iff.mpr h

theorem floor_le_roundHalfEven (x : ℚ) : x.floor ≤ roundHalfEven x := by
  unfold roundHalfEven
  dsimp only
  split_ifs <;> omega

theorem roundHalfEven_le_succ (x : ℚ) : roundHalfEven x ≤ x.floor + 1 := by
  unfold roundHalfEven
  dsimp only
  split_ifs <;> omega

theorem roundHalfEven_mono (h : x ≤ y) : roundHalfEven x ≤ roundHalfEven y := by
  obtain hsame | hlt := (Rat.floor_monotone h).eq_or_lt
  · have hfrac : x - x.floor ≤ y - y.floor := by
      rw [hsame]
      exact sub_le_sub_right h _
    unfold roundHalfEven
    dsimp only
    rw [hsame] at hfrac ⊢
    by_cases hlow : y - y.floor < 1 / 2
    · rw [if_pos hlow, if_pos (hfrac.trans_lt hlow)]
    · by_cases hhigh : 1 / 2 < y - y.floor
      · rw [if_neg hlow, if_pos hhigh]
        split_ifs <;> omega
      · rw [if_neg hlow, if_neg hhigh, if_neg (not_lt.mpr (hfrac.trans (not_lt.mp hhigh)))]
        split_ifs <;> omega
  · calc roundHalfEven x ≤ x.floor + 1 := roundHalfEven_le_succ x
      _ ≤ y.floor := hlt
      _ ≤ roundHalfEven y := floor_le_roundHalfEven y

theorem roundHalfEven_intCast (n : Int) : roundHalfEven n = n := by
  unfold roundHalfEven
  dsimp only
  rw [Rat.floor_intCast, sub_self, if_pos (by norm_num)]

theorem roundTo_mono (n : Nat) : Monotone (roundTo n) := by
  intro x y h
  have hpow : (0 : ℚ) ≤ 10 ^ n := by positivity
  apply div_le_div_of_nonneg_right _ hpow
  exact Int.cast_le.mpr (roundHalfEven_mono (mul_le_mul_of_nonneg_right h hpow))

/-- A half is rounded up to an even integer. -/
theorem le_roundHalfEven_iff {n : Int} (heven : n % 2 = 0) :
    n ≤ roundHalfEven x ↔ (n : ℚ) - 1 / 2 ≤ x := by
  have hfloor : (x.floor : ℚ) ≤ x := Rat.floor_le x
  by_cases habove : n ≤ x.floor
  · have hcast : (n : ℚ) ≤ x := Rat.le_floor_iff.mp habove
    exact iff_of_true (habove.trans (floor_le_roundHalfEven x)) (by linarith)
  · by_cases hbelow : x.floor + 1 < n
    · have hlt : x < ((x.floor + 1 : Int) : ℚ) := Rat.lt_floor_add_one x
      have hgap : ((x.floor + 1 + 1 : Int) : ℚ) ≤ n := Int.cast_le.mpr (by omega)
      push_cast at hlt hgap
      exact iff_of_false (not_le.mpr ((roundHalfEven_le_succ x).trans_lt hbelow))
        (not_le.mpr (by linarith))
    · have hn : n = x.floor + 1 := by omega
      have hodd : ¬ x.floor % 2 = 0 := by omega
      have hcast : (n : ℚ) = x.floor + 1 := by
        rw [hn]
        push_cast
        rfl
      unfold roundHalfEven
      dsimp only
      rw [if_neg hodd, hcast]
      by_cases hlow : x - x.floor < 1 / 2
      · rw [if_pos hlow]
        exact iff_of_false (by omega) (not_le.mpr (by linarith))
      · rw [if_neg hlow, ite_self]
        exact iff_of_true hn.le (by linarith)

/-- The same with decimals kept, for a bound whose last decimal is even. -/
theorem le_roundTo_iff {n : Nat} {m : Int} (heven : m % 2 = 0) :
    (m : ℚ) / 10 ^ n ≤ roundTo n x ↔ (m - 1 / 2) / 10 ^ n ≤ x := by
  have hpow : (0 : ℚ) < 10 ^ n := by positivity
  rw [roundTo, div_le_div_iff_of_pos_right hpow, Int.cast_le, le_roundHalfEven_iff heven,
    div_le_iff₀ hpow]

end Rounding

example : parseFloat " 1250.50 " = some (2501 / 2) := by decide +kernel

example : pyFloat 25 = "25.0" := by decide +kernel

example : grouped 1234567 = "1,234,567" := by decide +kernel

end StockQuant.Num
