import StockQuant.PyValue

namespace StockQuant.JsonText

open StockQuant PyValue

/-- `float.__repr__` of a finite float, and what a number with a fraction or an exponent is read
as. -/
structure FloatText where
  repr : ℚ → List Char
  parse : List Char → Option ℚ

section Write

def hexDigit (n : Nat) : Char := Nat.digitChar n

/-- `ESCAPE_DCT`. -/
def escape (c : Char) : List Char :=
  if c = '"' then ['\\', '"']
  else if c = '\\' then ['\\', '\\']
  else if c = '\n' then ['\\', 'n']
  else if c = '\r' then ['\\', 'r']
  else if c = '\t' then ['\\', 't']
  else if c = '\x08' then ['\\', 'b']
  else if c = '\x0c' then ['\\', 'f']
  else if c.toNat < 0x20 then
    ['\\', 'u', '0', '0', hexDigit (c.toNat / 16), hexDigit (c.toNat % 16)]
  else [c]

def quoted (cs : List Char) : List Char := '"' :: cs.flatMap escape ++ ['"']

def intText (n : Int) : List Char :=
  if n < 0 then '-' :: Nat.toDigits 10 n.natAbs else Nat.toDigits 10 n.natAbs

variable (fl : FloatText)

def floatText : PyFloat → List Char
  | .fin q => fl.repr q
  | .inf => ['I', 'n', 'f', 'i', 'n', 'i', 't', 'y']
  | .negInf => ['-', 'I', 'n', 'f', 'i', 'n', 'i', 't', 'y']
  | .nan => ['N', 'a', 'N']

mutual

/-- `json.dumps(v, ensure_ascii=False)`. -/
def dumps : Value → List Char
  | .null => ['n', 'u', 'l', 'l']
  | .bool b => if b then ['t', 'r', 'u', 'e'] else ['f', 'a', 'l', 's', 'e']
  | .int n => intText n
  | .float x => floatText fl x
  | .str s => quoted s.toList
  | .arr [] => ['[', ']']
  | .arr (x :: xs) => '[' :: (dumps x ++ dumpsItems xs)
  | .obj [] => ['{', '}']
  | .obj ((key, x) :: fields) =>
    '{' :: (quoted key.toList ++ ':' :: ' ' :: (dumps x ++ dumpsFields fields))

/-- The items after one, with the bracket. -/
def dumpsItems : List Value → List Char
  | [] => [']']
  | x :: xs => ',' :: ' ' :: (dumps x ++ dumpsItems xs)

def dumpsFields : List (String × Value) → List Char
  | [] => ['}']
  | (key, x) :: fields =>
    ',' :: ' ' :: (quoted key.toList ++ ':' :: ' ' :: (dumps x ++ dumpsFields fields))

end

end Write

section Read

def isWhitespace (c : Char) : Bool := c == ' ' || c == '\t' || c == '\n' || c == '\r'

def skip (cs : List Char) : List Char := cs.dropWhile isWhitespace

def hexValue (c : Char) : Option Nat :=
  if '0' ≤ c ∧ c ≤ '9' then some (c.toNat - '0'.toNat)
  else if 'a' ≤ c ∧ c ≤ 'f' then some (c.toNat - 'a'.toNat + 10)
  else if 'A' ≤ c ∧ c ≤ 'F' then some (c.toNat - 'A'.toNat + 10)
  else none

def hex4 (a b c d : Char) : Option Nat := do
  return (((← hexValue a) * 16 + (← hexValue b)) * 16 + (← hexValue c)) * 16 + (← hexValue d)

def unescape : Char → Option Char
  | '"' => some '"'
  | '\\' => some '\\'
  | '/' => some '/'
  | 'b' => some '\x08'
  | 'f' => some '\x0c'
  | 'n' => some '\n'
  | 'r' => some '\r'
  | 't' => some '\t'
  | _ => none

def isHigh (n : Nat) : Bool := decide (0xd800 ≤ n) && decide (n ≤ 0xdbff)

def isLow (n : Nat) : Bool := decide (0xdc00 ≤ n) && decide (n ≤ 0xdfff)

/-- The rest of a string after its first quote. A lone surrogate is no character. -/
def parseString : List Char → Option (List Char × List Char)
  | '"' :: cs => some ([], cs)
  | '\\' :: 'u' :: a :: b :: c :: d :: cs =>
    match hex4 a b c d with
    | none => none
    | some n =>
      if isHigh n then
        match cs with
        | '\\' :: 'u' :: a' :: b' :: c' :: d' :: cs' =>
          match hex4 a' b' c' d' with
          | none => none
          | some m =>
            if isLow m then
              (parseString cs').map
                (Prod.map (Char.ofNat (0x10000 + (n - 0xd800) * 0x400 + (m - 0xdc00)) :: ·) id)
            else none
        | _ => none
      else if isLow n then none
      else (parseString cs).map (Prod.map (Char.ofNat n :: ·) id)
  | '\\' :: e :: cs =>
    match unescape e with
    | none => none
    | some c => (parseString cs).map (Prod.map (c :: ·) id)
  | c :: cs => if c.toNat < 0x20 ∨ c = '\\' then none else (parseString cs).map (Prod.map (c :: ·) id)
  | [] => none

def isNumberChar (c : Char) : Bool :=
  c.isDigit || c == '-' || c == '+' || c == '.' || c == 'e' || c == 'E'

def parseNat (ds : List Char) : Option Nat :=
  if ds ≠ [] ∧ ds.all Char.isDigit = true ∧ (ds.head? = some '0' → ds.length = 1) then
    some (Nat.ofDigitChars 10 ds 0)
  else none

def parseInt : List Char → Option Int
  | '-' :: ds => (parseNat ds).map fun n : Nat => -(n : Int)
  | ds => (parseNat ds).map Int.ofNat

variable (fl : FloatText)

def parseNumber (cs : List Char) : Option (Value × List Char) :=
  let token := cs.takeWhile isNumberChar
  let rest := cs.dropWhile isNumberChar
  match parseInt token with
  | some n => some (.int n, rest)
  | none => (fl.parse token).map fun q => (.float (.fin q), rest)

def literals : List (List Char × Value) :=
  [(['n', 'u', 'l', 'l'], .null), (['t', 'r', 'u', 'e'], .bool true),
    (['f', 'a', 'l', 's', 'e'], .bool false), (['N', 'a', 'N'], .float .nan),
    (['I', 'n', 'f', 'i', 'n', 'i', 't', 'y'], .float .inf),
    (['-', 'I', 'n', 'f', 'i', 'n', 'i', 't', 'y'], .float .negInf)]

def parseScalar (cs : List Char) : Option (Value × List Char) :=
  match literals.find? fun l => l.1.isPrefixOf cs with
  | some (text, v) => some (v, cs.drop text.length)
  | none => parseNumber fl cs

/-- `dict(pairs)`: a key that comes again takes its last value, in its first place. -/
def dict (pairs : List (String × Value)) : List (String × Value) :=
  pairs.foldl (fun d p =>
    if p.1 ∈ d.map Prod.fst then d.map fun q => if q.1 = p.1 then p else q else d ++ [p]) []

mutual

def parseValue : Nat → List Char → Option (Value × List Char)
  | 0, _ => none
  | fuel + 1, cs =>
    match cs with
    | '"' :: cs => (parseString cs).map fun (s, rest) => (.str (String.ofList s), rest)
    | '[' :: cs =>
      match skip cs with
      | ']' :: rest => some (.arr [], rest)
      | cs => do
        let (x, cs) ← parseValue fuel cs
        let (xs, rest) ← parseItems fuel (skip cs)
        return (.arr (x :: xs), rest)
    | '{' :: cs =>
      match skip cs with
      | '}' :: rest => some (.obj [], rest)
      | cs => do
        let (field, cs) ← parseField fuel cs
        let (fields, rest) ← parseFields fuel (skip cs)
        return (.obj (dict (field :: fields)), rest)
    | cs => parseScalar fl cs

def parseItems : Nat → List Char → Option (List Value × List Char)
  | 0, _ => none
  | fuel + 1, cs =>
    match cs with
    | ']' :: rest => some ([], rest)
    | ',' :: cs => do
      let (x, cs) ← parseValue fuel (skip cs)
      let (xs, rest) ← parseItems fuel (skip cs)
      return (x :: xs, rest)
    | _ => none

def parseField : Nat → List Char → Option ((String × Value) × List Char)
  | 0, _ => none
  | fuel + 1, cs =>
    match cs with
    | '"' :: cs => do
      let (key, cs) ← parseString cs
      match skip cs with
      | ':' :: cs => do
        let (x, rest) ← parseValue fuel (skip cs)
        return ((String.ofList key, x), rest)
      | _ => none
    | _ => none

def parseFields : Nat → List Char → Option (List (String × Value) × List Char)
  | 0, _ => none
  | fuel + 1, cs =>
    match cs with
    | '}' :: rest => some ([], rest)
    | ',' :: cs => do
      let (field, cs) ← parseField fuel (skip cs)
      let (fields, rest) ← parseFields fuel (skip cs)
      return (field :: fields, rest)
    | _ => none

end

/-- `json.loads(text)`, `none` where it raises. -/
def loads (text : List Char) : Option Value :=
  match parseValue fl (text.length + 1) (skip text) with
  | some (v, rest) => if skip rest = [] then some v else none
  | none => none

end Read

/-- The ASCII characters that leave a mark. -/
def Visible (c : Char) : Prop := 0x20 < c.toNat ∧ c.toNat < 0x7f

instance (c : Char) : Decidable (Visible c) := inferInstanceAs (Decidable (_ ∧ _))

/-- No number goes on in these characters. -/
def NumberEnd (cs : List Char) : Prop := ∀ c ∈ cs.head?, isNumberChar c = false

/-- The float is read back from its text, as every float is. -/
structure FloatReads (fl : FloatText) (q : ℚ) : Prop where
  reads : fl.parse (fl.repr q) = some q
  chars : ∀ c ∈ fl.repr q, isNumberChar c = true
  notInt : parseInt (fl.repr q) = none
  long : 1 < (fl.repr q).length

mutual

/-- A value of the program: its dictionaries have distinct keys, and its floats are read back. -/
def Legible (fl : FloatText) : Value → Prop
  | .obj fields => (fields.map Prod.fst).Nodup ∧ LegibleFields fl fields
  | .arr xs => LegibleItems fl xs
  | .float (.fin q) => FloatReads fl q
  | .float .inf | .float .negInf | .float .nan | .null | .bool _ | .int _ | .str _ => True

def LegibleItems (fl : FloatText) : List Value → Prop
  | [] => True
  | x :: xs => Legible fl x ∧ LegibleItems fl xs

def LegibleFields (fl : FloatText) : List (String × Value) → Prop
  | [] => True
  | (_, x) :: fields => Legible fl x ∧ LegibleFields fl fields

end

section Strings

theorem hexValue_hexDigit : ∀ n < 16, hexValue (hexDigit n) = some n := by decide

theorem parseString_control {c : Char} (hc : c.toNat < 0x20) (rest : List Char) :
    parseString (['\\', 'u', '0', '0', hexDigit (c.toNat / 16), hexDigit (c.toNat % 16)] ++ rest) =
      (parseString rest).map (Prod.map (c :: ·) id) := by
  have hhigh := hexValue_hexDigit (c.toNat / 16) (by omega)
  have hlow := hexValue_hexDigit (c.toNat % 16) (by omega)
  have hzero : hexValue '0' = some 0 := by decide
  have hhex : hex4 '0' '0' (hexDigit (c.toNat / 16)) (hexDigit (c.toNat % 16)) = some c.toNat := by
    simp only [hex4, hhigh, hlow, hzero, Option.bind_eq_bind, Option.bind_some, Option.pure_def,
      Option.some.injEq]
    omega
  have hsurrogate : isHigh c.toNat = false ∧ isLow c.toNat = false := by
    simp only [isHigh, isLow, Bool.and_eq_false_iff, decide_eq_false_iff_not]
    omega
  simp only [List.cons_append, List.nil_append]
  rw [parseString]
  simp only [hhex, hsurrogate.1, hsurrogate.2, Bool.false_eq_true, if_false, Char.ofNat_toNat]

theorem parseString_escape (c : Char) (rest : List Char) :
    parseString (escape c ++ rest) = (parseString rest).map (Prod.map (c :: ·) id) := by
  unfold escape
  split_ifs with hquote hback _ _ _ _ _ hcontrol
  case pos => subst c; rfl
  case pos => subst c; rfl
  case pos => subst c; rfl
  case pos => subst c; rfl
  case pos => subst c; rfl
  case pos => subst c; rfl
  case pos => subst c; rfl
  case pos => exact parseString_control hcontrol rest
  case neg =>
    rw [List.singleton_append, parseString]
    · rw [if_neg fun h => h.elim hcontrol hback]
    all_goals simp_all

theorem parseString_quoted (cs rest : List Char) :
    parseString (cs.flatMap escape ++ '"' :: rest) = some (cs, rest) := by
  induction cs with
  | nil => rfl
  | cons c cs ih =>
    rw [List.flatMap_cons, List.append_assoc, parseString_escape, ih]
    rfl

end Strings

section Scalars

variable {fl : FloatText}

theorem scan_token {token rest : List Char} (htoken : ∀ c ∈ token, isNumberChar c = true)
    (hrest : NumberEnd rest) :
    (token ++ rest).takeWhile isNumberChar = token ∧
      (token ++ rest).dropWhile isNumberChar = rest := by
  have hnone : rest.takeWhile isNumberChar = [] ∧ rest.dropWhile isNumberChar = rest := by
    cases rest with
    | nil => exact ⟨rfl, rfl⟩
    | cons c cs =>
      have hc : isNumberChar c = false := hrest c rfl
      simp [hc]
  rw [List.takeWhile_append_of_pos htoken, List.dropWhile_append_of_pos htoken, hnone.1, hnone.2,
    List.append_nil]
  exact ⟨rfl, rfl⟩

theorem prefix_getElem? {text token rest : List Char} (h : text <+: token ++ rest) {k : Nat} {c : Char}
    (hk : k < token.length) (hc : text[k]? = some c) : token[k]? = some c := by
  obtain ⟨more, hmore⟩ := h
  have hleft : (text ++ more)[k]? = some c :=
    (List.getElem?_append_left (List.getElem?_eq_some_iff.mp hc).1).trans hc
  rwa [hmore, List.getElem?_append_left hk] at hleft

/-- Numbers and the other literals do not begin alike. -/
theorem literal_not_prefix {token rest : List Char} (htoken : ∀ c ∈ token, isNumberChar c = true)
    (hlong : 1 < token.length ∨ token.head? ≠ some '-') (hne : token ≠ []) :
    literals.find? (fun l => l.1.isPrefixOf (token ++ rest)) = none := by
  have hchar : ∀ {text : List Char} {k : Nat} {c : Char}, text.isPrefixOf (token ++ rest) = true →
      k < token.length → text[k]? = some c → isNumberChar c = true := fun hprefix hk hc =>
    htoken _ (List.mem_of_getElem? (prefix_getElem? (List.isPrefixOf_iff_prefix.mp hprefix) hk hc))
  have hpos : 0 < token.length := List.length_pos_of_ne_nil hne
  refine List.find?_eq_none.mpr fun l hl hprefix => ?_
  simp only [literals, List.mem_cons, List.not_mem_nil, or_false] at hl
  obtain rfl | rfl | rfl | rfl | rfl | rfl := hl
  · exact absurd (hchar (c := 'n') hprefix hpos rfl) (by decide)
  · exact absurd (hchar (c := 't') hprefix hpos rfl) (by decide)
  · exact absurd (hchar (c := 'f') hprefix hpos rfl) (by decide)
  · exact absurd (hchar (c := 'N') hprefix hpos rfl) (by decide)
  · exact absurd (hchar (c := 'I') hprefix hpos rfl) (by decide)
  · obtain hlong | hhead := hlong
    · exact absurd (hchar (c := 'I') hprefix hlong rfl) (by decide)
    · have hfirst : token[0]? = some '-' :=
        prefix_getElem? (List.isPrefixOf_iff_prefix.mp hprefix) hpos rfl
      exact hhead (List.head?_eq_getElem? ▸ hfirst)

/-- Only zero begins with a zero. -/
theorem digits_head (n : Nat) (hn : 0 < n) : (Nat.toDigits 10 n).head? ≠ some '0' := by
  induction n using Nat.strong_induction_on with
  | h n ih =>
    by_cases hlt : n < 10
    · have hdigit : ∀ n < 10, 0 < n → Nat.digitChar n ≠ '0' := by decide
      rw [Nat.toDigits_of_lt_base hlt]
      exact fun h => hdigit n hlt hn (Option.some.inj h)
    · rw [Nat.toDigits_of_base_le (by decide) (Nat.le_of_not_lt hlt),
        List.head?_append_of_ne_nil _ Nat.toDigits_ne_nil]
      exact ih (n / 10) (by omega) (by omega)

theorem parseNat_digits (n : Nat) : parseNat (Nat.toDigits 10 n) = some n := by
  have hall : (Nat.toDigits 10 n).all Char.isDigit = true :=
    List.all_eq_true.mpr fun c hc => Nat.isDigit_of_mem_toDigits (by decide) (by decide) hc
  have hzero : (Nat.toDigits 10 n).head? = some '0' → (Nat.toDigits 10 n).length = 1 := by
    intro hhead
    obtain rfl | hn := Nat.eq_zero_or_pos n
    · rfl
    · exact absurd hhead (digits_head n hn)
  rw [parseNat, if_pos ⟨Nat.toDigits_ne_nil, hall, hzero⟩, Nat.ofDigitChars_ten_toDigits]

theorem digits_numberChar {n : Nat} : ∀ c ∈ Nat.toDigits 10 n, isNumberChar c = true := by
  intro c hc
  have hdigit : c.isDigit = true := Nat.isDigit_of_mem_toDigits (by decide) (by decide) hc
  simp [isNumberChar, hdigit]

theorem intText_numberChar (n : Int) : ∀ c ∈ intText n, isNumberChar c = true := by
  unfold intText
  split
  · rintro c hc
    obtain rfl | hc := List.mem_cons.mp hc
    · rfl
    · exact digits_numberChar c hc
  · exact digits_numberChar

theorem parseInt_intText (n : Int) : parseInt (intText n) = some n := by
  unfold intText
  split
  · next hneg =>
    rw [parseInt, parseNat_digits, Option.map_some]
    congr 1
    omega
  · next hnonneg =>
    rw [parseInt, parseNat_digits, Option.map_some]
    · congr 1
      exact Int.natAbs_of_nonneg (Int.not_lt.mp hnonneg)
    · intro ds hds
      have hminus : ('-' : Char).isDigit = true :=
        Nat.isDigit_of_mem_toDigits (b := 10) (n := n.natAbs) (by decide) (by decide)
          (hds ▸ List.mem_cons_self)
      exact absurd hminus (by decide)

/-- A number of either kind is not a literal, so that it is read as a number. -/
theorem parseScalar_number {token rest : List Char} (htoken : ∀ c ∈ token, isNumberChar c = true)
    (hlong : 1 < token.length ∨ token.head? ≠ some '-') (hne : token ≠ []) (hrest : NumberEnd rest) :
    parseScalar fl (token ++ rest) =
      match parseInt token with
      | some n => some (.int n, rest)
      | none => (fl.parse token).map fun q => (.float (.fin q), rest) := by
  have hscan := scan_token htoken hrest
  simp only [parseScalar, literal_not_prefix htoken hlong hne, parseNumber, hscan.1, hscan.2]

theorem parseScalar_int (n : Int) {rest : List Char} (hrest : NumberEnd rest) :
    parseScalar fl (intText n ++ rest) = some (.int n, rest) := by
  have hlong : 1 < (intText n).length ∨ (intText n).head? ≠ some '-' := by
    unfold intText
    split
    · left
      exact Nat.succ_lt_succ Nat.length_toDigits_pos
    · right
      intro hhead
      exact absurd (Nat.isDigit_of_mem_toDigits (c := '-') (by decide) (by decide)
        (List.mem_of_head? hhead)) (by decide)
  have hne : intText n ≠ [] := by
    unfold intText
    split
    · exact List.cons_ne_nil _ _
    · exact Nat.toDigits_ne_nil
  rw [parseScalar_number (intText_numberChar n) hlong hne hrest, parseInt_intText]

theorem parseScalar_float {q : ℚ} (h : FloatReads fl q) {rest : List Char} (hrest : NumberEnd rest) :
    parseScalar fl (fl.repr q ++ rest) = some (.float (.fin q), rest) := by
  have hne : fl.repr q ≠ [] := List.ne_nil_of_length_pos (Nat.lt_trans Nat.zero_lt_one h.long)
  rw [parseScalar_number h.chars (.inl h.long) hne hrest, h.notInt, h.reads]
  rfl

end Scalars

section RoundTrip

variable {fl : FloatText}

theorem skip_cons {c : Char} (hc : isWhitespace c = false) (cs : List Char) :
    skip (c :: cs) = c :: cs := by
  rw [skip, List.dropWhile_cons_of_neg (by simp [hc])]

theorem skip_space (cs : List Char) : skip (' ' :: cs) = skip cs := rfl

/-- The characters that a value may begin with. -/
def Opens (c : Char) : Prop := Visible c ∧ c ≠ ']'

theorem Visible.not_whitespace {c : Char} (h : Visible c) : isWhitespace c = false := by
  cases hspace : isWhitespace c with
  | false => rfl
  | true =>
    simp only [isWhitespace, Bool.or_eq_true, beq_iff_eq] at hspace
    obtain ((rfl | rfl) | rfl) | rfl := hspace <;> exact absurd h (by decide)

theorem visible_of_numberChar {c : Char} (h : isNumberChar c = true) : Visible c := by
  simp only [isNumberChar, Bool.or_eq_true, beq_iff_eq] at h
  obtain ((((h | rfl) | rfl) | rfl) | rfl) | rfl := h
  · simp only [Char.isDigit, ge_iff_le, Bool.and_eq_true, decide_eq_true_eq, UInt32.le_iff_toNat_le]
      at h
    exact ⟨Nat.lt_of_lt_of_le (by decide) h.1, Nat.lt_of_le_of_lt h.2 (by decide)⟩
  all_goals decide

theorem opens_of_numberChar {c : Char} (h : isNumberChar c = true) : Opens c := by
  refine ⟨visible_of_numberChar h, ?_⟩
  rintro rfl
  cases h

theorem opens_of_token {token : List Char} (htoken : ∀ c ∈ token, isNumberChar c = true)
    (hne : token ≠ []) : ∃ c cs, token = c :: cs ∧ Opens c := by
  obtain ⟨c, cs, rfl⟩ := List.exists_cons_of_ne_nil hne
  exact ⟨c, cs, rfl, opens_of_numberChar (htoken c List.mem_cons_self)⟩

theorem intText_ne_nil (n : Int) : intText n ≠ [] := by
  unfold intText
  split
  · exact List.cons_ne_nil _ _
  · exact Nat.toDigits_ne_nil

theorem FloatReads.ne_nil {q : ℚ} (h : FloatReads fl q) : fl.repr q ≠ [] :=
  List.ne_nil_of_length_pos (Nat.lt_trans Nat.zero_lt_one h.long)

theorem dumps_head {v : Value} (h : Legible fl v) : ∃ c cs, dumps fl v = c :: cs ∧ Opens c := by
  cases v with
  | null => exact ⟨_, _, rfl, by decide, by decide⟩
  | bool b => cases b <;> exact ⟨_, _, rfl, by decide, by decide⟩
  | int n =>
    rw [dumps]
    exact opens_of_token (intText_numberChar n) (intText_ne_nil n)
  | float x =>
    cases x with
    | fin q =>
      rw [dumps, floatText]
      exact opens_of_token (FloatReads.chars h) (FloatReads.ne_nil h)
    | inf | negInf | nan => exact ⟨_, _, rfl, by decide, by decide⟩
  | str s => exact ⟨_, _, by rw [dumps]; rfl, by decide, by decide⟩
  | arr xs => cases xs <;> exact ⟨_, _, by rw [dumps], by decide, by decide⟩
  | obj fields => cases fields <;> exact ⟨_, _, by rw [dumps], by decide, by decide⟩

theorem dumpsItems_last (fl : FloatText) (xs : List Value) : ∃ cs, dumpsItems fl xs = cs ++ [']'] := by
  induction xs with
  | nil => exact ⟨[], rfl⟩
  | cons x xs ih =>
    obtain ⟨cs, hcs⟩ := ih
    refine ⟨',' :: ' ' :: (dumps fl x ++ cs), ?_⟩
    rw [dumpsItems, hcs, ← List.append_assoc]
    rfl

theorem dumpsFields_last (fl : FloatText) (fields : List (String × Value)) :
    ∃ cs, dumpsFields fl fields = cs ++ ['}'] := by
  induction fields with
  | nil => exact ⟨[], rfl⟩
  | cons p fields ih =>
    obtain ⟨key, x⟩ := p
    obtain ⟨cs, hcs⟩ := ih
    refine ⟨',' :: ' ' :: (quoted key.toList ++ ':' :: ' ' :: (dumps fl x ++ cs)), ?_⟩
    rw [dumpsFields, hcs]
    simp only [List.cons_append, List.append_assoc]

theorem visible_last {token : List Char} (htoken : ∀ c ∈ token, isNumberChar c = true)
    (hne : token ≠ []) : ∃ cs c, token = cs ++ [c] ∧ Visible c :=
  ⟨token.dropLast, token.getLast hne, (List.dropLast_append_getLast hne).symm,
    visible_of_numberChar (htoken _ (List.getLast_mem hne))⟩

theorem dumps_last {v : Value} (h : Legible fl v) : ∃ cs c, dumps fl v = cs ++ [c] ∧ Visible c := by
  cases v with
  | null => exact ⟨['n', 'u', 'l'], 'l', rfl, by decide⟩
  | bool b =>
    cases b with
    | true => exact ⟨['t', 'r', 'u'], 'e', rfl, by decide⟩
    | false => exact ⟨['f', 'a', 'l', 's'], 'e', rfl, by decide⟩
  | int n => exact visible_last (intText_numberChar n) (intText_ne_nil n)
  | float x =>
    cases x with
    | fin q => exact visible_last (FloatReads.chars h) (FloatReads.ne_nil h)
    | inf => exact ⟨['I', 'n', 'f', 'i', 'n', 'i', 't'], 'y', rfl, by decide⟩
    | negInf => exact ⟨['-', 'I', 'n', 'f', 'i', 'n', 'i', 't'], 'y', rfl, by decide⟩
    | nan => exact ⟨['N', 'a'], 'N', rfl, by decide⟩
  | str s => exact ⟨'"' :: s.toList.flatMap escape, '"', rfl, by decide⟩
  | arr xs =>
    cases xs with
    | nil => exact ⟨['['], ']', rfl, by decide⟩
    | cons x xs =>
      obtain ⟨cs, hcs⟩ := dumpsItems_last fl xs
      refine ⟨'[' :: (dumps fl x ++ cs), ']', ?_, by decide⟩
      rw [dumps, hcs, List.cons_append, List.append_assoc]
  | obj fields =>
    cases fields with
    | nil => exact ⟨['{'], '}', rfl, by decide⟩
    | cons p fields =>
      obtain ⟨key, x⟩ := p
      obtain ⟨cs, hcs⟩ := dumpsFields_last fl fields
      refine ⟨'{' :: (quoted key.toList ++ ':' :: ' ' :: (dumps fl x ++ cs)), '}', ?_, by decide⟩
      rw [dumps, hcs]
      simp only [List.cons_append, List.append_assoc]

theorem parseValue_scalar {cs : List Char} (fuel : Nat)
    (h : ∀ c ∈ cs.head?, c ≠ '"' ∧ c ≠ '[' ∧ c ≠ '{') :
    parseValue fl (fuel + 1) cs = parseScalar fl cs := by
  unfold parseValue
  split
  · exact absurd rfl (h _ rfl).1
  · exact absurd rfl (h _ rfl).2.1
  · exact absurd rfl (h _ rfl).2.2
  · rfl

theorem parseValue_token {token rest : List Char} (fuel : Nat)
    (htoken : ∀ c ∈ token, isNumberChar c = true) (hne : token ≠ []) :
    parseValue fl (fuel + 1) (token ++ rest) = parseScalar fl (token ++ rest) := by
  obtain ⟨c, cs, rfl⟩ := List.exists_cons_of_ne_nil hne
  refine parseValue_scalar fuel fun d hd => ?_
  obtain rfl := Option.mem_some_iff.mp hd
  have hc := htoken c List.mem_cons_self
  refine ⟨?_, ?_, ?_⟩
  all_goals rintro rfl; cases hc

/-- Distinct keys all keep their place. -/
theorem dict_nodup {pairs : List (String × Value)} (h : (pairs.map Prod.fst).Nodup) :
    dict pairs = pairs := by
  have hfold (d pairs : List (String × Value)) (hnodup : ((d ++ pairs).map Prod.fst).Nodup) :
      pairs.foldl (fun d p =>
        if p.1 ∈ d.map Prod.fst then d.map fun q => if q.1 = p.1 then p else q else d ++ [p]) d =
        d ++ pairs := by
    induction pairs generalizing d with
    | nil => exact (List.append_nil d).symm
    | cons p pairs ih =>
      have hnew : p.1 ∉ d.map Prod.fst := by
        rw [List.map_append, List.map_cons] at hnodup
        exact fun hmem => (List.nodup_append.mp hnodup).2.2 _ hmem _ List.mem_cons_self rfl
      rw [List.foldl_cons, if_neg hnew, ih, List.append_assoc, List.singleton_append]
      rwa [List.append_assoc, List.singleton_append]
  exact hfold [] pairs h

theorem quoted_append (cs rest : List Char) :
    quoted cs ++ rest = '"' :: (cs.flatMap escape ++ '"' :: rest) := by
  simp [quoted]

theorem numberEnd_items (xs : List Value) (rest : List Char) :
    NumberEnd (dumpsItems fl xs ++ rest) := by
  intro c hc
  cases xs <;> rw [dumpsItems] at hc <;> obtain rfl := Option.mem_some_iff.mp hc <;> rfl

theorem numberEnd_fields (fields : List (String × Value)) (rest : List Char) :
    NumberEnd (dumpsFields fl fields ++ rest) := by
  intro c hc
  cases fields <;> rw [dumpsFields] at hc <;> obtain rfl := Option.mem_some_iff.mp hc <;> rfl

theorem skip_items (xs : List Value) (rest : List Char) :
    skip (dumpsItems fl xs ++ rest) = dumpsItems fl xs ++ rest := by
  cases xs <;> rw [dumpsItems] <;> exact skip_cons rfl _

theorem skip_fields (fields : List (String × Value)) (rest : List Char) :
    skip (dumpsFields fl fields ++ rest) = dumpsFields fl fields ++ rest := by
  cases fields <;> rw [dumpsFields] <;> exact skip_cons rfl _

theorem skip_dumps {v : Value} (h : Legible fl v) (rest : List Char) :
    skip (dumps fl v ++ rest) = dumps fl v ++ rest := by
  obtain ⟨c, cs, heq, hopens⟩ := dumps_head h
  rw [heq]
  exact skip_cons hopens.1.not_whitespace _

theorem parseValue_string (fuel : Nat) (cs : List Char) :
    parseValue fl (fuel + 1) ('"' :: cs) =
      (parseString cs).map fun (s, rest) => (.str (String.ofList s), rest) := rfl

theorem parseValue_items {fuel : Nat} {cs : List Char} (h : ∀ rest, skip cs ≠ ']' :: rest) :
    parseValue fl (fuel + 1) ('[' :: cs) = do
      let (x, cs) ← parseValue fl fuel (skip cs)
      let (xs, rest) ← parseItems fl fuel (skip cs)
      return (.arr (x :: xs), rest) := by
  rw [parseValue]
  split
  · next rest heq => exact absurd heq (h rest)
  · rfl

theorem parseValue_fields {fuel : Nat} {cs : List Char} (h : ∀ rest, skip cs ≠ '}' :: rest) :
    parseValue fl (fuel + 1) ('{' :: cs) = do
      let (field, cs) ← parseField fl fuel (skip cs)
      let (fields, rest) ← parseFields fl fuel (skip cs)
      return (.obj (dict (field :: fields)), rest) := by
  rw [parseValue]
  split
  · next rest heq => exact absurd heq (h rest)
  · rfl

theorem parseField_dumps (key : String) {x : Value} {fuel : Nat} {rest : List Char}
    (hx : parseValue fl fuel (dumps fl x ++ rest) = some (x, rest)) (hlegible : Legible fl x) :
    parseField fl (fuel + 1) (quoted key.toList ++ ':' :: ' ' :: (dumps fl x ++ rest)) =
      some ((key, x), rest) := by
  have hcolon : skip (':' :: ' ' :: (dumps fl x ++ rest)) = ':' :: ' ' :: (dumps fl x ++ rest) :=
    skip_cons rfl _
  rw [quoted_append, parseField, parseString_quoted]
  simp only [hcolon, skip_space, skip_dumps hlegible, hx, Option.bind_eq_bind, Option.bind_some,
    Option.pure_def, String.ofList_toList]

mutual

theorem parseValue_dumps : (v : Value) → Legible fl v → (fuel : Nat) →
    (dumps fl v).length ≤ fuel → (rest : List Char) → NumberEnd rest →
    parseValue fl fuel (dumps fl v ++ rest) = some (v, rest)
  | v, hlegible, 0, hfuel, rest, hrest => by
    obtain ⟨c, cs, heq, -⟩ := dumps_head hlegible
    rw [heq] at hfuel
    exact absurd hfuel (Nat.not_succ_le_zero _)
  | .null, _, fuel + 1, _, rest, _ => rfl
  | .bool true, _, fuel + 1, _, rest, _ => rfl
  | .bool false, _, fuel + 1, _, rest, _ => rfl
  | .int n, _, fuel + 1, _, rest, hrest => by
    rw [dumps, parseValue_token fuel (intText_numberChar n) (intText_ne_nil n), parseScalar_int n hrest]
  | .float (.fin q), hlegible, fuel + 1, _, rest, hrest => by
    have hreads : FloatReads fl q := hlegible
    rw [dumps, floatText, parseValue_token fuel hreads.chars hreads.ne_nil,
      parseScalar_float hreads hrest]
  | .float .inf, _, fuel + 1, _, rest, _ => rfl
  | .float .negInf, _, fuel + 1, _, rest, _ => rfl
  | .float .nan, _, fuel + 1, _, rest, _ => rfl
  | .str s, _, fuel + 1, _, rest, _ => by
    rw [dumps, quoted_append, parseValue_string, parseString_quoted]
    simp only [Option.map_some, String.ofList_toList]
  | .arr [], _, fuel + 1, _, rest, _ => rfl
  | .arr (x :: xs), hlegible, fuel + 1, hfuel, rest, hrest => by
    obtain ⟨hx, hxs⟩ : Legible fl x ∧ LegibleItems fl xs := hlegible
    simp only [dumps, List.length_cons, List.length_append] at hfuel
    have hvalue := parseValue_dumps x hx fuel (by omega) (dumpsItems fl xs ++ rest)
      (numberEnd_items xs rest)
    have hitems := parseItems_dumps xs hxs fuel (by omega) rest
    have hopen : ∀ more, skip (dumps fl x ++ (dumpsItems fl xs ++ rest)) ≠ ']' :: more := by
      obtain ⟨c, cs, heq, hopens⟩ := dumps_head hx
      intro more hbracket
      rw [skip_dumps hx, heq] at hbracket
      exact hopens.2 (List.cons.inj hbracket).1
    rw [dumps, List.cons_append, List.append_assoc, parseValue_items hopen, skip_dumps hx, hvalue]
    simp only [skip_items, hitems, Option.bind_eq_bind, Option.bind_some, Option.pure_def]
  | .obj [], _, fuel + 1, _, rest, _ => rfl
  | .obj ((key, x) :: fields), hlegible, fuel + 1, hfuel, rest, hrest => by
    obtain ⟨hnodup, hx, hfields⟩ :
      (((key, x) :: fields).map Prod.fst).Nodup ∧ Legible fl x ∧ LegibleFields fl fields := hlegible
    simp only [dumps, quoted, List.length_cons, List.length_append] at hfuel
    obtain _ | fuel := fuel
    · omega
    have hvalue := parseValue_dumps x hx fuel (by omega) (dumpsFields fl fields ++ rest)
      (numberEnd_fields fields rest)
    have hfield := parseField_dumps key hvalue hx
    have hmore := parseFields_dumps fields hfields (fuel + 1) (by omega) rest
    have hskip : skip (quoted key.toList ++ ':' :: ' ' :: (dumps fl x ++ (dumpsFields fl fields ++ rest))) =
        quoted key.toList ++ ':' :: ' ' :: (dumps fl x ++ (dumpsFields fl fields ++ rest)) :=
      skip_cons rfl _
    have htext : dumps fl (.obj ((key, x) :: fields)) ++ rest =
        '{' :: (quoted key.toList ++ ':' :: ' ' :: (dumps fl x ++ (dumpsFields fl fields ++ rest))) := by
      simp [dumps]
    rw [htext, parseValue_fields (by rw [hskip]; exact fun _ h => nomatch (List.cons.inj h).1), hskip, hfield]
    simp only [skip_fields, hmore, dict_nodup hnodup, Option.bind_eq_bind, Option.bind_some,
      Option.pure_def]

theorem parseItems_dumps : (xs : List Value) → LegibleItems fl xs → (fuel : Nat) →
    (dumpsItems fl xs).length ≤ fuel → (rest : List Char) →
    parseItems fl fuel (dumpsItems fl xs ++ rest) = some (xs, rest)
  | [], _, 0, hfuel, _ => absurd hfuel (Nat.not_succ_le_zero _)
  | _ :: _, _, 0, hfuel, _ => absurd hfuel (Nat.not_succ_le_zero _)
  | [], _, fuel + 1, _, rest => rfl
  | x :: xs, hlegible, fuel + 1, hfuel, rest => by
    obtain ⟨hx, hxs⟩ := hlegible
    simp only [dumpsItems, List.length_cons, List.length_append] at hfuel
    have hvalue := parseValue_dumps x hx fuel (by omega) (dumpsItems fl xs ++ rest)
      (numberEnd_items xs rest)
    have hitems := parseItems_dumps xs hxs fuel (by omega) rest
    rw [dumpsItems, List.cons_append, List.cons_append, List.append_assoc, parseItems]
    simp only [skip_space, skip_dumps hx, hvalue, skip_items, hitems, Option.bind_eq_bind,
      Option.bind_some, Option.pure_def]

theorem parseFields_dumps : (fields : List (String × Value)) → LegibleFields fl fields →
    (fuel : Nat) → (dumpsFields fl fields).length ≤ fuel → (rest : List Char) →
    parseFields fl fuel (dumpsFields fl fields ++ rest) = some (fields, rest)
  | [], _, 0, hfuel, _ => absurd hfuel (Nat.not_succ_le_zero _)
  | _ :: _, _, 0, hfuel, _ => absurd hfuel (Nat.not_succ_le_zero _)
  | [], _, fuel + 1, _, rest => rfl
  | (key, x) :: fields, hlegible, fuel + 1, hfuel, rest => by
    obtain ⟨hx, hfields⟩ := hlegible
    simp only [dumpsFields, quoted, List.length_cons, List.length_append] at hfuel
    obtain _ | fuel := fuel
    · omega
    have hvalue := parseValue_dumps x hx fuel (by omega) (dumpsFields fl fields ++ rest)
      (numberEnd_fields fields rest)
    have hfield := parseField_dumps key hvalue hx
    have hmore := parseFields_dumps fields hfields (fuel + 1) (by omega) rest
    have hskip : skip (quoted key.toList ++ ':' :: ' ' :: (dumps fl x ++ (dumpsFields fl fields ++ rest))) =
        quoted key.toList ++ ':' :: ' ' :: (dumps fl x ++ (dumpsFields fl fields ++ rest)) :=
      skip_cons rfl _
    have htext : dumpsFields fl ((key, x) :: fields) ++ rest = ',' :: ' ' ::
        (quoted key.toList ++ ':' :: ' ' :: (dumps fl x ++ (dumpsFields fl fields ++ rest))) := by
      simp [dumpsFields]
    rw [htext, parseFields, skip_space, hskip, hfield]
    simp only [skip_fields, hmore, Option.bind_eq_bind, Option.bind_some, Option.pure_def]

end

/-- What was written is read back. -/
theorem loads_dumps {v : Value} (h : Legible fl v) : loads fl (dumps fl v) = some v := by
  have hread := parseValue_dumps v h ((dumps fl v).length + 1) (Nat.le_succ _) [] fun _ hc => nomatch hc
  have hskip := skip_dumps h []
  rw [List.append_nil] at hread hskip
  rw [loads, hskip, hread]
  rfl

end RoundTrip

end StockQuant.JsonText
