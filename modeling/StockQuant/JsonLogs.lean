import Mathlib.Data.List.Chain
import StockQuant.JsonQuotes
import StockQuant.LiveUnlockGate
import StockQuant.Machine

namespace StockQuant.KisMask

open StockQuant PyValue

def sensitiveKeySubstr : List String :=
  ["cano", "appkey", "appsecret", "app_key", "app_secret", "token", "authorization", "hash",
    "hashkey", "pwd", "password"]

def mask : String := "***"

section Masking

-- `str.lower`, and the characters that `\d` stands for
variable (lower : String → String) (digit : Char → Bool)

def sensitiveKey (k : String) : Bool := sensitiveKeySubstr.any fun s => Text.hasSub s (lower k)

/-- `re.fullmatch(r"\d{8,12}", s)`. -/
def accountLike (s : String) : Bool :=
  decide (8 ≤ s.length) && decide (s.length ≤ 12) && s.toList.all digit

mutual

def maskKisPayloadForLog : Value → Value
  | .obj fields => .obj (maskFields fields)
  | .arr xs => .arr (maskItems xs)
  | .str s => .str (if accountLike digit s then mask else s)
  | .null => .null
  | .bool b => .bool b
  | .int n => .int n
  | .float x => .float x

def maskItems : List Value → List Value
  | [] => []
  | x :: xs => maskKisPayloadForLog x :: maskItems xs

def maskFields : List (String × Value) → List (String × Value)
  | [] => []
  | (k, v) :: fields =>
    (k, if sensitiveKey lower k then .str mask else maskKisPayloadForLog v) :: maskFields fields

end

mutual

/-- Nothing secret is left anywhere: no text that looks like an account number, and under a
sensitive key only the mask. -/
def Clean : Value → Prop
  | .obj fields => CleanFields fields
  | .arr xs => CleanItems xs
  | .str s => accountLike digit s = false
  | .null | .bool _ | .int _ | .float _ => True

def CleanItems : List Value → Prop
  | [] => True
  | x :: xs => Clean x ∧ CleanItems xs

def CleanFields : List (String × Value) → Prop
  | [] => True
  | (k, v) :: fields =>
    (sensitiveKey lower k = true → v = .str mask) ∧ Clean v ∧ CleanFields fields

end

/-- The texts that are shown as the mask. -/
def Hidden (s : String) : Prop := accountLike digit s = true ∨ s = mask

mutual

/-- Two payloads are alike in all that is not secret. -/
def SamePublic : Value → Value → Prop
  | .obj fields, .obj fields' => SameFields fields fields'
  | .arr xs, .arr ys => SameItems xs ys
  | .str s, .str t => s = t ∨ (Hidden digit s ∧ Hidden digit t)
  | .null, .null => True
  | .bool b, .bool c => b = c
  | .int n, .int m => n = m
  | .float x, .float y => x = y
  | _, _ => False

def SameItems : List Value → List Value → Prop
  | [], [] => True
  | x :: xs, y :: ys => SamePublic x y ∧ SameItems xs ys
  | _, _ => False

def SameFields : List (String × Value) → List (String × Value) → Prop
  | [], [] => True
  | (k, v) :: fields, (k', v') :: fields' =>
    k = k' ∧ (sensitiveKey lower k = true ∨ SamePublic v v') ∧ SameFields fields fields'
  | _, _ => False

end

theorem mask_not_account : accountLike digit mask = false := rfl

theorem shown_eq_iff (s t : String) :
    (if accountLike digit s then mask else s) = (if accountLike digit t then mask else t) ↔
      s = t ∨ (Hidden digit s ∧ Hidden digit t) := by
  have hmask (s : String) : (if accountLike digit s then mask else s) = mask ↔ Hidden digit s := by
    rw [Hidden]
    split <;> simp_all
  constructor
  · intro h
    by_cases hs : Hidden digit s
    · have ht : Hidden digit t := (hmask t).mp (h ▸ (hmask s).mpr hs)
      exact .inr ⟨hs, ht⟩
    · have ht : ¬Hidden digit t := fun ht => hs ((hmask s).mp (h ▸ (hmask t).mpr ht))
      rw [if_neg fun hacc => hs (.inl hacc), if_neg fun hacc => ht (.inl hacc)] at h
      exact .inl h
  · rintro (rfl | ⟨hs, ht⟩)
    · rfl
    · rw [(hmask s).mpr hs, (hmask t).mpr ht]

mutual

theorem payload_clean : (v : Value) → Clean lower digit (maskKisPayloadForLog lower digit v)
  | .obj fields => fields_clean fields
  | .arr xs => items_clean xs
  | .str s => by
    rw [maskKisPayloadForLog, Clean]
    split
    · exact mask_not_account digit
    · next h => exact Bool.eq_false_iff.mpr h
  | .null | .bool _ | .int _ | .float _ => trivial

theorem items_clean : (xs : List Value) → CleanItems lower digit (maskItems lower digit xs)
  | [] => trivial
  | x :: xs => ⟨payload_clean x, items_clean xs⟩

theorem fields_clean : (fields : List (String × Value)) →
    CleanFields lower digit (maskFields lower digit fields)
  | [] => trivial
  | (k, v) :: fields => by
    rw [maskFields, CleanFields]
    refine ⟨fun hkey => if_pos hkey, ?_, fields_clean fields⟩
    split
    · exact mask_not_account digit
    · exact payload_clean v

end

mutual

theorem payload_eq_iff : (v v' : Value) →
    (maskKisPayloadForLog lower digit v = maskKisPayloadForLog lower digit v' ↔
      SamePublic lower digit v v')
  | .obj fields, .obj fields' => by
    rw [maskKisPayloadForLog, maskKisPayloadForLog, SamePublic, Value.obj.injEq]
    exact fields_eq_iff fields fields'
  | .arr xs, .arr ys => by
    rw [maskKisPayloadForLog, maskKisPayloadForLog, SamePublic, Value.arr.injEq]
    exact items_eq_iff xs ys
  | .str s, .str t => by
    rw [maskKisPayloadForLog, maskKisPayloadForLog, SamePublic, Value.str.injEq]
    exact shown_eq_iff digit s t
  | .null, v' | .bool _, v' | .int _, v' | .float _, v' => by
    cases v' <;> simp [maskKisPayloadForLog, SamePublic]
  -- two values of different kinds are shown differently, and are not alike
  | .obj _, .null | .obj _, .bool _ | .obj _, .int _ | .obj _, .float _ | .obj _, .str _
  | .obj _, .arr _ | .arr _, .null | .arr _, .bool _ | .arr _, .int _ | .arr _, .float _
  | .arr _, .str _ | .arr _, .obj _ | .str _, .null | .str _, .bool _ | .str _, .int _
  | .str _, .float _ | .str _, .arr _ | .str _, .obj _ => by
    simp [maskKisPayloadForLog, SamePublic]

theorem items_eq_iff : (xs ys : List Value) →
    (maskItems lower digit xs = maskItems lower digit ys ↔ SameItems lower digit xs ys)
  | [], [] | [], _ :: _ | _ :: _, [] => by simp [maskItems, SameItems]
  | x :: xs, y :: ys => by
    rw [maskItems, maskItems, SameItems, List.cons.injEq, payload_eq_iff x y, items_eq_iff xs ys]

theorem fields_eq_iff : (fields fields' : List (String × Value)) →
    (maskFields lower digit fields = maskFields lower digit fields' ↔
      SameFields lower digit fields fields')
  | [], [] | [], _ :: _ | _ :: _, [] => by simp [maskFields, SameFields]
  | (k, v) :: fields, (k', v') :: fields' => by
    rw [maskFields, maskFields, SameFields, List.cons.injEq, Prod.mk.injEq, and_assoc,
      fields_eq_iff fields fields']
    refine and_congr_right fun hkey => and_congr_left fun _ => ?_
    subst hkey
    by_cases h : sensitiveKey lower k = true
    · simp [h]
    · simp only [h, Bool.false_eq_true, if_false, false_or]
      exact payload_eq_iff v v'

end

end Masking

/-- A masked payload holds nothing secret, and two payloads are shown alike exactly when they
differ in secrets only. -/
structure LogSafe (lower : String → String) (digit : Char → Bool) (v : Value) : Prop where
  clean : Clean lower digit (maskKisPayloadForLog lower digit v)
  reveals : ∀ v', maskKisPayloadForLog lower digit v = maskKisPayloadForLog lower digit v' ↔
    SamePublic lower digit v v'

end StockQuant.KisMask

namespace StockQuant.JsonLines

open StockQuant Machine PyValue JsonText JsonQuotes

/-- Where `str.splitlines` ends a line. -/
def isLineBreak (c : Char) : Bool :=
  ['\n', '\r', '\x0b', '\x0c', '\x1c', '\x1d', '\x1e', '\x85', '\u2028', '\u2029'].contains c

/-- `str.isspace`. -/
def isSpace (c : Char) : Bool :=
  [9, 10, 11, 12, 13, 28, 29, 30, 31, 32, 0x85, 0xa0, 0x1680, 0x2028, 0x2029, 0x202f, 0x205f,
    0x3000].contains c.toNat || (decide (0x2000 ≤ c.toNat) && decide (c.toNat ≤ 0x200a))

def splitlines : List Char → List (List Char)
  | [] => []
  | '\r' :: '\n' :: cs => [] :: splitlines cs
  | c :: cs =>
    if isLineBreak c then [] :: splitlines cs
    else match splitlines cs with
      | [] => [[c]]
      | line :: lines => (c :: line) :: lines

def strip (cs : List Char) : List Char := (cs.dropWhile isSpace).rdropWhile isSpace

section Files

variable (fl : FloatText)

/-- `append_jsonl` and its likes. -/
def appendJsonl (text : List Char) (row : Value) : List Char := text ++ (dumps fl row ++ ['\n'])

def loadLine (line : List Char) : Option Value :=
  let line := strip line
  if line = [] then none else loads fl line

/-- `read_jsonl_all`, with the text of the file. -/
def readJsonlAll (text : List Char) : List Value := (splitlines text).filterMap (loadLine fl)

/-- `read_jsonl_tail` of `sync_engine`. -/
def readJsonlTail (text : List Char) (maxLines : Nat) : List Value :=
  let lines := splitlines (strip text)
  (lines.drop (lines.length - maxLines)).filterMap (loads fl)

end Files

/-- Every line of the file is ended. -/
def WholeLines (text : List Char) : Prop := text = [] ∨ ∃ cs, text = cs ++ ['\n']

/-- Line breaks that are written as they are. -/
def isSeparator (c : Char) : Bool := ['\x85', '\u2028', '\u2029'].contains c

/-- None of the row's strings has a character that ends a line. -/
def OneLine (row : Value) : Prop := ∀ s ∈ texts row, s.toList.any isSeparator = false

instance (row : Value) : Decidable (OneLine row) := inferInstanceAs (Decidable (∀ s ∈ texts row, _))

section Lines

variable {fl : FloatText} {cs ds line : List Char} {row v : Value}

theorem splitlines_line (hline : cs.any isLineBreak = false) {b : Char} (hb : isLineBreak b = true)
    (hr : b ≠ '\r') (ds : List Char) : splitlines (cs ++ b :: ds) = cs :: splitlines ds := by
  induction cs with
  | nil =>
    rw [List.nil_append, splitlines]
    · rw [if_pos hb]
    · rintro more rfl
      exact fun _ => hr rfl
  | cons c cs ih =>
    rw [List.any_cons, Bool.or_eq_false_iff] at hline
    rw [List.cons_append, splitlines]
    · rw [if_neg (Bool.eq_false_iff.mp hline.1), ih hline.2]
    · rintro more rfl
      cases hline.1

theorem splitlines_ne_nil (c : Char) (cs : List Char) : splitlines (c :: cs) ≠ [] := by
  rw [splitlines.eq_def]
  split
  · next h => cases h
  · exact List.cons_ne_nil _ _
  · split
    · exact List.cons_ne_nil _ _
    · split <;> exact List.cons_ne_nil _ _

/-- A line feed before the end of a pair of characters belongs to the first of them. -/
theorem not_crlf {c : Char} (h : ∀ more, c = '\r' → cs = '\n' :: more → False)
    (hlast : c = '\r' → cs ≠ []) (ds : List Char) :
    ∀ more, c = '\r' → cs ++ '\n' :: ds = '\n' :: more → False := by
  intro more hc heq
  cases cs with
  | nil => exact hlast hc rfl
  | cons d cs =>
    obtain ⟨rfl, -⟩ := List.cons.inj heq
    exact h cs hc rfl

theorem splitlines_char {c : Char} (hb : ¬isLineBreak c = true) (cs : List Char) :
    splitlines (c :: cs) = match splitlines cs with
      | [] => [[c]]
      | line :: lines => (c :: line) :: lines := by
  rw [splitlines]
  · rw [if_neg hb]
  · rintro more rfl
    exact absurd rfl hb

theorem newline_char {c : Char} (hb : ¬isLineBreak c = true)
    (h : splitlines (cs ++ '\n' :: ds) = splitlines (cs ++ ['\n']) ++ splitlines ds) :
    splitlines (c :: cs ++ '\n' :: ds) = splitlines (c :: cs ++ ['\n']) ++ splitlines ds := by
  have hne : splitlines (cs ++ ['\n']) ≠ [] := by
    cases cs <;> exact splitlines_ne_nil _ _
  obtain ⟨line, lines, hline⟩ := List.exists_cons_of_ne_nil hne
  rw [List.cons_append, List.cons_append, splitlines_char hb, splitlines_char hb, h, hline]
  rfl

/-- What follows a line feed is split by itself. -/
theorem splitlines_newline (cs ds : List Char) :
    splitlines (cs ++ '\n' :: ds) = splitlines (cs ++ ['\n']) ++ splitlines ds := by
  fun_induction splitlines cs with
  | case1 => rfl
  | case2 cs ih =>
    change [] :: splitlines (cs ++ '\n' :: ds) = [] :: splitlines (cs ++ ['\n']) ++ splitlines ds
    rw [ih]
    rfl
  | case3 c cs h hb ih =>
    by_cases hlast : c = '\r' → cs ≠ []
    · rw [List.cons_append, List.cons_append, splitlines, splitlines, if_pos hb, if_pos hb, ih,
        List.cons_append]
      · exact not_crlf h hlast []
      · exact not_crlf h hlast ds
    · obtain ⟨rfl, hnil⟩ := Classical.not_imp.mp hlast
      obtain rfl := not_not.mp hnil
      rfl
  | case4 c cs h hb hnil ih => exact newline_char hb ih
  | case5 c cs h hb line lines heq ih => exact newline_char hb ih

theorem first_break (h : cs.any isLineBreak = true) : ∃ before b after,
    cs = before ++ b :: after ∧ before.any isLineBreak = false ∧ isLineBreak b = true := by
  induction cs with
  | nil => cases h
  | cons c cs ih =>
    by_cases hb : isLineBreak c = true
    · exact ⟨[], c, cs, rfl, rfl, hb⟩
    · have hc : isLineBreak c = false := Bool.eq_false_iff.mpr hb
      rw [List.any_cons, hc, Bool.false_or] at h
      obtain ⟨before, b, after, rfl, hbefore, hb'⟩ := ih h
      exact ⟨c :: before, b, after, rfl, by rw [List.any_cons, hc, hbefore]; rfl, hb'⟩

theorem isSpace_bland {c : Char} (h : isSpace c = true) : c ≠ '"' ∧ c ≠ '\\' := by
  refine ⟨?_, ?_⟩ <;> rintro rfl <;> exact absurd h (by decide)

theorem isLineBreak_bland {c : Char} (h : isLineBreak c = true) : c ≠ '"' ∧ c ≠ '\\' := by
  refine ⟨?_, ?_⟩ <;> rintro rfl <;> exact absurd h (by decide)

theorem strip_split (cs : List Char) :
    ∃ before after, cs = before ++ (strip cs ++ after) ∧ Bland before ∧ Bland after := by
  refine ⟨cs.takeWhile isSpace, (cs.dropWhile isSpace).rtakeWhile isSpace, ?_, ?_, ?_⟩
  · rw [strip, List.rdropWhile_append_rtakeWhile, List.takeWhile_append_dropWhile]
  · exact fun c hc => isSpace_bland (List.mem_takeWhile_imp hc)
  · exact fun c hc => isSpace_bland (List.mem_rtakeWhile_imp hc)

/-- A line that is read ends outside strings. -/
theorem loadLine_quotes (h : loadLine fl line = some v) :
    scan .outside line = .outside ∧ 2 * (texts v).length ≤ quotes .outside line := by
  have hloads : loads fl (strip line) = some v := by
    unfold loadLine at h
    dsimp only at h
    split at h
    · cases h
    · exact h
  obtain ⟨hscan, hquotes⟩ := loads_quotes hloads
  obtain ⟨before, after, heq, hbefore, hafter⟩ := strip_split line
  obtain ⟨hscanBefore, hquotesBefore⟩ := bland_outside hbefore
  obtain ⟨hscanAfter, hquotesAfter⟩ := bland_outside hafter
  refine ⟨?_, ?_⟩
  · rw [heq, scan_append, scan_append, hscanBefore, hscan, hscanAfter]
  · rw [heq, quotes_append, quotes_append, hscanBefore, hscan]
    omega

def weight (vs : List Value) : Nat := (vs.map fun v => 2 * (texts v).length).sum

theorem weight_append (vs ws : List Value) : weight (vs ++ ws) = weight vs + weight ws := by
  rw [weight, List.map_append, List.sum_append]
  rfl

/-- Read from outside or from inside a string, a line has no more strings than its quotes make. -/
theorem line_weight {p : Pos} (hp : p = .outside ∨ p = .inside) (h : scan p line ≠ .dead) :
    weight ((loadLine fl line).toList) ≤ quotes p line := by
  cases hload : loadLine fl line with
  | none => exact Nat.zero_le _
  | some v =>
    obtain ⟨hscan, hquotes⟩ := loadLine_quotes hload
    have hsame : quotes .outside line = quotes p line := by
      obtain rfl | rfl := hp
      · rfl
      · exact swapped_quotes (.inl ⟨rfl, rfl⟩) h (by rw [hscan]; exact Pos.noConfusion)
    rw [← hsame]
    simpa [weight] using hquotes

theorem lines_cons (line : List Char) (lines : List (List Char)) :
    (line :: lines).filterMap (loadLine fl) = (loadLine fl line).toList ++ lines.filterMap (loadLine fl) := by
  rw [List.filterMap_cons]
  cases loadLine fl line <;> rfl

/-- The pieces of what follows a break in a string. -/
theorem inside_weight (cs : List Char) (hr : cs.any (· == '\r') = false)
    (hinside : InsideOnly isLineBreak .inside cs) (hscan : scan .inside cs ≠ .dead) :
    weight ((splitlines (cs ++ ['\n'])).filterMap (loadLine fl)) ≤ quotes .inside cs := by
  cases hbreak : cs.any isLineBreak with
  | false =>
    rw [splitlines_line hbreak rfl (by decide), splitlines, lines_cons, List.filterMap_nil,
      List.append_nil]
    exact line_weight (.inr rfl) hscan
  | true =>
    obtain ⟨before, b, after, rfl, hbefore, hb⟩ := first_break hbreak
    obtain ⟨hstate, hrest⟩ := insideOnly_split hinside
    have hbefore' : scan .inside before = .inside := hstate hb
    obtain ⟨hquote, hback⟩ := isLineBreak_bland hb
    have hnext : Pos.inside.next b = .inside := by simp [Pos.next, hquote, hback]
    rw [List.any_append, List.any_cons, Bool.or_eq_false_iff, Bool.or_eq_false_iff] at hr
    have hbr : b ≠ '\r' := by
      rintro rfl
      exact absurd hr.2.1 (by decide)
    rw [hbefore', hnext] at hrest
    have hafter : scan .inside after ≠ .dead := by
      rwa [scan_append, hbefore', scan, List.foldl_cons, hnext] at hscan
    have hfirst : weight ((loadLine fl before).toList) ≤ quotes .inside before :=
      line_weight (.inr rfl) (by rw [hbefore']; exact Pos.noConfusion)
    have ih := inside_weight after hr.2.2 hrest hafter
    rw [List.append_assoc, List.cons_append, splitlines_line hbefore hb hbr, lines_cons, weight_append,
      quotes_append, hbefore', quotes, hnext, if_neg fun h => hquote h.1]
    omega
termination_by cs.length
decreasing_by
  subst_vars
  simp only [List.length_append, List.length_cons]
  omega

/-- What is read from the line that a row was written as. -/
def readBack (fl : FloatText) (row : Value) : List Value :=
  (splitlines (dumps fl row ++ ['\n'])).filterMap (loadLine fl)

theorem lineBreak_not_plain : ∀ c, isLineBreak c = true → ¬Plain c := by
  intro c hc
  simp only [isLineBreak, List.contains_iff_mem, List.mem_cons, List.not_mem_nil, or_false] at hc
  obtain rfl | rfl | rfl | rfl | rfl | rfl | rfl | rfl | rfl | rfl := hc <;> decide

theorem kept_lineBreak (c : Char) : kept isLineBreak c = isSeparator c := by
  rw [Bool.eq_iff_iff]
  simp only [kept, isLineBreak, isSeparator, Bool.and_eq_true, List.contains_iff_mem, List.mem_cons,
    List.not_mem_nil, or_false, decide_eq_true_eq]
  constructor
  · rintro ⟨rfl | rfl | rfl | rfl | rfl | rfl | rfl | h, hle⟩
    case inr.inr.inr.inr.inr.inr.inr => exact h
    all_goals exact absurd hle (by decide)
  · intro h
    refine ⟨by simp only [h, or_true], ?_⟩
    obtain rfl | rfl | rfl := h <;> decide

/-- A row is written in one line exactly when none of its strings ends a line. -/
theorem oneLine_iff (h : Legible fl row) : OneLine row ↔ (dumps fl row).any isLineBreak = false := by
  rw [any_dumps lineBreak_not_plain row h, OneLine, List.any_eq_false]
  simp only [funext kept_lineBreak, Bool.not_eq_true]

theorem no_return (h : Legible fl row) : (dumps fl row).any (· == '\r') = false := by
  have hplain : ∀ c, (c == '\r') = true → ¬Plain c := by
    intro c hc
    obtain rfl := beq_iff_eq.mp hc
    decide
  have hkept : ∀ c, kept (· == '\r') c = false := by
    intro c
    by_cases hc : c = '\r'
    · subst hc
      decide
    · simp [kept, hc]
  rw [any_dumps hplain row h, List.any_eq_false]
  intro s _
  rw [funext hkept, Bool.not_eq_true, List.any_eq_false]
  exact fun _ _ => Bool.false_ne_true

theorem visible_not_space {c : Char} (h : Visible c) : isSpace c = false := by
  obtain ⟨hlow, hhigh⟩ := h
  cases hspace : isSpace c with
  | false => rfl
  | true =>
    simp only [isSpace, Bool.or_eq_true, List.contains_iff_mem, List.mem_cons, List.not_mem_nil, or_false,
      Bool.and_eq_true, decide_eq_true_eq] at hspace
    omega

theorem strip_dumps (h : Legible fl row) : strip (dumps fl row) = dumps fl row := by
  obtain ⟨c, cs, heq, hc⟩ := dumps_head h
  obtain ⟨ds, d, heq', hd⟩ := dumps_last h
  have hfirst : (dumps fl row).dropWhile isSpace = dumps fl row := by
    rw [heq, List.dropWhile_cons_of_neg (by simp [visible_not_space hc.1])]
  rw [strip, hfirst, heq', List.rdropWhile_concat_neg _ _ _ (by simp [visible_not_space hd])]

theorem loadLine_dumps (h : Legible fl row) : loadLine fl (dumps fl row) = some row := by
  obtain ⟨c, cs, heq, -⟩ := dumps_head h
  rw [loadLine, strip_dumps h, if_neg (by rw [heq]; exact List.cons_ne_nil c cs), loads_dumps h]

theorem readBack_oneLine (h : Legible fl row) (hone : OneLine row) : readBack fl row = [row] := by
  rw [readBack, splitlines_line ((oneLine_iff h).mp hone) rfl (by decide), splitlines, lines_cons,
    loadLine_dumps h]
  rfl

/-- A row whose text is broken comes back with fewer strings. -/
theorem readBack_broken (h : Legible fl row) (hbroken : ¬OneLine row) :
    weight (readBack fl row) < 2 * (texts row).length := by
  have hbreak : (dumps fl row).any isLineBreak = true := by
    cases hany : (dumps fl row).any isLineBreak with
    | false => exact absurd ((oneLine_iff h).mpr hany) hbroken
    | true => rfl
  have hneat := neat_dumps lineBreak_not_plain row h
  have hr := no_return h
  rw [readBack, ← hneat.counts]
  obtain ⟨hscan, -, hinside⟩ := hneat
  obtain ⟨before, b, after, heq, hbefore, hb⟩ := first_break hbreak
  rw [heq] at hscan hinside hr ⊢
  obtain ⟨hstate, hrest⟩ := insideOnly_split hinside
  have hbefore' : scan .outside before = .inside := hstate hb
  obtain ⟨hquote, hback⟩ := isLineBreak_bland hb
  have hnext : Pos.inside.next b = .inside := by simp [Pos.next, hquote, hback]
  rw [List.any_append, List.any_cons, Bool.or_eq_false_iff, Bool.or_eq_false_iff] at hr
  have hbr : b ≠ '\r' := by
    rintro rfl
    exact absurd hr.2.1 (by decide)
  rw [hbefore', hnext] at hrest
  have hafter : scan .inside after ≠ .dead := by
    rw [scan_append, hbefore', scan, List.foldl_cons, hnext] at hscan
    rw [scan, hscan]
    exact Pos.noConfusion
  -- the first piece ends in a string, so that it is not read
  have hlost : loadLine fl before = none := by
    cases hload : loadLine fl before with
    | none => rfl
    | some v =>
      have hclosed := (loadLine_quotes hload).1
      rw [hbefore'] at hclosed
      cases hclosed
  have hopen : 0 < quotes .outside before := quotes_pos hbefore'
  have hpieces : weight ((splitlines (after ++ ['\n'])).filterMap (loadLine fl)) ≤ quotes .inside after :=
    inside_weight after hr.2.2 hrest hafter
  rw [List.append_assoc, List.cons_append, splitlines_line hbefore hb hbr, lines_cons, hlost,
    quotes_append, hbefore', quotes, hnext, if_neg fun h => hquote h.1, Option.toList_none,
    List.nil_append]
  omega

theorem WholeLines.append (text : List Char) (row : Value) : WholeLines (appendJsonl fl text row) :=
  .inr ⟨text ++ dumps fl row, by rw [appendJsonl, List.append_assoc]⟩

theorem readJsonlAll_append {text : List Char} (htext : WholeLines text)
    (more : List Char) : readJsonlAll fl (text ++ more) = readJsonlAll fl text ++ readJsonlAll fl more := by
  obtain rfl | ⟨cs, rfl⟩ := htext
  · rfl
  · rw [readJsonlAll, readJsonlAll, readJsonlAll, List.append_assoc, List.singleton_append,
      splitlines_newline, List.filterMap_append]

/-- The rows that are appended are read as what comes back from each of them. -/
theorem readJsonlAll_run (rows : List Value) {text : List Char} (htext : WholeLines text) :
    readJsonlAll fl (run (appendJsonl fl) text rows) =
      readJsonlAll fl text ++ rows.flatMap (readBack fl) := by
  induction rows generalizing text with
  | nil => exact (List.append_nil _).symm
  | cons row rows ih =>
    rw [run, List.foldl_cons]
    refine (ih (.append text row)).trans ?_
    rw [appendJsonl, readJsonlAll_append htext, List.flatMap_cons, List.append_assoc]
    rfl

theorem flatMap_readBack {rows : List Value} (hrows : ∀ row ∈ rows, Legible fl row ∧ OneLine row) :
    rows.flatMap (readBack fl) = rows := by
  have hback : ∀ row ∈ rows, readBack fl row = [row] := fun row hrow =>
    readBack_oneLine (hrows row hrow).1 (hrows row hrow).2
  rw [List.flatMap_congr hback]
  exact List.flatMap_singleton' rows

theorem readJsonlAll_written {rows : List Value} (hrows : ∀ row ∈ rows, Legible fl row ∧ OneLine row)
    {text : List Char} (htext : WholeLines text) :
    readJsonlAll fl (run (appendJsonl fl) text rows) = readJsonlAll fl text ++ rows := by
  rw [readJsonlAll_run rows htext, flatMap_readBack hrows]

/-- Rows that come back unchanged have all been written in one line. -/
theorem oneLine_of_readBack {rows : List Value} (hlegible : ∀ row ∈ rows, Legible fl row) :
    weight (rows.flatMap (readBack fl)) ≤ weight rows ∧
      (weight rows ≤ weight (rows.flatMap (readBack fl)) → ∀ row ∈ rows, OneLine row) := by
  induction rows with
  | nil => exact ⟨Nat.le_refl _, fun _ _ hrow => absurd hrow List.not_mem_nil⟩
  | cons row rows ih =>
    obtain ⟨hle, hall⟩ := ih fun r hr => hlegible r (List.mem_cons_of_mem row hr)
    have hrow : Legible fl row := hlegible row List.mem_cons_self
    have hcons : weight (row :: rows) = 2 * (texts row).length + weight rows := rfl
    rw [List.flatMap_cons, weight_append, hcons]
    by_cases hone : OneLine row
    · have hsame : weight (readBack fl row) = 2 * (texts row).length := by
        rw [readBack_oneLine hrow hone]
        rfl
      refine ⟨by omega, fun h r hr => ?_⟩
      obtain rfl | hr := List.mem_cons.mp hr
      · exact hone
      · exact hall (by omega) r hr
    · have hless := readBack_broken hrow hone
      exact ⟨by omega, fun h => absurd h (by omega)⟩

theorem splitlines_single (hline : cs.any isLineBreak = false) (hne : cs ≠ []) : splitlines cs = [cs] := by
  induction cs with
  | nil => exact absurd rfl hne
  | cons c cs ih =>
    rw [List.any_cons, Bool.or_eq_false_iff] at hline
    rw [splitlines_char (Bool.eq_false_iff.mp hline.1)]
    cases cs with
    | nil => rfl
    | cons d ds => rw [ih hline.2 (List.cons_ne_nil d ds)]

theorem WholeLines.dropWhile {text : List Char} (htext : WholeLines text) :
    WholeLines (text.dropWhile isSpace) := by
  obtain rfl | ⟨cs, rfl⟩ := htext
  · exact .inl rfl
  · rw [List.dropWhile_append]
    split
    · exact .inl rfl
    · exact .inr ⟨_, rfl⟩

theorem splitlines_append {text : List Char} (htext : WholeLines text) (more : List Char) :
    splitlines (text ++ more) = splitlines text ++ splitlines more := by
  obtain rfl | ⟨cs, rfl⟩ := htext
  · rfl
  · rw [List.append_assoc, List.singleton_append, splitlines_newline]

/-- A row stops what is stripped before it. -/
theorem dropWhile_row (h : Legible fl row) (text more : List Char) :
    (text ++ (dumps fl row ++ more)).dropWhile isSpace =
      text.dropWhile isSpace ++ (dumps fl row ++ more) := by
  obtain ⟨c, cs, heq, hc⟩ := dumps_head h
  rw [List.dropWhile_append]
  split
  · next hnil =>
    rw [List.isEmpty_iff.mp hnil, List.nil_append, heq, List.cons_append,
      List.dropWhile_cons_of_neg (by simp [visible_not_space hc.1])]
  · rfl

theorem lines_run {rows : List Value} (hrows : ∀ row ∈ rows, Legible fl row ∧ OneLine row)
    {text : List Char} (htext : WholeLines text) :
    splitlines ((run (appendJsonl fl) text rows).dropWhile isSpace) =
      splitlines (text.dropWhile isSpace) ++ rows.map (dumps fl) := by
  induction rows generalizing text with
  | nil => exact (List.append_nil _).symm
  | cons row rows ih =>
    obtain ⟨hlegible, hone⟩ := hrows row List.mem_cons_self
    have hline : splitlines (dumps fl row ++ ['\n']) = [dumps fl row] :=
      splitlines_line ((oneLine_iff hlegible).mp hone) rfl (by decide) []
    rw [run, List.foldl_cons]
    refine (ih (fun r hr => hrows r (List.mem_cons_of_mem row hr)) (.append text row)).trans ?_
    rw [appendJsonl, dropWhile_row hlegible, splitlines_append htext.dropWhile, hline, List.map_cons,
      List.append_assoc, List.singleton_append]

/-- The lines of a file that rows were appended to, as it is read from its end. -/
theorem stripped_run {rows : List Value} (hrows : ∀ row ∈ rows, Legible fl row ∧ OneLine row)
    (hne : rows ≠ []) {text : List Char} (htext : WholeLines text) :
    splitlines (strip (run (appendJsonl fl) text rows)) =
      splitlines (text.dropWhile isSpace) ++ rows.map (dumps fl) := by
  obtain ⟨before, row, rfl⟩ := rows.eq_nil_or_concat'.resolve_left hne
  have hbefore : ∀ r ∈ before, Legible fl r ∧ OneLine r := fun r hr =>
    hrows r (List.mem_append_left [row] hr)
  obtain ⟨hlegible, hone⟩ := hrows row (List.mem_append_right before (List.mem_singleton_self row))
  have hwhole : WholeLines (run (appendJsonl fl) text before) := by
    cases before using List.reverseRecOn with
    | nil => exact htext
    | append_singleton rs r =>
      rw [run_append]
      exact .append _ r
  obtain ⟨cs, c, hlast, hc⟩ := dumps_last hlegible
  obtain ⟨d, ds, hfirst, -⟩ := dumps_head hlegible
  have hstrip : strip (run (appendJsonl fl) text (before ++ [row])) =
      (run (appendJsonl fl) text before).dropWhile isSpace ++ dumps fl row := by
    rw [run_append]
    change strip (_ ++ (dumps fl row ++ ['\n'])) = _
    rw [strip, dropWhile_row hlegible, ← List.append_assoc, List.rdropWhile_concat_pos _ _ _ (by decide),
      hlast, ← List.append_assoc, List.rdropWhile_concat_neg _ _ _ (by simp [visible_not_space hc])]
  rw [hstrip, splitlines_append hwhole.dropWhile, lines_run hbefore htext,
    splitlines_single ((oneLine_iff hlegible).mp hone) (by rw [hfirst]; exact List.cons_ne_nil d ds),
    List.map_append, List.map_singleton, List.append_assoc]

/-- The tail of what was appended. -/
theorem readJsonlTail_run {rows : List Value} (hrows : ∀ row ∈ rows, Legible fl row ∧ OneLine row)
    {text : List Char} (htext : WholeLines text) {maxLines : Nat} (hmax : maxLines ≤ rows.length) :
    readJsonlTail fl (run (appendJsonl fl) text rows) maxLines = rows.drop (rows.length - maxLines) := by
  have hloads : ∀ row ∈ rows.drop (rows.length - maxLines),
      (loads fl ∘ dumps fl) row = some row :=
    fun row hrow => loads_dumps (hrows row (List.mem_of_mem_drop hrow)).1
  by_cases hne : rows = []
  · subst hne
    obtain rfl := Nat.le_zero.mp hmax
    simp [readJsonlTail]
  · rw [readJsonlTail, stripped_run hrows hne htext, List.length_append, List.length_map,
      Nat.add_sub_assoc hmax, List.drop_length_add_append, ← List.map_drop, List.filterMap_map,
      List.filterMap_congr hloads, List.filterMap_some]

end Lines

/-- What is appended to a file of whole lines is read back exactly when no string in it has a
character that ends a line. -/
theorem readJsonlAll_iff (fl : FloatText) (text : List Char) (rows : List Value)
    (htext : WholeLines text) (hlegible : ∀ row ∈ rows, Legible fl row) :
    readJsonlAll fl (run (appendJsonl fl) text rows) = readJsonlAll fl text ++ rows ↔
      ∀ row ∈ rows, OneLine row := by
  rw [readJsonlAll_run rows htext, List.append_cancel_left_eq]
  constructor
  · intro h
    exact (oneLine_of_readBack hlegible).2 (by rw [h])
  · intro h
    rw [flatMap_readBack fun row hrow => ⟨hlegible row hrow, h row hrow⟩]

theorem readJsonlAll_iff_separator :
    let fl : FloatText := ⟨fun _ => [], fun _ => none⟩
    let rows : List Value := [.obj [("symbol", .str "005930"), ("name", .str "A\u2028B")]]
    readJsonlAll fl (run (appendJsonl fl) [] rows) ≠ readJsonlAll fl [] ++ rows := by
  intro fl rows h
  have hlegible : ∀ row ∈ rows, Legible fl row := by
    intro row hrow
    obtain rfl := List.mem_singleton.mp hrow
    exact ⟨by decide, trivial, trivial, trivial⟩
  have hone := (readJsonlAll_iff fl [] rows (.inl rfl) hlegible).mp h
  exact absurd hone (by decide)

end StockQuant.JsonLines

namespace StockQuant.PnlHistory

open StockQuant Machine PyValue JsonText JsonLines LiveUnlockGate

/-- A call of `append_pnl_history_from_paper_report`: its arguments, the time that it reads, and
whether the file could be read and could be opened. -/
structure TickCall where
  report : Dict
  strategyId : String
  paperMarket : String
  utcNowIso : String
  reads : Bool
  opens : Bool

def minIntervalSec : Int := 45

section Calls

variable (py : Readers)

def TickCall.ts (c : TickCall) : String :=
  if (c.report.get "ts_utc").truthy then (c.report.get "ts_utc").textOrEmpty py
  else if (c.report.get "updated_at_utc").truthy then (c.report.get "updated_at_utc").textOrEmpty py
  else c.utcNowIso

/-- The first of the three that is there. -/
def TickCall.daily (c : TickCall) : Value :=
  match c.report.get "daily_pnl_pct_snapshot", c.report.get "daily_return_pct" with
  | .null, .null => c.report.get "daily_pnl_pct"
  | .null, daily => daily
  | daily, _ => daily

def TickCall.dailyPct (c : TickCall) : Except PyError PyFloat :=
  match c.daily with
  | .null => .ok (.fin 0)
  | daily =>
    match daily.toFloat py with
    | .error .typeError | .error .valueError => .ok (.fin 0)
    | x => x

def TickCall.row (c : TickCall) : Except PyError Dict := do
  let equity ← (c.report.get "equity").toFloatOrZero py
  let dailyPct ← c.dailyPct py
  return [("ts_utc", .str (c.ts py)), ("equity", .float equity), ("daily_pnl_pct", .float dailyPct),
    ("source", .str "paper_session_tick"), ("paper_market", .str c.paperMarket),
    ("strategy_id", .str c.strategyId)]

/-- The time stamp of a row, as it is compared. -/
def stamp (row : Dict) : Option DateTime := py.fromisoformat (replaceZ (tsUtc py row))

/-- Whether the row comes too soon after the last one. -/
def tooSoon (last row : Dict) : Except PyError Bool :=
  match stamp py last, stamp py row with
  | some (.naive a), some (.naive b) | some (.aware a), some (.aware b) =>
    .ok (decide (b - a < minIntervalSec * 1000000))
  | some _, some _ => .error .typeError
  | _, _ => .ok false

/-- The check against the last row, where there is one that is not empty. -/
def soonAfter (last : Option Dict) (row : Dict) : Except PyError Bool :=
  match last with
  | none | some [] => .ok false
  | some last => tooSoon py last row

/-- What is to be written, if anything, after the last row. -/
def TickCall.next (c : TickCall) (last : Option Dict) : Except PyError (Option Dict) := do
  let row ← c.row py
  let soon ← soonAfter py last row
  return if soon then none else some row

variable (fl : FloatText)

/-- `_read_last_row`. -/
def readLastRow (text : List Char) : Option Dict :=
  match (splitlines (strip text)).getLast? with
  | none => none
  | some line =>
    match loadLine fl line with
    | some (.obj row) => some row
    | _ => none

/-- What the file holds after a call, also one that raises. -/
def appendPnlHistoryFromPaperReport (text : List Char) (c : TickCall) : List Char :=
  match c.next py (if c.reads then readLastRow fl text else none) with
  | .ok (some row) => if c.opens then appendJsonl fl text (.obj row) else text
  | .ok none | .error _ => text

end Calls

/-- The row of a sync: its time and what it has summed up. -/
def syncRow (ts : String) (sums : Dict) : Dict := ("ts_utc", .str ts) :: sums

/-- The two writers of the file: a tick of the paper session, and a sync. -/
inductive Write
  | tick (c : TickCall)
  | sync (ts : String) (sums : Dict)

def write (py : Readers) (fl : FloatText) (text : List Char) : Write → List Char
  | .tick c => appendPnlHistoryFromPaperReport py fl text c
  | .sync ts sums => appendJsonl fl text (.obj (syncRow ts sums))

/-- A row of the file, and whether a tick wrote it that had read the row before it. -/
structure Entry where
  row : Dict
  paced : Bool

/-- The file as its rows. -/
def record (py : Readers) (entries : List Entry) : Write → List Entry
  | .tick c =>
    match c.next py (if c.reads then (entries.getLast?).map Entry.row else none) with
    | .ok (some row) => if c.opens then entries ++ [⟨row, c.reads⟩] else entries
    | .ok none | .error _ => entries
  | .sync ts sums => entries ++ [⟨syncRow ts sums, false⟩]

def Write.row (py : Readers) : Write → Except PyError Dict
  | .tick c => c.row py
  | .sync ts sums => .ok (syncRow ts sums)

/-- The second row is stamped the interval after the first, if both stamps are times. -/
def Spaced (py : Readers) (a b : Dict) : Prop :=
  match stamp py a, stamp py b with
  | some (.naive s), some (.naive t) | some (.aware s), some (.aware t) =>
    s + minIntervalSec * 1000000 ≤ t
  | some _, some _ => False
  | _, _ => True

section Runs

variable {py : Readers} {fl : FloatText} {entries : List Entry} {c : TickCall} {row : Dict}

/-- What a call writes, and when. -/
theorem next_cases {last : Option Dict} (h : c.next py last = .ok (some row)) :
    c.row py = .ok row ∧ soonAfter py last row = .ok false := by
  obtain ⟨written, hwritten, h⟩ := Fallible.bind_ok h
  obtain ⟨soon, hsoon, h⟩ := Fallible.bind_ok h
  cases soon with
  | true => cases h
  | false =>
    cases h
    exact ⟨hwritten, hsoon⟩

theorem spaced_of_tooSoon {a b : Dict} (h : tooSoon py a b = .ok false) : Spaced py a b := by
  unfold tooSoon at h
  unfold Spaced
  generalize stamp py a = s at h ⊢
  generalize stamp py b = t at h ⊢
  have hgap : ∀ m n : Int, decide (n - m < minIntervalSec * 1000000) = false →
      m + minIntervalSec * 1000000 ≤ n := fun m n hmn => by
    have := of_decide_eq_false hmn
    omega
  match s, t with
  | some (.naive m), some (.naive n) => exact hgap m n (Except.ok.inj h)
  | some (.aware m), some (.aware n) => exact hgap m n (Except.ok.inj h)
  | some (.naive _), some (.aware _) | some (.aware _), some (.naive _) => cases h
  | none, _ | some (.naive _), none | some (.aware _), none => trivial

theorem tick_row (h : c.row py = .ok row) : row ≠ [] := by
  obtain ⟨equity, -, h⟩ := Fallible.bind_ok h
  obtain ⟨dailyPct, -, h⟩ := Fallible.bind_ok h
  cases h
  exact List.cons_ne_nil _ _

/-- What a write adds to the file. -/
theorem record_cases (py : Readers) (entries : List Entry) (w : Write) :
    record py entries w = entries ∨ ∃ e, record py entries w = entries ++ [e] ∧
      w.row py = .ok e.row ∧ e.row ≠ [] ∧
      (e.paced = true → soonAfter py (entries.getLast?.map Entry.row) e.row = .ok false) := by
  cases w with
  | sync ts sums =>
    exact .inr ⟨⟨syncRow ts sums, false⟩, rfl, rfl, List.cons_ne_nil _ _, fun h => by cases h⟩
  | tick c =>
    rw [record]
    split
    · next row hnext =>
      split
      · obtain ⟨hrow, hsoon⟩ := next_cases hnext
        refine .inr ⟨⟨row, c.reads⟩, rfl, hrow, tick_row hrow, fun hreads => ?_⟩
        rwa [if_pos hreads] at hsoon
      · exact .inl rfl
    · exact .inl rfl
    · exact .inl rfl

/-- Rows that are read back, each that was paced after the one before it. -/
structure Kept (py : Readers) (fl : FloatText) (entries : List Entry) : Prop where
  written : ∀ e ∈ entries, Legible fl (.obj e.row) ∧ OneLine (.obj e.row)
  filled : ∀ e ∈ entries, e.row ≠ []
  paced : entries.IsChain fun a b => b.paced = true → Spaced py a.row b.row

theorem Kept.record {w : Write} (h : Kept py fl entries)
    (hrow : ∀ row, w.row py = .ok row → Legible fl (.obj row) ∧ OneLine (.obj row)) :
    Kept py fl (record py entries w) := by
  obtain hsame | ⟨e, hnew, he, hfilled, hsoon⟩ := record_cases py entries w
  · rwa [hsame]
  · rw [hnew]
    refine ⟨?_, ?_, ?_⟩
    · intro e' he'
      obtain he' | rfl := List.mem_append.mp he' |>.imp_right List.mem_singleton.mp
      · exact h.written e' he'
      · exact hrow _ he
    · intro e' he'
      obtain he' | rfl := List.mem_append.mp he' |>.imp_right List.mem_singleton.mp
      · exact h.filled e' he'
      · exact hfilled
    · refine List.isChain_append.mpr ⟨h.paced, List.isChain_singleton e, ?_⟩
      intro a ha b hb hpaced
      obtain rfl : e = b := by simpa using hb
      have hsoon := hsoon hpaced
      rw [Option.mem_def.mp ha, Option.map_some, soonAfter] at hsoon
      · exact spaced_of_tooSoon hsoon
      · exact h.filled a (List.mem_of_getLast? ha)

def textOf (fl : FloatText) (entries : List Entry) : List Char :=
  run (appendJsonl fl) [] (entries.map fun e => .obj e.row)

theorem textOf_snoc (e : Entry) :
    textOf fl (entries ++ [e]) = appendJsonl fl (textOf fl entries) (.obj e.row) := by
  rw [textOf, List.map_append, run_append]
  rfl

theorem Kept.values (h : Kept py fl entries) :
    ∀ v ∈ entries.map fun e => Value.obj e.row, Legible fl v ∧ OneLine v := by
  intro v hv
  obtain ⟨e, he, rfl⟩ := List.mem_map.mp hv
  exact h.written e he

theorem read_textOf (h : Kept py fl entries) :
    readJsonlAll fl (textOf fl entries) = entries.map fun e => .obj e.row := by
  rw [textOf, readJsonlAll_written h.values (.inl rfl)]
  rfl

theorem readLastRow_textOf (h : Kept py fl entries) :
    readLastRow fl (textOf fl entries) = entries.getLast?.map Entry.row := by
  cases entries using List.reverseRecOn with
  | nil => rfl
  | append_singleton before e =>
    have hlast := (h.written e (List.mem_append_right before (List.mem_singleton_self e))).1
    rw [readLastRow, textOf, stripped_run h.values (by simp) (.inl rfl), List.map_append, List.map_append,
      List.map_singleton, List.map_singleton, ← List.append_assoc, List.getLast?_concat,
      List.getLast?_concat]
    simp only [loadLine_dumps hlast, Option.map_some]

/-- The text and the rows change together. -/
theorem write_textOf (h : Kept py fl entries) (w : Write) :
    write py fl (textOf fl entries) w = textOf fl (PnlHistory.record py entries w) := by
  cases w with
  | sync ts sums => exact (textOf_snoc ⟨syncRow ts sums, false⟩).symm
  | tick c =>
    rw [write, appendPnlHistoryFromPaperReport, readLastRow_textOf h, PnlHistory.record]
    split
    · next row _ =>
      split
      · exact (textOf_snoc ⟨row, c.reads⟩).symm
      · rfl
    · rfl
    · rfl

theorem run_textOf {writes : List Write}
    (hrows : ∀ w ∈ writes, ∀ row, w.row py = .ok row → Legible fl (.obj row) ∧ OneLine (.obj row))
    (h : Kept py fl entries) :
    run (write py fl) (textOf fl entries) writes =
        textOf fl (run (PnlHistory.record py) entries writes) ∧
      Kept py fl (run (PnlHistory.record py) entries writes) := by
  induction writes generalizing entries with
  | nil => exact ⟨rfl, h⟩
  | cons w writes ih =>
    have hnext := h.record (hrows w List.mem_cons_self)
    rw [run, List.foldl_cons, write_textOf h]
    exact ih (fun w' hw' => hrows w' (List.mem_cons_of_mem w hw')) hnext

end Runs

/-- The start of a session, half a minute later and a minute later. -/
def sessionReaders : Readers where
  parseFloat _ := none
  parseInt s := if s = "0" then some 0 else none
  fromisoformat s :=
    if s = "2026-01-05T00:00:00+00:00" then some (.aware 1767571200000000)
    else if s = "2026-01-05T00:00:30+00:00" then some (.aware 1767571230000000)
    else if s = "2026-01-05T00:01:00+00:00" then some (.aware 1767571260000000)
    else none
  repr _ := ""
  parseInt_empty := rfl

def tickAt (ts : String) : Write :=
  .tick ⟨[("ts_utc", .str ts), ("equity", .float (.fin 1000000))], "swing_v1", "domestic", "", true, true⟩

end StockQuant.PnlHistory
