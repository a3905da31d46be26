import Mathlib.Data.Bool.AllAny
import StockQuant.JsonText

namespace StockQuant.JsonQuotes

open StockQuant PyValue JsonText

mutual

/-- The strings of a value, keys among them. -/
def texts : Value → List String
  | .str s => [s]
  | .arr xs => textsItems xs
  | .obj fields => textsFields fields
  | .null | .bool _ | .int _ | .float _ => []

def textsItems : List Value → List String
  | [] => []
  | x :: xs => texts x ++ textsItems xs

def textsFields : List (String × Value) → List String
  | [] => []
  | (key, x) :: fields => key :: texts x ++ textsFields fields

end

/-- Where a text stands: outside strings, in one, or after a backslash in one. A backslash outside
is in no text. -/
inductive Pos
  | outside
  | inside
  | escaped
  | dead
  deriving DecidableEq

def Pos.next : Pos → Char → Pos
  | .outside, c => if c = '"' then .inside else if c = '\\' then .dead else .outside
  | .inside, c => if c = '"' then .outside else if c = '\\' then .escaped else .inside
  | .escaped, _ => .inside
  | .dead, _ => .dead

def scan (p : Pos) (cs : List Char) : Pos := cs.foldl Pos.next p

/-- The quotes that open or close a string. -/
def quotes (p : Pos) : List Char → Nat
  | [] => 0
  | c :: cs => (if c = '"' ∧ (p = .outside ∨ p = .inside) then 1 else 0) + quotes (p.next c) cs

section Scan

variable {p q r : Pos} {cs ds rest : List Char} {c : Char} {m n : Nat}

theorem scan_append (p : Pos) (cs ds : List Char) : scan p (cs ++ ds) = scan (scan p cs) ds :=
  List.foldl_append

theorem quotes_append (p : Pos) (cs ds : List Char) :
    quotes p (cs ++ ds) = quotes p cs + quotes (scan p cs) ds := by
  induction cs generalizing p with
  | nil => simp [quotes, scan]
  | cons c cs ih =>
    rw [List.cons_append, quotes, quotes, ih, Nat.add_assoc]
    rfl

theorem scan_dead (cs : List Char) : scan .dead cs = .dead := by
  induction cs with
  | nil => rfl
  | cons c cs ih => exact ih

/-- Characters that neither quote nor escape. -/
def Bland (cs : List Char) : Prop := ∀ c ∈ cs, c ≠ '"' ∧ c ≠ '\\'

theorem bland_outside (h : Bland cs) : scan .outside cs = .outside ∧ quotes .outside cs = 0 := by
  induction cs with
  | nil => exact ⟨rfl, rfl⟩
  | cons c cs ih =>
    obtain ⟨hquote, hback⟩ := h c List.mem_cons_self
    obtain ⟨hscan, hquotes⟩ := ih fun d hd => h d (List.mem_cons_of_mem c hd)
    have hnext : Pos.outside.next c = .outside := by simp [Pos.next, hquote, hback]
    refine ⟨?_, ?_⟩
    · rw [scan, List.foldl_cons, hnext]
      exact hscan
    · rw [quotes, hnext, hquotes, if_neg fun h => hquote h.1]

/-- The two readings of one text that begin on different sides of a quote. -/
def Swapped (p q : Pos) : Prop :=
  (p = .inside ∧ q = .outside) ∨ (p = .outside ∧ q = .inside)

theorem swapped_next (h : Swapped p q) (c : Char) :
    Swapped (p.next c) (q.next c) ∨ p.next c = .dead ∨ q.next c = .dead := by
  obtain ⟨rfl, rfl⟩ | ⟨rfl, rfl⟩ := h
  · by_cases hquote : c = '"'
    · exact .inl (.inr (by simp [Pos.next, hquote]))
    · by_cases hback : c = '\\'
      · exact .inr (.inr (by simp [Pos.next, hback]))
      · exact .inl (.inl (by simp [Pos.next, hquote, hback]))
  · by_cases hquote : c = '"'
    · exact .inl (.inl (by simp [Pos.next, hquote]))
    · by_cases hback : c = '\\'
      · exact .inr (.inl (by simp [Pos.next, hback]))
      · exact .inl (.inr (by simp [Pos.next, hquote, hback]))

/-- Two readings that both make sense of a text see the same quotes. -/
theorem swapped_quotes (h : Swapped p q) (hp : scan p cs ≠ .dead) (hq : scan q cs ≠ .dead) :
    quotes q cs = quotes p cs := by
  induction cs generalizing p q with
  | nil => rfl
  | cons c cs ih =>
    have hsees : (p = .outside ∨ p = .inside) ∧ (q = .outside ∨ q = .inside) := by
      obtain ⟨rfl, rfl⟩ | ⟨rfl, rfl⟩ := h <;> simp
    obtain hnext | hdead | hdead := swapped_next h c
    · rw [quotes, quotes, ih hnext hp hq]
      simp only [hsees.1, hsees.2, and_true]
    · exact absurd (show scan (p.next c) cs = .dead by rw [hdead, scan_dead]) hp
    · exact absurd (show scan (q.next c) cs = .dead by rw [hdead, scan_dead]) hq

/-- A string is opened on the way in. -/
theorem quotes_pos (h : scan .outside cs = .inside) : 0 < quotes .outside cs := by
  by_contra hzero
  have hnone : ∀ cs, quotes .outside cs = 0 → scan .outside cs = .outside ∨ scan .outside cs = .dead := by
    intro cs hcs
    induction cs with
    | nil => exact .inl rfl
    | cons c cs ih =>
      by_cases hquote : c = '"'
      · simp [quotes, hquote] at hcs
      · by_cases hback : c = '\\'
        · right
          rw [scan, List.foldl_cons, hback]
          exact scan_dead cs
        · have hnext : Pos.outside.next c = .outside := by simp [Pos.next, hquote, hback]
          rw [quotes, hnext, if_neg fun h => hquote h.1, Nat.zero_add] at hcs
          rw [scan, List.foldl_cons, hnext]
          exact ih hcs
  obtain heq | heq := hnone cs (Nat.eq_zero_of_not_pos hzero) <;> rw [h] at heq <;> cases heq

/-- What is read from `cs` leaves `rest`, begins and ends outside strings, and has at least `n`
quotes. -/
def Takes (cs rest : List Char) (n : Nat) : Prop :=
  ∃ used, cs = used ++ rest ∧ scan .outside used = .outside ∧ n ≤ quotes .outside used

theorem Takes.trans (h : Takes cs ds m) (h' : Takes ds rest n) : Takes cs rest (m + n) := by
  obtain ⟨used, rfl, hscan, hm⟩ := h
  obtain ⟨more, rfl, hscan', hn⟩ := h'
  refine ⟨used ++ more, (List.append_assoc used more rest).symm, ?_, ?_⟩
  · rw [scan_append, hscan, hscan']
  · rw [quotes_append, hscan]
    exact Nat.add_le_add hm hn

theorem Takes.mono (h : Takes cs rest n) (hm : m ≤ n) : Takes cs rest m :=
  h.imp fun _ hused => ⟨hused.1, hused.2.1, Nat.le_trans hm hused.2.2⟩

theorem takes_bland (h : Bland cs) (rest : List Char) : Takes (cs ++ rest) rest 0 :=
  ⟨cs, rfl, (bland_outside h).1, Nat.zero_le _⟩

theorem takes_char (hc : c ≠ '"' ∧ c ≠ '\\') (rest : List Char) : Takes (c :: rest) rest 0 := by
  have hbland : Bland [c] := fun _ hd => List.mem_singleton.mp hd ▸ hc
  exact takes_bland hbland rest

theorem takes_skip (cs : List Char) : Takes cs (skip cs) 0 := by
  have hbland : Bland (cs.takeWhile isWhitespace) := by
    intro c hc
    have hspace : isWhitespace c = true := List.mem_takeWhile_imp hc
    refine ⟨?_, ?_⟩ <;> rintro rfl <;> cases hspace
  have h := takes_bland hbland (skip cs)
  rwa [skip, List.takeWhile_append_dropWhile] at h

theorem hexValue_bland {k : Nat} (h : hexValue c = some k) : c ≠ '"' ∧ c ≠ '\\' := by
  refine ⟨?_, ?_⟩ <;> rintro rfl <;> cases h

theorem hex4_bland {a b c d : Char} {k : Nat} (h : hex4 a b c d = some k) : Bland [a, b, c, d] := by
  simp only [hex4, Option.bind_eq_bind, Option.bind_eq_some_iff] at h
  obtain ⟨na, ha, nb, hb, nc, hc, nd, hd, -⟩ := h
  intro x hx
  simp only [List.mem_cons, List.not_mem_nil, or_false] at hx
  obtain rfl | rfl | rfl | rfl := hx
  · exact hexValue_bland ha
  · exact hexValue_bland hb
  · exact hexValue_bland hc
  · exact hexValue_bland hd

/-- What is read from inside a string up to its end. -/
def Closes (cs rest : List Char) : Prop :=
  ∃ used, cs = used ++ rest ∧ scan .inside used = .outside ∧ 1 ≤ quotes .inside used

theorem Closes.cons_inside (h : Closes ds rest) (hcs : scan .inside cs = .inside) :
    Closes (cs ++ ds) rest := by
  obtain ⟨used, rfl, hscan, hquotes⟩ := h
  refine ⟨cs ++ used, (List.append_assoc cs used rest).symm, ?_, ?_⟩
  · rw [scan_append, hcs, hscan]
  · rw [quotes_append, hcs]
    omega

theorem scan_bland_inside (h : Bland cs) : scan .inside cs = .inside := by
  induction cs with
  | nil => rfl
  | cons c cs ih =>
    obtain ⟨hquote, hback⟩ := h c List.mem_cons_self
    have hnext : Pos.inside.next c = .inside := by simp [Pos.next, hquote, hback]
    rw [scan, List.foldl_cons, hnext]
    exact ih fun d hd => h d (List.mem_cons_of_mem c hd)

theorem scan_hex {a b c d : Char} (h : Bland [a, b, c, d]) :
    scan .inside ['\\', 'u', a, b, c, d] = .inside := by
  have hdigits := scan_bland_inside h
  exact hdigits

theorem read_rest {o : Option (List Char × List Char)} {s : List Char}
    (h : o.map (Prod.map (c :: ·) id) = some (s, rest)) : ∃ s', o = some (s', rest) := by
  obtain ⟨⟨s', rest'⟩, ho, heq⟩ := Option.map_eq_some_iff.mp h
  obtain ⟨-, rfl⟩ := Prod.mk.inj heq
  exact ⟨s', ho⟩

theorem closes_string {s : List Char} (h : parseString cs = some (s, rest)) : Closes cs rest := by
  fun_induction parseString cs generalizing s with
  | case1 cs =>
    obtain ⟨-, rfl⟩ := Prod.mk.inj (Option.some.inj h)
    exact ⟨['"'], rfl, rfl, by decide⟩
  | case4 a b c d n hhex _ a' b' c' d' cs' m hhex' _ ih =>
    -- a surrogate pair
    obtain ⟨s', hs⟩ := read_rest h
    have hsecond := (ih hs).cons_inside (scan_hex (hex4_bland hhex'))
    exact hsecond.cons_inside (scan_hex (hex4_bland hhex))
  | case8 a b c d cs n hhex _ _ ih =>
    obtain ⟨s', hs⟩ := read_rest h
    exact (ih hs).cons_inside (scan_hex (hex4_bland hhex))
  | case10 e cs _ c _ ih =>
    obtain ⟨s', hs⟩ := read_rest h
    have hescape : scan .inside ['\\', e] = .inside := rfl
    exact (ih hs).cons_inside hescape
  | case12 c cs hquote _ _ hback ih =>
    obtain ⟨s', hs⟩ := read_rest h
    have hbland : Bland [c] := fun d hd => List.mem_singleton.mp hd ▸ ⟨hquote, fun h => hback (.inr h)⟩
    exact (ih hs).cons_inside (scan_bland_inside hbland)
  | case2 | case3 | case5 | case6 | case7 | case9 | case11 | case13 => cases h

theorem takes_string {s : List Char} (h : parseString cs = some (s, rest)) :
    Takes ('"' :: cs) rest 2 := by
  obtain ⟨used, rfl, hscan, hquotes⟩ := closes_string h
  refine ⟨'"' :: used, rfl, hscan, ?_⟩
  have hopen : quotes .outside ('"' :: used) = 1 + quotes .inside used := rfl
  omega

theorem literals_bland : ∀ l ∈ literals, Bland l.1 ∧ texts l.2 = [] := by
  have hbland : ∀ l ∈ literals, ∀ c ∈ l.1, c ≠ '"' ∧ c ≠ '\\' := by
    simp only [literals, List.mem_cons, List.not_mem_nil, or_false]
    rintro l (rfl | rfl | rfl | rfl | rfl | rfl) <;> exact List.all_iff_forall_prop.mp rfl
  refine fun l hl => ⟨hbland l hl, ?_⟩
  simp only [literals, List.mem_cons, List.not_mem_nil, or_false] at hl
  obtain rfl | rfl | rfl | rfl | rfl | rfl := hl <;> rfl

theorem numberChar_bland (h : isNumberChar c = true) : c ≠ '"' ∧ c ≠ '\\' := by
  refine ⟨?_, ?_⟩ <;> rintro rfl <;> cases h

theorem takes_scalar {fl : FloatText} {v : Value} (h : parseScalar fl cs = some (v, rest)) :
    Takes cs rest 0 ∧ texts v = [] := by
  unfold parseScalar at h
  split at h
  · next text value hfind =>
    obtain ⟨hbland, htexts⟩ := literals_bland _ (List.mem_of_find?_eq_some hfind)
    have hprefix : text.isPrefixOf cs = true := List.find?_some (p := fun l : List Char × Value => l.1.isPrefixOf cs) hfind
    obtain ⟨more, rfl⟩ := List.isPrefixOf_iff_prefix.mp hprefix
    obtain ⟨rfl, hrest⟩ := Prod.mk.inj (Option.some.inj h)
    rw [List.drop_left] at hrest
    exact ⟨hrest ▸ takes_bland hbland more, htexts⟩
  · have htoken : Takes cs (cs.dropWhile isNumberChar) 0 := by
      have hbland : Bland (cs.takeWhile isNumberChar) := fun c hc =>
        numberChar_bland (List.mem_takeWhile_imp hc)
      have h := takes_bland hbland (cs.dropWhile isNumberChar)
      rwa [List.takeWhile_append_dropWhile] at h
    unfold parseNumber at h
    dsimp only at h
    split at h
    · obtain ⟨rfl, rfl⟩ := Prod.mk.inj (Option.some.inj h)
      exact ⟨htoken, rfl⟩
    · obtain ⟨q, -, heq⟩ := Option.map_eq_some_iff.mp h
      obtain ⟨rfl, rfl⟩ := Prod.mk.inj heq
      exact ⟨htoken, rfl⟩

theorem textsFields_append (fields more : List (String × Value)) :
    textsFields (fields ++ more) = textsFields fields ++ textsFields more := by
  induction fields with
  | nil => rfl
  | cons p fields ih => simp only [List.cons_append, textsFields, ih, List.append_assoc]

/-- A value that takes another's place counts for no more than itself. -/
theorem textsFields_replace {d : List (String × Value)} (h : (d.map Prod.fst).Nodup)
    (p : String × Value) :
    (textsFields (d.map fun q => if q.1 = p.1 then p else q)).length ≤
      (textsFields d).length + (textsFields [p]).length := by
  induction d with
  | nil => exact Nat.zero_le _
  | cons q d ih =>
    obtain ⟨hq, hd⟩ := List.nodup_cons.mp h
    by_cases hkey : q.1 = p.1
    · have hrest : d.map (fun q => if q.1 = p.1 then p else q) = d := by
        refine (List.map_congr_left fun r hr => if_neg ?_).trans (List.map_id d)
        rintro hr'
        exact hq (hkey ▸ hr' ▸ List.mem_map_of_mem hr)
      rw [List.map_cons, if_pos hkey, hrest]
      simp only [textsFields, List.length_append, List.length_cons, List.length_nil]
      omega
    · have hmore := ih hd
      rw [List.map_cons, if_neg hkey]
      simp only [textsFields, List.length_append, List.length_cons, List.length_nil] at hmore ⊢
      omega

theorem textsFields_dict (pairs : List (String × Value)) :
    (textsFields (dict pairs)).length ≤ (textsFields pairs).length := by
  have hfold (pairs d : List (String × Value)) (hd : (d.map Prod.fst).Nodup) :
      (textsFields (pairs.foldl (fun d p =>
        if p.1 ∈ d.map Prod.fst then d.map fun q => if q.1 = p.1 then p else q else d ++ [p]) d)).length ≤
        (textsFields d).length + (textsFields pairs).length := by
    induction pairs generalizing d with
    | nil => exact Nat.le_refl _
    | cons p pairs ih =>
      have hcons : (textsFields (p :: pairs)).length =
          (textsFields [p]).length + (textsFields pairs).length := by
        rw [← List.singleton_append, textsFields_append, List.length_append]
      rw [List.foldl_cons]
      split
      · have hkeys : (d.map fun q => if q.1 = p.1 then p else q).map Prod.fst = d.map Prod.fst := by
          rw [List.map_map]
          refine List.map_congr_left fun q _ => ?_
          rw [Function.comp_apply]
          split
          · next hkey => exact hkey.symm
          · rfl
        have hmore := ih (d.map fun q => if q.1 = p.1 then p else q) (by rwa [hkeys])
        have hreplace := textsFields_replace hd p
        omega
      · next hnew =>
        have hnodup : ((d ++ [p]).map Prod.fst).Nodup := by
          rw [List.map_append]
          refine List.nodup_append.mpr ⟨hd, List.pairwise_singleton _ _, ?_⟩
          rintro a ha b hb rfl
          exact hnew (List.mem_singleton.mp hb ▸ ha)
        have hmore := ih (d ++ [p]) hnodup
        rw [textsFields_append, List.length_append] at hmore
        omega
  have h := hfold pairs [] List.nodup_nil
  rwa [textsFields, List.length_nil, Nat.zero_add] at h

/-- What the parsers with this fuel take has the quotes of the strings that they return. -/
structure Counts (fl : FloatText) (fuel : Nat) : Prop where
  value : ∀ cs v rest, parseValue fl fuel cs = some (v, rest) →
    Takes cs rest (2 * (texts v).length)
  items : ∀ cs xs rest, parseItems fl fuel cs = some (xs, rest) →
    Takes cs rest (2 * (textsItems xs).length)
  field : ∀ cs field rest, parseField fl fuel cs = some (field, rest) →
    Takes cs rest (2 * (textsFields [field]).length)
  fields : ∀ cs fields rest, parseFields fl fuel cs = some (fields, rest) →
    Takes cs rest (2 * (textsFields fields).length)

theorem counts_value {fl : FloatText} {fuel : Nat} (h : Counts fl fuel) {v : Value}
    (hv : parseValue fl (fuel + 1) cs = some (v, rest)) : Takes cs rest (2 * (texts v).length) := by
  unfold parseValue at hv
  split at hv
  · next cs =>
    obtain ⟨⟨s, rest'⟩, hs, heq⟩ := Option.map_eq_some_iff.mp hv
    obtain ⟨rfl, rfl⟩ := Prod.mk.inj heq
    exact takes_string hs
  · next cs =>
    have hopen := (takes_char (c := '[') (by decide) cs).trans (takes_skip cs)
    split at hv
    · next rest' hskip =>
      obtain ⟨rfl, rfl⟩ := Prod.mk.inj (Option.some.inj hv)
      rw [hskip] at hopen
      exact hopen.trans (takes_char (by decide) rest')
    · simp only [Option.bind_eq_bind, Option.bind_eq_some_iff, Option.pure_def, Option.some.injEq,
        Prod.exists, Prod.mk.injEq] at hv
      obtain ⟨x, mid, hx, xs, end_, hxs, rfl, rfl⟩ := hv
      have htakes := ((hopen.trans (h.value _ _ _ hx)).trans (takes_skip mid)).trans
        (h.items _ _ _ hxs)
      refine htakes.mono ?_
      simp only [texts, textsItems, List.length_append]
      omega
  · next cs =>
    have hopen := (takes_char (c := '{') (by decide) cs).trans (takes_skip cs)
    split at hv
    · next rest' hskip =>
      obtain ⟨rfl, rfl⟩ := Prod.mk.inj (Option.some.inj hv)
      rw [hskip] at hopen
      exact hopen.trans (takes_char (by decide) rest')
    · simp only [Option.bind_eq_bind, Option.bind_eq_some_iff, Option.pure_def, Option.some.injEq,
        Prod.exists, Prod.mk.injEq] at hv
      obtain ⟨key, x, mid, hx, fields, end_, hfields, rfl, rfl⟩ := hv
      have htakes := ((hopen.trans (h.field _ _ _ hx)).trans (takes_skip mid)).trans
        (h.fields _ _ _ hfields)
      refine htakes.mono ?_
      have hdict := textsFields_dict ((key, x) :: fields)
      rw [← List.singleton_append, textsFields_append, List.length_append] at hdict
      rw [texts]
      simp only [List.singleton_append] at hdict ⊢
      omega
  · obtain ⟨htakes, htexts⟩ := takes_scalar hv
    rw [htexts]
    exact htakes

theorem counts_items {fl : FloatText} {fuel : Nat} (h : Counts fl fuel) {xs : List Value}
    (hxs : parseItems fl (fuel + 1) cs = some (xs, rest)) :
    Takes cs rest (2 * (textsItems xs).length) := by
  unfold parseItems at hxs
  split at hxs
  · obtain ⟨rfl, rfl⟩ := Prod.mk.inj (Option.some.inj hxs)
    exact takes_char (by decide) _
  · next cs =>
    simp only [Option.bind_eq_bind, Option.bind_eq_some_iff, Option.pure_def, Option.some.injEq,
      Prod.exists, Prod.mk.injEq] at hxs
    obtain ⟨x, mid, hx, xs, end_, hxs, rfl, rfl⟩ := hxs
    have hopen := (takes_char (c := ',') (by decide) cs).trans (takes_skip cs)
    have htakes := ((hopen.trans (h.value _ _ _ hx)).trans (takes_skip mid)).trans
      (h.items _ _ _ hxs)
    refine htakes.mono ?_
    simp only [textsItems, List.length_append]
    omega
  · cases hxs

theorem counts_field {fl : FloatText} {fuel : Nat} (h : Counts fl fuel) {field : String × Value}
    (hfield : parseField fl (fuel + 1) cs = some (field, rest)) :
    Takes cs rest (2 * (textsFields [field]).length) := by
  unfold parseField at hfield
  split at hfield
  · next cs =>
    simp only [Option.bind_eq_bind, Option.bind_eq_some_iff, Option.pure_def, Prod.exists] at hfield
    obtain ⟨key, mid, hkey, hmore⟩ := hfield
    split at hmore
    · next more hcolon =>
      simp only [Option.bind_eq_some_iff, Option.some.injEq, Prod.exists, Prod.mk.injEq] at hmore
      obtain ⟨x, end_, hx, rfl, rfl⟩ := hmore
      have hopen := (takes_string hkey).trans (takes_skip mid)
      rw [hcolon] at hopen
      have htakes := ((hopen.trans (takes_char (by decide) more)).trans (takes_skip more)).trans
        (h.value _ _ _ hx)
      refine htakes.mono ?_
      simp only [textsFields, List.append_nil, List.length_cons]
      omega
    · cases hmore
  · cases hfield

theorem counts_fields {fl : FloatText} {fuel : Nat} (h : Counts fl fuel)
    {fields : List (String × Value)} (hfields : parseFields fl (fuel + 1) cs = some (fields, rest)) :
    Takes cs rest (2 * (textsFields fields).length) := by
  unfold parseFields at hfields
  split at hfields
  · obtain ⟨rfl, rfl⟩ := Prod.mk.inj (Option.some.inj hfields)
    exact takes_char (by decide) _
  · next cs =>
    simp only [Option.bind_eq_bind, Option.bind_eq_some_iff, Option.pure_def, Option.some.injEq,
      Prod.exists, Prod.mk.injEq] at hfields
    obtain ⟨key, x, mid, hx, fields, end_, hfields, rfl, rfl⟩ := hfields
    have hopen := (takes_char (c := ',') (by decide) cs).trans (takes_skip cs)
    have htakes := ((hopen.trans (h.field _ _ _ hx)).trans (takes_skip mid)).trans
      (h.fields _ _ _ hfields)
    refine htakes.mono ?_
    simp only [textsFields, List.append_nil, List.length_append, List.length_cons]
    omega
  · cases hfields

theorem counts (fl : FloatText) (fuel : Nat) : Counts fl fuel := by
  induction fuel with
  | zero =>
    constructor
    all_goals
      intro _ _ _ h
      cases h
  | succ fuel ih =>
    exact ⟨fun _ _ _ h => counts_value ih h, fun _ _ _ h => counts_items ih h,
      fun _ _ _ h => counts_field ih h, fun _ _ _ h => counts_fields ih h⟩

/-- A text that is read ends outside strings, and has two quotes for every string in it. -/
theorem loads_quotes {fl : FloatText} {v : Value} (h : loads fl cs = some v) :
    scan .outside cs = .outside ∧ 2 * (texts v).length ≤ quotes .outside cs := by
  unfold loads at h
  split at h
  · next value rest hread =>
    split at h
    · next hend =>
      obtain rfl := Option.some.inj h
      have htakes := ((takes_skip cs).trans ((counts fl _).value _ _ _ hread)).trans (takes_skip rest)
      rw [hend] at htakes
      obtain ⟨used, rfl, hscan, hquotes⟩ := htakes
      rw [List.append_nil]
      exact ⟨hscan, by omega⟩
    · cases h
  · cases h

end Scan

section Written

-- characters that no JSON text has outside its strings
variable (special : Char → Bool)

def InsideOnly : Pos → List Char → Prop
  | _, [] => True
  | p, c :: cs => (special c = true → p = .inside) ∧ InsideOnly (p.next c) cs

/-- A text that leads from `p` to `q` with `n` quotes, and has special characters inside strings
only. -/
structure Neat (p : Pos) (cs : List Char) (q : Pos) (n : Nat) : Prop where
  ends : scan p cs = q
  counts : quotes p cs = n
  inside : InsideOnly special p cs

/-- The printable ASCII characters. -/
def Plain (c : Char) : Prop := 0x20 ≤ c.toNat ∧ c.toNat < 0x7f

instance (c : Char) : Decidable (Plain c) := inferInstanceAs (Decidable (_ ∧ _))

theorem plain_of_numberChar {c : Char} (h : isNumberChar c = true) : Plain c :=
  (visible_of_numberChar h).imp_left Nat.le_of_lt

/-- Special characters that are written as they are. -/
def kept (c : Char) : Bool := special c && decide (0x20 ≤ c.toNat)

variable {special} {p q r : Pos} {cs ds : List Char} {m n : Nat}

theorem insideOnly_append (h : InsideOnly special p cs) (h' : InsideOnly special (scan p cs) ds) :
    InsideOnly special p (cs ++ ds) := by
  induction cs generalizing p with
  | nil => exact h'
  | cons c cs ih => exact ⟨h.1, ih h.2 h'⟩

theorem insideOnly_split (h : InsideOnly special p (cs ++ ds)) : InsideOnly special (scan p cs) ds := by
  induction cs generalizing p with
  | nil => exact h
  | cons c cs ih => exact ih h.2

theorem Neat.append (h : Neat special p cs q m) (h' : Neat special q ds r n) :
    Neat special p (cs ++ ds) r (m + n) := by
  obtain ⟨rfl, rfl, hinside⟩ := h
  obtain ⟨rfl, rfl, hinside'⟩ := h'
  exact ⟨scan_append p cs ds, quotes_append p cs ds, insideOnly_append hinside hinside'⟩

section Plain

variable (hspecial : ∀ c, special c = true → ¬Plain c)

include hspecial

theorem neat_plain (cs : List Char) (h : ∀ c ∈ cs, Plain c ∧ c ≠ '"' ∧ c ≠ '\\') :
    Neat special .outside cs .outside 0 := by
  obtain ⟨hscan, hquotes⟩ := bland_outside fun c hc => (h c hc).2
  refine ⟨hscan, hquotes, ?_⟩
  clear hscan hquotes
  induction cs with
  | nil => trivial
  | cons c cs ih =>
    obtain ⟨hplain, hquote, hback⟩ := h c List.mem_cons_self
    have hnext : Pos.outside.next c = .outside := by simp [Pos.next, hquote, hback]
    refine ⟨fun hc => absurd hplain (hspecial c hc), ?_⟩
    rw [hnext]
    exact ih fun d hd => h d (List.mem_cons_of_mem c hd)

omit hspecial in
theorem neat_inside (h : Bland cs) : Neat special .inside cs .inside 0 := by
  induction cs with
  | nil => exact ⟨rfl, rfl, trivial⟩
  | cons c cs ih =>
    obtain ⟨hquote, hback⟩ := h c List.mem_cons_self
    have hnext : Pos.inside.next c = .inside := by simp [Pos.next, hquote, hback]
    have hfirst : Neat special .inside [c] .inside 0 :=
      ⟨hnext, by simp [quotes, hquote], fun _ => rfl, trivial⟩
    exact hfirst.append (ih fun d hd => h d (List.mem_cons_of_mem c hd))

theorem neat_escaped {e : Char} (he : Plain e) (h : Bland cs) :
    Neat special .inside ('\\' :: e :: cs) .inside 0 := by
  have hfirst : Neat special .inside ['\\', e] .inside 0 :=
    ⟨rfl, by simp [quotes, Pos.next], fun _ => rfl, fun hc => absurd he (hspecial e hc), trivial⟩
  exact hfirst.append (neat_inside h)

/-- What a character is written as stays inside the string. -/
theorem neat_escape (c : Char) : Neat special .inside (escape c) .inside 0 := by
  have hnil : Bland [] := fun _ h => absurd h List.not_mem_nil
  have hhex : ∀ n < 16, hexDigit n ≠ '"' ∧ hexDigit n ≠ '\\' := by decide
  unfold escape
  split_ifs with hquote hback _ _ _ _ _ hcontrol
  case pos => exact neat_escaped hspecial (by decide) hnil
  case pos => exact neat_escaped hspecial (by decide) hnil
  case pos => exact neat_escaped hspecial (by decide) hnil
  case pos => exact neat_escaped hspecial (by decide) hnil
  case pos => exact neat_escaped hspecial (by decide) hnil
  case pos => exact neat_escaped hspecial (by decide) hnil
  case pos => exact neat_escaped hspecial (by decide) hnil
  case pos =>
    refine neat_escaped hspecial (by decide) fun d hd => ?_
    simp only [List.mem_cons, List.not_mem_nil, or_false] at hd
    obtain rfl | rfl | rfl | rfl := hd
    · decide
    · decide
    · exact hhex _ (by omega)
    · exact hhex _ (by omega)
  case neg => exact neat_inside fun d hd => List.mem_singleton.mp hd ▸ ⟨hquote, hback⟩

theorem neat_quoted (cs : List Char) : Neat special .outside (quoted cs) .outside 2 := by
  have hchars : Neat special .inside (cs.flatMap escape) .inside 0 := by
    induction cs with
    | nil => exact ⟨rfl, rfl, trivial⟩
    | cons c cs ih =>
      rw [List.flatMap_cons]
      exact (neat_escape hspecial c).append ih
  have hquote : special '"' = false := by
    cases h : special '"' with
    | false => rfl
    | true => exact absurd (by decide) (hspecial _ h)
  have hopen : Neat special .outside ['"'] .inside 1 :=
    ⟨rfl, rfl, fun h => (by rw [hquote] at h; cases h), trivial⟩
  have hclose : Neat special .inside ['"'] .outside 1 :=
    ⟨rfl, rfl, fun _ => rfl, trivial⟩
  exact (hopen.append hchars).append hclose

theorem neat_token (h : ∀ c ∈ cs, isNumberChar c = true) : Neat special .outside cs .outside 0 :=
  neat_plain hspecial cs fun c hc => ⟨plain_of_numberChar (h c hc), numberChar_bland (h c hc)⟩

variable {fl : FloatText}

theorem neat_float {x : PyFloat} (h : Legible fl (.float x)) :
    Neat special .outside (floatText fl x) .outside 0 := by
  cases x with
  | fin q => exact neat_token hspecial (FloatReads.chars h)
  | inf =>
    exact neat_plain hspecial ['I', 'n', 'f', 'i', 'n', 'i', 't', 'y']
      (List.all_iff_forall_prop.mp rfl)
  | negInf =>
    exact neat_plain hspecial ['-', 'I', 'n', 'f', 'i', 'n', 'i', 't', 'y']
      (List.all_iff_forall_prop.mp rfl)
  | nan => exact neat_plain hspecial ['N', 'a', 'N'] (List.all_iff_forall_prop.mp rfl)

theorem neat_punctuation (text : List Char) (h : ∀ c ∈ text, Plain c ∧ c ≠ '"' ∧ c ≠ '\\')
    (h' : Neat special .outside cs .outside n) : Neat special .outside (text ++ cs) .outside n :=
  Nat.zero_add n ▸ (neat_plain hspecial text h).append h'

theorem neat_field (key : String) (h : Neat special .outside cs .outside m)
    (h' : Neat special .outside ds .outside n) :
    Neat special .outside (quoted key.toList ++ ':' :: ' ' :: (cs ++ ds)) .outside (2 + (m + n)) :=
  (neat_quoted hspecial key.toList).append
    (neat_punctuation hspecial [':', ' '] (List.all_iff_forall_prop.mp rfl) (h.append h'))

mutual

theorem neat_dumps : (v : Value) → Legible fl v →
    Neat special .outside (dumps fl v) .outside (2 * (texts v).length)
  | .null, _ => neat_plain hspecial ['n', 'u', 'l', 'l'] (List.all_iff_forall_prop.mp rfl)
  | .bool true, _ => neat_plain hspecial ['t', 'r', 'u', 'e'] (List.all_iff_forall_prop.mp rfl)
  | .bool false, _ =>
    neat_plain hspecial ['f', 'a', 'l', 's', 'e'] (List.all_iff_forall_prop.mp rfl)
  | .int n, _ => neat_token hspecial (intText_numberChar n)
  | .float _, h => neat_float hspecial h
  | .str s, _ => neat_quoted hspecial s.toList
  | .arr [], _ => neat_plain hspecial ['[', ']'] (List.all_iff_forall_prop.mp rfl)
  | .arr (x :: xs), h => by
    have hitems := (neat_dumps x h.1).append (neat_dumpsItems xs h.2)
    have hcount : 2 * (texts (.arr (x :: xs))).length =
        2 * (texts x).length + 2 * (textsItems xs).length := by
      simp only [texts, textsItems, List.length_append]
      omega
    rw [hcount]
    exact neat_punctuation hspecial ['['] (List.all_iff_forall_prop.mp rfl) hitems
  | .obj [], _ => neat_plain hspecial ['{', '}'] (List.all_iff_forall_prop.mp rfl)
  | .obj ((key, x) :: fields), h => by
    have hfield := neat_field hspecial key (neat_dumps x h.2.1)
      (neat_dumpsFields fields h.2.2)
    have hcount : 2 * (texts (.obj ((key, x) :: fields))).length =
        2 + (2 * (texts x).length + 2 * (textsFields fields).length) := by
      simp only [texts, textsFields, List.length_append, List.length_cons]
      omega
    rw [hcount]
    exact neat_punctuation hspecial ['{'] (List.all_iff_forall_prop.mp rfl) hfield

theorem neat_dumpsItems : (xs : List Value) → LegibleItems fl xs →
    Neat special .outside (dumpsItems fl xs) .outside (2 * (textsItems xs).length)
  | [], _ => neat_plain hspecial [']'] (List.all_iff_forall_prop.mp rfl)
  | x :: xs, h => by
    have hitems := (neat_dumps x h.1).append (neat_dumpsItems xs h.2)
    have hcount : 2 * (textsItems (x :: xs)).length =
        2 * (texts x).length + 2 * (textsItems xs).length := by
      simp only [textsItems, List.length_append]
      omega
    rw [hcount]
    exact neat_punctuation hspecial [',', ' '] (List.all_iff_forall_prop.mp rfl) hitems

theorem neat_dumpsFields : (fields : List (String × Value)) → LegibleFields fl fields →
    Neat special .outside (dumpsFields fl fields) .outside (2 * (textsFields fields).length)
  | [], _ => neat_plain hspecial ['}'] (List.all_iff_forall_prop.mp rfl)
  | (key, x) :: fields, h => by
    have hfield := neat_field hspecial key (neat_dumps x h.1)
      (neat_dumpsFields fields h.2)
    have hcount : 2 * (textsFields ((key, x) :: fields)).length =
        2 + (2 * (texts x).length + 2 * (textsFields fields).length) := by
      simp only [textsFields, List.length_append, List.length_cons]
      omega
    rw [hcount]
    exact neat_punctuation hspecial [',', ' '] (List.all_iff_forall_prop.mp rfl) hfield

end

theorem any_plain (cs : List Char) (h : ∀ c ∈ cs, Plain c) : cs.any special = false :=
  List.any_eq_false.mpr fun c hc hspec => hspecial c hspec (h c hc)

theorem any_escape (c : Char) : (escape c).any special = kept special c := by
  have hplain {d : Char} {cs : List Char} (hd : Plain d) (hcd : c = d) (hcs : ∀ x ∈ cs, Plain x) :
      cs.any special = kept special c := by
    have hnot : special d = false := by
      cases h : special d with
      | false => rfl
      | true => exact absurd hd (hspecial d h)
    rw [any_plain hspecial cs hcs, kept, hcd, hnot, Bool.false_and]
  have hcontrol {cs : List Char} (hc : c.toNat < 0x20) (hcs : ∀ x ∈ cs, Plain x) :
      cs.any special = kept special c := by
    rw [any_plain hspecial cs hcs, kept, decide_eq_false (Nat.not_le.mpr hc), Bool.and_false]
  have hhex : ∀ n < 16, Plain (hexDigit n) := by decide
  unfold escape
  split_ifs with hquote hback hn hr ht hb hf hlow
  case pos => exact hplain (by decide) hquote (List.all_iff_forall_prop.mp rfl)
  case pos => exact hplain (by decide) hback (List.all_iff_forall_prop.mp rfl)
  case pos => exact hcontrol (hn ▸ by decide) (List.all_iff_forall_prop.mp rfl)
  case pos => exact hcontrol (hr ▸ by decide) (List.all_iff_forall_prop.mp rfl)
  case pos => exact hcontrol (ht ▸ by decide) (List.all_iff_forall_prop.mp rfl)
  case pos => exact hcontrol (hb ▸ by decide) (List.all_iff_forall_prop.mp rfl)
  case pos => exact hcontrol (hf ▸ by decide) (List.all_iff_forall_prop.mp rfl)
  case pos =>
    refine hcontrol hlow fun d hd => ?_
    simp only [List.mem_cons, List.not_mem_nil, or_false] at hd
    obtain rfl | rfl | rfl | rfl | rfl | rfl := hd
    · decide
    · decide
    · decide
    · decide
    · exact hhex _ (by omega)
    · exact hhex _ (by omega)
  case neg =>
    rw [List.any_cons, List.any_nil, Bool.or_false, kept, decide_eq_true (Nat.le_of_not_lt hlow),
      Bool.and_true]

theorem any_quoted (cs : List Char) : (quoted cs).any special = cs.any (kept special) := by
  have hquote : special '"' = false := by
    cases h : special '"' with
    | false => rfl
    | true => exact absurd (by decide) (hspecial _ h)
  have hchars : (cs.flatMap escape).any special = cs.any (kept special) := by
    induction cs with
    | nil => rfl
    | cons c cs ih => rw [List.flatMap_cons, List.any_append, any_escape hspecial, ih, List.any_cons]
  rw [quoted, List.cons_append, List.any_cons, List.any_append, hchars, List.any_cons, hquote,
    List.any_nil, Bool.false_or, Bool.or_false, Bool.or_false]

theorem any_float {x : PyFloat} (h : Legible fl (.float x)) :
    (floatText fl x).any special = false := by
  cases x with
  | fin q => exact any_plain hspecial _ fun c hc => plain_of_numberChar (FloatReads.chars h c hc)
  | inf =>
    exact any_plain hspecial ['I', 'n', 'f', 'i', 'n', 'i', 't', 'y']
      (List.all_iff_forall_prop.mp rfl)
  | negInf =>
    exact any_plain hspecial ['-', 'I', 'n', 'f', 'i', 'n', 'i', 't', 'y']
      (List.all_iff_forall_prop.mp rfl)
  | nan => exact any_plain hspecial ['N', 'a', 'N'] (List.all_iff_forall_prop.mp rfl)

theorem any_syntax (text : List Char) (h : ∀ c ∈ text, Plain c) (cs : List Char) :
    (text ++ cs).any special = cs.any special := by
  rw [List.any_append, any_plain hspecial text h, Bool.false_or]

theorem any_field (key : String) (cs ds : List Char) :
    (quoted key.toList ++ ':' :: ' ' :: (cs ++ ds)).any special =
      (key.toList.any (kept special) || (cs.any special || ds.any special)) := by
  have hsyntax : (':' :: ' ' :: (cs ++ ds)).any special = (cs ++ ds).any special :=
    any_syntax hspecial [':', ' '] (List.all_iff_forall_prop.mp rfl) (cs ++ ds)
  rw [List.any_append, any_quoted hspecial, hsyntax, List.any_append]

omit hspecial in
theorem any_textsFields (f : String → Bool) (key : String) (x : Value)
    (fields : List (String × Value)) :
    (textsFields ((key, x) :: fields)).any f =
      (f key || ((texts x).any f || (textsFields fields).any f)) := by
  rw [textsFields, List.cons_append, List.any_cons, List.any_append]

mutual

/-- The special characters of a text are those of its strings that are not escaped. -/
theorem any_dumps : (v : Value) → Legible fl v →
    (dumps fl v).any special = (texts v).any fun s => s.toList.any (kept special)
  | .null, _ => any_plain hspecial ['n', 'u', 'l', 'l'] (List.all_iff_forall_prop.mp rfl)
  | .bool true, _ => any_plain hspecial ['t', 'r', 'u', 'e'] (List.all_iff_forall_prop.mp rfl)
  | .bool false, _ => any_plain hspecial ['f', 'a', 'l', 's', 'e'] (List.all_iff_forall_prop.mp rfl)
  | .int n, _ => any_plain hspecial _ fun c hc => plain_of_numberChar (intText_numberChar n c hc)
  | .float _, h => any_float hspecial h
  | .str s, _ => (any_quoted hspecial s.toList).trans (Bool.or_false _).symm
  | .arr [], _ => any_plain hspecial ['[', ']'] (List.all_iff_forall_prop.mp rfl)
  | .arr (x :: xs), h => by
    rw [dumps, texts, textsItems, List.any_append, ← any_dumps x h.1, ← any_dumpsItems xs h.2,
      ← List.any_append]
    exact any_syntax hspecial ['['] (List.all_iff_forall_prop.mp rfl) _
  | .obj [], _ => any_plain hspecial ['{', '}'] (List.all_iff_forall_prop.mp rfl)
  | .obj ((key, x) :: fields), h => by
    rw [dumps, texts, any_textsFields, ← any_dumps x h.2.1, ← any_dumpsFields fields h.2.2,
      ← any_field hspecial]
    exact any_syntax hspecial ['{'] (List.all_iff_forall_prop.mp rfl) _

theorem any_dumpsItems : (xs : List Value) → LegibleItems fl xs →
    (dumpsItems fl xs).any special = (textsItems xs).any fun s => s.toList.any (kept special)
  | [], _ => any_plain hspecial [']'] (List.all_iff_forall_prop.mp rfl)
  | x :: xs, h => by
    rw [dumpsItems, textsItems, List.any_append, ← any_dumps x h.1, ← any_dumpsItems xs h.2,
      ← List.any_append]
    exact any_syntax hspecial [',', ' '] (List.all_iff_forall_prop.mp rfl) _

theorem any_dumpsFields : (fields : List (String × Value)) → LegibleFields fl fields →
    (dumpsFields fl fields).any special =
      (textsFields fields).any fun s => s.toList.any (kept special)
  | [], _ => any_plain hspecial ['}'] (List.all_iff_forall_prop.mp rfl)
  | (key, x) :: fields, h => by
    rw [dumpsFields, any_textsFields, ← any_dumps x h.1, ← any_dumpsFields fields h.2,
      ← any_field hspecial]
    exact any_syntax hspecial [',', ' '] (List.all_iff_forall_prop.mp rfl) _

end

end Plain

end Written

end StockQuant.JsonQuotes
