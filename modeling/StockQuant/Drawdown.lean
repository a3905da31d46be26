import Mathlib.Algebra.Order.Field.Basic
import Mathlib.Data.List.Induction
import Mathlib.Order.Bounds.Basic
import Mathlib.Tactic.Linarith
import Mathlib.Tactic.Ring

namespace StockQuant.Drawdown

variable {K : Type*} [Field K]

/-- The change from one value to another, in percent. -/
def fall (a b : K) : K := (b / a - 1) * 100

/-- The changes from each point of a curve to itself and to the later ones. -/
def falls (es : List K) : Set K :=
  {x | ∃ (i j : Nat) (a b : K), i ≤ j ∧ es[i]? = some a ∧ es[j]? = some b ∧ x = fall a b}

section Falls

variable {es es' : List K} {a b c e : K}

theorem falls_append : falls es ⊆ falls (es ++ es') := by
  rintro x ⟨i, j, a, b, hij, ha, hb, rfl⟩
  refine ⟨i, j, a, b, hij, ?_, ?_, rfl⟩
  · exact List.getElem?_append_left (List.getElem?_eq_some_iff.mp ha).1 ▸ ha
  · exact List.getElem?_append_left (List.getElem?_eq_some_iff.mp hb).1 ▸ hb

/-- A further point adds the changes that end in it. -/
theorem falls_concat : falls (es ++ [e]) = falls es ∪ {x | ∃ a ∈ es ++ [e], x = fall a e} := by
  ext x
  constructor
  · rintro ⟨i, j, a, b, hij, ha, hb, rfl⟩
    by_cases hj : j < es.length
    · rw [List.getElem?_append_left (by omega)] at ha
      rw [List.getElem?_append_left hj] at hb
      exact .inl ⟨i, j, a, b, hij, ha, hb, rfl⟩
    · rw [List.getElem?_append_right (not_lt.mp hj)] at hb
      obtain rfl : e = b := by
        have hmem := List.mem_of_getElem? hb
        exact (List.mem_singleton.mp hmem).symm
      exact .inr ⟨a, List.mem_of_getElem? ha, rfl⟩
  · rintro (hx | ⟨a, ha, rfl⟩)
    · exact falls_append hx
    · obtain ⟨i, hi, hget⟩ := List.mem_iff_getElem.mp ha
      have hlen : i ≤ es.length := by
        rw [List.length_append, List.length_singleton] at hi
        omega
      refine ⟨i, es.length, a, e, hlen, ?_, List.getElem?_concat_length, rfl⟩
      rw [List.getElem?_eq_getElem hi, hget]

variable [LinearOrder K]

theorem fall_self (ha : 0 < a) : fall a a = 0 := by
  rw [fall, div_self ha.ne', sub_self, zero_mul]

theorem fall_scale (hc : 0 < c) : fall (c * a) (c * b) = fall a b := by
  rw [fall, fall, mul_div_mul_left b a hc.ne']

theorem falls_scale (hc : 0 < c) : falls (es.map (c * ·)) = falls es := by
  ext x
  constructor
  · rintro ⟨i, j, a, b, hij, ha, hb, rfl⟩
    rw [List.getElem?_map, Option.map_eq_some_iff] at ha hb
    obtain ⟨a, ha, rfl⟩ := ha
    obtain ⟨b, hb, rfl⟩ := hb
    exact ⟨i, j, a, b, hij, ha, hb, fall_scale hc⟩
  · rintro ⟨i, j, a, b, hij, ha, hb, rfl⟩
    refine ⟨i, j, c * a, c * b, hij, ?_, ?_, (fall_scale hc).symm⟩
    · rw [List.getElem?_map, ha, Option.map_some]
    · rw [List.getElem?_map, hb, Option.map_some]

theorem zero_mem_falls (hne : es ≠ []) (hpos : ∀ e ∈ es, 0 < e) : 0 ∈ falls es := by
  obtain ⟨first, rest, rfl⟩ := List.exists_cons_of_ne_nil hne
  exact ⟨0, 0, first, first, le_rfl, rfl, rfl, (fall_self (hpos first List.mem_cons_self)).symm⟩

variable [IsStrictOrderedRing K]

theorem fall_anti (ha : 0 < a) (hab : a ≤ b) (he : 0 < e) : fall b e ≤ fall a e := by
  have hdiv : e / b ≤ e / a := div_le_div_of_nonneg_left he.le ha hab
  exact mul_le_mul_of_nonneg_right (sub_le_sub_right hdiv 1) (by norm_num)

theorem neg_hundred_lt_fall (ha : 0 < a) (hb : 0 < b) : -100 < fall a b := by
  have hdiv : 0 < b / a := div_pos hb ha
  rw [fall]
  linarith

theorem falls_lt (hpos : ∀ e ∈ es, 0 < e) {x : K} (hx : x ∈ falls es) : -100 < x := by
  obtain ⟨i, j, a, b, -, ha, hb, rfl⟩ := hx
  exact neg_hundred_lt_fall (hpos a (List.mem_of_getElem? ha)) (hpos b (List.mem_of_getElem? hb))

end Falls

section Sums

/-- The sums of the first one, two, … terms. -/
def partialSums (xs : List K) : List K := (xs.scanl (· + ·) 0).tail

theorem partialSums_concat (xs : List K) (x : K) :
    partialSums (xs ++ [x]) = partialSums xs ++ [(xs ++ [x]).sum] := by
  have hsum : xs.foldl (· + ·) 0 = xs.sum := (List.sum_eq_foldl ..).symm
  rw [partialSums, partialSums, List.scanl_append, List.tail_append_of_ne_nil List.scanl_ne_nil,
    List.scanl_cons, List.scanl_nil, List.tail_cons, hsum, List.sum_append, List.sum_singleton]

theorem mem_partialSums {xs : List K} {y : K} :
    y ∈ partialSums xs ↔ ∃ pre, pre <+: xs ∧ pre ≠ [] ∧ y = pre.sum := by
  induction xs using List.reverseRecOn with
  | nil =>
    simp only [partialSums, List.scanl_nil, List.tail_cons, List.not_mem_nil, false_iff, not_exists,
      List.prefix_nil]
    rintro pre ⟨hnil, hne, -⟩
    exact hne hnil
  | append_singleton xs x ih =>
    rw [partialSums_concat, List.mem_append, ih, List.mem_singleton]
    constructor
    · rintro (⟨pre, hpre, hne, rfl⟩ | rfl)
      · exact ⟨pre, hpre.trans (List.prefix_append xs [x]), hne, rfl⟩
      · exact ⟨xs ++ [x], List.prefix_rfl, by simp, rfl⟩
    · rintro ⟨pre, hpre, hne, rfl⟩
      obtain rfl | hpre := List.prefix_concat_iff.mp hpre
      · exact .inr rfl
      · exact .inl ⟨pre, hpre, hne, rfl⟩

end Sums

variable [LinearOrder K]

section Peaks

/-- The falls from the highest value so far, in percent of it, where it is positive. A curve that
does not fall has the fall 0. -/
def peakFalls (es : List K) : Set K :=
  {x | x = 0 ∨ ∃ (before : List K) (e : K) (after : List K) (p : K), es = before ++ e :: after ∧
    IsGreatest {y | y ∈ before ++ [e]} p ∧ 0 < p ∧ x = (p - e) / p * 100}

theorem peakFalls_nil : peakFalls ([] : List K) = {0} := by
  ext x
  simp [peakFalls]

/-- A further value adds its own fall. -/
theorem peakFalls_concat (es : List K) (e : K) : peakFalls (es ++ [e]) =
    peakFalls es ∪ {x | ∃ p, IsGreatest {y | y ∈ es ++ [e]} p ∧ 0 < p ∧ x = (p - e) / p * 100} := by
  ext x
  constructor
  · rintro (hx | ⟨before, e', after, p, hes, hp, hpos, hx⟩)
    · exact .inl (.inl hx)
    · obtain rfl | ⟨after, last, hlast⟩ := List.eq_nil_or_concat after
      · obtain ⟨rfl, hlast⟩ := List.append_inj' hes rfl
        obtain rfl := List.singleton_inj.mp hlast
        exact .inr ⟨p, hp, hpos, hx⟩
      · rw [List.concat_eq_append] at hlast
        have hsplit : es ++ [e] = (before ++ e' :: after) ++ [last] := by
          rw [hes, hlast, List.append_assoc, List.cons_append]
        exact .inl (.inr ⟨before, e', after, p, (List.append_inj' hsplit rfl).1, hp, hpos, hx⟩)
  · rintro ((hx | ⟨before, e', after, p, rfl, hp, hpos, hx⟩) | ⟨p, hp, hpos, hx⟩)
    · exact .inl hx
    · refine .inr ⟨before, e', after ++ [e], p, ?_, hp, hpos, hx⟩
      rw [List.append_assoc, List.cons_append]
    · exact .inr ⟨es, e, [], p, rfl, hp, hpos, hx⟩

/-- The losses of stretches of the gains `xs`, in percent of a base and the gains before the
stretch: at no earlier time, nor within the stretch, were the gains so far higher. -/
def stretchLosses (base : K) (xs : List K) : Set K :=
  {x | x = 0 ∨ ∃ before stretch after : List K, xs = before ++ stretch ++ after ∧ before ≠ [] ∧
    (∀ pre, pre <+: before ++ stretch → pre ≠ [] → pre.sum ≤ before.sum) ∧
    0 < base + before.sum ∧ x = -stretch.sum / (base + before.sum) * 100}

theorem stretchLosses_concat (base : K) (xs : List K) (y : K) :
    stretchLosses base (xs ++ [y]) = stretchLosses base xs ∪
      {x | ∃ before stretch : List K, xs ++ [y] = before ++ stretch ∧ before ≠ [] ∧
        (∀ pre, pre <+: before ++ stretch → pre ≠ [] → pre.sum ≤ before.sum) ∧
        0 < base + before.sum ∧ x = -stretch.sum / (base + before.sum) * 100} := by
  ext x
  constructor
  · rintro (hx | ⟨before, stretch, after, hxs, hne, hpeak, hpos, hx⟩)
    · exact .inl (.inl hx)
    · obtain rfl | ⟨after, last, hlast⟩ := List.eq_nil_or_concat after
      · rw [List.append_nil] at hxs
        exact .inr ⟨before, stretch, hxs, hne, hpeak, hpos, hx⟩
      · rw [hlast, List.concat_eq_append, ← List.append_assoc] at hxs
        exact .inl (.inr ⟨before, stretch, after, (List.append_inj' hxs rfl).1, hne, hpeak, hpos, hx⟩)
  · rintro ((hx | ⟨before, stretch, after, rfl, hne, hpeak, hpos, hx⟩) |
      ⟨before, stretch, hxs, hne, hpeak, hpos, hx⟩)
    · exact .inl hx
    · exact .inr ⟨before, stretch, after ++ [y], List.append_assoc .., hne, hpeak, hpos, hx⟩
    · exact .inr ⟨before, stretch, [], by rw [hxs, List.append_nil], hne, hpeak, hpos, hx⟩

variable [IsStrictOrderedRing K]

theorem isGreatest_partialSums {base p : K} {xs : List K} :
    IsGreatest {y | y ∈ (partialSums xs).map (· + base)} p ↔
      ∃ before stretch : List K, xs = before ++ stretch ∧ before ≠ [] ∧
        (∀ pre, pre <+: before ++ stretch → pre ≠ [] → pre.sum ≤ before.sum) ∧
        p = base + before.sum := by
  constructor
  · rintro ⟨hmem, hle⟩
    obtain ⟨_, hsum, rfl⟩ := List.mem_map.mp hmem
    obtain ⟨before, ⟨stretch, rfl⟩, hne, rfl⟩ := mem_partialSums.mp hsum
    refine ⟨before, stretch, rfl, hne, fun pre hpre hpre' => ?_, add_comm _ _⟩
    have hpoint := hle (List.mem_map_of_mem (mem_partialSums.mpr ⟨pre, hpre, hpre', rfl⟩))
    exact (add_le_add_iff_right base).mp hpoint
  · rintro ⟨before, stretch, rfl, hne, hpeak, rfl⟩
    constructor
    · have hsum : before.sum ∈ partialSums (before ++ stretch) :=
        mem_partialSums.mpr ⟨before, List.prefix_append _ _, hne, rfl⟩
      rw [add_comm]
      exact List.mem_map_of_mem (f := (· + base)) hsum
    · intro y hy
      obtain ⟨_, hsum, rfl⟩ := List.mem_map.mp hy
      obtain ⟨pre, hpre, hpre', rfl⟩ := mem_partialSums.mp hsum
      rw [add_comm base]
      exact add_le_add_left (hpeak pre hpre hpre') base

/-- The falls of the curve of the gains are the losses of its stretches. -/
theorem peakFalls_partialSums (base : K) (xs : List K) :
    peakFalls ((partialSums xs).map (· + base)) = stretchLosses base xs := by
  induction xs using List.reverseRecOn with
  | nil =>
    ext x
    simp [partialSums, peakFalls, stretchLosses]
  | append_singleton xs y ih =>
    rw [stretchLosses_concat, partialSums_concat, List.map_append, List.map_singleton,
      peakFalls_concat, ih]
    congr 1
    ext x
    rw [← List.map_singleton (f := (· + base)), ← List.map_append, ← partialSums_concat]
    constructor
    · rintro ⟨p, hp, hpos, rfl⟩
      obtain ⟨before, stretch, hsplit, hne, hpeak, rfl⟩ := isGreatest_partialSums.mp hp
      refine ⟨before, stretch, hsplit, hne, hpeak, hpos, ?_⟩
      rw [hsplit, List.sum_append]
      ring
    · rintro ⟨before, stretch, hsplit, hne, hpeak, hpos, rfl⟩
      refine ⟨base + before.sum,
        isGreatest_partialSums.mpr ⟨before, stretch, hsplit, hne, hpeak, rfl⟩, hpos, ?_⟩
      rw [hsplit, List.sum_append]
      ring

/-- The same losses in percent of the base and the gains after the stretch. -/
def stretchLossesBack (base : K) (xs : List K) : Set K :=
  {x | x = 0 ∨ ∃ before stretch after : List K, xs = before ++ stretch ++ after ∧ after ≠ [] ∧
    (∀ suf, suf <:+ stretch ++ after → suf ≠ [] → suf.sum ≤ after.sum) ∧
    0 < base + after.sum ∧ x = -stretch.sum / (base + after.sum) * 100}

omit [IsStrictOrderedRing K] in
theorem stretchLosses_reverse (base : K) (xs : List K) :
    stretchLosses base xs.reverse = stretchLossesBack base xs := by
  ext x
  constructor
  · rintro (hx | ⟨before, stretch, after, hxs, hne, hpeak, hpos, hx⟩)
    · exact .inl hx
    · refine .inr ⟨after.reverse, stretch.reverse, before.reverse, ?_, by simpa using hne, ?_, ?_, ?_⟩
      · rw [← List.reverse_reverse xs, hxs]
        simp
      · intro suf hsuf hsuf'
        rw [← List.reverse_append, ← List.reverse_prefix, List.reverse_reverse] at hsuf
        have hsum := hpeak suf.reverse hsuf (by simpa using hsuf')
        rwa [List.sum_reverse, ← List.sum_reverse before] at hsum
      · rwa [List.sum_reverse]
      · rwa [List.sum_reverse, List.sum_reverse]
  · rintro (hx | ⟨before, stretch, after, rfl, hne, hpeak, hpos, hx⟩)
    · exact .inl hx
    · refine .inr ⟨after.reverse, stretch.reverse, before.reverse, by simp, by simpa using hne, ?_,
        ?_, ?_⟩
      · intro pre hpre hpre'
        rw [← List.reverse_append, ← List.reverse_suffix, List.reverse_reverse] at hpre
        have hsum := hpeak pre.reverse hpre (by simpa using hpre')
        rwa [List.sum_reverse, ← List.sum_reverse after] at hsum
      · rwa [List.sum_reverse]
      · rwa [List.sum_reverse, List.sum_reverse]

end Peaks

/-- One turn of a scan that keeps the highest value and the deepest fall. -/
def scanStep (acc : K × K) (e : K) : K × K :=
  (max acc.1 e, min acc.2 (fall (max acc.1 e) e))

variable [IsStrictOrderedRing K]

/-- From a first value on, the scan ends with the highest value and the deepest fall. -/
theorem scan_spec (first : K) (rest : List K) (hpos : ∀ e ∈ first :: rest, 0 < e) :
    IsGreatest {x | x ∈ first :: rest} (rest.foldl scanStep (first, 0)).1 ∧
      IsLeast (falls (first :: rest)) (rest.foldl scanStep (first, 0)).2 := by
  induction rest using List.reverseRecOn with
  | nil =>
    refine ⟨⟨List.mem_cons_self, fun x hx => (List.mem_singleton.mp hx).le⟩,
      zero_mem_falls (List.cons_ne_nil first []) hpos, ?_⟩
    rintro x ⟨i, j, a, b, -, ha, hb, rfl⟩
    rw [List.mem_singleton.mp (List.mem_of_getElem? ha),
      List.mem_singleton.mp (List.mem_of_getElem? hb), fall_self (hpos first List.mem_cons_self)]
    exact le_rfl
  | append_singleton rest e ih =>
    rw [← List.cons_append] at hpos ⊢
    obtain ⟨hpeak, hworst⟩ := ih fun x hx => hpos x (List.mem_append_left _ hx)
    rw [List.foldl_append, List.foldl_cons, List.foldl_nil, scanStep]
    generalize rest.foldl scanStep (first, 0) = acc at hpeak hworst
    have he : 0 < e := hpos e (List.mem_append_right _ (List.mem_singleton_self e))
    have hgreatest : IsGreatest {x | x ∈ first :: rest ++ [e]} (max acc.1 e) := by
      constructor
      · obtain hle | hle := le_total acc.1 e
        · rw [max_eq_right hle]
          exact List.mem_append_right _ (List.mem_singleton_self e)
        · rw [max_eq_left hle]
          exact List.mem_append_left _ hpeak.1
      · intro x hx
        obtain hx | hx := List.mem_append.mp hx
        · exact (hpeak.2 hx).trans (le_max_left _ _)
        · exact (List.mem_singleton.mp hx).le.trans (le_max_right _ _)
    refine ⟨hgreatest, ?_⟩
    rw [falls_concat]
    -- the deepest fall that ends in the new point comes down from the highest one
    apply hworst.union
    refine ⟨⟨_, hgreatest.1, rfl⟩, ?_⟩
    rintro x ⟨a, ha, rfl⟩
    exact fall_anti (hpos a ha) (hgreatest.2 ha) he

end StockQuant.Drawdown
