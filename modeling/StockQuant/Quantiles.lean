import Mathlib.Data.List.Sort
import Mathlib.Tactic.Linarith
import StockQuant.Frame

namespace StockQuant.Quantiles

open StockQuant Frame

/-- The value at the rank next to the position of a quantile, or above it. -/
def upper (q : ℚ) (xs : List ℚ) : Option ℚ :=
  (xs.insertionSort (· ≤ ·))[⌈q * (xs.length - 1)⌉.toNat]?

section Rank

variable {q : ℚ} {xs : List ℚ}

theorem position_bounds (h0 : 0 ≤ q) (h1 : q ≤ 1) (hne : xs ≠ []) :
    0 ≤ q * (xs.length - 1) ∧ q * (xs.length - 1) ≤ xs.length - 1 := by
  have hlength : (1 : ℚ) ≤ xs.length := by exact_mod_cast List.length_pos_of_ne_nil hne
  have hrest : (0 : ℚ) ≤ xs.length - 1 := by linarith
  exact ⟨mul_nonneg h0 hrest, mul_le_of_le_one_left hrest h1⟩

theorem floor_rank (h0 : 0 ≤ q) (h1 : q ≤ 1) (hne : xs ≠ []) :
    ((⌊q * (xs.length - 1)⌋.toNat : Nat) : ℚ) ≤ q * (xs.length - 1) ∧
      q * (xs.length - 1) < (⌊q * (xs.length - 1)⌋.toNat : Nat) + 1 ∧
      ⌊q * (xs.length - 1)⌋.toNat < xs.length := by
  obtain ⟨hpos, hlast⟩ := position_bounds h0 h1 hne
  have hfloor : 0 ≤ ⌊q * (xs.length - 1)⌋ := Int.floor_nonneg.mpr hpos
  have hcast : ((⌊q * (xs.length - 1)⌋.toNat : Nat) : ℚ) = (⌊q * (xs.length - 1)⌋ : Int) := by
    exact_mod_cast Int.toNat_of_nonneg hfloor
  have hle : ((⌊q * (xs.length - 1)⌋.toNat : Nat) : ℚ) ≤ q * (xs.length - 1) := by
    rw [hcast]
    exact Int.floor_le _
  refine ⟨hle, ?_, ?_⟩
  · rw [hcast]
    exact Int.lt_floor_add_one _
  · have hlt : ((⌊q * (xs.length - 1)⌋.toNat : Nat) : ℚ) < xs.length := by linarith
    exact_mod_cast hlt

theorem upper_isSome (h0 : 0 ≤ q) (h1 : q ≤ 1) (hne : xs ≠ []) : ∃ p, upper q xs = some p := by
  obtain ⟨hpos, hlast⟩ := position_bounds h0 h1 hne
  have hceil : ⌈q * (xs.length - 1)⌉ ≤ (xs.length : Int) - 1 := by
    apply Int.ceil_le.mpr
    push_cast
    exact hlast
  have hlength := List.length_pos_of_ne_nil hne
  apply Option.isSome_iff_exists.mp
  rw [upper, isSome_getElem?, List.length_insertionSort]
  omega

theorem sorted_le {i j : Nat} {a b : ℚ} (ha : (xs.insertionSort (· ≤ ·))[i]? = some a)
    (hb : (xs.insertionSort (· ≤ ·))[j]? = some b) (hij : i ≤ j) : a ≤ b := by
  have hsorted : (xs.insertionSort (· ≤ ·)).Pairwise (· ≤ ·) := List.pairwise_insertionSort _ xs
  obtain ⟨hi, rfl⟩ := List.getElem?_eq_some_iff.mp ha
  obtain ⟨hj, rfl⟩ := List.getElem?_eq_some_iff.mp hb
  obtain rfl | hlt := hij.eq_or_lt
  · exact le_rfl
  · exact List.pairwise_iff_getElem.mp hsorted i j hi hj hlt

/-- At a position that is a rank the quantile is the value there. -/
theorem quantile_exact (h : q * (xs.length - 1) = (⌊q * (xs.length - 1)⌋.toNat : Nat)) :
    quantile q xs = upper q xs := by
  have hint : ⌈q * (xs.length - 1)⌉ = (⌊q * (xs.length - 1)⌋.toNat : Nat) := by
    conv_lhs => rw [h]
    exact Int.ceil_natCast _
  rw [upper, hint, Int.toNat_natCast]
  unfold quantile
  dsimp only
  split
  · next lo hi hlo hhi =>
    have hfrac : q * (xs.length - 1) - (⌊q * (xs.length - 1)⌋.toNat : Nat) = 0 :=
      sub_eq_zero.mpr h
    rw [hfrac, mul_zero, add_zero, hlo]
  · rfl

/-- Elsewhere it lies between the values at the two ranks next to it, below the upper one. -/
theorem quantile_between (h0 : 0 ≤ q) (h1 : q ≤ 1) {p : ℚ} (hp : upper q xs = some p)
    (h : q * (xs.length - 1) ≠ (⌊q * (xs.length - 1)⌋.toNat : Nat)) :
    ∃ i lo r, (xs.insertionSort (· ≤ ·))[i]? = some lo ∧
      (xs.insertionSort (· ≤ ·))[i + 1]? = some p ∧ 0 < r ∧ r < 1 ∧
      quantile q xs = some (lo + (p - lo) * r) := by
  have hne : xs ≠ [] := by
    rintro rfl
    cases hp
  obtain ⟨hfloor, hceil, hbelow⟩ := floor_rank h0 h1 hne
  have hlt := lt_of_le_of_ne hfloor (Ne.symm h)
  have hrank : ⌈q * (xs.length - 1)⌉.toNat = ⌊q * (xs.length - 1)⌋.toNat + 1 := by
    have hint : ⌈q * (xs.length - 1)⌉ = (⌊q * (xs.length - 1)⌋.toNat : Nat) + 1 := by
      apply Int.ceil_eq_iff.mpr
      push_cast
      exact ⟨by linarith, hceil.le⟩
    omega
  rw [upper, hrank] at hp
  have hsome : ⌊q * (xs.length - 1)⌋.toNat < (xs.insertionSort (· ≤ ·)).length := by
    rw [List.length_insertionSort]
    exact hbelow
  have hlo := List.getElem?_eq_getElem hsome
  refine ⟨_, _, _, hlo, hp, sub_pos.mpr hlt, sub_lt_iff_lt_add'.mpr hceil, ?_⟩
  unfold quantile
  dsimp only
  rw [hlo, hp]

/-- Nothing lies between a quantile and the value above it. -/
theorem quantile_le_iff (h0 : 0 ≤ q) (h1 : q ≤ 1) {c p x : ℚ} (hc : quantile q xs = some c)
    (hp : upper q xs = some p) (hx : x ∈ xs) : c ≤ x ↔ p ≤ x := by
  by_cases hexact : q * (xs.length - 1) = (⌊q * (xs.length - 1)⌋.toNat : Nat)
  · rw [quantile_exact hexact, hp] at hc
    rw [Option.some.inj hc]
  · obtain ⟨i, lo, r, hlo, hhi, hr0, hr1, hvalue⟩ := quantile_between h0 h1 hp hexact
    rw [hvalue] at hc
    obtain rfl := Option.some.inj hc
    have hstep : 0 ≤ p - lo := sub_nonneg.mpr (sorted_le hlo hhi (Nat.le_succ i))
    constructor
    · intro hle
      by_contra hno
      -- a value below the upper rank is at most the one at the lower rank
      obtain ⟨j, hj⟩ := List.mem_iff_getElem?.mp ((List.mem_insertionSort (· ≤ ·)).mpr hx)
      have hji : j ≤ i := by
        by_contra habove
        exact hno (sorted_le hhi hj (by omega))
      have hxlo := sorted_le hj hlo hji
      have hzero : (p - lo) * r ≤ 0 := by linarith
      have hflat : p - lo ≤ 0 := nonpos_of_mul_nonpos_left hzero hr0
      have hsame : p = lo := by linarith
      rw [hsame, sub_self, zero_mul, add_zero] at hle
      exact hno (hsame ▸ hle)
    · intro hle
      have hpart : (p - lo) * r ≤ p - lo := mul_le_of_le_one_right hstep hr1.le
      linarith

theorem quantile_isSome (h0 : 0 ≤ q) (h1 : q ≤ 1) (hne : xs ≠ []) :
    ∃ c, quantile q xs = some c := by
  obtain ⟨-, -, hbelow⟩ := floor_rank h0 h1 hne
  unfold quantile
  dsimp only
  split
  · exact ⟨_, rfl⟩
  · refine ⟨_, List.getElem?_eq_getElem ?_⟩
    rw [List.length_insertionSort]
    exact hbelow

/-- A function that keeps the order keeps the rank. -/
theorem upper_map {f : ℚ → ℚ} (hf : Monotone f) (q : ℚ) (xs : List ℚ) :
    upper q (xs.map f) = (upper q xs).map f := by
  have hsorted : (xs.map f).insertionSort (· ≤ ·) = (xs.insertionSort (· ≤ ·)).map f := by
    apply List.Perm.eq_of_pairwise' (List.pairwise_insertionSort _ _)
    · exact (List.pairwise_insertionSort _ xs).map f fun _ _ h => hf h
    · exact (List.perm_insertionSort _ _).trans ((List.perm_insertionSort _ xs).map f).symm
  rw [upper, upper, hsorted, List.length_map, List.getElem?_map]

end Rank

end StockQuant.Quantiles
