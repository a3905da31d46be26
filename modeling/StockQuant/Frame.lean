import Mathlib.Algebra.BigOperators.Group.List.Basic
import Mathlib.Algebra.Field.Rat
import Mathlib.Algebra.Order.Floor.Defs
import Mathlib.Data.List.Nodup
import Mathlib.Data.List.Sort
import Mathlib.Data.Rat.Floor

namespace StockQuant.Frame

variable {α κ : Type*} [DecidableEq κ]

/-- The rows of a table that share one key. A group is never empty. -/
@[ext]
structure Group (α κ : Type*) where
  key : κ
  rows : List α
  rows_ne : rows ≠ []

theorem filter_key_ne {key : α → κ} {rows : List α} {k : κ} (h : k ∈ rows.map key) :
    rows.filter (fun row => key row = k) ≠ [] := by
  obtain ⟨row, hrow, rfl⟩ := List.mem_map.mp h
  exact List.ne_nil_of_mem (List.mem_filter.mpr ⟨hrow, by simp⟩)

/-- The distinct keys of a table, in the order of their first rows. -/
def uniqueKeys (key : α → κ) (rows : List α) : List κ :=
  (rows.map key).eraseDups

theorem mem_uniqueKeys {key : α → κ} {rows : List α} {k : κ} :
    k ∈ uniqueKeys key rows ↔ k ∈ rows.map key :=
  List.mem_eraseDups

theorem nodup_eraseDups (ks : List κ) : ks.eraseDups.Nodup := by
  induction hn : ks.length using Nat.strong_induction_on generalizing ks with
  | _ n ih =>
    cases ks with
    | nil => simp
    | cons k ks =>
      rw [List.eraseDups_cons, List.nodup_cons, List.mem_eraseDups]
      have hlen : (ks.filter fun b => !b == k).length < n := by
        have hfilter := List.length_filter_le (fun b => !b == k) ks
        simp only [List.length_cons] at hn
        omega
      exact ⟨by simp, ih _ hlen _ rfl⟩

def groupBy (key : α → κ) (rows : List α) : List (Group α κ) :=
  (uniqueKeys key rows).attach.map fun k =>
    ⟨k.1, rows.filter fun row => key row = k.1, filter_key_ne (mem_uniqueKeys.mp k.2)⟩

/-- Every key of the table heads a group, and only these do. -/
theorem mem_keys_groupBy {key : α → κ} {rows : List α} {k : κ} :
    (∃ g ∈ groupBy key rows, g.key = k) ↔ k ∈ rows.map key := by
  apply Iff.intro
  · rintro ⟨g, hg, rfl⟩
    obtain ⟨k', -, rfl⟩ := List.mem_map.mp hg
    exact mem_uniqueKeys.mp k'.2
  · intro hk
    exact ⟨_, List.mem_map_of_mem (List.mem_attach _ ⟨k, mem_uniqueKeys.mpr hk⟩), rfl⟩

theorem rows_of_mem_groupBy {key : α → κ} {rows : List α} {g : Group α κ}
    (h : g ∈ groupBy key rows) : g.rows = rows.filter fun row => key row = g.key := by
  obtain ⟨k, -, rfl⟩ := List.mem_map.mp h
  rfl

theorem mem_groupBy {key : α → κ} {rows : List α} {g : Group α κ} :
    g ∈ groupBy key rows ↔
      g.key ∈ rows.map key ∧ g.rows = rows.filter fun row => key row = g.key := by
  apply Iff.intro
  · intro hg
    exact ⟨mem_keys_groupBy.mp ⟨g, hg, rfl⟩, rows_of_mem_groupBy hg⟩
  · rintro ⟨hk, hrows⟩
    obtain ⟨g', hg', hkey⟩ := mem_keys_groupBy.mpr hk
    have hrows' := rows_of_mem_groupBy hg'
    rw [hkey, ← hrows] at hrows'
    exact Group.ext hkey hrows' ▸ hg'

theorem keys_groupBy (key : α → κ) (rows : List α) :
    (groupBy key rows).map Group.key = uniqueKeys key rows := by
  rw [groupBy, List.map_map]
  exact List.attach_map_subtype_val _

/-- No key heads two groups. -/
theorem nodup_keys_groupBy (key : α → κ) (rows : List α) :
    ((groupBy key rows).map Group.key).Nodup := by
  rw [keys_groupBy]
  exact nodup_eraseDups _

theorem rows_groupBy (key : α → κ) (rows : List α) :
    (groupBy key rows).map Group.rows =
      (uniqueKeys key rows).map fun k => rows.filter fun row => key row = k := by
  rw [groupBy, List.map_map]
  exact List.attach_map_val (f := fun k => rows.filter fun row => key row = k)

section SortedKeys

variable [PartialOrder κ] {key : α → κ} {rows : List α}

theorem pairwise_eraseDups {ks : List κ} (h : ks.Pairwise (· ≤ ·)) :
    ks.eraseDups.Pairwise (· < ·) := by
  induction hn : ks.length using Nat.strong_induction_on generalizing ks with
  | _ n ih =>
    cases ks with
    | nil => simp
    | cons k ks =>
      obtain ⟨hk, hks⟩ := List.pairwise_cons.mp h
      have hlen : (ks.filter fun b => !b == k).length < n := by
        have hfilter := List.length_filter_le (fun b => !b == k) ks
        simp only [List.length_cons] at hn
        omega
      rw [List.eraseDups_cons]
      apply List.Pairwise.cons
      · intro b hb
        obtain ⟨hb, hne⟩ := List.mem_filter.mp (List.mem_eraseDups.mp hb)
        exact lt_of_le_of_ne (hk b hb) fun heq => by simp [heq] at hne
      · exact ih _ hlen (hks.filter _) rfl

/-- Rows sorted by key fall into groups with increasing keys. -/
theorem pairwise_groupBy (h : (rows.map key).Pairwise (· ≤ ·)) :
    (groupBy key rows).Pairwise fun g g' => g.key < g'.key := by
  apply List.pairwise_map.mp
  rw [keys_groupBy]
  exact pairwise_eraseDups h

/-- The rows of the first key come first. -/
theorem filter_head_append {row : α} (h : ((row :: rows).map key).Pairwise (· ≤ ·)) :
    (row :: rows).filter (fun r => key r = key row) ++ rows.filter (fun r => key r ≠ key row) =
      row :: rows := by
  induction rows with
  | nil => simp
  | cons next rows ih =>
    obtain ⟨hrow, hnext, hrows⟩ : (∀ r ∈ next :: rows, key row ≤ key r) ∧
        (∀ r ∈ rows, key next ≤ key r) ∧ (rows.map key).Pairwise (· ≤ ·) := by
      simpa [List.forall_mem_map] using h
    by_cases hkey : key next = key row
    · have hshort : ((row :: rows).map key).Pairwise (· ≤ ·) := by
        apply List.Pairwise.cons _ hrows
        simpa using fun r hr => hrow r (List.mem_cons_of_mem _ hr)
      have htail := ih hshort
      simp only [List.filter_cons, hkey] at htail ⊢
      simpa using htail
    · have hother : ∀ r ∈ next :: rows, key r ≠ key row := by
        intro r hr heq
        apply hkey
        apply le_antisymm _ (hrow next List.mem_cons_self)
        obtain rfl | hr := List.mem_cons.mp hr
        · exact heq.le
        · exact heq ▸ hnext r hr
      have hnone : (next :: rows).filter (fun r => key r = key row) = [] :=
        List.filter_eq_nil_iff.mpr fun r hr => by simpa using hother r hr
      have hall : (next :: rows).filter (fun r => key r ≠ key row) = next :: rows :=
        List.filter_eq_self.mpr fun r hr => by simpa using hother r hr
      rw [List.filter_cons_of_pos (by simp), hnone, hall]
      rfl

/-- The groups of sorted rows are the rows cut into stretches. -/
theorem flatMap_rows_groupBy (h : (rows.map key).Pairwise (· ≤ ·)) :
    (groupBy key rows).flatMap Group.rows = rows := by
  rw [List.flatMap_def, rows_groupBy, ← List.flatMap_def]
  induction hn : rows.length using Nat.strong_induction_on generalizing rows with
  | _ n ih =>
    cases rows with
    | nil => simp [uniqueKeys]
    | cons row rows =>
      have hlen : (rows.filter fun r => key r ≠ key row).length < n := by
        have hfilter := List.length_filter_le (fun r => key r ≠ key row) rows
        simp only [List.length_cons] at hn
        omega
      have hsorted : ((rows.filter fun r => key r ≠ key row).map key).Pairwise (· ≤ ·) :=
        (List.pairwise_cons.mp h).2.sublist (List.filter_sublist.map key)
      have hrest := ih _ hlen hsorted rfl
      have hkeys : uniqueKeys key (row :: rows) =
          key row :: uniqueKeys key (rows.filter fun r => key r ≠ key row) := by
        simp only [uniqueKeys, List.map_cons, List.eraseDups_cons, List.filter_map,
          Function.comp_def, decide_not]
        rfl
      rw [hkeys, List.flatMap_cons]
      refine Eq.trans (congrArg _ (Eq.trans ?_ hrest)) (filter_head_append h)
      apply List.flatMap_congr
      intro k hk
      have hne : k ≠ key row := by
        obtain ⟨r, hr, rfl⟩ := List.mem_map.mp (mem_uniqueKeys.mp hk)
        simpa using (List.mem_filter.mp hr).2
      rw [List.filter_cons_of_neg (by simpa using hne.symm), List.filter_filter]
      apply List.filter_congr
      intro r _
      by_cases hr : key r = k <;> simp [hr, hne]

end SortedKeys

/-- The last row that carries a key. -/
def lastBy (key : α → κ) (rows : List α) (k : κ) : Option α :=
  (rows.filter fun row => key row = k).getLast?

theorem lastBy_isSome {key : α → κ} {rows : List α} {k : κ} :
    (lastBy key rows k).isSome ↔ k ∈ rows.map key := by
  simp [lastBy]

theorem mem_of_lastBy {key : α → κ} {rows : List α} {k : κ} {row : α}
    (h : lastBy key rows k = some row) : row ∈ rows ∧ key row = k := by
  have hmem := List.mem_filter.mp (List.mem_of_getLast? h)
  exact ⟨hmem.1, by simpa using hmem.2⟩

theorem lastBy_eq_some {key : α → κ} {rows : List α} (hnodup : (rows.map key).Nodup) {row : α}
    (h : row ∈ rows) : lastBy key rows (key row) = some row := by
  obtain ⟨last, hlast⟩ := Option.isSome_iff_exists.mp
    (lastBy_isSome.mpr (List.mem_map_of_mem (f := key) h))
  have hmem := mem_of_lastBy hlast
  rw [hlast, List.inj_on_of_nodup_map hnodup hmem.1 h hmem.2]

/-- Replace the row of a key, or append one for a key that has none. -/
def upsert (key : α → κ) (k : κ) (f : Option α → α) (rows : List α) : List α :=
  if k ∈ rows.map key then rows.map fun row => if key row = k then f (some row) else row
  else rows ++ [f none]

theorem upsert_keys {key : α → κ} {k : κ} {f : Option α → α} (hf : ∀ row, key (f row) = k)
    (rows : List α) : (upsert key k f rows).map key =
      if k ∈ rows.map key then rows.map key else rows.map key ++ [k] := by
  unfold upsert
  split
  · rw [List.map_map]
    apply List.map_congr_left
    intro row _
    by_cases hrow : key row = k <;> simp [hrow, hf]
  · simp [hf]

theorem upsert_nodup {key : α → κ} {k : κ} {f : Option α → α} (hf : ∀ row, key (f row) = k)
    {rows : List α} (h : (rows.map key).Nodup) : ((upsert key k f rows).map key).Nodup := by
  rw [upsert_keys hf]
  split
  · exact h
  · case isFalse hk =>
    exact List.Nodup.append h (List.nodup_singleton k) (by simpa using hk)

/-- A row of the updated table is an old row or what the update made of the old one. -/
theorem mem_upsert {key : α → κ} {k : κ} {f : Option α → α} {rows : List α} {row : α}
    (h : row ∈ upsert key k f rows) :
    (row ∈ rows ∧ key row ≠ k) ∨ (∃ old ∈ rows, key old = k ∧ row = f (some old)) ∨
      (k ∉ rows.map key ∧ row = f none) := by
  unfold upsert at h
  split at h
  · obtain ⟨old, hold, rfl⟩ := List.mem_map.mp h
    by_cases hk : key old = k
    · exact .inr (.inl ⟨old, hold, hk, if_pos hk⟩)
    · rw [if_neg hk]
      exact .inl ⟨hold, hk⟩
  · case isFalse hk =>
    obtain hold | hnew := List.mem_append.mp h
    · exact .inl ⟨hold, fun hrow => hk (hrow ▸ List.mem_map_of_mem hold)⟩
    · exact .inr (.inr ⟨hk, List.mem_singleton.mp hnew⟩)

/-- A sum over the rows grows by what the update adds to the row of its key. -/
theorem sum_upsert {M : Type*} [AddCommMonoid M] {key : α → κ} {k : κ} {f : Option α → α}
    {g : α → M} {added : M} (hsome : ∀ old, key old = k → g (f (some old)) = g old + added)
    (hnone : g (f none) = added) {rows : List α} (hnodup : (rows.map key).Nodup) :
    ((upsert key k f rows).map g).sum = (rows.map g).sum + added := by
  unfold upsert
  split
  · next hk =>
    induction rows with
    | nil => cases hk
    | cons row rows ih =>
      obtain ⟨hfresh, hnodup⟩ := List.nodup_cons.mp hnodup
      by_cases hrow : key row = k
      · have hrest : rows.map (fun row => if key row = k then f (some row) else row) = rows := by
          refine (List.map_congr_left fun row' hrow' => ?_).trans (List.map_id rows)
          have hne : key row' ≠ k := fun h => hfresh (hrow ▸ h ▸ List.mem_map_of_mem hrow')
          rw [if_neg hne, id_eq]
        simp only [List.map_cons, List.sum_cons, if_pos hrow, hrest, hsome row hrow]
        exact add_right_comm _ _ _
      · have hk' : k ∈ rows.map key := by simpa [Ne.symm hrow] using hk
        simp only [List.map_cons, List.sum_cons, if_neg hrow, ih hnodup hk', add_assoc]
  · simp [hnone]

/-- With distinct keys the first row of a key is the row of that key. -/
theorem find?_of_nodup {key : α → κ} {rows : List α} (hnodup : (rows.map key).Nodup) {row : α}
    (h : row ∈ rows) : rows.find? (fun r => key r = key row) = some row := by
  induction rows with
  | nil => cases h
  | cons first rows ih =>
    obtain ⟨hfirst, hrest⟩ := List.nodup_cons.mp hnodup
    obtain rfl | h := List.mem_cons.mp h
    · rw [List.find?_cons_of_pos (by simp)]
    · have hne : key first ≠ key row := fun heq => hfirst (heq ▸ List.mem_map_of_mem h)
      rw [List.find?_cons_of_neg (by simpa using hne), ih hrest h]

/-- Rows made of some of the rows, each under the key of its own, keep the order of the keys. -/
theorem filterMap_keys_sublist {β γ : Type*} {f : α → Option β} {key : α → γ} {key' : β → γ}
    (h : ∀ a b, f a = some b → key' b = key a) (rows : List α) :
    ((rows.filterMap f).map key').Sublist (rows.map key) := by
  induction rows with
  | nil => exact List.Sublist.slnil
  | cons row rows ih =>
    cases hrow : f row with
    | none =>
      rw [List.filterMap_cons_none hrow]
      exact List.Sublist.cons _ ih
    | some made =>
      rw [List.filterMap_cons_some hrow, List.map_cons, List.map_cons, h row made hrow]
      exact List.Sublist.cons_cons _ ih

section Lookups

variable {β : Type*} {f : α → Option β} {xs : List α} {ys : List β}

/-- A list of lookups succeeds when each of them does. -/
theorem isSome_mapM : (xs.mapM f).isSome ↔ ∀ x ∈ xs, (f x).isSome := by
  induction xs with
  | nil => simp
  | cons x xs ih =>
    rw [List.mapM_cons, List.forall_mem_cons, ← ih]
    cases f x with
    | none => simp
    | some y => cases xs.mapM f <;> simp

theorem mem_of_mapM (h : xs.mapM f = some ys) {y : β} : y ∈ ys ↔ ∃ x ∈ xs, f x = some y := by
  induction xs generalizing ys with
  | nil =>
    cases Option.some.inj h
    simp
  | cons x xs ih =>
    rw [List.mapM_cons] at h
    obtain ⟨first, hfirst, htail⟩ := Option.bind_eq_some_iff.mp h
    obtain ⟨rest, hrest, hys⟩ := Option.bind_eq_some_iff.mp htail
    obtain rfl := Option.some.inj hys
    rw [List.mem_cons, ih hrest, List.exists_mem_cons_iff, hfirst, Option.some.injEq,
      eq_comm (a := y)]

end Lookups

section Extremes

variable {β : Type*} [LinearOrder β] {f : α → β} {rows : List α} {row : α}

theorem isGreatest_foldl_max (h : row ∈ rows) :
    IsGreatest {x | ∃ r ∈ rows, f r = x} ((rows.map f).foldl max (f row)) := by
  have hne : rows.map f ≠ [] := List.ne_nil_of_mem (List.mem_map_of_mem h)
  obtain ⟨m, hm⟩ := Option.isSome_iff_exists.mp (List.isSome_max?_of_ne_nil hne)
  obtain ⟨hmem, hle⟩ := List.max?_eq_some_iff.mp hm
  rw [List.foldl_max, hm, Option.getD_some, max_eq_right (hle _ (List.mem_map_of_mem h))]
  constructor
  · exact List.mem_map.mp hmem
  · rintro x ⟨r, hr, rfl⟩
    exact hle _ (List.mem_map_of_mem hr)

theorem isLeast_foldl_min (h : row ∈ rows) :
    IsLeast {x | ∃ r ∈ rows, f r = x} ((rows.map f).foldl min (f row)) :=
  isGreatest_foldl_max (β := βᵒᵈ) h

variable {γ : Type*} {rowsOf : γ → List α} {extreme : γ → β} {gs : List γ} {m : β}

/-- The greatest of the greatest values of some lists is the greatest of all of them. -/
theorem isGreatest_flatMap
    (heach : ∀ g ∈ gs, IsGreatest {x | ∃ r ∈ rowsOf g, f r = x} (extreme g))
    (hm : IsGreatest {x | ∃ g ∈ gs, extreme g = x} m) :
    IsGreatest {x | ∃ r ∈ gs.flatMap rowsOf, f r = x} m := by
  constructor
  · obtain ⟨g, hg, hgm⟩ := hm.1
    obtain ⟨r, hr, hrg⟩ := (heach g hg).1
    exact ⟨r, List.mem_flatMap.mpr ⟨g, hg, hr⟩, hrg.trans hgm⟩
  · rintro x ⟨r, hr, rfl⟩
    obtain ⟨g, hg, hrg⟩ := List.mem_flatMap.mp hr
    exact ((heach g hg).2 ⟨r, hrg, rfl⟩).trans (hm.2 ⟨g, hg, rfl⟩)

theorem isLeast_flatMap (heach : ∀ g ∈ gs, IsLeast {x | ∃ r ∈ rowsOf g, f r = x} (extreme g))
    (hm : IsLeast {x | ∃ g ∈ gs, extreme g = x} m) :
    IsLeast {x | ∃ r ∈ gs.flatMap rowsOf, f r = x} m :=
  isGreatest_flatMap (β := βᵒᵈ) heach hm

end Extremes

section Series

variable {K : Type*} [Field K] [LinearOrder K]

/-- The mean of the last `window` values. -/
def rollingMean (window : Nat) (xs : List K) : Option K :=
  if window = 0 ∨ xs.length < window then none
  else some ((xs.drop (xs.length - window)).sum / window)

/-- The mean of the last `window` values, or of all of them when there are fewer, once
there are `minPeriods`. -/
def rollingMeanFrom (window minPeriods : Nat) (xs : List K) : Option K :=
  if xs.length < minPeriods ∨ xs = [] then none
  else
    let tail := xs.drop (xs.length - window)
    some (tail.sum / tail.length)

/-- The relative change of the last value against the one `periods` rows before. -/
def change (periods : Nat) (xs : List K) : Option K :=
  if xs.length ≤ periods then none
  else
    match xs.reverse[periods]?, xs.getLast? with
    | some base, some last => some (last / base - 1)
    | _, _ => none

def diffs (xs : List K) : List K :=
  List.zipWith (fun prev cur => cur - prev) xs xs.tail

/-- The last exponentially weighted mean, started at the first value. -/
def ewm (weight : K) : List K → Option K
  | [] => none
  | x :: xs => some (xs.foldl (fun mean y => (1 - weight) * mean + weight * y) x)

/-- Each row's rank as a share of the number of rows; equal values share their mean rank. -/
def rankShare (xs : List K) (x : K) : K :=
  ((xs.countP (· < x) : K) + ((xs.countP (· = x) : K) + 1) / 2) / xs.length

end Series

/-- The quantile with linear interpolation between the two nearest ranks. -/
def quantile (q : ℚ) (xs : List ℚ) : Option ℚ :=
  let sorted := xs.insertionSort (· ≤ ·)
  let position := q * (xs.length - 1)
  let below := ⌊position⌋.toNat
  match sorted[below]?, sorted[below + 1]? with
  | some lo, some hi => some (lo + (hi - lo) * (position - below))
  | lo, _ => lo

end StockQuant.Frame
