import Mathlib.Data.List.Induction
import Mathlib.Data.List.Infix
import Mathlib.Order.Lattice

namespace StockQuant.Streaks

variable {κ : Type*} [DecidableEq κ]

/-- One more event of a kind: the streak of its kind grows and every other one ends. -/
def tally (streak : κ → Nat) (k : κ) : κ → Nat := fun j => if j = k then streak k + 1 else 0

/-- Some streak reaches the limit of its kind while the events happen. -/
def Reaches (limit : κ → Nat) : (κ → Nat) → List κ → Prop
  | _, [] => False
  | streak, k :: ks => limit k ≤ streak k + 1 ∨ Reaches limit (tally streak k) ks

variable {limit streak : κ → Nat} {k : κ} {ks ks' : List κ}

theorem reaches_append : Reaches limit streak (ks ++ ks') ↔
    Reaches limit streak ks ∨ Reaches limit (ks.foldl tally streak) ks' := by
  induction ks generalizing streak with
  | nil => simp [Reaches]
  | cons k ks ih =>
    rw [List.cons_append, Reaches, Reaches, List.foldl_cons, ih, or_assoc]

/-- Enough events of one kind from the start on, counting from its streak. -/
def Opening (limit streak : κ → Nat) (ks : List κ) : Prop :=
  ∃ k n, 0 < n ∧ List.replicate n k <+: ks ∧ limit k ≤ streak k + n

theorem opening_cons : Opening limit streak (k :: ks) ↔
    limit k ≤ streak k + 1 ∨
      ∃ n, 0 < n ∧ List.replicate n k <+: ks ∧ limit k ≤ tally streak k k + n := by
  have htally : tally streak k k = streak k + 1 := if_pos rfl
  constructor
  · rintro ⟨j, n, hn, hprefix, hlimit⟩
    obtain ⟨m, rfl⟩ := Nat.exists_eq_succ_of_ne_zero hn.ne'
    obtain ⟨rfl, htail⟩ := List.cons_prefix_cons.mp hprefix
    rcases m.eq_zero_or_pos with rfl | hm
    · exact .inl hlimit
    · exact .inr ⟨m, hm, htail, by omega⟩
  · rintro (hlimit | ⟨n, -, hprefix, hlimit⟩)
    · exact ⟨k, 1, Nat.one_pos, List.cons_prefix_cons.mpr ⟨rfl, List.nil_prefix⟩, hlimit⟩
    · exact ⟨k, n + 1, n.succ_pos, List.cons_prefix_cons.mpr ⟨rfl, hprefix⟩, by omega⟩

/-- After an event of one kind, the opening of another kind is a whole block. -/
theorem opening_tally (h : Opening limit (tally streak k) ks) :
    (∃ n, 0 < n ∧ List.replicate n k <+: ks ∧ limit k ≤ tally streak k k + n) ∨
      ∃ j, List.replicate (limit j) j <+: ks := by
  obtain ⟨j, n, hn, hprefix, hlimit⟩ := h
  by_cases hj : j = k
  · subst hj
    exact .inl ⟨n, hn, hprefix, hlimit⟩
  · rw [tally, if_neg hj, Nat.zero_add] at hlimit
    refine .inr ⟨j, List.IsPrefix.trans ⟨List.replicate (n - limit j) j, ?_⟩ hprefix⟩
    rw [List.replicate_append_replicate, Nat.add_sub_cancel' hlimit]

/-- A streak reaches its limit exactly when the events hold a block of as many of one kind,
or open with enough of it to fill up the streak that was there. -/
theorem reaches_iff (hpos : ∀ k, 0 < limit k) : Reaches limit streak ks ↔
    (∃ k, List.replicate (limit k) k <:+: ks) ∨ Opening limit streak ks := by
  induction ks generalizing streak with
  | nil =>
    refine iff_of_false id ?_
    rintro (⟨k, hk⟩ | ⟨k, n, hn, hprefix, -⟩)
    · have hzero : limit k = 0 := by simpa using List.infix_nil.mp hk
      exact (hpos k).ne' hzero
    · have hzero : n = 0 := by simpa using List.prefix_nil.mp hprefix
      exact hn.ne' hzero
  | cons k ks ih =>
    rw [Reaches, ih]
    constructor
    · rintro (hlimit | ⟨j, hj⟩ | hopening)
      · exact .inr (opening_cons.mpr (.inl hlimit))
      · exact .inl ⟨j, List.infix_cons_iff.mpr (.inr hj)⟩
      · obtain hsame | ⟨j, hj⟩ := opening_tally hopening
        · exact .inr (opening_cons.mpr (.inr hsame))
        · exact .inl ⟨j, List.infix_cons_iff.mpr (.inr hj.isInfix)⟩
    · rintro (⟨j, hj⟩ | hopening)
      · obtain hprefix | hinfix := List.infix_cons_iff.mp hj
        · -- a block that begins here is an opening from any streak
          have hopens : Opening limit streak (k :: ks) :=
            ⟨j, limit j, hpos j, hprefix, Nat.le_add_left _ _⟩
          obtain hlimit | ⟨n, hn, hrest, hle⟩ := opening_cons.mp hopens
          · exact .inl hlimit
          · exact .inr (.inr ⟨k, n, hn, hrest, hle⟩)
        · exact .inr (.inl ⟨j, hinfix⟩)
      · obtain hlimit | ⟨n, hn, hrest, hle⟩ := opening_cons.mp hopening
        · exact .inl hlimit
        · exact .inr (.inr ⟨k, n, hn, hrest, hle⟩)

/-- The longest stretch of the kind among the events has so many of them. -/
structure LongestRun (k : κ) (ks : List κ) (n : Nat) : Prop where
  found : List.replicate n k <:+: ks
  longest : ∀ m, List.replicate m k <:+: ks → m ≤ n

omit [DecidableEq κ] in
theorem LongestRun.unique {m n : Nat} (hm : LongestRun k ks m) (hn : LongestRun k ks n) : m = n :=
  le_antisymm (hn.longest m hm.found) (hm.longest n hn.found)

omit [DecidableEq κ] in
theorem longestRun_zero (h : k ∉ ks) : LongestRun k ks 0 where
  found := List.nil_infix
  longest m hm := by
    by_contra hpos
    exact h (hm.subset (List.mem_replicate.mpr ⟨by omega, rfl⟩))

/-- One turn of a scan that keeps the stretch at the end and the longest one. -/
def scan (k : κ) (acc : Nat × Nat) (x : κ) : Nat × Nat :=
  if x = k then (acc.1 + 1, max acc.2 (acc.1 + 1)) else (0, acc.2)

omit [DecidableEq κ] in
theorem replicate_suffix_concat {m : Nat} {x : κ} : List.replicate m k <:+ ks ++ [x] ↔
    m = 0 ∨ x = k ∧ ∃ n, m = n + 1 ∧ List.replicate n k <:+ ks := by
  rw [List.suffix_concat_iff, List.replicate_eq_nil_iff]
  apply or_congr_right
  constructor
  · rintro ⟨t, heq, hsuffix⟩
    cases m with
    | zero => exact absurd heq.symm (List.append_ne_nil_of_right_ne_nil t (List.cons_ne_nil x []))
    | succ n =>
      rw [List.replicate_succ'] at heq
      obtain ⟨rfl, hx⟩ := List.append_inj' heq rfl
      exact ⟨(List.cons.inj hx).1.symm, n, rfl, hsuffix⟩
  · rintro ⟨rfl, n, rfl, hsuffix⟩
    exact ⟨List.replicate n x, List.replicate_succ', hsuffix⟩

/-- The scan ends with the length of the last stretch and of the longest one. -/
theorem scan_spec (k : κ) (ks : List κ) :
    (∀ m, List.replicate m k <:+ ks ↔ m ≤ (ks.foldl (scan k) (0, 0)).1) ∧
      LongestRun k ks (ks.foldl (scan k) (0, 0)).2 := by
  induction ks using List.reverseRecOn with
  | nil =>
    refine ⟨fun m => ?_, longestRun_zero List.not_mem_nil⟩
    rw [List.suffix_nil, List.replicate_eq_nil_iff]
    exact Nat.le_zero.symm
  | append_singleton ks x ih =>
    obtain ⟨hlast, hlongest⟩ := ih
    rw [List.foldl_append, List.foldl_cons, List.foldl_nil]
    generalize ks.foldl (scan k) (0, 0) = acc at hlast hlongest
    unfold scan
    by_cases hx : x = k
    · rw [if_pos hx]
      have hsuffix : ∀ m, List.replicate m k <:+ ks ++ [x] ↔ m ≤ acc.1 + 1 := by
        intro m
        rw [replicate_suffix_concat]
        constructor
        · rintro (rfl | ⟨-, n, rfl, hn⟩)
          · exact Nat.zero_le _
          · exact Nat.succ_le_succ ((hlast n).mp hn)
        · intro hm
          cases m with
          | zero => exact .inl rfl
          | succ n => exact .inr ⟨hx, n, rfl, (hlast n).mpr (Nat.le_of_succ_le_succ hm)⟩
      refine ⟨hsuffix, ?_, fun m hm => ?_⟩
      · obtain hle | hle := le_total acc.2 (acc.1 + 1)
        · rw [max_eq_right hle]
          exact ((hsuffix _).mpr le_rfl).isInfix
        · rw [max_eq_left hle]
          exact hlongest.found.trans (List.prefix_append ks [x]).isInfix
      · obtain hend | hinside := List.infix_concat_iff.mp hm
        · exact ((hsuffix m).mp hend).trans (le_max_right _ _)
        · exact (hlongest.longest m hinside).trans (le_max_left _ _)
    · rw [if_neg hx]
      have hsuffix : ∀ m, List.replicate m k <:+ ks ++ [x] ↔ m ≤ 0 := by
        intro m
        rw [replicate_suffix_concat, Nat.le_zero]
        exact or_iff_left fun h => hx h.1
      refine ⟨hsuffix, hlongest.found.trans (List.prefix_append ks [x]).isInfix, fun m hm => ?_⟩
      obtain hend | hinside := List.infix_concat_iff.mp hm
      · exact ((hsuffix m).mp hend).trans (Nat.zero_le _)
      · exact hlongest.longest m hinside

theorem scan_longest (k : κ) (ks : List κ) : LongestRun k ks (ks.foldl (scan k) (0, 0)).2 :=
  (scan_spec k ks).2

end StockQuant.Streaks
