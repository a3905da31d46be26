import Mathlib.Algebra.Order.Group.Defs
import Mathlib.Algebra.Order.Ring.Int
import Mathlib.Data.List.Pairwise
import Mathlib.Logic.Function.Basic

namespace StockQuant.Throttle

variable {T δ κ : Type*}

/-- Something that happened at a time, under a key; it may count towards the limit of its day. -/
structure Entry (T κ : Type*) where
  key : κ
  counted : Bool
  time : T

/-- What is remembered of the entries of one day. -/
structure Book (T δ κ : Type*) where
  day : δ
  counted : Int
  last : κ → Option T

/-- A limit for each day and a gap between the entries of a key. Each day is one stretch of time. -/
structure Limits (T δ : Type*) [LE T] where
  day : T → δ
  stretch : ∀ {a b c : T}, a ≤ b → b ≤ c → day a = day c → day b = day a
  perDay : Int
  gap : T

section Book

variable [DecidableEq δ] [DecidableEq κ]

/-- A new day starts with an empty book. -/
def Book.roll (b : Book T δ κ) (d : δ) : Book T δ κ :=
  if b.day = d then b else ⟨d, 0, fun _ => none⟩

def Book.submit (b : Book T δ κ) (x : Entry T κ) : Book T δ κ where
  day := b.day
  counted := b.counted + if x.counted then 1 else 0
  last := Function.update b.last x.key (some x.time)

end Book

section Tracks

variable [LinearOrder T] {l : Limits T δ} {xs : List (Entry T κ)} {now t : T} {b : Book T δ κ}
  {x : Entry T κ}

/-- Later than `x`, and no longer on its day. -/
def Over (l : Limits T δ) (now : T) (x : Entry T κ) : Prop :=
  ∃ t, x.time ≤ t ∧ t ≤ now ∧ l.day t ≠ l.day x.time

theorem Over.later (h : Over l now x) (hnow : now ≤ t) : Over l t x := by
  obtain ⟨u, hxu, hunow, hday⟩ := h
  exact ⟨u, hxu, hunow.trans hnow, hday⟩

/-- A day that is over does not come back. -/
theorem Over.day_ne (h : Over l now x) (hnow : now ≤ t) : l.day x.time ≠ l.day t := by
  obtain ⟨u, hxu, hunow, hday⟩ := h
  exact fun hsame => hday (l.stretch hxu (hunow.trans hnow) hsame)

variable [DecidableEq δ]

def countOn (l : Limits T δ) (d : δ) (xs : List (Entry T κ)) : Nat :=
  xs.countP fun x => x.counted && decide (l.day x.time = d)

theorem countOn_snoc (d : δ) :
    countOn l d (xs ++ [x]) =
      countOn l d xs + if x.counted && decide (l.day x.time = d) then 1 else 0 := by
  simp [countOn, List.countP_append, List.countP_singleton]

variable [AddCommGroup T]

/-- The entries keep the limits. -/
structure Within (l : Limits T δ) (xs : List (Entry T κ)) : Prop where
  perDay : ∀ d, (countOn l d xs : Int) ≤ max 0 l.perDay
  apart : xs.Pairwise fun x y => x.key = y.key → x.time + l.gap ≤ y.time

/-- The book knows of the entries up to now what it takes to keep the limits. -/
structure Tracks (l : Limits T δ) (xs : List (Entry T κ)) (now : T) (b : Book T δ κ) : Prop where
  past : ∀ x ∈ xs, x.time ≤ now
  today : ∀ x ∈ xs, l.day x.time = b.day ∨ Over l now x
  nonneg : 0 ≤ b.counted
  counted : (countOn l b.day xs : Int) ≤ b.counted
  last : ∀ x ∈ xs, l.day x.time = b.day → ∃ t, b.last x.key = some t ∧ x.time ≤ t
  within : Within l xs

theorem Within.part {ys : List (Entry T κ)} (h : Within l ys) (hpart : xs <+: ys) :
    Within l xs where
  perDay d := (Int.ofNat_le.mpr (hpart.sublist.countP_le)).trans (h.perDay d)
  apart := h.apart.sublist hpart.sublist

theorem tracks_nil (l : Limits T δ) (now : T) (b : Book T δ κ) (h : 0 ≤ b.counted) :
    Tracks l [] now b where
  past _ hx := absurd hx List.not_mem_nil
  today _ hx := absurd hx List.not_mem_nil
  nonneg := h
  counted := h
  last _ hx := absurd hx List.not_mem_nil
  within := ⟨fun _ => le_max_left 0 _, List.Pairwise.nil⟩

theorem Tracks.later (h : Tracks l xs now b) (hnow : now ≤ t) : Tracks l xs t b where
  past x hx := (h.past x hx).trans hnow
  today x hx := (h.today x hx).imp_right fun hover => hover.later hnow
  nonneg := h.nonneg
  counted := h.counted
  last := h.last
  within := h.within

theorem Tracks.roll (h : Tracks l xs now b) (hnow : now ≤ t) :
    Tracks l xs t (b.roll (l.day t)) := by
  unfold Book.roll
  split
  · exact h.later hnow
  · next hnew =>
    have hover : ∀ x ∈ xs, Over l t x := by
      intro x hx
      obtain hday | hover := h.today x hx
      · exact ⟨t, (h.past x hx).trans hnow, le_rfl, fun hsame => hnew (hday.symm.trans hsame.symm)⟩
      · exact hover.later hnow
    have hnone : ∀ x ∈ xs, l.day x.time ≠ l.day t := fun x hx => (hover x hx).day_ne le_rfl
    refine ⟨fun x hx => (h.past x hx).trans hnow, fun x hx => .inr (hover x hx), le_rfl, ?_,
      fun x hx hday => absurd hday (hnone x hx), h.within⟩
    have hzero : countOn l (l.day t) xs = 0 := by
      apply List.countP_eq_zero.mpr
      intro x hx
      simp [hnone x hx]
    exact (congrArg Nat.cast hzero).le

/-- The conditions on which one more entry is let in. -/
structure Admits (l : Limits T δ) (now : T) (b : Book T δ κ) (x : Entry T κ) : Prop where
  later : now ≤ x.time
  day : l.day x.time = b.day
  below : x.counted = true → b.counted < l.perDay
  free : 0 < l.gap → ∀ t, b.last x.key = some t → t + l.gap ≤ x.time
  dayOld : ∀ t, t ≤ x.time → x.time < t + l.gap → l.day t = l.day x.time

variable [IsOrderedAddMonoid T]

theorem Admits.apart (h : Admits l now b x) (htracks : Tracks l xs now b) :
    ∀ y ∈ xs, y.key = x.key → y.time + l.gap ≤ x.time := by
  intro y hy hkey
  have hpast := (htracks.past y hy).trans h.later
  by_cases hgap : 0 < l.gap
  · obtain hday | hover := htracks.today y hy
    · obtain ⟨t, hlast, hyt⟩ := htracks.last y hy hday
      have hfree := h.free hgap t (hkey ▸ hlast)
      exact (add_le_add_left hyt l.gap).trans hfree
    · by_contra hclose
      exact hover.day_ne h.later (h.dayOld y.time hpast (not_le.mp hclose))
  · exact (add_le_of_nonpos_right (not_lt.mp hgap)).trans hpast

theorem Tracks.submit [DecidableEq κ] (h : Tracks l xs now b) (hx : Admits l now b x) :
    Tracks l (xs ++ [x]) x.time (b.submit x) := by
  have hcounted : (countOn l b.day (xs ++ [x]) : Int) ≤ (b.submit x).counted := by
    have hold := h.counted
    rw [countOn_snoc, Book.submit, hx.day]
    simp only [decide_true, Bool.and_true]
    push_cast
    omega
  refine ⟨?_, ?_, ?_, hcounted, ?_, ?_, ?_⟩
  · intro y hy
    obtain hy | hy := List.mem_append.mp hy
    · exact (h.past y hy).trans hx.later
    · rw [List.mem_singleton.mp hy]
  · intro y hy
    obtain hy | hy := List.mem_append.mp hy
    · exact (h.today y hy).imp_right fun hover => hover.later hx.later
    · rw [List.mem_singleton.mp hy]
      exact .inl hx.day
  · have hold := h.nonneg
    simp only [Book.submit]
    split <;> omega
  · intro y hy hday
    by_cases hkey : y.key = x.key
    · refine ⟨x.time, by simp [Book.submit, hkey], ?_⟩
      obtain hy | hy := List.mem_append.mp hy
      · exact (h.past y hy).trans hx.later
      · rw [List.mem_singleton.mp hy]
    · obtain hy | hy := List.mem_append.mp hy
      · obtain ⟨t, hlast, hyt⟩ := h.last y hy hday
        exact ⟨t, by simp [Book.submit, hkey, hlast], hyt⟩
      · exact absurd (congrArg Entry.key (List.mem_singleton.mp hy)) hkey
  · intro d
    have hold := h.within.perDay d
    by_cases hnew : x.counted = true ∧ l.day x.time = d
    · obtain ⟨hc, rfl⟩ := hnew
      rw [← hx.day] at hcounted
      have hbelow := hx.below hc
      simp only [Book.submit, hc, ↓reduceIte] at hcounted
      exact le_max_of_le_right (by omega)
    · rw [countOn_snoc, if_neg (by simpa using hnew), Nat.add_zero]
      exact hold
  · refine List.pairwise_append.mpr ⟨h.within.apart, List.pairwise_singleton _ _, ?_⟩
    intro y hy z hz hkey
    obtain rfl := List.mem_singleton.mp hz
    exact hx.apart h y hy hkey

end Tracks

section Stretch

variable [LinearOrder T] [AddCommGroup T] [IsOrderedAddMonoid T] {gap start width : T}

/-- Times that keep a gap reach as far as their number says. -/
theorem reach_of_apart {x : T} {xs : List T} (h : (x :: xs).Pairwise fun a b => a + gap ≤ b) :
    ∃ y ∈ x :: xs, x + xs.length • gap ≤ y := by
  induction xs generalizing x with
  | nil => exact ⟨x, List.mem_singleton_self x, by simp⟩
  | cons z zs ih =>
    obtain ⟨hx, hzs⟩ := List.pairwise_cons.mp h
    obtain ⟨y, hy, hreach⟩ := ih hzs
    refine ⟨y, List.mem_cons_of_mem x hy, ?_⟩
    calc x + (z :: zs).length • gap = x + gap + zs.length • gap := by
          rw [List.length_cons, succ_nsmul', add_assoc]
      _ ≤ z + zs.length • gap := by gcongr; exact hx z List.mem_cons_self
      _ ≤ y := hreach

/-- Few of them fit into a stretch of time. -/
theorem count_of_apart {xs : List T} (h : xs.Pairwise fun a b => a + gap ≤ b)
    (hin : ∀ x ∈ xs, start ≤ x ∧ x < start + width) (hne : xs ≠ []) :
    (xs.length - 1) • gap < width := by
  cases xs with
  | nil => exact absurd rfl hne
  | cons x xs =>
    obtain ⟨y, hy, hreach⟩ := reach_of_apart h
    have hfirst := (hin x List.mem_cons_self).1
    have hlast := (hin y hy).2
    rw [List.length_cons, Nat.add_sub_cancel]
    refine lt_of_add_lt_add_left (a := start) ?_
    calc start + xs.length • gap ≤ x + xs.length • gap := by gcongr
      _ ≤ y := hreach
      _ < start + width := hlast

end Stretch

end StockQuant.Throttle
