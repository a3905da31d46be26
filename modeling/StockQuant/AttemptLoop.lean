import Mathlib.Tactic.Common

namespace StockQuant.AttemptLoop

variable {σ ρ : Type*}

/-- What the body of a bounded retry loop decides after one attempt. -/
inductive Verdict (σ ρ : Type*)
  | finish (r : ρ)
  | again (s : σ)

/-- At most `fuel` attempts, the first one numbered `i`. An attempt either ends
the loop or hands its state to the next one. -/
def loop (body : Nat → σ → Verdict σ ρ) (exhausted : σ → ρ) : Nat → Nat → σ → ρ
  | 0, _, s => exhausted s
  | fuel + 1, i, s =>
    match body i s with
    | .finish r => r
    | .again s' => loop body exhausted fuel (i + 1) s'

/-- How many of the attempts made had an effect outside the loop. -/
def effects (body : Nat → σ → Verdict σ ρ) (effect : Nat → Bool) : Nat → Nat → σ → Nat
  | 0, _, _ => 0
  | fuel + 1, i, s =>
    (if effect i then 1 else 0) +
      match body i s with
      | .finish _ => 0
      | .again s' => effects body effect fuel (i + 1) s'

/-- No attempt made had an effect that the loop did not report as a success. -/
def Lossless (body : Nat → σ → Verdict σ ρ) (ok : ρ → Bool) (effect : Nat → Bool) :
    Nat → Nat → σ → Prop
  | 0, _, _ => True
  | fuel + 1, i, s =>
    match body i s with
    | .finish r => effect i = true → ok r = true
    | .again s' => effect i = false ∧ Lossless body ok effect fuel (i + 1) s'

/-- The state in which attempt `i + k` starts, if the loop gets there. -/
def stateBefore (body : Nat → σ → Verdict σ ρ) (i : Nat) (s : σ) : Nat → Option σ
  | 0 => some s
  | k + 1 =>
    match stateBefore body i s k with
    | none => none
    | some t =>
      match body (i + k) t with
      | .finish _ => none
      | .again t' => some t'

section Effects

variable {body : Nat → σ → Verdict σ ρ} {exhausted : σ → ρ} {ok : ρ → Bool} {effect : Nat → Bool}

/-- A loop that ends in success has at least the effect of its last attempt. -/
theorem one_le_effects_of_ok (hok : ∀ i s r, body i s = .finish r → ok r = true → effect i = true)
    (hex : ∀ s, ok (exhausted s) = false) (fuel i : Nat) (s : σ)
    (h : ok (loop body exhausted fuel i s) = true) : 1 ≤ effects body effect fuel i s := by
  induction fuel generalizing i s with
  | zero => simp [loop, hex] at h
  | succ fuel ih =>
    cases hb : body i s with
    | finish r =>
      simp only [loop, hb] at h
      simp [effects, hok i s r hb h]
    | again s' =>
      simp only [loop, hb] at h
      have hrest := ih (i + 1) s' h
      simp only [effects, hb]
      omega

theorem effects_of_lossless
    (hok : ∀ i s r, body i s = .finish r → ok r = true → effect i = true)
    (hex : ∀ s, ok (exhausted s) = false) (fuel i : Nat) (s : σ)
    (h : Lossless body ok effect fuel i s) :
    effects body effect fuel i s = if ok (loop body exhausted fuel i s) then 1 else 0 := by
  induction fuel generalizing i s with
  | zero => simp [effects, loop, hex]
  | succ fuel ih =>
    cases hb : body i s with
    | finish r =>
      simp only [Lossless, hb] at h
      have hiff : effect i = ok r := by
        cases hr : ok r with
        | true => exact hok i s r hb hr
        | false =>
          cases he : effect i with
          | true => simp [h he] at hr
          | false => rfl
      simp [effects, loop, hb, hiff]
    | again s' =>
      simp only [Lossless, hb] at h
      simp [effects, loop, hb, h.1, ih (i + 1) s' h.2]

theorem lossless_of_effects
    (hok : ∀ i s r, body i s = .finish r → ok r = true → effect i = true)
    (hex : ∀ s, ok (exhausted s) = false) (fuel i : Nat) (s : σ)
    (h : effects body effect fuel i s ≤ if ok (loop body exhausted fuel i s) then 1 else 0) :
    Lossless body ok effect fuel i s := by
  induction fuel generalizing i s with
  | zero => trivial
  | succ fuel ih =>
    cases hb : body i s with
    | finish r =>
      simp only [Lossless, hb]
      intro he
      by_contra hr
      simp [effects, loop, hb, he, hr] at h
    | again s' =>
      simp only [effects, loop, hb] at h
      have hpos := one_le_effects_of_ok hok hex fuel (i + 1) s'
      cases he : effect i with
      | true =>
        by_cases hl : ok (loop body exhausted fuel (i + 1) s') = true
        · have h1 := hpos hl
          simp only [he, hl, if_true] at h
          omega
        · simp [he, hl] at h
      | false =>
        have hrest := ih (i + 1) s' (by simpa [he] using h)
        simp [Lossless, hb, he, hrest]

/-- Retrying is safe exactly when no effect gets lost: then there is one effect
after a success and none after a failure. -/
theorem atMostOnce_iff (hok : ∀ i s r, body i s = .finish r → ok r = true → effect i = true)
    (hex : ∀ s, ok (exhausted s) = false) (fuel i : Nat) (s : σ) :
    (effects body effect fuel i s ≤ 1 ∧
      (ok (loop body exhausted fuel i s) = false → effects body effect fuel i s = 0)) ↔
      Lossless body ok effect fuel i s := by
  constructor
  · rintro ⟨hle, hzero⟩
    apply lossless_of_effects hok hex
    cases hl : ok (loop body exhausted fuel i s) with
    | true => simpa using hle
    | false => simp [hzero hl]
  · intro h
    rw [effects_of_lossless hok hex fuel i s h]
    cases ok (loop body exhausted fuel i s) <;> simp

end Effects

section Reached

variable {body : Nat → σ → Verdict σ ρ} {ok : ρ → Bool} {effect : Nat → Bool}

theorem stateBefore_again {i : Nat} {s s' : σ} (hb : body i s = .again s') (k : Nat) :
    stateBefore body i s (k + 1) = stateBefore body (i + 1) s' k := by
  induction k with
  | zero => simp [stateBefore, hb]
  | succ k ih =>
    rw [stateBefore, ih, stateBefore]
    have hidx : i + (k + 1) = i + 1 + k := by omega
    rw [hidx]

theorem stateBefore_finish {i : Nat} {s : σ} {r : ρ} (hb : body i s = .finish r) (k : Nat) :
    stateBefore body i s (k + 1) = none := by
  induction k with
  | zero => simp [stateBefore, hb]
  | succ k ih => rw [stateBefore, ih]

/-- The same condition read off attempt by attempt. -/
theorem lossless_iff (fuel i : Nat) (s : σ) :
    Lossless body ok effect fuel i s ↔
      ∀ k < fuel, ∀ t, stateBefore body i s k = some t → effect (i + k) = true →
        ∃ r, body (i + k) t = .finish r ∧ ok r = true := by
  induction fuel generalizing i s with
  | zero => simp [Lossless]
  | succ fuel ih =>
    cases hb : body i s with
    | finish r =>
      simp only [Lossless, hb]
      constructor
      · intro h k _ t ht he
        cases k with
        | zero =>
          simp only [stateBefore, Option.some.injEq] at ht
          subst t
          exact ⟨r, hb, h he⟩
        | succ k => simp [stateBefore_finish hb] at ht
      · intro h he
        obtain ⟨r', hr', ho⟩ := h 0 (Nat.succ_pos _) s rfl he
        rw [Nat.add_zero, hb] at hr'
        cases hr'
        exact ho
    | again s' =>
      simp only [Lossless, hb]
      rw [ih]
      constructor
      · rintro ⟨he, h⟩ k hk t ht hek
        cases k with
        | zero => simp [he] at hek
        | succ k =>
          have hidx : i + (k + 1) = i + 1 + k := by omega
          rw [stateBefore_again hb] at ht
          rw [hidx] at hek ⊢
          exact h k (by omega) t ht hek
      · intro h
        refine ⟨?_, ?_⟩
        · by_contra he
          obtain ⟨r, hr, -⟩ := h 0 (Nat.succ_pos _) s rfl (by simpa using he)
          rw [Nat.add_zero, hb] at hr
          cases hr
        · intro k hk t ht hek
          have hidx : i + (k + 1) = i + 1 + k := by omega
          rw [← hidx] at hek ⊢
          exact h (k + 1) (by omega) t (by rw [stateBefore_again hb]; exact ht) hek

end Reached

end StockQuant.AttemptLoop
