import Mathlib.Logic.Relation
import StockQuant.KstDays
import StockQuant.PaperReadiness
import StockQuant.Streaks

namespace StockQuant.LossDays

open StockQuant Clock KstDays PyValue Fallible LiveUnlockGate PaperReadiness Streaks

section Rows

variable {Day : Type*} (py : Readers) (day : Dict → Day)

/-- The snapshot shows a loss of its day. -/
def loses (r : Dict) : Bool := (orZero (dailyPnl py r)).lt (.fin 0)

/-- The last snapshot of each recorded day. -/
def closings [DecidableEq Day] : List Dict → List Dict
  | [] => []
  | [r] => [r]
  | r :: r' :: rows => if day r' = day r then closings (r' :: rows) else r :: closings (r' :: rows)

/-- One further snapshot, of the day and the sign of the one before it. -/
def Resnapped (rows rows' : List Dict) : Prop :=
  ∃ before r r' after, rows = before ++ r :: after ∧ rows' = before ++ r :: r' :: after ∧
    day r' = day r ∧ loses py r' = loses py r

/-- The check of the consecutive loss days is about days: it counts the longest stretch of recorded
days that close with a loss, however many further snapshots the days get. -/
structure CountsDays [DecidableEq Day] (rows : List Dict) : Prop where
  counted : ∀ n, maxConsecutiveNegativeDailyPnl py rows = .ok n →
    LongestRun true ((closings day rows).map (loses py)) n
  repeated : ∀ rows', Relation.ReflTransGen (Resnapped py day) rows rows' →
    ∀ n n', maxConsecutiveNegativeDailyPnl py rows = .ok n →
      maxConsecutiveNegativeDailyPnl py rows' = .ok n' →
        ∀ cfg sampleOk, lossDaysItem cfg sampleOk n' = lossDaysItem cfg sampleOk n

/-- `float` of the day's result raises an error that the check does not catch. -/
def Unreadable (r : Dict) : Prop := (r.get "daily_pnl_pct").toFloatOrZero py = .error .overflowError

variable {py day} {rows rows' : List Dict} {n : Nat}

theorem lossStreak_scan (rows : List Dict) :
    lossStreak py rows = ((rows.map (loses py)).foldl (scan true) (0, 0)).2 := by
  rw [lossStreak, maxConsecutiveNegative, List.foldl_map, List.foldl_map]
  rfl

theorem lossStreak_longest (rows : List Dict) :
    LongestRun true (rows.map (loses py)) (lossStreak py rows) := by
  rw [lossStreak_scan]
  exact scan_longest true _

theorem streak_iff : maxConsecutiveNegativeDailyPnl py rows = .ok n ↔
    (¬∃ r ∈ rows, Unreadable py r) ∧ n = lossStreak py rows := by
  rw [reads_lossStreak rows n]
  simp only [not_exists, not_and]
  rfl

/-- What the gate lists for the check, once it gets through its files. -/
theorem gate_lossDays {cfg : UnlockSettings} {now : Instant} {files : ReadinessFiles}
    {res : PaperReadinessResult} (henabled : cfg.liveUnlockEnabled = true)
    (hbypass : cfg.liveUnlockBypass = false) (h : evaluatePaperReadiness cfg py now files = .ok res) :
    ∃ sampleOk, lossDaysItem cfg sampleOk
      (lossStreak py (pnlRows py now files.pnlHistory cfg.liveUnlockLookbackDays)) ∈ res.items := by
  obtain ⟨-, rfl⟩ := (reads_gate henabled hbypass res).mp h
  exact ⟨_, .tail _ (.tail _ (.tail _ (.head _)))⟩

theorem loses_resnapped (h : Relation.ReflTransGen (Resnapped py day) rows rows')
    (hnone : ∀ r ∈ rows, loses py r = false) : ∀ r ∈ rows', loses py r = false := by
  induction h with
  | refl => exact hnone
  | tail _ hsnap ih =>
    obtain ⟨before, r, r', after, rfl, rfl, -, hsign⟩ := hsnap
    intro x hx
    rw [List.mem_append, List.mem_cons, List.mem_cons] at hx
    obtain hx | rfl | rfl | hx := hx
    · exact ih x (List.mem_append_left _ hx)
    · exact ih x (List.mem_append_right _ List.mem_cons_self)
    · rw [hsign]
      exact ih r (List.mem_append_right _ List.mem_cons_self)
    · exact ih x (List.mem_append_right _ (List.mem_cons_of_mem r hx))

/-- The same snapshot over and over. -/
theorem resnapped_replicate (before after : List Dict) (r : Dict) (k : Nat) :
    Relation.ReflTransGen (Resnapped py day) (before ++ r :: after)
      (before ++ (List.replicate k r ++ r :: after)) := by
  induction k with
  | zero => exact .refl
  | succ k ih =>
    apply ih.tail
    cases k with
    | zero => exact ⟨before, r, r, after, rfl, rfl, rfl, rfl⟩
    | succ k =>
      exact ⟨before, r, r, List.replicate k r ++ r :: after, rfl, rfl, rfl, rfl⟩

theorem closings_subset [DecidableEq Day] (r : Dict) (h : r ∈ closings day rows) : r ∈ rows := by
  induction rows using closings.induct day with
  | case1 => exact h
  | case2 => exact h
  | case3 a b rows hday ih =>
    rw [closings, if_pos hday] at h
    exact List.mem_cons_of_mem a (ih h)
  | case4 a b rows hday ih =>
    rw [closings, if_neg hday, List.mem_cons] at h
    obtain rfl | h := h
    · exact List.mem_cons_self
    · exact List.mem_cons_of_mem a (ih h)

theorem noLoss_streak (hnone : ∀ r ∈ rows, loses py r = false) : lossStreak py rows = 0 := by
  apply (lossStreak_longest rows).unique
  apply longestRun_zero
  intro htrue
  obtain ⟨r, hr, hloss⟩ := List.mem_map.mp htrue
  rw [hnone r hr] at hloss
  cases hloss

section Days

variable [DecidableEq Day]

theorem countsDays_of_noLoss (hnone : ∀ r ∈ rows, loses py r = false) :
    CountsDays py day rows where
  counted n hn := by
    obtain ⟨-, rfl⟩ := streak_iff.mp hn
    rw [noLoss_streak hnone]
    apply longestRun_zero
    intro htrue
    obtain ⟨r, hr, hloss⟩ := List.mem_map.mp htrue
    rw [hnone r (closings_subset r hr)] at hloss
    cases hloss
  repeated rows' hsnaps n n' hn hn' cfg sampleOk := by
    obtain ⟨-, rfl⟩ := streak_iff.mp hn
    obtain ⟨-, rfl⟩ := streak_iff.mp hn'
    rw [noLoss_streak hnone, noLoss_streak (loses_resnapped hsnaps hnone)]

theorem countsDays_of_unreadable (h : ∃ r ∈ rows, Unreadable py r) : CountsDays py day rows where
  counted _ hn := absurd h (streak_iff.mp hn).1
  repeated _ _ _ _ hn := absurd h (streak_iff.mp hn).1

theorem default_bounds : UnlockBounds 30 10 0 15 5 (1 / 20) 0 := by
  constructor <;> norm_num

def defaultSettings : UnlockSettings where
  bounds := default_bounds

theorem noLoss_of_countsDays (h : CountsDays py day rows) (hread : ¬∃ r ∈ rows, Unreadable py r) :
    ∀ r ∈ rows, loses py r = false := by
  intro r hr
  rw [← Bool.not_eq_true]
  intro hloss
  obtain ⟨before, after, rfl⟩ := List.mem_iff_append.mp hr
  have hread' : ¬∃ x ∈ before ++ (List.replicate (lossStreak py (before ++ r :: after)) r ++
      r :: after), Unreadable py x := by
    rintro ⟨x, hx, hbad⟩
    rw [List.mem_append, List.mem_append] at hx
    obtain hx | hx | hx := hx
    · exact hread ⟨x, List.mem_append_left _ hx, hbad⟩
    · exact hread ⟨r, hr, List.eq_of_mem_replicate hx ▸ hbad⟩
    · exact hread ⟨x, List.mem_append_right _ hx, hbad⟩
  have hsame := congrArg ChecklistItem.observed
    (h.repeated _ (resnapped_replicate before after r (lossStreak py (before ++ r :: after))) _ _
      (streak_iff.mpr ⟨hread, rfl⟩) (streak_iff.mpr ⟨hread', rfl⟩) defaultSettings true)
  -- one more snapshot than the longest stretch has lies in a row
  have hrun : List.replicate (lossStreak py (before ++ r :: after) + 1) true <:+:
      (before ++ (List.replicate (lossStreak py (before ++ r :: after)) r ++ r :: after)).map
        (loses py) :=
    ⟨before.map (loses py), after.map (loses py), by
      simp only [List.map_append, List.map_replicate, List.map_cons, hloss, List.replicate_succ',
        List.append_assoc, List.singleton_append]⟩
  have hmore := (lossStreak_longest _).longest _ hrun
  simp only [lossDaysItem, Observed.int.injEq, Nat.cast_inj] at hsame
  omega

/-- With one snapshot a day the snapshots are the closings. -/
theorem closings_daily (h : rows.IsChain fun r r' => day r' ≠ day r) : closings day rows = rows := by
  induction rows using closings.induct day with
  | case1 => rfl
  | case2 => rfl
  | case3 a b rows hday ih => exact absurd hday (List.isChain_cons_cons.mp h).1
  | case4 a b rows hday ih => rw [closings, if_neg hday, ih (List.isChain_cons_cons.mp h).2]

end Days

end Rows

/-- The check is about days exactly when no snapshot in the window shows a loss, or the gate cannot
read one; it counts right as long as each day has one snapshot only. -/
theorem countsDays_iff {Day : Type*} [DecidableEq Day] (py : Readers) (day : Dict → Day)
    (rows : List Dict) :
    (CountsDays py day rows ↔
      (∀ r ∈ rows, loses py r = false) ∨ ∃ r ∈ rows, Unreadable py r) ∧
    ((rows.IsChain fun r r' => day r' ≠ day r) →
      ∀ n, maxConsecutiveNegativeDailyPnl py rows = .ok n →
        LongestRun true ((closings day rows).map (loses py)) n) := by
  refine ⟨⟨fun h => ?_, ?_⟩, fun hdaily n hn => ?_⟩
  · by_cases hread : ∃ r ∈ rows, Unreadable py r
    · exact .inr hread
    · exact .inl (noLoss_of_countsDays h hread)
  · rintro (hnone | hread)
    · exact countsDays_of_noLoss hnone
    · exact countsDays_of_unreadable hread
  · obtain ⟨-, rfl⟩ := streak_iff.mp hn
    rw [closings_daily hdaily]
    exact lossStreak_longest rows

/-- The day of a snapshot in Seoul. -/
def recordedDay (py : Readers) (r : Dict) : Option Int := (timeOf py r).map kstDay

def lossSnapshot : Dict :=
  [("ts_utc", .str "2025-01-02T03:04:05Z"), ("daily_pnl_pct", .float (.fin (-1)))]

theorem countsDays_oneSnapshot : LongestRun true
    ((closings (recordedDay readers) [lossSnapshot]).map (loses readers)) 1 :=
  (countsDays_iff readers (recordedDay readers) [lossSnapshot]).2 (.singleton _) 1
    (by decide)

/-- Six snapshots of one day with a loss pass for six days with a loss. -/
theorem oneDay_countedAsSix :
    ¬∀ (py : Readers) (rows : List Dict), CountsDays py (recordedDay py) rows := by
  intro h
  have hsix : maxConsecutiveNegativeDailyPnl readers (List.replicate 6 lossSnapshot) = .ok 6 := by
    decide
  have hrun := (h readers (List.replicate 6 lossSnapshot)).counted 6 hsix
  have hone : (closings (recordedDay readers) (List.replicate 6 lossSnapshot)).map (loses readers) =
      [true] := by
    decide
  have hlength := hrun.found.length_le
  rw [hone] at hlength
  exact absurd hlength (by decide)

end StockQuant.LossDays
