import Mathlib.Algebra.Order.Field.Rat
import StockQuant.EquityTracker
import StockQuant.FirstReadings
import StockQuant.KstDays
import StockQuant.Machine

namespace StockQuant.EquityRuns

open StockQuant Clock KstDays EquityTracker FirstReadings Machine

/-- The file of the tracker, and the state that its object keeps. -/
structure TrackerWorld where
  file : Option EquityTrackerState := none
  state : Option EquityTrackerState := none
  deriving DecidableEq, Repr

/-- One call of `pnl_snapshot`, on a new tracker object or on the one of the call before. -/
structure SnapshotCall where
  fresh : Bool
  now : Instant
  equity : ℚ
  valid : Bool := true

def load (w : TrackerWorld) : TrackerWorld := { w with state := w.file }

def save (w : TrackerWorld) : TrackerWorld :=
  match w.state with
  | none => w
  | some state => { w with file := some state }

def snapshotCall (w : TrackerWorld) (c : SnapshotCall) : PnlSnapshot × TrackerWorld :=
  let w := load (if c.fresh then { w with state := none } else w)
  let today := kstDate c.now
  if !c.valid then (⟨0, 0⟩, w)
  else
    match w.state with
    | none => (⟨0, 0⟩, save { w with state := some ⟨c.equity, today, c.equity⟩ })
    | some state =>
      let rolled := rollDay state today c.equity
      let w := if state.dayKeyKst = today then w else save { w with state := some rolled }
      let dayOpen := if 0 < rolled.dayOpenEquity then rolled.dayOpenEquity else 1
      let base := if 0 < rolled.baselineEquity then rolled.baselineEquity else 1
      (⟨(c.equity / dayOpen - 1) * 100, (c.equity / base - 1) * 100⟩, w)

def step (w : TrackerWorld) (c : SnapshotCall) : TrackerWorld := (snapshotCall w c).2

/-- The valid equities, each with its day in Korea. -/
def readings (calls : List SnapshotCall) : List (Int × ℚ) :=
  (calls.filter SnapshotCall.valid).map fun c => (kstDay c.now, c.equity)

/-- The object makes no difference: a call is what `pnl_snapshot` makes of the file. -/
theorem snapshotCall_eq (w : TrackerWorld) (c : SnapshotCall) :
    (snapshotCall w c).1 = (pnlSnapshot w.file c.now c.equity c.valid).1 ∧
      (step w c).file = (pnlSnapshot w.file c.now c.equity c.valid).2 := by
  have hload : load (if c.fresh then { w with state := none } else w) = ⟨w.file, w.file⟩ := by
    unfold load
    split <;> rfl
  unfold step snapshotCall pnlSnapshot
  rw [hload]
  cases c.valid with
  | false => exact ⟨rfl, rfl⟩
  | true =>
    cases hfile : w.file with
    | none => exact ⟨rfl, rfl⟩
    | some state =>
      refine ⟨rfl, ?_⟩
      dsimp only
      by_cases hsame : state.dayKeyKst = kstDate c.now
      · rw [if_pos hsame, rollDay, if_pos hsame]
        rfl
      · rw [if_neg hsame]
        rfl

/-- What is returned is the change from the equities that the file then holds. -/
theorem pnlSnapshot_changes {file : Option EquityTrackerState} {now : Instant} {equity : ℚ}
    {state : EquityTrackerState} (hfile : (pnlSnapshot file now equity true).2 = some state)
    (hopen : 0 < state.dayOpenEquity) (hbase : 0 < state.baselineEquity) :
    (pnlSnapshot file now equity true).1 =
      ⟨(equity / state.dayOpenEquity - 1) * 100, (equity / state.baselineEquity - 1) * 100⟩ := by
  cases file with
  | none =>
    cases hfile
    have hself : equity / equity = 1 := div_self hbase.ne'
    simp [pnlSnapshot, hself]
  | some loaded =>
    cases hfile
    simp only [pnlSnapshot, Bool.not_true, Bool.false_eq_true, if_false, if_pos hopen, if_pos hbase]

/-- The file says what a baseline does. -/
def Persists : Option (Baseline Int ℚ) → Option EquityTrackerState → Prop
  | none, file => file = none
  | some b, file => ∃ t, kstDay t = b.period ∧ file = some ⟨b.first, kstDate t, b.opening⟩

section Run

variable {calls : List SnapshotCall} {c : SnapshotCall} {w : TrackerWorld}
  {s : Option (Baseline Int ℚ)}

theorem readings_valid (h : c.valid = true) :
    readings (calls ++ [c]) = readings calls ++ [(kstDay c.now, c.equity)] := by
  simp [readings, h]

theorem readings_invalid (h : c.valid = false) : readings (calls ++ [c]) = readings calls := by
  simp [readings, h]

/-- A valid call records its equity. -/
theorem persists_valid (hvalid : c.valid = true) (h : Persists s w.file) :
    Persists (some (record s (kstDay c.now, c.equity))) (step w c).file := by
  rw [(snapshotCall_eq w c).2, hvalid]
  cases s with
  | none =>
    have hfile : w.file = none := h
    rw [hfile]
    exact ⟨c.now, rfl, rfl⟩
  | some b =>
    obtain ⟨t, hday, hfile⟩ := h
    have hkey : kstDate t = kstDate c.now ↔ b.period = kstDay c.now := by
      rw [kstDate_eq_iff, hday]
    rw [hfile]
    simp only [pnlSnapshot, rollDay, record, Bool.not_true, Bool.false_eq_true, if_false]
    by_cases hsame : b.period = kstDay c.now
    · rw [if_pos (hkey.mpr hsame), if_pos hsame]
      exact ⟨t, hday, rfl⟩
    · rw [if_neg (hkey.not.mpr hsame), if_neg hsame]
      exact ⟨c.now, rfl, rfl⟩

theorem file_invalid (hvalid : c.valid = false) : (step w c).file = w.file := by
  rw [(snapshotCall_eq w c).2, hvalid]
  rfl

/-- After a run of calls the file says what the valid equities make of a baseline. -/
theorem persists_run (hw : w.file = none) (calls : List SnapshotCall) :
    Persists (recordAll (readings calls)) (run step w calls).file := by
  induction calls using List.reverseRecOn with
  | nil => exact hw
  | append_singleton calls c ih =>
    rw [run_append]
    change Persists _ (step (run step w calls) c).file
    cases hvalid : c.valid with
    | false =>
      rw [readings_invalid hvalid, file_invalid hvalid]
      exact ih
    | true =>
      rw [readings_valid hvalid, recordAll, List.foldl_append]
      exact persists_valid hvalid ih

theorem days_readings (h : (calls.map fun c => kstDay c.now).Pairwise (· ≤ ·)) :
    ((readings calls).map Prod.fst).Pairwise (· ≤ ·) := by
  have hdays : (readings calls).map Prod.fst =
      (calls.filter SnapshotCall.valid).map fun c => kstDay c.now := by
    rw [readings, List.map_map]
    rfl
  rw [hdays]
  exact h.sublist (List.filter_sublist.map _)

theorem positive_readings (h : ∀ c ∈ calls, c.valid = true → 0 < c.equity) :
    ∀ r ∈ readings calls, 0 < r.2 := by
  intro r hr
  obtain ⟨c, hc, rfl⟩ := List.mem_map.mp hr
  obtain ⟨hmem, hvalid⟩ := List.mem_filter.mp hc
  exact h c hmem hvalid

end Run

/-- On a file that was absent, a valid call returns the changes from the first valid equity of
its day and from the first one of all; an invalid call returns zeros and keeps the file. -/
theorem snapshots_since_first (w : TrackerWorld) (calls : List SnapshotCall)
    (hw : w.file = none)
    (hdays : (calls.map fun c => kstDay c.now).Pairwise (· ≤ ·))
    (hpos : ∀ c ∈ calls, c.valid = true → 0 < c.equity)
    (before : List SnapshotCall) (c : SnapshotCall) (after : List SnapshotCall)
    (hsplit : calls = before ++ c :: after) :
    (c.valid = true →
      ∃ first opening, firstOf (readings (before ++ [c])) = some first ∧
        firstIn (kstDay c.now) (readings (before ++ [c])) = some opening ∧
        (snapshotCall (run step w before) c).1 =
          ⟨(c.equity / opening - 1) * 100, (c.equity / first - 1) * 100⟩) ∧
      (c.valid = false →
        (snapshotCall (run step w before) c).1 = ⟨0, 0⟩ ∧
          (step (run step w before) c).file = (run step w before).file) := by
  have hsub : (before ++ [c]).Sublist calls := by
    rw [hsplit, List.append_cons before c after]
    exact List.sublist_append_left _ _
  constructor
  · intro hvalid
    have hsorted := days_readings (hdays.sublist (hsub.map fun c => kstDay c.now))
    have hpositive := positive_readings fun c' hc' => hpos c' (hsub.subset hc')
    have hsnoc : recordAll (readings (before ++ [c])) =
        some (record (recordAll (readings before)) (kstDay c.now, c.equity)) := by
      rw [readings_valid hvalid, recordAll, List.foldl_append]
      rfl
    have htracks := recordAll_tracks hsorted
    have hpersists := persists_run hw (before ++ [c])
    rw [hsnoc] at htracks hpersists
    obtain ⟨hfirst, hopening, -⟩ := htracks
    obtain ⟨t, -, hfile⟩ := hpersists
    rw [record_period] at hopening
    rw [run_append] at hfile
    change (step (run step w before) c).file = _ at hfile
    rw [(snapshotCall_eq _ c).2, hvalid] at hfile
    refine ⟨_, _, hfirst, hopening, ?_⟩
    rw [(snapshotCall_eq _ c).1, hvalid]
    obtain ⟨r, hr, hrfirst⟩ := firstOf_mem hfirst
    obtain ⟨r', hr', hropening⟩ := firstIn_mem hopening
    exact pnlSnapshot_changes hfile (hropening ▸ hpositive r' hr') (hrfirst ▸ hpositive r hr)
  · intro hvalid
    refine ⟨?_, file_invalid hvalid⟩
    rw [(snapshotCall_eq _ c).1, hvalid]
    rfl

/-- Two days with a reading that does not count between them. -/
theorem snapshots_since_first_twoDays :
    (snapshotCall (run step {} [⟨true, 0, 1000, true⟩, ⟨false, microsPerDay, 0, false⟩,
        ⟨true, microsPerDay, 800, true⟩]) ⟨false, microsPerDay, 900, true⟩).1 =
      ⟨(900 / 800 - 1) * 100, (900 / 1000 - 1) * 100⟩ := by
  obtain ⟨first, opening, hfirst, hopening, hresult⟩ :=
    (snapshots_since_first {} [⟨true, 0, 1000, true⟩, ⟨false, microsPerDay, 0, false⟩,
      ⟨true, microsPerDay, 800, true⟩, ⟨false, microsPerDay, 900, true⟩] rfl (by decide)
      (by decide) [_, _, _] _ [] rfl).1 rfl
  have hone : firstOf (readings [⟨true, 0, 1000, true⟩, ⟨false, microsPerDay, 0, false⟩,
      ⟨true, microsPerDay, 800, true⟩, ⟨false, microsPerDay, 900, true⟩]) = some 1000 := by decide
  have htwo : firstIn (kstDay microsPerDay) (readings [⟨true, 0, 1000, true⟩,
      ⟨false, microsPerDay, 0, false⟩, ⟨true, microsPerDay, 800, true⟩,
      ⟨false, microsPerDay, 900, true⟩]) = some 800 := by decide
  obtain rfl := Option.some.inj (hone.symm.trans hfirst)
  obtain rfl := Option.some.inj (htwo.symm.trans hopening)
  exact hresult

end StockQuant.EquityRuns
