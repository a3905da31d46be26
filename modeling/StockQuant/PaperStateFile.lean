import StockQuant.EquityTracker
import StockQuant.PaperController

namespace StockQuant.PaperStateFile

open StockQuant Clock Machine EquityTracker PyValue PaperController

/-- What `EquityTracker` keeps in its file. -/
structure SavedTracker extends EquityTrackerState where
  baselineAtIso : String
  deriving DecidableEq, Repr

/-- `asdict` of the state, as `save` writes it. -/
def trackerJson (s : SavedTracker) : Value :=
  .obj [("baseline_equity", .float (.fin s.baselineEquity)),
    ("baseline_at_iso", .str s.baselineAtIso), ("day_key_kst", .str s.dayKeyKst),
    ("day_open_equity", .float (.fin s.dayOpenEquity))]

/-- `float(raw[key])` and `str(raw[key])`; a missing key and a value that is no number raise. -/
def rawFloat (py : Readers) (raw : Dict) (key : String) : Option ℚ :=
  match (raw.lookup key).map (Value.toFloat py) with
  | some (.ok (.fin q)) => some q
  | _ => none

def rawText (py : Readers) (raw : Dict) (key : String) : Option String :=
  (raw.lookup key).map fun
    | .str s => s
    | v => py.repr v

/-- `load`, where a file that is missing or raises makes the tracker start fresh. -/
def trackerLoad (py : Readers) (file : File) : Option SavedTracker :=
  match file with
  | some (.obj raw) => do
    let baseline ← rawFloat py raw "baseline_equity"
    let iso ← rawText py raw "baseline_at_iso"
    let day ← rawText py raw "day_key_kst"
    let dayOpen ← rawFloat py raw "day_open_equity"
    return ⟨⟨baseline, day, dayOpen⟩, iso⟩
  | _ => none

/-- A call of `pnl_snapshot`. -/
structure SnapshotCall where
  now : Instant
  nowIso : String
  equity : ℚ
  valid : Bool := true
  deriving DecidableEq, Repr

/-- What the call saves, if it does. -/
def snapshotSave (state : Option SavedTracker) (call : SnapshotCall) : Option SavedTracker :=
  if !call.valid then none
  else
    match state with
    | none => some ⟨⟨call.equity, kstDate call.now, call.equity⟩, call.nowIso⟩
    | some loaded =>
      if loaded.dayKeyKst = kstDate call.now then none
      else some { loaded with dayKeyKst := kstDate call.now, dayOpenEquity := call.equity }

/-- What a controller reads of its file. -/
structure Desired where
  desiredRunning : Bool
  userId : Option String
  strategyId : Option String
  paperMarket : String
  startedAtUtc : Option String
  deriving DecidableEq, Repr

/-- `_load_desired_state` of a new domestic controller. -/
def desiredOf (py : Readers) (file : File) : Desired :=
  let c := Controller.loadDesiredState py
    { slot := .domestic, paperMarket := Slot.domestic.text, file := file }
  ⟨c.session.desiredRunning, c.session.userId, c.session.strategyId, c.paperMarket,
    c.startedAtUtc⟩

/-- The working directory, and the home directory of each user, `""` being the one who runs. -/
structure Os where
  cwd : String
  home : String → String

/-- `Path.expanduser`. -/
def expanduser (os : Os) (path : String) : String :=
  match path.toList with
  | '~' :: rest =>
    os.home (String.ofList (rest.takeWhile (· != '/'))) ++
      String.ofList (rest.dropWhile (· != '/'))
  | _ => path

/-- The file that a path names. -/
def absolute (os : Os) (path : String) : String :=
  if Text.startsWith "/" path then path else os.cwd ++ "/" ++ path

/-- The tracker of `_build_jobs` takes `paper_session_state_path` as it is. -/
def trackerPath (os : Os) (path : String) : String := absolute os path

def controllerPath (os : Os) (path : String) : String := absolute os (expanduser os path)

inductive Writer
  | tracker
  | controller
  deriving DecidableEq, Repr

/-- The files, the save that a snapshot has come to, and what the code does not keep: what the
tracker and the controller saved last, and which of them last wrote a file. -/
structure World where
  disk : String → File
  pending : Option SavedTracker := none
  saved : Option SavedTracker
  desired : File
  lastWriter : Option Writer := none

/-- A snapshot loads, or saves what it has come to; the controller saves its desired state, with
the fields it has then, clears it or loads it. -/
inductive Op
  | snapshot (call : SnapshotCall)
  | save (c : Controller) (now : String)
  | clear
  | load

def World.write (w : World) (path : String) (file : File) (writer : Writer) : World :=
  { w with disk := Function.update w.disk path file, lastWriter := some writer }

def step (py : Readers) (os : Os) (path : String) (w : World) : Op → World
  | .snapshot call =>
    match w.pending with
    | some s =>
      { w.write (trackerPath os path) (some (trackerJson s)) .tracker with
        pending := none, saved := some s }
    | none =>
      { w with pending := snapshotSave (trackerLoad py (w.disk (trackerPath os path))) call }
  | .save c now =>
    let file : File := some (.obj (c.stateSnapshot now))
    { w.write (controllerPath os path) file .controller with desired := file }
  | .clear => { w.write (controllerPath os path) none .controller with desired := none }
  | .load => w

/-- Before anything is saved, the files hold what was saved last. -/
def start (py : Readers) (os : Os) (path : String) (disk : String → File) : World where
  disk := disk
  saved := trackerLoad py (disk (trackerPath os path))
  desired := disk (controllerPath os path)

/-- What is loaded is what was saved last: by the tracker its state, and by the controller its
record. -/
def ReturnsOwn (py : Readers) (os : Os) (path : String) (w : World) : Op → Prop
  | .snapshot _ =>
    w.pending = none → trackerLoad py (w.disk (trackerPath os path)) = w.saved
  | .load => desiredOf py (w.disk (controllerPath os path)) = desiredOf py w.desired
  | .save .. | .clear => True

/-- The two paths differ, or a load comes after a write of the same component, or of none, unless
there is nothing of its own to lose. -/
def Undisturbed (py : Readers) (os : Os) (path : String) (w : World) (op : Op) : Prop :=
  trackerPath os path = controllerPath os path →
    match op with
    | .snapshot _ => w.pending = none → w.lastWriter = some .controller → w.saved = none
    | .load => w.lastWriter = some .tracker → desiredOf py w.desired = desiredOf py none
    | .save .. | .clear => True

section Records

/-- What a call saves is the state that `pnl_snapshot` ends with. -/
theorem snapshotSave_eq (state : Option SavedTracker) (call : SnapshotCall) :
    ((snapshotSave state call).or state).map SavedTracker.toEquityTrackerState =
      (pnlSnapshot (state.map SavedTracker.toEquityTrackerState) call.now call.equity
        call.valid).2 := by
  unfold snapshotSave pnlSnapshot
  cases call.valid with
  | false => cases state <;> rfl
  | true =>
    cases state with
    | none => rfl
    | some loaded =>
      by_cases hsame : loaded.dayKeyKst = kstDate call.now
      · simp [rollDay, hsame]
      · simp [rollDay, hsame]

theorem trackerLoad_json (py : Readers) (s : SavedTracker) :
    trackerLoad py (some (trackerJson s)) = some s := by
  obtain ⟨⟨baseline, day, dayOpen⟩, iso⟩ := s
  rfl

/-- A tracker makes nothing of the record of a controller. -/
theorem trackerLoad_snapshot (py : Readers) (c : Controller) (now : String) :
    trackerLoad py (some (.obj (c.stateSnapshot now))) = none := rfl

/-- A controller reads the record of a tracker as if there were no file. -/
theorem desiredOf_json (py : Readers) (s : SavedTracker) :
    desiredOf py (some (trackerJson s)) = desiredOf py none := by
  have hempty : Text.strip "" = "" := by decide
  have hmarket : Text.lower (Text.strip "domestic") = "domestic" := by decide
  have hget (key : String) (hkey : key ∉ ["baseline_equity", "baseline_at_iso", "day_key_kst",
      "day_open_equity"]) : Dict.get [("baseline_equity", .float (.fin s.baselineEquity)),
        ("baseline_at_iso", .str s.baselineAtIso), ("day_key_kst", .str s.dayKeyKst),
        ("day_open_equity", .float (.fin s.dayOpenEquity))] key = .null := by
    rw [Dict.get, List.lookup_eq_none_iff.mpr (by simpa using hkey)]
    rfl
  simp [desiredOf, Controller.loadDesiredState, trackerJson, savedText, hget, Value.truthy,
    Value.textOrEmpty, hempty, PaperSession.textOr, hmarket, Slot.text]

end Records

/-- Who has not written a shared file last finds nothing of its own in it. -/
structure Inv (py : Readers) (os : Os) (path : String) (w : World) : Prop where
  tracker : trackerPath os path ≠ controllerPath os path ∨ w.lastWriter ≠ some .controller →
    trackerLoad py (w.disk (trackerPath os path)) = w.saved
  controller : trackerPath os path ≠ controllerPath os path ∨ w.lastWriter ≠ some .tracker →
    w.disk (controllerPath os path) = w.desired
  trackerForeign : trackerPath os path = controllerPath os path →
    w.lastWriter = some .controller → trackerLoad py (w.disk (trackerPath os path)) = none
  controllerForeign : trackerPath os path = controllerPath os path →
    w.lastWriter = some .tracker →
      desiredOf py (w.disk (controllerPath os path)) = desiredOf py none

section Runs

variable {py : Readers} {os : Os} {path : String} {w : World}

theorem inv_start (py : Readers) (os : Os) (path : String) (disk : String → File) :
    Inv py os path (start py os path disk) where
  tracker _ := rfl
  controller _ := rfl
  trackerForeign _ h := by cases h
  controllerForeign _ h := by cases h

/-- The tracker saves a state. -/
theorem inv_trackerWrite (h : Inv py os path w) (s : SavedTracker) :
    Inv py os path { w.write (trackerPath os path) (some (trackerJson s)) .tracker with
      pending := none, saved := some s } where
  tracker _ := by
    simp only [World.write, Function.update_self]
    exact trackerLoad_json py s
  controller hdiff := by
    obtain hdiff | hwriter := hdiff
    · simp only [World.write, Function.update_of_ne hdiff.symm]
      exact h.controller (.inl hdiff)
    · exact absurd rfl hwriter
  trackerForeign _ hwriter := by cases hwriter
  controllerForeign hsame _ := by
    simp only [World.write, hsame, Function.update_self]
    exact desiredOf_json py s

/-- The controller saves or clears its record. -/
theorem inv_controllerWrite (h : Inv py os path w) {file : File}
    (hfile : trackerLoad py file = none) :
    Inv py os path { w.write (controllerPath os path) file .controller with desired := file } where
  tracker hdiff := by
    obtain hdiff | hwriter := hdiff
    · simp only [World.write, Function.update_of_ne hdiff]
      exact h.tracker (.inl hdiff)
    · exact absurd rfl hwriter
  controller _ := by simp only [World.write, Function.update_self]
  trackerForeign hsame _ := by
    simp only [World.write, hsame, Function.update_self]
    exact hfile
  controllerForeign _ hwriter := by cases hwriter

theorem inv_step (h : Inv py os path w) (op : Op) : Inv py os path (step py os path w op) := by
  cases op with
  | snapshot call =>
    rw [step]
    split
    · next s _ => exact inv_trackerWrite h s
    · exact ⟨h.tracker, h.controller, h.trackerForeign, h.controllerForeign⟩
  | save c now => exact inv_controllerWrite h (trackerLoad_snapshot py c now)
  | clear => exact inv_controllerWrite h rfl
  | load => exact h

theorem inv_run (py : Readers) (os : Os) (path : String) (disk : String → File) (ops : List Op) :
    Inv py os path (run (step py os path) (start py os path disk) ops) := by
  have hstep (w : World) (op : Op) (h : Inv py os path w) (_ : True) :
      Inv py os path (step py os path w op) := inv_step h op
  exact run_invariant hstep (inv_start py os path disk) fun _ _ => trivial

/-- What another's write leaves to be read is one's own only if one has saved nothing. -/
theorem returnsOwn_iff (h : Inv py os path w) (op : Op) :
    ReturnsOwn py os path w op ↔ Undisturbed py os path w op := by
  cases op with
  | snapshot call =>
    constructor
    · intro hreturns hsame hpending hwriter
      rw [← hreturns hpending]
      exact h.trackerForeign hsame hwriter
    · intro hundisturbed hpending
      by_cases hsame : trackerPath os path = controllerPath os path
      · by_cases hwriter : w.lastWriter = some .controller
        · rw [h.trackerForeign hsame hwriter, hundisturbed hsame hpending hwriter]
        · exact h.tracker (.inr hwriter)
      · exact h.tracker (.inl hsame)
  | load =>
    constructor
    · intro hreturns hsame hwriter
      have hloads : desiredOf py (w.disk (controllerPath os path)) = desiredOf py w.desired :=
        hreturns
      rw [← hloads]
      exact h.controllerForeign hsame hwriter
    · intro hundisturbed
      change desiredOf py (w.disk (controllerPath os path)) = desiredOf py w.desired
      by_cases hsame : trackerPath os path = controllerPath os path
      · by_cases hwriter : w.lastWriter = some .tracker
        · have hblank : desiredOf py w.desired = desiredOf py none := hundisturbed hsame hwriter
          rw [h.controllerForeign hsame hwriter, hblank]
        · rw [h.controller (.inr hwriter)]
      · rw [h.controller (.inl hsame)]
  | save c now => exact iff_of_true trivial fun _ => trivial
  | clear => exact iff_of_true trivial fun _ => trivial

end Runs

/-- Every load returns what its own component has saved last exactly when the two paths differ
or the other component has not written since, as far as there is something to lose. -/
theorem loads_return_own_iff (py : Readers) (os : Os) (path : String) (disk : String → File)
    (ops : List Op) :
    (∀ v ∈ visits (step py os path) (start py os path disk) ops, ReturnsOwn py os path v.1 v.2) ↔
      ∀ v ∈ visits (step py os path) (start py os path disk) ops,
        Undisturbed py os path v.1 v.2 := by
  have hkeep (w : World) (op : Op) (h : Inv py os path w) (_ : ReturnsOwn py os path w op) :
      Inv py os path (step py os path w op) := inv_step h op
  exact visits_iff (fun w op h => returnsOwn_iff h op) hkeep (inv_start py os path disk) ops

def server : Os := ⟨"/srv/app", fun _ => "/root"⟩

/-- The tracker takes its baseline and saves it, and the controller saves a session. -/
def opening : List Op :=
  [.snapshot ⟨0, "09:00", 1000000, true⟩, .snapshot ⟨0, "09:00", 1000000, true⟩,
    .save { slot := .domestic, paperMarket := "domestic" } "09:01"]

/-- The next snapshot finds the record of the session and starts fresh. -/
theorem baseline_lost : ¬∀ (py : Readers) (os : Os) (path : String) (disk : String → File)
    (ops : List Op), ∀ v ∈ visits (step py os path) (start py os path disk) ops,
      ReturnsOwn py os path v.1 v.2 := by
  intro h
  let py : Readers := ⟨fun _ => none, fun _ => none, fun _ => none, fun _ => "", rfl⟩
  let path := "data/paper_trading_session.json"
  let w := run (step py server path) (start py server path fun _ => none) opening
  let op := Op.snapshot ⟨0, "09:02", 900000, true⟩
  have hlast : (w, op) ∈ visits (step py server path) (start py server path fun _ => none)
      (opening ++ [op]) := by
    rw [visits_append]
    exact List.mem_append_right _ (List.mem_singleton.mpr rfl)
  have hload : trackerLoad py (w.disk (trackerPath server path)) = w.saved :=
    h py server path (fun _ => none) (opening ++ [op]) _ hlast rfl
  have hlost : trackerLoad py (w.disk (trackerPath server path)) = none :=
    (inv_run py server path (fun _ => none) opening).trackerForeign (by decide) rfl
  have hsaved : w.saved = some ⟨⟨1000000, kstDate 0, 1000000⟩, "09:00"⟩ := rfl
  rw [hlost, hsaved] at hload
  cases hload

end StockQuant.PaperStateFile
