import StockQuant.AgedRows
import StockQuant.CandidateRows

namespace StockQuant.CandidateRetention

open StockQuant Machine Clock LivePrep LiveDesk CarryRecords ManualApproval CandidateRows

/-- `LiveCandidateStore.upsert` of a store of so many records. -/
def upsertWithin (maxRecords : Nat) (cand : LiveCandidate) (rows : List LiveCandidate) :
    List LiveCandidate :=
  let rows := (replaceRow cand rows).getD (rows ++ [cand])
  rows.drop (rows.length - maxRecords)

theorem upsert_eq (cand : LiveCandidate) (rows : List LiveCandidate) :
    upsert cand rows = upsertWithin maxRecords cand rows := rfl

theorem place_eq (cand : LiveCandidate) (rows : List LiveCandidate) :
    (replaceRow cand rows).getD (rows ++ [cand]) =
      AgedRows.place LiveCandidate.candidateId cand rows := by
  induction rows with
  | nil => rfl
  | cons r rows ih =>
    rw [replaceRow, AgedRows.place]
    split
    · rfl
    · rw [← ih]
      cases replaceRow cand rows <;> rfl

/-- The candidates are aged rows under their ids. -/
theorem upsertWithin_eq (n : Nat) (cand : LiveCandidate) (rows : List LiveCandidate) :
    upsertWithin n cand rows = AgedRows.put LiveCandidate.candidateId n rows cand := by
  rw [upsertWithin, place_eq]
  rfl

structure CandidateStore where
  maxRecords : Nat := 500
  maxRecords_pos : 0 < maxRecords := by decide
  rows : List LiveCandidate
  bounded : rows.length ≤ maxRecords
  distinct : (rows.map LiveCandidate.candidateId).Nodup

def CandidateStore.empty : CandidateStore where
  rows := []
  bounded := by decide
  distinct := List.nodup_nil

def CandidateStore.ids (store : CandidateStore) : List String :=
  store.rows.map LiveCandidate.candidateId

def CandidateStore.upsert (store : CandidateStore) (cand : LiveCandidate) : CandidateStore where
  maxRecords := store.maxRecords
  maxRecords_pos := store.maxRecords_pos
  rows := upsertWithin store.maxRecords cand store.rows
  bounded := by
    rw [upsertWithin_eq]
    exact AgedRows.put_length _ _
  distinct := by
    rw [upsertWithin_eq]
    exact AgedRows.put_nodup store.distinct cand

/-- The ids that a run adds as new rows: those the store does not hold when they come. -/
def insertions (store : CandidateStore) (cs : List LiveCandidate) : List String :=
  (visits CandidateStore.upsert store cs).filterMap fun v =>
    if v.2.candidateId ∈ v.1.ids then none else some v.2.candidateId

/-- The row `r` is not in the store any more once `cand` is upserted. -/
def Drops (store : CandidateStore) (cand r : LiveCandidate) : Prop :=
  r ∈ store.rows ∧ r.candidateId ∉ (store.upsert cand).ids

/-- What the duplicate guard of a submit looks through. -/
def guarded (created : String → Instant) (store : CandidateStore) (symbol : String) :
    List LiveCandidate :=
  listFiltered { symbol := some symbol, limit := 500 } created store.rows

/-- The store stays within its bound with one row an id, drops no approved or submitted candidate
while it keeps one that is neither decided nor wanted, and shows the guard what was submitted. -/
structure NeverForgets (store : CandidateStore) (cs : List LiveCandidate)
    (created : String → Instant) : Prop where
  bounded : (run CandidateStore.upsert store cs).rows.length ≤ store.maxRecords
  distinct : (run CandidateStore.upsert store cs).ids.Nodup
  kept : ∀ v ∈ visits CandidateStore.upsert store cs, ∀ r, Drops v.1 v.2 r →
    r.status = .approved ∨ r.status = .submitted →
      ∀ r' ∈ (v.1.upsert v.2).rows, r'.status ≠ .candidate ∧ r'.status ≠ .rejected
  guard : ∀ before r after, cs = before ++ r :: after → r.status = .submitted →
    (∀ r' ∈ after, r'.candidateId ≠ r.candidateId) →
      r ∈ guarded created (run CandidateStore.upsert store cs) r.symbol

/-- The same, with rows kept by their age: the ids in the store are the last ones inserted, a row
is dropped only by a new id that comes to a full store, as the oldest one there, and the guard
sees every row of the symbol that is in the store. -/
structure KeepsNewest (store : CandidateStore) (cs : List LiveCandidate)
    (created : String → Instant) : Prop where
  bounded : (run CandidateStore.upsert store cs).rows.length ≤ store.maxRecords
  distinct : (run CandidateStore.upsert store cs).ids.Nodup
  newest : (run CandidateStore.upsert store cs).ids =
    (store.ids ++ insertions store cs).rtake store.maxRecords
  oldest : ∀ v ∈ visits CandidateStore.upsert store cs, ∀ r, Drops v.1 v.2 r →
    v.2.candidateId ∉ v.1.ids ∧ v.1.rows.length = store.maxRecords ∧
      v.1.rows.head? = some r ∧ (v.1.upsert v.2).rows = v.1.rows.tail ++ [v.2]
  guard : store.maxRecords ≤ 500 → ∀ symbol r,
    r ∈ guarded created (run CandidateStore.upsert store cs) symbol ↔
      r ∈ (run CandidateStore.upsert store cs).rows ∧ r.symbol = symbol

section Run

variable {store : CandidateStore} {cs : List LiveCandidate}

theorem put_upsert {n : Nat} (store : CandidateStore) (cand : LiveCandidate)
    (h : store.maxRecords = n) :
    AgedRows.put LiveCandidate.candidateId n store.rows cand = (store.upsert cand).rows := by
  rw [← h]
  exact (upsertWithin_eq _ _ _).symm

theorem run_rows (store : CandidateStore) (cs : List LiveCandidate) :
    run (AgedRows.put LiveCandidate.candidateId store.maxRecords) store.rows cs =
      (run CandidateStore.upsert store cs).rows := by
  have hrun := run_map (g := id) put_upsert (fun s _ hs => hs) (rfl : store.maxRecords = _) cs
  rwa [List.map_id] at hrun

theorem insertions_eq (store : CandidateStore) (cs : List LiveCandidate) :
    insertions store cs =
      AgedRows.insertions LiveCandidate.candidateId store.maxRecords store.rows cs := by
  have hvisits := visits_map (g := id) put_upsert (fun s _ hs => hs)
    (rfl : store.maxRecords = _) cs
  rw [List.map_id] at hvisits
  rw [insertions, AgedRows.insertions, hvisits, List.filterMap_map]
  rfl

theorem visit_maxRecords {v : CandidateStore × LiveCandidate}
    (hv : v ∈ visits CandidateStore.upsert store cs) : v.1.maxRecords = store.maxRecords := by
  have hkeep (s : CandidateStore) (cand : LiveCandidate) (hs : s.maxRecords = store.maxRecords)
      (_ : True) : (s.upsert cand).maxRecords = store.maxRecords := hs
  exact visits_invariant hkeep rfl (fun _ _ => trivial) v hv

theorem run_maxRecords (store : CandidateStore) (cs : List LiveCandidate) :
    (run CandidateStore.upsert store cs).maxRecords = store.maxRecords := by
  induction cs using List.reverseRecOn with
  | nil => rfl
  | append_singleton cs c ih =>
    rw [run_append]
    exact ih

/-- Candidates of new ids are appended while there is room. -/
theorem run_fresh (hnew : ((store.rows ++ cs).map LiveCandidate.candidateId).Nodup)
    (hroom : store.rows.length + cs.length ≤ store.maxRecords) :
    (run CandidateStore.upsert store cs).rows = store.rows ++ cs := by
  rw [← run_rows]
  exact AgedRows.run_fresh hnew hroom

theorem store_keepsNewest (store : CandidateStore) (cs : List LiveCandidate)
    (created : String → Instant) : KeepsNewest store cs created where
  bounded := by
    rw [← run_rows]
    exact AgedRows.run_length store.bounded cs
  distinct := (run CandidateStore.upsert store cs).distinct
  newest := by
    rw [CandidateStore.ids, ← run_rows, insertions_eq]
    exact AgedRows.run_keys store.bounded cs
  oldest := by
    intro v hv r hdrop
    have hmax := visit_maxRecords hv
    obtain ⟨hmem, hout⟩ := hdrop
    rw [CandidateStore.ids, ← put_upsert v.1 v.2 hmax] at hout
    rw [← put_upsert v.1 v.2 hmax]
    exact AgedRows.drops_first (hmax ▸ v.1.bounded) ⟨hmem, hout⟩
  guard := by
    intro hmax symbol r
    have hroom : (run CandidateStore.upsert store cs).rows.length ≤ maxRecords := by
      rw [← run_rows]
      exact (AgedRows.run_length store.bounded cs).trans hmax
    rw [guarded, mem_listFiltered rfl hroom]
    simp [ListFilter.admits]

end Run

section Requests

/-- The candidates that a request upserts. -/
def upserts (cfg : FlowConfig) (w : Shared) : Action → List LiveCandidate
  | .tick userId session env drawn =>
    if session.any fun session => session.strategyId == "final_betting_v1" then
      (passCandidates cfg w userId env 5 drawn).toOption.getD []
    else []
  | .generate userId modes env limit drawn =>
    if (requireLivePrepEnabled modes).toOption.isSome then
      (passCandidates cfg w userId env limit drawn).toOption.getD []
    else []
  | .list .. => []
  | .approve candidateId req =>
    if (requireLivePrepEnabled req.modes).toOption.isSome then
      ((get candidateId w.rows).bind fun cand => (approveCandidate req cand).toOption).toList
    else []
  | .reject candidateId req =>
    if (requireLivePrepEnabled req.modes).toOption.isSome then
      ((get candidateId w.rows).bind fun cand => (rejectCandidate req cand).toOption).toList
    else []
  | .submit candidateId env req =>
    if (submitGate env req).toOption.isSome then
      ((get candidateId w.rows).bind fun cand =>
        (submitCandidateOrder cfg.prep (submitIn w env cand) req cand).row).toList
    else []

variable {w : Shared}

theorem runPass_rows (cfg : FlowConfig) (w : Shared) (userId : String) (env : DeskEnv)
    (limit : Int) (drawn : Drawn) : (runPass cfg w userId env limit drawn).rows =
      upsertEach ((passCandidates cfg w userId env limit drawn).toOption.getD []) w.rows := by
  unfold runPass
  cases passCandidates cfg w userId env limit drawn <;> rfl

theorem decide_rows (w : Shared) (candidateId : String) (req : CandidateDecisionRequest)
    (decision : CandidateDecisionRequest → LiveCandidate → Except HttpError LiveCandidate) :
    (decideCandidate w candidateId req decision).1.rows = upsertEach
      (if (requireLivePrepEnabled req.modes).toOption.isSome then
        ((get candidateId w.rows).bind fun cand => (decision req cand).toOption).toList
      else []) w.rows := by
  unfold decideCandidate
  cases requireLivePrepEnabled req.modes with
  | error error => rfl
  | ok u =>
    cases get candidateId w.rows with
    | none => rfl
    | some cand =>
      dsimp only [Option.bind_some]
      cases decision req cand <;> simp [Except.toOption, upsertEach]

/-- A request changes the store by its upserts. -/
theorem after_rows (cfg : FlowConfig) (w : Shared) (a : Action) :
    (after cfg w a).rows = upsertEach (upserts cfg w a) w.rows := by
  cases a with
  | tick userId session env drawn =>
    cases session with
    | none => rfl
    | some session =>
      simp only [after, serve, liveExecTick, upserts, Option.any_some]
      split
      · exact runPass_rows cfg w userId env 5 drawn
      · rfl
  | generate userId modes env limit drawn =>
    simp only [after, serve, generateFinalBettingCandidates, upserts]
    cases requireLivePrepEnabled modes with
    | error error => rfl
    | ok u => exact runPass_rows cfg w userId env limit drawn
  | list userId modes f => rfl
  | approve candidateId req => exact decide_rows w candidateId req approveCandidate
  | reject candidateId req => exact decide_rows w candidateId req rejectCandidate
  | submit candidateId env req =>
    simp only [after, serve, submitStored, upserts]
    cases submitGate env req with
    | error error => rfl
    | ok u =>
      cases get candidateId w.rows with
      | none => rfl
      | some cand =>
        dsimp only [Option.bind_some]
        cases (submitCandidateOrder cfg.prep (submitIn w env cand) req cand).row <;>
          simp [Except.toOption, upsertEach]

/-- From an empty store, any requests leave what their upserts leave, so that it keeps the newest
candidates, too. -/
theorem served_rows (cfg : FlowConfig) (w : Shared) (hempty : w.rows = []) (as : List Action) :
    (run (after cfg) w as).rows = (run CandidateStore.upsert .empty
      ((visits (after cfg) w as).flatMap fun v => upserts cfg v.1 v.2)).rows := by
  have hrows (cs : List LiveCandidate) :
      (run CandidateStore.upsert .empty cs).rows = upsertEach cs [] := by
    induction cs using List.reverseRecOn with
    | nil => rfl
    | append_singleton cs c ih =>
      have hlast : (run CandidateStore.upsert .empty (cs ++ [c])).rows =
          upsertWithin (run CandidateStore.upsert .empty cs).maxRecords c
            (run CandidateStore.upsert .empty cs).rows := by
        rw [run_append]
        rfl
      rw [hlast, run_maxRecords, ih, upsertEach, upsertEach, List.foldl_append, List.foldl_cons,
        List.foldl_nil, upsert_eq]
      congr 1
  rw [hrows]
  induction as using List.reverseRecOn with
  | nil => exact hempty
  | append_singleton as a ih =>
    rw [run_append, visits_append, List.flatMap_append, upsertEach, List.foldl_append]
    change (after cfg (run (after cfg) w as) a).rows = _
    rw [after_rows, ih]
    simp only [visits, List.flatMap_cons, List.flatMap_nil, List.append_nil]
    rfl

end Requests

def candidateName (n : Nat) : String := String.ofList (List.replicate n 'x')

def storedCandidate (n : Nat) (status : CandidateStatus) : LiveCandidate where
  candidateId := candidateName n
  status := status
  symbol := "005930"
  side := .buy
  strategyId := "final_betting_v1"

def emptyOf (n : Nat) (hn : 0 < n) : CandidateStore where
  maxRecords := n
  maxRecords_pos := hn
  rows := []
  bounded := hn.le
  distinct := List.nodup_nil

/-- A submitted candidate, and after it `n - 1` candidates that ticks generated. -/
def submittedThenTicks (n : Nat) : List LiveCandidate :=
  (List.range n).map fun k => storedCandidate k (if k = 0 then .submitted else .candidate)

theorem candidateName_injective : Function.Injective candidateName := by
  intro m n h
  have hlen := congrArg (fun s => s.toList.length) h
  simpa [candidateName] using hlen

theorem submittedThenTicks_ids (n : Nat) :
    (submittedThenTicks n).map LiveCandidate.candidateId = (List.range n).map candidateName := by
  rw [submittedThenTicks, List.map_map]
  rfl

section Full

variable {n : Nat} (hn : 0 < n)

theorem full_rows : (run CandidateStore.upsert (emptyOf n hn) (submittedThenTicks n)).rows =
    submittedThenTicks n := by
  apply run_fresh
  · change ((submittedThenTicks n).map LiveCandidate.candidateId).Nodup
    rw [submittedThenTicks_ids]
    exact List.nodup_range.map candidateName_injective
  · simp [submittedThenTicks, emptyOf]

theorem full_upsert : ((run CandidateStore.upsert (emptyOf n hn) (submittedThenTicks n)).upsert
    (storedCandidate n .candidate)).rows =
      (submittedThenTicks n).tail ++ [storedCandidate n .candidate] := by
  have hnew : candidateName n ∉ (submittedThenTicks n).map LiveCandidate.candidateId := by
    rw [submittedThenTicks_ids, List.mem_map_of_injective candidateName_injective]
    exact List.not_mem_range_self
  have hlength : (submittedThenTicks n).length = n := by simp [submittedThenTicks]
  rw [← put_upsert _ _ (run_maxRecords _ _), full_rows, AgedRows.put_new hnew, List.rtake,
    List.length_append, hlength, List.length_singleton, emptyOf, Nat.add_sub_cancel_left,
    List.drop_append_of_le_length (hlength.symm ▸ hn), List.drop_one]

theorem full_drops : Drops (run CandidateStore.upsert (emptyOf n hn) (submittedThenTicks n))
    (storedCandidate n .candidate) (storedCandidate 0 .submitted) := by
  constructor
  · rw [full_rows]
    exact List.mem_map.mpr ⟨0, List.mem_range.mpr hn, rfl⟩
  · rw [CandidateStore.ids, full_upsert, List.map_append, List.map_tail, submittedThenTicks_ids,
      ← List.map_tail, List.range_eq_range', List.tail_range', List.mem_append, not_or]
    constructor
    · change candidateName 0 ∉ _
      rw [List.mem_map_of_injective candidateName_injective]
      simp
    · change candidateName 0 ∉ [candidateName n]
      rw [List.mem_singleton, candidateName_injective.eq_iff]
      exact hn.ne

end Full

/-- The submitted candidate goes with the next tick, and the candidates nobody decided on stay. -/
theorem submitted_row_dropped {n : Nat} (hn : 2 ≤ n) (created : String → Instant) :
    ¬NeverForgets (emptyOf n (Nat.zero_lt_of_lt hn))
      (submittedThenTicks n ++ [storedCandidate n .candidate]) created := by
  intro h
  have hdrops := full_drops (n := n) (by omega)
  have hkept := h.kept (_, storedCandidate n .candidate)
    (by rw [visits_append]; exact List.mem_append_right _ List.mem_cons_self)
    (storedCandidate 0 .submitted) hdrops (.inr rfl)
  have hlast : storedCandidate n .candidate ∈
      ((run CandidateStore.upsert (emptyOf n (Nat.zero_lt_of_lt hn)) (submittedThenTicks n)).upsert
        (storedCandidate n .candidate)).rows := by
    rw [full_upsert]
    exact List.mem_append_right _ List.mem_cons_self
  exact (hkept _ hlast).1 rfl

theorem submitted_candidate_dropped : ¬NeverForgets (emptyOf 500 (by decide))
    (submittedThenTicks 500 ++ [storedCandidate 500 .candidate]) (fun _ => 0) :=
  submitted_row_dropped (by decide) _

end StockQuant.CandidateRetention
