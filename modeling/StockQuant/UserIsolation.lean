import StockQuant.CandidateRequests
import StockQuant.CandidateRows
import StockQuant.Unwinding

namespace StockQuant.UserIsolation

open StockQuant Clock EquityTracker LivePrep LiveDesk SellOnlyLoop CarryRecords ManualApproval
  CandidateRows

/-- What a user sees of a run: its requests and their answers, with its orders. -/
def view (cfg : FlowConfig) (a : String) (actions : List Action) : List (Action × Reply) :=
  ((Machine.visits (after cfg) {} actions).filter fun v => v.2.userId == a).map fun v =>
    (v.2, reply cfg v.1 v.2)

/-- The runs differ in the requests of the user only. -/
def DifferIn (b : String) (actions actions' : List Action) : Prop :=
  (actions.filter fun e => e.userId != b) = actions'.filter fun e => e.userId != b

/-- A pass for another user than `b` uses another state file, its candidates have identifiers that
were not drawn before, and no row of another user gives way to a row of `b`. -/
def CarefulPass (cfg : FlowConfig) (b : String) (w : Shared) (userId : String) (env : DeskEnv)
    (limit : Int) (drawn : Drawn) : Prop :=
  (userId ≠ b → userTag userId ≠ userTag b) ∧
    ∀ candidates, passCandidates cfg w userId env limit drawn = .ok candidates →
      (candidates.map LiveCandidate.candidateId).Nodup ∧
        (∀ c ∈ candidates, w.origin c.candidateId = none) ∧
          ((∀ r ∈ w.rows.take (w.rows.length + candidates.length - maxRecords),
              w.origin r.candidateId = some b) ∨
            (userId ≠ b ∧ ∀ r ∈ w.rows, w.origin r.candidateId ≠ some b))

/-- The row stops a submit of the candidate. -/
def Duplicates (cand r : LiveCandidate) : Bool :=
  r.symbol == cand.symbol && r.candidateId != cand.candidateId && r.side == cand.side &&
    r.status == .submitted

/-- A submit of `b` that gets to the equity tracker finds today's opening there. -/
def Opened (w : Shared) (env : SubmitEnv) (cand : LiveCandidate) : Prop :=
  ∀ read, accountRead (submitIn w env cand) cand = .ok read →
    w.equity.map EquityTrackerState.dayKeyKst = some (kstDate env.equityNow)

/-- A submit of another user is stopped by a submitted row of `b` only when another row stops it
too. -/
def NotStopped (b : String) (w : Shared) (cand : LiveCandidate) : Prop :=
  (∃ r ∈ w.rows, w.origin r.candidateId = some b ∧ Duplicates cand r = true) →
    ∃ r ∈ w.rows, w.origin r.candidateId ≠ some b ∧ Duplicates cand r = true

/-- The request keeps `b` and the others apart. -/
def Careful (cfg : FlowConfig) (b : String) (w : Shared) : Action → Prop
  | .tick userId session env drawn => ∀ s, session = some s →
    (s.strategyId = "final_betting_v1" → CarefulPass cfg b w userId env 5 drawn) ∧
      (userId ≠ b → ∀ r ∈ w.rows, (pendingFilter.admits r || candidateFilter.admits r) = true →
        w.origin r.candidateId ≠ some b)
  | .generate userId modes env limit drawn => requireLivePrepEnabled modes = .ok () →
    CarefulPass cfg b w userId env limit drawn
  | .list userId modes f => userId ≠ b → requireLivePrepEnabled modes = .ok () →
    ∀ r ∈ w.rows, f.admits r = true → w.origin r.candidateId ≠ some b
  | .approve candidateId req | .reject candidateId req => requireLivePrepEnabled req.modes = .ok () →
    (get candidateId w.rows).isSome → (w.origin candidateId = some b ↔ req.userId = b)
  | .submit candidateId env req => submitGate env req = .ok () →
    ∀ cand, get candidateId w.rows = some cand →
      (w.origin candidateId = some b ↔ req.userId = b) ∧
        (candidateGate env cand = .ok () →
          if req.userId = b then Opened w env cand else NotStopped b w cand)

section Decidable

variable {ε α : Type}

instance decidableOk (x : Except ε α) (p : α → Prop) [DecidablePred p] :
    Decidable (∀ a, x = .ok a → p a) :=
  match x with
  | .error _ => isTrue fun _ h => by cases h
  | .ok a => decidable_of_iff (p a) ⟨fun hp _ h => Except.ok.inj h ▸ hp, fun h => h a rfl⟩

instance decidableSome (x : Option α) (p : α → Prop) [DecidablePred p] :
    Decidable (∀ a, x = some a → p a) :=
  match x with
  | none => isTrue fun _ h => by cases h
  | some a => decidable_of_iff (p a) ⟨fun hp _ h => Option.some.inj h ▸ hp, fun h => h a rfl⟩

variable (cfg : FlowConfig) (b : String) (w : Shared)

instance (userId : String) (env : DeskEnv) (limit : Int) (drawn : Drawn) :
    Decidable (CarefulPass cfg b w userId env limit drawn) :=
  inferInstanceAs (Decidable (_ ∧ _))

instance (env : SubmitEnv) (cand : LiveCandidate) : Decidable (Opened w env cand) :=
  decidableOk _ _

instance (cand : LiveCandidate) : Decidable (NotStopped b w cand) :=
  inferInstanceAs (Decidable (_ → _))

instance (a : Action) : Decidable (Careful cfg b w a) :=
  match a with
  | .tick .. => decidableSome _ _
  | .generate .. => inferInstanceAs (Decidable (_ → _))
  | .list .. => inferInstanceAs (Decidable (_ → _))
  | .approve .. => inferInstanceAs (Decidable (_ → _))
  | .reject .. => inferInstanceAs (Decidable (_ → _))
  | .submit .. => inferInstanceAs (Decidable (_ → _))

end Decidable

/-- The identifiers of candidates that were not generated for `b`. -/
def others (b : String) (w : Shared) (id : String) : Bool := w.origin id != some b

/-- The second state is the first one without what `b` did. -/
structure Hides (b : String) (s t : Shared) : Prop where
  rows : t.rows = keepRows (others b s) s.rows
  room : s.rows.length ≤ maxRecords
  known : ∀ r ∈ s.rows, s.origin r.candidateId ≠ none
  created : ∀ id, s.origin id ≠ some b → t.created id = s.created id
  files : ∀ tag, tag ≠ userTag b → t.files tag = s.files tag
  equity : t.equity = s.equity

section Pass

variable {α : Type} {entries : List (String × α)} {f g : String → α} {id : String}

theorem setEach_absent (h : ∀ entry ∈ entries, entry.1 ≠ id) : setEach entries f id = f id := by
  induction entries generalizing f with
  | nil => rfl
  | cons entry entries ih =>
    have hrest := ih (f := Function.update f entry.1 entry.2) fun e he => h e (List.mem_cons_of_mem _ he)
    rw [setEach, List.foldl_cons, ← setEach, hrest,
      Function.update_of_ne (Ne.symm (h entry List.mem_cons_self))]

theorem setEach_congr (h : f id = g id) : setEach entries f id = setEach entries g id := by
  induction entries generalizing f g with
  | nil => exact h
  | cons entry entries ih =>
    rw [setEach, setEach, List.foldl_cons, List.foldl_cons, ← setEach, ← setEach]
    apply ih
    by_cases hid : id = entry.1
    · rw [hid, Function.update_self, Function.update_self]
    · rw [Function.update_of_ne hid, Function.update_of_ne hid, h]

theorem setEach_const {value : α} (hvalue : ∀ entry ∈ entries, entry.2 = value)
    (h : id ∈ entries.map Prod.fst) : setEach entries f id = value := by
  induction entries generalizing f with
  | nil => cases h
  | cons entry entries ih =>
    have hrest := fun e he => hvalue e (List.mem_cons_of_mem entry he)
    rw [setEach, List.foldl_cons, ← setEach]
    by_cases hlater : id ∈ entries.map Prod.fst
    · exact ih hrest hlater
    · have hhead : id = entry.1 := (List.mem_cons.mp h).resolve_right hlater
      have hother : ∀ e ∈ entries, e.1 ≠ id := fun e he heq => hlater (heq ▸ List.mem_map_of_mem he)
      rw [setEach_absent hother, hhead, Function.update_self, hvalue entry List.mem_cons_self]

variable {cfg : FlowConfig} {b userId : String} {s t w : Shared} {env : DeskEnv} {limit : Int}
  {drawn : Drawn} {candidates : List LiveCandidate} {createdAt : Nat → Instant}

theorem store_origin (h : id ∈ candidates.map LiveCandidate.candidateId) :
    (w.store userId createdAt candidates).origin id = some userId := by
  apply setEach_const
  · intro entry hentry
    obtain ⟨c, -, rfl⟩ := List.mem_map.mp hentry
    rfl
  · rw [List.map_map]
    exact h

theorem store_origin_absent (h : id ∉ candidates.map LiveCandidate.candidateId) :
    (w.store userId createdAt candidates).origin id = w.origin id := by
  apply setEach_absent
  intro entry hentry
  obtain ⟨c, hc, rfl⟩ := List.mem_map.mp hentry
  exact fun heq => h (heq ▸ List.mem_map_of_mem hc)

theorem store_created_absent (h : id ∉ candidates.map LiveCandidate.candidateId) :
    (w.store userId createdAt candidates).created id = w.created id := by
  apply setEach_absent
  intro entry hentry
  obtain ⟨i, hi, rfl⟩ := List.mem_mapIdx.mp hentry
  exact fun heq => h (heq ▸ List.mem_map_of_mem (List.getElem_mem hi))

theorem shadowCandidates_length (limit : Int) (newId : Nat → String)
    (orders : List OrderModels.OrderRequest) :
    (shadowCandidates limit newId orders).length ≤ maxRecords := by
  have hbuys := List.length_take_le (max 1 (min limit 5)).toNat
    (orders.filter fun o => o.side = .buy)
  have hsells := List.length_take_le 10 (orders.filter fun o => o.side = .sell)
  have hmax : maxRecords = 500 := rfl
  rw [shadowCandidates, List.length_append, List.length_mapIdx, List.length_mapIdx]
  omega

theorem passCandidates_length
    (h : passCandidates cfg w userId env limit drawn = .ok candidates) :
    candidates.length ≤ maxRecords := by
  rw [passCandidates] at h
  cases hpass : (deskPass cfg.loop.desk env (w.files (userTag userId))).orders with
  | error stop =>
    rw [hpass] at h
    cases h
  | ok orders =>
    rw [hpass] at h
    cases h
    exact shadowCandidates_length limit drawn.newId orders

/-- The candidates have identifiers that were not drawn before. -/
structure New (w : Shared) (candidates : List LiveCandidate) : Prop where
  nodup : (candidates.map LiveCandidate.candidateId).Nodup
  undrawn : ∀ c ∈ candidates, w.origin c.candidateId = none
  few : candidates.length ≤ maxRecords

theorem New.withFiles (hnew : New w candidates) (files : Files) :
    New { w with files := files } candidates :=
  ⟨hnew.nodup, hnew.undrawn, hnew.few⟩

/-- The oldest rows that give way to new ones. -/
def surplus (w : Shared) (candidates : List LiveCandidate) : Nat :=
  w.rows.length + candidates.length - maxRecords

theorem New.absent (hnew : New s candidates) (hknown : ∀ r ∈ s.rows, s.origin r.candidateId ≠ none) :
    ∀ r ∈ s.rows, r.candidateId ∉ candidates.map LiveCandidate.candidateId := by
  intro r hr hmem
  obtain ⟨c, hc, hid⟩ := List.mem_map.mp hmem
  exact hknown r hr (hid ▸ hnew.undrawn c hc)

theorem store_rows (hnew : New s candidates) (hroom : s.rows.length ≤ maxRecords)
    (hknown : ∀ r ∈ s.rows, s.origin r.candidateId ≠ none) :
    (s.store userId createdAt candidates).rows =
      s.rows.drop (surplus s candidates) ++ candidates := by
  have hfresh : ∀ c ∈ candidates, ∀ r ∈ s.rows, r.candidateId ≠ c.candidateId :=
    fun c hc r hr heq => hnew.absent hknown r hr (heq ▸ List.mem_map_of_mem hc)
  have hle : surplus s candidates ≤ s.rows.length := by
    have hfew := hnew.few
    rw [surplus]
    omega
  rw [← List.drop_append_of_le_length hle]
  exact upsertEach_fresh hroom hnew.nodup hfresh

theorem store_room (hnew : New s candidates) (hroom : s.rows.length ≤ maxRecords)
    (hknown : ∀ r ∈ s.rows, s.origin r.candidateId ≠ none) :
    (s.store userId createdAt candidates).rows.length ≤ maxRecords := by
  have hfew := hnew.few
  rw [store_rows hnew hroom hknown, List.length_append, List.length_drop, surplus]
  omega

theorem store_known (hnew : New s candidates) (hroom : s.rows.length ≤ maxRecords)
    (hknown : ∀ r ∈ s.rows, s.origin r.candidateId ≠ none) :
    ∀ r ∈ (s.store userId createdAt candidates).rows,
      (s.store userId createdAt candidates).origin r.candidateId ≠ none := by
  intro r hr
  rw [store_rows hnew hroom hknown] at hr
  obtain hr | hr := List.mem_append.mp hr
  · have hold := List.mem_of_mem_drop hr
    rw [store_origin_absent (hnew.absent hknown r hold)]
    exact hknown r hold
  · rw [store_origin (List.mem_map_of_mem hr)]
    exact Option.some_ne_none userId

/-- The kept rows after a pass: the old ones that stay, and the new ones if they are kept. -/
theorem keepRows_store (b userId : String) (createdAt : Nat → Instant) (hnew : New s candidates)
    (hroom : s.rows.length ≤ maxRecords) (hknown : ∀ r ∈ s.rows, s.origin r.candidateId ≠ none) :
    keepRows (others b (s.store userId createdAt candidates))
        (s.store userId createdAt candidates).rows =
      keepRows (others b s) (s.rows.drop (surplus s candidates)) ++
        if userId = b then [] else candidates := by
  have hold : keepRows (others b (s.store userId createdAt candidates))
      (s.rows.drop (surplus s candidates)) =
        keepRows (others b s) (s.rows.drop (surplus s candidates)) := by
    apply keepRows_congr
    intro r hr
    rw [others, store_origin_absent (hnew.absent hknown r (List.mem_of_mem_drop hr)), others]
  have hadded : keepRows (others b (s.store userId createdAt candidates)) candidates =
      if userId = b then [] else candidates := by
    split
    · next hb =>
      apply keepRows_none
      intro r hr
      simp [others, store_origin (List.mem_map_of_mem hr), hb]
    · next hb =>
      apply keepRows_all
      intro r hr
      simp [others, store_origin (List.mem_map_of_mem hr), hb]
  rw [store_rows hnew hroom hknown, keepRows_append, hold, hadded]

/-- Rows of `b` that give way are not kept rows. -/
theorem keepRows_drop {k : Nat} (h : ∀ r ∈ s.rows.take k, s.origin r.candidateId = some b) :
    keepRows (others b s) (s.rows.drop k) = keepRows (others b s) s.rows := by
  have hnone : keepRows (others b s) (s.rows.take k) = [] :=
    keepRows_none fun r hr => by simp [others, h r hr]
  calc keepRows (others b s) (s.rows.drop k)
      = keepRows (others b s) (s.rows.take k) ++ keepRows (others b s) (s.rows.drop k) := by
        rw [hnone, List.nil_append]
    _ = keepRows (others b s) s.rows := by rw [← keepRows_append, List.take_append_drop]

theorem hides_store_hidden (h : Hides b s t) (hnew : New s candidates)
    (hdrop : ∀ r ∈ s.rows.take (surplus s candidates), s.origin r.candidateId = some b) :
    Hides b (s.store b createdAt candidates) t where
  rows := by
    rw [keepRows_store b b createdAt hnew h.room h.known, if_pos rfl, List.append_nil, keepRows_drop hdrop]
    exact h.rows
  room := store_room hnew h.room h.known
  known := store_known hnew h.room h.known
  created id hid := by
    by_cases hmem : id ∈ candidates.map LiveCandidate.candidateId
    · exact absurd (store_origin hmem) hid
    · rw [store_origin_absent hmem] at hid
      rw [store_created_absent hmem]
      exact h.created id hid
  files := h.files
  equity := h.equity

theorem hides_store_kept (h : Hides b s t) (hnew : New s candidates) (hb : userId ≠ b)
    (hdrop : (∀ r ∈ s.rows.take (surplus s candidates), s.origin r.candidateId = some b) ∨
      ∀ r ∈ s.rows, s.origin r.candidateId ≠ some b) :
    Hides b (s.store userId createdAt candidates) (t.store userId createdAt candidates) where
  rows := by
    have hkept := keepRows_store b userId createdAt hnew h.room h.known
    rw [if_neg hb] at hkept
    have hfresh : ∀ c ∈ candidates, ∀ r ∈ t.rows, r.candidateId ≠ c.candidateId := by
      intro c hc r hr heq
      rw [h.rows] at hr
      exact hnew.absent h.known r (List.mem_of_mem_filter hr) (heq ▸ List.mem_map_of_mem hc)
    have hshort : t.rows.length ≤ s.rows.length := by
      rw [h.rows]
      exact List.length_filter_le _ _
    have hnow : (t.store userId createdAt candidates).rows =
        (t.rows ++ candidates).drop (t.rows.length + candidates.length - maxRecords) :=
      upsertEach_fresh (hshort.trans h.room) hnew.nodup hfresh
    obtain hdrop | hnone := hdrop
    · rw [keepRows_drop hdrop, ← h.rows] at hkept
      have hroom : (t.rows ++ candidates).length ≤ maxRecords := by
        rw [← hkept]
        exact (List.length_filter_le _ _).trans (store_room hnew h.room h.known)
      rw [List.length_append] at hroom
      rw [hkept, hnow, Nat.sub_eq_zero_of_le hroom, List.drop_zero]
    · have hall : ∀ r ∈ s.rows, others b s r.candidateId = true :=
        fun r hr => by simp [others, hnone r hr]
      have hsame : t.rows = s.rows := h.rows.trans (keepRows_all hall)
      have hdrop := keepRows_all fun r hr =>
        hall r (List.mem_of_mem_drop (i := surplus s candidates) hr)
      have hstored : (s.store userId createdAt candidates).rows =
          s.rows.drop (surplus s candidates) ++ candidates := store_rows hnew h.room h.known
      rw [hkept, hdrop, ← hstored, Shared.store, Shared.store, hsame]
  room := store_room hnew h.room h.known
  known := store_known hnew h.room h.known
  created id hid := by
    apply setEach_congr
    apply h.created
    by_cases hmem : id ∈ candidates.map LiveCandidate.candidateId
    · obtain ⟨c, hc, rfl⟩ := List.mem_map.mp hmem
      rw [hnew.undrawn c hc]
      exact fun hnone => by cases hnone
    · rw [store_origin_absent hmem] at hid
      exact hid
  files := h.files
  equity := h.equity

theorem CarefulPass.isNew (hok : CarefulPass cfg b s userId env limit drawn)
    (hpass : passCandidates cfg s userId env limit drawn = .ok candidates) : New s candidates := by
  obtain ⟨hnodup, hundrawn, -⟩ := hok.2 candidates hpass
  exact ⟨hnodup, hundrawn, passCandidates_length hpass⟩

theorem hides_files_hidden (h : Hides b s t) (file : Option IntradayState.IntradayPaperState) :
    Hides b { s with files := Function.update s.files (userTag b) file } t where
  rows := h.rows
  room := h.room
  known := h.known
  created := h.created
  files tag htag := by
    dsimp only
    rw [Function.update_of_ne htag]
    exact h.files tag htag
  equity := h.equity

theorem hides_files_kept (h : Hides b s t) (tag : String)
    (file : Option IntradayState.IntradayPaperState) :
    Hides b { s with files := Function.update s.files tag file }
      { t with files := Function.update t.files tag file } where
  rows := h.rows
  room := h.room
  known := h.known
  created := h.created
  files tag' htag := by
    dsimp only
    by_cases heq : tag' = tag
    · rw [heq, Function.update_self, Function.update_self]
    · rw [Function.update_of_ne heq, Function.update_of_ne heq]
      exact h.files tag' htag
  equity := h.equity

/-- A pass for `b` does not show. -/
theorem pass_hidden (h : Hides b s t) (hok : CarefulPass cfg b s b env limit drawn) :
    Hides b (runPass cfg s b env limit drawn) t := by
  have hfiles := hides_files_hidden h (deskPass cfg.loop.desk env (s.files (userTag b))).file
  rw [runPass]
  cases hpass : passCandidates cfg s b env limit drawn with
  | error stop => exact hfiles
  | ok candidates =>
    have hnew := hok.isNew hpass
    obtain ⟨-, -, hdrop | ⟨hb, -⟩⟩ := hok.2 candidates hpass
    · exact hides_store_hidden hfiles (hnew.withFiles _) hdrop
    · exact absurd rfl hb

/-- A pass for another user goes the same way without what `b` did. -/
theorem pass_kept (h : Hides b s t) (hb : userId ≠ b)
    (hok : CarefulPass cfg b s userId env limit drawn) :
    passCandidates cfg t userId env limit drawn = passCandidates cfg s userId env limit drawn ∧
      Hides b (runPass cfg s userId env limit drawn) (runPass cfg t userId env limit drawn) := by
  have hfile : t.files (userTag userId) = s.files (userTag userId) :=
    h.files (userTag userId) (hok.1 hb)
  have hpasses : passCandidates cfg t userId env limit drawn =
      passCandidates cfg s userId env limit drawn := by
    rw [passCandidates, passCandidates, hfile]
  have hfiles := hides_files_kept h (userTag userId)
    (deskPass cfg.loop.desk env (s.files (userTag userId))).file
  refine ⟨hpasses, ?_⟩
  rw [runPass, runPass, hpasses, hfile]
  cases hpass : passCandidates cfg s userId env limit drawn with
  | error stop => exact hfiles
  | ok candidates =>
    have hnew := hok.isNew hpass
    obtain ⟨-, -, hdrop⟩ := hok.2 candidates hpass
    exact hides_store_kept hfiles (hnew.withFiles _) hb
      (hdrop.imp_right fun hnone => hnone.2)

end Pass

section Candidates

variable {cfg : FlowConfig} {b candidateId : String} {s t w : Shared} {cand row : LiveCandidate}
  {env : SubmitEnv} {req : CandidateDecisionRequest}

theorem submit_id (h : (submitCandidateOrder cfg.prep env req cand).row = some row) :
    row.candidateId = cand.candidateId := by
  unfold submitCandidateOrder at h
  split at h
  · cases h
  · cases h
  · split at h
    · cases h
    · cases h
      rfl
    · cases h
      rfl
    · dsimp only at h
      split at h
      · cases h
        rfl
      · split at h
        · cases h
          rfl
        · cases h
          rfl

theorem get_others (h : Hides b s t) (hid : s.origin candidateId ≠ some b) :
    get candidateId t.rows = get candidateId s.rows := by
  rw [h.rows]
  exact get_keepRows (by simp [others, hid])

theorem upsert_known (h : Hides b s t) (hcand : get candidateId s.rows = some cand)
    (hrow : row.candidateId = cand.candidateId) : (get row.candidateId s.rows).isSome ∧
      (upsert row s.rows).length ≤ maxRecords ∧
        ∀ r ∈ upsert row s.rows, s.origin r.candidateId ≠ none := by
  have hstored : (get row.candidateId s.rows).isSome := by
    rw [hrow, get_id hcand, hcand]
    rfl
  have hids := upsert_ids h.room hstored
  refine ⟨hstored, ?_, fun r hr => ?_⟩
  · have hlength := congrArg List.length hids
    rw [List.length_map, List.length_map] at hlength
    rw [hlength]
    exact h.room
  · have hmem : r.candidateId ∈ s.rows.map LiveCandidate.candidateId :=
      hids ▸ List.mem_map_of_mem hr
    obtain ⟨r', hr', hid⟩ := List.mem_map.mp hmem
    exact hid ▸ h.known r' hr'

theorem hides_rows (h : Hides b s t) {rows rows' : List LiveCandidate}
    (hrows : rows' = keepRows (others b s) rows) (hroom : rows.length ≤ maxRecords)
    (hknown : ∀ r ∈ rows, s.origin r.candidateId ≠ none) :
    Hides b { s with rows := rows } { t with rows := rows' } :=
  ⟨hrows, hroom, hknown, h.created, h.files, h.equity⟩

/-- Another user's candidate has a new row. -/
theorem hides_upsert_kept (h : Hides b s t) (hcand : get candidateId s.rows = some cand)
    (hid : s.origin candidateId ≠ some b) (hrow : row.candidateId = cand.candidateId) :
    Hides b { s with rows := upsert row s.rows } { t with rows := upsert row t.rows } := by
  obtain ⟨hstored, hroom, hknown⟩ := upsert_known h hcand hrow
  have hkeep : others b s row.candidateId = true := by
    rw [hrow, get_id hcand]
    simp [others, hid]
  have hrows : upsert row t.rows = keepRows (others b s) (upsert row s.rows) := by
    rw [h.rows]
    exact upsert_kept h.room hstored hkeep
  exact hides_rows h hrows hroom hknown

/-- A candidate of `b` has a new row. -/
theorem hides_upsert_hidden (h : Hides b s t) (hcand : get candidateId s.rows = some cand)
    (hid : s.origin candidateId = some b) (hrow : row.candidateId = cand.candidateId) :
    Hides b { s with rows := upsert row s.rows } t := by
  obtain ⟨hstored, hroom, hknown⟩ := upsert_known h hcand hrow
  have hkeep : others b s row.candidateId = false := by
    rw [hrow, get_id hcand]
    simp [others, hid]
  have hrows : t.rows = keepRows (others b s) (upsert row s.rows) :=
    h.rows.trans (upsert_hidden h.room hstored hkeep).symm
  exact hides_rows h hrows hroom hknown

/-- A decision of `b` does not show. -/
theorem decide_hidden (h : Hides b s t)
    {decision : CandidateDecisionRequest → LiveCandidate → Except HttpError LiveCandidate}
    (hdecision : ∀ cand row, decision req cand = .ok row → row.candidateId = cand.candidateId)
    (hok : requireLivePrepEnabled req.modes = .ok () → (get candidateId s.rows).isSome →
      s.origin candidateId = some b) :
    Hides b (decideCandidate s candidateId req decision).1 t := by
  rw [decideCandidate]
  cases hmodes : requireLivePrepEnabled req.modes with
  | error error => exact h
  | ok u =>
    cases hcand : get candidateId s.rows with
    | none => exact h
    | some cand =>
      dsimp only
      cases hrow : decision req cand with
      | error error => exact h
      | ok row =>
        have hid := hok hmodes (by rw [hcand]; rfl)
        exact hides_upsert_hidden h hcand hid (hdecision cand row hrow)

/-- A decision of another user goes the same way without what `b` did. -/
theorem decide_kept (h : Hides b s t)
    {decision : CandidateDecisionRequest → LiveCandidate → Except HttpError LiveCandidate}
    (hdecision : ∀ cand row, decision req cand = .ok row → row.candidateId = cand.candidateId)
    (hok : requireLivePrepEnabled req.modes = .ok () → (get candidateId s.rows).isSome →
      s.origin candidateId ≠ some b) :
    (decideCandidate s candidateId req decision).2 = (decideCandidate t candidateId req decision).2 ∧
      Hides b (decideCandidate s candidateId req decision).1
        (decideCandidate t candidateId req decision).1 := by
  rw [decideCandidate, decideCandidate]
  cases hmodes : requireLivePrepEnabled req.modes with
  | error error => exact ⟨rfl, h⟩
  | ok u =>
    cases hcand : get candidateId s.rows with
    | none =>
      rw [h.rows, get_keepRows_none hcand]
      exact ⟨rfl, h⟩
    | some cand =>
      have hid := hok hmodes (by rw [hcand]; rfl)
      rw [get_others h hid, hcand]
      dsimp only
      cases hrow : decision req cand with
      | error error => exact ⟨rfl, h⟩
      | ok row => exact ⟨rfl, hides_upsert_kept h hcand hid (hdecision cand row hrow)⟩

end Candidates

section Submits

variable {cfg : FlowConfig} {b candidateId : String} {s t w : Shared} {cand row : LiveCandidate}
  {env : SubmitEnv} {recent : List LiveCandidate} {req : CandidateDecisionRequest}

theorem any_duplicates (cand : LiveCandidate) (rows : List LiveCandidate) :
    (rows.any fun r => r.symbol == cand.symbol && r.candidateId != cand.candidateId &&
      r.side == cand.side && r.status == .submitted) = rows.any (Duplicates cand) := rfl

/-- Of the recent rows a submit only asks whether one of them stops it. -/
theorem accountRead_recent
    (h : recent.any (Duplicates cand) = env.recent.any (Duplicates cand)) :
    accountRead { env with recent := recent } cand = accountRead env cand := by
  rw [accountRead, accountRead]
  simp only [any_duplicates, h]

theorem orderChecks_recent (cfg : PrepConfig)
    (h : recent.any (Duplicates cand) = env.recent.any (Duplicates cand)) :
    orderChecks cfg { env with recent := recent } cand = orderChecks cfg env cand := by
  rw [orderChecks, orderChecks]
  simp only [any_duplicates, h]

theorem submitCandidateOrder_recent (cfg : PrepConfig) (req : CandidateDecisionRequest)
    (h : candidateGate env cand = .ok () →
      recent.any (Duplicates cand) = env.recent.any (Duplicates cand)) :
    submitCandidateOrder cfg { env with recent := recent } req cand =
      submitCandidateOrder cfg env req cand := by
  have hsubmit : submitGate { env with recent := recent } req = submitGate env req := rfl
  have hcandidate : candidateGate { env with recent := recent } cand = candidateGate env cand := rfl
  rw [submitCandidateOrder, submitCandidateOrder, hsubmit, hcandidate]
  cases hgate : candidateGate env cand with
  | error e =>
    cases submitGate env req <;> rfl
  | ok u =>
    rw [orderChecks_recent cfg (h hgate)]

theorem equityAfter_recent
    (h : candidateGate env cand = .ok () →
      recent.any (Duplicates cand) = env.recent.any (Duplicates cand)) :
    equityAfter { env with recent := recent } cand = equityAfter env cand := by
  have hcandidate : candidateGate { env with recent := recent } cand = candidateGate env cand := rfl
  rw [equityAfter, equityAfter, hcandidate]
  cases hgate : candidateGate env cand with
  | error e => rfl
  | ok u => rw [accountRead_recent (h hgate)]

/-- The rows that a submit gets are all those that could stop it. -/
theorem any_recent (hroom : w.rows.length ≤ maxRecords) (cand : LiveCandidate) :
    (w.list { symbol := some cand.symbol, limit := 500 }).any (Duplicates cand) =
      w.rows.any (Duplicates cand) := by
  rw [Bool.eq_iff_iff, List.any_eq_true, List.any_eq_true]
  constructor
  · rintro ⟨r, hr, hstops⟩
    exact ⟨r, ((mem_listFiltered rfl hroom).mp hr).1, hstops⟩
  · rintro ⟨r, hr, hstops⟩
    refine ⟨r, (mem_listFiltered rfl hroom).mpr ⟨hr, ?_⟩, hstops⟩
    simp only [Duplicates, Bool.and_eq_true] at hstops
    simpa [ListFilter.admits] using hstops.1.1.1

theorem any_kept (h : Hides b s t) (hok : NotStopped b s cand) :
    t.rows.any (Duplicates cand) = s.rows.any (Duplicates cand) := by
  rw [h.rows, Bool.eq_iff_iff, List.any_eq_true, List.any_eq_true]
  constructor
  · rintro ⟨r, hr, hstops⟩
    exact ⟨r, List.mem_of_mem_filter hr, hstops⟩
  · rintro ⟨r, hr, hstops⟩
    obtain ⟨r', hr', hid, hstops'⟩ : ∃ r ∈ s.rows, s.origin r.candidateId ≠ some b ∧
        Duplicates cand r = true := by
      by_cases hid : s.origin r.candidateId = some b
      · exact hok ⟨r, hr, hid, hstops⟩
      · exact ⟨r, hr, hid, hstops⟩
    exact ⟨r', List.mem_filter.mpr ⟨hr', by simp [others, hid]⟩, hstops'⟩

theorem pnlSnapshot_opened {loaded : EquityTrackerState} {now : Instant}
    (h : loaded.dayKeyKst = kstDate now) (equity : ℚ) :
    (pnlSnapshot (some loaded) now equity true).2 = some loaded := by
  simp [pnlSnapshot, rollDay, h]

/-- A submit of `b` that finds today's opening leaves the equity tracker as it is. -/
theorem equityAfter_opened (hopened : candidateGate env cand = .ok () → Opened s env cand) :
    equityAfter (submitIn s env cand) cand = s.equity := by
  have hgate : candidateGate (submitIn s env cand) cand = candidateGate env cand := rfl
  have hequity : (submitIn s env cand).equity = s.equity := rfl
  rw [equityAfter, hgate]
  cases hcandidate : candidateGate env cand with
  | error e => rfl
  | ok u =>
    cases hread : accountRead (submitIn s env cand) cand with
    | error stop => rfl
    | ok read =>
      obtain ⟨loaded, hloaded, hday⟩ := Option.map_eq_some_iff.mp (hopened hcandidate read hread)
      dsimp only
      rw [hequity, hloaded]
      exact pnlSnapshot_opened hday _

theorem hides_equity (h : Hides b s t) (equity : Option EquityTrackerState) :
    Hides b { s with equity := equity } { t with equity := equity } :=
  ⟨h.rows, h.room, h.known, h.created, h.files, rfl⟩

/-- A submit of `b` does not show. -/
theorem submit_hidden (h : Hides b s t) (hb : req.userId = b)
    (hok : Careful cfg b s (.submit candidateId env req)) :
    Hides b (submitStored cfg s candidateId env req).1 t := by
  rw [submitStored]
  cases hgate : submitGate env req with
  | error error => exact h
  | ok u =>
    cases hcand : get candidateId s.rows with
    | none => exact h
    | some cand =>
      obtain ⟨hown, hopened⟩ := hok hgate cand hcand
      have hid := hown.mpr hb
      have hequity : equityAfter (submitIn s env cand) cand = s.equity :=
        equityAfter_opened fun hcandidate => (if_pos hb ▸ hopened hcandidate :)
      dsimp only
      rw [hequity]
      cases hrow : (submitCandidateOrder cfg.prep (submitIn s env cand) req cand).row with
      | none => exact h
      | some row =>
        have hdone := hides_upsert_hidden h hcand hid (submit_id hrow)
        rw [Option.elim_some]
        generalize upsert row s.rows = rows at hdone ⊢
        exact hdone

/-- A submit of another user goes the same way without what `b` did. -/
theorem submit_kept (h : Hides b s t) (hb : req.userId ≠ b)
    (hok : Careful cfg b s (.submit candidateId env req)) :
    (submitStored cfg s candidateId env req).2 = (submitStored cfg t candidateId env req).2 ∧
      Hides b (submitStored cfg s candidateId env req).1
        (submitStored cfg t candidateId env req).1 := by
  rw [submitStored, submitStored]
  cases hgate : submitGate env req with
  | error error => exact ⟨rfl, h⟩
  | ok u =>
    cases hcand : get candidateId s.rows with
    | none =>
      rw [h.rows, get_keepRows_none hcand]
      exact ⟨rfl, h⟩
    | some cand =>
      obtain ⟨hown, hstops⟩ := hok hgate cand hcand
      have hid : s.origin candidateId ≠ some b := fun hb' => hb (hown.mp hb')
      have hroom : t.rows.length ≤ maxRecords := by
        rw [h.rows]
        exact (List.length_filter_le _ _).trans h.room
      have henv : submitIn t env cand =
          { submitIn s env cand with
            recent := t.list { symbol := some cand.symbol, limit := 500 } } := by
        rw [submitIn, submitIn, h.equity]
      have hrecent : candidateGate (submitIn s env cand) cand = .ok () →
          (t.list { symbol := some cand.symbol, limit := 500 }).any (Duplicates cand) =
            (submitIn s env cand).recent.any (Duplicates cand) := by
        intro hcandidate
        have hok' : NotStopped b s cand := (if_neg hb ▸ hstops hcandidate :)
        rw [any_recent hroom, any_kept h hok']
        exact (any_recent h.room cand).symm
      have hsubmit := submitCandidateOrder_recent cfg.prep req hrecent
      have hequity := equityAfter_recent hrecent
      rw [← henv] at hsubmit hequity
      rw [get_others h hid, hcand]
      dsimp only
      rw [hsubmit, hequity]
      refine ⟨rfl, ?_⟩
      cases hrow : (submitCandidateOrder cfg.prep (submitIn s env cand) req cand).row with
      | none => exact hides_equity h _
      | some row =>
        have hdone := hides_equity (hides_upsert_kept h hcand hid (submit_id hrow))
          (equityAfter (submitIn s env cand) cand)
        rw [Option.elim_some, Option.elim_some]
        generalize upsert row s.rows = rows at hdone ⊢
        generalize upsert row t.rows = rows' at hdone ⊢
        exact hdone

end Submits

section Runs

variable {cfg : FlowConfig} {b : String} {s t : Shared}

theorem list_kept (h : Hides b s t) {f : ListFilter}
    (hnone : ∀ r ∈ s.rows, f.admits r = true → s.origin r.candidateId ≠ some b) :
    s.list f = t.list f := by
  rw [Shared.list, Shared.list, h.rows]
  refine (listFiltered_keepRows (fun r hr hadmits => ?_) fun id hid => ?_).symm
  · simp [others, hnone r hr hadmits]
  · exact h.created id (by simpa [others] using hid)

/-- The counts of a tick are the same. -/
theorem tickReply_kept (h : Hides b s t) (generated : Option (List LiveCandidate))
    (hnone : ∀ r ∈ s.rows, (pendingFilter.admits r || candidateFilter.admits r) = true →
      s.origin r.candidateId ≠ some b) : tickReply s generated = tickReply t generated := by
  have hcandidates : s.list candidateFilter = t.list candidateFilter :=
    list_kept h fun r hr hadmits => hnone r hr (by simp [hadmits])
  have hpending : s.list pendingFilter = t.list pendingFilter :=
    list_kept h fun r hr hadmits => hnone r hr (by simp [hadmits])
  rw [tickReply, tickReply, hcandidates, hpending]

theorem store_others {userId : String} {candidates : List LiveCandidate}
    {createdAt : Nat → Instant} {p : LiveCandidate → Bool} (hnew : New s candidates)
    (hroom : s.rows.length ≤ maxRecords) (hknown : ∀ r ∈ s.rows, s.origin r.candidateId ≠ none)
    (hb : userId ≠ b) (hnone : ∀ r ∈ s.rows, p r = true → s.origin r.candidateId ≠ some b) :
    ∀ r ∈ (s.store userId createdAt candidates).rows, p r = true →
      (s.store userId createdAt candidates).origin r.candidateId ≠ some b := by
  intro r hr hp
  rw [store_rows hnew hroom hknown] at hr
  obtain hr | hr := List.mem_append.mp hr
  · have hold := List.mem_of_mem_drop hr
    rw [store_origin_absent (hnew.absent hknown r hold)]
    exact hnone r hold hp
  · rw [store_origin (List.mem_map_of_mem hr)]
    exact fun heq => hb (Option.some.inj heq)

/-- After a pass for another user there is no more of `b` in the store than before. -/
theorem pass_others {userId : String} {env : DeskEnv} {limit : Int} {drawn : Drawn}
    {p : LiveCandidate → Bool} (h : Hides b s t) (hb : userId ≠ b)
    (hok : CarefulPass cfg b s userId env limit drawn)
    (hnone : ∀ r ∈ s.rows, p r = true → s.origin r.candidateId ≠ some b) :
    ∀ r ∈ (runPass cfg s userId env limit drawn).rows, p r = true →
      (runPass cfg s userId env limit drawn).origin r.candidateId ≠ some b := by
  rw [runPass]
  cases hpass : passCandidates cfg s userId env limit drawn with
  | error stop => exact hnone
  | ok candidates =>
    have hnew := hok.isNew hpass
    exact store_others (hnew.withFiles _) h.room h.known hb hnone

theorem tick_hidden {session : Option LiveExecSession} {env : DeskEnv} {drawn : Drawn}
    (h : Hides b s t) (hok : Careful cfg b s (.tick b session env drawn)) :
    Hides b (liveExecTick cfg s b session env drawn).1 t := by
  cases session with
  | none => exact h
  | some session =>
    obtain ⟨hpass, -⟩ := hok session rfl
    simp only [liveExecTick]
    split
    · next hstrategy => exact pass_hidden h (hpass (beq_iff_eq.mp hstrategy))
    · exact h

theorem tick_kept {userId : String} {session : Option LiveExecSession} {env : DeskEnv}
    {drawn : Drawn} (h : Hides b s t) (hb : userId ≠ b)
    (hok : Careful cfg b s (.tick userId session env drawn)) :
    (liveExecTick cfg s userId session env drawn).2 =
        (liveExecTick cfg t userId session env drawn).2 ∧
      Hides b (liveExecTick cfg s userId session env drawn).1
        (liveExecTick cfg t userId session env drawn).1 := by
  cases session with
  | none => exact ⟨rfl, h⟩
  | some session =>
    obtain ⟨hpass, hnone⟩ := hok session rfl
    simp only [liveExecTick]
    split
    · next hstrategy =>
      have hcareful := hpass (beq_iff_eq.mp hstrategy)
      obtain ⟨hcandidates, hkept⟩ := pass_kept h hb hcareful
      refine ⟨?_, hkept⟩
      rw [hcandidates]
      exact tickReply_kept hkept _ (pass_others h hb hcareful (hnone hb))
    · exact ⟨tickReply_kept h none (hnone hb), h⟩

theorem generate_hidden {modes : ModeSources} {env : DeskEnv} {limit : Int} {drawn : Drawn}
    (h : Hides b s t) (hok : Careful cfg b s (.generate b modes env limit drawn)) :
    Hides b (generateFinalBettingCandidates cfg s b modes env limit drawn).1 t := by
  rw [generateFinalBettingCandidates]
  cases hmodes : requireLivePrepEnabled modes with
  | error error => exact h
  | ok u => exact pass_hidden h (hok hmodes)

theorem generate_kept {userId : String} {modes : ModeSources} {env : DeskEnv} {limit : Int}
    {drawn : Drawn} (h : Hides b s t) (hb : userId ≠ b)
    (hok : Careful cfg b s (.generate userId modes env limit drawn)) :
    (generateFinalBettingCandidates cfg s userId modes env limit drawn).2 =
        (generateFinalBettingCandidates cfg t userId modes env limit drawn).2 ∧
      Hides b (generateFinalBettingCandidates cfg s userId modes env limit drawn).1
        (generateFinalBettingCandidates cfg t userId modes env limit drawn).1 := by
  rw [generateFinalBettingCandidates, generateFinalBettingCandidates]
  cases hmodes : requireLivePrepEnabled modes with
  | error error => exact ⟨rfl, h⟩
  | ok u =>
    obtain ⟨hcandidates, hkept⟩ := pass_kept h hb (hok hmodes)
    refine ⟨?_, hkept⟩
    dsimp only
    rw [hcandidates]

theorem serve_hidden {a : Action} (h : Hides b s t) (hok : Careful cfg b s a)
    (hb : a.userId = b) : Hides b (after cfg s a) t := by
  cases a with
  | tick userId session env drawn =>
    obtain rfl : userId = b := hb
    exact tick_hidden h hok
  | generate userId modes env limit drawn =>
    obtain rfl : userId = b := hb
    exact generate_hidden h hok
  | list userId modes f => exact h
  | approve candidateId req =>
    apply decide_hidden h (fun _ _ hrow => (CandidateRequests.approve_spec hrow).2.2)
    exact fun hmodes hsome => (hok hmodes hsome).mpr hb
  | reject candidateId req =>
    apply decide_hidden h (fun _ _ hrow => (CandidateRequests.reject_spec hrow).2.2)
    exact fun hmodes hsome => (hok hmodes hsome).mpr hb
  | submit candidateId env req => exact submit_hidden h hb hok

theorem serve_kept {a : Action} (h : Hides b s t) (hok : Careful cfg b s a)
    (hb : a.userId ≠ b) :
    reply cfg s a = reply cfg t a ∧ Hides b (after cfg s a) (after cfg t a) := by
  cases a with
  | tick userId session env drawn => exact tick_kept h hb hok
  | generate userId modes env limit drawn => exact generate_kept h hb hok
  | list userId modes f =>
    refine ⟨?_, h⟩
    change listCandidates s modes f = listCandidates t modes f
    rw [listCandidates, listCandidates]
    cases hmodes : requireLivePrepEnabled modes with
    | error error => rfl
    | ok u => rw [list_kept h (hok hb hmodes)]
  | approve candidateId req =>
    apply decide_kept h (fun _ _ hrow => (CandidateRequests.approve_spec hrow).2.2)
    exact fun hmodes hsome hid => hb ((hok hmodes hsome).mp hid)
  | reject candidateId req =>
    apply decide_kept h (fun _ _ hrow => (CandidateRequests.reject_spec hrow).2.2)
    exact fun hmodes hsome hid => hb ((hok hmodes hsome).mp hid)
  | submit candidateId env req => exact submit_kept h hb hok

theorem unwinds (cfg : FlowConfig) (b : String) : Unwinding.Unwinds (after cfg) (reply cfg)
    (fun a => a.userId == b) (Careful cfg b) (Hides b) where
  hides _ _ _ h hok hb := serve_hidden h hok (beq_iff_eq.mp hb)
  answers _ _ _ h hok hb := (serve_kept h hok (beq_eq_false_iff_ne.mp hb)).1
  follows _ _ _ h hok hb := (serve_kept h hok (beq_eq_false_iff_ne.mp hb)).2

theorem hides_start (b : String) : Hides b {} {} :=
  ⟨rfl, Nat.zero_le _, fun _ hr => absurd hr List.not_mem_nil, fun _ _ => rfl, fun _ _ => rfl, rfl⟩

/-- What another user sees is a part of what all others see. -/
theorem view_seen {a : String} (hab : a ≠ b) (actions : List Action) : view cfg a actions =
    (Unwinding.seen (after cfg) (reply cfg) (fun e => e.userId == b) {} actions).filter
      fun v => v.1.userId == a := by
  rw [view, Unwinding.seen, List.filter_map, List.filter_filter]
  congr 1
  apply List.filter_congr
  intro v hv
  by_cases ha : v.2.userId = a
  · simp [ha, hab]
  · simp [ha]

/-- In careful runs that differ in the requests of one user only, every other user sees the
same. -/
theorem isolated_of_careful (cfg : FlowConfig) (a b : String) (hab : a ≠ b)
    (actions actions' : List Action) (hdiffer : DifferIn b actions actions')
    (hok : ∀ v ∈ Machine.visits (after cfg) {} actions, Careful cfg b v.1 v.2)
    (hok' : ∀ v ∈ Machine.visits (after cfg) {} actions', Careful cfg b v.1 v.2) :
    view cfg a actions = view cfg a actions' := by
  rw [view_seen hab, view_seen hab]
  exact congrArg _ (Unwinding.seen_eq (unwinds cfg b) (hides_start b) hdiffer hok hok')

/-- The request places an order on the account of its user. -/
def placesOrder : Reply → Bool
  | .submitted result => result.placed.isSome
  | _ => false

def generateFor (userId candidateId : String) : Action :=
  .generate userId manualModes (deskEnv 0 15 1 []) 5
    ⟨fun _ => candidateId, fun _ => dayTime 0 15 1⟩

/-- Two requests of user `u` on the candidate `c`. -/
def approveAndSubmit : List Action :=
  [.approve "c" (requestAt 15 2), .submit "c" submitEnv (requestAt 15 3)]

/-- With the candidate that was generated in the session of `v`, user `u` places an order. -/
theorem othersCandidate_submitted :
    ¬∀ (cfg : FlowConfig) (a b : String) (actions actions' : List Action), a ≠ b →
      DifferIn b actions actions' → view cfg a actions = view cfg a actions' := by
  intro h
  have hsame := h flowConfig "u" "v" (generateFor "v" "c" :: approveAndSubmit) approveAndSubmit
    (by decide) (by simp [DifferIn, generateFor, Action.userId])
  have horders := congrArg (List.map fun e => placesOrder e.2) hsame
  exact absurd horders (by decide +kernel)

def ownCandidate : List Action := generateFor "u" "c" :: approveAndSubmit

/-- `v` generates a candidate of its own and asks for another one that is not there. -/
def ownCandidateBeside : List Action :=
  [generateFor "u" "c", generateFor "v" "d", .approve "e" { requestAt 15 2 with userId := "v" }] ++
    approveAndSubmit

theorem ownCandidate_isolated :
    view flowConfig "u" ownCandidateBeside = view flowConfig "u" ownCandidate := by
  apply isolated_of_careful flowConfig "u" "v" (by decide)
  · simp [DifferIn, ownCandidateBeside, ownCandidate, approveAndSubmit, generateFor, Action.userId,
      requestAt]
  · decide +kernel
  · decide +kernel

end Runs

end StockQuant.UserIsolation
