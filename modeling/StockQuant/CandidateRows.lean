import StockQuant.ManualApproval

namespace StockQuant.CandidateRows

open StockQuant Clock LivePrep ManualApproval

section Rows

variable {cand : LiveCandidate} {rows rows' : List LiveCandidate} {keep : String → Bool} {id : String}

/-- The rows whose identifiers are kept. -/
def keepRows (keep : String → Bool) (rows : List LiveCandidate) : List LiveCandidate :=
  rows.filter fun r => keep r.candidateId

theorem keepRows_cons (r : LiveCandidate) (rows : List LiveCandidate) :
    keepRows keep (r :: rows) =
      if keep r.candidateId then r :: keepRows keep rows else keepRows keep rows := by
  rw [keepRows, List.filter_cons]
  rfl

theorem keepRows_append (rows rows' : List LiveCandidate) :
    keepRows keep (rows ++ rows') = keepRows keep rows ++ keepRows keep rows' :=
  List.filter_append ..

theorem get_id (h : get id rows = some cand) : cand.candidateId = id := by
  have hfound := List.find?_some h
  exact beq_iff_eq.mp hfound

theorem get_keepRows (hid : keep id = true) : get id (keepRows keep rows) = get id rows := by
  induction rows with
  | nil => rfl
  | cons r rows ih =>
    rw [keepRows_cons]
    by_cases hr : r.candidateId = id
    · simp [LivePrep.get, hr, hid]
    · simp only [LivePrep.get] at ih ⊢
      split <;> simp [hr, ih]

theorem get_keepRows_none (h : get id rows = none) : get id (keepRows keep rows) = none :=
  List.find?_eq_none.mpr fun r hr =>
    List.find?_eq_none.mp h r (List.mem_of_mem_filter hr)

theorem get_absent (h : ∀ r ∈ rows, r.candidateId ≠ id) : get id rows = none :=
  List.find?_eq_none.mpr fun r hr => by simp [h r hr]

theorem replaceRow_keepRows (h : replaceRow cand rows = some rows') :
    (keep cand.candidateId = true →
      replaceRow cand (keepRows keep rows) = some (keepRows keep rows')) ∧
    (keep cand.candidateId = false → keepRows keep rows' = keepRows keep rows) := by
  obtain ⟨before, r, after, hbefore, hid, rfl, rfl⟩ := replaceRow_eq_some.mp h
  rw [keepRows_append, keepRows_append, keepRows_cons, keepRows_cons, hid]
  constructor
  · intro hkeep
    rw [if_pos hkeep, if_pos hkeep]
    apply replaceRow_eq_some.mpr
    exact ⟨_, r, _, fun q hq => hbefore q (List.mem_of_mem_filter hq), hid, rfl, rfl⟩
  · intro hkeep
    rw [hkeep]
    rfl

theorem upsert_stored (hroom : rows.length ≤ maxRecords)
    (hstored : (get cand.candidateId rows).isSome) :
    replaceRow cand rows = some (upsert cand rows) := by
  obtain ⟨rows', hrows'⟩ := Option.isSome_iff_exists.mp (replaceRow_isSome.mpr hstored)
  have hlength := replaceRow_length hrows'
  rw [upsert, hrows', Option.getD_some, Nat.sub_eq_zero_of_le (by omega), List.drop_zero]

/-- An upsert of a stored row that is kept is one of the kept rows. -/
theorem upsert_kept (hroom : rows.length ≤ maxRecords)
    (hstored : (get cand.candidateId rows).isSome) (hkeep : keep cand.candidateId = true) :
    upsert cand (keepRows keep rows) = keepRows keep (upsert cand rows) := by
  have hkept := (replaceRow_keepRows (upsert_stored hroom hstored)).1 hkeep
  have hroom' : (keepRows keep rows).length ≤ maxRecords :=
    (List.length_filter_le _ _).trans hroom
  have hstored' : (get cand.candidateId (keepRows keep rows)).isSome := by
    rw [get_keepRows hkeep]
    exact hstored
  exact Option.some.inj ((upsert_stored hroom' hstored').symm.trans hkept)

/-- An upsert of a stored row that is not kept leaves the kept rows as they are. -/
theorem upsert_hidden (hroom : rows.length ≤ maxRecords)
    (hstored : (get cand.candidateId rows).isSome) (hkeep : keep cand.candidateId = false) :
    keepRows keep (upsert cand rows) = keepRows keep rows :=
  (replaceRow_keepRows (upsert_stored hroom hstored)).2 hkeep

theorem replaceRow_ids (h : replaceRow cand rows = some rows') :
    rows'.map LiveCandidate.candidateId = rows.map LiveCandidate.candidateId := by
  obtain ⟨before, r, after, -, hid, rfl, rfl⟩ := replaceRow_eq_some.mp h
  rw [List.map_append, List.map_append, List.map_cons, List.map_cons, hid]

theorem upsert_ids (hroom : rows.length ≤ maxRecords)
    (hstored : (get cand.candidateId rows).isSome) :
    (upsert cand rows).map LiveCandidate.candidateId = rows.map LiveCandidate.candidateId :=
  replaceRow_ids (upsert_stored hroom hstored)

theorem upsert_absent (h : ∀ r ∈ rows, r.candidateId ≠ cand.candidateId) :
    upsert cand rows = (rows ++ [cand]).drop (rows.length + 1 - maxRecords) := by
  have hnone : replaceRow cand rows = none := by
    rw [← Option.not_isSome_iff_eq_none, replaceRow_isSome, get_absent h]
    simp
  rw [upsert, hnone, Option.getD_none, List.length_append]
  rfl

/-- New candidates go to the end, and the oldest rows give way. -/
theorem upsertEach_fresh {candidates : List LiveCandidate} (hroom : rows.length ≤ maxRecords)
    (hnodup : (candidates.map LiveCandidate.candidateId).Nodup)
    (hfresh : ∀ c ∈ candidates, ∀ r ∈ rows, r.candidateId ≠ c.candidateId) :
    upsertEach candidates rows =
      (rows ++ candidates).drop (rows.length + candidates.length - maxRecords) := by
  induction candidates generalizing rows with
  | nil => simp [upsertEach, Nat.sub_eq_zero_of_le hroom]
  | cons c candidates ih =>
    obtain ⟨hnew, hrest⟩ := List.nodup_cons.mp hnodup
    have hupsert := upsert_absent (hfresh c List.mem_cons_self)
    have hlength : (upsert c rows).length = rows.length + 1 - (rows.length + 1 - maxRecords) := by
      rw [hupsert, List.length_drop, List.length_append]
      rfl
    have hfresh' : ∀ c' ∈ candidates, ∀ r ∈ upsert c rows, r.candidateId ≠ c'.candidateId := by
      intro c' hc' r hr
      rw [hupsert] at hr
      obtain hr | hr := List.mem_append.mp (List.mem_of_mem_drop hr)
      · exact hfresh c' (List.mem_cons_of_mem c hc') r hr
      · obtain rfl := List.mem_singleton.mp hr
        exact fun heq => hnew (heq ▸ List.mem_map_of_mem hc')
    have hroom' : (upsert c rows).length ≤ maxRecords := by omega
    have hall := ih hroom' hrest hfresh'
    have hle : rows.length + 1 - maxRecords ≤ (rows ++ [c]).length := by
      rw [List.length_append, List.length_singleton]
      omega
    calc upsertEach (c :: candidates) rows
        = upsertEach candidates (upsert c rows) := by rw [upsertEach, List.foldl_cons, upsertEach]
      _ = (upsert c rows ++ candidates).drop
            ((upsert c rows).length + candidates.length - maxRecords) := hall
      _ = ((rows ++ [c] ++ candidates).drop (rows.length + 1 - maxRecords)).drop
            ((upsert c rows).length + candidates.length - maxRecords) := by
          rw [List.drop_append_of_le_length hle, ← hupsert]
      _ = (rows ++ c :: candidates).drop
            (rows.length + (c :: candidates).length - maxRecords) := by
          have hcount : rows.length + 1 - maxRecords +
              ((upsert c rows).length + candidates.length - maxRecords) =
                rows.length + (c :: candidates).length - maxRecords := by
            rw [List.length_cons]
            omega
          rw [List.drop_drop, hcount, List.append_assoc, List.singleton_append]

end Rows

section Listing

variable {keep : String → Bool} {created created' : String → Instant} {rows : List LiveCandidate}
  {f : ListFilter}

theorem keepRows_all (h : ∀ r ∈ rows, keep r.candidateId = true) : keepRows keep rows = rows :=
  List.filter_eq_self.mpr h

theorem keepRows_none (h : ∀ r ∈ rows, keep r.candidateId = false) : keepRows keep rows = [] :=
  List.filter_eq_nil_iff.mpr fun r hr => by simp [h r hr]

theorem keepRows_congr {keep' : String → Bool}
    (h : ∀ r ∈ rows, keep r.candidateId = keep' r.candidateId) :
    keepRows keep rows = keepRows keep' rows :=
  List.filter_congr h

/-- A list without hidden rows is the same without the hidden rows. -/
theorem listFiltered_keepRows (hnone : ∀ r ∈ rows, f.admits r = true → keep r.candidateId = true)
    (hcreated : ∀ id, keep id = true → created' id = created id) :
    listFiltered f created' (keepRows keep rows) = listFiltered f created rows := by
  have hrows : (keepRows keep rows).filter f.admits = rows.filter f.admits := by
    rw [keepRows, List.filter_filter]
    apply List.filter_congr
    intro r hr
    by_cases hadmits : f.admits r = true
    · rw [hadmits, hnone r hr hadmits]
      rfl
    · rw [Bool.not_eq_true] at hadmits
      rw [hadmits, Bool.false_and]
  have hdated : (rows.filter f.admits).map (fun c => (created' c.candidateId, c)) =
      (rows.filter f.admits).map fun c => (created c.candidateId, c) := by
    apply List.map_congr_left
    intro r hr
    obtain ⟨hmem, hadmits⟩ := List.mem_filter.mp hr
    rw [hcreated r.candidateId (hnone r hmem hadmits)]
  rw [listFiltered, listFiltered, hrows, hdated]

/-- A list that is not cut has every admitted row. -/
theorem mem_listFiltered (hlimit : f.limit = 500) (hroom : rows.length ≤ maxRecords)
    {r : LiveCandidate} : r ∈ listFiltered f created rows ↔ r ∈ rows ∧ f.admits r = true := by
  have hfilter := List.length_filter_le f.admits rows
  have hcut : ∀ dated : List (Instant × LiveCandidate), dated.length = (rows.filter f.admits).length →
      (dated.map Prod.snd).take (max 1 (min f.limit 500)).toNat = dated.map Prod.snd := by
    intro dated hdated
    apply List.take_of_length_le
    rw [List.length_map, hdated, hlimit]
    have hmax : maxRecords = 500 := rfl
    omega
  rw [listFiltered]
  rw [hcut _ (by rw [List.length_mergeSort, List.length_map]), List.mem_map]
  simp only [List.mem_mergeSort, List.mem_map, List.mem_filter]
  constructor
  · rintro ⟨-, ⟨c, hc, rfl⟩, rfl⟩
    exact hc
  · exact fun hr => ⟨_, ⟨r, hr, rfl⟩, rfl⟩

end Listing

end StockQuant.CandidateRows
