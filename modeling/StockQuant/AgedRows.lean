import Mathlib.Data.List.DropRight
import Mathlib.Data.List.Nodup
import StockQuant.Machine

namespace StockQuant.AgedRows

open StockQuant Machine

variable {α κ : Type*} [DecidableEq κ] (key : α → κ) (cap : Nat)

/-- A row takes the place of the first row of its key, or comes last. -/
def place (row : α) : List α → List α
  | [] => [row]
  | r :: rows => if key r = key row then row :: rows else r :: place row rows

/-- What does not fit goes from the front. -/
def put (rows : List α) (row : α) : List α := (place key row rows).rtake cap

/-- The keys that a run adds: those of which the table has no row when they come. -/
def insertions (rows us : List α) : List κ :=
  (visits (put key cap) rows us).filterMap fun v =>
    if key v.2 ∈ v.1.map key then none else some (key v.2)

/-- The row `r` has no successor in the table any more once `row` is put. -/
def Drops (rows : List α) (row r : α) : Prop := r ∈ rows ∧ key r ∉ (put key cap rows row).map key

section Take

variable {l : List α} {n : Nat}

theorem rtake_rtake_concat (l : List α) (x : α) (n : Nat) :
    (l.rtake n ++ [x]).rtake n = (l ++ [x]).rtake n := by
  cases n with
  | zero => simp
  | succ n =>
    rw [List.rtake_concat_succ, List.rtake_concat_succ]
    congr 1
    simp only [List.rtake, List.length_drop, List.drop_drop]
    congr 1
    omega

theorem rtake_of_length_le (h : l.length ≤ n) : l.rtake n = l := by
  rw [List.rtake, Nat.sub_eq_zero_of_le h, List.drop_zero]

theorem map_rtake {β : Type*} (f : α → β) (l : List α) (n : Nat) :
    (l.rtake n).map f = (l.map f).rtake n := by
  simp only [List.rtake, List.map_drop, List.length_map]

theorem length_rtake (l : List α) (n : Nat) : (l.rtake n).length = min n l.length := by
  rw [List.rtake, List.length_drop]
  omega

theorem rtake_sublist (l : List α) (n : Nat) : (l.rtake n).Sublist l := List.drop_sublist _ l

end Take

variable {key cap} {rows us : List α} {row r : α}

section Step

theorem place_keys (row : α) (rows : List α) : (place key row rows).map key =
    if key row ∈ rows.map key then rows.map key else rows.map key ++ [key row] := by
  induction rows with
  | nil => rfl
  | cons r rows ih =>
    by_cases h : key r = key row
    · simp [place, h]
    · simp only [place, h, if_false, List.map_cons, ih, List.mem_cons, Ne.symm h, false_or]
      split <;> rfl

theorem place_new (hnew : key row ∉ rows.map key) : place key row rows = rows ++ [row] := by
  induction rows with
  | nil => rfl
  | cons r rows ih =>
    obtain ⟨hr, hrows⟩ := not_or.mp fun hmem => hnew (List.mem_cons.mpr hmem)
    rw [place, if_neg (Ne.symm hr), ih hrows, List.cons_append]

theorem mem_place_self (row : α) (rows : List α) : row ∈ place key row rows := by
  induction rows with
  | nil => exact List.mem_cons_self
  | cons r rows ih =>
    rw [place]
    split
    · exact List.mem_cons_self
    · exact List.mem_cons_of_mem r ih

/-- A key that is held keeps its place; a new one comes last. -/
theorem put_keys (hroom : rows.length ≤ cap) (row : α) :
    (put key cap rows row).map key =
      if key row ∈ rows.map key then rows.map key else (rows.map key ++ [key row]).rtake cap := by
  rw [put, map_rtake, place_keys]
  split
  · exact rtake_of_length_le (by rwa [List.length_map])
  · rfl

theorem put_length (rows : List α) (row : α) : (put key cap rows row).length ≤ cap := by
  rw [put, length_rtake]
  exact min_le_left cap _

theorem put_nodup (h : (rows.map key).Nodup) (row : α) :
    ((put key cap rows row).map key).Nodup := by
  rw [put, map_rtake, place_keys]
  apply List.Nodup.sublist (rtake_sublist _ _)
  split
  · exact h
  · next hnew =>
    exact List.Nodup.append h (List.nodup_singleton _) (List.disjoint_singleton.mpr hnew)

theorem put_new (hnew : key row ∉ rows.map key) :
    put key cap rows row = (rows ++ [row]).rtake cap := congrArg (List.rtake · cap) (place_new hnew)

/-- A row that is put is there. -/
theorem mem_put_self (hcap : 0 < cap) (hroom : rows.length ≤ cap) (row : α) :
    row ∈ put key cap rows row := by
  by_cases hheld : key row ∈ rows.map key
  · have hkeys : (place key row rows).map key = _ := place_keys row rows
    rw [if_pos hheld] at hkeys
    have hlen := congrArg List.length hkeys
    rw [List.length_map, List.length_map] at hlen
    rw [put, rtake_of_length_le (hlen.trans_le hroom)]
    exact mem_place_self row rows
  · obtain ⟨n, hn⟩ := Nat.exists_eq_succ_of_ne_zero hcap.ne'
    rw [put_new hheld, hn, List.rtake_concat_succ]
    exact List.mem_append_right _ List.mem_cons_self

theorem mem_place (hnodup : (rows.map key).Nodup) (h : r ∈ place key row rows) :
    r = row ∨ (r ∈ rows ∧ key r ≠ key row) := by
  induction rows with
  | nil => exact .inl (List.mem_singleton.mp h)
  | cons x rows ih =>
    obtain ⟨hx, hrows⟩ := List.nodup_cons.mp hnodup
    rw [place] at h
    split at h
    · next hkey =>
      obtain hr | hr := List.mem_cons.mp h
      · exact .inl hr
      · refine .inr ⟨List.mem_cons_of_mem x hr, fun hsame => hx ?_⟩
        rw [hkey, ← hsame]
        exact List.mem_map_of_mem hr
    · next hkey =>
      obtain rfl | hr := List.mem_cons.mp h
      · exact .inr ⟨List.mem_cons_self, hkey⟩
      · exact (ih hrows hr).imp id fun hold => ⟨List.mem_cons_of_mem x hold.1, hold.2⟩

/-- A row of the table is the one put, or an old one of another key. -/
theorem mem_put (hnodup : (rows.map key).Nodup) (h : r ∈ put key cap rows row) :
    r = row ∨ (r ∈ rows ∧ key r ≠ key row) :=
  mem_place hnodup ((rtake_sublist _ _).subset h)

/-- With one row a key, looking from the back finds the row of a key wherever it is. -/
theorem find_of_nodup {k : κ} (hnodup : (rows.map key).Nodup) :
    rows.reverse.find? (fun x => key x = k) = some r ↔ r ∈ rows ∧ key r = k := by
  constructor
  · intro h
    exact ⟨List.mem_reverse.mp (List.mem_of_find?_eq_some h), by simpa using List.find?_some h⟩
  · rintro ⟨hmem, rfl⟩
    cases hfound : rows.reverse.find? (fun x => key x = key r) with
    | none =>
      have hnot := List.find?_eq_none.mp hfound r (List.mem_reverse.mpr hmem)
      exact absurd (decide_eq_true rfl) hnot
    | some x =>
      have hx : x ∈ rows := List.mem_reverse.mp (List.mem_of_find?_eq_some hfound)
      have hkey : key x = key r := by simpa using List.find?_some hfound
      exact congrArg some (List.inj_on_of_nodup_map hnodup hx hmem hkey)

/-- Only a new key that comes to a full table drops a row: the first one. -/
theorem drops_first (hroom : rows.length ≤ cap) (h : Drops key cap rows row r) :
    key row ∉ rows.map key ∧ rows.length = cap ∧ rows.head? = some r ∧
      put key cap rows row = rows.tail ++ [row] := by
  obtain ⟨hmem, hout⟩ := h
  have hkey : key r ∈ rows.map key := List.mem_map_of_mem hmem
  have hnew : key row ∉ rows.map key := by
    intro hheld
    rw [put_keys hroom, if_pos hheld] at hout
    exact hout hkey
  have hput : put key cap rows row = _ := put_new hnew
  have hfull : rows.length = cap := by
    apply Nat.le_antisymm hroom
    by_contra hfree
    apply hout
    rw [hput, rtake_of_length_le (by rw [List.length_append, List.length_singleton]; omega),
      List.map_append]
    exact List.mem_append_left _ hkey
  cases rows with
  | nil => exact absurd hmem List.not_mem_nil
  | cons x rows =>
    have htail : put key cap (x :: rows) row = rows ++ [row] := by
      rw [hput, List.rtake, ← hfull, List.cons_append, List.length_cons, List.length_append,
        List.length_singleton, List.length_cons, Nat.add_sub_cancel_left, List.drop_one,
        List.tail_cons]
    refine ⟨hnew, hfull, ?_, htail⟩
    obtain rfl | hrest := List.mem_cons.mp hmem
    · rfl
    · apply absurd _ hout
      rw [htail, List.map_append]
      exact List.mem_append_left _ (List.mem_map_of_mem hrest)

end Step

section Run

theorem run_snoc (rows us : List α) (u : α) :
    run (put key cap) rows (us ++ [u]) = put key cap (run (put key cap) rows us) u :=
  run_append (put key cap) rows us [u]

theorem run_length (hroom : rows.length ≤ cap) (us : List α) :
    (run (put key cap) rows us).length ≤ cap := by
  induction us using List.reverseRecOn with
  | nil => exact hroom
  | append_singleton us u _ =>
    rw [run_snoc]
    exact put_length _ u

theorem insertions_snoc (rows us : List α) (u : α) :
    insertions key cap rows (us ++ [u]) = insertions key cap rows us ++
      if key u ∈ (run (put key cap) rows us).map key then [] else [key u] := by
  rw [insertions, visits_append, List.filterMap_append]
  congr 1
  simp only [visits, List.filterMap_cons, List.filterMap_nil]
  by_cases h : key u ∈ (run (put key cap) rows us).map key
  · rw [if_pos h, if_pos h]
  · rw [if_neg h, if_neg h]

/-- The keys of the table are the last ones inserted. -/
theorem run_keys (hroom : rows.length ≤ cap) (us : List α) :
    (run (put key cap) rows us).map key =
      (rows.map key ++ insertions key cap rows us).rtake cap := by
  induction us using List.reverseRecOn with
  | nil =>
    rw [insertions, visits, List.filterMap_nil, List.append_nil]
    exact (rtake_of_length_le (by rwa [List.length_map])).symm
  | append_singleton us u ih =>
    rw [run_snoc, put_keys (run_length hroom us), insertions_snoc]
    split
    · rw [List.append_nil]
      exact ih
    · rw [ih, rtake_rtake_concat, List.append_assoc]

theorem run_nodup (hnodup : (rows.map key).Nodup) (us : List α) :
    ((run (put key cap) rows us).map key).Nodup := by
  induction us using List.reverseRecOn with
  | nil => exact hnodup
  | append_singleton us u ih =>
    rw [run_snoc]
    exact put_nodup ih u

/-- The row of a key is the last one of that key. -/
theorem run_latest (hnodup : (rows.map key).Nodup) (us : List α)
    (h : r ∈ run (put key cap) rows us) :
    ((rows ++ us).filter fun x => key x = key r).getLast? = some r := by
  induction us using List.reverseRecOn with
  | nil =>
    have hall : ∀ x ∈ rows.filter fun x => key x = key r, x = r := by
      intro x hx
      obtain ⟨hmem, hkey⟩ := List.mem_filter.mp hx
      exact List.inj_on_of_nodup_map hnodup hmem h (of_decide_eq_true hkey)
    have hmem : r ∈ rows.filter fun x => key x = key r :=
      List.mem_filter.mpr ⟨h, decide_eq_true rfl⟩
    rw [List.append_nil, List.getLast?_eq_some_getLast (List.ne_nil_of_mem hmem)]
    exact congrArg some (hall _ (List.getLast_mem _))
  | append_singleton us u ih =>
    rw [run_snoc] at h
    rw [← List.append_assoc, List.filter_append]
    obtain rfl | ⟨hold, hkey⟩ := mem_put (run_nodup hnodup us) h
    · simp
    · rw [List.filter_cons_of_neg (by simpa using Ne.symm hkey), List.filter_nil, List.append_nil]
      exact ih hold

/-- Rows of new keys come last while there is room. -/
theorem run_fresh (hnew : ((rows ++ us).map key).Nodup) (hroom : rows.length + us.length ≤ cap) :
    run (put key cap) rows us = rows ++ us := by
  induction us using List.reverseRecOn with
  | nil => exact (List.append_nil rows).symm
  | append_singleton us u ih =>
    rw [List.length_append, List.length_singleton] at hroom
    rw [← List.append_assoc, List.map_append] at hnew
    obtain ⟨hnodup, -, hlast⟩ := List.nodup_append.mp hnew
    have hrows := ih hnodup (by omega)
    have hout : key u ∉ (rows ++ us).map key := fun hmem => hlast _ hmem _ List.mem_cons_self rfl
    rw [run_snoc, hrows, put_new hout, rtake_of_length_le, List.append_assoc]
    simp only [List.length_append, List.length_singleton]
    omega

end Run

end StockQuant.AgedRows
