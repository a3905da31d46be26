import StockQuant.Num
import StockQuant.Clock

namespace StockQuant.LiveAutoState

open StockQuant Clock

/-- The persisted state of one user's automatic trading. -/
structure LiveAutoGuardedState where
  userId : String
  enabled : Bool := false
  selectedStrategy : Option String := none
  modeByStrategy : List (String × String) := []
  lastDecision : String := ""
  lastReason : String := ""
  cooldownUntilUtc : Option Stamp := none
  recentSubmits : List (String × Stamp) := []
  dailyKstDate : String := ""
  dailyBuyCount : Int := 0
  dailySellCount : Int := 0
  deriving DecidableEq, Repr

/-- `d[key] = value`. -/
def setKey {α : Type*} (key : String) (value : α) : List (String × α) → List (String × α)
  | [] => [(key, value)]
  | kv :: rest => if kv.1 = key then (key, value) :: rest else kv :: setKey key value rest

theorem lookup_setKey {α : Type*} {key symbol : String} {value : α} (d : List (String × α)) :
    (setKey key value d).lookup symbol = if symbol = key then some value else d.lookup symbol := by
  induction d with
  | nil =>
    by_cases h : symbol = key
    · simp [setKey, h]
    · simp [setKey, List.lookup_cons, beq_false_of_ne h, h]
  | cons kv rest ih =>
    obtain ⟨k, v⟩ := kv
    by_cases hk : k = key
    · subst hk
      rw [setKey, if_pos rfl]
      by_cases h : symbol = k
      · simp [h]
      · simp [List.lookup_cons, beq_false_of_ne h, h]
    · rw [setKey, if_neg hk]
      by_cases h : symbol = k
      · simp [h, hk]
      · rw [List.lookup_cons, List.lookup_cons, beq_false_of_ne h]
        exact ih

theorem setKey_of_fresh {α : Type*} {key : String} {value : α} {d : List (String × α)}
    (h : key ∉ d.map Prod.fst) : setKey key value d = d ++ [(key, value)] := by
  induction d with
  | nil => rfl
  | cons kv rest ih =>
    obtain ⟨hne, hrest⟩ : key ≠ kv.1 ∧ key ∉ rest.map Prod.fst := by simpa using h
    rw [setKey, if_neg (Ne.symm hne), ih hrest, List.cons_append]

theorem setKey_of_lookup {α : Type*} {key : String} {value : α} {d : List (String × α)}
    (h : d.lookup key = some value) : setKey key value d = d := by
  induction d with
  | nil => cases h
  | cons kv d ih =>
    by_cases hkey : kv.1 = key
    · rw [List.lookup_cons, hkey, BEq.rfl] at h
      obtain rfl := Option.some.inj h
      rw [setKey, if_pos hkey, ← hkey]
    · rw [List.lookup_cons, beq_false_of_ne (Ne.symm hkey)] at h
      rw [setKey, if_neg hkey, ih h]

theorem keys_setKey {α : Type*} {key : String} {value : α} (d : List (String × α)) :
    (setKey key value d).map Prod.fst =
      if key ∈ d.map Prod.fst then d.map Prod.fst else d.map Prod.fst ++ [key] := by
  induction d with
  | nil => rfl
  | cons kv rest ih =>
    by_cases hk : kv.1 = key
    · rw [setKey, if_pos hk, if_pos (by simp [hk])]
      simp [hk]
    · rw [setKey, if_neg hk, List.map_cons, ih, List.map_cons]
      have hmem : key ∈ kv.1 :: rest.map Prod.fst ↔ key ∈ rest.map Prod.fst := by
        simp [Ne.symm hk]
      simp only [hmem]
      split <;> rfl

theorem nodup_setKey {α : Type*} {key : String} {value : α} {d : List (String × α)}
    (h : (d.map Prod.fst).Nodup) : ((setKey key value d).map Prod.fst).Nodup := by
  rw [keys_setKey]
  split
  case isTrue => exact h
  case isFalse hfresh =>
    refine List.nodup_append.mpr ⟨h, List.pairwise_singleton _ key, fun k hk k' hk' e => ?_⟩
    rw [e, List.mem_singleton.mp hk'] at hk
    exact hfresh hk

/-- With distinct keys an entry is found under its key. -/
theorem mem_iff_lookup {α : Type*} {key : String} {value : α} {d : List (String × α)}
    (h : (d.map Prod.fst).Nodup) : (key, value) ∈ d ↔ d.lookup key = some value := by
  constructor
  · intro hmem
    obtain ⟨before, after, rfl⟩ := List.append_of_mem hmem
    rw [List.map_append, List.map_cons] at h
    refine List.lookup_eq_some_iff.mpr ⟨before, after, rfl, fun kv hkv => ?_⟩
    have hne := (List.nodup_append.mp h).2.2 kv.1 (List.mem_map_of_mem hkv) key
      List.mem_cons_self
    simpa using hne.symm
  · intro hlookup
    obtain ⟨before, after, rfl, -⟩ := List.lookup_eq_some_iff.mp hlookup
    exact List.mem_append_right before List.mem_cons_self

/-- Of entries with distinct keys, each is found after all of them are set. -/
theorem lookup_foldl_setKey {α : Type*} {kvs : List (String × α)} (h : (kvs.map Prod.fst).Nodup)
    {key : String} {value : α} (hmem : (key, value) ∈ kvs) (d : List (String × α)) :
    (kvs.foldl (fun d kv => setKey kv.1 kv.2 d) d).lookup key = some value := by
  induction kvs using List.reverseRecOn with
  | nil => cases hmem
  | append_singleton kvs last ih =>
    rw [List.map_append] at h
    obtain ⟨hkvs, -, hfresh⟩ := List.nodup_append.mp h
    rw [List.foldl_append, List.foldl_cons, List.foldl_nil, lookup_setKey]
    obtain hmem | hlast := List.mem_append.mp hmem
    · have hne : key ≠ last.1 :=
        hfresh key (List.mem_map_of_mem hmem) last.1 List.mem_cons_self
      rw [if_neg hne]
      exact ih hkvs hmem
    · obtain rfl := List.mem_singleton.mp hlast
      exact if_pos rfl

def ensureDailyRollover (now : Instant) (st : LiveAutoGuardedState) : LiveAutoGuardedState :=
  if st.dailyKstDate = kstDate now then st
  else
    { st with
      dailyKstDate := kstDate now
      dailyBuyCount := 0
      dailySellCount := 0
      recentSubmits := [] }

/-- `st.last_decision` and `st.last_reason` set together. -/
def LiveAutoGuardedState.mark (st : LiveAutoGuardedState) (decision reason : String) :
    LiveAutoGuardedState :=
  { st with lastDecision := decision, lastReason := reason }

def shouldSkipDueToCooldown (cooldownUntilUtc : Option Stamp) (now : Instant) : Bool × String :=
  match cooldownUntilUtc with
  | some (.at t) =>
    if now < t then (true, s!"cooldown_active until={isoformat t}") else (false, "")
  | some (.unreadable _) | none => (false, "")

def setCooldownAfterLoss (st : LiveAutoGuardedState) (minutes : Int) (now : Instant) :
    LiveAutoGuardedState :=
  if max 0 minutes ≤ 0 then st
  else { st with cooldownUntilUtc := some (.at (now + minutes * microsPerMinute)) }

def dupKey (side symbol : String) : String :=
  Text.lower (Text.strip side) ++ ":" ++ Text.strip symbol

def recentDupBlocked (st : LiveAutoGuardedState) (side symbol : String) (blockMinutes : Int)
    (now : Instant) : Bool × String :=
  if max 0 blockMinutes ≤ 0 then (false, "")
  else
    match st.recentSubmits.lookup (dupKey side symbol) with
    | some (.at t) =>
      if now - t < blockMinutes * microsPerMinute then
        (true, s!"duplicate_recent_submit key={dupKey side symbol} age_sec={Num.toInt ((now - t : Int) / microsPerSecond)}")
      else (false, "")
    | some (.unreadable _) | none => (false, "")

end StockQuant.LiveAutoState
