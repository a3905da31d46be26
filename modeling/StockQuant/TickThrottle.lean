import StockQuant.KstDays
import StockQuant.LiveClients
import StockQuant.Throttle

namespace StockQuant.TickThrottle

open StockQuant Clock OrderModels EquityTracker LiveAutoState LiveAutoGuarded LiveAutoGate
  LiveTickSteps LiveRun LossCooldown LiveClients Throttle

def sideKey : Side → String
  | .buy => "buy"
  | .sell => "sell"

/-- A submission under its duplicate key; the buys count towards the day's limit. -/
def entryOf (s : Submission) : Entry Instant String where
  key := dupKey (sideKey s.call.order.side) s.call.order.symbol
  counted := s.call.order.side == .buy
  time := s.time

def limits (cfg : LiveAutoConfig) : Limits Instant String where
  day := kstDate
  stretch hab hbc h := KstDays.kstDate_between hab hbc h
  perDay := cfg.liveAutoMaxDailyBuyCount
  gap := cfg.liveAutoDuplicateOrderBlockMinutes * microsPerMinute

def stampTime : Stamp → Option Instant
  | .at t => some t
  | .unreadable _ => none

/-- What the stored state remembers of the day's submissions. -/
def bookOf (st : LiveAutoGuardedState) : Book Instant String String where
  day := st.dailyKstDate
  counted := st.dailyBuyCount
  last key := (st.recentSubmits.lookup key).bind stampTime

theorem bookOf_record {st st' : LiveAutoGuardedState} (h : tradeRecord st = tradeRecord st') :
    bookOf st = bookOf st' := by
  simp only [tradeRecord, TradeRecord.mk.injEq] at h
  obtain ⟨-, -, hrecent, hdate, hbuys, -⟩ := h
  rw [bookOf, bookOf, hrecent, hdate, hbuys]

theorem bookOf_rolled (now : Instant) (st : LiveAutoGuardedState) :
    bookOf (ensureDailyRollover now st) = (bookOf st).roll (kstDate now) := by
  unfold ensureDailyRollover Book.roll
  by_cases h : st.dailyKstDate = kstDate now
  · rw [if_pos h]
    exact (if_pos h).symm
  · rw [if_neg h]
    exact (if_neg h).symm

theorem book_last_setKey (recent : List (String × Stamp)) (key : String) (t : Instant) :
    (fun k => ((setKey key (.at t) recent).lookup k).bind stampTime) =
      Function.update (fun k => (recent.lookup k).bind stampTime) key (some t) := by
  funext k
  rw [lookup_setKey]
  by_cases hk : k = key
  · simp [hk, stampTime]
  · simp [hk]

theorem bookOf_sellSubmitted (cfg : LiveAutoConfig) (env : TickEnv) (st : LiveAutoGuardedState)
    (p : PositionView) (i : Nat) (reason : String) (call : PlacedOrder)
    (hside : call.order.side = .sell) (hsymbol : call.order.symbol = p.symbol) :
    bookOf (sellSubmitted cfg env st p i reason) =
      (bookOf st).submit (entryOf ⟨call, env.clock (.sellSubmitted i)⟩) := by
  have hrecord : bookOf (sellSubmitted cfg env st p i reason) =
      bookOf { st with
        recentSubmits :=
          setKey (dupKey "sell" p.symbol) (.at (env.clock (.sellSubmitted i))) st.recentSubmits } := by
    rw [sellSubmitted, setCooldownAfterLoss]
    dsimp only
    split
    · split <;> rfl
    · rfl
  rw [hrecord]
  simp [bookOf, Book.submit, entryOf, hside, hsymbol, sideKey, book_last_setKey]

/-- The duplicate block lets a submission through once the gap is over. -/
theorem notDup_free {cfg : LiveAutoConfig} {st : LiveAutoGuardedState} {side symbol : String}
    {now : Instant}
    (h : (recentDupBlocked st side symbol cfg.liveAutoDuplicateOrderBlockMinutes now).1 = false)
    (hgap : 0 < (limits cfg).gap) :
    ∀ t, (bookOf st).last (dupKey side symbol) = some t → t + (limits cfg).gap ≤ now := by
  intro t ht
  have hminutes : 0 < cfg.liveAutoDuplicateOrderBlockMinutes := by
    by_contra hnone
    have hle : (limits cfg).gap ≤ 0 :=
      Int.mul_nonpos_of_nonpos_of_nonneg (not_lt.mp hnone) (by decide)
    exact absurd hgap (not_lt.mpr hle)
  obtain ⟨stamp, hstamp, hat⟩ := Option.bind_eq_some_iff.mp ht
  cases stamp with
  | unreadable raw => cases hat
  | «at» t' =>
    obtain rfl := Option.some.inj hat
    have hmax : ¬max 0 cfg.liveAutoDuplicateOrderBlockMinutes ≤ 0 := by omega
    rw [recentDupBlocked, if_neg hmax, hstamp] at h
    dsimp only at h
    split at h
    · cases h
    · next hold => exact Int.add_le_of_le_sub_left (not_lt.mp hold)

section Tick

variable {w : LiveWorld} {e : TickCall} {acc : Account} {st : LiveAutoGuardedState}
  {xs : List (Entry Instant String)} {now : Instant}

/-- The tick's orders are answered, and each is submitted on the day the tick began and no less
than the block time after midnight. -/
structure SoundTick (w : LiveWorld) (e : TickCall) : Prop where
  answered : ∀ acc st, w.entry e = some (acc, st) → (w.tick e).orders ≠ [] →
    AllAnswered e.cfg e.env e.req acc st
  sameDay : ∀ s ∈ submissions w e, kstDate s.time = kstDate (e.env.clock .rollover)
  dayOld : ∀ s ∈ submissions w e,
    e.cfg.liveAutoDuplicateOrderBlockMinutes * microsPerMinute ≤ kstTime s.time

/-- Less than the time of day ago it was the same day. -/
theorem sameDate_of_near {gap u t : Int} (hold : gap ≤ kstTime u) (htu : t ≤ u)
    (hnear : u < t + gap) : kstDate t = kstDate u := by
  rw [KstDays.kstDate_eq_iff]
  apply le_antisymm (KstDays.kstDay_mono htu)
  have hsplit := Int.emod_add_mul_ediv (kst u) microsPerDay
  apply Int.le_ediv_of_mul_le (by decide)
  rw [mul_comm, KstDays.kstDay]
  simp only [kstTime, kst] at hold hsplit ⊢
  omega

/-- A submission of the tick's day is let in when its duplicate check came out free. -/
theorem admits_submission {cfg : LiveAutoConfig} {st : LiveAutoGuardedState} {s : Submission}
    {checked : Instant} (hlater : now ≤ s.time) (hchecked : checked ≤ s.time)
    (hday : kstDate s.time = st.dailyKstDate)
    (hbelow : s.call.order.side = .buy → st.dailyBuyCount < cfg.liveAutoMaxDailyBuyCount)
    (hdup : (recentDupBlocked st (sideKey s.call.order.side) s.call.order.symbol
      cfg.liveAutoDuplicateOrderBlockMinutes checked).1 = false)
    (hold : (limits cfg).gap ≤ kstTime s.time) :
    Admits (limits cfg) now (bookOf st) (entryOf s) where
  later := hlater
  day := hday
  below h := hbelow (by simpa [entryOf] using h)
  free hgap t ht := (notDup_free hdup hgap t ht).trans hchecked
  dayOld _ htu hnear := sameDate_of_near hold htu hnear

/-- A submission that is answered, on the day of the record and long enough after midnight. -/
structure Timely (cfg : LiveAutoConfig) (date : String) (s : Submission) : Prop where
  answered : s.call.answer.isSome
  sameDay : kstDate s.time = date
  dayOld : (limits cfg).gap ≤ kstTime s.time

theorem mem_sellSubmissions {i : Nat} {call : PlacedOrder} (hi : i < acc.positions.length)
    (h : soldAt e acc st i = some call) :
    ⟨call, e.env.clock (.sellSubmitted i)⟩ ∈ sellSubmissions e acc st acc.positions.length :=
  List.mem_filterMap.mpr ⟨i, List.mem_range.mpr hi, by rw [h, Option.map_some]⟩

/-- The record of the tick's turns has let the submissions of the passes so far in. -/
structure TurnTracked (e : TickCall) (acc : Account) (st : LiveAutoGuardedState)
    (xs : List (Entry Instant String)) (i : Nat) : Prop where
  tracks : Tracks (limits e.cfg) (xs ++ (sellSubmissions e acc st i).map entryOf)
    (e.env.clock (.exitRule i)) (bookOf (turnOf e acc st i).st)
  date : (turnOf e acc st i).st.dailyKstDate = st.dailyKstDate

/-- A pass without an order leaves the record as it was. -/
theorem TurnTracked.pass {i : Nat} (h : TurnTracked e acc st xs i)
    (hst : (turnOf e acc st (i + 1)).st = (turnOf e acc st i).st)
    (horders : (turnOf e acc st (i + 1)).orders = (turnOf e acc st i).orders)
    (hclock : e.env.clock (.exitRule i) ≤ e.env.clock (.exitRule (i + 1))) :
    TurnTracked e acc st xs (i + 1) := by
  have hsold : soldAt e acc st i = none := by
    change (turnOf e acc st (i + 1)).orders[(turnOf e acc st i).orders.length]? = none
    rw [horders, List.getElem?_length]
  refine ⟨?_, by rw [hst, h.date]⟩
  rw [sellSubmissions_succ, hsold, Option.map_none, Option.toList_none, List.append_nil, hst]
  exact h.tracks.later hclock

theorem TurnTracked.place {i : Nat} {call : PlacedOrder} (h : TurnTracked e acc st xs i)
    (hsold : soldAt e acc st i = some call)
    (hadmits : Admits (limits e.cfg) (e.env.clock (.exitRule i)) (bookOf (turnOf e acc st i).st)
      (entryOf ⟨call, e.env.clock (.sellSubmitted i)⟩))
    (hbook : bookOf (turnOf e acc st (i + 1)).st =
      (bookOf (turnOf e acc st i).st).submit (entryOf ⟨call, e.env.clock (.sellSubmitted i)⟩))
    (hclock : e.env.clock (.sellSubmitted i) ≤ e.env.clock (.exitRule (i + 1))) :
    TurnTracked e acc st xs (i + 1) := by
  have hdate : (turnOf e acc st (i + 1)).st.dailyKstDate = (turnOf e acc st i).st.dailyKstDate :=
    congrArg Book.day hbook
  refine ⟨?_, hdate.trans h.date⟩
  rw [sellSubmissions_succ, hsold, Option.map_some, Option.toList_some, List.map_append,
    ← List.append_assoc, hbook]
  exact (h.tracks.submit hadmits).later hclock

theorem turn_tracked (hforward : ∀ a b, Before a b → e.env.clock a ≤ e.env.clock b)
    (htracks : Tracks (limits e.cfg) xs (e.env.clock .rollover) (bookOf st))
    (htimely : ∀ s ∈ sellSubmissions e acc st acc.positions.length,
      Timely e.cfg st.dailyKstDate s) (i : Nat) (hi : i ≤ acc.positions.length) :
    TurnTracked e acc st xs i := by
  induction i with
  | zero =>
    refine ⟨?_, rfl⟩
    rw [sellSubmissions, List.range_zero, List.filterMap_nil, List.map_nil, List.append_nil]
    exact htracks.later (hforward _ _ (.inl (by decide)))
  | succ i ih =>
    have hprev := ih (Nat.le_of_succ_le hi)
    have hclock : ∀ a b, phase a = 1 → phase b = 1 → turn a ≤ turn b →
        e.env.clock a ≤ e.env.clock b := fun a b ha hb h => hforward a b (.inr ⟨ha.trans hb.symm, h⟩)
    have hnow : e.env.clock (.exitRule i) ≤ e.env.clock (.exitRule (i + 1)) :=
      hclock _ _ rfl rfl (by simp only [turn]; omega)
    have hnext : turnOf e acc st (i + 1) = sellOne e.cfg e.env acc.positions
        (latestPrices e.env.positionQuote acc.positions) (turnOf e acc st i)
        (acc.positions[i], i) := sellTurn_succ hi
    obtain (hone | hone) | ⟨hdue, hone⟩ := sellOne_cases e.cfg e.env acc.positions
      (latestPrices e.env.positionQuote acc.positions) (turnOf e acc st i) acc.positions[i] i
    · exact hprev.pass (by rw [hnext, hone]) (by rw [hnext, hone]) hnow
    · exact hprev.pass (by rw [hnext, hone]) (by rw [hnext, hone]) hnow
    · generalize sellDecision e.cfg e.env (turnOf e acc st i).st (turnOf e acc st i).trailing
        acc.positions (latestPrices e.env.positionQuote acc.positions) acc.positions[i] i = d
        at hdue hone
      have hsold : soldAt e acc st i = some ⟨sellOrder acc.positions[i] d.1, (turnOf e acc st i).st,
          e.env.answer (turnOf e acc st i).orders.length⟩ := by
        change (turnOf e acc st (i + 1)).orders[(turnOf e acc st i).orders.length]? = _
        rw [hnext, hone]
        simp [placeSell]
      have hsubmission := htimely _ (mem_sellSubmissions hi hsold)
      apply hprev.place hsold
      · have hlater : e.env.clock (.exitRule i) ≤ e.env.clock (.sellSubmitted i) :=
          hclock _ _ rfl rfl (by simp only [turn]; omega)
        have hchecked : e.env.clock (.sellDup i) ≤ e.env.clock (.sellSubmitted i) :=
          hclock _ _ rfl rfl (by simp only [turn]; omega)
        exact admits_submission hlater hchecked (hsubmission.sameDay.trans hprev.date.symm)
          (fun hbuy => by cases hbuy) hdue.notDup hsubmission.dayOld
      · rw [hnext, hone, placeSell]
        dsimp only
        rw [if_pos hsubmission.answered]
        exact bookOf_sellSubmitted _ _ _ _ _ _ _ rfl rfl
      · exact hclock _ _ rfl rfl (by simp only [turn]; omega)

theorem bookOf_placeBuy (env : TickEnv) (sent : Nat) (best : Best) (st : LiveAutoGuardedState)
    (hanswered : (env.answer sent).isSome) (call : PlacedOrder)
    (hcall : (placeBuy env sent best st).order = some call) :
    bookOf (placeBuy env sent best st).st =
      (bookOf st).submit (entryOf ⟨call, env.clock .buySubmitted⟩) := by
  obtain rfl := Option.some.inj hcall
  simp only [placeBuy, if_pos hanswered]
  simp [bookOf, Book.submit, entryOf, sideKey, buyOrder, book_last_setKey]

theorem buy_tracked (hforward : ∀ a b, Before a b → e.env.clock a ≤ e.env.clock b)
    (htracks : Tracks (limits e.cfg) xs (e.env.clock .strategies)
      (bookOf (sellsOf e.cfg e.env acc st).st))
    (hgoing : (sellsOf e.cfg e.env acc st).raised = false)
    (htimely : ∀ s ∈ buySubmission e acc st,
      Timely e.cfg (sellsOf e.cfg e.env acc st).st.dailyKstDate s) :
    Tracks (limits e.cfg) (xs ++ (buySubmission e acc st).map entryOf)
      (e.env.clock .orderCooldown) (bookOf (buyOf e.cfg e.env e.req acc st).st) := by
  have hclock : ∀ a b, phase a = 2 → phase b = 2 → turn a ≤ turn b →
      e.env.clock a ≤ e.env.clock b := fun a b ha hb h => hforward a b (.inr ⟨ha.trans hb.symm, h⟩)
  obtain h | ⟨candidates, best, -, hdue, h⟩ := buyOf_cases e.cfg e.env e.req acc st
  · have hnone : buySubmission e acc st = [] := by simp [buySubmission, h]
    rw [hnone, h, List.map_nil, List.append_nil]
    exact htracks.later (hclock _ _ rfl rfl (by decide))
  · obtain ⟨call, hcall⟩ : ∃ call, (buyOf e.cfg e.env e.req acc st).order = some call := by
      rw [h]
      exact ⟨_, rfl⟩
    have hone : buySubmission e acc st = [⟨call, e.env.clock .buySubmitted⟩] := by
      simp [buySubmission, hgoing, hcall]
    rw [hone] at htimely ⊢
    have hsubmission := htimely _ (List.mem_singleton_self _)
    rw [h] at hcall
    obtain rfl := Option.some.inj hcall
    rw [h, bookOf_placeBuy _ _ _ _ hsubmission.answered _ rfl, List.map_singleton]
    have hadmits := admits_submission (hclock .strategies .buySubmitted rfl rfl (by decide))
      (hclock .buyDup .buySubmitted rfl rfl (by decide)) hsubmission.sameDay
      (fun _ => hdue.belowLimit) hdue.notDup hsubmission.dayOld
    exact (htracks.submit hadmits).later (hclock _ _ rfl rfl (by decide))

theorem bookOf_tradeFinal (cfg : LiveAutoConfig) (env : TickEnv) (req : TickRequest)
    (acc : Account) (st : LiveAutoGuardedState) :
    bookOf (tradeFinal cfg env req acc st) = bookOf (buyOf cfg env req acc st).st := by
  obtain ⟨hrecent, hdate, hbuys, -⟩ := finishTick_fields cfg env (sellsOf cfg env acc st).orders.length
    (buyOf cfg env req acc st).order.toList.length (buyOf cfg env req acc st).st
  rw [tradeFinal, bookOf, bookOf, hrecent, hdate, hbuys]

theorem trade_tracked (hforward : ∀ a b, Before a b → e.env.clock a ≤ e.env.clock b)
    (hentry : w.entry e = some (acc, st))
    (htracks : Tracks (limits e.cfg) xs (e.env.clock .rollover) (bookOf st))
    (hgoing : (sellsOf e.cfg e.env acc st).raised = false)
    (htimely : ∀ s ∈ submissions w e, Timely e.cfg st.dailyKstDate s) :
    Tracks (limits e.cfg) (xs ++ (submissions w e).map entryOf) (e.env.clock .orderCooldown)
      (bookOf (buyOf e.cfg e.env e.req acc st).st) := by
  have hsplit : submissions w e = (if e.cfg.liveAutoSellEnabled then
      sellSubmissions e acc st acc.positions.length else []) ++ buySubmission e acc st := by
    rw [submissions, hentry]
  rw [hsplit] at htimely ⊢
  have hbuy : ∀ s ∈ buySubmission e acc st, Timely e.cfg st.dailyKstDate s :=
    fun s hs => htimely s (List.mem_append_right _ hs)
  have hdate := (sellsOf_book e.cfg e.env acc st).day
  rw [List.map_append, ← List.append_assoc]
  apply buy_tracked hforward _ hgoing (hdate.symm ▸ hbuy)
  by_cases henabled : e.cfg.liveAutoSellEnabled = true
  · rw [if_pos henabled] at htimely ⊢
    have hlast : sellsOf e.cfg e.env acc st = turnOf e acc st acc.positions.length :=
      sellPhase_eq henabled
    rw [hlast]
    exact (turn_tracked hforward htracks (fun s hs => htimely s (List.mem_append_left _ hs))
      _ le_rfl).tracks.later (hforward _ _ (.inl Nat.one_lt_two))
  · have hsame : (sellsOf e.cfg e.env acc st).st = st := by
      rw [sellsOf, sellPhase, if_neg henabled]
    rw [if_neg henabled, List.map_nil, List.append_nil, hsame]
    exact htracks.later (hforward _ _ (.inl (by decide)))

/-- A tick whose orders are answered on its own day lets its submissions in and remembers them. -/
theorem tick_tracks (hforward : ∀ a b, Before a b → e.env.clock a ≤ e.env.clock b)
    (htracks : Tracks (limits e.cfg) xs now (bookOf w.state))
    (hnow : now ≤ e.env.clock .rollover) (hsound : SoundTick w e) :
    Tracks (limits e.cfg) (xs ++ (submissions w e).map entryOf) (e.env.clock .orderCooldown)
      (bookOf (liveStep w e).state) := by
  have hend : e.env.clock .rollover ≤ e.env.clock .orderCooldown := hforward _ _ (.inl (by decide))
  have hrolled : Tracks (limits e.cfg) xs (e.env.clock .rollover) (bookOf (w.rolled e)) := by
    rw [LiveWorld.rolled, bookOf_rolled]
    exact htracks.roll hnow
  have hidle : submissions w e = [] → ((liveStep w e).state = w.state ∨
      tradeRecord (liveStep w e).state = tradeRecord (w.rolled e)) →
      Tracks (limits e.cfg) (xs ++ (submissions w e).map entryOf) (e.env.clock .orderCooldown)
        (bookOf (liveStep w e).state) := by
    intro hnone hstate
    rw [hnone, List.map_nil, List.append_nil]
    obtain hsame | hrecord := hstate
    · rw [hsame]
      exact htracks.later (hnow.trans hend)
    · rw [bookOf_record hrecord]
      exact hrolled.later hend
  cases hentry : w.entry e with
  | none => exact hidle (by rw [submissions, hentry]) (step_stops hentry).2
  | some entered =>
    obtain ⟨acc, st⟩ := entered
    cases hraises : tradeRaises e.cfg e.env e.req acc st with
    | true =>
      refine hidle ?_ (step_raises hentry hraises)
      by_contra hsome
      have horders : (w.tick e).orders ≠ [] := by
        rw [← submissions_orders]
        simpa using hsome
      have hgoing := tradeRaises_eq_false_iff.mpr (hsound.answered acc st hentry horders)
      rw [hgoing] at hraises
      cases hraises
    | false =>
      have hbook : bookOf st = bookOf (w.rolled e) := bookOf_record (entersLoop hentry).record
      have hday : st.dailyKstDate = kstDate (e.env.clock .rollover) := by
        have hroll : (bookOf st).day = ((bookOf w.state).roll (kstDate (e.env.clock .rollover))).day := by
          rw [hbook, LiveWorld.rolled, bookOf_rolled]
        rw [Book.roll] at hroll
        split at hroll
        · next hsame => exact hroll.trans hsame
        · exact hroll
      have hallAnswered := tradeRaises_eq_false_iff.mp hraises
      have hgoing : (sellsOf e.cfg e.env acc st).raised = false := by
        simp only [tradeRaises, Bool.or_eq_false_iff] at hraises
        exact hraises.1.1
      rw [step_finishes hentry hraises, bookOf_tradeFinal]
      apply trade_tracked hforward hentry (hbook ▸ hrolled) hgoing
      intro s hs
      have hcall : s.call ∈ tradeOrders e.cfg e.env e.req acc st := by
        rw [← tick_trades hentry, ← submissions_orders]
        exact List.mem_map_of_mem hs
      exact ⟨hallAnswered.1 s.call hcall, (hsound.sameDay s hs).trans hday.symm,
        hsound.dayOld s hs⟩

end Tick

end StockQuant.TickThrottle
