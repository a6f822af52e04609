import Mathlib.Data.List.Dedup
import QuantTrading.Library.Outcome
import QuantTrading.Library.Sorted
import QuantTrading.Tracker.Booking

/-! The Go side of a dual run: target weights replayed day by day against a tracker. Two replays
that are told the same up to a day do the same up to that day.
-/
namespace QuantTrading.DualRun
open Library List

structure SignalWeight where
  symbol : String
  asOf : Option Time
  weight : ℚ
deriving DecidableEq

structure WRConfig where
  (capitalBase limitRate : ℚ)
  lotSize : Int
  dMax : ℚ

structure WRResult where
  portfolioValues : List PortfolioValue
  trades : List Trade

inductive ReplayError where
  | capitalBase (value : ℚ)
  | noBars
  | buyFailed (symbol : String) (day : Time) (cause : TradeError)
  | sellFailed (symbol : String) (day : Time) (cause : TradeError)
deriving DecidableEq

abbrev Bars := Book String (List OHLCV)

def Bars.series (bars : Bars) (symbol : String) : List OHLCV := (bars[symbol]?).getD []

/-- One signal against the best so far: the newest by the day, of several on one date the last. -/
def betterWeight (symbol : String) (day : Time) (best : Option (Time × ℚ)) (sig : SignalWeight) : Option (Time × ℚ) :=
  if sig.symbol ≠ symbol then best
  else
    match sig.asOf with
    | none => best
    | some asOf =>
      if asOf > day then best
      else if best.all fun found => ¬ asOf < found.1 then some (asOf,sig.weight)
      else best

def targetWeight (signals : List SignalWeight) (symbol : String) (day : Time) : Option ℚ :=
  (signals.foldl (betterWeight symbol day) none).map (·.2)

def barOn (series : List OHLCV) (day : Time) : Option OHLCV :=
  series.find? fun bar => bar.date.truncateDay = day.truncateDay

def closingPrices (bars : Bars) (day : Time) : Book String ℚ :=
  Book.collectInto ∅ bars.keys fun symbol => (barOn (bars.series symbol) day).map (·.close)

def sortedCalendar (bars : Bars) : List Time :=
  ((bars.keys.flatMap fun symbol => (bars.series symbol).map fun bar => bar.date.truncateDay).dedup).insertionSort (· ≤ ·)

variable (cfg : WRConfig) (t : Tracker) (symbol : String)

def currentQty (symbol : String) : ℚ := ((t.positions[symbol]?).map (·.quantity)).getD 0

def roundDownToLot (qty : ℚ) (lot : Int) : ℚ :=
  if lot ≤ 0 ∨ qty ≤ 0 then 0 else ⌊qty / lot⌋ * lot

def participationCap (volume dMax : ℚ) : ℚ :=
  if dMax ≤ 0 ∨ volume ≤ 0 then 0 else ⌊dMax * volume⌋

structure ReplayState where
  tracker : Tracker
  prevClose : Book String ℚ
  lastDay : Book String Time
  (sellable tradedToday : Book String ℚ)

namespace ReplayState

variable (s : ReplayState) (cfg : WRConfig)

def startOfDay (symbol : String) (day : Time) : ReplayState :=
  if s.lastDay[symbol]? = some day then s
  else
    let held := (s.tracker.positions[symbol]?).filter fun pos => pos.quantity > 0
    { s with
      lastDay := s.lastDay.insert symbol day
      sellable := s.sellable.insert symbol ((held.map (·.quantity)).getD 0)
      tradedToday := s.tradedToday.insert symbol 0 }

def traded (symbol : String) : ℚ := (s.tradedToday[symbol]?).getD 0

def mayBeSold (symbol : String) : ℚ := (s.sellable[symbol]?).getD 0

def buy (symbol : String) (day : Time) (bar : OHLCV) (delta : ℚ) : Except ReplayError ReplayState :=
  if (s.prevClose[symbol]?).any fun pc => bar.close ≥ (limitPrices pc cfg.limitRate).1 then .ok s
  else
    let qty := roundDownToLot (min delta (participationCap bar.volume cfg.dMax - s.traded symbol)) cfg.lotSize
    if qty > 0 then
      match s.tracker.executeTrade symbol .long qty bar.close bar.date.truncateDay none with
      | (.error cause,_) => .error (.buyFailed symbol day cause)
      | (.ok fill,tracker) =>
        .ok { s with
          tracker := tracker
          tradedToday := s.tradedToday.insert symbol (s.traded symbol + fill.filledQty) }
    else .ok s

/-- Sells towards a target what was held at the start of the day, unless the price is at its
lower limit. -/
def sell (symbol : String) (day : Time) (bar : OHLCV) (delta : ℚ) : Except ReplayError ReplayState :=
  if (s.prevClose[symbol]?).any fun pc => bar.close ≤ (limitPrices pc cfg.limitRate).2 then .ok s
  else
    let want := min (-delta) (s.mayBeSold symbol)
    let qty := min want (participationCap bar.volume cfg.dMax - s.traded symbol)
    if qty > 0 then
      match s.tracker.executeTrade symbol .short qty bar.close bar.date.truncateDay none with
      | (.error cause,_) => .error (.sellFailed symbol day cause)
      | (.ok fill,tracker) =>
        .ok { s with
          tracker := tracker
          tradedToday := s.tradedToday.insert symbol (s.traded symbol + fill.filledQty)
          sellable := s.sellable.insert symbol (max 0 (s.mayBeSold symbol - fill.filledQty)) }
    else .ok s

def rebalance (symbol : String) (day : Time) (bar : OHLCV) (delta : ℚ) : Except ReplayError ReplayState :=
  if delta > 0 then s.buy cfg symbol day bar delta
  else if delta < 0 then s.sell cfg symbol day bar delta
  else .ok s

end ReplayState

def tradeTowards (capitalPerSymbol : ℚ) (day : Time) (s : ReplayState) (symbol : String) (bar : OHLCV)
    (weight : Option ℚ) : Except ReplayError ReplayState :=
  match weight with
  | none => .ok s
  | some weight =>
    let target := roundDownToLot (weight * capitalPerSymbol / bar.close) cfg.lotSize
    s.rebalance cfg symbol day bar (target - currentQty s.tracker symbol)

def replaySymbol (capitalPerSymbol : ℚ) (signals : List SignalWeight) (bars : Bars) (day : Time)
    (s : ReplayState) (symbol : String) : Except ReplayError ReplayState :=
  match barOn (bars.series symbol) day with
  | none => .ok s
  | some bar =>
    (tradeTowards cfg capitalPerSymbol day (s.startOfDay symbol day) symbol bar (targetWeight signals symbol day)).map
      fun s => { s with prevClose := s.prevClose.insert symbol bar.close }

def replayDay (signals : List SignalWeight) (bars : Bars) (s : ReplayState) (day : Time) :
    Except ReplayError ReplayState :=
  let capitalPerSymbol := cfg.capitalBase / bars.keys.length
  let opened := { s with tracker := (s.tracker.setAsOf day).advanceDay }
  (bars.keys.foldlM (replaySymbol cfg capitalPerSymbol signals bars day) opened).map fun s =>
    { s with tracker := (s.tracker.recordDailyValue day.truncateDay (closingPrices bars day)).2 }

def wrReplay (signals : List SignalWeight) (commissionRate : ℚ) (trading : TradingConfig) (bars : Bars) :
    Except ReplayError WRResult :=
  if cfg.capitalBase ≤ 0 then .error (.capitalBase cfg.capitalBase)
  else if bars.keys.length = 0 then .error .noBars
  else
    let start : ReplayState := ⟨Tracker.newTracker cfg.capitalBase commissionRate 0 trading,∅,∅,∅,∅⟩
    ((sortedCalendar bars).foldlM (replayDay cfg signals bars) start).map fun s =>
      ⟨s.tracker.portfolioValues,s.tracker.trades⟩

/-- Two inputs with the same symbols and the same signals and bars up to a day. -/
structure SameUpTo (d : Time) (signals signals' : List SignalWeight) (bars bars' : Bars) : Prop where
  symbols : bars.keys = bars'.keys
  signals : (signals.filter fun sig => sig.asOf.any (· ≤ d)) = signals'.filter fun sig => sig.asOf.any (· ≤ d)
  bars : ∀ symbol, ((bars.series symbol).filter fun bar => bar.date.truncateDay ≤ d) =
    (bars'.series symbol).filter fun bar => bar.date.truncateDay ≤ d

section Same
variable {d : Time} {signals signals' : List SignalWeight} {bars bars' : Bars}

variable {day : Time}

theorem targetWeight_filter (early : day ≤ d) (signals : List SignalWeight) (symbol : String) :
    targetWeight (signals.filter fun sig => sig.asOf.any (· ≤ d)) symbol day = targetWeight signals symbol day := by
  have skips (best : Option (Time × ℚ)) (sig : SignalWeight) :
      (if sig.asOf.any (· ≤ d) then betterWeight symbol day best sig else best) = betterWeight symbol day best sig := by
    split
    · rfl
    rename_i late
    rw [betterWeight]
    cases dated : sig.asOf with
    | none => simp
    | some asOf =>
      have past : asOf > day := by
        rw [dated,Option.any_some,decide_eq_true_iff,not_le] at late
        exact early.trans_lt late
      simp [past]
  rw [targetWeight,targetWeight,foldl_filter]
  simp only [skips]

theorem barOn_filter (early : day.truncateDay ≤ d) (series : List OHLCV) :
    barOn (series.filter fun bar => bar.date.truncateDay ≤ d) day = barOn series day := by
  rw [barOn,barOn,find?_filter]
  congr 1
  funext bar
  by_cases same : bar.date.truncateDay = day.truncateDay
  · simp [same,early]
  · simp [same]

theorem SameUpTo.targetWeight (same : SameUpTo d signals signals' bars bars') (early : day ≤ d)
    (symbol : String) : targetWeight signals symbol day = targetWeight signals' symbol day := by
  rw [← targetWeight_filter early signals,← targetWeight_filter early signals',same.signals]

theorem SameUpTo.barOn (same : SameUpTo d signals signals' bars bars') (early : day.truncateDay ≤ d)
    (symbol : String) : barOn (bars.series symbol) day = barOn (bars'.series symbol) day := by
  rw [← barOn_filter early (bars.series symbol),← barOn_filter early (bars'.series symbol),same.bars]

theorem replayDay_congr (cfg : WRConfig) (same : SameUpTo d signals signals' bars bars') (midnight : day.truncateDay = day)
    (early : day ≤ d) (s : ReplayState) : replayDay cfg signals bars s day = replayDay cfg signals' bars' s day := by
  have onDay : day.truncateDay ≤ d := by
    rw [midnight]
    exact early
  have symbols : replaySymbol cfg (cfg.capitalBase / bars.keys.length) signals bars day =
      replaySymbol cfg (cfg.capitalBase / bars.keys.length) signals' bars' day := by
    funext s symbol
    rw [replaySymbol,replaySymbol,same.barOn onDay,same.targetWeight early]
  have closes : closingPrices bars day = closingPrices bars' day := by
    rw [closingPrices,closingPrices,same.symbols]
    congr 1
    funext symbol
    rw [same.barOn onDay]
  rw [replayDay,replayDay,symbols,closes,same.symbols]

theorem mem_sortedCalendar (bars : Bars) (day : Time) :
    day ∈ sortedCalendar bars ↔ ∃ symbol ∈ bars.keys, ∃ bar ∈ bars.series symbol, bar.date.truncateDay = day := by
  rw [sortedCalendar,mem_insertionSort,mem_dedup,mem_flatMap]
  simp only [mem_map]

theorem sortedCalendar_sorted (bars : Bars) : (sortedCalendar bars).Pairwise (· ≤ ·) :=
  pairwise_insertionSort _ _

theorem sortedCalendar_nodup (bars : Bars) : (sortedCalendar bars).Nodup :=
  (perm_insertionSort _ _).nodup_iff.mpr (nodup_dedup _)

section
variable (same : SameUpTo d signals signals' bars bars')
include same

theorem SameUpTo.symm : SameUpTo d signals' signals bars' bars :=
  ⟨same.symbols.symm,same.signals.symm,fun symbol => (same.bars symbol).symm⟩

theorem SameUpTo.mem_calendar (early : day ≤ d) (listed : day ∈ sortedCalendar bars) : day ∈ sortedCalendar bars' := by
  obtain ⟨symbol,key,bar,member,rfl⟩ := (mem_sortedCalendar bars day).mp listed
  have common : bar ∈ (bars.series symbol).filter fun bar => bar.date.truncateDay ≤ d :=
    mem_filter.mpr ⟨member,decide_eq_true early⟩
  rw [same.bars symbol] at common
  exact (mem_sortedCalendar bars' _).mpr ⟨symbol,same.symbols ▸ key,bar,(mem_filter.mp common).1,rfl⟩

theorem SameUpTo.calendar :
    ((sortedCalendar bars).filter fun day => day ≤ d) = (sortedCalendar bars').filter fun day => day ≤ d := by
  have perm : ((sortedCalendar bars).filter fun day => day ≤ d).Perm ((sortedCalendar bars').filter fun day => day ≤ d) := by
    refine (perm_ext_iff_of_nodup ((sortedCalendar_nodup bars).filter _) ((sortedCalendar_nodup bars').filter _)).mpr ?_
    intro day
    simp only [mem_filter,decide_eq_true_iff]
    exact and_congr_left fun early => ⟨same.mem_calendar early,same.symm.mem_calendar early⟩
  exact perm.eq_of_pairwise' ((sortedCalendar_sorted bars).filter _) ((sortedCalendar_sorted bars').filter _)

end

theorem calendar_split (d : Time) (bars : Bars) : sortedCalendar bars =
      ((sortedCalendar bars).filter fun day => day ≤ d) ++ (sortedCalendar bars).filter fun day => !decide (day ≤ d) := by
  have sorted : Ascending id (sortedCalendar bars) := sortedCalendar_sorted bars
  have inherited : ∀ a b : Time, id a ≤ id b → decide (b ≤ d) = true → decide (a ≤ d) = true := by
    intro a b order within
    exact decide_eq_true (le_trans order (of_decide_eq_true within))
  rw [← takeWhile_eq_filter sorted inherited,← dropWhile_eq_filter sorted inherited,takeWhile_append_dropWhile]

end Same

def After (d : Time) (t t' : Tracker) : Prop :=
  (∃ trades, t'.trades = t.trades ++ trades ∧ ∀ trade ∈ trades, d < trade.timestamp) ∧
    ∃ values, t'.portfolioValues = t.portfolioValues ++ values ∧ ∀ value ∈ values, d < value.date

variable {d : Time}

theorem After.unchanged {t t' : Tracker} (trades : t'.trades = t.trades)
    (values : t'.portfolioValues = t.portfolioValues) : After d t t' :=
  ⟨⟨[],by rw [trades,append_nil],forall_mem_nil _⟩,
    [],by rw [values,append_nil],forall_mem_nil _⟩

theorem After.refl (d : Time) (t : Tracker) : After d t t := .unchanged rfl rfl

theorem After.trans {t u v : Tracker} (first : After d t u) (second : After d u v) : After d t v := by
  obtain ⟨⟨trades,booked,late⟩,values,recorded,later⟩ := first
  obtain ⟨⟨trades',booked',late'⟩,values',recorded',later'⟩ := second
  refine ⟨⟨trades ++ trades',by rw [booked',booked,append_assoc],?_⟩,values ++ values',
    by rw [recorded',recorded,append_assoc],?_⟩
  · intro trade member
    exact (mem_append.mp member).elim (late trade) (late' trade)
  · intro value member
    exact (mem_append.mp member).elim (later value) (later' value)

theorem After.filter {t t' : Tracker} (after : After d t t') :
    (t'.trades.filter fun trade => trade.timestamp ≤ d) = (t.trades.filter fun trade => trade.timestamp ≤ d) ∧
      (t'.portfolioValues.filter fun value => value.date ≤ d) = t.portfolioValues.filter fun value => value.date ≤ d := by
  obtain ⟨⟨trades,booked,late⟩,values,recorded,later⟩ := after
  have noTrade : (trades.filter fun trade => trade.timestamp ≤ d) = [] :=
    filter_eq_nil_iff.mpr fun trade member => by simpa using late trade member
  have noValue : (values.filter fun value => value.date ≤ d) = [] :=
    filter_eq_nil_iff.mpr fun value member => by simpa using later value member
  rw [booked,recorded,filter_append,filter_append,noTrade,noValue,append_nil,append_nil]
  exact ⟨rfl,rfl⟩

theorem executeTrade_after {t t' : Tracker} {symbol : String} {direction : Direction} {quantity price : ℚ}
    {timestamp : Time} {trade : Trade} (late : d < timestamp)
    (accepted : t.executeTrade symbol direction quantity price timestamp none = (.ok trade,t')) : After d t t' := by
  have executed := Tracker.executeTrade_ok accepted
  obtain ⟨_,t₁,_,-,booked,-,-,rfl⟩ := Tracker.executeTrade_cases accepted
  obtain ⟨-,-,-,values⟩ := ((Tracker.bookTrade_framed booked).trans (Tracker.markPosition_framed t₁ symbol price)).records
  refine ⟨⟨[trade],executed.posted.trades,fun other member => ?_⟩,[],values.trans (append_nil _).symm,
    forall_mem_nil _⟩
  rw [mem_singleton.mp member,executed.timestamp]
  exact late

section Later
variable {d day : Time} {cfg : WRConfig} {s s' : ReplayState} {symbol : String} {bar : OHLCV}

theorem startOfDay_tracker (s : ReplayState) (symbol : String) (day : Time) :
    (s.startOfDay symbol day).tracker = s.tracker := by
  rw [ReplayState.startOfDay]
  split <;> rfl

variable {delta : ℚ}

section
variable (late : d < bar.date.truncateDay)
include late

theorem buy_after (ok : s.buy cfg symbol day bar delta = .ok s') : After d s.tracker s'.tracker := by
  rw [ReplayState.buy] at ok
  split at ok
  · cases ok
    exact .refl d _
  · dsimp only at ok
    split at ok
    · split at ok
      · cases ok
      rename_i accepted
      cases ok
      exact executeTrade_after late accepted
    · cases ok
      exact .refl d _

theorem sell_after (ok : s.sell cfg symbol day bar delta = .ok s') : After d s.tracker s'.tracker := by
  rw [ReplayState.sell] at ok
  split at ok
  · cases ok
    exact .refl d _
  · dsimp only at ok
    split at ok
    · split at ok
      · cases ok
      rename_i accepted
      cases ok
      exact executeTrade_after late accepted
    · cases ok
      exact .refl d _

theorem rebalance_after (ok : s.rebalance cfg symbol day bar delta = .ok s') : After d s.tracker s'.tracker := by
  rw [ReplayState.rebalance] at ok
  split at ok
  · exact buy_after late ok
  split at ok
  · exact sell_after late ok
  cases ok
  exact .refl d _

end

variable {capitalPerSymbol : ℚ} {signals : List SignalWeight} {bars : Bars}

theorem tradeTowards_after {weight : Option ℚ} (late : d < bar.date.truncateDay)
    (ok : tradeTowards cfg capitalPerSymbol day s symbol bar weight = .ok s') : After d s.tracker s'.tracker := by
  cases weight with
  | none =>
    cases ok
    exact .refl d _
  | some => exact rebalance_after late ok

theorem replaySymbol_after (late : d < day.truncateDay)
    (ok : replaySymbol cfg capitalPerSymbol signals bars day s symbol = .ok s') : After d s.tracker s'.tracker := by
  rw [replaySymbol] at ok
  split at ok
  · cases ok
    exact .refl d _
  · rename_i bar found
    have onDay : bar.date.truncateDay = day.truncateDay := by simpa using find?_some found
    obtain ⟨traded,done,rfl⟩ := map_eq_ok.mp ok
    have after := tradeTowards_after (onDay ▸ late) done
    rw [startOfDay_tracker] at after
    exact after

theorem replayDay_after (late : d < day.truncateDay)
    (ok : replayDay cfg signals bars s day = .ok s') : After d s.tracker s'.tracker := by
  obtain ⟨closed,done,rfl⟩ := map_eq_ok.mp ok
  have opened : After d s.tracker ((s.tracker.setAsOf day).advanceDay) := by
    refine .unchanged ?_ ?_
    · rw [Tracker.advanceDay]
      split <;> rfl
    · rw [Tracker.advanceDay]
      split <;> rfl
  have traded := foldlM_relates (R := fun s s' : ReplayState => After d s.tracker s'.tracker) (fun s => .refl d s.tracker)
    (fun _ _ _ first second => first.trans second) (fun symbol _ s s' ok => replaySymbol_after late ok) done
  have recorded : After d closed.tracker
      (closed.tracker.recordDailyValue day.truncateDay (closingPrices bars day)).2 := by
    refine ⟨⟨[],by rw [append_nil]; rfl,forall_mem_nil _⟩,
      [(closed.tracker.recordDailyValue day.truncateDay (closingPrices bars day)).1],rfl,fun value member => ?_⟩
    rw [mem_singleton.mp member]
    exact late
  exact (opened.trans traded).trans recorded

end Later

theorem truncateDay_truncateDay (t : Time) : t.truncateDay.truncateDay = t.truncateDay := by
  have multiple : (t - t % Time.dayNs) % Time.dayNs = 0 := by simp [Int.sub_emod]
  rw [Time.truncateDay,Time.truncateDay,multiple,sub_zero]

variable {bars : Bars}

theorem calendar_midnight {day : Time} (listed : day ∈ sortedCalendar bars) : day.truncateDay = day := by
  obtain ⟨_,_,bar,_,rfl⟩ := (mem_sortedCalendar bars day).mp listed
  exact truncateDay_truncateDay bar.date

theorem wrReplay_upTo {cfg : WRConfig} {signals : List SignalWeight} {commissionRate : ℚ} {trading : TradingConfig}
    {result : WRResult} (d : Time) (ok : wrReplay cfg signals commissionRate trading bars = .ok result) :
    ∃ reached : ReplayState,
      ((sortedCalendar bars).filter fun day => day ≤ d).foldlM (replayDay cfg signals bars)
        ⟨Tracker.newTracker cfg.capitalBase commissionRate 0 trading,∅,∅,∅,∅⟩ = .ok reached ∧
      (result.trades.filter fun trade => trade.timestamp ≤ d) =
        (reached.tracker.trades.filter fun trade => trade.timestamp ≤ d) ∧
      (result.portfolioValues.filter fun value => value.date ≤ d) =
        reached.tracker.portfolioValues.filter fun value => value.date ≤ d := by
  rw [wrReplay] at ok
  iterate 2 (split at ok; · cases ok)
  obtain ⟨last,done,rfl⟩ := map_eq_ok.mp ok
  rw [calendar_split d bars,foldlM_append,bind_eq_ok] at done
  obtain ⟨reached,first,rest⟩ := done
  refine ⟨reached,first,?_⟩
  have after := foldlM_relates (R := fun s s' : ReplayState => After d s.tracker s'.tracker)
    (fun s => .refl d s.tracker) (fun _ _ _ first second => first.trans second) (fun day member s s' ok => ?_) rest
  · exact after.filter
  · obtain ⟨listed,late⟩ := mem_filter.mp member
    refine replayDay_after ?_ ok
    rw [calendar_midnight listed]
    simpa using late

/-- Two replays that succeed and are given the same signals and bars up to a day book the same
trades and record the same values up to that day. -/
theorem replay_causal (cfg : WRConfig) (commissionRate : ℚ) (trading : TradingConfig) (d : Time)
    (signals signals' : List SignalWeight) (bars bars' : Bars) (same : SameUpTo d signals signals' bars bars')
    (result result' : WRResult) (ok : wrReplay cfg signals commissionRate trading bars = .ok result)
    (ok' : wrReplay cfg signals' commissionRate trading bars' = .ok result') :
    (result.trades.filter fun trade => trade.timestamp ≤ d) =
        (result'.trades.filter fun trade => trade.timestamp ≤ d) ∧
      (result.portfolioValues.filter fun value => value.date ≤ d) =
        result'.portfolioValues.filter fun value => value.date ≤ d := by
  obtain ⟨reached,first,trades,values⟩ := wrReplay_upTo d ok
  obtain ⟨reached',first',trades',values'⟩ := wrReplay_upTo d ok'
  have alike : ∀ day ∈ (sortedCalendar bars).filter (fun day => day ≤ d), ∀ s,
      replayDay cfg signals bars s day = replayDay cfg signals' bars' s day := by
    intro day member s
    obtain ⟨listed,early⟩ := mem_filter.mp member
    exact replayDay_congr cfg same (calendar_midnight listed) (of_decide_eq_true early) s
  rw [foldlM_congr alike,same.calendar,first'] at first
  cases first
  rw [trades,trades',values,values']
  exact ⟨rfl,rfl⟩

def twoDays (close : ℚ) : Bars :=
  (∅ : Bars).insert "600000.SH" [⟨0,10,10,10,100000,false,false⟩,⟨Time.dayNs,close,close,close,100000,false,false⟩]

theorem twoDays_sameUpTo (signals : List SignalWeight) : SameUpTo 0 signals signals (twoDays 11) (twoDays 9) where
  symbols := by decide +kernel
  signals := rfl
  bars symbol := by
    rw [Bars.series,Bars.series,twoDays,twoDays,Book.get_insert,Book.get_insert]
    split
    · decide +kernel
    · rfl

/-- The purchase of the first day is the same whatever the close of the second. -/
theorem twoDays_causal :
    ∃ result result', wrReplay ⟨100000,10/100,100,10/100⟩ [⟨"600000.SH",some 0,1/2⟩] (3/10000) defaultTradingConfig
        (twoDays 11) = .ok result ∧
      wrReplay ⟨100000,10/100,100,10/100⟩ [⟨"600000.SH",some 0,1/2⟩] (3/10000) defaultTradingConfig (twoDays 9) =
        .ok result' ∧
      (result.trades.filter fun trade => trade.timestamp ≤ 0) = (result'.trades.filter fun trade => trade.timestamp ≤ 0) ∧
      (result.portfolioValues.filter fun value => value.date ≤ 0) =
        result'.portfolioValues.filter fun value => value.date ≤ 0 := by
  obtain ⟨result,ok⟩ := exists_ok (x := wrReplay ⟨100000,10/100,100,10/100⟩ [⟨"600000.SH",some 0,1/2⟩] (3/10000)
    defaultTradingConfig (twoDays 11)) (by decide +kernel)
  obtain ⟨result',ok'⟩ := exists_ok (x := wrReplay ⟨100000,10/100,100,10/100⟩ [⟨"600000.SH",some 0,1/2⟩] (3/10000)
    defaultTradingConfig (twoDays 9)) (by decide +kernel)
  exact ⟨result,result',ok,ok',replay_causal _ _ _ 0 _ _ _ _ (twoDays_sameUpTo _) result result' ok ok'⟩

end QuantTrading.DualRun
