import QuantTrading.Engine.DayLoop
import QuantTrading.Tracker.Operations

/-! What a run can write to its ledger. Each booking is traced to the path that made it,
with the gates it passed and the bar it was priced against; between bookings the loop
only restates values, credits splits, opens a day or closes it. The day loop is made of
such steps, so a law of the ledger has to be checked on the steps alone.
-/
namespace QuantTrading
open Library ExecAlgo

structure Lot where
  (quantity quantityToday quantityYesterday : ℚ)
deriving DecidableEq

def Position.lot (pos : Position) : Lot := ⟨pos.quantity,pos.quantityToday,pos.quantityYesterday⟩

def Tracker.lot (t : Tracker) (symbol : String) : Option Lot := (t.positions[symbol]?).map Position.lot

structure Tracker.Quiet (t t' : Tracker) : Prop where
  slippageRate : t'.slippageRate = t.slippageRate
  liquidityFactor : t'.liquidityFactor = t.liquidityFactor
  trades : t'.trades = t.trades
  lots : ∀ symbol, t'.lot symbol = t.lot symbol

namespace Tracker

theorem SameAccount.quiet {t t' : Tracker} (same : SameAccount t t') : Quiet t t' :=
  ⟨same.slippageRate,same.liquidityFactor,same.trades,fun symbol => by simp only [lot,same.positions]⟩

theorem processDividend_quiet (t : Tracker) (symbol : String) (dividend : Dividend) :
    Quiet t (t.processDividend symbol dividend) := by
  unfold processDividend
  split
  · exact (SameAccount.refl t).quiet
  · split <;> exact ⟨rfl,rfl,rfl,fun _ => rfl⟩

theorem recordDailyValue_quiet (t : Tracker) (date : Time) (prices : Book String ℚ) :
    Quiet t (t.recordDailyValue date prices).2 := by
  refine ⟨rfl,rfl,rfl,?_⟩
  intro symbol
  simp only [lot,recordDailyValue,Book.get_map,Option.map_map]
  congr 1
  funext pos
  split <;> rfl

variable {symbol : String} {timestamp : Time}

variable {price : ℚ}

theorem closePosition_error {t t' : Tracker} {error : TradeError}
    (rejected : t.closePosition symbol price timestamp = (.error error,t')) : SameAccount t t' := by
  unfold closePosition at rejected
  split at rejected
  · cases rejected
    exact SameAccount.refl t
  · exact executeTrade_error rejected

theorem closePosition_ok {t t' : Tracker} {trade : Trade}
    (accepted : t.closePosition symbol price timestamp = (.ok trade,t')) :
    ∃ quantity, Executed t symbol .close quantity price timestamp none trade t' := by
  unfold closePosition at accepted
  split at accepted
  · cases accepted
  · exact ⟨_,executeTrade_ok accepted⟩

end Tracker

namespace Engine

variable (e : Engine) (params : BacktestParams)

def Fetched (day : DayData) : Prop :=
  ∃ symbols date prevClose, day = (e.fetchMarketDataForDay params symbols date prevClose).1

def flagBar (limits : Option (ℚ × ℚ)) (raw : OHLCV) : OHLCV :=
  match limits with
  | none => raw
  | some (upperLimit,lowerLimit) =>
    { raw with limitUp := raw.close ≥ upperLimit, limitDown := raw.close ≤ lowerLimit }

def IsTodayBar (symbol : String) (cached : ℚ) (date : Time) (bar : OHLCV) : Prop :=
  ∃ ohlcvData raw, e.history.getOHLCV symbol params.startDate date = some ohlcvData ∧ ohlcvData.getLast? = some raw ∧
    bar = flagBar (e.dayLimits symbol date cached ohlcvData) raw

variable {e : Engine} {params : BacktestParams} {symbol : String}

theorem processStockJob_bar {cached : ℚ} {date : Time}
    {result : StockResult} (fetched : e.processStockJob params symbol cached date = some result) :
    (∀ bar, result.ohlcvData.getLast? = some bar → IsTodayBar e params symbol cached date bar) ∧
    (0 < result.price → ∃ bar, result.ohlcvData.getLast? = some bar) := by
  unfold processStockJob at fetched
  split at fetched
  · cases fetched
  rename_i ohlcvData queried
  split at fetched
  next empty =>
    cases fetched
    exact ⟨fun bar last => by simp [empty] at last,fun priced => absurd priced (lt_irrefl 0)⟩
  next raw last unlimited =>
    cases fetched
    refine ⟨fun bar found => ⟨ohlcvData,raw,queried,last,?_⟩,fun _ => ⟨raw,last⟩⟩
    rw [unlimited]
    exact Option.some.inj (found.symm.trans last)
  next raw upperLimit lowerLimit last limited =>
    cases fetched
    refine ⟨fun bar found => ⟨ohlcvData,raw,queried,last,?_⟩,fun _ => ⟨_,List.getLast?_concat⟩⟩
    rw [limited]
    rw [List.getLast?_concat] at found
    exact (Option.some.inj found).symm

variable {day : DayData} {price : ℚ}

theorem Fetched.todayBar (fetched : Fetched e params day) {bar : OHLCV} (today : day.todayBar symbol = some bar) :
    IsTodayBar e params symbol ((day.prevClose[symbol]?).getD 0) day.date bar := by
  obtain ⟨symbols,date,prevClose,rfl⟩ := fetched
  obtain ⟨bars,stored,last⟩ := bind_eq_some_iff.mp today
  simp only [fetchMarketDataForDay,Book.get_collectInto] at stored
  split at stored
  · simp only [getElem?_empty,Option.or_none,map_eq_some_iff] at stored
    obtain ⟨result,job,rfl⟩ := stored
    exact (processStockJob_bar job).1 bar last
  · simp at stored

theorem Fetched.priced (fetched : Fetched e params day) (found : day.prices[symbol]? = some price) :
    ∃ bar, day.todayBar symbol = some bar := by
  obtain ⟨symbols,date,prevClose,rfl⟩ := fetched
  simp only [fetchMarketDataForDay,Book.get_collectInto] at found
  split at found
  next member =>
    simp only [getElem?_empty,Option.or_none,bind_eq_some_iff] at found
    obtain ⟨result,job,valued⟩ := found
    have positive : 0 < result.price := by
      unfold positive at valued
      split at valued
      · assumption
      · cases valued
    obtain ⟨bar,last⟩ := (processStockJob_bar job).2 positive
    refine ⟨bar,?_⟩
    simp only [DayData.todayBar,fetchMarketDataForDay,Book.get_collectInto,if_pos member,job,map_some,
      Option.some_or,Option.bind_some]
    exact last
  · simp at found

/-- How a trade was booked on a day: what submitted it and what it passed on the way. -/
inductive Origin (e : Engine) (day : DayData) (t : Tracker) (trade : Trade) (t' : Tracker) : Cause → Prop where
  | service {service : BacktestExecutionService} {signal : Signal} {targetQty quantity price : ℚ} {bar : OHLCV}
      {draft : Trade} (sized : quantity = computeEffectiveTarget t signal.symbol targetQty signal.direction)
      (installed : e.executionService = some service) (passed : tradeBlocked day signal = false)
      (today : day.todayBar signal.symbol = some bar)
      (filled : service.Filled (signalOrder signal quantity day.date)
        (quoteFor signal.symbol price day.date (some bar)) draft)
      (applied : t.Applied draft trade t') : Origin e day t trade t' (.signal signal targetQty)
  | direct {signal : Signal} {targetQty quantity price : ℚ} {bar : OHLCV}
      (sized : quantity = computeEffectiveTarget t signal.symbol targetQty signal.direction) (absent : e.executionService = none)
      (passed : tradeBlocked day signal = false) (today : day.todayBar signal.symbol = some bar)
      (priced : day.prices[signal.symbol]? = some price) (ordered : 0 < quantity)
      (executed : t.Executed signal.symbol signal.direction quantity price day.date
        (some ⟨signal.orderType,signal.limitPrice,day.todayBar signal.symbol⟩) trade t') :
      Origin e day t trade t' (.signal signal targetQty)
  | directClose {signal : Signal} {targetQty quantity price : ℚ} {bar : OHLCV} (absent : e.executionService = none)
      (passed : tradeBlocked day signal = false) (today : day.todayBar signal.symbol = some bar)
      (priced : day.prices[signal.symbol]? = some price) (side : signal.direction = .close)
      (executed : t.Executed signal.symbol .close quantity price day.date none trade t') :
      Origin e day t trade t' (.signal signal targetQty)
  | child {service : BacktestExecutionService} {dc : DueChild} {bar : OHLCV} {draft : Trade}
      (installed : e.executionService = some service) (today : day.todayBar dc.child.symbol = some bar)
      (filled : service.Filled (childOrder dc day.date) (quoteFor dc.child.symbol 0 day.date (some bar)) draft)
      (applied : t.Applied draft trade t') : Origin e day t trade t' (.execAlgoChild dc)
  | stopLoss {event : StopLossEvent} {bar : OHLCV} (today : day.todayBar event.symbol = some bar)
      (executed : t.Executed event.symbol .close event.quantity event.price day.date none trade t') :
      Origin e day t trade t' (.stopLoss event)
  | delisting {symbol : String} {quantity price : ℚ}
      (executed : t.Executed symbol .close quantity price day.date none trade t') : Origin e day t trade t' .delisting
  | forceClose {symbol : String} {quantity price : ℚ}
      (executed : t.Executed symbol .close quantity price day.date none trade t') : Origin e day t trade t' .forceClose

/-- One step of a run. Only the final close books on a day that has been closed. -/
inductive Step (e : Engine) (params : BacktestParams) (l : Ledger) : Ledger → Prop where
  | quiet {t : Tracker} (kept : l.tracker.Quiet t) : Step e params l { l with tracker := t }
  | booked {record : DayRecord} {past : List DayRecord} {cause : Cause} {trade : Trade} {t : Tracker}
      (today : l.days = record :: past) (phase : record.closed = true ↔ cause = .forceClose)
      (origin : Origin e record.day l.tracker trade t cause) : Step e params l (l.book cause (some trade,t))
  | split {record : DayRecord} {past : List DayRecord} {split : Split} (today : l.days = record :: past)
      (open_ : record.closed = false) : Step e params l (l.split split)
  | started {day : DayData} (fetched : Fetched e params day) (rested : ∀ record ∈ l.days.head?, record.closed = true) :
      Step e params l (l.startDay day)
  | advanced {record : DayRecord} {past : List DayRecord} (today : l.days = record :: past)
      (open_ : record.closed = false) : Step e params l l.advanceDay

abbrev Steps (e : Engine) (params : BacktestParams) : Ledger → Ledger → Prop := Relation.ReflTransGen (Step e params)

def OnDay (day : DayData) (closed : Bool) (l : Ledger) : Prop :=
  ∃ record past, l.days = record :: past ∧ record.day = day ∧ record.closed = closed

def Moves (e : Engine) (params : BacktestParams) (day : DayData) (closed : Bool) (l l' : Ledger) : Prop :=
  OnDay day closed l → Steps e params l l' ∧ OnDay day closed l'

/-- An answer of the tracker is a rejection that changed nothing or a booking with its origin. -/
def Answers (e : Engine) (day : DayData) (t : Tracker) (cause : Cause) (result : Option Trade × Tracker) : Prop :=
  match result with
  | (none,t') => t.Quiet t'
  | (some trade,t') => Origin e day t trade t' cause

section Moves

variable {e : Engine} {params : BacktestParams} {day : DayData} {closed : Bool} {l l' l'' : Ledger}

theorem Moves.refl : Moves e params day closed l l := fun on => ⟨.refl,on⟩

theorem Moves.trans (first : Moves e params day closed l l') (second : Moves e params day closed l' l'') :
    Moves e params day closed l l'' := by
  intro on
  obtain ⟨steps,on⟩ := first on
  obtain ⟨more,on⟩ := second on
  exact ⟨steps.trans more,on⟩

theorem Moves.quiet {t : Tracker} (kept : l.tracker.Quiet t) : Moves e params day closed l { l with tracker := t } :=
  fun on => ⟨.single (.quiet kept),on⟩

theorem OnDay.note (on : OnDay day closed l) (event : DayEvent) (t : Tracker) : OnDay day closed ⟨t,l.note event⟩ := by
  obtain ⟨record,past,today,rfl,rfl⟩ := on
  exact ⟨record.add event,past,by simp [Ledger.note,today],rfl,rfl⟩

theorem Moves.book {cause : Cause} {result : Option Trade × Tracker} (answers : Answers e day l.tracker cause result)
    (phase : closed = true ↔ cause = .forceClose) : Moves e params day closed l (l.book cause result) := by
  intro on
  rcases result with ⟨_ | trade,t⟩
  · exact ⟨.single (.quiet answers),on⟩
  · refine ⟨?_,on.note _ t⟩
    obtain ⟨record,past,today,rfl,rfl⟩ := on
    exact .single (.booked today phase answers)

theorem Moves.split {split : Split} : Moves e params day false l (l.split split) := by
  intro on
  refine ⟨?_,on.note _ _⟩
  obtain ⟨record,past,today,rfl,open_⟩ := on
  exact .single (.split today open_)

theorem Moves.foldl {S X : Type} (ledger : S → Ledger) (f : S → X → S) (xs : List X)
    (step : ∀ s x, x ∈ xs → Moves e params day closed (ledger s) (ledger (f s x))) (s : S) :
    Moves e params day closed (ledger s) (ledger (xs.foldl f s)) := by
  induction xs generalizing s with
  | nil => exact .refl
  | cons x xs ih =>
    exact (step s x (by simp)).trans (ih (fun s x member => step s x (by simp [member])) (f s x))

end Moves

end Engine
end QuantTrading
