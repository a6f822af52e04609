import QuantTrading.Engine

/-! The day loop of the backtest engine. Every tracker call that can book a trade goes
through `BacktestState.book`, which also notes the booking in a ledger: which path made
it, on which day, and the tracker before and after. The ledger is read by no decision of
the loop.
-/
namespace QuantTrading
open Library ExecAlgo

/-- The path that submitted a trade to the tracker, with what made it do so; for a signal also
the target it was sized to. -/
inductive Cause where
  | signal (signal : Signal) (targetQty : ℚ)
  | execAlgoChild (child : DueChild)
  | stopLoss (event : StopLossEvent)
  | delisting
  | forceClose
deriving DecidableEq

structure Booking where
  cause : Cause
  before : Tracker
  trade : Trade
  after : Tracker

inductive DayEvent where
  | booked (booking : Booking)
  | split (symbol : String) (before after : Tracker)

/-- One trading day: what was fetched for it, the tracker it started with and what happened,
oldest first. The day is closed once the tracker has advanced past it. -/
structure DayRecord where
  day : DayData
  start : Tracker
  events : List DayEvent
  closed : Bool

def DayRecord.add (record : DayRecord) (event : DayEvent) : DayRecord := { record with events := record.events ++ [event] }

structure Ledger where
  tracker : Tracker
  days : List DayRecord

namespace Ledger

variable (l : Ledger)

def note (event : DayEvent) : List DayRecord := l.days.modifyHead (·.add event)

def book (cause : Cause) (result : Option Trade × Tracker) : Ledger :=
  match result with
  | (none,t) => { l with tracker := t }
  | (some trade,t) => { tracker := t, days := l.note (.booked ⟨cause,l.tracker,trade,t⟩) }

def split (l : Ledger) (split : Split) : Ledger :=
  let t := l.tracker.processSplit split.symbol split
  { tracker := t, days := l.note (.split split.symbol l.tracker t) }

def startDay (day : DayData) : Ledger := { l with days := ⟨day,l.tracker,[],false⟩ :: l.days }

def advanceDay (l : Ledger) : Ledger where
  tracker := l.tracker.advanceDay
  days := l.days.modifyHead fun record => { record with closed := true }

end Ledger

structure ExecAlgoRunDiag where
  fails : AttachFailureKind → ℕ
  samples : AttachFailureKind → Option ParentId

def ExecAlgoRunDiag.record (diag : ExecAlgoRunDiag) (kind : AttachFailureKind) (parent : ParentId) : ExecAlgoRunDiag where
  fails := fun k => if k = kind then diag.fails k + 1 else diag.fails k
  samples := fun k => if k = kind then (diag.samples k).or (some parent) else diag.samples k

structure BacktestState where
  ledger : Ledger
  targetPositions : Book String TargetPosition
  dispatcher : Dispatcher
  diag : ExecAlgoRunDiag
  prevCloseCache : Book String ℚ

namespace BacktestState

def tracker (s : BacktestState) : Tracker := s.ledger.tracker

def setTracker (s : BacktestState) (t : Tracker) : BacktestState := { s with ledger := { s.ledger with tracker := t } }

def setTarget (s : BacktestState) (symbol : String) (tp : TargetPosition) : BacktestState :=
  { s with targetPositions := s.targetPositions.insert symbol tp }

def book (s : BacktestState) (cause : Cause) (result : Option Trade × Tracker) : Option Trade × BacktestState :=
  (result.1,{ s with ledger := s.ledger.book cause result })

end BacktestState

def answered (result : Except TradeError Trade × Tracker) : Option Trade × Tracker := (result.1.toOption,result.2)

namespace Engine

variable (service : BacktestExecutionService) (e : Engine) (t : Tracker) (params : BacktestParams)
   (day : DayData) (signal : Signal) (s : BacktestState)

def heldQty (symbol : String) : ℚ :=
  match t.positions[symbol]? with
  | none => 0
  -- A short counts as nothing held.
  | some pos => if pos.quantity < 0 then 0 else pos.quantity

def computeEffectiveTarget (symbol : String) (targetQty : ℚ) (direction : Direction) : ℚ :=
  -- A Close keeps the size it was given.
  if direction ≠ .long ∧ direction ≠ .short then targetQty
  else if targetQty - heldQty t symbol ≤ 0 then -1
  else targetQty - heldQty t symbol

def execAlgoParentID (date : Time) (symbol : String) (direction : Direction) : ParentId :=
  ⟨date.truncateDay,symbol,direction⟩

def attachExecAlgoSignal (d : Dispatcher) (signal : Signal) (qty : ℚ) (date : Time) :
    Except AttachError (Option Dispatcher) :=
  match signal.execAlgo with
  | .unset => .ok none
  | .unknown name => .error (.unknownAlgo (.unknown name))
  | style =>
    let (n,stop) := resolveExecWindow date signal.execSlices signal.execProfile
    (d.attach
      { parentId := execAlgoParentID date signal.symbol signal.direction
        symbol := signal.symbol
        side := signal.direction
        qty := qty
        limitPrice := signal.limitPrice
        style := style
        slices := n
        profile := signal.execProfile
        orderType := signal.orderType
        startAt := date
        endAt := stop }).map some

def signalOrder (quantity : ℚ) (date : Time) : Order where
  symbol := signal.symbol
  direction := signal.direction
  orderType := signal.orderType
  quantity := quantity
  limitPrice := signal.limitPrice
  timestamp := date
  filledQty := 0
  fillPrice := 0
  status := .unset

def quoteFor (symbol : String) (price : ℚ) (date : Time) (dayBar : Option OHLCV) : Quote :=
  match dayBar with
  | none => ⟨symbol,0,0,price,0,date⟩
  | some bar => ⟨symbol,bar.high,bar.low,bar.close,bar.volume,date⟩

def executeViaExecutionService  (quantity price : ℚ) (day : DayData) : Option Trade × Tracker :=
  match service.executeOrder (signalOrder signal quantity day.date)
      (quoteFor signal.symbol price day.date (day.todayBar signal.symbol)) with
  | .error _ => (none,t)
  | .ok trade => answered (t.applyTrade trade)

def submitSignal (quantity price : ℚ) (day : DayData) : Option Trade × Tracker :=
  match e.executionService with
  | some service => executeViaExecutionService service t signal quantity price day
  | none =>
    match signal.direction with
    | .close => answered (t.closePosition signal.symbol price day.date)
    | direction =>
      answered (t.executeTrade signal.symbol direction quantity price day.date
        (some ⟨signal.orderType,signal.limitPrice,day.todayBar signal.symbol⟩))

def updateTargetPositionAfterTrade (trade : Trade) (symbol : String) (tp : TargetPosition)
    (date : Time) : BacktestState :=
  let actualQty := tp.actualQty + trade.quantity
  let tp := { tp with actualQty := actualQty, pendingQty := tp.targetQty - actualQty, lastUpdated := date }
  if tp.pendingQty ≤ 0 ∧ tp.targetQty ≤ 0 then { s with targetPositions := s.targetPositions.erase symbol }
  else s.setTarget symbol tp

def stillPending (tp : TargetPosition) (date : Time) : TargetPosition :=
  { tp with pendingQty := tp.targetQty - tp.actualQty, lastUpdated := date }

def executeSignalTrade (signal : Signal) (effectiveTarget : ℚ) (tp : TargetPosition) : BacktestState :=
  let price := (day.prices[signal.symbol]?).getD 0
  if price ≤ 0 then s
  else match attachExecAlgoSignal s.dispatcher signal effectiveTarget day.date with
  | .error error =>
    let parent := execAlgoParentID day.date signal.symbol signal.direction
    { s with diag := s.diag.record (classifyAttachError error) parent }.setTarget signal.symbol (stillPending tp day.date)
  | .ok (some d) => { s with dispatcher := d }
  | .ok none =>
    match signal.direction with
    | .long | .short =>
      match s.book (.signal signal tp.targetQty) (e.submitSignal s.tracker signal effectiveTarget price day) with
      | (none,s) => s.setTarget signal.symbol (stillPending tp day.date)
      | (some trade,s) => updateTargetPositionAfterTrade s trade signal.symbol tp day.date
    | .close =>
      match s.book (.signal signal tp.targetQty) (e.submitSignal s.tracker signal effectiveTarget price day) with
      | (none,s) => s
      | (some _,s) => { s with targetPositions := s.targetPositions.erase signal.symbol }
    | .hold => s

def tradeBlocked : Bool :=
  match day.todayBar signal.symbol with
  | none => false
  | some bar =>
    (bar.limitUp ∧ (signal.direction = .long ∨ signal.direction = .short)) ∨
      (bar.limitDown ∧ signal.direction = .close)

def nextTarget (symbol : String) (targetQty : ℚ) (date : Time) : TargetPosition :=
  { (s.targetPositions[symbol]?).getD ⟨0,0,0,date⟩ with targetQty := targetQty, lastUpdated := date }

def processSignal (signal : Signal) (size : Option PositionSize) : BacktestState :=
  if tradeBlocked day signal then s
  else match size with
  | none => s
  | some size =>
    if size.size ≤ 0 then s
    else
      let tp := nextTarget s signal.symbol size.size day.date
      let s := s.setTarget signal.symbol tp
      let effectiveTarget := computeEffectiveTarget s.tracker signal.symbol size.size signal.direction
      if effectiveTarget > 0 then e.executeSignalTrade day s signal effectiveTarget tp else s

def processSignalsAndExecuteTrades (regime : MarketRegime) (s : BacktestState)
    (signals : List Signal) : BacktestState :=
  let validSignals := signals.filter (day.date ≤ ·.date)
  match e.calculatePositionsBatch validSignals (s.tracker.getPortfolio day.prices) regime day with
  | some sizes => validSignals.foldl (fun s signal => e.processSignal day s signal sizes[signal.symbol]?) s
  -- Without the batch each signal is sized on the portfolio it meets.
  | none => validSignals.foldl (fun s signal => e.processSignal day s signal
      (e.calculatePosition signal (s.tracker.getPortfolio day.prices) regime ((day.prices[signal.symbol]?).getD 0))) s

def childOrder (dc : DueChild) (date : Time) : Order where
  symbol := dc.child.symbol
  direction := dc.child.side
  orderType := dc.orderType
  quantity := dc.child.qty
  limitPrice := dc.child.limitPrice
  timestamp := date
  filledQty := 0
  fillPrice := 0
  status := .unset

def executeExecAlgoChild (bar : OHLCV) (s : BacktestState) (dc : DueChild) : BacktestState :=
  match service.executeOrder (childOrder dc day.date) (quoteFor dc.child.symbol 0 day.date (some bar)) with
  | .error _ => s
  | .ok trade =>
    -- The parent is told first, so an over-fill is not booked and a refused booking still counts.
    match s.dispatcher.onFill dc.child.orderId trade.quantity with
    | none => s
    | some d =>
      match { s with dispatcher := d }.book (.execAlgoChild dc) (answered (s.tracker.applyTrade trade)) with
      | (none,s) => s
      | (some booked,s) =>
        match s.targetPositions[dc.child.symbol]? with
        | none => s
        | some tp =>
          let actualQty := tp.actualQty + booked.quantity
          s.setTarget dc.child.symbol
            { tp with actualQty := actualQty, pendingQty := tp.targetQty - actualQty, lastUpdated := day.date }

def processSymbolChildren (symbol : String) : BacktestState :=
  match day.todayBar symbol with
  | none => s
  | some bar =>
    let (due,d) := s.dispatcher.onBar symbol bar.date
    due.foldl (executeExecAlgoChild service day bar) { s with dispatcher := d }

def processExecAlgoChildren : BacktestState :=
  if s.dispatcher.len = 0 then s
  else match e.executionService with
  | none => s
  | some service => s.dispatcher.symbols.foldl (processSymbolChildren service day) s

def reconcileTargetPosition (symbol : String) (date : Time) : BacktestState :=
  match s.targetPositions[symbol]? with
  | none => s
  | some tp =>
    let held := heldQty s.tracker symbol
    if held = tp.actualQty then s
    else s.setTarget symbol
      { tp with actualQty := held, pendingQty := tp.targetQty - held, lastUpdated := date }

def cancelExecAlgoParentsForSymbol (symbol : String) : BacktestState :=
  { s with dispatcher := s.dispatcher.cancelSymbol symbol }

def executeStopLoss (event : StopLossEvent) : BacktestState :=
  match s.book (.stopLoss event)
      (answered (s.tracker.executeTrade event.symbol .close event.quantity event.price day.date none)) with
  | (none,s) => s
  | (some _,s) => cancelExecAlgoParentsForSymbol (reconcileTargetPosition s event.symbol day.date) event.symbol

def stopLossEvents (rm : RiskManager) (t : Tracker) (day : DayData) : List StopLossEvent :=
  rm.stopLossChecker.checkStopLossWithRegime t.positions day.prices
    (rm.stopLossChecker.atrFromOHLCV day.marketData) (inferRegimeFromMarket t.positions day.prices)

def processStopLosses : BacktestState :=
  match e.riskManager with
  | none => s
  -- The levels are checked on the positions before any of them is acted on.
  | some rm => (stopLossEvents rm s.tracker day).foldl (executeStopLoss day) s

def dividendsOn (date : Time) : List Dividend := e.dividends.filter (·.payDate.SameDay date)

def splitsOn (date : Time) : List Split := e.splits.filter (·.tradeDate.SameDay date)

def payDividend (dividend : Dividend) : BacktestState :=
  s.setTracker (s.tracker.processDividend dividend.symbol dividend)

def creditSplit (date : Time) (s : BacktestState) (split : Split) : BacktestState :=
  reconcileTargetPosition { s with ledger := s.ledger.split split } split.symbol date.truncateDay

def processCorporateActions : BacktestState :=
  let s := (e.dividendsOn day.date).foldl payDividend s
  let s := (e.splitsOn day.date).foldl (creditSplit day.date) s
  (e.splitsOn day.date).foldl (fun s split => cancelExecAlgoParentsForSymbol s split.symbol) s

def closingPrice (prices : Book String ℚ) (symbol : String) (pos : Position) : Option ℚ :=
  ((prices[symbol]?).bind positive).or (positive pos.currentPrice)

def forceCloseOne (cause : Cause) (prices : Book String ℚ) (date : Time) (s : BacktestState) (symbol : String)
    (pos : Position) : Option Trade × BacktestState :=
  match closingPrice prices symbol pos with
  | none => (none,s)
  | some price => s.book cause (answered (s.tracker.closePosition symbol price date))

def isDelisted (symbol : String) (date : Time) : Bool :=
  (e.listing[symbol]?).any fun w => ¬ w.isListed date

def forceCloseDelisted : BacktestState × List String :=
  (s.tracker.positions.toList.filter fun entry => isHeld entry.2 ∧ e.isDelisted entry.1 day.date).foldl
    (fun (s,closed) entry =>
      match forceCloseOne .delisting day.prices day.date s entry.1 entry.2 with
      | (none,s) => (s,closed)
      | (some _,s) => (reconcileTargetPosition s entry.1 day.date,closed ++ [entry.1])) (s,[])

def forceCloseAllPositions (prices : Book String ℚ) (date : Time) (s : BacktestState) : BacktestState :=
  (s.tracker.positions.toList.filter fun entry => isHeld entry.2).foldl
    (fun s entry => (forceCloseOne .forceClose prices date s entry.1 entry.2).2) s

def tradeDay : BacktestState :=
  let s := s.setTracker (s.tracker.setStockNames (stockNamesFor day.stocks))
  let (s,closed) := e.forceCloseDelisted day s
  let s := closed.foldl cancelExecAlgoParentsForSymbol s
  let s := s.setTracker (s.tracker.setAsOf day.date)
  let s := e.processSignalsAndExecuteTrades day (e.regimeOf day) s (e.getSignals s.tracker day)
  let s := e.processExecAlgoChildren day s
  let s := e.processStopLosses day s
  let s := e.processCorporateActions day s
  s.setTracker (s.tracker.recordDailyValue day.date day.prices).2

def runDay (date : Time) : BacktestState :=
  let symbols := e.eligibleUniverse params.stockPool date (heldSymbols s.tracker)
  let (day,prevClose) := e.fetchMarketDataForDay params symbols date s.prevCloseCache
  let s := e.tradeDay day { s with ledger := s.ledger.startDay day, prevCloseCache := prevClose }
  { s with ledger := s.ledger.advanceDay, prevCloseCache := rememberCloses s.prevCloseCache day }

def initialState : BacktestState where
  ledger := ⟨Tracker.newTracker params.initialCapital e.commissionRate e.slippageRate e.trading,[]⟩
  targetPositions := ∅
  dispatcher := Dispatcher.newDispatcher
  diag := ⟨fun _ => 0,fun _ => none⟩
  prevCloseCache := ∅

/-- The whole run; `none` without a trading day. The prices of the final close are those of a
variable the loop shadows, so there are none. -/
def runBacktest : Option BacktestState :=
  (e.tradingDays.getLast?).map fun lastTradingDay =>
    let s := e.tradingDays.foldl (e.runDay params) (e.initialState params)
    let s := forceCloseAllPositions ∅ lastTradingDay s
    s.setTracker (s.tracker.recordDailyValue lastTradingDay ∅).2

end Engine
end QuantTrading
