import QuantTrading.ExecAlgo
import QuantTrading.Execution
import QuantTrading.Risk
import QuantTrading.Tracker

/-! The backtest engine before a day's trading starts: its market data and services, the
day's universe, bars, price limits and prices, the strategy's signals and their sizes.
The strategy, the regime detector and the remote risk service are parameters.
-/
namespace QuantTrading
open Library

inductive Action where
  | buy | sell | hold | other
deriving DecidableEq

structure StrategySignal where
  symbol : String
  action : Action
  (strength price : ℚ)
  date : Option Time
  direction : Option Direction
  orderType : Option OrderType
  limitPrice : ℚ
  execAlgo : ExecStyle
  execSlices : Int
  execProfile : List ℚ

structure Scope where
  symbols : List String
  marketData : Book String (List OHLCV)
  portfolio : Portfolio

/-- The daily bars of every symbol in date order, and the queries that fail. -/
structure MarketHistory where
  bars : String → List OHLCV
  sorted : ∀ symbol, (bars symbol).Pairwise fun a b => a.date ≤ b.date
  unavailable : String → Time → Bool

structure ListingWindow where
  list : Time
  delist : Option Time
deriving DecidableEq

def ListingWindow.isListed (w : ListingWindow) (date : Time) : Bool :=
  ¬ (¬ w.list.isZero ∧ date < w.list) ∧ ¬ w.delist.any (· < date)

structure RiskService where
  calculatePosition : Signal → Portfolio → MarketRegime → ℚ → Option PositionSize
  detectRegime : List OHLCV → Option MarketRegime

structure BacktestParams where
  stockPool : List String
  startDate : Time
  initialCapital : ℚ

structure Engine where
  (commissionRate slippageRate : ℚ)
  trading : TradingConfig
  history : MarketHistory
  getStock : String → Option Stock
  listing : Book String ListingWindow
  tradingDays : List Time
  dividends : List Dividend
  splits : List Split
  signalProvider : Scope → Time → Option (List StrategySignal)
  riskManager : Option RiskManager
  riskService : RiskService
  executionService : Option BacktestExecutionService

/-- What the loop has fetched for one trading day. `prevClose` is the cache it started from. -/
structure DayData where
  date : Time
  symbols : List String
  marketData : Book String (List OHLCV)
  prices : Book String ℚ
  stocks : Book String Stock
  prevClose : Book String ℚ

def DayData.todayBar (day : DayData) (symbol : String) : Option OHLCV :=
  (day.marketData[symbol]?).bind List.getLast?

def MarketHistory.getOHLCV (h : MarketHistory) (symbol : String) (start stop : Time) : Option (List OHLCV) :=
  if h.unavailable symbol stop then none
  else some (((h.bars symbol).dropWhile (·.date < start)).takeWhile (·.date ≤ stop))

def Tracker.getPortfolio (t : Tracker) (prices : Book String ℚ) : Portfolio :=
  let positions := t.positions.filterMap fun symbol pos => (prices[symbol]?).map pos.mark
  { cash := t.cash
    positions := positions
    totalValue := positions.foldl (fun total _ pos => total + Tracker.equity pos) t.cash
    updatedAt := t.asOf }

def isHeld (pos : Position) : Bool := |pos.quantity| > 1/100000000

namespace Engine

variable (e : Engine) (t : Tracker) (day : DayData) (params : BacktestParams)

def heldSymbols (symbol : String) : Bool := (t.positions[symbol]?).any isHeld

def eligibleUniverse (pool : List String) (date : Time) (held : String → Bool) : List String :=
  -- Without listing data the pool is taken as it is.
  if e.listing.isEmpty then pool
  else pool.filter fun symbol =>
    match e.listing[symbol]? with
    | none => false
    | some w => w.isListed date || held symbol

structure StockResult where
  stock : Stock
  ohlcvData : List OHLCV
  (price prevClose : ℚ)

def tradeDays (stock : Stock) (date : Time) : Int :=
  -- Five trading days out of every seven.
  if stock.listDate.isZero then 0 else (5 * (date - stock.listDate)).tdiv (7 * Time.dayNs)

def resolvedPrevClose (cached : ℚ) (ohlcvData : List OHLCV) : ℚ :=
  if cached ≤ 0 then ((ohlcvData.dropLast.getLast?).map (·.close)).getD 0 else cached

def dayLimits (symbol : String) (date : Time) (cached : ℚ) (ohlcvData : List OHLCV) : Option (ℚ × ℚ) :=
  if ohlcvData.length < 2 then none
  else if resolvedPrevClose cached ohlcvData ≤ 0 then none
  else
    let stock := (e.getStock symbol).getD ⟨"",0⟩
    some (limitPrices (resolvedPrevClose cached ohlcvData)
      (resolvePriceLimit ⟨symbol,stock.name,tradeDays stock date,date⟩ e.trading.priceLimit e.trading.newStockDays))

def processStockJob (symbol : String) (cached : ℚ) (date : Time) : Option StockResult :=
  let stock := (e.getStock symbol).getD ⟨"",0⟩
  match e.history.getOHLCV symbol params.startDate date with
  | none => none
  | some ohlcvData =>
    -- The last bar of the window stands for today's; its date is not compared with the day.
    match ohlcvData.getLast?,e.dayLimits symbol date cached ohlcvData with
    | none,_ => some ⟨stock,ohlcvData,0,0⟩
    | some last,none => some ⟨stock,ohlcvData,last.close,0⟩
    | some last,some (upperLimit,lowerLimit) =>
      let limitUp := last.close ≥ upperLimit
      let limitDown := last.close ≤ lowerLimit
      let limitPrice := if limitUp then upperLimit else if limitDown then lowerLimit else 0
      some
        { stock := stock
          ohlcvData := ohlcvData.dropLast ++ [{ last with limitUp := limitUp, limitDown := limitDown }]
          price := if limitPrice > 0 then limitPrice else last.close
          prevClose := last.close }

def positive (q : ℚ) : Option ℚ := if q > 0 then some q else none

def fetchMarketDataForDay (symbols : List String) (date : Time)
    (prevClose : Book String ℚ) : DayData × Book String ℚ :=
  let job (symbol : String) := e.processStockJob params symbol ((prevClose[symbol]?).getD 0) date
  ({ date := date
     symbols := symbols
     marketData := Book.collectInto ∅ symbols fun symbol => (job symbol).map (·.ohlcvData)
     prices := Book.collectInto ∅ symbols fun symbol => (job symbol).bind fun result => positive result.price
     stocks := Book.collectInto ∅ symbols fun symbol => (job symbol).map (·.stock)
     prevClose := prevClose },
    prevClose.collectInto symbols fun symbol => (job symbol).bind fun result => positive result.prevClose)

def stockNamesFor (stocks : Book String Stock) : Book String String := stocks.map fun _ stock => stock.name

def rememberCloses (prevClose : Book String ℚ) (day : DayData) : Book String ℚ :=
  prevClose.collectInto day.symbols fun symbol =>
    (day.todayBar symbol).bind fun bar => if bar.limitUp then some bar.close else positive bar.close

def latestBarDate (marketData : Book String (List OHLCV)) : Time :=
  marketData.foldl (fun latest _ series => match series.getLast? with
    | none => latest
    | some bar => max latest bar.date) 0

def detectRegime (e : Engine) (marketData : Book String (List OHLCV)) : Option MarketRegime :=
  -- The bars of all symbols in one series.
  let allData := marketData.toList.flatMap (·.2)
  if allData.length < 20 then some ⟨.sideways,.medium,0,latestBarDate marketData⟩
  else match e.riskManager with
  | some rm => rm.detectRegime allData
  | none => e.riskService.detectRegime allData

def regimeOf : MarketRegime :=
  (e.detectRegime day.marketData).getD ⟨.sideways,.medium,0,day.date⟩

def resolveDirection (s : StrategySignal) : Option Direction :=
  match s.direction with
  | some .long => some .long
  | some .short => some .short
  | some .close => some .close
  | some .hold | none =>
    match s.action with
    | .buy => some .long
    | .sell => some .close
    | .hold | .other => none

def convertStrategySignal (defaultDate : Time) (s : StrategySignal) : Option Signal :=
  if s.action = .hold then none
  else (resolveDirection s).map fun direction =>
    { symbol := s.symbol
      date := match s.date with
        | some date => if date.isZero then defaultDate else date
        | none => defaultDate
      direction := direction
      strength := s.strength
      compositeScore := s.strength
      limitPrice := if s.limitPrice = 0 then s.price else s.limitPrice
      orderType := s.orderType.getD .market
      execAlgo := s.execAlgo
      execSlices := s.execSlices
      execProfile := s.execProfile }

def convertStrategySignals (signals : List StrategySignal) (defaultDate : Time) : List Signal :=
  signals.filterMap (convertStrategySignal defaultDate)

def extractLatestPrices (marketData : Book String (List OHLCV)) : Book String ℚ :=
  marketData.filterMap fun _ bars => (bars.getLast?).map (·.close)

def getSignals : List Signal :=
  let scope : Scope := ⟨day.symbols,day.marketData,t.getPortfolio (extractLatestPrices day.marketData)⟩
  match e.signalProvider scope day.date with
  | none => []
  | some signals => convertStrategySignals signals day.date

def calculatePosition (e : Engine) (signal : Signal) (portfolio : Portfolio) (regime : MarketRegime)
    (currentPrice : ℚ) : Option PositionSize :=
  match e.riskManager with
  | some rm => rm.calculatePosition signal portfolio regime currentPrice (e.history.bars signal.symbol)
  | none => e.riskService.calculatePosition signal portfolio regime currentPrice

def calculatePositionsBatch (e : Engine) (signals : List Signal) (portfolio : Portfolio) (regime : MarketRegime)
    (day : DayData) : Option (Book String PositionSize) :=
  match e.riskManager with
  | some rm => rm.calculatePositionsBatch signals portfolio regime day.prices day.marketData
  | none => some (signals.foldl (fun results signal =>
      match e.calculatePosition signal portfolio regime ((day.prices[signal.symbol]?).getD 0) with
      | none => results
      | some size => results.insert signal.symbol size) ∅)

end Engine
end QuantTrading
