import QuantTrading.Library.Book
import QuantTrading.Market

/-! The backtest portfolio tracker. A call returns its result and the tracker it leaves behind,
because a rejected call may have written: an expired limit order is logged, and a rejected
buy may restart the daily risk-warning count.
-/
namespace QuantTrading
open Library

structure PortfolioValue where
  date : Time
  (totalValue cash positions : ℚ)
deriving DecidableEq

structure Tracker where
  cash : ℚ
  positions : Book String Position
  initialCash : ℚ
  portfolioValues : List PortfolioValue
  trades : List Trade
  equityCurve : List PortfolioValue
  asOf : Time
  (commissionRate slippageRate liquidityFactor shortSellingRate : ℚ)
  trading : TradingConfig
  orderLog : List Order
  stockNames : Book String String
  dailyRWBuy : Book String ℚ
  dailyRWBuyDay : Time

structure OrderExecutionOpts where
  orderType : OrderType
  limitPrice : ℚ
  dayBar : Option OHLCV
deriving DecidableEq

inductive TradeError where
  | limitOrderExpired (direction : Direction) (symbol : String) (limitPrice low high : ℚ)
  | insufficientCash (required available : ℚ)
  | riskWarningCapExceeded (symbol name : String) (already qty cap : ℚ)
  | quantityIsZero
  | boughtToday (buyDate tradeDate : Time)
  | noSharesAvailable (allBoughtToday : Bool)
  | positionNotFound (symbol : String)
  | invalidTradeQuantity (quantity : ℚ)
deriving DecidableEq

def defaultShortSellingRate : ℚ := 106/1000
def tradingDaysPerYear : ℚ := 252

namespace Tracker

def newTracker (initialCapital commissionRate slippageRate : ℚ) (trading : TradingConfig) : Tracker where
  cash := initialCapital
  positions := ∅
  initialCash := initialCapital
  portfolioValues := []
  trades := []
  equityCurve := []
  asOf := 0
  commissionRate := commissionRate
  slippageRate := slippageRate
  liquidityFactor := 1/10
  shortSellingRate := defaultShortSellingRate
  trading := if trading.stampTaxRate = 0 then defaultTradingConfig else trading
  orderLog := []
  stockNames := ∅
  dailyRWBuy := ∅
  dailyRWBuyDay := 0

variable (t : Tracker)

def feeSchedule (asOf : Time) : AShareFees where
  commissionRate := t.commissionRate
  stampTaxRate := Fees.stampTaxRateFor asOf t.trading.stampTaxRate t.trading.stampTaxRateBefore
  transferFeeRate := t.trading.transferFeeRate
  minCommission := t.trading.minCommission
  slippageRate := t.slippageRate

def setStockNames (names : Book String String) : Tracker := { t with stockNames := names }

def setAsOf (date : Time) : Tracker := { t with asOf := date }

def enforceRiskWarningDailyBuy (symbol : String) (qty : ℚ) (asOf : Time) : Except TradeError Unit × Tracker :=
  if qty ≤ 0 then (.ok (),t)
  else match t.stockNames[symbol]? with
  | none => (.ok (),t)
  | some name =>
    if name = "" then (.ok (),t)
    else if ¬ isRiskWarningName name then (.ok (),t)
    else
      let capShares := riskWarningDailyBuyCap symbol
      if capShares ≤ 0 then (.ok (),t)
      else
        let day := asOf.truncateDay
        let t := if day ≠ t.dailyRWBuyDay then { t with dailyRWBuy := ∅, dailyRWBuyDay := day } else t
        let already := (t.dailyRWBuy[symbol]?).getD 0
        if already + qty > capShares then
          (.error (.riskWarningCapExceeded symbol name already qty capShares),t)
        else (.ok (),{ t with dailyRWBuy := t.dailyRWBuy.insert symbol (already + qty) })

end Tracker

namespace Position

def opened (symbol : String) (quantity avgCost : ℚ) (entryDate : Time) : Position where
  symbol := symbol
  quantity := quantity
  avgCost := avgCost
  currentPrice := 0
  marketValue := 0
  unrealizedPnL := 0
  realizedPnL := 0
  entryDate := entryDate
  buyDate := 0
  quantityToday := 0
  quantityYesterday := 0

def buy (existing : Option Position) (symbol : String) (qty price : ℚ) (timestamp : Time) : Option Position :=
  match existing with
  | some pos =>
    let totalQty := pos.quantity + qty
    if isFlat totalQty then none
    else
      let today := if pos.buyDate.truncateDay ≠ timestamp.truncateDay then 0 else pos.quantityToday
      some { pos with
        avgCost := (pos.avgCost * pos.quantity + price * qty) / totalQty
        quantity := totalQty
        entryDate := timestamp
        quantityToday := today + qty
        buyDate := timestamp }
  | none => some { opened symbol qty price timestamp with buyDate := timestamp, quantityToday := qty }

def sellShort (existing : Option Position) (symbol : String) (qty price : ℚ) (timestamp : Time) :
    Option Position :=
  match existing with
  | some pos => if isFlat (pos.quantity - qty) then none else some { pos with quantity := pos.quantity - qty }
  | none => some (opened symbol (-qty) price timestamp)

variable (pos : Position)

def mark (price : ℚ) : Position :=
  { pos with
    marketValue := |pos.quantity| * price
    currentPrice := price
    unrealizedPnL := (price - pos.avgCost) * pos.quantity }

def unlessFlat : Option Position := if isFlat pos.quantity then none else some pos

def rollOver : Position :=
  if pos.quantityToday > 0 then
    { pos with quantityYesterday := pos.quantityYesterday + pos.quantityToday, quantityToday := 0 }
  else pos

def lendingCost (dailyRate : ℚ) : ℚ :=
  if pos.quantity ≥ 0 then 0
  else |pos.quantity| * (if pos.currentPrice ≤ 0 then pos.avgCost else pos.currentPrice) * dailyRate

def split (ratio : ℚ) : Position :=
  if ratio > 0 then
    { pos with
      quantity := pos.quantity + pos.quantity * ratio
      avgCost := pos.avgCost * pos.quantity / (pos.quantity + pos.quantity * ratio)
      quantityToday := pos.quantityToday + pos.quantity * ratio }
  else pos

end Position

namespace Tracker

/-! Booking. `ExecuteTrade` and `ApplyTrade` carry the same three branches; they differ
in the amounts they hand to them, so each branch takes those amounts as arguments. -/

variable (t : Tracker) (pos : Position)

def bookLong (symbol : String) (qty price cost : ℚ) (timestamp : Time) : Except TradeError Unit × Tracker :=
  if cost > t.cash then (.error (.insufficientCash cost t.cash),t)
  else match t.enforceRiskWarningDailyBuy symbol qty timestamp with
  | (.error e,t) => (.error e,t)
  | (.ok (),t) =>
    (.ok (),{ t with
      cash := t.cash - cost
      positions := t.positions.put symbol (Position.buy t.positions[symbol]? symbol qty price timestamp) })

def bookShort (symbol : String) (qty price proceeds : ℚ) (timestamp : Time) : Tracker :=
  { t with
    cash := t.cash + proceeds
    positions := t.positions.put symbol (Position.sellShort t.positions[symbol]? symbol qty price timestamp) }

def closeLong (trade : Trade) (quantity : ℚ) (allBoughtToday : Bool) : Except TradeError (Trade × ℚ × Position) :=
  let tradeDate := trade.timestamp.truncateDay
  let buyDate := pos.buyDate.truncateDay
  if buyDate = tradeDate ∧ pos.quantityYesterday = 0 then .error (.boughtToday buyDate tradeDate)
  else
    let actualQty := min pos.quantityYesterday (min quantity |pos.quantity|)
    if actualQty ≤ 0 then .error (.noSharesAvailable allBoughtToday)
    else
      let fb := computeFees (actualQty * trade.price) true (t.feeSchedule trade.timestamp)
      .ok ({ trade with
          quantity := actualQty
          commission := fb.commission
          transferFee := fb.transferFee
          stampTax := fb.stampTax },
        actualQty * trade.price - fb.total,
        { pos with
          quantityYesterday := pos.quantityYesterday - actualQty
          realizedPnL := pos.realizedPnL + ((trade.price - pos.avgCost) * actualQty - fb.commission - fb.stampTax)
          quantity := pos.quantity - actualQty })

/-- Buy back a short position: the record, the amount added to cash and the position left. -/
def closeShort (trade : Trade) (quantity : ℚ) : Except TradeError (Trade × ℚ × Position) :=
  let actualQty := min quantity |pos.quantity|
  if actualQty ≤ 0 then .error .quantityIsZero
  else
    let fb := computeFees (actualQty * trade.price) false (t.feeSchedule trade.timestamp)
    -- The stamp tax of the record is the one computed before the position was known to be short.
    .ok ({ trade with quantity := actualQty, commission := fb.commission, transferFee := fb.transferFee },
      actualQty * trade.price - fb.commission - fb.transferFee,
      { pos with
        realizedPnL := pos.realizedPnL + ((pos.avgCost - trade.price) * actualQty - fb.commission - fb.transferFee)
        quantity := pos.quantity + actualQty })

def bookClose (trade : Trade) (quantity : ℚ) (allBoughtToday : Bool) : Except TradeError (Trade × Tracker) :=
  match t.positions[trade.symbol]? with
  | none => .error (.positionNotFound trade.symbol)
  | some pos =>
    if |pos.quantity| ≤ 0 then .error .quantityIsZero
    else match if pos.quantity > 0 then t.closeLong pos trade quantity allBoughtToday
               else t.closeShort pos trade quantity with
    | .error e => .error e
    | .ok (trade,received,pos) =>
      .ok (trade,{ t with
        cash := t.cash + received
        positions := t.positions.put trade.symbol pos.unlessFlat })

def markPosition (symbol : String) (price : ℚ) : Tracker :=
  match t.positions[symbol]? with
  | none => t
  | some pos => { t with positions := t.positions.insert symbol (pos.mark price) }

def limitFill (direction : Direction) (limitPrice : ℚ) (bar : OHLCV) : Option ℚ :=
  match direction with
  | .long => if bar.low ≤ limitPrice then some (min limitPrice bar.close) else none
  | .short => if bar.high ≥ limitPrice then some (max limitPrice bar.close) else none
  | .close | .hold => none

def filledQty (quantity : ℚ) (dayBar : Option OHLCV) : ℚ :=
  match dayBar with
  | none => quantity
  | some bar =>
    if bar.volume > 0 ∧ quantity > bar.volume * t.liquidityFactor then bar.volume * t.liquidityFactor
    else quantity

def slippagePrice (symbol : String) (direction : Direction) (price : ℚ) : ℚ :=
  match direction with
  | .long => price * (1 + t.slippageRate)
  | .short => price * (1 - t.slippageRate)
  | .close =>
    match t.positions[symbol]? with
    | none => price
    | some pos => if pos.quantity > 0 then price * (1 - t.slippageRate) else price * (1 + t.slippageRate)
  | .hold => price

def draftTrade (symbol : String) (direction : Direction) (quantity filledQty executionPrice : ℚ)
    (timestamp : Time) : Trade :=
  let isSell := direction = .close ∨ direction = .short
  let fb := computeFees (filledQty * executionPrice) isSell (t.feeSchedule timestamp)
  { symbol := symbol
    direction := direction
    quantity := filledQty
    filledQty := filledQty
    price := executionPrice
    commission := fb.commission
    transferFee := fb.transferFee
    stampTax := fb.stampTax
    timestamp := timestamp
    pendingQty := quantity - filledQty }

/-- The booking switch of `ExecuteTrade`: every amount comes from the draft's own fees. -/
def bookExecuted (trade : Trade) (quantity : ℚ) : Except TradeError Trade × Tracker :=
  let tradeValue := trade.filledQty * trade.price
  let fees := trade.commission + trade.transferFee + trade.stampTax
  match trade.direction with
  | .long =>
    match t.bookLong trade.symbol trade.filledQty trade.price (tradeValue + fees) trade.timestamp with
    | (.error e,t) => (.error e,t)
    | (.ok (),t) => (.ok trade,t)
  | .short => (.ok trade,t.bookShort trade.symbol trade.filledQty trade.price (tradeValue - fees) trade.timestamp)
  | .close =>
    match t.bookClose trade quantity true with
    | .error e => (.error e,t)
    | .ok (trade,t) => (.ok trade,t)
  | .hold => (.ok trade,t)

/-- The price a fill executes at; the day's bar when a limit order expires. Slippage moves
every order but a limit order. -/
def executionPrice (symbol : String) (direction : Direction) (price : ℚ)
    (opts : OrderExecutionOpts) : Except OHLCV ℚ :=
  match opts.orderType,opts.dayBar with
  | .limit,some bar =>
    match limitFill direction opts.limitPrice bar with
    | none => .error bar
    | some limited => .ok limited
  | .limit,none => .ok price
  | _,_ => .ok (t.slippagePrice symbol direction price)

def executeTrade (symbol : String) (direction : Direction) (quantity price : ℚ)
    (timestamp : Time) (opts : Option OrderExecutionOpts) : Except TradeError Trade × Tracker :=
  let opts := opts.getD ⟨.market,price,none⟩
  let order : Order :=
    { symbol := symbol, direction := direction, orderType := opts.orderType, quantity := quantity,
      limitPrice := opts.limitPrice, timestamp := timestamp, filledQty := 0, fillPrice := 0, status := .expired }
  match t.executionPrice symbol direction price opts with
  | .error bar =>
    (.error (.limitOrderExpired direction symbol opts.limitPrice bar.low bar.high),
      { t with orderLog := t.orderLog ++ [order] })
  | .ok executionPrice =>
    let filled := t.filledQty quantity opts.dayBar
    match t.bookExecuted (t.draftTrade symbol direction quantity filled executionPrice timestamp) quantity with
    | (.error e,t) => (.error e,t)
    | (.ok trade,t) =>
      let t := t.markPosition symbol price
      let status := if filled < quantity then .partlyFilled else .filled
      (.ok trade,{ t with
        trades := t.trades ++ [trade]
        orderLog := t.orderLog ++ [{ order with filledQty := filled, fillPrice := executionPrice, status := status }] })

/-- The booking switch of `ApplyTrade`: the record's own price and fees, its stamp tax unread. -/
def bookApplied (trade : Trade) : Except TradeError Trade × Tracker :=
  let tradeValue := trade.quantity * trade.price
  match trade.direction with
  | .long =>
    match t.bookLong trade.symbol trade.quantity trade.price (tradeValue + trade.commission + trade.transferFee)
        trade.timestamp with
    | (.error e,t) => (.error e,t)
    | (.ok (),t) => (.ok trade,t)
  | .short =>
    (.ok trade,t.bookShort trade.symbol trade.quantity trade.price (tradeValue - trade.commission - trade.transferFee)
      trade.timestamp)
  | .close =>
    match t.bookClose trade trade.quantity false with
    | .error e => (.error e,t)
    | .ok (trade,t) => (.ok trade,t)
  | .hold => (.ok trade,t)

def applyTrade (trade : Trade) : Except TradeError Trade × Tracker :=
  if trade.quantity ≤ 0 then (.error (.invalidTradeQuantity trade.quantity),t)
  else match t.bookApplied trade with
  | (.error e,t) => (.error e,t)
  | (.ok booked,t) =>
    let t := t.markPosition trade.symbol trade.price
    (.ok booked,{ t with trades := t.trades ++ [booked] })

def processDividend (symbol : String) (dividend : Dividend) : Tracker :=
  match t.positions[symbol]? with
  | none => t
  | some pos => if pos.quantity ≤ 0 then t else { t with cash := t.cash + pos.quantity * dividend.divAmt }

def processSplit (symbol : String) (split : Split) : Tracker :=
  match t.positions[symbol]? with
  | none => t
  | some pos =>
    if pos.quantity ≤ 0 then t
    else { t with
      positions := t.positions.insert symbol (pos.split split.stkDivRatio)
      cash := if split.cashDivRatio > 0 then t.cash + pos.quantity * split.cashDivRatio else t.cash }

def advanceDay : Tracker :=
  let t := { t with positions := t.positions.map fun _ pos => pos.rollOver }
  if t.shortSellingRate ≤ 0 then t
  else
    let dailyRate := t.shortSellingRate / tradingDaysPerYear
    { t with cash := t.positions.foldl (fun cash _ pos => cash - pos.lendingCost dailyRate) t.cash }

def equity : ℚ := if pos.quantity > 0 then pos.marketValue else -pos.marketValue

def recordDailyValue (date : Time) (prices : Book String ℚ) : PortfolioValue × Tracker :=
  let positions := t.positions.map fun symbol pos =>
    match prices[symbol]? with
    | none => pos
    | some price => pos.mark price
  let positionsValue := positions.foldl
    (fun total symbol pos => if prices.contains symbol then total + equity pos else total) 0
  let value : PortfolioValue := ⟨date,t.cash + positionsValue,t.cash,positionsValue⟩
  (value,{ t with
    positions := positions
    portfolioValues := t.portfolioValues ++ [value]
    equityCurve := t.equityCurve ++ [value] })

def getPortfolioValue (prices : Book String ℚ) : ℚ × Tracker :=
  (t.positions.foldl (fun totalValue symbol pos => match prices[symbol]? with
    | none => totalValue
    | some price => totalValue + pos.quantity * price) t.cash,
  { t with positions := t.positions.map fun symbol pos => match prices[symbol]? with
    | none => pos
    | some price =>
      { pos with
        marketValue := pos.quantity * price
        currentPrice := price
        unrealizedPnL := (price - pos.avgCost) * pos.quantity } })

def closePosition (symbol : String) (price : ℚ) (timestamp : Time) : Except TradeError Trade × Tracker :=
  match t.positions[symbol]? with
  | none => (.error (.positionNotFound symbol),t)
  | some pos => t.executeTrade symbol .close |pos.quantity| price timestamp none

end Tracker
end QuantTrading
