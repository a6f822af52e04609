import QuantTrading.Library.Book
import QuantTrading.Market

/-! The in-process risk manager: position sizes by regime and signal strength, the
average true range, and the stop-loss and take-profit levels checked against it.
-/
namespace QuantTrading
open Library

structure StopLossChecker where
  atrPeriod : ℕ
  (baseMultiplier bullMultiplier bearMultiplier sidewaysMultiplier takeProfitMult : ℚ)
deriving DecidableEq

def trueRange (previous bar : OHLCV) : ℚ :=
  max (max (bar.high - bar.low) |bar.high - previous.close|) |bar.low - previous.close|

namespace StopLossChecker

variable (c : StopLossChecker)

def calculateATR (ohlcv : List OHLCV) : Option ℚ :=
  if ohlcv.length < c.atrPeriod then none
  else
    let recent := ohlcv.drop (ohlcv.length - c.atrPeriod - 1)
    some ((recent.zipWith trueRange recent.tail).sum / (c.atrPeriod + 1))

def atrFromOHLCV (ohlcvData : Book String (List OHLCV)) : Book String ℚ :=
  ohlcvData.filterMap fun _ ohlcv => c.calculateATR ohlcv

def getStopLossMultiplier (regime : MarketRegime) : ℚ :=
  match regime.trend with
  | .bull => c.bullMultiplier
  | .bear => c.bearMultiplier
  | .sideways | .other => c.sidewaysMultiplier

def calculateStopLossPrice (entryPrice atr : ℚ) (regime : MarketRegime) : ℚ :=
  entryPrice - c.getStopLossMultiplier regime * atr

def calculateTakeProfitPrice (entryPrice atr : ℚ) : ℚ :=
  entryPrice + c.takeProfitMult * atr

def atrOrDefault (atr : Option ℚ) (price : ℚ) : ℚ :=
  if atr.getD 0 ≤ 0 then price * (2/100) else atr.getD 0

def checkPosition (prices atrData : Book String ℚ) (regime : MarketRegime) (symbol : String)
    (pos : Position) : List StopLossEvent :=
  if pos.quantity ≤ 0 then []
  else match prices[symbol]? with
  | none => []
  | some currentPrice =>
    let atr := atrOrDefault atrData[symbol]? pos.avgCost
    let stopLossPrice := c.calculateStopLossPrice pos.avgCost atr regime
    let takeProfitPrice := c.calculateTakeProfitPrice pos.avgCost atr
    (if currentPrice ≤ stopLossPrice ∧ stopLossPrice > 0 then [⟨symbol,.stopLoss,stopLossPrice,pos.quantity⟩] else []) ++
    (if currentPrice ≥ takeProfitPrice ∧ takeProfitPrice > 0 then [⟨symbol,.takeProfit,takeProfitPrice,pos.quantity⟩]
      else [])

def checkStopLossWithRegime (positions : Book String Position) (prices atrData : Book String ℚ)
    (regime : MarketRegime) : List StopLossEvent :=
  positions.toList.flatMap fun entry => c.checkPosition prices atrData regime entry.1 entry.2

structure Triggered (prices : Book String ℚ) (positions : Book String Position) (event : StopLossEvent) : Prop where
  held : ∃ pos, positions[event.symbol]? = some pos ∧ 0 < pos.quantity ∧ event.quantity = pos.quantity
  priced : ∃ price, prices[event.symbol]? = some price
  level : 0 < event.price

variable {c : StopLossChecker} {regime : MarketRegime} {positions : Book String Position}
   {event : StopLossEvent}

theorem checkPosition_triggered {prices atrData : Book String ℚ} {symbol : String} {pos : Position}
    (held : positions[symbol]? = some pos) (member : event ∈ c.checkPosition prices atrData regime symbol pos) :
    Triggered prices positions event := by
  unfold checkPosition at member
  split at member
  · cases member
  rename_i long
  split at member
  · cases member
  rename_i price priced
  simp only [List.mem_append] at member
  rcases member with member | member
  all_goals
    split at member
    · rename_i reached
      rw [List.mem_singleton] at member
      subst member
      exact ⟨⟨pos,held,not_le.mp long,rfl⟩,⟨price,priced⟩,reached.2⟩
    · cases member

theorem checkStopLoss_triggered {prices atrData : Book String ℚ}
    (member : event ∈ c.checkStopLossWithRegime positions prices atrData regime) : Triggered prices positions event := by
  obtain ⟨⟨symbol,pos⟩,entry,found⟩ := List.mem_flatMap.mp member
  have held := mem_toList_iff_getElem?_eq_some.mp entry
  exact checkPosition_triggered held found

end StopLossChecker

def inferRegimeFromMarket (positions : Book String Position) (prices : Book String ℚ) : MarketRegime :=
  let returns := positions.toList.filterMap fun entry =>
    (prices[entry.1]?).map fun currentPrice => (currentPrice - entry.2.avgCost) / entry.2.avgCost
  if returns = [] then ⟨.sideways,.medium,0,0⟩
  else
    let avgPnL := returns.sum / returns.length
    if avgPnL > 2/100 then ⟨.bull,.medium,1/2,0⟩
    else if avgPnL < -2/100 then ⟨.bear,.medium,-1/2,0⟩
    else ⟨.sideways,.medium,0,0⟩

/-- The configuration sizing reads, the stop-loss checker, and the regime detector, which is
a parameter of the manager. -/
structure RiskManager where
  (targetVolatility maxPositionWeight minPositionWeight : ℚ)
  stopLossChecker : StopLossChecker
  detectRegime : List OHLCV → Option MarketRegime

structure Portfolio where
  cash : ℚ
  positions : Book String Position
  totalValue : ℚ
  updatedAt : Time

namespace RiskManager

variable (rm : RiskManager) (regime : MarketRegime) (signal : Signal)

def calculateBaseWeightFromRegime : ℚ :=
  let base := rm.targetVolatility
  let base := match regime.volatility with
    | .high => base * (1/2)
    | .low => base * (12/10)
    | .medium | .other => base
  let base := match regime.trend with
    | .bull => base * (11/10)
    | .bear => base * (7/10)
    | .sideways | .other => base
  if base > rm.maxPositionWeight then rm.maxPositionWeight else base

def signalWeight : ℚ :=
  let weight := rm.calculateBaseWeightFromRegime regime * signal.strength
  let weight := if weight < rm.minPositionWeight then rm.minPositionWeight else weight
  if weight > rm.maxPositionWeight then rm.maxPositionWeight else weight

def positionSize (totalValue : ℚ) (regime : MarketRegime) (currentPrice : ℚ) (atr : Option ℚ) : PositionSize :=
  let weight := rm.signalWeight regime signal
  let currentPrice := if currentPrice ≤ 0 then 100 else currentPrice
  let atr := StopLossChecker.atrOrDefault atr currentPrice
  { size := normalizeOrderQuantity (totalValue * weight / currentPrice) signal.symbol
    weight := weight
    stopLoss := rm.stopLossChecker.calculateStopLossPrice currentPrice atr regime
    takeProfit := rm.stopLossChecker.calculateTakeProfitPrice currentPrice atr
    riskScore := 1 - signal.compositeScore }

def calculatePosition (portfolio : Portfolio) (regime : MarketRegime)
    (currentPrice : ℚ) (ohlcv : List OHLCV) : Option PositionSize :=
  if signal.symbol = "" then none
  else if portfolio.totalValue ≤ 0 then none
  else some (rm.positionSize signal portfolio.totalValue regime currentPrice (rm.stopLossChecker.calculateATR ohlcv))

/-- The sizes by symbol, the last signal of a symbol winning; fails without a portfolio value. -/
def calculatePositionsBatch (signals : List Signal) (portfolio : Portfolio) (regime : MarketRegime)
    (currentPrices : Book String ℚ) (ohlcvData : Book String (List OHLCV)) : Option (Book String PositionSize) :=
  if signals = [] then some ∅
  else if portfolio.totalValue ≤ 0 then none
  else some (signals.foldl (fun results signal =>
    if signal.symbol = "" then results
    else results.insert signal.symbol
      (rm.positionSize signal portfolio.totalValue regime ((currentPrices[signal.symbol]?).getD 0)
        (rm.stopLossChecker.calculateATR ((ohlcvData[signal.symbol]?).getD [])))) ∅)

end RiskManager
end QuantTrading
