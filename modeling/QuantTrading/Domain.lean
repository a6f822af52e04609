import Mathlib.Data.Rat.Floor

/-! Shared vocabulary of the trading packages. Amounts of money, prices and share
quantities are exact rationals. An instant is the number of nanoseconds since the
zero instant of the Go clock, 0001-01-01 00:00:00 UTC.
-/
namespace QuantTrading

abbrev Time := Int

namespace Time

def dayNs : Int := 24 * 60 * 60 * 10^9

def date (year month day : Int) : Time :=
  let shifted := if month ≤ 2 then year - 1 else year
  let monthIndex := (month + 9) % 12
  let dayOfYear := (153 * monthIndex + 2) / 5 + day - 1
  (365 * shifted + shifted / 4 - shifted / 100 + shifted / 400 + dayOfYear - 306) * dayNs

example : date 1 1 1 = 0 := by decide
example : date 2024 3 1 - date 2024 2 28 = 2 * dayNs := by decide

def isZero (t : Time) : Bool := t == 0

/-- `t.Truncate(24 * time.Hour)`. -/
def truncateDay (t : Time) : Time := t - t % dayNs

def SameDay (a b : Time) : Prop := truncateDay a = truncateDay b

instance (a b : Time) : Decidable (SameDay a b) := inferInstanceAs (Decidable (truncateDay a = truncateDay b))

end Time

inductive Direction where
  | long | short | close | hold
deriving DecidableEq, Repr

inductive OrderType where
  | market | limit | stop | trailing
deriving DecidableEq, Repr

/-- A daily bar; the symbol it belongs to is the key it is stored under. -/
structure OHLCV where
  date : Time
  (high low close volume : ℚ)
  (limitUp limitDown : Bool)
deriving DecidableEq

structure Position where
  symbol : String
  (quantity avgCost currentPrice marketValue unrealizedPnL realizedPnL : ℚ)
  (entryDate buyDate : Time)
  (quantityToday quantityYesterday : ℚ)
deriving DecidableEq

structure Trade where
  symbol : String
  direction : Direction
  (quantity price commission transferFee stampTax : ℚ)
  timestamp : Time
  (pendingQty filledQty : ℚ)
deriving DecidableEq

inductive OrderStatus where
  | unset | filled | partlyFilled | expired | cancelled
deriving DecidableEq

structure Order where
  symbol : String
  direction : Direction
  orderType : OrderType
  (quantity limitPrice : ℚ)
  timestamp : Time
  (filledQty fillPrice : ℚ)
  status : OrderStatus
deriving DecidableEq

structure Dividend where
  symbol : String
  payDate : Time
  divAmt : ℚ
deriving DecidableEq

structure Split where
  symbol : String
  tradeDate : Time
  (stkDivRatio cashDivRatio : ℚ)
deriving DecidableEq

inductive ExecStyle where
  | unset | twap | vwap | unknown (name : String)
deriving DecidableEq

structure Signal where
  symbol : String
  date : Time
  direction : Direction
  (strength compositeScore limitPrice : ℚ)
  orderType : OrderType
  execAlgo : ExecStyle
  execSlices : Int
  execProfile : List ℚ
deriving DecidableEq

structure TargetPosition where
  (targetQty actualQty pendingQty : ℚ)
  lastUpdated : Time
deriving DecidableEq

inductive Trend where
  | bull | bear | sideways | other
deriving DecidableEq

inductive Volatility where
  | low | medium | high | other
deriving DecidableEq

structure MarketRegime where
  trend : Trend
  volatility : Volatility
  sentiment : ℚ
  timestamp : Time
deriving DecidableEq

structure PositionSize where
  (size weight stopLoss takeProfit riskScore : ℚ)
deriving DecidableEq

inductive StopLossType where
  | stopLoss | takeProfit
deriving DecidableEq

structure StopLossEvent where
  symbol : String
  type : StopLossType
  (price quantity : ℚ)
deriving DecidableEq

structure Stock where
  name : String
  listDate : Time
deriving DecidableEq

end QuantTrading
