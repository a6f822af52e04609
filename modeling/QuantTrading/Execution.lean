import QuantTrading.Fees

/-! The execution cost core shared by backtest and paper trading, and the backtest
execution service that prices an order against the day's quote. The square root of
the impact model is a parameter of the cost model.
-/
namespace QuantTrading

/-- The slippage models by name; `unset` is the empty name and `other` any unknown one. -/
inductive SlippageModel where
  | unset | fixed | variable | impact | none | other
deriving DecidableEq

structure ExecutionConfig where
  slippageModel : SlippageModel
  (commissionRate minCommission impactSigma impactLiquidityFactor : ℚ)
deriving DecidableEq

structure MarketImpactModel where
  (sigma liquidityFactor : ℚ)

def MarketImpactModel.calculateImpact (m : MarketImpactModel) (sqrt : ℚ → ℚ) (orderQty adv : ℚ) : ℚ :=
  if adv ≤ 0 ∨ orderQty ≤ 0 then 0
  else m.sigma * sqrt (orderQty / adv) * (if m.liquidityFactor = 0 then 1 else m.liquidityFactor)

structure CostModel where
  config : ExecutionConfig
  sqrt : ℚ → ℚ

namespace CostModel

def moved (price : ℚ) (direction : Direction) (slippage : ℚ) : ℚ :=
  if direction = .long then price * (1 + slippage) else price * (1 - slippage)

def slippagePrice (m : CostModel) (price : ℚ) (direction : Direction) (orderQty adv high low : ℚ) : ℚ :=
  match m.config.slippageModel with
  | .fixed => moved price direction Fees.fixedSlippageRate
  | .variable => moved price direction ((high - low) / price * (1/10))
  | .impact =>
    if adv ≤ 0 then moved price direction Fees.fixedSlippageRate
    else
      let model : MarketImpactModel := ⟨m.config.impactSigma,m.config.impactLiquidityFactor⟩
      moved price direction (model.calculateImpact m.sqrt orderQty adv)
  | .none => price
  | .unset | .other => price

def commission (m : CostModel) (notional : ℚ) : ℚ :=
  let commission := notional * m.config.commissionRate
  if commission < m.config.minCommission then m.config.minCommission else commission

end CostModel

structure Quote where
  symbol : String
  (high low close volume : ℚ)
  date : Time
deriving DecidableEq

inductive OrderError where
  | invalidOrderQuantity (quantity : ℚ)
  | invalidLimitPrice (price : ℚ)
  | limitPriceNotReached
  | unsupportedOrderType (orderType : OrderType)
  | invalidExecutionPrice (price : ℚ)
deriving DecidableEq

/-- The service keeps its slippage model beside the configuration, so that it can be replaced. -/
structure BacktestExecutionService where
  config : ExecutionConfig
  slippageModel : SlippageModel
  sqrt : ℚ → ℚ

namespace BacktestExecutionService

def newBacktestExecutionService (config : ExecutionConfig) (sqrt : ℚ → ℚ) : BacktestExecutionService :=
  ⟨config,config.slippageModel,sqrt⟩

variable (s : BacktestExecutionService) (order : Order) (quote : Quote)

def applySlippage (price : ℚ) (direction : Direction) (quote : Quote) (orderQty : ℚ) : ℚ :=
  let core : CostModel := ⟨{ s.config with slippageModel := s.slippageModel },s.sqrt⟩
  core.slippagePrice price direction orderQty quote.volume quote.high quote.low

def calculateCommission (amount : ℚ) : ℚ :=
  CostModel.commission ⟨s.config,s.sqrt⟩ amount

def orderPrice : Except OrderError ℚ :=
  match order.orderType with
  | .market => .ok (s.applySlippage quote.close order.direction quote order.quantity)
  | .limit =>
    if order.limitPrice ≤ 0 then .error (.invalidLimitPrice order.limitPrice)
    else if order.direction = .long ∧ order.limitPrice ≥ quote.low then .ok (min order.limitPrice quote.high)
    else if order.direction = .short ∧ order.limitPrice ≤ quote.high then .ok (max order.limitPrice quote.low)
    else .error .limitPriceNotReached
  | .stop | .trailing => .error (.unsupportedOrderType order.orderType)

def executeOrder : Except OrderError Trade :=
  if order.quantity ≤ 0 then .error (.invalidOrderQuantity order.quantity)
  else match s.orderPrice order quote with
  | .error e => .error e
  | .ok executionPrice =>
    if executionPrice ≤ 0 then .error (.invalidExecutionPrice executionPrice)
    else .ok
      { symbol := order.symbol
        direction := order.direction
        quantity := order.quantity
        price := executionPrice
        commission := s.calculateCommission (executionPrice * order.quantity)
        transferFee := 0
        stampTax := 0
        timestamp := quote.date
        pendingQty := 0
        filledQty := 0 }

structure Filled (s : BacktestExecutionService) (order : Order) (quote : Quote) (trade : Trade) : Prop where
  ordered : 0 < order.quantity
  priced : s.orderPrice order quote = .ok trade.price
  positive : 0 < trade.price
  symbol : trade.symbol = order.symbol
  direction : trade.direction = order.direction
  quantity : trade.quantity = order.quantity
  timestamp : trade.timestamp = quote.date

theorem executeOrder_ok {s : BacktestExecutionService} {order : Order} {quote : Quote} {trade : Trade}
    (accepted : s.executeOrder order quote = .ok trade) : Filled s order quote trade := by
  unfold executeOrder at accepted
  split at accepted
  · cases accepted
  rename_i ordered
  split at accepted
  · cases accepted
  rename_i price priced
  split at accepted
  · cases accepted
  rename_i positive
  cases accepted
  exact ⟨not_le.mp ordered,priced,not_le.mp positive,rfl,rfl,rfl,rfl⟩

end BacktestExecutionService
end QuantTrading
