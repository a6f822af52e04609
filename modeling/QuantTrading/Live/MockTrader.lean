import QuantTrading.Library.Book
import QuantTrading.Execution

/-! The in-memory trader of paper trading: buys and sells at a slipped price under the
same settlement and fee rules, written separately from the backtest tracker. A
rejected order changes nothing.
-/
namespace QuantTrading
open Library

structure MockTraderConfig where
  (initialCash commissionRate stampTaxRate slippageRate transferFeeRate minCommission : ℚ)
  priceProvider : Option (String → ℚ)
  slippageModel : SlippageModel
  (impactSigma impactLiquidityFactor : ℚ)

structure PositionInfo where
  symbol : String
  (quantity availableQty avgCost currentPrice marketValue unrealizedPnL quantityToday : ℚ)
  quantityYesterday : ℚ
deriving DecidableEq

structure OrderResult where
  symbol : String
  direction : Direction
  orderType : OrderType
  (quantity filledQty price : ℚ)
  status : OrderStatus
  (fillPrice fee : ℚ)
deriving DecidableEq

structure MockTrader where
  config : MockTraderConfig
  positions : Book String PositionInfo
  orders : List OrderResult
  cash : ℚ
  barProvider : Option (String → Option Quote)
  sqrt : ℚ → ℚ

inductive SubmitError where
  | quantityMustBePositive (quantity : ℚ)
  | symbolIsRequired
  | invalidExecutionPrice (price : ℚ)
  | unsupportedDirection (direction : Direction)
  | insufficientCash (need value commission transfer have_ : ℚ)
  | noPositionToClose (symbol : String)
  | noSellableShares (symbol : String) (quantityToday : ℚ)
deriving DecidableEq

namespace MockTrader

def orDefault (value default : ℚ) : ℚ := if value ≤ 0 then default else value

variable (config : MockTraderConfig) (m : MockTrader) (pos : PositionInfo)

def withDefaults : MockTraderConfig :=
  { config with
    initialCash := orDefault config.initialCash 1000000
    commissionRate := orDefault config.commissionRate Fees.defaultCommissionRate
    stampTaxRate := orDefault config.stampTaxRate Fees.defaultStampTaxRate
    slippageRate := orDefault config.slippageRate Fees.defaultSlippageRate
    transferFeeRate := orDefault config.transferFeeRate Fees.defaultTransferFeeRate
    minCommission := orDefault config.minCommission Fees.defaultMinCommission }

def newMockTrader (sqrt : ℚ → ℚ) : MockTrader where
  config := withDefaults config
  positions := ∅
  orders := []
  cash := (withDefaults config).initialCash
  barProvider := none
  sqrt := sqrt

def feeSchedule : AShareFees where
  commissionRate := m.config.commissionRate
  stampTaxRate := m.config.stampTaxRate
  transferFeeRate := m.config.transferFeeRate
  minCommission := m.config.minCommission
  slippageRate := m.config.slippageRate

def currentBar (symbol : String) : Option Quote := m.barProvider.bind fun bars => bars symbol

def applyExecutionCost (symbol : String) (direction : Direction) (quantity execPrice : ℚ) : ℚ :=
  if m.config.slippageModel = .unset then
    let slippage := execPrice * m.config.slippageRate
    if direction = .long then execPrice + slippage else execPrice - slippage
  else
    let (high,low,adv) := match m.currentBar symbol with
      | some q => (q.high,q.low,q.volume)
      | none => (0,0,0)
    let (high,low) := if high = 0 ∧ low = 0 then (execPrice,execPrice) else (high,low)
    let config : ExecutionConfig :=
      ⟨m.config.slippageModel,m.config.commissionRate,m.config.minCommission,m.config.impactSigma,
        m.config.impactLiquidityFactor⟩
    CostModel.slippagePrice ⟨config,m.sqrt⟩ execPrice direction quantity adv high low

def filledOrder (symbol : String) (direction : Direction) (orderType : OrderType)
    (quantity execPrice fillPrice fee : ℚ) : OrderResult :=
  ⟨symbol,direction,orderType,quantity,quantity,execPrice,.filled,fillPrice,fee⟩

def bought (existing : Option PositionInfo) (symbol : String) (quantity fillPrice : ℚ) : PositionInfo :=
  match existing with
  | some pos =>
    let totalQty := pos.quantity + quantity
    { pos with
      avgCost := (pos.avgCost * pos.quantity + fillPrice * quantity) / totalQty
      quantity := totalQty
      quantityToday := pos.quantityToday + quantity
      marketValue := totalQty * fillPrice }
  | none =>
    { symbol := symbol
      quantity := quantity
      availableQty := 0
      avgCost := fillPrice
      currentPrice := fillPrice
      marketValue := quantity * fillPrice
      unrealizedPnL := 0
      quantityToday := quantity
      quantityYesterday := 0 }

def sold (quantity fillPrice : ℚ) : Option PositionInfo :=
  let left := pos.quantity - quantity
  if left ≤ 0 then none
  else some { pos with
    quantityYesterday := pos.quantityYesterday - quantity
    quantity := left
    marketValue := left * fillPrice }

def executeBuy (symbol : String) (orderType : OrderType) (quantity execPrice : ℚ) :
    Except SubmitError OrderResult × MockTrader :=
  let fillPrice := m.applyExecutionCost symbol .long quantity execPrice
  let tradeValue := quantity * fillPrice
  let fb := computeFees tradeValue false m.feeSchedule
  let totalCost := tradeValue + fb.total
  if totalCost > m.cash then
    (.error (.insufficientCash totalCost tradeValue fb.commission fb.transferFee m.cash),m)
  else
    let result := filledOrder symbol .long orderType quantity execPrice fillPrice fb.total
    (.ok result,{ m with
      cash := m.cash - totalCost
      positions := m.positions.put symbol (some (bought m.positions[symbol]? symbol quantity fillPrice))
      orders := m.orders ++ [result] })

def executeSell (symbol : String) (orderType : OrderType) (quantity execPrice : ℚ) :
    Except SubmitError OrderResult × MockTrader :=
  match m.positions[symbol]? with
  | none => (.error (.noPositionToClose symbol),m)
  | some pos =>
    if pos.quantity ≤ 0 then (.error (.noPositionToClose symbol),m)
    else if pos.quantityYesterday ≤ 0 then (.error (.noSellableShares symbol pos.quantityToday),m)
    else
      let quantity := if quantity > pos.quantityYesterday then pos.quantityYesterday else quantity
      let fillPrice := m.applyExecutionCost symbol .close quantity execPrice
      let tradeValue := quantity * fillPrice
      let fb := computeFees tradeValue true m.feeSchedule
      let result := filledOrder symbol .close orderType quantity execPrice fillPrice fb.total
      (.ok result,{ m with
        cash := m.cash + (tradeValue - fb.total)
        positions := m.positions.put symbol (sold pos quantity fillPrice)
        orders := m.orders ++ [result] })

def referencePrice (symbol : String) (orderType : OrderType) (price : ℚ) : ℚ :=
  if orderType = .market then
    match (m.currentBar symbol).filter (fun q => q.close > 0),m.config.priceProvider with
    | some q,_ => q.close
    | none,some provider => provider symbol
    | none,none => price
  else price

def submitOrder (symbol : String) (direction : Direction) (orderType : OrderType)
    (quantity price : ℚ) : Except SubmitError OrderResult × MockTrader :=
  if quantity ≤ 0 then (.error (.quantityMustBePositive quantity),m)
  else if symbol = "" then (.error .symbolIsRequired,m)
  else
    let execPrice := m.referencePrice symbol orderType price
    if execPrice ≤ 0 then (.error (.invalidExecutionPrice execPrice),m)
    else match direction with
    | .long => m.executeBuy symbol orderType quantity execPrice
    | .close => m.executeSell symbol orderType quantity execPrice
    | .short | .hold => (.error (.unsupportedDirection direction),m)

def rollOver : PositionInfo :=
  if pos.quantityToday > 0 then
    { pos with
      quantityYesterday := pos.quantityYesterday + pos.quantityToday
      availableQty := pos.quantityYesterday + pos.quantityToday
      quantityToday := 0 }
  else pos

def advanceDay : MockTrader := { m with positions := m.positions.map fun _ pos => rollOver pos }

def snapshot : PositionInfo :=
  match m.config.priceProvider with
  | none => pos
  | some provider => { pos with currentPrice := provider pos.symbol }

def getPositions : List PositionInfo :=
  m.positions.toList.map fun entry =>
    let cp := m.snapshot entry.2
    if m.config.priceProvider.isSome then
      { cp with
        marketValue := cp.quantity * cp.currentPrice
        unrealizedPnL := (cp.currentPrice - cp.avgCost) * cp.quantity }
    else cp

structure EmergencyFlattenOrder where
  symbol : String
  (quantity fillPrice netProceeds : ℚ)
  bypassedT1 : Bool
deriving DecidableEq

structure EmergencyFlattenSkip where
  symbol : String
  quantity : ℚ
  reason : String
deriving DecidableEq

structure EmergencyFlattenResult where
  sold : List EmergencyFlattenOrder
  skipped : List EmergencyFlattenSkip
  soldTotal : ℚ
deriving DecidableEq

def flattenPrice (symbol : String) (pos : PositionInfo) : ℚ :=
  match m.config.priceProvider with
  | none => pos.currentPrice
  | some provider => if provider symbol > 0 then provider symbol else pos.currentPrice

def flattenPosition (state : EmergencyFlattenResult × MockTrader) (symbol : String) :
    EmergencyFlattenResult × MockTrader :=
  let (result,m) := state
  match m.positions[symbol]? with
  | none => (result,m)
  | some pos =>
    if pos.quantity ≤ 0 then (result,m)
    else
      let execPrice := m.flattenPrice symbol pos
      if execPrice ≤ 0 then
        ({ result with
          skipped := result.skipped ++ [⟨symbol,pos.quantity,"no execution price available (feed down)"⟩] },m)
      else
        let bypassT1 := pos.quantityYesterday ≤ 0 ∧ pos.quantityToday > 0
        let fillPrice := m.applyExecutionCost symbol .close pos.quantity execPrice
        let tradeValue := pos.quantity * fillPrice
        let fb := computeFees tradeValue true m.feeSchedule
        let netProceeds := tradeValue - fb.total
        ({ result with
            sold := result.sold ++ [⟨symbol,pos.quantity,fillPrice,netProceeds,bypassT1⟩]
            soldTotal := result.soldTotal + netProceeds },
          { m with
            cash := m.cash + netProceeds
            positions := m.positions.put symbol none
            orders := m.orders ++ [filledOrder symbol .close .market pos.quantity execPrice fillPrice fb.total] })

def emergencyFlatten : EmergencyFlattenResult × MockTrader :=
  (m.positions.toList.map (·.1)).foldl flattenPosition (⟨[],[],0⟩,m)

theorem orDefault_pos {default : ℚ} (value : ℚ) (positive : 0 < default) : 0 < orDefault value default := by
  unfold orDefault
  split
  · exact positive
  · linarith

end MockTrader
end QuantTrading
