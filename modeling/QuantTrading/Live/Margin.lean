import Mathlib.Algebra.Order.Field.Rat
import QuantTrading.Library.Outcome

/-! The margin account: cash, borrowed money, a long and a short book and accrued interest.
Trades only move entries of these books; a refused one changes nothing.
-/
namespace QuantTrading
open Library

structure MarginConfig where
  (initialMarginRate maintenanceRatioFloor warningRatio financingRate securitiesLendingRate : ℚ)
  daysPerYear : Int

inductive MarginError where
  | initialMarginRateOutside (rate : ℚ)
  | maintenanceRatioFloorBelowOne (floor : ℚ)
  | warningRatioBelowFloor (warning floor : ℚ)
  | financingRateOutside (rate : ℚ)
  | securitiesLendingRateOutside (rate : ℚ)
  | daysPerYearNotPositive (days : Int)
  | accountIDIsRequired
  | initialCashNegative (cash : ℚ)
  | symbolIsRequired
  | quantityMustBePositive (qty : ℚ)
  | priceMustBePositive (price : ℚ)
  | insufficientMargin (required available : ℚ)
  | notShortable (symbol : String)
  | exceedsMaxShortable (qty maxQty existing : ℚ)
  | noShortPosition (symbol : String)
  | insufficientShortPosition (have_ want : ℚ)
  | noLongPosition (symbol : String)
  | insufficientLongPosition (have_ want : ℚ)
  | daysNegative (days : Int)
  | depositMustBePositive (amount : ℚ)
  | withdrawMustBePositive (amount : ℚ)
  | insufficientCash (have_ want : ℚ)
  | breachesMaintenanceRatio (ratio : WithTop ℚ) (floor : ℚ)
deriving DecidableEq

def MarginConfig.validate (c : MarginConfig) : Except MarginError Unit :=
  if c.initialMarginRate < 0 ∨ c.initialMarginRate > 1 then .error (.initialMarginRateOutside c.initialMarginRate)
  else if c.maintenanceRatioFloor < 1 then .error (.maintenanceRatioFloorBelowOne c.maintenanceRatioFloor)
  else if c.warningRatio < c.maintenanceRatioFloor then
    .error (.warningRatioBelowFloor c.warningRatio c.maintenanceRatioFloor)
  else if c.financingRate < 0 ∨ c.financingRate > 1 then .error (.financingRateOutside c.financingRate)
  else if c.securitiesLendingRate < 0 ∨ c.securitiesLendingRate > 1 then
    .error (.securitiesLendingRateOutside c.securitiesLendingRate)
  else if c.daysPerYear ≤ 0 then .error (.daysPerYearNotPositive c.daysPerYear)
  else .ok ()

def defaultMarginConfig : MarginConfig := ⟨1/2,13/10,3/2,6/100,106/1000,365⟩

structure MarginCalculator where
  cfg : MarginConfig

def newMarginCalculator (cfg : MarginConfig) : MarginCalculator where
  cfg := { cfg with
    daysPerYear := if cfg.daysPerYear ≤ 0 then 365 else cfg.daysPerYear
    initialMarginRate := if cfg.initialMarginRate = 0 then 1/2 else cfg.initialMarginRate
    maintenanceRatioFloor := if cfg.maintenanceRatioFloor = 0 then 13/10 else cfg.maintenanceRatioFloor
    warningRatio := if cfg.warningRatio = 0 then 3/2 else cfg.warningRatio }

namespace MarginCalculator
variable (c : MarginCalculator)

def requiredMargin (tradeValue : ℚ) : ℚ := if tradeValue ≤ 0 then 0 else tradeValue * c.cfg.initialMarginRate

def requiredMarginForBuy : ℚ → ℚ := c.requiredMargin

def requiredMarginForShort : ℚ → ℚ := c.requiredMargin

def dailyInterest (rate balance : ℚ) : ℚ := if balance ≤ 0 then 0 else balance * rate / c.cfg.daysPerYear

def dailyFinancingInterest : ℚ → ℚ := c.dailyInterest c.cfg.financingRate

def dailyLendingInterest : ℚ → ℚ := c.dailyInterest c.cfg.securitiesLendingRate

def accruedFinancingInterest (financingBalance : ℚ) (days : Int) : ℚ := c.dailyFinancingInterest financingBalance * days

def accruedLendingInterest (lendingBalance : ℚ) (days : Int) : ℚ := c.dailyLendingInterest lendingBalance * days

def maintenanceRatio (totalAssets totalDebt : ℚ) : WithTop ℚ :=
  if totalDebt ≤ 0 then if totalAssets < 0 then ((0 : ℚ) : WithTop ℚ) else ⊤
  else if totalAssets ≤ 0 then ((0 : ℚ) : WithTop ℚ)
  else ((totalAssets / totalDebt : ℚ) : WithTop ℚ)

def availableMargin (totalAssets totalDebt usedMargin : ℚ) : ℚ :=
  let maintenanceMargin := if totalDebt > 0 then totalDebt * (1 - 1 / c.cfg.maintenanceRatioFloor) else 0
  totalAssets - usedMargin - maintenanceMargin

def hasSufficientMargin (availableMargin requiredMargin : ℚ) : Bool := availableMargin ≥ requiredMargin

end MarginCalculator

structure MarginLongPosition where
  symbol : String
  (quantity avgCost financingAmount : ℚ)
deriving DecidableEq

structure MarginShortPosition where
  symbol : String
  (quantity salePrice proceeds lendingAmount : ℚ)
deriving DecidableEq

inductive MarginOperation where
  | marginBuy
  | shortSell
  | buyToCover
  | marginSell
deriving DecidableEq

structure MarginTradeResult where
  tradeID : String
  operation : MarginOperation
  symbol : String
  (quantity price tradeValue financingDelta lendingDelta cashDelta marginRequired : ℚ)
  maintenanceRatio : WithTop ℚ
  warning : Bool
deriving DecidableEq

structure ShortableEntry where
  symbol : String
  maxQty : ℚ

abbrev ShortableList := Book String ShortableEntry

structure MarginAccount where
  accountID : String
  (cash financingBalance : ℚ)
  longPositions : Book String MarginLongPosition
  shortPositions : Book String MarginShortPosition
  (accruedFinancingInterest accruedLendingInterest : ℚ)
  cfg : MarginConfig
  shortable : ShortableList
  tradeSeq : Nat

def newMarginAccount (accountID : String) (initialCash : ℚ) (cfg : MarginConfig) (shortable : ShortableList) :
    Except MarginError MarginAccount :=
  if accountID = "" then .error .accountIDIsRequired
  else if initialCash < 0 then .error (.initialCashNegative initialCash)
  else do
    cfg.validate
    return ⟨accountID,initialCash,0,∅,∅,0,0,cfg,shortable,0⟩

def priceOr (prices : Book String ℚ) (symbol : String) (fallback : ℚ) : ℚ :=
  let price := (prices[symbol]?).getD 0
  if price ≤ 0 then fallback else price

def tradePrices (symbol : String) (price : ℚ) : Book String ℚ := (∅ : Book String ℚ).insert symbol price

namespace MarginAccount

variable (a : MarginAccount)

def calculator : MarginCalculator := newMarginCalculator a.cfg

def totalAssets (prices : Book String ℚ) : ℚ :=
  a.longPositions.foldl (fun total symbol p => total + p.quantity * priceOr prices symbol p.avgCost) a.cash

def totalDebt (prices : Book String ℚ) : ℚ :=
  a.shortPositions.foldl (fun total symbol p => total + p.quantity * priceOr prices symbol p.salePrice)
    a.financingBalance + (a.accruedFinancingInterest + a.accruedLendingInterest)

def lendingBalance (prices : Book String ℚ) : ℚ :=
  a.shortPositions.foldl (fun total symbol p => total + p.quantity * priceOr prices symbol p.salePrice) 0

def usedMargin (prices : Book String ℚ) : ℚ :=
  let rate := a.cfg.initialMarginRate
  a.shortPositions.foldl (fun total symbol p => total + p.quantity * priceOr prices symbol p.salePrice * rate)
    (a.longPositions.foldl (fun total symbol p => total + p.quantity * priceOr prices symbol p.avgCost * rate) 0)

def maintenanceRatio (prices : Book String ℚ) : WithTop ℚ :=
  MarginCalculator.maintenanceRatio (a.totalAssets prices) (a.totalDebt prices)

def availableMargin (prices : Book String ℚ) : ℚ :=
  a.calculator.availableMargin (a.totalAssets prices) (a.totalDebt prices) (a.usedMargin prices)

def netAssets (prices : Book String ℚ) : ℚ := a.totalAssets prices - a.totalDebt prices

def validateTrade (symbol : String) (qty price : ℚ) : Except MarginError Unit :=
  if symbol = "" then .error .symbolIsRequired
  else if qty ≤ 0 then .error (.quantityMustBePositive qty)
  else if price ≤ 0 then .error (.priceMustBePositive price)
  else .ok ()

def checkMargin (symbol : String) (price requiredMargin : ℚ) : Except MarginError Unit :=
  let available := a.availableMargin (tradePrices symbol price)
  if MarginCalculator.hasSufficientMargin available requiredMargin then .ok ()
  else .error (.insufficientMargin requiredMargin available)

variable (pos : MarginLongPosition) (operation : MarginOperation)

def report (symbol : String) (qty price financingDelta lendingDelta cashDelta
    marginRequired : ℚ) : MarginTradeResult × MarginAccount :=
  let postRatio := a.maintenanceRatio (tradePrices symbol price)
  let a := { a with tradeSeq := a.tradeSeq + 1 }
  ({ tradeID := "MAR-" ++ a.accountID ++ "-" ++ toString a.tradeSeq
     operation := operation
     symbol := symbol
     quantity := qty
     price := price
     tradeValue := qty * price
     financingDelta := financingDelta
     lendingDelta := lendingDelta
     cashDelta := cashDelta
     marginRequired := marginRequired
     maintenanceRatio := postRatio
     warning := decide (postRatio < (a.cfg.warningRatio : WithTop ℚ)) },a)

def addToLong (existing : Option MarginLongPosition) (symbol : String) (qty price financingAmount : ℚ) :
    MarginLongPosition :=
  match existing with
  | none => ⟨symbol,qty,price,financingAmount⟩
  | some pos =>
    let totalQty := pos.quantity + qty
    let totalCost := pos.quantity * pos.avgCost + qty * price
    { pos with
      avgCost := totalCost / totalQty
      quantity := totalQty
      financingAmount := pos.financingAmount + financingAmount }

def addToShort (existing : Option MarginShortPosition) (symbol : String) (qty price lendingAmount : ℚ) :
    MarginShortPosition :=
  match existing with
  | none => ⟨symbol,qty,price,qty * price,lendingAmount⟩
  | some pos =>
    let totalQty := pos.quantity + qty
    let totalProceeds := pos.proceeds + qty * price
    { pos with
      salePrice := totalProceeds / totalQty
      proceeds := totalProceeds
      quantity := totalQty
      lendingAmount := pos.lendingAmount + lendingAmount }

def marginBuy (symbol : String) (qty price : ℚ) : Except MarginError (MarginTradeResult × MarginAccount) := do
  validateTrade symbol qty price
  let tradeValue := qty * price
  let requiredMargin := a.calculator.requiredMarginForBuy tradeValue
  a.checkMargin symbol price requiredMargin
  let bought := { a with
    financingBalance := a.financingBalance + tradeValue
    longPositions := a.longPositions.put symbol (some (addToLong a.longPositions[symbol]? symbol qty price tradeValue)) }
  return bought.report .marginBuy symbol qty price tradeValue 0 0 requiredMargin

def shortQuantity (symbol : String) : ℚ := ((a.shortPositions[symbol]?).map (·.quantity)).getD 0

def maxShortableQty (symbol : String) : Option ℚ := (a.shortable[symbol]?).map (·.maxQty)

def checkQuota (maxQty existing qty : ℚ) : Except MarginError Unit :=
  if existing + qty > maxQty then .error (.exceedsMaxShortable qty maxQty existing) else .ok ()

def checkShortable (symbol : String) (qty : ℚ) : Except MarginError Unit :=
  match a.maxShortableQty symbol with
  | none => .error (.notShortable symbol)
  | some maxQty => if maxQty > 0 then checkQuota maxQty (a.shortQuantity symbol) qty else .ok ()

def shortSellLocked (symbol : String) (qty price : ℚ) : Except MarginError (MarginTradeResult × MarginAccount) := do
  let tradeValue := qty * price
  let requiredMargin := a.calculator.requiredMarginForShort tradeValue
  a.checkMargin symbol price requiredMargin
  let sold := { a with
    cash := a.cash + tradeValue
    shortPositions := a.shortPositions.put symbol
      (some (addToShort a.shortPositions[symbol]? symbol qty price tradeValue)) }
  return sold.report .shortSell symbol qty price 0 tradeValue tradeValue requiredMargin

def shortSell (symbol : String) (qty price : ℚ) : Except MarginError (MarginTradeResult × MarginAccount) := do
  validateTrade symbol qty price
  a.checkShortable symbol qty
  a.shortSellLocked symbol qty price

def coverShort (pos : MarginShortPosition) (qty : ℚ) : Option MarginShortPosition :=
  let ratio := qty / pos.quantity
  let reduced := if pos.quantity > 0 then
      { pos with
        lendingAmount := pos.lendingAmount - pos.lendingAmount * ratio
        proceeds := pos.proceeds - pos.proceeds * ratio }
    else pos
  let left := pos.quantity - qty
  if left ≤ 0 then none else some { reduced with quantity := left, salePrice := 0 }

def buyToCover (symbol : String) (qty price : ℚ) : Except MarginError (MarginTradeResult × MarginAccount) := do
  validateTrade symbol qty price
  match a.shortPositions[symbol]? with
  | none => .error (.noShortPosition symbol)
  | some shortPos =>
    if shortPos.quantity < qty then .error (.insufficientShortPosition shortPos.quantity qty)
    else
      let tradeValue := qty * price
      let covered := { a with
        cash := a.cash - tradeValue
        shortPositions := a.shortPositions.put symbol (coverShort shortPos qty) }
      return covered.report .buyToCover symbol qty price 0 (-tradeValue) (-tradeValue) 0

/-- What selling `qty` shares of a position repays. -/
def repayment (qty tradeValue : ℚ) : ℚ :=
  if pos.quantity > 0 then
    let financingForQty := pos.financingAmount * (qty / pos.quantity)
    if tradeValue < financingForQty then tradeValue else financingForQty
  else 0

def reduceLong (qty : ℚ) : Option MarginLongPosition :=
  let financingAmount := if pos.quantity > 0 then
      pos.financingAmount - pos.financingAmount * (qty / pos.quantity)
    else pos.financingAmount
  let left := pos.quantity - qty
  if left ≤ 0 then none else some { pos with quantity := left, financingAmount := financingAmount }

-- The whole proceeds go into cash and the repayment off the balance; cash does not pay for it.
def marginSell (symbol : String) (qty price : ℚ) : Except MarginError (MarginTradeResult × MarginAccount) := do
  validateTrade symbol qty price
  match a.longPositions[symbol]? with
  | none => .error (.noLongPosition symbol)
  | some longPos =>
    if longPos.quantity < qty then .error (.insufficientLongPosition longPos.quantity qty)
    else
      let tradeValue := qty * price
      let sold := { a with
        cash := a.cash + tradeValue
        financingBalance := a.financingBalance - repayment longPos qty tradeValue
        longPositions := a.longPositions.put symbol (reduceLong longPos qty) }
      return sold.report .marginSell symbol qty price (-tradeValue) 0 tradeValue 0

def trade (symbol : String) (qty price : ℚ) : Except MarginError (MarginTradeResult × MarginAccount) :=
  match operation with
  | .marginBuy => a.marginBuy symbol qty price
  | .shortSell => a.shortSell symbol qty price
  | .buyToCover => a.buyToCover symbol qty price
  | .marginSell => a.marginSell symbol qty price

def accrueInterest (days : Int) (prices : Book String ℚ) : Except MarginError ((ℚ × ℚ) × MarginAccount) :=
  if days < 0 then .error (.daysNegative days)
  else if days = 0 then .ok ((0,0),a)
  else
    let financingInterest := a.calculator.accruedFinancingInterest a.financingBalance days
    let lendingInterest := a.calculator.accruedLendingInterest (a.lendingBalance prices) days
    .ok ((financingInterest,lendingInterest),{ a with
      accruedFinancingInterest := a.accruedFinancingInterest + financingInterest
      accruedLendingInterest := a.accruedLendingInterest + lendingInterest })

def deposit (amount : ℚ) : Except MarginError MarginAccount :=
  if amount ≤ 0 then .error (.depositMustBePositive amount) else .ok { a with cash := a.cash + amount }

def withdraw (amount : ℚ) (prices : Book String ℚ) : Except MarginError MarginAccount :=
  if amount ≤ 0 then .error (.withdrawMustBePositive amount)
  else if a.cash < amount then .error (.insufficientCash a.cash amount)
  else
    let after := { a with cash := a.cash - amount }
    let ratio := after.maintenanceRatio prices
    if ratio < (a.cfg.maintenanceRatioFloor : WithTop ℚ) then
      .error (.breachesMaintenanceRatio ratio a.cfg.maintenanceRatioFloor)
    else .ok after

structure ForceLiquidateEntry where
  symbol : String
  (quantity price tradeValue : ℚ)
deriving DecidableEq

structure ForceLiquidateResult where
  (longSold shortCovered : List ForceLiquidateEntry)
  finalCash : ℚ
  reason : String
deriving DecidableEq

def liquidateLong (prices : Book String ℚ) (state : List ForceLiquidateEntry × MarginAccount) (symbol : String)
    (p : MarginLongPosition) : List ForceLiquidateEntry × MarginAccount :=
  let (sold,a) := state
  let price := priceOr prices symbol p.avgCost
  let tradeValue := p.quantity * price
  let financingBalance := a.financingBalance - p.financingAmount
  (sold ++ [⟨symbol,p.quantity,price,tradeValue⟩],{ a with
    cash := a.cash + tradeValue
    financingBalance := if financingBalance < 0 then 0 else financingBalance
    longPositions := a.longPositions.put symbol none })

def liquidateShort (prices : Book String ℚ) (state : List ForceLiquidateEntry × MarginAccount) (symbol : String)
    (p : MarginShortPosition) : List ForceLiquidateEntry × MarginAccount :=
  let (covered,a) := state
  let price := priceOr prices symbol p.salePrice
  let tradeValue := p.quantity * price
  (covered ++ [⟨symbol,p.quantity,price,tradeValue⟩],{ a with
    cash := a.cash - tradeValue
    shortPositions := a.shortPositions.put symbol none })

def forceLiquidate (prices : Book String ℚ) (reason : String) : ForceLiquidateResult × MarginAccount :=
  let (longSold,a) := a.longPositions.foldl (liquidateLong prices) ([],a)
  let (shortCovered,a) := a.shortPositions.foldl (liquidateShort prices) ([],a)
  let a := { a with accruedFinancingInterest := 0, accruedLendingInterest := 0 }
  (⟨longSold,shortCovered,a.cash,reason⟩,a)

/-- The calls an account receives, and changes of the list of shortable symbols. -/
inductive Op where
  | trade (operation : MarginOperation) (symbol : String) (qty price : ℚ)
  | accrueInterest (days : Int) (prices : Book String ℚ)
  | deposit (amount : ℚ)
  | withdraw (amount : ℚ) (prices : Book String ℚ)
  | forceLiquidate (prices : Book String ℚ) (reason : String)
  | setShortable (shortable : ShortableList)

def step (a : MarginAccount) : Op → MarginAccount
  | .trade operation symbol qty price =>
    match a.trade operation symbol qty price with
    | .error _ => a
    | .ok (_,after) => after
  | .accrueInterest days prices =>
    match a.accrueInterest days prices with
    | .error _ => a
    | .ok (_,after) => after
  | .deposit amount => (a.deposit amount).toOption.getD a
  | .withdraw amount prices => (a.withdraw amount prices).toOption.getD a
  | .forceLiquidate prices reason => (a.forceLiquidate prices reason).2
  | .setShortable shortable => { a with shortable := shortable }

def Reachable (a : MarginAccount) : Prop :=
  ∃ accountID initialCash cfg shortable fresh ops,
    newMarginAccount accountID initialCash cfg shortable = .ok fresh ∧ run step fresh ops = a

end MarginAccount
end QuantTrading
