import QuantTrading.Live.MockAccount
import QuantTrading.Tracker.Rejections

/-! Limit orders in the three executors. The backtest tracker and the backtest execution service
decide by the day's range whether a limit is reached; the paper trader takes the limit itself as
its reference and moves it by slippage.
-/
namespace QuantTrading
open Library

inductive Side where
  | buy
  | sell
deriving DecidableEq

def Direction.side : Direction → Side
  | .long => .buy
  | .short | .close | .hold => .sell

namespace Side

def Reached (side : Side) (limit low high : ℚ) : Prop :=
  match side with
  | .buy => low ≤ limit
  | .sell => limit ≤ high

def NoWorse (side : Side) (limit price : ℚ) : Prop :=
  match side with
  | .buy => price ≤ limit
  | .sell => limit ≤ price

structure Allowed (side : Side) (limit low high price : ℚ) : Prop where
  low : low ≤ price
  high : price ≤ high
  noWorse : side.NoWorse limit price

theorem Allowed.reached {side : Side} {limit low high price : ℚ} (allowed : side.Allowed limit low high price) :
    side.Reached limit low high := by
  cases side with
  | buy => exact allowed.low.trans allowed.noWorse
  | sell => exact le_trans allowed.noWorse allowed.high

end Side

structure LimitLaw (side : Side) (limit low high : ℚ) (fill : Option ℚ) : Prop where
  filled : fill.isSome ↔ side.Reached limit low high
  allowed : ∀ price, fill = some price → side.Allowed limit low high price

namespace LimitLaw
variable {side : Side} {limit low high price : ℚ}

theorem of_some (allowed : side.Allowed limit low high price) : LimitLaw side limit low high (some price) := by
  refine ⟨⟨fun _ => allowed.reached,fun _ => rfl⟩,?_⟩
  rintro _ ⟨⟩
  exact allowed

theorem none_iff : LimitLaw side limit low high none ↔ ¬ side.Reached limit low high := by
  constructor
  · intro law reached
    exact Bool.false_ne_true (law.filled.mpr reached)
  · intro missed
    refine ⟨⟨fun filled => absurd filled Bool.false_ne_true,fun reached => absurd reached missed⟩,?_⟩
    intro price filled
    cases filled

end LimitLaw

namespace Tracker
variable {t : Tracker} {symbol : String} {direction : Direction} {quantity price limit : ℚ} {timestamp : Time}
  {bar : OHLCV}

def limitOrderPrice (t : Tracker) (symbol : String) (direction : Direction) (quantity price : ℚ) (timestamp : Time)
    (limit : ℚ) (bar : OHLCV) : Option ℚ :=
  (t.executeTrade symbol direction quantity price timestamp (some ⟨.limit,limit,some bar⟩)).1.toOption.map (·.price)

/-- What a buy costs with its fees, of the shares the day's volume allows. -/
def buyCost (t : Tracker) (symbol : String) (quantity price : ℚ) (timestamp : Time) (bar : OHLCV) : ℚ :=
  let trade := t.draftTrade symbol .long quantity (t.filledQty quantity (some bar)) price timestamp
  trade.filledQty * trade.price + (trade.commission + trade.transferFee + trade.stampTax)

/-- A limit order that passes the checks of cash and of settlement. -/
structure LimitOrdered (t : Tracker) (symbol : String) (direction : Direction) (quantity : ℚ) (timestamp : Time)
    (limit : ℚ) (bar : OHLCV) : Prop where
  sided : direction ≠ .hold
  paid : direction = .long → ∀ price, limitFill .long limit bar = some price →
    t.buyCost symbol quantity price timestamp bar ≤ t.cash
  settled : direction = .close → ∃ pos, t.positions[symbol]? = some pos ∧ 0 < pos.quantity ∧
    0 < min pos.quantityYesterday quantity

/-- More than an investor may still buy that day of a stock under a risk warning. -/
def Capped (t : Tracker) (symbol : String) (quantity : ℚ) (timestamp : Time) (bar : OHLCV) : Prop :=
  0 < t.filledQty quantity (some bar) ∧
    ∃ left ∈ t.remainingAllowance symbol timestamp, left < t.filledQty quantity (some bar)

/-- The bar reaches the limit and the tracker does not fill: it closes no position at a limit, and
buys no more of a stock under a risk warning than its daily cap. -/
def Unfilled (t : Tracker) (symbol : String) (direction : Direction) (quantity : ℚ) (timestamp : Time) (limit : ℚ)
    (bar : OHLCV) : Prop :=
  direction = .long ∧ bar.low ≤ limit ∧ t.Capped symbol quantity timestamp bar ∨ direction = .close ∧ limit ≤ bar.high

theorem limitFill_allowed (low : bar.low ≤ bar.close) (high : bar.close ≤ bar.high)
    (fill : limitFill direction limit bar = some price) : direction.side.Allowed limit bar.low bar.high price := by
  cases direction with
  | long =>
    simp only [limitFill,Option.ite_none_right_eq_some,Option.some.injEq] at fill
    obtain ⟨reached,rfl⟩ := fill
    exact ⟨le_min reached low,(min_le_right _ _).trans high,min_le_left _ _⟩
  | short =>
    simp only [limitFill,Option.ite_none_right_eq_some,Option.some.injEq] at fill
    obtain ⟨reached,rfl⟩ := fill
    exact ⟨low.trans (le_max_right _ _),max_le reached high,le_max_left _ _⟩
  | close | hold => cases fill

theorem limitFill_eq_none_iff (sided : direction ≠ .hold) : limitFill direction limit bar = none ↔
      direction = .close ∨ ¬ direction.side.Reached limit bar.low bar.high := by
  cases direction <;> simp_all [limitFill,Direction.side,Side.Reached]

theorem limitOrderPrice_none (expired : limitFill direction limit bar = none) :
    t.limitOrderPrice symbol direction quantity price timestamp limit bar = none := by
  simp [limitOrderPrice,executeTrade,executionPrice,expired,Except.toOption]

theorem limitOrderPrice_set {set : ℚ} (fill : limitFill direction limit bar = some set) :
    t.limitOrderPrice symbol direction quantity price timestamp limit bar =
      if (t.bookExecuted (t.draftTrade symbol direction quantity (t.filledQty quantity (some bar)) set timestamp)
        quantity).1.isOk then some set else none := by
  have priced : t.executionPrice symbol direction price ⟨.limit,limit,some bar⟩ = .ok set := by
    simp only [executionPrice,fill]
  cases executed : t.executeTrade symbol direction quantity price timestamp (some ⟨.limit,limit,some bar⟩) with
  | mk result after =>
    cases result with
    | ok =>
      have same := priced.symm.trans (executeTrade_ok executed).priced
      cases same
      simp only [limitOrderPrice,executed,Except.toOption,map_some]
      simp only [executeTrade,getD_some,priced] at executed
      split at executed
      · cases executed
      · rename_i booked
        rw [booked]
        rfl
    | error e =>
      simp only [limitOrderPrice,executed,Except.toOption,map_none]
      simp only [executeTrade,getD_some,priced] at executed
      split at executed
      · rename_i booked
        rw [booked]
        rfl
      · cases executed

theorem bookExecuted_long_iff {trade : Trade} (long : trade.direction = .long)
    (paid : trade.filledQty * trade.price + (trade.commission + trade.transferFee + trade.stampTax) ≤ t.cash) :
    (t.bookExecuted trade quantity).1.isOk = true ↔
      (t.enforceRiskWarningDailyBuy trade.symbol trade.filledQty trade.timestamp).1 = .ok () := by
  unfold bookExecuted bookLong
  simp only [long]
  rw [if_neg (not_lt.mpr paid)]
  cases t.enforceRiskWarningDailyBuy trade.symbol trade.filledQty trade.timestamp with
  | mk result _ => cases result <;> simp [Except.isOk,Except.toBool]

/-- An order at a price the tracker sets is booked unless the daily cap refuses it. -/
theorem booked_iff {set : ℚ} (fill : limitFill direction limit bar = some set)
    (ordered : t.LimitOrdered symbol direction quantity timestamp limit bar) :
    (t.bookExecuted (t.draftTrade symbol direction quantity (t.filledQty quantity (some bar)) set timestamp)
      quantity).1.isOk = true ↔ ¬ (direction = .long ∧ t.Capped symbol quantity timestamp bar) := by
  cases direction with
  | long =>
    have allowed : (t.enforceRiskWarningDailyBuy symbol (t.filledQty quantity (some bar)) timestamp).1 = .ok () ↔
        ¬ t.Capped symbol quantity timestamp bar := by
      by_cases some_ : 0 < t.filledQty quantity (some bar)
      · simp [enforce_ok_iff t symbol timestamp some_,Capped,some_]
      · simp [enforceRiskWarningDailyBuy,Capped,some_,not_lt.mp some_]
    exact (bookExecuted_long_iff rfl (ordered.paid rfl set fill)).trans (allowed.trans (by simp))
  | short => simp [bookExecuted,draftTrade,Except.isOk,Except.toBool]
  | close | hold => cases fill

/-- The tracker keeps the law for shorts, and for buys within the daily cap; a limit order that
closes a position expires on every bar. -/
theorem limitOrderPrice_law_iff (low : bar.low ≤ bar.close) (high : bar.close ≤ bar.high)
    (ordered : t.LimitOrdered symbol direction quantity timestamp limit bar) :
    LimitLaw direction.side limit bar.low bar.high
        (t.limitOrderPrice symbol direction quantity price timestamp limit bar) ↔
      ¬ t.Unfilled symbol direction quantity timestamp limit bar := by
  cases fill : limitFill direction limit bar with
  | none =>
    rw [limitOrderPrice_none fill,LimitLaw.none_iff,not_iff_not]
    rcases (limitFill_eq_none_iff ordered.sided).mp fill with rfl | missed
    · simp [Unfilled,Direction.side,Side.Reached]
    · refine iff_of_false missed ?_
      rintro (⟨rfl,reached,-⟩ | ⟨rfl,reached⟩) <;> exact missed reached
  | some set =>
    have allowed := limitFill_allowed low high fill
    have booked := booked_iff fill ordered
    rw [limitOrderPrice_set fill]
    by_cases capped : direction = .long ∧ t.Capped symbol quantity timestamp bar
    · rw [if_neg fun filled => booked.mp filled capped,LimitLaw.none_iff,not_iff_not]
      obtain ⟨rfl,beyond⟩ := capped
      exact iff_of_true allowed.reached (.inl ⟨rfl,allowed.reached,beyond⟩)
    · rw [if_pos (booked.mpr capped)]
      refine iff_of_true (.of_some allowed) ?_
      rintro (⟨bought,-,beyond⟩ | ⟨rfl,-⟩)
      · exact capped ⟨bought,beyond⟩
      · cases fill

end Tracker

namespace BacktestExecutionService
variable {s : BacktestExecutionService} {order : Order} {quote : Quote}

def limitOrderPrice (s : BacktestExecutionService) (order : Order) (quote : Quote) : Option ℚ :=
  (s.executeOrder order quote).toOption.map (·.price)

/-- The bar reaches the limit and the service does not fill: it closes no position at a limit and
refuses a limit that is not positive. -/
def Unfilled (direction : Direction) (limit high : ℚ) : Prop :=
  (direction = .close ∨ direction = .short ∧ limit ≤ 0) ∧ limit ≤ high

theorem orderPrice_long (limited : order.orderType = .limit) (side : order.direction = .long)
    (positive : 0 < order.limitPrice) (reached : quote.low ≤ order.limitPrice) :
    s.orderPrice order quote = .ok (min order.limitPrice quote.high) := by
  simp [orderPrice,limited,side,not_le.mpr positive,reached]

theorem orderPrice_short (limited : order.orderType = .limit) (side : order.direction = .short)
    (positive : 0 < order.limitPrice) (reached : order.limitPrice ≤ quote.high) :
    s.orderPrice order quote = .ok (max order.limitPrice quote.low) := by
  simp [orderPrice,limited,side,not_le.mpr positive,reached]

theorem limitOrderPrice_some {price : ℚ} (ordered : 0 < order.quantity) (positive : 0 < price)
    (priced : s.orderPrice order quote = .ok price) : s.limitOrderPrice order quote = some price := by
  simp [limitOrderPrice,executeOrder,not_le.mpr ordered,priced,not_le.mpr positive,Except.toOption]

theorem limitOrderPrice_none {e : OrderError} (refused : s.orderPrice order quote = .error e) :
    s.limitOrderPrice order quote = none := by
  cases executed : s.executeOrder order quote with
  | error => simp only [limitOrderPrice,executed,Except.toOption,map_none]
  | ok =>
    have priced := (executeOrder_ok executed).priced
    rw [refused] at priced
    cases priced

theorem limitOrderPrice_law_iff (limited : order.orderType = .limit) (sided : order.direction ≠ .hold)
    (ordered : 0 < order.quantity) (positive : 0 < quote.low) (range : quote.low ≤ quote.high) :
    LimitLaw order.direction.side order.limitPrice quote.low quote.high (s.limitOrderPrice order quote) ↔
      ¬ Unfilled order.direction order.limitPrice quote.high := by
  by_cases priced : 0 < order.limitPrice
  · cases side : order.direction with
    | long =>
      have kept : ¬ Unfilled .long order.limitPrice quote.high := by simp [Unfilled]
      refine ⟨fun _ => kept,fun _ => ?_⟩
      by_cases reached : quote.low ≤ order.limitPrice
      · rw [limitOrderPrice_some ordered (lt_min priced (positive.trans_le range))
          (orderPrice_long limited side priced reached)]
        exact .of_some ⟨le_min reached range,min_le_right _ _,min_le_left _ _⟩
      · have refused : s.orderPrice order quote = .error .limitPriceNotReached := by
          simp [orderPrice,limited,side,not_le.mpr priced,not_le.mp reached]
        rw [limitOrderPrice_none refused]
        exact LimitLaw.none_iff.mpr reached
    | short =>
      have kept : ¬ Unfilled .short order.limitPrice quote.high := by
        simp [Unfilled,not_le.mpr priced]
      refine ⟨fun _ => kept,fun _ => ?_⟩
      by_cases reached : order.limitPrice ≤ quote.high
      · rw [limitOrderPrice_some ordered (lt_max_of_lt_left priced) (orderPrice_short limited side priced reached)]
        exact .of_some ⟨le_max_right _ _,max_le reached range,le_max_left _ _⟩
      · have refused : s.orderPrice order quote = .error .limitPriceNotReached := by
          simp [orderPrice,limited,side,not_le.mpr priced,not_le.mp reached]
        rw [limitOrderPrice_none refused]
        exact LimitLaw.none_iff.mpr reached
    | close =>
      have refused : s.orderPrice order quote = .error .limitPriceNotReached := by
        simp [orderPrice,limited,side,not_le.mpr priced]
      rw [limitOrderPrice_none refused,LimitLaw.none_iff]
      simp [Unfilled,Direction.side,Side.Reached]
    | hold => exact absurd side sided
  · have refused : s.orderPrice order quote = .error (.invalidLimitPrice order.limitPrice) := by
      simp [orderPrice,limited,not_lt.mp priced]
    have below : order.limitPrice < quote.low := (not_lt.mp priced).trans_lt positive
    rw [limitOrderPrice_none refused,LimitLaw.none_iff]
    cases side : order.direction with
    | long => simp [Unfilled,Direction.side,Side.Reached,below]
    | short => simp [Unfilled,Direction.side,Side.Reached,not_lt.mp priced]
    | close => simp [Unfilled,Direction.side,Side.Reached]
    | hold => exact absurd side sided

end BacktestExecutionService

def CostModel.slippage (m : CostModel) (price orderQty adv high low : ℚ) : ℚ :=
  match m.config.slippageModel with
  | .fixed => Fees.fixedSlippageRate
  | .variable => (high - low) / price * (1/10)
  | .impact =>
    if adv ≤ 0 then Fees.fixedSlippageRate
    else MarketImpactModel.calculateImpact ⟨m.config.impactSigma,m.config.impactLiquidityFactor⟩ m.sqrt orderQty adv
  | .none | .unset | .other => 0

theorem CostModel.slippagePrice_eq (m : CostModel) (price : ℚ) (direction : Direction) (orderQty adv high low : ℚ) :
    m.slippagePrice price direction orderQty adv high low =
      moved price direction (m.slippage price orderQty adv high low) := by
  unfold slippagePrice slippage
  cases m.config.slippageModel <;> simp only [moved,add_zero,sub_zero,mul_one,ite_self]
  split <;> rfl

theorem CostModel.moved_noWorse_iff {price slippage : ℚ} {direction : Direction} (positive : 0 < price) :
    direction.side.NoWorse price (moved price direction slippage) ↔ slippage ≤ 0 := by
  have scaled : 0 < price * slippage ↔ 0 < slippage := mul_pos_iff_of_pos_left positive
  rw [← not_lt,← scaled]
  cases direction <;> simp [Direction.side,Side.NoWorse,moved,mul_add,mul_sub]

namespace MockTrader
variable {m after : MockTrader} {symbol : String} {direction : Direction} {quantity price : ℚ} {result : OrderResult}

def slippage (m : MockTrader) (symbol : String) (quantity execPrice : ℚ) : ℚ :=
  if m.config.slippageModel = .unset then m.config.slippageRate
  else
    let (high,low,adv) := match m.currentBar symbol with
      | some q => (q.high,q.low,q.volume)
      | none => (0,0,0)
    let (high,low) := if high = 0 ∧ low = 0 then (execPrice,execPrice) else (high,low)
    let config : ExecutionConfig :=
      ⟨m.config.slippageModel,m.config.commissionRate,m.config.minCommission,m.config.impactSigma,
        m.config.impactLiquidityFactor⟩
    CostModel.slippage ⟨config,m.sqrt⟩ execPrice quantity adv high low

theorem applyExecutionCost_eq (m : MockTrader) (symbol : String) (direction : Direction) (quantity execPrice : ℚ) :
    m.applyExecutionCost symbol direction quantity execPrice =
      CostModel.moved execPrice direction (m.slippage symbol quantity execPrice) := by
  unfold applyExecutionCost slippage
  split
  · simp [CostModel.moved,mul_add,mul_sub]
  · exact CostModel.slippagePrice_eq _ _ _ _ _ _ _

/-- A sell is cut to the shares that may be sold. -/
def tradedQty (m : MockTrader) (symbol : String) (direction : Direction) (quantity : ℚ) : ℚ :=
  match direction with
  | .close => (m.positions[symbol]?).elim quantity fun pos => min quantity pos.quantityYesterday
  | _ => quantity

section
variable (filled : m.submitOrder symbol direction .limit quantity price = (.ok result,after))
include filled

theorem limitOrder_fillPrice :
    0 < price ∧ result.fillPrice = m.applyExecutionCost symbol direction (m.tradedQty symbol direction quantity) price := by
  simp only [submitOrder,referencePrice,reduceCtorEq,if_false] at filled
  split_ifs at filled with none_ nameless worthless
  · cases filled
  · cases filled
  · cases filled
  · refine ⟨not_le.mp worthless,?_⟩
    cases direction with
    | long =>
      simp only [executeBuy] at filled
      split at filled
      · cases filled
      cases filled
      rfl
    | close =>
      simp only [executeSell] at filled
      iterate 3 (split at filled; · cases filled)
      rename_i held _ _
      cases filled
      simp only [tradedQty,held,Option.elim_some,filledOrder]
      split
      next more => rw [min_eq_right more.le]
      next within => rw [min_eq_left (not_lt.mp within)]
    | _ => cases filled

theorem limitOrder_noWorse_iff :
    direction.side.NoWorse price result.fillPrice ↔
      m.slippage symbol (m.tradedQty symbol direction quantity) price ≤ 0 := by
  obtain ⟨positive,fillPrice⟩ := limitOrder_fillPrice filled
  rw [fillPrice,applyExecutionCost_eq]
  exact CostModel.moved_noWorse_iff positive

end

end MockTrader

structure DayRange (low close high : ℚ) : Prop where
  positive : 0 < low
  low : low ≤ close
  high : close ≤ high

/-- The backtest tracker and the backtest service keep the law exactly on the orders that close
nothing, the tracker within the daily cap and the service for positive limits only; the paper trader
fills no worse than the limit exactly where slippage takes nothing. -/
theorem limit_order_law_iff (t : Tracker) (s : BacktestExecutionService) (m : MockTrader) :
    (∀ (symbol : String) (direction : Direction) (quantity price : ℚ) (timestamp : Time) (limit : ℚ)
      (bar : OHLCV), DayRange bar.low bar.close bar.high →
      t.LimitOrdered symbol direction quantity timestamp limit bar →
      (LimitLaw direction.side limit bar.low bar.high
          (t.limitOrderPrice symbol direction quantity price timestamp limit bar) ↔
        ¬ t.Unfilled symbol direction quantity timestamp limit bar)) ∧
    (∀ (order : Order) (quote : Quote), DayRange quote.low quote.close quote.high → order.orderType = .limit →
      order.direction ≠ .hold → 0 < order.quantity →
      (LimitLaw order.direction.side order.limitPrice quote.low quote.high (s.limitOrderPrice order quote) ↔
        ¬ BacktestExecutionService.Unfilled order.direction order.limitPrice quote.high)) ∧
    ∀ (after : MockTrader) (symbol : String) (direction : Direction) (quantity price : ℚ) (result : OrderResult),
      m.submitOrder symbol direction .limit quantity price = (.ok result,after) →
      (direction.side.NoWorse price result.fillPrice ↔
        m.slippage symbol (m.tradedQty symbol direction quantity) price ≤ 0) := by
  refine ⟨?_,?_,?_⟩
  · intro symbol direction quantity price timestamp limit bar range ordered
    exact Tracker.limitOrderPrice_law_iff range.low range.high ordered
  · intro order quote range limited sided ordered
    exact BacktestExecutionService.limitOrderPrice_law_iff limited sided ordered range.positive
      (range.low.trans range.high)
  · intro after symbol direction quantity price result filled
    exact MockTrader.limitOrder_noWorse_iff filled

section Runs

def dayBar (low close high : ℚ) : OHLCV := ⟨Time.date 2024 1 3,high,low,close,0,false,false⟩

def dayQuote (low close high : ℚ) : Quote := ⟨"600000.SH",high,low,close,0,Time.date 2024 1 3⟩

def limitOrder (direction : Direction) (limit : ℚ) : Order :=
  ⟨"600000.SH",direction,.limit,100,limit,Time.date 2024 1 3,0,0,.unset⟩

def settledTracker : Tracker :=
  ((Tracker.newTracker 100000 0 0 defaultTradingConfig).executeTrade "600000.SH" .long 100 10 (Time.date 2024 1 2)
    none).2.advanceDay

def backtestService : BacktestExecutionService := .newBacktestExecutionService ⟨.none,0,0,0,0⟩ id

def limitTrader (model : SlippageModel) : MockTrader := .newMockTrader ⟨100000,0,0,0,0,0,none,model,0,0⟩ id

theorem settledTracker_held : ∃ pos, settledTracker.positions["600000.SH"]? = some pos ∧ 0 < pos.quantity ∧
    0 < pos.quantityYesterday := by
  cases held : settledTracker.positions["600000.SH"]? with
  | none =>
    have present : settledTracker.positions["600000.SH"]?.isSome := by decide +kernel
    rw [held] at present
    cases present
  | some pos =>
    have counted : settledTracker.positions["600000.SH"]?.all
        (fun pos => decide (0 < pos.quantity ∧ 0 < pos.quantityYesterday)) := by
      decide +kernel
    rw [held,Option.all_some,decide_eq_true_eq] at counted
    exact ⟨pos,rfl,counted⟩

theorem settledTracker_limitOrdered (limit : ℚ) :
    settledTracker.LimitOrdered "600000.SH" .close 100 (Time.date 2024 1 3) limit (dayBar 9 10 11) := by
  obtain ⟨pos,held,long,settled⟩ := settledTracker_held
  exact ⟨by decide,nofun,fun _ => ⟨pos,held,long,lt_min settled (by norm_num)⟩⟩

theorem limit_buy_kept : LimitLaw .buy 10 9 11
        (settledTracker.limitOrderPrice "600000.SH" .long 100 10 (Time.date 2024 1 3) 10 (dayBar 9 10 11)) ∧
      LimitLaw .buy 10 9 11 (backtestService.limitOrderPrice (limitOrder .long 10) (dayQuote 9 10 11)) ∧
      ∃ result after, (limitTrader .none).submitOrder "600000.SH" .long .limit 100 10 = (.ok result,after) ∧
        Side.buy.NoWorse 10 result.fillPrice := by
  have law := limit_order_law_iff settledTracker backtestService (limitTrader .none)
  refine ⟨?_,?_,?_⟩
  · refine (law.1 "600000.SH" .long 100 10 (Time.date 2024 1 3) 10 (dayBar 9 10 11)
      ⟨by decide +kernel,by decide +kernel,by decide +kernel⟩ ⟨by decide,fun _ price set => ?_,nofun⟩).mpr ?_
    · cases set.symm.trans (show Tracker.limitFill .long 10 (dayBar 9 10 11) = some 10 by decide +kernel)
      decide +kernel
    · have free : settledTracker.remainingAllowance "600000.SH" (Time.date 2024 1 3) = none := by decide +kernel
      simp [Tracker.Unfilled,Tracker.Capped,free]
  · exact (law.2.1 (limitOrder .long 10) (dayQuote 9 10 11)
      ⟨by decide +kernel,by decide +kernel,by decide +kernel⟩ rfl (by decide) (by decide +kernel)).mpr
      (by simp [BacktestExecutionService.Unfilled,limitOrder])
  · obtain ⟨result,filled⟩ := exists_ok (x := ((limitTrader .none).submitOrder "600000.SH" .long .limit 100 10).1) (by decide +kernel)
    have accepted := Prod.ext (y := (_,_)) filled rfl
    exact ⟨result,_,accepted,(law.2.2 _ _ _ _ _ _ accepted).mpr le_rfl⟩

/-- A limit of nine to close a settled long expires on a day that trades from nine to eleven, and
the service does not fill it; a paper buy with a limit of ten is filled above ten. -/
theorem limit_close_expires :
    (settledTracker.LimitOrdered "600000.SH" .close 100 (Time.date 2024 1 3) 9 (dayBar 9 10 11) ∧
      ¬ LimitLaw .sell 9 9 11
        (settledTracker.limitOrderPrice "600000.SH" .close 100 10 (Time.date 2024 1 3) 9 (dayBar 9 10 11))) ∧
      ¬ LimitLaw .sell 9 9 11 (backtestService.limitOrderPrice (limitOrder .close 9) (dayQuote 9 10 11)) ∧
      ((limitTrader .unset).submitOrder "600000.SH" .long .limit 100 10).1.toOption.map (·.fillPrice) =
        some (10001/1000) := by
  have reached : Side.sell.Reached 9 9 11 := by
    change (9 : ℚ) ≤ 11
    norm_num
  have expired {price : Option ℚ} (unfilled : price = none) : ¬ LimitLaw .sell 9 9 11 price := by
    rw [unfilled]
    exact fun law => LimitLaw.none_iff.mp law reached
  exact ⟨⟨settledTracker_limitOrdered 9,expired (Tracker.limitOrderPrice_none rfl)⟩,expired (by decide +kernel),
    by decide +kernel⟩

end Runs
end QuantTrading
