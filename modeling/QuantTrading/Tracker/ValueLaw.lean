import QuantTrading.Tracker.Operations

/-! The value law of a market fill: with the position valued at the fill price, cash and
position together lose exactly the fees. Buying back a short is the one branch that
breaks it, because it adds the buy-back value to cash.
-/
namespace QuantTrading.Tracker
open Library

def MarketOrder : Option OrderExecutionOpts → Prop
  | none => True
  | some opts => opts.orderType = .market ∧ opts.dayBar = none

structure ValueLaw (t : Tracker) (symbol : String) (trade : Trade) (t' : Tracker) : Prop where
  value : t'.cash + trade.price * t'.held symbol =
    t.cash + trade.price * t.held symbol - t.settledFees trade
  others : ∀ other, other ≠ symbol → t'.positions[other]? = t.positions[other]?

variable {entry : Option Position} {t : Tracker} {trade : Trade}

variable (symbol : String) (price : ℚ)

section
variable {qty : ℚ} (timestamp : Time) (whole : WholeEntry entry) (order : Whole qty)
include whole order

theorem entryQuantity_buy :
    entryQuantity (Position.buy entry symbol qty price timestamp) = entryQuantity entry + qty := by
  cases entry with
  | none => simp [Position.buy,Position.opened,entryQuantity]
  | some pos =>
    have flat := ((whole pos rfl).quantity.add order).isFlat
    simp only [Position.buy]
    split
    next zero =>
      simp [entryQuantity,flat.mp zero]
    · simp [entryQuantity]

theorem entryQuantity_sellShort :
    entryQuantity (Position.sellShort entry symbol qty price timestamp) = entryQuantity entry - qty := by
  cases entry with
  | none => simp [Position.sellShort,Position.opened,entryQuantity]
  | some pos =>
    have flat := ((whole pos rfl).quantity.sub order).isFlat
    simp only [Position.sellShort]
    split
    next zero =>
      simp [entryQuantity,flat.mp zero]
    · simp [entryQuantity]

end

theorem entryQuantity_unlessFlat {pos : Position} (whole : Whole pos.quantity) :
    entryQuantity pos.unlessFlat = pos.quantity := by
  unfold Position.unlessFlat
  split
  next zero =>
    simp [entryQuantity,whole.isFlat.mp zero]
  · simp [entryQuantity]

/-- The value law of one booked record, up to twice the buy-back value of a covered short. -/
theorem Booked.value {request fees cash : ℚ}
    (booked : Booked t request fees trade cash entry) (whole : WholeBook t) (order : Whole trade.quantity)
    (trading : trade.direction ≠ .hold) :
    cash + trade.price * entryQuantity entry = t.cash + trade.price * t.held trade.symbol - fees +
      if trade.direction = .close ∧ t.held trade.symbol < 0 then 2 * (trade.quantity * trade.price) else 0 := by
  have prior : t.held trade.symbol = entryQuantity t.positions[trade.symbol]? := rfl
  cases booked with
  | long side =>
    rw [entryQuantity_buy _ _ _ (whole.entry _) order,prior]
    simp only [side,reduceCtorEq,false_and,if_false]
    ring
  | short side =>
    rw [entryQuantity_sellShort _ _ _ (whole.entry _) order,prior]
    simp only [side,reduceCtorEq,false_and,if_false]
    ring
  | closeLong pos side found positive =>
    have quantity : t.held trade.symbol = pos.quantity := by simp [held,found]
    rw [entryQuantity_unlessFlat ((whole _ _ found).quantity.sub order),quantity]
    simp only [side,true_and,not_lt.mpr positive.le,if_false,soldFrom]
    ring
  | closeShort pos side found negative =>
    have quantity : t.held trade.symbol = pos.quantity := by simp [held,found]
    rw [entryQuantity_unlessFlat ((whole _ _ found).quantity.add order),quantity]
    simp only [side,true_and,negative,if_true,boughtBack]
    ring
  | hold side => exact absurd side trading

theorem marketOrder_price (t : Tracker) (symbol : String) (direction : Direction) (price : ℚ)
    {opts : Option OrderExecutionOpts} (market : MarketOrder opts) :
    t.executionPrice symbol direction price (opts.getD ⟨.market,price,none⟩) =
        .ok (t.slippagePrice symbol direction price) ∧
      (opts.getD ⟨.market,price,none⟩).dayBar = none := by
  cases opts with
  | none => exact ⟨rfl,rfl⟩
  | some =>
    obtain ⟨type,bar⟩ := market
    refine ⟨?_,bar⟩
    simp [executionPrice,type]

theorem slippagePrice_covering {symbol : String} (short : t.held symbol < 0) :
    t.slippagePrice symbol .close price = price * (1 + t.slippageRate) := by
  simp only [slippagePrice]
  unfold held at short
  split
  next missing =>
    simp [missing] at short
  next pos found =>
    simp only [found,map_some,getD_some] at short
    exact if_neg (not_lt.mpr short.le)

theorem Booked.close_pos {request fees cash : ℚ}
    (booked : Booked t request fees trade cash entry) (side : trade.direction = .close) : 0 < trade.quantity := by
  cases booked with
  | long other | short other | hold other => simp [side] at other
  | closeLong _ _ _ _ _ _ some_ | closeShort _ _ _ _ _ some_ => exact some_

/-- A market fill obeys the value law exactly when it does not buy back a short, or when a
slippage rate of -1 makes the fill price zero. -/
theorem executeTrade_valueLaw_iff (t : Tracker) (symbol : String) (direction : Direction) (quantity price : ℚ)
    (timestamp : Time) (opts : Option OrderExecutionOpts) (trade : Trade) (t' : Tracker)
    (reachable : WholeReachable t) (side : direction ≠ .hold) (market : MarketOrder opts)
    (whole : Whole quantity) (_positive : 0 < quantity) (valued : 0 < price)
    (accepted : t.executeTrade symbol direction quantity price timestamp opts = (.ok trade,t')) :
    ValueLaw t symbol trade t' ↔ ¬ (direction = .close ∧ t.held symbol < 0) ∨ t.slippageRate = -1 := by
  have executed := executeTrade_ok accepted
  obtain ⟨price_eq,bar⟩ := marketOrder_price t symbol direction price market
  have fillPrice : trade.price = t.slippagePrice symbol direction price := by
    have priced := executed.priced
    rw [price_eq] at priced
    exact (Except.ok.inj priced).symm
  obtain ⟨entry,booked,after⟩ := executed.posted.held
  have book := reachable.wholeBook
  have order : Whole trade.quantity := booked.whole_quantity book whole (by
    intro open_
    rw [executed.drafted (by rw [← executed.direction]; exact open_)]
    simpa [executedDraft,draftTrade,bar,filledQty] using whole)
  have traded := booked.value book order (by rw [executed.direction]; exact side)
  rw [executed.symbol,← after,executed.symbol,executed.direction] at traded
  have others : ∀ other, other ≠ symbol → t'.positions[other]? = t.positions[other]? :=
    fun other distinct => executed.posted.other other (by rw [executed.symbol]; exact distinct)
  by_cases covering : direction = .close ∧ t.held symbol < 0
  · have coverPrice : trade.price = price * (1 + t.slippageRate) := by
      rw [fillPrice,covering.1,slippagePrice_covering price covering.2]
    have traded_pos := booked.close_pos (executed.direction.trans covering.1)
    rw [if_pos covering] at traded
    constructor
    · intro law
      have cancelled : trade.quantity * trade.price = 0 := by linarith [law.value]
      rw [coverPrice] at cancelled
      simp only [mul_eq_zero,traded_pos.ne',valued.ne',false_or] at cancelled
      exact .inr (by linarith)
    · rintro (safe | free)
      · exact absurd covering safe
      · have zero : trade.price = 0 := by rw [coverPrice,free]; ring
        rw [zero] at traded
        refine ⟨?_,others⟩
        rw [zero]
        linarith
  · rw [if_neg covering] at traded
    exact iff_of_true ⟨by linarith,others⟩ (.inl covering)

def shortSeller : Tracker :=
  step (newTracker 100000 0 0 defaultTradingConfig)
    (.executeTrade "600000.SH" .short 100 10 (Time.date 2024 1 2) none)

theorem shortSeller_reachable : WholeReachable shortSeller := by
  refine ⟨100000,0,0,defaultTradingConfig,
    [.executeTrade "600000.SH" .short 100 10 (Time.date 2024 1 2) none],⟨⟨⟨100,?_⟩,⟨100,?_⟩⟩,trivial⟩,rfl⟩
  · norm_num
  · norm_num [filledQty]

def buyBack : Trade where
  symbol := "600000.SH"
  direction := .close
  quantity := 100
  price := 10
  commission := 5
  transferFee := 1/100
  stampTax := 1/2
  timestamp := Time.date 2024 1 3
  pendingQty := 0
  filledQty := 100

def oneMoreShort : Trade where
  symbol := "600000.SH"
  direction := .short
  quantity := 50
  price := 12
  commission := 5
  transferFee := 6/1000
  stampTax := 3/10
  timestamp := Time.date 2024 1 3
  pendingQty := 0
  filledQty := 50

theorem oneMoreShort_valueLaw :
    ∃ t', shortSeller.executeTrade "600000.SH" .short 50 12 (Time.date 2024 1 3) none = (.ok oneMoreShort,t') ∧
      ValueLaw shortSeller "600000.SH" oneMoreShort t' := by
  have accepted : shortSeller.executeTrade "600000.SH" .short 50 12 (Time.date 2024 1 3) none =
      (.ok oneMoreShort,(shortSeller.executeTrade "600000.SH" .short 50 12 (Time.date 2024 1 3) none).2) :=
    Prod.ext (by decide +kernel) rfl
  have market : MarketOrder none := trivial
  exact ⟨_,accepted,(executeTrade_valueLaw_iff _ _ _ _ _ _ _ _ _ shortSeller_reachable (by decide) market
    ⟨50,by norm_num⟩ (by norm_num) (by norm_num) accepted).mpr (.inl (by decide))⟩

/-- Buying the 100 shares back at 10 leaves the seller with about 2000 more than it lost in fees:
the cash rises by the buy-back value that should have been paid. -/
theorem buyBack_breaks_valueLaw : WholeReachable shortSeller ∧
    ∃ t', shortSeller.executeTrade "600000.SH" .close 100 10 (Time.date 2024 1 3) none = (.ok buyBack,t') ∧
      t'.cash = shortSeller.cash + 1000 - (5 + 1/100) ∧ ¬ ValueLaw shortSeller "600000.SH" buyBack t' := by
  refine ⟨shortSeller_reachable,(shortSeller.executeTrade "600000.SH" .close 100 10 (Time.date 2024 1 3) none).2,
    ?_,?_,?_⟩
  · exact Prod.ext (by decide +kernel) rfl
  · decide +kernel
  · intro law
    have value := law.value
    revert value
    decide +kernel

end QuantTrading.Tracker
