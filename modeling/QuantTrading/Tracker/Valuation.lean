import QuantTrading.Engine
import QuantTrading.Tracker.Operations

/-! Net asset value. The three valuations of a tracker count the same thing: its cash and
the positions the price map names. A position the map leaves out is counted nowhere,
whatever its last known price.
-/
namespace QuantTrading.Tracker
open Library

variable (t : Tracker) (prices : Book String ℚ)

def netAssetValue (prices : Book String ℚ) : ℚ :=
  t.cash + t.positions.total fun symbol pos => pos.quantity * (prices[symbol]?).getD pos.currentPrice

def pricedValue (prices : Book String ℚ) : ℚ :=
  t.positions.total fun symbol pos => ((prices[symbol]?).map fun price => pos.quantity * price).getD 0

def unpricedValue (prices : Book String ℚ) : ℚ :=
  t.positions.total fun symbol pos => if prices.contains symbol then 0 else pos.quantity * pos.currentPrice

theorem netAssetValue_eq : t.netAssetValue prices = t.cash + t.pricedValue prices + t.unpricedValue prices := by
  unfold netAssetValue pricedValue unpricedValue
  rw [add_assoc,← Book.total_add]
  congr 2
  funext symbol pos
  cases found : prices[symbol]? with
  | _ => simp [contains_eq_isSome_getElem?,found]

theorem equity_mark (pos : Position) (price : ℚ) : equity (pos.mark price) = pos.quantity * price := by
  unfold equity Position.mark
  split
  · rename_i positive
    rw [abs_of_pos positive]
  · rename_i nonpositive
    rw [abs_of_nonpos (not_lt.mp nonpositive)]
    ring

theorem recordDailyValue_total (date : Time) (prices : Book String ℚ) :
    (t.recordDailyValue date prices).1.totalValue = t.cash + t.pricedValue prices := by
  have counted : (fun (sum : ℚ) symbol pos => if prices.contains symbol then sum + equity pos else sum) =
      fun sum symbol pos => sum + if prices.contains symbol then equity pos else 0 := by
    funext sum symbol pos
    split <;> simp
  simp only [recordDailyValue]
  rw [counted,Book.foldl_add,Book.total_map,zero_add,pricedValue]
  congr 2
  funext symbol pos
  cases found : prices[symbol]? with
  | none => simp [contains_eq_isSome_getElem?,found]
  | some => simp [contains_eq_isSome_getElem?,found,equity_mark]

theorem getPortfolio_total : (t.getPortfolio prices).totalValue = t.cash + t.pricedValue prices := by
  simp only [getPortfolio]
  rw [Book.foldl_add,Book.total_filterMap,pricedValue]
  congr 2
  funext symbol pos
  rw [Option.map_map]
  congr 2
  funext price
  exact equity_mark pos price

theorem getPortfolioValue_total : (t.getPortfolioValue prices).1 = t.cash + t.pricedValue prices := by
  have counted : (t.getPortfolioValue prices).1 = t.positions.foldl (fun sum symbol pos =>
      sum + ((prices[symbol]?).map fun price => pos.quantity * price).getD 0) t.cash := by
    unfold getPortfolioValue
    dsimp only
    congr 1
    funext sum symbol pos
    cases prices[symbol]? <;> simp
  rw [counted,Book.foldl_add]
  rfl

structure CountsEveryPosition (t : Tracker) (date : Time) (prices : Book String ℚ) : Prop where
  recorded : (t.recordDailyValue date prices).1.totalValue = t.netAssetValue prices
  portfolio : (t.getPortfolio prices).totalValue = t.netAssetValue prices
  value : (t.getPortfolioValue prices).1 = t.netAssetValue prices

/-- For every tracker and every price map: the valuations agree on the net asset value exactly
when what the map leaves out is worth nothing. -/
theorem countsEveryPosition_iff (t : Tracker) (date : Time) (prices : Book String ℚ) :
    CountsEveryPosition t date prices ↔ t.unpricedValue prices = 0 := by
  have apart : t.cash + t.pricedValue prices = t.netAssetValue prices ↔ t.unpricedValue prices = 0 := by
    rw [netAssetValue_eq]
    exact left_eq_add
  rw [← apart]
  refine ⟨fun counts => (getPortfolioValue_total t prices).symm.trans counts.value,fun whole => ⟨?_,?_,?_⟩⟩
  · rw [recordDailyValue_total,whole]
  · rw [getPortfolio_total,whole]
  · rw [getPortfolioValue_total,whole]

def holder : Tracker :=
  run step (newTracker 1000000 0 0 defaultTradingConfig)
    [.executeTrade "600000.SH" .long 100 10 (Time.date 2024 1 2) none]

theorem holder_counted_when_priced :
    CountsEveryPosition holder (Time.date 2024 1 3) ((∅ : Book String ℚ).insert "600000.SH" 11) := by
  refine (countsEveryPosition_iff _ _ _).mpr ?_
  decide +kernel

/-- On a day without a price for the stock, the 1,000 it was last worth are missing. -/
theorem holder_uncounted_when_suspended : (holder.positions["600000.SH"]?).map (·.currentPrice) = some 10 ∧
    ¬ CountsEveryPosition holder (Time.date 2024 1 3) ∅ := by
  refine ⟨by decide +kernel,fun counts => ?_⟩
  have value : (holder.getPortfolioValue ∅).1 = holder.netAssetValue ∅ := counts.value
  revert value
  decide +kernel

end QuantTrading.Tracker
