import Mathlib.Algebra.Order.Field.Basic
import Mathlib.Tactic.Linarith
import Mathlib.Tactic.Ring
import QuantTrading.Live.Margin

/-! The laws of the margin account. What each call does to the books is said once; from it
come the invariant of every account, what a trade does to net assets, what a forced liquidation
settles and what an opening trade leaves of the maintenance ratio.
-/
namespace QuantTrading.MarginAccount
open Library List

variable {a after : MarginAccount} {prices : Book String ℚ} {symbol : String} {qty price : ℚ}

def longValue (a : MarginAccount) (prices : Book String ℚ) : ℚ :=
  a.longPositions.total fun symbol p => p.quantity * priceOr prices symbol p.avgCost

def shortValue (a : MarginAccount) (prices : Book String ℚ) : ℚ :=
  a.shortPositions.total fun symbol p => p.quantity * priceOr prices symbol p.salePrice

def accruedInterest (a : MarginAccount) : ℚ := a.accruedFinancingInterest + a.accruedLendingInterest

section
variable (a : MarginAccount) (prices : Book String ℚ)

theorem totalAssets_eq : a.totalAssets prices = a.cash + a.longValue prices :=
  Book.foldl_add _ _ _

theorem totalDebt_eq : a.totalDebt prices = a.financingBalance + a.shortValue prices + a.accruedInterest := by
  rw [totalDebt,Book.foldl_add]
  rfl

end

theorem priceOr_of_quoted (quoted : prices[symbol]? = some price) (positive : 0 < price) (fallback : ℚ) :
    priceOr prices symbol fallback = price := by
  simp [priceOr,quoted,not_le.mpr positive]

theorem priceOr_nonneg {fallback : ℚ} (nonneg : 0 ≤ fallback) : 0 ≤ priceOr prices symbol fallback := by
  simp only [priceOr]
  split
  · exact nonneg
  rename_i positive
  exact (not_le.mp positive).le

inductive Traded (a : MarginAccount) (symbol : String) (qty price : ℚ) : MarginOperation → MarginAccount → Prop
  | marginBuy : Traded a symbol qty price .marginBuy { a with
      financingBalance := a.financingBalance + qty * price
      longPositions := a.longPositions.put symbol
        (some (addToLong a.longPositions[symbol]? symbol qty price (qty * price)))
      tradeSeq := a.tradeSeq + 1 }
  | shortSell : Traded a symbol qty price .shortSell { a with
      cash := a.cash + qty * price
      shortPositions := a.shortPositions.put symbol
        (some (addToShort a.shortPositions[symbol]? symbol qty price (qty * price)))
      tradeSeq := a.tradeSeq + 1 }
  | buyToCover {pos : MarginShortPosition} (found : a.shortPositions[symbol]? = some pos)
      (enough : qty ≤ pos.quantity) : Traded a symbol qty price .buyToCover { a with
      cash := a.cash - qty * price
      shortPositions := a.shortPositions.put symbol (coverShort pos qty)
      tradeSeq := a.tradeSeq + 1 }
  | marginSell {pos : MarginLongPosition} (found : a.longPositions[symbol]? = some pos)
      (enough : qty ≤ pos.quantity) : Traded a symbol qty price .marginSell { a with
      cash := a.cash + qty * price
      financingBalance := a.financingBalance - repayment pos qty (qty * price)
      longPositions := a.longPositions.put symbol (reduceLong pos qty)
      tradeSeq := a.tradeSeq + 1 }

theorem validateTrade_ok (ok : validateTrade symbol qty price = .ok ()) : symbol ≠ "" ∧ 0 < qty ∧ 0 < price := by
  rw [validateTrade] at ok
  split at ok
  · cases ok
  rename_i named
  split at ok
  · cases ok
  rename_i some_
  split at ok
  · cases ok
  rename_i priced
  exact ⟨named,not_le.mp some_,not_le.mp priced⟩

variable {operation : MarginOperation} {pos : MarginLongPosition}

theorem trade_ok {result : MarginTradeResult}
    (ok : a.trade operation symbol qty price = .ok (result,after)) :
    0 < qty ∧ 0 < price ∧ Traded a symbol qty price operation after := by
  cases operation with
  | marginBuy =>
    obtain ⟨_,valid,rest⟩ := bind_eq_ok.mp ok
    obtain ⟨_,-,done⟩ := bind_eq_ok.mp rest
    obtain ⟨-,qtyPos,pricePos⟩ := validateTrade_ok valid
    cases pure_eq_ok.mp done
    exact ⟨qtyPos,pricePos,.marginBuy⟩
  | shortSell =>
    obtain ⟨_,valid,rest⟩ := bind_eq_ok.mp ok
    obtain ⟨_,-,locked⟩ := bind_eq_ok.mp rest
    obtain ⟨_,-,done⟩ := bind_eq_ok.mp locked
    obtain ⟨-,qtyPos,pricePos⟩ := validateTrade_ok valid
    cases pure_eq_ok.mp done
    exact ⟨qtyPos,pricePos,.shortSell⟩
  | buyToCover =>
    obtain ⟨_,valid,rest⟩ := bind_eq_ok.mp ok
    obtain ⟨-,qtyPos,pricePos⟩ := validateTrade_ok valid
    refine ⟨qtyPos,pricePos,?_⟩
    split at rest
    · cases rest
    rename_i pos found
    split at rest
    · cases rest
    rename_i enough
    cases pure_eq_ok.mp rest
    exact .buyToCover found (not_lt.mp enough)
  | marginSell =>
    obtain ⟨_,valid,rest⟩ := bind_eq_ok.mp ok
    obtain ⟨-,qtyPos,pricePos⟩ := validateTrade_ok valid
    refine ⟨qtyPos,pricePos,?_⟩
    split at rest
    · cases rest
    rename_i pos found
    split at rest
    · cases rest
    rename_i enough
    cases pure_eq_ok.mp rest
    exact .marginSell found (not_lt.mp enough)

variable (existing : Option MarginLongPosition)

theorem quantity_addToLong (symbol : String) (qty price financing : ℚ) :
    (addToLong existing symbol qty price financing).quantity = (existing.map (·.quantity)).getD 0 + qty := by
  cases existing with
  | none => simp [addToLong]
  | some => rfl

theorem quantity_addToShort (existing : Option MarginShortPosition) (symbol : String) (qty price lending : ℚ) :
    (addToShort existing symbol qty price lending).quantity = (existing.map (·.quantity)).getD 0 + qty := by
  cases existing with
  | none => simp [addToShort]
  | some => rfl

theorem quantity_coverShort {pos : MarginShortPosition} (enough : qty ≤ pos.quantity) :
    ((coverShort pos qty).map (·.quantity)).getD 0 = pos.quantity - qty := by
  simp only [coverShort]
  split
  next closed =>
    have whole : pos.quantity - qty = 0 := by linarith
    rw [whole]
    rfl
  · rfl

theorem quantity_reduceLong (enough : qty ≤ pos.quantity) :
    ((reduceLong pos qty).map (·.quantity)).getD 0 = pos.quantity - qty := by
  simp only [reduceLong]
  split
  next closed =>
    have whole : pos.quantity - qty = 0 := by linarith
    rw [whole]
    rfl
  · rfl

theorem total_put_quoted {V : Type} (quantity fallback : V → ℚ) (book : Book String V) (entry : Option V)
    (quoted : prices[symbol]? = some price) (positive : 0 < price) :
    (book.put symbol entry).total (fun symbol p => quantity p * priceOr prices symbol (fallback p)) =
      book.total (fun symbol p => quantity p * priceOr prices symbol (fallback p)) +
        ((entry.map quantity).getD 0 - ((book[symbol]?).map quantity).getD 0) * price := by
  have changed := book.total_put symbol entry fun symbol p => quantity p * priceOr prices symbol (fallback p)
  have worth (p : Option V) :
      (p.map fun p => quantity p * priceOr prices symbol (fallback p)).getD 0 = (p.map quantity).getD 0 * price := by
    cases p with
    | none => simp
    | some => simp [priceOr_of_quoted quoted positive]
  rw [worth,worth] at changed
  linarith

theorem Traded.values (traded : Traded a symbol qty price operation after)
    (quoted : prices[symbol]? = some price) (positive : 0 < price) : match operation with
    | .marginBuy | .shortSell =>
      after.totalAssets prices = a.totalAssets prices + qty * price ∧
        after.totalDebt prices = a.totalDebt prices + qty * price
    | .buyToCover =>
      after.totalAssets prices = a.totalAssets prices - qty * price ∧
        after.totalDebt prices = a.totalDebt prices - qty * price
    | .marginSell => ∃ pos, a.longPositions[symbol]? = some pos ∧
      after.totalAssets prices = a.totalAssets prices ∧
        after.totalDebt prices = a.totalDebt prices - repayment pos qty (qty * price) := by
  simp only [totalAssets_eq,totalDebt_eq,longValue,shortValue,accruedInterest]
  cases traded with
  | marginBuy =>
    rw [total_put_quoted _ _ _ _ quoted positive,map_some,getD_some,quantity_addToLong]
    constructor <;> ring
  | shortSell =>
    rw [total_put_quoted _ _ _ _ quoted positive,map_some,getD_some,quantity_addToShort]
    constructor <;> ring
  | buyToCover found enough =>
    rw [total_put_quoted _ _ _ _ quoted positive,quantity_coverShort enough,found,map_some,getD_some]
    constructor <;> ring
  | marginSell found enough =>
    refine ⟨_,found,?_⟩
    rw [total_put_quoted _ _ _ _ quoted positive,quantity_reduceLong enough,found,map_some,getD_some]
    constructor <;> ring

/-- Positions are held in positive quantity, every long one is financed and the balance
covers all of their financing; no interest is negative. -/
structure WellKept (a : MarginAccount) : Prop where
  longs : a.longPositions.All fun _ p => 0 < p.quantity ∧ 0 < p.financingAmount
  shorts : a.shortPositions.All fun _ p => 0 < p.quantity ∧ 0 ≤ p.salePrice ∧ 0 ≤ p.proceeds
  financed : a.longPositions.total (fun _ p => p.financingAmount) ≤ a.financingBalance
  financingInterest : 0 ≤ a.accruedFinancingInterest
  lendingInterest : 0 ≤ a.accruedLendingInterest
  config : a.cfg.validate = .ok ()

namespace WellKept

section
variable (kept : WellKept a)
include kept

theorem shortValue_nonneg (prices : Book String ℚ) : 0 ≤ a.shortValue prices := by
  refine Book.total_nonneg ?_
  intro symbol p found
  obtain ⟨quantity,sale,-⟩ := kept.shorts symbol p found
  exact mul_nonneg quantity.le (priceOr_nonneg sale)

theorem financing_nonneg : a.longPositions.All fun _ p => 0 ≤ p.financingAmount :=
  fun symbol p found => (kept.longs symbol p found).2.le

theorem financingBalance_nonneg : 0 ≤ a.financingBalance :=
  (Book.total_nonneg kept.financing_nonneg).trans kept.financed

theorem totalDebt_nonneg (prices : Book String ℚ) : 0 ≤ a.totalDebt prices := by
  rw [totalDebt_eq,accruedInterest]
  linarith [kept.financingBalance_nonneg,kept.shortValue_nonneg prices,kept.financingInterest,kept.lendingInterest]

end

end WellKept

theorem financing_addToLong (symbol : String) (qty price financing : ℚ) :
    (addToLong existing symbol qty price financing).financingAmount =
      (existing.map (·.financingAmount)).getD 0 + financing := by
  cases existing with
  | none => simp [addToLong]
  | some => rfl

theorem repayment_le (held : 0 < pos.quantity) (enough : qty ≤ pos.quantity) : repayment pos qty (qty * price) ≤
      pos.financingAmount - ((reduceLong pos qty).map (·.financingAmount)).getD 0 := by
  have share : repayment pos qty (qty * price) ≤ pos.financingAmount * (qty / pos.quantity) := by
    simp only [repayment,gt_iff_lt,held,if_true]
    split
    next less =>
      exact less.le
    · exact le_rfl
  simp only [reduceLong,gt_iff_lt,held,if_true]
  split
  next closed =>
    have whole : qty = pos.quantity := by linarith
    rw [whole,div_self held.ne'] at share
    rw [whole]
    simpa using share
  · simpa using share

theorem repayment_pos (held : 0 < pos.quantity) (financed : 0 < pos.financingAmount)
    (qtyPos : 0 < qty) (pricePos : 0 < price) : 0 < repayment pos qty (qty * price) := by
  simp only [repayment,gt_iff_lt,held,if_true]
  split
  · exact mul_pos qtyPos pricePos
  · exact mul_pos financed (div_pos qtyPos held)

theorem liquidateLong_all (prices : Book String ℚ) (entries : List (String × MarginLongPosition))
    (nonneg : ∀ entry ∈ entries, 0 ≤ entry.2.financingAmount) (sold : List ForceLiquidateEntry)
    (covered : (entries.map (·.2.financingAmount)).sum ≤ a.financingBalance) :
    (entries.foldl (fun state entry => liquidateLong prices state entry.1 entry.2) (sold,a)).2 = { a with
      cash := a.cash + (entries.map fun entry => entry.2.quantity * priceOr prices entry.1 entry.2.avgCost).sum
      financingBalance := a.financingBalance - (entries.map (·.2.financingAmount)).sum
      longPositions := entries.foldl (fun left entry => left.put entry.1 none) a.longPositions } := by
  induction entries generalizing a sold with
  | nil => simp
  | cons entry rest ih =>
    rw [map_cons,sum_cons] at covered
    have later : ∀ entry ∈ rest, 0 ≤ entry.2.financingAmount :=
      fun entry member => nonneg entry (mem_cons_of_mem _ member)
    have others : 0 ≤ (rest.map (·.2.financingAmount)).sum := by
      refine sum_nonneg ?_
      intro amount listed
      obtain ⟨other,member,rfl⟩ := mem_map.mp listed
      exact later other member
    have kept : ¬ a.financingBalance - entry.2.financingAmount < 0 := by linarith
    rw [foldl_cons,liquidateLong]
    simp only [if_neg kept]
    rw [ih later _ (by simp only; linarith)]
    simp only [map_cons,sum_cons,foldl_cons]
    congr 1 <;> ring

theorem liquidateShort_all (prices : Book String ℚ) (entries : List (String × MarginShortPosition))
    (covered : List ForceLiquidateEntry) :
    (entries.foldl (fun state entry => liquidateShort prices state entry.1 entry.2) (covered,a)).2 = { a with
      cash := a.cash - (entries.map fun entry => entry.2.quantity * priceOr prices entry.1 entry.2.salePrice).sum
      shortPositions := entries.foldl (fun left entry => left.put entry.1 none) a.shortPositions } := by
  induction entries generalizing a covered with
  | nil => simp
  | cons entry rest ih =>
    rw [foldl_cons,liquidateShort]
    simp only [ih]
    simp only [map_cons,sum_cons,foldl_cons]
    congr 1
    ring

/-- The account a forced liquidation leaves: every position turned into cash, the positions'
financing off the balance and the interest struck out. -/
theorem forceLiquidate_account (kept : WellKept a) (prices : Book String ℚ) (reason : String) :
    (a.forceLiquidate prices reason).2 = { a with
      cash := a.cash + a.longValue prices - a.shortValue prices
      financingBalance := a.financingBalance - a.longPositions.total (fun _ p => p.financingAmount)
      longPositions := ∅
      shortPositions := ∅
      accruedFinancingInterest := 0
      accruedLendingInterest := 0 } := by
  have nonneg : ∀ entry ∈ a.longPositions.toList, 0 ≤ entry.2.financingAmount := fun entry member =>
    kept.financing_nonneg entry.1 entry.2 (mem_toList_iff_getElem?_eq_some.mp member)
  simp only [forceLiquidate,foldl_eq_foldl_toList]
  rw [liquidateLong_all prices _ nonneg [] kept.financed]
  simp only
  rw [liquidateShort_all]
  simp only [Book.eraseAll_toList]
  rfl

theorem WellKept.traded (kept : WellKept a)
    (traded : Traded a symbol qty price operation after) (qtyPos : 0 < qty) (pricePos : 0 < price) :
    WellKept after := by
  have value : 0 < qty * price := mul_pos qtyPos pricePos
  cases traded with
  | marginBuy =>
    refine ⟨kept.longs.put symbol _ ?_,kept.shorts,?_,kept.financingInterest,kept.lendingInterest,kept.config⟩
    · intro p written
      cases written
      cases found : a.longPositions[symbol]? with
      | none => exact ⟨qtyPos,value⟩
      | some pos =>
        obtain ⟨quantity,financing⟩ := kept.longs symbol pos found
        exact ⟨add_pos quantity qtyPos,add_pos financing value⟩
    · have changed := a.longPositions.total_put symbol
        (some (addToLong a.longPositions[symbol]? symbol qty price (qty * price))) fun _ p => p.financingAmount
      rw [map_some,getD_some,financing_addToLong] at changed
      have financed := kept.financed
      linarith
  | shortSell =>
    refine ⟨kept.longs,kept.shorts.put symbol _ ?_,kept.financed,kept.financingInterest,kept.lendingInterest,
      kept.config⟩
    intro p written
    cases written
    cases found : a.shortPositions[symbol]? with
    | none => exact ⟨qtyPos,pricePos.le,value.le⟩
    | some pos =>
      obtain ⟨quantity,-,proceeds⟩ := kept.shorts symbol pos found
      exact ⟨add_pos quantity qtyPos,div_nonneg (add_nonneg proceeds value.le) (add_pos quantity qtyPos).le,
        add_nonneg proceeds value.le⟩
  | buyToCover found enough =>
    rename_i pos
    refine ⟨kept.longs,kept.shorts.put symbol _ ?_,kept.financed,kept.financingInterest,kept.lendingInterest,
      kept.config⟩
    intro p written
    obtain ⟨quantity,-,proceeds⟩ := kept.shorts symbol pos found
    simp only [coverShort,gt_iff_lt,quantity,if_true] at written
    split at written
    · cases written
    rename_i open_
    cases written
    have part : qty / pos.quantity ≤ 1 := (div_le_one quantity).mpr enough
    have left := mul_le_mul_of_nonneg_left part proceeds
    refine ⟨not_le.mp open_,le_rfl,?_⟩
    linarith
  | marginSell found enough =>
    rename_i pos
    obtain ⟨quantity,financing⟩ := kept.longs symbol pos found
    refine ⟨kept.longs.put symbol _ ?_,kept.shorts,?_,kept.financingInterest,kept.lendingInterest,kept.config⟩
    · intro p written
      simp only [reduceLong,gt_iff_lt,quantity,if_true] at written
      split at written
      · cases written
      rename_i open_
      cases written
      have part : qty / pos.quantity < 1 := (div_lt_one quantity).mpr (by linarith)
      have left := mul_lt_mul_of_pos_left part financing
      refine ⟨not_le.mp open_,?_⟩
      linarith
    · have changed := a.longPositions.total_put symbol (reduceLong pos qty) fun _ p => p.financingAmount
      have repaid : repayment pos qty (qty * price) ≤ _ := repayment_le quantity enough
      have financed := kept.financed
      rw [found,map_some,getD_some] at changed
      linarith

variable {cfg : MarginConfig}

theorem validate_ok (ok : cfg.validate = .ok ()) :
    (0 ≤ cfg.initialMarginRate ∧ cfg.initialMarginRate ≤ 1) ∧ 1 ≤ cfg.maintenanceRatioFloor ∧
      0 ≤ cfg.financingRate ∧ 0 ≤ cfg.securitiesLendingRate ∧ 0 < cfg.daysPerYear := by
  simp only [MarginConfig.validate] at ok
  split_ifs at ok with initial floor warning financing lending days
  rw [not_or,not_lt,not_lt] at initial financing lending
  exact ⟨initial,not_lt.mp floor,financing.1,lending.1,not_le.mp days⟩

theorem dailyInterest_nonneg {c : MarginCalculator} {rate : ℚ} (rated : 0 ≤ rate) (days : 0 < c.cfg.daysPerYear)
    (balance : ℚ) : 0 ≤ c.dailyInterest rate balance := by
  rw [MarginCalculator.dailyInterest]
  split
  · exact le_rfl
  rename_i positive
  have year : (0 : ℚ) < c.cfg.daysPerYear := by exact_mod_cast days
  exact div_nonneg (mul_nonneg (not_le.mp positive).le rated) year.le

theorem WellKept.accrueInterest {days : Int} {interest : ℚ × ℚ} (kept : WellKept a)
    (ok : a.accrueInterest days prices = .ok (interest,after)) : WellKept after := by
  obtain ⟨-,-,financing,lending,year⟩ := validate_ok kept.config
  have basis : 0 < a.calculator.cfg.daysPerYear := by
    simp only [calculator,newMarginCalculator]
    split <;> omega
  rw [MarginAccount.accrueInterest] at ok
  split_ifs at ok with negative none
  · cases ok
    exact kept
  · cases ok
    have count : (0 : ℚ) ≤ days := by exact_mod_cast not_lt.mp negative
    refine ⟨kept.longs,kept.shorts,kept.financed,?_,?_,kept.config⟩
    · exact add_nonneg kept.financingInterest (mul_nonneg (dailyInterest_nonneg financing basis _) count)
    · exact add_nonneg kept.lendingInterest (mul_nonneg (dailyInterest_nonneg lending basis _) count)

theorem WellKept.forceLiquidate (kept : WellKept a) (prices : Book String ℚ) (reason : String) :
    WellKept (a.forceLiquidate prices reason).2 := by
  rw [forceLiquidate_account kept]
  refine ⟨Book.all_empty _,Book.all_empty _,?_,le_rfl,le_rfl,kept.config⟩
  exact sub_nonneg.mpr kept.financed

theorem WellKept.step (kept : WellKept a) (op : Op) : WellKept (a.step op) := by
  cases op with
  | trade operation symbol qty price =>
    rw [MarginAccount.step]
    split
    · exact kept
    rename_i done
    obtain ⟨qtyPos,pricePos,traded⟩ := trade_ok done
    exact kept.traded traded qtyPos pricePos
  | accrueInterest days prices =>
    rw [MarginAccount.step]
    split
    · exact kept
    rename_i done
    exact kept.accrueInterest done
  | deposit =>
    rw [MarginAccount.step,deposit]
    split
    · exact kept
    · exact ⟨kept.longs,kept.shorts,kept.financed,kept.financingInterest,kept.lendingInterest,kept.config⟩
  | withdraw =>
    simp only [MarginAccount.step,withdraw]
    split_ifs
    · exact kept
    · exact kept
    · exact kept
    · exact ⟨kept.longs,kept.shorts,kept.financed,kept.financingInterest,kept.lendingInterest,kept.config⟩
  | forceLiquidate prices reason => exact kept.forceLiquidate prices reason
  | setShortable =>
    exact ⟨kept.longs,kept.shorts,kept.financed,kept.financingInterest,kept.lendingInterest,kept.config⟩

theorem newMarginAccount_wellKept {accountID : String} {initialCash : ℚ}
    {shortable : ShortableList} (ok : newMarginAccount accountID initialCash cfg shortable = .ok a) : WellKept a := by
  rw [newMarginAccount] at ok
  split_ifs at ok
  obtain ⟨_,valid,made⟩ := bind_eq_ok.mp ok
  cases pure_eq_ok.mp made
  exact ⟨Book.all_empty _,Book.all_empty _,le_rfl,le_rfl,le_rfl,valid⟩

theorem Reachable.wellKept (reachable : Reachable a) : WellKept a := by
  obtain ⟨_,_,_,_,fresh,ops,made,rfl⟩ := reachable
  exact run_always (fun _ op kept => kept.step op) (newMarginAccount_wellKept made) ops

def opened (cash : ℚ) : MarginAccount := ⟨"A1",cash,0,∅,∅,0,0,defaultMarginConfig,∅,0⟩

theorem opened_made {cash : ℚ} (funded : 0 ≤ cash) :
    newMarginAccount "A1" cash defaultMarginConfig ∅ = .ok (opened cash) := by
  have valid : defaultMarginConfig.validate = .ok () := by decide +kernel
  rw [newMarginAccount,if_neg (by decide),if_neg (not_lt.mpr funded),valid]
  rfl

theorem opened_reachable {cash : ℚ} (funded : 0 ≤ cash) (ops : List Op) : Reachable (run step (opened cash) ops) :=
  ⟨"A1",cash,defaultMarginConfig,∅,opened cash,ops,opened_made funded,rfl⟩

/-- Every trade but a margin sale leaves net assets as they were: the sale takes the repayment
off the debt and cash does not pay it. -/
theorem trade_netAssets_iff {operation : MarginOperation} {result : MarginTradeResult} (reachable : Reachable a)
    (ok : a.trade operation symbol qty price = .ok (result,after)) (quoted : prices[symbol]? = some price) :
    after.netAssets prices = a.netAssets prices ↔ operation ≠ .marginSell := by
  have kept := reachable.wellKept
  obtain ⟨qtyPos,pricePos,traded⟩ := trade_ok ok
  have values := traded.values quoted pricePos
  simp only [netAssets]
  cases operation with
  | marginBuy | shortSell | buyToCover =>
    obtain ⟨assets,debt⟩ := values
    refine iff_of_true ?_ nofun
    linarith
  | marginSell =>
    obtain ⟨pos,found,assets,debt⟩ := values
    obtain ⟨held,financed⟩ := kept.longs symbol pos found
    have repaid := repayment_pos held financed qtyPos pricePos
    refine iff_of_false ?_ fun other => other rfl
    intro same
    linarith

def boughtOnMargin : MarginAccount := run step (opened 1000) [.trade .marginBuy "600000" 100 10]

theorem marginBuy_keeps_netAssets : ∃ result after,
    (opened 1000).trade .marginBuy "600000" 100 10 = .ok (result,after) ∧
      after.netAssets (tradePrices "600000" 10) = (opened 1000).netAssets (tradePrices "600000" 10) := by
  obtain ⟨⟨result,after⟩,ok⟩ := exists_ok (x := (opened 1000).trade .marginBuy "600000" 100 10) (by decide +kernel)
  have quoted : (tradePrices "600000" 10)["600000"]? = some 10 := by decide +kernel
  exact ⟨result,after,ok,(trade_netAssets_iff (opened_reachable (by norm_num) []) ok quoted).mpr (by decide)⟩

/-- Selling at cost what was bought on margin doubles the net assets. -/
theorem marginSell_raises_netAssets : Reachable boughtOnMargin ∧
    boughtOnMargin.netAssets (tradePrices "600000" 10) = 1000 ∧
    (boughtOnMargin.trade .marginSell "600000" 100 10).toOption.map
      (fun sold => sold.2.netAssets (tradePrices "600000" 10)) = some 2000 :=
  ⟨opened_reachable (by norm_num) _,by decide +kernel,by decide +kernel⟩

/-- A forced liquidation leaves no position, no debt and the net assets in cash exactly when
no money is borrowed and no interest is owed: cash never pays for either. -/
theorem forceLiquidate_settles_iff (reachable : Reachable a) (prices : Book String ℚ) (reason : String) :
    ((a.forceLiquidate prices reason).2.longPositions = ∅ ∧ (a.forceLiquidate prices reason).2.shortPositions = ∅ ∧
      (a.forceLiquidate prices reason).2.totalDebt prices = 0 ∧
      (a.forceLiquidate prices reason).1.finalCash = a.netAssets prices ∧
      (a.forceLiquidate prices reason).2.cash = a.netAssets prices) ↔
      a.financingBalance = 0 ∧ a.accruedInterest = 0 := by
  have kept := reachable.wellKept
  have reported : (a.forceLiquidate prices reason).1.finalCash = (a.forceLiquidate prices reason).2.cash := rfl
  have owed : 0 ≤ a.accruedInterest := add_nonneg kept.financingInterest kept.lendingInterest
  have financed := kept.financed
  have financing := Book.total_nonneg kept.financing_nonneg
  rw [reported,forceLiquidate_account kept]
  simp only [netAssets,totalAssets_eq,totalDebt_eq,true_and,and_self]
  have none_left : (∅ : Book String MarginShortPosition).total
      (fun symbol p => p.quantity * priceOr prices symbol p.salePrice) = 0 := rfl
  simp only [shortValue,none_left,accruedInterest] at owed ⊢
  constructor
  · rintro ⟨-,cash⟩
    constructor <;> linarith
  · rintro ⟨noBalance,noInterest⟩
    constructor <;> linarith

def lendableStock : ShortableList := (∅ : ShortableList).insert "600000" ⟨"600000",0⟩

def shortened : List Op := [.setShortable lendableStock,.trade .shortSell "600000" 100 10]

/-- A short of a hundred shares sold at ten and bought back at twelve. -/
theorem short_liquidation_settles :
    let short := run step (opened 1000) shortened
    let liquidated := (short.forceLiquidate (tradePrices "600000" 12) "floor").2
    short.shortQuantity "600000" = 100 ∧ liquidated.shortPositions = ∅ ∧
      liquidated.totalDebt (tradePrices "600000" 12) = 0 ∧ liquidated.cash = 800 := by
  have settled := (forceLiquidate_settles_iff (opened_reachable (show (0 : ℚ) ≤ 1000 by norm_num) shortened)
    (tradePrices "600000" 12) "floor").mpr ⟨by decide +kernel,by decide +kernel⟩
  exact ⟨by decide +kernel,settled.2.1,settled.2.2.1,settled.2.2.2.2.trans (by decide +kernel)⟩

/-- Net assets of 1000 become 2000 in cash: the borrowed 1000 is not paid back. -/
theorem forceLiquidate_keeps_the_loan : Reachable boughtOnMargin ∧
    boughtOnMargin.netAssets (tradePrices "600000" 10) = 1000 ∧
    (boughtOnMargin.forceLiquidate (tradePrices "600000" 10) "floor").1.finalCash = 2000 :=
  ⟨opened_reachable (by norm_num) _,by decide +kernel,by decide +kernel⟩

theorem floor_le_maintenanceRatio {floor assets debt : ℚ} (positive : 0 < floor) (owed : 0 < debt) :
    (floor : WithTop ℚ) ≤ MarginCalculator.maintenanceRatio assets debt ↔ floor * debt ≤ assets := by
  have product : 0 < floor * debt := mul_pos positive owed
  rw [MarginCalculator.maintenanceRatio,if_neg (not_le.mpr owed)]
  split
  next worthless =>
    rw [WithTop.coe_le_coe]
    refine iff_of_false (not_le.mpr positive) (not_le.mpr ?_)
    linarith
  · rw [WithTop.coe_le_coe,le_div_iff₀ owed]

/-- A trade that opens leaves the ratio at the floor or over it exactly when the net assets
before it cover the floor's excess over one on the debt after it. The initial margin alone
does not see to that, and the ratio after the trade is only reported. -/
theorem opening_floor_iff {operation : MarginOperation} {result : MarginTradeResult} (reachable : Reachable a)
    (opens : operation = .marginBuy ∨ operation = .shortSell)
    (ok : a.trade operation symbol qty price = .ok (result,after)) :
    (a.cfg.maintenanceRatioFloor : WithTop ℚ) ≤ after.maintenanceRatio (tradePrices symbol price) ↔
      (a.cfg.maintenanceRatioFloor - 1) * (a.totalDebt (tradePrices symbol price) + qty * price) ≤
        a.netAssets (tradePrices symbol price) := by
  have kept := reachable.wellKept
  obtain ⟨qtyPos,pricePos,traded⟩ := trade_ok ok
  have quoted : (tradePrices symbol price)[symbol]? = some price := by simp [tradePrices]
  have values := traded.values quoted pricePos
  have changed : after.totalAssets (tradePrices symbol price) = a.totalAssets (tradePrices symbol price) + qty * price ∧
      after.totalDebt (tradePrices symbol price) = a.totalDebt (tradePrices symbol price) + qty * price := by
    obtain rfl | rfl := opens
    · exact values
    · exact values
  obtain ⟨assets,debt⟩ := changed
  obtain ⟨-,floor,-⟩ := validate_ok kept.config
  have owed : 0 < a.totalDebt (tradePrices symbol price) + qty * price :=
    add_pos_of_nonneg_of_pos (kept.totalDebt_nonneg _) (mul_pos qtyPos pricePos)
  rw [maintenanceRatio,assets,debt,floor_le_maintenanceRatio (lt_of_lt_of_le one_pos floor) owed,netAssets]
  constructor
  · intro covered
    linarith
  · intro covered
    linarith

theorem first_purchase_keeps_floor : ∃ result after,
    (opened 1000).trade .marginBuy "600000" 100 10 = .ok (result,after) ∧
      (((opened 1000).cfg.maintenanceRatioFloor : ℚ) : WithTop ℚ) ≤ after.maintenanceRatio (tradePrices "600000" 10) := by
  obtain ⟨⟨result,after⟩,ok⟩ := exists_ok (x := (opened 1000).trade .marginBuy "600000" 100 10) (by decide +kernel)
  exact ⟨result,after,ok,(opening_floor_iff (opened_reachable (by norm_num) []) (.inl rfl) ok).mpr (by decide +kernel)⟩

def twiceLevered : MarginAccount := run step (opened 1000) [.trade .marginBuy "600000" 200 10]

/-- The second purchase passes the initial margin and leaves a ratio of 1.2. -/
theorem second_purchase_breaches_floor : Reachable twiceLevered ∧
    twiceLevered.cfg.initialMarginRate = 1/2 ∧ twiceLevered.cfg.maintenanceRatioFloor = 13/10 ∧
    (twiceLevered.trade .marginBuy "600000" 300 10).toOption.map
      (fun bought => bought.2.maintenanceRatio (tradePrices "600000" 10)) = some ((6/5 : ℚ) : WithTop ℚ) :=
  ⟨opened_reachable (by norm_num) _,by decide +kernel,by decide +kernel,by decide +kernel⟩

end QuantTrading.MarginAccount
