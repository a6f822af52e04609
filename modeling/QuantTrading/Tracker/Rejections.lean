import QuantTrading.Tracker.Booking

/-! What a rejected trade leaves behind. A refused call ends in one of three ways: the tracker
as it was, an expired order in the log, or the risk-warning count restarted for a new day. The
count is read through what an investor may still buy that day, which a restart does not change.
-/
namespace QuantTrading.Tracker
open Library

variable (t : Tracker) (symbol : String) (asOf : Time)

def riskWarningCap (symbol : String) : Option ℚ :=
  match t.stockNames[symbol]? with
  | none => none
  | some name =>
    if name ≠ "" ∧ isRiskWarningName name = true ∧ 0 < riskWarningDailyBuyCap symbol then
      some (riskWarningDailyBuyCap symbol)
    else none

def boughtOn (symbol : String) (asOf : Time) : ℚ :=
  if asOf.truncateDay = t.dailyRWBuyDay then (t.dailyRWBuy[symbol]?).getD 0 else 0

def remainingAllowance (symbol : String) (asOf : Time) : Option ℚ :=
  (t.riskWarningCap symbol).map fun cap => cap - t.boughtOn symbol asOf

def restarted (asOf : Time) : Tracker :=
  if asOf.truncateDay ≠ t.dailyRWBuyDay then { t with dailyRWBuy := ∅, dailyRWBuyDay := asOf.truncateDay } else t

theorem restarted_day : (t.restarted asOf).dailyRWBuyDay = asOf.truncateDay := by
  unfold restarted
  split
  · rfl
  rename_i same
  exact (not_not.mp same).symm

theorem boughtOn_restarted : (t.restarted asOf).boughtOn symbol asOf = t.boughtOn symbol asOf := by
  unfold restarted boughtOn
  by_cases same : asOf.truncateDay = t.dailyRWBuyDay
  · simp [same]
  · simp [same]

theorem riskWarningCap_restarted : (t.restarted asOf).riskWarningCap symbol = t.riskWarningCap symbol := by
  unfold restarted
  split <;> rfl

theorem remainingAllowance_restarted :
    (t.restarted asOf).remainingAllowance symbol asOf = t.remainingAllowance symbol asOf := by
  rw [remainingAllowance,riskWarningCap_restarted,boughtOn_restarted,remainingAllowance]

variable {qty price : ℚ} {t t' : Tracker} {symbol : String} {asOf : Time} {e : TradeError}
   {direction : Direction} {opts : Option OrderExecutionOpts}

section
variable (t : Tracker) (symbol : String) (asOf : Time) (ordered : 0 < qty)
include ordered

/-- The check in terms of the allowance: an order within it is counted, one beyond it only moves
the day. -/
theorem enforce_eq : t.enforceRiskWarningDailyBuy symbol qty asOf = match t.riskWarningCap symbol with
      | none => (.ok (),t)
      | some cap =>
        if t.boughtOn symbol asOf + qty > cap then
          (.error (.riskWarningCapExceeded symbol ((t.stockNames[symbol]?).getD "") (t.boughtOn symbol asOf) qty cap),
            t.restarted asOf)
        else (.ok (),{ t.restarted asOf with
          dailyRWBuy := (t.restarted asOf).dailyRWBuy.insert symbol (t.boughtOn symbol asOf + qty) }) := by
  have counted : ((t.restarted asOf).dailyRWBuy[symbol]?).getD 0 = t.boughtOn symbol asOf := by
    rw [← boughtOn_restarted,boughtOn,restarted_day,if_pos rfl]
  unfold enforceRiskWarningDailyBuy riskWarningCap
  rw [if_neg (not_le.mpr ordered)]
  cases named : t.stockNames[symbol]? with
  | none => rfl
  | some name =>
    dsimp only
    by_cases blank : name = ""
    · simp [blank]
    · by_cases warned : isRiskWarningName name = true
      · by_cases capped : 0 < riskWarningDailyBuyCap symbol
        · have limited : name ≠ "" ∧ isRiskWarningName name = true ∧ 0 < riskWarningDailyBuyCap symbol := ⟨blank,warned,capped⟩
          rw [if_neg blank,if_neg (not_not.mpr warned),if_neg (not_le.mpr capped),if_pos limited]
          simp only [← counted]
          rfl
        · simp [blank,warned,capped,not_lt.mp capped]
      · simp [blank,warned]

theorem enforce_ok_iff :
    (t.enforceRiskWarningDailyBuy symbol qty asOf).1 = .ok () ↔ ∀ left ∈ t.remainingAllowance symbol asOf, qty ≤ left := by
  rw [enforce_eq t symbol asOf ordered,remainingAllowance]
  cases t.riskWarningCap symbol with
  | none => simp
  | some =>
    dsimp only
    split
    next beyond =>
      simp
      linarith
    next within =>
      simp
      linarith

end

inductive Call where
  | executeTrade (symbol : String) (direction : Direction) (quantity price : ℚ) (timestamp : Time)
      (opts : Option OrderExecutionOpts)
  | applyTrade (trade : Trade)

namespace Call

def result (t : Tracker) : Call → Except TradeError Trade × Tracker
  | .executeTrade symbol direction quantity price timestamp opts =>
    t.executeTrade symbol direction quantity price timestamp opts
  | .applyTrade trade => t.applyTrade trade

def timestamp : Call → Time
  | .executeTrade _ _ _ _ timestamp _ => timestamp
  | .applyTrade trade => trade.timestamp

def unfilled : Call → Option Order
  | .executeTrade symbol direction quantity _ timestamp (some ⟨.limit,limitPrice,some bar⟩) =>
    match limitFill direction limitPrice bar with
    | some _ => none
    | none =>
      some { symbol := symbol, direction := direction, orderType := .limit, quantity := quantity, limitPrice := limitPrice,
             timestamp := timestamp, filledQty := 0, fillPrice := 0, status := .expired }
  | _ => none

end Call

inductive Refused (t : Tracker) (asOf : Time) : Tracker → Prop where
  | same : Refused t asOf t
  | restarted : Refused t asOf (t.restarted asOf)

theorem enforce_error (refused : t.enforceRiskWarningDailyBuy symbol qty asOf = (.error e,t')) :
    t' = t.restarted asOf := by
  by_cases ordered : 0 < qty
  · rw [enforce_eq t symbol asOf ordered] at refused
    split at refused
    · cases refused
    split at refused
    · cases refused
      rfl
    · cases refused
  · rw [enforceRiskWarningDailyBuy,if_pos (not_lt.mp ordered)] at refused
    cases refused

theorem bookLong_refused {cost : ℚ} {timestamp : Time}
    (refused : t.bookLong symbol qty price cost timestamp = (.error e,t')) : Refused t timestamp t' := by
  unfold bookLong at refused
  split at refused
  · cases refused
    exact .same
  · split at refused
    next beyond =>
      cases refused
      rw [enforce_error beyond]
      exact .restarted
    · cases refused

theorem bookTrade_refused {draft : Trade} {cost proceeds request : ℚ} {flag : Bool}
    (refused : t.bookTrade draft qty cost proceeds request flag = (.error e,t')) : Refused t draft.timestamp t' := by
  rcases bookTrade_error refused with unpaid | rfl
  · exact bookLong_refused unpaid
  · exact .same

theorem executionPrice_error {bar : OHLCV}
    (expired : t.executionPrice symbol direction price (opts.getD ⟨.market,price,none⟩) = .error bar) :
    ∃ limitPrice, opts = some ⟨.limit,limitPrice,some bar⟩ ∧ limitFill direction limitPrice bar = none := by
  cases opts with
  | none => simp [executionPrice] at expired
  | some opts =>
    obtain ⟨orderType,limitPrice,dayBar⟩ := opts
    cases orderType with
    | limit =>
      cases dayBar with
      | none => simp [executionPrice] at expired
      | some day =>
        simp only [getD_some,executionPrice] at expired
        cases filled : limitFill direction limitPrice day with
        | none =>
          rw [filled] at expired
          cases expired
          exact ⟨limitPrice,rfl,filled⟩
        | some =>
          rw [filled] at expired
          cases expired
    | _ => simp [executionPrice] at expired

theorem executionPrice_ok (quantity : ℚ) (timestamp : Time) {executed : ℚ}
    (priced : t.executionPrice symbol direction price (opts.getD ⟨.market,price,none⟩) = .ok executed) :
    (Call.executeTrade symbol direction quantity price timestamp opts).unfilled = none := by
  unfold Call.unfilled
  split
  next same =>
    cases same
    simp only [getD_some,executionPrice] at priced
    split
    · rfl
    rename_i missed
    rw [missed] at priced
    cases priced
  · rfl

/-- Everything but the log and the restarted count, and of the count what it allows that day. -/
structure Untouched (t t' : Tracker) (moment : Time) : Prop extends SameAccount t t' where
  initialCash : t'.initialCash = t.initialCash
  asOf : t'.asOf = t.asOf
  portfolioValues : t'.portfolioValues = t.portfolioValues
  equityCurve : t'.equityCurve = t.equityCurve
  allowance : ∀ symbol, t'.remainingAllowance symbol moment = t.remainingAllowance symbol moment

theorem Untouched.refl (t : Tracker) (asOf : Time) : Untouched t t asOf :=
  ⟨SameAccount.refl t,rfl,rfl,rfl,rfl,fun _ => rfl⟩

theorem Refused.untouched (refused : Refused t asOf t') : Untouched t t' asOf ∧ t'.orderLog = t.orderLog := by
  cases refused with
  | same => exact ⟨Untouched.refl t asOf,rfl⟩
  | restarted =>
    refine ⟨⟨?_,?_,?_,?_,?_,fun symbol => remainingAllowance_restarted t symbol asOf⟩,?_⟩
    · unfold Tracker.restarted
      split <;> exact ⟨⟨rfl,rfl,rfl,rfl,rfl,rfl⟩,rfl,rfl,rfl⟩
    all_goals
      unfold Tracker.restarted
      split <;> rfl

theorem unfilled_expired {call : Call} {order : Order} (unfilled : call.unfilled = some order) :
    order.status = .expired ∧ order.filledQty = 0 := by
  unfold Call.unfilled at unfilled
  split at unfilled
  · split at unfilled
    · cases unfilled
    cases unfilled
    exact ⟨rfl,rfl⟩
  · cases unfilled

theorem executeTrade_refused {quantity : ℚ} {timestamp : Time}
    (refused : t.executeTrade symbol direction quantity price timestamp opts = (.error e,t')) :
    (Call.executeTrade symbol direction quantity price timestamp opts).unfilled = none ∧ Refused t timestamp t' ∨
    ∃ order, (Call.executeTrade symbol direction quantity price timestamp opts).unfilled = some order ∧
      t' = { t with orderLog := t.orderLog ++ [order] } := by
  unfold executeTrade at refused
  dsimp only at refused
  split at refused
  next bar expired =>
    obtain ⟨limitPrice,rfl,missed⟩ := executionPrice_error expired
    cases refused
    exact .inr ⟨_,by simp only [Call.unfilled,missed]; rfl,rfl⟩
  next executed priced =>
    refine .inl ⟨executionPrice_ok quantity timestamp priced,?_⟩
    split at refused
    next unbooked =>
      cases refused
      exact bookTrade_refused unbooked
    · cases refused

theorem applyTrade_refused {trade : Trade} (refused : t.applyTrade trade = (.error e,t')) :
    Refused t trade.timestamp t' := by
  unfold applyTrade at refused
  split at refused
  · cases refused
    exact .same
  · split at refused
    next unbooked =>
      cases refused
      exact bookTrade_refused unbooked
    · cases refused

/-- A refused call of either kind, in any state. -/
theorem refused_untouched (t t' : Tracker) (call : Call) (e : TradeError) (refused : call.result t = (.error e,t')) :
    Untouched t t' call.timestamp ∧ (t'.orderLog = t.orderLog ∨
      ∃ order, call.unfilled = some order ∧ order.status = .expired ∧ t'.orderLog = t.orderLog ++ [order]) := by
  cases call with
  | executeTrade =>
    rcases executeTrade_refused refused with
      ⟨_,ended⟩ | ⟨order,unfilled,rfl⟩
    · exact ⟨ended.untouched.1,.inl ended.untouched.2⟩
    · refine ⟨⟨⟨⟨rfl,rfl,rfl,rfl,rfl,rfl⟩,rfl,rfl,rfl⟩,rfl,rfl,rfl,rfl,fun _ => rfl⟩,.inr ?_⟩
      exact ⟨order,unfilled,(unfilled_expired unfilled).1,rfl⟩
  | applyTrade =>
    have ended := applyTrade_refused refused
    exact ⟨ended.untouched.1,.inl ended.untouched.2⟩

def fullQuota : Tracker :=
  { newTracker 10000000 0 0 defaultTradingConfig with
    stockNames := (∅ : Book String String).insert "600000.SH" "ST A"
    dailyRWBuy := (∅ : Book String ℚ).insert "600000.SH" 500000
    dailyRWBuyDay := Time.date 2024 1 2 }

/-- A buy of the next day beyond the cap restarts the count, and the whole cap is still there. -/
theorem capExceeded_untouched :
    let call := Call.executeTrade "600000.SH" .long 600000 1 (Time.date 2024 1 3) none
    (call.result fullQuota).1 = .error (.riskWarningCapExceeded "600000.SH" "ST A" 0 600000 500000) ∧
    Untouched fullQuota (call.result fullQuota).2 call.timestamp := by
  have rejected : (Call.result fullQuota (.executeTrade "600000.SH" .long 600000 1 (Time.date 2024 1 3) none)).1 =
      .error (.riskWarningCapExceeded "600000.SH" "ST A" 0 600000 500000) := by decide +kernel
  refine ⟨rejected,?_⟩
  exact (refused_untouched _ _ _ _ (Prod.ext rejected rfl)).1

end QuantTrading.Tracker
