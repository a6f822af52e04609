import QuantTrading.Tracker.Operations

/-! When trading overdraws the account. A buy is refused when the cash does not pay for it. A
short sale, a closed long and a bought-back short are all credited with their value less their
fees, whatever the cash is, so a small one with the minimum commission takes cash away.
-/
namespace QuantTrading.Tracker
open Library

variable (t : Tracker)

/-- The shares a fill is credited for: none of a buy, and of a close what settlement and the
position leave of the request. -/
def creditedQty (symbol : String) (direction : Direction) (request filled : ℚ) (timestamp : Time) : ℚ :=
  match direction with
  | .long | .hold => 0
  | .short => filled
  | .close =>
    match t.positions[symbol]? with
    | none => 0
    | some pos =>
      if 0 < pos.quantity then
        if pos.buyDate.truncateDay = timestamp.truncateDay ∧ pos.quantityYesterday = 0 then 0
        else max 0 (min pos.quantityYesterday (min request pos.quantity))
      else max 0 (min request (-pos.quantity))

def closeFees (symbol : String) (value : ℚ) (timestamp : Time) : ℚ :=
  (computeFees value ((t.positions[symbol]?).all fun pos => 0 < pos.quantity) (t.feeSchedule timestamp)).total

/-- The fees of a fill and the value it is credited with; the cash check of a buy is its own. -/
def sale (trade : Trade) (request filled fees : ℚ) : ℚ × ℚ :=
  let value := t.creditedQty trade.symbol trade.direction request filled trade.timestamp * trade.price
  match trade.direction with
  | .long | .hold => (0,0)
  | .short => (fees,value)
  | .close => (t.closeFees trade.symbol value trade.timestamp,value)

def charge : Op → ℚ × ℚ
  | .executeTrade symbol direction quantity price timestamp opts =>
    match t.executionPrice symbol direction price (opts.getD ⟨.market,price,none⟩) with
    | .error _ => (0,0)
    | .ok executed =>
      let draft := t.executedDraft symbol direction quantity executed timestamp (opts.getD ⟨.market,price,none⟩)
      t.sale draft quantity draft.filledQty (draft.commission + draft.transferFee + draft.stampTax)
  | .applyTrade trade =>
    if trade.quantity ≤ 0 then (0,0)
    else t.sale trade trade.quantity trade.quantity (trade.commission + trade.transferFee)
  | .processDividend symbol dividend =>
    match t.positions[symbol]? with
    | none => (0,0)
    | some pos => if pos.quantity ≤ 0 then (0,0) else (0,pos.quantity * dividend.divAmt)
  | _ => (0,0)

def Covered (op : Op) : Prop := (t.charge op).1 ≤ t.cash + (t.charge op).2

@[simp] theorem computeFees_zero_total (isSell : Bool) (f : AShareFees) : (computeFees 0 isSell f).total = 0 := by
  simp [computeFees,FeeBreakdown.total]

@[simp] theorem closeFees_zero (symbol : String) (timestamp : Time) : t.closeFees symbol 0 timestamp = 0 :=
  computeFees_zero_total _ _

variable {t : Tracker}

variable {symbol : String} {pos : Position} {draft trade : Trade} {request : ℚ} {flag : Bool}

theorem closeFees_long (held : t.positions[symbol]? = some pos)
    (positive : 0 < pos.quantity) (value : ℚ) (timestamp : Time) :
    t.closeFees symbol value timestamp = (computeFees value true (t.feeSchedule timestamp)).total := by
  simp [closeFees,held,positive]

theorem closeFees_short (held : t.positions[symbol]? = some pos)
    (negative : pos.quantity < 0) (value : ℚ) (timestamp : Time) :
    t.closeFees symbol value timestamp = (computeFees value false (t.feeSchedule timestamp)).total := by
  simp [closeFees,held,not_lt.mpr negative.le]

/-- A refused close would be credited for nothing. -/
theorem bookClose_error {t : Tracker} (filled : ℚ) {e : TradeError}
    (refused : t.bookClose draft request flag = .error e) :
    t.creditedQty draft.symbol .close request filled draft.timestamp = 0 := by
  unfold bookClose at refused
  unfold creditedQty
  cases held : t.positions[draft.symbol]? with
  | none => rfl
  | some pos =>
    rw [held] at refused
    dsimp only at refused ⊢
    split at refused
    next zero =>
      have none_ : pos.quantity = 0 := abs_nonpos_iff.mp zero
      simp [none_]
    next nonzero =>
      by_cases positive : 0 < pos.quantity
      · simp only [gt_iff_lt,positive,if_true,closeLong,abs_of_pos positive] at refused ⊢
        split
        · rfl
        rename_i settled
        rw [if_neg settled] at refused
        by_cases none_ : min pos.quantityYesterday (min request pos.quantity) ≤ 0
        · exact max_eq_left none_
        · rw [if_neg none_] at refused
          cases refused
      · have negative := negative_of_nonzero nonzero positive
        simp only [gt_iff_lt,positive,if_false,closeShort,abs_of_neg negative] at refused ⊢
        by_cases none_ : min request (-pos.quantity) ≤ 0
        · exact max_eq_left none_
        · rw [if_neg none_] at refused
          cases refused

theorem bookClose_cash {t t' : Tracker} (filled : ℚ) (accepted : t.bookClose draft request flag = .ok (trade,t')) :
    t'.cash = t.cash + (t.creditedQty draft.symbol .close request filled draft.timestamp * draft.price -
      t.closeFees draft.symbol (t.creditedQty draft.symbol .close request filled draft.timestamp * draft.price)
        draft.timestamp) := by
  obtain ⟨pos,received,left,held,⟨positive,closed⟩ | ⟨negative,closed⟩,rfl⟩ := bookClose_cases accepted
  · obtain ⟨restated,stampTax,settled,sold,some_,received_eq,_⟩ := closeLong_ok positive closed
    have credited : t.creditedQty draft.symbol .close request filled draft.timestamp = trade.quantity := by
      rw [restated.timestamp] at settled
      simp only [creditedQty,held,if_pos positive,if_neg settled,sold]
      exact max_eq_right (sold ▸ some_.le)
    rw [credited,closeFees_long held positive,received_eq,restated.commission,restated.transferFee,stampTax,
      restated.price,restated.timestamp]
    rfl
  · obtain ⟨restated,_,bought,some_,received_eq,_⟩ := closeShort_ok negative closed
    have credited : t.creditedQty draft.symbol .close request filled draft.timestamp = trade.quantity := by
      simp only [creditedQty,held,if_neg (not_lt.mpr negative.le),bought]
      exact max_eq_right (bought ▸ some_.le)
    rw [credited,closeFees_short held negative,received_eq,restated.commission,restated.transferFee,
      restated.price,restated.timestamp,FeeBreakdown.total,computeFees_stampTax_buy,add_zero]

theorem bookLong_cash {t : Tracker} (symbol : String) (qty price cost : ℚ) (timestamp : Time) (solvent : 0 ≤ t.cash) :
    0 ≤ (t.bookLong symbol qty price cost timestamp).2.cash := by
  rcases result : t.bookLong symbol qty price cost timestamp with ⟨e | paid,t'⟩
  · exact (bookLong_error result).cash ▸ solvent
  · obtain ⟨affordable,cash,_⟩ := bookLong_ok result
    linarith

theorem sale_long (bought : trade.direction = .long) (request filled fees : ℚ) :
    t.sale trade request filled fees = (0,0) := by
  simp [sale,bought]

theorem bookTrade_long {t : Tracker} (bought : draft.direction = .long) (solvent : 0 ≤ t.cash)
    (qty cost proceeds request : ℚ) (flag : Bool) :
    0 ≤ (t.bookTrade draft qty cost proceeds request flag).2.cash := by
  have paid := bookLong_cash draft.symbol qty draft.price cost draft.timestamp solvent
  simp only [bookTrade,bought]
  split <;> simp_all

theorem bookTrade_sale (t : Tracker) (sold : draft.direction ≠ .long) (qty cost fees request : ℚ) (flag : Bool) :
    (t.bookTrade draft qty cost (qty * draft.price - fees) request flag).2.cash = t.cash +
      ((t.sale draft request qty fees).2 - (t.sale draft request qty fees).1) := by
  unfold bookTrade sale
  cases side : draft.direction with
  | long => exact absurd side sold
  | short => rfl
  | close =>
    cases closed : t.bookClose draft request flag with
    | error => simp [bookClose_error qty closed]
    | ok => exact bookClose_cash qty closed
  | hold => simp

theorem executeTrade_cash {t : Tracker} {direction : Direction} {price executed : ℚ} (quantity : ℚ)
    (timestamp : Time) {opts : Option OrderExecutionOpts}
    (priced : t.executionPrice symbol direction price (opts.getD ⟨.market,price,none⟩) = .ok executed) :
    (t.executeTrade symbol direction quantity price timestamp opts).2.cash =
      (t.bookExecuted (t.executedDraft symbol direction quantity executed timestamp (opts.getD ⟨.market,price,none⟩))
        quantity).2.cash := by
  unfold executeTrade executedDraft
  simp only [priced]
  split
  next result =>
    rw [result]
  next trade t' result =>
    rw [result]
    exact markPosition_cash t' symbol price

theorem applyTrade_cash (t : Tracker) (ordered : 0 < trade.quantity) :
    (t.applyTrade trade).2.cash = (t.bookApplied trade).2.cash := by
  unfold applyTrade
  rw [if_neg (not_le.mpr ordered)]
  split
  next result =>
    rw [result]
  next booked t' result =>
    rw [result]
    exact markPosition_cash t' trade.symbol trade.price

def InterestFree (t : Tracker) : Op → Prop
  | .advanceDay => t.shortSellingRate ≤ 0 ∨ t.positions.All fun _ pos => 0 ≤ pos.quantity
  | _ => True

theorem advanceDay_cash {t : Tracker} (free : t.shortSellingRate ≤ 0 ∨ t.positions.All fun _ pos => 0 ≤ pos.quantity) :
    t.advanceDay.cash = t.cash := by
  unfold advanceDay
  dsimp only
  split
  · rfl
  rename_i charged
  have owned := free.resolve_left charged
  refine Book.foldl_unchanged _ _ _ ?_
  intro symbol pos kept
  rw [Book.get_map] at kept
  obtain ⟨before,found,rfl⟩ := map_eq_some_iff.mp kept
  have quantity : before.rollOver.quantity = before.quantity := by
    unfold Position.rollOver
    split <;> rfl
  have long : before.rollOver.quantity ≥ 0 := quantity ▸ owned symbol before found
  simp [Position.lendingCost,long]

theorem covered_of_cash {op : Op} {cash : ℚ} (left : cash = t.cash + ((t.charge op).2 - (t.charge op).1)) :
    0 ≤ cash ↔ Covered t op := by
  unfold Covered
  constructor
  · intro floor
    linarith
  · intro covered
    linarith

theorem covered_of_free {op : Op} (solvent : 0 ≤ t.cash) (free : t.charge op = (0,0)) : Covered t op := by
  unfold Covered
  rw [free,add_zero]
  exact solvent

theorem executeTrade_floor {t : Tracker} (symbol : String) (direction : Direction) (quantity price : ℚ) (timestamp : Time)
    (opts : Option OrderExecutionOpts) (solvent : 0 ≤ t.cash) :
    0 ≤ (t.step (.executeTrade symbol direction quantity price timestamp opts)).cash ↔
      Covered t (.executeTrade symbol direction quantity price timestamp opts) := by
  cases priced : t.executionPrice symbol direction price (opts.getD ⟨.market,price,none⟩) with
  | error =>
    refine iff_of_true ?_ (covered_of_free solvent (by simp only [charge,priced]))
    simp only [step,executeTrade,priced]
    exact solvent
  | ok =>
    have cash := executeTrade_cash quantity timestamp priced
    change 0 ≤ (t.executeTrade symbol direction quantity price timestamp opts).2.cash ↔ _
    by_cases bought : direction = .long
    · subst bought
      refine iff_of_true ?_ (covered_of_free solvent ?_)
      · rw [cash,bookExecuted_eq]
        exact bookTrade_long rfl solvent _ _ _ _ _
      · simp only [charge,priced]
        exact sale_long rfl _ _ _
    · rw [cash,bookExecuted_eq]
      apply covered_of_cash
      simp only [charge,priced]
      exact bookTrade_sale _ bought _ _ _ _ _

theorem applyTrade_floor {t : Tracker} (trade : Trade) (solvent : 0 ≤ t.cash) :
    0 ≤ (t.step (.applyTrade trade)).cash ↔ Covered t (.applyTrade trade) := by
  change 0 ≤ (t.applyTrade trade).2.cash ↔ _
  by_cases ordered : 0 < trade.quantity
  · have cash := applyTrade_cash t ordered
    have charged : t.charge (.applyTrade trade) =
        t.sale trade trade.quantity trade.quantity (trade.commission + trade.transferFee) := by
      simp only [charge,if_neg (not_le.mpr ordered)]
    by_cases bought : trade.direction = .long
    · refine iff_of_true ?_ (covered_of_free solvent ?_)
      · rw [cash,bookApplied_eq]
        exact bookTrade_long bought solvent _ _ _ _ _
      · rw [charged]
        exact sale_long bought _ _ _
    · rw [cash]
      apply covered_of_cash
      rw [charged]
      rw [bookApplied_eq,sub_sub]
      exact bookTrade_sale _ bought _ _ _ _ _
  · have none_ := not_lt.mp ordered
    refine iff_of_true ?_ (covered_of_free solvent (by simp only [charge,if_pos none_]))
    simp only [applyTrade,if_pos none_]
    exact solvent

/-- A split only pays out, for the fraction of a share. -/
theorem processSplit_solvent {t : Tracker} (symbol : String) (split : Split) (solvent : 0 ≤ t.cash) :
    0 ≤ (t.step (.processSplit symbol split)).cash := by
  simp only [step,processSplit]
  split
  · exact solvent
  split
  · exact solvent
  rename_i positive
  split
  next paid =>
    have credit := mul_pos (not_le.mp positive) paid
    linarith
  · exact solvent

theorem step_floor (t : Tracker) (op : Op) (solvent : 0 ≤ t.cash) (free : InterestFree t op) :
    0 ≤ (t.step op).cash ↔ Covered t op := by
  cases op with
  | executeTrade symbol direction quantity price timestamp opts =>
    exact executeTrade_floor symbol direction quantity price timestamp opts solvent
  | applyTrade trade => exact applyTrade_floor trade solvent
  | processDividend symbol =>
    apply covered_of_cash
    simp only [step,processDividend,charge]
    cases t.positions[symbol]? with
    | none => simp
    | some =>
      dsimp only
      split <;> simp
  | processSplit symbol split => exact iff_of_true (processSplit_solvent symbol split solvent) (covered_of_free solvent rfl)
  | advanceDay =>
    refine iff_of_true ?_ (covered_of_free solvent rfl)
    change 0 ≤ t.advanceDay.cash
    rw [advanceDay_cash free]
    exact solvent
  | setStockNames => exact iff_of_true solvent (covered_of_free solvent rfl)

/-- In a history without interest the cash stays non-negative exactly when the cash and the value
of every sale, close and dividend pay for what it is charged. -/
theorem cash_floor_iff (t : Tracker) (ops : List Op) (solvent : 0 ≤ t.cash) (free : Guarded step InterestFree t ops) :
    Along step (fun t => 0 ≤ t.cash) t ops ↔ Guarded step Covered t ops :=
  along_iff_guarded (fun state op => step_floor state op) solvent free

instance (t : Tracker) (op : Op) : Decidable (Covered t op) :=
  inferInstanceAs (Decidable ((t.charge op).1 ≤ t.cash + (t.charge op).2))

def interestFreeTracker (capital : ℚ) : Tracker :=
  { newTracker capital Fees.defaultCommissionRate 0 defaultTradingConfig with shortSellingRate := 0 }

def fundedRoundTrip : List Op :=
  [.executeTrade "600000.SH" .long 100 10 (Time.date 2024 1 2) none,.advanceDay,
    .executeTrade "600000.SH" .close 100 11 (Time.date 2024 1 3) none]

theorem fundedRoundTrip_floor : Along step (fun t => 0 ≤ t.cash) (interestFreeTracker 100000) fundedRoundTrip := by
  have covered : Guarded step Covered (interestFreeTracker 100000) fundedRoundTrip := by decide +kernel
  have free : Guarded step InterestFree (interestFreeTracker 100000) fundedRoundTrip :=
    ⟨trivial,.inl (by decide +kernel),trivial,trivial⟩
  exact (cash_floor_iff _ _ (by decide +kernel) free).mpr covered

def Trades (t : Tracker) : Op → Prop
  | .executeTrade symbol direction quantity price timestamp opts =>
    0 < quantity ∧ 0 < price ∧ direction ≠ .hold ∧
      (t.executeTrade symbol direction quantity price timestamp opts).1.isOk = true
  | .applyTrade trade =>
    0 < trade.quantity ∧ 0 < trade.price ∧ trade.direction ≠ .hold ∧ (t.applyTrade trade).1.isOk = true
  | .advanceDay => t.shortSellingRate ≤ 0
  | _ => True

instance (t : Tracker) : ∀ op, Decidable (Trades t op)
  | .executeTrade .. => inferInstanceAs (Decidable (_ ∧ _))
  | .applyTrade _ => inferInstanceAs (Decidable (_ ∧ _))
  | .processDividend .. => isTrue trivial
  | .processSplit .. => isTrue trivial
  | .advanceDay => inferInstanceAs (Decidable (_ ≤ _))
  | .setStockNames _ => isTrue trivial

/-- One share sold short at 1 with no cash; and one of ten shares, which took all the cash, sold at 1. -/
theorem minimumCommission_overdraws :
    (Guarded step Trades (interestFreeTracker 0) [.executeTrade "600000.SH" .short 1 1 (Time.date 2024 1 2) none] ∧
      (run step (interestFreeTracker 0) [.executeTrade "600000.SH" .short 1 1 (Time.date 2024 1 2) none]).cash < 0) ∧
    Guarded step Trades (interestFreeTracker (150001/10000))
      [.executeTrade "600000.SH" .long 10 1 (Time.date 2024 1 2) none,.advanceDay,
        .executeTrade "600000.SH" .close 1 1 (Time.date 2024 1 3) none] ∧
    (run step (interestFreeTracker (150001/10000))
      [.executeTrade "600000.SH" .long 10 1 (Time.date 2024 1 2) none,.advanceDay,
        .executeTrade "600000.SH" .close 1 1 (Time.date 2024 1 3) none]).cash < 0 := by
  decide +kernel

end QuantTrading.Tracker
