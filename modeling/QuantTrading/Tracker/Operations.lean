import QuantTrading.Tracker.Booking

/-! Histories of tracker calls, and the histories that keep whole shares: every stored
quantity stays an integer when each trade and each split credit is one.
-/
namespace QuantTrading.Tracker
open Library

inductive Op where
  | executeTrade (symbol : String) (direction : Direction) (quantity price : ℚ) (timestamp : Time)
      (opts : Option OrderExecutionOpts)
  | applyTrade (trade : Trade)
  | processDividend (symbol : String) (dividend : Dividend)
  | processSplit (symbol : String) (split : Split)
  | advanceDay
  | setStockNames (names : Book String String)

variable (t : Tracker) (symbol : String)

def step : Op → Tracker
  | .executeTrade symbol direction quantity price timestamp opts =>
    (t.executeTrade symbol direction quantity price timestamp opts).2
  | .applyTrade trade => (t.applyTrade trade).2
  | .processDividend symbol dividend => t.processDividend symbol dividend
  | .processSplit symbol split => t.processSplit symbol split
  | .advanceDay => t.advanceDay
  | .setStockNames names => t.setStockNames names

theorem processDividend_positions (dividend : Dividend) :
    (t.processDividend symbol dividend).positions = t.positions := by
  unfold processDividend
  split
  · rfl
  · split <;> rfl

theorem advanceDay_positions : t.advanceDay.positions = t.positions.map fun _ pos => pos.rollOver := by
  unfold advanceDay
  dsimp only
  split <;> rfl

theorem processSplit_positions (split : Split) : (t.processSplit symbol split).positions = t.positions ∨
    ∃ pos, t.positions[symbol]? = some pos ∧ 0 < pos.quantity ∧
      (t.processSplit symbol split).positions = t.positions.put symbol (some (pos.split split.stkDivRatio)) := by
  unfold processSplit
  split
  · exact .inl rfl
  rename_i pos held
  split
  · exact .inl rfl
  rename_i positive
  exact .inr ⟨pos,held,not_le.mp positive,rfl⟩

/-- The entry of a symbol after a call: what its positions' invariants are about. A call either
leaves every entry, posts one record, credits one split or rolls every entry over. -/
inductive Change (t : Tracker) (op : Op) : Book String Position → Prop where
  | kept : Change t op t.positions
  | executed {symbol : String} {direction : Direction} {quantity price : ℚ} {timestamp : Time}
      {opts : Option OrderExecutionOpts} {trade : Trade} {t' : Tracker}
      (call : op = .executeTrade symbol direction quantity price timestamp opts)
      (accepted : t.executeTrade symbol direction quantity price timestamp opts = (.ok trade,t')) :
      Change t op t'.positions
  | applied {draft trade : Trade} {t' : Tracker} (call : op = .applyTrade draft)
      (accepted : t.applyTrade draft = (.ok trade,t')) : Change t op t'.positions
  | split {symbol : String} {split : Split} {pos : Position} (call : op = .processSplit symbol split)
      (held : t.positions[symbol]? = some pos) (positive : 0 < pos.quantity) :
      Change t op (t.positions.put symbol (some (pos.split split.stkDivRatio)))
  | rolled (call : op = .advanceDay) : Change t op (t.positions.map fun _ pos => pos.rollOver)

theorem step_change (op : Op) : Change t op (t.step op).positions := by
  cases op with
  | executeTrade symbol direction quantity price timestamp opts =>
    change Change t _ (t.executeTrade symbol direction quantity price timestamp opts).2.positions
    rcases result : t.executeTrade symbol direction quantity price timestamp opts with ⟨e | trade,t'⟩
    · rw [(executeTrade_error result).positions]
      exact .kept
    · exact .executed rfl result
  | applyTrade draft =>
    change Change t _ (t.applyTrade draft).2.positions
    rcases result : t.applyTrade draft with ⟨e | trade,t'⟩
    · rw [(applyTrade_error result).positions]
      exact .kept
    · exact .applied rfl result
  | processDividend symbol dividend =>
    change Change t _ (t.processDividend symbol dividend).positions
    rw [processDividend_positions]
    exact .kept
  | processSplit symbol split =>
    change Change t _ (t.processSplit symbol split).positions
    rcases processSplit_positions t symbol split with same | ⟨pos,held,positive,credited⟩
    · rw [same]
      exact .kept
    · rw [credited]
      exact .split rfl held positive
  | advanceDay =>
    change Change t _ t.advanceDay.positions
    rw [advanceDay_positions]
    exact .rolled rfl
  | setStockNames => exact .kept

def Whole (q : ℚ) : Prop := ∃ n : ℤ, q = n

theorem Whole.zero : Whole 0 := ⟨0,by simp⟩

variable {a : ℚ} {t : Tracker} {trade : Trade}

variable {b : ℚ}

theorem Whole.add : Whole a → Whole b → Whole (a + b) := by
  rintro ⟨m,rfl⟩ ⟨n,rfl⟩
  exact ⟨m + n,by push_cast; ring⟩

theorem Whole.neg : Whole a → Whole (-a) := by
  rintro ⟨m,rfl⟩
  exact ⟨-m,by push_cast; ring⟩

theorem Whole.sub (left : Whole a) (right : Whole b) : Whole (a - b) := by
  rw [sub_eq_add_neg]
  exact left.add right.neg

theorem Whole.min (left : Whole a) (right : Whole b) : Whole (min a b) := by
  rcases min_choice a b with first | second
  · rw [first]; exact left
  · rw [second]; exact right

theorem Whole.isFlat (whole : Whole a) : isFlat a = true ↔ a = 0 := by
  obtain ⟨n,rfl⟩ := whole
  rw [isFlat_intCast]
  exact Int.cast_eq_zero.symm

structure WholePosition (pos : Position) : Prop where
  quantity : Whole pos.quantity
  quantityToday : Whole pos.quantityToday
  quantityYesterday : Whole pos.quantityYesterday

def WholeEntry (entry : Option Position) : Prop := ∀ pos, entry = some pos → WholePosition pos

def WholeBook (t : Tracker) : Prop := t.positions.All fun _ pos => WholePosition pos

theorem WholeBook.entry (whole : WholeBook t) (symbol : String) : WholeEntry t.positions[symbol]? :=
  fun pos held => whole symbol pos held

def WholeShares (t : Tracker) : Op → Prop
  | .executeTrade _ _ quantity price _ opts =>
    Whole quantity ∧ Whole (t.filledQty quantity (opts.getD ⟨.market,price,none⟩).dayBar)
  | .applyTrade trade => Whole trade.quantity
  | .processSplit symbol split =>
    ∀ pos, t.positions[symbol]? = some pos → Whole (pos.quantity * split.stkDivRatio)
  | _ => True

theorem Written.wholePosition {pos : Position} (written : Written t trade pos) (whole : WholeBook t)
    (order : Whole trade.quantity) : WholePosition pos := by
  cases written with
  | opened => exact ⟨order,order,Whole.zero⟩
  | added _ held _ =>
    have prior := whole _ _ held
    refine ⟨prior.quantity.add order,?_,prior.quantityYesterday⟩
    split
    · exact Whole.zero.add order
    · exact prior.quantityToday.add order
  | shorted => exact ⟨order.neg,Whole.zero,Whole.zero⟩
  | reduced _ held _ =>
    have prior := whole _ _ held
    exact ⟨prior.quantity.sub order,prior.quantityToday,prior.quantityYesterday⟩
  | sold held _ _ _ =>
    have prior := whole _ _ held
    exact ⟨prior.quantity.sub order,prior.quantityToday,prior.quantityYesterday.sub order⟩
  | bought held _ _ _ =>
    have prior := whole _ _ held
    exact ⟨prior.quantity.add order,prior.quantityToday,prior.quantityYesterday⟩
  | kept _ held => exact whole _ _ held

theorem Written.nonzero {pos : Position} (written : Written t trade pos) (ordered : 0 < trade.quantity)
    (open_ : t.positions.All fun _ pos => pos.quantity ≠ 0) : pos.quantity ≠ 0 := by
  have unflat : ∀ {quantity : ℚ}, ¬ QuantTrading.isFlat quantity = true → quantity ≠ 0 := by
    rintro _ remains rfl
    exact remains (Whole.zero.isFlat.mpr rfl)
  cases written with
  | opened => exact ordered.ne'
  | shorted => exact neg_ne_zero.mpr ordered.ne'
  | added _ _ remains | reduced _ _ remains | sold _ _ _ remains | bought _ _ _ remains => exact unflat remains
  | kept _ held => exact open_ _ _ held

theorem Booked.whole_quantity {request fees cash : ℚ} {entry : Option Position}
    (booked : Booked t request fees trade cash entry) (whole : WholeBook t) (asked : Whole request)
    (drafted : trade.direction ≠ .close → Whole trade.quantity) : Whole trade.quantity := by
  cases booked with
  | long side _ | short side | hold side => exact drafted (by simp [side])
  | closeLong pos side held positive settled sold =>
    have prior := whole _ _ held
    rw [sold]
    exact prior.quantityYesterday.min (asked.min prior.quantity)
  | closeShort pos side held negative bought =>
    rw [bought]
    exact asked.min (whole _ _ held).quantity.neg

theorem Posted.wholeBook {t' : Tracker} {request fees price : ℚ}
    (posted : Posted t request fees price trade t') (whole : WholeBook t) (asked : Whole request)
    (drafted : trade.direction ≠ .close → Whole trade.quantity) : WholeBook t' := by
  obtain ⟨entry,booked,_⟩ := posted.entry
  have order := booked.whole_quantity whole asked drafted
  exact posted.all whole (fun _ prior => ⟨prior.quantity,prior.quantityToday,prior.quantityYesterday⟩)
    fun _ written => written.wholePosition whole order

theorem step_wholeBook (t : Tracker) (op : Op) (whole : WholeBook t) (legal : WholeShares t op) :
    WholeBook (t.step op) := by
  have change := step_change t op
  unfold WholeBook
  generalize (t.step op).positions = after at change ⊢
  cases change with
  | kept => exact whole
  | executed call accepted =>
    subst call
    have executed := executeTrade_ok accepted
    refine executed.posted.wholeBook whole legal.1 ?_
    intro open_
    rw [executed.drafted (by rw [← executed.direction]; exact open_)]
    exact legal.2
  | applied call accepted =>
    subst call
    have applied := applyTrade_ok accepted
    refine applied.posted.wholeBook whole legal ?_
    intro open_
    rw [applied.drafted (by rw [← applied.order.direction]; exact open_)]
    exact legal
  | split call held =>
    subst call
    have prior := whole _ _ held
    have credit := legal _ held
    apply whole.put
    intro pos written
    cases written
    unfold Position.split
    split
    · exact ⟨prior.quantity.add credit,prior.quantityToday.add credit,prior.quantityYesterday⟩
    · exact prior
  | rolled =>
    refine Book.All.map whole _ ?_
    intro symbol pos prior
    unfold Position.rollOver
    split
    · exact ⟨prior.quantity,Whole.zero,prior.quantityYesterday.add prior.quantityToday⟩
    · exact prior

def WholeReachable (t : Tracker) : Prop :=
  ∃ (capital commission slippage : ℚ) (trading : TradingConfig) (ops : List Op),
    Guarded step WholeShares (newTracker capital commission slippage trading) ops ∧
      run step (newTracker capital commission slippage trading) ops = t

theorem WholeReachable.wholeBook (reachable : WholeReachable t) : WholeBook t := by
  obtain ⟨capital,commission,slippage,trading,ops,guarded,rfl⟩ := reachable
  exact run_invariant step_wholeBook (Book.all_empty _) guarded

end QuantTrading.Tracker
