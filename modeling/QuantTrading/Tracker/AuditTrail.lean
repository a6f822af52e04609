import QuantTrading.Library.Outcome
import QuantTrading.Tracker.Operations

/-! The records of a fill against what it did to the position. The trade and the order are drafted
with the quantity the day's volume allows; a close then books what settlement and the position
leave of the request, and only the trade's `Quantity` is corrected.
-/
namespace QuantTrading.Tracker
open Library
open Position (buy opened sellShort)

structure Recorded (t t' : Tracker) (symbol : String) (quantity filled : ℚ) (trade : Trade) : Prop where
  filledQty : trade.filledQty = filled
  pendingQty : trade.pendingQty = quantity - filled
  order : ∃ order, t'.orderLog = t.orderLog ++ [order] ∧ order.symbol = symbol ∧ order.filledQty = filled

variable {request : ℚ} {symbol : String} {trade : Trade}

theorem bookClose_record {t t' : Tracker} {draft : Trade} {flag : Bool}
    (accepted : t.bookClose draft request flag = .ok (trade,t')) :
    trade.filledQty = draft.filledQty ∧ trade.pendingQty = draft.pendingQty := by
  obtain ⟨pos,received,left,-,⟨-,closed⟩ | ⟨-,closed⟩,-⟩ := bookClose_cases accepted
  · unfold closeLong at closed
    dsimp only at closed
    iterate 2 (split at closed; · cases closed)
    cases closed
    exact ⟨rfl,rfl⟩
  · unfold closeShort at closed
    dsimp only at closed
    split at closed
    · cases closed
    cases closed
    exact ⟨rfl,rfl⟩

variable (pos : Position) (entry : Option Position) (t : Tracker)

theorem bookExecuted_record {t t' : Tracker} {draft : Trade} (accepted : t.bookExecuted draft request = (.ok trade,t')) :
    trade.filledQty = draft.filledQty ∧ trade.pendingQty = draft.pendingQty := by
  rcases bookTrade_ok accepted with ⟨-,rfl,-⟩ | ⟨-,rfl,-⟩ | ⟨-,closed⟩ | ⟨-,rfl,-⟩
  · exact ⟨rfl,rfl⟩
  · exact ⟨rfl,rfl⟩
  · exact bookClose_record closed
  · exact ⟨rfl,rfl⟩

theorem executeTrade_recorded {t t' : Tracker} {direction : Direction} {quantity price : ℚ} {timestamp : Time}
    {opts : Option OrderExecutionOpts}
    (accepted : t.executeTrade symbol direction quantity price timestamp opts = (.ok trade,t')) :
    Recorded t t' symbol quantity (t.filledQty quantity (opts.getD ⟨.market,price,none⟩).dayBar) trade := by
  obtain ⟨_,t₁,order,-,booked,same,filledQty,rfl⟩ := executeTrade_cases accepted
  obtain ⟨filled,pending⟩ := bookExecuted_record booked
  obtain ⟨-,-,log,-⟩ := ((bookTrade_framed booked).trans (markPosition_framed t₁ symbol price)).records
  exact ⟨filled,pending,order,congrArg (· ++ [_]) log,same,filledQty⟩

def closable (request : ℚ) : ℚ :=
  if 0 < pos.quantity then min pos.quantityYesterday (min request pos.quantity) else min request (-pos.quantity)

/-- The quantity a fill is recorded with is the one by which it moves the position. A rest below the
flat threshold is dropped with the position, so there the whole position has to be filled. -/
def FillsExactly (symbol : String) (direction : Direction) (quantity filled : ℚ) : Prop :=
  match direction with
  | .long => 0 ≤ filled ∧
    ∀ pos, t.positions[symbol]? = some pos → isFlat (pos.quantity + filled) = true → filled = |pos.quantity|
  | .short => 0 ≤ filled ∧
    ∀ pos, t.positions[symbol]? = some pos → isFlat (pos.quantity - filled) = true → filled = |pos.quantity|
  | .close => ∀ pos, t.positions[symbol]? = some pos →
    filled = closable pos quantity ∧ (isFlat (|pos.quantity| - filled) = true → filled = |pos.quantity|)
  | .hold => filled = 0

section
variable (symbol : String) (qty price : ℚ) (timestamp : Time)

theorem buy_moves_iff : |entryQuantity (buy entry symbol qty price timestamp) - entryQuantity entry| = qty ↔
      0 ≤ qty ∧ ∀ pos, entry = some pos → isFlat (pos.quantity + qty) = true → qty = |pos.quantity| := by
  cases entry with
  | none => simp [buy,opened,entryQuantity,abs_eq_self]
  | some pos =>
    by_cases flat : isFlat (pos.quantity + qty) = true
    · simp only [buy,flat,if_true,entryQuantity,map_none,map_some,getD_none,
        getD_some,zero_sub,abs_neg,Option.some.injEq,forall_eq',forall_const]
      constructor
      · intro same
        exact ⟨same ▸ abs_nonneg _,same.symm⟩
      · exact fun both => both.2.symm
    · simp only [buy,flat,if_false,entryQuantity,map_some,getD_some,add_sub_cancel_left,
        Option.some.injEq,forall_eq',false_imp_iff,and_true,abs_eq_self,Bool.false_eq_true]

theorem sellShort_moves_iff : |entryQuantity (sellShort entry symbol qty price timestamp) - entryQuantity entry| = qty ↔
      0 ≤ qty ∧ ∀ pos, entry = some pos → isFlat (pos.quantity - qty) = true → qty = |pos.quantity| := by
  cases entry with
  | none => simp [sellShort,opened,entryQuantity,abs_eq_self]
  | some pos =>
    by_cases flat : isFlat (pos.quantity - qty) = true
    · simp only [sellShort,flat,if_true,entryQuantity,map_none,map_some,getD_none,
        getD_some,zero_sub,abs_neg,Option.some.injEq,forall_eq',forall_const]
      constructor
      · intro same
        exact ⟨same ▸ abs_nonneg _,same.symm⟩
      · exact fun both => both.2.symm
    · simp only [sellShort,flat,if_false,entryQuantity,map_some,getD_some,sub_sub_cancel_left,
        abs_neg,Option.some.injEq,forall_eq',false_imp_iff,and_true,abs_eq_self,Bool.false_eq_true]

end

theorem isFlat_neg (quantity : ℚ) : isFlat (-quantity) = isFlat quantity := by
  unfold isFlat
  rw [abs_neg]

theorem unlessFlat_moves (left : Position) (taken : ℚ) (some_ : 0 < taken)
    (toward : left.quantity = pos.quantity - taken ∧ 0 < pos.quantity ∨ left.quantity = pos.quantity + taken ∧ pos.quantity < 0) :
    |entryQuantity left.unlessFlat - pos.quantity| =
      if isFlat (|pos.quantity| - taken) = true then |pos.quantity| else taken := by
  have flat : isFlat left.quantity = isFlat (|pos.quantity| - taken) := by
    rcases toward with ⟨rest,positive⟩ | ⟨rest,negative⟩
    · rw [rest,abs_of_pos positive]
    · rw [rest,abs_of_neg negative,← isFlat_neg]
      congr 1
      ring
  unfold Position.unlessFlat
  rw [flat]
  split
  · simp [entryQuantity]
  have moved : |left.quantity - pos.quantity| = taken := by
    rcases toward with ⟨rest,_⟩ | ⟨rest,_⟩
    · rw [rest,sub_sub_cancel_left,abs_neg,abs_of_pos some_]
    · rw [rest,add_sub_cancel_left,abs_of_pos some_]
  exact moved

theorem close_moves_iff (whole taken filled : ℚ) :
    ((if isFlat (whole - taken) = true then whole else taken) = filled ∧
      (if isFlat (whole - taken) = true then whole else taken) = taken) ↔
    filled = taken ∧ (isFlat (whole - filled) = true → filled = whole) := by
  split
  · rename_i flat
    constructor
    · rintro ⟨rfl,same⟩
      exact ⟨same,fun _ => rfl⟩
    · rintro ⟨rfl,all⟩
      exact ⟨(all flat).symm,(all flat).symm⟩
  · rename_i kept
    constructor
    · rintro ⟨rfl,_⟩
      exact ⟨rfl,fun flat => absurd flat kept⟩
    · rintro ⟨rfl,_⟩
      exact ⟨rfl,rfl⟩

/-- What the records of a call say, against the position before and after it. -/
structure Audited (t t' : Tracker) (symbol : String) (requested : ℚ) (trade : Trade) : Prop where
  appended : t'.trades = t.trades ++ [trade]
  order : ∃ order, t'.orderLog = t.orderLog ++ [order] ∧ order.filledQty = |t'.held symbol - t.held symbol|
  quantity : trade.quantity = |t'.held symbol - t.held symbol|
  filledQty : trade.filledQty = |t'.held symbol - t.held symbol|
  pendingQty : trade.pendingQty = requested - |t'.held symbol - t.held symbol|

/-- The records agree when both quantities of the trade are the change: the order and the pending
quantity repeat the filled one. -/
theorem audited_iff {t t' : Tracker} {quantity filled : ℚ} (appended : t'.trades = t.trades ++ [trade])
    (recorded : Recorded t t' symbol quantity filled trade) : Audited t t' symbol quantity trade ↔
      |t'.held symbol - t.held symbol| = filled ∧ |t'.held symbol - t.held symbol| = trade.quantity := by
  constructor
  · intro audited
    exact ⟨audited.filledQty.symm.trans recorded.filledQty,audited.quantity.symm⟩
  · rintro ⟨filled_eq,quantity_eq⟩
    obtain ⟨order,log,_,orderFilled⟩ := recorded.order
    exact ⟨appended,⟨order,log,orderFilled.trans filled_eq.symm⟩,quantity_eq.symm,recorded.filledQty.trans filled_eq.symm,
      by rw [recorded.pendingQty,filled_eq]⟩

theorem executeTrade_audited_iff (t' : Tracker) (symbol : String) (direction : Direction) (quantity price : ℚ)
    (timestamp : Time) (opts : Option OrderExecutionOpts) (trade : Trade)
    (accepted : t.executeTrade symbol direction quantity price timestamp opts = (.ok trade,t')) :
    Audited t t' symbol quantity trade ↔
      FillsExactly t symbol direction quantity (t.filledQty quantity (opts.getD ⟨.market,price,none⟩).dayBar) := by
  have executed := executeTrade_ok accepted
  have recorded := executeTrade_recorded accepted
  rw [audited_iff executed.posted.trades recorded]
  have drafted (open_ : direction ≠ .close) :
      trade.quantity = t.filledQty quantity (opts.getD ⟨.market,price,none⟩).dayBar := by
    rw [executed.drafted open_]
    rfl
  obtain ⟨entry,booked,left⟩ := executed.posted.held
  have named := executed.symbol
  subst named
  rw [left]
  change |entryQuantity entry - entryQuantity t.positions[trade.symbol]?| = _ ∧
    |entryQuantity entry - entryQuantity t.positions[trade.symbol]?| = _ ↔ _
  generalize t.filledQty quantity (opts.getD ⟨.market,price,none⟩).dayBar = filled at drafted ⊢
  have side := executed.direction
  generalize t'.cash = cash at booked
  cases booked with
  | long bought =>
    have direction_eq := side.symm.trans bought
    rw [direction_eq] at drafted ⊢
    rw [drafted (by simp),and_self,buy_moves_iff]
    rfl
  | short sold =>
    have direction_eq := side.symm.trans sold
    rw [direction_eq] at drafted ⊢
    rw [drafted (by simp),and_self,sellShort_moves_iff]
    rfl
  | closeLong pos closed held positive _ sold some_ =>
    have taken : closable pos quantity = trade.quantity := by rw [closable,if_pos positive,sold]
    have moved := unlessFlat_moves pos (soldFrom pos trade) trade.quantity some_ (.inl ⟨rfl,positive⟩)
    rw [held,entryQuantity_some,moved,close_moves_iff,side.symm.trans closed]
    simp only [FillsExactly,held,Option.some.injEq,forall_eq',taken]
  | closeShort pos closed held negative bought some_ =>
    have taken : closable pos quantity = trade.quantity := by rw [closable,if_neg (not_lt.mpr negative.le),bought]
    have moved := unlessFlat_moves pos (boughtBack pos trade) trade.quantity some_ (.inr ⟨rfl,negative⟩)
    rw [held,entryQuantity_some,moved,close_moves_iff,side.symm.trans closed]
    simp only [FillsExactly,held,Option.some.injEq,forall_eq',taken]
  | hold kept =>
    have direction_eq := side.symm.trans kept
    rw [direction_eq] at drafted ⊢
    rw [drafted (by simp),and_self,sub_self,abs_zero]
    exact eq_comm

/-- A successful `ExecuteTrade` is recorded as it moved the position. -/
def AuditedCall : Op → Prop
  | .executeTrade symbol direction quantity price timestamp opts =>
    ∀ trade t', t.executeTrade symbol direction quantity price timestamp opts = (.ok trade,t') →
      Audited t t' symbol quantity trade
  | _ => True

def FillsCall : Op → Prop
  | .executeTrade symbol direction quantity price timestamp opts =>
    (t.executeTrade symbol direction quantity price timestamp opts).1.isOk = true →
      FillsExactly t symbol direction quantity (t.filledQty quantity (opts.getD ⟨.market,price,none⟩).dayBar)
  | _ => True

theorem auditedCall_iff (op : Op) : AuditedCall t op ↔ FillsCall t op := by
  cases op with
  | executeTrade =>
    constructor
    · intro audited ok
      obtain ⟨trade,accepted⟩ := exists_ok ok
      exact (executeTrade_audited_iff t _ _ _ _ _ _ _ trade (Prod.ext accepted rfl)).mp (audited trade _ (Prod.ext accepted rfl))
    · intro fills trade t' accepted
      exact (executeTrade_audited_iff t t' _ _ _ _ _ _ trade accepted).mpr (fills (by rw [accepted]; rfl))
  | _ => exact Iff.rfl

/-- The records of every successful call of a history agree with its positions exactly when every
one of them fills what it is drafted for. -/
theorem history_audited_iff (t : Tracker) (ops : List Op) :
    Guarded step AuditedCall t ops ↔ Guarded step FillsCall t ops :=
  guarded_congr auditedCall_iff t ops

def boughtTracker : Tracker :=
  run step (newTracker 100000 0 0 defaultTradingConfig)
    [.executeTrade "600000.SH" .long 100 10 (Time.date 2024 1 2) none,.advanceDay]

def oversizedClose : Op := .executeTrade "600000.SH" .close 200 10 (Time.date 2024 1 3) none

/-- 100 shares are held and 200 ordered closed: the trade is for 100 shares and filled 200, like
its order, with nothing pending. -/
theorem oversizedClose_misrecorded :
    boughtTracker.held "600000.SH" = 100 ∧ (boughtTracker.step oversizedClose).held "600000.SH" = 0 ∧
    (boughtTracker.step oversizedClose).trades.map (fun trade => (trade.quantity,trade.filledQty,trade.pendingQty)) =
      [(100,100,0),(100,200,0)] ∧ (boughtTracker.step oversizedClose).orderLog.map (·.filledQty) = [100,200] ∧
    ¬ Guarded step AuditedCall boughtTracker [oversizedClose] := by
  refine ⟨by decide +kernel,by decide +kernel,by decide +kernel,by decide +kernel,?_⟩
  intro audited
  have fills : FillsCall boughtTracker oversizedClose := (auditedCall_iff _ _).mp audited.1
  have closes := fills (by decide +kernel)
  obtain ⟨pos,found,short⟩ : ∃ pos, boughtTracker.positions["600000.SH"]? = some pos ∧ 200 ≠ closable pos 200 := by decide +kernel
  exact short (closes pos found).1

end QuantTrading.Tracker
