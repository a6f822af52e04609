import QuantTrading.Tracker

/-! What a booked trade can do. Both booking paths are inverted once, into the relation
`Booked`; every law of the tracker is read off its five cases. A rejected call keeps
the cash, the positions and the configuration.
-/
namespace QuantTrading.Tracker
open Library
open Position (buy opened sellShort unlessFlat)

structure SameConfig (t t' : Tracker) : Prop where
  commissionRate : t'.commissionRate = t.commissionRate
  slippageRate : t'.slippageRate = t.slippageRate
  liquidityFactor : t'.liquidityFactor = t.liquidityFactor
  shortSellingRate : t'.shortSellingRate = t.shortSellingRate
  trading : t'.trading = t.trading
  stockNames : t'.stockNames = t.stockNames

theorem SameConfig.refl (t : Tracker) : SameConfig t t := ⟨rfl,rfl,rfl,rfl,rfl,rfl⟩

variable {t t' : Tracker} {symbol : String} {price request : ℚ} {e : TradeError} {draft : Trade} {flag : Bool}
   {direction : Direction} {opts : Option OrderExecutionOpts}

theorem SameConfig.trans {u v : Tracker} (first : SameConfig t u) (second : SameConfig u v) : SameConfig t v :=
  ⟨second.commissionRate.trans first.commissionRate,second.slippageRate.trans first.slippageRate,
    second.liquidityFactor.trans first.liquidityFactor,second.shortSellingRate.trans first.shortSellingRate,
    second.trading.trans first.trading,second.stockNames.trans first.stockNames⟩

theorem SameConfig.feeSchedule (same : SameConfig t t') (asOf : Time) :
    t'.feeSchedule asOf = t.feeSchedule asOf := by
  simp only [Tracker.feeSchedule,same.commissionRate,same.slippageRate,same.trading]

/-- The account a call leaves when it does not book: everything a later fill reads. -/
structure SameAccount (t t' : Tracker) : Prop extends SameConfig t t' where
  cash : t'.cash = t.cash
  positions : t'.positions = t.positions
  trades : t'.trades = t.trades

theorem SameAccount.refl (t : Tracker) : SameAccount t t := ⟨SameConfig.refl t,rfl,rfl,rfl⟩

theorem enforce_account (t : Tracker) (symbol : String) (qty : ℚ) (asOf : Time) :
    SameAccount t (t.enforceRiskWarningDailyBuy symbol qty asOf).2 := by
  unfold enforceRiskWarningDailyBuy
  iterate 2 (split; · exact SameAccount.refl t)
  dsimp only
  split_ifs <;> exact ⟨⟨rfl,rfl,rfl,rfl,rfl,rfl⟩,rfl,rfl,rfl⟩

/-- What the booking paths write before the records: cash, positions and the counts of the day. -/
inductive Framed (t : Tracker) : Tracker → Prop where
  | intro (cash : ℚ) (positions : Book String Position) (counts : Book String ℚ) (day : Time) :
      Framed t { t with cash := cash, positions := positions, dailyRWBuy := counts, dailyRWBuyDay := day }

theorem Framed.trans {u v : Tracker} (first : Framed t u) (second : Framed u v) : Framed t v := by
  cases first
  cases second
  exact ⟨_,_,_,_⟩

theorem Framed.records (framed : Framed t t') : SameConfig t t' ∧ t'.trades = t.trades ∧ t'.orderLog = t.orderLog ∧
    t'.portfolioValues = t.portfolioValues := by
  cases framed
  exact ⟨⟨rfl,rfl,rfl,rfl,rfl,rfl⟩,rfl,rfl,rfl⟩

section
variable (t : Tracker) (symbol : String)

theorem enforce_framed (qty : ℚ) (asOf : Time) : Framed t (t.enforceRiskWarningDailyBuy symbol qty asOf).2 := by
  unfold enforceRiskWarningDailyBuy
  iterate 2 (split; · exact ⟨_,_,_,_⟩)
  dsimp only
  split_ifs <;> exact ⟨_,_,_,_⟩

theorem bookLong_framed (qty price cost : ℚ) (timestamp : Time) :
    Framed t (t.bookLong symbol qty price cost timestamp).2 := by
  have enforced := enforce_framed t symbol qty timestamp
  unfold bookLong
  split
  · exact ⟨_,_,_,_⟩
  split
  next refused =>
    rw [refused] at enforced
    exact enforced
  next allowed =>
    rw [allowed] at enforced
    exact enforced.trans ⟨_,_,_,_⟩

theorem markPosition_framed (price : ℚ) : Framed t (t.markPosition symbol price) := by
  unfold markPosition
  split <;> exact ⟨_,_,_,_⟩

end

/-- The fees a booked record stands for. Only the buy-back of a short leaves its recorded
stamp tax out of the settlement. -/
def settledFees (t : Tracker) (trade : Trade) : ℚ :=
  match t.positions[trade.symbol]? with
  | some pos =>
    if trade.direction = .close ∧ pos.quantity < 0 then trade.commission + trade.transferFee
    else trade.commission + trade.transferFee + trade.stampTax
  | none => trade.commission + trade.transferFee + trade.stampTax

variable (pos : Position) {timestamp : Time}

def soldFrom (trade : Trade) : Position :=
  { pos with
    quantityYesterday := pos.quantityYesterday - trade.quantity
    realizedPnL := pos.realizedPnL +
      ((trade.price - pos.avgCost) * trade.quantity - trade.commission - trade.stampTax)
    quantity := pos.quantity - trade.quantity }

def boughtBack (trade : Trade) : Position :=
  { pos with
    realizedPnL := pos.realizedPnL +
      ((pos.avgCost - trade.price) * trade.quantity - trade.commission - trade.transferFee)
    quantity := pos.quantity + trade.quantity }

/-- `Booked t request fees trade cash entry`: booking `trade` with `fees` against a request for
`request` shares leaves `cash` and, for the trade's symbol, `entry`. -/
inductive Booked (t : Tracker) (request fees : ℚ) (trade : Trade) : ℚ → Option Position → Prop where
  | long (side : trade.direction = .long) (affordable : trade.quantity * trade.price + fees ≤ t.cash) :
      Booked t request fees trade (t.cash - (trade.quantity * trade.price + fees))
        (buy t.positions[trade.symbol]? trade.symbol trade.quantity trade.price trade.timestamp)
  | short (side : trade.direction = .short) :
      Booked t request fees trade (t.cash + (trade.quantity * trade.price - fees))
        (sellShort t.positions[trade.symbol]? trade.symbol trade.quantity trade.price trade.timestamp)
  | closeLong (pos : Position) (side : trade.direction = .close) (held : t.positions[trade.symbol]? = some pos)
      (positive : 0 < pos.quantity)
      (settled : ¬ (pos.buyDate.truncateDay = trade.timestamp.truncateDay ∧ pos.quantityYesterday = 0))
      (sold : trade.quantity = min pos.quantityYesterday (min request pos.quantity)) (some_ : 0 < trade.quantity) :
      Booked t request fees trade (t.cash + (trade.quantity * trade.price - fees))
        (soldFrom pos trade).unlessFlat
  | closeShort (pos : Position) (side : trade.direction = .close) (held : t.positions[trade.symbol]? = some pos)
      (negative : pos.quantity < 0) (bought : trade.quantity = min request (-pos.quantity)) (some_ : 0 < trade.quantity) :
      Booked t request fees trade (t.cash + (trade.quantity * trade.price - fees))
        (boughtBack pos trade).unlessFlat
  | hold (side : trade.direction = .hold) : Booked t request fees trade t.cash t.positions[trade.symbol]?

/-- How an entry there after a booked trade was written. -/
inductive Written (t : Tracker) (trade : Trade) : Position → Prop where
  | opened (side : trade.direction = .long) : Written t trade
      { opened trade.symbol trade.quantity trade.price trade.timestamp with
        buyDate := trade.timestamp, quantityToday := trade.quantity }
  | added {before : Position} (side : trade.direction = .long) (held : t.positions[trade.symbol]? = some before)
      (remains : ¬ isFlat (before.quantity + trade.quantity) = true) : Written t trade
      { before with
        avgCost := (before.avgCost * before.quantity + trade.price * trade.quantity) / (before.quantity + trade.quantity)
        quantity := before.quantity + trade.quantity
        entryDate := trade.timestamp
        quantityToday :=
          (if before.buyDate.truncateDay ≠ trade.timestamp.truncateDay then 0 else before.quantityToday) + trade.quantity
        buyDate := trade.timestamp }
  | shorted (side : trade.direction = .short) :
      Written t trade (opened trade.symbol (-trade.quantity) trade.price trade.timestamp)
  | reduced {before : Position} (side : trade.direction = .short) (held : t.positions[trade.symbol]? = some before)
      (remains : ¬ isFlat (before.quantity - trade.quantity) = true) :
      Written t trade { before with quantity := before.quantity - trade.quantity }
  | sold {before : Position} (held : t.positions[trade.symbol]? = some before) (positive : 0 < before.quantity)
      (available : trade.quantity ≤ before.quantityYesterday) (remains : ¬ isFlat (soldFrom before trade).quantity = true) :
      Written t trade (soldFrom before trade)
  | bought {before : Position} (held : t.positions[trade.symbol]? = some before) (negative : before.quantity < 0)
      (owed : trade.quantity ≤ -before.quantity) (remains : ¬ isFlat (boughtBack before trade).quantity = true) :
      Written t trade (boughtBack before trade)
  | kept {before : Position} (side : trade.direction = .hold) (held : t.positions[trade.symbol]? = some before) :
      Written t trade before

theorem of_unlessFlat {left pos : Position} (stored : left.unlessFlat = some pos) :
    ¬ isFlat left.quantity = true ∧ pos = left := by
  unfold unlessFlat at stored
  split at stored
  · cases stored
  rename_i remains
  cases stored
  exact ⟨remains,rfl⟩

theorem Booked.written {fees cash : ℚ} {trade : Trade} {entry : Option Position} {pos : Position}
    (booked : Booked t request fees trade cash entry) (stored : entry = some pos) : Written t trade pos := by
  cases booked with
  | long side _ =>
    cases held : t.positions[trade.symbol]? with
    | none =>
      rw [held] at stored
      cases stored
      exact .opened side
    | some before =>
      simp only [held,buy] at stored
      split at stored
      · cases stored
      rename_i remains
      cases stored
      exact .added side held remains
  | short side =>
    cases held : t.positions[trade.symbol]? with
    | none =>
      rw [held] at stored
      cases stored
      exact .shorted side
    | some before =>
      simp only [held,sellShort] at stored
      split at stored
      · cases stored
      rename_i remains
      cases stored
      exact .reduced side held remains
  | closeLong before side held positive _ sold _ =>
    obtain ⟨remains,rfl⟩ := of_unlessFlat stored
    exact .sold held positive (sold.le.trans (min_le_left _ _)) remains
  | closeShort before side held negative bought _ =>
    obtain ⟨remains,rfl⟩ := of_unlessFlat stored
    exact .bought held negative (bought.le.trans (min_le_right _ _)) remains
  | hold side => exact .kept side stored

theorem bookLong_error {qty cost : ℚ} (rejected : t.bookLong symbol qty price cost timestamp = (.error e,t')) :
    SameAccount t t' := by
  have account := enforce_account t symbol qty timestamp
  unfold bookLong at rejected
  split at rejected
  · cases rejected
    exact SameAccount.refl t
  · split at rejected
    next refused =>
      cases rejected
      rw [refused] at account
      exact account
    · cases rejected

theorem bookLong_ok {qty cost : ℚ} (accepted : t.bookLong symbol qty price cost timestamp = (.ok (),t')) :
    cost ≤ t.cash ∧ t'.cash = t.cash - cost ∧
      t'.positions = t.positions.put symbol (buy t.positions[symbol]? symbol qty price timestamp) := by
  have account := enforce_account t symbol qty timestamp
  unfold bookLong at accepted
  split at accepted
  · cases accepted
  rename_i affordable
  split at accepted
  · cases accepted
  rename_i allowed
  cases accepted
  rw [allowed] at account
  dsimp only at account
  exact ⟨not_lt.mp affordable,by simp only [account.cash],by simp only [account.positions]⟩

structure Restated (t : Tracker) (isSell : Bool) (draft trade : Trade) : Prop where
  symbol : trade.symbol = draft.symbol
  direction : trade.direction = draft.direction
  price : trade.price = draft.price
  timestamp : trade.timestamp = draft.timestamp
  commission : trade.commission =
    (computeFees (trade.quantity * trade.price) isSell (t.feeSchedule trade.timestamp)).commission
  transferFee : trade.transferFee =
    (computeFees (trade.quantity * trade.price) isSell (t.feeSchedule trade.timestamp)).transferFee

theorem closeLong_ok {pos left : Position} {trade : Trade} {received : ℚ}
    (positive : 0 < pos.quantity) (accepted : t.closeLong pos draft request flag = .ok (trade,received,left)) :
    Restated t true draft trade ∧
    trade.stampTax = (computeFees (trade.quantity * trade.price) true (t.feeSchedule trade.timestamp)).stampTax ∧
    ¬ (pos.buyDate.truncateDay = trade.timestamp.truncateDay ∧ pos.quantityYesterday = 0) ∧
    trade.quantity = min pos.quantityYesterday (min request pos.quantity) ∧ 0 < trade.quantity ∧
    received = trade.quantity * trade.price - (trade.commission + trade.transferFee + trade.stampTax) ∧
    left = soldFrom pos trade := by
  unfold closeLong at accepted
  rw [abs_of_pos positive] at accepted
  dsimp only at accepted
  split at accepted
  · cases accepted
  rename_i settled
  split at accepted
  · cases accepted
  rename_i available
  cases accepted
  exact ⟨⟨rfl,rfl,rfl,rfl,rfl,rfl⟩,rfl,settled,rfl,not_le.mp available,rfl,rfl⟩

theorem closeShort_ok {pos left : Position} {trade : Trade} {received : ℚ}
    (negative : pos.quantity < 0) (accepted : t.closeShort pos draft request = .ok (trade,received,left)) :
    Restated t false draft trade ∧ trade.stampTax = draft.stampTax ∧
    trade.quantity = min request (-pos.quantity) ∧ 0 < trade.quantity ∧
    received = trade.quantity * trade.price - (trade.commission + trade.transferFee) ∧
    left = boughtBack pos trade := by
  unfold closeShort at accepted
  rw [abs_of_neg negative] at accepted
  dsimp only at accepted
  split at accepted
  · cases accepted
  rename_i available
  cases accepted
  exact ⟨⟨rfl,rfl,rfl,rfl,rfl,rfl⟩,rfl,rfl,not_le.mp available,by ring,rfl⟩

structure SameOrder (draft trade : Trade) : Prop where
  symbol : trade.symbol = draft.symbol
  direction : trade.direction = draft.direction
  price : trade.price = draft.price
  timestamp : trade.timestamp = draft.timestamp

theorem SameOrder.refl (trade : Trade) : SameOrder trade trade := ⟨rfl,rfl,rfl,rfl⟩

theorem Restated.sameOrder {isSell : Bool} {trade : Trade}
    (restated : Restated t isSell draft trade) : SameOrder draft trade :=
  ⟨restated.symbol,restated.direction,restated.price,restated.timestamp⟩

variable {quantity : ℚ}

theorem negative_of_nonzero (nonzero : ¬ |quantity| ≤ 0) (nonpositive : ¬ quantity > 0) : quantity < 0 := by
  rcases lt_trichotomy quantity 0 with negative | zero | positive
  · exact negative
  · exact absurd (by simp [zero]) nonzero
  · exact absurd positive nonpositive

theorem bookClose_cases {trade : Trade} (accepted : t.bookClose draft request flag = .ok (trade,t')) :
    ∃ pos received left, t.positions[draft.symbol]? = some pos ∧
      (0 < pos.quantity ∧ t.closeLong pos draft request flag = .ok (trade,received,left) ∨
        pos.quantity < 0 ∧ t.closeShort pos draft request = .ok (trade,received,left)) ∧
      t' = { t with cash := t.cash + received, positions := t.positions.put trade.symbol left.unlessFlat } := by
  unfold bookClose at accepted
  split at accepted
  · cases accepted
  rename_i pos held
  split at accepted
  · cases accepted
  rename_i nonzero
  split at accepted
  · cases accepted
  rename_i received left closed
  cases accepted
  refine ⟨pos,received,left,held,?_,rfl⟩
  split at closed
  next positive =>
    exact .inl ⟨positive,closed⟩
  next nonpositive =>
    exact .inr ⟨negative_of_nonzero nonzero nonpositive,closed⟩

theorem bookClose_full {pos : Position} (held : t.positions[draft.symbol]? = some pos) (nonzero : pos.quantity ≠ 0)
    (ordered : 0 < draft.quantity) (enough : draft.quantity ≤ |pos.quantity|)
    (settled : 0 < pos.quantity → draft.quantity ≤ pos.quantityYesterday) (flag : Bool) :
    ∃ trade t', t.bookClose draft draft.quantity flag = .ok (trade,t') ∧ trade.quantity = draft.quantity := by
  have open_ : ¬ |pos.quantity| ≤ 0 := not_le.mpr (abs_pos.mpr nonzero)
  unfold bookClose
  rw [held]
  dsimp only
  rw [if_neg open_]
  by_cases positive : pos.quantity > 0
  · have owned : 0 < pos.quantityYesterday := ordered.trans_le (settled positive)
    have sold : min pos.quantityYesterday (min draft.quantity |pos.quantity|) = draft.quantity := by
      rw [min_eq_left enough,min_eq_right (settled positive)]
    rw [if_pos positive]
    simp only [closeLong,owned.ne',and_false,if_false,sold,not_le.mpr ordered]
    exact ⟨_,_,rfl,rfl⟩
  · rw [if_neg positive]
    simp only [closeShort,min_eq_left enough,not_le.mpr ordered,if_false]
    exact ⟨_,_,rfl,rfl⟩

theorem bookClose_ok {trade : Trade}
    (side : draft.direction = .close) (accepted : t.bookClose draft request flag = .ok (trade,t')) :
    SameOrder draft trade ∧ ∃ entry, Booked t request (t.settledFees trade) trade t'.cash entry ∧
      t'.positions = t.positions.put draft.symbol entry := by
  obtain ⟨pos,received,left,held,⟨positive,closed⟩ | ⟨negative,closed⟩,rfl⟩ := bookClose_cases accepted
  · obtain ⟨restated,_,settled,sold,some_,received_eq,left_eq⟩ := closeLong_ok positive closed
    have order := restated.sameOrder
    have fees : t.settledFees trade = trade.commission + trade.transferFee + trade.stampTax := by
      simp [settledFees,order.symbol,held,not_lt.mpr positive.le]
    refine ⟨order,(soldFrom pos trade).unlessFlat,?_,by rw [left_eq,order.symbol]⟩
    rw [fees,received_eq]
    exact .closeLong pos (order.direction.trans side) (by rw [order.symbol]; exact held) positive settled sold some_
  · obtain ⟨restated,_,bought,some_,received_eq,left_eq⟩ := closeShort_ok negative closed
    have order := restated.sameOrder
    have fees : t.settledFees trade = trade.commission + trade.transferFee := by
      simp [settledFees,order.symbol,held,negative,order.direction,side]
    refine ⟨order,(boughtBack pos trade).unlessFlat,?_,by rw [left_eq,order.symbol]⟩
    rw [fees,received_eq]
    exact .closeShort pos (order.direction.trans side) (by rw [order.symbol]; exact held) negative bought some_

section
variable (t : Tracker) (symbol : String) (price : ℚ)

theorem markPosition_cash : (t.markPosition symbol price).cash = t.cash := by
  unfold markPosition
  split <;> rfl

theorem markPosition_positions (book : Book String Position) (entry : Option Position)
    (written : t.positions = book.put symbol entry) :
    (t.markPosition symbol price).positions = book.put symbol (entry.map (·.mark price)) := by
  have found : t.positions[symbol]? = entry := by rw [written,Book.get_put_self]
  unfold markPosition
  rw [found]
  cases entry with
  | none => exact written
  | some pos =>
    change t.positions.put symbol (some (pos.mark price)) = _
    rw [written,Book.put_put]
    rfl

end

/-- A call that booked `trade`: the record is appended and only its symbol's entry is rewritten. -/
structure Posted (t : Tracker) (request fees price : ℚ) (trade : Trade) (t' : Tracker) : Prop where
  config : SameConfig t t'
  trades : t'.trades = t.trades ++ [trade]
  entry : ∃ entry, Booked t request fees trade t'.cash entry ∧
    t'.positions = t.positions.put trade.symbol (entry.map (·.mark price))

section
variable {fees : ℚ} {trade : Trade} (posted : Posted t request fees price trade t')
include posted

theorem Posted.other (symbol : String) (distinct : symbol ≠ trade.symbol) :
    t'.positions[symbol]? = t.positions[symbol]? := by
  obtain ⟨entry,_,positions⟩ := posted.entry
  rw [positions,Book.get_put_of_ne _ _ distinct]

theorem Posted.all {Q : Position → Prop} (stored : t.positions.All fun _ pos => Q pos)
    (marks : ∀ pos, Q pos → Q (pos.mark price)) (writes : ∀ pos, Written t trade pos → Q pos) :
    t'.positions.All fun _ pos => Q pos := by
  obtain ⟨entry,booked,positions⟩ := posted.entry
  rw [positions]
  refine stored.put _ _ fun pos written => ?_
  obtain ⟨before,found,rfl⟩ := map_eq_some_iff.mp written
  exact marks before (writes before (booked.written found))

end

def held (t : Tracker) (symbol : String) : ℚ := ((t.positions[symbol]?).map (·.quantity)).getD 0

def entryQuantity (entry : Option Position) : ℚ := (entry.map (·.quantity)).getD 0

@[simp] theorem entryQuantity_some : entryQuantity (some pos) = pos.quantity := rfl

theorem Posted.held {fees : ℚ} {trade : Trade}
    (posted : Posted t request fees price trade t') :
    ∃ entry, Booked t request fees trade t'.cash entry ∧ t'.held trade.symbol = entryQuantity entry := by
  obtain ⟨entry,booked,positions⟩ := posted.entry
  refine ⟨entry,booked,?_⟩
  unfold Tracker.held
  rw [positions,Book.get_put_self]
  cases entry <;> rfl

/-- What a booked trade does to the signed quantity of its symbol. A quantity below the flat
threshold is not kept. -/
def HeldChange (direction : Direction) (quantity before after : ℚ) : Prop :=
  match direction with
  | .long => after = before + quantity ∨ (isFlat (before + quantity) = true ∧ after = 0)
  | .short => after = before - quantity ∨ (isFlat (before - quantity) = true ∧ after = 0)
  | .close => (0 < before ∧ 0 ≤ after ∧ after ≤ before) ∨ (before < 0 ∧ before ≤ after ∧ after ≤ 0)
  | .hold => after = before

section
variable {before after : ℚ} (change : HeldChange direction quantity before after) (ordered : 0 < quantity)
include change ordered

theorem HeldChange.le (bought : direction ≠ .long) (covered : direction = .close → 0 ≤ before)
    (kept : direction = .short → ¬ (before < 0 ∧ isFlat (before - quantity) = true)) : after ≤ before := by
  cases direction with
  | long => exact absurd rfl bought
  | short =>
    rcases change with sold | ⟨flat,gone⟩
    · linarith
    · rw [gone]
      by_contra owed
      exact kept rfl ⟨not_le.mp owed,flat⟩
  | close =>
    rcases change with ⟨_,_,less⟩ | ⟨owed,_⟩
    · exact less
    · exact absurd (covered rfl) (not_le.mpr owed)
  | hold => exact le_of_eq change

theorem HeldChange.ge (shorted : direction ≠ .short) (sold : direction = .close → before ≤ 0)
    (kept : direction = .long → ¬ (0 < before ∧ isFlat (before + quantity) = true)) : before ≤ after := by
  cases direction with
  | long =>
    rcases change with bought | ⟨flat,gone⟩
    · linarith
    · rw [gone]
      by_contra held
      exact kept rfl ⟨not_le.mp held,flat⟩
  | short => exact absurd rfl shorted
  | close =>
    rcases change with ⟨held,_⟩ | ⟨_,more,_⟩
    · exact absurd (sold rfl) (not_le.mpr held)
    · exact more
  | hold => exact ge_of_eq change

end

theorem entryQuantity_unlessFlat_cases :
    entryQuantity pos.unlessFlat = pos.quantity ∨ entryQuantity pos.unlessFlat = 0 := by
  unfold unlessFlat
  split
  · exact .inr rfl
  · exact .inl rfl

theorem Posted.heldChange {fees : ℚ} {trade : Trade}
    (posted : Posted t request fees price trade t') :
    HeldChange trade.direction trade.quantity (t.held trade.symbol) (t'.held trade.symbol) := by
  obtain ⟨entry,booked,left⟩ := posted.held
  rw [left]
  unfold Tracker.held
  generalize t'.cash = cash at booked
  cases booked with
  | long side =>
    rw [side]
    cases t.positions[trade.symbol]? with
    | none => exact .inl (by simp [buy,opened,entryQuantity])
    | some =>
      simp only [buy]
      split
      next flat =>
        exact .inr ⟨flat,rfl⟩
      · exact .inl rfl
  | short side =>
    rw [side]
    cases t.positions[trade.symbol]? with
    | none => exact .inl (by simp [sellShort,opened,entryQuantity])
    | some =>
      simp only [sellShort]
      split
      next flat =>
        exact .inr ⟨flat,rfl⟩
      · exact .inl rfl
  | closeLong pos side held positive _ sold =>
    have bound : trade.quantity ≤ pos.quantity := by
      rw [sold]
      exact (min_le_right _ _).trans (min_le_right _ _)
    have quantity : (soldFrom pos trade).quantity = pos.quantity - trade.quantity := rfl
    rw [side,held]
    refine .inl ⟨positive,?_⟩
    rcases entryQuantity_unlessFlat_cases (soldFrom pos trade) with kept | gone
    · exact ⟨by linarith,by simp only [map_some,getD_some]; linarith⟩
    · rw [gone]
      exact ⟨le_rfl,positive.le⟩
  | closeShort pos side held negative bought =>
    have bound : trade.quantity ≤ -pos.quantity := by
      rw [bought]
      exact min_le_right _ _
    have quantity : (boughtBack pos trade).quantity = pos.quantity + trade.quantity := rfl
    rw [side,held]
    refine .inr ⟨negative,?_⟩
    rcases entryQuantity_unlessFlat_cases (boughtBack pos trade) with kept | gone
    · exact ⟨by simp only [map_some,getD_some]; linarith,by linarith⟩
    · rw [gone]
      exact ⟨negative.le,le_rfl⟩
  | hold side =>
    rw [side]
    rfl

/-- The fees the two booking paths settle; `ApplyTrade` leaves out the stamp tax of a buy or a short. -/
def appliedFees (t : Tracker) (trade : Trade) : ℚ :=
  if trade.direction = .close then t.settledFees trade else trade.commission + trade.transferFee

theorem settledFees_of_not_close (t : Tracker) (trade : Trade) (open_ : trade.direction ≠ .close) :
    t.settledFees trade = trade.commission + trade.transferFee + trade.stampTax := by
  unfold settledFees
  split <;> simp [open_]

theorem book_unchanged (book : Book String Position) (symbol : String) : book = book.put symbol book[symbol]? := by
  apply Book.ext_getElem?
  intro other
  rw [Book.get_put]
  split
  next same =>
    rw [same]
  · rfl

/-- The switch both booking paths share. They differ in the quantity of an opening trade, in what
a buy costs and a short sale brings, and in the request of a close. -/
def bookTrade (t : Tracker) (draft : Trade) (qty cost proceeds request : ℚ) (flag : Bool) :
    Except TradeError Trade × Tracker :=
  match draft.direction with
  | .long =>
    match t.bookLong draft.symbol qty draft.price cost draft.timestamp with
    | (.error e,t) => (.error e,t)
    | (.ok (),t) => (.ok draft,t)
  | .short => (.ok draft,t.bookShort draft.symbol qty draft.price proceeds draft.timestamp)
  | .close =>
    match t.bookClose draft request flag with
    | .error e => (.error e,t)
    | .ok (trade,t) => (.ok trade,t)
  | .hold => (.ok draft,t)

section Switch
variable {t t' : Tracker} {draft trade : Trade} {qty cost proceeds request : ℚ} {flag : Bool} {e : TradeError}

theorem bookExecuted_eq (t : Tracker) (draft : Trade) (request : ℚ) :
    let fees := draft.commission + draft.transferFee + draft.stampTax
    t.bookExecuted draft request = t.bookTrade draft draft.filledQty (draft.filledQty * draft.price + fees)
      (draft.filledQty * draft.price - fees) request true := rfl

theorem bookApplied_eq (t : Tracker) (draft : Trade) : t.bookApplied draft = t.bookTrade draft draft.quantity
      (draft.quantity * draft.price + draft.commission + draft.transferFee)
      (draft.quantity * draft.price - draft.commission - draft.transferFee) draft.quantity false := rfl

theorem bookTrade_error (rejected : t.bookTrade draft qty cost proceeds request flag = (.error e,t')) :
    t.bookLong draft.symbol qty draft.price cost draft.timestamp = (.error e,t') ∨ t' = t := by
  unfold bookTrade at rejected
  split at rejected
  · split at rejected
    next refused =>
      cases rejected
      exact .inl refused
    · cases rejected
  · cases rejected
  · split at rejected
    · cases rejected
      exact .inr rfl
    · cases rejected
  · cases rejected

theorem bookTrade_ok (accepted : t.bookTrade draft qty cost proceeds request flag = (.ok trade,t')) :
    (draft.direction = .long ∧ trade = draft ∧ t.bookLong draft.symbol qty draft.price cost draft.timestamp = (.ok (),t')) ∨
    (draft.direction = .short ∧ trade = draft ∧ t' = t.bookShort draft.symbol qty draft.price proceeds draft.timestamp) ∨
    (draft.direction = .close ∧ t.bookClose draft request flag = .ok (trade,t')) ∨
    (draft.direction = .hold ∧ trade = draft ∧ t' = t) := by
  unfold bookTrade at accepted
  split at accepted
  next side =>
    split at accepted
    · cases accepted
    rename_i allowed
    cases accepted
    exact .inl ⟨side,rfl,allowed⟩
  next side =>
    cases accepted
    exact .inr (.inl ⟨side,rfl,rfl⟩)
  next side =>
    split at accepted
    · cases accepted
    rename_i closed
    cases accepted
    exact .inr (.inr (.inl ⟨side,closed⟩))
  next side =>
    cases accepted
    exact .inr (.inr (.inr ⟨side,rfl,rfl⟩))

theorem bookTrade_account (rejected : t.bookTrade draft qty cost proceeds request flag = (.error e,t')) : SameAccount t t' := by
  rcases bookTrade_error rejected with refused | rfl
  · exact bookLong_error refused
  · exact SameAccount.refl _

theorem bookTrade_framed (accepted : t.bookTrade draft qty cost proceeds request flag = (.ok trade,t')) : Framed t t' := by
  rcases bookTrade_ok accepted with ⟨-,-,allowed⟩ | ⟨-,-,rfl⟩ | ⟨-,closed⟩ | ⟨-,-,rfl⟩
  · have framed := bookLong_framed t draft.symbol qty draft.price cost draft.timestamp
    rw [allowed] at framed
    exact framed
  · exact ⟨_,_,_,_⟩
  · obtain ⟨_,_,_,-,-,rfl⟩ := bookClose_cases closed
    exact ⟨_,_,_,_⟩
  · exact ⟨_,_,_,_⟩

theorem bookTrade_booked (fees : Trade → ℚ) (whole : draft.quantity = qty)
    (costs : draft.direction ≠ .close → cost = draft.quantity * draft.price + fees draft)
    (brings : draft.direction ≠ .close → proceeds = draft.quantity * draft.price - fees draft)
    (closes : ∀ trade, trade.direction = .close → fees trade = t.settledFees trade)
    (accepted : t.bookTrade draft qty cost proceeds request flag = (.ok trade,t')) :
    SameOrder draft trade ∧ (draft.direction ≠ .close → trade = draft) ∧ ∃ entry, Booked t request (fees trade) trade t'.cash entry ∧
      t'.positions = t.positions.put draft.symbol entry := by
  subst whole
  rcases bookTrade_ok accepted with ⟨side,rfl,allowed⟩ | ⟨side,rfl,rfl⟩ | ⟨side,closed⟩ | ⟨side,rfl,rfl⟩
  · obtain ⟨affordable,cash,positions⟩ := bookLong_ok allowed
    refine ⟨SameOrder.refl _,fun _ => rfl,_,?_,positions⟩
    rw [cash,costs (by simp [side])]
    exact .long side (costs (by simp [side]) ▸ affordable)
  · refine ⟨SameOrder.refl _,fun _ => rfl,_,?_,rfl⟩
    rw [brings (by simp [side])]
    exact .short side
  · obtain ⟨order,entry,booked,positions⟩ := bookClose_ok side closed
    rw [← closes trade (order.direction.trans side)] at booked
    exact ⟨order,fun open_ => absurd side open_,entry,booked,positions⟩
  · exact ⟨SameOrder.refl _,fun _ => rfl,_,.hold side,book_unchanged _ _⟩

theorem bookExecuted_ok (whole : draft.quantity = draft.filledQty)
    (accepted : t.bookExecuted draft request = (.ok trade,t')) :
    SameOrder draft trade ∧ (draft.direction ≠ .close → trade = draft) ∧ ∃ entry, Booked t request (t.settledFees trade) trade t'.cash entry ∧
      t'.positions = t.positions.put draft.symbol entry := by
  refine bookTrade_booked t.settledFees whole (fun open_ => ?_) (fun open_ => ?_) (fun _ _ => rfl) accepted
  · rw [settledFees_of_not_close _ _ open_,whole]
  · rw [settledFees_of_not_close _ _ open_,whole]

theorem bookApplied_ok (accepted : t.bookApplied draft = (.ok trade,t')) :
    SameOrder draft trade ∧ (draft.direction ≠ .close → trade = draft) ∧ ∃ entry, Booked t draft.quantity (t.appliedFees trade) trade t'.cash entry ∧
      t'.positions = t.positions.put draft.symbol entry := by
  refine bookTrade_booked t.appliedFees rfl (fun open_ => ?_) (fun open_ => ?_) (fun _ close => if_pos close) accepted
  · rw [appliedFees,if_neg open_,add_assoc]
  · rw [appliedFees,if_neg open_,sub_sub]

end Switch

theorem executeTrade_error (rejected : t.executeTrade symbol direction quantity price timestamp opts = (.error e,t')) :
    SameAccount t t' := by
  unfold executeTrade at rejected
  dsimp only at rejected
  split at rejected
  · cases rejected
    exact ⟨⟨rfl,rfl,rfl,rfl,rfl,rfl⟩,rfl,rfl,rfl⟩
  · split at rejected
    next refused =>
      cases rejected
      exact bookTrade_account refused
    · cases rejected

def executedDraft (t : Tracker) (symbol : String) (direction : Direction) (quantity executionPrice : ℚ)
    (timestamp : Time) (opts : OrderExecutionOpts) : Trade :=
  t.draftTrade symbol direction quantity (t.filledQty quantity opts.dayBar) executionPrice timestamp

theorem executeTrade_cases {trade : Trade}
    (accepted : t.executeTrade symbol direction quantity price timestamp opts = (.ok trade,t')) :
    ∃ executionPrice t₁ order, t.executionPrice symbol direction price (opts.getD ⟨.market,price,none⟩) = .ok executionPrice ∧
      t.bookExecuted (t.executedDraft symbol direction quantity executionPrice timestamp (opts.getD ⟨.market,price,none⟩))
        quantity = (.ok trade,t₁) ∧
      order.symbol = symbol ∧ order.filledQty = t.filledQty quantity (opts.getD ⟨.market,price,none⟩).dayBar ∧
      t' = { t₁.markPosition symbol price with
        trades := (t₁.markPosition symbol price).trades ++ [trade]
        orderLog := (t₁.markPosition symbol price).orderLog ++ [order] } := by
  unfold executeTrade at accepted
  dsimp only at accepted
  split at accepted
  · cases accepted
  rename_i priced
  split at accepted
  · cases accepted
  rename_i booked
  cases accepted
  exact ⟨_,_,_,priced,booked,rfl,rfl,rfl⟩

/-- Everything an accepted `ExecuteTrade` did. -/
structure Executed (t : Tracker) (symbol : String) (direction : Direction) (quantity price : ℚ) (timestamp : Time)
    (opts : Option OrderExecutionOpts) (trade : Trade) (t' : Tracker) : Prop where
  priced : t.executionPrice symbol direction price (opts.getD ⟨.market,price,none⟩) = .ok trade.price
  drafted : direction ≠ .close →
    trade = t.executedDraft symbol direction quantity trade.price timestamp (opts.getD ⟨.market,price,none⟩)
  symbol : trade.symbol = symbol
  direction : trade.direction = direction
  timestamp : trade.timestamp = timestamp
  posted : Posted t quantity (t.settledFees trade) price trade t'

theorem executeTrade_ok {trade : Trade}
    (accepted : t.executeTrade symbol direction quantity price timestamp opts = (.ok trade,t')) :
    Executed t symbol direction quantity price timestamp opts trade t' := by
  obtain ⟨executionPrice,t₁,_,priced,booked,-,-,rfl⟩ := executeTrade_cases accepted
  obtain ⟨config,trades,-⟩ := ((bookTrade_framed booked).trans (markPosition_framed t₁ symbol price)).records
  obtain ⟨order,same,entry,books,positions⟩ := bookExecuted_ok rfl booked
  have price_eq : trade.price = executionPrice := order.price
  have symbol_eq : trade.symbol = symbol := order.symbol
  refine ⟨?_,?_,symbol_eq,order.direction,order.timestamp,⟨config.trans ⟨rfl,rfl,rfl,rfl,rfl,rfl⟩,?_,entry,?_,?_⟩⟩
  · rw [price_eq]
    exact priced
  · rw [price_eq]
    exact same
  · simp only [trades]
  · rw [← markPosition_cash t₁ symbol price] at books
    exact books
  · rw [symbol_eq]
    exact markPosition_positions t₁ symbol price t.positions entry positions

theorem applyTrade_error {trade : Trade}
    (rejected : t.applyTrade trade = (.error e,t')) : SameAccount t t' := by
  unfold applyTrade at rejected
  split at rejected
  · cases rejected
    exact SameAccount.refl t
  · split at rejected
    next refused =>
      cases rejected
      exact bookTrade_account refused
    · cases rejected

structure Applied (t : Tracker) (draft trade : Trade) (t' : Tracker) : Prop where
  positive : 0 < draft.quantity
  order : SameOrder draft trade
  drafted : draft.direction ≠ .close → trade = draft
  posted : Posted t draft.quantity (t.appliedFees trade) draft.price trade t'

section
variable {trade : Trade} (accepted : t.applyTrade draft = (.ok trade,t'))
include accepted

theorem applyTrade_cases : ∃ t₁, 0 < draft.quantity ∧ t.bookApplied draft = (.ok trade,t₁) ∧
      t' = { t₁.markPosition draft.symbol draft.price with
        trades := (t₁.markPosition draft.symbol draft.price).trades ++ [trade] } := by
  unfold applyTrade at accepted
  split at accepted
  · cases accepted
  rename_i valid
  split at accepted
  · cases accepted
  rename_i booked
  cases accepted
  exact ⟨_,not_le.mp valid,booked,rfl⟩

theorem applyTrade_ok : Applied t draft trade t' := by
  obtain ⟨t₁,valid,booked,rfl⟩ := applyTrade_cases accepted
  obtain ⟨config,trades,-⟩ := ((bookTrade_framed booked).trans (markPosition_framed t₁ draft.symbol draft.price)).records
  obtain ⟨order,same,entry,books,positions⟩ := bookApplied_ok booked
  refine ⟨valid,order,same,⟨config.trans ⟨rfl,rfl,rfl,rfl,rfl,rfl⟩,?_,entry,?_,?_⟩⟩
  · simp only [trades]
  · rw [← markPosition_cash t₁ draft.symbol draft.price] at books
    exact books
  · rw [order.symbol]
    exact markPosition_positions t₁ draft.symbol draft.price t.positions entry positions

end

end QuantTrading.Tracker
