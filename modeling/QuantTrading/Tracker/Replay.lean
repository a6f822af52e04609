import QuantTrading.Tracker.ValueLaw

/-! The two booking paths compared. A record booked by `ExecuteTrade` is handed to
`ApplyTrade` on the same tracker: positions always agree, and cash agrees except for
the stamp tax of a short sale, which `ApplyTrade` does not read.
-/
namespace QuantTrading.Tracker
open Library

def SameHolding (a b : Position) : Prop :=
  a.quantity = b.quantity ∧ a.avgCost = b.avgCost ∧ a.quantityToday = b.quantityToday ∧
    a.quantityYesterday = b.quantityYesterday ∧ a.buyDate = b.buyDate ∧ a.realizedPnL = b.realizedPnL

structure SameBooking (t u : Tracker) : Prop where
  cash : t.cash = u.cash
  positions : ∀ symbol : String, Option.Rel SameHolding t.positions[symbol]? u.positions[symbol]?

variable (t : Tracker) (flag' : Bool) (entry : Option Position)

def marketDraft (symbol : String) (direction : Direction) (quantity price : ℚ) (timestamp : Time) : Trade :=
  t.draftTrade symbol direction quantity quantity (t.slippagePrice symbol direction price) timestamp

def PathsAgree (symbol : String) (direction : Direction) (quantity price : ℚ) (timestamp : Time)
    (opts : Option OrderExecutionOpts) : Prop :=
  match t.executeTrade symbol direction quantity price timestamp opts with
  | (.ok trade,t') => ∃ applied u, t.applyTrade trade = (.ok applied,u) ∧ SameBooking t' u
  | (.error _,_) => ∃ e u, t.applyTrade (t.marketDraft symbol direction quantity price timestamp) = (.error e,u)

private theorem min_refill (yesterday request quantity : ℚ) :
    min yesterday (min (min yesterday (min request quantity)) quantity) = min yesterday (min request quantity) := by
  have inside : min yesterday (min request quantity) ≤ quantity := (min_le_right _ _).trans (min_le_right _ _)
  rw [min_eq_left inside,min_eq_right (min_le_left _ _)]

private theorem min_rebuy (request quantity : ℚ) : min (min request quantity) quantity = min request quantity :=
  min_eq_left (min_le_right _ _)

variable {t t' u : Tracker} {draft : Trade} {request : ℚ} {flag : Bool} {e : TradeError}

theorem closeLong_replay {pos left : Position} {trade : Trade} {received : ℚ} (accepted : t.closeLong pos draft request flag = .ok (trade,received,left)) :
    t.closeLong pos trade trade.quantity flag' = .ok (trade,received,left) := by
  unfold closeLong at accepted ⊢
  dsimp only at accepted ⊢
  split at accepted
  · cases accepted
  rename_i settled
  split at accepted
  · cases accepted
  rename_i available
  cases accepted
  rw [if_neg settled,min_refill,if_neg available]

theorem closeShort_replay {pos left : Position} {trade : Trade} {received : ℚ}
    (accepted : t.closeShort pos draft request = .ok (trade,received,left)) :
    t.closeShort pos trade trade.quantity = .ok (trade,received,left) := by
  unfold closeShort at accepted ⊢
  dsimp only at accepted ⊢
  split at accepted
  · cases accepted
  rename_i available
  cases accepted
  rw [min_rebuy,if_neg available]

theorem bookClose_replay {trade : Trade} (accepted : t.bookClose draft request flag = .ok (trade,t')) :
    t.bookClose trade trade.quantity flag' = .ok (trade,t') := by
  obtain ⟨pos,received,left,held,⟨positive,closed⟩ | ⟨negative,closed⟩,rfl⟩ := bookClose_cases accepted
  · have symbol := (closeLong_ok positive closed).1.symbol
    simp only [bookClose,symbol,held,abs_nonpos_iff,positive.ne',if_false,gt_iff_lt,positive,if_true,
      closeLong_replay _ closed]
  · have symbol := (closeShort_ok negative closed).1.symbol
    simp only [bookClose,symbol,held,abs_nonpos_iff,negative.ne,if_false,gt_iff_lt,not_lt.mpr negative.le,
      closeShort_replay closed]

theorem bookClose_wording (t : Tracker) (draft : Trade) (request : ℚ) (flag flag' : Bool) :
    (t.bookClose draft request flag).toOption = (t.bookClose draft request flag').toOption := by
  unfold bookClose closeLong
  cases t.positions[draft.symbol]? with
  | none => rfl
  | some =>
    dsimp only
    split_ifs <;> rfl

private theorem error_of_wording {α : Type} {first second : Except TradeError α}
    (same : first.toOption = second.toOption) (rejected : first = .error e) : ∃ e', second = .error e' := by
  cases second with
  | error e' => exact ⟨e',rfl⟩
  | ok =>
    rw [rejected] at same
    cases same

section
variable (bought : draft.direction = .long → draft.stampTax = 0) (whole : draft.quantity = draft.filledQty)
include bought whole

theorem bookApplied_rejected (rejected : t.bookExecuted draft draft.quantity = (.error e,t')) :
    ∃ e' u, t.bookApplied draft = (.error e',u) := by
  unfold bookExecuted at rejected
  dsimp only at rejected
  split at rejected
  next side =>
    rw [bought side,add_zero,← add_assoc,← whole] at rejected
    split at rejected
    next refused =>
      cases rejected
      exact ⟨e,t',by simp only [bookApplied,side,refused]⟩
    · cases rejected
  · cases rejected
  next side =>
    split at rejected
    next refused =>
      obtain ⟨e',again⟩ := error_of_wording (bookClose_wording t draft draft.quantity true false) refused
      exact ⟨e',t,by simp only [bookApplied,side,again]⟩
    · cases rejected
  · cases rejected

/-- A booked record is booked again by the other path; only the cash of a short sale differs. -/
theorem bookApplied_replay {trade : Trade} (accepted : t.bookExecuted draft draft.quantity = (.ok trade,t')) :
    ∃ u, t.bookApplied trade = (.ok trade,u) ∧ u.positions = t'.positions ∧
      u.cash = if draft.direction = .short then t'.cash + draft.stampTax else t'.cash := by
  unfold bookExecuted at accepted
  dsimp only at accepted
  split at accepted
  next side =>
    rw [bought side,add_zero,← add_assoc,← whole] at accepted
    split at accepted
    · cases accepted
    rename_i allowed
    cases accepted
    refine ⟨t',?_,rfl,by simp [side]⟩
    simp only [bookApplied,side,allowed]
  next side =>
    cases accepted
    refine ⟨_,by simp only [bookApplied,side]; rfl,?_,?_⟩
    · simp only [bookShort,whole]
    · simp only [bookShort,whole,side,if_true]
      ring
  next side =>
    split at accepted
    · cases accepted
    rename_i closed
    cases accepted
    have order := (bookClose_ok side closed).1
    have again := bookClose_replay false closed
    refine ⟨t',?_,rfl,by simp [side]⟩
    simp only [bookApplied,order.direction,side,again]
  next side =>
    cases accepted
    exact ⟨t,by simp only [bookApplied,side],rfl,by simp [side]⟩

end

theorem draftTrade_bought (t : Tracker) (symbol : String) (direction : Direction) (quantity filled price : ℚ)
    (timestamp : Time) (side : (t.draftTrade symbol direction quantity filled price timestamp).direction = .long) :
    (t.draftTrade symbol direction quantity filled price timestamp).stampTax = 0 := by
  have bought : direction = .long := side
  subst bought
  simp [draftTrade]

theorem sameHolding_marks (first second : ℚ) :
    Option.Rel SameHolding (entry.map (·.mark first)) (entry.map (·.mark second)) := by
  cases entry with
  | none => exact .none
  | some => exact .some ⟨rfl,rfl,rfl,rfl,rfl,rfl⟩

theorem sameHolding_refl : Option.Rel SameHolding entry entry := by
  cases entry with
  | none => exact .none
  | some => exact .some ⟨rfl,rfl,rfl,rfl,rfl,rfl⟩

theorem markPosition_sameHolding (symbol : String) (first second : ℚ) (same : u.positions = t.positions)
    (other : String) :
    Option.Rel SameHolding (t.markPosition symbol first).positions[other]? (u.markPosition symbol second).positions[other]? := by
  have written (v : Tracker) (price : ℚ) : (v.markPosition symbol price).positions =
      v.positions.put symbol ((v.positions[symbol]?).map (·.mark price)) :=
    markPosition_positions v symbol price v.positions _ (book_unchanged _ _)
  rw [written,written,same,Book.get_put,Book.get_put]
  split
  · exact sameHolding_marks _ _ _
  · exact sameHolding_refl _

theorem executeTrade_market (t : Tracker) (symbol : String) (direction : Direction) (quantity price : ℚ)
    (timestamp : Time) {opts : Option OrderExecutionOpts} (market : MarketOrder opts) :
    match t.bookExecuted (t.marketDraft symbol direction quantity price timestamp) quantity with
    | (.error e,t₁) => t.executeTrade symbol direction quantity price timestamp opts = (.error e,t₁)
    | (.ok trade,t₁) => ∃ t', t.executeTrade symbol direction quantity price timestamp opts = (.ok trade,t') ∧
        t'.cash = t₁.cash ∧ t'.positions = (t₁.markPosition symbol price).positions := by
  obtain ⟨priced,bar⟩ := marketOrder_price t symbol direction price market
  unfold executeTrade marketDraft
  simp only [priced,bar,filledQty]
  rcases t.bookExecuted (t.draftTrade symbol direction quantity quantity (t.slippagePrice symbol direction price) timestamp)
    quantity with ⟨e | trade,t₁⟩
  · rfl
  · exact ⟨_,rfl,markPosition_cash t₁ symbol price,rfl⟩

theorem applyTrade_booked {trade : Trade} (positive : 0 < draft.quantity) (booked : t.bookApplied draft = (.ok trade,u)) :
    ∃ v, t.applyTrade draft = (.ok trade,v) ∧ v.cash = u.cash ∧
      v.positions = (u.markPosition draft.symbol draft.price).positions := by
  unfold applyTrade
  simp only [if_neg (not_le.mpr positive),booked]
  exact ⟨_,rfl,markPosition_cash u draft.symbol draft.price,rfl⟩

theorem applyTrade_rejected (rejected : t.bookApplied draft = (.error e,u)) :
    ∃ e' v, t.applyTrade draft = (.error e',v) := by
  unfold applyTrade
  split
  · exact ⟨_,_,rfl⟩
  simp only [rejected]
  exact ⟨_,_,rfl⟩

theorem marketDraft_stampTax_iff (t : Tracker) (symbol : String) {quantity price : ℚ} (timestamp : Time)
    (positive : 0 < quantity) (valued : 0 < price) :
    (t.marketDraft symbol .short quantity price timestamp).stampTax = 0 ↔ 1 ≤ t.slippageRate := by
  have rate : 0 < (t.feeSchedule timestamp).stampTaxRate := Fees.stampTaxRateFor_pos _ _ _
  have zero := computeFees_stampTax_sell_eq_zero_iff (quantity * (price * (1 - t.slippageRate))) rate
  have tax : (t.marketDraft symbol .short quantity price timestamp).stampTax =
      (computeFees (quantity * (price * (1 - t.slippageRate))) true (t.feeSchedule timestamp)).stampTax := by
    simp [marketDraft,draftTrade,slippagePrice]
  rw [tax,zero]
  constructor
  · intro worthless
    by_contra cheap
    have gain : 0 < quantity * (price * (1 - t.slippageRate)) :=
      mul_pos positive (mul_pos valued (by linarith))
    linarith
  · intro dear
    have loss : price * (1 - t.slippageRate) ≤ 0 := mul_nonpos_of_nonneg_of_nonpos valued.le (by linarith)
    exact mul_nonpos_of_nonneg_of_nonpos positive.le loss

/-- The two paths agree on every market order but a short sale at a positive price: its stamp
tax is paid on one path and not on the other. A short sale has no positive value only when
the slippage rate is at least one. -/
theorem executeTrade_applyTrade_agree_iff (t : Tracker) (symbol : String) (direction : Direction) (quantity price : ℚ)
    (timestamp : Time) (opts : Option OrderExecutionOpts) (market : MarketOrder opts) (positive : 0 < quantity)
    (valued : 0 < price) :
    PathsAgree t symbol direction quantity price timestamp opts ↔ direction ≠ .short ∨ 1 ≤ t.slippageRate := by
  have executed := executeTrade_market t symbol direction quantity price timestamp market
  have bought := draftTrade_bought t symbol direction quantity quantity (t.slippagePrice symbol direction price) timestamp
  change (t.marketDraft symbol direction quantity price timestamp).direction = _ → _ at bought
  unfold PathsAgree
  rcases booked : t.bookExecuted (t.marketDraft symbol direction quantity price timestamp) quantity with ⟨e | trade,t₁⟩
  · rw [booked] at executed
    obtain ⟨e',u,again⟩ := bookApplied_rejected bought rfl booked
    -- A short sale is never rejected.
    have not_short : direction ≠ .short := by
      intro side
      subst side
      simp [bookExecuted,marketDraft,draftTrade] at booked
    simp only [executed]
    exact iff_of_true (applyTrade_rejected again) (.inl not_short)
  · rw [booked] at executed
    obtain ⟨t',accepted,cash,positions⟩ := executed
    obtain ⟨u,again,samePositions,paid⟩ := bookApplied_replay bought rfl booked
    obtain ⟨order,same,entry,books,_⟩ := bookExecuted_ok rfl booked
    have traded : 0 < trade.quantity := by
      by_cases close : direction = .close
      · exact books.close_pos (order.direction.trans close)
      · rw [same close]
        exact positive
    obtain ⟨v,replayed,replayedCash,replayedPositions⟩ := applyTrade_booked traded again
    have symbol_eq : trade.symbol = symbol := order.symbol
    have holdings : ∀ other : String, Option.Rel SameHolding t'.positions[other]? v.positions[other]? := by
      intro other
      rw [positions,replayedPositions,symbol_eq]
      exact markPosition_sameHolding symbol price trade.price samePositions other
    simp only [accepted,replayed]
    have agree : (∃ applied w, (Except.ok trade,v) = ((.ok applied,w) : Except TradeError Trade × Tracker) ∧
        SameBooking t' w) ↔ t₁.cash = u.cash := by
      rw [← cash,← replayedCash]
      constructor
      · rintro ⟨applied,w,same_,booking⟩
        cases same_
        exact booking.cash
      · exact fun equal => ⟨trade,v,rfl,equal,holdings⟩
    rw [agree,paid]
    by_cases side : direction = .short
    · subst side
      have tax := marketDraft_stampTax_iff t symbol timestamp positive valued
      have short : (t.marketDraft symbol .short quantity price timestamp).direction = .short := rfl
      rw [if_pos short,left_eq_add,tax]
      simp
    · have other : (t.marketDraft symbol direction quantity price timestamp).direction ≠ .short := side
      rw [if_neg other]
      simp [side]

def freshTracker : Tracker := newTracker 100000 (3/10000) 0 defaultTradingConfig

theorem freshTracker_long_agrees : PathsAgree freshTracker "600000.SH" .long 100 10 (Time.date 2024 1 2) none := by
  have market : MarketOrder none := trivial
  exact (executeTrade_applyTrade_agree_iff _ _ _ _ _ _ _ market (by norm_num) (by norm_num)).mpr (.inl (by decide))

def freshShort : Trade where
  symbol := "600000.SH"
  direction := .short
  quantity := 100
  price := 10
  commission := 5
  transferFee := 1/100
  stampTax := 1/2
  timestamp := Time.date 2024 1 2
  pendingQty := 0
  filledQty := 100

/-- Shorting 100 shares at 10 yields 994.49 on one path and, with the half unit of stamp tax
unread, 994.99 on the other. -/
theorem freshTracker_short_disagrees :
    freshTracker.executeTrade "600000.SH" .short 100 10 (Time.date 2024 1 2) none =
        (.ok freshShort,(freshTracker.executeTrade "600000.SH" .short 100 10 (Time.date 2024 1 2) none).2) ∧
      ¬ PathsAgree freshTracker "600000.SH" .short 100 10 (Time.date 2024 1 2) none := by
  have accepted : freshTracker.executeTrade "600000.SH" .short 100 10 (Time.date 2024 1 2) none =
      (.ok freshShort,(freshTracker.executeTrade "600000.SH" .short 100 10 (Time.date 2024 1 2) none).2) :=
    Prod.ext (by decide +kernel) rfl
  refine ⟨accepted,?_⟩
  intro agree
  unfold PathsAgree at agree
  rw [accepted] at agree
  obtain ⟨applied,u,replayed,same⟩ := agree
  have cash : (freshTracker.executeTrade "600000.SH" .short 100 10 (Time.date 2024 1 2) none).2.cash =
      (freshTracker.applyTrade freshShort).2.cash := by
    rw [replayed]
    exact same.cash
  revert cash
  decide +kernel

end QuantTrading.Tracker
