import QuantTrading.Live.MockTrader
import QuantTrading.Tracker.Replay

/-! Paper trading simulates the backtest tracker on long-only histories. The simulation
relation keeps the cash and the lots of every symbol equal; the tracker only holds settled
long positions of whole shares, and no counter of today's shares is left over from an
earlier day.
-/
namespace QuantTrading
open Library
open MockTrader (bought feeSchedule newMockTrader rollOver sold withDefaults)

/-- The two executors side by side, with the date of the last trade, whether the day was
advanced since, and whether they answered every order alike. -/
structure Session where
  tracker : Tracker
  paper : MockTrader
  lastTrade : Option Time
  (advanced agreed : Bool)

inductive PaperOp where
  | order (symbol : String) (direction : Direction) (shares : ℕ) (price : ℚ) (timestamp : Time)
  | advanceDay

namespace Session

def accepts {ε α : Type} : Except ε α → Bool
  | .ok _ => true
  | .error _ => false

def step (s : Session) : PaperOp → Session
  | .order symbol direction shares price timestamp =>
    let booked := s.tracker.executeTrade symbol direction shares price timestamp none
    let filled := s.paper.submitOrder symbol direction .market shares price
    { tracker := booked.2
      paper := filled.2
      lastTrade := some timestamp
      advanced := false
      agreed := s.agreed && (accepts booked.1 == accepts filled.1) }
  | .advanceDay => { s with tracker := s.tracker.advanceDay, paper := s.paper.advanceDay, advanced := true }

/-- A buy or a sale of whole shares of a named symbol at a positive price, not dated before the
trade preceding it and separated from a trade of an earlier day by `AdvanceDay`. -/
def LongOnly (s : Session) : PaperOp → Prop
  | .order symbol direction shares price timestamp =>
    (direction = .long ∨ direction = .close) ∧ 0 < shares ∧ 0 < price ∧ symbol ≠ "" ∧
      ∀ last ∈ s.lastTrade, last ≤ timestamp ∧ (s.advanced ∨ last.SameDay timestamp)
  | .advanceDay => True

def SameLots (pos : Position) (info : PositionInfo) : Prop :=
  pos.quantity = info.quantity ∧ pos.avgCost = info.avgCost ∧
    pos.quantityToday = info.quantityToday ∧ pos.quantityYesterday = info.quantityYesterday

structure SameBooks (t : Tracker) (m : MockTrader) : Prop where
  cash : t.cash = m.cash
  lots : ∀ symbol : String, Option.Rel SameLots t.positions[symbol]? m.positions[symbol]?

/-- A position of a long-only history: whole, settled, with today's shares bought today. -/
structure LongLots (s : Session) (pos : Position) : Prop where
  whole : Tracker.WholePosition pos
  long : 0 < pos.quantity
  today : 0 ≤ pos.quantityToday
  yesterday : 0 ≤ pos.quantityYesterday
  sum : pos.quantityToday + pos.quantityYesterday = pos.quantity
  fresh : pos.quantityToday ≠ 0 →
    s.advanced = false ∧ ∃ last, s.lastTrade = some last ∧ pos.buyDate.SameDay last

def Follows (s : Session) (timestamp : Time) : Prop :=
  ∀ last ∈ s.lastTrade, last ≤ timestamp ∧ (s.advanced ∨ last.SameDay timestamp)

/-- The rates in force are the same, no name is under risk warning and paper prices orders as given. -/
structure SameRules (t : Tracker) (m : MockTrader) : Prop where
  fees : ∀ asOf, t.feeSchedule asOf = m.feeSchedule
  names : t.stockNames = ∅
  model : m.config.slippageModel = .unset
  provider : m.config.priceProvider = none
  bars : m.barProvider = none

structure InStep (s : Session) : Prop where
  agreed : s.agreed = true
  books : SameBooks s.tracker s.paper
  rules : SameRules s.tracker s.paper
  lots : s.tracker.positions.All fun _ pos => LongLots s pos

theorem SameRules.slippageRate {t : Tracker} {m : MockTrader} (rules : SameRules t m) :
    t.slippageRate = m.config.slippageRate := congrArg AShareFees.slippageRate (rules.fees 0)

theorem SameRules.of_config {t t' : Tracker} {m m' : MockTrader} (rules : SameRules t m)
    (config : Tracker.SameConfig t t') (same : m'.config = m.config) (bars : m'.barProvider = m.barProvider) :
    SameRules t' m' := by
  refine ⟨?_,?_,?_,?_,?_⟩
  · intro asOf
    rw [config.feeSchedule,rules.fees]
    simp only [feeSchedule,same]
  · rw [config.stockNames,rules.names]
  · rw [same,rules.model]
  · rw [same,rules.provider]
  · rw [bars,rules.bars]

end Session

namespace Tracker

variable {t : Tracker} {symbol : String}

theorem enforce_unnamed (symbol : String) (qty : ℚ) (asOf : Time) (unnamed : t.stockNames = ∅) :
    t.enforceRiskWarningDailyBuy symbol qty asOf = (.ok (),t) := by
  simp [enforceRiskWarningDailyBuy,unnamed]

theorem bookLong_unnamed (symbol : String) (qty price cost : ℚ) (timestamp : Time)
    (unnamed : t.stockNames = ∅) :
    t.bookLong symbol qty price cost timestamp =
      if cost > t.cash then (.error (.insufficientCash cost t.cash),t)
      else (.ok (),{ t with
        cash := t.cash - cost
        positions := t.positions.put symbol (Position.buy t.positions[symbol]? symbol qty price timestamp) }) := by
  simp only [bookLong,enforce_unnamed _ _ _ unnamed]

theorem executeTrade_buy (symbol : String) (quantity price : ℚ) (timestamp : Time) (unnamed : t.stockNames = ∅) :
    let fill := price * (1 + t.slippageRate)
    let cost := quantity * fill + (computeFees (quantity * fill) false (t.feeSchedule timestamp)).total
    if cost > t.cash then ∃ e, t.executeTrade symbol .long quantity price timestamp none = (.error e,t)
    else ∃ trade t', t.executeTrade symbol .long quantity price timestamp none = (.ok trade,t') ∧
      t'.cash = t.cash - cost ∧ SameConfig t t' ∧
      t'.positions = t.positions.put symbol
        ((Position.buy t.positions[symbol]? symbol quantity fill timestamp).map (·.mark price)) := by
  intro fill cost
  have market : MarketOrder none := trivial
  have executed := executeTrade_market t symbol .long quantity price timestamp market
  have draft : t.bookExecuted (t.marketDraft symbol .long quantity price timestamp) quantity =
      if cost > t.cash then (.error (.insufficientCash cost t.cash),t)
      else (.ok (t.marketDraft symbol .long quantity price timestamp),{ t with
        cash := t.cash - cost
        positions := t.positions.put symbol (Position.buy t.positions[symbol]? symbol quantity fill timestamp) }) := by
    have booked := bookLong_unnamed symbol quantity fill cost timestamp unnamed
    simp only [bookExecuted,marketDraft,draftTrade]
    erw [booked]
    split_ifs <;> rfl
  rw [draft] at executed
  split
  next dear =>
    rw [if_pos dear] at executed
    exact ⟨_,executed⟩
  next affordable =>
    rw [if_neg affordable] at executed
    obtain ⟨t',accepted,cash,positions⟩ := executed
    have config := (executeTrade_ok accepted).posted.config
    exact ⟨_,t',accepted,cash,config,by
      rw [positions]
      exact markPosition_positions _ symbol price t.positions _ rfl⟩

theorem bookExecuted_close (t : Tracker) (symbol : String) (quantity price : ℚ) (timestamp : Time) :
    t.bookExecuted (t.marketDraft symbol .close quantity price timestamp) quantity =
      match t.bookClose (t.marketDraft symbol .close quantity price timestamp) quantity true with
      | .error e => (.error e,t)
      | .ok (trade,t) => (.ok trade,t) := rfl

theorem executeTrade_sell_missing (quantity price : ℚ) (timestamp : Time) (missing : t.positions[symbol]? = none) :
    ∃ e, t.executeTrade symbol .close quantity price timestamp none = (.error e,t) := by
  have market : MarketOrder none := trivial
  have executed := executeTrade_market t symbol .close quantity price timestamp market
  have refused : t.bookClose (t.marketDraft symbol .close quantity price timestamp) quantity true =
      .error (.positionNotFound symbol) := by
    simp [bookClose,marketDraft,draftTrade,missing]
  rw [bookExecuted_close,refused] at executed
  exact ⟨_,executed⟩

theorem executeTrade_sell {quantity : ℚ} (price : ℚ) (timestamp : Time) {pos : Position}
    (held : t.positions[symbol]? = some pos) (long : 0 < pos.quantity) (inside : pos.quantityYesterday ≤ pos.quantity)
    (positive : 0 < quantity) :
    let fill := price * (1 - t.slippageRate)
    let sold := min pos.quantityYesterday quantity
    let fb := computeFees (sold * fill) true (t.feeSchedule timestamp)
    if pos.quantityYesterday ≤ 0 then ∃ e, t.executeTrade symbol .close quantity price timestamp none = (.error e,t)
    else ∃ trade t', t.executeTrade symbol .close quantity price timestamp none = (.ok trade,t') ∧
      t'.cash = t.cash + (sold * fill - fb.total) ∧ SameConfig t t' ∧
      ∃ pnl, t'.positions = t.positions.put symbol
        ((Position.unlessFlat { pos with
          quantityYesterday := pos.quantityYesterday - sold, realizedPnL := pnl, quantity := pos.quantity - sold }).map
            (·.mark price)) := by
  intro fill sold fb
  have market : MarketOrder none := trivial
  have executed := executeTrade_market t symbol .close quantity price timestamp market
  rw [bookExecuted_close] at executed
  obtain ⟨drafted,symbol_eq,timestamp_eq⟩ : (t.marketDraft symbol .close quantity price timestamp).price = fill ∧
      (t.marketDraft symbol .close quantity price timestamp).symbol = symbol ∧
      (t.marketDraft symbol .close quantity price timestamp).timestamp = timestamp :=
    ⟨by simp [marketDraft,draftTrade,slippagePrice,held,long,fill],rfl,rfl⟩
  generalize t.marketDraft symbol .close quantity price timestamp = draft at executed drafted symbol_eq timestamp_eq
  have actual : min pos.quantityYesterday (min quantity |pos.quantity|) = sold := by
    rw [abs_of_pos long,← min_assoc,min_eq_left]
    exact (min_le_left _ _).trans inside
  split
  next unsettled =>
    have refused : ∃ e, t.bookClose draft quantity true = .error e := by
      have none_ : sold ≤ 0 := (min_le_left _ _).trans unsettled
      simp only [bookClose,symbol_eq,held,not_le.mpr (abs_pos.mpr long.ne'),if_false,gt_iff_lt,long,if_true,
        closeLong,actual,none_]
      split_ifs <;> exact ⟨_,rfl⟩
    obtain ⟨e,refused⟩ := refused
    rw [refused] at executed
    exact ⟨e,executed⟩
  next settled =>
    have available : 0 < sold := lt_min (not_le.mp settled) positive
    have unblocked : ¬ (pos.buyDate.truncateDay = timestamp.truncateDay ∧ pos.quantityYesterday = 0) :=
      fun blocked => settled blocked.2.le
    obtain ⟨trade,t₁,pnl,closed,cash₁,positions₁⟩ : ∃ trade t₁ pnl,
        t.bookClose draft quantity true = .ok (trade,t₁) ∧
        t₁.cash = t.cash + (sold * fill - fb.total) ∧
        t₁.positions = t.positions.put symbol (Position.unlessFlat { pos with
          quantityYesterday := pos.quantityYesterday - sold, realizedPnL := pnl, quantity := pos.quantity - sold }) := by
      simp only [bookClose,symbol_eq,held,not_le.mpr (abs_pos.mpr long.ne'),if_false,gt_iff_lt,long,if_true,
        closeLong,actual,not_le.mpr available,timestamp_eq,if_neg unblocked,drafted]
      exact ⟨_,_,_,rfl,rfl,rfl⟩
    rw [closed] at executed
    obtain ⟨t',accepted,cash,positions⟩ := executed
    have config := (executeTrade_ok accepted).posted.config
    refine ⟨trade,t',accepted,cash.trans cash₁,config,pnl,?_⟩
    rw [positions]
    exact markPosition_positions t₁ symbol price t.positions _ positions₁

end Tracker

namespace Session

variable {m : MockTrader} {symbol : String} {shares : ℕ} {price : ℚ} {direction : Direction}
   {entry : Option Position} {info : Option PositionInfo}

theorem paper_price (symbol : String) (direction : Direction) (quantity price : ℚ)
    (model : m.config.slippageModel = .unset) : m.applyExecutionCost symbol direction quantity price =
      if direction = .long then price * (1 + m.config.slippageRate) else price * (1 - m.config.slippageRate) := by
  simp only [MockTrader.applyExecutionCost,model,if_true]
  split <;> ring

theorem submitOrder_market (direction : Direction)
    (named : symbol ≠ "") (some_ : 0 < shares) (valued : 0 < price) (provider : m.config.priceProvider = none)
    (bars : m.barProvider = none) : m.submitOrder symbol direction .market shares price = match direction with
      | .long => m.executeBuy symbol .market shares price
      | .close => m.executeSell symbol .market shares price
      | .short | .hold => (.error (.unsupportedDirection direction),m) := by
  have positive : ¬ ((shares : ℚ) ≤ 0) := by simpa using some_.ne'
  have reference : m.referencePrice symbol .market price = price := by
    simp [MockTrader.referencePrice,MockTrader.currentBar,bars,provider]
  cases direction
  all_goals simp only [MockTrader.submitOrder,if_neg positive,if_neg named,reference,if_neg (not_le.mpr valued)]

theorem whole_natCast (n : ℕ) : Tracker.Whole (n : ℚ) := ⟨n,by simp⟩

def At (s : Session) (timestamp : Time) : Prop := s.lastTrade = some timestamp ∧ s.advanced = false

variable {s : Session} {pos : Position}

def LongAt (timestamp : Time) (pos : Position) : Prop := ∀ s' : Session, s'.At timestamp → LongLots s' pos

section Ordered
variable {timestamp : Time} (ordered : s.Follows timestamp)
include ordered

theorem LongLots.later (lots : LongLots s pos) : LongAt timestamp pos := by
  intro s' now
  refine ⟨lots.whole,lots.long,lots.today,lots.yesterday,lots.sum,?_⟩
  intro pending
  obtain ⟨running,last,dated,bought⟩ := lots.fresh pending
  have sameDay : last.SameDay timestamp := by
    rcases (ordered last dated).2 with moved | same
    · rw [running] at moved
      cases moved
    · exact same
  exact ⟨now.2,timestamp,now.1,bought.trans sameDay⟩

theorem LongLots.today_kept (lots : LongLots s pos) :
    (if pos.buyDate.truncateDay ≠ timestamp.truncateDay then 0 else pos.quantityToday) = pos.quantityToday := by
  by_cases pending : pos.quantityToday = 0
  · rw [pending]
    exact ite_self 0
  · have now : At { s with lastTrade := some timestamp, advanced := false } timestamp := ⟨rfl,rfl⟩
    obtain ⟨_,last,dated,bought⟩ := (lots.later ordered _ now).fresh pending
    cases dated
    exact if_neg (not_not_intro bought)

theorem inStep_rejected (inStep : InStep s) {e : TradeError} {e' : SubmitError}
    (left : s.tracker.executeTrade symbol direction shares price timestamp none = (.error e,s.tracker))
    (right : s.paper.submitOrder symbol direction .market shares price = (.error e',s.paper)) :
    InStep (s.step (.order symbol direction shares price timestamp)) := by
  simp only [step,left,right]
  refine ⟨by simp [inStep.agreed,accepts],inStep.books,inStep.rules,?_⟩
  intro other pos held
  exact (inStep.lots other pos held).later ordered _ ⟨rfl,rfl⟩

theorem inStep_accepted (inStep : InStep s) {trade : Trade} {result : OrderResult} {t' : Tracker} {m' : MockTrader}
    (left : s.tracker.executeTrade symbol direction shares price timestamp none = (.ok trade,t'))
    (right : s.paper.submitOrder symbol direction .market shares price = (.ok result,m'))
    (cash : t'.cash = m'.cash) (rules : SameRules t' m')
    (positions : t'.positions = s.tracker.positions.put symbol entry)
    (infos : m'.positions = s.paper.positions.put symbol info) (same : Option.Rel SameLots entry info)
    (lots : ∀ pos, entry = some pos → LongAt timestamp pos) :
    InStep (s.step (.order symbol direction shares price timestamp)) := by
  simp only [step,left,right]
  refine ⟨by simp [inStep.agreed,accepts],⟨cash,?_⟩,rules,?_⟩
  · intro other
    rw [positions,infos,Book.get_put,Book.get_put]
    split
    · exact same
    · exact inStep.books.lots other
  · rw [positions]
    apply Book.All.put
    · intro other pos held
      exact (inStep.lots other pos held).later ordered _ ⟨rfl,rfl⟩
    · exact fun pos written => lots pos written _ ⟨rfl,rfl⟩

omit ordered in
theorem sameLots_mark (same : Option.Rel SameLots entry info) (price : ℚ) : Option.Rel SameLots (entry.map (·.mark price)) info := by
  cases same with
  | none => exact .none
  | some lots => exact .some lots

omit ordered in
theorem longLots_mark (lots : LongLots s pos) (price : ℚ) : LongLots s (pos.mark price) :=
  ⟨⟨lots.whole.quantity,lots.whole.quantityToday,lots.whole.quantityYesterday⟩,lots.long,lots.today,lots.yesterday,
    lots.sum,lots.fresh⟩

theorem buy_lots (symbol : String) (fill : ℚ) (same : Option.Rel SameLots entry info)
    (lots : ∀ pos, entry = some pos → LongLots s pos) (some_ : 0 < shares) :
    ∃ pos, Position.buy entry symbol shares fill timestamp = some pos ∧
      SameLots pos (bought info symbol shares fill) ∧ LongAt timestamp pos := by
  have positive : (0 : ℚ) < shares := by exact_mod_cast some_
  cases same with
  | none =>
    refine ⟨_,rfl,⟨rfl,rfl,rfl,rfl⟩,?_⟩
    intro s' now
    exact ⟨⟨whole_natCast _,whole_natCast _,Tracker.Whole.zero⟩,positive,positive.le,le_rfl,add_zero _,
      fun _ => ⟨now.2,timestamp,now.1,rfl⟩⟩
  | @some pos info agree =>
    have prior := lots pos rfl
    obtain ⟨quantity,avgCost,today,yesterday⟩ := agree
    have held := prior.long
    have whole := prior.whole.quantity.add (whole_natCast shares)
    have kept : ¬ isFlat (pos.quantity + shares) = true := by
      rw [whole.isFlat]
      linarith
    simp only [Position.buy,if_neg kept,prior.today_kept ordered]
    refine ⟨_,rfl,?_,?_⟩
    · simp only [bought,SameLots,quantity,avgCost,today,yesterday,and_self]
    · intro s' now
      have counters := prior.sum
      exact ⟨⟨whole,prior.whole.quantityToday.add (whole_natCast shares),prior.whole.quantityYesterday⟩,
        by dsimp only; linarith,by dsimp only; linarith [prior.today],prior.yesterday,by dsimp only; linarith,
        fun _ => ⟨now.2,timestamp,now.1,rfl⟩⟩

theorem sell_lots {quantity : ℚ} (fill pnl : ℚ) {info : PositionInfo}
    (same : SameLots pos info) (lots : LongLots s pos) (whole : Tracker.Whole quantity)
    (available : quantity ≤ pos.quantityYesterday) :
    let left : Position :=
      { pos with quantityYesterday := pos.quantityYesterday - quantity, realizedPnL := pnl,
                 quantity := pos.quantity - quantity }
    Option.Rel SameLots left.unlessFlat (sold info quantity fill) ∧
      ∀ after, left.unlessFlat = some after → LongAt timestamp after := by
  intro left
  obtain ⟨quantity_eq,avgCost_eq,today_eq,yesterday_eq⟩ := same
  have counters := lots.sum
  have rest : 0 ≤ pos.quantity - quantity := by linarith [lots.today]
  have wholeLeft : Tracker.Whole left.quantity := lots.whole.quantity.sub whole
  unfold Position.unlessFlat sold
  rw [← quantity_eq]
  by_cases flat : isFlat left.quantity = true
  · have zero : pos.quantity - quantity = 0 := wholeLeft.isFlat.mp flat
    simp only [if_pos flat,zero,le_refl,if_true]
    exact ⟨.none,fun _ impossible => by cases impossible⟩
  · have some_ : 0 < pos.quantity - quantity := by
      rcases rest.lt_or_eq with positive | zero
      · exact positive
      · exact absurd (wholeLeft.isFlat.mpr zero.symm) flat
    simp only [if_neg flat,if_neg (not_le.mpr some_)]
    refine ⟨.some ⟨rfl,avgCost_eq,today_eq,by simp only [left,yesterday_eq]⟩,?_⟩
    intro after written s' now
    cases written
    have later := lots.later ordered s' now
    exact ⟨⟨wholeLeft,lots.whole.quantityToday,lots.whole.quantityYesterday.sub whole⟩,some_,lots.today,
      by simp only [left]; linarith,by simp only [left]; linarith,later.fresh⟩

variable (inStep : InStep s) (some_ : 0 < shares) (valued : 0 < price) (named : symbol ≠ "")
include inStep some_ valued named

theorem step_buy : InStep (s.step (.order symbol .long shares price timestamp)) := by
  have rules := inStep.rules
  have booked := Tracker.executeTrade_buy symbol shares price timestamp rules.names
  have submitted := submitOrder_market .long named some_ valued rules.provider rules.bars
  have fill := paper_price symbol .long shares price rules.model
  rw [if_pos rfl] at fill
  simp only [MockTrader.executeBuy,fill] at submitted
  rw [rules.slippageRate,rules.fees,inStep.books.cash] at booked
  dsimp only at booked
  split at booked
  next dear =>
    obtain ⟨e,left⟩ := booked
    rw [if_pos dear] at submitted
    exact inStep_rejected ordered inStep left submitted
  next affordable =>
    obtain ⟨trade,t',left,cash,config,positions⟩ := booked
    rw [if_neg affordable] at submitted
    obtain ⟨pos,bought,same,lots⟩ := buy_lots ordered symbol (price * (1 + s.paper.config.slippageRate))
      (inStep.books.lots symbol) (inStep.lots symbol) some_
    rw [bought] at positions
    refine inStep_accepted ordered inStep left submitted cash
      (rules.of_config config rfl rfl) positions rfl (.some (show SameLots (pos.mark price) _ from same)) ?_
    intro after written s' now
    cases written
    exact longLots_mark (lots s' now) price

theorem step_sell : InStep (s.step (.order symbol .close shares price timestamp)) := by
  have rules := inStep.rules
  have submitted := submitOrder_market .close named some_ valued rules.provider rules.bars
  have fill (quantity : ℚ) := paper_price symbol .close quantity price rules.model
  simp only [MockTrader.executeSell,fill] at submitted
  have positive : (0 : ℚ) < shares := by exact_mod_cast some_
  have same := inStep.books.lots symbol
  generalize held : s.tracker.positions[symbol]? = entry at same
  generalize found : s.paper.positions[symbol]? = info at same submitted
  cases same with
  | none =>
    obtain ⟨e,left⟩ := Tracker.executeTrade_sell_missing shares price timestamp held
    exact inStep_rejected ordered inStep left submitted
  | @some pos info lotsEq =>
    have lots := inStep.lots symbol pos held
    have inside : pos.quantityYesterday ≤ pos.quantity := by linarith [lots.today,lots.sum]
    have booked := Tracker.executeTrade_sell price timestamp held lots.long inside positive
    rw [rules.slippageRate,rules.fees] at booked
    have quantity_eq := lotsEq.1
    have yesterday_eq := lotsEq.2.2.2
    have open_ : ¬ info.quantity ≤ 0 := by rw [← quantity_eq]; exact not_le.mpr lots.long
    simp only [if_neg open_,← yesterday_eq] at submitted
    simp only [gt_iff_lt,← min_def_lt] at submitted
    split at booked
    next unsettled =>
      obtain ⟨e,left⟩ := booked
      simp only [if_pos unsettled] at submitted
      exact inStep_rejected ordered inStep left submitted
    next settled =>
      obtain ⟨trade,t',left,cash,config,pnl,positions⟩ := booked
      simp only [if_neg settled] at submitted
      have wholeSold : Tracker.Whole (min pos.quantityYesterday (shares : ℚ)) :=
        lots.whole.quantityYesterday.min (whole_natCast shares)
      obtain ⟨sameLeft,longLeft⟩ := sell_lots ordered (price * (1 - s.paper.config.slippageRate)) pnl
        lotsEq lots wholeSold (min_le_left _ _)
      rw [inStep.books.cash] at cash
      refine inStep_accepted ordered inStep left submitted cash
        (rules.of_config config rfl rfl) positions rfl (sameLots_mark sameLeft price) ?_
      intro after written s' now
      obtain ⟨before,kept,rfl⟩ := map_eq_some_iff.mp written
      exact longLots_mark (longLeft before kept s' now) price

end Ordered

theorem step_advance (inStep : InStep s) : InStep (s.step .advanceDay) := by
  have rolled := Tracker.advanceDay_positions s.tracker
  have long : s.tracker.advanceDay.cash = s.tracker.cash := by
    unfold Tracker.advanceDay
    dsimp only
    split
    · rfl
    refine Book.foldl_unchanged _ _ _ ?_
    intro symbol pos held cash
    rw [Book.get_map] at held
    obtain ⟨before,found,rfl⟩ := map_eq_some_iff.mp held
    have positive := (inStep.lots symbol before found).long
    have quantity : before.rollOver.quantity = before.quantity := by
      unfold Position.rollOver
      split <;> rfl
    simp [Position.lendingCost,quantity,positive.le]
  have config : Tracker.SameConfig s.tracker s.tracker.advanceDay := by
    unfold Tracker.advanceDay
    dsimp only
    split <;> exact ⟨rfl,rfl,rfl,rfl,rfl,rfl⟩
  refine ⟨inStep.agreed,⟨long.trans inStep.books.cash,?_⟩,inStep.rules.of_config config rfl rfl,?_⟩
  · intro symbol
    change Option.Rel SameLots s.tracker.advanceDay.positions[symbol]? (s.paper.positions.map _)[symbol]?
    rw [rolled,Book.get_map,Book.get_map]
    have lots := inStep.books.lots symbol
    generalize s.tracker.positions[symbol]? = entry at lots ⊢
    generalize s.paper.positions[symbol]? = held at lots ⊢
    cases lots with
    | none => exact .none
    | @some pos info same =>
      obtain ⟨quantity,avgCost,today,yesterday⟩ := same
      unfold Position.rollOver rollOver
      simp only [map_some,today]
      split
      · exact .some ⟨quantity,avgCost,rfl,by simp only [yesterday]⟩
      · exact .some ⟨quantity,avgCost,today,yesterday⟩
  · change s.tracker.advanceDay.positions.All _
    rw [rolled]
    refine Book.All.map inStep.lots _ ?_
    intro symbol pos lots
    have counters := lots.sum
    unfold Position.rollOver
    split
    · exact ⟨⟨lots.whole.quantity,Tracker.Whole.zero,lots.whole.quantityYesterday.add lots.whole.quantityToday⟩,
        lots.long,le_rfl,by dsimp only; linarith [lots.yesterday],by dsimp only; linarith,fun pending => absurd rfl pending⟩
    next none_ =>
      have empty : pos.quantityToday = 0 := le_antisymm (not_lt.mp none_) lots.today
      exact ⟨lots.whole,lots.long,lots.today,lots.yesterday,lots.sum,fun pending => absurd empty pending⟩

theorem step_inStep (s : Session) (op : PaperOp) (inStep : InStep s) (legal : LongOnly s op) : InStep (s.step op) := by
  cases op with
  | order =>
    obtain ⟨side,some_,valued,named,ordered⟩ := legal
    rcases side with rfl | rfl
    · exact step_buy ordered inStep some_ valued named
    · exact step_sell ordered inStep some_ valued named
  | advanceDay => exact step_advance inStep

/-- A paper trader and a tracker configured with the cash and the rates of `rates`, the stamp rate
constant in time. -/
def opened (config rates : MockTraderConfig) (sqrt : ℚ → ℚ) (limits : PriceLimitConfig) (newStockDays : Int) : Session where
  tracker := Tracker.newTracker rates.initialCash rates.commissionRate rates.slippageRate
    ⟨rates.stampTaxRate,rates.stampTaxRate,rates.minCommission,rates.transferFeeRate,limits,newStockDays⟩
  paper := newMockTrader config sqrt
  lastTrade := none
  advanced := true
  agreed := true

theorem opened_inStep {config : MockTraderConfig} (sqrt : ℚ → ℚ) (limits : PriceLimitConfig) (newStockDays : Int)
    (model : config.slippageModel = .unset) (provider : config.priceProvider = none) :
    InStep (opened config (withDefaults config) sqrt limits newStockDays) := by
  have stamp : 0 < (withDefaults config).stampTaxRate :=
    MockTrader.orDefault_pos _ (by norm_num [Fees.defaultStampTaxRate])
  have constant : ∀ asOf, Fees.stampTaxRateFor asOf (withDefaults config).stampTaxRate
      (withDefaults config).stampTaxRate = (withDefaults config).stampTaxRate := by
    intro asOf
    simp [Fees.stampTaxRateFor,not_le.mpr stamp]
  refine ⟨rfl,⟨rfl,?_⟩,⟨?_,rfl,model,provider,rfl⟩,Book.all_empty _⟩
  · intro symbol
    exact .none
  · intro asOf
    simp only [opened,Tracker.newTracker,Tracker.feeSchedule,if_neg stamp.ne',constant,newMockTrader,
      feeSchedule]

/-- With the rates in force on both sides equal, the two executors answer every order of a
long-only history alike and keep the same books after every step. -/
theorem paper_simulates_tracker (config : MockTraderConfig) (sqrt : ℚ → ℚ) (limits : PriceLimitConfig)
    (newStockDays : Int) (ops : List PaperOp) (model : config.slippageModel = .unset)
    (provider : config.priceProvider = none)
    (legal : Guarded step LongOnly (opened config (withDefaults config) sqrt limits newStockDays) ops) :
    Along step (fun s => s.agreed = true ∧ SameBooks s.tracker s.paper)
      (opened config (withDefaults config) sqrt limits newStockDays) ops := by
  have start := opened_inStep sqrt limits newStockDays model provider
  exact (along_invariant step_inStep start legal).mono fun _ inStep => ⟨inStep.agreed,inStep.books⟩

def paperConfig : MockTraderConfig where
  initialCash := 100000
  commissionRate := 3/10000
  stampTaxRate := 5/10000
  slippageRate := 1/1000
  transferFeeRate := 1/100000
  minCommission := 5
  priceProvider := none
  slippageModel := .unset
  impactSigma := 0
  impactLiquidityFactor := 0

def noLimits : PriceLimitConfig := ⟨1/10,1/10,5/100,2/10⟩

def paperRoundTrip : List PaperOp :=
  [.order "600000.SH" .long 200 10 (Time.date 2024 1 2),.advanceDay,
    .order "600000.SH" .close 100 11 (Time.date 2024 1 3)]

theorem paperRoundTrip_simulated : Along step (fun s => s.agreed = true ∧ SameBooks s.tracker s.paper)
      (opened paperConfig (withDefaults paperConfig) id noLimits 60) paperRoundTrip := by
  apply paper_simulates_tracker _ _ _ _ _ rfl rfl
  refine ⟨⟨.inl rfl,by decide,by norm_num,by decide,by simp [opened]⟩,trivial,
    ⟨.inr rfl,by decide,by norm_num,by decide,?_⟩,trivial⟩
  intro last dated
  cases dated
  exact ⟨by decide,.inl rfl⟩

/-- Configured with a slippage rate of zero, the paper trader fills at its default rate: after one
buy the cash differs. With equal positive rates, an order without a symbol is rejected by the
paper trader and booked by the tracker. -/
theorem zeroSlippage_and_emptySymbol_diverge :
    (let config := { paperConfig with slippageRate := 0 }
      let s := (opened config config id noLimits 60).step (.order "600000.SH" .long 100 10 (Time.date 2024 1 2))
      ¬ SameBooks s.tracker s.paper) ∧
    ((opened paperConfig paperConfig id noLimits 60).step (.order "" .long 100 10 (Time.date 2024 1 2))).agreed = false := by
  refine ⟨?_,by decide +kernel⟩
  intro config s same
  have cash := same.cash
  revert cash
  decide +kernel

end Session
end QuantTrading
