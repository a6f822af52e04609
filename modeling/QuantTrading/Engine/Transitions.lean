import QuantTrading.Engine.Steps

/-! The day loop as transitions of one order desk: the ledger, the dispatcher and the
child orders it has handed out. The loop is a sequence of transitions, corporate actions
last, so a law of a run is checked on the transitions alone. Steps of the ledger are what
is left of them without the dispatcher.
-/
namespace QuantTrading
open Library ExecAlgo List

namespace Tracker

/-- Values restated: every entry keeps its shares and may be marked at a positive price. -/
structure Revalued (t t' : Tracker) : Prop extends Quiet t t' where
  entries : ∀ symbol : String, t'.positions[symbol]? = t.positions[symbol]? ∨
    ∃ (pos : Position) (price : ℚ), 0 < price ∧ t.positions[symbol]? = some pos ∧
      t'.positions[symbol]? = some (pos.mark price)

theorem SameAccount.revalued {t t' : Tracker} (same : SameAccount t t') : Revalued t t' :=
  ⟨same.quiet,fun symbol => .inl (by rw [same.positions])⟩

variable (t : Tracker)

theorem processDividend_revalued (symbol : String) (dividend : Dividend) :
    Revalued t (t.processDividend symbol dividend) :=
  ⟨processDividend_quiet t symbol dividend,fun _ => .inl (by rw [processDividend_positions])⟩

theorem recordDailyValue_revalued (date : Time) (prices : Book String ℚ)
    (positive : ∀ (symbol : String) (price : ℚ), prices[symbol]? = some price → 0 < price) :
    Revalued t (t.recordDailyValue date prices).2 := by
  refine ⟨recordDailyValue_quiet t date prices,?_⟩
  intro symbol
  simp only [recordDailyValue,Book.get_map]
  cases held : t.positions[symbol]? with
  | none => exact .inl rfl
  | some pos =>
    cases priced : prices[symbol]? with
    | none => exact .inl (by simp)
    | some price => exact .inr ⟨pos,price,positive symbol price priced,rfl,by simp⟩

def Marked (trade : Trade) (t' : Tracker) : Prop :=
  ∃ request fees price, 0 < price ∧ t.Posted request fees price trade t'

end Tracker

structure Desk where
  ledger : Ledger
  dispatcher : Dispatcher
  due : List DueChild

def BacktestState.desk (s : BacktestState) : Desk := ⟨s.ledger,s.dispatcher,[]⟩

open BacktestState (desk ledger)

inductive Phase where
  | delisting | signals | children | stopLosses | actions
deriving DecidableEq

def Phase.Books : Phase → Cause → Prop
  | .delisting,.delisting => True
  | .signals,.signal _ _ => True
  | .stopLosses,.stopLoss _ => True
  | _,_ => False

theorem Phase.Books.ne_forceClose {phase : Phase} {cause : Cause} (books : phase.Books cause) : cause ≠ .forceClose := by
  rintro rfl
  cases phase <;> exact books

namespace Engine

/-- One transition of the desk on a day. Every fill of a child order meets `meets`. -/
inductive Transition (e : Engine) (day : DayData) (meets : Tracker → Trade → Prop) (phase : Phase) : Desk → Desk → Prop where
  | restated {d : Desk} {t : Tracker} (kept : d.ledger.tracker.Revalued t) :
      Transition e day meets phase d { d with ledger := { d.ledger with tracker := t } }
  | booked {d : Desk} {cause : Cause} {trade : Trade} {t : Tracker} (own : phase.Books cause)
      (origin : Origin e day d.ledger.tracker trade t cause) (marked : d.ledger.tracker.Marked trade t) :
      Transition e day meets phase d { d with ledger := d.ledger.book cause (some trade,t) }
  | attached {d : Desk} {spec : AttachSpec} {dispatcher : Dispatcher} (now : phase = .signals)
      (accepted : d.dispatcher.attach spec = .ok dispatcher) :
      Transition e day meets phase d { d with dispatcher := dispatcher }
  | cancelled {d : Desk} (symbol : String) :
      Transition e day meets phase d { d with dispatcher := d.dispatcher.cancelSymbol symbol }
  | handed {d : Desk} (symbol : String) (date : Time) (now : phase = .children) (idle : d.due = []) :
      Transition e day meets phase d
        ⟨d.ledger,(d.dispatcher.onBar symbol date).2,(d.dispatcher.onBar symbol date).1⟩
  | unfilled {d : Desk} {dc : DueChild} {rest : List DueChild} (next : d.due = dc :: rest) :
      Transition e day meets phase d { d with due := rest }
  -- The parent is told of the fill whatever the tracker answers.
  | filled {d : Desk} {dc : DueChild} {rest : List DueChild} {service : BacktestExecutionService} {bar : OHLCV}
      {draft : Trade} {dispatcher : Dispatcher} (now : phase = .children) (next : d.due = dc :: rest)
      (installed : e.executionService = some service) (today : day.todayBar dc.child.symbol = some bar)
      (filled : service.Filled (childOrder dc day.date) (quoteFor dc.child.symbol 0 day.date (some bar)) draft)
      (told : d.dispatcher.onFill dc.child.orderId draft.quantity = some dispatcher)
      (met : meets d.ledger.tracker draft) :
      Transition e day meets phase d
        ⟨d.ledger.book (.execAlgoChild dc) (answered (d.ledger.tracker.applyTrade draft)),dispatcher,rest⟩
  | split {d : Desk} (split : Split) (now : phase = .actions) :
      Transition e day meets phase d { d with ledger := d.ledger.split split }

abbrev Transits (e : Engine) (day : DayData) (meets : Tracker → Trade → Prop) (phase : Phase) : Desk → Desk → Prop :=
  Relation.ReflTransGen (Transition e day meets phase)

variable {phase : Phase} {t : Tracker} {cause : Cause} {symbol : String} {price : ℚ} {signal : Signal}
   {s : BacktestState} {service : BacktestExecutionService}

variable {e : Engine} {day : DayData} {prices : Book String ℚ} {pos : Position}

theorem Transits.foldl {meets : Tracker → Trade → Prop} {S X : Type}
    (desk : S → Desk) (f : S → X → S) (xs : List X)
    (step : ∀ s x, x ∈ xs → Transits e day meets phase (desk s) (desk (f s x))) (s : S) :
    Transits e day meets phase (desk s) (desk (xs.foldl f s)) := by
  induction xs generalizing s with
  | nil => exact .refl
  | cons x xs ih =>
    exact (step s x (by simp)).trans (ih (fun s x member => step s x (by simp [member])) (f s x))

def Responds (e : Engine) (day : DayData) (t : Tracker) (cause : Cause) (result : Option Trade × Tracker) : Prop :=
  match result with
  | (none,t') => t.SameAccount t'
  | (some trade,t') => Origin e day t trade t' cause ∧ t.Marked trade t'

theorem Responds.answers {result : Option Trade × Tracker}
    (responds : Responds e day t cause result) : Answers e day t cause result := by
  rcases result with ⟨_ | trade,t'⟩
  · exact Tracker.SameAccount.quiet responds
  · exact responds.1

variable {e : Engine} {params : BacktestParams} {day : DayData} {meets : Tracker → Trade → Prop} {date : Time}
  {bar : OHLCV}

theorem applyTrade_responds {draft : Trade} (priced : 0 < draft.price)
    (origin : ∀ trade t', t.Applied draft trade t' → Origin e day t trade t' cause) :
    Responds e day t cause (answered (t.applyTrade draft)) := by
  rcases result : t.applyTrade draft with ⟨error | trade,t'⟩
  · exact Tracker.applyTrade_error result
  · have applied := Tracker.applyTrade_ok result
    exact ⟨origin trade t' applied,_,_,_,priced,applied.posted⟩

theorem executeTrade_responds {direction : Direction} {quantity : ℚ} {opts : Option OrderExecutionOpts}
    (priced : 0 < price)
    (origin : ∀ trade t', t.Executed symbol direction quantity price date opts trade t' → Origin e day t trade t' cause) :
    Responds e day t cause (answered (t.executeTrade symbol direction quantity price date opts)) := by
  rcases result : t.executeTrade symbol direction quantity price date opts with ⟨error | trade,t'⟩
  · exact Tracker.executeTrade_error result
  · have executed := Tracker.executeTrade_ok result
    exact ⟨origin trade t' executed,_,_,_,priced,executed.posted⟩

theorem closePosition_responds (priced : 0 < price)
    (origin : ∀ quantity trade t', t.Executed symbol .close quantity price date none trade t' → Origin e day t trade t'
      cause) : Responds e day t cause (answered (t.closePosition symbol price date)) := by
  rcases result : t.closePosition symbol price date with ⟨error | trade,t'⟩
  · exact Tracker.closePosition_error result
  · obtain ⟨quantity,executed⟩ := Tracker.closePosition_ok result
    exact ⟨origin quantity trade t' executed,_,_,_,priced,executed.posted⟩

theorem submitSignal_responds {targetQty quantity : ℚ}
    (sized : quantity = computeEffectiveTarget t signal.symbol targetQty signal.direction)
    (passed : tradeBlocked day signal = false) (today : day.todayBar signal.symbol = some bar)
    (priced : day.prices[signal.symbol]? = some price) (positive : 0 < price) (ordered : 0 < quantity) :
    Responds e day t (.signal signal targetQty) (e.submitSignal t signal quantity price day) := by
  unfold submitSignal
  split
  next service installed =>
    unfold executeViaExecutionService
    rw [today]
    split
    · exact Tracker.SameAccount.refl t
    rename_i draft accepted
    have filled := BacktestExecutionService.executeOrder_ok accepted
    exact applyTrade_responds filled.positive fun trade t' applied => .service sized installed passed today filled applied
  next absent =>
    split
    next side =>
      exact closePosition_responds positive fun quantity trade t' executed =>
        .directClose absent passed today priced side executed
    · exact executeTrade_responds positive fun trade t' executed =>
        .direct sized absent passed today priced ordered executed

@[simp] theorem updateTargetPositionAfterTrade_desk (s : BacktestState) (trade : Trade) (symbol : String)
    (tp : TargetPosition) (date : Time) : (updateTargetPositionAfterTrade s trade symbol tp date).desk = s.desk := by
  unfold updateTargetPositionAfterTrade
  dsimp only
  split <;> rfl

section
variable (s : BacktestState) (symbol : String)

@[simp] theorem reconcileTargetPosition_desk (date : Time) : (reconcileTargetPosition s symbol date).desk = s.desk := by
  unfold reconcileTargetPosition
  split
  · rfl
  dsimp only
  split <;> rfl

theorem cancelExecAlgoParentsForSymbol_desk : (cancelExecAlgoParentsForSymbol s symbol).desk =
      { s.desk with dispatcher := s.desk.dispatcher.cancelSymbol symbol } := rfl

end

theorem Transits.book {d : Desk} {result : Option Trade × Tracker}
    (own : phase.Books cause) (responds : Responds e day d.ledger.tracker cause result) :
    Transits e day meets phase d { d with ledger := d.ledger.book cause result } := by
  rcases result with ⟨_ | trade,t⟩
  · exact .single (.restated (Tracker.SameAccount.revalued responds))
  · exact .single (.booked own responds.1 responds.2)

theorem attachExecAlgoSignal_attached {d d' : Dispatcher} {qty : ℚ}
    (attached : attachExecAlgoSignal d signal qty date = .ok (some d')) : ∃ spec, d.attach spec = .ok d' := by
  unfold attachExecAlgoSignal at attached
  split at attached
  · cases attached
  · cases attached
  · dsimp only at attached
    generalize accepted : d.attach _ = answer at attached
    cases answer with
    | error => cases attached
    | ok _ =>
      cases attached
      exact ⟨_,accepted⟩

theorem executeSignalTrade_transits {effectiveTarget : ℚ} {tp : TargetPosition}
    (fetched : Fetched e params day) (passed : tradeBlocked day signal = false) (ordered : 0 < effectiveTarget)
    (sized : effectiveTarget = computeEffectiveTarget s.tracker signal.symbol tp.targetQty signal.direction) :
    Transits e day meets .signals s.desk (e.executeSignalTrade day s signal effectiveTarget tp).desk := by
  unfold executeSignalTrade
  dsimp only
  split
  · exact .refl
  rename_i valued
  have priced : ∃ price, day.prices[signal.symbol]? = some price := by
    cases found : day.prices[signal.symbol]? with
    | none => simp [found] at valued
    | some price => exact ⟨price,rfl⟩
  obtain ⟨price,found⟩ := priced
  obtain ⟨bar,today⟩ := fetched.priced found
  have positive : 0 < price := by simpa [found] using valued
  have booked : Transits e day meets .signals s.desk ⟨s.ledger.book (.signal signal tp.targetQty)
      (e.submitSignal s.tracker signal effectiveTarget ((day.prices[signal.symbol]?).getD 0) day),s.dispatcher,[]⟩ := by
    rw [found]
    exact Transits.book trivial (submitSignal_responds sized passed today found positive ordered)
  -- The target entry is written in every branch, the desk only by the parent order or the booking.
  split
  · exact .refl
  next attached =>
    obtain ⟨spec,accepted⟩ := attachExecAlgoSignal_attached attached
    exact .single (.attached (d := s.desk) rfl accepted)
  · generalize e.submitSignal s.tracker signal effectiveTarget _ day = result at booked ⊢
    rcases result with ⟨_ | trade,t⟩
    all_goals split
    all_goals first
      | exact booked
      | exact .refl
      | dsimp only [BacktestState.book]; rw [updateTargetPositionAfterTrade_desk]; exact booked

theorem processSignal_transits {size : Option PositionSize}
    (fetched : Fetched e params day) :
    Transits e day meets .signals s.desk (e.processSignal day s signal size).desk := by
  unfold processSignal
  split
  · exact .refl
  rename_i passed
  split
  · exact .refl
  dsimp only
  split
  · exact .refl
  split
  next ordered =>
    exact executeSignalTrade_transits (s := s.setTarget signal.symbol (nextTarget s signal.symbol _ day.date))
      fetched (by simpa using passed) ordered rfl
  · exact .refl

theorem processSignals_transits (regime : MarketRegime) (signals : List Signal) (fetched : Fetched e params day) :
    Transits e day meets .signals s.desk (e.processSignalsAndExecuteTrades day regime s signals).desk := by
  unfold processSignalsAndExecuteTrades
  dsimp only
  split
  all_goals exact Transits.foldl desk _ _ (fun _ _ _ => processSignal_transits fetched) s

def ChildMeets (service : BacktestExecutionService) (day : DayData) (meets : Tracker → Trade → Prop) (bar : OHLCV)
    (s : BacktestState) (dc : DueChild) : Prop :=
  ∀ draft, service.executeOrder (childOrder dc day.date) (quoteFor dc.child.symbol 0 day.date (some bar)) = .ok draft →
    meets s.tracker draft

def SymbolMeets (service : BacktestExecutionService) (day : DayData) (meets : Tracker → Trade → Prop)
    (s : BacktestState) (symbol : String) : Prop :=
  ∀ bar, day.todayBar symbol = some bar →
    Guarded (executeExecAlgoChild service day bar) (ChildMeets service day meets bar)
      { s with dispatcher := (s.dispatcher.onBar symbol bar.date).2 } (s.dispatcher.onBar symbol bar.date).1

def ChildrenMeet (e : Engine) (day : DayData) (meets : Tracker → Trade → Prop) (s : BacktestState) : Prop :=
  ∀ service, e.executionService = some service →
    Guarded (processSymbolChildren service day) (SymbolMeets service day meets) s s.dispatcher.symbols

section
variable (installed : e.executionService = some service)
include installed

theorem executeExecAlgoChild_transits {dc : DueChild} {rest : List DueChild}
    (today : day.todayBar dc.child.symbol = some bar) (met : ChildMeets service day meets bar s dc) :
    Transits e day meets .children ⟨s.ledger,s.dispatcher,dc :: rest⟩
      { (executeExecAlgoChild service day bar s dc).desk with due := rest } := by
  unfold executeExecAlgoChild
  split
  · exact .single (.unfilled rfl)
  rename_i draft accepted
  have filled := BacktestExecutionService.executeOrder_ok accepted
  split
  · exact .single (.unfilled rfl)
  rename_i dispatcher told
  have booked : Transits e day meets .children ⟨s.ledger,s.dispatcher,dc :: rest⟩
      ⟨s.ledger.book (.execAlgoChild dc) (answered (s.tracker.applyTrade draft)),dispatcher,rest⟩ :=
    .single (.filled rfl rfl installed today filled told (met draft accepted))
  generalize answered (s.tracker.applyTrade draft) = result at booked ⊢
  rcases result with ⟨_ | trade,t⟩
  · exact booked
  · dsimp only [BacktestState.book]
    split <;> exact booked

theorem children_transit (today : day.todayBar symbol = some bar) (due : List DueChild)
    (sliced : ∀ dc ∈ due, dc.child.symbol = symbol) (s : BacktestState)
    (met : Guarded (executeExecAlgoChild service day bar) (ChildMeets service day meets bar) s due) :
    Transits e day meets .children ⟨s.ledger,s.dispatcher,due⟩
      (due.foldl (executeExecAlgoChild service day bar) s).desk := by
  induction due generalizing s with
  | nil => exact .refl
  | cons dc rest ih =>
    obtain ⟨first,later⟩ := met
    have bar_of : day.todayBar dc.child.symbol = some bar := by rw [sliced dc (by simp)]; exact today
    exact (executeExecAlgoChild_transits installed bar_of first).trans
      (ih (fun dc member => sliced dc (by simp [member])) _ later)

theorem processSymbolChildren_transits (met : SymbolMeets service day meets s symbol) :
    Transits e day meets .children s.desk (processSymbolChildren service day s symbol).desk := by
  unfold processSymbolChildren
  split
  · exact .refl
  rename_i bar today
  have handed : Transits e day meets .children s.desk _ := .single (.handed (d := s.desk) symbol bar.date rfl rfl)
  exact handed.trans (children_transit installed today _ (fun dc due => Dispatcher.onBar_symbol due)
    { s with dispatcher := (s.dispatcher.onBar symbol bar.date).2 } (met bar today))

theorem symbols_transit (symbols : List String) (s : BacktestState)
    (met : Guarded (processSymbolChildren service day) (SymbolMeets service day meets) s symbols) :
    Transits e day meets .children s.desk (symbols.foldl (processSymbolChildren service day) s).desk := by
  induction symbols generalizing s with
  | nil => exact .refl
  | cons symbol rest ih => exact (processSymbolChildren_transits installed met.1).trans (ih _ met.2)

end

theorem processExecAlgoChildren_transits (met : ChildrenMeet e day meets s) :
    Transits e day meets .children s.desk (e.processExecAlgoChildren day s).desk := by
  unfold processExecAlgoChildren
  iterate 2 (split; · exact .refl)
  rename_i service installed
  exact symbols_transit installed _ s (met service installed)

theorem executeStopLoss_transits {event : StopLossEvent} (today : day.todayBar event.symbol = some bar)
    (level : 0 < event.price) : Transits e day meets .stopLosses s.desk (executeStopLoss day s event).desk := by
  have booked : Transits e day meets .stopLosses s.desk ⟨s.ledger.book (.stopLoss event)
      (answered (s.tracker.executeTrade event.symbol .close event.quantity event.price day.date none)),s.dispatcher,[]⟩ :=
    Transits.book trivial (executeTrade_responds level fun trade t' executed => .stopLoss today executed)
  unfold executeStopLoss
  generalize answered _ = result at booked ⊢
  rcases result with ⟨_ | trade,t⟩
  · exact booked
  · dsimp only [BacktestState.book]
    rw [cancelExecAlgoParentsForSymbol_desk,reconcileTargetPosition_desk]
    exact booked.tail (.cancelled event.symbol)

theorem processStopLosses_transits (fetched : Fetched e params day) :
    Transits e day meets .stopLosses s.desk (e.processStopLosses day s).desk := by
  unfold processStopLosses
  split
  · exact .refl
  refine Transits.foldl desk _ _ (fun s event member => ?_) s
  have triggered := StopLossChecker.checkStopLoss_triggered member
  obtain ⟨price,priced⟩ := triggered.priced
  obtain ⟨bar,today⟩ := fetched.priced priced
  exact executeStopLoss_transits today triggered.level

theorem cancels_transit {X : Type} (symbol : X → String) (xs : List X) (s : BacktestState) :
    Transits e day meets phase s.desk (xs.foldl (fun s x => cancelExecAlgoParentsForSymbol s (symbol x)) s).desk :=
  Transits.foldl desk _ xs (fun s x _ => .single (.cancelled (d := s.desk) (symbol x))) s

theorem processCorporateActions_transits :
    Transits e day meets .actions s.desk (e.processCorporateActions day s).desk := by
  unfold processCorporateActions
  refine Relation.ReflTransGen.trans (Transits.foldl desk payDividend (e.dividendsOn day.date) ?_ s) ?_
  · intro s dividend _
    exact .single (.restated (d := s.desk) (Tracker.processDividend_revalued _ _ _))
  generalize (e.dividendsOn day.date).foldl payDividend s = s
  refine Relation.ReflTransGen.trans (Transits.foldl desk (creditSplit day.date) (e.splitsOn day.date) ?_ s) ?_
  · intro s split _
    rw [creditSplit,reconcileTargetPosition_desk]
    exact .single (.split (d := s.desk) split rfl)
  exact cancels_transit Split.symbol _ _

theorem positive_pos {q : ℚ} (priced : positive q = some price) : 0 < price := by
  unfold positive at priced
  split at priced
  · cases priced
    assumption
  · cases priced

theorem closingPrice_pos (found : closingPrice prices symbol pos = some price) : 0 < price := by
  rcases Option.or_eq_some_iff.mp found with quoted | ⟨_,last⟩
  · obtain ⟨q,_,priced⟩ := bind_eq_some_iff.mp quoted
    exact positive_pos priced
  · exact positive_pos last

theorem closePosition_forced (forced : cause = .delisting ∨ cause = .forceClose) (found : closingPrice prices symbol pos = some price) :
    Responds e day t cause (answered (t.closePosition symbol price day.date)) := by
  refine closePosition_responds (closingPrice_pos found) fun quantity trade t' executed => ?_
  rcases forced with rfl | rfl
  · exact .delisting executed
  · exact .forceClose executed

theorem forceCloseDelisted_transits :
    Transits e day meets .delisting s.desk (e.forceCloseDelisted day s).1.desk := by
  refine Transits.foldl (fun state : BacktestState × List String => state.1.desk) _ _ (fun state entry _ => ?_) (s,[])
  obtain ⟨s,closed⟩ := state
  have moved : Transits e day meets .delisting s.desk
      (forceCloseOne .delisting day.prices day.date s entry.1 entry.2).2.desk := by
    unfold forceCloseOne
    split
    · exact .refl
    rename_i price found
    exact Transits.book (d := s.desk) trivial (closePosition_forced (.inl rfl) found)
  dsimp only
  generalize forceCloseOne .delisting day.prices day.date s entry.1 entry.2 = result at moved ⊢
  rcases result with ⟨_ | trade,s'⟩
  · exact moved
  · simpa using moved

theorem Fetched.price_pos (fetched : Fetched e params day)
    (found : day.prices[symbol]? = some price) : 0 < price := by
  obtain ⟨symbols,date,prevClose,rfl⟩ := fetched
  simp only [fetchMarketDataForDay,Book.get_collectInto] at found
  split at found
  · simp only [getElem?_empty,Option.or_none,bind_eq_some_iff] at found
    obtain ⟨result,_,valued⟩ := found
    exact positive_pos valued
  · simp at found

def openDay (e : Engine) (day : DayData) (s : BacktestState) : BacktestState :=
  let s := s.setTracker (s.tracker.setStockNames (stockNamesFor day.stocks))
  let (s,closed) := e.forceCloseDelisted day s
  let s := closed.foldl cancelExecAlgoParentsForSymbol s
  s.setTracker (s.tracker.setAsOf day.date)

def afterSignals (e : Engine) (day : DayData) (s : BacktestState) : BacktestState :=
  let s := e.openDay day s
  e.processSignalsAndExecuteTrades day (e.regimeOf day) s (e.getSignals s.tracker day)

def afterChildren (e : Engine) (day : DayData) (s : BacktestState) : BacktestState :=
  e.processExecAlgoChildren day (e.afterSignals day s)

def afterStopLosses (e : Engine) (day : DayData) (s : BacktestState) : BacktestState :=
  e.processStopLosses day (e.afterChildren day s)

theorem tradeDay_phases (e : Engine) (day : DayData) (s : BacktestState) : e.tradeDay day s =
      let s := e.processCorporateActions day (e.afterStopLosses day s)
      s.setTracker (s.tracker.recordDailyValue day.date day.prices).2 := rfl

theorem openDay_transits : Transits e day meets .delisting s.desk (e.openDay day s).desk := by
  unfold openDay
  dsimp only
  let named := s.tracker.setStockNames (stockNamesFor day.stocks)
  refine Relation.ReflTransGen.head (.restated (t := named) ⟨⟨rfl,rfl,rfl,fun _ => rfl⟩,fun _ => .inl rfl⟩) ?_
  refine Relation.ReflTransGen.trans (forceCloseDelisted_transits (s := s.setTracker named)) ?_
  generalize e.forceCloseDelisted day _ = delisted
  obtain ⟨s,closed⟩ := delisted
  refine Relation.ReflTransGen.tail (cancels_transit id closed s) ?_
  exact .restated (d := (closed.foldl cancelExecAlgoParentsForSymbol s).desk)
    ⟨⟨rfl,rfl,rfl,fun _ => rfl⟩,fun _ => .inl rfl⟩

theorem closeDay_transits (fetched : Fetched e params day) :
    Transits e day meets .actions (e.afterStopLosses day s).desk (e.tradeDay day s).desk := by
  have actions : Transits e day meets .actions (e.afterStopLosses day s).desk _ := processCorporateActions_transits
  rw [tradeDay_phases]
  exact actions.tail (.restated (Tracker.recordDailyValue_revalued _ _ _ fun _ _ => fetched.price_pos))

structure DayTransits (e : Engine) (day : DayData) (meets : Tracker → Trade → Prop) (s : BacktestState) : Prop where
  delisting : Transits e day meets .delisting s.desk (e.openDay day s).desk
  signals : Transits e day meets .signals (e.openDay day s).desk (e.afterSignals day s).desk
  children : Transits e day meets .children (e.afterSignals day s).desk (e.afterChildren day s).desk
  stopLosses : Transits e day meets .stopLosses (e.afterChildren day s).desk (e.afterStopLosses day s).desk
  actions : Transits e day meets .actions (e.afterStopLosses day s).desk (e.tradeDay day s).desk

theorem tradeDay_transits (fetched : Fetched e params day)
    (met : ChildrenMeet e day meets (e.afterSignals day s)) : DayTransits e day meets s where
  delisting := openDay_transits
  signals := processSignals_transits _ _ fetched
  children := processExecAlgoChildren_transits met
  stopLosses := processStopLosses_transits fetched
  actions := closeDay_transits fetched

def dayData (e : Engine) (params : BacktestParams) (s : BacktestState) (date : Time) : DayData × Book String ℚ :=
  e.fetchMarketDataForDay params (e.eligibleUniverse params.stockPool date (heldSymbols s.tracker)) date s.prevCloseCache

def startDay (e : Engine) (params : BacktestParams) (s : BacktestState) (date : Time) : BacktestState :=
  { s with ledger := s.ledger.startDay (e.dayData params s date).1, prevCloseCache := (e.dayData params s date).2 }

def DayMeets (e : Engine) (params : BacktestParams) (meets : Tracker → Trade → Prop) (s : BacktestState) (date : Time) :
    Prop :=
  ChildrenMeet e (e.dayData params s date).1 meets (e.afterSignals (e.dayData params s date).1 (e.startDay params s date))

theorem ChildrenMeet.trivial (e : Engine) (day : DayData) (s : BacktestState) : ChildrenMeet e day (fun _ _ => True) s := by
  intro service _
  refine Guarded.of_forall (fun _ _ => ?_) _ _
  intro bar _
  exact Guarded.of_forall (fun _ _ _ _ => True.intro) _ _

theorem DayMeets.trivial (e : Engine) (params : BacktestParams) (s : BacktestState) (date : Time) :
    DayMeets e params (fun _ _ => True) s date :=
  ChildrenMeet.trivial _ _ _

inductive Day (e : Engine) (params : BacktestParams) (meets : Tracker → Trade → Prop) (date : Time) (d : Desk) :
    Desk → Prop where
  | mk {day : DayData} {opened signalled worked stopped acted : Desk} (fetched : Fetched e params day)
      (dated : day.date = date)
      (delisting : Transits e day meets .delisting ⟨d.ledger.startDay day,d.dispatcher,[]⟩ opened)
      (signals : Transits e day meets .signals opened signalled)
      (children : Transits e day meets .children signalled worked)
      (stopLosses : Transits e day meets .stopLosses worked stopped)
      (actions : Transits e day meets .actions stopped acted) (idle : acted.due = []) :
      Day e params meets date d ⟨acted.ledger.advanceDay,acted.dispatcher,[]⟩

theorem runDay_day (s : BacktestState) (date : Time) (met : DayMeets e params meets s date) :
    Day e params meets date s.desk (e.runDay params s date).desk := by
  have fetched : Fetched e params (e.dayData params s date).1 := ⟨_,_,_,rfl⟩
  have dated : (e.dayData params s date).1.date = date := rfl
  have phases : DayTransits e (e.dayData params s date).1 meets (e.startDay params s date) := tradeDay_transits fetched met
  have whole := Day.mk (d := s.desk) fetched dated phases.delisting phases.signals phases.children phases.stopLosses
    phases.actions rfl
  exact whole

theorem Transition.moves {d d' : Desk} (transition : Transition e day meets phase d d') :
    Moves e params day false d.ledger d'.ledger := by
  cases transition with
  | restated kept => exact .quiet kept.toQuiet
  | @booked cause trade t own origin _ =>
    have answers : Answers e day d.ledger.tracker cause (some trade,t) := origin
    exact .book answers (by simp [own.ne_forceClose])
  | filled _ _ installed today filled =>
    have responds := applyTrade_responds (t := d.ledger.tracker) filled.positive
      fun trade t' applied => .child installed today filled applied
    exact .book responds.answers (by simp)
  | split => exact .split
  | _ => exact .refl

theorem Transits.moves {d d' : Desk} (transits : Transits e day meets phase d d') :
    Moves e params day false d.ledger d'.ledger := by
  induction transits with
  | refl => exact .refl
  | tail _ step ih => exact ih.trans step.moves

def Rested (l : Ledger) : Prop := ∀ record ∈ l.days.head?, record.closed = true

theorem Day.steps {d d' : Desk} (whole : Day e params meets date d d') (rested : Rested d.ledger) :
    Steps e params d.ledger d'.ledger ∧ ∃ day, day.date = date ∧ OnDay day true d'.ledger := by
  cases whole with
  | @mk day _ _ _ _ acted fetched dated delisting signals children stopLosses actions _ =>
    have moved : Moves e params day false (d.ledger.startDay day) acted.ledger :=
      (((delisting.moves.trans signals.moves).trans children.moves).trans stopLosses.moves).trans actions.moves
    obtain ⟨steps,record,past,today,sameDay,open_⟩ := moved ⟨_,_,rfl,rfl,rfl⟩
    refine ⟨?_,day,dated,{ record with closed := true },past,?_,sameDay,rfl⟩
    · exact (Relation.ReflTransGen.single (.started fetched rested)).trans (steps.tail (.advanced today open_))
    · simp [Ledger.advanceDay,today]

theorem OnDay.rested {l : Ledger} (on : OnDay day true l) : Rested l := by
  obtain ⟨record,past,today,_,closed⟩ := on
  intro head member
  rw [today,head?_cons,Option.mem_some_iff] at member
  rw [← member]
  exact closed

theorem days_steps (e : Engine) (params : BacktestParams) (days : List Time) (s : BacktestState) (rested : Rested s.ledger) :
    Steps e params s.ledger (days.foldl (e.runDay params) s).ledger ∧
    ∀ last ∈ days.getLast?, ∃ day, day.date = last ∧ OnDay day true (days.foldl (e.runDay params) s).ledger := by
  induction days generalizing s with
  | nil => exact ⟨.refl,by simp⟩
  | cons date rest ih =>
    obtain ⟨steps,day,dated,on⟩ := (runDay_day s date (DayMeets.trivial e params s date)).steps rested
    obtain ⟨more,final⟩ := ih (e.runDay params s date) on.rested
    refine ⟨steps.trans more,?_⟩
    intro last member
    cases rest with
    | nil =>
      rw [getLast?_singleton,Option.mem_some_iff] at member
      exact ⟨day,dated.trans member,on⟩
    | cons => exact final last (by rwa [getLast?_cons_cons] at member)

/-- A whole run is a sequence of steps from the fresh ledger. -/
theorem runBacktest_steps (ran : e.runBacktest params = some s) :
    Steps e params (e.initialState params).ledger s.ledger := by
  obtain ⟨last,member,rfl⟩ := map_eq_some_iff.mp ran
  obtain ⟨steps,final⟩ := days_steps e params e.tradingDays (e.initialState params) (by simp [Rested,initialState])
  obtain ⟨day,rfl,on⟩ := final last member
  generalize e.tradingDays.foldl (e.runDay params) (e.initialState params) = s at steps on ⊢
  have forced : Moves e params day true s.ledger (forceCloseAllPositions ∅ day.date s).ledger := by
    refine Moves.foldl ledger _ _ (fun s entry _ => ?_) s
    unfold forceCloseOne
    split
    · exact .refl
    rename_i price found
    exact Moves.book (closePosition_forced (.inr rfl) found).answers (by simp)
  exact (steps.trans (forced on).1).tail (.quiet (Tracker.recordDailyValue_quiet _ _ _))

end Engine
end QuantTrading
