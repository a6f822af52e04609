import QuantTrading.Engine.MarketRules
import QuantTrading.ExecAlgo.Dispatch

/-! The progress of parent orders against the tracker's books. The loop tells a parent of a
child's fill before it hands the fill to the tracker and never takes it back, so the two
agree as long as the tracker accepts every such fill in full.
-/
namespace QuantTrading
open Library ExecAlgo List

namespace Tracker

/-- The shares of a risk-warning stock bought on the day, with this order, stay within its cap. -/
def WithinDailyCap (t : Tracker) (symbol : String) (qty : ℚ) (asOf : Time) : Prop :=
  match t.stockNames[symbol]? with
  | none => True
  | some name => name = "" ∨ isRiskWarningName name = false ∨ riskWarningDailyBuyCap symbol ≤ 0 ∨
      (if asOf.truncateDay = t.dailyRWBuyDay then (t.dailyRWBuy[symbol]?).getD 0 else 0) + qty ≤ riskWarningDailyBuyCap symbol

def AcceptsInFull (t : Tracker) (draft : Trade) : Prop :=
  match draft.direction with
  | .long => draft.quantity * draft.price + draft.commission + draft.transferFee ≤ t.cash ∧
      t.WithinDailyCap draft.symbol draft.quantity draft.timestamp
  | .close =>
    match t.positions[draft.symbol]? with
    | none => False
    | some pos => pos.quantity ≠ 0 ∧ draft.quantity ≤ |pos.quantity| ∧
        (0 < pos.quantity → draft.quantity ≤ pos.quantityYesterday)
  | .short | .hold => True

instance (t : Tracker) (symbol : String) (qty : ℚ) (asOf : Time) : Decidable (t.WithinDailyCap symbol qty asOf) := by
  unfold WithinDailyCap
  exact match t.stockNames[symbol]? with
  | none => isTrue trivial
  | some name => inferInstance

instance (t : Tracker) (draft : Trade) : Decidable (t.AcceptsInFull draft) := by
  unfold AcceptsInFull
  exact match draft.direction with
  | .long => inferInstance
  | .close =>
    match t.positions[draft.symbol]? with
    | none => isFalse id
    | some pos => inferInstance
  | .short => isTrue trivial
  | .hold => isTrue trivial

variable {t : Tracker} {draft : Trade}

theorem WithinDailyCap.enforced {symbol : String} {qty : ℚ} {asOf : Time} (within : t.WithinDailyCap symbol qty asOf) :
    ∃ t', t.enforceRiskWarningDailyBuy symbol qty asOf = (.ok (),t') := by
  unfold enforceRiskWarningDailyBuy
  unfold WithinDailyCap at within
  iterate 2 (split; · exact ⟨_,rfl⟩)
  rename_i name named
  rw [named] at within
  dsimp only at within ⊢
  split
  · exact ⟨_,rfl⟩
  rename_i proper
  split
  · exact ⟨_,rfl⟩
  rename_i warned
  split
  · exact ⟨_,rfl⟩
  rename_i capped
  have bound := ((within.resolve_left proper).resolve_left (by simpa using warned)).resolve_left capped
  by_cases day : asOf.truncateDay = t.dailyRWBuyDay
  · simp only [day,if_true] at bound
    simp only [day,ne_eq,not_true_eq_false,if_false,not_lt.mpr bound]
    exact ⟨_,rfl⟩
  · simp only [day,if_false,zero_add] at bound
    simp only [ne_eq,day,not_false_eq_true,if_true,getElem?_empty,getD_none,zero_add,
      not_lt.mpr bound,if_false]
    exact ⟨_,rfl⟩

theorem AcceptsInFull.booked (accepts : t.AcceptsInFull draft) (ordered : 0 < draft.quantity) :
    ∃ trade t', t.applyTrade draft = (.ok trade,t') ∧ trade.quantity = draft.quantity := by
  have booked : ∃ trade t', t.bookApplied draft = (.ok trade,t') ∧ trade.quantity = draft.quantity := by
    unfold AcceptsInFull at accepts
    unfold bookApplied
    split
    next side =>
      rw [side] at accepts
      obtain ⟨t',allowed⟩ := accepts.2.enforced
      simp only [bookLong,not_lt.mpr accepts.1,if_false,allowed]
      exact ⟨_,_,rfl,rfl⟩
    · exact ⟨_,_,rfl,rfl⟩
    next side =>
      rw [side] at accepts
      dsimp only at accepts
      split at accepts
      · exact accepts.elim
      rename_i pos held
      obtain ⟨nonzero,enough,settled⟩ := accepts
      obtain ⟨trade,t',closed,full⟩ := bookClose_full held nonzero ordered enough settled false
      rw [closed]
      exact ⟨_,_,rfl,full⟩
    · exact ⟨_,_,rfl,rfl⟩
  obtain ⟨trade,t',accepted,full⟩ := booked
  unfold applyTrade
  rw [if_neg (not_le.mpr ordered),accepted]
  exact ⟨_,_,rfl,full⟩

end Tracker

def Booking.childFill (parent : ParentId) (booking : Booking) : ℚ :=
  match booking.cause with
  | .execAlgoChild dc => if dc.child.orderId.parent = parent then booking.trade.quantity else 0
  | _ => 0

def childFills (days : List DayRecord) (parent : ParentId) : ℚ :=
  (days.map fun record => (record.bookings.map (·.childFill parent)).sum).sum

def ProgressBooked (s : BacktestState) : Prop :=
  ∀ parent filled total, s.dispatcher.progress parent = some (filled,total) → filled = childFills s.ledger.days parent

variable {l : Ledger}

theorem childFills_book (today : l.days ≠ []) (cause : Cause) (trade : Trade) (t : Tracker)
    (parent : ParentId) : childFills (l.book cause (some trade,t)).days parent =
      childFills l.days parent + Booking.childFill parent ⟨cause,l.tracker,trade,t⟩ := by
  cases days : l.days with
  | nil => exact absurd days today
  | cons =>
    simp only [childFills,Ledger.book,Ledger.note,days,modifyHead_cons,map_cons,sum_cons,
      DayRecord.bookings_booked,map_append,sum_append,map_nil,sum_nil,add_zero]
    ring

theorem childFills_split (l : Ledger) (split : Split) (parent : ParentId) :
    childFills (l.split split).days parent = childFills l.days parent := by
  cases days : l.days with
  | _ => simp [childFills,Ledger.split,Ledger.note,days]

theorem childFills_startDay (l : Ledger) (day : DayData) (parent : ParentId) :
    childFills (l.startDay day).days parent = childFills l.days parent := by
  simp [childFills,Ledger.startDay,DayRecord.bookings]

theorem childFills_advanceDay (l : Ledger) (parent : ParentId) :
    childFills l.advanceDay.days parent = childFills l.days parent := by
  cases days : l.days with
  | nil => simp [childFills,Ledger.advanceDay,days]
  | cons => simp [childFills,Ledger.advanceDay,days,DayRecord.bookings]

theorem book_days_ne (today : l.days ≠ []) (cause : Cause) (result : Option Trade × Tracker) :
    (l.book cause result).days ≠ [] := by
  rcases result with ⟨_ | trade,t⟩
  · exact today
  · simpa [Ledger.book,Ledger.note] using today

def filledOf (d : Dispatcher) (parent : ParentId) : ℚ := ((d.progress parent).map Prod.fst).getD 0

def Agree (s : BacktestState) : Prop := ∀ parent, childFills s.ledger.days parent = filledOf s.dispatcher parent

/-- Every parent has been told exactly what was booked for it; a due child has a parent to tell. -/
structure Told (d : Desk) : Prop where
  today : d.ledger.days ≠ []
  fills : ∀ parent, childFills d.ledger.days parent = filledOf d.dispatcher parent
  due : ∀ dc ∈ d.due, ∃ state, d.dispatcher.progress dc.child.orderId.parent = some state

namespace Engine

variable {e : Engine} {params : BacktestParams} {day : DayData} {phase : Phase}

theorem Transition.told {d d' : Desk} (transition : Transition e day Tracker.AcceptsInFull phase d d') (told : Told d) :
    Told d' := by
  cases transition with
  | restated => exact ⟨told.today,told.fills,told.due⟩
  | @booked cause trade t own origin _ =>
    have other : ∀ parent, Booking.childFill parent ⟨cause,d.ledger.tracker,trade,t⟩ = 0 := by
      intro parent
      cases cause with
      | execAlgoChild => cases phase <;> exact own.elim
      | _ => rfl
    refine ⟨book_days_ne told.today _ _,fun parent => ?_,told.due⟩
    rw [childFills_book told.today,other,add_zero]
    exact told.fills parent
  | @attached spec dispatcher _ accepted =>
    obtain ⟨run,attached⟩ := Dispatcher.attach_ok accepted
    refine ⟨told.today,fun parent => ?_,fun dc member => ?_⟩
    · rw [told.fills parent]
      unfold filledOf
      rw [Dispatcher.progress_attached attached]
      split
      next same =>
        rw [same,Dispatcher.progress_fresh attached]
        rfl
      · rfl
    · rw [Dispatcher.progress_attached attached]
      split
      · exact ⟨_,rfl⟩
      · exact told.due dc member
  | cancelled =>
    refine ⟨told.today,fun parent => ?_,fun dc member => ?_⟩
    · unfold filledOf
      rw [Dispatcher.progress_cancelSymbol]
      exact told.fills parent
    · rw [Dispatcher.progress_cancelSymbol]
      exact told.due dc member
  | handed symbol date _ _ =>
    refine ⟨told.today,fun parent => ?_,fun dc member => ?_⟩
    · unfold filledOf
      rw [Dispatcher.progress_onBar]
      exact told.fills parent
    · obtain ⟨run,attached,_,_,_,same⟩ := Dispatcher.due_slice member
      rw [Dispatcher.progress_onBar,← same]
      exact Dispatcher.progress_of_mem attached
  | unfilled next => exact ⟨told.today,told.fills,fun dc member => told.due dc (by rw [next]; simp [member])⟩
  | @filled dc rest service bar draft dispatcher _ next _ _ filled accepted met =>
    obtain ⟨trade,t',booked,full⟩ := met.booked (filled.quantity ▸ filled.ordered)
    obtain ⟨state,known⟩ := told.due dc (by simp [next])
    have answer : answered (d.ledger.tracker.applyTrade draft) = (some trade,t') := by rw [booked]; rfl
    refine ⟨book_days_ne told.today _ _,fun parent => ?_,fun other member => ?_⟩
    · rw [answer,childFills_book told.today,told.fills parent]
      unfold filledOf
      rw [Dispatcher.progress_onFill accepted]
      simp only [Booking.childFill]
      by_cases own : parent = dc.child.orderId.parent
      · rw [if_pos own.symm,if_pos own,own,known,full]
        rfl
      · rw [if_neg (Ne.symm own),if_neg own,add_zero]
    · obtain ⟨state,known⟩ := told.due other (by rw [next]; simp [member])
      rw [Dispatcher.progress_onFill accepted]
      split
      · exact ⟨_,by rw [known]; rfl⟩
      · exact ⟨_,known⟩
  | split split _ =>
    refine ⟨by simpa [Ledger.split,Ledger.note] using told.today,fun parent => ?_,told.due⟩
    rw [childFills_split]
    exact told.fills parent

theorem Transits.told {d d' : Desk} (transits : Transits e day Tracker.AcceptsInFull phase d d') (told : Told d) :
    Told d' := by
  induction transits with
  | refl => exact told
  | tail _ step ih => exact step.told ih

theorem Day.told {date : Time} {d d' : Desk} (whole : Day e params Tracker.AcceptsInFull date d d')
    (fills : ∀ parent, childFills d.ledger.days parent = filledOf d.dispatcher parent) :
    ∀ parent, childFills d'.ledger.days parent = filledOf d'.dispatcher parent := by
  cases whole with
  | @mk day _ _ _ _ _ _ _ delisting signals children stopLosses actions _ =>
    have started : Told ⟨d.ledger.startDay day,d.dispatcher,[]⟩ :=
      ⟨by simp [Ledger.startDay],fun parent => (childFills_startDay _ _ _).trans (fills parent),by simp⟩
    have acted := actions.told (stopLosses.told (children.told (signals.told (delisting.told started))))
    intro parent
    rw [childFills_advanceDay]
    exact acted.fills parent

/-- In every run whose child fills are all accepted in full by the tracker they are handed to,
progress and books agree between any two days. -/
theorem run_progressBooked (e : Engine) (params : BacktestParams)
    (accepted : Guarded (e.runDay params) (DayMeets e params Tracker.AcceptsInFull) (e.initialState params) e.tradingDays) :
    Along (e.runDay params) ProgressBooked (e.initialState params) e.tradingDays := by
  have preserved : ∀ s date, Agree s → DayMeets e params Tracker.AcceptsInFull s date → Agree (e.runDay params s date) :=
    fun s date agree met => (runDay_day s date met).told agree
  have initial : Agree (e.initialState params) := fun _ => rfl
  refine (along_invariant preserved initial accepted).mono fun s agree parent filled total found => ?_
  rw [agree parent,filledOf,found]
  rfl

/-! A TWAP parent of one slice: the tracker cannot pay for it, or can. -/

instance (service : BacktestExecutionService) (day : DayData) (bar : OHLCV) (s : BacktestState) (dc : DueChild) :
    Decidable (ChildMeets service day Tracker.AcceptsInFull bar s dc) :=
  decidableForallOk _ _

instance (service : BacktestExecutionService) (day : DayData) (s : BacktestState) (symbol : String) :
    Decidable (SymbolMeets service day Tracker.AcceptsInFull s symbol) :=
  decidableForallSome _ _

instance (e : Engine) (day : DayData) (s : BacktestState) : Decidable (ChildrenMeet e day Tracker.AcceptsInFull s) :=
  decidableForallSome _ _

instance (e : Engine) (params : BacktestParams) (s : BacktestState) (date : Time) :
    Decidable (DayMeets e params Tracker.AcceptsInFull s date) :=
  inferInstanceAs (Decidable (ChildrenMeet _ _ _ _))

def slicedSignal : StrategySignal := ⟨"600000.SH",.other,1,0,none,some .long,none,0,.twap,1,[]⟩

def slicedBuy : Engine :=
  oneStockEngine (oneDayHistory (barOn dayOne 10 10 10)) [dayOne] (fun _ => [slicedSignal]) 100 none

def slicedParent : ParentId := ⟨dayOne,"600000.SH",.long⟩

theorem slicedBuy_progressBooked :
    (slicedBuy.runDay oneStockParams (slicedBuy.initialState oneStockParams) dayOne).dispatcher.progress slicedParent =
      some (100,100) ∧
    Along (slicedBuy.runDay oneStockParams) ProgressBooked (slicedBuy.initialState oneStockParams) slicedBuy.tradingDays := by
  refine ⟨by decide +kernel,run_progressBooked slicedBuy oneStockParams ?_⟩
  decide +kernel

/-- With 500 in cash the child for 1,000 is refused, and the parent counts as filled. -/
theorem slicedBuy_short_of_cash : ¬ Along (slicedBuy.runDay ⟨["600000.SH"],dayOne,500⟩) ProgressBooked
      (slicedBuy.initialState ⟨["600000.SH"],dayOne,500⟩) slicedBuy.tradingDays := by
  intro along
  have law : ProgressBooked (slicedBuy.runDay ⟨["600000.SH"],dayOne,500⟩ (slicedBuy.initialState ⟨["600000.SH"],dayOne,500⟩) dayOne) :=
    along.2
  exact absurd (law slicedParent 100 100 (by decide +kernel)) (by decide +kernel)

end Engine
end QuantTrading
