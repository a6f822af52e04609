import QuantTrading.Engine.TPlusOne

/-! What a signal does to the holding it aims at. A Close signal that goes through the execution
service sells the size it was given, not the position. A Long signal buys what is missing
to its target; a Short signal takes a short already held for nothing.
-/
namespace QuantTrading
open Library List

namespace Engine

variable {e : Engine} {params : BacktestParams} {day : DayData} {s : BacktestState} {signal : Signal}
  {size : PositionSize} {pos : Position}

/-- A Close market order for a long position that passes the gate and is accepted. -/
structure ClosesLong (e : Engine) (day : DayData) (s : BacktestState) (signal : Signal) (size : PositionSize)
    (pos : Position) : Prop where
  side : signal.direction = .close
  market : signal.orderType = .market
  whole : signal.execAlgo = .unset
  installed : e.executionService.isSome = true
  passed : tradeBlocked day signal = false
  priced : 0 < (day.prices[signal.symbol]?).getD 0
  stored : s.tracker.positions[signal.symbol]? = some pos
  long : 0 < pos.quantity
  sized : 0 < size.size
  accepted : (e.submitSignal s.tracker signal size.size ((day.prices[signal.symbol]?).getD 0) day).1.isSome = true

instance (e : Engine) (day : DayData) (s : BacktestState) (signal : Signal) (size : PositionSize) (pos : Position) :
    Decidable (ClosesLong e day s signal size pos) :=
  decidable_of_iff (signal.direction = .close ∧ signal.orderType = .market ∧ signal.execAlgo = .unset ∧
      e.executionService.isSome = true ∧ tradeBlocked day signal = false ∧ 0 < (day.prices[signal.symbol]?).getD 0 ∧
      s.tracker.positions[signal.symbol]? = some pos ∧ 0 < pos.quantity ∧ 0 < size.size ∧
      (e.submitSignal s.tracker signal size.size ((day.prices[signal.symbol]?).getD 0) day).1.isSome = true)
    ⟨fun ⟨a,b,c,d,f,g,h,i,j,k⟩ => ⟨a,b,c,d,f,g,h,i,j,k⟩,fun ⟨a,b,c,d,f,g,h,i,j,k⟩ => ⟨a,b,c,d,f,g,h,i,j,k⟩⟩

/-- Only shares of today are left, and the target is dropped only when no other are. -/
structure Liquidated (s : BacktestState) (symbol : String) : Prop where
  sold : ∀ lot, s.tracker.lot symbol = some lot → lot.quantity = lot.quantityToday
  dropped : s.targetPositions[symbol]? = none → ∀ lot, s.tracker.lot symbol = some lot → lot.quantityYesterday ≤ 0

def closable (pos : Position) (size : ℚ) : ℚ := min pos.quantityYesterday (min size pos.quantity)

/-- The size reaches every settled share, and all others were bought today, or what is left is too
little to be kept. -/
def ReachesPosition (pos : Position) (size : ℚ) : Prop :=
  isFlat (pos.quantity - closable pos size) = true ∨
  (pos.quantityYesterday ≤ min size pos.quantity ∧ pos.quantityToday + pos.quantityYesterday = pos.quantity)

theorem executeViaExecutionService_ok {service : BacktestExecutionService} {t t' : Tracker} {quantity price : ℚ}
    {trade : Trade} (accepted : executeViaExecutionService service t signal quantity price day = (some trade,t')) :
    ∃ draft, service.Filled (signalOrder signal quantity day.date)
      (quoteFor signal.symbol price day.date (day.todayBar signal.symbol)) draft ∧ t.Applied draft trade t' := by
  unfold executeViaExecutionService at accepted
  split at accepted
  · cases accepted
  rename_i draft executed
  have filled := BacktestExecutionService.executeOrder_ok executed
  rcases result : t.applyTrade draft with ⟨error | booked,t₁⟩
  · rw [result] at accepted
    cases accepted
  · rw [result] at accepted
    cases accepted
    exact ⟨draft,filled,Tracker.applyTrade_ok result⟩

theorem processSignal_close (closes : ClosesLong e day s signal size pos) :
    (e.processSignal day s signal (some size)).targetPositions[signal.symbol]? = none ∧
    ∃ trade : Trade, trade.quantity = closable pos size.size ∧
      (e.processSignal day s signal (some size)).tracker.lot signal.symbol =
        (Tracker.soldFrom pos trade).unlessFlat.map Position.lot := by
  obtain ⟨side,market,whole,installed,passed,priced,stored,long,sized,accepted⟩ := closes
  obtain ⟨service,attached⟩ := isSome_iff_exists.mp installed
  obtain ⟨trade,answer⟩ := isSome_iff_exists.mp accepted
  generalize value : (day.prices[signal.symbol]?).getD 0 = price at priced answer
  obtain ⟨result,t',submitted⟩ : ∃ result t', e.submitSignal s.tracker signal size.size price day = (result,t') := ⟨_,_,rfl⟩
  rw [submitted] at answer
  cases answer
  have processed : e.processSignal day s signal (some size) =
      { (s.setTarget signal.symbol (nextTarget s signal.symbol size.size day.date)) with
        ledger := s.ledger.book (.signal signal size.size) (some trade,t')
        targetPositions :=
          (s.targetPositions.insert signal.symbol (nextTarget s signal.symbol size.size day.date)).erase signal.symbol } := by
    have same : (s.setTarget signal.symbol (nextTarget s signal.symbol size.size day.date)).tracker = s.tracker := rfl
    simp only [processSignal,passed,Bool.false_eq_true,if_false,not_le.mpr sized,computeEffectiveTarget,side,
      executeSignalTrade,value,not_le.mpr priced,attachExecAlgoSignal,whole,same]
    simp [BacktestState.book,BacktestState.setTarget,nextTarget,sized,submitted]
  rw [processed]
  refine ⟨by simp,trade,?_⟩
  simp only [submitSignal,attached] at submitted
  obtain ⟨draft,filled,applied⟩ := executeViaExecutionService_ok submitted
  have symbol : trade.symbol = signal.symbol := applied.order.symbol.trans filled.symbol
  obtain ⟨entry,booked,positions⟩ := applied.posted.entry
  have left : t'.lot signal.symbol = entry.map Position.lot := by
    unfold Tracker.lot
    rw [positions,symbol,Book.get_put_self,Option.map_map]
    rfl
  have closing : trade.direction = .close := (applied.order.direction.trans filled.direction).trans side
  have request : draft.quantity = size.size := filled.quantity
  change _ ∧ t'.lot signal.symbol = _
  rw [left]
  generalize t'.cash = cash at booked
  cases booked with
  | closeLong held _ found _ _ sold =>
    rw [symbol,stored] at found
    cases found
    exact ⟨by rw [sold,request]; rfl,rfl⟩
  | closeShort held _ found negative =>
    rw [symbol,stored] at found
    cases found
    exact absurd long (not_lt.mpr negative.le)
  | long opened _ | short opened => simp [closing] at opened
  | hold idle => simp [closing] at idle

/-- A Close signal liquidates a long position exactly when the size it was given reaches all of it. -/
theorem processSignal_close_liquidated_iff (closes : ClosesLong e day s signal size pos) :
    Liquidated (e.processSignal day s signal (some size)) signal.symbol ↔ ReachesPosition pos size.size := by
  obtain ⟨dropped,trade,quantity,left⟩ := processSignal_close closes
  generalize e.processSignal day s signal (some size) = s' at dropped left ⊢
  have within : closable pos size.size ≤ pos.quantityYesterday := min_le_left _ _
  unfold Position.unlessFlat at left
  have remaining : (Tracker.soldFrom pos trade).quantity = pos.quantity - closable pos size.size := by
    rw [← quantity]
    rfl
  rw [remaining] at left
  split at left
  next flat =>
    refine ⟨fun _ => .inl flat,fun _ => ⟨?_,?_⟩⟩
    · intro lot found
      rw [left] at found
      cases found
    · intro _ lot found
      rw [left] at found
      cases found
  next kept =>
    have lot : s'.tracker.lot signal.symbol = some ⟨pos.quantity - closable pos size.size,pos.quantityToday,
        pos.quantityYesterday - closable pos size.size⟩ := by
      rw [left,← quantity]
      rfl
    constructor
    · rintro ⟨sold,only⟩
      have rest := only dropped _ lot
      have today := sold _ lot
      have all : closable pos size.size = pos.quantityYesterday := by linarith
      refine .inr ⟨min_eq_left_iff.mp all,?_⟩
      rw [all] at today
      linarith
    · rintro (flat | ⟨reached,sum⟩)
      · exact absurd flat kept
      · have all : closable pos size.size = pos.quantityYesterday := min_eq_left reached
        refine ⟨?_,?_⟩
        · intro found isFound
          rw [lot] at isFound
          cases isFound
          simp only [all]
          linarith
        · intro _ found isFound
          rw [lot] at isFound
          cases isFound
          simp only [all]
          linarith

def sizedApart (bought sold : ℚ) : Engine :=
  { flatMarket (fun date => if date = dayOne then [marketSignal .long] else [marketSignal .close]) with
    riskService := ⟨fun signal _ _ _ => some ⟨if signal.direction = .close then sold else bought,0,0,0,0⟩,fun _ => none⟩ }

def secondDay (e : Engine) : DayData × BacktestState :=
  let s := e.runDay oneStockParams (e.initialState oneStockParams) dayOne
  ((e.fetchMarketDataForDay oneStockParams ["600000.SH"] dayTwo s.prevCloseCache).1,s)

def closeSignal : Signal := ⟨"600000.SH",dayTwo,.close,1,0,0,.market,.unset,0,[]⟩

theorem sizedAlike_liquidated :
    let e := sizedApart 100 100
    let (day,s) := secondDay e
    ∃ pos, ClosesLong e day s closeSignal ⟨100,0,0,0,0⟩ pos ∧
      Liquidated (e.processSignal day s closeSignal (some ⟨100,0,0,0,0⟩)) "600000.SH" := by
  intro e
  obtain ⟨pos,stored,lot,closes⟩ : ∃ pos, (secondDay e).2.tracker.positions["600000.SH"]? = some pos ∧ pos.lot = ⟨100,0,100⟩ ∧
      ClosesLong e (secondDay e).1 (secondDay e).2 closeSignal ⟨100,0,0,0,0⟩ pos := by decide +kernel
  refine ⟨pos,closes,(processSignal_close_liquidated_iff closes).mpr (.inr ?_)⟩
  simp only [Position.lot,Lot.mk.injEq] at lot
  obtain ⟨quantity,today,yesterday⟩ := lot
  norm_num [quantity,today,yesterday]

/-- The 300 shares bought are closed with a size of 100: the other 200 stay, without a target. -/
theorem sizedApart_keeps_shares :
    let e := sizedApart 300 100
    let (day,s) := secondDay e
    (∃ pos, ClosesLong e day s closeSignal ⟨100,0,0,0,0⟩ pos) ∧
    (e.processSignal day s closeSignal (some ⟨100,0,0,0,0⟩)).tracker.lot "600000.SH" = some ⟨200,0,200⟩ ∧
    ¬ Liquidated (e.processSignal day s closeSignal (some ⟨100,0,0,0,0⟩)) "600000.SH" := by
  intro e
  obtain ⟨pos,_,closes⟩ : ∃ pos, (secondDay e).2.tracker.positions["600000.SH"]? = some pos ∧
      ClosesLong e (secondDay e).1 (secondDay e).2 closeSignal ⟨100,0,0,0,0⟩ pos := by decide +kernel
  have left : (e.processSignal (secondDay e).1 (secondDay e).2 closeSignal (some ⟨100,0,0,0,0⟩)).tracker.lot "600000.SH" =
      some ⟨200,0,200⟩ := by decide +kernel
  refine ⟨⟨pos,closes⟩,left,?_⟩
  intro liquidated
  have today := liquidated.sold _ left
  norm_num at today

end Engine

def DayEvent.targetOf (symbol : String) : DayEvent → Option ℚ
  | .booked ⟨.signal _ targetQty,_,trade,_⟩ => if trade.symbol = symbol then some targetQty else none
  | _ => none

variable (t : Tracker) (symbol : String) (record : DayRecord) (direction : Direction)

def DayRecord.targets (symbol : String) : List ℚ := record.events.filterMap (DayEvent.targetOf symbol)

def largestTarget (symbol : String) : List DayRecord → ℚ
  | [] => 0
  | record :: past => (record.targets symbol).foldl max (largestTarget symbol past)

def Cause.Signals : Cause → Prop
  | .signal sent _ => sent.direction = direction
  | .execAlgoChild _ | .stopLoss _ | .delisting | .forceClose => False

def DayEvent.Reissues (symbol : String) : DayEvent → Prop
  | .booked booking => booking.trade.symbol = symbol → booking.cause.Signals direction
  | .split other _ _ => other ≠ symbol

def DayEvent.ShortsFromFlat (symbol : String) : DayEvent → Prop
  | .booked booking =>
    booking.trade.symbol = symbol → booking.trade.direction = .short → 0 ≤ booking.before.held symbol
  | .split _ _ _ => True

instance (direction : Direction) : (cause : Cause) → Decidable (cause.Signals direction)
  | .signal sent _ => inferInstanceAs (Decidable (sent.direction = direction))
  | .execAlgoChild _ | .stopLoss _ | .delisting | .forceClose => .isFalse id

instance (direction : Direction) (symbol : String) : (event : DayEvent) → Decidable (event.Reissues direction symbol)
  | .booked booking => inferInstanceAs (Decidable (booking.trade.symbol = symbol → booking.cause.Signals direction))
  | .split other _ _ => inferInstanceAs (Decidable (other ≠ symbol))

/-- The holding stays within the targets, and a target that has been reached is not traded again. -/
structure WithinTargets (symbol : String) (l : Ledger) : Prop where
  bounded : |l.tracker.held symbol| ≤ largestTarget symbol l.days
  unreached : ∀ record ∈ l.days, ∀ booking ∈ record.bookings, booking.trade.symbol = symbol →
    ∀ signal targetQty, booking.cause = .signal signal targetQty → |booking.before.held symbol| < targetQty

theorem Tracker.held_lot : t.held symbol = ((t.lot symbol).map Lot.quantity).getD 0 := by
  unfold Tracker.held Tracker.lot
  cases t.positions[symbol]? <;> rfl

theorem Tracker.held_advanceDay : t.advanceDay.held symbol = t.held symbol := by
  unfold Tracker.held
  rw [Tracker.advanceDay_positions,Book.get_map]
  cases t.positions[symbol]? with
  | none => rfl
  | some =>
    simp only [map_some,Position.rollOver]
    split <;> rfl

theorem filledQty_le (quantity : ℚ) (dayBar : Option OHLCV) : t.filledQty quantity dayBar ≤ quantity := by
  unfold Tracker.filledQty
  split
  · exact le_rfl
  split
  next bar limited =>
    exact limited.2.le
  · exact le_rfl

namespace Engine

theorem effectiveTarget_pos {t : Tracker} {symbol : String} {targetQty quantity : ℚ} {direction : Direction}
    (sized : quantity = computeEffectiveTarget t symbol targetQty direction) (ordered : 0 < quantity)
    (side : direction = .long ∨ direction = .short) : quantity = targetQty - heldQty t symbol := by
  unfold computeEffectiveTarget at sized
  rw [if_neg (by rcases side with rfl | rfl <;> simp)] at sized
  split at sized
  · rw [sized] at ordered
    norm_num at ordered
  · exact sized

theorem heldQty_eq (t : Tracker) (symbol : String) : heldQty t symbol = max 0 (t.held symbol) := by
  unfold heldQty Tracker.held
  cases t.positions[symbol]? with
  | none => simp
  | some =>
    simp only [map_some,getD_some]
    split
    next short =>
      exact (max_eq_left short.le).symm
    next long =>
      exact (max_eq_right (not_lt.mp long)).symm

variable {e : Engine} {params : BacktestParams} {day : DayData} {t t' : Tracker} {trade : Trade} {signal : Signal}
  {targetQty : ℚ}

/-- A whole order never fills more than what is left of its target. -/
theorem Origin.fills_target (origin : Origin e day t trade t' (.signal signal targetQty))
    (side : signal.direction = .long ∨ signal.direction = .short) :
    trade.direction = signal.direction ∧ trade.quantity ≤ targetQty - max 0 (t.held trade.symbol) := by
  have open_ : signal.direction ≠ .close := by rcases side with long | short <;> simp [*]
  rw [← heldQty_eq]
  cases origin with
  | service sized _ _ _ filled applied =>
    have whole := applied.drafted (by rw [filled.direction]; exact open_)
    have symbol : trade.symbol = signal.symbol := applied.order.symbol.trans filled.symbol
    refine ⟨applied.order.direction.trans filled.direction,?_⟩
    rw [symbol,← effectiveTarget_pos sized filled.ordered side,whole]
    exact filled.quantity.le
  | direct sized _ _ _ _ ordered executed =>
    refine ⟨executed.direction,?_⟩
    rw [executed.symbol,← effectiveTarget_pos sized ordered side,executed.drafted open_]
    exact filledQty_le _ _ _
  | directClose _ _ _ _ closing => exact absurd closing open_

end Engine

def OnSide (held : ℚ) : Prop := if direction = .long then 0 ≤ held else held ≤ 0

theorem HeldChange.within_target {direction : Direction} {quantity targetQty before after : ℚ}
    (change : Tracker.HeldChange direction quantity before after) (side : direction = .long ∨ direction = .short)
    (ordered : 0 < quantity) (left : quantity ≤ targetQty - max 0 before) (onSide : OnSide direction before)
    (fromFlat : direction = .short → 0 ≤ before) :
    OnSide direction after ∧ |after| ≤ targetQty ∧ |before| < targetQty := by
  rcases side with rfl | rfl
  · have long : 0 ≤ before := onSide
    rw [max_eq_right long] at left
    have unreached : before < targetQty := by linarith
    have filled : 0 ≤ after ∧ after ≤ targetQty := by
      rcases change with bought | ⟨_,gone⟩ <;> constructor <;> linarith
    exact ⟨filled.1,by rw [abs_of_nonneg filled.1]; exact filled.2,by rw [abs_of_nonneg long]; exact unreached⟩
  · have flat : before = 0 := le_antisymm onSide (fromFlat rfl)
    rw [flat,max_self,sub_zero] at left
    have filled : after ≤ 0 ∧ -after ≤ targetQty := by
      rcases change with sold | ⟨_,gone⟩ <;> constructor <;> linarith
    refine ⟨filled.1,by rw [abs_of_nonpos filled.1]; exact filled.2,?_⟩
    rw [flat,abs_zero]
    linarith

theorem largestTarget_note (past : List DayRecord) (event : DayEvent) :
    largestTarget symbol (record.add event :: past) = match event.targetOf symbol with
      | none => largestTarget symbol (record :: past)
      | some targetQty => max (largestTarget symbol (record :: past)) targetQty := by
  simp only [largestTarget,DayRecord.targets,DayRecord.add,filterMap_append,foldl_append]
  cases found : event.targetOf symbol <;> simp [found]

structure NettedLedger (direction : Direction) (symbol : String) (l : Ledger) : Prop where
  onSide : OnSide direction (l.tracker.held symbol)
  within : WithinTargets symbol l

namespace NettedLedger

variable {direction : Direction} {symbol : String} {l : Ledger}

theorem idle {l' : Ledger} (netted : NettedLedger direction symbol l) (held : l'.tracker.held symbol = l.tracker.held symbol)
    (targets : largestTarget symbol l'.days = largestTarget symbol l.days)
    (bookings : ∀ record ∈ l'.days, ∀ b ∈ record.bookings, b.trade.symbol = symbol →
      ∃ earlier ∈ l.days, b ∈ earlier.bookings) : NettedLedger direction symbol l' := by
  refine ⟨held ▸ netted.onSide,?_,?_⟩
  · rw [held,targets]
    exact netted.within.bounded
  · intro record listed b member same
    obtain ⟨earlier,kept,prior⟩ := bookings record listed b member same
    exact netted.within.unreached earlier kept b prior same

variable {t : Tracker} {record : DayRecord} {past : List DayRecord}

section
variable (netted : NettedLedger direction symbol l) (today : l.days = record :: past)
include netted today

theorem noted {event : DayEvent} (held : t.held symbol = l.tracker.held symbol)
    (other : ∀ b ∈ event.booking?, b.trade.symbol ≠ symbol) : NettedLedger direction symbol ⟨t,l.note event⟩ := by
  have untargeted : event.targetOf symbol = none := by
    cases event with
    | split => rfl
    | booked b =>
      have distinct := other b rfl
      obtain ⟨cause,before,trade,after⟩ := b
      cases cause with
      | signal => exact if_neg distinct
      | _ => rfl
  have days : l.note event = record.add event :: past := by simp [Ledger.note,today]
  refine netted.idle held ?_ ?_
  · simp only [days,today,largestTarget_note,untargeted]
  · simp only [days,today,forall_mem_cons]
    refine ⟨?_,fun earlier listed b member _ => ⟨earlier,mem_cons_of_mem _ listed,member⟩⟩
    intro b member same
    simp only [DayRecord.bookings,DayRecord.add,filterMap_append,mem_append] at member
    rcases member with prior | new
    · exact ⟨record,mem_cons_self,prior⟩
    · obtain ⟨only,found,isBooking⟩ := mem_filterMap.mp new
      rw [mem_singleton.mp found] at isBooking
      exact absurd same (other b isBooking)

theorem filled {e : Engine} {cause : Cause} {trade : Trade} (same : trade.symbol = symbol)
    (side : direction = .long ∨ direction = .short) (origin : Engine.Origin e record.day l.tracker trade t cause)
    (liquid : 0 < l.tracker.liquidityFactor) (signals : cause.Signals direction)
    (fromFlat : trade.direction = .short → 0 ≤ l.tracker.held symbol) :
    NettedLedger direction symbol (l.book cause (some trade,t)) := by
  subst same
  cases cause with
  | signal sent targetQty =>
    have sentSide : sent.direction = direction := signals
    obtain ⟨traded,left⟩ := origin.fills_target (sentSide ▸ side)
    rw [sentSide] at traded
    obtain ⟨request,fees,price,posted⟩ := origin.posted
    have change := posted.heldChange
    rw [traded] at change
    obtain ⟨onSide,bounded,unreached⟩ := HeldChange.within_target change side (origin.quantity_pos liquid) left
      netted.onSide (traded ▸ fromFlat)
    have days : (l.book (.signal sent targetQty) (some trade,t)).days =
        record.add (.booked ⟨.signal sent targetQty,l.tracker,trade,t⟩) :: past := by
      simp [Ledger.book,Ledger.note,today]
    refine ⟨onSide,?_,?_⟩
    · rw [days,largestTarget_note]
      simp only [DayEvent.targetOf,if_true]
      exact bounded.trans (le_max_right _ _)
    · have prior := netted.within.unreached
      rw [today,forall_mem_cons] at prior
      rw [days,forall_mem_cons]
      refine ⟨?_,prior.2⟩
      intro b member
      rw [DayRecord.bookings_booked,mem_append,mem_singleton] at member
      rcases member with earlier | rfl
      · exact prior.1 b earlier
      · rintro _ _ _ ⟨⟩
        exact unreached
  | _ => cases signals

end

end NettedLedger

namespace Engine

variable {e : Engine} {params : BacktestParams} {direction : Direction} {symbol : String}

theorem nettedLedger_step {l l' : Ledger} (side : direction = .long ∨ direction = .short)
    (traced : TracedLedger e params l) (step : Step e params l l')
    (meets : EveryEvent (fun event => event.Reissues direction symbol ∧ event.ShortsFromFlat symbol) l')
    (netted : NettedLedger direction symbol l) : NettedLedger direction symbol l' := by
  have today : ∀ {record past t event}, l.days = record :: past → l' = ⟨t,l.note event⟩ →
      event.Reissues direction symbol ∧ event.ShortsFromFlat symbol := by
    rintro record past t event days rfl
    refine meets (record.add event) (by simp [Ledger.note,days]) event ?_
    simp [DayRecord.add]
  cases step with
  | quiet kept =>
    refine netted.idle ?_ rfl fun record listed b member _ => ⟨record,listed,member⟩
    rw [Tracker.held_lot,Tracker.held_lot,kept.lots]
  | @booked record past cause trade t days phase origin =>
    obtain ⟨reissues,fromFlat⟩ := today days rfl
    by_cases same : trade.symbol = symbol
    · exact netted.filled days same side origin traced.liquid (reissues same) (fromFlat same)
    · obtain ⟨request,fees,price,posted⟩ := origin.posted
      refine netted.noted days ?_ ?_
      · simp only [Tracker.held,posted.other symbol (Ne.symm same)]
      · rintro b ⟨⟩
        exact same
  | @split record past split days open_ =>
    obtain ⟨other,_⟩ := today days rfl
    refine netted.noted days ?_ (by simp [DayEvent.booking?])
    rw [Tracker.held_lot,Tracker.held_lot,split_other _ _ (Ne.symm other)]
  | started =>
    refine netted.idle rfl rfl ?_
    intro record listed b member _
    rcases mem_cons.mp listed with rfl | earlier
    · simp [DayRecord.bookings] at member
    · exact ⟨record,earlier,member⟩
  | @advanced record past days open_ =>
    have closed : l.advanceDay.days = { record with closed := true } :: past := by simp [Ledger.advanceDay,days]
    refine netted.idle (Tracker.held_advanceDay _ _) ?_ ?_
    · rw [closed,days]
      rfl
    · rw [closed,days]
      intro later listed b member _
      rcases mem_cons.mp listed with rfl | earlier
      · exact ⟨record,mem_cons_self,member⟩
      · exact ⟨later,mem_cons_of_mem _ earlier,member⟩

/-- After every sequence of days on which only signals in one direction move the holding of a symbol,
no Short among them filled while it was short, the holding is within the largest target. -/
theorem days_withinTargets (days : List Time) (side : direction = .long ∨ direction = .short)
    (reissued : EveryEvent (DayEvent.Reissues direction symbol) (days.foldl (e.runDay params) (e.initialState params)).ledger)
    (fromFlat : EveryEvent (DayEvent.ShortsFromFlat symbol) (days.foldl (e.runDay params) (e.initialState params)).ledger) :
    WithinTargets symbol (days.foldl (e.runDay params) (e.initialState params)).ledger := by
  obtain ⟨steps,_⟩ := days_steps e params days (e.initialState params) (by simp [Rested,initialState])
  have initial : NettedLedger direction symbol (e.initialState params).ledger := by
    have flat : (e.initialState params).ledger.tracker.held symbol = 0 := by
      simp [initialState,Tracker.newTracker,Tracker.held]
    refine ⟨?_,?_,by simp [initialState]⟩
    · rw [flat,OnSide]
      split <;> exact le_rfl
    · rw [flat,abs_zero]
      exact le_rfl
  have netted := Steps.preserves (fun event => event.Reissues direction symbol ∧ event.ShortsFromFlat symbol)
    (fun _ _ traced step meets netted => nettedLedger_step side traced step meets netted) initial steps
    (fun record listed event noted => ⟨reissued record listed event noted,fromFlat record listed event noted⟩)
  exact netted.2.within

instance (symbol : String) : (event : DayEvent) → Decidable (event.ShortsFromFlat symbol)
  | .booked booking => inferInstanceAs (Decidable (booking.trade.symbol = symbol → booking.trade.direction = .short →
      0 ≤ booking.before.held symbol))
  | .split _ _ _ => .isTrue trivial

def resent (direction : Direction) : BacktestState :=
  let e := flatMarket fun _ => [marketSignal direction]
  [dayOne,dayTwo].foldl (e.runDay oneStockParams) (e.initialState oneStockParams)

theorem resentLong_withinTargets :
    (resent .long).tracker.held "600000.SH" = 100 ∧ WithinTargets "600000.SH" (resent .long).ledger := by
  have reissued : EveryEvent (DayEvent.Reissues .long "600000.SH") (resent .long).ledger := by decide +kernel
  have fromFlat : EveryEvent (DayEvent.ShortsFromFlat "600000.SH") (resent .long).ledger := by decide +kernel
  refine ⟨by decide +kernel,?_⟩
  unfold resent at reissued fromFlat ⊢
  exact days_withinTargets [dayOne,dayTwo] (.inl rfl) reissued fromFlat

/-- A Short of 100 sent on two days sells 200. -/
theorem resentShort_doubled : EveryEvent (DayEvent.Reissues .short "600000.SH") (resent .short).ledger ∧
    (resent .short).tracker.held "600000.SH" = -200 ∧ largestTarget "600000.SH" (resent .short).ledger.days = 100 ∧
    ¬ WithinTargets "600000.SH" (resent .short).ledger := by
  exact ⟨by decide +kernel,by decide +kernel,by decide +kernel,fun within => absurd within.1 (by decide +kernel)⟩

end Engine
end QuantTrading
