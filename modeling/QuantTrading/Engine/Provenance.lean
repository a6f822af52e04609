import QuantTrading.Engine.Transitions
import QuantTrading.Tracker.Settlement

/-! Every trade a run books, traced to the step that booked it: the ledger lists exactly
the trades of the tracker, each dated on the day it is listed under, with its origin.
-/
namespace QuantTrading
open Library List

def DayEvent.booking? : DayEvent → Option Booking
  | .booked booking => some booking
  | .split _ _ _ => none

namespace DayRecord

def bookings (record : DayRecord) : List Booking := record.events.filterMap DayEvent.booking?

variable (record : DayRecord)

@[simp] theorem day_add (event : DayEvent) : (record.add event).day = record.day := rfl

@[simp] theorem bookings_booked (booking : Booking) :
    (record.add (.booked booking)).bookings = record.bookings ++ [booking] := by
  simp [bookings,add,DayEvent.booking?]

@[simp] theorem bookings_split (symbol : String) (before after : Tracker) :
    (record.add (.split symbol before after)).bookings = record.bookings := by
  simp [bookings,add,DayEvent.booking?]

end DayRecord

def tradesOf : List DayRecord → List Trade
  | [] => []
  | record :: past => tradesOf past ++ record.bookings.map (·.trade)

namespace Engine

variable {e : Engine} {params : BacktestParams} {day : DayData} {t t' : Tracker} {trade : Trade} {cause : Cause}

theorem Origin.posted (origin : Origin e day t trade t' cause) :
    ∃ request fees price, t.Posted request fees price trade t' := by
  cases origin with
  | service _ _ _ _ _ applied | child _ _ _ applied => exact ⟨_,_,_,applied.posted⟩
  | direct _ _ _ _ _ _ executed => exact ⟨_,_,_,executed.posted⟩
  | directClose _ _ _ _ _ executed => exact ⟨_,_,_,executed.posted⟩
  | stopLoss _ executed => exact ⟨_,_,_,executed.posted⟩
  | delisting executed => exact ⟨_,_,_,executed.posted⟩
  | forceClose executed => exact ⟨_,_,_,executed.posted⟩

theorem Origin.timestamp (origin : Origin e day t trade t' cause) : trade.timestamp = day.date := by
  cases origin with
  | service _ _ _ _ filled applied | child _ _ filled applied => exact applied.order.timestamp.trans filled.timestamp
  | direct _ _ _ _ _ _ executed => exact executed.timestamp
  | directClose _ _ _ _ _ executed => exact executed.timestamp
  | stopLoss _ executed => exact executed.timestamp
  | delisting executed => exact executed.timestamp
  | forceClose executed => exact executed.timestamp

theorem booked_close_pos {request fees cash : ℚ} {entry : Option Position} (booked : t.Booked request fees trade cash entry)
    (side : trade.direction = .close) : 0 < trade.quantity := by
  cases booked with
  | long opened _ | short opened => simp [side] at opened
  | closeLong _ _ _ _ _ _ some_ | closeShort _ _ _ _ _ some_ => exact some_
  | hold idle => simp [side] at idle

theorem applied_pos {draft : Trade} (applied : t.Applied draft trade t') : 0 < trade.quantity := by
  by_cases side : draft.direction = .close
  · obtain ⟨entry,booked,_⟩ := applied.posted.entry
    exact booked_close_pos booked (applied.order.direction.trans side)
  · rw [applied.drafted side]
    exact applied.positive

theorem executed_pos {symbol : String} {direction : Direction} {quantity price : ℚ} {date : Time}
    {opts : Option OrderExecutionOpts} (executed : t.Executed symbol direction quantity price date opts trade t')
    (liquid : 0 < t.liquidityFactor) (ordered : direction ≠ .close → 0 < quantity) : 0 < trade.quantity := by
  by_cases side : direction = .close
  · obtain ⟨entry,booked,_⟩ := executed.posted.entry
    exact booked_close_pos booked (executed.direction.trans side)
  · rw [executed.drafted side]
    exact Tracker.filledQty_pos _ liquid (ordered side)

theorem Origin.quantity_pos (origin : Origin e day t trade t' cause) (liquid : 0 < t.liquidityFactor) :
    0 < trade.quantity := by
  cases origin with
  | service _ _ _ _ _ applied | child _ _ _ applied => exact applied_pos applied
  | direct _ _ _ _ _ ordered executed => exact executed_pos executed liquid fun _ => ordered
  | directClose _ _ _ _ _ executed => exact executed_pos executed liquid fun open_ => absurd rfl open_
  | stopLoss _ executed => exact executed_pos executed liquid fun open_ => absurd rfl open_
  | delisting executed => exact executed_pos executed liquid fun open_ => absurd rfl open_
  | forceClose executed => exact executed_pos executed liquid fun open_ => absurd rfl open_

structure Traced (e : Engine) (day : DayData) (booking : Booking) : Prop where
  origin : Origin e day booking.before booking.trade booking.after booking.cause
  slippageRate : booking.before.slippageRate = e.slippageRate
  liquid : 0 < booking.before.liquidityFactor

structure TracedRecord (e : Engine) (params : BacktestParams) (record : DayRecord) : Prop where
  fetched : Fetched e params record.day
  bookings : ∀ booking ∈ record.bookings, Traced e record.day booking

structure TracedLedger (e : Engine) (params : BacktestParams) (l : Ledger) : Prop where
  slippageRate : l.tracker.slippageRate = e.slippageRate
  liquid : 0 < l.tracker.liquidityFactor
  records : ∀ record ∈ l.days, TracedRecord e params record
  trades : l.tracker.trades = tradesOf l.days

variable {l : Ledger}

theorem TracedLedger.booked {record : DayRecord} {past : List DayRecord} (traced : TracedLedger e params l)
    (today : l.days = record :: past) (origin : Origin e record.day l.tracker trade t cause) :
    TracedLedger e params (l.book cause (some trade,t)) := by
  obtain ⟨request,fees,price,posted⟩ := origin.posted
  have days : (l.book cause (some trade,t)).days = record.add (.booked ⟨cause,l.tracker,trade,t⟩) :: past := by
    simp [Ledger.book,Ledger.note,today]
  have records := traced.records
  rw [today,forall_mem_cons] at records
  obtain ⟨head,tail⟩ := records
  refine ⟨posted.config.slippageRate.trans traced.slippageRate,?_,?_,?_⟩
  · exact posted.config.liquidityFactor ▸ traced.liquid
  · rw [days,forall_mem_cons]
    refine ⟨⟨head.fetched,?_⟩,tail⟩
    intro booking listed
    rw [DayRecord.bookings_booked,mem_append,mem_singleton] at listed
    rcases listed with prior | rfl
    · exact head.bookings booking prior
    · exact ⟨origin,traced.slippageRate,traced.liquid⟩
  · have before := traced.trades
    rw [today] at before
    rw [days]
    change t.trades = _
    simp [tradesOf,posted.trades,before]

theorem processSplit_kept (t : Tracker) (symbol : String) (split : Split) :
    (t.processSplit symbol split).slippageRate = t.slippageRate ∧
    (t.processSplit symbol split).liquidityFactor = t.liquidityFactor ∧
    (t.processSplit symbol split).trades = t.trades := by
  unfold Tracker.processSplit
  split
  · exact ⟨rfl,rfl,rfl⟩
  · split <;> exact ⟨rfl,rfl,rfl⟩

theorem advanceDay_kept (t : Tracker) :
    t.advanceDay.slippageRate = t.slippageRate ∧ t.advanceDay.liquidityFactor = t.liquidityFactor ∧
    t.advanceDay.trades = t.trades := by
  unfold Tracker.advanceDay
  dsimp only
  split <;> exact ⟨rfl,rfl,rfl⟩

variable {l' : Ledger}

theorem TracedLedger.step (traced : TracedLedger e params l) (step : Step e params l l') :
    TracedLedger e params l' := by
  cases step with
  | quiet kept =>
    exact ⟨kept.slippageRate.trans traced.slippageRate,kept.liquidityFactor ▸ traced.liquid,traced.records,
      kept.trades.trans traced.trades⟩
  | booked today phase origin => exact traced.booked today origin
  | @split record past split today open_ =>
    obtain ⟨slippageRate,liquidityFactor,trades⟩ := processSplit_kept l.tracker split.symbol split
    have records := traced.records
    have before := traced.trades
    rw [today,forall_mem_cons] at records
    rw [today] at before
    obtain ⟨head,tail⟩ := records
    refine ⟨slippageRate.trans traced.slippageRate,liquidityFactor ▸ traced.liquid,?_,?_⟩
    · simp only [Ledger.split,Ledger.note,today,modifyHead_cons,forall_mem_cons]
      exact ⟨⟨head.fetched,by simpa using head.bookings⟩,tail⟩
    · simp only [Ledger.split,Ledger.note,today,modifyHead_cons,tradesOf,DayRecord.bookings_split]
      exact trades.trans before
  | started fetched =>
    refine ⟨traced.slippageRate,traced.liquid,?_,?_⟩
    · simp only [Ledger.startDay,forall_mem_cons]
      exact ⟨⟨fetched,by simp [DayRecord.bookings]⟩,traced.records⟩
    · simpa [Ledger.startDay,tradesOf,DayRecord.bookings] using traced.trades
  | @advanced record past today open_ =>
    obtain ⟨slippageRate,liquidityFactor,trades⟩ := advanceDay_kept l.tracker
    have records := traced.records
    have before := traced.trades
    rw [today,forall_mem_cons] at records
    rw [today] at before
    obtain ⟨head,tail⟩ := records
    refine ⟨slippageRate.trans traced.slippageRate,liquidityFactor ▸ traced.liquid,?_,?_⟩
    · simp only [Ledger.advanceDay,today,modifyHead_cons,forall_mem_cons]
      exact ⟨⟨head.fetched,head.bookings⟩,tail⟩
    · simp only [Ledger.advanceDay,today,modifyHead_cons]
      exact trades.trans before

theorem TracedLedger.initial (e : Engine) (params : BacktestParams) :
    TracedLedger e params (e.initialState params).ledger :=
  ⟨rfl,by norm_num [initialState,Tracker.newTracker],by simp [initialState],rfl⟩

theorem Step.events_kept (step : Step e params l l') :
    ∀ record ∈ l.days, ∃ later ∈ l'.days, record.events ⊆ later.events := by
  have noted : ∀ event, ∀ record ∈ l.days, ∃ later ∈ l.note event, record.events ⊆ later.events := by
    intro event record listed
    cases days : l.days with
    | nil => simp [days] at listed
    | cons =>
      rw [days] at listed
      simp only [Ledger.note,days,modifyHead_cons]
      rcases mem_cons.mp listed with rfl | earlier
      · exact ⟨_,mem_cons_self,subset_append_left _ _⟩
      · exact ⟨record,mem_cons_of_mem _ earlier,List.Subset.refl _⟩
  cases step with
  | quiet _ => exact fun record listed => ⟨record,listed,List.Subset.refl _⟩
  | booked _ _ _ | split _ _ => exact noted _
  | started _ _ => exact fun record listed => ⟨record,mem_cons_of_mem _ listed,List.Subset.refl _⟩
  | advanced today _ =>
    intro record listed
    simp only [Ledger.advanceDay,today,modifyHead_cons]
    rw [today] at listed
    rcases mem_cons.mp listed with rfl | earlier
    · exact ⟨_,mem_cons_self,List.Subset.refl _⟩
    · exact ⟨record,mem_cons_of_mem _ earlier,List.Subset.refl _⟩

def EveryEvent (C : DayEvent → Prop) (l : Ledger) : Prop := ∀ record ∈ l.days, ∀ event ∈ record.events, C event

theorem EveryEvent.before {C : DayEvent → Prop} (step : Step e params l l') (meets : EveryEvent C l') :
    EveryEvent C l := by
  intro record listed event noted
  obtain ⟨later,kept,events⟩ := step.events_kept record listed
  exact meets later kept event (events noted)

instance (C : DayEvent → Prop) [DecidablePred C] (l : Ledger) : Decidable (EveryEvent C l) :=
  inferInstanceAs (Decidable (∀ record ∈ l.days, ∀ event ∈ record.events, C event))

theorem Steps.preserves {P : Ledger → Prop} (C : DayEvent → Prop)
    (preserved : ∀ l l', TracedLedger e params l → Step e params l l' → EveryEvent C l' → P l → P l')
    (initial : P (e.initialState params).ledger) (steps : Steps e params (e.initialState params).ledger l)
    (meets : EveryEvent C l) : TracedLedger e params l ∧ P l := by
  have carried : ∀ a b, Step e params a b → EveryEvent C b → TracedLedger e params a ∧ P a → TracedLedger e params b ∧ P b := by
    rintro a b step meets ⟨traced,held⟩
    exact ⟨traced.step step,preserved a b traced step meets held⟩
  exact reachable_invariant (fun _ _ step => EveryEvent.before step) carried ⟨TracedLedger.initial e params,initial⟩
    steps meets

/-- Every booking of a run has an origin, and the tracker holds no other trade. -/
theorem run_traced {s : BacktestState} (ran : e.runBacktest params = some s) : TracedLedger e params s.ledger :=
  (Steps.preserves (P := fun _ => True) (fun _ => True) (fun _ _ _ _ _ _ => trivial) trivial (runBacktest_steps ran)
    fun _ _ _ _ => trivial).1

end Engine
end QuantTrading
