import QuantTrading.Engine.Lots
import QuantTrading.Engine.MarketRules

/-! The settlement rule over whole runs: what is sold of a long position on a day was held
when the day began or credited by a split since. The shares sold and the shares still
sellable never exceed the holding at the start; the end of the day makes the shares bought
today sellable, which only the final close can use on the same day.
-/
namespace QuantTrading
open Library List

def creditTo (symbol : String) : DayEvent → ℚ
  | .booked _ => 0
  | .split other before after => if other = symbol then after.held symbol - before.held symbol else 0

namespace DayRecord

def taken (record : DayRecord) (symbol : String) : ℚ :=
  (record.bookings.map fun b => if b.trade.symbol = symbol then takenOut b.before b.trade else 0).sum

def bought (record : DayRecord) (symbol : String) : ℚ :=
  (record.bookings.map fun b => if b.trade.symbol = symbol then boughtBy b.trade else 0).sum

def credited (record : DayRecord) (symbol : String) : ℚ := (record.events.map (creditTo symbol)).sum

def startLong (record : DayRecord) (symbol : String) : ℚ := max 0 (record.start.held symbol)

variable (record : DayRecord) (symbol : String)

theorem taken_booked (b : Booking) : (record.add (.booked b)).taken symbol =
    record.taken symbol + if b.trade.symbol = symbol then takenOut b.before b.trade else 0 := by
  simp [taken]

theorem bought_booked (b : Booking) : (record.add (.booked b)).bought symbol =
    record.bought symbol + if b.trade.symbol = symbol then boughtBy b.trade else 0 := by
  simp [bought]

theorem credited_add (event : DayEvent) :
    (record.add event).credited symbol = record.credited symbol + creditTo symbol event := by
  simp [credited,add]

def Unforced : Prop := ∀ b ∈ record.bookings, b.cause = .forceClose → b.trade.symbol ≠ symbol

def SettlementRule : Prop := record.taken symbol ≤ record.startLong symbol + record.credited symbol

structure Accounted : Prop where
  unforced : record.Unforced symbol → record.taken symbol ≤ record.startLong symbol
  sold : record.taken symbol ≤ record.startLong symbol + record.bought symbol + record.credited symbol
  credits : 0 ≤ record.credited symbol

/-- The running account of a day. Closing it makes what was bought and credited sellable. -/
structure Account (entry : Option Lot) : Prop where
  unforced : record.Unforced symbol → record.taken symbol ≤ record.startLong symbol
  sold : record.taken symbol + sellable entry ≤
    record.startLong symbol + if record.closed then record.bought symbol + record.credited symbol else 0
  fresh : unsettled entry ≤ if record.closed then 0 else record.bought symbol + record.credited symbol
  credits : 0 ≤ record.credited symbol

end DayRecord

variable {symbol : String}

variable {record : DayRecord} {entry : Option Lot}

theorem DayRecord.Account.accounted
    (account : record.Account symbol entry) (covered : CoveredLot entry) : record.Accounted symbol := by
  have sellableNow := covered.sellable_nonneg
  have unsettledNow := covered.unsettled_nonneg
  obtain ⟨unforced,sold,fresh,credits⟩ := account
  refine ⟨unforced,?_,credits⟩
  split at sold
  · linarith
  next open_ =>
    rw [if_neg open_] at fresh
    linarith

theorem DayRecord.Account.booked {before after : Option Lot} {b : Booking}
    (account : record.Account b.trade.symbol before)
    (settles : Settles before after (takenOut b.before b.trade) (boughtBy b.trade))
    (phase : record.closed = true ↔ b.cause = .forceClose) (side : b.cause = .forceClose → b.trade.direction = .close) :
    (record.add (.booked b)).Account b.trade.symbol after := by
  obtain ⟨unforced,sold,fresh,credits⟩ := account
  have sellableAfter := settles.covered.sellable_nonneg
  have movedSold := settles.sold
  have movedFresh := settles.fresh
  have same : (record.add (.booked b)).startLong b.trade.symbol = record.startLong b.trade.symbol := rfl
  have phase_add : (record.add (.booked b)).closed = record.closed := rfl
  have credit_add : (record.add (.booked b)).credited b.trade.symbol = record.credited b.trade.symbol := by
    rw [DayRecord.credited_add]
    exact add_zero _
  have taken_add := record.taken_booked b.trade.symbol b
  have bought_add := record.bought_booked b.trade.symbol b
  rw [if_pos rfl] at taken_add bought_add
  cases closed : record.closed with
  | true =>
    have forced := phase.mp closed
    have noBuy : boughtBy b.trade = 0 := by simp [boughtBy,side forced]
    simp only [closed,if_true] at sold fresh
    refine ⟨?_,?_,?_,credit_add ▸ credits⟩
    · intro none_
      exact absurd rfl (none_ b (by simp) forced)
    · rw [same,phase_add,closed,if_pos rfl,taken_add,bought_add]
      linarith
    · rw [phase_add,closed,if_pos rfl]
      linarith
  | false =>
    simp only [closed,Bool.false_eq_true,if_false] at sold fresh
    refine ⟨?_,?_,?_,credit_add ▸ credits⟩
    · intro _
      linarith
    · rw [same,phase_add,closed]
      simp only [Bool.false_eq_true,if_false]
      linarith
    · rw [phase_add,closed,bought_add]
      simp only [Bool.false_eq_true,if_false]
      linarith

theorem DayRecord.Account.idle {event : DayEvent}
    (account : record.Account symbol entry) (credit : creditTo symbol event = 0)
    (other : ∀ b, event.booking? = some b → b.trade.symbol ≠ symbol) : (record.add event).Account symbol entry := by
  obtain ⟨unforced,sold,fresh,credits⟩ := account
  have credited : (record.add event).credited symbol = record.credited symbol := by
    rw [record.credited_add,credit,add_zero]
  have moved : (record.add event).taken symbol = record.taken symbol ∧
      (record.add event).bought symbol = record.bought symbol := by
    cases event with
    | booked b =>
      have distinct := other b rfl
      rw [record.taken_booked,record.bought_booked,if_neg distinct,if_neg distinct,add_zero,add_zero]
      exact ⟨rfl,rfl⟩
    | split => simp [DayRecord.taken,DayRecord.bought]
  have prior : (record.add event).Unforced symbol → record.Unforced symbol := by
    intro none_ b listed
    refine none_ b ?_
    simp only [DayRecord.bookings,DayRecord.add,filterMap_append,mem_append]
    exact .inl listed
  refine ⟨?_,?_,?_,credited ▸ credits⟩
  · intro none_
    rw [moved.1]
    exact unforced (prior none_)
  · rw [moved.1,moved.2,credited]
    exact sold
  · rw [moved.2,credited]
    exact fresh

theorem DayRecord.Account.split {before after : Tracker} {credit : ℚ}
    (account : record.Account symbol (before.lot symbol)) (open_ : record.closed = false) (some_ : 0 ≤ credit)
    (credited : after.held symbol - before.held symbol = credit)
    (sellable_ : sellable (after.lot symbol) = sellable (before.lot symbol))
    (unsettled_ : unsettled (after.lot symbol) = unsettled (before.lot symbol) + credit) :
    (record.add (.split symbol before after)).Account symbol (after.lot symbol) := by
  obtain ⟨unforced,sold,fresh,credits⟩ := account
  have total : (record.add (.split symbol before after)).credited symbol = record.credited symbol + credit := by
    rw [record.credited_add,creditTo,if_pos rfl,credited]
  have moved : (record.add (.split symbol before after)).taken symbol = record.taken symbol ∧
      (record.add (.split symbol before after)).bought symbol = record.bought symbol := by
    simp [DayRecord.taken,DayRecord.bought]
  have phase : (record.add (.split symbol before after)).closed = false := open_
  simp only [open_,Bool.false_eq_true,if_false] at sold fresh
  refine ⟨?_,?_,?_,?_⟩
  · intro none_
    rw [moved.1]
    exact unforced (by simpa [DayRecord.Unforced] using none_)
  · rw [moved.1,phase,sellable_]
    exact sold
  · rw [moved.2,phase,unsettled_]
    simp only [Bool.false_eq_true,if_false]
    linarith
  · linarith

structure SettledLedger (l : Ledger) : Prop where
  covered : ∀ symbol, CoveredLot (l.tracker.lot symbol)
  rested : l.days = [] → ∀ symbol, unsettled (l.tracker.lot symbol) = 0
  today : ∀ record ∈ l.days.head?, ∀ symbol, record.Account symbol (l.tracker.lot symbol)
  past : ∀ record ∈ l.days.tail, ∀ symbol, record.Accounted symbol

def KeepsAllLots (l : Ledger) : Prop :=
  Engine.EveryEvent (fun event => ∀ b ∈ event.booking?, KeepsLots b.before b.trade) l

instance (l : Ledger) : Decidable (KeepsAllLots l) :=
  inferInstanceAs (Decidable (Engine.EveryEvent (fun event => ∀ b ∈ event.booking?, KeepsLots b.before b.trade) l))

namespace SettledLedger

variable {l : Ledger} {record : DayRecord} {past : List DayRecord}

theorem accounted (settled : SettledLedger l) (record : DayRecord) (listed : record ∈ l.days)
    (symbol : String) : record.Accounted symbol := by
  obtain ⟨covered,_,today,past⟩ := settled
  cases days : l.days with
  | nil => simp [days] at listed
  | cons =>
    rw [days] at listed today past
    rcases mem_cons.mp listed with rfl | earlier
    · exact (today _ rfl symbol).accounted (covered symbol)
    · exact past record earlier symbol

theorem sellable_le_held (t : Tracker) (symbol : String) (covered : CoveredLot (t.lot symbol)) :
    sellable (t.lot symbol) ≤ max 0 (t.held symbol) := by
  unfold Tracker.lot Tracker.held at *
  generalize t.positions[symbol]? = entry at covered ⊢
  cases entry with
  | none => exact le_max_left _ _
  | some pos =>
    simp only [map_some,sellable]
    split
    next long =>
      obtain ⟨today,yesterday,sum⟩ := covered pos.lot rfl long
      have within : pos.lot.quantityYesterday ≤ pos.quantity := by
        simp only [Position.lot] at today yesterday sum ⊢
        linarith
      exact within.trans (le_max_right _ _)
    · exact le_max_left _ _

theorem started (settled : SettledLedger l) (rested : ∀ record ∈ l.days.head?, record.closed = true)
    (day : DayData) : SettledLedger (l.startDay day) := by
  have none_ : ∀ symbol, unsettled (l.tracker.lot symbol) = 0 := by
    intro symbol
    cases days : l.days with
    | nil => exact settled.rested days symbol
    | cons record =>
      have head : record ∈ l.days.head? := by simp [days]
      have fresh := (settled.today record head symbol).fresh
      rw [rested record head] at fresh
      exact le_antisymm fresh (settled.covered symbol).unsettled_nonneg
  refine ⟨settled.covered,by simp [Ledger.startDay],?_,fun record earlier => settled.accounted record earlier⟩
  rintro _ ⟨⟩ symbol
  have within := sellable_le_held l.tracker symbol (settled.covered symbol)
  refine ⟨fun _ => le_max_left _ _,?_,?_,le_rfl⟩
  · simpa [DayRecord.taken,DayRecord.bookings,DayRecord.startLong,Ledger.startDay] using within
  · simp [DayRecord.bought,DayRecord.credited,DayRecord.bookings,Ledger.startDay,none_ symbol]

section
variable (settled : SettledLedger l) (days : l.days = record :: past)
include settled days

theorem carry {l' : Ledger} {record' : DayRecord} (noted : l'.days = record' :: past)
    (covered : ∀ symbol, CoveredLot (l'.tracker.lot symbol))
    (account : ∀ symbol, record.Account symbol (l.tracker.lot symbol) → record'.Account symbol (l'.tracker.lot symbol)) :
    SettledLedger l' := by
  have earlier := settled.past
  rw [days] at earlier
  refine ⟨covered,by simp [noted],?_,?_⟩
  · rw [noted]
    rintro _ ⟨⟩ symbol
    exact account symbol (settled.today record (by simp [days]) symbol)
  · rw [noted]
    exact earlier

theorem advanced (open_ : record.closed = false) : SettledLedger l.advanceDay := by
  have closed : l.advanceDay.days = { record with closed := true } :: past := by
    simp [Ledger.advanceDay,days]
  have rolled := fun symbol => advanceDay_lots l.tracker symbol (settled.covered symbol)
  refine settled.carry days closed (fun symbol => (rolled symbol).1) ?_
  rintro symbol ⟨unforced,sold,before,credits⟩
  obtain ⟨_,fresh,total⟩ := rolled symbol
  simp only [open_,Bool.false_eq_true,if_false,add_zero] at sold before
  refine ⟨unforced,?_,fresh.le,credits⟩
  change record.taken symbol + sellable (l.tracker.advanceDay.lot symbol) ≤
    record.startLong symbol + (record.bought symbol + record.credited symbol)
  linarith

theorem split {split : Split} (open_ : record.closed = false) : SettledLedger (l.split split) := by
  obtain ⟨credit,some_,credited,covered,sold,fresh⟩ :=
    split_lots l.tracker split.symbol split (settled.covered split.symbol)
  have noted : (l.split split).days =
      record.add (.split split.symbol l.tracker (l.tracker.processSplit split.symbol split)) :: past := by
    simp [Ledger.split,Ledger.note,days]
  refine settled.carry days noted ?_ ?_
  · intro symbol
    by_cases same : symbol = split.symbol
    · rw [same]
      exact covered
    · change CoveredLot ((l.tracker.processSplit split.symbol split).lot symbol)
      rw [split_other _ _ same]
      exact settled.covered symbol
  · intro symbol account
    change DayRecord.Account _ symbol ((l.tracker.processSplit split.symbol split).lot symbol)
    by_cases same : symbol = split.symbol
    · subst same
      exact account.split open_ some_ credited sold fresh
    · rw [split_other _ _ same]
      refine account.idle ?_ (by simp [DayEvent.booking?])
      simp [creditTo,Ne.symm same]

theorem booked {e : Engine} {cause : Cause} {trade : Trade} {t : Tracker}
    (phase : record.closed = true ↔ cause = .forceClose) (origin : Engine.Origin e record.day l.tracker trade t cause)
    (liquid : 0 < l.tracker.liquidityFactor) (keeps : KeepsLots l.tracker trade) :
    SettledLedger (l.book cause (some trade,t)) := by
  obtain ⟨request,fees,price,posted⟩ := origin.posted
  have other := posted.other
  obtain ⟨entry,written,positions⟩ := posted.entry
  have ordered := origin.quantity_pos liquid
  have left : t.lot trade.symbol = entry.map Position.lot := by
    unfold Tracker.lot
    rw [positions,Book.get_put_self,Option.map_map]
    rfl
  have settles := booked_settles written ordered (settled.covered trade.symbol) keeps
  rw [← left] at settles
  have noted : (l.book cause (some trade,t)).days = record.add (.booked ⟨cause,l.tracker,trade,t⟩) :: past := by
    simp [Ledger.book,Ledger.note,days]
  have kept : ∀ symbol, symbol ≠ trade.symbol → t.lot symbol = l.tracker.lot symbol := by
    intro symbol distinct
    unfold Tracker.lot
    rw [other symbol distinct]
  refine settled.carry days noted ?_ ?_
  · intro symbol
    change CoveredLot (t.lot symbol)
    by_cases same : symbol = trade.symbol
    · rw [same]
      exact settles.covered
    · rw [kept symbol same]
      exact settled.covered symbol
  · intro symbol account
    change DayRecord.Account _ symbol (t.lot symbol)
    by_cases same : symbol = trade.symbol
    · subst same
      refine account.booked (b := ⟨cause,l.tracker,trade,t⟩) settles phase ?_
      rintro rfl
      cases origin with
      | forceClose executed => exact executed.direction
    · rw [kept symbol same]
      refine account.idle rfl ?_
      rintro _ ⟨⟩
      exact Ne.symm same

end

end SettledLedger

namespace Engine

variable {e : Engine} {params : BacktestParams}

theorem settledLedger_step {l l' : Ledger} (traced : TracedLedger e params l) (step : Step e params l l')
    (keeps : KeepsAllLots l') (settled : SettledLedger l) : SettledLedger l' := by
  cases step with
  | quiet kept =>
    refine ⟨?_,?_,?_,settled.past⟩
    · exact fun symbol => (kept.lots symbol).symm ▸ settled.covered symbol
    · exact fun none_ symbol => (kept.lots symbol).symm ▸ settled.rested none_ symbol
    · exact fun record head symbol => (kept.lots symbol).symm ▸ settled.today record head symbol
  | booked today phase origin =>
    refine settled.booked today phase origin traced.liquid ?_
    simp only [KeepsAllLots,EveryEvent,Ledger.book,Ledger.note,today,modifyHead_cons,forall_mem_cons,
      DayRecord.add,forall_mem_append] at keeps
    exact keeps.1.2.1 _ rfl
  | split today open_ => exact settled.split today open_
  | started _ rested => exact settled.started rested _
  | advanced today open_ => exact settled.advanced today open_

theorem settledLedger_initial (e : Engine) (params : BacktestParams) :
    SettledLedger (e.initialState params).ledger := by
  refine ⟨?_,?_,by simp [initialState],by simp [initialState]⟩
  · intro symbol
    exact CoveredLot.none
  · intro _ symbol
    rfl

theorem run_settled {s : BacktestState} (ran : e.runBacktest params = some s) (keeps : KeepsAllLots s.ledger) :
    SettledLedger s.ledger :=
  (Steps.preserves _ (fun _ _ traced step keeps settled => settledLedger_step traced step keeps settled)
    (settledLedger_initial e params) (runBacktest_steps ran) keeps).2

end Engine

def DayRecord.RestsBeforeClose (record : DayRecord) : Prop :=
  ∀ b ∈ record.bookings, b.cause = .forceClose →
    ∀ buy ∈ record.bookings, buy.trade.symbol = b.trade.symbol → buy.trade.direction ≠ .long

instance (record : DayRecord) : Decidable record.RestsBeforeClose :=
  inferInstanceAs (Decidable (∀ b ∈ record.bookings, b.cause = .forceClose →
    ∀ buy ∈ record.bookings, buy.trade.symbol = b.trade.symbol → buy.trade.direction ≠ .long))

theorem DayRecord.bought_eq_zero
    (none_ : ∀ buy ∈ record.bookings, buy.trade.symbol = symbol → buy.trade.direction ≠ .long) :
    record.bought symbol = 0 := by
  refine sum_eq_zero ?_
  intro quantity listed
  obtain ⟨buy,member,rfl⟩ := mem_map.mp listed
  split
  next same =>
    exact if_neg (none_ buy member same)
  · rfl

namespace Engine

variable {e : Engine} {params : BacktestParams}

/-- In every run whose bookings keep the counters in step with the shares and whose final close
sells nothing bought on the last day, no day sells more of a long position than was held
when the day began or credited since. -/
theorem run_settlementRule {s : BacktestState} (ran : e.runBacktest params = some s) (keeps : KeepsAllLots s.ledger)
    (rests : ∀ record ∈ s.ledger.days, record.RestsBeforeClose) :
    ∀ record ∈ s.ledger.days, ∀ symbol, record.SettlementRule symbol := by
  intro record listed symbol
  obtain ⟨unforced,sold,credits⟩ := (run_settled ran keeps).accounted record listed symbol
  unfold DayRecord.SettlementRule
  by_cases forced : record.Unforced symbol
  · have within := unforced forced
    linarith
  · -- The final close sold the symbol, so nothing of it was bought on the day.
    simp only [DayRecord.Unforced,not_forall,not_not] at forced
    obtain ⟨b,member,closing,same⟩ := forced
    have none_ : record.bought symbol = 0 := DayRecord.bought_eq_zero (same ▸ rests record listed b member closing)
    linarith

def flatMarket (signals : Time → List StrategySignal) : Engine :=
  oneStockEngine (twoDayHistory 10 10) [dayOne,dayTwo] signals
    100 none

def soldNextDay : Engine :=
  flatMarket fun date => if date = dayOne then [marketSignal .long] else [marketSignal .close]

theorem soldNextDay_settlementRule : ∃ s, soldNextDay.runBacktest oneStockParams = some s ∧
    ∃ record ∈ s.ledger.days, record.taken "600000.SH" = 100 ∧ record.SettlementRule "600000.SH" := by
  obtain ⟨s,ran,keeps,rests,record,member,sold⟩ : ∃ s, soldNextDay.runBacktest oneStockParams = some s ∧
      KeepsAllLots s.ledger ∧ (∀ record ∈ s.ledger.days, record.RestsBeforeClose) ∧
      ∃ record ∈ s.ledger.days, record.taken "600000.SH" = 100 := by decide +kernel
  exact ⟨s,ran,record,member,sold,run_settlementRule ran keeps rests record member _⟩

/-- Bought on the last day. The day has been advanced when the final close sells the shares. -/
def boughtOnLastDay : Engine := flatMarket fun date => if date = dayTwo then [marketSignal .long] else []

/-- Bought and sold short on the same day, each sized to 200000. Half of the buy is filled, so the
short sale goes for the other half and takes the shares just bought. -/
def boughtAndShorted : Engine :=
  { oneStockEngine (oneDayHistory (barOn dayOne 1 1 1)) [dayOne]
      (fun _ => [marketSignal .long,marketSignal .short]) 200000 none with executionService := none }

def SellsUnheld (record : DayRecord) : Prop :=
  record.start.held "600000.SH" = 0 ∧ record.credited "600000.SH" = 0 ∧ 0 < record.taken "600000.SH"

instance (record : DayRecord) : Decidable (SellsUnheld record) := inferInstanceAs (Decidable (_ ∧ _ ∧ _))

theorem SellsUnheld.breaks {record : DayRecord} (sells : SellsUnheld record) : ¬ record.SettlementRule "600000.SH" := by
  obtain ⟨start,credited,taken⟩ := sells
  rw [DayRecord.SettlementRule,DayRecord.startLong,start,credited]
  simpa using taken

theorem sameDay_sales_break_settlementRule : (∃ s, boughtOnLastDay.runBacktest oneStockParams = some s ∧
      ∃ record ∈ s.ledger.days, ¬ record.SettlementRule "600000.SH") ∧
    (∃ s, boughtAndShorted.runBacktest oneStockParams = some s ∧
      ∃ record ∈ s.ledger.days, ¬ record.SettlementRule "600000.SH") := by
  have breaks {e : Engine} (found : ∃ s, e.runBacktest oneStockParams = some s ∧ ∃ record ∈ s.ledger.days, SellsUnheld record) :
      ∃ s, e.runBacktest oneStockParams = some s ∧ ∃ record ∈ s.ledger.days, ¬ record.SettlementRule "600000.SH" := by
    obtain ⟨s,ran,record,member,sells⟩ := found
    exact ⟨s,ran,record,member,sells.breaks⟩
  exact ⟨breaks (by decide +kernel),breaks (by decide +kernel)⟩

end Engine
end QuantTrading
