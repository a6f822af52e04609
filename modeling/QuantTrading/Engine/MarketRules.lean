import QuantTrading.Engine.Provenance

/-! Rules of the market over whole runs: no order is filled on a day the symbol has no bar,
nothing is bought at limit-up or sold at limit-down, and fills happen inside the day's
range. Each rule is read off the origin of a booking; each fails on a path that does not
check it.
-/
namespace QuantTrading
open Library

def Cause.isOrder : Cause → Bool
  | .signal _ _ | .execAlgoChild _ | .stopLoss _ => true
  | .delisting | .forceClose => false

namespace Engine

variable {e : Engine} {params : BacktestParams} {day : DayData} {t t' : Tracker} {trade : Trade} {cause : Cause}

theorem Origin.today (origin : Origin e day t trade t' cause) (order : cause.isOrder = true) :
    ∃ bar, day.todayBar trade.symbol = some bar := by
  cases origin with
  | service _ _ _ today filled applied => exact ⟨_,by rw [applied.order.symbol,filled.symbol]; exact today⟩
  | direct _ _ _ today _ _ executed => exact ⟨_,by rw [executed.symbol]; exact today⟩
  | directClose _ _ today _ _ executed => exact ⟨_,by rw [executed.symbol]; exact today⟩
  | child _ today filled applied => exact ⟨_,by rw [applied.order.symbol,filled.symbol]; exact today⟩
  | stopLoss today executed => exact ⟨_,by rw [executed.symbol]; exact today⟩
  | _ => cases order

def oneStockHistory (bars : List OHLCV) (sorted : bars.Pairwise fun a b => a.date ≤ b.date) : MarketHistory where
  bars := fun symbol => if symbol = "600000.SH" then bars else []
  sorted := by
    intro symbol
    split
    · exact sorted
    · exact .nil
  unavailable := fun _ _ => false

def barOn (date : Time) (high low close : ℚ) : OHLCV := ⟨date,high,low,close,1000000,false,false⟩

def marketSignal (direction : Direction) : StrategySignal :=
  ⟨"600000.SH",.other,1,0,none,some direction,none,0,.unset,0,[]⟩

def oneStockEngine (history : MarketHistory) (tradingDays : List Time) (signals : Time → List StrategySignal)
    (size : ℚ) (riskManager : Option RiskManager) : Engine where
  commissionRate := 0
  slippageRate := 0
  trading := defaultTradingConfig
  history := history
  getStock := fun _ => some ⟨"",Time.date 2000 1 4⟩
  listing := ∅
  tradingDays := tradingDays
  dividends := []
  splits := []
  signalProvider := fun _ date => some (signals date)
  riskManager := riskManager
  riskService := ⟨fun _ _ _ _ => some ⟨size,0,0,0,0⟩,fun _ => none⟩
  executionService := some ⟨⟨.none,0,0,0,0⟩,.none,id⟩

def dayOne : Time := Time.date 2024 1 2
def dayTwo : Time := Time.date 2024 1 3

def oneDayHistory (bar : OHLCV) : MarketHistory := oneStockHistory [bar] (List.pairwise_singleton _ bar)

def twoDayHistory (first second : ℚ) : MarketHistory :=
  oneStockHistory [barOn dayOne first first first,barOn dayTwo second second second]
    (List.pairwise_pair.mpr (show dayOne ≤ dayTwo by decide))

def oneStockParams : BacktestParams := ⟨["600000.SH"],dayOne,1000000⟩

def NoTradeWithoutBar (e : Engine) (record : DayRecord) (symbol : String) : Prop :=
  (∀ bar ∈ e.history.bars symbol, bar.date ≠ record.day.date) →
    ∀ booking ∈ record.bookings, booking.cause.isOrder = true → booking.trade.symbol ≠ symbol

/-- In every run, on every day on which the query for a symbol finds no bar at all, no order for
it is filled. An earlier bar inside the query window is taken for today's. -/
theorem run_noTradeWithoutBar {s : BacktestState} (ran : e.runBacktest params = some s) (record : DayRecord)
    (listed : record ∈ s.ledger.days) (symbol : String)
    (unseen : ∀ ohlcvData, e.history.getOHLCV symbol params.startDate record.day.date = some ohlcvData → ohlcvData = []) :
    NoTradeWithoutBar e record symbol := by
  intro suspended booking member order same
  have traced := (run_traced ran).records record listed
  obtain ⟨bar,today⟩ := (traced.bookings booking member).origin.today order
  obtain ⟨ohlcvData,raw,queried,last,_⟩ := traced.fetched.todayBar today
  rw [same] at queried
  rw [unseen ohlcvData queried] at last
  cases last

def lateListing : Engine :=
  oneStockEngine (oneDayHistory (barOn dayTwo 10 10 10)) [dayOne,dayTwo] (fun _ => [marketSignal .long]) 100 none

theorem lateListing_noTradeWithoutBar : ∃ s, lateListing.runBacktest oneStockParams = some s ∧
    ∃ record ∈ s.ledger.days, record.day.date = dayOne ∧ NoTradeWithoutBar lateListing record "600000.SH" := by
  obtain ⟨s,ran,record,member,dated⟩ : ∃ s, lateListing.runBacktest oneStockParams = some s ∧
      ∃ record ∈ s.ledger.days, record.day.date = dayOne := by decide +kernel
  refine ⟨s,ran,record,member,dated,run_noTradeWithoutBar ran record member _ ?_⟩
  rw [dated]
  intro ohlcvData queried
  exact (Option.some.inj queried).symm

def suspension : Engine :=
  oneStockEngine (oneDayHistory (barOn dayOne 10 10 10)) [dayOne,dayTwo]
    (fun date => if date = dayTwo then [marketSignal .long] else []) 100 none

theorem suspension_trades_without_bar : ∃ s, suspension.runBacktest oneStockParams = some s ∧
    ¬ ∀ record ∈ s.ledger.days, ∀ symbol, NoTradeWithoutBar suspension record symbol := by
  obtain ⟨s,ran,record,member,dated,booking,booked,order,same⟩ : ∃ s, suspension.runBacktest oneStockParams = some s ∧
      ∃ record ∈ s.ledger.days, record.day.date = dayTwo ∧ ∃ booking ∈ record.bookings,
        booking.cause.isOrder = true ∧ booking.trade.symbol = "600000.SH" := by decide +kernel
  refine ⟨s,ran,fun law => law record member "600000.SH" ?_ booking booked order same⟩
  rw [dated]
  intro bar stored
  have only : bar = barOn dayOne 10 10 10 := List.mem_singleton.mp stored
  rw [only]
  decide

def DayBar (e : Engine) (params : BacktestParams) (day : DayData) (symbol : String) (ohlcvData : List OHLCV)
    (bar : OHLCV) : Prop :=
  e.history.getOHLCV symbol params.startDate day.date = some ohlcvData ∧ ohlcvData.getLast? = some bar ∧
    bar.date = day.date

instance (e : Engine) (params : BacktestParams) (day : DayData) (symbol : String) (ohlcvData : List OHLCV) (bar : OHLCV) :
    Decidable (DayBar e params day symbol ohlcvData bar) := inferInstanceAs (Decidable (_ ∧ _ ∧ _))

variable {symbol : String}

variable {ohlcvData : List OHLCV} {bar : OHLCV}

theorem DayBar.today {today : OHLCV} (dated : DayBar e params day symbol ohlcvData bar) (fetched : Fetched e params day)
    (taken : day.todayBar symbol = some today) :
    today = flagBar (e.dayLimits symbol day.date ((day.prevClose[symbol]?).getD 0) ohlcvData) bar := by
  obtain ⟨queried,last,_⟩ := dated
  obtain ⟨data,raw,found,final,flagged⟩ := fetched.todayBar taken
  rw [queried,Option.some.injEq] at found
  subst found
  rw [last,Option.some.injEq] at final
  rw [flagged,final]

def LimitLaw (bar : OHLCV) (upperLimit lowerLimit : ℚ) (booking : Booking) : Prop :=
  (upperLimit ≤ bar.close → booking.after.held booking.trade.symbol ≤ booking.before.held booking.trade.symbol) ∧
  (bar.close ≤ lowerLimit → booking.before.held booking.trade.symbol ≤ booking.after.held booking.trade.symbol)

instance (bar : OHLCV) (upperLimit lowerLimit : ℚ) (booking : Booking) :
    Decidable (LimitLaw bar upperLimit lowerLimit booking) := inferInstanceAs (Decidable ((_ → _) ∧ (_ → _)))

def isSignal : Cause → Bool
  | .signal _ _ => true
  | _ => false

/-- A fill that leaves a holding of its own side below the flat threshold, where it is dropped. -/
def Dust (booking : Booking) : Prop :=
  let held := booking.before.held booking.trade.symbol
  (booking.trade.direction = .long ∧ 0 < held ∧ isFlat (held + booking.trade.quantity) = true) ∨
  (booking.trade.direction = .short ∧ held < 0 ∧ isFlat (held - booking.trade.quantity) = true)

/-- The bookings the limit gate of the signal loop answers for. It lets through a short sale at
limit-down and the buy-back of a short at limit-up, and the other paths do not ask it. -/
structure Gated (bar : OHLCV) (upperLimit lowerLimit : ℚ) (booking : Booking) : Prop where
  buys : upperLimit ≤ bar.close → booking.trade.direction = .long → isSignal booking.cause = true
  covers : upperLimit ≤ bar.close → booking.trade.direction = .close → 0 ≤ booking.before.held booking.trade.symbol
  shorts : bar.close ≤ lowerLimit → booking.trade.direction ≠ .short
  sells : bar.close ≤ lowerLimit → booking.trade.direction = .close →
    0 < booking.before.held booking.trade.symbol → isSignal booking.cause = true
  kept : ¬ Dust booking

theorem Origin.gate {signal : Signal} {targetQty : ℚ} (origin : Origin e day t trade t' (.signal signal targetQty)) :
    trade.symbol = signal.symbol ∧ trade.direction = signal.direction ∧ tradeBlocked day signal = false := by
  cases origin with
  | service _ _ passed _ filled applied =>
    exact ⟨applied.order.symbol.trans filled.symbol,applied.order.direction.trans filled.direction,passed⟩
  | direct _ _ passed _ _ _ executed => exact ⟨executed.symbol,executed.direction,passed⟩
  | directClose _ passed _ _ side executed => exact ⟨executed.symbol,executed.direction.trans side.symm,passed⟩

theorem Origin.unblocked {upperLimit lowerLimit : ℚ} (origin : Origin e day t trade t' cause)
    (signalled : isSignal cause = true) (fetched : Fetched e params day)
    (dated : DayBar e params day trade.symbol ohlcvData bar)
    (limits : e.dayLimits trade.symbol day.date ((day.prevClose[trade.symbol]?).getD 0) ohlcvData = some
      (upperLimit,lowerLimit)) :
    (upperLimit ≤ bar.close → trade.direction ≠ .long) ∧ (bar.close ≤ lowerLimit → trade.direction ≠ .close) := by
  obtain ⟨signal,targetQty,rfl⟩ : ∃ signal targetQty, cause = .signal signal targetQty := by
    cases cause with
    | signal signal targetQty => exact ⟨signal,targetQty,rfl⟩
    | _ => cases signalled
  obtain ⟨today,taken⟩ := origin.today rfl
  obtain ⟨symbol,direction,passed⟩ := origin.gate
  have flagged := dated.today fetched taken
  rw [limits] at flagged
  unfold tradeBlocked at passed
  rw [← symbol,taken] at passed
  simp only [flagged,flagBar,← direction,decide_eq_false_iff_not,decide_eq_true_eq,not_or,not_and,ge_iff_le] at passed
  exact ⟨fun up => (passed.1 up).1,passed.2⟩

/-- In every run, every order the gate answers for obeys the price limits of its day. -/
theorem run_limitLaw {s : BacktestState} (ran : e.runBacktest params = some s) (record : DayRecord)
    (listed : record ∈ s.ledger.days) (booking : Booking) (member : booking ∈ record.bookings)
    (ohlcvData : List OHLCV) (bar : OHLCV) (upperLimit lowerLimit : ℚ)
    (dated : DayBar e params record.day booking.trade.symbol ohlcvData bar)
    (limits : e.dayLimits booking.trade.symbol record.day.date
      ((record.day.prevClose[booking.trade.symbol]?).getD 0) ohlcvData = some (upperLimit,lowerLimit))
    (gated : Gated bar upperLimit lowerLimit booking) : LimitLaw bar upperLimit lowerLimit booking := by
  have traced := (run_traced ran).records record listed
  have known := traced.bookings booking member
  have origin := known.origin
  have ordered := origin.quantity_pos known.liquid
  obtain ⟨request,fees,price,posted⟩ := origin.posted
  have change := posted.heldChange
  have unblocked := fun signalled => origin.unblocked signalled traced.fetched dated limits
  constructor
  · intro up
    refine change.le ordered ?_ (gated.covers up) ?_
    · intro bought
      exact (unblocked (gated.buys up bought)).1 up bought
    · intro short dust
      exact gated.kept (.inr ⟨short,dust⟩)
  · intro down
    refine change.ge ordered (gated.shorts down) ?_ ?_
    · intro close
      by_contra held
      exact (unblocked (gated.sells down close (not_le.mp held))).2 down close
    · intro long dust
      exact gated.kept (.inl ⟨long,dust⟩)

def soldAtLimitUp : Engine :=
  oneStockEngine (twoDayHistory 10 11) [dayOne,dayTwo]
    (fun date => if date = dayTwo then [marketSignal .close] else [marketSignal .long]) 100 none

theorem soldAtLimitUp_limitLaw : ∃ s, soldAtLimitUp.runBacktest oneStockParams = some s ∧
    ∃ record ∈ s.ledger.days, ∃ booking ∈ record.bookings,
      isSignal booking.cause = true ∧ LimitLaw (barOn dayTwo 11 11 11) 11 9 booking := by
  obtain ⟨s,ran,record,member,booking,booked,dated,limits,signalled,side,held⟩ :
      ∃ s, soldAtLimitUp.runBacktest oneStockParams = some s ∧ ∃ record ∈ s.ledger.days, ∃ booking ∈ record.bookings,
        DayBar soldAtLimitUp oneStockParams record.day booking.trade.symbol
          [barOn dayOne 10 10 10,barOn dayTwo 11 11 11] (barOn dayTwo 11 11 11) ∧
        soldAtLimitUp.dayLimits booking.trade.symbol record.day.date
          ((record.day.prevClose[booking.trade.symbol]?).getD 0)
          [barOn dayOne 10 10 10,barOn dayTwo 11 11 11] = some (11,9) ∧
        isSignal booking.cause = true ∧ booking.trade.direction = .close ∧
        0 ≤ booking.before.held booking.trade.symbol := by decide +kernel
  refine ⟨s,ran,record,member,booking,booked,signalled,run_limitLaw ran record member booking booked _ _ _ _ dated limits ?_⟩
  refine ⟨fun _ long => ?_,fun _ _ => held,fun _ short => ?_,fun _ _ _ => signalled,?_⟩
  · simp [side] at long
  · simp [side] at short
  · rintro (⟨long,_⟩ | ⟨short,_⟩)
    · simp [side] at long
    · simp [side] at short

def shortAtLimitDown : Engine :=
  oneStockEngine (twoDayHistory 10 9) [dayOne,dayTwo]
    (fun date => if date = dayTwo then [marketSignal .short] else []) 100 none

theorem shortAtLimitDown_breaks_limitLaw : ∃ s, shortAtLimitDown.runBacktest oneStockParams = some s ∧
    ∃ record ∈ s.ledger.days, ∃ booking ∈ record.bookings, booking.cause.isOrder = true ∧
      DayBar shortAtLimitDown oneStockParams record.day booking.trade.symbol
        [barOn dayOne 10 10 10,barOn dayTwo 9 9 9] (barOn dayTwo 9 9 9) ∧
      shortAtLimitDown.dayLimits booking.trade.symbol record.day.date
        ((record.day.prevClose[booking.trade.symbol]?).getD 0)
        [barOn dayOne 10 10 10,barOn dayTwo 9 9 9] = some (11,9) ∧
      ¬ LimitLaw (barOn dayTwo 9 9 9) 11 9 booking := by
  decide +kernel

end Engine
end QuantTrading
