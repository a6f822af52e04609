import Mathlib.Data.List.Induction
import QuantTrading.Tracker.Operations
import QuantTrading.Tracker.Rejections

/-! The daily buy cap on risk-warning stocks over whole histories. The tracker counts buys in a
book that it empties on the first checked buy of another day; the law is about the recorded
trades. The two agree on every day that is not over yet.
-/
namespace QuantTrading.Tracker
open Library List

variable {t t' : Tracker} {symbol : String} {direction : Direction} {quantity price : ℚ} {timestamp : Time}

def longQuantity (trades : List Trade) (symbol : String) (day : Time) : ℚ :=
  (trades.map fun trade =>
    if trade.direction = .long ∧ trade.symbol = symbol ∧ trade.timestamp.truncateDay = day then trade.quantity else 0).sum

/-- The part of the long quantity that was bought: a long trade may carry a negative quantity. -/
def boughtQuantity (trades : List Trade) (symbol : String) (day : Time) : ℚ :=
  (trades.map fun trade =>
    if trade.direction = .long ∧ 0 < trade.quantity ∧ trade.symbol = symbol ∧ trade.timestamp.truncateDay = day
    then trade.quantity else 0).sum

variable (trades : List Trade)

theorem longQuantity_le_boughtQuantity (symbol : String) (day : Time) :
    longQuantity trades symbol day ≤ boughtQuantity trades symbol day := by
  apply sum_le_sum
  intro trade _
  by_cases positive : 0 < trade.quantity
  · simp only [positive,true_and,le_refl]
  · simp only [positive,false_and,and_false,if_false]
    split
    · exact not_lt.mp positive
    · exact le_rfl

theorem boughtQuantity_nonneg (symbol : String) (day : Time) : 0 ≤ boughtQuantity trades symbol day := by
  apply sum_nonneg
  intro amount listed
  obtain ⟨trade,-,rfl⟩ := mem_map.mp listed
  split
  next bought =>
    exact bought.2.1.le
  · exact le_rfl

theorem boughtQuantity_append (trade : Trade) (symbol : String) (day : Time) :
    boughtQuantity (trades ++ [trade]) symbol day = boughtQuantity trades symbol day +
      if trade.direction = .long ∧ 0 < trade.quantity ∧ trade.symbol = symbol ∧ trade.timestamp.truncateDay = day
      then trade.quantity else 0 := by
  simp only [boughtQuantity,map_append,sum_append,map_cons,map_nil,sum_singleton]

def counts (t : Tracker) : Book String ℚ × Time := (t.dailyRWBuy,t.dailyRWBuyDay)

theorem boughtOn_congr (same : t'.counts = t.counts) (symbol : String) (moment : Time) :
    t'.boughtOn symbol moment = t.boughtOn symbol moment := by
  obtain ⟨count,day⟩ := Prod.mk.inj same
  simp only [boughtOn,count,day]

theorem boughtOn_restarted_le (counted : 0 ≤ t.boughtOn symbol timestamp) (asOf : Time) :
    0 ≤ (t.restarted asOf).boughtOn symbol timestamp ∧
      (t.restarted asOf).boughtOn symbol timestamp ≤ t.boughtOn symbol timestamp := by
  by_cases same : asOf.truncateDay = t.dailyRWBuyDay
  · simp only [restarted,same,ne_eq,not_true_eq_false,if_false]
    exact ⟨counted,le_rfl⟩
  · have emptied : (t.restarted asOf).boughtOn symbol timestamp = 0 := by
      simp [restarted,same,boughtOn]
    rw [emptied]
    exact ⟨le_rfl,counted⟩

def Current (t : Tracker) (asOf : Time) : Prop := t.dailyRWBuyDay ≤ asOf.truncateDay ∨ t.dailyRWBuy = ∅

theorem boughtOn_restarted_current {asOf : Time} (current : t.Current asOf)
    (later : asOf.truncateDay ≤ timestamp.truncateDay) :
    (t.restarted asOf).boughtOn symbol timestamp = t.boughtOn symbol timestamp := by
  by_cases same : asOf.truncateDay = t.dailyRWBuyDay
  · simp only [restarted,same,ne_eq,not_true_eq_false,if_false]
  · have emptied : (t.restarted asOf).boughtOn symbol timestamp = 0 := by
      simp [restarted,same,boughtOn]
    rw [emptied,boughtOn]
    split
    next day =>
      rcases current with early | empty
      · exact absurd (le_antisymm (day ▸ later) early) same
      · rw [empty]
        rfl
    · rfl

def Op.moment : Op → Option Time
  | .executeTrade _ _ _ _ timestamp _ => some timestamp
  | .applyTrade trade => some trade.timestamp
  | _ => none

inductive Counted (t : Tracker) (op : Op) (t' : Tracker) : Prop where
  | kept (trades : ∀ symbol day, boughtQuantity t'.trades symbol day = boughtQuantity t.trades symbol day)
      (counts : t'.counts = t.counts)
  | restarted {asOf : Time} (moment : op.moment = some asOf) (trades : t'.trades = t.trades)
      (counts : t'.counts = (t.restarted asOf).counts)
  | free {trade : Trade} (moment : op.moment = some trade.timestamp) (long : trade.direction = .long)
      (positive : 0 < trade.quantity) (free : t.riskWarningCap trade.symbol = none)
      (trades : t'.trades = t.trades ++ [trade]) (counts : t'.counts = t.counts)
  | counted {trade : Trade} {cap : ℚ} (moment : op.moment = some trade.timestamp) (long : trade.direction = .long)
      (positive : 0 < trade.quantity) (capped : t.riskWarningCap trade.symbol = some cap)
      (within : t.boughtOn trade.symbol trade.timestamp + trade.quantity ≤ cap)
      (trades : t'.trades = t.trades ++ [trade])
      (counts : t'.counts = ((t.restarted trade.timestamp).dailyRWBuy.insert trade.symbol
        (t.boughtOn trade.symbol trade.timestamp + trade.quantity),trade.timestamp.truncateDay))

variable {cost : ℚ} {flag : Bool} {opts : Option OrderExecutionOpts} {moment : Time} {start : Tracker}

theorem bookLong_counts (accepted : t.bookLong symbol quantity price cost timestamp = (.ok (),t')) :
    (quantity ≤ 0 ∨ t.riskWarningCap symbol = none) ∧ t'.counts = t.counts ∨
      ∃ cap, 0 < quantity ∧ t.riskWarningCap symbol = some cap ∧ t.boughtOn symbol timestamp + quantity ≤ cap ∧
        t'.counts = ((t.restarted timestamp).dailyRWBuy.insert symbol (t.boughtOn symbol timestamp + quantity),
          timestamp.truncateDay) := by
  unfold bookLong at accepted
  iterate 2 (split at accepted; · cases accepted)
  rename_i allowed
  cases accepted
  by_cases ordered : 0 < quantity
  · rw [enforce_eq t symbol timestamp ordered] at allowed
    split at allowed
    next uncapped =>
      cases allowed
      exact .inl ⟨.inr uncapped,rfl⟩
    next cap capped =>
      split at allowed
      · cases allowed
      rename_i within
      cases allowed
      refine .inr ⟨cap,ordered,capped,not_lt.mp within,?_⟩
      simp only [counts,restarted_day]
  · rw [enforceRiskWarningDailyBuy,if_pos (not_lt.mp ordered)] at allowed
    cases allowed
    exact .inl ⟨.inl (not_lt.mp ordered),rfl⟩

theorem markPosition_counts (t : Tracker) (symbol : String) (price : ℚ) :
    (t.markPosition symbol price).counts = t.counts := by
  unfold markPosition
  split <;> rfl

theorem bookTrade_counts {draft trade : Trade} {qty proceeds request : ℚ}
    (accepted : t.bookTrade draft qty cost proceeds request flag = (.ok trade,t')) :
    (draft.direction ≠ .long ∧ t'.counts = t.counts) ∨
      (draft.direction = .long ∧ t.bookLong draft.symbol qty draft.price cost draft.timestamp = (.ok (),t')) := by
  rcases bookTrade_ok accepted with ⟨side,-,booked⟩ | ⟨side,-,rfl⟩ | ⟨side,closed⟩ | ⟨side,-,rfl⟩
  · exact .inr ⟨side,booked⟩
  · exact .inl ⟨by simp [side],rfl⟩
  · obtain ⟨_,_,_,-,-,rfl⟩ := bookClose_cases closed
    exact .inl ⟨by simp [side],rfl⟩
  · exact .inl ⟨by simp [side],rfl⟩

theorem executeTrade_counts {trade : Trade}
    (accepted : t.executeTrade symbol direction quantity price timestamp opts = (.ok trade,t')) :
    (direction ≠ .long ∧ t'.counts = t.counts) ∨ (direction = .long ∧ ∃ t₁ cost,
      t.bookLong trade.symbol trade.quantity trade.price cost trade.timestamp = (.ok (),t₁) ∧ t'.counts = t₁.counts) := by
  obtain ⟨_,t₁,_,-,booked,-,-,rfl⟩ := executeTrade_cases accepted
  have marked := markPosition_counts t₁ symbol price
  rcases bookTrade_counts booked with ⟨other,same⟩ | ⟨long,bought⟩
  · exact .inl ⟨other,marked.trans same⟩
  · rw [(bookExecuted_ok rfl booked).2.1 (by simp [long])]
    exact .inr ⟨long,t₁,_,bought,marked⟩

theorem applyTrade_counts {draft trade : Trade} (accepted : t.applyTrade draft = (.ok trade,t')) :
    (draft.direction ≠ .long ∧ t'.counts = t.counts) ∨ (draft.direction = .long ∧ ∃ t₁ cost,
      t.bookLong trade.symbol trade.quantity trade.price cost trade.timestamp = (.ok (),t₁) ∧ t'.counts = t₁.counts) := by
  obtain ⟨t₁,-,booked,rfl⟩ := applyTrade_cases accepted
  have marked := markPosition_counts t₁ draft.symbol draft.price
  rcases bookTrade_counts booked with ⟨other,same⟩ | ⟨long,bought⟩
  · exact .inl ⟨other,marked.trans same⟩
  · rw [(bookApplied_ok booked).2.1 (by simp [long])]
    exact .inr ⟨long,t₁,_,bought,marked⟩

namespace Counted
variable {op : Op} {trade : Trade}

theorem of_refused {asOf : Time} (moment : op.moment = some asOf) (refused : Refused t asOf t') : Counted t op t' := by
  cases refused with
  | same => exact .kept (fun _ _ => rfl) rfl
  | restarted =>
    refine .restarted moment ?_ rfl
    unfold Tracker.restarted
    split <;> rfl

theorem of_other (trades : t'.trades = t.trades ++ [trade]) (other : trade.direction ≠ .long)
    (counts : t'.counts = t.counts) : Counted t op t' := by
  refine .kept (fun symbol day => ?_) counts
  rw [trades,boughtQuantity_append]
  simp [other]

theorem of_long {cost : ℚ} {t₁ : Tracker} (moment : op.moment = some trade.timestamp) (long : trade.direction = .long)
    (booked : t.bookLong trade.symbol trade.quantity trade.price cost trade.timestamp = (.ok (),t₁))
    (trades : t'.trades = t.trades ++ [trade]) (counts : t'.counts = t₁.counts) : Counted t op t' := by
  rcases bookLong_counts booked with ⟨free,same⟩ | ⟨cap,positive,capped,within,added⟩
  · by_cases positive : 0 < trade.quantity
    · exact .free moment long positive (free.resolve_left (not_le.mpr positive)) trades (counts.trans same)
    · refine .kept (fun symbol day => ?_) (counts.trans same)
      rw [trades,boughtQuantity_append]
      simp [positive]
  · exact .counted moment long positive capped within trades (counts.trans added)

end Counted

theorem step_counted (t : Tracker) (op : Op) : Counted t op (t.step op) := by
  cases op with
  | executeTrade symbol direction quantity price timestamp opts =>
    change Counted t _ (t.executeTrade symbol direction quantity price timestamp opts).2
    rcases result : t.executeTrade symbol direction quantity price timestamp opts with ⟨e | trade,t'⟩
    · rcases executeTrade_refused result with ⟨-,refused⟩ | ⟨order,-,rfl⟩
      · exact .of_refused rfl refused
      · exact .kept (fun _ _ => rfl) rfl
    · have executed := executeTrade_ok result
      rcases executeTrade_counts result with ⟨other,same⟩ | ⟨long,t₁,cost,booked,counts⟩
      · exact .of_other executed.posted.trades (executed.direction ▸ other) same
      · exact .of_long (congrArg some executed.timestamp.symm) (executed.direction.trans long) booked
          executed.posted.trades counts
  | applyTrade draft =>
    change Counted t _ (t.applyTrade draft).2
    rcases result : t.applyTrade draft with ⟨e | trade,t'⟩
    · exact .of_refused rfl (applyTrade_refused result)
    · have applied := applyTrade_ok result
      rcases applyTrade_counts result with ⟨other,same⟩ | ⟨long,t₁,cost,booked,counts⟩
      · exact .of_other applied.posted.trades (applied.order.direction ▸ other) same
      · exact .of_long (congrArg some applied.order.timestamp.symm) (applied.order.direction.trans long) booked
          applied.posted.trades counts
  | processDividend symbol dividend =>
    change Counted t _ (t.processDividend symbol dividend)
    unfold processDividend
    split
    · exact .kept (fun _ _ => rfl) rfl
    · split <;> exact .kept (fun _ _ => rfl) rfl
  | processSplit symbol split =>
    change Counted t _ (t.processSplit symbol split)
    unfold processSplit
    split
    · exact .kept (fun _ _ => rfl) rfl
    · split <;> exact .kept (fun _ _ => rfl) rfl
  | advanceDay =>
    change Counted t _ t.advanceDay
    unfold advanceDay
    dsimp only
    split <;> exact .kept (fun _ _ => rfl) rfl
  | setStockNames => exact .kept (fun _ _ => rfl) rfl

theorem boughtOn_counted {trade : Trade}
    (counts : t'.counts = ((t.restarted trade.timestamp).dailyRWBuy.insert trade.symbol
      (t.boughtOn trade.symbol trade.timestamp + trade.quantity),trade.timestamp.truncateDay))
    (symbol : String) (moment : Time) :
    t'.boughtOn symbol moment = (t.restarted trade.timestamp).boughtOn symbol moment +
      if trade.symbol = symbol ∧ trade.timestamp.truncateDay = moment.truncateDay then trade.quantity else 0 := by
  obtain ⟨count,day⟩ := Prod.mk.inj counts
  rw [boughtOn,boughtOn,count,day,restarted_day]
  by_cases same : moment.truncateDay = trade.timestamp.truncateDay
  · have earlier : ((t.restarted trade.timestamp).dailyRWBuy[trade.symbol]?).getD 0 =
        t.boughtOn trade.symbol trade.timestamp := by
      rw [← boughtOn_restarted,boughtOn,restarted_day,if_pos rfl]
    by_cases own : trade.symbol = symbol
    · subst own
      simp [same,earlier]
    · simp [same,own,Book.getElem?_insert]
  · simp [same,Ne.symm same]

def CountsPurchases (t : Tracker) : Prop :=
  ∀ symbol moment, 0 ≤ t.boughtOn symbol moment ∧
    t.boughtOn symbol moment ≤ boughtQuantity t.trades symbol moment.truncateDay

theorem CountsPurchases.step (counted : t.CountsPurchases) (op : Op) : (t.step op).CountsPurchases := by
  intro symbol moment
  obtain ⟨nonneg,most⟩ := counted symbol moment
  cases step_counted t op with
  | kept trades counts =>
    rw [boughtOn_congr counts,trades]
    exact ⟨nonneg,most⟩
  | restarted called trades counts =>
    have left := boughtOn_restarted_le nonneg
    rw [boughtOn_congr counts,trades]
    exact ⟨(left _).1,(left _).2.trans most⟩
  | free called long positive free trades counts =>
    rw [boughtOn_congr counts,trades,boughtQuantity_append]
    refine ⟨nonneg,most.trans (le_add_of_nonneg_right ?_)⟩
    split
    · exact positive.le
    · exact le_rfl
  | @counted trade cap called long positive capped within trades counts =>
    have left := boughtOn_restarted_le nonneg trade.timestamp
    rw [boughtOn_counted counts,trades,boughtQuantity_append]
    simp only [long,positive,true_and]
    have added : (0 : ℚ) ≤ if trade.symbol = symbol ∧ trade.timestamp.truncateDay = moment.truncateDay
        then trade.quantity else 0 := by
      split
      · exact positive.le
      · exact le_rfl
    exact ⟨add_nonneg left.1 added,add_le_add_left (left.2.trans most) _⟩

def Warned (t : Tracker) (symbol : String) : Prop := (t.stockNames[symbol]?).any isRiskWarningName = true

theorem Warned.riskWarningCap (warned : t.Warned symbol) (limited : 0 < riskWarningDailyBuyCap symbol) :
    t.riskWarningCap symbol = some (riskWarningDailyBuyCap symbol) := by
  unfold Warned at warned
  unfold Tracker.riskWarningCap
  cases named : t.stockNames[symbol]? with
  | none =>
    rw [named] at warned
    cases warned
  | some name =>
    rw [named,Option.any_some] at warned
    have nonempty : name ≠ "" := by
      rintro rfl
      exact absurd warned (by decide)
    simp only [nonempty,warned,limited,ne_eq,not_false_eq_true,and_self,if_true]

def days (ops : List Op) : List Time := ops.filterMap fun op => op.moment.map (·.truncateDay)

theorem days_concat (ops : List Op) (op : Op) : days (ops ++ [op]) = days ops ++ (op.moment.map (·.truncateDay)).toList := by
  rw [days,filterMap_append,days]
  cases called : op.moment <;> simp [called]

/-- The purchases of a symbol on one day, while and after the day is traded. -/
structure WithinCap (symbol : String) (moment : Time) (ops : List Op) (t : Tracker) : Prop where
  current : t.dailyRWBuyDay ∈ days ops ∨ t.dailyRWBuy = ∅
  capped : boughtQuantity t.trades symbol moment.truncateDay ≤ riskWarningDailyBuyCap symbol
  counted : (∀ day ∈ days ops, day ≤ moment.truncateDay) →
    boughtQuantity t.trades symbol moment.truncateDay ≤ t.boughtOn symbol moment

theorem boughtOn_sameDay (same : timestamp.truncateDay = moment.truncateDay) :
    t.boughtOn symbol timestamp = t.boughtOn symbol moment := by
  simp only [boughtOn,same]

theorem WithinCap.step {ops : List Op} {op : Op} (within : WithinCap symbol moment ops t)
    (ordered : ∀ asOf, op.moment = some asOf → ∀ day ∈ days ops, day ≤ asOf.truncateDay)
    (warned : ∀ asOf, op.moment = some asOf → asOf.truncateDay = moment.truncateDay →
      t.riskWarningCap symbol = some (riskWarningDailyBuyCap symbol)) :
    WithinCap symbol moment (ops ++ [op]) (t.step op) := by
  have earlier {late : Time} (all : ∀ day ∈ days (ops ++ [op]), day ≤ late) : ∀ day ∈ days ops, day ≤ late := by
    intro day listed
    exact all day (by rw [days_concat]; exact mem_append_left _ listed)
  have last {asOf : Time} (called : op.moment = some asOf) : asOf.truncateDay ∈ days (ops ++ [op]) := by
    rw [days_concat,called]
    simp
  have older : t.dailyRWBuyDay ∈ days (ops ++ [op]) ∨ t.dailyRWBuy = ∅ := by
    rw [days_concat]
    exact within.current.imp_left fun listed => mem_append_left _ listed
  have current {asOf : Time} (called : op.moment = some asOf) : t.Current asOf :=
    within.current.imp_left (ordered asOf called t.dailyRWBuyDay)
  cases step_counted t op with
  | kept trades counts =>
    obtain ⟨count,day⟩ := Prod.mk.inj counts
    refine ⟨by rw [count,day]; exact older,?_,?_⟩
    · rw [trades]
      exact within.capped
    · intro all
      rw [trades,boughtOn_congr counts]
      exact within.counted (earlier all)
  | restarted called trades counts =>
    obtain ⟨-,day⟩ := Prod.mk.inj counts
    refine ⟨.inl ?_,?_,?_⟩
    · rw [day,restarted_day]
      exact last called
    · rw [trades]
      exact within.capped
    · intro all
      rw [trades,boughtOn_congr counts,boughtOn_restarted_current (current called) (all _ (last called))]
      exact within.counted (earlier all)
  | @free trade called long positive free trades counts =>
    obtain ⟨count,day⟩ := Prod.mk.inj counts
    -- A purchase that is not counted is of another symbol or of another day.
    have other : ¬ (trade.symbol = symbol ∧ trade.timestamp.truncateDay = moment.truncateDay) := by
      rintro ⟨rfl,same⟩
      cases free.symm.trans (warned _ called same)
    have unchanged : boughtQuantity (t.step op).trades symbol moment.truncateDay =
        boughtQuantity t.trades symbol moment.truncateDay := by
      rw [trades,boughtQuantity_append]
      simp [long,positive,other]
    refine ⟨by rw [count,day]; exact older,?_,?_⟩
    · rw [unchanged]
      exact within.capped
    · intro all
      rw [unchanged,boughtOn_congr counts]
      exact within.counted (earlier all)
  | @counted trade cap called long positive capped fits trades counts =>
    obtain ⟨-,day⟩ := Prod.mk.inj counts
    have added : boughtQuantity (t.step op).trades symbol moment.truncateDay =
        boughtQuantity t.trades symbol moment.truncateDay +
          if trade.symbol = symbol ∧ trade.timestamp.truncateDay = moment.truncateDay then trade.quantity else 0 := by
      rw [trades,boughtQuantity_append]
      simp only [long,positive,true_and]
    refine ⟨.inl (by rw [day]; exact last called),?_,?_⟩
    · rw [added]
      split
      next own =>
        obtain ⟨rfl,same⟩ := own
        cases capped.symm.trans (warned _ called same)
        have before := within.counted fun day listed => (ordered _ called day listed).trans same.le
        rw [boughtOn_sameDay same] at fits
        exact (add_le_add_left before _).trans fits
      · rw [add_zero]
        exact within.capped
    · intro all
      rw [added,boughtOn_counted counts,boughtOn_restarted_current (current called) (all _ (last called))]
      exact add_le_add_left (within.counted (earlier all)) _

def DayOrdered (ops : List Op) : Prop := (days ops).Pairwise (· ≤ ·)

def WarnedOn (symbol : String) (day : Time) (t : Tracker) (op : Op) : Prop :=
  ∀ asOf, op.moment = some asOf → asOf.truncateDay = day → t.Warned symbol

theorem withinCap_run (fresh : start.trades = []) (uncounted : start.dailyRWBuy = ∅)
    (limited : 0 < riskWarningDailyBuyCap symbol) (ops : List Op) (ordered : DayOrdered ops)
    (warned : Guarded step (WarnedOn symbol moment.truncateDay) start ops) :
    WithinCap symbol moment ops (run step start ops) := by
  induction ops using reverseRecOn with
  | nil =>
    have none_ : boughtQuantity (run step start []).trades symbol moment.truncateDay = 0 := by
      rw [run_nil,fresh]
      rfl
    refine ⟨.inr uncounted,?_,fun _ => ?_⟩
    · rw [none_]
      exact limited.le
    · rw [none_,run_nil,boughtOn,uncounted]
      split <;> rfl
  | append_singleton ops op ih =>
    obtain ⟨before,now,-⟩ := guarded_append.mp warned
    rw [DayOrdered,days_concat,pairwise_append] at ordered
    rw [run_append]
    refine (ih ordered.1 before).step ?_ ?_
    · intro asOf called day listed
      refine ordered.2.2 day listed asOf.truncateDay ?_
      rw [called]
      exact mem_singleton.mpr rfl
    · intro asOf called same
      exact (now asOf called same).riskWarningCap limited

theorem countsPurchases_run (uncounted : start.dailyRWBuy = ∅) (ops : List Op) :
    (run step start ops).CountsPurchases := by
  have initial : start.CountsPurchases := by
    intro symbol moment
    have none_ : start.boughtOn symbol moment = 0 := by
      rw [boughtOn,uncounted]
      split <;> rfl
    rw [none_]
    exact ⟨le_rfl,boughtQuantity_nonneg _ _ _⟩
  exact run_always (fun t op counted => counted.step op) initial ops

def Fits (t : Tracker) (symbol : String) (quantity : ℚ) (moment : Time) : Prop :=
  t.Warned symbol → 0 < riskWarningDailyBuyCap symbol →
    boughtQuantity t.trades symbol moment.truncateDay + quantity ≤ riskWarningDailyBuyCap symbol

theorem riskWarningCap_eq_some {cap : ℚ} (capped : t.riskWarningCap symbol = some cap) :
    t.Warned symbol ∧ 0 < riskWarningDailyBuyCap symbol ∧ riskWarningDailyBuyCap symbol = cap := by
  unfold riskWarningCap at capped
  unfold Warned
  split at capped
  · cases capped
  rename_i name named
  split at capped
  next limited =>
    cases capped
    rw [named]
    exact ⟨limited.2.1,limited.2.2,rfl⟩
  · cases capped

theorem bookLong_accepted (price : ℚ) (counted : t.CountsPurchases)
    (fits : t.Fits symbol quantity timestamp) (affordable : cost ≤ t.cash) : ∃ t', t.bookLong symbol quantity price cost timestamp = (.ok (),t') := by
  have allowed : (t.enforceRiskWarningDailyBuy symbol quantity timestamp).1 = .ok () := by
    by_cases ordered : 0 < quantity
    · rw [enforce_ok_iff t symbol timestamp ordered]
      intro left remaining
      obtain ⟨cap,capped,rfl⟩ := map_eq_some_iff.mp remaining
      obtain ⟨warned,limited,rfl⟩ := riskWarningCap_eq_some capped
      have recorded := (counted symbol timestamp).2
      have room := fits warned limited
      linarith
    · rw [enforceRiskWarningDailyBuy,if_pos (not_lt.mp ordered)]
  unfold bookLong
  rw [if_neg (not_lt.mpr affordable)]
  rcases checked : t.enforceRiskWarningDailyBuy symbol quantity timestamp with ⟨e | _,t₁⟩
  · rw [checked] at allowed
    cases allowed
  · exact ⟨_,rfl⟩

def executedCost (trade : Trade) : ℚ :=
  trade.filledQty * trade.price + (trade.commission + trade.transferFee + trade.stampTax)

def appliedCost (trade : Trade) : ℚ := trade.quantity * trade.price + trade.commission + trade.transferFee

theorem executeTrade_accepted {executed : ℚ} (counted : t.CountsPurchases)
    (priced : t.executionPrice symbol .long price (opts.getD ⟨.market,price,none⟩) = .ok executed)
    (fits : t.Fits symbol (t.filledQty quantity (opts.getD ⟨.market,price,none⟩).dayBar) timestamp)
    (affordable : executedCost (t.executedDraft symbol .long quantity executed timestamp
      (opts.getD ⟨.market,price,none⟩)) ≤ t.cash) :
    (t.executeTrade symbol .long quantity price timestamp opts).1.isOk := by
  obtain ⟨t₁,booked⟩ := bookLong_accepted executed counted fits affordable
  have executes : t.bookExecuted (t.executedDraft symbol .long quantity executed timestamp
      (opts.getD ⟨.market,price,none⟩)) quantity =
      (.ok (t.executedDraft symbol .long quantity executed timestamp (opts.getD ⟨.market,price,none⟩)),t₁) := by
    simp only [bookExecuted,executedDraft,draftTrade,executedCost] at booked ⊢
    rw [booked]
  unfold executedDraft at executes
  simp only [executeTrade,priced,executes]
  rfl

theorem applyTrade_accepted {trade : Trade} (counted : t.CountsPurchases) (long : trade.direction = .long)
    (positive : 0 < trade.quantity) (fits : t.Fits trade.symbol trade.quantity trade.timestamp)
    (affordable : appliedCost trade ≤ t.cash) : (t.applyTrade trade).1.isOk := by
  obtain ⟨t₁,booked⟩ := bookLong_accepted trade.price counted fits affordable
  unfold appliedCost at booked
  simp only [applyTrade,if_neg (not_le.mpr positive),bookApplied,long,booked]
  rfl

/-- The purchases recorded for a symbol on a day on which it carries a risk warning stay within its
cap, and an order is accepted whenever the recorded purchases leave room for it: what was
rejected before does not count. -/
theorem riskWarning_daily_buy_capped (start : Tracker) (fresh : start.trades = []) (uncounted : start.dailyRWBuy = ∅)
    (ops : List Op) : (DayOrdered ops → ∀ (symbol : String) (moment : Time), 0 < riskWarningDailyBuyCap symbol →
      Guarded step (WarnedOn symbol moment.truncateDay) start ops →
      longQuantity (run step start ops).trades symbol moment.truncateDay ≤ riskWarningDailyBuyCap symbol ∧
        boughtQuantity (run step start ops).trades symbol moment.truncateDay ≤ riskWarningDailyBuyCap symbol) ∧
    (∀ (symbol : String) (quantity price : ℚ) (timestamp : Time) (opts : Option OrderExecutionOpts) (executed : ℚ),
      (run step start ops).executionPrice symbol .long price (opts.getD ⟨.market,price,none⟩) = .ok executed →
      (run step start ops).Fits symbol
        ((run step start ops).filledQty quantity (opts.getD ⟨.market,price,none⟩).dayBar) timestamp →
      executedCost ((run step start ops).executedDraft symbol .long quantity executed timestamp
        (opts.getD ⟨.market,price,none⟩)) ≤ (run step start ops).cash →
      ((run step start ops).executeTrade symbol .long quantity price timestamp opts).1.isOk) ∧
    ∀ trade : Trade, trade.direction = .long → 0 < trade.quantity →
      (run step start ops).Fits trade.symbol trade.quantity trade.timestamp →
      appliedCost trade ≤ (run step start ops).cash → ((run step start ops).applyTrade trade).1.isOk := by
  have counted := countsPurchases_run uncounted ops
  refine ⟨?_,?_,?_⟩
  · intro ordered symbol moment limited warned
    have within := withinCap_run fresh uncounted limited ops ordered warned
    exact ⟨(longQuantity_le_boughtQuantity _ _ _).trans within.capped,within.capped⟩
  · intro symbol quantity price timestamp opts executed priced fits affordable
    exact executeTrade_accepted counted priced fits affordable
  · intro trade long positive fits affordable
    exact applyTrade_accepted counted long positive fits affordable

def namedTracker : Tracker :=
  { newTracker 10000000 0 0 defaultTradingConfig with stockNames := (∅ : Book String String).insert "600000.SH" "ST A" }

def cappedDay : List Op :=
  [.executeTrade "600000.SH" .long 300000 1 (Time.date 2024 1 2) none,
    .executeTrade "600000.SH" .long 300000 1 (Time.date 2024 1 2) none,
    .executeTrade "600000.SH" .long 200000 1 (Time.date 2024 1 2) none]

theorem cappedDay_within :
    boughtQuantity (run step namedTracker cappedDay).trades "600000.SH" (Time.date 2024 1 2).truncateDay ≤
        riskWarningDailyBuyCap "600000.SH" ∧
      ((run step namedTracker (cappedDay.take 2)).executeTrade "600000.SH" .long 200000 1 (Time.date 2024 1 2)
        none).1.isOk := by
  constructor
  · refine ((riskWarning_daily_buy_capped namedTracker rfl rfl cappedDay).1 ?_ "600000.SH" (Time.date 2024 1 2) ?_ ?_).2
    · unfold DayOrdered
      decide +kernel
    · decide +kernel
    · refine ⟨?_,?_,?_,trivial⟩ <;> exact fun _ _ _ => by unfold Warned; decide +kernel
  · refine (riskWarning_daily_buy_capped namedTracker rfl rfl (cappedDay.take 2)).2.1 "600000.SH" 200000 1
      (Time.date 2024 1 2) none 1 (by decide +kernel) ?_ (by decide +kernel)
    intro _ _
    decide +kernel

end QuantTrading.Tracker
