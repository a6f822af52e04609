import QuantTrading.Engine.MarketRules

/-! The end of a run. Every share a position holds is backed by shares bought today or
before, a split credits shares only after the day's trading, and every entry carries a
positive mark; so once the day has been rolled over the final close can sell everything,
at the marks when it is handed no prices at all.
-/
namespace QuantTrading
open Library List

structure Position.Backed (phase : Phase) (date : Time) (pos : Position) : Prop where
  today : 0 ≤ pos.quantityToday
  yesterday : 0 ≤ pos.quantityYesterday
  covered : pos.quantity ≤ pos.quantityToday + pos.quantityYesterday
  -- A split credits shares on an older buy date; by then the trading of the day is over.
  bought : phase ≠ .actions → pos.quantityToday = 0 ∨ pos.buyDate.SameDay date

namespace Position

variable {phase : Phase} {date : Time} {pos : Position}

theorem Backed.mark (backed : pos.Backed phase date) (price : ℚ) : (pos.mark price).Backed phase date :=
  ⟨backed.today,backed.yesterday,backed.covered,backed.bought⟩

theorem Backed.split (backed : pos.Backed .actions date) (held : 0 < pos.quantity) (ratio : ℚ) :
    (pos.split ratio).Backed .actions date := by
  unfold Position.split
  split
  next credited =>
    have credit : 0 < pos.quantity * ratio := mul_pos held credited
    exact ⟨by dsimp only; linarith [backed.today],backed.yesterday,by dsimp only; linarith [backed.covered],fun trading => absurd rfl trading⟩
  · exact backed

end Position

namespace Tracker

/-- What the final close needs of a tracker: entries backed by their shares and marked. -/
structure Closable (phase : Phase) (date : Time) (t : Tracker) : Prop where
  liquid : 0 < t.liquidityFactor
  backed : t.positions.All fun _ pos => pos.Backed phase date
  marked : t.positions.All fun _ pos => 0 < pos.currentPrice

variable {phase : Phase} {date : Time} {t t' : Tracker}

variable {pos : Position}

variable {trade : Trade}

theorem Written.backed (written : t.Written trade pos) (closable : t.Closable phase date) (trading : phase ≠ .actions)
    (dated : trade.timestamp = date) (ordered : 0 < trade.quantity) : pos.Backed phase date := by
  subst dated
  cases written with
  | opened _ => exact ⟨ordered.le,le_rfl,by simp [Position.opened],fun _ => .inr rfl⟩
  | @added before _ held _ =>
    have prior := closable.backed _ _ held
    -- Shares bought on an earlier day have been rolled over, so the reset loses nothing.
    have kept : (if before.buyDate.truncateDay ≠ trade.timestamp.truncateDay then 0 else before.quantityToday) =
        before.quantityToday := by
      split
      next other =>
        rcases prior.bought trading with none_ | same
        · exact none_.symm
        · exact absurd same other
      · rfl
    rw [kept]
    exact ⟨add_nonneg prior.today ordered.le,prior.yesterday,by dsimp only; linarith [prior.covered],fun _ => .inr rfl⟩
  | shorted _ => exact ⟨le_rfl,le_rfl,by simp [Position.opened,ordered.le],fun _ => .inl rfl⟩
  | reduced _ held _ =>
    have prior := closable.backed _ _ held
    exact ⟨prior.today,prior.yesterday,by dsimp only; linarith [prior.covered],prior.bought⟩
  | sold held _ available _ =>
    have prior := closable.backed _ _ held
    exact ⟨prior.today,sub_nonneg.mpr available,by simp only [soldFrom]; linarith [prior.covered],prior.bought⟩
  | bought held _ owed _ =>
    have prior := closable.backed _ _ held
    exact ⟨prior.today,prior.yesterday,by simp only [boughtBack]; linarith [prior.today,prior.yesterday],prior.bought⟩
  | kept _ held => exact closable.backed _ _ held

theorem Marked.closable (marked : t.Marked trade t') (closable : t.Closable phase date) (trading : phase ≠ .actions)
    (dated : trade.timestamp = date) (ordered : 0 < trade.quantity) : t'.Closable phase date := by
  obtain ⟨request,fees,price,positive,posted⟩ := marked
  refine ⟨posted.config.liquidityFactor ▸ closable.liquid,?_,?_⟩
  · exact posted.all closable.backed (fun _ backed => backed.mark price)
      fun _ written => written.backed closable trading dated ordered
  · obtain ⟨entry,_,positions⟩ := posted.entry
    rw [positions]
    refine closable.marked.put _ _ fun pos written => ?_
    obtain ⟨before,found,rfl⟩ := map_eq_some_iff.mp written
    exact positive

theorem Revalued.closable (revalued : t.Revalued t') (closable : t.Closable phase date) : t'.Closable phase date := by
  refine ⟨revalued.liquidityFactor ▸ closable.liquid,?_,?_⟩
  all_goals
    intro symbol pos stored
    rcases revalued.entries symbol with same | ⟨before,price,positive,held,restated⟩
  · exact closable.backed symbol pos (same ▸ stored)
  · rw [restated] at stored
    cases stored
    exact (closable.backed symbol before held).mark price
  · exact closable.marked symbol pos (same ▸ stored)
  · rw [restated] at stored
    cases stored
    exact positive

theorem Closable.processSplit (closable : t.Closable .actions date) (symbol : String) (split : Split) :
    (t.processSplit symbol split).Closable .actions date := by
  have liquid : 0 < (t.processSplit symbol split).liquidityFactor :=
    (Engine.processSplit_kept t symbol split).2.1 ▸ closable.liquid
  rcases processSplit_positions t symbol split with same | ⟨pos,held,positive,credited⟩
  · exact ⟨liquid,same ▸ closable.backed,same ▸ closable.marked⟩
  · refine ⟨liquid,?_,?_⟩
    · rw [credited]
      refine closable.backed.put _ _ fun after written => ?_
      cases written
      exact (closable.backed symbol pos held).split positive _
    · rw [credited]
      refine closable.marked.put _ _ fun after written => ?_
      cases written
      have kept : (pos.split split.stkDivRatio).currentPrice = pos.currentPrice := by
        unfold Position.split
        split <;> rfl
      rw [kept]
      exact closable.marked symbol pos held

theorem Closable.next (closable : t.Closable phase date) (trading : phase ≠ .actions) (later : Phase) :
    t.Closable later date := by
  refine ⟨closable.liquid,fun symbol pos held => ?_,closable.marked⟩
  have backed := closable.backed symbol pos held
  exact ⟨backed.today,backed.yesterday,backed.covered,fun _ => backed.bought trading⟩

structure Rolled (t : Tracker) : Prop where
  liquid : 0 < t.liquidityFactor
  settled : t.positions.All fun _ pos => pos.quantityToday = 0 ∧ 0 ≤ pos.quantityYesterday ∧ pos.quantity ≤ pos.quantityYesterday
  marked : t.positions.All fun _ pos => 0 < pos.currentPrice

theorem Rolled.closable (rolled : t.Rolled) (phase : Phase) (date : Time) : t.Closable phase date := by
  refine ⟨rolled.liquid,?_,rolled.marked⟩
  intro symbol pos held
  obtain ⟨today,yesterday,covered⟩ := rolled.settled symbol pos held
  exact ⟨today.ge,yesterday,by rw [today,zero_add]; exact covered,fun _ => .inl today⟩

theorem Closable.advanceDay (closable : t.Closable phase date) : t.advanceDay.Rolled := by
  refine ⟨(Engine.advanceDay_kept t).2.1 ▸ closable.liquid,?_,?_⟩
  · rw [advanceDay_positions]
    refine closable.backed.map _ fun symbol pos backed => ?_
    unfold Position.rollOver
    split
    · exact ⟨rfl,add_nonneg backed.yesterday backed.today,by dsimp only; linarith [backed.covered]⟩
    rename_i none_
    have today : pos.quantityToday = 0 := le_antisymm (not_lt.mp none_) backed.today
    exact ⟨today,backed.yesterday,by linarith [backed.covered]⟩
  · rw [advanceDay_positions]
    refine closable.marked.map _ fun symbol pos marked => ?_
    unfold Position.rollOver
    split <;> exact marked

variable {symbol : String}

theorem executeTrade_settled (price : ℚ) (date : Time)
    (held : t.positions[symbol]? = some pos) (nonzero : pos.quantity ≠ 0) (settled : pos.quantity ≤ pos.quantityYesterday) :
    ∃ trade t', t.executeTrade symbol .close |pos.quantity| price date none = (.ok trade,t') := by
  let draft := t.draftTrade symbol .close |pos.quantity| |pos.quantity| (t.slippagePrice symbol .close price) date
  have found : t.positions[draft.symbol]? = some pos := held
  have owned (long : 0 < pos.quantity) : |pos.quantity| ≤ pos.quantityYesterday := (abs_of_pos long).trans_le settled
  obtain ⟨trade,t',closed,-⟩ := bookClose_full found nonzero (abs_pos.mpr nonzero) le_rfl owned true
  have closed : t.bookClose draft |pos.quantity| true = .ok (trade,t') := closed
  have booked : t.bookExecuted draft |pos.quantity| = (.ok trade,t') := by
    have side : draft.direction = .close := rfl
    unfold bookExecuted
    simp only [side,closed]
  unfold executeTrade
  simp only [getD_none,executionPrice,filledQty,draft] at booked ⊢
  rw [booked]
  exact ⟨_,_,rfl⟩

theorem unlessFlat_zero (gone : pos.quantity = 0) : pos.unlessFlat = none := by
  simp [Position.unlessFlat,gone,isFlat_zero]

theorem closePosition_settled (price : ℚ) (date : Time)
    (held : t.positions[symbol]? = some pos) (nonzero : pos.quantity ≠ 0) (settled : pos.quantity ≤ pos.quantityYesterday) :
    ∃ trade t', t.closePosition symbol price date = (.ok trade,t') ∧ trade.symbol = symbol ∧
      trade.quantity = |pos.quantity| ∧ t'.positions = t.positions.put symbol none := by
  obtain ⟨trade,t',accepted⟩ := executeTrade_settled price date held nonzero settled
  have executed := executeTrade_ok accepted
  obtain ⟨entry,booked,positions⟩ := executed.posted.entry
  have result : trade.quantity = |pos.quantity| ∧ entry = none := by
    generalize t'.cash = cash at booked
    cases booked with
    | long side _ | short side | hold side => simp [executed.direction] at side
    | closeLong before _ found positive _ sold =>
      rw [executed.symbol,held] at found
      cases found
      have whole : trade.quantity = |pos.quantity| := by
        rw [sold,abs_of_pos positive,min_self,min_eq_right settled]
      exact ⟨whole,unlessFlat_zero (by simp only [soldFrom,whole,abs_of_pos positive,sub_self])⟩
    | closeShort before _ found negative bought =>
      rw [executed.symbol,held] at found
      cases found
      have whole : trade.quantity = |pos.quantity| := by
        rw [bought,abs_of_neg negative,min_self]
      exact ⟨whole,unlessFlat_zero (by simp only [boughtBack,whole,abs_of_neg negative,add_neg_cancel])⟩
  refine ⟨trade,t',?_,executed.symbol,result.1,?_⟩
  · unfold closePosition
    rw [held]
    exact accepted
  · rw [positions,executed.symbol,result.2]
    rfl

end Tracker

theorem Phase.Books.trading {phase : Phase} {cause : Cause} (books : phase.Books cause) : phase ≠ .actions := by
  rintro rfl
  exact books

namespace Engine

variable {e : Engine} {params : BacktestParams} {day : DayData} {meets : Tracker → Trade → Prop}

variable {phase : Phase}

theorem Responds.closable {t : Tracker} {cause : Cause} {result : Option Trade × Tracker}
    (responds : Responds e day t cause result) (closable : t.Closable phase day.date) (trading : phase ≠ .actions) :
    result.2.Closable phase day.date := by
  rcases result with ⟨_ | trade,t'⟩
  · exact (Tracker.SameAccount.revalued responds).closable closable
  · exact responds.2.closable closable trading responds.1.timestamp (responds.1.quantity_pos closable.liquid)

theorem book_tracker (l : Ledger) (cause : Cause) (result : Option Trade × Tracker) :
    (l.book cause result).tracker = result.2 := by
  rcases result with ⟨_ | trade,t⟩ <;> rfl

theorem Transition.closable {d d' : Desk} (transition : Transition e day meets phase d d')
    (closable : d.ledger.tracker.Closable phase day.date) : d'.ledger.tracker.Closable phase day.date := by
  cases transition with
  | restated kept => exact kept.closable closable
  | booked own origin marked =>
    exact marked.closable closable own.trading origin.timestamp (origin.quantity_pos closable.liquid)
  | filled now _ installed today filled =>
    have responds := applyTrade_responds (t := d.ledger.tracker) filled.positive
      fun trade t' applied => .child installed today filled applied
    rw [book_tracker]
    exact responds.closable closable (by simp [now])
  | split split now =>
    subst now
    exact closable.processSplit split.symbol split
  | _ => exact closable

theorem Transits.closable {d d' : Desk} (transits : Transits e day meets phase d d')
    (closable : d.ledger.tracker.Closable phase day.date) : d'.ledger.tracker.Closable phase day.date := by
  induction transits with
  | refl => exact closable
  | tail _ step ih => exact step.closable ih

theorem Day.rolled {date : Time} {d d' : Desk} (whole : Day e params meets date d d') (rolled : d.ledger.tracker.Rolled) :
    d'.ledger.tracker.Rolled := by
  cases whole with
  | @mk day _ _ _ _ _ _ _ delisting signals children stopLosses actions _ =>
    have opened := delisting.closable (rolled.closable _ day.date)
    have signalled := signals.closable (opened.next (by simp) _)
    have worked := children.closable (signalled.next (by simp) _)
    have stopped := stopLosses.closable (worked.next (by simp) _)
    exact (actions.closable (stopped.next (by simp) _)).advanceDay

theorem days_rolled (e : Engine) (params : BacktestParams) (days : List Time) :
    (days.foldl (e.runDay params) (e.initialState params)).tracker.Rolled := by
  have initial : (e.initialState params).tracker.Rolled :=
    ⟨by norm_num [initialState,BacktestState.tracker,Tracker.newTracker],Book.all_empty _,Book.all_empty _⟩
  have preserved (s : BacktestState) (date : Time) (rolled : s.tracker.Rolled) : (e.runDay params s date).tracker.Rolled :=
    (runDay_day s date (DayMeets.trivial e params s date)).rolled rolled
  exact run_always preserved initial days

def ClosedBy (symbol : String) (pos : Position) (booking : Booking) : Prop :=
  booking.cause = .forceClose ∧ booking.trade.symbol = symbol ∧ booking.trade.quantity = |pos.quantity|

variable {s : BacktestState} {pos : Position} {record : DayRecord} {past : List DayRecord}

theorem forceCloseOne_closes {symbol : String} (date : Time) (held : s.tracker.positions[symbol]? = some pos) (nonzero : pos.quantity ≠ 0)
    (settled : pos.quantity ≤ pos.quantityYesterday) (marked : 0 < pos.currentPrice) (today : s.ledger.days = record :: past) :
    ∃ booking, ClosedBy symbol pos booking ∧
      (forceCloseOne .forceClose ∅ date s symbol pos).2.tracker.positions = s.tracker.positions.put symbol none ∧
      (forceCloseOne .forceClose ∅ date s symbol pos).2.ledger.days = record.add (.booked booking) :: past := by
  obtain ⟨trade,t,closed,same,whole,positions⟩ := Tracker.closePosition_settled pos.currentPrice date held nonzero settled
  have priced : closingPrice ∅ symbol pos = some pos.currentPrice := by simp [closingPrice,positive,marked]
  have answer : answered (s.tracker.closePosition symbol pos.currentPrice date) = (some trade,t) := by rw [closed]; rfl
  refine ⟨⟨.forceClose,s.tracker,trade,t⟩,⟨rfl,same,whole⟩,?_⟩
  simp only [forceCloseOne,priced,BacktestState.book,answer]
  exact ⟨positions,by simp [Ledger.book,Ledger.note,today,BacktestState.tracker]⟩

theorem forceCloses_close (date : Time) (entries : List (String × Position)) (distinct : (entries.map (·.1)).Nodup)
    (s : BacktestState) (record : DayRecord) (past : List DayRecord) (today : s.ledger.days = record :: past)
    (stored : ∀ entry ∈ entries, s.tracker.positions[entry.1]? = some entry.2 ∧ entry.2.quantity ≠ 0 ∧
      entry.2.quantity ≤ entry.2.quantityYesterday ∧ 0 < entry.2.currentPrice) :
    ∃ record', (entries.foldl (fun s entry => (forceCloseOne .forceClose ∅ date s entry.1 entry.2).2) s).ledger.days =
        record' :: past ∧ record.bookings ⊆ record'.bookings ∧
      (∀ entry ∈ entries, ∃ booking ∈ record'.bookings, ClosedBy entry.1 entry.2 booking) ∧ ∀ symbol : String,
        (entries.foldl (fun s entry => (forceCloseOne .forceClose ∅ date s entry.1 entry.2).2) s).tracker.positions[symbol]? =
          if symbol ∈ entries.map (·.1) then none else s.tracker.positions[symbol]? := by
  induction entries generalizing s record with
  | nil => exact ⟨record,today,Subset.refl _,by simp,by simp⟩
  | cons entry rest ih =>
    obtain ⟨held,nonzero,settled,marked⟩ := stored entry (by simp)
    obtain ⟨booking,closed,positions,days⟩ := forceCloseOne_closes date held nonzero settled marked today
    rw [map_cons,nodup_cons] at distinct
    have others : ∀ symbol : String, symbol ≠ entry.1 →
        (forceCloseOne .forceClose ∅ date s entry.1 entry.2).2.tracker.positions[symbol]? = s.tracker.positions[symbol]? := by
      intro symbol other
      rw [positions,Book.get_put_of_ne _ _ other]
    have later : ∀ other ∈ rest,
        (forceCloseOne .forceClose ∅ date s entry.1 entry.2).2.tracker.positions[other.1]? = some other.2 ∧
        other.2.quantity ≠ 0 ∧ other.2.quantity ≤ other.2.quantityYesterday ∧ 0 < other.2.currentPrice := by
      intro other member
      rw [others other.1 (fun same => distinct.1 (same ▸ mem_map_of_mem member))]
      exact stored other (by simp [member])
    obtain ⟨record',today',kept,closes,left⟩ := ih distinct.2 _ _ days later
    rw [DayRecord.bookings_booked] at kept
    refine ⟨record',today',fun b member => kept (mem_append_left _ member),?_,?_⟩
    · intro other member
      rcases mem_cons.mp member with rfl | member
      · exact ⟨booking,kept (by simp),closed⟩
      · exact closes other member
    · intro symbol
      rw [foldl_cons,left symbol]
      by_cases same : symbol = entry.1
      · subst same
        simp [distinct.1,positions]
      · rw [others symbol same]
        simp only [map_cons,mem_cons,same,false_or]

theorem isHeld_ne (held : isHeld pos = true) : pos.quantity ≠ 0 := by
  intro none_
  norm_num [isHeld,none_] at held

/-- What the final close leaves of a tracker that has been rolled over. -/
structure Flattened (looped final : BacktestState) : Prop where
  closed : ∀ (symbol : String) (pos : Position), looped.tracker.positions[symbol]? = some pos → isHeld pos = true →
    ∃ record ∈ final.ledger.days.head?, ∃ booking ∈ record.bookings, ClosedBy symbol pos booking
  left : ∀ symbol : String, final.tracker.positions[symbol]? =
    (looped.tracker.positions[symbol]?).filter fun pos => ¬ isHeld pos

theorem forceCloseAllPositions_flattened (rolled : s.tracker.Rolled) (date : Time) (today : s.ledger.days = record :: past) :
    Flattened s (forceCloseAllPositions ∅ date s) := by
  let entries := s.tracker.positions.toList.filter fun entry => isHeld entry.2
  have listed : ∀ (symbol : String) (pos : Position), (symbol,pos) ∈ entries ↔
      s.tracker.positions[symbol]? = some pos ∧ isHeld pos = true := by
    intro symbol pos
    rw [mem_filter,mem_toList_iff_getElem?_eq_some]
  have distinct : (entries.map (·.1)).Nodup := (Book.nodup_keys s.tracker.positions).sublist (filter_sublist.map _)
  have stored : ∀ entry ∈ entries, s.tracker.positions[entry.1]? = some entry.2 ∧ entry.2.quantity ≠ 0 ∧
      entry.2.quantity ≤ entry.2.quantityYesterday ∧ 0 < entry.2.currentPrice := by
    intro entry member
    obtain ⟨found,held⟩ := (listed entry.1 entry.2).mp member
    exact ⟨found,isHeld_ne held,(rolled.settled _ _ found).2.2,rolled.marked _ _ found⟩
  obtain ⟨record',days,_,closes,left⟩ := forceCloses_close date entries distinct s record past today stored
  refine ⟨?_,?_⟩
  · intro symbol pos found held
    obtain ⟨booking,member,closed⟩ := closes (symbol,pos) ((listed symbol pos).mpr ⟨found,held⟩)
    exact ⟨record',by rw [forceCloseAllPositions,days]; rfl,booking,member,closed⟩
  · intro symbol
    rw [forceCloseAllPositions,left symbol]
    cases found : s.tracker.positions[symbol]? with
    | none => simp
    | some pos =>
      by_cases held : isHeld pos = true
      · have member : symbol ∈ entries.map (·.1) := mem_map_of_mem ((listed symbol pos).mpr ⟨found,held⟩)
        simp [member,Option.filter,held]
      · have absent : symbol ∉ entries.map (·.1) := by
          intro member
          obtain ⟨⟨_,other⟩,kept,rfl⟩ := mem_map.mp member
          obtain ⟨same,open_⟩ := (listed _ other).mp kept
          rw [found] at same
          cases same
          exact held open_
        simp [absent,Option.filter,held]

end Engine

def DayEvent.Whole : DayEvent → Prop
  | .booked booking => Tracker.Whole booking.trade.quantity
  | .split symbol before after => Tracker.Whole (after.held symbol - before.held symbol)

theorem Tracker.whole_iff (q : ℚ) : q.den = 1 ↔ Tracker.Whole q := by
  refine ⟨fun one => ⟨q.num,((Rat.den_eq_one_iff q).mp one).symm⟩,?_⟩
  rintro ⟨n,rfl⟩
  exact Rat.den_intCast n

instance : DecidablePred Tracker.Whole := fun q => decidable_of_iff _ (Tracker.whole_iff q)

instance : DecidablePred DayEvent.Whole
  | .booked booking => inferInstanceAs (Decidable (Tracker.Whole booking.trade.quantity))
  | .split symbol before after => inferInstanceAs (Decidable (Tracker.Whole (after.held symbol - before.held symbol)))

namespace Tracker

def WholeHoldings (t : Tracker) : Prop := t.positions.All fun _ pos => Whole pos.quantity ∧ pos.quantity ≠ 0

variable {t t' : Tracker} {trade : Trade}

theorem WholeHoldings.quiet (whole : t.WholeHoldings) (quiet : t.Quiet t') : t'.WholeHoldings := by
  intro symbol pos stored
  have same := quiet.lots symbol
  simp only [lot,stored,map_some] at same
  obtain ⟨before,held,lots⟩ := map_eq_some_iff.mp same.symm
  have quantity : before.quantity = pos.quantity := congrArg Lot.quantity lots
  exact quantity ▸ whole symbol before held

theorem Written.wholeHolding {pos : Position} (written : t.Written trade pos) (holdings : t.WholeHoldings)
    (whole : Whole trade.quantity) (ordered : 0 < trade.quantity) : Whole pos.quantity ∧ pos.quantity ≠ 0 := by
  refine ⟨?_,written.nonzero ordered fun symbol pos held => (holdings symbol pos held).2⟩
  cases written with
  | opened => exact whole
  | shorted => exact whole.neg
  | added _ held _ | bought held _ _ _ => exact (holdings _ _ held).1.add whole
  | reduced _ held _ | sold held _ _ _ => exact (holdings _ _ held).1.sub whole
  | kept _ held => exact (holdings _ _ held).1

theorem Posted.wholeHoldings {request fees price : ℚ} (posted : t.Posted request fees price trade t')
    (holdings : t.WholeHoldings) (whole : Whole trade.quantity) (ordered : 0 < trade.quantity) : t'.WholeHoldings :=
  posted.all holdings (fun _ left => left) fun _ written => written.wholeHolding holdings whole ordered

theorem WholeHoldings.processSplit (holdings : t.WholeHoldings) {symbol : String} {split : Split}
    (credit : Whole ((t.processSplit symbol split).held symbol - t.held symbol)) :
    (t.processSplit symbol split).WholeHoldings := by
  rcases processSplit_positions t symbol split with same | ⟨pos,held,positive,credited⟩
  · unfold WholeHoldings
    rw [same]
    exact holdings
  · have before : t.held symbol = pos.quantity := by simp [Tracker.held,held]
    have after : (t.processSplit symbol split).held symbol = (pos.split split.stkDivRatio).quantity := by
      simp [Tracker.held,credited]
    rw [before,after] at credit
    unfold WholeHoldings
    rw [credited]
    refine holdings.put _ _ fun left written => ?_
    cases written
    refine ⟨?_,?_⟩
    · have sum := (holdings symbol pos held).1.add credit
      rwa [add_sub_cancel] at sum
    · unfold Position.split
      split
      next more =>
        exact (add_pos positive (mul_pos positive more)).ne'
      · exact positive.ne'

theorem WholeHoldings.advanceDay (holdings : t.WholeHoldings) : t.advanceDay.WholeHoldings := by
  unfold WholeHoldings
  rw [advanceDay_positions]
  refine holdings.map _ fun symbol pos whole => ?_
  unfold Position.rollOver
  split <;> exact whole

end Tracker

namespace Engine

variable {e : Engine} {params : BacktestParams}

theorem Step.wholeHoldings {l l' : Ledger} (traced : TracedLedger e params l) (step : Step e params l l')
    (whole : EveryEvent DayEvent.Whole l') (holdings : l.tracker.WholeHoldings) : l'.tracker.WholeHoldings := by
  cases step with
  | quiet kept => exact holdings.quiet kept
  | @booked record past cause trade t today _ origin =>
    obtain ⟨request,fees,price,posted⟩ := origin.posted
    have noted : DayEvent.Whole (.booked ⟨cause,l.tracker,trade,t⟩) :=
      whole (record.add (.booked ⟨cause,l.tracker,trade,t⟩)) (by simp [Ledger.book,Ledger.note,today]) _
        (by simp [DayRecord.add])
    exact posted.wholeHoldings holdings noted (origin.quantity_pos traced.liquid)
  | @split record past split today _ =>
    have noted : DayEvent.Whole (.split split.symbol l.tracker (l.tracker.processSplit split.symbol split)) :=
      whole (record.add (.split split.symbol l.tracker (l.tracker.processSplit split.symbol split)))
        (by simp [Ledger.split,Ledger.note,today]) _ (by simp [DayRecord.add])
    exact holdings.processSplit noted
  | started => exact holdings
  | advanced => exact holdings.advanceDay

theorem recordDailyValue_unpriced (t : Tracker) (date : Time) :
    (t.recordDailyValue date ∅).1.totalValue = t.cash ∧ (t.recordDailyValue date ∅).2.positions = t.positions := by
  refine ⟨?_,?_⟩
  · simp only [Tracker.recordDailyValue]
    rw [Book.foldl_unchanged _ _ _ (by simp),add_zero]
  · apply Book.ext_getElem?
    intro symbol
    simp [Tracker.recordDailyValue]

def loopEnd (e : Engine) (params : BacktestParams) : BacktestState :=
  e.tradingDays.foldl (e.runDay params) (e.initialState params)

structure EndsFlat (looped final : BacktestState) : Prop extends Flattened looped final where
  value : ∃ value, final.tracker.portfolioValues.getLast? = some value ∧ value.totalValue = final.tracker.cash

theorem Flattened.valued {looped closed : BacktestState} (flattened : Flattened looped closed) (date : Time) :
    EndsFlat looped (closed.setTracker (closed.tracker.recordDailyValue date ∅).2) := by
  obtain ⟨value,kept⟩ := recordDailyValue_unpriced closed.tracker date
  refine ⟨⟨flattened.closed,fun symbol => ?_⟩,_,getLast?_concat,value⟩
  rw [← flattened.left symbol,← kept]
  rfl

theorem isHeld_of_whole {pos : Position} (whole : Tracker.Whole pos.quantity) (nonzero : pos.quantity ≠ 0) :
    isHeld pos = true := by
  obtain ⟨n,same⟩ := whole
  have some_ : n ≠ 0 := by
    rintro rfl
    exact nonzero (by rw [same,Int.cast_zero])
  have one : (1 : ℚ) ≤ |(n : ℚ)| := by exact_mod_cast Int.one_le_abs some_
  have above : |pos.quantity| > 1/100000000 := by
    rw [same]
    linarith
  simpa [isHeld] using above

theorem Flattened.empty {looped final : BacktestState} (flattened : Flattened looped final)
    (holdings : final.tracker.WholeHoldings) : final.tracker.positions = ∅ := by
  apply Book.ext_getElem?
  intro symbol
  cases stored : final.tracker.positions[symbol]? with
  | none => rfl
  | some pos =>
    obtain ⟨whole,nonzero⟩ := holdings symbol pos stored
    have kept := flattened.left symbol
    rw [stored] at kept
    obtain ⟨_,unheld⟩ := filter_eq_some_iff.mp kept.symm
    simp [isHeld_of_whole whole nonzero] at unheld

/-- Every completed run closes each position it still holds, whole and at a price, and values
the rest at its cash; of whole shares nothing is left. -/
theorem run_endsFlat {s : BacktestState} (ran : e.runBacktest params = some s) :
    EndsFlat (e.loopEnd params) s ∧ (EveryEvent DayEvent.Whole s.ledger → s.tracker.positions = ∅) := by
  have steps := runBacktest_steps ran
  have rolled : (e.loopEnd params).tracker.Rolled := days_rolled e params e.tradingDays
  obtain ⟨last,member,rfl⟩ := map_eq_some_iff.mp ran
  obtain ⟨_,final⟩ := days_steps e params e.tradingDays (e.initialState params) (by simp [Rested,initialState])
  obtain ⟨_,_,record,past,today,_,_⟩ := final last member
  have ends := (forceCloseAllPositions_flattened rolled last today).valued last
  refine ⟨ends,fun whole => ends.empty ?_⟩
  exact (Steps.preserves (P := fun l => l.tracker.WholeHoldings) DayEvent.Whole
    (fun _ _ traced step noted => step.wholeHoldings traced noted) (Book.all_empty _) steps whole).2

/-- The stock is bought on the last day, so all its shares are today's when the loop ends. -/
def boughtLastDay : Engine :=
  oneStockEngine (twoDayHistory 10 10) [dayOne,dayTwo]
    (fun date => if date = dayTwo then [marketSignal .long] else []) 100 none

theorem boughtLastDay_endsFlat : ∃ s, boughtLastDay.runBacktest oneStockParams = some s ∧
    (boughtLastDay.loopEnd oneStockParams).tracker.held "600000.SH" = 100 ∧
    EndsFlat (boughtLastDay.loopEnd oneStockParams) s ∧ s.tracker.positions = ∅ := by
  obtain ⟨s,ran,whole⟩ : ∃ s, boughtLastDay.runBacktest oneStockParams = some s ∧ EveryEvent DayEvent.Whole s.ledger := by
    decide +kernel
  have held : (boughtLastDay.loopEnd oneStockParams).tracker.held "600000.SH" = 100 := by decide +kernel
  obtain ⟨ends,empty⟩ := run_endsFlat ran
  exact ⟨s,ran,held,ends,empty whole⟩

end Engine
end QuantTrading
