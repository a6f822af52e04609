import QuantTrading.Tracker.Operations

/-! The stored average cost over histories of whole-share trades. A buy forms the average with the
signed quantity it meets, and a short sale leaves the average alone. So the average is one of
the open side's prices unless a buy meets a short position or a short sale turns a long one.
-/
namespace QuantTrading.Tracker
open Library List

variable {t t' : Tracker} {symbol : String}

def Between (prices : List ℚ) (value : ℚ) : Prop := ∃ low ∈ prices, ∃ high ∈ prices, low ≤ value ∧ value ≤ high

namespace Between
variable {prices : List ℚ} {price value : ℚ}

theorem singleton_iff : Between [price] value ↔ value = price := by
  simp only [Between,mem_singleton,exists_eq_left]
  exact ⟨fun bounds => le_antisymm bounds.2 bounds.1,fun same => ⟨same.ge,same.le⟩⟩

theorem cons (between : Between prices value) (price : ℚ) : Between (price :: prices) value := by
  obtain ⟨low,listed,high,found,least,most⟩ := between
  exact ⟨low,mem_cons_of_mem _ listed,high,mem_cons_of_mem _ found,least,most⟩

theorem weighted {held bought : ℚ} (between : Between prices value) (holds : 0 < held) (buys : 0 < bought) :
    Between (price :: prices) ((value * held + price * bought) / (held + bought)) := by
  obtain ⟨low,listed,high,found,least,most⟩ := between
  have total : 0 < held + bought := add_pos holds buys
  -- The new average lies between the old one and the price, whichever way they are ordered.
  rcases le_total value price with cheaper | dearer
  · refine ⟨low,mem_cons_of_mem _ listed,price,mem_cons_self,?_,?_⟩
    · rw [le_div_iff₀ total]
      nlinarith
    · rw [div_le_iff₀ total]
      nlinarith
  · refine ⟨price,mem_cons_self,high,mem_cons_of_mem _ found,?_,?_⟩
    · rw [le_div_iff₀ total]
      nlinarith
    · rw [div_le_iff₀ total]
      nlinarith

end Between

def Op.booked (t : Tracker) : Op → Option Trade
  | .executeTrade symbol direction quantity price timestamp opts =>
    (t.executeTrade symbol direction quantity price timestamp opts).1.toOption
  | .applyTrade trade => (t.applyTrade trade).1.toOption
  | _ => none

/-- The tracker with the execution prices of a symbol since its position was flat or changed sign. -/
structure Priced where
  tracker : Tracker
  prices : List ℚ

def openPrices (before after price : ℚ) (prices : List ℚ) : List ℚ :=
  if after = 0 then [] else if 0 < before * after then price :: prices else [price]

namespace Priced

def step (symbol : String) (s : Priced) (op : Op) : Priced where
  tracker := s.tracker.step op
  prices :=
    match op.booked s.tracker with
    | none => s.prices
    | some trade =>
      if trade.symbol = symbol then
        openPrices (s.tracker.held symbol) ((s.tracker.step op).held symbol) trade.price s.prices
      else s.prices

def Average (symbol : String) (s : Priced) : Prop :=
  ∀ pos, s.tracker.positions[symbol]? = some pos → Between s.prices pos.avgCost

end Priced

/-- What a booked trade must find for the average it leaves to be one of the open side's prices. -/
def KeepsAverage (prices : List ℚ) (pos : Position) (trade : Trade) : Prop :=
  match trade.direction with
  | .long => pos.quantity < 0 →
      (0 < pos.quantity + trade.quantity → trade.price = pos.avgCost) ∧
      (pos.quantity + trade.quantity < 0 → Between (trade.price :: prices)
        ((pos.avgCost * pos.quantity + trade.price * trade.quantity) / (pos.quantity + trade.quantity)))
  | .short => 0 < pos.quantity → pos.quantity - trade.quantity < 0 → trade.price = pos.avgCost
  | .close | .hold => True

section Trade
variable {request fees cash : ℚ} {trade : Trade} {entry : Option Position} {prices : List ℚ}

def EntryAverage (prices : List ℚ) (entry : Option Position) : Prop := ∀ pos, entry = some pos → Between prices pos.avgCost

variable {price : ℚ} {pos : Position}

theorem openPrices_same {before after : ℚ} (same : 0 < before * after) :
    openPrices before after price prices = price :: prices := by
  have nonzero : after ≠ 0 := by
    rintro rfl
    rw [mul_zero] at same
    exact lt_irrefl _ same
  rw [openPrices,if_neg nonzero,if_pos same]

theorem openPrices_turned {before after : ℚ} (nonzero : after ≠ 0) (turned : before * after ≤ 0) :
    openPrices before after price prices = [price] := by
  rw [openPrices,if_neg nonzero,if_neg (not_lt.mpr turned)]

theorem held_none (missing : t.positions[symbol]? = none) : t.held symbol = 0 := by
  rw [held,missing]
  rfl

theorem held_some (found : t.positions[symbol]? = some pos) : t.held symbol = pos.quantity := by
  rw [held,found]
  rfl

theorem opened_average (open_ : pos.quantity ≠ 0) (same : pos.avgCost = price) :
    EntryAverage (openPrices 0 (entryQuantity (some pos)) price prices) (some pos) := by
  rintro after ⟨⟩
  rw [entryQuantity_some,openPrices_turned open_ (zero_mul _).le]
  exact Between.singleton_iff.mpr same

theorem turned_average_iff {value held bought : ℚ} (held_neg : held < 0) (total : 0 < held + bought) :
    Between [price] ((value * held + price * bought) / (held + bought)) ↔ price = value := by
  rw [Between.singleton_iff,div_eq_iff total.ne']
  constructor
  · intro same
    have scaled : value * held = price * held := by linarith
    exact (mul_right_cancel₀ held_neg.ne scaled).symm
  · rintro rfl
    ring

section
variable (found : t.positions[trade.symbol]? = some pos)
include found

theorem buy_average_iff (whole : Whole (pos.quantity + trade.quantity)) (open_ : pos.quantity ≠ 0)
    (ordered : 0 < trade.quantity) (side : trade.direction = .long) (average : Between prices pos.avgCost) :
    EntryAverage (openPrices (t.held trade.symbol)
        (entryQuantity (Position.buy t.positions[trade.symbol]? trade.symbol trade.quantity trade.price trade.timestamp))
        trade.price prices)
        (Position.buy t.positions[trade.symbol]? trade.symbol trade.quantity trade.price trade.timestamp) ↔
      KeepsAverage prices pos trade := by
  rw [held_some found,found]
  simp only [Position.buy,whole.isFlat,KeepsAverage,side]
  by_cases flat : pos.quantity + trade.quantity = 0
  · simp [flat,EntryAverage]
  · simp only [flat,if_false,EntryAverage,Option.some.injEq,forall_eq',entryQuantity,map_some,getD_some]
    rcases lt_or_gt_of_ne open_ with short | long
    · rcases lt_or_gt_of_ne flat with remains | turned
      · rw [openPrices_same (mul_pos_of_neg_of_neg short remains)]
        exact ⟨fun kept _ => ⟨fun turned => absurd turned (not_lt.mpr remains.le),fun _ => kept⟩,
          fun needed => (needed short).2 remains⟩
      · rw [openPrices_turned flat (mul_nonpos_of_nonpos_of_nonneg short.le (le_of_lt turned)),
          turned_average_iff short turned]
        exact ⟨fun same _ => ⟨fun _ => same,fun remains => absurd turned (not_lt.mpr remains.le)⟩,
          fun needed => (needed short).1 turned⟩
    · rw [openPrices_same (mul_pos long (add_pos long ordered))]
      exact ⟨fun _ short => absurd long (not_lt.mpr short.le),fun _ => average.weighted long ordered⟩

theorem sellShort_average_iff (whole : Whole (pos.quantity - trade.quantity)) (open_ : pos.quantity ≠ 0)
    (ordered : 0 < trade.quantity) (side : trade.direction = .short) (average : Between prices pos.avgCost) :
    EntryAverage (openPrices (t.held trade.symbol)
        (entryQuantity (Position.sellShort t.positions[trade.symbol]? trade.symbol trade.quantity trade.price trade.timestamp))
        trade.price prices)
        (Position.sellShort t.positions[trade.symbol]? trade.symbol trade.quantity trade.price trade.timestamp) ↔
      KeepsAverage prices pos trade := by
  rw [held_some found,found]
  simp only [Position.sellShort,whole.isFlat,KeepsAverage,side]
  by_cases flat : pos.quantity - trade.quantity = 0
  · simp [flat,EntryAverage]
  · simp only [flat,if_false,EntryAverage,Option.some.injEq,forall_eq',entryQuantity,map_some,getD_some]
    rcases lt_or_gt_of_ne open_ with short | long
    · rw [openPrices_same (mul_pos_of_neg_of_neg short (by linarith))]
      exact ⟨fun _ long => absurd long (not_lt.mpr short.le),fun _ => average.cons _⟩
    · rcases lt_or_gt_of_ne flat with turned | remains
      · rw [openPrices_turned flat (mul_nonpos_of_nonneg_of_nonpos (le_of_lt long) turned.le),Between.singleton_iff]
        exact ⟨fun same _ _ => same.symm,fun needed => (needed long turned).symm⟩
      · rw [openPrices_same (mul_pos long remains)]
        exact ⟨fun _ _ turned => absurd remains (not_lt.mpr turned.le),fun _ => average.cons _⟩

theorem unlessFlat_average {left : Position} (whole : Whole left.quantity) (open_ : pos.quantity ≠ 0)
    (same : left.avgCost = pos.avgCost) (unturned : 0 ≤ pos.quantity * left.quantity)
    (average : Between prices pos.avgCost) :
    EntryAverage (openPrices (t.held trade.symbol) (entryQuantity left.unlessFlat) trade.price prices) left.unlessFlat := by
  intro after written
  rw [held_some found]
  unfold Position.unlessFlat at written ⊢
  split at written
  · cases written
  rename_i remains
  cases written
  rw [whole.isFlat] at remains
  rw [if_neg (by rw [whole.isFlat]; exact remains),entryQuantity_some,
    openPrices_same (lt_of_le_of_ne unturned (mul_ne_zero open_ remains).symm),same]
  exact average.cons _

end

def OpenBook (t : Tracker) : Prop := t.positions.All fun _ pos => pos.quantity ≠ 0

theorem forall_found_iff {found : Option Position} {P : Position → Prop} (holds : found = some pos) :
    (∀ other, found = some other → P other) ↔ P pos := by
  subst holds
  exact ⟨fun all => all pos rfl,fun one _ same => Option.some.inj same ▸ one⟩

theorem booked_average_iff (booked : Booked t request fees trade cash entry) (traded : trade.direction ≠ .hold)
    (ordered : 0 < trade.quantity) (whole : Whole trade.quantity) (wholeBook : WholeBook t) (openBook : OpenBook t)
    (average : EntryAverage prices t.positions[trade.symbol]?) :
    EntryAverage (openPrices (t.held trade.symbol) (entryQuantity entry) trade.price prices) entry ↔
      ∀ pos, t.positions[trade.symbol]? = some pos → KeepsAverage prices pos trade := by
  cases booked with
  | long side =>
    rcases Option.eq_none_or_eq_some t.positions[trade.symbol]? with missing | ⟨pos,found⟩
    · rw [held_none missing,missing]
      refine iff_of_true (opened_average ordered.ne' rfl) fun pos found => ?_
      cases found
    · have prior := wholeBook _ _ found
      rw [forall_found_iff found]
      exact buy_average_iff found (prior.quantity.add whole) (openBook _ _ found) ordered side (average pos found)
  | short side =>
    rcases Option.eq_none_or_eq_some t.positions[trade.symbol]? with missing | ⟨pos,found⟩
    · rw [held_none missing,missing]
      refine iff_of_true (opened_average (neg_ne_zero.mpr ordered.ne') rfl) fun pos found => ?_
      cases found
    · have prior := wholeBook _ _ found
      rw [forall_found_iff found]
      exact sellShort_average_iff found (prior.quantity.sub whole) (openBook _ _ found) ordered side (average pos found)
  | closeLong pos side found positive settled sold =>
    have prior := wholeBook _ _ found
    have most : trade.quantity ≤ pos.quantity := by
      rw [sold]
      exact (min_le_right _ _).trans (min_le_right _ _)
    have left : (soldFrom pos trade).quantity = pos.quantity - trade.quantity := rfl
    refine iff_of_true (unlessFlat_average found ?_ positive.ne' rfl ?_ (average pos found)) fun _ _ => ?_
    · exact prior.quantity.sub whole
    · exact mul_nonneg positive.le (sub_nonneg.mpr most)
    · simp only [KeepsAverage,side]
  | closeShort pos side found negative bought =>
    have prior := wholeBook _ _ found
    have most : trade.quantity ≤ -pos.quantity := by
      rw [bought]
      exact min_le_right _ _
    have left : (boughtBack pos trade).quantity = pos.quantity + trade.quantity := rfl
    refine iff_of_true (unlessFlat_average found ?_ negative.ne rfl ?_ (average pos found)) fun _ _ => ?_
    · exact prior.quantity.add whole
    · exact mul_nonneg_of_nonpos_of_nonpos negative.le (by linarith)
    · simp only [KeepsAverage,side]
  | hold side => exact absurd side traded

end Trade

def TradesWhole (t : Tracker) : Op → Prop
  | .executeTrade _ direction quantity price _ opts =>
    direction ≠ .hold ∧ 0 < t.filledQty quantity (opts.getD ⟨.market,price,none⟩).dayBar ∧
      Whole quantity ∧ Whole (t.filledQty quantity (opts.getD ⟨.market,price,none⟩).dayBar)
  | .applyTrade trade => trade.direction ≠ .hold ∧ Whole trade.quantity
  | .processSplit _ _ => False
  | .processDividend _ _ | .advanceDay | .setStockNames _ => True

variable {op : Op}

theorem TradesWhole.wholeShares (legal : TradesWhole t op) : WholeShares t op := by
  cases op with
  | executeTrade => exact legal.2.2
  | applyTrade => exact legal.2
  | processSplit => exact legal.elim
  | _ => trivial

structure BookedWhole (t : Tracker) (trade : Trade) (t' : Tracker) : Prop where
  traded : trade.direction ≠ .hold
  ordered : 0 < trade.quantity
  whole : Whole trade.quantity
  posted : ∃ request fees price, Posted t request fees price trade t'

theorem Booked.ordered {request fees cash : ℚ} {trade : Trade} {entry : Option Position}
    (booked : Booked t request fees trade cash entry) (drafted : trade.direction ≠ .close → 0 < trade.quantity) :
    0 < trade.quantity := by
  cases booked with
  | long side _ | short side | hold side => exact drafted (by simp [side])
  | closeLong _ _ _ _ _ _ some_ | closeShort _ _ _ _ _ some_ => exact some_

theorem Posted.bookedWhole {request fees price : ℚ} {trade : Trade} (posted : Posted t request fees price trade t')
    (wholeBook : WholeBook t) (traded : trade.direction ≠ .hold) (asked : Whole request)
    (drafted : trade.direction ≠ .close → 0 < trade.quantity ∧ Whole trade.quantity) : BookedWhole t trade t' := by
  obtain ⟨entry,booked,_⟩ := posted.entry
  exact ⟨traded,booked.ordered fun open_ => (drafted open_).1,
    booked.whole_quantity wholeBook asked fun open_ => (drafted open_).2,request,fees,price,posted⟩

def costOf (t : Tracker) (symbol : String) : Option (ℚ × ℚ) :=
  (t.positions[symbol]?).map fun pos => (pos.quantity,pos.avgCost)

theorem step_booked (wholeBook : WholeBook t) (legal : TradesWhole t op) :
    (∃ trade, op.booked t = some trade ∧ BookedWhole t trade (t.step op)) ∨
      op.booked t = none ∧ ∀ symbol, (t.step op).costOf symbol = t.costOf symbol := by
  cases op with
  | executeTrade sold direction quantity price timestamp opts =>
    rcases result : t.executeTrade sold direction quantity price timestamp opts with ⟨e | trade,t'⟩
    · refine .inr ⟨by simp only [Op.booked,result,Except.toOption],fun symbol => ?_⟩
      rw [step,result,costOf,(executeTrade_error result).positions,costOf]
    · have executed := executeTrade_ok result
      refine .inl ⟨trade,by simp only [Op.booked,result,Except.toOption],?_⟩
      rw [step,result]
      refine executed.posted.bookedWhole wholeBook (executed.direction ▸ legal.1) legal.2.2.1 fun open_ => ?_
      rw [executed.drafted (executed.direction ▸ open_)]
      exact ⟨legal.2.1,legal.2.2.2⟩
  | applyTrade draft =>
    rcases result : t.applyTrade draft with ⟨e | trade,t'⟩
    · refine .inr ⟨by simp only [Op.booked,result,Except.toOption],fun symbol => ?_⟩
      rw [step,result,costOf,(applyTrade_error result).positions,costOf]
    · have applied := applyTrade_ok result
      refine .inl ⟨trade,by simp only [Op.booked,result,Except.toOption],?_⟩
      rw [step,result]
      refine applied.posted.bookedWhole wholeBook (applied.order.direction ▸ legal.1) legal.2 fun open_ => ?_
      rw [applied.drafted (applied.order.direction ▸ open_)]
      exact ⟨applied.positive,legal.2⟩
  | processDividend =>
    refine .inr ⟨rfl,fun symbol => ?_⟩
    rw [step,costOf,processDividend_positions,costOf]
  | processSplit => exact legal.elim
  | advanceDay =>
    refine .inr ⟨rfl,fun symbol => ?_⟩
    rw [step,costOf,advanceDay_positions,Book.get_map,Option.map_map,costOf]
    congr 1
    funext pos
    simp only [Function.comp,Position.rollOver]
    split <;> rfl
  | setStockNames => exact .inr ⟨rfl,fun _ => rfl⟩

theorem step_openBook (wholeBook : WholeBook t) (legal : TradesWhole t op) (openBook : OpenBook t) :
    OpenBook (t.step op) := by
  rcases step_booked wholeBook legal with ⟨trade,-,booked⟩ | ⟨-,same⟩
  · obtain ⟨request,fees,price,posted⟩ := booked.posted
    exact posted.all openBook (fun _ open_ => open_) fun _ written => written.nonzero booked.ordered openBook
  · intro symbol pos found
    have cost : t.costOf symbol = some (pos.quantity,pos.avgCost) := by
      rw [← same symbol,costOf,found]
      rfl
    obtain ⟨before,held,pair⟩ := map_eq_some_iff.mp cost
    rw [← (Prod.mk.inj pair).1]
    exact openBook symbol before held

namespace Priced

def Keeps (symbol : String) (s : Priced) (op : Op) : Prop :=
  ∀ trade pos, op.booked s.tracker = some trade → trade.symbol = symbol →
    s.tracker.positions[symbol]? = some pos → KeepsAverage s.prices pos trade

theorem step_average_iff {s : Priced} {op : Op} (average : s.Average symbol) (wholeBook : WholeBook s.tracker)
    (openBook : OpenBook s.tracker) (legal : TradesWhole s.tracker op) :
    (s.step symbol op).Average symbol ↔ s.Keeps symbol op := by
  rcases step_booked wholeBook legal with ⟨trade,found,booked⟩ | ⟨found,same⟩
  · obtain ⟨request,fees,price,posted⟩ := booked.posted
    by_cases own : trade.symbol = symbol
    · subst own
      obtain ⟨entry,books,positions⟩ := posted.entry
      have after : (s.tracker.step op).positions[trade.symbol]? = entry.map (·.mark price) := by
        rw [positions,Book.get_put_self]
      have marked : (s.step trade.symbol op).Average trade.symbol ↔
          EntryAverage (openPrices (s.tracker.held trade.symbol) (entryQuantity entry) trade.price s.prices) entry := by
        simp only [Average,step,found,if_true,after,held,EntryAverage]
        cases entry with
        | none => simp
        | some => simp [Position.mark]
      rw [marked,booked_average_iff books booked.traded booked.ordered booked.whole wholeBook openBook average]
      constructor
      · intro kept record pos recorded _ holding
        cases found.symm.trans recorded
        exact kept pos holding
      · intro kept pos holding
        exact kept trade pos found rfl holding
    · refine iff_of_true ?_ ?_
      · simp only [Average,step,found,own,if_false,posted.other symbol (Ne.symm own)]
        exact average
      · intro record pos recorded mine _
        cases found.symm.trans recorded
        exact absurd mine own
  · refine iff_of_true ?_ ?_
    · intro pos holding
      have cost : s.tracker.costOf symbol = some (pos.quantity,pos.avgCost) := by
        rw [← same symbol,costOf]
        exact congrArg _ holding
      obtain ⟨before,held,pair⟩ := map_eq_some_iff.mp cost
      simp only [step,found]
      rw [← (Prod.mk.inj pair).2]
      exact average before held
    · intro record pos recorded
      cases found.symm.trans recorded

theorem legal_run {start : Priced} {ops : List Op} (wholeBook : WholeBook start.tracker) (openBook : OpenBook start.tracker)
    (legal : Guarded Tracker.step TradesWhole start.tracker ops) :
    Guarded (step symbol)
      (fun s op => WholeBook s.tracker ∧ OpenBook s.tracker ∧ TradesWhole s.tracker op) start ops := by
  induction ops generalizing start with
  | nil => trivial
  | cons op ops ih =>
    refine ⟨⟨wholeBook,openBook,legal.1⟩,ih ?_ ?_ legal.2⟩
    · exact step_wholeBook _ op wholeBook legal.1.wholeShares
    · exact step_openBook wholeBook legal.1 openBook

end Priced

/-- Along every history of whole-share trades the average cost is one of the open side's prices,
unless a buy leaves a short position with a cost outside its prices or a trade turns a position
at a price other than the stored cost. -/
theorem averageCost_between_iff (start : Tracker) (empty : start.positions = ∅) (symbol : String) (ops : List Op)
    (legal : Guarded step TradesWhole start ops) :
    Along (Priced.step symbol) (Priced.Average symbol) ⟨start,[]⟩ ops ↔
      Guarded (Priced.step symbol) (Priced.Keeps symbol) ⟨start,[]⟩ ops := by
  have needed : ∀ (s : Priced) (op : Op), s.Average symbol →
      WholeBook s.tracker ∧ OpenBook s.tracker ∧ TradesWhole s.tracker op →
      ((s.step symbol op).Average symbol ↔ s.Keeps symbol op) :=
    fun s op average inside => Priced.step_average_iff average inside.1 inside.2.1 inside.2.2
  have whole : WholeBook start := by
    unfold WholeBook
    rw [empty]
    exact Book.all_empty _
  have open_ : OpenBook start := by
    unfold OpenBook
    rw [empty]
    exact Book.all_empty _
  have initial : Priced.Average symbol ⟨start,[]⟩ := by
    intro pos held
    rw [empty] at held
    cases held
  exact along_iff_guarded needed initial (Priced.legal_run whole open_ legal)

section Runs

def cashTracker : Tracker := newTracker 100000 0 0 defaultTradingConfig

def tradeOf (direction : Direction) (shares : ℤ) (price : ℚ) : Op :=
  .applyTrade ⟨"600000.SH",direction,shares,price,0,0,0,Time.date 2024 1 2,0,shares⟩

/-- Two buys at ten and at twelve. -/
theorem twoBuys_between : Along (Priced.step "600000.SH") (Priced.Average "600000.SH") ⟨cashTracker,[]⟩
      [tradeOf .long 100 10,tradeOf .long 100 12] := by
  have legal : Guarded step TradesWhole cashTracker [tradeOf .long 100 10,tradeOf .long 100 12] :=
    ⟨⟨by decide,100,rfl⟩,⟨by decide,100,rfl⟩,trivial⟩
  refine (averageCost_between_iff cashTracker rfl "600000.SH" _ legal).mpr ⟨?_,?_,trivial⟩
  · intro trade pos booked own found
    cases found
  · intro trade pos booked own found
    have bought : ∀ trade, (tradeOf .long 100 12).booked (cashTracker.step (tradeOf .long 100 10)) = some trade →
        trade.direction = .long := by decide +kernel
    have long : ∀ pos, (cashTracker.step (tradeOf .long 100 10)).positions["600000.SH"]? = some pos → 0 < pos.quantity := by
      decide +kernel
    simp only [KeepsAverage,bought trade booked]
    exact fun short => absurd (long pos found) (not_lt.mpr short.le)

/-- A short of a hundred at ten, reduced by fifty at twenty, keeps a cost of zero. -/
theorem reducedShort_costs_nothing :
    let ops := [tradeOf .short 100 10,tradeOf .long 50 20]
    Guarded step TradesWhole cashTracker ops ∧
      (run (Priced.step "600000.SH") ⟨cashTracker,[]⟩ ops).tracker.costOf "600000.SH" = some (-50,0) ∧
      ¬ Along (Priced.step "600000.SH") (Priced.Average "600000.SH") ⟨cashTracker,[]⟩ ops := by
  intro ops
  have cost : (run (Priced.step "600000.SH") ⟨cashTracker,[]⟩ ops).tracker.costOf "600000.SH" = some (-50,0) := by
    decide +kernel
  have prices : (run (Priced.step "600000.SH") ⟨cashTracker,[]⟩ ops).prices = [20,10] := by decide +kernel
  refine ⟨⟨⟨by decide,100,rfl⟩,⟨by decide,50,rfl⟩,trivial⟩,cost,?_⟩
  intro along
  obtain ⟨pos,held,pair⟩ := map_eq_some_iff.mp cost
  have between := along.last pos held
  rw [prices,(Prod.mk.inj pair).2] at between
  obtain ⟨low,listed,-,-,least,-⟩ := between
  simp only [mem_cons,not_mem_nil,or_false] at listed
  rcases listed with rfl | rfl <;> norm_num at least

end Runs
end QuantTrading.Tracker
