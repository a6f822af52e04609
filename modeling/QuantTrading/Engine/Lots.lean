import QuantTrading.Engine.Provenance

/-! The shares of a lot: which may be sold today and which are not settled yet, and how a
booking, a split and the end of a day move them.
-/
namespace QuantTrading
open Library
open Position (buy lot opened rollOver sellShort unlessFlat)

def sellable : Option Lot → ℚ
  | none => 0
  | some lot => if 0 < lot.quantity then lot.quantityYesterday else 0

def unsettled : Option Lot → ℚ
  | none => 0
  | some lot => if 0 < lot.quantity then lot.quantityToday else 0

def CoveredLot (entry : Option Lot) : Prop :=
  ∀ lot, entry = some lot → 0 < lot.quantity →
    0 ≤ lot.quantityToday ∧ 0 ≤ lot.quantityYesterday ∧ lot.quantityToday + lot.quantityYesterday ≤ lot.quantity

theorem CoveredLot.none : CoveredLot none := fun _ present => by cases present

theorem CoveredLot.sellable_nonneg {entry : Option Lot} (covered : CoveredLot entry) : 0 ≤ sellable entry := by
  cases entry with
  | none => exact le_rfl
  | some lot =>
    simp only [sellable]
    split
    next long =>
      exact (covered lot rfl long).2.1
    · exact le_rfl

theorem CoveredLot.unsettled_nonneg {entry : Option Lot} (covered : CoveredLot entry) : 0 ≤ unsettled entry := by
  cases entry with
  | none => exact le_rfl
  | some lot =>
    simp only [unsettled]
    split
    next long =>
      exact (covered lot rfl long).1
    · exact le_rfl

theorem owed_lot (lot : Lot) (owed : ¬ 0 < lot.quantity) :
    CoveredLot (some lot) ∧ sellable (some lot) = 0 ∧ unsettled (some lot) = 0 := by
  refine ⟨?_,if_neg owed,if_neg owed⟩
  rintro _ ⟨⟩ long
  exact absurd long owed

variable (t : Tracker) (symbol : String) (price : ℚ)

def takenOut (trade : Trade) : ℚ :=
  match trade.direction with
  | .close => if 0 < t.held trade.symbol then trade.quantity else 0
  | .short => if 0 < t.held trade.symbol then min trade.quantity (t.held trade.symbol) else 0
  | .long | .hold => 0

def boughtBy (trade : Trade) : ℚ := if trade.direction = .long then trade.quantity else 0

/-- The two kinds of fill whose counters do not follow the shares: a short sale out of a long
position and a buy that turns a short into a long. -/
def KeepsLots (trade : Trade) : Prop :=
  ∀ pos, t.positions[trade.symbol]? = some pos →
    (trade.direction = .short → pos.quantity ≤ 0) ∧
    (trade.direction = .long → ¬ Tracker.TurnsLong pos trade.quantity)

instance (t : Tracker) (trade : Trade) : Decidable (KeepsLots t trade) :=
  inferInstanceAs (Decidable (∀ pos ∈ t.positions[trade.symbol]?,
    (trade.direction = .short → pos.quantity ≤ 0) ∧
    (trade.direction = .long → ¬ (pos.quantity ≤ 0 ∧ -pos.quantity < trade.quantity))))

structure Settles (before after : Option Lot) (taken bought : ℚ) : Prop where
  covered : CoveredLot after
  sold : taken + sellable after ≤ sellable before
  fresh : unsettled after ≤ unsettled before + bought

theorem Settles.of_owed {before after : Option Lot} {bought : ℚ} (covered : CoveredLot before)
    (owed : ∀ lot, after = some lot → lot.quantity ≤ 0) (some_ : 0 ≤ bought) : Settles before after 0 bought := by
  have sellableBefore := covered.sellable_nonneg
  have unsettledBefore := covered.unsettled_nonneg
  cases after with
  | none =>
    refine ⟨CoveredLot.none,?_,?_⟩
    · change 0 + 0 ≤ sellable before
      linarith
    · change 0 ≤ unsettled before + bought
      linarith
  | some lot =>
    obtain ⟨left,sold,fresh⟩ := owed_lot lot (not_lt.mpr (owed lot rfl))
    exact ⟨left,by linarith,by linarith⟩

variable {entry : Option Position} {t : Tracker}

section
variable {qty : ℚ} (timestamp : Time) (ordered : 0 < qty) (covered : CoveredLot (entry.map lot))
include ordered covered

theorem settles_buy (keeps : ∀ pos, entry = some pos → ¬ Tracker.TurnsLong pos qty) :
    Settles (entry.map lot) ((buy entry symbol qty price timestamp).map lot) 0 qty := by
  cases entry with
  | none =>
    refine ⟨?_,?_,?_⟩
    · rintro _ ⟨⟩ _
      exact ⟨ordered.le,le_rfl,(add_zero qty).le⟩
    · simp [buy,opened,lot,sellable]
    · simp [buy,opened,lot,unsettled,ordered]
  | some pos =>
    simp only [buy]
    split
    · exact Settles.of_owed covered (by simp) ordered.le
    by_cases long : 0 < pos.quantity
    · obtain ⟨today,yesterday,sum⟩ := covered pos.lot rfl long
      simp only [lot] at today yesterday sum
      have more : 0 < pos.quantity + qty := by linarith
      -- The counter of the day may be restarted, which only lowers it.
      have reset : (if pos.buyDate.truncateDay ≠ timestamp.truncateDay then 0 else pos.quantityToday) ≤
          pos.quantityToday ∧
          0 ≤ if pos.buyDate.truncateDay ≠ timestamp.truncateDay then 0 else pos.quantityToday := by
        split <;> constructor <;> linarith
      refine ⟨?_,?_,?_⟩
      · rintro _ ⟨⟩ _
        exact ⟨by simp only [lot]; linarith,yesterday,by simp only [lot]; linarith⟩
      · simp [sellable,lot,long,more]
      · simp only [map_some,unsettled,lot,long,more,if_true]
        linarith
    · refine Settles.of_owed covered ?_ ordered.le
      rintro _ ⟨⟩
      by_contra turned
      exact keeps pos rfl ⟨not_lt.mp long,by simp only [lot] at turned; linarith⟩

theorem settles_sellShort (keeps : ∀ pos, entry = some pos → pos.quantity ≤ 0) :
    Settles (entry.map lot) ((sellShort entry symbol qty price timestamp).map lot) 0 0 := by
  refine Settles.of_owed covered ?_ le_rfl
  cases entry with
  | none =>
    rintro _ ⟨⟩
    change -qty ≤ 0
    linarith
  | some pos =>
    have owed := keeps pos rfl
    intro lot written
    simp only [sellShort] at written
    split at written
    · cases written
    cases written
    change pos.quantity - qty ≤ 0
    linarith

end

variable {pos : Position} {trade : Trade}

theorem settles_closeLong (covered : CoveredLot (some pos.lot)) (long : 0 < pos.quantity)
    (available : trade.quantity ≤ pos.quantityYesterday) :
    Settles (some pos.lot) ((Tracker.soldFrom pos trade).unlessFlat.map lot) trade.quantity 0 := by
  obtain ⟨today,yesterday,sum⟩ := covered pos.lot rfl long
  simp only [lot] at today yesterday sum
  have before : sellable (some pos.lot) = pos.quantityYesterday := by simp [sellable,lot,long]
  have fresh : unsettled (some pos.lot) = pos.quantityToday := by simp [unsettled,lot,long]
  unfold unlessFlat
  split
  · refine ⟨CoveredLot.none,?_,?_⟩
    · change trade.quantity + 0 ≤ _
      linarith
    · change 0 ≤ _
      linarith
  · refine ⟨?_,?_,?_⟩
    · rintro _ ⟨⟩ _
      exact ⟨today,by simp only [lot,Tracker.soldFrom]; linarith,by
        simp only [lot,Tracker.soldFrom]; linarith⟩
    · rw [before]
      simp only [map_some,sellable,lot,Tracker.soldFrom]
      split <;> linarith
    · rw [fresh]
      simp only [map_some,unsettled,lot,Tracker.soldFrom]
      split <;> linarith

theorem settles_closeShort (covered : CoveredLot (some pos.lot)) (owed : trade.quantity ≤ -pos.quantity) :
    Settles (some pos.lot) ((Tracker.boughtBack pos trade).unlessFlat.map lot) 0 0 := by
  refine Settles.of_owed covered ?_ le_rfl
  intro lot written
  unfold unlessFlat at written
  split at written
  · cases written
  cases written
  change pos.quantity + trade.quantity ≤ 0
  linarith

theorem held_of_position {symbol : String} (stored : t.positions[symbol]? = some pos) :
    t.held symbol = pos.quantity := by
  simp [Tracker.held,stored]

theorem booked_settles {request fees cash : ℚ}
    (booked : t.Booked request fees trade cash entry) (ordered : 0 < trade.quantity)
    (covered : CoveredLot (t.lot trade.symbol)) (keeps : KeepsLots t trade) :
    Settles (t.lot trade.symbol) (entry.map lot) (takenOut t trade) (boughtBy trade) := by
  unfold Tracker.lot at covered ⊢
  cases booked with
  | long side _ =>
    simp only [takenOut,boughtBy,side,if_true]
    exact settles_buy _ _ _ ordered covered fun pos stored => (keeps pos stored).2 side
  | short side =>
    have nothing : takenOut t trade = 0 := by
      have owed : ¬ 0 < t.held trade.symbol := by
        cases stored : t.positions[trade.symbol]? with
        | none => simp [Tracker.held,stored]
        | some pos =>
          rw [held_of_position stored]
          exact not_lt.mpr ((keeps pos stored).1 side)
      simp [takenOut,side,owed]
    simp only [nothing,boughtBy,side,reduceCtorEq,if_false]
    exact settles_sellShort _ _ _ ordered covered fun pos stored => (keeps pos stored).1 side
  | closeLong pos side stored long _ sold =>
    have taken : takenOut t trade = trade.quantity := by simp [takenOut,side,held_of_position stored,long]
    have available : trade.quantity ≤ pos.quantityYesterday := by
      rw [sold]
      exact min_le_left _ _
    simp only [taken,boughtBy,side,reduceCtorEq,if_false]
    rw [stored] at covered ⊢
    exact settles_closeLong covered long available
  | closeShort pos side stored negative bought =>
    have nothing : takenOut t trade = 0 := by simp [takenOut,side,held_of_position stored,not_lt.mpr negative.le]
    have owed : trade.quantity ≤ -pos.quantity := by
      rw [bought]
      exact min_le_right _ _
    simp only [nothing,boughtBy,side,reduceCtorEq,if_false]
    rw [stored] at covered ⊢
    exact settles_closeShort covered owed
  | hold side =>
    simp only [takenOut,boughtBy,side,reduceCtorEq,if_false]
    exact ⟨covered,(zero_add _).le,(add_zero _).ge⟩

theorem split_lots (t : Tracker) (symbol : String) (split : Split) (covered : CoveredLot (t.lot symbol)) :
    ∃ credit, 0 ≤ credit ∧ (t.processSplit symbol split).held symbol - t.held symbol = credit ∧
      CoveredLot ((t.processSplit symbol split).lot symbol) ∧
      sellable ((t.processSplit symbol split).lot symbol) = sellable (t.lot symbol) ∧
      unsettled ((t.processSplit symbol split).lot symbol) = unsettled (t.lot symbol) + credit := by
  rcases Tracker.processSplit_positions t symbol split with same | ⟨pos,stored,long,credited⟩
  · refine ⟨0,le_rfl,?_⟩
    simp only [Tracker.held,Tracker.lot,same,sub_self,add_zero,and_true,true_and]
    exact covered
  · have written : (t.processSplit symbol split).positions[symbol]? = some (pos.split split.stkDivRatio) := by
      rw [credited,Book.get_put_self]
    have before : t.lot symbol = some pos.lot := by simp [Tracker.lot,stored]
    rw [held_of_position written,held_of_position stored]
    rw [before] at covered ⊢
    simp only [Tracker.lot,written,map_some]
    obtain ⟨today,yesterday,sum⟩ := covered pos.lot rfl long
    simp only [lot] at today yesterday sum
    unfold Position.split
    split
    next credited =>
      have credit : 0 < pos.quantity * split.stkDivRatio := mul_pos long credited
      have more : 0 < pos.quantity + pos.quantity * split.stkDivRatio := by linarith
      refine ⟨pos.quantity * split.stkDivRatio,credit.le,by ring,?_,?_,?_⟩
      · rintro _ ⟨⟩ _
        exact ⟨by simp only [lot]; linarith,yesterday,by simp only [lot]; linarith⟩
      · simp [sellable,lot,long,more]
      · simp [unsettled,lot,long,more]
    · exact ⟨0,le_rfl,sub_self _,covered,rfl,(add_zero _).symm⟩

theorem split_other (t : Tracker) {symbol other : String} (split : Split) (distinct : other ≠ symbol) :
    (t.processSplit symbol split).lot other = t.lot other := by
  unfold Tracker.lot
  rcases Tracker.processSplit_positions t symbol split with same | ⟨pos,stored,long,credited⟩
  · rw [same]
  · rw [credited,Book.get_put_of_ne _ _ distinct]

theorem advanceDay_lots (t : Tracker) (symbol : String) (covered : CoveredLot (t.lot symbol)) :
    CoveredLot (t.advanceDay.lot symbol) ∧ unsettled (t.advanceDay.lot symbol) = 0 ∧
    sellable (t.advanceDay.lot symbol) = sellable (t.lot symbol) + unsettled (t.lot symbol) := by
  have rolled : t.advanceDay.lot symbol = (t.positions[symbol]?).map fun pos => pos.rollOver.lot := by
    simp only [Tracker.lot,Tracker.advanceDay_positions,Book.get_map,Option.map_map]
    rfl
  rw [rolled]
  unfold Tracker.lot at covered ⊢
  generalize t.positions[symbol]? = entry at covered ⊢
  cases entry with
  | none => exact ⟨CoveredLot.none,rfl,(add_zero _).symm⟩
  | some pos =>
    simp only [map_some] at covered ⊢
    by_cases long : 0 < pos.quantity
    · obtain ⟨today,yesterday,sum⟩ := covered pos.lot rfl long
      simp only [lot] at today yesterday sum
      unfold rollOver
      split
      · refine ⟨?_,by simp [unsettled,lot,long],by simp [sellable,unsettled,lot,long]⟩
        rintro _ ⟨⟩ _
        exact ⟨le_rfl,by simp only [lot]; linarith,by simp only [lot]; linarith⟩
      next settled =>
        have none_ : pos.quantityToday = 0 := le_antisymm (not_lt.mp settled) today
        exact ⟨covered,by simp [unsettled,lot,none_],by simp [sellable,unsettled,lot,none_]⟩
    · have kept : pos.rollOver.quantity = pos.quantity := by
        unfold rollOver
        split <;> rfl
      obtain ⟨_,soldBefore,freshBefore⟩ := owed_lot pos.lot long
      obtain ⟨left,soldAfter,freshAfter⟩ := owed_lot pos.rollOver.lot (by simpa [lot,kept] using long)
      exact ⟨left,freshAfter,by rw [soldAfter,soldBefore,freshBefore,add_zero]⟩

end QuantTrading
