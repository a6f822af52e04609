import QuantTrading.Tracker.Operations

/-! The settlement counters of a long position: the shares bought today and the shares
sellable today add up to the quantity held. Three kinds of trade break the equation:
a short sale that reduces a long, a buy that turns a short into a long, and a buy on a
later day than the last one while shares credited in between are not rolled over.
-/
namespace QuantTrading.Tracker
open Library

variable (pos : Position)

def Settled : Prop :=
  0 < pos.quantity →
    0 ≤ pos.quantityToday ∧ 0 ≤ pos.quantityYesterday ∧ pos.quantityToday + pos.quantityYesterday = pos.quantity

instance (pos : Position) : Decidable (Settled pos) := by unfold Settled; infer_instance

def SettlementLaw (t : Tracker) : Prop := t.positions.All fun _ pos => Settled pos

def SettledEntry (entry : Option Position) : Prop := ∀ pos, entry = some pos → Settled pos

def ReducesLong (qty : ℚ) : Prop := 0 < pos.quantity ∧ qty < pos.quantity

def TurnsLong (qty : ℚ) : Prop := pos.quantity ≤ 0 ∧ -pos.quantity < qty

/-- A buy on another day than the last one, with shares of today's counter not rolled over. -/
def DropsToday (timestamp : Time) : Prop :=
  0 < pos.quantity ∧ pos.quantityToday ≠ 0 ∧ ¬ pos.buyDate.SameDay timestamp

def KeepsCounters (entry : Option Position) (direction : Direction) (qty : ℚ) (timestamp : Time) : Prop :=
  ∀ pos, entry = some pos →
    match direction with
    | .long => ¬ TurnsLong pos qty ∧ ¬ DropsToday pos timestamp
    | .short => ¬ ReducesLong pos qty
    | .close | .hold => True

variable {entry : Option Position} {t : Tracker}

variable {pos : Position}

theorem Settled.split (settled : Settled pos) (held : 0 < pos.quantity) (ratio : ℚ) :
    Settled (pos.split ratio) := by
  obtain ⟨today,yesterday,sum⟩ := settled held
  unfold Position.split
  split
  next credited =>
    have credit : 0 < pos.quantity * ratio := mul_pos held credited
    exact fun _ => ⟨by dsimp only; linarith,yesterday,by dsimp only; linarith⟩
  · exact settled

theorem Settled.rollOver (settled : Settled pos) : Settled pos.rollOver := by
  unfold Position.rollOver
  split
  · intro long
    obtain ⟨today,yesterday,sum⟩ := settled long
    exact ⟨le_rfl,by dsimp only; linarith,by dsimp only; linarith⟩
  · exact settled

theorem Written.settled {trade : Trade} (written : Written t trade pos) (prior : SettledEntry t.positions[trade.symbol]?)
    (positive : trade.direction ≠ .close → 0 < trade.quantity)
    (keeps : KeepsCounters t.positions[trade.symbol]? trade.direction trade.quantity trade.timestamp) : Settled pos := by
  cases written with
  | opened side => exact fun _ => ⟨(positive (by simp [side])).le,le_rfl,add_zero _⟩
  | @added before side held _ =>
    rw [side] at keeps
    obtain ⟨notTurned,kept⟩ := keeps before held
    have ordered := positive (by simp [side])
    intro long
    have open_ : 0 < before.quantity := by
      by_contra owed
      exact notTurned ⟨not_lt.mp owed,by linarith⟩
    obtain ⟨today,yesterday,sum⟩ := prior before held open_
    split
    next otherDay =>
      have rolled : before.quantityToday = 0 := by
        by_contra pending
        exact kept ⟨open_,pending,otherDay⟩
      exact ⟨by linarith,yesterday,by linarith⟩
    · exact ⟨by linarith,yesterday,by linarith⟩
  | shorted side =>
    intro long
    change 0 < -trade.quantity at long
    linarith [positive (by simp [side])]
  | @reduced before side held _ =>
    rw [side] at keeps
    have notReduced : ¬ ReducesLong before trade.quantity := keeps before held
    intro long
    exact absurd ⟨by linarith [positive (by simp [side])],by linarith⟩ notReduced
  | sold held long available _ =>
    obtain ⟨today,yesterday,sum⟩ := prior _ held long
    exact fun _ => ⟨today,by simp only [soldFrom]; linarith,by simp only [soldFrom]; linarith⟩
  | @bought before _ _ owed _ =>
    intro long
    change 0 < before.quantity + trade.quantity at long
    linarith
  | kept _ held => exact prior _ held

/-- The fill of an order keeps the counters; an order that is rejected has none. -/
def KeepsSettlement (t : Tracker) : Op → Prop
  | .executeTrade symbol direction quantity price timestamp opts =>
    ∀ trade, (t.executeTrade symbol direction quantity price timestamp opts).1 = .ok trade →
      KeepsCounters t.positions[symbol]? direction trade.quantity timestamp
  | .applyTrade draft => ∀ trade, (t.applyTrade draft).1 = .ok trade →
      KeepsCounters t.positions[draft.symbol]? draft.direction trade.quantity draft.timestamp
  | _ => True

def PositiveOrder : Op → Prop
  | .executeTrade _ _ quantity _ _ _ => 0 < quantity
  | _ => True

theorem step_liquidityFactor (t : Tracker) (op : Op) : (t.step op).liquidityFactor = t.liquidityFactor := by
  cases op with
  | executeTrade symbol direction quantity price timestamp opts =>
    change (t.executeTrade symbol direction quantity price timestamp opts).2.liquidityFactor = _
    rcases result : t.executeTrade symbol direction quantity price timestamp opts with ⟨e | trade,t'⟩
    · exact (executeTrade_error result).liquidityFactor
    · exact (executeTrade_ok result).posted.config.liquidityFactor
  | applyTrade draft =>
    change (t.applyTrade draft).2.liquidityFactor = _
    rcases result : t.applyTrade draft with ⟨e | trade,t'⟩
    · exact (applyTrade_error result).liquidityFactor
    · exact (applyTrade_ok result).posted.config.liquidityFactor
  | processDividend =>
    simp only [step,processDividend]
    split
    · rfl
    · split <;> rfl
  | processSplit symbol split =>
    simp only [step,processSplit]
    split
    · rfl
    · split <;> rfl
  | advanceDay =>
    simp only [step,advanceDay]
    split <;> rfl
  | setStockNames => rfl

theorem filledQty_pos {quantity : ℚ} (dayBar : Option OHLCV) (liquid : 0 < t.liquidityFactor)
    (positive : 0 < quantity) : 0 < t.filledQty quantity dayBar := by
  unfold filledQty
  split
  · exact positive
  split
  next bar limited =>
    exact mul_pos limited.1 liquid
  · exact positive

theorem Posted.settlementLaw {t' : Tracker} {request fees price : ℚ} {trade : Trade}
    (posted : Posted t request fees price trade t') (law : SettlementLaw t)
    (positive : trade.direction ≠ .close → 0 < trade.quantity)
    (keeps : KeepsCounters t.positions[trade.symbol]? trade.direction trade.quantity trade.timestamp) :
    SettlementLaw t' :=
  posted.all law (fun _ settled => settled) fun _ written => written.settled (law _) positive keeps

structure CountersKept (t : Tracker) : Prop where
  liquid : 0 < t.liquidityFactor
  law : SettlementLaw t

theorem step_settlementLaw (t : Tracker) (op : Op) (kept : CountersKept t)
    (legal : PositiveOrder op ∧ KeepsSettlement t op) : CountersKept (t.step op) := by
  obtain ⟨positive,keeps⟩ := legal
  have law := kept.law
  have change := step_change t op
  refine ⟨by rw [step_liquidityFactor]; exact kept.liquid,?_⟩
  unfold SettlementLaw
  generalize (t.step op).positions = after at change ⊢
  cases change with
  | kept => exact law
  | executed call accepted =>
    rename_i symbol direction quantity price timestamp opts trade t'
    subst call
    have executed := executeTrade_ok accepted
    refine executed.posted.settlementLaw law ?_ ?_
    · intro open_
      rw [executed.drafted (by rw [← executed.direction]; exact open_)]
      exact filledQty_pos _ kept.liquid positive
    · rw [executed.symbol,executed.direction,executed.timestamp]
      exact keeps trade (by rw [accepted])
  | applied call accepted =>
    rename_i draft trade t'
    subst call
    have applied := applyTrade_ok accepted
    refine applied.posted.settlementLaw law ?_ ?_
    · intro open_
      rw [applied.drafted (by rw [← applied.order.direction]; exact open_)]
      exact applied.positive
    · rw [applied.order.symbol,applied.order.direction,applied.order.timestamp]
      exact keeps trade (by rw [accepted])
  | split call held long =>
    apply Book.All.put law
    intro pos written
    cases written
    exact Settled.split (law _ _ held) long _
  | rolled =>
    refine Book.All.map law _ ?_
    intro _ pos settled
    exact settled.rollOver

/-- In every history of positive orders whose fills all meet the condition, the settlement
equation holds in every state reached. -/
theorem history_settlementLaw (capital commission slippage : ℚ) (trading : TradingConfig) (ops : List Op)
    (meets : Guarded step (fun t op => PositiveOrder op ∧ KeepsSettlement t op)
      (newTracker capital commission slippage trading) ops) :
    Along step SettlementLaw (newTracker capital commission slippage trading) ops := by
  have fresh : CountersKept (newTracker capital commission slippage trading) :=
    ⟨by norm_num [newTracker],Book.all_empty _⟩
  exact (along_invariant step_settlementLaw fresh meets).mono fun _ kept => kept.law

def settledRoundTrip : List Op :=
  [.executeTrade "600000.SH" .long 100 10 (Time.date 2024 1 2) none,.advanceDay,
    .executeTrade "600000.SH" .close 50 11 (Time.date 2024 1 3) none]

theorem settledRoundTrip_settlementLaw :
    Along step SettlementLaw (newTracker 100000 0 0 defaultTradingConfig) settledRoundTrip := by
  apply history_settlementLaw
  refine ⟨⟨by norm_num [PositiveOrder],?_⟩,⟨trivial,trivial⟩,⟨by norm_num [PositiveOrder],?_⟩,trivial⟩
  · intro _ _ pos held
    simp [newTracker] at held
  · exact fun _ _ _ _ => trivial

/-- The calls in trading order: no trade is dated before the one preceding it, and the day is
advanced between trades of different days. -/
def Chronological : Option Time → Bool → List Op → Prop
  | _, _, [] => True
  | last, _, .advanceDay :: ops => Chronological last true ops
  | last, advanced, .executeTrade _ _ _ _ timestamp _ :: ops =>
    (∀ earlier ∈ last, earlier ≤ timestamp ∧ (advanced ∨ earlier.SameDay timestamp)) ∧
      Chronological (some timestamp) false ops
  | last, advanced, .applyTrade trade :: ops =>
    (∀ earlier ∈ last, earlier ≤ trade.timestamp ∧ (advanced ∨ earlier.SameDay trade.timestamp)) ∧
      Chronological (some trade.timestamp) false ops
  | last, advanced, _ :: ops => Chronological last advanced ops

def shortAgainstLong : List Op :=
  [.executeTrade "600000.SH" .long 100 10 (Time.date 2024 1 2) none,
    .executeTrade "600000.SH" .short 50 10 (Time.date 2024 1 2) none]

/-- The 50 shares that are left keep a counter of 100 bought today. -/
theorem shortAgainstLong_breaks_settlementLaw : Chronological none false shortAgainstLong ∧
    Guarded step WholeShares (newTracker 100000 0 0 defaultTradingConfig) shortAgainstLong ∧
    ¬ SettlementLaw (run step (newTracker 100000 0 0 defaultTradingConfig) shortAgainstLong) := by
  refine ⟨?_,?_,?_⟩
  · refine ⟨by simp,?_,trivial⟩
    intro earlier same
    cases same
    exact ⟨le_rfl,.inr rfl⟩
  · refine ⟨⟨⟨100,by norm_num⟩,⟨100,by norm_num [filledQty]⟩⟩,⟨⟨50,by norm_num⟩,⟨50,by norm_num [filledQty]⟩⟩,trivial⟩
  · exact fun law => absurd (law "600000.SH") (by decide +kernel)

end QuantTrading.Tracker
