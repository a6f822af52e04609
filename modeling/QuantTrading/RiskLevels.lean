import Mathlib.Data.List.Induction
import QuantTrading.Risk

/-! Order lots, the average true range, stop levels and position sizes of the risk manager
(`lot.go`, `stoploss.go`, `manager.go`). The buffer of true ranges has a cell too many, the stop
level depends on the price it is compared with, and a batch reads the regime that a single call
fills in.
-/
namespace QuantTrading
open Library List

inductive QuantityError where
  | notPositive (shares : ℚ) | notWhole (shares : ℚ) | belowMinimum (board : Board) (shares : ℚ) | oddLot (shares : ℚ)
deriving DecidableEq

def validateOrderQuantity (shares : ℚ) (symbol : String) (isSell : Bool) : Except QuantityError Unit :=
  if shares ≤ 0 then .error (.notPositive shares)
  else if shares ≠ ⌊shares⌋ then .error (.notWhole shares)
  else if isSell then .ok ()
  else match Board.classifySymbol symbol with
    | .star => if shares < 200 then .error (.belowMinimum .star shares) else .ok ()
    | .bse => if shares < 100 then .error (.belowMinimum .bse shares) else .ok ()
    | _ => if ⌊shares⌋ % 100 ≠ 0 then .error (.oddLot shares) else .ok ()

/-- A board takes the multiples of a step from a least number of steps on. -/
structure LotRule where
  (step least : ℤ)
  positive : 0 < step ∧ 0 < least

def lotRule (symbol : String) : LotRule :=
  match Board.classifySymbol symbol with
  | .star => ⟨1,200,by decide⟩
  | .bse => ⟨1,100,by decide⟩
  | _ => ⟨100,1,by decide⟩

namespace LotRule

variable {rule : LotRule} {x y q : ℚ}

def Takes (rule : LotRule) (q : ℚ) : Prop := ∃ n : ℤ, rule.least ≤ n ∧ q = n * rule.step

def nearest (rule : LotRule) (x : ℚ) : ℚ := (max rule.least ⌊x / rule.step⌋ : ℤ) * rule.step

theorem step_pos (rule : LotRule) : (0 : ℚ) < rule.step := Int.cast_pos.mpr rule.positive.1

theorem takes_nearest : rule.Takes (rule.nearest x) := ⟨_,le_max_left ..,rfl⟩

theorem nearest_mono (le : x ≤ y) : rule.nearest x ≤ rule.nearest y := by
  have positive := rule.step_pos
  unfold nearest
  gcongr

theorem Takes.one_le (takes : rule.Takes q) : 1 ≤ q := by
  obtain ⟨n,least,rfl⟩ := takes
  exact_mod_cast Int.mul_pos (rule.positive.2.trans_le least) rule.positive.1

/-- Above a quantity that the rule takes, rounding goes down and not past it. -/
theorem Takes.below (takes : rule.Takes q) (le : q ≤ x) : q ≤ rule.nearest x ∧ rule.nearest x ≤ x := by
  have positive := rule.step_pos
  obtain ⟨n,least,rfl⟩ := takes
  have few : n ≤ ⌊x / rule.step⌋ := Int.le_floor.mpr ((le_div_iff₀ positive).mpr le)
  rw [nearest,max_eq_right (least.trans few)]
  refine ⟨?_,(le_div_iff₀ positive).mp (Int.floor_le _)⟩
  gcongr

theorem Takes.above (takes : rule.Takes q) (le : x ≤ q) : rule.nearest x ≤ q :=
  (nearest_mono le).trans (takes.below le_rfl).2

end LotRule

variable {symbol : String} {x q : ℚ}

theorem normalizeOrderQuantity_eq (enough : 1 ≤ x) : normalizeOrderQuantity x symbol = (lotRule symbol).nearest x := by
  have floor (m : ℤ) : (if x < m then (m : ℚ) else ⌊x⌋) = (max m ⌊x⌋ : ℤ) := by
    split
    next below => rw [max_eq_left (Int.floor_lt.mpr below).le]
    next reached => rw [max_eq_right (Int.le_floor.mpr (not_lt.mp reached))]
  rw [normalizeOrderQuantity,if_neg (not_lt.mpr enough),lotRule]
  cases Board.classifySymbol symbol with
  | star => simpa [LotRule.nearest] using floor 200
  | bse => simpa [LotRule.nearest] using floor 100
  | _ =>
    simp only [LotRule.nearest,Int.cast_ofNat]
    split
    next below => rw [max_eq_left (by omega)]; norm_num
    next reached => rw [max_eq_right (by omega)]

def Accepted (symbol : String) (q : ℚ) : Prop := validateOrderQuantity q symbol false = .ok ()

theorem accepted_iff_takes : Accepted symbol q ↔ (lotRule symbol).Takes q := by
  rw [Accepted,validateOrderQuantity]
  by_cases whole : ∃ n : ℤ, q = n
  · obtain ⟨n,rfl⟩ := whole
    have cast (m : ℤ) : (n : ℚ) < m ↔ n < m := Int.cast_lt
    rw [LotRule.Takes,lotRule]
    cases Board.classifySymbol symbol with
    | star => have := cast 200; simp at *; grind
    | bse => have := cast 100; simp at *; grind
    | _ =>
      have lots : (∃ k : ℤ, 1 ≤ k ∧ (n : ℚ) = k * 100) ↔ 0 < n ∧ n % 100 = 0 := by
        refine ⟨fun ⟨k,least,eq⟩ => ?_,fun multiple => ⟨n / 100,by omega,?_⟩⟩
        · have : n = k * 100 := by exact_mod_cast eq
          omega
        · exact_mod_cast (by omega : n = n / 100 * 100)
      simp [lots]
      grind
  · exact iff_of_false (by grind) fun ⟨n,_,eq⟩ => whole ⟨_,eq.trans (Int.cast_mul ..).symm⟩

theorem normalizeOrderQuantity_legal (symbol : String) (x : ℚ) (enough : 1 ≤ x) :
    Accepted symbol (normalizeOrderQuantity x symbol) ∧
      ((∃ other ≤ x, Accepted symbol other) →
        IsGreatest {other | Accepted symbol other ∧ other ≤ x} (normalizeOrderQuantity x symbol)) ∧
      ((∀ other ≤ x, ¬ Accepted symbol other) → IsLeast {other | Accepted symbol other} (normalizeOrderQuantity x symbol)) ∧
      (∀ y, x ≤ y → normalizeOrderQuantity x symbol ≤ normalizeOrderQuantity y symbol) ∧
      normalizeOrderQuantity (normalizeOrderQuantity x symbol) symbol = normalizeOrderQuantity x symbol := by
  simp only [accepted_iff_takes,normalizeOrderQuantity_eq enough]
  have takes : (lotRule symbol).Takes ((lotRule symbol).nearest x) := LotRule.takes_nearest
  refine ⟨takes,fun ⟨_,le,first⟩ => ⟨⟨takes,(first.below le).2⟩,fun _ other => (other.1.below other.2).1⟩,
    fun unreached => ⟨takes,fun _ other => other.above (not_lt.mp fun less => unreached _ less.le other)⟩,fun y le => ?_,?_⟩
  · rw [normalizeOrderQuantity_eq (enough.trans le)]
    exact LotRule.nearest_mono le
  · rw [normalizeOrderQuantity_eq takes.one_le]
    exact (takes.below le_rfl).2.antisymm (takes.below le_rfl).1

theorem starBuy_legal : Accepted "688001.SH" (normalizeOrderQuantity 350 "688001.SH") :=
  (normalizeOrderQuantity_legal "688001.SH" 350 (by decide)).1

def trueRanges (bars : List OHLCV) : List ℚ := bars.zipWith trueRange bars.tail

namespace StopLossChecker

/-- The loop over the bars: each true range goes into the next cell of the buffer. -/
def fillRanges (buf : List ℚ) (cell : ℕ) : List OHLCV → List ℚ
  | previous :: bar :: rest => fillRanges (buf.set cell (trueRange previous bar)) (cell + 1) (bar :: rest)
  | _ => buf

variable (c : StopLossChecker) (bars : List OHLCV)

def startBar : ℕ := bars.length - c.atrPeriod - 1

/-- `CalculateATR` with its buffer. -/
def ringATR : Option ℚ :=
  if bars.length < c.atrPeriod then none
  else
    let buf := fillRanges (replicate (c.atrPeriod + 1) 0) 0 (bars.drop (c.startBar bars))
    some (buf.sum / buf.length)

theorem fillRanges_sum {cells : ℕ} (room : bars.length ≤ cells + 1) (done : List ℚ) :
    (fillRanges (done ++ replicate cells 0) done.length bars).sum = done.sum + (trueRanges bars).sum ∧
      (fillRanges (done ++ replicate cells 0) done.length bars).length = done.length + cells := by
  induction bars generalizing done cells with
  | nil => simp [fillRanges,trueRanges]
  | cons previous rest ih =>
    match rest,cells with
    | [],_ => simp [fillRanges,trueRanges]
    | bar :: rest,cells + 1 =>
      have next := ih (Nat.le_of_succ_le_succ room) (done ++ [trueRange previous bar])
      simpa [fillRanges,trueRanges,replicate_succ,add_assoc,add_comm 1] using next

variable {c bars}

theorem ringATR_eq : c.ringATR bars = c.calculateATR bars := by
  have room : (bars.drop (c.startBar bars)).length ≤ c.atrPeriod + 1 + 1 := by
    rw [length_drop,startBar]
    omega
  have filled := fillRanges_sum _ room []
  simp_all [ringATR,calculateATR,trueRanges,startBar]

theorem atr_eq (enough : c.atrPeriod ≤ bars.length) :
    c.ringATR bars = some ((trueRanges (bars.drop (c.startBar bars))).sum / (c.atrPeriod + 1)) := by
  rw [ringATR_eq,calculateATR,if_neg (not_lt.mpr enough)]
  rfl

theorem ringATR_mean_iff (c : StopLossChecker) (bars : List OHLCV) (period : 1 ≤ c.atrPeriod)
    (enough : c.atrPeriod + 1 ≤ bars.length) :
    (c.ringATR bars = some (((trueRanges bars).drop (c.startBar bars)).sum / c.atrPeriod) ∧
      ∀ earlier, c.ringATR (earlier ++ bars.drop (c.startBar bars)) = c.ringATR bars) ↔
    ((trueRanges bars).drop (c.startBar bars)).sum = 0 := by
  have ranges : trueRanges (bars.drop (c.startBar bars)) = (trueRanges bars).drop (c.startBar bars) := by
    simp [trueRanges,drop_zipWith]
  rw [atr_eq (by omega),ranges]
  have nonzero : (c.atrPeriod : ℚ) ≠ 0 := by positivity
  constructor
  · rintro ⟨mean,-⟩
    rw [Option.some.injEq,div_eq_div_iff (by positivity) nonzero] at mean
    linarith
  · intro zero
    refine ⟨by simp [zero],fun earlier => ?_⟩
    have cut : c.startBar (earlier ++ bars.drop (c.startBar bars)) = earlier.length := by
      simp only [startBar,length_append,length_drop]
      omega
    rw [atr_eq (by simp [startBar]; omega),cut,drop_left,ranges]

def daily : StopLossChecker := ⟨1,2,2,2,2,3⟩

def bar (high low close : ℚ) : OHLCV := ⟨0,high,low,close,0,false,false⟩

theorem flatBars_mean : daily.ringATR [bar 9 9 9,bar 9 9 9] = some 0 :=
  ((ringATR_mean_iff daily [bar 9 9 9,bar 9 9 9] (by decide) (by decide)).mpr (by decide +kernel)).1.trans (by decide +kernel)

theorem oneRange_halved : trueRanges [bar 11 9 10,bar 11 9 10] = [2] ∧ daily.ringATR [bar 11 9 10,bar 11 9 10] = some 1 := by
  decide +kernel

def inferTrend (pos : Position) (currentPrice : ℚ) : Trend :=
  let pnlPercent := (currentPrice - pos.avgCost) / pos.avgCost
  if pnlPercent > 5/100 then .bull else if pnlPercent < -5/100 then .bear else .sideways

def inferVolatility (pos : Position) (atr : ℚ) : Volatility :=
  if pos.avgCost ≤ 0 ∨ atr ≤ 0 then .medium
  else if atr / pos.avgCost > 3/100 then .high
  else if atr / pos.avgCost < 15/1000 then .low
  else .medium

def atrAt (atrData : Book String ℚ) (pos : Position) : ℚ := atrOrDefault atrData[pos.symbol]? pos.avgCost

/-- Each position is checked under a regime inferred from its own price. -/
def checkStopLoss (c : StopLossChecker) (positions : List Position) (prices atrData : Book String ℚ) : List StopLossEvent :=
  positions.flatMap fun pos => c.checkPosition prices atrData
    ⟨inferTrend pos ((prices[pos.symbol]?).getD 0),inferVolatility pos (atrAt atrData pos),0,0⟩ pos.symbol pos

def Emits (c : StopLossChecker) (pos : Position) (prices atrData : Book String ℚ) (type : StopLossType) (price : ℚ) : Prop :=
  ∃ event ∈ c.checkStopLoss [pos] (prices.insert pos.symbol price) atrData, event.type = type

/-- The multiplier in use at a price, the thresholds multiplied out. -/
def multiplierAt (c : StopLossChecker) (pos : Position) (price : ℚ) : ℚ :=
  if price > pos.avgCost * (21/20) then c.bullMultiplier
  else if price < pos.avgCost * (19/20) then c.bearMultiplier
  else c.sidewaysMultiplier

variable {pos : Position} {prices atrData : Book String ℚ} {price : ℚ} (long : 0 < pos.quantity)

include long in
theorem emits_takeProfit : c.Emits pos prices atrData .takeProfit price ↔
    pos.avgCost + c.takeProfitMult * atrAt atrData pos ≤ price ∧ 0 < pos.avgCost + c.takeProfitMult * atrAt atrData pos := by
  simp [Emits,checkStopLoss,checkPosition,not_le.mpr long,calculateTakeProfitPrice,atrAt]
  grind

include long in
theorem emits_stopLoss (cost : 0 < pos.avgCost) : c.Emits pos prices atrData .stopLoss price ↔
    price ≤ pos.avgCost - c.multiplierAt pos price * atrAt atrData pos ∧
      0 < pos.avgCost - c.multiplierAt pos price * atrAt atrData pos := by
  have bull : (price - pos.avgCost) / pos.avgCost > 5/100 ↔ price > pos.avgCost * (21/20) := by
    rw [gt_iff_lt,lt_div_iff₀ cost]
    constructor <;> intro <;> linarith
  have bear : (price - pos.avgCost) / pos.avgCost < -5/100 ↔ price < pos.avgCost * (19/20) := by
    rw [div_lt_iff₀ cost]
    constructor <;> intro <;> linarith
  simp [Emits,checkStopLoss,checkPosition,not_le.mpr long,calculateStopLossPrice,atrAt]
  grind [getStopLossMultiplier,inferTrend,multiplierAt]

theorem stopLoss_monotone_iff (c : StopLossChecker) (pos : Position) (prices atrData : Book String ℚ)
    (long : 0 < pos.quantity) (cost : 0 < pos.avgCost)
    (nonneg : 0 ≤ c.bullMultiplier ∧ 0 ≤ c.bearMultiplier ∧ 0 ≤ c.sidewaysMultiplier ∧ 0 ≤ c.takeProfitMult) :
    ((∀ price lower, 0 < lower → lower < price → c.Emits pos prices atrData .stopLoss price →
        c.Emits pos prices atrData .stopLoss lower) ∧
      ∀ price, ¬ (c.Emits pos prices atrData .stopLoss price ∧ c.Emits pos prices atrData .takeProfit price)) ↔
    (c.sidewaysMultiplier * atrAt atrData pos ≤ pos.avgCost / 20 → c.bearMultiplier * atrAt atrData pos ≤ pos.avgCost / 20) ∧
      ¬ (c.sidewaysMultiplier = 0 ∧ c.takeProfitMult = 0) := by
  simp only [emits_stopLoss long cost,emits_takeProfit long]
  have positive : 0 < atrAt atrData pos := by
    unfold atrAt atrOrDefault
    split
    · positivity
    · linarith
  generalize atrAt atrData pos = atr at positive
  have bull := mul_nonneg nonneg.1 positive.le
  have sideways := mul_nonneg nonneg.2.2.1 positive.le
  have profit := mul_nonneg nonneg.2.2.2 positive.le
  constructor
  · rintro ⟨monotone,single⟩
    constructor
    · intro near
      by_contra! far
      -- a price just below the sideways band, above the bear stop
      obtain ⟨lower,above,less⟩ := exists_between
        (max_lt (by linarith) (by positivity) : max (pos.avgCost - c.bearMultiplier * atr) 0 < pos.avgCost * (19/20))
      grind [multiplierAt]
    · rintro ⟨still,free⟩
      refine single pos.avgCost ?_
      rw [free,multiplierAt,if_neg (by linarith),if_neg (by linarith)]
      grind
  · rintro ⟨near,apart⟩
    constructor
    · rintro price lower above less ⟨reached,-⟩
      have fires : lower ≤ pos.avgCost - c.multiplierAt pos lower * atr := by
        unfold multiplierAt at *
        split_ifs at reached ⊢ <;> first | linarith | linarith [near (by linarith)]
      exact ⟨fires,above.trans_le fires⟩
    · rintro price ⟨⟨fires,-⟩,gains,-⟩
      have still : price = pos.avgCost := by
        unfold multiplierAt at fires
        split_ifs at fires <;> linarith
      rw [still,multiplierAt,if_neg (by linarith),if_neg (by linarith)] at fires
      exact apart ⟨(mul_eq_zero_iff_right positive.ne').mp (by linarith),(mul_eq_zero_iff_right positive.ne').mp (by linarith)⟩

def hundred : Position := ⟨"600000.SH",100,100,0,0,0,0,0,0,0,100⟩

theorem daily_monotone : ¬ (daily.Emits hundred ∅ ∅ .stopLoss 96 ∧ daily.Emits hundred ∅ ∅ .takeProfit 96) :=
  ((stopLoss_monotone_iff daily hundred ∅ ∅ (by decide) (by decide) (by decide)).mpr (by decide +kernel)).2 96

def wideInBear : StopLossChecker := { daily with bearMultiplier := 3 }

/-- The stop at 96 fires at 95, and the one at 94 does not at 94.5. -/
theorem deeperLoss_disarms :
    wideInBear.checkStopLoss [hundred] ((∅ : Book String ℚ).insert "600000.SH" 95) ∅ = [⟨"600000.SH",.stopLoss,96,100⟩] ∧
    wideInBear.checkStopLoss [hundred] ((∅ : Book String ℚ).insert "600000.SH" 94.5) ∅ = [] := by
  decide +kernel

end StopLossChecker

inductive SizingError where
  | symbolRequired | portfolioRequired | nilRegime
deriving DecidableEq

namespace RiskManager

variable (rm : RiskManager)

def barsATR (ohlcv : List OHLCV) : Option ℚ :=
  if rm.stopLossChecker.atrPeriod ≤ ohlcv.length then rm.stopLossChecker.calculateATR ohlcv else none

/-- `CalculatePosition` on a regime pointer, where nil stands for a sideways market. -/
def sizeSingle (signal : Signal) (portfolio : Portfolio) (regime : Option MarketRegime) (currentPrice : ℚ)
    (ohlcv : List OHLCV) : Except SizingError PositionSize :=
  if signal.symbol = "" then .error .symbolRequired
  else if portfolio.totalValue ≤ 0 then .error .portfolioRequired
  else .ok (rm.positionSize signal portfolio.totalValue (regime.getD ⟨.sideways,.medium,0,0⟩) currentPrice (rm.barsATR ohlcv))

variable (signals : List Signal) (portfolio : Portfolio) (regime : Option MarketRegime) (currentPrices : Book String ℚ)
  (ohlcvData : Book String (List OHLCV))

def batchATR (symbol : String) : Option ℚ :=
  let atr := ((rm.stopLossChecker.atrFromOHLCV ohlcvData)[symbol]?).getD 0
  if 0 < atr then some atr else rm.barsATR ((ohlcvData[symbol]?).getD [])

/-- `CalculatePositionsBatch` on a regime pointer, which it reads before any signal. -/
def sizeBatch : Except SizingError (Book String PositionSize) :=
  if signals = [] then .ok ∅
  else if portfolio.totalValue ≤ 0 then .error .portfolioRequired
  else match regime with
    | none => .error .nilRegime
    | some regime => .ok (signals.foldl (fun results signal =>
        if signal.symbol = "" then results
        else results.insert signal.symbol (rm.positionSize signal portfolio.totalValue regime
          ((currentPrices[signal.symbol]?).getD 0) (rm.batchATR ohlcvData signal.symbol))) ∅)

variable {rm ohlcvData signals}

theorem barsATR_eq {ohlcv : List OHLCV} : rm.barsATR ohlcv = rm.stopLossChecker.calculateATR ohlcv := by
  unfold barsATR StopLossChecker.calculateATR
  grind

theorem batchATR_eq {symbol : String} : rm.batchATR ohlcvData symbol = rm.barsATR ((ohlcvData[symbol]?).getD []) := by
  unfold batchATR
  cases found : ohlcvData[symbol]? with
  | none => simp [StopLossChecker.atrFromOHLCV,found]
  | some =>
    simp [StopLossChecker.atrFromOHLCV,found,barsATR_eq]
    grind [StopLossChecker.calculateATR]

section
variable (rm) (regime : MarketRegime)

/-- On a regime that is there, both are what the engine calls. -/
theorem sizeSingle_toOption (signal : Signal) (currentPrice : ℚ) (ohlcv : List OHLCV) :
    (rm.sizeSingle signal portfolio (some regime) currentPrice ohlcv).toOption =
      rm.calculatePosition signal portfolio regime currentPrice ohlcv := by
  unfold sizeSingle calculatePosition
  split_ifs
  · rfl
  · rfl
  · rw [barsATR_eq]
    rfl

theorem sizeBatch_toOption :
    (rm.sizeBatch signals portfolio (some regime) currentPrices ohlcvData).toOption =
      rm.calculatePositionsBatch signals portfolio regime currentPrices ohlcvData := by
  unfold sizeBatch calculatePositionsBatch
  simp only [batchATR_eq,barsATR_eq]
  split_ifs <;> rfl

end

variable (named : ∀ signal ∈ signals, signal.symbol ≠ "") (distinct : (signals.map (·.symbol)).Nodup)

include named distinct in
theorem foldl_sized {size : Signal → PositionSize} {signal : Signal} (listed : signal ∈ signals) :
    (signals.foldl (fun results signal => if signal.symbol = "" then results else results.insert signal.symbol (size signal))
      (∅ : Book String PositionSize))[signal.symbol]? = some (size signal) := by
  induction signals using reverseRecOn with
  | nil => cases listed
  | append_singleton init last =>
    grind

/-- A batch sizes each of its signals as a single call would exactly when it is given a regime, or
has nothing to size. -/
theorem sizeBatch_single_iff (rm : RiskManager) (signals : List Signal) (valued : 0 < portfolio.totalValue)
    (named : ∀ signal ∈ signals, signal.symbol ≠ "") (distinct : (signals.map (·.symbol)).Nodup) :
    (∃ results, rm.sizeBatch signals portfolio regime currentPrices ohlcvData = .ok results ∧ ∀ signal ∈ signals,
      ∃ size, rm.sizeSingle signal portfolio regime ((currentPrices[signal.symbol]?).getD 0)
        ((ohlcvData[signal.symbol]?).getD []) = .ok size ∧ results[signal.symbol]? = some size) ↔
    regime.isSome ∨ signals = [] := by
  by_cases empty : signals = []
  · simp [empty,sizeBatch]
  cases regime with
  | none => simp [sizeBatch,empty,not_le.mpr valued]
  | some =>
    simp only [sizeBatch,sizeSingle,if_neg empty,if_neg (not_le.mpr valued),batchATR_eq]
    exact iff_of_true ⟨_,rfl,fun signal listed => ⟨_,if_neg (named signal listed),foldl_sized named distinct listed⟩⟩ (.inl rfl)

def tenth : RiskManager := ⟨1/10,1/5,0,StopLossChecker.daily,fun _ => none⟩

def buy : Signal := ⟨"600000.SH",0,.long,1,1,0,.market,.unset,0,[]⟩

def quotes : Book String ℚ := .ofList [("600000.SH",(10 : ℚ)),("688001.SH",50)]

def charts : Book String (List OHLCV) :=
  .ofList [("600000.SH",[StopLossChecker.bar 11 9 10,StopLossChecker.bar 12 9 10]),("688001.SH",[StopLossChecker.bar 51 49 50])]

theorem sidewaysBatch_single :
    let buys : List Signal := [buy,{ buy with symbol := "688001.SH", strength := 1/2 }]
    let account : Portfolio := ⟨100000,∅,100000,0⟩
    let regime : MarketRegime := ⟨.sideways,.medium,0,0⟩
    ∃ results, tenth.sizeBatch buys account (some regime) quotes charts = .ok results ∧ ∀ signal ∈ buys,
      ∃ size, tenth.sizeSingle signal account (some regime) ((quotes[signal.symbol]?).getD 0)
        ((charts[signal.symbol]?).getD []) = .ok size ∧ results[signal.symbol]? = some size := by
  intro buys account regime
  exact (sizeBatch_single_iff account (some regime) quotes tenth buys (by decide) (by decide) (by decide)).mpr (.inl rfl)

theorem nilRegime_batch : tenth.sizeBatch [buy] ⟨1000,∅,1000,0⟩ none ∅ ∅ = .error .nilRegime ∧
    (tenth.sizeSingle buy ⟨1000,∅,1000,0⟩ none 0 []).isOk := by
  decide +kernel

end RiskManager
end QuantTrading
