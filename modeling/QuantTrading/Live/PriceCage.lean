import QuantTrading.Live.OrderManager
import QuantTrading.Market

/-! The live price cage against the backtest's daily limits. Both start from the same product of
a previous close and a board's rate; the cage keeps four decimals of it, the backtest rounds
it to the cent, so they part where a bound falls between two cents.
-/
namespace QuantTrading

inductive CageReason where
  | nonPositivePrice
  | missingReference
  | limitUpViolation
  | limitDownViolation
  | cageViolation
deriving DecidableEq

structure PriceCageError where
  symbol : String
  board : Option Board
  direction : Option Direction
  (orderPrice prevClose limitUp limitDown reference cageFloor cageCeil : ℚ)
  reason : CageReason
deriving DecidableEq

structure ReferencePrice where
  (bestBid bestAsk last prevClose : ℚ)

def ReferencePrice.hasMinimum (r : ReferencePrice) : Bool := 0 < r.prevClose

structure CageValidator where
  overrideBoard : Option (String → Board)

def newCageValidator : CageValidator := ⟨none⟩

def round4 (x : ℚ) : ℚ := mathRound (x * 10 ^ 4) / 10 ^ 4

def approxEqual (a b : ℚ) : Bool := |a - b| < 1 / 10 ^ 4

namespace CageValidator

variable (v : CageValidator) (order : Order) (ref : ReferencePrice)

def board (symbol : String) : Board :=
  match v.overrideBoard with
  | none => Board.classifySymbol symbol
  | some resolve => if resolve symbol ≠ .unknown then resolve symbol else Board.classifySymbol symbol

def dailyLimitStep : Option PriceCageError :=
  if order.limitPrice ≤ 0 then some ⟨order.symbol,none,none,order.limitPrice,0,0,0,0,0,0,.nonPositivePrice⟩
  else if ¬ ref.hasMinimum then some ⟨order.symbol,none,none,order.limitPrice,0,0,0,0,0,0,.missingReference⟩
  else
    let board := v.board order.symbol
    let limit := board.dailyPriceLimit
    let limitUp := round4 (ref.prevClose * (1 + limit))
    let limitDown := round4 (ref.prevClose * (1 - limit))
    let violation (reason : CageReason) : PriceCageError :=
      ⟨order.symbol,board,order.direction,order.limitPrice,ref.prevClose,limitUp,limitDown,0,0,0,reason⟩
    if order.limitPrice > limitUp then some (violation .limitUpViolation)
    else if order.limitPrice < limitDown then some (violation .limitDownViolation)
    else none

def cageReference (direction : Direction) (ref : ReferencePrice) : ℚ :=
  match direction with
  | .long => if ref.bestAsk ≤ 0 then ref.last else ref.bestAsk
  | .short | .close => if ref.bestBid ≤ 0 then ref.last else ref.bestBid
  | .hold => ref.last

def cageStep : Option PriceCageError :=
  let board := v.board order.symbol
  let limit := board.dailyPriceLimit
  let limitUp := round4 (ref.prevClose * (1 + limit))
  let limitDown := round4 (ref.prevClose * (1 - limit))
  if ¬ board.hasCageRule then none
  else if approxEqual order.limitPrice limitUp || approxEqual order.limitPrice limitDown then none
  else
    let reference := cageReference order.direction ref
    if reference ≤ 0 then none
    else
      let floor := round4 (reference * (1 - board.cagePercent))
      let ceil := round4 (reference * (1 + board.cagePercent))
      if order.limitPrice < floor ∨ order.limitPrice > ceil then
        some ⟨order.symbol,board,order.direction,order.limitPrice,ref.prevClose,limitUp,limitDown,reference,floor,ceil,
          .cageViolation⟩
      else none

def validate (order : Option Order) (ref : ReferencePrice) : Option PriceCageError :=
  match order with
  | none => some ⟨"",none,none,0,0,0,0,0,0,0,.nonPositivePrice⟩
  | some order =>
    if order.orderType = .market then none
    else
      match v.dailyLimitStep order ref with
      | some refused => some refused
      | none => v.cageStep order ref

end CageValidator

theorem mathRound_intCast (n : ℤ) : mathRound n = n := by
  have half (m : ℤ) : ⌊(m : ℚ) + 1 / 2⌋ = m := by
    rw [Int.floor_eq_iff]
    constructor <;> linarith
  rw [mathRound]
  split
  · rw [← Int.cast_neg,half,neg_neg]
  · exact half n

/-- `math.Round` of a number of tenths, by integer division. -/
def roundTenths (a : ℤ) : ℤ := if a < 0 then -((-a + 5) / 10) else (a + 5) / 10

theorem mathRound_tenths (a : ℤ) : mathRound (a / 10) = roundTenths a := by
  have half (m : ℤ) : ⌊(m : ℚ) / 10 + 1 / 2⌋ = (m + 5) / 10 := by
    have joined : (m : ℚ) / 10 + 1 / 2 = ((m + 5 : ℤ) : ℚ) / ((10 : ℕ) : ℚ) := by
      push_cast
      ring
    rw [joined,Rat.floor_intCast_div_natCast]
    rfl
  have sign : (a : ℚ) / 10 < 0 ↔ a < 0 := by
    rw [div_lt_iff₀ (by norm_num)]
    exact_mod_cast Iff.rfl
  rw [mathRound,roundTenths]
  split
  · rename_i negative
    rw [if_pos (sign.mp negative),← neg_div,← Int.cast_neg,half]
  · rename_i nonneg
    rw [if_neg fun negative => nonneg (sign.mpr negative),half]

namespace Board

def limitTenths : Board → ℤ
  | chiNext | star => 2
  | bse => 3
  | _ => 1

theorem dailyPriceLimit_eq (board : Board) : board.dailyPriceLimit = board.limitTenths / 10 := by
  cases board <;> norm_num [dailyPriceLimit,limitTenths]

theorem limitTenths_cases (board : Board) : board.limitTenths = 1 ∨ board.limitTenths = 2 ∨ board.limitTenths = 3 := by
  cases board <;> simp [limitTenths]

end Board

variable (k t : ℤ)

theorem limitPrices_tenths : limitPrices (k / 100) (t / 10) =
      ((roundTenths (10 * k + t * k) : ℚ) / 100,(roundTenths (10 * k - t * k) : ℚ) / 100) := by
  have up : (k : ℚ) / 100 * (1 + t / 10) * 100 = ((10 * k + t * k : ℤ) : ℚ) / 10 := by
    push_cast
    ring
  have down : (k : ℚ) / 100 * (1 - t / 10) * 100 = ((10 * k - t * k : ℤ) : ℚ) / 10 := by
    push_cast
    ring
  rw [limitPrices,roundToCent,roundToCent,up,down,mathRound_tenths,mathRound_tenths]

theorem round4_tenths (a : ℤ) : round4 ((a : ℚ) / 1000) = a / 1000 := by
  have scaled : (a : ℚ) / 1000 * 10 ^ 4 = ((a * 10 : ℤ) : ℚ) := by
    push_cast
    ring
  rw [round4,scaled,mathRound_intCast]
  push_cast
  ring

theorem dailyLimitStep_accepts {order : Order} {ref : ReferencePrice} {n : ℤ}
    (price : order.limitPrice = n / 100) (prevClose : ref.prevClose = k / 100) :
    newCageValidator.dailyLimitStep order ref = none ↔
      0 < n ∧ 0 < k ∧ 10 * n ≤ 10 * k + (Board.classifySymbol order.symbol).limitTenths * k ∧
        10 * k - (Board.classifySymbol order.symbol).limitTenths * k ≤ 10 * n := by
  have board : newCageValidator.board order.symbol = Board.classifySymbol order.symbol := rfl
  generalize Board.classifySymbol order.symbol = classified at board
  have positive (m : ℤ) : (m : ℚ) / 100 ≤ 0 ↔ ¬ 0 < m := by
    rw [div_le_iff₀ (by norm_num),zero_mul,not_lt]
    exact_mod_cast Iff.rfl
  have up : (k : ℚ) / 100 * (1 + classified.limitTenths / 10) = ((10 * k + classified.limitTenths * k : ℤ) : ℚ) / 1000 := by
    push_cast
    ring
  have down : (k : ℚ) / 100 * (1 - classified.limitTenths / 10) = ((10 * k - classified.limitTenths * k : ℤ) : ℚ) / 1000 := by
    push_cast
    ring
  have tenths : (n : ℚ) / 100 = ((10 * n : ℤ) : ℚ) / 1000 := by
    push_cast
    ring
  have less (a b : ℤ) : (a : ℚ) / 1000 < (b : ℚ) / 1000 ↔ ¬ b ≤ a := by
    rw [div_lt_div_iff_of_pos_right (by norm_num),Int.cast_lt,not_le]
  simp only [CageValidator.dailyLimitStep,board,price,prevClose,classified.dailyPriceLimit_eq,up,down,round4_tenths]
  have minimum : ref.hasMinimum = true ↔ 0 < k := by
    rw [ReferencePrice.hasMinimum,prevClose,decide_eq_true_iff,← not_le,positive,not_not]
  simp only [positive,minimum]
  simp only [tenths,gt_iff_lt,less]
  by_cases priced : 0 < n
  · by_cases known : 0 < k
    · by_cases under : 10 * n ≤ 10 * k + classified.limitTenths * k
      · by_cases floor : 10 * k - classified.limitTenths * k ≤ 10 * n
        · simp [priced,known,under,floor]
        · simp [priced,known,under,floor]
      · simp [priced,known,under]
    · simp [priced,known]
  · simp [priced]

theorem roundTenths_add (k m : ℤ) :
    roundTenths (10 * k + m) = if 10 * k + m < 0 then k - (5 - m) / 10 else k + (m + 5) / 10 := by
  rw [roundTenths]
  split <;> omega

/-- The bounds of a close of `k` cents, `m` tenths of a cent away from it on either side. -/
theorem roundTenths_agree {k m : ℤ} (sides : (0 ≤ k ∧ k ≤ m ∧ m ≤ 3 * k) ∨ (k < 0 ∧ 3 * k ≤ m ∧ m ≤ k)) :
    (∀ n : ℤ, (0 < n ∧ 0 < k ∧ 10 * n ≤ 10 * k + m ∧ 10 * k - m ≤ 10 * n) ↔
        roundTenths (10 * k - m) ≤ n ∧ n ≤ roundTenths (10 * k + m)) ↔
      (0 < k ∧ m % 10 < 5) ∨ (k < 0 ∧ 5 ≤ -m) := by
  rw [sub_eq_add_neg,roundTenths_add,roundTenths_add]
  obtain ⟨nonneg,least,most⟩ | ⟨negative,most,least⟩ := sides
  · constructor
    · intro agree
      -- The upper bound of the backtest is the price to look at.
      have upper := agree (k + (m + 5) / 10)
      omega
    · intro apart n
      omega
  · constructor
    · intro agree
      have lower := agree (k - (5 - -m) / 10)
      omega
    · intro apart n
      omega

/-- For a seasoned symbol of a known board without a risk warning, a limit order is within the
cage's daily limits exactly when it is within the backtest's, at every price on the grid, if
and only if the backtest rounds neither bound to a cent beyond it, or both refuse every price. -/
theorem dailyLimits_agree_iff (input : PriceLimitInput) (cfg : PriceLimitConfig) (newStockDays : ℤ) (k : ℤ)
    (classified : Board.classifySymbol input.symbol ≠ .unknown) (sound : isRiskWarningName input.name = false)
    (seasoned : newStockDays ≤ 0 ∨ newStockDays ≤ input.tradeDays) :
    (∀ (n : ℤ) (order : Order) (ref : ReferencePrice), order.symbol = input.symbol → order.orderType = .limit →
        order.limitPrice = n / 100 → ref.prevClose = k / 100 → (newCageValidator.dailyLimitStep order ref = none ↔
          (limitPrices ref.prevClose (resolvePriceLimit input cfg newStockDays)).2 ≤ order.limitPrice ∧
            order.limitPrice ≤ (limitPrices ref.prevClose (resolvePriceLimit input cfg newStockDays)).1)) ↔
      (0 < k ∧ (Board.classifySymbol input.symbol).limitTenths * k % 10 < 5) ∨
        (k < 0 ∧ 5 ≤ -((Board.classifySymbol input.symbol).limitTenths * k)) := by
  have rate : resolvePriceLimit input cfg newStockDays = (Board.classifySymbol input.symbol).limitTenths / 10 := by
    have old : ¬ (0 < newStockDays ∧ input.tradeDays < newStockDays ∧ 0 < cfg.new) := by omega
    rw [resolvePriceLimit,if_neg old]
    simp only [sound,Bool.false_eq_true,if_false,classified,false_and]
    exact Board.dailyPriceLimit_eq _
  have cents (a b : ℤ) : (a : ℚ) / 100 ≤ (b : ℚ) / 100 ↔ a ≤ b := by
    rw [div_le_div_iff_of_pos_right (by norm_num)]
    exact_mod_cast Iff.rfl
  have sides (t : ℤ) (rate : t = 1 ∨ t = 2 ∨ t = 3) :
      (0 ≤ k ∧ k ≤ t * k ∧ t * k ≤ 3 * k) ∨ (k < 0 ∧ 3 * k ≤ t * k ∧ t * k ≤ k) := by
    obtain rfl | rfl | rfl := rate
    all_goals omega
  rw [← roundTenths_agree (sides _ (Board.limitTenths_cases _))]
  constructor
  · intro agree n
    let order : Order := ⟨input.symbol,.long,.limit,0,n / 100,0,0,0,.unset⟩
    let ref : ReferencePrice := ⟨0,0,0,k / 100⟩
    have here := agree n order ref rfl rfl rfl rfl
    rw [dailyLimitStep_accepts k rfl rfl,rate,limitPrices_tenths,cents,cents] at here
    exact here
  · intro agree n order ref symbol _ price prevClose
    rw [dailyLimitStep_accepts k price prevClose,rate,price,prevClose,limitPrices_tenths,cents,cents,symbol]
    exact agree n

/-- At a close of 10.00 on the main board both limits are whole cents. -/
theorem dailyLimits_agree_ten :
    let input : PriceLimitInput := ⟨"600000.SH","Bank",1000,0⟩
    let bounds := limitPrices 10 (resolvePriceLimit input ⟨10/100,10/100,5/100,20/100⟩ 60)
    newCageValidator.dailyLimitStep ⟨"600000.SH",.long,.limit,100,11,0,0,0,.unset⟩ ⟨0,0,0,10⟩ = none ↔
      bounds.2 ≤ 11 ∧ 11 ≤ bounds.1 :=
  (dailyLimits_agree_iff ⟨"600000.SH","Bank",1000,0⟩ ⟨10/100,10/100,5/100,20/100⟩ 60 1000 (by decide) (by decide)
    (.inr (by decide))).mpr (.inl (by decide)) 1100 ⟨"600000.SH",.long,.limit,100,11,0,0,0,.unset⟩ ⟨0,0,0,10⟩ rfl rfl
    (by norm_num) (by norm_num)

/-- At a close of 10.05 the backtest's upper limit is 11.06, which the cage refuses: there the
limit is 11.055. -/
theorem dailyLimits_disagree :
    let input : PriceLimitInput := ⟨"600000.SH","Bank",1000,0⟩
    let order : Order := ⟨"600000.SH",.long,.limit,100,1106 / 100,0,0,0,.unset⟩
    (newCageValidator.dailyLimitStep order ⟨0,0,0,1005 / 100⟩).map (·.reason) = some .limitUpViolation ∧
      limitPrices (1005 / 100) (resolvePriceLimit input ⟨10/100,10/100,5/100,20/100⟩ 60) = (1106 / 100,905 / 100) := by
  decide +kernel

namespace LiveEngine
open CageValidator

/-- What the cage reads of an order. -/
def LiveOrder.caged (order : LiveOrder) : Order :=
  ⟨order.symbol,order.direction,order.orderType,order.quantity,order.limitPrice,order.timestamp,0,0,.unset⟩

def cageRejects (priceCage : Option CageValidator) (priceRefProvider : Option (String → ReferencePrice))
    (order : LiveOrder) : Bool :=
  match priceCage, priceRefProvider with
  | some cage, some provider => (cage.validate order.caged (provider order.symbol)).isSome
  | _, _ => false

/-- A limit order outside the daily limits, or a main-board one at neither limit and outside the
cage around the reference of its side. -/
def OutOfBounds (v : CageValidator) (order : LiveOrder) (ref : ReferencePrice) : Prop :=
  let board := v.board order.symbol
  let limitUp := round4 (ref.prevClose * (1 + board.dailyPriceLimit))
  let limitDown := round4 (ref.prevClose * (1 - board.dailyPriceLimit))
  let reference := cageReference order.direction ref
  order.orderType = .limit ∧
    (¬ (limitDown ≤ order.limitPrice ∧ order.limitPrice ≤ limitUp) ∨
      board.hasCageRule ∧ order.limitPrice ≠ limitUp ∧ order.limitPrice ≠ limitDown ∧
        ¬ (round4 (reference * (1 - 2/100)) ≤ order.limitPrice ∧ order.limitPrice ≤ round4 (reference * (1 + 2/100))))

/-- Whatever the reference, submission turns the order away for its bounds only. -/
def BoundsOnly (v : CageValidator) (order : LiveOrder) : Prop :=
  ∀ (config : ExecutionConfig) (s : State) (answer : Answer) (provider : String → ReferencePrice),
    0 < (provider order.symbol).prevClose → answer.cageRejects = cageRejects v provider order →
    (advance config s (.submitOrder order) answer).2 = none → OutOfBounds v order (provider order.symbol)

variable {v : CageValidator} {order : LiveOrder}

theorem validate_accepts {ref : ReferencePrice} (limit : order.orderType = .limit) (priced : 0 < order.limitPrice)
    (known : 0 < ref.prevClose) (bounded : ¬ OutOfBounds v order ref) : v.validate order.caged ref = none := by
  have self (x : ℚ) : approxEqual x x = true := by norm_num [approxEqual]
  simp only [OutOfBounds,limit,true_and,not_or,not_not] at bounded
  simp only [validate,dailyLimitStep,cageStep,LiveOrder.caged,limit,ReferencePrice.hasMinimum,Board.cagePercent]
  grind

theorem submitOrder_stops (shaped : validateOrderShape order = .ok ()) {config : ExecutionConfig} {s : State} {answer : Answer} :
    (advance config s (.submitOrder order) answer).2 = none ↔ answer.cageRejects = true := by
  simp only [advance,shaped]
  cases answer.cageRejects <;> cases answer.brokerSubmits <;> simp

/-- Beside a close of a thousandth of a cent the upper limit rounds to zero. -/
theorem round4_least (board : Board) : round4 (1/10^5 * (1 + board.dailyPriceLimit)) = 0 := by
  cases board <;> decide +kernel

/-- Of the orders whose shape is accepted these are the market and the limit orders. -/
theorem boundsOnly_iff (v : CageValidator) (order : LiveOrder) (shaped : validateOrderShape order = .ok ()) :
    BoundsOnly v order ↔ order.orderType = .market ∨ order.orderType = .limit := by
  constructor
  · intro law
    by_contra other
    rw [not_or] at other
    have rejected : cageRejects v (some fun _ => ⟨0,0,0,1/10^5⟩) order = true := by
      simp only [cageRejects,validate,dailyLimitStep,LiveOrder.caged,ReferencePrice.hasMinimum,round4_least]
      grind
    have outside := law ⟨0,0⟩ (started ∅) ⟨true,"",0,none,false,none⟩ _ (by norm_num) rejected.symm ((submitOrder_stops shaped).mpr rfl)
    exact other.2 outside.1
  · intro kind config s answer provider known answered stopped
    rw [submitOrder_stops shaped,answered] at stopped
    obtain market | limit := kind
    · simp [cageRejects,validate,LiveOrder.caged,market] at stopped
    · by_contra bounded
      have priced : 0 < order.limitPrice := by
        simp only [validateOrderShape,limit] at shaped
        grind
      simp [cageRejects,validate_accepts limit priced known bounded] at stopped

theorem limitOrder_boundsOnly : BoundsOnly newCageValidator ⟨"","600000.SH",.long,.limit,100,10,0,0,0,0,0,.pending⟩ :=
  (boundsOnly_iff _ _ rfl).mpr (.inr rfl)

/-- A stop order needs no limit price to have its shape accepted, but the cage refuses it without one. -/
theorem stopOrder_refused :
    let order : LiveOrder := ⟨"","600000.SH",.close,.stop,100,0,950/100,0,0,0,0,.pending⟩
    (validateOrderShape order).isOk ∧
      (newCageValidator.validate order.caged ⟨10,10,10,10⟩).map (·.reason) = some .nonPositivePrice := by
  decide +kernel

end LiveEngine

end QuantTrading
