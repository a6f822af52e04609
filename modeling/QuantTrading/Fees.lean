import QuantTrading.Domain

/-! Fee schedule of an A-share trade: the date-segmented stamp tax, the commission
floor and the shared fee breakdown, with the trading configuration they come from.
-/
namespace QuantTrading

namespace Fees

def defaultCommissionRate : ℚ := 3/10000
def defaultStampTaxRate : ℚ := 5/10000
def defaultStampTaxRateBefore : ℚ := 1/1000
def defaultTransferFeeRate : ℚ := 1/100000
def defaultMinCommission : ℚ := 5
def defaultSlippageRate : ℚ := 1/10000
def fixedSlippageRate : ℚ := 1/1000

def stampTaxCutDate : Time := Time.date 2023 8 28

def stampTaxRateFor (asOf : Time) (current before : ℚ) : ℚ :=
  let before := if before ≤ 0 then defaultStampTaxRateBefore else before
  let current := if current ≤ 0 then defaultStampTaxRate else current
  if ¬ asOf.isZero ∧ asOf < stampTaxCutDate then before else current

theorem stampTaxRateFor_pos (asOf : Time) (current before : ℚ) : 0 < stampTaxRateFor asOf current before := by
  have present : 0 < if current ≤ 0 then defaultStampTaxRate else current := by
    split
    · norm_num [defaultStampTaxRate]
    · linarith
  have past : 0 < if before ≤ 0 then defaultStampTaxRateBefore else before := by
    split
    · norm_num [defaultStampTaxRateBefore]
    · linarith
  simp only [stampTaxRateFor]
  split
  · exact past
  · exact present

end Fees

structure AShareFees where
  (commissionRate stampTaxRate transferFeeRate minCommission slippageRate : ℚ)
deriving DecidableEq

structure FeeBreakdown where
  (commission transferFee stampTax : ℚ)
deriving DecidableEq

def FeeBreakdown.total (f : FeeBreakdown) : ℚ := f.commission + f.transferFee + f.stampTax

def computeFees (tradeValue : ℚ) (isSell : Bool) (f : AShareFees) : FeeBreakdown :=
  if tradeValue ≤ 0 then ⟨0,0,0⟩
  else
    ⟨max (tradeValue * f.commissionRate) f.minCommission,
      tradeValue * f.transferFeeRate,
      if isSell then tradeValue * f.stampTaxRate else 0⟩

variable (tradeValue : ℚ) (f : AShareFees)

@[simp] theorem computeFees_stampTax_buy : (computeFees tradeValue false f).stampTax = 0 := by
  unfold computeFees
  split <;> rfl

@[simp] theorem computeFees_commission_sell :
    (computeFees tradeValue true f).commission = (computeFees tradeValue false f).commission := by
  unfold computeFees
  split <;> rfl

@[simp] theorem computeFees_transferFee_sell :
    (computeFees tradeValue true f).transferFee = (computeFees tradeValue false f).transferFee := by
  unfold computeFees
  split <;> rfl

theorem computeFees_stampTax_sell_eq_zero_iff {f : AShareFees}
    (positive : 0 < f.stampTaxRate) :
    (computeFees tradeValue true f).stampTax = 0 ↔ tradeValue ≤ 0 := by
  unfold computeFees
  split
  · simp_all
  · rename_i valued
    simp only [↓reduceIte,mul_eq_zero]
    constructor
    · rintro (zero | zero)
      · exact zero.le
      · exact absurd zero positive.ne'
    · exact fun bound => absurd bound valued

structure PriceLimitConfig where
  (normal st stBefore new : ℚ)
deriving DecidableEq

structure TradingConfig where
  (stampTaxRate stampTaxRateBefore minCommission transferFeeRate : ℚ)
  priceLimit : PriceLimitConfig
  newStockDays : Int
deriving DecidableEq

def defaultTradingConfig : TradingConfig where
  stampTaxRate := Fees.defaultStampTaxRate
  stampTaxRateBefore := Fees.defaultStampTaxRateBefore
  minCommission := Fees.defaultMinCommission
  transferFeeRate := Fees.defaultTransferFeeRate
  priceLimit := ⟨1/10,1/10,5/100,2/10⟩
  newStockDays := 60

/-- `settlement.IsFlat`: the quantity is below the flat threshold of 1e-8 shares. -/
def isFlat (quantity : ℚ) : Bool := |quantity| < 1/100000000

theorem isFlat_eq_true (quantity : ℚ) : isFlat quantity = true ↔ |quantity| < 1/100000000 := by
  simp [isFlat]

@[simp] theorem isFlat_zero : isFlat 0 = true := by
  simp [isFlat]

theorem isFlat_intCast (n : ℤ) : isFlat (n : ℚ) = true ↔ n = 0 := by
  rw [isFlat_eq_true]
  constructor
  · intro small
    have bound : |n| < 1 := by
      have : ((|n| : ℤ) : ℚ) < 1 := by
        push_cast
        linarith
      exact_mod_cast this
    exact Int.abs_lt_one_iff.mp bound
  · rintro rfl
    norm_num

end QuantTrading
