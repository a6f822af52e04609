import Mathlib.Data.Int.Log
import Mathlib.Data.Rat.Floor
import Mathlib.Algebra.Order.Floor.Semifield
import Mathlib.Algebra.Order.Field.Power
import Mathlib.Tactic.Positivity

/-! The non-negative numbers of the binary64 format as the rationals they stand for: rounding
to the nearest of them, and the shortest decimal that is rounded to a given one.
-/
namespace Library

def roundHalfEven (q : ℚ) : Int :=
  let below := ⌊q⌋
  if q - below < 1 / 2 then below
  else if 1 / 2 < q - below then below + 1
  else if below % 2 = 0 then below else below + 1

theorem roundHalfEven_intCast (n : Int) : roundHalfEven n = n := by
  simp [roundHalfEven]

theorem floor_le_roundHalfEven (q : ℚ) : ⌊q⌋ ≤ roundHalfEven q := by
  simp only [roundHalfEven]
  split_ifs <;> omega

theorem roundHalfEven_le_ceil (q : ℚ) : roundHalfEven q ≤ ⌈q⌉ := by
  by_cases whole : (⌊q⌋ : ℚ) = q
  · rw [← whole,roundHalfEven_intCast,Int.ceil_intCast]
  · have above : ⌊q⌋ < ⌈q⌉ := Int.lt_ceil.mpr (lt_of_le_of_ne (Int.floor_le q) whole)
    simp only [roundHalfEven]
    split_ifs <;> omega

namespace Binary64

def unit (q : ℚ) : Int := max (Int.log 2 q) (-1022) - 52

def ulp (q : ℚ) : ℚ := 2 ^ unit q

def ofRat (q : ℚ) : Option ℚ :=
  let number := roundHalfEven (q / ulp q) * ulp q
  if number < 2 ^ 1024 then some number else none

theorem ulp_pos (q : ℚ) : 0 < ulp q := by
  rw [ulp]
  positivity

theorem ofRat_eq_some {q number : ℚ} :
    ofRat q = some number ↔ number < 2 ^ 1024 ∧ roundHalfEven (q / ulp q) * ulp q = number := by
  simp only [ofRat,Option.ite_none_right_eq_some,Option.some.injEq]
  constructor
  · rintro ⟨small,rfl⟩
    exact ⟨small,rfl⟩
  · rintro ⟨small,rfl⟩
    exact ⟨small,rfl⟩

theorem ofRat_nonneg {q number : ℚ} (nonneg : 0 ≤ q) (rounded : ofRat q = some number) : 0 ≤ number := by
  obtain ⟨-,rfl⟩ := ofRat_eq_some.mp rounded
  have below : 0 ≤ ⌊q / ulp q⌋ := Int.floor_nonneg.mpr (div_nonneg nonneg (ulp_pos q).le)
  have integer : 0 ≤ roundHalfEven (q / ulp q) := below.trans (floor_le_roundHalfEven _)
  exact mul_nonneg (by exact_mod_cast integer) (ulp_pos q).le

theorem ofRat_of_multiple {q : ℚ} {k : Int} (multiple : q = k * ulp q) (small : q < 2 ^ 1024) : ofRat q = some q := by
  refine ofRat_eq_some.mpr ⟨small,?_⟩
  have scaled : q / ulp q = k := by
    rw [div_eq_iff (ulp_pos q).ne']
    exact multiple
  rw [scaled,roundHalfEven_intCast]
  exact multiple.symm

theorem significand_le (q : ℚ) : roundHalfEven (q / ulp q) ≤ 2 ^ 53 := by
  have scaled : q / ulp q < 2 ^ 53 := by
    have below := Int.lt_zpow_succ_log_self (b := 2) (by norm_num) q
    have exponent : Int.log 2 q + 1 ≤ 53 + unit q := by
      rw [unit]
      omega
    rw [div_lt_iff₀ (ulp_pos q),ulp,← zpow_natCast,← zpow_add₀ (by norm_num)]
    exact below.trans_le (zpow_le_zpow_right₀ (by norm_num) exponent)
  exact (roundHalfEven_le_ceil _).trans (Int.ceil_le.mpr (by exact_mod_cast scaled.le))

theorem ofRat_ofRat {q number : ℚ} (nonneg : 0 ≤ q) (rounded : ofRat q = some number) :
    ofRat number = some number := by
  obtain ⟨small,same⟩ := ofRat_eq_some.mp rounded
  have least : -1074 ≤ unit q := by
    rw [unit]
    omega
  rcases (ofRat_nonneg nonneg rounded).eq_or_lt with zero | positive
  · exact ofRat_of_multiple (k := 0) (by simp [← zero]) small
  · rcases (significand_le q).lt_or_eq with fits | carried
    · -- The unit of the number divides the one it was rounded to.
      have below : number < 2 ^ (53 + unit q) := by
        rw [← same,zpow_add₀ (by norm_num)]
        exact mul_lt_mul_of_pos_right (by exact_mod_cast fits) (ulp_pos q)
      have magnitude : Int.log 2 number < 53 + unit q :=
        (Int.lt_zpow_iff_log_lt (b := 2) (by norm_num) positive).mp (by exact_mod_cast below)
      have finer : 0 ≤ unit q - unit number := by
        have own : unit number = max (Int.log 2 number) (-1022) - 52 := rfl
        omega
      have divides : ulp q = 2 ^ (unit q - unit number).toNat * ulp number := by
        rw [ulp,ulp,← zpow_natCast,← zpow_add₀ (by norm_num),Int.toNat_of_nonneg finer,sub_add_cancel]
      refine ofRat_of_multiple (k := roundHalfEven (q / ulp q) * 2 ^ (unit q - unit number).toNat) ?_ small
      push_cast
      rw [mul_assoc,← divides,same]
    · have value : number = 2 ^ (53 + unit q) := by
        rw [← same,carried,ulp,zpow_add₀ (by norm_num)]
        norm_cast
      have magnitude : Int.log 2 number = 53 + unit q := by
        rw [value]
        exact Int.log_zpow (R := ℚ) (b := 2) (by norm_num) (53 + unit q)
      have coarser : unit number = unit q + 1 := by
        rw [unit]
        omega
      refine ofRat_of_multiple (k := 2 ^ 52) ?_ small
      rw [ulp,coarser,value,show 53 + unit q = 52 + (unit q + 1) by omega,zpow_add₀ (by norm_num)]
      norm_cast

end Binary64

structure Decimal where
  mantissa : Nat
  exponent : Int

namespace Decimal
open Binary64 List
open Int (log toNat_of_nonneg)

def value (d : Decimal) : ℚ := d.mantissa * 10 ^ d.exponent

/-- The decimal m · 10 ^ (log x - n + 1); a carry into one more digit leaves a single one. -/
def ofDigits (x : ℚ) (n : Nat) (m : Int) : Decimal :=
  if m = 10 ^ n then ⟨1,log 10 x + 1⟩ else ⟨m.toNat,log 10 x - n + 1⟩

def around (x : ℚ) (n : Nat) : List Decimal :=
  let scaled := x / 10 ^ (log 10 x - n + 1)
  let nearest := roundHalfEven scaled
  let other := if nearest = ⌊scaled⌋ then ⌈scaled⌉ else ⌊scaled⌋
  [ofDigits x n nearest,ofDigits x n other]

def exactDigits (x : ℚ) : Nat := (log 10 x + 1 + (-unit x).toNat).toNat

def shortest (x : ℚ) : Decimal :=
  ((range (exactDigits x)).findSome? fun i => (around x (i + 1)).find? fun d => ofRat d.value = some x).getD ⟨0,0⟩

theorem value_ofDigits (x : ℚ) (n : Nat) {m : Int} (nonneg : 0 ≤ m) :
    (ofDigits x n m).value = m * 10 ^ (log 10 x - n + 1) := by
  rw [ofDigits]
  split
  · rename_i carried
    rw [value,carried]
    push_cast
    rw [one_mul,← zpow_natCast,← zpow_add₀ (by norm_num)]
    congr 1
    ring
  · have cast : ((m.toNat : ℕ) : ℚ) = m := by exact_mod_cast toNat_of_nonneg nonneg
    rw [value,cast]

variable {x : ℚ}

theorem scaled_bounds (pos : 0 < x) (n : Nat) :
    10 ^ n ≤ ⌊x / 10 ^ (log 10 x - (n + 1 : ℕ) + 1)⌋ ∧ ⌈x / 10 ^ (log 10 x - (n + 1 : ℕ) + 1)⌉ ≤ 10 ^ (n + 1) := by
  have least := Int.zpow_log_le_self (b := 10) (by norm_num) pos
  have most := Int.lt_zpow_succ_log_self (b := 10) (by norm_num) x
  push_cast at least most
  rw [Int.le_floor,Int.ceil_le,le_div_iff₀ (by positivity),div_le_iff₀ (by positivity)]
  push_cast
  rw [← zpow_natCast,← zpow_natCast,← zpow_add₀ (by norm_num),← zpow_add₀ (by norm_num)]
  constructor
  · convert least using 2
    ring
  · convert most.le using 2
    push_cast
    ring

theorem around_bounds (pos : 0 < x) {n : Nat} {d : Decimal} (next : d ∈ around x (n + 1)) :
    10 ^ log 10 x ≤ d.value ∧ d.value ≤ 10 ^ (log 10 x + 1) := by
  obtain ⟨least,most⟩ := scaled_bounds pos n
  set scaled := x / 10 ^ (log 10 x - (n + 1 : ℕ) + 1) with definition
  have between : ∃ m : Int, ⌊scaled⌋ ≤ m ∧ m ≤ ⌈scaled⌉ ∧ d = ofDigits x (n + 1) m := by
    simp only [around,← definition,mem_cons,not_mem_nil,or_false] at next
    rcases next with rfl | rfl
    · exact ⟨_,floor_le_roundHalfEven _,roundHalfEven_le_ceil _,rfl⟩
    · refine ⟨_,?_,?_,rfl⟩
      · split
        · exact Int.floor_le_ceil _
        · exact le_rfl
      · split
        · exact le_rfl
        · exact Int.floor_le_ceil _
  obtain ⟨m,low,high,rfl⟩ := between
  have lower : (10 : ℤ) ^ n ≤ m := least.trans low
  have upper : m ≤ (10 : ℤ) ^ (n + 1) := high.trans most
  have step : (0 : ℚ) < 10 ^ (log 10 x - (n + 1 : ℕ) + 1) := by positivity
  rw [value_ofDigits x (n + 1) ((by positivity : (0 : ℤ) ≤ 10 ^ n).trans lower)]
  constructor
  · have exponent : log 10 x = n + (log 10 x - (n + 1 : ℕ) + 1) := by
      push_cast
      ring
    calc (10 : ℚ) ^ log 10 x = 10 ^ n * 10 ^ (log 10 x - (n + 1 : ℕ) + 1) := by
          rw [← zpow_natCast,← zpow_add₀ (by norm_num),← exponent]
      _ ≤ m * 10 ^ (log 10 x - (n + 1 : ℕ) + 1) := by
          exact mul_le_mul_of_nonneg_right (by exact_mod_cast lower) step.le
  · have exponent : log 10 x + 1 = (n + 1 : ℕ) + (log 10 x - (n + 1 : ℕ) + 1) := by
      ring
    calc (m : ℚ) * 10 ^ (log 10 x - (n + 1 : ℕ) + 1)
        ≤ 10 ^ (n + 1) * 10 ^ (log 10 x - (n + 1 : ℕ) + 1) := by
          exact mul_le_mul_of_nonneg_right (by exact_mod_cast upper) step.le
      _ = 10 ^ (log 10 x + 1) := by
          rw [← zpow_natCast,← zpow_add₀ (by norm_num),← exponent]

theorem exists_scaled_eq (own : ofRat x = some x) : ∃ j : Int, x * 10 ^ (-unit x).toNat = j := by
  obtain ⟨-,multiple⟩ := ofRat_eq_some.mp own
  rcases le_total 0 (unit x) with large | small
  · refine ⟨roundHalfEven (x / ulp x) * 2 ^ (unit x).toNat,?_⟩
    rw [Int.toNat_of_nonpos (by omega),pow_zero,mul_one]
    nth_rewrite 1 [← multiple]
    push_cast
    rw [← zpow_natCast,toNat_of_nonneg large,ulp]
  · refine ⟨roundHalfEven (x / ulp x) * 5 ^ (-unit x).toNat,?_⟩
    nth_rewrite 1 [← multiple]
    have cancels : ulp x * 2 ^ (-unit x).toNat = 1 := by
      rw [ulp,← zpow_natCast,← zpow_add₀ (by norm_num),toNat_of_nonneg (by omega),add_neg_cancel,zpow_zero]
    calc roundHalfEven (x / ulp x) * ulp x * 10 ^ (-unit x).toNat
        = roundHalfEven (x / ulp x) * (ulp x * 2 ^ (-unit x).toNat) * 5 ^ (-unit x).toNat := by
          rw [show (10 : ℚ) = 2 * 5 by norm_num,mul_pow]
          ring
      _ = ((roundHalfEven (x / ulp x) * 5 ^ (-unit x).toNat : ℤ) : ℚ) := by
          rw [cancels]
          push_cast
          ring

theorem exact_around (pos : 0 < x) (own : ofRat x = some x) :
    0 < exactDigits x ∧ ∃ d ∈ around x (exactDigits x), d.value = x := by
  obtain ⟨j,integer⟩ := exists_scaled_eq own
  have positive : 0 < j := by
    have scaled : (0 : ℚ) < j := by
      rw [← integer]
      positivity
    exact_mod_cast scaled
  have magnitude : -((-unit x).toNat : ℤ) ≤ log 10 x := by
    refine (Int.zpow_le_iff_le_log (b := 10) (by norm_num) pos).mp ?_
    rw [zpow_neg,zpow_natCast,inv_le_iff_one_le_mul₀ (by positivity)]
    push_cast
    rw [integer]
    exact_mod_cast positive
  have digits : (exactDigits x : ℤ) = log 10 x + 1 + (-unit x).toNat := by
    rw [exactDigits,toNat_of_nonneg (by omega)]
  have scaled : x / 10 ^ (log 10 x - exactDigits x + 1) = j := by
    rw [← integer,show log 10 x - exactDigits x + 1 = -((-unit x).toNat : ℤ) by omega,zpow_neg,zpow_natCast,
      div_inv_eq_mul]
  refine ⟨by omega,ofDigits x (exactDigits x) j,?_,?_⟩
  · rw [around,scaled,roundHalfEven_intCast]
    exact mem_cons_self
  · rw [value_ofDigits x _ positive.le,← scaled,div_mul_cancel₀ _ (by positivity)]

theorem shortest_spec (pos : 0 < x) (own : ofRat x = some x) :
    ofRat (shortest x).value = some x ∧ 10 ^ log 10 x ≤ (shortest x).value ∧
      (shortest x).value ≤ 10 ^ (log 10 x + 1) := by
  cases search : (range (exactDigits x)).findSome? fun i =>
      (around x (i + 1)).find? fun d => ofRat d.value = some x with
  | none =>
    obtain ⟨some_,d,next,exact⟩ := exact_around pos own
    have rejected := findSome?_eq_none_iff.mp search (exactDigits x - 1) (mem_range.mpr (by omega))
    rw [Nat.sub_add_cancel some_] at rejected
    have different := find?_eq_none.mp rejected d next
    rw [exact,own] at different
    simp at different
  | some d =>
    obtain ⟨i,-,found⟩ := exists_of_findSome?_eq_some search
    have same : shortest x = d := by rw [shortest,search,Option.getD_some]
    have accepted := find?_some found
    rw [same]
    exact ⟨of_decide_eq_true accepted,around_bounds pos (mem_of_find?_eq_some found)⟩

end Decimal
end Library
