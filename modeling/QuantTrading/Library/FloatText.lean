import Mathlib.Data.List.TakeWhile
import QuantTrading.Library.Binary64

/-! Texts of binary64 numbers: reading a decimal without sign or exponent, and the general
format, which writes the shortest digits with an exponent where that is far from zero. Only
texts without an exponent are read back.
-/
namespace Library
open List
open Binary64 (ofRat)

def parseFloat (text : List Char) : Option ℚ :=
  let whole := text.takeWhile (· ≠ '.')
  let fraction := (text.dropWhile (· ≠ '.')).tail
  if whole ++ fraction ≠ [] ∧ (whole ++ fraction).all Char.isDigit then
    ofRat (Nat.ofDigitChars 10 (whole ++ fraction) 0 / 10 ^ fraction.length)
  else none

/-- A text of digits with at most one point, which is not the first character. -/
inductive PlainText : List Char → Prop where
  | digits {whole : List Char} (some_ : whole ≠ []) (digit : ∀ c ∈ whole, c.isDigit = true) : PlainText whole
  | point {whole fraction : List Char} (some_ : whole ≠ []) (digit : ∀ c ∈ whole ++ fraction, c.isDigit = true) :
      PlainText (whole ++ '.' :: fraction)

theorem ne_point_of_isDigit {c : Char} (digit : c.isDigit = true) : c ≠ '.' := by
  rintro rfl
  exact absurd digit (by decide)

theorem parseFloat_digits {whole : List Char} (some_ : whole ≠ []) (digit : ∀ c ∈ whole, c.isDigit = true) :
    parseFloat whole = ofRat (Nat.ofDigitChars 10 whole 0) := by
  have before : ∀ c ∈ whole, decide (c ≠ '.') = true := fun c member =>
    decide_eq_true (ne_point_of_isDigit (digit c member))
  rw [parseFloat,takeWhile_eq_self_iff.mpr before,dropWhile_eq_nil_iff.mpr before]
  simp [some_]
  exact fun c member missing => absurd (digit c member) (by simp [missing])

theorem parseFloat_point {whole fraction : List Char} (some_ : whole ≠ [])
    (digit : ∀ c ∈ whole ++ fraction, c.isDigit = true) :
    parseFloat (whole ++ '.' :: fraction) =
      ofRat (Nat.ofDigitChars 10 (whole ++ fraction) 0 / 10 ^ fraction.length) := by
  have before : ∀ c ∈ whole, decide (c ≠ '.') = true := fun c member =>
    decide_eq_true (ne_point_of_isDigit (digit c (mem_append_left _ member)))
  have split : whole ++ fraction ≠ [] ∧ (whole ++ fraction).all Char.isDigit = true :=
    ⟨by simp [some_],all_eq_true.mpr digit⟩
  rw [parseFloat,takeWhile_append_of_pos before,dropWhile_append_of_pos before]
  simp only [ne_eq,not_true_eq_false,decide_false,Bool.false_eq_true,not_false_eq_true,takeWhile_cons_of_neg,
    dropWhile_cons_of_neg,tail_cons,append_nil]
  exact if_pos split

theorem parseFloat_own {text : List Char} {number : ℚ} (read : parseFloat text = some number) :
    0 ≤ number ∧ ofRat number = some number := by
  simp only [parseFloat,Option.ite_none_right_eq_some] at read
  obtain ⟨-,rounded⟩ := read
  exact ⟨Binary64.ofRat_nonneg (by positivity) rounded,Binary64.ofRat_ofRat (by positivity) rounded⟩

namespace Decimal

variable (d : Decimal)

def magnitude : Int := Nat.log 10 d.mantissa + d.exponent

def digits : List Char := Nat.toDigits 10 d.mantissa

def fixedText : List Char :=
  if 0 ≤ d.exponent then d.digits ++ replicate d.exponent.toNat '0'
  else
    let places := (-d.exponent).toNat
    let padded := d.digits.leftpad (places + 1) '0'
    padded.take (padded.length - places) ++ '.' :: padded.drop (padded.length - places)

def exponentText : List Char :=
  let significand := d.digits.take 1 ++ if d.digits.length ≤ 1 then [] else '.' :: d.digits.drop 1
  significand ++ 'e' :: (if d.magnitude < 0 then '-' else '+') ::
    (Nat.toDigits 10 d.magnitude.natAbs).leftpad 2 '0'

end Decimal

/-- The general format with the shortest digits: an exponent where the first digit is below
the fourth place after the point or above the sixth before it. -/
def formatG (x : ℚ) : List Char :=
  if x = 0 then ['0']
  else
    let d := Decimal.shortest |x|
    (if x < 0 then ['-'] else []) ++
      if d.magnitude < -4 ∨ 6 ≤ d.magnitude then d.exponentText else d.fixedText

namespace Decimal
variable (d : Decimal)

theorem digits_ne_nil : d.digits ≠ [] := Nat.toDigits_ne_nil

theorem isDigit_of_mem_digits {c : Char} (member : c ∈ d.digits) : c.isDigit = true :=
  Nat.isDigit_of_mem_toDigits (by norm_num) le_rfl member

theorem isDigit_of_mem_leftpad {n : Nat} {text : List Char} (digit : ∀ c ∈ text, c.isDigit = true) :
    ∀ c ∈ text.leftpad n '0', c.isDigit = true := by
  intro c member
  rw [leftpad,mem_append,mem_replicate] at member
  rcases member with ⟨-,rfl⟩ | member
  · decide
  · exact digit c member

theorem fixedText_plain : PlainText d.fixedText ∧ parseFloat d.fixedText = ofRat d.value := by
  rw [fixedText]
  split
  · rename_i integer
    have some_ : d.digits ++ replicate d.exponent.toNat '0' ≠ [] := by simp [d.digits_ne_nil]
    have digit : ∀ c ∈ d.digits ++ replicate d.exponent.toNat '0', c.isDigit = true := by
      intro c member
      rw [mem_append,mem_replicate] at member
      rcases member with member | ⟨-,rfl⟩
      · exact d.isDigit_of_mem_digits member
      · decide
    refine ⟨.digits some_ digit,?_⟩
    rw [parseFloat_digits some_ digit,Nat.ofDigitChars_append,Nat.ofDigitChars_replicate_zero,digits,
      Nat.ofDigitChars_toDigits (by norm_num) le_rfl,value]
    congr 1
    push_cast
    rw [mul_comm,← zpow_natCast,Int.toNat_of_nonneg integer]
  · rename_i fractional
    set places := (-d.exponent).toNat with definition
    set padded := d.digits.leftpad (places + 1) '0' with padding
    have long : places < padded.length := by
      rw [padding,length_leftpad]
      omega
    have digit : ∀ c ∈ padded.take (padded.length - places) ++ padded.drop (padded.length - places), c.isDigit = true := by
      rw [take_append_drop]
      exact isDigit_of_mem_leftpad fun c member => d.isDigit_of_mem_digits member
    have some_ : padded.take (padded.length - places) ≠ [] := by
      rw [← length_pos_iff,length_take]
      omega
    refine ⟨.point some_ digit,?_⟩
    have read : Nat.ofDigitChars 10 padded 0 = d.mantissa := by
      rw [padding,leftpad,Nat.ofDigitChars_append,Nat.ofDigitChars_replicate_zero,mul_zero,digits,
        Nat.ofDigitChars_toDigits (by norm_num) le_rfl]
    have exponent : d.exponent = -(places : ℤ) := by omega
    rw [parseFloat_point some_ digit,take_append_drop,read,length_drop,
      Nat.sub_sub_self long.le,value,exponent,zpow_neg,zpow_natCast,div_eq_mul_inv]

theorem exponentText_eq : ∃ significand sign power, d.exponentText = significand ++ 'e' :: sign :: power ∧
    PlainText significand ∧ (sign = '+' ∨ sign = '-') ∧ power ≠ [] ∧ ∀ c ∈ power, c.isDigit = true := by
  have first : d.digits.take 1 ≠ [] := by simp [d.digits_ne_nil]
  refine ⟨_,_,_,rfl,?_,?_,?_,?_⟩
  · split
    · rw [append_nil]
      exact .digits first fun c member => d.isDigit_of_mem_digits (mem_of_mem_take member)
    · refine .point first fun c member => d.isDigit_of_mem_digits ?_
      rwa [take_append_drop] at member
  · split
    · exact .inr rfl
    · exact .inl rfl
  · simp [leftpad,Nat.toDigits_ne_nil]
  · exact isDigit_of_mem_leftpad fun c member => Nat.isDigit_of_mem_toDigits (by norm_num) le_rfl member

theorem magnitude_bounds {d : Decimal} (pos : 0 < d.value) : 10 ^ d.magnitude ≤ d.value ∧ d.value < 10 ^ (d.magnitude + 1) := by
  have step : (0 : ℚ) < 10 ^ d.exponent := by positivity
  have some_ : d.mantissa ≠ 0 := by
    intro none_
    rw [value,none_,Nat.cast_zero,zero_mul] at pos
    exact pos.false
  have least : (10 : ℚ) ^ Nat.log 10 d.mantissa ≤ d.mantissa := by exact_mod_cast Nat.pow_log_le_self 10 some_
  have most : (d.mantissa : ℚ) < 10 ^ (Nat.log 10 d.mantissa + 1) := by
    exact_mod_cast Nat.lt_pow_succ_log_self (by norm_num) d.mantissa
  rw [magnitude,value,add_right_comm,zpow_add₀ (by norm_num),zpow_add₀ (by norm_num)]
  exact ⟨mul_le_mul_of_nonneg_right least step.le,mul_lt_mul_of_pos_right most step⟩

theorem magnitude_lt_iff {d : Decimal} (pos : 0 < d.value) (e : Int) : d.magnitude < e ↔ d.value < 10 ^ e := by
  obtain ⟨least,most⟩ := magnitude_bounds pos
  constructor
  · intro small
    exact most.trans_le (zpow_le_zpow_right₀ (by norm_num) (by omega))
  · intro below
    exact (zpow_lt_zpow_iff_right₀ (by norm_num)).mp (least.trans_lt below)

end Decimal

def FixedRange (x : ℚ) : Prop := x = 0 ∨ 1 / 10 ^ 4 ≤ x ∧ x < 10 ^ 6
deriving Decidable

variable {x : ℚ}

section
variable (pos : 0 < x) (own : ofRat x = some x)
include pos own

theorem shortest_lt_iff {e : Int} (limit : 10 ^ e ≤ (ofRat (10 ^ e)).getD 0) :
    (Decimal.shortest x).value < 10 ^ e ↔ x < 10 ^ e := by
  obtain ⟨rounded,least,most⟩ := Decimal.shortest_spec pos own
  have log_lt : x < 10 ^ e ↔ Int.log 10 x < e := Int.lt_zpow_iff_log_lt (b := 10) (by norm_num) pos
  constructor
  · intro below
    exact log_lt.mpr ((zpow_lt_zpow_iff_right₀ (by norm_num)).mp (least.trans_lt below))
  · intro below
    have magnitude := log_lt.mp below
    refine (most.trans (zpow_le_zpow_right₀ (by norm_num) (by omega))).lt_of_ne fun same => ?_
    rw [← same,rounded,Option.getD_some,same] at limit
    exact below.not_ge limit

theorem shortest_far_iff :
    (Decimal.shortest x).magnitude < -4 ∨ 6 ≤ (Decimal.shortest x).magnitude ↔ ¬ FixedRange x := by
  have value_pos : 0 < (Decimal.shortest x).value :=
    (by positivity : (0 : ℚ) < 10 ^ Int.log 10 x).trans_le (Decimal.shortest_spec pos own).2.1
  rw [← not_lt,Decimal.magnitude_lt_iff value_pos,Decimal.magnitude_lt_iff value_pos,
    shortest_lt_iff pos own (by decide +kernel),shortest_lt_iff pos own (by decide +kernel),FixedRange]
  norm_num [pos.ne',← not_lt]
  tauto

theorem formatG_of_pos :
    formatG x = if FixedRange x then (Decimal.shortest x).fixedText else (Decimal.shortest x).exponentText := by
  simp only [formatG,pos.ne',if_false,pos.not_gt,abs_of_pos pos,nil_append,shortest_far_iff pos own,ite_not]

end

theorem formatG_fixed (nonneg : 0 ≤ x) (own : ofRat x = some x) (fixed : FixedRange x) :
    PlainText (formatG x) ∧ parseFloat (formatG x) = some x := by
  rcases nonneg.eq_or_lt with rfl | pos
  · exact ⟨.digits (cons_ne_nil _ _) (forall_mem_singleton.mpr rfl),by decide +kernel⟩
  · obtain ⟨plain,read⟩ := (Decimal.shortest x).fixedText_plain
    rw [formatG_of_pos pos own,if_pos fixed]
    exact ⟨plain,read.trans (Decimal.shortest_spec pos own).1⟩

theorem formatG_far (nonneg : 0 ≤ x) (own : ofRat x = some x) (far : ¬ FixedRange x) :
    ∃ significand sign power, formatG x = significand ++ 'e' :: sign :: power ∧
      PlainText significand ∧ (sign = '+' ∨ sign = '-') ∧ power ≠ [] ∧ ∀ c ∈ power, c.isDigit = true := by
  have pos : 0 < x := nonneg.lt_of_ne' fun zero => far (.inl zero)
  rw [formatG_of_pos pos own,if_neg far]
  exact (Decimal.shortest x).exponentText_eq

end Library
