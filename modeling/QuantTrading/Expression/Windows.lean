import QuantTrading.Expression.Operators

/-! Windows with missing values. An extreme starts from the newest value and a rank divides
by the number of the other values, so neither skips a newest value that is missing, or that
has no company.
-/
namespace QuantTrading.Expression
open Library Value List

variable {data : Series} {w i : Nat} {v : ℚ} {older : List Value}

theorem getElem?_rolling {f : List Value → Value} (positive : 1 ≤ w) (full : w ≤ i + 1) (inside : i < data.length) :
    (rolling f data w)[i]? = some (f (recent w data i)) := by
  have usable : ¬ ((w : Int) ≤ 0 ∨ data.length = 0) := by omega
  rw [rolling,if_neg usable,getElem?_trailing,if_pos inside,Int.toNat_natCast,if_neg (Nat.not_lt.mpr full)]

theorem recent_cons (positive : 1 ≤ w) (inside : i < data.length) :
    recent w data i = data[i] :: ((data.take i).reverse.take (w - 1)) := by
  obtain ⟨n,rfl⟩ : ∃ n, w = n + 1 := ⟨w - 1,by omega⟩
  rw [recent,take_succ_eq_append_getElem inside,reverse_append]
  rfl

@[simp] theorem valid_none : valid (none :: older) = valid older := rfl

@[simp] theorem valid_some : valid (some v :: older) = v :: valid older := rfl

theorem extremum_none {beats : Value → Value → Bool} (unbeaten : ∀ v, beats v none = false) :
    extremum beats (none :: older) = none := by
  induction older with
  | nil => rfl
  | cons v older ih => simpa [extremum,unbeaten] using ih

theorem extremum_some {beats : Value → Value → Bool} {pick : ℚ → ℚ → ℚ} (skips : ∀ v, beats none v = false)
    (picks : ∀ a b, (if beats (some b) (some a) then some b else some a) = some (pick a b)) :
    extremum beats (some v :: older) = some ((valid older).foldl pick v) := by
  induction older generalizing v with
  | nil => rfl
  | cons next older ih =>
    cases next with
    | none => simpa [extremum,skips] using ih
    | some => simpa [extremum,picks] using ih

/-- What the operators say of the window that ends at an index, in terms of the values that
are there. -/
structure SkipsMissing (data : Series) (w i : Nat) : Prop where
  max : (tsMax data w)[i]? = some (valid (recent w data i)).max?
  min : (tsMin data w)[i]? = some (valid (recent w data i)).min?
  mean : (tsMean data w)[i]? = some (if valid (recent w data i) = [] then none
    else some ((valid (recent w data i)).sum / (valid (recent w data i)).length))
  sum : (tsSum data w)[i]? = some (some (valid (recent w data i)).sum)
  missing : data[i]? = some none → (tsRank data w)[i]? = some none
  rank : ∀ v, data[i]? = some (some v) → ∃ q, (tsRank data w)[i]? = some (some q) ∧ 0 ≤ q ∧ q ≤ 1 ∧
    q * (valid (recent w data i).tail).length = (valid (recent w data i).tail).countP (· < v)

theorem tsRank_some (applied : ∀ f, (rolling f data w)[i]? = some (f (some v :: older))) : (tsRank data w)[i]? =
    some (ratio (some ((valid older).countP (· < v) : ℚ)) (some ((valid older).length : ℚ))) := by
  have count : (v :: valid older).countP (fun x => less (some x) (some v)) = (valid older).countP (· < v) := by
    simp [less,holds]
  rw [tsRank,applied]
  simp only [valid_some,headD_cons,count,length_cons,Nat.add_eq_zero_iff,one_ne_zero,and_false,if_false,
    Nat.cast_succ,add_sub_cancel_right]

section Window
variable {newest : Value} (here : data[i]? = some newest) (window : recent w data i = newest :: older)
  (applied : ∀ f, (rolling f data w)[i]? = some (f (newest :: older)))

include here window applied

theorem skipsMissing_of_none (missing : newest = none) : SkipsMissing data w i ↔ valid older = [] := by
  subst missing
  have max : (tsMax data w)[i]? = some none := (applied _).trans (by rw [extremum_none fun v => by cases v <;> rfl])
  have min : (tsMin data w)[i]? = some none := (applied _).trans (by rw [extremum_none fun v => by cases v <;> rfl])
  constructor
  · intro skips
    have largest := Option.some.inj (max.symm.trans skips.max)
    rw [window] at largest
    exact max?_eq_none_iff.mp largest.symm
  · intro empty
    refine ⟨?_,?_,?_,?_,fun _ => ?_,fun v other => by cases here.symm.trans other⟩
    · rw [max,window,valid_none,empty,max?_nil]
    · rw [min,window,valid_none,empty,min?_nil]
    · rw [tsMean,applied,window,valid_none,empty]
      rfl
    · rw [tsSum,applied,window]
    · rw [tsRank,applied,valid_none,empty]
      rfl

theorem skipsMissing_of_some {v : ℚ} (present : newest = some v) : SkipsMissing data w i ↔ valid older ≠ [] := by
  subst present
  have rank := tsRank_some applied
  constructor
  · intro skips alone
    obtain ⟨q,ranked,-⟩ := skips.rank v here
    rw [rank,alone] at ranked
    cases ranked
  · intro company
    have others : ((valid older).length : ℚ) ≠ 0 := by simpa using company
    refine ⟨?_,?_,?_,?_,(fun other => by cases here.symm.trans other),?_⟩
    · rw [tsMax,applied,window,valid_some,max?_cons',extremum_some (fun v => by cases v <;> rfl) fun a b => ?_]
      by_cases below : a < b
      · simp [less,holds,below,below.le]
      · simp [less,holds,below,not_lt.mp below]
    · rw [tsMin,applied,window,valid_some,min?_cons',extremum_some (fun v => by cases v <;> rfl) fun a b => ?_]
      by_cases below : b < a
      · simp [less,holds,below,below.le]
      · simp [less,holds,below,not_lt.mp below]
    · rw [tsMean,applied,window,valid_some,if_neg (cons_ne_nil _ _),mean,ratio,if_neg]
      exact Nat.cast_ne_zero.mpr (by simp)
    · rw [tsSum,applied,window]
    · intro u same
      cases here.symm.trans same
      have bound : ((valid older).countP (· < v) : ℚ) ≤ (valid older).length := Nat.cast_le.mpr countP_le_length
      rw [ratio,if_neg others] at rank
      rw [window]
      exact ⟨_,rank,by positivity,div_le_one_of_le₀ bound (by positivity),div_mul_cancel₀ _ others⟩

end Window

/-- The missing values of a window are skipped exactly if all are missing, or the newest is
there together with another one. -/
theorem skipsMissing_iff (data : Series) (w i : Nat) (positive : 1 ≤ w) (full : w ≤ i + 1) (inside : i < data.length) :
    SkipsMissing data w i ↔ valid (recent w data i) = [] ∨
      data[i]? ≠ some none ∧ 2 ≤ (valid (recent w data i)).length := by
  have here : data[i]? = some data[i] := getElem?_eq_getElem inside
  have window := recent_cons positive inside
  have applied (f : List Value → Value) : (rolling f data w)[i]? = _ :=
    (getElem?_rolling positive full inside).trans (by rw [window])
  cases newest : data[i] with
  | none =>
    rw [skipsMissing_of_none here window applied newest,window,here,newest]
    simp
  | some =>
    rw [skipsMissing_of_some here window applied newest,window,here,newest]
    simp [Nat.one_le_iff_ne_zero]

theorem twoOfThree_skips : SkipsMissing [some 3,none,some 5] 3 2 :=
  (skipsMissing_iff _ 3 2 (by decide) (by decide) (by decide)).mpr (.inr (by decide +kernel))

/-- A missing newest value hides the maximum of the values before it. -/
theorem missingNewest_unskipped : valid (recent 2 [some 3,none] 1) = [3] ∧ ¬ SkipsMissing [some 3,none] 2 1 := by
  refine ⟨by decide +kernel,fun skips => ?_⟩
  have largest := skips.max
  revert largest
  decide +kernel

end QuantTrading.Expression
