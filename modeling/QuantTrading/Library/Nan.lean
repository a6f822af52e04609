import Mathlib.Algebra.Order.Field.Basic

/-! Numbers that may be missing, as NaN is: what is computed with one is missing as well, and every
comparison with one is false.
-/
namespace Library.Nan

variable {K : Type} [Field K] [LinearOrder K]

def sub (x y : Option K) : Option K := Option.map₂ (· - ·) x y

def div (x y : Option K) : Option K := Option.map₂ (· / ·) x y

def scale (c : K) (x : Option K) : Option K := x.map (c * ·)

/-- `x > y`. -/
def above (x y : Option K) : Bool := (Option.map₂ (fun a b => decide (b < a)) x y).getD false

/-- `x <= y`. -/
def atMost (x y : Option K) : Bool := (Option.map₂ (fun a b => decide (a ≤ b)) x y).getD false

omit [Field K] in
@[simp] theorem above_some (a b : K) : above (some a) (some b) = decide (b < a) := rfl

omit [Field K] in
@[simp] theorem atMost_some (a b : K) : atMost (some a) (some b) = decide (a ≤ b) := rfl

omit [Field K] in
@[simp] theorem above_none_left (y : Option K) : above none y = false := rfl

omit [LinearOrder K] in
@[simp] theorem sub_some (a b : K) : sub (some a) (some b) = some (a - b) := rfl

def Within (x y tol : Option K) : Prop := ∃ a b t, x = some a ∧ y = some b ∧ tol = some t ∧ |a - b| ≤ t

def Numbers (x y tol : Option K) : Prop := x.isSome = true ∧ y.isSome = true ∧ tol.isSome = true

theorem Within.numbers {x y tol : Option K} (within : Within x y tol) : Numbers x y tol := by
  obtain ⟨a,b,t,rfl,rfl,rfl,_⟩ := within
  exact ⟨rfl,rfl,rfl⟩

omit [Field K] [LinearOrder K] in
theorem Numbers.exists {x y tol : Option K} (numbers : Numbers x y tol) : ∃ a b t, x = some a ∧ y = some b ∧ tol = some t := by
  obtain ⟨a,ha⟩ := Option.isSome_iff_exists.mp numbers.1
  obtain ⟨b,hb⟩ := Option.isSome_iff_exists.mp numbers.2.1
  obtain ⟨t,ht⟩ := Option.isSome_iff_exists.mp numbers.2.2
  exact ⟨a,b,t,ha,hb,ht⟩

end Library.Nan
