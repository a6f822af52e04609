import Mathlib.Data.List.Sort
import Mathlib.Data.Rat.Floor
import QuantTrading.Library.Series

/-! The operators of the factor language: element-wise, over a trailing window of a series,
recursive, and across the symbols of one day. A missing value (NaN) is `none`, and
values are exact: none overflows to an infinity.
-/
namespace QuantTrading.Expression
open Library

abbrev Value := Option ℚ

/-- One value per bar, oldest first. -/
abbrev Series := List Value

/-- What the code takes from the math and fmt packages: powers, logarithm of a positive
number, root of a non-negative one, exponential, and the text of a number. -/
structure Numerics where
  pow : Value → Value → Value
  (log sqrt exp : ℚ → Value)
  format : Value → String

namespace Value

def add (a b : Value) : Value := Option.map₂ (· + ·) a b

def sub (a b : Value) : Value := Option.map₂ (· - ·) a b

def mul (a b : Value) : Value := Option.map₂ (· * ·) a b

def ratio (a b : Value) : Value :=
  match a, b with
  | some a, some b => if b = 0 then none else some (a / b)
  | _, _ => none

def holds (r : ℚ → ℚ → Bool) : Value → Value → Bool
  | some a, some b => r a b
  | _, _ => false

def less : Value → Value → Bool := holds fun a b => a < b

def truth (b : Bool) : Value := if b then some 1 else some 0

/-- Conversion to an integer cuts towards zero; of NaN, and of what no machine integer can
hold, it is the least machine integer. -/
def toInt : Value → Int
  | none => -2 ^ 63
  | some q =>
    let cut := q.num.tdiv q.den
    if -2 ^ 63 ≤ cut ∧ cut < 2 ^ 63 then cut else -2 ^ 63

end Value

open Value

variable (m : Numerics)

def applyBinaryOp (op : String) (a b : Value) : Value :=
  match op with
  | "+" => add a b
  | "-" => sub a b
  | "*" => mul a b
  | "/" => if b = some 0 then none else ratio a b
  | "^" => m.pow a b
  | ">" => truth (holds (fun a b => a > b) a b)
  | "<" => truth (holds (fun a b => a < b) a b)
  | "==" => truth (holds (fun a b => a = b) a b)
  | ">=" => truth (holds (fun a b => a ≥ b) a b)
  | "<=" => truth (holds (fun a b => a ≤ b) a b)
  | "AND" => if a = none ∨ b = none then none else truth (a ≠ some 0 ∧ b ≠ some 0)
  | "OR" => if a = none ∨ b = none then none else truth (a ≠ some 0 ∨ b ≠ some 0)
  | _ => none

def applyUnaryOp (op : String) (v : Value) : Value :=
  match op with
  | "neg" => v.map (- ·)
  | "abs" => v.map (|·|)
  | "log" => v.bind fun q => if q ≤ 0 then none else m.log q
  | "sqrt" => v.bind fun q => if q < 0 then none else m.sqrt q
  | "sign" => if less (some 0) v then some 1 else if less v (some 0) then some (-1) else some 0
  | "exp" => v.bind m.exp
  | "NOT" => if v = none then none else truth (v = some 0)
  | _ => none

/-! ## Windows

The windows below hold data[i], data[i-1], .., newest first.
-/

def valid (window : List Value) : List ℚ := window.reduceOption

def mean (xs : List ℚ) : Value := ratio (some xs.sum) (some xs.length)

def rolling (f : List Value → Value) (data : Series) (window : Int) : Series :=
  if window ≤ 0 ∨ data.length = 0 then [] else trailing none window.toNat f data

/-- A period operator compares data[i] with data[i-periods]: the two ends of a window that
is one longer than the period. -/
def lagged (f : Value → Value → Value) (data : Series) (periods : Int) : Series :=
  if periods ≤ 0 ∨ data.length = 0 then []
  else trailing none (periods.toNat + 1) (fun window => f (window.headD none) (window.getLastD none)) data

def tsMean : Series → Int → Series := rolling fun window => mean (valid window)

def tsStd : Series → Int → Series := rolling fun window =>
  match mean (valid window) with
  | none => none
  | some mean =>
    let squares := (valid window).map fun v => (v - mean) * (v - mean)
    if squares.length > 1 then m.sqrt (squares.sum / (squares.length - 1)) else none

def tsSum : Series → Int → Series := rolling fun window => some (valid window).sum

/-- The newest value, replaced by any older one that beats it; a missing newest value is
beaten by none. -/
def extremum (beats : Value → Value → Bool) : List Value → Value
  | [] => none
  | newest :: older => older.foldl (fun best v => if beats v best then v else best) newest

def tsMax : Series → Int → Series := rolling (extremum fun v best => less best v)

def tsMin : Series → Int → Series := rolling (extremum fun v best => less v best)

def tsDelay : Series → Int → Series := lagged fun _ past => past

def tsDelta : Series → Int → Series := lagged fun now past => sub now past

def tsPctChange : Series → Int → Series := lagged fun now past =>
  if past = some 0 then none else ratio (sub now past) past

def pearson (x y : List ℚ) : Value :=
  if x.length ≠ y.length ∨ x.length < 2 then none
  else
    let n : ℚ := x.length
    let sumXY := (List.zipWith (· * ·) x y).sum
    let sumX2 := (x.map fun v => v * v).sum
    let sumY2 := (y.map fun v => v * v).sum
    let numerator := n * sumXY - x.sum * y.sum
    let denominator := m.sqrt ((n * sumX2 - x.sum * x.sum) * (n * sumY2 - y.sum * y.sum))
    if denominator = some 0 then none else ratio (some numerator) denominator

def windowCorr (window : List (Value × Value)) : Value :=
  let both := window.filterMap fun pair => Option.map₂ Prod.mk pair.1 pair.2
  if both.length < 2 then none else pearson m (both.map (·.1)) (both.map (·.2))

def tsCorr (data1 data2 : Series) (window : Int) : Series :=
  if window ≤ 0 ∨ data1.length = 0 ∨ data2.length = 0 ∨ data1.length ≠ data2.length then []
  else trailing none window.toNat (windowCorr m) (data1.zip data2)

def tsRank : Series → Int → Series := rolling fun window =>
  let values := valid window
  if values.length = 0 then none
  else
    let rank := values.countP fun v => less (some v) (window.headD none)
    ratio (some rank) (some (values.length - 1))

/-- One pass over a series that fails at the first missing value and gives a value from the
bar on at which the core is ready. -/
def batch {S : Type} (name : String) (step : S → ℚ → S) (ready : S → Bool) (value : S → ℚ) :
    Nat → S → Series → Except String Series
  | _, _, [] => .ok []
  | i, _, none :: _ => .error ("indicator: " ++ name ++ " 第 " ++ toString i ++ " 个输入非有限 NaN")
  | i, core, some x :: xs => do
    let core := step core x
    let rest ← batch name step ready value (i + 1) core xs
    return (if ready core then some (value core) else none) :: rest

structure RmaCore where
  (n count : Int)
  (sum prev : ℚ)

def RmaCore.step (c : RmaCore) (x : ℚ) : RmaCore :=
  let c := { c with count := c.count + 1 }
  if c.count ≤ c.n then
    let c := { c with sum := c.sum + x }
    if c.count = c.n then { c with prev := c.sum / c.n } else c
  else { c with prev := c.prev + (x - c.prev) / c.n }

def rmaBatch (xs : Series) (n : Int) : Except String Series :=
  if n < 1 then .error ("indicator: RMABatch n=" ++ toString n ++ " 非法（要求 n ≥ 1）")
  else batch "RMABatch" RmaCore.step (fun c => c.count ≥ c.n) RmaCore.prev 0 ⟨n,0,0,0⟩ xs

structure EwmaCore where
  alpha : ℚ
  (warm count : Int)
  prev : ℚ

def EwmaCore.step (c : EwmaCore) (x : ℚ) : EwmaCore :=
  let c := { c with count := c.count + 1 }
  if c.count = 1 then { c with prev := x } else { c with prev := c.alpha * x + (1 - c.alpha) * c.prev }

def ewmaWarmup (alpha : ℚ) : Int :=
  if alpha ≥ 1 then 1
  else
    let w := toInt ((ratio (m.log (1 / 10 ^ 6)) (m.log (1 - alpha))).map fun q => (⌈q⌉ : ℚ))
    if w < 1 then 1 else w

def ewmaBatch (xs : Series) (alpha : Value) : Except String Series :=
  match alpha.filter fun a => 0 < a ∧ a ≤ 1 with
  | none => .error ("indicator: EWMABatch α=" ++ m.format alpha ++ " 非法（要求 0 < α ≤ 1）")
  | some a => batch "EWMABatch" EwmaCore.step (fun c => c.count ≥ c.warm) EwmaCore.prev 0
      ⟨a,ewmaWarmup m a,0,0⟩ xs

structure KalmanCore where
  (q r p0 : ℚ)
  count : Int
  (x p : ℚ)

def KalmanCore.step (c : KalmanCore) (z : ℚ) : KalmanCore :=
  let c := { c with count := c.count + 1 }
  if c.count = 1 then { c with x := z, p := c.p0 }
  else
    let p := c.p + c.q
    let k := p / (p + c.r)
    { c with x := c.x + k * (z - c.x), p := (1 - k) * p }

def kalmanBatch (xs : Series) (q r : Value) : Except String Series :=
  match q.filter (0 ≤ ·) with
  | none => .error ("indicator: KalmanBatch q=" ++ m.format q ++ " 非法（要求 q ≥ 0 且有限）")
  | some q =>
    match r.filter (0 < ·) with
    | none => .error ("indicator: KalmanBatch r=" ++ m.format r ++ " 非法（要求 r > 0 且有限）")
    | some r => batch "KalmanBatch" KalmanCore.step (fun c => c.count ≥ 1) KalmanCore.x 0 ⟨q,r,r,0,0,0⟩ xs

def csRank (values : List Value) : List Value :=
  let pairs := (values.zipIdx.filterMap fun entry => entry.1.map fun value => (entry.2,value)).insertionSort
    fun first second => first.2 ≤ second.2
  (List.range values.length).map fun i =>
    (pairs.findIdx? fun pair => pair.1 = i).bind fun rank =>
      ratio (some (rank : ℚ)) (some ((pairs.length : ℚ) - 1))

def csZScore (values : List Value) : List Value :=
  match mean (valid values) with
  | none => values.map fun _ => none
  | some mean =>
    let sumSq := ((valid values).map fun v => (v - mean) * (v - mean)).sum
    let std := m.sqrt (sumSq / (valid values).length)
    values.map fun v => if v = none ∨ std = some 0 then none else ratio (sub v (some mean)) std

def csPercentile (values : List Value) : List Value :=
  values.map fun v => v.bind fun v =>
    ratio (some ((valid values).countP (· ≤ v))) (some (valid values).length)

def globalDemean (values : List Value) : List Value :=
  values.map fun v => sub v (mean (valid values))

/-- The values with a label that the map of group sums keeps apart: no two NaN labels are
the same key, and a NaN label is never found again. -/
def labelled (values group : List Value) (label : ℚ) : List ℚ :=
  (values.zip group).filterMap fun entry => if entry.2 = some label then entry.1 else none

def csNeutralize (values : List Value) (group : Option (List Value)) : List Value :=
  match group.filter fun group => group.length = values.length with
  | none => globalDemean values
  | some group => (values.zip group).map fun entry =>
      entry.2.bind fun label => sub entry.1 (mean (labelled values group label))

variable (values : List Value)

@[simp] theorem length_csRank : (csRank values).length = values.length := by
  simp [csRank]

@[simp] theorem length_csZScore : (csZScore m values).length = values.length := by
  rw [csZScore]
  split <;> simp

@[simp] theorem length_csPercentile : (csPercentile values).length = values.length := by
  simp [csPercentile]

@[simp] theorem length_csNeutralize (group : Option (List Value)) :
    (csNeutralize values group).length = values.length := by
  rw [csNeutralize]
  split
  · simp [globalDemean]
  rename_i labels kept
  have same : labels.length = values.length := by simpa using (Option.filter_eq_some_iff.mp kept).2
  simp [same]

end QuantTrading.Expression
