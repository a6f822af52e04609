import QuantTrading.Library.Outcome
import QuantTrading.Expression.Operators

/-! The language of factors: its syntax trees, and the table of operators and fields that
says which names are legal and what they stand for.
-/
namespace QuantTrading.Expression
open Library Value List

inductive Node where
  | literal (value : ℚ)
  | identifier (name : String)
  | binaryOp (op : String) (left right : Node)
  | unaryOp (op : String) (expr : Node)
  | function (name : String) (args : List Node)
  | crossSectional (op : String) (expr : Node) (group : Option Node)

@[elab_as_elim] theorem Node.induction {P : Node → Prop} (literal : ∀ value, P (.literal value))
    (identifier : ∀ name, P (.identifier name))
    (binaryOp : ∀ op left right, P left → P right → P (.binaryOp op left right))
    (unaryOp : ∀ op expr, P expr → P (.unaryOp op expr))
    (function : ∀ name args, (∀ arg ∈ args, P arg) → P (.function name args))
    (crossSectional : ∀ op expr group, P expr → (∀ label ∈ group, P label) →
      P (.crossSectional op expr group)) : ∀ node, P node
  | .literal value => literal value
  | .identifier name => identifier name
  | .binaryOp op left right => binaryOp op left right
      (induction literal identifier binaryOp unaryOp function crossSectional left)
      (induction literal identifier binaryOp unaryOp function crossSectional right)
  | .unaryOp op expr => unaryOp op expr
      (induction literal identifier binaryOp unaryOp function crossSectional expr)
  | .function name args => function name args fun arg _ =>
      induction literal identifier binaryOp unaryOp function crossSectional arg
  | .crossSectional op expr group => crossSectional op expr group
      (induction literal identifier binaryOp unaryOp function crossSectional expr) fun label _ =>
      induction literal identifier binaryOp unaryOp function crossSectional label

mutual

def Node.same : Node → Node → Bool
  | .literal value, .literal value' => value = value'
  | .identifier name, .identifier name' => name = name'
  | .binaryOp op left right, .binaryOp op' left' right' => op = op' && left.same left' && right.same right'
  | .unaryOp op expr, .unaryOp op' expr' => op = op' && expr.same expr'
  | .function name args, .function name' args' => name = name' && Node.sameList args args'
  | .crossSectional op expr none, .crossSectional op' expr' none => op = op' && expr.same expr'
  | .crossSectional op expr (some group), .crossSectional op' expr' (some group') =>
    op = op' && expr.same expr' && group.same group'
  | _, _ => false

def Node.sameList : List Node → List Node → Bool
  | [], [] => true
  | node :: nodes, node' :: nodes' => node.same node' && Node.sameList nodes nodes'
  | _, _ => false

end

theorem Node.sameList_iff {nodes nodes' : List Node}
    (each : ∀ node ∈ nodes, ∀ other, node.same other = true ↔ node = other) :
    Node.sameList nodes nodes' = true ↔ nodes = nodes' := by
  induction nodes generalizing nodes' with
  | nil => cases nodes' <;> simp [sameList]
  | cons node nodes ih =>
    rw [forall_mem_cons] at each
    cases nodes' with
    | nil => simp [sameList]
    | cons => simp [sameList,each.1,ih each.2]

theorem Node.same_iff {node other : Node} : node.same other = true ↔ node = other := by
  induction node using Node.induction generalizing other with
  | binaryOp op left right leftIh rightIh => cases other <;> simp [same,leftIh,rightIh,and_assoc]
  | unaryOp op expr ih => cases other <;> simp [same,ih]
  | function name args ih =>
    cases other with
    | function => simp [same,sameList_iff fun arg member other => ih arg member]
    | _ => simp [same]
  | crossSectional op expr group ih groupIh =>
    cases other with
    | crossSectional op' expr' group' =>
      cases group <;> cases group' <;> simp [same,ih]
      rw [groupIh _ rfl,and_assoc]
    | _ => cases group <;> simp [same]
  | _ => cases other <;> simp [same]

instance : DecidableEq Node := fun _ _ => decidable_of_iff _ Node.same_iff

mutual

def Node.everywhere (p : Node → Bool) : Node → Bool
  | .literal value => p (.literal value)
  | .identifier name => p (.identifier name)
  | .binaryOp op left right => p (.binaryOp op left right) && left.everywhere p && right.everywhere p
  | .unaryOp op expr => p (.unaryOp op expr) && expr.everywhere p
  | .function name args => p (.function name args) && Node.everywhereIn p args
  | .crossSectional op expr none => p (.crossSectional op expr none) && expr.everywhere p
  | .crossSectional op expr (some label) =>
    p (.crossSectional op expr (some label)) && expr.everywhere p && label.everywhere p

def Node.everywhereIn (p : Node → Bool) : List Node → Bool
  | [] => true
  | arg :: args => arg.everywhere p && Node.everywhereIn p args

end

theorem Node.everywhereIn_iff {p : Node → Bool} {args : List Node} :
    Node.everywhereIn p args = true ↔ ∀ arg ∈ args, arg.everywhere p = true := by
  induction args with
  | nil => simp [everywhereIn]
  | cons first rest ih => simp [everywhereIn,ih]

inductive OpCategory where
  | timeSeries
  | crossSectional
  | unary
  | binary
deriving DecidableEq, Repr

/-- An operator's entry in the table. `state` marks the recursive ones, `selfLookback` is
what the operator adds to the look-back of its arguments. -/
structure OperatorDef where
  name : String
  category : OpCategory
  arity : Nat
  scalarParams : List Nat
  state : Bool
  selfLookback : List Node → Nat
  tsEval : Option (Numerics → List Series → Except String Series)
  csEval : Option (Numerics → List Value → Option (List Value) → List Value)

def literalFloatAt (args : List Node) (idx : Nat) : Option ℚ :=
  match args[idx]? with
  | some (.literal value) => some value
  | _ => none

def literalIntAt (args : List Node) (idx : Nat) : Option Int :=
  (literalFloatAt args idx).map fun value => toInt (some value)

def windowSelfLookbackAt (idx : Nat) (args : List Node) : Nat :=
  match literalIntAt args idx with
  | none => 0
  | some n => if n < 1 then 0 else (n - 1).toNat

def periodSelfAt (idx : Nat) (args : List Node) : Nat :=
  match literalIntAt args idx with
  | none => 0
  | some d => if d < 0 then 0 else d.toNat

def stateSelfLookback (_ : List Node) : Nat := 0

def firstScalar (xs : Series) : Value := xs.headD none

/-- Argument `i` of a call; the number of arguments has been checked. -/
def argAt (args : List Series) (i : Nat) : Series := args.getD i []

def intAt (args : List Series) (i : Nat) : Int := toInt (firstScalar (argAt args i))

def seriesDef (name : String) (selfLookback : List Node → Nat) (op : Numerics → Series → Int → Series) :
    OperatorDef where
  name := name
  category := .timeSeries
  arity := 2
  scalarParams := [1]
  state := false
  selfLookback := selfLookback
  tsEval := some fun m args => .ok (op m (argAt args 0) (intAt args 1))
  csEval := none

def recursiveDef (name : String) (scalarParams : List Nat)
    (op : Numerics → List Series → Except String Series) : OperatorDef where
  name := name
  category := .timeSeries
  arity := scalarParams.length + 1
  scalarParams := scalarParams
  state := true
  selfLookback := stateSelfLookback
  tsEval := some op
  csEval := none

def crossDef (name : String) (arity : Nat)
    (op : Numerics → List Value → Option (List Value) → List Value) : OperatorDef where
  name := name
  category := .crossSectional
  arity := arity
  scalarParams := []
  state := false
  selfLookback := fun _ => 0
  tsEval := none
  csEval := some op

def pointwiseDef (category : OpCategory) (arity : Nat) (name : String) : OperatorDef where
  name := name
  category := category
  arity := arity
  scalarParams := []
  state := false
  selfLookback := fun _ => 0
  tsEval := none
  csEval := none

def unaryDef : String → OperatorDef := pointwiseDef .unary 1

def binaryDef : String → OperatorDef := pointwiseDef .binary 2

def tsCorrDef : OperatorDef where
  name := "ts_corr"
  category := .timeSeries
  arity := 3
  scalarParams := [2]
  state := false
  selfLookback := windowSelfLookbackAt 2
  tsEval := some fun m args => .ok (tsCorr m (argAt args 0) (argAt args 1) (intAt args 2))
  csEval := none

def operatorRegistry : List OperatorDef := [
  seriesDef "ts_mean" (windowSelfLookbackAt 1) (fun _ => tsMean),
  seriesDef "ts_std" (windowSelfLookbackAt 1) tsStd,
  seriesDef "ts_sum" (windowSelfLookbackAt 1) (fun _ => tsSum),
  seriesDef "ts_max" (windowSelfLookbackAt 1) (fun _ => tsMax),
  seriesDef "ts_min" (windowSelfLookbackAt 1) (fun _ => tsMin),
  seriesDef "ts_delay" (periodSelfAt 1) (fun _ => tsDelay),
  seriesDef "ts_delta" (periodSelfAt 1) (fun _ => tsDelta),
  seriesDef "ts_pct_change" (periodSelfAt 1) (fun _ => tsPctChange),
  tsCorrDef,
  seriesDef "ts_rank" (windowSelfLookbackAt 1) (fun _ => tsRank),
  recursiveDef "ts_rma" [1] (fun _ args => rmaBatch (argAt args 0) (intAt args 1)),
  recursiveDef "ts_ewma" [1] (fun m args => ewmaBatch m (argAt args 0) (firstScalar (argAt args 1))),
  recursiveDef "ts_kalman" [1,2] (fun m args =>
    kalmanBatch m (argAt args 0) (firstScalar (argAt args 1)) (firstScalar (argAt args 2))),
  crossDef "cs_rank" 1 (fun _ values _ => csRank values),
  crossDef "cs_zscore" 1 (fun m values _ => csZScore m values),
  crossDef "cs_percentile" 1 (fun _ values _ => csPercentile values),
  crossDef "cs_neutralize" 2 (fun _ values group => csNeutralize values group),
  unaryDef "neg", unaryDef "abs", unaryDef "log", unaryDef "sqrt", unaryDef "sign", unaryDef "exp",
  unaryDef "NOT",
  binaryDef "+", binaryDef "-", binaryDef "*", binaryDef "/", binaryDef "^", binaryDef ">",
  binaryDef "<", binaryDef "==", binaryDef ">=", binaryDef "<=", binaryDef "AND", binaryDef "OR"]

def operator (name : String) : Option OperatorDef :=
  operatorRegistry.find? fun entry => entry.name == name

def operatorCategory (name : String) : Option OpCategory := (operator name).map (·.category)

def sortStrings (names : List String) : List String := names.insertionSort (· ≤ ·)

def availableOperatorsHint : String :=
  "（可用算子：" ++ String.intercalate ", " (sortStrings (operatorRegistry.map (·.name))) ++ "）"

variable {name : String} {entry : OperatorDef}

theorem operator_spec (found : operator name = some entry) : entry ∈ operatorRegistry ∧ entry.name = name :=
  ⟨mem_of_find?_eq_some found,by simpa using find?_some found⟩

def Sliding (self : List Node → Nat) (op : Numerics → Series → Int → Series) : Prop :=
  ∃ extra : Nat,
    (∀ m, ∃ f, ∀ data window, op m data window =
      if window ≤ 0 then [] else trailing none (window.toNat + extra) f data) ∧
    ∀ args window, literalIntAt args 1 = some window → 0 < window → self args = window.toNat + extra - 1

/-- A window over no data yields no data, so the test for it may be dropped. -/
theorem windowed_eq {n : Nat} {f : List Value → Value} {data : Series} {window : Int} :
    (if window ≤ 0 ∨ data.length = 0 then [] else trailing none n f data) =
      if window ≤ 0 then [] else trailing none n f data := by
  by_cases empty : data.length = 0
  · have nothing : trailing none n f data = [] := by
      rw [← length_eq_zero_iff,length_trailing,empty]
    rw [nothing,if_pos (.inr empty),ite_self]
  · simp only [empty,or_false]

theorem rolling_sliding (f : Numerics → List Value → Value) :
    Sliding (windowSelfLookbackAt 1) fun m => rolling (f m) := by
  refine ⟨0,fun m => ⟨f m,fun data window => windowed_eq⟩,?_⟩
  intro args window literal positive
  rw [windowSelfLookbackAt,literal]
  simp only
  rw [if_neg (by omega)]
  omega

theorem lagged_sliding (f : Value → Value → Value) : Sliding (periodSelfAt 1) fun _ => lagged f := by
  refine ⟨1,fun m => ⟨_,fun data window => windowed_eq⟩,?_⟩
  intro args window literal positive
  rw [periodSelfAt,literal]
  simp only
  rw [if_neg (by omega)]
  omega

theorem tsCorr_eq (m : Numerics) (data1 data2 : Series) (window : Int) : tsCorr m data1 data2 window =
    if window ≤ 0 ∨ data1.length ≠ data2.length then []
    else trailing none window.toNat (windowCorr m) (data1.zip data2) := by
  rw [tsCorr]
  by_cases apart : window ≤ 0 ∨ data1.length ≠ data2.length
  · rw [if_pos apart,if_pos (by omega)]
  · split
    · have nothing : data1.zip data2 = [] := by
        rw [← length_eq_zero_iff,length_zip]
        omega
      rw [nothing]
      rfl
    · rfl

/-- One pass from the oldest entry on: the front of the output needs the front of the input. -/
def Recursive (op : Numerics → List Series → Except String Series) : Prop :=
  ∀ m data scalars out, op m (data :: scalars) = .ok out →
    out.length = data.length ∧ ∀ k, op m (data.take k :: scalars) = .ok (out.take k)

theorem batch_recursive {S : Type} {step : S → ℚ → S} {ready : S → Bool} {value : S → ℚ}
    {i : Nat} {core : S} {xs out : Series} (ok : batch name step ready value i core xs = .ok out) :
    out.length = xs.length ∧ ∀ k, batch name step ready value i core (xs.take k) = .ok (out.take k) := by
  induction xs generalizing i core out with
  | nil =>
    cases ok
    simp [batch]
  | cons x xs ih =>
    cases x with
    | none => cases ok
    | some =>
      obtain ⟨rest,restOk,done⟩ := bind_eq_ok.mp ok
      obtain rfl := pure_eq_ok.mp done
      obtain ⟨length,front⟩ := ih restOk
      refine ⟨congrArg (· + 1) length,?_⟩
      intro k
      cases k with
      | zero => rfl
      | succ k => exact bind_eq_ok.mpr ⟨rest.take k,front k,rfl⟩

theorem rmaBatch_recursive : Recursive fun _ args => rmaBatch (argAt args 0) (intAt args 1) := by
  intro m data scalars out ok
  simp only [rmaBatch] at ok ⊢
  split at ok
  · cases ok
  rename_i positive
  simp only [intAt,argAt,getD_cons_succ] at positive ⊢
  simp only [if_neg positive]
  exact batch_recursive ok

theorem ewmaBatch_recursive : Recursive fun m args => ewmaBatch m (argAt args 0) (firstScalar (argAt args 1)) := by
  intro m data scalars out ok
  simp only [ewmaBatch] at ok ⊢
  split at ok
  · cases ok
  rename_i alpha inside
  simp only [argAt,getD_cons_succ] at inside ⊢
  simp only [inside]
  exact batch_recursive ok

theorem kalmanBatch_recursive : Recursive fun m args =>
    kalmanBatch m (argAt args 0) (firstScalar (argAt args 1)) (firstScalar (argAt args 2)) := by
  intro m data scalars out ok
  simp only [kalmanBatch] at ok ⊢
  split at ok
  · cases ok
  rename_i q qInside
  split at ok
  · cases ok
  rename_i r rInside
  simp only [argAt,getD_cons_succ] at qInside rInside ⊢
  simp only [qInside,rInside]
  exact batch_recursive ok

/-- A time-series operator slides a window over its series, correlates two series, or is
recursive. -/
inductive TimeSeries (name : String) : OperatorDef → Prop
  | sliding {self : List Node → Nat} {op : Numerics → Series → Int → Series} (other : name ≠ "ts_corr")
      (slides : Sliding self op) : TimeSeries name (seriesDef name self op)
  | correlating (same : name = "ts_corr") : TimeSeries name tsCorrDef
  | recursive {scalars : List Nat} {op : Numerics → List Series → Except String Series}
      (other : name ≠ "ts_corr") (shape : scalars = [1] ∨ scalars = [1,2]) (runs : Recursive op) :
      TimeSeries name (recursiveDef name scalars op)

theorem category_of_mem_drop : ∀ entry ∈ operatorRegistry.drop 13, entry.category ≠ .timeSeries := by
  decide

section
variable (member : entry ∈ operatorRegistry)
include member

theorem timeSeries_of_mem (category : entry.category = .timeSeries) : TimeSeries entry.name entry := by
  simp only [operatorRegistry,mem_cons,not_mem_nil,or_false] at member
  rcases member with rfl | rfl | rfl | rfl | rfl | rfl | rfl | rfl | rfl | rfl | rfl | rfl | rfl | others
  any_goals first | exact .sliding (by decide) (rolling_sliding _) | exact .sliding (by decide) (lagged_sliding _)
  · exact .correlating rfl
  · exact .recursive (by decide) (.inl rfl) rmaBatch_recursive
  · exact .recursive (by decide) (.inl rfl) ewmaBatch_recursive
  · exact .recursive (by decide) (.inr rfl) kalmanBatch_recursive
  · exact absurd category (category_of_mem_drop entry (by simpa [operatorRegistry] using others))

theorem length_csEval {csEval : Numerics → List Value → Option (List Value) → List Value}
    (bound : entry.csEval = some csEval) (m : Numerics) (values : List Value) (group : Option (List Value)) :
    (csEval m values group).length = values.length := by
  have lengths : ∀ entry ∈ operatorRegistry, ∀ csEval ∈ entry.csEval,
      (csEval m values group).length = values.length := by
    simp [operatorRegistry,seriesDef,tsCorrDef,recursiveDef,crossDef,unaryDef,binaryDef,pointwiseDef]
  exact lengths entry member csEval bound

end

inductive FieldSource where
  | market
  | fundamentals
  | activity
  | group
deriving DecidableEq, Repr

def FieldSource.text : FieldSource → String
  | .market => "market"
  | .fundamentals => "fundamentals"
  | .activity => "activity"
  | .group => "group"

def fieldRegistry : List (String × FieldSource) := [
  ("open",.market), ("high",.market), ("low",.market), ("close",.market), ("volume",.market),
  ("turnover",.market),
  ("pe",.fundamentals), ("pb",.fundamentals), ("ps",.fundamentals), ("roe",.fundamentals),
  ("roa",.fundamentals), ("revenue",.fundamentals), ("profit",.fundamentals),
  ("turnover_rate",.activity), ("turnover_rate_f",.activity), ("volume_ratio",.activity),
  ("sector",.group)]

def isDataField (name : String) : Bool := fieldRegistry.any fun entry => entry.1 == name

def availableFieldsInSource (source : FieldSource) : List String :=
  sortStrings ((fieldRegistry.filter fun entry => entry.2 == source).map (·.1))

-- The source leaves the activity fields out of its hint.
def fieldsBySourceString : String :=
  String.intercalate "；" (([.market,.fundamentals,.group] : List FieldSource).map fun source =>
    source.text ++ ": " ++ String.intercalate ", " (availableFieldsInSource source))

def availableFieldsHint : String := "（可用字段：" ++ fieldsBySourceString ++ "）"

end QuantTrading.Expression
