import Mathlib.Data.Finset.Basic
import QuantTrading.Expression.Registry

/-! The gate that every factor passes before it is evaluated, and what it has checked of the
trees it lets through.
-/
namespace QuantTrading.Expression
open Library List

def quoted (text : String) : String := "\"" ++ text ++ "\""

mutual

def isConstantExpr : Node → Bool
  | .literal _ => true
  | .unaryOp _ expr => isConstantExpr expr
  | .binaryOp _ left right => isConstantExpr left && isConstantExpr right
  | .function name args => operatorCategory name == some .unary && areConstantExprs args
  | .identifier _ => false
  | .crossSectional _ _ _ => false

def areConstantExprs : List Node → Bool
  | [] => true
  | arg :: args => isConstantExpr arg && areConstantExprs args

end

mutual

def extractInputs : Node → Finset String
  | .literal _ => ∅
  | .identifier name => {name}
  | .binaryOp _ left right => extractInputs left ∪ extractInputs right
  | .unaryOp _ expr => extractInputs expr
  | .function _ args => extractInputsOf args
  | .crossSectional _ expr none => extractInputs expr
  | .crossSectional _ expr (some group) => extractInputs expr ∪ extractInputs group

def extractInputsOf : List Node → Finset String
  | [] => ∅
  | arg :: args => extractInputs arg ∪ extractInputsOf args

end

def describeNode : Node → String
  | .identifier name => "数据字段 " ++ quoted name ++ "（序列，不是标量）"
  | .function name _ => "算子 " ++ quoted name ++ "(...)（产出序列，不是标量）"
  | .crossSectional op _ _ => "横截面算子 " ++ quoted op ++ "(...)（产出序列，不是标量）"
  | .literal _ => "字面量"
  | .unaryOp _ _ => "*expression.UnaryOpNode"
  | .binaryOp _ _ _ => "*expression.BinaryOpNode"

def checkArity (path name : String) (arity argc : Nat) : Except String Unit :=
  if argc ≠ arity then
    .error (path ++ ": operator " ++ quoted name ++ " expects " ++ toString arity ++ " argument(s), got " ++
      toString argc)
  else .ok ()

def checkScalars (path name : String) (args : List Node) : List Nat → Except String Unit
  | [] => .ok ()
  | i :: rest =>
    match args[i]? with
    | none => .error (path ++ ": operator " ++ quoted name ++ " 的 ScalarParams 声明越界 [" ++ toString i ++
        "]（arity=" ++ toString args.length ++ "，注册表错误）")
    | some arg =>
      if isConstantExpr arg then checkScalars path name args rest
      else .error (path ++ ": operator " ++ quoted name ++ " 的第 " ++ toString i ++
        " 个参数必须是标量（常量），got " ++ describeNode arg)

mutual

def validateNode (path : String) : Node → Except String Unit
  | .literal _ => .ok ()
  | .identifier name =>
    if isDataField name then .ok ()
    else .error (path ++ ": unknown data field " ++ quoted name ++ availableFieldsHint)
  | .unaryOp op expr =>
    match operatorCategory op with
    | some .unary => validateNode (path ++ ".expr") expr
    | _ => .error (path ++ ": unknown unary operator " ++ quoted op ++ availableOperatorsHint)
  | .binaryOp op left right =>
    match operatorCategory op with
    | some .binary => do
      validateNode (path ++ ".left") left
      validateNode (path ++ ".right") right
    | _ => .error (path ++ ": unknown binary operator " ++ quoted op ++ availableOperatorsHint)
  | .function name args =>
    match (operator name).filter fun entry => entry.category = .timeSeries ∨ entry.category = .unary with
    | none => .error (path ++ ": unknown operator " ++ quoted name ++ availableOperatorsHint)
    | some entry => do
      checkArity path name entry.arity args.length
      checkScalars path name args entry.scalarParams
      validateArgs path 0 args
  | .crossSectional op expr none =>
    match (operator op).filter fun entry => entry.category = .crossSectional with
    | none => .error (path ++ ": unknown cross-sectional operator " ++ quoted op ++ availableOperatorsHint)
    | some entry => do
      checkArity path op entry.arity 1
      validateNode (path ++ ".expr") expr
  | .crossSectional op expr (some group) =>
    match (operator op).filter fun entry => entry.category = .crossSectional with
    | none => .error (path ++ ": unknown cross-sectional operator " ++ quoted op ++ availableOperatorsHint)
    | some entry => do
      checkArity path op entry.arity 2
      validateNode (path ++ ".expr") expr
      validateNode (path ++ ".group") group

def validateArgs (path : String) : Nat → List Node → Except String Unit
  | _, [] => .ok ()
  | i, arg :: args => do
    validateNode (path ++ ".arg[" ++ toString i ++ "]") arg
    validateArgs path (i + 1) args

end

def Node.Accepted (node : Node) : Prop := validateNode "root" node = .ok ()

instance (node : Node) : Decidable node.Accepted :=
  inferInstanceAs (Decidable (validateNode "root" node = .ok ()))

def Node.Valid (node : Node) : Prop := ∃ path, validateNode path node = .ok ()

namespace Node.Valid

variable {op : String} {expr : Node}

theorem unaryOp (valid : (Node.unaryOp op expr).Valid) : expr.Valid := by
  obtain ⟨path,ok⟩ := valid
  simp only [validateNode] at ok
  split at ok
  · exact ⟨_,ok⟩
  · cases ok

theorem binaryOp {left right : Node} (valid : (Node.binaryOp op left right).Valid) :
    left.Valid ∧ right.Valid := by
  obtain ⟨path,ok⟩ := valid
  simp only [validateNode] at ok
  split at ok
  · obtain ⟨_,leftOk,rightOk⟩ := bind_eq_ok.mp ok
    exact ⟨⟨_,leftOk⟩,_,rightOk⟩
  · cases ok

variable {group : Option Node}

section
variable (valid : (Node.crossSectional op expr group).Valid)
include valid

theorem crossSectional : expr.Valid ∧ ∀ label ∈ group, label.Valid := by
  obtain ⟨path,ok⟩ := valid
  cases group with
  | none =>
    simp only [validateNode] at ok
    split at ok
    · cases ok
    obtain ⟨_,-,exprOk⟩ := bind_eq_ok.mp ok
    exact ⟨⟨_,exprOk⟩,by simp⟩
  | some =>
    simp only [validateNode] at ok
    split at ok
    · cases ok
    obtain ⟨_,-,rest⟩ := bind_eq_ok.mp ok
    obtain ⟨_,exprOk,labelOk⟩ := bind_eq_ok.mp rest
    refine ⟨⟨_,exprOk⟩,?_⟩
    intro other same
    cases same
    exact ⟨_,labelOk⟩

end

end Node.Valid

variable {args : List Node} {name : String}

variable {path : String} {entry : OperatorDef}

theorem validateArgs_ok {i : Nat} (ok : validateArgs path i args = .ok ()) :
    ∀ arg ∈ args, arg.Valid := by
  induction args generalizing i with
  | nil => simp
  | cons first rest ih =>
    obtain ⟨_,firstOk,restOk⟩ := bind_eq_ok.mp ok
    intro arg member
    rcases mem_cons.mp member with rfl | later
    · exact ⟨_,firstOk⟩
    · exact ih restOk arg later

theorem checkScalars_ok {indices : List Nat}
    (ok : checkScalars path name args indices = .ok ()) :
    ∀ i ∈ indices, ∃ arg, args[i]? = some arg ∧ isConstantExpr arg = true := by
  induction indices with
  | nil => simp
  | cons first rest ih =>
    simp only [checkScalars] at ok
    split at ok
    · cases ok
    rename_i arg found
    split at ok
    · rename_i constant
      intro i member
      rcases mem_cons.mp member with rfl | later
      · exact ⟨arg,found,constant⟩
      · exact ih ok i later
    · cases ok

structure Call (name : String) (args : List Node) (entry : OperatorDef) : Prop where
  found : operator name = some entry
  category : entry.category = .timeSeries ∨ entry.category = .unary
  arity : args.length = entry.arity
  scalars : ∀ i ∈ entry.scalarParams, ∃ arg, args[i]? = some arg ∧ isConstantExpr arg = true
  args : ∀ arg ∈ args, arg.Valid

theorem Node.Valid.function (valid : (Node.function name args).Valid) : ∃ entry, Call name args entry := by
  obtain ⟨path,ok⟩ := valid
  simp only [validateNode] at ok
  split at ok
  · cases ok
  rename_i entry found
  obtain ⟨found,category⟩ := filter_eq_some_iff.mp found
  obtain ⟨_,arityOk,rest⟩ := bind_eq_ok.mp ok
  obtain ⟨_,scalarsOk,argsOk⟩ := bind_eq_ok.mp rest
  refine ⟨entry,found,by simpa using category,?_,checkScalars_ok scalarsOk,validateArgs_ok argsOk⟩
  rw [checkArity] at arityOk
  split at arityOk
  · cases arityOk
  rename_i same
  exact not_not.mp same

theorem areConstantExprs_iff : areConstantExprs args = true ↔ ∀ arg ∈ args, isConstantExpr arg = true := by
  induction args with
  | nil => simp [areConstantExprs]
  | cons first rest ih => simp [areConstantExprs,ih]

/-- The calls that pass the gate: an element-wise operator, a window over one series, the
correlation of two series, a recursive operator; scalar arguments read no series. -/
inductive WellCalled (name : String) : List Node → Prop
  | unary {arg : Node} (category : operatorCategory name = some .unary) (valid : arg.Valid) : WellCalled name [arg]
  | sliding {self : List Node → Nat} {op : Numerics → Series → Int → Series} {data window : Node}
      (found : operator name = some (seriesDef name self op)) (slides : Sliding self op)
      (constant : isConstantExpr window = true) (valid : data.Valid) : WellCalled name [data,window]
  | correlating {first second window : Node} (same : name = "ts_corr")
      (constant : isConstantExpr window = true) (firstValid : first.Valid) (secondValid : second.Valid) :
      WellCalled name [first,second,window]
  | recursive {indices : List Nat} {op : Numerics → List Series → Except String Series} {data : Node}
      {scalars : List Node} (found : operator name = some (recursiveDef name indices op)) (other : name ≠ "ts_corr")
      (count : scalars.length = 1 ∨ scalars.length = 2) (arity : scalars.length = indices.length)
      (runs : Recursive op) (constants : ∀ scalar ∈ scalars, isConstantExpr scalar = true) (valid : data.Valid) :
      WellCalled name (data :: scalars)

theorem Call.timeSeries (call : Call name args entry) (kind : TimeSeries name entry) : WellCalled name args := by
  obtain ⟨found,-,arity,scalars,valid⟩ := call
  cases kind with
  | sliding other slides =>
    obtain ⟨data,window,rfl⟩ := length_eq_two.mp arity
    obtain ⟨_,here,constant⟩ := scalars 1 mem_cons_self
    cases here
    exact .sliding found slides constant (valid data mem_cons_self)
  | correlating same =>
    obtain ⟨first,second,window,rfl⟩ := length_eq_three.mp arity
    obtain ⟨_,here,constant⟩ := scalars 2 mem_cons_self
    cases here
    exact .correlating same constant (valid first (by simp)) (valid second (by simp))
  | recursive other shape runs =>
    rcases shape with rfl | rfl
    · obtain ⟨data,scalar,rfl⟩ := length_eq_two.mp arity
      obtain ⟨_,here,constant⟩ := scalars 1 (by simp [recursiveDef])
      cases here
      refine .recursive found other (.inl rfl) rfl runs ?_ (valid data mem_cons_self)
      simpa using constant
    · obtain ⟨data,first,second,rfl⟩ := length_eq_three.mp arity
      obtain ⟨_,here,firstConstant⟩ := scalars 1 (by simp [recursiveDef])
      cases here
      obtain ⟨_,there,secondConstant⟩ := scalars 2 (by simp [recursiveDef])
      cases there
      refine .recursive found other (.inr rfl) rfl runs ?_ (valid data mem_cons_self)
      simpa using ⟨firstConstant,secondConstant⟩

theorem unary_arity (member : entry ∈ operatorRegistry) (category : entry.category = .unary) :
    entry.arity = 1 := by
  revert entry
  decide

theorem Node.Valid.wellCalled (valid : (Node.function name args).Valid) : WellCalled name args := by
  obtain ⟨entry,call⟩ := valid.function
  obtain ⟨member,same⟩ := operator_spec call.found
  rcases call.category with timeSeries | unary
  · exact call.timeSeries (same ▸ timeSeries_of_mem member timeSeries)
  · obtain ⟨arg,rfl⟩ := length_eq_one_iff.mp (call.arity.trans (unary_arity member unary))
    refine .unary ?_ (call.args arg mem_cons_self)
    rw [operatorCategory,call.found,map_some,unary]

end QuantTrading.Expression
