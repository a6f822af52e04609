import QuantTrading.Expression.Gate

/-! Evaluation of a factor: a bottom-up pass over the tree that computes the whole series of
every symbol at every node. A loop over the symbols stops at its first failure.
-/
namespace QuantTrading.Expression
open Library Value List
open Book (fill fill_total)

structure DataProvider where
  getSymbols : List String
  getField : String → String → Int → Except String Series

/-- The series of each symbol. -/
abbrev Results := Book String Series

def Results.at (results : Results) (symbol : String) : Series := results[symbol]?.getD []

def last (vals : Series) : Value := vals.getLastD (some 0)

variable (m : Numerics)

def combineSeries (op symbol : String) (left right : Series) : Except String Series :=
  if Aligned left right then .ok (combine (applyBinaryOp m op) left right)
  else
    let maxLen := max left.length right.length
    .error ("length mismatch for " ++ symbol ++ ": left=" ++ toString (broadcast maxLen left).length ++
      ", right=" ++ toString (broadcast maxLen right).length)

def applyTimeSeriesOp (op : String) (args : List Series) : Except String Series :=
  match operator op with
  | none => .error ("unknown time-series operator: " ++ op ++ availableOperatorsHint)
  | some entry =>
    match entry.tsEval with
    | none => .error ("unknown time-series operator: " ++ op ++ availableOperatorsHint)
    | some tsEval =>
      if args.length ≠ entry.arity then
        .error (op ++ " requires " ++ toString entry.arity ++ " arguments, got " ++ toString args.length)
      else tsEval m args

def applyCrossSectionalOp (op : String) (values : List Value) (group : Option (List Value)) :
    Except String (List Value) :=
  match (operator op).bind (·.csEval) with
  | none => .error ("unknown cross-sectional operator: " ++ op ++ availableOperatorsHint)
  | some csEval => .ok (csEval m values group)

def applyFunction (symbols : List String) (name : String) (args : List Results) : Except String Results :=
  if operatorCategory name = some .unary then
    match args with
    | [arg] => .ok (arg.map fun _ vals => vals.map (applyUnaryOp m name))
    | _ => .error (name ++ " requires 1 argument, got " ++ toString args.length)
  else
    fill symbols fun symbol =>
      (applyTimeSeriesOp m name (args.map (Results.at · symbol))).mapError fun err =>
        name ++ " for " ++ symbol ++ ": " ++ err

def applyCrossSectional (symbols : List String) (op : String) (expr : Results)
    (group : Option Results) : Except String Results := do
  let latestValues := symbols.map fun symbol => last (expr.at symbol)
  let groupValues := group.map fun group => symbols.map fun symbol => last (group.at symbol)
  let ranked ← applyCrossSectionalOp m op latestValues groupValues
  return (symbols.zip ranked).foldl (fun result entry => result.insert entry.1 [entry.2]) ∅

mutual

def evaluate (m : Numerics) (provider : DataProvider) (lookback : Int) : Node → Except String Results
  | .literal value => fill provider.getSymbols fun _ => .ok [some value]
  | .identifier name => fill provider.getSymbols fun symbol =>
      (provider.getField symbol name lookback).mapError fun err =>
        "failed to get field " ++ name ++ " for " ++ symbol ++ ": " ++ err
  | .binaryOp op left right => do
    let leftVals ← (evaluate m provider lookback left).mapError fun err => "left operand: " ++ err
    let rightVals ← (evaluate m provider lookback right).mapError fun err => "right operand: " ++ err
    fill provider.getSymbols fun symbol =>
      combineSeries m op symbol (leftVals.at symbol) (rightVals.at symbol)
  | .unaryOp op expr => do
    let vals ← evaluate m provider lookback expr
    fill provider.getSymbols fun symbol => .ok ((vals.at symbol).map (applyUnaryOp m op))
  | .function name args =>
    if operatorCategory name = some .timeSeries ∨ operatorCategory name = some .unary then do
      let argResults ← evaluateArgs m provider lookback 0 args
      applyFunction m provider.getSymbols name argResults
    else .error ("unknown operator: " ++ name ++ availableOperatorsHint)
  | .crossSectional op expr none => do
    let vals ← evaluate m provider lookback expr
    applyCrossSectional m provider.getSymbols op vals none
  | .crossSectional op expr (some group) => do
    let vals ← evaluate m provider lookback expr
    let labels ← (evaluate m provider lookback group).mapError fun err => "group expr: " ++ err
    applyCrossSectional m provider.getSymbols op vals (some labels)

def evaluateArgs (m : Numerics) (provider : DataProvider) (lookback : Int) :
    Nat → List Node → Except String (List Results)
  | _, [] => .ok []
  | i, arg :: args => do
    let first ← (evaluate m provider lookback arg).mapError fun err => "arg " ++ toString i ++ ": " ++ err
    let rest ← evaluateArgs m provider lookback (i + 1) args
    return first :: rest

end

def plain : Numerics := ⟨fun _ _ => none,fun _ => none,fun _ => none,fun _ => none,fun _ => ""⟩

def single (series : Series) : DataProvider := ⟨["A"],fun _ _ _ => .ok series⟩

def meanOfTwo : Node := .function "ts_mean" [.identifier "close",.literal 2]

example : (evaluate plain (single [some 1,none,some 4]) 0 meanOfTwo).map (Results.at · "A") =
    .ok [none,some 1,some 4] := by decide +kernel

variable {m : Numerics} {provider : DataProvider} {lookback : Int} {results : Results} {symbol : String}

variable {symbols : List String} {name : String} {argResults : List Results} {entry : OperatorDef}
   {tsEval : Numerics → List Series → Except String Series} {scalars : List Node} {self : List Node → Nat}
   {inner : Results}

theorem Results.at_fill {f : String → Except String Series}
    (done : fill symbols f = .ok results) (member : symbol ∈ symbols) :
    f symbol = .ok (results.at symbol) := by
  obtain ⟨vals,computed,stored⟩ := Book.get_fill done member
  rw [computed,Results.at,stored]
  rfl

theorem evaluate_literal {value : ℚ} (ok : evaluate m provider lookback (.literal value) = .ok results)
    (member : symbol ∈ provider.getSymbols) : results.at symbol = [some value] := by
  exact (Except.ok.inj (Results.at_fill ok member)).symm

theorem evaluate_identifier (ok : evaluate m provider lookback (.identifier name) = .ok results)
    (member : symbol ∈ provider.getSymbols) : provider.getField symbol name lookback = .ok (results.at symbol) := by
  exact mapError_eq_ok.mp (Results.at_fill ok member)

variable {op : String} {expr data : Node} {args : List Node}

theorem evaluate_unaryOp_eq_ok : evaluate m provider lookback (.unaryOp op expr) = .ok results ↔
      ∃ inner, evaluate m provider lookback expr = .ok inner ∧
        fill provider.getSymbols (fun symbol => (.ok ((inner.at symbol).map (applyUnaryOp m op)) :
          Except String Series)) = .ok results := by
  simp only [evaluate,bind_eq_ok]

theorem evaluate_binaryOp_eq_ok {left right : Node} :
    evaluate m provider lookback (.binaryOp op left right) = .ok results ↔
      ∃ leftVals, evaluate m provider lookback left = .ok leftVals ∧
        ∃ rightVals, evaluate m provider lookback right = .ok rightVals ∧
          fill provider.getSymbols (fun symbol =>
            combineSeries m op symbol (leftVals.at symbol) (rightVals.at symbol)) = .ok results := by
  simp only [evaluate,bind_eq_ok,mapError_eq_ok]

theorem combineSeries_eq_ok {left right vals : Series} :
    combineSeries m op symbol left right = .ok vals ↔
      Aligned left right ∧ combine (applyBinaryOp m op) left right = vals := by
  rw [combineSeries]
  split
  next aligned =>
    simp [aligned]
  next apart =>
    simp [apart]

abbrev EvaluatesAll (m : Numerics) (provider : DataProvider) (lookback : Int) : List Node → List Results → Prop :=
  List.Forall₂ fun arg result => evaluate m provider lookback arg = .ok result

theorem evaluateArgs_eq_ok {i : Nat} :
    evaluateArgs m provider lookback i args = .ok argResults ↔
      EvaluatesAll m provider lookback args argResults := by
  induction args generalizing i argResults with
  | nil =>
    simp only [evaluateArgs,forall₂_nil_left_iff,Except.ok.injEq]
    exact eq_comm
  | cons arg args ih =>
    simp only [evaluateArgs,bind_eq_ok,mapError_eq_ok,pure_eq_ok,ih,forall₂_cons_left_iff]
    constructor
    · rintro ⟨first,firstOk,rest,restOk,rfl⟩
      exact ⟨first,rest,firstOk,restOk,rfl⟩
    · rintro ⟨first,rest,firstOk,restOk,rfl⟩
      exact ⟨first,firstOk,rest,restOk,rfl⟩

theorem evaluate_unaryFunction_eq_ok (category : operatorCategory name = some .unary) :
    evaluate m provider lookback (.function name args) = .ok results ↔
      ∃ arg inner, args = [arg] ∧ evaluate m provider lookback arg = .ok inner ∧
        inner.map (fun _ vals => vals.map (applyUnaryOp m name)) = results := by
  simp only [evaluate,category,or_true,if_true,bind_eq_ok,evaluateArgs_eq_ok,applyFunction]
  constructor
  · rintro ⟨argResults,evaluated,done⟩
    split at done
    next inner =>
      obtain ⟨arg,rest,innerOk,nothing,rfl⟩ := forall₂_cons_right_iff.mp evaluated
      obtain rfl := forall₂_nil_right_iff.mp nothing
      exact ⟨arg,inner,rfl,innerOk,Except.ok.inj done⟩
    · cases done
  · rintro ⟨arg,inner,rfl,innerOk,rfl⟩
    exact ⟨[inner],.cons innerOk .nil,rfl⟩

theorem Results.at_map (f : Value → Value) (inner : Results) (symbol : String) :
    Results.at (inner.map fun _ vals => vals.map f) symbol = (inner.at symbol).map f := by
  rw [Results.at,Std.ExtTreeMap.getElem?_map,Results.at]
  cases inner[symbol]? <;> rfl

theorem evaluate_called_eq_ok (kind : operatorCategory name = some .timeSeries) :
    evaluate m provider lookback (.function name args) = .ok results ↔
      ∃ argResults, EvaluatesAll m provider lookback args argResults ∧ fill provider.getSymbols (fun symbol =>
          (applyTimeSeriesOp m name (argResults.map (Results.at · symbol))).mapError fun err =>
            name ++ " for " ++ symbol ++ ": " ++ err) = .ok results := by
  simp only [evaluate,kind,true_or,if_true,bind_eq_ok,evaluateArgs_eq_ok,applyFunction,Option.some.injEq,
    reduceCtorEq,if_false]

theorem evaluate_timeSeries_eq_ok (found : operator name = some entry)
    (category : entry.category = .timeSeries) (bound : entry.tsEval = some tsEval)
    (arity : args.length = entry.arity) : evaluate m provider lookback (.function name args) = .ok results ↔
      ∃ argResults, EvaluatesAll m provider lookback args argResults ∧ fill provider.getSymbols (fun symbol =>
          (tsEval m (argResults.map (Results.at · symbol))).mapError fun err =>
            name ++ " for " ++ symbol ++ ": " ++ err) = .ok results := by
  have kind : operatorCategory name = some .timeSeries := by
    rw [operatorCategory,found,map_some,category]
  rw [evaluate_called_eq_ok kind]
  refine exists_congr fun argResults => and_congr_right fun evaluated => ?_
  have count : argResults.length = entry.arity := evaluated.length_eq.symm.trans arity
  simp only [applyTimeSeriesOp,found,bound,length_map,count,ne_eq,not_true_eq_false,if_false]

def constantValue (m : Numerics) : Node → Value
  | .literal value => some value
  | .unaryOp op expr => applyUnaryOp m op (constantValue m expr)
  | .binaryOp op left right => applyBinaryOp m op (constantValue m left) (constantValue m right)
  | .function name [arg] => applyUnaryOp m name (constantValue m arg)
  | _ => none

theorem evaluate_constant {node : Node} (constant : isConstantExpr node = true)
    (ok : evaluate m provider lookback node = .ok results) (member : symbol ∈ provider.getSymbols) :
    results.at symbol = [constantValue m node] := by
  induction node using Node.induction generalizing results with
  | literal => exact evaluate_literal ok member
  | binaryOp op left right leftIh rightIh =>
    simp only [isConstantExpr,Bool.and_eq_true] at constant
    obtain ⟨leftVals,leftOk,rightVals,rightOk,done⟩ := evaluate_binaryOp_eq_ok.mp ok
    obtain ⟨-,combined⟩ := combineSeries_eq_ok.mp (Results.at_fill done member)
    rw [← combined,leftIh constant.1 leftOk,rightIh constant.2 rightOk]
    rfl
  | unaryOp op expr ih =>
    obtain ⟨inner,innerOk,done⟩ := evaluate_unaryOp_eq_ok.mp ok
    rw [← Except.ok.inj (Results.at_fill done member),ih constant innerOk]
    rfl
  | function name args ih =>
    simp only [isConstantExpr,Bool.and_eq_true,beq_iff_eq,areConstantExprs_iff] at constant
    obtain ⟨arg,inner,rfl,innerOk,rfl⟩ := (evaluate_unaryFunction_eq_ok constant.1).mp ok
    have only : arg ∈ [arg] := mem_singleton_self arg
    rw [Results.at_map,ih arg only (constant.2 arg only) innerOk]
    rfl
  | _ => cases constant

theorem evaluate_scalars {scalarResults : List Results}
    (constants : ∀ scalar ∈ scalars, isConstantExpr scalar = true)
    (evaluated : EvaluatesAll m provider lookback scalars scalarResults)
    (member : symbol ∈ provider.getSymbols) :
    scalarResults.map (Results.at · symbol) = scalars.map fun scalar => [constantValue m scalar] := by
  induction evaluated with
  | nil => rfl
  | cons ok _ ih =>
    rw [map_cons,map_cons,evaluate_constant (constants _ mem_cons_self) ok member,
      ih fun scalar later => constants scalar (mem_cons_of_mem _ later)]

theorem evaluate_sliding {op : Numerics → Series → Int → Series}
    {window : Node} (found : operator name = some (seriesDef name self op))
    (constant : isConstantExpr window = true)
    (ok : evaluate m provider lookback (.function name [data,window]) = .ok results) :
    ∃ inner, evaluate m provider lookback data = .ok inner ∧ ∀ symbol ∈ provider.getSymbols,
      results.at symbol = op m (inner.at symbol) (toInt (constantValue m window)) := by
  obtain ⟨_,evaluated,done⟩ := (evaluate_timeSeries_eq_ok found rfl rfl rfl).mp ok
  obtain ⟨inner,_,innerOk,rest,rfl⟩ := forall₂_cons_left_iff.mp evaluated
  obtain ⟨scalar,_,scalarOk,nothing,rfl⟩ := forall₂_cons_left_iff.mp rest
  refine ⟨inner,innerOk,?_⟩
  intro symbol member
  have applied := mapError_eq_ok.mp (Results.at_fill done member)
  rw [← Except.ok.inj applied]
  simp only [map_cons,intAt,argAt,getD_cons_zero,getD_cons_succ,
    evaluate_constant constant scalarOk member]
  rfl

theorem evaluate_correlating {first second window : Node} (constant : isConstantExpr window = true)
    (ok : evaluate m provider lookback (.function "ts_corr" [first,second,window]) = .ok results) :
    ∃ firstVals, evaluate m provider lookback first = .ok firstVals ∧
      ∃ secondVals, evaluate m provider lookback second = .ok secondVals ∧ ∀ symbol ∈ provider.getSymbols,
        results.at symbol =
          tsCorr m (firstVals.at symbol) (secondVals.at symbol) (toInt (constantValue m window)) := by
  obtain ⟨_,evaluated,done⟩ := (evaluate_timeSeries_eq_ok (show operator "ts_corr" = some tsCorrDef from rfl)
    rfl rfl rfl).mp ok
  obtain ⟨firstVals,_,firstOk,rest,rfl⟩ := forall₂_cons_left_iff.mp evaluated
  obtain ⟨secondVals,_,secondOk,last,rfl⟩ := forall₂_cons_left_iff.mp rest
  obtain ⟨scalar,_,scalarOk,nothing,rfl⟩ := forall₂_cons_left_iff.mp last
  refine ⟨firstVals,firstOk,secondVals,secondOk,?_⟩
  intro symbol member
  have applied := mapError_eq_ok.mp (Results.at_fill done member)
  rw [← Except.ok.inj applied]
  simp only [map_cons,intAt,argAt,getD_cons_zero,getD_cons_succ,
    evaluate_constant constant scalarOk member]
  rfl

theorem evaluate_recursive {indices : List Nat}
    {op : Numerics → List Series → Except String Series}
    (found : operator name = some (recursiveDef name indices op)) (arity : scalars.length = indices.length)
    (constants : ∀ scalar ∈ scalars, isConstantExpr scalar = true)
    (ok : evaluate m provider lookback (.function name (data :: scalars)) = .ok results) :
    ∃ inner, evaluate m provider lookback data = .ok inner ∧ ∀ symbol ∈ provider.getSymbols,
      op m (inner.at symbol :: scalars.map fun scalar => [constantValue m scalar]) = .ok (results.at symbol) := by
  obtain ⟨_,evaluated,done⟩ := (evaluate_timeSeries_eq_ok found rfl rfl (congrArg (· + 1) arity)).mp ok
  obtain ⟨inner,scalarResults,innerOk,scalarsOk,rfl⟩ := forall₂_cons_left_iff.mp evaluated
  refine ⟨inner,innerOk,?_⟩
  intro symbol member
  have applied := mapError_eq_ok.mp (Results.at_fill done member)
  rw [map_cons,evaluate_scalars constants scalarsOk member] at applied
  exact applied

theorem evaluate_crossSectional_eq_ok {group : Option Node} :
    evaluate m provider lookback (.crossSectional op expr group) = .ok results ↔
      ∃ inner, evaluate m provider lookback expr = .ok inner ∧
        ∃ labels, Option.Rel (fun label result => evaluate m provider lookback label = .ok result) group labels ∧
          applyCrossSectional m provider.getSymbols op inner labels = .ok results := by
  cases group with
  | none =>
    simp only [evaluate,bind_eq_ok]
    constructor
    · rintro ⟨inner,innerOk,done⟩
      exact ⟨inner,innerOk,none,.none,done⟩
    · rintro ⟨inner,innerOk,labels,related,done⟩
      cases related
      exact ⟨inner,innerOk,done⟩
  | some =>
    simp only [evaluate,bind_eq_ok,mapError_eq_ok]
    constructor
    · rintro ⟨inner,innerOk,labels,labelsOk,done⟩
      exact ⟨inner,innerOk,some labels,.some labelsOk,done⟩
    · rintro ⟨inner,innerOk,labels,related,done⟩
      cases related with
      | some labelsOk => exact ⟨inner,innerOk,_,labelsOk,done⟩

theorem applyCrossSectional_single {expr : Results} {group : Option Results}
    (ok : applyCrossSectional m symbols op expr group = .ok results) (member : symbol ∈ symbols) :
    ∃ v, results.at symbol = [v] := by
  obtain ⟨ranked,applied,done⟩ := bind_eq_ok.mp ok
  obtain rfl := pure_eq_ok.mp done
  have stored (entries : List (String × Value)) (start : Results)
      (there : (∃ v, start.at symbol = [v]) ∨ symbol ∈ entries.map Prod.fst) :
      ∃ v, Results.at (entries.foldl (fun result entry => result.insert entry.1 [entry.2]) start) symbol = [v] := by
    induction entries generalizing start with
    | nil => exact there.resolve_right (by simp)
    | cons entry entries ih =>
      refine ih _ ?_
      rw [Results.at,Book.get_insert]
      split
      · exact .inl ⟨entry.2,rfl⟩
      rename_i other
      exact there.imp_right fun listed => (mem_cons.mp listed).resolve_left (Ne.symm other)
  have length : ranked.length = symbols.length := by
    rw [applyCrossSectionalOp] at applied
    split at applied
    · cases applied
    rename_i csEval implemented
    obtain ⟨entry,found,bound⟩ := bind_eq_some_iff.mp implemented
    rw [← Except.ok.inj applied,length_csEval (operator_spec found).1 bound,length_map]
  refine stored _ ∅ (.inr ?_)
  rw [map_fst_zip (by omega)]
  exact member

theorem evaluate_literal_total (value : ℚ) :
    ∃ results, evaluate m provider lookback (.literal value) = .ok results := by
  exact fill_total fun symbol _ => ⟨_,rfl⟩

theorem evaluate_unaryOp_total (innerOk : evaluate m provider lookback expr = .ok inner) :
    ∃ results, evaluate m provider lookback (.unaryOp op expr) = .ok results := by
  obtain ⟨results,done⟩ : ∃ results : Results, fill provider.getSymbols (fun symbol =>
      (.ok ((inner.at symbol).map (applyUnaryOp m op)) : Except String Series)) = .ok results :=
    fill_total fun symbol _ => ⟨_,rfl⟩
  exact ⟨results,evaluate_unaryOp_eq_ok.mpr ⟨inner,innerOk,done⟩⟩

theorem evaluate_binaryOp_total {left right : Node} {leftVals rightVals : Results}
    (leftOk : evaluate m provider lookback left = .ok leftVals)
    (rightOk : evaluate m provider lookback right = .ok rightVals)
    (aligned : ∀ symbol ∈ provider.getSymbols, Aligned (leftVals.at symbol) (rightVals.at symbol)) :
    ∃ results, evaluate m provider lookback (.binaryOp op left right) = .ok results := by
  obtain ⟨results,done⟩ := fill_total
    (f := fun symbol => combineSeries m op symbol (leftVals.at symbol) (rightVals.at symbol))
    fun symbol member => ⟨_,combineSeries_eq_ok.mpr ⟨aligned symbol member,rfl⟩⟩
  exact ⟨results,evaluate_binaryOp_eq_ok.mpr ⟨leftVals,leftOk,rightVals,rightOk,done⟩⟩

theorem evaluate_timeSeries_total (found : operator name = some entry) (category : entry.category = .timeSeries)
    (bound : entry.tsEval = some tsEval) (arity : args.length = entry.arity)
    (evaluated : EvaluatesAll m provider lookback args argResults)
    (succeeds : ∀ symbol ∈ provider.getSymbols, ∃ vals, tsEval m (argResults.map (Results.at · symbol)) = .ok vals) :
    ∃ results, evaluate m provider lookback (.function name args) = .ok results := by
  obtain ⟨results,done⟩ := fill_total fun symbol member => (succeeds symbol member).imp fun vals applied =>
    (mapError_eq_ok (f := fun err => name ++ " for " ++ symbol ++ ": " ++ err)).mpr applied
  exact ⟨results,(evaluate_timeSeries_eq_ok found category bound arity).mpr ⟨argResults,evaluated,done⟩⟩

theorem evaluate_sliding_total {op : Numerics → Series → Int → Series} (found : operator name = some (seriesDef name self op))
    (innerOk : evaluate m provider lookback data = .ok inner) (value : ℚ) :
    ∃ results, evaluate m provider lookback (.function name [data,.literal value]) = .ok results := by
  obtain ⟨scalar,scalarOk⟩ := evaluate_literal_total value
  exact evaluate_timeSeries_total found rfl rfl rfl (.cons innerOk (.cons scalarOk .nil)) fun symbol _ => ⟨_,rfl⟩

theorem evaluate_correlating_total {first second : Node} {firstVals secondVals : Results}
    (firstOk : evaluate m provider lookback first = .ok firstVals)
    (secondOk : evaluate m provider lookback second = .ok secondVals) (value : ℚ) :
    ∃ results, evaluate m provider lookback (.function "ts_corr" [first,second,.literal value]) = .ok results := by
  obtain ⟨scalar,scalarOk⟩ := evaluate_literal_total value
  exact evaluate_timeSeries_total (show operator "ts_corr" = some tsCorrDef from rfl) rfl rfl rfl
    (.cons firstOk (.cons secondOk (.cons scalarOk .nil))) fun symbol _ => ⟨_,rfl⟩

end QuantTrading.Expression
