import QuantTrading.Expression.Evaluator

/-! The look-back a factor declares, and how many bars its last value needs: one more than
the declared look-back, if every window is written as a literal.
-/
namespace QuantTrading.Expression
open Library Value List

mutual

def deriveLookback : Node → Nat × Bool
  | .literal _ => (0,false)
  | .identifier _ => (0,false)
  | .unaryOp _ expr => deriveLookback expr
  | .binaryOp _ left right =>
    (max (deriveLookback left).1 (deriveLookback right).1,(deriveLookback left).2 || (deriveLookback right).2)
  | .function name args =>
    match operator name with
    | none => deriveLookbackArgs args
    | some entry =>
      ((deriveLookbackArgs args).1 + (if args.length = entry.arity then entry.selfLookback args else 0),
        (deriveLookbackArgs args).2 || entry.state)
  | .crossSectional _ expr none => deriveLookback expr
  | .crossSectional _ expr (some group) =>
    (max (deriveLookback expr).1 (deriveLookback group).1,(deriveLookback expr).2 || (deriveLookback group).2)

def deriveLookbackArgs : List Node → Nat × Bool
  | [] => (0,false)
  | arg :: args =>
    (max (deriveLookback arg).1 (deriveLookbackArgs args).1,(deriveLookback arg).2 || (deriveLookbackArgs args).2)

end

/-- The data set cut down to the last `n` bars of every input. -/
def DataProvider.lastBars (n : Nat) (provider : DataProvider) : DataProvider where
  getSymbols := provider.getSymbols
  getField := fun symbol field lookback =>
    (provider.getField symbol field lookback).map fun series => series.drop (series.length - n)

variable (provider : DataProvider) {self : List Node → Nat}

def History (lookback : Int) (bars : String → Nat) : Prop :=
  ∀ symbol ∈ provider.getSymbols, ∀ field series, provider.getField symbol field lookback = .ok series →
    series.length = bars symbol

def Node.literalScalars : Node → Bool
  | .function name args => (operator name).all fun entry =>
      entry.scalarParams.all fun i => (literalFloatAt args i).isSome
  | _ => true

def oneValue : Node → Bool
  | .literal _ => true
  | .identifier _ => false
  | .binaryOp _ left right => oneValue left && oneValue right
  | .unaryOp _ expr => oneValue expr
  | .function _ (arg :: _) => oneValue arg
  | .function _ [] => false
  | .crossSectional _ _ _ => true

def Node.pairsAlike : Node → Bool
  | .function name [first,second,_] => name ≠ "ts_corr" || oneValue first == oneValue second
  | _ => true

/-- What the full history of `bars` bars and its last `n` bars give a node: nothing, the same
single value, or series that agree from bar `back` of the short one on. -/
inductive SameEnd {A : Type} (one : Bool) (bars n back : Nat) (full short : List A) : Prop
  | nothing (full_nil : full = []) (short_nil : short = [])
  | value (v : A) (flat : one = true) (full_eq : full = [v]) (short_eq : short = [v])
  | series (long : one = false) (full_length : full.length = bars) (short_length : short.length = n)
      (ends : full.drop (bars - n + back) = short.drop back)

namespace SameEnd

variable {A B C : Type} {one one' : Bool} {bars n back back' : Nat} {full short : List A} {full' short' : List B}

section
variable (same : SameEnd one bars n back full short)
include same

theorem mono (further : back ≤ back') : SameEnd one bars n back' full short := by
  cases same with
  | nothing full_nil short_nil => exact .nothing full_nil short_nil
  | value v flat full_eq short_eq => exact .value v flat full_eq short_eq
  | series long full_length short_length ends =>
    refine .series long full_length short_length ?_
    obtain ⟨more,rfl⟩ := Nat.exists_eq_add_of_le further
    rw [← Nat.add_assoc,← drop_drop,ends,drop_drop]

theorem map (f : A → B) : SameEnd one bars n back (full.map f) (short.map f) := by
  cases same with
  | nothing full_nil short_nil =>
    rw [full_nil,short_nil]
    exact .nothing rfl rfl
  | value v flat full_eq short_eq =>
    rw [full_eq,short_eq]
    exact .value (f v) flat rfl rfl
  | series long full_length short_length ends =>
    refine .series long (by rw [length_map,full_length]) (by rw [length_map,short_length]) ?_
    rw [← map_drop,← map_drop,ends]

theorem trailing (blank : B) (size : Nat) (f : List A → B) :
    SameEnd one bars n (back + (size - 1)) (trailing blank size f full) (Library.trailing blank size f short) := by
  cases same with
  | nothing full_nil short_nil =>
    exact .nothing ((trailing_eq_nil_iff ..).mpr full_nil) ((trailing_eq_nil_iff ..).mpr short_nil)
  | value v flat full_eq short_eq =>
    rw [full_eq,short_eq]
    exact .value _ flat rfl rfl
  | series long full_length short_length ends =>
    refine .series long (by rw [length_trailing,full_length]) (by rw [length_trailing,short_length]) ?_
    rw [← Nat.add_assoc,drop_trailing,drop_trailing,ends]

theorem lengths : full.length = 0 ∧ short.length = 0 ∨
    one = true ∧ full.length = 1 ∧ short.length = 1 ∨ one = false ∧ full.length = bars ∧ short.length = n := by
  cases same with
  | nothing full_nil short_nil => simp [full_nil,short_nil]
  | value v flat full_eq short_eq => simp [flat,full_eq,short_eq]
  | series long full_length short_length => simp [long,full_length,short_length]

variable (enough : back + 1 ≤ n) (within : n ≤ bars)
include enough within

theorem getLast? : short.getLast? = full.getLast? := by
  cases same with
  | nothing full_nil short_nil => rw [full_nil,short_nil]
  | value v flat full_eq short_eq => rw [full_eq,short_eq]
  | series long full_length short_length ends =>
    have last_drop (xs : List A) (i : Nat) (inside : i < xs.length) : (xs.drop i).getLast? = xs.getLast? := by
      rw [List.getLast?_drop,if_neg (by omega)]
    rw [← last_drop short back (by omega),← ends,last_drop full _ (by omega)]

theorem nil_iff : full = [] ↔ short = [] := by
  cases same with
  | nothing full_nil short_nil => simp [full_nil,short_nil]
  | value v flat full_eq short_eq => simp [full_eq,short_eq]
  | series =>
    rw [← length_eq_zero_iff,← length_eq_zero_iff]
    omega

variable (same' : SameEnd one' bars n back full' short')
include same'

theorem combine (aligned : Aligned full full') (f : A → B → C) : Aligned short short' ∧
      SameEnd (one && one') bars n back (combine f full full') (Library.combine f short short') := by
  have empty := same.nil_iff enough within
  have empty' := same'.nil_iff enough within
  by_cases none : full = []
  · -- Nothing meets only nothing.
    have none' := aligned.nil_iff.mp none
    rw [none,none',empty.mp none,empty'.mp none']
    exact ⟨rfl,.nothing rfl rfl⟩
  have some_ : short ≠ [] := fun gone => none (empty.mpr gone)
  have some' : short' ≠ [] := fun gone => none (aligned.nil_iff.mpr (empty'.mpr gone))
  have full_some' : full' ≠ [] := fun gone => none (aligned.nil_iff.mpr gone)
  cases same with
  | nothing full_nil => exact absurd full_nil none
  | value v flat full_eq short_eq =>
    have mapped := same'.map (f v)
    rw [full_eq,short_eq,combine_singleton_left f v full_some',combine_singleton_left f v some',flat]
    exact ⟨(aligned_iff ..).mpr (.inr (.inl ⟨rfl,some'⟩)),mapped⟩
  | series long full_length short_length ends =>
    cases same' with
    | nothing full_nil' => exact absurd full_nil' full_some'
    | value v flat full_eq short_eq =>
      rw [full_eq,short_eq,combine_singleton_right f none v,combine_singleton_right f some_ v,flat,Bool.and_true]
      exact ⟨(aligned_iff ..).mpr (.inr (.inr ⟨rfl,some_⟩)),(series long full_length short_length ends).map (f · v)⟩
    | series long' full_length' short_length' ends' =>
      have lengths := full_length.trans full_length'.symm
      have lengths' := short_length.trans short_length'.symm
      rw [combine_of_length_eq f lengths,combine_of_length_eq f lengths',long]
      refine ⟨(aligned_iff ..).mpr (.inl lengths'),.series rfl ?_ ?_ ?_⟩
      · rw [length_zipWith,full_length,full_length',Nat.min_self]
      · rw [length_zipWith,short_length,short_length',Nat.min_self]
      · rw [drop_zipWith,drop_zipWith,ends,ends']

variable (alike : 2 ≤ n ∨ one = one')
include alike

theorem length_eq_iff : full.length = full'.length ↔ short.length = short'.length := by
  rcases same.lengths with nothing | ⟨flat,value⟩ | ⟨long,series⟩ <;>
    rcases same'.lengths with nothing' | ⟨flat',value'⟩ | ⟨long',series'⟩
  case inr.inl.inr.inr => rcases alike with two | alike; omega; simp [flat,long'] at alike
  case inr.inr.inr.inl => rcases alike with two | alike; omega; simp [long,flat'] at alike
  all_goals omega

theorem zip (pair : full.length = full'.length) : SameEnd one bars n back (full.zip full') (short.zip short') := by
  cases same with
  | nothing full_nil short_nil =>
    rw [full_nil,short_nil]
    exact .nothing rfl rfl
  | value v flat full_eq short_eq =>
    cases same' with
    | nothing full_nil' => simp [full_eq,full_nil'] at pair
    | value v' flat' full_eq' short_eq' =>
      rw [full_eq,short_eq,full_eq',short_eq']
      exact .value (v,v') flat rfl rfl
    | series long' full_length' =>
      rcases alike with two | alike
      · rw [full_eq,full_length',length_singleton] at pair
        omega
      · simp [flat,long'] at alike
  | series long full_length short_length ends =>
    cases same' with
    | nothing full_nil' =>
      rw [full_nil',full_length,length_nil] at pair
      omega
    | value v' flat' full_eq' =>
      rcases alike with two | alike
      · rw [full_eq',full_length,length_singleton] at pair
        omega
      · simp [long,flat'] at alike
    | series long' full_length' short_length' ends' =>
      refine .series long ?_ ?_ ?_
      · rw [length_zip,full_length,full_length',Nat.min_self]
      · rw [length_zip,short_length,short_length',Nat.min_self]
      · simp only [zip_eq_zipWith,drop_zipWith,ends,ends']

end

section
variable {full short : Series} (same : SameEnd one bars n back full short)
include same

theorem correlating {full' short' : Series} (same' : SameEnd one' bars n back full' short') (enough : back + 1 ≤ n)
    (within : n ≤ bars) (alike : 2 ≤ n ∨ one = one') (m : Numerics) (window : Int) :
    SameEnd one bars n (back + (window.toNat - 1)) (tsCorr m full full' window) (tsCorr m short short' window) := by
  have pair := same.length_eq_iff enough within same' alike
  rw [tsCorr_eq,tsCorr_eq]
  by_cases apart : window ≤ 0 ∨ full.length ≠ full'.length
  · have apart' : window ≤ 0 ∨ short.length ≠ short'.length := apart.imp_right fun ne eq => ne (pair.mpr eq)
    rw [if_pos apart,if_pos apart']
    exact .nothing rfl rfl
  · obtain ⟨positive,lengths⟩ := not_or.mp apart
    have lengths := not_not.mp lengths
    rw [if_neg apart,if_neg (not_or.mpr ⟨positive,not_not.mpr (pair.mp lengths)⟩)]
    exact (same.zip enough within same' alike lengths).trailing none _ _

theorem sliding {op : Numerics → Series → Int → Series} (slides : Sliding self op) (m : Numerics) (data : Node)
    (value : ℚ) : SameEnd one bars n (back + self [data,.literal value]) (op m full (toInt (some value)))
      (op m short (toInt (some value))) := by
  obtain ⟨extra,reads,declares⟩ := slides
  obtain ⟨f,reads⟩ := reads m
  rw [reads,reads]
  split
  · exact .nothing rfl rfl
  rename_i positive
  rw [declares _ _ rfl (not_le.mp positive)]
  exact same.trailing none _ f

end

end SameEnd

variable {args : List Node}

theorem literal_of_literalFloatAt {i : Nat} {arg : Node} (here : args[i]? = some arg)
    (literal : (literalFloatAt args i).isSome = true) : ∃ value, arg = .literal value := by
  rw [literalFloatAt,here] at literal
  cases arg with
  | literal value => exact ⟨value,rfl⟩
  | _ => cases literal

theorem applyCrossSectional_congr {m : Numerics} {symbols : List String} {op : String} {expr expr' : Results}
    {group group' : Option Results} (same : ∀ symbol ∈ symbols, (expr'.at symbol).getLast? = (expr.at symbol).getLast?)
    (sameGroup : Option.Rel (fun labels labels' : Results => ∀ symbol ∈ symbols,
      (labels'.at symbol).getLast? = (labels.at symbol).getLast?) group group') :
    applyCrossSectional m symbols op expr' group' = applyCrossSectional m symbols op expr group := by
  have lasts {results results' : Results}
      (ends : ∀ symbol ∈ symbols, (results'.at symbol).getLast? = (results.at symbol).getLast?) :
      (symbols.map fun symbol => last (results'.at symbol)) = symbols.map fun symbol => last (results.at symbol) := by
    refine map_congr_left fun symbol member => ?_
    rw [last,last,getLastD_eq_getLast?,getLastD_eq_getLast?,ends symbol member]
  cases sameGroup with
  | none => simp only [applyCrossSectional,lasts same,map_none]
  | some ends => simp only [applyCrossSectional,lasts same,map_some,lasts ends]

theorem deriveLookbackArgs_mem {arg : Node} (member : arg ∈ args) :
    (deriveLookback arg).1 ≤ (deriveLookbackArgs args).1 ∧
      ((deriveLookbackArgs args).2 = false → (deriveLookback arg).2 = false) := by
  induction args with
  | nil => cases member
  | cons first rest ih =>
    simp only [deriveLookbackArgs,Bool.or_eq_false_iff]
    rcases mem_cons.mp member with rfl | later
    · exact ⟨Nat.le_max_left _ _,And.left⟩
    · obtain ⟨bound,states⟩ := ih later
      exact ⟨le_trans bound (Nat.le_max_right _ _),fun finite => states finite.2⟩

theorem deriveLookback_arg (name : String) {arg : Node} (member : arg ∈ args) :
    (deriveLookback arg).1 ≤ (deriveLookback (.function name args)).1 ∧
      ((deriveLookback (.function name args)).2 = false → (deriveLookback arg).2 = false) := by
  obtain ⟨bound,states⟩ := deriveLookbackArgs_mem member
  simp only [deriveLookback]
  split
  · exact ⟨bound,states⟩
  · exact ⟨le_trans bound (Nat.le_add_right _ _),fun finite => states (Bool.or_eq_false_iff.mp finite).1⟩

theorem deriveLookback_sliding {name : String} {op : Numerics → Series → Int → Series}
    (found : operator name = some (seriesDef name self op)) (data : Node) (value : ℚ) :
    (deriveLookback (.function name [data,.literal value])).1 =
      (deriveLookback data).1 + self [data,.literal value] := by
  simp [deriveLookback,deriveLookbackArgs,found,seriesDef]

theorem deriveLookback_correlating (first second : Node) (value : ℚ) :
    (deriveLookback (.function "ts_corr" [first,second,.literal value])).1 =
      max (deriveLookback first).1 (deriveLookback second).1 + ((toInt (some value)).toNat - 1) := by
  have found : operator "ts_corr" = some tsCorrDef := rfl
  have self : windowSelfLookbackAt 2 [first,second,.literal value] = (toInt (some value)).toNat - 1 := by
    have read : literalIntAt [first,second,.literal value] 2 = some (toInt (some value)) := rfl
    rw [windowSelfLookbackAt,read]
    simp only
    split <;> omega
  simp [deriveLookback,deriveLookbackArgs,found,tsCorrDef,self]

/-- The conditions under which the declared look-back is what a tree reads. -/
structure Declares (n : Nat) (node : Node) : Prop where
  valid : node.Valid
  literals : node.everywhere Node.literalScalars = true
  alike : 2 ≤ n ∨ node.everywhere Node.pairsAlike = true
  finite : (deriveLookback node).2 = false
  enough : (deriveLookback node).1 + 1 ≤ n

namespace Declares

variable {n : Nat}

variable {op : String} {expr : Node} {name : String}

theorem unaryOp (declares : Declares n (.unaryOp op expr)) : Declares n expr := by
  obtain ⟨valid,literals,alike,finite,enough⟩ := declares
  simp only [Node.everywhere,Bool.and_eq_true] at literals alike
  exact ⟨valid.unaryOp,literals.2,alike.imp_right And.right,finite,enough⟩

theorem binaryOp {left right : Node} (declares : Declares n (.binaryOp op left right)) :
    Declares n left ∧ Declares n right := by
  obtain ⟨valid,literals,alike,finite,enough⟩ := declares
  simp only [Node.everywhere,Bool.and_eq_true] at literals alike
  simp only [deriveLookback,Bool.or_eq_false_iff] at finite enough
  exact ⟨⟨valid.binaryOp.1,literals.1.2,alike.imp_right (·.1.2),finite.1,by omega⟩,
    valid.binaryOp.2,literals.2,alike.imp_right And.right,finite.2,by omega⟩

theorem arg {args : List Node} (declares : Declares n (.function name args)) {arg : Node}
    (member : arg ∈ args) (valid : arg.Valid) : Declares n arg := by
  obtain ⟨-,literals,alike,finite,enough⟩ := declares
  simp only [Node.everywhere,Bool.and_eq_true,Node.everywhereIn_iff] at literals alike
  obtain ⟨bound,states⟩ := deriveLookback_arg name member
  exact ⟨valid,literals.2 arg member,alike.imp_right fun each => each.2 arg member,states finite,by omega⟩

theorem literal {args : List Node} {entry : OperatorDef}
    (declares : Declares n (.function name args)) (found : operator name = some entry) {i : Nat}
    (listed : i ∈ entry.scalarParams) {arg : Node} (here : args[i]? = some arg) : ∃ value, arg = .literal value := by
  have literals := declares.literals
  simp only [Node.everywhere,Bool.and_eq_true,Node.literalScalars,found,Option.all_some,all_eq_true] at literals
  exact literal_of_literalFloatAt here (literals.1 i listed)

theorem alike_pair {first second window : Node}
    (declares : Declares n (.function "ts_corr" [first,second,window])) : 2 ≤ n ∨ oneValue first = oneValue second := by
  refine declares.alike.imp_right fun each => ?_
  simp only [Node.everywhere,Bool.and_eq_true,Node.pairsAlike] at each
  simpa using each.1

theorem group {group : Option Node} (declares : Declares n (.crossSectional op expr group)) :
    Declares n expr ∧ ∀ label ∈ group, Declares n label := by
  obtain ⟨valid,literals,alike,finite,enough⟩ := declares
  obtain ⟨exprValid,labelValid⟩ := valid.crossSectional
  cases group with
  | none =>
    simp only [Node.everywhere,Bool.and_eq_true] at literals alike
    exact ⟨⟨exprValid,literals.2,alike.imp_right And.right,finite,enough⟩,by simp⟩
  | some label =>
    simp only [Node.everywhere,Bool.and_eq_true] at literals alike
    simp only [deriveLookback,Bool.or_eq_false_iff] at finite enough
    refine ⟨⟨exprValid,literals.1.2,alike.imp_right (·.1.2),finite.1,by omega⟩,?_⟩
    intro other same
    cases same
    exact ⟨labelValid label rfl,literals.2,alike.imp_right And.right,finite.2,by omega⟩

end Declares

section LastBars
variable {m : Numerics} {provider : DataProvider} {lookback : Int} {bars : String → Nat} {n : Nat}
  {full : Results}

/-- A node that the full history gives a value has one on the last `n` bars, and the end of
the full series is fixed by the bars the node's look-back declares. -/
def EndsAlike (m : Numerics) (provider : DataProvider) (lookback : Int) (bars : String → Nat) (n : Nat)
    (node : Node) : Prop :=
  ∀ full, evaluate m provider lookback node = .ok full →
    ∃ short, evaluate m (provider.lastBars n) lookback node = .ok short ∧ ∀ symbol ∈ provider.getSymbols,
      SameEnd (oneValue node) (bars symbol) n (deriveLookback node).1 (full.at symbol) (short.at symbol)

namespace EndsAlike

theorem literal (value : ℚ) : EndsAlike m provider lookback bars n (.literal value) := by
  intro full ok
  obtain ⟨short,shortOk⟩ := evaluate_literal_total value
  refine ⟨short,shortOk,?_⟩
  intro symbol member
  exact .value (some value) rfl (evaluate_literal ok member) (evaluate_literal shortOk member)

variable {op : String} {expr : Node} {name : String}

theorem unaryOp (inside : EndsAlike m provider lookback bars n expr) :
    EndsAlike m provider lookback bars n (.unaryOp op expr) := by
  intro full ok
  obtain ⟨inner,innerOk,done⟩ := evaluate_unaryOp_eq_ok.mp ok
  obtain ⟨shortInner,shortInnerOk,same⟩ := inside inner innerOk
  obtain ⟨short,shortOk⟩ := evaluate_unaryOp_total shortInnerOk
  refine ⟨short,shortOk,?_⟩
  intro symbol member
  obtain ⟨_,again,shortDone⟩ := evaluate_unaryOp_eq_ok.mp shortOk
  cases shortInnerOk.symm.trans again
  rw [← Except.ok.inj (Results.at_fill done member),← Except.ok.inj (Results.at_fill shortDone member)]
  exact (same symbol member).map _

theorem unaryFunction {arg : Node} (category : operatorCategory name = some .unary)
    (inside : EndsAlike m provider lookback bars n arg) :
    EndsAlike m provider lookback bars n (.function name [arg]) := by
  intro full ok
  obtain ⟨_,inner,only,innerOk,rfl⟩ := (evaluate_unaryFunction_eq_ok category).mp ok
  cases only
  obtain ⟨short,shortOk,same⟩ := inside inner innerOk
  refine ⟨_,(evaluate_unaryFunction_eq_ok category).mpr ⟨arg,short,rfl,shortOk,rfl⟩,?_⟩
  intro symbol member
  rw [Results.at_map,Results.at_map]
  exact ((same symbol member).map _).mono (deriveLookback_arg name (mem_singleton_self arg)).1

theorem sliding {op : Numerics → Series → Int → Series} {data : Node}
    (found : operator name = some (seriesDef name self op)) (slides : Sliding self op)
    (inside : EndsAlike m provider lookback bars n data) (value : ℚ) :
    EndsAlike m provider lookback bars n (.function name [data,.literal value]) := by
  intro full ok
  obtain ⟨inner,innerOk,values⟩ := evaluate_sliding found rfl ok
  obtain ⟨shortInner,shortInnerOk,same⟩ := inside inner innerOk
  obtain ⟨short,shortOk⟩ := evaluate_sliding_total found shortInnerOk value
  refine ⟨short,shortOk,?_⟩
  intro symbol member
  obtain ⟨_,again,shortValues⟩ := evaluate_sliding found rfl shortOk
  cases shortInnerOk.symm.trans again
  rw [values symbol member,shortValues symbol member,deriveLookback_sliding found]
  exact (same symbol member).sliding slides m data value

variable (long : ∀ symbol ∈ provider.getSymbols, n ≤ bars symbol)
include long

theorem identifier (history : History provider lookback bars) (name : String) :
    EndsAlike m provider lookback bars n (.identifier name) := by
  intro full ok
  have reads : ∀ symbol ∈ provider.getSymbols, (provider.lastBars n).getField symbol name lookback =
      .ok ((full.at symbol).drop ((full.at symbol).length - n)) := by
    intro symbol member
    simp only [DataProvider.lastBars,evaluate_identifier ok member]
    rfl
  obtain ⟨short,shortOk⟩ : ∃ short, evaluate m (provider.lastBars n) lookback (.identifier name) = .ok short := by
    exact Book.fill_total fun symbol member => ⟨_,mapError_eq_ok.mpr (reads symbol member)⟩
  refine ⟨short,shortOk,?_⟩
  intro symbol member
  have cut := Except.ok.inj ((reads symbol member).symm.trans (evaluate_identifier shortOk member))
  have whole := history symbol member name _ (evaluate_identifier ok member)
  have within := long symbol member
  refine .series rfl whole ?_ ?_
  · rw [← cut,length_drop]
    omega
  · rw [← cut,whole]
    rfl

theorem binaryOp {left right : Node} (leftInside : EndsAlike m provider lookback bars n left)
    (rightInside : EndsAlike m provider lookback bars n right)
    (enough : (deriveLookback (.binaryOp op left right)).1 + 1 ≤ n) :
    EndsAlike m provider lookback bars n (.binaryOp op left right) := by
  intro full ok
  obtain ⟨leftVals,leftOk,rightVals,rightOk,done⟩ := evaluate_binaryOp_eq_ok.mp ok
  obtain ⟨leftShort,leftShortOk,leftSame⟩ := leftInside leftVals leftOk
  obtain ⟨rightShort,rightShortOk,rightSame⟩ := rightInside rightVals rightOk
  have both : ∀ symbol ∈ provider.getSymbols, Aligned (leftShort.at symbol) (rightShort.at symbol) ∧
      SameEnd (oneValue (.binaryOp op left right)) (bars symbol) n (deriveLookback (.binaryOp op left right)).1
        (full.at symbol) (combine (applyBinaryOp m op) (leftShort.at symbol) (rightShort.at symbol)) := by
    intro symbol member
    obtain ⟨aligned,combined⟩ := combineSeries_eq_ok.mp (Results.at_fill done member)
    rw [← combined]
    exact ((leftSame symbol member).mono (Nat.le_max_left _ _)).combine enough (long symbol member)
      ((rightSame symbol member).mono (Nat.le_max_right _ _)) aligned _
  obtain ⟨short,shortOk⟩ := evaluate_binaryOp_total leftShortOk rightShortOk fun symbol member => (both symbol member).1
  refine ⟨short,shortOk,?_⟩
  intro symbol member
  obtain ⟨_,leftAgain,_,rightAgain,shortDone⟩ := evaluate_binaryOp_eq_ok.mp shortOk
  cases leftShortOk.symm.trans leftAgain
  cases rightShortOk.symm.trans rightAgain
  rw [← (combineSeries_eq_ok.mp (Results.at_fill shortDone member)).2]
  exact (both symbol member).2

theorem correlating {first second : Node} {value : ℚ} (inside : EndsAlike m provider lookback bars n first)
    (inside' : EndsAlike m provider lookback bars n second)
    (declares : Declares n (.function "ts_corr" [first,second,.literal value])) :
    EndsAlike m provider lookback bars n (.function "ts_corr" [first,second,.literal value]) := by
  intro full ok
  obtain ⟨vals,firstOk,vals',secondOk,values⟩ := evaluate_correlating rfl ok
  obtain ⟨short,shortOk,same⟩ := inside vals firstOk
  obtain ⟨short',shortOk',same'⟩ := inside' vals' secondOk
  obtain ⟨result,resultOk⟩ := evaluate_correlating_total shortOk shortOk' value
  refine ⟨result,resultOk,?_⟩
  intro symbol member
  obtain ⟨_,again,_,again',shortValues⟩ := evaluate_correlating rfl resultOk
  cases shortOk.symm.trans again
  cases shortOk'.symm.trans again'
  have enough := declares.enough
  rw [deriveLookback_correlating] at enough
  rw [values symbol member,shortValues symbol member,deriveLookback_correlating]
  exact ((same symbol member).mono (Nat.le_max_left _ _)).correlating
    ((same' symbol member).mono (Nat.le_max_right _ _)) (by omega) (long symbol member) declares.alike_pair m _

theorem getLast? {node : Node} (inside : EndsAlike m provider lookback bars n node)
    (enough : (deriveLookback node).1 + 1 ≤ n) (ok : evaluate m provider lookback node = .ok full) :
    ∃ short, evaluate m (provider.lastBars n) lookback node = .ok short ∧ ∀ symbol ∈ provider.getSymbols,
      (short.at symbol).getLast? = (full.at symbol).getLast? := by
  obtain ⟨short,shortOk,same⟩ := inside full ok
  exact ⟨short,shortOk,fun symbol member => (same symbol member).getLast? enough (long symbol member)⟩

theorem crossSectional {group : Option Node}
    (inside : EndsAlike m provider lookback bars n expr)
    (groupInside : ∀ label ∈ group, EndsAlike m provider lookback bars n label)
    (declares : Declares n (.crossSectional op expr group)) :
    EndsAlike m provider lookback bars n (.crossSectional op expr group) := by
  intro full ok
  obtain ⟨inner,innerOk,labels,related,done⟩ := evaluate_crossSectional_eq_ok.mp ok
  obtain ⟨exprDeclares,labelDeclares⟩ := declares.group
  obtain ⟨short,shortOk,ends⟩ := inside.getLast? long exprDeclares.enough innerOk
  obtain ⟨shortLabels,shortRelated,sameGroup⟩ : ∃ shortLabels,
      Option.Rel (fun label result => evaluate m (provider.lastBars n) lookback label = .ok result) group shortLabels ∧
        Option.Rel (fun labels labels' : Results => ∀ symbol ∈ provider.getSymbols,
          (labels'.at symbol).getLast? = (labels.at symbol).getLast?) labels shortLabels := by
    cases related with
    | none => exact ⟨none,.none,.none⟩
    | @some label result labelOk =>
      obtain ⟨shortLabel,shortLabelOk,labelEnds⟩ :=
        (groupInside label rfl).getLast? long (labelDeclares label rfl).enough labelOk
      exact ⟨some shortLabel,.some shortLabelOk,.some labelEnds⟩
  -- The operands have the same last values, so the node is the same on both histories.
  refine ⟨full,evaluate_crossSectional_eq_ok.mpr ⟨short,shortOk,shortLabels,shortRelated,?_⟩,?_⟩
  · exact (applyCrossSectional_congr ends sameGroup).trans done
  · intro symbol member
    obtain ⟨v,value⟩ := applyCrossSectional_single done member
    exact .value v rfl value value

end EndsAlike

/-- The induction over the tree. -/
theorem Declares.endsAlike {node : Node} (declares : Declares n node) (history : History provider lookback bars)
    (long : ∀ symbol ∈ provider.getSymbols, n ≤ bars symbol) : EndsAlike m provider lookback bars n node := by
  induction node using Node.induction with
  | literal value => exact .literal value
  | identifier name => exact .identifier long history name
  | binaryOp op left right leftIh rightIh =>
    exact .binaryOp long (leftIh declares.binaryOp.1) (rightIh declares.binaryOp.2) declares.enough
  | unaryOp op expr ih => exact .unaryOp (ih declares.unaryOp)
  | function name args ih =>
    cases declares.valid.wellCalled with
    | @unary arg category valid =>
      have member := mem_singleton_self arg
      exact .unaryFunction category (ih arg member (declares.arg member valid))
    | @sliding self op data window found slides constant valid =>
      obtain ⟨value,rfl⟩ := declares.literal found mem_cons_self (show [data,window][1]? = some window from rfl)
      exact .sliding found slides (ih data mem_cons_self (declares.arg mem_cons_self valid)) value
    | @correlating first second window name_eq constant firstValid secondValid =>
      subst name_eq
      have member : second ∈ [first,second,window] := by simp
      obtain ⟨value,rfl⟩ := declares.literal (show operator "ts_corr" = some tsCorrDef from rfl) mem_cons_self
        (show [first,second,window][2]? = some window from rfl)
      exact .correlating long (ih first mem_cons_self (declares.arg mem_cons_self firstValid))
        (ih second member (declares.arg member secondValid)) declares
    | recursive found =>
      have finite := declares.finite
      simp [deriveLookback,found,recursiveDef] at finite
  | crossSectional op expr group ih groupIh =>
    exact .crossSectional long (ih declares.group.1)
      (fun label inGroup => groupIh label inGroup (declares.group.2 label inGroup)) declares

/-- For every factor that passes the gate, has no recursive operator and writes its windows as
literals, and every history longer than the factor's look-back: the last value on the whole
history is the last value on one bar more than the look-back. (A correlation of a series with a
constant needs a second bar.) -/
theorem evaluate_lastBars {node : Node} (accepted : node.Accepted)
    (literals : node.everywhere Node.literalScalars = true) (finite : (deriveLookback node).2 = false)
    (enough : (deriveLookback node).1 + 1 ≤ n) (alike : 2 ≤ n ∨ node.everywhere Node.pairsAlike = true)
    (history : History provider lookback bars) (long : ∀ symbol ∈ provider.getSymbols, n ≤ bars symbol)
    (ok : evaluate m provider lookback node = .ok full) :
    ∃ short, evaluate m (provider.lastBars n) lookback node = .ok short ∧ ∀ symbol ∈ provider.getSymbols,
      (short.at symbol).getLast? = (full.at symbol).getLast? := by
  have declares : Declares n node := ⟨⟨"root",accepted⟩,literals,alike,finite,enough⟩
  exact (declares.endsAlike history long).getLast? long enough ok

end LastBars

theorem single_history (series : Series) (lookback : Int) :
    History (single series) lookback fun _ => series.length := by
  intro symbol _ field read found
  cases found
  rfl

theorem meanOfTwo_lastBars : ∃ full short, evaluate plain (single [some 9,some 1,some 2]) 0 meanOfTwo = .ok full ∧
      evaluate plain ((single [some 9,some 1,some 2]).lastBars 2) 0 meanOfTwo = .ok short ∧
        ∀ symbol ∈ ["A"], (short.at symbol).getLast? = (full.at symbol).getLast? := by
  obtain ⟨full,ok⟩ := exists_ok (x := evaluate plain (single [some 9,some 1,some 2]) 0 meanOfTwo) (by decide +kernel)
  have accepted : meanOfTwo.Accepted := by decide +kernel
  obtain ⟨short,shortOk,same⟩ := evaluate_lastBars accepted (by decide +kernel) (by decide +kernel)
    (show (deriveLookback meanOfTwo).1 + 1 ≤ 2 by decide +kernel) (.inl le_rfl) (single_history _ 0)
    (fun _ _ => by decide) ok
  exact ⟨full,short,ok,shortOk,same⟩

def meanOfSum : Node := .function "ts_mean" [.identifier "close",.binaryOp "+" (.literal 1) (.literal 1)]

def lastValue (node : Node) : Except String (Option Value) :=
  (evaluate plain provider 0 node).map fun results => (results.at "A").getLast?

/-- A mean of two bars declares a look-back of one, and one bar is too few for it. Written with
a constant expression, the same window declares no look-back at all, and passes the gate. -/
theorem lookback_tooShort : (meanOfTwo.Accepted ∧ deriveLookback meanOfTwo = (1,false) ∧
      lastValue (single [some 1,some 2]) meanOfTwo = .ok (some (some (3 / 2))) ∧
      lastValue ((single [some 1,some 2]).lastBars 1) meanOfTwo = .ok (some none)) ∧
    (meanOfSum.Accepted ∧ deriveLookback meanOfSum = (0,false) ∧
      lastValue (single [some 1,some 2]) meanOfSum = .ok (some (some (3 / 2))) ∧
      lastValue ((single [some 1,some 2]).lastBars 0) meanOfSum = .ok none ∧
      lastValue ((single [some 1,some 2]).lastBars 1) meanOfSum = .ok (some none)) := by
  decide +kernel

end QuantTrading.Expression
