import QuantTrading.Expression.Evaluator

/-! No look-ahead: two data sets that agree on their first bars give a factor series that
agree on as many entries, as long as neither loses its series. A correlation loses it when
its two series differ in length, and a constant operand is one entry long.
-/
namespace QuantTrading.Expression
open Library Value List
open Results (at_fill at_map)

def FrontAgree {A : Type} (k : Nat) (xs ys : List A) : Prop := (xs = [] ↔ ys = []) → xs.take k = ys.take k

namespace FrontAgree

section Lists
variable {A B C : Type} {k : Nat} {xs ys : List A}

theorem map (agree : FrontAgree k xs ys) (f : A → B) : FrontAgree k (xs.map f) (ys.map f) := by
  intro both
  simp only [map_eq_nil_iff] at both
  rw [← map_take,← map_take,agree both]

theorem trailing (agree : FrontAgree k xs ys) (blank : B) (n : Nat) (f : List A → B) :
    FrontAgree k (trailing blank n f xs) (Library.trailing blank n f ys) := by
  intro both
  rw [trailing_eq_nil_iff,trailing_eq_nil_iff] at both
  rw [take_trailing,take_trailing,agree both]

theorem combine {left left' : List A} {right right' : List B} (agree : FrontAgree k left left')
    (agree' : FrontAgree k right right') (aligned : Aligned left right) (aligned' : Aligned left' right')
    (f : A → B → C) : FrontAgree k (combine f left right) (Library.combine f left' right') := by
  intro both
  rw [combine_eq_nil_iff f aligned,combine_eq_nil_iff f aligned'] at both
  rcases Nat.eq_zero_or_pos k with rfl | positive
  · simp
  · rw [take_combine f positive,take_combine f positive,agree both,
      agree' (aligned.nil_iff.symm.trans (both.trans aligned'.nil_iff))]

end Lists

variable {k : Nat} {xs ys : Series} {m : Numerics}

theorem sliding (agree : FrontAgree k xs ys) {self : List Node → Nat} {op : Numerics → Series → Int → Series}
    (slides : Sliding self op) (window : Int) : FrontAgree k (op m xs window) (op m ys window) := by
  obtain ⟨extra,reads,-⟩ := slides
  obtain ⟨f,reads⟩ := reads m
  rw [reads,reads]
  split
  · exact fun _ => rfl
  · exact agree.trailing none _ f

section
variable {first second first' second' : Series} (agree : FrontAgree k first first')
  (agree' : FrontAgree k second second')
include agree agree'

theorem zip (same : first.length = second.length) (same' : first'.length = second'.length) :
    FrontAgree k (first.zip second) (first'.zip second') := by
  intro both
  simp only [← length_eq_zero_iff,length_zip,← same,← same',Nat.min_self] at both
  simp only [zip_eq_zipWith,take_zipWith]
  rw [agree (by simpa only [length_eq_zero_iff] using both)]
  rw [same,same'] at both
  rw [agree' (by simpa only [length_eq_zero_iff] using both)]

theorem correlating (window : Int) : FrontAgree k (tsCorr m first second window) (tsCorr m first' second' window) := by
  rw [tsCorr_eq,tsCorr_eq]
  by_cases empty : window ≤ 0
  · simp only [empty,true_or,if_true]
    exact fun _ => rfl
  -- Only where both correlations pair their series up do both have entries to compare.
  by_cases same : first.length = second.length
  · by_cases same' : first'.length = second'.length
    · simp only [empty,same,same',ne_eq,not_true_eq_false,or_self,if_false]
      exact (agree.zip agree' same same').trailing none _ _
    · intro both
      simp only [empty,same,same',ne_eq,not_true_eq_false,not_false_eq_true,or_true,or_self,if_true,if_false,
        iff_true] at both ⊢
      rw [both]
  · intro both
    simp only [empty,same,ne_eq,not_false_eq_true,or_true,if_true,true_iff] at both ⊢
    rw [both]

end

theorem recursive (agree : FrontAgree k xs ys) {op : Numerics → List Series → Except String Series}
    (runs : Recursive op) {scalars : List Series} {out out' : Series}
    (done : op m (xs :: scalars) = .ok out) (done' : op m (ys :: scalars) = .ok out') : FrontAgree k out out' := by
  obtain ⟨length,front⟩ := runs m xs scalars out done
  obtain ⟨length',front'⟩ := runs m ys scalars out' done'
  intro both
  rw [← length_eq_zero_iff,← length_eq_zero_iff,length,length',length_eq_zero_iff,
    length_eq_zero_iff] at both
  have same := (front k).symm.trans ((congrArg (fun data => op m (data :: scalars)) (agree both)).trans (front' k))
  exact Except.ok.inj same

end FrontAgree

def Node.withinSymbol : Node → Bool
  | .crossSectional _ _ _ => false
  | _ => true

def Node.seriesOnly (node : Node) : Bool := node.everywhere Node.withinSymbol

/-- The same symbols, and series that agree on their first bars wherever both data sets have
one. -/
structure SameFront (k : Nat) (lookback : Int) (first second : DataProvider) : Prop where
  symbols : first.getSymbols = second.getSymbols
  front : ∀ symbol ∈ first.getSymbols, ∀ field xs ys, first.getField symbol field lookback = .ok xs →
    second.getField symbol field lookback = .ok ys → xs.take k = ys.take k

variable {m : Numerics} {k : Nat} {lookback : Int} {first second : DataProvider} {results results' : Results}
  {symbol : String}

variable {node : Node}

/-- The induction over the tree: every operator carries the agreement of its operands over. -/
theorem evaluate_frontAgree (same : SameFront k lookback first second) (valid : node.Valid)
    (series : node.seriesOnly = true) (ok : evaluate m first lookback node = .ok results)
    (ok' : evaluate m second lookback node = .ok results') (member : symbol ∈ first.getSymbols) :
    FrontAgree k (results.at symbol) (results'.at symbol) := by
  have member' : symbol ∈ second.getSymbols := same.symbols ▸ member
  induction node using Node.induction generalizing results results' with
  | literal =>
    rw [evaluate_literal ok member,evaluate_literal ok' member']
    exact fun _ => rfl
  | identifier name =>
    exact fun _ => same.front symbol member name _ _ (evaluate_identifier ok member) (evaluate_identifier ok' member')
  | binaryOp op left right leftIh rightIh =>
    simp only [Node.seriesOnly,Node.everywhere,Node.withinSymbol,Bool.true_and,Bool.and_eq_true] at series
    obtain ⟨leftVals,leftOk,rightVals,rightOk,done⟩ := evaluate_binaryOp_eq_ok.mp ok
    obtain ⟨leftVals',leftOk',rightVals',rightOk',done'⟩ := evaluate_binaryOp_eq_ok.mp ok'
    obtain ⟨aligned,combined⟩ := combineSeries_eq_ok.mp (at_fill done member)
    obtain ⟨aligned',combined'⟩ := combineSeries_eq_ok.mp (at_fill done' member')
    rw [← combined,← combined']
    exact (leftIh valid.binaryOp.1 series.1 leftOk leftOk').combine
      (rightIh valid.binaryOp.2 series.2 rightOk rightOk') aligned aligned' _
  | unaryOp op expr ih =>
    obtain ⟨inner,innerOk,done⟩ := evaluate_unaryOp_eq_ok.mp ok
    obtain ⟨inner',innerOk',done'⟩ := evaluate_unaryOp_eq_ok.mp ok'
    rw [← Except.ok.inj (at_fill done member),← Except.ok.inj (at_fill done' member')]
    exact (ih valid.unaryOp series innerOk innerOk').map _
  | function name args ih =>
    simp only [Node.seriesOnly,Node.everywhere,Node.withinSymbol,Bool.true_and,Node.everywhereIn_iff] at series
    cases valid.wellCalled with
    | unary category argValid =>
      obtain ⟨arg,inner,only,innerOk,rfl⟩ := (evaluate_unaryFunction_eq_ok category).mp ok
      cases only
      obtain ⟨arg,inner',only,innerOk',rfl⟩ := (evaluate_unaryFunction_eq_ok category).mp ok'
      cases only
      rw [at_map,at_map]
      exact (ih _ mem_cons_self argValid (series _ mem_cons_self) innerOk innerOk').map _
    | sliding found slides constant dataValid =>
      obtain ⟨inner,innerOk,values⟩ := evaluate_sliding found constant ok
      obtain ⟨inner',innerOk',values'⟩ := evaluate_sliding found constant ok'
      rw [values symbol member,values' symbol member']
      exact (ih _ mem_cons_self dataValid (series _ mem_cons_self) innerOk innerOk').sliding slides _
    | @correlating one other window name_eq constant oneValid otherValid =>
      subst name_eq
      obtain ⟨vals,oneOk,vals₂,otherOk,values⟩ := evaluate_correlating constant ok
      obtain ⟨vals',oneOk',vals₂',otherOk',values'⟩ := evaluate_correlating constant ok'
      have second_mem : other ∈ [one,other,window] := by simp
      rw [values symbol member,values' symbol member']
      exact (ih one mem_cons_self oneValid (series one mem_cons_self) oneOk oneOk').correlating
        (ih other second_mem otherValid (series other second_mem) otherOk otherOk') _
    | recursive found other count arity runs constants dataValid =>
      obtain ⟨inner,innerOk,values⟩ := evaluate_recursive found arity constants ok
      obtain ⟨inner',innerOk',values'⟩ := evaluate_recursive found arity constants ok'
      exact (ih _ mem_cons_self dataValid (series _ mem_cons_self) innerOk innerOk').recursive runs
        (values symbol member) (values' symbol member')
  | crossSectional op expr group =>
    cases group <;> simp [Node.seriesOnly,Node.everywhere,Node.withinSymbol] at series

def DataProvider.bars (provider : DataProvider) (lookback : Int) (symbol field : String) : Nat :=
  match provider.getField symbol field lookback with
  | .ok series => series.length
  | .error _ => 0

def seriesLength (m : Numerics) (bars : String → Nat) : Node → Nat
  | .literal _ => 1
  | .identifier name => bars name
  | .binaryOp _ left right => max (seriesLength m bars left) (seriesLength m bars right)
  | .unaryOp _ expr => seriesLength m bars expr
  | .function _ [arg] => seriesLength m bars arg
  | .function name [data,scalar] =>
    -- A recursive operator refuses a scalar it cannot use; a window operator yields nothing.
    if (operator name).any (·.state) = true then seriesLength m bars data
    else if toInt (constantValue m scalar) ≤ 0 then 0
    else seriesLength m bars data
  | .function name [first,second,third] =>
    if name = "ts_corr" then
      if toInt (constantValue m third) ≤ 0 ∨ seriesLength m bars first ≠ seriesLength m bars second then 0
      else seriesLength m bars first
    else seriesLength m bars first
  | .function _ _ => 0
  | .crossSectional _ _ _ => 1

theorem length_evaluate (valid : node.Valid)
    (ok : evaluate m first lookback node = .ok results) (member : symbol ∈ first.getSymbols) :
    (results.at symbol).length = seriesLength m (first.bars lookback symbol) node := by
  induction node using Node.induction generalizing results with
  | literal =>
    rw [evaluate_literal ok member]
    rfl
  | identifier =>
    rw [seriesLength,DataProvider.bars,evaluate_identifier ok member]
  | binaryOp op left right leftIh rightIh =>
    obtain ⟨leftVals,leftOk,rightVals,rightOk,done⟩ := evaluate_binaryOp_eq_ok.mp ok
    obtain ⟨aligned,combined⟩ := combineSeries_eq_ok.mp (at_fill done member)
    rw [← combined,length_combine _ aligned,leftIh valid.binaryOp.1 leftOk,
      rightIh valid.binaryOp.2 rightOk,seriesLength]
  | unaryOp op expr ih =>
    obtain ⟨inner,innerOk,done⟩ := evaluate_unaryOp_eq_ok.mp ok
    rw [← Except.ok.inj (at_fill done member),length_map,ih valid.unaryOp innerOk,seriesLength]
  | function name args ih =>
    cases valid.wellCalled with
    | unary category argValid =>
      obtain ⟨arg,inner,only,innerOk,rfl⟩ := (evaluate_unaryFunction_eq_ok category).mp ok
      cases only
      rw [at_map,length_map,
        ih _ mem_cons_self argValid innerOk,seriesLength]
    | sliding found slides constant dataValid =>
      obtain ⟨inner,innerOk,values⟩ := evaluate_sliding found constant ok
      obtain ⟨extra,reads,-⟩ := slides
      obtain ⟨f,reads⟩ := reads m
      have inside := ih _ mem_cons_self dataValid innerOk
      rw [values symbol member,reads,seriesLength,found]
      simp only [Option.any_some,seriesDef,Bool.false_eq_true,if_false]
      split
      · rfl
      · rw [length_trailing,inside]
    | @correlating one other window name_eq constant oneValid otherValid =>
      subst name_eq
      obtain ⟨vals,oneOk,vals',otherOk,values⟩ := evaluate_correlating constant ok
      have second_mem : other ∈ [one,other,window] := by simp
      have inside := ih one mem_cons_self oneValid oneOk
      have inside' := ih other second_mem otherValid otherOk
      rw [values symbol member,tsCorr_eq,seriesLength,if_pos rfl,← inside,← inside']
      split
      · rfl
      rw [length_trailing,length_zip]
      omega
    | recursive found other count arity runs constants dataValid =>
      obtain ⟨inner,innerOk,values⟩ := evaluate_recursive found arity constants ok
      obtain ⟨length,-⟩ := runs m _ _ _ (values symbol member)
      have inside := ih _ mem_cons_self dataValid innerOk
      rw [length,inside]
      rcases count with one | two
      · obtain ⟨scalar,rfl⟩ := length_eq_one_iff.mp one
        rw [seriesLength,found]
        exact (if_pos rfl).symm
      · obtain ⟨scalar,scalar',rfl⟩ := length_eq_two.mp two
        rw [seriesLength,if_neg other]
  | crossSectional =>
    obtain ⟨inner,-,labels,-,done⟩ := evaluate_crossSectional_eq_ok.mp ok
    obtain ⟨v,only⟩ := applyCrossSectional_single done member
    rw [only]
    rfl

def FrontsAgree (k : Nat) (symbols : List String) (results results' : Results) : Prop :=
  ∀ symbol ∈ symbols, (results.at symbol).take k = (results'.at symbol).take k

/-- For every factor over time series that passes the gate and every pair of data sets that
agree on their first bars, the factor's series agree on their first entries exactly when no
symbol has a series on one data set and none on the other. -/
theorem evaluate_noLookAhead_iff (same : SameFront k lookback first second) {node : Node}
    (accepted : node.Accepted) (series : node.seriesOnly = true)
    (ok : evaluate m first lookback node = .ok results) (ok' : evaluate m second lookback node = .ok results') :
    FrontsAgree k first.getSymbols results results' ↔
      k = 0 ∨ ∀ symbol ∈ first.getSymbols, (seriesLength m (first.bars lookback symbol) node = 0 ↔
        seriesLength m (second.bars lookback symbol) node = 0) := by
  have valid : node.Valid := ⟨"root",accepted⟩
  have lengths : ∀ symbol ∈ first.getSymbols, (seriesLength m (first.bars lookback symbol) node = 0 ↔
      seriesLength m (second.bars lookback symbol) node = 0) ↔ (results.at symbol = [] ↔ results'.at symbol = []) := by
    intro symbol member
    rw [← length_evaluate valid ok member,
      ← length_evaluate valid ok' (same.symbols ▸ member),length_eq_zero_iff,length_eq_zero_iff]
  constructor
  · intro agree
    rcases Nat.eq_zero_or_pos k with zero | positive
    · exact .inl zero
    · refine .inr fun symbol member => (lengths symbol member).mpr ?_
      have front := congrArg List.length (agree symbol member)
      simp only [length_take] at front
      rw [← length_eq_zero_iff,← length_eq_zero_iff]
      omega
  · intro condition symbol member
    rcases condition with rfl | both
    · simp
    · exact evaluate_frontAgree same valid series ok ok' member ((lengths symbol member).mp (both symbol member))

theorem single_sameFront {k : Nat} {xs ys : Series} (front : xs.take k = ys.take k) (lookback : Int) :
    SameFront k lookback (single xs) (single ys) := by
  refine ⟨rfl,?_⟩
  intro symbol _ field xs' ys' read read'
  cases read
  cases read'
  exact front

theorem meanOfTwo_noLookAhead : ∃ results results',
    evaluate plain (single [some 1,some 2]) 0 meanOfTwo = .ok results ∧
      evaluate plain (single [some 1,some 2,some 9]) 0 meanOfTwo = .ok results' ∧
        FrontsAgree 2 ["A"] results results' := by
  obtain ⟨results,ok⟩ := exists_ok (x := evaluate plain (single [some 1,some 2]) 0 meanOfTwo) (by decide +kernel)
  obtain ⟨results',ok'⟩ := exists_ok (x := evaluate plain (single [some 1,some 2,some 9]) 0 meanOfTwo) (by decide +kernel)
  have accepted : meanOfTwo.Accepted := by decide +kernel
  have lengths : ∀ symbol ∈ ["A"], (seriesLength plain ((single [some 1,some 2]).bars 0 symbol) meanOfTwo = 0 ↔
      seriesLength plain ((single [some 1,some 2,some 9]).bars 0 symbol) meanOfTwo = 0) := by decide +kernel
  have same : SameFront 2 0 (single [some 1,some 2]) (single [some 1,some 2,some 9]) :=
    single_sameFront (by rfl) 0
  exact ⟨results,results',ok,ok',
    (evaluate_noLookAhead_iff same accepted (by decide +kernel) ok ok').mpr (.inr lengths)⟩

def corrWithConstant : Node := .function "ts_corr" [.identifier "close",.literal 5,.literal 1]

/-- On one bar the constant pairs up with the series; a second bar takes the first bar's
entry away. -/
theorem corrWithConstant_looksAhead : corrWithConstant.Accepted ∧ corrWithConstant.seriesOnly = true ∧
    SameFront 1 0 (single [some 1]) (single [some 1,some 2]) ∧ ∃ results results',
      evaluate plain (single [some 1]) 0 corrWithConstant = .ok results ∧
        evaluate plain (single [some 1,some 2]) 0 corrWithConstant = .ok results' ∧
          ¬ FrontsAgree 1 ["A"] results results' := by
  obtain ⟨results,ok,here⟩ := map_eq_ok.mp (show (evaluate plain (single [some 1]) 0 corrWithConstant).map
    (Results.at · "A") = .ok [none] by decide +kernel)
  obtain ⟨results',ok',gone⟩ := map_eq_ok.mp (show (evaluate plain (single [some 1,some 2]) 0 corrWithConstant).map
    (Results.at · "A") = .ok [] by decide +kernel)
  have accepted : corrWithConstant.Accepted := by decide +kernel
  refine ⟨accepted,by decide +kernel,single_sameFront (by rfl) 0,results,results',ok,ok',?_⟩
  intro agree
  have front := agree "A" mem_cons_self
  rw [here,gone] at front
  cases front

end QuantTrading.Expression
