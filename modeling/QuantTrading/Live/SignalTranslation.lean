import QuantTrading.Engine

/-! The two translations of a strategy's signals into orders' intents, of the backtest and of the
paper session, over the whole record a strategy may set: names outside the enumerations and
maps that are absent included.
-/
namespace QuantTrading.SignalTranslation
open Library

/-- The text of an enumeration's field: empty, one of its names, or any other. -/
inductive Named (α : Type) where
  | unset
  | known (value : α)
  | other (name : String)
deriving DecidableEq

structure StrategyRecord (μ : Type) where
  symbol : String
  action : Action
  (strength price : ℚ)
  date : Option Time
  direction : Named Direction
  factors : Option (Book String ℚ)
  metadata : Option (Book String μ)
  orderType : Named OrderType
  limitPrice : ℚ
  execAlgo : ExecStyle
  execSlices : Int
  execProfile : List ℚ

structure DomainRecord (μ : Type) where
  symbol : String
  date : Time
  direction : Named Direction
  (strength compositeScore : ℚ)
  factors : Option (Book String ℚ)
  metadata : Option (Book String μ)
  limitPrice : ℚ
  orderType : Named OrderType
  execAlgo : ExecStyle
  execSlices : Int
  execProfile : List ℚ

variable {μ : Type}

variable (s : StrategyRecord μ)

def resolveDirection : Named Direction :=
  if s.direction ≠ .unset ∧ s.direction ≠ .known .hold then s.direction
  else if s.action = .buy then .known .long
  else if s.action = .sell then .known .close
  else .unset

def convertStrategySignals : List (StrategyRecord μ) → Time → List (DomainRecord μ)
  | [], _ => []
  | s :: signals, defaultDate =>
    if s.action = .hold then convertStrategySignals signals defaultDate
    else
      let dir := resolveDirection s
      if dir = .unset then convertStrategySignals signals defaultDate
      else
        let sigDate :=
          match s.date with
          | some d => if ¬ d.isZero then d else defaultDate
          | none => defaultDate
        let factors :=
          match s.factors with
          | none => ∅
          | some factors => factors
        let metadata :=
          match s.metadata with
          | none => ∅
          | some metadata => metadata
        let limitPrice := if s.limitPrice = 0 then s.price else s.limitPrice
        let orderType := if s.orderType = .unset then .known .market else s.orderType
        { symbol := s.symbol
          date := sigDate
          direction := dir
          strength := s.strength
          compositeScore := s.strength
          factors := some factors
          metadata := some metadata
          limitPrice := limitPrice
          orderType := orderType
          execAlgo := s.execAlgo
          execSlices := s.execSlices
          execProfile := s.execProfile } :: convertStrategySignals signals defaultDate

def paperDirection (sg : StrategyRecord μ) : Option (Named Direction) :=
  if sg.direction = .unset ∨ sg.direction = .known .hold then
    match sg.action with
    | .buy => some (.known .long)
    | .sell => some (.known .close)
    | _ => none
  else some sg.direction

def toDomainSignals : List (StrategyRecord μ) → Time → List (DomainRecord μ)
  | [], _ => []
  | sg :: signals, defaultDate =>
    if sg.action = .hold then toDomainSignals signals defaultDate
    else
      match paperDirection sg with
      | none => toDomainSignals signals defaultDate
      | some dir =>
        let sigDate :=
          match sg.date with
          | some t => if ¬ t.isZero then t else defaultDate
          | none => defaultDate
        let limitPrice := if sg.limitPrice = 0 then sg.price else sg.limitPrice
        let orderType := if sg.orderType = .unset then .known .market else sg.orderType
        { symbol := sg.symbol
          date := sigDate
          direction := dir
          strength := sg.strength
          compositeScore := sg.strength
          factors := sg.factors
          metadata := sg.metadata
          limitPrice := limitPrice
          orderType := orderType
          execAlgo := sg.execAlgo
          execSlices := sg.execSlices
          execProfile := sg.execProfile } :: toDomainSignals signals defaultDate

structure SameSignal (a b : DomainRecord μ) : Prop where
  symbol : a.symbol = b.symbol
  date : a.date = b.date
  direction : a.direction = b.direction
  strength : a.strength = b.strength
  compositeScore : a.compositeScore = b.compositeScore
  factors : a.factors.getD ∅ = b.factors.getD ∅
  metadata : a.metadata.getD ∅ = b.metadata.getD ∅
  limitPrice : a.limitPrice = b.limitPrice
  orderType : a.orderType = b.orderType
  execAlgo : a.execAlgo = b.execAlgo
  execSlices : a.execSlices = b.execSlices
  execProfile : a.execProfile = b.execProfile

theorem paperDirection_eq :
    paperDirection s = if resolveDirection s = .unset then none else some (resolveDirection s) := by
  rw [paperDirection,resolveDirection]
  by_cases undecided : s.direction = .unset ∨ s.direction = .known .hold
  · rw [if_pos undecided,if_neg (not_and_or.mpr (undecided.imp not_not_intro not_not_intro))]
    cases s.action <;> rfl
  · obtain ⟨set,decided⟩ := not_or.mp undecided
    have resolved : s.direction ≠ .unset ∧ s.direction ≠ .known .hold := ⟨set,decided⟩
    simp only [if_neg undecided,if_pos resolved,if_neg set]

/-- The backtest and the paper session read a strategy's signals alike. -/
theorem signals_translated_alike (signals : List (StrategyRecord μ)) (defaultDate : Time) :
    (convertStrategySignals signals defaultDate).length = (toDomainSignals signals defaultDate).length ∧
      List.Forall₂ SameSignal (convertStrategySignals signals defaultDate) (toDomainSignals signals defaultDate) := by
  have alike : List.Forall₂ SameSignal (convertStrategySignals signals defaultDate)
      (toDomainSignals signals defaultDate) := by
    induction signals with
    | nil => exact .nil
    | cons s signals ih =>
      rw [convertStrategySignals,toDomainSignals,paperDirection_eq]
      split
      · exact ih
      by_cases skipped : resolveDirection s = .unset
      · simp only [if_pos skipped]
        exact ih
      · simp only [if_neg skipped]
        refine .cons ?_ ih
        refine ⟨rfl,rfl,rfl,rfl,rfl,?_,?_,rfl,rfl,rfl,rfl,rfl⟩
        · cases s.factors <;> rfl
        · cases s.metadata <;> rfl
  exact ⟨alike.length_eq,alike⟩

def Named.ofOption {α : Type} : Option α → Named α
  | none => .unset
  | some value => .known value

def ofStrategySignal (μ : Type) (s : StrategySignal) : StrategyRecord μ :=
  { symbol := s.symbol
    action := s.action
    strength := s.strength
    price := s.price
    date := s.date
    direction := .ofOption s.direction
    factors := none
    metadata := none
    orderType := .ofOption s.orderType
    limitPrice := s.limitPrice
    execAlgo := s.execAlgo
    execSlices := s.execSlices
    execProfile := s.execProfile }

def ofSignal (μ : Type) (s : Signal) : DomainRecord μ :=
  { symbol := s.symbol
    date := s.date
    direction := .known s.direction
    strength := s.strength
    compositeScore := s.compositeScore
    factors := some ∅
    metadata := some ∅
    limitPrice := s.limitPrice
    orderType := .known s.orderType
    execAlgo := s.execAlgo
    execSlices := s.execSlices
    execProfile := s.execProfile }

theorem resolveDirection_engine (s : StrategySignal) :
    resolveDirection (ofStrategySignal μ s) = .ofOption (Engine.resolveDirection s) := by
  obtain ⟨symbol,action,strength,price,date,direction,orderType,limitPrice,execAlgo,execSlices,execProfile⟩ := s
  rcases direction with _ | direction
  · cases action <;> rfl
  · cases direction <;> cases action <;> rfl

theorem convertStrategySignals_engine (signals : List StrategySignal) (defaultDate : Time) :
    convertStrategySignals (signals.map (ofStrategySignal μ)) defaultDate =
      (Engine.convertStrategySignals signals defaultDate).map (ofSignal μ) := by
  induction signals with
  | nil => rfl
  | cons s signals ih =>
    rw [Engine.convertStrategySignals] at ih ⊢
    rw [List.map_cons,convertStrategySignals,resolveDirection_engine,ih,List.filterMap_cons,Engine.convertStrategySignal]
    by_cases held : s.action = .hold
    · simp [ofStrategySignal,held]
    · cases resolved : Engine.resolveDirection s with
      | none => simp [ofStrategySignal,held,Named.ofOption]
      | some =>
        cases dated : s.date with
        | none => cases typed : s.orderType <;> simp [ofStrategySignal,held,ofSignal,Named.ofOption,dated,typed]
        | some date =>
          cases zero : date.isZero <;> cases typed : s.orderType <;>
            simp [ofStrategySignal,held,ofSignal,Named.ofOption,dated,typed,zero]

end QuantTrading.SignalTranslation
