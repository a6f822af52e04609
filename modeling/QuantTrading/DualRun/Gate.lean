import Mathlib.Data.List.Sort
import QuantTrading.Library.Tally
import QuantTrading.Market

/-! The gate of a dual run: two backtests of one signal stream, their trades reconciled key by
key, their metrics compared, and the verdict read off the report. A metric is a rational or,
where it is not a number, nothing; a comparison with nothing is false.
-/
namespace QuantTrading.DualRun
open Library List

inductive Metric where
  | totalReturn | annualReturn | sharpe | sortino | maxDrawdown | winRate | calmar | totalTrades
deriving DecidableEq

structure BacktestResult where
  (totalReturn annualReturn sharpeRatio sortinoRatio maxDrawdown winRate calmarRatio : Option ℚ)
  totalTrades : Int
  trades : List Trade

structure MetricRow where
  name : Metric
  (go nt diff relDiff : Option ℚ)
deriving DecidableEq

variable (t : Trade) (metric name : Metric) (goRes ntRes : BacktestResult)

def num (go nt : Option ℚ) : MetricRow :=
  let diff := Option.map₂ (· - ·) nt go
  let rel := if go ≠ some 0 then Option.map₂ (· / ·) diff go else some 0
  ⟨name,go,nt,diff,rel⟩

def cnt (go nt : Option ℚ) : MetricRow := num name go nt

inductive Side where
  | buy | sell | hold
deriving DecidableEq

def tradeSide : Direction → Side
  | .long => .buy
  | .close | .short => .sell
  | .hold => .hold

inductive Kind where
  | matched | goOnly | ntOnly | mismatch
deriving DecidableEq

/-- What a row says of its trades: quantity, price and, of matched ones, the fees of both sides. -/
structure Detail where
  (qty price : ℚ)
  fees : Option (ℚ × ℚ)
deriving DecidableEq

structure TradeReconRow where
  kind : Kind
  day : Time
  symbol : String
  side : Side
  detail : Detail
deriving DecidableEq

structure Report where
  metricRows : List MetricRow
  tradeRows : List TradeReconRow
  (matchedTrades goOnlyTrades ntOnlyTrades : Nat)
  (goDeterministic ntDeterministic : Bool)

variable (r : Report)

structure Key where
  day : Time
  symbol : String
  side : Side
  (qty price : ℚ)
deriving DecidableEq

def mk : Key :=
  ⟨t.timestamp.truncateDay,t.symbol,tradeSide t.direction,mathRound (t.quantity * 100) / 100,
    mathRound (t.price * 100) / 100⟩

def fees : ℚ := t.commission + t.transferFee + t.stampTax

def reconcileGo (goKeys ntKeys : Key → Nat) (ntBy : Key → Option Trade) (r : Report) (t : Trade) : Report :=
  let k := mk t
  if ntKeys k > 0 then
    { r with
      matchedTrades := r.matchedTrades + goKeys k
      tradeRows := r.tradeRows ++
        [⟨.matched,k.day,k.symbol,k.side,⟨k.qty,k.price,some (fees t,((ntBy k).map fees).getD 0)⟩⟩] }
  else
    { r with
      goOnlyTrades := r.goOnlyTrades + goKeys k
      tradeRows := r.tradeRows ++ [⟨.goOnly,k.day,k.symbol,k.side,⟨k.qty,k.price,none⟩⟩] }

def reconcileNT (ntKeys : Key → Nat) (r : Report) (t : Trade) : Report :=
  let k := mk t
  { r with
    ntOnlyTrades := r.ntOnlyTrades + ntKeys k
    tradeRows := r.tradeRows ++ [⟨.ntOnly,k.day,k.symbol,k.side,⟨k.qty,k.price,none⟩⟩] }

def rowOrder (first second : TradeReconRow) : Prop :=
  first.day < second.day ∨ first.day = second.day ∧ first.symbol ≤ second.symbol

instance : DecidableRel rowOrder := fun first second =>
  inferInstanceAs (Decidable (first.day < second.day ∨ first.day = second.day ∧ first.symbol ≤ second.symbol))

def reconcileTrades (goTrades ntTrades : List Trade) : Report :=
  let goKeys := counts mk goTrades
  let ntKeys := counts mk ntTrades
  let ntBy (k : Key) := ntTrades.find? fun t => mk t = k
  let afterGo := visits mk (fun _ => false) (reconcileGo goKeys ntKeys ntBy) (r,[]) goTrades
  let afterNT := visits mk (fun k => goKeys k > 0) (reconcileNT ntKeys) afterGo ntTrades
  { afterNT.1 with tradeRows := afterNT.1.tradeRows.insertionSort rowOrder }

def metricsReport : Report where
  metricRows :=
    [num .totalReturn goRes.totalReturn ntRes.totalReturn,
      num .annualReturn goRes.annualReturn ntRes.annualReturn,
      num .sharpe goRes.sharpeRatio ntRes.sharpeRatio,
      num .sortino goRes.sortinoRatio ntRes.sortinoRatio,
      num .maxDrawdown goRes.maxDrawdown ntRes.maxDrawdown,
      num .winRate goRes.winRate ntRes.winRate,
      num .calmar goRes.calmarRatio ntRes.calmarRatio,
      cnt .totalTrades (some goRes.totalTrades) (some ntRes.totalTrades)]
  tradeRows := []
  matchedTrades := 0
  goOnlyTrades := 0
  ntOnlyTrades := 0
  goDeterministic := false
  ntDeterministic := false

def buildReport : Report :=
  reconcileTrades (metricsReport goRes ntRes) goRes.trades ntRes.trades

inductive ToleranceKind where
  | rel | abs
deriving DecidableEq

structure Tolerance where
  metric : Metric
  kind : ToleranceKind
  limit : ℚ
deriving DecidableEq

variable (tol : Tolerance)

def k15Tolerances : List Tolerance :=
  [⟨.totalReturn,.rel,2/1000⟩,
    ⟨.annualReturn,.rel,2/1000⟩,
    ⟨.maxDrawdown,.rel,5/1000⟩,
    ⟨.sharpe,.abs,5/100⟩,
    ⟨.sortino,.abs,5/100⟩,
    ⟨.calmar,.abs,5/100⟩]

def fillsTolerance : ℚ := 5/100

inductive GateViolation where
  | determinismGo
  | determinismNT
  | missingMetric (metric : Metric)
  | metric (row : MetricRow) (tol : Tolerance)
  | mismatch (row : TradeReconRow)
  | noFills
  | fills (rel : ℚ) (goFills ntFills matched goOnly ntOnly : Nat)
deriving DecidableEq

def findMetric (r : Report) (name : Metric) : Option MetricRow := r.metricRows.find? fun m => m.name = name

def exceeds (x : Option ℚ) (limit : ℚ) : Bool := x.any fun x => |x| > limit

def beyond (row : MetricRow) (tol : Tolerance) : Bool :=
  match tol.kind with
  | .abs => exceeds row.diff tol.limit
  | .rel =>
    if row.go = some 0 then exceeds row.diff tol.limit else exceeds (Option.map₂ (· / ·) row.diff row.go) tol.limit

def checkMetric : List GateViolation :=
  match findMetric r tol.metric with
  | none => [.missingMetric tol.metric]
  | some row => if beyond row tol then [.metric row tol] else []

def checkFills : List GateViolation :=
  let goFills := r.matchedTrades + r.goOnlyTrades
  let ntFills := r.matchedTrades + r.ntOnlyTrades
  if goFills = 0 ∧ ntFills = 0 then [.noFills]
  else
    let base := if goFills = 0 then ntFills else goFills
    let rel : ℚ := |(ntFills : ℚ) - goFills| / base
    if rel > fillsTolerance then [.fills rel goFills ntFills r.matchedTrades r.goOnlyTrades r.ntOnlyTrades] else []

def evaluateGate : List GateViolation :=
  (if r.goDeterministic then [] else [.determinismGo]) ++
    (if r.ntDeterministic then [] else [.determinismNT]) ++
    k15Tolerances.flatMap (checkMetric r) ++
    (r.tradeRows.filter fun row => row.kind = .mismatch).map .mismatch ++
    checkFills r

def dualRun (goDeterministic ntDeterministic : Bool) : Report :=
  { buildReport goRes ntRes with goDeterministic := goDeterministic, ntDeterministic := ntDeterministic }

def onBothSides (goTrades ntTrades : List Trade) (k : Key) : Bool :=
  (goTrades.any fun t => mk t = k) && ntTrades.any fun t => mk t = k

section Counts
variable (goTrades ntTrades : List Trade)

theorem counts_pos (trades : List Trade) (k : Key) : 0 < counts mk trades k ↔ ∃ t ∈ trades, mk t = k := by
  rw [counts_eq,countP_pos_iff]
  simp only [decide_eq_true_iff]

theorem onBothSides_iff (k : Key) :
    onBothSides goTrades ntTrades k = true ↔ (∃ t ∈ goTrades, mk t = k) ∧ ∃ t ∈ ntTrades, mk t = k := by
  simp [onBothSides]

variable (ntBy : Key → Option Trade) (r : Report) (goKeys ntKeys : Key → Nat)

section
variable (ntBy : Key → Option Trade) (r : Report) (t : Trade)

theorem reconcileGo_matched :
    (reconcileGo goKeys ntKeys ntBy r t).matchedTrades = r.matchedTrades + if ntKeys (mk t) > 0 then goKeys (mk t) else 0 := by
  rw [reconcileGo]
  split <;> rfl

theorem reconcileGo_goOnly :
    (reconcileGo goKeys ntKeys ntBy r t).goOnlyTrades = r.goOnlyTrades + if ntKeys (mk t) > 0 then 0 else goKeys (mk t) := by
  rw [reconcileGo]
  split <;> rfl

theorem reconcileGo_ntOnly : (reconcileGo goKeys ntKeys ntBy r t).ntOnlyTrades = r.ntOnlyTrades := by
  rw [reconcileGo]
  split <;> rfl

end

theorem reconcileGo_counts :
    let after := (visits mk (fun _ => false) (reconcileGo (counts mk goTrades) (counts mk ntTrades) ntBy) (r,[]) goTrades).1
    after.matchedTrades = r.matchedTrades + goTrades.countP (fun t => onBothSides goTrades ntTrades (mk t)) ∧
      after.goOnlyTrades = r.goOnlyTrades + goTrades.countP (fun t => ¬ onBothSides goTrades ntTrades (mk t)) := by
  have both (t : Trade) (member : t ∈ goTrades) :
      counts mk ntTrades (mk t) > 0 ↔ onBothSides goTrades ntTrades (mk t) = true := by
    rw [gt_iff_lt,counts_pos,onBothSides_iff]
    exact ⟨fun there => ⟨⟨t,member,rfl⟩,there⟩,And.right⟩
  constructor
  · refine (visits_count Report.matchedTrades goTrades (fun k => counts mk ntTrades k > 0) (fun state t => ?_) (r,[])
      goTrades).trans ?_
    · rw [reconcileGo_matched,← counts_eq]
      simp only [decide_eq_true_iff]
    · refine congrArg (r.matchedTrades + ·) (countP_congr fun t member => ?_)
      have here : mk t ∈ goTrades.map mk := mem_map_of_mem member
      simp only [decide_eq_true_iff,not_mem_nil,not_false_iff,here,and_true]
      exact both t member
  · refine (visits_count Report.goOnlyTrades goTrades (fun k => ¬ counts mk ntTrades k > 0) (fun state t => ?_) (r,[])
      goTrades).trans ?_
    · rw [reconcileGo_goOnly,← counts_eq]
      simp only [decide_eq_true_iff,ite_not]
    · refine congrArg (r.goOnlyTrades + ·) (countP_congr fun t member => ?_)
      have here : mk t ∈ goTrades.map mk := mem_map_of_mem member
      simp only [decide_eq_true_iff,not_mem_nil,not_false_iff,here,and_true]
      exact not_congr (both t member)

theorem reconcileNT_counts {start : Report × List Key} (seen : ∀ k, k ∈ start.2 ↔ k ∈ goTrades.map mk) :
    let after := (visits mk (fun k => counts mk goTrades k > 0) (reconcileNT (counts mk ntTrades)) start ntTrades).1
    (after.matchedTrades = start.1.matchedTrades ∧ after.goOnlyTrades = start.1.goOnlyTrades) ∧
      after.ntOnlyTrades = start.1.ntOnlyTrades + ntTrades.countP (fun t => ¬ onBothSides goTrades ntTrades (mk t)) := by
  constructor
  · let Same (r : Report) : Prop := r.matchedTrades = start.1.matchedTrades ∧ r.goOnlyTrades = start.1.goOnlyTrades
    refine visits_invariant Same ?_ ⟨rfl,rfl⟩ ntTrades
    exact fun _ _ same => same
  · refine (visits_count Report.ntOnlyTrades ntTrades (fun _ => true) (fun state t => ?_) start ntTrades).trans ?_
    · rw [← counts_eq]
      rfl
    · refine congrArg (start.1.ntOnlyTrades + ·) (countP_congr fun t member => ?_)
      have here : mk t ∈ ntTrades.map mk := mem_map_of_mem member
      have absent : counts mk goTrades (mk t) = 0 ↔ mk t ∉ goTrades.map mk := by
        rw [mem_map,← counts_pos,Nat.pos_iff_ne_zero,not_not]
      have apart : onBothSides goTrades ntTrades (mk t) = false ↔ mk t ∉ goTrades.map mk := by
        rw [← Bool.not_eq_true,onBothSides_iff,mem_map]
        exact not_congr ⟨And.left,fun found => ⟨found,t,member,rfl⟩⟩
      simp only [decide_eq_true_iff,seen,here,and_true,true_and,decide_eq_false_iff_not,gt_iff_lt,Nat.not_lt,
        Nat.le_zero,absent,and_self,Bool.not_eq_true,apart]

theorem reconcileTrades_counts :
    let report := reconcileTrades r goTrades ntTrades
    report.matchedTrades = r.matchedTrades + goTrades.countP (fun t => onBothSides goTrades ntTrades (mk t)) ∧
      report.goOnlyTrades = r.goOnlyTrades + goTrades.countP (fun t => ¬ onBothSides goTrades ntTrades (mk t)) ∧
      report.ntOnlyTrades = r.ntOnlyTrades + ntTrades.countP (fun t => ¬ onBothSides goTrades ntTrades (mk t)) := by
  let ntBy (k : Key) := ntTrades.find? fun t => mk t = k
  let go := reconcileGo (counts mk goTrades) (counts mk ntTrades) ntBy
  let afterGo := visits mk (fun _ => false) go (r,[]) goTrades
  obtain ⟨matched,goOnly⟩ := reconcileGo_counts goTrades ntTrades ntBy r
  have untouched : afterGo.1.ntOnlyTrades = r.ntOnlyTrades := by
    let Same (state : Report) : Prop := state.ntOnlyTrades = r.ntOnlyTrades
    exact visits_invariant Same (fun _ _ same => (reconcileGo_ntOnly _ _ _ _ _).trans same) rfl goTrades
  have seen (k : Key) : k ∈ afterGo.2 ↔ k ∈ goTrades.map mk := by
    rw [mem_visits]
    simp
  obtain ⟨⟨sameMatched,sameGoOnly⟩,ntOnly⟩ := reconcileNT_counts goTrades ntTrades seen
  exact ⟨sameMatched.trans matched,sameGoOnly.trans goOnly,ntOnly.trans (by rw [untouched])⟩

theorem reconcileTrades_kinds (none_ : ∀ row ∈ r.tradeRows, row.kind ≠ .mismatch) :
    ∀ row ∈ (reconcileTrades r goTrades ntTrades).tradeRows, row.kind ≠ .mismatch := by
  let Plain (state : Report) : Prop := ∀ row ∈ state.tradeRows, row.kind ≠ .mismatch
  have plain : Plain r := none_
  have adds {rows : List TradeReconRow} {row : TradeReconRow} (plain : ∀ row ∈ rows, row.kind ≠ .mismatch)
      (kind : row.kind ≠ .mismatch) : ∀ other ∈ rows ++ [row], other.kind ≠ .mismatch := by
    intro other member
    obtain old | new := mem_append.mp member
    · exact plain other old
    · rw [mem_singleton.mp new]
      exact kind
  intro row member
  rw [reconcileTrades,mem_insertionSort] at member
  refine visits_invariant Plain ?_ (visits_invariant Plain ?_ plain goTrades) ntTrades row member
  · intro state t plain
    exact adds plain nofun
  · intro state t plain
    rw [reconcileGo]
    split <;> exact adds plain nofun

theorem reconcileTrades_metricRows : (reconcileTrades r goTrades ntTrades).metricRows = r.metricRows := by
  let Same (state : Report) : Prop := state.metricRows = r.metricRows
  refine visits_invariant Same ?_ (visits_invariant Same ?_ rfl goTrades) ntTrades
  · exact fun _ _ same => same
  · intro state t same
    rw [reconcileGo]
    split <;> exact same

end Counts

def metricOf (res : BacktestResult) : Metric → Option ℚ
  | .totalReturn => res.totalReturn
  | .annualReturn => res.annualReturn
  | .sharpe => res.sharpeRatio
  | .sortino => res.sortinoRatio
  | .maxDrawdown => res.maxDrawdown
  | .winRate => res.winRate
  | .calmar => res.calmarRatio
  | .totalTrades => some res.totalTrades

def Apart (a b : ℚ) : Prop :=
  match tol.kind with
  | .abs => tol.limit < |b - a|
  | .rel => tol.limit < if a = 0 then |b - a| else |(b - a) / a|

def FillsApart (go nt : Nat) : Prop := go = 0 ∨ fillsTolerance * go < |(nt : ℚ) - go|

theorem beyond_iff (go nt : Option ℚ) (tol : Tolerance) :
    beyond (num metric go nt) tol = true ↔ ∃ a b, go = some a ∧ nt = some b ∧ Apart tol a b := by
  cases go with
  | none => cases nt <;> cases kind : tol.kind <;> simp [beyond,num,exceeds,kind]
  | some a =>
    cases nt with
    | none => cases kind : tol.kind <;> simp [beyond,num,exceeds,kind]
    | some =>
      cases kind : tol.kind with
      | abs => simp [beyond,num,exceeds,kind,Apart]
      | rel => by_cases zero : a = 0 <;> simp [beyond,num,exceeds,kind,Apart,zero]

theorem checkFills_iff :
    checkFills r = [] ↔ ¬ FillsApart (r.matchedTrades + r.goOnlyTrades) (r.matchedTrades + r.ntOnlyTrades) := by
  rw [checkFills,FillsApart]
  generalize r.matchedTrades + r.goOnlyTrades = go
  generalize r.matchedTrades + r.ntOnlyTrades = nt
  by_cases empty : go = 0
  · by_cases both : nt = 0
    · simp [empty,both]
    · have whole : |(nt : ℚ)| / nt = 1 := by
        rw [abs_of_nonneg (Nat.cast_nonneg nt),div_self (Nat.cast_ne_zero.mpr both)]
      have above : (1 : ℚ) > fillsTolerance := by norm_num [fillsTolerance]
      simp only [empty,both,and_false,if_false,if_true,Nat.cast_zero,sub_zero,whole,above,true_or,not_true_eq_false,
        cons_ne_nil]
  · have positive : (0 : ℚ) < go := by exact_mod_cast Nat.pos_of_ne_zero empty
    simp only [empty,false_and,if_false,false_or,gt_iff_lt,lt_div_iff₀ positive]
    split <;> simp_all

variable (goRes ntRes : BacktestResult) (goDeterministic ntDeterministic : Bool)

theorem findMetric_dualRun : findMetric (dualRun goRes ntRes goDeterministic ntDeterministic) metric =
      some (num metric (metricOf goRes metric) (metricOf ntRes metric)) := by
  have rows : (dualRun goRes ntRes goDeterministic ntDeterministic).metricRows = _ :=
    reconcileTrades_metricRows goRes.trades ntRes.trades _
  rw [findMetric,rows]
  cases metric <;> rfl

/-- The gate passes exactly the reports of deterministic runs whose metrics, where both are
numbers, are within their tolerances and whose fill counts are close. -/
theorem evaluateGate_dualRun :
    let report := dualRun goRes ntRes goDeterministic ntDeterministic
    evaluateGate report = [] ↔ goDeterministic = true ∧ ntDeterministic = true ∧
      (∀ tol ∈ k15Tolerances, ∀ a b, metricOf goRes tol.metric = some a → metricOf ntRes tol.metric = some b →
        ¬ Apart tol a b) ∧
      ¬ FillsApart (report.matchedTrades + report.goOnlyTrades) (report.matchedTrades + report.ntOnlyTrades) := by
  intro report
  have plain : (report.tradeRows.filter fun row => row.kind = .mismatch) = [] := by
    refine filter_eq_nil_iff.mpr fun row member => ?_
    rw [decide_eq_true_iff]
    exact reconcileTrades_kinds goRes.trades ntRes.trades _ (forall_mem_nil _) row member
  have within (tol : Tolerance) : checkMetric report tol = [] ↔
      ∀ a b, metricOf goRes tol.metric = some a → metricOf ntRes tol.metric = some b → ¬ Apart tol a b := by
    have passed : checkMetric report tol = [] ↔
        ¬ beyond (num tol.metric (metricOf goRes tol.metric) (metricOf ntRes tol.metric)) tol = true := by
      rw [checkMetric,findMetric_dualRun]
      split <;> simp_all
    rw [passed,beyond_iff]
    simp only [not_exists,not_and]
  have flags : report.goDeterministic = goDeterministic ∧ report.ntDeterministic = ntDeterministic := ⟨rfl,rfl⟩
  rw [evaluateGate,plain,flags.1,flags.2]
  simp only [append_eq_nil_iff,flatMap_eq_nil_iff,map_nil,within,checkFills_iff]
  cases goDeterministic <;> cases ntDeterministic <;> simp

def feesAt (trades : List Trade) (k : Key) : List ℚ := (trades.filter fun t => mk t = k).map fees

/-- Every trade is counted on its side, and what the gate passes has close fill counts, keys with
the same trades and fees on both sides wherever they share one, and no metric compared that is
not a number. -/
structure Sound (report : Report) (goRes ntRes : BacktestResult) : Prop where
  goCount : report.matchedTrades + report.goOnlyTrades = goRes.trades.length
  ntCount : report.matchedTrades + report.ntOnlyTrades = ntRes.trades.length
  fills : evaluateGate report = [] →
    |(ntRes.trades.length : ℚ) - goRes.trades.length| ≤ fillsTolerance * goRes.trades.length
  multiplicity : evaluateGate report = [] → ∀ k, onBothSides goRes.trades ntRes.trades k = true →
    counts mk goRes.trades k = counts mk ntRes.trades k
  fees : evaluateGate report = [] → ∀ k, onBothSides goRes.trades ntRes.trades k = true →
    (feesAt goRes.trades k).Perm (feesAt ntRes.trades k)
  defined : evaluateGate report = [] → ∀ tol ∈ k15Tolerances,
    (metricOf goRes tol.metric).isSome ∧ (metricOf ntRes tol.metric).isSome

def Discordant : Prop :=
  goDeterministic = false ∨ ntDeterministic = false ∨
    (∃ tol ∈ k15Tolerances, ∃ a b, metricOf goRes tol.metric = some a ∧ metricOf ntRes tol.metric = some b ∧ Apart tol a b) ∨
    FillsApart goRes.trades.length ntRes.trades.length

def Clean : Prop :=
  (∀ k, onBothSides goRes.trades ntRes.trades k = true → (feesAt goRes.trades k).Perm (feesAt ntRes.trades k)) ∧
    ∀ tol ∈ k15Tolerances, (metricOf goRes tol.metric).isSome ∧ (metricOf ntRes tol.metric).isSome

def SharedAlike (goTrades ntTrades : List Trade) : Prop :=
  goTrades.countP (fun t => onBothSides goTrades ntTrades (mk t)) =
    ntTrades.countP fun t => onBothSides goTrades ntTrades (mk t)

theorem dualRun_counts :
    let report := dualRun goRes ntRes goDeterministic ntDeterministic
    report.matchedTrades = goRes.trades.countP (fun t => onBothSides goRes.trades ntRes.trades (mk t)) ∧
      report.matchedTrades + report.goOnlyTrades = goRes.trades.length ∧
      (report.matchedTrades + report.ntOnlyTrades = ntRes.trades.length ↔ SharedAlike goRes.trades ntRes.trades) := by
  intro report
  have total (trades : List Trade) (p : Trade → Bool) : trades.length = trades.countP p + trades.countP (fun t => ¬ p t) :=
    length_eq_countP_add_countP p
  obtain ⟨matched,goOnly,ntOnly⟩ := reconcileTrades_counts goRes.trades ntRes.trades (metricsReport goRes ntRes)
  have go := total goRes.trades fun t => onBothSides goRes.trades ntRes.trades (mk t)
  have nt := total ntRes.trades fun t => onBothSides goRes.trades ntRes.trades (mk t)
  change report.matchedTrades = 0 + _ at matched
  change report.goOnlyTrades = 0 + _ at goOnly
  change report.ntOnlyTrades = 0 + _ at ntOnly
  rw [SharedAlike]
  omega

/-- A result passes the gate against itself exactly if both sides are deterministic and it has traded. -/
theorem evaluateGate_self (res : BacktestResult) (goDeterministic ntDeterministic : Bool) :
    evaluateGate (dualRun res res goDeterministic ntDeterministic) = [] ↔
      goDeterministic = true ∧ ntDeterministic = true ∧ res.trades ≠ [] := by
  have passes := evaluateGate_dualRun res res goDeterministic ntDeterministic
  obtain ⟨_,goCount,alike⟩ := dualRun_counts res res goDeterministic ntDeterministic
  dsimp only at passes
  rw [passes,goCount,alike.mpr rfl]
  have tolerant : ∀ tol ∈ k15Tolerances, 0 ≤ tol.limit := by decide +kernel
  have metrics : ∀ tol ∈ k15Tolerances, ∀ a b, metricOf res tol.metric = some a → metricOf res tol.metric = some b → ¬ Apart tol a b := by
    intro tol listed a b found again
    cases found.symm.trans again
    unfold Apart
    split <;> simp [tolerant tol listed]
  have fills : FillsApart res.trades.length res.trades.length ↔ res.trades = [] := by
    have nonneg : 0 ≤ fillsTolerance * res.trades.length := by
      unfold fillsTolerance
      positivity
    simp [FillsApart,nonneg.not_gt]
  rw [and_iff_right metrics,fills]

theorem counts_eq_of_feesAt {goTrades ntTrades : List Trade} {k : Key}
    (same : (feesAt goTrades k).Perm (feesAt ntTrades k)) : counts mk goTrades k = counts mk ntTrades k := by
  have lengths := same.length_eq
  rw [feesAt,feesAt,length_map,length_map] at lengths
  rw [counts_eq,counts_eq,countP_eq_length_filter,countP_eq_length_filter]
  exact lengths

/-- The report and the gate are sound exactly on the results whose shared trades are as many on
either side and that are clean or visibly out of line. -/
theorem gate_sound_iff : Sound (dualRun goRes ntRes goDeterministic ntDeterministic) goRes ntRes ↔
      SharedAlike goRes.trades ntRes.trades ∧
        (Discordant goRes ntRes goDeterministic ntDeterministic ∨ Clean goRes ntRes) := by
  obtain ⟨_,goCount,alike⟩ := dualRun_counts goRes ntRes goDeterministic ntDeterministic
  have passes := evaluateGate_dualRun goRes ntRes goDeterministic ntDeterministic
  dsimp only at passes
  have passes_iff (ntCount : SharedAlike goRes.trades ntRes.trades) :
      evaluateGate (dualRun goRes ntRes goDeterministic ntDeterministic) = [] ↔
        ¬ Discordant goRes ntRes goDeterministic ntDeterministic := by
    rw [passes,goCount,alike.mpr ntCount,Discordant]
    simp only [not_or,not_exists,not_and,Bool.not_eq_false]
  constructor
  · intro sound
    have ntCount := alike.mp sound.ntCount
    refine ⟨ntCount,or_iff_not_imp_left.mpr fun concordant => ?_⟩
    have passed := (passes_iff ntCount).mpr concordant
    exact ⟨sound.fees passed,sound.defined passed⟩
  · rintro ⟨ntCount,rest⟩
    have clean (passed : evaluateGate (dualRun goRes ntRes goDeterministic ntDeterministic) = []) : Clean goRes ntRes :=
      rest.resolve_left ((passes_iff ntCount).mp passed)
    refine ⟨goCount,alike.mpr ntCount,fun passed => ?_,fun passed k shared => ?_,fun passed => (clean passed).1,
      fun passed => (clean passed).2⟩
    · have close := (passes.mp passed).2.2.2
      rw [goCount,alike.mpr ntCount] at close
      exact not_lt.mp fun apart => close (.inr apart)
    · exact counts_eq_of_feesAt ((clean passed).1 k shared)

/-- Two Go trades of a key against one: the NT trades come out as two, and the gate finds the
fill counts equal. With one trade on either side it passes fees of 5 against 500 and metrics
that are not numbers. -/
theorem gate_unsound :
    let trade (commission : ℚ) : Trade := ⟨"600000.SH",.long,100,10,commission,0,0,0,0,100⟩
    let result (metric : Option ℚ) (trades : List Trade) : BacktestResult :=
      ⟨metric,metric,metric,metric,metric,metric,metric,1,trades⟩
    let doubled := dualRun (result (some 1) [trade 5,trade 5]) (result (some 1) [trade 5]) true true
    let undefined := dualRun (result none [trade 5]) (result (some 1) [trade 500]) true true
    (doubled.matchedTrades = 2 ∧ doubled.ntOnlyTrades = 0 ∧ evaluateGate doubled = []) ∧
      undefined.matchedTrades = 1 ∧ evaluateGate undefined = [] := by
  decide +kernel

end QuantTrading.DualRun
