import Mathlib.Data.List.Dedup
import Mathlib.Data.List.Sort
import QuantTrading.Domain
import QuantTrading.Library.Nan
import QuantTrading.Library.Outcome

/-! Reconciliation of the local books with the broker's. Every value that is compared may be NaN.
A report is healthy when nothing is reported above the level of information, and the levels are
graded by another measure for each kind of value.
-/
namespace QuantTrading
open Library Library.Nan List

namespace Live.Reconciliation

structure ReconciliationConfig where
  (cashTolerance quantityTolerance marketValueTol feeTolerance : Option ℚ)

def defaultReconciliationConfig : ReconciliationConfig := ⟨some (1 / 100),some 0,some (5 / 1000),some (1 / 100)⟩

structure PositionSnap where
  (quantity marketValue : Option ℚ)
deriving DecidableEq

structure FeeSnap where
  (commission stampTax transfer other : Option ℚ)

structure LocalSnapshot where
  accountID : String
  asOf : Time
  totalCNY : Option ℚ
  positions : Book String PositionSnap
  fees : FeeSnap

structure AccountSnapshot where
  (accountID reconciliationID : String)
  asOf : Time
  totalCNY : Option ℚ
  positions : Book String PositionSnap
  fees : FeeSnap

inductive Severity where
  | critical | warning | info
deriving DecidableEq

inductive Kind where
  | cash | quantity | marketValue | fee | missingLocal | missingBroker
deriving DecidableEq

def Kind.name : Kind → String
  | .cash => "cash"
  | .quantity => "quantity"
  | .marketValue => "market_value"
  | .fee => "fee"
  | .missingLocal => "missing_local"
  | .missingBroker => "missing_broker"

structure Discrepancy where
  kind : Kind
  severity : Severity
  (symbol field : String)
  (localVal brokerVal delta tolerance : Option ℚ)
  note : String
  detectedAt : Time
deriving DecidableEq

def absFloat (f : Option ℚ) : Option ℚ := f.map fun f => if f < 0 then -f else f

def rankSeverity : Severity → Nat
  | .critical => 3
  | .warning => 2
  | .info => 1

def severityForCash (absDelta tol : Option ℚ) : Severity :=
  if above absDelta (some 100) then .critical else if above absDelta tol then .warning else .info

def severityForQty (absDelta : Option ℚ) : Severity :=
  if above absDelta (some 1000) then .critical else if above absDelta (some 0) then .warning else .info

def severityForMV (rel tol : Option ℚ) : Severity :=
  if above rel (scale 5 tol) then .critical else if above rel (scale 2 tol) then .warning else .info

def severityForFee (absDelta tol : Option ℚ) : Severity :=
  if above absDelta (scale 10 tol) then .critical else if above absDelta tol then .warning else .info

def cashNote (delta : Option ℚ) : String :=
  if above delta (some 0) then "本地资金 > 券商资金 (本地多记, 疑似重复扣款)"
  else "本地资金 < 券商资金 (本地少记, 疑似漏扣手续费 / 印花税)"

def secondNs : Int := 1000000000

/-- `a.Sub(b)`, a duration of 64 bits that stops at its bounds. -/
def durationBetween (a b : Time) : Int := max (-2 ^ 63) (min (2 ^ 63 - 1) (a - b))

def absDuration (d : Int) : Int := if d < 0 ∧ d ≠ -2 ^ 63 then -d else d

def unix (t : Time) : Int := (t - Time.date 1970 1 1) / secondNs

def driftItem (localAsOf brokerAsOf now : Time) : List Discrepancy :=
  let asOfDrift := absDuration (durationBetween localAsOf brokerAsOf)
  if asOfDrift > 60 * secondNs then
    [⟨.cash,.info,"","as_of_drift_seconds",some (unix localAsOf),some (unix brokerAsOf),
      some (asOfDrift / secondNs : ℚ),some 60,"本地 / 券商对账时间戳漂移 > 60s",now⟩]
  else []

variable (l : LocalSnapshot) (b : AccountSnapshot) (cfg : ReconciliationConfig) (sym : String)
   (lp bp : PositionSnap) (now : Time)

def cashItem (localCash brokerCash : Option ℚ) (now : Time) : List Discrepancy :=
  let cashDelta := sub localCash brokerCash
  if above (absFloat cashDelta) cfg.cashTolerance then
    [⟨.cash,severityForCash (absFloat cashDelta) cfg.cashTolerance,"","total_cny",localCash,brokerCash,cashDelta,
      cfg.cashTolerance,cashNote cashDelta,now⟩]
  else []

def quantityItem (sym : String) (lp bp : PositionSnap) (now : Time) : List Discrepancy :=
  let qtyDelta := sub lp.quantity bp.quantity
  if above (absFloat qtyDelta) cfg.quantityTolerance then
    [⟨.quantity,severityForQty (absFloat qtyDelta),sym,"quantity",lp.quantity,bp.quantity,qtyDelta,
      cfg.quantityTolerance,"持仓数量偏差超容差",now⟩]
  else if above (absFloat qtyDelta) (some 0) then
    [⟨.quantity,.info,sym,"quantity",lp.quantity,bp.quantity,qtyDelta,cfg.quantityTolerance,
      "持仓数量在容差内, 但不严格相等",now⟩]
  else []

def relativeDelta (localMV brokerMV : Option ℚ) : Option ℚ :=
  let base := if above brokerMV localMV then brokerMV else localMV
  if above base (some 0) then div (absFloat (sub localMV brokerMV)) base else some 0

def marketValueItem (sym : String) (lp bp : PositionSnap) (now : Time) : List Discrepancy :=
  if atMost (absFloat (sub lp.quantity bp.quantity)) cfg.quantityTolerance then
    let rel := relativeDelta lp.marketValue bp.marketValue
    if above rel cfg.marketValueTol then
      [⟨.marketValue,severityForMV rel cfg.marketValueTol,sym,"market_value",lp.marketValue,bp.marketValue,
        sub lp.marketValue bp.marketValue,cfg.marketValueTol,"持仓市值相对偏差超容差 (行情刷新延迟?)",now⟩]
    else []
  else []

def positionItems (now : Time) (sym : String) (lp bp : Option PositionSnap) : List Discrepancy :=
  match lp, bp with
  | none, bp =>
    let held := (bp.map (·.quantity)).getD (some 0)
    [⟨.missingLocal,.critical,sym,"",some 0,held,scale (-1) held,cfg.quantityTolerance,"券商有持仓, 本地缺失 (疑似漏单)",now⟩]
  | some lp, none =>
    [⟨.missingBroker,.critical,sym,"",lp.quantity,some 0,lp.quantity,cfg.quantityTolerance,
      "本地有持仓, 券商缺失 (疑似鬼单)",now⟩]
  | some lp, some bp => quantityItem cfg sym lp bp now ++ marketValueItem cfg sym lp bp now

def feeBuckets (l b : FeeSnap) : List (String × Option ℚ × Option ℚ) :=
  [("commission",l.commission,b.commission),("stamp_tax",l.stampTax,b.stampTax),("transfer",l.transfer,b.transfer),
    ("other",l.other,b.other)]

def feeItem (now : Time) (fee : String × Option ℚ × Option ℚ) : List Discrepancy :=
  let d := sub fee.2.1 fee.2.2
  if above (absFloat d) cfg.feeTolerance then
    [⟨.fee,severityForFee (absFloat d) cfg.feeTolerance,"",fee.1,fee.2.1,fee.2.2,d,cfg.feeTolerance,"费用偏差超容差: " ++ fee.1,now⟩]
  else []

def unionSymbols (a b : Book String PositionSnap) : List String := (a.keys ++ b.keys).dedup.insertionSort (· ≤ ·)

def Shown (a b : Discrepancy) : Prop :=
  rankSeverity b.severity < rankSeverity a.severity ∨
    rankSeverity a.severity = rankSeverity b.severity ∧ (a.kind.name < b.kind.name ∨ a.kind = b.kind ∧ a.symbol ≤ b.symbol)

instance (a b : Discrepancy) : Decidable (Shown a b) := inferInstanceAs (Decidable (_ ∨ _))

def reconcile (now : Time) : List Discrepancy :=
  (driftItem l.asOf b.asOf now ++ cashItem cfg l.totalCNY b.totalCNY now ++
    (unionSymbols l.positions b.positions).flatMap (fun sym => positionItems cfg now sym l.positions[sym]? b.positions[sym]?) ++
    (feeBuckets l.fees b.fees).flatMap (feeItem cfg now)).insertionSort Shown

inductive ReconcileError (Err : Type) where
  | noAccount
  | localSnapshot (cause : Err)
  | brokerSnapshot (cause : Err)
  | nilSnapshot

structure ReconciliationReport where
  generatedAt : Time
  accountID : String
  localSnap : LocalSnapshot
  brokerSnap : AccountSnapshot
  discrepancies : List Discrepancy
  (criticalCount warningCount infoCount : Nat)
  healthy : Bool

def allInfoOnly (discs : List Discrepancy) : Bool := discs.all (·.severity = .info)

/-- What the snapshotters answer: the local one when it is asked for the default account, and both for
the account. -/
structure Answers (Err : Type) where
  (probe localSnap : Except Err (Option LocalSnapshot))
  brokerSnap : Except Err (Option AccountSnapshot)

def probed {Err : Type} (answers : Answers Err) (accountID : String) : String :=
  if accountID = "" then
    match answers.probe with
    | .ok (some probe) => probe.accountID
    | _ => accountID
  else accountID

def reconcileOnce {Err : Type} (cfg : ReconciliationConfig) (answers : Answers Err) (now : Time) (accountID : String) :
    Except (ReconcileError Err) ReconciliationReport :=
  let accountID := probed answers accountID
  if accountID = "" then .error .noAccount
  else
    match answers.localSnap, answers.brokerSnap with
    | .error cause, _ => .error (.localSnapshot cause)
    | .ok _, .error cause => .error (.brokerSnapshot cause)
    | .ok (some l), .ok (some b) =>
      let discs := reconcile l b cfg now
      .ok ⟨now,accountID,l,b,discs,discs.countP (·.severity = .critical),discs.countP (·.severity = .warning),
        discs.countP (·.severity = .info),discs.isEmpty || allInfoOnly discs⟩
    | .ok _, .ok _ => .error .nilSnapshot

def Quiet (discs : List Discrepancy) : Prop := ∀ d ∈ discs, d.severity = .info

theorem quiet_nil : Quiet [] := by simp [Quiet]

theorem quiet_singleton {d : Discrepancy} : Quiet [d] ↔ d.severity = .info := by simp [Quiet]

theorem quiet_append {first second : List Discrepancy} : Quiet (first ++ second) ↔ Quiet first ∧ Quiet second := by
  simp [Quiet,or_imp,forall_and]

theorem quiet_flatMap {A : Type} {xs : List A} {f : A → List Discrepancy} : Quiet (xs.flatMap f) ↔ ∀ x ∈ xs, Quiet (f x) := by
  simp only [Quiet,mem_flatMap]
  constructor
  · intro all x listed d item
    exact all d ⟨x,listed,item⟩
  · rintro all d ⟨x,listed,item⟩
    exact all x listed d item

@[simp] theorem absFloat_some (q : ℚ) : absFloat (some q) = some |q| := by
  rw [absFloat,map_some]
  split
  next negative =>
    rw [abs_of_neg negative]
  next other =>
    rw [abs_of_nonneg (not_lt.mp other)]

theorem quiet_driftItem (localAsOf brokerAsOf now : Time) : Quiet (driftItem localAsOf brokerAsOf now) := by
  unfold driftItem
  dsimp only
  split
  · exact quiet_singleton.mpr rfl
  · exact quiet_nil

theorem quiet_cashItem_iff (l b : Option ℚ) (now : Time) :
    Quiet (cashItem cfg l b now) ↔ above (absFloat (sub l b)) cfg.cashTolerance = false := by
  unfold cashItem
  cases beyond : above (absFloat (sub l b)) cfg.cashTolerance with
  | false => simp [beyond,quiet_nil]
  | true =>
    simp only [beyond,if_true,quiet_singleton,severityForCash,Bool.true_eq_false,iff_false]
    split <;> simp

theorem quiet_feeItem_iff (fee : String × Option ℚ × Option ℚ) :
    Quiet (feeItem cfg now fee) ↔ above (absFloat (sub fee.2.1 fee.2.2)) cfg.feeTolerance = false := by
  unfold feeItem
  cases beyond : above (absFloat (sub fee.2.1 fee.2.2)) cfg.feeTolerance with
  | false => simp [beyond,quiet_nil]
  | true =>
    simp only [beyond,if_true,quiet_singleton,severityForFee,Bool.true_eq_false,iff_false]
    split <;> simp

theorem within_iff_numbers {x y tol : Option ℚ} (silent : above (absFloat (sub x y)) tol = false) :
    Within x y tol ↔ Numbers x y tol := by
  constructor
  · exact Within.numbers
  · intro numbers
    obtain ⟨a,b,t,rfl,rfl,rfl⟩ := numbers.exists
    refine ⟨a,b,t,rfl,rfl,rfl,?_⟩
    simpa using silent

theorem severityForQty_eq_info_iff (x : Option ℚ) : severityForQty x = .info ↔ above x (some 0) = false := by
  unfold severityForQty
  cases x with
  | none => simp
  | some =>
    simp only [above_some,decide_eq_true_eq,decide_eq_false_iff_not]
    split
    next large =>
      simp only [reduceCtorEq,false_iff,not_not]
      linarith
    · split <;> simp_all

theorem quiet_quantityItem_iff : Quiet (quantityItem cfg sym lp bp now) ↔
      above (absFloat (sub lp.quantity bp.quantity)) cfg.quantityTolerance = false ∨
        above (absFloat (sub lp.quantity bp.quantity)) (some 0) = false := by
  unfold quantityItem
  cases beyond : above (absFloat (sub lp.quantity bp.quantity)) cfg.quantityTolerance with
  | false =>
    simp only [beyond,Bool.false_eq_true,if_false,true_or,iff_true]
    split
    · exact quiet_singleton.mpr rfl
    · exact quiet_nil
  | true => simp only [beyond,if_true,quiet_singleton,severityForQty_eq_info_iff,Bool.true_eq_false,false_or]

theorem quiet_marketValueItem_iff : Quiet (marketValueItem cfg sym lp bp now) ↔
      (atMost (absFloat (sub lp.quantity bp.quantity)) cfg.quantityTolerance = true →
        above (relativeDelta lp.marketValue bp.marketValue) cfg.marketValueTol = true →
        severityForMV (relativeDelta lp.marketValue bp.marketValue) cfg.marketValueTol = .info) := by
  unfold marketValueItem
  split
  next matched =>
    dsimp only
    split
    next beyond =>
      simp [quiet_singleton,matched,beyond]
    next within =>
      simp [quiet_nil,within]
  next apart =>
    simp [quiet_nil,apart]

/-- Both are numbers, and their difference is at most the tolerance in relation to the larger of
them in size. -/
def WithinRelative (x y tol : Option ℚ) : Prop :=
  ∃ a b t, x = some a ∧ y = some b ∧ tol = some t ∧ |a - b| ≤ t * max |a| |b|

/-- The difference is too large, but no value is positive, or it is at most twice the tolerance of
the larger value. -/
def Blind (a b t : ℚ) : Prop := t * max |a| |b| < |a - b| ∧ (0 < max a b → |a - b| ≤ 2 * t * max a b)

def Clear (x y tol : Option ℚ) : Prop := ∃ a b t, x = some a ∧ y = some b ∧ tol = some t ∧ ¬ Blind a b t

theorem relativeDelta_some (a b : ℚ) :
    relativeDelta (some a) (some b) = some (if 0 < max a b then |a - b| / max a b else 0) := by
  have base : (if above (some b) (some a) then some b else some a) = some (max a b) := by
    rw [above_some,max_def']
    by_cases less : a < b
    · simp [less,not_le.mpr less]
    · simp [less,not_lt.mp less]
  rw [relativeDelta,base]
  split <;> simp_all [div]

theorem withinRelative_iff_clear {x y tol : Option ℚ}
    (silent : above (relativeDelta x y) tol = true → severityForMV (relativeDelta x y) tol = .info) :
    WithinRelative x y tol ↔ Clear x y tol := by
  constructor
  · rintro ⟨a,b,t,rfl,rfl,rfl,within⟩
    exact ⟨a,b,t,rfl,rfl,rfl,fun blind => absurd within (not_le.mpr blind.1)⟩
  · rintro ⟨a,b,t,rfl,rfl,rfl,clear⟩
    refine ⟨a,b,t,rfl,rfl,rfl,not_lt.mp fun beyond => clear ⟨beyond,fun positive => ?_⟩⟩
    rw [relativeDelta_some,if_pos positive] at silent
    by_contra large
    have double : 2 * t < |a - b| / max a b := (lt_div_iff₀ positive).mpr (not_le.mp large)
    have nonneg : 0 ≤ |a - b| / max a b := div_nonneg (abs_nonneg _) positive.le
    have single : t < |a - b| / max a b := by
      rcases le_or_gt 0 t with tolerant | negative <;> linarith
    have level := silent (by simpa using single)
    unfold severityForMV at level
    simp only [scale,map_some,above_some,decide_eq_true_eq,double,if_true] at level
    split at level <;> cases level

def quantityOf (positions : Book String PositionSnap) (sym : String) : Option ℚ :=
  (positions[sym]?).elim (some 0) (·.quantity)

structure Matched (l : LocalSnapshot) (b : AccountSnapshot) (sym : String) (lp bp : PositionSnap) : Prop where
  left : l.positions[sym]? = some lp
  right : b.positions[sym]? = some bp

structure Agree (cfg : ReconciliationConfig) (l : LocalSnapshot) (b : AccountSnapshot) : Prop where
  cash : Within l.totalCNY b.totalCNY cfg.cashTolerance
  fees : ∀ fee ∈ feeBuckets l.fees b.fees, Within fee.2.1 fee.2.2 cfg.feeTolerance
  quantities : ∀ sym ∈ unionSymbols l.positions b.positions,
    Within (quantityOf l.positions sym) (quantityOf b.positions sym) cfg.quantityTolerance
  marketValues : ∀ sym lp bp, Matched l b sym lp bp → WithinRelative lp.marketValue bp.marketValue cfg.marketValueTol

/-- Numbers throughout, no negative tolerance for the quantity of a symbol, and no market values
that the comparison is blind to. -/
structure Sighted (cfg : ReconciliationConfig) (l : LocalSnapshot) (b : AccountSnapshot) : Prop where
  cash : Numbers l.totalCNY b.totalCNY cfg.cashTolerance
  fees : ∀ fee ∈ feeBuckets l.fees b.fees, Numbers fee.2.1 fee.2.2 cfg.feeTolerance
  quantities : ∀ sym lp bp, Matched l b sym lp bp →
    Numbers lp.quantity bp.quantity cfg.quantityTolerance ∧ above (some 0) cfg.quantityTolerance = false
  marketValues : ∀ sym lp bp, Matched l b sym lp bp → Clear lp.marketValue bp.marketValue cfg.marketValueTol

variable {sym : String}

theorem mem_unionSymbols {a b : Book String PositionSnap} :
    sym ∈ unionSymbols a b ↔ (a[sym]?).isSome = true ∨ (b[sym]?).isSome = true := by
  rw [unionSymbols,mem_insertionSort,mem_dedup]
  simp

theorem within_quantity_iff {lp bp : PositionSnap} {tol : Option ℚ}
    (silent : above (absFloat (sub lp.quantity bp.quantity)) tol = false ∨
      above (absFloat (sub lp.quantity bp.quantity)) (some 0) = false) :
    Within lp.quantity bp.quantity tol ↔ Numbers lp.quantity bp.quantity tol ∧ above (some 0) tol = false := by
  constructor
  · intro within
    refine ⟨within.numbers,?_⟩
    obtain ⟨a,b,t,_,_,rfl,bound⟩ := within
    simpa using (abs_nonneg _).trans bound
  · rintro ⟨numbers,tolerant⟩
    obtain ⟨a,b,t,hl,hb,rfl⟩ := numbers.exists
    refine ⟨a,b,t,hl,hb,rfl,?_⟩
    rw [hl,hb] at silent
    simp only [sub_some,absFloat_some,above_some,decide_eq_false_iff_not,not_lt] at silent tolerant
    rcases silent with within | equal
    · exact within
    · exact equal.trans tolerant

variable {cfg : ReconciliationConfig} {now : Time}

theorem quiet_positions {lp bp : Option PositionSnap}
    (quiet : Quiet (positionItems cfg now sym lp bp)) : ∃ l b, lp = some l ∧ bp = some b := by
  cases lp with
  | none => cases quiet _ (mem_singleton_self _)
  | some l =>
    cases bp with
    | none => cases quiet _ (mem_singleton_self _)
    | some b => exact ⟨l,b,rfl,rfl⟩

theorem quiet_reconcile_iff (cfg : ReconciliationConfig) (now : Time) :
    Quiet (reconcile l b cfg now) ↔ Quiet (cashItem cfg l.totalCNY b.totalCNY now) ∧
      (∀ sym ∈ unionSymbols l.positions b.positions, Quiet (positionItems cfg now sym l.positions[sym]? b.positions[sym]?)) ∧
      ∀ fee ∈ feeBuckets l.fees b.fees, Quiet (feeItem cfg now fee) := by
  have sorted (discs : List Discrepancy) : Quiet (discs.insertionSort Shown) ↔ Quiet discs := by
    simp only [Quiet,mem_insertionSort]
  rw [reconcile,sorted,quiet_append,quiet_append,quiet_append,quiet_flatMap,quiet_flatMap]
  simp only [quiet_driftItem,true_and,and_assoc]

section
variable {l : LocalSnapshot} {b : AccountSnapshot} {cfg : ReconciliationConfig} {now : Time}
  (quiet : Quiet (reconcile l b cfg now)) {sym : String} {lp bp : PositionSnap} (matched : Matched l b sym lp bp)

theorem Matched.listed (matched : Matched l b sym lp bp) : sym ∈ unionSymbols l.positions b.positions :=
  mem_unionSymbols.mpr (.inl (by rw [matched.left]; rfl))

include quiet matched

theorem Quiet.position : Quiet (quantityItem cfg sym lp bp now) ∧ Quiet (marketValueItem cfg sym lp bp now) := by
  have items := ((quiet_reconcile_iff l b cfg now).mp quiet).2.1 sym matched.listed
  rw [matched.left,matched.right] at items
  exact quiet_append.mp items

theorem Quiet.quantity_iff : Within lp.quantity bp.quantity cfg.quantityTolerance ↔
    Numbers lp.quantity bp.quantity cfg.quantityTolerance ∧ above (some 0) cfg.quantityTolerance = false :=
  within_quantity_iff ((quiet_quantityItem_iff cfg sym lp bp now).mp (quiet.position matched).1)

/-- The market values are compared only when the quantities agree. -/
theorem Quiet.marketValue_iff (within : Within lp.quantity bp.quantity cfg.quantityTolerance) :
    WithinRelative lp.marketValue bp.marketValue cfg.marketValueTol ↔
      Clear lp.marketValue bp.marketValue cfg.marketValueTol := by
  refine withinRelative_iff_clear ?_
  refine (quiet_marketValueItem_iff cfg sym lp bp now).mp (quiet.position matched).2 ?_
  obtain ⟨x,y,t,hx,hy,ht,bound⟩ := within
  rw [hx,hy,ht]
  simpa using bound

end

theorem agree_iff_sighted {l : LocalSnapshot} {b : AccountSnapshot}
    (quiet : Quiet (reconcile l b cfg now)) : Agree cfg l b ↔ Sighted cfg l b := by
  obtain ⟨cash,positions,fees⟩ := (quiet_reconcile_iff l b cfg now).mp quiet
  have cashes := within_iff_numbers ((quiet_cashItem_iff ..).mp cash)
  have feesEach (fee) (listed : fee ∈ feeBuckets l.fees b.fees) :=
    within_iff_numbers ((quiet_feeItem_iff cfg now fee).mp (fees fee listed))
  constructor
  · intro agree
    have within (sym lp bp) (matched : Matched l b sym lp bp) : Within lp.quantity bp.quantity cfg.quantityTolerance := by
      have held := agree.quantities sym matched.listed
      rw [quantityOf,quantityOf,matched.left,matched.right] at held
      exact held
    exact ⟨cashes.mp agree.cash,fun fee listed => (feesEach fee listed).mp (agree.fees fee listed),
      fun sym lp bp matched => (quiet.quantity_iff matched).mp (within sym lp bp matched),
      fun sym lp bp matched => (quiet.marketValue_iff matched (within sym lp bp matched)).mp
        (agree.marketValues sym lp bp matched)⟩
  · intro sighted
    have within (sym lp bp) (matched : Matched l b sym lp bp) : Within lp.quantity bp.quantity cfg.quantityTolerance :=
      (quiet.quantity_iff matched).mpr (sighted.quantities sym lp bp matched)
    refine ⟨cashes.mpr sighted.cash,fun fee listed => (feesEach fee listed).mpr (sighted.fees fee listed),?_,
      fun sym lp bp matched => (quiet.marketValue_iff matched (within sym lp bp matched)).mpr
        (sighted.marketValues sym lp bp matched)⟩
    intro sym listed
    obtain ⟨lp,bp,left,right⟩ := quiet_positions (positions sym listed)
    rw [quantityOf,quantityOf,left,right]
    exact within sym lp bp ⟨left,right⟩

theorem reconcileOnce_healthy {Err : Type} {answers : Answers Err}
    {accountID : String} {report : ReconciliationReport} (made : reconcileOnce cfg answers now accountID = .ok report) :
    report.healthy = true ↔ Quiet (reconcile report.localSnap report.brokerSnap cfg now) := by
  unfold reconcileOnce at made
  dsimp only at made
  iterate 2 (split at made; · cases made)
  · cases made
  next l b _ _ =>
    cases made
    cases reconcile l b cfg now with
    | nil => simp [quiet_nil]
    | cons => simp [allInfoOnly,Quiet]
  · cases made

theorem healthy_agree_iff {Err : Type} {cfg : ReconciliationConfig} {answers : Answers Err} {now : Time} {accountID : String}
    {report : ReconciliationReport} (made : reconcileOnce cfg answers now accountID = .ok report)
    (healthy : report.healthy = true) :
    Agree cfg report.localSnap report.brokerSnap ↔ Sighted cfg report.localSnap report.brokerSnap :=
  agree_iff_sighted ((reconcileOnce_healthy made).mp healthy)

/-- One symbol, whose market values differ by three parts in a thousand. -/
theorem close_values_agree :
    let position (value : ℚ) : Book String PositionSnap := (∅ : Book String PositionSnap).insert "600000.SH" ⟨some 1000,some value⟩
    let fees : FeeSnap := ⟨some 5,some 0,some 1,some 0⟩
    let answers : Answers Unit :=
      ⟨.ok none,.ok (some ⟨"A",0,some 500,position 100000,fees⟩),.ok (some ⟨"A","",0,some 500,position 100300,fees⟩)⟩
    ∃ report, reconcileOnce defaultReconciliationConfig answers 0 "A" = .ok report ∧ report.healthy = true ∧
      Agree defaultReconciliationConfig report.localSnap report.brokerSnap := by
  intro position fees answers
  have only (value : ℚ) (sym : String) (p : PositionSnap) (found : (position value)[sym]? = some p) :
      p = ⟨some 1000,some value⟩ := by
    rw [Book.get_insert] at found
    split at found
    · exact (Option.some.inj found).symm
    · simp at found
  have made : reconcileOnce defaultReconciliationConfig answers 0 "A" = .ok _ := rfl
  refine ⟨_,made,by decide +kernel,(healthy_agree_iff made (by decide +kernel)).mpr ⟨⟨rfl,rfl,rfl⟩,?_,?_,?_⟩⟩
  · intro fee listed
    simp only [feeBuckets,mem_cons,not_mem_nil,or_false] at listed
    rcases listed with rfl | rfl | rfl | rfl <;> exact ⟨rfl,rfl,rfl⟩
  · rintro sym lp bp ⟨left,right⟩
    obtain rfl := only _ _ _ left
    obtain rfl := only _ _ _ right
    exact ⟨⟨rfl,rfl,rfl⟩,by decide +kernel⟩
  · rintro sym lp bp ⟨left,right⟩
    obtain rfl := only _ _ _ left
    obtain rfl := only _ _ _ right
    exact ⟨100000,100300,5 / 1000,rfl,rfl,rfl,fun blind => absurd blind.1 (by decide +kernel)⟩

/-- A difference of eight parts in a thousand exceeds the tolerance of five and is reported as
information only. -/
theorem doubled_tolerance_healthy :
    let position (value : ℚ) : Book String PositionSnap := (∅ : Book String PositionSnap).insert "600000.SH" ⟨some 1000,some value⟩
    let fees : FeeSnap := ⟨some 5,some 0,some 1,some 0⟩
    let answers : Answers Unit :=
      ⟨.ok none,.ok (some ⟨"A",0,some 500,position 100000,fees⟩),.ok (some ⟨"A","",0,some 500,position 100800,fees⟩)⟩
    ∃ report, reconcileOnce defaultReconciliationConfig answers 0 "A" = .ok report ∧ report.healthy = true ∧
      ¬ Agree defaultReconciliationConfig report.localSnap report.brokerSnap := by
  intro position fees answers
  refine ⟨_,rfl,by decide +kernel,fun agree => ?_⟩
  obtain ⟨a,b,t,ha,hb,ht,bound⟩ := agree.marketValues "600000.SH" ⟨some 1000,some 100000⟩ ⟨some 1000,some 100800⟩
    ⟨by decide +kernel,by decide +kernel⟩
  cases ha
  cases hb
  cases ht
  revert bound
  decide +kernel

end Live.Reconciliation
end QuantTrading
