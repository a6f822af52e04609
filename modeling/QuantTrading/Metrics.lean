import Mathlib.Data.List.Induction
import QuantTrading.Engine.TPlusOne

/-! The return and the drawdown a run reports. The return is taken from the first recorded value to
the last, and the first value is recorded after the first day's trades; the drawdown is found in one
pass, from the peak so far.
-/
namespace QuantTrading.Metrics
open List

def calculateReturns (portfolioValues : List PortfolioValue) : List ℚ :=
  (portfolioValues.zip portfolioValues.tail).filterMap fun (prev,curr) =>
    if prev.totalValue > 0 then some ((curr.totalValue - prev.totalValue) / prev.totalValue) else none

/-- The `TotalReturn` of `GenerateBacktestResult`. -/
def totalReturn (portfolioValues : List PortfolioValue) : ℚ :=
  match portfolioValues.head?, portfolioValues.getLast? with
  | some start, some last =>
    if start.totalValue > 0 then (last.totalValue - start.totalValue) / start.totalValue else 0
  | _, _ => 0

/-- The return on the capital, and the compounded daily returns since it was paid in. -/
def OnCapital (capital : ℚ) (values : List PortfolioValue) : Prop :=
  (∀ last ∈ values.getLast?, totalReturn values = last.totalValue / capital - 1) ∧
    totalReturn values = ((calculateReturns (⟨0,capital,capital,0⟩ :: values)).map (1 + ·)).prod - 1

/-- The values at which the account falls to zero or below, multiplied up. -/
def drops (prev : ℚ) : List ℚ → ℚ
  | [] => 1
  | value :: rest => (if 0 < prev ∧ value ≤ 0 then value else 1) * drops value rest

/-- The values at which the account is back above zero, multiplied up. -/
def rises (prev : ℚ) : List ℚ → ℚ
  | [] => 1
  | value :: rest => (if prev ≤ 0 ∧ 0 < value then value else 1) * rises value rest

theorem rises_pos (prev : ℚ) (values : List ℚ) : 0 < rises prev values := by
  induction values generalizing prev with
  | nil => exact one_pos
  | cons value rest ih =>
    refine mul_pos ?_ (ih value)
    split
    next back => exact back.2
    · exact one_pos

theorem compounded_cons (first second : PortfolioValue) (rest : List PortfolioValue) :
    ((calculateReturns (first :: second :: rest)).map (1 + ·)).prod =
      (if 0 < first.totalValue then second.totalValue / first.totalValue else 1) *
        ((calculateReturns (second :: rest)).map (1 + ·)).prod := by
  simp only [calculateReturns,tail_cons,zip_cons_cons,filterMap_cons,gt_iff_lt]
  by_cases above : 0 < first.totalValue
  · simp only [above,if_true,map_cons,prod_cons]
    congr 1
    field_simp
    ring
  · simp only [above,if_false,one_mul]

def unlessOwed (value : ℚ) : ℚ := if 0 < value then value else 1

/-- The daily returns skip the days that start at zero or below, so each stretch above zero
telescopes by itself. -/
theorem compounded (first : PortfolioValue) (rest : List PortfolioValue) :
    ((calculateReturns (first :: rest)).map (1 + ·)).prod * unlessOwed first.totalValue *
        rises first.totalValue (rest.map (·.totalValue)) =
      drops first.totalValue (rest.map (·.totalValue)) *
        unlessOwed ((first :: rest).getLast (cons_ne_nil _ _)).totalValue := by
  induction rest generalizing first with
  | nil => simp [calculateReturns,drops,rises]
  | cons second rest ih =>
    rw [compounded_cons,map_cons,drops,rises,getLast_cons_cons,mul_assoc (ite _ _ _) (drops _ _),← ih second]
    by_cases above : 0 < first.totalValue <;> by_cases next : 0 < second.totalValue
    · simp only [unlessOwed,above,next,not_le.mpr above,not_le.mpr next,and_true,and_false,if_true,if_false]
      field_simp
    · simp only [unlessOwed,above,next,not_le.mpr above,not_lt.mp next,and_true,and_false,if_true,if_false]
      field_simp
    · simp only [unlessOwed,above,next,not_lt.mp above,not_le.mpr next,and_true,and_false,if_true,if_false]
      ring
    · simp only [unlessOwed,above,next,not_lt.mp above,and_false,false_and,if_false]
      ring

/-- The run ends where its first recorded value says, and what it fell below zero it made good. -/
structure Rebased (capital : ℚ) (values : List PortfolioValue) (first last : ℚ) : Prop where
  start : if 0 < first then first = capital ∨ last = 0 else last = capital
  level : drops capital (values.map (·.totalValue)) = rises capital (values.map (·.totalValue)) * if 0 < last then 1 else last

theorem start_iff {capital first last : ℚ} (paid : 0 < capital) :
    (if 0 < first then (last - first) / first else 0) = last / capital - 1 ↔
      if 0 < first then first = capital ∨ last = 0 else last = capital := by
  split
  next above =>
    rw [sub_div,div_self above.ne',sub_left_inj,div_eq_div_iff above.ne' paid.ne',mul_eq_mul_left_iff]
    exact or_congr_left eq_comm
  next => rw [eq_comm,sub_eq_zero,div_eq_one_iff_eq paid.ne']

theorem level_iff {capital growth drops rises last : ℚ} (paid : 0 < capital) (above : 0 < rises)
    (whole : growth * unlessOwed capital * rises = drops * unlessOwed last) :
    growth = last / capital ↔ drops = rises * if 0 < last then 1 else last := by
  rw [unlessOwed,if_pos paid] at whole
  rw [eq_div_iff paid.ne',← mul_left_inj' above.ne',whole,unlessOwed]
  split
  next positive => rw [mul_comm last,mul_left_inj' positive.ne',mul_one]
  next => rw [mul_one,mul_comm last]

/-- A run reports its return on the capital exactly if the first day leaves it unchanged or nothing
is left at the end, and the compounded daily returns with it if the account is above zero up to the
last day, or what it falls below zero and what it comes back to are of one size. -/
theorem onCapital_iff (capital : ℚ) (values : List PortfolioValue) (paid : 0 < capital) :
    OnCapital capital values ↔ ∀ first ∈ values.head?, ∀ last ∈ values.getLast?,
      Rebased capital values first.totalValue last.totalValue := by
  cases values with
  | nil => simp [OnCapital,totalReturn,calculateReturns]
  | cons first rest =>
    have whole := compounded ⟨0,capital,capital,0⟩ (first :: rest)
    rw [getLast_cons (cons_ne_nil first rest)] at whole
    simp only [OnCapital,totalReturn,head?_cons,getLast?_eq_some_getLast (cons_ne_nil first rest),
      Option.mem_some_iff,forall_eq',gt_iff_lt]
    have growth := level_iff paid (rises_pos ..) whole
    constructor
    · rintro ⟨onFirst,onDays⟩
      exact ⟨(start_iff paid).mp onFirst,growth.mp (sub_left_inj.mp (onDays.symm.trans onFirst))⟩
    · rintro ⟨start,level⟩
      have onFirst := (start_iff paid).mpr start
      exact ⟨onFirst,onFirst.trans (by rw [growth.mpr level])⟩

theorem ruin_onCapital : OnCapital 100 [⟨0,100,90,10⟩,⟨1,90,90,0⟩,⟨2,-5,95,-100⟩] :=
  (onCapital_iff 100 [⟨0,100,90,10⟩,⟨1,90,90,0⟩,⟨2,-5,95,-100⟩] (by norm_num)).mpr (by
    simp
    exact ⟨by norm_num,by norm_num [drops,rises]⟩)

open Engine in
/-- The fee of the first day's purchase is missing from the return. -/
theorem firstFee_unreported : ∃ s, Engine.runBacktest { soldNextDay with executionService := none } oneStockParams = some s ∧
    s.tracker.portfolioValues.map (·.totalValue) = [99999499/100,99998948/100,99998948/100] ∧
    totalReturn s.tracker.portfolioValues ≠ 99998948/100 / oneStockParams.initialCapital - 1 := by
  decide +kernel

/-- The loop of `CalculateMaxDrawdown`: the peak so far, the deepest drawdown below it and its date. -/
structure Drawdown where
  (peak maxDrawdown : ℚ)
  date : Time

def Drawdown.next (s : Drawdown) (pv : PortfolioValue) : Drawdown :=
  let peak := if pv.totalValue > s.peak then pv.totalValue else s.peak
  let drawdown := (peak - pv.totalValue) / peak
  if drawdown > s.maxDrawdown then ⟨peak,drawdown,pv.date⟩ else { s with peak := peak }

def calculateMaxDrawdown : List PortfolioValue → ℚ × Time
  | [] => (0,0)
  | first :: rest =>
    let s := (first :: rest).foldl Drawdown.next ⟨first.totalValue,0,first.date⟩
    (-s.maxDrawdown,s.date)

def computeNext (s : ℚ × ℚ) (equity : ℚ) : ℚ × ℚ :=
  let peak := if equity > s.1 then equity else s.1
  if peak > 0 then
    let dd := (peak - equity) / peak
    (peak,if dd > s.2 then dd else s.2)
  else (peak,s.2)

/-- The strategy monitor's drawdown. -/
def computeMaxDrawdown : List ℚ → ℚ
  | [] => 0
  | first :: rest => ((first :: rest).foldl computeNext (first,0)).2

/-- How far the second value is below the first, in parts of the first. -/
def fall (high low : PortfolioValue) : ℚ := (high.totalValue - low.totalValue) / high.totalValue

/-- The value of index `j` is that far below itself or an earlier value. -/
def Falls (values : List PortfolioValue) (j : Nat) (depth : ℚ) : Prop :=
  ∃ low, values[j]? = some low ∧ ∃ high ∈ values.take (j + 1), fall high low = depth

/-- The deepest fall, and the date of the first value that far down. -/
structure Deepest (values : List PortfolioValue) (depth : ℚ) (date : Time) : Prop where
  bound : ∀ j d, Falls values j d → d ≤ depth
  first : ∃ j, Falls values j depth ∧ (values[j]?).map (·.date) = some date ∧ ∀ k < j, ¬ Falls values k depth

variable {past : List PortfolioValue} {pv : PortfolioValue}

theorem falls_snoc {j : Nat} {d : ℚ} : Falls (past ++ [pv]) j d ↔
    j < past.length ∧ Falls past j d ∨ j = past.length ∧ ∃ high ∈ past ++ [pv], fall high pv = d := by
  rcases lt_trichotomy j past.length with before | rfl | after
  · simp [Falls,getElem?_append_left before,take_append_of_le_length before,before,before.ne]
  · simp [Falls,take_of_length_le]
  · have outside : (past ++ [pv])[j]? = none := getElem?_eq_none (by rw [length_append]; exact after)
    simp [Falls,outside,after.not_gt,after.ne']

theorem fall_mono {high peak : PortfolioValue} (positive : 0 < high.totalValue) (owed : 0 < pv.totalValue)
    (below : high.totalValue ≤ peak.totalValue) : fall high pv ≤ fall peak pv := by
  rw [fall,fall,div_le_div_iff₀ positive (positive.trans_le below)]
  nlinarith

/-- What the loop has after the values so far, and the monitor's with it. -/
structure Tracks (past : List PortfolioValue) (s : Drawdown) (monitored : ℚ × ℚ) : Prop where
  peak : ∃ top ∈ past, top.totalValue = s.peak ∧ ∀ value ∈ past, value.totalValue ≤ top.totalValue
  deepest : Deepest past s.maxDrawdown s.date
  same : monitored = (s.peak,s.maxDrawdown)

theorem Tracks.next {s : Drawdown} {monitored : ℚ × ℚ} (tracks : Tracks past s monitored)
    (positive : ∀ value ∈ past ++ [pv], 0 < value.totalValue) :
    Tracks (past ++ [pv]) (s.next pv) (computeNext monitored pv.totalValue) := by
  obtain ⟨⟨top,member,high,most⟩,⟨bound,j,falls,dated,earlier⟩,rfl⟩ := tracks
  obtain ⟨peak,held,same,above⟩ : ∃ peak ∈ past ++ [pv], (if pv.totalValue > s.peak then pv.totalValue else s.peak) = peak.totalValue ∧
      ∀ value ∈ past ++ [pv], value.totalValue ≤ peak.totalValue := by grind
  have least (value : PortfolioValue) (listed : value ∈ past ++ [pv]) : fall value pv ≤ fall peak pv :=
    fall_mono (positive value listed) (positive pv (by simp)) (above value listed)
  simp only [Drawdown.next,computeNext,same,positive peak held,gt_iff_lt,if_true]
  change Tracks _ (if s.maxDrawdown < fall peak pv then ⟨_,fall peak pv,_⟩ else _) (_,if s.maxDrawdown < fall peak pv then fall peak pv else _)
  split
  · refine ⟨⟨peak,held,rfl,above⟩,⟨?_,past.length,?_,by simp,?_⟩,rfl⟩ <;> grind [falls_snoc]
  · refine ⟨⟨peak,held,rfl,above⟩,⟨?_,j,?_,?_,?_⟩,rfl⟩ <;> grind [falls_snoc]

theorem Tracks.run (first : PortfolioValue) (rest : List PortfolioValue) (positive : ∀ value ∈ first :: rest, 0 < value.totalValue) :
    Tracks (first :: rest) ((first :: rest).foldl Drawdown.next ⟨first.totalValue,0,first.date⟩)
      (((first :: rest).map (·.totalValue)).foldl computeNext (first.totalValue,0)) := by
  induction rest using reverseRecOn with
  | nil =>
    refine ⟨⟨first,by simp,by simp [Drawdown.next],by simp⟩,?_,by simp [Drawdown.next,computeNext,positive first]⟩
    simp [Drawdown.next]
    refine ⟨?_,0,⟨first,rfl,first,by simp,by simp [fall]⟩,rfl,by simp⟩
    rintro j d ⟨low,found,high,member,rfl⟩
    simp_all [fall,getElem?_singleton]
  | append_singleton rest pv ih =>
    rw [← cons_append,map_append,foldl_append,foldl_append]
    exact (ih fun value member => positive value (mem_append_left _ member)).next positive

/-- The loop over the running peak finds the deepest fall over all pairs, and the monitor's loop finds the same. -/
theorem maxDrawdown_deepest (values : List PortfolioValue) (recorded : values ≠ []) (positive : ∀ value ∈ values, 0 < value.totalValue) :
    Deepest values (-(calculateMaxDrawdown values).1) (calculateMaxDrawdown values).2 ∧
      |(calculateMaxDrawdown values).1| = computeMaxDrawdown (values.map (·.totalValue)) := by
  obtain ⟨first,rest,rfl⟩ := exists_cons_of_ne_nil recorded
  obtain ⟨_,deepest,same⟩ := Tracks.run first rest positive
  have nonneg := deepest.bound 0 0 ⟨first,rfl,first,by simp,by simp [fall]⟩
  rw [calculateMaxDrawdown,neg_neg,abs_neg,abs_of_nonneg nonneg]
  exact ⟨deepest,(congrArg Prod.snd same).symm⟩

theorem oneFall_deepest : Deepest [⟨1,100,0,0⟩,⟨2,90,0,0⟩] (1/10) 2 := by
  have value : calculateMaxDrawdown [⟨1,100,0,0⟩,⟨2,90,0,0⟩] = (-1/10,2) := by decide +kernel
  have whole := maxDrawdown_deepest [⟨1,100,0,0⟩,⟨2,90,0,0⟩] (by simp) (by norm_num)
  rw [value] at whole
  norm_num at whole
  exact whole.1

end QuantTrading.Metrics
