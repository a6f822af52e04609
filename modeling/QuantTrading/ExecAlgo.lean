import Mathlib.Data.List.Sort
import Mathlib.Data.List.Dedup
import QuantTrading.Market

/-! Execution algorithms: a parent order is cut into child orders spread over a window,
and a dispatcher hands out the children that are due, books fills against their parent
and cancels the parents of a symbol.
-/
namespace QuantTrading.ExecAlgo
open List

structure ParentId where
  day : Time
  symbol : String
  side : Direction
deriving DecidableEq

structure ChildId where
  parent : ParentId
  slice : ℕ
deriving DecidableEq

structure AttachSpec where
  parentId : ParentId
  symbol : String
  side : Direction
  (qty limitPrice : ℚ)
  style : ExecStyle
  slices : Int
  profile : List ℚ
  orderType : OrderType
  (startAt endAt : Time)
deriving DecidableEq

structure ChildOrder where
  orderId : ChildId
  symbol : String
  side : Direction
  (qty limitPrice : ℚ)
  submitAt : Time
deriving DecidableEq

inductive ScheduleError where
  | emptySymbol | nonPositiveQty (qty : ℚ) | emptyWindow (startAt endAt : Time)
deriving DecidableEq

variable (spec : AttachSpec)

def validateParent : Except ScheduleError Unit :=
  if spec.symbol = "" then .error .emptySymbol
  else if spec.qty ≤ 0 then .error (.nonPositiveQty spec.qty)
  else if ¬ spec.endAt > spec.startAt then .error (.emptyWindow spec.startAt spec.endAt)
  else .ok ()

def defaultSliceInterval : Int := 5 * 60 * 10^9

def deriveSlices (window : Int) : Int :=
  if window ≤ 0 then 1 else max 1 ⌈(window : ℚ) / defaultSliceInterval⌉

def effectiveSlices (n : Int) (qty : ℚ) : Int :=
  if qty = ⌊qty⌋ ∧ qty ≥ 1 ∧ (n : ℚ) > qty then ⌊qty⌋ else n

def splitWindow (startAt endAt : Time) (n : ℕ) : List Time :=
  let step := (endAt - startAt) / n
  (range n).map fun i => startAt + i * step

/-- Every slice but the last takes its weight, rounded when the total is whole; the last takes
the remainder, never a negative one. -/
def allocateQty (total : ℚ) (weights : List ℚ) : List ℚ :=
  match weights with
  | [] => []
  | [_] => [total]
  | _ =>
    let slice (weight : ℚ) : ℚ := if total = ⌊total⌋ then mathRound (total * weight) else total * weight
    let firsts := weights.dropLast.map slice
    firsts ++ [max 0 (total - firsts.sum)]

def twapWeights (n : ℕ) : List ℚ := replicate n (1 / n)

def vwapWeights (n : ℕ) (profile : List ℚ) : List ℚ :=
  if profile.length = n ∧ 0 < n ∧ profile.all (0 ≤ ·) ∧ profile.sum > 0 then profile.map (· / profile.sum)
  else twapWeights n

def buildPlan (qtys : List ℚ) (times : List Time) : List ChildOrder :=
  (qtys.zip times).mapIdx fun i slice =>
    { orderId := ⟨spec.parentId,i⟩
      symbol := spec.symbol
      side := spec.side
      qty := slice.1
      limitPrice := spec.limitPrice
      submitAt := slice.2 }

def twapSchedule : Except ScheduleError (List ChildOrder) :=
  match validateParent spec with
  | .error e => .error e
  | .ok () =>
    let n := if spec.slices ≤ 0 then deriveSlices (spec.endAt - spec.startAt) else spec.slices
    let n := (effectiveSlices n spec.qty).toNat
    .ok (buildPlan spec (allocateQty spec.qty (twapWeights n)) (splitWindow spec.startAt spec.endAt n))

def vwapSchedule : Except ScheduleError (List ChildOrder) :=
  match validateParent spec with
  | .error e => .error e
  | .ok () =>
    let n := if spec.slices ≤ 0 then
        if spec.profile ≠ [] then (spec.profile.length : Int) else deriveSlices (spec.endAt - spec.startAt)
      else spec.slices
    let n := (effectiveSlices n spec.qty).toNat
    .ok (buildPlan spec (allocateQty spec.qty (vwapWeights n spec.profile)) (splitWindow spec.startAt spec.endAt n))

def resolveExecWindow (start : Time) (slices : Int) (profile : List ℚ) : Int × Time :=
  let n := if slices ≤ 0 ∧ profile ≠ [] then (profile.length : Int) else slices
  let n := if n ≤ 0 then 1 else n
  (n,start + n * Time.dayNs)

def Addressed (plan : List ChildOrder) : Prop :=
  ∀ child ∈ plan, child.symbol = spec.symbol ∧ child.side = spec.side ∧ child.orderId.parent = spec.parentId

theorem buildPlan_addressed (qtys : List ℚ) (times : List Time) : Addressed spec (buildPlan spec qtys times) := by
  intro child member
  obtain ⟨i,_,rfl⟩ := mem_mapIdx.mp member
  exact ⟨rfl,rfl,rfl⟩

/-- A parent order under way. The children up to `nextIdx` have been handed out. -/
structure ParentRun where
  spec : AttachSpec
  plan : List ChildOrder
  addressed : Addressed spec plan
  nextIdx : ℕ
  (filled submitted : ℚ)
  cancelled : Bool
deriving DecidableEq

structure DueChild where
  child : ChildOrder
  orderType : OrderType
deriving DecidableEq

def sideName : Direction → String
  | .long => "long"
  | .short => "short"
  | .close => "close"
  | .hold => "hold"

def ParentId.before (a b : ParentId) : Prop :=
  a.day < b.day ∨ a.day = b.day ∧
    (a.symbol < b.symbol ∨ a.symbol = b.symbol ∧ sideName a.side ≤ sideName b.side)

instance (a b : ParentId) : Decidable (a.before b) := by unfold ParentId.before; infer_instance

/-- The parents in the order of their numbers, the order every method visits them in. -/
structure Dispatcher where
  parents : List ParentRun
deriving DecidableEq

inductive AttachError where
  | unknownAlgo (style : ExecStyle) | invalidSchedule (cause : ScheduleError) | emptyPlan
  | nonPositiveSlice (slice : ℕ) | duplicateParent (parent : ParentId) | qtySumMismatch (sum qty : ℚ)
deriving DecidableEq

inductive AttachFailureKind where
  | unknownStyle | duplicateParent | qtySumMismatch | scheduleInvalid | other
deriving DecidableEq

/-- A sum mismatch is not reported through its own error value, so it counts as `other`. -/
def classifyAttachError : AttachError → AttachFailureKind
  | .unknownAlgo _ => .unknownStyle
  | .duplicateParent _ => .duplicateParent
  | .invalidSchedule _ => .scheduleInvalid
  | .emptyPlan | .nonPositiveSlice _ | .qtySumMismatch _ _ => .other

def qtySumTolerance (qty : ℚ) : ℚ := 1/1000000000 * max 1 |qty|

def cancellable (run : ParentRun) : Bool :=
  ¬ run.cancelled ∧ run.filled < run.spec.qty - qtySumTolerance run.spec.qty

namespace ParentRun

def due (run : ParentRun) (date : Time) : List ChildOrder :=
  (run.plan.drop run.nextIdx).takeWhile (·.submitAt ≤ date)

def onBar (run : ParentRun) (date : Time) : ParentRun :=
  { run with
    nextIdx := run.nextIdx + (run.due date).length
    submitted := run.submitted + ((run.due date).map (·.qty)).sum }

end ParentRun

namespace Dispatcher

def newDispatcher : Dispatcher := ⟨[]⟩

variable (d : Dispatcher) (spec : AttachSpec)

def schedule : Except AttachError (List ChildOrder) :=
  match spec.style with
  | .twap => (twapSchedule spec).mapError .invalidSchedule
  | .vwap => (vwapSchedule spec).mapError .invalidSchedule
  | style => .error (.unknownAlgo style)

theorem schedule_addressed {spec : AttachSpec} {plan : List ChildOrder} (planned : schedule spec = .ok plan) :
    Addressed spec plan := by
  unfold schedule at planned
  split at planned
  · unfold twapSchedule at planned
    split at planned
    · cases planned
    cases planned
    exact buildPlan_addressed _ _ _
  · unfold vwapSchedule at planned
    split at planned
    · cases planned
    cases planned
    exact buildPlan_addressed _ _ _
  · cases planned

def attach : Except AttachError Dispatcher :=
  match planned : schedule spec with
  | .error e => .error e
  | .ok plan =>
    if plan = [] then .error .emptyPlan
    else match plan.findIdx? (·.qty ≤ 0) with
    | some slice => .error (.nonPositiveSlice slice)
    | none =>
      if d.parents.any (·.spec.parentId = spec.parentId) then .error (.duplicateParent spec.parentId)
      else
        let sum := (plan.map (·.qty)).sum
        if |sum - spec.qty| > qtySumTolerance spec.qty then .error (.qtySumMismatch sum spec.qty)
        else
          let run : ParentRun :=
            { spec := spec, plan := plan, addressed := schedule_addressed planned, nextIdx := 0, filled := 0,
              submitted := 0, cancelled := false }
          .ok ⟨d.parents.orderedInsert (fun a b => a.spec.parentId.before b.spec.parentId) run⟩

def live (symbol : String) (run : ParentRun) : Bool := ¬ run.cancelled ∧ run.spec.symbol = symbol

def onBar (d : Dispatcher) (symbol : String) (date : Time) : List DueChild × Dispatcher :=
  ((d.parents.filter (live symbol)).flatMap fun run => (run.due date).map fun child => ⟨child,run.spec.orderType⟩,
    ⟨d.parents.map fun run => if live symbol run then run.onBar date else run⟩)

theorem onBar_symbol {d : Dispatcher} {symbol : String} {date : Time} {dc : DueChild}
    (due : dc ∈ (d.onBar symbol date).1) : dc.child.symbol = symbol := by
  obtain ⟨run,member,handed⟩ := mem_flatMap.mp due
  obtain ⟨child,planned,rfl⟩ := mem_map.mp handed
  have same : run.spec.symbol = symbol := by
    have alive := (mem_filter.mp member).2
    simp only [live,decide_eq_true_eq] at alive
    exact alive.2
  have slice : child ∈ run.plan := mem_of_mem_drop (takeWhile_subset _ planned)
  exact (run.addressed child slice).1.trans same

def onFill (child : ChildId) (qty : ℚ) : Option Dispatcher :=
  match d.parents.find? (·.spec.parentId = child.parent) with
  | none => some d
  | some run =>
    if run.filled + qty - run.spec.qty > qtySumTolerance run.spec.qty then none
    else some ⟨d.parents.map fun other =>
      if other.spec.parentId = child.parent then { other with filled := other.filled + qty } else other⟩

def progress (parent : ParentId) : Option (ℚ × ℚ) :=
  (d.parents.find? (·.spec.parentId = parent)).map fun run => (run.filled,run.spec.qty)

def cancelSymbol (symbol : String) : Dispatcher :=
  ⟨d.parents.map fun run =>
    if run.spec.symbol = symbol ∧ cancellable run then { run with cancelled := true } else run⟩

def symbols : List String :=
  (((d.parents.filter (¬ ·.cancelled)).map (·.spec.symbol)).dedup).insertionSort (· ≤ ·)

def len : ℕ := (d.parents.filter (¬ ·.cancelled)).length

def activeParents : List ParentRun := d.parents.filter (¬ ·.cancelled)

end Dispatcher
end QuantTrading.ExecAlgo
