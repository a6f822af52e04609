import QuantTrading.ExecAlgo
import QuantTrading.Library.Book
import QuantTrading.Library.FloatText

/-! The dispatcher with the order numbers its callers see: a parent carries any text, a child the
parent's text and its place in the plan, and fills are routed by the child's text. Scheduling
shares its arithmetic with the structured orders of the engine.
-/
namespace QuantTrading.ExecAlgo.Runtime
open Library List

structure ParentOrder where
  (orderId runId symbol : String)
  side : Direction
  (qty limitPrice : ℚ)
  style : ExecStyle
  (startAt endAt : Time)
deriving DecidableEq

structure ChildOrder where
  (orderId parentId runId symbol : String)
  side : Direction
  (qty limitPrice : ℚ)
  submitAt : Time
deriving DecidableEq

structure AttachSpec where
  (parentId runId symbol : String)
  side : Direction
  (qty limitPrice : ℚ)
  style : ExecStyle
  slices : Int
  profile : List ℚ
  orderType : OrderType
  (startAt endAt : Time)
deriving DecidableEq

variable (parent : ParentOrder)

def validateParent : Except ScheduleError Unit :=
  if parent.symbol = "" then .error .emptySymbol
  else if parent.qty ≤ 0 then .error (.nonPositiveQty parent.qty)
  else if ¬ parent.endAt > parent.startAt then .error (.emptyWindow parent.startAt parent.endAt)
  else .ok ()

def childOrderID (parentID : String) (i : ℕ) : String :=
  parentID ++ "-C" ++ String.ofList ((Nat.toDigits 10 i).leftpad 4 '0')

def buildPlan (qtys : List ℚ) (times : List Time) : List ChildOrder :=
  (qtys.zip times).mapIdx fun i slice =>
    { orderId := childOrderID parent.orderId i
      parentId := parent.orderId
      runId := parent.runId
      symbol := parent.symbol
      side := parent.side
      qty := slice.1
      limitPrice := parent.limitPrice
      submitAt := slice.2 }

inductive Algo where
  | twap (slices : Int)
  | vwap (slices : Int) (profile : List ℚ)
deriving DecidableEq

namespace Algo

variable (algo : Algo) (parent : ParentOrder)

def asked (window : Int) : Int :=
  match algo with
  | .twap slices => if slices ≤ 0 then deriveSlices window else slices
  | .vwap slices profile =>
    if slices ≤ 0 then if profile ≠ [] then (profile.length : Int) else deriveSlices window else slices

def slices : ℕ :=
  (effectiveSlices (algo.asked (parent.endAt - parent.startAt)) parent.qty).toNat

def weights (n : ℕ) : List ℚ :=
  match algo with
  | .twap _ => twapWeights n
  | .vwap _ profile => vwapWeights n profile

def schedule : Except ScheduleError (List ChildOrder) :=
  match validateParent parent with
  | .error e => .error e
  | .ok () =>
    .ok (buildPlan parent (allocateQty parent.qty (algo.weights (algo.slices parent)))
      (splitWindow parent.startAt parent.endAt (algo.slices parent)))

end Algo

/-- The slices up to `nextIdx` have been moved to the buffer of those to hand out. -/
structure PlanState where
  parentId : String
  plan : List ChildOrder
  nextIdx : ℕ
  due : List ChildOrder
deriving DecidableEq

namespace PlanState

def reset (parent : ParentOrder) (plan : List ChildOrder) : PlanState := ⟨parent.orderId,plan,0,[]⟩

variable (s : PlanState)

def arrived (date : Time) : List ChildOrder := (s.plan.drop s.nextIdx).takeWhile (·.submitAt ≤ date)

def onBar (date : Time) : Option PlanState :=
  if s.parentId = "" then none
  else some { s with due := s.due ++ s.arrived date, nextIdx := s.nextIdx + (s.arrived date).length }

def dueChildOrders : List ChildOrder × PlanState := (s.due,{ s with due := [] })

end PlanState

structure ParentRun where
  spec : AttachSpec
  algo : PlanState
  plan : List ChildOrder
  (filled submitted : ℚ)
  cancelled : Bool
  cancelReason : String
deriving DecidableEq

structure DueChild where
  child : ChildOrder
  orderType : OrderType
deriving DecidableEq

structure ParentProgress where
  (parentId symbol : String)
  side : Direction
  (filled total : ℚ)
  reason : String
deriving DecidableEq

def cancellable (run : ParentRun) : Bool :=
  ¬ run.cancelled ∧ run.filled < run.spec.qty - qtySumTolerance run.spec.qty

def progressOf (parentID : String) (run : ParentRun) : ParentProgress :=
  ⟨parentID,run.spec.symbol,run.spec.side,run.filled,run.spec.qty,run.cancelReason⟩

namespace ParentRun

def onBar (run : ParentRun) (symbol : String) (date : Time) : List DueChild × Bool × ParentRun :=
  if run.cancelled then ([],false,run)
  else if run.spec.symbol ≠ symbol then ([],false,run)
  else match run.algo.onBar date with
  | none => ([],true,run)
  | some algo =>
    let (due,algo) := algo.dueChildOrders
    (due.map fun child => ⟨child,run.spec.orderType⟩,false,
      { run with algo := algo, submitted := run.submitted + (due.map (·.qty)).sum })

def cancel (run : ParentRun) (reason : String) : ParentRun := { run with cancelled := true, cancelReason := reason }

end ParentRun

/-- The parents by their number, visited in its order, and the parent of each child. -/
structure Dispatcher where
  parents : Book String ParentRun
  childIdx : Book String String

inductive AttachError where
  | emptyParentId
  | unknownAlgo (style : ExecStyle) (parent : String)
  | invalidSchedule (cause : ScheduleError)
  | emptyPlan
  | nonPositiveSlice (slice : ℕ)
  | duplicateParent (parent : String)
  | childCollision (child : String)
  | qtySumMismatch (sum qty : ℚ)
deriving DecidableEq

inductive FillError where
  | overFilled (parent : String) (filled qty total : ℚ)
deriving DecidableEq

namespace Dispatcher

def newDispatcher : Dispatcher := ⟨∅,∅⟩

variable (d : Dispatcher) (spec : AttachSpec)

def algoFor : Option Algo :=
  match spec.style with
  | .twap => some (.twap spec.slices)
  | .vwap => some (.vwap spec.slices spec.profile)
  | _ => none

def parentOf : ParentOrder :=
  ⟨spec.parentId,spec.runId,spec.symbol,spec.side,spec.qty,spec.limitPrice,spec.style,spec.startAt,spec.endAt⟩

/-- The plan of a parent, or why there is none: the part that does not look at the other parents. -/
def planFor : Except AttachError (List ChildOrder) :=
  if spec.parentId = "" then .error .emptyParentId
  else match algoFor spec with
  | none => .error (.unknownAlgo spec.style spec.parentId)
  | some algo =>
    match algo.schedule (parentOf spec) with
    | .error e => .error (.invalidSchedule e)
    | .ok plan =>
      if plan = [] then .error .emptyPlan
      else match plan.findIdx? (·.qty ≤ 0) with
      | some slice => .error (.nonPositiveSlice slice)
      | none => .ok plan

def attach : Except AttachError (List ChildOrder) × Dispatcher :=
  match planFor spec with
  | .error e => (.error e,d)
  | .ok plan =>
    if d.parents.contains spec.parentId then (.error (.duplicateParent spec.parentId),d)
    else match plan.find? (fun child => d.childIdx.contains child.orderId) with
    | some child => (.error (.childCollision child.orderId),d)
    | none =>
      let sum := (plan.map (·.qty)).sum
      if |sum - spec.qty| > qtySumTolerance spec.qty then (.error (.qtySumMismatch sum spec.qty),d)
      else
        let run : ParentRun := ⟨spec,.reset (parentOf spec) plan,plan,0,0,false,""⟩
        (.ok plan,
          ⟨d.parents.insert spec.parentId run,
            plan.foldl (fun idx child => idx.insert child.orderId spec.parentId) d.childIdx⟩)

/-- Every parent is visited; the numbers of those whose plan failed are reported beside what the
others hand out. -/
def onBar (d : Dispatcher) (symbol : String) (date : Time) : (List DueChild × List String) × Dispatcher :=
  ((d.parents.toList.flatMap fun entry => (entry.2.onBar symbol date).1,
    (d.parents.toList.filter fun entry => (entry.2.onBar symbol date).2.1).map (·.1)),
    { d with parents := d.parents.map fun _ run => (run.onBar symbol date).2.2 })

def onFill (orderId : String) (qty : ℚ) : Except FillError Unit × Dispatcher :=
  match d.childIdx[orderId]? with
  | none => (.ok (),d)
  | some parent =>
    match d.parents[parent]? with
    | none => (.ok (),d)
    | some run =>
      let next := run.filled + qty
      if next - run.spec.qty > qtySumTolerance run.spec.qty then
        (.error (.overFilled parent run.filled qty run.spec.qty),d)
      else (.ok (),{ d with parents := d.parents.insert parent { run with filled := next } })

def cancel (d : Dispatcher) (parentID reason : String) : Option ParentProgress × Dispatcher :=
  match d.parents[parentID]? with
  | none => (none,d)
  | some run =>
    if cancellable run then
      (some (progressOf parentID (run.cancel reason)),{ d with parents := d.parents.insert parentID (run.cancel reason) })
    else (none,d)

def cancelSymbol (symbol reason : String) : List ParentProgress × Dispatcher :=
  let hit (run : ParentRun) : Bool := run.spec.symbol = symbol ∧ cancellable run
  ((d.parents.toList.filter fun entry => hit entry.2).map fun entry => progressOf entry.1 (entry.2.cancel reason),
    { d with parents := d.parents.map fun _ run => if hit run then run.cancel reason else run })

end Dispatcher

section Numbers

def sliceDigits (i : ℕ) : List Char := (Nat.toDigits 10 i).leftpad 4 '0'

theorem isDigit_of_mem_sliceDigits {i : ℕ} {c : Char} (member : c ∈ sliceDigits i) : c.isDigit = true := by
  refine Decimal.isDigit_of_mem_leftpad (fun digit listed => ?_) c member
  exact Nat.isDigit_of_mem_toDigits (by norm_num) le_rfl listed

theorem sliceDigits_injective {i j : ℕ} (same : sliceDigits i = sliceDigits j) : i = j := by
  have value (n : ℕ) : Nat.ofDigitChars 10 (sliceDigits n) 0 = n := by
    rw [sliceDigits,leftpad,Nat.ofDigitChars_append,Nat.ofDigitChars_replicate_zero,mul_zero,
      Nat.ofDigitChars_toDigits (by norm_num) le_rfl]
  rw [← value i,same,value j]

theorem toList_childOrderID (parentID : String) (i : ℕ) :
    (childOrderID parentID i).toList = parentID.toList ++ '-' :: 'C' :: sliceDigits i := by
  simp [childOrderID,sliceDigits]

theorem takeWhile_isDigit (i : ℕ) (rest : List Char) :
    ((sliceDigits i).reverse ++ 'C' :: rest).takeWhile Char.isDigit = (sliceDigits i).reverse := by
  rw [takeWhile_append_of_pos]
  · simp
  · intro c member
    exact isDigit_of_mem_sliceDigits (mem_reverse.mp member)

/-- Read from the end, the digits are the slice and what stands behind the letter is the parent. -/
theorem childOrderID_injective {p q : String} {i j : ℕ} (same : childOrderID p i = childOrderID q j) :
    p = q ∧ i = j := by
  have texts := congrArg (fun text => text.toList.reverse) same
  simp only [toList_childOrderID,reverse_append,reverse_cons,append_assoc,cons_append,
    nil_append] at texts
  have digits := congrArg (takeWhile Char.isDigit) texts
  rw [takeWhile_isDigit,takeWhile_isDigit] at digits
  obtain rfl := sliceDigits_injective (reverse_injective digits)
  have parents := append_cancel_left texts
  simp only [cons.injEq,true_and] at parents
  exact ⟨String.toList_inj.mp (reverse_injective parents),rfl⟩

end Numbers

end QuantTrading.ExecAlgo.Runtime
