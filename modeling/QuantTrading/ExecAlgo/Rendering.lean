import Mathlib.Data.String.Basic
import QuantTrading.ExecAlgo.Protocol
import QuantTrading.ExecAlgo.Dispatch

/-! The two dispatchers are one. The day loops number a parent by its day, symbol and side; the
dispatcher itself sees the text of that number. Whatever way of writing the numbers is used, as
long as it keeps the order of those in use, the calls on the one show as calls on the other, and
a bar hands out the same slices in the same order.
-/
namespace QuantTrading.ExecAlgo
open Library List

inductive Call where
  | attach (spec : AttachSpec)
  | onBar (symbol : String) (date : Time)
  | onFill (child : ChildId) (qty : ℚ)
  | cancelSymbol (symbol reason : String)

def Dispatcher.take (d : Dispatcher) : Call → Dispatcher
  | .attach spec => (d.attach spec).toOption.getD d
  | .onBar symbol date => (d.onBar symbol date).2
  | .onFill child qty => (d.onFill child qty).getD d
  | .cancelSymbol symbol _ => d.cancelSymbol symbol

/-- Parents have numbers in use, and a fill is told of a slice that was planned for its parent. -/
def Dispatcher.Takes (ids : Set ParentId) (d : Dispatcher) : Call → Prop
  | .attach spec => spec.parentId ∈ ids
  | .onFill child _ => child.parent ∈ ids ∧
    ∀ run ∈ d.parents, run.spec.parentId = child.parent → ∃ slice ∈ run.plan, slice.orderId = child
  | _ => True

/-- A way of writing the numbers in use: different ones differently, in their own order, and none as
nothing. -/
structure Writing where
  text : ParentId → String
  runId : String
  ids : Set ParentId
  named : ∀ id ∈ ids, text id ≠ ""
  distinct : Set.InjOn text ids
  ordered : ∀ a ∈ ids, ∀ b ∈ ids, (a.before b ↔ text a ≤ text b)

namespace Writing
variable (w : Writing)

def spec (s : AttachSpec) : Runtime.AttachSpec :=
  ⟨w.text s.parentId,w.runId,s.symbol,s.side,s.qty,s.limitPrice,s.style,s.slices,s.profile,s.orderType,s.startAt,s.endAt⟩

def childId (id : ChildId) : String := Runtime.childOrderID (w.text id.parent) id.slice

def child (c : ChildOrder) : Runtime.ChildOrder :=
  ⟨w.childId c.orderId,w.text c.orderId.parent,w.runId,c.symbol,c.side,c.qty,c.limitPrice,c.submitAt⟩

def key (run : ParentRun) : String := w.text run.spec.parentId

def run (p : ParentRun) (reason : String) : Runtime.ParentRun :=
  ⟨w.spec p.spec,⟨w.key p,p.plan.map w.child,p.nextIdx,[]⟩,p.plan.map w.child,p.filled,p.submitted,p.cancelled,reason⟩

def due (dc : DueChild) : Runtime.DueChild := ⟨w.child dc.child,dc.orderType⟩

def error (parent : ParentId) : AttachError → Runtime.AttachError
  | .unknownAlgo style => .unknownAlgo style (w.text parent)
  | .invalidSchedule cause => .invalidSchedule cause
  | .emptyPlan => .emptyPlan
  | .nonPositiveSlice slice => .nonPositiveSlice slice
  | .duplicateParent id => .duplicateParent (w.text id)
  | .qtySumMismatch sum qty => .qtySumMismatch sum qty

def call : Call → Runtime.Op
  | .attach s => .attach (w.spec s)
  | .onBar symbol date => .onBar symbol date
  | .onFill child qty => .onFill (w.childId child) qty
  | .cancelSymbol symbol reason => .cancelSymbol symbol reason

section Schedules
variable (s : AttachSpec)

theorem buildPlan_shown (qtys : List ℚ) (times : List Time) :
    Runtime.buildPlan (Runtime.Dispatcher.parentOf (w.spec s)) qtys times = (buildPlan s qtys times).map w.child := by
  apply ext_getElem?
  intro i
  simp [Runtime.buildPlan,buildPlan,child,childId,spec,Runtime.Dispatcher.parentOf,Function.comp_def]

theorem schedule_shown (algo : Runtime.Algo) {planned : Except ScheduleError (List ChildOrder)}
    (cut : planned = match validateParent s with
      | .error e => .error e
      | .ok () =>
        let n := algo.slices (Runtime.Dispatcher.parentOf (w.spec s))
        .ok (buildPlan s (allocateQty s.qty (algo.weights n)) (splitWindow s.startAt s.endAt n))) :
    algo.schedule (Runtime.Dispatcher.parentOf (w.spec s)) = planned.map (map w.child) := by
  have valid : Runtime.validateParent (Runtime.Dispatcher.parentOf (w.spec s)) = validateParent s := rfl
  rw [Runtime.Algo.schedule,cut,valid]
  cases validateParent s with
  | error => rfl
  | ok => exact congrArg _ (w.buildPlan_shown ..)

theorem algoFor_shown :
    (Dispatcher.schedule s = .error (.unknownAlgo s.style) ∧ Runtime.Dispatcher.algoFor (w.spec s) = none) ∨
      ∃ (algo : Runtime.Algo) (planned : Except ScheduleError (List ChildOrder)), Dispatcher.schedule s = planned.mapError .invalidSchedule ∧
        Runtime.Dispatcher.algoFor (w.spec s) = some algo ∧
        algo.schedule (Runtime.Dispatcher.parentOf (w.spec s)) = planned.map (map w.child) := by
  unfold Dispatcher.schedule Runtime.Dispatcher.algoFor
  rw [show (w.spec s).style = s.style from rfl]
  cases s.style with
  | twap => exact .inr ⟨_,_,rfl,rfl,w.schedule_shown s _ rfl⟩
  | vwap => exact .inr ⟨_,_,rfl,rfl,w.schedule_shown s _ rfl⟩
  | unset | unknown => exact .inl ⟨rfl,rfl⟩

theorem planFor_shown (used : s.parentId ∈ w.ids) : Runtime.Dispatcher.planFor (w.spec s) =
    match Dispatcher.schedule s with
    | .error e => .error (w.error s.parentId e)
    | .ok plan =>
      if plan = [] then .error .emptyPlan
      else match plan.findIdx? (·.qty ≤ 0) with
      | some slice => .error (.nonPositiveSlice slice)
      | none => .ok (plan.map w.child) := by
  have qtys (plan : List ChildOrder) : (plan.map w.child).findIdx? (·.qty ≤ 0) = plan.findIdx? (·.qty ≤ 0) := findIdx?_map
  rw [Runtime.Dispatcher.planFor,if_neg (show (w.spec s).parentId ≠ "" from w.named _ used)]
  rcases w.algoFor_shown s with ⟨unknown,none_⟩ | ⟨algo,planned,schedule,some_,cut⟩
  · rw [none_,unknown]
    rfl
  rw [some_,schedule]
  dsimp only
  rw [cut]
  rcases planned with e | (_ | ⟨first,rest⟩)
  · rfl
  · rfl
  · cases found : (first :: rest).findIdx? (·.qty ≤ 0) with
    | _ => simp only [Except.map,Except.mapError,qtys,found,map_eq_nil_iff,reduceCtorEq,if_false]

end Schedules

def reasonOf (r : Runtime.Dispatcher) (parent : String) : String := ((r.parents[parent]?).map (·.cancelReason)).getD ""

/-- The dispatcher of texts holds the parents of the other, with reasons for a cancel of its own. -/
structure Shows (d : Dispatcher) (r : Runtime.Dispatcher) : Prop where
  used : ∀ run ∈ d.parents, run.spec.parentId ∈ w.ids
  ascending : (d.parents.map w.key).Pairwise (· < ·)
  shown : ∀ run ∈ d.parents, ∃ reason, r.parents[w.key run]? = some (w.run run reason)
  known : ∀ key ∈ r.parents, ∃ run ∈ d.parents, w.key run = key
  index : ∀ order parent, r.childIdx[order]? = some parent ↔ ∃ run ∈ d.parents, w.key run = parent ∧
    ∃ child ∈ run.plan, w.childId child.orderId = order

variable {w : Writing}

theorem shows_new : w.Shows .newDispatcher .newDispatcher := by
  constructor <;> simp [Dispatcher.newDispatcher,Runtime.Dispatcher.newDispatcher]

namespace Shows
variable {d : Dispatcher} {r : Runtime.Dispatcher} (shows : w.Shows d r)
include shows

/-- A call that rewrites the parents where they stand. -/
theorem rewritten (f : ParentRun → ParentRun) (same : ∀ run, (f run).spec = run.spec ∧ (f run).plan = run.plan)
    {parents : Book String Runtime.ParentRun} (keys : ∀ key ∈ parents, key ∈ r.parents)
    (written : ∀ run ∈ d.parents, ∀ reason, r.parents[w.key run]? = some (w.run run reason) →
      ∃ reason, parents[w.key run]? = some (w.run (f run) reason)) :
    w.Shows ⟨d.parents.map f⟩ { r with parents := parents } := by
  have keyed (run : ParentRun) : w.key (f run) = w.key run := by rw [key,(same run).1,key]
  refine ⟨?_,?_,?_,?_,?_⟩
  · simpa [same] using shows.used
  · simpa [Function.comp_def,keyed] using shows.ascending
  · simp only [forall_mem_map,keyed]
    intro run member
    obtain ⟨reason,found⟩ := shows.shown run member
    exact written run member reason found
  · intro key present
    simpa [keyed] using shows.known key (keys key present)
  · simpa [keyed,same] using shows.index

theorem entry {run : ParentRun} (member : run ∈ d.parents) : r.parents[w.key run]? =
    some (w.run run (reasonOf r (w.key run))) := by
  obtain ⟨reason,found⟩ := shows.shown run member
  rw [reasonOf,found]
  rfl

/-- The parents are visited in the same order. -/
theorem toList_eq : r.parents.toList = d.parents.map fun run =>
    (w.key run,w.run run (reasonOf r (w.key run))) := by
  have ascending : (d.parents.map fun run => (w.key run,w.run run
      (reasonOf r (w.key run)))).Pairwise fun a b => compare a.1 b.1 = .lt :=
    pairwise_map.mpr ((pairwise_map.mp shows.ascending).imp compareOfLessAndEq_eq_lt.mpr)
  refine Perm.eq_of_pairwise ?_ Std.ExtTreeMap.ordered_keys_toList ascending
    ((perm_ext_iff_of_nodup (Book.nodup_toList _) ?_).mpr ?_)
  · intro a b _ _ less more
    exact absurd more (Std.OrientedCmp.not_lt_of_lt less)
  · refine ascending.imp ?_
    rintro a _ less rfl
    cases less.symm.trans Std.ReflCmp.compare_self
  · rintro ⟨key,value⟩
    rw [mem_toList_iff_getElem?_eq_some,mem_map]
    constructor
    · intro found
      obtain ⟨run,member,rfl⟩ := shows.known key (Std.ExtTreeMap.mem_iff_isSome_getElem?.mpr (by simp [found]))
      exact ⟨run,member,Prod.ext rfl (Option.some.inj ((shows.entry member).symm.trans found))⟩
    · rintro ⟨run,member,same⟩
      cases same
      exact shows.entry member

end Shows

theorem arrived_shown (run : ParentRun) (reason : String) (date : Time) :
    (w.run run reason).algo.arrived date = (run.due date).map w.child := by
  rw [Runtime.PlanState.arrived,ParentRun.due,Writing.run,← map_drop,takeWhile_map]
  rfl

theorem onBar_shown {run : ParentRun} (named : w.key run ≠ "") (reason symbol : String) (date : Time) :
    (w.run run reason).onBar symbol date =
      (if Dispatcher.live symbol run then (run.due date).map fun child => w.due ⟨child,run.spec.orderType⟩
        else [],false,w.run (if Dispatcher.live symbol run then run.onBar date else run) reason) := by
  have qtys : ((run.due date).map w.child).map (·.qty) = (run.due date).map (·.qty) := by
    rw [map_map]
    rfl
  have algo : (w.run run reason).algo.onBar date =
      some ⟨w.key run,run.plan.map w.child,run.nextIdx + (run.due date).length,
        (run.due date).map w.child⟩ := by
    rw [Runtime.PlanState.onBar,arrived_shown,if_neg (show (w.run run reason).algo.parentId ≠ "" from named)]
    simp [Writing.run]
  unfold Runtime.ParentRun.onBar
  by_cases stopped : run.cancelled = true
  · simp [Writing.run,Dispatcher.live,stopped]
  by_cases own : run.spec.symbol = symbol
  · rw [algo]
    simp [Writing.run,spec,key,due,Dispatcher.live,stopped,own,Runtime.PlanState.dueChildOrders,ParentRun.onBar,qtys]
  · simp [Writing.run,spec,Dispatcher.live,stopped,own]

namespace Shows
variable {d : Dispatcher} {r : Runtime.Dispatcher} (shows : w.Shows d r)
include shows

theorem onBar (symbol : String) (date : Time) :
    (r.onBar symbol date).1 = ((d.onBar symbol date).1.map (w.due),[]) ∧
      w.Shows (d.onBar symbol date).2 (r.onBar symbol date).2 := by
  have named {run : ParentRun} (member : run ∈ d.parents) : w.key run ≠ "" :=
    w.named _ (shows.used run member)
  refine ⟨Prod.ext ?_ ?_,?_⟩
  · simp only [Runtime.Dispatcher.onBar,Dispatcher.onBar,shows.toList_eq,flatMap_map]
    have runs : ∀ run ∈ d.parents, w.key run ≠ "" := fun run member => named member
    generalize d.parents = parents at runs
    induction parents with
    | nil => rfl
    | cons run rest ih =>
      obtain ⟨here,later⟩ := forall_mem_cons.mp runs
      rw [flatMap_cons,ih later,onBar_shown here]
      by_cases alive : Dispatcher.live symbol run = true <;> simp [alive,due]
  · simp only [Runtime.Dispatcher.onBar,shows.toList_eq]
    rw [map_eq_nil_iff,filter_eq_nil_iff]
    intro entry member
    obtain ⟨run,listed,rfl⟩ := mem_map.mp member
    rw [onBar_shown (named listed)]
    exact Bool.false_ne_true
  · refine shows.rewritten _ (fun run => by split <;> exact ⟨rfl,rfl⟩) (by simp) fun run member reason found => ⟨reason,?_⟩
    rw [Book.get_map,found,map_some,onBar_shown (named member)]

theorem cancelSymbol (symbol reason : String) :
    w.Shows (d.cancelSymbol symbol) (r.cancelSymbol symbol reason).2 := by
  refine shows.rewritten _ (fun run => by split <;> exact ⟨rfl,rfl⟩) (by simp) fun run member before found => ?_
  rw [Book.get_map,found,map_some]
  have same : (run.spec.symbol = symbol ∧ cancellable run = true) ↔ (w.run run before).spec.symbol = symbol ∧
      Runtime.cancellable (w.run run before) = true := Iff.rfl
  by_cases hit : run.spec.symbol = symbol ∧ cancellable run = true
  · refine ⟨reason,?_⟩
    rw [if_pos hit,if_pos (decide_eq_true (same.mp hit))]
    rfl
  · refine ⟨before,?_⟩
    rw [if_neg hit,if_neg fun met => hit (same.mpr (of_decide_eq_true met))]

/-- A child's text leads to the one parent it was cut from. -/
theorem routed {child : ChildId} (used : child.parent ∈ w.ids) {parent : String}
    (found : r.childIdx[w.childId child]? = some parent) :
    ∃ run ∈ d.parents, run.spec.parentId = child.parent := by
  obtain ⟨run,member,-,slice,planned,same⟩ := (shows.index _ _).mp found
  have own : slice.orderId.parent = run.spec.parentId := (run.addressed slice planned).2.2
  have texts : w.text slice.orderId.parent = w.text child.parent := (Runtime.childOrderID_injective same).1
  rw [own] at texts
  exact ⟨run,member,w.distinct (shows.used run member) used texts⟩

theorem onFill {child : ChildId} (used : child.parent ∈ w.ids)
    (planned : ∀ run ∈ d.parents, run.spec.parentId = child.parent → ∃ slice ∈ run.plan, slice.orderId = child) (qty : ℚ) :
    ((d.onFill child qty).isSome = true ↔ (r.onFill (w.childId child) qty).1 = .ok ()) ∧
      w.Shows ((d.onFill child qty).getD d) (r.onFill (w.childId child) qty).2 := by
  cases found : d.parents.find? (·.spec.parentId = child.parent) with
  | none =>
    have unknown : r.childIdx[w.childId child]? = none := by
      cases routing : r.childIdx[w.childId child]? with
      | none => rfl
      | some parent =>
        obtain ⟨run,member,same⟩ := shows.routed used routing
        exact absurd (decide_eq_true same) (find?_eq_none.mp found run member)
    simpa [Dispatcher.onFill,found,Runtime.Dispatcher.onFill,unknown] using shows
  | some run =>
    have member := mem_of_find?_eq_some found
    have own : run.spec.parentId = child.parent := by simpa using find?_some found
    obtain ⟨slice,inPlan,rfl⟩ := planned run member own
    have routing : r.childIdx[w.childId slice.orderId]? = some (w.key run) :=
      (shows.index _ _).mpr ⟨run,member,rfl,slice,inPlan,rfl⟩
    have held := shows.entry member
    have filled (reason : String) : (w.run run reason).filled = run.filled := rfl
    have total (reason : String) : (w.run run reason).spec.qty = run.spec.qty := rfl
    simp only [Dispatcher.onFill,found,Runtime.Dispatcher.onFill,routing,held,filled,total]
    by_cases exceeds : run.filled + qty - run.spec.qty > qtySumTolerance run.spec.qty
    · rw [if_pos exceeds,if_pos exceeds]
      exact ⟨by simp,shows⟩
    · rw [if_neg exceeds,if_neg exceeds]
      refine ⟨by simp,shows.rewritten _ (fun other => by split <;> exact ⟨rfl,rfl⟩) ?_ ?_⟩
      · intro key present
        rcases Std.ExtTreeMap.mem_insert.mp present with same | old
        · rw [← Std.LawfulEqCmp.eq_of_compare same]
          exact Std.ExtTreeMap.mem_iff_isSome_getElem?.mpr (by simp [held])
        · exact old
      · intro other listed reason shown
        rw [Book.get_insert]
        by_cases same : other.spec.parentId = slice.orderId.parent
        · have keys : w.key other = w.key run := by rw [key,same,← own,key]
          rw [if_pos same,if_pos keys.symm]
          rw [keys,held] at shown
          exact ⟨reason,congrArg (fun entry => some { entry with filled := entry.filled + qty }) (Option.some.inj shown)⟩
        · have apart : w.key run ≠ w.key other := fun texts =>
            same ((w.distinct (shows.used run member) (shows.used other listed) texts).symm.trans own)
          rw [if_neg same,if_neg apart]
          exact ⟨reason,shown⟩

theorem known_iff {parent : ParentId} (used : parent ∈ w.ids) :
    w.text parent ∈ r.parents ↔ ∃ run ∈ d.parents, run.spec.parentId = parent := by
  constructor
  · intro present
    obtain ⟨run,member,same⟩ := shows.known _ present
    exact ⟨run,member,w.distinct (shows.used run member) used same⟩
  · rintro ⟨run,member,rfl⟩
    exact Std.ExtTreeMap.mem_iff_isSome_getElem?.mpr (isSome_iff_exists.mpr ⟨_,shows.entry member⟩)

/-- The new parent takes the place its text has among the others. -/
theorem inserted {run : ParentRun} (used : run.spec.parentId ∈ w.ids)
    (fresh : ∀ other ∈ d.parents, other.spec.parentId ≠ run.spec.parentId) :
    ((d.parents.orderedInsert (fun a b => a.spec.parentId.before b.spec.parentId) run).map w.key).Pairwise (· < ·) := by
  have absent : w.key run ∉ d.parents.map w.key := by
    intro listed
    obtain ⟨other,member,same⟩ := mem_map.mp listed
    exact fresh other member (w.distinct (shows.used other member) used same)
  have nodup : ((d.parents.map w.key).orderedInsert (· ≤ ·) (w.key run)).Nodup :=
    (perm_orderedInsert ..).nodup_iff.mpr (nodup_cons.mpr ⟨absent,shows.ascending.imp ne_of_lt⟩)
  have sorted := (shows.ascending.imp le_of_lt).orderedInsert (w.key run) _
  rw [map_orderedInsert _ (· ≤ ·) w.key d.parents run (fun other member => w.ordered _ (shows.used other member) _ used)
    (fun other member => w.ordered _ used _ (shows.used other member))]
  exact (sorted.and nodup).imp fun both => lt_of_le_of_ne both.1 both.2

/-- A parent with a new number is written into both books, and its slices are routed to it. -/
theorem started {run : ParentRun} (used : run.spec.parentId ∈ w.ids)
    (fresh : ∀ other ∈ d.parents, other.spec.parentId ≠ run.spec.parentId) :
    w.Shows ⟨d.parents.orderedInsert (fun a b => a.spec.parentId.before b.spec.parentId) run⟩
      ⟨r.parents.insert (w.key run) (w.run run ""),
        (run.plan.map w.child).foldl (fun idx child => idx.insert child.orderId (w.key run))
          r.childIdx⟩ := by
  have members {other : ParentRun} :
      other ∈ d.parents.orderedInsert (fun a b => a.spec.parentId.before b.spec.parentId) run ↔
        other = run ∨ other ∈ d.parents := mem_orderedInsert _
  have unrouted {child : ChildOrder} (planned : child ∈ run.plan) {parent : String} :
      r.childIdx[w.childId child.orderId]? ≠ some parent := by
    intro routing
    have own : child.orderId.parent = run.spec.parentId := (run.addressed child planned).2.2
    obtain ⟨other,member,same⟩ := shows.routed (by rw [own]; exact used) routing
    exact fresh other member (same.trans own)
  refine ⟨?_,shows.inserted used fresh,?_,?_,?_⟩
  · intro other member
    rcases members.mp member with rfl | old
    · exact used
    · exact shows.used other old
  · intro other member
    rw [Book.get_insert]
    rcases members.mp member with rfl | old
    · exact ⟨"",if_pos rfl⟩
    · have apart : w.key run ≠ w.key other := fun same =>
        fresh other old (w.distinct (shows.used other old) used same.symm)
      rw [if_neg apart]
      exact shows.shown other old
  · intro key present
    rcases Std.ExtTreeMap.mem_insert.mp present with same | old
    · exact ⟨run,members.mpr (.inl rfl),Std.LawfulEqCmp.eq_of_compare same⟩
    · obtain ⟨other,member,named⟩ := shows.known key old
      exact ⟨other,members.mpr (.inr member),named⟩
  · intro order parent
    have collected : (run.plan.map w.child).foldl
        (fun idx child => idx.insert child.orderId (w.key run)) r.childIdx =
          r.childIdx.collectInto (run.plan.map fun child => w.childId child.orderId)
            fun _ => some (w.key run) := by
      rw [Book.collectInto,foldl_map,foldl_map]
      rfl
    rw [collected,Book.get_collectInto]
    constructor
    · intro found
      split at found
      next own =>
        obtain ⟨child,planned,rfl⟩ := mem_map.mp own
        exact ⟨run,members.mpr (.inl rfl),by simpa using found,child,planned,rfl⟩
      · obtain ⟨other,member,rest⟩ := (shows.index _ _).mp found
        exact ⟨other,members.mpr (.inr member),rest⟩
    · rintro ⟨other,member,rfl,child,planned,rfl⟩
      rcases members.mp member with rfl | old
      · rw [if_pos (mem_map_of_mem planned)]
        rfl
      · have routing := (shows.index _ _).mpr ⟨other,old,rfl,child,planned,rfl⟩
        rw [if_neg]
        · exact routing
        · intro own
          obtain ⟨slice,cut,same⟩ := mem_map.mp own
          rw [← same] at routing
          exact unrouted cut routing

theorem attach {s : AttachSpec} (used : s.parentId ∈ w.ids) :
    (∃ e, d.attach s = .error e ∧ r.attach (w.spec s) = (.error (w.error s.parentId e),r)) ∨
      ∃ d' plan r', d.attach s = .ok d' ∧ r.attach (w.spec s) = (.ok plan,r') ∧ w.Shows d' r' := by
  have plans : Runtime.Dispatcher.planFor (w.spec s) = _ := w.planFor_shown s used
  have refused {e : Runtime.AttachError} (failed : Runtime.Dispatcher.planFor (w.spec s) = .error e) :
      r.attach (w.spec s) = (.error e,r) := by rw [Runtime.Dispatcher.attach,failed]
  unfold Dispatcher.attach
  split
  next e failed => exact .inl ⟨e,rfl,refused (by rw [plans,failed])⟩
  next plan planned =>
  rw [planned] at plans
  split
  next nothing => exact .inl ⟨_,rfl,refused (by simp [plans,nothing,error])⟩
  next several =>
  split
  next slice first => exact .inl ⟨_,rfl,refused (by simp [plans,several,first,error])⟩
  next positive =>
  have cut : Runtime.Dispatcher.planFor (w.spec s) = .ok (plan.map w.child) := by
    simp [plans,several,positive]
  have addressed := Dispatcher.schedule_addressed planned
  split
  next duplicate =>
    have known : w.text s.parentId ∈ r.parents := (shows.known_iff used).mpr (by simpa using duplicate)
    refine .inl ⟨_,rfl,?_⟩
    rw [Runtime.Dispatcher.attach,cut]
    exact if_pos known
  next fresh =>
  have apart : ∀ other ∈ d.parents, other.spec.parentId ≠ s.parentId := by simpa using fresh
  have unknown : ¬ w.text s.parentId ∈ r.parents := by
    rw [shows.known_iff used]
    rintro ⟨other,member,same⟩
    exact apart other member same
  have unrouted : (plan.map w.child).find? (fun child => r.childIdx.contains child.orderId) = none := by
    rw [find?_eq_none]
    intro shown listed routing
    obtain ⟨child,inPlan,rfl⟩ := mem_map.mp listed
    rw [contains_eq_isSome_getElem?] at routing
    obtain ⟨parent,found⟩ := isSome_iff_exists.mp routing
    have own := (addressed child inPlan).2.2
    obtain ⟨other,member,same⟩ := shows.routed (by rw [own]; exact used) found
    exact apart other member (same.trans own)
  have sums : ((plan.map w.child).map (·.qty)).sum = (plan.map (·.qty)).sum := by
    rw [map_map]
    rfl
  have checked : r.attach (w.spec s) =
      if |(plan.map (·.qty)).sum - s.qty| > qtySumTolerance s.qty then
        (.error (.qtySumMismatch (plan.map (·.qty)).sum s.qty),r)
      else (.ok (plan.map w.child),
        ⟨r.parents.insert (w.text s.parentId) (w.run ⟨s,plan,addressed,0,0,0,false⟩ ""),
          (plan.map w.child).foldl (fun idx child => idx.insert child.orderId (w.text s.parentId))
            r.childIdx⟩) := by
    rw [← sums,Runtime.Dispatcher.attach,cut]
    dsimp only
    rw [if_neg (show ¬ r.parents.contains (w.spec s).parentId = true from unknown),unrouted]
    rfl
  rw [checked]
  dsimp only
  split
  next unbalanced => exact .inl ⟨_,rfl,rfl⟩
  next balanced =>
    let run : ParentRun := ⟨s,plan,addressed,0,0,0,false⟩
    have next := shows.started (show run.spec.parentId ∈ w.ids from used) apart
    exact .inr ⟨_,_,_,rfl,rfl,next⟩

theorem step {call : Call} (takes : d.Takes w.ids call) :
    w.Shows (d.take call) (r.step (w.call call)) := by
  cases call with
  | attach spec =>
    rcases shows.attach takes with ⟨e,refused,same⟩ | ⟨d',plan,r',accepted,same,next⟩
    · simp only [Dispatcher.take,refused,call,Runtime.Dispatcher.step,Runtime.Dispatcher.call,same]
      exact shows
    · simp only [Dispatcher.take,accepted,call,Runtime.Dispatcher.step,Runtime.Dispatcher.call,same]
      exact next
  | onBar symbol date => exact (shows.onBar symbol date).2
  | onFill child qty => exact (shows.onFill takes.1 takes.2 qty).2
  | cancelSymbol symbol reason => exact shows.cancelSymbol symbol reason

end Shows

/-- Over any sequence of calls the two dispatchers stay the same. -/
theorem run_shows (calls : List Call)
    (takes : Guarded Dispatcher.take (Dispatcher.Takes w.ids) .newDispatcher calls) :
    w.Shows (Library.run Dispatcher.take .newDispatcher calls)
      (Library.run Runtime.Dispatcher.step .newDispatcher (calls.map (w.call))) := by
  have start : w.Shows .newDispatcher .newDispatcher := shows_new
  generalize Dispatcher.newDispatcher = d at takes start
  generalize Runtime.Dispatcher.newDispatcher = r at start
  induction calls generalizing d r with
  | nil => exact start
  | cons call calls ih => exact ih _ takes.2 _ (start.step takes.1)

/-- Whether a way of writing will do is decided on the numbers in use. -/
def ofList (text : ParentId → String) (runId : String) (ids : List ParentId)
    (checked : (∀ id ∈ ids, text id ≠ "") ∧ ∀ a ∈ ids, ∀ b ∈ ids, (text a = text b → a = b) ∧
      (a.before b ↔ text a ≤ text b)) : Writing :=
  ⟨text,runId,{ id | id ∈ ids },checked.1,fun a inA b inB => (checked.2 a inA b inB).1,
    fun a inA b inB => (checked.2 a inA b inB).2⟩

-- Two parents of a day, written as the day loop writes them.
example : Writing :=
  ofList (fun id => "EA-20240102-" ++ id.symbol ++ "-" ++ sideName id.side) ""
    [⟨Time.date 2024 1 2,"000001.SZ",.long⟩,⟨Time.date 2024 1 2,"600000.SH",.close⟩] (by decide +kernel)

end Writing
end QuantTrading.ExecAlgo
