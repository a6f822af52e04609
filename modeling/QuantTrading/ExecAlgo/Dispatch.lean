import QuantTrading.ExecAlgo
import QuantTrading.Tracker.Operations

/-! What each call of the dispatcher does to its parents. A parent keeps its plan from the
moment it is attached; calls move its counters, and the slices handed out are slices of a
plan.
-/
namespace QuantTrading.ExecAlgo
open Tracker List

namespace Dispatcher

theorem find_map (parents : List ParentRun) (f : ParentRun → ParentRun) (kept : ∀ run, (f run).spec = run.spec)
    (parent : ParentId) : (parents.map f).find? (·.spec.parentId = parent) =
      (parents.find? (·.spec.parentId = parent)).map f := by
  rw [find?_map]
  congr 2
  funext run
  simp [kept]

variable (d : Dispatcher) (symbol : String) (parent : ParentId)

def lookup : Option ParentRun := d.parents.find? (·.spec.parentId = parent)

theorem lookup_onBar (date : Time) (parent : ParentId) : (d.onBar symbol date).2.lookup parent =
      (d.lookup parent).map fun run => if live symbol run then run.onBar date else run :=
  find_map _ _ (fun run => by split <;> rfl) parent

theorem lookup_cancelSymbol :
    (d.cancelSymbol symbol).lookup parent = (d.lookup parent).map fun run =>
      if run.spec.symbol = symbol ∧ cancellable run then { run with cancelled := true } else run :=
  find_map _ _ (fun run => by split <;> rfl) parent

theorem progress_onBar (date : Time) (parent : ParentId) :
    (d.onBar symbol date).2.progress parent = d.progress parent := by
  change ((d.onBar symbol date).2.lookup parent).map _ = (d.lookup parent).map _
  rw [lookup_onBar,Option.map_map]
  congr 1
  funext run
  simp only [Function.comp]
  split <;> rfl

theorem progress_cancelSymbol : (d.cancelSymbol symbol).progress parent = d.progress parent := by
  change ((d.cancelSymbol symbol).lookup parent).map _ = (d.lookup parent).map _
  rw [lookup_cancelSymbol,Option.map_map]
  congr 1
  funext run
  simp only [Function.comp]
  split <;> rfl

variable {d : Dispatcher} {qty : ℚ} {spec : AttachSpec}

variable {d' : Dispatcher} {child : ChildId} {r : ParentRun → ParentRun → Prop}

theorem onFill_parents (told : d.onFill child qty = some d') :
    d'.parents = d.parents.map fun run =>
      if run.spec.parentId = child.parent then { run with filled := run.filled + qty } else run := by
  unfold onFill at told
  split at told
  next absent =>
    cases told
    rw [find?_eq_none] at absent
    symm
    conv_rhs => rw [← map_id d.parents]
    apply map_congr_left
    intro run member
    have other := absent run member
    simp only [decide_eq_true_eq] at other
    rw [if_neg other]
    rfl
  · split at told
    · cases told
    cases told
    rfl

theorem lookup_onFill (told : d.onFill child qty = some d')
    (parent : ParentId) : d'.lookup parent = (d.lookup parent).map fun run =>
      if run.spec.parentId = child.parent then { run with filled := run.filled + qty } else run := by
  unfold lookup
  rw [onFill_parents told,find_map _ _ (fun run => by split <;> rfl)]

theorem lookup_id {parent : ParentId} {run : ParentRun} (found : d.lookup parent = some run) :
    run.spec.parentId = parent := by
  simpa using find?_some found

theorem progress_onFill (told : d.onFill child qty = some d') (parent : ParentId) : d'.progress parent =
      if parent = child.parent then (d.progress parent).map fun state => (state.1 + qty,state.2) else d.progress parent := by
  change (d'.lookup parent).map _ = if parent = child.parent then ((d.lookup parent).map _).map _ else (d.lookup parent).map _
  rw [lookup_onFill told]
  cases found : d.lookup parent with
  | none => simp
  | some =>
    simp only [Option.map_some,lookup_id found]
    split <;> rfl

/-- An accepted parent: its plan is positive, sums to its quantity and its number is new. -/
structure Attached (d : Dispatcher) (spec : AttachSpec) (run : ParentRun) (d' : Dispatcher) : Prop where
  asked : run.spec = spec
  planned : schedule spec = .ok run.plan
  slices : ∀ child ∈ run.plan, 0 < child.qty
  balanced : |(run.plan.map (·.qty)).sum - spec.qty| ≤ qtySumTolerance spec.qty
  fresh : ∀ other ∈ d.parents, other.spec.parentId ≠ spec.parentId
  filled : run.filled = 0
  nextIdx : run.nextIdx = 0
  parents : d'.parents = d.parents.orderedInsert (fun a b => a.spec.parentId.before b.spec.parentId) run

theorem attach_ok (accepted : d.attach spec = .ok d') : ∃ run, Attached d spec run d' := by
  unfold attach at accepted
  split at accepted
  · cases accepted
  rename_i plan planned
  iterate 2 (split at accepted; · cases accepted)
  rename_i positive
  split at accepted
  · cases accepted
  rename_i fresh
  dsimp only at accepted
  split at accepted
  · cases accepted
  rename_i balanced
  cases accepted
  let run : ParentRun := ⟨spec,plan,schedule_addressed planned,0,0,0,false⟩
  refine ⟨run,rfl,planned,?_,le_of_not_gt balanced,?_,rfl,rfl,rfl⟩
  · intro child member
    have above := findIdx?_eq_none_iff.mp positive child member
    simpa using above
  · intro other member same
    exact fresh (any_eq_true.mpr ⟨other,member,by simpa using same⟩)

theorem mem_attached {run other : ParentRun} (attached : Attached d spec run d') :
    other ∈ d'.parents ↔ other = run ∨ other ∈ d.parents := by
  rw [attached.parents,mem_orderedInsert]

section
variable (p : ParentRun → Bool) (run : ParentRun) (parents : List ParentRun)

theorem find_orderedInsert_of_false [DecidableRel r] (other : p run = false) :
    (parents.orderedInsert r run).find? p = parents.find? p := by
  induction parents with
  | nil => simp [other]
  | cons head tail ih =>
    rw [orderedInsert_cons]
    split
    · simp [other]
    · simp [find?_cons,ih]

theorem find_orderedInsert_of_true [DecidableRel r] (own : p run = true) (fresh : ∀ other ∈ parents, p other = false) :
    (parents.orderedInsert r run).find? p = some run := by
  induction parents with
  | nil => simp [own]
  | cons head tail ih =>
    rw [orderedInsert_cons]
    split
    · simp [own]
    rw [find?_cons,fresh head (by simp)]
    exact ih fun other member => fresh other (by simp [member])

end

section
variable {run : ParentRun} (attached : Attached d spec run d')
include attached

theorem lookup_attached (parent : ParentId) :
    d'.lookup parent = if parent = spec.parentId then some run else d.lookup parent := by
  unfold lookup
  rw [attached.parents]
  split
  next same =>
    subst same
    exact find_orderedInsert_of_true _ _ _ (by simp [attached.asked]) fun other member => by
      simpa using attached.fresh other member
  next other =>
    exact find_orderedInsert_of_false _ _ _ (by simpa [attached.asked] using Ne.symm other)

theorem progress_attached (parent : ParentId) :
    d'.progress parent = if parent = spec.parentId then some (0,spec.qty) else d.progress parent := by
  change (d'.lookup parent).map _ = if parent = spec.parentId then _ else (d.lookup parent).map _
  rw [lookup_attached attached]
  split
  · rw [Option.map_some,attached.filled,attached.asked]
  · rfl

theorem progress_fresh : d.progress spec.parentId = none := by
  unfold progress
  rw [Option.map_eq_none_iff,find?_eq_none]
  intro other member
  simpa using attached.fresh other member

end

theorem progress_of_mem {run : ParentRun} (member : run ∈ d.parents) :
    ∃ state, d.progress run.spec.parentId = some state := by
  unfold progress
  cases found : d.parents.find? (·.spec.parentId = run.spec.parentId) with
  | none =>
    have absent := find?_eq_none.mp found run member
    simp at absent
  | some => exact ⟨_,rfl⟩

theorem due_slice {symbol : String} {date : Time} {dc : DueChild} (due : dc ∈ (d.onBar symbol date).1) :
    ∃ run ∈ d.parents, live symbol run = true ∧ dc.child ∈ run.due date ∧ dc.child ∈ run.plan ∧
      run.spec.parentId = dc.child.orderId.parent := by
  obtain ⟨run,member,handed⟩ := mem_flatMap.mp due
  obtain ⟨child,planned,rfl⟩ := mem_map.mp handed
  obtain ⟨attached,alive⟩ := mem_filter.mp member
  have slice : child ∈ run.plan := mem_of_mem_drop (takeWhile_subset _ planned)
  exact ⟨run,attached,alive,planned,slice,(run.addressed child slice).2.2.symm⟩

end Dispatcher

theorem whole_sum {qtys : List ℚ} (all : ∀ qty ∈ qtys, Whole qty) : Whole qtys.sum := by
  induction qtys with
  | nil => exact Whole.zero
  | cons qty rest ih =>
    exact (all qty (by simp)).add (ih fun q member => all q (by simp [member]))

theorem allocateQty_whole {total : ℚ} (whole : Whole total) (weights : List ℚ) :
    ∀ qty ∈ allocateQty total weights, Whole qty := by
  have rounded : total = ⌊total⌋ := by
    obtain ⟨n,rfl⟩ := whole
    simp
  unfold allocateQty
  split
  · simp
  · simpa using whole
  · have firsts : ∀ qty ∈ weights.dropLast.map fun weight =>
        if total = ⌊total⌋ then (mathRound (total * weight) : ℚ) else total * weight, Whole qty := by
      intro qty member
      obtain ⟨weight,_,rfl⟩ := mem_map.mp member
      rw [if_pos rounded]
      exact ⟨_,rfl⟩
    intro qty member
    rcases mem_append.mp member with first | last
    · exact firsts qty first
    · rw [mem_singleton.mp last]
      rcases max_choice 0 (total - _) with zero | rest
      · rw [zero]
        exact Whole.zero
      · rw [rest]
        exact whole.sub (whole_sum firsts)

namespace ParentRun

structure Planned (run : ParentRun) : Prop where
  positive : 0 < run.spec.qty
  slices : ∀ child ∈ run.plan, 0 < child.qty
  whole : Whole run.spec.qty → ∀ child ∈ run.plan, Whole child.qty
  balanced : |(run.plan.map (·.qty)).sum - run.spec.qty| ≤ qtySumTolerance run.spec.qty

end ParentRun

variable {spec : AttachSpec}

theorem buildPlan_whole {weights : List ℚ} {times : List Time} (whole : Whole spec.qty) :
    ∀ child ∈ buildPlan spec (allocateQty spec.qty weights) times, Whole child.qty := by
  intro child member
  obtain ⟨i,bound,rfl⟩ := mem_mapIdx.mp member
  exact allocateQty_whole whole weights _ (of_mem_zip (getElem_mem bound)).1

theorem validateParent_ok (valid : validateParent spec = .ok ()) : 0 < spec.qty := by
  unfold validateParent at valid
  iterate 2 (split at valid; · cases valid)
  rename_i positive
  exact not_le.mp positive

theorem schedule_whole {plan : List ChildOrder} (planned : Dispatcher.schedule spec = .ok plan) :
    0 < spec.qty ∧ (Whole spec.qty → ∀ child ∈ plan, Whole child.qty) := by
  unfold Dispatcher.schedule at planned
  split at planned
  · unfold twapSchedule at planned
    split at planned
    · cases planned
    rename_i valid
    cases planned
    exact ⟨validateParent_ok valid,buildPlan_whole⟩
  · unfold vwapSchedule at planned
    split at planned
    · cases planned
    rename_i valid
    cases planned
    exact ⟨validateParent_ok valid,buildPlan_whole⟩
  · cases planned

theorem Dispatcher.Attached.plan {d d' : Dispatcher} {run : ParentRun}
    (attached : Attached d spec run d') : run.Planned := by
  obtain ⟨positive,whole⟩ := schedule_whole attached.planned
  rw [← attached.asked] at positive whole
  exact ⟨positive,attached.slices,whole,attached.asked ▸ attached.balanced⟩

namespace ParentRun

variable {run : ParentRun}

def handedOut (run : ParentRun) : ℚ := ((run.plan.take run.nextIdx).map (·.qty)).sum

def Done (run : ParentRun) : Prop := run.cancelled = true ∨ run.plan.length ≤ run.nextIdx

theorem handedOut_onBar (run : ParentRun) (date : Time) :
    (run.onBar date).handedOut = run.handedOut + ((run.due date).map (·.qty)).sum := by
  have next : run.due date = (run.plan.drop run.nextIdx).take (run.due date).length :=
    prefix_iff_eq_take.mp (List.takeWhile_prefix _)
  change ((run.plan.take (run.nextIdx + (run.due date).length)).map (·.qty)).sum = _
  rw [take_add,map_append,sum_append,← next]
  rfl

theorem due_nil_of_length (all : run.plan.length ≤ run.nextIdx) (date : Time) : run.due date = [] := by
  unfold due
  rw [drop_eq_nil_of_le all,takeWhile_nil]

theorem qtySumTolerance_lt_one {qty : ℚ} (positive : 0 < qty) (bound : qty < 10^9) : qtySumTolerance qty < 1 := by
  have large : max 1 |qty| < 10^9 := by
    rw [abs_of_pos positive]
    exact max_lt (by norm_num) bound
  unfold qtySumTolerance
  linarith

section
variable (planned : run.Planned) (whole : Whole run.spec.qty)
include planned whole

theorem Planned.sum_eq (bound : run.spec.qty < 10^9) : (run.plan.map (·.qty)).sum = run.spec.qty := by
  have slices : ∀ qty ∈ run.plan.map (·.qty), Whole qty := by
    intro qty member
    obtain ⟨child,slice,rfl⟩ := mem_map.mp member
    exact planned.whole whole child slice
  obtain ⟨n,difference⟩ := (whole_sum slices).sub whole
  have small := planned.balanced.trans_lt (qtySumTolerance_lt_one planned.positive bound)
  rw [difference] at small
  have none_ : n = 0 := Int.abs_lt_one_iff.mp (by exact_mod_cast small)
  rw [none_,Int.cast_zero] at difference
  linarith

theorem Planned.one_le_left (open_ : run.nextIdx < run.plan.length) :
    1 ≤ ((run.plan.drop run.nextIdx).map (·.qty)).sum := by
  have one : ∀ child ∈ run.plan, 1 ≤ child.qty := by
    intro child slice
    obtain ⟨n,same⟩ := planned.whole whole child slice
    have positive := planned.slices child slice
    rw [same] at positive ⊢
    have above : (0 : ℤ) < n := by exact_mod_cast positive
    exact_mod_cast above
  cases left : run.plan.drop run.nextIdx with
  | nil => exact absurd (drop_eq_nil_iff.mp left) (not_le.mpr open_)
  | cons child rest =>
    have slices : ∀ other ∈ child :: rest, 1 ≤ other.qty := fun other member =>
      one other (mem_of_mem_drop (left ▸ member))
    have others : 0 ≤ (rest.map (·.qty)).sum := by
      refine sum_nonneg fun qty member => ?_
      obtain ⟨other,slice,rfl⟩ := mem_map.mp member
      exact zero_le_one.trans (slices other (by simp [slice]))
    rw [map_cons,sum_cons]
    linarith [slices child (by simp)]

/-- Below 10^9 whole shares, a parent that `Cancel` takes for finished has handed out its plan. -/
theorem Planned.done (bound : run.spec.qty < 10^9) (within : run.filled ≤ run.handedOut)
    (fixed : ¬ cancellable run = true) : run.Done := by
  by_contra open_
  simp only [Done,not_or,not_le] at open_
  have finished : run.spec.qty - qtySumTolerance run.spec.qty ≤ run.filled := by
    by_contra short
    exact fixed (by simp [cancellable,open_.1,not_le.mp short])
  have left := planned.one_le_left whole open_.2
  have parts : run.handedOut + ((run.plan.drop run.nextIdx).map (·.qty)).sum = run.spec.qty := by
    rw [← planned.sum_eq whole bound,handedOut,← sum_append,← map_append,take_append_drop]
  linarith [qtySumTolerance_lt_one planned.positive bound]

end

end ParentRun
end QuantTrading.ExecAlgo
