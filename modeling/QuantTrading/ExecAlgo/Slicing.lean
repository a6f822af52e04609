import QuantTrading.ExecAlgo.Dispatch
import QuantTrading.ExecAlgo.Runtime

/-! Slicing plans. The slices of a plan are numbered apart and start at equal distances inside the
window. Their quantities are rounded one by one and the last slice takes what is left, so a plan
is complete exactly when the rounding leaves something to every slice.
-/
namespace QuantTrading.ExecAlgo.Runtime
open Library Tracker List

section Quantities
variable {total : ℚ} {weights : List ℚ}

def roundedSlices (total : ℚ) (weights : List ℚ) : List ℚ :=
  weights.dropLast.map fun weight => (mathRound (total * weight) : ℚ)

def LeavesRest (total : ℚ) (weights : List ℚ) : Prop :=
  (∀ qty ∈ roundedSlices total weights, 0 < qty) ∧ (roundedSlices total weights).sum < total

instance (total : ℚ) (weights : List ℚ) : Decidable (LeavesRest total weights) := instDecidableAnd

section
variable (whole : Whole total) (positive : 0 < total) (some_ : weights ≠ [])
include whole positive some_

theorem allocateQty_eq : allocateQty total weights =
      roundedSlices total weights ++ [max 0 (total - (roundedSlices total weights).sum)] := by
  have rounded : total = ⌊total⌋ := by
    obtain ⟨n,rfl⟩ := whole
    simp
  unfold allocateQty roundedSlices
  split
  · exact absurd rfl some_
  · simp [positive.le]
  · simp only [if_pos rounded]

theorem allocateQty_positive_iff : (∀ qty ∈ allocateQty total weights, 0 < qty) ↔ LeavesRest total weights := by
  rw [allocateQty_eq whole positive some_]
  simp only [mem_append,mem_singleton]
  constructor
  · intro shares
    refine ⟨fun qty first => shares qty (.inl first),?_⟩
    rcases lt_max_iff.mp (shares _ (.inr rfl)) with nothing | rest
    · exact absurd nothing (lt_irrefl 0)
    · exact sub_pos.mp rest
  · rintro ⟨shares,rest⟩ qty (first | rfl)
    · exact shares qty first
    · exact lt_max_of_lt_right (sub_pos.mpr rest)

theorem sum_allocateQty (leaves : LeavesRest total weights) : (allocateQty total weights).sum = total := by
  rw [allocateQty_eq whole positive some_,sum_append,sum_singleton,max_eq_right (sub_pos.mpr leaves.2).le]
  ring

end

theorem length_allocateQty (total : ℚ) (weights : List ℚ) : (allocateQty total weights).length = weights.length := by
  unfold allocateQty
  split
  · rfl
  · rfl
  next several _ =>
    cases weights with
    | nil => exact absurd rfl several
    | cons => simp

theorem length_weights (algo : Algo) (n : ℕ) : (algo.weights n).length = n := by
  cases algo with
  | twap => simp [Algo.weights,twapWeights]
  | vwap =>
    simp only [Algo.weights,vwapWeights]
    split
    next fits =>
      rw [length_map,fits.1]
    · simp [twapWeights]

/-- Equal slices are complete as long as all but the last do not use up the quantity. -/
theorem leavesRest_twap_iff {n : ℕ} (some_ : 0 < n) (enough : (n : ℚ) ≤ total) :
    LeavesRest total (twapWeights n) ↔ ((n - 1 : ℕ) : ℚ) * mathRound (total * (1 / n)) < total := by
  have slices : roundedSlices total (twapWeights n) = replicate (n - 1) (mathRound (total * (1 / n)) : ℚ) := by
    simp [roundedSlices,twapWeights]
  have share : 1 ≤ total * (1 / n) := by
    rw [mul_one_div,le_div_iff₀ (by exact_mod_cast some_),one_mul]
    exact enough
  have least : (0 : ℚ) < mathRound (total * (1 / n)) := by
    rw [mathRound,if_neg (by linarith)]
    have : 1 ≤ ⌊total * (1 / n) + 1 / 2⌋ := Int.le_floor.mpr (by push_cast; linarith)
    exact_mod_cast this
  rw [LeavesRest,slices,sum_replicate]
  refine and_iff_right_of_imp fun _ qty listed => ?_
  rw [eq_of_mem_replicate listed]
  exact least

end Quantities

section Plans
variable {parent : ParentOrder}

theorem asked_pos (algo : Algo) (window : Int) : 0 < algo.asked window := by
  have derived : 0 < deriveSlices window := by
    unfold deriveSlices
    split
    · exact one_pos
    · exact lt_max_of_lt_left one_pos
  cases algo with
  | twap slices =>
    simp only [Algo.asked]
    split
    · exact derived
    rename_i given
    exact not_le.mp given
  | vwap =>
    simp only [Algo.asked]
    split
    · split
      next some_ =>
        exact Int.natCast_pos.mpr (length_pos_iff.mpr some_)
      · exact derived
    next given =>
      exact not_le.mp given

theorem slices_pos (algo : Algo) (parent : ParentOrder) : 0 < algo.slices parent := by
  unfold Algo.slices effectiveSlices
  rw [Int.lt_toNat]
  split
  next cut =>
    exact Int.le_floor.mpr (by exact_mod_cast cut.2.1)
  · exact asked_pos algo _

theorem splitWindow_eq (startAt endAt : Time) (n : ℕ) :
    splitWindow startAt endAt n = (range n).map fun i : ℕ => startAt + (i : Int) * ((endAt - startAt) / n) := by
  simp [splitWindow,← map_eq_flatMap,Function.comp_def]

theorem getElem?_splitWindow {startAt endAt : Time} {n i : ℕ} {time : Time}
    (found : (splitWindow startAt endAt n)[i]? = some time) : i < n ∧ time = startAt + i * ((endAt - startAt) / n) := by
  rw [splitWindow_eq,getElem?_map,map_eq_some_iff] at found
  obtain ⟨index,listed,rfl⟩ := found
  obtain ⟨bound,rfl⟩ := List.getElem?_eq_some_iff.mp listed
  rw [getElem_range]
  exact ⟨by simpa using bound,rfl⟩

theorem sliceStart_lt {startAt endAt : Time} {n i : ℕ} (window : startAt < endAt) (bound : i < n) :
    startAt + i * ((endAt - startAt) / n) < endAt := by
  have width : 0 < endAt - startAt := sub_pos.mpr window
  have whole : (n : Int) * ((endAt - startAt) / n) ≤ endAt - startAt :=
    Int.mul_ediv_self_le (by omega)
  have step : 0 ≤ (endAt - startAt) / (n : Int) := Int.ediv_nonneg width.le (by omega)
  rcases eq_or_lt_of_le step with none_ | some_
  · rw [← none_,mul_zero,add_zero]
    exact window
  · have less : (i : Int) * ((endAt - startAt) / n) < n * ((endAt - startAt) / n) :=
      mul_lt_mul_of_pos_right (by exact_mod_cast bound) some_
    exact lt_sub_iff_add_lt'.mp (less.trans_le whole)

variable {qtys : List ℚ} {times : List Time}

theorem getElem?_buildPlan {i : ℕ} {child : ChildOrder}
    (found : (buildPlan parent qtys times)[i]? = some child) :
    child.orderId = childOrderID parent.orderId i ∧ child.parentId = parent.orderId ∧ child.symbol = parent.symbol ∧
      times[i]? = some child.submitAt := by
  rw [buildPlan,getElem?_mapIdx,map_eq_some_iff] at found
  obtain ⟨slice,zipped,rfl⟩ := found
  exact ⟨rfl,rfl,rfl,(getElem?_zip_eq_some.mp zipped).2⟩

theorem buildPlan_qtys (same : qtys.length = times.length) : (buildPlan parent qtys times).map (·.qty) = qtys := by
  apply ext_getElem
  · simp [buildPlan,same]
  · intro i _ _
    simp [buildPlan]

structure Sliced (algo : Algo) (parent : ParentOrder) (plan : List ChildOrder) : Prop where
  window : parent.startAt < parent.endAt
  positive : 0 < parent.qty
  length : plan.length = algo.slices parent
  numbered : ∀ (i : ℕ) (child : ChildOrder), plan[i]? = some child →
    child.orderId = childOrderID parent.orderId i ∧ child.parentId = parent.orderId ∧ child.symbol = parent.symbol
  spaced : ∀ (i : ℕ) (child : ChildOrder), plan[i]? = some child →
    child.submitAt = parent.startAt + i * ((parent.endAt - parent.startAt) / algo.slices parent)
  qtys : plan.map (·.qty) = allocateQty parent.qty (algo.weights (algo.slices parent))

theorem validateParent_ok (valid : validateParent parent = .ok ()) : 0 < parent.qty ∧ parent.startAt < parent.endAt := by
  unfold validateParent at valid
  iterate 2 (split at valid; · cases valid)
  rename_i positive
  split at valid
  · cases valid
  rename_i window
  exact ⟨not_le.mp positive,not_not.mp window⟩

theorem schedule_sliced {algo : Algo} {plan : List ChildOrder} (scheduled : algo.schedule parent = .ok plan) :
    Sliced algo parent plan := by
  unfold Algo.schedule at scheduled
  split at scheduled
  · cases scheduled
  rename_i valid
  cases scheduled
  obtain ⟨positive,window⟩ := validateParent_ok valid
  have even : (allocateQty parent.qty (algo.weights (algo.slices parent))).length =
      (splitWindow parent.startAt parent.endAt (algo.slices parent)).length := by
    rw [length_allocateQty,length_weights,splitWindow_eq,length_map,length_range]
  refine ⟨window,positive,?_,?_,?_,buildPlan_qtys even⟩
  · rw [buildPlan,length_mapIdx,length_zip,← even,min_self,length_allocateQty,length_weights]
  · intro i child found
    obtain ⟨number,own,symbol,-⟩ := getElem?_buildPlan found
    exact ⟨number,own,symbol⟩
  · intro i child found
    exact (getElem?_splitWindow (getElem?_buildPlan found).2.2.2).2

namespace Sliced
variable {algo : Algo} {plan : List ChildOrder}

section
variable (sliced : Sliced algo parent plan)
include sliced

theorem nodup : (plan.map (·.orderId)).Nodup := by
  rw [Nodup,pairwise_map,pairwise_iff_getElem]
  intro i j hi hj before same
  rw [(sliced.numbered i _ (getElem?_eq_getElem hi)).1,(sliced.numbered j _ (getElem?_eq_getElem hj)).1] at same
  exact before.ne (childOrderID_injective same).2

theorem ordered : plan.Pairwise fun a b => a.submitAt ≤ b.submitAt := by
  rw [pairwise_iff_getElem]
  intro i j hi hj before
  rw [sliced.spaced i _ (getElem?_eq_getElem hi),sliced.spaced j _ (getElem?_eq_getElem hj)]
  have width : 0 ≤ parent.endAt - parent.startAt := (sub_pos.mpr sliced.window).le
  have step : 0 ≤ (parent.endAt - parent.startAt) / (algo.slices parent : Int) :=
    Int.ediv_nonneg width (Int.natCast_nonneg _)
  exact add_le_add_right (mul_le_mul_of_nonneg_right (by exact_mod_cast before.le) step) _

theorem before_end {child : ChildOrder} (member : child ∈ plan) : child.submitAt < parent.endAt := by
  obtain ⟨i,bound,rfl⟩ := mem_iff_getElem.mp member
  rw [sliced.spaced i _ (getElem?_eq_getElem bound)]
  exact sliceStart_lt sliced.window (sliced.length ▸ bound)

theorem nonempty : plan ≠ [] := by
  rw [← length_pos_iff,sliced.length]
  exact slices_pos algo parent

end

theorem weights_ne_nil (algo : Algo) (parent : ParentOrder) : algo.weights (algo.slices parent) ≠ [] := by
  rw [← length_pos_iff,length_weights]
  exact slices_pos algo parent

section
variable (sliced : Sliced algo parent plan) (whole : Whole parent.qty)
include sliced whole

theorem positive_iff : (∀ child ∈ plan, 0 < child.qty) ↔ LeavesRest parent.qty (algo.weights (algo.slices parent)) := by
  rw [← allocateQty_positive_iff whole sliced.positive (weights_ne_nil algo parent),← sliced.qtys]
  simp only [mem_map,forall_exists_index,and_imp,forall_apply_eq_imp_iff₂]

theorem sum_qtys (leaves : LeavesRest parent.qty (algo.weights (algo.slices parent))) :
    (plan.map (·.qty)).sum = parent.qty := by
  rw [sliced.qtys]
  exact sum_allocateQty whole sliced.positive (weights_ne_nil algo parent) leaves

end

end Sliced

end Plans

def RejectedForQuantities : Except AttachError (List ChildOrder) → Prop
  | .error (.nonPositiveSlice _) => True
  | .error (.qtySumMismatch _ _) => True
  | _ => False

namespace Dispatcher
variable {d : Dispatcher} {spec : AttachSpec} {algo : Algo} {plan : List ChildOrder}

section
variable (named : spec.parentId ≠ "") (chosen : algoFor spec = some algo)
  (scheduled : algo.schedule (parentOf spec) = .ok plan)
include named chosen scheduled

theorem planFor_small {slice : ℕ} (small : plan.findIdx? (·.qty ≤ 0) = some slice) :
    planFor spec = .error (.nonPositiveSlice slice) := by
  simp only [planFor,named,if_false,chosen,scheduled,(schedule_sliced scheduled).nonempty,small]

theorem planFor_positive (all : plan.findIdx? (·.qty ≤ 0) = none) : planFor spec = .ok plan := by
  simp only [planFor,named,if_false,chosen,scheduled,(schedule_sliced scheduled).nonempty,all]

theorem attach_rejected_iff (whole : Whole spec.qty) :
    RejectedForQuantities (d.attach spec).1 ↔ ¬ LeavesRest spec.qty (algo.weights (algo.slices (parentOf spec))) := by
  have sliced := schedule_sliced scheduled
  have positive := sliced.positive_iff whole
  unfold attach
  cases small : plan.findIdx? (·.qty ≤ 0) with
  | some =>
    rw [planFor_small named chosen scheduled small]
    refine iff_of_true trivial fun leaves => ?_
    obtain ⟨bound,low,-⟩ := findIdx?_eq_some_iff_getElem.mp small
    exact not_lt.mpr (of_decide_eq_true low) (positive.mpr leaves _ (getElem_mem bound))
  | none =>
    have all : ∀ child ∈ plan, 0 < child.qty := by
      intro child member
      have above := findIdx?_eq_none_iff.mp small child member
      simpa using above
    have leaves := positive.mp all
    have exact_ : (plan.map (·.qty)).sum = spec.qty := sliced.sum_qtys whole leaves
    refine iff_of_false ?_ (not_not.mpr leaves)
    rw [planFor_positive named chosen scheduled small]
    dsimp only
    iterate 2 (split; · exact id)
    rw [exact_,sub_self,abs_zero,if_neg]
    · exact id
    · exact not_lt.mpr (mul_nonneg (by norm_num) (le_max_of_le_left zero_le_one))

end

end Dispatcher

/-- Every plan of a valid parent is numbered apart, starts with the window, stays before its end
and is evenly spaced. Its quantities are positive and sum to the parent's exactly when rounding
leaves every slice a share, and only otherwise attaching fails for them. -/
theorem schedule_complete_iff (algo : Algo) (parent : ParentOrder) (named : parent.symbol ≠ "")
    (positive : 0 < parent.qty) (whole : Whole parent.qty) (window : parent.startAt < parent.endAt) :
    (∃ plan, algo.schedule parent = .ok plan ∧ plan ≠ [] ∧ (plan.map (·.orderId)).Nodup ∧
      (plan.head?.map (·.submitAt) = some parent.startAt ∧ (∀ child ∈ plan, child.submitAt < parent.endAt) ∧
        ∃ step : Int, ∀ (i : ℕ) (child : ChildOrder), plan[i]? = some child → child.submitAt = parent.startAt + i * step) ∧
      (((∀ child ∈ plan, 0 < child.qty) ∧ (plan.map (·.qty)).sum = parent.qty) ↔
        LeavesRest parent.qty (algo.weights (algo.slices parent)))) ∧
    ∀ (d : Dispatcher) (spec : AttachSpec), spec.parentId ≠ "" → Dispatcher.parentOf spec = parent →
      Dispatcher.algoFor spec = some algo →
      (RejectedForQuantities (d.attach spec).1 ↔ ¬ LeavesRest parent.qty (algo.weights (algo.slices parent))) := by
  have valid : validateParent parent = .ok () := by
    rw [validateParent,if_neg named,if_neg (not_le.mpr positive),if_neg (not_not.mpr window)]
  obtain ⟨plan,scheduled⟩ : ∃ plan, algo.schedule parent = .ok plan := by
    unfold Algo.schedule
    rw [valid]
    exact ⟨_,rfl⟩
  have sliced := schedule_sliced scheduled
  refine ⟨⟨plan,scheduled,sliced.nonempty,sliced.nodup,⟨?_,?_,_,sliced.spaced⟩,?_⟩,?_⟩
  · cases first : plan.head? with
    | none => exact absurd (head?_eq_none_iff.mp first) sliced.nonempty
    | some child =>
      have start := sliced.spaced 0 child (head?_eq_getElem?.symm.trans first)
      rw [map_some,start,Nat.cast_zero,zero_mul,add_zero]
  · intro child member
    exact sliced.before_end member
  · refine ⟨fun complete => (sliced.positive_iff whole).mp complete.1,fun leaves => ?_⟩
    exact ⟨(sliced.positive_iff whole).mpr leaves,sliced.sum_qtys whole leaves⟩
  · rintro d spec numbered rfl chosen
    exact Dispatcher.attach_rejected_iff numbered chosen scheduled whole

section Runs

def windowParent (qty : ℚ) : ParentOrder :=
  ⟨"P1","","600000.SH",.long,qty,0,.twap,Time.date 2024 1 2,Time.date 2024 1 6⟩

def windowSpec (qty : ℚ) (style : ExecStyle) (slices : Int) (profile : List ℚ) : AttachSpec :=
  ⟨"P1","","600000.SH",.long,qty,0,style,slices,profile,.market,Time.date 2024 1 2,Time.date 2024 1 6⟩

/-- A hundred shares over four days. -/
theorem hundredByFour_complete : ∃ plan, (Algo.twap 4).schedule (windowParent 100) = .ok plan ∧
      (∀ child ∈ plan, 0 < child.qty) ∧ (plan.map (·.qty)).sum = 100 := by
  obtain ⟨⟨plan,scheduled,-,-,-,complete⟩,-⟩ := schedule_complete_iff (.twap 4) (windowParent 100) (by decide)
    (by decide +kernel) ⟨100,by norm_num [windowParent]⟩ (by decide)
  have slices : (Algo.twap 4).slices (windowParent 100) = 4 := by decide +kernel
  rw [slices] at complete
  refine ⟨plan,scheduled,complete.mpr ((leavesRest_twap_iff (by norm_num) ?_).mpr ?_)⟩
  · norm_num [windowParent]
  · decide +kernel

/-- Six shares over four days are cut into three times two and nothing, and a profile with an empty
day gives that day nothing: neither is attached. -/
theorem sixByFour_refused :
    ((Algo.twap 4).schedule (windowParent 6)).toOption.map (·.map (·.qty)) = some [2,2,2,0] ∧
      (Dispatcher.newDispatcher.attach (windowSpec 6 .twap 4 [])).1 = .error (.nonPositiveSlice 3) ∧
      ((Algo.twap 7).schedule (windowParent 11)).toOption.map (fun plan => (plan.map (·.qty)).sum) = some 12 ∧
      (Dispatcher.newDispatcher.attach (windowSpec 100 .vwap 3 [1,0,1])).1 = .error (.nonPositiveSlice 1) := by
  refine ⟨?_,?_,?_,?_⟩
  all_goals decide +kernel

end Runs

end QuantTrading.ExecAlgo.Runtime
