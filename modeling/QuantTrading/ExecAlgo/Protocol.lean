import QuantTrading.ExecAlgo.Slicing
import QuantTrading.Library.Traces

/-! The dispatcher over whole histories of calls. What a parent has handed out is always the front
of its plan, up to the place its cursor has reached; bars move the cursors, and a cancelled
parent's cursor stands.
-/
namespace QuantTrading.ExecAlgo.Runtime
open Library Tracker List

inductive Op where
  | attach (spec : AttachSpec)
  | onBar (symbol : String) (date : Time)
  | onFill (orderId : String) (qty : ℚ)
  | cancel (parentID reason : String)
  | cancelSymbol (symbol reason : String)

inductive Reply where
  | attached (result : Except AttachError (List ChildOrder))
  | due (children : List DueChild) (failed : List String)
  | filled (result : Except FillError Unit)
  | cancelled (progress : Option ParentProgress)
  | cancelledAll (progress : List ParentProgress)

/-- The replies that report an error or `false`. -/
def Reply.Failed : Reply → Prop
  | .attached (.error _) => True
  | .due _ failed => failed ≠ []
  | .filled (.error _) => True
  | .cancelled none => True
  | _ => False

/-- The replies that name the parent as cancelled by the call. -/
def Reply.Stops (parent : String) : Reply → Prop
  | .cancelled (some progress) => progress.parentId = parent
  | .cancelledAll all => ∃ progress ∈ all, progress.parentId = parent
  | _ => False

/-- The calls that are to cancel the parent. -/
def Op.Addresses (parent : String) (run : ParentRun) : Op → Prop
  | .cancel parentID _ => parentID = parent
  | .cancelSymbol symbol _ => run.spec.symbol = symbol
  | _ => False

def Op.Drops (op : Op) (parent : String) (run : ParentRun) : Prop := op.Addresses parent run ∧ cancellable run = true

namespace Dispatcher

def call (d : Dispatcher) : Op → Reply × Dispatcher
  | .attach spec => (.attached (d.attach spec).1,(d.attach spec).2)
  | .onBar symbol date => (.due (d.onBar symbol date).1.1 (d.onBar symbol date).1.2,(d.onBar symbol date).2)
  | .onFill orderId qty => (.filled (d.onFill orderId qty).1,(d.onFill orderId qty).2)
  | .cancel parentID reason => (.cancelled (d.cancel parentID reason).1,(d.cancel parentID reason).2)
  | .cancelSymbol symbol reason => (.cancelledAll (d.cancelSymbol symbol reason).1,(d.cancelSymbol symbol reason).2)

def step (d : Dispatcher) (op : Op) : Dispatcher := (d.call op).2

end Dispatcher

structure Emission where
  symbol : String
  date : Time
  child : ChildOrder
deriving DecidableEq

def emitted (d : Dispatcher) : Op → List Emission
  | .onBar symbol date => (d.onBar symbol date).1.1.map fun due => ⟨symbol,date,due.child⟩
  | _ => []

structure Logged where
  dispatcher : Dispatcher
  log : List Emission

def Logged.step (s : Logged) (op : Op) : Logged := ⟨s.dispatcher.step op,s.log ++ emitted s.dispatcher op⟩

def Logged.fresh : Logged := ⟨.newDispatcher,[]⟩

def Logged.handedOut (s : Logged) (parent : String) : List ChildOrder :=
  (s.log.filter (·.child.parentId = parent)).map (·.child)

structure Sound (parent : String) (run : ParentRun) : Prop where
  named : parent ≠ ""
  keyed : run.spec.parentId = parent
  planned : ∃ algo, Sliced algo (Dispatcher.parentOf run.spec) run.plan
  scheduled : run.algo.parentId = parent
  same : run.algo.plan = run.plan
  drained : run.algo.due = []
  within : run.filled ≤ run.spec.qty + qtySumTolerance run.spec.qty

/-- What a call leaves of a parent: its order and plan, more filled than before, the cursor moved by
what was handed out, and cancelled if it was or is now dropped. -/
structure Evolves (handed : List ChildOrder) (dropped : Prop) (run after : ParentRun) : Prop where
  spec : after.spec = run.spec
  plan : after.plan = run.plan
  state : after.algo = { run.algo with nextIdx := run.algo.nextIdx + handed.length }
  cancelled : after.cancelled = true ↔ run.cancelled = true ∨ dropped
  filled : run.filled ≤ after.filled
  within : run.filled ≤ run.spec.qty + qtySumTolerance run.spec.qty →
    after.filled ≤ run.spec.qty + qtySumTolerance run.spec.qty

namespace ParentRun
variable {run : ParentRun} {parent symbol : String} {date : Time}

def arrivals (run : ParentRun) (symbol : String) (date : Time) : List ChildOrder :=
  if run.cancelled = true ∨ run.spec.symbol ≠ symbol then [] else run.algo.arrived date

section
variable (sound : Sound parent run) (symbol : String) (date : Time)
include sound

/-- A bar hands out the slices that have come due, and fails for no parent that was attached. -/
theorem onBar_eq : run.onBar symbol date =
      ((run.arrivals symbol date).map fun child => ⟨child,run.spec.orderType⟩,false,
        { run with
          algo := { run.algo with nextIdx := run.algo.nextIdx + (run.arrivals symbol date).length }
          submitted := run.submitted + ((run.arrivals symbol date).map (·.qty)).sum }) := by
  have named : run.algo.parentId ≠ "" := sound.scheduled ▸ sound.named
  unfold onBar arrivals
  by_cases stopped : run.cancelled = true
  · rw [if_pos stopped,if_pos (.inl stopped)]
    simp only [map_nil,length_nil,sum_nil,add_zero]
  · by_cases other : run.spec.symbol = symbol
    · simp [stopped,other,PlanState.onBar,named,PlanState.dueChildOrders,sound.drained]
    · rw [if_neg stopped,if_pos other,if_pos (.inr other)]
      simp only [map_nil,length_nil,sum_nil,add_zero]

theorem onBar_evolves {dropped : Prop} (stays : ¬ dropped) :
    Evolves (run.arrivals symbol date) dropped run (run.onBar symbol date).2.2 := by
  rw [onBar_eq sound]
  exact ⟨rfl,rfl,rfl,(or_iff_left stays).symm,le_rfl,id⟩

end

theorem arrivals_front (run : ParentRun) (symbol : String) (date : Time) :
    run.arrivals symbol date <+: run.algo.plan.drop run.algo.nextIdx := by
  unfold arrivals
  split
  · exact nil_prefix
  · exact takeWhile_prefix _

theorem arrivals_timely {child : ChildOrder} (handed : child ∈ run.arrivals symbol date) :
    run.cancelled = false ∧ run.spec.symbol = symbol ∧ child.submitAt ≤ date := by
  unfold arrivals at handed
  split at handed
  · cases handed
  rename_i live
  have due := mem_takeWhile_imp handed
  simp only [not_or,not_not,Bool.not_eq_true] at live
  exact ⟨live.1,live.2,of_decide_eq_true due⟩

end ParentRun

variable {parent : String} {dropped : Prop}

theorem Evolves.refl (run : ParentRun) (stays : ¬ dropped) : Evolves [] dropped run run :=
  ⟨rfl,rfl,rfl,(or_iff_left stays).symm,le_rfl,id⟩

theorem Evolves.sound {children : List ChildOrder} {run after : ParentRun}
    (evolves : Evolves children dropped run after) (sound : Sound parent run) : Sound parent after := by
  refine ⟨sound.named,?_,?_,?_,?_,?_,?_⟩
  · rw [evolves.spec]
    exact sound.keyed
  · rw [evolves.spec,evolves.plan]
    exact sound.planned
  · rw [evolves.state]
    exact sound.scheduled
  · rw [evolves.state,evolves.plan]
    exact sound.same
  · rw [evolves.state]
    exact sound.drained
  · rw [evolves.spec]
    exact evolves.within sound.within

theorem ParentRun.cancel_evolves (run : ParentRun) (reason : String) (drops : dropped) :
    Evolves [] dropped run (run.cancel reason) :=
  ⟨rfl,rfl,rfl,iff_of_true rfl (.inr drops),le_rfl,id⟩

def Op.Fair : Op → Prop
  | .onFill _ qty => 0 ≤ qty
  | _ => True

def handed (op : Op) (run : ParentRun) : List ChildOrder :=
  match op with
  | .onBar symbol date => run.arrivals symbol date
  | _ => []

structure Started (parent : String) (run : ParentRun) : Prop where
  sound : Sound parent run
  nextIdx : run.algo.nextIdx = 0
  live : run.cancelled = false

namespace Dispatcher
variable {d : Dispatcher} {op : Op} {parent : String} {run : ParentRun}

theorem planFor_ok {spec : AttachSpec} {plan : List ChildOrder} (planned : planFor spec = .ok plan) :
    spec.parentId ≠ "" ∧ ∃ algo, Sliced algo (parentOf spec) plan := by
  unfold planFor at planned
  split at planned
  · cases planned
  rename_i named
  iterate 2 (split at planned; · cases planned)
  rename_i scheduled
  iterate 2 (split at planned; · cases planned)
  cases planned
  exact ⟨named,_,schedule_sliced scheduled⟩

theorem tolerance_nonneg (qty : ℚ) : 0 ≤ qtySumTolerance qty := mul_nonneg (by norm_num) (le_max_of_le_left zero_le_one)

/-- Attaching fails and changes nothing, or starts one parent under a new number. -/
theorem attach_cases (d : Dispatcher) (spec : AttachSpec) : (∃ e, d.attach spec = (.error e,d)) ∨
      ∃ plan run, (d.attach spec).1 = .ok plan ∧ (d.attach spec).2.parents = d.parents.put spec.parentId (some run) ∧
        d.parents[spec.parentId]? = none ∧ run.spec = spec ∧ run.plan = plan ∧ Started spec.parentId run := by
  unfold attach
  split
  · exact .inl ⟨_,rfl⟩
  rename_i plan planned
  split
  · exact .inl ⟨_,rfl⟩
  rename_i unknown
  split
  · exact .inl ⟨_,rfl⟩
  dsimp only
  split
  · exact .inl ⟨_,rfl⟩
  obtain ⟨named,algo,sliced⟩ := planFor_ok planned
  refine .inr ⟨plan,_,rfl,rfl,?_,rfl,rfl,⟨named,rfl,⟨algo,sliced⟩,rfl,rfl,rfl,?_⟩,rfl,rfl⟩
  · exact Std.ExtTreeMap.getElem?_eq_none unknown
  · exact add_nonneg sliced.positive.le (tolerance_nonneg _)

/-- What a call makes of the entry of a parent. -/
inductive Entry (op : Op) (parent : String) : Option ParentRun → Option ParentRun → Prop
  | kept (entry) (idle : ∀ run ∈ entry, handed op run = [] ∧ ¬ op.Drops parent run) : Entry op parent entry entry
  | evolved (before after) (evolves : Evolves (handed op before) (op.Drops parent before) before after) :
    Entry op parent (some before) (some after)
  | started (first) (begun : Started parent first) : Entry op parent none (some first)

section
variable (sound : d.parents.All Sound)
include sound

theorem step_entry (fair : op.Fair) (parent : String) : Entry op parent d.parents[parent]? (d.step op).parents[parent]? := by
  cases op with
  | attach spec =>
    rcases attach_cases d spec with ⟨e,refused⟩ | ⟨plan,run,-,parents,free,-,-,begun⟩
    · rw [step,call,refused]
      exact .kept _ fun _ _ => ⟨rfl,And.left⟩
    · rw [step,call,parents,Book.get_put]
      split
      next same =>
        subst same
        rw [free]
        exact .started run begun
      · exact .kept _ fun _ _ => ⟨rfl,And.left⟩
  | onBar symbol date =>
    simp only [step,call,onBar]
    rw [Book.get_map]
    cases found : d.parents[parent]? with
    | none => exact .kept none (by simp)
    | some run => exact .evolved run _ (ParentRun.onBar_evolves (sound parent run found) symbol date And.left)
  | onFill orderId qty =>
    simp only [step,call,onFill]
    iterate 2 (split; · exact .kept _ fun _ _ => ⟨rfl,And.left⟩)
    rename_i run held
    split
    · exact .kept _ fun _ _ => ⟨rfl,And.left⟩
    rename_i room
    rw [Book.get_insert]
    split
    next same =>
      subst same
      rw [held]
      refine .evolved run _ ⟨rfl,rfl,rfl,(or_iff_left And.left).symm,?_,?_⟩
      · exact le_add_of_nonneg_right fair
      · exact fun _ => sub_le_iff_le_add'.mp (not_lt.mp room)
    · exact .kept _ fun _ _ => ⟨rfl,And.left⟩
  | cancel parentID reason =>
    simp only [step,call,cancel]
    split
    next missing =>
      refine .kept _ fun run found => ⟨rfl,?_⟩
      rintro ⟨rfl,-⟩
      rw [missing] at found
      cases found
    next run held =>
    split
    next left =>
      rw [Book.get_insert]
      split
      next same =>
        subst same
        rw [held]
        exact .evolved run _ (run.cancel_evolves reason ⟨rfl,left⟩)
      next other => exact .kept _ fun _ _ => ⟨rfl,fun drops => other drops.1⟩
    next finished =>
      refine .kept _ fun other found => ⟨rfl,?_⟩
      rintro ⟨rfl,left⟩
      rw [held] at found
      cases found
      exact finished left
  | cancelSymbol symbol reason =>
    simp only [step,call,cancelSymbol]
    rw [Book.get_map]
    cases d.parents[parent]? with
    | none => exact .kept none (by simp)
    | some run =>
      refine .evolved run _ ?_
      dsimp only
      split
      next hit =>
        have drops : run.spec.symbol = symbol ∧ cancellable run = true := of_decide_eq_true hit
        exact run.cancel_evolves reason drops
      next missed => exact .refl run fun ⟨same,left⟩ => missed (decide_eq_true ⟨same,left⟩)

theorem step_run (fair : op.Fair) (found : d.parents[parent]? = some run) :
    ∃ after, (d.step op).parents[parent]? = some after ∧ Evolves (handed op run) (op.Drops parent run) run after := by
  have entry := step_entry sound fair parent
  rw [found] at entry
  generalize (d.step op).parents[parent]? = last at entry
  cases entry with
  | kept _ idle =>
    obtain ⟨nothing,stays⟩ := idle run rfl
    exact ⟨run,rfl,nothing ▸ .refl run stays⟩
  | evolved _ after evolves => exact ⟨after,rfl,evolves⟩

theorem step_new (fair : op.Fair) (missing : d.parents[parent]? = none)
    (found : (d.step op).parents[parent]? = some run) : Started parent run := by
  have entry := step_entry sound fair parent
  rw [missing,found] at entry
  cases entry with
  | started _ begun => exact begun

end

/-- A reply names exactly the parents that the call drops. -/
theorem stops_iff : (d.call op).1.Stops parent ↔ ∃ run, d.parents[parent]? = some run ∧ op.Drops parent run := by
  cases op with
  | cancel parentID reason =>
    simp only [call,cancel,Op.Drops,Op.Addresses]
    split
    next missing =>
      refine iff_of_false id ?_
      rintro ⟨run,found,rfl,-⟩
      cases missing.symm.trans found
    next run held =>
    split
    next left =>
      constructor
      · rintro rfl
        exact ⟨run,held,rfl,left⟩
      · exact fun ⟨_,_,same,_⟩ => same
    next finished =>
      refine iff_of_false id ?_
      rintro ⟨other,found,rfl,left⟩
      cases held.symm.trans found
      exact finished left
  | cancelSymbol symbol reason =>
    simp only [call,cancelSymbol,Reply.Stops,mem_map,mem_filter,decide_eq_true_eq]
    constructor
    · rintro ⟨_,⟨entry,⟨listed,drops⟩,rfl⟩,rfl⟩
      exact ⟨entry.2,mem_toList_iff_getElem?_eq_some.mp listed,drops⟩
    · rintro ⟨run,found,drops⟩
      exact ⟨_,⟨(parent,run),⟨mem_toList_iff_getElem?_eq_some.mpr found,drops⟩,rfl⟩,rfl⟩
  | _ =>
    refine iff_of_false id ?_
    rintro ⟨run,-,drops⟩
    exact drops.1

end Dispatcher

variable {child : ChildOrder} {d : Dispatcher} {s : Logged} {op : Op}

theorem Sound.mem_plan {run : ParentRun} (sound : Sound parent run)
    (member : child ∈ run.plan) : child.parentId = parent ∧ child.symbol = run.spec.symbol := by
  obtain ⟨algo,sliced⟩ := sound.planned
  obtain ⟨i,bound,rfl⟩ := mem_iff_getElem.mp member
  obtain ⟨-,own,symbol⟩ := sliced.numbered i _ (getElem?_eq_getElem bound)
  exact ⟨own.trans sound.keyed,symbol⟩

theorem Sound.mem_handed {run : ParentRun} (sound : Sound parent run) (op : Op)
    (member : child ∈ handed op run) : child ∈ run.plan := by
  cases op with
  | onBar symbol date =>
    have planned := (run.arrivals_front symbol date).subset member
    rw [sound.same] at planned
    exact mem_of_mem_drop planned
  | _ => cases member

theorem emitted_filter (sound : d.parents.All Sound) (op : Op) (parent : String) :
    ((emitted d op).filter (·.child.parentId = parent)).map (·.child) =
      ((d.parents[parent]?).map (handed op)).getD [] := by
  cases op with
  | onBar symbol date =>
    let f (_ : String) (run : ParentRun) : List Emission := (run.onBar symbol date).1.map fun due => ⟨symbol,date,due.child⟩
    have owned : d.parents.All fun key run => ∀ e ∈ f key run, e.child.parentId = key := by
      intro key run found e member
      have runs := sound key run found
      simp only [f,ParentRun.onBar_eq runs,map_map] at member
      obtain ⟨child,brought,rfl⟩ := mem_map.mp member
      exact (runs.mem_plan (runs.mem_handed (.onBar symbol date) brought)).1
    have all : emitted d (.onBar symbol date) = d.parents.toList.flatMap fun entry => f entry.1 entry.2 := by
      simp only [emitted,Dispatcher.onBar,map_flatMap,f]
    rw [all,Book.filter_flatMap_toList owned]
    cases found : d.parents[parent]? with
    | none => rfl
    | some run =>
      simp [f,ParentRun.onBar_eq (sound parent run found),handed,Function.comp_def]
  | _ => cases d.parents[parent]? <;> rfl

structure Consistent (s : Logged) : Prop where
  sound : s.dispatcher.parents.All Sound
  timely : ∀ e ∈ s.log, e.child.symbol = e.symbol ∧ e.child.submitAt ≤ e.date
  attached : ∀ e ∈ s.log, ∃ run, s.dispatcher.parents[e.child.parentId]? = some run
  front : ∀ parent run, s.dispatcher.parents[parent]? = some run →
    s.handedOut parent = run.plan.take run.algo.nextIdx

theorem consistent_fresh : Consistent Logged.fresh := by
  refine ⟨Book.all_empty _,?_,?_,?_⟩
  · intro e member
    cases member
  · intro e member
    cases member
  · intro parent run found
    simp [Logged.fresh,Dispatcher.newDispatcher] at found

theorem handedOut_step (sound : s.dispatcher.parents.All Sound) (op : Op) (parent : String) :
    (s.step op).handedOut parent =
      s.handedOut parent ++ ((s.dispatcher.parents[parent]?).map (handed op)).getD [] := by
  rw [← emitted_filter sound op parent]
  simp only [Logged.handedOut,Logged.step,filter_append,map_append]

theorem take_handed {run : ParentRun} (sound : Sound parent run) (op : Op) :
    run.plan.take run.algo.nextIdx ++ handed op run = run.plan.take (run.algo.nextIdx + (handed op run).length) := by
  cases op with
  | onBar symbol date =>
    have front := prefix_iff_eq_take.mp (run.arrivals_front symbol date)
    rw [sound.same] at front
    rw [take_add]
    exact congrArg _ front
  | _ => simp [handed]

theorem mem_emitted (sound : d.parents.All Sound) {e : Emission} (member : e ∈ emitted d op) :
    e.child.symbol = e.symbol ∧ e.child.submitAt ≤ e.date ∧
      ∃ run, d.parents[e.child.parentId]? = some run ∧ run.cancelled = false := by
  cases op with
  | onBar symbol date =>
    obtain ⟨due,handedOver,rfl⟩ := mem_map.mp member
    obtain ⟨⟨parent,run⟩,listed,brought⟩ := mem_flatMap.mp handedOver
    have found := mem_toList_iff_getElem?_eq_some.mp listed
    have runs := sound parent run found
    rw [ParentRun.onBar_eq runs] at brought
    obtain ⟨child,arrived,rfl⟩ := mem_map.mp brought
    obtain ⟨own,symbolOf⟩ := runs.mem_plan (runs.mem_handed (.onBar symbol date) arrived)
    obtain ⟨live,same,due⟩ := ParentRun.arrivals_timely arrived
    exact ⟨symbolOf.trans same,due,run,by rw [own]; exact found,live⟩
  | _ => cases member

theorem Consistent.nothing (consistent : Consistent s)
    (missing : s.dispatcher.parents[parent]? = none) : s.handedOut parent = [] := by
  rw [Logged.handedOut,map_eq_nil_iff,filter_eq_nil_iff]
  intro e member same
  obtain ⟨run,present⟩ := consistent.attached e member
  rw [of_decide_eq_true same,missing] at present
  cases present

theorem Consistent.step (consistent : Consistent s) (fair : op.Fair) : Consistent (s.step op) := by
  have runs {parent : String} {run : ParentRun} (found : s.dispatcher.parents[parent]? = some run) :=
    Dispatcher.step_run consistent.sound fair found
  refine ⟨?_,?_,?_,?_⟩
  · intro parent after found
    cases before : s.dispatcher.parents[parent]? with
    | none => exact (Dispatcher.step_new consistent.sound fair before found).sound
    | some run =>
      obtain ⟨_,present,evolves⟩ := runs before
      cases found.symm.trans present
      exact evolves.sound (consistent.sound parent run before)
  · intro e member
    rcases mem_append.mp member with old | new
    · exact consistent.timely e old
    · obtain ⟨symbol,due,-⟩ := mem_emitted consistent.sound new
      exact ⟨symbol,due⟩
  · intro e member
    have present : ∃ run, s.dispatcher.parents[e.child.parentId]? = some run := by
      rcases mem_append.mp member with old | new
      · exact consistent.attached e old
      · obtain ⟨-,-,run,found,-⟩ := mem_emitted consistent.sound new
        exact ⟨run,found⟩
    obtain ⟨run,found⟩ := present
    obtain ⟨after,kept,-⟩ := runs found
    exact ⟨after,kept⟩
  · intro parent after found
    rw [handedOut_step consistent.sound]
    cases before : s.dispatcher.parents[parent]? with
    | none =>
      rw [consistent.nothing before,(Dispatcher.step_new consistent.sound fair before found).nextIdx]
      rfl
    | some run =>
      obtain ⟨_,present,evolves⟩ := runs before
      cases found.symm.trans present
      rw [consistent.front parent run before,map_some,getD_some,
        take_handed (consistent.sound parent run before),evolves.plan,evolves.state]

section Continuations
variable {s : Logged} {ops : List Op} {parent : String} {run : ParentRun}

theorem consistent_run (consistent : Consistent s) (fair : ∀ op ∈ ops, op.Fair) :
    Consistent (Library.run Logged.step s ops) :=
  run_invariant (fun _ _ consistent => consistent.step) consistent (Guarded.of_mem s fun op listed _ => fair op listed)

structure Later (run after : ParentRun) : Prop where
  spec : after.spec = run.spec
  plan : after.plan = run.plan
  nextIdx : run.algo.nextIdx ≤ after.algo.nextIdx
  cancelled : run.cancelled = true → after.cancelled = true
  filled : run.filled ≤ after.filled

theorem later_run (consistent : Consistent s) (fair : ∀ op ∈ ops, op.Fair)
    (found : s.dispatcher.parents[parent]? = some run) :
    ∃ after, (Library.run Logged.step s ops).dispatcher.parents[parent]? = some after ∧ Later run after := by
  induction ops generalizing s run with
  | nil => exact ⟨run,found,rfl,rfl,le_rfl,id,le_rfl⟩
  | cons op ops ih =>
    obtain ⟨here,rest⟩ := forall_mem_cons.mp fair
    obtain ⟨next,present,evolves⟩ := Dispatcher.step_run consistent.sound here found
    obtain ⟨after,last,later⟩ := ih (consistent.step here) rest present
    refine ⟨after,last,later.spec.trans evolves.spec,later.plan.trans evolves.plan,?_,?_,evolves.filled.trans later.filled⟩
    · have moved : run.algo.nextIdx ≤ next.algo.nextIdx := by
        rw [evolves.state]
        exact Nat.le_add_right _ _
      exact moved.trans later.nextIdx
    · exact fun stopped => later.cancelled (evolves.cancelled.mpr (.inl stopped))

theorem handed_cancelled (stopped : run.cancelled = true) (op : Op) : handed op run = [] := by
  cases op with
  | onBar => simp [handed,ParentRun.arrivals,stopped]
  | _ => rfl

theorem handedOut_cancelled (consistent : Consistent s) (fair : ∀ op ∈ ops, op.Fair)
    (found : s.dispatcher.parents[parent]? = some run) (stopped : run.cancelled = true) :
    (Library.run Logged.step s ops).handedOut parent = s.handedOut parent := by
  induction ops generalizing s run with
  | nil => rfl
  | cons op ops ih =>
    obtain ⟨here,rest⟩ := forall_mem_cons.mp fair
    obtain ⟨next,present,evolves⟩ := Dispatcher.step_run consistent.sound here found
    rw [run_cons,ih (consistent.step here) rest present (evolves.cancelled.mpr (.inl stopped)),
      handedOut_step consistent.sound,found,map_some,getD_some,handed_cancelled stopped,append_nil]

variable {symbol : String} {date : Time}

theorem reached_last (consistent : Consistent s)
    (found : s.dispatcher.parents[parent]? = some run) (live : run.cancelled = false) (own : run.spec.symbol = symbol)
    (reached : ∀ child, run.plan.getLast? = some child → child.submitAt ≤ date) :
    run.plan.length ≤ run.algo.nextIdx + (handed (.onBar symbol date) run).length := by
  have sound := consistent.sound parent run found
  obtain ⟨algo,sliced⟩ := sound.planned
  have all : ∀ child ∈ run.plan, child.submitAt ≤ date := by
    intro child member
    have last := reached _ (getLast?_eq_some_getLast sliced.nonempty)
    exact (sliced.ordered.rel_getLast_of_rel_getLast_getLast member le_rfl).trans last
  have everything : handed (.onBar symbol date) run = run.plan.drop run.algo.nextIdx := by
    rw [handed,ParentRun.arrivals,if_neg (by simp [live,own]),PlanState.arrived,sound.same,takeWhile_eq_self_iff]
    intro child member
    exact decide_eq_true (all child (mem_of_mem_drop member))
  rw [everything,length_drop]
  omega

theorem handedOut_complete (consistent : Consistent s)
    (fair : ∀ op ∈ Op.onBar symbol date :: ops, op.Fair) (found : s.dispatcher.parents[parent]? = some run)
    (live : run.cancelled = false) (own : run.spec.symbol = symbol)
    (reached : ∀ child, run.plan.getLast? = some child → child.submitAt ≤ date) :
    (Library.run Logged.step s (.onBar symbol date :: ops)).handedOut parent = run.plan := by
  obtain ⟨here,rest⟩ := forall_mem_cons.mp fair
  obtain ⟨next,present,evolves⟩ := Dispatcher.step_run consistent.sound here found
  obtain ⟨last,kept,later⟩ := later_run (consistent.step here) rest present
  have emptied := reached_last consistent found live own reached
  have index := later.nextIdx
  rw [evolves.state] at index
  rw [run_cons,(consistent_run (consistent.step here) rest).front parent last kept,later.plan,evolves.plan]
  exact take_of_length_le (emptied.trans index)

end Continuations

theorem Sound.owner_of_orderId {p q : String} {runP runQ : ParentRun} (soundP : Sound p runP) (soundQ : Sound q runQ)
    {a b : ChildOrder} (inP : a ∈ runP.plan) (inQ : b ∈ runQ.plan) (same : a.orderId = b.orderId) : p = q := by
  obtain ⟨_,slicedP⟩ := soundP.planned
  obtain ⟨_,slicedQ⟩ := soundQ.planned
  obtain ⟨i,boundP,rfl⟩ := mem_iff_getElem.mp inP
  obtain ⟨j,boundQ,rfl⟩ := mem_iff_getElem.mp inQ
  rw [(slicedP.numbered i _ (getElem?_eq_getElem boundP)).1,
    (slicedQ.numbered j _ (getElem?_eq_getElem boundQ)).1] at same
  have parents : runP.spec.parentId = runQ.spec.parentId := (childOrderID_injective same).1
  exact soundP.keyed.symm.trans (parents.trans soundQ.keyed)

namespace Consistent
variable {s : Logged}

theorem mem_log (consistent : Consistent s) {e : Emission} (member : e ∈ s.log) :
    ∃ run, s.dispatcher.parents[e.child.parentId]? = some run ∧ e.child ∈ run.plan := by
  obtain ⟨run,found⟩ := consistent.attached e member
  have listed : e.child ∈ s.handedOut e.child.parentId :=
    mem_map_of_mem (mem_filter.mpr ⟨member,decide_eq_true rfl⟩)
  rw [consistent.front _ run found] at listed
  exact ⟨run,found,mem_of_mem_take listed⟩

theorem once (consistent : Consistent s) : (s.log.map (·.child.orderId)).Nodup := by
  have own (parent : String) : ((s.log.filter (·.child.parentId = parent)).map (·.child.orderId)).Nodup := by
    have listed : (s.log.filter (·.child.parentId = parent)).map (·.child.orderId) =
        (s.handedOut parent).map (·.orderId) := by
      rw [Logged.handedOut,map_map]
      rfl
    rw [listed]
    cases found : s.dispatcher.parents[parent]? with
    | none =>
      rw [consistent.nothing found]
      exact nodup_nil
    | some run =>
      obtain ⟨algo,sliced⟩ := (consistent.sound parent run found).planned
      rw [consistent.front parent run found]
      exact sliced.nodup.sublist ((take_sublist _ _).map _)
  refine nodup_of_owners own fun a inA b inB same => ?_
  obtain ⟨runA,foundA,plannedA⟩ := consistent.mem_log inA
  obtain ⟨runB,foundB,plannedB⟩ := consistent.mem_log inB
  exact (consistent.sound _ _ foundA).owner_of_orderId (consistent.sound _ _ foundB) plannedA plannedB same

theorem failed (consistent : Consistent s) (failed : (s.dispatcher.call op).1.Failed) : s.step op = s := by
  have stays (same : s.dispatcher.step op = s.dispatcher) (silent : emitted s.dispatcher op = []) : s.step op = s := by
    rw [Logged.step,same,silent,append_nil]
  cases op with
  | attach spec =>
    refine stays ?_ rfl
    rcases Dispatcher.attach_cases s.dispatcher spec with ⟨e,refused⟩ | ⟨plan,run,accepted,-⟩
    · rw [Dispatcher.step,Dispatcher.call,refused]
    · simp [Dispatcher.call,accepted,Reply.Failed] at failed
  | onBar =>
    refine absurd ?_ failed
    rw [Dispatcher.onBar,map_eq_nil_iff,filter_eq_nil_iff]
    rintro ⟨parent,run⟩ listed
    have found := mem_toList_iff_getElem?_eq_some.mp listed
    rw [ParentRun.onBar_eq (consistent.sound parent run found)]
    exact Bool.false_ne_true
  | onFill =>
    refine stays ?_ rfl
    simp only [Dispatcher.step,Dispatcher.call,Dispatcher.onFill] at failed ⊢
    iterate 2 (split at failed; · cases failed)
    split at failed
    · simp [*]
    · cases failed
  | cancel =>
    refine stays ?_ rfl
    simp only [Dispatcher.step,Dispatcher.call,Dispatcher.cancel] at failed ⊢
    split at failed
    · simp [*]
    split at failed
    · cases failed
    · simp [*]
  | cancelSymbol => cases failed

end Consistent

def history (ops : List Op) : Logged := Library.run Logged.step .fresh ops

theorem history_append (before after : List Op) :
    history (before ++ after) = Library.run Logged.step (history before) after := run_append ..

/-- Some call has answered that it cancelled the parent. -/
def Stopped (parent : String) (ops : List Op) : Prop :=
  ∃ before op after, ops = before ++ op :: after ∧ ((history before).dispatcher.call op).1.Stops parent

section Stopping
variable {ops : List Op} {parent : String} {run : ParentRun}

theorem stopped_concat : Stopped parent (ops ++ [op]) ↔
    Stopped parent ops ∨ ((history ops).dispatcher.call op).1.Stops parent := by
  constructor
  · rintro ⟨before,last,after,split,stops⟩
    rcases eq_nil_or_concat after with rfl | ⟨middle,final,rfl⟩
    · obtain ⟨rfl,same⟩ := append_inj' split rfl
      cases same
      exact .inr stops
    · have shorter : ops ++ [op] = (before ++ last :: middle) ++ [final] := by simpa using split
      exact .inl ⟨before,last,middle,append_inj_left' shorter rfl,stops⟩
  · rintro (⟨before,last,after,rfl,stops⟩ | stops)
    · exact ⟨before,last,after ++ [op],by simp,stops⟩
    · exact ⟨ops,op,[],rfl,stops⟩

variable (fair : ∀ op ∈ ops, op.Fair)
include fair

theorem consistent_history : Consistent (history ops) := consistent_run consistent_fresh fair

theorem Stopped.attached (stopped : Stopped parent ops) : ∃ run, (history ops).dispatcher.parents[parent]? = some run := by
  obtain ⟨before,op,after,rfl,stops⟩ := stopped
  obtain ⟨run,found,-⟩ := Dispatcher.stops_iff.mp stops
  obtain ⟨earlier,rest⟩ := forall_mem_append.mp fair
  obtain ⟨last,kept,-⟩ := later_run (consistent_history earlier) rest found
  exact ⟨last,by rw [history_append]; exact kept⟩

/-- The flag of a parent is set by the calls that answer so, and by no other. -/
theorem cancelled_iff_stopped (found : (history ops).dispatcher.parents[parent]? = some run) :
    run.cancelled = true ↔ Stopped parent ops := by
  induction ops using List.reverseRecOn generalizing run with
  | nil => simp [history,Logged.fresh,Dispatcher.newDispatcher] at found
  | append_singleton ops op ih =>
    obtain ⟨earlier,last⟩ := forall_mem_append.mp fair
    have sound := (consistent_history earlier).sound
    have here : op.Fair := forall_mem_singleton.mp last
    rw [history_append] at found
    rw [stopped_concat,Dispatcher.stops_iff]
    cases before : (history ops).dispatcher.parents[parent]? with
    | none =>
      have live := (Dispatcher.step_new sound here before found).live
      refine iff_of_false (by simp [live]) ?_
      rintro (stopped | ⟨_,⟨⟩,_⟩)
      obtain ⟨run,attached⟩ := stopped.attached earlier
      cases before.symm.trans attached
    | some first =>
      obtain ⟨after,kept,evolves⟩ := Dispatcher.step_run sound here before
      cases kept.symm.trans found
      rw [evolves.cancelled,ih earlier before]
      simp

theorem handedOut_stopped {before after : List Op} (split : ops = before ++ op :: after)
    (stops : ((history before).dispatcher.call op).1.Stops parent) :
    (history ops).handedOut parent = (history before).handedOut parent := by
  subst split
  obtain ⟨run,found,drops⟩ := Dispatcher.stops_iff.mp stops
  have silent : handed op run = [] := by
    cases op with
    | onBar => exact drops.1.elim
    | _ => rfl
  obtain ⟨earlier,rest⟩ := forall_mem_append.mp fair
  obtain ⟨fairOp,rest⟩ := forall_mem_cons.mp rest
  have here : Consistent (history before) := consistent_history earlier
  obtain ⟨next,present,evolves⟩ := Dispatcher.step_run here.sound fairOp found
  rw [history_append,run_cons,handedOut_cancelled (here.step fairOp) rest present (evolves.cancelled.mpr (.inr drops)),
    handedOut_step here.sound,found,map_some,getD_some,silent,append_nil]

end Stopping

/-- What a sequence of calls keeps to: of each parent, of what was handed out for it, and of a call
that reports a failure. -/
structure Protocol (ops : List Op) : Prop where
  once : ((history ops).log.map (·.child.orderId)).Nodup
  timely : ∀ e ∈ (history ops).log, e.child.symbol = e.symbol ∧ e.child.submitAt ≤ e.date
  planned : ∀ e ∈ (history ops).log, ∃ run : ParentRun,
    (history ops).dispatcher.parents[e.child.parentId]? = some run ∧ e.child ∈ run.plan
  ordered : ∀ (parent : String) (run : ParentRun), (history ops).dispatcher.parents[parent]? = some run →
    (history ops).handedOut parent <+: run.plan
  attached : ∀ (before : List Op) (spec : AttachSpec) (after : List Op) (plan : List ChildOrder), ops = before ++ .attach spec :: after →
    ((history before).dispatcher.attach spec).1 = .ok plan →
    ∃ run : ParentRun, (history ops).dispatcher.parents[spec.parentId]? = some run ∧ run.spec = spec ∧ run.plan = plan
  stops : ∀ (op : Op) (parent : String), ((history ops).dispatcher.call op).1.Stops parent ↔
    ∃ run : ParentRun, (history ops).dispatcher.parents[parent]? = some run ∧ op.Addresses parent run ∧
      ¬ Stopped parent ops ∧ run.filled < run.spec.qty - qtySumTolerance run.spec.qty
  stopped : ∀ (before : List Op) (op : Op) (after : List Op) (parent : String), ops = before ++ op :: after →
    ((history before).dispatcher.call op).1.Stops parent →
    (history ops).handedOut parent = (history before).handedOut parent
  complete : ∀ (before : List Op) (symbol : String) (date : Time) (after : List Op) (parent : String) (run : ParentRun),
    ops = before ++ .onBar symbol date :: after →
    (history before).dispatcher.parents[parent]? = some run → ¬ Stopped parent before → run.spec.symbol = symbol →
    (∀ child, run.plan.getLast? = some child → child.submitAt ≤ date) → (history ops).handedOut parent = run.plan
  filled : ∀ (before after : List Op) (parent : String) (run : ParentRun), ops = before ++ after →
    (history before).dispatcher.parents[parent]? = some run →
    ∃ last : ParentRun, (history ops).dispatcher.parents[parent]? = some last ∧ run.filled ≤ last.filled ∧
      last.filled ≤ run.spec.qty + qtySumTolerance run.spec.qty
  unique : ∀ (p q : String) (runP runQ : ParentRun), (history ops).dispatcher.parents[p]? = some runP →
    (history ops).dispatcher.parents[q]? = some runQ →
    ∀ a ∈ runP.plan, ∀ b ∈ runQ.plan, a.orderId = b.orderId → p = q ∧ a = b
  failed : ∀ op, ((history ops).dispatcher.call op).1.Failed → (history ops).step op = history ops

/-- Every sequence of calls with fills of no negative amount keeps to the protocol. -/
theorem dispatcher_protocol (ops : List Op) (fair : ∀ op ∈ ops, op.Fair) : Protocol ops := by
  have whole : Consistent (history ops) := consistent_history fair
  refine ⟨whole.once,whole.timely,fun e member => whole.mem_log member,?_,?_,?_,fun _ _ _ _ => handedOut_stopped fair,
    ?_,?_,?_,fun op => whole.failed⟩
  · intro parent run found
    rw [whole.front parent run found]
    exact take_prefix _ _
  · rintro before spec after plan rfl accepted
    rcases Dispatcher.attach_cases (history before).dispatcher spec with ⟨e,refused⟩ |
      ⟨plan',run,answered,parents,-,rfl,rfl,-⟩
    · rw [refused] at accepted
      cases accepted
    · cases answered.symm.trans accepted
      obtain ⟨earlier,rest⟩ := forall_mem_append.mp fair
      obtain ⟨here,rest⟩ := forall_mem_cons.mp rest
      have found : ((history before).step (.attach run.spec)).dispatcher.parents[run.spec.parentId]? = some run := by
        rw [Logged.step,Dispatcher.step,Dispatcher.call,parents,Book.get_put_self]
      obtain ⟨last,kept,later⟩ := later_run ((consistent_history earlier).step here) rest found
      exact ⟨last,by rw [history_append]; exact kept,later.spec,later.plan⟩
  · intro op parent
    rw [Dispatcher.stops_iff]
    refine exists_congr fun run => and_congr_right fun found => and_congr_right fun _ => ?_
    rw [← cancelled_iff_stopped fair found]
    exact decide_eq_true_iff
  · rintro before symbol date after parent run rfl found going own reached
    obtain ⟨earlier,rest⟩ := forall_mem_append.mp fair
    have live : run.cancelled = false := by
      rw [← Bool.not_eq_true,cancelled_iff_stopped earlier found]
      exact going
    rw [history_append]
    exact handedOut_complete (consistent_history earlier) rest found live own reached
  · rintro before after parent run rfl found
    obtain ⟨earlier,rest⟩ := forall_mem_append.mp fair
    obtain ⟨last,kept,later⟩ := later_run (consistent_history earlier) rest found
    rw [← history_append] at kept
    have within := (whole.sound parent last kept).within
    rw [later.spec] at within
    exact ⟨last,kept,later.filled,within⟩
  · intro p q runP runQ foundP foundQ a inP b inQ same
    obtain rfl := (whole.sound p runP foundP).owner_of_orderId (whole.sound q runQ foundQ) inP inQ same
    cases foundP.symm.trans foundQ
    obtain ⟨algo,sliced⟩ := (whole.sound p runP foundP).planned
    exact ⟨rfl,inj_on_of_nodup_map sliced.nodup inP inQ same⟩

def beforeHalt : List Op :=
  [.attach (windowSpec 100 .twap 4 []),.attach { windowSpec 100 .twap 2 [] with parentId := "P2", symbol := "000001.SZ" },
    .onBar "600000.SH" (Time.date 2024 1 2),.onFill "P1-C0000" 25,.onBar "600000.SH" (Time.date 2024 1 4),
    .cancel "P3" ""]

def halted : List Op :=
  beforeHalt ++ [.cancelSymbol "600000.SH" "halted",.onBar "600000.SH" (Time.date 2024 1 5),
    .onBar "000001.SZ" (Time.date 2024 1 5),.cancel "P1" ""]

/-- A halt of one stock stops its parent after three of four slices, and leaves the other stock's alone. -/
theorem halted_protocol :
    ((history beforeHalt).dispatcher.cancelSymbol "600000.SH" "halted").1.map (·.parentId) = ["P1"] ∧
      (history halted).log.map (·.child.orderId) = ["P1-C0000","P1-C0001","P1-C0002","P2-C0000","P2-C0001"] ∧
      Protocol halted := by
  refine ⟨by decide +kernel,by decide +kernel,dispatcher_protocol _ ?_⟩
  simp [halted,beforeHalt,Op.Fair]

end QuantTrading.ExecAlgo.Runtime
