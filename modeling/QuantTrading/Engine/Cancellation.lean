import QuantTrading.Engine.ParentOrders

/-! Parents of a symbol whose position changes from outside: by a stop-loss, a split or a
delisting. The loop cancels them, except those it takes for finished; below 10^9 whole
shares these have handed out their whole plan, so either way nothing is left to submit, to
the end of the run.
-/
namespace QuantTrading
open Library ExecAlgo List
open Dispatcher (attach_ok cancelSymbol due_slice live mem_attached newDispatcher onFill_parents)

def outstanding (due : List DueChild) (parent : ParentId) : ℚ :=
  ((due.filter (·.child.orderId.parent = parent)).map (·.child.qty)).sum

theorem outstanding_append (first second : List DueChild) (parent : ParentId) :
    outstanding (first ++ second) parent = outstanding first parent + outstanding second parent := by
  simp [outstanding]

theorem outstanding_cons (dc : DueChild) (rest : List DueChild) (parent : ParentId) :
    outstanding (dc :: rest) parent =
      (if dc.child.orderId.parent = parent then dc.child.qty else 0) + outstanding rest parent := by
  by_cases own : dc.child.orderId.parent = parent <;> simp [outstanding,own]

theorem outstanding_eq_zero {due : List DueChild} {parent : ParentId}
    (others : ∀ dc ∈ due, dc.child.orderId.parent ≠ parent) : outstanding due parent = 0 := by
  have none_ : due.filter (·.child.orderId.parent = parent) = [] := by
    rw [filter_eq_nil_iff]
    intro dc member
    simpa using others dc member
  rw [outstanding,none_]
  rfl

/-- Parents have distinct numbers, every due child is a slice of its parent's plan, and no
parent has more fills, with those still to come, than slices handed out. -/
structure Accounted (d : Dispatcher) (due : List DueChild) : Prop where
  distinct : (d.parents.map (·.spec.parentId)).Nodup
  planned : ∀ run ∈ d.parents, run.Planned
  slices : ∀ dc ∈ due, ∃ run ∈ d.parents, run.spec.parentId = dc.child.orderId.parent ∧ dc.child ∈ run.plan
  filled : ∀ run ∈ d.parents, run.filled + outstanding due run.spec.parentId ≤ run.handedOut

namespace Accounted

variable {d : Dispatcher} {due : List DueChild} {run : ParentRun}

theorem unique (accounted : Accounted d due) {other : ParentRun} (member : run ∈ d.parents) (listed : other ∈ d.parents)
    (same : other.spec.parentId = run.spec.parentId) : other = run :=
  inj_on_of_nodup_map accounted.distinct listed member same

theorem map (accounted : Accounted d due) {f : ParentRun → ParentRun}
    (kept : ∀ run, (f run).spec = run.spec ∧ (f run).plan = run.plan) {due' : List DueChild}
    (slices : ∀ dc ∈ due', ∃ run ∈ d.parents, run.spec.parentId = dc.child.orderId.parent ∧ dc.child ∈ run.plan)
    (filled : ∀ run ∈ d.parents, (f run).filled + outstanding due' run.spec.parentId ≤ (f run).handedOut) :
    Accounted ⟨d.parents.map f⟩ due' := by
  refine ⟨?_,?_,?_,?_⟩
  · have numbers : (d.parents.map f).map (·.spec.parentId) = d.parents.map (·.spec.parentId) := by simp [kept]
    rw [numbers]
    exact accounted.distinct
  · intro after member
    obtain ⟨run,listed,rfl⟩ := mem_map.mp member
    obtain ⟨positive,above,whole,balanced⟩ := accounted.planned run listed
    rw [← (kept run).2] at above whole balanced
    rw [← (kept run).1] at positive whole balanced
    exact ⟨positive,above,whole,balanced⟩
  · intro dc member
    obtain ⟨run,listed,same,slice⟩ := slices dc member
    exact ⟨f run,mem_map_of_mem listed,by rw [(kept run).1,same],by rw [(kept run).2]; exact slice⟩
  · intro after member
    obtain ⟨run,listed,rfl⟩ := mem_map.mp member
    rw [(kept run).1]
    exact filled run listed

theorem cancelSymbol (accounted : Accounted d due) (symbol : String) : Accounted (d.cancelSymbol symbol) due := by
  refine accounted.map (fun run => ?_) accounted.slices (fun run listed => ?_)
  · split <;> exact ⟨rfl,rfl⟩
  · split <;> exact accounted.filled run listed

variable {d' : Dispatcher} {dc : DueChild} {rest : List DueChild}

theorem attached (accounted : Accounted d due) {spec : AttachSpec} (attached : Dispatcher.Attached d spec run d') :
    Accounted d' due := by
  have members : ∀ other, other ∈ d'.parents ↔ other = run ∨ other ∈ d.parents := fun _ => mem_attached attached
  refine ⟨?_,?_,?_,?_⟩
  · rw [attached.parents,((perm_orderedInsert _ run d.parents).map _).nodup_iff,map_cons,nodup_cons]
    refine ⟨?_,accounted.distinct⟩
    intro taken
    obtain ⟨other,listed,same⟩ := mem_map.mp taken
    exact attached.fresh other listed (by rw [same,attached.asked])
  · intro other listed
    rcases (members other).mp listed with rfl | listed
    · exact attached.plan
    · exact accounted.planned other listed
  · intro dc member
    obtain ⟨other,listed,same,slice⟩ := accounted.slices dc member
    exact ⟨other,(members other).mpr (.inr listed),same,slice⟩
  · intro other listed
    rcases (members other).mp listed with rfl | listed
    · have none_ : outstanding due other.spec.parentId = 0 := by
        refine outstanding_eq_zero fun dc member own => ?_
        obtain ⟨parent,found,same,_⟩ := accounted.slices dc member
        exact attached.fresh parent found (by rw [same,own,attached.asked])
      rw [none_,attached.filled,ParentRun.handedOut,attached.nextIdx]
      simp
    · exact accounted.filled other listed

def handedSlices (date : Time) (run : ParentRun) : List DueChild :=
  (run.due date).map fun child => ⟨child,run.spec.orderType⟩

theorem outstanding_handedSlices (run : ParentRun) (date : Time) (parent : ParentId) :
    outstanding (handedSlices date run) parent =
      if run.spec.parentId = parent then ((run.due date).map (·.qty)).sum else 0 := by
  have addressed : ∀ child ∈ run.due date, child.orderId.parent = run.spec.parentId := fun child member =>
    (run.addressed child (mem_of_mem_drop (takeWhile_subset _ member))).2.2
  split
  next same =>
    have all : (handedSlices date run).filter (·.child.orderId.parent = parent) = handedSlices date run := by
      rw [filter_eq_self]
      intro dc member
      obtain ⟨child,slice,rfl⟩ := mem_map.mp member
      simpa [same] using addressed child slice
    rw [outstanding,all,handedSlices,map_map]
    rfl
  next other =>
    refine outstanding_eq_zero fun dc member own => other ?_
    obtain ⟨child,slice,rfl⟩ := mem_map.mp member
    rw [← own,addressed child slice]

theorem outstanding_onBar (parents : List ParentRun) (distinct : (parents.map (·.spec.parentId)).Nodup)
    (symbol : String) (date : Time) (member : run ∈ parents) :
    outstanding ((parents.filter (live symbol)).flatMap (handedSlices date)) run.spec.parentId =
      if live symbol run = true then ((run.due date).map (·.qty)).sum else 0 := by
  induction parents with
  | nil => simp at member
  | cons head tail ih =>
    rw [map_cons,nodup_cons] at distinct
    have first : outstanding (([head].filter (live symbol)).flatMap (handedSlices date)) run.spec.parentId =
        if live symbol head = true ∧ head.spec.parentId = run.spec.parentId then
          ((head.due date).map (·.qty)).sum else 0 := by
      by_cases alive : live symbol head = true
      · simp [alive,outstanding_handedSlices]
      · simp [alive,outstanding]
    have split : (head :: tail).filter (live symbol) =
        [head].filter (live symbol) ++ tail.filter (live symbol) := by
      rw [← filter_append,singleton_append]
    rw [split,flatMap_append,outstanding_append,first]
    rcases mem_cons.mp member with rfl | later
    · have none_ : outstanding ((tail.filter (live symbol)).flatMap (handedSlices date)) run.spec.parentId = 0 := by
        refine outstanding_eq_zero fun dc listed own => ?_
        obtain ⟨other,kept,handed⟩ := mem_flatMap.mp listed
        obtain ⟨child,slice,rfl⟩ := mem_map.mp handed
        have same := (other.addressed child (mem_of_mem_drop (takeWhile_subset _ slice))).2.2
        exact distinct.1 (mem_map.mpr ⟨other,(mem_filter.mp kept).1,same.symm.trans own⟩)
      rw [none_]
      simp
    · have other : head.spec.parentId ≠ run.spec.parentId := fun same =>
        distinct.1 (same ▸ mem_map_of_mem later)
      rw [if_neg (fun both => other both.2),zero_add,ih distinct.2 later]

theorem onBar (accounted : Accounted d []) (symbol : String) (date : Time) :
    Accounted (d.onBar symbol date).2 (d.onBar symbol date).1 := by
  refine accounted.map (fun run => ?_) (fun dc member => ?_) (fun run listed => ?_)
  · split <;> exact ⟨rfl,rfl⟩
  · obtain ⟨run,listed,_,_,slice,same⟩ := due_slice member
    exact ⟨run,listed,same,slice⟩
  · have before := accounted.filled run listed
    have due : outstanding (d.onBar symbol date).1 run.spec.parentId = _ :=
      outstanding_onBar d.parents accounted.distinct symbol date listed
    rw [outstanding_eq_zero (by simp),add_zero] at before
    rw [due]
    split
    · rw [ParentRun.handedOut_onBar]
      exact add_le_add_left before _
    · rw [add_zero]
      exact before

theorem unfilled (accounted : Accounted d (dc :: rest)) : Accounted d rest := by
  refine ⟨accounted.distinct,accounted.planned,fun other member => accounted.slices other (by simp [member]),?_⟩
  intro run listed
  have before := accounted.filled run listed
  obtain ⟨parent,found,_,slice⟩ := accounted.slices dc (by simp)
  have positive := (accounted.planned parent found).slices dc.child slice
  rw [outstanding_cons] at before
  split at before <;> linarith

theorem onFill (accounted : Accounted d (dc :: rest))
    (told : d.onFill dc.child.orderId dc.child.qty = some d') : Accounted d' rest := by
  have parents := onFill_parents told
  obtain ⟨after⟩ := d'
  subst parents
  refine accounted.map (fun run => ?_) (fun other member => accounted.slices other (by simp [member]))
    (fun run listed => ?_)
  · split <;> exact ⟨rfl,rfl⟩
  · have before := accounted.filled run listed
    rw [outstanding_cons] at before
    split
    next own =>
      rw [if_pos own.symm,← add_assoc] at before
      exact before
    next other =>
      rw [if_neg (Ne.symm other),zero_add] at before
      exact before

end Accounted

structure SameProgress (kept run : ParentRun) : Prop where
  spec : run.spec = kept.spec
  plan : run.plan = kept.plan
  nextIdx : run.nextIdx = kept.nextIdx
  submitted : run.submitted = kept.submitted
  filled : run.filled = kept.filled

variable (kept : ParentRun) (d : Dispatcher)

def Stands : Prop := ∃ run ∈ d.parents, SameProgress kept run

def Frozen : Prop := ∃ run ∈ d.parents, SameProgress kept run ∧ run.Done

variable {d : Dispatcher}

variable {kept : ParentRun}

theorem Frozen.stands : Frozen kept d → Stands kept d := by
  rintro ⟨run,listed,same,_⟩
  exact ⟨run,listed,same⟩

/-- Whole shares, fewer than the tolerance of `Cancel` blurs. -/
def Sized (spec : AttachSpec) : Prop := Tracker.Whole spec.qty ∧ spec.qty < 10^9

def AllDone (d : Dispatcher) (symbol : String) : Prop :=
  ∀ run ∈ d.parents, run.spec.symbol = symbol → Sized run.spec → run.Done

theorem Stands.frozen (stands : Stands kept d) (sized : Sized kept.spec)
    (done : AllDone d kept.spec.symbol) : Frozen kept d := by
  obtain ⟨run,listed,same⟩ := stands
  exact ⟨run,listed,same,done run listed (by rw [same.spec]) (same.spec ▸ sized)⟩

theorem AllDone.cancelSymbol {symbol : String} (done : AllDone d symbol) (other : String) :
    AllDone (d.cancelSymbol other) symbol := by
  intro after member
  obtain ⟨run,listed,rfl⟩ := mem_map.mp member
  split
  · exact fun _ _ => .inl rfl
  · exact done run listed

theorem cancelSymbol_allDone (accounted : Accounted d []) (symbol : String) :
    AllDone (d.cancelSymbol symbol) symbol := by
  intro after member
  obtain ⟨run,listed,rfl⟩ := mem_map.mp member
  split
  · exact fun _ _ => .inl rfl
  rename_i kept
  intro same sized
  have within := accounted.filled run listed
  rw [outstanding_eq_zero (by simp),add_zero] at within
  exact (accounted.planned run listed).done sized.1 sized.2 within fun cancels => kept ⟨same,cancels⟩

theorem cancelSymbols_allDone (symbols : List String) (accounted : Accounted d []) :
    Accounted (symbols.foldl cancelSymbol d) [] ∧
    (∀ symbol, AllDone d symbol → AllDone (symbols.foldl cancelSymbol d) symbol) ∧
    ∀ symbol ∈ symbols, AllDone (symbols.foldl cancelSymbol d) symbol := by
  induction symbols generalizing d with
  | nil => exact ⟨accounted,fun _ done => done,by simp⟩
  | cons first rest ih =>
    obtain ⟨after,kept,done⟩ := ih (accounted.cancelSymbol first)
    refine ⟨after,fun symbol prior => kept symbol (prior.cancelSymbol first),?_⟩
    intro symbol member
    rcases mem_cons.mp member with rfl | later
    · exact kept symbol (cancelSymbol_allDone accounted symbol)
    · exact done symbol later

namespace Engine

variable {e : Engine} {params : BacktestParams} {day : DayData} {meets : Tracker → Trade → Prop} {phase : Phase}

variable {d d' : Desk} {P : Booking → Prop} {l : Ledger} {s : BacktestState}

theorem Transition.accounted (transition : Transition e day meets phase d d')
    (accounted : Accounted d.dispatcher d.due) : Accounted d'.dispatcher d'.due := by
  cases transition with
  | attached _ accepted =>
    obtain ⟨run,attached⟩ := attach_ok accepted
    exact accounted.attached attached
  | cancelled symbol => exact accounted.cancelSymbol symbol
  | handed symbol date _ idle =>
    rw [idle] at accounted
    exact accounted.onBar symbol date
  | unfilled next =>
    rw [next] at accounted
    exact accounted.unfilled
  | filled _ next _ _ filled told =>
    rw [next] at accounted
    rw [filled.quantity] at told
    exact accounted.onFill told
  | _ => exact accounted

theorem Transits.accounted (transits : Transits e day meets phase d d')
    (accounted : Accounted d.dispatcher d.due) : Accounted d'.dispatcher d'.due := by
  induction transits with
  | refl => exact accounted
  | tail _ step ih => exact step.accounted ih

variable {kept : ParentRun} {symbol : String} {Q : Booking → Prop} {date : Time}

theorem stands_cancelSymbol {d : Dispatcher} (stands : Stands kept d) (symbol : String) :
    Stands kept (d.cancelSymbol symbol) := by
  obtain ⟨run,listed,same⟩ := stands
  refine ⟨_,mem_map_of_mem listed,?_⟩
  split
  · exact ⟨same.spec,same.plan,same.nextIdx,same.submitted,same.filled⟩
  · exact same

theorem Transition.stands (transition : Transition e day meets phase d d')
    (calm : phase ≠ .children) (stands : Stands kept d.dispatcher) : Stands kept d'.dispatcher := by
  cases transition with
  | attached _ accepted =>
    obtain ⟨_,attached⟩ := attach_ok accepted
    obtain ⟨run,listed,same⟩ := stands
    exact ⟨run,(mem_attached attached).mpr (.inr listed),same⟩
  | cancelled symbol => exact stands_cancelSymbol stands symbol
  | handed _ _ now _ | filled now _ _ _ _ _ _ => exact absurd now calm
  | _ => exact stands

theorem Transits.stands (transits : Transits e day meets phase d d')
    (calm : phase ≠ .children) (stands : Stands kept d.dispatcher) : Stands kept d'.dispatcher := by
  induction transits with
  | refl => exact stands
  | tail _ step ih => exact step.stands calm ih

structure AtRest (kept : ParentRun) (d : Desk) : Prop where
  accounted : Accounted d.dispatcher d.due
  frozen : Frozen kept d.dispatcher
  idle : ∀ dc ∈ d.due, dc.child.orderId.parent ≠ kept.spec.parentId

theorem frozen_onBar {d : Dispatcher} (frozen : Frozen kept d) (symbol : String) (date : Time) :
    Frozen kept (d.onBar symbol date).2 := by
  obtain ⟨run,listed,same,done⟩ := frozen
  refine ⟨_,mem_map_of_mem listed,?_⟩
  split
  next alive =>
    have all : run.plan.length ≤ run.nextIdx := by
      rcases done with cancelled | all
      · simp [live,cancelled] at alive
      · exact all
    simp only [ParentRun.onBar,ParentRun.due_nil_of_length all,length_nil,add_zero,map_nil,sum_nil]
    exact ⟨same,.inr all⟩
  · exact ⟨same,done⟩

theorem idle_onBar {d : Dispatcher} (accounted : Accounted d []) (frozen : Frozen kept d) {dc : DueChild}
    (due : dc ∈ (d.onBar symbol date).1) : dc.child.orderId.parent ≠ kept.spec.parentId := by
  intro own
  obtain ⟨run,listed,same,done⟩ := frozen
  obtain ⟨parent,found,alive,handed,_,numbered⟩ := due_slice due
  have one : parent = run := accounted.unique listed found (by rw [numbered,own,same.spec])
  subst one
  rcases done with cancelled | all
  · simp [live,cancelled] at alive
  · simp [ParentRun.due_nil_of_length all] at handed

theorem Transition.atRest (transition : Transition e day meets phase d d')
    (rest : AtRest kept d) : AtRest kept d' := by
  refine ⟨transition.accounted rest.accounted,?_,?_⟩
  · obtain ⟨run,listed,same,done⟩ := rest.frozen
    cases transition with
    | attached _ accepted =>
      obtain ⟨_,attached⟩ := attach_ok accepted
      exact ⟨run,(mem_attached attached).mpr (.inr listed),same,done⟩
    | cancelled =>
      refine ⟨_,mem_map_of_mem listed,?_⟩
      split
      · exact ⟨⟨same.spec,same.plan,same.nextIdx,same.submitted,same.filled⟩,.inl rfl⟩
      · exact ⟨same,done⟩
    | handed symbol date => exact frozen_onBar rest.frozen symbol date
    | @filled dc _ _ _ _ dispatcher _ next _ _ _ told _ =>
      have other := rest.idle dc (by simp [next])
      refine ⟨run,?_,same,done⟩
      rw [onFill_parents told]
      refine mem_map.mpr ⟨run,listed,if_neg ?_⟩
      rw [same.spec]
      exact Ne.symm other
    | _ => exact rest.frozen
  · cases transition with
    | handed symbol date _ idle =>
      have accounted := rest.accounted
      rw [idle] at accounted
      exact fun dc due => idle_onBar accounted rest.frozen due
    | unfilled next | filled _ next _ _ _ _ _ => exact fun dc member => rest.idle dc (by rw [next]; simp [member])
    | _ => exact rest.idle

theorem Transits.atRest (transits : Transits e day meets phase d d') (rest : AtRest kept d) : AtRest kept d' := by
  induction transits with
  | refl => exact rest
  | tail _ step ih => exact step.atRest ih

theorem Day.accounted (whole : Day e params meets date d d') (accounted : Accounted d.dispatcher []) :
    Accounted d'.dispatcher [] := by
  cases whole with
  | mk _ _ delisting signals children stopLosses actions idle =>
    have acted := actions.accounted (stopLosses.accounted (children.accounted
      (signals.accounted (delisting.accounted accounted))))
    rw [idle] at acted
    exact acted

theorem Day.frozen (whole : Day e params meets date d d') (accounted : Accounted d.dispatcher [])
    (frozen : Frozen kept d.dispatcher) : Frozen kept d'.dispatcher := by
  cases whole with
  | @mk day _ _ _ _ _ _ _ delisting signals children stopLosses actions _ =>
    have started : AtRest kept ⟨d.ledger.startDay day,d.dispatcher,[]⟩ := ⟨accounted,frozen,by simp⟩
    exact (actions.atRest (stopLosses.atRest (children.atRest (signals.atRest (delisting.atRest started))))).frozen

def Today (P : Booking → Prop) (l : Ledger) : Prop := ∀ record ∈ l.days.head?, ∀ booking ∈ record.bookings, P booking

theorem Today.mono (implied : ∀ booking, P booking → Q booking) (today : Today P l) : Today Q l :=
  fun record listed booking noted => implied booking (today record listed booking noted)

theorem Today.note (today : Today P l) {event : DayEvent} {t : Tracker}
    (noted : ∀ record booking, booking ∈ (DayRecord.add record event).bookings → booking ∈ record.bookings ∨ P booking) :
    Today P ⟨t,l.note event⟩ := by
  cases days : l.days with
  | nil => simp [Today,Ledger.note,days]
  | cons record =>
    intro head listed booking member
    simp only [Ledger.note,days,modifyHead_cons,head?_cons,Option.mem_some_iff] at listed
    subst listed
    exact (noted record booking member).elim (today record (by simp [days]) booking) id

theorem Today.book (today : Today P l) (cause : Cause) (result : Option Trade × Tracker)
    (noted : ∀ trade, result.1 = some trade → P ⟨cause,l.tracker,trade,result.2⟩) : Today P (l.book cause result) := by
  rcases result with ⟨_ | trade,t⟩
  · exact today
  · refine today.note fun record booking member => ?_
    rw [DayRecord.bookings_booked,mem_append,mem_singleton] at member
    rcases member with prior | rfl
    · exact .inl prior
    · exact .inr (noted trade rfl)

theorem Today.split (today : Today P l) (split : Split) : Today P (l.split split) :=
  today.note fun record booking member => .inl (by rwa [DayRecord.bookings_split] at member)

theorem Today.startDay (l : Ledger) (day : DayData) : Today P (l.startDay day) := by
  intro record listed booking member
  simp only [Ledger.startDay,head?_cons,Option.mem_some_iff] at listed
  subst listed
  simp [DayRecord.bookings] at member

theorem today_advanceDay : Today P l.advanceDay ↔ Today P l := by
  cases days : l.days with
  | nil => simp [Today,Ledger.advanceDay,days]
  | cons => simp [Today,Ledger.advanceDay,days,DayRecord.bookings]

section Today
variable (own : ∀ booking : Booking, phase.Books booking.cause → P booking)
  (child : ∀ (booking : Booking) (dc : DueChild), booking.cause = .execAlgoChild dc → P booking)
include own child

theorem Transition.today (transition : Transition e day meets phase d d')
    (today : Today P d.ledger) : Today P d'.ledger := by
  cases transition with
  | booked books _ _ => exact today.book _ _ fun _ _ => own _ books
  | filled _ _ _ _ _ _ _ => exact today.book _ _ fun _ _ => child _ _ rfl
  | split split => exact today.split split
  | _ => exact today

theorem Transits.today (transits : Transits e day meets phase d d')
    (today : Today P d.ledger) : Today P d'.ledger := by
  induction transits with
  | refl => exact today
  | tail _ step ih => exact step.today own child ih

end Today

theorem Books.eq_delisting (books : phase.Books .delisting) : phase = .delisting := by
  cases phase <;> first | rfl | exact books.elim

theorem Books.eq_stopLosses {event : StopLossEvent} (books : phase.Books (.stopLoss event)) : phase = .stopLosses := by
  cases phase <;> first | rfl | exact books.elim

theorem forceCloseOne_noted {cause : Cause} {prices : Book String ℚ} {pos : Position} (today : Today P s.ledger)
    (noted : ∀ booking : Booking, (forceCloseOne cause prices date s symbol pos).1 = some booking.trade →
      booking.trade.symbol = symbol → P booking) : Today P (forceCloseOne cause prices date s symbol pos).2.ledger := by
  unfold forceCloseOne at noted ⊢
  split
  · exact today
  rename_i price found
  rw [found] at noted
  refine today.book _ _ fun trade booked => noted _ booked ?_
  rcases closed : s.tracker.closePosition symbol price date with ⟨error | record,t⟩
  · simp [answered,closed,Except.toOption] at booked
  · obtain ⟨_,executed⟩ := Tracker.closePosition_ok closed
    simp only [answered,closed,Except.toOption,Option.some.injEq] at booked
    rw [← booked]
    exact executed.symbol

theorem forceCloseOne_dispatcher (cause : Cause) (prices : Book String ℚ) (date : Time) (s : BacktestState)
    (symbol : String) (pos : Position) : (forceCloseOne cause prices date s symbol pos).2.dispatcher = s.dispatcher := by
  unfold forceCloseOne
  split <;> rfl

theorem reconcileTargetPosition_kept (s : BacktestState) (symbol : String) (date : Time) :
    (reconcileTargetPosition s symbol date).dispatcher = s.dispatcher ∧
      (reconcileTargetPosition s symbol date).ledger = s.ledger := by
  have same := reconcileTargetPosition_desk s symbol date
  exact ⟨congrArg Desk.dispatcher same,congrArg Desk.ledger same⟩

theorem forceCloseDelisted_closed (fresh : Today (fun booking => booking.cause ≠ .delisting) s.ledger) :
    (e.forceCloseDelisted day s).1.dispatcher = s.dispatcher ∧
    Today (fun booking => booking.cause = .delisting → booking.trade.symbol ∈ (e.forceCloseDelisted day s).2)
      (e.forceCloseDelisted day s).1.ledger := by
  unfold forceCloseDelisted
  generalize s.tracker.positions.toList.filter _ = entries
  have initial : Today (fun booking => booking.cause = .delisting → booking.trade.symbol ∈ (s,([] : List String)).2)
      (s,([] : List String)).1.ledger :=
    fresh.mono fun _ other same => absurd same other
  have unmoved : (s,([] : List String)).1.dispatcher = s.dispatcher := rfl
  generalize (s,([] : List String)) = start at initial unmoved ⊢
  induction entries generalizing start with
  | nil => exact ⟨unmoved,initial⟩
  | cons entry rest ih =>
    rw [foldl_cons]
    obtain ⟨before,closed⟩ := start
    have kept := forceCloseOne_dispatcher .delisting day.prices day.date before entry.1 entry.2
    have listed : Today (fun booking => booking.cause = .delisting → booking.trade.symbol ∈ closed ++ [entry.1])
        (forceCloseOne .delisting day.prices day.date before entry.1 entry.2).2.ledger :=
      forceCloseOne_noted (initial.mono fun _ prior same => mem_append_left _ (prior same))
        fun booking _ same _ => by simp [same]
    have refused : (forceCloseOne .delisting day.prices day.date before entry.1 entry.2).1 = none →
        Today (fun booking => booking.cause = .delisting → booking.trade.symbol ∈ closed)
          (forceCloseOne .delisting day.prices day.date before entry.1 entry.2).2.ledger :=
      fun none_ => forceCloseOne_noted initial fun booking booked => by simp [none_] at booked
    dsimp only
    generalize forceCloseOne .delisting day.prices day.date before entry.1 entry.2 = result at kept listed refused ⊢
    rcases result with ⟨_ | trade,after⟩
    · exact ih _ (refused rfl) (kept.trans unmoved)
    · obtain ⟨reconciled,ledger⟩ := reconcileTargetPosition_kept after entry.1 day.date
      exact ih _ (ledger ▸ listed) (reconciled.trans (kept.trans unmoved))

theorem cancels_dispatcher {X : Type} (symbol : X → String) (xs : List X) (s : BacktestState) :
    (xs.foldl (fun s x => cancelExecAlgoParentsForSymbol s (symbol x)) s).dispatcher =
      (xs.map symbol).foldl cancelSymbol s.dispatcher ∧
    (xs.foldl (fun s x => cancelExecAlgoParentsForSymbol s (symbol x)) s).ledger = s.ledger := by
  induction xs generalizing s with
  | nil => exact ⟨rfl,rfl⟩
  | cons x xs ih => exact ih (cancelExecAlgoParentsForSymbol s (symbol x))

theorem openDay_allDone (accounted : Accounted s.dispatcher [])
    (fresh : Today (fun booking => booking.cause ≠ .delisting) s.ledger) :
    Today (fun booking => booking.cause = .delisting → AllDone (e.openDay day s).dispatcher booking.trade.symbol)
      (e.openDay day s).ledger := by
  let named := s.setTracker (s.tracker.setStockNames (stockNamesFor day.stocks))
  obtain ⟨kept,listed⟩ := @forceCloseDelisted_closed e day named fresh
  obtain ⟨dispatcher,ledger⟩ := cancels_dispatcher id (e.forceCloseDelisted day named).2 (e.forceCloseDelisted day named).1
  obtain ⟨_,_,done⟩ := cancelSymbols_allDone (e.forceCloseDelisted day named).2 accounted
  rw [map_id,kept] at dispatcher
  have cancelled : (e.openDay day s).dispatcher =
      (e.forceCloseDelisted day named).2.foldl cancelSymbol s.dispatcher := dispatcher
  have noted : (e.openDay day s).ledger.days = (e.forceCloseDelisted day named).1.ledger.days := by
    have days := congrArg Ledger.days ledger
    exact days
  rw [cancelled]
  intro record head booking member same
  rw [noted] at head
  exact done _ (listed record head booking member same)

theorem stopLosses_allDone (accounted : Accounted s.dispatcher [])
    (fresh : Today (fun booking => ∀ event, booking.cause ≠ .stopLoss event) s.ledger) :
    Today (fun booking => ∀ event, booking.cause = .stopLoss event →
      AllDone (e.processStopLosses day s).dispatcher event.symbol) (e.processStopLosses day s).ledger := by
  unfold processStopLosses
  split
  · exact fresh.mono fun _ other event same => absurd same (other event)
  rename_i rm _
  generalize stopLossEvents rm s.tracker day = events
  have initial : Today (fun booking => ∀ event, booking.cause = .stopLoss event → AllDone s.dispatcher event.symbol)
      s.ledger := fresh.mono fun _ other event same => absurd same (other event)
  clear fresh
  induction events generalizing s with
  | nil => exact initial
  | cons event rest ih =>
    have booked : Accounted (executeStopLoss day s event).dispatcher [] ∧
        Today (fun booking => ∀ other, booking.cause = .stopLoss other →
          AllDone (executeStopLoss day s event).dispatcher other.symbol) (executeStopLoss day s event).ledger := by
      unfold executeStopLoss
      generalize answered _ = result
      rcases result with ⟨_ | trade,t⟩
      · exact ⟨accounted,initial⟩
      · dsimp only [BacktestState.book]
        generalize noted : ({ s with ledger := s.ledger.book (.stopLoss event) (some trade,t) } : BacktestState) = after
        have today : Today (fun booking => ∀ other, booking.cause = .stopLoss other →
            AllDone (s.dispatcher.cancelSymbol event.symbol) other.symbol) after.ledger := by
          rw [← noted]
          refine Today.book (initial.mono fun _ prior other same => (prior other same).cancelSymbol _) _ _ ?_
          rintro _ _ other same
          cases same
          exact cancelSymbol_allDone accounted event.symbol
        obtain ⟨reconciled,ledger⟩ := reconcileTargetPosition_kept after event.symbol day.date
        have dispatcher : (reconcileTargetPosition after event.symbol day.date).dispatcher = s.dispatcher := by
          rw [reconciled,← noted]
        unfold cancelExecAlgoParentsForSymbol
        rw [dispatcher,ledger]
        exact ⟨accounted.cancelSymbol event.symbol,today⟩
    exact ih booked.1 booked.2

theorem foldl_dispatcher {X : Type} (f : BacktestState → X → BacktestState) (kept : ∀ s x, (f s x).dispatcher = s.dispatcher)
    (xs : List X) (s : BacktestState) : (xs.foldl f s).dispatcher = s.dispatcher := by
  induction xs generalizing s with
  | nil => rfl
  | cons x xs ih => exact (ih (f s x)).trans (kept s x)

theorem splits_allDone (accounted : Accounted s.dispatcher []) :
    ∀ split ∈ e.splitsOn day.date, AllDone (e.processCorporateActions day s).dispatcher split.symbol := by
  intro split processed
  let paid := (e.dividendsOn day.date).foldl payDividend s
  let credited := (e.splitsOn day.date).foldl (creditSplit day.date) paid
  have kept : credited.dispatcher = s.dispatcher :=
    (foldl_dispatcher (creditSplit day.date) (fun _ _ => (reconcileTargetPosition_kept _ _ _).1) _ paid).trans
      (foldl_dispatcher payDividend (fun _ _ => rfl) _ s)
  obtain ⟨cancelled,_⟩ := cancels_dispatcher Split.symbol (e.splitsOn day.date) credited
  rw [kept] at cancelled
  have dispatcher : (e.processCorporateActions day s).dispatcher =
      ((e.splitsOn day.date).map Split.symbol).foldl cancelSymbol s.dispatcher := cancelled
  obtain ⟨_,_,done⟩ := cancelSymbols_allDone ((e.splitsOn day.date).map Split.symbol) accounted
  rw [dispatcher]
  exact done split.symbol (mem_map_of_mem processed)

def BookedToday (s : BacktestState) (P : Booking → Prop) : Prop :=
  ∃ record ∈ s.ledger.days.head?, ∃ booking ∈ record.bookings, P booking

def stateAfter (e : Engine) (params : BacktestParams) (days : List Time) : BacktestState :=
  days.foldl (e.runDay params) (e.initialState params)

def startedDay (e : Engine) (params : BacktestParams) (before : List Time) (date : Time) : BacktestState :=
  e.startDay params (e.stateAfter params before) date

/-- A parent there when its symbol is closed for a delisting, or worked up to the stop-losses
and splits of the day, stands as it is from then on. -/
structure StandsAfterChange (e : Engine) (params : BacktestParams) (before : List Time) (date : Time) (later : List Time)
    (kept : ParentRun) : Prop where
  delisted : kept ∈ (e.stateAfter params before).dispatcher.parents →
    BookedToday (e.stateAfter params (before ++ [date]))
      (fun booking => booking.cause = .delisting ∧ booking.trade.symbol = kept.spec.symbol) →
    Stands kept (e.stateAfter params (before ++ date :: later)).dispatcher
  changed : kept ∈ (e.afterChildren (e.dayData params (e.stateAfter params before) date).1
      (e.startedDay params before date)).dispatcher.parents →
    (BookedToday (e.stateAfter params (before ++ [date]))
      (fun booking => ∃ event, booking.cause = .stopLoss event ∧ event.symbol = kept.spec.symbol) ∨
      ∃ split ∈ e.splitsOn date, split.symbol = kept.spec.symbol) →
    Stands kept (e.stateAfter params (before ++ date :: later)).dispatcher

theorem days_accounted (e : Engine) (params : BacktestParams) (days : List Time) :
    Accounted (e.stateAfter params days).dispatcher [] := by
  have preserved (s : BacktestState) (date : Time) (accounted : Accounted s.dispatcher []) :
      Accounted (e.runDay params s date).dispatcher [] :=
    (runDay_day s date (DayMeets.trivial e params s date)).accounted accounted
  have initial : Accounted (e.initialState params).dispatcher [] :=
    ⟨nodup_nil,by simp [initialState,newDispatcher],by simp,by simp [initialState,newDispatcher]⟩
  exact run_always preserved initial days

theorem days_frozen (accounted : Accounted s.dispatcher [])
    (frozen : Frozen kept s.dispatcher) (days : List Time) : Frozen kept (days.foldl (e.runDay params) s).dispatcher := by
  have preserved (s : BacktestState) (date : Time) (held : Accounted s.dispatcher [] ∧ Frozen kept s.dispatcher) :
      Accounted (e.runDay params s date).dispatcher [] ∧ Frozen kept (e.runDay params s date).dispatcher := by
    have whole := runDay_day s date (DayMeets.trivial e params s date)
    exact ⟨whole.accounted held.1,whole.frozen held.1 held.2⟩
  exact (run_always preserved ⟨accounted,frozen⟩ days).2

theorem bookedToday_runDay (booked : BookedToday (e.runDay params s date) P)
    (today : Today Q (e.tradeDay (e.dayData params s date).1 (e.startDay params s date)).ledger) :
    ∃ booking, P booking ∧ Q booking := by
  obtain ⟨record,head,booking,member,noted⟩ := booked
  exact ⟨booking,noted,today_advanceDay.mpr today record head booking member⟩

theorem Stands.self {d : Dispatcher} (member : kept ∈ d.parents) : Stands kept d :=
  ⟨kept,member,rfl,rfl,rfl,rfl,rfl⟩

section TradeDay

variable {kept : ParentRun} {s : BacktestState} (fetched : Fetched e params day) (sized : Sized kept.spec)
  (accounted : Accounted s.dispatcher []) (fresh : ∀ P, Today P s.ledger)

include fetched sized accounted fresh

theorem tradeDay_delisted (member : kept ∈ s.dispatcher.parents) :
    Today (fun booking => booking.cause = .delisting → booking.trade.symbol = kept.spec.symbol →
      Frozen kept (e.tradeDay day s).dispatcher) (e.tradeDay day s).ledger := by
  obtain ⟨opening,signals,children,stopLosses,actions⟩ :=
    tradeDay_transits fetched (ChildrenMeet.trivial e day (e.afterSignals day s))
  have opened := opening.accounted accounted
  -- No later phase books a delisting, so each was booked before its parents were cancelled.
  have other : ∀ {phase : Phase}, phase ≠ .delisting → ∀ booking : Booking, phase.Books booking.cause →
      booking.cause = .delisting → AllDone (e.openDay day s).dispatcher booking.trade.symbol := by
    intro phase later booking books same
    exact absurd (Books.eq_delisting (same ▸ books)) later
  have child : ∀ (booking : Booking) (dc : DueChild), booking.cause = .execAlgoChild dc →
      booking.cause = .delisting → AllDone (e.openDay day s).dispatcher booking.trade.symbol := by
    intro booking dc same delisted
    cases same.symm.trans delisted
  have closed := @openDay_allDone e day s accounted (fresh _)
  have carried := actions.today (other (by simp)) child (stopLosses.today (other (by simp)) child
    (children.today (other (by simp)) child (signals.today (other (by simp)) child closed)))
  refine carried.mono fun booking done delisted same => ?_
  have frozen := (opening.stands (by simp) (Stands.self member)).frozen sized (same ▸ done delisted)
  have rest : AtRest kept (e.openDay day s).desk := ⟨opened,frozen,by simp [BacktestState.desk]⟩
  exact (actions.atRest (stopLosses.atRest (children.atRest (signals.atRest rest)))).frozen

theorem tradeDay_changed (member : kept ∈ (e.afterChildren day s).dispatcher.parents) :
    Today (fun booking => ∀ event, booking.cause = .stopLoss event → event.symbol = kept.spec.symbol →
      Frozen kept (e.tradeDay day s).dispatcher) (e.tradeDay day s).ledger ∧
    ∀ split ∈ e.splitsOn day.date, split.symbol = kept.spec.symbol → Frozen kept (e.tradeDay day s).dispatcher := by
  obtain ⟨opening,signals,children,stopLosses,actions⟩ :=
    tradeDay_transits fetched (ChildrenMeet.trivial e day (e.afterSignals day s))
  have worked := children.accounted (signals.accounted (opening.accounted accounted))
  have stopped := stopLosses.accounted worked
  have stands := stopLosses.stands (by simp) (Stands.self member)
  have none_ : ∀ {phase : Phase}, phase ≠ .stopLosses → ∀ booking : Booking, phase.Books booking.cause →
      ∀ event, booking.cause ≠ .stopLoss event := by
    intro phase earlier booking books event same
    exact earlier (Books.eq_stopLosses (same ▸ books))
  have child : ∀ (booking : Booking) (dc : DueChild), booking.cause = .execAlgoChild dc →
      ∀ event, booking.cause ≠ .stopLoss event := by
    intro booking dc same event stop
    cases same.symm.trans stop
  refine ⟨?_,?_⟩
  · have unstopped := children.today (none_ (by simp)) child (signals.today (none_ (by simp)) child
      (opening.today (none_ (by simp)) child (fresh _)))
    have done := @stopLosses_allDone e day (e.afterChildren day s) worked unstopped
    have carried := actions.today
      (fun booking books event stop => absurd stop (none_ (by simp) booking books event))
      (fun booking dc same event stop => absurd stop (child booking dc same event)) done
    refine carried.mono fun booking closed event stop same => ?_
    have frozen := stands.frozen sized (same ▸ closed event stop)
    have rest : AtRest kept (e.afterStopLosses day s).desk := ⟨stopped,frozen,by simp [BacktestState.desk]⟩
    exact (actions.atRest rest).frozen
  · intro split processed same
    have done := splits_allDone stopped split processed
    exact (actions.stands (by simp) stands).frozen sized (same ▸ done)

end TradeDay

/-- A parent for fewer than 10^9 whole shares stands still once its symbol is closed or split. -/
theorem run_standsAfterChange (e : Engine) (params : BacktestParams) (before : List Time) (date : Time) (later : List Time)
    (kept : ParentRun) (whole : Tracker.Whole kept.spec.qty) (bound : kept.spec.qty < 10^9) :
    StandsAfterChange e params before date later kept := by
  have fetched : Fetched e params (e.dayData params (e.stateAfter params before) date).1 := ⟨_,_,_,rfl⟩
  have accounted := days_accounted e params before
  have today : e.stateAfter params (before ++ [date]) = e.runDay params (e.stateAfter params before) date := by
    simp [stateAfter]
  have final : e.stateAfter params (before ++ date :: later) =
      later.foldl (e.runDay params) (e.stateAfter params (before ++ [date])) := by simp [stateAfter]
  have settled : Frozen kept (e.stateAfter params (before ++ [date])).dispatcher →
      Stands kept (e.stateAfter params (before ++ date :: later)).dispatcher := by
    intro frozen
    rw [final]
    exact (days_frozen (days_accounted e params _) frozen later).stands
  have started : Accounted (e.startedDay params before date).dispatcher [] := accounted
  refine ⟨fun member booked => settled ?_,fun member change => settled ?_⟩
  · rw [today] at booked ⊢
    obtain ⟨booking,⟨delisted,same⟩,frozen⟩ := bookedToday_runDay booked
      (tradeDay_delisted fetched ⟨whole,bound⟩ started (fun _ => Today.startDay _ _) member)
    exact frozen delisted same
  · obtain ⟨stopped,splits⟩ := tradeDay_changed fetched ⟨whole,bound⟩ started (fun _ => Today.startDay _ _) member
    rw [today] at change ⊢
    rcases change with booked | ⟨split,processed,same⟩
    · obtain ⟨booking,⟨event,stop,same⟩,frozen⟩ := bookedToday_runDay booked stopped
      exact frozen event stop same
    · exact splits split processed same

/-! A VWAP parent over two days whose stock is split on the first of them. -/

def weightedSignal (profile : List ℚ) : StrategySignal := ⟨"600000.SH",.other,1,0,none,some .long,none,0,.vwap,2,profile⟩

def splitMidway (qty : ℚ) (profile : List ℚ) : Engine :=
  { oneStockEngine (twoDayHistory 10 10) [dayOne,dayTwo]
      (fun date => if date = dayOne then [weightedSignal profile] else []) qty none with
    splits := [⟨"600000.SH",dayOne,0,0⟩] }

def amplyFunded : BacktestParams := ⟨["600000.SH"],dayOne,10^12⟩

def workedParents (e : Engine) : List ParentRun :=
  (e.afterChildren (e.dayData amplyFunded (e.stateAfter amplyFunded []) dayOne).1
    (e.startedDay amplyFunded [] dayOne)).dispatcher.parents

theorem splitMidway_stands : ∃ kept ∈ workedParents (splitMidway 300 [2,1]), kept.nextIdx = 1 ∧
    Stands kept ((splitMidway 300 [2,1]).stateAfter amplyFunded [dayOne,dayTwo]).dispatcher := by
  obtain ⟨kept,member,handed,qty,symbol⟩ : ∃ run ∈ workedParents (splitMidway 300 [2,1]),
      run.nextIdx = 1 ∧ run.spec.qty = 300 ∧ run.spec.symbol = "600000.SH" := by decide +kernel
  have law := run_standsAfterChange (splitMidway 300 [2,1]) amplyFunded [] dayOne [dayTwo] kept
    ⟨300,by rw [qty]; norm_num⟩ (by rw [qty]; norm_num)
  exact ⟨kept,member,handed,law.changed member (.inr ⟨_,mem_filter.mpr ⟨mem_singleton.mpr rfl,by decide +kernel⟩,
    symbol.symm⟩)⟩

/-- One share short of two billion counts as filled, so the parent is not cancelled and the last
share is bought the day after. -/
theorem hugeParent_outlives_split : ∃ kept ∈ workedParents (splitMidway 2000000000 [1999999999,1]),
    Tracker.Whole kept.spec.qty ∧
    ¬ StandsAfterChange (splitMidway 2000000000 [1999999999,1]) amplyFunded [] dayOne [dayTwo] kept := by
  obtain ⟨kept,member,handed,qty,symbol⟩ : ∃ run ∈ workedParents (splitMidway 2000000000 [1999999999,1]),
      run.nextIdx = 1 ∧ run.spec.qty = 2000000000 ∧ run.spec.symbol = "600000.SH" := by decide +kernel
  refine ⟨kept,member,⟨2000000000,by rw [qty]; norm_num⟩,fun law => ?_⟩
  obtain ⟨run,after,same⟩ := law.changed member (.inr ⟨_,mem_filter.mpr ⟨mem_singleton.mpr rfl,by decide +kernel⟩,
    symbol.symm⟩)
  have all : ∀ run ∈ ((splitMidway 2000000000 [1999999999,1]).stateAfter amplyFunded ([] ++ dayOne :: [dayTwo])).dispatcher.parents,
      run.nextIdx = 2 := by decide +kernel
  have two := all run after
  rw [same.nextIdx,handed] at two
  exact absurd two (by decide)

end Engine
end QuantTrading
