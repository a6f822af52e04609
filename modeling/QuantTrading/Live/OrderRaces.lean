import QuantTrading.Live.OrderManager

/-! Races between calls of the live engine. A call writes an order back some sections after it
read it. Where every write finds the order with the status its call read, filled, cancelled and
rejected orders stay so, and every filled order is booked once.
-/
namespace QuantTrading.LiveEngine
open Library List

variable {config : ExecutionConfig} {s after : State} {key : String}

namespace State

def status (s : State) (id : String) : Option Status := (s.orders[id]?).map (·.status)

def unchanged (s : State) (order : LiveOrder) : Bool := s.status order.id = some order.status

end State

def Written (s : State) (key : String) (status : Status) (after : State) : Prop :=
  ∀ id, after.status id = if key = id then some status else s.status id

theorem status_insert (s : State) (key : String) (order : LiveOrder) (pending : List String) :
    Written s key order.status { s with orders := s.orders.insert key order, pending := pending } := by
  intro id
  rw [State.status,Book.get_insert]
  split <;> rfl

theorem written_saveOrder (s : State) (order : LiveOrder) :
    Written s order.id order.status (s.exec (.saveOrder order)) :=
  status_insert s order.id order s.pending

theorem written_updateOrder (s : State) (order : LiveOrder) :
    Written s order.id order.status (s.exec (.updateOrder order.id order)) := by
  simp only [State.exec]
  split
  · exact status_insert s order.id { order with id := order.id } s.pending
  · exact status_insert s order.id order s.pending

theorem written_updateOrderStatus (status : Status) (stored : (s.status key).isSome = true) :
    Written s key status (s.exec (.updateOrderStatus key status)) ∧
      (s.exec (.updateOrderStatus key status)).pending =
        if status.isTerminal then s.pending.erase key else s.pending := by
  rw [State.status,Option.isSome_map] at stored
  obtain ⟨order,found⟩ := isSome_iff_exists.mp stored
  simp only [State.exec,found]
  exact ⟨status_insert s key { order with status := status } _,trivial⟩

theorem booked_updateOrderStatus (s : State) (key : String) (status : Status) :
    (s.exec (.updateOrderStatus key status)).booked = s.booked := by
  rw [State.exec]
  split <;> rfl

variable {order marked : LiveOrder} {quote : Quote} {answer : Answer} {status : Status} {call : Call}

theorem updateTrailingHWM_eq_some (moved : updateTrailingHWM order quote = some marked) :
    marked.id = order.id ∧ marked.status = order.status := by
  simp only [updateTrailingHWM] at moved
  split_ifs at moved
  cases moved
  exact ⟨rfl,rfl⟩

def Final (s after : State) : Prop :=
  ∀ id status, s.status id = some status → status.isTerminal = true → after.status id = some status

theorem Final.refl (s : State) : Final s s := fun _ _ found _ => found

theorem Final.trans {third : State} (first : Final s after) (second : Final after third) : Final s third :=
  fun id status found terminal => second id status (first id status found terminal) terminal

theorem Written.final (written : Written s key status after)
    (open_ : ∀ old, s.status key = some old → old.isTerminal = false) : Final s after := by
  intro id old found terminal
  rw [written id]
  split
  next same =>
    subst same
    rw [open_ old found] at terminal
    cases terminal
  · exact found

/-- Every listed order is stored and live, and no order is listed twice. -/
structure Listed (s : State) : Prop where
  live : ∀ id ∈ s.pending, ∃ status, s.status id = some status ∧ status.isLive = true
  nodup : s.pending.Nodup

theorem Status.isLive.open_ (live : status.isLive = true) : status.isTerminal = false := by
  cases status with
  | pending => rfl
  | submitted => rfl
  | _ => cases live

theorem Written.listed (written : Written s key status after) (listed : Listed s) (pending : after.pending = s.pending)
    (fits : status.isLive = true ∨ key ∉ s.pending) : Listed after := by
  refine ⟨fun id member => ?_,by rw [pending]; exact listed.nodup⟩
  rw [pending] at member
  rw [written id]
  split
  next same =>
    subst same
    obtain live | absent := fits
    · exact ⟨status,rfl,live⟩
    · exact absurd member absent
  · exact listed.live id member

theorem Written.delisted (written : Written s key status after) (listed : Listed s)
    (pending : after.pending = s.pending.erase key) : Listed after := by
  refine ⟨fun id member => ?_,by rw [pending]; exact listed.nodup.erase key⟩
  rw [pending,listed.nodup.mem_erase_iff] at member
  rw [written id,if_neg (Ne.symm member.1)]
  exact listed.live id member.2

def marks (order : LiveOrder) (quote : Quote) : Bool :=
  order.symbol = quote.symbol ∧ order.orderType = .trailing ∧ (updateTrailingHWM order quote).isSome

/-- No section writes over what another call has done since its own call read the order: the
order has the status of the call's copy, a synced order is still listed, a new one unknown.
Statuses the broker reports are the engine's own, and no order is cancelled while it is listed. -/
def undisturbed (s : State) (call : Call) (_ : Answer) : Bool :=
  match call with
  | .saveRejected order => s.status order.id = none
  | .saveSubmitted order => s.status order.id = none
  | .addPending orderID => s.status orderID = some .submitted ∧ orderID ∉ s.pending
  | .saveCancelled order => s.unchanged order ∧ order.id ∉ s.pending
  | .quoteLoop (order :: _) quote => marks order quote → s.unchanged order
  | .fill order _ quote => shouldFill order quote → s.unchanged order
  | .writeStatus orderID status _ => orderID ∈ s.pending ∧ status.isKnown
  | _ => true

def ReadLive : Call → Prop
  | .cancelAtBroker order => order.status.isLive = true
  | .saveCancelled order => order.status.isLive = true
  | .quoteLoop orders _ => ∀ order ∈ orders, order.status.isLive = true
  | .fill order orders _ => order.status.isLive = true ∧ ∀ order ∈ orders, order.status.isLive = true
  | .book _ orders _ => ∀ order ∈ orders, order.status.isLive = true
  | _ => True

/-- What a step leaves: final statuses as they were, a list of live orders and, if the call goes
on, live copies. -/
def Settled (s : State) (outcome : State × Option Call) : Prop :=
  Final s outcome.1 ∧ Listed outcome.1 ∧ ∀ rest, outcome.2 = some rest → ReadLive rest

theorem Settled.returns (final : Final s after) (listed : Listed after) : Settled s (after,none) :=
  ⟨final,listed,by rintro _ ⟨⟩⟩

theorem Settled.goesOn {rest : Call} (final : Final s after) (listed : Listed after) (read : ReadLive rest) :
    Settled s (after,some rest) :=
  ⟨final,listed,fun _ goesOn => Option.some.inj goesOn ▸ read⟩

theorem getPendingOrders_live (listed : Listed s) : ∀ order ∈ s.getPendingOrders, order.status.isLive = true := by
  intro order member
  obtain ⟨id,inList,found⟩ := mem_filterMap.mp member
  obtain ⟨status,stored,live⟩ := listed.live id inList
  rw [State.status,found,map_some] at stored
  rw [Option.some.inj stored]
  exact live

theorem unchanged_open (same : s.unchanged order = true) (live : order.status.isLive = true) :
    ∀ old, s.status order.id = some old → old.isTerminal = false := by
  intro old found
  cases (of_decide_eq_true same).symm.trans found
  exact Status.isLive.open_ live

theorem unchanged_stored (same : s.unchanged order = true) : (s.status order.id).isSome = true := by
  rw [of_decide_eq_true same]
  rfl

theorem live_of_uncancellable (open_ : ¬ (status ≠ .pending ∧ status ≠ .submitted)) : status.isLive = true := by
  rw [not_and_or,not_not,not_not] at open_
  exact decide_eq_true open_

theorem unknown_unlisted (listed : Listed s) (unknown : s.status key = none) : key ∉ s.pending := by
  intro member
  obtain ⟨status,stored,-⟩ := listed.live key member
  cases unknown.symm.trans stored

theorem marks_of_moved (quoted : order.symbol = quote.symbol)
    (trailing : order.orderType = .trailing) (moved : updateTrailingHWM order quote = some marked) :
    marks order quote = true := by
  simp [marks,quoted,trailing,moved]

theorem quoteLoop_cases (order : LiveOrder) (orders : List LiveOrder) (quote : Quote) (answer : Answer) :
    step config s (.quoteLoop (order :: orders) quote) answer = (s,some (.quoteLoop orders quote)) ∨
      step config s (.quoteLoop (order :: orders) quote) answer = (s,some (.fill order orders quote)) ∨
        ∃ marked : LiveOrder, marks order quote = true ∧ marked.id = order.id ∧ marked.status = order.status ∧
          step config s (.quoteLoop (order :: orders) quote) answer =
            (s.exec (.updateOrder marked.id marked),some (.fill marked orders quote)) := by
  simp only [step,advance]
  split
  · exact .inl rfl
  rename_i quoted
  split
  next trailing =>
    split
    · exact .inr (.inl rfl)
    rename_i marked moved
    obtain ⟨sameID,sameStatus⟩ := updateTrailingHWM_eq_some moved
    exact .inr (.inr ⟨marked,marks_of_moved (not_not.mp quoted) trailing moved,sameID,sameStatus,rfl⟩)
  · exact .inr (.inl rfl)

theorem step_settled (met : undisturbed s call answer = true) (listed : Listed s) (read : ReadLive call) :
    Settled s (step config s call answer) := by
  cases call with
  | saveRejected order | saveSubmitted order =>
    have unknown : s.status order.id = none := of_decide_eq_true met
    have written := written_saveOrder s order
    refine ⟨written.final fun old found => ?_,written.listed listed rfl (.inr (unknown_unlisted listed unknown)),?_⟩
    · cases unknown.symm.trans found
    · rintro _ ⟨⟩ <;> trivial
  | addPending orderID =>
    obtain ⟨submitted,absent⟩ := of_decide_eq_true met
    refine .returns (.refl s) ⟨fun id member => ?_,?_⟩
    · obtain before | new := mem_append.mp member
      · exact listed.live id before
      · obtain rfl := mem_singleton.mp new
        exact ⟨.submitted,submitted,rfl⟩
    · refine List.Nodup.append listed.nodup (nodup_singleton orderID) ?_
      exact disjoint_singleton.mpr absent
  | saveCancelled order =>
    obtain ⟨same,absent⟩ := of_decide_eq_true met
    have written := written_saveOrder s { order with status := .cancelled }
    have open_ := unchanged_open same read
    exact .goesOn (written.final open_) (written.listed listed rfl (.inr absent)) trivial
  | removePending orderID =>
    refine .returns (.refl s) ⟨fun id member => ?_,listed.nodup.erase orderID⟩
    exact listed.live id (mem_of_mem_erase member)
  | handleQuote => exact .goesOn (.refl s) listed (getPendingOrders_live listed)
  | quoteLoop orders quote =>
    cases orders with
    | nil => exact .returns (.refl s) listed
    | cons order orders =>
      obtain ⟨live,others⟩ := forall_mem_cons.mp read
      obtain passed | tried | ⟨marked,moved,sameID,sameStatus,tried⟩ := quoteLoop_cases order orders quote answer
      · exact passed ▸ .goesOn (.refl s) listed others
      · exact tried ▸ .goesOn (.refl s) listed ⟨live,others⟩
      · have same := of_decide_eq_true met moved
        have written := written_updateOrder s marked
        have markedLive : marked.status.isLive = true := by rw [sameStatus]; exact live
        rw [tried]
        refine .goesOn (written.final ?_) (written.listed listed rfl (.inl markedLive)) ⟨markedLive,others⟩
        rw [sameID]
        exact unchanged_open same live
  | fill order =>
    obtain ⟨live,others⟩ := read
    simp only [step,advance]
    split
    next fills =>
      have same : s.unchanged order = true := of_decide_eq_true met fills
      obtain ⟨written,list⟩ := written_updateOrderStatus .filled (unchanged_stored same)
      exact .goesOn (written.final (unchanged_open same live)) (written.delisted listed list) others
    · exact .goesOn (.refl s) listed others
  | book => exact .goesOn (fun _ _ found _ => found) ⟨listed.live,listed.nodup⟩ read
  | syncLoop pending =>
    cases pending with
    | nil => exact .returns (.refl s) listed
    | cons =>
      simp only [step,advance]
      split <;> exact .goesOn (.refl s) listed trivial
  | writeStatus orderID status =>
    obtain ⟨member,known⟩ := of_decide_eq_true met
    obtain ⟨old,found,live⟩ := listed.live orderID member
    have stored : (s.status orderID).isSome = true := by rw [found]; rfl
    obtain ⟨written,list⟩ := written_updateOrderStatus status stored
    refine .goesOn (written.final fun other there => ?_) ?_ trivial
    · cases found.symm.trans there
      exact Status.isLive.open_ live
    · obtain statusLive | terminal := of_decide_eq_true known
      · rw [Status.isLive.open_ statusLive] at list
        exact written.listed listed list (.inl statusLive)
      · rw [terminal] at list
        exact written.delisted listed list
  | _ =>
    -- The calls that only read; a cancellation goes on with an order it found live.
    simp only [step,advance]
    repeat' split
    all_goals first
      | exact .returns (.refl s) listed
      | exact .goesOn (.refl s) listed trivial
      | exact .goesOn (.refl s) listed read
      | exact .goesOn (.refl s) listed (live_of_uncancellable (by assumption))

theorem calls_keep_listed : (calls config).Keeps undisturbed Listed fun _ call => ReadLive call where
  begins _ call starts _ := by
    cases call with
    | submitOrder _ | cancelOrder _ | handleQuote _ | syncOrderStatus => trivial
    | _ => cases starts
  steps s call answer met listed read := (step_settled met listed read).2
  stable _ _ _ _ _ _ _ read := read

/-- In every run whose writes are undisturbed, an order that is filled, cancelled or rejected
at one point has that status at every later one, and only live orders are listed. -/
theorem terminal_statuses_final (positions : Book String Position) (first second : List (Move Call Answer))
    (orderly : (calls config).Orderly undisturbed ⟨started positions,[]⟩ (first ++ second)) :
    Final (run (calls config).move ⟨started positions,[]⟩ first).shared
        (run (calls config).move ⟨started positions,[]⟩ (first ++ second)).shared ∧
      Along (calls config).move (fun pool => ∀ id ∈ pool.shared.pending,
        ∃ status, pool.shared.status id = some status ∧ status.isLive = true) ⟨started positions,[]⟩ (first ++ second) := by
  have initial : Listed (started positions) := ⟨forall_mem_nil _,nodup_nil⟩
  have linked := calls_keep_listed.linked Final.refl (fun s call answer met listed read =>
    (step_settled met listed read).1) initial orderly
  constructor
  · rw [run_append]
    exact linked.later.run (fun pool => Final.refl pool.shared) fun _ _ _ before after => before.trans after
  · exact (calls_keep_listed.along initial orderly).mono fun _ inv => inv.1.live

def quietQuote : Quote := ⟨"600000",1,10,10,10⟩

def marketBuy : LiveOrder := ⟨"","600000",.long,.market,100,0,0,0,0,0,0,.pending⟩

def obliging : Answer := ⟨false,"ORD-1",0,some "B-1",true,some .submitted⟩

def submission : List (Move Call Answer) :=
  [.call (.submitOrder marketBuy),.advance 0 obliging,.advance 0 obliging,.advance 0 obliging]

def quoteRead : List (Move Call Answer) := [.call (.handleQuote quietQuote),.advance 0 obliging]

def freeOfCost : ExecutionConfig := ⟨0,0⟩

theorem filled_stays_filled :
    Final (run (calls freeOfCost).move ⟨started ∅,[]⟩ (submission ++ quoteRead ++ [.advance 0 obliging,.advance 0 obliging])).shared
      (run (calls freeOfCost).move ⟨started ∅,[]⟩
        (submission ++ quoteRead ++ [.advance 0 obliging,.advance 0 obliging] ++ [.advance 0 obliging,.advance 0 obliging])).shared :=
  (terminal_statuses_final ∅ _ _ (by decide +kernel)).1

/-- The order is cancelled while a quote holds a copy of it; the quote then fills it. -/
theorem cancelled_then_filled :
    (run (calls freeOfCost).move ⟨started ∅,[]⟩ (submission ++ quoteRead ++ [.call (.cancelOrder "B-1"),
      .advance 1 obliging,.advance 1 obliging,.advance 1 obliging,.advance 1 obliging])).shared.status "B-1" =
        some .cancelled ∧
    (run (calls freeOfCost).move ⟨started ∅,[]⟩ (submission ++ quoteRead ++ [.call (.cancelOrder "B-1"),
      .advance 1 obliging,.advance 1 obliging,.advance 1 obliging,.advance 1 obliging,
      .advance 0 obliging,.advance 0 obliging])).shared.status "B-1" = some .filled := by
  decide +kernel

namespace State

def bookings (s : State) (id : String) : ℕ := s.booked.countP fun booking => booking.1 = id

end State

def filledMark (s : State) (id : String) : ℤ := if s.status id = some .filled then 1 else 0

def surplus (id : String) (s : State) : ℤ := s.bookings id - filledMark s id

def awaiting (id : String) : Call → ℤ
  | .book order _ _ => if order.id = id then 1 else 0
  | _ => 0

/-- Fills and write-backs find the order with the status of their copy, not filled; a new order
is unknown; the sync neither reports a fill nor writes over one. -/
def fillsOnlyHere (s : State) (call : Call) (_ : Answer) : Bool :=
  match call with
  | .saveRejected order => s.status order.id = none
  | .saveSubmitted order => s.status order.id = none
  | .saveCancelled order => s.unchanged order
  | .quoteLoop (order :: _) quote => marks order quote → s.unchanged order ∧ order.status ≠ .filled
  | .fill order _ quote => shouldFill order quote → s.unchanged order ∧ order.status ≠ .filled
  | .writeStatus orderID status _ => status ≠ .filled ∧ s.status orderID ≠ some .filled
  | _ => true

def Drafted : Call → Prop
  | .saveRejected order => order.status = .rejected
  | .saveSubmitted order => order.status = .submitted
  | .cancelAtBroker order => order.status.isLive = true
  | .saveCancelled order => order.status.isLive = true
  | _ => True

section
variable (written : Written s key status after) (booked : after.booked = s.booked)
include written booked

theorem surplus_written (id : String) : surplus id after =
      surplus id s + if key = id then filledMark s key - (if status = .filled then 1 else 0) else 0 := by
  simp only [surplus,State.bookings,booked,filledMark,written id]
  split
  next same =>
    subst same
    simp only [Option.some.injEq]
    ring
  · ring

theorem surplus_unfilled (before : s.status key ≠ some .filled) (now : status ≠ .filled) (id : String) :
    surplus id after = surplus id s := by
  rw [surplus_written written booked,filledMark,if_neg before,if_neg now,sub_self,ite_self,add_zero]

end

theorem surplus_updateFromTrade (s : State) (key : String) (trade : Trade) (id : String) :
    surplus id (s.exec (.updateFromTrade key trade)) = surplus id s + if key = id then 1 else 0 := by
  have mark : filledMark (s.exec (.updateFromTrade key trade)) id = filledMark s id := rfl
  rw [surplus,surplus,mark]
  simp only [State.bookings,State.exec,countP_append,countP_singleton,decide_eq_true_eq]
  push_cast
  ring

theorem unchanged_unfilled (same : s.unchanged order = true) (unfilled : order.status ≠ .filled) :
    s.status order.id ≠ some .filled := by
  rw [of_decide_eq_true same]
  exact fun filled => unfilled (Option.some.inj filled)

theorem Status.isLive.unfilled (live : status.isLive = true) : status ≠ .filled := by
  rintro rfl
  cases live

/-- A step changes an order's surplus by the booking its call puts off or makes good, and the
call goes on with orders as it must save them. -/
def Balanced (s : State) (call : Call) (outcome : State × Option Call) : Prop :=
  (∀ id, surplus id outcome.1 + (outcome.2.map (awaiting id)).getD 0 = surplus id s + awaiting id call) ∧
    ∀ rest, outcome.2 = some rest → Drafted rest

theorem Balanced.returns (same : ∀ id, surplus id after = surplus id s) (nothing : ∀ id, awaiting id call = 0) :
    Balanced s call (after,none) := by
  refine ⟨fun id => ?_,by rintro _ ⟨⟩⟩
  rw [same,nothing,map_none,getD_none]

theorem Balanced.goesOn {rest : Call}
    (same : ∀ id, surplus id after + awaiting id rest = surplus id s + awaiting id call) (drafted : Drafted rest) :
    Balanced s call (after,some rest) :=
  ⟨same,fun _ goesOn => Option.some.inj goesOn ▸ drafted⟩

theorem step_balanced (met : fillsOnlyHere s call answer = true) (drafted : Drafted call) :
    Balanced s call (step config s call answer) := by
  cases call with
  | saveRejected order | saveSubmitted order =>
    have unknown : s.status order.id = none := of_decide_eq_true met
    have same := surplus_unfilled (written_saveOrder s order) rfl (by rw [unknown]; exact nofun)
      (by rw [drafted]; exact nofun)
    refine ⟨fun id => congrArg (· + 0) (same id),?_⟩
    rintro _ ⟨⟩ <;> trivial
  | saveCancelled order =>
    have unfilled := unchanged_unfilled met (Status.isLive.unfilled drafted)
    have written := written_saveOrder s { order with status := .cancelled }
    exact .goesOn (fun id => congrArg (· + 0) (surplus_unfilled written rfl unfilled nofun id)) trivial
  | quoteLoop orders quote =>
    cases orders with
    | nil => exact .returns (fun _ => rfl) fun _ => rfl
    | cons order orders =>
      obtain passed | tried | ⟨marked,moved,sameID,sameStatus,tried⟩ := quoteLoop_cases order orders quote answer
      · exact passed ▸ .goesOn (fun _ => rfl) trivial
      · exact tried ▸ .goesOn (fun _ => rfl) trivial
      · obtain ⟨same,unfilled⟩ := of_decide_eq_true met moved
        have before := unchanged_unfilled same unfilled
        rw [← sameID] at before
        rw [← sameStatus] at unfilled
        rw [tried]
        exact .goesOn (fun id => congrArg (· + 0)
          (surplus_unfilled (written_updateOrder s marked) rfl before unfilled id)) trivial
  | fill order =>
    simp only [step,advance]
    split
    next fills =>
      obtain ⟨same,unfilled⟩ := of_decide_eq_true met fills
      have before := unchanged_unfilled same unfilled
      obtain ⟨written,-⟩ := written_updateOrderStatus .filled (unchanged_stored same)
      refine .goesOn (fun id => ?_) trivial
      -- The order turns filled and is not booked yet: the call that goes on owes the booking.
      rw [surplus_written written (booked_updateOrderStatus s order.id .filled),filledMark]
      simp only [awaiting]
      split <;> simp
    · exact .goesOn (fun _ => rfl) trivial
  | book =>
    refine .goesOn (fun id => ?_) trivial
    rw [surplus_updateFromTrade]
    simp only [awaiting,add_zero]
  | syncLoop pending =>
    cases pending with
    | nil => exact .returns (fun _ => rfl) fun _ => rfl
    | cons =>
      simp only [step,advance]
      split <;> exact .goesOn (fun _ => rfl) trivial
  | writeStatus orderID status =>
    obtain ⟨reported,before⟩ := of_decide_eq_true met
    refine .goesOn (fun id => congrArg (· + 0) ?_) trivial
    cases found : s.orders[orderID]? with
    | none =>
      simp only [State.exec,found]
    | some =>
      have stored : (s.status orderID).isSome = true := by rw [State.status,found]; rfl
      exact surplus_unfilled (written_updateOrderStatus status stored).1 (booked_updateOrderStatus s orderID status) before reported id
  | _ =>
    simp only [step,advance]
    repeat' split
    all_goals first
      | exact .returns (fun _ => rfl) fun _ => rfl
      | exact .goesOn (fun _ => rfl) rfl
      | exact .goesOn (fun _ => rfl) trivial
      | exact .goesOn (fun _ => rfl) drafted
      | exact .goesOn (fun _ => rfl) (live_of_uncancellable (by assumption))

theorem calls_keep_drafts : (calls config).Keeps fillsOnlyHere (fun _ => True) fun _ call => Drafted call where
  begins _ call starts _ := by
    cases call with
    | submitOrder _ | cancelOrder _ | handleQuote _ | syncOrderStatus => trivial
    | _ => cases starts
  steps _ _ _ met _ drafted := ⟨trivial,(step_balanced met drafted).2⟩
  stable _ _ _ _ _ _ _ drafted := drafted

/-- In every run that fills orders only from quotes, and only orders not filled yet, an order
has one booking if it is filled and none otherwise, whenever no call is in flight. -/
theorem filled_booked_once (positions : Book String Position) {moves : List (Move Call Answer)}
    (orderly : (calls config).Orderly fillsOnlyHere ⟨started positions,[]⟩ moves) (id : String) :
    Along (calls config).move (fun pool => pool.calls = [] →
      pool.shared.bookings id = if pool.shared.status id = some .filled then 1 else 0) ⟨started positions,[]⟩ moves := by
  have conserved := calls_keep_drafts.conserved (surplus id) (awaiting id) ?_
    (fun _ _ _ met _ drafted => (step_balanced met drafted).1 id) trivial orderly
  · refine conserved.mono fun pool same quiescent => ?_
    have nothing : surplus id (started positions) = 0 := rfl
    rw [Pool.measure,quiescent,map_nil,sum_nil,add_zero,nothing,surplus,sub_eq_zero,filledMark] at same
    split at same
    next filled =>
      rw [if_pos filled]
      exact_mod_cast same
    next unfilled =>
      rw [if_neg unfilled]
      exact_mod_cast same
  · intro call starts
    cases call with
    | submitOrder _ | cancelOrder _ | handleQuote _ | syncOrderStatus => rfl
    | _ => cases starts

def quoteFill : List (Move Call Answer) :=
  [.advance 0 obliging,.advance 0 obliging,.advance 0 obliging,.advance 0 obliging]

theorem quoteFill_booked_once : Along (calls freeOfCost).move (fun pool => pool.calls = [] →
      pool.shared.bookings "B-1" = if pool.shared.status "B-1" = some .filled then 1 else 0) ⟨started ∅,[]⟩
      (submission ++ quoteRead ++ quoteFill) :=
  filled_booked_once ∅ (by decide +kernel) "B-1"

/-- The broker reports the fill to the sync: the order is filled and never booked. -/
theorem syncedFill_unbooked :
    let last := run (calls freeOfCost).move ⟨started ∅,[]⟩ (submission ++ [.call .syncOrderStatus,.advance 0 obliging,
      .advance 0 { obliging with brokerStatus := some .filled },.advance 0 obliging,.advance 0 obliging])
    last.calls.isEmpty = true ∧ last.shared.status "B-1" = some .filled ∧ last.shared.bookings "B-1" = 0 := by
  decide +kernel

end QuantTrading.LiveEngine
