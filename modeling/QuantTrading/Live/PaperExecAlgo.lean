import QuantTrading.ExecAlgo.Dispatch
import QuantTrading.Library.Outcome
import QuantTrading.Live.StockState

/-! Execution algorithms in a paper session. A signal trades at once or attaches a parent order,
whose slices are submitted as they fall due; before that, the session compares the trader's
positions with what its parents have filled and cancels the parents of a symbol whose position
was cut back. Others may trade on the trader, or flatten it, between any two calls.
-/
namespace QuantTrading
open Library ExecAlgo List

structure PaperFill where
  date : Time
  symbol : String
  side : Direction
  (qty price fee : ℚ)
deriving DecidableEq

/-- A session in its replay; `due` are the slices handed out and not submitted yet. -/
structure PaperSession where
  trader : MockTrader
  execAlgo : Dispatcher
  currentBars : Book String Quote
  due : List DueChild
  fills : List PaperFill

inductive AttachRefusal where
  | calledWithoutExecAlgo
  | rejected (cause : AttachError)
deriving DecidableEq

namespace PaperSession

def newPaperSession (trader : MockTrader) : PaperSession := ⟨trader,.newDispatcher,∅,[],[]⟩

variable (s : PaperSession) (sig : Signal)

def setCurrentBars (bars : Book String Quote) : PaperSession :=
  { s with currentBars := bars, trader := { s.trader with barProvider := some fun symbol => bars[symbol]? } }

def signalQuantity (strength : ℚ) : ℚ :=
  if strength > 0 then
    let scaled := if strength * 10 > 1 then strength * 10 else 1
    if 100 * scaled > 10000 then 10000 else 100 * scaled
  else 100

def orderPrice (symbol : String) (orderType : OrderType) (limitPrice : ℚ) : ℚ :=
  if orderType = .limit then
    if limitPrice ≤ 0 then ((s.currentBars[symbol]?).map (·.close)).getD limitPrice else limitPrice
  else 0

def paperFill (d : Time) (symbol : String) (result : OrderResult) : PaperFill where
  date := d
  symbol := symbol
  side := result.direction
  qty := result.filledQty
  price := if result.fillPrice ≤ 0 then result.price else result.fillPrice
  fee := result.fee

def executeSignal (d : Time) (sig : Signal) : Except SubmitError PaperFill × PaperSession :=
  let price := s.orderPrice sig.symbol sig.orderType sig.limitPrice
  let (answer,trader) :=
    s.trader.submitOrder sig.symbol sig.direction sig.orderType (signalQuantity sig.strength) price
  (answer.map (paperFill d sig.symbol),{ s with trader := trader })

def execAlgoParentID (date : Time) (symbol : String) (dir : Direction) : ParentId := ⟨date.truncateDay,symbol,dir⟩

def attachSpec (d : Time) : AttachSpec :=
  let (n,stop) := resolveExecWindow d sig.execSlices sig.execProfile
  { parentId := execAlgoParentID d sig.symbol sig.direction
    symbol := sig.symbol
    side := sig.direction
    qty := signalQuantity sig.strength
    limitPrice := sig.limitPrice
    style := sig.execAlgo
    slices := n
    profile := sig.execProfile
    orderType := sig.orderType
    startAt := d
    endAt := stop }

def attachExecAlgo (d : Time) : Except AttachRefusal PaperSession :=
  if sig.execAlgo = .unset then .error .calledWithoutExecAlgo
  else match s.execAlgo.attach (attachSpec sig d) with
    | .error cause => .error (.rejected cause)
    | .ok execAlgo => .ok { s with execAlgo := execAlgo }

/-- One signal of the day. An order that is rejected is skipped, a parent that is rejected ends
the replay. -/
def processSignal (d : Time) (sig : Signal) : Except AttachRefusal PaperSession :=
  if sig.execAlgo ≠ .unset then s.attachExecAlgo sig d
  else match s.executeSignal d sig with
    | (.error _,s) => .ok s
    | (.ok fill,s) => .ok { s with fills := s.fills ++ [fill] }

def paperReconcileTolerance : ℚ := 1/1000000

def cancelExecAlgoParentsForSymbol (d : Dispatcher) (symbol : String) : Dispatcher :=
  if d.len = 0 then d else d.cancelSymbol symbol

def drifted (held : Book String ℚ) (p : ParentRun) : Bool :=
  let h := (held[p.spec.symbol]?).getD 0
  match p.spec.side with
  | .long => h < p.filled - paperReconcileTolerance
  | .short => h > -p.filled + paperReconcileTolerance
  | .close | .hold => false

def reconcileExternalPositionChanges : PaperSession :=
  if s.execAlgo.len = 0 then s
  else
    let held := posBySymbol s.trader.getPositions
    { s with
      execAlgo := s.execAlgo.activeParents.foldl (fun d p =>
        if drifted held p then cancelExecAlgoParentsForSymbol d p.spec.symbol else d) s.execAlgo }

def submitExecAlgoChild (d : Time) (dc : DueChild) : Option PaperFill × PaperSession :=
  let price := s.orderPrice dc.child.symbol dc.orderType dc.child.limitPrice
  match s.trader.submitOrder dc.child.symbol dc.child.side dc.orderType dc.child.qty price with
  | (.error _,trader) => (none,{ s with trader := trader })
  | (.ok result,trader) =>
    match s.execAlgo.onFill dc.child.orderId result.filledQty with
    | none => (none,{ s with trader := trader })
    | some execAlgo => (some (paperFill d dc.child.symbol result),{ s with trader := trader, execAlgo := execAlgo })

def takeDue (symbol : String) : PaperSession :=
  match s.currentBars[symbol]? with
  | none => s
  | some q =>
    let (due,execAlgo) := s.execAlgo.onBar q.symbol q.date
    { s with due := s.due ++ due, execAlgo := execAlgo }

def submitNext (d : Time) : PaperSession :=
  match s.due with
  | [] => s
  | dc :: rest =>
    let (fill,s) := { s with due := rest }.submitExecAlgoChild d dc
    { s with fills := s.fills ++ fill.toList }

def dispatchExecAlgoChildren (d : Time) : PaperSession :=
  if s.execAlgo.len = 0 then s
  else
    let s := s.reconcileExternalPositionChanges
    if s.execAlgo.len = 0 then s
    else s.execAlgo.symbols.foldl (fun s symbol =>
      let s := s.takeDue symbol
      s.due.foldl (fun s _ => s.submitNext d) s) s

def advanceDay (s : PaperSession) : PaperSession := { s with trader := s.trader.advanceDay }

def tradingDay (d : Time) (bars : Book String Quote) (signals : List Signal) : Except AttachRefusal PaperSession :=
  match signals.foldlM (fun s sig => s.processSignal d sig) (s.setCurrentBars bars) with
  | .error refusal => .error refusal
  | .ok s => .ok (s.dispatchExecAlgoChildren d).advanceDay

inductive Outside where
  | order (symbol : String) (direction : Direction) (orderType : OrderType) (quantity price : ℚ)
  | emergencyFlatten

def Outside.apply (m : MockTrader) : Outside → MockTrader
  | order symbol direction orderType quantity price => (m.submitOrder symbol direction orderType quantity price).2
  | emergencyFlatten => m.emergencyFlatten.2

inductive PaperEvent where
  | bars (bars : Book String Quote)
  | signal (d : Time) (sig : Signal)
  | reconcile
  | onBar (symbol : String)
  | child (d : Time)
  | advanceDay
  | outside (action : Outside)

def PaperEvent.own : PaperEvent → Bool
  | outside _ => false
  | _ => true

def step : PaperEvent → PaperSession
  | .bars bars => s.setCurrentBars bars
  | .signal d sig => (s.processSignal d sig).toOption.getD s
  | .reconcile => s.reconcileExternalPositionChanges
  | .onBar symbol => s.takeDue symbol
  | .child d => s.submitNext d
  | .advanceDay => s.advanceDay
  | .outside action => { s with trader := action.apply s.trader }

theorem leads_event (event : PaperEvent) (own : event.own = true) :
    Leads step PaperEvent.own s (step s event) := .single event own s

theorem processSignal_leads {s s' : PaperSession} {d : Time} {sig : Signal} (processed : s.processSignal d sig = .ok s') :
    Leads step PaperEvent.own s s' := by
  have once : step s (.signal d sig) = s' := by simp [step,processed,Except.toOption]
  exact once ▸ leads_event s (.signal d sig) rfl

theorem dispatchExecAlgoChildren_leads (d : Time) :
    Leads step PaperEvent.own s (s.dispatchExecAlgoChildren d) := by
  unfold dispatchExecAlgoChildren
  split
  · exact .refl s
  have reconciled := leads_event s .reconcile rfl
  dsimp only
  split
  · exact reconciled
  refine reconciled.trans _ _ _ (.foldl (fun s symbol => ?_) _ _)
  have taken := leads_event s (.onBar symbol) rfl
  exact taken.trans _ _ _ (.foldl (fun s _ => leads_event s (.child d) rfl) _ _)

theorem tradingDay_leads {s s' : PaperSession} {d : Time} {bars : Book String Quote} {signals : List Signal}
    (traded : s.tradingDay d bars signals = .ok s') : Leads step PaperEvent.own s s' := by
  unfold tradingDay at traded
  split at traded
  · cases traded
  rename_i processed looped
  cases traded
  have opened := leads_event s (.bars bars) rfl
  have signalled : Leads step PaperEvent.own (s.setCurrentBars bars) processed :=
    foldlM_relates Leads.refl Leads.trans (fun _ _ _ _ => processSignal_leads) looped
  have dispatched := dispatchExecAlgoChildren_leads processed d
  exact (opened.trans _ _ _ signalled).trans _ _ _ (dispatched.trans _ _ _ (leads_event _ .advanceDay rfl))

end PaperSession

namespace MockTrader
variable {m : MockTrader}

def held (m : MockTrader) (symbol : String) : ℚ := ((m.positions[symbol]?).map (·.quantity)).getD 0

def sellable (m : MockTrader) (symbol : String) : ℚ := ((m.positions[symbol]?).map (·.quantityYesterday)).getD 0

def NoShorts (m : MockTrader) : Prop := m.positions.All fun _ pos => 0 < pos.quantity

theorem NoShorts.held_nonneg (long : m.NoShorts) (symbol : String) : 0 ≤ m.held symbol := by
  unfold held
  cases found : m.positions[symbol]? with
  | none => rfl
  | some pos => exact (long symbol pos found).le

theorem NoShorts.emergencyFlatten (long : m.NoShorts) : m.emergencyFlatten.2.NoShorts := by
  intro symbol pos found
  rw [m.emergencyFlatten_spec.2.1] at found
  split at found
  · cases found
  · exact long symbol pos found

theorem rollOver_quantity (pos : PositionInfo) : (rollOver pos).quantity = pos.quantity := by
  unfold rollOver
  split <;> rfl

theorem NoShorts.advanceDay (long : m.NoShorts) : m.advanceDay.NoShorts :=
  Book.All.map long _ fun _ pos positive => (rollOver_quantity pos).symm ▸ positive

theorem held_advanceDay (m : MockTrader) (symbol : String) : m.advanceDay.held symbol = m.held symbol := by
  unfold held advanceDay
  rw [Book.get_map,Option.map_map]
  congr 2
  funext pos
  exact rollOver_quantity pos

inductive Ordered (m : MockTrader) (symbol : String) (direction : Direction) (quantity : ℚ) :
    Except SubmitError OrderResult × MockTrader → Prop
  | rejected (error : SubmitError) : Ordered m symbol direction quantity (.error error,m)
  | bought {result : OrderResult} {after : MockTrader} (long : direction = .long) (positive : 0 < quantity)
      (filled : result.filledQty = quantity) (kept : m.NoShorts → after.NoShorts)
      (held : ∀ other, after.held other = if symbol = other then m.held other + quantity else m.held other) :
      Ordered m symbol direction quantity (.ok result,after)
  | sold {result : OrderResult} {after : MockTrader} (close : direction = .close) (kept : m.NoShorts → after.NoShorts)
      (left : m.held symbol - min quantity (m.sellable symbol) ≤ after.held symbol)
      (others : ∀ other, symbol ≠ other → after.held other = m.held other) :
      Ordered m symbol direction quantity (.ok result,after)

section
variable (m : MockTrader) (symbol : String)

theorem executeBuy_ordered (orderType : OrderType) {quantity : ℚ} (execPrice : ℚ) (positive : 0 < quantity) :
    Ordered m symbol .long quantity (m.executeBuy symbol orderType quantity execPrice) := by
  simp only [executeBuy]
  split
  · exact .rejected _
  refine .bought rfl positive rfl (fun long => ?_) fun other => ?_
  · refine Book.All.put long symbol _ fun pos same => ?_
    rw [← Option.some.inj same]
    cases found : m.positions[symbol]? with
    | none => exact positive
    | some existing => exact add_pos (long symbol existing found) positive
  · simp only [held,Book.get_put]
    split
    next same =>
      subst same
      cases m.positions[symbol]? with
      | none => simp [bought]
      | some => rfl
    · rfl

theorem executeSell_ordered (orderType : OrderType) (quantity execPrice : ℚ) :
    Ordered m symbol .close quantity (m.executeSell symbol orderType quantity execPrice) := by
  simp only [executeSell]
  split
  · exact .rejected _
  rename_i pos found
  iterate 2 (split; · exact .rejected _)
  have capped : (if quantity > pos.quantityYesterday then pos.quantityYesterday else quantity) =
      min quantity pos.quantityYesterday := by
    rw [min_comm,min_def_lt]
  rw [capped]
  refine .sold rfl (fun long => ?_) ?_ fun other different => ?_
  · refine Book.All.put long symbol _ fun left same => ?_
    obtain ⟨some_,kept⟩ := Option.ite_none_left_eq_some.mp same
    rw [← Option.some.inj kept]
    exact not_le.mp some_
  · simp only [held,sellable,found,Book.get_put_self,map_some,getD_some,sold]
    split
    · assumption
    · rfl
  · simp only [held,Book.get_put,if_neg different]

theorem submitOrder_ordered (direction : Direction) (orderType : OrderType) (quantity price : ℚ) :
    Ordered m symbol direction quantity (m.submitOrder symbol direction orderType quantity price) := by
  simp only [submitOrder]
  split_ifs with none_
  · exact .rejected _
  · exact .rejected _
  · exact .rejected _
  · cases direction with
    | long => exact executeBuy_ordered m symbol orderType _ (not_le.mp none_)
    | close => exact executeSell_ordered m symbol orderType quantity _
    | _ => exact .rejected _

end

namespace Ordered
variable {symbol : String} {direction : Direction} {quantity : ℚ} {answer : Except SubmitError OrderResult × MockTrader}

theorem noShorts (ordered : Ordered m symbol direction quantity answer) (long : m.NoShorts) : answer.2.NoShorts := by
  cases ordered with
  | rejected => exact long
  | bought _ _ _ kept _ | sold _ kept _ _ => exact kept long

theorem covers (ordered : Ordered m symbol direction quantity answer) {amount : ℚ} {other : String}
    (covered : amount ≤ m.held other)
    (spared : direction = .close → symbol = other → amount ≤ m.held other - min quantity (m.sellable other)) :
    amount ≤ answer.2.held other := by
  cases ordered with
  | rejected => exact covered
  | bought _ positive _ _ held =>
    rw [held]
    split
    · linarith
    · exact covered
  | sold close _ left others =>
    by_cases same : symbol = other
    · subst same
      exact (spared close rfl).trans left
    · rw [others other same]
      exact covered

end Ordered
end MockTrader

namespace PaperSession
variable {s : PaperSession} {parent : ParentId}

def Labelled (d : Dispatcher) : Prop :=
  ∀ order ∈ d.parents, order.spec.symbol = order.spec.parentId.symbol ∧ order.spec.side = order.spec.parentId.side

variable {d : Dispatcher} {sig : Signal}

theorem Labelled.map (labelled : Labelled d) (f : ParentRun → ParentRun)
    (kept : ∀ order, (f order).spec = order.spec) : Labelled ⟨d.parents.map f⟩ := by
  intro order mapped
  obtain ⟨before,member,rfl⟩ := mem_map.mp mapped
  rw [kept]
  exact labelled before member

theorem Labelled.cancelSymbol (labelled : Labelled d) (symbol : String) : Labelled (d.cancelSymbol symbol) :=
  labelled.map _ fun order => by split <;> rfl

theorem Labelled.onFill {d' : Dispatcher} {child : ChildId} {qty : ℚ} (labelled : Labelled d)
    (told : d.onFill child qty = some d') : Labelled d' := by
  have mapped := labelled.map (fun run => if run.spec.parentId = child.parent then { run with filled := run.filled + qty } else run)
    fun order => by split <;> rfl
  rw [← Dispatcher.onFill_parents told] at mapped
  exact mapped

/-- Positions are long and stored under their symbols, and a parent's number names its symbol and
its side, also on the slices handed out. -/
structure Sound (s : PaperSession) : Prop where
  keyed : s.trader.Keyed
  noShorts : s.trader.NoShorts
  labelled : Labelled s.execAlgo
  due : ∀ dc ∈ s.due, dc.child.symbol = dc.child.orderId.parent.symbol ∧ dc.child.side = dc.child.orderId.parent.side

theorem newPaperSession_sound (config : MockTraderConfig) (sqrt : ℚ → ℚ) :
    (newPaperSession (.newMockTrader config sqrt)).Sound :=
  ⟨MockTrader.newMockTrader_keyed config sqrt,Book.all_empty _,forall_mem_nil _,
    forall_mem_nil _⟩

theorem Sound.submitted (sound : s.Sound) (symbol : String) (direction : Direction) (orderType : OrderType) (quantity price : ℚ) :
    { s with trader := (s.trader.submitOrder symbol direction orderType quantity price).2 }.Sound :=
  ⟨MockTrader.submitOrder_keyed sound.keyed _ _ _ _ _,(MockTrader.submitOrder_ordered _ _ _ _ _ _).noShorts sound.noShorts,
    sound.labelled,sound.due⟩

theorem Sound.outside (sound : s.Sound) (action : Outside) : { s with trader := action.apply s.trader }.Sound := by
  cases action with
  | order symbol direction orderType quantity price => exact sound.submitted symbol direction orderType quantity price
  | emergencyFlatten =>
    exact ⟨MockTrader.emergencyFlatten_keyed sound.keyed,sound.noShorts.emergencyFlatten,sound.labelled,sound.due⟩

variable {d : Time} {order : ParentRun}

theorem attachExecAlgo_attached {s' : PaperSession} (ok : s.attachExecAlgo sig d = .ok s') :
    ∃ run execAlgo, Dispatcher.Attached s.execAlgo (attachSpec sig d) run execAlgo ∧ s' = { s with execAlgo := execAlgo } := by
  unfold attachExecAlgo at ok
  iterate 2 (split at ok; · cases ok)
  rename_i execAlgo accepted
  cases ok
  obtain ⟨run,attached⟩ := Dispatcher.attach_ok accepted
  exact ⟨run,execAlgo,attached,rfl⟩

section
variable (s : PaperSession)

theorem step_signal_cases (d : Time) (sig : Signal) : step s (.signal d sig) = s ∨
    (∃ run execAlgo, Dispatcher.Attached s.execAlgo (attachSpec sig d) run execAlgo ∧
      step s (.signal d sig) = { s with execAlgo := execAlgo }) ∨
    (sig.execAlgo = .unset ∧ ∃ fills, step s (.signal d sig) = { s with
      trader := (s.trader.submitOrder sig.symbol sig.direction sig.orderType (signalQuantity sig.strength)
        (s.orderPrice sig.symbol sig.orderType sig.limitPrice)).2
      fills := fills }) := by
  simp only [step,processSignal]
  split
  · cases answer : s.attachExecAlgo sig d with
    | error => exact .inl rfl
    | ok =>
      obtain ⟨run,execAlgo,attached,same⟩ := attachExecAlgo_attached answer
      exact .inr (.inl ⟨run,execAlgo,attached,same⟩)
  next plain =>
    refine .inr (.inr ⟨not_not.mp plain,?_⟩)
    simp only [executeSignal]
    cases (s.trader.submitOrder sig.symbol sig.direction sig.orderType (signalQuantity sig.strength)
        (s.orderPrice sig.symbol sig.orderType sig.limitPrice)).1 with
    | error _ => exact ⟨s.fills,rfl⟩
    | ok result => exact ⟨_,rfl⟩

/-- The dispatcher after a slice was submitted: the fill is reported if there was one. -/
def Told (s : PaperSession) (dc : DueChild) (price : ℚ) (execAlgo : Dispatcher) : Prop :=
  execAlgo = s.execAlgo ∨ ∃ result,
    (s.trader.submitOrder dc.child.symbol dc.child.side dc.orderType dc.child.qty price).1 = .ok result ∧
      s.execAlgo.onFill dc.child.orderId result.filledQty = some execAlgo

theorem submitExecAlgoChild_cases (d : Time) (dc : DueChild) : ∃ price fill execAlgo, Told s dc price execAlgo ∧
    s.submitExecAlgoChild d dc = (fill,{ s with
      execAlgo := execAlgo
      trader := (s.trader.submitOrder dc.child.symbol dc.child.side dc.orderType dc.child.qty price).2 }) := by
  refine ⟨s.orderPrice dc.child.symbol dc.orderType dc.child.limitPrice,?_⟩
  unfold Told submitExecAlgoChild
  dsimp only
  rcases s.trader.submitOrder dc.child.symbol dc.child.side dc.orderType dc.child.qty _ with ⟨answer,trader⟩
  cases answer with
  | error _ => exact ⟨none,_,.inl rfl,rfl⟩
  | ok result =>
    dsimp only
    cases told : s.execAlgo.onFill dc.child.orderId result.filledQty with
    | none => exact ⟨none,_,.inl rfl,rfl⟩
    | some execAlgo => exact ⟨some (paperFill d dc.child.symbol result),execAlgo,.inr ⟨result,rfl,told⟩,rfl⟩

theorem step_child_cases (d : Time) : step s (.child d) = s ∨ ∃ dc rest price fills execAlgo,
    s.due = dc :: rest ∧ Told s dc price execAlgo ∧ step s (.child d) = { s with
      due := rest
      fills := fills
      execAlgo := execAlgo
      trader := (s.trader.submitOrder dc.child.symbol dc.child.side dc.orderType dc.child.qty price).2 } := by
  cases due : s.due with
  | nil => exact .inl (by simp only [step,submitNext,due])
  | cons dc rest =>
    obtain ⟨price,fill,execAlgo,told,same⟩ := { s with due := rest }.submitExecAlgoChild_cases d dc
    exact .inr ⟨dc,rest,price,s.fills ++ fill.toList,execAlgo,rfl,told,by simp only [step,submitNext,due,same]⟩

theorem takeDue_cases (symbol : String) : s.takeDue symbol = s ∨ ∃ q : Quote, s.takeDue symbol = { s with
      due := s.due ++ (s.execAlgo.onBar q.symbol q.date).1
      execAlgo := (s.execAlgo.onBar q.symbol q.date).2 } := by
  unfold takeDue
  split
  · exact .inl rfl
  · exact .inr ⟨_,rfl⟩

end

theorem Sound.takeDue (sound : s.Sound) (symbol : String) : (s.takeDue symbol).Sound := by
  rcases s.takeDue_cases symbol with same | ⟨q,same⟩
  · rw [same]
    exact sound
  · rw [same]
    refine ⟨sound.keyed,sound.noShorts,sound.labelled.map _ fun order => by split <;> rfl,fun dc member => ?_⟩
    rcases mem_append.mp member with earlier | due
    · exact sound.due dc earlier
    · obtain ⟨order,attached,-,-,planned,named⟩ := Dispatcher.due_slice due
      obtain ⟨symbol,side,-⟩ := order.addressed dc.child planned
      rw [symbol,side,← named]
      exact sound.labelled order attached

theorem Sound.reconcile (sound : s.Sound) : s.reconcileExternalPositionChanges.Sound := by
  unfold reconcileExternalPositionChanges
  split
  · exact sound
  refine ⟨sound.keyed,sound.noShorts,?_,sound.due⟩
  refine foldlRecOn _ _ sound.labelled fun d labelled p _ => ?_
  unfold cancelExecAlgoParentsForSymbol
  split
  · split
    · exact labelled
    · exact labelled.cancelSymbol _
  · exact labelled

theorem Sound.event (sound : s.Sound) (event : PaperEvent) : (step s event).Sound := by
  cases event with
  | bars => exact ⟨sound.keyed,sound.noShorts,sound.labelled,sound.due⟩
  | signal d sig =>
    rcases s.step_signal_cases d sig with same | ⟨run,execAlgo,attached,same⟩ | ⟨-,fills,same⟩
    · rw [same]
      exact sound
    · rw [same]
      refine ⟨sound.keyed,sound.noShorts,fun order member => ?_,sound.due⟩
      rcases (Dispatcher.mem_attached attached).mp member with rfl | earlier
      · rw [attached.asked]
        exact ⟨rfl,rfl⟩
      · exact sound.labelled order earlier
    · rw [same]
      exact ⟨(sound.submitted _ _ _ _ _).keyed,(sound.submitted _ _ _ _ _).noShorts,sound.labelled,sound.due⟩
  | reconcile => exact sound.reconcile
  | onBar symbol => exact sound.takeDue symbol
  | child d =>
    rcases s.step_child_cases d with same | ⟨dc,rest,price,fills,execAlgo,due,told,same⟩
    · rw [same]
      exact sound
    · have later : ∀ dc ∈ rest, _ := fun dc member => sound.due dc (due ▸ mem_cons_of_mem _ member)
      rw [same]
      refine ⟨(sound.submitted _ _ _ _ _).keyed,(sound.submitted _ _ _ _ _).noShorts,?_,later⟩
      rcases told with rfl | ⟨result,-,told⟩
      · exact sound.labelled
      · exact sound.labelled.onFill told
  | advanceDay =>
    exact ⟨MockTrader.advanceDay_keyed sound.keyed,sound.noShorts.advanceDay,sound.labelled,sound.due⟩
  | outside action => exact sound.outside action

def reduces (parent : ParentId) (s : PaperSession) : PaperEvent → Bool
  | .outside action => (s.execAlgo.lookup parent).any fun order =>
      let after := (action.apply s.trader).held order.spec.symbol
      after < s.trader.held order.spec.symbol ∧ after < order.filled
  | _ => false

/-- Every reconciliation of the history that cancels an unfinished Long parent comes after a cut of
the position below what that parent had filled. -/
def CancelsOnlyReduced (start : PaperSession) (history : List PaperEvent) : Prop :=
  ∀ before rest, history = before ++ .reconcile :: rest → ∀ parent order,
    (run step start before).execAlgo.lookup parent = some order → order.spec.side = .long → cancellable order = true →
      ((step (run step start before) .reconcile).execAlgo.lookup parent).any (·.cancelled) = true →
        0 < tally step (reduces parent) start before

def Spares (s : PaperSession) (symbol : String) (quantity : ℚ) : Prop :=
  ∀ order ∈ s.execAlgo.parents, order.spec.symbol = symbol → order.spec.side = .long → cancellable order = true →
    order.filled ≤ s.trader.held symbol → order.filled ≤ s.trader.held symbol - min quantity (s.trader.sellable symbol)

def Stands (held : ℚ) (order : ParentRun) : Prop :=
  (order.spec.side = .long → order.filled - paperReconcileTolerance ≤ held) ∧
    (order.spec.side = .short → held ≤ -order.filled + paperReconcileTolerance)

def OthersStand (s : PaperSession) : Prop :=
  ∀ order ∈ s.execAlgo.parents, order.spec.side = .long → cancellable order = true →
    ∀ other ∈ s.execAlgo.parents, other ≠ order → other.cancelled = false → other.spec.symbol = order.spec.symbol →
      Stands (s.trader.held other.spec.symbol) other

def meets (s : PaperSession) : PaperEvent → Prop
  | .signal _ sig => sig.execAlgo = .unset → sig.direction = .close → s.Spares sig.symbol (signalQuantity sig.strength)
  | .child _ => ∀ dc ∈ s.due.head?, dc.child.side = .close → s.Spares dc.child.symbol dc.child.qty
  | .reconcile => s.OthersStand
  | _ => True

instance (s : PaperSession) (symbol : String) (quantity : ℚ) : Decidable (s.Spares symbol quantity) := by
  unfold Spares
  infer_instance

instance (held : ℚ) (order : ParentRun) : Decidable (Stands held order) := by
  unfold Stands
  infer_instance

instance (s : PaperSession) : Decidable s.OthersStand := by
  unfold OthersStand
  infer_instance

instance decidableMeets (s : PaperSession) : (event : PaperEvent) → Decidable (meets s event)
  | .signal _ sig => inferInstanceAs (Decidable (sig.execAlgo = .unset → sig.direction = .close →
      s.Spares sig.symbol (signalQuantity sig.strength)))
  | .child _ => inferInstanceAs (Decidable (∀ dc ∈ s.due.head?, dc.child.side = .close →
      s.Spares dc.child.symbol dc.child.qty))
  | .reconcile => inferInstanceAs (Decidable s.OthersStand)
  | .bars _ | .onBar _ | .advanceDay | .outside _ => isTrue trivial

def Backed (parent : ParentId) (s : PaperSession) : Prop :=
  ∀ order, s.execAlgo.lookup parent = some order → order.spec.side = .long → cancellable order = true →
    order.filled ≤ s.trader.held order.spec.symbol

theorem Spares.covers {symbol : String} {direction : Direction} {quantity : ℚ}
    {answer : Except SubmitError OrderResult × MockTrader} (spares : direction = .close → s.Spares symbol quantity)
    (ordered : MockTrader.Ordered s.trader symbol direction quantity answer)
    (found : s.execAlgo.lookup parent = some order) (long : order.spec.side = .long) (open_ : cancellable order = true)
    (covered : order.filled ≤ s.trader.held order.spec.symbol) : order.filled ≤ answer.2.held order.spec.symbol := by
  refine ordered.covers covered fun close own => ?_
  subst own
  exact spares close order (mem_of_find?_eq_some found) rfl long open_ covered

theorem Backed.signal (sound : s.Sound) (backed : Backed parent s)
    (meeting : meets s (.signal d sig)) : Backed parent (step s (.signal d sig)) := by
  rcases s.step_signal_cases d sig with same | ⟨run,execAlgo,attached,same⟩ | ⟨plain,fills,same⟩
  · rw [same]
    exact backed
  · rw [same]
    intro order found long open_
    rw [Dispatcher.lookup_attached attached] at found
    split at found
    · cases found
      rw [attached.filled]
      exact sound.noShorts.held_nonneg _
    · exact backed order found long open_
  · rw [same]
    exact fun order found long open_ => Spares.covers (meeting plain) (s.trader.submitOrder_ordered _ _ _ _ _) found long
      open_ (backed order found long open_)

theorem cancellable_of_filled {qty : ℚ} (positive : 0 < qty)
    (open_ : cancellable { order with filled := order.filled + qty } = true) : cancellable order = true := by
  simp only [cancellable,decide_eq_true_eq] at open_ ⊢
  exact ⟨open_.1,by linarith [open_.2]⟩

theorem Backed.child (sound : s.Sound) (backed : Backed parent s) (meeting : meets s (.child d)) :
    Backed parent (step s (.child d)) := by
  rcases s.step_child_cases d with same | ⟨dc,rest,price,fills,execAlgo,due,told,same⟩
  · rw [same]
    exact backed
  · have ordered := s.trader.submitOrder_ordered dc.child.symbol dc.child.side dc.orderType dc.child.qty price
    have spares := meeting dc (by rw [due]; rfl)
    obtain ⟨symbol,side⟩ := sound.due dc (due ▸ mem_cons_self)
    rw [same]
    rcases told with rfl | ⟨result,answer,told⟩
    · exact fun order found long open_ => Spares.covers spares ordered found long open_ (backed order found long open_)
    · intro order found long open_
      rw [Dispatcher.lookup_onFill told] at found
      obtain ⟨before,present,rfl⟩ := map_eq_some_iff.mp found
      by_cases own : before.spec.parentId = dc.child.orderId.parent
      · rw [if_pos own] at long open_ ⊢
        obtain ⟨label,labelled⟩ := sound.labelled before (mem_of_find?_eq_some present)
        generalize s.trader.submitOrder dc.child.symbol dc.child.side dc.orderType dc.child.qty price = outcome at *
        -- The slice goes the parent's way, so a Long parent's slice that filled was bought.
        cases ordered with
        | rejected => cases answer
        | bought _ positive filled _ held =>
          cases answer
          rw [filled] at open_ ⊢
          have covered := backed before present long (cancellable_of_filled positive open_)
          rw [held,if_pos (by rw [symbol,← own,← label])]
          exact add_le_add_left covered _
        | sold close =>
          rw [side,← own,← labelled,long] at close
          cases close
      · rw [if_neg own] at long open_ ⊢
        exact Spares.covers spares ordered present long open_ (backed before present long open_)

theorem reconcile_open (found : s.reconcileExternalPositionChanges.execAlgo.lookup parent = some order)
    (open_ : cancellable order = true) : s.execAlgo.lookup parent = some order := by
  unfold reconcileExternalPositionChanges at found
  split at found
  · exact found
  refine foldlRecOn (motive := fun d : Dispatcher => d.lookup parent = some order → s.execAlgo.lookup parent = some order)
    _ _ id (fun d earlier p _ later => earlier ?_) found
  unfold cancelExecAlgoParentsForSymbol at later
  split at later
  · split at later
    · exact later
    rw [Dispatcher.lookup_cancelSymbol] at later
    obtain ⟨before,found,same⟩ := map_eq_some_iff.mp later
    split at same
    · rw [← same] at open_
      simp [cancellable] at open_
    · rw [found,same]
  · exact later

/-- A parent is cancelled by a reconciliation only if a parent of its symbol has drifted. -/
theorem reconcile_kept (found : s.execAlgo.lookup parent = some order)
    (still : ∀ other ∈ s.execAlgo.parents, other.cancelled = false → other.spec.symbol = order.spec.symbol →
      drifted (posBySymbol s.trader.getPositions) other = false) :
    s.reconcileExternalPositionChanges.execAlgo.lookup parent = some order := by
  unfold reconcileExternalPositionChanges
  split
  · exact found
  refine foldlRecOn (motive := fun d : Dispatcher => d.lookup parent = some order) _ _ found fun d kept p active => ?_
  obtain ⟨member,live⟩ := mem_filter.mp active
  split
  next gone =>
    have other : p.spec.symbol ≠ order.spec.symbol := by
      intro same
      rw [still p member (by simpa using live) same] at gone
      cases gone
    unfold cancelExecAlgoParentsForSymbol
    split
    · exact kept
    · rw [Dispatcher.lookup_cancelSymbol,kept,map_some,if_neg fun both => other both.1.symm]
  · exact kept

theorem Stands.not_drifted (keyed : s.trader.Keyed) (stands : Stands (s.trader.held order.spec.symbol) order) :
    drifted (posBySymbol s.trader.getPositions) order = false := by
  unfold drifted
  rw [ForcedLiquidator.posBySymbol_get keyed]
  split
  next long =>
    exact decide_eq_false (not_lt.mpr (stands.1 long))
  next short =>
    exact decide_eq_false (not_lt.mpr (stands.2 short))
  · rfl
  · rfl

theorem Backed.event (sound : s.Sound) (backed : Backed parent s) {event : PaperEvent} (meeting : meets s event)
    (intact : reduces parent s event = false) : Backed parent (step s event) := by
  cases event with
  | bars => exact backed
  | signal => exact backed.signal sound meeting
  | reconcile =>
    intro order found long open_
    have trader : (step s .reconcile).trader = s.trader := by
      rw [step,reconcileExternalPositionChanges]
      split <;> rfl
    rw [trader]
    exact backed order (reconcile_open found open_) long open_
  | onBar symbol =>
    rcases s.takeDue_cases symbol with same | ⟨q,same⟩
    · rw [step,same]
      exact backed
    · intro order found long open_
      rw [step,same,Dispatcher.lookup_onBar] at found
      obtain ⟨before,present,rfl⟩ := map_eq_some_iff.mp found
      have trader : (step s (.onBar symbol)).trader = s.trader := by rw [step,same]
      rw [trader]
      split at long
      next alive =>
        rw [if_pos alive] at open_ ⊢
        exact backed before present long open_
      next idle =>
        rw [if_neg idle] at open_ ⊢
        exact backed before present long open_
  | child => exact backed.child sound meeting
  | advanceDay =>
    intro order found long open_
    rw [step,advanceDay,MockTrader.held_advanceDay]
    exact backed order found long open_
  | outside =>
    intro order found long open_
    have covered := backed order found long open_
    by_contra short
    have found : s.execAlgo.lookup parent = some order := found
    rw [reduces,found] at intact
    have below := not_le.mp short
    exact of_decide_eq_false intact ⟨below.trans_le covered,below⟩

/-- A parent is cancelled only when it was reduced, if no other parent of the symbol has lost its
position when the session reconciles and the session sells no shares that the parent has filled. -/
theorem reconcile_cancels_only_reduced (config : MockTraderConfig) (sqrt : ℚ → ℚ) (history : List PaperEvent)
    (orderly : Guarded step meets (newPaperSession (.newMockTrader config sqrt)) history) :
    CancelsOnlyReduced (newPaperSession (.newMockTrader config sqrt)) history := by
  rintro before rest rfl parent order found long open_ cancelled
  obtain ⟨earlier,stand,-⟩ := guarded_append.mp orderly
  have opened := newPaperSession_sound config sqrt
  have sound : (run step _ before).Sound := run_always (fun _ event sound => sound.event event) opened before
  have empty : Backed parent (newPaperSession (.newMockTrader config sqrt)) := fun _ absent => by cases absent
  refine tally_pos_of_broken (fun _ event sound _ => sound.event event)
    (fun _ _ sound meeting backed intact => backed.event sound meeting intact) opened earlier empty fun backed => ?_
  have covered := backed order found long open_
  have kept := reconcile_kept found fun other member live same => by
    refine Stands.not_drifted sound.keyed ?_
    by_cases own : other = order
    · subst own
      refine ⟨fun _ => le_trans (sub_le_self _ (by norm_num [paperReconcileTolerance])) covered,fun short => ?_⟩
      rw [long] at short
      cases short
    · exact stand order (mem_of_find?_eq_some found) long open_ other member own live same
  have live : order.cancelled = false := by
    simp only [cancellable,decide_eq_true_eq] at open_
    simpa using open_.1
  rw [step,kept,Option.any_some,live] at cancelled
  cases cancelled

/-! Days of one stock at ten yuan. -/

def paperStart : PaperSession := newPaperSession (.newMockTrader ⟨0,0,0,0,0,0,none,.unset,0,0⟩ id)

def dayOf (n : Int) : Time := n * Time.dayNs

def barsOf (n : Int) : Book String Quote :=
  (∅ : Book String Quote).insert "600000.SH" ⟨"600000.SH",10,10,10,1000000,dayOf n⟩

def tenYuan (n : Int) : PaperEvent := .bars (barsOf n)

def hundreds (n : ℚ) (direction : Direction) (slices : Int) : Signal where
  symbol := "600000.SH"
  date := 0
  direction := direction
  strength := n / 10
  compositeScore := n / 10
  limitPrice := 0
  orderType := .market
  execAlgo := if slices = 0 then .unset else .twap
  execSlices := slices
  execProfile := []

def parentOf (n : Int) : ParentId := execAlgoParentID (dayOf n) "600000.SH" .long

def attachDay (n : Int) (signal : Signal) : List PaperEvent :=
  [tenYuan n,.signal (dayOf n) signal,.reconcile,.onBar "600000.SH",.child (dayOf n),.advanceDay]

def flattenedHistory : List PaperEvent :=
  attachDay 1 (hundreds 4 .long 4) ++ [.outside .emergencyFlatten,tenYuan 2,.reconcile]

theorem flattened_cancelled :
    Guarded step meets paperStart flattenedHistory ∧ CancelsOnlyReduced paperStart flattenedHistory ∧
    ((run step paperStart flattenedHistory).execAlgo.lookup (parentOf 1)).any (·.cancelled) = true := by
  have orderly : Guarded step meets paperStart flattenedHistory := by decide +kernel
  exact ⟨orderly,reconcile_cancels_only_reduced _ _ _ orderly,by decide +kernel⟩

/-- The day loop of `Run`: the bars of each day, and a strategy that sees the session. -/
def replay (s : PaperSession) (days : List (Time × Book String Quote × (PaperSession → List Signal))) : Except AttachRefusal PaperSession :=
  days.foldlM (fun s (d,bars,signals) => s.tradingDay d bars (signals (s.setCurrentBars bars))) s

/-- Whatever a strategy signals, a session never ends with a short position, with one under another's
name or with a slice of another symbol or side than its parent's. -/
theorem replay_sound (config : MockTraderConfig) (sqrt : ℚ → ℚ) {days : List (Time × Book String Quote × (PaperSession → List Signal))}
    {s : PaperSession} (replayed : (newPaperSession (.newMockTrader config sqrt)).replay days = .ok s) : s.Sound := by
  obtain ⟨events,-,rfl⟩ := foldlM_relates Leads.refl Leads.trans (fun _ _ _ _ traded => tradingDay_leads traded) replayed
  exact run_always (fun _ event sound => sound.event event) (newPaperSession_sound config sqrt) events

/-- Each day's bars at ten yuan, four slices ordered on the first. -/
def twoDays : List (Time × Book String Quote × (PaperSession → List Signal)) :=
  [(dayOf 1,barsOf 1,fun _ => [hundreds 4 .long 4]),(dayOf 2,barsOf 2,fun _ => [])]

theorem twoDays_sound : ∃ s, paperStart.replay twoDays = .ok s ∧ s.Sound ∧
    s.trader.positions.toList.map (·.2.quantity) = [200] := by
  obtain ⟨s,replayed,bought⟩ := map_eq_ok.mp
    (by decide +kernel : (paperStart.replay twoDays).map (fun s => s.trader.positions.toList.map (·.2.quantity)) = .ok [200])
  exact ⟨s,replayed,replay_sound _ _ replayed,bought⟩

theorem cancelled_unreduced {start : PaperSession} {before : List PaperEvent} (parent : ParentId)
    (unfinished : ((run step start before).execAlgo.lookup parent).any
      (fun order => order.spec.side = .long ∧ cancellable order = true) = true)
    (cancelled : ((step (run step start before) .reconcile).execAlgo.lookup parent).any (·.cancelled) = true)
    (never : tally step (reduces parent) start before = 0) : ¬ CancelsOnlyReduced start (before ++ [.reconcile]) := by
  intro only
  rw [Option.any_eq_true] at unfinished
  obtain ⟨order,found,holds⟩ := unfinished
  obtain ⟨long,open_⟩ := of_decide_eq_true holds
  have reduced := only before [] rfl parent order found long open_ cancelled
  omega

/-- A finished parent of 200 shares, then one that has filled 100 of 400; somebody sells the 200. -/
def soldHistory : List PaperEvent :=
  attachDay 1 (hundreds 2 .long 1) ++ attachDay 2 (hundreds 4 .long 4) ++
    [tenYuan 3,.outside (.order "600000.SH" .close .market 200 0)]

def closedHistory : List PaperEvent :=
  attachDay 1 (hundreds 4 .long 4) ++ [tenYuan 2,.signal (dayOf 2) (hundreds 1 .close 0)]

def shortedHistory : List PaperEvent :=
  attachDay 1 (hundreds 4 .long 4) ++ [tenYuan 2,.signal (dayOf 2) (hundreds 1 .short 1)]

theorem unreduced_parents_cancelled : ¬ CancelsOnlyReduced paperStart (soldHistory ++ [.reconcile]) ∧
    ¬ CancelsOnlyReduced paperStart (closedHistory ++ [.reconcile]) ∧
    ¬ CancelsOnlyReduced paperStart (shortedHistory ++ [.reconcile]) := by
  refine ⟨cancelled_unreduced (parentOf 2) ?_ ?_ ?_,cancelled_unreduced (parentOf 1) ?_ ?_ ?_,
    cancelled_unreduced (parentOf 1) ?_ ?_ ?_⟩
  all_goals decide +kernel

end PaperSession
end QuantTrading
