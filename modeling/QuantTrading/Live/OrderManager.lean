import QuantTrading.Domain
import QuantTrading.Library.Book
import QuantTrading.Library.Interleaving

/-! The live engine's orders. Submission, cancellation, fills against a quote and the status
sync with the broker each go through several locked sections of the order manager and the
position manager, and carry copies of orders from one to the next.
-/
namespace QuantTrading.LiveEngine
open Library

/-- The statuses the engine writes or compares with; a broker may answer with another text. -/
inductive Status where
  | pending
  | submitted
  | filled
  | cancelled
  | rejected
  | other (text : String)
deriving DecidableEq

namespace Status

def isLive (status : Status) : Bool := status = .pending ∨ status = .submitted

def isTerminal (status : Status) : Bool := status = .filled ∨ status = .cancelled ∨ status = .rejected

def isKnown (status : Status) : Bool := status.isLive ∨ status.isTerminal

end Status

structure LiveOrder where
  (id symbol : String)
  direction : Direction
  orderType : OrderType
  (quantity limitPrice stopPrice trailAmount trailPercent highWaterMark : ℚ)
  timestamp : Time
  status : Status
deriving DecidableEq

structure Quote where
  symbol : String
  timestamp : Time
  (high bid ask : ℚ)

structure ExecutionConfig where
  (commissionRate minCommission : ℚ)

/-- The order manager's orders and pending list and the position manager's positions; `booked`
records for which order each trade was handed to the position manager. -/
structure State where
  orders : Book String LiveOrder
  pending : List String
  positions : Book String Position
  booked : List (String × Trade)

def updateFromTrade (positions : Book String Position) (trade : Trade) : Book String Position :=
  let position := (positions[trade.symbol]?).getD ⟨trade.symbol,0,0,0,0,0,0,0,0,0,0⟩
  let position := if trade.direction = .long then
      let totalCost := position.avgCost * position.quantity + trade.price * trade.quantity
      let position := { position with quantity := position.quantity + trade.quantity }
      if position.quantity > 0 then { position with avgCost := totalCost / position.quantity } else position
    else
      let position := if position.quantity > 0 then
          { position with realizedPnL := position.realizedPnL + (trade.price - position.avgCost) * trade.quantity }
        else position
      let position := { position with quantity := position.quantity - trade.quantity }
      if position.quantity = 0 then { position with avgCost := 0 } else position
  positions.insert trade.symbol position

inductive Section where
  | read
  | saveOrder (order : LiveOrder)
  | addPending (orderID : String)
  | removePending (orderID : String)
  | updateOrderStatus (orderID : String) (status : Status)
  | updateOrder (orderID : String) (order : LiveOrder)
  | updateFromTrade (orderID : String) (trade : Trade)

namespace State

def exec (s : State) : Section → State
  | .read => s
  | .saveOrder order => { s with orders := s.orders.insert order.id order }
  | .addPending orderID => { s with pending := s.pending ++ [orderID] }
  | .removePending orderID => { s with pending := s.pending.erase orderID }
  | .updateOrderStatus orderID status =>
    match s.orders[orderID]? with
    | none => s
    | some order => { s with
        orders := s.orders.insert orderID { order with status := status }
        pending := if status.isTerminal then s.pending.erase orderID else s.pending }
  | .updateOrder orderID order =>
    let aligned := if order.id = "" then { order with id := orderID } else order
    { s with orders := s.orders.insert orderID aligned }
  | .updateFromTrade orderID trade => { s with
      positions := updateFromTrade s.positions trade
      booked := s.booked ++ [(orderID,trade)] }

def getPendingOrders (s : State) : List LiveOrder := s.pending.filterMap fun id => s.orders[id]?

end State

inductive ShapeError where
  | symbolIsRequired
  | quantityMustBePositive (quantity : ℚ)
  | requiresLimitPrice
  | requiresStopPrice
  | requiresTrail

variable (config : ExecutionConfig) (s : State) (order : LiveOrder) (quote : Quote)

def validateOrderShape : Except ShapeError Unit :=
  if order.symbol = "" then .error .symbolIsRequired
  else if order.quantity ≤ 0 then .error (.quantityMustBePositive order.quantity)
  else
    match order.orderType with
    | .limit => if order.limitPrice ≤ 0 then .error .requiresLimitPrice else .ok ()
    | .stop => if order.stopPrice ≤ 0 then .error .requiresStopPrice else .ok ()
    | .trailing => if order.trailAmount ≤ 0 ∧ order.trailPercent ≤ 0 then .error .requiresTrail else .ok ()
    | .market => .ok ()

def trailingTriggerPrice : ℚ :=
  if order.highWaterMark ≤ 0 then 0
  else
    let offset := if order.trailAmount ≤ 0 ∧ order.trailPercent > 0 then order.highWaterMark * order.trailPercent
      else order.trailAmount
    order.highWaterMark - offset

def shouldFill : Bool :=
  match order.orderType, order.direction with
  | .market, _ => true
  | .limit, .long => order.limitPrice > 0 ∧ quote.ask > 0 ∧ quote.ask ≤ order.limitPrice
  | .limit, .short | .limit, .close => order.limitPrice > 0 ∧ quote.bid > 0 ∧ quote.bid ≥ order.limitPrice
  | .stop, .long => order.stopPrice > 0 ∧ quote.ask ≥ order.stopPrice
  | .stop, .short | .stop, .close => order.stopPrice > 0 ∧ quote.bid > 0 ∧ quote.bid ≤ order.stopPrice
  | .trailing, .long =>
    trailingTriggerPrice order > 0 ∧ quote.ask > 0 ∧ quote.ask ≤ trailingTriggerPrice order
  | .trailing, .short | .trailing, .close =>
    trailingTriggerPrice order > 0 ∧ quote.bid > 0 ∧ quote.bid ≤ trailingTriggerPrice order
  | _, .hold => false

def computeFillPrice : ℚ :=
  match order.orderType with
  | .stop | .trailing | .market => if order.direction = .long then quote.ask else quote.bid
  | .limit =>
    if order.direction = .long then
      if quote.ask > 0 ∧ quote.ask < order.limitPrice then quote.ask else order.limitPrice
    else if quote.bid > 0 ∧ quote.bid > order.limitPrice then quote.bid
    else order.limitPrice

def calculateCommission (amount : ℚ) (config : ExecutionConfig) : ℚ :=
  let commission := amount * config.commissionRate
  if commission < config.minCommission then config.minCommission else commission

def fillTrade : Trade :=
  let fillPrice := computeFillPrice order quote
  { symbol := order.symbol
    direction := order.direction
    quantity := order.quantity
    price := fillPrice
    commission := calculateCommission (fillPrice * order.quantity) config
    transferFee := 0
    stampTax := 0
    timestamp := quote.timestamp
    pendingQty := 0
    filledQty := 0 }

def candidateMark : ℚ :=
  let candidate := quote.bid
  let candidate := if quote.ask > candidate then quote.ask else candidate
  if quote.high > candidate then quote.high else candidate

def updateTrailingHWM : Option LiveOrder :=
  let candidate := candidateMark quote
  if candidate ≤ 0 then none
  else if order.highWaterMark = 0 ∨ candidate > order.highWaterMark then
    some { order with highWaterMark := candidate }
  else none

inductive Call where
  | submitOrder (order : LiveOrder)
  | saveRejected (order : LiveOrder)
  | saveSubmitted (order : LiveOrder)
  | addPending (orderID : String)
  | cancelOrder (orderID : String)
  | cancelAtBroker (order : LiveOrder)
  | saveCancelled (order : LiveOrder)
  | removePending (orderID : String)
  | handleQuote (quote : Quote)
  | quoteLoop (orders : List LiveOrder) (quote : Quote)
  | fill (order : LiveOrder) (orders : List LiveOrder) (quote : Quote)
  | book (order : LiveOrder) (orders : List LiveOrder) (quote : Quote)
  | syncOrderStatus
  | syncLoop (pending : List String)
  | writeStatus (orderID : String) (status : Status) (pending : List String)

def Call.starts : Call → Bool
  | .submitOrder _ => true
  | .cancelOrder _ => true
  | .handleQuote _ => true
  | .syncOrderStatus => true
  | _ => false

/-- What a step finds outside the managers: whether the price cage turns the order away, a new
order id and the clock, and the broker's answers. -/
structure Answer where
  cageRejects : Bool
  generateOrderID : String
  now : Time
  brokerSubmits : Option String
  brokerCancels : Bool
  brokerStatus : Option Status

def advance (call : Call) (answer : Answer) : Section × Option Call :=
  match call with
  | .submitOrder order =>
    match validateOrderShape order with
    | .error _ => (.read,none)
    | .ok () =>
      if answer.cageRejects then (.read,none)
      else
        let order := { order with id := answer.generateOrderID, status := .pending, timestamp := answer.now }
        match answer.brokerSubmits with
        | none => (.read,some (.saveRejected { order with status := .rejected }))
        | some brokerID =>
          let order := if brokerID ≠ "" then { order with id := brokerID } else order
          (.read,some (.saveSubmitted { order with status := .submitted }))
  | .saveRejected order => (.saveOrder order,none)
  | .saveSubmitted order => (.saveOrder order,some (.addPending order.id))
  | .addPending orderID => (.addPending orderID,none)
  | .cancelOrder orderID =>
    match s.orders[orderID]? with
    | none => (.read,none)
    | some order =>
      if order.status ≠ .pending ∧ order.status ≠ .submitted then (.read,none)
      else (.read,some (.cancelAtBroker order))
  | .cancelAtBroker order =>
    if answer.brokerCancels then (.read,some (.saveCancelled order)) else (.read,none)
  | .saveCancelled order => (.saveOrder { order with status := .cancelled },some (.removePending order.id))
  | .removePending orderID => (.removePending orderID,none)
  | .handleQuote quote => (.read,some (.quoteLoop s.getPendingOrders quote))
  | .quoteLoop [] _ => (.read,none)
  | .quoteLoop (order :: orders) quote =>
    if order.symbol ≠ quote.symbol then (.read,some (.quoteLoop orders quote))
    else if order.orderType = .trailing then
      match updateTrailingHWM order quote with
      | none => (.read,some (.fill order orders quote))
      | some marked => (.updateOrder marked.id marked,some (.fill marked orders quote))
    else (.read,some (.fill order orders quote))
  | .fill order orders quote =>
    if shouldFill order quote then (.updateOrderStatus order.id .filled,some (.book order orders quote))
    else (.read,some (.quoteLoop orders quote))
  | .book order orders quote =>
    (.updateFromTrade order.id (fillTrade config order quote),some (.quoteLoop orders quote))
  | .syncOrderStatus => (.read,some (.syncLoop s.pending))
  | .syncLoop [] => (.read,none)
  | .syncLoop (orderID :: pending) =>
    match answer.brokerStatus with
    | none => (.read,some (.syncLoop pending))
    | some status => (.read,some (.writeStatus orderID status pending))
  | .writeStatus orderID status pending => (.updateOrderStatus orderID status,some (.syncLoop pending))

def step (call : Call) (answer : Answer) : State × Option Call :=
  let (locked,rest) := advance config s call answer
  (s.exec locked,rest)

def calls : Protocol State Call Answer := ⟨Call.starts,step config⟩

def started (positions : Book String Position) : State := ⟨∅,[],positions,[]⟩

end QuantTrading.LiveEngine
