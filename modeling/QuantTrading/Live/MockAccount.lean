import QuantTrading.Live.PaperExecAlgo

/-! The paper trader's account over whole histories. A filled order moves cash and position by
what it reports, and a position is the sum of its settled and its unsettled lot. What it
reports as sellable is set when a day is rolled over, so it outlives a sale of a part.
-/
namespace QuantTrading.MockTrader
open Library List

variable {m after : MockTrader} {symbol : String} {direction : Direction} {orderType : OrderType} {quantity price : ℚ}

/-- The order filled in full, at its quantity or at what settlement leaves of it. -/
inductive Executed (m : MockTrader) (symbol : String) (quantity : ℚ) : Direction → OrderResult → MockTrader → Prop
  | bought {orderType : OrderType} {execPrice fillPrice fee : ℚ} :
      Executed m symbol quantity .long (filledOrder symbol .long orderType quantity execPrice fillPrice fee)
        { m with
          cash := m.cash - (quantity * fillPrice + fee)
          positions := m.positions.put symbol (some (bought m.positions[symbol]? symbol quantity fillPrice))
          orders := m.orders ++ [filledOrder symbol .long orderType quantity execPrice fillPrice fee] }
  | sold {orderType : OrderType} {execPrice fillPrice fee : ℚ} {pos : PositionInfo}
      (held : m.positions[symbol]? = some pos) (settled : 0 < pos.quantityYesterday) :
      Executed m symbol quantity .close
        (filledOrder symbol .close orderType (min quantity pos.quantityYesterday) execPrice fillPrice fee)
        { m with
          cash := m.cash + (min quantity pos.quantityYesterday * fillPrice - fee)
          positions := m.positions.put symbol (sold pos (min quantity pos.quantityYesterday) fillPrice)
          orders := m.orders ++
            [filledOrder symbol .close orderType (min quantity pos.quantityYesterday) execPrice fillPrice fee] }

section
variable (m : MockTrader) (symbol : String)

section
variable (orderType : OrderType) (quantity execPrice : ℚ)

theorem executeBuy_cases : (∃ e, m.executeBuy symbol orderType quantity execPrice = (.error e,m)) ∨
      ∃ result after, m.executeBuy symbol orderType quantity execPrice = (.ok result,after) ∧
        Executed m symbol quantity .long result after := by
  simp only [executeBuy]
  split
  · exact .inl ⟨_,rfl⟩
  · exact .inr ⟨_,_,rfl,.bought⟩

theorem executeSell_cases : (∃ e, m.executeSell symbol orderType quantity execPrice = (.error e,m)) ∨
      ∃ result after, m.executeSell symbol orderType quantity execPrice = (.ok result,after) ∧
        Executed m symbol quantity .close result after := by
  simp only [executeSell]
  split
  · exact .inl ⟨_,rfl⟩
  rename_i pos held
  have capped : (if quantity > pos.quantityYesterday then pos.quantityYesterday else quantity) =
      min quantity pos.quantityYesterday := by
    rw [min_comm,min_def_lt]
  rw [capped]
  iterate 2 (split; · exact .inl ⟨_,rfl⟩)
  rename_i settled
  exact .inr ⟨_,_,rfl,.sold held (not_le.mp settled)⟩

end

theorem submitOrder_cases (direction : Direction) (orderType : OrderType) (quantity price : ℚ) :
    (∃ e, m.submitOrder symbol direction orderType quantity price = (.error e,m)) ∨
      ∃ result after, m.submitOrder symbol direction orderType quantity price = (.ok result,after) ∧
        0 < quantity ∧ Executed m symbol quantity direction result after := by
  simp only [submitOrder]
  split_ifs with none_
  · exact .inl ⟨_,rfl⟩
  · exact .inl ⟨_,rfl⟩
  · exact .inl ⟨_,rfl⟩
  · cases direction with
    | long =>
      rcases executeBuy_cases m symbol orderType quantity (m.referencePrice symbol orderType price) with
        rejected | ⟨result,after,filled,executed⟩
      · exact .inl rejected
      · exact .inr ⟨result,after,filled,not_le.mp none_,executed⟩
    | close =>
      rcases executeSell_cases m symbol orderType quantity (m.referencePrice symbol orderType price) with
        rejected | ⟨result,after,filled,executed⟩
      · exact .inl rejected
      · exact .inr ⟨result,after,filled,not_le.mp none_,executed⟩
    | _ => exact .inl ⟨_,rfl⟩

end

section Select
variable {V : Type} (find : String → Option V) (symbols : List String)

theorem mem_select (entry : String × V) : entry ∈ symbols.filterMap (fun symbol => (find symbol).map (symbol,·)) ↔
      entry.1 ∈ symbols ∧ find entry.1 = some entry.2 := by
  rw [mem_filterMap]
  constructor
  · rintro ⟨symbol,listed,paired⟩
    obtain ⟨value,found,rfl⟩ := map_eq_some_iff.mp paired
    exact ⟨listed,found⟩
  · rintro ⟨listed,found⟩
    exact ⟨entry.1,listed,by rw [found]; rfl⟩

theorem nodup_select (distinct : symbols.Nodup) :
    ((symbols.filterMap fun symbol => (find symbol).map (symbol,·)).map (·.1)).Nodup := by
  refine distinct.sublist ?_
  induction symbols with
  | nil => exact .slnil
  | cons symbol rest ih =>
    have later := ih (nodup_cons.mp distinct).2
    rw [filterMap_cons]
    cases find symbol with
    | none => exact later.cons symbol
    | some => exact later.cons_cons symbol

end Select

def closingFill (m : MockTrader) (symbol : String) (pos : PositionInfo) : OrderResult :=
  let fillPrice := m.applyExecutionCost symbol .close pos.quantity (m.flattenPrice symbol pos)
  filledOrder symbol .close .market pos.quantity (m.flattenPrice symbol pos) fillPrice
    (computeFees (pos.quantity * fillPrice) true m.feeSchedule).total

def cashFlow (fill : OrderResult) : ℚ :=
  if fill.direction = .long then -(fill.filledQty * fill.fillPrice + fill.fee)
  else fill.filledQty * fill.fillPrice - fill.fee

def closingEntry (m : MockTrader) (symbol : String) (pos : PositionInfo) : EmergencyFlattenOrder where
  symbol := symbol
  quantity := pos.quantity
  fillPrice := (m.closingFill symbol pos).fillPrice
  netProceeds := cashFlow (m.closingFill symbol pos)
  bypassedT1 := pos.quantityYesterday ≤ 0 ∧ pos.quantityToday > 0

def unpriced (m : MockTrader) (symbol : String) : Option PositionInfo :=
  (m.positions[symbol]?).filter fun pos => 0 < pos.quantity ∧ m.flattenPrice symbol pos ≤ 0

def skipEntry (symbol : String) (pos : PositionInfo) : EmergencyFlattenSkip :=
  ⟨symbol,pos.quantity,"no execution price available (feed down)"⟩

def closed (m : MockTrader) (symbols : List String) : List (String × PositionInfo) :=
  symbols.filterMap fun symbol => (m.closable symbol).map (symbol,·)

def stuck (m : MockTrader) (symbols : List String) : List (String × PositionInfo) :=
  symbols.filterMap fun symbol => (m.unpriced symbol).map (symbol,·)

variable {symbols : List String} {entry : String × PositionInfo} {left : PositionInfo} {fillPrice : ℚ}

theorem mem_closed : entry ∈ m.closed symbols ↔ entry.1 ∈ symbols ∧ m.closable entry.1 = some entry.2 :=
  mem_select _ _ _

theorem mem_stuck : entry ∈ m.stuck symbols ↔ entry.1 ∈ symbols ∧ m.unpriced entry.1 = some entry.2 :=
  mem_select _ _ _

def proceeds (m : MockTrader) (entries : List (String × PositionInfo)) : ℚ :=
  (entries.map fun entry => cashFlow (m.closingFill entry.1 entry.2)).sum

def report (m : MockTrader) (result : EmergencyFlattenResult) (closed stuck : List (String × PositionInfo)) :
    EmergencyFlattenResult where
  sold := result.sold ++ closed.map fun entry => m.closingEntry entry.1 entry.2
  skipped := result.skipped ++ stuck.map fun entry => skipEntry entry.1 entry.2
  soldTotal := result.soldTotal + m.proceeds closed

def closeAll (m : MockTrader) (entries : List (String × PositionInfo)) : MockTrader :=
  { m with
    cash := m.cash + m.proceeds entries
    positions := entries.foldl (fun left entry => left.put entry.1 none) m.positions
    orders := m.orders ++ entries.map fun entry => m.closingFill entry.1 entry.2 }

theorem proceeds_append (m : MockTrader) (first second : List (String × PositionInfo)) :
    m.proceeds (first ++ second) = m.proceeds first + m.proceeds second := by
  simp [proceeds]

-- Prices and fees are those of the trader before: closing positions changes neither feed nor rates.
theorem closeAll_closeAll (m : MockTrader) (first second : List (String × PositionInfo)) :
    (m.closeAll first).closeAll second = m.closeAll (first ++ second) := by
  have cash : m.cash + m.proceeds first + m.proceeds second = m.cash + m.proceeds (first ++ second) := by
    rw [proceeds_append,add_assoc]
  simp only [closeAll,foldl_append,map_append,← append_assoc,← cash]
  rfl

theorem report_report (m : MockTrader) (result : EmergencyFlattenResult) (first second early late : List (String × PositionInfo)) :
    (m.closeAll first).report (m.report result first early) second late =
      m.report result (first ++ second) (early ++ late) := by
  have total : result.soldTotal + m.proceeds first + m.proceeds second =
      result.soldTotal + m.proceeds (first ++ second) := by
    rw [proceeds_append,add_assoc]
  simp only [report,map_append,← append_assoc,← total]
  rfl

theorem flattenPosition_eq (result : EmergencyFlattenResult) (m : MockTrader) (symbol : String) :
    flattenPosition (result,m) symbol =
      (m.report result (m.closed [symbol]) (m.stuck [symbol]),m.closeAll (m.closed [symbol])) := by
  have kept (open_ : m.closable symbol = none) : m.closed [symbol] = [] := by simp [closed,open_]
  have known (unheld : m.unpriced symbol = none) : m.stuck [symbol] = [] := by simp [stuck,unheld]
  simp only [flattenPosition,report,closeAll]
  cases found : m.positions[symbol]? with
  | none =>
    rw [kept (by simp [closable,found]),known (by simp [unpriced,found])]
    simp [proceeds]
  | some pos =>
    by_cases none_ : pos.quantity ≤ 0
    · rw [kept (by simp [closable,found,none_]),known (by simp [unpriced,found,none_])]
      simp [proceeds,none_]
    · by_cases dead : m.flattenPrice symbol pos ≤ 0
      · have skipped : m.stuck [symbol] = [(symbol,pos)] := by simp [stuck,unpriced,found,not_le.mp none_,dead]
        rw [kept (by simp [closable,found,dead]),skipped]
        simp [proceeds,none_,dead,skipEntry]
      · have sold : m.closed [symbol] = [(symbol,pos)] := by
          simp [closed,closable,found,not_le.mp none_,not_le.mp dead]
        rw [sold,known (by simp [unpriced,found,not_le.mp dead])]
        simp [proceeds,none_,dead,closingEntry,closingFill,cashFlow,filledOrder]

theorem closable_closeAll {other : String} (distinct : other ≠ symbol) :
    (m.closeAll (m.closed [symbol])).closable other = m.closable other ∧
      (m.closeAll (m.closed [symbol])).unpriced other = m.unpriced other := by
  have same : (m.closeAll (m.closed [symbol])).positions[other]? = m.positions[other]? := by
    rw [closeAll,Book.get_eraseAll,if_neg]
    intro member
    obtain ⟨entry,closes,rfl⟩ := mem_map.mp member
    exact distinct (mem_singleton.mp (mem_closed.mp closes).1)
  simp only [closable,unpriced,same]
  exact ⟨rfl,rfl⟩

theorem foldl_flattenPosition (symbols : List String) (distinct : symbols.Nodup) (result : EmergencyFlattenResult)
    (m : MockTrader) : symbols.foldl flattenPosition (result,m) =
      (m.report result (m.closed symbols) (m.stuck symbols),m.closeAll (m.closed symbols)) := by
  induction symbols generalizing result m with
  | nil => simp [report,closeAll,closed,stuck,proceeds]
  | cons symbol rest ih =>
    obtain ⟨absent,others⟩ := nodup_cons.mp distinct
    have later : ∀ other ∈ rest, other ≠ symbol := fun other member same => absent (same ▸ member)
    have closedLater : (m.closeAll (m.closed [symbol])).closed rest = m.closed rest :=
      filterMap_congr fun other member => by rw [(closable_closeAll (later other member)).1]
    have stuckLater : (m.closeAll (m.closed [symbol])).stuck rest = m.stuck rest :=
      filterMap_congr fun other member => by rw [(closable_closeAll (later other member)).2]
    have split (f : String → Option (String × PositionInfo)) :
        (symbol :: rest).filterMap f = [symbol].filterMap f ++ rest.filterMap f := by
      rw [← singleton_append,filterMap_append]
    rw [foldl_cons,flattenPosition_eq,ih others,closedLater,stuckLater,closeAll_closeAll,report_report]
    simp only [closed,stuck,split _]

theorem emergencyFlatten_eq (m : MockTrader) :
    m.emergencyFlatten = (m.report ⟨[],[],0⟩ (m.closed (m.positions.toList.map (·.1)))
      (m.stuck (m.positions.toList.map (·.1))),m.closeAll (m.closed (m.positions.toList.map (·.1)))) :=
  foldl_flattenPosition _ (Book.nodup_keys _) _ m

/-- The calls of a trader's user, and what its two feeds answer from then on. -/
inductive Call where
  | submitOrder (symbol : String) (direction : Direction) (orderType : OrderType) (quantity price : ℚ)
  | advanceDay
  | emergencyFlatten
  | feeds (priceProvider : Option (String → ℚ)) (barProvider : Option (String → Option Quote))

def step (m : MockTrader) : Call → MockTrader
  | .submitOrder symbol direction orderType quantity price =>
    (m.submitOrder symbol direction orderType quantity price).2
  | .advanceDay => m.advanceDay
  | .emergencyFlatten => m.emergencyFlatten.2
  | .feeds priceProvider barProvider =>
    { m with config := { m.config with priceProvider := priceProvider }, barProvider := barProvider }

structure Lots (pos : PositionInfo) : Prop where
  positive : 0 < pos.quantity
  split : pos.quantity = pos.quantityToday + pos.quantityYesterday
  today : 0 ≤ pos.quantityToday
  yesterday : 0 ≤ pos.quantityYesterday

def InLots (m : MockTrader) : Prop := m.positions.All fun _ pos => Lots pos

theorem Lots.bought {existing : Option PositionInfo} (lots : ∀ pos, existing = some pos → Lots pos) (symbol : String)
    (fillPrice : ℚ) (ordered : 0 < quantity) : Lots (bought existing symbol quantity fillPrice) := by
  cases existing with
  | none => exact ⟨ordered,(add_zero _).symm,ordered.le,le_rfl⟩
  | some pos =>
    obtain ⟨positive,split,today,yesterday⟩ := lots pos rfl
    refine ⟨add_pos positive ordered,?_,add_nonneg today ordered.le,yesterday⟩
    simp only [MockTrader.bought]
    linarith

variable {pos : PositionInfo} {result : OrderResult}

theorem sold_eq_some (kept : sold pos quantity fillPrice = some left) :
    quantity < pos.quantity ∧ left.quantity = pos.quantity - quantity ∧ left.quantityToday = pos.quantityToday ∧
      left.quantityYesterday = pos.quantityYesterday - quantity ∧ left.availableQty = pos.availableQty := by
  obtain ⟨some_,same⟩ := Option.ite_none_left_eq_some.mp kept
  cases Option.some.inj same
  exact ⟨sub_pos.mp (not_le.mp some_),rfl,rfl,rfl,rfl⟩

theorem Lots.sold (lots : Lots pos) (settled : quantity ≤ pos.quantityYesterday)
    (kept : sold pos quantity fillPrice = some left) : Lots left := by
  obtain ⟨open_,rest,today,yesterday,-⟩ := sold_eq_some kept
  refine ⟨?_,?_,?_,?_⟩
  · rw [rest]
    exact sub_pos.mpr open_
  · rw [rest,today,yesterday,lots.split]
    ring
  · rw [today]
    exact lots.today
  · rw [yesterday]
    exact sub_nonneg.mpr settled

theorem Lots.rollOver (lots : Lots pos) : Lots (rollOver pos) := by
  unfold MockTrader.rollOver
  split
  · refine ⟨lots.positive,?_,le_rfl,add_nonneg lots.yesterday lots.today⟩
    linarith [lots.split]
  · exact lots

theorem InLots.executed (lots : m.InLots) (ordered : 0 < quantity)
    (executed : Executed m symbol quantity direction result after) : after.InLots := by
  cases executed with
  | bought =>
    refine Book.All.put lots symbol _ ?_
    intro pos same
    rw [← Option.some.inj same]
    exact Lots.bought (fun pos found => lots symbol pos found) symbol _ ordered
  | sold held =>
    refine Book.All.put lots symbol _ ?_
    intro left kept
    exact (lots symbol _ held).sold (min_le_right _ _) kept

theorem InLots.step (lots : m.InLots) (call : Call) : (m.step call).InLots := by
  cases call with
  | submitOrder symbol direction orderType quantity price =>
    rw [MockTrader.step]
    rcases submitOrder_cases m symbol direction orderType quantity price with
      ⟨e,rejected⟩ | ⟨result,after,filled,ordered,executed⟩
    · rw [rejected]
      exact lots
    · rw [filled]
      exact lots.executed ordered executed
  | advanceDay => exact Book.All.map lots _ fun _ _ own => own.rollOver
  | emergencyFlatten =>
    intro symbol pos found
    rw [MockTrader.step,m.emergencyFlatten_spec.2.1] at found
    split at found
    · cases found
    · exact lots symbol pos found
  | feeds => exact lots

def Kept (m : MockTrader) : Prop := m.positions.All fun _ pos =>
  0 < pos.quantity ∧ pos.quantity = pos.quantityToday + pos.quantityYesterday ∧ pos.availableQty = pos.quantityYesterday

theorem InLots.kept_iff (lots : m.InLots) : m.Kept ↔ m.positions.All fun _ pos => pos.availableQty = pos.quantityYesterday := by
  constructor
  · exact fun kept symbol pos found => (kept symbol pos found).2.2
  · exact fun reported symbol pos found =>
      ⟨(lots symbol pos found).positive,(lots symbol pos found).split,reported symbol pos found⟩

def SellsOut (m : MockTrader) : Call → Prop
  | .submitOrder symbol .close orderType quantity price =>
    (m.submitOrder symbol .close orderType quantity price).1.isOk = true →
      ∀ pos, m.positions[symbol]? = some pos → pos.quantity ≤ min quantity pos.quantityYesterday
  | _ => True

theorem executed_kept_iff (lots : m.InLots) (kept : m.Kept) (ordered : 0 < quantity)
    (executed : Executed m symbol quantity direction result after)
    (filled : m.submitOrder symbol direction orderType quantity price = (.ok result,after)) :
    after.Kept ↔ SellsOut m (.submitOrder symbol direction orderType quantity price) := by
  rw [(lots.executed ordered executed).kept_iff]
  have reported := lots.kept_iff.mp kept
  cases executed with
  | bought =>
    refine iff_of_true (Book.All.put reported symbol _ ?_) trivial
    intro pos same
    rw [← Option.some.inj same]
    cases found : m.positions[symbol]? with
    | none => rfl
    | some existing => exact reported symbol existing found
  | sold held settled =>
    rename_i pos
    constructor
    · intro all _ other same
      obtain rfl : pos = other := Option.some.inj (held.symm.trans same)
      by_contra part
      cases kept : sold pos (min quantity pos.quantityYesterday) _ with
      | none => exact part (by simpa [sold] using kept)
      | some left =>
        obtain ⟨-,-,-,yesterday,available⟩ := sold_eq_some kept
        have stale : left.availableQty = left.quantityYesterday := all symbol left (by rw [kept,Book.get_put_self])
        rw [yesterday,available,reported symbol pos held] at stale
        linarith [lt_min ordered settled]
    · intro sells
      have whole := sells (by rw [filled]; rfl) pos held
      refine Book.All.put reported symbol _ ?_
      simp [sold,whole]

theorem step_kept_iff (lots : m.InLots) (kept : m.Kept) (call : Call) : (m.step call).Kept ↔ SellsOut m call := by
  have reported := lots.kept_iff.mp kept
  cases call with
  | submitOrder symbol direction orderType quantity price =>
    rw [step]
    rcases submitOrder_cases m symbol direction orderType quantity price with
      ⟨e,rejected⟩ | ⟨result,after,filled,ordered,executed⟩
    · rw [rejected]
      refine iff_of_true kept ?_
      cases direction with
      | close =>
        intro ok
        rw [rejected] at ok
        cases ok
      | _ => trivial
    · rw [filled]
      exact executed_kept_iff lots kept ordered executed filled
  | advanceDay =>
    refine iff_of_true ?_ trivial
    rw [(lots.step .advanceDay).kept_iff]
    refine Book.All.map reported _ ?_
    intro _ pos own
    unfold rollOver
    split
    · rfl
    · exact own
  | emergencyFlatten =>
    refine iff_of_true ?_ trivial
    intro symbol pos found
    rw [step,m.emergencyFlatten_spec.2.1] at found
    split at found
    · cases found
    · exact kept symbol pos found
  | feeds => exact iff_of_true kept trivial

def filledBy (m : MockTrader) : Call → List OrderResult
  | .submitOrder symbol direction orderType quantity price =>
    (m.submitOrder symbol direction orderType quantity price).1.toOption.toList
  | .emergencyFlatten => m.emergencyFlatten.2.orders.drop m.orders.length
  | .advanceDay | .feeds _ _ => []

structure Reported (m after : MockTrader) (fills : List OrderResult) : Prop where
  orders : after.orders = m.orders ++ fills
  cash : after.cash = m.cash + (fills.map cashFlow).sum
  moved : ∀ fill ∈ fills, after.held fill.symbol - m.held fill.symbol =
    if fill.direction = .long then fill.filledQty else -fill.filledQty
  others : ∀ symbol, (∀ fill ∈ fills, fill.symbol ≠ symbol) → after.held symbol = m.held symbol

theorem Reported.of_same (orders : after.orders = m.orders) (cash : after.cash = m.cash)
    (held : ∀ symbol, after.held symbol = m.held symbol) : Reported m after [] :=
  ⟨by simpa using orders,by simpa using cash,by simp,fun symbol _ => held symbol⟩

theorem held_put {entry : Option PositionInfo} (written : after.positions = m.positions.put symbol entry) (other : String) :
    after.held other = if symbol = other then (entry.map (·.quantity)).getD 0 else m.held other := by
  simp only [held,written,Book.get_put]
  split <;> rfl

theorem Reported.single {fill : OrderResult} (entry : Option PositionInfo) (orders : after.orders = m.orders ++ [fill])
    (cash : after.cash = m.cash + cashFlow fill) (written : after.positions = m.positions.put fill.symbol entry)
    (moved : (entry.map (·.quantity)).getD 0 - m.held fill.symbol =
      if fill.direction = .long then fill.filledQty else -fill.filledQty) : Reported m after [fill] := by
  refine ⟨orders,by simpa using cash,?_,?_⟩
  · simp only [mem_singleton,forall_eq]
    rw [held_put written,if_pos rfl]
    exact moved
  · intro other distinct
    rw [held_put written,if_neg (distinct fill (mem_singleton_self fill))]

theorem quantity_bought (existing : Option PositionInfo) (symbol : String) (quantity fillPrice : ℚ) :
    (bought existing symbol quantity fillPrice).quantity = (existing.map (·.quantity)).getD 0 + quantity := by
  cases existing with
  | none => simp [bought]
  | some => rfl

theorem quantity_sold (enough : quantity ≤ pos.quantity) (fillPrice : ℚ) :
    ((sold pos quantity fillPrice).map (·.quantity)).getD 0 = pos.quantity - quantity := by
  simp only [sold]
  split
  · rename_i closed
    have whole : pos.quantity - quantity = 0 := by linarith
    rw [whole]
    rfl
  · rfl

theorem Lots.yesterday_le (lots : Lots pos) : pos.quantityYesterday ≤ pos.quantity := by
  linarith [lots.split,lots.today]

theorem Executed.reported (lots : m.InLots) (executed : Executed m symbol quantity direction result after) :
    Reported m after [result] := by
  cases executed with
  | bought =>
    refine .single (some (MockTrader.bought m.positions[symbol]? symbol quantity _)) rfl
      (by simp [cashFlow,filledOrder,sub_eq_add_neg]) rfl ?_
    rw [map_some,getD_some,quantity_bought]
    simp [held,filledOrder]
  | sold found settled =>
    rename_i pos
    have enough : min quantity pos.quantityYesterday ≤ pos.quantity :=
      (min_le_right _ _).trans (lots symbol pos found).yesterday_le
    refine .single (MockTrader.sold pos (min quantity pos.quantityYesterday) _) rfl (by simp [cashFlow,filledOrder]) rfl ?_
    rw [quantity_sold enough]
    simp [held,filledOrder,found]

theorem emergencyFlatten_reported (m : MockTrader) :
    Reported m m.emergencyFlatten.2 (m.filledBy .emergencyFlatten) := by
  have entries {entry : String × PositionInfo} (member : entry ∈ m.closed (m.positions.toList.map (·.1))) :
      m.closable entry.1 = some entry.2 ∧ m.positions[entry.1]? = some entry.2 :=
    ⟨(mem_closed.mp member).2,closable_held (mem_closed.mp member).2⟩
  have gone (symbol : String) (closes : (m.closable symbol).isSome = true) : m.emergencyFlatten.2.held symbol = 0 := by
    rw [held,m.emergencyFlatten_spec.2.1,if_pos closes]
    rfl
  have fills : m.filledBy .emergencyFlatten =
      (m.closed (m.positions.toList.map (·.1))).map fun entry => m.closingFill entry.1 entry.2 := by
    rw [filledBy,emergencyFlatten_eq]
    simp [closeAll]
  rw [fills]
  refine ⟨?_,?_,?_,?_⟩
  · rw [emergencyFlatten_eq]
    rfl
  · rw [emergencyFlatten_eq,map_map]
    rfl
  · intro fill member
    obtain ⟨entry,listed,rfl⟩ := mem_map.mp member
    obtain ⟨closes,found⟩ := entries listed
    change m.emergencyFlatten.2.held entry.1 - m.held entry.1 = -entry.2.quantity
    rw [gone entry.1 (by rw [closes]; rfl),held,found]
    simp
  · intro symbol others
    rw [held,m.emergencyFlatten_spec.2.1,if_neg,held]
    intro closes
    obtain ⟨pos,closes⟩ := isSome_iff_exists.mp closes
    have listed : (symbol,pos) ∈ m.closed (m.positions.toList.map (·.1)) :=
      mem_closed.mpr ⟨mem_symbols.mpr (by rw [closable_held closes]; rfl),closes⟩
    exact others _ (mem_map.mpr ⟨_,listed,rfl⟩) rfl

theorem step_reported (lots : m.InLots) (call : Call) : Reported m (m.step call) (m.filledBy call) := by
  cases call with
  | submitOrder symbol direction orderType quantity price =>
    rw [step,filledBy]
    rcases submitOrder_cases m symbol direction orderType quantity price with
      ⟨e,rejected⟩ | ⟨result,after,filled,ordered,executed⟩
    · rw [rejected]
      exact .of_same rfl rfl fun _ => rfl
    · rw [filled]
      exact executed.reported lots
  | advanceDay => exact .of_same rfl rfl m.held_advanceDay
  | emergencyFlatten => exact emergencyFlatten_reported m
  | feeds => exact .of_same rfl rfl fun _ => rfl

/-- Over every history that starts without positions, the account is kept and its fills are reported
exactly if every filled sale takes the whole position. -/
theorem account_kept_iff (m : MockTrader) (flat : m.positions = ∅) (calls : List Call) :
    (Along step Kept m calls ∧ Guarded step (fun m call => Reported m (m.step call) (m.filledBy call)) m calls) ↔
      Guarded step SellsOut m calls := by
  have lots : m.InLots := by
    rw [InLots,flat]
    exact Book.all_empty _
  have initial : m.Kept := by
    rw [Kept,flat]
    exact Book.all_empty _
  have inside : Guarded step (fun m _ => m.InLots) m calls := .of_invariant (fun _ call lots => lots.step call) lots calls
  have needed (m : MockTrader) (call : Call) (kept : m.Kept) (lots : m.InLots) : (m.step call).Kept ↔ SellsOut m call :=
    step_kept_iff lots kept call
  rw [along_iff_guarded needed initial inside]
  exact and_iff_left (inside.mono fun m call lots => step_reported lots call)

def paperTrader : MockTrader :=
  newMockTrader ⟨100000,0,0,0,0,0,none,.unset,0,0⟩ id

def boughtDayBefore : List Call := [.submitOrder "600000.SH" .long .limit 100 10,.advanceDay]

theorem soldOut_kept :
    let calls := boughtDayBefore ++ [.submitOrder "600000.SH" .close .limit 100 11]
    Along step Kept paperTrader calls ∧
      Guarded step (fun m call => Reported m (m.step call) (m.filledBy call)) paperTrader calls := by
  refine (account_kept_iff paperTrader rfl _).mpr ⟨trivial,trivial,fun _ => ?_,trivial⟩
  decide +kernel

/-- 60 of 100 settled shares are sold: the position of 40 still reports 100 as sellable. -/
theorem partialSale_stale :
    let calls := boughtDayBefore ++ [.submitOrder "600000.SH" .close .limit 60 11]
    ((run step paperTrader calls).positions["600000.SH"]?).map (fun pos => (pos.quantity,pos.quantityYesterday,pos.availableQty)) =
      some (40,40,100) ∧ ¬ Along step Kept paperTrader calls := by
  exact ⟨by decide +kernel,fun along => absurd (along.last "600000.SH") (by decide +kernel)⟩

end QuantTrading.MockTrader
