import Mathlib.Data.List.Sort
import QuantTrading.Live.MockTrader

/-! The delisting registry and its forced liquidator. A scan looks for held stocks close to
their delisting and closes positions through the trader's emergency flatten, which closes
every position there is.
-/
namespace QuantTrading
open Library List
open Time (dayNs)

namespace MockTrader
variable {m : MockTrader}

def closable (m : MockTrader) (symbol : String) : Option PositionInfo :=
  (m.positions[symbol]?).filter fun pos => 0 < pos.quantity ∧ 0 < m.flattenPrice symbol pos

def soldOf (result : EmergencyFlattenResult) (symbol : String) : Option ℚ :=
  (result.sold.find? fun order => order.symbol = symbol).map (·.quantity)

/-- The positions of the given symbols are closed and reported, as far as they can be. -/
structure Flattened (symbols : List String) (result : EmergencyFlattenResult) (m : MockTrader)
    (result' : EmergencyFlattenResult) (m' : MockTrader) : Prop where
  config : m'.config = m.config
  positions : ∀ symbol, m'.positions[symbol]? =
    if symbol ∈ symbols ∧ (m.closable symbol).isSome then none else m.positions[symbol]?
  sold : ∀ symbol, soldOf result' symbol =
    (soldOf result symbol).or (if symbol ∈ symbols then (m.closable symbol).map (·.quantity) else none)

theorem soldOf_append (result : EmergencyFlattenResult) (order : EmergencyFlattenOrder) (total : ℚ) (symbol : String) :
    soldOf { result with sold := result.sold ++ [order], soldTotal := total } symbol =
      (soldOf result symbol).or (if order.symbol = symbol then some order.quantity else none) := by
  simp only [soldOf,find?_append,find?_singleton,decide_eq_true_eq]
  cases found : result.sold.find? fun order => order.symbol = symbol with
  | some => rfl
  | none =>
    split <;> rfl

theorem flattenPosition_flattened (result : EmergencyFlattenResult) (m : MockTrader) (symbol : String) :
    Flattened [symbol] result m (flattenPosition (result,m) symbol).1 (flattenPosition (result,m) symbol).2 := by
  have kept (closed : m.closable symbol = none) (skipped : List EmergencyFlattenSkip) :
      Flattened [symbol] result m { result with skipped := skipped } m := by
    refine ⟨rfl,fun other => ?_,fun other => ?_⟩
    · split
      next open_ =>
        rw [mem_singleton.mp open_.1,closed] at open_
        cases open_.2
      · rfl
    · split
      next same =>
        rw [mem_singleton.mp same,closed,map_none,Option.or_none]
        rfl
      · rw [Option.or_none]
        rfl
  simp only [flattenPosition]
  split
  next absent =>
    exact kept (by simp [closable,absent]) _
  next pos found =>
    split
    next empty =>
      exact kept (by simp [closable,found,not_lt.mpr empty]) _
    next some_ =>
      split
      next unpriced =>
        exact kept (by simp [closable,found,unpriced]) _
      next priced =>
        have closes : m.closable symbol = some pos := by
          simp [closable,found,not_le.mp some_,not_le.mp priced]
        refine ⟨rfl,fun other => ?_,fun other => ?_⟩
        · simp only [Book.get_put,mem_singleton]
          by_cases same : other = symbol
          · subst same
            simp [closes]
          · rw [if_neg (Ne.symm same),if_neg fun both => same both.1]
        · rw [soldOf_append]
          by_cases same : other = symbol
          · subst same
            simp [closes]
          · simp [same,Ne.symm same]

variable {symbol : String}

theorem Flattened.cons {symbols : List String} {result first last : EmergencyFlattenResult}
    {middle final : MockTrader} (head : Flattened [symbol] result m first middle)
    (tail : Flattened symbols first middle last final) : Flattened (symbol :: symbols) result m last final := by
  -- A symbol not closed yet can be closed as before: its position and its price are the same.
  have later (other : String) (open_ : ¬ (other ∈ [symbol] ∧ (m.closable other).isSome = true)) :
      middle.closable other = m.closable other := by
    rw [closable,head.positions other,if_neg open_]
    congr 1
    funext pos
    rw [flattenPrice,head.config,← flattenPrice]
  refine ⟨tail.config.trans head.config,fun other => ?_,fun other => ?_⟩
  · rw [tail.positions other]
    by_cases done : other ∈ [symbol] ∧ (m.closable other).isSome = true
    · have gone : middle.positions[other]? = none := by rw [head.positions other,if_pos done]
      rw [gone,ite_self,if_pos ⟨mem_cons.mpr (.inl (mem_singleton.mp done.1)),done.2⟩]
    · rw [later other done,head.positions other,if_neg done]
      refine if_congr ?_ rfl rfl
      rw [mem_cons]
      constructor
      · rintro ⟨member,closes⟩
        exact ⟨.inr member,closes⟩
      · rintro ⟨rfl | member,closes⟩
        · exact absurd ⟨mem_singleton_self _,closes⟩ done
        · exact ⟨member,closes⟩
  · rw [tail.sold other,head.sold other]
    by_cases done : other ∈ [symbol] ∧ (m.closable other).isSome = true
    · obtain ⟨pos,closes⟩ := isSome_iff_exists.mp done.2
      have gone : middle.closable other = none := by
        rw [closable,head.positions other,if_pos done]
        rfl
      rw [gone,if_pos done.1,closes,if_pos (mem_cons.mpr (.inl (mem_singleton.mp done.1)))]
      simp
    · rw [later other done]
      by_cases same : other = symbol
      · subst same
        have stuck : m.closable other = none := by
          cases closes : m.closable other with
          | none => rfl
          | some => exact absurd ⟨mem_singleton_self _,by rw [closes]; rfl⟩ done
        simp [stuck]
      · simp [same]

theorem flattened_all (symbols : List String) (result : EmergencyFlattenResult) (m : MockTrader) :
    Flattened symbols result m (symbols.foldl flattenPosition (result,m)).1 (symbols.foldl flattenPosition (result,m)).2 := by
  induction symbols generalizing result m with
  | nil => exact ⟨rfl,fun _ => by simp,fun _ => by simp⟩
  | cons symbol symbols ih =>
    exact (flattenPosition_flattened result m symbol).cons (ih _ _)

theorem mem_symbols : symbol ∈ m.positions.toList.map (·.1) ↔ (m.positions[symbol]?).isSome = true := by
  rw [mem_map]
  constructor
  · rintro ⟨entry,member,rfl⟩
    rw [mem_toList_iff_getElem?_eq_some.mp member]
    rfl
  · intro held
    obtain ⟨pos,found⟩ := isSome_iff_exists.mp held
    exact ⟨(symbol,pos),mem_toList_iff_getElem?_eq_some.mpr found,rfl⟩

variable {pos : PositionInfo}

theorem closable_held (closes : m.closable symbol = some pos) : m.positions[symbol]? = some pos :=
  (filter_eq_some_iff.mp closes).1

theorem emergencyFlatten_spec (m : MockTrader) : m.emergencyFlatten.2.config = m.config ∧
    (∀ symbol, m.emergencyFlatten.2.positions[symbol]? =
      if (m.closable symbol).isSome then none else m.positions[symbol]?) ∧
    ∀ symbol, soldOf m.emergencyFlatten.1 symbol = (m.closable symbol).map (·.quantity) := by
  have flattened := flattened_all (m.positions.toList.map (·.1)) ⟨[],[],0⟩ m
  have listed (symbol : String) (closes : (m.closable symbol).isSome = true) :
      symbol ∈ m.positions.toList.map (·.1) := by
    obtain ⟨pos,found⟩ := isSome_iff_exists.mp closes
    exact mem_symbols.mpr (by rw [closable_held found]; rfl)
  refine ⟨flattened.config,fun symbol => ?_,fun symbol => ?_⟩
  · rw [emergencyFlatten,flattened.positions symbol]
    exact if_congr ⟨fun both => both.2,fun closes => ⟨listed symbol closes,closes⟩⟩ rfl rfl
  · rw [emergencyFlatten,flattened.sold symbol]
    cases closes : m.closable symbol with
    | none => simp [soldOf]
    | some =>
      rw [if_pos (listed symbol (by rw [closes]; rfl))]
      rfl

def Keyed (m : MockTrader) : Prop := m.positions.All fun symbol pos => pos.symbol = symbol

def holds (m : MockTrader) (symbol : String) : Prop := ∃ pos, m.positions[symbol]? = some pos ∧ 0 < pos.quantity

def Priced (m : MockTrader) : Prop := m.positions.All fun symbol pos => 0 < pos.quantity → 0 < m.flattenPrice symbol pos

theorem newMockTrader_keyed (config : MockTraderConfig) (sqrt : ℚ → ℚ) : (newMockTrader config sqrt).Keyed :=
  Book.all_empty _

section
variable (keyed : m.Keyed) (symbol : String) (orderType : OrderType) (quantity execPrice : ℚ)
include keyed

theorem executeBuy_keyed : (m.executeBuy symbol orderType quantity execPrice).2.Keyed := by
  simp only [executeBuy]
  split
  · exact keyed
  refine Book.All.put keyed symbol _ fun pos same => ?_
  rw [← Option.some.inj same]
  cases found : m.positions[symbol]? with
  | none => rfl
  | some existing => exact keyed symbol existing found

theorem executeSell_keyed : (m.executeSell symbol orderType quantity execPrice).2.Keyed := by
  simp only [executeSell]
  split
  · exact keyed
  rename_i pos found
  iterate 2 (split; · exact keyed)
  refine Book.All.put keyed symbol _ fun left same => ?_
  obtain ⟨-,kept⟩ := Option.ite_none_left_eq_some.mp same
  rw [← Option.some.inj kept]
  exact keyed symbol pos found

end

theorem submitOrder_keyed (keyed : m.Keyed) (symbol : String) (direction : Direction) (orderType : OrderType)
    (quantity price : ℚ) : (m.submitOrder symbol direction orderType quantity price).2.Keyed := by
  simp only [submitOrder]
  split_ifs
  · exact keyed
  · exact keyed
  · exact keyed
  · cases direction with
    | long => exact executeBuy_keyed keyed symbol orderType quantity _
    | close => exact executeSell_keyed keyed symbol orderType quantity _
    | _ => exact keyed

theorem advanceDay_keyed (keyed : m.Keyed) : m.advanceDay.Keyed := by
  refine Book.All.map keyed _ fun symbol pos own => ?_
  rw [rollOver]
  split <;> exact own

theorem emergencyFlatten_keyed (keyed : m.Keyed) : m.emergencyFlatten.2.Keyed := by
  intro symbol pos found
  rw [m.emergencyFlatten_spec.2.1] at found
  split at found
  · cases found
  · exact keyed symbol pos found

theorem submitOrder_config (m : MockTrader) (symbol : String) (direction : Direction) (orderType : OrderType)
    (quantity price : ℚ) : (m.submitOrder symbol direction orderType quantity price).2.config = m.config := by
  simp only [submitOrder,executeBuy,executeSell]
  grind

theorem priced_of_provider {provider : String → ℚ} (fed : m.config.priceProvider = some provider)
    (positive : ∀ symbol, 0 < provider symbol) : m.Priced := by
  intro symbol pos _ _
  simp [flattenPrice,fed,positive symbol]

theorem closable_of_priced (priced : m.Priced)
    (found : m.positions[symbol]? = some pos) (held : 0 < pos.quantity) : m.closable symbol = some pos := by
  simp [closable,found,held,priced symbol pos found held]

theorem holds_of_closable (closes : (m.closable symbol).isSome = true) : m.holds symbol := by
  obtain ⟨pos,closes⟩ := isSome_iff_exists.mp closes
  obtain ⟨found,open_⟩ := filter_eq_some_iff.mp closes
  exact ⟨pos,found,(of_decide_eq_true open_).1⟩

end MockTrader

inductive StockState where
  | listed
  | suspended
  | delisting
  | delisted
deriving DecidableEq

structure StockStateRecord where
  symbol : String
  state : StockState
  reason : String
  (delistingPeriodStart delistingPeriodEnd delistedDate updatedAt : Time)
deriving DecidableEq

def StockStateRecord.isInDelistingWindow (r : StockStateRecord) (now : Time) (window : Int) : Bool :=
  r.state = .delisting ∧ ¬ r.delistedDate.isZero ∧ now < r.delistedDate ∧ r.delistedDate - now ≤ window

structure StockStateRegistry where
  records : Book String StockStateRecord
  keyed : records.All fun symbol record => record.symbol = symbol

inductive StateError where
  | symbolIsRequired
  | illegalStateTransition (symbol : String) (from_ next : StockState)
  | delistedDateIsRequired (state : StockState)
deriving DecidableEq

def isLegalTransition : StockState → StockState → Bool
  | .listed, next => next = .suspended ∨ next = .delisting ∨ next = .delisted
  | .suspended, next => next = .listed ∨ next = .delisting
  | .delisting, next => next = .delisted
  | .delisted, _ => false

namespace StockStateRegistry
variable (r : StockStateRegistry)

def empty : StockStateRegistry := ⟨∅,Book.all_empty _⟩

def put (record : StockStateRecord) : StockStateRegistry where
  records := r.records.put record.symbol (some record)
  keyed := r.keyed.put record.symbol (some record) fun _ same => Option.some.inj same ▸ rfl

def setState (symbol : String) (state : StockState) (reason : String) (delistedDate now : Time) :
    Except StateError StockStateRegistry :=
  if symbol = "" then .error .symbolIsRequired
  else
    let prev := r.records[symbol]?
    match prev.filter fun prev => !isLegalTransition prev.state state with
    | some prev => .error (.illegalStateTransition symbol prev.state state)
    | none =>
      if state = .delisting ∨ state = .delisted then
        if delistedDate.isZero then .error (.delistedDateIsRequired state)
        else if state = .delisted then .ok (r.put ⟨symbol,state,reason,delistedDate,delistedDate,delistedDate,now⟩)
        else .ok (r.put ⟨symbol,state,reason,delistedDate - 21 * dayNs,delistedDate - dayNs,delistedDate,now⟩)
      else
        match prev with
        | none => .ok (r.put ⟨symbol,state,reason,0,0,0,now⟩)
        | some prev => .ok (r.put ⟨symbol,state,reason,prev.delistingPeriodStart,prev.delistingPeriodEnd,
            prev.delistedDate,now⟩)

variable (state : StockState)

def Lists (listing : List StockStateRecord) : Prop :=
  listing.Perm ((r.records.toList.map (·.2)).filter fun record => record.state = state) ∧
    listing.Pairwise fun first second => first.delistedDate ≤ second.delistedDate

def listByState : List StockStateRecord :=
  ((r.records.toList.map (·.2)).filter fun record => record.state = state).insertionSort fun first second =>
    first.delistedDate ≤ second.delistedDate

theorem listByState_lists : r.Lists state (r.listByState state) :=
  ⟨perm_insertionSort _ _,pairwise_insertionSort _ _⟩

end StockStateRegistry

structure LiquidationAction where
  symbol : String
  state : StockState
  delistedDate : Time
  quantity : ℚ
  sold : Bool
  reason : String
  timestamp : Time
deriving DecidableEq

structure LiquidationResult where
  scannedAt : Time
  actions : List LiquidationAction
  (totalSold totalSkipped : Nat)

def LiquidationResult.add (res : LiquidationResult) (action : LiquidationAction) : LiquidationResult :=
  { res with
    actions := res.actions ++ [action]
    totalSold := if action.sold then res.totalSold + 1 else res.totalSold
    totalSkipped := if action.sold then res.totalSkipped else res.totalSkipped + 1 }

def posBySymbol (positions : List PositionInfo) : Book String ℚ :=
  positions.foldl (fun book p => book.insert p.symbol p.quantity) ∅

namespace ForcedLiquidator

def scanRecord (now : Time) (window : Int) (held : Book String ℚ) (state : LiquidationResult × MockTrader)
    (record : StockStateRecord) : LiquidationResult × MockTrader :=
  let (res,trader) := state
  let action : LiquidationAction := ⟨record.symbol,record.state,record.delistedDate,0,false,"",now⟩
  if !record.isInDelistingWindow now window then (res.add { action with reason := "outside_window" },trader)
  else
    let qty := (held[record.symbol]?).getD 0
    let action := { action with quantity := qty }
    if qty ≤ 0 then (res.add { action with reason := "no_position" },trader)
    else
      let (flatten,trader) := trader.emergencyFlatten
      match flatten.sold.find? fun so => so.symbol = record.symbol with
      | some so => (res.add { action with sold := true, quantity := so.quantity },trader)
      | none => (res.add { action with reason := "flatten_returned_no_sell" },trader)

def scan (now : Time) (window : Int) (candidates : List StockStateRecord) (trader : MockTrader) :
    LiquidationResult × MockTrader :=
  if candidates.length = 0 then (⟨now,[],0,0⟩,trader)
  else candidates.foldl (scanRecord now window (posBySymbol trader.getPositions)) (⟨now,[],0,0⟩,trader)

variable {now : Time} {window : Int} {held : Book String ℚ} {m : MockTrader}

def triggers (now : Time) (window : Int) (held : Book String ℚ) (record : StockStateRecord) : Bool :=
  record.isInDelistingWindow now window ∧ 0 < (held[record.symbol]?).getD 0

variable (candidates : List StockStateRecord) (res : LiquidationResult)

def sales : List (String × ℚ) :=
  (res.actions.filter (·.sold)).map fun action => (action.symbol,action.quantity)

theorem sales_add (action : LiquidationAction) :
    sales (res.add action) = sales res ++ if action.sold then [(action.symbol,action.quantity)] else [] := by
  rw [sales,LiquidationResult.add,filter_append]
  cases sold : action.sold with
  | _ => simp [sales,sold]

variable {record : StockStateRecord}

theorem scanRecord_idle (idle : triggers now window held record = false)
    (res : LiquidationResult) (m : MockTrader) :
    ∃ res', scanRecord now window held (res,m) record = (res',m) ∧ sales res' = sales res := by
  simp only [scanRecord]
  split
  · exact ⟨_,rfl,by rw [sales_add]; simp⟩
  rename_i inside
  split
  · exact ⟨_,rfl,by rw [sales_add]; simp⟩
  rename_i some_
  have due : triggers now window held record = true := by
    simpa [triggers] using ⟨by simpa using inside,not_le.mp some_⟩
  rw [idle] at due
  cases due

theorem scanRecord_triggered (due : triggers now window held record = true)
    (res : LiquidationResult) (m : MockTrader) :
    ∃ res', scanRecord now window held (res,m) record = (res',m.emergencyFlatten.2) ∧ sales res' =
      sales res ++ ((m.closable record.symbol).map fun pos => (record.symbol,pos.quantity)).toList := by
  obtain ⟨inside,some_⟩ := of_decide_eq_true due
  have reported := m.emergencyFlatten_spec.2.2 record.symbol
  simp only [scanRecord,inside,Bool.not_true,Bool.false_eq_true,if_false,not_le.mpr some_]
  split
  next so found =>
    rw [MockTrader.soldOf,found] at reported
    obtain ⟨pos,closes,same⟩ := map_eq_some_iff.mp reported.symm
    refine ⟨_,rfl,?_⟩
    rw [sales_add,closes]
    simp [same]
  next found =>
    rw [MockTrader.soldOf,found] at reported
    refine ⟨_,rfl,?_⟩
    rw [sales_add,Option.map_eq_none_iff.mp reported.symm]
    simp

theorem closable_flattened (m : MockTrader) (symbol : String) : m.emergencyFlatten.2.closable symbol = none := by
  obtain ⟨config,positions,-⟩ := m.emergencyFlatten_spec
  have prices (pos : PositionInfo) : m.emergencyFlatten.2.flattenPrice symbol pos = m.flattenPrice symbol pos := by
    rw [MockTrader.flattenPrice,config,← MockTrader.flattenPrice]
  rw [MockTrader.closable,positions]
  simp only [prices]
  by_cases closes : (m.closable symbol).isSome = true
  · rw [if_pos closes]
    rfl
  · rw [if_neg closes]
    exact Option.not_isSome_iff_eq_none.mp closes

theorem scan_flat  (flat : ∀ symbol, m.closable symbol = none) :
    (∀ symbol : String, (candidates.foldl (scanRecord now window held) (res,m)).2.positions[symbol]? = m.positions[symbol]?) ∧
      sales (candidates.foldl (scanRecord now window held) (res,m)).1 = sales res := by
  induction candidates generalizing res m with
  | nil => exact ⟨fun _ => rfl,rfl⟩
  | cons record candidates ih =>
    rw [foldl_cons]
    cases due : triggers now window held record with
    | false =>
      obtain ⟨res',step,none_⟩ := scanRecord_idle due res m
      obtain ⟨positions,rest⟩ := ih res' flat
      rw [step]
      exact ⟨positions,rest.trans none_⟩
    | true =>
      obtain ⟨res',step,none_⟩ := scanRecord_triggered due res m
      obtain ⟨positions,rest⟩ := ih res' (closable_flattened m)
      rw [step]
      refine ⟨fun symbol => (positions symbol).trans ?_,rest.trans ?_⟩
      · rw [m.emergencyFlatten_spec.2.1,flat]
        rfl
      · rw [none_,flat]
        simp

theorem scan_loop (m : MockTrader) : match candidates.find? (triggers now window held) with
    | none => (candidates.foldl (scanRecord now window held) (res,m)).2 = m ∧
        sales (candidates.foldl (scanRecord now window held) (res,m)).1 = sales res
    | some record => (∀ symbol : String, (candidates.foldl (scanRecord now window held) (res,m)).2.positions[symbol]? =
          if (m.closable symbol).isSome then none else m.positions[symbol]?) ∧
        sales (candidates.foldl (scanRecord now window held) (res,m)).1 =
          sales res ++ ((m.closable record.symbol).map fun pos => (record.symbol,pos.quantity)).toList := by
  induction candidates generalizing res with
  | nil => exact ⟨rfl,rfl⟩
  | cons record candidates ih =>
    rw [foldl_cons,find?_cons]
    cases due : triggers now window held record with
    | false =>
      obtain ⟨res',step,none_⟩ := scanRecord_idle due res m
      rw [step,← none_]
      exact ih res'
    | true =>
      obtain ⟨res',step,sold⟩ := scanRecord_triggered due res m
      obtain ⟨positions,rest⟩ := scan_flat candidates res' (closable_flattened m)
      rw [step]
      exact ⟨fun symbol => (positions symbol).trans (m.emergencyFlatten_spec.2.1 symbol),rest.trans sold⟩

theorem posBySymbol_get (keyed : m.Keyed) (symbol : String) :
    (posBySymbol m.getPositions)[symbol]? = (m.positions[symbol]?).map (·.quantity) := by
  have collected : posBySymbol m.getPositions = Book.collectInto ∅ (m.positions.toList.map (·.1))
      fun symbol => (m.positions[symbol]?).map (·.quantity) := by
    rw [posBySymbol,MockTrader.getPositions,foldl_map,Book.collectInto,foldl_map]
    refine foldl_ext _ _ _ fun book entry member => ?_
    have found := mem_toList_iff_getElem?_eq_some.mp member
    have own : entry.2.symbol = entry.1 := keyed entry.1 entry.2 found
    rw [found,map_some]
    cases provided : m.config.priceProvider with
    | none => simp only [MockTrader.snapshot,provided,Option.isSome_none,Bool.false_eq_true,if_false,own]
    | some => simp only [MockTrader.snapshot,provided,Option.isSome_some,if_true,own]
  rw [collected,Book.get_collectInto]
  split
  · exact Option.or_none
  rename_i absent
  rw [MockTrader.mem_symbols,Option.not_isSome_iff_eq_none] at absent
  rw [absent]
  rfl

def Due (registry : StockStateRegistry) (now : Time) (window : Int) (symbol : String) : Prop :=
  ∃ record, registry.records[symbol]? = some record ∧ record.isInDelistingWindow now window = true

instance (registry : StockStateRegistry) (now : Time) (window : Int) (symbol : String) :
    Decidable (Due registry now window symbol) :=
  decidable_of_iff ((registry.records[symbol]?).any fun record => record.isInDelistingWindow now window) (by
    rw [Option.any_eq_true,Due])

/-- Only stocks that are due change hands, every held one is flat afterwards, and each is reported
as sold once, with the quantity that was held. -/
structure TouchesOnlyDue (due : String → Prop) (before : MockTrader) (res : LiquidationResult) (after : MockTrader) :
    Prop where
  others : ∀ symbol : String, ¬ due symbol → after.positions[symbol]? = before.positions[symbol]?
  flat : ∀ symbol, due symbol → ¬ after.holds symbol
  reported : ∀ (symbol : String) (pos : PositionInfo), due symbol → before.positions[symbol]? = some pos →
    0 < pos.quantity →
      ((res.actions.filter fun action => action.symbol = symbol ∧ action.sold).map (·.quantity)) = [pos.quantity]

theorem reported_sales (symbol : String) :
    (res.actions.filter fun action => action.symbol = symbol ∧ action.sold).map (·.quantity) =
      ((sales res).filter fun sale => sale.1 = symbol).map (·.2) := by
  rw [sales,filter_map,map_map,filter_filter]
  congr 1
  refine filter_congr fun action _ => ?_
  simp

theorem mem_listing {registry : StockStateRegistry} {state : StockState} {candidates : List StockStateRecord}
    (listing : registry.Lists state candidates) :
    record ∈ candidates ↔ registry.records[record.symbol]? = some record ∧ record.state = state := by
  rw [listing.1.mem_iff,mem_filter,decide_eq_true_eq,mem_map]
  refine and_congr_left fun _ => ⟨?_,fun found => ?_⟩
  · rintro ⟨entry,member,rfl⟩
    have found := mem_toList_iff_getElem?_eq_some.mp member
    rw [registry.keyed entry.1 entry.2 found]
    exact found
  · exact ⟨(record.symbol,record),mem_toList_iff_getElem?_eq_some.mpr found,rfl⟩

theorem triggers_iff {registry : StockStateRegistry} (keyed : m.Keyed)
    (found : registry.records[record.symbol]? = some record) :
    triggers now window (posBySymbol m.getPositions) record = true ↔
      Due registry now window record.symbol ∧ m.holds record.symbol := by
  rw [triggers,decide_eq_true_eq,posBySymbol_get keyed]
  refine and_congr ⟨fun inside => ⟨record,found,inside⟩,?_⟩ ?_
  · rintro ⟨other,there,inside⟩
    cases found.symm.trans there
    exact inside
  · cases position : m.positions[record.symbol]? with
    | _ => simp [MockTrader.holds,position]

theorem scan_eq (now : Time) (window : Int) (candidates : List StockStateRecord) (m : MockTrader) :
    scan now window candidates m =
      candidates.foldl (scanRecord now window (posBySymbol m.getPositions)) (⟨now,[],0,0⟩,m) := by
  rw [scan]
  split
  next empty =>
    rw [length_eq_zero_iff.mp empty]
    rfl
  · rfl

section
variable {registry : StockStateRegistry} {candidates : List StockStateRecord}

variable {symbol : String}

section
variable (listing : registry.Lists .delisting candidates) (keyed : m.Keyed)
include listing keyed

theorem due_triggers (due : Due registry now window symbol) (held : m.holds symbol) :
    ∃ record ∈ candidates, triggers now window (posBySymbol m.getPositions) record = true := by
  obtain ⟨record,found,inside⟩ := due
  have own : record.symbol = symbol := registry.keyed symbol record found
  have delisting : record.state = .delisting := (of_decide_eq_true inside).1
  rw [← own] at found held
  exact ⟨record,(mem_listing listing).mpr ⟨found,delisting⟩,(triggers_iff keyed found).mpr ⟨⟨record,found,inside⟩,held⟩⟩

theorem scan_idle (idle : ∀ symbol, Due registry now window symbol → ¬ m.holds symbol) :
    (scan now window candidates m).2 = m := by
  have loop := @scan_loop now window (posBySymbol m.getPositions) candidates ⟨now,[],0,0⟩ m
  have quiet : candidates.find? (triggers now window (posBySymbol m.getPositions)) = none := by
    refine find?_eq_none.mpr fun record member triggered => ?_
    obtain ⟨due,held⟩ := (triggers_iff keyed ((mem_listing listing).mp member).1).mp triggered
    exact idle _ due held
  rw [quiet] at loop
  rw [scan_eq]
  exact loop.1

/-- Once a held stock is due, every position is closed, and the sale of one due stock reported. -/
theorem scan_closes_all (priced : m.Priced) (due : Due registry now window symbol) (held : m.holds symbol) :
    (∀ other : String, (scan now window candidates m).2.positions[other]? =
      if (m.closable other).isSome then none else m.positions[other]?) ∧
    ∃ first pos, Due registry now window first ∧ m.positions[first]? = some pos ∧ 0 < pos.quantity ∧
      sales (scan now window candidates m).1 = [(first,pos.quantity)] := by
  have loop := @scan_loop now window (posBySymbol m.getPositions) candidates ⟨now,[],0,0⟩ m
  cases search : candidates.find? (triggers now window (posBySymbol m.getPositions)) with
  | none =>
    obtain ⟨record,member,triggered⟩ := due_triggers listing keyed due held
    exact absurd triggered (find?_eq_none.mp search record member)
  | some record =>
    have found := ((mem_listing listing).mp (mem_of_find?_eq_some search)).1
    obtain ⟨first,pos,position,some_⟩ := (triggers_iff keyed found).mp (find?_some search)
    rw [search] at loop
    rw [scan_eq]
    refine ⟨loop.1,record.symbol,pos,first,position,some_,loop.2.trans ?_⟩
    rw [MockTrader.closable_of_priced priced position some_]
    rfl

end

/-- A scan touches only stocks that are due, and reports the sale of each, exactly when a stock
that is due and held is the only one held. -/
theorem scan_touchesOnlyDue_iff (listing : registry.Lists .delisting candidates) (keyed : m.Keyed) (priced : m.Priced) :
    TouchesOnlyDue (Due registry now window) m (scan now window candidates m).1 (scan now window candidates m).2 ↔
      ∀ symbol, Due registry now window symbol → m.holds symbol → ∀ other, m.holds other → other = symbol := by
  by_cases idle : ∀ symbol, Due registry now window symbol → ¬ m.holds symbol
  · rw [scan_idle listing keyed idle]
    refine ⟨fun _ symbol due held => absurd held (idle symbol due),fun _ => ⟨fun _ _ => rfl,idle,?_⟩⟩
    exact fun symbol pos due found some_ => absurd ⟨pos,found,some_⟩ (idle symbol due)
  · push Not at idle
    obtain ⟨symbol,due,held⟩ := idle
    obtain ⟨closed,first,sale,first_due,first_found,first_some,sold⟩ := scan_closes_all listing keyed priced due held
    -- Whatever is held is closed, so it must be due; and only the first due stock is reported.
    have only (touches : TouchesOnlyDue (Due registry now window) m (scan now window candidates m).1
        (scan now window candidates m).2) (other : String) (held : m.holds other) : other = first := by
      obtain ⟨pos,found,some_⟩ := held
      by_cases other_due : Due registry now window other
      · have reported := touches.reported other pos other_due found some_
        rw [reported_sales,sold] at reported
        by_contra different
        simp [Ne.symm different] at reported
      · have same := touches.others other other_due
        rw [closed,MockTrader.closable_of_priced priced found some_,found] at same
        cases same
    refine ⟨fun touches one _ one_held other held => ?_,fun alone => ⟨fun other spared => ?_,?_,?_⟩⟩
    · rw [only touches other held,only touches one one_held]
    · rw [closed]
      refine if_neg fun closes => spared ?_
      rw [alone first first_due ⟨sale,first_found,first_some⟩ other (MockTrader.holds_of_closable closes)]
      exact first_due
    · rintro other - ⟨pos,left,some_⟩
      rw [closed] at left
      split at left
      · cases left
      rename_i stuck
      exact stuck (by rw [MockTrader.closable_of_priced priced left some_]; rfl)
    · intro other pos _ found some_
      cases alone first first_due ⟨sale,first_found,first_some⟩ other ⟨pos,found,some_⟩
      cases first_found.symm.trans found
      rw [reported_sales,sold]
      simp

end

/-! A trader that bought some stocks, of which the first is about to be delisted. -/

def delistingRegistry : StockStateRegistry :=
  (StockStateRegistry.empty.setState "600001.SH" .delisting "" (10 * dayNs) 0).toOption.getD .empty

def holding (symbols : List String) : MockTrader :=
  symbols.foldl (fun m symbol => (m.submitOrder symbol .long .market 100 0).2)
    (.newMockTrader ⟨0,0,0,0,0,0,some fun _ => 10,.unset,0,0⟩ id)

theorem holding_keyed (symbols : List String) : (holding symbols).Keyed :=
  foldlRecOn symbols _ (MockTrader.newMockTrader_keyed _ _) fun _ keyed _ _ =>
    MockTrader.submitOrder_keyed keyed _ _ _ _ _

theorem holding_priced (symbols : List String) : (holding symbols).Priced := by
  have fed : (holding symbols).config.priceProvider = some fun _ => 10 :=
    foldlRecOn (motive := fun m : MockTrader => m.config.priceProvider = some fun _ => 10) symbols _ rfl
      fun m fed symbol _ => by rw [MockTrader.submitOrder_config,fed]
  exact MockTrader.priced_of_provider fed fun _ => by norm_num

theorem alone_scan : TouchesOnlyDue (Due delistingRegistry (9 * dayNs) dayNs) (holding ["600001.SH"])
      (scan (9 * dayNs) dayNs (delistingRegistry.listByState .delisting) (holding ["600001.SH"])).1
      (scan (9 * dayNs) dayNs (delistingRegistry.listByState .delisting) (holding ["600001.SH"])).2 := by
  refine (scan_touchesOnlyDue_iff (delistingRegistry.listByState_lists .delisting) (holding_keyed _)
    (holding_priced _)).mpr ?_
  have only : (holding ["600001.SH"]).positions.All fun symbol _ => symbol = "600001.SH" := by decide +kernel
  rintro symbol _ ⟨pos,held,-⟩ other ⟨pos',other_held,-⟩
  rw [only symbol pos held,only other pos' other_held]

/-- The stock next to the one that is delisted is sold with it. -/
theorem bystander_sold : (holding ["600001.SH","600000.SH"]).Keyed ∧ (holding ["600001.SH","600000.SH"]).Priced ∧
    delistingRegistry.Lists .delisting (delistingRegistry.listByState .delisting) ∧
    ¬ TouchesOnlyDue (Due delistingRegistry (9 * dayNs) dayNs) (holding ["600001.SH","600000.SH"])
      (scan (9 * dayNs) dayNs (delistingRegistry.listByState .delisting) (holding ["600001.SH","600000.SH"])).1
      (scan (9 * dayNs) dayNs (delistingRegistry.listByState .delisting) (holding ["600001.SH","600000.SH"])).2 := by
  refine ⟨holding_keyed _,holding_priced _,delistingRegistry.listByState_lists _,fun touches => ?_⟩
  have kept := touches.others "600000.SH" (by decide +kernel)
  revert kept
  decide +kernel

end ForcedLiquidator
end QuantTrading
