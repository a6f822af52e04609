import Mathlib.Data.Rat.Floor

/-! Take-profit rules checked tick by tick (`take_profit.go`). A rule keeps its state in the
metadata map of a position that is passed by value: what it writes into a map stays, and what it
writes into one it had to make is lost.
-/
namespace QuantTrading.TakeProfit
open List

structure Metadata where
  trailingActivated : Option Bool
  (trailingHigh tieredLastTriggered tieredOriginalQty : Option ℚ)
deriving DecidableEq

def Metadata.empty : Metadata := ⟨none,none,none,none⟩

/-- What the rules read of a position; no map is nil. -/
structure Holding where
  (quantity avgCost : ℚ)
  metadata : Option Metadata

structure Action where
  level : ℕ
  (triggerPrice sellQuantity sellFraction : ℚ)
deriving DecidableEq

abbrev Rule := Holding → ℚ → Option Action × Option Metadata

structure Trailing where
  (activationPct trailPct : ℚ)

def Trailing.evaluate (t : Trailing) : Rule := fun pos currentPrice =>
  if pos.quantity ≤ 0 ∨ pos.avgCost ≤ 0 then (none,pos.metadata)
  else
    let metadata := pos.metadata.getD .empty
    if ¬ metadata.trailingActivated.getD false then
      -- Reaching the trigger neither sells nor is it written down.
      if currentPrice < pos.avgCost * (1 + t.activationPct) then (none,pos.metadata) else (none,pos.metadata)
    else
      let high := metadata.trailingHigh.getD 0
      let written :=
        if currentPrice > high then pos.metadata.map ({ · with trailingHigh := some currentPrice }) else pos.metadata
      let trigger := max high currentPrice * (1 - t.trailPct)
      (if currentPrice > trigger then none else some ⟨0,trigger,pos.quantity,1⟩,written)

def check (rule : Rule) (pos : Holding) (price : ℚ) : Option Action × Option Metadata :=
  if pos.quantity ≤ 0 ∨ price ≤ 0 then (none,pos.metadata) else rule pos price

/-- The answers to the ticks of a path, where the caller sells what it is told. -/
def ticks (rule : Rule) : Holding → List ℚ → List (Option Action)
  | _,[] => []
  | pos,price :: prices =>
    let (action,metadata) := check rule pos price
    action :: ticks rule ⟨pos.quantity - (action.map (·.sellQuantity)).getD 0,pos.avgCost,metadata⟩ prices

/-- The first tick at which a trailing rule is due, given the high since its activation. -/
def Trailing.due (t : Trailing) (cost : ℚ) : Option ℚ → List ℚ → Option ℕ
  | _,[] => none
  | none,price :: prices =>
    (t.due cost (if cost * (1 + t.activationPct) ≤ price then some price else none) prices).map (· + 1)
  | some high,price :: prices =>
    if price ≤ (1 - t.trailPct) * max high price then some 0
    else (t.due cost (some (max high price)) prices).map (· + 1)

theorem Trailing.ticks_eq {t : Trailing} {pos : Holding} (fresh : ∀ m ∈ pos.metadata, m.trailingActivated = none)
    (prices : List ℚ) : ticks t.evaluate pos prices = replicate prices.length none := by
  have still (price : ℚ) : check t.evaluate pos price = (none,pos.metadata) := by
    have inactive : (pos.metadata.getD .empty).trailingActivated = none := by
      cases found : pos.metadata with
      | none => rfl
      | some m => exact fresh m found
    simp [check,evaluate,inactive]
  induction prices with
  | nil => rfl
  | cons price prices ih => simpa [ticks,still,replicate_succ] using ih

/-- A rule that starts without an activation never sells, so it is right only where nothing is due. -/
theorem trailing_fires_iff (t : Trailing) (pos : Holding) (fresh : pos.metadata = none ∨ pos.metadata = some .empty)
    (prices : List ℚ) : (ticks t.evaluate pos prices).findIdx? Option.isSome = t.due pos.avgCost none prices ↔
      t.due pos.avgCost none prices = none := by
  have never : ticks t.evaluate pos prices = replicate prices.length none :=
    Trailing.ticks_eq (by rcases fresh with none_ | empty <;> simp_all [Metadata.empty]) prices
  have silent : (ticks t.evaluate pos prices).findIdx? Option.isSome = none := by simp [never]
  rw [silent,eq_comm]

def fivePercent : Trailing := ⟨1 / 20,2 / 25⟩

/-- At 11 the trailing starts, and half a yuan down it is not due. -/
theorem smallFall_silent : (ticks fivePercent.evaluate ⟨1000,10,none⟩ [10,11,10.5]).findIdx? Option.isSome =
    fivePercent.due 10 none [10,11,10.5] :=
  (trailing_fires_iff fivePercent ⟨1000,10,none⟩ (.inl rfl) [10,11,10.5]).mpr (by decide +kernel)

/-- A fall from 11 to 9 is due at the third tick and no tick sells. -/
theorem fallAfterActivation_unsold : fivePercent.due 10 none [10,11,9] = some 2 ∧
    ticks fivePercent.evaluate ⟨1000,10,some .empty⟩ [10,11,9] = [none,none,none] := by
  decide +kernel

structure Tier where
  (profitPct sellFraction : ℚ)

/-- Tiers as `NewTieredTakeProfit` accepts and sorts them. -/
structure Tiered where
  tiers : List Tier
  ascending : tiers.Pairwise fun a b => a.profitPct ≤ b.profitPct
  fractions : ∀ tier ∈ tiers, 0 ≤ tier.profitPct ∧ 0 < tier.sellFraction ∧ tier.sellFraction ≤ 1

/-- `math.Round`, half away from zero. -/
def mathRound (x : ℚ) : ℤ := if 0 ≤ x then ⌊x + 1 / 2⌋ else -⌊-x + 1 / 2⌋

def roundToLot (qty : ℚ) (lot : ℕ) : ℚ := if lot ≤ 1 then qty else mathRound (qty / lot) * lot

def truncate (x : ℚ) : ℤ := if 0 ≤ x then ⌊x⌋ else ⌈x⌉

def Metadata.nextIdx (m : Metadata) : ℤ := (m.tieredLastTriggered.map truncate).getD (-1) + 1

def Metadata.originalQty (m : Metadata) (quantity : ℚ) : ℚ :=
  match m.tieredOriginalQty with
  | some qty => if qty ≤ 0 then quantity else qty
  | none => quantity

def sellQty (originalQty sellFraction quantity : ℚ) : ℚ :=
  let rounded := roundToLot (originalQty * sellFraction) 100
  -- A lot rounded away sells the whole position.
  let sold := if rounded ≤ 0 then quantity else rounded
  if sold > quantity then quantity else sold

def Tiered.evaluate (t : Tiered) : Rule := fun pos currentPrice =>
  if pos.quantity ≤ 0 ∨ pos.avgCost ≤ 0 ∨ t.tiers = [] then (none,pos.metadata)
  else
    let m := pos.metadata.getD .empty
    if m.nextIdx < 0 then (none,pos.metadata)
    else match t.tiers[m.nextIdx.toNat]? with
    | none => (none,pos.metadata)
    | some tier =>
      let trigger := pos.avgCost * (1 + tier.profitPct)
      if currentPrice < trigger then (none,pos.metadata)
      else
        let originalQty := m.originalQty pos.quantity
        let sold := sellQty originalQty tier.sellFraction pos.quantity
        (some ⟨m.nextIdx.toNat + 1,trigger,sold,sold / originalQty⟩,
          pos.metadata.map ({ · with tieredLastTriggered := some m.nextIdx }))

/-- What is sold at each level, of the original quantity and capped by what is left. -/
def plan (original : ℚ) : ℕ → List Tier → ℚ → List (ℕ × ℚ)
  | _,[],_ => []
  | level,tier :: tiers,left =>
    let qty := min (roundToLot (original * tier.sellFraction) 100) left
    (level + 1,qty) :: plan original (level + 1) tiers (left - qty)

def sales (answers : List (Option Action)) : List (ℕ × ℚ) :=
  answers.filterMap (·.map fun action => (action.level,action.sellQuantity))

variable {t : Tiered} {tiers : List Tier} {level n : ℕ} {original left : ℚ} {pos : Holding}

theorem plan_levels : (plan original level tiers left).map Prod.fst = range' (level + 1) tiers.length := by
  induction tiers generalizing level left with
  | nil => rfl
  | cons tier tiers ih => simp [plan,ih,range'_succ]

theorem plan_sum (nonneg : 0 ≤ left) (n : ℕ) :
    (((plan original level tiers left).take n).map Prod.snd).sum ≤ left := by
  induction tiers generalizing level left n with
  | nil => simpa [plan]
  | cons tier tiers ih =>
    cases n with
    | zero => simpa
    | succ n =>
      have rest := @ih (level + 1) _ (sub_nonneg.mpr (min_le_right (roundToLot (original * tier.sellFraction) 100) left)) n
      simp only [plan,take_succ_cons,map_cons,sum_cons]
      linarith

/-- The map keeps the original quantity and the last of the first `n` tiers. -/
def Reached (original : ℚ) (n : ℕ) (metadata : Option Metadata) : Prop :=
  ∃ m, metadata = some m ∧ m.tieredOriginalQty = some original ∧ m.nextIdx = n

theorem sellQty_eq_min {fraction quantity : ℚ} (lot : 0 < roundToLot (original * fraction) 100) :
    sellQty original fraction quantity = min (roundToLot (original * fraction) 100) quantity := by
  simp only [sellQty,lot.not_ge,if_false,min_def]
  split_ifs <;> linarith

section Lots
variable (reached : Reached original n pos.metadata) (positive : 0 < original)
  (lots : ∀ tier ∈ t.tiers, 0 < roundToLot (original * tier.sellFraction) 100)
include reached positive lots

theorem Reached.check (price : ℚ) : check t.evaluate pos price = (none,pos.metadata) ∨
    ∃ tier action metadata, t.tiers[n]? = some tier ∧ check t.evaluate pos price = (some action,metadata) ∧
      Reached original (n + 1) metadata ∧ action.level = n + 1 ∧
      action.sellQuantity = min (roundToLot (original * tier.sellFraction) 100) pos.quantity := by
  obtain ⟨m,kept,originalQty,next⟩ := reached
  have whole : m.originalQty pos.quantity = original := by simp [Metadata.originalQty,originalQty,positive.not_ge]
  simp only [TakeProfit.check,Tiered.evaluate,kept,Option.getD_some,next,Int.toNat_natCast,whole]
  split_ifs with refused closed _
  · exact .inl rfl
  · exact .inl rfl
  · exact .inl rfl
  cases found : t.tiers[n]? with
  | none => exact .inl rfl
  | some tier =>
    dsimp only
    split_ifs with low
    · exact .inl rfl
    · exact .inr ⟨tier,_,_,rfl,rfl,⟨_,rfl,originalQty,by simp [Metadata.nextIdx,truncate]⟩,rfl,
        sellQty_eq_min (lots tier (mem_of_getElem? found))⟩

theorem Reached.sales (prices : List ℚ) :
    ∃ k, sales (ticks t.evaluate pos prices) = (plan original n (t.tiers.drop n) pos.quantity).take k := by
  induction prices generalizing n pos with
  | nil => exact ⟨0,rfl⟩
  | cons price prices ih =>
    rcases reached.check positive lots price with still | ⟨tier,action,metadata,found,fired,next,level,sold⟩
    · obtain ⟨k,rest⟩ := ih reached
      exact ⟨k,by simpa [ticks,still,sales] using rest⟩
    · obtain ⟨k,rest⟩ := @ih _ ⟨pos.quantity - action.sellQuantity,pos.avgCost,metadata⟩ next
      obtain ⟨inside,rfl⟩ := List.getElem?_eq_some_iff.mp found
      refine ⟨k + 1,?_⟩
      simp only [ticks,fired,drop_eq_getElem_cons inside,plan,take_succ_cons,← sold,← rest]
      simp [sales,level]

end Lots

/-- Each level is sold once and in order, as planned and within what was held. -/
structure SoldOnce (t : Tiered) (pos : Holding) (prices : List ℚ) : Prop where
  planned : ∃ k, sales (ticks t.evaluate pos prices) = (plan pos.quantity 0 t.tiers pos.quantity).take k
  levels : (sales (ticks t.evaluate pos prices)).map Prod.fst <+: range' 1 t.tiers.length
  total : ((sales (ticks t.evaluate pos prices)).map Prod.snd).sum ≤ pos.quantity

/-- Where the caller has recorded the quantity in the map and no lot is rounded away. -/
theorem tiers_soldOnce (t : Tiered) (pos : Holding) (m : Metadata) (held : 0 < pos.quantity)
    (kept : pos.metadata = some m) (original : m.tieredOriginalQty = some pos.quantity)
    (unfired : m.tieredLastTriggered = none)
    (lots : ∀ tier ∈ t.tiers, 0 < roundToLot (pos.quantity * tier.sellFraction) 100) (prices : List ℚ) :
    SoldOnce t pos prices := by
  have reached : Reached pos.quantity 0 pos.metadata := ⟨m,kept,original,by simp [Metadata.nextIdx,unfired]⟩
  obtain ⟨k,sold⟩ := reached.sales held lots prices
  refine ⟨⟨k,sold⟩,?_,?_⟩
  · rw [sold,map_take,drop_zero,plan_levels]
    exact take_prefix ..
  · rw [sold]
    exact plan_sum held.le k

def halves : Tiered := ⟨[⟨1 / 10,1 / 2⟩,⟨1 / 5,1 / 2⟩],by decide +kernel,by decide +kernel⟩

theorem halves_soldOnce : SoldOnce halves ⟨1000,10,some ⟨none,none,none,some 1000⟩⟩ [11,11,12] :=
  tiers_soldOnce _ _ _ (by decide +kernel) rfl rfl rfl (by decide +kernel) _

/-- With a nil map the first tier sells again at the next tick. -/
theorem nilMetadata_sellsAgain : sales (ticks halves.evaluate ⟨1000,10,none⟩ [11,11]) = [(1,500),(1,300)] ∧
    ¬ SoldOnce halves ⟨1000,10,none⟩ [11,11] := by
  have ran : sales (ticks halves.evaluate ⟨1000,10,none⟩ [11,11]) = [(1,500),(1,300)] := by decide +kernel
  refine ⟨ran,fun law => ?_⟩
  have once := law.levels
  rw [ran] at once
  exact absurd once (by decide)

end QuantTrading.TakeProfit
