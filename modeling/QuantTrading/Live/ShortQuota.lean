import QuantTrading.Library.Interleaving
import QuantTrading.Live.MarginLaws

/-! Calls of one margin account that overlap. ShortSell reads its quota and the quantity already
short in sections of their own, before the one that sells; any other call is one section.
-/
namespace QuantTrading.MarginAccount
open Library

variable {a after : MarginAccount} {symbol : String} {qty price : ℚ}

inductive Call where
  | shortSell (symbol : String) (qty price : ℚ)
  | readExisting (symbol : String) (qty price maxQty : ℚ)
  | sell (symbol : String) (qty price : ℚ) (existing : Option ℚ)
  | locked (op : Op)

def Op.oneSection : Op → Bool
  | .trade .shortSell _ _ _ => false
  | .setShortable _ => false
  | _ => true

def Call.starts : Call → Bool
  | .shortSell _ _ _ => true
  | .locked op => op.oneSection
  | _ => false

def callStep (a : MarginAccount) : Call → MarginAccount × Option Call
  | .shortSell symbol qty price =>
    match validateTrade symbol qty price with
    | .error _ => (a,none)
    | .ok () =>
      match a.maxShortableQty symbol with
      | none => (a,none)
      | some maxQty =>
        if maxQty > 0 then (a,some (.readExisting symbol qty price maxQty))
        else (a,some (.sell symbol qty price none))
  | .readExisting symbol qty price maxQty =>
    let existing := a.shortQuantity symbol
    match checkQuota maxQty existing qty with
    | .error _ => (a,none)
    | .ok () => (a,some (.sell symbol qty price (some existing)))
  | .sell symbol qty price _ =>
    match a.shortSellLocked symbol qty price with
    | .error _ => (a,none)
    | .ok (_,after) => (after,none)
  | .locked op => (a.step op,none)

def calls : Protocol MarginAccount Call Unit := ⟨Call.starts,fun a call _ => a.callStep call⟩

theorem shortSell_alone (a : MarginAccount) (symbol : String) (qty price : ℚ) :
    (run calls.move ⟨a,[.shortSell symbol qty price]⟩ [.advance 0 (),.advance 0 (),.advance 0 ()]).shared =
      a.step (.trade .shortSell symbol qty price) := by
  simp only [step,trade,shortSell,checkShortable]
  cases valid : validateTrade symbol qty price with
  | error => simp [run,Protocol.move,calls,callStep,valid,bind,Except.bind]
  | ok =>
    cases listed : a.maxShortableQty symbol with
    | none => simp [run,Protocol.move,calls,callStep,valid,listed,bind,Except.bind]
    | some maxQty =>
      by_cases limited : maxQty > 0
      · cases quota : checkQuota maxQty (a.shortQuantity symbol) qty with
        | error => simp [run,Protocol.move,calls,callStep,valid,listed,limited,quota,bind,Except.bind]
        | ok =>
          cases sold : a.shortSellLocked symbol qty price with
          | _ => simp [run,Protocol.move,calls,callStep,valid,listed,limited,quota,sold,bind,Except.bind]
      · cases sold : a.shortSellLocked symbol qty price with
        | _ => simp [run,Protocol.move,calls,callStep,valid,listed,limited,sold,bind,Except.bind]

def Within (a : MarginAccount) (symbol : String) (quantity : ℚ) : Prop :=
  ∀ maxQty, a.maxShortableQty symbol = some maxQty → 0 < maxQty → quantity ≤ maxQty

def QuotaKept (a : MarginAccount) : Prop := ∀ symbol, a.Within symbol (a.shortQuantity symbol)

theorem Within.mono {less more : ℚ} (within : a.Within symbol more) (le : less ≤ more)
    (same : after.shortable = a.shortable) : after.Within symbol less := by
  intro maxQty listed positive
  rw [maxShortableQty,same] at listed
  exact le.trans (within maxQty listed positive)

theorem shortQuantity_nonneg (kept : WellKept a) (symbol : String) : 0 ≤ a.shortQuantity symbol := by
  rw [shortQuantity]
  cases found : a.shortPositions[symbol]? with
  | none => exact le_rfl
  | some pos => exact (kept.shorts symbol pos found).1.le

/-- What a call in one section may do: nothing to the list, and nothing that adds to a short
position. -/
structure Covering (a after : MarginAccount) : Prop where
  shortable : after.shortable = a.shortable
  shortQuantity : ∀ symbol, after.shortQuantity symbol ≤ a.shortQuantity symbol

theorem Traded.covering {operation : MarginOperation} (traded : Traded a symbol qty price operation after)
    (qtyPos : 0 < qty) (opens : operation ≠ .shortSell) : Covering a after := by
  cases traded with
  | shortSell => exact absurd rfl opens
  | buyToCover found enough =>
    refine ⟨rfl,fun other => ?_⟩
    simp only [shortQuantity,Book.get_put]
    split
    next same =>
      subst same
      rw [quantity_coverShort enough,found,map_some,getD_some]
      linarith
    · exact le_rfl
  | _ => exact ⟨rfl,fun _ => le_rfl⟩

theorem step_covering (kept : WellKept a) {op : Op} (single : op.oneSection = true) : Covering a (a.step op) := by
  cases op with
  | trade operation symbol qty price =>
    have opens : operation ≠ .shortSell := by
      rintro rfl
      cases single
    rw [step]
    split
    · exact ⟨rfl,fun _ => le_rfl⟩
    rename_i done
    obtain ⟨qtyPos,-,traded⟩ := trade_ok done
    exact traded.covering qtyPos opens
  | accrueInterest =>
    rw [step,accrueInterest]
    split_ifs <;> exact ⟨rfl,fun _ => le_rfl⟩
  | deposit =>
    rw [step,deposit]
    split <;> exact ⟨rfl,fun _ => le_rfl⟩
  | withdraw =>
    simp only [step,withdraw]
    split_ifs <;> exact ⟨rfl,fun _ => le_rfl⟩
  | forceLiquidate =>
    rw [step,forceLiquidate_account kept]
    exact ⟨rfl,fun symbol => shortQuantity_nonneg kept symbol⟩
  | setShortable => cases single

def readHolds (a : MarginAccount) : Call → Unit → Bool
  | .sell symbol _ _ (some existing), _ => a.shortQuantity symbol ≤ existing
  | _, _ => true

def Checked (a : MarginAccount) : Call → Prop
  | .shortSell _ _ _ => True
  | .readExisting symbol qty price maxQty => 0 < qty ∧ 0 < price ∧ a.maxShortableQty symbol = some maxQty
  | .sell symbol qty price (some existing) => 0 < qty ∧ 0 < price ∧ a.Within symbol (existing + qty)
  | .sell symbol qty price none => 0 < qty ∧ 0 < price ∧ ∀ quantity, a.Within symbol quantity
  | .locked op => op.oneSection = true

theorem Checked.of_shortable {call : Call} (same : after.shortable = a.shortable) (checked : a.Checked call) :
    after.Checked call := by
  cases call with
  | shortSell => trivial
  | readExisting =>
    obtain ⟨qtyPos,pricePos,listed⟩ := checked
    exact ⟨qtyPos,pricePos,by rw [maxShortableQty,same]; exact listed⟩
  | sell symbol qty price existing =>
    cases existing with
    | none =>
      obtain ⟨qtyPos,pricePos,within⟩ := checked
      exact ⟨qtyPos,pricePos,fun quantity => (within quantity).mono le_rfl same⟩
    | some =>
      obtain ⟨qtyPos,pricePos,within⟩ := checked
      exact ⟨qtyPos,pricePos,within.mono le_rfl same⟩
  | locked => exact checked

theorem shortSellLocked_ok {result : MarginTradeResult} (ok : a.shortSellLocked symbol qty price = .ok (result,after)) :
    Traded a symbol qty price .shortSell after := by
  obtain ⟨_,-,done⟩ := bind_eq_ok.mp ok
  cases pure_eq_ok.mp done
  exact .shortSell

theorem shortQuantity_sold (traded : Traded a symbol qty price .shortSell after) (other : String) :
    after.shortQuantity other = a.shortQuantity other + if symbol = other then qty else 0 := by
  cases traded
  simp only [shortQuantity,Book.get_put]
  split
  next same =>
    subst same
    rw [map_some,getD_some,quantity_addToShort]
  · rw [add_zero]

theorem callStep_shortable (kept : WellKept a) {call : Call} (checked : a.Checked call) :
    (a.callStep call).1.shortable = a.shortable := by
  cases call with
  | shortSell =>
    rw [callStep]
    iterate 2 (split; · rfl)
    · split <;> rfl
  | readExisting =>
    simp only [callStep]
    split <;> rfl
  | sell symbol qty price existing =>
    rw [callStep]
    split
    · rfl
    rename_i done
    cases shortSellLocked_ok done
    rfl
  | locked => exact (step_covering kept checked).shortable

theorem callStep_kept {call : Call} (met : a.readHolds call () = true) (kept : WellKept a ∧ a.QuotaKept)
    (checked : a.Checked call) :
    (WellKept (a.callStep call).1 ∧ (a.callStep call).1.QuotaKept) ∧
      ∀ rest, (a.callStep call).2 = some rest → (a.callStep call).1.Checked rest := by
  obtain ⟨well,quota⟩ := kept
  cases call with
  | shortSell symbol qty price =>
    rw [callStep]
    split
    · exact ⟨⟨well,quota⟩,nofun⟩
    rename_i valid
    obtain ⟨-,qtyPos,pricePos⟩ := validateTrade_ok valid
    split
    · exact ⟨⟨well,quota⟩,nofun⟩
    rename_i maxQty listed
    split
    · refine ⟨⟨well,quota⟩,fun rest goesOn => ?_⟩
      cases goesOn
      exact ⟨qtyPos,pricePos,listed⟩
    next unlimited =>
      refine ⟨⟨well,quota⟩,fun rest goesOn => ?_⟩
      cases goesOn
      refine ⟨qtyPos,pricePos,fun quantity limit found positive => ?_⟩
      cases listed.symm.trans found
      exact absurd positive unlimited
  | readExisting symbol qty price maxQty =>
    obtain ⟨qtyPos,pricePos,listed⟩ := checked
    simp only [callStep]
    split
    · exact ⟨⟨well,quota⟩,nofun⟩
    rename_i fits
    refine ⟨⟨well,quota⟩,fun rest goesOn => ?_⟩
    cases goesOn
    refine ⟨qtyPos,pricePos,fun limit found positive => ?_⟩
    cases listed.symm.trans found
    rw [checkQuota] at fits
    split at fits
    · cases fits
    rename_i fitting
    exact not_lt.mp fitting
  | sell symbol qty price existing =>
    rw [callStep]
    split
    · exact ⟨⟨well,quota⟩,nofun⟩
    rename_i done
    have traded := shortSellLocked_ok done
    have same := callStep_shortable well checked
    rw [callStep,done] at same
    have bounds : 0 < qty ∧ 0 < price ∧ a.Within symbol (a.shortQuantity symbol + qty) := by
      cases existing with
      | none => exact ⟨checked.1,checked.2.1,checked.2.2 _⟩
      | some existing =>
        have read : a.shortQuantity symbol ≤ existing := of_decide_eq_true met
        exact ⟨checked.1,checked.2.1,checked.2.2.mono (add_le_add_left read qty) rfl⟩
    obtain ⟨qtyPos,pricePos,within⟩ := bounds
    refine ⟨⟨well.traded traded qtyPos pricePos,fun other => ?_⟩,nofun⟩
    rw [shortQuantity_sold traded]
    split
    next sold =>
      subst sold
      exact within.mono le_rfl same
    · rw [add_zero]
      exact (quota other).mono le_rfl same
  | locked op =>
    have covering := step_covering well checked
    refine ⟨⟨well.step op,fun symbol => ?_⟩,nofun⟩
    exact (quota symbol).mono (covering.shortQuantity symbol) covering.shortable

theorem calls_keep_quota : calls.Keeps readHolds (fun a => WellKept a ∧ a.QuotaKept) Checked where
  begins a call starts _ := by
    cases call with
    | shortSell => trivial
    | locked => exact starts
    | _ => cases starts
  steps a call _ met kept checked := callStep_kept met kept checked
  stable a call _ other _ kept own checked := checked.of_shortable (callStep_shortable kept.1 own)

/-- Overlapping calls keep the quota while every sale finds no more shares short than its
quota was checked against. -/
theorem shortQuota_kept (reachable : Reachable a) (initial : a.QuotaKept) {moves : List (Move Call Unit)}
    (orderly : calls.Orderly readHolds ⟨a,[]⟩ moves) :
    Along calls.move (fun pool => pool.shared.QuotaKept) ⟨a,[]⟩ moves :=
  (calls_keep_quota.along ⟨reachable.wellKept,initial⟩ orderly).mono fun _ inv => inv.1.2

def lendable : MarginAccount :=
  run step (opened 100000) [.setShortable ((∅ : ShortableList).insert "600000" ⟨"600000",100⟩)]

theorem lendable_quotaKept : lendable.QuotaKept := fun _ _ _ positive => positive.le

/-- Two sales of 50 shares, the second after the first. -/
theorem successive_sales_keep_quota : Along calls.move (fun pool => pool.shared.QuotaKept) ⟨lendable,[]⟩
      [.call (.shortSell "600000" 50 10),.advance 0 (),.advance 0 (),.advance 0 (),
        .call (.shortSell "600000" 50 10),.advance 0 (),.advance 0 (),.advance 0 ()] :=
  shortQuota_kept (opened_reachable (by norm_num) _) lendable_quotaKept (by decide +kernel)

/-- Two sales of 60 shares that both read an empty book leave 120 of 100 shares short. -/
theorem overlapping_sales_exceed_quota : Reachable lendable ∧ lendable.QuotaKept ∧
    lendable.maxShortableQty "600000" = some 100 ∧ (run calls.move ⟨lendable,[]⟩
      [.call (.shortSell "600000" 60 10),.call (.shortSell "600000" 60 10),.advance 0 (),.advance 1 (),
        .advance 0 (),.advance 1 (),.advance 0 (),.advance 0 ()]).shared.shortQuantity "600000" = 120 :=
  ⟨opened_reachable (by norm_num) _,lendable_quotaKept,by decide +kernel,by decide +kernel⟩

end QuantTrading.MarginAccount
