import QuantTrading.Live.MarginLaws

/-! The margin account's books against each other: the balance and the financing of the
positions, the sale price of a short and what it was sold for. A cover that leaves part of a
short open strikes out its sale price, and is the one call after which they disagree.
-/
namespace QuantTrading.MarginAccount
open Library
open MarginAccount (step)

variable {a after : MarginAccount} {symbol : String} {qty price : ℚ}

structure Consistent (a : MarginAccount) : Prop where
  financed : a.longPositions.total (fun _ p => p.financingAmount) ≤ a.financingBalance
  financing : 0 ≤ a.longPositions.total fun _ p => p.financingAmount
  longs : a.longPositions.All fun _ p => 0 < p.quantity
  shorts : a.shortPositions.All fun _ p => 0 < p.quantity ∧ 0 < p.salePrice ∧ p.salePrice * p.quantity = p.proceeds

/-- What a reachable account leaves to be shown: its shorts are worth what they were sold for. -/
theorem WellKept.consistent_iff (kept : WellKept a) : Consistent a ↔
    a.shortPositions.All fun _ p => 0 < p.salePrice ∧ p.salePrice * p.quantity = p.proceeds := by
  constructor
  · intro consistent symbol p found
    exact (consistent.shorts symbol p found).2
  · intro priced
    refine ⟨kept.financed,Book.total_nonneg kept.financing_nonneg,?_,?_⟩
    · exact fun symbol p found => (kept.longs symbol p found).1
    · exact fun symbol p found => ⟨(kept.shorts symbol p found).1,priced symbol p found⟩

theorem addToShort_priced {existing : Option MarginShortPosition} (qtyPos : 0 < qty) (pricePos : 0 < price)
    (held : ∀ pos, existing = some pos → 0 < pos.quantity ∧ 0 ≤ pos.proceeds) :
    0 < (addToShort existing symbol qty price (qty * price)).salePrice ∧
      (addToShort existing symbol qty price (qty * price)).salePrice *
        (addToShort existing symbol qty price (qty * price)).quantity =
      (addToShort existing symbol qty price (qty * price)).proceeds := by
  cases existing with
  | none => exact ⟨pricePos,mul_comm price qty⟩
  | some pos =>
    obtain ⟨quantity,proceeds⟩ := held pos rfl
    have total : 0 < pos.quantity + qty := add_pos quantity qtyPos
    have sold : 0 < pos.proceeds + qty * price := add_pos_of_nonneg_of_pos proceeds (mul_pos qtyPos pricePos)
    exact ⟨div_pos sold total,div_mul_cancel₀ _ total.ne'⟩

def CoversInFull (a : MarginAccount) : Op → Prop
  | .trade .buyToCover symbol qty price =>
    (a.trade .buyToCover symbol qty price).isOk = true →
      ∀ pos, a.shortPositions[symbol]? = some pos → qty = pos.quantity
  | _ => True

theorem coverShort_eq_none_iff {pos : MarginShortPosition} : coverShort pos qty = none ↔ pos.quantity ≤ qty := by
  simp [coverShort]

theorem salePrice_coverShort {pos left : MarginShortPosition} (covered : coverShort pos qty = some left) :
    left.salePrice = 0 := by
  simp only [coverShort] at covered
  split at covered
  · cases covered
  cases covered
  rfl

theorem Consistent.traded_iff {operation : MarginOperation} {result : MarginTradeResult} (kept : WellKept a)
    (consistent : Consistent a) (ok : a.trade operation symbol qty price = .ok (result,after)) :
    Consistent after ↔ CoversInFull a (.trade operation symbol qty price) := by
  obtain ⟨qtyPos,pricePos,traded⟩ := trade_ok ok
  rw [(kept.traded traded qtyPos pricePos).consistent_iff]
  have priced := kept.consistent_iff.mp consistent
  cases traded with
  | shortSell =>
    refine iff_of_true (priced.put symbol _ ?_) trivial
    intro p written
    cases written
    refine addToShort_priced qtyPos pricePos ?_
    intro pos found
    obtain ⟨quantity,-,proceeds⟩ := kept.shorts symbol pos found
    exact ⟨quantity,proceeds⟩
  | buyToCover found enough =>
    rename_i pos
    constructor
    · intro all _ other same
      obtain rfl : pos = other := Option.some.inj (found.symm.trans same)
      by_contra part
      cases covered : coverShort pos qty with
      | none => exact part (le_antisymm enough (coverShort_eq_none_iff.mp covered))
      | some left =>
        have free := (all symbol left (by rw [covered,Book.get_put_self])).1
        rw [salePrice_coverShort covered] at free
        exact lt_irrefl 0 free
    · intro full
      have whole : qty = pos.quantity := full (by rw [ok]; rfl) pos found
      refine priced.put symbol _ ?_
      rw [coverShort_eq_none_iff.mpr whole.ge]
      simp
  | _ => exact iff_of_true priced trivial

theorem Consistent.step_iff (kept : WellKept a) (consistent : Consistent a) (op : Op) :
    Consistent (a.step op) ↔ CoversInFull a op := by
  have priced := kept.consistent_iff.mp consistent
  cases op with
  | trade operation symbol qty price =>
    rw [step]
    cases done : a.trade operation symbol qty price with
    | error =>
      refine iff_of_true consistent ?_
      cases operation with
      | buyToCover =>
        intro ok
        rw [done] at ok
        cases ok
      | _ => trivial
    | ok => exact consistent.traded_iff kept done
  | accrueInterest =>
    refine iff_of_true ?_ trivial
    rw [(kept.step _).consistent_iff,step,accrueInterest]
    split_ifs <;> exact priced
  | deposit =>
    refine iff_of_true ?_ trivial
    rw [(kept.step _).consistent_iff,step,deposit]
    split <;> exact priced
  | withdraw =>
    refine iff_of_true ?_ trivial
    rw [(kept.step _).consistent_iff]
    simp only [step,withdraw]
    split_ifs <;> exact priced
  | forceLiquidate =>
    refine iff_of_true ?_ trivial
    rw [(kept.step _).consistent_iff,step,forceLiquidate_account kept]
    exact Book.all_empty _
  | setShortable =>
    refine iff_of_true ?_ trivial
    rw [(kept.step _).consistent_iff]
    exact priced

/-- Along every run of a new account the books agree exactly as long as no short is covered in part. -/
theorem books_consistent_iff {accountID : String} {initialCash : ℚ} {cfg : MarginConfig} {shortable : ShortableList}
    {fresh : MarginAccount} (made : newMarginAccount accountID initialCash cfg shortable = .ok fresh) (ops : List Op) :
    Along step Consistent fresh ops ↔ Guarded step CoversInFull fresh ops := by
  have kept := newMarginAccount_wellKept made
  have initial : Consistent fresh := by
    rw [newMarginAccount] at made
    split_ifs at made
    obtain ⟨_,-,opened⟩ := bind_eq_ok.mp made
    cases pure_eq_ok.mp opened
    exact ⟨le_rfl,le_rfl,Book.all_empty _,Book.all_empty _⟩
  have needed (state : MarginAccount) (op : Op) (consistent : Consistent state) (kept : WellKept state) :
      Consistent (state.step op) ↔ CoversInFull state op := consistent.step_iff kept op
  exact along_iff_guarded needed initial (.of_invariant (fun _ op kept => kept.step op) kept ops)

theorem covered_in_full_consistent :
    Along step Consistent (opened 1000) (shortened ++ [.trade .buyToCover "600000" 100 9]) := by
  refine (books_consistent_iff (opened_made (by norm_num)) _).mpr ⟨trivial,trivial,fun _ => ?_,trivial⟩
  decide +kernel

/-- Covering 50 of the 100 shares leaves a short without a sale price: unquoted, the account owes
nothing for the other 50. -/
theorem partial_cover_inconsistent :
    let covered := run step (opened 1000) (shortened ++ [.trade .buyToCover "600000" 50 9])
    covered.shortQuantity "600000" = 50 ∧ covered.totalDebt ∅ = 0 ∧
      ¬ Along step Consistent (opened 1000) (shortened ++ [.trade .buyToCover "600000" 50 9]) := by
  refine ⟨by decide +kernel,by decide +kernel,?_⟩
  intro along
  obtain ⟨pos,found,zero⟩ : ∃ pos, (run step (opened 1000) (shortened ++ [.trade .buyToCover "600000" 50 9])).shortPositions["600000"]? =
      some pos ∧ pos.salePrice = 0 := by decide +kernel
  exact ((along.last.shorts _ _ found).2.1).ne' zero

end QuantTrading.MarginAccount
