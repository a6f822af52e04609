import QuantTrading.Live.MockAccount

/-! The audit of an emergency flatten. The shares of a position that were bought today are counted
over the history of calls; the flatten's own record of the override looks at two counters of the
position, and misses the positions that hold older shares as well.
-/
namespace QuantTrading.MockTrader
open Library List

variable {m : MockTrader} {symbol : String}

/-- The shares of a symbol bought on the current day and held, after one more call. A sale takes
settled shares only; a flatten takes all of them. -/
def countToday (symbol : String) (m : MockTrader) (count : ℚ) : Call → ℚ
  | .submitOrder other .long orderType quantity price =>
    if other = symbol then count + (((m.submitOrder other .long orderType quantity price).1.toOption).map (·.filledQty)).getD 0
    else count
  | .advanceDay => 0
  | .emergencyFlatten => if m.emergencyFlatten.1.sold.any (·.symbol = symbol) then 0 else count
  | .submitOrder _ .close _ _ _ | .submitOrder _ .short _ _ _ | .submitOrder _ .hold _ _ _ | .feeds _ _ => count

def boughtTodayFrom (symbol : String) (m : MockTrader) (count : ℚ) : List Call → ℚ
  | [] => count
  | call :: calls => boughtTodayFrom symbol (m.step call) (countToday symbol m count call) calls

def boughtToday (symbol : String) (m : MockTrader) (calls : List Call) : ℚ := boughtTodayFrom symbol m 0 calls

def unsettled (m : MockTrader) (symbol : String) : ℚ := ((m.positions[symbol]?).map (·.quantityToday)).getD 0

theorem unsettled_put {after : MockTrader} {other : String} (entry : Option PositionInfo)
    (written : after.positions = m.positions.put other entry) :
    after.unsettled symbol = if other = symbol then (entry.map (·.quantityToday)).getD 0 else m.unsettled symbol := by
  simp only [unsettled,written,Book.get_put]
  split <;> rfl

theorem sold_any_iff (m : MockTrader) (symbol : String) :
    m.emergencyFlatten.1.sold.any (·.symbol = symbol) = true ↔ (m.closable symbol).isSome = true := by
  have reported := m.emergencyFlatten_spec.2.2 symbol
  rw [← Option.isSome_map,← reported,soldOf,Option.isSome_map,List.find?_isSome,any_eq_true]

theorem today_bought (existing : Option PositionInfo) (symbol : String) (quantity fillPrice : ℚ) :
    (bought existing symbol quantity fillPrice).quantityToday = (existing.map (·.quantityToday)).getD 0 + quantity := by
  cases existing with
  | none => simp [bought]
  | some => rfl

variable {pos : PositionInfo}

theorem today_sold {quantity fillPrice : ℚ} (lots : Lots pos) (settled : quantity ≤ pos.quantityYesterday) :
    ((sold pos quantity fillPrice).map (·.quantityToday)).getD 0 = pos.quantityToday := by
  cases kept : sold pos quantity fillPrice with
  | none =>
    have gone : pos.quantity ≤ quantity := by simpa [sold] using kept
    have none_ : pos.quantityToday = 0 := le_antisymm (by linarith [lots.split]) lots.today
    simp [none_]
  | some => exact (sold_eq_some kept).2.2.1

theorem today_rollOver (lots : Lots pos) : (rollOver pos).quantityToday = 0 := by
  unfold rollOver
  split
  · rfl
  rename_i none_
  exact le_antisymm (not_lt.mp none_) lots.today

theorem unsettled_step (lots : m.InLots) (symbol : String) (call : Call) :
    (m.step call).unsettled symbol = countToday symbol m (m.unsettled symbol) call := by
  cases call with
  | submitOrder other direction orderType quantity price =>
    rw [step]
    rcases submitOrder_cases m other direction orderType quantity price with
      ⟨e,rejected⟩ | ⟨result,after,filled,ordered,executed⟩
    · rw [rejected]
      cases direction with
      | long => simp [countToday,rejected,Except.toOption]
      | _ => rfl
    · rw [filled]
      cases executed with
      | bought =>
        rw [countToday,filled,unsettled_put (some (bought m.positions[other]? other quantity _)) rfl,map_some,
          getD_some,today_bought]
        split
        · rename_i same
          subst same
          rfl
        · rfl
      | sold held settled =>
        rw [unsettled_put (sold _ _ _) rfl,today_sold (lots _ _ held) (min_le_right _ _)]
        split
        · rename_i same
          subst same
          simp [countToday,unsettled,held]
        · rfl
  | advanceDay =>
    rw [step,unsettled,advanceDay,Book.get_map]
    cases found : m.positions[symbol]? with
    | none => rfl
    | some pos => exact today_rollOver (lots symbol pos found)
  | emergencyFlatten =>
    rw [step,unsettled,m.emergencyFlatten_spec.2.1,countToday,unsettled]
    by_cases closes : (m.closable symbol).isSome = true
    · rw [if_pos closes,if_pos ((sold_any_iff m symbol).mpr closes)]
      rfl
    · rw [if_neg closes,if_neg fun any => closes ((sold_any_iff m symbol).mp any)]
  | feeds => rfl

theorem boughtTodayFrom_eq (lots : m.InLots) (symbol : String) (calls : List Call) :
    boughtTodayFrom symbol m (m.unsettled symbol) calls = (run step m calls).unsettled symbol := by
  induction calls generalizing m with
  | nil => rfl
  | cons call calls ih =>
    rw [boughtTodayFrom,← unsettled_step lots,ih (lots.step call)]
    rfl

/-- What the report of a flatten has to say of the positions it found, for the shares of each that
were bought today. -/
structure FlattenAudit (m : MockTrader) (today : String → ℚ) (result : EmergencyFlattenResult) (after : MockTrader) : Prop where
  sold : ∀ symbol, symbol ∈ result.sold.map (·.symbol) ↔
    ∃ pos, m.positions[symbol]? = some pos ∧ 0 < m.flattenPrice symbol pos
  skipped : ∀ symbol, symbol ∈ result.skipped.map (·.symbol) ↔
    ∃ pos, m.positions[symbol]? = some pos ∧ m.flattenPrice symbol pos ≤ 0
  soldOnce : (result.sold.map (·.symbol)).Nodup
  skippedOnce : (result.skipped.map (·.symbol)).Nodup
  closed : ∀ entry ∈ result.sold, entry.quantity = m.held entry.symbol ∧ after.positions[entry.symbol]? = none
  kept : ∀ entry ∈ result.skipped, after.positions[entry.symbol]? = m.positions[entry.symbol]?
  flagged : ∀ entry ∈ result.sold, entry.bypassedT1 = true ↔ 0 < today entry.symbol
  soldTotal : result.soldTotal = (result.sold.map (·.netProceeds)).sum
  cash : after.cash - m.cash = result.soldTotal

theorem closable_iff (lots : m.InLots) :
    m.closable symbol = some pos ↔ m.positions[symbol]? = some pos ∧ 0 < m.flattenPrice symbol pos := by
  rw [closable,filter_eq_some_iff,decide_eq_true_eq]
  exact and_congr_right fun found => and_iff_right (lots symbol pos found).positive

theorem unpriced_iff (lots : m.InLots) :
    m.unpriced symbol = some pos ↔ m.positions[symbol]? = some pos ∧ m.flattenPrice symbol pos ≤ 0 := by
  rw [unpriced,filter_eq_some_iff,decide_eq_true_eq]
  exact and_congr_right fun found => and_iff_right (lots symbol pos found).positive

theorem listed (found : m.positions[symbol]? = some pos) : symbol ∈ m.positions.toList.map (·.1) :=
  mem_symbols.mpr (by rw [found]; rfl)

theorem flattenAudit_iff (lots : m.InLots) (today : String → ℚ) :
    FlattenAudit m today m.emergencyFlatten.1 m.emergencyFlatten.2 ↔ ∀ symbol pos, m.closable symbol = some pos →
        (pos.quantityYesterday ≤ 0 ∧ 0 < pos.quantityToday ↔ 0 < today symbol) := by
  have sold : m.emergencyFlatten.1.sold =
      (m.closed (m.positions.toList.map (·.1))).map fun entry => m.closingEntry entry.1 entry.2 := by
    rw [emergencyFlatten_eq]
    rfl
  have skipped : m.emergencyFlatten.1.skipped =
      (m.stuck (m.positions.toList.map (·.1))).map fun entry => skipEntry entry.1 entry.2 := by
    rw [emergencyFlatten_eq]
    rfl
  have soldTotal : m.emergencyFlatten.1.soldTotal = m.proceeds (m.closed (m.positions.toList.map (·.1))) := by
    rw [emergencyFlatten_eq]
    exact zero_add _
  constructor
  · intro audit symbol pos closes
    have member : m.closingEntry symbol pos ∈ m.emergencyFlatten.1.sold := by
      rw [sold]
      exact mem_map.mpr ⟨(symbol,pos),mem_closed.mpr ⟨listed (closable_held closes),closes⟩,rfl⟩
    exact decide_eq_true_iff.symm.trans (audit.flagged _ member)
  · intro flags
    refine ⟨?_,?_,?_,?_,?_,?_,?_,?_,?_⟩
    · intro symbol
      rw [sold,map_map,mem_map]
      constructor
      · rintro ⟨entry,member,rfl⟩
        exact ⟨entry.2,(closable_iff lots).mp (mem_closed.mp member).2⟩
      · rintro ⟨pos,found,priced⟩
        exact ⟨(symbol,pos),mem_closed.mpr ⟨listed found,(closable_iff lots).mpr ⟨found,priced⟩⟩,rfl⟩
    · intro symbol
      rw [skipped,map_map,mem_map]
      constructor
      · rintro ⟨entry,member,rfl⟩
        exact ⟨entry.2,(unpriced_iff lots).mp (mem_stuck.mp member).2⟩
      · rintro ⟨pos,found,priced⟩
        exact ⟨(symbol,pos),mem_stuck.mpr ⟨listed found,(unpriced_iff lots).mpr ⟨found,priced⟩⟩,rfl⟩
    · rw [sold,map_map]
      exact nodup_select _ _ (Book.nodup_keys _)
    · rw [skipped,map_map]
      exact nodup_select _ _ (Book.nodup_keys _)
    · intro entry member
      rw [sold] at member
      obtain ⟨⟨symbol,pos⟩,closed,rfl⟩ := mem_map.mp member
      have closes := (mem_closed.mp closed).2
      refine ⟨?_,?_⟩
      · change pos.quantity = m.held symbol
        simp [held,closable_held closes]
      · rw [m.emergencyFlatten_spec.2.1]
        exact if_pos (by change (m.closable symbol).isSome = true; rw [closes]; rfl)
    · intro entry member
      rw [skipped] at member
      obtain ⟨⟨symbol,pos⟩,stuck,rfl⟩ := mem_map.mp member
      obtain ⟨found,dead⟩ := (unpriced_iff lots).mp (mem_stuck.mp stuck).2
      rw [m.emergencyFlatten_spec.2.1]
      refine if_neg ?_
      intro closes
      obtain ⟨other,closes⟩ := isSome_iff_exists.mp closes
      obtain ⟨same,priced⟩ := (closable_iff lots).mp closes
      cases found.symm.trans same
      exact not_lt.mpr dead priced
    · intro entry member
      rw [sold] at member
      obtain ⟨⟨symbol,pos⟩,closed,rfl⟩ := mem_map.mp member
      exact decide_eq_true_iff.trans (flags symbol pos (mem_closed.mp closed).2)
    · rw [soldTotal,sold,map_map]
      rfl
    · rw [soldTotal,emergencyFlatten_eq]
      exact add_sub_cancel_left _ _

/-- After every history that starts without positions, the report of a flatten is right exactly if
no position it sells holds older shares beside shares bought today. -/
theorem flatten_audit_iff (m : MockTrader) (flat : m.positions = ∅) (calls : List Call) :
    let reached := run step m calls
    FlattenAudit reached (boughtToday · m calls) reached.emergencyFlatten.1 reached.emergencyFlatten.2 ↔
      ∀ symbol pos, reached.closable symbol = some pos → 0 < boughtToday symbol m calls →
        pos.quantity = boughtToday symbol m calls := by
  have lots : m.InLots := by
    rw [InLots,flat]
    exact Book.all_empty _
  have reached : (run step m calls).InLots := run_always (fun _ call lots => lots.step call) lots calls
  have count (symbol : String) : boughtToday symbol m calls = (run step m calls).unsettled symbol := by
    rw [← boughtTodayFrom_eq lots,unsettled,flat]
    rfl
  refine (flattenAudit_iff reached _).trans ?_
  refine forall₃_congr fun symbol pos closes => ?_
  have held := closable_held closes
  have own := reached symbol pos held
  rw [count,unsettled,held,map_some,getD_some]
  constructor
  · intro flag bought
    linarith [own.split,own.yesterday,(flag.mpr bought).1]
  · intro only
    refine ⟨fun both => both.2,fun bought => ⟨?_,bought⟩⟩
    linarith [own.split,only bought]

def quotedTrader : MockTrader := newMockTrader ⟨100000,0,0,0,0,0,some fun _ => 10,.unset,0,0⟩ id

def boughtOnce : List Call := [.submitOrder "600000.SH" .long .limit 100 10]

theorem boughtOnce_audited :
    let reached := run step quotedTrader boughtOnce
    FlattenAudit reached (boughtToday · quotedTrader boughtOnce) reached.emergencyFlatten.1 reached.emergencyFlatten.2 := by
  refine (flatten_audit_iff quotedTrader rfl boughtOnce).mpr ?_
  have one : (run step quotedTrader boughtOnce).positions.All
      fun symbol pos => pos.quantity = boughtToday symbol quotedTrader boughtOnce := by decide +kernel
  exact fun symbol pos closes _ => one symbol pos (closable_held closes)

def boughtTwice : List Call := boughtOnce ++ [.advanceDay,.submitOrder "600000.SH" .long .limit 50 10]

/-- 50 of the 150 shares sold were bought today, and the sale is not on record as an override. -/
theorem boughtTwice_unflagged :
    let reached := run step quotedTrader boughtTwice
    boughtToday "600000.SH" quotedTrader boughtTwice = 50 ∧
    reached.emergencyFlatten.1.sold.map (fun entry => (entry.symbol,entry.quantity,entry.bypassedT1)) =
      [("600000.SH",150,false)] ∧
    ¬ FlattenAudit reached (boughtToday · quotedTrader boughtTwice) reached.emergencyFlatten.1 reached.emergencyFlatten.2 := by
  exact ⟨by decide +kernel,by decide +kernel,fun audit => absurd audit.flagged (by decide +kernel)⟩

end QuantTrading.MockTrader
