import QuantTrading.Expression.NoLookAhead
import QuantTrading.Library.AsOf
import QuantTrading.Marketdata.Aggregate

/-! The data of a factor by name: bars, reports that hold from the day they are disclosed until the
next one, and observations of a single day. Both are aligned with the bars by a pointer that only
moves forward, so a bar sees what was there by its date and nothing that came later.
-/
namespace QuantTrading.Expression
open Library Value Marketdata List

structure Fundamental where
  date : Time
  (pe pb ps roe roa revenue netProfit : Value)

structure MarketActivity where
  tradeDate : Time
  (turnoverRate turnoverRateF volumeRatio : Value)

def ohlcvFields : List String := ["open","high","low","close","volume","turnover"]

def fundamentalFields : List String := ["pe","pb","ps","roe","roa","revenue","profit"]

def activityFields : List String := ["turnover_rate","turnover_rate_f","volume_ratio"]

def extractField (bar : Bar) : String → ℚ
  | "open" => bar.openPrice
  | "high" => bar.high
  | "low" => bar.low
  | "close" => bar.close
  | "volume" => bar.volume
  | "turnover" => bar.turnover
  | _ => 0

variable (f : Fundamental) (field : String)

/-- The entry of a field, and whether it is a multiple, which says nothing when it is not positive. -/
def fundamentalEntry : String → Value × Bool
  | "pe" => (f.pe,true)
  | "pb" => (f.pb,true)
  | "ps" => (f.ps,true)
  | "roe" => (f.roe,false)
  | "roa" => (f.roa,false)
  | "revenue" => (f.revenue,false)
  | "profit" => (f.netProfit,false)
  | _ => (none,false)

def fundamentalValue (field : String) : Value :=
  let (p,nonPositiveIsNaN) := fundamentalEntry f field
  match p with
  | none => none
  | some v => if nonPositiveIsNaN ∧ v ≤ 0 then none else some v

def activityValue (r : MarketActivity) : String → Value
  | "turnover_rate" => r.turnoverRate
  | "turnover_rate_f" => r.turnoverRateF
  | "volume_ratio" => r.volumeRatio
  | _ => none

def fundamentalSeries (records : List Fundamental) (field : String) (bars : List Bar) : Series :=
  if records.isEmpty then bars.map fun _ => none
  else
    sweep (fun bar record => record.date ≤ bar.date)
      (fun _ next => if next = 0 then none else (records[next - 1]?).bind (fundamentalValue · field)) records 0 bars

def activitySeries (records : List MarketActivity) (field : String) (bars : List Bar) : Series :=
  if records.isEmpty then bars.map fun _ => none
  else
    sweep (fun bar record => record.tradeDate < bar.date)
      (fun bar next => match records[next]? with
        | none => none
        | some record => if record.tradeDate ≠ bar.date then none else activityValue record field) records 0 bars

/-- Without reports or observations at all their fields are errors, not values. -/
structure OHLCVDataProvider where
  bars : Book String (List Bar)
  fundamentals : Option (Book String (List Fundamental))
  activity : Option (Book String (List MarketActivity))

namespace OHLCVDataProvider

def fields : List String := ["close","high","low","open","pb","pe","profit","ps","revenue","roa","roe","turnover","turnover_rate",
  "turnover_rate_f","volume","volume_ratio"]

def fieldSourceOf (name : String) : Option FieldSource := (fieldRegistry.find? (·.1 = name)).map (·.2)

def unavailableFieldError (field : String) : String :=
  let avail := String.intercalate ", " fields
  match fieldSourceOf field with
  | some src => "data_provider: 字段 \"" ++ field ++ "\" 属于 " ++ src.text ++ " 数据源，当前 provider 不供应（可用字段：" ++ avail ++ "）"
  | none => "data_provider: 未知字段 \"" ++ field ++ "\"（可用字段：" ++ avail ++ "）"

variable (p : OHLCVDataProvider)

def getSymbols : List String := sortStrings p.bars.keys

def recordsOf {A : Type} (records : Book String (List A)) (symbol : String) : List A := (records[symbol]?).getD []

def series (symbol field : String) (bars : List Bar) : Except String Series :=
  if field ∈ ohlcvFields then .ok (bars.map fun bar => some (extractField bar field))
  else if field ∈ fundamentalFields then
    match p.fundamentals with
    | none => .error ("data_provider: 表达式用了基本面字段 \"" ++ field ++ "\"，但这一路没有财报数据 —— " ++
        "没有就是没有，给一串 0 只会产出看似能跑的假信号")
    | some records => .ok (fundamentalSeries (recordsOf records symbol) field bars)
  else if field ∈ activityFields then
    match p.activity with
    | none => .error ("data_provider: 表达式用了活跃度字段 \"" ++ field ++ "\"，但这一路没有市场活跃度数据 —— " ++
        "没有就是没有，给一串 0 只会产出看似能跑的假信号")
    | some records => .ok (activitySeries (recordsOf records symbol) field bars)
  else .error (unavailableFieldError field)

def getField (symbol field : String) (lookback : Int) : Except String Series :=
  match p.bars[symbol]? with
  | none => .ok []
  | some bars => (p.series symbol field bars).map fun vals =>
    if 0 < lookback ∧ lookback < vals.length then vals.drop (vals.length - lookback.toNat) else vals

def toDataProvider : DataProvider := ⟨p.getSymbols,p.getField⟩

end OHLCVDataProvider

def valuationMultiples : List String := ["pe","pb","ps"]

def reported : String → Value
  | "pe" => f.pe
  | "pb" => f.pb
  | "ps" => f.ps
  | "roe" => f.roe
  | "roa" => f.roa
  | "revenue" => f.revenue
  | "profit" => f.netProfit
  | _ => none

/-- The last report by that date, unless the field is missing in it or a multiple that is not positive. -/
def fundamentalAt (records : List Fundamental) (field : String) (t : Time) : Value := do
  let record ← latest Fundamental.date records t
  let v ← reported record field
  if field ∈ valuationMultiples ∧ v ≤ 0 then none else some v

def activityAt (records : List MarketActivity) (field : String) (t : Time) : Value :=
  (firstAt MarketActivity.tradeDate records t).bind (activityValue · field)

theorem fundamentalEntry_eq :
    fundamentalEntry f field = (reported f field,decide (field ∈ valuationMultiples)) := by
  unfold fundamentalEntry reported
  split <;> simp_all [valuationMultiples]

theorem fundamentalValue_eq :
    fundamentalValue f field = (reported f field).bind fun v => if field ∈ valuationMultiples ∧ v ≤ 0 then none else some v := by
  rw [fundamentalValue,fundamentalEntry_eq]
  cases reported f field with
  | none => rfl
  | some => simp

variable {bars : List Bar} {field : String}

theorem fundamentalSeries_eq {records : List Fundamental} (sorted : Ascending Fundamental.date records)
    (ascending : Ascending Bar.date bars) (field : String) :
    fundamentalSeries records field bars = bars.map fun bar => fundamentalAt records field bar.date := by
  unfold fundamentalSeries
  split
  next none =>
    rw [isEmpty_iff.mp none]
    rfl
  · have forward : bars.Pairwise fun bar later => ∀ record : Fundamental, decide (record.date ≤ bar.date) = true →
        decide (record.date ≤ later.date) = true :=
      ascending.imp fun order record early => decide_eq_true ((of_decide_eq_true early).trans order)
    rw [sweep_eq forward _ fun _ _ => Nat.zero_le _]
    refine map_congr_left fun bar _ => ?_
    have read := getElem?_before_pointer (fun record : Fundamental => decide (record.date ≤ bar.date)) records
    rw [getLast?_takeWhile sorted] at read
    have found : fundamentalAt records field bar.date = (latest Fundamental.date records bar.date).bind (fundamentalValue · field) := by
      simp only [fundamentalValue_eq]
      rfl
    rw [found,← read]
    split <;> rfl

theorem activitySeries_eq {records : List MarketActivity} (sorted : Ascending MarketActivity.tradeDate records)
    (ascending : Ascending Bar.date bars) (field : String) :
    activitySeries records field bars = bars.map fun bar => activityAt records field bar.date := by
  unfold activitySeries
  split
  next none =>
    rw [isEmpty_iff.mp none]
    rfl
  · have forward : bars.Pairwise fun bar later => ∀ record : MarketActivity, decide (record.tradeDate < bar.date) = true →
        decide (record.tradeDate < later.date) = true :=
      ascending.imp fun order record early => decide_eq_true ((of_decide_eq_true early).trans_le order)
    rw [sweep_eq forward _ fun _ _ => Nat.zero_le _]
    refine map_congr_left fun bar _ => ?_
    rw [getElem?_pointer,activityAt,← head?_dropWhile sorted]
    cases (records.dropWhile fun record => decide (record.tradeDate < bar.date)).head? with
    | none => rfl
    | some record => by_cases here : record.tradeDate = bar.date <;> simp [Option.filter,here]

theorem fundamentalAt_congr {records records' : List Fundamental} {t d : Time}
    (same : records.filter (·.date ≤ d) = records'.filter (·.date ≤ d)) (before : t ≤ d) (field : String) :
    fundamentalAt records field t = fundamentalAt records' field t := by
  rw [fundamentalAt,fundamentalAt,latest_congr same before]

theorem activityAt_congr {records records' : List MarketActivity} {t d : Time}
    (same : records.filter (·.tradeDate ≤ d) = records'.filter (·.tradeDate ≤ d)) (before : t ≤ d) (field : String) :
    activityAt records field t = activityAt records' field t := by
  rw [activityAt,activityAt,firstAt_congr same before]

theorem take_map_of_same {k : Nat} {f g : Time → Value} (same : ∀ bar ∈ bars.take k, f bar.date = g bar.date) :
    (bars.map fun bar => f bar.date).take k = (bars.map fun bar => g bar.date).take k := by
  rw [← map_take,← map_take]
  exact map_congr_left same

theorem take_map_congr (ascending : Ascending Bar.date bars) {i : Nat} {bar : Bar} (here : bars[i]? = some bar) {f g : Time → Value}
    (agree : ∀ t, t ≤ bar.date → f t = g t) :
    (bars.map fun bar => f bar.date).take (i + 1) = (bars.map fun bar => g bar.date).take (i + 1) := by
  refine take_map_of_same fun earlier listed => agree _ ?_
  obtain ⟨j,bound,rfl⟩ := mem_take_iff_getElem.mp listed
  obtain ⟨inside,rfl⟩ := List.getElem?_eq_some_iff.mp here
  rcases Nat.lt_or_ge j i with before | last
  · exact pairwise_iff_getElem.mp ascending j i (by omega) inside before
  · have same : j = i := by omega
    subst same
    exact le_rfl

/-- Every bar sees the last report disclosed by its date and the observation of its own, and records
dated after a bar make no difference up to it. -/
structure PointInTime (field : String) (bars : List Bar) : Prop where
  fundamental : ∀ records, Ascending Fundamental.date records → ∀ (i : Nat) (bar : Bar), bars[i]? = some bar →
    (fundamentalSeries records field bars)[i]? = some (fundamentalAt records field bar.date)
  activity : ∀ records, Ascending MarketActivity.tradeDate records → ∀ (i : Nat) (bar : Bar), bars[i]? = some bar →
    (activitySeries records field bars)[i]? = some (activityAt records field bar.date)
  laterReports : ∀ records records', Ascending Fundamental.date records → Ascending Fundamental.date records' →
    ∀ (i : Nat) (bar : Bar), bars[i]? = some bar → records.filter (·.date ≤ bar.date) = records'.filter (·.date ≤ bar.date) →
      (fundamentalSeries records field bars).take (i + 1) = (fundamentalSeries records' field bars).take (i + 1)
  laterObservations : ∀ records records', Ascending MarketActivity.tradeDate records → Ascending MarketActivity.tradeDate records' →
    ∀ (i : Nat) (bar : Bar), bars[i]? = some bar → records.filter (·.tradeDate ≤ bar.date) = records'.filter (·.tradeDate ≤ bar.date) →
      (activitySeries records field bars).take (i + 1) = (activitySeries records' field bars).take (i + 1)

theorem series_point_in_time (field : String) (bars : List Bar) (ascending : Ascending Bar.date bars) : PointInTime field bars := by
  constructor
  · intro records sorted i bar here
    rw [fundamentalSeries_eq sorted ascending,getElem?_map,here,map_some]
  · intro records sorted i bar here
    rw [activitySeries_eq sorted ascending,getElem?_map,here,map_some]
  · intro records records' sorted sorted' i bar here same
    rw [fundamentalSeries_eq sorted ascending,fundamentalSeries_eq sorted' ascending]
    exact take_map_congr ascending here fun t before => fundamentalAt_congr same before field
  · intro records records' sorted sorted' i bar here same
    rw [activitySeries_eq sorted ascending,activitySeries_eq sorted' ascending]
    exact take_map_congr ascending here fun t before => activityAt_congr same before field

/-- Three bars; two reports become available on the second day, a third one on the fourth. -/
def threeDays : List Bar := [1,2,3].map fun day => ⟨"A",day,10,10,10,10,100,1000,.d1,day⟩

def reportOf (date : Time) (pe : ℚ) : Fundamental := ⟨date,some pe,none,none,none,none,none,none⟩

theorem threeDays_point_in_time : Ascending Bar.date threeDays ∧
    fundamentalSeries [reportOf 2 8,reportOf 2 9,reportOf 4 1] "pe" threeDays = [none,some 9,some 9] ∧
      (fundamentalSeries [reportOf 2 8,reportOf 2 9,reportOf 4 1] "pe" threeDays).take 3 =
        (fundamentalSeries [reportOf 2 8,reportOf 2 9,reportOf 5 (-1)] "pe" threeDays).take 3 := by
  have ascending : Ascending Bar.date threeDays := by simp [Ascending,threeDays]
  have sorted (last : Time) (pe : ℚ) (late : 2 ≤ last) : Ascending Fundamental.date [reportOf 2 8,reportOf 2 9,reportOf last pe] := by
    simp [Ascending,reportOf,late]
  refine ⟨ascending,by decide +kernel,?_⟩
  exact (series_point_in_time "pe" threeDays ascending).laterReports _ _ (sorted 4 1 (by decide)) (sorted 5 (-1) (by decide)) 2 _ rfl rfl

namespace OHLCVDataProvider
variable {p p' : OHLCVDataProvider} {k : Nat} {symbol : String} {history : List Bar}

/-- Ascending records of both providers, the same by the dates of the first bars. -/
structure SameUntil {A : Type} (key : A → Time) (k : Nat) (bars : Book String (List Bar)) (first second : Option (Book String (List A))) :
    Prop where
  both : first.isSome = second.isSome
  sorted : ∀ records, first = some records → ∀ symbol, Ascending key (recordsOf records symbol)
  sorted' : ∀ records, second = some records → ∀ symbol, Ascending key (recordsOf records symbol)
  same : ∀ records records', first = some records → second = some records' → ∀ (symbol : String) (history : List Bar),
    bars[symbol]? = some history → ∀ bar ∈ history.take k,
      (recordsOf records symbol).filter (key · ≤ bar.date) = (recordsOf records' symbol).filter (key · ≤ bar.date)

/-- The same bars, and records that differ only after the first of them. -/
structure AgreesUntil (k : Nat) (p p' : OHLCVDataProvider) : Prop where
  bars : p.bars = p'.bars
  ascending : ∀ (symbol : String) (history : List Bar), p.bars[symbol]? = some history → Ascending Bar.date history
  fundamentals : SameUntil Fundamental.date k p.bars p.fundamentals p'.fundamentals
  activity : SameUntil MarketActivity.tradeDate k p.bars p.activity p'.activity

inductive Supplied (p : OHLCVDataProvider) (symbol field : String) (history : List Bar) : Series → Prop
  | market (listed : field ∈ ohlcvFields) : Supplied p symbol field history (history.map fun bar => some (extractField bar field))
  | reports {records : Book String (List Fundamental)} (other : field ∉ ohlcvFields) (listed : field ∈ fundamentalFields)
      (given : p.fundamentals = some records) :
      Supplied p symbol field history (fundamentalSeries (recordsOf records symbol) field history)
  | observations {records : Book String (List MarketActivity)} (other : field ∉ ohlcvFields) (noReport : field ∉ fundamentalFields)
      (given : p.activity = some records) : Supplied p symbol field history (activitySeries (recordsOf records symbol) field history)

theorem supplied {xs : Series} (read : p.series symbol field history = .ok xs) : Supplied p symbol field history xs := by
  unfold series at read
  split at read
  next listed =>
    cases read
    exact .market listed
  next other =>
    split at read
    next listed =>
      split at read
      · cases read
      rename_i records given
      cases read
      exact .reports other listed given
    next noReport =>
      split at read
      · split at read
        · cases read
        rename_i records given
        cases read
        exact .observations other noReport given
      · cases read

theorem AgreesUntil.series (agree : AgreesUntil k p p') (found : p.bars[symbol]? = some history) {xs ys : Series}
    (read : p.series symbol field history = .ok xs) (read' : p'.series symbol field history = .ok ys) : xs.take k = ys.take k := by
  have ascending := agree.ascending symbol history found
  cases supplied read with
  | market listed =>
    cases supplied read' with
    | market => rfl
    | reports other | observations other => exact absurd listed other
  | reports other listed given =>
    cases supplied read' with
    | market listed => exact absurd listed other
    | reports _ _ given' =>
      have sorted := agree.fundamentals.sorted _ given symbol
      have sorted' := agree.fundamentals.sorted' _ given' symbol
      rw [fundamentalSeries_eq sorted ascending,fundamentalSeries_eq sorted' ascending]
      exact take_map_of_same fun bar early =>
        fundamentalAt_congr (agree.fundamentals.same _ _ given given' symbol history found bar early) le_rfl field
    | observations _ noReport => exact absurd listed noReport
  | observations other noReport given =>
    cases supplied read' with
    | market listed => exact absurd listed other
    | reports _ listed => exact absurd listed noReport
    | observations _ _ given' =>
      have sorted := agree.activity.sorted _ given symbol
      have sorted' := agree.activity.sorted' _ given' symbol
      rw [activitySeries_eq sorted ascending,activitySeries_eq sorted' ascending]
      exact take_map_of_same fun bar early =>
        activityAt_congr (agree.activity.same _ _ given given' symbol history found bar early) le_rfl field

theorem length_fundamentalSeries (records : List Fundamental) (field : String) (bars : List Bar) :
    (fundamentalSeries records field bars).length = bars.length := by
  unfold fundamentalSeries
  split <;> simp

theorem length_activitySeries (records : List MarketActivity) (field : String) (bars : List Bar) :
    (activitySeries records field bars).length = bars.length := by
  unfold activitySeries
  split <;> simp

theorem map_length_series (reports : p.fundamentals.isSome = p'.fundamentals.isSome) (observations : p.activity.isSome = p'.activity.isSome)
    (symbol field : String) (history : List Bar) :
    (p.series symbol field history).map length = (p'.series symbol field history).map length := by
  unfold series
  split
  · rfl
  split
  · cases given : p.fundamentals <;> cases given' : p'.fundamentals <;>
      simp_all [Except.map,length_fundamentalSeries]
  · split
    · cases given : p.activity <;> cases given' : p'.activity <;> simp_all [Except.map,length_activitySeries]
    · rfl

theorem getField_zero (p : OHLCVDataProvider) (symbol field : String) :
    p.getField symbol field 0 = (p.bars[symbol]?).elim (.ok []) (p.series symbol field) := by
  unfold getField
  cases p.bars[symbol]? with
  | none => rfl
  | some history =>
    rw [Option.elim_some]
    dsimp only
    generalize p.series symbol field history = read
    cases read <;> simp [Except.map]

theorem AgreesUntil.sameFront (agree : AgreesUntil k p p') : SameFront k 0 p.toDataProvider p'.toDataProvider := by
  refine ⟨by simp only [toDataProvider,getSymbols,agree.bars],fun symbol _ field xs ys read read' => ?_⟩
  change p.getField symbol field 0 = .ok xs at read
  change p'.getField symbol field 0 = .ok ys at read'
  rw [getField_zero] at read read'
  rw [← agree.bars] at read'
  cases found : p.bars[symbol]? with
  | none =>
    rw [found] at read read'
    cases read
    cases read'
    rfl
  | some =>
    rw [found] at read read'
    exact agree.series found read read'

theorem AgreesUntil.bars_eq (agree : AgreesUntil k p p') (symbol : String) :
    p.toDataProvider.bars 0 symbol = p'.toDataProvider.bars 0 symbol := by
  funext field
  have lengths : (p.toDataProvider.getField symbol field 0).map length = (p'.toDataProvider.getField symbol field 0).map length := by
    change (p.getField symbol field 0).map length = (p'.getField symbol field 0).map length
    rw [getField_zero,getField_zero,← agree.bars]
    cases p.bars[symbol]? with
    | none => rfl
    | some history => exact map_length_series agree.fundamentals.both agree.activity.both symbol field history
  unfold DataProvider.bars
  generalize p.toDataProvider.getField symbol field 0 = first at lengths ⊢
  generalize p'.toDataProvider.getField symbol field 0 = second at lengths ⊢
  cases first <;> cases second <;> simp_all [Except.map]

/-- No factor over time series has a value that depends on a record from after its bar. -/
theorem evaluate_pointInTime {m : Numerics} {node : Node} {results results' : Results} (agree : AgreesUntil k p p') (accepted : node.Accepted)
    (series : node.seriesOnly = true) (ok : evaluate m p.toDataProvider 0 node = .ok results)
    (ok' : evaluate m p'.toDataProvider 0 node = .ok results') : FrontsAgree k p.getSymbols results results' := by
  have valid : node.Valid := ⟨"root",accepted⟩
  intro symbol member
  have member' : symbol ∈ p'.toDataProvider.getSymbols := agree.sameFront.symbols ▸ member
  refine evaluate_frontAgree agree.sameFront valid series ok ok' member ?_
  rw [← length_eq_zero_iff,← length_eq_zero_iff,length_evaluate valid ok member,length_evaluate valid ok' member',
    agree.bars_eq symbol]

/-- The three bars, a report of the second day and one of the day after them. -/
def reportedLater (pe : ℚ) : OHLCVDataProvider :=
  ⟨(∅ : Book String (List Bar)).insert "A" threeDays,
    some ((∅ : Book String (List Fundamental)).insert "A" [reportOf 2 9,reportOf 4 pe]),none⟩

def meanEarnings : Node := .function "ts_mean" [.identifier "pe",.literal 2]

theorem laterReport_unseen : ∃ results results', evaluate plain (reportedLater 1).toDataProvider 0 meanEarnings = .ok results ∧
    evaluate plain (reportedLater 2).toDataProvider 0 meanEarnings = .ok results' ∧
      FrontsAgree 3 (reportedLater 1).getSymbols results results' := by
  have agree : AgreesUntil 3 (reportedLater 1) (reportedLater 2) := by
    refine ⟨rfl,?_,⟨rfl,?_,?_,?_⟩,⟨rfl,by rintro _ ⟨⟩,by rintro _ ⟨⟩,by rintro _ _ ⟨⟩⟩⟩
    · rintro symbol history found
      by_cases own : "A" = symbol <;> simp_all [reportedLater]
      simp [← found,Ascending,threeDays]
    iterate 2
      rintro _ ⟨⟩ symbol
      by_cases own : "A" = symbol <;> simp [recordsOf,own,Ascending,reportOf]
    rintro _ _ ⟨⟩ ⟨⟩ symbol history found bar shown
    by_cases own : "A" = symbol
    · simp [reportedLater,own] at found
      subst found
      simp only [threeDays,map_cons,map_nil,take_succ_cons,take_zero,mem_cons,not_mem_nil,or_false] at shown
      rcases shown with rfl | rfl | rfl <;> simp [recordsOf,own,reportOf]
    · simp [recordsOf,own]
  obtain ⟨results,ok⟩ := exists_ok (x := evaluate plain (reportedLater 1).toDataProvider 0 meanEarnings) (by decide +kernel)
  obtain ⟨results',ok'⟩ := exists_ok (x := evaluate plain (reportedLater 2).toDataProvider 0 meanEarnings) (by decide +kernel)
  exact ⟨results,results',ok,ok',evaluate_pointInTime agree (by decide +kernel) (by decide +kernel) ok ok'⟩

end OHLCVDataProvider

end QuantTrading.Expression
