import QuantTrading.Cache
import QuantTrading.Engine.MarketRules

/-! A run over a shared cache. Reads hand out slices of the cached arrays, and a day's job
writes the day's limit flags into the last bar of its slice, so the write lands in the
cache. A day leaves the cache as it was exactly when its bars already carry those flags.
-/
namespace QuantTrading
open Library CacheManager List

theorem modify_append_length {A : Type} (front : List A) (x : A) (back : List A) (f : A → A) :
    (front ++ ([x] ++ back)).modify front.length f = front ++ ([f x] ++ back) := by
  induction front with
  | nil => rfl
  | cons y front ih => simpa using ih

namespace Engine

variable (e : Engine) (symbol : String)

/-- The cached array of a symbol after the job of the day has flagged the last bar of its slice. -/
def writtenBars (symbol : String) (start date : Time) (prevClose : ℚ) (cached : List OHLCV) : List OHLCV :=
  cached.modify (dateRangeBounds cached start date).2.toNat
    (flagBar (e.dayLimits symbol date prevClose (between start date cached)))

@[simp] theorem flagBar_date (limits : Option (ℚ × ℚ)) (raw : OHLCV) : (flagBar limits raw).date = raw.date := by
  unfold flagBar
  split <;> rfl

theorem flagBar_eq_self_iff (limits : ℚ × ℚ) (raw : OHLCV) : flagBar (some limits) raw = raw ↔
    raw.limitUp = decide (raw.close ≥ limits.1) ∧ raw.limitDown = decide (raw.close ≤ limits.2) := by
  cases raw
  simp [flagBar,eq_comm]

theorem writtenBars_dates (start date : Time) (prevClose : ℚ) (cached : List OHLCV) :
    (e.writtenBars symbol start date prevClose cached).map OHLCV.date = cached.map OHLCV.date := by
  apply ext_getElem?
  intro i
  simp only [writtenBars,getElem?_map,getElem?_modify]
  cases cached[i]? with
  | none => rfl
  | some =>
    by_cases flagged : (dateRangeBounds cached start date).2.toNat = i <;> simp [flagged]

variable {cached : List OHLCV} {date start : Time}

theorem writtenBars_ascending (start date : Time) (prevClose : ℚ) (sorted : Ascending OHLCV.date cached) :
    Ascending OHLCV.date (e.writtenBars symbol start date prevClose cached) := by
  have dates : (cached.map OHLCV.date).Pairwise (· ≤ ·) := pairwise_map.mpr sorted
  rw [← e.writtenBars_dates symbol start date prevClose cached] at dates
  exact pairwise_map.mp dates

/-- The cached array around the slice of a read; the bound of the read is the slice's last index. -/
theorem between_split (sorted : Ascending OHLCV.date cached) {last : OHLCV}
    (slice : (between start date cached).getLast? = some last) :
    ∃ front back, cached = front ++ between start date cached ++ back ∧
      (dateRangeBounds cached start date).2.toNat = front.length + (between start date cached).dropLast.length := by
  have sliced := slice_eq_filter sorted (before_inherited start) (within_inherited date)
  have bounds := dateRangeBounds_eq sorted start date
  have high := (takeWhile_sublist (fun bar : OHLCV => decide (bar.date ≤ date)) (l := cached)).length_le
  rw [← between] at sliced
  dsimp only at bounds
  generalize (cached.takeWhile fun bar => decide (bar.date < start)).length = lo at sliced bounds
  generalize (cached.takeWhile fun bar => decide (bar.date ≤ date)).length = hi at sliced bounds high
  have nonempty : 0 < (between start date cached).length := by
    apply length_pos_of_ne_nil
    intro empty
    simp [empty] at slice
  have width : (between start date cached).length = hi - lo := by
    rw [← sliced,length_drop,length_take,min_eq_left high]
  refine ⟨cached.take lo,cached.drop hi,?_,?_⟩
  · have front : cached.take lo = (cached.take hi).take lo := by
      rw [take_take,min_eq_left (by omega)]
    rw [← sliced,front,take_append_drop,take_append_drop]
  · rw [bounds,if_neg (by omega),length_take,length_dropLast]
    omega

theorem writtenBars_split (start date : Time) (prevClose : ℚ)
    (sorted : Ascending OHLCV.date cached) {last : OHLCV} (slice : (between start date cached).getLast? = some last) :
    ∃ front back, cached = front ++ between start date cached ++ back ∧
      e.writtenBars symbol start date prevClose cached = front ++ ((between start date cached).dropLast ++
        [flagBar (e.dayLimits symbol date prevClose (between start date cached)) last]) ++ back := by
  obtain ⟨front,back,whole,index⟩ := between_split sorted slice
  refine ⟨front,back,whole,?_⟩
  have ends : between start date cached = (between start date cached).dropLast ++ [last] :=
    (dropLast_append_getLast? last (by simpa using slice)).symm
  have parts : cached = front ++ (between start date cached).dropLast ++ ([last] ++ back) := by
    conv_lhs => rw [whole,ends]
    simp only [append_assoc]
  rw [writtenBars,index]
  generalize (between start date cached).dropLast = middle at parts
  rw [parts,← length_append,modify_append_length]
  simp

variable {symbol : String} {prevClose : ℚ} {e : Engine}

theorem writtenBars_unlimited (e : Engine)
    (unlimited : e.dayLimits symbol date prevClose (between start date cached) = none) :
    e.writtenBars symbol start date prevClose cached = cached := by
  have idle : flagBar none = id := rfl
  rw [writtenBars,unlimited,idle,modify_id]

theorem dayLimits_last {ohlcvData : List OHLCV}
    {limits : ℚ × ℚ} (limited : e.dayLimits symbol date prevClose ohlcvData = some limits) :
    ∃ last, ohlcvData.getLast? = some last := by
  cases ohlcvData with
  | nil => simp [dayLimits] at limited
  | cons first rest => exact ⟨_,getLast?_eq_some_getLast (cons_ne_nil first rest)⟩

def FlagsStand (e : Engine) (symbol : String) (start date : Time) (prevClose : ℚ) (cached : List OHLCV) : Prop :=
  ∀ limits, e.dayLimits symbol date prevClose (between start date cached) = some limits →
    ∀ last, (between start date cached).getLast? = some last →
      last.limitUp = decide (last.close ≥ limits.1) ∧ last.limitDown = decide (last.close ≤ limits.2)

instance (e : Engine) (symbol : String) (start date : Time) (prevClose : ℚ) (cached : List OHLCV) :
    Decidable (e.FlagsStand symbol start date prevClose cached) :=
  haveI (limits : ℚ × ℚ) := decidableForallSome (between start date cached).getLast? fun last =>
    last.limitUp = decide (last.close ≥ limits.1) ∧ last.limitDown = decide (last.close ≤ limits.2)
  decidableForallSome _ _

theorem writtenBars_eq_self_iff (e : Engine) (symbol : String) (start date : Time) (prevClose : ℚ)
    (sorted : Ascending OHLCV.date cached) : e.writtenBars symbol start date prevClose cached = cached ↔
      e.FlagsStand symbol start date prevClose cached := by
  cases limited : e.dayLimits symbol date prevClose (between start date cached) with
  | none => exact ⟨fun _ limits found => by simp [limited] at found,fun _ => e.writtenBars_unlimited limited⟩
  | some limits =>
    obtain ⟨last,slice⟩ := dayLimits_last limited
    obtain ⟨front,back,whole,written⟩ := e.writtenBars_split symbol start date prevClose sorted slice
    have ends : between start date cached = (between start date cached).dropLast ++ [last] :=
      (dropLast_append_getLast? last (by simpa using slice)).symm
    have same : e.writtenBars symbol start date prevClose cached = cached ↔ flagBar (some limits) last = last := by
      rw [written,limited]
      conv_lhs => rhs; rw [whole,ends]
      simp
    rw [same,flagBar_eq_self_iff]
    constructor
    · intro flags limits' found last' final
      rw [limited] at found
      rw [slice] at final
      cases found
      cases final
      exact flags
    · intro stand
      exact stand limits limited last slice

theorem between_append (start date : Time) (first second : List OHLCV) :
    between start date (first ++ second) = between start date first ++ between start date second :=
  filter_append ..

theorem between_rewritten {front back replaced : List OHLCV}
    (whole : cached = front ++ between start date cached ++ back)
    (dates : replaced.map OHLCV.date = (between start date cached).map OHLCV.date) :
    between start date (front ++ replaced ++ back) = replaced := by
  have again : between start date (between start date cached) = between start date cached := by simp [between]
  have outside : between start date front = [] ∧ between start date back = [] := by
    have lengths := congrArg (fun bars => (between start date bars).length) whole
    simp only [between_append,again,length_append] at lengths
    exact ⟨length_eq_zero_iff.mp (by omega),length_eq_zero_iff.mp (by omega)⟩
  have inside : between start date replaced = replaced := by
    refine filter_eq_self.mpr fun bar member => ?_
    have dated : bar.date ∈ (between start date cached).map OHLCV.date := dates ▸ mem_map_of_mem member
    obtain ⟨old,listed,same⟩ := mem_map.mp dated
    rw [← same]
    exact (mem_filter.mp listed).2
  rw [between_append,between_append,outside.1,outside.2,inside]
  simp

theorem processStockJob_slice (params : BacktestParams) {provider : MarketHistory} {cm : CacheManager} (prevClose : ℚ) (date : Time)
    (held : cm.inMemoryOHLCV[symbol]? = some cached) (backed : e.history = cm.history provider) :
    (e.processStockJob params symbol prevClose date).map (·.ohlcvData) =
      some (between params.startDate date (e.writtenBars symbol params.startDate date prevClose cached)) := by
  have read : e.history.getOHLCV symbol params.startDate date = some (between params.startDate date cached) := by
    rw [backed,history_getOHLCV,cm.get_of_cached _ _ _ _ _ held]
  have sorted := cm.sorted symbol cached held
  unfold processStockJob
  rw [read]
  dsimp only
  cases limited : e.dayLimits symbol date prevClose (between params.startDate date cached) with
  | none =>
    rw [e.writtenBars_unlimited limited]
    cases (between params.startDate date cached).getLast? <;> rfl
  | some =>
    obtain ⟨last,slice⟩ := dayLimits_last limited
    obtain ⟨front,back,whole,written⟩ := e.writtenBars_split symbol params.startDate date prevClose sorted slice
    have ends : between params.startDate date cached = (between params.startDate date cached).dropLast ++ [last] :=
      (dropLast_append_getLast? last (by simpa using slice)).symm
    rw [slice,written,between_rewritten whole]
    · rw [limited]
      rfl
    · conv_rhs => rw [ends]
      simp

end Engine

structure SharedRun where
  cm : CacheManager
  state : BacktestState

namespace Engine

variable (e : Engine) (params : BacktestParams) (provider : MarketHistory)

def dayUniverse (s : BacktestState) (date : Time) : List String :=
  e.eligibleUniverse params.stockPool date (heldSymbols s.tracker)

variable (before : CacheManager) (s : SharedRun)

def jobWrite (date : Time) (symbol : String) : Option (List OHLCV) :=
  (s.cm.inMemoryOHLCV[symbol]?).map
    (e.writtenBars symbol params.startDate date ((s.state.prevCloseCache[symbol]?).getD 0))

theorem jobWrite_ascending (date : Time) (symbols : List String) :
    (s.cm.inMemoryOHLCV.collectInto symbols (e.jobWrite params s date)).All fun _ bars => Ascending OHLCV.date bars := by
  intro symbol bars found
  rw [Book.get_collectInto] at found
  have kept : ∀ bars, s.cm.inMemoryOHLCV[symbol]? = some bars → Ascending OHLCV.date bars := s.cm.sorted symbol
  split at found
  · cases cached : s.cm.inMemoryOHLCV[symbol]? with
    | none => simp [jobWrite,cached] at found
    | some old =>
      simp only [jobWrite,cached,map_some,Option.some_or,Option.some.injEq] at found
      exact found ▸ e.writtenBars_ascending _ _ _ _ (kept old cached)
  · exact kept bars found

/-- One day. Every job flags the array it was handed a slice of; position sizes read the arrays
again later in the day, but only their prices, which no job writes. -/
def sharedDay (date : Time) : SharedRun where
  cm := { s.cm with
    inMemoryOHLCV := s.cm.inMemoryOHLCV.collectInto (e.dayUniverse params s.state date) (e.jobWrite params s date)
    sorted := e.jobWrite_ascending params s date _ }
  state := { e with history := s.cm.history provider }.runDay params s.state date

def sharedStart (cm : CacheManager) (endDate : Time) (fetched : Option (Book String (List OHLCV))) : SharedRun where
  cm := (cm.warm params.stockPool params.startDate endDate fetched).2
  state := e.initialState params

def DayFlagsStand (date : Time) : Prop :=
  ∀ symbol ∈ e.dayUniverse params s.state date, ∀ cached, s.cm.inMemoryOHLCV[symbol]? = some cached →
    e.FlagsStand symbol params.startDate date ((s.state.prevCloseCache[symbol]?).getD 0) cached

instance (s : SharedRun) (date : Time) : Decidable (e.DayFlagsStand params s date) :=
  haveI (symbol : String) := decidableForallSome s.cm.inMemoryOHLCV[symbol]? fun cached =>
    e.FlagsStand symbol params.startDate date ((s.state.prevCloseCache[symbol]?).getD 0) cached
  decidableBAll _ _

theorem sharedDay_unchanged_iff (date : Time) :
    (e.sharedDay params provider s date).cm.inMemoryOHLCV = s.cm.inMemoryOHLCV ↔ e.DayFlagsStand params s date := by
  constructor
  · intro unchanged symbol listed cached found
    have same := congrArg (fun store : Book String (List OHLCV) => store[symbol]?) unchanged
    simp only [sharedDay,Book.get_collectInto,if_pos listed,jobWrite,found,map_some,Option.some_or,
      Option.some.injEq] at same
    exact (e.writtenBars_eq_self_iff _ _ _ _ (s.cm.sorted symbol cached found)).mp same
  · intro stand
    apply Book.ext_getElem?
    intro symbol
    simp only [sharedDay,Book.get_collectInto,jobWrite]
    split
    · rename_i listed
      cases found : s.cm.inMemoryOHLCV[symbol]? with
      | none => rfl
      | some cached =>
        have kept := (e.writtenBars_eq_self_iff _ _ _ _ (s.cm.sorted symbol cached found)).mpr
          (stand symbol listed cached found)
        simp [kept]
    · rfl

def Untouched : Prop :=
  s.cm.inMemoryOHLCV = before.inMemoryOHLCV ∧ ∀ symbol start stop,
    s.cm.get provider.getOHLCV symbol start stop = before.get provider.getOHLCV symbol start stop

theorem untouched_iff : Untouched provider before s ↔ s.cm.inMemoryOHLCV = before.inMemoryOHLCV := by
  refine ⟨And.left,fun same => ⟨same,fun symbol start stop => ?_⟩⟩
  simp only [CacheManager.get,same]

theorem days_untouched_iff (days : List Time) (same : s.cm.inMemoryOHLCV = before.inMemoryOHLCV) :
    Along (e.sharedDay params provider) (Untouched provider before) s days ↔
      Guarded (e.sharedDay params provider) (e.DayFlagsStand params) s days := by
  induction days generalizing s with
  | nil => exact iff_of_true ((untouched_iff provider before s).mpr same) trivial
  | cons date days ih =>
    constructor
    · intro along
      have next := (untouched_iff provider before _).mp along.2.first
      exact ⟨(e.sharedDay_unchanged_iff params provider s date).mp (next.trans same.symm),(ih _ next).mp along.2⟩
    · intro guarded
      have next := ((e.sharedDay_unchanged_iff params provider s date).mpr guarded.1).trans same
      exact ⟨(untouched_iff provider before s).mpr same,(ih _ next).mpr guarded.2⟩

theorem run_untouched_iff (cm : CacheManager) (endDate : Time) (fetched : Option (Book String (List OHLCV)))
    (idle : params.stockPool = [] ∨ cm.coversLocked params.stockPool params.startDate endDate ∨ fetched.isNone) :
    Along (e.sharedDay params provider) (Untouched provider cm) (e.sharedStart params cm endDate fetched) e.tradingDays ↔
      Guarded (e.sharedDay params provider) (e.DayFlagsStand params) (e.sharedStart params cm endDate fetched)
        e.tradingDays := by
  apply days_untouched_iff
  rw [sharedStart,warm_idle idle]

/-! A stock that closes at its upper limit on the second day, with and without the flag. -/

def limitUpBars (flagged : Bool) : List OHLCV :=
  [barOn dayOne 10 10 10,{ barOn dayTwo 11 11 11 with limitUp := flagged }]

def limitUpCache (flagged : Bool) : CacheManager :=
  load (some ⟨(∅ : Book String (List OHLCV)).insert "600000.SH" (limitUpBars flagged),by
    intro symbol bars found
    rw [Book.getElem?_insert] at found
    split at found
    · cases found
      cases flagged <;> (unfold Ascending; decide)
    · simp at found⟩)

def idleEngine : Engine := oneStockEngine (oneStockHistory [] .nil) [dayOne,dayTwo] (fun _ => []) 100 none

theorem limitUp_slice : let e := { idleEngine with history := (limitUpCache false).history idleEngine.history }
    (e.processStockJob oneStockParams "600000.SH" 10 dayTwo).map (·.ohlcvData) =
      some (between dayOne dayTwo (e.writtenBars "600000.SH" dayOne dayTwo 10 (limitUpBars false))) := by
  have held : (limitUpCache false).inMemoryOHLCV["600000.SH"]? = some (limitUpBars false) := by decide +kernel
  exact processStockJob_slice oneStockParams 10 dayTwo held rfl

theorem flaggedLimitUp_untouched : (limitUpCache true).coversLocked oneStockParams.stockPool dayOne dayTwo = true ∧
    Along (idleEngine.sharedDay oneStockParams idleEngine.history) (Untouched idleEngine.history (limitUpCache true))
      (idleEngine.sharedStart oneStockParams (limitUpCache true) dayTwo none) idleEngine.tradingDays := by
  have covered : (limitUpCache true).coversLocked oneStockParams.stockPool dayOne dayTwo = true := by decide +kernel
  exact ⟨covered,(run_untouched_iff idleEngine oneStockParams idleEngine.history (limitUpCache true) dayTwo none
    (.inr (.inl covered))).mpr (by decide +kernel)⟩

theorem limitUp_flagged_in_cache : (limitUpCache false).coversLocked oneStockParams.stockPool dayOne dayTwo = true ∧
    ¬ Along (idleEngine.sharedDay oneStockParams idleEngine.history) (Untouched idleEngine.history (limitUpCache false))
      (idleEngine.sharedStart oneStockParams (limitUpCache false) dayTwo none) idleEngine.tradingDays := by
  refine ⟨by decide +kernel,fun along => ?_⟩
  exact absurd (along.last.2 "600000.SH" dayOne dayTwo) (by decide +kernel)

end Engine
end QuantTrading
