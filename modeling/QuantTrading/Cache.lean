import QuantTrading.Engine
import QuantTrading.Library.Sorted

/-! The L1 bar cache: bars by symbol in date order and one date interval it takes itself to
be warm for. A warm-up fetches in bulk and merges; a read cuts a date range out of the
cached bars by binary search, or asks the provider when the symbol is not cached.
-/
namespace QuantTrading
open Library List

inductive CacheError where
  | bulkRequestFailed
deriving DecidableEq

/-- The store and the interval of the warm-ups so far. Its readers see a published copy of
the store, made under the lock of every write. -/
structure CacheManager where
  inMemoryOHLCV : Book String (List OHLCV)
  warmed : Option (Time × Time)
  sorted : inMemoryOHLCV.All fun _ bars => Ascending OHLCV.date bars

def mergeBars (existing incoming : List OHLCV) : List OHLCV := mergeLatest OHLCV.date existing incoming

def sortBars (bars : List OHLCV) : List OHLCV := bars.insertionSort fun a b => a.date ≤ b.date

theorem sortBars_ascending (bars : List OHLCV) : Ascending OHLCV.date (sortBars bars) :=
  pairwise_insertionSort (fun a b : OHLCV => a.date ≤ b.date) bars

def boundsOf (data : Book String (List OHLCV)) : Option (Time × Time) :=
  (data.toList.flatMap (·.2)).foldl (fun bounds bar => match bounds with
    | none => some (bar.date,bar.date)
    | some (lo,hi) => some (min lo bar.date,max hi bar.date)) none

def dateRangeBounds (bars : List OHLCV) (start stop : Time) : Nat × Int :=
  let n := bars.length
  if n = 0 then (0,-1)
  else
    let lo := search n fun i => (bars[i]?).any fun bar => !decide (bar.date < start)
    if lo = n then (n,n - 1)
    else (lo,(search n fun i => (bars[i]?).any fun bar => decide (stop < bar.date)) - 1)

namespace CacheManager

def newCacheManager : CacheManager := ⟨∅,none,Book.all_empty _⟩

variable (cm : CacheManager) (provider : MarketHistory) (data : Book String (List OHLCV))

def coversLocked (symbols : List String) (start stop : Time) : Bool :=
  match cm.warmed with
  | none => false
  | some (warmStart,warmEnd) =>
    ¬ (start < warmStart ∨ warmEnd < stop) ∧ ∀ symbol ∈ symbols, (cm.inMemoryOHLCV[symbol]?).isSome

def mergeFetched (existing : Option (List OHLCV)) (fetched : List OHLCV) : List OHLCV :=
  match existing with
  | none => sortBars fetched
  | some existing => if existing = [] then sortBars fetched else mergeBars existing (sortBars fetched)

def storeFetched (store data : Book String (List OHLCV)) : Book String (List OHLCV) :=
  store.collectInto data.keys fun symbol => (data[symbol]?).map (mergeFetched store[symbol]?)

def extendWarmed (warmed : Option (Time × Time)) (start stop : Time) : Time × Time :=
  match warmed with
  | none => (start,stop)
  | some (warmStart,warmEnd) =>
    (if start < warmStart then start else warmStart,if warmEnd < stop then stop else warmEnd)

theorem mergeFetched_ascending {existing : Option (List OHLCV)} (fetched : List OHLCV)
    (sorted : ∀ bars, existing = some bars → Ascending OHLCV.date bars) :
    Ascending OHLCV.date (mergeFetched existing fetched) := by
  unfold mergeFetched
  split
  · exact sortBars_ascending fetched
  rename_i bars
  split
  · exact sortBars_ascending fetched
  · exact mergeLatest_ascending (sorted bars rfl) (sortBars_ascending fetched)

theorem storeFetched_get (store data : Book String (List OHLCV)) (symbol : String) :
    (storeFetched store data)[symbol]? =
      ((data[symbol]?).map (mergeFetched store[symbol]?)).or store[symbol]? := by
  rw [storeFetched,Book.get_collectInto]
  split
  · rfl
  rename_i absent
  have none : data[symbol]? = none := by
    simpa [Std.ExtTreeMap.mem_keys] using absent
  simp [none]

theorem storeFetched_ascending :
    (storeFetched cm.inMemoryOHLCV data).All fun _ bars => Ascending OHLCV.date bars := by
  intro symbol bars present
  rw [storeFetched_get] at present
  cases found : data[symbol]? with
  | none => exact cm.sorted symbol bars (by simpa [found] using present)
  | some fetched =>
    have merged : mergeFetched cm.inMemoryOHLCV[symbol]? fetched = bars := by simpa [found] using present
    exact merged ▸ mergeFetched_ascending fetched fun old cached => cm.sorted symbol old cached

/-- `fetched` is the provider's answer to the bulk request, or nothing when it fails. -/
def warm (symbols : List String) (start stop : Time) (fetched : Option (Book String (List OHLCV))) :
    Except CacheError Unit × CacheManager :=
  if symbols = [] then (.ok (),cm)
  else if cm.coversLocked symbols start stop then (.ok (),cm)
  else match fetched with
  | none => (.error .bulkRequestFailed,cm)
  | some data =>
    (.ok (),
      { inMemoryOHLCV := storeFetched cm.inMemoryOHLCV data
        warmed := some (extendWarmed cm.warmed start stop)
        sorted := cm.storeFetched_ascending data })

variable {symbols : List String}

theorem warm_idle {cm : CacheManager} {start stop : Time}
    {fetched : Option (Book String (List OHLCV))}
    (idle : symbols = [] ∨ cm.coversLocked symbols start stop ∨ fetched.isNone) :
    (cm.warm symbols start stop fetched).2 = cm := by
  unfold warm
  split
  · rfl
  rename_i asked
  split
  · rfl
  rename_i uncovered
  have failed : fetched = none := by simpa [asked,uncovered] using idle
  rw [failed]

theorem warm_fetched {start stop : Time} 
    (asked : symbols ≠ []) (uncovered : cm.coversLocked symbols start stop = false) :
    cm.warm symbols start stop (some data) =
      (.ok (),⟨storeFetched cm.inMemoryOHLCV data,some (extendWarmed cm.warmed start stop),
        cm.storeFetched_ascending data⟩) := by
  rw [warm,if_neg asked,if_neg (by simp [uncovered])]

def load (data : Option { data : Book String (List OHLCV) // data.All fun _ bars => Ascending OHLCV.date bars }) :
    CacheManager :=
  match data with
  | none => newCacheManager
  | some data => ⟨data.val,boundsOf data.val,data.property⟩

def get (provider : String → Time → Time → Option (List OHLCV)) (symbol : String)
    (start stop : Time) : Option (List OHLCV) :=
  match cm.inMemoryOHLCV[symbol]? with
  | none => provider symbol start stop
  | some cached =>
    let (lo,hi) := dateRangeBounds cached start stop
    if hi < lo ∨ cached.length ≤ lo then some []
    else
      let hi := if (cached.length : Int) ≤ hi then (cached.length : Int) - 1 else hi
      some ((cached.take (hi + 1).toNat).drop lo)

def between (start stop : Time) (bars : List OHLCV) : List OHLCV :=
  bars.filter fun bar => !decide (bar.date < start) && decide (bar.date ≤ stop)

theorem before_inherited (start : Time) (a b : OHLCV) (order : a.date ≤ b.date) (holds : decide (b.date < start) = true) :
    decide (a.date < start) = true :=
  decide_eq_true (lt_of_le_of_lt order (of_decide_eq_true holds))

theorem within_inherited (stop : Time) (a b : OHLCV) (order : a.date ≤ b.date) (holds : decide (b.date ≤ stop) = true) :
    decide (a.date ≤ stop) = true :=
  decide_eq_true (le_trans order (of_decide_eq_true holds))

theorem dateRangeBounds_eq {bars : List OHLCV} (sorted : Ascending OHLCV.date bars) (start stop : Time) :
    dateRangeBounds bars start stop =
      let lo := (bars.takeWhile fun bar => decide (bar.date < start)).length
      let hi := (bars.takeWhile fun bar => decide (bar.date ≤ stop)).length
      (lo,(if lo = bars.length then (bars.length : Int) else hi) - 1) := by
  have lower := search_takeWhile sorted (before_inherited start)
  have upper := search_takeWhile sorted (within_inherited stop)
  simp only [← decide_not,not_le] at upper
  unfold dateRangeBounds
  dsimp only
  rw [lower,upper]
  by_cases empty : bars.length = 0
  · rw [if_pos empty,length_eq_zero_iff.mp empty]
    rfl
  · rw [if_neg empty]
    split
    · rename_i full
      rw [full]
    · rfl

theorem get_of_cached (provider : String → Time → Time → Option (List OHLCV)) (symbol : String)
    (start stop : Time) (bars : List OHLCV) (cached : cm.inMemoryOHLCV[symbol]? = some bars) :
    cm.get provider symbol start stop = some (between start stop bars) := by
  have sorted := cm.sorted symbol bars cached
  have sliced := slice_eq_filter sorted (before_inherited start) (within_inherited stop)
  have low := (takeWhile_sublist (fun bar : OHLCV => decide (bar.date < start)) (l := bars)).length_le
  have high := (takeWhile_sublist (fun bar : OHLCV => decide (bar.date ≤ stop)) (l := bars)).length_le
  unfold get between
  rw [cached]
  dsimp only
  rw [dateRangeBounds_eq sorted,← sliced]
  dsimp only
  generalize (bars.takeWhile fun bar => decide (bar.date < start)).length = lo at low
  generalize (bars.takeWhile fun bar => decide (bar.date ≤ stop)).length = hi at high
  -- Nothing is left of the cut when it starts past its end.
  by_cases past : hi ≤ lo
  · rw [if_pos (by split <;> omega),drop_eq_nil_of_le (by simp; omega)]
  · rw [if_neg (by omega)]
    congr 3
    omega

def history : MarketHistory where
  bars symbol := (cm.inMemoryOHLCV[symbol]?).getD (provider.bars symbol)
  sorted symbol := by
    cases cached : cm.inMemoryOHLCV[symbol]? with
    | none => exact provider.sorted symbol
    | some bars => exact cm.sorted symbol bars cached
  unavailable symbol stop := (cm.inMemoryOHLCV[symbol]?).isNone && provider.unavailable symbol stop

theorem history_getOHLCV (symbol : String) (start stop : Time) :
    (cm.history provider).getOHLCV symbol start stop = cm.get provider.getOHLCV symbol start stop := by
  cases cached : cm.inMemoryOHLCV[symbol]? with
  | none => simp [get,history,MarketHistory.getOHLCV,cached]
  | some bars =>
    rw [cm.get_of_cached _ symbol start stop bars cached,between]
    have window := window_eq_filter (cm.sorted symbol bars cached) (before_inherited start) (within_inherited stop)
    simp [history,MarketHistory.getOHLCV,cached,window]

end CacheManager
end QuantTrading
