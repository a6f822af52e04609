import QuantTrading.Cache

/-! Whether the cache answers as its provider would. Over any sequence of warm-ups and
clearings, the cache holds of each symbol exactly the provider's bars in the ranges that
were fetched for it since the last clearing. A warm-up that is skipped adds nothing, and its
reads are right only if earlier fetches reach every bar of its range.
-/
namespace QuantTrading
open Library CacheManager List

/-- A provider whose bars do not change: per symbol at most one bar a date. -/
structure BarSource where
  bars : String → List OHLCV
  ascending : ∀ symbol, (bars symbol).Pairwise fun a b => a.date < b.date

namespace BarSource

variable (source : BarSource)

def getOHLCV (symbol : String) (start stop : Time) : List OHLCV :=
  between start stop (source.bars symbol)

def bulkLoadOHLCV (symbols : List String) (start stop : Time) : Book String (List OHLCV) :=
  Book.collectInto ∅ symbols fun symbol => some (source.getOHLCV symbol start stop)

/-- An answer to a bulk request: the bars of the range in any order. A symbol without bars
there may be listed or left out. -/
structure Answers (source : BarSource) (symbols : List String) (start stop : Time) (data : Book String (List OHLCV)) :
    Prop where
  requested : ∀ symbol : String, (data[symbol]?).isSome → symbol ∈ symbols
  complete : ∀ symbol ∈ symbols, ((data[symbol]?).getD []).Perm (source.getOHLCV symbol start stop)

theorem bulkLoadOHLCV_answers (symbols : List String) (start stop : Time) :
    source.Answers symbols start stop (source.bulkLoadOHLCV symbols start stop) := by
  constructor
  · intro symbol listed
    rw [bulkLoadOHLCV,Book.get_collectInto] at listed
    by_contra other
    simp [other] at listed
  · intro symbol listed
    rw [bulkLoadOHLCV,Book.get_collectInto,if_pos listed]
    exact .refl _

theorem sortBars_answer (symbol : String) (start stop : Time) (fetched : List OHLCV)
    (answer : fetched.Perm (source.getOHLCV symbol start stop)) :
    sortBars fetched = source.getOHLCV symbol start stop := by
  have strict : (source.getOHLCV symbol start stop).Pairwise fun a b => a.date < b.date :=
    (source.ascending symbol).filter _
  have perm := (perm_insertionSort (fun a b : OHLCV => a.date ≤ b.date) fetched).trans answer
  refine perm.eq_of_pairwise ?_ (sortBars_ascending fetched) (strict.imp fun earlier => earlier.le)
  intro a b first second forth back
  have dates : ((source.getOHLCV symbol start stop).map OHLCV.date).Nodup :=
    pairwise_map.mpr (strict.imp fun earlier => earlier.ne)
  exact inj_on_of_nodup_map dates (perm.mem_iff.mp first) second (le_antisymm forth back)

end BarSource

inductive CacheOp where
  | warm (symbols : List String) (start stop : Time) (fetched : Option (Book String (List OHLCV)))
  | clear

def CacheOp.Answered (source : BarSource) : CacheOp → Prop
  | .warm symbols start stop fetched => ∀ data, fetched = some data → source.Answers symbols start stop data
  | .clear => True

structure Fetch where
  symbols : List String
  (start stop : Time)

def Fetch.Reaches (fetch : Fetch) (symbol : String) (date : Time) : Bool :=
  symbol ∈ fetch.symbols ∧ ¬ date < fetch.start ∧ date ≤ fetch.stop

/-- The cache with the bulk requests answered since it was last cleared. -/
structure TracedCache where
  cm : CacheManager
  fetches : List Fetch

namespace TracedCache

def new : TracedCache := ⟨newCacheManager,[]⟩

def step (s : TracedCache) : CacheOp → TracedCache
  | .clear => ⟨load none,[]⟩
  | .warm symbols start stop fetched =>
    { cm := (s.cm.warm symbols start stop fetched).2
      fetches :=
        if symbols = [] ∨ s.cm.coversLocked symbols start stop ∨ fetched.isNone then s.fetches
        else ⟨symbols,start,stop⟩ :: s.fetches }

def Reached (s : TracedCache) (symbol : String) (date : Time) : Bool :=
  s.fetches.any fun fetch => fetch.Reaches symbol date

def Tracks (source : BarSource) (s : TracedCache) : Prop :=
  ∀ symbol : String, (s.cm.inMemoryOHLCV[symbol]?).getD [] =
    (source.bars symbol).filter fun bar => s.Reached symbol bar.date

theorem mergeFetched_eq (existing : Option (List OHLCV)) (fetched : List OHLCV) :
    mergeFetched existing fetched = mergeBars (existing.getD []) (sortBars fetched) := by
  cases existing with
  | none => simp [mergeFetched,mergeBars]
  | some existing =>
    by_cases empty : existing = []
    · simp [mergeFetched,mergeBars,empty]
    · simp [mergeFetched,empty]

variable {source : BarSource} {s : TracedCache} {symbols : List String}

theorem Tracks.fetched (tracks : s.Tracks source) {start stop : Time} {data : Book String (List OHLCV)}
    (answers : source.Answers symbols start stop data) (symbol : String) :
    ((storeFetched s.cm.inMemoryOHLCV data)[symbol]?).getD [] = (source.bars symbol).filter fun bar =>
      s.Reached symbol bar.date || Fetch.Reaches ⟨symbols,start,stop⟩ symbol bar.date := by
  rw [storeFetched_get]
  by_cases listed : symbol ∈ symbols
  · have answer := answers.complete symbol listed
    have asked : (fun bar : OHLCV => Fetch.Reaches ⟨symbols,start,stop⟩ symbol bar.date) =
        fun bar => !decide (bar.date < start) && decide (bar.date ≤ stop) := by
      funext bar
      simp only [Fetch.Reaches,listed,true_and,Bool.decide_and,decide_not]
    have merged := mergeLatest_filter (source.ascending symbol) (fun bar => s.Reached symbol bar.date)
      fun bar => Fetch.Reaches ⟨symbols,start,stop⟩ symbol bar.date
    rw [← tracks symbol,asked,← between,← BarSource.getOHLCV] at merged
    cases found : data[symbol]? with
    | none =>
      have empty : source.getOHLCV symbol start stop = [] := by simpa [found] using answer
      rw [empty] at merged
      simpa using merged
    | some fetched =>
      rw [found] at answer
      simp only [map_some,Option.some_or,getD_some,mergeFetched_eq,mergeBars,
        source.sortBars_answer symbol start stop fetched answer]
      exact merged
  · have unasked : data[symbol]? = none := by
      cases found : data[symbol]? with
      | none => rfl
      | some => exact absurd (answers.requested symbol (by simp [found])) listed
    simpa [unasked,Fetch.Reaches,listed] using tracks symbol

theorem Tracks.step (s : TracedCache) (op : CacheOp) (tracks : s.Tracks source)
    (answered : op.Answered source) : (s.step op).Tracks source := by
  cases op with
  | clear => exact fun symbol => by simp [TracedCache.step,load,newCacheManager,Reached]
  | warm symbols start stop fetched =>
    by_cases idle : symbols = [] ∨ s.cm.coversLocked symbols start stop ∨ fetched.isNone
    · have same : s.step (.warm symbols start stop fetched) = s := by
        simp only [TracedCache.step,warm_idle idle,if_pos idle]
      rw [same]
      exact tracks
    · obtain ⟨asked,uncovered,present⟩ := not_or.mp idle |>.imp id not_or.mp
      obtain ⟨data,rfl⟩ := Option.ne_none_iff_exists'.mp (by simpa using present)
      intro symbol
      have added := tracks.fetched (answered data rfl) symbol
      simp only [TracedCache.step,s.cm.warm_fetched data asked (by simpa using uncovered),Reached,if_neg idle]
      simp only [any_cons,Bool.or_comm (Fetch.Reaches _ _ _)]
      exact added

theorem tracks_run (ops : List CacheOp) (answered : ∀ op ∈ ops, op.Answered source) :
    (run step new ops).Tracks source := by
  have guarded : ∀ s, Guarded step (fun _ op => op.Answered source) s ops := by
    induction ops with
    | nil => exact fun _ => trivial
    | cons op ops ih => exact fun s => ⟨answered op (by simp),ih (fun later listed => answered later (by simp [listed])) _⟩
  have start : new.Tracks source := fun symbol => by simp [new,newCacheManager,Reached]
  exact run_invariant (fun s op => Tracks.step s op) start (guarded new)

def Coherent (source : BarSource) (cm : CacheManager) (symbols : List String) (start stop : Time) : Prop :=
  ∀ symbol ∈ symbols, ∀ first last, start ≤ first → last ≤ stop →
    cm.get (fun symbol start stop => some (source.getOHLCV symbol start stop)) symbol first last =
      some (source.getOHLCV symbol first last)

def Reaches (source : BarSource) (s : TracedCache) (symbols : List String) (start stop : Time) : Prop :=
  ∀ symbol ∈ symbols, ∀ bar ∈ source.bars symbol, start ≤ bar.date → bar.date ≤ stop → s.Reached symbol bar.date

theorem Tracks.cached (tracks : s.Tracks source) {symbol : String}
    {bars : List OHLCV} (found : s.cm.inMemoryOHLCV[symbol]? = some bars) :
    bars = (source.bars symbol).filter fun bar => s.Reached symbol bar.date := by
  simpa [found] using tracks symbol

theorem Tracks.coherent (tracks : s.Tracks source) {start stop : Time} (reaches : s.Reaches source symbols start stop) :
    Coherent source s.cm symbols start stop := by
  intro symbol listed first last after before
  cases found : s.cm.inMemoryOHLCV[symbol]? with
  | none => simp [CacheManager.get,found]
  | some bars =>
    rw [s.cm.get_of_cached _ symbol first last bars found,tracks.cached found,BarSource.getOHLCV,between,between,
      filter_filter]
    congr 1
    refine filter_congr fun bar member => ?_
    cases inside : (!decide (bar.date < first) && decide (bar.date ≤ last)) with
    | false => rfl
    | true =>
      obtain ⟨notBefore,notAfter⟩ : first ≤ bar.date ∧ bar.date ≤ last := by simpa using inside
      simp [reaches symbol listed bar member (after.trans notBefore) (notAfter.trans before)]

theorem Tracks.reaches (tracks : s.Tracks source) {start stop : Time} (covered : s.cm.coversLocked symbols start stop)
    (coherent : Coherent source s.cm symbols start stop) : s.Reaches source symbols start stop := by
  intro symbol listed bar member notBefore notAfter
  have present : (s.cm.inMemoryOHLCV[symbol]?).isSome := by
    unfold CacheManager.coversLocked at covered
    split at covered
    · simp at covered
    · exact (of_decide_eq_true covered).2 symbol listed
  obtain ⟨bars,found⟩ := isSome_iff_exists.mp present
  have read := coherent symbol listed start stop le_rfl le_rfl
  rw [s.cm.get_of_cached _ symbol start stop bars found,tracks.cached found] at read
  have inRange : bar ∈ source.getOHLCV symbol start stop :=
    mem_filter.mpr ⟨member,by simpa using ⟨notBefore,notAfter⟩⟩
  rw [← Option.some.inj read,between,mem_filter,mem_filter] at inRange
  exact inRange.1.2

theorem warm_coherent_iff (source : BarSource) (ops : List CacheOp) (answered : ∀ op ∈ ops, op.Answered source)
    (symbols : List String) (start stop : Time) (fetched : Option (Book String (List OHLCV)))
    (answers : ∀ data, fetched = some data → source.Answers symbols start stop data)
    (succeeded : ((run step new ops).cm.warm symbols start stop fetched).1 = .ok ()) :
    Coherent source ((run step new ops).cm.warm symbols start stop fetched).2 symbols start stop ↔
      (run step new ops).cm.coversLocked symbols start stop = false ∨
        (run step new ops).Reaches source symbols start stop := by
  have tracks := tracks_run ops answered
  generalize run step new ops = s at tracks succeeded
  by_cases none : symbols = []
  · subst none
    exact ⟨fun _ => .inr (by simp [Reaches]),fun _ => by simp [Coherent]⟩
  · cases covered : s.cm.coversLocked symbols start stop with
    | true =>
      rw [warm_idle (.inr (.inl covered))]
      exact ⟨fun coherent => .inr (tracks.reaches covered coherent),
        fun reaches => tracks.coherent (reaches.resolve_left (by simp))⟩
    | false =>
      refine ⟨fun _ => .inl rfl,fun _ => ?_⟩
      obtain ⟨data,rfl⟩ : ∃ data, fetched = some data := by
        cases fetched with
        | none => simp [CacheManager.warm,none,covered] at succeeded
        | some data => exact ⟨data,rfl⟩
      have next := Tracks.step s (.warm symbols start stop (some data)) tracks answers
      refine next.coherent fun symbol listed bar _ notBefore notAfter => ?_
      have logged : ¬ (symbols = [] ∨ s.cm.coversLocked symbols start stop ∨ (some data).isNone) := by
        simp [none,covered]
      simp only [Reached,step,if_neg logged,any_cons,Fetch.Reaches]
      simp [listed,notBefore,notAfter]

/-! Two symbols warmed for ranges that do not touch. -/

def quietBar (date : Time) : OHLCV := ⟨date,10,10,10,100,false,false⟩

def twoSymbols : BarSource where
  bars symbol := if symbol = "A" then [quietBar 5,quietBar 25] else if symbol = "B" then [quietBar 25] else []
  ascending symbol := by
    split
    · simp [quietBar]
    · split <;> simp

def disjointWarmups : List CacheOp :=
  [.warm ["A"] 1 10 (some (twoSymbols.bulkLoadOHLCV ["A"] 1 10)),
    .warm ["B"] 20 30 (some (twoSymbols.bulkLoadOHLCV ["B"] 20 30))]

theorem disjointWarmups_answered : ∀ op ∈ disjointWarmups, op.Answered twoSymbols := by
  simp only [disjointWarmups,forall_mem_cons,CacheOp.Answered,Option.some.injEq,forall_eq']
  exact ⟨twoSymbols.bulkLoadOHLCV_answers _ _ _,twoSymbols.bulkLoadOHLCV_answers _ _ _,by simp⟩

theorem warmedRange_coherent : (run step new disjointWarmups).cm.coversLocked ["A"] 1 10 = true ∧
      Coherent twoSymbols ((run step new disjointWarmups).cm.warm ["A"] 1 10 none).2 ["A"] 1 10 := by
  have covered : (run step new disjointWarmups).cm.coversLocked ["A"] 1 10 = true := by decide +kernel
  have succeeded : ((run step new disjointWarmups).cm.warm ["A"] 1 10 none).1 = .ok () := by
    simp [CacheManager.warm,covered]
  have reaches : (run step new disjointWarmups).Reaches twoSymbols ["A"] 1 10 := by
    unfold Reaches
    decide +kernel
  exact ⟨covered,(warm_coherent_iff twoSymbols disjointWarmups disjointWarmups_answered ["A"] 1 10 none (by simp)
    succeeded).mpr (.inr reaches)⟩

theorem gapBetweenWarmups_incoherent : (∀ op ∈ disjointWarmups, op.Answered twoSymbols) ∧
      ((run step new disjointWarmups).cm.warm ["A"] 1 30 (some (twoSymbols.bulkLoadOHLCV ["A"] 1 30))).1 =
        .ok () ∧ ¬ Coherent twoSymbols ((run step new disjointWarmups).cm.warm ["A"] 1 30
        (some (twoSymbols.bulkLoadOHLCV ["A"] 1 30))).2 ["A"] 1 30 := by
  have covered : (run step new disjointWarmups).cm.coversLocked ["A"] 1 30 = true := by decide +kernel
  refine ⟨disjointWarmups_answered,by simp [CacheManager.warm,covered],fun coherent => ?_⟩
  exact absurd (coherent "A" (by simp) 20 30 (by decide) (by decide)) (by decide +kernel)

end TracedCache
end QuantTrading
