import QuantTrading.Library.Slices
import QuantTrading.Strategy.BatchAdapter

/-! The batch adapter as it lies in memory. Its windows are slices: a bar is appended in place when the
array has room, and a window that grows too long is copied to a new array. The generator is handed
copies, which it may keep and overwrite; every array of the adapter stays its own, so the windows
are those of the adapter of values, also when the state is saved and loaded in between.
-/
namespace QuantTrading
open Library List

structure SliceAdapter (Sig : Type) where
  symbols : List String
  window : Nat
  positive : 0 < window
  windows : Book String Slice
  lastSignals : Option (List Sig)

def zeroBar : SymbolBar := ⟨⟨0,0,0,0,0,false,false⟩,""⟩

namespace SliceAdapter
variable {Sig Json : Type}

def ofBatch (a : BatchAdapter Sig) (windows : Book String Slice) : SliceAdapter Sig :=
  ⟨a.symbols,a.window,a.positive,windows,a.lastSignals⟩

variable (h : Heap SymbolBar) (a : SliceAdapter Sig) (sg : SignalGenerator Sig)

def view : BatchAdapter Sig :=
  ⟨a.symbols,a.window,a.positive,h.contents a.windows,a.lastSignals⟩

def newBatchAdapter (symbols : List String) (window : Int) : SliceAdapter Sig := ofBatch (.newBatchAdapter symbols window) ∅

def sliceOf (symbol : String) : Slice := (a.windows[symbol]?).getD .nil

def trimmed (window : Nat) (h : Heap SymbolBar) (w : Slice) : Slice × Heap SymbolBar :=
  if window < w.length then
    let (trimmed,h) := h.make zeroBar window
    (trimmed,h.copy trimmed (w.tail (w.length - window)))
  else (w,h)

def push (spare : Nat) (h : Heap SymbolBar) (a : SliceAdapter Sig) (bar : SymbolBar) : SliceAdapter Sig × Heap SymbolBar :=
  let (w,h) := h.append zeroBar spare (a.sliceOf bar.symbol) bar
  let (w,h) := trimmed a.window h w
  ({ a with windows := a.windows.insert bar.symbol w },h)

def ready : Bool := a.symbols ≠ [] ∧ ∀ symbol ∈ a.symbols, a.window ≤ (a.sliceOf symbol).length

def snapshot : Book String Slice × Heap SymbolBar :=
  h.storeAll (Heap.clone zeroBar) a.windows

def onBar (sg : SignalGenerator Sig) (spare : Nat) (h : Heap SymbolBar) (a : SliceAdapter Sig) (bar : SymbolBar) :
    Option (Book String Slice) × SliceAdapter Sig × Heap SymbolBar :=
  if a.symbols = [] then (none,a,h)
  else if bar.symbol ∉ a.symbols then (none,a,h)
  else
    let (a,h) := push spare h a bar
    if a.ready = false then (none,a,h)
    else
      let (snapshot,h) := snapshot h a
      (some snapshot,{ a with lastSignals := sg (h.contents snapshot) },h)

def saveState (codec : StateCodec Sig Json) (h : Heap SymbolBar) (a : SliceAdapter Sig) : Except AdapterError Json :=
  BatchAdapter.saveState codec (a.view h)

def loadState (codec : StateCodec Sig Json) (spare : Nat) (h : Heap SymbolBar) (a : SliceAdapter Sig) (bytes : Json) :
    Except AdapterError Unit × SliceAdapter Sig × Heap SymbolBar :=
  match BatchAdapter.loadState codec (a.view h) bytes with
  | (.error cause,_) => (.error cause,a,h)
  | (.ok (),loaded) =>
    let (windows,h) := h.storeAll (Heap.place zeroBar spare) loaded.windows
    (.ok (),ofBatch loaded windows,h)

variable {h : Heap SymbolBar} {a : SliceAdapter Sig}

theorem windowOf_view (h : Heap SymbolBar) (a : SliceAdapter Sig) (symbol : String) :
    (a.view h).windowOf symbol = h.read (a.sliceOf symbol) := by
  have found : (a.view h).windowOf symbol = ((h.contents a.windows)[symbol]?).getD [] := rfl
  rw [found,Heap.get_contents,sliceOf]
  cases a.windows[symbol]? with
  | none => simp [Heap.read,Slice.nil]
  | some => rfl

theorem fits_sliceOf (owned : h.Owned a.windows) (symbol : String) : h.Fits (a.sliceOf symbol) := by
  unfold sliceOf
  cases found : a.windows[symbol]? with
  | none => exact Heap.fits_nil
  | some s => exact (owned.inside symbol s found).2

theorem ready_view (owned : h.Owned a.windows) : (a.view h).ready = a.ready := by
  have lengths (symbol : String) : ((a.view h).windowOf symbol).length = (a.sliceOf symbol).length := by
    rw [windowOf_view,(fits_sliceOf owned symbol).read_length]
  simp only [BatchAdapter.ready,ready,lengths]
  rfl

theorem trimmed_moved {s w : Slice} {h h₁ : Heap SymbolBar} {window : Nat} {xs : List SymbolBar} (moved : h.Moved s xs (w,h₁)) :
    h.Moved s (BatchAdapter.trimmed window xs) (trimmed window h₁ w) := by
  have size : w.length = xs.length := by rw [← moved.fits.read_length,moved.holds]
  unfold trimmed BatchAdapter.trimmed
  rw [size]
  split
  · have length : (w.tail (xs.length - window)).length = window := by
      simp only [Slice.tail]
      omega
    have cloned : h₁.Fresh (h₁.read (w.tail (xs.length - window))) (h₁.clone zeroBar (w.tail (xs.length - window))) :=
      Heap.clone_fresh zeroBar moved.inside (moved.fits.tail (by dsimp only; omega))
    rw [Heap.read_tail,moved.holds,Heap.clone,length] at cloned
    exact moved.fresh cloned
  · exact moved

theorem push_moved (owned : h.Owned a.windows) (spare : Nat) (bar : SymbolBar) :
    h.Moved (a.sliceOf bar.symbol) (BatchAdapter.trimmed a.window ((a.view h).windowOf bar.symbol ++ [bar]))
      (trimmed a.window (h.append zeroBar spare (a.sliceOf bar.symbol) bar).2 (h.append zeroBar spare (a.sliceOf bar.symbol) bar).1) := by
  rw [windowOf_view]
  exact trimmed_moved (Heap.append_moved zeroBar spare bar (fits_sliceOf owned bar.symbol))

def Away (h : Heap SymbolBar) (a : SliceAdapter Sig) (array : Nat) : Prop := array < h.size ∧ ¬ Heap.Uses a.windows array

/-- One adapter in memory becomes another: its windows stay its own, and it takes no array that others may have. -/
structure Passes (h : Heap SymbolBar) (a : SliceAdapter Sig) (h' : Heap SymbolBar) (a' : SliceAdapter Sig) : Prop where
  grown : h.size ≤ h'.size
  owned : h'.Owned a'.windows
  away : ∀ array, Away h a array → Away h' a' array

variable {h' : Heap SymbolBar}

theorem Passes.trans {h'' : Heap SymbolBar} {a' a'' : SliceAdapter Sig} (first : Passes h a h' a') (second : Passes h' a' h'' a'') :
    Passes h a h'' a'' :=
  ⟨first.grown.trans second.grown,second.owned,fun array away => second.away array (first.away array away)⟩

theorem push_passes (owned : h.Owned a.windows) (spare : Nat) (bar : SymbolBar) :
    Passes h a (push spare h a bar).2 (push spare h a bar).1 ∧
      (push spare h a bar).1.view (push spare h a bar).2 = (a.view h).push bar := by
  have moved := push_moved owned spare bar
  refine ⟨⟨moved.changes.grown,owned.moved moved,fun array away => ⟨away.1.trans_le moved.changes.grown,fun used => ?_⟩⟩,?_⟩
  · rcases moved.uses used with before | new
    · exact away.2 before
    · exact absurd away.1 (not_lt.mpr new)
  · rw [view,BatchAdapter.push,BatchAdapter.mk.injEq]
    exact ⟨rfl,rfl,owned.contents_moved moved,rfl⟩

theorem snapshot_stored (owned : h.Owned a.windows) : h.Stored (h.contents a.windows) (snapshot h a) := by
  refine Heap.storeAll_stored fun symbol w found h' kept => ?_
  obtain ⟨old,fits⟩ := owned.inside symbol w found
  have cloned : h'.Fresh (h'.read w) (h'.clone zeroBar w) :=
    Heap.clone_fresh zeroBar (old.trans_le kept.grown) (kept.fits old not_false fits)
  rwa [kept.read old not_false] at cloned

theorem loadState_saved {codec : StateCodec Sig Json} {h : Heap SymbolBar} {a : SliceAdapter Sig} (a₀ : SliceAdapter Sig) (spare : Nat) {bytes : Json}
    (saved : saveState codec h a = .ok bytes) :
    ∃ signals windows h', h.Stored (h.contents a.windows) (windows,h') ∧
      loadState codec spare h a₀ bytes = (.ok (),{ a with windows := windows, lastSignals := signals },h') := by
  obtain ⟨signals,loaded⟩ := BatchAdapter.load_saved (a₀.view h) saved
  have stored : h.Stored ((h.contents a.windows).map fun _ xs => xs) (h.storeAll (Heap.place zeroBar spare) (h.contents a.windows)) :=
    Heap.storeAll_stored fun _ xs _ h' _ => Heap.place_fresh zeroBar spare h' xs
  have same : ((h.contents a.windows).map fun _ xs => xs) = h.contents a.windows := by
    apply Book.ext_getElem?
    intro symbol
    rw [Book.get_map,Option.map_id']
  rw [same] at stored
  refine ⟨signals,(h.storeAll (Heap.place zeroBar spare) (h.contents a.windows)).1,
    (h.storeAll (Heap.place zeroBar spare) (h.contents a.windows)).2,stored,?_⟩
  rw [loadState,loaded]
  rfl

theorem Passes.of_stored {windows : Book String Slice} (stored : h.Stored (h.contents a.windows) (windows,h'))
    (signals : Option (List Sig)) : Passes h a h' { a with windows := windows, lastSignals := signals } := by
  refine ⟨stored.kept.grown,stored.owned,fun array away => ⟨away.1.trans_le stored.kept.grown,?_⟩⟩
  rintro ⟨symbol,s,found,rfl⟩
  exact absurd away.1 (not_lt.mpr (stored.new symbol s found))

theorem write_passes (owned : h.Owned a.windows) {array : Nat} (away : Away h a array) (start : Nat) (xs : List SymbolBar) :
    Passes h a (h.write array start xs) a ∧ a.view (h.write array start xs) = a.view h := by
  obtain ⟨owned',same⟩ := owned.changed (h.write_changes array start xs) fun symbol s found here => away.2 ⟨symbol,s,found,here⟩
  refine ⟨⟨(Heap.size_write ..).ge,owned',fun other away => ⟨by rw [Heap.size_write]; exact away.1,away.2⟩⟩,?_⟩
  rw [view,same]
  rfl

structure Handed (h : Heap SymbolBar) (a : SliceAdapter Sig) (snapshot : Book String Slice) (before : Nat) : Prop where
  away : ∀ (symbol : String) (s : Slice), snapshot[symbol]? = some s → Away h a s.array
  new : ∀ (symbol : String) (s : Slice), snapshot[symbol]? = some s → before ≤ s.array

theorem snapshot_handed (owned : h.Owned a.windows) (signals : Option (List Sig)) :
    Passes h a (snapshot h a).2 { a with lastSignals := signals } ∧
      Handed (snapshot h a).2 { a with lastSignals := signals } (snapshot h a).1 h.size ∧
      view (snapshot h a).2 { a with lastSignals := signals } = (a.view h).withSignals signals := by
  have stored := snapshot_stored owned
  obtain ⟨owned',same⟩ := owned.changed stored.kept fun _ _ _ => not_false
  refine ⟨⟨stored.kept.grown,owned',fun array away => ⟨away.1.trans_le stored.kept.grown,away.2⟩⟩,
    ⟨fun symbol s found => ⟨(stored.owned.inside symbol s found).1,?_⟩,stored.new⟩,?_⟩
  · rintro ⟨other,w,held,here⟩
    have older := (owned.inside other w held).1
    have newer := stored.new symbol s found
    omega
  · rw [view]
    rw [same]
    rfl

/-- The cases of a bar: outside the universe, before the windows are full, and with a call. -/
inductive Taken (sg : SignalGenerator Sig) (h : Heap SymbolBar) (a : SliceAdapter Sig) (bar : SymbolBar) :
    Option (Book String Slice) × SliceAdapter Sig × Heap SymbolBar → Prop
  | ignored (outside : bar.symbol ∉ a.symbols) : Taken sg h a bar (none,a,h)
  | waiting {a' : SliceAdapter Sig} {h' : Heap SymbolBar} (inside : bar.symbol ∈ a.symbols) (passes : Passes h a h' a')
      (pushed : a'.view h' = (a.view h).push bar) (early : ((a.view h).push bar).ready = false) : Taken sg h a bar (none,a',h')
  | called {a' : SliceAdapter Sig} {h' : Heap SymbolBar} {snapshot : Book String Slice} (inside : bar.symbol ∈ a.symbols)
      (passes : Passes h a h' a') (full : ((a.view h).push bar).ready = true) (handed : Handed h' a' snapshot h.size)
      (seen : h'.contents snapshot = ((a.view h).push bar).windows)
      (answered : a'.view h' = ((a.view h).push bar).withSignals (sg ((a.view h).push bar).windows)) :
      Taken sg h a bar (some snapshot,a',h')

theorem onBar_taken (spare : Nat) (owned : h.Owned a.windows) (bar : SymbolBar) :
    Taken sg h a bar (onBar sg spare h a bar) := by
  unfold onBar
  split
  next empty =>
    exact .ignored (by simp [empty])
  · split
    next outside =>
      exact .ignored outside
    next listed =>
      have inside : bar.symbol ∈ a.symbols := not_not.mp listed
      obtain ⟨passes,pushed⟩ := push_passes owned spare bar
      have ready : (push spare h a bar).1.ready = ((a.view h).push bar).ready := by rw [← pushed,ready_view passes.owned]
      dsimp only
      rw [ready]
      split
      next early =>
        exact .waiting inside passes pushed early
      next full =>
        have full : ((a.view h).push bar).ready = true := by simpa using full
        obtain ⟨kept,handed,answered⟩ := snapshot_handed passes.owned
          (sg ((snapshot (push spare h a bar).2 (push spare h a bar).1).2.contents (snapshot (push spare h a bar).2 (push spare h a bar).1).1))
        have seen := (snapshot_stored passes.owned).holds
        have windows : (push spare h a bar).2.contents (push spare h a bar).1.windows = ((a.view h).push bar).windows := by
          rw [← pushed]
          rfl
        refine .called inside (passes.trans kept) full ⟨handed.away,fun symbol s found => ?_⟩ (seen.trans windows) ?_
        · exact passes.grown.trans (handed.new symbol s found)
        · rw [answered,pushed,seen,windows]

theorem Taken.view {sg : SignalGenerator Sig} {bar : SymbolBar} {result : Option (Book String Slice) × SliceAdapter Sig × Heap SymbolBar}
    (taken : Taken sg h a bar result) : result.2.1.view result.2.2 = BatchAdapter.accept sg (a.view h) bar := by
  have symbols : (a.view h).symbols = a.symbols := rfl
  rw [BatchAdapter.accept_eq,symbols]
  cases taken with
  | ignored outside => rw [if_neg outside]
  | waiting inside passes pushed early => rw [if_pos inside,early,pushed]; rfl
  | called inside passes full handed seen answered => rw [if_pos inside,if_pos full,answered]

/-- A call of the generator: the bar it was made at, the number of arrays before that bar, the slices it
was handed and the bars they held. -/
structure Call where
  (index before : Nat)
  snapshot : Book String Slice
  seen : Book String (List SymbolBar)

structure Session (Sig : Type) where
  heap : Heap SymbolBar
  adapter : SliceAdapter Sig
  bars : List SymbolBar
  calls : List Call

/-- A bar comes in, a cell of a snapshot is overwritten, or a new adapter takes the place of the old
one and loads the state that the old one saved. -/
inductive Event where
  | bar (bar : SymbolBar) (spare : Nat)
  | write (call : Nat) (symbol : String) (cell : Nat) (bar : SymbolBar)
  | replace (symbols : List String) (window : Int) (spare : Nat)

def Event.bar? : Event → Option SymbolBar
  | .bar fed _ => some fed
  | .write .. => none
  | .replace .. => none

namespace Session

def start (symbols : List String) (window : Int) : Session Sig := ⟨⟨[]⟩,newBatchAdapter symbols window,[],[]⟩

def taken (s : Session Sig) (bar : SymbolBar) (result : Option (Book String Slice) × SliceAdapter Sig × Heap SymbolBar) : Session Sig :=
  ⟨result.2.2,result.2.1,s.bars ++ [bar],
    s.calls ++ (result.1.map fun snapshot => ⟨s.bars.length,s.heap.size,snapshot,result.2.2.contents snapshot⟩).toList⟩

def step (sg : SignalGenerator Sig) (codec : StateCodec Sig Json) (s : Session Sig) : Event → Session Sig
  | .bar bar spare => s.taken bar (onBar sg spare s.heap s.adapter bar)
  | .write call symbol cell bar =>
    match (s.calls[call]?).bind fun call => call.snapshot[symbol]? with
    | none => s
    | some slice =>
      if cell < slice.capacity then { s with heap := s.heap.write slice.array (slice.offset + cell) [bar] } else s
  | .replace symbols window spare =>
    match saveState codec s.heap s.adapter with
    | .error _ => s
    | .ok bytes =>
      let (_,adapter,heap) := loadState codec spare s.heap (newBatchAdapter symbols window) bytes
      { s with heap := heap, adapter := adapter }

def windowOf (s : Session Sig) (symbol : String) : List SymbolBar := s.heap.read (s.adapter.sliceOf symbol)

end Session

def barsOf (symbol : String) (bars : List SymbolBar) : List SymbolBar := bars.filter (·.symbol = symbol)

def lastBars (w : Nat) (symbol : String) (bars : List SymbolBar) : List SymbolBar :=
  (barsOf symbol bars).drop ((barsOf symbol bars).length - w)

def everyFull (symbols : List String) (w : Nat) (bars : List SymbolBar) : Bool :=
  symbols.all fun symbol => w ≤ (barsOf symbol bars).length

/-- The bar of this index is one of the universe and every symbol of it has enough bars by then. -/
def due (symbols : List String) (w : Nat) (bars : List SymbolBar) (i : Nat) : Bool :=
  (bars[i]?).any (·.symbol ∈ symbols) && everyFull symbols w (bars.take (i + 1))

section Bars
variable {symbols : List String} {w : Nat} {bars : List SymbolBar} {bar : SymbolBar}

theorem barsOf_concat (symbol : String) (bars : List SymbolBar) (bar : SymbolBar) :
    barsOf symbol (bars ++ [bar]) = if bar.symbol = symbol then barsOf symbol bars ++ [bar] else barsOf symbol bars := by
  unfold barsOf
  by_cases same : bar.symbol = symbol <;> simp [same]

theorem lastBars_concat_self (positive : 0 < w) (bars : List SymbolBar) (bar : SymbolBar) :
    lastBars w bar.symbol (bars ++ [bar]) = BatchAdapter.trimmed w (lastBars w bar.symbol bars ++ [bar]) := by
  have added : barsOf bar.symbol (bars ++ [bar]) = barsOf bar.symbol bars ++ [bar] := by rw [barsOf_concat,if_pos rfl]
  unfold lastBars
  rw [added,← BatchAdapter.trimmed_eq,← BatchAdapter.trimmed_eq,BatchAdapter.trimmed_concat positive,
    BatchAdapter.trimmed_concat positive]
  simp only [BatchAdapter.trimmed_eq,drop_drop,length_drop]
  congr 2
  omega

theorem lastBars_concat_of_ne {symbol : String} (distinct : bar.symbol ≠ symbol) : lastBars w symbol (bars ++ [bar]) = lastBars w symbol bars := by
  rw [lastBars,lastBars,barsOf_concat,if_neg distinct]

theorem lastBars_length (symbol : String) : (lastBars w symbol bars).length = min (barsOf symbol bars).length w := by
  rw [lastBars,length_drop]
  omega

theorem due_concat_of_lt {i : Nat} (inside : i < bars.length) : due symbols w (bars ++ [bar]) i = due symbols w bars i := by
  rw [due,due,getElem?_append_left inside,take_append_of_le_length (by omega)]

theorem due_concat_self : due symbols w (bars ++ [bar]) bars.length = (decide (bar.symbol ∈ symbols) && everyFull symbols w (bars ++ [bar])) := by
  rw [due,getElem?_concat_length,take_of_length_le (by simp)]
  rfl

end Bars

structure Windows (symbols : List String) (w : Nat) (bars : List SymbolBar) (a : BatchAdapter Sig) : Prop where
  configured : a.symbols = symbols
  size : a.window = w
  windows : ∀ symbol, a.windows[symbol]? =
    if symbol ∈ symbols ∧ barsOf symbol bars ≠ [] then some (lastBars w symbol bars) else none

namespace Windows
variable {symbols : List String} {w : Nat} {bars : List SymbolBar} {bar : SymbolBar} {a : BatchAdapter Sig}

section
variable (held : Windows symbols w bars a)
include held

theorem windowOf {symbol : String} (listed : symbol ∈ symbols) :
    a.windowOf symbol = lastBars w symbol bars := by
  rw [BatchAdapter.windowOf,held.windows]
  by_cases none : barsOf symbol bars = []
  · simp [none,lastBars]
  · simp [none,listed]

theorem withSignals (signals : Option (List Sig)) : Windows symbols w bars (a.withSignals signals) :=
  ⟨held.configured,held.size,held.windows⟩

theorem ignore (outside : bar.symbol ∉ symbols) : Windows symbols w (bars ++ [bar]) a := by
  refine ⟨held.configured,held.size,fun symbol => ?_⟩
  rw [held.windows]
  by_cases listed : symbol ∈ symbols
  · have distinct : bar.symbol ≠ symbol := fun same => outside (same ▸ listed)
    rw [lastBars_concat_of_ne distinct,barsOf_concat,if_neg distinct]
  · simp [listed]

theorem push (inside : bar.symbol ∈ symbols) : Windows symbols w (bars ++ [bar]) (a.push bar) := by
  refine ⟨held.configured,held.size,fun symbol => ?_⟩
  rw [BatchAdapter.push,Book.get_insert,barsOf_concat]
  by_cases same : bar.symbol = symbol
  · subst same
    have positive : 0 < w := held.size ▸ a.positive
    rw [if_pos rfl,held.windowOf inside,held.size,if_pos rfl,if_pos ⟨inside,by simp⟩,lastBars_concat_self positive]
  · rw [if_neg same,if_neg same,held.windows,lastBars_concat_of_ne same]

theorem accept (sg : SignalGenerator Sig) (bar : SymbolBar) :
    Windows symbols w (bars ++ [bar]) (BatchAdapter.accept sg a bar) := by
  rw [BatchAdapter.accept_eq,held.configured]
  split
  next inside =>
    split
    · exact (held.push inside).withSignals _
    · exact held.push inside
  next outside =>
    exact held.ignore outside

theorem ready (nonempty : symbols ≠ []) : a.ready = everyFull symbols w bars := by
  rw [Bool.eq_iff_iff,BatchAdapter.ready,decide_eq_true_iff,everyFull,all_eq_true,held.configured,held.size]
  simp only [decide_eq_true_eq]
  constructor
  · rintro ⟨_,full⟩ symbol listed
    have := full symbol listed
    rw [held.windowOf listed,lastBars_length] at this
    omega
  · intro full
    refine ⟨nonempty,fun symbol listed => ?_⟩
    have := full symbol listed
    rw [held.windowOf listed,lastBars_length]
    omega

theorem full (full : everyFull symbols w bars = true) (symbol : String) :
    a.windows[symbol]? = if symbol ∈ symbols then some (lastBars w symbol bars) else none := by
  rw [held.windows]
  by_cases listed : symbol ∈ symbols
  · have enough : w ≤ (barsOf symbol bars).length := of_decide_eq_true (all_eq_true.mp full symbol listed)
    have positive : 0 < w := held.size ▸ a.positive
    have some : barsOf symbol bars ≠ [] := ne_nil_of_length_pos (by omega)
    rw [if_pos ⟨listed,some⟩,if_pos listed]
  · rw [if_neg (fun both => listed both.1),if_neg listed]

end

end Windows

structure Traced (symbols : List String) (w : Nat) (bars : List SymbolBar) (calls : List Call) : Prop where
  called : calls.map Call.index = (range bars.length).filter (due symbols w bars)
  given : ∀ call ∈ calls, ∀ symbol, call.seen[symbol]? =
    if symbol ∈ symbols then some (lastBars w symbol (bars.take (call.index + 1))) else none

namespace Traced
variable {symbols : List String} {w : Nat} {bars : List SymbolBar} {bar : SymbolBar} {calls : List Call}

theorem index_lt (traced : Traced symbols w bars calls) {call : Call} (made : call ∈ calls) : call.index < bars.length := by
  have listed : call.index ∈ calls.map Call.index := mem_map_of_mem made
  rw [traced.called] at listed
  exact mem_range.mp (mem_filter.mp listed).1

theorem concat (traced : Traced symbols w bars calls) {more : List Call}
    (called : more.map Call.index = if due symbols w (bars ++ [bar]) bars.length then [bars.length] else [])
    (given : ∀ call ∈ more, ∀ symbol, call.seen[symbol]? =
      if symbol ∈ symbols then some (lastBars w symbol (bars ++ [bar])) else none) :
    Traced symbols w (bars ++ [bar]) (calls ++ more) := by
  have earlier : (range bars.length).filter (due symbols w (bars ++ [bar])) = (range bars.length).filter (due symbols w bars) :=
    filter_congr fun i listed => due_concat_of_lt (mem_range.mp listed)
  constructor
  · rw [map_append,traced.called,called,length_append,length_singleton,range_succ,filter_append,earlier,
      filter_singleton,Bool.cond_eq_ite]
  · intro call made symbol
    rcases mem_append.mp made with old | new
    · have before := traced.index_lt old
      rw [traced.given call old,take_append_of_le_length (by omega)]
    · have last : call.index = bars.length := by
        have listed : call.index ∈ more.map Call.index := mem_map_of_mem new
        rw [called] at listed
        split at listed
        · exact mem_singleton.mp listed
        · cases listed
      rw [given call new,last,take_of_length_le (by simp)]

end Traced

/-- The windows and calls are those of the bars, and no window shares an array with a snapshot. -/
structure Sound (symbols : List String) (w : Nat) (s : Session Sig) : Prop where
  owned : s.heap.Owned s.adapter.windows
  windows : Windows symbols w s.bars (s.adapter.view s.heap)
  handed : ∀ call ∈ s.calls, Handed s.heap s.adapter call.snapshot call.before
  traced : Traced symbols w s.bars s.calls

theorem Handed.passes {snapshot : Book String Slice} {before : Nat} {a' : SliceAdapter Sig}
    (handed : Handed h a snapshot before) (passes : Passes h a h' a') : Handed h' a' snapshot before :=
  ⟨fun symbol s found => passes.away s.array (handed.away symbol s found),handed.new⟩

namespace Sound
variable {symbols : List String} {w : Nat} {s : Session Sig}

variable {sg : SignalGenerator Sig} {codec : StateCodec Sig Json}

section
variable (sound : Sound symbols w s)
include sound

theorem bar (fed : SymbolBar) (spare : Nat) : Sound symbols w (s.step sg codec (.bar fed spare)) := by
  have taken := onBar_taken sg spare sound.owned fed
  have configured : s.adapter.symbols = symbols := sound.windows.configured
  change Sound symbols w (s.taken fed (onBar sg spare s.heap s.adapter fed))
  generalize onBar sg spare s.heap s.adapter fed = result at taken ⊢
  have after : Windows symbols w (s.bars ++ [fed]) (result.2.1.view result.2.2) := by
    rw [taken.view]
    exact sound.windows.accept sg fed
  cases taken with
  | ignored outside =>
    rw [configured] at outside
    refine ⟨sound.owned,after,?_,?_⟩
    · simpa [Session.taken] using sound.handed
    · refine sound.traced.concat ?_ (by simp)
      simp [due_concat_self,outside]
  | waiting inside passes pushed early =>
    rw [configured] at inside
    have windows := sound.windows.push inside
    rw [windows.ready (ne_nil_of_mem inside)] at early
    refine ⟨passes.owned,after,?_,?_⟩
    · intro call made
      exact (sound.handed call (by simpa [Session.taken] using made)).passes passes
    · refine sound.traced.concat ?_ (by simp)
      simp [due_concat_self,early]
  | called inside passes full handed seen =>
    rw [configured] at inside
    have windows := sound.windows.push inside
    rw [windows.ready (ne_nil_of_mem inside)] at full
    refine ⟨passes.owned,after,?_,?_⟩
    · intro call made
      rcases mem_append.mp made with old | new
      · exact (sound.handed call old).passes passes
      · cases mem_singleton.mp new
        exact handed
    · refine sound.traced.concat ?_ ?_
      · simp [due_concat_self,inside,full]
      · intro call made symbol
        cases mem_singleton.mp made
        dsimp only
        rw [seen,windows.full full]

theorem write (call : Nat) (symbol : String) (cell : Nat) (b : SymbolBar) :
    Sound symbols w (s.step sg codec (.write call symbol cell b)) := by
  unfold Session.step
  dsimp only
  split
  · exact sound
  rename_i slice found
  split
  · obtain ⟨given,made,handed⟩ := bind_eq_some_iff.mp found
    have away := (sound.handed given (mem_of_getElem? made)).away symbol slice handed
    obtain ⟨passes,same⟩ := write_passes sound.owned away (slice.offset + cell) [b]
    exact ⟨passes.owned,by rw [same]; exact sound.windows,fun call made => (sound.handed call made).passes passes,sound.traced⟩
  · exact sound

theorem replace (symbols' : List String) (window : Int) (spare : Nat) :
    Sound symbols w (s.step sg codec (.replace symbols' window spare)) := by
  unfold Session.step
  dsimp only
  split
  · exact sound
  rename_i bytes saved
  obtain ⟨signals,windows,heap,stored,loaded⟩ := loadState_saved (newBatchAdapter symbols' window) spare saved
  rw [loaded]
  have passes := Passes.of_stored stored signals
  have same : view heap { s.adapter with windows := windows, lastSignals := signals } = (s.adapter.view s.heap).withSignals signals := by
    rw [view]
    rw [stored.holds]
    rfl
  refine ⟨passes.owned,?_,fun call made => (sound.handed call made).passes passes,sound.traced⟩
  rw [same]
  exact sound.windows.withSignals signals

theorem step (event : Event) : Sound symbols w (s.step sg codec event) := by
  cases event with
  | bar fed spare => exact sound.bar fed spare
  | write call symbol cell b => exact sound.write call symbol cell b
  | replace symbols' window spare => exact sound.replace symbols' window spare

end

end Sound

theorem start_sound (symbols : List String) {w : Nat} (positive : 1 ≤ w) : Sound symbols w (Session.start symbols w : Session Sig) := by
  have size : (newBatchAdapter symbols w : SliceAdapter Sig).window = w := by
    simp only [newBatchAdapter,ofBatch,BatchAdapter.newBatchAdapter]
    split <;> omega
  refine ⟨Heap.owned_empty _,⟨rfl,size,fun symbol => ?_⟩,by simp [Session.start],⟨rfl,by simp [Session.start]⟩⟩
  simp [Session.start,view,newBatchAdapter,ofBatch,Heap.contents,barsOf]

theorem bars_run (codec : StateCodec Sig Json) (s : Session Sig) (events : List Event) :
    (run (Session.step sg codec) s events).bars = s.bars ++ events.filterMap Event.bar? := by
  induction events generalizing s with
  | nil => simp
  | cons event events ih =>
    rw [run_cons,ih]
    cases event with
    | bar => simp [Session.step,Session.taken,Event.bar?]
    | write call symbol cell b =>
      have same : (s.step sg codec (.write call symbol cell b)).bars = s.bars := by
        unfold Session.step
        dsimp only
        split
        · rfl
        · split <;> rfl
      rw [same]
      rfl
    | replace symbols window spare =>
      rfl

/-- Every window holds the last bars of its symbol; the generator was called at the bars that were due,
with the windows of all symbols as they were then, in arrays that had not been there. -/
structure Isomorphic (symbols : List String) (w : Nat) (bars : List SymbolBar) (s : Session Sig) : Prop where
  windows : ∀ symbol ∈ symbols, s.windowOf symbol = lastBars w symbol bars
  called : s.calls.map Call.index = (range bars.length).filter (due symbols w bars)
  given : ∀ call ∈ s.calls, ∀ symbol, call.seen[symbol]? =
    if symbol ∈ symbols then some (lastBars w symbol (bars.take (call.index + 1))) else none
  fresh : ∀ call ∈ s.calls, ∀ (symbol : String) (slice : Slice), call.snapshot[symbol]? = some slice → call.before ≤ slice.array

/-- Whatever is written to the snapshots meanwhile, and wherever the adapter is replaced by one that
loads its state. -/
theorem session_isomorphic (sg : SignalGenerator Sig) (codec : StateCodec Sig Json) (symbols : List String) (w : Nat)
    (positive : 1 ≤ w) (events : List Event) :
    Isomorphic symbols w (events.filterMap Event.bar?) (run (Session.step sg codec) (Session.start symbols w) events) := by
  have sound : Sound symbols w (run (Session.step sg codec) (Session.start symbols w) events) :=
    run_always (fun _ event sound => sound.step event) (start_sound symbols positive) events
  have fed : (run (Session.step sg codec) (Session.start symbols w) events).bars = events.filterMap Event.bar? := by
    rw [bars_run]
    rfl
  obtain ⟨_,windows,handed,traced⟩ := sound
  rw [fed] at windows traced
  refine ⟨fun symbol listed => ?_,traced.called,traced.given,fun call made => (handed call made).new⟩
  rw [Session.windowOf,← windowOf_view]
  exact windows.windowOf listed

section Disturbed
open StreamRunner (barAt)
open BatchAdapter (datesShown plainCodec)

/-- Two dates of two symbols in windows of two; the snapshot of the call at the fourth bar is overwritten
and the adapter replaced before the fifth. -/
def disturbed : List Event := [.bar (barAt "A" 1) 0,.bar (barAt "B" 1) 1,.bar (barAt "A" 2) 0,.bar (barAt "B" 2) 0,
  .write 0 "A" 1 zeroBar,.replace [] 7 2,.bar (barAt "A" 3) 0]

theorem disturbed_isomorphic :
    1 ≤ 2 ∧ (run (Session.step datesShown plainCodec) (Session.start ["A","B"] (2 : Nat)) disturbed).calls.map Call.index = [3,4] ∧
      (run (Session.step datesShown plainCodec) (Session.start ["A","B"] (2 : Nat)) disturbed).windowOf "A" = [barAt "A" 2,barAt "A" 3] := by
  have same := session_isomorphic datesShown plainCodec ["A","B"] 2 (by decide) disturbed
  refine ⟨by decide,same.called.trans ?_,(same.windows "A" (by decide)).trans ?_⟩
  · decide +kernel
  · decide +kernel

/-- A bar of another symbol brings no call although every window is full, and without a universe, where
that is vacuous, there is none at all. -/
theorem foreign_bar_not_called :
    (run (Session.step datesShown plainCodec) (Session.start ["A"] (1 : Nat)) [.bar (barAt "A" 1) 0,.bar (barAt "B" 1) 0]).calls.map Call.index ≠
        (range 2).filter (fun i => everyFull ["A"] 1 ([barAt "A" 1,barAt "B" 1].take (i + 1))) ∧
      (run (Session.step datesShown plainCodec) (Session.start [] (1 : Nat)) [.bar (barAt "A" 1) 0]).calls.map Call.index ≠
        (range 1).filter (fun i => everyFull [] 1 ([barAt "A" 1].take (i + 1))) := by
  constructor <;> decide +kernel

end Disturbed

end SliceAdapter
end QuantTrading
