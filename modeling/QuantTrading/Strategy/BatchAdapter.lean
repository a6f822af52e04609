import QuantTrading.Library.Book
import QuantTrading.Strategy.CrashResume

/-! The adapter that lets a batch strategy run bar by bar: a rolling window for each symbol of
its universe, and one call of the signal generator for each bar once every window is full.
A call that fails leaves its bar in the window; the runner saves that state under the date of
the bar before, and a resumed run feeds the bar again.
-/
namespace QuantTrading
open Library List

structure BatchAdapterState (Sig : Type) where
  version : Int
  symbols : List String
  window : Int
  windows : Book String (List SymbolBar)
  lastSignals : Option (List Sig)

/-- The JSON coding of a payload. Bars are plain values and come back as they were; signals hold
untyped ones, which may not. -/
structure StateCodec (Sig Json : Type) where
  marshal : BatchAdapterState Sig → Json
  unmarshal : Json → Option (Option (BatchAdapterState Sig))
  kept : ∀ state, ∃ signals, unmarshal (marshal state) = some (some { state with lastSignals := signals })

inductive AdapterError where
  | generateSignalsFailed (symbol : String) (date : Time)
  | undecodable
  | nullState
  | versionMismatch (got : Int)
  | illegalWindow (window : Int)
deriving DecidableEq

structure BatchAdapter (Sig : Type) where
  symbols : List String
  window : Nat
  positive : 0 < window
  windows : Book String (List SymbolBar)
  lastSignals : Option (List Sig)

/-- The batch strategy: its signals for a snapshot of the windows. -/
abbrev SignalGenerator (Sig : Type) := Book String (List SymbolBar) → Option (List Sig)

def batchAdapterStateVersion : Int := 1

namespace BatchAdapter
variable {Sig Json : Type}

def newBatchAdapter (symbols : List String) (window : Int) : BatchAdapter Sig where
  symbols := symbols
  window := if window < 1 then 1 else window.toNat
  positive := by split <;> omega
  windows := ∅
  lastSignals := none

variable (codec : StateCodec Sig Json) (a : BatchAdapter Sig)

def windowOf (symbol : String) : List SymbolBar := (a.windows[symbol]?).getD []

def trimmed (window : Nat) (w : List SymbolBar) : List SymbolBar :=
  if window < w.length then w.drop (w.length - window) else w

def push (bar : SymbolBar) : BatchAdapter Sig :=
  { a with windows := a.windows.insert bar.symbol (trimmed a.window (a.windowOf bar.symbol ++ [bar])) }

def ready : Bool := a.symbols ≠ [] ∧ ∀ symbol ∈ a.symbols, a.window ≤ (a.windowOf symbol).length

def onBar (sg : SignalGenerator Sig) (failing : Bool) (a : BatchAdapter Sig) (bar : SymbolBar) :
    Except AdapterError Unit × BatchAdapter Sig :=
  if a.symbols = [] then (.ok (),a)
  else if bar.symbol ∉ a.symbols then (.ok (),a)
  else
    let a := a.push bar
    if a.ready = false then (.ok (),a)
    else if failing then (.error (.generateSignalsFailed bar.symbol bar.date),a)
    else (.ok (),{ a with lastSignals := sg a.windows })

def saveState : Except AdapterError Json :=
  .ok (codec.marshal ⟨batchAdapterStateVersion,a.symbols,a.window,a.windows,a.lastSignals⟩)

def loadState (bytes : Json) : Except AdapterError Unit × BatchAdapter Sig :=
  match codec.unmarshal bytes with
  | none => (.error .undecodable,a)
  | some none => (.error .nullState,a)
  | some (some st) =>
    if st.version ≠ batchAdapterStateVersion then (.error (.versionMismatch st.version),a)
    else if legal : st.window < 1 then (.error (.illegalWindow st.window),a)
    else (.ok (),⟨st.symbols,st.window.toNat,by omega,st.windows,st.lastSignals⟩)

def handler (sg : SignalGenerator Sig) (codec : StateCodec Sig Json) (symbols : List String) (window : Int) :
    BarHandler Bool (BatchAdapter Sig) Json AdapterError where
  fresh := newBatchAdapter symbols window
  onBar := onBar sg
  saveState := saveState codec
  loadState := loadState codec

def accept (sg : SignalGenerator Sig) (a : BatchAdapter Sig) (bar : SymbolBar) : BatchAdapter Sig :=
  (onBar sg false a bar).2

def withSignals (signals : Option (List Sig)) : BatchAdapter Sig := { a with lastSignals := signals }

variable {sg : SignalGenerator Sig} {a : BatchAdapter Sig}

variable {failing : Bool} {a' : BatchAdapter Sig} {window : Nat} {symbol : String} {bar : SymbolBar} {cause : AdapterError}

/-- The bar is of the universe and fills the last window. -/
def Calls (a : BatchAdapter Sig) (bar : SymbolBar) : Prop := bar.symbol ∈ a.symbols ∧ (a.push bar).ready = true

theorem onBar_ok (taken : onBar sg failing a bar = (.ok (),a')) : a' = accept sg a bar := by
  unfold accept
  unfold onBar at taken ⊢
  cases failing with
  | false => rw [taken]
  | true =>
    split at taken
    · simp_all
    · split at taken
      · simp_all
      · dsimp only at taken ⊢
        split at taken
        · simp_all
        · simp at taken

theorem onBar_error (failed : onBar sg failing a bar = (.error cause,a')) : a.Calls bar ∧ a' = a.push bar := by
  unfold onBar at failed
  iterate 2 (split at failed; · cases failed)
  rename_i listed
  dsimp only at failed
  split at failed
  · cases failed
  rename_i full
  split at failed
  · cases failed
    exact ⟨⟨not_not.mp listed,by simpa using full⟩,rfl⟩
  · cases failed

theorem accept_eq (sg : SignalGenerator Sig) (a : BatchAdapter Sig) (bar : SymbolBar) :
    accept sg a bar = if bar.symbol ∈ a.symbols then
      if (a.push bar).ready then (a.push bar).withSignals (sg (a.push bar).windows) else a.push bar else a := by
  unfold accept onBar
  by_cases listed : bar.symbol ∈ a.symbols
  · have nonempty : a.symbols ≠ [] := ne_nil_of_mem listed
    cases full : (a.push bar).ready <;> simp [nonempty,listed,full,withSignals]
  · simp [listed]

theorem accept_ready (calls : a.Calls bar) : accept sg a bar = (a.push bar).withSignals (sg (a.push bar).windows) := by
  rw [accept_eq,if_pos calls.1,if_pos calls.2]

theorem accept_windows (sg : SignalGenerator Sig) (listed : bar.symbol ∈ a.symbols) :
    (accept sg a bar).windows = (a.push bar).windows := by
  rw [accept_eq,if_pos listed]
  split <;> rfl

theorem push_withSignals (a : BatchAdapter Sig) (signals : Option (List Sig)) (bar : SymbolBar) :
    (a.withSignals signals).push bar = (a.push bar).withSignals signals := rfl

theorem accept_withSignals (sg : SignalGenerator Sig) (a : BatchAdapter Sig) (signals : Option (List Sig)) (bar : SymbolBar) :
    ∃ signals', accept sg (a.withSignals signals) bar = (accept sg a bar).withSignals signals' := by
  have sameReady : ((a.push bar).withSignals signals).ready = (a.push bar).ready := rfl
  rw [accept_eq,accept_eq,push_withSignals,sameReady]
  by_cases listed : bar.symbol ∈ a.symbols
  · have listed' : bar.symbol ∈ (a.withSignals signals).symbols := listed
    rw [if_pos listed,if_pos listed']
    split <;> exact ⟨_,rfl⟩
  · have listed' : bar.symbol ∉ (a.withSignals signals).symbols := listed
    rw [if_neg listed,if_neg listed']
    exact ⟨_,rfl⟩

theorem accept_forgets (calls : a.Calls bar) (signals : Option (List Sig)) :
    accept sg (a.withSignals signals) bar = accept sg a bar := by
  have calls' : (a.withSignals signals).Calls bar := calls
  rw [accept_ready calls,accept_ready calls']
  rfl

theorem accept_symbols (sg : SignalGenerator Sig) (a : BatchAdapter Sig) (bar : SymbolBar) :
    (accept sg a bar).symbols = a.symbols ∧ (accept sg a bar).window = a.window := by
  rw [accept_eq]
  split
  · split <;> exact ⟨rfl,rfl⟩
  · exact ⟨rfl,rfl⟩

@[simp] theorem windowOf_push (a : BatchAdapter Sig) (bar : SymbolBar) (symbol : String) : (a.push bar).windowOf symbol =
    if bar.symbol = symbol then trimmed a.window (a.windowOf bar.symbol ++ [bar]) else a.windowOf symbol := by
  simp only [windowOf,push,Book.getElem?_insert]
  by_cases same : bar.symbol = symbol <;> simp [same]

theorem trimmed_eq (window : Nat) (w : List SymbolBar) : trimmed window w = w.drop (w.length - window) := by
  unfold trimmed
  split
  · rfl
  · rw [show w.length - window = 0 by omega,drop_zero]

theorem trimmed_length (window : Nat) (w : List SymbolBar) : (trimmed window w).length = min w.length window := by
  rw [trimmed_eq,length_drop]
  omega

theorem trimmed_concat (positive : 0 < window) (w : List SymbolBar) (bar : SymbolBar) :
    trimmed window (w ++ [bar]) = trimmed (window - 1) w ++ [bar] := by
  rw [trimmed_eq,trimmed_eq,drop_append_of_le_length (by simp; omega)]
  congr 2
  simp
  omega

theorem mem_of_mem_trimmed {w : List SymbolBar} (listed : bar ∈ trimmed window w) :
    bar ∈ w := by
  rw [trimmed_eq] at listed
  exact mem_of_mem_drop listed

theorem push_push_of_one (one : a.window = 1) (bar : SymbolBar) : (a.push bar).push bar = a.push bar := by
  have only (w : List SymbolBar) : trimmed 1 (w ++ [bar]) = [bar] := by
    rw [trimmed_concat (by omega),trimmed_eq]
    simp
  have twice : ((a.push bar).push bar).windows = (a.push bar).windows := by
    apply Book.ext_getElem?
    intro symbol
    simp only [push,one,only,Book.getElem?_insert]
    split <;> rfl
  rw [push,BatchAdapter.mk.injEq]
  exact ⟨rfl,rfl,twice,rfl⟩

theorem push_push_ne (long : 1 < a.window) (new : bar ∉ a.windowOf bar.symbol) :
    ((a.push bar).push bar).windows ≠ (a.push bar).windows := by
  intro same
  have window : ((a.push bar).push bar).windowOf bar.symbol = (a.push bar).windowOf bar.symbol := by
    simp only [windowOf,same]
  have size : (a.push bar).window = a.window := rfl
  rw [windowOf_push,if_pos rfl,windowOf_push,if_pos rfl,size,trimmed_concat a.positive,trimmed_concat a.positive,
    trimmed_concat (by omega)] at window
  have before := append_cancel_right window
  have held : bar ∈ trimmed (a.window - 1) (a.windowOf bar.symbol) := by
    rw [← before]
    simp
  exact new (mem_of_mem_trimmed held)

theorem mem_windowOf_accept {b : SymbolBar}
    (held : b ∈ (accept sg a bar).windowOf symbol) : b ∈ a.windowOf symbol ∨ b = bar := by
  have pushed (here : b ∈ (a.push bar).windowOf symbol) : b ∈ a.windowOf symbol ∨ b = bar := by
    rw [windowOf_push] at here
    split at here
    · rename_i same
      subst same
      exact (mem_append.mp (mem_of_mem_trimmed here)).imp id mem_singleton.mp
    · exact .inl here
  rw [accept_eq] at held
  split at held
  · split at held <;> exact pushed held
  · exact .inl held

theorem mem_windowOf_fold {bars : List SymbolBar} {b : SymbolBar} (held : b ∈ (bars.foldl (accept sg) a).windowOf symbol) : b ∈ a.windowOf symbol ∨ b ∈ bars := by
  induction bars generalizing a with
  | nil => exact .inl held
  | cons bar bars ih =>
    rcases ih held with early | later
    · rcases mem_windowOf_accept early with old | rfl
      · exact .inl old
      · exact .inr (mem_cons_self ..)
    · exact .inr (mem_cons_of_mem _ later)

section Runs
open StreamRunner
variable (sg : SignalGenerator Sig) (codec : StateCodec Sig Json) (symbols : List String) (window : Int)

def trail (sg : SignalGenerator Sig) : BatchAdapter Sig → List SymbolBar → List (BatchAdapter Sig)
  | _, [] => []
  | a, bar :: rest => accept sg a bar :: trail sg (accept sg a bar) rest

section
variable (a : BatchAdapter Sig)

theorem trail_getLastD (rest : List SymbolBar) : (trail sg a rest).getLastD a = rest.foldl (accept sg) a := by
  induction rest generalizing a with
  | nil => rfl
  | cons bar rest ih => rw [trail,getLastD_cons,ih,foldl_cons]

theorem trail_append (first second : List SymbolBar) :
    trail sg a (first ++ second) = trail sg a first ++ trail sg (first.foldl (accept sg) a) second := by
  induction first generalizing a with
  | nil => rfl
  | cons bar first ih => simp [trail,ih]

@[simp] theorem trail_length (rest : List SymbolBar) : (trail sg a rest).length = rest.length := by
  induction rest generalizing a with
  | nil => rfl
  | cons bar rest ih => simp [trail,ih]

section
variable (signals : Option (List Sig)) (rest : List SymbolBar)

theorem trail_withSignals :
    (trail sg (a.withSignals signals) rest).map (·.windows) = (trail sg a rest).map (·.windows) := by
  induction rest generalizing a signals with
  | nil => rfl
  | cons bar rest ih =>
    obtain ⟨signals',same⟩ := accept_withSignals sg a signals bar
    simp only [trail,map_cons,same,ih]
    rfl

theorem fold_withSignals :
    ∃ signals', rest.foldl (accept sg) (a.withSignals signals) = (rest.foldl (accept sg) a).withSignals signals' := by
  induction rest generalizing a signals with
  | nil => exact ⟨signals,rfl⟩
  | cons bar rest ih =>
    obtain ⟨signals',same⟩ := accept_withSignals sg a signals bar
    rw [foldl_cons,same]
    exact ih _ _

end

end

variable {world : Nat → Bool} {ckpt : Checkpoint} {faults : Faults Bool} {signals : Option (List Sig)}

theorem fed_trail (answering : ∀ i, world i = false) (i : Nat) (a : BatchAdapter Sig)
    (rest : List SymbolBar) : fed (handler sg codec symbols window) world i a rest = trail sg a rest := by
  induction rest generalizing i a with
  | nil => rfl
  | cons bar rest ih =>
    rw [fed,trail,ih,answering i]
    rfl

/-- The adapter behind the first `i` bars when the generator answers to all of them. -/
def cleanAt (bars : List SymbolBar) (i : Nat) : BatchAdapter Sig :=
  (bars.take i).foldl (accept sg) (newBatchAdapter symbols window)

variable {sg symbols window} {bars : List SymbolBar}

theorem cleanAt_succ {i : Nat} (here : bars[i]? = some bar) :
    cleanAt sg symbols window bars (i + 1) = accept sg (cleanAt sg symbols window bars i) bar := by
  rw [cleanAt,take_add_one,here,Option.toList_some,foldl_append]
  rfl

theorem cleanAt_drop (i : Nat) : (bars.drop i).foldl (accept sg) (cleanAt sg symbols window bars i) =
    cleanAt sg symbols window bars bars.length := by
  rw [cleanAt,← foldl_append,take_append_drop,cleanAt,take_length]

variable {codec}

theorem load_saved (a₀ : BatchAdapter Sig) {a : BatchAdapter Sig} {bytes : Json} (encoded : saveState codec a = .ok bytes) :
    ∃ signals, loadState codec a₀ bytes = (.ok (),a.withSignals signals) := by
  cases encoded
  obtain ⟨signals,decoded⟩ := codec.kept ⟨batchAdapterStateVersion,a.symbols,a.window,a.windows,a.lastSignals⟩
  refine ⟨signals,?_⟩
  have legal : ¬ (a.window : Int) < 1 := by
    have := a.positive
    omega
  simp [loadState,decoded,legal,withSignals]

/-- The resumed run ends with the windows and signals of the undisturbed one, and so do its windows
after each bar it feeds: no bar is counted twice. -/
structure ResumeSafe (resumed whole : RunResult (BatchAdapter Sig) Json AdapterError) : Prop where
  windows : resumed.state.windows = whole.state.windows
  signals : resumed.state.lastSignals = whole.state.lastSignals
  along : resumed.states.map (·.windows) <:+ whole.states.map (·.windows)

/-- The states of a run whose generator answers, from adapter `a` at index `start`. -/
structure Follows (sg : SignalGenerator Sig) (bars : List SymbolBar) (start : Nat) (a : BatchAdapter Sig)
    (r : RunResult (BatchAdapter Sig) Json AdapterError) : Prop where
  states : r.states = trail sg a (bars.drop start)
  state : r.state = (bars.drop start).foldl (accept sg) a

variable {clk : Clock} {last : SymbolBar}

theorem runFrom_follows {row : StoredState Json} {start : Nat}
    {a : BatchAdapter Sig} (answering : ∀ i, faults.world i = false)
    (completed : (runFrom (handler sg codec symbols window) bars ckpt faults clk row start a).exit = .completed) :
    Follows sg bars start a (runFrom (handler sg codec symbols window) bars ckpt faults clk row start a) := by
  obtain ⟨states,state⟩ := runFrom_completed completed
  rw [fed_trail sg codec symbols window answering] at states state
  exact ⟨states,state.trans (trail_getLastD sg a _)⟩

theorem run_follows (answering : ∀ i, faults.world i = false)
    (completed : (run (handler sg codec symbols window) bars faults clk).exit = .completed) :
    Follows sg bars 0 (newBatchAdapter symbols window) (run (handler sg codec symbols window) bars faults clk) := by
  have follows : Follows sg bars 0 (newBatchAdapter symbols window) (runFrom (handler sg codec symbols window) bars
      ⟨false,0,false⟩ faults clk none 0 (newBatchAdapter symbols window)) := runFrom_follows answering completed
  exact follows

variable {start j : Nat} {a : BatchAdapter Sig} {row : StoredState Json}
  {resumed whole : RunResult (BatchAdapter Sig) Json AdapterError}

theorem trail_split (start : Nat) : trail sg (newBatchAdapter symbols window) bars =
    trail sg (newBatchAdapter symbols window) (bars.take start) ++
      trail sg (cleanAt sg symbols window bars start) (bars.drop start) := by
  conv_lhs => rw [← take_append_drop start bars]
  exact trail_append sg _ _ _

theorem cleanAt_later (before : start ≤ j) :
    ((bars.drop start).take (j - start)).foldl (accept sg) (cleanAt sg symbols window bars start) =
      cleanAt sg symbols window bars j := by
  rw [cleanAt,← foldl_append,← take_add,Nat.add_sub_cancel' before,cleanAt]

theorem drop_split (before : start ≤ j) (here : bars[j]? = some bar) :
    bars.drop start = (bars.drop start).take (j - start) ++ bar :: bars.drop (j + 1) := by
  obtain ⟨inside,value⟩ := List.getElem?_eq_some_iff.mp here
  have later : bars.drop j = bar :: bars.drop (j + 1) := by rw [drop_eq_getElem_cons inside,value]
  rw [← later,← Nat.add_sub_cancel' before,← drop_drop,Nat.add_sub_cancel_left,take_append_drop]

theorem drop_here (here : bars[j]? = some bar) : bars.drop j = bar :: bars.drop (j + 1) := by
  simpa using drop_split le_rfl here

theorem fold_clean (signals : Option (List Sig)) (before : start ≤ j) (here : bars[j]? = some bar)
    (calls : (cleanAt sg symbols window bars j).Calls bar) :
    (bars.drop start).foldl (accept sg) ((cleanAt sg symbols window bars start).withSignals signals) =
      cleanAt sg symbols window bars bars.length := by
  obtain ⟨signals',carried⟩ := fold_withSignals sg (cleanAt sg symbols window bars start) signals
    ((bars.drop start).take (j - start))
  rw [drop_split before here,foldl_append,carried,cleanAt_later before,foldl_cons,
    accept_forgets calls,← cleanAt_succ here,cleanAt_drop]

theorem cleanAt_universe (i : Nat) : (cleanAt sg symbols window bars i).symbols = symbols ∧
    (cleanAt sg symbols window bars i).window = (newBatchAdapter symbols window : BatchAdapter Sig).window := by
  have kept (a : BatchAdapter Sig) (rest : List SymbolBar) :
      (rest.foldl (accept sg) a).symbols = a.symbols ∧ (rest.foldl (accept sg) a).window = a.window := by
    induction rest generalizing a with
    | nil => exact ⟨rfl,rfl⟩
    | cons bar rest ih =>
      obtain ⟨sameSymbols,sameWindow⟩ := accept_symbols sg a bar
      exact ⟨(ih _).1.trans sameSymbols,(ih _).2.trans sameWindow⟩
  exact kept _ _

theorem newBatchAdapter_window_le : (newBatchAdapter symbols window : BatchAdapter Sig).window ≤ 1 ↔ window ≤ 1 := by
  simp only [newBatchAdapter]
  split <;> omega

theorem ready_at_first (calls : (cleanAt sg symbols window bars 0).Calls bar) : window ≤ 1 := by
  have long := (of_decide_eq_true calls.2).2 bar.symbol calls.1
  have empty : (cleanAt sg symbols window bars 0).windowOf bar.symbol = [] := by
    simp [cleanAt,newBatchAdapter,windowOf]
  rw [windowOf_push,if_pos rfl,empty,trimmed_length] at long
  have short : (cleanAt sg symbols window bars 0).window ≤ 1 := le_trans long (by simp)
  exact newBatchAdapter_window_le.mp short

theorem new_behind_boundary (ascend : DatesAscend bars) (fed : 0 < j) (found : bars[j - 1]? = some last)
    (boundary : isDateBoundary bars (j - 1) = true) (here : bars[j]? = some bar) :
    bar ∉ (cleanAt sg symbols window bars j).windowOf bar.symbol := by
  intro held
  rcases mem_windowOf_fold held with fresh | earlier
  · simp [newBatchAdapter,windowOf] at fresh
  · obtain ⟨k,bound,same⟩ := mem_take_iff_getElem.mp earlier
    obtain ⟨inside,value⟩ := List.getElem?_eq_some_iff.mp found
    have after : last.date < bar.date := by
      have short := (List.getElem?_eq_some_iff.mp here).1
      rw [isDateBoundary,Nat.sub_add_cancel fed,here,found] at boundary
      simpa [short.ne] using boundary
    have order : bar.date ≤ last.date := by
      rw [← same,← value]
      rcases Nat.lt_or_ge k (j - 1) with before | equal
      · exact pairwise_iff_getElem.mp ascend k (j - 1) (by omega) inside before
      · have equal : k = j - 1 := by omega
        subst equal
        exact le_rfl
    exact absurd after (not_lt.mpr order)

def Taken (sg : SignalGenerator Sig) (symbols : List String) (window : Int) (bars : List SymbolBar) (world : Nat → Bool)
    (i : Nat) (a : BatchAdapter Sig) : Prop :=
  a = cleanAt sg symbols window bars i ∧ ∀ k bar, k < i → bars[k]? = some bar →
    (onBar sg (world k) (cleanAt sg symbols window bars k) bar).1 = .ok ()

theorem taken_next (i : Nat) (bar : SymbolBar) (a a' : BatchAdapter Sig) (here : bars[i]? = some bar)
    (taken : Taken sg symbols window bars world i a) (went : onBar sg (world i) a bar = (.ok (),a')) :
    Taken sg symbols window bars world (i + 1) a' := by
  obtain ⟨rfl,earlier⟩ := taken
  refine ⟨by rw [onBar_ok went,cleanAt_succ here],fun k bar' below found => ?_⟩
  rcases Nat.lt_succ_iff_lt_or_eq.mp below with before | rfl
  · exact earlier k bar' before found
  · rw [here] at found
    cases found
    rw [went]

theorem Taken.le {i : Nat} {a a' : BatchAdapter Sig}
    (taken : Taken sg symbols window bars world i a) (here : bars[j]? = some bar)
    (failed : onBar sg (world j) (cleanAt sg symbols window bars j) bar = (.error cause,a')) : i ≤ j := by
  by_contra beyond
  have went := taken.2 j bar (by omega) here
  rw [failed] at went
  cases went

theorem bestEffortSave_row (found : bars[j - 1]? = some last) (fed : 0 < j) :
    (bestEffortSave (handler sg codec symbols window) bars ckpt faults j 0 a row).2 =
      if isDateBoundary bars (j - 1) = true ∧ ckpt.store = true ∧ faults.saves j = true then
        some (last.date,codec.marshal ⟨batchAdapterStateVersion,a.symbols,a.window,a.windows,a.lastSignals⟩)
      else row := by
  unfold bestEffortSave saveCheckpoint
  rw [if_neg (by omega),found]
  cases isDateBoundary bars (j - 1) <;> cases ckpt.store <;> cases faults.saves j <;> simp [handler,saveState]

theorem bestEffortSave_kept (here : bars[j]? = some bar)
    (unwritten : ¬ (0 < j ∧ isDateBoundary bars (j - 1) = true ∧ ckpt.store = true ∧ faults.saves j = true)) :
    (bestEffortSave (handler sg codec symbols window) bars ckpt faults j 0 a row).2 = row := by
  rcases Nat.eq_zero_or_pos j with rfl | fed
  · simp [bestEffortSave]
  · have short := (List.getElem?_eq_some_iff.mp here).1
    have found : bars[j - 1]? = some bars[j - 1] := getElem?_eq_getElem (by omega)
    rw [bestEffortSave_row found fed,if_neg fun cond => unwritten ⟨fed,cond⟩]

section Resumed
variable (undisturbed : Follows sg bars 0 (newBatchAdapter symbols window) whole) (here : bars[j]? = some bar)
include undisturbed

theorem resumeSafe_of_end (ends : resumed.state = cleanAt sg symbols window bars bars.length)
    (along : resumed.states.map (·.windows) = (trail sg (cleanAt sg symbols window bars start) (bars.drop start)).map (·.windows)) :
    ResumeSafe resumed whole := by
  have same : resumed.state = whole.state := by
    rw [ends,undisturbed.state,cleanAt,take_length]
    rfl
  refine ⟨by rw [same],by rw [same],?_⟩
  rw [along,undisturbed.states,drop_zero,trail_split start,map_append]
  exact suffix_append ..

include here

theorem resumeSafe_of_clean (calls : (cleanAt sg symbols window bars j).Calls bar)
    (follows : Follows sg bars start ((cleanAt sg symbols window bars start).withSignals signals) resumed)
    (before : start ≤ j) : ResumeSafe resumed whole :=
  resumeSafe_of_end undisturbed (follows.state.trans (fold_clean signals before here calls))
    (by rw [follows.states,trail_withSignals])

section Pushed
variable (calls : (cleanAt sg symbols window bars j).Calls bar)
  (follows : Follows sg bars j (((cleanAt sg symbols window bars j).push bar).withSignals signals) resumed)
include calls follows

theorem resumeSafe_of_one (one : (cleanAt sg symbols window bars j).window = 1) : ResumeSafe resumed whole := by
  have again : accept sg (((cleanAt sg symbols window bars j).push bar).withSignals signals) bar =
      accept sg (cleanAt sg symbols window bars j) bar := by
    generalize cleanAt sg symbols window bars j = a at one calls
    have pushed : ((a.push bar).withSignals signals).push bar = (a.push bar).withSignals signals := by
      rw [push_withSignals,push_push_of_one one]
    have calls' : ((a.push bar).withSignals signals).Calls bar := ⟨calls.1,by rw [pushed]; exact calls.2⟩
    rw [accept_ready calls,accept_ready calls',pushed]
    rfl
  refine resumeSafe_of_end undisturbed ?_ (by rw [follows.states,drop_here here,trail,trail,again])
  rw [follows.state,drop_here here,foldl_cons,again,← cleanAt_succ here,cleanAt_drop]

theorem not_resumeSafe (long : 1 < (cleanAt sg symbols window bars j).window)
    (new : bar ∉ (cleanAt sg symbols window bars j).windowOf bar.symbol) : ¬ ResumeSafe resumed whole := by
  intro safe
  obtain ⟨front,aligned⟩ := safe.along
  rw [follows.states,undisturbed.states,drop_zero,trail_split j,map_append] at aligned
  have same := (append_inj' aligned (by simp)).2
  rw [drop_here here,trail,trail,map_cons,map_cons,cons.injEq] at same
  have listed' : bar.symbol ∈ (((cleanAt sg symbols window bars j).push bar).withSignals signals).symbols := calls.1
  rw [accept_windows sg calls.1,accept_windows sg listed'] at same
  exact push_push_ne long new same.1

/-- Resuming from a window that already holds the failed bar is safe exactly for windows of
one bar. -/
theorem resumeSafe_pushed_iff (new : bar ∉ (cleanAt sg symbols window bars j).windowOf bar.symbol) :
    ResumeSafe resumed whole ↔ window ≤ 1 := by
  have size : (cleanAt sg symbols window bars j).window ≤ 1 ↔ window ≤ 1 := by
    rw [(cleanAt_universe j).2,newBatchAdapter_window_le]
  constructor
  · intro safe
    by_contra large
    have long : 1 < (cleanAt sg symbols window bars j).window := not_le.mp fun short => large (size.mp short)
    exact not_resumeSafe undisturbed here calls follows long new safe
  · intro small
    have one : (cleanAt sg symbols window bars j).window = 1 := by
      have positive := (cleanAt sg symbols window bars j).positive
      omega
    exact resumeSafe_of_one undisturbed here calls follows one

end Pushed

theorem resumeSafe_of_saved {a' : BatchAdapter Sig}
    (failed : onBar sg (world j) (cleanAt sg symbols window bars j) bar = (.error cause,a'))
    (saved : Saved (handler sg codec symbols window) bars (Taken sg symbols window bars world) row)
    (starts : StartsFrom (handler sg codec symbols window) bars ckpt row start a)
    (follows : Follows sg bars start a resumed) : ResumeSafe resumed whole := by
  obtain ⟨calls,_⟩ := onBar_error failed
  rcases starts with ⟨_,rfl,rfl⟩ | ⟨_,ts,bytes,stored,loads,rfl⟩
  · exact resumeSafe_of_clean undisturbed here calls follows (Nat.zero_le j)
  · obtain ⟨old,encoded,taken⟩ := saved ts bytes stored
    obtain ⟨signals,decoded⟩ := load_saved (newBatchAdapter symbols window) encoded
    have same : a = (cleanAt sg symbols window bars (skipPrefix bars ts)).withSignals signals := by
      rw [← taken.1]
      exact (Prod.mk.inj (loads.symm.trans decoded)).2
    subst same
    exact resumeSafe_of_clean undisturbed here calls follows (taken.le here failed)

end Resumed

theorem resumeSafe_iff (sg : SignalGenerator Sig) (codec : StateCodec Sig Json) (symbols : List String) (window : Int)
    (bars : List SymbolBar) (ascend : DatesAscend bars) (first second : Attempt Bool) (j : Nat)
    (rejected : (first.result (handler sg codec symbols window) bars none).exit.RejectedAt j)
    (resume : second.ckpt.resume = true) (recovered : ∀ i, second.faults.world i = false)
    (completed : (second.result (handler sg codec symbols window) bars
      (first.result (handler sg codec symbols window) bars none).row).exit = .completed)
    (faults : Faults Bool) (clk : Clock) (answering : ∀ i, faults.world i = false)
    (ran : (run (handler sg codec symbols window) bars faults clk).exit = .completed) :
    ResumeSafe (second.result (handler sg codec symbols window) bars
        (first.result (handler sg codec symbols window) bars none).row)
        (run (handler sg codec symbols window) bars faults clk) ↔
      window ≤ 1 ∨ isDateBoundary bars (j - 1) = false ∨ first.ckpt.store = false ∨ first.faults.saves j = false := by
  have undisturbed := run_follows answering ran
  have ends : ∃ start, (none = none → start = 0) ∧ Ended (handler sg codec symbols window) bars first.ckpt first.faults
      (Taken sg symbols window bars first.faults.world) start (first.result (handler sg codec symbols window) bars none) :=
    runCheckpointed_ended ascend taken_next ⟨rfl,by simp⟩ first.clk Saved.empty nofun
  obtain ⟨start,begin,ended⟩ := ends
  obtain rfl := begin rfl
  cases ended with
  | completed exit =>
    obtain ⟨_,_,_,_,failed,_⟩ := rejected
    rw [exit] at failed
    cases failed
  | stopped exit => exact absurd rejected (exit.2 j)
  | @rejected i bar a a' cause row exit here begun stands failed saved left =>
    obtain rfl := (exit.2 j).mp rejected
    obtain ⟨rfl,taken⟩ := stands
    obtain ⟨calls,rfl⟩ := onBar_error failed
    obtain ⟨start,loaded,starts,went⟩ := runCheckpointed_completed completed
    have follows : Follows sg bars start loaded (second.result (handler sg codec symbols window) bars
        (first.result (handler sg codec symbols window) bars none).row) := by
      rw [Attempt.result,went] at completed ⊢
      exact runFrom_follows recovered completed
    by_cases written : 0 < j ∧ isDateBoundary bars (j - 1) = true ∧ first.ckpt.store = true ∧ first.faults.saves j = true
    · obtain ⟨fed,cond⟩ := written
      have short := (List.getElem?_eq_some_iff.mp here).1
      have found : bars[j - 1]? = some bars[j - 1] := getElem?_eq_getElem (by omega)
      rw [bestEffortSave_row found fed,if_pos cond] at left
      rcases starts with ⟨off | empty,_⟩ | ⟨_,ts,bytes,stored,loads,rfl⟩
      · simp [resume] at off
      · simp [left] at empty
      · rw [left] at stored
        cases stored
        have encoded : saveState codec ((cleanAt sg symbols window bars j).push bar) = .ok _ := rfl
        obtain ⟨signals,decoded⟩ := load_saved (newBatchAdapter symbols window) encoded
        have same : loaded = ((cleanAt sg symbols window bars j).push bar).withSignals signals :=
          (Prod.mk.inj (loads.symm.trans decoded)).2
        have cut := skipPrefix_boundary ascend found cond.1
        rw [Nat.sub_add_cancel fed] at cut
        rw [cut,same] at follows
        rw [resumeSafe_pushed_iff undisturbed here calls follows (new_behind_boundary ascend fed found cond.1 here)]
        simp [cond]
    · rw [bestEffortSave_kept here written] at left
      rw [left] at follows starts ⊢
      refine iff_of_true (resumeSafe_of_saved undisturbed here failed saved starts follows) ?_
      rcases Nat.eq_zero_or_pos j with rfl | fed
      · exact .inl (ready_at_first calls)
      · simp only [fed,true_and,not_and_or,Bool.not_eq_true] at written
        exact .inr written

/-! Two symbols with windows of two bars, and a generator that lists the dates it is shown. -/

def plainCodec : StateCodec Time (BatchAdapterState Time) := ⟨id,fun state => some (some state),fun state => ⟨state.lastSignals,rfl⟩⟩

def datesShown : SignalGenerator Time := fun windows => some (windows.toList.flatMap fun entry => entry.2.map (·.date))

def pairHandler (symbols : List String) : BarHandler Bool (BatchAdapter Time) (BatchAdapterState Time) AdapterError :=
  handler datesShown plainCodec symbols 2

def failsAt (j : Nat) : Attempt Bool := ⟨⟨true,1,false⟩,.virtual 0,⟨fun i => i = j,fun _ => true,true,fun _ => none⟩⟩

def recovered : Attempt Bool := ⟨⟨true,1,true⟩,.virtual 0,⟨fun _ => false,fun _ => true,true,fun _ => none⟩⟩

def twoDates : List SymbolBar := [barAt "A" 1,barAt "B" 1,barAt "A" 2,barAt "B" 2]

theorem failedMidDate_resumeSafe :
    (((failsAt 3).result (pairHandler ["A","B"]) twoDates none).row.map Prod.fst) = some 1 ∧
      ResumeSafe (recovered.result (pairHandler ["A","B"]) twoDates
        ((failsAt 3).result (pairHandler ["A","B"]) twoDates none).row)
        (run (pairHandler ["A","B"]) twoDates recovered.faults (.virtual 0)) := by
  have ascend : DatesAscend twoDates := by
    unfold DatesAscend
    decide
  refine ⟨by decide +kernel,?_⟩
  exact (resumeSafe_iff datesShown plainCodec ["A","B"] 2 twoDates ascend (failsAt 3) recovered 3 ⟨_,_,_,_,rfl,rfl⟩ rfl
    (fun _ => rfl) rfl recovered.faults (.virtual 0) (fun _ => rfl) rfl).mpr (.inr (.inl (by decide)))

theorem failedAtDateStart_counted_twice :
    ((failsAt 1).result (pairHandler ["A"]) [barAt "A" 1,barAt "A" 2] none).exit.RejectedAt 1 ∧
      (recovered.result (pairHandler ["A"]) [barAt "A" 1,barAt "A" 2]
        ((failsAt 1).result (pairHandler ["A"]) [barAt "A" 1,barAt "A" 2] none).row).exit = .completed ∧
      (recovered.result (pairHandler ["A"]) [barAt "A" 1,barAt "A" 2]
        ((failsAt 1).result (pairHandler ["A"]) [barAt "A" 1,barAt "A" 2] none).row).state.windowOf "A" =
          [barAt "A" 2,barAt "A" 2] ∧ ¬ ResumeSafe (recovered.result (pairHandler ["A"]) [barAt "A" 1,barAt "A" 2]
        ((failsAt 1).result (pairHandler ["A"]) [barAt "A" 1,barAt "A" 2] none).row)
        (run (pairHandler ["A"]) [barAt "A" 1,barAt "A" 2] recovered.faults (.virtual 0)) := by
  refine ⟨⟨_,_,_,_,rfl,rfl⟩,rfl,by decide +kernel,fun safe => ?_⟩
  have once := congrArg (·["A"]?) safe.windows
  exact absurd once (by decide +kernel)

end Runs
end BatchAdapter
end QuantTrading
