import QuantTrading.Library.Strides
import QuantTrading.Marketdata.Aggregate

/-! The warm-up of the minute bars (`intraday.go`) asks the router (`router.go`) for chunks of 365
days. Only the last instant of a chunk belongs to its last day, so that day is left out.
-/
namespace QuantTrading.IntradayWarmup
open Library List Marketdata

/-- The rows of the minute table, symbol by symbol. -/
structure Table where
  bars : String → List Bar
  ascending : ∀ symbol, (bars symbol).Pairwise (·.date < ·.date)

inductive LoadError where
  | span (start stop : Time) | unfinished
deriving DecidableEq

def maxIntradaySpan : Int := 366 * Time.dayNs

def intradayWarmChunkDays : Int := 365

/-- `AddDate(0, 0, intradayWarmChunkDays)` and the day less that a request ends after. -/
def chunkNs : Int := intradayWarmChunkDays * Time.dayNs

def loadedNs : Int := (intradayWarmChunkDays - 1) * Time.dayNs

def between (start stop : Time) (b : Bar) : Bool := decide (start ≤ b.date ∧ b.date ≤ stop)

variable (t : Table) (endExclusive : Time)

/-- `Router.Bars` at one minute, which is `loadMinute`. -/
def loadMinute (symbol : String) (start stop : Time) : Except LoadError (List Bar) :=
  if stop - start ≤ maxIntradaySpan then .ok ((t.bars symbol).filter (between start stop))
  else .error (.span start stop)

def chunkEnd (cs : Time) : Time :=
  let ce := cs + loadedNs
  if endExclusive < ce then endExclusive - 1 else ce

structure Snapshot where
  bars : Book String (List Bar)
  total : Nat

def Snapshot.of (s : Snapshot) (symbol : String) : List Bar := s.bars[symbol]?.getD []

def loadChunk (symbol : String) (s : Snapshot) (cs : Time) : Except LoadError Snapshot := do
  let found ← loadMinute t symbol cs (chunkEnd endExclusive cs)
  if found = [] then pure s
  else pure ⟨s.bars.insert symbol (s.of symbol ++ found),s.total + found.length⟩

def loadIntradaySnapshot (symbols : List String) (start : Time) : Except LoadError Snapshot :=
  match strides endExclusive chunkNs ((endExclusive - start).toNat + 1) start with
  | none => .error .unfinished
  | some chunks => symbols.foldlM (fun s symbol => chunks.foldlM (loadChunk t endExclusive symbol) s) ⟨∅,0⟩

/-- The bars that the chunks hold. -/
def chunked (symbol : String) (chunks : List Time) : List Bar :=
  chunks.flatMap fun cs => (t.bars symbol).filter (between cs (chunkEnd endExclusive cs))

variable {t endExclusive} {s : Snapshot} {symbol : String} {chunks : List Time}

theorem chunkEnd_cases (endExclusive cs : Time) : chunkEnd endExclusive cs = endExclusive - 1 ∧ endExclusive < cs + loadedNs ∨
    chunkEnd endExclusive cs = cs + loadedNs ∧ cs + loadedNs ≤ endExclusive := by
  by_cases clipped : endExclusive < cs + loadedNs
  · exact .inl ⟨if_pos clipped,clipped⟩
  · exact .inr ⟨if_neg clipped,not_lt.mp clipped⟩

theorem loadChunk_spec (s : Snapshot) (symbol : String) (cs : Time) :
    ∃ next, loadChunk t endExclusive symbol s cs = .ok next ∧
      ∀ key, next.of key = s.of key ++ if key = symbol then chunked t endExclusive symbol [cs] else [] := by
  have span : chunkEnd endExclusive cs - cs ≤ maxIntradaySpan := by
    have fits : loadedNs ≤ maxIntradaySpan := by decide
    rcases chunkEnd_cases endExclusive cs with ⟨ends,_⟩ | ⟨ends,_⟩ <;> rw [ends] <;> grind
  rw [loadChunk,loadMinute,if_pos span]
  simp only [chunked,flatMap_cons,flatMap_nil,append_nil]
  generalize (t.bars symbol).filter _ = found
  by_cases empty : found = []
  · exact ⟨s,if_pos empty,by simp [empty]⟩
  · refine ⟨_,if_neg empty,fun key => ?_⟩
    rw [Snapshot.of,Book.get_insert]
    by_cases own : key = symbol
    · simp [own]
    · simp [Ne.symm own,own,Snapshot.of]

theorem chunks_spec (s : Snapshot) (symbol : String) (chunks : List Time) :
    ∃ next, chunks.foldlM (loadChunk t endExclusive symbol) s = .ok next ∧
      ∀ key, next.of key = s.of key ++ if key = symbol then chunked t endExclusive symbol chunks else [] := by
  induction chunks generalizing s with
  | nil => exact ⟨s,rfl,by simp [chunked]⟩
  | cons cs rest ih =>
    obtain ⟨mid,first,held⟩ := loadChunk_spec s symbol cs
    obtain ⟨next,later,grown⟩ := ih mid
    refine ⟨next,by rw [foldlM_cons,first]; exact later,fun key => ?_⟩
    rw [grown,held]
    split <;> simp [chunked]

theorem symbols_spec {symbols : List String} (distinct : symbols.Nodup) (chunks : List Time) (s : Snapshot) :
    ∃ next, symbols.foldlM (fun s symbol => chunks.foldlM (loadChunk t endExclusive symbol) s) s = .ok next ∧
      ∀ key, next.of key = s.of key ++ if key ∈ symbols then chunked t endExclusive key chunks else [] := by
  induction symbols generalizing s with
  | nil => exact ⟨s,rfl,by simp⟩
  | cons symbol rest ih =>
    obtain ⟨fresh,distinct⟩ := nodup_cons.mp distinct
    obtain ⟨mid,first,held⟩ := chunks_spec s symbol chunks
    obtain ⟨next,later,grown⟩ := ih distinct mid
    refine ⟨next,by rw [foldlM_cons,first]; exact later,fun key => ?_⟩
    rw [grown,held]
    by_cases own : key = symbol
    · simp [own,fresh]
    · simp [own]

/-- How far into its chunk an instant lies. -/
def offset (start at_ : Time) : Int := (at_ - start) % chunkNs

section
variable {start : Time} (placed : Strided endExclusive chunkNs start chunks)
include placed

theorem exists_chunk_iff (b : Bar) : (∃ cs ∈ chunks, between cs (chunkEnd endExclusive cs) b = true) ↔ start ≤ b.date ∧
      (b.date < endExclusive ∧ offset start b.date ≤ loadedNs ∨
        b.date = endExclusive ∧ offset start b.date = loadedNs) := by
  have widths : 0 < loadedNs ∧ loadedNs < chunkNs := by decide
  simp only [between,decide_eq_true_eq,mem_iff_getElem?,placed _,Option.ite_none_right_eq_some,Option.some.injEq]
  constructor
  · rintro ⟨cs,⟨k,inside,rfl⟩,late,early⟩
    have ends := chunkEnd_cases endExclusive (start + k * chunkNs)
    have ahead : 0 ≤ k * chunkNs := Int.mul_nonneg (Int.natCast_nonneg k) (by omega)
    have within : offset start b.date = b.date - (start + k * chunkNs) := by
      have parts : b.date - start = b.date - (start + k * chunkNs) + k * chunkNs := by ring
      rw [offset,parts,Int.add_mul_emod_self_right,Int.emod_eq_of_lt] <;> grind
    grind
  · rintro ⟨late,loaded⟩
    have parts : b.date - start = (b.date - start) / chunkNs * chunkNs + offset start b.date := (Int.ediv_mul_add_emod _ _).symm
    have positive : 0 ≤ offset start b.date := Int.emod_nonneg _ (by omega)
    have whole : (((b.date - start) / chunkNs).toNat : Int) = (b.date - start) / chunkNs :=
      Int.toNat_of_nonneg (Int.ediv_nonneg (by grind) (by omega))
    have ends := chunkEnd_cases endExclusive (start + ((b.date - start) / chunkNs).toNat * chunkNs)
    refine ⟨_,⟨((b.date - start) / chunkNs).toNat,?_,rfl⟩,?_,?_⟩ <;> rw [whole] at * <;> grind

theorem chunked_eq_iff (symbol : String) :
    chunked t endExclusive symbol chunks = (t.bars symbol).filter (fun b => decide (start ≤ b.date ∧ b.date < endExclusive)) ↔
      ∀ b ∈ t.bars symbol, start ≤ b.date → (b.date < endExclusive → offset start b.date ≤ loadedNs) ∧
        (b.date = endExclusive → offset start b.date ≠ loadedNs) := by
  have widths : loadedNs < chunkNs := by decide
  rw [chunked,flatMap_filter_eq_iff (t.ascending symbol)]
  · refine forall₂_congr fun b _ => ?_
    rw [exists_chunk_iff placed b]
    grind
  · refine (placed.apart (by decide)).imp fun {i j} apart x y first second => ?_
    have ends := chunkEnd_cases endExclusive i
    simp only [between,decide_eq_true_eq] at first second
    grind

end

/-- The warm-up is complete exactly when no stored bar lies on the last day of a chunk, and none
at the very end of the range when that is where a chunk's loaded stretch ends. -/
theorem loads_iff (t : Table) {symbols : List String} (distinct : symbols.Nodup) {start endExclusive : Time} :
    (∃ s, loadIntradaySnapshot t endExclusive symbols start = .ok s ∧ ∀ symbol ∈ symbols,
      s.of symbol = (t.bars symbol).filter fun b => decide (start ≤ b.date ∧ b.date < endExclusive)) ↔
    ∀ symbol ∈ symbols, ∀ b ∈ t.bars symbol, start ≤ b.date →
      (b.date < endExclusive → offset start b.date ≤ loadedNs) ∧
      (b.date = endExclusive → offset start b.date ≠ loadedNs) := by
  obtain ⟨chunks,visited,placed⟩ := strides_strided (show 0 < chunkNs by decide) (Nat.lt_succ_self (endExclusive - start).toNat)
  obtain ⟨s,loaded,held⟩ := symbols_spec distinct chunks ⟨∅,0⟩
  have run : loadIntradaySnapshot t endExclusive symbols start = .ok s := by
    rw [loadIntradaySnapshot,visited]
    exact loaded
  simp only [run,Except.ok.injEq,exists_eq_left']
  refine forall₂_congr fun symbol listed => ?_
  rw [← chunked_eq_iff placed,held,if_pos listed]
  rfl

/-- One bar of one symbol. -/
def single (date : Time) : Table where
  bars symbol := if symbol = "600000.SH" then [⟨"600000.SH",date,10,10,10,10,100,1000,.m1,date + minuteNs⟩] else []
  ascending symbol := by split <;> simp

theorem firstDay_loaded : ∃ s, loadIntradaySnapshot (single (90 * minuteNs)) (400 * Time.dayNs) ["600000.SH"] 0 = .ok s ∧
    ∀ symbol ∈ ["600000.SH"], s.of symbol = ((single (90 * minuteNs)).bars symbol).filter
      fun b => decide (0 ≤ b.date ∧ b.date < 400 * Time.dayNs) :=
  (loads_iff _ (by decide)).mpr (by
    simp [single,offset]
    decide)

/-- The bar at half past nine on day 365 of 400 is not loaded. -/
theorem lastDay_lost : ((single (364 * Time.dayNs + 90 * minuteNs)).bars "600000.SH").length = 1 ∧
    (loadIntradaySnapshot (single (364 * Time.dayNs + 90 * minuteNs)) (400 * Time.dayNs) ["600000.SH"] 0).map
      (·.of "600000.SH") = .ok [] := by
  decide +kernel

end QuantTrading.IntradayWarmup
