import QuantTrading.Library.Runs
import QuantTrading.Strategy.Checkpoint

/-! Runs that fail and are resumed. A checkpoint is always written at the last bar of a date,
so what is stored under a date is the state after exactly the bars up to that date. For
handlers that fail without a trace, any number of interrupted runs ends where one run over all
bars ends.
-/
namespace QuantTrading
open List

def DatesAscend (bars : List SymbolBar) : Prop := bars.Pairwise fun a b => a.date ≤ b.date

theorem skipPrefix_le (bars : List SymbolBar) (ts : Time) : skipPrefix bars ts ≤ bars.length :=
  (takeWhile_sublist _).length_le

variable {bar : SymbolBar} {start i : Nat}

theorem skipPrefix_boundary {bars : List SymbolBar} (ascend : DatesAscend bars) (here : bars[i]? = some bar)
    (boundary : isDateBoundary bars i = true) : skipPrefix bars bar.date = i + 1 := by
  obtain ⟨inside,value⟩ := List.getElem?_eq_some_iff.mp here
  have earlier : ∀ x ∈ bars.take (i + 1), (!decide (bar.date < x.date)) = true := by
    intro x listed
    obtain ⟨k,bound,rfl⟩ := mem_take_iff_getElem.mp listed
    have order : bars[k].date ≤ bars[i].date := by
      rcases Nat.lt_or_ge k i with before | after
      · exact pairwise_iff_getElem.mp ascend k i (by omega) inside before
      · have same : k = i := by omega
        subst same
        exact le_rfl
    simpa [← value] using order
  have later : (bars.drop (i + 1)).takeWhile (fun x => !decide (bar.date < x.date)) = [] := by
    cases rest : bars.drop (i + 1) with
    | nil => rfl
    | cons next =>
      have found : bars[i + 1]? = some next := by
        rw [← head?_drop,rest]
        rfl
      have short : i + 1 < bars.length := (List.getElem?_eq_some_iff.mp found).1
      have after : bar.date < next.date := by
        simpa [isDateBoundary,here,found,short.ne] using boundary
      exact takeWhile_cons_of_neg (by simpa using after)
  have split : (bars.take (i + 1) ++ bars.drop (i + 1)).takeWhile (fun x => !decide (bar.date < x.date)) =
      bars.take (i + 1) ++ (bars.drop (i + 1)).takeWhile (fun x => !decide (bar.date < x.date)) :=
    takeWhile_append_of_pos earlier
  rw [take_append_drop,later,append_nil] at split
  rw [skipPrefix,split,length_take]
  omega

namespace StreamRunner

variable {World State Bytes Err : Type} {h : BarHandler World State Bytes Err} {bars : List SymbolBar}
  {ckpt : Checkpoint} {faults : Faults World} {At : Nat → State → Prop}

def Saved (h : BarHandler World State Bytes Err) (bars : List SymbolBar) (At : Nat → State → Prop)
    (row : StoredState Bytes) : Prop :=
  ∀ ts bytes, row = some (ts,bytes) → ∃ s, h.saveState s = .ok bytes ∧ At (skipPrefix bars ts) s

theorem Saved.empty : Saved h bars At none := nofun

variable {row : StoredState Bytes} {s : State}

theorem Saved.saveCheckpoint (saved : Saved h bars At row) {taken : Bool} {ts : Time} (stands : At (skipPrefix bars ts) s) :
    Saved h bars At (saveCheckpoint h ckpt taken ts s row).2 := by
  unfold StreamRunner.saveCheckpoint
  split
  · split
    · exact saved
    rename_i bytes encoded
    split
    · intro ts' bytes' found
      cases found
      exact ⟨s,encoded,stands⟩
    · exact saved
  · exact saved

theorem Saved.bestEffortSave (ascend : DatesAscend bars) (saved : Saved h bars At row) (stands : At i s) :
    Saved h bars At (bestEffortSave h bars ckpt faults i start s row).2 := by
  unfold StreamRunner.bestEffortSave
  split
  · exact saved
  split
  next boundary =>
    split
    · exact saved
    rename_i last found
    have cut := skipPrefix_boundary ascend found boundary
    rw [show i - 1 + 1 = i by omega] at cut
    exact saved.saveCheckpoint (cut ▸ stands)
  · exact saved

end StreamRunner

def RunError.root {Err : Type} : RunError Err → RunError Err
  | .joined original _ => original.root
  | .resumeWithoutStore => .resumeWithoutStore
  | .loadFailed => .loadFailed
  | .loadStateFailed cause => .loadStateFailed cause
  | .clockFailed index symbol date cause => .clockFailed index symbol date cause
  | .onBarFailed index symbol date cause => .onBarFailed index symbol date cause
  | .saveStateFailed cause => .saveStateFailed cause
  | .storeFailed ts => .storeFailed ts

def Exit.RejectedAt {Err : Type} (exit : Exit Err) (i : Nat) : Prop :=
  ∃ error symbol date cause, exit = .failed error ∧ error.root = .onBarFailed i symbol date cause

namespace StreamRunner

variable {World State Bytes Err : Type} {h : BarHandler World State Bytes Err} {bars : List SymbolBar}
  {ckpt : Checkpoint} {faults : Faults World} {At : Nat → State → Prop}

section
variable (i start : Nat) (error : RunError Err) (s : State) (row : StoredState Bytes)

theorem exitWithBestEffortSave_exit :
    (exitWithBestEffortSave h bars ckpt faults i start error s row).exit ≠ .completed ∧
      ∀ j, (exitWithBestEffortSave h bars ckpt faults i start error s row).exit.RejectedAt j ↔
        ∃ symbol date cause, error.root = .onBarFailed j symbol date cause := by
  unfold exitWithBestEffortSave Exit.RejectedAt
  split <;> simp [RunError.root]

theorem exitWithBestEffortSave_row : (exitWithBestEffortSave h bars ckpt faults i start error s row).row =
      (bestEffortSave h bars ckpt faults i start s row).2 := by
  unfold exitWithBestEffortSave
  split <;> simp [*]

end

theorem saveCheckpoint_error {taken : Bool} {ts : Time} {s : State} {row row' : StoredState Bytes} {error : RunError Err}
    (failed : saveCheckpoint h ckpt taken ts s row = (.error error,row')) (i : Nat) :
    ¬ (Exit.failed error).RejectedAt i := by
  unfold saveCheckpoint at failed
  rintro ⟨_,_,_,_,same,root⟩
  cases same
  split at failed
  · split at failed
    · cases failed
      simp [RunError.root] at root
    · split at failed
      · cases failed
      cases failed
      simp [RunError.root] at root
  · cases failed

/-- The ends of a run. Only a rejected bar can leave a state in the store that the bars before
it do not lead to: what the handler did before it failed. -/
inductive Ended (h : BarHandler World State Bytes Err) (bars : List SymbolBar) (ckpt : Checkpoint) (faults : Faults World)
    (At : Nat → State → Prop) (start : Nat) (r : RunResult State Bytes Err) : Prop
  | completed (exit : r.exit = .completed) (stands : At bars.length r.state) (saved : Saved h bars At r.row)
  | stopped (exit : r.exit ≠ .completed ∧ ∀ i, ¬ r.exit.RejectedAt i) (saved : Saved h bars At r.row)
  | rejected {i : Nat} {bar : SymbolBar} {s s' : State} {cause : Err} {row : StoredState Bytes}
      (exit : r.exit ≠ .completed ∧ ∀ j, r.exit.RejectedAt j ↔ j = i) (here : bars[i]? = some bar) (begun : start ≤ i)
      (stands : At i s) (failed : h.onBar (faults.world i) s bar = (.error cause,s')) (saved : Saved h bars At row)
      (left : r.row = (bestEffortSave h bars ckpt faults i start s' row).2)

theorem Ended.after {r : RunResult State Bytes Err} (ended : Ended h bars ckpt faults At start r) (s : State) :
    Ended h bars ckpt faults At start (r.after s) := by
  cases ended with
  | completed exit stands saved => exact .completed exit stands saved
  | stopped exit saved => exact .stopped exit saved
  | rejected exit here begun stands failed saved left => exact .rejected exit here begun stands failed saved left

theorem loop_ended (ascend : DatesAscend bars)
    (next : ∀ i bar s s', bars[i]? = some bar → At i s → h.onBar (faults.world i) s bar = (.ok (),s') → At (i + 1) s') (start : Nat)
    (rest : List SymbolBar) (i : Nat) (processed : Int) (clk : Clock) (s : State) (row : StoredState Bytes)
    (remaining : bars.drop i = rest) (begun : start ≤ i) (bound : i ≤ bars.length) (stands : At i s)
    (saved : Saved h bars At row) :
    Ended h bars ckpt faults At start (loop h bars ckpt faults start i rest processed clk s row) := by
  induction rest generalizing i processed clk s row with
  | nil =>
    have all : bars.length = i := le_antisymm (drop_eq_nil_iff.mp remaining) bound
    exact .completed rfl (all ▸ stands) saved
  | cons bar rest ih =>
    have here : bars[i]? = some bar := by
      rw [← head?_drop,remaining]
      rfl
    have short : i < bars.length := (List.getElem?_eq_some_iff.mp here).1
    have tail : bars.drop (i + 1) = rest := by
      rw [← drop_drop,remaining]
      rfl
    unfold loop
    split
    · obtain ⟨stopped,root⟩ := exitWithBestEffortSave_exit i start _ s row
      refine .stopped ⟨stopped,fun j => ?_⟩ ?_
      · rw [root]
        simp [RunError.root]
      · rw [exitWithBestEffortSave_row]
        exact saved.bestEffortSave ascend stands
    · split
      next cause s' failed =>
        obtain ⟨stopped,root⟩ := exitWithBestEffortSave_exit i start _ s' row
        refine .rejected ⟨stopped,fun j => ?_⟩ here begun stands failed saved (exitWithBestEffortSave_row i start _ s' row)
        rw [root]
        simp [RunError.root,eq_comm]
      next s' taken =>
        have forward := next i bar s s' here stands taken
        have goes (processed : Int) (clk : Clock) (row : StoredState Bytes) (saved : Saved h bars At row) :=
          (ih (i + 1) processed clk s' row tail (by omega) short forward saved).after s'
        split
        · exact .stopped ⟨by simp,by simp [Exit.RejectedAt]⟩ saved
        split
        next due =>
          have cut := skipPrefix_boundary ascend here due.1
          have written : Saved h bars At (saveCheckpoint h ckpt (faults.saves i) bar.date s' row).2 :=
            saved.saveCheckpoint (cut ▸ forward)
          split
          next error row' failed =>
            rw [failed] at written
            exact .stopped ⟨by simp,saveCheckpoint_error failed⟩ written
          next row' stored =>
            rw [stored] at written
            split
            · exact .stopped ⟨by simp,by simp [Exit.RejectedAt]⟩ written
            · exact goes _ _ _ written
        · split
          · exact .stopped ⟨by simp,by simp [Exit.RejectedAt]⟩ saved
          · exact goes _ _ _ saved

/-- A run starts at the first bar with a new handler, or behind the stored date with the stored state. -/
def StartsFrom (h : BarHandler World State Bytes Err) (bars : List SymbolBar) (ckpt : Checkpoint) (row : StoredState Bytes)
    (start : Nat) (s : State) : Prop :=
  (ckpt.resume = false ∨ row = none) ∧ start = 0 ∧ s = h.fresh ∨
    ckpt.resume = true ∧ ∃ ts bytes, row = some (ts,bytes) ∧ h.loadState h.fresh bytes = (.ok (),s) ∧
      start = skipPrefix bars ts

variable (h bars ckpt faults) in
theorem runCheckpointed_cases (clk : Clock) (row : StoredState Bytes) :
    (∃ error s, runCheckpointed h bars ckpt faults clk row = ⟨.failed error,s,row,[]⟩ ∧
      ∀ i symbol date cause, error.root ≠ .onBarFailed i symbol date cause) ∨
    ∃ start s, StartsFrom h bars ckpt row start s ∧
      runCheckpointed h bars ckpt faults clk row = runFrom h bars ckpt faults clk row start s := by
  unfold runCheckpointed
  split
  · exact .inl ⟨_,_,rfl,by simp [RunError.root]⟩
  unfold resumeStart
  cases resume : ckpt.resume with
  | false => exact .inr ⟨0,h.fresh,.inl ⟨.inl resume,rfl,rfl⟩,by simp⟩
  | true =>
    cases faults.loads with
    | false => exact .inl ⟨_,_,rfl,by simp [RunError.root]⟩
    | true =>
      cases row with
      | none => exact .inr ⟨0,h.fresh,.inl ⟨.inr rfl,rfl,rfl⟩,by simp⟩
      | some pair =>
        obtain ⟨ts,bytes⟩ := pair
        cases result : h.loadState h.fresh bytes with
        | mk outcome s =>
          cases outcome with
          | error =>
            simp only [if_true,result]
            exact .inl ⟨_,_,rfl,by simp [RunError.root]⟩
          | ok => exact .inr ⟨skipPrefix bars ts,s,.inr ⟨resume,ts,bytes,rfl,result,rfl⟩,by simp [result]⟩

theorem runCheckpointed_ended (ascend : DatesAscend bars)
    (next : ∀ i bar s s', bars[i]? = some bar → At i s → h.onBar (faults.world i) s bar = (.ok (),s') → At (i + 1) s')
    (fresh : At 0 h.fresh) (clk : Clock) {row : StoredState Bytes} (saved : Saved h bars At row)
    (loaded : ∀ ts bytes s, row = some (ts,bytes) → h.loadState h.fresh bytes = (.ok (),s) → At (skipPrefix bars ts) s) :
    ∃ start, (row = none → start = 0) ∧ Ended h bars ckpt faults At start (runCheckpointed h bars ckpt faults clk row) := by
  have started (start : Nat) (s : State) (within : start ≤ bars.length) (stands : At start s) :
      Ended h bars ckpt faults At start (runFrom h bars ckpt faults clk row start s) := by
    unfold runFrom
    split
    next all =>
      exact .completed rfl (le_antisymm within all ▸ stands) saved
    · exact loop_ended ascend next start _ start 0 clk s row rfl le_rfl within stands saved
  obtain ⟨error,s,refused,other⟩ | ⟨start,s,starts,runs⟩ := runCheckpointed_cases h bars ckpt faults clk row
  · refine ⟨0,fun _ => rfl,?_⟩
    rw [refused]
    refine .stopped ⟨by simp,?_⟩ saved
    rintro i ⟨_,_,_,_,same,root⟩
    cases same
    exact other _ _ _ _ root
  · rw [runs]
    obtain ⟨_,rfl,rfl⟩ | ⟨_,ts,bytes,rfl,result,rfl⟩ := starts
    · exact ⟨0,fun _ => rfl,started 0 h.fresh (Nat.zero_le _) fresh⟩
    · exact ⟨_,nofun,started _ s (skipPrefix_le bars ts) (loaded ts bytes s rfl result)⟩

end StreamRunner

/-- What a bar does when it is taken depends on the state and the bar alone, a failed bar leaves
no trace, and a loaded state is the saved one. -/
structure BarHandler.Contract {World State Bytes Err : Type} (h : BarHandler World State Bytes Err) : Prop where
  deterministic : ∀ w w' s bar s₁ s₂, h.onBar w s bar = (.ok (),s₁) → h.onBar w' s bar = (.ok (),s₂) → s₁ = s₂
  failureAtomic : ∀ w s bar cause s', h.onBar w s bar = (.error cause,s') → s' = s
  faithful : ∀ s s₀ bytes, h.saveState s = .ok bytes → h.loadState s₀ bytes = (.ok (),s)

/-- The handler takes the bars one after the other, each in some world. -/
inductive BarHandler.Feeds {World State Bytes Err : Type} (h : BarHandler World State Bytes Err) :
    State → List SymbolBar → State → Prop
  | nil (s : State) : Feeds h s [] s
  | cons {s middle s' : State} {bar : SymbolBar} {rest : List SymbolBar} (w : World)
      (taken : h.onBar w s bar = (.ok (),middle)) (feeds : Feeds h middle rest s') : Feeds h s (bar :: rest) s'

namespace BarHandler
variable {World State Bytes Err : Type} {h : BarHandler World State Bytes Err}

variable {bars : List SymbolBar}

theorem Feeds.concat {s s' s'' : State} {w : World} (feeds : h.Feeds s bars s')
    (taken : h.onBar w s' bar = (.ok (),s'')) : h.Feeds s (bars ++ [bar]) s'' := by
  induction feeds with
  | nil => exact .cons w taken (.nil s'')
  | cons v first _ ih => exact .cons v first (ih taken)

theorem Feeds.unique (contract : h.Contract) {s s₁ s₂ : State} (one : h.Feeds s bars s₁)
    (other : h.Feeds s bars s₂) : s₁ = s₂ := by
  induction one with
  | nil =>
    cases other
    rfl
  | cons w taken _ ih =>
    cases other with
    | cons v taken' rest' =>
      cases contract.deterministic _ _ _ _ _ _ taken taken'
      exact ih rest'

end BarHandler

namespace StreamRunner
variable {World State Bytes Err : Type} {h : BarHandler World State Bytes Err} {bars : List SymbolBar}

/-- The handler's state behind the first `i` bars. -/
def After (h : BarHandler World State Bytes Err) (bars : List SymbolBar) (i : Nat) (s : State) : Prop :=
  h.Feeds h.fresh (bars.take i) s

theorem after_next {w : World} {s s' : State} (here : bars[i]? = some bar) (stands : After h bars i s)
    (taken : h.onBar w s bar = (.ok (),s')) : After h bars (i + 1) s' := by
  unfold After
  rw [take_add_one,here]
  exact stands.concat taken

/-- One start of the runner, with its own settings and clock and a new handler. -/
structure Attempt (World : Type) where
  ckpt : Checkpoint
  clk : Clock
  faults : Faults World

def Attempt.result (a : Attempt World) (h : BarHandler World State Bytes Err) (bars : List SymbolBar)
    (row : StoredState Bytes) : RunResult State Bytes Err :=
  runCheckpointed h bars a.ckpt a.faults a.clk row

def rowAfter (h : BarHandler World State Bytes Err) (bars : List SymbolBar) (attempts : List (Attempt World)) :
    StoredState Bytes :=
  Library.run (fun row attempt => (attempt.result h bars row).row) none attempts

section
variable (contract : h.Contract) (ascend : DatesAscend bars)
include contract ascend

section
variable {row : StoredState Bytes} (a : Attempt World) (saved : Saved h bars (After h bars) row)
include saved

theorem attempt_ended :
    ∃ start, (row = none → start = 0) ∧ Ended h bars a.ckpt a.faults (After h bars) start (a.result h bars row) := by
  refine runCheckpointed_ended ascend (fun _ _ _ _ => after_next) (.nil _) a.clk saved ?_
  intro ts bytes s found loaded
  obtain ⟨s',encoded,stands⟩ := saved ts bytes found
  have same := contract.faithful s' h.fresh bytes encoded
  rw [loaded] at same
  cases same
  exact stands

theorem attempt_saved : Saved h bars (After h bars) (a.result h bars row).row := by
  obtain ⟨start,_,ended⟩ := attempt_ended contract ascend a saved
  cases ended with
  | completed _ _ saved | stopped _ saved => exact saved
  | rejected _ _ _ stands failed saved left =>
    -- The failed bar left no trace, so the state saved is the one before it.
    rw [left,contract.failureAtomic _ _ _ _ _ failed]
    exact saved.bestEffortSave ascend stands

end

theorem rowAfter_saved (attempts : List (Attempt World)) : Saved h bars (After h bars) (rowAfter h bars attempts) :=
  Library.run_always (fun _ a saved => attempt_saved contract ascend a saved) Saved.empty attempts

end

variable {faults : Faults World} {clk : Clock} {s : State} {rest : List SymbolBar} {ckpt : Checkpoint}
   {row : StoredState Bytes}

theorem run_feeds (ascend : DatesAscend bars)
    (completed : (run h bars faults clk).exit = .completed) : h.Feeds h.fresh bars (run h bars faults clk).state := by
  have ends : ∃ start, (none = none → start = 0) ∧
      Ended h bars ⟨false,0,false⟩ faults (After h bars) start (run h bars faults clk) :=
    runCheckpointed_ended ascend (fun _ _ _ _ => after_next) (.nil _) clk Saved.empty nofun
  obtain ⟨start,_,ended⟩ := ends
  cases ended with
  | completed _ stands =>
    unfold After at stands
    rwa [take_length] at stands
  | stopped exit _ | rejected exit => exact absurd completed exit.1

theorem loop_feeds {s' : State} (feeds : h.Feeds s rest s') (ascend : DatesAscend rest)
    (start : Nat) (anyWorld : World) (i : Nat) :
    ∃ world : Nat → World, ∀ faults : Faults World, (∀ k, faults.crash k = none) → (∀ k, i ≤ k → faults.world k = world k) →
      ∀ processed now (row : StoredState Bytes), (∀ bar ∈ rest, now ≤ bar.date) →
        (loop h bars ⟨false,0,false⟩ faults start i rest processed (.virtual now) s row).exit = .completed ∧
        (loop h bars ⟨false,0,false⟩ faults start i rest processed (.virtual now) s row).state = s' := by
  induction feeds generalizing i with
  | nil => exact ⟨fun _ => anyWorld,fun _ _ _ _ _ _ _ => ⟨rfl,rfl⟩⟩
  | cons w taken _ ih =>
    obtain ⟨ahead,tail⟩ := pairwise_cons.mp ascend
    obtain ⟨world,goes⟩ := ih tail (i + 1)
    refine ⟨fun k => if k ≤ i then w else world k,fun faults calm same processed now row early => ?_⟩
    have here : faults.world i = w := (same i le_rfl).trans (if_pos le_rfl)
    have later (k : Nat) (after : i + 1 ≤ k) : faults.world k = world k :=
      (same k (by omega)).trans (if_neg (by omega))
    have onward (processed : Int) := goes faults calm later processed _ row ahead
    have forward := early _ (mem_cons_self ..)
    simp only [loop,Clock.advance,not_lt.mpr forward,if_false,here,taken,calm,saveCheckpoint,reduceCtorEq,
      Bool.false_eq_true]
    split
    · exact onward 0
    · exact onward (processed + 1)

theorem head_early {bars : List SymbolBar} (ascend : DatesAscend bars) :
    ∀ bar ∈ bars, ((bars.head?).map (·.date)).getD 0 ≤ bar.date := by
  cases bars with
  | nil => simp
  | cons =>
    intro bar listed
    rcases mem_cons.mp listed with rfl | later
    · exact le_rfl
    · exact (pairwise_cons.mp ascend).1 bar later

theorem run_eq_loop (h : BarHandler World State Bytes Err) (bars : List SymbolBar) (faults : Faults World) (clk : Clock) :
    run h bars faults clk = loop h bars ⟨false,0,false⟩ faults 0 0 bars 0 clk h.fresh none := by
  cases bars with
  | nil => simp [run,runCheckpointed,resumeStart,runFrom,loop]
  | cons => simp [run,runCheckpointed,resumeStart,runFrom]

theorem feeds_run (ascend : DatesAscend bars) (anyWorld : World) (feeds : h.Feeds h.fresh bars s) :
    ∃ faults clk, (run h bars faults clk).exit = .completed ∧ (run h bars faults clk).state = s := by
  obtain ⟨world,goes⟩ := loop_feeds feeds ascend 0 anyWorld 0
  refine ⟨⟨world,fun _ => true,true,fun _ => none⟩,.virtual (((bars.head?).map (·.date)).getD 0),?_⟩
  rw [run_eq_loop]
  exact goes _ (fun _ => rfl) (fun _ _ => rfl) 0 _ none (head_early ascend)

/-- However many attempts were interrupted, an attempt that completes ends in the state in which
one uninterrupted run ends, and there is such a run. -/
theorem resumed_eq_uninterrupted (contract : h.Contract) (ascend : DatesAscend bars) (attempts : List (Attempt World))
    (last : Attempt World) (completed : (last.result h bars (rowAfter h bars attempts)).exit = .completed) :
    (∀ faults clk, (run h bars faults clk).exit = .completed →
      (last.result h bars (rowAfter h bars attempts)).state = (run h bars faults clk).state) ∧
    ∃ faults clk, (run h bars faults clk).exit = .completed := by
  obtain ⟨start,_,ended⟩ := attempt_ended contract ascend last (rowAfter_saved contract ascend attempts)
  cases ended with
  | stopped exit _ | rejected exit => exact absurd completed exit.1
  | completed _ stands _ =>
    unfold After at stands
    rw [take_length] at stands
    obtain ⟨faults,clk,ran,_⟩ := feeds_run ascend (last.faults.world 0) stands
    exact ⟨fun faults clk whole => stands.unique contract (run_feeds ascend whole),faults,clk,ran⟩

/-- The states of a handler that takes every bar from index `i` on. -/
def fed (h : BarHandler World State Bytes Err) (world : Nat → World) : Nat → State → List SymbolBar → List State
  | _, _, [] => []
  | i, s, bar :: rest =>
    let s := (h.onBar (world i) s bar).2
    s :: fed h world (i + 1) s rest

variable {processed : Int}

theorem loop_cons_completed
    (completed : (loop h bars ckpt faults start i (bar :: rest) processed clk s row).exit = .completed) :
    ∃ processed' clk' row', loop h bars ckpt faults start i (bar :: rest) processed clk s row =
      (loop h bars ckpt faults start (i + 1) rest processed' clk' (h.onBar (faults.world i) s bar).2 row').after
        (h.onBar (faults.world i) s bar).2 := by
  cases advanced : clk.advance bar.date with
  | error =>
    simp only [loop,advanced] at completed
    exact absurd completed (exitWithBestEffortSave_exit ..).1
  | ok clk' =>
    cases took : h.onBar (faults.world i) s bar with
    | mk outcome s' =>
      cases outcome with
      | error =>
        simp only [loop,advanced,took] at completed
        exact absurd completed (exitWithBestEffortSave_exit ..).1
      | ok _ =>
        simp only [loop,advanced,took] at completed ⊢
        split at completed
        · cases completed
        rename_i alive
        rw [if_neg alive]
        split at completed
        next due =>
          rw [if_pos due]
          iterate 2 (split at completed; · cases completed)
          rename_i lives
          exact ⟨_,_,_,if_neg lives⟩
        next undue =>
          rw [if_neg undue]
          split at completed
          · cases completed
          rename_i lives
          exact ⟨_,_,_,if_neg lives⟩

theorem loop_completed (completed : (loop h bars ckpt faults start i rest processed clk s row).exit = .completed) :
    (loop h bars ckpt faults start i rest processed clk s row).states = fed h faults.world i s rest ∧
      (loop h bars ckpt faults start i rest processed clk s row).state = (fed h faults.world i s rest).getLastD s := by
  induction rest generalizing i processed clk s row with
  | nil => exact ⟨rfl,rfl⟩
  | cons bar rest ih =>
    obtain ⟨processed',clk',row',goes⟩ := loop_cons_completed completed
    rw [goes] at completed ⊢
    obtain ⟨states,state⟩ := ih completed
    simp only [RunResult.after,fed,states,state,getLastD_cons,and_self]

theorem runFrom_completed (completed : (runFrom h bars ckpt faults clk row start s).exit = .completed) :
    (runFrom h bars ckpt faults clk row start s).states = fed h faults.world start s (bars.drop start) ∧
      (runFrom h bars ckpt faults clk row start s).state =
        (fed h faults.world start s (bars.drop start)).getLastD s := by
  unfold runFrom at completed ⊢
  split
  next all =>
    rw [drop_eq_nil_of_le all]
    exact ⟨rfl,rfl⟩
  next left =>
    rw [if_neg left] at completed
    exact loop_completed completed

theorem runCheckpointed_completed (completed : (runCheckpointed h bars ckpt faults clk row).exit = .completed) :
    ∃ start s, StartsFrom h bars ckpt row start s ∧
      runCheckpointed h bars ckpt faults clk row = runFrom h bars ckpt faults clk row start s := by
  obtain ⟨error,s,refused,_⟩ | started := runCheckpointed_cases h bars ckpt faults clk row
  · rw [refused] at completed
    cases completed
  · exact started

/-! A handler that lists the dates it has seen, one attempt that fails at the last bar and one
that dies behind it. -/

def dateLog : BarHandler Bool (List Time) (List Time) Unit where
  fresh := []
  onBar failing seen bar := if failing then (.error (),seen) else (.ok (),seen ++ [bar.date])
  saveState seen := .ok seen
  loadState _ seen := (.ok (),seen)

theorem dateLog_contract : dateLog.Contract := by
  constructor
  · intro w w' s bar s₁ s₂ one other
    cases w <;> cases w' <;> simp_all [dateLog]
  · intro w s bar cause s' failed
    cases w <;> simp_all [dateLog]
  · intro s s₀ bytes encoded
    simp_all [dateLog]

def barAt (symbol : String) (date : Time) : SymbolBar := ⟨⟨date,10,10,10,100,false,false⟩,symbol⟩

def threeBars : List SymbolBar := [barAt "A" 1,barAt "B" 1,barAt "A" 2]

def failsAtLast : Attempt Bool := ⟨⟨true,1,false⟩,.virtual 0,⟨fun i => i = 2,fun _ => true,true,fun _ => none⟩⟩
def diesAtLast : Attempt Bool :=
  ⟨⟨true,5,true⟩,.virtual 0,⟨fun _ => false,fun _ => true,true,fun i => if i = 2 then some .afterBar else none⟩⟩
def undisturbed : Attempt Bool := ⟨⟨true,5,true⟩,.virtual 0,⟨fun _ => false,fun _ => true,true,fun _ => none⟩⟩

theorem dateLog_resumed : rowAfter dateLog threeBars [failsAtLast,diesAtLast] = some (1,[1,1]) ∧
      (undisturbed.result dateLog threeBars (rowAfter dateLog threeBars [failsAtLast,diesAtLast])).state =
        (run dateLog threeBars undisturbed.faults (.virtual 0)).state := by
  have ascend : DatesAscend threeBars := by
    unfold DatesAscend
    decide
  have resumed := resumed_eq_uninterrupted dateLog_contract ascend [failsAtLast,diesAtLast] undisturbed rfl
  exact ⟨by decide +kernel,resumed.1 undisturbed.faults (.virtual 0) rfl⟩

end StreamRunner
end QuantTrading
