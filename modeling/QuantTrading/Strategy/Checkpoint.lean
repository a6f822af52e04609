import QuantTrading.Domain

/-! The streaming runner with checkpoints. A run feeds the bars in order to a handler and
writes the handler's state to a store, always at the last bar of a date, under that date.
A resumed run loads the stored state and skips the bars up to the stored date.
-/
namespace QuantTrading

structure SymbolBar extends OHLCV where
  symbol : String
deriving DecidableEq

inductive ClockError where
  | timeRewind | liveClockImmutable
deriving DecidableEq

inductive Clock where
  | virtual (now : Time)
  | live

def Clock.advance (c : Clock) (ts : Time) : Except ClockError Clock :=
  match c with
  | .virtual now => if ts < now then .error .timeRewind else .ok (.virtual ts)
  | .live => .error .liveClockImmutable

/-- A handler of bars: its state when constructed, and its methods on a state. What a bar does
can also depend on the outside world. -/
structure BarHandler (World State Bytes Err : Type) where
  fresh : State
  onBar : World → State → SymbolBar → Except Err Unit × State
  saveState : State → Except Err Bytes
  loadState : State → Bytes → Except Err Unit × State

/-- The row of one strategy and run in the state store. -/
abbrev StoredState (Bytes : Type) := Option (Time × Bytes)

/-- `store` tells whether a store is configured. -/
structure Checkpoint where
  store : Bool
  every : Int
  resume : Bool

inductive RunError (Err : Type) where
  | resumeWithoutStore
  | loadFailed
  | loadStateFailed (cause : Err)
  | clockFailed (index : Nat) (symbol : String) (date : Time) (cause : ClockError)
  | onBarFailed (index : Nat) (symbol : String) (date : Time) (cause : Err)
  | saveStateFailed (cause : Err)
  | storeFailed (ts : Time)
  | joined (original saving : RunError Err)

inductive Exit (Err : Type) where
  | completed
  | failed (error : RunError Err)
  | crashed

/-- A process can die right after a bar or after the checkpoint that follows it. -/
inductive CrashPoint where
  | afterBar | afterCheckpoint
deriving DecidableEq

/-- What the outside does to one run: the world each bar is handled in, the saves the store
takes (by the index of the last bar handed over), whether its load fails, and the crash. -/
structure Faults (World : Type) where
  world : Nat → World
  saves : Nat → Bool
  loads : Bool
  crash : Nat → Option CrashPoint

/-- How a run ended, with the states the handler went through, one for each bar it took. -/
structure RunResult (State Bytes Err : Type) where
  exit : Exit Err
  state : State
  row : StoredState Bytes
  states : List State

def RunResult.after {State Bytes Err : Type} (s : State) (r : RunResult State Bytes Err) : RunResult State Bytes Err :=
  { r with states := s :: r.states }

def skipPrefix (bars : List SymbolBar) (ts : Time) : Nat := (bars.takeWhile fun bar => !decide (ts < bar.date)).length

def isDateBoundary (bars : List SymbolBar) (i : Nat) : Bool :=
  i + 1 == bars.length || (bars[i + 1]?).any fun next => (bars[i]?).any fun bar => decide (bar.date < next.date)

namespace StreamRunner

variable {World State Bytes Err : Type} (h : BarHandler World State Bytes Err) (bars : List SymbolBar)
  (ckpt : Checkpoint) (faults : Faults World)

def saveCheckpoint (taken : Bool) (ts : Time) (s : State) (row : StoredState Bytes) :
    Except (RunError Err) Unit × StoredState Bytes :=
  if ckpt.store then
    match h.saveState s with
    | .error cause => (.error (.saveStateFailed cause),row)
    | .ok state => if taken then (.ok (),some (ts,state)) else (.error (.storeFailed ts),row)
  else (.ok (),row)

def bestEffortSave (failIdx start : Nat) (s : State) (row : StoredState Bytes) :
    Except (RunError Err) Unit × StoredState Bytes :=
  -- The last bar handled is the one before; without one in this run there is nothing to save.
  if failIdx ≤ start then (.ok (),row)
  else if isDateBoundary bars (failIdx - 1) then
    match bars[failIdx - 1]? with
    | none => (.ok (),row)
    | some last => saveCheckpoint h ckpt (faults.saves failIdx) last.date s row
  else (.ok (),row)

def exitWithBestEffortSave (failIdx start : Nat) (origErr : RunError Err) (s : State) (row : StoredState Bytes) :
    RunResult State Bytes Err :=
  match bestEffortSave h bars ckpt faults failIdx start s row with
  | (.ok (),row) => ⟨.failed origErr,s,row,[]⟩
  | (.error saveErr,row) => ⟨.failed (.joined origErr saveErr),s,row,[]⟩

/-- The loop over the bars from index `i` on, which are `rest`. -/
def loop (start : Nat) : Nat → List SymbolBar → Int → Clock → State → StoredState Bytes → RunResult State Bytes Err
  | _, [], _, _, s, row => ⟨.completed,s,row,[]⟩
  | i, bar :: rest, processedSinceSave, clk, s, row =>
    match clk.advance bar.date with
    | .error cause =>
      exitWithBestEffortSave h bars ckpt faults i start (.clockFailed i bar.symbol bar.date cause) s row
    | .ok clk =>
      match h.onBar (faults.world i) s bar with
      | (.error cause,s) =>
        exitWithBestEffortSave h bars ckpt faults i start (.onBarFailed i bar.symbol bar.date cause) s row
      | (.ok (),s) =>
        if faults.crash i = some .afterBar then ⟨.crashed,s,row,[s]⟩
        else if isDateBoundary bars i ∧ (i + 1 = bars.length ∨ 0 < ckpt.every ∧ ckpt.every ≤ processedSinceSave + 1) then
          match saveCheckpoint h ckpt (faults.saves i) bar.date s row with
          | (.error error,row) => ⟨.failed error,s,row,[s]⟩
          | (.ok (),row) =>
            if faults.crash i = some .afterCheckpoint then ⟨.crashed,s,row,[s]⟩
            else (loop start (i + 1) rest 0 clk s row).after s
        else if faults.crash i = some .afterCheckpoint then ⟨.crashed,s,row,[s]⟩
        else (loop start (i + 1) rest (processedSinceSave + 1) clk s row).after s

def resumeStart (row : StoredState Bytes) : Except (RunError Err) Nat × State :=
  if ckpt.resume then
    if faults.loads then
      match row with
      | none => (.ok 0,h.fresh)
      | some (ts,state) =>
        match h.loadState h.fresh state with
        | (.error cause,s) => (.error (.loadStateFailed cause),s)
        | (.ok (),s) => (.ok (skipPrefix bars ts),s)
    else (.error .loadFailed,h.fresh)
  else (.ok 0,h.fresh)

variable (clk : Clock)

def runFrom (row : StoredState Bytes) (start : Nat) (s : State) : RunResult State Bytes Err :=
  if bars.length ≤ start then ⟨.completed,s,row,[]⟩
  else loop h bars ckpt faults start start (bars.drop start) 0 clk s row

def runCheckpointed (row : StoredState Bytes) : RunResult State Bytes Err :=
  if ckpt.resume ∧ ckpt.store = false then ⟨.failed .resumeWithoutStore,h.fresh,row,[]⟩
  else match resumeStart h bars ckpt faults row with
  | (.error error,s) => ⟨.failed error,s,row,[]⟩
  | (.ok start,s) => runFrom h bars ckpt faults clk row start s

def run : RunResult State Bytes Err := runCheckpointed h bars ⟨false,0,false⟩ faults clk none

end StreamRunner
end QuantTrading
