import Mathlib.Data.List.Sort
import QuantTrading.Library.Book
import QuantTrading.Library.Interleaving

/-! Backtest jobs. Each job runs in a goroutine of its own under a context that CancelJob,
Shutdown or the caller's context may cancel at any time; its last write is made with that
context. The rows of the table have no condition on their status when they are written.
-/
namespace QuantTrading.JobService
open Library List

inductive JobStatus where
  | pending
  | running
  | completed
  | failed
deriving DecidableEq

def JobStatus.isFinal (status : JobStatus) : Bool := status = .completed ∨ status = .failed

/-- A value of the job's parameters, as far as the service tells them apart. -/
inductive ParamValue where
  | string (text : String)
  | object (text : String)
  | other (typeName : String)
deriving DecidableEq

def ParamValue.typeName : ParamValue → String
  | .string _ => "string"
  | .object _ => "map[string]interface {}"
  | .other typeName => typeName

structure JobRecord where
  params : Book String ParamValue
  status : JobStatus
  result : Option String
  errorMsg : String
  createdAt : Int
  (startedAt completedAt : Option Int)

abbrev JobTable := Book String JobRecord

def updateRow (table : JobTable) (id : String) (change : JobRecord → JobRecord) : JobTable :=
  match table[id]? with
  | none => table
  | some row => table.insert id (change row)

def updateJobStarted (table : JobTable) (id : String) (now : Int) : JobTable :=
  updateRow table id fun row => { row with status := .running, startedAt := some now }

def updateJobCompleted (table : JobTable) (id : String) (result : String) (now : Int) : JobTable :=
  updateRow table id fun row => { row with status := .completed, result := some result, completedAt := some now }

def updateJobFailed (table : JobTable) (id : String) (errMsg : String) (now : Int) : JobTable :=
  updateRow table id fun row => { row with status := .failed, errorMsg := errMsg, completedAt := some now }

def listBacktestJobs (table : JobTable) (limit : Nat) : List (String × JobRecord) :=
  (table.toList.insertionSort fun first second => first.2.createdAt ≥ second.2.createdAt).take limit

def deleteBacktestJob (table : JobTable) (id : String) : JobTable :=
  match table[id]? with
  | some row => if row.status = .pending then table.erase id else table
  | none => table

/-- The rows, the cancellation functions by job, the contexts made and those cancelled, whether
the service shuts down, and the jobs whose goroutine has exited. -/
structure Service where
  table : JobTable
  cancelFuncs : Book String Nat
  contexts : Nat
  cancelled : List Nat
  shutdown : Bool
  exited : List String

def newJobService (table : JobTable) : Service := ⟨table,∅,0,[],false,[]⟩

/-- A call and how far it has come. StartJob goes on as the job's goroutine. -/
inductive Call where
  | startJob (id : String)
  | refuse (id : String)
  | register (id : String)
  | markStarted (id : String) (ctx : Nat)
  | loadRecord (id : String) (ctx : Nat)
  | runBacktest (id : String) (ctx : Nat)
  | fail (id : String) (ctx : Nat) (errMsg : String)
  | complete (id : String) (ctx : Nat) (result : String)
  | forget (id : String) (ctx : Nat)
  | exit (id : String) (ctx : Nat)
  | parentDone (ctx : Nat)
  | cancelJob (id : String)
  | deletePending (id : String)
  | cancelRunning (id : String)
  | cancelContext (id : String) (ctx : Nat)
  | cancelForget (id : String)
  | shutdown
  | cancelInFlight
  | cleanupStaleRunning
  | cleanup (ids : List String)

def Call.starts : Call → Bool
  | .startJob _ => true
  | .parentDone _ => true
  | .cancelJob _ => true
  | .shutdown => true
  | .cleanupStaleRunning => true
  | _ => false

/-- What the engine returns; a result may not be one to keep, or not be written as text. -/
inductive Outcome where
  | error (errMsg : String)
  | invalid (reasons : List String)
  | unmarshalled (errMsg : String)
  | success (result : String)

/-- The environment of a step: the error of its store call, the time, the engine's outcome and
the job Range comes to next. -/
structure Answer where
  storeError : Option String
  now : Int
  outcome : Outcome
  next : Option String

def Service.storeError (s : Service) (ctx : Nat) (answer : Answer) : Option String :=
  if ctx ∈ s.cancelled then some "context canceled" else answer.storeError

def Service.cancel (s : Service) (ctx : Nat) : Service := { s with cancelled := ctx :: s.cancelled }

def malformedReservedKey (key : String) (value : ParamValue) : String :=
  "kernel routing failed: reserved params key \"" ++ key ++ "\" has unexpected type " ++ value.typeName ++
    " — malformed RunSpec is rejected, not coerced (fail-closed)"

def effectiveKernel (kernel : String) : String := if kernel = "" then "go" else kernel

/-- Why a record is not run: a reserved key of the wrong type, or a kernel the registry refuses. -/
def refusal (resolve : String → Option String) (record : JobRecord) : Option String :=
  match record.params["kernel"]? with
  | some (.object text) => some (malformedReservedKey "kernel" (.object text))
  | some (.other typeName) => some (malformedReservedKey "kernel" (.other typeName))
  | kernel =>
    match record.params["engine_params"]? with
    | some (.string text) => some (malformedReservedKey "engine_params" (.string text))
    | some (.other typeName) => some (malformedReservedKey "engine_params" (.other typeName))
    | _ =>
      let name := match kernel with
        | some (.string name) => name
        | _ => ""
      (resolve (effectiveKernel name)).map fun err => "kernel routing failed: " ++ err

def cleanupWindowLimit : Nat := 1000

def cleanupMsg : String := "job cancelled by service shutdown (P0-8 stale-running cleanup)"

def step (resolve : String → Option String) (s : Service) (call : Call) (answer : Answer) : Service × Option Call :=
  match call with
  | .startJob id => (s,some (if s.shutdown then .refuse id else .register id))
  | .refuse id =>
    -- A context of its own: the write goes through during a shutdown.
    match answer.storeError with
    | some _ => (s,none)
    | none => ({ s with table := updateJobFailed s.table id "service is shutting down" answer.now },none)
  | .register id =>
    ({ s with cancelFuncs := s.cancelFuncs.insert id s.contexts, contexts := s.contexts + 1 },
      some (.markStarted id s.contexts))
  | .markStarted id ctx =>
    match s.storeError ctx answer with
    | some err => (s,some (.fail id ctx ("failed to mark started: failed to update job started: " ++ err)))
    | none => ({ s with table := updateJobStarted s.table id answer.now },some (.loadRecord id ctx))
  | .loadRecord id ctx =>
    match s.storeError ctx answer with
    | some err => (s,some (.fail id ctx ("job not found: failed to get backtest job: " ++ err)))
    | none =>
      match s.table[id]? with
      | none => (s,some (.fail id ctx "job not found: <nil>"))
      | some record =>
        match refusal resolve record with
        | some errMsg => (s,some (.fail id ctx errMsg))
        | none => (s,some (.runBacktest id ctx))
  | .runBacktest id ctx =>
    match answer.outcome with
    | .error errMsg => (s,some (.fail id ctx errMsg))
    | .invalid reasons => (s,some (.fail id ctx ("backtest produced an invalid run: " ++ ", ".intercalate reasons)))
    | .unmarshalled errMsg => (s,some (.fail id ctx ("failed to marshal result: " ++ errMsg)))
    | .success result => (s,some (.complete id ctx result))
  | .fail id ctx errMsg =>
    match s.storeError ctx answer with
    | some _ => (s,some (.forget id ctx))
    | none => ({ s with table := updateJobFailed s.table id errMsg answer.now },some (.forget id ctx))
  | .complete id ctx result =>
    match s.storeError ctx answer with
    | some _ => (s,some (.forget id ctx))
    | none => ({ s with table := updateJobCompleted s.table id result answer.now },some (.forget id ctx))
  | .forget id ctx => ({ s with cancelFuncs := s.cancelFuncs.erase id },some (.exit id ctx))
  | .exit id ctx => ({ s.cancel ctx with exited := id :: s.exited },none)
  | .parentDone ctx => (if ctx < s.contexts then s.cancel ctx else s,none)
  | .cancelJob id =>
    match answer.storeError with
    | some _ => (s,none)
    | none =>
      match s.table[id]? with
      | none => (s,none)
      | some record =>
        match record.status with
        | .pending => (s,some (.deletePending id))
        | .running => (s,some (.cancelRunning id))
        | _ => (s,none)
  | .deletePending id =>
    match answer.storeError with
    | some _ => (s,none)
    | none => ({ s with table := deleteBacktestJob s.table id },none)
  | .cancelRunning id => (s,(s.cancelFuncs[id]?).map (.cancelContext id))
  | .cancelContext id ctx => (s.cancel ctx,some (.cancelForget id))
  | .cancelForget id => ({ s with cancelFuncs := s.cancelFuncs.erase id },none)
  | .shutdown => if s.shutdown then (s,none) else ({ s with shutdown := true },some .cancelInFlight)
  | .cancelInFlight =>
    match answer.next with
    | none => (s,none)
    | some id => ((s.cancelFuncs[id]?).elim s s.cancel,some .cancelInFlight)
  | .cleanupStaleRunning =>
    match answer.storeError with
    | some _ => (s,none)
    | none =>
      (s,some (.cleanup (((listBacktestJobs s.table cleanupWindowLimit).filter fun row =>
        row.2.status = .running ∧ row.1 ≠ "").map (·.1))))
  | .cleanup [] => (s,none)
  | .cleanup (id :: ids) =>
    match answer.storeError with
    | some _ => (s,some (.cleanup ids))
    | none => ({ s with table := updateJobFailed s.table id cleanupMsg answer.now },some (.cleanup ids))

def jobs (resolve : String → Option String) : Protocol Service Call Answer := ⟨Call.starts,step resolve⟩

def spares (table : JobTable) (id : String) (status : JobStatus) (err : Option String) : Bool :=
  err ≠ none ∨ (table[id]?).all fun row => row.status.isFinal = false ∨ row.status = status

def settles (table : JobTable) (id : String) (err : Option String) : Bool :=
  err = none ∨ (table[id]?).all fun row => row.status.isFinal

def settling (s : Service) (call : Call) (answer : Answer) : Bool :=
  match call with
  | .refuse id => spares s.table id .failed answer.storeError
  | .markStarted id ctx => spares s.table id .running (s.storeError ctx answer)
  | .fail id ctx _ => spares s.table id .failed (s.storeError ctx answer) ∧ settles s.table id (s.storeError ctx answer)
  | .complete id ctx _ => spares s.table id .completed (s.storeError ctx answer) ∧ settles s.table id (s.storeError ctx answer)
  | .cleanup (id :: _) => spares s.table id .failed answer.storeError
  | _ => true

def Ended (table : JobTable) (id : String) : Prop := ∀ row : JobRecord, table[id]? = some row → row.status.isFinal = true

/-- No row appears, only a pending one goes, and a final status stays. -/
structure Follows (before after : JobTable) : Prop where
  absent : ∀ id : String, before[id]? = none → after[id]? = none
  gone : ∀ (id : String) (row : JobRecord), before[id]? = some row → after[id]? = none → row.status = .pending
  final : ∀ (id : String) (row row' : JobRecord), before[id]? = some row → after[id]? = some row' →
    row.status.isFinal = true → row'.status = row.status

theorem Follows.refl (table : JobTable) : Follows table table where
  absent _ missing := missing
  gone id row found missing := by rw [found] at missing; cases missing
  final id row row' found found' _ := by rw [found] at found'; cases found'; rfl

variable {id : String} {change : JobRecord → JobRecord} {s' : Service} {rest : Option Call}

theorem Follows.ended {before after : JobTable} (follows : Follows before after) (ended : Ended before id) :
    Ended after id := by
  intro row' found'
  cases found : before[id]? with
  | none =>
    rw [follows.absent id found] at found'
    cases found'
  | some row =>
    have final := ended row found
    rw [follows.final id row row' found found' final]
    exact final

variable {table : JobTable} {s : Service}

theorem updateRow_follows {status : JobStatus}
    (writes : ∀ row, (change row).status = status) (spared : spares table id status none = true) :
    Follows table (updateRow table id change) := by
  rw [updateRow]
  split
  · exact .refl table
  rename_i row found
  have spared : row.status.isFinal = false ∨ row.status = status := by simpa [spares,found] using spared
  refine ⟨fun other missing => ?_,fun other old found' missing => ?_,fun other old new found' written final => ?_⟩
  · rw [Book.get_insert]
    split
    next same =>
      subst same
      rw [found] at missing
      cases missing
    · exact missing
  · rw [Book.get_insert] at missing
    split at missing
    · cases missing
    rw [found'] at missing
    cases missing
  · rw [Book.get_insert] at written
    split at written
    next same =>
      subst same
      obtain rfl : row = old := Option.some.inj (found.symm.trans found')
      cases written
      have stays : row.status = status := spared.resolve_left (by rw [final]; decide)
      rw [writes,stays]
    · rw [found'] at written
      cases written
      rfl

theorem updateRow_ended
    (writes : ∀ row, (change row).status.isFinal = true) : Ended (updateRow table id change) id := by
  intro row found
  rw [updateRow] at found
  split at found
  next missing =>
    rw [missing] at found
    cases found
  · rw [Std.ExtTreeMap.getElem?_insert_self] at found
    cases found
    exact writes _

theorem deleteBacktestJob_follows (table : JobTable) (id : String) : Follows table (deleteBacktestJob table id) := by
  rw [deleteBacktestJob]
  split
  next row found =>
    split
    next pending =>
      refine ⟨fun other missing => ?_,fun other old found' missing => ?_,fun other old new found' kept _ => ?_⟩
      · rw [Book.get_erase]
        split
        · rfl
        · exact missing
      · rw [Book.get_erase] at missing
        split at missing
        next same =>
          subst same
          obtain rfl : row = old := Option.some.inj (found.symm.trans found')
          exact pending
        · rw [found'] at missing
          cases missing
      · rw [Book.get_erase] at kept
        split at kept
        · cases kept
        rw [found'] at kept
        cases kept
        rfl
    · exact .refl table
  · exact .refl table

variable {resolve : String → Option String}

theorem ended_of_settles {err : String} (settled : settles table id (some err) = true) :
    Ended table id := by
  intro row found
  simpa [settles,found] using settled

def Reached (s : Service) (call : Call) : Prop :=
  match call with
  | .forget id _ => Ended s.table id
  | .exit id _ => Ended s.table id
  | _ => True

/-- A step under the condition: the rows follow, and a goroutine past its last write leaves a
row that has ended. -/
structure Steps (s : Service) (result : Service × Option Call) : Prop where
  follows : Follows s.table result.1.table
  reached : ∀ rest, result.2 = some rest → Reached result.1 rest
  exited : ∀ id ∈ result.1.exited, id ∈ s.exited ∨ Ended result.1.table id

theorem Steps.same (table : s'.table = s.table) (exited : s'.exited = s.exited)
    (reached : ∀ call, rest = some call → Reached s' call) : Steps s (s',rest) := by
  refine ⟨?_,reached,fun id member => .inl (by rwa [exited] at member)⟩
  rw [table]
  exact .refl s.table

theorem Steps.returns (table : s'.table = s.table) (exited : s'.exited = s.exited) : Steps s (s',none) :=
  .same table exited (by rintro _ ⟨⟩)

theorem Steps.goesOn {call : Call} (table : s'.table = s.table) (exited : s'.exited = s.exited)
    (reached : Reached s' call) : Steps s (s',some call) :=
  .same table exited fun _ goesOn => Option.some.inj goesOn ▸ reached

theorem Steps.writes (follows : Follows s.table table)
    (reached : ∀ call, rest = some call → Reached { s with table := table } call) : Steps s ({ s with table := table },rest) :=
  ⟨follows,reached,fun _ member => .inl member⟩

theorem Steps.wrote {call : Call} (follows : Follows s.table table) (reached : Reached { s with table := table } call) :
    Steps s ({ s with table := table },some call) :=
  .writes follows fun _ goesOn => Option.some.inj goesOn ▸ reached

theorem step_steps {call : Call} {answer : Answer} (reached : Reached s call)
    (met : settling s call answer = true) : Steps s (step resolve s call answer) := by
  have nothing (s' : Service) : ∀ call, none = some call → Reached s' call :=
    by rintro _ ⟨⟩
  cases call with
  | refuse id =>
    rw [step]
    split
    · exact .returns rfl rfl
    rename_i lands
    rw [settling,lands] at met
    exact .writes (updateRow_follows (fun _ => rfl) met) (nothing _)
  | markStarted id ctx =>
    rw [step]
    split
    · exact .goesOn rfl rfl trivial
    rename_i lands
    rw [settling,lands] at met
    exact .wrote (updateRow_follows (fun _ => rfl) met) trivial
  | fail _ _ _ | complete _ _ _ =>
    rw [step]
    obtain ⟨spared,settled⟩ := of_decide_eq_true met
    split
    next err lost =>
      rw [lost] at settled
      exact .goesOn rfl rfl (ended_of_settles settled)
    next lands =>
      rw [lands] at spared
      exact .wrote (updateRow_follows (fun _ => rfl) spared) (updateRow_ended fun _ => rfl)
  | forget => exact .goesOn rfl rfl reached
  | exit =>
    refine ⟨.refl s.table,nothing _,fun other member => ?_⟩
    obtain rfl | before := mem_cons.mp member
    · exact .inr reached
    · exact .inl before
  | deletePending id =>
    rw [step]
    split
    · exact .returns rfl rfl
    · exact .writes (deleteBacktestJob_follows s.table id) (nothing _)
  | cleanup ids =>
    cases ids with
    | nil => exact .returns rfl rfl
    | cons id ids =>
      rw [step]
      split
      · exact .goesOn rfl rfl trivial
      rename_i lands
      rw [settling,lands] at met
      exact .wrote (updateRow_follows (fun _ => rfl) met) trivial
  | cancelRunning id =>
    rw [step]
    cases s.cancelFuncs[id]? with
    | none => exact .returns rfl rfl
    | some => exact .goesOn rfl rfl trivial
  | cancelInFlight =>
    rw [step]
    split
    · exact .returns rfl rfl
    rename_i id _
    cases s.cancelFuncs[id]? with
    | _ => exact .goesOn rfl rfl trivial
  | _ =>
    -- The other steps write neither the table nor the list of goroutines that exited.
    unfold step
    dsimp only
    repeat' split
    all_goals first | exact .returns rfl rfl | exact .goesOn rfl rfl trivial

theorem Reached.later {call : Call} (reached : Reached s call) (follows : Follows s.table s'.table) :
    Reached s' call := by
  cases call with
  | forget _ _ | exit _ _ => exact follows.ended reached
  | _ => trivial

theorem jobs_keeps : (jobs resolve).Keeps settling (fun s => ∀ id ∈ s.exited, Ended s.table id) Reached where
  begins s call starts _ := by
    cases call with
    | forget _ _ | exit _ _ => cases starts
    | _ => trivial
  steps s call answer met ended reached := by
    have steps : Steps s (step resolve s call answer) := step_steps reached met
    refine ⟨fun id member => ?_,steps.reached⟩
    obtain before | now := steps.exited id member
    · exact steps.follows.ended (ended id before)
    · exact now
  stable s call answer other met _ reached waiting := waiting.later (step_steps reached met).follows

/-- In every interleaving whose writes meet the condition: the row of a job whose goroutine has
exited is completed or failed, if it is there; a row that goes was pending; and a row that is
completed or failed keeps its status. -/
theorem jobs_settle (resolve : String → Option String) (table : JobTable) (moves : List (Move Call Answer))
    (orderly : (jobs resolve).Orderly settling ⟨newJobService table,[]⟩ moves) :
    Along (jobs resolve).move (fun pool => ∀ id ∈ pool.shared.exited, ∀ row : JobRecord,
        pool.shared.table[id]? = some row → row.status.isFinal = true) ⟨newJobService table,[]⟩ moves ∧
      Linked (jobs resolve).move (fun before after => ∀ (id : String) (row : JobRecord),
        before.shared.table[id]? = some row → (after.shared.table[id]? = none → row.status = .pending) ∧
          ∀ row' : JobRecord, after.shared.table[id]? = some row' → row.status.isFinal = true → row'.status = row.status)
        ⟨newJobService table,[]⟩ moves := by
  have none_exited : ∀ id ∈ (newJobService table).exited, Ended (newJobService table).table id :=
    forall_mem_nil _
  constructor
  · exact (jobs_keeps.along none_exited orderly).mono fun _ kept => kept.1
  · have linked := jobs_keeps.linked (R := fun before after => Follows before.table after.table)
      (fun s => .refl s.table) (fun s call answer met _ reached => (step_steps reached met).follows) none_exited orderly
    refine linked.mono fun before after follows id row found => ?_
    exact ⟨follows.gone id row found,fun row' found' => follows.final id row row' found found'⟩

def onlyGo (kernel : String) : Option String := if kernel = "go" then none else some "not registered"

def onePending : JobTable := (∅ : JobTable).insert "j" ⟨∅,.pending,none,"",0,none,none⟩

def undisturbed (outcome : Outcome) : Answer := ⟨none,1,outcome,none⟩

def untilRunning : List (Move Call Answer) :=
  .call (.startJob "j") :: replicate 4 (.advance 0 (undisturbed (.success "")))

def untilExit : List (Move Call Answer) :=
  untilRunning ++ replicate 4 (.advance 0 (undisturbed (.success "ok")))

/-- A job that nothing disturbs is completed. -/
theorem undisturbed_settles :
    ((run (jobs onlyGo).move ⟨newJobService onePending,[]⟩ untilExit).shared.table["j"]?).map (·.status) = some .completed ∧
      ∀ row : JobRecord, (run (jobs onlyGo).move ⟨newJobService onePending,[]⟩ untilExit).shared.table["j"]? = some row →
        row.status.isFinal = true :=
  ⟨by decide +kernel,
    (jobs_settle onlyGo onePending untilExit (by decide +kernel)).1.last "j" (by decide +kernel)⟩

/-- A running job is cancelled; its goroutine writes with the cancelled context and exits, and
the row stays running. And a job that the cleanup has failed is completed afterwards. -/
theorem cancelled_unsettled :
    let start : Pool Service Call := ⟨newJobService onePending,[]⟩
    let cancelled := untilRunning ++ .call (.cancelJob "j") :: replicate 4 (.advance 1 (undisturbed (.success ""))) ++
      replicate 4 (.advance 0 (undisturbed (.error "context canceled")))
    let cleaned := untilRunning ++ .call .cleanupStaleRunning :: replicate 2 (.advance 1 (undisturbed (.success "")))
    let completed := cleaned ++ replicate 2 (.advance 0 (undisturbed (.success "ok")))
    let status (moves : List (Move Call Answer)) := ((run (jobs onlyGo).move start moves).shared.table["j"]?).map (·.status)
    ((run (jobs onlyGo).move start cancelled).shared.exited = ["j"] ∧ status cancelled = some .running) ∧
      status cleaned = some .failed ∧ status completed = some .completed := by
  decide +kernel

end QuantTrading.JobService
