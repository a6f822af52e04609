import Mathlib.Data.List.Sort
import QuantTrading.Library.Book
import QuantTrading.Library.Interleaving

/-! The sync job queue. Workers, the job service and the cleanup race on the rows of one table,
each with its own copy of a job. The only write to a row is conditional on its status, and every
call names a status from which its copy's status may follow.
-/
namespace QuantTrading.Sync
open Library

inductive JobStatus where
  | pending
  | running
  | completed
  | failed
  | cancelled
  | retrying
deriving DecidableEq

structure Job where
  id : String
  status : JobStatus
  (progressPercent totalItems processedItems failedItems : Int)
  errorMessage : String
  result : Option String
  createdAt : Int
  (startedAt completedAt : Option Int)
  (retryCount maxRetries : Int)
  scheduledAt : Option Int
  workerID : String
deriving DecidableEq

namespace Job

def isTerminal (j : Job) : Bool := j.status = .completed ∨ j.status = .failed ∨ j.status = .cancelled

def canRetry (j : Job) : Bool := j.retryCount < j.maxRetries ∧ (j.status = .failed ∨ j.status = .pending)

def updateProgress (j : Job) (processed total failed : Int) : Job :=
  let j := { j with processedItems := processed, totalItems := total, failedItems := failed }
  if total > 0 then { j with progressPercent := (processed * 100).tdiv total } else j

end Job

abbrev JobTable := Book String Job

def createSyncJob (table : JobTable) (job : Job) : JobTable :=
  if table.contains job.id then table else table.insert job.id job

def listSyncJobs (table : JobTable) (status : JobStatus) (limit : Nat) : List Job :=
  (((table.toList.map (·.2)).filter fun job => job.status = status).insertionSort fun first second =>
    first.createdAt ≥ second.createdAt).take limit

def updateSyncJobIfStatus (table : JobTable) (job : Job) (from_ : List JobStatus) : Option (Bool × JobTable) :=
  if from_.length = 0 then none
  else
    match table[job.id]? with
    | none => some (false,table)
    | some row =>
      -- The statement does not name created_at.
      if row.status ∈ from_ then some (true,table.insert job.id { job with createdAt := row.createdAt })
      else some (false,table)

variable (job : Job)

def startJob (now : Int) : Job := { job with status := .running, startedAt := some now }

def completeJob (result : Option String) (now : Int) : Job :=
  { job with status := .completed, completedAt := some now, result := result, progressPercent := 100 }

def failJob (errMsg : String) (now : Int) : Job :=
  { job with status := .failed, errorMessage := errMsg, completedAt := some now }

def backoff (retryCount : Int) : Int :=
  let shifted : Int := if retryCount < 0 then 0 else 2 ^ retryCount.toNat
  (shifted * 5 * 1000000000).bmod (2 ^ 64)

def retryLater (errMsg : String) (now : Int) : Job :=
  let job := { job with retryCount := job.retryCount + 1 }
  if job.retryCount > job.maxRetries then failJob job ("max retries exceeded: " ++ errMsg) now
  else
    { job with status := .pending, errorMessage := errMsg, scheduledAt := some (now + backoff job.retryCount) }

def cancelJob (now : Int) : Job := { job with status := .cancelled, completedAt := some now }

def retryJob : Job :=
  { job with
    status := .pending
    retryCount := job.retryCount + 1
    errorMessage := ""
    progressPercent := 0
    processedItems := 0
    failedItems := 0
    workerID := "" }

def staleRunning : String :=
  "interrupted by a service restart (AUD-50 stale-running cleanup); " ++
    "the worker pool only dequeues `pending`, so this row would otherwise stay `running` forever"

def cleanupWindowLimit : Nat := 1000

inductive Call where
  | enqueue (job : Job)
  | dequeue (worker : Nat)
  | claim (worker : Nat) (job : Job)
  | working (job : Job)
  | cancelJob (jobID : String)
  | cancel (job : Job)
  | retryJob (jobID : String)
  | retry (job : Job) (fromStatus : JobStatus)
  | cleanupStaleRunning
  | cleanup (jobs : List Job)

def Call.starts : Call → Bool
  | .enqueue _ => true
  | .dequeue _ => true
  | .cancelJob _ => true
  | .retryJob _ => true
  | .cleanupStaleRunning => true
  | _ => false

inductive Work where
  | reportProgress (processed total failed : Int)
  | reportError (errMsg : String)
  | complete (result : Option String)
  | fail (errMsg : String)
  | executeFails (errMsg : String)
  | stop

/-- What a step finds outside the store's rows: the clock, a store call that fails, and what
the executor does. -/
structure Answer where
  now : Int
  storeFails : Bool
  work : Work

variable (answer : Answer)

def Answer.write (table : JobTable) (job : Job) (from_ : List JobStatus) : Option Bool × JobTable :=
  if answer.storeFails then (none,table)
  else
    match updateSyncJobIfStatus table job from_ with
    | none => (none,table)
    | some (applied,table) => (some applied,table)

def processJob (table : JobTable) (job : Job) (answer : Answer) : JobTable × Option Call :=
  match answer.work with
  | .reportProgress processed total failed =>
    let job := job.updateProgress processed total failed
    ((answer.write table job [.running]).2,some (.working job))
  | .reportError errMsg =>
    let job := { job with errorMessage := errMsg, failedItems := job.failedItems + 1 }
    ((answer.write table job [.running]).2,some (.working job))
  | .complete result => ((answer.write table (completeJob job result answer.now) [.running]).2,none)
  | .fail errMsg => ((answer.write table (failJob job errMsg answer.now) [.running]).2,none)
  | .executeFails errMsg =>
    if job.retryCount < job.maxRetries then
      ((answer.write table (retryLater job errMsg answer.now) [.running]).2,none)
    else ((answer.write table (failJob job errMsg answer.now) [.running]).2,none)
  | .stop => (table,none)

def step (table : JobTable) (call : Call) (answer : Answer) : JobTable × Option Call :=
  match call with
  | .enqueue job => (if answer.storeFails then table else createSyncJob table job,none)
  | .dequeue worker =>
    if answer.storeFails then (table,none)
    else
      match listSyncJobs table .pending 1 with
      | [] => (table,none)
      | job :: _ => (table,some (.claim worker (startJob job answer.now)))
  | .claim worker job =>
    match answer.write table job [.pending] with
    | (some true,table) => (table,some (.working { job with workerID := "worker-" ++ toString worker }))
    | (_,table) => (table,none)
  | .working job => processJob table job answer
  | .cancelJob jobID =>
    if answer.storeFails then (table,none)
    else
      match table[jobID]? with
      | none => (table,none)
      | some job => if job.isTerminal then (table,none) else (table,some (.cancel (cancelJob job answer.now)))
  | .cancel job => ((answer.write table job [.pending,.running]).2,none)
  | .retryJob jobID =>
    if answer.storeFails then (table,none)
    else
      match table[jobID]? with
      | none => (table,none)
      | some job => if job.canRetry then (table,some (.retry (retryJob job) job.status)) else (table,none)
  | .retry job fromStatus => ((answer.write table job [fromStatus]).2,none)
  | .cleanupStaleRunning =>
    if answer.storeFails then (table,none) else (table,some (.cleanup (listSyncJobs table .running cleanupWindowLimit)))
  | .cleanup [] => (table,none)
  | .cleanup (job :: jobs) =>
    ((answer.write table (failJob job staleRunning answer.now) [.running]).2,some (.cleanup jobs))

def queue : Protocol JobTable Call Answer := ⟨Call.starts,step⟩

inductive Follows : JobStatus → JobStatus → Prop
  | claimed : Follows .pending .running
  | completed : Follows .running .completed
  | failed : Follows .running .failed
  | requeued : Follows .running .pending
  | stopped : Follows .running .cancelled
  | cancelled : Follows .pending .cancelled
  | retried : Follows .failed .pending

def Lawful (before after : JobTable) : Prop :=
  ∀ (id : String) (row : Job), before[id]? = some row →
    ∃ row' : Job, after[id]? = some row' ∧ (row'.status = row.status ∨ Follows row.status row'.status)

def Final (before after : JobTable) : Prop :=
  ∀ (id : String) (row : Job), before[id]? = some row → row.status = .completed ∨ row.status = .cancelled →
    ∃ row' : Job, after[id]? = some row' ∧ row'.status = row.status

theorem Lawful.refl (table : JobTable) : Lawful table table := fun _ row found => ⟨row,found,.inl rfl⟩

variable {after : JobTable}

theorem Lawful.final {before : JobTable} (lawful : Lawful before after) : Final before after := by
  intro id row found settled
  obtain ⟨row',found',same | follows⟩ := lawful id row found
  · exact ⟨row',found',same⟩
  · obtain done | done := settled
    · rw [done] at follows
      cases follows
    · rw [done] at follows
      cases follows

theorem Final.refl (table : JobTable) : Final table table := (Lawful.refl table).final

theorem Final.trans {first second third : JobTable} (before : Final first second) (after : Final second third) :
    Final first third := by
  intro id row found settled
  obtain ⟨row',found',same⟩ := before id row found settled
  obtain ⟨row'',found'',same'⟩ := after id row' found' (by rw [same]; exact settled)
  exact ⟨row'',found'',same'.trans same⟩

variable {table : JobTable} {job : Job}

theorem lawful_insert {row : Job} (job : Job) (found : table[job.id]? = some row)
    (follows : job.status = row.status ∨ Follows row.status job.status) : Lawful table (table.insert job.id job) := by
  intro id old there
  rw [Book.get_insert]
  split
  next same =>
    subst same
    obtain rfl : row = old := Option.some.inj (found.symm.trans there)
    exact ⟨job,rfl,follows⟩
  · exact ⟨old,there,.inl rfl⟩

theorem write_cases (table : JobTable) (job : Job) (from_ : List JobStatus) :
    ((answer.write table job from_).2 = table ∧ (answer.write table job from_).1 ≠ some true) ∨
      ∃ row : Job, table[job.id]? = some row ∧ row.status ∈ from_ ∧ answer.storeFails = false ∧
        answer.write table job from_ = (some true,table.insert job.id { job with createdAt := row.createdAt }) := by
  rw [Answer.write,updateSyncJobIfStatus]
  split
  · exact .inl ⟨rfl,by simp⟩
  rename_i answers
  split
  · exact .inl ⟨rfl,by simp⟩
  rename_i written
  split at written
  · cases written
  split at written
  · cases written
    exact .inl ⟨rfl,by simp⟩
  next row found =>
    split at written
    next allowed =>
      cases written
      exact .inr ⟨row,found,allowed,by simpa using answers,rfl⟩
    · cases written
      exact .inl ⟨rfl,by simp⟩

theorem write_lawful (table : JobTable) {from_ : List JobStatus}
    (follows : ∀ status ∈ from_, job.status = status ∨ Follows status job.status) :
    Lawful table (answer.write table job from_).2 := by
  obtain ⟨same,_⟩ | ⟨row,found,allowed,_,written⟩ := write_cases answer table job from_
  · rw [same]
    exact .refl table
  · rw [written]
    exact lawful_insert { job with createdAt := row.createdAt } found (follows _ allowed)

theorem createSyncJob_lawful (table : JobTable) (job : Job) : Lawful table (createSyncJob table job) := by
  rw [createSyncJob]
  split
  · exact .refl table
  rename_i absent
  intro id row found
  refine ⟨row,?_,.inl rfl⟩
  rw [Book.get_insert,if_neg,found]
  intro same
  subst same
  exact absent (contains_eq_isSome_getElem?.trans (by rw [found]; rfl))

def Holds : Call → Prop
  | .claim _ job => job.status = .running
  | .working job => job.status = .running
  | .cancel job => job.status = .cancelled
  | .retry job fromStatus => job.status = .pending ∧ (fromStatus = .failed ∨ fromStatus = .pending)
  | _ => True

theorem retryLater_follows (job : Job) (errMsg : String) (now : Int) :
    Follows .running (retryLater job errMsg now).status := by
  simp only [retryLater]
  split
  · exact .failed
  · exact .requeued

theorem updateProgress_status (job : Job) (processed total failed : Int) :
    (job.updateProgress processed total failed).status = job.status := by
  simp only [Job.updateProgress]
  split <;> rfl

/-- What a step leaves: a table lawfully changed and, if the call goes on, the copy its next
place asks for. -/
def Sound (table : JobTable) (outcome : JobTable × Option Call) : Prop :=
  Lawful table outcome.1 ∧ ∀ rest, outcome.2 = some rest → Holds rest

theorem Sound.returns (lawful : Lawful table after) : Sound table (after,none) :=
  ⟨lawful,by rintro _ ⟨⟩⟩

theorem Sound.goesOn {rest : Call} (lawful : Lawful table after) (holds : Holds rest) :
    Sound table (after,some rest) :=
  ⟨lawful,fun _ goesOn => Option.some.inj goesOn ▸ holds⟩

theorem write_running (table : JobTable) (follows : job.status = .running ∨ Follows .running job.status) :
    Lawful table (answer.write table job [.running]).2 := by
  refine write_lawful answer table fun status member => ?_
  rw [List.mem_singleton.mp member]
  exact follows

theorem processJob_sound (running : job.status = .running) (table : JobTable) (answer : Answer) :
    Sound table (processJob table job answer) := by
  rw [processJob]
  split
  next processed total failed _ =>
    have kept := (updateProgress_status job processed total failed).trans running
    exact .goesOn (write_running answer table (.inl kept)) kept
  · exact .goesOn (write_running answer table (.inl running)) running
  · exact .returns (write_running answer table (.inr .completed))
  · exact .returns (write_running answer table (.inr .failed))
  · split
    · exact .returns (write_running answer table (.inr (retryLater_follows _ _ _)))
    · exact .returns (write_running answer table (.inr .failed))
  · exact .returns (.refl table)

theorem step_sound {call : Call} (holds : Holds call) (table : JobTable) (answer : Answer) :
    Sound table (step table call answer) := by
  cases call with
  | enqueue job =>
    rw [step]
    split
    · exact .returns (.refl table)
    · exact .returns (createSyncJob_lawful table job)
  | dequeue _ | cancelJob _ =>
    rw [step]
    repeat' split
    all_goals first | exact .returns (.refl table) | exact .goesOn (.refl table) rfl
  | claim worker job =>
    have lawful : Lawful table (answer.write table job [.pending]).2 := by
      refine write_lawful answer table fun status member => ?_
      rw [List.mem_singleton.mp member,holds]
      exact .inr .claimed
    rw [step]
    split
    next written =>
      rw [written] at lawful
      exact .goesOn lawful holds
    next written =>
      rw [written] at lawful
      exact .returns lawful
  | working => exact processJob_sound holds table answer
  | cancel =>
    refine .returns (write_lawful answer table fun status member => ?_)
    rw [holds]
    obtain rfl | rfl : status = .pending ∨ status = .running := by simpa using member
    · exact .inr .cancelled
    · exact .inr .stopped
  | retryJob =>
    rw [step]
    iterate 2 (split; · exact .returns (.refl table))
    split
    next retryable =>
      exact .goesOn (.refl table) ⟨rfl,(of_decide_eq_true retryable).2⟩
    · exact .returns (.refl table)
  | retry =>
    obtain ⟨pending,source⟩ := holds
    refine .returns (write_lawful answer table fun status member => ?_)
    rw [List.mem_singleton.mp member,pending]
    obtain rfl | rfl := source
    · exact .inr .retried
    · exact .inl rfl
  | cleanupStaleRunning =>
    rw [step]
    split
    · exact .returns (.refl table)
    · exact .goesOn (.refl table) trivial
  | cleanup jobs =>
    cases jobs with
    | nil => exact .returns (.refl table)
    | cons => exact .goesOn (write_running answer table (.inr .failed)) trivial

theorem queue_keeps_copies : queue.Keeps (fun _ _ _ => true) (fun _ => True) fun _ call => Holds call where
  begins _ call starts _ := by
    cases call with
    | claim _ _ | working _ | cancel _ | retry _ _ => cases starts
    | _ => trivial
  steps table call answer _ _ holds := ⟨trivial,(step_sound holds table answer).2⟩
  stable _ _ _ _ _ _ _ holds := holds

/-- Whatever the interleaving, every status change is one of the lifecycle, and a row that is
completed or cancelled at one point of a run has that status at every later one. -/
theorem job_lifecycle (table : JobTable) (first second : List (Move Call Answer)) :
    Linked queue.move (fun before after => Lawful before.shared after.shared) ⟨table,[]⟩ (first ++ second) ∧
      Final (run queue.move ⟨table,[]⟩ first).shared (run queue.move ⟨table,[]⟩ (first ++ second)).shared := by
  have linked := queue_keeps_copies.linked Lawful.refl (fun table call answer _ _ holds =>
    (step_sound holds table answer).1) trivial (Protocol.orderly_any ⟨table,[]⟩ (first ++ second))
  refine ⟨linked,?_⟩
  have finals : Linked queue.move (fun before after => Final before.shared after.shared) ⟨table,[]⟩ (first ++ second) :=
    linked.mono fun _ _ lawful => lawful.final
  rw [run_append]
  exact finals.later.run (fun pool => Final.refl pool.shared) fun _ _ _ before after => before.trans after

end QuantTrading.Sync
