import QuantTrading.Sync.JobQueue

/-! Retry budgets of the sync queue. A conditional write looks at a row's status and not at its
retry count, so a copy read before another execution came and went writes an old count back.
While every write that lands carries the count its row has, the counts only grow and a job
is claimed no more often than its budget says.
-/
namespace QuantTrading.Sync
open Library List

/-- The executions a row accounts for: one for each retry, and the first once it has begun or
can no longer begin. -/
def Job.spent (job : Job) : Int := if job.status = .pending then job.retryCount else job.retryCount + 1

def claims (id : String) (table : JobTable) (call : Call) (answer : Answer) : Bool :=
  match call with
  | .claim _ job => job.id = id ∧ (answer.write table job [.pending]).1 = some true
  | _ => false

def Answer.current (answer : Answer) (table : JobTable) (id : String) (from_ : List JobStatus) (read : Int) : Bool :=
  answer.storeFails || (table[id]?).all fun row => row.status ∉ from_ ∨ row.retryCount = read

/-- No step writes from a copy with an old retry count, and jobs enter within their budget. -/
def upToDate (table : JobTable) (call : Call) (answer : Answer) : Bool :=
  match call with
  | .enqueue job => 0 ≤ job.retryCount ∧ job.retryCount ≤ job.maxRetries
  | .claim _ job => answer.current table job.id [.pending] job.retryCount
  | .working job => answer.current table job.id [.running] job.retryCount
  | .cancel job => answer.current table job.id [.pending,.running] job.retryCount
  | .retry job fromStatus => answer.current table job.id [fromStatus] (job.retryCount - 1)
  | .cleanup (job :: _) => answer.current table job.id [.running] job.retryCount
  | _ => true

structure Budgeted (id : String) (row : Job) : Prop where
  key : row.id = id
  nonneg : 0 ≤ row.retryCount
  within : row.retryCount ≤ row.maxRetries

def Stored (table : JobTable) : Prop := ∀ (id : String) (row : Job), table[id]? = some row → Budgeted id row

structure Renews (row row' : Job) : Prop where
  budget : row'.maxRetries = row.maxRetries
  count : row.retryCount ≤ row'.retryCount
  spent : row.spent ≤ row'.spent

def Grows (before after : JobTable) : Prop :=
  ∀ (id : String) (row : Job), before[id]? = some row → ∃ row' : Job, after[id]? = some row' ∧ Renews row row'

theorem Grows.refl (table : JobTable) : Grows table table := fun _ row found => ⟨row,found,rfl,le_rfl,le_rfl⟩

def Copied (table : JobTable) (job : Job) : Prop :=
  job.retryCount ≤ job.maxRetries ∧ ∃ row : Job, table[job.id]? = some row ∧ row.maxRetries = job.maxRetries

def Call.copies : Call → List Job
  | .claim _ job => [job]
  | .working job => [job]
  | .cancel job => [job]
  | .retry job _ => [job]
  | .cleanup jobs => jobs
  | _ => []

def Held (table : JobTable) (call : Call) : Prop := Holds call ∧ ∀ job ∈ call.copies, Copied table job

variable {job : Job} {table : JobTable} {rest : Option Call} {answer : Answer}

theorem Copied.mono {before after : JobTable} (grows : Grows before after) (copied : Copied before job) :
    Copied after job := by
  obtain ⟨within,row,found,budget⟩ := copied
  obtain ⟨row',found',renews⟩ := grows job.id row found
  exact ⟨within,row',found',renews.budget.trans budget⟩

variable {id : String} {from_ : List JobStatus} {job' row : Job}

theorem copied_of_found (stored : Stored table) (found : table[id]? = some row) : Copied table row := by
  have budgeted := stored id row found
  refine ⟨budgeted.within,row,?_,rfl⟩
  rw [budgeted.key]
  exact found

theorem mem_listSyncJobs {status : JobStatus} {limit : Nat}
    (listed : job ∈ listSyncJobs table status limit) : ∃ id : String, table[id]? = some job ∧ job.status = status := by
  have sorted := mem_of_mem_take listed
  rw [mem_insertionSort,mem_filter,mem_map] at sorted
  obtain ⟨⟨⟨id,row⟩,member,rfl⟩,stands⟩ := sorted
  exact ⟨id,mem_toList_iff_getElem?_eq_some.mp member,of_decide_eq_true stands⟩

structure Leaves (table : JobTable) (outcome : JobTable × Option Call) : Prop where
  stored : Stored outcome.1
  grows : Grows table outcome.1
  held : ∀ rest, outcome.2 = some rest → ∀ job ∈ rest.copies, Copied outcome.1 job

theorem Leaves.unchanged (stored : Stored table) : Leaves table (table,none) :=
  ⟨stored,.refl table,by rintro _ ⟨⟩⟩

theorem Leaves.reads {rest : Call} (stored : Stored table)
    (copied : ∀ job ∈ rest.copies, Copied table job) : Leaves table (table,some rest) :=
  ⟨stored,.refl table,fun _ goesOn => Option.some.inj goesOn ▸ copied⟩

theorem leaves_insert (stored : Stored table) (found : table[job.id]? = some row)
    (within : job.retryCount ≤ job.maxRetries) (renews : Renews row job)
    (held : ∀ call, rest = some call → ∀ copy ∈ call.copies, Copied table copy) :
    Leaves table (table.insert job.id job,rest) := by
  have grows : Grows table (table.insert job.id job) := by
    intro id old there
    rw [Book.get_insert]
    split
    next same =>
      subst same
      obtain rfl : row = old := Option.some.inj (found.symm.trans there)
      exact ⟨job,rfl,renews⟩
    · exact ⟨old,there,rfl,le_rfl,le_rfl⟩
  refine ⟨?_,grows,fun call goesOn copy member => (held call goesOn copy member).mono grows⟩
  intro id old there
  rw [Book.get_insert] at there
  split at there
  next same =>
    cases there
    exact ⟨same,(stored _ row found).nonneg.trans renews.count,within⟩
  · exact stored id old there

theorem Answer.current_read {read : Int} (current : answer.current table id from_ read = true)
    (answers : answer.storeFails = false) (found : table[id]? = some row) (allowed : row.status ∈ from_) :
    row.retryCount = read := by
  rw [Answer.current,answers,found,Bool.false_or] at current
  exact (of_decide_eq_true current).resolve_left (not_not_intro allowed)

theorem spent_le (row : Job) : row.spent ≤ row.retryCount + 1 := by
  rw [Job.spent]
  split <;> omega

theorem spent_pending (pending : job.status = .pending) : job.spent = job.retryCount := if_pos pending

theorem spent_begun (begun : job.status ≠ .pending) : job.spent = job.retryCount + 1 := if_neg begun

theorem write_leaves {read : Int} (stored : Stored table) (copied : Copied table job)
    (current : answer.current table job.id from_ read = true)
    (renews : ∀ row : Job, row.status ∈ from_ → row.retryCount = read →
      row.retryCount ≤ job.retryCount ∧ row.spent ≤ job.spent)
    (held : ∀ call, rest = some call → ∀ copy ∈ call.copies, Copied table copy) :
    Leaves table ((answer.write table job from_).2,rest) := by
  obtain ⟨same,_⟩ | ⟨row,found,allowed,answers,written⟩ := write_cases answer table job from_
  · rw [same]
    exact ⟨stored,.refl table,held⟩
  · rw [written]
    obtain ⟨within,old,there,budget⟩ := copied
    obtain rfl : row = old := Option.some.inj (found.symm.trans there)
    obtain ⟨count,spent⟩ := renews row allowed (Answer.current_read current answers found allowed)
    let written : Job := { job with createdAt := row.createdAt }
    have renewed : Renews row written := ⟨budget.symm,count,spent⟩
    have leaves : Leaves table (table.insert written.id written,rest) := leaves_insert stored found within renewed held
    exact leaves

theorem createSyncJob_leaves (stored : Stored table) (nonneg : 0 ≤ job.retryCount)
    (within : job.retryCount ≤ job.maxRetries) : Leaves table (createSyncJob table job,none) := by
  rw [createSyncJob]
  split
  · exact .unchanged stored
  rename_i absent
  refine ⟨?_,?_,by rintro _ ⟨⟩⟩
  · intro id row found
    rw [Book.get_insert] at found
    split at found
    next same =>
      cases found
      exact ⟨same,nonneg,within⟩
    · exact stored id row found
  · intro id row found
    refine ⟨row,?_,rfl,le_rfl,le_rfl⟩
    rw [Book.get_insert,if_neg,found]
    intro same
    subst same
    exact absent (contains_eq_isSome_getElem?.trans (by rw [found]; rfl))

theorem updateProgress_budget (job : Job) (processed total failed : Int) :
    (job.updateProgress processed total failed).id = job.id ∧
      (job.updateProgress processed total failed).retryCount = job.retryCount ∧
      (job.updateProgress processed total failed).maxRetries = job.maxRetries := by
  simp only [Job.updateProgress]
  split <;> exact ⟨rfl,rfl,rfl⟩

theorem Copied.same (copied : Copied table job) (key : job'.id = job.id)
    (count : job'.retryCount = job.retryCount) (budget : job'.maxRetries = job.maxRetries) : Copied table job' := by
  obtain ⟨within,row,found,same⟩ := copied
  exact ⟨by omega,row,by rw [key]; exact found,same.trans budget.symm⟩

theorem write_running_leaves (stored : Stored table) (copied : Copied table job)
    (current : answer.current table job.id [.running] job.retryCount = true)
    (key : job'.id = job.id) (count : job'.retryCount = job.retryCount) (budget : job'.maxRetries = job.maxRetries)
    (begun : job'.status ≠ .pending) (held : ∀ call, rest = some call → ∀ copy ∈ call.copies, Copied table copy) :
    Leaves table ((answer.write table job' [.running]).2,rest) := by
  refine write_leaves stored (copied.same key count budget) (by rw [key]; exact current) ?_ held
  intro row _ read
  have spent := spent_le row
  rw [spent_begun begun]
  omega

theorem processJob_leaves (stored : Stored table) (running : job.status = .running) (copied : Copied table job)
    (current : answer.current table job.id [.running] job.retryCount = true) :
    Leaves table (processJob table job answer) := by
  have returns : ∀ call : Call, none = some call → ∀ copy ∈ call.copies, Copied table copy :=
    by rintro _ ⟨⟩
  rw [processJob]
  split
  next processed total failed _ =>
    obtain ⟨key,count,budget⟩ := updateProgress_budget job processed total failed
    refine write_running_leaves stored copied current key count budget ?_ ?_
    · rw [updateProgress_status,running]
      decide
    · rintro _ ⟨⟩ copy member
      rw [mem_singleton.mp member]
      exact copied.same key count budget
  · refine write_running_leaves stored copied current rfl rfl rfl (by rw [running]; decide) ?_
    rintro _ ⟨⟩ copy member
    rw [mem_singleton.mp member]
    exact copied.same rfl rfl rfl
  · exact write_running_leaves stored copied current rfl rfl rfl (JobStatus.noConfusion ·) returns
  · exact write_running_leaves stored copied current rfl rfl rfl (JobStatus.noConfusion ·) returns
  next errMsg _ =>
    split
    next retries =>
      have requeued : retryLater job errMsg answer.now =
          { job with
            retryCount := job.retryCount + 1
            status := .pending
            errorMessage := errMsg
            scheduledAt := some (answer.now + backoff (job.retryCount + 1)) } := by
        rw [retryLater,if_neg (by simpa using Int.add_one_le_iff.mpr retries)]
      obtain ⟨_,old,found,budget⟩ := copied
      rw [requeued]
      refine write_leaves stored ⟨retries,old,found,budget⟩ current ?_ returns
      intro row allowed read
      -- The execution this row accounts for becomes a counted retry.
      have spent := spent_le row
      rw [read] at spent ⊢
      exact ⟨by simp,spent⟩
    · exact write_running_leaves stored copied current rfl rfl rfl (JobStatus.noConfusion ·) returns
  · exact .unchanged stored

theorem step_leaves {call : Call} (stored : Stored table) (held : Held table call)
    (met : upToDate table call answer = true) : Leaves table (step table call answer) := by
  obtain ⟨holds,copied⟩ := held
  have returns : ∀ call : Call, none = some call → ∀ copy ∈ call.copies, Copied table copy :=
    by rintro _ ⟨⟩
  cases call with
  | enqueue =>
    obtain ⟨nonneg,within⟩ := of_decide_eq_true met
    rw [step]
    split
    · exact .unchanged stored
    · exact createSyncJob_leaves stored nonneg within
  | dequeue worker =>
    rw [step]
    iterate 2 (split; · exact .unchanged stored)
    rename_i job jobs listed
    obtain ⟨id,found,_⟩ := mem_listSyncJobs (listed ▸ mem_cons_self : job ∈ listSyncJobs table .pending 1)
    refine .reads stored fun copy member => ?_
    rw [mem_singleton.mp member]
    exact (copied_of_found stored found).same rfl rfl rfl
  | claim worker job =>
    have own : Copied table job := copied job mem_cons_self
    have leaves (rest : Option Call) (goesOn : ∀ call, rest = some call → ∀ copy ∈ call.copies, Copied table copy) :
        Leaves table ((answer.write table job [.pending]).2,rest) := by
      refine write_leaves stored own met ?_ goesOn
      intro row _ read
      have spent := spent_le row
      have begun : job.status ≠ .pending := by
        rw [holds]
        decide
      rw [spent_begun begun]
      omega
    rw [step]
    split
    next written =>
      have goesOn := leaves (some (.working { job with workerID := "worker-" ++ toString worker })) (by
        rintro _ ⟨⟩ copy member
        rw [mem_singleton.mp member]
        exact own.same rfl rfl rfl)
      rw [written] at goesOn
      exact goesOn
    next written =>
      have goesOn := leaves none returns
      rw [written] at goesOn
      exact goesOn
  | working job => exact processJob_leaves stored holds (copied job mem_cons_self) met
  | cancelJob jobID =>
    rw [step]
    iterate 2 (split; · exact .unchanged stored)
    rename_i job found
    split
    · exact .unchanged stored
    refine .reads stored fun copy member => ?_
    rw [mem_singleton.mp member]
    exact (copied_of_found stored found).same rfl rfl rfl
  | cancel job =>
    refine write_leaves stored (copied job mem_cons_self) met ?_ returns
    intro row _ read
    have spent := spent_le row
    have begun : job.status ≠ .pending := by
      rw [holds]
      decide
    rw [spent_begun begun]
    omega
  | retryJob jobID =>
    rw [step]
    iterate 2 (split; · exact .unchanged stored)
    rename_i job found
    split
    next retryable =>
      obtain ⟨_,old,there,budget⟩ := copied_of_found stored found
      refine .reads stored fun copy member => ?_
      rw [mem_singleton.mp member]
      exact ⟨(of_decide_eq_true retryable).1,old,there,budget⟩
    · exact .unchanged stored
  | retry job =>
    refine write_leaves stored (copied job mem_cons_self) met ?_ returns
    intro row _ read
    have spent := spent_le row
    rw [spent_pending holds.1]
    omega
  | cleanupStaleRunning =>
    rw [step]
    split
    · exact .unchanged stored
    refine .reads stored fun copy member => ?_
    obtain ⟨id,found,_⟩ := mem_listSyncJobs member
    exact copied_of_found stored found
  | cleanup jobs =>
    cases jobs with
    | nil => exact .unchanged stored
    | cons job =>
      refine write_running_leaves stored (copied job mem_cons_self) met rfl rfl rfl (JobStatus.noConfusion ·) ?_
      rintro _ ⟨⟩ copy member
      exact copied copy (mem_cons_of_mem _ member)

theorem queue_keeps_budgets : queue.Keeps upToDate Stored Held where
  begins table call starts _ := by
    refine ⟨queue_keeps_copies.begins table call starts trivial,?_⟩
    cases call with
    | claim _ _ | working _ | cancel _ | retry _ _ | cleanup _ => cases starts
    | _ => exact forall_mem_nil _
  steps table call answer met stored held := by
    have leaves := step_leaves stored held met
    exact ⟨leaves.stored,fun rest goesOn => ⟨(step_sound held.1 table answer).2 rest goesOn,leaves.held rest goesOn⟩⟩
  stable table call answer other met stored held waits :=
    ⟨waits.1,fun job member => (waits.2 job member).mono (step_leaves stored held met).grows⟩

def spentOn (id : String) (table : JobTable) : Int := (table[id]?).elim 0 Job.spent

theorem spentOn_nonneg (stored : Stored table) (id : String) : 0 ≤ spentOn id table := by
  rw [spentOn]
  cases found : table[id]? with
  | none => exact le_rfl
  | some row =>
    have nonneg := (stored id row found).nonneg
    simp only [Option.elim_some,Job.spent]
    split <;> omega

theorem Leaves.spentOn_le {outcome : JobTable × Option Call} (leaves : Leaves table outcome)
    (id : String) : spentOn id table ≤ spentOn id outcome.1 := by
  cases found : table[id]? with
  | none =>
    have nonneg := spentOn_nonneg leaves.stored id
    rw [spentOn,found]
    exact nonneg
  | some row =>
    obtain ⟨row',found',renews⟩ := leaves.grows id row found
    rw [spentOn,spentOn,found,found']
    exact renews.spent

theorem step_pays {call : Call} (id : String) (stored : Stored table)
    (held : Held table call) (met : upToDate table call answer = true) :
    spentOn id table + (claims id table call answer).toNat ≤ spentOn id (step table call answer).1 := by
  have least := (step_leaves stored held met).spentOn_le id
  cases call with
  | claim worker job =>
    cases claimed : claims id table (.claim worker job) answer with
    | false => simpa using least
    | true =>
      obtain ⟨rfl,landed⟩ := of_decide_eq_true claimed
      obtain ⟨_,refused⟩ | ⟨row,found,allowed,answers,written⟩ := write_cases answer table job [.pending]
      · exact absurd landed refused
      · have read := Answer.current_read met answers found allowed
        have running : job.status = .running := held.1
        rw [step,written,spentOn,spentOn,found]
        simp [Job.spent,mem_singleton.mp allowed,running,read]
  | _ => simpa [claims] using least

/-- In every interleaving whose writes carry the retry count of the row they land on, the
stored counts never decrease and no job is claimed more than once above its budget of retries. -/
theorem retries_bounded (table : JobTable) (moves : List (Move Call Answer)) (stored : Stored table)
    (orderly : queue.Orderly upToDate ⟨table,[]⟩ moves) :
    Linked queue.move (fun before after => ∀ (id : String) (row : Job), before.shared[id]? = some row →
        ∃ row' : Job, after.shared[id]? = some row' ∧ row.retryCount ≤ row'.retryCount) ⟨table,[]⟩ moves ∧
      ∀ (id : String) (row : Job), (run queue.move ⟨table,[]⟩ moves).shared[id]? = some row →
        tally queue.move (Pool.takes (claims id)) ⟨table,[]⟩ moves ≤ row.maxRetries + 1 := by
  constructor
  · have linked := queue_keeps_budgets.linked Grows.refl (fun table call answer met stored held =>
      (step_leaves stored held met).grows) stored orderly
    refine linked.mono fun before after grows id row found => ?_
    obtain ⟨row',found',renews⟩ := grows id row found
    exact ⟨row',found',renews.count⟩
  · intro id row found
    have counted := queue_keeps_budgets.tally_le (fun table call answer met stored held =>
      step_pays id stored held met) stored orderly
    have start := spentOn_nonneg stored id
    have last : Stored (run queue.move ⟨table,[]⟩ moves).shared := (queue_keeps_budgets.along stored orderly).last.1
    have within := (last id row found).within
    have most := spent_le row
    have reached : spentOn id (run queue.move ⟨table,[]⟩ moves).shared = row.spent := by
      rw [spentOn,found]
      rfl
    omega

def requeuedOnce : List (Move Call Answer) :=
  let created : Job := ⟨"j",.pending,0,0,0,0,"",none,0,none,none,0,3,none,""⟩
  let answers (work : Work) : Answer := ⟨1,false,work⟩
  [.call (.enqueue created),.advance 0 (answers .stop),
    .call (.dequeue 0),.advance 0 (answers .stop),.advance 0 (answers .stop),.advance 0 (answers (.executeFails "down")),
    .call (.dequeue 0),.advance 0 (answers .stop),.advance 0 (answers .stop)]

theorem requeuedOnce_bounded : tally queue.move (Pool.takes (claims "j")) ⟨∅,[]⟩ requeuedOnce = 2 ∧
      ∀ row : Job, (run queue.move ⟨∅,[]⟩ requeuedOnce).shared["j"]? = some row →
        tally queue.move (Pool.takes (claims "j")) ⟨∅,[]⟩ requeuedOnce ≤ row.maxRetries + 1 :=
  ⟨by decide +kernel,
    (retries_bounded ∅ requeuedOnce (fun _ _ found => by simp at found) (by decide +kernel)).2 "j"⟩

/-- A worker lists a new job and waits, another claims it three times and fails; the first
worker's claim then lands, since the row is pending again, and writes the count back to zero. -/
theorem staleClaim_overspends :
    let created : Job := ⟨"j",.pending,0,0,0,0,"",none,0,none,none,0,3,none,""⟩
    let answers (work : Work) : Answer := ⟨1,false,work⟩
    let execution : List (Move Call Answer) :=
      [.call (.dequeue 1),.advance 1 (answers .stop),.advance 1 (answers .stop),.advance 1 (answers (.executeFails "down"))]
    let start : Pool JobTable Call := ⟨createSyncJob ∅ created,[]⟩
    let waiting := [.call (.dequeue 0),.advance 0 (answers .stop)] ++ execution ++ execution ++ execution
    let claimed := waiting ++ [.advance 0 (answers .stop)]
    let moves := claimed ++ [.advance 0 (answers (.executeFails "down")),
      .call (.dequeue 0),.advance 0 (answers .stop),.advance 0 (answers .stop)]
    ((run queue.move start waiting).shared["j"]?).map (·.retryCount) = some 3 ∧
      ((run queue.move start claimed).shared["j"]?).map (·.retryCount) = some 0 ∧
      ((run queue.move start moves).shared["j"]?).map (·.maxRetries) = some 3 ∧
      tally queue.move (Pool.takes (claims "j")) start moves = 5 := by
  decide +kernel

end QuantTrading.Sync
