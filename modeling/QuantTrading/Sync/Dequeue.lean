import QuantTrading.Sync.JobQueue

/-! What Dequeue claims when nobody else writes. The rows are listed newest first and the listing
does not look at the time a job is scheduled for.
-/
namespace QuantTrading.Sync
open Library List

def Lists (table : JobTable) (status : JobStatus) (limit : Nat) (jobs : List Job) : Prop :=
  ∃ rows : List Job, rows.Perm ((table.toList.map (·.2)).filter fun job => job.status = status) ∧
    rows.Pairwise (fun first second => first.createdAt ≥ second.createdAt) ∧ jobs = rows.take limit

def dequeue (table : JobTable) (jobs : List Job) (now : Int) : JobTable × Option Job :=
  match jobs with
  | [] => (table,none)
  | job :: _ =>
    let job := startJob job now
    match updateSyncJobIfStatus table job [.pending] with
    | none => (table,none)
    | some (claimed,table) => (table,if claimed then some job else none)

theorem run_dequeue (table : JobTable) (worker : Nat) {answer : Answer} (answers : answer.storeFails = false) :
    (run queue.move ⟨table,[]⟩ [.call (.dequeue worker),.advance 0 answer,.advance 0 answer]).shared =
      (dequeue table (listSyncJobs table .pending 1) answer.now).1 := by
  have called : queue.move ⟨table,[]⟩ (.call (.dequeue worker)) = ⟨table,[.dequeue worker]⟩ := rfl
  rw [run_cons,called]
  cases listed : listSyncJobs table .pending 1 with
  | nil => simp [Protocol.move,queue,step,answers,listed,dequeue]
  | cons job =>
    rcases written : updateSyncJobIfStatus table (startJob job answer.now) [.pending] with _ | ⟨_ | _,after⟩
    all_goals simp [Protocol.move,queue,step,answers,listed,dequeue,Answer.write,written]

def Job.due (job : Job) (now : Int) : Bool := job.scheduledAt.all (· ≤ now)

def Keyed (table : JobTable) : Prop := ∀ (id : String) (row : Job), table[id]? = some row → row.id = id

def Pending (table : JobTable) (job : Job) : Prop := table[job.id]? = some job ∧ job.status = .pending

/-- Whatever Dequeue claims is pending and due, no due pending job is older, and if RetryLater
put it back its backoff is over. -/
def ClaimsInOrder (table : JobTable) (now : Int) : Prop :=
  ∀ jobs : List Job, Lists table .pending 1 jobs → ∀ job : Job, (dequeue table jobs now).2 = some job →
    ∃ row : Job, job = startJob row now ∧ Pending table row ∧ row.due now = true ∧
      (∀ other : Job, Pending table other → other.due now = true → row.createdAt ≤ other.createdAt) ∧
      ∀ (copy : Job) (errMsg : String) (failedAt : Int),
        row = { retryLater copy errMsg failedAt with createdAt := row.createdAt } →
          failedAt + backoff (copy.retryCount + 1) ≤ now

def OnlyNewestDue (table : JobTable) (now : Int) : Prop :=
  ∀ job : Job, Pending table job →
    (job.due now = true ↔ ∀ other : Job, Pending table other → other.createdAt ≤ job.createdAt)

variable {table : JobTable} {now : Int}

theorem listed_iff (keyed : Keyed table) (job : Job) :
    job ∈ ((table.toList.map (·.2)).filter fun job => job.status = .pending) ↔ Pending table job := by
  rw [mem_filter,mem_map,Pending,decide_eq_true_iff]
  refine and_congr_left fun _ => ?_
  constructor
  · rintro ⟨⟨id,row⟩,member,rfl⟩
    have found := mem_toList_iff_getElem?_eq_some.mp member
    rw [keyed id row found]
    exact found
  · intro found
    exact ⟨(job.id,job),mem_toList_iff_getElem?_eq_some.mpr found,rfl⟩

theorem listSyncJobs_lists (table : JobTable) (status : JobStatus) (limit : Nat) :
    Lists table status limit (listSyncJobs table status limit) := by
  refine ⟨_,perm_insertionSort _ _,?_,rfl⟩
  exact pairwise_insertionSort _ _

variable {job : Job}

theorem lists_newest (keyed : Keyed table) (pending : Pending table job)
    (newest : ∀ other : Job, Pending table other → other.createdAt ≤ job.createdAt) : Lists table .pending 1 [job] := by
  let rows := (table.toList.map (·.2)).filter fun job => job.status = .pending
  let rest := (rows.erase job).insertionSort fun first second => first.createdAt ≥ second.createdAt
  have member : job ∈ rows := (listed_iff keyed job).mpr pending
  refine ⟨job :: rest,?_,?_,rfl⟩
  · exact ((perm_insertionSort _ _).cons job).trans (perm_cons_erase member).symm
  · refine pairwise_cons.mpr ⟨fun other there => ?_,pairwise_insertionSort _ _⟩
    rw [mem_insertionSort] at there
    exact newest other ((listed_iff keyed other).mp (mem_of_mem_erase there))

theorem Lists.head (keyed : Keyed table) {jobs : List Job} (lists : Lists table .pending 1 (job :: jobs)) :
    Pending table job ∧ ∀ other : Job, Pending table other → other.createdAt ≤ job.createdAt := by
  obtain ⟨rows,perm,sorted,listed⟩ := lists
  cases rows with
  | nil => cases listed
  | cons first =>
    obtain ⟨rfl,_⟩ : job = first ∧ jobs = [] := by simpa using listed
    refine ⟨(listed_iff keyed job).mp (perm.mem_iff.mp mem_cons_self),fun other pending => ?_⟩
    have member := perm.mem_iff.mpr ((listed_iff keyed other).mpr pending)
    obtain rfl | later := mem_cons.mp member
    · exact le_rfl
    · exact (pairwise_cons.mp sorted).1 other later

theorem exists_newest (keyed : Keyed table) (pending : Pending table job) :
    ∃ newest : Job, Pending table newest ∧ ∀ other : Job, Pending table other → other.createdAt ≤ newest.createdAt := by
  cases listed : listSyncJobs table .pending 1 with
  | nil =>
    have member := (listed_iff keyed job).mpr pending
    rw [listSyncJobs,take_eq_nil_iff] at listed
    rw [← mem_insertionSort fun first second : Job => first.createdAt ≥ second.createdAt,
      listed.resolve_left Nat.one_ne_zero] at member
    exact absurd member not_mem_nil
  | cons first => exact ⟨first,Lists.head keyed (listed ▸ listSyncJobs_lists table .pending 1)⟩

theorem dequeue_pending (pending : Pending table job) (jobs : List Job) :
    (dequeue table (job :: jobs) now).2 = some (startJob job now) := by
  obtain ⟨found,status⟩ := pending
  have same : (startJob job now).id = job.id := rfl
  simp [dequeue,updateSyncJobIfStatus,same,found,status]

theorem due_of_retryLater {row copy : Job} {errMsg : String} {failedAt : Int} (pending : row.status = .pending)
    (due : row.due now = true) (requeued : row = { retryLater copy errMsg failedAt with createdAt := row.createdAt }) :
    failedAt + backoff (copy.retryCount + 1) ≤ now := by
  by_cases exceeded : copy.retryCount + 1 > copy.maxRetries
  · rw [requeued,retryLater,if_pos exceeded] at pending
    cases pending
  · rw [requeued,retryLater,if_neg exceeded] at due
    simpa [Job.due] using due

/-- Dequeue keeps to the order of creation and to the schedule exactly when of the pending jobs
those created last, and no others, are due. -/
theorem claimsInOrder_iff (keyed : Keyed table) : ClaimsInOrder table now ↔ OnlyNewestDue table now := by
  constructor
  · intro inOrder job pending
    constructor
    · intro due other there
      obtain ⟨newest,waits,least⟩ := exists_newest keyed pending
      obtain ⟨row,same,_,_,oldest,_⟩ :=
        inOrder [newest] (lists_newest keyed waits least) _ (dequeue_pending waits [])
      have created : (startJob newest now).createdAt = (startJob row now).createdAt := congrArg Job.createdAt same
      change newest.createdAt = row.createdAt at created
      have older := oldest job pending due
      have latest := least other there
      omega
    · intro newest
      obtain ⟨row,same,_,due,_⟩ := inOrder [job] (lists_newest keyed pending newest) _ (dequeue_pending pending [])
      have scheduled : (startJob job now).scheduledAt = (startJob row now).scheduledAt := congrArg Job.scheduledAt same
      change job.scheduledAt = row.scheduledAt at scheduled
      rw [Job.due,scheduled]
      exact due
  · intro onlyNewest jobs lists job claimed
    cases jobs with
    | nil => cases claimed
    | cons row rest =>
      obtain ⟨pending,newest⟩ := lists.head keyed
      rw [dequeue_pending pending rest] at claimed
      have due := (onlyNewest row pending).mpr newest
      refine ⟨row,(Option.some.inj claimed).symm,pending,due,?_,?_⟩
      · intro other there dueToo
        exact (onlyNewest other there).mp dueToo row pending
      · intro copy errMsg failedAt requeued
        exact due_of_retryLater pending.2 due requeued

/-- Of two pending jobs the older is scheduled for later, and the newer is claimed. -/
theorem claimsInOrder_deferred :
    let older : Job := ⟨"a",.pending,0,0,0,0,"",none,1,none,none,0,3,some 100,""⟩
    let newer : Job := ⟨"b",.pending,0,0,0,0,"",none,2,none,none,0,3,none,""⟩
    ClaimsInOrder (createSyncJob (createSyncJob ∅ older) newer) 10 := by
  intro older newer
  have rows : (createSyncJob (createSyncJob ∅ older) newer).All fun id row =>
      row.id = id ∧ (row = older ∨ row = newer) := by decide +kernel
  have waits : Pending (createSyncJob (createSyncJob ∅ older) newer) newer := by
    unfold Pending
    decide +kernel
  refine (claimsInOrder_iff fun id row found => (rows id row found).1).mpr fun job pending => ?_
  rcases (rows job.id job pending.1).2 with rfl | rfl
  · exact iff_of_false (by decide) fun newest => absurd (newest newer waits) (by decide)
  · refine iff_of_true (by decide) fun other there => ?_
    rcases (rows other.id other there.1).2 with rfl | rfl <;> decide

/-- The newer of two due jobs is claimed; and a job that failed at time 1 and was put back for
ten seconds is claimed a nanosecond later. -/
theorem dequeue_newest :
    let old : Job := ⟨"a",.pending,0,0,0,0,"",none,1,none,none,0,3,none,""⟩
    let new : Job := ⟨"b",.pending,0,0,0,0,"",none,2,none,none,0,3,none,""⟩
    let both := createSyncJob (createSyncJob ∅ old) new
    let running := createSyncJob ∅ (startJob old 1)
    let requeued := ((⟨1,false,.stop⟩ : Answer).write running (retryLater (startJob old 1) "down" 1) [.running]).2
    ((dequeue both (listSyncJobs both .pending 1) 10).2).map (·.id) = some "b" ∧
      (requeued["a"]?).map (·.scheduledAt) = some (some 10000000001) ∧
      ((dequeue requeued (listSyncJobs requeued .pending 1) 2).2).map (·.id) = some "a" := by
  decide +kernel

end QuantTrading.Sync
