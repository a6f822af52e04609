import Mathlib.Data.List.Sort
import QuantTrading.Library.Book

/-! The sync scheduler. A schedule stands in two places, as a row of the store and as an entry of
the cron library, and each operation writes to both, one after the other. The library is a
parameter with what its documentation says of it; its parser takes five fields only.
-/
namespace QuantTrading.Sync
open Library List
open Function (update update_apply update_eq_self update_idem update_self)

structure Schedule where
  id : Int
  (name description jobType cronExpression params : String)
  isActive : Bool
  lastRunAt : Option Int
  (lastRunStatus lastRunJobID : Option String)
  nextRunAt : Option Int
  (createdAt updatedAt : Int)
  createdBy : String
deriving DecidableEq

/-- An entry runs one schedule's job at the times of its specification. -/
structure CronEntry where
  id : Nat
  spec : String
  scheduleID : Int
deriving DecidableEq

structure CronLibrary where
  State : Type
  entries : State → List CronEntry
  new : State
  start : State → State
  (parseStandard parseSeconds : String → Option String)
  addFunc : State → String → Int → Except String (Nat × State)
  remove : State → Nat → State
  entries_new : entries new = []
  entries_start (c : State) : entries (start c) = entries c
  addFunc_refused (c : State) (spec : String) (scheduleID : Int) (err : String) :
    parseStandard spec = some err → addFunc c spec scheduleID = .error err
  addFunc_accepted (c : State) (spec : String) (scheduleID : Int) :
    parseStandard spec = none → ∃ (id : Nat) (c' : State), addFunc c spec scheduleID = .ok (id,c') ∧
      (∀ entry ∈ entries c, entry.id ≠ id) ∧ entries c' = entries c ++ [⟨id,spec,scheduleID⟩]
  entries_remove (c : State) (id : Nat) : entries (remove c id) = (entries c).filter fun entry => entry.id ≠ id

/-- What an operation meets: the errors of its store calls, in the order it makes them, the
times of the database and of the cron library, and the id the database gives a new row. -/
structure Answers where
  storeError : Nat → Option String
  now : Int
  nextRun : Nat → Int
  newID : Int

abbrev ScheduleTable := Book Int Schedule

def createSyncSchedule (rows : ScheduleTable) (schedule : Schedule) (answers : Answers) (call : Nat) :
    Except String (ScheduleTable × Schedule) :=
  match answers.storeError call with
  | some err => .error ("failed to create sync schedule: " ++ err)
  | none =>
    if rows.contains answers.newID then .error "failed to create sync schedule: duplicate key"
    else
      -- The statement does not name the last run.
      let row := { schedule with
        id := answers.newID, createdAt := answers.now, updatedAt := answers.now
        lastRunAt := none, lastRunStatus := none, lastRunJobID := none }
      .ok (rows.insert answers.newID row,
        { schedule with id := answers.newID, createdAt := answers.now, updatedAt := answers.now })

def getSyncSchedule (rows : ScheduleTable) (id : Int) (answers : Answers) (call : Nat) : Except String (Option Schedule) :=
  match answers.storeError call with
  | some err => .error ("failed to get sync schedule: " ++ err)
  | none => .ok rows[id]?

def updateSyncSchedule (rows : ScheduleTable) (schedule : Schedule) (answers : Answers) (call : Nat) :
    Except String (ScheduleTable × Schedule) :=
  match answers.storeError call with
  | some err => .error ("failed to update sync schedule: " ++ err)
  | none =>
    match rows[schedule.id]? with
    | none => .error "failed to update sync schedule: no rows in result set"
    | some row =>
      let schedule := { schedule with updatedAt := answers.now }
      .ok (rows.insert schedule.id { schedule with createdAt := row.createdAt, createdBy := row.createdBy },schedule)

def deleteSyncSchedule (rows : ScheduleTable) (id : Int) (answers : Answers) (call : Nat) : Except String ScheduleTable :=
  match answers.storeError call with
  | some err => .error ("failed to delete sync schedule: " ++ err)
  | none =>
    if rows.contains id then .ok (rows.erase id)
    else .error ("sync schedule not found: " ++ toString id)

def activeSchedules (rows : ScheduleTable) : List Schedule :=
  ((rows.toList.map (·.2)).filter (·.isActive)).insertionSort fun first second => first.createdAt ≥ second.createdAt

def listSyncSchedules (rows : ScheduleTable) (answers : Answers) (call : Nat) : Except String (List Schedule) :=
  match answers.storeError call with
  | some err => .error ("failed to list sync schedules: " ++ err)
  | none => .ok (activeSchedules rows)

structure Scheduler (lib : CronLibrary) where
  cron : lib.State
  rows : ScheduleTable
  entries : Book Int Nat
  jobTypes : Book String String
  isRunning : Bool
  startError : String

namespace Scheduler

variable {lib : CronLibrary}

def newScheduler (lib : CronLibrary) (rows : ScheduleTable) (jobTypes : Book String String) : Scheduler lib :=
  ⟨lib.new,rows,∅,jobTypes,false,""⟩

variable (s : Scheduler lib)

def resolveJobType (name : String) : String := (s.jobTypes[name]?).getD name

def validateCron (lib : CronLibrary) (expr : String) : Option String :=
  match lib.parseStandard expr with
  | none => none
  | some _ => (lib.parseSeconds expr).map fun err => "invalid cron expression: " ++ err

def removeEntry (id : Int) : Scheduler lib :=
  match s.entries[id]? with
  | some entryID => { s with cron := lib.remove s.cron entryID, entries := s.entries.erase id }
  | none => s

def scheduleJob (schedule : Schedule) (answers : Answers) (call : Nat) : Scheduler lib × Except String Schedule :=
  if s.resolveJobType schedule.jobType = "" then (s,.error ("unknown job type: " ++ schedule.jobType))
  else
    match lib.addFunc s.cron schedule.cronExpression schedule.id with
    | .error err => (s,.error ("failed to add cron job: " ++ err))
    | .ok (entryID,cron) =>
      let s := { s with cron := cron, entries := s.entries.insert schedule.id entryID }
      let schedule := { schedule with nextRunAt := some (answers.nextRun entryID) }
      match updateSyncSchedule s.rows schedule answers call with
      | .error _ => (s,.ok schedule)
      | .ok (rows,schedule) => ({ s with rows := rows },.ok schedule)

def loadSchedule (answers : Answers) (s : Scheduler lib × Nat) (schedule : Schedule) : Scheduler lib × Nat :=
  match s.1.scheduleJob schedule answers s.2 with
  | (s',.error _) => (s',s.2)
  | (s',.ok _) => (s',s.2 + 1)

def loadAndScheduleAll (answers : Answers) : Scheduler lib × Option String :=
  match listSyncSchedules s.rows answers 0 with
  | .error err => (s,some ("failed to list schedules: " ++ err))
  | .ok schedules => ((schedules.foldl (loadSchedule answers) (s,1)).1,none)

def start (s : Scheduler lib) (answers : Answers) : Scheduler lib × Option String :=
  match s.loadAndScheduleAll answers with
  | (s,some err) =>
    ({ s with isRunning := false, startError := "failed to load schedules: " ++ err },
      some ("failed to load schedules: " ++ err))
  | (s,none) => ({ s with cron := lib.start s.cron, isRunning := true, startError := "" },none)

def scheduleActive (schedule : Schedule) (answers : Answers) (failure : String) : Scheduler lib × Option String :=
  if schedule.isActive then
    match s.scheduleJob schedule answers 1 with
    | (s,.error err) => (s,some (failure ++ err))
    | (s,.ok _) => (s,none)
  else (s,none)

def createSchedule (schedule : Schedule) (answers : Answers) : Scheduler lib × Option String :=
  match validateCron lib schedule.cronExpression with
  | some err => (s,some err)
  | none =>
    let schedule := { schedule with createdBy := if schedule.createdBy = "" then "system" else schedule.createdBy }
    match createSyncSchedule s.rows schedule answers 0 with
    | .error err => (s,some ("failed to create schedule: " ++ err))
    | .ok (rows,schedule) =>
      { s with rows := rows }.scheduleActive schedule answers "failed to schedule job: "

def updateSchedule (schedule : Schedule) (answers : Answers) : Scheduler lib × Option String :=
  match if schedule.cronExpression ≠ "" then validateCron lib schedule.cronExpression else none with
  | some err => (s,some err)
  | none =>
    let s := s.removeEntry schedule.id
    match updateSyncSchedule s.rows schedule answers 0 with
    | .error err => (s,some ("failed to update schedule: " ++ err))
    | .ok (rows,schedule) =>
      { s with rows := rows }.scheduleActive schedule answers "failed to reschedule job: "

def deleteSchedule (id : Int) (answers : Answers) : Scheduler lib × Option String :=
  let s := s.removeEntry id
  match deleteSyncSchedule s.rows id answers 0 with
  | .error err => (s,some ("failed to delete schedule: " ++ err))
  | .ok rows => ({ s with rows := rows },none)

def saveToggled (schedule : Schedule) (answers : Answers) (call : Nat) : Scheduler lib × Option String :=
  match updateSyncSchedule s.rows schedule answers call with
  | .error err => (s,some ("failed to update schedule: " ++ err))
  | .ok (rows,_) => ({ s with rows := rows },none)

def toggleSchedule (id : Int) (active : Bool) (answers : Answers) : Scheduler lib × Option String :=
  match getSyncSchedule s.rows id answers 0 with
  | .error err => (s,some ("failed to get schedule: " ++ err))
  | .ok none => (s,some ("schedule not found: " ++ toString id))
  | .ok (some schedule) =>
    let schedule := { schedule with isActive := active }
    let s := s.removeEntry id
    if active then
      match s.scheduleJob schedule answers 1 with
      | (s,.error err) => (s,some ("failed to schedule job: " ++ err))
      | (s,.ok schedule) => s.saveToggled schedule answers 2
    else s.saveToggled { schedule with nextRunAt := none } answers 1

inductive Operation where
  | start
  | create (schedule : Schedule)
  | update (schedule : Schedule)
  | delete (id : Int)
  | toggle (id : Int) (active : Bool)

def serve (operation : Operation) (answers : Answers) : Scheduler lib × Option String :=
  match operation with
  | .start => s.start answers
  | .create schedule => s.createSchedule schedule answers
  | .update schedule => s.updateSchedule schedule answers
  | .delete id => s.deleteSchedule id answers
  | .toggle id active => s.toggleSchedule id active answers

def call (s : Scheduler lib × Option String) (operation : Operation × Answers) : Scheduler lib × Option String :=
  s.1.serve operation.1 operation.2

def live (id : Int) : List String :=
  ((lib.entries s.cron).filter fun entry => entry.scheduleID = id).map (·.spec)

end Scheduler

def Schedule.specs (row : Schedule) : List String := if row.isActive then [row.cronExpression] else []

def wanted (rows : ScheduleTable) (id : Int) : List String := ((rows[id]?).map Schedule.specs).getD []

theorem wanted_written {rows rows' : ScheduleTable} {id : Int} {row : Option Schedule}
    (get : ∀ other, rows'[other]? = if id = other then row else rows[other]?) :
    wanted rows' = update (wanted rows) id ((row.map Schedule.specs).getD []) := by
  funext other
  rw [wanted,get,update_apply]
  by_cases same : other = id
  · simp [same]
  · rw [if_neg (Ne.symm same),if_neg same,wanted]

namespace Scheduler

variable {lib : CronLibrary}

/-- The scheduler's map names exactly the live entries, one for a schedule. -/
structure Indexed (s : Scheduler lib) : Prop where
  recorded : ∀ entry ∈ lib.entries s.cron, s.entries[entry.scheduleID]? = some entry.id
  present : ∀ (id : Int) (entryID : Nat), s.entries[id]? = some entryID →
    ∃ entry ∈ lib.entries s.cron, entry.scheduleID = id ∧ entry.id = entryID
  distinct : ∀ entry ∈ lib.entries s.cron, ∀ other ∈ lib.entries s.cron, entry.id = other.id →
    entry.scheduleID = other.scheduleID

variable {s : Scheduler lib} {rows : ScheduleTable}

variable {id : Int} {s' : Scheduler lib} {rows' : ScheduleTable} {answers : Answers} {schedule schedule' : Schedule}

theorem live_eq_nil : s.live id = [] ↔ ∀ entry ∈ lib.entries s.cron, entry.scheduleID ≠ id := by
  rw [live,map_eq_nil_iff]
  simp

theorem Indexed.unrecorded (indexed : s.Indexed) (idle : s.live id = []) : s.entries[id]? = none := by
  cases found : s.entries[id]? with
  | none => rfl
  | some entryID =>
    obtain ⟨entry,member,same,_⟩ := indexed.present id entryID found
    exact absurd same (live_eq_nil.mp idle entry member)

theorem Indexed.congr (indexed : s.Indexed) (cron : lib.entries s'.cron = lib.entries s.cron)
    (entries : s'.entries = s.entries) : s'.Indexed := by
  refine ⟨?_,?_,?_⟩
  · rw [cron,entries]
    exact indexed.recorded
  · rw [cron,entries]
    exact indexed.present
  · rw [cron]
    exact indexed.distinct

theorem removeEntry_idle (indexed : s.Indexed) (idle : s.live id = []) : s.removeEntry id = s := by
  rw [removeEntry,indexed.unrecorded idle]

@[simp] theorem removeEntry_rows (s : Scheduler lib) (id : Int) : (s.removeEntry id).rows = s.rows := by
  rw [removeEntry]
  split <;> rfl

@[simp] theorem removeEntry_jobTypes (s : Scheduler lib) (id : Int) : (s.removeEntry id).jobTypes = s.jobTypes := by
  rw [removeEntry]
  split <;> rfl

theorem removeEntry_spec (indexed : s.Indexed) (id : Int) :
    (s.removeEntry id).Indexed ∧ (s.removeEntry id).live = update s.live id [] := by
  rw [removeEntry]
  split
  next entryID found =>
    obtain ⟨entry,member,schedule,rfl⟩ := indexed.present id entryID found
    -- The entry that goes is the schedule's, and its id is no other entry's.
    have entries : lib.entries (lib.remove s.cron entry.id) = (lib.entries s.cron).filter fun other => other.scheduleID ≠ id := by
      rw [lib.entries_remove]
      refine filter_congr fun other there => decide_eq_decide.mpr (not_congr ⟨fun same => ?_,fun same => ?_⟩)
      · rw [indexed.distinct other there entry member same,schedule]
      · have recorded := indexed.recorded other there
        rw [same,found] at recorded
        exact (Option.some.inj recorded).symm
    have kept (other : CronEntry) :
        other ∈ lib.entries (lib.remove s.cron entry.id) ↔ other ∈ lib.entries s.cron ∧ other.scheduleID ≠ id := by
      rw [entries,mem_filter,decide_eq_true_iff]
    refine ⟨⟨?_,?_,?_⟩,?_⟩
    · intro other there
      obtain ⟨there,differs⟩ := (kept other).mp there
      rw [Book.get_erase,if_neg (Ne.symm differs)]
      exact indexed.recorded other there
    · intro otherID otherEntry there
      rw [Book.get_erase] at there
      split at there
      · cases there
      rename_i differs
      obtain ⟨other,listed,rfl,same⟩ := indexed.present otherID otherEntry there
      exact ⟨other,(kept other).mpr ⟨listed,Ne.symm differs⟩,rfl,same⟩
    · intro first there second there'
      exact indexed.distinct first ((kept first).mp there).1 second ((kept second).mp there').1
    · funext otherID
      rw [update_apply]
      split
      next same =>
        subst same
        exact live_eq_nil.mpr fun other there => ((kept other).mp there).2
      next differs =>
        rw [live,live,entries,filter_filter]
        congr 1
        refine filter_congr fun other _ => ?_
        by_cases same : other.scheduleID = otherID
        · simp [same,differs]
        · simp [same]
  next absent =>
    have idle : s.live id = [] := by
      refine live_eq_nil.mpr fun entry member same => ?_
      have recorded := indexed.recorded entry member
      rw [same,absent] at recorded
      cases recorded
    refine ⟨indexed,?_⟩
    rw [← idle,update_eq_self]

theorem addEntry_spec (indexed : s.Indexed) (idle : s.live id = []) {entryID : Nat}
    {spec : String} {cron : lib.State} (rows : ScheduleTable) (fresh : ∀ entry ∈ lib.entries s.cron, entry.id ≠ entryID)
    (added : lib.entries cron = lib.entries s.cron ++ [⟨entryID,spec,id⟩]) :
    let s' : Scheduler lib := { s with cron := cron, entries := s.entries.insert id entryID, rows := rows }
    s'.Indexed ∧ s'.live = update s.live id [spec] := by
  intro s'
  have unused := live_eq_nil.mp idle
  have member (entry : CronEntry) :
      entry ∈ lib.entries s'.cron ↔ entry ∈ lib.entries s.cron ∨ entry = ⟨entryID,spec,id⟩ := by
    rw [added,mem_append,mem_singleton]
  refine ⟨⟨?_,?_,?_⟩,?_⟩
  · intro entry there
    rw [Book.get_insert]
    obtain old | rfl := (member entry).mp there
    · rw [if_neg fun equal => unused entry old equal.symm]
      exact indexed.recorded entry old
    · exact if_pos rfl
  · intro otherID otherEntry there
    rw [Book.get_insert] at there
    split at there
    next same =>
      cases there
      exact ⟨_,(member _).mpr (.inr rfl),same,rfl⟩
    · obtain ⟨entry,listed,same⟩ := indexed.present otherID otherEntry there
      exact ⟨entry,(member entry).mpr (.inl listed),same⟩
  · intro first there second there' same
    obtain old | rfl := (member first).mp there
    · obtain old' | rfl := (member second).mp there'
      · exact indexed.distinct first old second old' same
      · exact absurd same (fresh first old)
    · obtain old' | rfl := (member second).mp there'
      · exact absurd same.symm (fresh second old')
      · rfl
  · funext otherID
    change ((lib.entries cron).filter fun entry => entry.scheduleID = otherID).map (·.spec) = _
    rw [added,filter_append,map_append,update_apply]
    split
    next same =>
      subst same
      change s.live otherID ++ _ = _
      rw [idle]
      simp
    next differs =>
      change s.live otherID ++ _ = _
      simp [Ne.symm differs]

def Keyed (rows : ScheduleTable) : Prop := ∀ (id : Int) (row : Schedule), rows[id]? = some row → row.id = id

def Consistent (s : Scheduler lib) : Prop := s.live = wanted s.rows

structure Settled (s : Scheduler lib) : Prop where
  keyed : Keyed s.rows
  indexed : s.Indexed
  consistent : s.Consistent

/-- A call that returns: the scheduler is settled, and unchanged if there is an error. -/
structure Returns (s : Scheduler lib) (result : Scheduler lib × Option String) : Prop where
  settled : result.1.Settled
  unchanged : result.2 ≠ none → result.1.rows = s.rows ∧ lib.entries result.1.cron = lib.entries s.cron

theorem Returns.refused (settled : s.Settled) (err : Option String) : Returns s (s,err) :=
  ⟨settled,fun _ => ⟨rfl,rfl⟩⟩

theorem Returns.done (settled : s'.Settled) : Returns s (s',none) :=
  ⟨settled,fun fails => absurd rfl fails⟩

def Saved (rows : ScheduleTable) (schedule : Schedule) (rows' : ScheduleTable) : Prop :=
  ∃ row : Schedule, row.id = schedule.id ∧ row.specs = schedule.specs ∧ rows' = rows.insert schedule.id row

theorem Keyed.put (keyed : Keyed rows) (id : Int) (row : Option Schedule) (same : ∀ value, row = some value → value.id = id) :
    Keyed (rows.put id row) :=
  Book.All.put keyed id row same

section
variable {schedule : Schedule} (saved : Saved rows schedule rows')
include saved

theorem Saved.keyed (keyed : Keyed rows) : Keyed rows' := by
  obtain ⟨row,same,_,rfl⟩ := saved
  exact keyed.put _ (some row) (by rintro _ ⟨⟩; exact same)

theorem Saved.wanted : wanted rows' = update (wanted rows) schedule.id schedule.specs := by
  obtain ⟨row,_,same,rfl⟩ := saved
  rw [wanted_written (Book.get_insert _ _ · _),← same]
  rfl

theorem Saved.found : (rows'[schedule.id]?).isSome := by
  obtain ⟨row,_,_,rfl⟩ := saved
  simp

end

theorem wanted_missing (missing : rows[id]? = none) : wanted rows id = [] := by
  rw [Sync.wanted,missing]
  rfl

theorem wanted_inactive (inactive : (rows[id]?).any (·.isActive) = false) : wanted rows id = [] := by
  rw [Sync.wanted]
  cases found : rows[id]? with
  | none => rfl
  | some row =>
    rw [found] at inactive
    have off : row.isActive = false := inactive
    simp [Schedule.specs,off]

section
variable (rows : ScheduleTable) (schedule : Schedule) (answers : Answers) (call : Nat)

theorem updateSyncSchedule_cases : (∃ err, updateSyncSchedule rows schedule answers call = .error err ∧
        (answers.storeError call ≠ none ∨ rows[schedule.id]? = none)) ∨
      ∃ (rows' : ScheduleTable) (schedule' : Schedule),
        updateSyncSchedule rows schedule answers call = .ok (rows',schedule') ∧
          answers.storeError call = none ∧ Saved rows schedule rows' ∧
          schedule'.id = schedule.id ∧ schedule'.isActive = schedule.isActive ∧
          schedule'.cronExpression = schedule.cronExpression ∧ schedule'.jobType = schedule.jobType := by
  rw [updateSyncSchedule]
  split
  next err fails =>
    exact .inl ⟨_,rfl,.inl (by rw [fails]; exact Option.some_ne_none err)⟩
  next answered =>
    split
    next missing =>
      exact .inl ⟨_,rfl,.inr missing⟩
    next row _ =>
      let written : Schedule :=
        { schedule with updatedAt := answers.now, createdAt := row.createdAt, createdBy := row.createdBy }
      exact .inr ⟨_,_,rfl,answered,⟨written,rfl,rfl,rfl⟩,rfl,rfl,rfl,rfl⟩

theorem createSyncSchedule_cases : (∃ err, createSyncSchedule rows schedule answers call = .error err) ∨
      ∃ (rows' : ScheduleTable) (schedule' : Schedule),
        createSyncSchedule rows schedule answers call = .ok (rows',schedule') ∧
          answers.storeError call = none ∧ Saved rows schedule' rows' ∧
          rows[schedule'.id]? = none ∧ schedule'.isActive = schedule.isActive ∧
          schedule'.cronExpression = schedule.cronExpression ∧ schedule'.jobType = schedule.jobType := by
  rw [createSyncSchedule]
  split
  · exact .inl ⟨_,rfl⟩
  rename_i answered
  split
  · exact .inl ⟨_,rfl⟩
  rename_i absent
  let written : Schedule := { schedule with
    id := answers.newID, createdAt := answers.now, updatedAt := answers.now
    lastRunAt := none, lastRunStatus := none, lastRunJobID := none }
  refine .inr ⟨_,_,rfl,answered,⟨written,rfl,rfl,rfl⟩,?_,rfl,rfl,rfl⟩
  simpa using absent

end

def schedulable (s : Scheduler lib) (schedule : Schedule) : Bool :=
  s.resolveJobType schedule.jobType ≠ "" ∧ lib.parseStandard schedule.cronExpression = none

theorem schedulable_congr (jobTypes : s'.jobTypes = s.jobTypes) (jobType : schedule'.jobType = schedule.jobType)
    (expression : schedule'.cronExpression = schedule.cronExpression) :
    s'.schedulable schedule' = s.schedulable schedule := by
  rw [schedulable,schedulable,resolveJobType,resolveJobType,jobTypes,jobType,expression]

theorem scheduleJob_refused (schedule : Schedule) (unable : s.schedulable schedule = false)
    (answers : Answers) (call : Nat) : ∃ err, s.scheduleJob schedule answers call = (s,.error err) := by
  rw [scheduleJob]
  split
  · exact ⟨_,rfl⟩
  rename_i known
  cases parses : lib.parseStandard schedule.cronExpression with
  | none => simp [schedulable,known,parses] at unable
  | some err =>
    rw [lib.addFunc_refused _ _ _ err parses]
    exact ⟨_,rfl⟩

/-- A schedule that is added, with its row written once more unless the store fails. -/
structure Scheduled (s : Scheduler lib) (schedule : Schedule) (s' : Scheduler lib) (schedule' : Schedule) : Prop where
  indexed : s'.Indexed
  live : s'.live = update s.live schedule.id [schedule.cronExpression]
  rows : s'.rows = s.rows ∨ Saved s.rows schedule s'.rows
  jobTypes : s'.jobTypes = s.jobTypes
  id : schedule'.id = schedule.id
  specs : schedule'.specs = schedule.specs

theorem scheduleJob_accepted (schedule : Schedule) (indexed : s.Indexed)
    (idle : s.live schedule.id = []) (able : s.schedulable schedule = true) (answers : Answers) (call : Nat) :
    ∃ (s' : Scheduler lib) (schedule' : Schedule),
      s.scheduleJob schedule answers call = (s',.ok schedule') ∧ Scheduled s schedule s' schedule' := by
  obtain ⟨known,parses⟩ := of_decide_eq_true able
  obtain ⟨entryID,cron,added,fresh,entries⟩ := lib.addFunc_accepted s.cron schedule.cronExpression schedule.id parses
  rw [scheduleJob,if_neg known,added]
  dsimp only
  obtain ⟨err,failed,_⟩ | ⟨rows,schedule',ok,_,saved,id,active,expression,_⟩ :=
    updateSyncSchedule_cases s.rows { schedule with nextRunAt := some (answers.nextRun entryID) } answers call
  · rw [failed]
    obtain ⟨indexed',live'⟩ := addEntry_spec indexed idle s.rows fresh entries
    exact ⟨_,_,rfl,indexed',live',.inl rfl,rfl,rfl,rfl⟩
  · rw [ok]
    obtain ⟨indexed',live'⟩ := addEntry_spec indexed idle rows fresh entries
    refine ⟨_,_,rfl,indexed',live',.inr saved,rfl,id,?_⟩
    rw [Schedule.specs,Schedule.specs,active,expression]

theorem Scheduled.keyed (scheduled : Scheduled s schedule s' schedule') (keyed : Keyed s.rows) : Keyed s'.rows := by
  obtain same | saved := scheduled.rows
  · rw [same]
    exact keyed
  · exact saved.keyed keyed

theorem Scheduled.wanted (scheduled : Scheduled s schedule s' schedule')
    (stored : wanted s.rows schedule.id = schedule.specs) : wanted s'.rows = wanted s.rows := by
  obtain same | saved := scheduled.rows
  · rw [same]
  · rw [saved.wanted,← stored,update_eq_self]

theorem scheduleActive_returns (keyed : Keyed s'.rows) (indexed : s'.Indexed)
    (able : schedule.isActive = true → s'.schedulable schedule = true)
    (stored : wanted s'.rows schedule.id = schedule.specs)
    (others : s'.live = update (wanted s'.rows) schedule.id []) (answers : Answers) (failure : String) :
    Returns s (s'.scheduleActive schedule answers failure) := by
  rw [scheduleActive]
  split
  next active =>
    have idle : s'.live schedule.id = [] := by rw [others,update_self]
    have expression : schedule.specs = [schedule.cronExpression] := by rw [Schedule.specs,active,if_pos rfl]
    obtain ⟨s'',schedule',ok,scheduled⟩ := scheduleJob_accepted schedule indexed idle (able active) answers 1
    rw [ok]
    refine .done ⟨scheduled.keyed keyed,scheduled.indexed,?_⟩
    rw [Consistent,scheduled.live,scheduled.wanted stored,others,update_idem,← expression,← stored,
      update_eq_self]
  next inactive =>
    have unwanted : schedule.specs = [] := by rw [Schedule.specs,if_neg inactive]
    refine .done ⟨keyed,indexed,?_⟩
    rw [Consistent,others,← unwanted,← stored,update_eq_self]

theorem Settled.removeEntry (settled : s.Settled) (id : Int) :
    (s.removeEntry id).Indexed ∧ (s.removeEntry id).live = update (wanted s.rows) id [] := by
  obtain ⟨indexed,live⟩ := removeEntry_spec settled.indexed id
  exact ⟨indexed,live.trans (by rw [settled.consistent])⟩

theorem Settled.idle (settled : s.Settled) (unwanted : wanted s.rows id = []) : s.removeEntry id = s :=
  removeEntry_idle settled.indexed ((congrFun settled.consistent id).trans unwanted)

def sparesActive (s : Scheduler lib) (id : Int) (answers : Answers) (call : Nat) : Bool :=
  answers.storeError call = none ∨ (s.rows[id]?).any (·.isActive) = false

theorem wanted_spared {call : Nat}
    (spares : s.sparesActive id answers call = true) (fails : answers.storeError call ≠ none ∨ s.rows[id]? = none) :
    wanted s.rows id = [] := by
  obtain fails | missing := fails
  · exact wanted_inactive ((of_decide_eq_true spares).resolve_left fails)
  · exact wanted_missing missing

theorem saveToggled_returns {call : Nat} (keyed : Keyed s'.rows) (indexed : s'.Indexed)
    (found : (s'.rows[schedule.id]?).isSome = true)
    (live : s'.live = update (wanted s'.rows) schedule.id schedule.specs)
    (fails : answers.storeError call ≠ none → s' = s ∧ s.Settled) :
    Returns s (s'.saveToggled schedule answers call) := by
  rw [saveToggled]
  obtain ⟨err,failed,refused⟩ | ⟨rows,schedule',ok,_,saved,_⟩ := updateSyncSchedule_cases s'.rows schedule answers call
  · rw [failed]
    obtain ⟨rfl,settled⟩ := fails (refused.resolve_right fun missing => by simp [missing] at found)
    exact .refused settled _
  · rw [ok]
    refine .done ⟨saved.keyed keyed,indexed.congr rfl rfl,?_⟩
    rw [Consistent,saved.wanted]
    exact live

/-- What a toggle needs: a schedule that can be added, whose last write succeeds, or one that
cannot and has no entry to lose; to take an entry out, a store that does not fail then. -/
def togglesSafely (s : Scheduler lib) (id : Int) (active : Bool) (answers : Answers) : Bool :=
  if active then
    (s.rows[id]?).all fun row => if s.schedulable row then answers.storeError 2 = none else row.isActive = false
  else s.sparesActive id answers 1

theorem load_adds (answers : Answers) (schedules : List Schedule) (s : Scheduler lib) (call : Nat)
    (keyed : Keyed s.rows) (indexed : s.Indexed) (distinct : (schedules.map (·.id)).Nodup)
    (able : ∀ schedule ∈ schedules, s.schedulable schedule = true)
    (idle : ∀ schedule ∈ schedules, s.live schedule.id = [])
    (stored : ∀ schedule ∈ schedules, schedule.isActive = true ∧ wanted s.rows schedule.id = schedule.specs) :
    let s' := (schedules.foldl (loadSchedule answers) (s,call)).1
    Keyed s'.rows ∧ s'.Indexed ∧ wanted s'.rows = wanted s.rows ∧
      ∀ id, s'.live id = if id ∈ schedules.map (·.id) then wanted s.rows id else s.live id := by
  induction schedules generalizing s call with
  | nil => exact ⟨keyed,indexed,rfl,fun id => (if_neg not_mem_nil).symm⟩
  | cons schedule schedules ih =>
    obtain ⟨fresh,distinct⟩ := nodup_cons.mp distinct
    obtain ⟨active,row⟩ := stored schedule mem_cons_self
    obtain ⟨s',schedule',ok,scheduled⟩ := scheduleJob_accepted schedule indexed (idle schedule mem_cons_self)
      (able schedule mem_cons_self) answers call
    have loaded : loadSchedule answers (s,call) schedule = (s',call + 1) := by rw [loadSchedule,ok]
    have wants := scheduled.wanted row
    have apart : ∀ other ∈ schedules, other.id ≠ schedule.id :=
      fun other member same => fresh (mem_map.mpr ⟨other,member,same⟩)
    rw [foldl_cons,loaded]
    obtain ⟨keyed',indexed',wants',live'⟩ := ih s' (call + 1) (scheduled.keyed keyed) scheduled.indexed distinct
      (fun other member => (schedulable_congr scheduled.jobTypes rfl rfl).trans (able other (mem_cons_of_mem _ member)))
      (fun other member => by
        rw [scheduled.live,Function.update_of_ne (apart other member)]
        exact idle other (mem_cons_of_mem _ member))
      (fun other member => by
        rw [wants]
        exact stored other (mem_cons_of_mem _ member))
    refine ⟨keyed',indexed',wants'.trans wants,fun id => ?_⟩
    rw [live' id,wants,map_cons]
    by_cases later : id ∈ schedules.map (·.id)
    · rw [if_pos later,if_pos (mem_cons_of_mem _ later)]
    · rw [if_neg later,scheduled.live,update_apply]
      by_cases same : id = schedule.id
      · subst same
        rw [if_pos rfl,if_pos mem_cons_self,row,Schedule.specs,active,if_pos rfl]
      · rw [if_neg same,if_neg (not_mem_cons_of_ne_of_not_mem same later)]

theorem mem_activeSchedules (keyed : Keyed rows) (row : Schedule) :
    row ∈ activeSchedules rows ↔ rows[row.id]? = some row ∧ row.isActive = true := by
  rw [activeSchedules,mem_insertionSort,mem_filter,mem_map]
  refine and_congr_left fun _ => ?_
  constructor
  · rintro ⟨⟨id,stored⟩,member,rfl⟩
    have found := mem_toList_iff_getElem?_eq_some.mp member
    rw [keyed id stored found]
    exact found
  · intro found
    exact ⟨(row.id,row),mem_toList_iff_getElem?_eq_some.mpr found,rfl⟩

theorem activeSchedules_distinct (keyed : Keyed rows) : ((activeSchedules rows).map (·.id)).Nodup := by
  have sorted : ((activeSchedules rows).map (·.id)).Perm (((rows.toList.map (·.2)).filter (·.isActive)).map (·.id)) :=
    (perm_insertionSort _ _).map _
  have keys : (rows.toList.map (·.2)).map (·.id) = rows.toList.map (·.1) := by
    rw [map_map]
    refine map_congr_left fun entry member => ?_
    exact keyed entry.1 entry.2 (mem_toList_iff_getElem?_eq_some.mp member)
  have all : ((rows.toList.map (·.2)).map (·.id)).Nodup := keys ▸ Book.nodup_keys rows
  rw [sorted.nodup_iff]
  exact all.sublist (filter_sublist.map _)

theorem wanted_unlisted (keyed : Keyed rows)
    (unlisted : id ∉ (activeSchedules rows).map (·.id)) : wanted rows id = [] := by
  cases found : rows[id]? with
  | none => exact wanted_missing found
  | some row =>
    obtain rfl : row.id = id := keyed id row found
    have inactive : row.isActive = false := Bool.eq_false_iff.mpr fun active =>
      unlisted (mem_map_of_mem ((mem_activeSchedules keyed row).mpr ⟨found,active⟩))
    refine wanted_inactive ?_
    rw [found]
    exact inactive

theorem start_returns (keyed : Keyed s.rows) (indexed : s.Indexed) (empty : lib.entries s.cron = []) (listed : answers.storeError 0 = none)
    (able : ∀ row ∈ activeSchedules s.rows, s.schedulable row = true) : Returns s (s.start answers) := by
  have idle (id : Int) : s.live id = [] := by
    rw [live,empty]
    rfl
  obtain ⟨keyed',indexed',wants,live'⟩ := load_adds answers (activeSchedules s.rows) s 1 keyed indexed
    (activeSchedules_distinct keyed) able (fun row _ => idle row.id) (fun row member => by
      obtain ⟨found,active⟩ := (mem_activeSchedules keyed row).mp member
      refine ⟨active,?_⟩
      rw [wanted,found]
      rfl)
  rw [start,loadAndScheduleAll,listSyncSchedules,listed]
  refine .done ⟨keyed',indexed'.congr (lib.entries_start _) rfl,?_⟩
  funext id
  rw [wants,live,lib.entries_start]
  refine (live' id).trans ?_
  split
  · rfl
  rename_i unlisted
  rw [idle,wanted_unlisted keyed unlisted]

def loaded (s : Scheduler lib) : Bool := lib.entries s.cron ≠ [] ∨ activeSchedules s.rows = []

/-- No schedule is stored that the library refuses, no store call fails with the entry of an
active row already taken out, and no scheduler with live entries is started. -/
def meets (s : Scheduler lib × Option String) (operation : Operation × Answers) : Bool :=
  let (s,answers) := (s.1,operation.2)
  match operation.1 with
  | .start =>
    if answers.storeError 0 = none then
      lib.entries s.cron = [] ∧ ∀ row ∈ activeSchedules s.rows, s.schedulable row = true
    else s.loaded
  | .create schedule =>
    s.loaded ∧ (validateCron lib schedule.cronExpression = none → answers.storeError 0 = none →
      schedule.isActive = true → s.schedulable schedule = true)
  | .update schedule =>
    s.loaded ∧ ((if schedule.cronExpression ≠ "" then validateCron lib schedule.cronExpression else none) = none →
      s.sparesActive schedule.id answers 0 = true ∧
        (answers.storeError 0 = none → schedule.isActive = true → s.schedulable schedule = true))
  | .delete id => s.loaded ∧ s.sparesActive id answers 0
  | .toggle id active => s.loaded ∧ (answers.storeError 0 = none → s.togglesSafely id active answers = true)

structure Kept (s : Scheduler lib) : Prop where
  keyed : Keyed s.rows
  indexed : s.Indexed
  consistent : lib.entries s.cron = [] ∨ s.Consistent

theorem Kept.settled (kept : s.Kept) (loaded : s.loaded = true) : s.Settled := by
  refine ⟨kept.keyed,kept.indexed,?_⟩
  obtain empty | consistent := kept.consistent
  · have none_ : activeSchedules s.rows = [] := (of_decide_eq_true loaded).resolve_left fun some_ => some_ empty
    funext id
    rw [live,empty,wanted_unlisted kept.keyed (by rw [none_]; exact not_mem_nil)]
    rfl
  · exact consistent

theorem Settled.kept (settled : s.Settled) : s.Kept :=
  ⟨settled.keyed,settled.indexed,.inr settled.consistent⟩

variable {last : Option String}

section
variable (kept : s.Kept)
include kept

theorem createSchedule_returns (met : meets (s,last) (.create schedule,answers) = true) :
    Returns s (s.createSchedule schedule answers) := by
  obtain ⟨loaded,able⟩ := of_decide_eq_true met
  have settled := kept.settled loaded
  rw [createSchedule]
  split
  · exact .refused settled _
  rename_i valid
  dsimp only
  obtain ⟨err,failed⟩ | ⟨rows,schedule',ok,answered,saved,absent,active,expression,jobType⟩ := createSyncSchedule_cases s.rows
    { schedule with createdBy := if schedule.createdBy = "" then "system" else schedule.createdBy } answers 0
  · rw [failed]
    exact .refused settled _
  · rw [ok]
    refine scheduleActive_returns (saved.keyed settled.keyed) ?_ ?_ ?_ ?_ answers _
    · exact settled.indexed.congr rfl rfl
    · intro on
      exact (schedulable_congr rfl jobType expression).trans (able valid answered (active.symm.trans on))
    · rw [saved.wanted,update_self]
    · rw [saved.wanted,update_idem,← wanted_missing absent,update_eq_self]
      exact settled.consistent

theorem updateSchedule_returns (met : meets (s,last) (.update schedule,answers) = true) :
    Returns s (s.updateSchedule schedule answers) := by
  obtain ⟨loaded,able⟩ := of_decide_eq_true met
  have settled := kept.settled loaded
  obtain ⟨indexed,others⟩ := settled.removeEntry schedule.id
  rw [updateSchedule]
  split
  · exact .refused settled _
  rename_i valid
  obtain ⟨spares,able⟩ := able valid
  dsimp only
  rw [removeEntry_rows]
  obtain ⟨err,failed,fails⟩ | ⟨rows,schedule',ok,answered,saved,id,active,expression,jobType⟩ :=
    updateSyncSchedule_cases s.rows schedule answers 0
  · rw [failed,settled.idle (wanted_spared spares fails)]
    exact .refused settled _
  · rw [ok]
    refine scheduleActive_returns (saved.keyed settled.keyed) ?_ ?_ ?_ ?_ answers _
    · exact indexed.congr rfl rfl
    · intro on
      exact (schedulable_congr (removeEntry_jobTypes s _) jobType expression).trans (able answered (active.symm.trans on))
    · rw [saved.wanted,id,update_self,Schedule.specs,Schedule.specs,active,expression]
    · rw [saved.wanted,id,update_idem]
      exact others

theorem deleteSchedule_returns (met : meets (s,last) (.delete id,answers) = true) :
    Returns s (s.deleteSchedule id answers) := by
  obtain ⟨loaded,spares⟩ := of_decide_eq_true met
  have settled := kept.settled loaded
  obtain ⟨indexed,others⟩ := settled.removeEntry id
  have refused (fails : answers.storeError 0 ≠ none ∨ s.rows[id]? = none) (err : String) : Returns s (s.removeEntry id,some err) := by
    rw [settled.idle (wanted_spared spares fails)]
    exact .refused settled _
  rw [deleteSchedule,removeEntry_rows,deleteSyncSchedule]
  cases answered : answers.storeError 0 with
  | some err => exact refused (.inl (by rw [answered]; exact Option.some_ne_none err)) _
  | none =>
    by_cases present : s.rows.contains id = true
    · rw [if_pos present]
      refine .done ⟨settled.keyed.put id none nofun,indexed.congr rfl rfl,?_⟩
      rw [Consistent,wanted_written (Book.get_erase _ _)]
      exact others
    · rw [if_neg present]
      exact refused (.inr (by simpa using present)) _

theorem toggleSchedule_returns {active : Bool} (met : meets (s,last) (.toggle id active,answers) = true) :
    Returns s (s.toggleSchedule id active answers) := by
  obtain ⟨loaded,safely⟩ := of_decide_eq_true met
  have settled := kept.settled loaded
  obtain ⟨indexed,others⟩ := settled.removeEntry id
  rw [toggleSchedule,getSyncSchedule]
  cases answered : answers.storeError 0 with
  | some => exact .refused settled _
  | none =>
    have safely := safely answered
    cases found : s.rows[id]? with
    | none => exact .refused settled _
    | some row =>
      obtain rfl : row.id = id := settled.keyed id row found
      cases active with
      | true =>
        have safe : if s.schedulable row then answers.storeError 2 = none else row.isActive = false := by
          simpa [togglesSafely,found] using safely
        dsimp only
        by_cases able : s.schedulable row = true
        · rw [if_pos able] at safe
          have idle : (s.removeEntry row.id).live row.id = [] := by rw [others,update_self]
          obtain ⟨s',schedule',ok,scheduled⟩ := scheduleJob_accepted { row with isActive := true } indexed idle
            ((schedulable_congr (removeEntry_jobTypes s _) rfl rfl).trans able) answers 1
          rw [ok]
          refine saveToggled_returns (scheduled.keyed (by rw [removeEntry_rows]; exact settled.keyed)) scheduled.indexed
            ?_ ?_ fun fails => absurd safe fails
          · rw [scheduled.id]
            obtain same | saved := scheduled.rows
            · rw [same]
              simp [found]
            · exact saved.found
          · rw [scheduled.live,others,scheduled.id,scheduled.specs,update_idem]
            obtain same | saved := scheduled.rows
            · rw [same,removeEntry_rows]
              rfl
            · rw [saved.wanted,removeEntry_rows,update_idem]
              rfl
        · have unable : s.schedulable row = false := Bool.eq_false_iff.mpr able
          rw [if_neg able] at safe
          obtain ⟨err,refused⟩ := scheduleJob_refused { row with isActive := true }
            ((schedulable_congr (removeEntry_jobTypes s row.id) rfl rfl).trans unable) answers 1
          have unwanted : wanted s.rows row.id = [] := wanted_inactive (by simp [found,safe])
          rw [refused,settled.idle unwanted]
          exact .refused settled _
      | false =>
        have spares : s.sparesActive row.id answers 1 = true := safely
        refine saveToggled_returns (by rw [removeEntry_rows]; exact settled.keyed) indexed ?_ ?_ fun fails => ?_
        · simp [found]
        · rw [removeEntry_rows,others]
          rfl
        · exact ⟨settled.idle (wanted_spared spares (.inl fails)),settled⟩

theorem serve_returns {operation : Operation} (met : meets (s,last) (operation,answers) = true) :
    Returns s (s.serve operation answers) := by
  cases operation with
  | start =>
    dsimp only [meets] at met
    split at met
    next listed =>
      obtain ⟨empty,able⟩ := of_decide_eq_true met
      exact start_returns kept.keyed kept.indexed empty listed able
    next fails =>
      obtain ⟨err,failed⟩ := Option.ne_none_iff_exists'.mp fails
      have settled := kept.settled met
      rw [serve,start,loadAndScheduleAll,listSyncSchedules,failed]
      exact ⟨⟨settled.keyed,settled.indexed.congr rfl rfl,settled.consistent⟩,fun _ => ⟨rfl,rfl⟩⟩
  | create => exact createSchedule_returns kept met
  | update => exact updateSchedule_returns kept met
  | delete => exact deleteSchedule_returns kept met
  | toggle => exact toggleSchedule_returns kept met

end

theorem newScheduler_kept (lib : CronLibrary) (jobTypes : Book String String) (keyed : Keyed rows) :
    (newScheduler lib rows jobTypes).Kept := by
  have empty : lib.entries (newScheduler lib rows jobTypes).cron = [] := lib.entries_new
  refine ⟨keyed,⟨?_,?_,?_⟩,.inl empty⟩
  · rw [empty]
    exact forall_mem_nil _
  · intro id entryID found
    change (∅ : Book Int Nat)[id]? = some entryID at found
    simp at found
  · rw [empty]
    exact forall_mem_nil _

/-- When an operation returns, the live entries are one for each active row, with its
expression, and with an error neither rows nor entries have changed. -/
def Returned (before after : Scheduler lib × Option String) : Prop :=
  after.1.Consistent ∧
    (after.2 ≠ none → after.1.rows = before.1.rows ∧ lib.entries after.1.cron = lib.entries before.1.cron)

/-- Rows and entries agree through every sequence of operations on any rows, whatever the store
answers, as long as each operation meets the condition. -/
theorem scheduler_consistent (lib : CronLibrary) (rows : ScheduleTable) (jobTypes : Book String String) (keyed : Keyed rows)
    (operations : List (Operation × Answers))
    (orderly : Guarded call (fun s operation => meets s operation = true) (newScheduler lib rows jobTypes,none) operations) :
    Linked call Returned (newScheduler lib rows jobTypes,none) operations := by
  have kept (s : Scheduler lib × Option String) (operation : Operation × Answers) (kept : s.1.Kept)
      (met : meets s operation = true) : (call s operation).1.Kept := (serve_returns kept met).settled.kept
  refine linked_invariant kept ?_ (newScheduler_kept lib jobTypes keyed) orderly
  intro s operation kept met
  have returns := serve_returns kept met
  exact ⟨returns.settled.consistent,returns.unchanged⟩

structure CronEntries where
  entries : List CronEntry
  nextID : Nat
  bounded : ∀ entry ∈ entries, entry.id ≤ nextID

def CronEntries.add (c : CronEntries) (spec : String) (scheduleID : Int) : CronEntries where
  entries := c.entries ++ [⟨c.nextID + 1,spec,scheduleID⟩]
  nextID := c.nextID + 1
  bounded := by
    intro entry member
    obtain old | new := mem_append.mp member
    · exact Nat.le_succ_of_le (c.bounded entry old)
    · rw [mem_singleton.mp new]

def CronEntries.remove (c : CronEntries) (id : Nat) : CronEntries where
  entries := c.entries.filter fun entry => entry.id ≠ id
  nextID := c.nextID
  bounded := by
    intro entry member
    exact c.bounded entry (mem_filter.mp member).1

def fieldError (fields : Nat) (spec : String) : Option String :=
  if spec.toList.count ' ' + 1 = fields then none else some ("expected exactly " ++ toString fields ++ " fields")

def fieldCron : CronLibrary where
  State := CronEntries
  entries c := c.entries
  new := ⟨[],0,by simp⟩
  start c := c
  parseStandard := fieldError 5
  parseSeconds := fieldError 6
  addFunc c spec scheduleID :=
    match fieldError 5 spec with
    | some err => .error err
    | none => .ok (c.nextID + 1,c.add spec scheduleID)
  remove c id := c.remove id
  entries_new := rfl
  entries_start _ := rfl
  addFunc_refused := by
    intro c spec scheduleID err refused
    rw [refused]
  addFunc_accepted := by
    intro c spec scheduleID accepted
    rw [accepted]
    refine ⟨c.nextID + 1,c.add spec scheduleID,rfl,fun entry member => ?_,rfl⟩
    have bound := c.bounded entry member
    omega
  entries_remove _ _ := rfl

def daily : Schedule := ⟨0,"daily","","stocks","0 2 * * *","{}",true,none,none,none,none,0,0,"ui"⟩

def storeAnswers : Answers := ⟨fun _ => none,1,fun _ => 2,1⟩

def storeDown : Answers := ⟨fun _ => some "connection lost",1,fun _ => 2,1⟩

/-- A schedule is created, kept when the store fails to list or to find it, switched off and on
and changed. -/
theorem daily_consistent :
    let operations : List (Operation × Answers) :=
      [(.create daily,storeAnswers),(.start,storeDown),(.toggle 1 false,storeDown),(.toggle 1 false,storeAnswers),
        (.delete 1,storeDown),(.toggle 1 true,storeAnswers),
        (.update { daily with id := 1, cronExpression := "0 3 * * *" },storeAnswers)]
    let start : Scheduler fieldCron := newScheduler fieldCron ∅ ∅
    (run call (start,none) operations).1.live 1 = ["0 3 * * *"] ∧ Linked call Returned (start,none) operations :=
  ⟨by decide +kernel,scheduler_consistent fieldCron ∅ ∅ (fun _ _ found => by simp at found) _ (by decide +kernel)⟩

/-- A delete that fails at the store has taken the entry of an active row; a schedule with
seconds is stored and then refused; a second start adds every entry again. -/
theorem daily_inconsistent :
    let created := (newScheduler fieldCron ∅ ∅).createSchedule daily storeAnswers
    let deleted := created.1.deleteSchedule 1 storeDown
    let seconds := (newScheduler fieldCron ∅ ∅).createSchedule { daily with cronExpression := "0 0 2 * * *" } storeAnswers
    (created.2 = none ∧ created.1.live 1 = ["0 2 * * *"]) ∧
      (deleted.2 = some "failed to delete schedule: failed to delete sync schedule: connection lost" ∧
        deleted.1.live 1 = [] ∧ wanted deleted.1.rows 1 = ["0 2 * * *"]) ∧
      (seconds.2 = some "failed to schedule job: failed to add cron job: expected exactly 5 fields" ∧
        seconds.1.live 1 = [] ∧ wanted seconds.1.rows 1 = ["0 0 2 * * *"]) ∧
      (created.1.start storeAnswers).1.live 1 = ["0 2 * * *","0 2 * * *"] := by
  decide +kernel

end Scheduler

end QuantTrading.Sync
