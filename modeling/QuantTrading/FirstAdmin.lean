import QuantTrading.Library.Interleaving

/-! The creation of the first administrator by overlapping calls. The database may refuse each
statement of a call, or carry it out with its answer lost. The advisory lock is held from its
statement to the end of the transaction, which for an abandoned connection comes later.
-/
namespace QuantTrading.Auth
open Library List

inductive Role where
  | viewer
  | trader
  | admin
deriving DecidableEq

structure User where
  id : ℕ
  (username passwordHash : String)
  role : Role
deriving DecidableEq

inductive AuthError where
  | bootstrapClosed
  | invalidInput
  | bcryptFailed
  | begin
  | bootstrapLock
  | countUsers
  | insertFirstAdmin
  | commitBootstrap
  | userNotFound
  | getUser
deriving DecidableEq

structure Service where
  secret : List UInt8
  bcrypt : String → Option String

variable (s : Service)

def Service.enabled : Bool := s.secret.length > 0

/-- What `CreateFirstAdmin` returned, beside the users there were when it obtained the lock. -/
structure Return where
  result : Except AuthError User
  atLock : Option (List User)

/-- The committed rows, the sequence of their ids, the advisory lock, and what the calls returned. -/
structure Database where
  users : List User
  nextId : ℕ
  locked : Bool
  returned : List Return

inductive Answer where
  | done
  | refused
  | lost
deriving DecidableEq

/-- Where a call stands. The users at the time of the lock are carried for the record only. -/
inductive Call where
  | createFirstAdmin (username password : String)
  | begun (username hash : String)
  | lockHeld (username hash : String) (atLock : List User)
  | counted (username hash : String) (atLock : List User)
  | inserted (row : User) (atLock : List User)
  | committed (id : ℕ) (atLock : List User)
  | rollback (error : AuthError) (atLock : Option (List User))
  | abandoned (locked : Bool)
  | createUser (username hash : String) (role : Role)

def Call.starts : Call → Bool
  | .createFirstAdmin _ _ => true
  | .createUser _ _ _ => true
  | _ => false

namespace Database

variable (db : Database)

def returns (result : Except AuthError User) (atLock : Option (List User)) : Database :=
  { db with returned := db.returned ++ [⟨result,atLock⟩] }

def taken (username : String) : Bool := db.users.any (·.username = username)

def unlock (held : Bool) : Database := if held then { db with locked := false } else db

def step (s : Service) (db : Database) : Call → Answer → Database × Option Call
  | .createFirstAdmin username password,answer =>
    if ¬ s.enabled then (db.returns (.error .bootstrapClosed) none,none)
    else if username = "" ∨ password.utf8ByteSize < 8 then (db.returns (.error .invalidInput) none,none)
    else match s.bcrypt password with
    | none => (db.returns (.error .bcryptFailed) none,none)
    | some hash =>
      match answer with
      | .done => (db,some (.begun username hash))
      | _ => (db.returns (.error .begin) none,none)
  | .begun username hash,answer =>
    match answer with
    | .refused => (db,some (.rollback .bootstrapLock none))
    | .done =>
      -- while another transaction holds the lock the statement waits
      if db.locked then (db,some (.begun username hash))
      else ({ db with locked := true },some (.lockHeld username hash db.users))
    | .lost =>
      if db.locked then (db,some (.begun username hash))
      else ({ db with locked := true },some (.rollback .bootstrapLock (some db.users)))
  | .lockHeld username hash atLock,answer =>
    match answer with
    | .done =>
      if db.users.length > 0 then (db,some (.rollback .bootstrapClosed (some atLock)))
      else (db,some (.counted username hash atLock))
    | _ => (db,some (.rollback .countUsers (some atLock)))
  | .counted username hash atLock,answer =>
    match answer with
    | .done =>
      let drawn := { db with nextId := db.nextId + 1 }
      if db.taken username then (drawn,some (.rollback .bootstrapClosed (some atLock)))
      else (drawn,some (.inserted ⟨db.nextId,username,hash,.admin⟩ atLock))
    | _ => (db,some (.rollback .insertFirstAdmin (some atLock)))
  | .inserted row atLock,answer =>
    let applied := { db with users := db.users ++ [row], locked := false }
    match answer with
    | .done => (applied,some (.committed row.id atLock))
    | .refused => (db,some (.rollback .commitBootstrap (some atLock)))
    | .lost => (applied.returns (.error .commitBootstrap) (some atLock),none)
  | .committed id atLock,answer =>
    match answer with
    | .done =>
      match db.users.find? (·.id = id) with
      | none => (db.returns (.error .userNotFound) (some atLock),none)
      | some user => (db.returns (.ok user) (some atLock),none)
    | _ => (db.returns (.error .getUser) (some atLock),none)
  | .rollback error atLock,answer =>
    match answer with
    | .refused => (db.returns (.error error) atLock,some (.abandoned atLock.isSome))
    | _ => ((db.unlock atLock.isSome).returns (.error error) atLock,none)
  | .abandoned locked,_ => (db.unlock locked,none)
  | .createUser username hash role,answer =>
    match answer with
    | .refused => (db,none)
    | _ =>
      if db.taken username then (db,none)
      else ({ db with users := db.users ++ [⟨db.nextId,username,hash,role⟩], nextId := db.nextId + 1 },none)

end Database

def calls : Protocol Database Call Answer := ⟨Call.starts,Database.step s⟩

namespace Call

def holds : Call → Bool
  | .lockHeld _ _ _ => true
  | .counted _ _ _ => true
  | .inserted _ _ => true
  | .rollback _ atLock => atLock.isSome
  | .abandoned locked => locked
  | _ => false

def checked : Call → Bool
  | .counted _ _ _ => true
  | .inserted _ _ => true
  | _ => false

def won : Call → Bool
  | .committed _ _ => true
  | _ => false

/-- Behind the count a call knows that there was no user; before it, that none has gone since. -/
def Recorded (users : List User) : Call → Prop
  | .lockHeld _ _ atLock => atLock.length ≤ users.length
  | .counted _ _ atLock => atLock = []
  | .inserted _ atLock => atLock = []
  | .committed _ atLock => atLock = []
  | _ => True

theorem holds_of_checked {c : Call} (checked : c.checked = true) : c.holds = true := by
  cases c with
  | counted => rfl
  | inserted => rfl
  | _ => cases checked

end Call

def Return.succeeded (r : Return) : Bool := r.result.isOk

def Database.successes (db : Database) : ℕ := db.returned.countP Return.succeeded

/-- The effect of a step on the lock, on the calls that have won, on the users and on what is
recorded. Only the commit of a call behind its count adds a winner. -/
structure Effect (db : Database) (c : Call) (out : Database × Option Call) : Prop where
  lock : out.2.toList.countP Call.holds + db.locked.toNat = c.holds.toNat + out.1.locked.toNat
  won : out.1.successes + out.2.toList.countP Call.won ≤ db.successes + c.won.toNat ∨
    c.checked = true ∧ out.1.successes + out.2.toList.countP Call.won = db.successes + 1 ∧
      out.1.users ≠ [] ∧ ∀ next ∈ out.2, next.checked = false
  checked : ∀ next ∈ out.2, next.checked = true → c.checked = true ∨ db.users = []
  grows : db.users.length ≤ out.1.users.length
  recorded : ∀ next ∈ out.2, next.Recorded out.1.users
  returned : ∀ r ∈ out.1.returned, r ∈ db.returned ∨ (r.succeeded = true → r.atLock = some [])

section Effects
variable {db after : Database} {c next : Call}

theorem Effect.goes (lock : next.holds.toNat + db.locked.toNat = c.holds.toNat + after.locked.toNat)
    (users : after.users = db.users) (returned : after.returned = db.returned) (waits : next.won = false)
    (checked : next.checked = true → c.checked = true ∨ db.users = []) (recorded : next.Recorded db.users) :
    Effect db c (after,some next) := by
  have alone (p : Call → Bool) : (some next).toList.countP p = (p next).toNat := by
    cases held : p next <;> simp [held]
  refine ⟨?_,.inl ?_,?_,?_,?_,?_⟩
  · exact lock
  · rw [alone,waits,Database.successes,returned]
    exact Nat.le_add_right _ _
  · rintro _ ⟨⟩
    exact checked
  · rw [users]
  · rintro _ ⟨⟩
    rw [users]
    exact recorded
  · intro r member
    rw [returned] at member
    exact .inl member

theorem Effect.fails {error : AuthError} {atLock : Option (List User)} {rest : Option Call}
    (lock : rest.toList.countP Call.holds + db.locked.toNat = c.holds.toNat + after.locked.toNat)
    (users : db.users.length ≤ after.users.length) (returned : after.returned = db.returned)
    (over_ : ∀ next ∈ rest, ∃ held, next = .abandoned held) :
    Effect db c (after.returns (.error error) atLock,rest) := by
  have lost : rest.toList.countP Call.won = 0 := by
    refine countP_eq_zero.mpr fun next member => ?_
    obtain ⟨held,rfl⟩ := over_ next (Option.mem_toList.mp member)
    exact Bool.false_ne_true
  refine ⟨lock,.inl ?_,?_,users,?_,?_⟩
  · simp [lost,Database.successes,Database.returns,returned,Return.succeeded,Except.isOk,Except.toBool]
  · intro next member checked
    obtain ⟨held,rfl⟩ := over_ next member
    cases checked
  · intro next member
    obtain ⟨held,rfl⟩ := over_ next member
    trivial
  · intro r member
    rcases mem_append.mp member with old | new
    · rw [returned] at old
      exact .inl old
    · obtain rfl := mem_singleton.mp new
      exact .inr fun succeeded => by cases succeeded

theorem users_unlock (db : Database) (held : Bool) : (db.unlock held).users = db.users := by
  cases held <;> rfl

theorem returned_unlock (db : Database) (held : Bool) : (db.unlock held).returned = db.returned := by
  cases held <;> rfl

theorem locked_unlock (held : c.holds = true → db.locked = true) :
    db.locked.toNat = c.holds.toNat + (db.unlock c.holds).locked.toNat := by
  unfold Database.unlock
  cases holding : c.holds with
  | false => simp
  | true => simp [held holding]

theorem step_effect (s : Service) (answer : Answer) (locked : c.holds = true → db.locked = true)
    (recorded : c.Recorded db.users) : Effect db c (db.step s c answer) := by
  have moves {next : Call} (lock : next.holds = c.holds) (waits : next.won = false) (unchecked : next.checked = false)
      (recorded : next.Recorded db.users) : Effect db c (db,some next) :=
    .goes (by rw [lock]) rfl rfl waits (by simp [unchecked]) recorded
  cases c with
  | createFirstAdmin =>
    unfold Database.step
    dsimp only
    repeat' split
    all_goals first | exact .fails rfl le_rfl rfl (by simp) | exact moves rfl rfl rfl trivial
  | begun username hash =>
    unfold Database.step
    dsimp only
    split
    · exact moves rfl rfl rfl trivial
    · split
      · exact moves rfl rfl rfl trivial
      rename_i free
      exact .goes (by simp [Call.holds,free]) rfl rfl rfl (by simp [Call.checked]) le_rfl
    · split
      · exact moves rfl rfl rfl trivial
      rename_i free
      exact .goes (by simp [Call.holds,free]) rfl rfl rfl (by simp [Call.checked]) trivial
  | lockHeld username hash atLock =>
    unfold Database.step
    dsimp only
    split
    · split
      · exact moves rfl rfl rfl trivial
      rename_i none_
      have empty : db.users = [] := eq_nil_of_length_eq_zero (Nat.eq_zero_of_not_pos none_)
      refine .goes rfl rfl rfl rfl (fun _ => .inr empty) ?_
      rw [Call.Recorded,empty] at recorded
      exact eq_nil_of_length_eq_zero (Nat.le_zero.mp recorded)
    · exact moves rfl rfl rfl trivial
  | counted =>
    unfold Database.step
    dsimp only
    split
    · split
      · exact .goes rfl rfl rfl rfl (by simp [Call.checked]) trivial
      · exact .goes rfl rfl rfl rfl (fun _ => .inl rfl) recorded
    · exact moves rfl rfl rfl trivial
  | inserted =>
    have held : db.locked = true := locked rfl
    unfold Database.step
    dsimp only
    split
    · refine ⟨by simp [Call.holds,held],.inr ⟨rfl,?_,by simp,?_⟩,?_,by simp,?_,fun r member => .inl member⟩
      · simp [Database.successes,Call.won]
      · rintro _ ⟨⟩
        rfl
      · rintro _ ⟨⟩ checked
        cases checked
      · rintro _ ⟨⟩
        exact recorded
    · exact moves rfl rfl rfl trivial
    · exact .fails (by simp [Call.holds,held]) (by simp) rfl (by simp)
  | committed id atLock =>
    unfold Database.step
    dsimp only
    split
    · split
      · exact .fails rfl le_rfl rfl (by simp)
      refine ⟨rfl,.inl ?_,by simp,le_rfl,by simp,?_⟩
      · simp [Database.successes,Database.returns,Return.succeeded,Except.isOk,Except.toBool,Call.won]
      · intro r member
        rcases mem_append.mp member with old | new
        · exact .inl old
        · obtain rfl := mem_singleton.mp new
          exact .inr fun _ => congrArg some recorded
    · exact .fails rfl le_rfl rfl (by simp)
  | rollback error atLock =>
    unfold Database.step
    dsimp only
    split
    · refine .fails ?_ le_rfl rfl fun next member => ⟨_,(Option.some.inj member).symm⟩
      cases atLock <;> simp [Call.holds]
    · refine .fails ?_ ?_ ?_ (by simp)
      · exact (Nat.zero_add _).trans (locked_unlock locked)
      · rw [users_unlock]
      · exact returned_unlock _ _
  | abandoned =>
    unfold Database.step
    refine ⟨?_,.inl ?_,by simp,?_,by simp,?_⟩
    · exact (Nat.zero_add _).trans (locked_unlock locked)
    · simp [Database.successes,returned_unlock]
    · rw [users_unlock]
    · intro r member
      rw [returned_unlock] at member
      exact .inl member
  | createUser username hash role =>
    have idle : Effect db (.createUser username hash role) (db,none) :=
      ⟨rfl,.inl le_rfl,by simp,le_rfl,by simp,fun r member => .inl member⟩
    unfold Database.step
    dsimp only
    iterate 2 (split; · exact idle)
    · exact ⟨rfl,.inl le_rfl,by simp,by simp,by simp,fun r member => .inl member⟩

end Effects

/-- One call holds the lock, at most one has won, and none that has counted no user goes on beside
a winner. -/
structure Exclusive (pool : Pool Database Call) : Prop where
  lock : pool.calls.countP Call.holds = pool.shared.locked.toNat
  once : pool.shared.successes + pool.calls.countP Call.won ≤ 1
  closed : pool.shared.users = [] → pool.shared.successes + pool.calls.countP Call.won = 0
  ahead : ∀ c ∈ pool.calls, c.checked = true → pool.shared.successes + pool.calls.countP Call.won = 0
  recorded : ∀ c ∈ pool.calls, c.Recorded pool.shared.users
  returned : ∀ r ∈ pool.shared.returned, r.succeeded = true → r.atLock = some []

theorem Call.Recorded.mono {users more : List User} {c : Call} (recorded : c.Recorded users)
    (grows : users.length ≤ more.length) : c.Recorded more := by
  cases c with
  | lockHeld => exact le_trans recorded grows
  | _ => exact recorded

section Interleavings
variable {db : Database} {before after : List Call} {c : Call}

theorem countP_split (p : Call → Bool) :
    (before ++ c :: after).countP p = before.countP p + (p c).toNat + after.countP p := by
  cases held : p c with
  | false => simp [held]
  | true =>
    simp only [countP_append,countP_cons,held,if_true,Bool.toNat_true]
    omega

theorem Exclusive.holder (exclusive : Exclusive ⟨db,before ++ c :: after⟩) (holds : c.holds = true) :
    db.locked = true ∧ ∀ other, other ∈ before ∨ other ∈ after → other.holds = false := by
  have lock := exclusive.lock
  simp only [countP_split,holds,Bool.toNat_true] at lock
  have bound := Bool.toNat_le db.locked
  have none_ : before.countP Call.holds = 0 ∧ after.countP Call.holds = 0 := by omega
  refine ⟨?_,fun other member => Bool.eq_false_iff.mpr ?_⟩
  · cases free : db.locked with
    | true => rfl
    | false =>
      rw [free,Bool.toNat_false] at lock
      omega
  · rcases member with first | last
    · exact countP_eq_zero.mp none_.1 other first
    · exact countP_eq_zero.mp none_.2 other last

theorem Exclusive.step (s : Service) (exclusive : Exclusive ⟨db,before ++ c :: after⟩) (answer : Answer) :
    Exclusive ⟨(db.step s c answer).1,before ++ (db.step s c answer).2.toList ++ after⟩ := by
  have own : c ∈ before ++ c :: after := mem_append_right _ mem_cons_self
  have waiting {other : Call} (member : other ∈ before ∨ other ∈ after) : other ∈ before ++ c :: after := by
    rcases member with first | last
    · exact mem_append_left _ first
    · exact mem_append_right _ (mem_cons_of_mem _ last)
  have effect := step_effect s answer (fun holds => (exclusive.holder holds).1) (exclusive.recorded c own)
  generalize db.step s c answer = out at effect ⊢
  have lock := exclusive.lock
  have once := exclusive.once
  have closed := exclusive.closed
  have ahead := exclusive.ahead
  simp only [countP_split] at lock once closed ahead
  have members {d : Call} (member : d ∈ before ++ out.2.toList ++ after) : d ∈ out.2 ∨ d ∈ before ∨ d ∈ after := by
    simp only [mem_append,Option.mem_toList] at member
    tauto
  refine ⟨?_,?_,?_,?_,?_,?_⟩
  · have moved := effect.lock
    simp only [countP_append]
    omega
  · simp only [countP_append]
    rcases effect.won with quiet | ⟨checked,wins,-,-⟩
    · omega
    · have open_ := ahead c own checked
      omega
  · intro empty
    have was : db.users = [] := by
      have grows := effect.grows
      rw [empty] at grows
      exact eq_nil_of_length_eq_zero (Nat.le_zero.mp grows)
    have open_ := closed was
    simp only [countP_append]
    rcases effect.won with quiet | ⟨-,-,some_,-⟩
    · omega
    · exact absurd empty some_
  · intro d member checked
    simp only [countP_append]
    rcases effect.won with quiet | ⟨counted,-,-,stops⟩
    · have open_ : db.successes + (before.countP Call.won + c.won.toNat + after.countP Call.won) = 0 := by
        rcases members member with goesOn | waits
        · exact (effect.checked d goesOn checked).elim (ahead c own) closed
        · exact ahead d (waiting waits) checked
      omega
    · rcases members member with goesOn | waits
      · rw [stops d goesOn] at checked
        cases checked
      · have idle := (exclusive.holder (Call.holds_of_checked counted)).2 d waits
        rw [Call.holds_of_checked checked] at idle
        cases idle
  · intro d member
    rcases members member with goesOn | waits
    · exact effect.recorded d goesOn
    · exact (exclusive.recorded d (waiting waits)).mono effect.grows
  · intro r member succeeded
    rcases effect.returned r member with old | fits
    · exact exclusive.returned r old succeeded
    · exact fits succeeded

end Interleavings

theorem Call.fresh {c : Call} (starts : c.starts = true) (users : List User) :
    c.holds = false ∧ c.won = false ∧ c.checked = false ∧ c.Recorded users := by
  cases c with
  | createFirstAdmin | createUser => exact ⟨rfl,rfl,rfl,trivial⟩
  | _ => cases starts

theorem exclusive_moved {s : Service} {pool next : Pool Database Call}
    (moved : (calls s).Moved (fun _ _ _ => true) pool next) (exclusive : Exclusive pool) : Exclusive next := by
  cases moved with
  | idle => exact exclusive
  | step db before c after answer => exact exclusive.step s answer
  | call db waiting c begins =>
    obtain ⟨free,behind,unchecked,recorded⟩ := Call.fresh begins db.users
    have holds : [c].countP Call.holds = 0 := by simp [free]
    have won : [c].countP Call.won = 0 := by simp [behind]
    refine ⟨?_,?_,?_,?_,?_,exclusive.returned⟩
    · rw [countP_append,holds]
      exact exclusive.lock
    · rw [countP_append,won]
      exact exclusive.once
    · rw [countP_append,won]
      exact exclusive.closed
    · rw [countP_append,won]
      intro d member checked
      rcases mem_append.mp member with old | new
      · exact exclusive.ahead d old checked
      · rw [mem_singleton.mp new,unchecked] at checked
        cases checked
    · intro d member
      rcases mem_append.mp member with old | new
      · exact exclusive.recorded d old
      · rw [mem_singleton.mp new]
        exact recorded

def outcomes (users : List User) (nextId : ℕ) (moves : List (Move Call Answer)) : List Return :=
  (run (calls s).move ⟨⟨users,nextId,false,[]⟩,[]⟩ moves).shared.returned

/-- At most one of any concurrent calls makes the first admin, and it found no user when it held
the lock. -/
theorem createFirstAdmin_once (users : List User) (nextId : ℕ) (moves : List (Move Call Answer)) :
    (outcomes s users nextId moves).countP Return.succeeded ≤ 1 ∧
      ∀ r ∈ outcomes s users nextId moves, r.succeeded = true → r.atLock = some [] := by
  have start : Exclusive ⟨⟨users,nextId,false,[]⟩,[]⟩ :=
    ⟨rfl,Nat.zero_le _,fun _ => rfl,forall_mem_nil _,forall_mem_nil _,forall_mem_nil _⟩
  have exclusive := (Protocol.Orderly.along (fun _ _ moved => exclusive_moved moved) start
    (Protocol.orderly_any (p := calls s) _ moves)).last
  exact ⟨(Nat.le_add_right _ _).trans exclusive.once,exclusive.returned⟩

end QuantTrading.Auth
