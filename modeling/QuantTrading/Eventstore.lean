import QuantTrading.Msgbus

/-! The event store, the tap of the bus. It writes a message as a row of the message log and only
then answers that it is recorded. It also keeps how many rows of its own were there before its
first insert and how many it inserted, and checks them against the log.
-/
namespace QuantTrading
open Library Msgbus List

namespace Eventstore

/-- A row of `audit.message_log`, the time in microseconds as the column keeps it. -/
structure Row (J : Type) where
  ts : Int
  topic : String
  payload : J
  publisher : String
  runID : Option String
deriving DecidableEq

inductive StoreError (Err : Type) where
  | nilMessage
  | emptyTopic
  | payloadNotMarshalable (cause : Err)
  | canceled (topic : String) (cause : Err)
  | noBaseline (topic : Option String) (cause : Err)
  | insertFailed (topic : String) (cause : Err)
  | countFailed (cause : Err)
  | miscounted (got baseline appended : Nat)
  | corrupt (rows : Nat)
deriving DecidableEq

/-- An insert that failed for the client may have been made all the same. -/
inductive Insert (Err : Type) where
  | done
  | failed (cause : Err) (written : Bool)

/-- What context and database answer during one call, and what others make of the log before it:
they may add rows and, as operators do for retention, delete some. -/
structure Answers (J Err : Type) where
  others : List (Row J) → List (Row J)
  (ctx count : Option Err)
  insert : Insert Err

end Eventstore

open Eventstore

structure PGEventStore (J : Type) where
  (publisher runID : String)
  appended : Nat
  baseline : Option Nat
  log : List (Row J)

namespace PGEventStore
variable {P J Err : Type}

def textOrNull (s : String) : Option String := if s = "" then none else some s

variable (s : PGEventStore J)

def Own (row : Row J) : Prop := row.publisher = s.publisher ∧ row.runID = textOrNull s.runID

instance (s : PGEventStore J) (row : Row J) : Decidable (s.Own row) := inferInstanceAs (Decidable (_ ∧ _))

def count : Nat := s.log.countP (s.Own ·)

def ensureBaseline (a : Answers J Err) : Except Err (PGEventStore J) :=
  match s.baseline, a.count with
  | some _, _ => .ok s
  | none, some cause => .error cause
  | none, none => .ok { s with baseline := some s.count }

def row (msg : Envelope P) (payload : J) : Row J :=
  ⟨msg.ts / 1000,msg.topic,payload,s.publisher,textOrNull s.runID⟩

def append (marshal : P → Except Err J) (s : PGEventStore J) (a : Answers J Err) (msg : Option (Envelope P)) :
    PGEventStore J × Option (StoreError Err) :=
  let s := { s with log := a.others s.log }
  match msg with
  | none => (s,some .nilMessage)
  | some msg =>
    if msg.topic = "" then (s,some .emptyTopic)
    else
      match marshal msg.body with
      | .error cause => (s,some (.payloadNotMarshalable cause))
      | .ok payload =>
        match a.ctx with
        | some cause => (s,some (.canceled msg.topic cause))
        | none =>
          match s.ensureBaseline a with
          | .error cause => (s,some (.noBaseline (some msg.topic) cause))
          | .ok s =>
            match a.insert with
            | .failed cause written =>
              ({ s with log := if written then s.log ++ [s.row msg payload] else s.log },some (.insertFailed msg.topic cause))
            | .done => ({ s with log := s.log ++ [s.row msg payload], appended := s.appended + 1 },none)

def corrupt : Nat := s.log.countP fun row => decide (s.Own row) && row.topic.toList.all (· = ' ')

def verify (a : Answers J Err) : Except (StoreError Err) (PGEventStore J) :=
  match s.ensureBaseline a with
  | .error cause => .error (.noBaseline none cause)
  | .ok s =>
    match a.count with
    | some cause => .error (.countFailed cause)
    | none =>
      if s.count ≠ s.baseline.getD 0 + s.appended then .error (.miscounted s.count (s.baseline.getD 0) s.appended)
      else if s.corrupt ≠ 0 then .error (.corrupt s.corrupt)
      else .ok s

/-- Every way an append ends: the row it adds to what others left, and the account it keeps. -/
inductive Appended (marshal : P → Except Err J) (s : PGEventStore J) (a : Answers J Err) :
    Option (Envelope P) → PGEventStore J × Option (StoreError Err) → Prop where
  | refused (msg : Option (Envelope P)) (error : StoreError Err) :
      Appended marshal s a msg ({ s with log := a.others s.log },some error)
  | failed (msg : Envelope P) (payload : J) (s' : PGEventStore J) (cause : Err) (written : Bool)
      (based : ensureBaseline { s with log := a.others s.log } a = .ok s') (insert : a.insert = .failed cause written) :
      Appended marshal s a (some msg)
        ({ s' with log := if written then s'.log ++ [s'.row msg payload] else s'.log },some (.insertFailed msg.topic cause))
  | done (msg : Envelope P) (payload : J) (s' : PGEventStore J) (topic : msg.topic ≠ "")
      (marshalled : marshal msg.body = .ok payload) (based : ensureBaseline { s with log := a.others s.log } a = .ok s') :
      Appended marshal s a (some msg) ({ s' with log := s'.log ++ [s'.row msg payload], appended := s'.appended + 1 },none)

theorem append_cases (marshal : P → Except Err J) (s : PGEventStore J) (a : Answers J Err) (msg : Option (Envelope P)) :
    Appended marshal s a msg (s.append marshal a msg) := by
  unfold append
  cases msg with
  | none => exact .refused none .nilMessage
  | some msg =>
    dsimp only
    by_cases topic : msg.topic = ""
    · rw [if_pos topic]
      exact .refused _ _
    · rw [if_neg topic]
      cases marshalled : marshal msg.body with
      | error => exact .refused _ _
      | ok payload =>
        cases a.ctx with
        | some => exact .refused _ _
        | none =>
          cases based : ensureBaseline { s with log := a.others s.log } a with
          | error => exact .refused _ _
          | ok s' =>
            cases insert : a.insert with
            | failed cause written => exact .failed msg payload s' cause written based insert
            | done => exact .done msg payload s' topic marshalled based

variable {s : PGEventStore J} {a : Answers J Err}

variable {s' : PGEventStore J} {marshal : P → Except Err J} {msg : Envelope P}

theorem ensureBaseline_ok (ok : s.ensureBaseline a = .ok s') :
    s' = { s with baseline := some (s.baseline.getD s.count) } := by
  unfold ensureBaseline at ok
  cases known : s.baseline with
  | some =>
    rw [known] at ok
    cases ok
    rw [getD_some,← known]
  | none =>
    rw [known] at ok
    cases answer : a.count with
    | some =>
      rw [answer] at ok
      cases ok
    | none =>
      rw [answer] at ok
      cases ok
      rfl

theorem log_append (marshal : P → Except Err J) (s : PGEventStore J) (a : Answers J Err) (msg : Option (Envelope P)) :
    a.others s.log <+: (s.append marshal a msg).1.log := by
  have ended := append_cases marshal s a msg
  generalize s.append marshal a msg = result at ended ⊢
  cases ended with
  | refused => exact prefix_refl _
  | failed msg payload s' cause written based =>
    rw [ensureBaseline_ok based]
    cases written
    · exact prefix_refl _
    · exact prefix_append ..
  | done msg payload s' topic marshalled based =>
    rw [ensureBaseline_ok based]
    exact prefix_append ..

def Records (marshal : P → Except Err J) (s : PGEventStore J) (msg : Envelope P) : Prop :=
  ∃ row ∈ s.log, row.ts = msg.ts / 1000 ∧ row.topic = msg.topic ∧ marshal msg.body = .ok row.payload

theorem append_records {s : PGEventStore J} (a : Answers J Err)
    (ok : (s.append marshal a (some msg)).2 = none) : (s.append marshal a (some msg)).1.Records marshal msg := by
  have ended := append_cases marshal s a (some msg)
  generalize s.append marshal a (some msg) = result at ended ok ⊢
  cases ended with
  | done msg payload s' topic marshalled =>
    exact ⟨s'.row msg payload,mem_append_right _ (mem_singleton_self _),rfl,rfl,marshalled⟩
  | _ => cases ok

def tap (marshal : P → Except Err J) : Tap P (StoreError Err) :=
  ⟨PGEventStore J,Answers J Err,fun s a msg => s.append marshal a (some msg)⟩

/-- What a handler saw is in the log as long as others delete nothing. -/
theorem invoked_has_row {H : Type} (marshal : P → Except Err J) {store : PGEventStore J} {ops : List (Op (tap marshal) H)}
    (kept : ∀ (a : Answers J Err) error, .returns a error ∈ ops → ∀ log, log ⊆ a.others log) {id : Nat} {h : H}
    (invoked : .invoked id msg h ∈ (run Goroutine.step (.start (some store)) ops).history) :
    ∃ store' : PGEventStore J, (run Goroutine.step (.start (some store)) ops).bus.tap = some store' ∧
      store'.Records marshal msg := by
  refine invoked_held (T := tap marshal) (R := Records marshal) (fun s a msg ok => append_records a ok) (some store) ?_ invoked
  intro a error returned s msg other recorded
  obtain ⟨row,listed,same⟩ := recorded
  exact ⟨row,(log_append marshal s a (some msg)).subset (kept a error returned _ listed),same⟩

def openedStore : PGEventStore Nat := ⟨"p","",0,none,[]⟩

def plain : Nat → Except String Nat := .ok

def stored : Answers Nat String := ⟨id,none,none,.done⟩

/-- Another run writes a row, and the insert fails. -/
def lost : Answers Nat String := ⟨(⟨5,"exec.fill",3,"q",none⟩ :: ·),none,none,.failed "gone" false⟩

/-- A fill is published to its handler, and the next one is lost. -/
def fills : List (Op (tap plain) Char) :=
  [.subscribe "exec.fill" (some 'a'),.publish none 1500 "exec.fill" 7,.returns stored none,.returns stored none,
    .publish none 2500 "exec.fill" 8,.returns lost none]

theorem fills_row : ∃ store : PGEventStore Nat,
    (run Goroutine.step (.start (some openedStore)) fills).bus.tap = some store ∧ store.Records plain ⟨"exec.fill",1500,7⟩ := by
  have invoked : .invoked 0 ⟨"exec.fill",1500,7⟩ 'a' ∈ (run Goroutine.step (.start (some openedStore)) fills).history := by
    decide +kernel
  refine invoked_has_row plain ?_ invoked
  intro a error returned log
  simp only [fills,mem_cons,reduceCtorEq,false_or,not_mem_nil,or_false,or_self_left] at returned
  rcases returned with same | same <;> obtain ⟨rfl,-⟩ := Op.returns.inj same
  · exact Subset.refl log
  · exact subset_cons_self _ log

def Balanced (s : PGEventStore J) : Prop :=
  match s.baseline with
  | none => s.appended = 0
  | some baseline => s.count = baseline + s.appended

/-- Others leave the number of the instance's own rows, and no insert is made that seemed to fail. -/
structure Alone (s : PGEventStore J) (a : Answers J Err) : Prop where
  others : (a.others s.log).countP (s.Own ·) = s.count
  inserts : ∀ cause, a.insert ≠ .failed cause true

theorem Balanced.arrived (balanced : s.Balanced) (alone : s.Alone a) :
    ({ s with log := a.others s.log } : PGEventStore J).Balanced := by
  have same : ({ s with log := a.others s.log } : PGEventStore J).count = s.count := alone.others
  unfold Balanced at balanced ⊢
  rw [same]
  exact balanced

theorem Balanced.based (balanced : s.Balanced) (ok : s.ensureBaseline a = .ok s') :
    s'.count = s'.baseline.getD 0 + s'.appended := by
  unfold Balanced at balanced
  rw [ensureBaseline_ok ok]
  split at balanced
  · rename_i unknown
    rw [unknown,balanced]
    rfl
  · rename_i known
    rw [known]
    exact balanced

theorem count_row (s : PGEventStore J) (msg : Envelope P) (payload : J) :
    (s.log ++ [s.row msg payload]).countP (s.Own ·) = s.count + 1 := by
  rw [countP_append]
  congr 1
  exact countP_singleton .. |>.trans (if_pos (decide_eq_true ⟨rfl,rfl⟩))

theorem append_balanced (marshal : P → Except Err J) (msg : Option (Envelope P))
    (balanced : s.Balanced) (alone : s.Alone a) : (s.append marshal a msg).1.Balanced := by
  have arrived := balanced.arrived alone
  have ended := append_cases marshal s a msg
  generalize s.append marshal a msg = result at ended ⊢
  cases ended with
  | refused => exact arrived
  | failed msg payload s' cause written based insert =>
    have account := arrived.based based
    have known : s'.baseline = some (s'.baseline.getD 0) := by rw [ensureBaseline_ok based]; rfl
    cases written with
    | true => exact absurd insert (alone.inserts cause)
    | false =>
      rw [known]
      exact account
  | done msg payload s' topic marshalled based =>
    have account := arrived.based based
    have known : s'.baseline = some (s'.baseline.getD 0) := by rw [ensureBaseline_ok based]; rfl
    rw [known]
    have counted := count_row s' msg payload
    change (s'.log ++ [s'.row msg payload]).countP (s'.Own ·) = _ + (s'.appended + 1)
    rw [counted,account]
    rfl

def step (marshal : P → Except Err J) (s : PGEventStore J) (call : Answers J Err × Option (Envelope P)) : PGEventStore J :=
  (s.append marshal call.1 call.2).1

/-- `Verify` never finds the account wrong while the instance is alone. -/
theorem verify_count (opened : s.baseline = none ∧ s.appended = 0)
    (calls : List (Answers J Err × Option (Envelope P)))
    (alone : Guarded (step marshal) (fun s call => s.Alone call.1) s calls) (a : Answers J Err)
    (got baseline appended : Nat) :
    (run (step marshal) s calls).verify a ≠ .error (.miscounted got baseline appended) := by
  have preserved (s : PGEventStore J) (call : Answers J Err × Option (Envelope P)) (balanced : s.Balanced)
      (alone : s.Alone call.1) : (step marshal s call).Balanced := append_balanced marshal call.2 balanced alone
  have initial : s.Balanced := by
    rw [Balanced,opened.1]
    exact opened.2
  have balanced := run_invariant preserved initial alone
  generalize run (step marshal) s calls = s at balanced ⊢
  unfold verify
  cases based : s.ensureBaseline a with
  | error => simp
  | ok =>
    have account := balanced.based based
    cases a.count with
    | some => simp
    | none =>
      dsimp only
      rw [if_neg (not_not.mpr account)]
      split <;> simp

/-- Two messages are recorded and one in between is lost. -/
def appends : List (Answers Nat String × Option (Envelope Nat)) :=
  [(stored,some ⟨"exec.fill",1500,7⟩),(lost,some ⟨"exec.fill",2500,8⟩),(stored,some ⟨"run.done",3500,9⟩)]

theorem appends_verified :
    (∀ got baseline appended,
      (run (step plain) openedStore appends).verify stored ≠ .error (.miscounted got baseline appended)) ∧
    ((run (step plain) openedStore appends).verify stored).toOption.map (·.appended) = some 2 := by
  have alone : Guarded (step plain) (fun s call => s.Alone call.1) openedStore appends := by
    refine ⟨⟨rfl,?_⟩,⟨by decide +kernel,?_⟩,⟨rfl,?_⟩,trivial⟩ <;> exact fun _ same => by cases same
  exact ⟨verify_count ⟨rfl,rfl⟩ appends alone stored,by decide +kernel⟩

end PGEventStore
end QuantTrading
