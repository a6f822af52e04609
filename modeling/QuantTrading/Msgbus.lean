import QuantTrading.Domain
import QuantTrading.Library.Book
import QuantTrading.Library.Traces

/-! The synchronous message bus. A message is recorded by the tap first and then handed to the
subscribers of its topic, one after the other, by the goroutine that publishes it. Handlers and
tap may make any calls of the bus before they return, so the open calls form a stack.
-/
namespace QuantTrading
open Library List

namespace Msgbus

def registry : List String :=
  ["data.bar","exec.order_intent","exec.fill","portfolio.updated","risk.verdict","run.start","run.done","kernel.boot",
    "kernel.shutdown","risk.order_verdict","exec.order_rejected","portfolio.filled","recon.diff","strategy.state_saved",
    "indicator.warmup_done","execalgo.child_order"]

def isRegisteredTopic (name : String) : Bool := registry.contains name

structure Envelope (P : Type) where
  topic : String
  ts : Time
  body : P
deriving DecidableEq

/-- Where a message is recorded. What the outside of the tap answers is given with each append. -/
structure Tap (P Err : Type) where
  (State Answer : Type)
  append : State → Answer → Envelope P → State × Option Err

inductive BusError (Err : Type) where
  | unknownTopic (topic : String)
  | nilHandler
  | noTap
  | contextCanceled (topic : String) (cause : Err)
  | appendFailed (topic : String) (cause : Err)
  | joined (errs : List Err)
deriving DecidableEq

/-- `errors.Join`. -/
def join {Err : Type} : List Err → Option (BusError Err)
  | [] => none
  | errs => some (.joined errs)

inductive Event (P H Err : Type) where
  | subscribed (topic : String) (h : H)
  | called (id : Nat) (ctx : Option Err) (topic : String)
  | unrecorded (id : Nat) (cause : Err)
  | appended (id : Nat) (msg : Envelope P)
  | dispatched (id : Nat) (msg : Envelope P) (hs : List H)
  | invoked (id : Nat) (msg : Envelope P) (h : H)
  | returned (id : Nat) (error : Option (BusError Err))
deriving DecidableEq

/-- An open `Publish`: the tap is recording its message, or one of its handlers is running. -/
inductive Frame (P H Err : Type) where
  | recording (id : Nat) (msg : Envelope P)
  | dispatching (id : Nat) (msg : Envelope P) (rest : List H) (errs : List Err)

end Msgbus

open Msgbus

structure SyncBus {P Err : Type} (T : Tap P Err) (H : Type) where
  tap : Option T.State
  handlers : Book String (List H)

namespace SyncBus
variable {P H Err : Type} {T : Tap P Err}

def newSyncBus (tap : Option T.State) : SyncBus T H := ⟨tap,∅⟩

def subscribe (b : SyncBus T H) (topic : String) (h : Option H) : Except (BusError Err) (SyncBus T H) :=
  if isRegisteredTopic topic = false then .error (.unknownTopic topic)
  else
    match h with
    | none => .error .nilHandler
    | some h => .ok { b with handlers := b.handlers.insert topic (b.handlers.getD topic [] ++ [h]) }

end SyncBus

namespace Msgbus
variable {P H Err : Type} {T : Tap P Err}

/-- The goroutine that uses the bus: the open calls of `Publish`, the innermost first, and what
happened so far. Each call of `Publish` has a number of its own. -/
structure Goroutine {P Err : Type} (T : Tap P Err) (H : Type) where
  bus : SyncBus T H
  stack : List (Frame P H Err)
  next : Nat
  history : List (Event P H Err)

namespace Goroutine

def start (tap : Option T.State) : Goroutine T H := ⟨.newSyncBus tap,[],0,[]⟩

variable (s : Goroutine T H)

def log (events : List (Event P H Err)) : Goroutine T H := { s with history := s.history ++ events }

/-- The loop of `Publish` over what is left of the handlers it ranges over. -/
def dispatch (id : Nat) (msg : Envelope P) : List H → List Err → Goroutine T H
  | [], errs => s.log [.returned id (join errs)]
  | h :: rest, errs => { s.log [.invoked id msg h] with stack := .dispatching id msg rest errs :: s.stack }

/-- `Publish` up to the call of `Append`. -/
def publish (ctx : Option Err) (now : Time) (topic : String) (payload : P) : Goroutine T H :=
  let id := s.next
  let s := { s.log [.called id ctx topic] with next := id + 1 }
  if isRegisteredTopic topic = false then s.log [.returned id (some (.unknownTopic topic))]
  else if s.bus.tap.isNone then s.log [.returned id (some .noTap)]
  else
    match ctx with
    | some cause => s.log [.returned id (some (.contextCanceled topic cause))]
    | none => { s with stack := .recording id ⟨topic,now,payload⟩ :: s.stack }

/-- `Publish` after `Append` returned. The handlers are those of the topic at this moment: the
loop ranges over the slice it reads here. -/
def appendReturned (id : Nat) (msg : Envelope P) : Option Err → Goroutine T H
  | some cause => s.log [.unrecorded id cause,.returned id (some (.appendFailed msg.topic cause))]
  | none =>
    let hs := s.bus.handlers.getD msg.topic []
    (s.log [.appended id msg,.dispatched id msg hs]).dispatch id msg hs []

end Goroutine

/-- What the running code does next. A call that is made while calls are open is made by the
handler or the tap that is running. -/
inductive Op {P Err : Type} (T : Tap P Err) (H : Type) where
  | subscribe (topic : String) (h : Option H)
  | publish (ctx : Option Err) (now : Time) (topic : String) (payload : P)
  /-- The tap or the handler that is running returns. -/
  | returns (a : T.Answer) (error : Option Err)

namespace Goroutine

def step (s : Goroutine T H) : Op T H → Goroutine T H
  | .subscribe topic h =>
    match s.bus.subscribe topic h with
    | .error _ => s
    | .ok bus => { s.log (h.toList.map (.subscribed topic)) with bus }
  | .publish ctx now topic payload => s.publish ctx now topic payload
  | .returns a error =>
    match s.stack with
    | [] => s
    | .recording id msg :: stack =>
      match s.bus.tap with
      | none => s
      | some tap =>
        let (tap,failed) := T.append tap a msg
        appendReturned { s with stack, bus := { s.bus with tap := some tap } } id msg failed
    | .dispatching id msg rest errs :: stack => dispatch { s with stack } id msg rest (errs ++ error.toList)

end Goroutine

namespace Event

/-- The call of `Publish` that an event belongs to. -/
def call : Event P H Err → Option Nat
  | .subscribed .. => none
  | .called id .. => some id
  | .unrecorded id _ => some id
  | .appended id _ => some id
  | .dispatched id .. => some id
  | .invoked id .. => some id
  | .returned id _ => some id

end Event

def Frame.id : Frame P H Err → Nat
  | .recording id _ => id
  | .dispatching id .. => id

def subscribers (topic : String) (h : List (Event P H Err)) : List H :=
  h.filterMap fun
    | .subscribed other handler => if other = topic then some handler else none
    | _ => none

def deliveries (id : Nat) (h : List (Event P H Err)) : List (Envelope P × H) :=
  h.filterMap fun
    | .invoked other msg handler => if other = id then some (msg,handler) else none
    | _ => none

def trail (id : Nat) (h : List (Event P H Err)) : List (Event P H Err) := h.filter (·.call = some id)

def frameOf (id : Nat) (stack : List (Frame P H Err)) : Option (Frame P H Err) := stack.find? (·.id = id)

variable (id : Nat) (topic : String) (h es : List (Event P H Err))

@[simp] theorem subscribers_append :
    subscribers topic (h ++ es) = subscribers topic h ++ subscribers topic es := filterMap_append
@[simp] theorem trail_append : trail id (h ++ es) = trail id h ++ trail id es :=
  filter_append ..

variable {id : Nat} {R : T.State → Envelope P → Prop}

theorem mem_trail {h : List (Event P H Err)} {event : Event P H Err} (own : event.call = some id) :
    event ∈ trail id h ↔ event ∈ h := by
  simp [trail,own]

variable {es : List (Event P H Err)} {s : Goroutine T H} {base : List (Frame P H Err)}
   {frame : Option (Frame P H Err)} {msg : Envelope P}

theorem trail_of_own (own : ∀ event ∈ es, event.call = some id) : trail id es = es :=
  filter_eq_self.mpr fun event listed => decide_eq_true (own event listed)

theorem trail_of_other {other : Nat} (distinct : other ≠ id)
    (own : ∀ event ∈ es, event.call = some id) : trail other es = [] :=
  filter_eq_nil_iff.mpr fun event listed here => distinct
    (Option.some.inj ((of_decide_eq_true here).symm.trans (own event listed)))

theorem frameOf_cons (id : Nat) (frame : Frame P H Err) (stack : List (Frame P H Err)) :
    frameOf id (frame :: stack) = if frame.id = id then some frame else frameOf id stack := by
  by_cases same : frame.id = id <;> simp [same,frameOf]

theorem frameOf_eq_none {stack : List (Frame P H Err)} (closed : id ∉ stack.map Frame.id) :
    frameOf id stack = none := by
  refine find?_eq_none.mpr fun frame listed same => closed ?_
  exact mem_map.mpr ⟨frame,listed,of_decide_eq_true same⟩

/-- What one call of `Publish` has left in the history, and where it stands. -/
inductive Life (id : Nat) : List (Event P H Err) → Option (Frame P H Err) → Prop where
  | absent : Life id [] none
  | rejected (ctx : Option Err) (topic : String) (error : BusError Err) :
      Life id [.called id ctx topic,.returned id (some error)] none
  | recording (msg : Envelope P) (registered : isRegisteredTopic msg.topic = true) :
      Life id [.called id none msg.topic] (some (.recording id msg))
  | unrecorded (topic : String) (cause : Err) :
      Life id [.called id none topic,.unrecorded id cause,.returned id (some (.appendFailed topic cause))] none
  | dispatching (msg : Envelope P) (registered : isRegisteredTopic msg.topic = true) (done rest : List H) (errs : List Err) :
      Life id ([.called id none msg.topic,.appended id msg,.dispatched id msg (done ++ rest)] ++ done.map (.invoked id msg))
        (some (.dispatching id msg rest errs))
  | finished (msg : Envelope P) (registered : isRegisteredTopic msg.topic = true) (hs : List H) (error : Option (BusError Err)) :
      Life id ([.called id none msg.topic,.appended id msg,.dispatched id msg hs] ++ hs.map (.invoked id msg) ++
        [.returned id error]) none

theorem Life.own (life : Life id es frame) :
    (∀ event ∈ es, event.call = some id) ∧ ∀ f, frame = some f → f.id = id := by
  cases life <;> simp [or_imp,forall_and,Event.call,Frame.id]

/-- A handler is invoked on an appended message, and the dispatch goes to those that subscribed
before it. -/
def Due (before : List (Event P H Err)) : Event P H Err → Prop
  | .invoked id msg _ => .appended id msg ∈ before
  | .dispatched _ msg hs => hs = subscribers msg.topic before
  | _ => True

structure Sound (s : Goroutine T H) : Prop where
  subscribed : ∀ topic, s.bus.handlers.getD topic [] = subscribers topic s.history
  tapped : s.stack ≠ [] → s.bus.tap.isSome = true
  distinct : (s.stack.map Frame.id).Nodup
  numbered : ∀ frame ∈ s.stack, frame.id < s.next
  fresh : ∀ id, s.next ≤ id → trail id s.history = []
  life : ∀ id, Life id (trail id s.history) (frameOf id s.stack)
  due : Justified Due s.history

theorem subscribers_of_own (own : ∀ event ∈ es, event.call = some id) : subscribers topic es = [] := by
  refine filterMap_eq_nil_iff.mpr fun event listed => ?_
  cases event with
  | subscribed => cases own _ listed
  | _ => rfl

theorem sound_start (tap : Option T.State) : Sound (Goroutine.start (H := H) tap) where
  subscribed topic := by simp [Goroutine.start,SyncBus.newSyncBus,subscribers]
  tapped opened := absurd rfl opened
  distinct := nodup_nil
  numbered frame listed := by cases listed
  fresh id _ := rfl
  life id := .absent
  due := Justified.nil

/-- One call moves on: its events are appended, its frame is replaced, and the others stand. -/
theorem Sound.moved (sound : Sound s) {bus : SyncBus T H} {next : Nat}
    (handlers : bus.handlers = s.bus.handlers) (tapped : frame.toList ++ base ≠ [] → bus.tap.isSome = true)
    (others : ∀ other, other ≠ id → frameOf other base = frameOf other s.stack)
    (distinct : (base.map Frame.id).Nodup) (outside : id ∉ base.map Frame.id) (numbered : ∀ frame ∈ base, frame.id < next)
    (below : id < next) (grows : s.next ≤ next) (life : Life id (trail id s.history ++ es) frame)
    (due : Justified Due (s.history ++ es)) : Sound ⟨bus,frame.toList ++ base,next,s.history ++ es⟩ := by
  obtain ⟨all,framed⟩ := life.own
  have own : ∀ event ∈ es, event.call = some id := fun event listed => all event (mem_append_right _ listed)
  refine ⟨?_,tapped,?_,?_,?_,?_,due⟩
  · intro topic
    rw [handlers,sound.subscribed,subscribers_append,subscribers_of_own topic own,append_nil]
  · cases frame with
    | none => exact distinct
    | some f => exact nodup_cons.mpr ⟨framed f rfl ▸ outside,distinct⟩
  · cases frame with
    | none => exact numbered
    | some f => exact forall_mem_cons.mpr ⟨framed f rfl ▸ below,numbered⟩
  · intro other late
    have apart : other ≠ id := (below.trans_le late).ne'
    rw [trail_append,sound.fresh other (grows.trans late),trail_of_other apart own]
    rfl
  · intro other
    by_cases same : other = id
    · subst same
      rw [trail_append,trail_of_own own]
      cases frame with
      | none =>
        rw [Option.toList_none,nil_append,frameOf_eq_none outside]
        exact life
      | some f =>
        rw [Option.toList_some,cons_append,frameOf_cons,if_pos (framed f rfl)]
        exact life
    · have standing := sound.life other
      rw [← others other same] at standing
      rw [trail_append,trail_of_other same own,append_nil]
      cases frame with
      | none => exact standing
      | some f =>
        rw [Option.toList_some,cons_append,frameOf_cons,if_neg (framed f rfl ▸ Ne.symm same)]
        exact standing

theorem Sound.opened (sound : Sound s) (frame : Option (Frame P H Err)) (es : List (Event P H Err))
    (tapped : frame.isSome = true → s.bus.tap.isSome = true) (life : Life s.next es frame) (due : Justified Due (s.history ++ es)) :
    Sound ⟨s.bus,frame.toList ++ s.stack,s.next + 1,s.history ++ es⟩ := by
  have outside : s.next ∉ s.stack.map Frame.id := by
    intro listed
    obtain ⟨frame,there,same⟩ := mem_map.mp listed
    exact absurd same (sound.numbered frame there).ne
  refine sound.moved rfl ?_ (fun _ _ => rfl) sound.distinct outside (fun frame there => Nat.lt_succ_of_lt (sound.numbered frame there))
    (Nat.lt_succ_self _) (Nat.le_succ _) ?_ due
  · cases frame with
    | none => exact sound.tapped
    | some => exact fun _ => tapped rfl
  · rw [sound.fresh s.next le_rfl]
    exact life

theorem Sound.resumed (sound : Sound s) {top : Frame P H Err}
    (stack : s.stack = top :: base) {bus : SyncBus T H} (handlers : bus.handlers = s.bus.handlers)
    (tapped : bus.tap.isSome = true) (frame : Option (Frame P H Err)) (es : List (Event P H Err))
    (life : Life top.id (trail top.id s.history ++ es) frame) (due : Justified Due (s.history ++ es)) :
    Sound ⟨bus,frame.toList ++ base,s.next,s.history ++ es⟩ := by
  have distinct := sound.distinct
  have numbered := sound.numbered
  rw [stack] at distinct numbered
  obtain ⟨outside,distinct⟩ := nodup_cons.mp distinct
  refine sound.moved handlers (fun _ => tapped) ?_ distinct outside (fun f there => numbered f (mem_cons_of_mem _ there))
    (numbered top (mem_cons_self ..)) le_rfl life due
  intro other apart
  rw [stack,frameOf_cons,if_neg apart.symm]

theorem Sound.top (sound : Sound s) {top : Frame P H Err}
    (stack : s.stack = top :: base) : Life top.id (trail top.id s.history) (some top) := by
  have life := sound.life top.id
  rw [stack,frameOf_cons,if_pos rfl] at life
  exact life

theorem Life.of_recording (life : Life id es (some (.recording id msg))) :
    es = [.called id none msg.topic] ∧ isRegisteredTopic msg.topic = true := by
  cases life with
  | recording _ registered => exact ⟨rfl,registered⟩

theorem Life.of_dispatching {rest : List H} {errs : List Err}
    (life : Life id es (some (.dispatching id msg rest errs))) :
    ∃ done : List H, es = [.called id none msg.topic,.appended id msg,.dispatched id msg (done ++ rest)] ++
      done.map (.invoked id msg) ∧ isRegisteredTopic msg.topic = true := by
  cases life with
  | dispatching _ registered done => exact ⟨done,rfl,registered⟩

section
variable (sound : Sound s)
include sound

theorem Sound.subscribe (topic : String) (h : Option H) : Sound (s.step (.subscribe topic h)) := by
  simp only [Goroutine.step,SyncBus.subscribe]
  by_cases known : isRegisteredTopic topic = false
  · rw [if_pos known]
    exact sound
  · rw [if_neg known]
    cases h with
    | none => exact sound
    | some h =>
      show Sound ⟨⟨s.bus.tap,s.bus.handlers.insert topic (s.bus.handlers.getD topic [] ++ [h])⟩,s.stack,s.next,
        s.history ++ [.subscribed topic h]⟩
      have trailed (id : Nat) : trail id (s.history ++ [.subscribed topic h]) = trail id s.history := by
        simp [trail,Event.call]
      refine ⟨?_,sound.tapped,sound.distinct,sound.numbered,?_,?_,sound.due.concat trivial⟩
      · intro other
        rw [Std.ExtTreeMap.getD_insert,subscribers_append,← sound.subscribed other]
        by_cases same : topic = other
        · subst same
          simp [subscribers]
        · simp [subscribers,same]
      · intro id late
        rw [trailed]
        exact sound.fresh id late
      · intro id
        rw [trailed]
        exact sound.life id

theorem Sound.publish (ctx : Option Err) (now : Time) (topic : String) (payload : P) :
    Sound (s.publish ctx now topic payload) := by
  have called : Justified Due (s.history ++ [.called s.next ctx topic]) := sound.due.concat trivial
  have rejected (error : BusError Err) :
      Sound ⟨s.bus,s.stack,s.next + 1,s.history ++ [.called s.next ctx topic,.returned s.next (some error)]⟩ := by
    have returned : Justified Due ((s.history ++ [.called s.next ctx topic]) ++ [.returned s.next (some error)]) :=
      called.concat trivial
    exact sound.opened none _ (by simp) (.rejected ctx topic error) (by simpa using returned)
  unfold Goroutine.publish
  dsimp only
  split
  · simpa [Goroutine.log] using rejected (.unknownTopic topic)
  next registered =>
    split
    · simpa [Goroutine.log] using rejected .noTap
    next tap =>
      cases ctx with
      | some cause => simpa [Goroutine.log] using rejected (.contextCanceled topic cause)
      | none =>
        refine sound.opened (some (.recording s.next ⟨topic,now,payload⟩)) [.called s.next none topic] ?_
          (.recording ⟨topic,now,payload⟩ (by simpa using registered)) called
        exact fun _ => Option.isSome_iff_ne_none.mpr fun missing => tap (by simp [Goroutine.log,missing])

theorem Sound.dispatch {top : Frame P H Err} (stack : s.stack = top :: base) {bus : SyncBus T H}
    (handlers : bus.handlers = s.bus.handlers) (tapped : bus.tap.isSome = true)
    (registered : isRegisteredTopic msg.topic = true) (done : List H) (es : List (Event P H Err)) (rest : List H)
    (errs : List Err)
    (trailed : trail top.id s.history ++ es = [.called top.id none msg.topic,.appended top.id msg,.dispatched top.id
      msg (done ++ rest)] ++ done.map (.invoked top.id msg)) (due : Justified Due (s.history ++ es)) :
    Sound (Goroutine.dispatch ⟨bus,base,s.next,s.history ++ es⟩ top.id msg rest errs) := by
  cases rest with
  | nil =>
    rw [Goroutine.dispatch,Goroutine.log,append_assoc]
    refine sound.resumed stack handlers tapped none _ ?_ ?_
    · rw [← append_assoc,trailed,append_nil]
      exact .finished msg registered done (join errs)
    · rw [← append_assoc]
      exact due.concat trivial
  | cons h rest =>
    rw [Goroutine.dispatch,Goroutine.log,append_assoc]
    refine sound.resumed stack handlers tapped (some (.dispatching top.id msg rest errs)) _ ?_ ?_
    · have life : Life top.id _ _ := .dispatching msg registered (done ++ [h]) rest errs
      rw [← append_assoc,trailed]
      simpa using life
    · rw [← append_assoc]
      refine due.concat ?_
      have appended : .appended top.id msg ∈ trail top.id s.history ++ es := by simp [trailed]
      rw [mem_append,mem_trail rfl] at appended
      exact mem_append.mpr appended

theorem Sound.returns (a : T.Answer) (error : Option Err) : Sound (s.step (.returns a error)) := by
  rw [Goroutine.step]
  split
  · exact sound
  next id msg base stack =>
    obtain ⟨trailed,registered⟩ := Life.of_recording (sound.top stack)
    split
    · exact sound
    rename_i tap there
    dsimp only
    have handlers : ({ s.bus with tap := some (T.append tap a msg).1 } : SyncBus T H).handlers = s.bus.handlers := rfl
    cases (T.append tap a msg).2 with
    | some cause =>
      have unrecorded : Justified Due (s.history ++ [.unrecorded id cause]) := sound.due.concat trivial
      have returned : Justified Due ((s.history ++ [.unrecorded id cause]) ++
        [.returned id (some (.appendFailed msg.topic cause))]) := unrecorded.concat trivial
      refine sound.resumed stack handlers rfl none [.unrecorded id cause,.returned id (some (.appendFailed msg.topic cause))] ?_ ?_
      · rw [trailed]
        exact .unrecorded msg.topic cause
      · simpa using returned
    | none =>
      let hs := s.bus.handlers.getD msg.topic []
      have appended : Justified Due (s.history ++ [.appended id msg]) := sound.due.concat trivial
      have dispatched : Justified Due ((s.history ++ [.appended id msg]) ++ [.dispatched id msg hs]) := by
        refine appended.concat ?_
        rw [Due,subscribers_append,← sound.subscribed]
        exact (append_nil _).symm
      refine sound.dispatch stack handlers rfl registered [] [.appended id msg,.dispatched id msg hs] hs [] ?_ ?_
      · rw [trailed]
        rfl
      · simpa using dispatched
  next id msg rest errs base stack =>
    obtain ⟨done,trailed,registered⟩ := Life.of_dispatching (sound.top stack)
    have tapped : s.bus.tap.isSome = true := sound.tapped (by simp [stack])
    have moved := sound.dispatch stack rfl tapped registered done [] rest (errs ++ error.toList)
      (by rw [append_nil]; exact trailed) (by simpa using sound.due)
    simpa [Frame.id] using moved

theorem step_sound (op : Op T H) : Sound (s.step op) := by
  cases op with
  | subscribe topic h => exact sound.subscribe topic h
  | publish ctx now topic payload => exact sound.publish ctx now topic payload
  | returns a error => exact sound.returns a error

end

theorem run_sound (tap : Option T.State) (ops : List (Op T H)) : Sound (run Goroutine.step (.start tap) ops) := by
  have preserved (s : Goroutine T H) (op : Op T H) (sound : Sound s) : Sound (s.step op) := step_sound sound op
  exact run_always preserved (sound_start tap) ops

def Held (R : T.State → Envelope P → Prop) (s : Goroutine T H) : Prop :=
  ∀ id msg, .appended id msg ∈ s.history → ∃ tap, s.bus.tap = some tap ∧ R tap msg

theorem Held.log (held : Held R s) (events : List (Event P H Err))
    (silent : ∀ id msg, .appended id msg ∉ events) : Held R (s.log events) := by
  intro id msg listed
  rcases mem_append.mp listed with before | new
  · exact held id msg before
  · exact absurd new (silent id msg)

theorem Held.dispatch (held : Held R s) (id : Nat) (msg : Envelope P)
    (hs : List H) (errs : List Err) : Held R (s.dispatch id msg hs errs) := by
  cases hs with
  | nil => exact held.log _ (by simp)
  | cons h => exact held.log [.invoked id msg h] (by simp)

def Keeps (R : T.State → Envelope P → Prop) (a : T.Answer) : Prop :=
  ∀ tap msg other, R tap other → R (T.append tap a msg).1 other

section
variable {R : T.State → Envelope P → Prop}
  (records : ∀ tap a msg, (T.append tap a msg).2 = none → R (T.append tap a msg).1 msg)
include records

theorem Held.returned {s : Goroutine T H} (held : Held R s) {tap : T.State} (there : s.bus.tap = some tap) {a : T.Answer}
    (keeps : Keeps R a) (stack : List (Frame P H Err)) (id : Nat) (msg : Envelope P) :
    Held R (Goroutine.appendReturned { s with stack, bus := { s.bus with tap := some (T.append tap a msg).1 } } id msg
      (T.append tap a msg).2) := by
  have kept : Held R ({ s with stack, bus := { s.bus with tap := some (T.append tap a msg).1 } } : Goroutine T H) := by
    intro other known listed
    obtain ⟨tap',same,holds⟩ := held other known listed
    rw [there] at same
    cases same
    exact ⟨_,rfl,keeps tap msg known holds⟩
  cases failed : (T.append tap a msg).2 with
  | some => exact kept.log _ (by simp)
  | none =>
    refine Held.dispatch ?_ id msg _ []
    intro other known listed
    rcases mem_append.mp listed with before | new
    · exact kept other known before
    · obtain ⟨rfl,rfl⟩ : other = id ∧ known = msg := by simpa using new
      exact ⟨_,rfl,records tap a known failed⟩

theorem step_held {s : Goroutine T H} (held : Held R s) {op : Op T H}
    (keeps : ∀ a error, op = .returns a error → Keeps R a) : Held R (s.step op) := by
  cases op with
  | subscribe topic h =>
    simp only [Goroutine.step,SyncBus.subscribe]
    split
    · exact held
    rename_i bus made
    split at made
    · cases made
    cases h with
    | none => cases made
    | some h =>
      cases made
      exact held.log [.subscribed topic h] (by simp)
  | publish ctx now topic =>
    have called : Held R { s.log [.called s.next ctx topic] with next := s.next + 1 } :=
      held.log [.called s.next ctx topic] (by simp)
    simp only [Goroutine.step,Goroutine.publish]
    iterate 2 (split; · exact called.log _ (by simp))
    cases ctx with
    | some => exact called.log _ (by simp)
    | none => exact called
  | returns a error =>
    rw [Goroutine.step]
    split
    · exact held
    · split
      · exact held
      rename_i tap there
      exact held.returned records there (keeps a error rfl) _ _ _
    next id msg rest errs base stack =>
      have popped : Held R ({ s with stack := base } : Goroutine T H) := held
      exact popped.dispatch id msg rest _

section
variable (tap : Option T.State) {ops : List (Op T H)} (keeps : ∀ a error, .returns a error ∈ ops → Keeps R a)
include keeps

theorem run_held : Held R (run Goroutine.step (.start tap) ops) := by
  refine run_invariant (fun s op held => step_held records held) (by simp [Held,Goroutine.start]) ?_
  exact Guarded.of_mem _ fun op listed _ a error same => keeps a error (same ▸ listed)

theorem invoked_held {id : Nat} {msg : Envelope P} {h : H}
    (invoked : .invoked id msg h ∈ (run Goroutine.step (.start tap) ops).history) :
    ∃ tap', (run Goroutine.step (.start tap) ops).bus.tap = some tap' ∧ R tap' msg := by
  obtain ⟨before,after,split⟩ := append_of_mem invoked
  have recorded : .appended id msg ∈ before := (run_sound tap ops).due before _ after split
  exact run_held records tap keeps id msg (split ▸ mem_append_left _ recorded)

end

end

theorem Life.refused (life : Life id es frame)
    {ctx : Option Err} {topic : String} (called : .called id ctx topic ∈ es)
    (why : ctx.isSome = true ∨ isRegisteredTopic topic = false ∨ ∃ cause, .unrecorded id cause ∈ es) :
    deliveries id es = [] := by
  cases life with
  | dispatching _ _ _ _ _ | finished _ _ _ _ => simp_all
  | _ => rfl

def Frame.pending (handlers : Book String (List H)) : Frame P H Err → Nat
  | .recording _ msg => (handlers.getD msg.topic []).length + 1
  | .dispatching _ _ rest _ => rest.length + 1

def Goroutine.pending (s : Goroutine T H) : Nat := (s.stack.map (Frame.pending s.bus.handlers)).sum

end Msgbus
end QuantTrading
