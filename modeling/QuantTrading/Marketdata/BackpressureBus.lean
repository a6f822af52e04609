import QuantTrading.Library.Book
import QuantTrading.Library.Interleaving
import QuantTrading.Library.Ledger

/-! The backpressure bus. Publishers push into the buffer of every subscriber of a topic and
never wait; each subscriber's goroutine takes from its buffer and calls the handler. Every
channel operation and critical section is a step of its own, so a full buffer may be emptied, or
filled, between two attempts of a publisher.
-/
namespace QuantTrading.BackpressureBus
open Library List

variable {Event : Type}

def defaultBackpressureBufferSize : Nat := 10000

/-- A subscription: its ledger holds the buffer and the dropped count, and records what was
sent and handled. -/
structure Subscriber (Event : Type) extends Ledger Event where
  topic : String
  stopped : Bool

/-- The bus. `running` is the wait group's count; `published` and `closeReturned` record the
calls of Publish and that a Close has returned. -/
structure Bus (Event : Type) where
  subscribers : Book String (List Nat)
  subs : Book Nat (Subscriber Event)
  (nextID bufferSize : Nat)
  closed : Bool
  (publishedCount droppedCount : Nat)
  running : Int
  published : List (String × Event)
  closeReturned : Bool

def newBackpressureBus (bufferSize : Int) : Bus Event where
  subscribers := ∅
  subs := ∅
  nextID := 0
  bufferSize := if bufferSize ≤ 0 then defaultBackpressureBufferSize else bufferSize.toNat
  closed := false
  publishedCount := 0
  droppedCount := 0
  running := 0
  published := []
  closeReturned := false

/-- A goroutine and how far it has come. Subscribe goes on as the subscriber's loop. -/
inductive Call (Event : Type) where
  | subscribe (topic : String)
  | loop (id : Nat)
  | drain (id : Nat)
  | unsubscribe (id : Nat)
  | stop (id : Nat)
  | publish (topic : String) (event : Event)
  | send (event : Event) (ids : List Nat)
  | dropOldest (event : Event) (id : Nat) (ids : List Nat)
  | retry (event : Event) (id : Nat) (ids : List Nat)
  | close
  | closeWait

def Call.starts : Call Event → Bool
  | .subscribe _ => true
  | .unsubscribe _ => true
  | .publish _ _ => true
  | .close => true
  | _ => false

namespace Bus

variable (b : Bus Event)

def topicSubs (topic : String) : List Nat := (b.subscribers[topic]?).getD []

def putSub (id : Nat) (sub : Subscriber Event) : Bus Event := { b with subs := b.subs.insert id sub }

def listed : List Nat := b.subscribers.toList.flatMap (·.2)

def stopSubs (ids : List Nat) : Bus Event :=
  { b with subs := b.subs.map fun id sub => if id ∈ ids then { sub with stopped := true } else sub }

def sendTo (event : Event) (ids : List Nat) : Bus Event :=
  { b with subs := b.subs.map fun id sub => if id ∈ ids then { sub with sent := sub.sent ++ [event] } else sub }

end Bus

def Subscriber.enqueue (sub : Subscriber Event) (event : Event) : Subscriber Event :=
  { sub with buffer := sub.buffer ++ [event] }

def Subscriber.handle (sub : Subscriber Event) (event : Event) (rest : List Event) : Subscriber Event :=
  { sub with handled := sub.handled ++ [event], buffer := rest }

def Subscriber.drop (sub : Subscriber Event) (event : Event) (buffer : List Event) : Subscriber Event :=
  { sub with lost := sub.lost ++ [event], dropped := sub.dropped + 1, buffer := buffer }

/-- One step of a goroutine. The answer chooses between an event and the stop signal where a
select finds both; a goroutine that has to wait takes an idle step. -/
def step (b : Bus Event) (call : Call Event) (takesStop : Bool) : Bus Event × Option (Call Event) :=
  match call with
  | .subscribe topic =>
    if b.closed then (b,none)
    else
      let id := b.nextID + 1
      let sub : Subscriber Event := ⟨.empty,topic,false⟩
      let b := { b with nextID := id, subscribers := b.subscribers.insert topic (b.topicSubs topic ++ [id]), running := b.running + 1 }
      (b.putSub id sub,some (.loop id))
  | .loop id =>
    match b.subs[id]? with
    | none => (b,some (.loop id))
    | some sub =>
      if sub.stopped ∧ (takesStop ∨ sub.buffer.isEmpty) then (b,some (.drain id))
      else
        match sub.buffer with
        | [] => (b,some (.loop id))
        | event :: rest => (b.putSub id (sub.handle event rest),some (.loop id))
  | .drain id =>
    match b.subs[id]? with
    | none => (b,some (.drain id))
    | some sub =>
      match sub.buffer with
      | [] => ({ b with running := b.running - 1 },none)
      | event :: rest => (b.putSub id (sub.handle event rest),some (.drain id))
  | .unsubscribe id =>
    match b.subs[id]? with
    | none => (b,none)
    | some sub =>
      let left := (b.topicSubs sub.topic).erase id
      ({ b with subscribers := if left.isEmpty then b.subscribers.erase sub.topic else b.subscribers.insert sub.topic left },
        some (.stop id))
  | .stop id => (b.stopSubs [id],none)
  | .publish topic event =>
    let b := { b with publishedCount := b.publishedCount + 1, published := b.published ++ [(topic,event)] }
    if b.closed then (b,none) else (b.sendTo event (b.topicSubs topic),some (.send event (b.topicSubs topic)))
  | .send _ [] => (b,none)
  | .send event (id :: ids) =>
    match b.subs[id]? with
    | none => (b,some (.send event ids))
    | some sub =>
      if sub.buffer.length < b.bufferSize then (b.putSub id (sub.enqueue event),some (.send event ids))
      else (b,some (.dropOldest event id ids))
  | .dropOldest event id ids =>
    match b.subs[id]? with
    | none => (b,some (.retry event id ids))
    | some sub =>
      match sub.buffer with
      -- Drained in between.
      | [] => (b,some (.retry event id ids))
      | oldest :: rest =>
        ({ b.putSub id (sub.drop oldest rest) with droppedCount := b.droppedCount + 1 },some (.retry event id ids))
  | .retry event id ids =>
    match b.subs[id]? with
    | none => (b,some (.send event ids))
    | some sub =>
      if sub.buffer.length < b.bufferSize then (b.putSub id (sub.enqueue event),some (.send event ids))
      else ({ b.putSub id (sub.drop event sub.buffer) with droppedCount := b.droppedCount + 1 },some (.send event ids))
  | .close =>
    if b.closed then ({ b with closeReturned := true },none)
    else ({ b.stopSubs b.listed with closed := true, subscribers := ∅ },some .closeWait)
  | .closeWait => if b.running = 0 then ({ b with closeReturned := true },none) else (b,some .closeWait)

def bus : Protocol (Bus Event) (Call Event) Bool := ⟨Call.starts,step⟩

def Call.targets : Call Event → List Nat
  | .send _ ids => ids
  | .dropOldest _ id ids => id :: ids
  | .retry _ id ids => id :: ids
  | _ => []

def Call.held (id : Nat) : Call Event → List Event
  | .send event ids => (ids.filter (· = id)).map fun _ => event
  | .dropOldest event first ids => ((first :: ids).filter (· = id)).map fun _ => event
  | .retry event first ids => ((first :: ids).filter (· = id)).map fun _ => event
  | _ => []

def heldBy (id : Nat) (calls : List (Call Event)) : List Event := calls.flatMap (Call.held id)

def eventsOn (published : List (String × Event)) (topic : String) : List Event :=
  (published.filter (·.1 = topic)).map (·.2)

structure WellFormed (b : Bus Event) : Prop where
  fresh : ∀ id, b.nextID < id → b.subs[id]? = none
  distinct : ∀ topic, (b.topicSubs topic).Nodup
  listed : ∀ topic, ∀ id ∈ b.topicSubs topic, ∃ sub, b.subs[id]? = some sub ∧ sub.topic = topic

variable {id : Nat} {b' : Bus Event} {before after : List (Call Event)} {takesStop : Bool}
   {m : Move (Call Event) Bool}

theorem held_eq_nil {call : Call Event} (untargeted : id ∉ call.targets) : call.held id = [] := by
  have none_ (event : Event) (ids : List Nat) (absent : id ∉ ids) : (ids.filter (· = id)).map (fun _ => event) = [] := by
    rw [map_eq_nil_iff,filter_eq_nil_iff]
    rintro other member same
    exact absent (of_decide_eq_true same ▸ member)
  cases call with
  | send event ids => exact none_ event ids untargeted
  | dropOldest event first ids | retry event first ids => exact none_ event (first :: ids) untargeted
  | _ => rfl

variable (event : Event)

theorem held_cons_self (id : Nat) (ids : List Nat) :
    ((id :: ids).filter (· = id)).map (fun _ => event) = event :: (ids.filter (· = id)).map fun _ => event := by
  simp

theorem held_cons_of_ne {other : Nat} (differs : other ≠ id) (ids : List Nat) :
    ((id :: ids).filter (· = other)).map (fun _ => event) = (ids.filter (· = other)).map fun _ => event := by
  simp [Ne.symm differs]

theorem held_of_nodup {ids : List Nat} (distinct : ids.Nodup) (id : Nat) :
    (ids.filter (· = id)).map (fun _ => event) = if id ∈ ids then [event] else [] := by
  induction ids with
  | nil => rfl
  | cons first ids ih =>
    obtain ⟨absent,distinct⟩ := nodup_cons.mp distinct
    by_cases same : first = id
    · subst same
      rw [held_cons_self,ih distinct,if_neg absent,if_pos mem_cons_self]
    · rw [held_cons_of_ne event (Ne.symm same),ih distinct]
      simp [Ne.symm same]

/-- What a step does: every ledger takes one step, with the events the goroutine brings it;
a subscriber that appears has an empty one, and nothing on its way to it. -/
structure Effect (b : Bus Event) (call : Call Event) (result : Bus Event × Option (Call Event)) : Prop where
  wellFormed : WellFormed result.1
  delivers : ∀ (id : Nat) (sub : Subscriber Event), b.subs[id]? = some sub →
    ∃ sub' : Subscriber Event, result.1.subs[id]? = some sub' ∧ sub'.topic = sub.topic ∧
      Ledger.Step sub.toLedger (call.held id) sub'.toLedger (heldBy id result.2.toList) ∧
      (sub.sent.Sublist (eventsOn b.published sub.topic) → sub'.sent.Sublist (eventsOn result.1.published sub.topic))
  appears : ∀ (id : Nat) (sub' : Subscriber Event), b.subs[id]? = none → result.1.subs[id]? = some sub' →
    sub'.toLedger = .empty ∧ heldBy id result.2.toList = []
  targets : ∀ rest, result.2 = some rest → ∀ id ∈ rest.targets, (result.1.subs[id]?).isSome = true

theorem heldBy_some (id : Nat) (call : Call Event) : heldBy id (some call).toList = call.held id := by
  simp [heldBy]

variable {b : Bus Event} {call : Call Event} {rest : Option (Call Event)} {pool : Pool (Bus Event) (Call Event)}
  {calls : List (Call Event)} {sub : Subscriber Event}

/-- What the steps read of a bus besides its flags and counters. -/
def Bus.frame (b : Bus Event) := (b.subs,b.subscribers,b.nextID,b.published)

/-- The subscribers a goroutine has yet to reach are there. -/
def Reaches (b : Bus Event) (rest : Option (Call Event)) : Prop :=
  ∀ next, rest = some next → ∀ id ∈ next.targets, (b.subs[id]?).isSome = true

theorem reaches_none : Reaches b none := by rintro _ ⟨⟩

/-- Every step but a subscription changes each subscriber in its own way. -/
theorem Effect.of (change : Nat → Subscriber Event → Subscriber Event) (wellFormed : WellFormed b)
    (subs : ∀ id : Nat, b'.subs[id]? = (b.subs[id]?).map (change id))
    (topics : ∀ topic, (b'.topicSubs topic).Sublist (b.topicSubs topic)) (nextID : b'.nextID = b.nextID)
    (delivers : ∀ (id : Nat) (sub : Subscriber Event), b.subs[id]? = some sub → (change id sub).topic = sub.topic ∧
      Ledger.Step sub.toLedger (call.held id) (change id sub).toLedger (heldBy id rest.toList) ∧
      (sub.sent.Sublist (eventsOn b.published sub.topic) → (change id sub).sent.Sublist (eventsOn b'.published sub.topic)))
    (reaches : Reaches b rest) : Effect b call (b',rest) where
  wellFormed := by
    refine ⟨fun id beyond => ?_,fun topic => (wellFormed.distinct topic).sublist (topics topic),fun topic id member => ?_⟩
    · rw [subs,wellFormed.fresh id (nextID ▸ beyond)]
      rfl
    · obtain ⟨sub,found,same⟩ := wellFormed.listed topic id ((topics topic).subset member)
      exact ⟨change id sub,by rw [subs,found]; rfl,(delivers id sub found).1.trans same⟩
  delivers id sub found := ⟨change id sub,(subs id).trans (by rw [found]; rfl),delivers id sub found⟩
  appears id sub' missing found' := by
    have none_ := subs id
    rw [missing] at none_
    cases none_.symm.trans found'
  targets next goesOn id member := by
    rw [subs,Option.isSome_map]
    exact reaches next goesOn id member

theorem Effect.still (wellFormed : WellFormed b) (frame : b'.frame = b.frame)
    (held : ∀ id, heldBy id rest.toList = call.held id) (reaches : Reaches b rest) : Effect b call (b',rest) := by
  simp only [Bus.frame,Prod.mk.injEq] at frame
  obtain ⟨subs,subscribers,nextID,published⟩ := frame
  refine .of (fun _ sub => sub) wellFormed (fun id => ?_) (fun topic => ?_) nextID (fun id sub _ => ⟨rfl,?_,?_⟩) reaches
  · rw [subs,Option.map_id_fun',id_eq]
  · rw [Bus.topicSubs,Bus.topicSubs,subscribers]
  · rw [held id]
    exact .idle _ _
  · rw [published]
    exact fun before => before

theorem Effect.put (wellFormed : WellFormed b) {sub' : Subscriber Event} (found : b.subs[id]? = some sub)
    (frame : b'.frame = (b.putSub id sub').frame) (topic : sub'.topic = sub.topic) (sent : sub'.sent = sub.sent)
    (step : Ledger.Step sub.toLedger (call.held id) sub'.toLedger (heldBy id rest.toList))
    (held : ∀ other, other ≠ id → heldBy other rest.toList = call.held other) (reaches : Reaches b rest) :
    Effect b call (b',rest) := by
  simp only [Bus.frame,Bus.putSub,Prod.mk.injEq] at frame
  obtain ⟨subs,subscribers,nextID,published⟩ := frame
  refine .of (fun other old => if id = other then sub' else old) wellFormed ?_ ?_ nextID ?_ reaches
  · intro other
    rw [subs,Book.get_insert]
    split
    next same => rw [← same,found]; rfl
    · rw [Option.map_id_fun',id_eq]
  · intro topic
    rw [Bus.topicSubs,Bus.topicSubs,subscribers]
  · intro other old there
    rw [published]
    split
    next same =>
      subst same
      obtain rfl : sub = old := Option.some.inj (found.symm.trans there)
      exact ⟨topic,step,by rw [sent]; exact fun before => before⟩
    next differs =>
      rw [held other (Ne.symm differs)]
      exact ⟨rfl,.idle _ _,fun before => before⟩

theorem topicSubs_erase_sublist (b : Bus Event) (topic : String) (id : Nat) (topic' : String) :
    let left := (b.topicSubs topic).erase id
    let subscribers := if left.isEmpty then b.subscribers.erase topic else b.subscribers.insert topic left
    ((subscribers[topic']?).getD []).Sublist (b.topicSubs topic') := by
  intro left subscribers
  have same : left.Sublist (b.topicSubs topic) := erase_sublist
  by_cases equal : topic = topic'
  · subst equal
    dsimp only [subscribers]
    split
    · rw [Book.get_erase,if_pos rfl]
      exact nil_sublist _
    · rw [Book.get_insert,if_pos rfl]
      exact same
  · dsimp only [subscribers]
    split
    · rw [Book.get_erase,if_neg equal]
      exact List.Sublist.refl _
    · rw [Book.get_insert,if_neg equal]
      exact List.Sublist.refl _

theorem Effect.stops (wellFormed : WellFormed b) (ids : List Nat) (subs : b'.subs = (b.stopSubs ids).subs)
    (topics : ∀ topic, (b'.topicSubs topic).Sublist (b.topicSubs topic)) (kept : (b'.nextID,b'.published) = (b.nextID,b.published))
    (held : ∀ id, heldBy id rest.toList = call.held id) (reaches : Reaches b rest) : Effect b call (b',rest) := by
  obtain ⟨nextID,published⟩ := Prod.mk.inj kept
  refine .of _ wellFormed (fun id => by rw [subs]; exact Book.get_map b.subs _ id) topics nextID ?_ reaches
  intro id sub found
  rw [held id,published]
  split <;> exact ⟨rfl,.idle _ _,fun before => before⟩

theorem subscribe_effect (wellFormed : WellFormed b) (topic : String) (takesStop : Bool) :
    Effect b (.subscribe topic) (step b (.subscribe topic) takesStop) := by
  rw [step]
  split
  · exact .still wellFormed rfl (fun _ => rfl) reaches_none
  let id := b.nextID + 1
  let sub : Subscriber Event := ⟨.empty,topic,false⟩
  let subscribers := b.subscribers.insert topic (b.topicSubs topic ++ [id])
  have unused : b.subs[id]? = none := wellFormed.fresh id (Nat.lt_succ_self _)
  have get (other : Nat) : (b.subs.insert id sub)[other]? = if id = other then some sub else b.subs[other]? :=
    Book.get_insert b.subs id other sub
  have kept {other : Nat} {old : Subscriber Event} (found : b.subs[other]? = some old) :
      (b.subs.insert id sub)[other]? = some old := by
    rw [get,if_neg,found]
    rintro rfl
    rw [unused] at found
    cases found
  have topics (topic' : String) :
      (subscribers[topic']?).getD [] = if topic = topic' then b.topicSubs topic ++ [id] else b.topicSubs topic' := by
    rw [Book.get_insert]
    split <;> rfl
  refine ⟨⟨?_,?_,?_⟩,?_,?_,?_⟩
  · intro other beyond
    have beyond : id < other := beyond
    change (b.subs.insert id sub)[other]? = none
    rw [get,if_neg (Nat.ne_of_lt beyond),wellFormed.fresh other (by omega)]
  · intro topic'
    change ((subscribers[topic']?).getD []).Nodup
    rw [topics]
    split
    · refine nodup_append.mpr ⟨wellFormed.distinct topic,nodup_cons.mpr ⟨not_mem_nil,nodup_nil⟩,?_⟩
      rintro other member _ new rfl
      rw [mem_singleton.mp new] at member
      obtain ⟨old,found,_⟩ := wellFormed.listed topic id member
      rw [unused] at found
      cases found
    · exact wellFormed.distinct topic'
  · intro topic' other member
    change other ∈ (subscribers[topic']?).getD [] at member
    change ∃ old, (b.subs.insert id sub)[other]? = some old ∧ old.topic = topic'
    rw [topics] at member
    split at member
    next same =>
      obtain before | new := mem_append.mp member
      · obtain ⟨old,found,same'⟩ := wellFormed.listed topic other before
        exact ⟨old,kept found,same'.trans same⟩
      · rw [mem_singleton.mp new]
        exact ⟨sub,by rw [get,if_pos rfl],same⟩
    · obtain ⟨old,found,same'⟩ := wellFormed.listed topic' other member
      exact ⟨old,kept found,same'⟩
  · intro other old found
    exact ⟨old,kept found,rfl,.idle _ _,fun before => before⟩
  · intro other new absent found
    change (b.subs.insert id sub)[other]? = some new at found
    rw [get] at found
    split at found
    · cases found
      exact ⟨rfl,rfl⟩
    · rw [absent] at found
      cases found
  · intro rest goesOn other member
    cases goesOn
    cases member

theorem eventsOn_append (published : List (String × Event)) (topic : String) (event : Event) (topic' : String) :
    eventsOn (published ++ [(topic,event)]) topic' =
      eventsOn published topic' ++ if topic = topic' then [event] else [] := by
  rw [eventsOn,eventsOn,filter_append]
  by_cases same : topic = topic' <;> simp [same]

theorem publish_effect (wellFormed : WellFormed b) (topic : String) (event : Event) (takesStop : Bool) :
    Effect b (.publish topic event) (step b (.publish topic event) takesStop) := by
  have later (sent : List Event) (topic' : String) (before : sent.Sublist (eventsOn b.published topic')) :
      sent.Sublist (eventsOn (b.published ++ [(topic,event)]) topic') := by
    rw [eventsOn_append]
    exact before.trans (sublist_append_left _ _)
  rw [step]
  split
  · exact .of (fun _ sub => sub) wellFormed (fun _ => (congrFun Option.map_id_fun' _).symm) (fun _ => List.Sublist.refl _) rfl
      (fun _ sub _ => ⟨rfl,.idle _ _,later sub.sent sub.topic⟩) reaches_none
  · let ids := b.topicSubs topic
    refine .of (fun id sub => if id ∈ ids then { sub with sent := sub.sent ++ [event] } else sub) wellFormed (Book.get_map b.subs _)
      (fun _ => List.Sublist.refl _) rfl ?_ ?_
    · intro id sub found
      change _ ∧ Ledger.Step _ [] _ (heldBy id [.send event ids]) ∧ _
      rw [heldBy,flatMap_singleton,Call.held,held_of_nodup event (wellFormed.distinct topic) id]
      split
      next member =>
        obtain ⟨sub',found',same⟩ := wellFormed.listed topic id member
        obtain rfl : sub = sub' := Option.some.inj (found.symm.trans found')
        refine ⟨rfl,.take _ [] event,fun before => ?_⟩
        change (sub.sent ++ [event]).Sublist (eventsOn (b.published ++ [(topic,event)]) sub.topic)
        rw [eventsOn_append,if_pos same.symm]
        exact before.append_right [event]
      · exact ⟨rfl,.idle _ _,later sub.sent sub.topic⟩
    · intro rest goesOn id member
      cases goesOn
      obtain ⟨sub,found,_⟩ := wellFormed.listed topic id member
      rw [found]
      rfl

theorem handle_effect (wellFormed : WellFormed b) (found : b.subs[id]? = some sub) {event : Event} {rest : List Event}
    (first : sub.buffer = event :: rest) {call next : Call Event} (held : ∀ other, call.held other = [])
    (held' : ∀ other, next.held other = []) (targets : next.targets = []) :
    Effect b call (b.putSub id (sub.handle event rest),some next) := by
  refine .put wellFormed found rfl rfl rfl ?_ ?_ ?_
  · rw [heldBy_some,held,held']
    exact .handle _ _ _ _ first
  · intro other _
    rw [heldBy_some,held,held']
  · intro _ goesOn other member
    cases goesOn
    rw [targets] at member
    cases member

theorem step_effect (wellFormed : WellFormed b)
    (targeted : ∀ id ∈ call.targets, (b.subs[id]?).isSome = true) (takesStop : Bool) :
    Effect b call (step b call takesStop) := by
  have keeps {next : Call Event} (subset : ∀ id ∈ next.targets, id ∈ call.targets) : Reaches b (some next) := by
    intro next' goesOn id member
    cases goesOn
    exact targeted id (subset id member)
  have stays {next : Call Event} (held : ∀ id, next.held id = call.held id) (same : next.targets = call.targets) :
      Effect b call (b,some next) :=
    .still wellFormed rfl (fun id => (heldBy_some id next).trans (held id)) (keeps fun _ member => same ▸ member)
  cases call with
  | subscribe topic => exact subscribe_effect wellFormed topic takesStop
  | loop id =>
    rw [step]
    split
    · exact stays (fun _ => rfl) rfl
    rename_i sub found
    iterate 2 (split; · exact stays (fun _ => rfl) rfl)
    rename_i event rest first
    exact handle_effect wellFormed found first (fun _ => rfl) (fun _ => rfl) rfl
  | drain id =>
    rw [step]
    split
    · exact stays (fun _ => rfl) rfl
    rename_i sub found
    split
    · exact .still wellFormed rfl (fun _ => rfl) reaches_none
    rename_i event rest first
    exact handle_effect wellFormed found first (fun _ => rfl) (fun _ => rfl) rfl
  | unsubscribe id =>
    rw [step]
    split
    · exact .still wellFormed rfl (fun _ => rfl) reaches_none
    rename_i sub found
    exact .of (fun _ sub => sub) wellFormed (fun _ => (congrFun Option.map_id_fun' _).symm)
      (topicSubs_erase_sublist b sub.topic id) rfl (fun _ _ _ => ⟨rfl,.idle _ _,fun before => before⟩) (keeps fun _ member => member)
  | stop id =>
    exact .stops wellFormed [id] rfl (fun _ => List.Sublist.refl _) rfl (fun _ => rfl) reaches_none
  | publish topic event => exact publish_effect wellFormed topic event takesStop
  | send event ids =>
    cases ids with
    | nil => exact .still wellFormed rfl (fun _ => rfl) reaches_none
    | cons id =>
      obtain ⟨sub,found⟩ := isSome_iff_exists.mp (targeted id mem_cons_self)
      rw [step,found]
      dsimp only
      split
      · refine .put wellFormed found rfl rfl rfl ?_ ?_ (keeps fun _ member => mem_cons_of_mem _ member)
        · rw [heldBy_some,Call.held,held_cons_self]
          exact .enqueue _ _ _
        · intro other differs
          rw [heldBy_some,Call.held,Call.held,held_cons_of_ne event differs]
      · exact stays (fun _ => rfl) rfl
  | dropOldest event id ids =>
    rw [step]
    split
    · exact stays (fun _ => rfl) rfl
    rename_i sub found
    split
    · exact stays (fun _ => rfl) rfl
    rename_i oldest rest first
    refine .put wellFormed found rfl rfl rfl ?_ (fun _ _ => heldBy_some _ _) (keeps fun _ member => member)
    rw [heldBy_some]
    exact .dropOldest _ _ _ _ first
  | retry event id ids =>
    obtain ⟨sub,found⟩ := isSome_iff_exists.mp (targeted id mem_cons_self)
    have others (other : Nat) (differs : other ≠ id) :
        heldBy other (some (.send event ids) : Option (Call Event)).toList = (Call.retry event id ids).held other := by
      rw [heldBy_some,Call.held,Call.held,held_cons_of_ne event differs]
    rw [step,found]
    dsimp only
    split
    · refine .put wellFormed found rfl rfl rfl ?_ others (keeps fun _ member => mem_cons_of_mem _ member)
      rw [heldBy_some,Call.held,Call.held,held_cons_self]
      exact .enqueue _ _ _
    · refine .put wellFormed found rfl rfl rfl ?_ others (keeps fun _ member => mem_cons_of_mem _ member)
      rw [heldBy_some,Call.held,Call.held,held_cons_self]
      exact .drop _ _ _
  | close =>
    rw [step]
    split
    · exact .still wellFormed rfl (fun _ => rfl) reaches_none
    refine .stops wellFormed b.listed rfl ?_ rfl (fun _ => rfl) (keeps fun _ member => member)
    intro topic
    change (((∅ : Book String (List Nat))[topic]?).getD []).Sublist _
    exact nil_sublist _
  | closeWait =>
    rw [step]
    split
    · exact .still wellFormed rfl (fun _ => rfl) reaches_none
    · exact stays (fun _ => rfl) rfl

theorem heldBy_split (id : Nat) (before : List (Call Event)) (call : Call Event) (after : List (Call Event)) :
    heldBy id (before ++ call :: after) = heldBy id before ++ call.held id ++ heldBy id after := by
  simp [heldBy]

theorem heldBy_stepped (id : Nat) (before : List (Call Event)) (rest : Option (Call Event)) (after : List (Call Event)) :
    heldBy id (before ++ rest.toList ++ after) = heldBy id before ++ heldBy id rest.toList ++ heldBy id after := by
  simp [heldBy]

theorem heldBy_eq_nil (none_ : ∀ call ∈ calls, call.held id = []) : heldBy id calls = [] :=
  flatMap_eq_nil_iff.mpr none_

/-- Every event sent to a subscriber is handled, counted as dropped, in its buffer or on its
way, and was published on its topic. -/
structure Balanced (pool : Pool (Bus Event) (Call Event)) : Prop where
  wellFormed : WellFormed pool.shared
  targets : ∀ call ∈ pool.calls, ∀ id ∈ call.targets, (pool.shared.subs[id]?).isSome = true
  ledgers : ∀ (id : Nat) (sub : Subscriber Event), pool.shared.subs[id]? = some sub →
    sub.Counted ∧ sub.Accounted (heldBy id pool.calls) ∧ sub.sent.Sublist (eventsOn pool.shared.published sub.topic)

section
variable (starts : call.starts = true)
include starts

theorem start_holds (id : Nat) : call.held id = [] := by
  cases call <;> first | rfl | cases starts

theorem start_targets : call.targets = [] := by
  cases call <;> first | rfl | cases starts

theorem heldBy_call (id : Nat) (calls : List (Call Event)) : heldBy id (calls ++ [call]) = heldBy id calls := by
  simp [heldBy,start_holds starts]

end

theorem Balanced.started (balanced : Balanced ⟨b,calls⟩) (starts : call.starts = true) :
    Balanced ⟨b,calls ++ [call]⟩ := by
  refine ⟨balanced.wellFormed,fun other member id targeted => ?_,fun id sub found => ?_⟩
  · obtain old | new := mem_append.mp member
    · exact balanced.targets other old id targeted
    · rw [mem_singleton.mp new,start_targets starts] at targeted
      cases targeted
  · rw [heldBy_call starts]
    exact balanced.ledgers id sub found

section
variable (balanced : Balanced ⟨b,before ++ call :: after⟩)
include balanced

theorem Balanced.unheld (absent : b.subs[id]? = none) : heldBy id before = [] ∧ heldBy id after = [] := by
  have none_ (other : Call Event) (member : other ∈ before ++ call :: after) : other.held id = [] := by
    refine held_eq_nil fun targeted => ?_
    have found : (b.subs[id]?).isSome = true := balanced.targets other member id targeted
    rw [absent] at found
    cases found
  exact ⟨heldBy_eq_nil fun other member => none_ other (mem_append_left _ member),
    heldBy_eq_nil fun other member => none_ other (mem_append_right _ (mem_cons_of_mem _ member))⟩

theorem Balanced.effect (takesStop : Bool) : Effect b call (step b call takesStop) :=
  step_effect balanced.wellFormed (balanced.targets call (mem_append_right _ mem_cons_self)) takesStop

theorem Balanced.traced {result : Bus Event × Option (Call Event)} (effect : Effect b call result)
    {sub' : Subscriber Event} (found' : result.1.subs[id]? = some sub') :
    (sub'.toLedger = .empty ∧ heldBy id before ++ heldBy id result.2.toList ++ heldBy id after = []) ∨
      ∃ sub : Subscriber Event, b.subs[id]? = some sub ∧ sub'.topic = sub.topic ∧
        Ledger.Step sub.toLedger (call.held id) sub'.toLedger (heldBy id result.2.toList) ∧
        (sub.sent.Sublist (eventsOn b.published sub.topic) → sub'.sent.Sublist (eventsOn result.1.published sub.topic)) := by
  cases found : b.subs[id]? with
  | none =>
    obtain ⟨empty,unheld⟩ := effect.appears id sub' found found'
    obtain ⟨before_,after_⟩ := balanced.unheld found
    rw [before_,after_,unheld]
    exact .inl ⟨empty,rfl⟩
  | some sub =>
    obtain ⟨new,there,traced⟩ := effect.delivers id sub found
    obtain rfl : sub' = new := Option.some.inj (found'.symm.trans there)
    exact .inr ⟨sub,rfl,traced⟩

theorem Balanced.moves (takesStop : Bool) :
    Balanced ⟨(step b call takesStop).1,before ++ (step b call takesStop).2.toList ++ after⟩ := by
  have effect := balanced.effect takesStop
  generalize step b call takesStop = result at effect
  have remains (id : Nat) (found : (b.subs[id]?).isSome = true) : (result.1.subs[id]?).isSome = true := by
    obtain ⟨sub,found⟩ := isSome_iff_exists.mp found
    obtain ⟨sub',found',_⟩ := effect.delivers id sub found
    exact isSome_iff_exists.mpr ⟨sub',found'⟩
  refine ⟨effect.wellFormed,fun other member id targeted => ?_,fun id sub' found' => ?_⟩
  · obtain waiting | went := Protocol.mem_stepped member call
    · exact remains id (balanced.targets other waiting id targeted)
    · exact effect.targets other went id targeted
  · rw [heldBy_stepped]
    obtain ⟨empty,unheld⟩ | ⟨sub,found,topic,stepped,sent⟩ := balanced.traced effect found'
    · have none_ : sub'.sent = [] := congrArg Ledger.sent empty
      rw [unheld,none_,empty]
      exact ⟨rfl,Ledger.empty_accounted,nil_sublist _⟩
    · obtain ⟨counted,accounted,published⟩ := balanced.ledgers id sub found
      rw [heldBy_split] at accounted
      refine ⟨stepped.counted counted,stepped.accounted accounted,?_⟩
      rw [topic]
      exact sent published

end

def Call.publishing : Call Event → Bool
  | .publish _ _ => true
  | .send _ _ => true
  | .dropOldest _ _ _ => true
  | .retry _ _ _ => true
  | _ => false

def alone (pool : Pool (Bus Event) (Call Event)) : Move (Call Event) Bool → Bool
  | .call c => c.publishing = false ∨ pool.calls.countP Call.publishing = 0
  | .advance _ _ => true

structure InTurn (pool : Pool (Bus Event) (Call Event)) : Prop where
  balanced : Balanced pool
  solo : pool.calls.countP Call.publishing ≤ 1
  ordered : ∀ (id : Nat) (sub : Subscriber Event), pool.shared.subs[id]? = some sub → sub.InOrder (heldBy id pool.calls)

theorem held_of_quiet (quiet : call.publishing = false) (id : Nat) : call.held id = [] := by
  cases call <;> first | rfl | cases quiet

theorem heldBy_of_quiet (quiet : calls.countP Call.publishing = 0) (id : Nat) : heldBy id calls = [] :=
  heldBy_eq_nil fun call member =>
    held_of_quiet (Bool.eq_false_iff.mpr (countP_eq_zero.mp quiet call member)) id

theorem step_quiet (quiet : call.publishing = false) :
    ∀ rest ∈ (step b call takesStop).2, rest.publishing = false := by
  have returns : ∀ rest ∈ (none : Option (Call Event)), rest.publishing = false := fun _ member => by cases member
  have goesOn {next : Call Event} (same : next.publishing = false) : ∀ rest ∈ some next, rest.publishing = false :=
    fun rest member => by rw [← Option.mem_some.mp member]; exact same
  cases call with
  | publish _ _ | send _ _ | dropOldest _ _ _ | retry _ _ _ => cases quiet
  | _ =>
    unfold step
    dsimp only
    repeat' split
    all_goals first | exact returns | exact goesOn rfl

theorem InTurn.moves (inTurn : InTurn ⟨b,before ++ call :: after⟩) (takesStop : Bool) :
    InTurn ⟨(step b call takesStop).1,before ++ (step b call takesStop).2.toList ++ after⟩ := by
  have effect := inTurn.balanced.effect takesStop
  have quiet : call.publishing = false → ∀ rest ∈ (step b call takesStop).2, rest.publishing = false := step_quiet
  have balanced := inTurn.balanced.moves takesStop
  generalize step b call takesStop = result at effect quiet balanced
  have solo : (before ++ call :: after).countP Call.publishing ≤ 1 := inTurn.solo
  rw [countP_append,countP_cons] at solo
  -- Either the goroutine is the publisher and no other holds an event, or it holds none itself.
  have alone : before.countP Call.publishing + after.countP Call.publishing + result.2.toList.countP Call.publishing ≤ 1 ∧
      ((before.countP Call.publishing = 0 ∧ after.countP Call.publishing = 0) ∨
        (call.publishing = false ∧ result.2.toList.countP Call.publishing = 0)) := by
    cases publishing : call.publishing with
    | true =>
      rw [if_pos publishing] at solo
      have one : result.2.toList.countP Call.publishing ≤ result.2.toList.length := countP_le_length
      have length : result.2.toList.length ≤ 1 := by cases result.2 <;> simp
      exact ⟨by omega,.inl ⟨by omega,by omega⟩⟩
    | false =>
      have none_ : result.2.toList.countP Call.publishing = 0 := by
        refine countP_eq_zero.mpr fun next member => ?_
        rw [quiet publishing next (Option.mem_toList.mp member)]
        decide
      exact ⟨by omega,.inr ⟨rfl,none_⟩⟩
  refine ⟨balanced,?_,fun id sub' found' => ?_⟩
  · rw [countP_append,countP_append]
    omega
  · rw [heldBy_stepped]
    obtain ⟨empty,unheld⟩ | ⟨sub,found,_,stepped,_⟩ := inTurn.balanced.traced effect found'
    · rw [unheld,empty]
      exact Ledger.empty_inOrder
    · have ordered := inTurn.ordered id sub found
      rw [heldBy_split] at ordered
      refine stepped.inOrder ?_ ordered
      obtain ⟨before_,after_⟩ | ⟨call_,rest_⟩ := alone.2
      · exact .inl ⟨heldBy_of_quiet before_ id,heldBy_of_quiet after_ id⟩
      · exact .inr ⟨held_of_quiet call_ id,heldBy_of_quiet rest_ id⟩

def Call.looping : Call Event → Bool
  | .loop _ => true
  | .drain _ => true
  | _ => false

def Call.awaiting : Call Event → Bool
  | .closeWait => true
  | _ => false

def closesOnce (b : Bus Event) (call : Call Event) (_ : Bool) : Bool :=
  match call with
  | .close => b.closed = false ∨ b.running = 0
  | _ => true

def Bus.handledBy (b : Bus Event) (id : Nat) : List Event := ((b.subs[id]?).map (·.handled)).getD []

theorem handledBy_insert (found : b.subs[id]? = some sub) (sub' : Subscriber Event) (same : sub'.handled = sub.handled)
    (other : Nat) : (b.putSub id sub').handledBy other = b.handledBy other := by
  change (((b.subs.insert id sub')[other]?).map (·.handled)).getD [] = _
  rw [Book.get_insert,Bus.handledBy]
  split
  next equal =>
    subst equal
    rw [found]
    exact same
  · rfl

theorem handledBy_map {change : Nat → Subscriber Event → Subscriber Event}
    (same : ∀ id sub, (change id sub).handled = sub.handled) (other : Nat) :
    (((b.subs.map change)[other]?).map (·.handled)).getD [] = b.handledBy other := by
  rw [Book.get_map,Option.map_map]
  congr 2
  funext sub
  exact same other sub

theorem step_handled (wellFormed : WellFormed b) (quiet : call.looping = false)
    (takesStop : Bool) (other : Nat) : (step b call takesStop).1.handledBy other = b.handledBy other := by
  cases call with
  | subscribe topic =>
    rw [step]
    split
    · rfl
    have unused : b.subs[b.nextID + 1]? = none := wellFormed.fresh _ (Nat.lt_succ_self _)
    change (((b.subs.insert (b.nextID + 1) ⟨.empty,topic,false⟩)[other]?).map (·.handled)).getD [] = _
    rw [Book.get_insert,Bus.handledBy]
    split
    next equal =>
      rw [← equal,unused]
      rfl
    · rfl
  | send event ids =>
    cases ids with
    | nil => rfl
    | cons =>
      rw [step]
      split
      · rfl
      split
      · exact handledBy_insert ‹_› _ (by rfl) other
      · rfl
  | loop _ | drain _ => cases quiet
  | _ =>
    -- The others put one subscriber or map them all, and none of them handles an event.
    unfold step
    dsimp only
    repeat' split
    all_goals first | rfl | exact handledBy_insert ‹_› _ (by rfl) other | exact handledBy_map (fun _ _ => by split <;> rfl) other

/-- The wait group counts the loops; a Close has returned only from a closed bus without any. -/
structure Awaited (pool : Pool (Bus Event) (Call Event)) : Prop where
  running : pool.shared.running = pool.calls.countP Call.looping
  returned : pool.shared.closeReturned = true → pool.shared.closed = true ∧ pool.shared.running = 0
  waiting : ∀ call ∈ pool.calls, call.awaiting = true → pool.shared.closed = true

structure Waits (b : Bus Event) (call : Call Event) (result : Bus Event × Option (Call Event)) : Prop where
  running : result.1.running + call.looping.toNat = b.running + result.2.toList.countP Call.looping
  closed : b.closed = true → result.1.closed = true ∧ (call.looping = false → result.2.toList.countP Call.looping = 0)
  returned : result.1.closeReturned = true → b.closeReturned = true ∨ (result.1.closed = true ∧ result.1.running = 0)
  waiting : ∀ next, result.2 = some next → next.awaiting = true → result.1.closed = true

theorem Waits.same (running : b'.running = b.running)
    (closed : b'.closed = b.closed) (returned : b'.closeReturned = b.closeReturned)
    (loops : rest.toList.countP Call.looping = call.looping.toNat)
    (waiting : ∀ next, rest = some next → next.awaiting = true → b.closed = true) : Waits b call (b',rest) := by
  refine ⟨?_,fun shut => ⟨closed.trans shut,fun quiet => ?_⟩,fun returns => .inl (returned.symm.trans returns),?_⟩
  · rw [running,loops]
  · exact loops.trans (by rw [quiet]; rfl)
  · intro next goesOn same
    exact closed.trans (waiting next goesOn same)

theorem step_waits (waiting : call.awaiting = true → b.closed = true) (met : closesOnce b call takesStop = true) : Waits b call (step b call takesStop) := by
  have returns : ∀ next : Call Event, none = some next → next.awaiting = true → b.closed = true :=
    by rintro _ ⟨⟩
  have goesOn {next : Call Event} (other : next.awaiting = false) :
      ∀ next', some next = some next' → next'.awaiting = true → b.closed = true := by
    intro _ same wait
    cases same
    rw [other] at wait
    cases wait
  cases call with
  | subscribe topic =>
    rw [step]
    split
    · exact .same rfl rfl rfl rfl returns
    rename_i opened
    refine ⟨?_,fun shut => absurd shut opened,fun returned => .inl returned,?_⟩
    · change b.running + 1 + 0 = b.running + 1
      omega
    · intro _ same wait
      cases same
      cases wait
  | drain =>
    rw [step]
    split
    · exact .same rfl rfl rfl rfl (goesOn rfl)
    split
    · refine ⟨?_,fun shut => ⟨shut,fun quiet => rfl⟩,fun returned => .inl returned,returns⟩
      change b.running - 1 + 1 = b.running + 0
      omega
    · exact .same rfl rfl rfl rfl (goesOn rfl)
  | close =>
    rw [step]
    split
    next shut =>
      have ended : b.running = 0 := (of_decide_eq_true met).resolve_left (by rw [shut]; decide)
      exact ⟨rfl,fun shut => ⟨shut,fun _ => rfl⟩,fun _ => .inr ⟨shut,ended⟩,returns⟩
    · exact ⟨rfl,fun _ => ⟨rfl,fun _ => rfl⟩,fun returned => .inl returned,fun _ _ _ => rfl⟩
  | closeWait =>
    rw [step]
    split
    next ended =>
      exact ⟨rfl,fun shut => ⟨shut,fun _ => rfl⟩,fun _ => .inr ⟨waiting rfl,ended⟩,returns⟩
    · exact .same rfl rfl rfl rfl fun _ _ _ => waiting rfl
  | send event ids =>
    cases ids with
    | nil => exact .same rfl rfl rfl rfl returns
    | cons =>
      rw [step]
      repeat' split
      all_goals exact .same rfl rfl rfl rfl (goesOn rfl)
  | _ =>
    -- No other step touches the wait group or the flags of the bus.
    unfold step
    dsimp only
    repeat' split
    all_goals first | exact .same rfl rfl rfl rfl returns | exact .same rfl rfl rfl rfl (goesOn rfl)

theorem Awaited.quiet
    (awaited : Awaited ⟨b,before ++ call :: after⟩) (returned : b.closeReturned = true) : call.looping = false := by
  have none_ := awaited.running.symm.trans (awaited.returned returned).2
  have loops : (before ++ call :: after).countP Call.looping = 0 := by exact_mod_cast none_
  exact Bool.eq_false_iff.mpr (countP_eq_zero.mp loops call (mem_append_right _ mem_cons_self))

theorem Awaited.moves
    (awaited : Awaited ⟨b,before ++ call :: after⟩) (takesStop : Bool) (met : closesOnce b call takesStop = true) :
    Awaited ⟨(step b call takesStop).1,before ++ (step b call takesStop).2.toList ++ after⟩ := by
  have waiting : call.awaiting = true → b.closed = true := awaited.waiting call (mem_append_right _ mem_cons_self)
  have waits := step_waits waiting met
  have counted : b.running = before.countP Call.looping + (after.countP Call.looping + call.looping.toNat) := by
    have running : b.running = ((before ++ call :: after).countP Call.looping : Nat) := awaited.running
    rw [running,countP_append,countP_cons]
    cases call.looping <;> push_cast <;> rfl
  refine ⟨?_,fun returned => ?_,fun other member wait => ?_⟩
  · have balance := waits.running
    rw [countP_append,countP_append]
    push_cast
    omega
  · obtain before_ | now := waits.returned returned
    · obtain ⟨shut,ended⟩ := awaited.returned before_
      have quiet := awaited.quiet before_
      have none_ := (waits.closed shut).2 quiet
      have balance := waits.running
      rw [none_,ended,quiet] at balance
      exact ⟨(waits.closed shut).1,by simpa using balance⟩
    · exact now
  · obtain old | went := Protocol.mem_stepped member call
    · exact (waits.closed (awaited.waiting other old wait)).1
    · exact waits.waiting other went wait

theorem newBus_balanced (bufferSize : Int) : Balanced (⟨newBackpressureBus bufferSize,[]⟩ : Pool (Bus Event) (Call Event)) := by
  have none_ (id : Nat) : (newBackpressureBus bufferSize : Bus Event).subs[id]? = none := getElem?_empty
  have nobody (topic : String) : (newBackpressureBus bufferSize : Bus Event).topicSubs topic = [] := by
    change ((∅ : Book String (List Nat))[topic]?).getD [] = []
    rfl
  refine ⟨⟨fun id _ => none_ id,fun topic => ?_,fun topic id member => ?_⟩,fun _ member => ?_,fun id sub found => ?_⟩
  · exact nodup_nil
  · cases member
  · cases member
  · cases (none_ id).symm.trans found

theorem Balanced.move (balanced : Balanced pool) (m : Move (Call Event) Bool) : Balanced (bus.move pool m) := by
  refine Protocol.move_keeps balanced (fun call _ starts => balanced.started starts) ?_
  intro _ takesStop before call after _ _ split
  rw [split] at balanced
  exact balanced.moves takesStop

theorem InTurn.move (inTurn : InTurn pool) (met : alone pool m = true) : InTurn (bus.move pool m) := by
  refine Protocol.move_keeps inTurn ?_ ?_
  · intro call began starts
    refine ⟨inTurn.balanced.started starts,?_,fun id sub found => ?_⟩
    · have solo := inTurn.solo
      subst began
      rw [countP_append,countP_singleton]
      obtain quiet | none_ := of_decide_eq_true met
      · rw [quiet]
        exact solo
      · rw [none_]
        split <;> decide
    · rw [heldBy_call starts]
      exact inTurn.ordered id sub found
  · intro _ takesStop before call after _ _ split
    rw [split] at inTurn
    exact inTurn.moves takesStop

theorem start_waits (starts : call.starts = true) : call.looping = false ∧ call.awaiting = false := by
  cases call <;> first | exact ⟨rfl,rfl⟩ | cases starts

theorem Awaited.move (awaited : Awaited pool)
    (met : pool.meets closesOnce m = true) : Awaited (bus.move pool m) := by
  refine Protocol.move_keeps awaited ?_ ?_
  · intro call _ starts
    refine ⟨?_,awaited.returned,fun other member wait => ?_⟩
    · rw [countP_append,countP_singleton,(start_waits starts).1]
      exact awaited.running
    · obtain old | new := mem_append.mp member
      · exact awaited.waiting other old wait
      · rw [mem_singleton.mp new,(start_waits starts).2] at wait
        cases wait
  · intro _ takesStop before call after same found split
    subst same
    rw [Pool.meets,found] at met
    rw [split] at awaited
    exact awaited.moves takesStop met

/-- With any buffer size and in every interleaving, what a subscriber was sent is what it has
handled, what it counts as dropped, what is in its buffer and what publishers still bring it. With
one publisher it handles events in the order they were published. And if a closed bus is closed
again only after its loops have ended, no handler is called once a Close has returned. -/
theorem bus_accounting (bufferSize : Int) (moves : List (Move (Call Event) Bool)) :
    let start : Pool (Bus Event) (Call Event) := ⟨newBackpressureBus bufferSize,[]⟩
    Along bus.move (fun pool => ∀ (id : Nat) (sub : Subscriber Event), pool.shared.subs[id]? = some sub →
        sub.dropped = sub.lost.length ∧
          (sub.handled ++ sub.lost ++ sub.buffer ++ heldBy id pool.calls).Perm sub.sent) start moves ∧
      (Guarded bus.move (fun pool m => alone pool m = true) start moves →
        Along bus.move (fun pool => ∀ (id : Nat) (sub : Subscriber Event), pool.shared.subs[id]? = some sub →
          sub.handled.Sublist (eventsOn pool.shared.published sub.topic)) start moves) ∧
      (bus.Orderly closesOnce start moves →
        Linked bus.move (fun before after => before.shared.closeReturned = true →
          ∀ id, after.shared.handledBy id = before.shared.handledBy id) start moves) := by
  intro start
  have balanced : Balanced start := newBus_balanced bufferSize
  have inTurn : InTurn start := by
    refine ⟨balanced,Nat.zero_le 1,fun id sub found => ?_⟩
    cases (getElem?_empty (a := id)).symm.trans found
  have awaited : Awaited start :=
    ⟨rfl,fun returned => absurd returned Bool.false_ne_true,forall_mem_nil _⟩
  have any : Guarded bus.move (fun _ _ => True) start moves := .of_forall (fun _ _ => trivial) start moves
  refine ⟨?_,fun solo => ?_,fun orderly => ?_⟩
  · refine (along_invariant (fun pool m (kept : Balanced pool) _ => kept.move m) balanced any).mono fun pool kept id sub found => ?_
    obtain ⟨counted,accounted,_⟩ := kept.ledgers id sub found
    exact ⟨counted,accounted⟩
  · refine (along_invariant (fun _ _ => InTurn.move) inTurn solo).mono fun pool kept id sub found => ?_
    obtain ⟨_,_,published⟩ := kept.balanced.ledgers id sub found
    have ordered := kept.ordered id sub found
    rw [Ledger.InOrder,append_assoc] at ordered
    exact ((sublist_append_left _ _).trans ordered).trans published
  · refine linked_invariant (fun pool m (kept : Balanced pool ∧ Awaited pool) met => ⟨kept.1.move m,kept.2.move met⟩) ?_
      ⟨balanced,awaited⟩ orderly
    intro pool m kept _ returned
    let Same (next : Pool (Bus Event) (Call Event)) : Prop := ∀ id, next.shared.handledBy id = pool.shared.handledBy id
    have same : Same (bus.move pool m) := by
      refine Protocol.move_keeps (fun _ => rfl) (fun _ _ _ _ => rfl) ?_
      intro _ takesStop before call after _ _ split id
      have awaited : Awaited ⟨pool.shared,before ++ call :: after⟩ := split ▸ kept.2
      exact step_handled kept.1.wellFormed (awaited.quiet returned) takesStop id
    exact same

/-- The second event takes the place of the first, Close waits until it is handled, and a third one
comes too late. -/
def publishedAndClosed : List (Move (Call Nat) Bool) :=
  [.call (.subscribe "bars"),.advance 0 false,
    .call (.publish "bars" 1),.advance 1 false,.advance 1 false,.advance 1 false,
    .call (.publish "bars" 2),.advance 1 false,.advance 1 false,.advance 1 false,.advance 1 false,.advance 1 false,
    .call .close,.advance 1 false,.advance 1 false,.advance 0 false,.advance 0 false,.advance 0 false,.advance 0 false,
    .call (.publish "bars" 3),.advance 0 false]

theorem publishedAndClosed_accounted :
    let start : Pool (Bus Nat) (Call Nat) := ⟨newBackpressureBus 1,[]⟩
    let last := (run bus.move start publishedAndClosed).shared
    last.closeReturned = true ∧ last.handledBy 1 = [2] ∧
      (∀ sub : Subscriber Nat, last.subs[1]? = some sub → sub.handled.Sublist (eventsOn last.published sub.topic)) ∧
      Linked bus.move (fun before after => before.shared.closeReturned = true →
        ∀ id, after.shared.handledBy id = before.shared.handledBy id) start publishedAndClosed := by
  obtain ⟨-,ordered,closed⟩ := bus_accounting 1 publishedAndClosed
  exact ⟨by decide +kernel,by decide +kernel,(ordered (by decide +kernel)).last 1,closed (by decide +kernel)⟩

/-- A Close waits for the loop; another Close finds the bus closed and returns, and then the
loop calls the handler. -/
theorem handled_after_close :
    let published : List (Move (Call Nat) Bool) :=
      [.call (.subscribe "bars"),.advance 0 false,.call (.publish "bars" 7),.advance 1 false,.advance 1 false,.advance 1 false]
    let returned := published ++ [.call .close,.advance 1 false,.call .close,.advance 2 false]
    let start : Pool (Bus Nat) (Call Nat) := ⟨newBackpressureBus 1,[]⟩
    (run bus.move start returned).shared.closeReturned = true ∧ (run bus.move start returned).shared.handledBy 1 = [] ∧
      (run bus.move start (returned ++ [.advance 0 false])).shared.handledBy 1 = [7] := by
  decide +kernel

end QuantTrading.BackpressureBus
