import QuantTrading.Library.Book
import QuantTrading.Library.Traces

/-! The kernel that starts the modules in a fixed order and stops them in the reverse one. A boot
that was tried is not tried again, and a shutdown that was done is not done again, also when it
came before the boot. What the modules answer is given with each call; the calls made on them are
recorded.
-/
namespace QuantTrading
open Library List

namespace Kernel

def bootOrder : List String :=
  ["eventstore","clock","data-engine","portfolio","risk-engine","exec-engine","strategy-runtime","indicators",
    "exec-algo","msgbus"]

inductive LifecycleTopic where
  | kernelBoot | kernelShutdown
deriving DecidableEq

inductive Phase where
  | init | start
deriving DecidableEq

inductive StopError (Err : Type) where
  | stopFailed (name : String) (cause : Err)
deriving DecidableEq

inductive PublishError (Err : Type) where
  | noBus
  | refused (cause : Err)
deriving DecidableEq

inductive BootError (Err : Type) where
  | missingModule (name : String) (position : Nat)
  | moduleFailed (phase : Phase) (name : String) (cause : Err)
  | unpublished (topic : LifecycleTopic) (cause : PublishError Err)
deriving DecidableEq

inductive KernelError (Err : Type) where
  | nilModule
  | moduleNameEmpty
  | moduleAlreadyRegistered (name : String)
  | alreadyBooted
  | bootFailed (root : BootError Err) (rollback : List (StopError Err))
  | shutdownFailed (stops : List (StopError Err)) (publish : Option (PublishError Err))
deriving DecidableEq

structure Answers (Err : Type) where
  (init start stop : String → Option Err)
  publish : Option Err

inductive Event (M : Type) where
  | init (m : M) (ok : Bool)
  | start (m : M) (ok : Bool)
  | stop (m : M) (ok : Bool)
  | publish (topic : LifecycleTopic) (modules : List String) (ok : Bool)
deriving DecidableEq

end Kernel

structure Kernel (M : Type) where
  bus : Bool
  modules : Book String M
  booted : List String
  (shutdownDone bootAttempted : Bool)

namespace Kernel
variable {M Err : Type}

def newKernel (bus : Bool) : Kernel M := ⟨bus,∅,[],false,false⟩

/-- A call's error, the kernel it leaves and the calls it made on modules and bus. -/
structure Outcome (M Err : Type) where
  error : Option (KernelError Err)
  kernel : Kernel M
  events : List (Event M)

def register (name : M → String) (k : Kernel M) : Option M → Outcome M Err
  | none => ⟨some .nilModule,k,[]⟩
  | some m =>
    if name m = "" then ⟨some .moduleNameEmpty,k,[]⟩
    else if k.modules.contains (name m) then ⟨some (.moduleAlreadyRegistered (name m)),k,[]⟩
    else ⟨none,{ k with modules := k.modules.insert (name m) m },[]⟩

/-- The loop of `Boot` over what is left of the order. -/
def bootModules (a : Answers Err) : Kernel M → List String → Option (BootError Err) × Kernel M × List (Event M)
  | k, [] => (none,k,[])
  | k, name :: rest =>
    match k.modules[name]? with
    | none => (some (.missingModule name (k.booted.length + 1)),k,[])
    | some m =>
      match a.init name with
      | some cause => (some (.moduleFailed .init name cause),k,[.init m false])
      | none =>
        match a.start name with
        | some cause => (some (.moduleFailed .start name cause),k,[.init m true,.start m false])
        | none =>
          let later := bootModules a { k with booted := k.booted ++ [name] } rest
          (later.1,later.2.1,[.init m true,.start m true] ++ later.2.2)

variable (k : Kernel M) (h es : List (Event M))

/-- The loop of `rollbackLocked` and `Shutdown` over the started modules, the last one first. -/
def stopModules (a : Answers Err) : List (Event M) :=
  k.booted.reverse.filterMap fun name => (k.modules[name]?).map fun m => .stop m (a.stop name).isNone

def stopErrors (a : Answers Err) : List (StopError Err) :=
  k.booted.reverse.filterMap fun name => (a.stop name).map fun cause => .stopFailed name cause

def publishLocked (a : Answers Err) (topic : LifecycleTopic) : Option (PublishError Err) × List (Event M) :=
  if k.bus = false then (some .noBus,[])
  else
    match a.publish with
    | some cause => (some (.refused cause),[.publish topic k.booted false])
    | none => (none,[.publish topic k.booted true])

def bootFailedLocked (a : Answers Err) (root : BootError Err) (events : List (Event M)) : Outcome M Err :=
  ⟨some (.bootFailed root (k.stopErrors a)),{ k with booted := [] },events ++ k.stopModules a⟩

def boot (a : Answers Err) : Outcome M Err :=
  if k.bootAttempted then ⟨some .alreadyBooted,k,[]⟩
  else
    match bootModules a { k with bootAttempted := true } bootOrder with
    | (some root,k,events) => bootFailedLocked k a root events
    | (none,k,events) =>
      match k.publishLocked a .kernelBoot with
      | (some cause,published) => bootFailedLocked k a (.unpublished .kernelBoot cause) (events ++ published)
      | (none,published) => ⟨none,k,events ++ published⟩

def shutdown (a : Answers Err) : Outcome M Err :=
  if k.shutdownDone then ⟨none,k,[]⟩
  else
    let k := { k with shutdownDone := true }
    let published := k.publishLocked a .kernelShutdown
    let stops := k.stopErrors a
    ⟨if stops = [] ∧ published.1 = none then none else some (.shutdownFailed stops published.1),
      { k with booted := [] },published.2 ++ k.stopModules a⟩

inductive Call (M Err : Type) where
  | register (m : Option M)
  | boot (a : Answers Err)
  | shutdown (a : Answers Err)

def call (name : M → String) (k : Kernel M) : Call M Err → Outcome M Err
  | .register m => k.register name m
  | .boot a => k.boot a
  | .shutdown a => k.shutdown a

def step (name : M → String) (s : Kernel M × List (Event M)) (c : Call M Err) : Kernel M × List (Event M) :=
  ((s.1.call name c).kernel,s.2 ++ (s.1.call name c).events)

namespace Event

def asStart : Event M → Option M
  | .start m _ => some m
  | _ => none

def asStarted : Event M → Option M
  | .start m true => some m
  | _ => none

def asStop : Event M → Option M
  | .stop m _ => some m
  | _ => none

end Event

def starts (h : List (Event M)) : List M := h.filterMap Event.asStart
def started (h : List (Event M)) : List M := h.filterMap Event.asStarted
def stops (h : List (Event M)) : List M := h.filterMap Event.asStop

@[simp] theorem starts_append : starts (h ++ es) = starts h ++ starts es := filterMap_append
@[simp] theorem started_append : started (h ++ es) = started h ++ started es := filterMap_append
@[simp] theorem stops_append : stops (h ++ es) = stops h ++ stops es := filterMap_append

theorem started_sublist : (started h).Sublist (starts h) := by
  induction h with
  | nil => exact Sublist.slnil
  | cons event rest ih =>
    cases event with
    | start m ok =>
      cases ok with
      | true => exact ih.cons_cons m
      | false => exact ih.cons m
    | _ => exact ih

theorem started_eq_nil (silent : starts h = []) : started h = [] := sublist_nil.mp (silent ▸ started_sublist h)

def Due (before : List (Event M)) : Event M → Prop
  | .stop m _ => m ∈ started before
  | _ => True

variable {event : Event M} {k : Kernel M} {a : Answers Err} {c : Call M Err}

theorem Due.append {before more : List (Event M)} (due : Due before event) : Due (before ++ more) event := by
  cases event with
  | stop =>
    rw [Due,started_append]
    exact mem_append_left _ due
  | _ => trivial

def running (k : Kernel M) : List M := k.booted.filterMap fun name => k.modules[name]?

section
variable (k : Kernel M) (a : Answers Err)

theorem starts_stopModules : starts (k.stopModules a) = [] := by
  rw [starts,stopModules,filterMap_filterMap]
  refine filterMap_eq_nil_iff.mpr fun name _ => ?_
  cases k.modules[name]? <;> rfl

theorem started_stopModules : started (k.stopModules a) = [] := started_eq_nil _ (starts_stopModules k a)

theorem stops_stopModules : stops (k.stopModules a) = k.running.reverse := by
  rw [stops,stopModules,filterMap_filterMap,running,← filterMap_reverse]
  congr 1
  funext name
  cases k.modules[name]? <;> rfl

end

theorem due_stopModules {h : List (Event M)} (startedAll : ∀ m ∈ k.running, m ∈ started h) (listed : event ∈ k.stopModules a) : Due h event := by
  obtain ⟨name,booted,entry⟩ := mem_filterMap.mp listed
  obtain ⟨m,found,rfl⟩ := map_eq_some_iff.mp entry
  exact startedAll m (mem_filterMap.mpr ⟨name,mem_reverse.mp booted,found⟩)

section
variable (k : Kernel M) (a : Answers Err) (topic : LifecycleTopic)

theorem events_publishLocked : starts (k.publishLocked a topic).2 = [] ∧ stops (k.publishLocked a topic).2 = [] := by
  unfold publishLocked
  split
  · exact ⟨rfl,rfl⟩
  · split <;> exact ⟨rfl,rfl⟩

theorem publishLocked_eq_none_iff : (k.publishLocked a topic).1 = none ↔ k.bus = true ∧ a.publish = none := by
  unfold publishLocked
  cases k.bus with
  | false => simp
  | true =>
    cases a.publish with
    | none | some _ => simp

end

def Answering (k : Kernel M) (a : Answers Err) (names : List String) : Prop :=
  ∀ name ∈ names, (k.modules[name]?).isSome = true ∧ a.init name = none ∧ a.start name = none

/-- What the boot loop does with the names it is given: it starts the first ones of them. -/
structure Booting (a : Answers Err) (k : Kernel M) (names : List String)
    (result : Option (BootError Err) × Kernel M × List (Event M)) (done : List String) : Prop where
  first : done <+: names
  kernel : result.2.1 = { k with booted := k.booted ++ done }
  known : ∀ name ∈ done, (k.modules[name]?).isSome = true
  started : started result.2.2 = done.filterMap fun name => k.modules[name]?
  starts : (starts result.2.2).Sublist (names.filterMap fun name => k.modules[name]?)
  stops : stops result.2.2 = []
  whole : result.1 = none → done = names
  answering : result.1 = none ↔ Answering k a names

theorem bootModules_spec (a : Answers Err) (k : Kernel M) (names : List String) :
    ∃ done, Booting a k names (bootModules a k names) done := by
  induction names generalizing k with
  | nil =>
    refine ⟨[],List.nil_prefix,by simp [bootModules],by simp,rfl,Sublist.slnil,rfl,fun _ => rfl,?_⟩
    simp [bootModules,Answering]
  | cons name rest ih =>
    unfold bootModules
    cases found : k.modules[name]? with
    | none =>
      refine ⟨[],List.nil_prefix,by simp,by simp,rfl,nil_sublist _,rfl,by simp,iff_of_false (by simp) ?_⟩
      intro all
      have there := (all name (mem_cons_self ..)).1
      rw [found] at there
      cases there
    | some m =>
      cases initialised : a.init name with
      | some =>
        refine ⟨[],List.nil_prefix,by simp,by simp,rfl,nil_sublist _,rfl,by simp,?_⟩
        simp [Answering,initialised]
      | none =>
        cases begun : a.start name with
        | some =>
          refine ⟨[],List.nil_prefix,by simp,by simp,rfl,?_,rfl,by simp,?_⟩
          · rw [filterMap_cons_some found]
            exact Sublist.cons_cons m (nil_sublist _)
          · simp [Answering,begun]
        | none =>
          obtain ⟨done,later⟩ := ih { k with booted := k.booted ++ [name] }
          refine ⟨name :: done,cons_prefix_cons.mpr ⟨rfl,later.first⟩,?_,?_,?_,?_,later.stops,?_,?_⟩
          · rw [later.kernel]
            simp
          · intro other listed
            rcases mem_cons.mp listed with rfl | listed
            · simp [found]
            · exact later.known other listed
          · rw [filterMap_cons_some found]
            exact congrArg (m :: ·) later.started
          · rw [filterMap_cons_some found]
            exact Sublist.cons_cons m later.starts
          · intro ok
            rw [later.whole ok]
          · refine later.answering.trans ?_
            simp only [Answering,mem_cons,forall_eq_or_imp,found,initialised,begun,Option.isSome_some,and_self,
              true_and]

def Boots (k : Kernel M) (a : Answers Err) : Prop := Answering k a bootOrder ∧ k.bus = true ∧ a.publish = none

/-- A first boot: the modules it started, and whether they were left running or stopped again. -/
inductive BootEnd (k : Kernel M) (a : Answers Err) : Outcome M Err → Prop where
  | failed (error : KernelError Err) (k' : Kernel M) (events : List (Event M)) (modules : k'.modules = k.modules)
      (attempted : k'.bootAttempted = true) (shut : k'.shutdownDone = k.shutdownDone) (unable : ¬ Boots k a)
      (begun : (starts events).Sublist (bootOrder.filterMap fun name => k.modules[name]?))
      (quiet : stops events = []) (left : k'.running = started events) :
      BootEnd k a ⟨some error,{ k' with booted := [] },events ++ k'.stopModules a⟩
  | booted (k' : Kernel M) (events : List (Event M)) (modules : k'.modules = k.modules)
      (attempted : k'.bootAttempted = true) (shut : k'.shutdownDone = k.shutdownDone) (able : Boots k a)
      (begun : (starts events).Sublist (bootOrder.filterMap fun name => k.modules[name]?))
      (quiet : stops events = []) (left : k'.running = started events) (all : k'.booted = bootOrder) :
      BootEnd k a ⟨none,k',events⟩

theorem boot_first (a : Answers Err) (first : k.bootAttempted = false) (idle : k.booted = []) :
    BootEnd k a (k.boot a) := by
  obtain ⟨done,booting⟩ := bootModules_spec a { k with bootAttempted := true } bootOrder
  unfold boot
  rw [if_neg (by simp [first])]
  generalize bootModules a { k with bootAttempted := true } bootOrder = result at booting ⊢
  obtain ⟨root,k',events⟩ := result
  have kernel : k' = { k with bootAttempted := true, booted := done } := booting.kernel.trans (by simp [idle])
  have left : k'.running = started events := by
    rw [show started events = _ from booting.started,kernel]
    rfl
  have modules : k'.modules = k.modules := by rw [kernel]
  have attempted : k'.bootAttempted = true := by rw [kernel]
  have shut : k'.shutdownDone = k.shutdownDone := by rw [kernel]
  cases root with
  | some root =>
    refine .failed _ k' events modules attempted shut ?_ booting.starts booting.stops left
    intro able
    have none_ : some root = none := booting.answering.mpr able.1
    cases none_
  | none =>
    have bus : k'.bus = k.bus := by rw [kernel]
    have published := events_publishLocked k' a .kernelBoot
    have outcome := publishLocked_eq_none_iff k' a .kernelBoot
    dsimp only
    generalize k'.publishLocked a .kernelBoot = answer at published outcome ⊢
    obtain ⟨cause,message⟩ := answer
    have begun : (starts (events ++ message)).Sublist (bootOrder.filterMap fun name => k.modules[name]?) := by
      rw [starts_append,show starts message = [] from published.1,append_nil]
      exact booting.starts
    have quiet : stops (events ++ message) = [] := by
      rw [stops_append,show stops events = [] from booting.stops,show stops message = [] from published.2]
      rfl
    have silent : started message = [] := started_eq_nil _ published.1
    have left' : k'.running = started (events ++ message) := by rw [started_append,silent,append_nil,left]
    cases cause with
    | some cause =>
      refine .failed _ k' (events ++ message) modules attempted shut ?_ begun quiet left'
      intro able
      have none_ : some cause = none := outcome.mpr ⟨bus.trans able.2.1,able.2.2⟩
      cases none_
    | none =>
      have able := outcome.mp rfl
      refine .booted k' (events ++ message) modules attempted shut ⟨booting.answering.mp rfl,bus.symm.trans able.1,able.2⟩
        begun quiet left' ?_
      rw [kernel]
      exact booting.whole rfl

/-- What holds after any calls. The started modules are running, or they were all stopped in the
reverse order. -/
structure Sound (name : M → String) (s : Kernel M × List (Event M)) : Prop where
  named : ∀ key m, s.1.modules[key]? = some m → name m = key
  known : ∀ key ∈ s.1.booted, (s.1.modules[key]?).isSome = true
  idle : s.1.bootAttempted = false → s.1.booted = [] ∧ starts s.2 = [] ∧ stops s.2 = []
  once : (starts s.2).Nodup
  due : Justified Due s.2
  phase : s.1.booted = [] ∧ stops s.2 = (started s.2).reverse ∨ stops s.2 = [] ∧ started s.2 = s.1.running

theorem sound_new (name : M → String) (bus : Bool) : Sound name (newKernel bus,[]) :=
  ⟨by simp [newKernel],by simp [newKernel],fun _ => ⟨rfl,rfl,rfl⟩,nodup_nil,Justified.nil,.inl ⟨rfl,rfl⟩⟩

theorem due_of_quiet {h events : List (Event M)} (quiet : stops events = []) (listed : event ∈ events) :
    Due h event := by
  cases event with
  | stop m =>
    have stopped : m ∈ stops events := mem_filterMap.mpr ⟨_,listed,rfl⟩
    rw [quiet] at stopped
    cases stopped
  | _ => trivial

variable {name : M → String} {s : Kernel M × List (Event M)}

theorem order_nodup (named : ∀ key m, k.modules[key]? = some m → name m = key) :
    (bootOrder.filterMap fun key => k.modules[key]?).Nodup := by
  refine Nodup.filterMap ?_ (by decide)
  intro first second m one other
  rw [← named first m one,named second m other]

theorem Sound.registered (sound : Sound name s) (m : M)
    (free : ¬ s.1.modules.contains (name m) = true) :
    Sound name ({ s.1 with modules := s.1.modules.insert (name m) m },s.2) := by
  have kept (key : String) (there : (s.1.modules[key]?).isSome = true) :
      (s.1.modules.insert (name m) m)[key]? = s.1.modules[key]? := by
    rw [Book.get_insert,if_neg]
    rintro rfl
    exact free (by simpa using there)
  have running : ({ s.1 with modules := s.1.modules.insert (name m) m } : Kernel M).running = s.1.running :=
    filterMap_congr fun key booted => kept key (sound.known key booted)
  refine ⟨?_,?_,sound.idle,sound.once,sound.due,?_⟩
  · intro key other found
    rw [Book.get_insert] at found
    split at found
    · rename_i same
      cases found
      exact same
    · exact sound.named key other found
  · intro key booted
    rw [kept key (sound.known key booted)]
    exact sound.known key booted
  · rw [running]
    exact sound.phase

theorem Sound.booted (sound : Sound name s)
    {outcome : Outcome M Err} (first : s.1.bootAttempted = false) (ended : BootEnd s.1 a outcome) :
    Sound name (outcome.kernel,s.2 ++ outcome.events) := by
  obtain ⟨_,noStarts,noStops⟩ := sound.idle first
  have nothing : started s.2 = [] := started_eq_nil _ noStarts
  cases ended with
  | failed error k' events modules attempted shut unable begun quiet left =>
    have due := sound.due.append Due.append (fun event listed => due_of_quiet quiet listed)
    refine ⟨?_,by simp,by simp [attempted],?_,?_,.inl ⟨rfl,?_⟩⟩
    · intro key m found
      exact sound.named key m (modules ▸ found)
    · rw [starts_append,starts_append,noStarts,starts_stopModules,append_nil]
      exact begun.nodup (order_nodup sound.named)
    · rw [← append_assoc]
      refine due.append Due.append fun event listed => due_stopModules ?_ listed
      intro m there
      rw [started_append,nothing,nil_append,← left]
      exact there
    · simp only [stops_append,started_append,noStops,nothing,quiet,stops_stopModules,started_stopModules,nil_append,
        append_nil,left]
  | booted k' events modules attempted shut able begun quiet left all =>
    refine ⟨?_,?_,by simp [attempted],?_,sound.due.append Due.append fun event listed => due_of_quiet quiet listed,
      .inr ⟨?_,?_⟩⟩
    · intro key m found
      exact sound.named key m (modules ▸ found)
    · intro key listed
      rw [modules]
      exact (able.1 key (all ▸ listed)).1
    · rw [starts_append,noStarts]
      exact begun.nodup (order_nodup sound.named)
    · rw [stops_append,noStops,quiet]
      rfl
    · rw [started_append,nothing,nil_append,left]

theorem Sound.shut (sound : Sound name s) (a : Answers Err) (first : s.1.shutdownDone = false) :
    Sound name ((s.1.shutdown a).kernel,s.2 ++ (s.1.shutdown a).events) ∧ (s.1.shutdown a).kernel.booted = [] := by
  have published := events_publishLocked { s.1 with shutdownDone := true } a .kernelShutdown
  have running : ({ s.1 with shutdownDone := true } : Kernel M).running = s.1.running := rfl
  unfold shutdown
  rw [if_neg (by simp [first])]
  dsimp only
  generalize publishLocked { s.1 with shutdownDone := true } a .kernelShutdown = message at published ⊢
  have silent : started message.2 = [] := started_eq_nil _ published.1
  have due := sound.due.append Due.append (fun event listed => due_of_quiet published.2 listed)
  refine ⟨⟨sound.named,by simp,?_,?_,?_,.inl ⟨rfl,?_⟩⟩,rfl⟩
  · intro unattempted
    obtain ⟨empty,noStarts,noStops⟩ := sound.idle unattempted
    refine ⟨rfl,?_,?_⟩
    · rw [starts_append,starts_append,noStarts,published.1,starts_stopModules]
      rfl
    · rw [stops_append,stops_append,noStops,published.2,stops_stopModules,running,Kernel.running,empty]
      rfl
  · rw [starts_append,starts_append,published.1,starts_stopModules,append_nil,append_nil]
    exact sound.once
  · rw [← append_assoc]
    refine due.append Due.append fun event listed => due_stopModules ?_ listed
    intro m there
    rw [started_append,silent,append_nil]
    rcases sound.phase with ⟨empty,_⟩ | ⟨_,same⟩
    · rw [running,Kernel.running,empty] at there
      cases there
    · rw [same]
      exact there
  · simp only [stops_append,started_append,published.2,silent,stops_stopModules,started_stopModules,running,nil_append,
      append_nil]
    rcases sound.phase with ⟨empty,reversed⟩ | ⟨quiet,same⟩
    · rw [Kernel.running,empty,reversed]
      exact append_nil _
    · rw [quiet,same]
      rfl

theorem step_sound (c : Call M Err) (sound : Sound name s) : Sound name (step name s c) := by
  cases c with
  | register m =>
    cases m with
    | none => simpa [step,call,register] using sound
    | some m =>
      simp only [step,call,register]
      split
      · simpa using sound
      · split
        · simpa using sound
        · rename_i free
          simpa using sound.registered m free
  | boot a =>
    cases first : s.1.bootAttempted with
    | false => exact sound.booted first (boot_first a first (sound.idle first).1)
    | true => simpa [step,call,boot,first] using sound
  | shutdown a =>
    cases first : s.1.shutdownDone with
    | false => exact (sound.shut a first).1
    | true => simpa [step,call,shutdown,first] using sound

theorem run_sound (name : M → String) (bus : Bool) (calls : List (Call M Err)) :
    Sound name (run (step name) (newKernel bus,[]) calls) :=
  run_always (fun _ c sound => step_sound c sound) (sound_new name bus) calls

def BootsInTime (s : Kernel M × List (Event M)) : Call M Err → Prop
  | .boot a => s.1.shutdownDone = false ∨ s.1.bootAttempted = true ∨ ¬ Boots s.1 a
  | _ => True

structure Stranded (s : Kernel M × List (Event M)) : Prop where
  shut : s.1.shutdownDone = true
  attempted : s.1.bootAttempted = true
  quiet : stops s.2 = []
  left : started s.2 ≠ []

theorem step_stranded (c : Call M Err) (stranded : Stranded s) : Stranded (step name s c) := by
  have kept : (step name s c).2 = s.2 ∧ (step name s c).1.shutdownDone = true ∧ (step name s c).1.bootAttempted = true := by
    cases c with
    | register m =>
      cases m with
      | none => exact ⟨append_nil _,stranded.shut,stranded.attempted⟩
      | some =>
        simp only [step,call,register]
        split
        · exact ⟨append_nil _,stranded.shut,stranded.attempted⟩
        · split <;> exact ⟨append_nil _,stranded.shut,stranded.attempted⟩
    | boot => simp [step,call,boot,stranded.attempted,stranded.shut]
    | shutdown => simp [step,call,shutdown,stranded.attempted,stranded.shut]
  exact ⟨kept.2.1,kept.2.2,kept.1 ▸ stranded.quiet,kept.1 ▸ stranded.left⟩

def Quit (s : Kernel M × List (Event M)) : Prop := s.1.shutdownDone = true → s.1.booted = []

theorem step_quit (sound : Sound name s) (quit : Quit s) (inTime : BootsInTime s c) : Quit (step name s c) := by
  cases c with
  | register m =>
    cases m with
    | none => exact quit
    | some =>
      simp only [step,call,register]
      split
      · exact quit
      · split <;> exact quit
  | boot a =>
    cases first : s.1.bootAttempted with
    | true => simpa [step,call,boot,first] using quit
    | false =>
      have ended := boot_first a first (sound.idle first).1
      change (s.1.boot a).kernel.shutdownDone = true → (s.1.boot a).kernel.booted = []
      generalize s.1.boot a = outcome at ended ⊢
      cases ended with
      | failed => exact fun _ => rfl
      | booted k' events modules attempted shut able =>
        intro done
        rcases inTime with never | again | unable
        · rw [shut,never] at done
          cases done
        · rw [first] at again
          cases again
        · exact absurd able unable
  | shutdown a =>
    cases first : s.1.shutdownDone with
    | true => simpa [step,call,shutdown,first] using quit
    | false => exact fun _ => (sound.shut a first).2

theorem run_quit (name : M → String) (bus : Bool) {calls : List (Call M Err)}
    (inTime : Guarded (step name) BootsInTime (newKernel bus,[]) calls) : Quit (run (step name) (newKernel bus,[]) calls) := by
  have preserved (s : Kernel M × List (Event M)) (c : Call M Err) (held : Sound name s ∧ Quit s) (inTime : BootsInTime s c) :
      Sound name (step name s c) ∧ Quit (step name s c) := ⟨step_sound c held.1,step_quit held.1 held.2 inTime⟩
  exact (run_invariant preserved ⟨sound_new name bus,by simp [Quit,newKernel]⟩ inTime).2

theorem late_boot_strands (sound : Sound name s) (late : ¬ BootsInTime s c) : Stranded (step name s c) := by
  cases c with
  | boot a =>
    simp only [BootsInTime,not_or,Bool.not_eq_false,Bool.not_eq_true,not_not] at late
    obtain ⟨done,first,able⟩ := late
    obtain ⟨_,noStarts,noStops⟩ := sound.idle first
    have ended := boot_first a first (sound.idle first).1
    have after := step_sound (.boot a) sound
    change Sound name ((s.1.boot a).kernel,s.2 ++ (s.1.boot a).events) at after
    change Stranded ((s.1.boot a).kernel,s.2 ++ (s.1.boot a).events)
    generalize s.1.boot a = outcome at ended after ⊢
    cases ended with
    | failed error k' events modules attempted shut unable => exact absurd able unable
    | booted k' events modules attempted shut able begun quiet left all =>
      refine ⟨shut.trans done,attempted,by rw [stops_append,noStops,quiet]; rfl,?_⟩
      intro nothing
      have there : "eventstore" ∈ k'.booted := all ▸ mem_cons_self ..
      obtain ⟨m,found⟩ := isSome_iff_exists.mp (after.known "eventstore" there)
      have runs : m ∈ started events := left ▸ mem_filterMap.mpr ⟨_,there,found⟩
      rw [started_append] at nothing
      rw [(append_eq_nil_iff.mp nothing).2] at runs
      cases runs
  | _ => exact absurd trivial late

theorem shutdownDone_shutdown (k : Kernel M) (a : Answers Err) : (k.shutdown a).kernel.shutdownDone = true := by
  unfold shutdown
  split
  · assumption
  · rfl

theorem Sound.closed (sound : Sound name s) (idle : s.1.booted = []) : stops s.2 = (started s.2).reverse := by
  rcases sound.phase with ⟨_,reversed⟩ | ⟨quiet,same⟩
  · exact reversed
  · rw [quiet,same,running,idle]
    rfl

/-- Each module is started at most once, stopped only after its start and in the reverse order of
the starts. When the last call was a shutdown, every started module was stopped once. -/
structure Lifecycle [DecidableEq M] (calls : List (Call M Err)) (h : List (Event M)) : Prop where
  once : (starts h).Nodup
  due : Justified Due h
  reversed : (stops h).Sublist (started h).reverse
  closed : ∀ before a, calls = before ++ [.shutdown a] → ∀ m ∈ started h, (stops h).count m = 1

/-- The lifecycle holds exactly when, before a last shutdown, every boot came in time. -/
theorem lifecycle_iff [DecidableEq M] (name : M → String) (bus : Bool) (calls : List (Call M Err)) :
    Lifecycle calls (run (step name) (newKernel bus,[]) calls).2 ↔
      ∀ before a, calls = before ++ [.shutdown a] → Guarded (step name) BootsInTime (newKernel bus,[]) before := by
  have sound := run_sound name bus calls
  constructor
  · rintro life before a rfl
    by_contra late
    have stranded := run_trapped (fun _ c held => step_sound c held) (fun _ _ held late => late_boot_strands held late)
      (fun _ c held => step_stranded c held) (sound_new name bus)
      (fun guarded => late (guarded_append.mp guarded).1 : ¬ Guarded (step name) BootsInTime _ (before ++ [.shutdown a]))
    obtain ⟨m,left⟩ := exists_mem_of_ne_nil _ stranded.left
    have once := life.closed before a rfl m left
    rw [stranded.quiet] at once
    cases once
  · intro inTime
    refine ⟨sound.once,sound.due,?_,?_⟩
    · rcases sound.phase with ⟨_,reversed⟩ | ⟨quiet,_⟩
      · rw [reversed]
      · rw [quiet]
        exact nil_sublist _
    · rintro before a rfl m left
      have quit := step_quit (c := .shutdown a) (run_sound name bus before) (run_quit name bus (inTime before a rfl)) trivial
      rw [run_append] at sound left ⊢
      have reversed := sound.closed (quit (shutdownDone_shutdown _ a))
      rw [reversed,count_reverse]
      exact count_eq_one_of_mem (sound.once.sublist (started_sublist _)) left

/-- A boot after a shutdown starts the modules, and the next shutdown does not stop them. -/
theorem shutdown_then_boot_left_running :
    let quiet : Answers Unit := ⟨fun _ => none,fun _ => none,fun _ => none,none⟩
    let calls : List (Call String Unit) :=
      bootOrder.map (fun m => .register (some m)) ++ [.shutdown quiet,.boot quiet,.shutdown quiet]
    let h := (run (step id) (newKernel true,[]) calls).2
    (started h = bootOrder ∧ stops h = []) ∧ ¬ Lifecycle calls h := by
  intro quiet calls h
  have left : started h = bootOrder ∧ stops h = [] := by decide +kernel
  refine ⟨left,fun life => ?_⟩
  have once := life.closed (bootOrder.map (fun m => .register (some m)) ++ [.shutdown quiet,.boot quiet]) quiet rfl
    "eventstore" (by rw [left.1]; decide)
  cases once

end Kernel
end QuantTrading
