import Mathlib.Algebra.BigOperators.Group.List.Basic
import Mathlib.Tactic.Ring
import QuantTrading.Library.Runs

/-! Interleavings of calls over a shared state. A call advances by atomic steps, and between
two of them any other call may move. What all interleavings keep follows from what one step
does to the shared state, to the call that takes it and to the calls that wait.
-/
namespace Library
open List

/-- Where calls may begin, and one atomic step of a call: it reads an answer of the environment,
changes the shared state, and goes on or returns. -/
structure Protocol (S C E : Type) where
  starts : C → Bool
  step : S → C → E → S × Option C

structure Pool (S C : Type) where
  shared : S
  calls : List C

inductive Move (C E : Type) where
  | call (c : C)
  | advance (i : Nat) (answer : E)

def Pool.meets {S C E : Type} (guard : S → C → E → Bool) (pool : Pool S C) : Move C E → Bool
  | .call _ => true
  | .advance i answer => (pool.calls[i]?).all fun c => guard pool.shared c answer

def Pool.takes {S C E : Type} (event : S → C → E → Bool) (pool : Pool S C) : Move C E → Bool
  | .call _ => false
  | .advance i answer => (pool.calls[i]?).any fun c => event pool.shared c answer

namespace Pool
variable {S C : Type}

def measure (shared : S → ℤ) (weight : C → ℤ) (pool : Pool S C) : ℤ :=
  shared pool.shared + (pool.calls.map weight).sum

variable (shared : S → ℤ) (weight : C → ℤ)

theorem measure_call {c : C} (weightless : weight c = 0) (s : S) (calls : List C) :
    measure shared weight ⟨s,calls ++ [c]⟩ = measure shared weight ⟨s,calls⟩ := by
  simp [measure,weightless]

theorem measure_step (s : S) (before : List C) (c : C) (after : List C) (s' : S) (rest : Option C) :
    measure shared weight ⟨s',before ++ rest.toList ++ after⟩ = measure shared weight ⟨s,before ++ c :: after⟩ +
        ((shared s' + (rest.map weight).getD 0) - (shared s + weight c)) := by
  cases rest with
  | none =>
    simp only [measure,Option.toList_none,append_nil,map_append,map_cons,sum_append,
      sum_cons,map_none,getD_none]
    ring
  | some =>
    simp only [measure,Option.toList_some,map_append,map_cons,map_nil,sum_append,
      sum_cons,sum_nil,map_some,getD_some]
    ring

end Pool

namespace Protocol
variable {S C E : Type} (p : Protocol S C E)

def move (pool : Pool S C) : Move C E → Pool S C
  | .call c => if p.starts c then ⟨pool.shared,pool.calls ++ [c]⟩ else pool
  | .advance i answer =>
    match pool.calls[i]? with
    | none => pool
    | some c =>
      let stepped := p.step pool.shared c answer
      ⟨stepped.1,pool.calls.take i ++ stepped.2.toList ++ pool.calls.drop (i + 1)⟩

inductive Moved (guard : S → C → E → Bool) : Pool S C → Pool S C → Prop
  | idle (pool) : Moved guard pool pool
  | call (s calls c) (begins : p.starts c = true) : Moved guard ⟨s,calls⟩ ⟨s,calls ++ [c]⟩
  | step (s before c after answer) (met : guard s c answer = true) :
      Moved guard ⟨s,before ++ c :: after⟩
        ⟨(p.step s c answer).1,before ++ (p.step s c answer).2.toList ++ after⟩

variable {p} {guard : S → C → E → Bool} {pool next : Pool S C}

theorem advance_cases (p : Protocol S C E) (pool : Pool S C) (i : Nat) (answer : E) :
    (pool.calls[i]? = none ∧ p.move pool (.advance i answer) = pool) ∨
      ∃ before c after, pool.calls[i]? = some c ∧ pool.calls = before ++ c :: after ∧
        p.move pool (.advance i answer) =
          ⟨(p.step pool.shared c answer).1,before ++ (p.step pool.shared c answer).2.toList ++ after⟩ := by
  rw [move]
  split
  next none_ =>
    exact .inl ⟨none_,rfl⟩
  next c found =>
    obtain ⟨bound,rfl⟩ := List.getElem?_eq_some_iff.mp found
    have split : pool.calls = pool.calls.take i ++ pool.calls[i] :: pool.calls.drop (i + 1) := by
      rw [getElem_cons_drop,take_append_drop]
    exact .inr ⟨_,_,_,found,split,rfl⟩

theorem mem_stepped {before after : List C} {rest : Option C} {other : C} (member : other ∈ before ++ rest.toList ++ after)
    (c : C) : other ∈ before ++ c :: after ∨ rest = some other := by
  simp only [mem_append,Option.mem_toList,mem_cons] at member ⊢
  tauto

variable {m : Move C E}

theorem move_keeps {Inv : Pool S C → Prop} (inv : Inv pool)
    (calls : ∀ c, m = .call c → p.starts c = true → Inv ⟨pool.shared,pool.calls ++ [c]⟩)
    (steps : ∀ i answer before c after, m = .advance i answer → pool.calls[i]? = some c →
      pool = ⟨pool.shared,before ++ c :: after⟩ →
      Inv ⟨(p.step pool.shared c answer).1,before ++ (p.step pool.shared c answer).2.toList ++ after⟩) :
    Inv (p.move pool m) := by
  cases m with
  | call c =>
    rw [move]
    split
    next begins =>
      exact calls c rfl begins
    · exact inv
  | advance i answer =>
    obtain ⟨_,same⟩ | ⟨before,c,after,found,split,stepped⟩ := p.advance_cases pool i answer
    · rw [same]
      exact inv
    · rw [stepped]
      exact steps i answer before c after rfl found (by rw [← split])

theorem moved (met : pool.meets guard m = true) : p.Moved guard pool (p.move pool m) := by
  cases m with
  | call c =>
    rw [move]
    split
    next begins =>
      exact .call _ _ c begins
    · exact .idle pool
  | advance i answer =>
    obtain ⟨_,same⟩ | ⟨before,c,after,found,split,stepped⟩ := p.advance_cases pool i answer
    · rw [same]
      exact .idle pool
    · rw [Pool.meets,found] at met
      obtain ⟨shared,calls⟩ := pool
      obtain rfl : calls = before ++ c :: after := split
      rw [stepped]
      exact .step shared before c after answer met

/-- An invariant of the shared state and an assertion of every call in flight: a step keeps
both for its own call, and no step of another call breaks the assertion. -/
structure Keeps (p : Protocol S C E) (guard : S → C → E → Bool) (I : S → Prop) (J : S → C → Prop) : Prop where
  begins : ∀ s c, p.starts c = true → I s → J s c
  steps : ∀ s c answer, guard s c answer = true → I s → J s c →
    I (p.step s c answer).1 ∧ ∀ rest, (p.step s c answer).2 = some rest → J (p.step s c answer).1 rest
  stable : ∀ s c answer other, guard s c answer = true → I s → J s c → J s other → J (p.step s c answer).1 other

section Invariants
variable {I : S → Prop} {J : S → C → Prop} {R : S → S → Prop}

theorem Keeps.moved (keeps : p.Keeps guard I J) (moved : p.Moved guard pool next)
    (inv : I pool.shared ∧ ∀ c ∈ pool.calls, J pool.shared c) :
    I next.shared ∧ ∀ c ∈ next.calls, J next.shared c := by
  obtain ⟨holds,each⟩ := inv
  cases moved with
  | idle => exact ⟨holds,each⟩
  | call s calls c starts =>
    refine ⟨holds,fun other member => ?_⟩
    obtain old | new := mem_append.mp member
    · exact each other old
    · obtain rfl := mem_singleton.mp new
      exact keeps.begins s other starts holds
  | step s before c after answer met =>
    have own : J s c := each c (mem_append_right _ mem_cons_self)
    obtain ⟨kept,goesOn⟩ := keeps.steps s c answer met holds own
    refine ⟨kept,fun other member => ?_⟩
    obtain waiting | went := mem_stepped member c
    · exact keeps.stable s c answer other met holds own (each other waiting)
    · exact goesOn other went

def Orderly (p : Protocol S C E) (guard : S → C → E → Bool) : Pool S C → List (Move C E) → Prop :=
  Guarded p.move fun pool m => pool.meets guard m = true

instance (guard : S → C → E → Bool) (start : Pool S C) (moves : List (Move C E)) :
    Decidable (p.Orderly guard start moves) :=
  decidableGuarded _ _ _ _

theorem orderly_any (start : Pool S C) (moves : List (Move C E)) : p.Orderly (fun _ _ _ => true) start moves := by
  refine .of_forall (fun pool m => ?_) start moves
  cases m with
  | call => rfl
  | advance i => cases found : pool.calls[i]? <;> simp [Pool.meets,found]

variable {moves : List (Move C E)} {s : S}

theorem Orderly.along {Inv : Pool S C → Prop}
    (preserved : ∀ pool next, p.Moved guard pool next → Inv pool → Inv next) {start : Pool S C} (initial : Inv start) (orderly : p.Orderly guard start moves) :
    Along p.move Inv start moves :=
  along_invariant (fun _ _ inv met => preserved _ _ (moved met) inv) initial orderly

theorem Keeps.along (keeps : p.Keeps guard I J) (initial : I s) (orderly : p.Orderly guard ⟨s,[]⟩ moves) :
    Along p.move (fun pool => I pool.shared ∧ ∀ c ∈ pool.calls, J pool.shared c) ⟨s,[]⟩ moves :=
  orderly.along (fun _ _ moved inv => keeps.moved moved inv) ⟨initial,forall_mem_nil _⟩

theorem Moved.changes (refl : ∀ s, R s s)
    (changes : ∀ s c answer, guard s c answer = true → I s → J s c → R s (p.step s c answer).1)
    (moved : p.Moved guard pool next) (inv : I pool.shared ∧ ∀ c ∈ pool.calls, J pool.shared c) :
    R pool.shared next.shared := by
  cases moved with
  | idle => exact refl _
  | call s => exact refl s
  | step s before c after answer met =>
    exact changes s c answer met inv.1 (inv.2 c (mem_append_right _ mem_cons_self))

section
variable (keeps : p.Keeps guard I J)
include keeps

theorem Keeps.linked (refl : ∀ s, R s s)
    (changes : ∀ s c answer, guard s c answer = true → I s → J s c → R s (p.step s c answer).1) (initial : I s)
    (orderly : p.Orderly guard ⟨s,[]⟩ moves) :
    Linked p.move (fun before after => R before.shared after.shared) ⟨s,[]⟩ moves := by
  let Inv (pool : Pool S C) : Prop := I pool.shared ∧ ∀ c ∈ pool.calls, J pool.shared c
  have start : Inv ⟨s,[]⟩ := ⟨initial,forall_mem_nil _⟩
  refine linked_invariant ?_ ?_ start orderly
  · intro pool m inv met
    exact keeps.moved (Protocol.moved met) inv
  · intro pool m inv met
    exact (Protocol.moved met).changes refl changes inv

/-- A potential of the shared state that no step lowers, and that every step of a kind raises,
bounds how many steps of the kind a run makes. -/
theorem Keeps.tally_le {event : S → C → E → Bool} {spent : S → ℤ}
    (pays : ∀ s c answer, guard s c answer = true → I s → J s c → spent s + (event s c answer).toNat ≤ spent (p.step s
      c answer).1) (initial : I s) (orderly : p.Orderly guard ⟨s,[]⟩ moves) :
    spent s + tally p.move (Pool.takes event) ⟨s,[]⟩ moves ≤ spent (run p.move ⟨s,[]⟩ moves).shared := by
  let Inv (pool : Pool S C) : Prop := I pool.shared ∧ ∀ c ∈ pool.calls, J pool.shared c
  have start : Inv ⟨s,[]⟩ := ⟨initial,forall_mem_nil _⟩
  let potential (pool : Pool S C) : ℤ := spent pool.shared
  change potential ⟨s,[]⟩ + _ ≤ potential _
  refine Library.tally_le ?_ ?_ start orderly
  · intro pool m inv met
    exact keeps.moved (Protocol.moved met) inv
  · intro pool m inv met
    cases m with
    | call =>
      rw [Pool.takes,move]
      split <;> simp [potential]
    | advance i answer =>
      cases found : pool.calls[i]? with
      | none => simp [Pool.takes,move,found]
      | some c =>
        rw [Pool.meets,found] at met
        have paid := pays pool.shared c answer met inv.1 (inv.2 c (mem_of_getElem? found))
        simpa [Pool.takes,move,found,potential] using paid

/-- A balance that no step changes, counting its own call, is the same all along. -/
theorem Keeps.conserved (shared : S → ℤ) (weight : C → ℤ) (weightless : ∀ c, p.starts c = true → weight c = 0)
    (balanced : ∀ s c answer, guard s c answer = true → I s → J s c → shared (p.step s c answer).1 + ((p.step s c
      answer).2.map weight).getD 0 = shared s + weight c) (initial : I s) (orderly : p.Orderly guard ⟨s,[]⟩ moves) :
    Along p.move (fun pool => pool.measure shared weight = shared s) ⟨s,[]⟩ moves := by
  let Inv (pool : Pool S C) : Prop :=
    (I pool.shared ∧ ∀ c ∈ pool.calls, J pool.shared c) ∧ pool.measure shared weight = shared s
  have start : Inv ⟨s,[]⟩ := ⟨⟨initial,forall_mem_nil _⟩,by simp [Pool.measure]⟩
  refine (orderly.along ?_ start).mono fun _ inv => inv.2
  rintro pool next moved ⟨inv,same⟩
  refine ⟨keeps.moved moved inv,?_⟩
  cases moved with
  | idle => exact same
  | call s calls c starts =>
    rw [Pool.measure_call _ _ (weightless c starts)]
    exact same
  | step s before c after answer met =>
    have own := inv.2 c (mem_append_right _ mem_cons_self)
    rw [Pool.measure_step shared weight s before c,balanced s c answer met inv.1 own,sub_self,add_zero]
    exact same

end

end Invariants
end Protocol
end Library
