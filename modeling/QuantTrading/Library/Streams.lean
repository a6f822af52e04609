import QuantTrading.Library.Outcome

/-! Machines that take one input at a time, may refuse it, and give an output after each. Feeding a
list in pieces, with a restart between them that keeps the state, gives the outputs of the whole.
-/
namespace Library
open List

variable {S X Y E : Type} (step : S → X → Except E S) (out : S → Y)

def settled (result : S × Option E) : Except E S :=
  match result.2 with
  | none => .ok result.1
  | some err => .error err

def feed : S → List X → Except E (S × List Y)
  | s, [] => .ok (s,[])
  | s, x :: xs => do
    let s ← step s x
    let rest ← feed s xs
    return (rest.1,out s :: rest.2)

def feedPieces (restart : S → Except E S) : S → List (List X) → Except E (List Y)
  | _, [] => .ok []
  | s, piece :: pieces => do
    let fed ← feed step out s piece
    let s ← restart fed.1
    let rest ← feedPieces restart s pieces
    return fed.2 ++ rest

variable {step out}

variable {xs : List X} {ys : List Y}

theorem feed_cons_eq_ok {s last : S} {x : X} :
    feed step out s (x :: xs) = .ok (last,ys) ↔
      ∃ next rest, step s x = .ok next ∧ feed step out next xs = .ok (last,rest) ∧ ys = out next :: rest := by
  rw [feed,bind_eq_ok]
  constructor
  · rintro ⟨next,stepped,fed⟩
    obtain ⟨⟨last',rest⟩,later,same⟩ := bind_eq_ok.mp fed
    cases pure_eq_ok.mp same
    exact ⟨next,rest,stepped,later,rfl⟩
  · rintro ⟨next,rest,stepped,later,rfl⟩
    exact ⟨next,stepped,bind_eq_ok.mpr ⟨_,later,rfl⟩⟩

theorem feed_append (s : S) (xs ys : List X) : feed step out s (xs ++ ys) = (do
      let first ← feed step out s xs
      let second ← feed step out first.1 ys
      return (second.1,first.2 ++ second.2)) := by
  induction xs generalizing s with
  | nil =>
    rw [nil_append]
    change _ = (feed step out s ys >>= fun second => pure (second.1,second.2))
    cases feed step out s ys <;> rfl
  | cons x xs ih =>
    rw [cons_append,feed,feed]
    cases step s x with
    | error => rfl
    | ok next =>
      change (feed step out next (xs ++ ys) >>= _) = (feed step out next xs >>= _) >>= _
      rw [ih]
      cases feed step out next xs with
      | error => rfl
      | ok first =>
        change (feed step out first.1 ys >>= _) >>= _ = feed step out first.1 ys >>= _
        cases feed step out first.1 ys <;> rfl

/-- A map of the states under which steps and outputs correspond carries over to whole runs. -/
theorem feed_map {f : S → S} {g : X → X} {h : Y → Y} (steps : ∀ s x, step (f s) (g x) = (step s x).map f)
    (outputs : ∀ s, out (f s) = h (out s)) (s : S) (xs : List X) :
    feed step out (f s) (xs.map g) = (feed step out s xs).map fun fed => (f fed.1,fed.2.map h) := by
  induction xs generalizing s with
  | nil => rfl
  | cons x xs ih =>
    rw [map_cons,feed,feed,steps]
    cases step s x with
    | error => rfl
    | ok next =>
      change (feed step out (f next) (xs.map g) >>= _) = Except.map _ (feed step out next xs >>= _)
      rw [ih]
      cases feed step out next xs with
      | error => rfl
      | ok => simp [Except.map,bind,Except.bind,pure,Except.pure,outputs]

variable {Inv : S → Prop}

theorem feed_invariant {s last : S} (fed : feed step out s xs = .ok (last,ys))
    (kept : ∀ x ∈ xs, ∀ s next, Inv s → step s x = .ok next → Inv next) (initial : Inv s) : Inv last := by
  induction xs generalizing s ys with
  | nil =>
    cases fed
    exact initial
  | cons x xs ih =>
    obtain ⟨next,rest,stepped,later,_⟩ := feed_cons_eq_ok.mp fed
    exact ih later (fun x listed => kept x (mem_cons_of_mem _ listed)) (kept x (mem_cons_self ..) s next initial stepped)

theorem feed_output {s last : S} (fed : feed step out s xs = .ok (last,ys)) {i : Nat} {y : Y}
    (given : ys[i]? = some y) : ∃ middle some_, feed step out s (xs.take (i + 1)) = .ok (middle,some_) ∧ y = out middle := by
  induction xs generalizing s ys i with
  | nil =>
    cases fed
    cases given
  | cons x xs ih =>
    obtain ⟨next,rest,stepped,later,rfl⟩ := feed_cons_eq_ok.mp fed
    cases i with
    | zero =>
      refine ⟨next,[out next],feed_cons_eq_ok.mpr ⟨next,[],stepped,rfl,rfl⟩,?_⟩
      exact (Option.some.inj given).symm
    | succ =>
      obtain ⟨middle,some_,reached,same⟩ := ih later given
      exact ⟨middle,out next :: some_,feed_cons_eq_ok.mpr ⟨next,some_,stepped,reached,rfl⟩,same⟩

/-- A restart that keeps every state of the invariant is not seen in the outputs. -/
theorem feedPieces_eq (kept : ∀ x s next, Inv s → step s x = .ok next → Inv next) {restart : S → Except E S}
    (same : ∀ s, Inv s → restart s = .ok s) {s : S} (initial : Inv s) (pieces : List (List X)) :
    feedPieces step out restart s pieces = (feed step out s pieces.flatten).map Prod.snd := by
  induction pieces generalizing s with
  | nil => rfl
  | cons piece pieces ih =>
    rw [feedPieces,flatten_cons,feed_append]
    cases fed : feed step out s piece with
    | error => rfl
    | ok first =>
      have reached := feed_invariant fed (fun x _ => kept x) initial
      change (restart first.1 >>= _) = Except.map Prod.snd (feed step out first.1 pieces.flatten >>= _)
      rw [same first.1 reached]
      change (feedPieces step out restart first.1 pieces >>= _) = _
      rw [ih reached]
      cases feed step out first.1 pieces.flatten <;> rfl

end Library
