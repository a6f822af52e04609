import Mathlib.Data.List.Basic
import Mathlib.Logic.Relation

/-! Invariants of runs: of a deterministic machine whose operations are guarded by the state
they are applied in, and of a step relation under a condition on what it leaves behind.
-/
namespace Library

export Option (map_some getD_some map_eq_some_iff isSome_iff_exists filter_eq_some_iff map_none getD_none bind_eq_some_iff)

variable {S O : Type}

def run (step : S → O → S) (start : S) (ops : List O) : S := ops.foldl step start

section
variable (step : S → O → S) (start : S)

@[simp] theorem run_nil : run step start [] = start := rfl

@[simp] theorem run_cons (op : O) (ops : List O) : run step start (op :: ops) = run step (step start op) ops := rfl

theorem run_append (first second : List O) :
    run step start (first ++ second) = run step (run step start first) second :=
  List.foldl_append

end

def decidableForallOk {E A : Type} (result : Except E A) (P : A → Prop) [DecidablePred P] :
    Decidable (∀ value, result = .ok value → P value) :=
  match result with
  | .error _ => isTrue nofun
  | .ok value => decidable_of_iff (P value) ⟨fun holds _ same => Except.ok.inj same ▸ holds,fun all => all value rfl⟩

def decidableForallSome {A : Type} (found : Option A) (P : A → Prop) [DecidablePred P] :
    Decidable (∀ value, found = some value → P value) :=
  match found with
  | none => isTrue nofun
  | some value => decidable_of_iff (P value) ⟨fun holds _ same => Option.some.inj same ▸ holds,fun all => all value rfl⟩

def Guarded (step : S → O → S) (guard : S → O → Prop) : S → List O → Prop
  | _, [] => True
  | start, op :: ops => guard start op ∧ Guarded step guard (step start op) ops

variable {step : S → O → S} {start : S} {guard : S → O → Prop} {ops : List O} {Inv P : S → Prop} {R : S → S → Prop}

theorem guarded_append {first second : List O} :
    Guarded step guard start (first ++ second) ↔
      Guarded step guard start first ∧ Guarded step guard (run step start first) second := by
  induction first generalizing start with
  | nil => simp [Guarded]
  | cons op ops ih => simp only [List.cons_append,Guarded,run_cons,ih,and_assoc]

variable {other : S → O → Prop} {counts : S → O → Bool}

theorem guarded_congr (same : ∀ state op, guard state op ↔ other state op)
    (start : S) (ops : List O) : Guarded step guard start ops ↔ Guarded step other start ops := by
  rw [show guard = other from funext fun state => funext fun op => propext (same state op)]

theorem Guarded.of_mem (start : S) (all : ∀ op ∈ ops, ∀ state, guard state op) : Guarded step guard start ops := by
  induction ops generalizing start with
  | nil => trivial
  | cons op ops ih =>
    rw [List.forall_mem_cons] at all
    exact ⟨all.1 start,ih (step start op) all.2⟩

theorem Guarded.of_forall (all : ∀ state op, guard state op)
    (start : S) (ops : List O) : Guarded step guard start ops :=
  Guarded.of_mem start fun op _ state => all state op

theorem Guarded.mono (implied : ∀ state op, guard state op → other state op)
    (guarded : Guarded step guard start ops) : Guarded step other start ops := by
  induction ops generalizing start with
  | nil => trivial
  | cons op ops ih => exact ⟨implied start op guarded.1,ih guarded.2⟩

theorem Guarded.of_invariant (preserved : ∀ state op, Inv state → Inv (step state op))
    (initial : Inv start) (ops : List O) : Guarded step (fun state _ => Inv state) start ops := by
  induction ops generalizing start with
  | nil => trivial
  | cons op ops ih => exact ⟨initial,ih (preserved _ _ initial)⟩

instance decidableGuarded (step : S → O → S) (guard : S → O → Prop) [∀ state op, Decidable (guard state op)] :
    ∀ start ops, Decidable (Guarded step guard start ops)
  | _, [] => isTrue trivial
  | start, op :: ops =>
    haveI := decidableGuarded step guard (step start op) ops
    inferInstanceAs (Decidable (guard start op ∧ Guarded step guard (step start op) ops))

def Along (step : S → O → S) (P : S → Prop) : S → List O → Prop
  | start, [] => P start
  | start, op :: ops => P start ∧ Along step P (step start op) ops

theorem run_invariant (preserved : ∀ state op, Inv state → guard state op → Inv (step state op))
    (initial : Inv start) (guarded : Guarded step guard start ops) : Inv (run step start ops) := by
  induction ops generalizing start with
  | nil => exact initial
  | cons op ops ih => exact ih (preserved _ _ initial guarded.1) guarded.2

section
variable (preserved : ∀ state op, Inv state → Inv (step state op))
include preserved

theorem run_always (initial : Inv start) (ops : List O) : Inv (run step start ops) :=
  run_invariant (fun state op held _ => preserved state op held) initial (Guarded.of_forall (fun _ _ => trivial) _ ops)

/-- An operation against its guard leads into a trap, and the trap is left by none. -/
theorem run_trapped {Trap : S → Prop} (caught : ∀ state op, Inv state → ¬ guard state op → Trap (step state op))
    (kept : ∀ state op, Trap state → Trap (step state op)) (initial : Inv start)
    (unguarded : ¬ Guarded step guard start ops) : Trap (run step start ops) := by
  induction ops generalizing start with
  | nil => exact absurd trivial unguarded
  | cons op ops ih =>
    by_cases met : guard start op
    · exact ih (preserved _ _ initial) fun later => unguarded ⟨met,later⟩
    · exact run_always kept (caught _ _ initial met) ops

end

theorem along_invariant (preserved : ∀ state op, Inv state → guard state op → Inv (step state op))
    (initial : Inv start) (guarded : Guarded step guard start ops) : Along step Inv start ops := by
  induction ops generalizing start with
  | nil => exact initial
  | cons op ops ih => exact ⟨initial,ih (preserved _ _ initial guarded.1) guarded.2⟩

theorem Along.first (along : Along step P start ops) : P start := by
  cases ops with
  | nil => exact along
  | cons => exact along.1

theorem Along.last (along : Along step P start ops) : P (run step start ops) := by
  induction ops generalizing start with
  | nil => exact along
  | cons op ops ih => exact ih along.2

theorem Along.mono {strong weak : S → Prop} (implied : ∀ state, strong state → weak state)
    (along : Along step strong start ops) : Along step weak start ops := by
  induction ops generalizing start with
  | nil => exact implied _ along
  | cons op ops ih => exact ⟨implied _ along.1,ih along.2⟩

/-- What a guard is exactly needed for holds along a run if and only if the run is guarded. -/
theorem along_iff_guarded {domain : S → O → Prop}
    (needed : ∀ state op, P state → domain state op → (P (step state op) ↔ guard state op))
    (initial : P start) (inside : Guarded step domain start ops) :
    Along step P start ops ↔ Guarded step guard start ops := by
  induction ops generalizing start with
  | nil => exact iff_of_true initial trivial
  | cons op ops ih =>
    constructor
    · intro along
      have next := along.2.first
      exact ⟨(needed _ _ initial inside.1).mp next,(ih next inside.2).mp along.2⟩
    · intro guarded
      have next := (needed _ _ initial inside.1).mpr guarded.1
      exact ⟨initial,(ih next inside.2).mpr guarded.2⟩

def Linked (step : S → O → S) (R : S → S → Prop) : S → List O → Prop
  | _, [] => True
  | start, op :: ops => R start (step start op) ∧ Linked step R (step start op) ops

theorem linked_invariant (preserved : ∀ state op, Inv state → guard state op → Inv (step state op))
    (changes : ∀ state op, Inv state → guard state op → R state (step state op))
    (initial : Inv start) (guarded : Guarded step guard start ops) : Linked step R start ops := by
  induction ops generalizing start with
  | nil => trivial
  | cons op ops ih => exact ⟨changes _ _ initial guarded.1,ih (preserved _ _ initial guarded.1) guarded.2⟩

theorem Linked.mono {strong weak : S → S → Prop}
    (implied : ∀ before after, strong before after → weak before after)
    (linked : Linked step strong start ops) : Linked step weak start ops := by
  induction ops generalizing start with
  | nil => trivial
  | cons op ops ih => exact ⟨implied _ _ linked.1,ih linked.2⟩

theorem Linked.later {first second : List O}
    (linked : Linked step R start (first ++ second)) : Linked step R (run step start first) second := by
  induction first generalizing start with
  | nil => exact linked
  | cons op ops ih => exact ih linked.2

theorem Linked.run (refl : ∀ state, R state state)
    (trans : ∀ a b c, R a b → R b c → R a c) (linked : Linked step R start ops) :
    R start (run step start ops) := by
  induction ops generalizing start with
  | nil => exact refl start
  | cons op ops ih => exact trans _ _ _ linked.1 (ih linked.2)

def Leads (step : S → O → S) (kind : O → Bool) (first last : S) : Prop := ∃ ops, ops.all kind = true ∧ run step first ops = last

namespace Leads
variable {kind : O → Bool}

theorem refl (state : S) : Leads step kind state state := ⟨[],rfl,rfl⟩

theorem single (op : O) (own : kind op = true) (state : S) : Leads step kind state (step state op) := ⟨[op],by simp [own],rfl⟩

theorem trans (a b c : S) (first : Leads step kind a b) (second : Leads step kind b c) : Leads step kind a c := by
  obtain ⟨ops,own,rfl⟩ := first
  obtain ⟨more,owned,rfl⟩ := second
  exact ⟨ops ++ more,by simp [own,owned],run_append step a ops more⟩

theorem foldl {A : Type} {f : S → A → S} (round : ∀ state x, Leads step kind state (f state x)) (xs : List A) (start : S) :
    Leads step kind start (xs.foldl f start) := by
  induction xs generalizing start with
  | nil => exact refl start
  | cons x xs ih => exact trans _ _ _ (round start x) (ih (f start x))

end Leads

def tally (step : S → O → S) (counts : S → O → Bool) : S → List O → Nat
  | _, [] => 0
  | start, op :: ops => (counts start op).toNat + tally step counts (step start op) ops

section
variable (preserved : ∀ state op, Inv state → guard state op → Inv (step state op))
include preserved

theorem tally_le {spent : S → Int}
    (pays : ∀ state op, Inv state → guard state op → spent state + (counts state op).toNat ≤ spent (step state op))
    (initial : Inv start) (guarded : Guarded step guard start ops) :
    spent start + tally step counts start ops ≤ spent (run step start ops) := by
  induction ops generalizing start with
  | nil => simp [tally]
  | cons op ops ih =>
    have first := pays _ _ initial guarded.1
    have rest := ih (preserved _ _ initial guarded.1) guarded.2
    rw [tally,run_cons]
    omega

/-- What only a counted step can break, and is broken at the end, tells that a step counted. -/
theorem tally_pos_of_broken {Safe : S → Prop}
    (kept : ∀ state op, Inv state → guard state op → Safe state → counts state op = false → Safe (step state op))
    (initial : Inv start) (guarded : Guarded step guard start ops) (safe : Safe start)
    (broken : ¬ Safe (run step start ops)) : 0 < tally step counts start ops := by
  induction ops generalizing start with
  | nil => exact absurd safe broken
  | cons op ops ih =>
    rw [tally]
    cases counted : counts start op with
    | true => exact Nat.add_pos_left Nat.one_pos _
    | false =>
      have rest := ih (preserved _ _ initial guarded.1) guarded.2 (kept _ _ initial guarded.1 safe counted) broken
      simpa using rest

end

/-- A condition that holds at the end of a sequence of steps and so held before each of them
carries whatever a step under the condition preserves. -/
theorem reachable_invariant {C : S → Prop} (before : ∀ a b, R a b → C b → C a)
    (preserved : ∀ a b, R a b → C b → Inv a → Inv b) {first last : S} (initial : Inv first)
    (steps : Relation.ReflTransGen R first last) (meets : C last) : Inv last := by
  induction steps with
  | refl => exact initial
  | tail _ step ih => exact preserved _ _ step meets (ih (before _ _ step meets))

end Library
