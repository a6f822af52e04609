import Mathlib.Data.List.Count

/-! Loops over a list that look at a key of each element: a counter for each key, and a loop
that acts only at the first element of a key.
-/
namespace Library
open List

variable {α κ σ : Type} [DecidableEq κ] (key : α → κ)

def counts (xs : List α) : κ → Nat :=
  xs.foldl (fun counts x => Function.update counts (key x) (counts (key x) + 1)) fun _ => 0

/-- The state and the keys seen after a loop that acts at the first element of each key it does
not skip. -/
def visits (skip : κ → Bool) (act : σ → α → σ) (start : σ × List κ) (xs : List α) : σ × List κ :=
  xs.foldl (fun state x =>
    if key x ∈ state.2 ∨ skip (key x) then state else (act state.1 x,key x :: state.2)) start

theorem counts_eq (xs : List α) (k : κ) : counts key xs k = xs.countP fun x => key x = k := by
  have loop : ∀ (filled : κ → Nat), xs.foldl (fun counts x => Function.update counts (key x) (counts (key x) + 1)) filled k =
      filled k + xs.countP fun x => key x = k := by
    induction xs with
    | nil => intro filled; rfl
    | cons x xs ih =>
      intro filled
      rw [foldl_cons,ih]
      by_cases same : key x = k
      · subst same
        simp
        omega
      · simp [Function.update_of_ne (Ne.symm same),same]
  rw [counts,loop,Nat.zero_add]

theorem countP_eq_add {p q r : α → Bool} (either : ∀ x, r x = (p x || q x)) (apart : ∀ x, (p x && q x) = false)
    (xs : List α) : xs.countP r = xs.countP p + xs.countP q := by
  induction xs with
  | nil => rfl
  | cons x xs ih =>
    cases left : p x <;> cases right : q x <;> simp_all <;> omega

variable {key} {skip : κ → Bool} {act : σ → α → σ}

theorem visits_cons (start : σ × List κ) (x : α) (xs : List α) : visits key skip act start (x :: xs) =
      visits key skip act (if key x ∈ start.2 ∨ skip (key x) then start else (act start.1 x,key x :: start.2)) xs := rfl

theorem visits_invariant (P : σ → Prop) (keeps : ∀ state x, P state → P (act state x)) {start : σ × List κ}
    (holds : P start.1) (xs : List α) : P (visits key skip act start xs).1 := by
  induction xs generalizing start with
  | nil => exact holds
  | cons x xs ih =>
    rw [visits_cons]
    split
    · exact ih holds
    · exact ih (keeps _ _ holds)

theorem mem_visits (start : σ × List κ) (xs : List α) (k : κ) :
    k ∈ (visits key skip act start xs).2 ↔ k ∈ start.2 ∨ (k ∈ xs.map key ∧ skip k = false) := by
  induction xs generalizing start with
  | nil => simp [visits]
  | cons x xs ih =>
    rw [visits_cons,ih,map_cons,mem_cons]
    split
    next passed =>
      constructor
      · rintro (seen | ⟨member,kept⟩)
        · exact .inl seen
        · exact .inr ⟨.inr member,kept⟩
      · rintro (seen | ⟨rfl | member,kept⟩)
        · exact .inl seen
        · refine .inl (passed.resolve_right fun skipped => ?_)
          rw [kept] at skipped
          cases skipped
        · exact .inr ⟨member,kept⟩
    next first =>
      obtain ⟨_,kept⟩ := not_or.mp first
      rw [mem_cons]
      constructor
      · rintro ((rfl | seen) | ⟨member,kept⟩)
        · exact .inr ⟨.inl rfl,Bool.eq_false_iff.mpr kept⟩
        · exact .inl seen
        · exact .inr ⟨.inr member,kept⟩
      · rintro (seen | ⟨rfl | member,kept⟩)
        · exact .inl (.inr seen)
        · exact .inl (.inl rfl)
        · exact .inr ⟨member,kept⟩

/-- A loop that adds at a key's first element how often a list has the key, for keys of a kind,
counts the list's elements of the kind whose keys it visits. -/
theorem visits_count (measure : σ → Nat) (whole : List α) (kind : κ → Bool)
    (adds : ∀ state x, measure (act state x) =
      measure state + if kind (key x) then whole.countP (fun y => key y = key x) else 0)
    (start : σ × List κ) (xs : List α) : measure (visits key skip act start xs).1 = measure start.1 +
        whole.countP (fun y => kind (key y) ∧ key y ∉ start.2 ∧ skip (key y) = false ∧ key y ∈ xs.map key) := by
  induction xs generalizing start with
  | nil => simp [visits]
  | cons x xs ih =>
    rw [visits_cons,ih]
    split
    next passed =>
      congr 1
      refine countP_congr fun y _ => ?_
      simp only [decide_eq_true_iff,map_cons,mem_cons]
      constructor
      · rintro ⟨isKind,unseen,kept,member⟩
        exact ⟨isKind,unseen,kept,.inr member⟩
      · rintro ⟨isKind,unseen,kept,same | member⟩
        · rw [same] at unseen kept
          rw [kept] at passed
          exact absurd (passed.resolve_right Bool.false_ne_true) unseen
        · exact ⟨isKind,unseen,kept,member⟩
    next first =>
      obtain ⟨unseen,kept⟩ := not_or.mp first
      have fresh : whole.countP (fun y => kind (key y) ∧ key y ∉ start.2 ∧ skip (key y) = false ∧ key y ∈ (x :: xs).map key) =
          whole.countP (fun y => kind (key y) ∧ key y = key x) +
            whole.countP (fun y => kind (key y) ∧ key y ∉ key x :: start.2 ∧ skip (key y) = false ∧ key y ∈ xs.map key) := by
        refine countP_eq_add (fun y => ?_) (fun y => ?_) whole
        · by_cases same : key y = key x
          · simp [same,unseen,Bool.eq_false_iff.mpr kept]
          · simp [same]
        · by_cases same : key y = key x
          · simp [same]
          · simp [same]
      rw [fresh,adds]
      dsimp only
      split
      next isKind =>
        have same : whole.countP (fun y => kind (key y) ∧ key y = key x) = whole.countP (fun y => key y = key x) := by
          refine countP_congr fun y _ => ?_
          simp only [decide_eq_true_iff]
          exact ⟨And.right,fun same => ⟨same ▸ isKind,same⟩⟩
        omega
      next otherKind =>
        have none_ : whole.countP (fun y => kind (key y) ∧ key y = key x) = 0 := by
          refine countP_eq_zero.mpr fun y _ => ?_
          simp only [decide_eq_true_iff]
          rintro ⟨isKind,same⟩
          exact otherKind (same ▸ isKind)
        omega

end Library
