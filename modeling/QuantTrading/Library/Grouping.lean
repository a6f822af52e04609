import QuantTrading.Library.Outcome

/-! Accumulation by key: one accumulator a key, in the order in which the keys were first seen.
What an accumulator holds depends only on the elements of its key, in their order.
-/
namespace Library
open List

variable {A E K S : Type} (init : A → S) (step : S → A → S)

def accumulate : List A → Option S
  | [] => none
  | x :: rest => some (rest.foldl step (init x))

theorem accumulate_concat (xs : List A) (x : A) :
    accumulate init step (xs ++ [x]) = some ((accumulate init step xs).elim (init x) (step · x)) := by
  cases xs with
  | nil => rfl
  | cons => simp [accumulate]

variable [DecidableEq K]

def collect (key : K) (x : A) : List (K × S) → List (K × S)
  | [] => [(key,init x)]
  | (other,acc) :: rest => if other = key then (other,step acc x) :: rest else (other,acc) :: collect key x rest

theorem keys_collect (key : K) (x : A) (groups : List (K × S)) : (collect init step key x groups).map Prod.fst =
      if key ∈ groups.map Prod.fst then groups.map Prod.fst else groups.map Prod.fst ++ [key] := by
  induction groups with
  | nil => rfl
  | cons group rest ih =>
    obtain ⟨other,acc⟩ := group
    by_cases same : other = key
    · simp [collect,same]
    · have seen : key ∈ ((other,acc) :: rest).map Prod.fst ↔ key ∈ rest.map Prod.fst := by simp [Ne.symm same]
      rw [collect,if_neg same,map_cons,ih]
      simp only [seen]
      split <;> rfl

theorem mem_collect_other {key other : K} (distinct : other ≠ key) (x : A) (acc : S) (groups : List (K × S)) :
    (other,acc) ∈ collect init step key x groups ↔ (other,acc) ∈ groups := by
  induction groups with
  | nil => simp [collect,distinct]
  | cons group rest ih =>
    obtain ⟨first,held⟩ := group
    by_cases same : first = key
    · simp [collect,same,distinct]
    · rw [collect,if_neg same,mem_cons,mem_cons,ih]

variable {groups : List (K × S)} {xs : List A}

theorem mem_collect_own {key : K} (x : A) (acc : S) (distinct : (groups.map Prod.fst).Nodup) :
    (key,acc) ∈ collect init step key x groups ↔
      (∃ held, (key,held) ∈ groups ∧ acc = step held x) ∨ key ∉ groups.map Prod.fst ∧ acc = init x := by
  induction groups with
  | nil => simp [collect]
  | cons group rest ih =>
    obtain ⟨first,held⟩ := group
    obtain ⟨apart,distinct⟩ := nodup_cons.mp distinct
    by_cases same : first = key
    · subst same
      have absent (other : S) : (first,other) ∉ rest := fun listed => apart (mem_map.mpr ⟨_,listed,rfl⟩)
      simp [collect,absent]
    · rw [collect,if_neg same,mem_cons,ih distinct]
      simp [Ne.symm same]

variable (key : A → Except E K)

/-- The groups hold the accumulators of the elements, each of the elements of its key. -/
structure Grouped (xs : List A) (groups : List (K × S)) : Prop where
  distinct : (groups.map Prod.fst).Nodup
  mem : ∀ k acc, (k,acc) ∈ groups ↔ accumulate init step (xs.filter fun x => (key x).toOption = some k) = some acc
  keyed : ∀ x ∈ xs, ∃ k, key x = .ok k

variable {init step key}

theorem Grouped.collect (grouped : Grouped init step key xs groups) {x : A} {k : K}
    (found : key x = .ok k) : Grouped init step key (xs ++ [x]) (collect init step k x groups) := by
  refine ⟨?_,?_,?_⟩
  · rw [keys_collect]
    split
    · exact grouped.distinct
    rename_i fresh
    exact nodup_append.mpr ⟨grouped.distinct,nodup_singleton k,by
      rintro other listed _ same rfl
      exact fresh (mem_singleton.mp same ▸ listed)⟩
  · intro other acc
    rw [filter_append]
    by_cases same : other = k
    · subst same
      have here : [x].filter (fun x => (key x).toOption = some other) = [x] := by simp [found,Except.toOption]
      rw [mem_collect_own init step x acc grouped.distinct,here,accumulate_concat]
      cases old : accumulate init step (xs.filter fun x => (key x).toOption = some other) with
      | none =>
        have absent (held : S) : (other,held) ∉ groups := by simp [grouped.mem,old]
        simp [absent,eq_comm]
      | some held =>
        have there : (other,held) ∈ groups := (grouped.mem other held).mpr old
        have only (found : S) : (other,found) ∈ groups ↔ found = held := by simp [grouped.mem,old,eq_comm]
        have listed : other ∈ groups.map Prod.fst := mem_map.mpr ⟨_,there,rfl⟩
        simp only [only,listed,exists_eq_left,not_true_eq_false,false_and,or_false,Option.elim_some,Option.some.injEq]
        exact eq_comm
    · have here : [x].filter (fun x => (key x).toOption = some other) = [] := by simp [found,Except.toOption,Ne.symm same]
      rw [mem_collect_other init step same,here,append_nil]
      exact grouped.mem other acc
  · intro y listed
    rcases mem_append.mp listed with before | new
    · exact grouped.keyed y before
    · exact ⟨k,mem_singleton.mp new ▸ found⟩

/-- The loop that puts every element into the group of its key, up to the first that has none. -/
def group (init : A → S) (step : S → A → S) (key : A → Except E K) (xs : List A) : Except E (List (K × S)) :=
  xs.foldlM (fun groups x => (key x).map fun k => collect init step k x groups) []

theorem foldlM_grouped (done : List A) (start : List (K × S)) (grouped : Grouped init step key done start)
    (ok : xs.foldlM (fun groups x => (key x).map fun k => Library.collect init step k x groups) start = .ok groups) :
    Grouped init step key (done ++ xs) groups := by
  induction xs generalizing done start with
  | nil =>
    obtain rfl := pure_eq_ok.mp ok
    simpa using grouped
  | cons x rest ih =>
    obtain ⟨next,joined,ok⟩ := bind_eq_ok.mp ok
    obtain ⟨k,found,rfl⟩ := map_eq_ok.mp joined
    have later := ih (done ++ [x]) _ (grouped.collect found) ok
    simpa using later

theorem group_grouped (ok : group init step key xs = .ok groups) : Grouped init step key xs groups :=
  foldlM_grouped [] [] ⟨nodup_nil,by simp [accumulate],by simp⟩ ok

section
variable {M : Type} [AddCommMonoid M] (held : S → M) (part : A → M) (one : ∀ x, held (init x) = part x)
  (more : ∀ s x, held (step s x) = held s + part x)
include one more

theorem sum_collect (k : K) (x : A) (groups : List (K × S)) :
    ((collect init step k x groups).map (held ·.2)).sum = (groups.map (held ·.2)).sum + part x := by
  induction groups with
  | nil => simp [collect,one]
  | cons group rest ih =>
    rw [collect]
    split
    · simp [more,add_right_comm]
    · simp [ih,add_assoc]

/-- What the elements add is found in the accumulators, once. -/
theorem sum_group (ok : group init step key xs = .ok groups) : (groups.map (held ·.2)).sum = (xs.map part).sum := by
  suffices ∀ start, xs.foldlM (fun groups x => (key x).map fun k => collect init step k x groups) start = .ok groups →
      (groups.map (held ·.2)).sum = (start.map (held ·.2)).sum + (xs.map part).sum by simpa using this [] ok
  clear ok
  induction xs with
  | nil =>
    intro start ok
    simp [pure_eq_ok.mp ok]
  | cons x rest ih =>
    intro start ok
    obtain ⟨next,joined,ok⟩ := bind_eq_ok.mp ok
    obtain ⟨k,found,rfl⟩ := map_eq_ok.mp joined
    simp [ih _ ok,sum_collect held part one more,add_assoc]

end

end Library
