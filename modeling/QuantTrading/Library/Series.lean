import Mathlib.Data.List.TakeDrop
import Mathlib.Data.List.GetD

/-! Finite series, oldest entry first. A trailing window reads the entries that end at an
index; what it says of a front part of a series is a front part of what it says of the
series, and what it says of the back depends on the back alone. A series of one entry is
broadcast against a longer one.
-/
namespace Library
open List

section Trailing
variable {A B : Type}

/-- The last `n` of the entries up to index `i`, newest first. -/
def recent (n : Nat) (xs : List A) (i : Nat) : List A := (xs.take (i + 1)).reverse.take n

/-- One value per index: blank until `n` entries are there, then a function of the last `n`. -/
def trailing (blank : B) (n : Nat) (f : List A → B) (xs : List A) : List B :=
  (range xs.length).map fun i => if i + 1 < n then blank else f (recent n xs i)

variable (blank : B) (n : Nat) (f : List A → B) (xs : List A)

@[simp] theorem length_trailing : (trailing blank n f xs).length = xs.length := by
  simp [trailing]

theorem trailing_eq_nil_iff : trailing blank n f xs = [] ↔ xs = [] := by
  rw [← length_eq_zero_iff,length_trailing,length_eq_zero_iff]

theorem getElem?_trailing (i : Nat) : (trailing blank n f xs)[i]? =
    if i < xs.length then some (if i + 1 < n then blank else f (recent n xs i)) else none := by
  by_cases inside : i < xs.length
  · simp [trailing,inside]
  · simp [trailing,inside]

theorem recent_take {i k : Nat} (inside : i < k) : recent n (xs.take k) i = recent n xs i := by
  rw [recent,take_take,Nat.min_eq_left (Nat.succ_le_of_lt inside),recent]

theorem recent_drop {e i : Nat} (full : n ≤ i + 1) (inside : e + i < xs.length) :
    recent n (xs.drop e) i = recent n xs (e + i) := by
  have split : xs.take (e + i + 1) = xs.take e ++ (xs.drop e).take (i + 1) := by
    rw [Nat.add_assoc,take_add]
  have reached : n ≤ ((xs.drop e).take (i + 1)).reverse.length := by
    simp only [length_reverse,length_take,length_drop]
    omega
  rw [recent,recent,split,reverse_append,take_append_of_le_length reached]

theorem take_trailing (k : Nat) : (trailing blank n f xs).take k = trailing blank n f (xs.take k) := by
  apply ext_getElem?
  intro i
  rw [getElem?_take,getElem?_trailing,getElem?_trailing,length_take]
  by_cases early : i < k
  · rw [if_pos early,recent_take n xs early]
    simp only [Nat.lt_min,early,true_and]
  · rw [if_neg early,if_neg (by omega)]

theorem drop_trailing (e : Nat) : (trailing blank n f xs).drop (e + (n - 1)) =
    (trailing blank n f (xs.drop e)).drop (n - 1) := by
  apply ext_getElem?
  intro i
  rw [getElem?_drop,getElem?_drop,getElem?_trailing,getElem?_trailing,length_drop]
  by_cases inside : e + (n - 1 + i) < xs.length
  · rw [if_pos (by omega),if_neg (by omega),if_pos (by omega),if_neg (by omega),
      recent_drop n xs (by omega) inside,Nat.add_assoc]
  · rw [if_neg (by omega),if_neg (by omega)]

end Trailing

section Broadcast
variable {A B C : Type}

/-- A series of one entry repeated to length `n`; any other series as it is. -/
def broadcast (n : Nat) : List A → List A
  | [x] => if 1 < n then replicate n x else [x]
  | xs => xs

def combine (f : A → B → C) (xs : List A) (ys : List B) : List C :=
  zipWith f (broadcast (max xs.length ys.length) xs) (broadcast (max xs.length ys.length) ys)

def Aligned (xs : List A) (ys : List B) : Prop :=
  (broadcast (max xs.length ys.length) xs).length = (broadcast (max xs.length ys.length) ys).length

instance (xs : List A) (ys : List B) : Decidable (Aligned xs ys) :=
  inferInstanceAs (Decidable (_ = _))

variable {xs : List A} {ys : List B}

theorem broadcast_of_length_ne_one (several : xs.length ≠ 1) (n : Nat) : broadcast n xs = xs := by
  match xs with
  | [] => rfl
  | [x] => exact absurd rfl several
  | _ :: _ :: _ => rfl

theorem length_broadcast (n : Nat) (xs : List A) :
    (broadcast n xs).length = if xs.length = 1 then max 1 n else xs.length := by
  match xs with
  | [] => rfl
  | [x] =>
    simp only [broadcast,length_singleton,if_true]
    split
    · rw [length_replicate]
      omega
    · rw [length_singleton]
      omega
  | _ :: _ :: _ => simp [broadcast]

theorem aligned_iff (xs : List A) (ys : List B) : Aligned xs ys ↔
    xs.length = ys.length ∨ (xs.length = 1 ∧ ys ≠ []) ∨ (ys.length = 1 ∧ xs ≠ []) := by
  rw [Aligned,length_broadcast,length_broadcast,← length_pos_iff,← length_pos_iff]
  split <;> split <;> omega

theorem Aligned.nil_iff (aligned : Aligned xs ys) : xs = [] ↔ ys = [] := by
  have cases := (aligned_iff xs ys).mp aligned
  rw [← length_pos_iff,← length_pos_iff] at cases
  rw [← length_eq_zero_iff,← length_eq_zero_iff]
  omega

variable (f : A → B → C)

theorem length_combine (aligned : Aligned xs ys) : (combine f xs ys).length = max xs.length ys.length := by
  have cases := (aligned_iff xs ys).mp aligned
  rw [← length_pos_iff,← length_pos_iff] at cases
  rw [combine,length_zipWith,length_broadcast,length_broadcast]
  split <;> split <;> omega

theorem combine_eq_nil_iff (aligned : Aligned xs ys) : combine f xs ys = [] ↔ xs = [] := by
  have empty := aligned.nil_iff
  rw [← length_eq_zero_iff,← length_eq_zero_iff] at empty
  rw [← length_eq_zero_iff,← length_eq_zero_iff,length_combine f aligned]
  omega

theorem take_broadcast {k : Nat} (positive : 0 < k) {n : Nat} (bound : xs.length ≤ n) :
    (broadcast n xs).take k = broadcast (min k n) (xs.take k) := by
  match xs, bound with
  | [], _ => simp [broadcast]
  | [x], _ =>
    rw [take_of_length_le (show [x].length ≤ k from positive)]
    simp only [broadcast]
    by_cases long : 1 < min k n
    · rw [if_pos long,if_pos (Nat.lt_of_lt_of_le long (Nat.min_le_right k n)),take_replicate]
    · split
      · have one : min k n = 1 := by omega
        rw [take_replicate,one,replicate_one]
      · rw [take_of_length_le (show [x].length ≤ k from positive)]
  | x :: y :: rest, bound =>
    obtain ⟨j,rfl⟩ : ∃ j, k = j + 1 := ⟨k - 1,by omega⟩
    cases j with
    | zero =>
      have short : ¬ 1 < min (0 + 1) n := by omega
      simp [broadcast,short]
    | succ => rfl

theorem take_combine {k : Nat} (positive : 0 < k) (xs : List A) (ys : List B) :
    (combine f xs ys).take k = combine f (xs.take k) (ys.take k) := by
  have lengths : min k (max xs.length ys.length) = max (xs.take k).length (ys.take k).length := by
    simp only [length_take]
    omega
  rw [combine,take_zipWith,take_broadcast positive (Nat.le_max_left _ _),
    take_broadcast positive (Nat.le_max_right _ _),lengths,combine]

theorem combine_of_length_eq  (same : xs.length = ys.length) : combine f xs ys = zipWith f xs ys := by
  by_cases single : xs.length = 1
  · obtain ⟨x,rfl⟩ := length_eq_one_iff.mp single
    obtain ⟨y,rfl⟩ := length_eq_one_iff.mp (same ▸ single)
    rfl
  · rw [combine,broadcast_of_length_ne_one single,broadcast_of_length_ne_one (same ▸ single)]

theorem combine_swap (xs : List A) (ys : List B) : combine f xs ys = combine (fun y x => f x y) ys xs := by
  rw [combine,zipWith_comm,Nat.max_comm,combine]

theorem combine_singleton_left (x : A) (some_ : ys ≠ []) : combine f [x] ys = ys.map (f x) := by
  have repeated (zs : List B) : zipWith f (replicate zs.length x) zs = zs.map (f x) := by
    induction zs with
    | nil => rfl
    | cons z zs ih => rw [length_cons,replicate_succ,zipWith_cons_cons,ih,map_cons]
  match ys, some_ with
  | [y], _ => rfl
  | y :: z :: rest, _ => exact repeated (y :: z :: rest)

theorem combine_singleton_right (some_ : xs ≠ []) (y : B) : combine f xs [y] = xs.map (f · y) := by
  rw [combine_swap,combine_singleton_left _ y some_]

end Broadcast
end Library
