import QuantTrading.Library.Sorted

/-! As-of joins. A pointer into ascending records moves forward with ascending times and never back;
at every time it stands behind the records of the past, whatever moved it there. What is
found there depends on these records alone.
-/
namespace Library
open List

section Pointer
variable {A B V : Type} {pass : A → Bool} {records : List A}

def advancing (pass : A → Bool) : List A → Nat → Nat
  | [], next => next
  | record :: rest, next => if pass record then advancing pass rest (next + 1) else next

def advance (pass : A → Bool) (records : List A) (next : Nat) : Nat := advancing pass (records.drop next) next

theorem advancing_eq (pass : A → Bool) (rest : List A) (next : Nat) :
    advancing pass rest next = next + (rest.takeWhile pass).length := by
  induction rest generalizing next with
  | nil => rfl
  | cons record rest ih =>
    rw [advancing]
    split
    next passed =>
      rw [ih,takeWhile_cons_of_pos passed,length_cons]
      omega
    next stays =>
      rw [takeWhile_cons_of_neg stays]
      rfl

variable {next : Nat}

theorem advance_eq (behind : next ≤ (records.takeWhile pass).length) :
    advance pass records next = (records.takeWhile pass).length := by
  rw [advance,advancing_eq]
  induction records generalizing next with
  | nil => simpa using behind
  | cons record rest ih =>
    cases next with
    | zero => rw [drop_zero,Nat.zero_add]
    | succ =>
      by_cases passed : pass record = true
      · rw [takeWhile_cons_of_pos passed,length_cons] at behind ⊢
        have same := ih (Nat.le_of_succ_le_succ behind)
        rw [drop_succ_cons]
        omega
      · rw [takeWhile_cons_of_neg passed] at behind
        cases behind

def sweep (pass : B → A → Bool) (pick : B → Nat → V) (records : List A) : Nat → List B → List V
  | _, [] => []
  | next, time :: times =>
    let next := advance (pass time) records next
    pick time next :: sweep pass pick records next times

@[simp] theorem length_sweep (pass : B → A → Bool) (pick : B → Nat → V) (records : List A) (next : Nat) (times : List B) :
    (sweep pass pick records next times).length = times.length := by
  induction times generalizing next with
  | nil => rfl
  | cons time times ih => rw [sweep,length_cons,length_cons,ih]

theorem takeWhile_length_mono {p q : A → Bool} (weaker : ∀ a, p a = true → q a = true) (records : List A) :
    (records.takeWhile p).length ≤ (records.takeWhile q).length := by
  induction records with
  | nil => exact le_rfl
  | cons record rest ih =>
    by_cases passed : p record = true
    · rw [takeWhile_cons_of_pos passed,takeWhile_cons_of_pos (weaker record passed)]
      exact Nat.succ_le_succ ih
    · rw [takeWhile_cons_of_neg passed]
      exact Nat.zero_le _

theorem sweep_eq {pass : B → A → Bool} {times : List B} (forward : times.Pairwise fun time later => ∀ a, pass time a = true → pass later a = true)
    (pick : B → Nat → V) (behind : ∀ time ∈ times, next ≤ (records.takeWhile (pass time)).length) :
    sweep pass pick records next times = times.map fun time => pick time (records.takeWhile (pass time)).length := by
  induction times generalizing next with
  | nil => rfl
  | cons time times ih =>
    obtain ⟨ahead,rest⟩ := pairwise_cons.mp forward
    rw [sweep,advance_eq (behind time (mem_cons_self ..)),map_cons,
      ih rest fun later listed => takeWhile_length_mono (ahead later listed) records]

theorem getElem?_before_pointer (pass : A → Bool) (records : List A) :
    (if (records.takeWhile pass).length = 0 then none else records[(records.takeWhile pass).length - 1]?) =
      (records.takeWhile pass).getLast? := by
  rw [getLast?_eq_getElem?]
  split
  next none =>
    rw [length_eq_zero_iff.mp none]
    rfl
  · obtain ⟨rest,whole⟩ := takeWhile_prefix pass (l := records)
    have same : (records.takeWhile pass ++ rest)[(records.takeWhile pass).length - 1]? =
        (records.takeWhile pass)[(records.takeWhile pass).length - 1]? := getElem?_append_left (by omega)
    rwa [whole] at same

theorem getElem?_pointer (pass : A → Bool) (records : List A) :
    records[(records.takeWhile pass).length]? = (records.dropWhile pass).head? := by
  have same : (records.takeWhile pass ++ records.dropWhile pass)[(records.takeWhile pass).length]? =
      (records.dropWhile pass)[(records.takeWhile pass).length - (records.takeWhile pass).length]? :=
    getElem?_append_right le_rfl
  rwa [takeWhile_append_dropWhile,Nat.sub_self,← head?_eq_getElem?] at same

end Pointer

section Keys
variable {A K : Type} [LinearOrder K] {key : A → K} {records records' : List A} {t d : K}

def latest (key : A → K) (records : List A) (t : K) : Option A := (records.filter (key · ≤ t)).getLast?

def firstAt (key : A → K) (records : List A) (t : K) : Option A := records.find? (key · = t)

theorem getLast?_takeWhile (sorted : Ascending key records) (t : K) : (records.takeWhile (key · ≤ t)).getLast? = latest key records t := by
  rw [latest,takeWhile_eq_filter sorted]
  intro a b order early
  simp only [decide_eq_true_eq] at early ⊢
  exact order.trans early

theorem head?_dropWhile (sorted : Ascending key records) (t : K) :
    ((records.dropWhile (key · < t)).head?).filter (key · = t) = firstAt key records t := by
  unfold firstAt
  induction records with
  | nil => rfl
  | cons record rest ih =>
    obtain ⟨ahead,tail⟩ := pairwise_cons.mp sorted
    rcases lt_trichotomy (key record) t with early | here | late
    · rw [dropWhile_cons_of_pos (by simpa using early),find?_cons_of_neg (by simpa using early.ne),ih tail]
    · simp [here]
    · -- From here on every key is later.
      have none : rest.find? (key · = t) = none := by
        rw [find?_eq_none]
        intro other listed
        simpa using (late.trans_le (ahead other listed)).ne'
      rw [dropWhile_cons_of_neg (by simpa using late.le),find?_cons_of_neg (by simpa using late.ne'),none]
      simp [late.ne']

section
variable (same : records.filter (key · ≤ d) = records'.filter (key · ≤ d)) (before : t ≤ d)
include same before

theorem latest_congr : latest key records t = latest key records' t := by
  have within (xs : List A) : xs.filter (key · ≤ t) = (xs.filter (key · ≤ d)).filter (key · ≤ t) := by
    rw [filter_filter]
    refine filter_congr fun a _ => ?_
    by_cases early : key a ≤ t
    · simp [early,early.trans before]
    · simp [early]
  rw [latest,latest,within records,within records',same]

theorem firstAt_congr : firstAt key records t = firstAt key records' t := by
  have within (xs : List A) : xs.find? (key · = t) = (xs.filter (key · ≤ d)).find? (key · = t) := by
    rw [find?_filter]
    congr 1
    funext a
    by_cases here : key a = t
    · simp [here,before]
    · simp [here]
  rw [firstAt,firstAt,within records,within records',same]

end

end Keys
end Library
