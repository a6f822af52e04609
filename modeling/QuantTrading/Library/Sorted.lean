import Mathlib.Data.List.Sort
import Mathlib.Data.List.TakeDrop
import Mathlib.Data.List.TakeWhile

/-! Sorted lists: binary search for the first index that meets a monotone condition, the
slice two such searches cut out, and the merge of two lists in which the second one
wins on equal keys.
-/
namespace Library
open List

/-- The search between `i` and `j`; every round halves the gap, so its length is enough fuel. -/
def searchBetween (p : Nat → Bool) : Nat → Nat → Nat → Nat
  | 0, i, _ => i
  | fuel + 1, i, j =>
    if i < j then
      let h := (i + j) / 2
      if p h then searchBetween p fuel i h else searchBetween p fuel (h + 1) j
    else i

def search (n : Nat) (p : Nat → Bool) : Nat := searchBetween p n 0 n

variable {p : Nat → Bool}

theorem searchBetween_eq {n k : Nat} (below : ∀ i, i < k → p i = false)
    (above : ∀ i, k ≤ i → i < n → p i = true) (fuel i j : Nat) (enough : j ≤ i + fuel) (left : i ≤ k)
    (right : k ≤ j) (bound : j ≤ n) : searchBetween p fuel i j = k := by
  induction fuel generalizing i j with
  | zero =>
    simp only [searchBetween]
    omega
  | succ fuel ih =>
    simp only [searchBetween]
    split
    · -- The middle index is on the side of `k` that its test says.
      by_cases side : k ≤ (i + j) / 2
      · rw [if_pos (above _ side (by omega))]
        exact ih _ _ (by omega) left side (by omega)
      · rw [if_neg (by simp [below _ (not_le.mp side)])]
        exact ih _ _ (by omega) (by omega) right bound
    · omega

theorem search_eq {n k : Nat} (bound : k ≤ n) (below : ∀ i, i < k → p i = false)
    (above : ∀ i, k ≤ i → i < n → p i = true) : search n p = k :=
  searchBetween_eq below above n 0 n (by omega) (Nat.zero_le k) bound le_rfl

section Slices
variable {A : Type} {K : Type} [LinearOrder K] (key : A → K)

def Ascending (xs : List A) : Prop := xs.Pairwise fun a b => key a ≤ key b

variable {p : A → Bool} {xs : List A}

theorem takeWhile_getElem {i : Nat} {x : A} (inside : i < (xs.takeWhile p).length)
    (at_ : xs[i]? = some x) : p x = true := by
  have same : (xs.takeWhile p)[i]? = xs[i]? := by
    conv_rhs => rw [← takeWhile_append_dropWhile (p := p) (l := xs)]
    exact (getElem?_append_left inside).symm
  exact mem_takeWhile_imp (mem_of_getElem? (same.trans at_))

variable {key}

/-- In a sorted list a condition that smaller keys inherit holds exactly on a front part, and
a binary search for its failure finds the length of that part. -/
theorem search_takeWhile (sorted : Ascending key xs) (inherited : ∀ a b, key a ≤ key b → p b = true → p a = true) :
    search xs.length (fun i => (xs[i]?).any fun x => !p x) = (xs.takeWhile p).length := by
  have short := (takeWhile_sublist p (l := xs)).length_le
  refine search_eq short ?_ ?_
  · intro i inside
    obtain ⟨x,found⟩ : ∃ x, xs[i]? = some x := ⟨_,getElem?_eq_getElem (lt_of_lt_of_le inside short)⟩
    simp [found,takeWhile_getElem inside found]
  · intro i outside bound
    have split := takeWhile_append_dropWhile (p := p) (l := xs)
    have found : xs[i]? = some xs[i] := getElem?_eq_getElem bound
    cases rest : xs.dropWhile p with
    | nil =>
      rw [rest,append_nil] at split
      rw [split] at outside
      omega
    | cons head tail =>
      have stops : ¬ p head = true := by
        have := head_dropWhile_not p (l := xs) (by simp [rest])
        simpa [rest] using this
      have later : xs[i] ∈ head :: tail := by
        have beyond : (xs.takeWhile p ++ head :: tail)[i]? = some xs[i] := by rw [← rest,split,found]
        rw [getElem?_append_right outside] at beyond
        exact mem_of_getElem? beyond
      have order : key head ≤ key xs[i] := by
        rw [Ascending,← split,rest] at sorted
        rcases mem_cons.mp later with same | after
        · rw [same]
        · exact (pairwise_cons.mp (pairwise_append.mp sorted).2.1).1 _ after
      have fails : p xs[i] = false := by
        by_contra holds
        exact stops (inherited _ _ order (by simpa using holds))
      simp [found,fails]

theorem filter_eq_nil_of_first {x : A} {rest : List A} (sorted : Ascending key (x :: rest))
    (inherited : ∀ a b, key a ≤ key b → p b = true → p a = true) (stops : p x = false) (r : A → Bool) :
    (x :: rest).filter (fun y => r y && p y) = [] := by
  rw [filter_eq_nil_iff]
  intro y listed holds
  have order : key x ≤ key y := by
    rcases mem_cons.mp listed with rfl | later
    · exact le_rfl
    · exact (pairwise_cons.mp sorted).1 y later
  have first := inherited _ _ order (Bool.and_eq_true_iff.mp holds).2
  simp [stops] at first

variable {q : A → Bool}

section
variable (sorted : Ascending key xs)
include sorted

theorem slice_eq_filter (before : ∀ a b, key a ≤ key b → p b = true → p a = true)
    (within : ∀ a b, key a ≤ key b → q b = true → q a = true) :
    (xs.take (xs.takeWhile q).length).drop (xs.takeWhile p).length = xs.filter fun x => !p x && q x := by
  induction xs with
  | nil => rfl
  | cons x rest ih =>
    have tail : Ascending key rest := (pairwise_cons.mp sorted).2
    cases inside : q x with
    | false =>
      rw [filter_eq_nil_of_first sorted within inside]
      simp [inside]
    | true =>
      cases early : p x with
      | true => simpa [inside,early] using ih tail
      | false =>
        -- From here on every element is past the first condition.
        have none : rest.takeWhile p = [] := by
          cases rest with
          | nil => rfl
          | cons y =>
            have late : ¬ p y = true := fun holds => by
              have first := before _ _ ((pairwise_cons.mp sorted).1 y (mem_cons_self ..)) holds
              simp [early] at first
            exact takeWhile_cons_of_neg late
        simpa [inside,early,none] using ih tail

section
variable (inherited : ∀ a b, key a ≤ key b → p b = true → p a = true)
include inherited

theorem dropWhile_eq_filter : xs.dropWhile p = xs.filter fun x => !p x := by
  induction xs with
  | nil => rfl
  | cons x rest ih =>
    obtain ⟨ahead,tail⟩ := pairwise_cons.mp sorted
    cases early : p x with
    | true => simpa [early] using ih tail
    | false =>
      have late : ∀ y ∈ x :: rest, (!p y) = true := by
        intro y listed
        rcases mem_cons.mp listed with rfl | later
        · simp [early]
        · cases holds : p y with
          | false => rfl
          | true => simp [inherited _ _ (ahead y later) holds] at early
      rw [filter_eq_self.mpr late,dropWhile_cons_of_neg (by simp [early])]

theorem takeWhile_eq_filter : xs.takeWhile p = xs.filter p := by
  induction xs with
  | nil => rfl
  | cons x rest ih =>
    cases inside : p x with
    | true => simpa [inside] using ih (pairwise_cons.mp sorted).2
    | false =>
      have empty := filter_eq_nil_of_first sorted inherited inside fun _ => true
      simp only [Bool.true_and] at empty
      rw [empty,takeWhile_cons_of_neg (by simp [inside])]

end

theorem window_eq_filter (before : ∀ a b, key a ≤ key b → p b = true → p a = true)
    (within : ∀ a b, key a ≤ key b → q b = true → q a = true) :
    (xs.dropWhile p).takeWhile q = xs.filter fun x => !p x && q x := by
  have rest : Ascending key (xs.dropWhile p) := Pairwise.sublist (dropWhile_sublist p) sorted
  rw [takeWhile_eq_filter rest within,dropWhile_eq_filter sorted before,filter_filter]
  exact filter_congr fun x _ => Bool.and_comm ..

end

end Slices

section Merging
variable {A : Type} {K : Type} [LinearOrder K] (key : A → K)

/-- The merge of two ascending lists; of two elements with one key the incoming one stays. -/
def mergeLatest : List A → List A → List A
  | [], incoming => incoming
  | existing, [] => existing
  | a :: existing, b :: incoming =>
    if key a < key b then a :: mergeLatest existing (b :: incoming)
    else if key b < key a then b :: mergeLatest (a :: existing) incoming
    else b :: mergeLatest existing incoming
termination_by existing incoming => existing.length + incoming.length

variable {key}

@[simp] theorem mergeLatest_nil_left (incoming : List A) : mergeLatest key [] incoming = incoming := by
  rw [mergeLatest]

@[simp] theorem mergeLatest_nil_right (existing : List A) : mergeLatest key existing [] = existing := by
  cases existing <;> simp [mergeLatest]

variable {existing incoming : List A}

theorem mem_of_mem_mergeLatest {x : A} (merged : x ∈ mergeLatest key existing incoming) :
    x ∈ existing ∨ x ∈ incoming := by
  induction existing,incoming using mergeLatest.induct key with
  | case1 => exact .inr (by simpa using merged)
  | case2 => exact .inl (by simpa using merged)
  | case3 a existing b incoming earlier =>
    rw [mergeLatest] at merged
    grind
  | case4 a existing b incoming late earlier =>
    rw [mergeLatest,if_neg late] at merged
    grind
  | case5 a existing b incoming late early =>
    rw [mergeLatest,if_neg late] at merged
    grind

theorem mergeLatest_ascending (first : Ascending key existing)
    (second : Ascending key incoming) : Ascending key (mergeLatest key existing incoming) := by
  induction existing,incoming using mergeLatest.induct key with
  | case1 => simpa using second
  | case2 => simpa using first
  | case3 a existing b incoming earlier ih =>
    rw [mergeLatest,if_pos earlier]
    obtain ⟨ahead,rest⟩ := pairwise_cons.mp first
    refine pairwise_cons.mpr ⟨fun x merged => ?_,ih rest second⟩
    rcases mem_of_mem_mergeLatest merged with old | new
    · exact ahead x old
    · rcases mem_cons.mp new with rfl | later
      · exact earlier.le
      · exact earlier.le.trans ((pairwise_cons.mp second).1 x later)
  | case4 a existing b incoming late earlier ih =>
    rw [mergeLatest,if_neg late,if_pos earlier]
    obtain ⟨ahead,rest⟩ := pairwise_cons.mp second
    refine pairwise_cons.mpr ⟨fun x merged => ?_,ih first rest⟩
    rcases mem_of_mem_mergeLatest merged with old | new
    · rcases mem_cons.mp old with rfl | later
      · exact earlier.le
      · exact earlier.le.trans ((pairwise_cons.mp first).1 x later)
    · exact ahead x new
  | case5 a existing b incoming late early ih =>
    rw [mergeLatest,if_neg late,if_neg early]
    obtain ⟨aheadOld,restOld⟩ := pairwise_cons.mp first
    obtain ⟨aheadNew,restNew⟩ := pairwise_cons.mp second
    refine pairwise_cons.mpr ⟨fun x merged => ?_,ih restOld restNew⟩
    rcases mem_of_mem_mergeLatest merged with old | new
    · exact (not_lt.mp late).trans (aheadOld x old)
    · exact aheadNew x new

theorem mergeLatest_cons_left {a : A} (ahead : ∀ b ∈ incoming, key a < key b) :
    mergeLatest key (a :: existing) incoming = a :: mergeLatest key existing incoming := by
  cases incoming with
  | nil => simp
  | cons b => rw [mergeLatest,if_pos (ahead b (mem_cons_self ..))]

theorem mergeLatest_cons_right {b : A} (ahead : ∀ a ∈ existing, key b < key a) :
    mergeLatest key existing (b :: incoming) = b :: mergeLatest key existing incoming := by
  cases existing with
  | nil => simp
  | cons a =>
    have earlier := ahead a (mem_cons_self ..)
    rw [mergeLatest,if_neg earlier.asymm,if_pos earlier]

theorem mergeLatest_filter {xs : List A} (strict : xs.Pairwise fun a b => key a < key b) (p q : A → Bool) :
    mergeLatest key (xs.filter p) (xs.filter q) = xs.filter fun x => p x || q x := by
  induction xs with
  | nil => simp
  | cons x xs ih =>
    obtain ⟨ahead,rest⟩ := pairwise_cons.mp strict
    have later (r : A → Bool) : ∀ y ∈ xs.filter r, key x < key y := fun y listed => ahead y (mem_filter.mp listed).1
    have merged := ih rest
    cases old : p x <;> cases new : q x
    · simpa [old,new] using merged
    · simpa [old,new,mergeLatest_cons_right (later p)] using merged
    · simpa [old,new,mergeLatest_cons_left (later q)] using merged
    · simpa [old,new,mergeLatest] using merged

end Merging
end Library
