import Mathlib.Algebra.Order.BigOperators.Group.List
import Mathlib.Data.List.Nodup
import QuantTrading.Library.Runs
import Std.Data.ExtTreeMap

/-! Keyed books: finite maps with extensional equality whose entries are rewritten
one key at a time. A point update writes an entry or deletes it, and leaves the others alone.
-/
namespace Library
open List

/-! Whether something is found with a property is decided by looking. -/

section Looking
variable {A : Type} (found : Option A) (P : A → Prop) [DecidablePred P]

instance decidableExistsSome : Decidable (∃ x, found = some x ∧ P x) :=
  match found with
  | none => .isFalse (by rintro ⟨_,⟨⟩,_⟩)
  | some x => decidable_of_iff (P x) (by simp)

instance decidableAllSome : Decidable (∀ x, found = some x → P x) := decidableForallSome found P

end Looking

abbrev Book (K V : Type) [Ord K] := Std.ExtTreeMap K V compare

export Std.ExtTreeMap (mem_toList_iff_getElem?_eq_some getElem?_empty contains_eq_isSome_getElem? foldl_eq_foldl_toList)

namespace Book

export Std.ExtTreeMap (ext_getElem? getElem?_insert)

variable {K V W : Type} [Ord K] [Std.TransOrd K]

def put (book : Book K V) (key : K) (entry : Option V) : Book K V :=
  match entry with
  | none => book.erase key
  | some value => book.insert key value

variable [Std.LawfulEqOrd K]

section
variable (book : Book K V)

theorem get_insert [DecidableEq K] (key other : K) (value : V) :
    (book.insert key value)[other]? = if key = other then some value else book[other]? := by
  simp [Book.getElem?_insert]

theorem get_erase [DecidableEq K] (key other : K) :
    (book.erase key)[other]? = if key = other then none else book[other]? := by
  simp [Std.ExtTreeMap.getElem?_erase]

theorem get_put [DecidableEq K] (key other : K) (entry : Option V) :
    (book.put key entry)[other]? = if key = other then entry else book[other]? := by
  cases entry with
  | none => exact get_erase book key other
  | some value => exact get_insert book key other value

@[simp] theorem get_put_self (key : K) (entry : Option V) : (book.put key entry)[key]? = entry := by
  cases entry <;> simp [put]

theorem get_put_of_ne {key other : K} (entry : Option V) (distinct : other ≠ key) :
    (book.put key entry)[other]? = book[other]? := by
  classical
  rw [get_put,if_neg (Ne.symm distinct)]

@[simp] theorem put_put (key : K) (first second : Option V) : (book.put key first).put key second = book.put key second := by
  classical
  apply Book.ext_getElem?
  intro other
  simp only [get_put]
  split <;> rfl

end

def collectInto (book : Book K V) (keys : List K) (f : K → Option V) : Book K V :=
  keys.foldl (fun book key => match f key with
    | none => book
    | some value => book.insert key value) book

theorem get_collectInto [DecidableEq K] (book : Book K V) (keys : List K) (f : K → Option V) (key : K) :
    (book.collectInto keys f)[key]? = if key ∈ keys then (f key).or book[key]? else book[key]? := by
  induction keys generalizing book with
  | nil => simp [collectInto]
  | cons first rest ih =>
    have folded : book.collectInto (first :: rest) f = (match f first with
        | none => book
        | some value => book.insert first value).collectInto rest f := rfl
    rw [folded,ih]
    by_cases same : first = key
    · subst same
      cases f first <;> simp
    · have other : key ≠ first := fun eq => same eq.symm
      cases f first <;> simp [Book.getElem?_insert,same,other]

def All (book : Book K V) (P : K → V → Prop) : Prop :=
  ∀ (key : K) (value : V), book[key]? = some value → P key value

instance decidableAll (book : Book K V) (P : K → V → Prop) [∀ key value, Decidable (P key value)] : Decidable (book.All P) :=
  decidable_of_iff (∀ entry ∈ book.toList, P entry.1 entry.2) (by simp [All,mem_toList_iff_getElem?_eq_some])

omit [Std.LawfulEqOrd K] in
@[simp] theorem all_empty (P : K → V → Prop) : All (∅ : Book K V) P := by
  intro key value present
  simp at present

variable {book : Book K V}

variable {P : K → V → Prop}

theorem All.put (all : book.All P) (key : K) (entry : Option V)
    (written : ∀ value, entry = some value → P key value) : (book.put key entry).All P := by
  classical
  intro other value present
  rw [get_put] at present
  split at present
  next same =>
    subst same
    exact written value present
  · exact all other value present

theorem get_map (book : Book K V) (f : K → V → W) (key : K) : (book.map f)[key]? = (book[key]?).map (f key) := by
  simp [Std.ExtTreeMap.getElem?_map]

theorem All.map {Q : K → W → Prop} (all : book.All P)
    (f : K → V → W) (step : ∀ key value, P key value → Q key (f key value)) : All (book.map f) Q := by
  intro key value present
  rw [get_map] at present
  obtain ⟨before,found,rfl⟩ := map_eq_some_iff.mp present
  exact step key before (all key before found)

section
variable (book : Book K V)

theorem foldl_unchanged {S : Type} (f : S → K → V → S) (start : S)
    (idle : ∀ key value, book[key]? = some value → ∀ state, f state key value = state) :
    book.foldl f start = start := by
  rw [foldl_eq_foldl_toList]
  have entries : ∀ entry ∈ book.toList, book[entry.1]? = some entry.2 :=
    fun entry member => mem_toList_iff_getElem?_eq_some.mp member
  generalize book.toList = list at entries
  induction list with
  | nil => rfl
  | cons entry rest ih =>
    rw [foldl_cons,idle entry.1 entry.2 (entries entry (by simp))]
    exact ih fun other member => entries other (by simp [member])

theorem get_eraseAll [DecidableEq K] (entries : List (K × W)) (key : K) :
    (entries.foldl (fun left entry => left.put entry.1 none) book)[key]? =
      if key ∈ entries.map Prod.fst then none else book[key]? := by
  induction entries generalizing book with
  | nil => simp
  | cons entry rest ih =>
    rw [foldl_cons,ih,get_put,map_cons]
    by_cases later : key ∈ rest.map Prod.fst
    · rw [if_pos later,if_pos (mem_cons_of_mem _ later)]
    · rw [if_neg later]
      by_cases here : entry.1 = key
      · rw [if_pos here,if_pos (mem_cons.mpr (.inl here.symm))]
      · rw [if_neg here,if_neg]
        exact fun member => (mem_cons.mp member).elim (fun same => here same.symm) later

theorem eraseAll_toList : book.toList.foldl (fun left entry => left.put entry.1 none) book = ∅ := by
  classical
  apply Book.ext_getElem?
  intro key
  rw [get_eraseAll]
  split
  · rfl
  rename_i absent
  cases found : book[key]? with
  | none => rfl
  | some value =>
    exact absurd (mem_map.mpr ⟨(key,value),mem_toList_iff_getElem?_eq_some.mpr found,rfl⟩) absent

theorem nodup_keys : (book.toList.map (·.1)).Nodup := by
  rw [List.Nodup,pairwise_map]
  refine Std.ExtTreeMap.distinct_keys_toList.imp fun apart same => apart ?_
  rw [same]
  exact Std.ReflCmp.compare_self

theorem nodup_toList : book.toList.Nodup := List.Nodup.of_map _ (nodup_keys book)

end

theorem filter_flatMap_toList [DecidableEq K] {A : Type} {f : K → V → List A} {owner : A → K}
    (owned : book.All fun key value => ∀ a ∈ f key value, owner a = key) (key : K) :
    (book.toList.flatMap fun entry => f entry.1 entry.2).filter (fun a => owner a = key) =
      ((book[key]?).map (f key)).getD [] := by
  have others (entries : List (K × V)) (listed : ∀ entry ∈ entries, entry ∈ book.toList)
      (apart : ∀ entry ∈ entries, entry.1 ≠ key) :
      (entries.flatMap fun entry => f entry.1 entry.2).filter (fun a => owner a = key) = [] := by
    rw [filter_eq_nil_iff]
    intro a member
    obtain ⟨entry,inside,brought⟩ := mem_flatMap.mp member
    have found := mem_toList_iff_getElem?_eq_some.mp (listed entry inside)
    rw [decide_eq_true_eq,owned entry.1 entry.2 found a brought]
    exact apart entry inside
  cases found : book[key]? with
  | none =>
    refine others _ (fun _ member => member) fun entry member same => ?_
    have present := mem_toList_iff_getElem?_eq_some.mp member
    rw [same,found] at present
    cases present
  | some value =>
    obtain ⟨before,after,split⟩ := append_of_mem (mem_toList_iff_getElem?_eq_some.mpr found)
    have distinct := nodup_keys book
    have listed : ∀ entry, entry ∈ before ∨ entry ∈ after → entry ∈ book.toList := by
      intro entry member
      rw [split]
      rcases member with first | second
      · exact mem_append_left _ first
      · exact mem_append_right _ (mem_cons_of_mem _ second)
    rw [split,map_append,map_cons,nodup_append,nodup_cons] at distinct
    have first := others before (fun entry member => listed entry (.inl member)) fun entry member same =>
      distinct.2.2 entry.1 (mem_map_of_mem member) key mem_cons_self same
    have second := others after (fun entry member => listed entry (.inr member)) fun entry member same =>
      distinct.2.1.1 (mem_map.mpr ⟨entry,member,same⟩)
    have own : (f key value).filter (fun a => owner a = key) = f key value := by
      rw [filter_eq_self]
      intro a member
      rw [decide_eq_true_eq]
      exact owned key value found a member
    rw [split,flatMap_append,flatMap_cons,filter_append,filter_append,first,own,second,
      append_nil]
    rfl

theorem toList_insert_perm (book : Book K V) (key : K) (value : V) :
    (book.insert key value).toList.Perm ((key,value) :: (book.erase key).toList) := by
  classical
  have absent : (key,value) ∉ (book.erase key).toList := by
    simp [mem_toList_iff_getElem?_eq_some]
  refine (perm_ext_iff_of_nodup (nodup_toList _) (nodup_cons.mpr ⟨absent,nodup_toList _⟩)).mpr ?_
  rintro ⟨other,held⟩
  rw [mem_cons,mem_toList_iff_getElem?_eq_some,mem_toList_iff_getElem?_eq_some,
    get_insert,get_erase]
  by_cases same : key = other
  · subst same
    simp [eq_comm]
  · simp [same,Ne.symm same]

section Total

variable {M : Type} [AddCommMonoid M]

def total (book : Book K V) (f : K → V → M) : M := (book.toList.map fun entry => f entry.1 entry.2).sum

omit [Std.LawfulEqOrd K] in
theorem foldl_add (book : Book K V) (f : K → V → M) (start : M) :
    book.foldl (fun sum key value => sum + f key value) start = start + book.total f := by
  rw [foldl_eq_foldl_toList,total]
  generalize book.toList = entries
  induction entries generalizing start with
  | nil => simp
  | cons entry rest ih => rw [foldl_cons,ih,map_cons,sum_cons,add_assoc]

omit [Std.LawfulEqOrd K] in
theorem total_add (book : Book K V) (f g : K → V → M) :
    book.total (fun key value => f key value + g key value) = book.total f + book.total g :=
  sum_map_add

omit [Std.LawfulEqOrd K] in
theorem total_map (book : Book K V) (g : K → V → W) (f : K → W → M) :
    total (book.map g) f = book.total fun key value => f key (g key value) := by
  rw [total,total,Std.ExtTreeMap.toList_map,map_map]
  rfl

omit [Std.LawfulEqOrd K] in
theorem total_filterMap (book : Book K V) (g : K → V → Option W) (f : K → W → M) :
    total (book.filterMap g) f = book.total fun key value => ((g key value).map (f key)).getD 0 := by
  rw [total,total,Std.ExtTreeMap.toList_filterMap]
  generalize book.toList = entries
  induction entries with
  | nil => rfl
  | cons entry rest ih =>
    rw [filterMap_cons,map_cons,sum_cons,← ih]
    cases g entry.1 entry.2 with
    | none | some _ => simp

section
variable (book : Book K V) (key : K)

theorem total_insert (value : V) (f : K → V → M) :
    total (book.insert key value) f = f key value + total (book.erase key) f := by
  rw [total,((toList_insert_perm book key value).map _).sum_eq,map_cons,sum_cons,total]

theorem total_erase (f : K → V → M) : total (book.erase key) f + ((book[key]?).map (f key)).getD 0 = book.total f := by
  classical
  cases found : book[key]? with
  | none =>
    have unchanged : book.erase key = book := by
      apply Book.ext_getElem?
      intro other
      rw [get_erase]
      split
      next same =>
        rw [← same,found]
      · rfl
    rw [unchanged,map_none,getD_none,add_zero]
  | some value =>
    have rewritten : book.insert key value = book := by
      apply Book.ext_getElem?
      intro other
      rw [get_insert]
      split
      next same =>
        rw [← same,found]
      · rfl
    rw [map_some,getD_some,add_comm,← total_insert,rewritten]

theorem total_put (entry : Option V) (f : K → V → M) :
    total (book.put key entry) f + ((book[key]?).map (f key)).getD 0 = book.total f + (entry.map (f key)).getD 0 := by
  cases entry with
  | none => rw [put,total_erase,map_none,getD_none,add_zero]
  | some => rw [put,total_insert,add_assoc,total_erase,map_some,getD_some,add_comm]

end

section Order

variable [PartialOrder M] [IsOrderedAddMonoid M]

variable {f : K → V → M}

theorem total_nonneg {book : Book K V} (all : book.All fun key value => 0 ≤ f key value) :
    0 ≤ book.total f := by
  refine sum_nonneg ?_
  intro amount listed
  obtain ⟨entry,member,rfl⟩ := mem_map.mp listed
  exact all entry.1 entry.2 (mem_toList_iff_getElem?_eq_some.mp member)

end Order

end Total

end Book
end Library
