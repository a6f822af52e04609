import QuantTrading.Library.Book

/-! Slices: windows of arrays that several holders may share. Appending writes in place while there is
capacity and moves to a new array when there is none. The rules say which arrays an operation
touches, and what a book of slices that keeps to arrays of its own still holds afterwards.
-/
namespace Library
open List

structure Heap (α : Type) where
  arrays : List (List α)

structure Slice where
  (array offset length capacity : Nat)
deriving DecidableEq

def Slice.nil : Slice := ⟨0,0,0,0⟩

def Slice.tail (s : Slice) (count : Nat) : Slice := ⟨s.array,s.offset + count,s.length - count,s.capacity - count⟩

namespace Heap
variable {α : Type}

variable (zero : α) (spare : Nat) (h : Heap α)

def size : Nat := h.arrays.length

def cells (array : Nat) : List α := (h.arrays[array]?).getD []

def read (s : Slice) : List α := ((h.cells s.array).drop s.offset).take s.length

def overwrite (start : Nat) (xs old : List α) : List α := old.take start ++ xs ++ old.drop (start + xs.length)

def write (array start : Nat) (xs : List α) : Heap α :=
  ⟨h.arrays.set array (overwrite start xs (h.cells array))⟩

def place (zero : α) (spare : Nat) (h : Heap α) (xs : List α) : Slice × Heap α :=
  (⟨h.size,0,xs.length,xs.length + spare⟩,⟨h.arrays ++ [xs ++ replicate spare zero]⟩)

def make (zero : α) (h : Heap α) (length : Nat) : Slice × Heap α := h.place zero 0 (replicate length zero)

def copy (target source : Slice) : Heap α :=
  h.write target.array target.offset ((h.read source).take target.length)

def append (zero : α) (spare : Nat) (h : Heap α) (s : Slice) (x : α) : Slice × Heap α :=
  if s.length < s.capacity then ({ s with length := s.length + 1 },h.write s.array (s.offset + s.length) [x])
  else h.place zero spare (h.read s ++ [x])

structure Fits (h : Heap α) (s : Slice) : Prop where
  length : s.length ≤ s.capacity
  capacity : s.offset + s.capacity ≤ (h.cells s.array).length

/-- Nothing goes away, and the arrays that were there are as before unless touched. -/
structure Changes (touched : Nat → Prop) (h h' : Heap α) : Prop where
  grown : h.size ≤ h'.size
  same : ∀ array, array < h.size → ¬ touched array → h'.cells array = h.cells array

variable {h h' h'' : Heap α} {s : Slice} {touched : Nat → Prop}

theorem fits_nil : h.Fits .nil := ⟨le_rfl,Nat.zero_le _⟩

theorem Fits.read_length (fits : h.Fits s) : (h.read s).length = s.length := by
  have := fits.length
  have := fits.capacity
  simp only [read,length_take,length_drop]
  omega

theorem Fits.tail (fits : h.Fits s) {count : Nat} (inside : count ≤ s.length) : h.Fits (s.tail count) := by
  have := fits.length
  have := fits.capacity
  exact ⟨by simp only [Slice.tail]; omega,by simp only [Slice.tail]; omega⟩

theorem read_tail (h : Heap α) (s : Slice) (count : Nat) : h.read (s.tail count) = (h.read s).drop count := by
  simp only [read,Slice.tail,drop_take,drop_drop]

theorem Fits.inside (fits : h.Fits s) (room : 0 < s.capacity) : s.array < h.size := by
  by_contra outside
  have missing : h.cells s.array = [] := by
    rw [cells,getElem?_eq_none (not_lt.mp outside),getD_none]
  have := fits.capacity
  rw [missing,length_nil] at this
  omega

theorem Changes.refl (h : Heap α) : Changes touched h h := ⟨le_rfl,fun _ _ _ => rfl⟩

theorem Changes.trans (first : Changes touched h h') (second : Changes touched h' h'') : Changes touched h h'' :=
  ⟨first.grown.trans second.grown,fun array old apart =>
    (second.same array (old.trans_le first.grown) apart).trans (first.same array old apart)⟩

theorem Changes.mono {more : Nat → Prop} (changes : Changes touched h h') (weaker : ∀ array, array < h.size → touched array → more array) :
    Changes more h h' :=
  ⟨changes.grown,fun array old apart => changes.same array old fun here => apart (weaker array old here)⟩

section
variable (changes : Changes touched h h') (old : s.array < h.size) (apart : ¬ touched s.array)
include changes old apart

theorem Changes.read : h'.read s = h.read s := by
  rw [Heap.read,Heap.read,changes.same s.array old apart]

theorem Changes.fits (fits : h.Fits s) : h'.Fits s :=
  ⟨fits.length,by rw [changes.same s.array old apart]; exact fits.capacity⟩

end

@[simp] theorem size_write (h : Heap α) (array start : Nat) (xs : List α) : (h.write array start xs).size = h.size := by
  simp [size,write]

theorem cells_write_self {array : Nat} (inside : array < h.size) (start : Nat) (xs : List α) :
    (h.write array start xs).cells array = overwrite start xs (h.cells array) := by
  have inside : array < h.arrays.length := inside
  simp [cells,write,inside]

theorem write_changes (h : Heap α) (array start : Nat) (xs : List α) : Changes (· = array) h (h.write array start xs) := by
  refine ⟨(size_write ..).ge,fun other _ apart => ?_⟩
  simp only [cells,write,getElem?_set_ne (Ne.symm apart)]

theorem overwrite_length {start : Nat} {xs old : List α} (room : start + xs.length ≤ old.length) :
    (overwrite start xs old).length = old.length := by
  simp only [overwrite,length_append,length_take,length_drop]
  omega

theorem overwrite_extend {offset length : Nat} {x : α} {old : List α} (room : offset + length < old.length) :
    ((overwrite (offset + length) [x] old).drop offset).take (length + 1) = (old.drop offset).take length ++ [x] := by
  have before : (old.take (offset + length)).length = offset + length := by rw [length_take]; omega
  have shifted : (old.take (offset + length)).drop offset = (old.drop offset).take length := by
    rw [drop_take,Nat.add_sub_cancel_left]
  have filled : ((old.drop offset).take length).length = length := by rw [length_take,length_drop]; omega
  rw [overwrite,append_assoc,drop_append_of_le_length (by omega),shifted,take_append,filled,
    take_of_length_le (by omega),Nat.add_sub_cancel_left]
  rfl

/-- A new slice: what it holds, and that no older array is its own or changed. -/
structure Fresh (h : Heap α) (xs : List α) (result : Slice × Heap α) : Prop where
  new : h.size ≤ result.1.array
  inside : result.1.array < result.2.size
  fits : result.2.Fits result.1
  holds : result.2.read result.1 = xs
  kept : Changes (fun _ => False) h result.2

theorem place_fresh (h : Heap α) (xs : List α) : Fresh h xs (h.place zero spare xs) := by
  have made : (h.place zero spare xs).2.cells h.size = xs ++ replicate spare zero := by
    simp [place,cells,size]
  refine ⟨le_rfl,by simp [place,size],⟨?_,?_⟩,?_,⟨by simp [place,size],fun array old _ => ?_⟩⟩
  · exact Nat.le_add_right ..
  · change 0 + (xs.length + spare) ≤ ((h.place zero spare xs).2.cells h.size).length
    rw [made]
    simp
  · change (((h.place zero spare xs).2.cells h.size).drop 0).take xs.length = xs
    rw [made,drop_zero,take_left]
  · simp [place,cells,getElem?_append_left old]

/-- Made for the length of a slice and filled from it, an array holds what the slice does. -/
def clone (zero : α) (h : Heap α) (source : Slice) : Slice × Heap α :=
  let (target,h) := h.make zero source.length
  (target,h.copy target source)

theorem clone_fresh {source : Slice} (old : source.array < h.size) (fits : h.Fits source) :
    Fresh h (h.read source) (h.clone zero source) := by
  have made := place_fresh zero 0 h (replicate source.length zero)
  have size : (h.read source).length = source.length := fits.read_length
  have same : (h.make zero source.length).2.read source = h.read source := made.kept.read old not_false
  have length : (h.make zero source.length).1.length = source.length := by simp [make,place]
  have cells : (h.make zero source.length).2.cells h.size = replicate source.length zero := by
    simp [make,place,cells,Heap.size]
  have written : (h.clone zero source).2 = (h.make zero source.length).2.write h.size 0 (h.read source) := by
    change (h.make zero source.length).2.copy (h.make zero source.length).1 source = _
    rw [copy,same,length,take_of_length_le size.le]
    rfl
  have inside : h.size < (h.make zero source.length).2.size := made.inside
  have final : (h.clone zero source).2.cells h.size = h.read source := by
    rw [written,cells_write_self inside,cells,overwrite,take_zero,nil_append,drop_of_length_le (by simp [size]),
      append_nil]
  refine ⟨le_rfl,?_,⟨?_,?_⟩,?_,?_⟩
  · rw [written,size_write]
    exact inside
  · exact made.fits.length
  · change 0 + _ ≤ ((h.clone zero source).2.cells h.size).length
    rw [final,size]
    simp [clone,make,place]
  · change (((h.clone zero source).2.cells h.size).drop 0).take (h.make zero source.length).1.length = _
    rw [final,length,drop_zero,take_of_length_le size.le]
  · have behind : Changes (· = h.size) h (h.clone zero source).2 := by
      exact (made.kept.mono fun _ _ => False.elim).trans (write_changes ..)
    exact behind.mono fun array old same => old.ne same

/-- The slice that stands in place of another: it stays in the same array, whose free cells are used,
or is new. -/
structure Moved (h : Heap α) (s : Slice) (xs : List α) (result : Slice × Heap α) : Prop where
  origin : s.length < s.capacity ∧ result.1.array = s.array ∨ h.size ≤ result.1.array
  inside : result.1.array < result.2.size
  fits : result.2.Fits result.1
  holds : result.2.read result.1 = xs
  changes : Changes (fun array => s.length < s.capacity ∧ array = s.array) h result.2

theorem Fresh.moved {xs : List α} {result : Slice × Heap α} (fresh : Fresh h xs result) (s : Slice) : Moved h s xs result :=
  ⟨.inr fresh.new,fresh.inside,fresh.fits,fresh.holds,fresh.kept.mono fun _ _ => False.elim⟩

theorem append_moved (x : α) (fits : h.Fits s) : Moved h s (h.read s ++ [x]) (h.append zero spare s x) := by
  unfold append
  split
  next room =>
    have inside := fits.inside (Nat.zero_lt_of_lt room)
    have free : s.offset + s.length < (h.cells s.array).length := by
      have := fits.capacity
      omega
    have cells := cells_write_self inside (s.offset + s.length) [x]
    refine ⟨.inl ⟨room,rfl⟩,?_,⟨room,?_⟩,?_,?_⟩
    · rw [size_write]
      exact inside
    · rw [cells,overwrite_length free]
      exact fits.capacity
    · rw [read,cells]
      exact overwrite_extend free
    · exact (write_changes ..).mono fun array _ here => ⟨room,here⟩
  · exact (place_fresh zero spare h (h.read s ++ [x])).moved s

theorem Moved.fresh {xs ys : List α} {moved copied : Slice × Heap α} (before : Moved h s xs moved) (fresh : Fresh moved.2 ys copied) :
    Moved h s ys copied :=
  ⟨.inr (before.changes.grown.trans fresh.new),fresh.inside,fresh.fits,fresh.holds,
    before.changes.trans (fresh.kept.mono fun _ _ => False.elim)⟩

section Books
variable {K V : Type} [Ord K] [Std.TransOrd K] [Std.LawfulEqOrd K] [DecidableEq K] {book : Book K Slice}

structure Owned (h : Heap α) (book : Book K Slice) : Prop where
  inside : ∀ (k : K) (s : Slice), book[k]? = some s → s.array < h.size ∧ h.Fits s
  apart : ∀ (k k' : K) (s s' : Slice), book[k]? = some s → book[k']? = some s' → s.array = s'.array → k = k'

def contents (h : Heap α) (book : Book K Slice) : Book K (List α) := book.map fun _ s => h.read s

omit [DecidableEq K] in
theorem get_contents (h : Heap α) (book : Book K Slice) (k : K) : (h.contents book)[k]? = (book[k]?).map h.read :=
  Book.get_map book _ k

omit [Std.LawfulEqOrd K] [DecidableEq K] in
theorem owned_empty (h : Heap α) : h.Owned (∅ : Book K Slice) := by
  constructor <;> simp

omit [DecidableEq K] in
theorem Owned.changed (owned : h.Owned book) (changes : Changes touched h h')
    (apart : ∀ (k : K) (s : Slice), book[k]? = some s → ¬ touched s.array) : h'.Owned book ∧ h'.contents book = h.contents book := by
  refine ⟨⟨fun k s found => ?_,owned.apart⟩,?_⟩
  · obtain ⟨old,fits⟩ := owned.inside k s found
    exact ⟨old.trans_le changes.grown,changes.fits old (apart k s found) fits⟩
  · apply Book.ext_getElem?
    intro k
    rw [get_contents,get_contents]
    cases found : book[k]? with
    | none => rfl
    | some s => rw [map_some,map_some,changes.read (owned.inside k s found).1 (apart k s found)]

section Moving
variable {k other : K} {xs : List α} {result : Slice × Heap α}

omit [Std.LawfulEqOrd K] [DecidableEq K] in
theorem Owned.elsewhere (owned : h.Owned book) (found : book[other]? = some s) (distinct : k ≠ other) :
    ¬ (((book[k]?).getD .nil).length < ((book[k]?).getD .nil).capacity ∧ s.array = ((book[k]?).getD .nil).array) := by
  rintro ⟨room,same⟩
  cases here : book[k]? with
  | none => simp [here,Slice.nil] at room
  | some own =>
    rw [here] at same
    exact distinct (owned.apart k other own s here found same.symm)

omit [Std.LawfulEqOrd K] [DecidableEq K] in
theorem Owned.array_ne (owned : h.Owned book) (moved : Moved h ((book[k]?).getD .nil) xs result) (found : book[other]? = some s)
    (distinct : k ≠ other) : result.1.array ≠ s.array := by
  intro same
  rcases moved.origin with ⟨room,stays⟩ | new
  · exact owned.elsewhere found distinct ⟨room,same.symm.trans stays⟩
  · exact absurd (owned.inside other s found).1 (by omega)

theorem Owned.moved (owned : h.Owned book) (moved : Moved h ((book[k]?).getD .nil) xs result) :
    result.2.Owned (book.insert k result.1) := by
  constructor
  · intro other s found
    rw [Book.get_insert] at found
    split at found
    · cases found
      exact ⟨moved.inside,moved.fits⟩
    next distinct =>
      obtain ⟨old,fits⟩ := owned.inside other s found
      exact ⟨old.trans_le moved.changes.grown,moved.changes.fits old (owned.elsewhere found distinct) fits⟩
  · intro one two s s' first second same
    rw [Book.get_insert] at first second
    split at first
    next isOne =>
      cases first
      split at second
      next isTwo =>
        exact isOne.symm.trans isTwo
      next distinct =>
        exact absurd same (owned.array_ne moved second distinct)
    next distinct =>
      split at second
      · cases second
        exact absurd same.symm (owned.array_ne moved first distinct)
      · exact owned.apart one two s s' first second same

theorem Owned.contents_moved (owned : h.Owned book) (moved : Moved h ((book[k]?).getD .nil) xs result) :
    result.2.contents (book.insert k result.1) = (h.contents book).insert k xs := by
  apply Book.ext_getElem?
  intro other
  rw [get_contents,Book.get_insert,Book.get_insert,get_contents]
  split
  · rw [map_some,moved.holds]
  next distinct =>
    cases found : book[other]? with
    | none => rfl
    | some s =>
      rw [map_some,map_some,moved.changes.read (owned.inside other s found).1 (owned.elsewhere found distinct)]

end Moving

def Uses (book : Book K Slice) (array : Nat) : Prop := ∃ (k : K) (s : Slice), book[k]? = some s ∧ s.array = array

variable {xs : List α} {result : Slice × Heap α} {held : Book K (List α)} {made : Book K Slice × Heap α}
   {store : Heap α → V → Slice × Heap α} {meaning : V → List α}

theorem Moved.uses {k : K} {array : Nat}
    (moved : Moved h ((book[k]?).getD .nil) xs result) (used : Uses (book.insert k result.1) array) :
    Uses book array ∨ h.size ≤ array := by
  obtain ⟨other,s,found,rfl⟩ := used
  rw [Book.get_insert] at found
  split at found
  · cases found
    rcases moved.origin with ⟨room,stays⟩ | new
    · cases here : book[k]? with
      | none => simp [here,Slice.nil] at room
      | some own =>
        rw [here] at stays
        exact .inl ⟨k,own,here,stays.symm⟩
    · exact .inr new
  · exact .inl ⟨other,s,found,rfl⟩

def storeAll (store : Heap α → V → Slice × Heap α) (h : Heap α) (entries : Book K V) : Book K Slice × Heap α :=
  entries.toList.foldl (fun made entry => (made.1.insert entry.1 (store made.2 entry.2).1,(store made.2 entry.2).2)) (∅,h)

structure Stored (h : Heap α) (held : Book K (List α)) (result : Book K Slice × Heap α) : Prop where
  kept : Changes (fun _ => False) h result.2
  owned : result.2.Owned result.1
  new : ∀ (k : K) (s : Slice), result.1[k]? = some s → h.size ≤ s.array
  holds : result.2.contents result.1 = held

theorem Stored.insert (stored : Stored h held made) (k : K) (fresh : Fresh made.2 xs result) :
    Stored h (held.insert k xs) (made.1.insert k result.1,result.2) := by
  have moved := fresh.moved ((made.1[k]?).getD .nil)
  refine ⟨stored.kept.trans fresh.kept,stored.owned.moved moved,fun other s found => ?_,?_⟩
  · rw [Book.get_insert] at found
    split at found
    · cases found
      exact stored.kept.grown.trans fresh.new
    · exact stored.new other s found
  · rw [stored.owned.contents_moved moved,stored.holds]

theorem foldl_stored {entries : List (K × V)}
    (fresh : ∀ entry ∈ entries, ∀ h', Changes (fun _ => False) h h' → Fresh h' (meaning entry.2) (store h' entry.2)) (stored : Stored h held made) :
    Stored h (held.insertMany (entries.map fun entry => (entry.1,meaning entry.2)))
      (entries.foldl (fun made entry => (made.1.insert entry.1 (store made.2 entry.2).1,(store made.2 entry.2).2)) made) := by
  induction entries generalizing held made with
  | nil =>
    exact stored
  | cons entry rest ih =>
    rw [map_cons,Std.ExtTreeMap.insertMany_cons]
    exact ih (fun later listed => fresh later (mem_cons_of_mem _ listed))
      (stored.insert entry.1 (fresh entry (mem_cons_self ..) made.2 stored.kept))

omit [DecidableEq K] in
theorem insertMany_toList (entries : Book K V) (meaning : V → List α) :
    (∅ : Book K (List α)).insertMany (entries.toList.map fun entry => (entry.1,meaning entry.2)) =
      entries.map fun _ v => meaning v := by
  classical
  apply Book.ext_getElem?
  intro k
  rw [Book.get_map]
  cases found : entries[k]? with
  | none =>
    rw [Std.ExtTreeMap.getElem?_insertMany_list_of_contains_eq_false]
    · simp
    · rw [Bool.eq_false_iff,ne_eq,contains_iff_mem]
      intro listed
      rw [map_map] at listed
      obtain ⟨entry,present,rfl⟩ := mem_map.mp listed
      have there : entries[entry.1]? = some entry.2 := mem_toList_iff_getElem?_eq_some.mp present
      rw [Function.comp_apply,there] at found
      cases found
  | some v =>
    refine Std.ExtTreeMap.getElem?_insertMany_list_of_mem Std.ReflCmp.compare_self ?_ ?_
    · rw [pairwise_map]
      exact Std.ExtTreeMap.distinct_keys_toList
    · exact mem_map.mpr ⟨(k,v),mem_toList_iff_getElem?_eq_some.mpr found,rfl⟩

theorem storeAll_stored {entries : Book K V}
    (fresh : ∀ (k : K) (v : V), entries[k]? = some v → ∀ h', Changes (fun _ => False) h h' → Fresh h' (meaning v) (store h' v)) :
    Stored h (entries.map fun _ v => meaning v) (h.storeAll store entries) := by
  have none : Stored h (∅ : Book K (List α)) ((∅ : Book K Slice),h) :=
    ⟨.refl h,owned_empty h,by simp,by apply Book.ext_getElem?; simp [get_contents]⟩
  have all := foldl_stored (fun entry listed => fresh entry.1 entry.2 (mem_toList_iff_getElem?_eq_some.mp listed)) none
  rwa [insertMany_toList] at all

end Books
end Heap
end Library
