import QuantTrading.Library.Book

/-! Computations that may fail: what their success says of their parts, and a loop that
fills a book key by key and stops at the first failure.
-/
namespace Library
open List

section Success
variable {E F A B : Type}

variable {x : Except E A}

theorem bind_eq_ok {f : A → Except E B} {b : B} :
    (x >>= f) = .ok b ↔ ∃ a, x = .ok a ∧ f a = .ok b := by
  cases x with
  | _ => simp [bind,Except.bind]

theorem mapError_eq_ok {f : E → F} {a : A} : x.mapError f = .ok a ↔ x = .ok a := by
  cases x <;> simp [Except.mapError]

theorem map_eq_ok {f : A → B} {b : B} : x.map f = .ok b ↔ ∃ a, x = .ok a ∧ f a = b := by
  cases x <;> simp [Except.map]

theorem pure_eq_ok {a b : A} : (pure a : Except E A) = .ok b ↔ a = b := by
  simp [pure,Except.pure]

instance decidableExistsOk {P : A → Prop} [DecidablePred P] : Decidable (∃ a, x = .ok a ∧ P a) :=
  match x with
  | .error _ => .isFalse (by rintro ⟨_,⟨⟩,_⟩)
  | .ok a => decidable_of_iff (P a) (by simp)

theorem exists_ok (ok : x.isOk = true) : ∃ a, x = .ok a := by
  cases x with
  | error => cases ok
  | ok a => exact ⟨a,rfl⟩

/-! Loops that stop at the first failure. -/

variable {S : Type} {f g : S → A → Except E S} {xs : List A}

theorem foldlM_congr (same : ∀ x ∈ xs, ∀ s, f s x = g s x) (start : S) : xs.foldlM f start = xs.foldlM g start := by
  induction xs generalizing start with
  | nil => rfl
  | cons x xs ih =>
    rw [foldlM_cons,foldlM_cons,same x mem_cons_self start]
    exact congrArg _ (funext fun s => ih (fun y member => same y (mem_cons_of_mem _ member)) s)

theorem foldlM_relates {R : S → S → Prop} (refl : ∀ s, R s s) (trans : ∀ a b c, R a b → R b c → R a c)
    (round : ∀ x ∈ xs, ∀ s s', f s x = .ok s' → R s s') {start last : S} (ok : xs.foldlM f start = .ok last) :
    R start last := by
  induction xs generalizing start with
  | nil =>
    rw [foldlM_nil,pure_eq_ok] at ok
    exact ok ▸ refl start
  | cons x xs ih =>
    rw [foldlM_cons,bind_eq_ok] at ok
    obtain ⟨next,first,rest⟩ := ok
    exact trans _ _ _ (round x mem_cons_self start next first)
      (ih (fun y member => round y (mem_cons_of_mem _ member)) rest)

end Success

namespace Book
variable {E K V : Type} [Ord K] [Std.TransOrd K]

def fillFrom (f : K → Except E V) (book : Book K V) (keys : List K) : Except E (Book K V) :=
  keys.foldlM (fun book key => do
    let value ← f key
    return book.insert key value) book

def fill (keys : List K) (f : K → Except E V) : Except E (Book K V) := fillFrom f ∅ keys

variable {f : K → Except E V} {keys : List K} {filled : Book K V}

theorem fillFrom_cons_eq_ok {book : Book K V} {key : K} : fillFrom f book (key :: keys) = .ok filled ↔
      ∃ value, f key = .ok value ∧ fillFrom f (book.insert key value) keys = .ok filled := by
  simp only [fillFrom,foldlM_cons,bind_eq_ok,pure_eq_ok]
  constructor
  · rintro ⟨next,⟨value,found,rfl⟩,rest⟩
    exact ⟨value,found,rest⟩
  · rintro ⟨value,found,rest⟩
    exact ⟨_,⟨value,found,rfl⟩,rest⟩

section
variable (total : ∀ key ∈ keys, ∃ value, f key = .ok value)
include total

theorem fillFrom_total (book : Book K V) : ∃ filled, fillFrom f book keys = .ok filled := by
  induction keys generalizing book with
  | nil => exact ⟨book,rfl⟩
  | cons first rest ih =>
    obtain ⟨value,found⟩ := total first mem_cons_self
    obtain ⟨filled,done⟩ := ih (fun key member => total key (mem_cons_of_mem _ member)) (book.insert first value)
    exact ⟨filled,fillFrom_cons_eq_ok.mpr ⟨value,found,done⟩⟩

theorem fill_total : ∃ filled, fill keys f = .ok filled :=
  fillFrom_total total ∅

end

variable [Std.LawfulEqOrd K]

theorem get_fillFrom {book : Book K V} (done : fillFrom f book keys = .ok filled) (key : K) :
    (key ∈ keys → ∃ value, f key = .ok value ∧ filled[key]? = some value) ∧
      (key ∉ keys → filled[key]? = book[key]?) := by
  induction keys generalizing book with
  | nil =>
    obtain rfl : book = filled := pure_eq_ok.mp done
    simp
  | cons first rest ih =>
    obtain ⟨value,found,continued⟩ := fillFrom_cons_eq_ok.mp done
    obtain ⟨inside,outside⟩ := ih continued
    constructor
    · intro member
      by_cases later : key ∈ rest
      · exact inside later
      · obtain rfl : key = first := (mem_cons.mp member).resolve_right later
        exact ⟨value,found,(outside later).trans (by simp)⟩
    · intro absent
      obtain ⟨other,later⟩ := not_or.mp (fun member => absent (mem_cons.mpr member))
      classical
      rw [outside later,get_insert,if_neg (Ne.symm other)]

theorem get_fill (done : fill keys f = .ok filled) {key : K} (member : key ∈ keys) :
    ∃ value, f key = .ok value ∧ filled[key]? = some value :=
  (get_fillFrom done key).1 member

end Book
end Library
