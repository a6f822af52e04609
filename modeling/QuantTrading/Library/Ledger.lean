import Mathlib.Data.List.Count

/-! What becomes of the events given to a buffer: they are handled in turn, or dropped, the
oldest first or before they enter. Whoever brings an event holds it until it is in the buffer
or dropped.
-/
namespace Library
open List

/-- The events sent, those handled, those dropped with their count, and those in the buffer. -/
structure Ledger (E : Type) where
  (sent handled lost : List E)
  dropped : Nat
  buffer : List E

namespace Ledger
variable {E : Type}

def empty : Ledger E := ⟨[],[],[],0,[]⟩

inductive Step : Ledger E → List E → Ledger E → List E → Prop
  | idle (l held) : Step l held l held
  | take (l held e) : Step l held { l with sent := l.sent ++ [e] } (held ++ [e])
  | enqueue (l e held) : Step l (e :: held) { l with buffer := l.buffer ++ [e] } held
  | handle (l held e rest) (first : l.buffer = e :: rest) :
      Step l held { l with handled := l.handled ++ [e], buffer := rest } held
  | dropOldest (l held e rest) (first : l.buffer = e :: rest) :
      Step l held { l with lost := l.lost ++ [e], dropped := l.dropped + 1, buffer := rest } held
  | drop (l e held) : Step l (e :: held) { l with lost := l.lost ++ [e], dropped := l.dropped + 1 } held

variable (l : Ledger E)

def Accounted (held : List E) : Prop := (l.handled ++ l.lost ++ l.buffer ++ held).Perm l.sent

def InOrder (held : List E) : Prop := (l.handled ++ l.buffer ++ held).Sublist l.sent

def Counted : Prop := l.dropped = l.lost.length

variable {l l' : Ledger E} {held held' : List E}

theorem empty_accounted : (empty : Ledger E).Accounted [] := Perm.nil

theorem empty_inOrder : (empty : Ledger E).InOrder [] := Sublist.slnil

section
variable (step : Step l held l' held')
include step

theorem Step.accounted {before after : List E} (accounted : l.Accounted (before ++ held ++ after)) :
    l'.Accounted (before ++ held' ++ after) := by
  classical
  rw [Accounted,perm_iff_count] at accounted ⊢
  intro e
  have balance := accounted e
  cases step with
  | idle => exact balance
  | take =>
    simp only [count_append] at balance ⊢
    omega
  | enqueue _ _ | drop _ _ =>
    simp only [count_append,count_cons,count_nil] at balance ⊢
    omega
  | handle _ _ _ first | dropOldest _ _ _ first =>
    rw [first] at balance
    simp only [count_append,count_cons,count_nil] at balance ⊢
    omega

theorem Step.counted (counted : l.Counted) : l'.Counted := by
  rw [Counted] at counted ⊢
  cases step with
  | dropOldest | drop => simp [counted]
  | _ => exact counted

theorem Step.inOrder {before after : List E} (alone : before = [] ∧ after = [] ∨ held = [] ∧ held' = [])
    (ordered : l.InOrder (before ++ held ++ after)) : l'.InOrder (before ++ held' ++ after) := by
  rw [InOrder] at ordered ⊢
  cases step with
  | idle => exact ordered
  | take _ e =>
    obtain ⟨rfl,rfl⟩ | ⟨_,none_⟩ := alone
    · have extended := ordered.append_right [e]
      simpa using extended
    · simp at none_
  | enqueue =>
    obtain ⟨rfl,rfl⟩ | ⟨none_,_⟩ := alone
    · simpa using ordered
    · cases none_
  | handle _ e rest first =>
    rw [first] at ordered
    simpa using ordered
  | dropOldest _ e rest first =>
    rw [first] at ordered
    refine Sublist.trans ?_ ordered
    simp
  | drop =>
    obtain ⟨rfl,rfl⟩ | ⟨none_,_⟩ := alone
    · refine Sublist.trans ?_ ordered
      simp
    · cases none_

end

end Ledger
end Library
