import Mathlib.Data.List.Sort
import Mathlib.Tactic.Linarith
import Mathlib.Tactic.Ring

/-! Counting loops, `for i := start; i < limit; i += step`, and the pieces that their rounds cut
out of a sorted list.
-/
namespace Library
open List

/-- The values that the loop visits, or none when its rounds run out. -/
def strides (limit step : Int) : Nat → Int → Option (List Int)
  | 0, _ => none
  | rounds + 1, i => if i < limit then (strides limit step rounds (i + step)).map (i :: ·) else some []

variable {limit step start : Int}

def Strided (limit step start : Int) (visited : List Int) : Prop :=
  ∀ k : Nat, visited[k]? = if start + k * step < limit then some (start + k * step) else none

theorem strides_strided {rounds : Nat} (positive : 0 < step) (enough : (limit - start).toNat < rounds) :
    ∃ visited, strides limit step rounds start = some visited ∧ Strided limit step start visited := by
  induction rounds generalizing start with
  | zero => omega
  | succ rounds ih =>
    by_cases inside : start < limit
    · have enough : (limit - (start + step)).toNat < rounds := by omega
      obtain ⟨rest,later,placed⟩ := ih enough
      refine ⟨start :: rest,by rw [strides,if_pos inside,later]; rfl,fun k => ?_⟩
      cases k with
      | zero => simp [inside]
      | succ k =>
        have shifted : start + step + k * step = start + (k + 1 : Nat) * step := by push_cast; ring
        rw [getElem?_cons_succ,placed,shifted]
    · refine ⟨[],if_neg inside,fun k => ?_⟩
      have ahead : 0 ≤ k * step := Int.mul_nonneg (Int.natCast_nonneg k) positive.le
      rw [if_neg (by omega)]
      rfl

theorem Strided.apart {visited : List Int} (placed : Strided limit step start visited) (positive : 0 < step) :
    visited.Pairwise fun i j => i + step ≤ j := by
  rw [pairwise_iff_getElem]
  intro a b ha hb before
  have at_ (k : Nat) (inside : k < visited.length) : visited[k] = start + k * step := by
    have found := placed k
    rw [getElem?_eq_getElem inside] at found
    split at found
    · exact Option.some.inj found
    · cases found
  have gap : ((a + 1 : Nat) : Int) * step ≤ b * step := Int.mul_le_mul_of_nonneg_right (by omega) positive.le
  rw [at_ a ha,at_ b hb]
  push_cast at gap
  linarith

/-- Rounds that look at later and later pieces of a sorted list put together the elements that
some round sees. -/
theorem flatMap_filter_eq_iff {A B : Type} {r : A → A → Prop} [Std.Asymm r] {xs : List A} (sorted : xs.Pairwise r)
    {rounds : List B} {sees : B → A → Bool} (ordered : rounds.Pairwise fun i j => ∀ x y, sees i x → sees j y → r x y)
    (wanted : A → Bool) : (rounds.flatMap fun i => xs.filter (sees i)) = xs.filter wanted ↔
      ∀ x ∈ xs, (∃ i ∈ rounds, sees i x = true) ↔ wanted x = true := by
  have members (x : A) : x ∈ (rounds.flatMap fun i => xs.filter (sees i)) ↔ x ∈ xs ∧ ∃ i ∈ rounds, sees i x = true := by
    simp only [mem_flatMap,mem_filter]
    tauto
  constructor
  · intro same x listed
    have both := members x
    rw [same,mem_filter] at both
    simpa only [listed,true_and] using both.symm
  · intro same
    refine Pairwise.eq_of_mem_iff (pairwise_flatMap.mpr ⟨fun i _ => sorted.filter _,?_⟩) (sorted.filter _) fun x => ?_
    · refine ordered.imp fun apart x seen y found => apart x y ?_ ?_
      · exact (mem_filter.mp seen).2
      · exact (mem_filter.mp found).2
    · rw [members,mem_filter]
      exact and_congr_right fun listed => same x listed

end Library
