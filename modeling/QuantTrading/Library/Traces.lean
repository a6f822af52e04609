import Mathlib.Data.List.Basic

/-! Traces of events, each of which has to be justified by the events before it, and traces whose
events belong to owners.
-/
namespace Library
open List

variable {E : Type} {trace : List E}

def Justified (J : List E → E → Prop) (trace : List E) : Prop :=
  ∀ before event after, trace = before ++ event :: after → J before event

namespace Justified
variable {J : List E → E → Prop}

theorem nil : Justified J [] := by
  intro before event after split
  simp at split

theorem concat {event : E} (justified : Justified J trace) (here : J trace event) : Justified J (trace ++ [event]) := by
  intro before other after split
  rcases eq_nil_or_concat after with rfl | ⟨middle,last,rfl⟩
  · obtain ⟨rfl,rest⟩ := append_inj' split rfl
    rw [← head_eq_of_cons_eq rest]
    exact here
  · have shorter : trace ++ [event] = (before ++ other :: middle) ++ [last] := by simpa using split
    exact justified before other middle (append_inj_left' shorter rfl)

theorem append (mono : ∀ {before more event}, J before event → J (before ++ more) event) {events : List E}
    (justified : Justified J trace) (all : ∀ event ∈ events, J trace event) : Justified J (trace ++ events) := by
  induction events generalizing trace with
  | nil => simpa using justified
  | cons event rest ih =>
    have here := all event (mem_cons_self ..)
    have later := ih (justified.concat here) fun other listed => mono (all other (mem_cons_of_mem _ listed))
    simpa using later

end Justified

theorem nodup_of_owners {I K : Type} [DecidableEq K] {owner : E → K} {number : E → I}
    (own : ∀ key, ((trace.filter (owner · = key)).map number).Nodup)
    (apart : ∀ a ∈ trace, ∀ b ∈ trace, number a = number b → owner a = owner b) : (trace.map number).Nodup := by
  induction trace with
  | nil => exact nodup_nil
  | cons event rest ih =>
    rw [map_cons,nodup_cons]
    constructor
    · intro repeated
      obtain ⟨other,member,same⟩ := mem_map.mp repeated
      have owners := apart other (mem_cons_of_mem _ member) event mem_cons_self same
      have alone := own (owner event)
      simp only [filter_cons,decide_true,if_true,map_cons,nodup_cons] at alone
      exact alone.1 (mem_map.mpr ⟨other,mem_filter.mpr ⟨member,decide_eq_true owners⟩,same⟩)
    · refine ih (fun key => ?_) fun a ha b hb => apart a (mem_cons_of_mem _ ha) b (mem_cons_of_mem _ hb)
      exact (own key).sublist (((sublist_cons_self event rest).filter _).map _)

end Library
