/-
  What a machine can be led to.

  `Leads R P Q` — from every state with `P`, some steps of `R` lead to a state with `Q`.  It is the weakest promise of
  progress: nothing is said of the steps that a scheduler, or a network, will really take, but there is no state
  with `P` from which `Q` is lost for good.

  `Leads.of_measure` is the rule for what takes many rounds, of which it is not known how many: when every round
  ends with less to do, and where another can start, the rounds end.
-/
import Mathlib.Logic.Relation

namespace ConnClient.Lib

open Relation

variable {σ : Type*} {R : σ → σ → Prop} {P Q : σ → Prop}

/-- From `P`, some steps lead to `Q`. -/
def Leads (R : σ → σ → Prop) (P Q : σ → Prop) : Prop := ∀ s, P s → ∃ t, ReflTransGen R s t ∧ Q t

/-- **The rule for rounds.**  Strong induction on the measure. -/
theorem Leads.of_measure (μ : σ → Nat) (h : ∀ s, P s → Q s ∨ ∃ t, ReflTransGen R s t ∧ P t ∧ μ t < μ s) :
    Leads R P Q := by
  intro s
  induction hn : μ s using Nat.strongRecOn generalizing s with
  | ind n ih =>
    intro hs
    rcases h s hs with hdone | ⟨t, hst, ht, hlt⟩
    · exact ⟨s, .refl, hdone⟩
    · obtain ⟨u, htu, hu⟩ := ih (μ t) (hn ▸ hlt) t rfl ht
      exact ⟨u, hst.trans htu, hu⟩

end ConnClient.Lib
