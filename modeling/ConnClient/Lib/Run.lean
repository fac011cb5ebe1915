/-
  Runs of a machine whose steps may stop.

  A machine is a step function `step : ι → σ → Except ε σ`: input `i` takes state `s` to the next
  one, or stops with a reason.  Three things are needed of such machines again and again, and are
  provided here once:

  * `exec` — the run over a list of inputs (executable), and `Reach` — the states that runs get to
    when every step meets a side condition `C s i`; `Reach.inv` is the invariant rule;
  * `bind_eq_ok` — how a sequence of stopping computations succeeds; and `Ends`, what is known of a
    result whether it returns or stops;
  * `unroll` — a recursive procedure, given as a `body` that receives its own recursive call, run
    with a bounded call depth.  `unroll_rule` proves what every run satisfies, `unroll_ok` what every
    successful one does, `unroll_returns` that a measure which falls at every recursive call bounds
    the depth, and `unroll_deep` that a call which always leads to another one like it exhausts any
    depth.
-/
import Mathlib

namespace ConnClient.Lib

universe u

/-! ## Sequencing -/

/-- A sequence succeeds exactly when both parts do. -/
theorem bind_eq_ok {ε α β : Type u} {x : Except ε α} {f : α → Except ε β} {b : β} :
    (x >>= f) = .ok b ↔ ∃ a, x = .ok a ∧ f a = .ok b := by
  constructor
  · intro h
    cases x with
    | ok a => exact ⟨a, rfl, h⟩
    | error e => nomatch h
  · rintro ⟨a, rfl, h⟩
    exact h

/-- What is known of a result: `Q` of the value it returns, `E` of the reason it stops with. -/
inductive Ends {ε α : Type u} (Q : α → Prop) (E : ε → Prop) : Except ε α → Prop where
  | returned {a : α} (h : Q a) : Ends Q E (.ok a)
  | stopped {e : ε} (h : E e) : Ends Q E (.error e)

/-- **The rule for sequences.** -/
theorem Ends.bind {ε α β : Type u} {Q : α → Prop} {Q' : β → Prop} {E : ε → Prop}
    {x : Except ε α} {f : α → Except ε β} (hx : Ends Q E x) (hf : ∀ a, Q a → Ends Q' E (f a)) :
    Ends Q' E (x >>= f) := by
  cases hx with
  | returned h => exact hf _ h
  | stopped h => exact .stopped h

/-- **The rule of consequence.** -/
theorem Ends.imp {ε α : Type u} {Q Q' : α → Prop} {E E' : ε → Prop} {x : Except ε α}
    (hx : Ends Q E x) (hQ : ∀ a, Q a → Q' a) (hE : ∀ e, E e → E' e) : Ends Q' E' x := by
  cases hx with
  | returned h => exact .returned (hQ _ h)
  | stopped h => exact .stopped (hE _ h)

/-! ## Runs -/

section Runs

variable {σ ι ε : Type u} (step : ι → σ → Except ε σ)

/-- The run over a list of inputs, stopping where a step stops or where `c` refuses an input. -/
def exec (c : σ → ι → Bool) : List ι → σ → Option σ
  | [], s => some s
  | i :: is, s =>
    if c s i then
      match step i s with
      | .ok s' => exec c is s'
      | .error _ => none
    else none

/-- `Reach step init C s` — some run from an initial state gets to `s`, every step of it taken
    with an input `i` in a state `t` such that `C t i`. -/
inductive Reach (init : σ → Prop) (C : σ → ι → Prop) : σ → Prop where
  | start {s : σ} (h : init s) : Reach init C s
  | step {s s' : σ} {i : ι} (hr : Reach init C s) (hc : C s i) (hs : step i s = .ok s') :
      Reach init C s'

variable {step} {init : σ → Prop} {C : σ → ι → Prop}

/-- **The invariant rule**: what holds initially and is kept by every step holds throughout. -/
theorem Reach.inv {I : σ → Prop} (h0 : ∀ s, init s → I s)
    (hstep : ∀ s s' i, Reach step init C s → I s → C s i → step i s = .ok s' → I s') {s : σ}
    (h : Reach step init C s) : I s := by
  induction h with
  | start h => exact h0 _ h
  | step hr hc hs ih => exact hstep _ _ _ hr ih hc hs

/-- Weakening the side condition keeps every run. -/
theorem Reach.mono {C' : σ → ι → Prop} (hC : ∀ s i, C s i → C' s i) {s : σ}
    (h : Reach step init C s) : Reach step init C' s := by
  induction h with
  | start h => exact .start h
  | step _ hc hs ih => exact .step ih (hC _ _ hc) hs

/-- What is left of a run when only `f` of its states is looked at. -/
theorem Reach.map {τ : Type u} {step' : ι → τ → Except ε τ} {init' : τ → Prop} {C' : τ → ι → Prop}
    (f : σ → τ) (h0 : ∀ s, init s → init' (f s))
    (hstep : ∀ s s' i, C s i → step i s = .ok s' → C' (f s) i ∧ step' i (f s) = .ok (f s')) {s : σ}
    (h : Reach step init C s) : Reach step' init' C' (f s) := by
  induction h with
  | start h => exact .start (h0 _ h)
  | step _ hc hs ih =>
    obtain ⟨hc', hs'⟩ := hstep _ _ _ hc hs
    exact .step ih hc' hs'

/-- An executed run is a run.  Induction on its inputs. -/
theorem Reach.of_exec {c : σ → ι → Bool} (hC : ∀ s i, c s i = true → C s i) :
    ∀ (is : List ι) {s s' : σ}, Reach step init C s → exec step c is s = some s' →
      Reach step init C s'
  | [], s, s', hr, h => by cases h; exact hr
  | i :: is, s, s', hr, h => by
    rw [exec] at h
    by_cases hc : c s i = true
    · rw [if_pos hc] at h
      split at h
      · rename_i t ht
        exact Reach.of_exec hC is (.step hr (hC _ _ hc) ht) h
      · nomatch h
    · rw [if_neg hc] at h
      nomatch h

end Runs

/-! ## Bounded recursion -/

section Unroll

variable {α β ε : Type u} (out : α → ε) (body : (α → Except ε β) → α → Except ε β)

/-- The recursive procedure with body `body`, allowed `n` nested calls; `out` reports the argument
    of the call that was one too many. -/
def unroll : Nat → α → Except ε β
  | 0, a => .error (out a)
  | n + 1, a => body (unroll n) a

variable {out} {body}

/-- What the body guarantees of its result, assuming it of the recursive calls' results, every run
    guarantees. -/
theorem unroll_rule {R : α → Except ε β → Prop} (h0 : ∀ a, R a (.error (out a)))
    (h : ∀ f, (∀ a, R a (f a)) → ∀ a, R a (body f a)) : ∀ n a, R a (unroll out body n a)
  | 0, a => h0 a
  | n + 1, a => h (unroll out body n) (unroll_rule h0 h n) a

/-- The same for successful runs. -/
theorem unroll_ok {S : α → β → Prop}
    (h : ∀ f, (∀ a b, f a = .ok b → S a b) → ∀ a b, body f a = .ok b → S a b) :
    ∀ n a b, unroll out body n a = .ok b → S a b :=
  unroll_rule (R := fun a r => ∀ b, r = .ok b → S a b) (fun _ _ hab => nomatch hab) h

/-- **Termination by a measure.**  `Good` says that a result is not the depth running out.  If on
    arguments satisfying `P` the body's result is good as soon as the calls at smaller arguments
    satisfying `P` are, then `μ a + 1` nested calls are enough at `a`. -/
theorem unroll_returns {P : α → Prop} {μ : α → Nat} {Good : Except ε β → Prop}
    (h : ∀ f a, P a → (∀ b, P b → μ b < μ a → Good (f b)) → Good (body f a)) :
    ∀ n a, P a → μ a < n → Good (unroll out body n a)
  | 0, _, _, hn => absurd hn (Nat.not_lt_zero _)
  | n + 1, a, ha, hn =>
    h (unroll out body n) a ha fun b hb hlt => unroll_returns h n b hb (by omega)

/-- **Divergence.**  If on arguments satisfying `Q` the body's result is bad as soon as the calls
    at arguments satisfying `Q` are, no depth is enough. -/
theorem unroll_deep {Q : α → Prop} {Bad : Except ε β → Prop} (h0 : ∀ a, Q a → Bad (.error (out a)))
    (h : ∀ f a, Q a → (∀ b, Q b → Bad (f b)) → Bad (body f a)) :
    ∀ n a, Q a → Bad (unroll out body n a) :=
  unroll_rule (R := fun a r => Q a → Bad r) h0 fun f hf a ha => h f a ha hf

end Unroll

end ConnClient.Lib
