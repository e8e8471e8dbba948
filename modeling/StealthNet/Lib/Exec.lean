/-
  StealthNet.Lib.Exec
  ───────────────────
  RUNS OF A LABELLED TRANSITION SYSTEM.

  `Exec step s₀ tr s` says that performing the labels of `tr` in order leads
  from `s₀` to `s`.  The trace grows at its end, so "earlier" in a run is
  "in the part of the trace before".  The rules a development needs:

    • `Exec.append`, `Exec.split` — cut a run at any label;
    • `Exec.deterministic`        — where steps lead to one state, runs do;
    • `Exec.invariant`            — what every step preserves holds throughout;
    • `Exec.history`              — the same for facts about trace AND state;
    • `Exec.stable`               — facts that no step undoes;
    • `Exec.balance`, `potential` — a potential that pays for each step bounds
                                    the cost of a whole run.
-/
import Mathlib.Data.List.Induction
import Mathlib.Algebra.BigOperators.Group.List.Basic
import Mathlib.Algebra.GroupWithZero.Nat

namespace Lib

variable {σ ε : Type*} {step : σ → ε → σ → Prop}

/-- Performing the labels of a trace in order leads from `s₀` to `s`. -/
inductive Exec (step : σ → ε → σ → Prop) (s₀ : σ) : List ε → σ → Prop
  | refl : Exec step s₀ [] s₀
  | snoc {tr : List ε} {s : σ} {e : ε} {s' : σ} :
      Exec step s₀ tr s → step s e s' → Exec step s₀ (tr ++ [e]) s'

namespace Exec

/-! ## §1. Composing and cutting runs. -/

theorem single {s s' : σ} {e : ε} (h : step s e s') : Exec step s [e] s' :=
  snoc refl h

theorem append {s₀ s₁ s₂ : σ} {tr₁ tr₂ : List ε}
    (h₁ : Exec step s₀ tr₁ s₁) (h₂ : Exec step s₁ tr₂ s₂) :
    Exec step s₀ (tr₁ ++ tr₂) s₂ := by
  -- on the second run, since traces grow at their end
  induction h₂ with
  | refl => simpa using h₁
  | snoc _ hs ih =>
      rw [← List.append_assoc]
      exact snoc ih hs

theorem nil_inv {s₀ s : σ} (h : Exec step s₀ [] s) : s = s₀ := by
  generalize hall : ([] : List ε) = all at h
  cases h with
  | refl => rfl
  | snoc => simp at hall

/-- The last label of a run is a step from where the rest of it ends. -/
theorem snoc_inv {s₀ s' : σ} {tr : List ε} {e : ε}
    (h : Exec step s₀ (tr ++ [e]) s') : ∃ s, Exec step s₀ tr s ∧ step s e s' := by
  generalize hall : tr ++ [e] = all at h
  cases h with
  | refl => simp at hall
  | snoc hrun hs =>
      obtain ⟨rfl, rfl⟩ := List.append_singleton_inj.mp hall
      exact ⟨_, hrun, hs⟩

/-- A run over `tr₁ ++ tr₂` passes through a state between the two parts. -/
theorem split {s₀ s : σ} {tr₁ tr₂ : List ε} (h : Exec step s₀ (tr₁ ++ tr₂) s) :
    ∃ s₁, Exec step s₀ tr₁ s₁ ∧ Exec step s₁ tr₂ s := by
  -- on the second part, from its last label
  induction tr₂ using List.reverseRecOn generalizing s with
  | nil => exact ⟨s, by simpa using h, refl⟩
  | append_singleton tr₂ e ih =>
      rw [← List.append_assoc] at h
      obtain ⟨s', hrun, hs⟩ := snoc_inv h
      obtain ⟨s₁, h₁, h₂⟩ := ih hrun
      exact ⟨s₁, h₁, snoc h₂ hs⟩

/-- Cut a run at one of its labels. -/
theorem split_cons {s₀ s : σ} {pre post : List ε} {e : ε}
    (h : Exec step s₀ (pre ++ e :: post) s) :
    ∃ s₁ s₂, Exec step s₀ pre s₁ ∧ step s₁ e s₂ ∧ Exec step s₂ post s := by
  obtain ⟨s₁, h₁, h₂⟩ := split h
  have h₂ : Exec step s₁ (([] ++ [e]) ++ post) s := h₂
  obtain ⟨s₂, he, hpost⟩ := split h₂
  obtain ⟨s₁', hnil, hs⟩ := snoc_inv he
  obtain rfl := nil_inv hnil
  exact ⟨_, s₂, h₁, hs, hpost⟩

/-- Where a label leads to one state only, so does a trace. -/
theorem deterministic (hstep : ∀ s e s₁ s₂, step s e s₁ → step s e s₂ → s₁ = s₂) {s₀ s s' : σ}
    {tr : List ε} (h : Exec step s₀ tr s) (h' : Exec step s₀ tr s') : s = s' := by
  induction h generalizing s' with
  | refl => exact (nil_inv h').symm
  | snoc _ hs ih =>
      obtain ⟨t, ht, hs'⟩ := snoc_inv h'
      obtain rfl := ih ht
      exact hstep _ _ _ _ hs hs'

/-! ## §2. Invariants. -/

/-- What holds at the start and is preserved by every step holds at the end. -/
theorem invariant {I : σ → Prop} {s₀ s : σ} {tr : List ε}
    (h : Exec step s₀ tr s) (h₀ : I s₀)
    (hstep : ∀ s e s', I s → step s e s' → I s') : I s := by
  induction h with
  | refl => exact h₀
  | snoc _ hs ih => exact hstep _ _ _ ih hs

/-- An invariant of the trace together with the state it leads to. -/
theorem history {I : List ε → σ → Prop} {s₀ s : σ} {tr : List ε}
    (h : Exec step s₀ tr s) (h₀ : I [] s₀)
    (hstep : ∀ tr s e s', Exec step s₀ tr s → I tr s → step s e s' →
      I (tr ++ [e]) s') : I tr s := by
  induction h with
  | refl => exact h₀
  | snoc hr hs ih => exact hstep _ _ _ _ hr ih hs

/-- A fact that no step undoes still holds later. -/
theorem stable {P : σ → Prop} {s s' : σ} {tr : List ε}
    (h : Exec step s tr s') (hP : P s)
    (hstep : ∀ s e s', step s e s' → P s → P s') : P s' :=
  h.invariant hP (fun s e s' hs he => hstep s e s' he hs)

/-- If every step pays its cost out of the potential and of what it gains,
the potential of the start and the gains bound the cost of the whole run. -/
theorem balance {s₀ s : σ} {tr : List ε} (h : Exec step s₀ tr s) (Φ : σ → Nat)
    (cost gain : ε → Nat)
    (hstep : ∀ s e s', step s e s' → e ∈ tr → cost e + Φ s' ≤ Φ s + gain e) :
    (tr.map cost).sum + Φ s ≤ Φ s₀ + (tr.map gain).sum := by
  induction h with
  | refl => simp
  | @snoc tr s e s' _ hs ih =>
      -- the last step pays for itself, the steps before it by induction
      have hlast := hstep s e s' hs (by simp)
      have hrest := ih (fun s e s' hs he => hstep s e s' hs (by simp [he]))
      simp only [List.map_append, List.map_cons, List.map_nil, List.sum_append,
        List.sum_cons, List.sum_nil]
      omega

/-- Without gains, the potential of the start bounds the cost. -/
theorem potential {s₀ s : σ} {tr : List ε} (h : Exec step s₀ tr s) (Φ : σ → Nat)
    (cost : ε → Nat)
    (hstep : ∀ s e s', step s e s' → e ∈ tr → cost e + Φ s' ≤ Φ s) :
    (tr.map cost).sum + Φ s ≤ Φ s₀ := by
  have hbal := h.balance Φ cost (fun _ => 0) fun s e s' hs he => hstep s e s' hs he
  simpa using hbal

end Exec

end Lib
