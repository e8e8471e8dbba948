/-
  StealthNet.Lib.Walk
  ───────────────────
  FOLLOWING A PARTIAL NEXT-STEP FUNCTION.

  `walk next k a` is where `k` steps from `a` lead, if they lead anywhere;
  `FirstArrival next a d k` says that they first lead to `d` after `k` steps,
  the start not counted.  An arrival is one step, or a step elsewhere and an
  arrival from there (`firstArrival_succ`), which is the shape of inductions
  along a path.  It takes no more steps than there are elements
  (`FirstArrival.le_card`).
-/
import Mathlib.Data.Fintype.Card

namespace Lib

variable {α : Type}

/-- Follow `next` a given number of times. -/
def walk (next : α → Option α) : Nat → α → Option α
  | 0, a => some a
  | k + 1, a => (next a).bind (walk next k)

/-- From `a`, following `next` first leads to `d` after `k` steps. -/
structure FirstArrival (next : α → Option α) (a d : α) (k : Nat) : Prop where
  pos : 1 ≤ k
  arrives : walk next k a = some d
  first : ∀ j, 1 ≤ j → j < k → walk next j a ≠ some d

variable {next : α → Option α} {a b d : α} {k k' : Nat}

theorem walk_succ (h : next a = some b) (k : Nat) : walk next (k + 1) a = walk next k b := by
  simp [walk, h]

/-- The last step instead of the first. -/
theorem walk_succ_right (k : Nat) (a : α) : walk next (k + 1) a = (walk next k a).bind next := by
  induction k generalizing a with
  | zero => simp [walk]
  | succ k ih =>
      cases h : next a with
      | none => simp [walk, h]
      | some b => rw [walk_succ h, walk_succ h, ih]

/-- An arrival takes a first step. -/
theorem FirstArrival.exists_next (h : FirstArrival next a d k) : ∃ b, next a = some b := by
  obtain ⟨k, rfl⟩ := Nat.exists_eq_add_of_le' h.pos
  have harr := h.arrives
  cases hb : next a with
  | none => simp [walk, hb] at harr
  | some b => exact ⟨b, rfl⟩

theorem FirstArrival.unique (h : FirstArrival next a d k) (h' : FirstArrival next a d k') :
    k = k' := by
  rcases Nat.lt_trichotomy k k' with hlt | heq | hlt
  · exact absurd h.arrives (h'.first k h.pos hlt)
  · exact heq
  · exact absurd h'.arrives (h.first k' h'.pos hlt)

theorem firstArrival_one : FirstArrival next a d 1 ↔ next a = some d := by
  have hwalk : walk next 1 a = next a := by simp [walk]
  constructor
  · exact fun h => hwalk ▸ h.arrives
  · exact fun h => ⟨Nat.le_refl 1, hwalk.trans h, fun j h1 h2 => by omega⟩

theorem firstArrival_succ :
    FirstArrival next a d (k + 2)
      ↔ ∃ b, next a = some b ∧ b ≠ d ∧ FirstArrival next b d (k + 1) := by
  constructor
  · intro h
    cases hb : next a with
    | none => simpa [walk, hb] using h.arrives
    | some b =>
        -- the first step does not arrive yet
        have h1 := h.first 1 (Nat.le_refl 1) (by omega)
        rw [walk_succ hb] at h1
        refine ⟨b, rfl, fun hbd => h1 (by rw [hbd]; rfl), by omega, ?_, ?_⟩
        · rw [← walk_succ hb]
          exact h.arrives
        · intro j hj hjk
          rw [← walk_succ hb]
          exact h.first (j + 1) (by omega) (by omega)
  · rintro ⟨b, hb, hbd, h⟩
    refine ⟨by omega, by rw [walk_succ hb]; exact h.arrives, ?_⟩
    intro j hj hjk
    obtain ⟨j, rfl⟩ := Nat.exists_eq_add_of_le' hj
    rw [walk_succ hb]
    cases j with
    | zero => exact fun h0 => hbd (Option.some.inj h0)
    | succ j => exact h.first (j + 1) (by omega) (by omega)

/-! ## Bounds. -/

/-- Before it arrives, a walk is on its way. -/
theorem FirstArrival.rest (h : FirstArrival next a d k) {i : Nat} (hi : i < k) :
    ∃ b, walk next i a = some b ∧ FirstArrival next b d (k - i) := by
  induction i generalizing a k with
  | zero => exact ⟨a, rfl, h⟩
  | succ i ih =>
      obtain ⟨k, rfl⟩ : ∃ k', k = k' + 2 := ⟨k - 2, by omega⟩
      obtain ⟨b, hb, -, hrest⟩ := firstArrival_succ.mp h
      obtain ⟨c, hc, hlast⟩ := ih hrest (by omega)
      refine ⟨c, by rw [walk_succ hb]; exact hc, ?_⟩
      rw [show k + 2 - (i + 1) = k + 1 - i by omega]
      exact hlast

/-- A walk passes through no element twice before it arrives, since from there
it would arrive at two times. -/
theorem FirstArrival.le_card [Fintype α] (h : FirstArrival next a d k) : k ≤ Fintype.card α := by
  let stop : Fin k → α := fun i => (h.rest i.isLt).choose
  have hstop : ∀ i : Fin k, FirstArrival next (stop i) d (k - i) :=
    fun i => (h.rest i.isLt).choose_spec.2
  have hinj : Function.Injective stop := by
    intro i j heq
    have hi := hstop i
    rw [heq] at hi
    have hsame := hi.unique (hstop j)
    omega
  have hcard := Fintype.card_le_of_injective stop hinj
  rwa [Fintype.card_fin] at hcard

/-- A walk that ends at `d` first arrived there at some time. -/
theorem exists_firstArrival (hpos : 1 ≤ k) (hwalk : walk next k a = some d) :
    ∃ k', FirstArrival next a d k' := by
  induction k using Nat.strong_induction_on with
  | _ k ih =>
      by_cases hearlier : ∃ j, 1 ≤ j ∧ j < k ∧ walk next j a = some d
      · obtain ⟨j, hj, hlt, hj'⟩ := hearlier
        exact ih j hlt hj hj'
      · exact ⟨k, hpos, hwalk, fun j hj hlt hj' => hearlier ⟨j, hj, hlt, hj'⟩⟩

end Lib
