/-
  StealthNet.Lib.Except
  ─────────────────────
  WHAT A SUCCESSFUL COMPUTATION DID.

  Inversion of `>>=`, `map`, `mapM` and `toOption` in `Except`: a result `.ok`
  was reached through results `.ok`.
-/
import Mathlib.Data.List.Forall2

namespace Lib.Except

variable {ε α β : Type}

theorem bind_eq_ok_iff {x : Except ε α} {f : α → Except ε β} {b : β} :
    x >>= f = .ok b ↔ ∃ a, x = .ok a ∧ f a = .ok b := by
  cases x with
  | error e => simp [bind, Except.bind]
  | ok a => simp [bind, Except.bind]

theorem map_eq_ok_iff {x : Except ε α} {f : α → β} {b : β} :
    x.map f = .ok b ↔ ∃ a, x = .ok a ∧ f a = b := by
  cases x with
  | error e => simp [Except.map]
  | ok a => simp [Except.map]

theorem toOption_eq_some_iff {x : Except ε α} {a : α} : x.toOption = some a ↔ x = .ok a := by
  cases x <;> simp [Except.toOption]

/-- The results of a successful pass over a list, element by element. -/
theorem mapM_eq_ok_iff {f : α → Except ε β} {l : List α} {r : List β} :
    l.mapM f = .ok r ↔ List.Forall₂ (fun x y => f x = .ok y) l r := by
  induction l generalizing r with
  | nil =>
      rw [List.mapM_nil, List.forall₂_nil_left_iff]
      exact ⟨fun h => (Except.ok.inj h).symm, fun h => h ▸ rfl⟩
  | cons x l ih =>
      rw [List.mapM_cons, bind_eq_ok_iff, List.forall₂_cons_left_iff]
      constructor
      · rintro ⟨y, hy, h⟩
        obtain ⟨r', hr', h⟩ := bind_eq_ok_iff.mp h
        exact ⟨y, r', hy, ih.mp hr', (Except.ok.inj h).symm⟩
      · rintro ⟨y, r', hy, hr', rfl⟩
        exact ⟨y, hy, bind_eq_ok_iff.mpr ⟨r', ih.mpr hr', rfl⟩⟩

/-- A pass over a list succeeds if every element does. -/
theorem mapM_eq_ok_iff_filterMap {f : α → Except ε β} {l : List α} {r : List β} :
    l.mapM f = .ok r ↔
      (∀ x ∈ l, ∃ y, f x = .ok y) ∧ r = l.filterMap fun x => (f x).toOption := by
  rw [mapM_eq_ok_iff]
  induction l generalizing r with
  | nil => simp
  | cons x l ih =>
      rw [List.forall₂_cons_left_iff, List.filterMap_cons]
      constructor
      · rintro ⟨y, r', hy, hr', rfl⟩
        obtain ⟨hall, rfl⟩ := ih.mp hr'
        refine ⟨fun z hz => ?_, by rw [hy]; rfl⟩
        rcases List.mem_cons.mp hz with rfl | hz
        · exact ⟨y, hy⟩
        · exact hall z hz
      · rintro ⟨hall, rfl⟩
        obtain ⟨y, hy⟩ := hall x List.mem_cons_self
        refine ⟨y, _, hy, ih.mpr ⟨fun z hz => hall z (List.mem_cons_of_mem _ hz), rfl⟩, ?_⟩
        rw [hy]
        rfl

end Lib.Except
