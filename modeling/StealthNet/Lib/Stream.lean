/-
  StealthNet.Lib.Stream
  ─────────────────────
  THE FIRST ELEMENT THAT DECIDES, AND INSERTED ELEMENTS.

  A loop that reads a stream until an element decides is `List.findSome?`.
  Here: which element that is (`FirstAt`), and what becomes of the decision
  when elements are inserted into the stream.  A stream with insertions is a
  list of marked elements, the mark telling the inserted ones.

    • `findSome?_eq_some_iff_firstAt` — the decision is the first decider's;
    • `findSome?_all_of_not_spoiled`  — insertions that do not come before the
                                        first decider change nothing;
    • `findSome?_all_of_spoiled`      — one that does decides instead.
-/
import Mathlib.Init

namespace Lib.Stream

variable {α β : Type}

/-! ## §1. The first decider. -/

/-- The first element of the list with a property. -/
def FirstAt (P : α → Prop) (l : List α) (x : α) : Prop :=
  ∃ pre post, l = pre ++ x :: post ∧ P x ∧ ∀ y ∈ pre, ¬ P y

theorem FirstAt.unique {P : α → Prop} {l : List α} {x y : α} (hx : FirstAt P l x)
    (hy : FirstAt P l y) : x = y := by
  obtain ⟨pre, post, rfl, hPx, hpre⟩ := hx
  obtain ⟨pre', post', heq, hPy, hpre'⟩ := hy
  -- one of the two comes first, unless they are one
  rcases List.append_eq_append_iff.mp heq with ⟨mid, rfl, h⟩ | ⟨mid, rfl, h⟩
  · cases mid with
    | nil => exact (List.cons.inj h).1
    | cons z mid =>
        obtain ⟨rfl, -⟩ := List.cons.inj h
        exact absurd hPx (hpre' x (by simp))
  · cases mid with
    | nil => exact (List.cons.inj h).1.symm
    | cons z mid =>
        obtain ⟨rfl, -⟩ := List.cons.inj h
        exact absurd hPy (hpre y (by simp))

theorem findSome?_eq_some_iff_firstAt {f : α → Option β} {l : List α} {b : β} :
    l.findSome? f = some b ↔ ∃ x, FirstAt (fun x => (f x).isSome = true) l x ∧ f x = some b := by
  rw [List.findSome?_eq_some_iff]
  constructor
  · rintro ⟨pre, x, post, rfl, hx, hpre⟩
    refine ⟨x, ⟨pre, post, rfl, by simp [hx], fun y hy => by simp [hpre y hy]⟩, hx⟩
  · rintro ⟨x, ⟨pre, post, rfl, -, hpre⟩, hx⟩
    exact ⟨pre, x, post, rfl, hx, fun y hy => by simpa using hpre y hy⟩

/-! ## §2. Insertions. -/

/-- The elements that were not inserted. -/
def original (m : List (α × Bool)) : List α :=
  m.filterMap fun x => if x.2 then none else some x.1

/-- All elements. -/
def all (m : List (α × Bool)) : List α := m.map Prod.fst

/-- A bad element was inserted before every original decider. -/
def Spoiled (bad decides : α → Prop) (m : List (α × Bool)) : Prop :=
  ∃ pre x post, m = pre ++ (x, true) :: post ∧ bad x ∧ ∀ y, (y, false) ∈ pre → ¬ decides y

section

variable {bad decides : α → Prop} {m : List (α × Bool)} {x : α}

@[simp] theorem original_nil : original ([] : List (α × Bool)) = [] := rfl

@[simp] theorem original_cons_inserted : original ((x, true) :: m) = original m := rfl

@[simp] theorem original_cons_kept : original ((x, false) :: m) = x :: original m := rfl

@[simp] theorem all_nil : all ([] : List (α × Bool)) = [] := rfl

@[simp] theorem all_cons (b : Bool) : all ((x, b) :: m) = x :: all m := rfl

@[simp] theorem not_spoiled_nil : ¬ Spoiled bad decides [] := by
  rintro ⟨pre, x, post, h, -⟩
  simp at h

theorem spoiled_cons_inserted :
    Spoiled bad decides ((x, true) :: m) ↔ bad x ∨ Spoiled bad decides m := by
  constructor
  · rintro ⟨pre, y, post, h, hy, hpre⟩
    cases pre with
    | nil =>
        obtain ⟨hxy, -⟩ := List.cons.inj h
        exact Or.inl ((Prod.mk.inj hxy).1 ▸ hy)
    | cons z pre =>
        obtain ⟨-, rfl⟩ := List.cons.inj h
        exact Or.inr ⟨pre, y, post, rfl, hy, fun w hw => hpre w (List.mem_cons_of_mem _ hw)⟩
  · rintro (hx | ⟨pre, y, post, rfl, hy, hpre⟩)
    · exact ⟨[], x, m, rfl, hx, by simp⟩
    · refine ⟨(x, true) :: pre, y, post, rfl, hy, fun w hw => hpre w ?_⟩
      simpa using hw

theorem spoiled_cons_kept :
    Spoiled bad decides ((x, false) :: m) ↔ ¬ decides x ∧ Spoiled bad decides m := by
  constructor
  · rintro ⟨pre, y, post, h, hy, hpre⟩
    cases pre with
    | nil => simp at h
    | cons z pre =>
        obtain ⟨rfl, rfl⟩ := List.cons.inj h
        exact ⟨hpre x (by simp), pre, y, post, rfl, hy,
          fun w hw => hpre w (List.mem_cons_of_mem _ hw)⟩
  · rintro ⟨hx, pre, y, post, rfl, hy, hpre⟩
    refine ⟨(x, false) :: pre, y, post, rfl, hy, fun w hw => ?_⟩
    rcases List.mem_cons.mp hw with hw | hw
    · obtain rfl := (Prod.mk.inj hw).1
      exact hx
    · exact hpre w hw

end

section

variable {f : α → Option β} {bad : α → Prop} {m : List (α × Bool)}

/-- Insertions that decide nothing, or come after the first decider. -/
theorem findSome?_all_of_not_spoiled (bad : α → Prop) (hm : ∀ x, (x, true) ∈ m → ¬ bad x → f x = none)
    (h : ¬ Spoiled bad (fun x => (f x).isSome = true) m) :
    (all m).findSome? f = (original m).findSome? f := by
  induction m with
  | nil => rfl
  | cons z m ih =>
      obtain ⟨x, b⟩ := z
      have ih := ih fun y hy => hm y (List.mem_cons_of_mem _ hy)
      cases b with
      | true =>
          -- the inserted element is not bad, so it decides nothing
          rw [spoiled_cons_inserted, not_or] at h
          rw [all_cons, original_cons_inserted, List.findSome?_cons, hm x (by simp) h.1]
          exact ih h.2
      | false =>
          -- the loop ends here, or nothing is spoiled from here on
          rw [spoiled_cons_kept, not_and] at h
          rw [all_cons, original_cons_kept, List.findSome?_cons, List.findSome?_cons]
          cases hf : f x with
          | some b => rfl
          | none => exact ih (h (by simp [hf]))

/-- A bad insertion before the first decider decides. -/
theorem findSome?_all_of_spoiled (bad : α → Prop) (hm : ∀ x, (x, true) ∈ m → ¬ bad x → f x = none)
    (hbad : ∀ x, bad x → (f x).isSome = true)
    (h : Spoiled bad (fun x => (f x).isSome = true) m) :
    ∃ x, bad x ∧ (all m).findSome? f = f x := by
  induction m with
  | nil => exact absurd h not_spoiled_nil
  | cons z m ih =>
      obtain ⟨x, b⟩ := z
      have ih := ih fun y hy => hm y (List.mem_cons_of_mem _ hy)
      rw [all_cons, List.findSome?_cons]
      cases b with
      | true =>
          by_cases hx : bad x
          · obtain ⟨b, hb⟩ := Option.isSome_iff_exists.mp (hbad x hx)
            exact ⟨x, hx, by rw [hb]⟩
          · rw [hm x (by simp) hx]
            exact ih ((spoiled_cons_inserted.mp h).resolve_left hx)
      | false =>
          obtain ⟨hx, h⟩ := spoiled_cons_kept.mp h
          rw [Option.not_isSome_iff_eq_none.mp hx]
          exact ih h

end

end Lib.Stream
