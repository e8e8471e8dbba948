/-
  StealthNet.Lib.FirstMatch
  ─────────────────────────
  THE FIRST MATCH IN A RANKED LIST.

  A list is sorted once by descending rank, stably, and later searched for
  its first element that passes a test.  What the search finds is the
  `Preferred` element: of those that pass the test one of the highest rank,
  and of these the one listed first.

    • `find?_insertionSort_eq_some` — the search finds the preferred element;
    • `find?_insertionSort_eq_none` — it finds nothing where nothing passes;
    • `find?_insertionSort_perm`    — without ties the order of the list does
                                      not matter;
    • `find?_insertionSort_map`     — what neither test nor rank looks at does
                                      not matter;
    • `find?_eq_of_passes`          — two searches of one list that find
                                      elements of each other agree.
-/
import Mathlib.Data.List.Sort

namespace Lib

variable {α κ : Type} [LinearOrder κ]

/-- Higher ranks first. -/
abbrev Descending (rank : α → κ) (a b : α) : Prop := rank b ≤ rank a

/-- Of the elements that pass the test, `a` is the first one of the highest
rank. -/
def Preferred (p : α → Bool) (rank : α → κ) (l : List α) (a : α) : Prop :=
  ∃ pre post, l = pre ++ a :: post ∧ p a = true ∧
    (∀ b ∈ pre, p b = true → rank b < rank a) ∧ ∀ b ∈ post, p b = true → rank b ≤ rank a

namespace Preferred

variable {p : α → Bool} {rank : α → κ} {l : List α} {a b : α}

theorem mem (h : Preferred p rank l a) : a ∈ l := by
  obtain ⟨pre, post, rfl, -⟩ := h
  simp

theorem passes (h : Preferred p rank l a) : p a = true := by
  obtain ⟨-, -, -, hp, -⟩ := h
  exact hp

theorem best (h : Preferred p rank l a) (hb : b ∈ l) (hpb : p b = true) : rank b ≤ rank a := by
  obtain ⟨pre, post, rfl, -, hpre, hpost⟩ := h
  rcases List.mem_append.mp hb with hb | hb
  · exact (hpre b hb hpb).le
  · rcases List.mem_cons.mp hb with rfl | hb
    · exact le_rfl
    · exact hpost b hb hpb

theorem cons_iff :
    Preferred p rank (b :: l) a ↔
      (a = b ∧ p b = true ∧ ∀ c ∈ l, p c = true → rank c ≤ rank b) ∨
        (Preferred p rank l a ∧ (p b = true → rank b < rank a)) := by
  constructor
  · rintro ⟨pre, post, heq, hp, hpre, hpost⟩
    cases pre with
    | nil =>
        obtain ⟨rfl, rfl⟩ := List.cons.inj heq
        exact Or.inl ⟨rfl, hp, hpost⟩
    | cons c pre =>
        obtain ⟨rfl, rfl⟩ := List.cons.inj heq
        refine Or.inr ⟨⟨pre, post, rfl, hp, fun c hc => hpre c (List.mem_cons_of_mem _ hc), hpost⟩,
          hpre b List.mem_cons_self⟩
  · rintro (⟨rfl, hp, hbest⟩ | ⟨⟨pre, post, rfl, hp, hpre, hpost⟩, hb⟩)
    · exact ⟨[], l, rfl, hp, by simp, hbest⟩
    · refine ⟨b :: pre, post, rfl, hp, fun c hc hpc => ?_, hpost⟩
      rcases List.mem_cons.mp hc with rfl | hc
      · exact hb hpc
      · exact hpre c hc hpc

/-- Split where the preferred element stands first, a list has only lower ranks
before it. -/
theorem lt_of_split {pre post : List α} (h : Preferred p rank (pre ++ a :: post) a)
    (hpre : a ∉ pre) : ∀ b ∈ pre, p b = true → rank b < rank a := by
  induction pre with
  | nil => simp
  | cons c pre ih =>
      rcases cons_iff.mp h with ⟨rfl, -⟩ | ⟨h', hc⟩
      · exact absurd List.mem_cons_self hpre
      · intro b hb hpb
        rcases List.mem_cons.mp hb with rfl | hb
        · exact hc hpb
        · exact ih h' (fun hmem => hpre (List.mem_cons_of_mem _ hmem)) b hb hpb

/-- Only one element is preferred. -/
theorem unique (ha : Preferred p rank l a) (hb : Preferred p rank l b) : a = b := by
  induction l with
  | nil =>
      obtain ⟨pre, post, heq, -⟩ := ha
      simp at heq
  | cons c l ih =>
      rcases cons_iff.mp ha with ⟨rfl, hpa, hbest⟩ | ⟨ha', hca⟩ <;>
        rcases cons_iff.mp hb with ⟨rfl, hpb, hbest'⟩ | ⟨hb', hcb⟩
      · rfl
      · exact absurd (hcb hpa) (not_lt.mpr (hbest b hb'.mem hb'.passes))
      · exact absurd (hca hpb) (not_lt.mpr (hbest' a ha'.mem ha'.passes))
      · exact ih ha' hb'

end Preferred

variable {p : α → Bool} {rank : α → κ}

/-- An element is inserted before those of its rank, so it is found unless a
match of a higher rank is. -/
theorem find?_orderedInsert {s : List α} (hs : s.Pairwise (Descending rank)) (a : α) :
    (s.orderedInsert (Descending rank) a).find? p
      = if p a = true ∧ ∀ b ∈ s, p b = true → rank b ≤ rank a then some a else s.find? p := by
  induction s with
  | nil => cases h : p a <;> simp [h]
  | cons b s ih =>
      obtain ⟨hb, hs⟩ := List.pairwise_cons.mp hs
      by_cases hab : rank b ≤ rank a
      · -- everything behind `b` has at most its rank
        have hall : ∀ c ∈ b :: s, p c = true → rank c ≤ rank a := by
          intro c hc _
          rcases List.mem_cons.mp hc with rfl | hc
          · exact hab
          · exact (hb c hc).trans hab
        rw [List.orderedInsert_cons, if_pos hab]
        cases hpa : p a with
        | true =>
            rw [List.find?_cons_of_pos hpa, if_pos ⟨rfl, hall⟩]
        | false =>
            rw [List.find?_cons_of_neg (by simp [hpa]), if_neg (by simp)]
      · -- inserted behind `b`, which is found first if it passes
        rw [List.orderedInsert_cons, if_neg hab]
        cases hpb : p b with
        | true =>
            have hnot : ¬ (p a = true ∧ ∀ c ∈ b :: s, p c = true → rank c ≤ rank a) :=
              fun h => hab (h.2 b List.mem_cons_self hpb)
            rw [List.find?_cons_of_pos hpb, if_neg hnot, List.find?_cons_of_pos hpb]
        | false =>
            have hiff : (∀ c ∈ b :: s, p c = true → rank c ≤ rank a)
                ↔ ∀ c ∈ s, p c = true → rank c ≤ rank a := by
              simp [hpb]
            rw [List.find?_cons_of_neg (by simp [hpb]), ih hs,
              List.find?_cons_of_neg (by simp [hpb])]
            simp only [hiff]

theorem pairwise_descending (l : List α) :
    (l.insertionSort (Descending rank)).Pairwise (Descending rank) := by
  have : IsTrans α (Descending rank) := ⟨fun _ _ _ hab hbc => le_trans hbc hab⟩
  have : Std.Total (Descending rank) := ⟨fun a b => le_total (rank b) (rank a)⟩
  exact List.pairwise_insertionSort _ l

theorem find?_insertionSort_eq_some {l : List α} {a : α} :
    (l.insertionSort (Descending rank)).find? p = some a ↔ Preferred p rank l a := by
  induction l with
  | nil => simp [Preferred]
  | cons b l ih =>
      have hmem : ∀ c, c ∈ l.insertionSort (Descending rank) ↔ c ∈ l :=
        fun c => List.mem_insertionSort _
      rw [List.insertionSort_cons, find?_orderedInsert (pairwise_descending l) b,
        Preferred.cons_iff]
      simp only [hmem]
      split
      · rename_i hbest
        constructor
        · intro h
          exact Or.inl ⟨(Option.some.inj h).symm, hbest⟩
        · rintro (⟨rfl, -⟩ | ⟨ha, hlt⟩)
          · rfl
          · exact absurd (hlt hbest.1) (not_lt.mpr (hbest.2 a ha.mem ha.passes))
      · rename_i hbest
        rw [ih]
        constructor
        · intro ha
          refine Or.inr ⟨ha, fun hpb => ?_⟩
          -- otherwise the new element would be at least as high as the one found
          by_contra hlt
          exact hbest ⟨hpb, fun c hc hpc => (ha.best hc hpc).trans (not_lt.mp hlt)⟩
        · rintro (⟨-, hb⟩ | ⟨ha, -⟩)
          · exact absurd hb hbest
          · exact ha

theorem find?_insertionSort_eq_none {l : List α} :
    (l.insertionSort (Descending rank)).find? p = none ↔ ∀ a ∈ l, p a = false := by
  simp [List.find?_eq_none, List.mem_insertionSort]

/-- Where no two matches have one rank, the order of the list does not matter. -/
theorem find?_insertionSort_perm {l l' : List α} (hperm : l.Perm l')
    (hties : ∀ a ∈ l, ∀ b ∈ l, p a = true → p b = true → rank a = rank b → a = b) :
    (l.insertionSort (Descending rank)).find? p = (l'.insertionSort (Descending rank)).find? p := by
  cases h : (l.insertionSort (Descending rank)).find? p with
  | none =>
      have hnone := find?_insertionSort_eq_none.mp h
      exact (find?_insertionSort_eq_none.mpr fun a ha => hnone a (hperm.mem_iff.mpr ha)).symm
  | some a =>
      have ha := find?_insertionSort_eq_some.mp h
      cases h' : (l'.insertionSort (Descending rank)).find? p with
      | none =>
          have hfalse := find?_insertionSort_eq_none.mp h' a (hperm.mem_iff.mp ha.mem)
          rw [ha.passes] at hfalse
          cases hfalse
      | some b =>
          have hb := find?_insertionSort_eq_some.mp h'
          have hmem := hperm.mem_iff.mpr hb.mem
          -- each is at least as high as the other
          have heq : rank a = rank b :=
            le_antisymm (hb.best (hperm.mem_iff.mp ha.mem) ha.passes) (ha.best hmem hb.passes)
          rw [hties a ha.mem b hmem ha.passes hb.passes heq]

/-- Test and rank may look at a part of an element only. -/
theorem find?_insertionSort_map {β : Type} (f : α → β) (p : β → Bool) (rank : β → κ) (l : List α) :
    ((l.map f).insertionSort (Descending rank)).find? p
      = ((l.insertionSort (Descending fun a => rank (f a))).find? fun a => p (f a)).map f := by
  rw [← List.map_insertionSort (Descending fun a => rank (f a)) (Descending rank) f l
    fun _ _ _ _ => Iff.rfl, List.find?_map]
  rfl

/-- Two searches that find elements of each other find one element. -/
theorem find?_eq_of_passes {p q : α → Bool} {l : List α} {a b : α} (ha : l.find? p = some a)
    (hb : l.find? q = some b) (hqa : q a = true) (hpb : p b = true) : a = b := by
  induction l with
  | nil => cases ha
  | cons c l ih =>
      rw [List.find?_cons] at ha hb
      split at ha
      · rename_i hpc
        obtain rfl := Option.some.inj ha
        rw [hqa] at hb
        exact Option.some.inj hb
      · rename_i hpc
        split at hb
        · rename_i hqc
          obtain rfl := Option.some.inj hb
          rw [hpb] at hpc
          cases hpc
        · exact ih ha hb

end Lib
