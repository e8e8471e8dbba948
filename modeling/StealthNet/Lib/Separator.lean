/-
  StealthNet.Lib.Separator
  ────────────────────────
  TWO PARTS JOINED BY A SEPARATOR.

  A text `a ++ sep ++ b` does not say which of its separators joins the two
  parts.  Where the separator does not overlap itself (`Unbordered`), this is
  the only way in which two pairs of parts give one text: one pair is the
  other, cut at another separator (`Resplits`).

    • `append_sep_eq_iff`            — equal texts, exactly;
    • `append_sep_eq_iff_of_plain`   — parts without a separator are told apart.
-/
import Mathlib.Data.List.Infix

namespace Lib.Separator

variable {α : Type} {sep a b c d : List α}

/-! ## §1. Separators. -/

/-- Shifted by less than its length, the separator does not match itself. -/
def Unbordered (sep : List α) : Prop :=
  ∀ k < sep.length, 0 < k → ¬ sep.drop k <+: sep

instance decidableUnbordered [DecidableEq α] (sep : List α) : Decidable (Unbordered sep) :=
  inferInstanceAs (Decidable (∀ k < sep.length, 0 < k → ¬ sep.drop k <+: sep))

/-- A text that starts with a separator, and with a separator behind some
front: the front is empty, or starts with the first of the two. -/
theorem sep_append_eq_iff (h : Unbordered sep) {front : List α} :
    sep ++ b = front ++ (sep ++ d) ↔
      front = [] ∧ b = d ∨ ∃ x, front = sep ++ x ∧ b = x ++ (sep ++ d) := by
  constructor
  · intro heq
    rcases List.append_eq_append_iff.mp heq with ⟨x, hfront, hb⟩ | ⟨y, hsep, hd⟩
    · exact Or.inr ⟨x, hfront, hb⟩
    · by_cases hempty : front = []
      · subst hempty
        exact Or.inl ⟨rfl, List.append_cancel_left heq⟩
      by_cases hrest : y = []
      · -- the front is the separator itself
        subst hrest
        refine Or.inr ⟨[], ?_, ?_⟩
        · rw [hsep, List.append_nil, List.append_nil]
        · rw [List.nil_append, hd, List.nil_append]
      · -- a part of the separator would stand at its front and at its end
        have hlength : sep.length = front.length + y.length := by
          rw [hsep, List.length_append]
        have hfront : 0 < front.length := List.length_pos_of_ne_nil hempty
        have hy : 0 < y.length := List.length_pos_of_ne_nil hrest
        have hdrop : sep.drop front.length = y := by
          conv_lhs => rw [hsep]
          exact List.drop_left
        have hprefix : y <+: sep :=
          List.prefix_of_prefix_length_le ⟨b, hd.symm⟩ (List.prefix_append sep d) (by omega)
        rw [← hdrop] at hprefix
        exact absurd hprefix (h front.length (by omega) hfront)
  · rintro (⟨rfl, rfl⟩ | ⟨x, rfl, rfl⟩)
    · rfl
    · rw [List.append_assoc]

/-! ## §2. Two parts. -/

/-- The pair `(c, d)` is the text of `(a, b)`, cut at a later separator. -/
def Resplits (sep a b c d : List α) : Prop :=
  ∃ x, c = a ++ sep ++ x ∧ b = x ++ sep ++ d

theorem Resplits.append_eq (h : Resplits sep a b c d) : a ++ sep ++ b = c ++ sep ++ d := by
  obtain ⟨x, rfl, rfl⟩ := h
  simp only [List.append_assoc]

/-- A pair that is cut again is another pair. -/
theorem Resplits.ne (hsep : sep ≠ []) (h : Resplits sep a b c d) : a ≠ c := by
  obtain ⟨x, rfl, -⟩ := h
  intro heq
  have hlength := congrArg List.length heq
  have hpos := List.length_pos_of_ne_nil hsep
  simp only [List.length_append] at hlength
  omega

theorem Resplits.isInfix (h : Resplits sep a b c d) : sep <:+: b := by
  obtain ⟨x, -, rfl⟩ := h
  exact ⟨x, d, rfl⟩

/-- Two pairs give one text exactly if they are one, or one of them is the
other cut again. -/
theorem append_sep_eq_iff (h : Unbordered sep) :
    a ++ sep ++ b = c ++ sep ++ d ↔
      (a = c ∧ b = d) ∨ Resplits sep a b c d ∨ Resplits sep c d a b := by
  constructor
  · intro heq
    rw [List.append_assoc, List.append_assoc] at heq
    rcases List.append_eq_append_iff.mp heq with ⟨front, hc, htail⟩ | ⟨front, ha, htail⟩
    · -- the first pair ends its first part earlier
      rcases (sep_append_eq_iff h).mp htail with ⟨rfl, hbd⟩ | ⟨x, rfl, hb⟩
      · exact Or.inl ⟨by rw [hc, List.append_nil], hbd⟩
      · exact Or.inr (Or.inl ⟨x, by rw [hc, List.append_assoc], by rw [hb, List.append_assoc]⟩)
    · rcases (sep_append_eq_iff h).mp htail with ⟨rfl, hdb⟩ | ⟨x, rfl, hd⟩
      · exact Or.inl ⟨by rw [ha, List.append_nil], hdb.symm⟩
      · exact Or.inr (Or.inr ⟨x, by rw [ha, List.append_assoc], by rw [hd, List.append_assoc]⟩)
  · rintro (⟨rfl, rfl⟩ | hresplits | hresplits)
    · rfl
    · exact hresplits.append_eq
    · exact hresplits.append_eq.symm

/-- Second parts without a separator: the text determines both parts. -/
theorem append_sep_eq_iff_of_plain (h : Unbordered sep) (hb : ¬ sep <:+: b) (hd : ¬ sep <:+: d) :
    a ++ sep ++ b = c ++ sep ++ d ↔ a = c ∧ b = d := by
  rw [append_sep_eq_iff h]
  constructor
  · rintro (heq | hresplits | hresplits)
    · exact heq
    · exact absurd hresplits.isInfix hb
    · exact absurd hresplits.isInfix hd
  · exact Or.inl

end Lib.Separator
