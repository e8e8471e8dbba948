/-
  StealthNet.Lib.Canonical
  ────────────────────────
  FORMATS IN WHICH NOTHING ELSE IS ACCEPTED.

  The law of a `Codec` says that what was written is read back.  A codec is
  canonical if also nothing but what was written is read: two inputs that read
  as one value differ at most in what follows it.  Lengths have 8 bytes, and
  the law is asked for inputs whose own length fits.

  The combinators keep the property, so a format assembled from them is
  canonical as it stands (`Canonical.read_eq_some_iff`).
-/
import StealthNet.Lib.Codec

namespace Lib

namespace Codec

variable {α β : Type}

/-- What is read was written, in front of what is left. -/
structure Canonical (c : Codec α) : Prop where
  eq_write : ∀ {bs a rest}, bs.length < 2 ^ 64 - 1 → c.read bs = some (a, rest) →
    bs = c.write a ++ rest

theorem Canonical.read_eq_some_iff {c : Codec α} (h : c.Canonical) {bs rest : List UInt8} {a : α}
    (hbs : bs.length < 2 ^ 64 - 1) : c.read bs = some (a, rest) ↔ bs = c.write a ++ rest := by
  constructor
  · exact h.eq_write hbs
  · intro heq
    rw [heq, c.read_write]

/-! ## §1. Combinators. -/

theorem canonical_byte : byte.Canonical where
  eq_write := by
    intro bs a rest _ h
    cases bs with
    | nil => cases h
    | cons b bs =>
        obtain ⟨rfl, rfl⟩ := Prod.mk.inj (Option.some.inj h)
        rfl

theorem Canonical.seq {c : Codec α} {d : Codec β} (hc : c.Canonical) (hd : d.Canonical) :
    (c.seq d).Canonical where
  eq_write := by
    intro bs ab rest hbs h
    obtain ⟨⟨a, bs'⟩, ha, h⟩ := Option.bind_eq_some_iff.mp h
    obtain ⟨⟨b, bs''⟩, hb, heq⟩ := Option.map_eq_some_iff.mp h
    obtain ⟨rfl, rfl⟩ := Prod.mk.inj heq
    have hfirst := hc.eq_write hbs ha
    -- the second reads no more than the first left
    have hle : bs'.length ≤ bs.length := by
      rw [hfirst, List.length_append]
      omega
    have hsecond := hd.eq_write (by omega) hb
    rw [hfirst, hsecond, ← List.append_assoc]
    rfl

theorem Canonical.through {c : Codec α} (hc : c.Canonical) {f : α → Option β} {g : β → α}
    {h : ∀ b, f (g b) = some b} (hback : ∀ a b, f a = some b → g b = a) :
    (c.through f g h).Canonical where
  eq_write := by
    intro bs b rest hbs hread
    obtain ⟨⟨a, bs'⟩, ha, hread⟩ := Option.bind_eq_some_iff.mp hread
    obtain ⟨b', hb, heq⟩ := Option.map_eq_some_iff.mp hread
    obtain ⟨rfl, rfl⟩ := Prod.mk.inj heq
    show bs = c.write (g b') ++ bs'
    rw [hback a b' hb]
    exact hc.eq_write hbs ha

theorem Canonical.iso {c : Codec α} (hc : c.Canonical) {f : α → β} {g : β → α}
    {h : ∀ b, f (g b) = b} (hback : ∀ a, g (f a) = a) : (c.iso f g h).Canonical := by
  refine hc.through ?_
  intro a b hab
  rw [← Option.some.inj hab, hback]

/-! ## §2. Numbers of fixed width. -/

theorem eq_digits_of_ofDigits {n : ℕ} {bs rest : List UInt8} {k : ℕ}
    (h : ofDigits n bs = some (k, rest)) : k < 256 ^ n ∧ bs = digits n k ++ rest := by
  induction n generalizing bs k with
  | zero =>
      obtain ⟨rfl, rfl⟩ := Prod.mk.inj (Option.some.inj h)
      exact ⟨Nat.one_pos, rfl⟩
  | succ n ih =>
      cases bs with
      | nil => cases h
      | cons b bs =>
          obtain ⟨⟨k', rest'⟩, hk, heq⟩ := Option.map_eq_some_iff.mp h
          obtain ⟨rfl, rfl⟩ := Prod.mk.inj heq
          obtain ⟨hlt, rfl⟩ := ih hk
          have hb : b.toNat < 256 := b.toNat_lt
          have hmod : (b.toNat + 256 * k') % 256 = b.toNat := by omega
          have hdiv : (b.toNat + 256 * k') / 256 = k' := by omega
          refine ⟨?_, ?_⟩
          · rw [Nat.pow_succ]
            omega
          · show b :: (digits n k' ++ rest') = digits (n + 1) _ ++ rest'
            rw [digits, hmod, hdiv, UInt8.ofNat_toNat]
            rfl

/-! ## §3. Sequences and texts. -/

theorem Canonical.readAll {c : Codec α} (hc : c.Canonical) {n : ℕ} {bs rest : List UInt8}
    {l : List α} (hbs : bs.length < 2 ^ 64 - 1) (h : c.readAll n bs = some (l, rest)) :
    bs = c.writeAll l ++ rest := by
  induction n generalizing bs l with
  | zero =>
      obtain ⟨rfl, rfl⟩ := Prod.mk.inj (Option.some.inj h)
      rfl
  | succ n ih =>
      obtain ⟨⟨a, bs'⟩, ha, h⟩ := Option.bind_eq_some_iff.mp h
      obtain ⟨⟨l', bs''⟩, hl, heq⟩ := Option.map_eq_some_iff.mp h
      obtain ⟨rfl, rfl⟩ := Prod.mk.inj heq
      have hfirst := hc.eq_write hbs ha
      have hle : bs'.length ≤ bs.length := by
        rw [hfirst, List.length_append]
        omega
      rw [hfirst, ih (by omega) hl, ← List.append_assoc]
      rfl

theorem Canonical.vector {c : Codec α} (hc : c.Canonical) (n : ℕ) : (c.vector n).Canonical where
  eq_write := by
    intro bs v rest hbs h
    simp only [Codec.vector] at h
    split at h
    · cases h
    · rename_i l bs' hread
      obtain ⟨rfl, rfl⟩ := Prod.mk.inj (Option.some.inj h)
      exact hc.readAll hbs hread

/-- As many values have at least as many bytes. -/
theorem length_le_writeAll {c : Codec α} (hne : ∀ a, c.write a ≠ []) (l : List α) :
    l.length ≤ (c.writeAll l).length := by
  induction l with
  | nil => exact Nat.le_refl 0
  | cons a l ih =>
      have ha := List.length_pos_iff.mpr (hne a)
      show l.length + 1 ≤ (c.write a ++ c.writeAll l).length
      rw [List.length_append]
      omega

theorem Canonical.list {c : Codec α} (hc : c.Canonical) (hne : ∀ a, c.write a ≠ []) :
    (Codec.list c).Canonical where
  eq_write := by
    intro bs l rest hbs h
    obtain ⟨⟨n, bs'⟩, hlength, h⟩ := Option.bind_eq_some_iff.mp h
    obtain ⟨⟨k, bs''⟩, hk, hlength⟩ := Option.bind_eq_some_iff.mp hlength
    obtain ⟨hlt, hdigits⟩ := eq_digits_of_ofDigits hk
    have hle : bs''.length ≤ bs.length := by
      rw [hdigits, List.length_append]
      omega
    have hcount := c.length_of_readAll h
    dsimp only at hlength
    split at hlength
    · rename_i hsmall
      obtain ⟨rfl, rfl⟩ := Prod.mk.inj (Option.some.inj hlength)
      have hvalues := hc.readAll (by omega) h
      show bs = length.write l.length ++ c.writeAll l ++ rest
      rw [hdigits, hvalues, hcount, ← List.append_assoc]
      show _ = digits 8 (min k (2 ^ 64 - 1)) ++ _ ++ _ ++ _
      rw [Nat.min_eq_left (Nat.le_of_lt hsmall), if_pos hsmall, List.append_nil]
    · -- so many values do not fit into the input
      obtain ⟨rfl, rfl⟩ := Prod.mk.inj (Option.some.inj hlength)
      have hshort : (bs''.drop ((bs''.takeWhile (· == 1)).length + 1)).length ≤ bs''.length := by
        rw [List.length_drop]
        omega
      have hvalues := hc.readAll (by omega) h
      have hfew := length_le_writeAll hne l
      rw [hvalues, List.length_append] at hshort
      omega

theorem canonical_text : text.Canonical := by
  refine (canonical_byte.list fun a h => by cases h).through ?_
  intro bs s h
  unfold String.fromUTF8? at h
  split at h
  · rw [← Option.some.inj h]
    exact List.toList_toArray
  · cases h

end Codec

end Lib
