/-
  StealthNet.Lib.Codec
  ────────────────────
  BINARY FORMATS WITH THEIR ROUND TRIP.

  A `Codec` is a writer and a reader, with the law that the reader takes back
  what was written and leaves whatever follows it.  The combinators below
  build codecs from codecs, so a format assembled from them needs no proof of
  its own.

    §1  combinators;
    §2  numbers of fixed width;
    §3  sequences and texts.
-/
import Mathlib.Algebra.Group.Nat.Defs
import Mathlib.Data.Vector.Defs

namespace Lib

/-- A writer, and a reader that takes back what was written. -/
structure Codec (α : Type) where
  write : α → List UInt8
  read : List UInt8 → Option (α × List UInt8)
  read_write : ∀ a rest, read (write a ++ rest) = some (a, rest)

namespace Codec

attribute [simp] read_write

variable {α β : Type}

/-! ## §1. Combinators. -/

/-- A byte as it is. -/
def byte : Codec UInt8 where
  write b := [b]
  read
    | [] => none
    | b :: rest => some (b, rest)
  read_write _ _ := rfl

/-- One after the other. -/
def seq (c : Codec α) (d : Codec β) : Codec (α × β) where
  write x := c.write x.1 ++ d.write x.2
  read bs := (c.read bs).bind fun (a, bs) => (d.read bs).map fun (b, bs) => ((a, b), bs)
  read_write x rest := by simp [List.append_assoc]

/-- Another type, of which only some values have an image. -/
def through (c : Codec α) (f : α → Option β) (g : β → α) (h : ∀ b, f (g b) = some b) : Codec β where
  write b := c.write (g b)
  read bs := (c.read bs).bind fun (a, bs) => (f a).map fun b => (b, bs)
  read_write b rest := by simp [h]

/-- Another type with the same values. -/
def iso (c : Codec α) (f : α → β) (g : β → α) (h : ∀ b, f (g b) = b) : Codec β :=
  c.through (fun a => some (f a)) g fun b => by rw [h]

/-- The one value of a type without any other takes no bytes. -/
def unit : Codec Unit where
  write _ := []
  read bs := some ((), bs)
  read_write _ _ := rfl

/-- A flag: 0 or 1. -/
def bool : Codec Bool :=
  byte.through (fun b => if b = 0 then some false else if b = 1 then some true else none)
    (fun b => if b then 1 else 0) fun b => by cases b <;> rfl

/-- One of two, behind a flag that says which. -/
def sum (c : Codec α) (d : Codec β) : Codec (α ⊕ β) where
  write
    | .inl a => bool.write false ++ c.write a
    | .inr b => bool.write true ++ d.write b
  read bs := (bool.read bs).bind fun (flag, bs) =>
    if flag then (d.read bs).map fun (b, bs) => (.inr b, bs)
    else (c.read bs).map fun (a, bs) => (.inl a, bs)
  read_write x rest := by
    cases x with
    | inl a => simp [List.append_assoc]
    | inr b => simp [List.append_assoc]

/-- A flag, and the value if it is set. -/
def option (c : Codec α) : Codec (Option α) where
  write
    | none => bool.write false
    | some a => bool.write true ++ c.write a
  read bs := (bool.read bs).bind fun (b, bs) =>
    if b then (c.read bs).map fun (a, bs) => (some a, bs) else some (none, bs)
  read_write a rest := by
    cases a with
    | none => simp
    | some a => simp [List.append_assoc]

/-! ## §2. Numbers of fixed width. -/

/-- The digits of a number to base 256, the least first. -/
def digits : ℕ → ℕ → List UInt8
  | 0, _ => []
  | n + 1, k => UInt8.ofNat (k % 256) :: digits n (k / 256)

/-- Read `n` digits, the least first. -/
def ofDigits : ℕ → List UInt8 → Option (ℕ × List UInt8)
  | 0, bs => some (0, bs)
  | _ + 1, [] => none
  | n + 1, b :: bs => (ofDigits n bs).map fun (k, bs) => (b.toNat + 256 * k, bs)

theorem ofDigits_digits (n : ℕ) {k : ℕ} (hk : k < 256 ^ n) (rest : List UInt8) :
    ofDigits n (digits n k ++ rest) = some (k, rest) := by
  induction n generalizing k with
  | zero =>
      obtain rfl : k = 0 := by simpa using hk
      rfl
  | succ n ih =>
      have hdiv : k / 256 < 256 ^ n := Nat.div_lt_of_lt_mul (by rwa [Nat.pow_succ, Nat.mul_comm] at hk)
      have hmod : (UInt8.ofNat (k % 256)).toNat = k % 256 :=
        UInt8.toNat_ofNat_of_lt' (Nat.mod_lt _ (by decide))
      simp only [digits, ofDigits, List.cons_append, ih hdiv, Option.map_some, hmod]
      rw [Nat.mod_add_div]

/-- A word of `n` bytes, the least significant first. -/
def word (n : ℕ) : Codec (BitVec (8 * n)) where
  write w := digits n w.toNat
  read bs := (ofDigits n bs).map fun (k, bs) => (BitVec.ofNat _ k, bs)
  read_write w rest := by
    have hw : w.toNat < 256 ^ n := by
      have := w.isLt
      rwa [Nat.pow_mul] at this
    rw [ofDigits_digits n hw]
    simp

/-! ## §3. Sequences and texts. -/

/-- The elements one after the other. -/
def writeAll (c : Codec α) (l : List α) : List UInt8 := l.flatMap c.write

/-- Read a given number of elements. -/
def readAll (c : Codec α) : ℕ → List UInt8 → Option (List α × List UInt8)
  | 0, bs => some ([], bs)
  | n + 1, bs => (c.read bs).bind fun (a, bs) =>
      (readAll c n bs).map fun (l, bs) => (a :: l, bs)

theorem readAll_writeAll (c : Codec α) (l : List α) (rest : List UInt8) :
    c.readAll l.length (c.writeAll l ++ rest) = some (l, rest) := by
  induction l with
  | nil => rfl
  | cons a l ih =>
      simp only [writeAll, List.flatMap_cons, List.length_cons, readAll, List.append_assoc,
        read_write, Option.bind_some] at ih ⊢
      rw [ih]
      rfl

theorem length_of_readAll (c : Codec α) {n : ℕ} {bs rest : List UInt8} {l : List α}
    (h : c.readAll n bs = some (l, rest)) : l.length = n := by
  induction n generalizing bs l with
  | zero =>
      obtain ⟨rfl, -⟩ := Prod.mk.inj (Option.some.inj h)
      rfl
  | succ n ih =>
      obtain ⟨⟨a, bs'⟩, -, h⟩ := Option.bind_eq_some_iff.mp h
      obtain ⟨⟨l', bs''⟩, hrest, heq⟩ := Option.map_eq_some_iff.mp h
      obtain ⟨rfl, rfl⟩ := Prod.mk.inj heq
      simp [ih hrest]

/-- As many values as the type says. -/
def vector (c : Codec α) (n : ℕ) : Codec (Vector α n) where
  write v := c.writeAll v.toList
  read bs :=
    match h : c.readAll n bs with
    | none => none
    | some (l, bs) => some (⟨l.toArray, by simpa using c.length_of_readAll h⟩, bs)
  read_write v rest := by
    have h := c.readAll_writeAll v.toList rest
    rw [Vector.length_toList] at h
    split
    · rename_i h'
      rw [h] at h'
      cases h'
    · rename_i l bs h'
      obtain ⟨rfl, rfl⟩ := Prod.mk.inj (Option.some.inj (h.symm.trans h'))
      simp [Vector.toList]

/-- A length: 8 bytes, and for lengths that do not fit, as many ones as it is
longer. -/
def length : Codec ℕ where
  write k := digits 8 (min k (2 ^ 64 - 1)) ++
    if k < 2 ^ 64 - 1 then [] else List.replicate (k - (2 ^ 64 - 1)) 1 ++ [0]
  read bs := (ofDigits 8 bs).bind fun (k, bs) =>
    -- the largest value says that the length goes on
    if k < 2 ^ 64 - 1 then some (k, bs)
    else
      let ones := (bs.takeWhile (· == 1)).length
      some (2 ^ 64 - 1 + ones, bs.drop (ones + 1))
  read_write k rest := by
    have hmin : min k (2 ^ 64 - 1) < 256 ^ 8 := by omega
    simp only [List.append_assoc, ofDigits_digits 8 hmin, Option.bind_some]
    by_cases hk : k < 2 ^ 64 - 1
    · rw [Nat.min_eq_left (Nat.le_of_lt hk), if_pos hk, if_pos hk, List.nil_append]
    · obtain ⟨d, rfl⟩ := Nat.exists_eq_add_of_le (Nat.le_of_not_lt hk)
      -- the ones are counted up to the zero behind them
      have htake : ∀ d : ℕ, ((List.replicate d (1 : UInt8) ++ [0] ++ rest).takeWhile (· == 1)).length
          = d := fun d => by
        induction d with
        | zero => rfl
        | succ d ih => simp [List.replicate_succ]
      have hdrop : ∀ d : ℕ, (List.replicate d (1 : UInt8) ++ [0] ++ rest).drop (d + 1) = rest :=
        fun d => by simp [List.drop_append]
      rw [if_neg (by omega), if_neg (by omega), Nat.add_sub_cancel_left, htake, hdrop]

/-- A length and as many values. -/
def list (c : Codec α) : Codec (List α) where
  write l := length.write l.length ++ c.writeAll l
  read bs := (length.read bs).bind fun (n, bs) => c.readAll n bs
  read_write l rest := by simp [List.append_assoc, readAll_writeAll]

/-- A text: its UTF-8 bytes as a list. -/
def text : Codec String :=
  (list byte).through (fun bs => String.fromUTF8? ⟨bs.toArray⟩) (fun s => s.toByteArray.data.toList)
    fun s => by
      -- the bytes of a string are valid UTF-8, so the check succeeds
      have hs : ByteArray.IsValidUTF8 ⟨s.toByteArray.data⟩ := s.isValidUTF8
      simp only [Array.toArray_toList, String.fromUTF8?, dif_pos hs]
      rfl

end Codec

end Lib
