/-
  StealthNet.Lib.Base64
  ─────────────────────
  BASE64 WITH THE STANDARD ALPHABET AND PADDING.

  Three bytes are written as four symbols of six bits; `=` fills the last
  group.  A text is read back only if its groups are complete, padded at the
  end alone, and the bits that fill up a symbol are zero.

    • `decode_encode`     — what is written is read back;
    • `mem_encode`        — only symbols and `=` are written;
    • `take_of_decode`    — what is cut off is not read back as long.
-/
import Mathlib.Data.List.Basic

namespace Lib.Base64

/-! ## §1. Symbols. -/

/-- The alphabet, in the order of the values. -/
def symbols : List Char :=
  ['A', 'B', 'C', 'D', 'E', 'F', 'G', 'H', 'I', 'J', 'K', 'L', 'M', 'N', 'O', 'P',
   'Q', 'R', 'S', 'T', 'U', 'V', 'W', 'X', 'Y', 'Z', 'a', 'b', 'c', 'd', 'e', 'f',
   'g', 'h', 'i', 'j', 'k', 'l', 'm', 'n', 'o', 'p', 'q', 'r', 's', 't', 'u', 'v',
   'w', 'x', 'y', 'z', '0', '1', '2', '3', '4', '5', '6', '7', '8', '9', '+', '/']

/-- The symbol for six bits. -/
def symbol (n : Nat) : Char := symbols.getD n '='

/-- The six bits of a symbol. -/
def sextet (c : Char) : Option Nat := symbols.idxOf? c

theorem sextet_symbol {n : Nat} (h : n < 64) : sextet (symbol n) = some n := by
  have hall : ∀ n : Fin 64, sextet (symbol n) = some n.val := by decide +kernel
  exact hall ⟨n, h⟩

theorem symbol_ne_pad {n : Nat} (h : n < 64) : symbol n ≠ '=' := by
  have hall : ∀ n : Fin 64, symbol n ≠ '=' := by decide +kernel
  exact hall ⟨n, h⟩

theorem symbol_mem (n : Nat) : symbol n ∈ '=' :: symbols := by
  unfold symbol
  rw [List.getD_eq_getElem?_getD]
  cases h : symbols[n]? with
  | none => exact List.mem_cons_self
  | some c => exact List.mem_cons_of_mem _ (List.mem_of_getElem? h)

/-! ## §2. Groups. -/

/-- Group by group. -/
def encodeChars : List UInt8 → List Char
  | [] => []
  | [a] => [symbol (a.toNat / 4), symbol (a.toNat % 4 * 16), '=', '=']
  | [a, b] =>
      [symbol (a.toNat / 4), symbol (a.toNat % 4 * 16 + b.toNat / 16),
        symbol (b.toNat % 16 * 4), '=']
  | a :: b :: c :: rest =>
      symbol (a.toNat / 4) :: symbol (a.toNat % 4 * 16 + b.toNat / 16) ::
        symbol (b.toNat % 16 * 4 + c.toNat / 64) :: symbol (c.toNat % 64) :: encodeChars rest

/-- A last group that ends with `=`. -/
def decodePadded (w x y : Char) : Option (List UInt8) := do
  let w ← sextet w
  let x ← sextet x
  if y = '=' then
    -- the bits below the byte must be zero
    if x % 16 = 0 then some [UInt8.ofNat (w * 4 + x / 16)] else none
  else
    let y ← sextet y
    if y % 4 = 0 then
      some [UInt8.ofNat (w * 4 + x / 16), UInt8.ofNat (x % 16 * 16 + y / 4)]
    else none

/-- Four characters at a time. -/
def decodeChars : List Char → Option (List UInt8)
  | [] => some []
  | w :: x :: y :: z :: rest =>
      -- padding only in the last group
      if z = '=' then if rest = [] then decodePadded w x y else none
      else do
        let w ← sextet w
        let x ← sextet x
        let y ← sextet y
        let z ← sextet z
        let rest ← decodeChars rest
        some (UInt8.ofNat (w * 4 + x / 16) :: UInt8.ofNat (x % 16 * 16 + y / 4) ::
          UInt8.ofNat (y % 4 * 64 + z) :: rest)
  | _ => none

theorem ofNat_eq {n : Nat} {a : UInt8} (h : n = a.toNat) : UInt8.ofNat n = a := by
  rw [h, UInt8.ofNat_toNat]

theorem decodeChars_encodeChars (bs : List UInt8) : decodeChars (encodeChars bs) = some bs := by
  -- one case for each length of the last group
  fun_induction encodeChars bs with
  | case1 => rfl
  | case2 a =>
      have ha := a.toNat_lt
      have h1 : a.toNat / 4 * 4 + a.toNat % 4 * 16 / 16 = a.toNat := by omega
      have h2 : a.toNat % 4 * 16 % 16 = 0 := by omega
      simp only [decodeChars, if_true, decodePadded, sextet_symbol (show a.toNat / 4 < 64 by omega),
        sextet_symbol (show a.toNat % 4 * 16 < 64 by omega), Option.bind_eq_bind, Option.bind_some,
        h2, ofNat_eq h1]
  | case3 a b =>
      have ha := a.toNat_lt
      have hb := b.toNat_lt
      have hy : b.toNat % 16 * 4 < 64 := by omega
      have h1 : a.toNat / 4 * 4 + (a.toNat % 4 * 16 + b.toNat / 16) / 16 = a.toNat := by omega
      have h2 : (a.toNat % 4 * 16 + b.toNat / 16) % 16 * 16 + b.toNat % 16 * 4 / 4 = b.toNat := by
        omega
      have h3 : b.toNat % 16 * 4 % 4 = 0 := by omega
      simp only [decodeChars, if_true, decodePadded, sextet_symbol (show a.toNat / 4 < 64 by omega),
        sextet_symbol (show a.toNat % 4 * 16 + b.toNat / 16 < 64 by omega), sextet_symbol hy,
        if_neg (symbol_ne_pad hy), Option.bind_eq_bind, Option.bind_some, h3, ofNat_eq h1,
        ofNat_eq h2]
  | case4 a b c rest ih =>
      have ha := a.toNat_lt
      have hb := b.toNat_lt
      have hc := c.toNat_lt
      have hz : c.toNat % 64 < 64 := by omega
      have h1 : a.toNat / 4 * 4 + (a.toNat % 4 * 16 + b.toNat / 16) / 16 = a.toNat := by omega
      have h2 : (a.toNat % 4 * 16 + b.toNat / 16) % 16 * 16
          + (b.toNat % 16 * 4 + c.toNat / 64) / 4 = b.toNat := by omega
      have h3 : (b.toNat % 16 * 4 + c.toNat / 64) % 4 * 64 + c.toNat % 64 = c.toNat := by omega
      simp only [decodeChars, if_neg (symbol_ne_pad hz),
        sextet_symbol (show a.toNat / 4 < 64 by omega),
        sextet_symbol (show a.toNat % 4 * 16 + b.toNat / 16 < 64 by omega),
        sextet_symbol (show b.toNat % 16 * 4 + c.toNat / 64 < 64 by omega), sextet_symbol hz, ih,
        Option.bind_eq_bind, Option.bind_some, ofNat_eq h1, ofNat_eq h2, ofNat_eq h3]

theorem mem_encodeChars {bs : List UInt8} {c : Char} (h : c ∈ encodeChars bs) :
    c ∈ '=' :: symbols := by
  fun_induction encodeChars bs with
  | case1 => cases h
  | case2 a =>
      simp only [List.mem_cons, List.not_mem_nil, or_false] at h
      rcases h with rfl | rfl | h
      · exact symbol_mem _
      · exact symbol_mem _
      · simp [h.elim id id]
  | case3 a b =>
      simp only [List.mem_cons, List.not_mem_nil, or_false] at h
      rcases h with rfl | rfl | rfl | rfl
      · exact symbol_mem _
      · exact symbol_mem _
      · exact symbol_mem _
      · exact List.mem_cons_self
  | case4 a b c' rest ih =>
      simp only [List.mem_cons] at h
      rcases h with rfl | rfl | rfl | rfl | h
      · exact symbol_mem _
      · exact symbol_mem _
      · exact symbol_mem _
      · exact symbol_mem _
      · exact ih h

/-- Four symbols for each group of three bytes, the last one filled up. -/
theorem length_encodeChars (bs : List UInt8) :
    (encodeChars bs).length = (bs.length + 2) / 3 * 4 := by
  fun_induction encodeChars bs with
  | case1 => rfl
  | case2 a => simp
  | case3 a b => simp
  | case4 a b c rest ih =>
      simp only [List.length_cons, ih]
      omega

theorem length_of_decodePadded {w x y : Char} {bs : List UInt8}
    (h : decodePadded w x y = some bs) : bs.length ≤ 2 := by
  unfold decodePadded at h
  obtain ⟨w', -, h⟩ := Option.bind_eq_some_iff.mp h
  obtain ⟨x', -, h⟩ := Option.bind_eq_some_iff.mp h
  split at h
  · split at h
    · rw [← Option.some.inj h]
      exact Nat.le_succ 1
    · cases h
  · obtain ⟨y', -, h⟩ := Option.bind_eq_some_iff.mp h
    split at h
    · rw [← Option.some.inj h]
      exact Nat.le_refl 2
    · cases h

/-- A text that is read consists of groups, of three bytes at most. -/
theorem length_of_decodeChars {cs : List Char} {bs : List UInt8} (h : decodeChars cs = some bs) :
    ∃ k, cs.length = 4 * k ∧ bs.length ≤ 3 * k := by
  fun_induction decodeChars cs generalizing bs with
  | case1 =>
      rw [← Option.some.inj h]
      exact ⟨0, rfl, Nat.le_refl 0⟩
  | case2 w x y =>
      have hlen := length_of_decodePadded h
      refine ⟨1, rfl, ?_⟩
      omega
  | case3 => cases h
  | case4 w x y z rest hz ih =>
      obtain ⟨w', -, h⟩ := Option.bind_eq_some_iff.mp h
      obtain ⟨x', -, h⟩ := Option.bind_eq_some_iff.mp h
      obtain ⟨y', -, h⟩ := Option.bind_eq_some_iff.mp h
      obtain ⟨z', -, h⟩ := Option.bind_eq_some_iff.mp h
      obtain ⟨rest', hrest, h⟩ := Option.bind_eq_some_iff.mp h
      obtain ⟨k, hk, hlen⟩ := ih hrest
      refine ⟨k + 1, ?_, ?_⟩
      · simp only [List.length_cons, hk]
        omega
      · rw [← Option.some.inj h]
        simp only [List.length_cons]
        omega
  | case5 => cases h

/-- A part of what was written that is read back as long is all of it. -/
theorem take_of_decodeChars {bs bs' : List UInt8} {n : Nat}
    (h : decodeChars ((encodeChars bs).take n) = some bs') (hlen : bs.length ≤ bs'.length) :
    (encodeChars bs).take n = encodeChars bs := by
  obtain ⟨k, hk, hbs'⟩ := length_of_decodeChars h
  rw [List.length_take, length_encodeChars] at hk
  refine List.take_of_length_le ?_
  rw [length_encodeChars]
  omega

/-! ## §3. Texts. -/

/-- Bytes as a text. -/
def encode (bs : List UInt8) : String := String.ofList (encodeChars bs)

/-- The bytes of a text, if it is well formed. -/
def decode (s : String) : Option (List UInt8) := decodeChars s.toList

theorem decode_encode (bs : List UInt8) : decode (encode bs) = some bs := by
  simp only [decode, encode, String.toList_ofList, decodeChars_encodeChars]

example : encode [0x66, 0x6f] = "Zm8=" := by decide
example : decode "Zm9" = none := by decide

theorem mem_encode {bs : List UInt8} {c : Char} (h : c ∈ (encode bs).toList) :
    c ∈ '=' :: symbols := by
  rw [encode, String.toList_ofList] at h
  exact mem_encodeChars h

theorem take_of_decode {bs bs' : List UInt8} {n : Nat}
    (h : decode (String.ofList ((encode bs).toList.take n)) = some bs')
    (hlen : bs.length ≤ bs'.length) :
    String.ofList ((encode bs).toList.take n) = encode bs := by
  unfold decode encode at h
  rw [String.toList_ofList, String.toList_ofList] at h
  unfold encode
  rw [String.toList_ofList, take_of_decodeChars h hlen]

end Lib.Base64
