/-
  StealthNet.Lib.Slice
  ────────────────────
  ACCESSES THAT PANIC OUT OF BOUNDS.

  Indexing, slicing and copying into an array of fixed length stop a program
  where the bounds do not fit.  Here an access is an `Except Panic`: code
  written with these accesses is free of panics if it is never an error.

    §1  the accesses;
    §2  accesses in bounds;
    §3  parts of a longer list.
-/
import Mathlib.Data.List.Basic

namespace Lib.Slice

variable {α : Type}

/-! ## §1. The accesses. -/

/-- Why an access panics. -/
inductive Panic
  | indexOutOfBounds (index length : ℕ)
  | rangeOutOfBounds (start stop length : ℕ)
  | lengthMismatch (source destination : ℕ)
  deriving DecidableEq

/-- `l[i]`. -/
def index (l : List α) (i : ℕ) : Except Panic α :=
  match l[i]? with
  | none => .error (.indexOutOfBounds i l.length)
  | some a => .ok a

/-- `&l[start..stop]`. -/
def range (l : List α) (start stop : ℕ) : Except Panic (List α) :=
  if start ≤ stop ∧ stop ≤ l.length then .ok (l.extract start stop)
  else .error (.rangeOutOfBounds start stop l.length)

/-- `copy_from_slice` into an array of length `n`. -/
def copyFromSlice (n : ℕ) (source : List α) : Except Panic (List α) :=
  if source.length = n then .ok source
  else .error (.lengthMismatch source.length n)

/-! ## §2. Accesses in bounds. -/

theorem index_of_lt {l : List α} {i : ℕ} (h : i < l.length) : index l i = .ok l[i] := by
  unfold index
  rw [List.getElem?_eq_getElem h]

theorem range_of_le {l : List α} {start stop : ℕ} (hstart : start ≤ stop)
    (hstop : stop ≤ l.length) : range l start stop = .ok (l.extract start stop) := by
  unfold range
  rw [if_pos ⟨hstart, hstop⟩]

theorem length_extract_of_le {l : List α} {start stop : ℕ} (hstop : stop ≤ l.length) :
    (l.extract start stop).length = stop - start := by
  rw [List.extract_eq_take_drop, List.length_take, List.length_drop]
  omega

/-- A range of the right length is copied. -/
theorem copyFromSlice_extract {l : List α} {start n : ℕ} (hstop : start + n ≤ l.length) :
    copyFromSlice n (l.extract start (start + n)) = .ok (l.extract start (start + n)) := by
  unfold copyFromSlice
  have hlength : (l.extract start (start + n)).length = n := by
    rw [length_extract_of_le hstop]
    omega
  rw [if_pos hlength]

/-! ## §3. Parts of a longer list. -/

/-- The part behind a front of known length. -/
theorem extract_append (front part back : List α) {start stop : ℕ} (hstart : front.length = start)
    (hstop : start + part.length = stop) :
    (front ++ (part ++ back)).extract start stop = part := by
  subst hstart
  subst hstop
  rw [List.extract_eq_take_drop, List.drop_left, Nat.add_sub_cancel_left, List.take_left]

end Lib.Slice
