/-
  StealthNet.Net.Text
  ───────────────────
  PRINTED ADDRESSES READ BACK (`IpAddr.fromStr_toString`).

  The printer of IPv6 leaves out the longest run of zero groups and the
  reader fills it in again; the printer of mapped addresses ends in an IPv4
  address, which the reader accepts in place of two groups.

  §1  numbers;
  §2  IPv4;
  §3  lists of groups;
  §4  the run of zeros;
  §5  IPv6, and both families;
  §6  what stands behind an address (`readIpv4_endsAt`, `readIpv6_endsAt`).
-/
import StealthNet.Net.Addr
import Mathlib.Algebra.Group.Nat.Defs
import Mathlib.Data.List.Induction

namespace StealthNet

/-! ## §1. Numbers. -/

theorem toDigit_digitChar {radix d : Nat} (hradix : radix ≤ 16) (hd : d < radix) :
    toDigit radix (Nat.digitChar d) = some d := by
  have hvalue : ∀ e : Fin 16, toDigit 16 (Nat.digitChar e) = some e.val := by decide
  have h := hvalue ⟨d, by omega⟩
  unfold toDigit at h ⊢
  rw [Option.filter_eq_some_iff] at h ⊢
  exact ⟨h.1, by simpa using hd⟩

section

variable {radix : Nat} (hone : 1 < radix) (hradix : radix ≤ 16)

include hone hradix

theorem toDigit_of_mem_toDigits {n : Nat} {c : Char} (hc : c ∈ Nat.toDigits radix n) :
    (toDigit radix c).isSome = true := by
  induction n using Nat.strongRecOn with
  | ind n ih =>
      rw [Nat.toDigits_eq_if hone] at hc
      -- one digit, or the digits of the quotient and one more
      split at hc
      · rename_i hlt
        rw [List.mem_singleton.mp hc, toDigit_digitChar hradix hlt]
        rfl
      · rename_i hge
        rcases List.mem_append.mp hc with hc | hc
        · exact ih _ (Nat.div_lt_self (by omega) hone) hc
        · rw [List.mem_singleton.mp hc, toDigit_digitChar hradix (Nat.mod_lt _ (by omega))]
          rfl

theorem value_toDigits (n : Nat) :
    ((Nat.toDigits radix n).filterMap (toDigit radix)).foldl (fun n d => n * radix + d) 0 = n := by
  induction n using Nat.strongRecOn with
  | ind n ih =>
      rw [Nat.toDigits_eq_if hone]
      split
      · rename_i hlt
        simp [toDigit_digitChar hradix hlt]
      · rename_i hge
        rw [List.filterMap_append, List.foldl_append, ih _ (Nat.div_lt_self (by omega) hone)]
        simp [toDigit_digitChar hradix (Nat.mod_lt _ (by omega)), Nat.div_add_mod']

theorem head?_toDigits {n : Nat} (h : (Nat.toDigits radix n).head? = some '0') : n = 0 := by
  induction n using Nat.strongRecOn with
  | ind n ih =>
      rw [Nat.toDigits_eq_if hone] at h
      split at h
      · rename_i hlt
        have hdigit := toDigit_digitChar hradix hlt
        rw [Option.some.inj h] at hdigit
        have hzero := toDigit_digitChar hradix (show 0 < radix by omega)
        exact (Option.some.inj (hzero.symm.trans hdigit)).symm
      · rename_i hge
        -- the quotient begins with the zero, so it is zero, but then there is one digit
        rw [List.head?_append_of_ne_nil _ (Nat.toDigits_ne_nil)] at h
        have hdiv := ih _ (Nat.div_lt_self (by omega) hone) h
        have := (Nat.div_eq_zero_iff_lt (by omega)).mp hdiv
        omega

/-- A printed number is read back, up to what follows it. -/
theorem readNumber_toDigits {maxDigits limit n : Nat} {zero : Bool} {rest : List Char}
    (hpos : 0 < maxDigits) (hlen : n < radix ^ maxDigits) (hlimit : n < limit)
    (hrest : ∀ c, rest.head? = some c → toDigit radix c = none) :
    readNumber radix (some maxDigits) zero limit (Nat.toDigits radix n ++ rest)
      = some (n, rest) := by
  have htake : (Nat.toDigits radix n ++ rest).takeWhile (fun c => (toDigit radix c).isSome)
      = Nat.toDigits radix n := by
    rw [List.takeWhile_append_of_pos fun c hc => toDigit_of_mem_toDigits hone hradix hc]
    cases rest with
    | nil => simp
    | cons c rest =>
        rw [List.takeWhile_cons_of_neg (by simp [hrest c rfl]), List.append_nil]
  have hshort : (Nat.toDigits radix n).length ≤ maxDigits :=
    (Nat.length_toDigits_le_iff hone hpos).mpr hlen
  unfold readNumber
  simp only [htake, value_toDigits hone hradix]
  rw [if_neg, if_neg, if_pos hlimit]
  · simp
  · -- only zero is printed with a leading zero, and it has one digit
    intro hmore
    obtain ⟨-, hhead, hmany⟩ := hmore
    rw [head?_toDigits hone hradix hhead, Nat.toDigits_zero] at hmany
    simp at hmany
  · simp
    omega

end

/-- A reader of numbers only takes digits away. -/
theorem readNumber_suffix {radix : Nat} {maxDigits : Option Nat} {zero : Bool} {limit n : Nat}
    {cs rest : List Char} (h : readNumber radix maxDigits zero limit cs = some (n, rest)) :
    rest <:+ cs := by
  unfold readNumber at h
  dsimp only at h
  split at h
  · cases h
  · split at h
    · cases h
    · split at h
      · obtain ⟨-, rfl⟩ := Prod.mk.inj (Option.some.inj h)
        exact List.drop_suffix _ _
      · cases h

theorem readNumber_of_head {radix : Nat} {maxDigits : Option Nat} {zero : Bool} {limit : Nat}
    {cs : List Char} (h : ∀ c, cs.head? = some c → toDigit radix c = none) :
    readNumber radix maxDigits zero limit cs = none := by
  have htake : cs.takeWhile (fun c => (toDigit radix c).isSome) = [] := by
    cases cs with
    | nil => rfl
    | cons c cs => rw [List.takeWhile_cons_of_neg (by simp [h c rfl])]
  unfold readNumber
  simp only [htake, true_or, if_true]

/-! ## §2. IPv4. -/

variable {p : IpParser}

/-- No IPv4 address is read from characters without a dot. -/
theorem readIpv4_of_not_mem {cs : List Char} (h : '.' ∉ cs) : readIpv4 p cs = none := by
  unfold readIpv4
  dsimp only
  cases hfirst : readSeparator '.' 0 (readNumber 10 (some 3) p.allowZeroPrefix 256) cs with
  | none => rfl
  | some first =>
      obtain ⟨a, rest⟩ := first
      -- the second octet needs a dot, which is not among what is left
      have hsuffix : rest <:+ cs := readNumber_suffix hfirst
      have hsecond :
          readSeparator '.' 1 (readNumber 10 (some 3) p.allowZeroPrefix 256) rest = none := by
        show (readChar '.' rest).bind _ = none
        cases rest with
        | nil => rfl
        | cons c rest =>
            have hc : c ≠ '.' := fun hc => h (hc ▸ hsuffix.subset List.mem_cons_self)
            simp [readChar, hc]
      show (readSeparator '.' 1 (readNumber 10 (some 3) p.allowZeroPrefix 256) rest).bind _ = none
      rw [hsecond]
      rfl

/-- Nor from characters that do not begin with a digit. -/
theorem readIpv4_of_head {cs : List Char} (h : ∀ c, cs.head? = some c → toDigit 10 c = none) :
    readIpv4 p cs = none := by
  show (readNumber 10 (some 3) p.allowZeroPrefix 256 cs).bind _ = none
  rw [readNumber_of_head h]
  rfl

theorem toDigit_dot {radix : Nat} : toDigit radix '.' = none := by
  unfold toDigit
  rfl

/-- A dot ends a number. -/
theorem toDigit_of_head_dot {radix : Nat} {cs : List Char} {c : Char}
    (hc : ('.' :: cs).head? = some c) : toDigit radix c = none := by
  rw [← Option.some.inj hc]
  exact toDigit_dot

/-- So does a colon. -/
theorem toDigit_of_head_colon {radix : Nat} {cs : List Char} {c : Char}
    (hc : (':' :: cs).head? = some c) : toDigit radix c = none := by
  rw [← Option.some.inj hc]
  unfold toDigit
  rfl

/-- An octet is read back before a dot or the end. -/
theorem readOctet {n : Nat} (hn : n < 256) {rest : List Char}
    (hrest : ∀ c, rest.head? = some c → toDigit 10 c = none) :
    readNumber 10 (some 3) p.allowZeroPrefix 256 (Nat.toDigits 10 n ++ rest) = some (n, rest) :=
  readNumber_toDigits (by decide) (by decide) (by decide) (by omega) hn hrest

theorem readIpv4_showIpv4 (bits : BitVec 32) (rest : List Char)
    (hrest : ∀ c, rest.head? = some c → toDigit 10 c = none) :
    readIpv4 p ((showIpv4 bits).toList ++ rest) = some (bits, rest) := by
  have hoctet : ∀ i, (bits.extractLsb' i 8).toNat < 256 := fun i => (bits.extractLsb' i 8).isLt
  have hdot : ∀ cs : List Char, ∀ c, ('.' :: cs).head? = some c → toDigit 10 c = none :=
    fun _ _ hc => toDigit_of_head_dot hc
  have hshow : (showIpv4 bits).toList ++ rest
      = Nat.toDigits 10 (bits.extractLsb' 24 8).toNat ++ '.' ::
        (Nat.toDigits 10 (bits.extractLsb' 16 8).toNat ++ '.' ::
          (Nat.toDigits 10 (bits.extractLsb' 8 8).toNat ++ '.' ::
            (Nat.toDigits 10 (bits.extractLsb' 0 8).toNat ++ rest))) := by
    simp [showIpv4]
  have hbits : BitVec.ofNat 32 ((((bits.extractLsb' 24 8).toNat * 256
      + (bits.extractLsb' 16 8).toNat) * 256 + (bits.extractLsb' 8 8).toNat) * 256
        + (bits.extractLsb' 0 8).toNat) = bits := by
    apply BitVec.eq_of_toNat_eq
    have := bits.isLt
    simp only [BitVec.toNat_ofNat, BitVec.extractLsb'_toNat, Nat.shiftRight_eq_div_pow]
    omega
  rw [hshow]
  unfold readIpv4
  simp only [readSeparator, readChar, if_true, Nat.succ_ne_zero, if_false, Option.bind_some,
    readOctet (hoctet _) (hdot _), readOctet (hoctet _) hrest, bind, pure, hbits]

/-! ## §3. Lists of groups. -/

/-- The groups in hexadecimal, the first of them group number `i`. -/
def groupsText (i : Nat) : List Nat → List Char
  | [] => []
  | g :: gs => (if i = 0 then [] else [':']) ++ Nat.toDigits 16 g ++ groupsText (i + 1) gs

theorem groupsText_cons (i g : Nat) (gs : List Nat) :
    groupsText i (g :: gs)
      = (if i = 0 then [] else [':']) ++ Nat.toDigits 16 g ++ groupsText (i + 1) gs := rfl

theorem groupsText_succ (i j : Nat) (gs : List Nat) :
    groupsText (i + 1) gs = groupsText (j + 1) gs := by
  induction gs generalizing i j with
  | nil => rfl
  | cons g gs ih =>
      rw [groupsText_cons, groupsText_cons, ih (i + 1) (j + 1)]
      rfl

theorem showGroups_toList (gs : List Nat) : (showGroups gs).toList = groupsText 0 gs := by
  have htail : ∀ g gs, ([':'] : List Char).intercalate (((g :: gs).map fun g =>
      Nat.toDigits 16 g)) = Nat.toDigits 16 g ++ groupsText 1 gs := by
    intro g gs
    induction gs generalizing g with
    | nil => simp [groupsText]
    | cons h gs ih =>
        rw [List.map_cons, List.intercalate_cons_of_ne_nil (by simp), ih h, groupsText_cons,
          groupsText_succ 1 0]
        simp
  unfold showGroups
  rw [String.toList_intercalate, List.map_map]
  cases gs with
  | nil => rfl
  | cons g gs =>
      have hmap : (g :: gs).map (String.toList ∘ fun g => String.ofList (Nat.toDigits 16 g))
          = (g :: gs).map fun g => Nat.toDigits 16 g := by
        simp
      rw [hmap]
      exact htail g gs

theorem not_dot_of_toDigits {g : Nat} : '.' ∉ Nat.toDigits 16 g := by
  intro h
  have hdigit := toDigit_of_mem_toDigits (by decide) (by decide) h
  rw [toDigit_dot] at hdigit
  cases hdigit

theorem not_dot_of_groupsText {i : Nat} {gs : List Nat} : '.' ∉ groupsText i gs := by
  induction gs generalizing i with
  | nil => simp [groupsText]
  | cons g gs ih =>
      rw [groupsText_cons]
      simp only [List.mem_append, not_or]
      refine ⟨⟨?_, not_dot_of_toDigits⟩, ih⟩
      split <;> simp

/-- Without a dot no embedded address is read. -/
theorem readSeparator_readIpv4 {i : Nat} {cs : List Char} (h : '.' ∉ cs) :
    readSeparator ':' i (readIpv4 p) cs = none := by
  unfold readSeparator
  split
  · exact readIpv4_of_not_mem h
  · cases cs with
    | nil => rfl
    | cons c cs =>
        unfold readChar
        split
        · rfl
        · rename_i d ds heq
          obtain ⟨rfl, rfl⟩ := List.cons.inj heq
          split
          · exact readIpv4_of_not_mem fun hmem => h (List.mem_cons_of_mem _ hmem)
          · rfl

/-- Groups are read back up to where no further group is wanted or found. -/
theorem readGroups_groupsText {gs : List Nat} (hgs : ∀ g ∈ gs, g < 65536) (i left : Nat)
    (hleft : gs.length ≤ left) (rest : List Char) (hdot : '.' ∉ rest)
    (hrest : ∀ c, rest.head? = some c → toDigit 16 c = none)
    (hstop : left = gs.length ∨
      readSeparator ':' (i + gs.length) (readNumber 16 (some 4) true 65536) rest = none) :
    readGroups p i left (groupsText i gs ++ rest) = (gs, false, rest) := by
  induction gs generalizing i left with
  | nil =>
      cases left with
      | zero => rfl
      | succ left =>
          -- another group is wanted, and none is found
          have hnone := hstop.resolve_left (by simp)
          unfold readGroups
          rw [show groupsText i [] ++ rest = rest from rfl, readSeparator_readIpv4 hdot]
          simp only [ite_self, show i + ([] : List Nat).length = i from rfl] at hnone ⊢
          simp only [hnone]
  | cons g gs ih =>
      obtain ⟨left, rfl⟩ : ∃ k, left = k + 1 := ⟨left - 1, by simp at hleft; omega⟩
      have hg : g < 65536 := hgs g List.mem_cons_self
      have hnodot : '.' ∉ groupsText i (g :: gs) ++ rest := by
        rw [List.mem_append, not_or]
        exact ⟨not_dot_of_groupsText, hdot⟩
      -- what follows the group is a separator or what follows the list
      have hnext : ∀ c, (groupsText (i + 1) gs ++ rest).head? = some c → toDigit 16 c = none := by
        intro c hc
        cases gs with
        | nil => exact hrest c hc
        | cons h gs => exact toDigit_of_head_colon hc
      have hgroup : readSeparator ':' i (readNumber 16 (some 4) true 65536)
          (groupsText i (g :: gs) ++ rest) = some (g, groupsText (i + 1) gs ++ rest) := by
        have hnumber : readNumber 16 (some 4) true 65536
            (Nat.toDigits 16 g ++ (groupsText (i + 1) gs ++ rest))
              = some (g, groupsText (i + 1) gs ++ rest) :=
          readNumber_toDigits (by decide) (by decide) (by decide) (by omega) hg hnext
        rw [groupsText_cons]
        unfold readSeparator
        split
        · simpa using hnumber
        · simpa [readChar] using hnumber
      have htail := ih (fun h hh => hgs h (List.mem_cons_of_mem _ hh)) (i + 1) left
        (by simpa using hleft) (by
          rcases hstop with hstop | hstop
          · exact Or.inl (by simpa using hstop)
          · refine Or.inr ?_
            rw [show i + 1 + gs.length = i + (g :: gs).length by simp; omega]
            exact hstop)
      unfold readGroups
      rw [readSeparator_readIpv4 hnodot]
      simp only [ite_self, hgroup, htail]

/-! ## §4. The run of zeros. -/

/-- The groups of a run, given by its start and its length, are zero. -/
def ZeroRun (groups : List Nat) (run : Nat × Nat) : Prop :=
  run.1 + run.2 ≤ groups.length ∧ ∀ k, run.1 ≤ k → k < run.1 + run.2 → groups[k]? = some 0

theorem ZeroRun.snoc {groups : List Nat} {run : Nat × Nat} (h : ZeroRun groups run) (g : Nat) :
    ZeroRun (groups ++ [g]) run := by
  refine ⟨by simp; have := h.1; omega, fun k hlow hhigh => ?_⟩
  have := h.1
  rw [List.getElem?_append_left (by omega)]
  exact h.2 k hlow hhigh

/-- A run at the end grows by a zero; an empty one starts there. -/
theorem ZeroRun.extend {groups : List Nat} {run : Nat × Nat} (h : ZeroRun groups run)
    (hend : run.2 = 0 ∨ run.1 + run.2 = groups.length) :
    ZeroRun (groups ++ [0]) (if run.2 = 0 then groups.length else run.1, run.2 + 1) ∧
      (if run.2 = 0 then groups.length else run.1) + (run.2 + 1) = groups.length + 1 := by
  obtain ⟨start, len⟩ := run
  simp only at hend ⊢
  by_cases hlen : len = 0
  · subst hlen
    refine ⟨⟨by simp, fun k hlow hhigh => ?_⟩, by simp⟩
    simp only [if_true] at hlow hhigh
    obtain rfl : k = groups.length := by omega
    simp
  · have hlast := hend.resolve_left hlen
    rw [if_neg hlen]
    refine ⟨⟨by simp; omega, fun k hlow hhigh => ?_⟩, by omega⟩
    dsimp only at hlow hhigh
    -- the old part of the run, or the zero that joins it
    by_cases hk : k < groups.length
    · rw [List.getElem?_append_left hk]
      exact h.2 k hlow (by show k < start + len; omega)
    · obtain rfl : k = groups.length := by omega
      simp

/-- One step of the search: the longest run so far, and the current one. -/
def zeroRunScan (acc : (Nat × Nat) × (Nat × Nat)) (g : Nat × Nat) : (Nat × Nat) × (Nat × Nat) :=
  let (longest, current) := acc
  if g.1 = 0 then
    let start := if current.2 = 0 then g.2 else current.1
    let run := (start, current.2 + 1)
    (if longest.2 < run.2 then run else longest, run)
  else (longest, (0, 0))

/-- Both runs are runs of zeros, and a current run ends at the end. -/
def Scanned (groups : List Nat) (acc : (Nat × Nat) × (Nat × Nat)) : Prop :=
  ZeroRun groups acc.1 ∧ ZeroRun groups acc.2 ∧
    (acc.2.2 = 0 ∨ acc.2.1 + acc.2.2 = groups.length)

theorem Scanned.step {groups : List Nat} {acc : (Nat × Nat) × (Nat × Nat)} (h : Scanned groups acc)
    (g : Nat) : Scanned (groups ++ [g]) (zeroRunScan acc (g, groups.length)) := by
  obtain ⟨longest, current⟩ := acc
  obtain ⟨hlongest, hcurrent, hend⟩ := h
  by_cases hg : g = 0
  · subst hg
    obtain ⟨hrun, hlength⟩ := hcurrent.extend hend
    simp only [zeroRunScan, if_true]
    refine ⟨?_, hrun, Or.inr (by simpa using hlength)⟩
    dsimp only
    split
    · exact hrun
    · exact hlongest.snoc 0
  · simp only [zeroRunScan, hg, if_false]
    exact ⟨hlongest.snoc g, ⟨by simp, fun k _ h => absurd h (by simp)⟩, Or.inl rfl⟩

theorem zeroRun_longestZeroRun (groups : List Nat) : ZeroRun groups (longestZeroRun groups) := by
  suffices h : Scanned groups (groups.zipIdx.foldl zeroRunScan ((0, 0), (0, 0))) from h.1
  induction groups using List.reverseRecOn with
  | nil =>
      have hempty : ZeroRun [] (0, 0) := ⟨Nat.le_refl _, fun k _ h => absurd h (by simp)⟩
      exact ⟨hempty, hempty, Or.inl rfl⟩
  | append_singleton groups g ih =>
      rw [List.zipIdx_append, List.foldl_append, List.zipIdx_singleton, Nat.zero_add]
      exact ih.step g

/-- The list is what stands before the run, zeros, and what stands behind. -/
theorem ZeroRun.split {groups : List Nat} {start len : Nat} (h : ZeroRun groups (start, len)) :
    groups = groups.take start ++ List.replicate len 0 ++ groups.drop (start + len) := by
  have hlen := h.1
  have hzeros : (groups.drop start).take len = List.replicate len 0 := by
    apply List.ext_getElem?
    intro k
    rw [List.getElem?_take, List.getElem?_drop, List.getElem?_replicate]
    split
    · rename_i hk
      exact h.2 (start + k) (by simp) (by simpa using hk)
    · rfl
  rw [← hzeros, List.append_assoc, ← List.drop_drop, List.take_append_drop,
    List.take_append_drop]

/-! ## §5. IPv6, and both families. -/

theorem length_segments (bits : BitVec 128) : (segments bits).length = 8 := rfl

theorem segments_lt {bits : BitVec 128} : ∀ g ∈ segments bits, g < 65536 := by
  intro g hg
  obtain ⟨i, -, rfl⟩ := List.mem_map.mp hg
  exact (bits.extractLsb' i 16).isLt

theorem ofSegments_segments (bits : BitVec 128) : ofSegments (segments bits) = bits := by
  apply BitVec.eq_of_toNat_eq
  have := bits.isLt
  simp only [ofSegments, segments, List.map_cons, List.map_nil, List.foldl_cons, List.foldl_nil,
    BitVec.toNat_ofNat, BitVec.extractLsb'_toNat, Nat.shiftRight_eq_div_pow]
  omega

theorem readIpv6_groups {groups : List Nat} (hgs : ∀ g ∈ groups, g < 65536)
    (hlen : groups.length = 8) :
    readIpv6 p (groupsText 0 groups) = some (ofSegments groups, []) := by
  have hread := readGroups_groupsText (p := p) hgs 0 8 (Nat.le_of_eq hlen) [] (by simp) (by simp)
    (Or.inl hlen.symm)
  rw [List.append_nil] at hread
  unfold readIpv6
  simp only [hread, hlen, if_true, pure]

theorem IpParser.elided_le (p : IpParser) : p.elided ≤ 1 := by
  cases p <;> decide

/-- The groups on both sides of a run of zeros that is left out. -/
theorem readIpv6_elided {head tail : List Nat} (hhead : ∀ g ∈ head, g < 65536)
    (htail : ∀ g ∈ tail, g < 65536) (hlen : head.length + tail.length < 8) :
    readIpv6 p (groupsText 0 head ++ "::".toList ++ groupsText 0 tail)
      = some (ofSegments (head ++ List.replicate (8 - head.length - tail.length) 0 ++ tail), []) := by
  have hfirst := readGroups_groupsText (p := p) hhead 0 8 (by omega)
    ("::".toList ++ groupsText 0 tail)
    (by
      rw [List.mem_append, not_or]
      exact ⟨by decide, not_dot_of_groupsText⟩)
    (fun c hc => toDigit_of_head_colon hc)
    (Or.inr (by
      -- a second separator is no group
      have hcolon : ∀ cs, readNumber 16 (some 4) true 65536 (':' :: cs) = none :=
        fun cs => readNumber_of_head fun c hc => toDigit_of_head_colon hc
      show readSeparator ':' (0 + head.length) _ (':' :: ':' :: groupsText 0 tail) = none
      unfold readSeparator
      split
      · exact hcolon (':' :: groupsText 0 tail)
      · exact hcolon (groupsText 0 tail)))
  have helided := p.elided_le
  have hsecond := readGroups_groupsText (p := p) htail 0 (8 - (head.length + p.elided)) (by omega)
    [] (by simp) (by simp) (Or.inr (by unfold readSeparator; split <;> rfl))
  rw [List.append_nil] at hsecond
  unfold readIpv6
  rw [List.append_assoc, hfirst]
  have hne : head.length ≠ 8 := by omega
  have htext : "::".toList ++ groupsText 0 tail = ':' :: ':' :: groupsText 0 tail := rfl
  simp only [hne, if_false, htext, Bool.false_eq_true, readChar, if_true, bind, Option.bind_some,
    hsecond, pure]

theorem readIpv6_mapped (v4 : BitVec 32) :
    readIpv6 p ("::ffff:".toList ++ (showIpv4 v4).toList)
      = some (ofSegments (List.replicate 5 0 ++ [65535, v4.toNat / 65536, v4.toNat % 65536]),
          []) := by
  have hv4 := readIpv4_showIpv4 (p := p) v4 [] (by simp)
  rw [List.append_nil] at hv4
  have hgroup : readNumber 16 (some 4) true 65536
      ('f' :: 'f' :: 'f' :: 'f' :: ':' :: (showIpv4 v4).toList)
        = some (65535, ':' :: (showIpv4 v4).toList) :=
    readNumber_toDigits (n := 65535) (by decide) (by decide) (by decide) (by decide) (by decide)
      fun c hc => toDigit_of_head_colon hc
  have hletter : readIpv4 p ('f' :: 'f' :: 'f' :: 'f' :: ':' :: (showIpv4 v4).toList) = none :=
    readIpv4_of_head fun c hc => by
      rw [← Option.some.inj hc]
      rfl
  -- the two separators in front hold no group
  have hnogroup : ∀ cs, readGroups p 0 8 (':' :: cs) = ([], false, ':' :: cs) := by
    intro cs
    have hv4 : readIpv4 p (':' :: cs) = none :=
      readIpv4_of_head fun c hc => toDigit_of_head_colon hc
    have hnumber : readNumber 16 (some 4) true 65536 (':' :: cs) = none :=
      readNumber_of_head fun c hc => toDigit_of_head_colon hc
    unfold readGroups
    simp only [readSeparator, if_true, hv4, ite_self, hnumber]
  have haddress : ∀ left, readGroups p 1 (left + 2) (':' :: (showIpv4 v4).toList)
      = ([v4.toNat / 65536, v4.toNat % 65536], true, []) := by
    intro left
    unfold readGroups
    simp [readSeparator, readChar, hv4]
  have hgroups : ∀ left,
      readGroups p 0 (left + 3) ('f' :: 'f' :: 'f' :: 'f' :: ':' :: (showIpv4 v4).toList)
        = ([65535, v4.toNat / 65536, v4.toNat % 65536], true, []) := by
    intro left
    unfold readGroups
    simp only [readSeparator, if_true, hletter, hgroup, ite_self, Nat.zero_add, haddress]
  have htext : "::ffff:".toList ++ (showIpv4 v4).toList
      = ':' :: ':' :: 'f' :: 'f' :: 'f' :: 'f' :: ':' :: (showIpv4 v4).toList := rfl
  -- either limit leaves room for three groups
  have hlimit : 8 - p.elided = 5 - p.elided + 3 := by
    have := p.elided_le
    omega
  unfold readIpv6
  rw [htext, hnogroup]
  simp [readChar, hlimit, hgroups]

/-- The segments of a mapped address. -/
theorem ofSegments_mapped {bits : BitVec 128} (h : bits.extractLsb' 32 96 = 0xffff#96) :
    ofSegments (List.replicate 5 0 ++ [65535, (bits.extractLsb' 0 32).toNat / 65536,
      (bits.extractLsb' 0 32).toNat % 65536]) = bits := by
  apply BitVec.eq_of_toNat_eq
  have hhigh := congrArg BitVec.toNat h
  have := bits.isLt
  simp only [BitVec.extractLsb'_toNat, Nat.shiftRight_eq_div_pow, BitVec.toNat_ofNat] at hhigh
  simp only [ofSegments, List.replicate, List.cons_append, List.nil_append, List.foldl_cons,
    List.foldl_nil, BitVec.toNat_ofNat, BitVec.extractLsb'_toNat, Nat.shiftRight_eq_div_pow]
  omega

/-- A run of zeros that was left out is filled in again. -/
theorem readIpv6_zeroRun {groups : List Nat} {start len : Nat} (hgs : ∀ g ∈ groups, g < 65536)
    (hlength : groups.length = 8) (hrun : ZeroRun groups (start, len)) (hlen : 1 < len) :
    readIpv6 p (groupsText 0 (groups.take start) ++ "::".toList ++
        groupsText 0 (groups.drop (start + len)))
      = some (ofSegments groups, []) := by
  have hbound : start + len ≤ 8 := hlength ▸ hrun.1
  rw [readIpv6_elided (fun g hg => hgs g (List.mem_of_mem_take hg))
    (fun g hg => hgs g (List.mem_of_mem_drop hg))]
  · rw [List.length_take, List.length_drop, hlength]
    have hzeros : 8 - min start 8 - (8 - (start + len)) = len := by
      omega
    rw [hzeros, ← hrun.split]
  · rw [List.length_take, List.length_drop, hlength]
    omega

theorem readIpv6_showIpv6 (bits : BitVec 128) :
    readIpv6 p (showIpv6 bits).toList = some (bits, []) := by
  unfold showIpv6
  split
  · rename_i hmapped
    rw [String.toList_append, readIpv6_mapped, ofSegments_mapped hmapped]
  · have hrun := zeroRun_longestZeroRun (segments bits)
    dsimp only
    generalize longestZeroRun (segments bits) = run at hrun ⊢
    obtain ⟨start, len⟩ := run
    dsimp only
    split
    · rename_i hlen
      rw [String.toList_append, String.toList_append, showGroups_toList, showGroups_toList,
        readIpv6_zeroRun segments_lt (length_segments bits) hrun hlen, ofSegments_segments]
    · -- a single zero is printed as it is
      rw [showGroups_toList, readIpv6_groups segments_lt (length_segments bits),
        ofSegments_segments]

/-- No IPv4 address stands at the front of a printed IPv6 one. -/
theorem readIpv4_showIpv6 (bits : BitVec 128) : readIpv4 p (showIpv6 bits).toList = none := by
  unfold showIpv6
  split
  · refine readIpv4_of_head fun c hc => ?_
    rw [String.toList_append] at hc
    exact toDigit_of_head_colon hc
  · apply readIpv4_of_not_mem
    dsimp only
    split
    · rw [String.toList_append, String.toList_append, showGroups_toList, showGroups_toList,
        List.mem_append, List.mem_append, not_or, not_or]
      exact ⟨⟨not_dot_of_groupsText, by decide⟩, not_dot_of_groupsText⟩
    · rw [showGroups_toList]
      exact not_dot_of_groupsText

/-- What is printed is read back. -/
theorem IpAddr.fromStr_toString (a : IpAddr) : IpAddr.fromStr (toString a) = some a := by
  unfold IpAddr.fromStr parseWith readIpAddr
  cases a with
  | v4 bits =>
      have hread := readIpv4_showIpv4 (p := .std) bits [] (by simp)
      rw [List.append_nil] at hread
      simp only [toString, hread]
  | v6 bits =>
      simp only [toString, readIpv4_showIpv6, readIpv6_showIpv6, Option.map_some]

example : IpAddr.fromStr "10.50.1.2" = some (.v4 0x0a320102#32) := by decide
example : IpAddr.fromStr "::ffff:1.2.3.4" = some (.v6 0xffff01020304#128) := by decide
example : IpAddr.fromStr "10.050.1.2" = none := by decide

/-! ## §6. What stands behind an address. -/

/-- What this reader reads ends before `c`: with `c` and more behind the
characters it reads the same. -/
def EndsAt {α : Type} (c : Char) (read : List Char → Option (α × List Char)) : Prop :=
  ∀ cs rest, read (cs ++ c :: rest) = (read cs).map fun r => (r.1, r.2 ++ c :: rest)

section

variable {α β : Type} {c : Char}

theorem EndsAt.bind {read : List Char → Option (α × List Char)}
    {next : α → List Char → Option (β × List Char)} (h : EndsAt c read)
    (hnext : ∀ a, EndsAt c (next a)) :
    EndsAt c fun cs => (read cs).bind fun r => next r.1 r.2 := by
  intro cs rest
  show (read (cs ++ c :: rest)).bind _ = ((read cs).bind _).map _
  rw [h cs rest]
  cases read cs with
  | none => rfl
  | some r => exact hnext r.1 r.2 rest

theorem EndsAt.pure (a : α) : EndsAt c fun cs => some (a, cs) := by
  intro cs rest
  rfl

/-- A character that is no digit ends a number. -/
theorem readNumber_endsAt {radix : Nat} (hc : toDigit radix c = none) (maxDigits : Option Nat)
    (zero : Bool) (limit : Nat) : EndsAt c (readNumber radix maxDigits zero limit) := by
  intro cs rest
  have htake : (cs ++ c :: rest).takeWhile (fun c => (toDigit radix c).isSome)
      = cs.takeWhile fun c => (toDigit radix c).isSome := by
    induction cs with
    | nil =>
        show (c :: rest).takeWhile _ = []
        rw [List.takeWhile_cons_of_neg (by simp [hc])]
    | cons d cs ih =>
        rw [List.cons_append, List.takeWhile_cons, List.takeWhile_cons, ih]
  have hlen : (cs.takeWhile fun c => (toDigit radix c).isSome).length ≤ cs.length :=
    (List.takeWhile_prefix _).length_le
  unfold readNumber
  simp only [htake]
  split
  · rfl
  · split
    · rfl
    · split
      · rw [List.drop_append_of_le_length hlen]
        rfl
      · rfl

theorem readChar_append {sep : Char} (hsep : c ≠ sep) (cs rest : List Char) :
    readChar sep (cs ++ c :: rest) = (readChar sep cs).map fun cs => cs ++ c :: rest := by
  cases cs with
  | nil => exact if_neg hsep
  | cons d cs =>
      show (if d = sep then some (cs ++ c :: rest) else none)
        = (if d = sep then some cs else none).map _
      split <;> rfl

theorem readSeparator_endsAt {sep : Char} (hsep : c ≠ sep) (i : Nat)
    {inner : List Char → Option (α × List Char)} (h : EndsAt c inner) :
    EndsAt c (readSeparator sep i inner) := by
  intro cs rest
  unfold readSeparator
  split
  · exact h cs rest
  · rw [readChar_append hsep]
    cases readChar sep cs with
    | none => rfl
    | some cs => exact h cs rest

variable (h10 : toDigit 10 c = none) (h16 : toDigit 16 c = none) (hdot : c ≠ '.') (hcolon : c ≠ ':')

include h10 hdot in
theorem readIpv4_endsAt : EndsAt c (readIpv4 p) := by
  have hoctet := fun i =>
    readSeparator_endsAt hdot i (readNumber_endsAt h10 (some 3) p.allowZeroPrefix 256)
  exact (hoctet 0).bind fun a => (hoctet 1).bind fun b => (hoctet 2).bind fun c' =>
    (hoctet 3).bind fun d => .pure (BitVec.ofNat 32 (((a * 256 + b) * 256 + c') * 256 + d))

include h10 h16 hdot hcolon

theorem readGroups_append (i left : Nat) (cs rest : List Char) :
    readGroups p i left (cs ++ c :: rest)
      = ((readGroups p i left cs).1, (readGroups p i left cs).2.1,
          (readGroups p i left cs).2.2 ++ c :: rest) := by
  induction left generalizing i cs with
  | zero => rfl
  | succ left ih =>
      have hv4 := readSeparator_endsAt hcolon i (readIpv4_endsAt (p := p) h10 hdot) cs rest
      have hgroup :=
        readSeparator_endsAt hcolon i (readNumber_endsAt h16 (some 4) true 65536) cs rest
      have hembedded :
          (if 0 < left then readSeparator ':' i (readIpv4 p) (cs ++ c :: rest) else none)
            = (if 0 < left then readSeparator ':' i (readIpv4 p) cs else none).map
                fun r => (r.1, r.2 ++ c :: rest) := by
        split
        · exact hv4
        · rfl
      unfold readGroups
      rw [hembedded, hgroup]
      cases (if 0 < left then readSeparator ':' i (readIpv4 p) cs else none) with
      | some r => rfl
      | none =>
          cases readSeparator ':' i (readNumber 16 (some 4) true 65536) cs with
          | none => rfl
          | some r =>
              show (r.1 :: (readGroups p (i + 1) left (r.2 ++ c :: rest)).1, _, _) = _
              rw [ih]

theorem readIpv6_endsAt : EndsAt c (readIpv6 p) := by
  intro cs rest
  have hgroups := readGroups_append (p := p) h10 h16 hdot hcolon
  unfold readIpv6
  rw [hgroups]
  generalize readGroups p 0 8 cs = r
  obtain ⟨head, headIpv4, cs⟩ := r
  dsimp only
  split
  · rfl
  · split
    · rfl
    · rw [readChar_append hcolon]
      cases readChar ':' cs with
      | none => rfl
      | some cs =>
          simp only [Option.map_some, bind, Option.bind_some, readChar_append hcolon]
          cases readChar ':' cs with
          | none => rfl
          | some cs =>
              simp only [Option.map_some, Option.bind_some, hgroups]
              rfl

end

end StealthNet
