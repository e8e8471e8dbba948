/-
  StealthNet.Daemon.Context
  ─────────────────────────
  WHICH LINK A KEY CONTEXT STANDS FOR.

  The context of a link key joins the ids of its two ends by "<->", the
  smaller id first.  Nothing keeps an id from containing "<->" itself, and
  then one text can be cut into two ids in several ways (`CutAgain`); these
  are the only pairs of ids that share a context.

    • `Identity.deriveSharedKey_eq_ok_iff`   — the context is the HKDF info;
    • `symmetricContext_separates_iff`       — which pairs have contexts of
                                               their own;
    • `symmetricContext_eq_iff_of_plain`     — ids without "<->" do.
-/
import StealthNet.Ideal
import StealthNet.Lib.Separator
import Mathlib.Data.String.Basic
import Mathlib.Data.Sym.Sym2.Order

namespace StealthNet

open Lib.Separator

variable {C : Crates}

/-! ## §1. Keys and contexts. -/

/-- A shared key is expanded from the secret of the exchange, with the context
as info. -/
theorem Identity.deriveSharedKey_eq_ok_iff {identity : Identity} {publicKey : String}
    {context : Bytes} {key : Key} :
    identity.deriveSharedKey C publicKey context = .ok key ↔
      ∃ peer, decodePublicKey C publicKey = .ok peer ∧
        C.hkdfExpand (C.x25519 identity.secret peer) context = some key := by
  unfold Identity.deriveSharedKey
  cases decodePublicKey C publicKey with
  | error e => simp
  | ok peer =>
      cases hexpand : C.hkdfExpand (C.x25519 identity.secret peer) context with
      | none => simp [hexpand]
      | some out => simp [hexpand]

theorem symmetricContext_eq (a b : String) :
    symmetricContext a b = "stealthnet:" ++ min a b ++ "<->" ++ max a b := by
  unfold symmetricContext
  rw [min_def, max_def]
  split
  · rfl
  · rfl

theorem symmetricContext_toList (a b : String) :
    (symmetricContext a b).toList
      = "stealthnet:".toList ++ ((min a b).toList ++ "<->".toList ++ (max a b).toList) := by
  rw [symmetricContext_eq]
  simp only [String.toList_append, List.append_assoc]

/-- The separator of the two ids does not overlap itself. -/
theorem unbordered_arrow : Unbordered "<->".toList := by decide

/-! ## §2. Pairs of ids. -/

/-- The ids `c` and `d` are the text of `a` and `b`, cut at a later separator. -/
def CutAgain (a b c d : String) : Prop :=
  ∃ x, min c d = min a b ++ "<->" ++ x ∧ max a b = x ++ "<->" ++ max c d

variable {a b c d : String}

theorem cutAgain_iff :
    CutAgain a b c d ↔ Resplits "<->".toList (min a b).toList (max a b).toList
      (min c d).toList (max c d).toList := by
  constructor
  · intro h
    obtain ⟨x, hmin, hmax⟩ := h
    refine ⟨x.toList, ?_, ?_⟩
    · rw [hmin, String.toList_append, String.toList_append]
    · rw [hmax, String.toList_append, String.toList_append]
  · intro h
    obtain ⟨x, hmin, hmax⟩ := h
    have hx : (String.ofList x).toList = x := String.toList_ofList
    refine ⟨String.ofList x, ?_, ?_⟩
    · apply String.toList_inj.mp
      rw [hmin, String.toList_append, String.toList_append, hx]
    · apply String.toList_inj.mp
      rw [hmax, String.toList_append, String.toList_append, hx]

/-- Two unordered pairs are one exactly if they have the same ends. -/
theorem pair_eq_iff : s(a, b) = s(c, d) ↔ min a b = min c d ∧ max a b = max c d :=
  Sym2.inf_eq_inf_and_sup_eq_sup.symm

/-- Two pairs of ids share a context exactly if they are one, or one is the
other cut again. -/
theorem symmetricContext_eq_iff :
    symmetricContext a b = symmetricContext c d ↔
      s(a, b) = s(c, d) ∨ CutAgain a b c d ∨ CutAgain c d a b := by
  rw [← String.toList_inj, symmetricContext_toList, symmetricContext_toList,
    List.append_cancel_left_eq, append_sep_eq_iff unbordered_arrow, String.toList_inj,
    String.toList_inj, pair_eq_iff, cutAgain_iff, cutAgain_iff]

/-- Ids without "<->" are told apart. -/
theorem symmetricContext_eq_iff_of_plain (hab : ¬ "<->".toList <:+: (max a b).toList)
    (hcd : ¬ "<->".toList <:+: (max c d).toList) :
    symmetricContext a b = symmetricContext c d ↔ s(a, b) = s(c, d) := by
  rw [← String.toList_inj, symmetricContext_toList, symmetricContext_toList,
    List.append_cancel_left_eq, append_sep_eq_iff_of_plain unbordered_arrow hab hcd,
    String.toList_inj, String.toList_inj, pair_eq_iff]

theorem CutAgain.pair_ne (h : CutAgain a b c d) : s(a, b) ≠ s(c, d) := by
  intro heq
  have hmin := (pair_eq_iff.mp heq).1
  exact (cutAgain_iff.mp h).ne (by decide) (congrArg String.toList hmin)

/-! ## §3. Separation. -/

/-- A key that was expanded with an info. -/
def ExpandedWith (C : Crates) (key : Key) (info : Bytes) : Prop :=
  ∃ secret, C.hkdfExpand secret info = some key

/-- Two pairs of ids share their context only if they are one pair, and the
keys of different pairs are expanded with different infos. -/
structure Separates (C : Crates) (a b c d : String) : Prop where
  context : symmetricContext a b = symmetricContext c d ↔ s(a, b) = s(c, d)
  keys : s(a, b) ≠ s(c, d) →
    ∀ (identity identity' : Identity) (publicKey publicKey' : String) (key key' : Key),
      identity.deriveSharedKey C publicKey (asBytes (symmetricContext a b)) = .ok key →
      identity'.deriveSharedKey C publicKey' (asBytes (symmetricContext c d)) = .ok key' →
      ExpandedWith C key (asBytes (symmetricContext a b)) ∧
        ExpandedWith C key' (asBytes (symmetricContext c d)) ∧
        asBytes (symmetricContext a b) ≠ asBytes (symmetricContext c d)

/-- A shared key is expanded with its context. -/
theorem Identity.expandedWith {identity : Identity} {publicKey : String} {context : Bytes}
    {key : Key} (h : identity.deriveSharedKey C publicKey context = .ok key) :
    ExpandedWith C key context := by
  obtain ⟨peer, -, hexpand⟩ := Identity.deriveSharedKey_eq_ok_iff.mp h
  exact ⟨_, hexpand⟩

/-- The contexts of four ids separate exactly if neither pair is the other cut
again. -/
theorem symmetricContext_separates_iff (C : Crates) (a b c d : String) :
    Separates C a b c d ↔ ¬ CutAgain a b c d ∧ ¬ CutAgain c d a b := by
  constructor
  · intro h
    constructor
    · intro hcut
      exact hcut.pair_ne (h.context.mp (symmetricContext_eq_iff.mpr (Or.inr (Or.inl hcut))))
    · intro hcut
      have heq := h.context.mp (symmetricContext_eq_iff.mpr (Or.inr (Or.inr hcut)))
      exact hcut.pair_ne heq.symm
  · intro h
    have hcontext : symmetricContext a b = symmetricContext c d ↔ s(a, b) = s(c, d) := by
      rw [symmetricContext_eq_iff]
      simp only [h.1, h.2, or_false]
    refine ⟨hcontext, ?_⟩
    intro hne identity identity' publicKey publicKey' key key' hkey hkey'
    refine ⟨Identity.expandedWith hkey, Identity.expandedWith hkey', ?_⟩
    intro hinfo
    exact hne (hcontext.mp (asBytes_inj.mp hinfo))

/-- Two links with one context: "<->" inside the one id, or inside the other. -/
theorem context_of_two_links :
    symmetricContext "a" "b<->c" = symmetricContext "a<->b" "c" ∧
      s("a", "b<->c") ≠ s("a<->b", "c") ∧
      ¬ Separates Crates.ideal "a" "b<->c" "a<->b" "c" := by
  have hcontext : symmetricContext "a" "b<->c" = symmetricContext "a<->b" "c" := by
    decide +kernel
  have hpairs : s("a", "b<->c") ≠ s("a<->b", "c") := by
    decide
  refine ⟨hcontext, hpairs, ?_⟩
  intro hseparates
  exact hpairs (hseparates.context.mp hcontext)

end StealthNet
