/-
  StealthNet.Lib.HashMap
  ──────────────────────
  FINITE MAPS FILLED IN A LOOP.

  A map is an association list whose keys occur once (Mathlib's `AList`).
  `fill m f g l` inserts `f x ↦ g x` for the elements of `l` in order, so a
  later element overwrites an earlier one with the same key.
-/
import Mathlib.Data.List.AList
import Mathlib.Data.List.Induction

namespace Lib

/-- A finite map; the order of its entries says nothing. -/
abbrev HashMap (κ ν : Type) := AList (fun _ : κ => ν)

namespace HashMap

variable {κ ν α : Type}

/-- The values of a map, one for each key. -/
def values (m : HashMap κ ν) : List ν := m.entries.map Sigma.snd

variable [DecidableEq κ]

theorem mem_values {m : HashMap κ ν} {v : ν} : v ∈ m.values ↔ ∃ k, m.lookup k = some v := by
  constructor
  · intro hv
    obtain ⟨⟨k, v⟩, hmem, rfl⟩ := List.mem_map.mp hv
    exact ⟨k, AList.mem_lookup_iff.mpr hmem⟩
  · rintro ⟨k, hlook⟩
    exact List.mem_map.mpr ⟨⟨k, v⟩, AList.mem_lookup_iff.mp hlook, rfl⟩

/-- Where every value tells its key, no value occurs twice. -/
theorem nodup_values {m : HashMap κ ν} {key : ν → κ}
    (hkey : ∀ k v, m.lookup k = some v → key v = k) : m.values.Nodup := by
  apply List.Nodup.map_on
  · rintro ⟨k, v⟩ hv ⟨k', v'⟩ hv' (rfl : v = v')
    have hk := hkey k v (AList.mem_lookup_iff.mpr hv)
    have hk' := hkey k' v (AList.mem_lookup_iff.mpr hv')
    rw [← hk, ← hk']
  · exact m.nodupKeys.nodup

/-- Then the value of a key is the only one that tells it. -/
theorem filter_values_perm {m : HashMap κ ν} {key : ν → κ}
    (hkey : ∀ k v, m.lookup k = some v → key v = k) {k : κ} {v : ν} (hk : m.lookup k = some v) :
    (m.values.filter fun v => key v = k).Perm [v] := by
  apply (List.perm_ext_iff_of_nodup ((nodup_values hkey).filter _) (List.nodup_singleton v)).mpr
  intro v'
  rw [List.mem_filter, List.mem_singleton, mem_values, decide_eq_true_eq]
  constructor
  · rintro ⟨⟨k', hk'⟩, hv'⟩
    rw [← hkey k' v' hk', hv', hk] at hk'
    exact (Option.some.inj hk').symm
  · rintro rfl
    exact ⟨⟨k, hk⟩, hkey k v' hk⟩

theorem lookup_insert_eq (m : HashMap κ ν) (k k' : κ) (v : ν) :
    (m.insert k v).lookup k' = if k' = k then some v else m.lookup k' := by
  by_cases h : k' = k
  · subst h; simp
  · rw [if_neg h]; exact AList.lookup_insert_ne h

theorem lookup_erase_eq (m : HashMap κ ν) (k k' : κ) :
    (m.erase k).lookup k' = if k' = k then none else m.lookup k' := by
  by_cases h : k' = k
  · subst h; simp
  · rw [if_neg h]; exact AList.lookup_erase_ne h

/-- Insert the elements of a list in order. -/
def fill (m : HashMap κ ν) (key : α → κ) (val : α → ν) (l : List α) : HashMap κ ν :=
  l.foldl (fun m x => m.insert (key x) (val x)) m

theorem fill_append (m : HashMap κ ν) (key : α → κ) (val : α → ν) (l : List α) (x : α) :
    fill m key val (l ++ [x]) = (fill m key val l).insert (key x) (val x) := by
  simp [fill]

/-- What a filled map holds was put there by an element of the list, or was
there before. -/
theorem lookup_fill {m : HashMap κ ν} {key : α → κ} {val : α → ν} {l : List α}
    {k : κ} {v : ν} (h : (fill m key val l).lookup k = some v) :
    (∃ x ∈ l, key x = k ∧ val x = v) ∨ m.lookup k = some v := by
  -- on the list from its end, where the last insertion stands
  induction l using List.reverseRecOn with
  | nil => exact Or.inr h
  | append_singleton l x ih =>
      rw [fill_append, lookup_insert_eq] at h
      by_cases hk : k = key x
      · rw [if_pos hk] at h
        exact Or.inl ⟨x, by simp, hk.symm, Option.some.inj h⟩
      · rw [if_neg hk] at h
        rcases ih h with ⟨y, hy, hyk⟩ | hm
        · exact Or.inl ⟨y, by simp [hy], hyk⟩
        · exact Or.inr hm

/-- The last element of a list with the key of a given one. -/
theorem exists_last (key : α → κ) {l : List α} {x : α} (hx : x ∈ l) :
    ∃ pre y post, l = pre ++ y :: post ∧ key y = key x ∧ ∀ z ∈ post, key z ≠ key x := by
  induction l using List.reverseRecOn with
  | nil => simp at hx
  | append_singleton l y ih =>
      -- either the last element has the key, or it is found before
      by_cases hk : key y = key x
      · exact ⟨l, y, [], rfl, hk, by simp⟩
      · have hx : x ∈ l := (List.mem_append.mp hx).resolve_right fun h =>
          hk (by rw [List.mem_singleton.mp h])
        obtain ⟨pre, z, post, rfl, hz, hpost⟩ := ih hx
        refine ⟨pre, z, post ++ [y], by simp, hz, fun w hw => ?_⟩
        rcases List.mem_append.mp hw with hw | hw
        · exact hpost w hw
        · rw [List.mem_singleton.mp hw]
          exact hk

/-- A filled map holds the value of the last element with a key. -/
theorem lookup_fill_of_split {m : HashMap κ ν} (key : α → κ) (val : α → ν) {pre post : List α}
    {x : α} (hpost : ∀ y ∈ post, key y ≠ key x) :
    (fill m key val (pre ++ x :: post)).lookup (key x) = some (val x) := by
  induction post using List.reverseRecOn with
  | nil => rw [fill_append, lookup_insert_eq, if_pos rfl]
  | append_singleton post y ih =>
      have hne : key x ≠ key y := fun h => hpost y (by simp) h.symm
      rw [← List.cons_append, ← List.append_assoc, fill_append, lookup_insert_eq, if_neg hne]
      exact ih fun z hz => hpost z (by simp [hz])

/-- Every key of the list has an entry, which comes from the list. -/
theorem exists_lookup_fill {m : HashMap κ ν} (key : α → κ) (val : α → ν) {l : List α} {x : α}
    (hx : x ∈ l) : ∃ y ∈ l, key y = key x ∧ (fill m key val l).lookup (key x) = some (val y) := by
  obtain ⟨pre, y, post, rfl, hy, hpost⟩ := exists_last key hx
  refine ⟨y, by simp, hy, ?_⟩
  rw [← hy]
  exact lookup_fill_of_split key val fun z hz => by
    rw [hy]
    exact hpost z hz

/-- Where the keys of the list are distinct, each element keeps its entry. -/
theorem lookup_fill_of_mem {m : HashMap κ ν} (key : α → κ) (val : α → ν) {l : List α}
    (hl : (l.map key).Nodup) {x : α} (hx : x ∈ l) :
    (fill m key val l).lookup (key x) = some (val x) := by
  obtain ⟨y, hy, hkey, hlook⟩ := exists_lookup_fill (m := m) key val hx
  rw [hlook, List.inj_on_of_nodup_map hl hy hx hkey]

/-- A map that is listed in some order and filled again holds what it held. -/
theorem lookup_fill_of_perm {m : HashMap κ ν} (key : α → κ) (val : α → ν) {l : List α}
    (hl : (l.map fun x => (⟨key x, val x⟩ : Sigma fun _ : κ => ν)).Perm m.entries) (k : κ) :
    (fill ∅ key val l).lookup k = m.lookup k := by
  have hmem : ∀ x ∈ l, m.lookup (key x) = some (val x) := by
    intro x hx
    exact AList.mem_lookup_iff.mpr (hl.subset (List.mem_map.mpr ⟨x, hx, rfl⟩))
  have hkeys : (l.map key).Nodup := by
    have hperm := hl.map Sigma.fst
    rw [List.map_map] at hperm
    exact hperm.nodup_iff.mpr m.nodupKeys
  cases hm : m.lookup k with
  | some v =>
      obtain ⟨x, hx, heq⟩ := List.mem_map.mp (hl.symm.subset (AList.mem_lookup_iff.mp hm))
      cases heq
      exact lookup_fill_of_mem key val hkeys hx
  | none =>
      cases hf : (fill ∅ key val l).lookup k with
      | none => rfl
      | some v =>
          rcases lookup_fill hf with ⟨x, hx, rfl, -⟩ | hempty
          · rw [hmem x hx] at hm
            cases hm
          · cases hempty

end HashMap

end Lib
