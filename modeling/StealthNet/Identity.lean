/-
  StealthNet.Identity
  ───────────────────
  THE IDENTITY KEY ON DISK (`Identity::load_or_generate`).

  A node reads its secret from a file, or draws one and writes it there at its
  first start.  A call may find the path inaccessible, fail to read, or stop in
  the middle of its write, which is also what a crash there leaves behind.

  `Path::exists` says no when it cannot tell, and then the file is written: a
  call that is kept from looking at a file, but not from writing it, replaces
  what is there (`Identity.loadOrGenerate_blind`).  Where no call is, whatever
  calls are made in whatever order, for whatever paths and with whatever other
  failures: what is at a path stays as it is, a path keeps the identity that was
  returned for it once, and a key that was not written to its end is never taken
  for one (`Identity.persists`).

    §1  the call;
    §2  what one call does;
    §3  runs of calls.
-/
import StealthNet.Ideal
import StealthNet.Lib.Exec

namespace StealthNet

/-! ## §1. The call. -/

/-- What is at a path: a text, or what `read_to_string` does not read. -/
inductive Entry
  | text (s : String)
  | unreadable
  deriving DecidableEq

/-- What is at each path. -/
abbrev FileSystem := String → Option Entry

/-- How far `fs::write` gets: it truncates the file or creates it, and then
writes. -/
inductive WriteOutcome
  | refused
  | stopped (n : Nat)
  | completed

/-- What is left of a text by a write. -/
def WriteOutcome.left (text : String) : WriteOutcome → Option String
  | .refused => none
  | .stopped n => some (String.ofList (text.toList.take n))
  | .completed => some text

/-- What a call meets: the key it would draw, and what the system lets it do. -/
structure Surroundings where
  key : Vector UInt8 32
  /-- Whether the path can be looked at. -/
  accessible : Bool
  readable : Bool
  /-- An error names the parent of the path. -/
  dirCreated : Except String Unit
  write : WriteOutcome

/-- What cannot be looked at cannot be written either. -/
def Surroundings.Sighted (env : Surroundings) : Prop :=
  env.accessible = false → env.write = .refused

section

variable (C : Crates)

/-- The identity in a key file. -/
def Identity.load (path raw : String) : Except String Identity :=
  match C.base64Decode (trim raw) with
  | none => .error s!"identity key is not valid base64 in {path}"
  | some bytes =>
      if h : bytes.toArray.size = 32 then .ok ⟨bytes.toArray, h⟩
      else .error "identity key must decode to 32 bytes"

/-- The text of a key file. -/
def Identity.saved (identity : Identity) : String := C.base64Encode identity.secret.toList

/-- The identity at a path, or a new one, and the files after the call. -/
def Identity.loadOrGenerate (env : Surroundings) (files : FileSystem) (path : String) :
    Except String Identity × FileSystem :=
  -- `Path::exists`
  if env.accessible = true ∧ (files path).isSome = true then
    match files path with
    | some (.text raw) =>
        if env.readable then (Identity.load C path raw, files)
        else (.error s!"failed to read identity key {path}", files)
    | _ => (.error s!"failed to read identity key {path}", files)
  else
    match env.dirCreated with
    | .error parent => (.error s!"failed to create {parent}", files)
    | .ok () =>
        let identity : Identity := ⟨env.key⟩
        -- `File::create`, then `write_all`
        match env.write with
        | .refused => (.error s!"failed to write identity key {path}", files)
        | .stopped n =>
            (.error s!"failed to write identity key {path}", Function.update files path
              (some (.text (String.ofList ((identity.saved C).toList.take n)))))
        | .completed =>
            (.ok identity, Function.update files path (some (.text (identity.saved C))))

end

/-! ## §2. What one call does. -/

/-- Base64 as documented: a part of an encoding that decodes to as many bytes
is all of it. -/
structure Crates.Base64Prefixes (C : Crates) : Prop where
  take_of_decode : ∀ {b b' n},
    C.base64Decode (trim (String.ofList ((C.base64Encode b).toList.take n))) = some b' →
    b'.length = b.length → String.ofList ((C.base64Encode b).toList.take n) = C.base64Encode b

section

variable {C : Crates} {env : Surroundings} {files files' : FileSystem} {path : String}
  {result : Except String Identity}

/-- A call reads what is there, or gets nowhere, or writes where nothing was or
where it could not look. -/
inductive Loaded (C : Crates) (env : Surroundings) (files : FileSystem) (path : String) :
    Except String Identity → FileSystem → Prop
  | read {raw : String} (haccess : env.accessible = true) (hread : env.readable = true)
      (hentry : files path = some (.text raw)) :
      Loaded C env files path (Identity.load C path raw) files
  | failed {e : String} (h : env.accessible = false ∨ env.readable = false ∨
        files path = some .unreadable ∨ files path = none) :
      Loaded C env files path (.error e) files
  | stopped {n : Nat} {e : String} (hentry : env.accessible = false ∨ files path = none)
      (hwrite : env.write = .stopped n) :
      Loaded C env files path (.error e) (Function.update files path
        (some (.text (String.ofList ((Identity.saved C ⟨env.key⟩).toList.take n)))))
  | generated (hentry : env.accessible = false ∨ files path = none)
      (hwrite : env.write = .completed) :
      Loaded C env files path (.ok ⟨env.key⟩)
        (Function.update files path (some (.text (Identity.saved C ⟨env.key⟩))))

theorem Identity.loadOrGenerate_cases (C : Crates) (env : Surroundings) (files : FileSystem)
    (path : String) : Loaded C env files path (Identity.loadOrGenerate C env files path).1
      (Identity.loadOrGenerate C env files path).2 := by
  unfold loadOrGenerate
  split
  · rename_i hthere
    obtain ⟨haccess, hsome⟩ := hthere
    split
    · rename_i raw hentry
      split
      · rename_i hread
        exact .read haccess hread hentry
      · rename_i hread
        exact .failed (Or.inr (Or.inl (by simpa using hread)))
    · rename_i hother
      -- an entry that is no text
      obtain ⟨entry, hentry⟩ := Option.isSome_iff_exists.mp hsome
      cases entry with
      | text raw => exact absurd hentry (hother raw)
      | unreadable => exact .failed (Or.inr (Or.inr (Or.inl hentry)))
  · rename_i hthere
    have hgone : env.accessible = false ∨ files path = none := by
      cases haccess : env.accessible with
      | false => exact Or.inl rfl
      | true =>
          rw [haccess] at hthere
          exact Or.inr (by simpa using hthere)
    have hfailed : env.accessible = false ∨ env.readable = false ∨
        files path = some .unreadable ∨ files path = none := by
      rcases hgone with h | h
      · exact Or.inl h
      · exact Or.inr (Or.inr (Or.inr h))
    split
    · exact .failed hfailed
    · dsimp only
      split
      · exact .failed hfailed
      · rename_i n hwrite
        exact .stopped hgone hwrite
      · rename_i hwrite
        exact .generated hgone hwrite

/-- What a call writes at a path where it could not look replaces what is
there. -/
theorem Identity.loadOrGenerate_blind (haccess : env.accessible = false)
    (hdir : env.dirCreated = .ok ()) (hwrite : env.write = .completed) :
    Identity.loadOrGenerate C env files path = (.ok ⟨env.key⟩,
      Function.update files path (some (.text (Identity.saved C ⟨env.key⟩)))) := by
  unfold loadOrGenerate
  rw [if_neg (by simp [haccess]), hdir, hwrite]

/-- A call that writes can look, and there was nothing. -/
theorem Surroundings.Sighted.nothing (hsight : env.Sighted) (hwrite : env.write ≠ .refused)
    (h : env.accessible = false ∨ files path = none) : files path = none := by
  rcases h with h | h
  · exact absurd (hsight h) hwrite
  · exact h

/-- What is at a path stays there. -/
theorem Loaded.keeps (h : Loaded C env files path result files') (hsight : env.Sighted)
    {other : String} {entry : Entry} (hentry : files other = some entry) :
    files' other = some entry := by
  -- a call writes at its own path only, and only where nothing was
  have hupdate : ∀ text, files path = none →
      Function.update files path (some (.text text)) other = some entry := by
    intro text hnone
    have hne : other ≠ path := by
      intro heq
      rw [heq, hnone] at hentry
      cases hentry
    rw [Function.update_of_ne hne]
    exact hentry
  cases h with
  | read | failed => exact hentry
  | stopped hnone hwrite => exact hupdate _ (hsight.nothing (by rw [hwrite]; exact nofun) hnone)
  | generated hnone hwrite => exact hupdate _ (hsight.nothing (by rw [hwrite]; exact nofun) hnone)

/-- A saved identity is loaded again. -/
theorem Identity.load_saved (hk : C.KeyAgreement) (path : String) (identity : Identity) :
    Identity.load C path (identity.saved C) = .ok identity := by
  unfold load saved
  rw [hk.trim_base64Encode, hk.base64Decode_encode]
  simp [Vector.toList]

/-- What is loaded has the bytes that are decoded. -/
theorem Identity.load_eq_ok {raw : String} {identity : Identity}
    (h : Identity.load C path raw = .ok identity) :
    C.base64Decode (trim raw) = some identity.secret.toList := by
  unfold load at h
  split at h
  · cases h
  · rename_i bytes hbytes
    split at h
    · rename_i hlen
      rw [← Except.ok.inj h, hbytes]
      rfl
    · cases h

/-- The part of a key that was not written to its end is not loaded. -/
theorem Identity.load_take (hk : C.KeyAgreement) (hp : C.Base64Prefixes) {saved identity : Identity}
    {n : Nat} (h : Identity.load C path
      (String.ofList ((saved.saved C).toList.take n)) = .ok identity) :
    String.ofList ((saved.saved C).toList.take n) = saved.saved C ∧ identity = saved := by
  have hlen : identity.secret.toList.length = saved.secret.toList.length := by simp
  have hall := hp.take_of_decode (Identity.load_eq_ok h) hlen
  refine ⟨hall, ?_⟩
  rw [show String.ofList ((saved.saved C).toList.take n) = saved.saved C from hall,
    Identity.load_saved hk] at h
  exact (Except.ok.inj h).symm

/-- What a call returns is what is at the path behind it. -/
theorem Loaded.returns (hk : C.KeyAgreement) (h : Loaded C env files path result files')
    {identity : Identity} (hresult : result = .ok identity) :
    ∃ raw, files' path = some (.text raw) ∧ Identity.load C path raw = .ok identity := by
  cases h with
  | @read raw haccess hread hentry => exact ⟨raw, hentry, hresult⟩
  | failed | stopped => cases hresult
  | generated =>
      obtain rfl := Except.ok.inj hresult
      exact ⟨_, Function.update_self .., Identity.load_saved hk path _⟩

/-- With a key at the path, a call that gets to it returns it. -/
theorem Loaded.again (h : Loaded C env files path result files') (hsight : env.Sighted)
    {raw : String} {identity : Identity}
    (hentry : files path = some (.text raw)) (hload : Identity.load C path raw = .ok identity) :
    result = .ok identity ∨
      (env.accessible = false ∨ env.readable = false) ∧ ∃ e, result = .error e := by
  cases h with
  | @read raw' haccess hread hentry' =>
      rw [hentry] at hentry'
      obtain rfl := Entry.text.inj (Option.some.inj hentry')
      exact Or.inl hload
  | @failed e hwhy =>
      refine Or.inr ⟨?_, e, rfl⟩
      rw [hentry] at hwhy
      rcases hwhy with h | h | h | h
      · exact Or.inl h
      · exact Or.inr h
      · cases h
      · cases h
  | stopped hnone hwrite | generated hnone hwrite =>
      have hnone := hsight.nothing (by rw [hwrite]; exact nofun) hnone
      rw [hentry] at hnone
      cases hnone

end

/-! ## §3. Runs of calls. -/

/-- A call, with what it met and what it returned. -/
structure KeyCall where
  path : String
  env : Surroundings
  result : Except String Identity

section

variable (C : Crates)

/-- Calls are made one after the other. -/
def KeyCall.Step (files : FileSystem) (call : KeyCall) (files' : FileSystem) : Prop :=
  Identity.loadOrGenerate C call.env files call.path = (call.result, files')

/-- A call that drew this identity, and wrote all of it. -/
def KeyCall.Wrote (call : KeyCall) (identity : Identity) : Prop :=
  call.env.key = identity.secret ∧ call.env.write.left (identity.saved C) = some (identity.saved C)

end

section

variable {C : Crates} {files files' : FileSystem} {call : KeyCall} {tr : List KeyCall}

theorem KeyCall.Step.loaded (h : KeyCall.Step C files call files') :
    Loaded C call.env files call.path call.result files' := by
  have hcases := Identity.loadOrGenerate_cases C call.env files call.path
  unfold KeyCall.Step at h
  rw [h] at hcases
  exact hcases

theorem exec_keeps (h : Lib.Exec (KeyCall.Step C) files tr files')
    (hsight : ∀ call ∈ tr, call.env.Sighted) {path : String} {entry : Entry}
    (hentry : files path = some entry) : files' path = some entry := by
  refine h.history (I := fun tr files => (∀ call ∈ tr, call.env.Sighted) →
    files path = some entry) (fun _ => hentry) ?_ hsight
  intro tr files₁ call files₂ _ ih hstep hsight
  exact hstep.loaded.keeps (hsight call (List.mem_append_right _ (List.mem_singleton_self call)))
    (ih fun call hmem => hsight call (List.mem_append_left _ hmem))

/-- What comes to be at a path is what a call for it left there. -/
theorem exec_left (h : Lib.Exec (KeyCall.Step C) files tr files') {path : String} {entry : Entry}
    (hnone : files path = none) (hentry : files' path = some entry) :
    ∃ call ∈ tr, call.path = path ∧ ∃ raw, entry = .text raw ∧
      call.env.write.left (Identity.saved C ⟨call.env.key⟩) = some raw := by
  refine h.history (I := fun tr files' => files' path = some entry → ∃ call ∈ tr,
    call.path = path ∧ ∃ raw, entry = .text raw ∧
      call.env.write.left (Identity.saved C ⟨call.env.key⟩) = some raw) ?_ ?_ hentry
  · intro hentry
    rw [hnone] at hentry
    cases hentry
  · intro tr files₁ call files₂ _ ih hstep hentry
    -- it was there before, or this call left it
    have earlier : files₁ path = some entry → ∃ call' ∈ tr ++ [call], call'.path = path ∧
        ∃ raw, entry = .text raw ∧
          call'.env.write.left (Identity.saved C ⟨call'.env.key⟩) = some raw := by
      intro hbefore
      obtain ⟨call', hmem, hrest⟩ := ih hbefore
      exact ⟨call', List.mem_append_left _ hmem, hrest⟩
    have later : ∀ raw, files₂ = Function.update files₁ call.path (some (.text raw)) →
        call.env.write.left (Identity.saved C ⟨call.env.key⟩) = some raw →
        ∃ call' ∈ tr ++ [call], call'.path = path ∧ ∃ raw, entry = .text raw ∧
          call'.env.write.left (Identity.saved C ⟨call'.env.key⟩) = some raw := by
      intro raw hfiles hleft
      by_cases hpath : path = call.path
      · refine ⟨call, List.mem_append_right _ (List.mem_singleton_self call), hpath.symm, raw, ?_,
          hleft⟩
        rw [hfiles, hpath, Function.update_self] at hentry
        exact (Option.some.inj hentry).symm
      · rw [hfiles, Function.update_of_ne hpath] at hentry
        exact earlier hentry
    have hloaded := hstep.loaded
    generalize call.result = result at hloaded
    cases hloaded with
    | read | failed => exact earlier hentry
    | stopped _ hwrite => exact later _ rfl (by rw [hwrite]; rfl)
    | generated _ hwrite => exact later _ rfl (by rw [hwrite]; rfl)

/-- Over any calls with any failures, where what cannot be looked at cannot be
written: nothing at a path is changed; after a path's identity was returned
once, every later call returns it or fails to get to it; and what is returned
for a path where nothing was is a key that some call drew and wrote to its
end. -/
theorem Identity.persists (hk : C.KeyAgreement) (hp : C.Base64Prefixes)
    (h : Lib.Exec (KeyCall.Step C) files tr files') (hsight : ∀ call ∈ tr, call.env.Sighted) :
    (∀ path entry, files path = some entry → files' path = some entry) ∧
    (∀ pre mid post call call' identity, tr = pre ++ call :: (mid ++ call' :: post) →
      call'.path = call.path → call.result = .ok identity →
      call'.result = .ok identity ∨ (call'.env.accessible = false ∨ call'.env.readable = false) ∧
        ∃ e, call'.result = .error e) ∧
    ∀ pre post call identity, tr = pre ++ call :: post → files call.path = none →
      call.result = .ok identity →
      ∃ call₀ ∈ pre ++ [call], call₀.path = call.path ∧ call₀.Wrote C identity := by
  refine ⟨fun path entry hentry => exec_keeps h hsight hentry, ?_, ?_⟩
  · intro pre mid post call call' identity htr hpath hresult
    rw [htr] at h hsight
    obtain ⟨files₁, files₂, -, hstep, hrest⟩ := h.split_cons
    obtain ⟨files₃, files₄, hmid, hstep', -⟩ := hrest.split_cons
    obtain ⟨raw, hentry, hload⟩ := hstep.loaded.returns hk hresult
    have hentry' := exec_keeps hmid (fun c hc => hsight c (by simp [hc])) hentry
    rw [← hpath] at hentry' hload
    exact hstep'.loaded.again (hsight call' (by simp)) hentry' hload
  · intro pre post call identity htr hnone hresult
    rw [htr] at h
    obtain ⟨files₁, files₂, hpre, hstep, -⟩ := h.split_cons
    obtain ⟨raw, hentry, hload⟩ := hstep.loaded.returns hk hresult
    obtain ⟨call₀, hmem, hpath, raw', htext, hleft⟩ := exec_left (hpre.snoc hstep) hnone hentry
    obtain rfl := Entry.text.inj htext
    refine ⟨call₀, hmem, hpath, ?_⟩
    -- of a key that is loaded nothing is missing
    unfold KeyCall.Wrote
    cases hwrite : call₀.env.write with
    | refused =>
        rw [hwrite] at hleft
        cases hleft
    | completed =>
        rw [hwrite] at hleft
        obtain rfl := Option.some.inj hleft
        obtain rfl := Except.ok.inj ((Identity.load_saved hk _ _).symm.trans hload)
        exact ⟨rfl, rfl⟩
    | stopped n =>
        rw [hwrite] at hleft
        obtain rfl := Option.some.inj hleft
        obtain ⟨hall, rfl⟩ := Identity.load_take hk hp hload
        exact ⟨rfl, congrArg some hall⟩

end

/-! ## §4. A key that is drawn once. -/

theorem Crates.base64Prefixes_ideal : Crates.ideal.Base64Prefixes where
  take_of_decode := by
    intro b b' n h hlen
    have htrim : trim (String.ofList ((Crates.ideal.base64Encode b).toList.take n))
        = String.ofList ((Crates.ideal.base64Encode b).toList.take n) := by
      apply Crates.trim_of_not_isWhitespace
      intro c hc
      rw [String.toList_ofList] at hc
      exact Crates.isWhitespace_encode (List.mem_of_mem_take hc)
    rw [htrim] at h
    exact Lib.Base64.take_of_decode h (Nat.le_of_eq hlen.symm)

namespace KeyFile

/-- Calls as they are made, with what they return. -/
def play (C : Crates) (files : FileSystem) :
    List (String × Surroundings) → List KeyCall × FileSystem
  | [] => ([], files)
  | (path, env) :: rest =>
      let (result, files) := Identity.loadOrGenerate C env files path
      let (calls, files) := play C files rest
      (⟨path, env, result⟩ :: calls, files)

theorem exec_play {C : Crates} (files : FileSystem) (plan : List (String × Surroundings)) :
    Lib.Exec (KeyCall.Step C) files (play C files plan).1 (play C files plan).2 := by
  induction plan generalizing files with
  | nil => exact .refl
  | cons first rest ih =>
      obtain ⟨path, env⟩ := first
      exact (Lib.Exec.single (e := (⟨path, env, _⟩ : KeyCall)) rfl).append (ih _)

/-- A start that would draw these bytes. -/
def drawing (b : UInt8) (write : WriteOutcome) : Surroundings where
  key := Vector.replicate 32 b
  accessible := true
  readable := true
  dirCreated := .ok ()
  write := write

/-- A start that dies in its write, another one, one that cannot look at its
path, and both once more. -/
def starts : List (String × Surroundings) :=
  [("a.key", drawing 1 (.stopped 20)), ("b.key", drawing 2 .completed),
    ("b.key", { drawing 5 .refused with accessible := false }),
    ("a.key", drawing 3 .completed), ("b.key", drawing 4 .completed)]

theorem exec_sighted {call : KeyCall}
    (hcall : call ∈ (play Crates.ideal (fun _ => none) starts).1) : call.env.Sighted := by
  have hmem : call.env ∈ starts.map Prod.snd := by
    have hmap : ∀ (plan : List (String × Surroundings)) files,
        (play Crates.ideal files plan).1.map KeyCall.env = plan.map Prod.snd := by
      intro plan
      induction plan with
      | nil => intro _; rfl
      | cons first rest ih =>
          intro files
          exact congrArg (first.2 :: ·) (ih _)
    rw [← hmap starts fun _ => none]
    exact List.mem_map_of_mem hcall
  simp only [starts, List.map_cons, List.map_nil, List.mem_cons, List.not_mem_nil, or_false] at hmem
  rcases hmem with h | h | h | h | h
  · rw [h]; exact nofun
  · rw [h]; exact nofun
  · rw [h]; exact fun _ => rfl
  · rw [h]; exact nofun
  · rw [h]; exact nofun

/-- The last start returns the key that was drawn by the second. -/
theorem identity_kept : ∃ (tr : List KeyCall) (files : FileSystem) (call : KeyCall),
    Lib.Exec (KeyCall.Step Crates.ideal) (fun _ => none) tr files ∧ call ∈ tr ∧
    call.env.key = Vector.replicate 32 4 ∧ call.result = .ok ⟨Vector.replicate 32 2⟩ := by
  have hexec := exec_play (C := Crates.ideal) (fun _ => none) starts
  obtain ⟨-, hkept, -⟩ := Identity.persists Crates.keyAgreement_ideal Crates.base64Prefixes_ideal hexec
    fun call hcall => exec_sighted hcall
  have hlast := hkept [_] [_, _] [] _ _ ⟨Vector.replicate 32 2⟩ rfl rfl rfl
  rcases hlast with hlast | ⟨hfailed, -⟩
  · exact ⟨_, _, _, hexec, List.mem_of_getElem? (i := 4) rfl, rfl, hlast⟩
  · rcases hfailed with h | h
    · cases h
    · cases h

end KeyFile

end StealthNet
