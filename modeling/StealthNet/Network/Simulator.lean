/-
  StealthNet.Network.Simulator
  ────────────────────────────
  RUNS OF A NETWORK, COMPUTED.

  A `Sim` is a state whose datagrams in flight are listed, so that a move can
  name the datagram it delivers.  `Sim.run` plays a list of moves; what it
  computes is a run of the network (`Sim.run_sound`), and what a computed
  trace shows can be decided.

    §1  playing moves;
    §2  soundness;
    §3  three nodes in a line.
-/
import StealthNet.Network.Cases
import StealthNet.Ideal

namespace StealthNet

/-! ## §1. Playing moves. -/

/-- A step, with the datagram in flight known by its position. -/
inductive Move (ι : Type)
  | act (i : ι) (ev : LocalEvent)
  | deliver (n : Nat) (keep : Bool)
  | inject (i : ι) (packet : Bytes)
  | drop (n : Nat)

/-- A state of the network, with a list of what is in flight. -/
structure Sim (C : Crates) (ι : Type) where
  node : ι → Phase
  inflight : List (Flight C)
  clock : Nat

namespace Sim

variable {C : Crates} {ι : Type}

/-- The state it lists. -/
def state (s : Sim C ι) : State C ι := ⟨s.node, s.inflight, s.clock⟩

theorem state_node (s : Sim C ι) : s.state.node = s.node := rfl

/-- Nobody has started. -/
def init (C : Crates) (ι : Type) : Sim C ι := ⟨fun _ => .stopped, [], 0⟩

variable [DecidableEq ι]

/-- Node `i` moves on and its datagrams are listed behind the ones left. -/
def after (s : Sim C ι) (i : ι) (p : Phase) (left : List (Flight C)) (trail : List Nat)
    (did : Activity C) : Sim C ι :=
  { node := Function.update s.node i p
    inflight := left ++ (datagrams did.effects).map fun d => ⟨d, trail⟩
    clock := s.clock + 1 }

/-- Node `i` receives, if its udp loop does. -/
def hear (env : Nat → Env) (s : Sim C ι) (i : ι) (packet : Bytes) : Option (Phase × Activity C) :=
  if (s.node i).listens then some ((s.node i).receive C (env s.clock) packet) else none

/-- Play a move, if it can be made. -/
def step (net : Net ι) (env : Nat → Env) (s : Sim C ι) : Move ι → Option (Label C ι × Sim C ι)
  | .act i ev =>
      ((s.node i).act C (env s.clock) (net.identity i) (net.config i) ev).map fun (p, did) =>
        (.act i ev (env s.clock) did, s.after i p s.inflight [s.clock] did)
  | .deliver n keep =>
      (s.inflight[n]?).bind fun f => (net.host f.datagram.call.addr).bind fun i =>
        (s.hear env i f.datagram.bytes).map fun (p, did) =>
          (.deliver i f keep (env s.clock) did,
            s.after i p (if keep then s.inflight else s.inflight.eraseIdx n) (s.clock :: f.trail) did)
  | .inject i packet =>
      (s.hear env i packet).map fun (p, did) =>
        (.inject i packet (env s.clock) did, s.after i p s.inflight [s.clock] did)
  | .drop n =>
      (s.inflight[n]?).map fun f =>
        (.drop f, { s with inflight := s.inflight.eraseIdx n, clock := s.clock + 1 })

/-- Play moves one after the other. -/
def run (net : Net ι) (env : Nat → Env) (s : Sim C ι) :
    List (Move ι) → Option (List (Label C ι) × Sim C ι)
  | [] => some ([], s)
  | move :: moves =>
      (s.step net env move).bind fun (l, s) =>
        (run net env s moves).map fun (tr, s) => (l :: tr, s)

/-! ## §2. Soundness. -/

variable {net : Net ι} {env : Nat → Env} {s s' : Sim C ι}

theorem state_after (s : Sim C ι) (i : ι) (p : Phase) (left : List (Flight C)) (trail : List Nat)
    (did : Activity C) :
    (s.after i p left trail did).state = s.state.after i p left (launched trail did.effects) := by
  simp only [after, state, State.after, launched, Multiset.coe_add]

omit [DecidableEq ι] in
theorem hear_eq_some {i : ι} {packet : Bytes} {p : Phase} {did : Activity C}
    (h : s.hear env i packet = some (p, did)) :
    (s.node i).listens = true ∧ (s.node i).receive C (env s.clock) packet = (p, did) := by
  unfold hear at h
  split at h
  · rename_i hlisten
    exact ⟨hlisten, Option.some.inj h⟩
  · cases h

theorem step_sound {move : Move ι} {l : Label C ι} (h : s.step net env move = some (l, s')) :
    Step net s.state l s'.state := by
  -- a listed datagram and the others are what is in flight
  have hflight : ∀ {n : Nat} {f : Flight C}, s.inflight[n]? = some f →
      s.state.inflight = f ::ₘ ↑(s.inflight.eraseIdx n) := by
    intro n f hf
    obtain ⟨hn, rfl⟩ := List.getElem?_eq_some_iff.mp hf
    exact (Multiset.coe_eq_coe.mpr (List.getElem_cons_eraseIdx_perm hn)).symm
  cases move with
  | act i ev =>
      obtain ⟨⟨p, did⟩, hact, heq⟩ := Option.map_eq_some_iff.mp h
      obtain ⟨rfl, rfl⟩ := Prod.mk.inj heq
      rw [state_after]
      exact .act hact
  | deliver n keep =>
      obtain ⟨f, hf, h⟩ := Option.bind_eq_some_iff.mp h
      obtain ⟨i, hi, h⟩ := Option.bind_eq_some_iff.mp h
      obtain ⟨⟨p, did⟩, hhear, heq⟩ := Option.map_eq_some_iff.mp h
      obtain ⟨rfl, rfl⟩ := Prod.mk.inj heq
      obtain ⟨hlisten, hrec⟩ := hear_eq_some hhear
      rw [state_after]
      cases keep with
      | true => exact .deliver (hflight hf) hi hlisten hrec
      | false => exact .deliver (hflight hf) hi hlisten hrec
  | inject i packet =>
      obtain ⟨⟨p, did⟩, hhear, heq⟩ := Option.map_eq_some_iff.mp h
      obtain ⟨rfl, rfl⟩ := Prod.mk.inj heq
      obtain ⟨hlisten, hrec⟩ := hear_eq_some hhear
      rw [state_after]
      exact .inject hlisten hrec
  | drop n =>
      obtain ⟨f, hf, heq⟩ := Option.map_eq_some_iff.mp h
      obtain ⟨rfl, rfl⟩ := Prod.mk.inj heq
      exact .drop (hflight hf)

/-- What is computed is a run. -/
theorem run_sound {moves : List (Move ι)} {tr : List (Label C ι)}
    (h : s.run net env moves = some (tr, s')) : Lib.Exec (Step net) s.state tr s'.state := by
  induction moves generalizing s tr with
  | nil =>
      obtain ⟨rfl, rfl⟩ := Prod.mk.inj (Option.some.inj h)
      exact .refl
  | cons move moves ih =>
      obtain ⟨⟨l, s₁⟩, hstep, h⟩ := Option.bind_eq_some_iff.mp h
      obtain ⟨⟨tr₁, s₂⟩, hrun, heq⟩ := Option.map_eq_some_iff.mp h
      obtain ⟨rfl, rfl⟩ := Prod.mk.inj heq
      exact (Lib.Exec.single (step_sound hstep)).append (ih hrun)

theorem step_act {i : ι} {ev : LocalEvent} {l : Label C ι}
    (h : s.step net env (.act i ev) = some (l, s')) : ∃ did, l = .act i ev (env s.clock) did := by
  obtain ⟨⟨p, did⟩, -, heq⟩ := Option.map_eq_some_iff.mp h
  exact ⟨did, (Prod.mk.inj heq).1.symm⟩

theorem step_deliver {n : Nat} {keep : Bool} {l : Label C ι}
    (h : s.step net env (.deliver n keep) = some (l, s')) :
    ∃ i f did, l = .deliver i f keep (env s.clock) did := by
  obtain ⟨f, -, h⟩ := Option.bind_eq_some_iff.mp h
  obtain ⟨i, -, h⟩ := Option.bind_eq_some_iff.mp h
  obtain ⟨⟨p, did⟩, -, heq⟩ := Option.map_eq_some_iff.mp h
  exact ⟨i, f, did, (Prod.mk.inj heq).1.symm⟩

theorem step_inject {i : ι} {packet : Bytes} {l : Label C ι}
    (h : s.step net env (.inject i packet) = some (l, s')) :
    ∃ did, l = .inject i packet (env s.clock) did := by
  obtain ⟨⟨p, did⟩, -, heq⟩ := Option.map_eq_some_iff.mp h
  exact ⟨did, (Prod.mk.inj heq).1.symm⟩

/-- Without injected bytes the run is honest. -/
theorem run_honest {moves : List (Move ι)} (hmoves : ∀ i packet, .inject i packet ∉ moves)
    {tr : List (Label C ι)} (h : s.run net env moves = some (tr, s')) : Honest tr := by
  induction moves generalizing s tr with
  | nil =>
      obtain ⟨rfl, rfl⟩ := Prod.mk.inj (Option.some.inj h)
      simp [Honest]
  | cons move moves ih =>
      obtain ⟨⟨l, s₁⟩, hstep, h⟩ := Option.bind_eq_some_iff.mp h
      obtain ⟨⟨tr₁, s₂⟩, hrun, heq⟩ := Option.map_eq_some_iff.mp h
      obtain ⟨rfl, rfl⟩ := Prod.mk.inj heq
      have hrest := ih (fun i packet hm => hmoves i packet (List.mem_cons_of_mem _ hm)) hrun
      rintro l' hl' i packet env' did rfl
      -- the first label of the run, or one of the rest
      rcases List.mem_cons.mp hl' with hl' | hl'
      · -- only the move that injects has this label
        cases move with
        | inject j packet' => exact hmoves j packet' List.mem_cons_self
        | act j ev =>
            obtain ⟨did', hl⟩ := step_act hstep
            cases hl'.trans hl
        | deliver n keep =>
            obtain ⟨j, f, did', hl⟩ := step_deliver hstep
            cases hl'.trans hl
        | drop n =>
            obtain ⟨f, -, heq⟩ := Option.map_eq_some_iff.mp hstep
            cases hl'.trans (Prod.mk.inj heq).1.symm
      · exact hrest _ hl' i packet env' did rfl

/-- What is decided of a computed run holds of a run. -/
theorem exists_run (net : Net ι) (env : Nat → Env) (s : Sim C ι) (moves : List (Move ι))
    (check : List (Label C ι) → Sim C ι → Bool) (hmoves : ∀ i packet, .inject i packet ∉ moves)
    (h : ((s.run net env moves).any fun r => check r.1 r.2) = true) :
    ∃ tr s', Lib.Exec (Step net) s.state tr s'.state ∧ Honest tr ∧ check tr s' = true := by
  obtain ⟨⟨tr, s'⟩, hrun, hcheck⟩ := (Option.any_eq_true _ _).mp h
  exact ⟨tr, s', run_sound hrun, run_honest hmoves hrun, hcheck⟩

/-- Where a list of moves leads. -/
def play (net : Net ι) (env : Nat → Env) (s : Sim C ι) (moves : List (Move ι)) : Sim C ι :=
  ((s.run net env moves).map Prod.snd).getD s

theorem exists_run_play {moves : List (Move ι)} (hmoves : ∀ i packet, .inject i packet ∉ moves)
    (h : (s.run net env moves).isSome = true) :
    ∃ tr, Lib.Exec (Step net) s.state tr (s.play net env moves).state ∧ Honest tr := by
  obtain ⟨⟨tr, s'⟩, hrun⟩ := Option.isSome_iff_exists.mp h
  -- the run that is computed ends where the moves lead
  have hplay : s.play net env moves = s' := by simp only [play, hrun, Option.map_some, Option.getD_some]
  exact ⟨tr, hplay ▸ run_sound hrun, run_honest hmoves hrun⟩

end Sim

/-- What a running node holds. -/
def Phase.held : Phase → Option (Shared × Runtime)
  | .running sh rt => some (sh, rt)
  | _ => none

theorem Phase.held_eq_some {p : Phase} {sh : Shared} {rt : Runtime} :
    p.held = some (sh, rt) ↔ p = .running sh rt := by
  cases p <;> simp [Phase.held]

theorem Sim.runs_iff {C : Crates} {ι : Type} {s : Sim C ι} {i : ι} {sh : Shared} :
    s.state.Runs i sh ↔ (s.node i).shared = some sh := Iff.rfl

theorem Sim.running_iff {C : Crates} {ι : Type} {s : Sim C ι} {i : ι} {sh : Shared}
    {rt : Runtime} : s.state.node i = .running sh rt ↔ (s.node i).held = some (sh, rt) := by
  rw [state_node, Phase.held_eq_some]

theorem State.distinctStealths_of {C : Crates} {ι : Type} {s : State C ι} {stealth : ι → String}
    (hinj : ∀ i j, stealth i = stealth j → i = j)
    (h : ∀ i, ∃ sh, s.Runs i sh ∧ sh.localStealth = stealth i) : s.DistinctStealths := by
  intro i j sh sh' hi hj heq
  obtain ⟨shi, hi', hstealthi⟩ := h i
  obtain ⟨shj, hj', hstealthj⟩ := h j
  obtain rfl := Option.some.inj (hi.symm.trans hi')
  obtain rfl := Option.some.inj (hj.symm.trans hj')
  exact hinj i j (hstealthi.symm.trans (heq.trans hstealthj))

/-- No node has drawn more ids than there are, which can be computed. -/
theorem Sim.drawn_le {C : Crates} {ι : Type} {s : Sim C ι}
    (h : ∀ i, (s.node i).held.all (fun (h : Shared × Runtime) =>
      decide (h.2.tables.drawn ≤ 2 ^ 64)) = true) :
    ∀ i sh rt, s.state.node i = .running sh rt → rt.tables.drawn ≤ 2 ^ 64 := by
  intro i sh rt hi
  have hcheck := h i
  rw [Sim.running_iff.mp hi] at hcheck
  exact of_decide_eq_true hcheck

/-! ## §3. Three nodes in a line. -/

namespace Line

/-- The three nodes, each at its address. -/
def net : Net (Fin 3) where
  identity := identity
  config := config
  host addr := [0, 1, 2].find? fun i => SocketAddr.fromStr (address i) = some addr

/-- The nodes start, one after the other. -/
def boot : List (Move (Fin 3)) := [.act 0 .start, .act 1 .start, .act 2 .start]

/-- All three nodes run. -/
def started : Sim Crates.ideal (Fin 3) := (Sim.init _ _).play net Env.at boot

/-- Evaluated at once. -/
theorem boot_computed : ((Sim.init Crates.ideal (Fin 3)).run net Env.at boot).isSome = true ∧
    ∀ i : Fin 3, (started.node i).shared.map Shared.localStealth = some (stealth i) := by
  decide +kernel

/-- None of them is in the middle of a reply. -/
theorem started_listens : ∀ i : Fin 3, (started.node i).listens = true := by
  decide +kernel

/-- Nodes that have these stealths have distinct ones. -/
theorem distinct_of_computed {s : Sim Crates.ideal (Fin 3)}
    (h : ∀ i, (s.node i).shared.map Shared.localStealth = some (stealth i)) :
    s.state.DistinctStealths := by
  have hinj : ∀ i j : Fin 3, stealth i = stealth j → i = j := by decide
  refine State.distinctStealths_of hinj ?_
  intro i
  obtain ⟨sh, hsh, hstealth⟩ := Option.map_eq_some_iff.mp (h i)
  exact ⟨sh, Sim.runs_iff.mpr hsh, hstealth⟩

theorem run_started : ∃ tr, net.Run tr started.state ∧ Honest tr :=
  Sim.exists_run_play (by simp [boot]) boot_computed.1

theorem runs_started (i : Fin 3) : ∃ sh, started.state.Runs i sh ∧ sh.localStealth = stealth i := by
  obtain ⟨sh, hsh, hstealth⟩ := Option.map_eq_some_iff.mp (boot_computed.2 i)
  exact ⟨sh, Sim.runs_iff.mpr hsh, hstealth⟩

theorem runs {tr : List (Label Crates.ideal (Fin 3))} {s : State Crates.ideal (Fin 3)}
    (h : Lib.Exec (Step net) started.state tr s) (i : Fin 3) :
    ∃ sh, s.Runs i sh ∧ sh.localStealth = stealth i := by
  obtain ⟨sh, hsh, hstealth⟩ := runs_started i
  exact ⟨sh, exec_shared h hsh, hstealth⟩

theorem distinctStealths {tr : List (Label Crates.ideal (Fin 3))}
    {s : State Crates.ideal (Fin 3)} (h : Lib.Exec (Step net) started.state tr s) :
    s.DistinctStealths :=
  State.distinctStealths_of (by decide) (runs h)

/-- The first node reads the packet, which the middle one passes on. -/
def delivery : List (Move (Fin 3)) := [.act 0 (.tunRead packet), .deliver 0 false, .deliver 0 false]

/-- A ping is accepted, draws its id and enters the pending table. -/
def asking : List (Move (Fin 3)) :=
  [.act 0 (.adminRequest 0 (.ping "10.50.3.7" 1 1000)), .act 0 (.admin .ping 0),
    .act 0 (.admin .ping 0)]

/-- It is sent and answered at the other end; the answer is taken out of the
table and sent to the thread, which takes it. -/
def answering : List (Move (Fin 3)) :=
  [.act 0 (.admin .ping 0), .deliver 0 false, .deliver 0 false, .deliver 0 false, .deliver 0 false,
    .act 0 .reply, .act 0 (.admin .ping 0)]

/-- The last datagram is delivered twice. -/
def replay : List (Move (Fin 3)) :=
  boot ++ [.act 0 (.tunRead packet), .deliver 0 false, .deliver 0 true, .deliver 0 false]

end Line

end StealthNet
