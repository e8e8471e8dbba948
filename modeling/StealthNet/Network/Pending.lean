/-
  StealthNet.Network.Pending
  ──────────────────────────
  THE PENDING TABLES NEITHER LEAK NOR ADMIT STRANGERS.

  An entry of a pending table is entered by the thread of an admin request
  and taken out by the handler of a response, or by the thread after a failed
  send or a timeout.  Whatever the order of these steps, and whatever arrives
  in between:

    • `Net.Run.pending_issued` — an entry carries the ticket of the request
                                 its thread is at;
    • `Net.Run.tidy`           — so entries are ids of requests in progress,
                                 no id is in both tables, an ended request has
                                 no entry, and idle nodes have none at all.

  Nothing is assumed of the cryptography, and datagrams may be forged.
-/
import StealthNet.Network.Requests
import StealthNet.Network.Simulator

namespace StealthNet

open Lib (HashMap)

variable {C : Crates} {ι : Type}

/-! ## §1. What the tables should hold. -/

/-- `id` is the id of an admin request of kind `κ` that is in progress: a
thread accepted it and is at the iteration that drew this id. -/
def InProgress (tr : List (Label C ι)) (i : ι) (rt : Runtime) (κ : RequestKind) (id : UInt64) :
    Prop :=
  ∃ n job req request env did, rt.jobs κ n = some job ∧ job.current = some req ∧ req.id = id ∧
    ¬ job.completed ∧ Label.act i (.adminRequest n request) env did ∈ tr ∧
    request.job = some ⟨κ, .start κ job.target job.timeoutMs job.count⟩

/-- The pending tables of a node hold no more than its requests in progress. -/
structure Tidy (tr : List (Label C ι)) (i : ι) (rt : Runtime) : Prop where
  inProgress : ∀ κ id tx, (rt.tables.pending κ).lookup id = some tx → InProgress tr i rt κ id
  once : ∀ id, rt.tables.pendingPings.lookup id = none ∨
    rt.tables.pendingClients.lookup id = none
  ended : ∀ κ n (job : Job κ) (k : Nat) id answer, rt.jobs κ n = some job →
    job.results[k]? = some (some id, answer) → ∀ κ', (rt.tables.pending κ').lookup id = none
  idle : (∀ κ n (job : Job κ), rt.jobs κ n = some job → job.current = none) →
    rt.tables.pendingPings = ∅ ∧ rt.tables.pendingClients = ∅

/-- A map without entries is empty. -/
theorem eq_empty_of_lookup {m : HashMap UInt64 Tx} (h : ∀ id, m.lookup id = none) : m = ∅ := by
  apply AList.ext
  apply List.eq_nil_iff_forall_not_mem.mpr
  intro entry hentry
  have hmem : entry.1 ∈ m := AList.mem_keys.mpr (List.mem_map_of_mem hentry)
  exact AList.lookup_eq_none.mp (h entry.1) hmem

/-! ## §2. Runs. -/

section

variable [DecidableEq ι] {net : Net ι} {tr : List (Label C ι)} {s : State C ι} {i : ι}
  {sh : Shared} {rt : Runtime}

/-- The ticket of an entry was issued to the iteration its thread is at. -/
theorem Net.Run.pending_issued (hrun : net.Run tr s) (hi : s.node i = .running sh rt)
    {κ : RequestKind} {id : UInt64} {tx : Tx}
    (hlook : (rt.tables.pending κ).lookup id = some tx) :
    ∃ job req, Awaited rt κ id tx job req ∧ JobOk tr i κ tx.job job ∧
      Issued tr i ⟨κ, id, ⟨tx.job, job.results.length⟩, req.target⟩ := by
  obtain ⟨job, req, hawaited⟩ := (hrun.pending hi).awaited κ id tx hlook
  have hok := (hrun.threads hi).jobs κ tx.job job hawaited.thread
  have hissued := hok.current req hawaited.current
  rw [hawaited.id] at hissued
  exact ⟨job, req, hawaited, hok, hissued⟩

/-- An entry belongs to a request in progress. -/
theorem Net.Run.pending_inProgress (hrun : net.Run tr s) (hi : s.node i = .running sh rt)
    {κ : RequestKind} {id : UInt64} {tx : Tx}
    (hlook : (rt.tables.pending κ).lookup id = some tx) : InProgress tr i rt κ id := by
  obtain ⟨job, req, hawaited, hok, -⟩ := hrun.pending_issued hi hlook
  obtain ⟨request, env, did, haccepted, hrequest⟩ := hok.accepted
  refine ⟨tx.job, job, req, request, env, did, hawaited.thread, hawaited.current, hawaited.id, ?_,
    haccepted, hrequest⟩
  intro hcompleted
  have hcurrent := hawaited.current
  rw [hcompleted.1] at hcurrent
  cases hcurrent

/-- Two entries under one id are of one kind. -/
theorem Net.Run.pending_kind (hrun : net.Run tr s) (hi : s.node i = .running sh rt)
    (hdrawn : rt.tables.drawn ≤ 2 ^ 64) {κ κ' : RequestKind} {id : UInt64} {tx tx' : Tx}
    (hlook : (rt.tables.pending κ).lookup id = some tx)
    (hlook' : (rt.tables.pending κ').lookup id = some tx') : κ = κ' := by
  obtain ⟨job, req, -, -, hissued⟩ := hrun.pending_issued hi hlook
  obtain ⟨job', req', -, -, hissued'⟩ := hrun.pending_issued hi hlook'
  have heq := (hrun.ids hi hdrawn).unique _ _ hissued hissued' rfl
  exact (Ticket.mk.inj heq).1

/-- A request that has its result has no entry. -/
theorem Net.Run.pending_of_result (hrun : net.Run tr s) (hi : s.node i = .running sh rt)
    (hdrawn : rt.tables.drawn ≤ 2 ^ 64) {κ κ' : RequestKind} {n k : Nat} {job : Job κ}
    {id : UInt64} {answer : Answer κ} (hjob : rt.jobs κ n = some job)
    (hk : job.results[k]? = some (some id, answer)) :
    (rt.tables.pending κ').lookup id = none := by
  rw [Option.eq_none_iff_forall_ne_some]
  intro tx hlook
  obtain ⟨job', req, hawaited, -, hissued⟩ := hrun.pending_issued hi hlook
  obtain ⟨target, hissued'⟩ := ((hrun.threads hi).jobs κ n job hjob).results k id answer hk
  -- both tickets carry the id, so they are one ticket
  have heq := (hrun.ids hi hdrawn).unique _ _ hissued hissued' rfl
  obtain ⟨rfl, -, htx, -⟩ := Ticket.mk.inj heq
  obtain ⟨hn, hlen⟩ := Tx.mk.inj htx
  have hthread := hawaited.thread
  rw [hn, hjob] at hthread
  obtain rfl := Option.some.inj hthread
  -- but the thread has no result yet for the iteration it is at
  obtain ⟨hlt, -⟩ := List.getElem?_eq_some_iff.mp hk
  omega

/-- Before the request counter wraps around, the pending tables are tidy at
every moment of every run. -/
theorem Net.Run.tidy (hrun : net.Run tr s) (hi : s.node i = .running sh rt)
    (hdrawn : rt.tables.drawn < 2 ^ 64) : Tidy tr i rt := by
  have hle := Nat.le_of_lt hdrawn
  refine ⟨fun κ id tx hlook => hrun.pending_inProgress hi hlook, ?_,
    fun κ n job k id answer hjob hk κ' => hrun.pending_of_result hi hle hjob hk, ?_⟩
  · intro id
    by_contra hboth
    rw [not_or] at hboth
    obtain ⟨tx, hping⟩ := Option.ne_none_iff_exists'.mp hboth.1
    obtain ⟨tx', hclients⟩ := Option.ne_none_iff_exists'.mp hboth.2
    have hkind : RequestKind.ping = .clients := hrun.pending_kind hi hle hping hclients
    cases hkind
  · intro hidle
    have hnone : ∀ κ id, (rt.tables.pending κ).lookup id = none := by
      intro κ id
      rw [Option.eq_none_iff_forall_ne_some]
      intro tx hlook
      obtain ⟨job, req, hawaited⟩ := (hrun.pending hi).awaited κ id tx hlook
      have hcurrent := hidle κ tx.job job hawaited.thread
      rw [hawaited.current] at hcurrent
      cases hcurrent
    exact ⟨eq_empty_of_lookup (hnone .ping), eq_empty_of_lookup (hnone .clients)⟩

end

namespace Line

/-- The first node has entered a ping. Evaluated at once. -/
theorem asking_computed :
    ((started.run net Env.at asking).any fun r => (r.2.node 0).held.any fun (_, rt) =>
      (rt.tables.pendingPings.lookup 1).isSome && decide (rt.tables.drawn < 2 ^ 64)) = true := by
  decide +kernel

/-- Its entry is of a ping in progress, and it is in no other table. -/
theorem asking_tidy :
    ∃ (tr : List (Label Crates.ideal (Fin 3))) (s : State Crates.ideal (Fin 3)) (sh : Shared)
      (rt : Runtime), net.Run tr s ∧ s.node 0 = .running sh rt ∧
      (rt.tables.pendingPings.lookup 1).isSome = true ∧ InProgress tr 0 rt .ping 1 ∧
      rt.tables.pendingClients.lookup 1 = none := by
  obtain ⟨tr₀, hrun₀, -⟩ := run_started
  obtain ⟨tr, s, hexec, -, hcheck⟩ := Sim.exists_run net Env.at started asking
    (fun _ s => (s.node 0).held.any fun (_, rt) =>
      (rt.tables.pendingPings.lookup 1).isSome && decide (rt.tables.drawn < 2 ^ 64))
    (by simp [asking]) asking_computed
  obtain ⟨⟨sh, rt⟩, hheld, hcheck⟩ := (Option.any_eq_true _ _).mp hcheck
  rw [Bool.and_eq_true, decide_eq_true_eq] at hcheck
  have hi : s.state.node 0 = .running sh rt := Phase.held_eq_some.mp hheld
  have hrun := hrun₀.append hexec
  have htidy := Net.Run.tidy hrun hi hcheck.2
  obtain ⟨tx, hlook⟩ := Option.isSome_iff_exists.mp hcheck.1
  refine ⟨_, _, sh, rt, hrun, hi, hcheck.1, htidy.inProgress .ping 1 tx hlook, ?_⟩
  rcases htidy.once 1 with hnone | hnone
  · rw [hlook] at hnone
    cases hnone
  · exact hnone

end Line

end StealthNet
