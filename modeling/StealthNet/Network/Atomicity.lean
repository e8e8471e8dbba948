/-
  StealthNet.Network.Atomicity
  ────────────────────────────
  WHAT A FAILED DATAGRAM LEAVES BEHIND.

  Ten of the eleven arms of `handle_datagram` do the step that can fail
  before they change anything, or change nothing at all.  The arm for a
  ClientRegister keeps the registration first and then sends the
  acknowledgement: where that fails, the call returns an error and the
  registry has changed (`LosesAck`).

    • `handleDatagram_untouched_iff` — one call: an error leaves everything
                                       as it was exactly if the call is not
                                       such a registration;
    • `Net.Takes.atomic_iff`         — the same for every datagram a node
                                       receives in a run.
-/
import StealthNet.Network.Wire
import StealthNet.Network.Simulator

namespace StealthNet

variable {C : Crates}

/-! ## §1. One call. -/

/-- The three maps hold the same. -/
structure Tables.SameMaps (t t' : Tables) : Prop where
  pings : ∀ id, t'.pendingPings.lookup id = t.pendingPings.lookup id
  clients : ∀ id, t'.pendingClients.lookup id = t.pendingClients.lookup id
  registry : ∀ stealth, t'.registeredClients.lookup stealth = t.registeredClients.lookup stealth

theorem Tables.SameMaps.refl (t : Tables) : t.SameMaps t :=
  ⟨fun _ => rfl, fun _ => rfl, fun _ => rfl⟩

/-- A registration changes nothing exactly if this client is registered
already, with the same entry. -/
theorem Tables.sameMaps_register_iff (t : Tables) (reg : ClientRegister) :
    t.SameMaps (t.register reg) ↔
      t.registeredClients.lookup reg.client.clientStealth = some reg.client := by
  constructor
  · intro h
    rw [← h.registry]
    simp [Tables.register]
  · intro h
    refine ⟨fun _ => rfl, fun _ => rfl, fun stealth => ?_⟩
    simp only [Tables.register, Lib.HashMap.lookup_insert_eq]
    split
    · rename_i heq
      rw [heq, h]
    · rfl

/-- An outcome leaves no trace. -/
structure Untouched (t : Tables) (o : Outcome C) : Prop where
  maps : t.SameMaps o.tables
  datagrams : datagrams o.effects = []
  tun : tunWrites o.effects = []

/-- The datagram registers a new client, or an old one anew, and the
acknowledgement cannot be sent. -/
def LosesAck (C : Crates) (sh : Shared) (env : Env) (t : Tables) (packet : Bytes) : Prop :=
  ∃ peer reg, openDatagram C sh.peersById packet = .ok (peer, .clientRegister reg) ∧
    reg.ttl ≠ 0 ∧ reg.targetGatewayStealth = sh.localStealth ∧
    t.registeredClients.lookup reg.client.clientStealth ≠ some reg.client ∧
    ¬ CanForward C sh env reg.srcStealth (.clientRegisterAck (registerAck sh reg))

theorem Outcome.ofSent_result_iff {t : Tables} {r : Sent C} :
    (Outcome.ofSent t r).result = .ok () ↔ r.result = .ok () := by
  simp only [Outcome.ofSent]
  cases r.result <;> simp

section

variable {sh : Shared} {env : Env} {t : Tables} {peer : PeerRuntime}

/-- A failed message that registers nobody leaves no trace. -/
theorem Handled.untouched {m : Message} {o : Outcome C} (h : Handled sh env t peer m o)
    (hreg : registered sh t m = t) (hfail : o.result ≠ .ok ()) : Untouched t o := by
  cases h with
  | ignored => exact absurd rfl hfail
  | failed e => exact ⟨.refl t, rfl, rfl⟩
  | written => exact absurd rfl hfail
  | answered κ id payload _ =>
      refine absurd ?_ hfail
      simp only [answerPending]
      split <;> rfl
  | sent r hspec =>
      rw [ne_eq, Outcome.ofSent_result_iff] at hfail
      cases hr : r.result with
      | ok u => exact absurd hr hfail
      | error e =>
          refine ⟨?_, hspec.datagrams_of_error hr, hspec.tunWrites_eq⟩
          show t.SameMaps (registered sh t m)
          rw [hreg]
          exact .refl t

/-- A registration for this gateway fails with the acknowledgement. -/
theorem handleClientRegister_untouched_iff {reg : ClientRegister} (httl : reg.ttl ≠ 0)
    (htarget : reg.targetGatewayStealth = sh.localStealth) :
    ((handleClientRegister C sh env t reg).result ≠ .ok () →
        Untouched t (handleClientRegister C sh env t reg)) ↔
      (t.registeredClients.lookup reg.client.clientStealth = some reg.client ∨
        CanForward C sh env reg.srcStealth (.clientRegisterAck (registerAck sh reg))) := by
  have hspec := forwardByStealth_spec (C := C) sh env reg.srcStealth
    (.clientRegisterAck (registerAck sh reg))
  have heq : handleClientRegister C sh env t reg = .ofSent (t.register reg)
      (forwardByStealth C sh env reg.srcStealth (.clientRegisterAck (registerAck sh reg))) := by
    simp only [handleClientRegister, if_neg httl, if_pos htarget]
  rw [heq, ne_eq, Outcome.ofSent_result_iff, forwardByStealth_ok_iff]
  by_cases hsend : CanForward C sh env reg.srcStealth (.clientRegisterAck (registerAck sh reg))
  · simp [hsend]
  · simp only [hsend, not_false_eq_true, or_false, forall_const]
    constructor
    · intro h
      exact (t.sameMaps_register_iff reg).mp h.maps
    · intro h
      rw [← forwardByStealth_ok_iff] at hsend
      cases hr : (forwardByStealth C sh env reg.srcStealth
          (.clientRegisterAck (registerAck sh reg))).result with
      | ok u => exact absurd hr hsend
      | error e =>
          exact ⟨(t.sameMaps_register_iff reg).mpr h, hspec.datagrams_of_error hr,
            hspec.tunWrites_eq⟩

end

/-- An error leaves no trace exactly if the call is no registration whose
acknowledgement is lost. -/
theorem handleDatagram_untouched_iff (sh : Shared) (env : Env) (t : Tables) (packet : Bytes) :
    ((handleDatagram C sh env t packet).result ≠ .ok () →
        Untouched t (handleDatagram C sh env t packet)) ↔
      ¬ LosesAck C sh env t packet := by
  unfold handleDatagram LosesAck
  cases hopen : openDatagram C sh.peersById packet with
  | error e =>
      constructor
      · intro _ hlost
        obtain ⟨peer, reg, hok, -⟩ := hlost
        cases hok
      · intro _ _
        exact ⟨.refl t, rfl, rfl⟩
  | ok opened =>
      obtain ⟨peer, m⟩ := opened
      show ((dispatch C sh env t peer m).result ≠ .ok () →
        Untouched t (dispatch C sh env t peer m)) ↔ _
      by_cases hours : ∃ reg, m = .clientRegister reg ∧ reg.ttl ≠ 0 ∧
          reg.targetGatewayStealth = sh.localStealth
      · obtain ⟨reg, rfl, httl, htarget⟩ := hours
        rw [show dispatch C sh env t peer (.clientRegister reg)
          = handleClientRegister C sh env t reg from rfl,
          handleClientRegister_untouched_iff httl htarget]
        constructor
        · intro h hlost
          obtain ⟨peer', reg', hok, -, -, hnew, hack⟩ := hlost
          obtain ⟨-, heq⟩ := Prod.mk.inj (Except.ok.inj hok)
          obtain rfl := Message.clientRegister.inj heq
          exact h.elim hnew hack
        · intro h
          by_contra hnot
          rw [not_or] at hnot
          exact h ⟨peer, reg, rfl, httl, htarget, hnot.1, hnot.2⟩
      · -- every other arm fails before it changes anything
        have hreg : registered sh t m = t := by
          apply registered_of_not
          intro reg hm httl htarget
          exact hours ⟨reg, hm, httl, htarget⟩
        constructor
        · intro _ hlost
          obtain ⟨peer', reg, hok, httl, htarget, -⟩ := hlost
          obtain ⟨-, heq⟩ := Prod.mk.inj (Except.ok.inj hok)
          exact hours ⟨reg, heq, httl, htarget⟩
        · intro _ hfail
          exact (dispatch_handled m).untouched hreg hfail

/-! ## §2. Runs. -/

section

variable {ι : Type} [DecidableEq ι] {net : Net ι}

/-- A step that some run takes. -/
structure Net.Takes (net : Net ι) (s : State C ι) (l : Label C ι) (s' : State C ι) : Prop where
  reachable : ∃ tr, net.Run tr s
  step : Step net s l s'

/-- If the step is the receipt of a datagram that fails, the node's maps are
as before, nothing is written to its TUN and it emits no datagram. -/
def FailsAtomically (s : State C ι) (l : Label C ι) (s' : State C ι) : Prop :=
  ∀ i env packet sh rt, l.received = some (i, env, packet) → s.node i = .running sh rt →
    (handleDatagram C sh env rt.tables packet).result ≠ .ok () →
    ∃ rt', s'.node i = .running sh rt' ∧ rt.tables.SameMaps rt'.tables ∧
      tunWrites l.effects = [] ∧ datagrams l.effects = []

/-- The step is no registration whose acknowledgement is lost. -/
def KeepsAck (s : State C ι) (l : Label C ι) : Prop :=
  ∀ i env packet sh rt, l.received = some (i, env, packet) → s.node i = .running sh rt →
    ¬ LosesAck C sh env rt.tables packet

/-- In every run, the datagrams that fail leave no trace exactly in the steps
that are no registration whose acknowledgement is lost. -/
theorem Net.Takes.atomic_iff {s s' : State C ι} {l : Label C ι} (h : net.Takes s l s') :
    FailsAtomically s l s' ↔ KeepsAck s l := by
  constructor
  · intro hatomic i env packet sh rt hl hi
    rw [← handleDatagram_untouched_iff]
    intro hfail
    obtain ⟨hnode, heffects⟩ := h.step.running_of_received hl hi
    obtain ⟨rt', hrt', hsame, htun, hsent⟩ := hatomic i env packet sh rt hl hi hfail
    obtain ⟨-, rfl⟩ := Phase.running.inj (hnode.symm.trans hrt')
    rw [Runtime.tables_settle] at hsame
    rw [heffects] at htun hsent
    exact ⟨hsame, hsent, htun⟩
  · intro hkeeps i env packet sh rt hl hi hfail
    obtain ⟨hnode, heffects⟩ := h.step.running_of_received hl hi
    have huntouched :=
      (handleDatagram_untouched_iff sh env rt.tables packet).mpr (hkeeps i env packet sh rt hl hi)
        hfail
    refine ⟨_, hnode, ?_, ?_, ?_⟩
    · rw [Runtime.tables_settle]
      exact huntouched.maps
    · rw [heffects]
      exact huntouched.tun
    · rw [heffects]
      exact huntouched.datagrams

end

namespace Line

/-- The middle node receives some bytes. -/
def receipt (packet : Bytes) : Label Crates.ideal (Fin 3) :=
  .inject 1 packet (Env.at 3) ((started.node 1).receive Crates.ideal (Env.at 3) packet).2

/-- Where it is then. -/
def receiptState (packet : Bytes) : State Crates.ideal (Fin 3) :=
  started.state.after 1 ((started.node 1).receive Crates.ideal (Env.at 3) packet).1
    started.state.inflight
    (launched [started.state.clock]
      ((started.node 1).receive Crates.ideal (Env.at 3) packet).2.effects)

theorem takes_receipt (packet : Bytes) :
    net.Takes started.state (receipt packet) (receiptState packet) := by
  obtain ⟨tr, hrun, -⟩ := run_started
  exact ⟨⟨tr, hrun⟩, .inject (started_listens 1) rfl⟩

/-- Evaluated at once. -/
theorem registration_computed :
    (started.node 1).held.any (fun (sh, rt) =>
      let o := handleDatagram Crates.ideal sh (Env.at 3) rt.tables
        (datagram 0 1 (.clientRegister registration))
      decide (o.result = .error (.err "no overlay route for stealth destination st-x")) &&
      decide (rt.tables.registeredClients.lookup "st-x" = none) &&
      decide (o.tables.registeredClients.lookup "st-x" = some registration.client)) = true := by
  decide +kernel

/-- The gateway fails to acknowledge the registration, and keeps it. -/
theorem registration_kept_on_error :
    ∃ sh rt rt', net.Takes started.state (receipt (datagram 0 1 (.clientRegister registration)))
        (receiptState (datagram 0 1 (.clientRegister registration))) ∧
      started.state.node 1 = .running sh rt ∧
      (receiptState (datagram 0 1 (.clientRegister registration))).node 1 = .running sh rt' ∧
      (handleDatagram Crates.ideal sh (Env.at 3) rt.tables
        (datagram 0 1 (.clientRegister registration))).result
          = .error (.err "no overlay route for stealth destination st-x") ∧
      rt.tables.registeredClients.lookup "st-x" = none ∧
      rt'.tables.registeredClients.lookup "st-x" = some registration.client ∧
      ¬ FailsAtomically started.state (receipt (datagram 0 1 (.clientRegister registration)))
        (receiptState (datagram 0 1 (.clientRegister registration))) := by
  obtain ⟨⟨sh, rt⟩, hheld, hcheck⟩ := (Option.any_eq_true _ _).mp registration_computed
  simp only [Bool.and_eq_true, decide_eq_true_eq] at hcheck
  obtain ⟨⟨hresult, hbefore⟩, hafter⟩ := hcheck
  have hi : started.state.node 1 = .running sh rt := Sim.running_iff.mpr hheld
  have htakes := takes_receipt (datagram 0 1 (.clientRegister registration))
  obtain ⟨hnode, -⟩ := htakes.step.running_of_received rfl hi
  refine ⟨sh, rt, _, htakes, hi, hnode, hresult, hbefore, ?_, ?_⟩
  · rw [Runtime.tables_settle]
    exact hafter
  · intro hatomic
    obtain ⟨rt', hrt', hsame, -⟩ := hatomic 1 _ _ sh rt rfl hi (by rw [hresult]; simp)
    obtain ⟨-, rfl⟩ := Phase.running.inj (hnode.symm.trans hrt')
    have hlook := hsame.registry "st-x"
    rw [Runtime.tables_settle, hafter, hbefore] at hlook
    cases hlook

/-- A datagram that does not decrypt leaves no trace. -/
theorem junk_untouched :
    FailsAtomically started.state (receipt (junk 0)) (receiptState (junk 0)) := by
  refine (takes_receipt (junk 0)).atomic_iff.mpr ?_
  rintro i env packet sh rt hl hi ⟨peer, reg, hopen, -⟩
  obtain ⟨rfl, rfl, rfl⟩ : 1 = i ∧ Env.at 3 = env ∧ junk 0 = packet := by
    simpa only [receipt, Label.received, Option.some.injEq, Prod.mk.injEq] using hl
  have hjunk : (started.node 1).held.all (fun (sh, _) =>
      (openDatagram Crates.ideal sh.peersById (junk 0)).toOption.isNone) = true := by
    decide +kernel
  rw [Sim.running_iff.mp hi, Option.all_some] at hjunk
  simp [hopen, Except.toOption] at hjunk

end Line

end StealthNet
