/-
  StealthNet.Network.Storm
  ────────────────────────
  BOUNDED WORK PER MESSAGE.

  A request spawns a reply with a fresh ttl, so the ttl alone does not fall.
  `Message.weight` counts the handlings a message can still cause, its own and
  those of its reply; every handler emits a lighter message or none
  (`Emits.weight_lt`).  The weights in flight are therefore a potential for
  the number of handlings, and the number of datagrams in flight is one for
  the number of packets written to a TUN.
-/
import StealthNet.Network.Wire
import StealthNet.Network.Simulator
import Mathlib.Algebra.BigOperators.Group.Multiset.Basic

namespace StealthNet

variable {C : Crates} {ι : Type}

/-! ## §1. The weight of a message. -/

/-- How many handlings a message can cause: a request with ttl `t` is handled
at most `t` times, its reply 17 times. -/
def Message.weight : Message → Nat
  | .bootstrapReq _ => 2
  | .clientRegister m => m.ttl.toNat + 1
  | .data m => max 1 m.ttl.toNat
  | .pingReq m => if m.ttl = 0 then 1 else m.ttl.toNat + 17
  | .pingResp m => m.ttl.toNat + 1
  | .publicClientsReq m => if m.ttl = 0 then 1 else m.ttl.toNat + 17
  | .publicClientsResp m => m.ttl.toNat + 1
  | .keepalive _ | .bootstrapResp _ | .clientRegisterAck _ | .error _ => 1

theorem Message.one_le_weight (m : Message) : 1 ≤ m.weight := by
  cases m <;> simp only [weight] <;> (try split) <;> omega

theorem Message.weight_le (m : Message) : m.weight ≤ m.ttl.toNat + 17 := by
  cases m <;> simp only [weight, Message.ttl] <;> (try split) <;> omega

/-- Every handler emits a lighter message. -/
theorem Emits.weight_lt {sh : Shared} {env : Env} {t : Tables} {peer p : PeerRuntime}
    {m m' : Message} (h : Emits sh env t peer m p m') : m'.weight + 1 ≤ m.weight := by
  cases h with
  | granted => simp [Message.weight]
  | acknowledged httl _ _ =>
      have := ne_zero_iff_one_le.mp httl
      simp only [Message.weight]
      omega
  | ponged httl _ _ | published httl _ _ =>
      have := ne_zero_iff_one_le.mp httl
      simp only [Message.weight, if_neg httl, pingResponse, clientsResponse]
      simp
      omega
  | relayed hpass henough _ =>
      have h1 := hpass.addressed
      have hne : m.ttl ≠ 0 := Message.ne_zero_of_minTtl henough
      have hsub := toNat_sub_one hne
      cases m with
      | keepalive | bootstrapReq | bootstrapResp | clientRegisterAck | error =>
          simp [Message.relayTarget] at h1
      | data d =>
          simp only [Message.minTtl, Message.ttl] at henough hsub
          simp only [Message.weight, Message.withTtl, Message.ttl]
          omega
      | clientRegister _ | pingResp _ | publicClientsResp _ =>
          simp only [Message.ttl] at hsub
          simp only [Message.weight, Message.withTtl, Message.ttl]
          omega
      | pingReq _ | publicClientsReq _ =>
          simp only [Message.ttl] at hsub hne
          simp only [Message.weight, Message.withTtl, Message.ttl, if_neg hne]
          split <;> omega

/-! ## §2. One handling. -/

/-- A handled datagram causes at most one datagram or one write. -/
theorem Received.effects_bound {env : Env} {packet : Bytes} {p p' : Phase} {did : Activity C}
    (h : Received C env packet p p' did) :
    (datagrams did.effects).length + (tunWrites did.effects).length ≤ 1 := by
  cases h with
  | deaf | decided | refused => simp [Activity.idle, datagrams, tunWrites]
  | handled => exact (dispatch_handled _).effects_bound

/-- Handling one datagram emits at most one, and no ttl subtraction
underflows. -/
theorem handleDatagram_bound (sh : Shared) (env : Env) (t : Tables) (packet : Bytes) :
    (datagrams (handleDatagram C sh env t packet).effects).length ≤ 1 ∧
      (handleDatagram C sh env t packet).result ≠ .error .overflow := by
  unfold handleDatagram
  split
  · simp [Outcome.fail, datagrams]
  · rename_i peer m _
    have h : Handled sh env t peer m (dispatch C sh env t peer m) := dispatch_handled m
    have hbound := h.effects_bound
    exact ⟨by omega, h.result_ne_overflow⟩

/-! ## §3. Runs without new messages. -/

/-- The weight in flight. -/
def State.weight (s : State C ι) : Nat := (s.inflight.map fun f => f.msg.weight).sum

/-- Every step delivers a datagram, once, or loses one. -/
def Draining (tr : List (Label C ι)) : Prop :=
  ∀ l ∈ tr, (∃ i f env did, l = .deliver i f false env did) ∨ ∃ f, l = .drop f

/-- The step delivers a datagram once, or loses one. -/
def Label.drains : Label C ι → Bool
  | .deliver _ _ keep _ _ => !keep
  | .drop _ => true
  | _ => false

theorem draining_iff {tr : List (Label C ι)} : Draining tr ↔ tr.all Label.drains = true := by
  rw [List.all_eq_true]
  refine forall₂_congr fun l _ => ?_
  cases l <;> simp [Label.drains]

instance (tr : List (Label C ι)) : Decidable (Draining tr) := decidable_of_iff _ draining_iff.symm

/-- How many datagrams a step hands to a node. -/
def Label.handlings : Label C ι → Nat
  | .deliver _ _ _ _ _ => 1
  | .inject _ _ _ _ => 1
  | _ => 0

/-- How many packets a step writes to a TUN. -/
def Label.writes (l : Label C ι) : Nat := (tunWrites l.effects).length

theorem sum_launched_le {trail : List Nat} {effects : List (Effect C)} {w : Message → Nat}
    {b : Nat} (hlen : (datagrams effects).length ≤ 1)
    (h : ∀ d, Effect.udpSend d ∈ effects → w d.call.msg ≤ b) :
    ((launched trail effects).map fun f => w f.msg).sum ≤ b := by
  match hd : datagrams effects with
  | [] => simp [launched, hd]
  | [d] =>
      have hmem : Effect.udpSend d ∈ effects := mem_datagrams.mp (by simp [hd])
      simpa [launched, hd, Flight.msg] using h d hmem
  | _ :: _ :: _ => simp [hd] at hlen

variable [DecidableEq ι] {net : Net ι}

/-- A delivery is paid for by the weight in flight. -/
theorem Step.weight_le (hb : C.BincodeRoundTrips) (ha : C.IdealAead) {s s' : State C ι}
    {l : Label C ι} (h : Step net s l s') (hl : Draining [l]) :
    l.handlings + s'.weight ≤ s.weight := by
  rcases hl l (List.mem_singleton_self l) with ⟨i, f, env, did, rfl⟩ | ⟨f, rfl⟩
  · have hrec := h.received_of_deliver.2.2
    have hbound := hrec.effects_bound
    have hlen : (datagrams did.effects).length ≤ 1 := by omega
    have hlaunched : ∀ trail, ((launched trail did.effects).map fun f => f.msg.weight).sum
        ≤ f.msg.weight - 1 := by
      intro trail
      refine sum_launched_le hlen fun d hd => ?_
      obtain ⟨sh, rt, peer, m, q, -, hopen, -, hemit, -⟩ :=
        hrec.called (hrec.encrypted_of_udpSend hd)
      obtain ⟨-, -, rfl⟩ := (openDatagram_datagram hb ha _).mp hopen
      have := hemit.weight_lt
      simp only [Flight.msg]
      omega
    have hone := f.msg.one_le_weight
    cases h with
    | deliver hf _ _ =>
        have := hlaunched (s.clock :: f.trail)
        simp only [State.weight, State.after, hf, Label.handlings, Multiset.map_add,
          Multiset.sum_add, Multiset.map_cons, Multiset.sum_cons, Bool.false_eq_true, if_false]
        omega
  · cases h with
    | drop hf =>
        simp only [State.weight, hf, Label.handlings, Multiset.map_cons, Multiset.sum_cons]
        omega

/-- So is a write, by the number of datagrams in flight. -/
theorem Step.card_le {s s' : State C ι} {l : Label C ι} (h : Step net s l s')
    (hl : Draining [l]) : l.writes + s'.inflight.card ≤ s.inflight.card := by
  rcases hl l (List.mem_singleton_self l) with ⟨i, f, env, did, rfl⟩ | ⟨f, rfl⟩
  · have hbound := h.received_of_deliver.2.2.effects_bound
    cases h with
    | deliver hf _ _ =>
        simp only [State.after, hf, Label.writes, Label.effects, Multiset.card_add,
          Multiset.card_cons, launched, Multiset.coe_card, List.length_map,
          Bool.false_eq_true, if_false]
        omega
  · cases h with
    | drop hf =>
        simp only [hf, Label.writes, Label.effects, tunWrites, List.filterMap_nil,
          List.length_nil, Multiset.card_cons]
        omega

/-- From one message with time-to-live `t`, whatever the peers and routes of
the nodes, at most `t + 17` datagrams are handled and at most one packet is
written to a TUN. -/
theorem no_message_storm (hb : C.BincodeRoundTrips) (ha : C.IdealAead) :
    (∀ sh env t packet, (datagrams (handleDatagram C sh env t packet).effects).length ≤ 1 ∧
      (handleDatagram C sh env t packet).result ≠ .error .overflow) ∧
    (∀ (net : Net ι) (s s' : State C ι) f tr, s.inflight = {f} →
      Lib.Exec (Step net) s tr s' → Draining tr →
      (tr.map Label.handlings).sum ≤ f.msg.ttl.toNat + 17 ∧ (tr.map Label.writes).sum ≤ 1) := by
  refine ⟨handleDatagram_bound, fun net s s' f tr hf hexec hdrain => ⟨?_, ?_⟩⟩
  · have h := hexec.potential State.weight Label.handlings
      fun s l s' hstep hl => hstep.weight_le hb ha (by simpa [Draining] using hdrain l hl)
    have hweight : s.weight = f.msg.weight := by simp [State.weight, hf]
    have := f.msg.weight_le
    omega
  · have h := hexec.potential (fun s => s.inflight.card) Label.writes
      fun s l s' hstep hl => hstep.card_le (by simpa [Draining] using hdrain l hl)
    simp only [hf, Multiset.card_singleton] at h
    omega

/-- One packet on its way through the line. -/
theorem Line.bounded_work :
    ∃ (s s' : State Crates.ideal (Fin 3)) (f : Flight Crates.ideal)
      (tr : List (Label Crates.ideal (Fin 3))), s.inflight = {f} ∧
      Lib.Exec (Step Line.net) s tr s' ∧ (tr.map Label.writes).sum = 1 ∧
      (tr.map Label.handlings).sum ≤ f.msg.ttl.toNat + 17 := by
  have hone : (Line.started.play Line.net Env.at [.act 0 (.tunRead Line.packet)]).inflight.length
      = 1 := by
    decide +kernel
  obtain ⟨f, hf⟩ := List.length_eq_one_iff.mp hone
  obtain ⟨tr, s', hexec, -, hcheck⟩ := Sim.exists_run Line.net Env.at
    (Line.started.play Line.net Env.at [.act 0 (.tunRead Line.packet)])
    [.deliver 0 false, .deliver 0 false]
    (fun tr _ => (tr.map Label.writes).sum == 1 && decide (Draining tr)) (by simp) (by decide +kernel)
  rw [Bool.and_eq_true, beq_iff_eq, decide_eq_true_iff] at hcheck
  have hflight : (Line.started.play Line.net Env.at [.act 0 (.tunRead Line.packet)]).state.inflight
      = {f} := by
    simp only [Sim.state, hf, Multiset.coe_singleton]
  exact ⟨_, s'.state, f, tr, hflight, hexec, hcheck.1,
    ((no_message_storm Crates.bincodeRoundTrips_ideal Crates.idealAead_ideal).2 Line.net _ _ f tr
      hflight hexec hcheck.2).1⟩

end StealthNet
