/-
  StealthNet.Network.Wire
  ───────────────────────
  WHAT IS IN FLIGHT, AND WHY.

  Every call of `send_direct` in a step has a cause (`Cause`): the node made
  it by itself, or it answers or relays a message the node dispatched.  Where
  datagrams come from nodes only, the dispatched message is the one that was
  sent, so a property of messages that originated messages have and every
  handler passes on holds of all messages in flight (`Net.Run.wire`).
-/
import StealthNet.Network.Cases

namespace StealthNet

variable {C : Crates} {ι : Type} [DecidableEq ι] {net : Net ι}

/-! ## §1. Datagrams in flight. -/

theorem mem_launched {trail : List Nat} {effects : List (Effect C)} {f : Flight C} :
    f ∈ launched trail effects ↔ Effect.udpSend f.datagram ∈ effects ∧ f.trail = trail := by
  obtain ⟨d, trail'⟩ := f
  simp only [launched, Multiset.mem_coe, List.mem_map, mem_datagrams, Flight.mk.injEq]
  constructor
  · rintro ⟨d', hd, rfl, rfl⟩
    exact ⟨hd, rfl⟩
  · rintro ⟨hd, rfl⟩
    exact ⟨d, hd, rfl, rfl⟩

/-- The steps a datagram launched in this step comes from. -/
def Label.trail (clock : Nat) : Label C ι → List Nat
  | .deliver _ f _ _ _ => clock :: f.trail
  | _ => [clock]

/-- A datagram in flight after a step was in flight before or is new. -/
theorem Step.inflight {s s' : State C ι} {l : Label C ι} (h : Step net s l s') {f : Flight C}
    (hf : f ∈ s'.inflight) :
    f ∈ s.inflight ∨ ∃ i did, l.Does i did ∧ Effect.udpSend f.datagram ∈ did.effects ∧
      f.trail = l.trail s.clock := by
  cases h with
  | @act i ev env p did hact =>
      rcases Multiset.mem_add.mp hf with hf | hf
      · exact Or.inl hf
      · exact Or.inr ⟨i, did, Or.inl ⟨ev, env, rfl⟩, mem_launched.mp hf⟩
  | @deliver i g rest keep env p did hg hi _ hrec =>
      rcases Multiset.mem_add.mp hf with hf | hf
      · refine Or.inl ?_
        cases keep with
        | true => exact hf
        | false => exact hg ▸ Multiset.mem_cons_of_mem hf
      · exact Or.inr ⟨i, did, Or.inr (Or.inl ⟨g, keep, env, rfl⟩), mem_launched.mp hf⟩
  | @inject i packet env p did _ hrec =>
      rcases Multiset.mem_add.mp hf with hf | hf
      · exact Or.inl hf
      · exact Or.inr ⟨i, did, Or.inr (Or.inr ⟨packet, env, rfl⟩), mem_launched.mp hf⟩
  | drop hg => exact Or.inl (hg ▸ Multiset.mem_cons_of_mem hf)

/-! ## §2. The cause of a call. -/

/-- Why node `i` called `send_direct` in this step. -/
inductive Cause (net : Net ι) (s : State C ι) : Label C ι → ι → SendCall C → Prop
  | acted {i : ι} {ev : LocalEvent} {env : Env} {did : Activity C} {call : SendCall C}
      (h : LocalCall C env (net.identity i) (net.config i) (s.node i) ev call) :
      Cause net s (.act i ev env did) i call
  | delivered {i : ι} {f : Flight C} {keep : Bool} {env : Env} {did : Activity C} {sh : Shared}
      {rt : Runtime} {peer p : PeerRuntime} {m : Message} {call : SendCall C}
      (hf : f ∈ s.inflight) (hrun : s.node i = .running sh rt)
      (hopen : openDatagram C sh.peersById f.datagram.bytes = .ok (peer, m))
      (hdid : did.dispatched = some (peer, m))
      (hemit : Emits sh env rt.tables peer m p call.msg) (hto : call.To sh p call.msg) :
      Cause net s (.deliver i f keep env did) i call
  | injected {i : ι} {packet : Bytes} {env : Env} {did : Activity C} {sh : Shared}
      {rt : Runtime} {peer p : PeerRuntime} {m : Message} {call : SendCall C}
      (hrun : s.node i = .running sh rt)
      (hopen : openDatagram C sh.peersById packet = .ok (peer, m))
      (hdid : did.dispatched = some (peer, m))
      (hemit : Emits sh env rt.tables peer m p call.msg) (hto : call.To sh p call.msg) :
      Cause net s (.inject i packet env did) i call

/-- A received datagram makes a node call `send_direct` only by dispatching. -/
theorem Received.called {env : Env} {packet : Bytes} {p p' : Phase} {did : Activity C}
    (h : Received C env packet p p' did) {call : SendCall C}
    (hc : Effect.encrypted call ∈ did.effects) :
    ∃ sh rt peer m q, p = .running sh rt ∧ openDatagram C sh.peersById packet = .ok (peer, m) ∧
      did.dispatched = some (peer, m) ∧ Emits sh env rt.tables peer m q call.msg ∧
      call.To sh q call.msg := by
  cases h with
  | deaf | decided | refused => simp [Activity.idle] at hc
  | @handled sh rt peer m hopen =>
      -- a client that waits and a node that refuses call nobody
      obtain ⟨q, hemit, hto⟩ := (dispatch_handled m).of_encrypted hc
      exact ⟨sh, rt, peer, m, q, rfl, hopen, rfl, hemit, hto⟩

theorem Received.encrypted_of_udpSend {env : Env} {packet : Bytes} {p p' : Phase}
    {did : Activity C} (h : Received C env packet p p' did) {d : Datagram C}
    (hd : Effect.udpSend d ∈ did.effects) : Effect.encrypted d.call ∈ did.effects := by
  cases h with
  | deaf | decided | refused => simp [Activity.idle] at hd
  | @handled sh rt peer m hopen =>
      exact (dispatch_handled m).encrypted_of_udpSend hd

section

variable {s s' : State C ι} {l : Label C ι} {i : ι} {did : Activity C}

/-- What a node did to itself in a step, when it did something. -/
theorem Step.received_of_deliver {f : Flight C} {keep : Bool} {env : Env}
    (h : Step net s (.deliver i f keep env did) s') :
    f ∈ s.inflight ∧ net.host f.datagram.call.addr = some i ∧
      Received C env f.datagram.bytes (s.node i) (s'.node i) did := by
  cases h with
  | @deliver _ _ rest _ _ p _ hf hi _ hrec =>
      have hcases := Phase.receive_cases (C := C) env f.datagram.bytes (s.node i)
      rw [hrec] at hcases
      rw [show (s.after i p _ _).node i = p from Function.update_self ..]
      exact ⟨hf ▸ Multiset.mem_cons_self f rest, hi, hcases⟩

theorem Step.received_of_inject {packet : Bytes} {env : Env}
    (h : Step net s (.inject i packet env did) s') :
    Received C env packet (s.node i) (s'.node i) did := by
  cases h with
  | @inject _ _ _ p _ _ hrec =>
      have hcases := Phase.receive_cases (C := C) env packet (s.node i)
      rw [hrec] at hcases
      rw [show (s.after i p _ _).node i = p from Function.update_self ..]
      exact hcases

theorem Step.receive_of_received (h : Step net s l s') {env : Env} {packet : Bytes}
    (hl : l.received = some (i, env, packet)) :
    ∃ did, l.Does i did ∧ (s.node i).receive C env packet = (s'.node i, did) := by
  cases h with
  | act | drop => cases hl
  | @deliver j f rest keep env' p did hf hi _ hrec =>
      obtain ⟨rfl, rfl, rfl⟩ : j = i ∧ env' = env ∧ f.datagram.bytes = packet := by
        simpa only [Label.received, Option.some.injEq, Prod.mk.injEq] using hl
      rw [show (s.after j p _ _).node j = p from Function.update_self ..]
      exact ⟨did, Label.does_deliver j f keep env' did, hrec⟩
  | @inject j packet' env' p did _ hrec =>
      obtain ⟨rfl, rfl, rfl⟩ : j = i ∧ env' = env ∧ packet' = packet := by
        simpa only [Label.received, Option.some.injEq, Prod.mk.injEq] using hl
      rw [show (s.after j p _ _).node j = p from Function.update_self ..]
      exact ⟨did, Label.does_inject j packet' env' did, hrec⟩

/-- A node receives only when its udp loop has nothing left to send. -/
theorem Step.listens_of_received (h : Step net s l s') {env : Env} {packet : Bytes}
    (hl : l.received = some (i, env, packet)) : (s.node i).listens = true := by
  cases h with
  | act | drop => cases hl
  | deliver hf hi hlisten hrec =>
      obtain ⟨rfl, -⟩ := Prod.mk.inj (Option.some.inj hl)
      exact hlisten
  | inject hlisten hrec =>
      obtain ⟨rfl, -⟩ := Prod.mk.inj (Option.some.inj hl)
      exact hlisten

theorem Step.sending_of_received (h : Step net s l s') {env : Env} {packet : Bytes}
    (hl : l.received = some (i, env, packet)) {sh : Shared} {rt : Runtime}
    (hi : s.node i = .running sh rt) : rt.sending = none := by
  have hlisten := h.listens_of_received hl
  rw [hi] at hlisten
  exact Option.isNone_iff_eq_none.mp hlisten

/-- A running node that receives bytes calls `handle_datagram`. -/
theorem Step.running_of_received (h : Step net s l s') {env : Env} {packet : Bytes}
    (hl : l.received = some (i, env, packet)) {sh : Shared} {rt : Runtime}
    (hi : s.node i = .running sh rt) :
    s'.node i = .running sh (rt.settle (handleDatagram C sh env rt.tables packet)) ∧
      l.effects = (handleDatagram C sh env rt.tables packet).effects := by
  obtain ⟨did, hdoes, hrec⟩ := h.receive_of_received hl
  rw [hi] at hrec
  obtain ⟨hnode, hdid⟩ := Prod.mk.inj hrec
  refine ⟨hnode.symm, ?_⟩
  rw [← hdoes.effects, ← hdid]

theorem Step.act_of_act {ev : LocalEvent} {env : Env} (h : Step net s (.act i ev env did) s') :
    (s.node i).act C env (net.identity i) (net.config i) ev = some (s'.node i, did) := by
  cases h with
  | @act _ _ _ p _ hact =>
      rw [show (s.after i p _ _).node i = p from Function.update_self ..]
      exact hact

theorem Step.called (h : Step net s l s') (hd : l.Does i did) {call : SendCall C}
    (hc : Effect.encrypted call ∈ did.effects) : Cause net s l i call := by
  rcases hd with ⟨ev, env, rfl⟩ | ⟨f, keep, env, rfl⟩ | ⟨packet, env, rfl⟩
  · obtain ⟨_, hspec⟩ := (Phase.act_cases h.act_of_act).sends
    exact .acted (hspec.of_encrypted hc)
  · obtain ⟨hf, -, hrec⟩ := h.received_of_deliver
    obtain ⟨sh, rt, peer, m, q, hrun, hopen, hdid, hemit, hto⟩ := hrec.called hc
    exact .delivered hf hrun hopen hdid hemit hto
  · obtain ⟨sh, rt, peer, m, q, hrun, hopen, hdid, hemit, hto⟩ := h.received_of_inject.called hc
    exact .injected hrun hopen hdid hemit hto

theorem Step.encrypted_of_udpSend (h : Step net s l s') (hd : l.Does i did) {d : Datagram C}
    (hu : Effect.udpSend d ∈ did.effects) : Effect.encrypted d.call ∈ did.effects := by
  rcases hd with ⟨ev, env, rfl⟩ | ⟨f, keep, env, rfl⟩ | ⟨packet, env, rfl⟩
  · obtain ⟨_, hspec⟩ := (Phase.act_cases h.act_of_act).sends
    exact hspec.encrypted_of_udpSend hu
  · exact h.received_of_deliver.2.2.encrypted_of_udpSend hu
  · exact h.received_of_inject.encrypted_of_udpSend hu

/-- Where datagrams come from nodes only, what is dispatched was in flight. -/
theorem Step.dispatched_inflight (hb : C.BincodeRoundTrips) (ha : C.IdealAead)
    (h : Step net s l s') (hhonest : Honest [l]) (hd : l.Does i did) {peer : PeerRuntime}
    {m : Message} (hdid : did.dispatched = some (peer, m)) :
    ∃ f keep env, l = .deliver i f keep env did ∧ f ∈ s.inflight ∧ m = f.msg := by
  rcases hd with ⟨ev, env, rfl⟩ | ⟨f, keep, env, rfl⟩ | ⟨packet, env, rfl⟩
  · rw [(Phase.act_cases h.act_of_act).dispatched] at hdid
    cases hdid
  · obtain ⟨hf, -, hrec⟩ := h.received_of_deliver
    obtain ⟨peers, hopen⟩ := hrec.opened hdid
    obtain ⟨-, -, hm⟩ := (openDatagram_datagram hb ha _).mp hopen
    exact ⟨f, keep, env, rfl, hf, hm⟩
  · exact absurd rfl (hhonest _ (List.mem_singleton_self _) _ _ _ _)

end

/-! ## §3. The induction rule for messages in flight. -/

/-- What originated messages have and every handler passes on, all messages
in flight have. -/
theorem Net.Run.wire (hb : C.BincodeRoundTrips) (ha : C.IdealAead)
    {P : List (Label C ι) → State C ι → Message → Prop}
    (hmono : ∀ tr s l s' m, Step net s l s' → P tr s m → P (tr ++ [l]) s' m)
    (hasked : ∀ tr s req, P tr s (.bootstrapReq req))
    (horig : ∀ tr s s' i ev env did sh rt p m, net.Run tr s →
      Step net s (.act i ev env did) s' → s.node i = .running sh rt →
      Originates sh rt env ev p m → (∃ call, Effect.encrypted call ∈ did.effects ∧ call.msg = m) →
      P (tr ++ [.act i ev env did]) s' m)
    (hemit : ∀ tr s s' i f keep env did sh rt peer p m', net.Run tr s →
      Step net s (.deliver i f keep env did) s' → s.node i = .running sh rt →
      P tr s f.msg → did.dispatched = some (peer, f.msg) →
      Emits sh env rt.tables peer f.msg p m' → P (tr ++ [.deliver i f keep env did]) s' m')
    {tr : List (Label C ι)} {s : State C ι} (hrun : net.Run tr s) (hhonest : Honest tr) :
    ∀ f ∈ s.inflight, P tr s f.msg := by
  refine hrun.history (I := fun tr s => Honest tr → ∀ f ∈ s.inflight, P tr s f.msg) ?_ ?_
    hhonest
  · intro _ f hf
    simp [State.init] at hf
  · intro tr s l s' hrun ih hstep hhonest f hf
    have ih := ih hhonest.of_append
    -- a message in flight was there before, or is sent in this step for some cause
    rcases hstep.inflight hf with hf | ⟨i, did, hd, hu, -⟩
    · exact hmono tr s l s' _ hstep (ih f hf)
    · have hc := hstep.encrypted_of_udpSend hd hu
      have hcause := hstep.called hd hc
      cases hcause with
      | acted hlocal =>
          generalize hn : s.node i = p at hlocal
          cases hlocal with
          | asked _ _ hto =>
              rw [Flight.msg, hto.msg]
              exact hasked _ _ _
          | originated ho _ =>
              obtain ⟨-, rfl⟩ := hd.act_inv
              exact horig _ _ _ _ _ _ _ _ _ _ _ hrun hstep hn ho ⟨_, hc, rfl⟩
      | delivered hg hn hopen hdid hemits _ =>
          -- with an ideal AEAD the receiver opens what was sent
          obtain ⟨-, -, rfl⟩ := (openDatagram_datagram hb ha _).mp hopen
          exact hemit _ _ _ _ _ _ _ _ _ _ _ _ _ hrun hstep hn (ih _ hg) hdid hemits
      | injected =>
          exact absurd rfl (hhonest _ (List.mem_append_right _ (List.mem_singleton_self _)) _ _ _ _)

end StealthNet
