/-
  StealthNet.Network.Replay
  ─────────────────────────
  HOW OFTEN A PACKET REACHES A TUN.

  No handler remembers what it has seen, so a datagram that the network
  delivers again is handled again.  What does hold is an account: every packet
  written to a TUN is paid for by one datagram made of it at its origin, or by
  one delivery of a datagram that carries it and was delivered before
  (`Net.Run.writes_le`).  Relays, with their fresh nonces, add nothing to the
  account.
-/
import StealthNet.Network.Wire
import StealthNet.Network.Storm
import StealthNet.Network.Simulator

namespace StealthNet

variable {C : Crates} {ι : Type}

/-- The message is a DATA with this packet in it. -/
def Message.carries (packet : Bytes) : Message → Bool
  | .data d => d.innerPacket == packet
  | _ => false

theorem Message.carries_eq_true {packet : Bytes} {m : Message} :
    m.carries packet = true ↔ ∃ d, m = .data d ∧ d.innerPacket = packet := by
  cases m <;> simp [Message.carries]

/-- The datagrams a node made of a packet it read from its TUN. -/
def Label.encapsulations (packet : Bytes) : Label C ι → Nat
  | .act _ (.tunRead p) _ did => if p = packet then (datagrams did.effects).length else 0
  | _ => 0

/-- In this step the datagram is delivered. -/
def Label.delivers (f : Flight C) : Label C ι → Bool
  | .deliver _ f' _ _ _ => decide (f' = f)
  | _ => false

/-- A datagram that carries the packet is delivered, and was in the steps
before. -/
def Label.redelivers (packet : Bytes) (earlier : List (Label C ι)) : Label C ι → Nat
  | .deliver _ f _ _ _ => if f.msg.carries packet && earlier.any (delivers f) then 1 else 0
  | _ => 0

/-- The deliveries, after some steps, of datagrams that carry the packet and
were delivered before. -/
def redeliveriesAfter (packet : Bytes) : (earlier tr : List (Label C ι)) → Nat
  | _, [] => 0
  | earlier, l :: tr =>
      l.redelivers packet earlier + redeliveriesAfter packet (earlier ++ [l]) tr

/-- The deliveries, in a trace, of datagrams that carry the packet and were
delivered before. -/
def redeliveries (packet : Bytes) (tr : List (Label C ι)) : Nat := redeliveriesAfter packet [] tr

theorem redeliveriesAfter_snoc (packet : Bytes) (earlier tr : List (Label C ι)) (l : Label C ι) :
    redeliveriesAfter packet earlier (tr ++ [l])
      = redeliveriesAfter packet earlier tr + l.redelivers packet (earlier ++ tr) := by
  induction tr generalizing earlier with
  | nil => simp [redeliveriesAfter]
  | cons l' tr ih =>
      rw [List.cons_append, redeliveriesAfter, redeliveriesAfter, ih, List.append_assoc,
        List.singleton_append, Nat.add_assoc]

/-- The last step counts by what was before it. -/
theorem redeliveries_snoc (packet : Bytes) (tr : List (Label C ι)) (l : Label C ι) :
    redeliveries packet (tr ++ [l]) = redeliveries packet tr + l.redelivers packet tr :=
  redeliveriesAfter_snoc packet [] tr l

/-- How often a step writes the packet. -/
def Label.writesOf (packet : Bytes) (l : Label C ι) : Nat := (tunWrites l.effects).count packet

/-- The datagram carries the packet and was not delivered yet. -/
def Flight.fresh (packet : Bytes) (tr : List (Label C ι)) (f : Flight C) : Bool :=
  f.msg.carries packet && !tr.any (Label.delivers f)

/-- How many datagrams in flight carry the packet and were not delivered yet. -/
def State.undelivered (packet : Bytes) (tr : List (Label C ι)) (s : State C ι) : Nat :=
  s.inflight.countP fun f => f.fresh packet tr

theorem Flight.carries_of_fresh {packet : Bytes} {tr : List (Label C ι)} {f : Flight C}
    (h : f.fresh packet tr = true) : f.msg.carries packet = true := by
  unfold Flight.fresh at h
  exact (Bool.and_eq_true_iff.mp h).1

/-- What was not delivered in a longer trace was not in a shorter one. -/
theorem Flight.fresh_of_snoc {packet : Bytes} {tr : List (Label C ι)} {l : Label C ι}
    {f : Flight C} (h : f.fresh packet (tr ++ [l]) = true) : f.fresh packet tr = true := by
  unfold Flight.fresh at h ⊢
  rw [List.any_append] at h
  grind

theorem Flight.not_fresh_delivered {packet : Bytes} {tr : List (Label C ι)} {i : ι}
    {f : Flight C} {keep : Bool} {env : Env} {did : Activity C} :
    f.fresh packet (tr ++ [.deliver i f keep env did]) = false := by
  simp [Flight.fresh, Label.delivers]

theorem countP_le_of_imp {p q : Flight C → Bool} (s : Multiset (Flight C))
    (h : ∀ f, p f = true → q f = true) : s.countP (fun f => p f) ≤ s.countP fun f => q f := by
  rw [Multiset.countP_eq_card_filter, Multiset.countP_eq_card_filter]
  exact Multiset.card_le_card (Multiset.monotone_filter_right s h)

/-- What is in flight after a step and not yet delivered was in flight before
it, or is launched by it. -/
theorem countP_fresh_le (packet : Bytes) (tr : List (Label C ι)) (l : Label C ι)
    (left new : Multiset (Flight C)) :
    (left + new).countP (fun f => f.fresh packet (tr ++ [l]))
      ≤ left.countP (fun f => f.fresh packet tr)
        + new.countP (fun f => f.msg.carries packet) := by
  have hleft := countP_le_of_imp left fun f (h : f.fresh packet (tr ++ [l]) = true) =>
    Flight.fresh_of_snoc h
  have hnew := countP_le_of_imp new fun f (h : f.fresh packet (tr ++ [l]) = true) =>
    Flight.carries_of_fresh h
  rw [Multiset.countP_add]
  omega

/-- The copy that is kept is not fresh any more. -/
theorem countP_fresh_deliver (packet : Bytes) (tr : List (Label C ι)) (i : ι) (f : Flight C)
    (keep : Bool) (env : Env) (did : Activity C) (rest new : Multiset (Flight C)) :
    ((if keep then f ::ₘ rest else rest) + new).countP
        (fun f' => f'.fresh packet (tr ++ [.deliver i f keep env did]))
      = (rest + new).countP fun f' => f'.fresh packet (tr ++ [.deliver i f keep env did]) := by
  cases keep with
  | true =>
      rw [if_pos rfl, Multiset.cons_add,
        Multiset.countP_cons_of_neg _ (by simp [Flight.not_fresh_delivered])]
  | false => rfl

/-- A datagram that is delivered and carries the packet is fresh or delivered
again. -/
theorem Flight.fresh_add_redelivers (packet : Bytes) (tr : List (Label C ι)) (i : ι)
    (f : Flight C) (keep : Bool) (env : Env) (did : Activity C) :
    (if f.fresh packet tr then 1 else 0) + (Label.deliver i f keep env did).redelivers packet tr
      = if f.msg.carries packet then 1 else 0 := by
  unfold Flight.fresh
  show _ + (if (f.msg.carries packet && tr.any (Label.delivers f)) = true then 1 else 0) = _
  cases f.msg.carries packet <;> cases tr.any (Label.delivers f) <;> rfl

theorem countP_launched_le (trail : List Nat) (effects : List (Effect C)) (q : Message → Bool) :
    (launched trail effects).countP (fun f => q f.msg) ≤ (datagrams effects).length := by
  refine (Multiset.countP_le_card _ _).trans (le_of_eq ?_)
  simp [launched]

theorem countP_launched_eq_zero {trail : List Nat} {effects : List (Effect C)}
    {q : Message → Bool} (h : ∀ d, Effect.udpSend d ∈ effects → q d.call.msg = false) :
    (launched trail effects).countP (fun f => q f.msg) = 0 := by
  rw [Multiset.countP_eq_zero]
  intro f hf
  simp [Flight.msg, h _ (mem_launched.mp hf).1]

variable [DecidableEq ι] {net : Net ι}

/-- A step by itself launches a packet only if it read it. -/
theorem Step.carrying_act {s s' : State C ι} {i : ι} {ev : LocalEvent} {env : Env}
    {did : Activity C} (h : Step net s (.act i ev env did) s') (trail : List Nat)
    (packet : Bytes) :
    (launched trail did.effects).countP (fun f => f.msg.carries packet)
      ≤ (Label.act i ev env did : Label C ι).encapsulations packet := by
  by_cases hev : ev = .tunRead packet
  · subst hev
    simpa [Label.encapsulations] using countP_launched_le trail did.effects _
  · refine le_of_eq_of_le (countP_launched_eq_zero fun d hd => ?_) (Nat.zero_le _)
    rw [Bool.eq_false_iff]
    intro hcarries
    obtain ⟨data, hmsg, hinner⟩ := Message.carries_eq_true.mp hcarries
    obtain ⟨_, hspec⟩ := (Phase.act_cases h.act_of_act).sends
    have hlocal := (hspec.of_udpSend hd).1
    generalize s.node i = p at hlocal
    cases hlocal with
    | asked _ _ hto => rw [hto.msg] at hmsg; cases hmsg
    | originated ho _ =>
        rw [hmsg] at ho
        obtain ⟨_, _, hread, _⟩ := ho.data_inv
        exact hev (hinner ▸ hread)

/-- A delivered datagram yields a write or a datagram with the packet only if
it carries it, and never both. -/
theorem Step.carrying_deliver (hb : C.BincodeRoundTrips) (ha : C.IdealAead) {s s' : State C ι}
    {i : ι} {f : Flight C} {keep : Bool} {env : Env} {did : Activity C}
    (h : Step net s (.deliver i f keep env did) s') (trail : List Nat) (packet : Bytes) :
    (tunWrites did.effects).count packet
        + (launched trail did.effects).countP (fun f => f.msg.carries packet)
      ≤ if f.msg.carries packet then 1 else 0 := by
  have hrec := h.received_of_deliver.2.2
  have hbound := hrec.effects_bound
  have hcount := (tunWrites did.effects).count_le_length (a := packet)
  have hlaunch := countP_launched_le trail did.effects (Message.carries packet)
  split
  · omega
  · rename_i hnot
    have hwrites : (tunWrites did.effects).count packet = 0 := by
      rw [List.count_eq_zero, mem_tunWrites]
      intro hw
      generalize s.node i = p at hrec
      generalize s'.node i = p' at hrec
      cases hrec with
      | deaf | decided | refused => simp [Activity.idle] at hw
      | handled hopen =>
          obtain ⟨-, -, rfl⟩ := (openDatagram_datagram hb ha _).mp hopen
          obtain ⟨data, _, hm, hp, _⟩ := (dispatch_handled _).of_tunWrite hw
          exact hnot (Message.carries_eq_true.mpr ⟨data, hm, hp.symm⟩)
    have hlaunched : (launched trail did.effects).countP (fun f => f.msg.carries packet) = 0 := by
      refine countP_launched_eq_zero fun d hd => ?_
      rw [Bool.eq_false_iff]
      intro hcarries
      obtain ⟨data', hmsg, hinner⟩ := Message.carries_eq_true.mp hcarries
      obtain ⟨sh, rt, peer, m, q, -, hopen, -, hemit, -⟩ :=
        hrec.called (hrec.encrypted_of_udpSend hd)
      obtain ⟨-, -, rfl⟩ := (openDatagram_datagram hb ha _).mp hopen
      rw [hmsg] at hemit
      obtain ⟨data, hm, rfl⟩ := hemit.data_inv
      exact hnot (Message.carries_eq_true.mpr ⟨data, hm, hinner⟩)
    omega

/-- One step of the account: what is written and what is in flight after it is
paid for by what was in flight, what is encapsulated and what is delivered
again. -/
theorem Step.writesOf_le (hb : C.BincodeRoundTrips) (ha : C.IdealAead) {s s' : State C ι}
    {l : Label C ι} (h : Step net s l s') (hl : Honest [l]) (packet : Bytes)
    (tr : List (Label C ι)) :
    l.writesOf packet + s'.undelivered packet (tr ++ [l])
      ≤ s.undelivered packet tr + (l.encapsulations packet + l.redelivers packet tr) := by
  unfold State.undelivered
  cases l with
  | inject i p env did => exact absurd rfl (hl _ (List.mem_singleton_self _) i p env did)
  | drop f =>
      cases h with
      | @drop _ rest hf =>
          have hle := countP_fresh_le packet tr (.drop f) rest 0
          simp only [Label.writesOf, Label.effects, tunWrites, List.filterMap_nil,
            List.count_nil, hf, Multiset.countP_cons]
          rw [add_zero, Multiset.countP_zero] at hle
          omega
  | act i ev env did =>
      obtain ⟨_, hspec⟩ := (Phase.act_cases h.act_of_act).sends
      have hwrites : tunWrites did.effects = [] := hspec.tunWrites_eq
      have hacted := h.carrying_act [s.clock] packet
      cases h with
      | act _ =>
          have hle := countP_fresh_le packet tr (.act i ev env did) s.inflight
            (launched [s.clock] did.effects)
          simp only [Label.writesOf, Label.effects, hwrites, List.count_nil, State.after]
          omega
  | deliver i f keep env did =>
      have hdelivered := h.carrying_deliver hb ha (s.clock :: f.trail) packet
      have hpaid := Flight.fresh_add_redelivers packet tr i f keep env did
      cases h with
      | @deliver _ _ rest _ _ _ _ hf _ _ _ =>
          have hle := countP_fresh_le packet tr (.deliver i f keep env did) rest
            (launched (s.clock :: f.trail) did.effects)
          simp only [State.after, hf, countP_fresh_deliver, Multiset.countP_cons]
          simp only [Label.writesOf, Label.effects, Label.encapsulations]
          omega

/-- The account of a run, with what is still in flight. -/
theorem Net.Run.account (hb : C.BincodeRoundTrips) (ha : C.IdealAead)
    {tr : List (Label C ι)} {s : State C ι} (hrun : net.Run tr s) (hhonest : Honest tr)
    (packet : Bytes) :
    (tr.map (Label.writesOf packet)).sum + s.undelivered packet tr
      ≤ (tr.map (Label.encapsulations packet)).sum + redeliveries packet tr := by
  induction hrun with
  | refl => rfl
  | @snoc tr s l s' _ hstep ih =>
      have hlast := hstep.writesOf_le hb ha (Honest.of_append_right hhonest) packet tr
      have hrest := ih (Honest.of_append hhonest)
      rw [redeliveries_snoc]
      simp only [List.map_append, List.map_cons, List.map_nil, List.sum_append,
        List.sum_cons, List.sum_nil]
      omega

/-- In every run over a network that loses, reorders and re-delivers, a packet
is written at most as often as it was encapsulated and datagrams that carry it
were delivered again. -/
theorem Net.Run.writes_le (hb : C.BincodeRoundTrips) (ha : C.IdealAead)
    {tr : List (Label C ι)} {s : State C ι} (hrun : net.Run tr s) (hhonest : Honest tr)
    (packet : Bytes) :
    (tr.map (Label.writesOf packet)).sum
      ≤ (tr.map (Label.encapsulations packet)).sum + redeliveries packet tr := by
  have haccount := hrun.account hb ha hhonest packet
  omega

/-- The step is of node `i`. -/
def Label.isAt (i : ι) (l : Label C ι) : Bool := l.activity.any fun a => a.1 == i

/-- A datagram that is delivered again is written again: one encapsulation in
the whole run, two writes at the destination. -/
theorem Line.written_twice :
    ∃ (tr : List (Label Crates.ideal (Fin 3))) (s : State Crates.ideal (Fin 3)),
      Line.net.Run tr s ∧ Honest tr ∧ (tr.map (Label.encapsulations Line.packet)).sum = 1 ∧
      ((tr.filter (Label.isAt 2)).map (Label.writesOf Line.packet)).sum = 2 := by
  obtain ⟨tr, s, hrun, hhonest, hcheck⟩ := Sim.exists_run Line.net Env.at
    (Sim.init Crates.ideal (Fin 3)) Line.replay
    (fun tr _ => (tr.map (Label.encapsulations Line.packet)).sum == 1 &&
      ((tr.filter (Label.isAt 2)).map (Label.writesOf Line.packet)).sum == 2)
    (by simp [Line.replay, Line.boot]) (by decide +kernel)
  rw [Bool.and_eq_true, beq_iff_eq, beq_iff_eq] at hcheck
  exact ⟨tr, s.state, hrun, hhonest, hcheck.1, hcheck.2⟩

/-- There the account has one re-delivery. -/
theorem Line.replay_accounted :
    ∃ (tr : List (Label Crates.ideal (Fin 3))) (s : State Crates.ideal (Fin 3)),
      Line.net.Run tr s ∧ redeliveries Line.packet tr = 1 ∧
      (tr.map (Label.writesOf Line.packet)).sum
        ≤ (tr.map (Label.encapsulations Line.packet)).sum + 1 := by
  obtain ⟨tr, s, hrun, hhonest, hcheck⟩ := Sim.exists_run Line.net Env.at
    (Sim.init Crates.ideal (Fin 3)) Line.replay
    (fun tr _ => redeliveries Line.packet tr == 1)
    (by simp [Line.replay, Line.boot]) (by decide +kernel)
  have hone := beq_iff_eq.mp hcheck
  have hle := Net.Run.writes_le Crates.bincodeRoundTrips_ideal Crates.idealAead_ideal hrun hhonest
    Line.packet
  rw [hone] at hle
  exact ⟨tr, s.state, hrun, hone, hle⟩

end StealthNet
