/-
  StealthNet.Network.Refinement
  ─────────────────────────────
  THE NETWORK REFINES THE SERVICE, ALSO UNDER ATTACK.

  Between two nodes a message is sealed anew on every hop, relays it passes
  rewrite it, and an attacker injects what it likes.  None of this can be seen
  at the ends: whatever a run of the network shows, a run of the service shows
  with the nodes in the same states (`Net.Run.refines`).

  A relay and a refused datagram are no step of the service.  A message that
  is handled was sent to the node by the peer it names, so a letter of it has
  been posted; that is the relation of the two states (`Represents`).
-/
import StealthNet.Network.Service
import StealthNet.Network.Authentication
import StealthNet.Lib.Simulation

namespace StealthNet

variable {C : Crates} {ι : Type}

/-! ## §1. Calls and letters. -/

theorem called_snoc {tr : List (Label C ι)} {l : Label C ι} {j : ι} {call : SendCall C} :
    Called (tr ++ [l]) j call ↔
      Called tr j call ∨ ∃ did, l.Does j did ∧ Effect.encrypted call ∈ did.effects := by
  constructor
  · intro h
    obtain ⟨l', hl', did, hdoes, hcall⟩ := h
    rcases List.mem_append.mp hl' with hl' | hl'
    · exact Or.inl ⟨l', hl', did, hdoes, hcall⟩
    · obtain rfl := List.mem_singleton.mp hl'
      exact Or.inr ⟨did, hdoes, hcall⟩
  · intro h
    rcases h with ⟨l', hl', hdid⟩ | ⟨did, hdoes, hcall⟩
    · exact ⟨l', List.mem_append_left _ hl', hdid⟩
    · exact ⟨l, List.mem_append_right _ (List.mem_singleton_self l), did, hdoes, hcall⟩

/-- The service holds the nodes as they are, and letters of exactly the
messages that were sent. -/
structure Represents (net : Net ι) (tr : List (Label C ι)) (s : State C ι) (a : Service ι) :
    Prop where
  node : a.node = s.node
  addressed : ∀ j call target, Called tr j call → call.msg.relayTarget = some target →
    ∃ x ∈ a.posted, x.receiver = none ∧ x.content = call.msg.content
  direct : ∀ j peerId call, Called tr j call → call.msg.relayTarget = none →
    SentTo net j peerId call → ⟨j, some peerId, call.msg.content⟩ ∈ a.posted
  called : ∀ x ∈ a.posted, ∃ call : SendCall C, Called tr x.sender call ∧ Posts net x.sender call x

section

variable {net : Net ι} {tr : List (Label C ι)} {s s' : State C ι} {l : Label C ι} {a : Service ι}
  {i : ι} {did : Activity C}

theorem Represents.init : Represents net [] (State.init C ι) (Service.init ι) where
  node := rfl
  addressed := by
    intro j call target h
    obtain ⟨l, hl, -⟩ := h
    cases hl
  direct := by
    intro j peerId call h
    obtain ⟨l, hl, -⟩ := h
    cases hl
  called := by
    intro x hx
    cases hx

/-- A step that sends nothing new. -/
theorem Represents.stutter (h : Represents net tr s a) (hnode : s'.node = s.node)
    (hcalls : ∀ j did call, l.Does j did → Effect.encrypted call ∈ did.effects →
      call.msg.relayTarget ≠ none ∧
        ∃ x ∈ a.posted, x.receiver = none ∧ x.content = call.msg.content) :
    Represents net (tr ++ [l]) s' a where
  node := h.node.trans hnode.symm
  addressed := by
    intro j call target hcall htarget
    rcases called_snoc.mp hcall with hcall | ⟨did, hdoes, hcall⟩
    · exact h.addressed j call target hcall htarget
    · exact (hcalls j did call hdoes hcall).2
  direct := by
    intro j peerId call hcall htarget hto
    rcases called_snoc.mp hcall with hcall | ⟨did, hdoes, hcall⟩
    · exact h.direct j peerId call hcall htarget hto
    · exact absurd htarget (hcalls j did call hdoes hcall).1
  called := by
    intro x hx
    obtain ⟨call, hcall, hposts⟩ := h.called x hx
    exact ⟨call, called_snoc.mpr (Or.inl hcall), hposts⟩

theorem Label.receives_of_received {env : Env} {packet : Bytes}
    (hl : l.received = some (i, env, packet)) (hdoes : l.Does i did) : l.Receives i packet did := by
  cases l with
  | act | drop => cases hl
  | deliver j f keep env' did' =>
      obtain ⟨rfl, rfl⟩ := hdoes.deliver_inv
      obtain ⟨-, -, rfl⟩ : i = i ∧ env' = env ∧ f.datagram.bytes = packet := by
        simpa only [Label.received, Option.some.injEq, Prod.mk.injEq] using hl
      exact Or.inl ⟨f, keep, env', rfl, rfl⟩
  | inject j packet' env' did' =>
      obtain ⟨rfl, rfl⟩ := hdoes.inject_inv
      obtain ⟨-, -, rfl⟩ : i = i ∧ env' = env ∧ packet' = packet := by
        simpa only [Label.received, Option.some.injEq, Prod.mk.injEq] using hl
      exact Or.inr ⟨env', rfl⟩

theorem Label.see_of_received {env : Env} {packet : Bytes}
    (hl : l.received = some (i, env, packet)) (hdoes : l.Does i did) : l.see = did.see i := by
  cases l with
  | act | drop => cases hl
  | deliver =>
      obtain ⟨rfl, rfl⟩ := hdoes.deliver_inv
      rfl
  | inject =>
      obtain ⟨rfl, rfl⟩ := hdoes.inject_inv
      rfl

variable [DecidableEq ι]

/-- A step changes the node that takes it. -/
theorem Step.node_update (h : Step net s l s') (hdoes : l.Does i did) :
    s'.node = Function.update s.node i (s'.node i) := by
  funext j
  by_cases hji : j = i
  · subst hji
    rw [Function.update_self]
  · rw [Function.update_of_ne hji]
    apply h.node_of_not_does
    intro did' hdoes'
    exact hji (hdoes'.unique hdoes).1

/-- A step that the service takes as well. -/
theorem Represents.after (h : Represents net tr s a) (hstep : Step net s l s')
    (hdoes : l.Does i did) :
    Represents net (tr ++ [l]) s' (a.after net i (s'.node i) did.effects) where
  node := by
    rw [hstep.node_update hdoes, ← h.node]
    show Function.update a.node i _ = _
    rw [Function.update_self]
  addressed := by
    intro j call target hcall htarget
    rcases called_snoc.mp hcall with hcall | ⟨did', hdoes', hcall⟩
    · obtain ⟨x, hx, hrest⟩ := h.addressed j call target hcall htarget
      exact ⟨x, Or.inl hx, hrest⟩
    · obtain ⟨rfl, rfl⟩ := hdoes'.unique hdoes
      exact ⟨_, Or.inr ⟨call, hcall, .addressed htarget⟩, rfl, rfl⟩
  direct := by
    intro j peerId call hcall htarget hto
    rcases called_snoc.mp hcall with hcall | ⟨did', hdoes', hcall⟩
    · exact Or.inl (h.direct j peerId call hcall htarget hto)
    · obtain ⟨rfl, rfl⟩ := hdoes'.unique hdoes
      exact Or.inr ⟨call, hcall, .direct htarget hto⟩
  called := by
    intro x hx
    rcases hx with hx | ⟨call, hcall, hposts⟩
    · obtain ⟨call, hcall, hposts⟩ := h.called x hx
      exact ⟨call, called_snoc.mpr (Or.inl hcall), hposts⟩
    · obtain rfl : x.sender = i := by cases hposts <;> rfl
      exact ⟨call, called_snoc.mpr (Or.inr ⟨did, hdoes, hcall⟩), hposts⟩

/-! ## §2. Received datagrams. -/

/-- An authentic message was sent to the peer with the id of its receiver. -/
theorem Authentic.sentTo {B A : ι} {peer : PeerRuntime} {m : Message} {call : SendCall C}
    (h : Authentic net tr B peer m A call) (hrun : net.Run tr s) :
    SentTo net A (net.config B).node.id call := by
  obtain ⟨peers, p, hpeers, hp, hkey, haddr⟩ := h.receiver
  obtain ⟨_, _, _, -, -, hto⟩ := hrun.called h.called
  exact ⟨peers, p, hpeers, hp, hto.senderId, haddr, hkey, rfl⟩

/-- The service answers this step by a run to a state that represents the next
one. -/
def Answered (net : Net ι) (tr : List (Label C ι)) (l : Label C ι) (s' : State C ι)
    (a : Service ι) : Prop :=
  ∃ (atr : List (Service.Label C ι)) (a' : Service ι), Lib.Exec (Service.Step net) a atr a' ∧
    Represents net (tr ++ [l]) s' a' ∧
    Lib.seen Service.Label.see atr = l.see

/-- A step that leaves the nodes, sends nothing new and shows nothing needs no
answer. -/
theorem Represents.answered_of_stutter (h : Represents net tr s a) (hstep : Step net s l s')
    (hdoes : l.Does i did) (hnode : s'.node i = s.node i) (hsee : l.see = [])
    (hcalls : ∀ call, Effect.encrypted call ∈ did.effects → call.msg.relayTarget ≠ none ∧
      ∃ x ∈ a.posted, x.receiver = none ∧ x.content = call.msg.content) :
    Answered net tr l s' a := by
  refine ⟨[], a, .refl, h.stutter ?_ ?_, hsee.symm⟩
  · rw [hstep.node_update hdoes, hnode, Function.update_eq_self]
  · intro j did' call hdoes' hcall
    obtain ⟨rfl, rfl⟩ := hdoes'.unique hdoes
    exact hcalls call hcall

/-- A message that is handled as posted is taken by the service. -/
theorem Represents.answered_of_take (h : Represents net tr s a) (hstep : Step net s l s')
    (hdoes : l.Does i did) (hsee : l.see = did.see i) (hlisten : (s.node i).listens = true)
    {env : Env} {peer : PeerRuntime} {m : Message}
    (htake : (s.node i).take C env peer m = (s'.node i, did)) {x : Letter ι} (hx : x ∈ a.posted)
    (hm : m.content = x.content) (hfor : x.IsFor net a i peer m) : Answered net tr l s' a := by
  have htake' : Service.Step net a (.take i env did) (a.after net i (s'.node i) did.effects) :=
    .take hx hm hfor (h.node ▸ hlisten) (h.node ▸ htake)
  refine ⟨_, _, Lib.Exec.single htake', h.after hstep hdoes, ?_⟩
  rw [Lib.seen_singleton, hsee]
  rfl

/-- A client that waits does not look at addressed messages. -/
theorem Phase.take_booting {env : Env} {peer : PeerRuntime} {m : Message} {target : String}
    (h : m.relayTarget = some target) (config : Config) (peers : PeerTables) (requestId : UInt64) :
    (Phase.booting config peers requestId).take C env peer m
      = (.booting config peers requestId, ⟨some (peer, m), none, []⟩) := by
  cases m with
  | bootstrapResp | error => cases h
  | _ => rfl

section

variable {env : Env} {peer : PeerRuntime} {m : Message} {target : String}

/-- What an addressed message does to a node is a step of the service, or
nothing to it. -/
theorem Represents.answered_of_addressed (h : Represents net tr s a) (hstep : Step net s l s')
    (hdoes : l.Does i did) (hsee : l.see = did.see i) (hlisten : (s.node i).listens = true)
    (htake : (s.node i).take C env peer m = (s'.node i, did))
    (htarget : m.relayTarget = some target)
    (hposted : ∃ x ∈ a.posted, x.receiver = none ∧ x.content = m.content) :
    Answered net tr l s' a := by
  obtain ⟨x, hx, hreceiver, hcontent⟩ := hposted
  cases hn : s.node i with
  | stopped | failed =>
      rw [hn] at htake
      obtain ⟨hnode, rfl⟩ := Prod.mk.inj htake
      refine h.answered_of_stutter hstep hdoes (hnode.symm.trans hn.symm) hsee ?_
      intro call hcall
      cases hcall
  | booting config peers requestId =>
      rw [hn, Phase.take_booting htarget] at htake
      obtain ⟨hnode, rfl⟩ := Prod.mk.inj htake
      refine h.answered_of_stutter hstep hdoes (hnode.symm.trans hn.symm) hsee ?_
      intro call hcall
      cases hcall
  | running sh rt =>
      rcases passesOn_or_isFor htarget sh with hpass | hfor | ⟨data, rfl, hdst⟩
      · -- a relay keeps its state, and sends what has been posted
        rw [hn] at htake
        obtain ⟨hnode, rfl⟩ := Prod.mk.inj htake
        obtain ⟨hsettle, hnothing, hcalls⟩ := hpass.stutters (C := C) env rt peer i
        refine h.answered_of_stutter hstep hdoes ?_ (hsee.trans hnothing) ?_
        · rw [← hnode, hsettle, hn]
        · intro call hcall
          obtain ⟨hcall, hrelay⟩ := hcalls call hcall
          rw [hrelay, hcall]
          exact ⟨Option.some_ne_none _, x, hx, hreceiver, hcontent⟩
      · exact h.answered_of_take hstep hdoes hsee hlisten htake hx hcontent.symm
          (.addressed hreceiver (h.node ▸ hn) hfor)
      · -- Data that does not parse is an error
        have hfail : dispatch C sh env rt.tables peer (.data data)
            = .fail rt.tables "failed to parse inner packet destination" := by
          simp only [dispatch, handleData, hdst]
        rw [hn] at htake
        simp only [Phase.take, hfail] at htake
        obtain ⟨hnode, rfl⟩ := Prod.mk.inj htake
        refine h.answered_of_stutter hstep hdoes (hnode.symm.trans hn.symm) hsee ?_
        intro call hcall
        cases hcall

end

/-- Whatever is received, from whomever, the service answers. -/
theorem Represents.answered_of_received (hb : C.BincodeRoundTrips) (ho : C.AeadCorrect)
    (hpeers : HonestPeers C net) (hkeys : KeysDetermineSecrets C net) (hrun : net.Run tr s)
    (hideal : Unforgeable net (tr ++ [l])) (h : Represents net tr s a) (hstep : Step net s l s')
    {env : Env} {packet : Bytes} (hl : l.received = some (i, env, packet)) :
    Answered net tr l s' a := by
  obtain ⟨did, hdoes, hrec⟩ := hstep.receive_of_received hl
  have hsee := Label.see_of_received hl hdoes
  have hlisten := hstep.listens_of_received hl
  by_cases hopen : ∃ table peer m, (s.node i).peersById = some table ∧
      openDatagram C table packet = .ok (peer, m)
  · obtain ⟨table, peer, m, htable, hopen⟩ := hopen
    rw [Phase.receive_eq_take htable hopen] at hrec
    obtain ⟨peers, hpeersI, rfl⟩ := (hrun.builtFrom i).peersById htable
    obtain ⟨A, call, hauth⟩ := Net.Run.authentic_of_open hb ho hpeers hkeys hrun hideal
      (Label.receives_of_received hl hdoes) hpeersI hopen
    cases htarget : m.relayTarget with
    | some target =>
        refine h.answered_of_addressed hstep hdoes hsee hlisten hrec htarget ?_
        rw [← hauth.msg] at htarget ⊢
        exact h.addressed A call target hauth.called htarget
    | none =>
        have hx := h.direct A _ call hauth.called (hauth.msg ▸ htarget) (hauth.sentTo hrun)
        rw [hauth.msg] at hx
        exact h.answered_of_take hstep hdoes hsee hlisten hrec hx rfl (.direct rfl hauth.sender.symm)
  · have hclosed : ∀ table, (s.node i).peersById = some table →
        ∃ e, openDatagram C table packet = .error e := by
      intro table htable
      cases hres : openDatagram C table packet with
      | error e => exact ⟨e, rfl⟩
      | ok opened => exact absurd ⟨table, opened.1, opened.2, htable, hres⟩ hopen
    obtain ⟨hdid, hnode⟩ := Phase.receive_of_closed env hclosed
    rw [hrec] at hdid hnode
    obtain rfl : did = .idle := hdid
    rcases hnode with hnode | ⟨hfailed, config, peers, requestId, hbooting⟩
    · refine h.answered_of_stutter hstep hdoes hnode hsee ?_
      intro call hcall
      cases hcall
    · -- the client gives up
      have hgive : Service.Step net a (.giveUp (C := C) i)
          (a.after net i (s'.node i) (Activity.idle : Activity C).effects) := by
        rw [show s'.node i = .failed from hfailed]
        exact .giveUp (h.node ▸ hbooting)
      exact ⟨_, _, Lib.Exec.single hgive, h.after hstep hdoes, hsee.symm⟩

/-! ## §3. Runs. -/

omit [DecidableEq ι] in
/-- What an attacker cannot forge in a run it cannot forge in a part of it. -/
theorem Unforgeable.of_append {tr' : List (Label C ι)} (h : Unforgeable net (tr ++ tr')) :
    Unforgeable net tr := by
  intro pre l post i packet did peers frame peer plaintext htr
  exact h pre l (post ++ tr') i packet did peers frame peer plaintext (by simp [htr])

/-- Every step of the network is answered. -/
theorem Represents.answers (hb : C.BincodeRoundTrips) (ho : C.AeadCorrect)
    (hpeers : HonestPeers C net) (hkeys : KeysDetermineSecrets C net) :
    Lib.Matches (Step net) (Service.Step (C := C) net) (State.init C ι) (Unforgeable net) Label.see
      Service.Label.see (Represents net) := by
  intro tr s l s' a hrun hideal h hstep
  cases hl : l.received with
  | some received =>
      obtain ⟨i, env, packet⟩ := received
      exact h.answered_of_received hb ho hpeers hkeys hrun hideal hstep hl
  | none =>
      cases l with
      | deliver | inject => cases hl
      | drop f =>
          refine ⟨[], a, .refl, h.stutter ?_ ?_, rfl⟩
          · cases hstep
            rfl
          · intro j did call hdoes
            exact absurd hdoes Label.not_does_drop
      | act i ev env did =>
          have hact : Service.Step net a (.act i ev env did) (a.after net i (s'.node i) did.effects) :=
            .act (h.node ▸ hstep.act_of_act)
          exact ⟨_, _, Lib.Exec.single hact, h.after hstep (Label.does_act ..),
            Lib.seen_singleton _ _⟩

/-- A run of the network is represented by a run of the service. -/
theorem Net.Run.represented (hb : C.BincodeRoundTrips) (ho : C.AeadCorrect)
    (hpeers : HonestPeers C net) (hkeys : KeysDetermineSecrets C net) (hrun : net.Run tr s)
    (hideal : Unforgeable net tr) :
    ∃ (atr : List (Service.Label C ι)) (a : Service ι),
      Lib.Exec (Service.Step net) (Service.init ι) atr a ∧ Represents net tr s a ∧
        Lib.seen Service.Label.see atr = Lib.seen Label.see tr :=
  hrun.simulate (Represents.answers hb ho hpeers hkeys) .init (fun _ _ h => h.of_append) hideal

/-- Whatever an attacker injects, and however datagrams are lost, reordered,
duplicated and relayed: the service has a run with the nodes in the same
states that shows the same at every TUN and in every admin thread. -/
theorem Net.Run.refines (hb : C.BincodeRoundTrips) (ho : C.AeadCorrect)
    (hpeers : HonestPeers C net) (hkeys : KeysDetermineSecrets C net) (hrun : net.Run tr s)
    (hideal : Unforgeable net tr) :
    ∃ (atr : List (Service.Label C ι)) (a : Service ι),
      Lib.Exec (Service.Step net) (Service.init ι) atr a ∧ a.node = s.node ∧
        Lib.seen Service.Label.see atr = Lib.seen Label.see tr := by
  obtain ⟨atr, a, hexec, hrep, hseen⟩ := hrun.represented hb ho hpeers hkeys hideal
  exact ⟨atr, a, hexec, hrep.node, hseen⟩

end

end StealthNet
