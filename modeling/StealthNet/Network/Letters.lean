/-
  StealthNet.Network.Letters
  ──────────────────────────
  WHAT LETTERS SAY IS TRUE.

  In the service nobody can write a letter but the nodes, so what is known of
  letters is proved by one induction over its runs (`Net.Serves.letters`): a
  property that originated messages have and every handler passes on holds of
  everything posted.  By `Net.Run.refines` it then holds of a network under
  attack.

    §1  the steps of the service;
    §2  the induction rules, for letters and for running nodes;
    §3  packets;
    §4  registrations and lists of clients;
    §5  requests and responses.
-/
import StealthNet.Network.Service
import StealthNet.Network.Correlation
import StealthNet.Network.Convergence
import StealthNet.Lib.Simulation

namespace StealthNet

open Lib (HashMap)

variable {C : Crates} {ι : Type}

/-! ## §1. The steps of the service. -/

/-- A message is taken: not at all, by a client that waits for its bootstrap,
or by a running node. -/
inductive Taken (C : Crates) (env : Env) (peer : PeerRuntime) (m : Message) :
    Phase → Phase → Activity C → Prop
  | deaf {p : Phase} (h : p = .stopped ∨ p = .failed) : Taken C env peer m p p .idle
  | waited {config : Config} {peers : PeerTables} {requestId : UInt64} {p' : Phase}
      (hp' : p' = .booting config peers requestId ∨ p' = .failed) :
      Taken C env peer m (.booting config peers requestId) p' ⟨some (peer, m), none, []⟩
  | assigned {config config' : Config} {peers : PeerTables} {resp : BootstrapResp}
      (hm : m = .bootstrapResp resp)
      (hconclude : concludeBootstrap config resp = (.ok (), config')) :
      Taken C env peer m (.booting config peers resp.requestId) (.launch C env config' peers)
        ⟨some (peer, m), none, []⟩
  | handled {sh : Shared} {rt : Runtime} :
      Taken C env peer m (.running sh rt) (.running sh (rt.settle (dispatch C sh env rt.tables peer m)))
        ⟨some (peer, m), none, (dispatch C sh env rt.tables peer m).effects⟩

theorem Phase.take_cases (env : Env) (peer : PeerRuntime) (m : Message) (p : Phase) :
    Taken C env peer m p (p.take C env peer m).1 (p.take C env peer m).2 := by
  cases p with
  | stopped => exact .deaf (Or.inl rfl)
  | failed => exact .deaf (Or.inr rfl)
  | running sh rt => exact .handled
  | booting config peers requestId =>
      cases m with
      | bootstrapResp resp =>
          simp only [Phase.take]
          split
          · rename_i hid
            subst hid
            split
            · exact .waited (Or.inr rfl)
            · rename_i config' hconclude
              exact .assigned rfl hconclude
          · exact .waited (Or.inl rfl)
      | error err => exact .waited (Or.inr rfl)
      | _ => exact .waited (Or.inl rfl)

/-- Only a running node answers, writes or replies. -/
theorem Taken.of_effect {env : Env} {peer : PeerRuntime} {m : Message} {p p' : Phase}
    {did : Activity C} (h : Taken C env peer m p p' did) {e : Effect C} (he : e ∈ did.effects) :
    ∃ sh rt, p = .running sh rt ∧ e ∈ (dispatch C sh env rt.tables peer m).effects := by
  cases h with
  | deaf | waited | assigned => cases he
  | handled => exact ⟨_, _, rfl, he⟩

theorem Taken.drew {env : Env} {peer : PeerRuntime} {m : Message} {p p' : Phase}
    {did : Activity C} (h : Taken C env peer m p p' did) : did.drew = none := by
  cases h <;> rfl

theorem Taken.shared {env : Env} {peer : PeerRuntime} {m : Message} {p p' : Phase}
    {did : Activity C} (h : Taken C env peer m p p' did) {sh : Shared} (hp : p.shared = some sh) :
    p'.shared = some sh := by
  cases h with
  | deaf | handled => exact hp
  | waited | assigned => cases hp

/-- Node `i` runs with the shared state `sh`. -/
abbrev Service.Runs (a : Service ι) (i : ι) (sh : Shared) : Prop :=
  (a.node i).shared = some sh

variable [DecidableEq ι] {net : Net ι}

/-- A run of the service from the start. -/
abbrev Net.Serves (net : Net ι) (atr : List (Service.Label C ι)) (a : Service ι) : Prop :=
  Lib.Exec (Service.Step net) (Service.init ι) atr a

section

variable {a a' : Service ι} {l : Service.Label C ι} {i : ι} {env : Env} {did : Activity C}

omit [DecidableEq ι] in
theorem Posts.inv {call : SendCall C} {x : Letter ι} (h : Posts net i call x) :
    x.sender = i ∧ x.content = call.msg.content := by
  cases h <;> exact ⟨rfl, rfl⟩

theorem Service.after_self (a : Service ι) (i : ι) (p : Phase) (effects : List (Effect C)) :
    (a.after net i p effects).node i = p := Function.update_self ..

/-- What a node does by itself in the service. -/
theorem acted_of_step {ev : LocalEvent} (h : Service.Step net a (.act i ev env did) a') :
    (a.node i).act C env (net.identity i) (net.config i) ev = some (a'.node i, did) ∧
      ∀ x ∈ a'.posted, x ∈ a.posted ∨
        ∃ call, Effect.encrypted call ∈ did.effects ∧ Posts net i call x := by
  cases h with
  | act hact =>
      rw [Service.after_self]
      exact ⟨hact, fun x hx => hx⟩

/-- What a node takes in the service. -/
theorem taken_of_step (h : Service.Step net a (.take i env did) a') :
    ∃ y ∈ a.posted, ∃ peer m, m.content = y.content ∧ y.IsFor net a i peer m ∧
      Taken C env peer m (a.node i) (a'.node i) did ∧
      ∀ x ∈ a'.posted, x ∈ a.posted ∨
        ∃ call, Effect.encrypted call ∈ did.effects ∧ Posts net i call x := by
  cases h with
  | @take _ y peer m _ p _ hy hm hfor _ htake =>
      have hcases := Phase.take_cases (C := C) env peer m (a.node i)
      rw [htake] at hcases
      rw [Service.after_self]
      exact ⟨y, hy, peer, m, hm, hfor, hcases, fun x hx => hx⟩

/-- Its udp loop has nothing left to send then. -/
theorem sending_of_take (h : Service.Step net a (.take i env did) a') {sh : Shared} {rt : Runtime}
    (hi : a.node i = .running sh rt) : rt.sending = none := by
  cases h with
  | take _ _ _ hlisten _ =>
      rw [hi] at hlisten
      exact Option.isNone_iff_eq_none.mp hlisten

/-- A step changes one node. -/
theorem node_of_serviceStep (h : Service.Step net a l a') {j : ι}
    (hj : match l with
      | .act i _ _ _ | .take i _ _ | .giveUp i => j ≠ i) : a'.node j = a.node j := by
  cases h <;> exact Function.update_of_ne hj ..

theorem shared_of_serviceStep (h : Service.Step net a l a') {j : ι} {sh : Shared}
    (hj : a.Runs j sh) : a'.Runs j sh := by
  cases l with
  | act i ev env did =>
      by_cases hji : j = i
      · subst hji
        obtain ⟨rt, hn⟩ := Phase.shared_eq_some.mp hj
        have hact := (acted_of_step h).1
        rw [hn] at hact
        obtain ⟨rt', hn', -⟩ := Phase.act_running hact
        show (a'.node j).shared = _
        rw [hn']
        rfl
      · show (a'.node j).shared = _
        rw [node_of_serviceStep h hji]
        exact hj
  | take i env did =>
      by_cases hji : j = i
      · subst hji
        obtain ⟨_, -, _, _, -, -, htaken, -⟩ := taken_of_step h
        exact htaken.shared hj
      · show (a'.node j).shared = _
        rw [node_of_serviceStep h hji]
        exact hj
  | giveUp i =>
      by_cases hji : j = i
      · subst hji
        cases h with
        | giveUp hboot =>
            unfold Service.Runs at hj
            rw [hboot] at hj
            cases hj
      · show (a'.node j).shared = _
        rw [node_of_serviceStep h hji]
        exact hj

theorem posted_of_serviceStep (h : Service.Step net a l a') {x : Letter ι} (hx : x ∈ a.posted) :
    x ∈ a'.posted := by
  cases h <;> exact Or.inl hx

end

/-! ## §2. The induction rules. -/

/-- What originated messages have and every handler passes on, all letters
have. -/
theorem Net.Serves.letters {P : List (Service.Label C ι) → Service ι → Letter ι → Prop}
    (hmono : ∀ atr a l a' x, Service.Step net a l a' → x ∈ a.posted → P atr a x →
      P (atr ++ [l]) a' x)
    (hasked : ∀ atr a a' i ev env did (call : SendCall C) x, net.Serves atr a →
      Service.Step net a (.act i ev env did) a' → a.node i = .stopped →
      Effect.encrypted call ∈ did.effects → x ∈ a'.posted → Posts net i call x →
      LocalCall C env (net.identity i) (net.config i) .stopped ev call →
      P (atr ++ [.act i ev env did]) a' x)
    (horig : ∀ atr a a' i ev env did sh rt p (call : SendCall C) x, net.Serves atr a →
      Service.Step net a (.act i ev env did) a' → a.node i = .running sh rt →
      Originates sh rt env ev p call.msg → Effect.encrypted call ∈ did.effects →
      x ∈ a'.posted → Posts net i call x → P (atr ++ [.act i ev env did]) a' x)
    (hemit : ∀ atr a a' i env did sh rt peer p m (call : SendCall C) x y, net.Serves atr a →
      Service.Step net a (.take i env did) a' → a.node i = .running sh rt → y ∈ a.posted →
      P atr a y → m.content = y.content → y.IsFor net a i peer m →
      Emits sh env rt.tables peer m p call.msg → x ∈ a'.posted → Posts net i call x →
      P (atr ++ [.take i env did]) a' x)
    {atr : List (Service.Label C ι)} {a : Service ι} (h : net.Serves atr a) :
    ∀ x ∈ a.posted, P atr a x := by
  refine h.history (I := fun atr a => ∀ x ∈ a.posted, P atr a x) ?_ ?_
  · intro x hx
    cases hx
  · intro atr a l a' hserves ih hstep x hx
    -- a letter was posted before, or in this step for some cause
    cases l with
    | act i ev env did =>
        obtain ⟨hact, hposted⟩ := acted_of_step hstep
        rcases hposted x hx with hold | ⟨call, hcall, hposts⟩
        · exact hmono atr a _ a' x hstep hold (ih x hold)
        · obtain ⟨_, hspec⟩ := (Phase.act_cases hact).sends
          have hlocal := hspec.of_encrypted hcall
          generalize hn : a.node i = p at hlocal
          cases hlocal with
          | asked hpeers hhome hto =>
              exact hasked _ _ _ _ _ _ _ _ _ hserves hstep hn hcall hx hposts
                (.asked hpeers hhome hto)
          | originated ho _ => exact horig _ _ _ _ _ _ _ _ _ _ _ _ hserves hstep hn ho hcall hx hposts
    | take i env did =>
        obtain ⟨y, hy, peer, m, hm, hfor, htaken, hposted⟩ := taken_of_step hstep
        rcases hposted x hx with hold | ⟨call, hcall, hposts⟩
        · exact hmono atr a _ a' x hstep hold (ih x hold)
        · obtain ⟨sh, rt, hn, hcall⟩ := htaken.of_effect hcall
          obtain ⟨p, hemits, -⟩ := (dispatch_handled m).of_encrypted hcall
          exact hemit _ _ _ _ _ _ _ _ _ _ _ _ _ _ hserves hstep hn hy (ih y hy) hm hfor hemits hx
            hposts
    | giveUp i =>
        rcases hstep with _ | _ | hboot
        rcases hx with hold | ⟨call, hcall, -⟩
        · exact hmono atr a _ _ x (.giveUp hboot) hold (ih x hold)
        · cases hcall

/-- What a step does to a running node: it acts by itself, it takes a message
of a letter, or nothing. -/
theorem running_of_serviceStep {a a' : Service ι} {l : Service.Label C ι}
    (h : Service.Step net a l a') {i : ι} {sh : Shared} {rt : Runtime}
    (hi : a.node i = .running sh rt) :
    ∃ rt', a'.node i = .running sh rt' ∧
      ((∃ ev env did, l = .act i ev env did ∧ RunningAct C env sh rt ev rt' did) ∨
        (∃ env did peer m y, l = .take i env did ∧ y ∈ a.posted ∧ m.content = y.content ∧
          y.IsFor net a i peer m ∧
          rt' = rt.settle (dispatch C sh env rt.tables peer m)) ∨ rt' = rt) := by
  cases l with
  | act j ev env did =>
      by_cases hij : i = j
      · subst hij
        have hact := (acted_of_step h).1
        rw [hi] at hact
        obtain ⟨rt', hn', hrunning⟩ := Phase.act_running hact
        exact ⟨rt', hn', Or.inl ⟨ev, env, did, rfl, hrunning⟩⟩
      · exact ⟨rt, (node_of_serviceStep h hij).trans hi, Or.inr (Or.inr rfl)⟩
  | take j env did =>
      by_cases hij : i = j
      · subst hij
        obtain ⟨y, hy, peer, m, hm, hfor, htaken, -⟩ := taken_of_step h
        rw [hi] at htaken
        generalize hn' : a'.node i = p' at htaken
        cases htaken with
        | deaf hdeaf =>
            rcases hdeaf with hdeaf | hdeaf <;> cases hdeaf
        | handled =>
            exact ⟨_, rfl, Or.inr (Or.inl ⟨env, _, peer, m, y, rfl, hy, hm, hfor, rfl⟩)⟩
      · exact ⟨rt, (node_of_serviceStep h hij).trans hi, Or.inr (Or.inr rfl)⟩
  | giveUp j =>
      by_cases hij : i = j
      · subst hij
        cases h with
        | giveUp hboot =>
            rw [hi] at hboot
            cases hboot
      · exact ⟨rt, (node_of_serviceStep h hij).trans hi, Or.inr (Or.inr rfl)⟩

/-- A node that starts running does so with empty tables and no threads. -/
theorem starts_of_serviceStep {a a' : Service ι} {l : Service.Label C ι}
    (h : Service.Step net a l a') {i : ι} (hi : (a.node i).shared = none) {sh : Shared}
    {rt : Runtime} (hi' : a'.node i = .running sh rt) : rt = .init := by
  -- another node that takes the step leaves this one as it is
  have hself : ∀ j, i ≠ j → (∀ {p : Phase}, a'.node i = p → a.node i = p) → rt = .init := by
    intro j _ hsame
    rw [hsame hi'] at hi
    cases hi
  cases l with
  | act j ev env did =>
      by_cases hij : i = j
      · subst hij
        exact (Phase.act_fresh (acted_of_step h).1 hi).1 sh rt hi'
      · exact hself j hij fun hp => (node_of_serviceStep h hij).symm.trans hp
  | take j env did =>
      by_cases hij : i = j
      · subst hij
        obtain ⟨y, -, peer, m, -, -, htaken, -⟩ := taken_of_step h
        rw [hi'] at htaken
        generalize hn : a.node i = p at htaken hi
        generalize hp' : Phase.running sh rt = p' at htaken
        cases htaken with
        | deaf hdeaf =>
            rcases hdeaf with rfl | rfl <;> cases hp'
        | waited hwaited =>
            rcases hwaited with rfl | rfl <;> cases hp'
        | assigned => exact Phase.launch_init hp'.symm
        | handled => cases hi
      · exact hself j hij fun hp => (node_of_serviceStep h hij).symm.trans hp
  | giveUp j =>
      by_cases hij : i = j
      · subst hij
        cases h with
        | giveUp hboot =>
            rw [Service.after_self] at hi'
            cases hi'
      · exact hself j hij fun hp => (node_of_serviceStep h hij).symm.trans hp

/-- What holds of a node when it starts and is preserved by its steps holds
while it runs. -/
theorem Net.Serves.whileRunning {i : ι}
    {I : List (Service.Label C ι) → Service ι → Shared → Runtime → Prop}
    (hinit : ∀ atr a sh, I atr a sh .init)
    (hmono : ∀ atr a l a' sh rt, Service.Step net a l a' → I atr a sh rt → I (atr ++ [l]) a' sh rt)
    (hacted : ∀ atr a a' ev env did sh rt rt', net.Serves atr a →
      Service.Step net a (.act i ev env did) a' → a.node i = .running sh rt →
      RunningAct C env sh rt ev rt' did → I atr a sh rt → I (atr ++ [.act i ev env did]) a' sh rt')
    (htaken : ∀ atr a a' env did sh rt peer m y, net.Serves atr a →
      Service.Step net a (.take i env did) a' → a.node i = .running sh rt → y ∈ a.posted →
      m.content = y.content → y.IsFor net a i peer m → I atr a sh rt →
      I (atr ++ [.take i env did]) a' sh (rt.settle (dispatch C sh env rt.tables peer m)))
    {atr : List (Service.Label C ι)} {a : Service ι} (h : net.Serves atr a) {sh : Shared}
    {rt : Runtime} (hi : a.node i = .running sh rt) : I atr a sh rt := by
  refine h.history (I := fun atr a => ∀ sh rt, a.node i = .running sh rt → I atr a sh rt) ?_ ?_
    sh rt hi
  · intro sh rt hi
    cases hi
  · intro atr a l a' hserves ih hstep sh' rt' hi'
    cases hsh : (a.node i).shared with
    | none =>
        rw [starts_of_serviceStep hstep hsh hi']
        exact hinit _ _ _
    | some sh =>
        obtain ⟨rt, hi⟩ := Phase.shared_eq_some.mp hsh
        obtain ⟨rt'', hi'', hcases⟩ := running_of_serviceStep hstep hi
        obtain ⟨rfl, rfl⟩ := Phase.running.inj (hi'.symm.trans hi'')
        rcases hcases with ⟨ev, env, did, rfl, hact⟩ | ⟨env, did, peer, m, y, rfl, hy, hm, hfor, rfl⟩ |
          rfl
        · exact hacted _ _ _ _ _ _ _ _ _ hserves hstep hi hact (ih _ _ hi)
        · exact htaken _ _ _ _ _ _ _ _ _ _ hserves hstep hi hy hm hfor (ih _ _ hi)
        · exact hmono _ _ _ _ _ _ hstep (ih _ _ hi)

/-! ## §3. Packets. -/

/-- What a node says of its own accord in answer to a message. -/
def Message.isAnswer : Message → Bool
  | .bootstrapResp _ | .clientRegisterAck _ | .pingResp _ | .publicClientsResp _ => true
  | _ => false

omit [DecidableEq ι] in
@[simp] theorem Message.isAnswer_content (m : Message) : m.content.isAnswer = m.isAnswer := by
  cases m <;> rfl

/-- A node passes a message on as it is, or answers. -/
theorem Emits.content {sh : Shared} {env : Env} {t : Tables} {peer p : PeerRuntime}
    {m m' : Message} (h : Emits sh env t peer m p m') :
    m'.content = m.content ∨ m'.isAnswer = true := by
  cases h with
  | granted | acknowledged | ponged | published => exact Or.inr rfl
  | relayed => exact Or.inl (m.content_withTtl _)

theorem Message.data_of_content {m : Message} {data : DataMsg} (h : m.content = .data data) :
    ∃ data₀, m = .data data₀ ∧ data = { data₀ with ttl := 0 } := by
  cases m with
  | data data₀ => exact ⟨data₀, rfl, (Message.data.inj h).symm⟩
  | _ => cases h

/-- Node `S` read the inner packet of `data` from its TUN, and routed it. -/
structure Entered (v : List (Seen ι)) (a : Service ι) (data : DataMsg) (S : ι) (sh : Shared)
    (dst : IpAddr) (route : RouteEntry) : Prop where
  read : Seen.read S data.innerPacket ∈ v
  runs : a.Runs S sh
  destination : packetDestination data.innerPacket = some dst
  unicast : dst.isMulticast = false
  routed : sh.routing.lookup dst = some route
  stealth : data.dstStealth = route.stealth

theorem Entered.later {atr : List (Service.Label C ι)} {a a' : Service ι} {l : Service.Label C ι}
    {data : DataMsg} {S : ι} {sh : Shared} {dst : IpAddr} {route : RouteEntry}
    (h : Entered (Lib.seen Service.Label.see atr) a data S sh dst route)
    (hstep : Service.Step net a l a') :
    Entered (Lib.seen Service.Label.see (atr ++ [l])) a' data S sh dst route := by
  refine { h with read := ?_, runs := shared_of_serviceStep hstep h.runs }
  rw [Lib.seen_append]
  exact List.mem_append_left _ h.read

/-- Data that is posted entered at some TUN. -/
theorem Net.Serves.entered {atr : List (Service.Label C ι)} {a : Service ι}
    (h : net.Serves atr a) {x : Letter ι} (hx : x ∈ a.posted) {data : DataMsg}
    (hdata : x.content = .data data) :
    ∃ S sh dst route, Entered (Lib.seen Service.Label.see atr) a data S sh dst route := by
  refine Net.Serves.letters
    (P := fun atr a x => ∀ data, x.content = .data data →
      ∃ S sh dst route, Entered (Lib.seen Service.Label.see atr) a data S sh dst route)
    ?_ ?_ ?_ ?_ h x hx data hdata
  · intro atr a l a' x hstep _ h data hx
    obtain ⟨S, sh, dst, route, h⟩ := h data hx
    exact ⟨S, sh, dst, route, h.later hstep⟩
  · intro atr a a' i ev env did call x _ _ _ _ _ hposts hlocal data hdata
    -- a client asks for its assignment
    cases hlocal with
    | asked _ _ hto =>
        rw [hposts.inv.2, hto.msg] at hdata
        cases hdata
  · intro atr a a' i ev env did sh rt p call x _ hstep hn horig _ _ hposts data hdata
    rw [hposts.inv.2] at hdata
    obtain ⟨data₀, hmsg, rfl⟩ := Message.data_of_content hdata
    rw [hmsg] at horig
    obtain ⟨dst, route, rfl, hdst, hcast, hroute, -, heq⟩ := horig.data_inv
    have hruns : a'.Runs i sh := shared_of_serviceStep hstep (by rw [Service.Runs, hn]; rfl)
    refine ⟨i, sh, dst, route, ?_, hruns, hdst, hcast, hroute, by rw [heq]⟩
    rw [Lib.seen_append, Lib.seen_singleton]
    exact List.mem_append_right _ List.mem_cons_self
  · intro atr a a' i env did sh rt peer p m call x y _ hstep hn _ ih hm _ hemits _ hposts data hdata
    -- a relay passes on what it took
    rw [hposts.inv.2] at hdata
    rcases hemits.content with hcontent | hanswer
    · obtain ⟨S, shS, dst, route, h⟩ := ih data (by rw [← hm, ← hcontent, hdata])
      exact ⟨S, shS, dst, route, h.later hstep⟩
    · rw [← Message.isAnswer_content, hdata] at hanswer
      cases hanswer

/-- What a step shows: a packet that was read, an id that was drawn, or an
effect of a letter that was taken. -/
theorem see_of_serviceStep {a a' : Service ι} {l : Service.Label C ι}
    (hstep : Service.Step net a l a') {o : Seen ι} (ho : o ∈ l.see) :
    (∃ i packet, o = .read i packet) ∨ (∃ i ticket, o = .drew i ticket) ∨
      ∃ i env did sh rt peer m e, l = .take i env did ∧ a.node i = .running sh rt ∧
        (∃ y ∈ a.posted, m.content = y.content ∧ y.IsFor net a i peer m) ∧
        l.see = (dispatch C sh env rt.tables peer m).effects.filterMap (Effect.seen? i) ∧
        e ∈ (dispatch C sh env rt.tables peer m).effects ∧ e.seen? i = some o := by
  cases l with
  | giveUp i => cases ho
  | act i ev env did =>
      obtain ⟨hact, -⟩ := acted_of_step hstep
      obtain ⟨_, hspec⟩ := (Phase.act_cases hact).sends
      rcases List.mem_append.mp ho with ho | ho
      · cases ev with
        | tunRead packet => exact Or.inl ⟨i, packet, List.mem_singleton.mp ho⟩
        | _ => cases ho
      · rcases List.mem_append.mp ho with ho | ho
        · obtain ⟨o', ho', rfl⟩ := Option.map_eq_some_iff.mp (Option.mem_toList.mp ho)
          exact Or.inr (Or.inl ⟨i, o', rfl⟩)
        · -- sending shows nothing
          rw [hspec.see i] at ho
          cases ho
  | take i env did =>
      obtain ⟨y, hy, peer, m, hm, hfor, htaken, -⟩ := taken_of_step hstep
      have hsee : (Service.Label.take i env did : Service.Label C ι).see
          = did.effects.filterMap (Effect.seen? i) := by
        show (did.drew.map (Seen.drew i)).toList ++ _ = _
        rw [htaken.drew]
        rfl
      rw [hsee] at ho
      obtain ⟨e, he, heo⟩ := List.mem_filterMap.mp ho
      generalize hn : a.node i = p at htaken
      generalize a'.node i = p' at htaken
      cases htaken with
      | deaf | waited | assigned => cases he
      | @handled sh rt =>
          exact Or.inr (Or.inr ⟨i, env, _, sh, rt, peer, m, e, rfl, hn, ⟨y, hy, hm, hfor⟩, hsee, he,
            heo⟩)

/-- A packet is written where it was meant for, after it was read. -/
def Integrity (a : Service ι) (before : List (Seen ι)) : Seen ι → Prop
  | .wrote N packet => ∃ S sh dst route shN, Seen.read S packet ∈ before ∧ a.Runs S sh ∧
      packetDestination packet = some dst ∧ dst.isMulticast = false ∧
      sh.routing.lookup dst = some route ∧ a.Runs N shN ∧
      (shN.localStealth = route.stealth ∨ shN.routing.ownsIp dst = true)
  | _ => True

/-- Every packet the service writes has been read, and is meant for where it is
written. -/
theorem Net.Serves.integrity {atr : List (Service.Label C ι)} {a : Service ι}
    (h : net.Serves atr a) : Lib.Justified (Integrity a) (Lib.seen Service.Label.see atr) := by
  refine h.justified (Q := Integrity) ?_ ?_
  · intro a l a' before o hstep hQ
    cases o with
    | wrote N packet =>
        obtain ⟨S, sh, dst, route, shN, hread, hS, hdst, hcast, hroute, hN, hlocal⟩ := hQ
        exact ⟨S, sh, dst, route, shN, hread, shared_of_serviceStep hstep hS, hdst, hcast, hroute,
          shared_of_serviceStep hstep hN, hlocal⟩
    | _ => trivial
  · intro atr a l a' hserves hstep before o after heq
    cases o with
    | wrote N packet =>
        have ho : Seen.wrote N packet ∈ l.see := by
          rw [heq]
          exact List.mem_append_right _ List.mem_cons_self
        rcases see_of_serviceStep hstep ho with ⟨_, _, h⟩ | ⟨_, _, h⟩ |
          ⟨i, env, did, sh, rt, peer, m, e, rfl, hn, ⟨y, hy, hm, -⟩, -, he, heo⟩
        · cases h
        · cases h
        · obtain ⟨rfl, rfl⟩ : i = N ∧ e = .tunWrite packet := by
            cases e with
            | tunWrite packet' => cases heo; exact ⟨rfl, rfl⟩
            | _ => cases heo
          obtain ⟨data, dst, rfl, rfl, hdst, hlocal⟩ := (dispatch_handled m).of_tunWrite he
          obtain ⟨S, shS, dst', route, hentered⟩ :=
            Net.Serves.entered hserves hy hm.symm
          -- both ends parse one destination from the packet
          obtain rfl : dst = dst' := Option.some.inj (hdst.symm.trans hentered.destination)
          have hi : a.Runs i sh := by
            rw [Service.Runs, hn]
            rfl
          refine ⟨S, shS, dst, route, sh, List.mem_append_left _ hentered.read,
            shared_of_serviceStep hstep hentered.runs, hdst, hentered.unicast, hentered.routed,
            shared_of_serviceStep hstep hi, ?_⟩
          rcases hlocal with hlocal | howns
          · exact Or.inl (hlocal.symm.trans hentered.stealth)
          · exact Or.inr howns
    | _ => trivial

/-! ## §4. Registrations and lists of clients. -/

/-- The entry is what a running client says of itself. -/
def Announced (node : ι → Phase) (entry : PublicClientEntry) : Prop :=
  ∃ c sh cfg, (node c).shared = some sh ∧ roleIsClient sh.config = true ∧
    sh.config.client = some cfg ∧ entry = registerEntry sh cfg

theorem Announced.later {a a' : Service ι} {l : Service.Label C ι} {entry : PublicClientEntry}
    (h : Announced a.node entry) (hstep : Service.Step net a l a') : Announced a'.node entry := by
  obtain ⟨c, sh, cfg, hc, hrest⟩ := h
  exact ⟨c, sh, cfg, shared_of_serviceStep hstep hc, hrest⟩

theorem Message.clientRegister_of_content {m : Message} {reg : ClientRegister}
    (h : m.content = .clientRegister reg) :
    ∃ reg₀, m = .clientRegister reg₀ ∧ reg = { reg₀ with ttl := 0 } := by
  cases m with
  | clientRegister reg₀ => exact ⟨reg₀, rfl, (Message.clientRegister.inj h).symm⟩
  | _ => cases h

/-- A registration that is posted says what its client says of itself. -/
theorem Net.Serves.registers {atr : List (Service.Label C ι)} {a : Service ι}
    (h : net.Serves atr a) {x : Letter ι} (hx : x ∈ a.posted) {reg : ClientRegister}
    (hreg : x.content = .clientRegister reg) : Announced a.node reg.client := by
  refine Net.Serves.letters
    (P := fun _ a x => ∀ reg, x.content = .clientRegister reg → Announced a.node reg.client)
    ?_ ?_ ?_ ?_ h x hx reg hreg
  · intro atr a l a' x hstep _ h reg hx
    exact (h reg hx).later hstep
  · intro atr a a' i ev env did call x _ _ _ _ _ hposts hlocal reg hreg
    cases hlocal with
    | asked _ _ hto =>
        rw [hposts.inv.2, hto.msg] at hreg
        cases hreg
  · intro atr a a' i ev env did sh rt p call x _ hstep hn horig hcall _ hposts reg hreg
    rw [hposts.inv.2] at hreg
    obtain ⟨reg₀, hmsg, rfl⟩ := Message.clientRegister_of_content hreg
    rw [hmsg] at horig
    obtain rfl := horig.clientRegister_inv
    have hact := (acted_of_step hstep).1
    rw [hn] at hact
    obtain ⟨rt', -, hact⟩ := Phase.act_running hact
    cases hact with
    | clientRegister hrole =>
        obtain ⟨cfg, reg', hcfg, hmsg', -, hentry, -⟩ := sendClientRegister_sends hcall
        obtain rfl := Message.clientRegister.inj (hmsg.symm.trans hmsg')
        have hi : a'.Runs i sh := shared_of_serviceStep hstep (by rw [Service.Runs, hn]; rfl)
        exact ⟨i, sh, cfg, hi, hrole, hcfg, hentry⟩
  · intro atr a a' i env did sh rt peer p m call x y _ hstep _ _ ih hm _ hemits _ hposts reg hreg
    rw [hposts.inv.2] at hreg
    rcases hemits.content with hcontent | hanswer
    · exact (ih reg (by rw [← hm, ← hcontent, hreg])).later hstep
    · rw [← Message.isAnswer_content, hreg] at hanswer
      cases hanswer

/-- A message enters a registration for this node into the registry, or leaves
it as it is. -/
theorem dispatch_registry (sh : Shared) (env : Env) (t : Tables) (peer : PeerRuntime) (m : Message) :
    (∃ reg, m = .clientRegister reg ∧ (dispatch C sh env t peer m).tables.registeredClients
        = t.registeredClients.insert reg.client.clientStealth reg.client) ∨
      (dispatch C sh env t peer m).tables.registeredClients = t.registeredClients := by
  by_cases hreg : registered sh t m = t
  · exact Or.inr (dispatch_registry_of_not sh env t peer hreg)
  · cases m with
    | clientRegister reg =>
        refine Or.inl ⟨reg, rfl, ?_⟩
        obtain ⟨httl, htarget⟩ : reg.ttl ≠ 0 ∧ reg.targetGatewayStealth = sh.localStealth := by
          by_contra hnot
          exact hreg (if_neg hnot)
        show (handleClientRegister C sh env t reg).tables.registeredClients = _
        unfold handleClientRegister
        rw [if_neg httl, if_pos htarget]
        rfl
    | _ => exact absurd rfl hreg

/-- The registry of a node holds what running clients say of themselves. -/
theorem Net.Serves.registry {atr : List (Service.Label C ι)} {a : Service ι} (h : net.Serves atr a)
    {i : ι} {sh : Shared} {rt : Runtime} (hi : a.node i = .running sh rt) {stealth : String}
    {entry : PublicClientEntry}
    (hlook : rt.tables.registeredClients.lookup stealth = some entry) :
    entry.clientStealth = stealth ∧ Announced a.node entry := by
  refine Net.Serves.whileRunning
    (I := fun _ a _ rt => ∀ stealth entry,
      rt.tables.registeredClients.lookup stealth = some entry →
      entry.clientStealth = stealth ∧ Announced a.node entry)
    ?_ ?_ ?_ ?_ h hi stealth entry hlook
  · intro atr a sh stealth entry hlook
    cases hlook
  · intro atr a l a' sh rt hstep ih stealth entry hlook
    obtain ⟨hkey, hentry⟩ := ih stealth entry hlook
    exact ⟨hkey, hentry.later hstep⟩
  · intro atr a a' ev env did sh rt rt' _ hstep _ hact ih stealth entry hlook
    rw [hact.registry] at hlook
    obtain ⟨hkey, hentry⟩ := ih stealth entry hlook
    exact ⟨hkey, hentry.later hstep⟩
  · intro atr a a' env did sh rt peer m y hserves hstep _ hy hm _ ih stealth entry hlook
    rw [Runtime.tables_settle] at hlook
    rcases dispatch_registry (C := C) sh env rt.tables peer m with ⟨reg, rfl, hinsert⟩ | hsame
    · rw [hinsert, HashMap.lookup_insert_eq] at hlook
      split at hlook
      · -- the entry that was just made
        rename_i hkey
        obtain rfl := Option.some.inj hlook
        exact ⟨hkey.symm, (Net.Serves.registers hserves hy hm.symm).later hstep⟩
      · obtain ⟨hkey, hentry⟩ := ih stealth entry hlook
        exact ⟨hkey, hentry.later hstep⟩
    · rw [hsame] at hlook
      obtain ⟨hkey, hentry⟩ := ih stealth entry hlook
      exact ⟨hkey, hentry.later hstep⟩

/-- The node with this stealth lists clients it is configured with, and clients
that say so of themselves. -/
def Listed (node : ι → Phase) (stealth : String) (clients : List PublicClientEntry) : Prop :=
  ∃ j sh, (node j).shared = some sh ∧ sh.localStealth = stealth ∧
    ∀ entry ∈ clients, entry ∈ configuredEntries sh ∨ Announced node entry

theorem Listed.later {a a' : Service ι} {l : Service.Label C ι} {stealth : String}
    {clients : List PublicClientEntry} (h : Listed a.node stealth clients)
    (hstep : Service.Step net a l a') : Listed a'.node stealth clients := by
  obtain ⟨j, sh, hj, hstealth, hentries⟩ := h
  refine ⟨j, sh, shared_of_serviceStep hstep hj, hstealth, ?_⟩
  intro entry hentry
  exact (hentries entry hentry).imp_right fun hannounced => hannounced.later hstep

theorem mem_publishedClients {sh : Shared} {env : Env} {t : Tables} {entry : PublicClientEntry}
    (h : entry ∈ publishedClients sh env t) :
    entry ∈ configuredEntries sh ∨
      ∃ stealth, t.registeredClients.lookup stealth = some entry := by
  rw [publishedClients_eq] at h
  rcases List.mem_append.mp h with h | h
  · exact Or.inl h
  · exact Or.inr (HashMap.mem_values.mp ((env.valuesOrder_perm _).mem_iff.mp h))

/-- A list of clients that is posted is one of the node it names. -/
theorem Net.Serves.lists {atr : List (Service.Label C ι)} {a : Service ι} (h : net.Serves atr a)
    {x : Letter ι} (hx : x ∈ a.posted) {resp : PublicClientsResp}
    (hresp : x.content = .publicClientsResp resp) :
    Listed a.node resp.gatewayStealth resp.clients := by
  refine Net.Serves.letters
    (P := fun _ a x => ∀ resp, x.content = .publicClientsResp resp →
      Listed a.node resp.gatewayStealth resp.clients)
    ?_ ?_ ?_ ?_ h x hx resp hresp
  · intro atr a l a' x hstep _ h resp hx
    exact (h resp hx).later hstep
  · intro atr a a' i ev env did call x _ _ _ _ _ hposts hlocal resp hresp
    cases hlocal with
    | asked _ _ hto =>
        rw [hposts.inv.2, hto.msg] at hresp
        cases hresp
  · intro atr a a' i ev env did sh rt p call x _ _ _ horig _ _ hposts resp hresp
    -- by itself a node posts no response
    have hnot := horig.request_cases.1
    rw [← Message.isResponse_withTtl call.msg 0] at hnot
    rw [hposts.inv.2] at hresp
    rw [show call.msg.withTtl 0 = .publicClientsResp resp from hresp] at hnot
    cases hnot
  · intro atr a a' i env did sh rt peer p m call x y hserves hstep hn _ ih hm _ hemits _ hposts resp
      hresp
    rw [hposts.inv.2] at hresp
    generalize hmsg : call.msg = m' at hemits hresp
    cases hemits with
    | granted | acknowledged | ponged => cases hresp
    | published _ _ _ =>
        obtain rfl := Message.publicClientsResp.inj hresp
        have hi : a'.Runs i sh := shared_of_serviceStep hstep (by rw [Service.Runs, hn]; rfl)
        refine ⟨i, sh, hi, rfl, ?_⟩
        intro entry hentry
        rcases mem_publishedClients hentry with hconfigured | ⟨stealth, hlook⟩
        · exact Or.inl hconfigured
        · exact Or.inr ((Net.Serves.registry hserves hn hlook).2.later hstep)
    | relayed =>
        rw [Message.content_withTtl] at hresp
        exact (ih resp (by rw [← hm, hresp])).later hstep

omit [DecidableEq ι] in
/-- A thread gets a reply only from an answer to its request. -/
theorem Handled.of_reply {sh : Shared} {env : Env} {t : Tables} {peer : PeerRuntime} {m : Message}
    {o : Outcome C} (h : Handled sh env t peer m o) {κ : RequestKind} {tx : Tx}
    {payload : Payload κ} (hr : Effect.reply κ tx payload ∈ o.effects) :
    ∃ id, Answers sh env m κ id payload ∧ (t.pending κ).lookup id = some tx := by
  cases h with
  | ignored | failed => cases hr
  | sent r hspec => exact absurd hr hspec.not_reply
  | written => cases List.mem_singleton.mp hr
  | answered κ' id payload' hans =>
      unfold answerPending at hr
      dsimp only at hr
      split at hr
      · cases hr
      · rename_i tx' hlook
        cases List.mem_singleton.mp hr
        exact ⟨id, hans, hlook⟩

/-- What a thread is told of the clients of a node is a list of that node. -/
theorem Net.Serves.listed {atr : List (Service.Label C ι)} {a : Service ι} (h : net.Serves atr a)
    {i : ι} {tx : Tx} {stealth : String} {clients : List PublicClientEntry}
    (hseen : Seen.replied i .clients tx (stealth, clients) ∈ Lib.seen Service.Label.see atr) :
    Listed a.node stealth clients := by
  refine h.history (I := fun atr a => ∀ i tx stealth clients,
    Seen.replied i .clients tx (stealth, clients) ∈ Lib.seen Service.Label.see atr →
    Listed a.node stealth clients) ?_ ?_ i tx stealth clients hseen
  · intro i tx stealth clients hseen
    cases hseen
  · intro atr a l a' hserves ih hstep i tx stealth clients hseen
    rw [Lib.seen_append, Lib.seen_singleton, List.mem_append] at hseen
    rcases hseen with hseen | hseen
    · exact (ih i tx stealth clients hseen).later hstep
    · rcases see_of_serviceStep hstep hseen with ⟨_, _, h⟩ | ⟨_, _, h⟩ |
        ⟨j, env, did, sh, rt, peer, m, e, rfl, hn, ⟨y, hy, hm, -⟩, -, he, heo⟩
      · cases h
      · cases h
      · cases e with
        | reply κ tx' payload =>
            cases heo
            obtain ⟨id, hans, -⟩ := (dispatch_handled m).of_reply he
            cases hans with
            | clients => exact (Net.Serves.lists hserves hy hm.symm).later hstep
        | _ => cases heo

/-! ## §5. Requests and responses. -/

/-- Node `i` drew the id of a request for the iteration `tx`. -/
structure Asked (v : List (Seen ι)) (a : Service ι) (head : Head) (i : ι) (sh : Shared) (tx : Tx) :
    Prop where
  runs : a.Runs i sh
  src : head.src = sh.localStealth
  drew : Seen.drew i ⟨head.kind, head.id, tx, head.target⟩ ∈ v

theorem Asked.later {atr : List (Service.Label C ι)} {a a' : Service ι} {l : Service.Label C ι}
    {head : Head} {i : ι} {sh : Shared} {tx : Tx}
    (h : Asked (Lib.seen Service.Label.see atr) a head i sh tx) (hstep : Service.Step net a l a') :
    Asked (Lib.seen Service.Label.see (atr ++ [l])) a' head i sh tx := by
  refine ⟨shared_of_serviceStep hstep h.runs, h.src, ?_⟩
  rw [Lib.seen_append]
  exact List.mem_append_left _ h.drew

/-- The requests of the threads of node `i` have drawn their ids. -/
def Drawn (v : List (Seen ι)) (i : ι) (rt : Runtime) : Prop :=
  ∀ κ n (job : Job κ) req, rt.jobs κ n = some job → job.current = some req →
    Seen.drew i ⟨κ, req.id, ⟨n, job.results.length⟩, req.target⟩ ∈ v

omit [DecidableEq ι] in
theorem RuntimeStep.drawn {v w : List (Seen ι)} {l : Label C ι} {i : ι} {sh : Shared}
    {rt rt' : Runtime} (hrt : RuntimeStep sh i l rt rt') (h : Drawn v i rt)
    (hshown : ∀ did ticket, l.Does i did → did.drew = some ticket → Seen.drew i ticket ∈ w) :
    Drawn (v ++ w) i rt' := by
  intro κ n job' req hjob' hreq
  rw [List.mem_append]
  cases hrt.job hjob' with
  | same hjob _ => exact Or.inl (h κ n job' req hjob hreq)
  | opened _ hrequest _ _ =>
      rw [(AdminRequest.job_new hrequest).2] at hreq
      cases hreq
  | @advanced job env did st hl hjob hst hdid heq =>
      have hmoves := hst.moves
      rw [← heq] at hmoves
      generalize hdrew : st.drew = drew at hmoves
      cases hmoves with
      | begins id target _ _ =>
          -- the id is drawn in this step
          obtain rfl := Option.some.inj hreq
          refine Or.inr (hshown did _ (hl ▸ Label.does_act ..) ?_)
          rw [hdid, hdrew]
          rfl
      | keeps req₀ stage hreq₀ _ =>
          obtain rfl := Option.some.inj hreq
          exact Or.inl (h κ n job req₀ hjob hreq₀)
      | ends => cases hreq
  | @delivered job payload tx _ _ _ _ _ hjob heq _ =>
      subst heq
      rcases job.deliver_cases tx.iteration payload with heq | ⟨req₀, hreq₀, -, heq⟩
      · rw [heq] at hreq ⊢
        exact Or.inl (h κ n job req hjob hreq)
      · rw [heq] at hreq ⊢
        obtain rfl := Option.some.inj hreq
        exact Or.inl (h κ n job req₀ hjob hreq₀)

theorem Net.Serves.drawn {atr : List (Service.Label C ι)} {a : Service ι} (h : net.Serves atr a)
    {i : ι} {sh : Shared} {rt : Runtime} (hi : a.node i = .running sh rt) :
    Drawn (Lib.seen Service.Label.see atr) i rt := by
  refine Net.Serves.whileRunning
    (I := fun atr _ _ rt => Drawn (Lib.seen Service.Label.see atr) i rt) ?_ ?_ ?_ ?_ h hi
  · intro atr a sh κ n job req hjob
    cases hjob
  · intro atr a l a' sh rt _ ih κ n job req hjob hreq
    rw [Lib.seen_append]
    exact List.mem_append_left _ (ih κ n job req hjob hreq)
  · intro atr a a' ev env did sh rt rt' _ _ _ hact ih
    rw [Lib.seen_append, Lib.seen_singleton]
    have hrt : RuntimeStep sh i (Label.act i ev env did) rt rt' := hact.runtime
    refine hrt.drawn ih ?_
    intro did' ticket hdoes hdrew
    obtain ⟨-, rfl⟩ := hdoes.act_inv
    refine List.mem_append_right _ (List.mem_append_left _ ?_)
    rw [hdrew]
    exact List.mem_singleton_self _
  · intro atr a a' env did sh rt peer m y _ hstep hi _ _ _ ih
    rw [Lib.seen_append]
    -- taking a message does what receiving it does
    have hhandled : Handled sh env rt.tables peer m (dispatch C sh env rt.tables peer m) :=
      dispatch_handled m
    have hrt := hhandled.runtime (Label.does_inject i [] env _) rfl (sending_of_take hstep hi)
    refine hrt.drawn ih ?_
    intro did' ticket hdoes hdrew
    obtain ⟨-, rfl⟩ := hdoes.inject_inv
    cases hdrew

omit [DecidableEq ι] in
theorem Message.not_isAnswer_of_request {m : Message} {head : Head} (h : m.request = some head) :
    m.isAnswer = false := by
  cases m with
  | pingReq | publicClientsReq => rfl
  | _ => cases h

/-- A request that is posted has drawn its id, at the node it names as its
source. -/
theorem Net.Serves.asked {atr : List (Service.Label C ι)} {a : Service ι} (h : net.Serves atr a)
    {x : Letter ι} (hx : x ∈ a.posted) {head : Head} (hhead : x.content.request = some head) :
    ∃ i sh tx, Asked (Lib.seen Service.Label.see atr) a head i sh tx := by
  refine Net.Serves.letters
    (P := fun atr a x => ∀ head, x.content.request = some head →
      ∃ i sh tx, Asked (Lib.seen Service.Label.see atr) a head i sh tx)
    ?_ ?_ ?_ ?_ h x hx head hhead
  · intro atr a l a' x hstep _ h head hx
    obtain ⟨i, sh, tx, h⟩ := h head hx
    exact ⟨i, sh, tx, h.later hstep⟩
  · intro atr a a' i ev env did call x _ _ _ _ _ hposts hlocal head hhead
    cases hlocal with
    | asked _ _ hto =>
        rw [hposts.inv.2, hto.msg] at hhead
        cases hhead
  · intro atr a a' i ev env did sh rt p call x hserves hstep hn horig _ _ hposts head hhead
    rw [hposts.inv.2, show call.msg.content.request = call.msg.request from
      Message.request_withTtl ..] at hhead
    obtain ⟨n, job, req, hjob, hcurrent, hid, htarget, hsrc⟩ := horig.request_cases.2 head hhead
    have hdrew := Net.Serves.drawn hserves hn _ n job req hjob hcurrent
    rw [hid, htarget] at hdrew
    have hi : a.Runs i sh := by
      rw [Service.Runs, hn]
      rfl
    exact ⟨i, sh, _, (Asked.mk hi hsrc hdrew).later hstep⟩
  · intro atr a a' i env did sh rt peer p m call x y _ hstep _ _ ih hm _ hemits _ hposts head hhead
    rw [hposts.inv.2] at hhead
    rcases hemits.content with hcontent | hanswer
    · obtain ⟨i', sh', tx, h⟩ := ih head (by rw [← hm, ← hcontent, hhead])
      exact ⟨i', sh', tx, h.later hstep⟩
    · rw [← Message.isAnswer_content, Message.not_isAnswer_of_request hhead] at hanswer
      cases hanswer

/-- What a response says of the request it answers. -/
def Message.response : Message → Option Head
  | .pingResp pong => some ⟨.ping, pong.requestId, pong.dstStealth, pong.responderStealth⟩
  | .publicClientsResp resp =>
      some ⟨.clients, resp.requestId, resp.dstStealth, resp.gatewayStealth⟩
  | _ => none

omit [DecidableEq ι] in
@[simp] theorem Message.response_content (m : Message) : m.content.response = m.response := by
  cases m <;> rfl

omit [DecidableEq ι] in
theorem Message.isResponse_of_response {m : Message} {head : Head} (h : m.response = some head) :
    m.isResponse = true := by
  cases m with
  | pingResp | publicClientsResp => rfl
  | _ => cases h

omit [DecidableEq ι] in
theorem respond_response {sh : Shared} {env : Env} {t : Tables} {m m' : Message}
    (h : respond sh env t m = some m') :
    ∃ head, m.request = some head ∧ m'.response = some head ∧ head.target = sh.localStealth := by
  cases m with
  | pingReq ping | publicClientsReq req =>
      simp only [respond] at h
      split at h
      · rename_i hself
        obtain rfl := Option.some.inj h
        refine ⟨_, rfl, ?_, hself.2⟩
        simp only [Message.response, pingResponse, clientsResponse, hself.2]
      · cases h
  | _ => cases h

/-- The node with the stealth a request is for posted this response. -/
structure Responded (a : Service ι) (x : Letter ι) (head : Head) (j : ι) (sh : Shared) : Prop where
  runs : a.Runs j sh
  target : head.target = sh.localStealth
  posted : ∃ y ∈ a.posted, y.sender = j ∧ y.content = x.content

theorem Responded.later {a a' : Service ι} {l : Service.Label C ι} {x : Letter ι} {head : Head}
    {j : ι} {sh : Shared} (h : Responded a x head j sh) (hstep : Service.Step net a l a') :
    Responded a' x head j sh := by
  obtain ⟨y, hy, hsender, hcontent⟩ := h.posted
  exact ⟨shared_of_serviceStep hstep h.runs, h.target, y, posted_of_serviceStep hstep hy, hsender,
    hcontent⟩

/-- A response that is posted was made by the node that its request is for,
and its request has drawn its id. -/
theorem Net.Serves.responded {atr : List (Service.Label C ι)} {a : Service ι}
    (h : net.Serves atr a) {x : Letter ι} (hx : x ∈ a.posted) {head : Head}
    (hhead : x.content.response = some head) :
    (∃ i sh tx, Asked (Lib.seen Service.Label.see atr) a head i sh tx) ∧
      ∃ j sh, Responded a x head j sh := by
  refine Net.Serves.letters
    (P := fun atr a x => ∀ head, x.content.response = some head →
      (∃ i sh tx, Asked (Lib.seen Service.Label.see atr) a head i sh tx) ∧
        ∃ j sh, Responded a x head j sh)
    ?_ ?_ ?_ ?_ h x hx head hhead
  · intro atr a l a' x hstep _ h head hx
    obtain ⟨⟨i, shi, tx, hasked⟩, j, shj, hresponded⟩ := h head hx
    exact ⟨⟨i, shi, tx, hasked.later hstep⟩, j, shj, hresponded.later hstep⟩
  · intro atr a a' i ev env did call x _ _ _ _ _ hposts hlocal head hhead
    cases hlocal with
    | asked _ _ hto =>
        rw [hposts.inv.2, hto.msg] at hhead
        cases hhead
  · intro atr a a' i ev env did sh rt p call x _ _ _ horig _ _ hposts head hhead
    have hnot := horig.request_cases.1
    rw [hposts.inv.2, Message.response_content] at hhead
    rw [Message.isResponse_of_response hhead] at hnot
    cases hnot
  · intro atr a a' j env did sh rt peer p m call x y hserves hstep hn hy ih hm _ hemits hx hposts head
      hhead
    rw [hposts.inv.2, Message.response_content] at hhead
    have hj : a.Runs j sh := by
      rw [Service.Runs, hn]
      rfl
    rcases hemits.response_cases with ⟨ttl, hrelay⟩ | ⟨hrespond, -⟩ | ⟨-, hnot⟩
    · -- a relay leaves what the response says
      have hcontent : x.content = y.content := by
        rw [hposts.inv.2, hrelay, Message.content_withTtl, hm]
      have hhead' : y.content.response = some head := by
        rw [← hcontent, hposts.inv.2, Message.response_content, hhead]
      obtain ⟨⟨i, shi, tx, hasked⟩, j', shj, hresponded⟩ := ih head hhead'
      obtain ⟨z, hz, hsender, hz'⟩ := hresponded.posted
      refine ⟨⟨i, shi, tx, hasked.later hstep⟩, j', shj, ?_⟩
      exact Responded.later ⟨hresponded.runs, hresponded.target, z, hz, hsender,
        hz'.trans hcontent.symm⟩ hstep
    · obtain ⟨head', hrequest, hresponse, htarget⟩ := respond_response hrespond
      obtain rfl := Option.some.inj (hresponse.symm.trans hhead)
      have hrequest' : y.content.request = some head' := by
        rw [← hm, show m.content.request = m.request from Message.request_withTtl .., hrequest]
      obtain ⟨i, shi, tx, hasked⟩ := Net.Serves.asked hserves hy hrequest'
      exact ⟨⟨i, shi, tx, hasked.later hstep⟩, j, sh, shared_of_serviceStep hstep hj, htarget, x, hx,
        hposts.inv.1, rfl⟩
    · rw [Message.isResponse_of_response hhead] at hnot
      cases hnot

end StealthNet
