/-
  StealthNet.Network.Travel
  ─────────────────────────
  A MESSAGE ALONG A CHAIN OF RELAYS.

  A node sends a message towards a stealth.  Where it is not lost the
  message follows the next hops for that stealth, its ttl falling by one at
  each relay:

    • `travels`        — if links first arrive at `D` before the ttl runs out,
                         the message is delivered there;
    • `onPath_of_step` — conversely, between mutually configured peers whatever
                         descends from the first datagram is this message on
                         this path, or a reply to it.

  The steps a datagram descends from are on its trail.
-/
import StealthNet.Network.Links
import StealthNet.Lib.Walk

namespace StealthNet

open Lib (walk FirstArrival firstArrival_one firstArrival_succ)

variable {C : Crates} {ι : Type} {net : Net ι}

/-- Node `D` dispatches a message that descends from step `n`. -/
def Delivered (s : State C ι) (tr : List (Label C ι)) (n : Nat) (D : ι) (m : Message) : Prop :=
  ∃ (g : Flight C) (keep : Bool) (env : Env) (did : Activity C) (sh : Shared) (rt : Runtime)
    (q : PeerRuntime), Label.deliver D g keep env did ∈ tr ∧ n ∈ g.trail ∧ s.Runs D sh ∧
    did = ⟨some (q, m), none, (dispatch C sh env rt.tables q m).effects⟩

theorem Delivered.mono {s₀ : State C ι} {tr tr' : List (Label C ι)} {n : Nat} {D : ι} {m : Message}
    (h : Delivered s₀ tr n D m) (hsub : ∀ l ∈ tr, l ∈ tr') : Delivered s₀ tr' n D m := by
  obtain ⟨g, keep, env, did, sh, rt, q, hg, hrest⟩ := h
  exact ⟨g, keep, env, did, sh, rt, q, hsub _ hg, hrest⟩

theorem Label.clock_mem_trail (l : Label C ι) (clock : Nat) : clock ∈ l.trail clock := by
  cases l <;> simp [Label.trail]

variable [DecidableEq ι]

/-! ## §1. Trails. -/

/-- What a node sends is in flight after the step. -/
theorem Step.mem_inflight {s s' : State C ι} {l : Label C ι} (h : Step net s l s') {i : ι}
    {did : Activity C} (hdoes : l.Does i did) {d : Datagram C}
    (hd : Effect.udpSend d ∈ did.effects) : (⟨d, l.trail s.clock⟩ : Flight C) ∈ s'.inflight := by
  cases h with
  | act _ =>
      obtain ⟨-, rfl⟩ := hdoes.act_inv
      exact Multiset.mem_add.mpr (Or.inr (mem_launched.mpr ⟨hd, rfl⟩))
  | deliver _ _ _ =>
      obtain ⟨-, rfl⟩ := hdoes.deliver_inv
      exact Multiset.mem_add.mpr (Or.inr (mem_launched.mpr ⟨hd, rfl⟩))
  | inject _ =>
      obtain ⟨-, rfl⟩ := hdoes.inject_inv
      exact Multiset.mem_add.mpr (Or.inr (mem_launched.mpr ⟨hd, rfl⟩))
  | drop _ => exact absurd hdoes Label.not_does_drop

/-- A trail lists earlier steps. -/
theorem Net.Run.trail_lt {tr : List (Label C ι)} {s : State C ι} (hrun : net.Run tr s) :
    ∀ f ∈ s.inflight, ∀ n ∈ f.trail, n < s.clock := by
  refine hrun.invariant (I := fun s => ∀ f ∈ s.inflight, ∀ n ∈ f.trail, n < s.clock) ?_ ?_
  · intro f hf
    simp [State.init] at hf
  · intro s l s' ih hstep f hf n hn
    rw [hstep.clock]
    -- the trail of a new datagram is this step, after the trail of the one received
    rcases hstep.inflight hf with hf | ⟨i, did, hd, -, htrail⟩
    · have := ih f hf n hn
      omega
    · rw [htrail] at hn
      cases l with
      | deliver j g keep env did' =>
          rcases List.mem_cons.mp hn with rfl | hn
          · omega
          · have hg := hstep.received_of_deliver.1
            have := ih g hg n hn
            omega
      | _ =>
          have : n = s.clock := List.mem_singleton.mp hn
          omega

/-- What descends from a step right after it, the step sent. -/
theorem Step.udpSend_of_mem {tr : List (Label C ι)} {s s' : State C ι} (hrun : net.Run tr s)
    {l : Label C ι} (hstep : Step net s l s') {i : ι} {did : Activity C} (hdoes : l.Does i did)
    {f : Flight C} (hf : f ∈ s'.inflight) (hn : s.clock ∈ f.trail) :
    Effect.udpSend f.datagram ∈ did.effects := by
  rcases hstep.inflight hf with hf | ⟨i', did', hd, hu, -⟩
  · exact absurd (hrun.trail_lt f hf _ hn) (Nat.lt_irrefl _)
  · obtain ⟨-, rfl⟩ := hdoes.unique hd
    exact hu

/-- What holds of the datagrams that descend from a step at first, and of what
a node sends on receiving one, holds of all of them. -/
theorem exec_descendants {s s' : State C ι} {tr : List (Label C ι)} {n : Nat}
    {P : Flight C → Prop} (hexec : Lib.Exec (Step net) s tr s') (hclock : n < s.clock)
    (h₀ : ∀ f ∈ s.inflight, n ∈ f.trail → P f)
    (hnext : ∀ tr₁ s₁ s₂ i f keep env did d, Lib.Exec (Step net) s tr₁ s₁ →
      Step net s₁ (.deliver i f keep env did) s₂ → P f → Effect.udpSend d ∈ did.effects →
      P ⟨d, s₁.clock :: f.trail⟩) :
    ∀ f ∈ s'.inflight, n ∈ f.trail → P f := by
  refine hexec.history (I := fun _ s => ∀ f ∈ s.inflight, n ∈ f.trail → P f) h₀ ?_
  intro tr₁ s₁ l s₂ hexec ih hstep f hf hn
  rcases hstep.inflight hf with hf | ⟨i, did, hd, hu, htrail⟩
  · exact ih f hf hn
  · have hlater := exec_clock hexec
    obtain ⟨d, trail⟩ := f
    dsimp only at htrail hu hn
    subst htrail
    cases l with
    | deliver j g keep env did' =>
        obtain ⟨rfl, rfl⟩ := hd.deliver_inv
        rcases List.mem_cons.mp hn with rfl | hn
        · omega
        · exact hnext _ _ _ _ _ _ _ _ _ hexec hstep
            (ih g hstep.received_of_deliver.1 hn) hu
    | _ =>
        have : n = s₁.clock := List.mem_singleton.mp hn
        omega

/-! ## §2. What is not lost is delivered. -/

/-- A datagram leaves the network by a delivery or a loss. -/
theorem Step.gone {s s' : State C ι} {l : Label C ι} (h : Step net s l s') {f : Flight C}
    (hf : f ∈ s.inflight) (hgone : f ∉ s'.inflight) :
    (∃ i keep env did, l = .deliver i f keep env did) ∨ l = .drop f := by
  cases h with
  | act _ | inject _ => exact absurd (Multiset.mem_add.mpr (Or.inl hf)) hgone
  | @deliver i g rest keep env p did hg _ _ =>
      rw [hg] at hf
      rcases Multiset.mem_cons.mp hf with rfl | hrest
      · exact Or.inl ⟨i, keep, env, did, rfl⟩
      · refine absurd (Multiset.mem_add.mpr (Or.inl ?_)) hgone
        cases keep with
        | true => rw [if_pos rfl, hg]; exact hf
        | false => exact hrest
  | @drop g rest hg =>
      rw [hg] at hf
      rcases Multiset.mem_cons.mp hf with rfl | hrest
      · exact Or.inr rfl
      · exact absurd hrest hgone

/-- A datagram that is not in flight any more, and was not lost, was
delivered. -/
theorem exec_delivers {s s' : State C ι} {tr : List (Label C ι)}
    (hexec : Lib.Exec (Step net) s tr s') {f : Flight C} (hdrop : Label.drop f ∉ tr)
    (hf : f ∈ s.inflight) (hgone : f ∉ s'.inflight) :
    ∃ tr₁ i keep env did tr₂ s₁ s₂, tr = tr₁ ++ .deliver i f keep env did :: tr₂ ∧
      Lib.Exec (Step net) s tr₁ s₁ ∧ Step net s₁ (.deliver i f keep env did) s₂ ∧
      Lib.Exec (Step net) s₂ tr₂ s' := by
  induction hexec with
  | refl => exact absurd hf hgone
  | @snoc tr s₁ l s₂ hrun hstep ih =>
      -- gone in the last step, or before
      by_cases hmid : f ∈ s₁.inflight
      · rcases hstep.gone hmid hgone with ⟨i, keep, env, did, rfl⟩ | rfl
        · exact ⟨tr, i, keep, env, did, [], s₁, s₂, rfl, hrun, hstep, .refl⟩
        · exact absurd (List.mem_append_right _ (List.mem_singleton_self _)) hdrop
      · obtain ⟨tr₁, i, keep, env, did, tr₂, t₁, t₂, rfl, h₁, h₂, h₃⟩ :=
          ih (fun hmem => hdrop (List.mem_append_left _ hmem)) hmid
        exact ⟨tr₁, i, keep, env, did, tr₂ ++ [l], t₁, t₂, by simp, h₁, h₂, h₃.snoc hstep⟩

/-- Of what descends from step `n` nothing is lost: no such datagram is dropped,
the socket of the node that receives one accepts what this node sends in
answer, and in the end none is in flight. Whatever else is sent may be lost. -/
structure Completes (n : Nat) (post : List (Label C ι)) (s : State C ι) : Prop where
  drops : ∀ f, Label.drop f ∈ post → n ∉ f.trail
  accepts : ∀ i f keep env did, Label.deliver i f keep env did ∈ post → n ∈ f.trail →
    env.socketAccepts = true
  delivered : ∀ f ∈ s.inflight, n ∉ f.trail

section

variable {n : Nat} {post : List (Label C ι)} {s s' : State C ι}

omit [DecidableEq ι] in
/-- A later part of the run completes as well. -/
theorem Completes.of_subset {post' : List (Label C ι)} (h : Completes n post s)
    (hsub : ∀ l ∈ post', l ∈ post) : Completes n post' s :=
  ⟨fun f hf => h.drops f (hsub _ hf), fun i f keep env did hl => h.accepts i f keep env did (hsub _ hl),
    h.delivered⟩

omit [DecidableEq ι] in
/-- So completes a run that loses nothing and leaves nothing in flight. -/
theorem Completes.of_lossFree (hloss : LossFree post) (hempty : s.inflight = 0) :
    Completes n post s := by
  refine ⟨fun f hf => (hloss _ hf).elim, fun i f keep env did hl _ => hloss _ hl, fun f hf => ?_⟩
  rw [hempty] at hf
  exact absurd hf (Multiset.notMem_zero f)

/-- A datagram that descends from step `n` is delivered. -/
theorem Completes.delivers (h : Completes n post s') (hexec : Lib.Exec (Step net) s post s')
    {f : Flight C} (hf : f ∈ s.inflight) (hn : n ∈ f.trail) :
    ∃ tr₁ i keep env did tr₂ s₁ s₂, post = tr₁ ++ .deliver i f keep env did :: tr₂ ∧
      Lib.Exec (Step net) s tr₁ s₁ ∧ Step net s₁ (.deliver i f keep env did) s₂ ∧
      Lib.Exec (Step net) s₂ tr₂ s' ∧ env.socketAccepts = true ∧ Completes n tr₂ s' := by
  obtain ⟨tr₁, i, keep, env, did, tr₂, s₁, s₂, rfl, h₁, hstep, h₂⟩ :=
    exec_delivers hexec (fun hmem => h.drops f hmem hn) hf fun hmem => h.delivered f hmem hn
  refine ⟨tr₁, i, keep, env, did, tr₂, s₁, s₂, rfl, h₁, hstep, h₂,
    h.accepts i f keep env did (List.mem_append_right _ List.mem_cons_self) hn, ?_⟩
  exact h.of_subset fun l hl => List.mem_append_right _ (List.mem_cons_of_mem _ hl)

end

/-! ## §3. Arrival. -/

/-- A datagram that is not lost is delivered over the link it was sent along and
dispatched there. The links are those of an earlier state. -/
theorem exec_next (hb : C.BincodeRoundTrips) (ha : C.IdealAead) {s₀ s s' : State C ι}
    {mid tr : List (Label C ι)} {n : Nat} {m : Message} {target : String} {a b : ι} {sha : Shared}
    {p : PeerRuntime} {f : Flight C} (hmid : Lib.Exec (Step net) s₀ mid s)
    (hexec : Lib.Exec (Step net) s tr s') (hcomp : Completes n tr s')
    (hlink : link net s₀ target a = some b) (hsha : s₀.Runs a sha)
    (hp : nextHop sha target = some p) (hf : f ∈ s.inflight) (hn : n ∈ f.trail)
    (hto : f.datagram.call.To sha p m) :
    ∃ tr₁ keep env did tr₂ s₁ s₂ sh, ∃ (rt : Runtime) (q : PeerRuntime),
      tr = tr₁ ++ .deliver b f keep env did :: tr₂ ∧
      Lib.Exec (Step net) s₀ (mid ++ tr₁) s₁ ∧ Step net s₁ (.deliver b f keep env did) s₂ ∧
      Lib.Exec (Step net) s₂ tr₂ s' ∧ env.socketAccepts = true ∧ Completes n tr₂ s' ∧
      s₀.Runs b sh ∧ did = ⟨some (q, m), none, (dispatch C sh env rt.tables q m).effects⟩ := by
  obtain ⟨tr₁, i, keep, env, did, tr₂, s₁, s₂, rfl, h₁, hstep, h₂, henv, hcomp₂⟩ :=
    hcomp.delivers hexec hf hn
  obtain ⟨sha', p', hsha', hp', hhost, hknows⟩ := link_eq_some_iff.mp hlink
  obtain rfl := Option.some.inj (hsha.symm.trans hsha')
  obtain rfl := Option.some.inj (hp.symm.trans hp')
  -- the receiver is the node at the peer's address
  have hi := hstep.received_of_deliver.2.1
  rw [hto.addr] at hi
  obtain rfl : i = b := Option.some.inj (hi.symm.trans hhost)
  have hlater := hmid.append h₁
  obtain ⟨sh, rt, q, hrun, hdid⟩ :=
    State.dispatches hb ha (State.knows_later hlater hknows) hto hstep
  obtain ⟨shb, -, hshb, -⟩ := State.knows_iff.mp hknows
  obtain rfl := Option.some.inj ((exec_shared hlater hshb).symm.trans hrun)
  exact ⟨tr₁, keep, env, did, tr₂, s₁, s₂, shb, rt, q, rfl, hlater, hstep, h₂, henv, hcomp₂, hshb,
    hdid⟩

/-- A node that a message is not for sends it on, if it has a link for it and
the ttl allows. -/
theorem PassesOn.forwards (hC : C.Total) {sh : Shared} {m : Message} {target : String}
    (hpass : PassesOn sh m target) (env : Env) (t : Tables) (q : PeerRuntime) {ttl : UInt8}
    (henough : m.minTtl ≤ ttl.toNat) (henv : env.socketAccepts = true) {p : PeerRuntime}
    (hp : nextHop sh target = some p) :
    ∃ d : Datagram C, Effect.udpSend d ∈ (dispatch C sh env t q (m.withTtl ttl)).effects ∧
      d.call.To sh p (m.withTtl (ttl - 1)) := by
  obtain ⟨d, hd, hforward⟩ := forwardByStealth_ok hC sh env henv hp (m.withTtl (ttl - 1))
  have hrelay : dispatch C sh env t q (m.withTtl ttl)
      = .ofSent t (forwardByStealth C sh env target (m.withTtl (ttl - 1))) := by
    rw [dispatch_relay sh env t q (hpass.withTtl ttl), Message.minTtl_withTtl,
      Message.ttl_withTtl hpass.addressed ttl, Message.withTtl_withTtl, if_pos henough]
  refine ⟨d, ?_, hd⟩
  rw [hrelay, hforward]
  simp [Outcome.ofSent]

/-- A message whose links first arrive at `D`, with enough ttl for the relays
before it, is delivered to `D`. The links are those of an earlier state. -/
theorem travels (hb : C.BincodeRoundTrips) (ha : C.IdealAead) (hC : C.Total) {s₀ : State C ι}
    {n : Nat} {m : Message} {target : String} {D : ι}
    (hpass : ∀ b sh, s₀.Runs b sh → b ≠ D → PassesOn sh m target) {k : Nat} :
    ∀ {s s' : State C ι} {mid tr : List (Label C ι)} {a : ι} {sha : Shared} {p : PeerRuntime}
      {f : Flight C} {ttl : UInt8}, Lib.Exec (Step net) s₀ mid s →
      Lib.Exec (Step net) s tr s' → Completes n tr s' →
      FirstArrival (link net s₀ target) a D (k + 1) → s₀.Runs a sha →
      nextHop sha target = some p → f ∈ s.inflight → n ∈ f.trail →
      f.datagram.call.To sha p (m.withTtl ttl) → m.minTtl + k ≤ ttl.toNat + 1 →
      ∃ ttl', Delivered s₀ tr n D (m.withTtl ttl') ∧ ttl'.toNat + k = ttl.toNat := by
  -- by induction on the number of links
  induction k with
  | zero =>
      intro s s' mid tr a sha p f ttl hmid hexec hcomp harr hsha hp hf hn hto _
      obtain ⟨tr₁, keep, env, did, tr₂, s₁, s₂, sh, rt, q, rfl, -, -, -, -, -, hD, hdid⟩ :=
        exec_next hb ha hmid hexec hcomp (firstArrival_one.mp harr) hsha hp hf hn hto
      exact ⟨ttl, ⟨f, keep, env, did, sh, rt, q, by simp, hn, hD, hdid⟩, rfl⟩
  | succ k ih =>
      intro s s' mid tr a sha p f ttl hmid hexec hcomp harr hsha hp hf hn hto henough
      -- the datagram is delivered to the next node of the path, which is not `D`
      obtain ⟨b, hlink, hbD, harr'⟩ := firstArrival_succ.mp harr
      obtain ⟨tr₁, keep, env, did, tr₂, s₁, s₂, sh, rt, q, rfl, hlater, hstep, h₂, henv, hcomp₂, hsh,
        hdid⟩ := exec_next hb ha hmid hexec hcomp hlink hsha hp hf hn hto
      -- so it is relayed to the node after
      obtain ⟨p', hp'⟩ : ∃ p', nextHop sh target = some p' := by
        obtain ⟨c, hc⟩ := harr'.exists_next
        obtain ⟨sh', p', hsh', hp', -⟩ := link_eq_some_iff.mp hc
        obtain rfl := Option.some.inj (hsh.symm.trans hsh')
        exact ⟨p', hp'⟩
      have hfwd : m.minTtl ≤ ttl.toNat := by omega
      obtain ⟨d, hd, hto'⟩ := (hpass b sh hsh hbD).forwards hC env rt.tables q hfwd henv hp'
      -- and the rest of the run carries it on
      have hsub := toNat_sub_one (Message.ne_zero_of_minTtl hfwd)
      have hsent : Effect.udpSend d ∈ did.effects := by
        rw [hdid]
        exact hd
      obtain ⟨ttl', hdel, hsum⟩ := ih (hlater.snoc hstep) h₂ hcomp₂ harr' hsh hp'
        (hstep.mem_inflight (Label.does_deliver b f keep env did) hsent)
        (List.mem_cons_of_mem _ hn) hto' (by omega)
      refine ⟨ttl', hdel.mono fun l hl => ?_, by omega⟩
      exact List.mem_append_right _ (List.mem_cons_of_mem _ hl)

/-! ## §4. Only the path. -/

/-- Messages a node sends in answer to a request. -/
def Message.isReply : Message → Bool
  | .bootstrapResp _ | .clientRegisterAck _ | .pingResp _ | .publicClientsResp _ => true
  | _ => false

/-- A node relays, or replies; to a reply it does not reply. -/
theorem Emits.relayed_or_reply {sh : Shared} {env : Env} {t : Tables} {peer p : PeerRuntime}
    {m m' : Message} (h : Emits sh env t peer m p m') :
    (∃ target, PassesOn sh m target ∧ m.minTtl ≤ m.ttl.toNat ∧ nextHop sh target = some p ∧
      m' = m.withTtl (m.ttl - 1)) ∨ m'.isReply = true := by
  cases h with
  | granted | acknowledged | ponged | published => exact Or.inr rfl
  | relayed hpass henough hp => exact Or.inl ⟨_, hpass, henough, hp, rfl⟩

theorem Message.isReply_withTtl (m : Message) (ttl : UInt8) :
    (m.withTtl ttl).isReply = m.isReply := by
  cases m <;> rfl

theorem Emits.isReply {sh : Shared} {env : Env} {t : Tables} {peer p : PeerRuntime}
    {m m' : Message} (h : Emits sh env t peer m p m') (hm : m.isReply = true) :
    m'.isReply = true := by
  rcases h.relayed_or_reply with ⟨_, _, _, _, rfl⟩ | hreply
  · rw [Message.isReply_withTtl]
    exact hm
  · exact hreply

/-- A call that sends `m`, its ttl `j` lower, from the `j`-th node of its path,
no node on the way having the stealth it is for. -/
structure OnPath (net : Net ι) (s : State C ι) (target : String) (m : Message) (a₀ : ι)
    (j : Nat) (call : SendCall C) : Prop where
  sender : ∃ a sh p ttl, walk (hop net s target) j a₀ = some a ∧ s.Runs a sh ∧
    nextHop sh target = some p ∧ call.To sh p (m.withTtl ttl) ∧ ttl.toNat + j = m.ttl.toNat
  enough : m.minTtl + j ≤ m.ttl.toNat + 1
  passed : ∀ i, 1 ≤ i → i ≤ j → ∀ b sh, walk (hop net s target) i a₀ = some b → s.Runs b sh →
    sh.localStealth ≠ target

omit [DecidableEq ι] in
/-- Passed on by the node it is delivered to, a call is followed by the next
one on the path. -/
theorem OnPath.next {s₀ : State C ι} {target : String} {m : Message} {a₀ i : ι} {j : Nat}
    {call call' : SendCall C} (h : OnPath net s₀ target m a₀ j call)
    (htarget : m.relayTarget = some target)
    (hwalk : walk (hop net s₀ target) (j + 1) a₀ = some i) {sh : Shared} (hi : s₀.Runs i sh)
    {ttl : UInt8} (hsum : ttl.toNat + j = m.ttl.toNat) {target' : String} {p : PeerRuntime}
    (hpass : PassesOn sh (m.withTtl ttl) target') (henough : m.minTtl ≤ ttl.toNat)
    (hp : nextHop sh target' = some p) (hto : call'.To sh p (m.withTtl (ttl - 1))) :
    OnPath net s₀ target m a₀ (j + 1) call' := by
  have haddr := hpass.addressed
  rw [Message.relayTarget_withTtl, htarget] at haddr
  obtain rfl := Option.some.inj haddr
  have hsub := toNat_sub_one (Message.ne_zero_of_minTtl henough)
  refine ⟨⟨i, sh, p, ttl - 1, hwalk, hi, hp, hto, by omega⟩, by omega, ?_⟩
  intro i' h1 hi' b shb hb hshb
  rcases Nat.lt_or_ge i' (j + 1) with hlt | hge
  · exact h.passed i' h1 (by omega) b shb hb hshb
  · -- the node itself does not have the stealth, since it passes the message on
    obtain rfl : i' = j + 1 := by omega
    obtain rfl := Option.some.inj (hwalk.symm.trans hb)
    obtain rfl := Option.some.inj (hi.symm.trans hshb)
    exact hpass.other.symm

/-- A call on the path is delivered to the next node of it. -/
theorem OnPath.dispatched (hb : C.BincodeRoundTrips) (ha : C.IdealAead) (hk : C.KeyAgreement)
    {s₀ s s' : State C ι} {pre mid : List (Label C ι)} (hrun : net.Run pre s₀)
    (hpeers : MutualPeers C net s₀) {target : String} {m : Message} {a₀ : ι} {j : Nat}
    {f : Flight C} (h : OnPath net s₀ target m a₀ j f.datagram.call)
    (hexec : Lib.Exec (Step net) s₀ mid s) {i : ι} {keep : Bool} {env : Env} {did : Activity C}
    (hstep : Step net s (.deliver i f keep env did) s') :
    ∃ (sh : Shared) (rt : Runtime) (q : PeerRuntime), s₀.Runs i sh ∧
      walk (hop net s₀ target) (j + 1) a₀ = some i ∧
      ∃ ttl, did = ⟨some (q, m.withTtl ttl), none,
        (dispatch C sh env rt.tables q (m.withTtl ttl)).effects⟩ ∧
        ttl.toNat + j = m.ttl.toNat := by
  obtain ⟨a, sha, p, ttl, hwalk, hsha, hp, hto, hsum⟩ := h.sender
  obtain ⟨id, hpeer⟩ := nextHop_peer hp
  obtain ⟨b, hhost, hknows⟩ := hpeers.link hk hrun hsha hpeer
  have hi := hstep.received_of_deliver.2.1
  rw [hto.addr] at hi
  obtain rfl : i = b := Option.some.inj (hi.symm.trans hhost)
  obtain ⟨sh, rt, q, hrun', hdid⟩ :=
    State.dispatches hb ha (State.knows_later hexec hknows) hto hstep
  obtain ⟨sh₀, -, hsh₀, -⟩ := State.knows_iff.mp hknows
  obtain rfl := Option.some.inj ((exec_shared hexec hsh₀).symm.trans hrun')
  refine ⟨sh₀, rt, q, hsh₀, ?_, ttl, hdid, hsum⟩
  rw [Lib.walk_succ_right, hwalk, Option.bind_some, hop_eq hsha, hp]
  exact hhost

section

variable {s₀ s s' : State C ι} {pre mid : List (Label C ι)} {target : String} {m : Message}
  {a₀ : ι} {n : Nat}

/-- A node that receives the message on its path passes it on along the path,
or replies. -/
theorem onPath_of_step (hb : C.BincodeRoundTrips) (ha : C.IdealAead) (hk : C.KeyAgreement)
    (hrun : net.Run pre s₀) (hpeers : MutualPeers C net s₀) (htarget : m.relayTarget = some target)
    (hexec : Lib.Exec (Step net) s₀ mid s) {i : ι} {f : Flight C} {keep : Bool} {env : Env}
    {did : Activity C} (hstep : Step net s (.deliver i f keep env did) s')
    (hf : (∃ j, OnPath net s₀ target m a₀ j f.datagram.call) ∨ f.msg.isReply = true)
    {d : Datagram C} (hd : Effect.udpSend d ∈ did.effects) :
    (∃ j, OnPath net s₀ target m a₀ j d.call) ∨ d.call.msg.isReply = true := by
  rcases hf with ⟨j, hpath⟩ | hreply
  · obtain ⟨sh, rt, q, hi, hwalk', ttl, rfl, hsum⟩ := hpath.dispatched hb ha hk hrun hpeers hexec hstep
    obtain ⟨p', hemit, hto'⟩ := (dispatch_handled _).of_udpSend hd
    rcases hemit.relayed_or_reply with ⟨target', hpass, hmin, hp', hmsg⟩ | hreply
    · rw [Message.minTtl_withTtl, Message.ttl_withTtl htarget] at hmin
      rw [Message.withTtl_withTtl, Message.ttl_withTtl htarget] at hmsg
      rw [hmsg] at hto'
      exact Or.inl ⟨j + 1, hpath.next htarget hwalk' hi hsum hpass hmin hp' hto'⟩
    · exact Or.inr hreply
  · -- a reply is passed on at most
    obtain ⟨-, -, hrec⟩ := hstep.received_of_deliver
    obtain ⟨sh, rt, peer, m', q, -, hopen, -, hemit, -⟩ :=
      hrec.called (hrec.encrypted_of_udpSend hd)
    obtain ⟨-, -, rfl⟩ := (openDatagram_datagram hb ha _).mp hopen
    exact Or.inr (hemit.isReply hreply)

/-- Right after a node has sent the message, what descends from this step is
the message on its way to the first hop. -/
theorem onPath_start (hrun : net.Run pre s) {l : Label C ι} (hstep : Step net s l s')
    {did : Activity C} (hdoes : l.Does a₀ did) {sh : Shared} (hsh : s₀.Runs a₀ sh)
    {result : Except String Unit}
    (hspec : Sent.Spec (fun call => ∃ p, nextHop sh target = some p ∧ call.To sh p m)
      ⟨result, did.effects⟩)
    (henough : m.minTtl ≤ m.ttl.toNat + 1) {f : Flight C} (hf : f ∈ s'.inflight)
    (hn : s.clock ∈ f.trail) : OnPath net s₀ target m a₀ 0 f.datagram.call := by
  obtain ⟨p, hp, hto⟩ := (hspec.of_udpSend (hstep.udpSend_of_mem hrun hdoes hf hn)).1
  refine ⟨⟨a₀, sh, p, m.ttl, rfl, hsh, hp, ?_, rfl⟩, henough, fun i h1 h0 => ?_⟩
  · rw [Message.withTtl_ttl]
    exact hto
  · omega

/-- What is dispatched, descends from the message and is no reply, is the
message at the end of its path so far. -/
theorem delivered_onPath (hb : C.BincodeRoundTrips) (ha : C.IdealAead) (hk : C.KeyAgreement)
    (hrun : net.Run pre s₀) (hpeers : MutualPeers C net s₀) (htarget : m.relayTarget = some target)
    (hexec : Lib.Exec (Step net) s₀ mid s) {post : List (Label C ι)}
    (hpost : Lib.Exec (Step net) s post s') (hclock : n < s.clock)
    (h₀ : ∀ f ∈ s.inflight, n ∈ f.trail → OnPath net s₀ target m a₀ 0 f.datagram.call) {D : ι}
    {shD : Shared} (hD : s₀.Runs D shD) {m' : Message} (hdel : Delivered s₀ post n D m')
    (hreply : m'.isReply = false) :
    ∃ k ttl', m' = m.withTtl ttl' ∧ ttl'.toNat + k = m.ttl.toNat ∧
      m.minTtl + k ≤ m.ttl.toNat + 1 ∧
      (shD.localStealth = target → FirstArrival (hop net s₀ target) a₀ D (k + 1)) := by
  obtain ⟨g, keep, env, did, sh, rt, q, hmem, hgn, -, hdid⟩ := hdel
  obtain ⟨tr₁, tr₂, rfl⟩ := List.append_of_mem hmem
  obtain ⟨s₁, s₂, h₁, hstep, -⟩ := hpost.split_cons
  have hP := exec_descendants
    (P := fun f => (∃ j, OnPath net s₀ target m a₀ j f.datagram.call) ∨ f.msg.isReply = true)
    h₁ hclock (fun f hf hn => Or.inl ⟨0, h₀ f hf hn⟩)
    (fun tr₁ s₁ s₂ i f keep env did d h₁ hstep hf hd =>
      onPath_of_step hb ha hk hrun hpeers htarget (hexec.append h₁) hstep hf hd)
    g hstep.received_of_deliver.1 hgn
  rcases hP with ⟨j, hpath⟩ | hg
  · obtain ⟨sh', rt', q', hi, hwalk, ttl, hdid', hsum⟩ :=
      hpath.dispatched hb ha hk hrun hpeers (hexec.append h₁) hstep
    rw [hdid'] at hdid
    have hdispatched := congrArg Activity.dispatched hdid
    obtain ⟨-, rfl⟩ := Prod.mk.inj (Option.some.inj hdispatched)
    -- no node before `D` on the path has the stealth, since it was passed on there
    refine ⟨j, ttl, rfl, hsum, hpath.enough, fun hstealth => ⟨by omega, hwalk, ?_⟩⟩
    intro i h1 hlt hwalk'
    exact hpath.passed i h1 (by omega) D shD hwalk' hD hstealth
  · obtain ⟨-, -, hrec⟩ := hstep.received_of_deliver
    obtain ⟨peers, hopen⟩ := hrec.opened (by rw [hdid])
    obtain ⟨-, -, rfl⟩ := (openDatagram_datagram hb ha _).mp hopen
    rw [show g.datagram.call.msg = g.msg from rfl, hg] at hreply
    cases hreply

end

/-! ## §5. From one step of a run. -/

/-- Step `n` of a run from `s₀` to `s` is `l`, and `post` follows. -/
structure Happens (net : Net ι) (s₀ s₁ s₂ s : State C ι) (l : Label C ι) (n : Nat)
    (post : List (Label C ι)) : Prop where
  before : ∃ mid, Lib.Exec (Step net) s₀ mid s₁
  clock : s₁.clock = n
  step : Step net s₁ l s₂
  after : Lib.Exec (Step net) s₂ post s

/-- A move with a label of the given kind, then moves that lose nothing and
leave nothing in flight. -/
def Sim.completes (net : Net ι) (env : Nat → Env) (s : Sim C ι) (move : Move ι)
    (check : Label C ι → Bool) (moves : List (Move ι)) : Bool :=
  (s.step net env move).any fun r => check r.1 && (r.2.run net env moves).any fun r' =>
    decide (LossFree r'.1) && r'.2.inflight.isEmpty

theorem Sim.exists_completes {env : Nat → Env} {s₀ : State C ι} {s : Sim C ι} {move : Move ι}
    {check : Label C ι → Bool} {moves : List (Move ι)}
    (hbefore : ∃ mid, Lib.Exec (Step net) s₀ mid s.state)
    (h : s.completes net env move check moves = true) :
    ∃ (l : Label C ι) (s₂ : Sim C ι) (post : List (Label C ι)) (s' : Sim C ι),
      s.step net env move = some (l, s₂) ∧ check l = true ∧
      Happens net s₀ s.state s₂.state s'.state l s.clock post ∧ Completes s.clock post s'.state := by
  obtain ⟨⟨l, s₂⟩, hstep, h⟩ := (Option.any_eq_true _ _).mp h
  obtain ⟨hcheck, h⟩ := Bool.and_eq_true_iff.mp h
  obtain ⟨⟨post, s'⟩, hrun, h⟩ := (Option.any_eq_true _ _).mp h
  obtain ⟨hloss, hempty⟩ := Bool.and_eq_true_iff.mp h
  refine ⟨l, s₂, post, s', hstep, hcheck, ⟨hbefore, rfl, step_sound hstep, run_sound hrun⟩,
    .of_lossFree (of_decide_eq_true hloss) ?_⟩
  exact congrArg Multiset.ofList (List.isEmpty_iff.mp hempty)

section

variable {s₀ s₁ s₂ s : State C ι} {l : Label C ι} {n : Nat} {pre post : List (Label C ι)}
  {m : Message} {target : String} {a₀ D : ι} {sh₀ : Shared} {env : Env} {did : Activity C}

theorem Happens.run (h : Happens net s₀ s₁ s₂ s l n post) (hrun : net.Run pre s₀) :
    (∃ tr, net.Run tr s₁) ∧ ∃ tr, Lib.Exec (Step net) s₀ tr s₂ := by
  obtain ⟨mid, hmid⟩ := h.before
  exact ⟨⟨_, hrun.append hmid⟩, ⟨_, hmid.snoc h.step⟩⟩

theorem Happens.clock_lt (h : Happens net s₀ s₁ s₂ s l n post) : n < s₂.clock := by
  rw [h.step.clock, h.clock]
  exact Nat.lt_succ_self n

/-- What descends from a step right after it, the step sent. -/
theorem Happens.udpSend_of_mem (h : Happens net s₀ s₁ s₂ s l n post) (hrun : net.Run pre s₀)
    (hdoes : l.Does a₀ did) {f : Flight C} (hf : f ∈ s₂.inflight) (hn : n ∈ f.trail) :
    Effect.udpSend f.datagram ∈ did.effects := by
  obtain ⟨⟨_, hrun₁⟩, -⟩ := h.run hrun
  rw [← h.clock] at hn
  exact h.step.udpSend_of_mem hrun₁ hdoes hf hn

/-- Nothing descends from a step that sends nothing. -/
theorem Happens.silent (h : Happens net s₀ s₁ s₂ s l n post) (hrun : net.Run pre s₀)
    (hdoes : l.Does a₀ did) (heff : did.effects = []) {i : ι} {g : Flight C} {keep : Bool}
    {env' : Env} {did' : Activity C} (hmem : Label.deliver i g keep env' did' ∈ post) :
    n ∉ g.trail := by
  intro hgn
  obtain ⟨tr₁, tr₂, rfl⟩ := List.append_of_mem hmem
  obtain ⟨t₁, t₂, h₁, hstep, -⟩ := h.after.split_cons
  -- nothing descends at first, and what descends later descends from something
  refine exec_descendants (P := fun _ => False) h₁ h.clock_lt ?_ ?_ g hstep.received_of_deliver.1 hgn
  · intro f hf hn
    have hu := h.udpSend_of_mem hrun hdoes hf hn
    rw [heff] at hu
    cases hu
  · intro _ _ _ _ _ _ _ _ _ _ _ hfalse _
    exact hfalse

/-- A message sent towards a stealth arrives at the first node on its path
that does not pass it on. -/
theorem message_arrives (hb : C.BincodeRoundTrips) (ha : C.IdealAead) (hC : C.Total)
    (hhap : Happens net s₀ s₁ s₂ s l n post) (hcomp : Completes n post s)
    (hdoes : l.Does a₀ did) (hsh : s₀.Runs a₀ sh₀) (henv : env.socketAccepts = true)
    (heff : did.effects = (forwardByStealth C sh₀ env target m).effects)
    (hpass : ∀ b sh, s₀.Runs b sh → b ≠ D → PassesOn sh m target) {k : Nat}
    (henough : m.minTtl + k ≤ m.ttl.toNat + 1)
    (harr : FirstArrival (link net s₀ target) a₀ D (k + 1)) :
    ∃ ttl', Delivered s₀ post n D (m.withTtl ttl') ∧ ttl'.toNat + k = m.ttl.toNat := by
  obtain ⟨mid, hmid⟩ := hhap.before
  obtain ⟨b, hb'⟩ := harr.exists_next
  obtain ⟨sh, p, hsh', hp, -⟩ := link_eq_some_iff.mp hb'
  obtain rfl := Option.some.inj (hsh.symm.trans hsh')
  obtain ⟨d, hd, hforward⟩ := forwardByStealth_ok hC sh₀ env henv hp m
  have hsent : Effect.udpSend d ∈ did.effects := by
    rw [heff, hforward]
    simp
  rw [← Message.withTtl_ttl m] at hd
  refine travels hb ha hC hpass (hmid.snoc hhap.step) hhap.after hcomp harr hsh hp
    (hhap.step.mem_inflight hdoes hsent) ?_ hd henough
  rw [← hhap.clock]
  exact l.clock_mem_trail _

/-- Conversely, a dispatched descendant that is no reply is the message, and
its path led there. -/
theorem message_path (hb : C.BincodeRoundTrips) (ha : C.IdealAead) (hk : C.KeyAgreement)
    (hrun : net.Run pre s₀) (hpeers : MutualPeers C net s₀)
    (hhap : Happens net s₀ s₁ s₂ s l n post) (hdoes : l.Does a₀ did) (hsh : s₀.Runs a₀ sh₀)
    (heff : did.effects = (forwardByStealth C sh₀ env target m).effects)
    (htarget : m.relayTarget = some target) (hmin : m.minTtl ≤ m.ttl.toNat + 1) {shD : Shared}
    (hD : s₀.Runs D shD) {m' : Message} (hdel : Delivered s₀ post n D m')
    (hreply : m'.isReply = false) :
    ∃ k ttl', m' = m.withTtl ttl' ∧ ttl'.toNat + k = m.ttl.toNat ∧
      m.minTtl + k ≤ m.ttl.toNat + 1 ∧
      (shD.localStealth = target → FirstArrival (hop net s₀ target) a₀ D (k + 1)) := by
  obtain ⟨⟨tr₁, hrun₁⟩, tr, hexec⟩ := hhap.run hrun
  have hspec : Sent.Spec (fun call => ∃ p, nextHop sh₀ target = some p ∧ call.To sh₀ p m)
      ⟨(forwardByStealth C sh₀ env target m).result, did.effects⟩ := by
    rw [heff]
    exact forwardByStealth_spec sh₀ env target m
  refine delivered_onPath hb ha hk hrun hpeers htarget hexec hhap.after hhap.clock_lt
    (fun f hf hn => ?_) hD hdel hreply
  rw [← hhap.clock] at hn
  exact onPath_start hrun₁ hhap.step hdoes hsh hspec hmin hf hn

end

end StealthNet
