/-
  StealthNet.Daemon.Transparency
  ──────────────────────────────
  RELAYS ARE TRANSPARENT.

  A node that passes a message on (`PassesOn`) is not part of the
  conversation: none of its maps change, nothing reaches its TUN and nobody
  at the node is answered.  All it does is send the message on, with a ttl
  one lower, to the peer `forward_by_stealth` finds, and it sends nothing
  where the ttl does not suffice or no peer is found.

  `Relayed` is this law, `handleDatagram_relayed` that the handler obeys it,
  for the six kinds of addressed message at once.
-/
import StealthNet.Daemon.Bootstrap
import StealthNet.Daemon.Relay
import StealthNet.Lib.Except
import StealthNet.Ideal

namespace StealthNet

variable {C : Crates}

/-! ## §1. The law. -/

/-- What a relay does with a message `m` for the stealth `target`. -/
structure Relayed (sh : Shared) (env : Env) (t : Tables) (m : Message) (target : String)
    (o : Outcome C) : Prop where
  tables : o.tables = t
  tun : tunWrites o.effects = []
  replies : ∀ κ tx payload, Effect.reply κ tx payload ∉ o.effects
  forwarded : ∀ p, env.socketAccepts = true → m.minTtl ≤ m.ttl.toNat →
    nextHop sh target = some p → ∃ (d : Datagram C) (m' : Message),
      datagrams o.effects = [d] ∧ d.call.To sh p m' ∧
      m'.ttl.toNat + 1 = m.ttl.toNat ∧ m'.withTtl m.ttl = m
  silent : m.ttl.toNat < m.minTtl ∨ nextHop sh target = none → datagrams o.effects = []

section

variable {sh : Shared} {env : Env} {t : Tables} {m : Message} {target : String}

/-- The message a relay sends differs from the one it received in the ttl
alone, which is one lower. -/
theorem PassesOn.lowered (h : PassesOn sh m target) (henough : m.minTtl ≤ m.ttl.toNat) :
    (m.withTtl (m.ttl - 1)).ttl.toNat + 1 = m.ttl.toNat ∧
      (m.withTtl (m.ttl - 1)).withTtl m.ttl = m := by
  constructor
  · rw [Message.ttl_withTtl h.addressed]
    exact toNat_sub_one (Message.ne_zero_of_minTtl henough)
  · rw [Message.withTtl_withTtl, Message.withTtl_ttl]

/-- Without enough ttl a relay does nothing. -/
theorem Relayed.done (hlow : ¬ m.minTtl ≤ m.ttl.toNat) :
    Relayed sh env t m target (.done t : Outcome C) where
  tables := rfl
  tun := rfl
  replies _ _ _ := List.not_mem_nil
  forwarded _ _ henough := absurd henough hlow
  silent _ := rfl

/-- With enough ttl it forwards. -/
theorem Relayed.ofSent (hC : C.Total) (h : PassesOn sh m target)
    (henough : m.minTtl ≤ m.ttl.toNat) :
    Relayed sh env t m target
      (.ofSent t (forwardByStealth C sh env target (m.withTtl (m.ttl - 1)))) := by
  have hspec := forwardByStealth_spec (C := C) sh env target (m.withTtl (m.ttl - 1))
  refine ⟨rfl, hspec.tunWrites_eq, fun _ _ _ => hspec.not_reply, ?_, ?_⟩
  · intro p haccepts _ hp
    obtain ⟨d, hto, hsent⟩ := forwardByStealth_ok hC sh env haccepts hp (m.withTtl (m.ttl - 1))
    refine ⟨d, _, ?_, hto, h.lowered henough⟩
    rw [hsent]
    rfl
  · intro hsilent
    rcases hsilent with hlow | hnone
    · omega
    · -- the next hop is looked up before anything is encrypted
      obtain ⟨e, he⟩ := forwardByStealth_none (C := C) sh env hnone (m.withTtl (m.ttl - 1))
      rw [he]
      rfl

/-! ## §2. The handler obeys it. -/

/-- A node that an authenticated message is not for relays it. -/
theorem handleDatagram_relayed (hC : C.Total) (sh : Shared) (env : Env) (t : Tables)
    {packet : Bytes} {peer : PeerRuntime}
    (hopen : openDatagram C sh.peersById packet = .ok (peer, m)) (h : PassesOn sh m target) :
    Relayed sh env t m target (handleDatagram C sh env t packet) := by
  unfold handleDatagram
  rw [hopen]
  show Relayed sh env t m target (dispatch C sh env t peer m)
  -- the relay law, which leaves the two cases of the ttl
  rw [dispatch_relay sh env t peer h]
  split
  · rename_i henough
    exact .ofSent hC h henough
  · rename_i hlow
    exact .done hlow

end

namespace Line

/-- A ping of the first node for the last. -/
def ping : PingReq :=
  { requestId := 7
    srcStealth := stealth 0
    targetStealth := stealth 2
    ttl := 16
    timestampMs := 0
    optionalInnerIp := none }

/-- The middle node has it from the first and a next hop for it.
Evaluated at once. -/
theorem ping_computed :
    (GatewayDaemon.new Crates.ideal (Env.at 0) (identity 1) (config 1) []).toOption.any (fun sh =>
      decide ((openDatagram Crates.ideal sh.peersById (datagram 0 1 (.pingReq ping))).toOption.any
        (fun opened => opened.2 = .pingReq ping)) &&
      decide (sh.localStealth = stealth 1) && (nextHop sh (stealth 2)).isSome) = true := by
  decide +kernel

/-- The middle node relays it to the last. -/
theorem ping_relayed :
    ∃ sh d, GatewayDaemon.new Crates.ideal (Env.at 0) (identity 1) (config 1) [] = .ok sh ∧
      (handleDatagram Crates.ideal sh (Env.at 1) .init
        (datagram 0 1 (.pingReq ping))).tables = .init ∧
      datagrams (handleDatagram Crates.ideal sh (Env.at 1) .init
        (datagram 0 1 (.pingReq ping))).effects = [d] ∧
      d.call.msg = .pingReq { ping with ttl := 15 } := by
  obtain ⟨sh, hnew, hcheck⟩ := (Option.any_eq_true _ _).mp ping_computed
  simp only [Bool.and_eq_true, decide_eq_true_eq] at hcheck
  obtain ⟨⟨hopen, hlocal⟩, hhop⟩ := hcheck
  obtain ⟨⟨peer, m⟩, hopen, hm⟩ := (Option.any_eq_true _ _).mp hopen
  obtain rfl : m = .pingReq ping := of_decide_eq_true hm
  obtain ⟨p, hp⟩ := Option.isSome_iff_exists.mp hhop
  have hpass : PassesOn sh (.pingReq ping) (stealth 2) := by
    refine ⟨rfl, ?_, by simp⟩
    rw [hlocal]
    decide
  have hrelayed := handleDatagram_relayed Crates.total_ideal sh (Env.at 1) .init
    (Lib.Except.toOption_eq_some_iff.mp hopen) hpass
  obtain ⟨d, m', hd, hto, httl, hsame⟩ := hrelayed.forwarded p rfl (by decide) hp
  refine ⟨sh, d, Lib.Except.toOption_eq_some_iff.mp hnew, hrelayed.tables, hd, ?_⟩
  rw [hto.msg, ← m'.withTtl_ttl]
  have hlower : m'.ttl = 15 := by
    have : (Message.pingReq ping).ttl.toNat = 16 := rfl
    apply UInt8.toNat_inj.mp
    rw [show (15 : UInt8).toNat = 15 from rfl]
    omega
  rw [hlower]
  have := congrArg (Message.withTtl 15) hsame
  rw [Message.withTtl_withTtl] at this
  exact this

end Line

end StealthNet
