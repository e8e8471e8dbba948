/-
  StealthNet.Daemon.Deciding
  ──────────────────────────
  WHICH DATAGRAM DECIDES A BOOTSTRAP.

  The receive loop of a client ends with the first datagram that decides it
  (`Decides`): one that does not decrypt, or an authentic one that is
  malformed, an error, or the awaited response.

    • `performClientBootstrap_eq`  — the bootstrap by its first decider;
    • `bootstrap_with_junk`        — when datagrams that do not authenticate
                                     leave the end of a bootstrap as it was;
    • `bootstrap_by_home`          — when the home gateway alone decides it.

  Neither holds of every stream: an undecryptable datagram ends the bootstrap
  where every other failed check ignores the datagram, and the response is
  matched by its request id, whichever peer it is from.
-/
import StealthNet.Daemon.Opening
import StealthNet.Ideal
import StealthNet.Lib.Stream

namespace StealthNet

open Lib (HashMap)
open Lib.Stream

variable {C : Crates} {peersById : HashMap String PeerRuntime} {config : Config}
  {requestId : UInt64} {packet : Bytes}

/-! ## §1. Deciding datagrams. -/

/-- Not decryptable under the key of the peer it names. -/
def Undecryptable (C : Crates) (peersById : HashMap String PeerRuntime) (packet : Bytes) : Prop :=
  ∃ senderId, inspect C peersById packet = .undecryptable senderId

/-- Authenticated by the peer with an id, with a message. -/
def AuthenticFrom (C : Crates) (peersById : HashMap String PeerRuntime) (packet : Bytes)
    (senderId : String) (msg : Except String Message) : Prop :=
  ∃ peer plaintext, inspect C peersById packet = .authentic senderId peer plaintext ∧
    C.deserializeMessage plaintext = msg

/-- A message that ends the wait for a response. -/
def Message.endsBootstrap (requestId : UInt64) : Except String Message → Prop
  | .ok (.bootstrapResp resp) => resp.requestId = requestId
  | .ok (.error _) => True
  | .ok _ => False
  | .error _ => True

/-- The datagram ends the wait, with a response or with an error. -/
def Decides (C : Crates) (peersById : HashMap String PeerRuntime) (requestId : UInt64)
    (packet : Bytes) : Prop :=
  Undecryptable C peersById packet ∨
    ∃ senderId msg, AuthenticFrom C peersById packet senderId msg ∧
      Message.endsBootstrap requestId msg

/-- The verdict of the decoder, `none` being to go on waiting. -/
def verdict (C : Crates) (config : Config) (peersById : HashMap String PeerRuntime)
    (requestId : UInt64) (packet : Bytes) : Option (Except String BootstrapResp) :=
  match decodeBootstrapResponse C config peersById packet requestId with
  | .error e => some (.error e)
  | .ok (some resp) => some (.ok resp)
  | .ok none => none

/-- The verdict on an authentic message. -/
def Message.judge (requestId : UInt64) :
    Except String Message → Option (Except String BootstrapResp)
  | .error e => some (.error e)
  | .ok (.bootstrapResp resp) => if resp.requestId = requestId then some (.ok resp) else none
  | .ok (.error err) => some (.error s!"bootstrap error: {err.message}")
  | .ok _ => none

theorem Message.judge_isSome {msg : Except String Message} :
    (judge requestId msg).isSome = true ↔ endsBootstrap requestId msg := by
  rcases msg with e | m
  · simp [judge, endsBootstrap]
  · cases m with
    | bootstrapResp resp =>
        simp only [judge, endsBootstrap]
        split <;> simp_all
    | _ => simp [judge, endsBootstrap]

theorem Message.judge_eq_some_ok {msg : Except String Message} {resp : BootstrapResp}
    (h : judge requestId msg = some (.ok resp)) :
    msg = .ok (.bootstrapResp resp) ∧ resp.requestId = requestId := by
  rcases msg with e | m
  · simp [judge] at h
  · cases m with
    | bootstrapResp resp' =>
        simp only [judge] at h
        split at h
        · rename_i hid
          obtain rfl := Except.ok.inj (Option.some.inj h)
          exact ⟨rfl, hid⟩
        · simp at h
    | _ => simp [judge] at h

theorem verdict_of_undecryptable (h : Undecryptable C peersById packet) :
    verdict C config peersById requestId packet = some (.error "decryption failed") := by
  obtain ⟨senderId, h⟩ := h
  simp only [verdict, decodeBootstrapResponse_eq, h]

theorem verdict_of_authentic {senderId : String} {msg : Except String Message}
    (h : AuthenticFrom C peersById packet senderId msg) :
    verdict C config peersById requestId packet = Message.judge requestId msg := by
  obtain ⟨peer, plaintext, hi, rfl⟩ := h
  simp only [verdict, decodeBootstrapResponse_eq, hi]
  cases C.deserializeMessage plaintext with
  | error e => rfl
  | ok m =>
      cases m with
      | bootstrapResp resp =>
          by_cases hid : resp.requestId = requestId
          · simp only [hid, if_true, Message.judge]
          · simp only [hid, if_false, Message.judge]
      | _ => rfl

theorem verdict_eq_none (hu : ¬ Undecryptable C peersById packet)
    (ha : ∀ senderId msg, ¬ AuthenticFrom C peersById packet senderId msg) :
    verdict C config peersById requestId packet = none := by
  simp only [verdict, decodeBootstrapResponse_eq]
  cases hi : inspect C peersById packet with
  | notAFrame | badMagic | badVersion | unknownSender => rfl
  | undecryptable senderId => exact absurd ⟨senderId, hi⟩ hu
  | authentic senderId peer plaintext => exact absurd ⟨peer, plaintext, hi, rfl⟩ (ha senderId _)

theorem verdict_isSome :
    (verdict C config peersById requestId packet).isSome = true
      ↔ Decides C peersById requestId packet := by
  by_cases hu : Undecryptable C peersById packet
  · rw [verdict_of_undecryptable hu]
    exact ⟨fun _ => Or.inl hu, fun _ => rfl⟩
  · by_cases ha : ∃ senderId msg, AuthenticFrom C peersById packet senderId msg
    · obtain ⟨senderId, msg, ha⟩ := ha
      rw [verdict_of_authentic ha, Message.judge_isSome]
      constructor
      · exact fun h => Or.inr ⟨senderId, msg, ha, h⟩
      · rintro (h | ⟨senderId', msg', ha', h⟩)
        · exact absurd h hu
        · -- one datagram has one sender and one message
          obtain ⟨peer, plaintext, hi, rfl⟩ := ha
          obtain ⟨peer', plaintext', hi', rfl⟩ := ha'
          obtain ⟨rfl, rfl, rfl⟩ := Inspection.authentic.inj (hi.symm.trans hi')
          exact h
    · have ha : ∀ senderId msg, ¬ AuthenticFrom C peersById packet senderId msg :=
        fun senderId msg h => ha ⟨senderId, msg, h⟩
      rw [verdict_eq_none hu ha]
      constructor
      · simp
      · rintro (h | ⟨senderId, msg, h, -⟩)
        · exact absurd h hu
        · exact absurd h (ha senderId msg)

/-- A datagram that is accepted as the awaited response. -/
def Responds (C : Crates) (peersById : HashMap String PeerRuntime) (requestId : UInt64)
    (packet : Bytes) (senderId : String) (resp : BootstrapResp) : Prop :=
  AuthenticFrom C peersById packet senderId (.ok (.bootstrapResp resp)) ∧
    resp.requestId = requestId

theorem verdict_eq_some_ok {resp : BootstrapResp} :
    verdict C config peersById requestId packet = some (.ok resp)
      ↔ ∃ senderId, Responds C peersById requestId packet senderId resp := by
  constructor
  · intro h
    rcases verdict_isSome.mp (by rw [h]; rfl) with hu | ⟨senderId, msg, ha, -⟩
    · rw [verdict_of_undecryptable hu] at h
      simp at h
    · refine ⟨senderId, ?_⟩
      rw [verdict_of_authentic ha] at h
      obtain ⟨rfl, hid⟩ := Message.judge_eq_some_ok h
      exact ⟨ha, hid⟩
  · rintro ⟨senderId, ha, hid⟩
    rw [verdict_of_authentic ha]
    exact if_pos hid

/-! ## §2. The bootstrap by its first decider. -/

theorem receiveBootstrapResponse_eq (received : List Bytes) :
    receiveBootstrapResponse C config peersById requestId received
      = (received.findSome? (verdict C config peersById requestId)).getD
          (.error "bootstrap receive failed") := by
  induction received with
  | nil => rfl
  | cons packet rest ih =>
      rw [receiveBootstrapResponse, List.findSome?_cons]
      unfold verdict
      cases decodeBootstrapResponse C config peersById packet requestId with
      | error e => rfl
      | ok resp =>
          cases resp with
          | some resp => rfl
          | none => exact ih

/-- The end of a bootstrap, by the decision. -/
def conclude (config : Config) (effects : List (Effect C)) :
    Option (Except String BootstrapResp) → BootstrapOutcome C
  | none => ⟨.error "bootstrap receive failed", config, effects⟩
  | some (.error e) => ⟨.error e, config, effects⟩
  | some (.ok resp) =>
      ⟨(concludeBootstrap config resp).1, (concludeBootstrap config resp).2, effects⟩

theorem performClientBootstrap_eq {env : Env} {effects : List (Effect C)}
    (hstart : startBootstrap C env config peersById = (.ok requestId, effects))
    (received : List Bytes) :
    performClientBootstrap C env config peersById received
      = conclude config effects
          (received.findSome? (verdict C config peersById requestId)) := by
  simp only [performClientBootstrap, hstart, receiveBootstrapResponse_eq]
  cases received.findSome? (verdict C config peersById requestId) with
  | none => rfl
  | some decision =>
      cases decision with
      | error e => rfl
      | ok resp => rfl

/-- A bootstrap that does not start ignores what it would receive. -/
theorem performClientBootstrap_of_error {env : Env} {e : String} {effects : List (Effect C)}
    (hstart : startBootstrap C env config peersById = (.error e, effects))
    (received : List Bytes) :
    performClientBootstrap C env config peersById received = ⟨.error e, config, effects⟩ := by
  simp only [performClientBootstrap, hstart]

theorem conclude_eq_ok_iff (config : Config) (effects : List (Effect C))
    (decision : Option (Except String BootstrapResp)) :
    (conclude config effects decision).result = .ok ()
      ↔ ∃ resp, decision = some (.ok resp) ∧ resp.ok = true := by
  cases decision with
  | none => simp [conclude]
  | some decision =>
      cases decision with
      | error e => simp [conclude]
      | ok resp =>
          simp only [conclude, concludeBootstrap, Option.some.injEq, Except.ok.injEq,
            exists_eq_left']
          split <;> simp_all

theorem conclude_config_of_error {effects : List (Effect C)}
    {decision : Option (Except String BootstrapResp)}
    (h : (conclude config effects decision).result ≠ .ok ()) :
    (conclude config effects decision).config = config := by
  cases decision with
  | none => rfl
  | some decision =>
      cases decision with
      | error e => rfl
      | ok resp =>
          simp only [conclude, concludeBootstrap] at h ⊢
          split at h
          · exact absurd rfl h
          · rename_i hok
            rw [if_neg hok]

/-- The bootstrap accepts a response exactly if its first decider is one. -/
theorem findSome?_verdict_eq_ok_iff (config : Config) {received : List Bytes} {resp : BootstrapResp} :
    received.findSome? (verdict C config peersById requestId) = some (.ok resp)
      ↔ ∃ packet senderId, FirstAt (Decides C peersById requestId) received packet ∧
          Responds C peersById requestId packet senderId resp := by
  rw [findSome?_eq_some_iff_firstAt]
  simp only [verdict_isSome, verdict_eq_some_ok, exists_and_left]

/-! ## §3. Inserted junk. -/

/-- The same kind of result and the same configuration. -/
def SameEnd (a b : BootstrapOutcome C) : Prop :=
  (a.result = .ok () ↔ b.result = .ok ()) ∧ a.config = b.config

/-- While the client waits, no undecryptable datagram is inserted before the
first decider, or this one accepts nothing anyway. -/
def Undisturbed (C : Crates) (env : Env) (config : Config)
    (peersById : HashMap String PeerRuntime) (m : List (Bytes × Bool)) : Prop :=
  ∀ requestId effects, startBootstrap C env config peersById = (.ok requestId, effects) →
    Spoiled (Undecryptable C peersById) (Decides C peersById requestId) m →
    ∀ packet senderId resp, FirstAt (Decides C peersById requestId) (original m) packet →
      Responds C peersById requestId packet senderId resp → resp.ok = false

section

variable {env : Env} {m : List (Bytes × Bool)}

theorem findSome?_verdict_of_not_spoiled
    (hjunk : ∀ packet, (packet, true) ∈ m → ∀ senderId msg,
      ¬ AuthenticFrom C peersById packet senderId msg)
    (h : ¬ Spoiled (Undecryptable C peersById) (Decides C peersById requestId) m) :
    (all m).findSome? (verdict C config peersById requestId)
      = (original m).findSome? (verdict C config peersById requestId) := by
  refine findSome?_all_of_not_spoiled (Undecryptable C peersById) ?_ ?_
  · intro packet hp hu
    exact verdict_eq_none hu (hjunk packet hp)
  · simpa only [verdict_isSome] using h

theorem findSome?_verdict_of_spoiled
    (hjunk : ∀ packet, (packet, true) ∈ m → ∀ senderId msg,
      ¬ AuthenticFrom C peersById packet senderId msg)
    (h : Spoiled (Undecryptable C peersById) (Decides C peersById requestId) m) :
    (all m).findSome? (verdict C config peersById requestId)
      = some (.error "decryption failed") := by
  obtain ⟨packet, hu, hfirst⟩ :=
    findSome?_all_of_spoiled (f := verdict C config peersById requestId)
      (Undecryptable C peersById) (fun packet hp hu => verdict_eq_none hu (hjunk packet hp))
      (fun packet hu => by rw [verdict_of_undecryptable hu]; rfl)
      (by simpa only [verdict_isSome] using h)
  rw [hfirst, verdict_of_undecryptable hu]

/-- A bootstrap ends as one that is aborted does exactly if it accepts no
response either. -/
theorem sameEnd_aborted_iff (config : Config) (effects : List (Effect C))
    (decision : Option (Except String BootstrapResp)) (e : String) :
    SameEnd (conclude config effects decision) (conclude config effects (some (.error e)))
      ↔ ∀ resp, decision = some (.ok resp) → resp.ok = false := by
  constructor
  · intro hsame resp hdecision
    rw [Bool.eq_false_iff]
    intro hok
    have haborted := hsame.1.mp ((conclude_eq_ok_iff _ _ _).mpr ⟨resp, hdecision, hok⟩)
    simp [conclude] at haborted
  · intro hrejects
    have hnot : (conclude config effects decision).result ≠ .ok () := by
      intro hresult
      obtain ⟨resp, hdecision, hok⟩ := (conclude_eq_ok_iff _ _ _).mp hresult
      rw [hrejects resp hdecision] at hok
      cases hok
    refine ⟨⟨fun h => absurd h hnot, fun h => ?_⟩, conclude_config_of_error hnot⟩
    simp [conclude] at h

/-- Inserted datagrams that do not authenticate leave the end of a bootstrap as
it was exactly if it is undisturbed. -/
theorem bootstrap_with_junk
    (hjunk : ∀ packet, (packet, true) ∈ m → ∀ senderId msg,
      ¬ AuthenticFrom C peersById packet senderId msg) :
    SameEnd (performClientBootstrap C env config peersById (original m))
        (performClientBootstrap C env config peersById (all m))
      ↔ Undisturbed C env config peersById m := by
  rcases hstart : startBootstrap C env config peersById with ⟨started, effects⟩
  cases started with
  | error e =>
      -- nothing is received
      rw [performClientBootstrap_of_error hstart, performClientBootstrap_of_error hstart]
      refine ⟨fun _ requestId effects' h => ?_, fun _ => ⟨Iff.rfl, rfl⟩⟩
      simp [hstart] at h
  | ok requestId =>
      rw [performClientBootstrap_eq hstart, performClientBootstrap_eq hstart]
      by_cases hspoiled : Spoiled (Undecryptable C peersById) (Decides C peersById requestId) m
      · -- an undecryptable datagram decides: only a bootstrap that fails anyway ends so
        rw [findSome?_verdict_of_spoiled hjunk hspoiled, sameEnd_aborted_iff]
        constructor
        · intro hrejects requestId' effects' hstart' _ packet senderId resp hfirst hresp
          obtain ⟨hid, -⟩ := Prod.mk.inj (hstart.symm.trans hstart')
          obtain rfl := Except.ok.inj hid
          have hdecision := (findSome?_verdict_eq_ok_iff config).mpr
            ⟨packet, senderId, hfirst, hresp⟩
          exact hrejects resp hdecision
        · intro hundisturbed resp hdecision
          obtain ⟨packet, senderId, hfirst, hresp⟩ :=
            (findSome?_verdict_eq_ok_iff config).mp hdecision
          exact hundisturbed requestId effects hstart hspoiled packet senderId resp hfirst hresp
      · -- the inserted datagrams are ignored, and the first decider is the same
        rw [findSome?_verdict_of_not_spoiled hjunk hspoiled]
        refine ⟨fun _ requestId' effects' hstart' hs => ?_, fun _ => ⟨Iff.rfl, rfl⟩⟩
        obtain ⟨hid, -⟩ := Prod.mk.inj (hstart.symm.trans hstart')
        obtain rfl := Except.ok.inj hid
        exact absurd hs hspoiled

end

/-- A client asks the middle node, whose response comes; before it comes junk.
Evaluated at once. -/
theorem Line.junk_computed :
    ((peerTables Crates.ideal (Line.identity 0) (Line.client 1)).toOption.any fun tables =>
      decide (inspect Crates.ideal tables.byId [] = .notAFrame) &&
      decide (inspect Crates.ideal tables.byId (Line.junk 1) = .undecryptable (Line.name 1)) &&
      decide ((performClientBootstrap Crates.ideal (Env.at 0) (Line.client 1) tables.byId
        [Line.datagram 1 0 (Line.response "st-a")]).result = .ok ()) &&
      decide ((performClientBootstrap Crates.ideal (Env.at 0) (Line.client 1) tables.byId
        [Line.junk 1, Line.datagram 1 0 (Line.response "st-a")]).result ≠ .ok ())) = true := by
  decide +kernel

/-- One undecryptable datagram before the response makes the bootstrap fail. -/
theorem Line.bootstrap_aborted : ∃ tables m,
    peerTables Crates.ideal (Line.identity 0) (Line.client 1) = .ok tables ∧
    (∀ packet, (packet, true) ∈ m → ∀ senderId msg,
      ¬ AuthenticFrom Crates.ideal tables.byId packet senderId msg) ∧
    ¬ SameEnd
      (performClientBootstrap Crates.ideal (Env.at 0) (Line.client 1) tables.byId (original m))
      (performClientBootstrap Crates.ideal (Env.at 0) (Line.client 1) tables.byId (all m)) := by
  obtain ⟨tables, htables, hcheck⟩ := (Option.any_eq_true _ _).mp Line.junk_computed
  simp only [Bool.and_eq_true, decide_eq_true_iff] at hcheck
  obtain ⟨⟨⟨-, hjunk⟩, hok⟩, hfails⟩ := hcheck
  refine ⟨tables, [(Line.junk 1, true), (Line.datagram 1 0 (Line.response "st-a"), false)],
    Lib.Except.toOption_eq_some_iff.mp htables, ?_, fun h => hfails (h.1.mp hok)⟩
  rintro packet hp senderId msg ⟨peer, plaintext, hauth, -⟩
  obtain rfl : packet = Line.junk 1 := by simpa using hp
  rw [hjunk] at hauth
  cases hauth

/-- An inserted datagram that is no frame changes nothing. -/
theorem Line.bootstrap_undisturbed : ∃ tables m,
    peerTables Crates.ideal (Line.identity 0) (Line.client 1) = .ok tables ∧
    original m ≠ all m ∧
    SameEnd
      (performClientBootstrap Crates.ideal (Env.at 0) (Line.client 1) tables.byId (original m))
      (performClientBootstrap Crates.ideal (Env.at 0) (Line.client 1) tables.byId (all m)) := by
  obtain ⟨tables, htables, hcheck⟩ := (Option.any_eq_true _ _).mp Line.junk_computed
  simp only [Bool.and_eq_true, decide_eq_true_iff] at hcheck
  obtain ⟨⟨⟨hframe, -⟩, -⟩, -⟩ := hcheck
  refine ⟨tables, [([], true), (Line.datagram 1 0 (Line.response "st-a"), false)],
    Lib.Except.toOption_eq_some_iff.mp htables, by simp, (bootstrap_with_junk ?_).mpr ?_⟩
  · rintro packet hp senderId msg ⟨peer, plaintext, hauth, -⟩
    obtain rfl : packet = [] := by simpa using hp
    rw [hframe] at hauth
    cases hauth
  · intro requestId effects hstart hspoiled
    rcases spoiled_cons_inserted.mp hspoiled with ⟨senderId, hundecryptable⟩ | hspoiled
    · rw [hframe] at hundecryptable
      cases hundecryptable
    · exact absurd (spoiled_cons_kept.mp hspoiled).2 not_spoiled_nil

/-! ## §4. The home gateway. -/

/-- Authenticated by a configured peer other than the home gateway. -/
def FromStranger (C : Crates) (peersById : HashMap String PeerRuntime) (clientCfg : ClientConfig)
    (packet : Bytes) : Prop :=
  ∃ senderId msg, AuthenticFrom C peersById packet senderId msg ∧
    senderId ≠ clientCfg.homeGatewayId

/-- The home gateway alone decides: what the configuration takes over is in a
response of this peer, and no message of another peer makes the bootstrap
fail. -/
structure DecidedByHome (C : Crates) (env : Env) (config : Config)
    (peersById : HashMap String PeerRuntime) (clientCfg : ClientConfig) (received : List Bytes) :
    Prop where
  accepted : (performClientBootstrap C env config peersById received).result = .ok () →
    ∃ requestId effects packet resp,
      startBootstrap C env config peersById = (.ok requestId, effects) ∧
      FirstAt (Decides C peersById requestId) received packet ∧
      Responds C peersById requestId packet clientCfg.homeGatewayId resp ∧
      (performClientBootstrap C env config peersById received).config
        = adoptAssignment config resp
  others : ∀ requestId effects packet,
    startBootstrap C env config peersById = (.ok requestId, effects) →
    FirstAt (Decides C peersById requestId) received packet →
    FromStranger C peersById clientCfg packet →
    (performClientBootstrap C env config peersById received).result = .ok ()

theorem AuthenticFrom.unique {senderId senderId' : String} {msg msg' : Except String Message}
    (h : AuthenticFrom C peersById packet senderId msg)
    (h' : AuthenticFrom C peersById packet senderId' msg') : senderId = senderId' := by
  obtain ⟨_, _, hi, -⟩ := h
  obtain ⟨_, _, hi', -⟩ := h'
  exact (Inspection.authentic.inj (hi.symm.trans hi')).1

/-- The home gateway alone decides a bootstrap exactly if its first decider
does not come from another peer. -/
theorem bootstrap_by_home {env : Env} {clientCfg : ClientConfig} {received : List Bytes} :
    DecidedByHome C env config peersById clientCfg received
      ↔ ∀ requestId effects packet,
          startBootstrap C env config peersById = (.ok requestId, effects) →
          FirstAt (Decides C peersById requestId) received packet →
          ¬ FromStranger C peersById clientCfg packet := by
  constructor
  · intro h requestId effects packet hstart hfirst hstranger
    obtain ⟨requestId', effects', packet', resp, hstart', hfirst', hresp, -⟩ :=
      h.accepted (h.others requestId effects packet hstart hfirst hstranger)
    obtain ⟨hid, -⟩ := Prod.mk.inj (hstart.symm.trans hstart')
    obtain rfl := Except.ok.inj hid
    obtain rfl := hfirst.unique hfirst'
    -- the decider is accepted, so it is the response of the home gateway
    obtain ⟨senderId, msg, hauth, hne⟩ := hstranger
    exact hne (hauth.unique hresp.1)
  · intro h
    refine ⟨fun hok => ?_, fun requestId effects packet hstart hfirst hstranger =>
      absurd hstranger (h requestId effects packet hstart hfirst)⟩
    rcases hstart : startBootstrap C env config peersById with ⟨started, effects⟩
    cases started with
    | error e =>
        rw [performClientBootstrap_of_error hstart] at hok
        cases hok
    | ok requestId =>
        rw [performClientBootstrap_eq hstart] at hok ⊢
        obtain ⟨resp, hdecision, hrok⟩ := (conclude_eq_ok_iff _ _ _).mp hok
        obtain ⟨packet, senderId, hfirst, hresp⟩ := (findSome?_verdict_eq_ok_iff config).mp hdecision
        -- the response decides, so it is from no other peer
        have hhome : senderId = clientCfg.homeGatewayId := by
          by_contra hne
          exact h requestId effects packet hstart hfirst ⟨senderId, _, hresp.1, hne⟩
        subst hhome
        refine ⟨requestId, effects, packet, resp, rfl, hfirst, hresp, ?_⟩
        simp only [hdecision, conclude, concludeBootstrap, hrok, if_true]

/-- Whom an authentic datagram is from. -/
def Inspection.sender : Inspection → Option String
  | .authentic senderId _ _ => some senderId
  | _ => none

theorem AuthenticFrom.of_sender {senderId : String}
    (h : (inspect C peersById packet).sender = some senderId) :
    ∃ msg, AuthenticFrom C peersById packet senderId msg := by
  cases hi : inspect C peersById packet with
  | authentic senderId' peer plaintext =>
      rw [hi] at h
      obtain rfl := Option.some.inj h
      exact ⟨_, peer, plaintext, hi, rfl⟩
  | _ => rw [hi] at h; cases h

/-- A client asks the middle node, and the third node sends an error, or a
response of its own.  Evaluated at once. -/
theorem Line.stranger_computed :
    ((peerTables Crates.ideal (Line.identity 0) (Line.client 1)).toOption.any fun tables =>
      decide ((inspect Crates.ideal tables.byId (Line.datagram 2 0 (.error ⟨1, "no"⟩))).sender
        = some (Line.name 2)) &&
      decide ((performClientBootstrap Crates.ideal (Env.at 0) (Line.client 1) tables.byId
        [Line.datagram 2 0 (.error ⟨1, "no"⟩)]).result = .error "bootstrap error: no") &&
      decide ((inspect Crates.ideal tables.byId (Line.datagram 2 0 (Line.response "st-x"))).sender
        = some (Line.name 2)) &&
      decide ((performClientBootstrap Crates.ideal (Env.at 0) (Line.client 1) tables.byId
        [Line.datagram 2 0 (Line.response "st-x")]).result = .ok ()) &&
      decide ((performClientBootstrap Crates.ideal (Env.at 0) (Line.client 1) tables.byId
        [Line.datagram 2 0 (Line.response "st-x")]).config.node.stealth = "st-x")) = true := by
  decide +kernel

/-- A peer that is not the home gateway makes the bootstrap fail by an error,
and by a response makes it take over a stealth of its choice. -/
theorem Line.bootstrap_by_stranger : ∃ tables clientCfg packet packet',
    peerTables Crates.ideal (Line.identity 0) (Line.client 1) = .ok tables ∧
    (Line.client 1).client = some clientCfg ∧
    FromStranger Crates.ideal tables.byId clientCfg packet ∧
    (performClientBootstrap Crates.ideal (Env.at 0) (Line.client 1) tables.byId [packet]).result
      = .error "bootstrap error: no" ∧
    FromStranger Crates.ideal tables.byId clientCfg packet' ∧
    (performClientBootstrap Crates.ideal (Env.at 0) (Line.client 1) tables.byId [packet']).result
      = .ok () ∧
    (performClientBootstrap Crates.ideal (Env.at 0) (Line.client 1) tables.byId
      [packet']).config.node.stealth = "st-x" ∧
    ¬ DecidedByHome Crates.ideal (Env.at 0) (Line.client 1) tables.byId clientCfg [packet'] := by
  obtain ⟨tables, htables, hcheck⟩ := (Option.any_eq_true _ _).mp Line.stranger_computed
  simp only [Bool.and_eq_true, decide_eq_true_iff] at hcheck
  obtain ⟨⟨⟨⟨herror, hfails⟩, hresponse⟩, hok⟩, hstealth⟩ := hcheck
  obtain ⟨msg, herror⟩ := AuthenticFrom.of_sender herror
  obtain ⟨msg', hresponse⟩ := AuthenticFrom.of_sender hresponse
  have hne : Line.name 2 ≠ Line.name 1 := by decide
  refine ⟨tables, _, _, _, Lib.Except.toOption_eq_some_iff.mp htables, rfl, ⟨_, msg, herror, hne⟩,
    hfails, ⟨_, msg', hresponse, hne⟩, hok, hstealth, fun h => ?_⟩
  obtain ⟨_, _, packet, _, -, ⟨pre, post, hfirst, -⟩, hresp, -⟩ := h.accepted hok
  have hmem : packet ∈ [Line.datagram 2 0 (Line.response "st-x")] := by
    rw [hfirst]
    simp
  obtain rfl := List.mem_singleton.mp hmem
  exact hne (hresponse.unique hresp.1)

end StealthNet
