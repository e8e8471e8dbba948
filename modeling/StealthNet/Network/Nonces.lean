/-
  StealthNet.Network.Nonces
  ─────────────────────────
  NONCES, AND WHAT THEY TELL APART.

  `encrypt` draws a nonce for each call.  A step of a node encrypts at most
  once (`Step.encryptsOnce`), so the nonces used in a run are those its
  encrypting steps draw, in their order (`exec_nonces`).

  No receiver remembers a nonce, and a datagram is dispatched as often as it
  arrives.  Where the drawn nonces are distinct it could: what is dispatched
  under one nonce is one frame of one call, at one node
  (`Net.Run.nonce_identifies`).
-/
import StealthNet.Network.Agreement
import StealthNet.Network.Malleability

namespace StealthNet

section

variable {C : Crates} {env : Env}

/-! ## §1. One step encrypts once. -/

/-- Among these effects is at most one encryption, under the drawn nonce. -/
def EncryptsOnce (env : Env) (effects : List (Effect C)) : Prop :=
  ((sendCalls effects).map SendCall.nonce).Sublist [env.nonce]

theorem EncryptsOnce.of_nil {effects : List (Effect C)} (h : sendCalls effects = []) :
    EncryptsOnce env effects := by
  unfold EncryptsOnce
  rw [h]
  exact List.nil_sublist _

theorem Sent.Spec.encryptsOnce {r : Sent C} (h : r.Spec fun call => call.nonce = env.nonce) :
    EncryptsOnce env r.effects := by
  cases h with
  | failed e => exact .of_nil rfl
  | refused e call h =>
      show [call.nonce].Sublist [env.nonce]
      rw [h]
  | accepted d h =>
      show [d.call.nonce].Sublist [env.nonce]
      rw [h]

theorem sendDirect_nonce (senderId : String) (addr : SocketAddr) (key : Key) (msg : Message) :
    (sendDirect C env senderId addr key msg).Spec fun call => call.nonce = env.nonce := by
  unfold sendDirect
  split
  · exact .failed _
  · split
    · exact .failed _
    · dsimp only
      split
      · exact .refused _ _ rfl
      · rename_i bytes hf
        split
        · exact .accepted ⟨_, bytes, hf⟩ rfl
        · exact .refused _ _ rfl

variable (sh : Shared)

theorem sendToPeer_nonce (peerId : String) (msg : Message) :
    (sendToPeer C sh env peerId msg).Spec fun call => call.nonce = env.nonce := by
  unfold sendToPeer
  split
  · exact .failed _
  · exact sendDirect_nonce _ _ _ _

theorem forwardByStealth_nonce (target : String) (msg : Message) :
    (forwardByStealth C sh env target msg).Spec fun call => call.nonce = env.nonce := by
  unfold forwardByStealth
  split
  · exact sendToPeer_nonce sh _ _
  · split
    · exact sendToPeer_nonce sh _ _
    · exact .failed _

variable (t : Tables)

theorem relay_encryptsOnce (ttl : UInt8) (target : String) (rebuild : UInt8 → Message) :
    EncryptsOnce env (relay C sh env t ttl target rebuild).effects := by
  unfold relay
  split
  · exact .of_nil rfl
  · exact (forwardByStealth_nonce sh _ _).encryptsOnce

theorem answerPending_encryptsOnce (κ : RequestKind) (requestId : UInt64) (payload : Payload κ) :
    EncryptsOnce env (answerPending C t κ requestId payload).effects := by
  unfold answerPending
  dsimp only
  split
  · exact .of_nil rfl
  · exact .of_nil rfl

theorem handleData_encryptsOnce (data : DataMsg) :
    EncryptsOnce env (handleData C sh env t data).effects := by
  unfold handleData
  split
  · exact .of_nil rfl
  · dsimp only
    split
    · split
      · exact .of_nil rfl
      · exact .of_nil rfl
    · split
      · exact relay_encryptsOnce sh t _ _ _
      · exact .of_nil rfl

theorem handleClientRegister_encryptsOnce (reg : ClientRegister) :
    EncryptsOnce env (handleClientRegister C sh env t reg).effects := by
  unfold handleClientRegister
  split
  · exact .of_nil rfl
  · split
    · exact (forwardByStealth_nonce sh _ _).encryptsOnce
    · exact relay_encryptsOnce sh t _ _ _

/-- Whatever is dispatched. -/
theorem dispatch_encryptsOnce (peer : PeerRuntime) (m : Message) :
    EncryptsOnce env (dispatch C sh env t peer m).effects := by
  cases m with
  | keepalive _ | bootstrapResp _ | clientRegisterAck _ | error _ => exact .of_nil rfl
  | bootstrapReq req =>
      show EncryptsOnce env (handleBootstrapReq C sh env t peer req).effects
      unfold handleBootstrapReq
      split
      · exact (sendToPeer_nonce sh _ _).encryptsOnce
      · exact .of_nil rfl
  | clientRegister reg => exact handleClientRegister_encryptsOnce sh t reg
  | data data => exact handleData_encryptsOnce sh t data
  | pingReq ping =>
      show EncryptsOnce env (handlePingReq C sh env t ping).effects
      unfold handlePingReq
      split
      · exact .of_nil rfl
      · split
        · exact (forwardByStealth_nonce sh _ _).encryptsOnce
        · exact relay_encryptsOnce sh t _ _ _
  | pingResp pong =>
      show EncryptsOnce env (handlePingResp C sh env t pong).effects
      unfold handlePingResp
      split
      · exact .of_nil rfl
      · split
        · exact answerPending_encryptsOnce t _ _ _
        · exact relay_encryptsOnce sh t _ _ _
  | publicClientsReq req =>
      show EncryptsOnce env (handlePublicClientsReq C sh env t req).effects
      unfold handlePublicClientsReq
      split
      · exact .of_nil rfl
      · split
        · exact (forwardByStealth_nonce sh _ _).encryptsOnce
        · exact relay_encryptsOnce sh t _ _ _
  | publicClientsResp resp =>
      show EncryptsOnce env (handlePublicClientsResp C sh env t resp).effects
      unfold handlePublicClientsResp
      split
      · exact .of_nil rfl
      · split
        · exact answerPending_encryptsOnce t _ _ _
        · exact relay_encryptsOnce sh t _ _ _

variable {sh} {t}

theorem handleLocalPacket_encryptsOnce (packet : Bytes) :
    EncryptsOnce env (handleLocalPacket C sh env packet).effects := by
  unfold handleLocalPacket
  split
  · exact .of_nil rfl
  · split
    · exact .of_nil rfl
    · split
      · exact .of_nil rfl
      · exact (forwardByStealth_nonce sh _ _).encryptsOnce

theorem sendClientRegister_encryptsOnce :
    EncryptsOnce env (sendClientRegister C sh env t).1.effects := by
  unfold sendClientRegister
  split
  · exact .of_nil rfl
  · split
    · exact .of_nil rfl
    · exact (sendToPeer_nonce sh _ _).encryptsOnce

/-- Of the sections of an admin thread one sends. -/
theorem Job.Advances.encryptsOnce {κ : RequestKind} {job : Job κ} {tx : Tx} {st : JobStep C κ}
    (h : job.Advances sh env tx t st) : EncryptsOnce env st.effects := by
  cases h with
  | sent req stage r _ _ hr _ =>
      subst hr
      exact (forwardByStealth_nonce sh _ _).encryptsOnce
  | unresolved | drew | registered | received | timedOut | cleaned => exact .of_nil rfl

theorem RunningAct.encryptsOnce {rt rt' : Runtime} {ev : LocalEvent} {did : Activity C}
    (h : RunningAct C env sh rt ev rt' did) : EncryptsOnce env did.effects := by
  cases h with
  | tunRead => exact handleLocalPacket_encryptsOnce _
  | keepalive => exact (sendToPeer_nonce sh _ _).encryptsOnce
  | clientRegister _ => exact sendClientRegister_encryptsOnce
  | queried | opened => exact .of_nil rfl
  | advanced _ hst => exact hst.encryptsOnce
  | replied => exact .of_nil rfl

theorem startBootstrap_encryptsOnce (config : Config)
    (peersById : Lib.HashMap String PeerRuntime) :
    EncryptsOnce env (startBootstrap C env config peersById).2 := by
  unfold startBootstrap
  split
  · exact .of_nil rfl
  · split
    · exact .of_nil rfl
    · rename_i home _
      dsimp only
      split
      · exact (sendDirect_nonce _ _ _ _).encryptsOnce
      · split
        · exact (sendDirect_nonce _ _ _ _).encryptsOnce
        · exact (sendDirect_nonce _ _ _ _).encryptsOnce

theorem Phase.start_encryptsOnce (identity : Identity) (config : Config) :
    EncryptsOnce env (Phase.start C env identity config).2.effects := by
  unfold Phase.start
  split
  · exact .of_nil rfl
  · rename_i peers _
    have hboot : EncryptsOnce env (startBootstrap C env config peers.byId).2 :=
      startBootstrap_encryptsOnce config peers.byId
    split
    · split
      · rename_i heq
        rw [heq] at hboot
        exact hboot
      · rename_i heq
        rw [heq] at hboot
        exact hboot
    · exact .of_nil rfl

theorem Phase.act_encryptsOnce {identity : Identity} {config : Config} {p p' : Phase}
    {ev : LocalEvent} {did : Activity C} (h : p.act C env identity config ev = some (p', did)) :
    EncryptsOnce env did.effects := by
  cases p with
  | running sh rt =>
      obtain ⟨rt', -, hact⟩ := Phase.act_running h
      exact hact.encryptsOnce
  | stopped =>
      cases ev with
      | start =>
          obtain ⟨-, rfl⟩ := Prod.mk.inj (Option.some.inj h)
          exact Phase.start_encryptsOnce identity config
      | _ => cases h
  | booting =>
      cases ev with
      | bootstrapTimeout =>
          obtain ⟨-, rfl⟩ := Prod.mk.inj (Option.some.inj h)
          exact .of_nil rfl
      | _ => cases h
  | failed => cases ev <;> cases h

theorem Received.encryptsOnce {packet : Bytes} {p p' : Phase} {did : Activity C}
    (h : Received C env packet p p' did) : EncryptsOnce env did.effects := by
  cases h with
  | deaf | decided | refused => exact .of_nil rfl
  | @handled sh rt peer m _ => exact dispatch_encryptsOnce sh rt.tables peer m

end

/-! ## §2. Runs. -/

section

variable {C : Crates} {ι : Type}

/-- The nonce a step encrypts under, if it encrypts. -/
def Label.nonce : Label C ι → Option Nonce
  | .act _ _ env _ => some env.nonce
  | .deliver _ _ _ env _ => some env.nonce
  | .inject _ _ env _ => some env.nonce
  | .drop _ => none

/-- The calls of `send_direct` of a step, each with its node. -/
def Label.calls (l : Label C ι) : List (ι × SendCall C) :=
  match l.activity with
  | none => []
  | some (i, did) => (sendCalls did.effects).map (Prod.mk i)

/-- The nonces that the steps of a trace draw to encrypt, in order. -/
def drawnNonces (tr : List (Label C ι)) : List Nonce :=
  (tr.filter fun l => !l.calls.isEmpty).filterMap Label.nonce

theorem called_iff {tr : List (Label C ι)} {i : ι} {call : SendCall C} :
    Called tr i call ↔ (i, call) ∈ tr.flatMap Label.calls := by
  rw [List.mem_flatMap]
  constructor
  · intro h
    obtain ⟨l, hl, did, hdoes, hcall⟩ := h
    refine ⟨l, hl, ?_⟩
    unfold Label.calls
    rw [Label.does_iff.mp hdoes]
    exact List.mem_map_of_mem (mem_sendCalls.mpr hcall)
  · intro h
    obtain ⟨l, hl, hmem⟩ := h
    unfold Label.calls at hmem
    cases hact : l.activity with
    | none =>
        rw [hact] at hmem
        cases hmem
    | some a =>
        obtain ⟨j, did⟩ := a
        rw [hact] at hmem
        obtain ⟨call', hcall, heq⟩ := List.mem_map.mp hmem
        obtain ⟨rfl, rfl⟩ := Prod.mk.inj heq
        exact ⟨l, hl, did, Label.does_iff.mpr hact, mem_sendCalls.mp hcall⟩

section

variable [DecidableEq ι] {net : Net ι} {s s' : State C ι}

/-- A step encrypts at most once, under the nonce it draws. -/
theorem Step.encryptsOnce {l : Label C ι} (h : Step net s l s') :
    ((l.calls).map fun c => c.2.nonce).Sublist l.nonce.toList := by
  have hcalls : ∀ {i : ι} {did : Activity C} {env : Env}, EncryptsOnce env did.effects →
      (((sendCalls did.effects).map (Prod.mk i)).map fun c => c.2.nonce).Sublist [env.nonce] := by
    intro i did env honce
    rw [List.map_map]
    exact honce
  cases l with
  | act i ev env did => exact hcalls (Phase.act_encryptsOnce h.act_of_act)
  | deliver i f keep env did => exact hcalls h.received_of_deliver.2.2.encryptsOnce
  | inject i packet env did => exact hcalls h.received_of_inject.encryptsOnce
  | drop f => exact List.nil_sublist _

/-- The nonces of a run are drawn in its steps, in this order. -/
theorem exec_nonces {tr : List (Label C ι)} (h : Lib.Exec (Step net) s tr s') :
    ((tr.flatMap Label.calls).map fun c => c.2.nonce).Sublist (drawnNonces tr) := by
  induction h with
  | refl => exact List.nil_sublist _
  | @snoc tr s₁ l s₂ _ hstep ih =>
      unfold drawnNonces
      rw [List.flatMap_append, List.map_append, List.filter_append, List.filterMap_append]
      refine ih.append ?_
      rw [List.flatMap_singleton]
      have honce := hstep.encryptsOnce
      -- a step without a call draws nothing
      cases hcalls : l.calls with
      | nil => exact List.nil_sublist _
      | cons c cs =>
          have hkept : [l].filter (fun l => !l.calls.isEmpty) = [l] := by simp [hcalls]
          rw [hkept, ← hcalls]
          cases hnonce : l.nonce with
          | none =>
              rw [hnonce] at honce
              exact honce.trans (List.nil_sublist _)
          | some nonce =>
              rw [hnonce] at honce
              simpa [hnonce] using honce

/-- Where the drawn nonces are distinct, a nonce is used by one call. -/
theorem exec_call_unique {tr : List (Label C ι)} (h : Lib.Exec (Step net) s tr s')
    (hdistinct : (drawnNonces tr).Nodup) {A A' : ι} {call call' : SendCall C}
    (hcall : Called tr A call) (hcall' : Called tr A' call') (hnonce : call.nonce = call'.nonce) :
    A = A' ∧ call = call' := by
  have hnodup := hdistinct.sublist (exec_nonces h)
  exact Prod.mk.inj (List.inj_on_of_nodup_map hnodup (called_iff.mp hcall) (called_iff.mp hcall')
    hnonce)

/-! ## §3. What a nonce identifies. -/

/-- What is dispatched is a frame of a call for this node, with its nonce. -/
theorem Net.Run.authentic_frame (hb : C.BincodeRoundTrips) (ho : C.AeadCorrect)
    (hpeers : HonestPeers C net) (hkeys : KeysDetermineSecrets C net) {tr : List (Label C ι)}
    (hrun : net.Run tr s) (hideal : Unforgeable net tr) {l : Label C ι} (hmem : l ∈ tr) {B : ι}
    {packet : Bytes} {did : Activity C} (hl : l.Receives B packet did) {peer : PeerRuntime}
    {m : Message} (hd : did.dispatched = some (peer, m)) {frame : OuterFrame}
    (hframe : C.deserializeFrame packet = some frame) :
    ∃ A call peers, Authentic net tr B peer m A call ∧ frame = call.frame ∧
      peerTables C (net.identity B) (net.config B) = .ok peers ∧
      peers.byId.lookup frame.senderId = some peer := by
  obtain ⟨pre, post, rfl⟩ := List.append_of_mem hmem
  obtain ⟨s₁, s₂, hpre, hstep, hpost⟩ := hrun.split_cons
  obtain ⟨env, hrec⟩ := hstep.received hl
  -- whoever dispatches opens the datagram with the table it was built with
  obtain ⟨peers, hB, hopen⟩ : ∃ peers, peerTables C (net.identity B) (net.config B) = .ok peers ∧
      openDatagram C peers.byId packet = .ok (peer, m) := by
    have hbuilt := Net.Run.builtFrom hpre B
    generalize s₁.node B = p at hrec hbuilt
    generalize s₂.node B = p' at hrec
    cases hrec with
    | deaf | refused => cases hd
    | handled hopen =>
        obtain ⟨peers, hB, hbyId, -⟩ := hbuilt.peers
        rw [← Option.some.inj hd]
        exact ⟨peers, hB, hbyId ▸ hopen⟩
    | @decided _ _ peers _ _ _ _ =>
        refine ⟨peers, hbuilt.2, ?_⟩
        cases hopen : openDatagram C peers.byId packet with
        | error e => rw [hopen] at hd; cases hd
        | ok opened =>
            rw [hopen] at hd
            rw [← Option.some.inj hd]
  obtain ⟨senderId, plaintext, hinspect, hm⟩ := openDatagram_eq_ok_iff.mp hopen
  obtain ⟨frame', hframe', hmagic, hversion, rfl, hpeer, haead⟩ :=
    inspect_eq_authentic_iff.mp hinspect
  obtain rfl := Option.some.inj (hframe.symm.trans hframe')
  obtain ⟨A, call, hcall, hkey, hsender, hnonce, hct⟩ := hideal pre l post B packet did peers frame
    peer plaintext rfl hl hB hframe hpeer haead
  -- the message is the one that was sealed
  have hseal := ho.open_seal call.encrypted
  rw [hkey, hsender, hnonce, hct, haead] at hseal
  obtain rfl := Option.some.inj hseal
  rw [hb.message call.serialized] at hm
  have hcall' : Called (pre ++ l :: post) A call := by
    obtain ⟨l', hl', hdid⟩ := hcall
    exact ⟨l', List.mem_append_left _ hl', hdid⟩
  refine ⟨A, call, peers, ?_, frame_eq_of_fields hmagic hversion hsender hnonce hct, hB, hpeer⟩
  rw [← Except.ok.inj hm]
  exact hrun.authentic_of_key hpeers hkeys hB (hsender ▸ hpeer) hcall' hkey

/-- In a run whose drawn nonces are distinct no two calls share a nonce, and
whatever an attacker injects, what is dispatched under one nonce is the frame
of one call: the same node dispatches the same message of the same peer, which
sealed it in this call. -/
theorem Net.Run.nonce_identifies (hb : C.BincodeRoundTrips) (ho : C.AeadCorrect)
    (hpeers : HonestPeers C net) (hkeys : KeysDetermineSecrets C net) {tr : List (Label C ι)}
    (hrun : net.Run tr s) (hideal : Unforgeable net tr) (hdistinct : (drawnNonces tr).Nodup) :
    ((tr.flatMap Label.calls).map fun c => c.2.nonce).Nodup ∧
    ∀ l ∈ tr, ∀ l' ∈ tr, ∀ B B' packet packet' did did' peer peer' m m' frame frame',
      l.Receives B packet did → did.dispatched = some (peer, m) →
      C.deserializeFrame packet = some frame →
      l'.Receives B' packet' did' → did'.dispatched = some (peer', m') →
      C.deserializeFrame packet' = some frame' → frame.nonce = frame'.nonce →
      frame = frame' ∧ B = B' ∧ peer = peer' ∧ m = m' ∧
        ∃ A call, Authentic net tr B peer m A call ∧ frame = call.frame ∧
          ∀ A' call', Called tr A' call' → call'.nonce = frame.nonce → A' = A ∧ call' = call := by
  refine ⟨hdistinct.sublist (exec_nonces hrun), ?_⟩
  intro l hl l' hl' B B' packet packet' did did' peer peer' m m' frame frame' hrec hd hframe hrec'
    hd' hframe' hnonce
  obtain ⟨A, call, peers, hauth, hcall, hB, hp⟩ :=
    hrun.authentic_frame hb ho hpeers hkeys hideal hl hrec hd hframe
  obtain ⟨A', call', peers', hauth', hcall', hB', hp'⟩ :=
    hrun.authentic_frame hb ho hpeers hkeys hideal hl' hrec' hd' hframe'
  have hsame : call.nonce = call'.nonce := by
    rw [hcall, hcall'] at hnonce
    exact hnonce
  obtain ⟨rfl, rfl⟩ := exec_call_unique hrun hdistinct hauth.called hauth'.called hsame
  -- one call has one key, and its sender this key for one node
  obtain ⟨peersA, q, hA, hq, hkey, -⟩ := hauth.receiver
  obtain ⟨peersA', q', hA', hq', hkey', -⟩ := hauth'.receiver
  obtain rfl := Except.ok.inj (hA.symm.trans hA')
  obtain rfl : B = B' := hpeers.ids _ _
    (hpeers.same_peer hkeys hA hq hq' (hkey.symm.trans hkey'))
  obtain rfl := Except.ok.inj (hB.symm.trans hB')
  obtain rfl : frame = frame' := hcall.trans hcall'.symm
  refine ⟨rfl, rfl, Option.some.inj (hp.symm.trans hp'), hauth.msg.symm.trans hauth'.msg, A, call, hauth,
    hcall, fun A'' call'' hcalled hnonce'' => ?_⟩
  rw [hcall] at hnonce''
  exact exec_call_unique hrun hdistinct hcalled hauth.called hnonce''

end

end

namespace Line

/-- The datagram for the middle node arrives, and once more from the attacker. -/
def repeated : List (Move (Fin 3)) := attack ++ [.deliver 0 false, .inject 1 seen]

/-- What is dispatched at the middle node as coming from the first one, with
the bytes it arrived in. -/
def dispatchedAt (l : Label Crates.ideal (Fin 3)) : Option (Bytes × PeerRuntime × Message) :=
  match l with
  | .deliver 1 f _ _ did => did.dispatched.map fun opened => (f.datagram.bytes, opened)
  | .inject 1 packet _ did => did.dispatched.map fun opened => (packet, opened)
  | _ => none

theorem receives_of_dispatchedAt {l : Label Crates.ideal (Fin 3)} {packet : Bytes}
    {opened : PeerRuntime × Message} (h : dispatchedAt l = some (packet, opened)) :
    ∃ did, l.Receives 1 packet did ∧ did.dispatched = some opened := by
  unfold dispatchedAt at h
  split at h
  · obtain ⟨opened', hd, heq⟩ := Option.map_eq_some_iff.mp h
    obtain ⟨rfl, rfl⟩ := Prod.mk.inj heq
    exact ⟨_, Or.inl ⟨_, _, _, rfl, rfl⟩, hd⟩
  · obtain ⟨opened', hd, heq⟩ := Option.map_eq_some_iff.mp h
    obtain ⟨rfl, rfl⟩ := Prod.mk.inj heq
    exact ⟨_, Or.inr ⟨_, rfl⟩, hd⟩
  · cases h

/-- Evaluated at once: one packet is dispatched twice, where all steps draw
distinct nonces. -/
theorem repeated_computed : (Crates.ideal.deserializeFrame seen).isSome = true ∧
    ((Sim.init Crates.ideal (Fin 3)).run net Env.at repeated).any (fun r =>
      replays [] r.1 && decide (drawnNonces r.1).Nodup &&
        (r.1.filterMap dispatchedAt).map Prod.fst == [seen, seen]) = true := by
  decide +kernel

/-- It is dispatched as one message of one peer. -/
theorem dispatched_twice : ∃ (tr : List (Label Crates.ideal (Fin 3)))
    (s : State Crates.ideal (Fin 3)) (peer : PeerRuntime) (m : Message), net.Run tr s ∧
    tr.filterMap dispatchedAt = [(seen, peer, m), (seen, peer, m)] := by
  obtain ⟨hseen, hrepeated⟩ := repeated_computed
  obtain ⟨frame, hframe⟩ := Option.isSome_iff_exists.mp hseen
  obtain ⟨⟨tr, s⟩, hrun, hcheck⟩ := (Option.any_eq_true _ _).mp hrepeated
  obtain ⟨hcheck, htwice⟩ := Bool.and_eq_true_iff.mp hcheck
  obtain ⟨hreplays, hdistinct⟩ := Bool.and_eq_true_iff.mp hcheck
  have hrun := Sim.run_sound hrun
  obtain ⟨-, hsame⟩ := Net.Run.nonce_identifies Crates.bincodeRoundTrips_ideal
    Crates.idealAead_ideal.toAeadCorrect honestPeers keysDetermineSecrets hrun
    (Net.Run.unforgeable Crates.bincodeRoundTrips_ideal Crates.idealAead_ideal hrun hreplays)
    (of_decide_eq_true hdistinct)
  obtain ⟨a, b, hab, ha, hb⟩ :
      ∃ a b, tr.filterMap dispatchedAt = [a, b] ∧ a.1 = seen ∧ b.1 = seen := by
    obtain ⟨a, rest, hall, ha, hrest⟩ := List.map_eq_cons_iff.mp (beq_iff_eq.mp htwice)
    obtain ⟨b, last, rfl, hb, hlast⟩ := List.map_eq_cons_iff.mp hrest
    obtain rfl := List.map_eq_nil_iff.mp hlast
    exact ⟨a, b, hall, ha, hb⟩
  obtain ⟨packet, peer, m⟩ := a
  obtain ⟨packet', peer', m'⟩ := b
  obtain rfl : packet = seen := ha
  obtain rfl : packet' = seen := hb
  obtain ⟨l, hl, hat⟩ := List.mem_filterMap.mp (hab ▸ List.mem_cons_self)
  obtain ⟨l', hl', hat'⟩ :=
    List.mem_filterMap.mp (hab ▸ List.mem_cons_of_mem _ List.mem_cons_self)
  obtain ⟨did, hrec, hd⟩ := receives_of_dispatchedAt hat
  obtain ⟨did', hrec', hd'⟩ := receives_of_dispatchedAt hat'
  obtain ⟨-, -, rfl, rfl, -⟩ := hsame l hl l' hl' 1 1 seen seen did did' peer peer' m m' frame frame
    hrec hd hframe hrec' hd' hframe rfl
  exact ⟨tr, s.state, peer, m, hrun, hab⟩

end Line

end StealthNet
