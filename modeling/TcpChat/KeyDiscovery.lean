import TcpChat.Network
import TcpChat.Server.Greetings

/-!
# Whether clients learn each other's keys

`client_connect_to_server` broadcasts the key before it marks the client as connected, and the
broadcast of a client that is not connected does nothing. So no key is ever sent, and nothing
that arrives is taken for one, however the bytes are cut.
-/

namespace TcpChat.KeyDiscovery

open Base Base.Bytes Base.Runs Server Client
set_option autoImplicit false

section Discovery
variable {ι : Type}

/-- The public key of `keys` is in the table. -/
def Holds (ctx : E2eContext) (keys : E2eKeypair) : Prop :=
  ∃ k : Fin maxClientsE2e, k.val < ctx.numPeers ∧ (ctx.peerKeys k).active = true ∧
    (ctx.peerKeys k).userId = keys.userId ∧ (ctx.peerKeys k).publicKey = keys.publicKey

/-- Client `i` is connected and in no room. -/
def Lingers (net : Network ι) (i : ι) : Prop :=
  (net.ends i).client.connected = true ∧ ∃ n h, (net.ends i).connection = some n ∧
    net.sys.handlers[n]? = some h ∧ (net.sys.server.session h.slot).hasRoom = false

/-- Nothing is on its way between the server and a connected client. -/
def Processed (net : Network ι) : Prop :=
  ∀ i, (net.ends i).client.connected = true →
    (net.ends i).stream = [] ∧ (net.ends i).unread = []

/-- Whoever is connected and in no room at one time holds each other's keys. -/
def Discovered (net : Network ι) : Prop :=
  Processed net → ∀ i j, i ≠ j → Lingers net i → Lingers net j →
    Holds (net.ends i).client.e2eCtx (net.ends j).client.e2eCtx.myKeys

/-- There is nobody to discover. -/
def Alone (net : Network ι) : Prop :=
  Processed net → ∀ i j, Lingers net i → Lingers net j → i = j

end Discovery

/-- `/k` is soon followed by the end of a string or by ` l`, which no key has in it. -/
def KeysBroken (bytes : List UInt8) : Prop :=
  ∀ front rest, bytes = front ++ 47 :: 107 :: rest → ∃ mid tail, mid.length ≤ 100 ∧
    (rest = mid ++ 0 :: tail ∨ rest = mid ++ 32 :: 108 :: tail)

section Bytes
variable {a b : List UInt8}

theorem KeysBroken.of_append (h : KeysBroken (a ++ b)) : KeysBroken b := by
  intro front rest heq
  exact h (a ++ front) rest (by rw [heq, List.append_assoc])

theorem KeysBroken.append (ha : KeysBroken a) (hb : KeysBroken b) (hhead : b.head? ≠ some 107) :
    KeysBroken (a ++ b) := by
  intro front rest heq
  rcases List.append_eq_append_iff.mp heq with ⟨as, _, hsplit⟩ | ⟨bs, hfront, hsplit⟩
  · exact hb as rest hsplit
  · match bs with
    | [] => exact hb [] rest hsplit.symm
    | [x] =>
      rw [List.cons_append, List.nil_append, List.cons.injEq] at hsplit
      rw [← hsplit.2] at hhead
      exact absurd rfl hhead
    | x :: y :: bs =>
      simp only [List.cons_append, List.cons.injEq] at hsplit
      obtain ⟨rfl, rfl, hrest⟩ := hsplit
      obtain ⟨mid, tail, hmid, hend⟩ := ha front bs hfront
      refine ⟨mid, tail ++ b, hmid, ?_⟩
      rw [hrest]
      rcases hend with rfl | rfl
      · exact Or.inl (by rw [List.append_assoc, List.cons_append])
      · exact Or.inr (by rw [List.append_assoc, List.cons_append, List.cons_append])

/-- A short text that ends in one of the two ways. -/
theorem keysBroken_of_end (ha : a.length ≤ 100) (hslash : 47 ∉ b)
    (hend : (∃ tail, b = 0 :: tail) ∨ ∃ tail, b = 32 :: 108 :: tail) : KeysBroken (a ++ b) := by
  intro front rest heq
  rcases List.append_eq_append_iff.mp heq with ⟨as, _, hsplit⟩ | ⟨bs, hfront, hsplit⟩
  · exact absurd (hsplit ▸ List.mem_append_right _ List.mem_cons_self) hslash
  · match bs with
    | [] => exact absurd (hsplit ▸ List.mem_cons_self : 47 ∈ [] ++ b) hslash
    | [x] =>
      rw [List.cons_append, List.nil_append, List.cons.injEq] at hsplit
      rcases hend with ⟨tail, hb⟩ | ⟨tail, hb⟩
      · exact absurd (List.cons.inj (hsplit.2.trans hb)).1 (by decide)
      · exact absurd (List.cons.inj (hsplit.2.trans hb)).1 (by decide)
    | x :: y :: bs =>
      simp only [List.cons_append, List.cons.injEq] at hsplit
      obtain ⟨_, _, hrest⟩ := hsplit
      have hbs : bs.length ≤ 100 := by
        rw [hfront, List.length_append, List.length_cons, List.length_cons] at ha
        omega
      rcases hend with ⟨tail, hb⟩ | ⟨tail, hb⟩
      · exact ⟨bs, tail, hbs, Or.inl (by rw [hrest, hb])⟩
      · exact ⟨bs, tail, hbs, Or.inr (by rw [hrest, hb])⟩

theorem keysBroken_nil : KeysBroken [] := by
  intro front rest heq
  exact absurd heq.symm (List.append_ne_nil_of_right_ne_nil _ (List.cons_ne_nil _ _))

end Bytes

section Greeting
variable {nickname : CString} {seqNum clientSeq : UInt32}

theorem keysBroken_farewell (hnickname : nickname.length < maxNicknameLen) :
    KeysBroken (("*** " ++ nickname ++ " left the chat ***\n" : CString).take
      (Server.bufferSize - 1)).bytes := by
  have hopen : (CString.bytes "*** ").length = 4 := by decide
  have hclose : CString.bytes " left the chat ***\n" =
      32 :: 108 :: (CString.bytes " left the chat ***\n").drop 2 := by decide
  have hlength : (CString.bytes " left the chat ***\n").length = 19 := by decide
  have hname : nickname.bytes.length < 32 := hnickname
  have hfits : ("*** " ++ nickname ++ " left the chat ***\n" : CString).length ≤
      Server.bufferSize - 1 := by
    have hsize : Server.bufferSize - 1 = 1023 := rfl
    rw [CString.length, CString.bytes_append, CString.bytes_append, List.length_append,
      List.length_append, hopen, hlength, hsize]
    omega
  rw [CString.take_of_length_le hfits, CString.bytes_append, CString.bytes_append]
  refine keysBroken_of_end ?_ (by decide) (Or.inr ⟨_, hclose⟩)
  rw [List.length_append, hopen]
  omega

theorem keysBroken_synAck : KeysBroken (synAckPacket seqNum clientSeq).image := by
  have himage : (synAckPacket seqNum clientSeq).image =
      (synAckPacket seqNum clientSeq).image.dropLast ++ [0] := by
    simp [HandshakePacket.image, List.dropLast_cons_of_ne_nil]
  have hlength : (synAckPacket seqNum clientSeq).image.length = 52 := by
    simp [HandshakePacket.image, HandshakePacket.bytesOfUInt32]
  rw [himage]
  refine keysBroken_of_end ?_ (by decide) (Or.inl ⟨[], rfl⟩)
  rw [List.length_dropLast, hlength]
  decide

/-- The welcome message names commands, but none that begins with `/k`. -/
theorem keysBroken_welcome : KeysBroken welcomeMsg.bytes := by
  intro front rest heq
  have hnone : ¬ [47, 107] <:+: welcomeMsg.bytes := by
    decide +kernel
  refine absurd ⟨front, rest, ?_⟩ hnone
  rw [heq, List.append_assoc]
  rfl

theorem keysBroken_of_greeting {payload : Payload} (h : Greeting payload) :
    KeysBroken payload.bytes ∧ payload.bytes.head? ≠ some 107 := by
  cases payload with
  | packet packet =>
    obtain ⟨seqNum, clientSeq, rfl⟩ := h
    exact ⟨keysBroken_synAck, nofun⟩
  | text message =>
    rcases h with rfl | ⟨nickname, hnickname, rfl⟩
    · exact ⟨keysBroken_welcome, by decide⟩
    · exact ⟨keysBroken_farewell hnickname, nofun⟩

end Greeting

section Receive
variable {client : ClientT} {chunk rest : List UInt8}

/-- A character that the start does not have is found behind it. -/
theorem found_behind {head data behind mid tail : List UInt8} {x : UInt8} (hx : x ∉ head)
    (heq : head ++ (data ++ behind) = mid ++ x :: tail)
    (hlength : mid.length < head.length + data.length) :
    ∃ before after, data = before ++ x :: after ∧ head.length + before.length = mid.length ∧
      after ++ behind = tail := by
  rcases List.append_eq_append_iff.mp heq with ⟨before, rfl, hdata⟩ | ⟨skipped, hhead, hskipped⟩
  · rw [List.length_append] at hlength
    rcases List.append_eq_append_iff.mp hdata with ⟨gap, rfl, _⟩ | ⟨after, rfl, hafter⟩
    · rw [List.length_append] at hlength
      omega
    · match after with
      | [] =>
        rw [List.append_nil] at hlength
        omega
      | y :: after =>
        rw [List.cons_append, List.cons.injEq] at hafter
        obtain ⟨rfl, hafter⟩ := hafter
        exact ⟨before, after, rfl, by rw [List.length_append], hafter.symm⟩
  · match skipped with
    | [] =>
      rw [List.append_nil] at hhead
      rw [List.nil_append] at hskipped
      match data with
      | [] =>
        rw [hhead, List.length_nil] at hlength
        omega
      | y :: after =>
        rw [List.cons_append, List.cons.injEq] at hskipped
        obtain ⟨rfl, hafter⟩ := hskipped
        exact ⟨[], after, rfl, by rw [hhead, List.length_nil, Nat.add_zero], hafter.symm⟩
    | y :: skipped =>
      rw [List.cons_append, List.cons.injEq] at hskipped
      rw [hhead, ← hskipped.1] at hx
      exact absurd (List.mem_append_right _ List.mem_cons_self) hx

/-- What is cut out of bytes without a key is not taken for one. -/
theorem parse_of_keysBroken (h : KeysBroken (chunk ++ rest))
    (hkeyword : (CString.ofBuffer chunk).startsWith "/keyexchange:" = true) :
    clientParseKeyExchange ((CString.ofBuffer chunk).drop 13) = none := by
  have hletters : CString.bytes "/keyexchange:" =
      47 :: 107 :: (CString.bytes "/keyexchange:").drop 2 := by decide
  have htail : ((CString.bytes "/keyexchange:").drop 2).length = 11 := by decide
  have hplain : ∀ c ∈ (CString.bytes "/keyexchange:").drop 2, c ≠ 0 ∧ c ≠ 32 := by
    decide +kernel
  obtain ⟨data, hdata⟩ := (CString.startsWith_iff _ _).mp hkeyword
  obtain ⟨behind, hbehind⟩ : (CString.ofBuffer chunk).bytes.IsPrefix chunk :=
    List.takeWhile_prefix _
  have hdrop : ((CString.ofBuffer chunk).drop 13).bytes = data := by
    rw [CString.bytes_drop, ← hdata, ← length_keyword]
    exact List.drop_left' rfl
  unfold clientParseKeyExchange
  split
  · rfl
  · rename_i hlength
    rw [ne_eq, not_not, CString.length, hdrop] at hlength
    rw [hdrop, Option.map_eq_none_iff]
    have hsize : data.length = 288 := hlength
    have hwhole : chunk ++ rest = [] ++ 47 :: 107 ::
        ((CString.bytes "/keyexchange:").drop 2 ++ (data ++ (behind ++ rest))) := by
      rw [← hbehind, ← hdata, hletters]
      simp
    -- the end stands in the data, for the keyword has neither of its characters
    obtain ⟨mid, tail, hmid, hend | hend⟩ := h _ _ hwhole
    · obtain ⟨before, after, hzero, _⟩ :=
        found_behind (fun hmem => (hplain 0 hmem).1 rfl) hend (by omega)
      have hnoNul := ((CString.ofBuffer chunk).drop 13).noNul
      rw [hdrop, hzero] at hnoNul
      exact absurd (List.mem_append_right _ List.mem_cons_self) hnoNul
    · obtain ⟨before, after, hspace, hbefore, hafter⟩ :=
        found_behind (fun hmem => (hplain 32 hmem).2 rfl) hend (by omega)
      have hlengths := congrArg List.length hspace
      rw [List.length_append, List.length_cons] at hlengths
      have hletter : after[0]? = some 108 := by
        rw [← List.getElem?_append_left (by omega), hafter]
        rfl
      have hspaceAt : data[before.length]? = some 32 := by
        rw [hspace, List.getElem?_append_right (Nat.le_refl _), Nat.sub_self]
        rfl
      have hletterAt : data[before.length + 1]? = some 108 := by
        rw [hspace, List.getElem?_append_right (Nat.le_add_right _ 1), Nat.add_sub_cancel_left]
        exact hletter
      apply hexDecode_eq_none hspaceAt hletterAt rfl ⟨rfl, by decide, by decide, rfl⟩
      simp only [keyExchangePacketSize]
      omega

theorem e2eCtx_of_keysBroken (h : KeysBroken (chunk ++ rest)) :
    (messageReceiverTurn client (.bytes chunk)).client.e2eCtx = client.e2eCtx := by
  unfold messageReceiverTurn
  split
  · rfl
  · dsimp only
    split
    · rename_i hkeyword
      rw [parse_of_keysBroken h hkeyword]
    · split
      · rfl
      · rfl

theorem e2eCtx_of_no_bytes {received : Received} (h : ∀ bytes, received ≠ .bytes bytes) :
    (messageReceiverTurn client received).client.e2eCtx = client.e2eCtx := by
  unfold messageReceiverTurn
  split
  · rfl
  · cases received with
    | bytes bytes => exact absurd rfl (h bytes)
    | closed | timedOut | failed => rfl

end Receive

/-- A client that has received greetings only, knows nobody, and has sent no more than a
farewell. -/
structure EndOk (e : Endpoint) : Prop where
  numPeers : e.client.e2eCtx.numPeers = 0
  silent : e.closed = false → e.stream = []
  short : e.stream.length < 16
  present : e.client.connected = true → e.closed = false
  arrived : KeysBroken (e.arrived.flatMap Payload.bytes)

section Ends
variable {e : Endpoint}

theorem EndOk.start {client : ClientT} (hpeers : client.e2eCtx.numPeers = 0) :
    EndOk (Endpoint.start client) :=
  ⟨hpeers, fun _ => rfl, Nat.zero_lt_succ 15, fun _ => rfl, keysBroken_nil⟩

theorem EndOk.connected (h : EndOk e) (n : Nat) (fd : Int) (clientSeq : UInt32) :
    EndOk (e.connected n fd clientSeq) :=
  ⟨h.numPeers, h.silent, h.short, h.present, h.arrived⟩

theorem EndOk.see (h : EndOk e) {event : Event}
    (hevent : ∀ fd payload ok, event = .send fd payload ok → Greeting payload) :
    EndOk (e.see event) := by
  cases event with
  | accept fd => exact h
  | send fd payload ok =>
    obtain ⟨hbroken, hhead⟩ := keysBroken_of_greeting (hevent fd payload ok rfl)
    rw [Endpoint.see]
    split
    · refine ⟨h.numPeers, h.silent, h.short, h.present, ?_⟩
      rw [List.flatMap_append, List.flatMap_singleton]
      exact h.arrived.append hbroken hhead
    · exact h
  | close fd =>
    rw [Endpoint.see]
    split
    · exact ⟨h.numPeers, h.silent, h.short, h.present, h.arrived⟩
    · exact h

theorem EndOk.seeAll (h : EndOk e) {events : List Event}
    (hevents : ∀ fd payload ok, .send fd payload ok ∈ events → Greeting payload) :
    EndOk (events.foldl Endpoint.see e) := by
  induction events generalizing e with
  | nil => exact h
  | cons event events ih =>
    refine ih (h.see ?_) fun fd payload ok hmem => hevents fd payload ok
      (List.mem_cons_of_mem _ hmem)
    intro fd payload ok heq
    exact hevents fd payload ok (heq ▸ List.mem_cons_self)

/-- What a handler reads is too short for a message. -/
theorem EndOk.offer (h : EndOk e) {pc : Pc} {count : Option Nat} {seqNum : UInt32} {env : Env}
    {input : Input} {e' : Endpoint} (hoffer : e.offer pc count seqNum env = some (input, e')) :
    EndOk e' ∧ ∀ chunk, input.chunk = some chunk → chunk.length < 16 := by
  unfold Endpoint.offer at hoffer
  cases pc with
  | awaitSyn | awaitAck =>
    cases hoffer
    exact ⟨⟨h.numPeers, h.silent, h.short, h.present, h.arrived⟩, nofun⟩
  | sendSynAck | welcome | exiting | gone =>
    cases hoffer
    exact ⟨h, nofun⟩
  | loop =>
    dsimp only at hoffer
    split at hoffer
    · cases hoffer
    · cases hoffer
      have hshort := h.short
      refine ⟨⟨h.numPeers, ?_, ?_, h.present, h.arrived⟩, ?_⟩
      · intro hopen
        dsimp only
        rw [h.silent hopen, List.drop_nil]
      · dsimp only
        rw [List.length_drop]
        omega
      · intro chunk hchunk
        obtain ⟨k, _, rfl⟩ := Option.map_eq_some_iff.mp hchunk
        rw [List.length_take]
        omega

/-- A client that is not marked as connected sends no key. -/
theorem connectToServer_sends_nothing {client : ClientT} (h : client.connected = false)
    (sends : Bool) :
    (clientConnectToServer client sends).frame = none ∧
      (clientConnectToServer client sends).client.e2eCtx = client.e2eCtx := by
  have hsilent : ∀ c : ClientT, c.connected = false →
      clientBroadcastPublicKey c sends = ⟨c, none, -1⟩ := by
    intro c hc
    rw [clientBroadcastPublicKey, if_pos (by simp [hc])]
  have hkey : (client.setEncCtx (Client.initEncryptionContext client.securityCtx.encCtx
      Client.sessionKey)).connected = false := h
  rw [clientConnectToServer, if_neg (by simp [h])]
  dsimp only
  rw [hsilent _ hkey]
  exact ⟨rfl, rfl⟩

theorem EndOk.finish (h : EndOk e) : EndOk e.finish := by
  unfold Endpoint.finish
  split
  · exact h
  · rename_i hidle
    rw [not_or, Bool.not_eq_true, Bool.not_eq_true] at hidle
    split
    · rename_i packet rest harrived
      split
      · exact h
      · obtain ⟨hframe, hctx⟩ := connectToServer_sends_nothing hidle.1 true
        have hstream : e.stream ++ (clientConnectToServer e.client true).frame.getD [] = [] := by
          rw [hframe, h.silent hidle.2]
          rfl
        have hrest := h.arrived
        rw [harrived, List.flatMap_cons] at hrest
        refine ⟨?_, fun _ => hstream, ?_, fun _ => hidle.2, hrest.of_append⟩
        · dsimp only
          rw [hctx]
          exact h.numPeers
        · dsimp only
          rw [hstream]
          decide
    · exact h

theorem EndOk.receive (h : EndOk e) (count : Nat) : EndOk (e.receive count) := by
  have hconnected : ∀ received, (messageReceiverTurn e.client received).client.connected = true →
      e.client.connected = true := by
    intro received hturn
    by_contra hidle
    unfold messageReceiverTurn at hturn
    rw [if_pos (by simp [hidle])] at hturn
    exact hidle hturn
  have hunread : KeysBroken e.unread := by
    have harrived := h.arrived
    rw [← List.take_append_drop e.taken (e.arrived.flatMap Payload.bytes)] at harrived
    exact harrived.of_append
  unfold Endpoint.receive
  split
  · exact h
  · dsimp only
    refine ⟨?_, h.silent, h.short, fun hturn => h.present (hconnected _ hturn), h.arrived⟩
    dsimp only
    split
    · rw [← List.take_append_drop (min count (Client.bufferSize - 1)) e.unread] at hunread
      rw [e2eCtx_of_keysBroken hunread]
      exact h.numPeers
    · rw [e2eCtx_of_no_bytes]
      · exact h.numPeers
      · intro bytes
        split
        · nofun
        · nofun

theorem EndOk.disconnect (h : EndOk e) : EndOk e.disconnect := by
  unfold Endpoint.disconnect
  split
  · exact h
  · rename_i hconnected
    rw [Bool.not_eq_false] at hconnected
    have hframe : (clientDisconnect e.client).frame = some (CString.bytes "/quit") := by
      rw [clientDisconnect, if_pos hconnected]
    dsimp only
    refine ⟨h.numPeers, nofun, ?_, nofun, h.arrived⟩
    rw [hframe, h.silent (h.present hconnected)]
    show (CString.bytes "/quit").length < 16
    decide

end Ends

/-- All nicknames fit, and all clients are as above. -/
structure NetOk {ι : Type} (net : Network ι) : Prop where
  names : NamesShort net.sys.server
  ends : ∀ i, EndOk (net.ends i)

section Net
variable {ι : Type} [DecidableEq ι] {libc : Libc} {net : Network ι}

theorem NetOk.setEnd (h : NetOk net) {i : ι} {e : Endpoint} (he : EndOk e) :
    NetOk (net.setEnd i e) := by
  refine ⟨h.names, fun j => ?_⟩
  rw [Network.setEnd]
  dsimp only
  by_cases hj : j = i
  · rw [hj, Function.update_self]
    exact he
  · rw [Function.update_of_ne hj]
    exact h.ends j

omit [DecidableEq ι] in
theorem NetOk.serverStep (h : NetOk net) {label : Server.Label}
    (hshort : ∀ n input, label = .handler n input →
      ∀ chunk, input.chunk = some chunk → chunk.length < 16) :
    NetOk (net.serverStep libc label) := by
  obtain ⟨hnames, es, htrace, hes⟩ := @System.step_greets libc _ h.names _ hshort
  refine ⟨hnames, fun i => ?_⟩
  rw [Network.serverStep]
  dsimp only
  rw [htrace, List.drop_left]
  exact (h.ends i).seeAll hes

/-- No step brings a key. -/
theorem NetOk.step (h : NetOk net) (label : NetLabel ι) : NetOk (net.step libc label) := by
  cases label with
  | connect i fd clientSeq created started env =>
    rw [Network.step]
    split
    · dsimp only
      split
      · exact h.serverStep nofun
      · exact (h.setEnd ((h.ends i).connected _ _ _)).serverStep nofun
    · exact h
  | serve i count seqNum env =>
    rw [Network.step]
    split
    · exact h
    · split
      · exact h
      · split
        · exact h
        · rename_i input e hoffer
          obtain ⟨he, hshort⟩ := (h.ends i).offer hoffer
          apply (h.setEnd he).serverStep
          intro m input' heq
          cases heq
          exact hshort
  | finish i => exact h.setEnd (h.ends i).finish
  | receive i count => exact h.setEnd ((h.ends i).receive count)
  | disconnect i => exact h.setEnd (h.ends i).disconnect

theorem netOk_run (memory : State) {clients : ι → ClientT}
    (hpeers : ∀ i, (clients i).e2eCtx.numPeers = 0) (labels : List (NetLabel ι)) :
    Always (Network.step libc) NetOk (Network.start memory clients) labels :=
  always_of_invariant (fun _ label h => h.step label)
    ⟨namesShort_start memory, fun i => EndOk.start (hpeers i)⟩ labels

omit [DecidableEq ι] in
theorem NetOk.not_holds (h : NetOk net) (i : ι) (keys : E2eKeypair) :
    ¬ Holds (net.ends i).client.e2eCtx keys := by
  intro hholds
  obtain ⟨k, hk, _⟩ := hholds
  rw [(h.ends i).numPeers] at hk
  exact absurd hk (Nat.not_lt_zero _)

omit [DecidableEq ι] in
theorem NetOk.discovered_iff (h : NetOk net) : Discovered net ↔ Alone net := by
  constructor
  · intro hdiscovered hprocessed i j hi hj
    by_contra hij
    exact h.not_holds i _ (hdiscovered hprocessed i j hij hi hj)
  · intro halone hprocessed i j hij hi hj
    exact absurd (halone hprocessed i j hi hj) hij

/-- Clients that come and go discover each other only where there is nobody to discover. -/
theorem keys_discovered_iff (libc : Libc) (memory : State) (nickname : ι → CString)
    (securityCtx : ι → SecurityContext) (timestamp pid : ι → UInt32)
    (privateKey : ι → Fin 32 → UInt8) (labels : List (NetLabel ι)) :
    let start := Network.start memory fun i =>
      clientCreate (nickname i) (securityCtx i) (timestamp i) (pid i) (privateKey i)
    Always (Network.step libc) Discovered start labels ↔
      Always (Network.step libc) Alone start labels := by
  intro start
  have hok : Always (Network.step libc) NetOk start labels := netOk_run memory (fun _ => rfl) labels
  constructor
  · intro hdiscovered
    exact (hok.and hdiscovered).imp fun _ h => h.1.discovered_iff.mp h.2
  · intro halone
    exact (hok.and halone).imp fun _ h => h.1.discovered_iff.mpr h.2

end Net

/-- Ann and Bob, not yet connected. -/
def annAndBob (bob : Bool) : ClientT :=
  clientCreate (if bob then "bob" else "ann") (.plain fun _ => 0) 1700000000
    (if bob then 43 else 42) (fun _ => 7)

/-- Ann connects, then Bob, and both read their welcome. -/
def bothConnect : List (NetLabel Bool) :=
  [.connect false 5 7 true true calm, .serve false (some 52) 0 calm, .serve false none 100 calm,
    .finish false, .serve false (some 52) 0 calm, .serve false none 0 calm,
    .connect true 6 9 true true calm, .serve true (some 52) 0 calm, .serve true none 100 calm,
    .finish true, .serve true (some 52) 0 calm, .serve true none 0 calm,
    .receive false 1023, .receive true 1023]

theorem ann_and_bob_stay_strangers :
    ¬ ∀ (ι : Type) (_ : DecidableEq ι) (libc : Libc) (memory : State) (nickname : ι → CString)
      (securityCtx : ι → SecurityContext) (timestamp pid : ι → UInt32)
      (privateKey : ι → Fin 32 → UInt8) (labels : List (NetLabel ι)),
      Always (Network.step libc) Discovered (Network.start memory fun i =>
        clientCreate (nickname i) (securityCtx i) (timestamp i) (pid i) (privateKey i)) labels := by
  intro h
  have hdiscovered : Discovered (run (Network.step countingLibc)
      (Network.start zeroedMemory annAndBob) bothConnect) :=
    (h Bool inferInstance countingLibc zeroedMemory _ _ _ _ _ bothConnect).last
  have hok : NetOk (run (Network.step countingLibc) (Network.start zeroedMemory annAndBob)
      bothConnect) := (netOk_run zeroedMemory (fun _ => rfl) bothConnect).last
  have hunread : ∀ i, ((run (Network.step countingLibc) (Network.start zeroedMemory annAndBob)
      bothConnect).ends i).unread = [] := by
    decide +kernel
  have hprocessed : Processed (run (Network.step countingLibc)
      (Network.start zeroedMemory annAndBob) bothConnect) := by
    intro i hi
    exact ⟨(hok.ends i).silent ((hok.ends i).present hi), hunread i⟩
  have hann : Lingers (run (Network.step countingLibc) (Network.start zeroedMemory annAndBob)
      bothConnect) false := ⟨by decide +kernel, 0, ⟨0, .loop⟩, by decide +kernel⟩
  have hbob : Lingers (run (Network.step countingLibc) (Network.start zeroedMemory annAndBob)
      bothConnect) true := ⟨by decide +kernel, 1, ⟨1, .loop⟩, by decide +kernel⟩
  exact hok.not_holds false _ (hdiscovered hprocessed false true (by decide) hann hbob)

end TcpChat.KeyDiscovery
