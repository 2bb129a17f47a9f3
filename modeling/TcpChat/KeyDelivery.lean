import TcpChat.Client.Receiver
import TcpChat.Framing
import TcpChat.Server.HandlerSteps
import TcpChat.Server.RoomBroadcast

/-!
# The way of a public key

From the keypair of one client through the transport encryption, the handler of its connection
and the broadcast into the peer tables of the others.
-/

namespace TcpChat.KeyDelivery

open Base Base.Bytes Base.XorCodec Server Client
set_option autoImplicit false

/-- The line that carries the public key of a context. -/
def keyMessage (ctx : E2eContext) : CString :=
  hexMessage "/keyexchange:" (e2eCreateKeyExchangePacket ctx).image

/-- Whom the server relays a key of the client in slot `c` to: the other active clients that its
room lists, or all the other active ones when it is in none. -/
def Addressee (s : State) (c d : Slot) : Prop :=
  d ≠ c ∧ (s.session d).active = true ∧ ((s.session c).hasRoom = true →
    ∃ r, roomManagerFindRoom s.roomManager (s.session c).currentRoomId = some r ∧
      Lists (s.roomManager.rooms r) (d : Int))

/-- `after` has the key and the nickname of `keys`, and otherwise what `before` had. -/
structure Learned (keys : E2eKeypair) (before after : E2eContext) : Prop where
  found : ∃ peer, e2eFindPeerKey after keys.userId = some peer ∧
    peer.publicKey = keys.publicKey ∧ peer.nickname = keys.nickname
  others_found : ∀ userId ≠ keys.userId, e2eFindPeerKey after userId = e2eFindPeerKey before userId
  entries_kept : ∀ i : Fin maxClientsE2e, i.val < before.numPeers →
    (before.peerKeys i).userId ≠ keys.userId → after.peerKeys i = before.peerKeys i
  myKeys_kept : after.myKeys = before.myKeys

section Message
variable (ctx : E2eContext)

theorem bytes_keyMessage :
    (keyMessage ctx).bytes =
      CString.bytes "/keyexchange:" ++ hexEncode (e2eCreateKeyExchangePacket ctx).image := by
  rw [keyMessage, hexMessage, CString.bytes_append, bytes_ofBuffer_hexEncode]

theorem length_keyMessage : (keyMessage ctx).length = 301 := by
  have hkeyword : (CString.bytes "/keyexchange:").length = 13 := length_keyword
  rw [CString.length, bytes_keyMessage, List.length_append, hkeyword, length_hexEncode,
    E2eKeyExchangePacket.length_image, keyExchangePacketSize]

theorem take_keyMessage : (keyMessage ctx).take (Server.bufferSize - 1) = keyMessage ctx := by
  apply CString.take_of_length_le
  rw [length_keyMessage]
  decide

theorem cleanMessage_keyMessage : cleanMessage (keyMessage ctx) = keyMessage ctx := by
  rw [cleanMessage, take_keyMessage]
  ext1
  apply List.takeWhile_eq_self_iff.mpr
  intro b hb
  rw [bytes_keyMessage, List.mem_append] at hb
  rcases hb with hb | hb
  · have hkeyword : ∀ b ∈ CString.bytes "/keyexchange:", (!decide (b ∈ [10, 13])) = true := by
      decide +kernel
    exact hkeyword b hb
  · have hdigit := hexValue_of_mem_hexEncode hb
    have hten : b ≠ 10 := by
      intro heq
      rw [heq] at hdigit
      exact absurd hdigit (by decide)
    have hthirteen : b ≠ 13 := by
      intro heq
      rw [heq] at hdigit
      exact absurd hdigit (by decide)
    simp [hten, hthirteen]

/-- It is no other command that the server knows. -/
theorem parse_keyMessage : parse (keyMessage ctx) = .keyExchange (keyMessage ctx) := by
  have hstart : ∀ t : CString, t.length ≤ 13 →
      (keyMessage ctx).startsWith t = CString.startsWith "/keyexchange:" t := fun t ht =>
    CString.startsWith_append _ (by rw [length_keyword]; exact ht)
  have hhead : (keyMessage ctx).bytes.head? = some 47 := by
    have hkeyword : CString.bytes "/keyexchange:" = 47 :: (CString.bytes "/keyexchange:").tail := by
      decide
    rw [bytes_keyMessage, hkeyword]
    rfl
  rw [parse, cleanMessage_keyMessage, if_neg (by rw [length_keyMessage]; decide), if_pos hhead,
    parseCommand]
  rw [hstart _ (by decide), hstart _ (by decide), hstart _ (by decide), hstart _ (by decide),
    hstart _ (by decide), hstart _ (by decide), hstart _ (by decide), hstart _ (by decide),
    hstart _ (by decide), hstart _ (by decide)]
  rfl

end Message

section Broadcast
variable {client : ClientT}

/-- What a connected client writes to its socket is what its stream of frames is made of. -/
theorem sendMessage_of_connected (hconnected : client.connected = true) (message : CString)
    (sends : Bool) :
    (clientSendMessage client message sends).frame =
        (Framing.clientSendMessage client.securityCtx.encCtx message).1 ∧
      (clientSendMessage client message sends).client =
        client.setEncCtx (Framing.clientSendMessage client.securityCtx.encCtx message).2 ∧
      (clientSendMessage client message sends).result =
        if (Framing.clientSendMessage client.securityCtx.encCtx message).1.isSome && sends then 0
        else -1 := by
  have hcapacity : UInt64.ofNat (Client.bufferSize * 2) = 2048 := rfl
  rw [clientSendMessage, if_neg (by simp [hconnected]), if_neg (by simp), hcapacity,
    Framing.clientSendMessage]
  dsimp only
  cases (Client.encryptData client.securityCtx.encCtx message.bytes 2048).1 with
  | none => exact ⟨rfl, rfl, rfl⟩
  | some frame =>
    refine ⟨rfl, rfl, ?_⟩
    rw [Option.isSome_some, Bool.true_and]

theorem broadcast_of_connected (hconnected : client.connected = true) :
    (clientBroadcastPublicKey client true).frame =
        some (sealBytes 16 client.securityCtx.encCtx.sessionKey
          (keyMessage client.e2eCtx).bytes) ∧
      (clientBroadcastPublicKey client true).result = 0 := by
  have hroom : (keyMessage client.e2eCtx).bytes.length + 16 ≤ (2048 : UInt64).toNat := by
    have hlength : (keyMessage client.e2eCtx).bytes.length = 301 := length_keyMessage _
    rw [hlength]
    decide
  have hsealed := @Client.encryptData_fst client.securityCtx.encCtx _ _ hroom
  obtain ⟨hframe, _, hresult⟩ :=
    sendMessage_of_connected hconnected (keyMessage client.e2eCtx) true
  rw [Framing.clientSendMessage, hsealed] at hframe hresult
  rw [clientBroadcastPublicKey, if_neg (by simp [hconnected]), ← keyMessage]
  exact ⟨hframe, hresult⟩

end Broadcast

section Relay
variable {libc : Libc} {env : Env} {s : State} {c d : Slot}

/-- The slots a key is relayed to, in order. -/
def keyTargets (s : State) (c : Slot) : List Slot :=
  if (s.session c).hasRoom then roomTargets s (s.session c).currentRoomId c
  else (List.finRange maxClients).filter fun d => Reached s c d

theorem mem_keyTargets_iff : d ∈ keyTargets s c ↔ Addressee s c d := by
  have hne : (d : Int) ≠ (c : Int) ↔ d ≠ c := by
    rw [ne_eq, ne_eq, Fin.ext_iff]
    omega
  unfold keyTargets Addressee
  split
  · rename_i hroom
    rw [mem_roomTargets_iff, hne]
    constructor
    · intro h
      obtain ⟨r, hr, hlists, hdc, hactive⟩ := h
      exact ⟨hdc, hactive, fun _ => ⟨r, hr, hlists⟩⟩
    · intro h
      obtain ⟨hdc, hactive, hin⟩ := h
      obtain ⟨r, hr, hlists⟩ := hin hroom
      exact ⟨r, hr, hlists, hdc, hactive⟩
  · rename_i hroom
    simp only [List.mem_filter, List.mem_finRange, true_and, decide_eq_true_eq, Reached, hne,
      hroom, Bool.false_eq_true, false_implies, and_true]
    exact and_comm

theorem nodup_keyTargets (ok : TableOk s.roomManager) : (keyTargets s c).Nodup := by
  unfold keyTargets
  split
  · exact nodup_roomTargets ok _ _
  · exact (List.nodup_finRange _).filter _

theorem keyTargets_congr {s' : State} (hsession : s'.session = s.session)
    (hrooms : s'.roomManager = s.roomManager) : keyTargets s' c = keyTargets s c := by
  have hroomTargets : ∀ roomId, roomTargets s' roomId c = roomTargets s roomId c := by
    intro roomId
    unfold roomTargets broadcastTarget
    rw [hrooms, hsession]
  have hreached : ∀ d, Reached s' c d ↔ Reached s c d := by
    intro d
    unfold Reached
    rw [hsession]
  unfold keyTargets
  rw [hroomTargets, hsession]
  split
  · rfl
  · exact List.filter_congr fun d _ => decide_eq_decide.mpr (hreached d)

/-- With no failing send a broadcast to everyone is the text to all it reaches. -/
theorem flatMap_broadcastEvents {fails : Slot → Bool} (hfails : ∀ d, fails d = false)
    (message : CString) (senderId : Int) (l : List Slot) :
    l.flatMap (broadcastEvents fails message senderId s) =
      textTo fails s message (l.filter fun d => Reached s senderId d) := by
  induction l with
  | nil => rfl
  | cons d l ih =>
    rw [List.flatMap_cons, ih, broadcastEvents, List.filter_cons]
    by_cases hreached : Reached s senderId d
    · simp [hreached, hfails d, textTo]
    · simp [hreached]

theorem trace_perform_keyExchange (hfails : ∀ d, env.sendFails 0 d = false) (command : CString) :
    (perform libc env s c (.keyExchange command)).1.trace =
      s.trace ++ textTo (env.sendFails 0) s (command.take (Server.bufferSize - 1))
        (keyTargets s c) := by
  simp only [perform, keyTargets]
  split
  · rw [roomManagerBroadcastToRoom_fst, State.trace_emit]
  · rw [trace_broadcast, flatMap_broadcastEvents hfails]

/-- A turn that takes a chunk for a line serves the request of the line. -/
theorem trace_turn_of_openText {key : Fin 32 → UInt8} (h : Up s c key) {chunk : List UInt8}
    (hne : chunk ≠ []) {message : CString} (hopen : openText key chunk = some message) :
    ∃ s', s'.session = s.session ∧ s'.roomManager = s.roomManager ∧ s'.trace = s.trace ∧
      (handlerTurn libc env s c (some chunk)).state =
        (perform libc env s' c (parse message)).1 := by
  have hreceived := (receiveMessage_of_up h hne).1
  refine ⟨(clientSessionReceiveMessage s c (some chunk)).1, session_receiveMessage ..,
    roomManager_receiveMessage .., trace_receiveMessage .., ?_⟩
  unfold openText at hopen
  rw [← hreceived] at hopen
  rcases handlerTurn_cases libc env s c (some chunk) with
    ⟨_, hinactive⟩ | ⟨_, ⟨hnone, _⟩ | ⟨bytes, hbytes, _, heq⟩⟩
  · rw [clientSessionIsActive, h.active, Bool.true_and, decide_eq_false_iff_not] at hinactive
    exact absurd h.fd_nonneg hinactive
  · split at hopen
    · cases hopen
    · cases hopen
    · rename_i bytes hnil hbytes
      exact absurd (hnone bytes hbytes) hnil
  · rw [hbytes] at hopen
    split at hopen
    · cases hopen
    · cases hopen
    · rename_i bytes' _ hbytes'
      cases hbytes'
      rw [heq, Option.some.inj hopen]

end Relay

section Learn
variable {keysCtx ctx : E2eContext}

theorem learned_of_add (hnickname : keysCtx.myKeys.nickname.length ≤ 63)
    (hspace : ctx.numPeers < maxClientsE2e) :
    Learned keysCtx.myKeys ctx (e2eAddPeerKey ctx (e2eCreateKeyExchangePacket keysCtx)).1 := by
  obtain ⟨i, hslot, hfirst, hadd⟩ := addPeerKey_cases hspace (verify_create keysCtx)
  rw [hadd, entry_create keysCtx hnickname]
  constructor
  · exact ⟨_, find_enter_self hslot hfirst rfl, rfl, rfl⟩
  · intro userId hne
    exact find_enter_of_ne hslot hne
  · intro j hj hne
    have hji : j ≠ i := by
      intro heq
      rw [heq] at hj hne
      rcases hslot with ⟨_, hid⟩ | hfree
      · exact hne hid
      · omega
    exact Function.update_of_ne hji ..
  · rfl

end Learn

/-- The key of a connected client is sent, taken by the server for what it is, relayed as it came
to exactly the clients it is meant for, and learned by each of them. -/
theorem public_key_delivered {libc : Libc} {env : Env} {s : State} {c : Slot} {client : ClientT}
    (hconnected : client.connected = true)
    (hnickname : client.e2eCtx.myKeys.nickname.length ≤ 63)
    (hup : Up s c client.securityCtx.encCtx.sessionKey)
    (hsends : ∀ k d, env.sendFails k d = false) :
    (clientBroadcastPublicKey client true).result = 0 ∧
      ∃ frame line, (clientBroadcastPublicKey client true).frame = some frame ∧
        (handlerTurn libc env s c (some frame)).handed = some line ∧
        parse line = .keyExchange line ∧
        (handlerTurn libc env s c (some frame)).goesOn = true ∧
        (∃ targets : List Slot, (∀ d, d ∈ targets ↔ Addressee s c d) ∧
          (TableOk s.roomManager → targets.Nodup) ∧
          (handlerTurn libc env s c (some frame)).state.trace = s.trace ++
            targets.map fun d => .send (s.session d).socketFd (.text line) true) ∧
        ∀ recipient : ClientT, recipient.connected = true →
          recipient.e2eCtx.myKeys.userId ≠ client.e2eCtx.myKeys.userId →
          recipient.e2eCtx.numPeers < maxClientsE2e →
          Learned client.e2eCtx.myKeys recipient.e2eCtx
            (messageReceiverTurn recipient (.bytes line.bytes)).client.e2eCtx := by
  obtain ⟨hframe, hresult⟩ := broadcast_of_connected hconnected
  have hfits : Framing.Fits (keyMessage client.e2eCtx) := by
    rw [Framing.Fits, length_keyMessage]
    decide
  have hopen : openText client.securityCtx.encCtx.sessionKey
      (sealBytes 16 client.securityCtx.encCtx.sessionKey (keyMessage client.e2eCtx).bytes) = _ :=
    Framing.openText_sealBytes hfits
  have hne : sealBytes 16 client.securityCtx.encCtx.sessionKey (keyMessage client.e2eCtx).bytes ≠
      [] := by
    intro hnil
    have hlength := congrArg List.length hnil
    rw [length_sealBytes, List.length_nil] at hlength
    omega
  have hparse := parse_keyMessage client.e2eCtx
  obtain ⟨hhanded, hgoesOn, _⟩ := @handlerTurn_of_up libc env _ _ _ hup (fun k => hsends k c) _ hne
  refine ⟨hresult, _, keyMessage client.e2eCtx, hframe, hhanded.trans hopen, hparse, ?_, ?_, ?_⟩
  · rw [hgoesOn, hopen, Option.any_some, hparse]
    rfl
  · refine ⟨keyTargets s c, fun d => mem_keyTargets_iff, nodup_keyTargets, ?_⟩
    obtain ⟨s', hsession, hrooms, htrace, hstate⟩ :=
      @trace_turn_of_openText libc env _ _ _ hup _ hne _ hopen
    have hwhole := take_keyMessage client.e2eCtx
    rw [hstate, hparse, trace_perform_keyExchange (hsends 0), hwhole, htrace,
      keyTargets_congr hsession hrooms]
    simp only [textTo, hsession, hsends, Bool.not_false]
  · intro recipient hconnected' hother hspace
    have hnotOwn : (e2eCreateKeyExchangePacket client.e2eCtx).userId ≠
        recipient.e2eCtx.myKeys.userId := Ne.symm hother
    rw [keyMessage, messageReceiverTurn_keyExchange hconnected', clientHandleKeyExchange,
      if_neg hnotOwn]
    exact learned_of_add hnickname hspace

/-- A connected client who knows nobody yet. -/
def newcomer (nickname : CString) (id : UInt8) : ClientT where
  nickname := nickname
  connected := true
  securityCtx := .plain Server.sessionKey
  e2eCtx := ⟨⟨fun _ => 3, fun _ => 4, fun _ => id, nickname⟩,
    fun _ => ⟨fun _ => 0, fun _ => 0, .empty, false⟩, 0⟩

/-- Two connections are up and in no room. The key of the client in slot 1 reaches the one in
slot 0. -/
theorem public_key_delivered_ann :
    ∃ (frame : List UInt8) (line : CString) (targets : List Slot),
      (clientBroadcastPublicKey (newcomer "ann" 1) true).frame = some frame ∧
      (handlerTurn countingLibc calm (added Framing.freshConnection 6 1) 1
        (some frame)).state.trace = (added Framing.freshConnection 6 1).trace ++
          targets.map (fun d => .send ((added Framing.freshConnection 6 1).session d).socketFd
            (.text line) true) ∧
      (0 : Slot) ∈ targets ∧
      Learned (newcomer "ann" 1).e2eCtx.myKeys (newcomer "bob" 2).e2eCtx
        (messageReceiverTurn (newcomer "bob" 2) (.bytes line.bytes)).client.e2eCtx := by
  obtain ⟨_, frame, line, hframe, _, _, _, ⟨targets, htargets, _, htrace⟩, hlearned⟩ :=
    @public_key_delivered countingLibc calm (added Framing.freshConnection 6 1) 1
      (newcomer "ann" 1) rfl (by decide) (Up.of_added _ (by decide) 1) (fun _ _ => rfl)
  refine ⟨frame, line, targets, hframe, htrace, (htargets 0).mpr ⟨by decide, rfl, ?_⟩,
    hlearned (newcomer "bob" 2) rfl (by decide) (by decide)⟩
  intro hroom
  exact absurd hroom (by decide)

end TcpChat.KeyDelivery
