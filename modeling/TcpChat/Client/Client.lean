import TcpChat.Client.E2eDecryption
import TcpChat.Client.EncryptionContext
import TcpChat.Client.HandshakeProtocol
import TcpChat.Client.KeyExchange

/-!
# The client (client/src/client.c, client/src/security_context.c)

What a connected client sends and how it takes what it receives. `sends` says whether the call
of `send` takes the whole frame; a result of -1 is a failure that is only logged.
-/

namespace TcpChat.Client

open Base Base.Bytes
set_option autoImplicit false

def bufferSize : Nat := 1024

/-- A security context as `security_context_create` leaves it: the canaries are written once,
with bytes other than zero. -/
structure SecurityContext where
  canaryStart : Fin 16 → UInt8
  canaryEnd : Fin 16 → UInt8
  encCtx : EncryptionContext
  canaries_ne_zero : ∀ i, canaryStart i ≠ 0 ∧ canaryEnd i ≠ 0

/-- A security context with canaries of ones. -/
def SecurityContext.plain (key : Fin 32 → UInt8) : SecurityContext where
  canaryStart := fun _ => 1
  canaryEnd := fun _ => 1
  encCtx := ⟨key, 0, 0⟩
  canaries_ne_zero := fun _ => ⟨by decide, by decide⟩

/-- `client_t`: the fields that its functions read once it has a socket. -/
structure ClientT where
  nickname : CString
  connected : Bool
  securityCtx : SecurityContext
  e2eCtx : E2eContext

/-- The outcome of a call that may send: the frame handed to `send`, and the return value. -/
structure Sent where
  client : ClientT
  frame : Option (List UInt8)
  result : Int

/-- A new client; the clock, the process id and the bytes of the private key are arguments. -/
def clientCreate (nickname : CString) (securityCtx : SecurityContext) (timestamp pid : UInt32)
    (privateKey : Fin 32 → UInt8) : ClientT where
  nickname := nickname.take (maxNicknameLen - 1)
  connected := false
  securityCtx := securityCtx
  e2eCtx := e2eContextInit nickname timestamp pid privateKey

def securityContextValidate (ctx : SecurityContext) : Int :=
  if ∃ i, ctx.canaryStart i = 0 ∨ ctx.canaryEnd i = 0 then -1 else 0

def ClientT.setEncCtx (client : ClientT) (encCtx : EncryptionContext) : ClientT :=
  { client with securityCtx := { client.securityCtx with encCtx := encCtx } }

def clientSendMessage (client : ClientT) (message : CString) (sends : Bool) : Sent :=
  if !client.connected then ⟨client, none, -1⟩
  else if securityContextValidate client.securityCtx < 0 then ⟨client, none, -1⟩
  else
    let encrypted := encryptData client.securityCtx.encCtx message.bytes
      (UInt64.ofNat (bufferSize * 2))
    match encrypted.1 with
    | none => ⟨client.setEncCtx encrypted.2, none, -1⟩
    | some frame => ⟨client.setEncCtx encrypted.2, some frame, if sends then 0 else -1⟩

/-- The text that carries a packet: a keyword and the bytes of the packet in hexadecimal. -/
def hexMessage (keyword : CString) (image : List UInt8) : CString :=
  keyword ++ CString.ofBuffer (hexEncode image)

def clientBroadcastPublicKey (client : ClientT) (sends : Bool) : Sent :=
  if !client.connected then ⟨client, none, -1⟩
  else clientSendMessage client
    (hexMessage "/keyexchange:" (e2eCreateKeyExchangePacket client.e2eCtx).image) sends

/-- The key that `client_connect_to_server` starts from. -/
def sessionKey (i : Fin 32) : UInt8 := (0x42 + UInt8.ofNat i) ^^^ 0xAB

/-- `client_connect_to_server` behind the handshake. That the broadcast fails is only logged. -/
def clientConnectToServer (client : ClientT) (sends : Bool) : Sent :=
  if client.connected then ⟨client, none, 0⟩
  else
    let client := client.setEncCtx (initEncryptionContext client.securityCtx.encCtx sessionKey)
    let broadcast := clientBroadcastPublicKey client sends
    ⟨{ broadcast.client with connected := true }, broadcast.frame, 0⟩

/-- The farewell is sent as it is, not encrypted. -/
def clientDisconnect (client : ClientT) : Sent :=
  ⟨{ client with connected := false },
    if client.connected then some (CString.bytes "/quit") else none, 0⟩

/-- Our own key is not added. -/
def clientHandleKeyExchange (client : ClientT) (keyPacket : E2eKeyExchangePacket) :
    ClientT × Int :=
  if keyPacket.userId = client.e2eCtx.myKeys.userId then (client, 0)
  else
    let added := e2eAddPeerKey client.e2eCtx keyPacket
    ({ client with e2eCtx := added.1 }, if added.2 < 0 then -1 else 0)

/-- The key is that of another user, and the table takes it. -/
def TakesKey (client : ClientT) (keyPacket : E2eKeyExchangePacket) : Prop :=
  keyPacket.userId ≠ client.e2eCtx.myKeys.userId ∧ client.e2eCtx.numPeers < maxClientsE2e ∧
    e2eVerifyKeyExchangePacket keyPacket = true

instance (client : ClientT) (keyPacket : E2eKeyExchangePacket) :
    Decidable (TakesKey client keyPacket) :=
  inferInstanceAs (Decidable (_ ∧ _ ∧ _))

def clientParseKeyExchange (hexData : CString) : Option E2eKeyExchangePacket :=
  if hexData.length ≠ keyExchangePacketSize * 2 then none
  else (hexDecode keyExchangePacketSize hexData.bytes).map E2eKeyExchangePacket.ofImage

/-- `sizeof(e2e_encrypted_packet_t)`, where `size_t` has eight bytes. -/
def encryptedPacketSize : Nat := 16 + 16 + 1024 + 8 + 32

namespace E2eEncryptedPacket

/-- The bytes of the packet in memory. -/
def image (packet : E2eEncryptedPacket) : List UInt8 :=
  List.ofFn packet.senderId ++ (List.ofFn packet.recipientId ++
    (List.ofFn packet.encryptedData ++ (List.ofFn (bytesOf packet.encryptedLength) ++
      List.ofFn packet.signature)))

def ofImage (bytes : List UInt8) : E2eEncryptedPacket where
  senderId := field 16 bytes 0
  recipientId := field 16 bytes 16
  encryptedData := field e2eMaxMessageSize bytes 32
  encryptedLength := littleEndian (field 8 bytes 1056)
  signature := field 32 bytes 1064

@[simp] theorem length_image (packet : E2eEncryptedPacket) :
    packet.image.length = encryptedPacketSize := by
  simp only [image, List.length_append, List.length_ofFn, e2eMaxMessageSize, encryptedPacketSize]

theorem ofImage_image (packet : E2eEncryptedPacket) : ofImage packet.image = packet := by
  have hsender : field 16 packet.image 0 = packet.senderId :=
    @field_segment 16 0 [] _ packet.senderId rfl
  have hrecipient : field 16 packet.image 16 = packet.recipientId :=
    field_segment packet.recipientId (by simp only [List.length_ofFn])
  have hdata : field e2eMaxMessageSize packet.image 32 = packet.encryptedData := by
    rw [image, ← List.append_assoc]
    exact field_segment packet.encryptedData (by simp only [List.length_append, List.length_ofFn])
  have hlength : field 8 packet.image 1056 = bytesOf packet.encryptedLength := by
    rw [image, ← List.append_assoc, ← List.append_assoc]
    exact field_segment (bytesOf packet.encryptedLength)
      (by simp only [List.length_append, List.length_ofFn, e2eMaxMessageSize])
  have hsignature : field 32 packet.image 1064 = packet.signature := by
    rw [image, ← List.append_assoc, ← List.append_assoc, ← List.append_assoc,
      ← List.append_nil (List.ofFn packet.signature)]
    exact field_segment packet.signature
      (by simp only [List.length_append, List.length_ofFn, e2eMaxMessageSize])
  rw [ofImage, hsender, hrecipient, hdata, hlength, hsignature, littleEndian_bytesOf]

theorem image_ofImage {bytes : List UInt8} (h : bytes.length = encryptedPacketSize) :
    (ofImage bytes).image = bytes := by
  have hlength : bytes.length = 1096 := h
  have hwhole : (bytes.drop 1064).take 32 = bytes.drop 1064 :=
    List.take_of_length_le (by rw [List.length_drop]; omega)
  rw [image, ofImage, bytesOf_littleEndian, ofFn_field (by omega), ofFn_field (by omega),
    ofFn_field (by rw [e2eMaxMessageSize]; omega), ofFn_field (by omega), ofFn_field (by omega),
    hwhole, take_append_drop_add bytes 1056 8, take_append_drop_add bytes 32 1024,
    take_append_drop_add bytes 16 16, take_append_drop_add bytes 0 16, List.drop_zero]

end E2eEncryptedPacket

/-- The user id behind a nickname, from the first active entry that has it. -/
def findRecipient (ctx : E2eContext) (nickname : CString) : Option (Fin 16 → UInt8) :=
  (Fin.find? fun i : Fin maxClientsE2e =>
    decide (i.val < ctx.numPeers) && ((ctx.peerKeys i).active &&
      (ctx.peerKeys i).nickname == nickname)).map fun i => (ctx.peerKeys i).userId

/-- `random` are the padding bytes, `memory` is the memory the packet is built in. -/
def clientSendE2eMessage (client : ClientT) (message recipientNickname : CString)
    (random : Nat → UInt8) (memory : E2eEncryptedPacket) (sends : Bool) : Sent :=
  if !client.connected then ⟨client, none, -1⟩
  else
    match findRecipient client.e2eCtx recipientNickname with
    | none => ⟨client, none, -1⟩
    | some recipientId =>
      match e2eEncryptMessage client.e2eCtx message recipientId random memory with
      | none => ⟨client, none, -1⟩
      | some packet => clientSendMessage client (hexMessage "/e2emsg:" packet.image) sends

def parseE2ePacket (hexData : CString) : Option E2eEncryptedPacket :=
  if hexData.length ≠ encryptedPacketSize * 2 then none
  else (hexDecode encryptedPacketSize hexData.bytes).map E2eEncryptedPacket.ofImage

/-- The size of `decrypted_message`. -/
def decryptedSize : UInt64 := 1024

/-- The line that is displayed: the sender's name and the text of the message. -/
def clientHandleE2eMessage (client : ClientT) (hexData : CString) :
    Option (CString × CString) :=
  match parseE2ePacket hexData with
  | none => none
  | some packet =>
    match (e2eDecryptMessage client.e2eCtx packet decryptedSize).value with
    | none => none
    | some text =>
      some (((e2eFindPeerKey client.e2eCtx packet.senderId).map E2ePeerKey.nickname).getD
        "Unknown", CString.ofBuffer text)

theorem bytes_ofBuffer_hexEncode (image : List UInt8) :
    (CString.ofBuffer (hexEncode image)).bytes = hexEncode image := by
  apply CString.ofBuffer_of_noNul
  intro h
  exact absurd (hexValue_of_mem_hexEncode h) (by decide)

/-- Both parsers read back what was encoded. -/
theorem clientParseKeyExchange_image (packet : E2eKeyExchangePacket) :
    clientParseKeyExchange (CString.ofBuffer (hexEncode packet.image)) = some packet := by
  have hlength := packet.length_image
  unfold clientParseKeyExchange
  rw [if_neg, bytes_ofBuffer_hexEncode, ← hlength, hexDecode_hexEncode, Option.map_some,
    E2eKeyExchangePacket.ofImage_image]
  rw [CString.length, bytes_ofBuffer_hexEncode, length_hexEncode, hlength, Nat.mul_comm]
  exact not_not.mpr rfl

theorem parseE2ePacket_image (packet : E2eEncryptedPacket) :
    parseE2ePacket (CString.ofBuffer (hexEncode packet.image)) = some packet := by
  have hlength := packet.length_image
  unfold parseE2ePacket
  rw [if_neg, bytes_ofBuffer_hexEncode, ← hlength, hexDecode_hexEncode, Option.map_some,
    E2eEncryptedPacket.ofImage_image]
  rw [CString.length, bytes_ofBuffer_hexEncode, length_hexEncode, hlength, Nat.mul_comm]
  exact not_not.mpr rfl

section KeyExchange
variable {client : ClientT} {packet : E2eKeyExchangePacket} {userId : Fin 16 → UInt8}

theorem handleKeyExchange_taken (h : TakesKey client packet) :
    ∃ i : Fin maxClientsE2e,
      (i.val < client.e2eCtx.numPeers ∧ (client.e2eCtx.peerKeys i).userId = packet.userId ∨
        i.val = client.e2eCtx.numPeers) ∧
      (∀ j < i, j.val < client.e2eCtx.numPeers →
        (client.e2eCtx.peerKeys j).userId ≠ packet.userId) ∧
      clientHandleKeyExchange client packet =
        ({ client with e2eCtx := client.e2eCtx.enter i packet.entry }, 0) := by
  obtain ⟨hother, hspace, hverify⟩ := h
  obtain ⟨i, hslot, hfirst, heq⟩ := addPeerKey_cases hspace hverify
  refine ⟨i, hslot, hfirst, ?_⟩
  rw [clientHandleKeyExchange, if_neg hother, heq]
  rfl

/-- Our own key is ignored, any other that is not taken is refused. -/
theorem handleKeyExchange_not_taken (h : ¬ TakesKey client packet) :
    clientHandleKeyExchange client packet =
      (client, if packet.userId = client.e2eCtx.myKeys.userId then 0 else -1) := by
  unfold clientHandleKeyExchange
  split
  · rfl
  · rename_i hother
    have hrefused : e2eAddPeerKey client.e2eCtx packet = (client.e2eCtx, -1) := by
      rw [e2eAddPeerKey]
      split
      · rename_i hspace
        exact if_neg fun hverify => h ⟨hother, hspace, hverify⟩
      · rfl
    rw [hrefused]
    rfl

theorem takesKey_iff :
    TakesKey client packet ↔ packet.userId ≠ client.e2eCtx.myKeys.userId ∧
      (clientHandleKeyExchange client packet).2 = 0 := by
  constructor
  · intro h
    obtain ⟨i, _, _, heq⟩ := handleKeyExchange_taken h
    rw [heq]
    exact ⟨h.1, rfl⟩
  · intro h
    by_contra hnot
    have hcode := h.2
    rw [handleKeyExchange_not_taken hnot, if_neg h.1] at hcode
    cases hcode

theorem find_handleKeyExchange_self (h : TakesKey client packet) :
    e2eFindPeerKey (clientHandleKeyExchange client packet).1.e2eCtx packet.userId =
      some packet.entry := by
  obtain ⟨i, hslot, hfirst, heq⟩ := handleKeyExchange_taken h
  rw [heq]
  exact find_enter_self hslot hfirst rfl

theorem find_handleKeyExchange_of_ne (hne : userId ≠ packet.userId) :
    e2eFindPeerKey (clientHandleKeyExchange client packet).1.e2eCtx userId =
      e2eFindPeerKey client.e2eCtx userId := by
  by_cases h : TakesKey client packet
  · obtain ⟨i, hslot, _, heq⟩ := handleKeyExchange_taken h
    rw [heq]
    exact @find_enter_of_ne _ _ packet.entry hslot _ hne
  · rw [handleKeyExchange_not_taken h]

end KeyExchange

@[simp] theorem validate_eq_zero (ctx : SecurityContext) : securityContextValidate ctx = 0 := by
  rw [securityContextValidate, if_neg]
  intro h
  obtain ⟨i, hi⟩ := h
  have hne := ctx.canaries_ne_zero i
  rcases hi with hstart | hend
  · exact hne.1 hstart
  · exact hne.2 hend

end TcpChat.Client
