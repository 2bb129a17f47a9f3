import TcpChat.HandshakePacket

/-!
# The handshake, client side (client/src/handshake_protocol.c)

`handshake_perform_client_side` on a connection whose sends succeed: it sends `synPacket`,
reads once, and sends `ackPacket` if what it has read acknowledges the SYN.
-/

namespace TcpChat.Client

open Base
set_option autoImplicit false

def synPacket (nickname : CString) (seqNum : UInt32) : HandshakePacket :=
  { HandshakePacket.zero with
    type := handshakeTypeSyn, seqNum := seqNum, ackNum := 0 }.setNickname nickname

def ackPacket (nickname : CString) (seqNum serverSeq : UInt32) : HandshakePacket :=
  { HandshakePacket.zero with
    type := handshakeTypeAck, seqNum := seqNum + 1, ackNum := serverSeq + 1 }.setNickname nickname

/-- The packet sent in answer to what was received in step 2, if the client does not give up. -/
def handshakeAnswer (nickname : CString) (seqNum : UInt32) (received : Option HandshakePacket) :
    Option HandshakePacket :=
  match received with
  | none => none
  | some synAckPacket =>
    if synAckPacket.type ≠ handshakeTypeSynAck then none
    else if synAckPacket.ackNum ≠ seqNum + 1 then none
    else some (ackPacket nickname seqNum synAckPacket.seqNum)

end TcpChat.Client
