import TcpChat.Base.CString
import TcpChat.Sizes

/-!
# The handshake packet

Both programs declare the same `handshake_packet_t`. The nickname is a raw buffer: whether it
holds a terminator is up to the sender.
-/

namespace TcpChat

open Base
set_option autoImplicit false

structure HandshakePacket where
  type : UInt8
  seqNum : UInt32
  ackNum : UInt32
  nickname : Vector UInt8 32
  padding : Vector UInt8 7
  deriving DecidableEq

def handshakeTypeSyn : UInt8 := 0
def handshakeTypeSynAck : UInt8 := 1
def handshakeTypeAck : UInt8 := 2

namespace HandshakePacket

/-- `handshake_packet_t packet = {0}`. -/
def zero : HandshakePacket := ⟨0, 0, 0, .replicate 32 0, .replicate 7 0⟩

/-- `strncpy(packet.nickname, s, MAX_NICKNAME_LEN - 1)` on a zeroed buffer: a copy of at most
31 bytes, the rest stays zero. -/
def setNickname (packet : HandshakePacket) (s : CString) : HandshakePacket :=
  { packet with nickname := Vector.ofFn fun i => (s.take (maxNicknameLen - 1)).bytes.getD i 0 }

/-- The string a reader finds at `packet.nickname`. Without a terminator in the 32 bytes the
reader runs on into the padding. -/
def nicknameString (packet : HandshakePacket) : CString :=
  CString.ofBuffer (packet.nickname.toList ++ packet.padding.toList)

/-- Four bytes of a number, the lowest first. -/
def bytesOfUInt32 (n : UInt32) : List UInt8 :=
  (List.range 4).map fun i => (n >>> UInt32.ofNat (8 * i)).toUInt8

/-- The 52 bytes of the structure in memory, where the numbers are aligned. Its padding is what
the initializer leaves. -/
def image (packet : HandshakePacket) : List UInt8 :=
  packet.type :: 0 :: 0 :: 0 :: (bytesOfUInt32 packet.seqNum ++ bytesOfUInt32 packet.ackNum ++
    packet.nickname.toList ++ packet.padding.toList ++ [0])

/-- The copy is terminated in the buffer, so nothing of the padding is read. -/
theorem nicknameString_setNickname (packet : HandshakePacket) (s : CString) :
    (packet.setNickname s).nicknameString = s.take (maxNicknameLen - 1) := by
  have hle : (s.take (maxNicknameLen - 1)).bytes.length ≤ 32 := by
    simp only [CString.bytes_take, List.length_take, maxNicknameLen]
    omega
  have hzeros : 32 - (s.take (maxNicknameLen - 1)).bytes.length =
      31 - (s.take (maxNicknameLen - 1)).bytes.length + 1 := by
    simp only [CString.bytes_take, List.length_take, maxNicknameLen]
    omega
  rw [nicknameString, setNickname]
  simp only [Vector.toList_ofFn]
  rw [CString.ofFn_getD hle, hzeros, List.replicate_succ, List.append_assoc, List.cons_append]
  exact CString.ofBuffer_append_zero _ _

end HandshakePacket

end TcpChat
