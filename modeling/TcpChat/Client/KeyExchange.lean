import TcpChat.Base.Bytes
import TcpChat.Base.Slots
import TcpChat.Client.E2eEncryption

/-!
# Key exchange (client/src/e2e_encryption.c)

A key exchange packet and the peer table it is entered into. The nickname of a packet is a raw
buffer: whether it holds a terminator is up to the sender.
-/

namespace TcpChat.Client

open Base Base.Bytes Base.Slots
set_option autoImplicit false

structure E2eKeyExchangePacket where
  userId : Fin 16 → UInt8
  publicKey : Fin 32 → UInt8
  nickname : Fin 64 → UInt8
  signature : Fin 32 → UInt8

/-- `sizeof(e2e_key_exchange_packet_t)`: all fields are byte arrays. -/
def keyExchangePacketSize : Nat := 16 + 32 + 64 + 32

namespace E2eKeyExchangePacket

/-- The bytes of the packet in memory. -/
def image (packet : E2eKeyExchangePacket) : List UInt8 :=
  List.ofFn packet.userId ++ (List.ofFn packet.publicKey ++
    (List.ofFn packet.nickname ++ List.ofFn packet.signature))

def ofImage (bytes : List UInt8) : E2eKeyExchangePacket where
  userId := field 16 bytes 0
  publicKey := field 32 bytes 16
  nickname := field 64 bytes 48
  signature := field 32 bytes 112

/-- The string a reader finds at `packet->nickname` within its 64 bytes. -/
def nicknameString (packet : E2eKeyExchangePacket) : CString :=
  CString.ofBuffer (List.ofFn packet.nickname)

end E2eKeyExchangePacket

/-- The 112-byte `sig_input` folded onto the 32 signature bytes. Its last 16 bytes are not
reached. -/
def keyExchangeSignature (userId : Fin 16 → UInt8) (publicKey : Fin 32 → UInt8)
    (nickname : Fin 64 → UInt8) (i : Fin 32) : UInt8 :=
  let sigInput : Fin (16 + 32 + 64) → UInt8 := Fin.append (Fin.append userId publicKey) nickname
  sigInput ⟨i.val, by omega⟩ ^^^ sigInput ⟨i.val + 32, by omega⟩ ^^^
    sigInput ⟨i.val + 64, by omega⟩ ^^^ UInt8.ofNat (i.val * 19)

def e2eCreateKeyExchangePacket (ctx : E2eContext) : E2eKeyExchangePacket :=
  let nickname : Fin 64 → UInt8 := fun i => (ctx.myKeys.nickname.take 63).bytes.getD i 0
  { userId := ctx.myKeys.userId
    publicKey := ctx.myKeys.publicKey
    nickname := nickname
    signature := keyExchangeSignature ctx.myKeys.userId ctx.myKeys.publicKey nickname }

def e2eVerifyKeyExchangePacket (packet : E2eKeyExchangePacket) : Bool :=
  packet.signature = keyExchangeSignature packet.userId packet.publicKey packet.nickname

/-- The entry of the table with this user id, active or not. -/
def findEntry (ctx : E2eContext) (userId : Fin 16 → UInt8) : Option (Fin maxClientsE2e) :=
  Fin.find? fun i => decide (i.val < ctx.numPeers) && (ctx.peerKeys i).userId == userId

/-- What a packet is stored as: the nickname is cut to 63 bytes. -/
def E2eKeyExchangePacket.entry (packet : E2eKeyExchangePacket) : E2ePeerKey where
  publicKey := packet.publicKey
  userId := packet.userId
  nickname := packet.nicknameString.take 63
  active := true

def e2eAddPeerKey (ctx : E2eContext) (packet : E2eKeyExchangePacket) : E2eContext × Int :=
  if h : ctx.numPeers < maxClientsE2e then
    if e2eVerifyKeyExchangePacket packet then
      match findEntry ctx packet.userId with
      | some i =>
        ({ ctx with peerKeys := Function.update ctx.peerKeys i packet.entry }, 0)
      | none =>
        ({ ctx with
           peerKeys := Function.update ctx.peerKeys ⟨ctx.numPeers, h⟩ packet.entry
           numPeers := ctx.numPeers + 1 }, 0)
    else (ctx, -1)
  else (ctx, -1)

/-- The entry stays in the table, inactive. -/
def e2eRemovePeerKey (ctx : E2eContext) (userId : Fin 16 → UInt8) : E2eContext × Int :=
  match findEntry ctx userId with
  | some i =>
    ({ ctx with
       peerKeys := Function.update ctx.peerKeys i
         { ctx.peerKeys i with active := false, publicKey := fun _ => 0 } }, 0)
  | none => (ctx, -1)

namespace E2eKeyExchangePacket

@[simp] theorem length_image (packet : E2eKeyExchangePacket) :
    packet.image.length = keyExchangePacketSize := by
  simp [image, keyExchangePacketSize]

theorem ofImage_image (packet : E2eKeyExchangePacket) : ofImage packet.image = packet := by
  have huser : field 16 packet.image 0 = packet.userId :=
    @field_segment 16 0 [] _ packet.userId rfl
  have hkey : field 32 packet.image 16 = packet.publicKey :=
    field_segment packet.publicKey (by simp)
  have hnickname : field 64 packet.image 48 = packet.nickname := by
    rw [image, ← List.append_assoc]
    exact field_segment packet.nickname (by simp)
  have hsignature : field 32 packet.image 112 = packet.signature := by
    rw [image, ← List.append_assoc, ← List.append_assoc,
      ← List.append_nil (List.ofFn packet.signature)]
    exact field_segment packet.signature (by simp)
  rw [ofImage, huser, hkey, hnickname, hsignature]

theorem image_ofImage {bytes : List UInt8} (h : bytes.length = keyExchangePacketSize) :
    (ofImage bytes).image = bytes := by
  have hlength : bytes.length = 144 := h
  rw [image, ofImage, ofFn_field (by omega), ofFn_field (by omega), ofFn_field (by omega),
    ofFn_field (by omega)]
  have hwhole : (bytes.drop 112).take 32 = bytes.drop 112 :=
    List.take_of_length_le (by rw [List.length_drop]; omega)
  rw [hwhole, take_append_drop_add bytes 48 64, take_append_drop_add bytes 16 32,
    take_append_drop_add bytes 0 16, List.drop_zero]

end E2eKeyExchangePacket

section Created
variable (ctx : E2eContext)

theorem verify_create : e2eVerifyKeyExchangePacket (e2eCreateKeyExchangePacket ctx) = true := by
  simp [e2eVerifyKeyExchangePacket, e2eCreateKeyExchangePacket]

/-- A nickname that fits the buffer is stored whole. -/
theorem entry_create (h : ctx.myKeys.nickname.length ≤ 63) :
    (e2eCreateKeyExchangePacket ctx).entry =
      { publicKey := ctx.myKeys.publicKey
        userId := ctx.myKeys.userId
        nickname := ctx.myKeys.nickname
        active := true } := by
  have hwhole : ctx.myKeys.nickname.take 63 = ctx.myKeys.nickname := CString.take_of_length_le h
  have hlen : ctx.myKeys.nickname.bytes.length ≤ 64 := Nat.le_succ_of_le h
  have hzeros : 64 - ctx.myKeys.nickname.bytes.length =
      63 - ctx.myKeys.nickname.bytes.length + 1 := by
    have hle : ctx.myKeys.nickname.bytes.length ≤ 63 := h
    omega
  have hstring : (e2eCreateKeyExchangePacket ctx).nicknameString = ctx.myKeys.nickname := by
    rw [E2eKeyExchangePacket.nicknameString, e2eCreateKeyExchangePacket]
    simp only [hwhole]
    rw [CString.ofFn_getD hlen, hzeros, List.replicate_succ, CString.ofBuffer_append_zero]
  rw [E2eKeyExchangePacket.entry, hstring, hwhole]
  rfl

end Created

section Lookup
variable {ctx : E2eContext}

theorem e2eFindPeerKey_eq_some_iff {userId : Fin 16 → UInt8} {peer : E2ePeerKey} :
    e2eFindPeerKey ctx userId = some peer ↔
      ∃ i : Fin maxClientsE2e, ctx.peerKeys i = peer ∧
        (i.val < ctx.numPeers ∧ (ctx.peerKeys i).active = true ∧
          (ctx.peerKeys i).userId = userId) ∧
        ∀ j < i, ¬ (j.val < ctx.numPeers ∧ (ctx.peerKeys j).active = true ∧
          (ctx.peerKeys j).userId = userId) := by
  rw [e2eFindPeerKey, find?_takeWhile_lt, Option.map_eq_some_iff]
  simp only [Fin.find?_eq_some_iff, Bool.and_eq_true, decide_eq_true_eq, beq_iff_eq,
    Bool.eq_false_iff, ne_eq]
  constructor
  · intro h
    obtain ⟨i, hi, hpeer⟩ := h
    exact ⟨i, hpeer, hi⟩
  · intro h
    obtain ⟨i, hpeer, hi⟩ := h
    exact ⟨i, hi, hpeer⟩

theorem e2eFindPeerKey_eq_none_iff {userId : Fin 16 → UInt8} :
    e2eFindPeerKey ctx userId = none ↔
      ∀ i : Fin maxClientsE2e, ¬ (i.val < ctx.numPeers ∧ (ctx.peerKeys i).active = true ∧
        (ctx.peerKeys i).userId = userId) := by
  rw [e2eFindPeerKey, find?_takeWhile_lt, Option.map_eq_none_iff, Fin.find?_eq_none_iff]
  simp

theorem findEntry_eq_some_iff (userId : Fin 16 → UInt8) (i : Fin maxClientsE2e) :
    findEntry ctx userId = some i ↔
      (i.val < ctx.numPeers ∧ (ctx.peerKeys i).userId = userId) ∧
        ∀ j < i, ¬ (j.val < ctx.numPeers ∧ (ctx.peerKeys j).userId = userId) := by
  rw [findEntry, Fin.find?_eq_some_iff]
  simp only [Bool.and_eq_true, decide_eq_true_eq, beq_iff_eq, Bool.eq_false_iff, ne_eq]

theorem findEntry_eq_none_iff (userId : Fin 16 → UInt8) :
    findEntry ctx userId = none ↔
      ∀ i, ¬ (i.val < ctx.numPeers ∧ (ctx.peerKeys i).userId = userId) := by
  rw [findEntry, Fin.find?_eq_none_iff]
  simp

end Lookup

section Add
variable {ctx : E2eContext} {packet : E2eKeyExchangePacket}

/-- The table with `entry` written to slot `i`, which is in use from then on. -/
def E2eContext.enter (ctx : E2eContext) (i : Fin maxClientsE2e) (entry : E2ePeerKey) :
    E2eContext :=
  { ctx with
    peerKeys := Function.update ctx.peerKeys i entry, numPeers := max ctx.numPeers (i + 1) }

theorem E2eContext.enter_self (ctx : E2eContext) (i : Fin maxClientsE2e) (entry : E2ePeerKey) :
    (ctx.enter i entry).peerKeys i = entry :=
  Function.update_self ..

theorem E2eContext.enter_of_ne (ctx : E2eContext) {i j : Fin maxClientsE2e} (entry : E2ePeerKey)
    (h : j ≠ i) : (ctx.enter i entry).peerKeys j = ctx.peerKeys j :=
  Function.update_of_ne h ..

/-- A verified packet goes to the first slot with its user id, or else to the next free one. -/
theorem addPeerKey_cases (hspace : ctx.numPeers < maxClientsE2e)
    (hverify : e2eVerifyKeyExchangePacket packet = true) :
    ∃ i, (i.val < ctx.numPeers ∧ (ctx.peerKeys i).userId = packet.userId ∨
        i.val = ctx.numPeers) ∧
      (∀ j < i, j.val < ctx.numPeers → (ctx.peerKeys j).userId ≠ packet.userId) ∧
      e2eAddPeerKey ctx packet = (ctx.enter i packet.entry, 0) := by
  unfold e2eAddPeerKey
  rw [dif_pos hspace, if_pos hverify]
  cases hfind : findEntry ctx packet.userId with
  | some i =>
    obtain ⟨⟨hi, hid⟩, hfirst⟩ := (findEntry_eq_some_iff _ _).mp hfind
    refine ⟨i, Or.inl ⟨hi, hid⟩, fun j hj hlt heq => hfirst j hj ⟨hlt, heq⟩, ?_⟩
    dsimp only
    rw [E2eContext.enter, Nat.max_eq_left hi]
  | none =>
    have hnone := (findEntry_eq_none_iff _).mp hfind
    refine ⟨⟨ctx.numPeers, hspace⟩, Or.inr rfl, fun j _ hlt heq => hnone j ⟨hlt, heq⟩, ?_⟩
    dsimp only
    rw [E2eContext.enter, Nat.max_eq_right (Nat.le_succ _)]

section Enter
variable {i : Fin maxClientsE2e} {entry : E2ePeerKey}
  (hslot : i.val < ctx.numPeers ∧ (ctx.peerKeys i).userId = entry.userId ∨ i.val = ctx.numPeers)
  (hfirst : ∀ j < i, j.val < ctx.numPeers → (ctx.peerKeys j).userId ≠ entry.userId)
include hslot hfirst

theorem find_enter_self (hactive : entry.active = true) :
    e2eFindPeerKey (ctx.enter i entry) entry.userId = some entry := by
  rw [e2eFindPeerKey_eq_some_iff]
  have hself := ctx.enter_self i entry
  refine ⟨i, hself, ⟨?_, by rw [hself, hactive], by rw [hself]⟩, ?_⟩
  · simp only [E2eContext.enter]
    omega
  · intro j hj hmatch
    rw [ctx.enter_of_ne entry (Fin.ne_of_lt hj)] at hmatch
    exact hfirst j hj (by omega) hmatch.2.2

omit hfirst in
theorem find_enter_of_ne {userId : Fin 16 → UInt8} (hne : userId ≠ entry.userId) :
    e2eFindPeerKey (ctx.enter i entry) userId = e2eFindPeerKey ctx userId := by
  have hsame : ∀ j : Fin maxClientsE2e,
      (j.val < (ctx.enter i entry).numPeers ∧ ((ctx.enter i entry).peerKeys j).active = true ∧
        ((ctx.enter i entry).peerKeys j).userId = userId) ↔
      (j.val < ctx.numPeers ∧ (ctx.peerKeys j).active = true ∧
        (ctx.peerKeys j).userId = userId) := by
    intro j
    by_cases hj : j = i
    · rw [hj]
      rw [ctx.enter_self]
      constructor
      · intro h
        exact absurd h.2.2.symm hne
      · intro h
        rcases hslot with ⟨_, hid⟩ | hfree
        · exact absurd (h.2.2.symm.trans hid) hne
        · omega
    · have hval : j.val ≠ i.val := fun heq => hj (Fin.ext heq)
      rw [ctx.enter_of_ne entry hj]
      simp only [E2eContext.enter]
      constructor
      · intro h
        exact ⟨by omega, h.2⟩
      · intro h
        exact ⟨by omega, h.2⟩
  -- an entry with this user id is not the one that was written
  have houtside : ∀ j : Fin maxClientsE2e, (j.val < ctx.numPeers ∧
      (ctx.peerKeys j).active = true ∧ (ctx.peerKeys j).userId = userId) →
      (ctx.enter i entry).peerKeys j = ctx.peerKeys j := by
    intro j hj
    apply ctx.enter_of_ne
    intro heq
    rw [heq] at hj
    rcases hslot with ⟨_, hid⟩ | hfree
    · exact hne (hj.2.2.symm.trans hid)
    · omega
  apply Option.ext
  intro peer
  simp only [e2eFindPeerKey_eq_some_iff, hsame]
  constructor
  · intro h
    obtain ⟨j, hpeer, hj, hbefore⟩ := h
    exact ⟨j, (houtside j hj).symm.trans hpeer, hj, hbefore⟩
  · intro h
    obtain ⟨j, hpeer, hj, hbefore⟩ := h
    exact ⟨j, (houtside j hj).trans hpeer, hj, hbefore⟩

end Enter

end Add

end TcpChat.Client
