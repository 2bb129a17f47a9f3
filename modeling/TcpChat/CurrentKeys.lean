import TcpChat.Base.Runs
import TcpChat.Base.WriteLog
import TcpChat.PeerMap
import TcpChat.Client.Client

/-!
# Whose key a message is sent under

The peer table is keyed by user id and searched by nickname, and no entry ever goes. The first
entry with a nickname wins, be it of a user who has left; so user ids and nicknames have to go
together.
-/

namespace TcpChat.Client

open Base Base.Runs Base.WriteLog
set_option autoImplicit false

/-- The packet that `client_send_e2e_message` builds. -/
def e2ePacketFor (client : ClientT) (message recipientNickname : CString) (random : Nat → UInt8)
    (memory : E2eEncryptedPacket) : Option E2eEncryptedPacket :=
  if !client.connected then none
  else (findRecipient client.e2eCtx recipientNickname).bind fun recipientId =>
    e2eEncryptMessage client.e2eCtx message recipientId random memory

/-- A client, and the key exchanges it has accepted, the last one at the end. -/
structure Exchanges where
  client : ClientT
  accepted : List E2eKeyExchangePacket

/-- Another user's key is accepted when the handler returns 0. -/
def Exchanges.step (ex : Exchanges) (packet : E2eKeyExchangePacket) : Exchanges where
  client := (clientHandleKeyExchange ex.client packet).1
  accepted :=
    if packet.userId ≠ ex.client.e2eCtx.myKeys.userId ∧
        (clientHandleKeyExchange ex.client packet).2 = 0 then ex.accepted ++ [packet]
    else ex.accepted

/-- The user id and the key that the last accepted key exchange with each nickname carried. -/
def Exchanges.announced (ex : Exchanges) :
    CString → Option ((Fin 16 → UInt8) × (Fin 32 → UInt8)) :=
  latest (ex.accepted.map fun packet =>
    (packet.nicknameString, some (packet.userId, packet.publicKey)))

/-- A message to the nickname goes out as `packet`. -/
structure SentAs (client : ClientT) (message recipientNickname : CString) (random : Nat → UInt8)
    (memory packet : E2eEncryptedPacket) : Prop where
  built : e2ePacketFor client message recipientNickname random memory = some packet
  sent : ∀ sends, clientSendE2eMessage client message recipientNickname random memory sends =
    clientSendMessage client (hexMessage "/e2emsg:" packet.image) sends

/-- What is sent to a nickname goes to the user who last announced it, under the key he last
announced it with. -/
def SendsToCurrent (ex : Exchanges) : Prop :=
  ∀ nickname userId publicKey, ex.announced nickname = some (userId, publicKey) →
    ∀ message random memory, message.length < e2eMaxMessageSize - 32 →
      SentAs ex.client message nickname random memory
        (sealedPacket ex.client.e2eCtx.myKeys.userId userId
          (deriveSharedSecret ex.client.e2eCtx.myKeys.privateKey publicKey) message random memory)

/-- The nickname of the packet is terminated, and it stands in the same slots as the user id. -/
structure Consistent (ctx : E2eContext) (packet : E2eKeyExchangePacket) : Prop where
  terminated : packet.nicknameString.length ≤ 63
  same_slots : ∀ j : Fin maxClientsE2e, j.val < ctx.numPeers →
    ((ctx.peerKeys j).userId = packet.userId ↔ (ctx.peerKeys j).nickname = packet.nicknameString)

def IdWithName (client : ClientT) (packet : E2eKeyExchangePacket) : Prop :=
  TakesKey client packet → Consistent client.e2eCtx packet

section Lookup
variable {ctx : E2eContext} {nickname : CString} {userId : Fin 16 → UInt8}
  {publicKey : Fin 32 → UInt8}

/-- Slot `j` is in use for `nickname`. -/
def Named (ctx : E2eContext) (j : Fin maxClientsE2e) (nickname : CString) : Prop :=
  j.val < ctx.numPeers ∧ (ctx.peerKeys j).active = true ∧ (ctx.peerKeys j).nickname = nickname

theorem findRecipient_eq_some_iff :
    findRecipient ctx nickname = some userId ↔
      ∃ i, (ctx.peerKeys i).userId = userId ∧ Named ctx i nickname ∧
        ∀ j < i, ¬ Named ctx j nickname := by
  rw [findRecipient, Option.map_eq_some_iff]
  simp only [Fin.find?_eq_some_iff, Bool.and_eq_true, decide_eq_true_eq, beq_iff_eq,
    Bool.eq_false_iff, ne_eq, Named]
  constructor
  · intro h
    obtain ⟨i, hi, hid⟩ := h
    exact ⟨i, hid, hi⟩
  · intro h
    obtain ⟨i, hid, hi⟩ := h
    exact ⟨i, hi, hid⟩

/-- A secret and a recipient can be told from the packet. -/
theorem sealedPacket_inj {senderId recipientId₁ recipientId₂ : Fin 16 → UInt8}
    {privateKey key₁ key₂ : Fin 32 → UInt8} {message : CString} {random : Nat → UInt8}
    {memory : E2eEncryptedPacket}
    (h : sealedPacket senderId recipientId₁ (deriveSharedSecret privateKey key₁) message random
        memory =
      sealedPacket senderId recipientId₂ (deriveSharedSecret privateKey key₂) message random
        memory) :
    recipientId₁ = recipientId₂ ∧ key₁ = key₂ := by
  have hid : recipientId₁ = recipientId₂ := congrArg E2eEncryptedPacket.recipientId h
  refine ⟨hid, ?_⟩
  funext i
  have hsignature := congrFun (congrArg E2eEncryptedPacket.signature h) i
  simp only [sealedPacket, messageSignature_apply, deriveSharedSecret, hid,
    UInt8.xor_left_inj, UInt8.xor_right_inj] at hsignature
  exact hsignature

theorem sendE2eMessage_eq (client : ClientT) (message : CString) (random : Nat → UInt8)
    (memory : E2eEncryptedPacket) (sends : Bool) :
    clientSendE2eMessage client message nickname random memory sends =
      match e2ePacketFor client message nickname random memory with
      | none => ⟨client, none, -1⟩
      | some packet => clientSendMessage client (hexMessage "/e2emsg:" packet.image) sends := by
  unfold clientSendE2eMessage e2ePacketFor
  split
  · rfl
  · cases findRecipient client.e2eCtx nickname with
    | none => rfl
    | some recipientId => rfl

theorem sentAs_iff {client : ClientT} {message : CString} {random : Nat → UInt8}
    {memory packet : E2eEncryptedPacket} :
    SentAs client message nickname random memory packet ↔
      e2ePacketFor client message nickname random memory = some packet := by
  constructor
  · exact fun h => h.built
  · intro hbuilt
    refine ⟨hbuilt, fun sends => ?_⟩
    rw [sendE2eMessage_eq, hbuilt]

/-- The packet for a nickname is that for a user and a key when the lookups find the two. -/
theorem sentAs_sealedPacket_iff {client : ClientT} (hconnected : client.connected = true) :
    (∀ message random memory, message.length < e2eMaxMessageSize - 32 →
      SentAs client message nickname random memory
        (sealedPacket client.e2eCtx.myKeys.userId userId
          (deriveSharedSecret client.e2eCtx.myKeys.privateKey publicKey) message random memory)) ↔
    findRecipient client.e2eCtx nickname = some userId ∧
      ∃ peer, e2eFindPeerKey client.e2eCtx userId = some peer ∧ peer.publicKey = publicKey := by
  have hopen : ∀ message random memory, e2ePacketFor client message nickname random memory =
      (findRecipient client.e2eCtx nickname).bind fun recipientId =>
        e2eEncryptMessage client.e2eCtx message recipientId random memory := by
    intro message random memory
    rw [e2ePacketFor, if_neg (by simp [hconnected])]
  constructor
  · intro h
    have hempty := (h .empty (fun _ => 0) .zeroed (by decide)).built
    rw [hopen, Option.bind_eq_some_iff] at hempty
    obtain ⟨recipientId, hrecipient, hencrypt⟩ := hempty
    obtain ⟨peer, hpeer, _, hpacket⟩ := e2eEncryptMessage_eq_some_iff.mp hencrypt
    obtain ⟨rfl, rfl⟩ := sealedPacket_inj hpacket
    exact ⟨hrecipient, peer, hpeer, rfl⟩
  · intro h message random memory hshort
    obtain ⟨hrecipient, peer, hpeer, rfl⟩ := h
    rw [sentAs_iff, hopen, hrecipient, Option.bind_some]
    exact e2eEncryptMessage_eq_some_iff.mpr ⟨peer, hpeer, hshort, rfl⟩

end Lookup

/-- Every slot in use is that of one user under one nickname, and holds the key that was last
announced with it. -/
structure KeysOk (ex : Exchanges) : Prop where
  connected : ex.client.connected = true
  ids_distinct : IdsDistinct ex.client.e2eCtx
  all_active : ∀ i : Fin maxClientsE2e, i.val < ex.client.e2eCtx.numPeers →
    (ex.client.e2eCtx.peerKeys i).active = true
  names_distinct : ∀ i j : Fin maxClientsE2e, i.val < ex.client.e2eCtx.numPeers →
    j.val < ex.client.e2eCtx.numPeers →
    (ex.client.e2eCtx.peerKeys i).nickname = (ex.client.e2eCtx.peerKeys j).nickname → i = j
  announced_iff : ∀ nickname w, ex.announced nickname = some w ↔
    ∃ i : Fin maxClientsE2e, i.val < ex.client.e2eCtx.numPeers ∧
      (ex.client.e2eCtx.peerKeys i).nickname = nickname ∧
      ((ex.client.e2eCtx.peerKeys i).userId, (ex.client.e2eCtx.peerKeys i).publicKey) = w

section State
variable {ex : Exchanges} {packet : E2eKeyExchangePacket}

theorem KeysOk.start {client : ClientT} (hconnected : client.connected = true)
    (hempty : client.e2eCtx.numPeers = 0) : KeysOk ⟨client, []⟩ := by
  have hnone : ∀ i : Fin maxClientsE2e, ¬ i.val < client.e2eCtx.numPeers := by
    intro i hi
    rw [hempty] at hi
    exact Nat.not_lt_zero _ hi
  refine ⟨hconnected, fun i _ hi => absurd hi (hnone i), fun i hi => absurd hi (hnone i),
    fun i _ hi => absurd hi (hnone i), fun nickname w => ?_⟩
  constructor
  · intro h
    cases h
  · intro h
    obtain ⟨i, hi, _⟩ := h
    exact absurd hi (hnone i)

theorem KeysOk.sendsToCurrent (ok : KeysOk ex) : SendsToCurrent ex := by
  intro nickname userId publicKey hannounced
  apply (sentAs_sealedPacket_iff ok.connected).mpr
  obtain ⟨i, hi, hname, hw⟩ := (ok.announced_iff _ _).mp hannounced
  obtain ⟨hid, hkey⟩ := Prod.mk.inj hw
  constructor
  · refine findRecipient_eq_some_iff.mpr ⟨i, hid, ⟨hi, ok.all_active i hi, hname⟩, ?_⟩
    intro j hj hnamed
    have hsame := ok.names_distinct j i hnamed.1 hi (hnamed.2.2.trans hname.symm)
    rw [hsame] at hj
    exact absurd hj (lt_irrefl i)
  · refine ⟨ex.client.e2eCtx.peerKeys i, ?_, hkey⟩
    refine e2eFindPeerKey_eq_some_iff.mpr ⟨i, rfl, ⟨hi, ok.all_active i hi, hid⟩, ?_⟩
    intro j hj hother
    have hsame := ok.ids_distinct j i hother.1 hi (hother.2.2.trans hid.symm)
    rw [hsame] at hj
    exact absurd hj (lt_irrefl i)

theorem step_not_taken (h : ¬ TakesKey ex.client packet) : ex.step packet = ex := by
  have hkept : ¬ (packet.userId ≠ ex.client.e2eCtx.myKeys.userId ∧
      (clientHandleKeyExchange ex.client packet).2 = 0) := fun htaken => h (takesKey_iff.mpr htaken)
  rw [Exchanges.step, if_neg hkept, handleKeyExchange_not_taken h]

/-- The exchanges after a packet that is entered in slot `i`. -/
structure Entered (ex ex' : Exchanges) (packet : E2eKeyExchangePacket) (i : Fin maxClientsE2e) :
    Prop where
  slot : i.val < ex.client.e2eCtx.numPeers ∧
      (ex.client.e2eCtx.peerKeys i).userId = packet.userId ∨
    i.val = ex.client.e2eCtx.numPeers
  first : ∀ j < i, j.val < ex.client.e2eCtx.numPeers →
    (ex.client.e2eCtx.peerKeys j).userId ≠ packet.userId
  client_eq : ex'.client = { ex.client with e2eCtx := ex.client.e2eCtx.enter i packet.entry }
  announced_self : ex'.announced packet.nicknameString = some (packet.userId, packet.publicKey)
  announced_other : ∀ nickname, nickname ≠ packet.nicknameString →
    ex'.announced nickname = ex.announced nickname

theorem step_taken (h : TakesKey ex.client packet) :
    ∃ i, Entered ex (ex.step packet) packet i := by
  obtain ⟨i, hslot, hfirst, heq⟩ := handleKeyExchange_taken h
  have haccepted : (ex.step packet).accepted = ex.accepted ++ [packet] := by
    rw [Exchanges.step, if_pos (takesKey_iff.mp h)]
  refine ⟨i, hslot, hfirst, ?_, ?_, fun nickname hne => ?_⟩
  · rw [Exchanges.step, heq]
  · rw [Exchanges.announced, haccepted, List.map_append]
    exact latest_concat_self _ _ _
  · rw [Exchanges.announced, haccepted, List.map_append]
    exact latest_concat_of_ne _ _ hne

section Entered
variable {ex' : Exchanges} {i j : Fin maxClientsE2e}

theorem Entered.entry_self (h : Entered ex ex' packet i) :
    i.val < ex'.client.e2eCtx.numPeers ∧ ex'.client.e2eCtx.peerKeys i = packet.entry := by
  rw [h.client_eq]
  refine ⟨?_, E2eContext.enter_self ..⟩
  simp only [E2eContext.enter]
  omega

/-- The other slots in use are as before, and none of them has the user id. -/
theorem Entered.entry_other (h : Entered ex ex' packet i) (ok : KeysOk ex) (hj : j ≠ i) :
    (j.val < ex'.client.e2eCtx.numPeers ↔ j.val < ex.client.e2eCtx.numPeers) ∧
      ex'.client.e2eCtx.peerKeys j = ex.client.e2eCtx.peerKeys j ∧
      (j.val < ex.client.e2eCtx.numPeers →
        (ex.client.e2eCtx.peerKeys j).userId ≠ packet.userId) := by
  have hval : j.val ≠ i.val := fun heq => hj (Fin.ext heq)
  rw [h.client_eq]
  refine ⟨?_, E2eContext.enter_of_ne _ _ hj, fun hlt hid => ?_⟩
  · have hslot := h.slot
    simp only [E2eContext.enter]
    omega
  · rcases h.slot with ⟨hi, hsame⟩ | hfree
    · exact hj (ok.ids_distinct j i hlt hi (hid.trans hsame.symm))
    · exact h.first j (Fin.lt_def.mpr (by omega)) hlt hid

section Keeps
variable (h : Entered ex ex' packet i) (ok : KeysOk ex)
  (hpacket : Consistent ex.client.e2eCtx packet)
include h

theorem Entered.nickname_self (hpacket : Consistent ex.client.e2eCtx packet) :
    (ex'.client.e2eCtx.peerKeys i).nickname = packet.nicknameString := by
  rw [h.entry_self.2]
  exact CString.take_of_length_le hpacket.terminated

include ok hpacket

/-- What is known of another slot that is in use afterwards. -/
theorem Entered.nickname_other (hji : j ≠ i) (hj : j.val < ex'.client.e2eCtx.numPeers) :
    j.val < ex.client.e2eCtx.numPeers ∧
      ex'.client.e2eCtx.peerKeys j = ex.client.e2eCtx.peerKeys j ∧
      (ex.client.e2eCtx.peerKeys j).nickname ≠ packet.nicknameString := by
  obtain ⟨hused, hsame, hid⟩ := h.entry_other ok hji
  have hlt := hused.mp hj
  exact ⟨hlt, hsame, fun heq => hid hlt ((hpacket.same_slots j hlt).mpr heq)⟩

theorem Entered.all_active (hj : j.val < ex'.client.e2eCtx.numPeers) :
    (ex'.client.e2eCtx.peerKeys j).active = true := by
  by_cases hji : j = i
  · rw [hji, h.entry_self.2]
    rfl
  · obtain ⟨hlt, hsame, _⟩ := h.nickname_other ok hpacket hji hj
    rw [hsame]
    exact ok.all_active j hlt

theorem Entered.names_distinct {k : Fin maxClientsE2e} (hj : j.val < ex'.client.e2eCtx.numPeers)
    (hk : k.val < ex'.client.e2eCtx.numPeers)
    (heq : (ex'.client.e2eCtx.peerKeys j).nickname = (ex'.client.e2eCtx.peerKeys k).nickname) :
    j = k := by
  have hname := h.nickname_self hpacket
  by_cases hji : j = i
  · by_cases hki : k = i
    · rw [hji, hki]
    · obtain ⟨_, hsame, hne⟩ := h.nickname_other ok hpacket hki hk
      rw [hji, hname, hsame] at heq
      exact absurd heq.symm hne
  · obtain ⟨hlt, hsame, hne⟩ := h.nickname_other ok hpacket hji hj
    by_cases hki : k = i
    · rw [hki, hname, hsame] at heq
      exact absurd heq hne
    · obtain ⟨hlt', hsame', _⟩ := h.nickname_other ok hpacket hki hk
      rw [hsame, hsame'] at heq
      exact ok.names_distinct j k hlt hlt' heq

/-- The nickname of the packet is now that of slot `i` and of no other. -/
theorem Entered.announced_self_iff (w : (Fin 16 → UInt8) × (Fin 32 → UInt8)) :
    ex'.announced packet.nicknameString = some w ↔
      ∃ j : Fin maxClientsE2e, j.val < ex'.client.e2eCtx.numPeers ∧
        (ex'.client.e2eCtx.peerKeys j).nickname = packet.nicknameString ∧
        ((ex'.client.e2eCtx.peerKeys j).userId, (ex'.client.e2eCtx.peerKeys j).publicKey) = w := by
  obtain ⟨hi, hself⟩ := h.entry_self
  rw [h.announced_self, Option.some.injEq]
  constructor
  · intro hw
    refine ⟨i, hi, h.nickname_self hpacket, ?_⟩
    rw [hself]
    exact hw
  · intro hex
    obtain ⟨j, hj, hname, hw⟩ := hex
    obtain rfl : j = i := by
      by_contra hji
      obtain ⟨_, hsame, hne⟩ := h.nickname_other ok hpacket hji hj
      rw [hsame] at hname
      exact hne hname
    rw [hself] at hw
    exact hw

/-- Under another nickname everything is as before. -/
theorem Entered.announced_other_iff {nickname : CString} (hne : nickname ≠ packet.nicknameString)
    (w : (Fin 16 → UInt8) × (Fin 32 → UInt8)) :
    ex'.announced nickname = some w ↔
      ∃ j : Fin maxClientsE2e, j.val < ex'.client.e2eCtx.numPeers ∧
        (ex'.client.e2eCtx.peerKeys j).nickname = nickname ∧
        ((ex'.client.e2eCtx.peerKeys j).userId, (ex'.client.e2eCtx.peerKeys j).publicKey) = w := by
  rw [h.announced_other nickname hne, ok.announced_iff]
  apply exists_congr
  intro j
  by_cases hji : j = i
  · rw [hji, h.nickname_self hpacket]
    refine iff_of_false (fun hold => ?_) (fun hnew => hne hnew.2.1.symm)
    rcases h.slot with ⟨_, hid⟩ | hfree
    · exact hne (hold.2.1.symm.trans ((hpacket.same_slots i hold.1).mp hid))
    · exact absurd hold.1 (by omega)
  · obtain ⟨hused, hsame, _⟩ := h.entry_other ok hji
    rw [hused, hsame]

theorem Entered.keysOk : KeysOk ex' := by
  refine ⟨?_, ?_, fun j hj => h.all_active ok hpacket hj,
    fun j k hj hk heq => h.names_distinct ok hpacket hj hk heq, fun nickname w => ?_⟩
  · rw [h.client_eq]
    exact ok.connected
  · rw [h.client_eq]
    exact ok.ids_distinct.enter h.slot h.first
  · by_cases hN : nickname = packet.nicknameString
    · rw [hN]
      exact h.announced_self_iff ok hpacket w
    · exact h.announced_other_iff ok hpacket hN w

end Keeps

section Follows
variable (h : Entered ex ex' packet i) (ok : KeysOk ex) (hsends : SendsToCurrent ex')
include h ok hsends

/-- The user is found in slot `i` only, so what leads to him is the nickname there. -/
theorem Entered.lookup {nickname : CString} {publicKey : Fin 32 → UInt8}
    (hannounced : ex'.announced nickname = some (packet.userId, publicKey)) :
    packet.entry.nickname = nickname ∧ ∀ j < i, ¬ Named ex'.client.e2eCtx j nickname := by
  have hconnected : ex'.client.connected = true := by
    rw [h.client_eq]
    exact ok.connected
  have hfind := ((sentAs_sealedPacket_iff hconnected).mp (hsends _ _ _ hannounced)).1
  obtain ⟨l, hid, hnamed, hfirst⟩ := findRecipient_eq_some_iff.mp hfind
  obtain rfl : l = i := by
    by_contra hli
    obtain ⟨hused, hsame, hne⟩ := h.entry_other ok hli
    rw [hsame] at hid
    exact hne (hused.mp hnamed.1) hid
  rw [← h.entry_self.2]
  exact ⟨hnamed.2.2, hfirst⟩

theorem Entered.nickname_kept (hj : j.val < ex.client.e2eCtx.numPeers)
    (hid : (ex.client.e2eCtx.peerKeys j).userId = packet.userId) :
    (ex.client.e2eCtx.peerKeys j).nickname = packet.nicknameString := by
  obtain ⟨hname, _⟩ := h.lookup ok hsends h.announced_self
  by_contra hne
  have hannounced := (ok.announced_iff _ _).mpr ⟨j, hj, rfl, rfl⟩
  rw [← h.announced_other _ hne, hid] at hannounced
  exact hne ((h.lookup ok hsends hannounced).1.symm.trans hname)

/-- Where the right packets are built after the step, the id and the nickname go together. -/
theorem Entered.consistent : Consistent ex.client.e2eCtx packet := by
  obtain ⟨hname, hfirst⟩ := h.lookup ok hsends h.announced_self
  have hshort : packet.nicknameString.length ≤ 63 := by
    have hlength := congrArg CString.length hname
    rw [E2eKeyExchangePacket.entry, CString.length_take] at hlength
    omega
  refine ⟨hshort, fun j hj => ⟨h.nickname_kept ok hsends hj, fun hjname => ?_⟩⟩
  by_contra hid
  have hji : j ≠ i := by
    intro heq
    rw [heq] at hid hj
    rcases h.slot with ⟨_, hsame⟩ | hfree
    · exact hid hsame
    · omega
  obtain ⟨hused, hsame, _⟩ := h.entry_other ok hji
  have hnamed : Named ex'.client.e2eCtx j packet.nicknameString := by
    rw [Named, hsame]
    exact ⟨hused.mpr hj, ok.all_active j hj, hjname⟩
  -- slot `i` comes first, so it was in use before, under the same nickname
  have hlt : i.val < j.val := by
    have hnot : ¬ j < i := fun hlt => hfirst j hlt hnamed
    have hval : j.val ≠ i.val := fun heq => hji (Fin.ext heq)
    rw [Fin.lt_def] at hnot
    omega
  rcases h.slot with ⟨hiused, hiid⟩ | hfree
  · have hiname := h.nickname_kept ok hsends hiused hiid
    exact hji (ok.names_distinct j i hj hiused (hjname.trans hiname.symm))
  · omega

end Follows

end Entered

end State

/-- In every run of received key exchanges, what is sent to a nickname goes to the user who last
announced it exactly as long as user ids and nicknames go together. -/
theorem sendsToCurrent_iff (nickname : CString) (securityCtx : SecurityContext)
    (timestamp pid : UInt32) (privateKey : Fin 32 → UInt8)
    (packets : List E2eKeyExchangePacket) :
    Always Exchanges.step SendsToCurrent
        ⟨{ clientCreate nickname securityCtx timestamp pid privateKey with connected := true }, []⟩
        packets ↔
      EachStep Exchanges.step (fun ex packet => IdWithName ex.client packet)
        ⟨{ clientCreate nickname securityCtx timestamp pid privateKey with connected := true }, []⟩
        packets := by
  have hok : KeysOk
      ⟨{ clientCreate nickname securityCtx timestamp pid privateKey with connected := true }, []⟩ :=
    KeysOk.start rfl rfl
  refine always_iff_eachStep (I := KeysOk) (H := fun _ _ => True) ?_ ?_ hok hok.sendsToCurrent
    (fun _ _ _ => trivial)
  · intro ex packet ok _ _ hid
    by_cases htakes : TakesKey ex.client packet
    · obtain ⟨i, hentered⟩ := step_taken htakes
      exact hentered.keysOk ok (hid htakes)
    · rw [step_not_taken htakes]
      exact ok
  · intro ex packet ok hsends _
    by_cases htakes : TakesKey ex.client packet
    · obtain ⟨i, hentered⟩ := step_taken htakes
      constructor
      · intro hafter _
        exact hentered.consistent ok hafter
      · intro hid
        exact (hentered.keysOk ok (hid htakes)).sendsToCurrent
    · rw [step_not_taken htakes]
      exact iff_of_true hsends fun h => absurd h htakes

/-- What `bob` announces when he has started at `timestamp`. -/
def bobAt (timestamp : UInt32) : E2eKeyExchangePacket :=
  e2eCreateKeyExchangePacket (e2eContextInit "bob" timestamp 4242 fun _ => timestamp.toUInt8)

/-- `bob` comes back, and what is sent to him goes to who he was before. -/
theorem stale_key_used :
    ¬ ∀ (nickname : CString) (securityCtx : SecurityContext) (timestamp pid : UInt32)
      (privateKey : Fin 32 → UInt8) (packets : List E2eKeyExchangePacket),
      Always Exchanges.step SendsToCurrent
        ⟨{ clientCreate nickname securityCtx timestamp pid privateKey with connected := true }, []⟩
        packets := by
  intro h
  have hsends := (h "ann" (.plain sessionKey) 1700000000 17 (fun _ => 5)
    [bobAt 1700000000, bobAt 1700000100]).last
  have hcurrent := (sentAs_sealedPacket_iff (by decide +kernel)).mp
    (hsends "bob" (bobAt 1700000100).userId (bobAt 1700000100).publicKey (by decide +kernel))
  exact absurd hcurrent.1 (by decide +kernel)

end TcpChat.Client
