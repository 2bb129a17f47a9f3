import TcpChat.Client.EncryptionContext
import TcpChat.Server.ClientManager

/-!
# The client's and the server's transport codec together

Both programs carry their own copy of the cipher. The copies agree byte for byte; the key
schedules do not: only the client's `encrypt_data` rotates its key.
-/

namespace TcpChat.Transport

open Base.XorCodec
open Server (sessionKey)
set_option autoImplicit false

/-- The two copies of the codec are one bijection between plaintexts and accepted strings. -/
theorem codec_bijection (key : Fin 32 → UInt8) :
    (∀ (plaintext : List UInt8) (capacity : UInt64), plaintext.length + 16 ≤ capacity.toNat →
      ∃ ciphertext,
        (∀ client : Client.EncryptionContext, client.sessionKey = key →
          (Client.encryptData client plaintext capacity).1 = some ciphertext) ∧
        (∀ server : Server.EncryptionContext, server.sessionKey = key →
          (Server.encryptData server plaintext capacity).1 = some ciphertext) ∧
        ∀ room : UInt64, plaintext.length ≤ room.toNat →
          (∀ client : Client.EncryptionContext, client.sessionKey = key →
            (Client.decryptData client ciphertext room).1 = some plaintext) ∧
          ∀ server : Server.EncryptionContext, server.sessionKey = key →
            (Server.decryptData server ciphertext room).1 = some plaintext) ∧
    ∀ (client : Client.EncryptionContext) (server : Server.EncryptionContext),
      client.sessionKey = key → server.sessionKey = key →
      ∀ (ciphertext plaintext : List UInt8) (room : UInt64),
        (Client.decryptData client ciphertext room).1 = some plaintext ∨
          (Server.decryptData server ciphertext room).1 = some plaintext →
        ∀ capacity : UInt64, plaintext.length + 16 ≤ capacity.toNat →
          (Client.encryptData client plaintext capacity).1 = some ciphertext ∧
          (Server.encryptData server plaintext capacity).1 = some ciphertext := by
  constructor
  · intro plaintext capacity hcap
    refine ⟨sealBytes 16 key plaintext, ?_, ?_, ?_⟩
    · intro client heq
      subst heq
      exact Client.encryptData_fst hcap
    · intro server heq
      subst heq
      exact Server.encryptData_fst hcap
    · intro room hroom
      have hopen := (openBytes_within_eq_some_iff (w := 16) key (sealBytes 16 key plaintext)
        plaintext room.toNat).mpr ⟨openBytes_sealBytes _ _, hroom⟩
      constructor
      · intro client heq
        subst heq
        rw [Client.decryptData_fst]
        exact hopen
      · intro server heq
        subst heq
        rw [Server.decryptData_fst]
        exact hopen
  · intro client server heq hserver ciphertext plaintext room haccept capacity hcap
    subst heq
    rw [Client.decryptData_fst, Server.decryptData_fst, hserver, or_self,
      openBytes_within_eq_some_iff, openBytes_eq_some_iff] at haccept
    rw [Client.encryptData_fst hcap, Server.encryptData_fst hcap, hserver, haccept.1]
    exact ⟨rfl, rfl⟩

theorem codec_bijection_hi :
    ∃ ciphertext,
      (Client.encryptData ⟨sessionKey, 0, 0⟩ [72, 105] 2048).1 = some ciphertext ∧
      (Server.decryptData ⟨sessionKey, 0, 0⟩ ciphertext 1023).1 = some [72, 105] ∧
      (Server.encryptData ⟨sessionKey, 7, 9⟩ [72, 105] 18).1 = some ciphertext := by
  obtain ⟨ciphertext, hclient, _, hopen⟩ :=
    (codec_bijection sessionKey).1 [72, 105] 2048 (by decide)
  have hdec := (hopen 1023 (by decide)).2 ⟨sessionKey, 0, 0⟩ rfl
  have hdec' := (hopen 1023 (by decide)).2 ⟨sessionKey, 7, 9⟩ rfl
  exact ⟨ciphertext, hclient ⟨sessionKey, 0, 0⟩ rfl, hdec,
    ((codec_bijection sessionKey).2 ⟨sessionKey, 0, 0⟩ ⟨sessionKey, 7, 9⟩ rfl rfl ciphertext
      [72, 105] 1023 (Or.inr hdec') 18 (by decide)).2⟩

/-- What the server makes of messages that the client encrypts one after the other, each
handed over as one frame. -/
def session : Client.EncryptionContext → Server.EncryptionContext → List (List UInt8) →
    List (Option (List UInt8))
  | _, _, [] => []
  | client, server, message :: messages =>
    match Client.encryptData client message 2048 with
    | (none, client) => none :: session client server messages
    | (some frame, client) =>
      let (plaintext, server) := Server.decryptData server frame 1023
      plaintext :: session client server messages

/-- The messages a client can send: not empty, and within the server's buffer. -/
def Sendable (message : List UInt8) : Prop := 1 ≤ message.length ∧ message.length ≤ 1023

theorem session_cons {client : Client.EncryptionContext} {server : Server.EncryptionContext}
    {message : List UInt8} {messages : List (List UInt8)} (h : Sendable message) :
    session client server (message :: messages) =
      (Server.decryptData server (sealBytes 16 client.sessionKey message) 1023).1 ::
        session (Client.encryptData client message 2048).2
          (Server.decryptData server (sealBytes 16 client.sessionKey message) 1023).2
          messages := by
  have hcap : message.length + 16 ≤ (2048 : UInt64).toNat := by
    have hmax := h.2
    change message.length + 16 ≤ 2048
    omega
  have hfst := @Client.encryptData_fst client _ _ hcap
  rw [session]
  split
  · rename_i heq
    rw [heq] at hfst
    cases hfst
  · rename_i frame client' heq
    rw [heq] at hfst
    cases hfst
    rw [heq]

theorem decrypt_sealed_iff {server : Server.EncryptionContext} (key : Fin 32 → UInt8)
    {message : List UInt8} (h : Sendable message) :
    (Server.decryptData server (sealBytes 16 key message) 1023).1 = some message ↔
      ∀ i < message.length, key (Fin.ofNat 32 i) = server.sessionKey (Fin.ofNat 32 i) := by
  have hmax : message.length ≤ (1023 : UInt64).toNat := h.2
  rw [Server.decryptData_fst, openBytes_within_eq_some_iff, openBytes_sealBytes_eq_some_iff]
  exact and_iff_left hmax

theorem rotated_byte_ne (k : UInt8) : (k + 1) &&& 0xFF ≠ k := by
  have hmask : (k + 1) &&& 0xFF = k + 1 := UInt8.and_neg_one
  rw [hmask, ne_eq, UInt8.add_eq_left]
  decide

/-- Once the first key bytes differ, the very next message is lost. -/
theorem session_ne_of_key_ne {client : Client.EncryptionContext}
    {server : Server.EncryptionContext} (hkey : client.sessionKey 0 ≠ server.sessionKey 0)
    {messages : List (List UInt8)} (h : ∀ m ∈ messages, Sendable m) (hne : messages ≠ []) :
    session client server messages ≠ messages.map some := by
  obtain ⟨message, rest, rfl⟩ := List.exists_cons_of_ne_nil hne
  have hm : Sendable message := h message List.mem_cons_self
  rw [session_cons hm, List.map_cons, ne_eq, List.cons.injEq, not_and]
  intro hdec
  have hzero := (decrypt_sealed_iff client.sessionKey hm).mp hdec 0 hm.1
  exact absurd hzero hkey

/-- With equal keys and `counter` encryptions since the last rotation the session goes on to
agree up to the thousandth encryption and no further. -/
theorem session_eq_iff {messages : List (List UInt8)} (h : ∀ m ∈ messages, Sendable m)
    (client : Client.EncryptionContext) (server : Server.EncryptionContext)
    (hkey : client.sessionKey = server.sessionKey)
    (hcounter : client.keyRotationCounter.toNat < 1000) :
    session client server messages = messages.map some ↔
      client.keyRotationCounter.toNat + messages.length ≤ 1000 := by
  induction messages generalizing client server with
  | nil =>
    simp only [session, List.map_nil, List.length_nil, true_iff]
    omega
  | cons message messages ih =>
    have hm : Sendable message := h message List.mem_cons_self
    have hms : ∀ m ∈ messages, Sendable m := fun m hmem => h m (List.mem_cons_of_mem _ hmem)
    have hcap : message.length + 16 ≤ (2048 : UInt64).toNat := by
      have hmax := hm.2
      change message.length + 16 ≤ 2048
      omega
    have hdec := (@decrypt_sealed_iff server client.sessionKey _ hm).mpr
      (fun i _ => by rw [hkey])
    rw [session_cons hm, hdec, List.map_cons, List.cons.injEq, eq_self, true_and,
      List.length_cons, Client.encryptData_snd hcap]
    have hsucc : (client.keyRotationCounter + 1).toNat = client.keyRotationCounter.toNat + 1 := by
      rw [UInt64.toNat_add]
      change (client.keyRotationCounter.toNat + 1) % 2 ^ 64 = _
      omega
    by_cases hrotate : client.keyRotationCounter.toNat + 1 < 1000
    · -- no rotation: both keys stay, the counter has moved by one
      have hkeep : ¬ client.keyRotationCounter + 1 ≥ 1000 := by
        rw [ge_iff_le, UInt64.le_iff_toNat_le, hsucc]
        change ¬ 1000 ≤ client.keyRotationCounter.toNat + 1
        omega
      rw [Client.checkKeyRotation, if_neg hkeep, ih hms _ _ (by simpa using hkey)]
      · rw [hsucc]
        omega
      · rw [hsucc]
        exact hrotate
    · -- the thousandth encryption: the client's key moves away from the server's
      have hdue : client.keyRotationCounter + 1 ≥ 1000 := by
        rw [ge_iff_le, UInt64.le_iff_toNat_le, hsucc]
        change 1000 ≤ client.keyRotationCounter.toNat + 1
        omega
      rw [Client.checkKeyRotation, if_pos hdue]
      cases messages with
      | nil =>
        simp only [session, List.map_nil, List.length_nil, true_iff]
        omega
      | cons next rest =>
        constructor
        · intro hagree
          refine absurd hagree (session_ne_of_key_ne ?_ hms (List.cons_ne_nil next rest))
          simp only [Server.decryptData_sessionKey, hkey]
          exact rotated_byte_ne _
        · intro hlen
          simp only [List.length_cons] at hlen
          omega

/-- Started from one key, the two programs agree on a sequence of messages exactly when it is
at most a thousand long. -/
theorem session_agrees_iff (client : Client.EncryptionContext) (server : Server.EncryptionContext)
    (key : Fin 32 → UInt8) (messages : List (List UInt8)) (h : ∀ m ∈ messages, Sendable m) :
    session (Client.initEncryptionContext client key) (Server.initEncryptionContext server key)
      messages = messages.map some ↔ messages.length ≤ 1000 := by
  rw [session_eq_iff h _ _ (by simp) (by simp)]
  simp

theorem session_agrees_two :
    session (Client.initEncryptionContext ⟨fun _ => 0, 0, 0⟩ sessionKey)
      (Server.initEncryptionContext ⟨fun _ => 0, 0, 0⟩ sessionKey) [[104, 105], [33]] =
        [some [104, 105], some [33]] :=
  (session_agrees_iff ⟨fun _ => 0, 0, 0⟩ ⟨fun _ => 0, 0, 0⟩ sessionKey [[104, 105], [33]]
    (by simp [Sendable])).mpr (by simp)

theorem session_disagrees_after_rotation :
    ¬ ∀ (client : Client.EncryptionContext) (server : Server.EncryptionContext)
      (key : Fin 32 → UInt8) (messages : List (List UInt8)), (∀ m ∈ messages, Sendable m) →
      session (Client.initEncryptionContext client key) (Server.initEncryptionContext server key)
        messages = messages.map some := by
  intro h
  have hsendable : ∀ m ∈ List.replicate 1001 [(97 : UInt8)], Sendable m := by
    intro m hm
    rw [List.eq_of_mem_replicate hm]
    exact ⟨by decide, by decide⟩
  have hagree := h ⟨fun _ => 0, 0, 0⟩ ⟨fun _ => 0, 0, 0⟩ sessionKey
    (List.replicate 1001 [97]) hsendable
  rw [session_eq_iff hsendable _ _ (by simp) (by simp), List.length_replicate] at hagree
  exact absurd hagree (by decide)

end TcpChat.Transport
