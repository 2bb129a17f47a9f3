import TcpChat.Server.ReceiveLoop
import TcpChat.Transport

/-!
# Framing over a byte stream

The client writes one ciphertext after the other to the stream, without lengths or separators.
The server takes whatever one call of `recv` returns for one ciphertext.
-/

namespace TcpChat.Framing

open Base Base.Runs Base.XorCodec Server
set_option autoImplicit false

/-- What `client_send_message` writes to the socket, and the context it leaves. -/
def clientSendMessage (encCtx : Client.EncryptionContext) (message : CString) :
    Option (List UInt8) × Client.EncryptionContext :=
  Client.encryptData encCtx message.bytes 2048

def sentFrames : Client.EncryptionContext → List CString → List (List UInt8)
  | _, [] => []
  | encCtx, message :: messages =>
    match clientSendMessage encCtx message with
    | (none, encCtx) => sentFrames encCtx messages
    | (some frame, encCtx) => frame :: sentFrames encCtx messages

/-- One return of `recv`: what the rest of the server has done before it, the chunk that is
returned, and the environment in which it is handled. -/
structure Receipt where
  others : List Op
  chunk : List UInt8
  env : Env

/-- The messages that the receive loop hands to `chat_protocol_handle_message`. -/
def receiveLoop (libc : Libc) (c : Slot) : State → List Receipt → List CString
  | _, [] => []
  | s, r :: rest =>
    let turn := handlerTurn libc r.env (run (Op.step libc) s r.others) c (some r.chunk)
    turn.handed.toList ++ if turn.goesOn then receiveLoop libc c turn.state rest else []

/-- A way to cut the stream into what `recv` can return. -/
def Segments (chunks frames : List (List UInt8)) : Prop :=
  chunks.flatten = frames.flatten ∧
    ∀ chunk ∈ chunks, 1 ≤ chunk.length ∧ chunk.length ≤ bufferSize * 2

/-- The connection of slot `c` stays intact: nobody else takes it for its own, and what is
sent to it arrives. -/
def Intact (c : Slot) (r : Receipt) : Prop :=
  (∀ op ∈ r.others, Spares c op) ∧ ∀ k, r.env.sendFails k c = false

def Fits (message : CString) : Prop := 1 ≤ message.length ∧ message.length ≤ 1023

instance (message : CString) : Decidable (Fits message) := inferInstanceAs (Decidable (_ ∧ _))

/-- The loop as it depends on the chunks alone. -/
def delivered (key : Fin 32 → UInt8) : List (List UInt8) → List CString
  | [] => []
  | chunk :: rest => (openText key chunk).elim [] fun message =>
    message :: if parse message = .quit then [] else delivered key rest

theorem delivered_of_none {key : Fin 32 → UInt8} {chunk : List UInt8} {rest : List (List UInt8)}
    (h : openText key chunk = none) : delivered key (chunk :: rest) = [] := by
  rw [delivered, h, Option.elim_none]

theorem delivered_of_some {key : Fin 32 → UInt8} {chunk : List UInt8} {rest : List (List UInt8)}
    {message : CString} (h : openText key chunk = some message) :
    delivered key (chunk :: rest) =
      message :: if parse message = .quit then [] else delivered key rest := by
  rw [delivered, h, Option.elim_some]

theorem receiveLoop_eq_delivered (libc : Libc) {c : Slot} {key : Fin 32 → UInt8}
    {receipts : List Receipt} (hintact : ∀ r ∈ receipts, Intact c r)
    (hne : ∀ r ∈ receipts, r.chunk ≠ []) {s : State} (h : Up s c key) :
    receiveLoop libc c s receipts = delivered key (receipts.map Receipt.chunk) := by
  induction receipts generalizing s with
  | nil => rfl
  | cons r rest ih =>
    obtain ⟨hspares, hfails⟩ := hintact r List.mem_cons_self
    have hup : Up (run (Op.step libc) s r.others) c key := h.run hspares
    obtain ⟨hhanded, hgoes, hnext⟩ :=
      @handlerTurn_of_up libc _ _ _ _ hup hfails _ (hne r List.mem_cons_self)
    have hrest := ih (fun r' hr' => hintact r' (List.mem_cons_of_mem _ hr'))
      (fun r' hr' => hne r' (List.mem_cons_of_mem _ hr')) hnext
    rw [receiveLoop, List.map_cons, hhanded, hgoes, hrest]
    cases hopen : openText key r.chunk with
    | none =>
      rw [delivered_of_none hopen]
      rfl
    | some message =>
      rw [delivered_of_some hopen]
      by_cases hquit : parse message = .quit
      · simp [hquit]
      · simp [hquit]

/-- Up to the thousandth message every frame is sealed with the first key. -/
theorem sentFrames_eq {messages : List CString} (h : ∀ m ∈ messages, Fits m)
    (encCtx : Client.EncryptionContext)
    (hcounter : encCtx.keyRotationCounter.toNat + messages.length ≤ 1000) :
    sentFrames encCtx messages =
      messages.map fun m => sealBytes 16 encCtx.sessionKey m.bytes := by
  induction messages generalizing encCtx with
  | nil => rfl
  | cons m ms ih =>
    have hm := h m List.mem_cons_self
    have hcap : m.bytes.length + 16 ≤ (2048 : UInt64).toNat := by
      have hmax : m.bytes.length ≤ 1023 := hm.2
      change m.bytes.length + 16 ≤ 2048
      omega
    have hfst := @Client.encryptData_fst encCtx _ _ hcap
    have hsnd := @Client.encryptData_snd encCtx _ _ hcap
    rw [sentFrames, clientSendMessage]
    cases hsent : Client.encryptData encCtx m.bytes 2048 with
    | mk frame encCtx' =>
      rw [hsent] at hfst hsnd
      dsimp only at hfst hsnd
      rw [hfst]
      dsimp only
      rw [List.map_cons, List.cons.injEq, eq_self, true_and]
      cases ms with
      | nil => rfl
      | cons next rest =>
        simp only [List.length_cons] at hcounter
        have hsucc : (encCtx.keyRotationCounter + 1).toNat =
            encCtx.keyRotationCounter.toNat + 1 := by
          rw [UInt64.toNat_add]
          change (encCtx.keyRotationCounter.toNat + 1) % 2 ^ 64 = _
          omega
        have hkeep : ¬ encCtx.keyRotationCounter + 1 ≥ 1000 := by
          rw [ge_iff_le, UInt64.le_iff_toNat_le, hsucc]
          change ¬ 1000 ≤ encCtx.keyRotationCounter.toNat + 1
          omega
        rw [Client.checkKeyRotation, if_neg hkeep] at hsnd
        have hkey : encCtx'.sessionKey = encCtx.sessionKey := by rw [hsnd]
        rw [ih (fun m' hm' => h m' (List.mem_cons_of_mem _ hm')) encCtx', hkey]
        rw [hsnd]
        simp only [hsucc, List.length_cons]
        omega

section Delivered
variable {key : Fin 32 → UInt8}

/-- A chunk is taken for a message when it opens to the message, or to something that goes on
behind the message's terminator. -/
theorem openText_eq_some {chunk : List UInt8} {message : CString}
    (h : openText key chunk = some message) :
    ∃ plain, chunk = sealBytes 16 key plain ∧ message = CString.ofBuffer plain := by
  unfold openText at h
  split at h
  · cases h
  · cases h
  · rename_i plain _ hopen
    obtain ⟨hopened, _⟩ := (openBytes_within_eq_some_iff _ _ _ _).mp hopen
    exact ⟨plain, (openBytes_eq_some_iff _ _ _).mp hopened, (Option.some.inj h).symm⟩

theorem openText_sealBytes {message : CString} (h : Fits message) :
    openText key (sealBytes 16 key message.bytes) = some message := by
  have hopen := (openBytes_within_eq_some_iff key (sealBytes 16 key message.bytes)
    message.bytes (bufferSize - 1)).mpr ⟨openBytes_sealBytes _ _, h.2⟩
  unfold openText
  rw [hopen]
  cases hbytes : message.bytes with
  | nil =>
    have hlen := h.1
    simp [CString.length, hbytes] at hlen
  | cons b bs =>
    dsimp only
    rw [← hbytes, CString.ofBuffer_bytes]

/-- The frame of the message that a chunk is taken for is no longer than the chunk, and of the
same length only when it is the chunk. -/
theorem length_frame_le {chunk : List UInt8} {message : CString}
    (h : openText key chunk = some message) :
    (sealBytes 16 key message.bytes).length ≤ chunk.length ∧
      (chunk.length ≤ (sealBytes 16 key message.bytes).length →
        chunk = sealBytes 16 key message.bytes) := by
  obtain ⟨plain, rfl, rfl⟩ := openText_eq_some h
  have hpre : (CString.ofBuffer plain).bytes.IsPrefix plain := List.takeWhile_prefix _
  have hle := hpre.length_le
  simp only [length_sealBytes]
  refine ⟨by omega, fun hge => ?_⟩
  rw [hpre.eq_of_length (by omega)]

/-- Messages delivered out of no more bytes than their frames have were cut at the frames. -/
theorem delivered_frames {messages : List CString} {chunks : List (List UInt8)}
    (hne : ∀ chunk ∈ chunks, 1 ≤ chunk.length) (h : delivered key chunks = messages) :
    (messages.map fun m => sealBytes 16 key m.bytes).flatten.length ≤ chunks.flatten.length ∧
      (chunks.flatten.length ≤ (messages.map fun m => sealBytes 16 key m.bytes).flatten.length →
        chunks = messages.map fun m => sealBytes 16 key m.bytes) ∧
      ∀ m ∈ messages.dropLast, parse m ≠ .quit := by
  induction chunks generalizing messages with
  | nil =>
    subst h
    exact ⟨Nat.le_refl _, fun _ => rfl, fun _ hm => absurd hm List.not_mem_nil⟩
  | cons chunk rest ih =>
    have hchunk := hne chunk List.mem_cons_self
    have hrestne : ∀ c ∈ rest, 1 ≤ c.length := fun c hc => hne c (List.mem_cons_of_mem _ hc)
    cases hopen : openText key chunk with
    | none =>
      rw [delivered_of_none hopen] at h
      subst h
      simp only [List.map_nil, List.flatten_nil, List.length_nil, List.flatten_cons,
        List.length_append]
      exact ⟨by omega, fun hle => by omega, fun _ hm => absurd hm List.not_mem_nil⟩
    | some message =>
      rw [delivered_of_some hopen] at h
      obtain ⟨hle, heq⟩ := length_frame_le hopen
      by_cases hquit : parse message = .quit
      · -- the loop was left: nothing else was delivered, so nothing else can have been sent
        rw [if_pos hquit] at h
        subst h
        simp only [List.map_cons, List.map_nil, List.flatten_cons, List.flatten_nil,
          List.append_nil, List.length_append]
        refine ⟨by omega, fun hge => ?_, fun _ hm => absurd hm List.not_mem_nil⟩
        have hrest : rest = [] := by
          cases rest with
          | nil => rfl
          | cons c cs =>
            have hc := hrestne c List.mem_cons_self
            simp only [List.flatten_cons, List.length_append] at hge
            omega
        rw [heq (by omega), hrest]
      · rw [if_neg hquit] at h
        subst h
        obtain ⟨hle', heq', hquits⟩ := ih hrestne rfl
        simp only [List.map_cons, List.flatten_cons, List.length_append]
        refine ⟨by omega, fun hge => ?_, ?_⟩
        · exact List.cons_eq_cons.mpr ⟨heq (by omega), heq' (by omega)⟩
        · intro m hm
          cases hms : delivered key rest with
          | nil =>
            rw [hms] at hm
            exact absurd hm List.not_mem_nil
          | cons next ms =>
            rw [hms] at hm hquits
            rcases List.mem_cons.mp hm with rfl | hlater
            · exact hquit
            · exact hquits m hlater

theorem delivered_of_frames {messages : List CString} (hfits : ∀ m ∈ messages, Fits m)
    (hquits : ∀ m ∈ messages.dropLast, parse m ≠ .quit) :
    delivered key (messages.map fun m => sealBytes 16 key m.bytes) = messages := by
  induction messages with
  | nil => rfl
  | cons m ms ih =>
    rw [List.map_cons, delivered_of_some (openText_sealBytes (hfits m List.mem_cons_self))]
    cases ms with
    | nil =>
      rw [List.map_nil, delivered, ite_self]
    | cons next rest =>
      have hm : parse m ≠ .quit := hquits m (by simp)
      rw [if_neg hm, ih (fun m' hm' => hfits m' (List.mem_cons_of_mem _ hm'))]
      intro m' hm'
      exact hquits m' (by rw [List.dropLast_cons_cons]; exact List.mem_cons_of_mem _ hm')

end Delivered

/-- On an intact connection the messages that the handler is given are those that were sent
exactly when every `recv` returned one frame and only the last message asks to quit. -/
theorem framing_iff (libc : Libc) (client : Client.EncryptionContext) {key : Fin 32 → UInt8}
    {s : State} {c : Slot} (hup : Up s c key) (messages : List CString)
    (hlen : messages.length < 1000) (hfits : ∀ m ∈ messages, Fits m) (receipts : List Receipt)
    (hintact : ∀ r ∈ receipts, Intact c r)
    (hsegments : Segments (receipts.map Receipt.chunk)
      (sentFrames (Client.initEncryptionContext client key) messages)) :
    receiveLoop libc c s receipts = messages ↔
      receipts.map Receipt.chunk = sentFrames (Client.initEncryptionContext client key) messages ∧
        ∀ m ∈ messages.dropLast, parse m ≠ .quit := by
  have hchunks : ∀ r ∈ receipts, r.chunk ≠ [] := by
    intro r hr hnil
    have hpos := (hsegments.2 r.chunk (List.mem_map_of_mem hr)).1
    simp [hnil] at hpos
  have hframes := sentFrames_eq hfits (Client.initEncryptionContext client key)
    (by simp only [Client.initEncryptionContext_keyRotationCounter]; change 0 + _ ≤ _; omega)
  rw [Client.initEncryptionContext_sessionKey] at hframes
  rw [receiveLoop_eq_delivered libc hintact hchunks hup, hframes]
  constructor
  · intro h
    obtain ⟨_, heq, hquits⟩ := delivered_frames
      (fun chunk hchunk => (hsegments.2 chunk hchunk).1) h
    refine ⟨heq ?_, hquits⟩
    rw [hsegments.1, hframes]
  · intro hall
    obtain ⟨heq, hquits⟩ := hall
    rw [heq]
    exact delivered_of_frames hfits hquits

/-- A fresh connection in slot 0. -/
def freshConnection : State := added (start zeroedMemory) 5 0

theorem framing_two :
    receiveLoop countingLibc 0 freshConnection
      ((sentFrames (Client.initEncryptionContext ⟨fun _ => 0, 0, 0⟩ sessionKey)
        ["hi", "/nick ann"]).map fun frame => ⟨[], frame, calm⟩) = ["hi", "/nick ann"] := by
  refine (framing_iff countingLibc ⟨fun _ => 0, 0, 0⟩ (Up.of_added _ (by decide) 0)
    ["hi", "/nick ann"] (by decide) ?_ _ ?_ ?_).mpr ⟨?_, ?_⟩
  · decide +kernel
  · simp [Intact, calm]
  · simp only [Segments, List.map_map, Function.comp_def, List.map_id']
    decide +kernel
  · simp [Function.comp_def]
  · decide +kernel

/-- Two messages of one byte that arrive together. -/
theorem framing_lost_when_coalesced :
    ¬ ∀ (libc : Libc) (client : Client.EncryptionContext) (key : Fin 32 → UInt8) (s : State)
      (c : Slot), Up s c key → ∀ messages : List CString, messages.length < 1000 →
      (∀ m ∈ messages, Fits m) → ∀ receipts : List Receipt, (∀ r ∈ receipts, Intact c r) →
      Segments (receipts.map Receipt.chunk)
        (sentFrames (Client.initEncryptionContext client key) messages) →
      receiveLoop libc c s receipts = messages := by
  intro h
  have hdelivered := h countingLibc ⟨fun _ => 0, 0, 0⟩ sessionKey freshConnection 0
    (Up.of_added _ (by decide) 0) ["a", "b"] (by decide) (by decide +kernel)
    [⟨[], (sentFrames (Client.initEncryptionContext ⟨fun _ => 0, 0, 0⟩ sessionKey)
      ["a", "b"]).flatten, calm⟩] (by simp [Intact, calm]) (by unfold Segments; decide +kernel)
  revert hdelivered
  decide +kernel

end TcpChat.Framing
