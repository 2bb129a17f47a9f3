import TcpChat.Base.XorCodec
import TcpChat.Server.Types

/-!
# The server's transport encryption and its contexts (server/src/security_foundation.c)

`none` stands for a return value of -1. A security context is modelled by its encryption
context, which `security_context_create` always sets; `created` says whether its allocations
and mutexes came about.
-/

namespace TcpChat.Server

open Base.XorCodec
set_option autoImplicit false

/-- What `security_context_create` leaves in the encryption context. -/
def securityContextCreate (created : Bool) : Option EncryptionContext :=
  if created then some ⟨fun _ => 0, 0, 0⟩ else none

def initEncryptionContext (encCtx : EncryptionContext) (key : Fin 32 → UInt8) :
    EncryptionContext :=
  { encCtx with sessionKey := key, keyRotationCounter := 0, sequenceNumber := 0 }

def encryptData (encCtx : EncryptionContext) (plaintext : List UInt8) (capacity : UInt64) :
    Option (List UInt8) × EncryptionContext :=
  if capacity.toNat < (plaintext.length + 16) % 2 ^ 64 then (none, encCtx)
  else
    let ciphertext := xorStream encCtx.sessionKey plaintext ++ List.ofFn (columnTag 16 plaintext)
    (some ciphertext, { encCtx with sequenceNumber := encCtx.sequenceNumber + 1 })

def decryptData (encCtx : EncryptionContext) (ciphertext : List UInt8) (capacity : UInt64) :
    Option (List UInt8) × EncryptionContext :=
  if ciphertext.length < 16 then (none, encCtx)
  else
    let dataLen := ciphertext.length - 16
    if capacity.toNat < dataLen then (none, encCtx)
    else
      let plaintext := xorStream encCtx.sessionKey (ciphertext.take dataLen)
      if ciphertext.drop dataLen ≠ List.ofFn (columnTag 16 plaintext) then (none, encCtx)
      else (some plaintext, { encCtx with sequenceNumber := encCtx.sequenceNumber + 1 })

/-- The level argument only chooses a level that nothing reads. An existing context is
replaced, and counted again. -/
def securityManagerAddClient (manager : SecurityManager) (clientId : Slot) (created : Bool) :
    SecurityManager × Int :=
  match securityContextCreate created with
  | none => ({ manager with contexts := Function.update manager.contexts clientId none }, -1)
  | some ctx =>
    ({ contexts := Function.update manager.contexts clientId (some ctx)
       numContexts := manager.numContexts + 1 }, 0)

def securityManagerRemoveClient (manager : SecurityManager) (clientId : Slot) :
    SecurityManager :=
  match manager.contexts clientId with
  | none => manager
  | some _ =>
    { contexts := Function.update manager.contexts clientId none
      numContexts := manager.numContexts - 1 }

/-- A client id outside the slots has no context. -/
def serverDecryptMessage (manager : SecurityManager) (clientId : Int) (ciphertext : List UInt8)
    (capacity : UInt64) : Option (List UInt8) × SecurityManager :=
  if h : 0 ≤ clientId ∧ clientId < maxClients then
    let i : Slot := ⟨clientId.toNat, toNat_lt_maxClients h⟩
    match manager.contexts i with
    | none => (none, manager)
    | some encCtx =>
      let (result, encCtx) := decryptData encCtx ciphertext capacity
      (result, { manager with contexts := Function.update manager.contexts i (some encCtx) })
  else (none, manager)

@[simp] theorem initEncryptionContext_sessionKey (encCtx : EncryptionContext)
    (key : Fin 32 → UInt8) : (initEncryptionContext encCtx key).sessionKey = key := rfl

theorem encryptData_fst {encCtx : EncryptionContext} {plaintext : List UInt8} {capacity : UInt64}
    (h : plaintext.length + 16 ≤ capacity.toNat) :
    (encryptData encCtx plaintext capacity).1 =
      some (sealBytes 16 encCtx.sessionKey plaintext) := by
  have hcap := capacity.toNat_lt
  have hroom : ¬ capacity.toNat < (plaintext.length + 16) % 2 ^ 64 := by
    rw [Nat.mod_eq_of_lt (by omega)]
    omega
  simp only [encryptData, if_neg hroom, sealBytes]

theorem decryptData_fst (encCtx : EncryptionContext) (ciphertext : List UInt8)
    (capacity : UInt64) :
    (decryptData encCtx ciphertext capacity).1 =
      if capacity.toNat < ciphertext.length - 16 then none
      else openBytes 16 encCtx.sessionKey ciphertext := by
  unfold decryptData openBytes
  by_cases hlen : ciphertext.length < 16
  · simp [hlen]
  · simp only [if_neg hlen, ne_eq, ite_not]
    split
    · rfl
    · split <;> rfl

/-- The server never changes the key of a context it decrypts with. -/
@[simp] theorem decryptData_sessionKey (encCtx : EncryptionContext) (ciphertext : List UInt8)
    (capacity : UInt64) :
    (decryptData encCtx ciphertext capacity).2.sessionKey = encCtx.sessionKey := by
  unfold decryptData
  split
  · rfl
  · dsimp only
    split
    · rfl
    · split <;> rfl

end TcpChat.Server
