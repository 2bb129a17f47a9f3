import TcpChat.Base.XorCodec
import TcpChat.Sizes

/-!
# The client's transport encryption (client/src/encryption_context.c)

A context keeps the session key, the rotation counter and the sequence number. The cipher
records and the message key, which no operation reads, are left out. An operation returns
`none` where the source returns -1.
-/

namespace TcpChat.Client

open Base.XorCodec
set_option autoImplicit false

structure EncryptionContext where
  sessionKey : Fin 32 → UInt8
  keyRotationCounter : UInt64
  sequenceNumber : UInt32

def initEncryptionContext (encCtx : EncryptionContext) (key : Fin 32 → UInt8) :
    EncryptionContext :=
  { encCtx with sessionKey := key, keyRotationCounter := 0, sequenceNumber := 0 }

def performXorEncryption (encCtx : EncryptionContext) (plaintext : List UInt8) : List UInt8 :=
  xorStream encCtx.sessionKey plaintext

def performXorDecryption (encCtx : EncryptionContext) (ciphertext : List UInt8) : List UInt8 :=
  xorStream encCtx.sessionKey ciphertext

def addAuthenticationTag (plaintext ciphertext : List UInt8) : List UInt8 :=
  ciphertext ++ List.ofFn (columnTag 16 plaintext)

def verifyAuthenticationTag (plaintext tag : List UInt8) : Bool :=
  tag == List.ofFn (columnTag 16 plaintext)

def checkKeyRotation (encCtx : EncryptionContext) : EncryptionContext :=
  if encCtx.keyRotationCounter ≥ 1000 then
    { encCtx with
      sessionKey := fun i => (encCtx.sessionKey i + 1) &&& 0xFF
      keyRotationCounter := 0 }
  else encCtx

/-- The room test adds 16 in `size_t`. -/
def encryptData (encCtx : EncryptionContext) (plaintext : List UInt8) (capacity : UInt64) :
    Option (List UInt8) × EncryptionContext :=
  if capacity.toNat < (plaintext.length + 16) % 2 ^ 64 then (none, encCtx)
  else
    let ciphertext := addAuthenticationTag plaintext (performXorEncryption encCtx plaintext)
    let encCtx := { encCtx with
      sequenceNumber := encCtx.sequenceNumber + 1
      keyRotationCounter := encCtx.keyRotationCounter + 1 }
    (some ciphertext, checkKeyRotation encCtx)

def decryptData (encCtx : EncryptionContext) (ciphertext : List UInt8) (capacity : UInt64) :
    Option (List UInt8) × EncryptionContext :=
  if ciphertext.length < 16 then (none, encCtx)
  else
    let dataLen := ciphertext.length - 16
    if capacity.toNat < dataLen then (none, encCtx)
    else
      let plaintext := performXorDecryption encCtx (ciphertext.take dataLen)
      if verifyAuthenticationTag plaintext (ciphertext.drop dataLen) then
        (some plaintext, { encCtx with sequenceNumber := encCtx.sequenceNumber + 1 })
      else (none, encCtx)

@[simp] theorem initEncryptionContext_sessionKey (encCtx : EncryptionContext)
    (key : Fin 32 → UInt8) : (initEncryptionContext encCtx key).sessionKey = key := rfl

@[simp] theorem initEncryptionContext_keyRotationCounter (encCtx : EncryptionContext)
    (key : Fin 32 → UInt8) : (initEncryptionContext encCtx key).keyRotationCounter = 0 := rfl

theorem encryptData_fst {encCtx : EncryptionContext} {plaintext : List UInt8} {capacity : UInt64}
    (h : plaintext.length + 16 ≤ capacity.toNat) :
    (encryptData encCtx plaintext capacity).1 =
      some (sealBytes 16 encCtx.sessionKey plaintext) := by
  have hcap := capacity.toNat_lt
  have hroom : ¬ capacity.toNat < (plaintext.length + 16) % 2 ^ 64 := by
    rw [Nat.mod_eq_of_lt (by omega)]
    omega
  simp only [encryptData, if_neg hroom, addAuthenticationTag, performXorEncryption, sealBytes]

theorem encryptData_snd {encCtx : EncryptionContext} {plaintext : List UInt8} {capacity : UInt64}
    (h : plaintext.length + 16 ≤ capacity.toNat) :
    (encryptData encCtx plaintext capacity).2 = checkKeyRotation { encCtx with
      sequenceNumber := encCtx.sequenceNumber + 1
      keyRotationCounter := encCtx.keyRotationCounter + 1 } := by
  have hcap := capacity.toNat_lt
  have hroom : ¬ capacity.toNat < (plaintext.length + 16) % 2 ^ 64 := by
    rw [Nat.mod_eq_of_lt (by omega)]
    omega
  simp only [encryptData, if_neg hroom]

theorem decryptData_fst (encCtx : EncryptionContext) (ciphertext : List UInt8)
    (capacity : UInt64) :
    (decryptData encCtx ciphertext capacity).1 =
      if capacity.toNat < ciphertext.length - 16 then none
      else openBytes 16 encCtx.sessionKey ciphertext := by
  unfold decryptData openBytes verifyAuthenticationTag performXorDecryption
  by_cases hlen : ciphertext.length < 16
  · simp [hlen]
  · simp only [if_neg hlen, beq_iff_eq]
    split
    · rfl
    · split <;> rfl

end TcpChat.Client
