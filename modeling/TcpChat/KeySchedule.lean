import TcpChat.Base.Runs
import TcpChat.Client.EncryptionContext

/-!
# The client's key schedule

Every successful encryption counts towards the next rotation, and every thousandth adds one to
each byte of the session key. A decryption moves the sequence number only, and a call that fails
moves nothing.
-/

namespace TcpChat.Client

open Base.Runs Base.XorCodec
set_option autoImplicit false

inductive CipherOp where
  | encrypt (plaintext : List UInt8) (capacity : UInt64)
  | decrypt (ciphertext : List UInt8) (capacity : UInt64)

def CipherOp.call (encCtx : EncryptionContext) :
    CipherOp → Option (List UInt8) × EncryptionContext
  | .encrypt plaintext capacity => encryptData encCtx plaintext capacity
  | .decrypt ciphertext capacity => decryptData encCtx ciphertext capacity

/-- The context, and the calls so far with what they put out. -/
structure CipherRun where
  encCtx : EncryptionContext
  calls : List (CipherOp × Option (List UInt8))

def CipherRun.step (run : CipherRun) (op : CipherOp) : CipherRun :=
  ⟨(op.call run.encCtx).2, run.calls ++ [(op, (op.call run.encCtx).1)]⟩

/-- The plaintext and the ciphertext of an encryption that succeeded. -/
def encryption : CipherOp × Option (List UInt8) → Option (List UInt8 × List UInt8)
  | (.encrypt plaintext _, some ciphertext) => some (plaintext, ciphertext)
  | _ => none

def isDecryption : CipherOp × Option (List UInt8) → Bool
  | (.decrypt _ _, some _) => true
  | _ => false

/-- The successful encryptions, in order. -/
def CipherRun.encryptions (run : CipherRun) : List (List UInt8 × List UInt8) :=
  run.calls.filterMap encryption

/-- How many decryptions succeeded. -/
def CipherRun.decryptions (run : CipherRun) : Nat := run.calls.countP isDecryption

/-- The key after `r` rotations. -/
def rotatedKey (key : Fin 32 → UInt8) (r : Nat) (i : Fin 32) : UInt8 :=
  UInt8.ofNat ((key i).toNat + r)

/-- The schedule in closed form, `key` being the first key. -/
structure OnSchedule (key : Fin 32 → UInt8) (run : CipherRun) : Prop where
  sessionKey_eq : ∀ i, (run.encCtx.sessionKey i).toNat =
    ((key i).toNat + run.encryptions.length / 1000) % 256
  counter_eq : run.encCtx.keyRotationCounter.toNat = run.encryptions.length % 1000
  sequence_eq : run.encCtx.sequenceNumber.toNat =
    (run.encryptions.length + run.decryptions) % 2 ^ 32
  ciphertext_eq : ∀ n plaintext ciphertext, run.encryptions[n]? = some (plaintext, ciphertext) →
    ciphertext = sealBytes 16 (rotatedKey key (n / 1000)) plaintext

/-- A call that returns -1 leaves the context as it was. -/
def FailureKeeps (run : CipherRun) (op : CipherOp) : Prop :=
  (op.call run.encCtx).1 = none → (run.step op).encCtx = run.encCtx

section Calls
variable (encCtx : EncryptionContext)

theorem encryptData_cases (plaintext : List UInt8) (capacity : UInt64) :
    encryptData encCtx plaintext capacity = (none, encCtx) ∨
      encryptData encCtx plaintext capacity =
        (some (sealBytes 16 encCtx.sessionKey plaintext), checkKeyRotation { encCtx with
          sequenceNumber := encCtx.sequenceNumber + 1
          keyRotationCounter := encCtx.keyRotationCounter + 1 }) := by
  unfold encryptData
  split
  · exact Or.inl rfl
  · exact Or.inr rfl

theorem decryptData_cases (ciphertext : List UInt8) (capacity : UInt64) :
    decryptData encCtx ciphertext capacity = (none, encCtx) ∨
      ∃ plaintext, decryptData encCtx ciphertext capacity =
        (some plaintext, { encCtx with sequenceNumber := encCtx.sequenceNumber + 1 }) := by
  unfold decryptData
  split
  · exact Or.inl rfl
  · dsimp only
    split
    · exact Or.inl rfl
    · split
      · exact Or.inr ⟨_, rfl⟩
      · exact Or.inl rfl

theorem failureKeeps (run : CipherRun) (op : CipherOp) : FailureKeeps run op := by
  unfold FailureKeeps CipherRun.step
  cases op with
  | encrypt plaintext capacity =>
    rcases encryptData_cases run.encCtx plaintext capacity with heq | heq
    · rw [CipherOp.call, heq]
      exact fun _ => rfl
    · rw [CipherOp.call, heq]
      intro hfailed
      cases hfailed
  | decrypt ciphertext capacity =>
    rcases decryptData_cases run.encCtx ciphertext capacity with heq | ⟨plaintext, heq⟩
    · rw [CipherOp.call, heq]
      exact fun _ => rfl
    · rw [CipherOp.call, heq]
      intro hfailed
      cases hfailed

end Calls

section Schedule
variable {key : Fin 32 → UInt8} {run : CipherRun}

theorem OnSchedule.key_eq (h : OnSchedule key run) :
    run.encCtx.sessionKey = rotatedKey key (run.encryptions.length / 1000) := by
  funext i
  apply UInt8.toNat_inj.mp
  rw [h.sessionKey_eq i, rotatedKey, UInt8.toNat_ofNat']

/-- The thousandth encryption since the last rotation sets the counter back. -/
theorem rotation_cases {encCtx : EncryptionContext}
    (hcounter : encCtx.keyRotationCounter.toNat < 1000) :
    let rotated := checkKeyRotation { encCtx with
      sequenceNumber := encCtx.sequenceNumber + 1
      keyRotationCounter := encCtx.keyRotationCounter + 1 }
    rotated.sequenceNumber = encCtx.sequenceNumber + 1 ∧
    (encCtx.keyRotationCounter.toNat + 1 < 1000 ∧ rotated.sessionKey = encCtx.sessionKey ∧
        rotated.keyRotationCounter.toNat = encCtx.keyRotationCounter.toNat + 1 ∨
      encCtx.keyRotationCounter.toNat + 1 = 1000 ∧
        rotated.sessionKey = (fun i => encCtx.sessionKey i + 1) ∧
        rotated.keyRotationCounter.toNat = 0) := by
  have hsucc : (encCtx.keyRotationCounter + 1).toNat = encCtx.keyRotationCounter.toNat + 1 := by
    rw [UInt64.toNat_add, UInt64.toNat_one]
    omega
  have hdue : encCtx.keyRotationCounter + 1 ≥ 1000 ↔
      1000 ≤ encCtx.keyRotationCounter.toNat + 1 := by
    rw [ge_iff_le, UInt64.le_iff_toNat_le, hsucc]
    rfl
  unfold checkKeyRotation
  dsimp only
  split
  · rename_i hrotate
    refine ⟨rfl, Or.inr ⟨?_, ?_, rfl⟩⟩
    · have hge := hdue.mp hrotate
      omega
    · funext i
      exact UInt8.and_neg_one
  · rename_i hkeep
    refine ⟨rfl, Or.inl ⟨?_, rfl, hsucc⟩⟩
    have hlt := mt hdue.mpr hkeep
    omega

theorem OnSchedule.encrypted (h : OnSchedule key run) {plaintext : List UInt8} {capacity : UInt64}
    (hout : encryptData run.encCtx plaintext capacity =
      (some (sealBytes 16 run.encCtx.sessionKey plaintext), checkKeyRotation { run.encCtx with
        sequenceNumber := run.encCtx.sequenceNumber + 1
        keyRotationCounter := run.encCtx.keyRotationCounter + 1 })) :
    OnSchedule key (run.step (.encrypt plaintext capacity)) := by
  have hcounter : run.encCtx.keyRotationCounter.toNat < 1000 := by
    rw [h.counter_eq]
    omega
  have hsealed : (run.step (.encrypt plaintext capacity)).encryptions =
      run.encryptions ++ [(plaintext, sealBytes 16 run.encCtx.sessionKey plaintext)] := by
    simp [CipherRun.encryptions, CipherRun.step, CipherOp.call, hout, encryption]
  have hopened : (run.step (.encrypt plaintext capacity)).decryptions = run.decryptions := by
    simp [CipherRun.decryptions, CipherRun.step, isDecryption]
  obtain ⟨hsequence, hkeys⟩ := rotation_cases hcounter
  have hctx : (run.step (.encrypt plaintext capacity)).encCtx = checkKeyRotation { run.encCtx with
      sequenceNumber := run.encCtx.sequenceNumber + 1
      keyRotationCounter := run.encCtx.keyRotationCounter + 1 } := by
    rw [CipherRun.step, CipherOp.call, hout]
  have hbefore := h.counter_eq
  rw [h.counter_eq] at hkeys
  constructor
  · intro i
    rw [hctx, hsealed, List.length_append, List.length_singleton]
    have hkey := h.sessionKey_eq i
    rcases hkeys with ⟨hlt, hsame, _⟩ | ⟨hdue, hnext, _⟩
    · rw [hsame, hkey]
      congr 2
      omega
    · rw [hnext, UInt8.toNat_add, hkey, UInt8.toNat_one]
      omega
  · rw [hctx, hsealed, List.length_append, List.length_singleton]
    rcases hkeys with ⟨hlt, _, hcount⟩ | ⟨hdue, _, hcount⟩
    · rw [hcount]
      omega
    · rw [hcount]
      omega
  · rw [hctx, hsequence, hsealed, hopened, List.length_append, List.length_singleton,
      UInt32.toNat_add, h.sequence_eq, UInt32.toNat_one]
    omega
  · intro n text ciphertext hn
    rw [hsealed] at hn
    rcases Nat.lt_or_ge n run.encryptions.length with hlt | hge
    · rw [List.getElem?_append_left hlt] at hn
      exact h.ciphertext_eq n text ciphertext hn
    · rw [List.getElem?_append_right hge, List.getElem?_singleton] at hn
      split at hn
      · rename_i hlast
        obtain rfl : n = run.encryptions.length := by omega
        obtain ⟨rfl, rfl⟩ := Prod.mk.inj (Option.some.inj hn)
        rw [h.key_eq]
      · cases hn

theorem OnSchedule.unchanged (h : OnSchedule key run) {op : CipherOp}
    (hout : op.call run.encCtx = (none, run.encCtx)) : OnSchedule key (run.step op) := by
  have hctx : (run.step op).encCtx = run.encCtx := by rw [CipherRun.step, hout]
  have hsealed : (run.step op).encryptions = run.encryptions := by
    cases op <;> simp [CipherRun.encryptions, CipherRun.step, hout, encryption]
  have hopened : (run.step op).decryptions = run.decryptions := by
    cases op <;> simp [CipherRun.decryptions, CipherRun.step, hout, isDecryption]
  constructor
  · rw [hctx, hsealed]
    exact h.sessionKey_eq
  · rw [hctx, hsealed]
    exact h.counter_eq
  · rw [hctx, hsealed, hopened]
    exact h.sequence_eq
  · rw [hsealed]
    exact h.ciphertext_eq

theorem OnSchedule.decrypted (h : OnSchedule key run) {ciphertext plaintext : List UInt8}
    {capacity : UInt64}
    (hout : decryptData run.encCtx ciphertext capacity = (some plaintext,
      { run.encCtx with sequenceNumber := run.encCtx.sequenceNumber + 1 })) :
    OnSchedule key (run.step (.decrypt ciphertext capacity)) := by
  have hctx : (run.step (.decrypt ciphertext capacity)).encCtx =
      { run.encCtx with sequenceNumber := run.encCtx.sequenceNumber + 1 } := by
    rw [CipherRun.step, CipherOp.call, hout]
  have hsealed : (run.step (.decrypt ciphertext capacity)).encryptions = run.encryptions := by
    simp [CipherRun.encryptions, CipherRun.step, encryption]
  have hopened : (run.step (.decrypt ciphertext capacity)).decryptions =
      run.decryptions + 1 := by
    simp [CipherRun.decryptions, CipherRun.step, CipherOp.call, hout, isDecryption]
  constructor
  · rw [hctx, hsealed]
    exact h.sessionKey_eq
  · rw [hctx, hsealed]
    exact h.counter_eq
  · rw [hctx, hsealed, hopened, UInt32.toNat_add, h.sequence_eq, UInt32.toNat_one]
    omega
  · rw [hsealed]
    exact h.ciphertext_eq

theorem OnSchedule.step (h : OnSchedule key run) (op : CipherOp) : OnSchedule key (run.step op) := by
  cases op with
  | encrypt plaintext capacity =>
    rcases encryptData_cases run.encCtx plaintext capacity with heq | heq
    · exact h.unchanged heq
    · exact h.encrypted heq
  | decrypt ciphertext capacity =>
    rcases decryptData_cases run.encCtx ciphertext capacity with heq | ⟨plaintext, heq⟩
    · exact h.unchanged heq
    · exact h.decrypted heq

theorem onSchedule_start (encCtx : EncryptionContext) (key : Fin 32 → UInt8) :
    OnSchedule key ⟨initEncryptionContext encCtx key, []⟩ := by
  constructor
  · intro i
    simp [CipherRun.encryptions, Nat.mod_eq_of_lt (key i).toNat_lt]
  · rfl
  · rfl
  · intro n plaintext ciphertext hn
    cases hn

end Schedule

/-- The closed form holds after any calls in any order. -/
theorem key_schedule (encCtx : EncryptionContext) (key : Fin 32 → UInt8) (ops : List CipherOp) :
    Always CipherRun.step (OnSchedule key) ⟨initEncryptionContext encCtx key, []⟩ ops ∧
      EachStep CipherRun.step FailureKeeps ⟨initEncryptionContext encCtx key, []⟩ ops := by
  constructor
  · exact always_of_invariant (fun run op h => h.step op) (onSchedule_start encCtx key) ops
  · intro pre op _
    exact failureKeeps _ op

end TcpChat.Client
