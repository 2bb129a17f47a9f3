import TcpChat.Client.Client

/-!
# Whether user ids tell users apart

A user id is 16 bytes of the nickname, masked with the low bits of the clock and of the process
id. What stands behind them in the nickname is not looked at, and the masks of two clients may
make up for a difference between their names.
-/

namespace TcpChat.Client

open Base
set_option autoImplicit false

/-- The mask on byte `i` of the ids. -/
def idMask (timestamp pid : UInt32) (i : Fin 16) : UInt8 :=
  ((timestamp ^^^ pid) >>> UInt32.ofNat (i.val % 4)).toUInt8

/-- At one of the 16 bytes the nicknames differ by something else than the masks do. A nickname
that has ended counts as zeros. -/
def NamesApart (n₁ n₂ : CString) (timestamp₁ pid₁ timestamp₂ pid₂ : UInt32) : Prop :=
  ∃ i : Fin 16, n₁.bytes.getD i 0 ^^^ n₂.bytes.getD i 0 ≠
    idMask timestamp₁ pid₁ i ^^^ idMask timestamp₂ pid₂ i

/-- Two clients have different ids. So the first takes what the second announces for the key of
another, and who has the key of the first keeps it when the second announces his. -/
structure IdsTellApart (n₁ n₂ : CString) (timestamp₁ pid₁ timestamp₂ pid₂ : UInt32) : Prop where
  different : e2eGenerateUserId n₁ timestamp₁ pid₁ ≠ e2eGenerateUserId n₂ timestamp₂ pid₂
  not_discarded : ∀ (client : ClientT) (packet : E2eKeyExchangePacket),
    client.e2eCtx.myKeys.userId = e2eGenerateUserId n₁ timestamp₁ pid₁ →
    packet.userId = e2eGenerateUserId n₂ timestamp₂ pid₂ →
    (clientHandleKeyExchange client packet).2 = 0 →
    e2eFindPeerKey (clientHandleKeyExchange client packet).1.e2eCtx packet.userId =
      some packet.entry
  not_overwritten : ∀ (client : ClientT) (packet : E2eKeyExchangePacket),
    packet.userId = e2eGenerateUserId n₂ timestamp₂ pid₂ →
    e2eFindPeerKey (clientHandleKeyExchange client packet).1.e2eCtx
        (e2eGenerateUserId n₁ timestamp₁ pid₁) =
      e2eFindPeerKey client.e2eCtx (e2eGenerateUserId n₁ timestamp₁ pid₁)

section Mask
variable {n₁ n₂ : CString} {timestamp₁ pid₁ timestamp₂ pid₂ : UInt32}

theorem generateUserId_apply (nickname : CString) (timestamp pid : UInt32) (i : Fin 16) :
    e2eGenerateUserId nickname timestamp pid i =
      nickname.bytes.getD i 0 ^^^ idMask timestamp pid i ^^^ UInt8.ofNat (i.val * 23) := by
  have hbyte : (if i.val < nickname.length then nickname.bytes.getD i 0 else 0) =
      nickname.bytes.getD i 0 := by
    split
    · rfl
    · rename_i hend
      rw [List.getD_eq_getElem?_getD, List.getElem?_eq_none (Nat.not_lt.mp hend), Option.getD_none]
  rw [e2eGenerateUserId, hbyte, idMask, UInt32.shiftRight_xor, UInt32.toUInt8_xor]
  ac_rfl

theorem xor_eq_xor_iff (a b c d e : UInt8) : a ^^^ c ^^^ e = b ^^^ d ^^^ e ↔ a ^^^ b = c ^^^ d := by
  rw [UInt8.xor_left_inj, ← UInt8.xor_left_inj (b ^^^ c)]
  have hleft : a ^^^ c ^^^ (b ^^^ c) = a ^^^ b := by
    rw [UInt8.xor_assoc, UInt8.xor_comm b c, ← UInt8.xor_assoc c c b, UInt8.xor_self,
      UInt8.zero_xor]
  have hright : b ^^^ d ^^^ (b ^^^ c) = c ^^^ d := by
    have hswap : b ^^^ d ^^^ (b ^^^ c) = (b ^^^ b) ^^^ (c ^^^ d) := by ac_rfl
    rw [hswap, UInt8.xor_self, UInt8.zero_xor]
  rw [hleft, hright]

theorem userId_ne_iff :
    e2eGenerateUserId n₁ timestamp₁ pid₁ ≠ e2eGenerateUserId n₂ timestamp₂ pid₂ ↔
      NamesApart n₁ n₂ timestamp₁ pid₁ timestamp₂ pid₂ := by
  rw [Function.ne_iff]
  apply exists_congr
  intro i
  rw [ne_eq, ne_eq, generateUserId_apply, generateUserId_apply, xor_eq_xor_iff]

end Mask

/-- The ids of two clients tell them apart exactly when their nicknames do, within 16 bytes and
under the masks of their clocks and process ids. -/
theorem idsTellApart_iff (n₁ n₂ : CString) (timestamp₁ pid₁ timestamp₂ pid₂ : UInt32) :
    IdsTellApart n₁ n₂ timestamp₁ pid₁ timestamp₂ pid₂ ↔
      NamesApart n₁ n₂ timestamp₁ pid₁ timestamp₂ pid₂ := by
  constructor
  · intro h
    exact userId_ne_iff.mp h.different
  · intro h
    have hne := userId_ne_iff.mpr h
    refine ⟨hne, fun client packet hclient hpacket htaken => ?_, fun client packet hpacket => ?_⟩
    · apply find_handleKeyExchange_self
      refine takesKey_iff.mpr ⟨?_, htaken⟩
      rw [hclient, hpacket]
      exact hne.symm
    · apply find_handleKeyExchange_of_ne
      rw [hpacket]
      exact hne

/-- Two nicknames that are the same for 16 bytes, at one time and under one process id. -/
theorem long_names_collide :
    ¬ ∀ (n₁ n₂ : CString) (timestamp₁ pid₁ timestamp₂ pid₂ : UInt32),
      n₁ ≠ n₂ → n₁.length ≤ 63 → n₂.length ≤ 63 →
      IdsTellApart n₁ n₂ timestamp₁ pid₁ timestamp₂ pid₂ := by
  intro h
  have hapart := h "christopher_smith" "christopher_smits" 1700000000 4242 1700000000 4242
    (by decide) (by decide) (by decide)
  exact absurd hapart.different (by decide)

end TcpChat.Client
