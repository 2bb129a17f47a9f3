import TcpChat.Base.ColumnXor
import TcpChat.Client.KeyExchange

/-!
# What the self-signature covers

The signature of a key exchange packet folds 96 bytes of what is signed onto its own 32. What is
signed has 112 bytes, so the last 16 of the nickname are anyone's to change.
-/

namespace TcpChat.Client

open Base Base.Bytes Base.XorCodec
set_option autoImplicit false

/-- A byte of one of the four fields. -/
inductive PacketByte where
  | userId (i : Fin 16)
  | publicKey (i : Fin 32)
  | nickname (i : Fin 64)
  | signature (i : Fin 32)

namespace PacketByte

def get (packet : E2eKeyExchangePacket) : PacketByte → UInt8
  | .userId i => packet.userId i
  | .publicKey i => packet.publicKey i
  | .nickname i => packet.nickname i
  | .signature i => packet.signature i

def set (packet : E2eKeyExchangePacket) (b : UInt8) : PacketByte → E2eKeyExchangePacket
  | .userId i => { packet with userId := Function.update packet.userId i b }
  | .publicKey i => { packet with publicKey := Function.update packet.publicKey i b }
  | .nickname i => { packet with nickname := Function.update packet.nickname i b }
  | .signature i => { packet with signature := Function.update packet.signature i b }

/-- Where the byte stands in memory. -/
def offset : PacketByte → Nat
  | .userId i => i
  | .publicKey i => 16 + i
  | .nickname i => 16 + 32 + i
  | .signature i => 16 + 32 + 64 + i

/-- All but the last 16 bytes of the nickname. -/
def Covered : PacketByte → Prop
  | .nickname i => i.val < 48
  | .userId _ | .publicKey _ | .signature _ => True

end PacketByte

/-- Byte `m` of the packet in memory. -/
def E2eKeyExchangePacket.byte (packet : E2eKeyExchangePacket) (m : Nat) : UInt8 :=
  packet.image.getD m 0

section Change
variable (packet : E2eKeyExchangePacket) (b : UInt8) (place : PacketByte)

theorem offset_lt : place.offset < 144 := by
  cases place with
  | userId i | publicKey i | nickname i | signature i =>
    have hi := i.isLt
    simp only [PacketByte.offset]
    omega

theorem image_set : (place.set packet b).image = packet.image.set place.offset b := by
  cases place with
  | userId i =>
    have hset := @set_segment 16 0 [] (List.ofFn packet.publicKey ++ (List.ofFn packet.nickname ++
      List.ofFn packet.signature)) packet.userId i b rfl
    rw [Nat.zero_add] at hset
    exact hset.symm
  | publicKey i => exact (set_segment _ packet.publicKey i b (by simp)).symm
  | nickname i =>
    have hset := @set_segment 64 (16 + 32) (List.ofFn packet.userId ++ List.ofFn packet.publicKey)
      (List.ofFn packet.signature) packet.nickname i b (by simp)
    simp only [List.append_assoc] at hset
    exact hset.symm
  | signature i =>
    have hset := @set_segment 32 (16 + 32 + 64) (List.ofFn packet.userId ++
      (List.ofFn packet.publicKey ++ List.ofFn packet.nickname)) [] packet.signature i b (by simp)
    simp only [List.append_nil, List.append_assoc] at hset
    exact hset.symm

theorem byte_set (m : Nat) :
    (place.set packet b).byte m = if m = place.offset then b else packet.byte m := by
  have hlt : place.offset < packet.image.length := by
    rw [E2eKeyExchangePacket.length_image]
    exact offset_lt place
  rw [E2eKeyExchangePacket.byte, image_set, E2eKeyExchangePacket.byte, List.getD_eq_getElem?_getD,
    List.getElem?_set, List.getD_eq_getElem?_getD]
  by_cases hm : m = place.offset
  · rw [if_pos hm.symm, if_pos hlt, if_pos hm, Option.getD_some]
  · rw [if_neg (Ne.symm hm), if_neg hm]

end Change

section Signature
variable {packet : E2eKeyExchangePacket}

/-- What is signed is the packet without the signature. -/
theorem append_eq_byte (k : Fin (16 + 32 + 64)) :
    Fin.append (Fin.append packet.userId packet.publicKey) packet.nickname k =
      packet.byte k.val := by
  have hk : k.val < (List.ofFn (Fin.append (Fin.append packet.userId packet.publicKey)
      packet.nickname)).length := by
    rw [List.length_ofFn]
    exact k.isLt
  have himage : packet.image = List.ofFn (Fin.append (Fin.append packet.userId packet.publicKey)
      packet.nickname) ++ List.ofFn packet.signature := by
    rw [List.ofFn_fin_append, List.ofFn_fin_append, E2eKeyExchangePacket.image, List.append_assoc,
      List.append_assoc]
  rw [E2eKeyExchangePacket.byte, himage, List.getD_eq_getElem?_getD, List.getElem?_append_left hk,
    List.getElem?_eq_getElem hk, Option.getD_some, List.getElem_ofFn]

theorem signature_eq_byte (i : Fin 32) : packet.signature i = packet.byte (112 + i.val) := by
  have hfield : packet.signature = (E2eKeyExchangePacket.ofImage packet.image).signature := by
    rw [E2eKeyExchangePacket.ofImage_image]
  rw [hfield]
  rfl

/-- Three periods of 32 bytes. -/
theorem columnXor_three (f : Nat → UInt8) {i : Nat} (hi : i < 32) :
    columnXor 32 96 f i = f i ^^^ f (i + 32) ^^^ f (i + 64) := by
  have hone : ∀ g : Nat → UInt8, columnXor 32 32 g i = g i := by
    intro g
    have honly := columnXor_of_only (w := 32) (n := 32) (f := g) hi (fun k hk hcol hne => by omega)
    rwa [Nat.mod_eq_of_lt hi] at honly
  have hsplit : columnXor 32 (32 + (32 + 32)) f i =
      f i ^^^ (f (32 + i) ^^^ f (32 + (32 + i))) := by
    rw [columnXor_add _ (by decide), columnXor_add _ (by decide), hone, hone, hone]
  rw [show 96 = 32 + (32 + 32) from rfl, hsplit, UInt8.xor_assoc, Nat.add_comm 32 i,
    show 32 + (i + 32) = i + 64 by omega]

/-- A packet is valid when each byte of its signature is the column above it. -/
theorem verify_iff :
    e2eVerifyKeyExchangePacket packet = true ↔ ∀ i < 32,
      packet.byte (112 + i) = columnXor 32 96 packet.byte i ^^^ UInt8.ofNat (i * 19) := by
  rw [e2eVerifyKeyExchangePacket, decide_eq_true_eq, funext_iff]
  have hbyte : ∀ i : Fin 32, keyExchangeSignature packet.userId packet.publicKey packet.nickname i =
      columnXor 32 96 packet.byte i ^^^ UInt8.ofNat (i.val * 19) := by
    intro i
    rw [columnXor_three _ i.isLt]
    simp only [keyExchangeSignature, append_eq_byte]
  constructor
  · intro h i hi
    have hi' := h ⟨i, hi⟩
    rwa [signature_eq_byte, hbyte] at hi'
  · intro h i
    rw [signature_eq_byte, hbyte]
    exact h i.val i.isLt

theorem get_eq_byte (place : PacketByte) : place.get packet = packet.byte place.offset := by
  have hfield : place.get packet =
      place.get (E2eKeyExchangePacket.ofImage packet.image) := by
    rw [E2eKeyExchangePacket.ofImage_image]
  rw [hfield]
  cases place with
  | userId i => rw [E2eKeyExchangePacket.byte, PacketByte.offset, ← Nat.zero_add i.val]; rfl
  | publicKey i | nickname i | signature i => rfl

theorem columnXor_set (place : PacketByte) (b : UInt8) (i : Nat) :
    columnXor 32 96 (place.set packet b).byte i = columnXor 32 96 packet.byte i ^^^
      if place.offset < 96 ∧ place.offset % 32 = i then place.get packet ^^^ b else 0 := by
  have hsplit : columnXor 32 96 (place.set packet b).byte i = columnXor 32 96 packet.byte i ^^^
      columnXor 32 96 (fun k => if k = place.offset then place.get packet ^^^ b else 0) i := by
    rw [← columnXor_xor]
    apply columnXor_congr
    intro k _
    rw [byte_set]
    split
    · rename_i hk
      rw [hk, get_eq_byte, ← UInt8.xor_assoc, UInt8.xor_self, UInt8.zero_xor]
    · rw [UInt8.xor_zero]
  rw [hsplit]
  congr 1
  split
  · rename_i hcol
    obtain ⟨hlt, rfl⟩ := hcol
    rw [columnXor_of_only hlt fun k _ _ hne => if_neg hne, if_pos rfl]
  · rename_i hcol
    apply columnXor_eq_zero
    intro k hk hki
    refine if_neg fun hkm => hcol ?_
    rw [← hkm]
    exact ⟨hk, hki⟩

theorem covered_iff (place : PacketByte) :
    place.Covered ↔ place.offset < 96 ∨ 112 ≤ place.offset := by
  cases place with
  | userId i | publicKey i | nickname i | signature i =>
    simp only [PacketByte.Covered, PacketByte.offset, true_iff]
    omega

/-- A valid packet with one byte changed is refused when the byte is covered. -/
theorem refused_iff_covered (hverify : e2eVerifyKeyExchangePacket packet = true)
    {place : PacketByte} {b : UInt8} (hne : place.get packet ≠ b) :
    e2eVerifyKeyExchangePacket (place.set packet b) = false ↔ place.Covered := by
  have hvalid := verify_iff.mp hverify
  rw [← Bool.not_eq_true, verify_iff, covered_iff]
  constructor
  · intro hrefused
    by_contra huncovered
    obtain ⟨hfolded, hsignature⟩ := not_or.mp huncovered
    apply hrefused
    intro i hi
    rw [columnXor_set, if_neg (fun h => hfolded h.1), UInt8.xor_zero, byte_set,
      if_neg (by omega)]
    exact hvalid i hi
  · intro hcovered hall
    rcases hcovered with hfolded | hsignature
    · -- the column of the byte is no longer what is signed
      have hi : place.offset % 32 < 32 := Nat.mod_lt _ (by decide)
      have hcolumn := hall (place.offset % 32) hi
      rw [columnXor_set, if_pos ⟨hfolded, rfl⟩, byte_set, if_neg (by omega), hvalid _ hi,
        UInt8.xor_left_inj] at hcolumn
      have hzero : columnXor 32 96 packet.byte (place.offset % 32) ^^^ 0 =
          columnXor 32 96 packet.byte (place.offset % 32) ^^^ (place.get packet ^^^ b) := by
        rw [UInt8.xor_zero]
        exact hcolumn
      exact hne (UInt8.xor_eq_zero_iff.mp ((UInt8.xor_right_inj _).mp hzero).symm)
    · have hlt := offset_lt place
      have hcolumn := hall (place.offset - 112) (by omega)
      rw [columnXor_set, if_neg (by omega), UInt8.xor_zero, byte_set, if_pos (by omega),
        ← hvalid _ (by omega), show 112 + (place.offset - 112) = place.offset by omega,
        ← get_eq_byte] at hcolumn
      exact hne hcolumn.symm

end Signature

/-- What a client creates is accepted, and a changed byte of an accepted packet is noticed unless
it is one of the last 16 of the nickname. -/
theorem selfSignature_covers (ctx : E2eContext) (packet : E2eKeyExchangePacket)
    (place : PacketByte) (b : UInt8) :
    e2eVerifyKeyExchangePacket (e2eCreateKeyExchangePacket ctx) = true ∧
      (e2eVerifyKeyExchangePacket packet = true → place.get packet ≠ b →
        (e2eVerifyKeyExchangePacket (place.set packet b) = false ↔ place.Covered)) :=
  ⟨verify_create ctx, fun hverify hne => refused_iff_covered hverify hne⟩

/-- The end of the nickname is changed and the packet is accepted all the same. -/
theorem changed_nickname_passes :
    ¬ ((∀ ctx, e2eVerifyKeyExchangePacket (e2eCreateKeyExchangePacket ctx) = true) ∧
      ∀ packet, e2eVerifyKeyExchangePacket packet = true → ∀ place b,
        PacketByte.get packet place ≠ b →
        e2eVerifyKeyExchangePacket (PacketByte.set packet b place) = false) := by
  intro h
  have hcreated := verify_create (e2eContextInit "ann" 0 0 fun _ => 0)
  have hrefused := h.2 _ hcreated (.nickname 48) 120 (by decide)
  have hcovered : (48 : Fin 64).val < 48 := (refused_iff_covered hcreated (by decide)).mp hrefused
  exact absurd hcovered (by decide)

end TcpChat.Client
