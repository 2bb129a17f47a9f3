import TcpChat.Base.HexLanguage
import TcpChat.Client.Client

/-!
# Which texts are taken for packets

Both parsers read every pair of characters with `sscanf`, so they take texts that no client
writes: white space, signs and stray characters behind a digit.
-/

namespace TcpChat.Client

open Base Base.Bytes
set_option autoImplicit false

/-- `parse` takes the texts of `2 * size` hexadecimal digits and no others, and the packet is
written as the text in lower case. -/
structure AcceptsDigits {Packet : Type} (parse : CString → Option Packet)
    (image : Packet → List UInt8) (size : Nat) (text : CString) : Prop where
  accepted_iff : (parse text).isSome = true ↔
    text.length = 2 * size ∧ ∀ c ∈ text.bytes, IsHexDigit c
  written : ∀ packet, parse text = some packet → hexEncode (image packet) = text.bytes.map toLower

/-- The text has another length, is made of digits, or has no number at one of the places where
the loop looks for one. -/
def Unambiguous (size : Nat) (text : CString) : Prop :=
  text.length ≠ 2 * size ∨ (∀ c ∈ text.bytes, IsHexDigit c) ∨
    ∃ i < size, ¬ NumberAt (text.bytes.drop (2 * i))

section Parser
variable {Packet : Type} {parse : CString → Option Packet} {image : Packet → List UInt8}
  {ofImage : List UInt8 → Packet} {size : Nat}
  (hparse : ∀ text, parse text =
    if text.length ≠ size * 2 then none else (hexDecode size text.bytes).map ofImage)
  (himage : ∀ bytes, bytes.length = size → image (ofImage bytes) = bytes)
include hparse

theorem parse_isSome_iff (text : CString) :
    (parse text).isSome = true ↔
      text.length = 2 * size ∧ ∀ i < size, NumberAt (text.bytes.drop (2 * i)) := by
  rw [hparse, Nat.mul_comm size]
  split
  · rename_i hlength
    exact iff_of_false Bool.false_ne_true fun h => hlength h.1
  · rename_i hlength
    rw [Option.isSome_map, hexDecode_isSome_iff]
    exact ⟨fun h => ⟨not_not.mp hlength, h⟩, fun h => h.2⟩

include himage

/-- A text of digits is taken, and its packet is written as the text. -/
theorem parse_digits {text : CString} (hlength : text.length = 2 * size)
    (hdigits : ∀ c ∈ text.bytes, IsHexDigit c) :
    ∃ packet, parse text = some packet ∧
      hexEncode (image packet) = text.bytes.map toLower := by
  obtain ⟨bytes, hdecode, hencode⟩ := hexDecode_digits hlength hdigits
  refine ⟨ofImage bytes, ?_, ?_⟩
  · rw [hparse, if_neg (not_not.mpr (by rw [hlength, Nat.mul_comm])), hdecode, Option.map_some]
  · rw [himage bytes (length_of_hexDecode hdecode), hencode]

theorem acceptsDigits_iff (text : CString) :
    AcceptsDigits parse image size text ↔ Unambiguous size text := by
  have hsome := parse_isSome_iff hparse text
  constructor
  · intro law
    by_cases hlength : text.length = 2 * size
    · by_cases hnumbers : ∀ i < size, NumberAt (text.bytes.drop (2 * i))
      · exact Or.inr (Or.inl (law.accepted_iff.mp (hsome.mpr ⟨hlength, hnumbers⟩)).2)
      · obtain ⟨i, hi⟩ := not_forall.mp hnumbers
        obtain ⟨hlt, hnumber⟩ := Classical.not_imp.mp hi
        exact Or.inr (Or.inr ⟨i, hlt, hnumber⟩)
    · exact Or.inl hlength
  · intro hunambiguous
    have haccepted : (parse text).isSome = true →
        text.length = 2 * size ∧ ∀ c ∈ text.bytes, IsHexDigit c := by
      intro h
      obtain ⟨hlength, hnumbers⟩ := hsome.mp h
      rcases hunambiguous with hother | hdigits | ⟨i, hi, hnone⟩
      · exact absurd hlength hother
      · exact ⟨hlength, hdigits⟩
      · exact absurd (hnumbers i hi) hnone
    refine ⟨⟨haccepted, fun h => ?_⟩, fun packet hpacket => ?_⟩
    · obtain ⟨packet, hpacket, _⟩ := parse_digits hparse himage h.1 h.2
      rw [hpacket]
      rfl
    · obtain ⟨hlength, hdigits⟩ := haccepted (by rw [hpacket]; rfl)
      obtain ⟨packet', hpacket', hwritten⟩ := parse_digits hparse himage hlength hdigits
      rw [Option.some.inj (hpacket.symm.trans hpacket')]
      exact hwritten

end Parser

theorem keyExchange_acceptsDigits_iff (text : CString) :
    AcceptsDigits clientParseKeyExchange E2eKeyExchangePacket.image keyExchangePacketSize text ↔
      Unambiguous keyExchangePacketSize text :=
  acceptsDigits_iff (fun _ => rfl) (fun _ h => E2eKeyExchangePacket.image_ofImage h) text

theorem e2ePacket_acceptsDigits_iff (text : CString) :
    AcceptsDigits parseE2ePacket E2eEncryptedPacket.image encryptedPacketSize text ↔
      Unambiguous encryptedPacketSize text :=
  acceptsDigits_iff (fun _ => rfl) (fun _ h => E2eEncryptedPacket.image_ofImage h) text

/-- Each parser keeps to the encoder's language on the texts that are not ambiguous. -/
theorem hexParsers_accept_digits_iff (text : CString) :
    (AcceptsDigits clientParseKeyExchange E2eKeyExchangePacket.image keyExchangePacketSize text ↔
      Unambiguous keyExchangePacketSize text) ∧
    (AcceptsDigits parseE2ePacket E2eEncryptedPacket.image encryptedPacketSize text ↔
      Unambiguous encryptedPacketSize text) :=
  ⟨keyExchange_acceptsDigits_iff text, e2ePacket_acceptsDigits_iff text⟩

section Signed

/-- A plus sign in front of zeros. -/
def signedZeros (zeros : Nat) : CString where
  bytes := 43 :: List.replicate zeros 48
  noNul := by
    intro h
    rcases List.mem_cons.mp h with h | h
    · exact absurd h (by decide)
    · exact absurd (List.eq_of_mem_replicate h) (by decide)

theorem numberAt_zeros {zeros : Nat} (h : 0 < zeros) : NumberAt (List.replicate zeros 48) := by
  obtain ⟨more, rfl⟩ := Nat.exists_eq_succ_of_ne_zero (Nat.ne_of_gt h)
  refine ⟨[], 48, List.replicate more 48, rfl, fun b hb => absurd hb List.not_mem_nil, ?_⟩
  refine Or.inr ⟨by decide, fun hx => ?_⟩
  have hhead : ∀ c, (List.replicate more (48 : UInt8)).head? = some c → c = 48 :=
    fun c hc => List.eq_of_mem_replicate (List.mem_of_head? hc)
  rcases hx.2 with hx | hX
  · exact absurd (hhead _ hx) (by decide)
  · exact absurd (hhead _ hX) (by decide)

theorem signedZeros_ambiguous {size : Nat} (h : 0 < size) :
    ¬ Unambiguous size (signedZeros (2 * size - 1)) := by
  intro hunambiguous
  rcases hunambiguous with hlength | hdigits | ⟨i, hi, hnone⟩
  · apply hlength
    rw [CString.length, signedZeros, List.length_cons, List.length_replicate]
    omega
  · exact absurd (hdigits 43 List.mem_cons_self) (by decide)
  · apply hnone
    cases i with
    | zero =>
      refine ⟨[], 43, List.replicate (2 * size - 1) 48, rfl,
        fun b hb => absurd hb List.not_mem_nil, Or.inl ⟨Or.inl rfl, 48, ?_, by decide⟩⟩
      rw [List.head?_replicate, if_neg (by omega)]
    | succ i =>
      have hdrop : (signedZeros (2 * size - 1)).bytes.drop (2 * (i + 1)) =
          List.replicate (2 * size - 1 - (2 * i + 1)) 48 := by
        rw [signedZeros, Nat.mul_succ, List.drop_succ_cons, List.drop_replicate]
      rw [hdrop]
      exact numberAt_zeros (by omega)

/-- Both parsers take a plus sign and zeros. -/
theorem signed_text_taken :
    ¬ (∀ text, AcceptsDigits clientParseKeyExchange E2eKeyExchangePacket.image
      keyExchangePacketSize text) ∧
    ¬ ∀ text, AcceptsDigits parseE2ePacket E2eEncryptedPacket.image encryptedPacketSize text := by
  constructor
  · intro h
    have law := h (signedZeros (2 * keyExchangePacketSize - 1))
    exact signedZeros_ambiguous (by decide) ((keyExchange_acceptsDigits_iff _).mp law)
  · intro h
    have law := h (signedZeros (2 * encryptedPacketSize - 1))
    exact signedZeros_ambiguous (by decide) ((e2ePacket_acceptsDigits_iff _).mp law)

end Signed

end TcpChat.Client
