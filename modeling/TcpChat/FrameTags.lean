import TcpChat.Client.Receiver
import TcpChat.NicknameShape

/-!
# Chat lines and tagged frames

The server writes a chat line behind the nickname of its sender, and the receiver thread tells
frames from lines by what they begin with. So what a line is taken for is up to the nickname.
-/

namespace TcpChat.FrameTags

open Base Base.Runs
open Server (System Label parse relayText)
open Client (ClientT messageReceiverTurn withNewline)
set_option autoImplicit false

/-- Followed by the colon of a chat line, the nickname begins with the tag of a frame. -/
def TagNickname (nickname : CString) : Prop :=
  (nickname ++ ":").startsWith "/keyexchange:" = true ∨
    (nickname ++ ":").startsWith "/e2emsg:" = true

/-- The receiver thread of `client` shows `line` as a message of the server. -/
def Shows (client : ClientT) (line : CString) : Prop :=
  (messageReceiverTurn client (.bytes line.bytes)).shown = some (.regular line)

/-- The lines that are made of what the client in a slot says are shown. -/
def ChatLinesShown (sys : System) : Prop :=
  ∀ d, (sys.server.session d).active = true → ∀ message text line, parse message = .chat text →
    relayText (sys.server.session d) (.chat text) = some line →
    ∀ client : ClientT, client.connected = true → Shows client line

section Tags
variable {tag nickname : CString}

/-- Whether a line begins with a tag is decided by the time its first colon is read, if the tag
has no colon before its last byte. -/
theorem startsWith_line_iff (rest : CString) (honly : 58 ∉ tag.bytes.dropLast) :
    (nickname ++ ":" ++ rest).startsWith tag = true ↔ (nickname ++ ":").startsWith tag = true := by
  rw [CString.startsWith_iff, CString.startsWith_iff, CString.bytes_append]
  constructor
  · intro h
    rcases Nat.lt_or_ge (nickname ++ ":").bytes.length tag.bytes.length with hlt | hge
    · exfalso
      apply honly
      -- the nickname and its colon lie within the tag, so the colon is not the last byte there
      have hinside := List.prefix_of_prefix_length_le (List.prefix_append _ rest.bytes) h
        (Nat.le_of_lt hlt)
      obtain ⟨tail, htail⟩ := hinside
      have hne : tail ≠ [] := by
        intro heq
        rw [heq, List.append_nil] at htail
        rw [htail] at hlt
        exact absurd hlt (Nat.lt_irrefl _)
      rw [← htail, List.dropLast_append_of_ne_nil hne]
      apply List.mem_append_left
      rw [CString.bytes_append]
      apply List.mem_append_right
      decide
    · exact List.prefix_of_prefix_length_le h (List.prefix_append _ _) hge
  · intro h
    exact List.prefix_append_of_prefix h

end Tags

section Turn
variable {client : ClientT} {line : CString}

theorem withNewline_line (body : CString) : withNewline (body ++ "\n") = body ++ "\n" := by
  have hlast : (body ++ "\n" : CString).bytes.getLast? = some 10 := by
    rw [CString.bytes_append]
    have hend : (CString.ofString "\n").bytes = [10] := by decide
    rw [hend]
    exact List.getLast?_concat
  unfold withNewline
  exact if_neg fun h => h.2 hlast

/-- A frame is never shown as a message of the server. -/
theorem shows_iff (hconnected : client.connected = true) (hline : withNewline line = line) :
    Shows client line ↔ line.startsWith "/keyexchange:" = false ∧
      line.startsWith "/e2emsg:" = false := by
  unfold Shows messageReceiverTurn
  rw [if_neg (by simp [hconnected])]
  dsimp only
  rw [CString.ofBuffer_bytes]
  cases hkey : line.startsWith "/keyexchange:" with
  | true =>
    rw [if_pos rfl]
    refine iff_of_false ?_ (fun h => Bool.noConfusion h.1)
    intro h
    split at h
    all_goals cases h
  | false =>
    rw [if_neg Bool.false_ne_true]
    cases hmessage : line.startsWith "/e2emsg:" with
    | true =>
      rw [if_pos rfl]
      refine iff_of_false ?_ (fun h => Bool.noConfusion h.2)
      intro h
      cases hhandled : Client.clientHandleE2eMessage client (line.drop 8) with
      | none =>
        rw [hhandled] at h
        cases h
      | some shown =>
        rw [hhandled] at h
        cases h
    | false =>
      rw [if_neg Bool.false_ne_true, hline]
      exact iff_of_true rfl ⟨rfl, rfl⟩

end Turn

/-- Nicknames of live sessions fit their buffers, whatever happens. -/
theorem nicknames_short (libc : Server.Libc) (memory : Server.State) (labels : List Label) :
    Always (System.step libc) (fun sys => ∀ d, (sys.server.session d).active = true →
      (sys.server.session d).nickname.length < maxNicknameLen) (System.start memory) labels := by
  apply always_of_invariant
  · intro sys label h d hactive
    generalize hname : ((sys.step libc label).server.session d).nickname = nickname
    have hfrom := Server.nicknameFrom_step hactive
    rw [hname] at hfrom
    cases hfrom with
    | kept hbefore => exact h d hbefore
    | syn htakes =>
      obtain ⟨_, _, _, _, _, _, _, _, _, hlt⟩ := htakes
      exact hlt
    | asked => exact Server.length_cleanNickname_lt _
    | given hfd => exact (Server.shaped_defaultNickname hfd).length_lt
  · intro d hactive
    cases hactive

/-- Whatever nicknames the clients of a server have got, a chat line is shown exactly when the
nickname in front of it is not that of a frame. -/
theorem chat_line_shown_iff (libc : Server.Libc) (memory : Server.State) (labels : List Label) :
    Always (System.step libc)
      (fun sys => ∀ d, (sys.server.session d).active = true → ∀ message text line,
        parse message = .chat text →
        relayText (sys.server.session d) (.chat text) = some line →
        ∀ client : ClientT, client.connected = true →
          (Shows client line ↔ ¬ TagNickname (sys.server.session d).nickname))
      (System.start memory) labels := by
  refine (nicknames_short libc memory labels).imp ?_
  intro sys hshort d hactive message text line hparse hrelay client hconnected
  have hline := Server.chat_line_eq (hshort d hactive) hparse hrelay
  have hnewline : withNewline line = line := by
    rw [hline]
    exact withNewline_line _
  have hsplit : line = (sys.server.session d).nickname ++ ":" ++ (" " ++ text ++ "\n") := by
    have hcolon : CString.ofString ": " = CString.ofString ":" ++ " " := by
      ext1
      decide
    rw [hline, hcolon]
    ext1
    simp only [CString.bytes_append, List.append_assoc]
  rw [shows_iff hconnected hnewline, hsplit, ← Bool.not_eq_true, ← Bool.not_eq_true,
    startsWith_line_iff _ (by decide), startsWith_line_iff _ (by decide), TagNickname, not_or]

/-- A client that calls itself `/keyexchange` is not heard. -/
theorem chat_line_mistaken :
    ¬ ∀ (libc : Server.Libc) (memory : Server.State) (labels : List Label),
      Always (System.step libc) ChatLinesShown (System.start memory) labels := by
  intro h
  have hshown := (h Server.countingLibc Server.zeroedMemory
    [.accept 5 true true Server.calm,
      .handler 0 ⟨some (HandshakePacket.zero.setNickname "/keyexchange"), none, 0,
        Server.calm⟩]).last
  have hline := hshown 0 (by decide +kernel) "hello" "hello" "/keyexchange: hello\n"
    (by decide +kernel) (by decide +kernel)
    ⟨"ann", true, .plain Server.sessionKey,
      ⟨⟨fun _ => 0, fun _ => 0, fun _ => 0, "ann"⟩, fun _ => ⟨fun _ => 0, fun _ => 0, .empty, false⟩,
        0⟩⟩ rfl
  unfold Shows at hline
  exact absurd hline (by decide +kernel)

end TcpChat.FrameTags
