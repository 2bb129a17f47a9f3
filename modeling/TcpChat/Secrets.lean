import TcpChat.Transcript

/-!
# What is typed in secret

Whoever sees what a client sends learns nothing from the arguments of `/e2e`, as long as the
command is typed in the chat and its line fits into the buffer. What does not fit is sent as a
line of its own.
-/

namespace TcpChat.Client

open Base Base.Runs Base.LineReader
open KeyDelivery (keyMessage)
set_option autoImplicit false

def Secret (line : CString) : Prop := line.startsWith "/e2e " = true

instance (line : CString) : Decidable (Secret line) := inferInstanceAs (Decidable (_ = true))

/-- The same lines, up to what is typed in secret once a room is entered. -/
inductive Alike (keyLine : CString) : Phase → List CString → List CString → Prop where
  | nil (phase : Phase) : Alike keyLine phase [] []
  | same {phase : Phase} {line : CString} {lines lines' : List CString}
      (h : Alike keyLine (phase.take keyLine line).2 lines lines') :
      Alike keyLine phase (line :: lines) (line :: lines')
  | secret {line line' : CString} {lines lines' : List CString} (hline : Secret line)
      (hline' : Secret line') (h : Alike keyLine .chatting lines lines') :
      Alike keyLine .chatting (line :: lines) (line' :: lines')

/-- The programs send and show the same and are in the same state, but for what they have been
told and what they have printed about it. -/
structure Same (t t' : Terminal) : Prop where
  client : t'.client = t.client
  phase : t'.phase = t.phase
  frames : t'.frames = t.frames
  farewell : t'.farewell = t.farewell
  shown : t'.shown = t.shown

section Lines
variable {line : CString}

theorem typedLine_of_noNewline (hline : 10 ∉ line.bytes) : typedLine line.bytes = line := by
  unfold typedLine
  rw [CString.ofBuffer_bytes]
  exact if_neg fun h => hline (List.mem_of_getLast? h.2)

/-- Of a line that is too long the rest is taken for a line of its own. -/
theorem typedLines_long (hline : 10 ∉ line.bytes) (hlong : bufferSize - 1 ≤ line.length)
    (rest : List UInt8) :
    typedLines (line.bytes ++ rest) =
      line.take (bufferSize - 1) :: typedLines ((line.drop (bufferSize - 1)).bytes ++ rest) := by
  have hnewline : ∀ b ∈ line.bytes, (b == 10) = false := by
    intro b hb
    have hne : b ≠ 10 := by
      intro heq
      exact hline (heq ▸ hb)
    simpa using hne
  have hne : line.bytes ++ rest ≠ [] := by
    intro hnil
    have hlength : line.length = 0 := congrArg List.length (List.append_eq_nil_iff.mp hnil).1
    rw [hlength] at hlong
    exact absurd hlong (by decide)
  have htake : 10 ∉ (line.take (bufferSize - 1)).bytes := fun hmem =>
    hline (List.mem_of_mem_take hmem)
  rw [typedLines_of_ne_nil hne, readLine_long hnewline hlong]
  dsimp only
  rw [← CString.bytes_take, typedLine_of_noNewline htake]
  rfl

theorem chatCommand_secret (h : Secret line) :
    (∃ recipient message, chatCommand line = .e2e recipient message) ∨
      chatCommand line = .e2eUsage := by
  have hquit : line ≠ "/quit" := by
    intro heq
    rw [Secret, heq] at h
    exact absurd h (by decide)
  rw [Secret] at h
  unfold chatCommand
  rw [if_neg hquit, if_pos h]
  dsimp only
  split
  · split
    · exact Or.inl ⟨_, _, rfl⟩
    · exact Or.inr rfl
  · exact Or.inr rfl

end Lines

namespace Same
variable {t t' : Terminal} (h : Same t t') {sends : Bool} {random : Nat → UInt8}
  {memory : E2eEncryptedPacket}
include h

theorem print (printed printed' : List Printed) : Same (t.print printed) (t'.print printed') :=
  ⟨h.client, h.phase, h.frames, h.farewell, h.shown⟩

theorem enter (phase : Phase) : Same { t with phase := phase } { t' with phase := phase } :=
  ⟨h.client, rfl, h.frames, h.farewell, h.shown⟩

theorem finish : Same t.finish t'.finish := by
  refine ⟨?_, rfl, h.frames, rfl, h.shown⟩
  rw [Terminal.finish, Terminal.finish, h.client]

theorem put (sent : Sent) : Same (t.put sent) (t'.put sent) :=
  ⟨rfl, h.phase, congrArg (· ++ sent.frame.toList) h.frames, h.farewell, h.shown⟩

theorem taken : Same t.taken t'.taken := ⟨h.client, h.phase, h.frames, h.farewell, h.shown⟩

theorem select (line : CString) : Same (t.select line sends) (t'.select line sends) := by
  rw [Terminal.select, Terminal.select, h.client]
  have hput := h.put (clientSendMessage t.client line sends)
  dsimp only
  split
  · exact h.print _ _
  · split
    · exact h.finish
    · split
      · exact hput.finish
      · split
        · exact (hput.print _ _).enter .chatting
        · split
          · exact hput.print _ _
          · exact hput.print _ _

theorem chat (line : CString) :
    Same (t.chat line sends random memory) (t'.chat line sends random memory) := by
  rw [Terminal.chat, Terminal.chat, h.client]
  cases chatCommand line with
  | quit => exact h.finish
  | e2e recipient message => exact (h.put _).print _ _
  | e2eUsage | help | peers => exact h.print _ _
  | keyRefresh => exact (h.put _).print _ _
  | nothing => exact h
  | say message =>
    dsimp only
    split
    · split
      · exact (h.put _).finish
      · exact h.put _
    · exact h.finish

end Same

namespace Terminal
variable {t t' : Terminal} {line line' keyLine : CString} {sends : Bool} {random : Nat → UInt8}
  {memory : E2eEncryptedPacket}

/-- A secret line is answered on the screen. -/
theorem chat_secret (h : Secret line) :
    ∃ printed, t.chat line sends random memory = t.print printed := by
  rw [chat]
  rcases chatCommand_secret h with ⟨recipient, message, hcommand⟩ | hcommand
  · rw [hcommand]
    dsimp only
    rw [put_e2e]
    exact ⟨_, rfl⟩
  · rw [hcommand]
    exact ⟨_, rfl⟩

/-- From `t` to `t'` a line is handled that leads to `next`. -/
structure Led (t t' : Terminal) (next : Phase) : Prop where
  input : t'.input = t.input
  held : t'.held = t.held
  phase : t'.phase = next ∨ t'.phase = .ended

theorem led_finish (next : Phase) : Led t t.finish next := ⟨rfl, rfl, Or.inr rfl⟩

theorem led_select (hphase : t.phase = .selecting) (line : CString) :
    Led t (t.select line sends) (Phase.take keyLine .selecting line).2 := by
  rw [select, Phase.take]
  by_cases hempty : line.length = 0
  · rw [if_pos hempty, if_pos hempty]
    exact ⟨rfl, rfl, Or.inl hphase⟩
  · rw [if_neg hempty, if_neg hempty]
    by_cases hquit : line = "/quit"
    · rw [if_pos hquit]
      exact led_finish _
    · rw [if_neg hquit, if_neg hquit]
      dsimp only
      split
      · exact ⟨rfl, rfl, Or.inr rfl⟩
      · split
        · exact ⟨rfl, rfl, Or.inl rfl⟩
        · split <;> exact ⟨rfl, rfl, Or.inl hphase⟩

theorem led_chat (hphase : t.phase = .chatting) (line : CString) :
    Led t (t.chat line sends random memory) (Phase.take keyLine .chatting line).2 := by
  rw [chat, Phase.take]
  cases chatCommand line with
  | quit => exact led_finish _
  | e2e | e2eUsage | help | peers | keyRefresh | nothing => exact ⟨rfl, rfl, Or.inl hphase⟩
  | say message =>
    dsimp only
    split
    · split
      · exact ⟨rfl, rfl, Or.inr rfl⟩
      · exact ⟨rfl, rfl, Or.inl hphase⟩
    · exact led_finish _

theorem led_handle (hheld : t.held = some line) :
    Led t.taken (t.handle sends random memory) (t.phase.take keyLine line).2 := by
  cases hphase : t.phase with
  | selecting =>
    rw [handle_selecting hheld hphase]
    exact @led_select t.taken keyLine sends hphase line
  | chatting =>
    rw [handle_chatting hheld hphase]
    exact @led_chat t.taken keyLine sends random memory hphase line
  | ended =>
    rw [handle_ended hheld hphase]
    exact ⟨rfl, rfl, Or.inr hphase⟩

end Terminal

/-- Two programs side by side that are told the same in public. -/
structure Alongside (keyLine : CString) (t t' : Terminal) : Prop where
  same : Same t t'
  held : t'.held.isSome = t.held.isSome
  alike : t.phase = .ended ∨ Alike keyLine t.phase t.pending t'.pending

namespace Alongside
variable {t t' : Terminal} {keyLine : CString}

theorem of_ended {u u' : Terminal} (hsame : Same u u') (hheld : u'.held.isSome = u.held.isSome)
    (hended : u.phase = .ended) : Alongside keyLine u u' := ⟨hsame, hheld, Or.inl hended⟩

theorem finish (h : Alongside keyLine t t') : Alongside keyLine t.finish t'.finish :=
  of_ended h.same.finish h.held rfl

theorem typedLines_eq_nil {input : List UInt8} (h : typedLines input = []) : input = [] := by
  by_contra hne
  rw [typedLines_of_ne_nil hne] at h
  cases h

theorem alike_nil {phase : Phase} {lines lines' : List CString}
    (h : Alike keyLine phase lines lines') : lines = [] ↔ lines' = [] := by
  cases h with
  | nil => exact Iff.rfl
  | same | secret => exact iff_of_false (List.cons_ne_nil _ _) (List.cons_ne_nil _ _)

theorem alike_cons {phase : Phase} {line line' : CString} {lines lines' : List CString}
    (h : Alike keyLine phase (line :: lines) (line' :: lines')) :
    line' = line ∧ Alike keyLine (phase.take keyLine line).2 lines lines' ∨
      phase = .chatting ∧ Secret line ∧ Secret line' ∧ Alike keyLine .chatting lines lines' := by
  cases h with
  | same h => exact Or.inl ⟨rfl, h⟩
  | secret hline hline' h => exact Or.inr ⟨rfl, hline, hline', h⟩

theorem fgets (h : Alongside keyLine t t') (hphase : t.phase ≠ .ended) (hheld : t.held = none) :
    Alongside keyLine t.fgets t'.fgets := by
  have hheld' : t'.held = none := by
    have hsome := h.held
    rw [hheld] at hsome
    simpa using hsome
  have halike := h.alike.resolve_left hphase
  have hnil : ∀ {u : Terminal}, u.held = none → (u.pending = [] ↔ u.input = []) := by
    intro u hu
    rw [Terminal.pending, hu, Option.toList_none, List.nil_append]
    exact ⟨typedLines_eq_nil, fun hinput => by rw [hinput, typedLines_nil]⟩
  by_cases hinput : t.input = []
  · have hinput' : t'.input = [] := (hnil hheld').mp ((alike_nil halike).mp ((hnil hheld).mpr hinput))
    rw [Terminal.fgets_nil hinput, Terminal.fgets_nil hinput']
    exact h.finish
  · have hinput' : t'.input ≠ [] := fun hempty =>
      hinput ((hnil hheld).mp ((alike_nil halike).mpr ((hnil hheld').mpr hempty)))
    have hpending := Terminal.pending_fgets hheld hinput
    have hpending' := Terminal.pending_fgets hheld' hinput'
    rw [Terminal.fgets_of_ne_nil hinput] at hpending ⊢
    rw [Terminal.fgets_of_ne_nil hinput'] at hpending' ⊢
    refine ⟨⟨h.same.client, h.same.phase, h.same.frames, h.same.farewell, h.same.shown⟩, rfl,
      Or.inr ?_⟩
    rw [hpending, hpending']
    exact halike

theorem handle (h : Alongside keyLine t t') (sends : Bool) (random : Nat → UInt8)
    (memory : E2eEncryptedPacket) :
    Alongside keyLine (t.handle sends random memory) (t'.handle sends random memory) := by
  cases hheld : t.held with
  | none =>
    have hheld' : t'.held = none := by
      have hsome := h.held
      rw [hheld] at hsome
      simpa using hsome
    rw [Terminal.handle, Terminal.handle, hheld, hheld']
    exact h
  | some line =>
    obtain ⟨line', hheld'⟩ : ∃ line', t'.held = some line' := by
      have hsome := h.held
      rw [hheld] at hsome
      exact Option.isSome_iff_exists.mp hsome
    have hled := @Terminal.led_handle t line keyLine sends random memory hheld
    have hled' := @Terminal.led_handle t' line' keyLine sends random memory hheld'
    have hnone : (t'.handle sends random memory).held.isSome =
        (t.handle sends random memory).held.isSome := by
      rw [hled.held, hled'.held]
      rfl
    have hgoesOn : Same (t.handle sends random memory) (t'.handle sends random memory) →
        Alike keyLine (t.phase.take keyLine line).2 t.taken.pending t'.taken.pending →
        Alongside keyLine (t.handle sends random memory) (t'.handle sends random memory) := by
      intro hsame halike
      rcases hled.phase with hnext | hended
      · refine ⟨hsame, hnone, Or.inr ?_⟩
        rw [hnext, Terminal.pending, Terminal.pending, hled.input, hled.held, hled'.input,
          hled'.held]
        exact halike
      · exact of_ended hsame hnone hended
    have hphase' : t'.phase = t.phase := h.same.phase
    by_cases hended : t.phase = .ended
    · rw [Terminal.handle_ended hheld hended, Terminal.handle_ended hheld' (hphase'.trans hended)]
      exact of_ended h.same.taken rfl hended
    · have halike := h.alike.resolve_left hended
      rw [Terminal.pending_of_held hheld, Terminal.pending_of_held hheld'] at halike
      rcases alike_cons halike with ⟨rfl, hnext⟩ | ⟨hchatting, hline, hline', hnext⟩
      · refine hgoesOn ?_ hnext
        cases hphase : t.phase with
        | selecting =>
          rw [Terminal.handle_selecting hheld hphase,
            Terminal.handle_selecting hheld' (hphase'.trans hphase)]
          exact h.same.taken.select _
        | chatting =>
          rw [Terminal.handle_chatting hheld hphase,
            Terminal.handle_chatting hheld' (hphase'.trans hphase)]
          exact h.same.taken.chat _
        | ended => exact absurd hphase hended
      · have hstays : (t.phase.take keyLine line).2 = .chatting := by
          rw [hchatting, Phase.take]
          rcases chatCommand_secret hline with ⟨_, _, hcommand⟩ | hcommand <;> rw [hcommand]
        refine hgoesOn ?_ (hstays.symm ▸ hnext)
        obtain ⟨printed, hchat⟩ :=
          @Terminal.chat_secret t.taken line sends random memory hline
        obtain ⟨printed', hchat'⟩ :=
          @Terminal.chat_secret t'.taken line' sends random memory hline'
        rw [Terminal.handle_chatting hheld hchatting,
          Terminal.handle_chatting hheld' (hphase'.trans hchatting), hchat, hchat']
        exact h.same.taken.print _ _

theorem step (h : Alongside keyLine t t') (label : TerminalLabel) :
    Alongside keyLine (t.step label) (t'.step label) := by
  cases label with
  | read =>
    rw [Terminal.step, Terminal.step, Terminal.read, Terminal.read, h.held, h.same.phase,
      h.same.client]
    split
    · exact h
    · rename_i hnone
      have hheld : t.held = none := by simpa using hnone
      split
      · rename_i hphase
        split
        · exact h.fgets (by rw [hphase]; decide) hheld
        · exact h.finish
      · rename_i hphase
        exact h.fgets (by rw [hphase]; decide) hheld
      · exact h
  | handle sends random memory => exact h.handle sends random memory
  | receive received =>
    rw [Terminal.step, Terminal.step, h.same.client, h.same.shown]
    exact ⟨⟨rfl, h.same.phase, h.same.frames, h.same.farewell, rfl⟩, h.held, h.alike⟩
  | interrupt =>
    rw [Terminal.step, Terminal.step, Terminal.interrupt, Terminal.interrupt, h.same.phase]
    split
    · exact h
    · rw [h.same.client]
      exact of_ended ⟨rfl, rfl, h.same.frames, rfl, h.same.shown⟩ h.held rfl

end Alongside

/-- Two people type the same, up to secrets that fit. Then the two programs stay in the same state
and send and show the same, whatever order their threads go on in. -/
theorem secrets_stay (client : ClientT) (lines lines' : List CString)
    (hlines : ∀ line ∈ lines, IsLine line) (hlines' : ∀ line ∈ lines', IsLine line)
    (halike : Alike (keyMessage client.e2eCtx) .selecting lines lines')
    (labels : List TerminalLabel) :
    Same (run Terminal.step (Terminal.start client (typed lines)) labels)
      (run Terminal.step (Terminal.start client (typed lines')) labels) := by
  have hstart : Alongside (keyMessage client.e2eCtx) (Terminal.start client (typed lines))
      (Terminal.start client (typed lines')) := by
    refine ⟨⟨rfl, rfl, rfl, rfl, rfl⟩, rfl, Or.inr ?_⟩
    rw [Terminal.pending, Terminal.pending]
    exact (typedLines_typed hlines).symm ▸ (typedLines_typed hlines').symm ▸ halike
  have hrun : ∀ (labels : List TerminalLabel) (t t' : Terminal),
      Alongside (keyMessage client.e2eCtx) t t' →
      Alongside (keyMessage client.e2eCtx) (run Terminal.step t labels)
        (run Terminal.step t' labels) := by
    intro labels
    induction labels with
    | nil => exact fun t t' h => h
    | cons label labels ih => exact fun t t' h => ih _ _ (h.step label)
  exact (hrun labels _ _ hstart).same

/-- Ann enters a room, tells Bob one thing or another, and says goodbye to all. -/
theorem secrets_stay_ann :
    Same
      (run Terminal.step (Terminal.start (KeyDelivery.newcomer "ann" 1)
        (typed ["/join den42", "/e2e bob yes", "bye"]))
        [.read, .handle true (fun _ => 255) .zeroed, .read, .handle true (fun _ => 255) .zeroed])
      (run Terminal.step (Terminal.start (KeyDelivery.newcomer "ann" 1)
        (typed ["/join den42", "/e2e eve no, never", "bye"]))
        [.read, .handle true (fun _ => 255) .zeroed, .read, .handle true (fun _ => 255) .zeroed]) := by
  have hroom : (Phase.take (keyMessage (KeyDelivery.newcomer "ann" 1).e2eCtx) .selecting
      "/join den42").2 = .chatting := by decide +kernel
  apply secrets_stay _ _ _ (by decide) (by decide)
  apply Alike.same
  rw [hroom]
  exact .secret (by decide) (by decide) (.same (.nil _))

/-- What is behind the 1023rd byte of a secret line is handled as a line of its own. -/
theorem secret_tail_is_said {line : CString} (hsecret : Secret line) (hline : 10 ∉ line.bytes)
    (hlong : bufferSize - 1 ≤ line.length) (keyLine : CString) (rest : List UInt8) :
    transcript keyLine .chatting (typedLines (line.bytes ++ rest)) =
      transcript keyLine .chatting
        (typedLines ((line.drop (bufferSize - 1)).bytes ++ rest)) := by
  have htake : Secret (line.take (bufferSize - 1)) := by
    have hprefix := (CString.startsWith_iff _ _).mp hsecret
    refine (CString.startsWith_iff _ _).mpr (List.prefix_of_prefix_length_le hprefix
      (List.take_prefix _ _) ?_)
    rw [CString.bytes_take, List.length_take]
    have hkeyword : (CString.bytes "/e2e ").length = 5 := by decide
    have hlength : bufferSize - 1 ≤ line.bytes.length := hlong
    rw [hkeyword, Nat.min_eq_left hlength]
    decide
  rw [typedLines_long hline hlong, transcript, Phase.take]
  rcases chatCommand_secret htake with ⟨_, _, hcommand⟩ | hcommand <;>
  · rw [hcommand]
    rfl

end TcpChat.Client
