import TcpChat.Server.HandlerSteps

/-!
# Handlers and the connections they work on

What a step does to the tie between a handler, which knows a slot number, and its connection.
-/

namespace TcpChat.Server

open Base Base.Runs
set_option autoImplicit false

/-- The next step of handler `n` works on connection `m`: it receives from it, executes a command
for it or removes it. On a dead session it does none of these. -/
def WorksOn (sys : System) (n m : Nat) : Prop :=
  ∃ c pc, Live sys n c pc ∧ (sys.server.session c).active = true ∧ sys.occupant c = m

/-- No handler works on a connection but the one it was started for. -/
def HandlersOwn (sys : System) : Prop := ∀ n m, WorksOn sys n m → m = n

/-- A connection that is accepted and served gets a slot that no running handler is bound to. -/
def SlotVacated (sys : System) (label : Label) : Prop :=
  ∀ i, GivenSlot sys label i → ∀ n pc, ¬ Live sys n i pc

section Own
variable {libc : Libc} {sys : System}

theorem HandlersOwn.handler (h : HandlersOwn sys) (n : Nat) (input : Input) :
    HandlersOwn (sys.step libc (.handler n input)) := by
  intro m k hall
  obtain ⟨c, pc, hlive, hactive, hoccupant⟩ := hall
  obtain ⟨pc', hbefore, _⟩ := hlive.of_step
  cases hn : sys.handlers[n]? with
  | none =>
    rw [System.step_no_handler hn] at hactive hoccupant
    exact h m k ⟨c, pc', hbefore, hactive, hoccupant⟩
  | some handler =>
    rw [System.step_handler hn] at hactive hoccupant
    exact h m k ⟨c, pc', hbefore, Handler.active_of_step hactive, hoccupant⟩

/-- The connection is refused: nobody gets a slot. -/
theorem HandlersOwn.refused (h : HandlersOwn sys) {s : State}
    (hkept : ∀ d, s.session d = sys.server.session d ∨ (sys.server.session d).active = false ∧
      (s.session d).active = false ∧ (s.session d).socketFd = -1) :
    HandlersOwn { sys with server := s } := by
  intro m k hall
  obtain ⟨c, pc, hlive, hactive, hoccupant⟩ := hall
  refine h m k ⟨c, pc, hlive, ?_, hoccupant⟩
  dsimp only at hactive
  rcases hkept c with hsame | ⟨_, hdead, _⟩
  · exact hsame ▸ hactive
  · rw [hactive] at hdead
    cases hdead

/-- The thread is not started, and the slot is given back at once. -/
theorem HandlersOwn.givenBack (h : HandlersOwn sys) {fails : Slot → Bool} {clientSocket : Int}
    {i : Slot} :
    HandlersOwn { server := clientManagerRemoveClient fails
                    (added (sys.server.emit [.accept clientSocket]) clientSocket i) i
                  handlers := sys.handlers ++ [⟨i, .gone⟩]
                  occupant := Function.update sys.occupant i sys.handlers.length } := by
  intro m k hall
  obtain ⟨c, pc, hlive, hactive, hoccupant⟩ := hall
  obtain ⟨hci, hsame⟩ := session_dropped _ clientSocket i hactive
  dsimp only at hactive hoccupant
  rw [hsame, State.session_emit] at hactive
  rw [Function.update_of_ne hci] at hoccupant
  rcases hlive.of_started rfl with hold | ⟨_, hnew⟩
  · exact h m k ⟨c, pc, hold, hactive, hoccupant⟩
  · exact absurd (Handler.mk.inj hnew).1 hci.symm

/-- A connection that is given slot `i` is worked on by the handlers bound to that slot. -/
theorem handlersOwn_started_iff (h : HandlersOwn sys) {clientSocket : Int} {i : Slot} :
    HandlersOwn { server := added (sys.server.emit [.accept clientSocket]) clientSocket i
                  handlers := sys.handlers ++ [⟨i, .awaitSyn⟩]
                  occupant := Function.update sys.occupant i sys.handlers.length } ↔
      ∀ n pc, ¬ Live sys n i pc := by
  constructor
  · intro hown n pc hlive
    have hlt := hlive.lt_length
    have hactive : ((added (sys.server.emit [.accept clientSocket]) clientSocket i).session
        i).active = true := by
      rw [session_added, if_pos rfl]
      rfl
    have hboth := hown n sys.handlers.length
      ⟨i, pc, ⟨by rw [List.getElem?_append_left hlt]; exact hlive.1, hlive.2⟩, hactive,
        Function.update_self _ _ _⟩
    omega
  · intro hvacated m k hall
    obtain ⟨c, pc, hlive, hactive, hoccupant⟩ := hall
    dsimp only at hactive hoccupant
    rcases hlive.of_started rfl with hold | ⟨rfl, hnew⟩
    · have hci : c ≠ i := by
        intro heq
        subst heq
        exact hvacated m pc hold
      rw [session_added_of_ne hci] at hactive
      rw [Function.update_of_ne hci] at hoccupant
      exact h m k ⟨c, pc, hold, hactive, hoccupant⟩
    · obtain ⟨rfl, _⟩ := Handler.mk.inj hnew
      rw [Function.update_self] at hoccupant
      exact hoccupant.symm

theorem handlersOwn_accept_iff (h : HandlersOwn sys) {clientSocket : Int}
    (hunused : Unused sys.server clientSocket) (created started : Bool) (env : Env) :
    HandlersOwn (sys.accept clientSocket created started env) ↔
      SlotVacated sys (.accept clientSocket created started env) := by
  rcases sys.accept_cases clientSocket created started env with
    ⟨s, heq, hrefused, _, hkept, _⟩ | ⟨hcreated, i, hfree, heq⟩
  · rw [heq]
    apply iff_of_true (h.refused hkept)
    intro i hall
    obtain ⟨_, hcreated, _, hfree⟩ := hall
    rcases hrefused with hfull | hrefused
    · exact absurd rfl (hfree.ne_of_active (hfull i))
    · rw [hrefused] at hcreated
      cases hcreated
  · rw [heq]
    cases started with
    | false => exact iff_of_true h.givenBack (fun i hgiven => by cases hgiven.2.2.1)
    | true =>
      simp only [if_true]
      rw [handlersOwn_started_iff h]
      constructor
      · intro hvacated j hall
        obtain ⟨_, _, _, hj⟩ := hall
        obtain rfl := hj.unique hfree
        exact hvacated
      · intro hvacated
        exact hvacated i ⟨hunused, hcreated, rfl, hfree⟩

theorem handlersOwn_step_iff (h : HandlersOwn sys) (label : Label) :
    HandlersOwn (sys.step libc label) ↔ SlotVacated sys label := by
  cases label with
  | handler n input => exact iff_of_true (h.handler n input) (fun _ => False.elim)
  | accept clientSocket created started env =>
    by_cases hunused : Unused sys.server clientSocket
    · rw [System.step_accept hunused]
      exact handlersOwn_accept_iff h hunused created started env
    · rw [System.step_no_accept hunused]
      exact iff_of_true h fun _ hgiven => absurd hgiven.1 hunused

theorem handlersOwn_start (memory : State) : HandlersOwn (System.start memory) := by
  intro n m h
  obtain ⟨c, pc, hlive, _⟩ := h
  exact absurd hlive.lt_length (Nat.not_lt_zero n)

end Own

end TcpChat.Server
