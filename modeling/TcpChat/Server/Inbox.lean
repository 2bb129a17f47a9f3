import TcpChat.Server.Types

/-!
# What a client receives

The trace read from the other end of one connection.
-/

namespace TcpChat.Server

open Base
set_option autoImplicit false

/-- What has arrived on `fd` after event `e`. A descriptor that is handed out again starts
over. -/
def arrive (fd : Int) (received : List Payload) : Event → List Payload
  | .accept fd' => if fd' = fd then [] else received
  | .send fd' payload ok => if fd' = fd ∧ ok = true then received ++ [payload] else received
  | .close _ => received

/-- What has arrived on `fd` since the descriptor was last handed out. -/
def inbox (fd : Int) (trace : List Event) : List Payload := trace.foldl (arrive fd) []

theorem inbox_append (fd : Int) (trace es : List Event) :
    inbox fd (trace ++ es) = es.foldl (arrive fd) (inbox fd trace) := List.foldl_append

/-- Among `es` nothing is sent on the connection of a session that still shakes hands, and its
descriptor is not handed out again. -/
def Unharmed (session : ClientSession) (es : List Event) : Prop :=
  ∀ e ∈ es, e ≠ .accept session.socketFd ∧ ∀ payload ok,
    e = .send session.socketFd payload ok → session.handshakeState = .established

section Unharmed
variable {session : ClientSession} {es : List Event}

theorem unharmed_nil (session : ClientSession) : Unharmed session [] :=
  fun _ he => absurd he List.not_mem_nil

theorem Unharmed.append {es' : List Event} (h : Unharmed session es) (h' : Unharmed session es') :
    Unharmed session (es ++ es') :=
  fun e he => (List.mem_append.mp he).elim (h e) (h' e)

/-- A connection whose descriptor is not handed out again only receives more. -/
theorem Unharmed.grows (h : Unharmed session es) (received : List Payload) :
    received <+: es.foldl (arrive session.socketFd) received := by
  induction es generalizing received with
  | nil => exact List.prefix_refl received
  | cons e es ih =>
    have hnext := ih (fun e' he' => h e' (List.mem_cons_of_mem _ he'))
      (arrive session.socketFd received e)
    refine List.IsPrefix.trans ?_ hnext
    cases e with
    | accept fd =>
      have hne : fd ≠ session.socketFd := fun heq =>
        (h _ List.mem_cons_self).1 (congrArg Event.accept heq)
      exact ⟨[], (List.append_nil received).trans (if_neg hne).symm⟩
    | send fd payload ok =>
      rw [arrive]
      split
      · exact List.prefix_append _ _
      · exact List.prefix_refl _
    | close fd => exact List.prefix_refl _

theorem Unharmed.same (h : Unharmed session es)
    (hstate : session.handshakeState ≠ .established) (received : List Payload) :
    es.foldl (arrive session.socketFd) received = received := by
  induction es with
  | nil => rfl
  | cons e es ih =>
    have he := h e List.mem_cons_self
    have hrest := ih fun e' he' => h e' (List.mem_cons_of_mem _ he')
    cases e with
    | accept fd =>
      have hne : fd ≠ session.socketFd := fun heq => he.1 (congrArg Event.accept heq)
      rw [List.foldl_cons, arrive, if_neg hne, hrest]
    | send fd payload ok =>
      have hne : ¬ (fd = session.socketFd ∧ ok = true) := by
        intro hall
        obtain ⟨rfl, _⟩ := hall
        exact hstate (he.2 payload ok rfl)
      rw [List.foldl_cons, arrive, if_neg hne, hrest]
    | close fd => exact hrest

end Unharmed

end TcpChat.Server
