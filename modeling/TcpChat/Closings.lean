import TcpChat.Server.OpenDescriptors

/-!
# Who closes a descriptor

A descriptor belongs to the accept loop, then to a session. When the security context of a new
connection cannot be made, the client manager has closed the descriptor before it reports the
failure, and the accept loop closes it again.
-/

namespace TcpChat.Server

open Base Base.Runs Base.Leases
set_option autoImplicit false

/-- No accepted descriptor is closed twice without being accepted in between. -/
def ClosedOnce (trace : List Event) : Prop :=
  ∀ fd before between rest, .accept fd ∈ before →
    trace = before ++ .close fd :: (between ++ .close fd :: rest) → .accept fd ∈ between

/-- There is room for the connection, but its security context cannot be made. -/
def ContextFails (sys : System) : Label → Prop
  | .accept clientSocket created _ _ => Unused sys.server clientSocket ∧ created = false ∧
    ∃ i, (sys.server.session i).active = false
  | .handler _ _ => False

section Accept
variable {sys : System} {clientSocket : Int} {i : Slot}

theorem accept_full (hfull : ∀ i, (sys.server.session i).active = true)
    (created started : Bool) (env : Env) :
    sys.accept clientSocket created started env =
      { sys with server := sys.server.emit [.accept clientSocket, .close clientSocket] } := by
  unfold System.accept serverAcceptClient
  rcases add_cases (sys.server.emit [.accept clientSocket]) clientSocket created with
    ⟨_, heq⟩ | ⟨i, hfree, _⟩
  · rw [heq]
    simp only [if_pos (by omega : (-1 : Int) < 0)]
    simp [clientManagerGetSession, State.emit]
  · have hactive := hfull i
    rw [← State.session_emit _ _ [.accept clientSocket], hfree.1] at hactive
    cases hactive

/-- The descriptor of a connection without a context is closed twice. -/
theorem trace_accept_failed (hfree : (sys.server.session i).active = false)
    (hfd : 0 ≤ clientSocket) (started : Bool) (env : Env) :
    (sys.accept clientSocket false started env).server.trace = sys.server.trace ++
      [.accept clientSocket, .close clientSocket, .close clientSocket] := by
  unfold System.accept serverAcceptClient
  rcases add_cases (sys.server.emit [.accept clientSocket]) clientSocket false with
    ⟨hfull, _⟩ | ⟨k, _, ⟨hcreated, _⟩ | ⟨_, heq⟩⟩
  · have hactive := hfull i
    rw [State.session_emit, hfree] at hactive
    cases hactive
  · cases hcreated
  · have hnone : clientManagerGetSession (-1) = none := rfl
    have hnew : (newSession (sys.server.emit [.accept clientSocket]) clientSocket k).socketFd =
        clientSocket := rfl
    rw [heq]
    simp only [if_pos (by omega : (-1 : Int) < 0), hnone, State.trace_emit,
      trace_clientSessionCleanup, State.trace_setSecurity, State.trace_setSession,
      State.session_setSecurity, State.session_setSession_self, hnew]
    rw [if_pos hfd, List.append_assoc, List.append_assoc]
    rfl

theorem Owned.not_open (h : Owned sys.server) (hunused : Unused sys.server clientSocket) :
    openFds sys.server.trace clientSocket = false := by
  rw [← Bool.not_eq_true, h.open_iff]
  intro hopen
  obtain ⟨c, hactive, hfd⟩ := hopen
  exact hunused.2 c hactive hfd

/-- A connection that is turned away at once leaves nothing open. -/
theorem Owned.turnedAway (h : Owned sys.server) (hunused : Unused sys.server clientSocket) :
    Owned (sys.server.emit [.accept clientSocket, .close clientSocket]) := by
  constructor
  · exact h.fds.of_spared fun _ => Or.inr ⟨rfl, rfl⟩
  · rw [State.trace_emit, disciplined_append, disciplined_cons, disciplined_cons]
    refine ⟨h.disciplined, fun fd huse => ?_, fun fd huse => ?_, disciplined_nil⟩
    · cases huse
    · cases huse
      exact Function.update_self _ _ _
  · intro fd
    rw [State.trace_emit, openFds_append]
    change Function.update (Function.update (openFds sys.server.trace) clientSocket true)
      clientSocket false fd = true ↔ _
    rw [Function.update_idem, ← h.not_open hunused, Function.update_eq_self]
    exact h.open_iff fd

theorem Owned.added (h : Owned sys.server) (hunused : Unused sys.server clientSocket)
    (hfree : (sys.server.session i).active = false) :
    Owned (TcpChat.Server.added (sys.server.emit [.accept clientSocket]) clientSocket i) := by
  have hself : (TcpChat.Server.added (sys.server.emit [.accept clientSocket]) clientSocket
      i).session i = newSession (sys.server.emit [.accept clientSocket]) clientSocket i := by
    rw [session_added, if_pos rfl]
  have hother : ∀ d, d ≠ i → (TcpChat.Server.added (sys.server.emit [.accept clientSocket])
      clientSocket i).session d = sys.server.session d := by
    intro d hd
    rw [session_added_of_ne hd]
  have htrace : (TcpChat.Server.added (sys.server.emit [.accept clientSocket]) clientSocket
      i).trace = sys.server.trace ++ [.accept clientSocket] := rfl
  constructor
  · exact h.fds.added hunused _ i
  · rw [htrace, disciplined_append, disciplined_cons]
    refine ⟨h.disciplined, fun fd huse => ?_, disciplined_nil⟩
    cases huse
  · intro fd
    rw [htrace, openFds_append]
    change Function.update (openFds sys.server.trace) clientSocket true fd = true ↔ _
    rw [Function.update_apply]
    split
    · rename_i hfd
      refine iff_of_true rfl ⟨i, ?_⟩
      rw [hself, hfd]
      exact ⟨rfl, rfl⟩
    · rename_i hfd
      rw [h.open_iff]
      apply exists_congr
      intro d
      by_cases hd : d = i
      · rw [hd, hself, hfree]
        exact iff_of_false (fun hall => Bool.noConfusion hall.1) (fun hall => hfd hall.2.symm)
      · rw [hother d hd]

end Accept

section Steps
variable {libc : Libc} {sys : System} {label : Label}

theorem Owned.step (h : Owned sys.server) (hlabel : ¬ ContextFails sys label) :
    Owned (sys.step libc label).server := by
  apply System.step_server label h
  · rintro clientSocket created started env rfl hunused
    by_cases hfull : ∀ i, (sys.server.session i).active = true
    · rw [accept_full hfull]
      exact h.turnedAway hunused
    · rcases sys.accept_cases clientSocket created started env with
        ⟨_, _, hrefused, _⟩ | ⟨_, i, hfree, heq⟩
      · exfalso
        apply hlabel
        obtain ⟨i, hi⟩ := not_forall.mp hfull
        exact ⟨hunused, hrefused.resolve_left hfull, i, Bool.eq_false_iff.mpr hi⟩
      · rw [heq]
        have hadded := h.added hunused hfree.1
        dsimp only
        split
        · exact hadded
        · exact hadded.remove _ i
  · intro _ handler input _
    exact h.handler_step handler input

theorem Owned.closedOnce {s : State} (h : Owned s) : ClosedOnce s.trace := by
  intro fd before between rest _ htrace
  have hdisciplined := h.disciplined
  rw [htrace] at hdisciplined
  obtain ⟨e, he, huse⟩ := acquired_between hdisciplined rfl rfl
  cases e with
  | accept fd' =>
    cases huse
    exact he
  | send _ _ _ => cases huse
  | close _ => cases huse

theorem closedOnce_step_iff (h : Owned sys.server) :
    ClosedOnce (sys.step libc label).server.trace ↔ ¬ ContextFails sys label := by
  constructor
  · intro honce hfails
    cases label with
    | handler n input => exact hfails
    | accept clientSocket created started env =>
      obtain ⟨hunused, rfl, i, hfree⟩ := hfails
      rw [System.step_accept hunused, trace_accept_failed hfree hunused.1] at honce
      have hbetween := honce clientSocket (sys.server.trace ++ [.accept clientSocket]) [] []
        (List.mem_append_right _ List.mem_cons_self) (by simp)
      cases hbetween
  · intro hlabel
    exact (h.step hlabel).closedOnce

end Steps

/-- Every accepted descriptor is closed at most once exactly in the runs in which the security
context of no connection that there is room for fails. -/
theorem closedOnce_iff_contextsMade (libc : Libc) (memory : State) (labels : List Label) :
    Always (System.step libc) (fun sys : System => ClosedOnce sys.server.trace)
        (System.start memory) labels ↔
      EachStep (System.step libc) (fun sys label => ¬ ContextFails sys label)
        (System.start memory) labels := by
  have hstart : Owned (System.start memory).server := by
    refine ⟨fdsOk_start memory, trivial, fun fd => ?_⟩
    refine iff_of_false Bool.false_ne_true fun hopen => ?_
    obtain ⟨c, hactive, _⟩ := hopen
    cases hactive
  exact always_iff_eachStep (I := fun sys : System => Owned sys.server) (H := fun _ _ => True)
    (fun _ _ h _ _ hlabel => h.step hlabel) (fun _ _ h _ _ => closedOnce_step_iff h)
    hstart hstart.closedOnce (fun _ _ _ => trivial)

/-- The first connection, with no memory for its context. -/
theorem descriptor_closed_twice :
    ¬ ∀ (libc : Libc) (memory : State) (labels : List Label),
      Always (System.step libc) (fun sys : System => ClosedOnce sys.server.trace)
        (System.start memory) labels := by
  intro h
  have honce := (h countingLibc zeroedMemory [.accept 5 false true calm]).last
  have hbetween := honce 5 [.accept 5] [] [] List.mem_cons_self (by decide +kernel)
  cases hbetween

end TcpChat.Server
