import TcpChat.Server.Membership

/-!
# Descriptors

Every connection has a descriptor of its own.
-/

namespace TcpChat.Server

open Base Base.Runs
set_option autoImplicit false

/-- No two connections share a descriptor. -/
def FdsDistinct (s : State) : Prop :=
  ∀ c d, (s.session c).active = true → (s.session d).active = true →
    (s.session c).socketFd = (s.session d).socketFd → c = d

/-- No connection without a descriptor: dead sessions, and only these, have none. -/
structure FdsOk (s : State) : Prop where
  distinct : FdsDistinct s
  fd_nonneg : ∀ c, (s.session c).active = true → 0 ≤ (s.session c).socketFd
  fd_dead : ∀ c, (s.session c).active = false → (s.session c).socketFd = -1

/-- What anybody but its own handler does to a session at most: it takes it down. -/
def Spared (session session' : ClientSession) : Prop :=
  (session'.active = false ∧ session'.socketFd = -1) ∨
    (session'.active = session.active ∧ session'.socketFd = session.socketFd ∧
      session'.handshakeState = session.handshakeState)

theorem spared_refl (session : ClientSession) : Spared session session := Or.inr ⟨rfl, rfl, rfl⟩

theorem spared_cleaned (session : ClientSession) : Spared session session.cleaned :=
  Or.inl ⟨rfl, rfl⟩

theorem Spared.of_active {session session' : ClientSession} (h : Spared session session')
    (hactive : session'.active = true) :
    session.active = true ∧ session'.socketFd = session.socketFd ∧
      session'.handshakeState = session.handshakeState := by
  rcases h with ⟨hdead, _⟩ | ⟨hsame, hfd, hstate⟩
  · rw [hactive] at hdead
    cases hdead
  · exact ⟨hsame ▸ hactive, hfd, hstate⟩

section Descriptors
variable {libc : Libc} {s : State}

/-- A request starts no session, gives none a new descriptor and shakes no hands. -/
theorem Outcome.spared {env : Env} {c : Slot} {r : Request} {sessions : Slot → ClientSession}
    {rooms : RoomManager} (h : Outcome libc env s c r sessions rooms) (d : Slot) :
    Spared (s.session d) (sessions d) := by
  have hupdate : ∀ v, Spared (s.session c) v →
      Spared (s.session d) (Function.update s.session c v d) := by
    intro v hv
    by_cases hdc : d = c
    · subst hdc
      rw [Function.update_self]
      exact hv
    · rw [Function.update_of_ne hdc]
      exact spared_refl _
  cases h with
  | talk | createRefused | joinRefused => exact spared_refl _
  | announced =>
    dsimp only
    split
    · exact spared_cleaned _
    · exact spared_refl _
  | renamed =>
    dsimp only
    split
    · exact spared_cleaned _
    · split
      · rename_i hdc
        subst hdc
        exact Or.inr ⟨rfl, rfl, rfl⟩
      · exact spared_refl _
  | created | joined | left => exact hupdate _ (Or.inr ⟨rfl, rfl, rfl⟩)

theorem FdsDistinct.of_keeps {s s' : State} (h : FdsDistinct s)
    (hkeeps : ∀ d, (s'.session d).active = true →
      (s.session d).active = true ∧ (s'.session d).socketFd = (s.session d).socketFd) :
    FdsDistinct s' := by
  intro c d hc hd hfd
  obtain ⟨hc', hcfd⟩ := hkeeps c hc
  obtain ⟨hd', hdfd⟩ := hkeeps d hd
  exact h c d hc' hd' (by rw [← hcfd, ← hdfd, hfd])

theorem FdsOk.of_spared {s s' : State} (h : FdsOk s)
    (hspared : ∀ d, ((s'.session d).active = false ∧ (s'.session d).socketFd = -1) ∨
      ((s'.session d).active = (s.session d).active ∧
        (s'.session d).socketFd = (s.session d).socketFd)) : FdsOk s' := by
  have hlive : ∀ d, (s'.session d).active = true → (s.session d).active = true ∧
      (s'.session d).socketFd = (s.session d).socketFd := by
    intro d hd
    rcases hspared d with ⟨hdead, _⟩ | ⟨hsame, hfd⟩
    · rw [hd] at hdead
      cases hdead
    · exact ⟨hsame ▸ hd, hfd⟩
  refine ⟨h.distinct.of_keeps hlive, fun d hd => ?_, fun d hd => ?_⟩
  · rw [(hlive d hd).2]
    exact h.fd_nonneg d (hlive d hd).1
  · rcases hspared d with ⟨_, hfd⟩ | ⟨hsame, hfd⟩
    · exact hfd
    · rw [hfd]
      exact h.fd_dead d (hsame ▸ hd)

theorem FdsOk.remove (h : FdsOk s) (fails : Slot → Bool) (c : Slot) :
    FdsOk (clientManagerRemoveClient fails s c) := by
  apply h.of_spared
  intro d
  rw [session_remove]
  split
  · exact Or.inl ⟨rfl, rfl⟩
  · exact Or.inr ⟨rfl, rfl⟩

/-- One session is rewritten, and its descriptor is no other's. -/
theorem FdsDistinct.rewrite {s' : State} {i : Slot} (h : FdsDistinct s)
    (hothers : ∀ d, d ≠ i → s'.session d = s.session d)
    (hown : (s'.session i).active = true → ∀ d, (s.session d).active = true →
      (s.session d).socketFd ≠ (s'.session i).socketFd) : FdsDistinct s' := by
  intro c d hc hd hfd
  by_cases hci : c = i
  · by_cases hdi : d = i
    · rw [hci, hdi]
    · rw [hci] at hc hfd
      rw [hothers d hdi] at hd hfd
      exact absurd hfd.symm (hown hc d hd)
  · rw [hothers c hci] at hc hfd
    by_cases hdi : d = i
    · rw [hdi] at hd hfd
      exact absurd hfd (hown hd c hc)
    · rw [hothers d hdi] at hd hfd
      exact h c d hc hd hfd

theorem FdsOk.added (h : FdsOk s) {socketFd : Int} (hunused : Unused s socketFd)
    (es : List Event) (i : Slot) :
    FdsOk (TcpChat.Server.added (s.emit es) socketFd i) := by
  have hold : ∀ d, d ≠ i →
      (TcpChat.Server.added (s.emit es) socketFd i).session d = s.session d := by
    intro d hd
    rw [session_added_of_ne hd]
  have hnew : (TcpChat.Server.added (s.emit es) socketFd i).session i =
      newSession (s.emit es) socketFd i := by
    rw [session_added, if_pos rfl]
  refine ⟨h.distinct.rewrite hold fun _ d hd => ?_, fun c hc => ?_, fun c hc => ?_⟩
  · rw [hnew]
    exact hunused.2 d hd
  · by_cases hci : c = i
    · rw [hci, hnew]
      exact hunused.1
    · rw [hold c hci] at hc ⊢
      exact h.fd_nonneg c hc
  · by_cases hci : c = i
    · rw [hci, hnew] at hc
      cases hc
    · rw [hold c hci] at hc ⊢
      exact h.fd_dead c hc

theorem FdsDistinct.step (h : FdsDistinct s) (op : Op) : FdsDistinct (op.step libc s) := by
  cases op with
  | connect socketFd created =>
    simp only [Op.step]
    split
    · rename_i hunused
      rcases (accept_cases s socketFd created).1 with heq | ⟨i, _, heq | heq⟩
      · exact h.of_keeps fun d hd => by rw [heq] at hd ⊢; exact ⟨hd, rfl⟩
      · apply h.rewrite (i := i)
        · intro d hdi
          rw [heq, Function.update_of_ne hdi]
        · intro _ d hd
          rw [heq, Function.update_self]
          exact hunused.2 d hd
      · apply h.rewrite (i := i)
        · intro d hdi
          rw [heq, Function.update_of_ne hdi]
        · intro hdead
          rw [heq, Function.update_self] at hdead
          cases hdead
    · exact h
  | enterLobby c =>
    simp only [Op.step]
    split
    · apply h.of_keeps
      intro d hd
      rw [chatProtocolAnnounceUserJoined, State.session_setSession] at hd ⊢
      grind
    · exact h
  | message c line env =>
    simp only [Op.step]
    split
    · apply h.of_keeps
      intro d hd
      have hkeeps := ((outcome_message env c line).spared d).of_active hd
      exact ⟨hkeeps.1, hkeeps.2.1⟩
    · exact h
  | disconnect c env =>
    apply h.of_keeps
    intro d hd
    simp only [Op.step, session_remove] at hd ⊢
    grind [ClientSession.cleaned]

end Descriptors

end TcpChat.Server
