import TcpChat.Server.ClientManager

/-!
# Operations on the session table

What adding, removing and broadcasting do to each session, to the other tables and to the
trace. The broadcast loop looks at each slot once, so its effect on a slot depends on that
slot alone.
-/

namespace TcpChat.Server

open Base
set_option autoImplicit false

@[simp] theorem cleaned_active (session : ClientSession) : session.cleaned.active = false := rfl

@[simp] theorem cleaned_socketFd (session : ClientSession) : session.cleaned.socketFd = -1 := rfl

/-- A session that is still active was not cleaned. -/
theorem eq_of_cleaned_active {session v : ClientSession} {p : Prop} [Decidable p]
    (h : (if p then session.cleaned else v).active = true) :
    (if p then session.cleaned else v) = v := by
  split at h
  · cases h
  · rename_i hkept
    exact if_neg hkept

/-- A broadcast from `senderId` sends to slot `i`. -/
def Reached (s : State) (senderId : Int) (i : Slot) : Prop :=
  (s.session i).active = true ∧ (i : Int) ≠ senderId

instance (s : State) (senderId : Int) (i : Slot) : Decidable (Reached s senderId i) :=
  inferInstanceAs (Decidable (_ ∧ _))

/-- A broadcast from `senderId` throws the session in slot `i` out. -/
def Evicted (fails : Slot → Bool) (s : State) (senderId : Int) (i : Slot) : Prop :=
  Reached s senderId i ∧ fails i = true

instance (fails : Slot → Bool) (s : State) (senderId : Int) (i : Slot) :
    Decidable (Evicted fails s senderId i) :=
  inferInstanceAs (Decidable (_ ∧ _))

/-- What the loop body does for slot `i`, as events. -/
def broadcastEvents (fails : Slot → Bool) (message : CString) (senderId : Int) (s : State)
    (i : Slot) : List Event :=
  if Reached s senderId i then
    .send (s.session i).socketFd (.text message) (!fails i) ::
      (if fails i = true ∧ (s.session i).socketFd ≥ 0 then [.close (s.session i).socketFd] else [])
  else []

/-- A broadcast sends its text to those it reaches, and closes the descriptors of some. -/
theorem mem_broadcastEvents {fails : Slot → Bool} {message : CString} {senderId : Int} {s : State}
    {l : List Slot} {e : Event} (h : e ∈ l.flatMap (broadcastEvents fails message senderId s)) :
    (∃ fd, e = .close fd) ∨ ∃ d, Reached s senderId d ∧
      e = .send (s.session d).socketFd (.text message) (!fails d) := by
  obtain ⟨d, _, hd⟩ := List.mem_flatMap.mp h
  unfold broadcastEvents at hd
  split at hd
  · rename_i hreached
    rcases List.mem_cons.mp hd with hsend | hclose
    · exact Or.inr ⟨d, hreached, hsend⟩
    · split at hclose
      · exact Or.inl ⟨_, List.mem_singleton.mp hclose⟩
      · exact absurd hclose List.not_mem_nil
  · exact absurd hd List.not_mem_nil

section Cleanup
variable (s : State) (c d : Slot)

theorem session_clientSessionCleanup :
    (clientSessionCleanup s c).session d =
      if d = c then (s.session c).cleaned else s.session d := by
  unfold clientSessionCleanup
  simp only [State.session_emit, State.session_setSession]

@[simp] theorem roomManager_clientSessionCleanup :
    (clientSessionCleanup s c).roomManager = s.roomManager := rfl

@[simp] theorem securityManager_clientSessionCleanup :
    (clientSessionCleanup s c).securityManager = s.securityManager := rfl

@[simp] theorem trace_clientSessionCleanup :
    (clientSessionCleanup s c).trace =
      s.trace ++ if (s.session c).socketFd ≥ 0 then [.close (s.session c).socketFd] else [] := rfl

end Cleanup

section Step
variable (fails : Slot → Bool) (message : CString) (senderId : Int) (s : State) (i d : Slot)

theorem broadcastStep_eq :
    broadcastStep fails message senderId s i =
      if Evicted fails s senderId i then
        (clientSessionCleanup
          ((s.emit [.send (s.session i).socketFd (.text message) false]).setSession i
            { s.session i with active := false }) i).addClientCount (-1)
      else if Reached s senderId i then
        s.emit [.send (s.session i).socketFd (.text message) true]
      else s := by
  unfold broadcastStep
  dsimp only
  by_cases hreached : Reached s senderId i
  · have hcond : (s.session i).active = true ∧ (i : Int) ≠ senderId := hreached
    rw [if_pos hcond, if_pos hreached]
    by_cases hfail : fails i = true
    · have hevicted : Evicted fails s senderId i := ⟨hreached, hfail⟩
      rw [if_pos hfail, if_pos hevicted, hfail]
      rfl
    · have hkept : ¬ Evicted fails s senderId i := fun h => hfail h.2
      rw [if_neg hfail, if_neg hkept, Bool.eq_false_iff.mpr hfail]
      rfl
  · have hcond : ¬ ((s.session i).active = true ∧ (i : Int) ≠ senderId) := hreached
    have hkept : ¬ Evicted fails s senderId i := fun h => hreached h.1
    rw [if_neg hcond, if_neg hkept, if_neg hreached]

theorem session_broadcastStep :
    (broadcastStep fails message senderId s i).session d =
      if d = i ∧ Evicted fails s senderId i then (s.session i).cleaned else s.session d := by
  rw [broadcastStep_eq]
  by_cases hevicted : Evicted fails s senderId i
  · rw [if_pos hevicted, State.session_addClientCount, session_clientSessionCleanup]
    by_cases hd : d = i
    · rw [if_pos hd, if_pos ⟨hd, hevicted⟩, State.session_setSession_self]
      rfl
    · have hother : ¬ (d = i ∧ Evicted fails s senderId i) := fun h => hd h.1
      rw [if_neg hd, if_neg hother, State.session_setSession_of_ne _ _ _ _ hd,
        State.session_emit]
  · have hkept : ¬ (d = i ∧ Evicted fails s senderId i) := fun h => hevicted h.2
    rw [if_neg hevicted, if_neg hkept]
    split <;> rfl

theorem trace_broadcastStep :
    (broadcastStep fails message senderId s i).trace =
      s.trace ++ broadcastEvents fails message senderId s i := by
  rw [broadcastStep_eq]
  unfold broadcastEvents
  by_cases hreached : Reached s senderId i
  · cases hfail : fails i with
    | true => simp [Evicted, hreached, hfail]
    | false => simp [Evicted, hreached, hfail]
  · simp [Evicted, hreached]

@[simp] theorem roomManager_broadcastStep :
    (broadcastStep fails message senderId s i).roomManager = s.roomManager := by
  rw [broadcastStep_eq]
  split
  · rfl
  · split <;> rfl

@[simp] theorem securityManager_broadcastStep :
    (broadcastStep fails message senderId s i).securityManager = s.securityManager := by
  rw [broadcastStep_eq]
  split
  · rfl
  · split <;> rfl

end Step

section Loop
variable (fails : Slot → Bool) (message : CString) (senderId : Int)

/-- The loop over the slots of `l`, read slot by slot. -/
theorem broadcastLoop (l : List Slot) (hl : l.Nodup) (s : State) :
    let s' := l.foldl (broadcastStep fails message senderId) s
    (∀ d, s'.session d =
      if d ∈ l ∧ Evicted fails s senderId d then (s.session d).cleaned else s.session d) ∧
    s'.trace = s.trace ++ l.flatMap (broadcastEvents fails message senderId s) ∧
    s'.roomManager = s.roomManager ∧ s'.securityManager = s.securityManager := by
  induction l generalizing s with
  | nil => simp
  | cons i l ih =>
    obtain ⟨hi, hl⟩ := List.nodup_cons.mp hl
    obtain ⟨hsession, htrace, hrooms, hsecurity⟩ := ih hl (broadcastStep fails message senderId s i)
    have hother : ∀ d, d ≠ i →
        (broadcastStep fails message senderId s i).session d = s.session d := by
      intro d hd
      rw [session_broadcastStep, if_neg (fun h => hd h.1)]
    refine ⟨?_, ?_, ?_, ?_⟩
    · intro d
      rw [List.foldl_cons, hsession d]
      by_cases hd : d = i
      · subst hd
        rw [if_neg (fun h => hi h.1), session_broadcastStep]
        simp
      · simp only [Evicted, Reached, hother d hd, List.mem_cons, hd, false_or]
    · rw [List.foldl_cons, htrace, trace_broadcastStep, List.append_assoc, List.flatMap_cons]
      congr 2
      apply List.flatMap_congr
      intro d hd
      have hdi : d ≠ i := fun h => hi (h ▸ hd)
      simp only [broadcastEvents, Reached, hother d hdi]
      rfl
    · rw [List.foldl_cons, hrooms, roomManager_broadcastStep]
    · rw [List.foldl_cons, hsecurity, securityManager_broadcastStep]

variable (s : State)

theorem session_broadcast (d : Slot) :
    (clientManagerBroadcastMessage fails s message senderId).session d =
      if Evicted fails s senderId d then (s.session d).cleaned else s.session d := by
  have h := (broadcastLoop fails message senderId _ (List.nodup_finRange maxClients) s).1 d
  simp only [List.mem_finRange, true_and] at h
  exact h

theorem trace_broadcast :
    (clientManagerBroadcastMessage fails s message senderId).trace = s.trace ++
      (List.finRange maxClients).flatMap (broadcastEvents fails message senderId s) :=
  (broadcastLoop fails message senderId _ (List.nodup_finRange maxClients) s).2.1

@[simp] theorem roomManager_broadcast :
    (clientManagerBroadcastMessage fails s message senderId).roomManager = s.roomManager :=
  (broadcastLoop fails message senderId _ (List.nodup_finRange maxClients) s).2.2.1

@[simp] theorem securityManager_broadcast :
    (clientManagerBroadcastMessage fails s message senderId).securityManager =
      s.securityManager :=
  (broadcastLoop fails message senderId _ (List.nodup_finRange maxClients) s).2.2.2

end Loop

section Remove
variable (fails : Slot → Bool) (s : State) (c d : Slot)

/-- The state in which a removal announces that `c` has left. -/
def removed : State :=
  (clientSessionCleanup (s.setSecurity (securityManagerRemoveClient s.securityManager c))
    c).addClientCount (-1)

def farewell : CString :=
  ("*** " ++ (s.session c).nickname ++ " left the chat ***\n" : CString).take (bufferSize - 1)

theorem remove_of_active (h : (s.session c).active = true) :
    clientManagerRemoveClient fails s c =
      clientManagerBroadcastMessage fails (removed s c) (farewell s c) c := by
  unfold clientManagerRemoveClient
  dsimp only
  rw [if_pos h]
  rfl

theorem remove_of_inactive (h : (s.session c).active = false) :
    clientManagerRemoveClient fails s c = s := by
  unfold clientManagerRemoveClient
  dsimp only
  rw [if_neg (by simp [h])]

theorem session_removed :
    (removed s c).session d = if d = c then (s.session c).cleaned else s.session d := by
  rw [removed, State.session_addClientCount, session_clientSessionCleanup]
  rfl

/-- The sessions that removing slot `c` takes down: its own, and those that the farewell does
not reach. -/
def TakenDown : Prop :=
  (s.session c).active = true ∧ (d = c ∨ Evicted fails s c d)

instance : Decidable (TakenDown fails s c d) := inferInstanceAs (Decidable (_ ∧ _))

theorem session_remove :
    (clientManagerRemoveClient fails s c).session d =
      if TakenDown fails s c d then (s.session d).cleaned else s.session d := by
  by_cases hactive : (s.session c).active = true
  · rw [remove_of_active _ _ _ hactive, session_broadcast]
    simp only [TakenDown, hactive, true_and, Evicted, Reached, session_removed]
    by_cases hd : d = c
    · simp [hd]
    · simp only [hd, if_false, false_or]
  · rw [remove_of_inactive _ _ _ (Bool.eq_false_iff.mpr hactive)]
    simp only [TakenDown, hactive, Bool.false_eq_true, false_and, if_false]

@[simp] theorem roomManager_remove :
    (clientManagerRemoveClient fails s c).roomManager = s.roomManager := by
  by_cases hactive : (s.session c).active = true
  · rw [remove_of_active _ _ _ hactive, roomManager_broadcast]
    rfl
  · rw [remove_of_inactive _ _ _ (Bool.eq_false_iff.mpr hactive)]

end Remove

section Add
variable (s : State) (socketFd : Int) (i : Slot)

/-- The session that a new connection gets in slot `i`. -/
def newSession : ClientSession :=
  { clientSessionInitialize (s.session i) socketFd with clientId := (i : Int) }

/-- The state after a connection was given slot `i`. -/
def added : State :=
  (((s.setSession i (newSession s socketFd i)).setSecurity
    { contexts := Function.update s.securityManager.contexts i (some ⟨sessionKey, 0, 0⟩)
      numContexts := s.securityManager.numContexts + 1 })).addClientCount 1

/-- The first slot whose session is not active. -/
def LowestFree : Prop :=
  (s.session i).active = false ∧ ∀ j < i, (s.session j).active = true

instance : Decidable (LowestFree s i) := inferInstanceAs (Decidable (_ ∧ _))

theorem LowestFree.unique {s : State} {i k : Slot} (hi : LowestFree s i) (hk : LowestFree s k) :
    i = k := by
  rcases lt_trichotomy i k with hlt | heq | hgt
  · have hactive := hk.2 i hlt
    rw [hi.1] at hactive
    cases hactive
  · exact heq
  · have hactive := hi.2 k hgt
    rw [hk.1] at hactive
    cases hactive

theorem LowestFree.ne_of_active {s : State} {i d : Slot} (hi : LowestFree s i)
    (hactive : (s.session d).active = true) : d ≠ i := by
  intro hd
  subst hd
  rw [hi.1] at hactive
  cases hactive

/-- A new connection gets the lowest inactive slot. It is refused when there is none, and when
its security context cannot be made; then its descriptor is closed. -/
theorem add_cases (created : Bool) :
    ((∀ i, (s.session i).active = true) ∧
      clientManagerAddNewClient s socketFd created = (s, -1)) ∨
    ∃ i, LowestFree s i ∧
      (created = true ∧ clientManagerAddNewClient s socketFd created =
          (added s socketFd i, (i : Int)) ∨
        created = false ∧ clientManagerAddNewClient s socketFd created =
          (clientSessionCleanup ((s.setSession i (newSession s socketFd i)).setSecurity
            { s.securityManager with
              contexts := Function.update s.securityManager.contexts i none }) i, -1)) := by
  unfold clientManagerAddNewClient
  split
  · rename_i hnone
    refine Or.inl ⟨fun i => ?_, rfl⟩
    simpa using Fin.find?_eq_none_iff.mp hnone i
  · rename_i i hi
    obtain ⟨hfree, hbelow⟩ := Fin.find?_eq_some_iff.mp hi
    refine Or.inr ⟨i, ⟨by simpa using hfree, fun j hj => by simpa using hbelow j hj⟩, ?_⟩
    cases created with
    | true =>
      refine Or.inl ⟨rfl, ?_⟩
      simp [securityManagerAddClient, securityContextCreate, added, newSession,
        initEncryptionContext]
    | false => exact Or.inr ⟨rfl, rfl⟩

theorem session_added (d : Slot) :
    (added s socketFd i).session d = if d = i then newSession s socketFd i else s.session d := by
  rw [added, State.session_addClientCount, State.session_setSecurity, State.session_setSession]

theorem session_added_of_ne {s : State} {socketFd : Int} {i d : Slot} (hd : d ≠ i)
    (es : List Event) : (added (s.emit es) socketFd i).session d = s.session d := by
  rw [session_added, if_neg hd, State.session_emit]

/-- Whoever is left when a connection is removed as soon as it has been added was there before. -/
theorem session_dropped {fails : Slot → Bool} {d : Slot}
    (hactive : ((clientManagerRemoveClient fails (added s socketFd i) i).session d).active =
      true) :
    d ≠ i ∧ (clientManagerRemoveClient fails (added s socketFd i) i).session d =
      s.session d := by
  rw [session_remove] at hactive ⊢
  have hdi : d ≠ i := by
    rintro rfl
    have hnew : ((added s socketFd d).session d).active = true := by
      rw [session_added, if_pos rfl]
      rfl
    rw [if_pos ⟨hnew, Or.inl rfl⟩] at hactive
    cases hactive
  rw [eq_of_cleaned_active hactive, session_added, if_neg hdi]
  exact ⟨hdi, rfl⟩

end Add

end TcpChat.Server
