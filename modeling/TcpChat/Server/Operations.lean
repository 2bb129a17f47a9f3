import TcpChat.Base.Runs
import TcpChat.Server.Requests
import TcpChat.Server.RoomIds

/-!
# The server, operation by operation

The server as a machine whose steps are whole operations: a connection is accepted, a client
that has shaken hands enters the lobby, a handler serves a message of its client, a handler
removes its client. The clients and the environment choose the order. The test of the session,
the receive and the request are one operation; `Blocking` takes them apart.
-/

namespace TcpChat.Server

open Base Base.Runs
set_option autoImplicit false

inductive Op where
  | connect (socketFd : Int) (created : Bool)
  | enterLobby (c : Slot)
  | message (c : Slot) (line : CString) (env : Env)
  | disconnect (c : Slot) (env : Env)

/-- `accept` returns a descriptor that no session holds. -/
def Unused (s : State) (fd : Int) : Prop :=
  0 ≤ fd ∧ ∀ c, (s.session c).active = true → (s.session c).socketFd ≠ fd

instance (s : State) (fd : Int) : Decidable (Unused s fd) :=
  inferInstanceAs (Decidable (_ ∧ _))

/-- A handler serves messages once its session has been announced. -/
def Served (s : State) (c : Slot) : Prop :=
  clientSessionIsActive (s.session c) = true ∧ (s.session c).state ≠ .connected

instance (s : State) (c : Slot) : Decidable (Served s c) :=
  inferInstanceAs (Decidable (_ ∧ _))

theorem Served.active {s : State} {c : Slot} (h : Served s c) : (s.session c).active = true := by
  have hactive := h.1
  simp only [clientSessionIsActive, Bool.and_eq_true] at hactive
  exact hactive.1

/-- Accepting a connection, up to the start of its handler. -/
def serverAcceptClient (s : State) (clientSocket : Int) (created : Bool) : State × Int :=
  let (s, clientId) := clientManagerAddNewClient (s.emit [.accept clientSocket]) clientSocket created
  if clientId < 0 then (s.emit [.close clientSocket], clientId) else (s, clientId)

/-- An operation that is not enabled leaves the state as it is. -/
def Op.step (libc : Libc) (s : State) : Op → State
  | .connect socketFd created =>
    if Unused s socketFd then (serverAcceptClient s socketFd created).1 else s
  | .enterLobby c =>
    if (s.session c).active = true ∧ (s.session c).state = .connected then
      chatProtocolAnnounceUserJoined s c
    else s
  | .message c line env => if Served s c then (chatProtocolHandleMessage libc env s c line).1 else s
  | .disconnect c env => clientManagerRemoveClient (env.sendFails 0) s c

/-- The server after `server_create`. -/
def start (memory : State) : State :=
  { clientManager := clientManagerInitialize memory.clientManager
    roomManager := roomManagerInitialize memory.roomManager
    securityManager := { contexts := fun _ => none, numContexts := 0 }
    trace := [] }

/-- An id drawn now is not the id of an active room. -/
def FreshId (libc : Libc) (now : Int) (manager : RoomManager) : Prop :=
  manager.roomCount < maxRooms → ∀ i, (manager.rooms i).isActive = true →
    (manager.rooms i).roomId ≠ roomGenerateId libc now

/-- Where the operation calls `room_generate_id`, the result is the id of no active room. -/
def FreshIds (libc : Libc) (s : State) : Op → Prop
  | .message c line env => match parse line with
    | .create roomName => Served s c → ValidRoomName roomName →
      FreshId libc env.now (leaveCurrentRoom s c).roomManager
    | _ => True
  | _ => True

/-- The request of client `c` is broadcast to everybody and does not reach slot `d`. -/
def Evicts (env : Env) (s : State) (c : Slot) : Request → Slot → Prop
  | .nick newNickname, d => (cleanNickname newNickname).length ≠ 0 ∧ Dropped env s d
  | .keyExchange _, d => (s.session c).hasRoom = false ∧ Evicted (env.sendFails 0) s c d
  | _, _ => False

instance (env : Env) (s : State) (c : Slot) (r : Request) (d : Slot) :
    Decidable (Evicts env s c r d) :=
  match r with
  | .nick _ | .keyExchange _ => inferInstanceAs (Decidable (_ ∧ _))
  | .create _ | .join _ | .leave | .users | .e2eMessage _ | .chat _ | .nothing | .quit | .rooms
  | .help | .unknown => isFalse id

/-- The operation tears down the session in slot `d`, by a removal or by an eviction. -/
def TearsDown (s : State) : Op → Slot → Prop
  | .message c line env, d => Served s c ∧ Evicts env s c (parse line) d
  | .disconnect c env, d => TakenDown (env.sendFails 0) s c d
  | _, _ => False

def Undisturbed (s : State) (op : Op) : Prop := ∀ d, ¬ TearsDown s op d

/-- Memory as the loader zeroes it, for runs that are written out. -/
def zeroedMemory : State :=
  { clientManager := ⟨fun _ => ⟨0, .empty, false, .idle, 0, .connected, .empty, 0⟩, 0⟩
    roomManager := ⟨fun _ => ⟨.empty, .empty, fun _ => 0, 0, false⟩, 0⟩
    securityManager := ⟨fun _ => none, 0⟩
    trace := [] }

/-- Every send succeeds. -/
def calm : Env := ⟨fun _ _ => false, 1700000000, []⟩

def countingLibc : Libc := ⟨fun seed k => seed.toNat + k, 4242⟩

section Accept
variable (s : State) (clientSocket : Int) (created : Bool)

/-- What accepting does to the tables: one free slot gets the new connection, or is cleaned. -/
theorem accept_cases :
    ((serverAcceptClient s clientSocket created).1.session = s.session ∨
      ∃ i, (s.session i).active = false ∧
        ((serverAcceptClient s clientSocket created).1.session =
            Function.update s.session i (newSession s clientSocket i) ∨
          (serverAcceptClient s clientSocket created).1.session =
            Function.update s.session i (newSession s clientSocket i).cleaned)) ∧
    (serverAcceptClient s clientSocket created).1.roomManager = s.roomManager := by
  unfold serverAcceptClient
  rcases add_cases (s.emit [.accept clientSocket]) clientSocket created with
    ⟨_, heq⟩ | ⟨i, ⟨hfree, _⟩, ⟨_, heq⟩ | ⟨_, heq⟩⟩
  · rw [heq]
    dsimp only
    rw [if_pos (by omega)]
    exact ⟨Or.inl rfl, rfl⟩
  · rw [heq]
    dsimp only
    rw [if_neg (by omega)]
    refine ⟨Or.inr ⟨i, hfree, Or.inl ?_⟩, rfl⟩
    funext d
    rw [session_added, Function.update_apply]
    rfl
  · rw [heq]
    dsimp only
    rw [if_pos (by omega)]
    refine ⟨Or.inr ⟨i, hfree, Or.inr ?_⟩, rfl⟩
    funext d
    rw [State.session_emit, session_clientSessionCleanup, State.session_setSecurity,
      State.session_setSecurity, State.session_setSession_self, Function.update_apply]
    split
    · rfl
    · rename_i hd
      rw [State.session_setSession_of_ne _ _ _ _ hd, State.session_emit]

end Accept

end TcpChat.Server
