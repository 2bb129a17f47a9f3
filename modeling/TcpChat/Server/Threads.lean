import TcpChat.Server.HandshakeProtocol
import TcpChat.Server.ReceiveLoop

/-!
# The server and its threads

The accept loop and the handlers of all connections, step by step. A handler knows its
connection only by the number of the slot it was started for. Connections are numbered in the
order in which they were given a slot; `occupant` remembers, for the statements only, whose
session a slot holds. A turn of a handler in its loop is one step here; in `Blocking` others go
on while it waits in `recv`.
-/

namespace TcpChat.Server

open Base Base.Runs
set_option autoImplicit false

/-- Where a handler is in `client_session_handler_thread`, with the locals it still needs. -/
inductive Pc where
  | awaitSyn
  | sendSynAck (clientSeq : UInt32)
  | awaitAck (clientSeq seqNum : UInt32)
  | welcome
  | loop
  | exiting
  | gone
  deriving DecidableEq

structure Handler where
  slot : Slot
  pc : Pc
  deriving DecidableEq

/-- The handler of connection `n` is entry `n` of `handlers`. -/
structure System where
  server : State
  handlers : List Handler
  occupant : Slot → Nat

/-- What a step of a handler meets: a packet or a chunk to receive, a clock, an environment. -/
structure Input where
  packet : Option HandshakePacket
  chunk : Option (List UInt8)
  seqNum : UInt32
  env : Env

inductive Label where
  | accept (clientSocket : Int) (created started : Bool) (env : Env)
  | handler (n : Nat) (input : Input)

/-- Nothing is received from descriptor -1. -/
def receivedBy (session : ClientSession) (packet : Option HandshakePacket) :
    Option HandshakePacket :=
  if session.socketFd < 0 then none else packet

/-- One step of a handler: the new state and where the handler goes on. -/
def Handler.step (libc : Libc) (s : State) (h : Handler) (input : Input) : State × Pc :=
  let c := h.slot
  match h.pc with
  | .awaitSyn =>
    let (s, clientSeq) := handshakeReceiveSyn s c (receivedBy (s.session c) input.packet)
    (s, clientSeq.elim .exiting .sendSynAck)
  | .sendSynAck clientSeq =>
    let (s, result) := handshakeSendSynAck (input.env.sendFails 0) s c input.seqNum clientSeq
    (s, if result < 0 then .exiting else .awaitAck clientSeq input.seqNum)
  | .awaitAck _ seqNum =>
    let (s, result) := handshakeReceiveAck s c seqNum (receivedBy (s.session c) input.packet)
    (s, if result < 0 then .exiting else .welcome)
  | .welcome =>
    (chatProtocolAnnounceUserJoined (chatProtocolSendWelcomeMessage input.env s c) c, .loop)
  | .loop =>
    let turn := handlerTurn libc input.env s c input.chunk
    (turn.state, if turn.goesOn then .loop else .exiting)
  | .exiting => (clientManagerRemoveClient (input.env.sendFails 0) s c, .gone)
  | .gone => (s, .gone)

/-- One round of `server_accept_clients`. When no thread can be started for the connection it is
removed again. -/
def System.accept (sys : System) (clientSocket : Int) (created started : Bool) (env : Env) :
    System :=
  let (s, clientId) := serverAcceptClient sys.server clientSocket created
  match clientManagerGetSession clientId with
  | none => { sys with server := s }
  | some c =>
    { server := if started then s else clientManagerRemoveClient (env.sendFails 0) s c
      handlers := sys.handlers ++ [⟨c, if started then .awaitSyn else .gone⟩]
      occupant := Function.update sys.occupant c sys.handlers.length }

def System.step (libc : Libc) (sys : System) : Label → System
  | .accept clientSocket created started env =>
    if Unused sys.server clientSocket then sys.accept clientSocket created started env else sys
  | .handler n input =>
    match sys.handlers[n]? with
    | none => sys
    | some h =>
      let (s, pc) := h.step libc sys.server input
      { sys with server := s, handlers := sys.handlers.set n { h with pc := pc } }

/-- The system before the first connection. -/
def System.start (memory : State) : System :=
  { server := TcpChat.Server.start memory, handlers := [], occupant := fun _ => 0 }

/-- The connection is accepted, gets slot `i` and a handler of its own. -/
def GivenSlot (sys : System) : Label → Slot → Prop
  | .accept clientSocket created started _, i => Unused sys.server clientSocket ∧
    created = true ∧ started = true ∧ LowestFree sys.server i
  | .handler _ _, _ => False

/-- The handler of connection `n` runs, for slot `c`. -/
def Live (sys : System) (n : Nat) (c : Slot) (pc : Pc) : Prop :=
  sys.handlers[n]? = some ⟨c, pc⟩ ∧ pc ≠ .gone

end TcpChat.Server
