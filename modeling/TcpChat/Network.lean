import TcpChat.Client.Receiver
import TcpChat.Server.Threads

/-!
# Clients that come and go

The server with its threads and any number of client programs, each of which connects at most
once. What one side has sent stays in order until the other side reads it; a `recv` behind the
handshake returns as many of the bytes as it likes. Neither side is told what the other one does.
-/

namespace TcpChat

open Base Base.Runs Server Client
set_option autoImplicit false

/-- The bytes that `send` is given. -/
def Server.Payload.bytes : Payload → List UInt8
  | .text s => s.bytes
  | .packet p => p.image

/-- A client and the two directions of its connection. `packets` and `stream` are what it has sent
in the handshake and behind it and the server has not read. `arrived` is what the server has
sent, without the SYN-ACK that ended the handshake; `taken` bytes of it have been read.
`descriptor` is the server's end while it is open. -/
structure Endpoint where
  client : ClientT
  clientSeq : UInt32
  connection : Option Nat
  descriptor : Option Int
  closed : Bool
  packets : List HandshakePacket
  stream : List UInt8
  arrived : List Payload
  taken : Nat

structure Network (ι : Type) where
  sys : System
  ends : ι → Endpoint

/-- `count` says how many bytes a `recv` returns at most; `none` when it fails or times out. -/
inductive NetLabel (ι : Type) where
  | connect (i : ι) (fd : Int) (clientSeq : UInt32) (created started : Bool) (env : Env)
  | serve (i : ι) (count : Option Nat) (seqNum : UInt32) (env : Env)
  | finish (i : ι)
  | receive (i : ι) (count : Nat)
  | disconnect (i : ι)

namespace Endpoint

/-- A program that has not connected yet. -/
def start (client : ClientT) : Endpoint :=
  { client := client, clientSeq := 0, connection := none, descriptor := none, closed := false
    packets := [], stream := [], arrived := [], taken := 0 }

/-- What an action of the server on a descriptor means for this connection. -/
def see (e : Endpoint) : Event → Endpoint
  | .send fd payload ok =>
    if e.descriptor = some fd ∧ ok = true then { e with arrived := e.arrived ++ [payload] } else e
  | .close fd => if e.descriptor = some fd then { e with descriptor := none } else e
  | .accept _ => e

/-- The bytes that the client can read. -/
def unread (e : Endpoint) : List UInt8 := (e.arrived.flatMap Payload.bytes).drop e.taken

/-- The connection is made and the SYN is sent. -/
def connected (e : Endpoint) (n : Nat) (fd : Int) (clientSeq : UInt32) : Endpoint :=
  { e with
    connection := some n
    descriptor := some fd
    clientSeq := clientSeq
    packets := [synPacket e.client.nickname clientSeq] }

/-- What the handler at `pc` reads, and what is left. While the client is there a handler in its
loop waits for something to read. -/
def offer (e : Endpoint) (pc : Pc) (count : Option Nat) (seqNum : UInt32) (env : Env) :
    Option (Input × Endpoint) :=
  match pc with
  | .awaitSyn | .awaitAck _ _ =>
    some (⟨count.bind fun _ => e.packets.head?, none, seqNum, env⟩,
      { e with packets := if count.isSome then e.packets.tail else e.packets })
  | .loop =>
    let chunk := count.map fun k => e.stream.take k
    if chunk = some [] ∧ e.closed = false then none
    else some (⟨none, chunk, seqNum, env⟩, { e with stream := e.stream.drop (count.getD 0) })
  | .sendSynAck _ | .welcome | .exiting | .gone => some (⟨none, none, seqNum, env⟩, e)

/-- The client reads the SYN-ACK, sends its ACK, and `client_connect_to_server` goes on to its
end. -/
def finish (e : Endpoint) : Endpoint :=
  if e.client.connected = true ∨ e.closed = true then e
  else
    match e.arrived with
    | .packet packet :: rest =>
      match handshakeAnswer e.client.nickname e.clientSeq (some packet) with
      | none => e
      | some ack =>
        let sent := clientConnectToServer e.client true
        { e with
          client := sent.client
          packets := e.packets ++ [ack]
          stream := e.stream ++ sent.frame.getD []
          arrived := rest
          taken := 0 }
    | _ => e

/-- A round of the receiver thread, which reads at most `BUFFER_SIZE - 1` bytes. -/
def receive (e : Endpoint) (count : Nat) : Endpoint :=
  if e.client.connected = false then e
  else
    let chunk := e.unread.take (min count (Client.bufferSize - 1))
    let received : Received :=
      if chunk ≠ [] then .bytes chunk else if e.descriptor = none then .closed else .timedOut
    { e with
      client := (messageReceiverTurn e.client received).client
      taken := e.taken + chunk.length }

def disconnect (e : Endpoint) : Endpoint :=
  if e.client.connected = false then e
  else
    let sent := clientDisconnect e.client
    { e with client := sent.client, stream := e.stream ++ sent.frame.getD [], closed := true }

end Endpoint

namespace Network

variable {ι : Type} [DecidableEq ι] (libc : Libc)

def start (memory : State) (clients : ι → ClientT) : Network ι :=
  { sys := System.start memory, ends := fun i => Endpoint.start (clients i) }

def setEnd (net : Network ι) (i : ι) (e : Endpoint) : Network ι :=
  { net with ends := Function.update net.ends i e }

omit [DecidableEq ι] in
/-- The server takes a step, and what it sends is on its way. -/
def serverStep (net : Network ι) (label : Server.Label) : Network ι :=
  let sys := net.sys.step libc label
  let events := sys.server.trace.drop net.sys.server.trace.length
  { sys := sys, ends := fun i => events.foldl Endpoint.see (net.ends i) }

def step (net : Network ι) : NetLabel ι → Network ι
  | .connect i fd clientSeq created started env =>
    if (net.ends i).connection = none ∧ Unused net.sys.server fd then
      let label := Label.accept fd created started env
      -- the next connection is this client's, unless the server refuses it
      if (net.sys.step libc label).handlers.length = net.sys.handlers.length then
        net.serverStep libc label
      else (net.setEnd i
        ((net.ends i).connected net.sys.handlers.length fd clientSeq)).serverStep libc label
    else net
  | .serve i count seqNum env =>
    match (net.ends i).connection with
    | none => net
    | some n =>
      match net.sys.handlers[n]? with
      | none => net
      | some h =>
        match (net.ends i).offer h.pc count seqNum env with
        | none => net
        | some (input, e) => (net.setEnd i e).serverStep libc (.handler n input)
  | .finish i => net.setEnd i (net.ends i).finish
  | .receive i count => net.setEnd i ((net.ends i).receive count)
  | .disconnect i => net.setEnd i (net.ends i).disconnect

end Network

end TcpChat
