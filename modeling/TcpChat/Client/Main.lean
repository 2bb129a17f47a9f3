import TcpChat.Base.LineReader
import TcpChat.Client.Receiver

/-!
# The two loops of the client (client/src/main.c)

The main thread reads what is typed, first in `main_handle_room_selection` and then in the loop
of `main`, while the receiver thread runs beside it. What has been read waits to be handled: in
between, and while the main thread waits for input, the receiver thread may do anything.
-/

namespace TcpChat.Client

open Base Base.Bytes Base.LineReader
set_option autoImplicit false

inductive Phase where
  | selecting
  | chatting
  | ended
  deriving DecidableEq

/-- What the loop of `main` takes a line for. -/
inductive ChatCommand where
  | quit
  | e2e (recipient message : CString)
  | e2eUsage
  | help
  | peers
  | keyRefresh
  | nothing
  | say (message : CString)
  deriving DecidableEq

/-- What is printed for a line. -/
inductive Printed where
  | choice
  | invalid
  | entering
  | sentTo (recipient : CString)
  | failedTo (recipient : CString)
  | usage
  | help
  | noPeers
  | peers (nicknames : List CString)
  | keyFailed
  | keySent
  deriving DecidableEq

/-- The client program behind `client_connect_to_server`. `held` is a line that is read and not
handled yet. `frames` is what the loops have given to `send`, `farewell` what
`client_disconnect` has. `shown` is what the receiver thread shows. -/
structure Terminal where
  client : ClientT
  phase : Phase
  input : List UInt8
  held : Option CString
  frames : List (List UInt8)
  farewell : Option (List UInt8)
  printed : List Printed
  shown : List Shown

/-- One step of the program. `sends`, `random` and `memory` are for the sends of the line that is
handled. -/
inductive TerminalLabel where
  | read
  | handle (sends : Bool) (random : Nat → UInt8) (memory : E2eEncryptedPacket)
  | receive (received : Received)
  | interrupt

/-- What `fgets` has put into `input`, without the newline at its end. -/
def typedLine (piece : List UInt8) : CString :=
  let input := CString.ofBuffer piece
  if 0 < input.length ∧ input.bytes.getLast? = some 10 then input.take (input.length - 1)
  else input

/-- What the calls of `fgets` make of all that is typed. -/
def typedLines (input : List UInt8) : List CString :=
  (pieces (· == 10) (bufferSize - 1) input).map typedLine

def chatCommand (input : CString) : ChatCommand :=
  if input = "/quit" then .quit
  else if input.startsWith "/e2e " then
    let arguments := input.drop 5
    if 32 ∈ arguments.bytes then
      let recipient := arguments.upTo (· == 32)
      let message := arguments.drop (recipient.length + 1)
      if 0 < message.length then .e2e recipient message else .e2eUsage
    else .e2eUsage
  else if input = "/help" ∨ input = "/e2ehelp" then .help
  else if input = "/peers" then .peers
  else if input = "/keyrefresh" then .keyRefresh
  else if input.length = 0 then .nothing
  else .say input

/-- The line is taken for a successful request to enter a room, whatever the server answers. -/
def entersRoom (input : CString) : Bool :=
  input.startsWith "/create " || input.startsWith "/join "

def peersList (ctx : E2eContext) : Printed :=
  if ctx.numPeers = 0 then .noPeers
  else .peers ((List.finRange maxClientsE2e).filterMap fun i =>
    if i.val < ctx.numPeers ∧ (ctx.peerKeys i).active = true then
      some (ctx.peerKeys i).nickname
    else none)

namespace Terminal

/-- The start of `main_handle_room_selection`. -/
def start (client : ClientT) (input : List UInt8) : Terminal where
  client := client
  phase := .selecting
  input := input
  held := none
  frames := []
  farewell := none
  printed := [.choice]
  shown := []

def print (t : Terminal) (printed : List Printed) : Terminal :=
  { t with printed := t.printed ++ printed }

/-- A send of the loops. -/
def put (t : Terminal) (sent : Sent) : Terminal :=
  { t with client := sent.client, frames := t.frames ++ sent.frame.toList }

/-- The end of `main`: `connected` is cleared before `client_destroy` disconnects. -/
def finish (t : Terminal) : Terminal :=
  let sent := clientDisconnect { t.client with connected := false }
  { t with client := sent.client, phase := .ended, farewell := sent.frame }

/-- `signal_handler`. -/
def interrupt (t : Terminal) : Terminal :=
  if t.phase = .ended then t
  else
    let sent := clientDisconnect t.client
    { t with client := sent.client, phase := .ended, farewell := sent.frame }

def fgets (t : Terminal) : Terminal :=
  match t.input with
  | [] => t.finish
  | _ :: _ =>
    let read := readLine (· == 10) (bufferSize - 1) t.input
    { t with held := some (typedLine read.1), input := read.2 }

def read (t : Terminal) : Terminal :=
  if t.held.isSome then t
  else
    match t.phase with
    | .selecting => if t.client.connected then t.fgets else t.finish
    | .chatting => t.fgets
    | .ended => t

/-- A line in `main_handle_room_selection`. -/
def select (t : Terminal) (input : CString) (sends : Bool) : Terminal :=
  if input.length = 0 then t.print [.choice]
  else if input = "/quit" then t.finish
  else
    let sent := clientSendMessage t.client input sends
    let t := t.put sent
    if sent.result < 0 then t.finish
    else if entersRoom input then { t.print [.entering] with phase := .chatting }
    else if input.startsWith "/rooms" || input.startsWith "/help" then t.print [.choice]
    else t.print [.invalid, .choice]

/-- A line in the loop of `main`. -/
def chat (t : Terminal) (input : CString) (sends : Bool) (random : Nat → UInt8)
    (memory : E2eEncryptedPacket) : Terminal :=
  match chatCommand input with
  | .quit => t.finish
  | .e2e recipient message =>
    let sent := clientSendE2eMessage t.client message recipient random memory sends
    (t.put sent).print [if sent.result < 0 then .failedTo recipient else .sentTo recipient]
  | .e2eUsage => t.print [.usage]
  | .help => t.print [.help]
  | .peers => t.print [peersList t.client.e2eCtx]
  | .keyRefresh =>
    let sent := clientBroadcastPublicKey t.client sends
    (t.put sent).print [if sent.result < 0 then .keyFailed else .keySent]
  | .nothing => t
  | .say message =>
    if t.client.connected then
      let sent := clientSendMessage t.client message sends
      let t := t.put sent
      if sent.result < 0 then t.finish else t
    else t.finish

/-- The line that has been read is handled now. -/
def taken (t : Terminal) : Terminal := { t with held := none }

def handle (t : Terminal) (sends : Bool) (random : Nat → UInt8) (memory : E2eEncryptedPacket) :
    Terminal :=
  match t.held with
  | none => t
  | some input =>
    match t.phase with
    | .selecting => t.taken.select input sends
    | .chatting => t.taken.chat input sends random memory
    | .ended => t.taken

def step (t : Terminal) : TerminalLabel → Terminal
  | .read => t.read
  | .handle sends random memory => t.handle sends random memory
  | .receive received =>
    let turn := messageReceiverTurn t.client received
    { t with client := turn.client, shown := t.shown ++ turn.shown.toList }
  | .interrupt => t.interrupt

end Terminal

end TcpChat.Client
