import Mathlib.Algebra.Ring.Nat
import Mathlib.Data.List.FinRange
import Mathlib.Data.Fin.Tuple.Basic
import TcpChat.Server.Types

/-!
# The room table (server/src/room_manager.c)

A pointer to a room is the number of its slot. The functions run under `global_mutex`, so each
is one atomic step. Their null checks are left out: the handlers never pass a null pointer.
-/

namespace TcpChat.Server

open Base
set_option autoImplicit false

def roomManagerInitialize (manager : RoomManager) : RoomManager :=
  { rooms := fun i =>
      { manager.rooms i with
        roomId := .empty
        roomName := .empty
        clientCount := 0
        isActive := false
        clientIds := fun _ => -1 }
    roomCount := 0 }

def roomInitialize (room : Room) (roomId roomName : CString) : Room :=
  { room with
    roomId := roomId.take roomIdLength
    roomName := roomName.take (maxRoomName - 1)
    clientCount := 0
    isActive := true
    clientIds := fun _ => -1 }

def roomCleanup (room : Room) : Room :=
  { room with
    roomId := .empty
    roomName := .empty
    clientCount := 0
    isActive := false
    clientIds := fun _ => -1 }

def roomHasClient (room : Room) (clientId : Int) : Bool :=
  if clientId < 0 then false
  else (Fin.find? fun i => room.clientIds i == clientId).isSome

def roomAddClient (room : Room) (clientId : Int) : Room × Int :=
  if clientId < 0 then (room, -1)
  else if roomHasClient room clientId then (room, -1)
  else if room.clientCount ≥ maxClientsPerRoom then (room, -1)
  else
    match Fin.find? fun i => room.clientIds i == -1 with
    | some i =>
      ({ room with
         clientIds := Function.update room.clientIds i clientId
         clientCount := room.clientCount + 1 }, 0)
    | none => (room, -1)

def roomRemoveClient (room : Room) (clientId : Int) : Room × Int :=
  if clientId < 0 then (room, -1)
  else
    match Fin.find? fun i => room.clientIds i == clientId with
    | some i =>
      ({ room with
         clientIds := Function.update room.clientIds i (-1)
         clientCount := room.clientCount - 1 }, 0)
    | none => (room, -1)

def charset : List UInt8 := (CString.ofString "ABCDEFGHIJKLMNOPQRSTUVWXYZ0123456789").bytes

/-- `srand(time(NULL) + getpid())` followed by `ROOM_ID_LENGTH` calls of `rand`. -/
def roomGenerateId (libc : Libc) (now : Int) : CString :=
  let seed := UInt32.ofInt (now + libc.pid)
  CString.ofBuffer ((List.range roomIdLength).map fun i =>
    charset.getD (libc.rand seed i % charset.length) 0)

def roomManagerFindRoom (manager : RoomManager) (roomId : CString) : Option (Fin maxRooms) :=
  Fin.find? fun i => (manager.rooms i).isActive && (manager.rooms i).roomId == roomId

/-- The result of `room_add_client` is not looked at. -/
def roomManagerCreateRoom (libc : Libc) (now : Int) (manager : RoomManager) (roomName : CString)
    (creatorClientId : Int) : RoomManager × Option CString :=
  if manager.roomCount ≥ maxRooms then (manager, none)
  else
    match Fin.find? fun i => !(manager.rooms i).isActive with
    | none => (manager, none)
    | some i =>
      let roomId := roomGenerateId libc now
      let room := (roomAddClient (roomInitialize (manager.rooms i) roomId roomName)
        creatorClientId).1
      ({ rooms := Function.update manager.rooms i room
         roomCount := manager.roomCount + 1 }, some roomId)

def roomManagerJoinRoom (manager : RoomManager) (roomId : CString) (clientId : Int) :
    RoomManager × Int :=
  match roomManagerFindRoom manager roomId with
  | none => (manager, -1)
  | some i =>
    let (room, result) := roomAddClient (manager.rooms i) clientId
    ({ manager with rooms := Function.update manager.rooms i room }, result)

/-- The room is closed when it is empty, whether or not the client was in it. -/
def roomManagerLeaveRoom (manager : RoomManager) (roomId : CString) (clientId : Int) :
    RoomManager × Int :=
  match roomManagerFindRoom manager roomId with
  | none => (manager, -1)
  | some i =>
    let (room, result) := roomRemoveClient (manager.rooms i) clientId
    if room.clientCount = 0 then
      ({ rooms := Function.update manager.rooms i (roomCleanup room)
         roomCount := manager.roomCount - 1 }, result)
    else ({ manager with rooms := Function.update manager.rooms i room }, result)

def clientManagerGetSession (clientId : Int) : Option Slot :=
  if h : 0 ≤ clientId ∧ clientId < maxClients then some ⟨clientId.toNat, toNat_lt_maxClients h⟩ else none

/-- The session that entry `i` of a room is broadcast to, if any. -/
def broadcastTarget (s : State) (room : Room) (senderId : Int) (i : Fin maxClientsPerRoom) :
    Option Slot :=
  let clientId := room.clientIds i
  if clientId ≠ -1 ∧ clientId ≠ senderId then
    (clientManagerGetSession clientId).filter fun c => (s.session c).active
  else none

def roomManagerBroadcastToRoom (fails : Slot → Bool) (s : State) (roomId message : CString)
    (senderId : Int) : State × Int :=
  match roomManagerFindRoom s.roomManager roomId with
  | none => (s, -1)
  | some r =>
    let targets := (List.finRange maxClientsPerRoom).filterMap
      (broadcastTarget s (s.roomManager.rooms r) senderId)
    (s.emit (targets.map fun c => .send (s.session c).socketFd (.text message) (!fails c)),
      (targets.countP fun c => !fails c : Nat))

/-- `a - b` in `size_t`. -/
def sizeSub (a b : Nat) : Nat := (a + 2 ^ 64 - b) % 2 ^ 64

/-- `strncat(dst, src, size - strlen(dst) - 1)`. -/
def strncatWithin (size : Nat) (dst src : CString) : CString :=
  dst ++ src.take (sizeSub (sizeSub size dst.length) 1)

def roomInfo (room : Room) : CString :=
  ("ID: " ++ room.roomId ++ " | Name: " ++ room.roomName ++ " | Users: " ++
    CString.ofInt room.clientCount ++ "\n" : CString).take (128 - 1)

def listRoomsLoop (manager : RoomManager) (size : Nat) : List (Fin maxRooms) → CString → CString
  | [], buffer => buffer
  | i :: rest, buffer =>
    if buffer.length < sizeSub size 100 then
      let room := manager.rooms i
      listRoomsLoop manager size rest
        (if room.isActive then strncatWithin size buffer (roomInfo room) else buffer)
    else buffer

def roomManagerListRooms (manager : RoomManager) (size : Nat) : CString :=
  let buffer := ("=== Active Rooms ===\n" : CString).take (size - 1)
  let buffer :=
    if manager.roomCount = 0 then strncatWithin size buffer "No active rooms\n"
    else listRoomsLoop manager size (List.finRange maxRooms) buffer
  strncatWithin size buffer "==================\n"

def userInfo (session : ClientSession) : CString :=
  ("- " ++ session.nickname ++ "\n" : CString).take (64 - 1)

def roomManagerGetRoomUsers (s : State) (roomId : CString) (size : Nat) : CString :=
  match roomManagerFindRoom s.roomManager roomId with
  | none => ("Room not found\n" : CString).take (size - 1)
  | some r =>
    let room := s.roomManager.rooms r
    let buffer := ("=== Users in Room " ++ room.roomName ++ " ===\n" : CString).take (size - 1)
    -- an entry is shown when a message from nobody in particular would reach it
    let users := (List.finRange maxClientsPerRoom).filterMap (broadcastTarget s room (-1))
    let buffer := users.foldl (fun buffer c => strncatWithin size buffer (userInfo (s.session c)))
      buffer
    strncatWithin size buffer "======================\n"

end TcpChat.Server
