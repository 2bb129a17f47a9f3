import TcpChat.Server.Locking

/-!
# No deadlock on the server

The thread that accepts connections and the handlers of the clients, in any interleaving of what
they lock, unlock and write. Signals are left out: their handler logs on top of whatever it has
interrupted.
-/

namespace TcpChat.Server

open Base.LockOrder Base.Runs Locking
set_option autoImplicit false

universe w

/-- A thread enters a call and will take one of the ways through it, or goes on in its call. -/
inductive LockMove (ι : Type w) where
  | call (i : ι) (call : Call) (acts : List (Act Mutex Shared)) (h : call.code.Runs acts)
  | advance (i : ι)

def LockMove.move {ι : Type w} : LockMove ι → Move ι Mutex Shared
  | .call i _ acts _ => .call i acts
  | .advance i => .advance i

section Progress
variable {ι : Type w} [DecidableEq ι]

/-- What a session has come to is not guarded: two handlers that announce their clients, be they
handlers of one slot, may be about to write it at once. -/
theorem session_writes_meet {i j : ι} (hij : i ≠ j) :
    ∃ (moves : List (LockMove ι)) (as bs : List (Act Mutex Shared)),
      (run step (Threads.start : Threads ι Mutex Shared) (moves.map LockMove.move)).todo i =
          .write .sessions :: as ∧
        (run step (Threads.start : Threads ι Mutex Shared) (moves.map LockMove.move)).todo j =
          .write .sessions :: bs := by
  have hwelcome : Call.welcome.code.Runs [.write .sessions] :=
    .seq (.right .skip) (.seq (.left (.seq (.act _) (.seq (.right .skip) .skip))) .skip)
  refine ⟨[.call i .welcome _ hwelcome, .call j .welcome _ hwelcome], [], [], ?_, ?_⟩
  · simp [LockMove.move, step, Threads.start, Function.update_of_ne hij.symm, hij]
  · simp [LockMove.move, step, Threads.start, Function.update_of_ne hij.symm]

end Progress

end TcpChat.Server
