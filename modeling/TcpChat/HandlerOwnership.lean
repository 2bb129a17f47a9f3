import TcpChat.Server.Ownership

/-!
# Whose connection a handler works on

A handler keeps the number of a slot, and a slot freed by an eviction is handed out again while
the handler it was made for still runs.
-/

namespace TcpChat.Server

open Base Base.Runs
set_option autoImplicit false

/-- Handlers stay with their connections exactly as long as no connection is given a slot that
an earlier handler is still bound to. -/
theorem handlersOwn_iff_slotsVacated (libc : Libc) (memory : State) (labels : List Label) :
    Always (System.step libc) HandlersOwn (System.start memory) labels ↔
      EachStep (System.step libc) SlotVacated (System.start memory) labels :=
  always_iff_eachStep (I := fun _ => True) (H := fun _ _ => True)
    (fun _ _ _ _ _ _ => trivial)
    (fun _ label _ hown _ => handlersOwn_step_iff hown label)
    trivial (handlersOwn_start memory) (fun _ _ _ => trivial)

/-- The farewell of connection 1 fails to reach connection 0, whose slot then goes to connection 2
while handler 0 still runs. -/
theorem handlers_share_a_slot :
    ¬ ∀ (libc : Libc) (memory : State) (labels : List Label),
      Always (System.step libc) HandlersOwn (System.start memory) labels := by
  intro h
  have hown := (h countingLibc zeroedMemory
    [.accept 5 true true calm, .accept 6 true true calm,
      .handler 1 ⟨none, none, 0, calm⟩,
      .handler 1 ⟨none, none, 0, { calm with sendFails := fun _ i => i = 0 }⟩,
      .accept 7 true true calm]).last
  have hworks := hown 0 2 ⟨0, .awaitSyn, ⟨by decide +kernel, by decide⟩, by decide +kernel,
    by decide +kernel⟩
  cases hworks

end TcpChat.Server
