import Mathlib.Algebra.Ring.Nat

/-!
# Sizes that both programs use

The two `types.h` agree on the size of a nickname. Keys have 32 bytes, tags have 16.
-/

namespace TcpChat

set_option autoImplicit false

def maxNicknameLen : Nat := 32

instance neZero_keySize : NeZero 32 := ⟨by decide⟩
instance neZero_tagSize : NeZero 16 := ⟨by decide⟩

end TcpChat
