import Mathlib.Logic.Function.Basic

/-!
# Maps given by a log of writes

A write gives a key a value, or takes its value away. What a key holds after a log of writes is
what the last write to it left.
-/

namespace Base.WriteLog

set_option autoImplicit false

universe u v
variable {K : Type u} {V : Type v} [DecidableEq K]

/-- What the last write to `k` left. -/
def latest (log : List (K × Option V)) (k : K) : Option V :=
  (log.reverse.find? fun w => w.1 = k).bind Prod.snd

@[simp] theorem latest_nil (k : K) : latest ([] : List (K × Option V)) k = none := rfl

theorem latest_concat_self (log : List (K × Option V)) (k : K) (v : Option V) :
    latest (log ++ [(k, v)]) k = v := by
  simp [latest]

theorem latest_concat_of_ne (log : List (K × Option V)) {k l : K} (v : Option V) (h : l ≠ k) :
    latest (log ++ [(k, v)]) l = latest log l := by
  simp [latest, Ne.symm h]

end Base.WriteLog
