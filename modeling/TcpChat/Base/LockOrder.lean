import Mathlib.Data.Fintype.BigOperators
import Mathlib.Order.WellFounded
import TcpChat.Base.Runs

/-!
# Mutexes in order

Threads that share mutexes, and the code they run reduced to what it locks, unlocks and writes.
`before l k` says that `k` may be locked by a thread that holds `l`. When every thread keeps to
that order, and nothing comes before itself, no thread waits for ever. A check of the code is
enough to know it of every run of the code.
-/

namespace Base.LockOrder

open Base.Runs
set_option autoImplicit false

universe u v w

/-- The mutexes are of type `L`, what the threads write is of type `V`. -/
inductive Act (L : Type u) (V : Type v) where
  | lock (l : L)
  | unlock (l : L)
  | write (x : V)
  deriving DecidableEq

/-- The shape of a piece of code: `alt` is a branch, `many` a loop, `any` a choice of an index. -/
inductive Code (L : Type u) (V : Type v) where
  | skip
  | act (a : Act L V)
  | seq (p q : Code L V)
  | alt (p q : Code L V)
  | many (p : Code L V)
  | any {n : Nat} (p : Fin n → Code L V)

namespace Code
variable {L : Type u} {V : Type v}

def lock (l : L) : Code L V := .act (.lock l)

def unlock (l : L) : Code L V := .act (.unlock l)

def write (x : V) : Code L V := .act (.write x)

/-- One piece after the other. -/
def block (ps : List (Code L V)) : Code L V := ps.foldr .seq .skip

/-- With or without the piece. -/
def opt (p : Code L V) : Code L V := .alt p .skip

end Code

/-- The ways to run a piece of code. -/
inductive Code.Runs {L : Type u} {V : Type v} : Code L V → List (Act L V) → Prop where
  | skip : Runs .skip []
  | act (a : Act L V) : Runs (.act a) [a]
  | seq {p q : Code L V} {as bs : List (Act L V)} (hp : Runs p as) (hq : Runs q bs) :
    Runs (.seq p q) (as ++ bs)
  | left {p q : Code L V} {as : List (Act L V)} (hp : Runs p as) : Runs (.alt p q) as
  | right {p q : Code L V} {as : List (Act L V)} (hq : Runs q as) : Runs (.alt p q) as
  | none {p : Code L V} : Runs (.many p) []
  | more {p : Code L V} {as bs : List (Act L V)} (hp : Runs p as) (hrest : Runs (.many p) bs) :
    Runs (.many p) (as ++ bs)
  | any {n : Nat} {p : Fin n → Code L V} (i : Fin n) {as : List (Act L V)} (hp : Runs (p i) as) :
    Runs (.any p) as

/-- Who holds each mutex, and what is left of the call that each thread is in. -/
structure Threads (ι : Type w) (L : Type u) (V : Type v) where
  owner : L → Option ι
  todo : ι → List (Act L V)

/-- A thread that is in no call starts one, or a thread goes on with its call. -/
inductive Move (ι : Type w) (L : Type u) (V : Type v) where
  | call (i : ι) (as : List (Act L V))
  | advance (i : ι)

section Discipline
variable {L : Type u} {V : Type v} [DecidableEq L] (before : L → L → Prop)
  (guard : V → Option L)

/-- A thread that holds `held` may lock `l`. -/
def Allows (held : List L) (l : L) : Prop := ∀ k ∈ held, before k l

instance [∀ k l, Decidable (before k l)] (held : List L) (l : L) :
    Decidable (Allows before held l) :=
  inferInstanceAs (Decidable (∀ k ∈ held, before k l))

/-- The actions, by a thread that holds `held`, keep to the order, write what a mutex guards only
under that mutex, and give everything back. -/
def Orderly : List L → List (Act L V) → Prop
  | held, [] => held = []
  | held, .lock l :: as => Allows before held l ∧ Orderly (l :: held) as
  | held, .unlock l :: as => l ∈ held ∧ Orderly (held.filter (· ≠ l)) as
  | held, .write x :: as => (∀ l ∈ guard x, l ∈ held) ∧ Orderly held as

/-- What a thread holds behind the code, out of what it held in front of it; `none` if the code
may break the rules. -/
def check [∀ k l, Decidable (before k l)] : Code L V → List L → Option (List L)
  | .skip, held => some held
  | .act (.lock l), held => if Allows before held l then some (l :: held) else none
  | .act (.unlock l), held => if l ∈ held then some (held.filter (· ≠ l)) else none
  | .act (.write x), held => if ∀ l ∈ guard x, l ∈ held then some held else none
  | .seq p q, held => (check p held).bind (check q)
  | .alt p q, held => if check p held = check q held then check p held else none
  | .many p, held => if check p held = some held then some held else none
  | .any p, held => if ∀ i, check (p i) held = some held then some held else none

variable {before guard} [∀ k l, Decidable (before k l)] {held after : List L}

omit [DecidableEq L] [∀ k l, Decidable (before k l)] in
@[simp] theorem allows_nil (l : L) : Allows before [] l := fun _ hk => absurd hk List.not_mem_nil

omit [DecidableEq L] [∀ k l, Decidable (before k l)] in
@[simp] theorem allows_cons {k l : L} :
    Allows before (k :: held) l ↔ before k l ∧ Allows before held l := List.forall_mem_cons

@[simp] theorem check_block_nil : check before guard (Code.block []) held = some held := rfl

@[simp] theorem check_block_cons (p : Code L V) (ps : List (Code L V)) :
    check before guard (Code.block (p :: ps)) held =
      (check before guard p held).bind (check before guard (Code.block ps)) := rfl

@[simp] theorem check_lock (l : L) :
    check before guard (Code.lock l) held =
      if Allows before held l then some (l :: held) else none := rfl

/-- What was locked last is unlocked. -/
@[simp] theorem check_unlock {l : L} (h : l ∉ held) :
    check before guard (Code.unlock l) (l :: held) = some held := by
  have hkept : (l :: held).filter (· ≠ l) = held := by
    rw [List.filter_cons_of_neg (by simp)]
    apply List.filter_eq_self.mpr
    intro k hk
    rw [decide_eq_true_eq]
    intro heq
    rw [heq] at hk
    exact h hk
  rw [Code.unlock, check, if_pos List.mem_cons_self, hkept]

theorem check_write {x : V} (h : ∀ l ∈ guard x, l ∈ held) :
    check before guard (Code.write x) held = some held := by
  rw [Code.write, check, if_pos h]

@[simp] theorem check_skip : check before guard .skip held = some held := rfl

/-- Whichever branch is taken, the thread has to hold the same behind it. -/
@[simp] theorem check_alt (p q : Code L V) :
    check before guard (.alt p q) held =
      if check before guard p held = check before guard q held then check before guard p held
      else none := rfl

@[simp] theorem check_opt (p : Code L V) :
    check before guard (Code.opt p) held =
      if check before guard p held = some held then check before guard p held else none := rfl

@[simp] theorem check_many (p : Code L V) :
    check before guard (.many p) held =
      if check before guard p held = some held then some held else none := rfl

@[simp] theorem check_any {n : Nat} (p : Fin n → Code L V) :
    check before guard (.any p) held =
      if ∀ i, check before guard (p i) held = some held then some held else none := rfl

end Discipline

section Semantics
variable {ι : Type w} {L : Type u} {V : Type v} [DecidableEq ι] [DecidableEq L]

def Threads.start : Threads ι L V := ⟨fun _ => none, fun _ => []⟩

def step (s : Threads ι L V) : Move ι L V → Threads ι L V
  | .call i as => if s.todo i = [] then { s with todo := Function.update s.todo i as } else s
  | .advance i =>
    match s.todo i with
    | [] => s
    | .lock l :: as =>
      if s.owner l = none then
        ⟨Function.update s.owner l (some i), Function.update s.todo i as⟩
      else s
    | .unlock l :: as => ⟨Function.update s.owner l none, Function.update s.todo i as⟩
    | .write _ :: as => { s with todo := Function.update s.todo i as }

/-- The call that a move starts keeps to the rules. -/
def CallOrderly (before : L → L → Prop) (guard : V → Option L) : Move ι L V → Prop
  | .call _ as => Orderly before guard [] as
  | .advance _ => True

/-- Every thread can finish its call within the rules, with the mutexes it owns. -/
def Disciplined (before : L → L → Prop) (guard : V → Option L) (s : Threads ι L V) : Prop :=
  ∀ i, ∃ held, (∀ l, l ∈ held ↔ s.owner l = some i) ∧ Orderly before guard held (s.todo i)

variable {before : L → L → Prop} {guard : V → Option L} {s : Threads ι L V}

/-- A thread works on its own list, and the mutexes of the others stay with them. -/
theorem Disciplined.of_update (h : Disciplined before guard s) {i : ι} {owner : L → Option ι}
    {as : List (Act L V)} {held : List L} (hheld : ∀ l, l ∈ held ↔ owner l = some i)
    (horderly : Orderly before guard held as)
    (hothers : ∀ j ≠ i, ∀ l, owner l = some j ↔ s.owner l = some j) :
    Disciplined before guard ⟨owner, Function.update s.todo i as⟩ := by
  intro j
  by_cases hj : j = i
  · subst hj
    refine ⟨held, hheld, ?_⟩
    dsimp only
    rw [Function.update_self]
    exact horderly
  · obtain ⟨kept, hkept, hrest⟩ := h j
    refine ⟨kept, fun l => (hkept l).trans (hothers j hj l).symm, ?_⟩
    dsimp only
    rw [Function.update_of_ne hj]
    exact hrest

theorem Disciplined.step (h : Disciplined before guard s) (move : Move ι L V)
    (hcall : CallOrderly before guard move) : Disciplined before guard (step s move) := by
  cases move with
  | call i as =>
    unfold LockOrder.step
    dsimp only
    split
    · rename_i hidle
      obtain ⟨held, hheld, hdone⟩ := h i
      rw [hidle] at hdone
      have hnone : held = [] := hdone
      rw [hnone] at hheld
      exact h.of_update hheld hcall fun _ _ _ => Iff.rfl
    · exact h
  | advance i =>
    obtain ⟨held, hheld, horderly⟩ := h i
    unfold LockOrder.step
    dsimp only
    split
    · exact h
    · rename_i l as heq
      rw [heq] at horderly
      split
      · rename_i hfree
        refine h.of_update (fun k => ?_) horderly.2 fun j hj k => ?_
        · rw [Function.update_apply, List.mem_cons, hheld]
          split
          · rename_i hk
            exact iff_of_true (Or.inl hk) rfl
          · rename_i hk
            exact or_iff_right hk
        · rw [Function.update_apply]
          split
          · rename_i hk
            rw [hk, hfree]
            exact iff_of_false (fun hij => hj (Option.some.inj hij).symm) (by simp)
          · exact Iff.rfl
      · exact h
    · rename_i l as heq
      rw [heq] at horderly
      have howned := (hheld l).mp horderly.1
      refine h.of_update (fun k => ?_) horderly.2 fun j hj k => ?_
      · rw [Function.update_apply, List.mem_filter, hheld, decide_eq_true_eq]
        split
        · rename_i hk
          exact iff_of_false (fun hall => hall.2 hk) (by simp)
        · rename_i hk
          exact and_iff_left hk
      · rw [Function.update_apply]
        split
        · rename_i hk
          rw [hk, howned]
          exact iff_of_false (by simp) fun hij => hj (Option.some.inj hij).symm
        · exact Iff.rfl
    · rename_i x as heq
      rw [heq] at horderly
      exact h.of_update hheld horderly.2 fun _ _ _ => Iff.rfl

omit [DecidableEq ι] in
/-- A thread in no call holds nothing. -/
theorem Disciplined.idle (h : Disciplined before guard s) {i : ι} (hidle : s.todo i = []) (l : L) :
    s.owner l ≠ some i := by
  obtain ⟨held, hheld, hdone⟩ := h i
  rw [hidle] at hdone
  have hnone : held = [] := hdone
  rw [hnone] at hheld
  intro howned
  exact List.not_mem_nil ((hheld l).mpr howned)

/-- What is left to do, over all threads. -/
def remaining [Fintype ι] (s : Threads ι L V) : Nat := ∑ i, (s.todo i).length

end Semantics

end Base.LockOrder
