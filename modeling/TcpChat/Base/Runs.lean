import Mathlib.Data.List.Infix

/-!
# Runs of a total step function

`step s l` is the state after the step labelled `l`. A label that is not enabled in `s` is
taken to leave `s` as it is, so every list of labels is a run. `Always` speaks about the
states a run passes through, `EachStep` about the steps it takes.
-/

namespace Base.Runs

set_option autoImplicit false

universe u v
variable {State : Type u} {Label : Type v} (step : State → Label → State)

/-- The state after the labels of `ls`, in order. -/
def run (s : State) (ls : List Label) : State := ls.foldl step s

@[simp] theorem run_nil (s : State) : run step s [] = s := rfl

@[simp] theorem run_cons (s : State) (l : Label) (ls : List Label) :
    run step s (l :: ls) = run step (step s l) ls := rfl

@[simp] theorem run_append (s : State) (ks ls : List Label) :
    run step s (ks ++ ls) = run step (run step s ks) ls := List.foldl_append

/-- `P` holds in every state of the run, both ends included. -/
def Always (P : State → Prop) (s : State) (ls : List Label) : Prop :=
  ∀ pre, pre.IsPrefix ls → P (run step s pre)

/-- `C` holds of every step of the run: of the state it starts in and of its label. -/
def EachStep (C : State → Label → Prop) (s : State) (ls : List Label) : Prop :=
  ∀ pre l, (pre ++ [l]).IsPrefix ls → C (run step s pre) l

variable {step} {P I : State → Prop} {C H : State → Label → Prop} {s : State}

@[simp] theorem always_nil : Always step P s [] ↔ P s := by
  constructor
  · intro h
    exact h [] (List.prefix_refl [])
  · intro h pre hpre
    rw [List.prefix_nil.mp hpre]
    exact h

@[simp] theorem eachStep_nil : EachStep step C s [] := by
  intro pre l hpre
  simp at hpre

theorem always_cons {l : Label} {ls : List Label} :
    Always step P s (l :: ls) ↔ P s ∧ Always step P (step s l) ls := by
  constructor
  · intro h
    refine ⟨h [] (List.nil_prefix), fun pre hpre => ?_⟩
    exact h (l :: pre) (List.cons_prefix_cons.mpr ⟨rfl, hpre⟩)
  · intro hall pre hpre
    obtain ⟨hs, ht⟩ := hall
    cases pre with
    | nil => exact hs
    | cons k ks =>
      obtain ⟨rfl, hks⟩ := List.cons_prefix_cons.mp hpre
      exact ht ks hks

theorem eachStep_cons {l : Label} {ls : List Label} :
    EachStep step C s (l :: ls) ↔ C s l ∧ EachStep step C (step s l) ls := by
  constructor
  · intro h
    refine ⟨h [] l (by simp), fun pre k hpre => ?_⟩
    exact h (l :: pre) k (List.cons_prefix_cons.mpr ⟨rfl, hpre⟩)
  · intro hall pre k hpre
    obtain ⟨hs, ht⟩ := hall
    cases pre with
    | nil =>
      obtain ⟨rfl, _⟩ := List.cons_prefix_cons.mp hpre
      exact hs
    | cons m ms =>
      obtain ⟨rfl, hms⟩ := List.cons_prefix_cons.mp hpre
      exact ht ms k hms

theorem eachStep_append {ks ls : List Label} :
    EachStep step C s (ks ++ ls) ↔ EachStep step C s ks ∧ EachStep step C (run step s ks) ls := by
  induction ks generalizing s with
  | nil => simp
  | cons k ks ih => rw [List.cons_append, eachStep_cons, eachStep_cons, ih, and_assoc, run_cons]

theorem Always.last {ls : List Label} (h : Always step P s ls) : P (run step s ls) :=
  h ls (List.prefix_refl ls)

theorem Always.imp {Q : State → Prop} {ls : List Label} (h : Always step P s ls)
    (hPQ : ∀ t, P t → Q t) : Always step Q s ls :=
  fun pre hpre => hPQ _ (h pre hpre)

theorem Always.and {Q : State → Prop} {ls : List Label} (h : Always step P s ls)
    (hQ : Always step Q s ls) : Always step (fun t => P t ∧ Q t) s ls :=
  fun pre hpre => ⟨h pre hpre, hQ pre hpre⟩

theorem EachStep.imp {D : State → Label → Prop} {ls : List Label} (h : EachStep step C s ls)
    (hCD : ∀ t l, C t l → D t l) : EachStep step D s ls :=
  fun pre l hpre => hCD _ l (h pre l hpre)

theorem EachStep.and {D : State → Label → Prop} {ls : List Label} (h : EachStep step C s ls)
    (hD : EachStep step D s ls) : EachStep step (fun t l => C t l ∧ D t l) s ls :=
  fun pre l hpre => ⟨h pre l hpre, hD pre l hpre⟩

/-- A condition on the labels alone. -/
theorem eachStep_of_mem {L : Label → Prop} {ls : List Label} (h : ∀ l ∈ ls, L l) :
    EachStep step (fun _ l => L l) s ls :=
  fun pre l hpre => h l (hpre.subset (List.mem_append_right pre (List.mem_singleton_self l)))

/-- The invariant rule: what holds at the start and is kept by every step that meets `C`
holds throughout a run whose steps meet `C`. -/
theorem always_of_eachStep (hstep : ∀ t l, P t → C t l → P (step t l)) {ls : List Label}
    (hs : P s) (h : EachStep step C s ls) : Always step P s ls := by
  induction ls generalizing s with
  | nil => exact always_nil.mpr hs
  | cons l ls ih =>
    obtain ⟨hl, hls⟩ := eachStep_cons.mp h
    exact always_cons.mpr ⟨hs, ih (hstep s l hs hl) hls⟩

theorem always_of_invariant (hstep : ∀ t l, P t → P (step t l)) (hs : P s) (ls : List Label) :
    Always step P s ls :=
  always_of_eachStep (C := fun _ _ => True) (fun t l ht _ => hstep t l ht) hs
    (fun _ _ _ => trivial)

/-- The exact rule. `I` is kept by the steps that meet `H`, and under `I` and `H` a step out
of a `P` state ends in a `P` state exactly when it meets `C`. -/
theorem always_iff_eachStep (hI : ∀ t l, I t → P t → H t l → C t l → I (step t l))
    (hP : ∀ t l, I t → P t → H t l → (P (step t l) ↔ C t l)) {ls : List Label}
    (hIs : I s) (hPs : P s) (h : EachStep step H s ls) :
    Always step P s ls ↔ EachStep step C s ls := by
  induction ls generalizing s with
  | nil => simp [hPs]
  | cons l ls ih =>
    obtain ⟨hl, hls⟩ := eachStep_cons.mp h
    have hiff := hP s l hIs hPs hl
    rw [always_cons, eachStep_cons]
    constructor
    · intro hall
      obtain ⟨_, ht⟩ := hall
      have hPt : P (step s l) := ht [] List.nil_prefix
      have hC := hiff.mp hPt
      exact ⟨hC, (ih (hI s l hIs hPs hl hC) hPt hls).mp ht⟩
    · intro hall
      obtain ⟨hC, ht⟩ := hall
      exact ⟨hPs, (ih (hI s l hIs hPs hl hC) (hiff.mpr hC) hls).mpr ht⟩

/-- The exact rule for two properties of steps: under `I` and `H` they say the same, and what
meets the second keeps `I`. -/
theorem eachStep_iff_eachStep {D : State → Label → Prop}
    (hI : ∀ t l, I t → H t l → C t l → I (step t l))
    (hD : ∀ t l, I t → H t l → (D t l ↔ C t l)) {ls : List Label}
    (hIs : I s) (h : EachStep step H s ls) : EachStep step D s ls ↔ EachStep step C s ls := by
  induction ls generalizing s with
  | nil => exact iff_of_true eachStep_nil eachStep_nil
  | cons l ls ih =>
    obtain ⟨hl, hls⟩ := eachStep_cons.mp h
    rw [eachStep_cons, eachStep_cons, hD s l hIs hl]
    apply and_congr_right
    intro hC
    exact ih (hI s l hIs hl hC) hls

end Base.Runs
