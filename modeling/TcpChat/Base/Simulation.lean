import TcpChat.Base.Runs

/-!
# Simulation between machines that reply

A step gives the next state and a reply. One machine simulates another along `label` when
related states stay related and give equal replies. Where what the other machine does depends on
the state as well, the two run side by side.
-/

namespace Base.Simulation

open Base.Runs
set_option autoImplicit false

universe u v w x y
variable {State : Type u} {Label : Type v} {Reply : Type w} {State' : Type x} {Label' : Type y}

/-- The replies to the labels of `ls`, in order. -/
def replies (step : State → Label → State × Reply) : State → List Label → List Reply
  | _, [] => []
  | s, l :: ls => (step s l).2 :: replies step (step s l).1 ls

variable {step : State → Label → State × Reply} {step' : State' → Label' → State' × Reply}
  {label : Label → Label'} {R : State → State' → Prop} {C : State → Label → Prop}

/-- The simulation rule: along a run whose steps meet `C` the states stay related and the
replies are the same. -/
theorem simulates
    (hstep : ∀ s t l, R s t → C s l →
      R (step s l).1 (step' t (label l)).1 ∧ (step s l).2 = (step' t (label l)).2)
    {ls : List Label} {s : State} {t : State'} (hR : R s t)
    (h : EachStep (fun s l => (step s l).1) C s ls) :
    R (run (fun s l => (step s l).1) s ls)
        (run (fun t l => (step' t l).1) t (ls.map label)) ∧
      replies step s ls = replies step' t (ls.map label) := by
  induction ls generalizing s t with
  | nil => exact ⟨hR, rfl⟩
  | cons l ls ih =>
    obtain ⟨hl, hls⟩ := eachStep_cons.mp h
    obtain ⟨hnext, hreply⟩ := hstep s t l hR hl
    obtain ⟨hend, hrest⟩ := ih hnext hls
    refine ⟨hend, ?_⟩
    rw [List.map_cons, replies, replies, hreply, hrest]

section Abreast
variable {next : State → Label → State} {next' : State' → Label' → State'}
  {act : State → Label → Option Label'} {D : State × State' → Label → Prop}

/-- Two machines side by side: the second one does what `act` reads off the first, if anything. -/
def abreast (next : State → Label → State) (act : State → Label → Option Label')
    (next' : State' → Label' → State') (p : State × State') (l : Label) : State × State' :=
  (next p.1 l, (act p.1 l).elim p.2 (next' p.2))

theorem run_abreast_fst (s : State) (t : State') (ls : List Label) :
    (run (abreast next act next') (s, t) ls).1 = run next s ls := by
  induction ls generalizing s t with
  | nil => rfl
  | cons l ls ih => exact ih _ _

/-- The refinement rule: along a run whose steps meet `C` the two machines stay related, and
every pair of steps does what `D` says. -/
theorem refines_abreast
    (hstep : ∀ s t l, R s t → C s l →
      R (next s l) ((act s l).elim t (next' t)) ∧ D (s, t) l)
    {ls : List Label} {s : State} {t : State'} (hR : R s t) (h : EachStep next C s ls) :
    Always (abreast next act next') (fun p => R p.1 p.2) (s, t) ls ∧
      EachStep (abreast next act next') D (s, t) ls := by
  have hC : EachStep (abreast next act next') (fun p l => C p.1 l) (s, t) ls := by
    intro pre l hpre
    rw [run_abreast_fst]
    exact h pre l hpre
  have hR' : Always (abreast next act next') (fun p => R p.1 p.2) (s, t) ls :=
    always_of_eachStep (fun p l hp hl => (hstep p.1 p.2 l hp hl).1) hR hC
  refine ⟨hR', fun pre l hpre => ?_⟩
  have hp := hR' pre ((List.prefix_append pre [l]).trans hpre)
  exact (hstep _ _ l hp (hC pre l hpre)).2

end Abreast

end Base.Simulation
