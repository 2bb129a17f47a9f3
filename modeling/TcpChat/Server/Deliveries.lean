import TcpChat.Server.Descriptors
import TcpChat.Base.Chat

/-!
# Who hears what

The texts that are sent on the descriptor of a session, in order. `Reaches` compares them with
what everybody should be told.
-/

namespace TcpChat.Server

open Base
set_option autoImplicit false

/-- What everybody is told. -/
abbrev Told := Slot → List (Notice Slot CString CString)

/-- The texts sent on a descriptor. -/
def heard (fd : Int) (es : List Event) : List CString :=
  es.filterMap fun
    | .send fd' (.text text) _ => if fd' = fd then some text else none
    | _ => none

/-- Every active session hears its notices, in that wording, and nothing else is sent. -/
structure Reaches (wording : Notice Slot CString CString → CString → Prop) (s : State)
    (es : List Event) (told : Told) : Prop where
  hears : ∀ d, (s.session d).active = true →
    List.Forall₂ wording (told d) (heard (s.session d).socketFd es)
  nobody_else : ∀ fd payload ok, .send fd payload ok ∈ es →
    ∃ d, (s.session d).active = true ∧ fd = (s.session d).socketFd

section Reaches
variable {wording : Notice Slot CString CString → CString → Prop} {s s' : State}
  {es es' : List Event} {told told' : Told}

@[simp] theorem heard_nil (fd : Int) : heard fd [] = [] := rfl

theorem heard_cons_text (fd fd' : Int) (text : CString) (ok : Bool) (es : List Event) :
    heard fd (.send fd' (.text text) ok :: es) =
      if fd' = fd then text :: heard fd es else heard fd es := by
  by_cases h : fd' = fd <;> simp [heard, h]

theorem heard_append (fd : Int) (es es' : List Event) :
    heard fd (es ++ es') = heard fd es ++ heard fd es' := List.filterMap_append

theorem Reaches.nobody (hes : ∀ fd payload ok, .send fd payload ok ∉ es) :
    Reaches wording s es Chat.nobody := by
  refine ⟨fun d _ => ?_, fun fd payload ok he => absurd he (hes fd payload ok)⟩
  have hnone : heard (s.session d).socketFd es = [] := by
    apply List.filterMap_eq_nil_iff.mpr
    intro e he
    cases e with
    | send fd payload ok => exact absurd he (hes fd payload ok)
    | accept | close => rfl
  rw [hnone]
  exact List.Forall₂.nil

theorem Reaches.append (h : Reaches wording s es told) (h' : Reaches wording s es' told') :
    Reaches wording s (es ++ es') fun d => told d ++ told' d := by
  refine ⟨fun d hd => ?_, fun fd payload ok he => ?_⟩
  · rw [heard_append]
    exact List.rel_append (h.hears d hd) (h'.hears d hd)
  · rcases List.mem_append.mp he with he | he
    · exact h.nobody_else fd payload ok he
    · exact h'.nobody_else fd payload ok he

/-- Only the active sessions and their descriptors matter. -/
theorem Reaches.congr (h : Reaches wording s' es told)
    (hsame : ∀ d, (s'.session d).active = (s.session d).active ∧
      (s'.session d).socketFd = (s.session d).socketFd) : Reaches wording s es told := by
  refine ⟨fun d hd => ?_, fun fd payload ok he => ?_⟩
  · rw [← (hsame d).2]
    exact h.hears d ((hsame d).1.trans hd)
  · obtain ⟨d, hd, hfd⟩ := h.nobody_else fd payload ok he
    exact ⟨d, (hsame d).1.symm.trans hd, hfd.trans (hsame d).2⟩

/-- A session hears a broadcast as often as it is a target. -/
theorem heard_textTo (hfds : FdsDistinct s) (fails : Slot → Bool) (text : CString)
    {targets : List Slot} (htargets : ∀ d ∈ targets, (s.session d).active = true) {d : Slot}
    (hd : (s.session d).active = true) :
    heard (s.session d).socketFd (textTo fails s text targets) =
      List.replicate (targets.count d) text := by
  induction targets with
  | nil => rfl
  | cons c targets ih =>
    have hsame : (s.session c).socketFd = (s.session d).socketFd ↔ c = d := by
      constructor
      · exact hfds c d (htargets c List.mem_cons_self) hd
      · rintro rfl
        rfl
    have hrest := ih fun e he => htargets e (List.mem_cons_of_mem c he)
    rw [textTo] at hrest ⊢
    rw [List.map_cons, heard_cons_text, hrest, List.count_cons]
    by_cases hcd : c = d
    · rw [if_pos (hsame.mpr hcd), if_pos (beq_iff_eq.mpr hcd), List.replicate_succ]
    · rw [if_neg fun h => hcd (hsame.mp h), if_neg fun h => hcd (beq_iff_eq.mp h), Nat.add_zero]

/-- A text that is broadcast reaches its targets as one notice. -/
theorem reaches_textTo (hfds : FdsDistinct s) (fails : Slot → Bool) {text : CString}
    {x : Notice Slot CString CString} (hx : wording x text) {targets : List Slot}
    (hnodup : targets.Nodup) (htargets : ∀ d ∈ targets, (s.session d).active = true)
    (hin : ∀ d, d ∈ targets → told d = [x]) (hout : ∀ d, d ∉ targets → told d = []) :
    Reaches wording s (textTo fails s text targets) told := by
  refine ⟨fun d hd => ?_, fun fd payload ok he => ?_⟩
  · rw [heard_textTo hfds fails text htargets hd]
    by_cases hmem : d ∈ targets
    · rw [hin d hmem, List.count_eq_one_of_mem hnodup hmem]
      exact List.Forall₂.cons hx List.Forall₂.nil
    · rw [hout d hmem, List.count_eq_zero.mpr hmem]
      exact List.Forall₂.nil
  · obtain ⟨d, hd, heq⟩ := List.mem_map.mp he
    cases heq
    exact ⟨d, htargets d hd, rfl⟩

/-- A reply reaches the one it is for. -/
theorem reaches_reply (hfds : FdsDistinct s) (fails : Slot → Bool) {c : Slot}
    (hc : (s.session c).active = true) {text : CString} {x : Notice Slot CString CString}
    (hx : wording x text) :
    Reaches wording s [.send (s.session c).socketFd (.text text) (!fails c)] (Chat.only c x) := by
  refine @reaches_textTo _ _ (Chat.only c x) hfds fails _ _ hx [c] (List.nodup_singleton c) ?_ ?_ ?_
  · intro d hd
    rw [List.mem_singleton.mp hd]
    exact hc
  · intro d hd
    exact if_pos (List.mem_singleton.mp hd)
  · intro d hd
    exact if_neg fun heq => hd (List.mem_singleton.mpr heq)

end Reaches

end TcpChat.Server
