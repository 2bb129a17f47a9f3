import Mathlib.Data.Finset.Option
import Mathlib.Data.Fintype.Sets
import Mathlib.Order.SetNotation
import TcpChat.Base.Groups

/-!
# A chat service

Users are online under a name, each in at most one room. A room is open as long as somebody is
in it; there is a bound on the number of open rooms and one on the size of a room. A step gives
the next state and, for every user, what the user is told.
-/

namespace Base

set_option autoImplicit false

universe u v w

structure Chat (U : Type u) (K : Type v) (T : Type w) where
  name : U → Option T
  room : U → Option K
  title : K → T
  online : ∀ u, (room u).isSome = true → (name u).isSome = true

/-- Why a request is turned down. -/
inductive Refusal where
  | badTitle
  | badKey
  | emptyName
  | unknown
  | noSpace
  | noRoom
  | leaveOutside
  | usersOutside
  | postOutside
  | sayOutside
  deriving DecidableEq

/-- What a user is told. Lists carry what they list: the open rooms with their titles and sizes,
the names of some users. -/
inductive Notice (U : Type u) (K : Type v) (T : Type w) where
  | welcome
  | refused (why : Refusal)
  | created (k : K) (title : T)
  | joined (k : K) (title : T)
  | left
  | help
  | rooms (keys : Finset K) (title : K → T) (size : K → Nat)
  | users (title : T) (names : U → Option T)
  | online (names : U → Option T)
  | entered (name : T)
  | gone (name : T)
  | renamed (old new : T)
  | bye (name : T)
  | line (name text : T)
  | frame (text : T)

/-- `publish` goes to the sender's room, or to everybody else when the sender is in none. The key
of a new room comes from outside. -/
inductive ChatRequest (K : Type v) (T : Type w) where
  | create (k : K) (title : T)
  | join (k : K)
  | leave
  | rename (name : T)
  | say (text : T)
  | post (text : T)
  | publish (text : T)
  | rooms
  | users
  | help
  | reject (why : Refusal)
  | ignore

/-- Whoever has arrived may introduce himself under another name before anybody is told of it. -/
inductive ChatAction (U : Type u) (K : Type v) (T : Type w) where
  | arrive (u : U) (name : T)
  | introduce (u : U) (name : T)
  | greet (u : U)
  | depart (u : U)
  | request (u : U) (r : ChatRequest K T)

namespace Groups

variable {K : Type u} {M : Type v} {N : Type w}

/-- The same groups with other names for the members. -/
def map (f : M ↪ N) (g : Groups K M) : Groups K N where
  keys := g.keys
  members := fun k => (g.members k).map f
  mem_keys := by
    intro k
    rw [g.mem_keys, Finset.map_nonempty]

@[simp] theorem keys_map (f : M ↪ N) (g : Groups K M) : (g.map f).keys = g.keys := rfl

@[simp] theorem members_map (f : M ↪ N) (g : Groups K M) (k : K) :
    (g.map f).members k = (g.members k).map f := rfl

theorem map_empty (f : M ↪ N) : (empty : Groups K M).map f = empty := rfl

theorem set_map [DecidableEq K] [DecidableEq M] [DecidableEq N] (f : M ↪ N) (g : Groups K M)
    (k : K) (ms : Finset M) : (g.map f).set k (ms.map f) = (g.set k ms).map f := by
  ext1
  · simp only [set, keys_map, Finset.map_eq_empty]
  · funext l
    rw [members_set, members_map, members_map, members_set]
    split <;> rfl

end Groups

namespace Chat

variable {U : Type u} {K : Type v} {T : Type w}

/-- Nobody is online. -/
def closed (blank : T) : Chat U K T where
  name := fun _ => none
  room := fun _ => none
  title := fun _ => blank
  online := fun _ h => absurd h Bool.false_ne_true

section Users
variable [DecidableEq U] (a : Chat U K T) (u : U)

def arrive (name : T) : Chat U K T where
  name := Function.update a.name u (some name)
  room := Function.update a.room u none
  title := a.title
  online := by
    intro v hv
    by_cases hvu : v = u
    · rw [hvu, Function.update_self] at hv
      cases hv
    · rw [Function.update_of_ne hvu] at hv ⊢
      exact a.online v hv

def depart : Chat U K T where
  name := Function.update a.name u none
  room := Function.update a.room u none
  title := a.title
  online := by
    intro v hv
    by_cases hvu : v = u
    · rw [hvu, Function.update_self] at hv
      cases hv
    · rw [Function.update_of_ne hvu] at hv ⊢
      exact a.online v hv

def leave : Chat U K T where
  name := a.name
  room := Function.update a.room u none
  title := a.title
  online := by
    intro v hv
    by_cases hvu : v = u
    · rw [hvu, Function.update_self] at hv
      cases hv
    · rw [Function.update_of_ne hvu] at hv
      exact a.online v hv

/-- Whoever is not online enters no room. -/
def enter (k : K) : Chat U K T where
  name := a.name
  room := Function.update a.room u (if (a.name u).isSome then some k else none)
  title := a.title
  online := by
    intro v hv
    by_cases hvu : v = u
    · rw [hvu, Function.update_self] at hv
      split at hv
      · rwa [hvu]
      · cases hv
    · rw [Function.update_of_ne hvu] at hv
      exact a.online v hv

def rename (name : T) : Chat U K T where
  name := Function.update a.name u (some name)
  room := a.room
  title := a.title
  online := by
    intro v hv
    by_cases hvu : v = u
    · rw [hvu, Function.update_self]
      rfl
    · rw [Function.update_of_ne hvu]
      exact a.online v hv

end Users

def entitle [DecidableEq K] (a : Chat U K T) (k : K) (title : T) : Chat U K T where
  name := a.name
  room := a.room
  title := Function.update a.title k title
  online := a.online

section Rooms
variable [Fintype U] [DecidableEq K] (a : Chat U K T)

def members (k : K) : Finset U := Finset.univ.filter fun u => a.room u = some k

def openRooms : Finset K := Finset.univ.biUnion fun u => (a.room u).toFinset

theorem mem_members_iff {k : K} {u : U} : u ∈ a.members k ↔ a.room u = some k := by
  simp [members]

theorem mem_openRooms_iff {k : K} : k ∈ a.openRooms ↔ ∃ u, a.room u = some k := by
  simp [openRooms]

/-- The open rooms with those who are in them. -/
def groups : Groups K U where
  keys := a.openRooms
  members := a.members
  mem_keys := by
    intro k
    rw [mem_openRooms_iff]
    exact exists_congr fun u => (a.mem_members_iff).symm

@[simp] theorem keys_groups : a.groups.keys = a.openRooms := rfl

@[simp] theorem members_groups (k : K) : a.groups.members k = a.members k := rfl

theorem groups_closed (blank : T) : (closed blank : Chat U K T).groups = .empty := by
  ext1
  · rw [keys_groups, Groups.keys_empty, Finset.eq_empty_iff_forall_notMem]
    intro k hk
    obtain ⟨u, hu⟩ := (mem_openRooms_iff _).mp hk
    cases hu
  · funext k
    rw [members_groups, Groups.members_empty, Finset.eq_empty_iff_forall_notMem]
    intro u hu
    cases (mem_members_iff _).mp hu

end Rooms

section Service
variable [DecidableEq U] [DecidableEq K] (a : Chat U K T) (u : U)

def nobody : U → List (Notice U K T) := fun _ => []

def only (x : Notice U K T) : U → List (Notice U K T) := fun v => if v = u then [x] else []

def toPeers (k : K) (x : Notice U K T) : U → List (Notice U K T) :=
  fun v => if v ≠ u ∧ a.room v = some k then [x] else []

def toOthers (x : Notice U K T) : U → List (Notice U K T) :=
  fun v => if v ≠ u ∧ (a.name v).isSome = true then [x] else []

def toAll (xs : List (Notice U K T)) : U → List (Notice U K T) :=
  fun v => if (a.name v).isSome = true then xs else []

variable [Fintype U]

/-- What user `u`, online under `name`, gets for a request. A user who moves to another room has
left the old one, which makes space for the new one. -/
def serve (limit size : Nat) (name : T) :
    ChatRequest K T → Chat U K T × (U → List (Notice U K T))
  | .create k title =>
    if (a.leave u).openRooms.card < limit then
      (((a.leave u).enter u k).entitle k title, only u (.created k title))
    else (a, only u (.refused .noSpace))
  | .join k =>
    if k ∈ (a.leave u).openRooms ∧ ((a.leave u).members k).card < size then
      ((a.leave u).enter u k,
        fun v => only u (.joined k (a.title k)) v ++ a.toPeers u k (.entered name) v)
    else (a, only u (.refused .noRoom))
  | .leave =>
    match a.room u with
    | none => (a, only u (.refused .leaveOutside))
    | some k => (a.leave u, fun v => a.toPeers u k (.gone name) v ++ only u .left v)
  | .rename new =>
    (a.rename u new,
      (a.rename u new).toAll [.renamed name new, .online (a.rename u new).name])
  | .say text =>
    match a.room u with
    | none => (a, only u (.refused .sayOutside))
    | some k => (a, a.toPeers u k (.line name text))
  | .post text =>
    match a.room u with
    | none => (a, only u (.refused .postOutside))
    | some k => (a, a.toPeers u k (.frame text))
  | .publish text =>
    match a.room u with
    | none => (a, a.toOthers u (.frame text))
    | some k => (a, a.toPeers u k (.frame text))
  | .rooms => (a, only u (.rooms a.openRooms a.title fun k => (a.members k).card))
  | .users =>
    match a.room u with
    | none => (a, only u (.refused .usersOutside))
    | some k => (a, only u (.users (a.title k) fun v => if a.room v = some k then a.name v else none))
  | .help => (a, only u .help)
  | .reject why => (a, only u (.refused why))
  | .ignore => (a, nobody)

def step (limit size : Nat) : ChatAction U K T → Chat U K T × (U → List (Notice U K T))
  | .arrive u name =>
    if (a.name u).isSome = true then (a, nobody) else (a.arrive u name, nobody)
  | .introduce u name =>
    if (a.name u).isSome = true then (a.rename u name, nobody) else (a, nobody)
  | .greet u => if (a.name u).isSome = true then (a, only u .welcome) else (a, nobody)
  | .depart u =>
    match a.name u with
    | none => (a, nobody)
    | some name => (a.depart u, a.toOthers u (.bye name))
  | .request u r =>
    match a.name u with
    | none => (a, nobody)
    | some name => a.serve u limit size name r

/-- The actions one after the other, and all that everybody is told. -/
def steps (limit size : Nat) (a : Chat U K T) :
    List (ChatAction U K T) → Chat U K T × (U → List (Notice U K T))
  | [] => (a, nobody)
  | act :: acts =>
    ((steps limit size (a.step limit size act).1 acts).1,
      fun v => (a.step limit size act).2 v ++ (steps limit size (a.step limit size act).1 acts).2 v)

theorem steps_singleton (limit size : Nat) (act : ChatAction U K T) :
    a.steps limit size [act] = a.step limit size act := by
  simp only [steps, nobody, List.append_nil]

end Service

section Moves
variable [DecidableEq U] {a : Chat U K T} {u : U} {k : K}

theorem leave_of_outside (h : a.room u = none) : a.leave u = a := by
  cases a
  simp only [leave, mk.injEq, true_and, and_true]
  rw [← h, Function.update_eq_self]

theorem room_arrive (h : a.name u = none) (name : T) : (a.arrive u name).room = a.room := by
  have hroom : a.room u = none := by
    by_contra hin
    have honline := a.online u (Option.isSome_iff_ne_none.mpr hin)
    rw [h] at honline
    cases honline
  simp only [arrive, ← hroom, Function.update_eq_self]

theorem room_depart (h : a.room u = none) : (a.depart u).room = a.room := by
  simp only [depart, ← h, Function.update_eq_self]

variable [Fintype U] [DecidableEq K]

omit [DecidableEq U] in
/-- The groups depend on who is where only. -/
theorem groups_congr {b : Chat U K T} (h : b.room = a.room) : b.groups = a.groups := by
  have hmembers : b.members = a.members := by
    funext l
    rw [members, members, h]
  ext1
  · rw [keys_groups, keys_groups, openRooms, openRooms, h]
  · exact hmembers

/-- One group changes. -/
theorem groups_eq_set {b : Chat U K T} {ms : Finset U} (hk : b.members k = ms)
    (hother : ∀ l, l ≠ k → b.members l = a.members l) : b.groups = a.groups.set k ms := by
  have hmembers : b.members = (a.groups.set k ms).members := by
    funext l
    rw [Groups.members_set]
    split
    · rename_i hl
      rw [hl, hk]
    · rename_i hl
      exact hother l hl
  ext1
  · ext l
    rw [Groups.mem_keys, Groups.mem_keys, ← hmembers]
    rfl
  · exact hmembers

theorem members_leave (k : K) : (a.leave u).members k = (a.members k).erase u := by
  ext v
  by_cases hvu : v = u <;> simp [mem_members_iff, leave, hvu]

/-- A user that leaves is taken out of the group of its room. -/
theorem groups_leave (h : a.room u = some k) :
    (a.leave u).groups = a.groups.set k ((a.members k).erase u) := by
  apply groups_eq_set (members_leave k)
  intro l hl
  have hout : u ∉ a.members l := by
    rw [mem_members_iff, h]
    exact fun heq => hl (Option.some.inj heq).symm
  rw [members_leave, Finset.erase_eq_of_notMem hout]

/-- A user that is online and in no room joins the group it enters. -/
theorem groups_enter (hname : (a.name u).isSome = true) (hroom : a.room u = none) :
    (a.enter u k).groups = a.groups.set k (insert u (a.members k)) := by
  apply groups_eq_set
  · ext v
    by_cases hvu : v = u <;> simp [mem_members_iff, enter, hname, hvu]
  · intro l hl
    ext v
    by_cases hvu : v = u
    · simp [mem_members_iff, enter, hname, hvu, hroom, hl.symm]
    · simp [mem_members_iff, enter, hvu]

end Moves

end Chat

end Base
