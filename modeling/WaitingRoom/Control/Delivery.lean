import WaitingRoom.Control.Config
import WaitingRoom.Queue.State

/-!
# The signed desired state

A delivery is a published configuration with one runtime for each of its rooms.
Events move the mode of a room at planned times. Times of the database are in
microseconds, times of a request in nanoseconds.
-/

namespace WaitingRoom.Control

set_option autoImplicit false

open Queue (RoomMode)

/-- The state of an event, and the state of the events of a room. -/
inductive EventState
  | none | scheduled | running | pausedByOverride | cancelled | completed
deriving DecidableEq, Repr

structure Runtime where
  revision : ℤ
  mode : RoomMode
  limits : Limits
  epoch : Nat
  eventState : EventState
  recoveryUntil : ℤ := 0
deriving DecidableEq

structure RoomRuntime where
  roomId : String
  runtime : Runtime
deriving DecidableEq

structure Delivery where
  config : Config
  runtimes : List RoomRuntime
deriving DecidableEq

def Runtime.Valid (r : Runtime) (profile : String) : Prop :=
  (0 ≤ r.recoveryUntil ∧ r.recoveryUntil < maxInteger) ∧
    (1 ≤ r.revision ∧ r.revision < maxInteger) ∧ (1 ≤ r.epoch ∧ (r.epoch : ℤ) < maxInteger) ∧
    r.limits.Valid profile ∧ r.eventState ≠ .cancelled ∧ r.eventState ≠ .completed
  deriving Decidable

def Aligned (profile : String) (r : Room) (v : RoomRuntime) : Prop :=
  v.roomId = r.id ∧ v.runtime.Valid profile ∧ (r.active = false → v.runtime.mode = .off)

instance (profile : String) : DecidableRel (Aligned profile) := fun _ _ =>
  inferInstanceAs (Decidable (_ ∧ _ ∧ (_ → _)))

/-- `Delivery.Validate`. -/
def Delivery.Valid (x : Library) (d : Delivery) : Prop :=
  d.config.Valid x ∧ List.Forall₂ (Aligned d.config.profile) d.config.rooms d.runtimes
  deriving Decidable

def Delivery.rows (d : Delivery) : List (Room × RoomRuntime) := d.config.rooms.zip d.runtimes

/-- `Delivery.Find`. -/
def Delivery.find (d : Delivery) (id : String) : Option (Room × Runtime) :=
  match d.rows.find? fun p => p.1.id == id with
  | .none => .none
  | some p => some (p.1, p.2.runtime)

def initialRuntime (room : Room) : Runtime where
  revision := 1
  mode := if room.active then .hold else .off
  limits := room.limits
  epoch := 1
  eventState := .none

def Runtime.etag (r : Runtime) : String := "\"runtime-" ++ toString r.revision ++ "\""

def configETag (revision : ℤ) : String := "\"config-" ++ toString revision ++ "\""

structure EventInput where
  prequeueAt : ℤ
  admitAt : ℤ
  drainAt : ℤ
deriving DecidableEq

/-- A row of `control_events`, with its times in microseconds. -/
structure Event where
  id : String
  roomId : String
  prequeueAt : ℤ
  admitAt : ℤ
  drainAt : ℤ
  state : EventState
deriving DecidableEq

def Event.Open (e : Event) : Prop := e.state ≠ .cancelled ∧ e.state ≠ .completed
  deriving Decidable

/-- `EventInput.Validate`. -/
def EventInput.Valid (e : EventInput) (now : ℤ) : Prop :=
  now * 1000 ≤ e.prequeueAt ∧ e.prequeueAt < e.admitAt ∧ e.admitAt < e.drainAt ∧
    e.drainAt ≤ (now + 366 * 24 * 3600000000) * 1000
  deriving Decidable

def Event.Overlaps (e : Event) (other : EventInput) : Prop :=
  e.Open ∧ e.prequeueAt * 1000 < other.drainAt ∧ other.prequeueAt < e.drainAt * 1000
  deriving Decidable

/-- `NextEventMode`. No mode is the empty one. -/
def nextEventMode (e : Event) (now : ℤ) : Option RoomMode × EventState :=
  if e.state = .pausedByOverride ∨ ¬ e.Open ∨ now < e.prequeueAt then (.none, e.state)
  else if e.drainAt ≤ now then (some .draining, .running)
  else if e.admitAt ≤ now then (some .auto, .running)
  else (some .hold, .running)

section Facts

variable {x : Library} {d : Delivery}

theorem Delivery.Valid.length (h : d.Valid x) : d.config.rooms.length = d.runtimes.length :=
  h.2.length_eq

theorem mem_zip_of_forall₂ {A B : Type} {R : A → B → Prop} {l : List A} {l' : List B}
    (h : List.Forall₂ R l l') {p : A × B} (hp : p ∈ l.zip l') : R p.1 p.2 := by
  induction h with
  | nil => simp at hp
  | cons hr _ ih =>
    rw [List.zip_cons_cons] at hp
    rcases List.mem_cons.mp hp with rfl | hp
    · exact hr
    · exact ih hp

theorem Delivery.Valid.aligned (h : d.Valid x) {p : Room × RoomRuntime} (hp : p ∈ d.rows) :
    Aligned d.config.profile p.1 p.2 := mem_zip_of_forall₂ h.2 hp

theorem Delivery.Valid.rows_map_fst (h : d.Valid x) : d.rows.map Prod.fst = d.config.rooms := by
  rw [Delivery.rows, List.map_fst_zip]
  exact h.length.le

theorem Delivery.Valid.rows_map_snd (h : d.Valid x) : d.rows.map Prod.snd = d.runtimes := by
  rw [Delivery.rows, List.map_snd_zip]
  exact h.length.ge

theorem Delivery.Valid.ids_nodup (h : d.Valid x) : (d.rows.map fun p => p.1.id).Nodup := by
  have hids := h.1.sound.ids
  rw [← h.rows_map_fst, List.map_map] at hids
  exact hids

theorem Delivery.Valid.rows_inj (h : d.Valid x) {p q : Room × RoomRuntime} (hp : p ∈ d.rows)
    (hq : q ∈ d.rows) (hid : p.1.id = q.1.id) : p = q :=
  List.inj_on_of_nodup_map h.ids_nodup hp hq hid

theorem Delivery.find_eq_some {id : String} {room : Room} {runtime : Runtime}
    (h : d.find id = some (room, runtime)) :
    room.id = id ∧ ∃ roomId, (room, ⟨roomId, runtime⟩) ∈ d.rows := by
  unfold Delivery.find at h
  split at h
  · cases h
  · rename_i p hp
    obtain ⟨rfl, rfl⟩ := Prod.mk.inj (Option.some.inj h)
    have hid := List.find?_some hp
    exact ⟨by simpa using hid, p.2.roomId, List.mem_of_find?_eq_some hp⟩

theorem Delivery.Valid.find_of_mem (h : d.Valid x) {p : Room × RoomRuntime} (hp : p ∈ d.rows) :
    d.find p.1.id = some (p.1, p.2.runtime) := by
  unfold Delivery.find
  cases hf : d.rows.find? fun q => q.1.id == p.1.id with
  | none => exact absurd (List.find?_eq_none.mp hf p hp) (by simp)
  | some q =>
    have hid : q.1.id = p.1.id := by simpa using List.find?_some hf
    rw [h.rows_inj (List.mem_of_find?_eq_some hf) hp hid]

end Facts

end WaitingRoom.Control
