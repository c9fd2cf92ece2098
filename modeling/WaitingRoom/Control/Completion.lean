import WaitingRoom.Control.Succession

/-!
# When events are completed

`Tick` completes the first open event of a room that has been drained. It looks at
the mode of the room and not at the stage of the event, so that an event which was
planned while the room was draining for another reason is completed before it has
begun. Where no change of events leaves a draining room with such an event, an event
is completed at its drain time or later.
-/

namespace WaitingRoom.Control

set_option autoImplicit false

open Doc
open Queue (RoomMode)

section Table

def Stored (events : Table String Event) : Prop :=
  ∀ id e, events.get id = some e → e.id = id ∧ e.state ≠ .none

variable {events events' : Table String Event} {room : String} {e e' : Event}

theorem mem_roomEvents :
    e ∈ roomEvents events room ↔ (∃ id, events.get id = some e) ∧ e.roomId = room := by
  rw [roomEvents, (List.perm_insertionSort _ _).mem_iff, List.mem_filter, List.mem_map, beq_iff_eq]
  constructor
  · intro ⟨⟨row, hrow, he⟩, hroom⟩
    subst he
    exact ⟨⟨row.1, Table.mem_rows.mp hrow⟩, hroom⟩
  · intro ⟨⟨id, hid⟩, hroom⟩
    exact ⟨⟨(id, e), Table.mem_rows.mpr hid, rfl⟩, hroom⟩

instance : IsTrans Event Event.Before := ⟨fun _ _ _ hab hbc => le_trans hab hbc⟩

instance : Std.Total Event.Before := ⟨fun a _ => le_total (toLex (a.prequeueAt, a.id)) _⟩

theorem roomEvents_pairwise (events : Table String Event) (room : String) :
    (roomEvents events room).Pairwise Event.Before :=
  List.pairwise_insertionSort _ _

theorem roomEvents_nodup (hs : Stored events) : (roomEvents events room).Nodup := by
  have hids : (events.rows.map Prod.snd).map Event.id = events.rows.map Prod.fst := by
    rw [List.map_map]
    exact List.map_congr_left fun row hrow => (hs row.1 row.2 (Table.mem_rows.mp hrow)).1
  have hn : (events.rows.map Prod.snd).Nodup :=
    List.Nodup.of_map Event.id (hids ▸ events.rows_keys_nodup)
  exact (List.perm_insertionSort _ _).nodup_iff.mpr (hn.filter _)

theorem roomEvents_congr (hs : Stored events) (hs' : Stored events')
    (h : ∀ id e, e.roomId = room → (events'.get id = some e ↔ events.get id = some e)) :
    roomEvents events' room = roomEvents events room := by
  have hmem : ∀ e, e ∈ roomEvents events' room ↔ e ∈ roomEvents events room := by
    intro e
    rw [mem_roomEvents, mem_roomEvents]
    constructor
    · intro ⟨⟨id, hid⟩, hroom⟩
      exact ⟨⟨id, (h id e hroom).mp hid⟩, hroom⟩
    · intro ⟨⟨id, hid⟩, hroom⟩
      exact ⟨⟨id, (h id e hroom).mpr hid⟩, hroom⟩
  have hperm : (roomEvents events' room).Perm (roomEvents events room) :=
    (List.perm_ext_iff_of_nodup (roomEvents_nodup hs') (roomEvents_nodup hs)).mpr hmem
  refine List.Perm.eq_of_pairwise (fun a b ha hb hab hba => ?_)
    (roomEvents_pairwise _ _) (roomEvents_pairwise _ _) hperm
  -- equal places in the order are equal ids, and these name one row
  have hid : a.id = b.id := congrArg (fun p => (ofLex p).2) (le_antisymm hab hba)
  obtain ⟨⟨i, hi⟩, _⟩ := mem_roomEvents.mp ((hmem a).mp ha)
  obtain ⟨⟨j, hj⟩, _⟩ := mem_roomEvents.mp hb
  obtain rfl := (hs i a hi).1
  obtain rfl := (hs j b hj).1
  rw [hid, hj] at hi
  exact (Option.some.inj hi).symm

/-- The event of a room that `Tick` looks at. -/
def firstOpen (events : Table String Event) (room : String) : Option Event :=
  (roomEvents events room).find? fun e => decide e.Open

theorem firstOpen_eq_some (h : firstOpen events room = some e) :
    e.Open ∧ e ∈ roomEvents events room := by
  unfold firstOpen at h
  have hopen := List.find?_some h
  exact ⟨of_decide_eq_true hopen, List.mem_of_find?_eq_some h⟩

theorem firstOpen_le (h : firstOpen events room = some e) (he' : e' ∈ roomEvents events room)
    (hopen : e'.Open) : e.prequeueAt ≤ e'.prequeueAt := by
  obtain ⟨_, before, after, hsplit, hbefore⟩ := List.find?_eq_some_iff_append.mp h
  have hsorted := roomEvents_pairwise events room
  rw [hsplit] at he' hsorted
  rcases List.mem_append.mp he' with hmem | hmem
  · have hclosed := hbefore e' hmem
    simp [hopen] at hclosed
  · rcases List.mem_cons.mp hmem with rfl | hmem
    · exact le_rfl
    · have hp := (List.pairwise_cons.mp (List.pairwise_append.mp hsorted).2.1).1 e' hmem
      rcases Prod.Lex.le_iff.mp hp with hlt | ⟨heq, _⟩
      · exact hlt.le
      · exact heq.le

theorem get_setEventState (events : Table String Event) (id id' : String) (state : EventState) :
    (setEventState events id state).get id' =
      if id' = id then (events.get id).map fun e => { e with state := state }
      else events.get id' := by
  unfold setEventState
  cases hid : events.get id with
  | none =>
    dsimp only
    split
    · rename_i heq
      rw [heq, hid]
      rfl
    · rfl
  | some e => exact Table.get_put ..

end Table

section Touch

/-- The rows stay, with new states; a completed one is past its drain time. -/
structure Touches (now : ℤ) (events events' : Table String Event) : Prop where
  stored : Stored events'
  row : ∀ id e, events.get id = some e → ∃ state, events'.get id = some { e with state := state } ∧
    (state = .completed → e.state = .completed ∨ e.drainAt ≤ now)

def OthersStay (room : String) (events events' : Table String Event) : Prop :=
  ∀ id e, e.roomId ≠ room → (events'.get id = some e ↔ events.get id = some e)

variable {now : ℤ} {events events₁ events₂ : Table String Event}

theorem Touches.refl (hs : Stored events) : Touches now events events :=
  ⟨hs, fun _ e he => ⟨e.state, he, .inl⟩⟩

theorem Touches.trans (h₁ : Touches now events events₁) (h₂ : Touches now events₁ events₂) :
    Touches now events events₂ := by
  refine ⟨h₂.stored, fun id e he => ?_⟩
  obtain ⟨state₁, hget₁, hdone₁⟩ := h₁.row id e he
  obtain ⟨state₂, hget₂, hdone₂⟩ := h₂.row id _ hget₁
  refine ⟨state₂, hget₂, fun hdone => ?_⟩
  rcases hdone₂ hdone with hdone | hdrain
  · exact hdone₁ hdone
  · exact .inr hdrain

theorem touches_setEventState (now : ℤ) (hs : Stored events) {e : Event} (state : EventState)
    (hget : events.get e.id = some e) (hstate : state ≠ .none)
    (hdone : state = .completed → e.drainAt ≤ now) :
    Touches now events (setEventState events e.id state) ∧
      OthersStay e.roomId events (setEventState events e.id state) := by
  refine ⟨⟨fun id e' hid => ?_, fun id e' hid => ?_⟩, fun id e' hroom => ?_⟩
  · rw [get_setEventState] at hid
    split at hid
    · rename_i heq
      rw [hget, Option.map_some] at hid
      obtain rfl := Option.some.inj hid
      exact ⟨heq.symm, hstate⟩
    · exact hs id e' hid
  · rw [get_setEventState]
    split
    · rename_i heq
      rw [heq, hget] at hid
      obtain rfl := Option.some.inj hid
      rw [hget, Option.map_some]
      exact ⟨state, rfl, fun h => .inr (hdone h)⟩
    · exact ⟨e'.state, hid, .inl⟩
  · rw [get_setEventState]
    split
    · rename_i heq
      rw [heq, hget, Option.map_some]
      constructor
      · intro h
        rw [← Option.some.inj h] at hroom
        exact absurd rfl hroom
      · intro h
        rw [← Option.some.inj h] at hroom
        exact absurd rfl hroom
    · exact Iff.rfl

theorem OthersStay.roomEvents {room r : String} (h : OthersStay room events events₁)
    (hs : Stored events) (hs₁ : Stored events₁) (hr : r ≠ room) :
    roomEvents events₁ r = roomEvents events r :=
  roomEvents_congr hs hs₁ fun id e he => h id e (he ▸ hr)

end Touch

section Tick

def Begun (events : Table String Event) (room : String) (mode : RoomMode) (t : ℤ) : Prop :=
  mode = .draining → ∀ e, firstOpen events room = some e →
    e.state = .pausedByOverride ∨ e.prequeueAt ≤ t

variable {now : ℤ} {room : Room} {runtime r' : Runtime} {events events' : Table String Event}

theorem Begun.mono {id : String} {mode : RoomMode} {t : ℤ} (hb : Begun events id mode now)
    (ht : now ≤ t) : Begun events id mode t := by
  intro hmode e he
  rcases hb hmode e he with hp | hle
  · exact .inl hp
  · exact .inr (hle.trans ht)

theorem nextEventMode_eq_none {e : Event} {state : EventState}
    (h : nextEventMode e now = (none, state)) (hopen : e.Open) :
    e.state = .pausedByOverride ∨ now < e.prequeueAt := by
  unfold nextEventMode at h
  split at h
  · rename_i hc
    rcases hc with hp | hclosed | hlt
    · exact .inl hp
    · exact absurd hopen hclosed
    · exact .inr hlt
  · split at h
    · cases h
    · split at h <;> cases h

theorem nextEventMode_eq_some {e : Event} {mode : RoomMode} {state : EventState}
    (h : nextEventMode e now = (some mode, state)) :
    state = .running ∧ e.prequeueAt ≤ now ∧ (mode = .draining → e.drainAt ≤ now) := by
  have hstate := (nextEventMode_ne h).2.2
  unfold nextEventMode at h
  split at h
  · cases h
  · rename_i hc
    push Not at hc
    refine ⟨hstate, hc.2.2, fun hmode => ?_⟩
    split at h
    · assumption
    · split at h
      · cases h
        cases hmode
      · cases h
        cases hmode

/-- What the plan of the first open event does. A room that it leaves draining has the
event paused or at its drain time. -/
theorem followPlan_step (hs : Stored events) (hb : Begun events room.id runtime.mode now)
    {plan : Runtime × Table String Event}
    (h : followPlan now (firstOpen events room.id) runtime events = plan) :
    Touches now events plan.2 ∧ OthersStay room.id events plan.2 ∧
      Begun plan.2 room.id plan.1.mode now ∧
      (plan.1.mode = .draining → ∀ e, firstOpen events room.id = some e →
        e.state = .pausedByOverride ∨ e.drainAt ≤ now) := by
  unfold followPlan at h
  split at h
  · rename_i hnone
    subst h
    exact ⟨.refl hs, fun _ _ _ => Iff.rfl, hb, fun _ e he => by rw [hnone] at he; cases he⟩
  rename_i e hfirst
  obtain ⟨hopen, hmem⟩ := firstOpen_eq_some hfirst
  obtain ⟨⟨id, hid⟩, hroom⟩ := mem_roomEvents.mp hmem
  obtain rfl := (hs id e hid).1
  split at h
  · rename_i hplan
    subst h
    refine ⟨.refl hs, fun _ _ _ => Iff.rfl, hb, fun hmode e' he' => ?_⟩
    obtain rfl := Option.some.inj (hfirst.symm.trans he')
    rcases nextEventMode_eq_none hplan hopen with hp | hlt
    · exact .inl hp
    · rcases hb hmode e hfirst with hp | hle
      · exact .inl hp
      · omega
  · rename_i mode state hplan
    obtain ⟨rfl, hbegun, hdrain⟩ := nextEventMode_eq_some hplan
    split at h
    · subst h
      obtain ⟨htouch, hothers⟩ := touches_setEventState now hs .running hid nofun
        nofun
      rw [hroom] at hothers
      refine ⟨htouch, hothers, fun _ e' he' => .inr ?_, fun hmode e' he' => ?_⟩
      · -- the event itself is still open, so that the first one is not later
        have hself : ({ e with state := .running } : Event) ∈
            roomEvents (setEventState events e.id .running) room.id := by
          refine mem_roomEvents.mpr ⟨⟨e.id, ?_⟩, hroom⟩
          rw [get_setEventState, if_pos rfl, hid]
          rfl
        exact le_trans (firstOpen_le he' hself ⟨nofun, nofun⟩) hbegun
      · obtain rfl := Option.some.inj (hfirst.symm.trans he')
        exact .inr (hdrain hmode)
    · rename_i hsame
      push Not at hsame
      subst h
      refine ⟨.refl hs, fun _ _ _ => Iff.rfl, hb, fun hmode e' he' => ?_⟩
      obtain rfl := Option.some.inj (hfirst.symm.trans he')
      exact .inr (hdrain (hsame.1.trans hmode))

theorem finishDrain_step (room : Room) (hs : Stored events) {active : Option Event}
    (hget : ∀ e, active = some e → e.roomId = room.id ∧ ∃ state, events.get e.id =
      some { e with state := state })
    (hdrain : ∀ e, active = some e → e.state = .pausedByOverride ∨ e.drainAt ≤ now)
    {next : Runtime × Table String Event} (h : finishDrain active runtime events = next) :
    Touches now events next.2 ∧ OthersStay room.id events next.2 ∧ next.1.mode = .off := by
  unfold finishDrain at h
  split at h
  · subst h
    exact ⟨.refl hs, fun _ _ _ => Iff.rfl, rfl⟩
  rename_i e
  split at h
  · subst h
    exact ⟨.refl hs, fun _ _ _ => Iff.rfl, rfl⟩
  rename_i hpaused
  subst h
  obtain ⟨hroom, state, hid⟩ := hget e rfl
  have hlate : e.drainAt ≤ now := (hdrain e rfl).resolve_left hpaused
  obtain ⟨htouch, hothers⟩ := touches_setEventState now hs
    (e := { e with state := state }) .completed hid nofun fun _ => hlate
  exact ⟨htouch, hroom ▸ hothers, rfl⟩

theorem tickRoom_step {drained : String → Runtime → Bool} (hs : Stored events)
    (hb : Begun events room.id runtime.mode now)
    (h : tickRoom now drained room runtime events = some (r', events')) :
    Touches now events events' ∧ OthersStay room.id events events' ∧
      Begun events' room.id r'.mode now := by
  unfold tickRoom at h
  split at h
  · cases h
    exact ⟨.refl hs, fun _ _ _ => Iff.rfl, hb⟩
  split at h
  · cases h
  rename_i list hlist
  obtain rfl := readEvents_eq hlist
  dsimp only at h
  generalize hp : followPlan now ((roomEvents events room.id).find? fun e => decide e.Open) runtime
    events = planned at h
  obtain ⟨htouch, hothers, hbegun, hdrain⟩ := followPlan_step hs hb hp
  generalize hn : (if planned.1.mode = .draining ∧ drained room.id planned.1 = true then
    finishDrain ((roomEvents events room.id).find? fun e => decide e.Open) planned.1 planned.2
      else planned) = next at h
  have hnext : Touches now events next.2 ∧ OthersStay room.id events next.2 ∧
      Begun next.2 room.id next.1.mode now := by
    split at hn
    · rename_i hdraining
      obtain ⟨htouch', hothers', hoff⟩ := finishDrain_step room htouch.stored
        (fun e he => by
          obtain ⟨_, hmem⟩ := firstOpen_eq_some he
          obtain ⟨⟨id, hid⟩, hroom⟩ := mem_roomEvents.mp hmem
          obtain rfl := (hs id e hid).1
          obtain ⟨state, hstate, _⟩ := htouch.row e.id e hid
          exact ⟨hroom, state, hstate⟩)
        (hdrain hdraining.1) hn
      refine ⟨htouch.trans htouch', fun id e hne => ?_, fun hmode => ?_⟩
      · exact (hothers' id e hne).trans (hothers id e hne)
      · rw [hoff] at hmode
        cases hmode
    · subst hn
      exact ⟨htouch, hothers, hbegun⟩
  split at h
  · cases h
    exact hnext
  · cases h
    exact hnext

theorem tickRooms_step {drained : String → Runtime → Bool} {rows : List (Room × RoomRuntime)}
    {runtimes : List RoomRuntime} (hs : Stored events)
    (hn : (rows.map fun p => p.1.id).Nodup)
    (hb : ∀ p ∈ rows, Begun events p.1.id p.2.runtime.mode now)
    (h : tickRooms now drained rows events = some (runtimes, events')) :
    Touches now events events' ∧
      (∀ r, r ∉ rows.map (fun p => p.1.id) → roomEvents events' r = roomEvents events r) ∧
      ∀ p ∈ (rows.map Prod.fst).zip runtimes, Begun events' p.1.id p.2.runtime.mode now := by
  induction rows generalizing events runtimes with
  | nil =>
    cases h
    exact ⟨.refl hs, fun _ _ => rfl, fun p hp => by cases hp⟩
  | cons row rows ih =>
    rw [tickRooms] at h
    split at h
    · cases h
    rename_i r' events₁ hroom
    split at h
    · cases h
    rename_i rest events₂ hrest
    cases h
    rw [List.map_cons] at hn
    obtain ⟨hfresh, hn⟩ := List.nodup_cons.mp hn
    obtain ⟨htouch, hothers, hbegun⟩ := tickRoom_step hs (hb row List.mem_cons_self) hroom
    -- the other rooms have their events as before
    have hsame : ∀ r, r ≠ row.1.id → roomEvents events₁ r = roomEvents events r :=
      fun r hr => hothers.roomEvents hs htouch.stored hr
    have hb₁ : ∀ p ∈ rows, Begun events₁ p.1.id p.2.runtime.mode now := by
      intro p hp hmode e he
      have hne : p.1.id ≠ row.1.id := fun heq => hfresh (heq ▸ List.mem_map_of_mem hp)
      unfold firstOpen at he
      rw [hsame _ hne] at he
      exact hb p (List.mem_cons_of_mem _ hp) hmode e he
    obtain ⟨htouch₂, hsame₂, hbegun₂⟩ := ih htouch.stored hn hb₁ hrest
    refine ⟨htouch.trans htouch₂, fun r hr => ?_, fun p hp => ?_⟩
    · rw [List.map_cons, List.mem_cons, not_or] at hr
      rw [hsame₂ r hr.2, hsame r hr.1]
    · rw [List.map_cons, List.zip_cons_cons] at hp
      rcases List.mem_cons.mp hp with rfl | hp
      · intro hmode e he
        unfold firstOpen at he
        rw [hsame₂ _ hfresh] at he
        exact hbegun hmode e he
      · exact hbegun₂ p hp

end Tick

section Operations

variable {h : Host} {s s' : Store} {op : Op} {t : ℤ} {events events' : Table String Event}

theorem get_pauseEvents (p : Event → Bool) (id : String) :
    (pauseEvents p events).get id = (events.get id).map fun e =>
      if p e ∧ e.Live then { e with state := .pausedByOverride } else e := Table.get_mapVals ..

def Spares (events events' : Table String Event) : Prop :=
  Stored events' ∧ ∀ id e, events.get id = some e →
    ∃ e', events'.get id = some e' ∧ (e'.state = .completed → e.state = .completed)

theorem Spares.refl (hs : Stored events) : Spares events events :=
  ⟨hs, fun _ e he => ⟨e, he, fun hdone => hdone⟩⟩

theorem pauseEvents_spares (hs : Stored events) (p : Event → Bool) :
    Spares events (pauseEvents p events) := by
  refine ⟨fun id e he => ?_, fun id e he => ?_⟩
  · rw [get_pauseEvents] at he
    obtain ⟨e₀, he₀, rfl⟩ := Option.map_eq_some_iff.mp he
    split
    · exact ⟨(hs id e₀ he₀).1, nofun⟩
    · exact hs id e₀ he₀
  · rw [get_pauseEvents, he]
    refine ⟨_, rfl, fun hdone => ?_⟩
    dsimp only at hdone
    split at hdone
    · cases hdone
    · exact hdone

theorem askedEvent_state {room : Room} {eventId fresh : String} {method : Method}
    {body : EventBody} {list : List Event} {found : Option Event} {now : ℤ} {next : Event}
    (ha : askedEvent room eventId fresh method body list found now = .ok next) :
    next.state = .cancelled ∨ next.state = .scheduled := by
  unfold askedEvent at ha
  split at ha
  · split at ha
    · cases ha
      exact .inl rfl
    · cases ha
  · split at ha
    · cases ha
    split at ha
    · cases ha
    split at ha
    · cases ha
    cases ha
    exact .inr rfl
  · split at ha
    · cases ha
    split at ha
    · split at ha
      · cases ha
      split at ha
      · cases ha
      split at ha
      · cases ha
      cases ha
      exact .inr rfl
    · cases ha

theorem upsertEvent_spares (hs : Stored events) {next : Event}
    (hstate : next.state = .cancelled ∨ next.state = .scheduled)
    (hu : upsertEvent events next = some events') : Spares events events' := by
  have hput : ∃ room, events' = events.put next.id { next with roomId := room } := by
    unfold upsertEvent at hu
    split at hu
    · cases hu
    split at hu
    · exact ⟨next.roomId, (Option.some.inj hu).symm⟩
    · rename_i old _
      exact ⟨old.roomId, (Option.some.inj hu).symm⟩
  obtain ⟨room, rfl⟩ := hput
  refine ⟨fun id e he => ?_, fun id e he => ?_⟩
  · rw [Table.get_put] at he
    split at he
    · rename_i heq
      obtain rfl := Option.some.inj he
      refine ⟨heq.symm, fun hnone => ?_⟩
      have hnone : next.state = .none := hnone
      rcases hstate with hc | hc <;> rw [hc] at hnone <;> cases hnone
    · exact hs id e he
  · rw [Table.get_put]
    split
    · refine ⟨_, rfl, fun hdone => ?_⟩
      have hdone : next.state = .completed := hdone
      rcases hstate with hc | hc <;> rw [hc] at hdone <;> cases hdone
    · exact ⟨e, he, fun hdone => hdone⟩

/-- No draining room has an event that is yet to begin, unless it is paused. -/
def Store.AllBegun (s : Store) (t : ℤ) : Prop :=
  ∀ p ∈ s.delivery.rows, Begun s.events p.1.id p.2.runtime.mode t

theorem nextRuntime_draining {previous : Delivery} {room : Room} {runtime : Runtime}
    (hn : nextRuntime previous room = some runtime) (hm : runtime.mode = .draining) :
    ∃ old prior, previous.find room.id = some (old, prior) ∧ prior.mode = .draining := by
  unfold nextRuntime at hn
  split at hn
  · have hmode : (initialRuntime room).mode ≠ .draining := by
      unfold initialRuntime
      cases room.active <;> nofun
    split at hn
    · cases hn
      exact absurd hm hmode
    · cases hn
      exact absurd hm hmode
  · rename_i old prior hfound
    split at hn
    · cases hn
    · cases hn
      refine ⟨old, prior, hfound, ?_⟩
      dsimp only at hm
      split at hm
      · cases hm
      split at hm
      · cases hm
      exact hm

theorem published_begun {runtimes : List RoomRuntime}
    (hb : s.AllBegun t) (hn : nextRuntimes s.delivery s.config.rooms = some runtimes)
    {p : Room × RoomRuntime} (hp : p ∈ (⟨s.config, runtimes⟩ : Delivery).rows) :
    Begun s.events p.1.id p.2.runtime.mode t := by
  intro hmode
  obtain ⟨hid, hnext⟩ := mem_zip_of_forall₂ (nextRuntimes_forall₂ hn) hp
  obtain ⟨old, prior, hfound, hdraining⟩ := nextRuntime_draining hnext hmode
  obtain ⟨hold, roomId, hrow⟩ := Delivery.find_eq_some hfound
  rw [← hold]
  exact hb _ hrow hdraining

theorem nextEpoch_not_draining {x : Library} {d : Delivery} (hd : d.Valid x) {recoveryUntil : ℤ}
    {v : RoomRuntime} (hv : v ∈ (d.nextEpoch recoveryUntil).runtimes) :
    v.runtime.mode ≠ .draining := by
  have hmodes : List.Forall₂ (fun _ (v : RoomRuntime) => v.runtime.mode ≠ .draining) d.runtimes
      (d.nextEpoch recoveryUntil).runtimes := by
    refine forall₂_zipWith_right (fun room v => ?_) hd.length
    unfold epochRuntime
    cases room.active <;> nofun
  obtain ⟨_, _, hne⟩ := exists_mem_zip hmodes.flip hv
  exact hne

theorem operated_begun {id : String} {runtime : Runtime} (hs : Stored s.events)
    (hb : s.AllBegun t) (hw : Wellformed h s) {p : Room × RoomRuntime}
    (hp : p ∈ (s.delivery.setRuntime id runtime).rows) :
    Begun (pauseEvents (fun e => e.roomId == id) s.events) p.1.id p.2.runtime.mode t := by
  intro hmode e he
  by_cases hid : p.1.id = id
  · -- the open events of the room are paused now
    obtain ⟨hopen, hmem⟩ := firstOpen_eq_some he
    obtain ⟨⟨i, hi⟩, hroom⟩ := mem_roomEvents.mp hmem
    rw [get_pauseEvents] at hi
    obtain ⟨e₀, he₀, rfl⟩ := Option.map_eq_some_iff.mp hi
    left
    split
    · rfl
    · rename_i hlive
      rw [if_neg hlive] at hopen hroom
      have hstate := (hs i e₀ he₀).2
      have hnot : ¬ e₀.Live := fun hl => hlive ⟨by rw [beq_iff_eq, hroom, hid], hl⟩
      unfold Event.Live at hnot
      unfold Event.Open at hopen
      cases hst : e₀.state with
      | pausedByOverride => rfl
      | none => exact absurd hst hstate
      | scheduled => exact absurd (.inl hst) hnot
      | running => exact absurd (.inr hst) hnot
      | cancelled => exact absurd hst hopen.1
      | completed => exact absurd hst hopen.2
  · have hsame : roomEvents (pauseEvents (fun e => e.roomId == id) s.events) p.1.id =
        roomEvents s.events p.1.id := by
      refine roomEvents_congr hs (pauseEvents_spares hs _).1 fun i e₀ hroom => ?_
      rw [get_pauseEvents, Option.map_eq_some_iff]
      constructor
      · rintro ⟨e₁, he₁, rfl⟩
        split
        · rename_i hc
          rw [if_pos hc] at hroom
          exact absurd (hroom.symm.trans (beq_iff_eq.mp hc.1)) hid
        · exact he₁
      · intro he₀
        refine ⟨e₀, he₀, if_neg fun hc => ?_⟩
        exact hid (hroom.symm.trans (beq_iff_eq.mp hc.1))
    unfold firstOpen at he
    rw [hsame] at he
    obtain ⟨v, hv, hpv⟩ := mem_zip_of_forall₂_right (R := fun v v' => v.roomId ≠ id → v' = v)
      (l := s.delivery.runtimes) (by
        unfold Delivery.setRuntime
        rw [List.forall₂_map_right_iff, List.forall₂_same]
        intro v _ hne
        rw [if_neg hne]) hp
    obtain rfl : p.2 = v := hpv (by rw [(hw.delivery.aligned hv).1]; exact hid)
    exact hb _ hv hmode e he

end Operations

section History

def Op.time : Op → Option ℤ
  | .replaceDraft .. => none
  | .publish _ _ _ _ now | .operate _ _ _ _ _ now | .changeEvent _ _ _ _ _ _ _ now
  | .tick _ now _ | .refresh _ now | .recoverClock _ _ now | .acknowledge _ _ _ now => some now

def Op.changeTime : Op → Option ℤ
  | .changeEvent _ _ _ _ _ _ _ now => some now
  | _ => none

def Timed (events : List ControlEvent) : Prop :=
  events.Pairwise fun e e' => ∀ t ∈ e.input.time, ∀ t' ∈ e'.input.time, t ≤ t'

variable {h : Host} {s₀ s s' : Store} {op : Op} {t : ℤ} {events : List ControlEvent}

theorem Does.completes (hw : Wellformed h s) (hs : Stored s.events)
    (hb : ∀ now ∈ op.time, s.AllBegun now) (hd : Does h s op s') :
    Stored s'.events ∧ ∀ id e, s.events.get id = some e → ∃ e', s'.events.get id = some e' ∧
      (e'.state = .completed → e.state = .completed ∨
        ∃ svc now viewed, op = .tick svc now viewed ∧ e.drainAt ≤ now) := by
  have hspares : ∀ events', Spares s.events events' → Stored events' ∧
      ∀ id e, s.events.get id = some e → ∃ e', events'.get id = some e' ∧
        (e'.state = .completed → e.state = .completed ∨
          ∃ svc now viewed, op = .tick svc now viewed ∧ e.drainAt ≤ now) := by
    intro events' hsp
    refine ⟨hsp.1, fun id e he => ?_⟩
    obtain ⟨e', he', hdone⟩ := hsp.2 id e he
    exact ⟨e', he', fun hc => .inl (hdone hc)⟩
  have htouches : ∀ svc now viewed events', op = .tick svc now viewed →
      Touches now s.events events' → Stored events' ∧
      ∀ id e, s.events.get id = some e → ∃ e', events'.get id = some e' ∧
        (e'.state = .completed → e.state = .completed ∨
          ∃ svc now viewed, op = .tick svc now viewed ∧ e.drainAt ≤ now) := by
    intro svc now viewed events' hop ht
    refine ⟨ht.stored, fun id e he => ?_⟩
    obtain ⟨state, hget, hdone⟩ := ht.row id e he
    refine ⟨_, hget, fun hc => ?_⟩
    rcases hdone hc with hold | hlate
    · exact .inl hold
    · exact .inr ⟨svc, now, viewed, hop, hlate⟩
  cases hd with
  | nothing | drafted | acknowledged => exact hspares _ (.refl hs)
  | published keeps next signed =>
    obtain ⟨_, _, _, _, rfl⟩ := sign_eq_ok signed
    exact hspares _ (.refl hs)
  | renewed signed | recovered signed =>
    obtain ⟨_, _, _, _, rfl⟩ := sign_eq_ok signed
    exact hspares _ (.refl hs)
  | epoch signed =>
    obtain ⟨_, _, _, _, rfl⟩ := sign_eq_ok signed
    exact hspares _ (pauseEvents_spares hs _)
  | operated found active applied signed =>
    obtain ⟨_, _, _, _, rfl⟩ := sign_eq_ok signed
    exact hspares _ (pauseEvents_spares hs _)
  | eventChanged roomOf found notClosed asked upserted signed =>
    obtain ⟨_, _, _, _, rfl⟩ := sign_eq_ok signed
    exact hspares _ (upsertEvent_spares hs (askedEvent_state asked) upserted)
  | ticked rooms =>
    exact htouches _ _ _ _ rfl (tickRooms_step hs hw.delivery.ids_nodup (hb _ rfl) rooms).1
  | moved rooms signed =>
    obtain ⟨_, _, _, _, rfl⟩ := sign_eq_ok signed
    exact htouches _ _ _ _ rfl (tickRooms_step hs hw.delivery.ids_nodup (hb _ rfl) rooms).1

theorem Does.begun (hw : Wellformed h s) (hs : Stored s.events) (hb : s.AllBegun t)
    (hnow : ∀ now ∈ op.time, now ≤ t ∧ s.AllBegun now)
    (hchange : ∀ now ∈ op.changeTime, s'.AllBegun now) (hd : Does h s op s') : s'.AllBegun t := by
  cases hd with
  | nothing | drafted | acknowledged => exact hb
  | published keeps next signed =>
    obtain ⟨_, _, _, _, rfl⟩ := sign_eq_ok signed
    exact fun p hp => published_begun hb next hp
  | renewed signed | recovered signed =>
    obtain ⟨_, _, _, _, rfl⟩ := sign_eq_ok signed
    exact hb
  | epoch signed =>
    obtain ⟨_, _, _, _, rfl⟩ := sign_eq_ok signed
    intro p hp hmode
    exact absurd hmode (nextEpoch_not_draining hw.delivery (List.of_mem_zip hp).2)
  | operated found active applied signed =>
    obtain ⟨_, _, _, _, rfl⟩ := sign_eq_ok signed
    exact fun p hp => operated_begun hs hb hw hp
  | eventChanged roomOf found notClosed asked upserted signed =>
    exact fun p hp => (hchange _ rfl p hp).mono (hnow _ rfl).1
  | ticked rooms =>
    have hstep := (tickRooms_step hs hw.delivery.ids_nodup (hnow _ rfl).2 rooms).2.2
    rw [hw.delivery.rows_map_fst] at hstep
    exact fun p hp => (hstep p hp).mono (hnow _ rfl).1
  | moved rooms signed =>
    obtain ⟨_, _, _, _, rfl⟩ := sign_eq_ok signed
    have hstep := (tickRooms_step hs hw.delivery.ids_nodup (hnow _ rfl).2 rooms).2.2
    rw [hw.delivery.rows_map_fst] at hstep
    exact fun p hp => (hstep p hp).mono (hnow _ rfl).1

theorem begun_of_run (hi : Installed h s₀) (hr : ControlRun h s₀ events s) (htimes : Timed events)
    (hchange : ∀ e ∈ events, ∀ now ∈ e.input.changeTime, e.after.AllBegun now) :
    Stored s.events ∧
      ∀ t, (∀ e ∈ events, ∀ now ∈ e.input.time, now ≤ t) → s.AllBegun t := by
  induction hr with
  | nil =>
    refine ⟨fun id e he => ?_, fun t _ p hp => ?_⟩
    · rw [hi.events] at he
      cases he
    · unfold Delivery.rows at hp
      rw [hi.runtimes, List.zip_nil_right] at hp
      cases hp
  | @snoc events s op hr ha ih =>
    obtain ⟨htimes, _, hlast⟩ := List.pairwise_append.mp htimes
    obtain ⟨hs, hb⟩ := ih htimes fun e he => hchange e (List.mem_append_left _ he)
    have hw := (steady_of_run hi hr).toWellformed
    have hd := exec_does hw op
    have hmem : eventOf (exec h) s op ∈ events ++ [eventOf (exec h) s op] :=
      List.mem_append_right _ List.mem_cons_self
    have hnow : ∀ now ∈ op.time, s.AllBegun now := fun now hop =>
      hb now fun e he u hu => hlast e he _ List.mem_cons_self u hu now hop
    refine ⟨(hd.completes hw hs hnow).1, fun t ht => ?_⟩
    refine hd.begun hw hs ?_ (fun now hop => ⟨ht _ hmem now hop, hnow now hop⟩)
      fun now hop => hchange _ hmem now hop
    exact hb t fun e he => ht e (List.mem_append_left _ he)

/-- An event is completed by a tick at or after its drain time only, as long as no change
of an event leaves a draining room whose first open event is neither paused nor begun. -/
theorem events_complete_after_drain (hi : Installed h s₀) (hr : ControlRun h s₀ events s)
    (htimes : Timed events)
    (hchange : ∀ e ∈ events, ∀ now ∈ e.input.changeTime, e.after.AllBegun now) :
    ∀ e ∈ events, ∀ id ev, e.before.events.get id = some ev →
      ∃ ev', e.after.events.get id = some ev' ∧
        (ev'.state = .completed → ev.state = .completed ∨
          ∃ svc now viewed, e.input = .tick svc now viewed ∧ ev.drainAt ≤ now) := by
  intro e he
  obtain ⟨h₁, h₂, rfl, hbefore, _, heq, _⟩ := Run.split hr he
  obtain ⟨htimes₁, _, hlast⟩ := List.pairwise_append.mp htimes
  obtain ⟨hs, hb⟩ := begun_of_run hi hbefore htimes₁ fun e he =>
    hchange e (List.mem_append_left _ he)
  have hw := (steady_of_run hi hbefore).toWellformed
  have hafter : e.after = (exec h e.before e.input).2 := by
    rw [heq]
    rfl
  rw [hafter]
  refine ((exec_does hw e.input).completes hw hs fun now hop => ?_).2
  exact hb now fun e' he' u hu => hlast e' he' e List.mem_cons_self u hu now hop

end History

section Sample

section Tick

variable (now : ℤ) (drained : String → Runtime → Bool) (room : Room) (runtime : Runtime)
  (events : Table String Event) (hlist : (roomEvents events room.id).length ≤ 1000)
include hlist

/-- One turn of the loop for an active room, with what the two steps of the turn leave. -/
theorem tickRoom_of_active (hactive : room.active = true) {planned next : Runtime × Table String Event}
    (hplan : followPlan now (firstOpen events room.id) runtime events = planned)
    (hnext : (if planned.1.mode = .draining ∧ drained room.id planned.1 = true then
      finishDrain (firstOpen events room.id) planned.1 planned.2 else planned) = next) :
    tickRoom now drained room runtime events =
      if next.1 = runtime then some next
      else some ({ next.1 with revision := next.1.revision + 1 }, next.2) := by
  subst hplan hnext
  unfold tickRoom readEvents
  rw [if_neg (by simp [hactive]), if_neg (Nat.not_lt.mpr hlist)]
  rfl

theorem tickRoom_of_drained (e : Event) (hactive : room.active = true)
    (hopen : firstOpen events room.id = some e)
    (hplan : followPlan now (some e) runtime events = (runtime, events))
    (hstate : e.state ≠ .pausedByOverride) (hmode : runtime.mode = .draining)
    (hdrained : drained room.id runtime = true) :
    tickRoom now drained room runtime events =
      some ({ runtime with mode := .off, eventState := .none, revision := runtime.revision + 1 },
        setEventState events e.id .completed) := by
  have hfinish : finishDrain (some e) runtime events =
      ({ runtime with mode := .off, eventState := .none },
        setEventState events e.id .completed) := if_neg hstate
  rw [← hopen] at hplan hfinish
  rw [tickRoom_of_active now drained room runtime events hlist hactive hplan
    ((if_pos ⟨hmode, hdrained⟩).trans hfinish)]
  refine if_neg fun heq => ?_
  rw [← heq] at hmode
  cases hmode

theorem tickRoom_of_due (e : Event) (mode : RoomMode) (hactive : room.active = true)
    (hopen : firstOpen events room.id = some e) (hdue : nextEventMode e now = (some mode, .running))
    (hmoved : mode ≠ runtime.mode)
    (hbusy : mode = .draining →
      drained room.id { runtime with mode := mode, eventState := .running } = false) :
    tickRoom now drained room runtime events =
      some ({ runtime with
        mode := mode, eventState := .running, revision := runtime.revision + 1 },
        setEventState events e.id .running) := by
  have hplan : followPlan now (some e) runtime events =
      ({ runtime with mode := mode, eventState := .running }, setEventState events e.id .running) := by
    unfold followPlan
    dsimp only
    rw [hdue]
    exact if_pos (.inl hmoved)
  rw [← hopen] at hplan
  rw [tickRoom_of_active now drained room runtime events hlist hactive hplan (if_neg ?_)]
  · refine if_neg fun heq => hmoved ?_
    rw [← heq]
  · rintro ⟨hmode, hdrained⟩
    rw [hbusy hmode] at hdrained
    cases hdrained

end Tick

def drainRuntime (revision : ℤ) (state : EventState) : Runtime :=
  { initialRuntime sampleRoom with mode := .draining, revision := revision, eventState := state }

def laterEvent (state : EventState) : Event :=
  ⟨"event", "shop", 100000000, 200000000, 300000000, state⟩

def Store.shopSigned (s : Store) (r : Runtime) (events : Table String Event) (now : ℤ) : Store :=
  { s with
    delivery := shopDelivery r
    generation := s.generation + 1
    published := some (shopEnvelope s.generation now)
    events := events }

def shopOperate (action : Action) (r : Runtime) (now : ℤ) : Op :=
  .operate sampleService "shop" .patch (some ⟨action, none, "", none⟩) r.etag now

def shopPlan (e : EventInput) (fresh : String) (r : Runtime) (now : ℤ) : Op :=
  .changeEvent sampleService "shop" "" .post (.input e) r.etag fresh now

def shopTick (now : ℤ) : Op := .tick sampleService now now

theorem shop_find (r : Runtime) : (shopDelivery r).find "shop" = some (sampleRoom, r) := rfl

section Steps

variable (s : Store) (r next : Runtime) (now : ℤ) (hc : s.config = shopConfig)
  (hrev : s.revision = 1) (hd : s.delivery = shopDelivery r) (hr : r.Valid "standard-10k")
  (hg : s.generation < 1000) (hnow : 1000000 ≤ now) (hlater : now ≤ 1000000000000)
  (hnext : next.Valid "standard-10k")
include hc hrev hd hr hg hnow hlater hnext

theorem shop_operates (action : Action) (haction : action ≠ .newEpoch) {r' : Runtime}
    (happly : action.apply "standard-10k" r none = .ok r')
    (heq : next = { r' with
      eventState :=
        if 0 < s.events.count (fun e => decide (e.roomId = "shop" ∧ e.Live)) then .pausedByOverride
        else r'.eventState
      revision := r'.revision + 1 }) :
    (exec sampleHost s (shopOperate action r now)).2 =
      s.shopSigned next (pauseEvents (fun e => e.roomId == "shop") s.events) now := by
  have hsign := shop_sign
    (s := { s with events := pauseEvents (fun e => e.roomId == "shop") s.events })
    hnext hg hnow hlater
  rw [heq] at hsign ⊢
  have h := operate_of (shop_readConfig hc hrev) (shop_readDelivery hd hr) (shop_find r) rfl haction
    happly hsign
  exact h

theorem shop_plans (e : EventInput) (fresh : String) (hvalid : e.Valid now)
    (hcap : (roomEvents s.events "shop").length < 1000)
    (hfree : ∀ other ∈ roomEvents s.events "shop", other.id ≠ "" ∧ ¬ other.Overlaps e)
    {table : Table String Event}
    (hupsert : upsertEvent s.events ⟨fresh, "shop", e.prequeueAt / 1000, e.admitAt / 1000,
      e.drainAt / 1000, .scheduled⟩ = some table)
    (hlist : (roomEvents table "shop").length ≤ 1000)
    (heq : next = { r with
      eventState := eventStateOfRoom .none (roomEvents table "shop")
      revision := r.revision + 1 }) :
    (exec sampleHost s (shopPlan e fresh r now)).2 = s.shopSigned next table now := by
  have hsign := shop_sign (s := { s with events := table }) hnext hg hnow hlater
  rw [heq] at hsign ⊢
  have h := createEvent_of (shop_readConfig hc hrev) (shop_readDelivery hd hr) (shop_find r) rfl
    hvalid hcap hfree hupsert hlist hsign
  exact h

theorem shop_ticks {events : Table String Event}
    (hroom : tickRoom now (fun room runtime => decide (SafeDrain s s.generation now room runtime))
      sampleRoom r s.events = some (next, events)) (hmoved : next ≠ r) :
    exec sampleHost s (shopTick now) = (.done, s.shopSigned next events now) := by
  have hrooms : tickRooms now (fun room runtime => decide (SafeDrain s s.generation now room runtime))
      (shopDelivery r).rows s.events = some ([⟨"shop", next⟩], events) := by
    change tickRooms _ _ [(sampleRoom, (⟨"shop", r⟩ : RoomRuntime))] _ = _
    rw [tickRooms, hroom]
    rfl
  have hruntimes : [(⟨"shop", next⟩ : RoomRuntime)] ≠ (shopDelivery r).runtimes := by
    simpa [shopDelivery] using hmoved
  have h := tick_of (shop_readConfig hc hrev) (shop_readDelivery hd hr) hrooms hruntimes
    (shop_sign (s := { s with events := events }) hnext hg hnow hlater)
  exact h

end Steps

def laterInput : EventInput := ⟨100000000000, 200000000000, 300000000000⟩

def drainStore : Store := shopStore.shopSigned (drainRuntime 2 .none) ∅ 2000000

def plannedStore : Store :=
  drainStore.shopSigned (drainRuntime 3 .scheduled)
    ((∅ : Table String Event).put "event" (laterEvent .scheduled)) 3000000

def drainedAck : NodeAck where
  generation := 3
  digest := ""
  rooms := [{
    roomId := "shop"
    revision := 3
    epoch := 1
    mode := .draining
    originHealthy := true
    arrivalWindowReady := true }]

def shopDrain : Op := shopOperate .safeDrain (initialRuntime sampleRoom) 2000000

theorem shop_drains : (exec sampleHost shopStore shopDrain).2 = drainStore := by
  have h := shop_operates shopStore (initialRuntime sampleRoom) (drainRuntime 2 .none) 2000000 rfl rfl
    rfl (by decide) (by decide) (by decide) (by decide) (by decide) .safeDrain nofun
    rfl (by decide)
  exact h

def shopPlanDrained : Op := shopPlan laterInput "event" (drainRuntime 2 .none) 3000000

theorem upsert_later : upsertEvent ∅ (laterEvent .scheduled) =
    some ((∅ : Table String Event).put "event" (laterEvent .scheduled)) := if_neg (by decide)

theorem shop_plans_drained : (exec sampleHost drainStore shopPlanDrained).2 = plannedStore := by
  have h := shop_plans drainStore (drainRuntime 2 .none) (drainRuntime 3 .scheduled) 3000000 rfl rfl
    rfl (by decide) (by decide) (by decide) (by decide) (by decide) laterInput "event"
    (by decide) (by decide) (by decide) upsert_later (by decide) (by decide)
  exact h

def Store.drainedBy (s : Store) (node : NodeId) (now : ℤ) : Store := { s with
  nodes := fun n => if n = node then some ⟨3, now, drainedAck.rooms⟩ else s.nodes n }

def shopAck (node : NodeId) (now : ℤ) : Op := .acknowledge sampleService node drainedAck now

theorem shop_acks (s : Store) (node : NodeId) (state : EventState) (issued now : ℤ)
    (hstate : (drainRuntime 3 state).Valid "standard-10k")
    (hd : s.delivery = shopDelivery (drainRuntime 3 state)) (hg : s.generation = 3)
    (hp : s.published = some (shopEnvelope 2 issued)) (hnow : issued ≤ now ∧ now < issued + day)
    (hn : s.nodes node = none) :
    (exec sampleHost s (shopAck node now)).2 = s.drainedBy node now := by
  have hread : readDelivery sampleHost s = some (shopDelivery (drainRuntime 3 state), 3) :=
    hg ▸ shop_readDelivery hd hstate
  have hrooms : List.Forall₂ (Acceptable (shopDelivery (drainRuntime 3 state)) node)
      [sampleRoom] drainedAck.rooms := by
    cases node <;> cases state <;> exact .cons (by decide) .nil
  have h : acknowledge sampleHost sampleService s node drainedAck now =
      (.done, s.drainedBy node now) :=
    acknowledge_of hread hp ⟨rfl, rfl⟩ hnow rfl rfl hrooms hn
  exact congrArg Prod.snd h

def Store.drained (s : Store) (now : ℤ) : Store :=
  (s.drainedBy .coordinator now).drainedBy .gateway now

def Store.completed (s : Store) (now : ℤ) : Store :=
  s.shopSigned { initialRuntime sampleRoom with mode := .off, revision := 4 }
    (setEventState s.events "event" .completed) now

theorem shop_completes :
    exec sampleHost (plannedStore.drained 4000000) (shopTick 5000000) =
      (.done, (plannedStore.drained 4000000).completed 5000000) := by
  have hroom := tickRoom_of_drained 5000000
    (fun room runtime => decide (SafeDrain (plannedStore.drained 4000000) 3 5000000 room runtime))
    sampleRoom (drainRuntime 3 .scheduled) plannedStore.events (by decide) (laterEvent .scheduled) rfl
    (by decide) rfl (by decide) rfl (by decide)
  exact shop_ticks (plannedStore.drained 4000000) (drainRuntime 3 .scheduled) _ 5000000 rfl rfl rfl
    (by decide) (by decide) (by decide) (by decide) (by decide) hroom (by decide)

def drainOps : List Op :=
  [shopDraft, shopPublish, shopDrain, shopPlanDrained, shopAck .coordinator 4000000,
    shopAck .gateway 4000000, shopTick 5000000]

theorem drainOps_run :
    ControlRun sampleHost sampleStore (eventsOf (exec sampleHost) sampleStore drainOps)
      (stateAfter (exec sampleHost) sampleStore drainOps) := run_of_inputs _ fun _ _ _ => trivial

theorem drainOps_events : eventsOf (exec sampleHost) sampleStore drainOps =
    [eventOf (exec sampleHost) sampleStore shopDraft,
      eventOf (exec sampleHost) shopDrafted shopPublish,
      eventOf (exec sampleHost) shopStore shopDrain,
      eventOf (exec sampleHost) drainStore shopPlanDrained,
      eventOf (exec sampleHost) plannedStore (shopAck .coordinator 4000000),
      eventOf (exec sampleHost) (plannedStore.drainedBy .coordinator 4000000)
        (shopAck .gateway 4000000),
      eventOf (exec sampleHost) (plannedStore.drained 4000000) (shopTick 5000000)] := by
  have hfirst := shop_acks plannedStore .coordinator .scheduled 3000000 4000000 (by decide) rfl rfl
    rfl (by decide) rfl
  have hsecond := shop_acks (plannedStore.drainedBy .coordinator 4000000) .gateway .scheduled
    3000000 4000000 (by decide) rfl rfl rfl (by decide) rfl
  rw [drainOps, eventsOf, eventsOf, eventsOf, eventsOf, eventsOf, eventsOf, eventsOf, eventsOf,
    shop_drafts, shop_publishes, shop_drains, shop_plans_drained, hfirst, hsecond]
  rfl

/-- The tick completes a scheduled event before its drain time, and even before it begins. -/
theorem scheduled_event_completed_early :
    ∃ events s, ControlRun sampleHost sampleStore events s ∧ Timed events ∧
      ∃ e ∈ events, ∃ svc now viewed ev, e.input = .tick svc now viewed ∧
        e.before.events.get "event" = some ev ∧ ev.state = .scheduled ∧ now < ev.prequeueAt ∧
        now < ev.drainAt ∧
        e.after.events.get "event" = some { ev with state := .completed } := by
  have htimed : Timed (eventsOf (exec sampleHost) sampleStore drainOps) := by
    rw [drainOps_events]
    simp [Timed, eventOf, Op.time, shopDraft, shopPublish, shopDrain, shopOperate,
      shopPlanDrained, shopPlan, shopAck, shopTick]
  have hbefore : plannedStore.events.get "event" = some (laterEvent .scheduled) := by decide
  have hafter : ((plannedStore.drained 4000000).completed 5000000).events.get "event" =
      some (laterEvent .completed) := by decide
  refine ⟨_, _, drainOps_run, htimed, eventOf (exec sampleHost) (plannedStore.drained 4000000)
    (shopTick 5000000), by rw [drainOps_events]; simp, sampleService, 5000000, 5000000,
    laterEvent .scheduled, rfl, hbefore, rfl, by decide, by decide, ?_⟩
  rw [eventOf_after, shop_completes]
  exact hafter

def heldStore : Store :=
  shopStore.shopSigned { initialRuntime sampleRoom with revision := 2, eventState := .scheduled }
    ((∅ : Table String Event).put "event" (laterEvent .scheduled)) 3000000

def shopPlanHeld : Op := shopPlan laterInput "event" (initialRuntime sampleRoom) 3000000

theorem shop_plans_held : (exec sampleHost shopStore shopPlanHeld).2 = heldStore := by
  have h := shop_plans shopStore (initialRuntime sampleRoom)
    { initialRuntime sampleRoom with revision := 2, eventState := .scheduled } 3000000 rfl rfl rfl
    (by decide) (by decide) (by decide) (by decide) (by decide) laterInput "event"
    (by decide) (by decide) (by decide) upsert_later (by decide) (by decide)
  exact h

def endingStore : Store :=
  heldStore.shopSigned (drainRuntime 3 .running) (setEventState heldStore.events "event" .running)
    300000000

theorem shop_ends : exec sampleHost heldStore (shopTick 300000000) = (.done, endingStore) := by
  have hroom := tickRoom_of_due 300000000
    (fun room runtime => decide (SafeDrain heldStore 2 300000000 room runtime)) sampleRoom
    { initialRuntime sampleRoom with revision := 2, eventState := .scheduled } heldStore.events
    (by decide) (laterEvent .scheduled) .draining rfl (by decide) (by decide) (by decide) (by decide)
  exact shop_ticks heldStore _ _ 300000000 rfl rfl rfl (by decide) (by decide) (by decide)
    (by decide) (by decide) hroom (by decide)

theorem ending_acks :
    (exec sampleHost endingStore (shopAck .coordinator 300000001)).2 =
        endingStore.drainedBy .coordinator 300000001 ∧
      (exec sampleHost (endingStore.drainedBy .coordinator 300000001)
        (shopAck .gateway 300000001)).2 = endingStore.drained 300000001 :=
  ⟨shop_acks endingStore .coordinator .running 300000000 300000001 (by decide) rfl rfl rfl
      (by decide) rfl,
    shop_acks (endingStore.drainedBy .coordinator 300000001) .gateway .running 300000000 300000001
      (by decide) rfl rfl rfl (by decide) rfl⟩

def finishedStore : Store := (endingStore.drained 300000001).completed 300000002

theorem shop_finishes :
    exec sampleHost (endingStore.drained 300000001) (shopTick 300000002) = (.done, finishedStore) := by
  have hroom := tickRoom_of_drained 300000002
    (fun room runtime => decide (SafeDrain (endingStore.drained 300000001) 3 300000002 room runtime))
    sampleRoom (drainRuntime 3 .running) endingStore.events (by decide) (laterEvent .running) rfl
    (by decide) rfl (by decide) rfl (by decide)
  exact shop_ticks (endingStore.drained 300000001) (drainRuntime 3 .running) _ 300000002 rfl rfl rfl
    (by decide) (by decide) (by decide) (by decide) (by decide) hroom (by decide)

/-- The event is planned for the room on HOLD, a tick drains the room at the time that was
planned for it, the nodes report, and another tick follows. -/
def finishedOps : List Op :=
  [shopDraft, shopPublish, shopPlanHeld, shopTick 300000000, shopAck .coordinator 300000001,
    shopAck .gateway 300000001, shopTick 300000002]

theorem finishedOps_run :
    ControlRun sampleHost sampleStore (eventsOf (exec sampleHost) sampleStore finishedOps)
      (stateAfter (exec sampleHost) sampleStore finishedOps) := run_of_inputs _ fun _ _ _ => trivial

theorem finishedOps_events : eventsOf (exec sampleHost) sampleStore finishedOps =
    [eventOf (exec sampleHost) sampleStore shopDraft,
      eventOf (exec sampleHost) shopDrafted shopPublish,
      eventOf (exec sampleHost) shopStore shopPlanHeld,
      eventOf (exec sampleHost) heldStore (shopTick 300000000),
      eventOf (exec sampleHost) endingStore (shopAck .coordinator 300000001),
      eventOf (exec sampleHost) (endingStore.drainedBy .coordinator 300000001)
        (shopAck .gateway 300000001),
      eventOf (exec sampleHost) (endingStore.drained 300000001) (shopTick 300000002)] := by
  rw [finishedOps, eventsOf, eventsOf, eventsOf, eventsOf, eventsOf, eventsOf, eventsOf, eventsOf,
    shop_drafts, shop_publishes, shop_plans_held, shop_ends, ending_acks.1, ending_acks.2]

theorem finishedOps_after :
    stateAfter (exec sampleHost) sampleStore finishedOps = finishedStore := by
  rw [finishedOps, stateAfter, stateAfter, stateAfter, stateAfter, stateAfter, stateAfter,
    stateAfter, stateAfter, shop_drafts, shop_publishes, shop_plans_held, shop_ends, ending_acks.1,
    ending_acks.2, shop_finishes]

theorem heldStore_begun (t : ℤ) : heldStore.AllBegun t := by
  intro p hp hmode
  obtain rfl := List.mem_singleton.mp
    (show p ∈ [(sampleRoom, (⟨"shop", _⟩ : RoomRuntime))] from hp)
  cases hmode

theorem finishedOps_complete_after_drain :
    endingStore.events.get "event" = some (laterEvent .running) ∧
      finishedStore.events.get "event" = some (laterEvent .completed) ∧
      (laterEvent .running).drainAt ≤ 300000002 := by
  have hchange : ∀ e ∈ eventsOf (exec sampleHost) sampleStore finishedOps,
      ∀ now ∈ e.input.changeTime, e.after.AllBegun now := by
    rw [finishedOps_events]
    intro e he now hnow
    simp only [List.mem_cons, List.not_mem_nil, or_false] at he
    rcases he with rfl | rfl | rfl | rfl | rfl | rfl | rfl
    · cases hnow
    · cases hnow
    · rw [eventOf_after, shop_plans_held]
      exact heldStore_begun now
    · cases hnow
    · cases hnow
    · cases hnow
    · cases hnow
  have htimed : Timed (eventsOf (exec sampleHost) sampleStore finishedOps) := by
    rw [finishedOps_events]
    simp [Timed, eventOf, Op.time, shopDraft, shopPublish, shopPlanHeld, shopPlan, shopTick, shopAck]
  have hget : endingStore.events.get "event" = some (laterEvent .running) := by decide
  have hcompleted : finishedStore.events.get "event" = some (laterEvent .completed) := by decide
  obtain ⟨ev, hev, hdone⟩ :=
    events_complete_after_drain sampleStore_installed finishedOps_run htimed hchange
      (eventOf (exec sampleHost) (endingStore.drained 300000001) (shopTick 300000002))
      (by rw [finishedOps_events]; simp) "event" _ hget
  rw [eventOf_after, shop_finishes] at hev
  obtain rfl := Option.some.inj (hev.symm.trans hcompleted)
  refine ⟨hget, hcompleted, ?_⟩
  rcases hdone rfl with hold | ⟨svc, now, viewed, hop, hle⟩
  · cases hold
  · cases hop
    exact hle

end Sample

end WaitingRoom.Control
