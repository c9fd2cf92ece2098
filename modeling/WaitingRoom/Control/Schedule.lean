import WaitingRoom.Control.Completion

/-!
# Events of one room

The open events of a room never overlap: a change of an event is refused where it
would, and everything else only moves the states of events. So at any time at most
one of them is between its beginning and its drain time. `Tick` follows the first
open event of a room and no other, which is that one unless an earlier event is
still open. An earlier event that was paused stays open.
-/

namespace WaitingRoom.Control

set_option autoImplicit false

open Queue (RoomMode)

section Restate

def Restates (events events' : Table String Event) : Prop :=
  ∀ id, (events.get id = none → events'.get id = none) ∧
    ∀ e, events.get id = some e → ∃ e', events'.get id = some e' ∧
      (e' = e ∨ e.Open ∧ ∃ state, state ≠ .none ∧ e' = { e with state := state })

variable {events events₁ events₂ : Table String Event}

theorem Restates.refl (events : Table String Event) : Restates events events :=
  fun _ => ⟨fun hnone => hnone, fun e he => ⟨e, he, .inl rfl⟩⟩

theorem Restates.trans (h₁ : Restates events events₁) (h₂ : Restates events₁ events₂) :
    Restates events events₂ := by
  intro id
  refine ⟨fun hnone => (h₂ id).1 ((h₁ id).1 hnone), fun e he => ?_⟩
  obtain ⟨e₁, he₁, hc₁⟩ := (h₁ id).2 e he
  obtain ⟨e₂, he₂, hc₂⟩ := (h₂ id).2 e₁ he₁
  refine ⟨e₂, he₂, ?_⟩
  rcases hc₁ with rfl | ⟨hopen, state₁, hstate₁, rfl⟩
  · exact hc₂
  · right
    rcases hc₂ with rfl | ⟨_, state₂, hstate₂, rfl⟩
    · exact ⟨hopen, state₁, hstate₁, rfl⟩
    · exact ⟨hopen, state₂, hstate₂, rfl⟩

theorem Restates.back (h : Restates events events₁) {id : String} {e₁ : Event}
    (he₁ : events₁.get id = some e₁) :
    ∃ e, events.get id = some e ∧
      (e₁ = e ∨ e.Open ∧ ∃ state, state ≠ .none ∧ e₁ = { e with state := state }) := by
  cases hid : events.get id with
  | none =>
    rw [(h id).1 hid] at he₁
    cases he₁
  | some e =>
    obtain ⟨e', he', hc⟩ := (h id).2 e hid
    obtain rfl := Option.some.inj (he₁.symm.trans he')
    exact ⟨e, rfl, hc⟩

theorem Restates.stored (h : Restates events events₁) (hs : Stored events) : Stored events₁ := by
  intro id e₁ he₁
  obtain ⟨e, he, hc⟩ := h.back he₁
  obtain ⟨hid, hstate⟩ := hs id e he
  rcases hc with rfl | ⟨_, state, hstate, rfl⟩
  · exact ⟨hid, hstate⟩
  · exact ⟨hid, hstate⟩

theorem setEventState_restates (state : EventState) (hs : Stored events) {e : Event}
    (hget : events.get e.id = some e) (hopen : e.Open) (hstate : state ≠ .none) :
    Restates events (setEventState events e.id state) ∧
      OthersStay e.roomId events (setEventState events e.id state) := by
  constructor
  · intro id
    rw [get_setEventState]
    by_cases heq : id = e.id
    · subst heq
      rw [if_pos rfl, hget]
      refine ⟨nofun, fun e' he' => ?_⟩
      obtain rfl := Option.some.inj he'
      exact ⟨_, rfl, .inr ⟨hopen, state, hstate, rfl⟩⟩
    · rw [if_neg heq]
      exact ⟨fun hnone => hnone, fun e' he' => ⟨e', he', .inl rfl⟩⟩
  · exact (touches_setEventState e.drainAt hs state hget hstate fun _ => le_rfl).2

theorem OthersStay.trans {room : String} (h₁ : OthersStay room events events₁)
    (h₂ : OthersStay room events₁ events₂) : OthersStay room events events₂ :=
  fun id e hroom => (h₂ id e hroom).trans (h₁ id e hroom)

end Restate

section Tick

variable {now : ℤ} {room : Room} {runtime r' : Runtime} {events events' : Table String Event}
  {drained : String → Runtime → Bool}

/-- The event of `e` is there, in the room `id`, and open. -/
def StaysOpen (events : Table String Event) (id : String) (e : Event) : Prop :=
  ∃ state, e.roomId = id ∧ events.get e.id = some { e with state := state } ∧
    ({ e with state := state } : Event).Open

theorem followPlan_restates (now : ℤ) (room : Room) (runtime : Runtime) (hs : Stored events)
    {active : Option Event} (hactive : firstOpen events room.id = active) :
    Restates events (followPlan now active runtime events).2 ∧
      OthersStay room.id events (followPlan now active runtime events).2 ∧
      ∀ e, active = some e →
        StaysOpen (followPlan now active runtime events).2 room.id e := by
  unfold followPlan
  split
  · exact ⟨.refl _, fun _ _ _ => Iff.rfl, fun _ he => by cases he⟩
  rename_i e
  obtain ⟨hopen, hmem⟩ := firstOpen_eq_some hactive
  obtain ⟨⟨id, hid⟩, hroom⟩ := mem_roomEvents.mp hmem
  obtain rfl := (hs id e hid).1
  have hkept : Restates events events ∧ OthersStay room.id events events ∧
      ∀ e', some e = some e' → StaysOpen events room.id e' := by
    refine ⟨.refl _, fun _ _ _ => Iff.rfl, fun e' he' => ?_⟩
    obtain rfl := Option.some.inj he'
    exact ⟨e.state, hroom, hid, hopen⟩
  split
  · exact hkept
  · rename_i mode state hplan
    obtain ⟨rfl, _⟩ := nextEventMode_eq_some hplan
    split
    · obtain ⟨hrestates, hothers⟩ := setEventState_restates .running hs hid hopen nofun
      refine ⟨hrestates, hroom ▸ hothers, fun e' he' => ?_⟩
      obtain rfl := Option.some.inj he'
      refine ⟨.running, hroom, ?_, nofun, nofun⟩
      rw [get_setEventState, if_pos rfl, hid]
      rfl
    · exact hkept

theorem finishDrain_restates (room : Room) (runtime : Runtime) (hs : Stored events)
    {active : Option Event} (hactive : ∀ e, active = some e → StaysOpen events room.id e) :
    Restates events (finishDrain active runtime events).2 ∧
      OthersStay room.id events (finishDrain active runtime events).2 := by
  unfold finishDrain
  split
  · exact ⟨.refl _, fun _ _ _ => Iff.rfl⟩
  rename_i e
  split
  · exact ⟨.refl _, fun _ _ _ => Iff.rfl⟩
  · obtain ⟨state, hroom, hget, hopen⟩ := hactive e rfl
    rw [← hroom]
    exact setEventState_restates .completed (e := { e with state := state }) hs hget hopen nofun

theorem tickRoom_restates (hs : Stored events)
    (h : tickRoom now drained room runtime events = some (r', events')) :
    Restates events events' ∧ OthersStay room.id events events' := by
  unfold tickRoom at h
  split at h
  · cases h
    exact ⟨.refl _, fun _ _ _ => Iff.rfl⟩
  split at h
  · cases h
  rename_i list hlist
  obtain rfl := readEvents_eq hlist
  dsimp only at h
  obtain ⟨hplan, hothers, hstays⟩ := followPlan_restates now room runtime hs rfl
  unfold firstOpen at hplan hothers hstays
  generalize hp : followPlan now ((roomEvents events room.id).find? fun e => decide e.Open) runtime
    events = planned at h hplan hothers hstays
  generalize hn : (if planned.1.mode = .draining ∧ drained room.id planned.1 = true then
    finishDrain ((roomEvents events room.id).find? fun e => decide e.Open) planned.1 planned.2
      else planned) = next at h
  have hnext : Restates events next.2 ∧ OthersStay room.id events next.2 := by
    rw [← hn]
    split
    · obtain ⟨hrestates, hothers'⟩ :=
        finishDrain_restates room planned.1 (hplan.stored hs) hstays
      exact ⟨hplan.trans hrestates, hothers.trans hothers'⟩
    · exact ⟨hplan, hothers⟩
  split at h
  · cases h
    exact hnext
  · cases h
    exact hnext

/-- The mode of a room while its event `e` runs. -/
def Event.dueMode (e : Event) (now : ℤ) : RoomMode := if e.admitAt ≤ now then .auto else .hold

theorem nextEventMode_of_running {e : Event} (hlive : e.Live) (hbegun : e.prequeueAt ≤ now)
    (hdrain : now < e.drainAt) : nextEventMode e now = (some (e.dueMode now), .running) := by
  have hgo : ¬ (e.state = .pausedByOverride ∨ ¬ e.Open ∨ now < e.prequeueAt) := by
    unfold Event.Open
    rcases hlive with hs | hs
    · simp [hs, hbegun]
    · simp [hs, hbegun]
  unfold nextEventMode Event.dueMode
  rw [if_neg hgo, if_neg (Int.not_le.mpr hdrain)]
  split
  · rfl
  · rfl

theorem tickRoom_due (hs : Stored events) (hactive : room.active = true) {e : Event}
    (hfirst : firstOpen events room.id = some e) (hlive : e.Live) (hbegun : e.prequeueAt ≤ now)
    (hdrain : now < e.drainAt)
    (h : tickRoom now drained room runtime events = some (r', events')) :
    r'.mode = e.dueMode now ∧ r'.eventState = .running ∧
      events'.get e.id = some { e with state := .running } := by
  obtain ⟨_, hmem⟩ := firstOpen_eq_some hfirst
  obtain ⟨⟨id, hid⟩, _⟩ := mem_roomEvents.mp hmem
  obtain rfl := (hs id e hid).1
  unfold tickRoom at h
  rw [if_neg (by simp [hactive])] at h
  split at h
  · cases h
  rename_i list hlist
  obtain rfl := readEvents_eq hlist
  dsimp only at h
  unfold firstOpen at hfirst
  rw [hfirst] at h
  generalize hp : followPlan now (some e) runtime events = planned at h
  have hplanned : planned.1.mode = e.dueMode now ∧ planned.1.eventState = .running ∧
      planned.2.get e.id = some { e with state := .running } := by
    rw [← hp]
    unfold followPlan
    dsimp only
    rw [nextEventMode_of_running hlive hbegun hdrain]
    dsimp only
    split
    · refine ⟨rfl, rfl, ?_⟩
      rw [get_setEventState, if_pos rfl, hid]
      rfl
    · rename_i hsame
      push Not at hsame
      obtain ⟨hmode, hstate, hroom⟩ := hsame
      refine ⟨hmode.symm, hroom, ?_⟩
      rw [← hstate]
      exact hid
  have hmode : ¬ (planned.1.mode = .draining ∧ drained room.id planned.1 = true) := by
    rw [hplanned.1]
    unfold Event.dueMode
    split <;> simp
  rw [if_neg hmode] at h
  split at h
  · cases h
    exact hplanned
  · cases h
    exact hplanned

theorem tickRooms_due {rows : List (Room × RoomRuntime)} {runtimes : List RoomRuntime}
    (hs : Stored events) (hn : (rows.map fun p => p.1.id).Nodup)
    (h : tickRooms now drained rows events = some (runtimes, events')) :
    Restates events events' ∧
      (∀ id e, e.roomId ∉ rows.map (fun p => p.1.id) →
        (events'.get id = some e ↔ events.get id = some e)) ∧
      ∀ p ∈ rows, p.1.active = true → ∀ e, firstOpen events p.1.id = some e → e.Live →
        e.prequeueAt ≤ now → now < e.drainAt →
        events'.get e.id = some { e with state := .running } ∧
          ∃ v, (p.1, v) ∈ (rows.map Prod.fst).zip runtimes ∧
            v.runtime.mode = e.dueMode now ∧ v.runtime.eventState = .running := by
  induction rows generalizing events runtimes with
  | nil =>
    cases h
    exact ⟨.refl _, fun _ _ _ => Iff.rfl, fun p hp => by cases hp⟩
  | cons row rows ih =>
    rw [tickRooms] at h
    split at h
    · cases h
    rename_i r' events₁ hroom
    split at h
    · cases h
    rename_i rest events₂ hrest
    cases h
    rw [List.map_cons] at hn
    obtain ⟨hfresh, hn⟩ := List.nodup_cons.mp hn
    obtain ⟨hrestates, hothers⟩ := tickRoom_restates hs hroom
    obtain ⟨hrestates₂, hothers₂, hdue⟩ := ih (hrestates.stored hs) hn hrest
    refine ⟨hrestates.trans hrestates₂, fun id e hroomId => ?_, fun p hp hactive e hfirst => ?_⟩
    · rw [List.map_cons, List.mem_cons, not_or] at hroomId
      exact (hothers₂ id e hroomId.2).trans (hothers id e hroomId.1)
    · intro hlive hbegun hdrain
      rw [List.map_cons, List.zip_cons_cons]
      rcases List.mem_cons.mp hp with rfl | hp
      · -- the rooms after this one leave its event alone
        obtain ⟨hmode, hstate, hget⟩ := tickRoom_due hs hactive hfirst hlive hbegun hdrain hroom
        have hroomId : e.roomId = p.1.id := (mem_roomEvents.mp (firstOpen_eq_some hfirst).2).2
        refine ⟨(hothers₂ e.id { e with state := .running } ?_).mpr hget, ⟨p.2.roomId, r'⟩,
          List.mem_cons_self, hmode, hstate⟩
        dsimp only
        rw [hroomId]
        exact hfresh
      · have hne : p.1.id ≠ row.1.id := fun heq => hfresh (heq ▸ List.mem_map_of_mem hp)
        have hsame := hothers.roomEvents hs (hrestates.stored hs) hne
        unfold firstOpen at hfirst
        rw [← hsame] at hfirst
        obtain ⟨hget, v, hv, hmode, hstate⟩ := hdue p hp hactive e hfirst hlive hbegun hdrain
        exact ⟨hget, v, List.mem_cons_of_mem _ hv, hmode, hstate⟩

end Tick

section Planned

/-- The rows of the events: each lasts for some time, and no two open ones of a room
overlap. -/
structure Planned (events : Table String Event) : Prop where
  stored : Stored events
  named : ∀ id e, events.get id = some e → id ≠ ""
  ordered : ∀ id e, events.get id = some e → e.prequeueAt < e.drainAt
  apart : ∀ id id' e e', events.get id = some e → events.get id' = some e' → id ≠ id' →
    e.roomId = e'.roomId → e.Open → e'.Open →
      e.drainAt ≤ e'.prequeueAt ∨ e'.drainAt ≤ e.prequeueAt

variable {events events' : Table String Event}

theorem planned_empty : Planned ∅ := by
  have hget : ∀ (id : String) (e : Event), (∅ : Table String Event).get id ≠ some e := by
    intro id e h
    rw [Table.get_empty] at h
    cases h
  exact ⟨fun id e h => absurd h (hget id e), fun id e h => absurd h (hget id e),
    fun id e h => absurd h (hget id e), fun id _ e _ h => absurd h (hget id e)⟩

theorem Planned.restate (hp : Planned events) (h : Restates events events') : Planned events' := by
  -- a row has its times and its room from before, and was open if it is
  have hfrom : ∀ id e', events'.get id = some e' → ∃ e, events.get id = some e ∧
      e'.prequeueAt = e.prequeueAt ∧ e'.drainAt = e.drainAt ∧ e'.roomId = e.roomId ∧
      (e'.Open → e.Open) := by
    intro id e' he'
    obtain ⟨e, he, hc⟩ := h.back he'
    refine ⟨e, he, ?_⟩
    rcases hc with rfl | ⟨hopen, state, _, rfl⟩
    · exact ⟨rfl, rfl, rfl, fun hopen => hopen⟩
    · exact ⟨rfl, rfl, rfl, fun _ => hopen⟩
  refine ⟨h.stored hp.stored, fun id e he => ?_, fun id e he => ?_, ?_⟩
  · obtain ⟨e₀, he₀, _⟩ := hfrom id e he
    exact hp.named id e₀ he₀
  · obtain ⟨e₀, he₀, hfirst, hlast, _⟩ := hfrom id e he
    rw [hfirst, hlast]
    exact hp.ordered id e₀ he₀
  · intro id id' e e' he he' hne hroom hopen hopen'
    obtain ⟨e₀, he₀, hfirst, hlast, hr, ho⟩ := hfrom id e he
    obtain ⟨e₁, he₁, hfirst', hlast', hr', ho'⟩ := hfrom id' e' he'
    rw [hfirst, hlast, hfirst', hlast']
    exact hp.apart id id' e₀ e₁ he₀ he₁ hne (hr ▸ hr' ▸ hroom) (ho hopen) (ho' hopen')

theorem Planned.put (hp : Planned events) {e : Event} (hid : e.id ≠ "") (hstate : e.state ≠ .none)
    (hordered : e.prequeueAt < e.drainAt)
    (hapart : ∀ id' e', events.get id' = some e' → id' ≠ e.id → e'.roomId = e.roomId → e'.Open →
      e.drainAt ≤ e'.prequeueAt ∨ e'.drainAt ≤ e.prequeueAt) : Planned (events.put e.id e) := by
  refine ⟨fun id e' he' => ?_, fun id e' he' => ?_, fun id e' he' => ?_, ?_⟩
  · rw [Table.get_put] at he'
    split at he'
    · rename_i heq
      obtain rfl := Option.some.inj he'
      exact ⟨heq.symm, hstate⟩
    · exact hp.stored id e' he'
  · rw [Table.get_put] at he'
    split at he'
    · rename_i heq
      exact heq ▸ hid
    · exact hp.named id e' he'
  · rw [Table.get_put] at he'
    split at he'
    · obtain rfl := Option.some.inj he'
      exact hordered
    · exact hp.ordered id e' he'
  · intro id id' e₁ e₂ he₁ he₂ hne hroom hopen₁ hopen₂
    rw [Table.get_put] at he₁ he₂
    split at he₁
    · rename_i heq
      obtain rfl := Option.some.inj he₁
      have hne' : id' ≠ e.id := fun heq' => hne (heq.trans heq'.symm)
      rw [if_neg hne'] at he₂
      exact hapart id' e₂ he₂ hne' hroom.symm hopen₂
    · rename_i hne₁
      split at he₂
      · obtain rfl := Option.some.inj he₂
        exact (hapart id e₁ he₁ hne₁ hroom hopen₁).symm
      · exact hp.apart id id' e₁ e₂ he₁ he₂ hne hroom hopen₁ hopen₂

theorem pauseEvents_restates (p : Event → Bool) (events : Table String Event) :
    Restates events (pauseEvents p events) := by
  intro id
  rw [get_pauseEvents]
  refine ⟨fun hnone => by rw [hnone]; rfl, fun e he => ?_⟩
  rw [he]
  refine ⟨_, rfl, ?_⟩
  dsimp only
  split
  · rename_i hc
    right
    refine ⟨?_, .pausedByOverride, nofun, rfl⟩
    unfold Event.Open
    rcases hc.2 with hs | hs
    · simp [hs]
    · simp [hs]
  · exact .inl rfl

/-- What a request for an event asks for: a new state of one that is there, or times
that are free in its room. -/
theorem askedEvent_eq_ok {room : Room} {eventId fresh : String} {method : Method}
    {body : EventBody} {list : List Event} {found : Option Event} {now : ℤ} {next : Event}
    (ha : askedEvent room eventId fresh method body list found now = .ok next) :
    (∃ e state, found = some e ∧ state ≠ .none ∧ next = { e with state := state }) ∨
      ∃ input : EventInput, next = ⟨if eventId = "" then fresh else eventId, room.id,
          input.prequeueAt / 1000, input.admitAt / 1000, input.drainAt / 1000, .scheduled⟩ ∧
        ∀ other ∈ list, other.id ≠ eventId → ¬ other.Overlaps input := by
  unfold askedEvent at ha
  split at ha
  · rename_i e
    split at ha
    · cases ha
      exact .inl ⟨e, .cancelled, rfl, nofun, rfl⟩
    · cases ha
  · rename_i e
    split at ha
    · cases ha
    split at ha
    · cases ha
    split at ha
    · cases ha
    cases ha
    exact .inl ⟨e, .scheduled, rfl, nofun, rfl⟩
  · split at ha
    · cases ha
    split at ha
    · rename_i input
      split at ha
      · cases ha
      split at ha
      · cases ha
      rename_i hfree
      split at ha
      · cases ha
      cases ha
      exact .inr ⟨input, rfl, fun other hother hne hover => hfree ⟨other, hother, hne, hover⟩⟩
    · cases ha

theorem upsertEvent_eq_some {next : Event} (hu : upsertEvent events next = some events') :
    next.id ≠ "" ∧ next.prequeueAt < next.drainAt ∧
      events' = events.put next.id { next with
        roomId := ((events.get next.id).map Event.roomId).getD next.roomId } := by
  unfold upsertEvent at hu
  split at hu
  · cases hu
  rename_i hc
  push Not at hc
  obtain ⟨hsafe, hfirst, hlast⟩ := hc
  refine ⟨fun hid => ?_, hfirst.trans hlast, ?_⟩
  · rw [hid] at hsafe
    exact absurd hsafe.1.1 (by decide)
  · split at hu
    · rename_i hget
      rw [hget]
      exact (Option.some.inj hu).symm
    · rename_i old hget
      rw [hget]
      exact (Option.some.inj hu).symm

theorem apart_of_not_overlaps {other : Event} {input : EventInput} (hopen : other.Open)
    (h : ¬ other.Overlaps input) :
    input.drainAt / 1000 ≤ other.prequeueAt ∨ other.drainAt ≤ input.prequeueAt / 1000 := by
  unfold Event.Overlaps at h
  push Not at h
  have hor := h hopen
  by_cases hlt : other.prequeueAt * 1000 < input.drainAt
  · have hle := hor hlt
    omega
  · omega

end Planned

section History

def Op.creates : Op → Option String
  | .changeEvent _ _ eventId _ _ _ fresh _ => if eventId = "" then some fresh else none
  | _ => none

variable {h : Host} {s₀ s s' : Store} {op : Op} {events : List ControlEvent}

theorem changed_planned {roomId eventId fresh id : String} {method : Method} {body : EventBody}
    {now : ℤ} {room : Room} {runtime : Runtime} {next : Event} {table : Table String Event}
    (hp : Planned s.events) (hfresh : eventId = "" → s.events.get fresh = none)
    (roomOf : if eventId = "" then id = roomId else (s.events.get eventId).map Event.roomId = some id)
    (found : s.delivery.find id = some (room, runtime))
    (notClosed : eventId ≠ "" →
      ((roomEvents s.events id).find? fun e => e.id == eventId).any (fun e => decide e.Open) = true)
    (asked : askedEvent room eventId fresh method body (roomEvents s.events id)
      ((roomEvents s.events id).find? fun e => e.id == eventId) now = .ok next)
    (upserted : upsertEvent s.events next = some table) : Planned table := by
  obtain ⟨hid, hordered, rfl⟩ := upsertEvent_eq_some upserted
  obtain rfl := (Delivery.find_eq_some found).1
  rcases askedEvent_eq_ok asked with ⟨e, state, hfind, hstate, rfl⟩ | ⟨input, rfl, hfree⟩
  · -- the event is there, and open unless it has no name
    have hmem := List.mem_of_find?_eq_some hfind
    obtain ⟨⟨i, hi⟩, hroom⟩ := mem_roomEvents.mp hmem
    obtain rfl := (hp.stored i e hi).1
    have heq : e.id = eventId := by simpa using List.find?_some hfind
    have hopen : e.Open := by
      have hc := notClosed (heq ▸ hid)
      rw [hfind] at hc
      exact of_decide_eq_true hc
    refine hp.restate fun id' => ?_
    rw [Table.get_put]
    by_cases hid' : id' = e.id
    · subst hid'
      rw [if_pos rfl, hi]
      refine ⟨fun hnone => (by cases hnone), fun e' he' => ?_⟩
      obtain rfl := Option.some.inj he'
      exact ⟨_, rfl, .inr ⟨hopen, state, hstate, rfl⟩⟩
    · rw [if_neg hid']
      exact ⟨fun hnone => hnone, fun e' he' => ⟨e', he', .inl rfl⟩⟩
  · -- the room of the row is the one whose events were looked at
    dsimp only at hid hordered ⊢
    generalize hkey : (if eventId = "" then fresh else eventId) = key at hid ⊢
    have hroom : ((s.events.get key).map Event.roomId).getD room.id = room.id := by
      rw [← hkey]
      split
      · rename_i hnew
        rw [hfresh hnew]
        rfl
      · rename_i hold
        rw [if_neg hold] at roomOf
        rw [roomOf]
        rfl
    rw [hroom]
    refine hp.put (e := ⟨key, room.id, _, _, _, _⟩) hid (by simp) hordered
      fun id' e' he' hne hr ho => ?_
    have hmem : e' ∈ roomEvents s.events room.id := mem_roomEvents.mpr ⟨⟨id', he'⟩, hr⟩
    refine apart_of_not_overlaps ho (hfree e' hmem ?_)
    rw [(hp.stored id' e' he').1]
    intro heq
    by_cases hnew : eventId = ""
    · exact hp.named id' e' he' (heq.trans hnew)
    · rw [if_neg hnew] at hkey
      exact hne (heq.trans hkey)

theorem Does.planned (hw : Wellformed h s) (hp : Planned s.events)
    (hfresh : ∀ id ∈ op.creates, s.events.get id = none) (hd : Does h s op s') :
    Planned s'.events := by
  cases hd with
  | nothing | drafted | acknowledged => exact hp
  | published keeps next signed =>
    obtain ⟨_, _, _, _, rfl⟩ := sign_eq_ok signed
    exact hp
  | renewed signed | recovered signed =>
    obtain ⟨_, _, _, _, rfl⟩ := sign_eq_ok signed
    exact hp
  | epoch signed =>
    obtain ⟨_, _, _, _, rfl⟩ := sign_eq_ok signed
    exact hp.restate (pauseEvents_restates _ _)
  | operated found active applied signed =>
    obtain ⟨_, _, _, _, rfl⟩ := sign_eq_ok signed
    exact hp.restate (pauseEvents_restates _ _)
  | eventChanged roomOf found notClosed asked upserted signed =>
    obtain ⟨_, _, _, _, rfl⟩ := sign_eq_ok signed
    exact changed_planned hp (fun hnew => hfresh _ (if_pos hnew)) roomOf found notClosed asked upserted
  | ticked rooms =>
    exact hp.restate (tickRooms_due hp.stored hw.delivery.ids_nodup rooms).1
  | moved rooms signed =>
    obtain ⟨_, _, _, _, rfl⟩ := sign_eq_ok signed
    exact hp.restate (tickRooms_due hp.stored hw.delivery.ids_nodup rooms).1

theorem planned_of_run (hi : Installed h s₀) (hr : ControlRun h s₀ events s)
    (hfresh : ∀ e ∈ events, ∀ id ∈ e.input.creates, e.before.events.get id = none) :
    Planned s.events := by
  induction hr with
  | nil =>
    rw [hi.events]
    exact planned_empty
  | @snoc events s op hr _ ih =>
    have hp := ih fun e he => hfresh e (List.mem_append_left _ he)
    have hw := (steady_of_run hi hr).toWellformed
    refine (exec_does hw op).planned hw hp ?_
    exact hfresh (eventOf (exec h) s op) (List.mem_append_right _ List.mem_cons_self)

theorem tick_eq_done {svc : Service} {now viewed : ℤ} (hw : Wellformed h s)
    (hdone : (tick h svc s now viewed).1 = .done) :
    ∃ runtimes, tickRooms now (fun room runtime =>
        decide (SafeDrain s s.generation viewed room runtime)) s.delivery.rows s.events =
          some (runtimes, (tick h svc s now viewed).2.events) ∧
      (tick h svc s now viewed).2.delivery = { s.delivery with runtimes := runtimes } := by
  unfold tick at hdone ⊢
  split at hdone
  · cases hdone
  split at hdone
  · cases hdone
  rename_i d generation hread
  obtain ⟨rfl, rfl⟩ := readDelivery_eq hw.delivery hread
  dsimp only at hdone ⊢
  split at hdone
  · cases hdone
  rename_i runtimes table hrooms
  split at hdone
  · rename_i hsame
    rw [if_pos hsame]
    refine ⟨s.delivery.runtimes, ?_, rfl⟩
    rw [← hsame]
    exact hrooms
  · rename_i hmoved
    rw [if_neg hmoved]
    split at hdone
    · cases hdone
    · rename_i s' hsign
      obtain ⟨_, _, _, _, rfl⟩ := sign_eq_ok hsign
      exact ⟨runtimes, hrooms, rfl⟩

/-- The event is past its drain time and has not been completed yet. -/
def Event.Draining (e : Event) (now : ℤ) : Prop := e.Live ∧ e.drainAt ≤ now

/-- An event that runs at the time `now` is the first open one of its room, unless an
earlier one is draining or paused. -/
theorem Planned.firstOpen_eq {table : Table String Event} (hp : Planned table) {id : String}
    {ev : Event} {now : ℤ} (hget : table.get id = some ev) (hlive : ev.Live)
    (hbegun : ev.prequeueAt ≤ now) (hdrain : now < ev.drainAt)
    (hearlier : ∀ id' ev', table.get id' = some ev' → ev'.roomId = ev.roomId →
      ev'.prequeueAt < ev.prequeueAt → ¬ ev'.Draining now ∧ ev'.state ≠ .pausedByOverride) :
    firstOpen table ev.roomId = some ev := by
  have hopen : ev.Open := by
    unfold Event.Open
    rcases hlive with hs | hs
    · simp [hs]
    · simp [hs]
  have hmem : ev ∈ roomEvents table ev.roomId := mem_roomEvents.mpr ⟨⟨id, hget⟩, rfl⟩
  cases hfirst : firstOpen table ev.roomId with
  | none =>
    have hnone := List.find?_eq_none.mp hfirst ev hmem
    simp [hopen] at hnone
  | some f =>
    obtain ⟨hopen', hmem'⟩ := firstOpen_eq_some hfirst
    obtain ⟨⟨id', hget'⟩, hroom'⟩ := mem_roomEvents.mp hmem'
    by_cases hid : id' = id
    · subst hid
      rw [hget] at hget'
      rw [Option.some.inj hget']
    · -- the first open event is over before this one begins
      exfalso
      have hle := firstOpen_le hfirst hmem hopen
      have hordered := hp.ordered id' f hget'
      have hover : f.drainAt ≤ ev.prequeueAt := by
        rcases hp.apart id' id f ev hget' hget hid hroom' hopen' hopen with hle' | hle'
        · exact hle'
        · omega
      obtain ⟨hnot, hpaused⟩ := hearlier id' f hget' hroom' (by omega)
      apply hnot
      refine ⟨?_, by omega⟩
      unfold Event.Live
      unfold Event.Open at hopen'
      have hstate := (hp.stored id' f hget').2
      cases hs : f.state with
      | scheduled => exact .inl rfl
      | running => exact .inr rfl
      | none => exact absurd hs hstate
      | pausedByOverride => exact absurd hs hpaused
      | cancelled => exact absurd hs hopen'.1
      | completed => exact absurd hs hopen'.2

/-- The open events of a room never overlap, and an event takes effect at every tick
between its beginning and its drain time, unless an earlier event of its room is still
draining or is paused. -/
theorem events_take_effect (hi : Installed h s₀) (hr : ControlRun h s₀ events s)
    (hfresh : ∀ e ∈ events, ∀ id ∈ e.input.creates, e.before.events.get id = none) :
    Planned s.events ∧
      ∀ e ∈ events, ∀ svc now viewed, e.input = .tick svc now viewed → e.output = .done →
        ∀ p ∈ e.before.delivery.rows, p.1.active = true →
        ∀ id ev, e.before.events.get id = some ev → ev.roomId = p.1.id → ev.Live →
          ev.prequeueAt ≤ now → now < ev.drainAt →
          (∀ id' ev', e.before.events.get id' = some ev' → ev'.roomId = ev.roomId →
            ev'.prequeueAt < ev.prequeueAt →
              ¬ ev'.Draining now ∧ ev'.state ≠ .pausedByOverride) →
          e.after.events.get id = some { ev with state := .running } ∧
            ∃ v, (p.1, v) ∈ e.after.delivery.rows ∧ v.runtime.mode = ev.dueMode now ∧
              v.runtime.eventState = .running := by
  refine ⟨planned_of_run hi hr hfresh, ?_⟩
  intro e he svc now viewed hinput houtput p hp hactive id ev hget hroom hlive hbegun hdrain hearlier
  obtain ⟨h₁, h₂, rfl, hbefore, _, heq, _⟩ := Run.split hr he
  have hw := (steady_of_run hi hbefore).toWellformed
  have hplanned := planned_of_run hi hbefore fun e he => hfresh e (List.mem_append_left _ he)
  obtain rfl := (hplanned.stored id ev hget).1
  have hfirst := hplanned.firstOpen_eq hget hlive hbegun hdrain hearlier
  rw [hinput] at heq
  have hout : (tick h svc e.before now viewed).1 = .done := by
    rw [← houtput, heq]
    rfl
  have hafter : e.after = (tick h svc e.before now viewed).2 := by
    rw [heq]
    rfl
  obtain ⟨runtimes, hrooms, hdelivery⟩ := tick_eq_done hw hout
  obtain ⟨_, _, hdue⟩ := tickRooms_due hplanned.stored hw.delivery.ids_nodup hrooms
  rw [hroom] at hfirst
  obtain ⟨hrow, v, hv, hmode, hstate⟩ := hdue p hp hactive ev hfirst hlive hbegun hdrain
  rw [hw.delivery.rows_map_fst] at hv
  rw [hafter, hdelivery]
  exact ⟨hrow, v, hv, hmode, hstate⟩

end History

section Sample

/-- An event after `laterEvent`. -/
def lastEvent (state : EventState) : Event :=
  ⟨"last", "shop", 400000000, 500000000, 600000000, state⟩

def lastInput : EventInput := ⟨400000000000, 500000000000, 600000000000⟩

def heldRuntime (revision : ℤ) (state : EventState) : Runtime :=
  { initialRuntime sampleRoom with revision := revision, eventState := state }

def pausedStore : Store :=
  heldStore.shopSigned (heldRuntime 3 .pausedByOverride)
    (pauseEvents (fun e => e.roomId == "shop") heldStore.events) 4000000

def busyStore : Store :=
  pausedStore.shopSigned (heldRuntime 4 .pausedByOverride)
    (pausedStore.events.put "last" (lastEvent .scheduled)) 5000000

def shopHold : Op := shopOperate .hold (heldRuntime 2 .scheduled) 4000000

def shopPlanLast : Op := shopPlan lastInput "last" (heldRuntime 3 .pausedByOverride) 5000000

theorem shop_holds : (exec sampleHost heldStore shopHold).2 = pausedStore := by
  have h := shop_operates heldStore (heldRuntime 2 .scheduled) (heldRuntime 3 .pausedByOverride)
    4000000 rfl rfl rfl (by decide) (by decide) (by decide) (by decide) (by decide) .hold nofun rfl
    (by decide)
  exact h

theorem shop_plans_last : (exec sampleHost pausedStore shopPlanLast).2 = busyStore := by
  have hupsert : upsertEvent pausedStore.events (lastEvent .scheduled) = some busyStore.events :=
    if_neg (by decide)
  have h := shop_plans pausedStore (heldRuntime 3 .pausedByOverride) (heldRuntime 4 .pausedByOverride)
    5000000 rfl rfl rfl (by decide) (by decide) (by decide) (by decide) (by decide) lastInput "last"
    (by decide) (by decide) (by decide) hupsert (by decide) (by decide)
  exact h

theorem tickRoom_of_paused {now : ℤ} {drained : String → Runtime → Bool} {room : Room}
    {runtime : Runtime} {events : Table String Event} {e : Event}
    (hlist : (roomEvents events room.id).length ≤ 1000)
    (hfirst : firstOpen events room.id = some e) (hstate : e.state = .pausedByOverride)
    (hmode : runtime.mode ≠ .draining) :
    tickRoom now drained room runtime events = some (runtime, events) := by
  have hplan : followPlan now (firstOpen events room.id) runtime events = (runtime, events) := by
    rw [hfirst]
    unfold followPlan nextEventMode
    dsimp only
    rw [if_pos (.inl hstate)]
  by_cases hactive : room.active = true
  · rw [tickRoom_of_active now drained room runtime events hlist hactive hplan
      (if_neg fun hdone => hmode hdone.1)]
    exact if_pos rfl
  · unfold tickRoom
    exact if_pos (Bool.eq_false_of_not_eq_true hactive)

theorem tick_of_same {h : Host} {svc : Service} {s : Store} {now viewed : ℤ} {c : Config}
    {d : Delivery} {generation : Nat} {events : Table String Event}
    (hread : readConfig h s = some c) (hdelivery : readDelivery h s = some (d, generation))
    (hrooms : tickRooms now (fun room runtime => decide (SafeDrain s generation viewed room runtime))
      d.rows s.events = some (d.runtimes, events)) :
    tick h svc s now viewed = (.done, { s with events := events }) := by
  unfold tick
  rw [hread]
  dsimp only
  rw [hdelivery]
  dsimp only
  rw [hrooms]
  exact if_pos rfl

theorem shop_ticks_paused : exec sampleHost busyStore (shopTick 550000000) = (.done, busyStore) := by
  have hread : readConfig sampleHost busyStore = some shopConfig := shop_readConfig rfl rfl
  have hdelivery : readDelivery sampleHost busyStore =
      some (shopDelivery (heldRuntime 4 .pausedByOverride), 4) := shop_readDelivery rfl (by decide)
  have hfirst : firstOpen busyStore.events sampleRoom.id = some (laterEvent .pausedByOverride) := by
    decide
  show tick sampleHost sampleService busyStore 550000000 550000000 = _
  refine tick_of_same hread hdelivery ?_
  change tickRooms _ _ [(sampleRoom, (⟨"shop", heldRuntime 4 .pausedByOverride⟩ : RoomRuntime))] _ = _
  rw [tickRooms, tickRoom_of_paused (by decide) hfirst rfl (by decide)]
  rfl

def pausedOps : List Op :=
  [shopDraft, shopPublish, shopPlanHeld, shopHold, shopPlanLast, shopTick 550000000]

theorem pausedOps_events : eventsOf (exec sampleHost) sampleStore pausedOps =
    [eventOf (exec sampleHost) sampleStore shopDraft,
      eventOf (exec sampleHost) shopDrafted shopPublish,
      eventOf (exec sampleHost) shopStore shopPlanHeld, eventOf (exec sampleHost) heldStore shopHold,
      eventOf (exec sampleHost) pausedStore shopPlanLast,
      eventOf (exec sampleHost) busyStore (shopTick 550000000)] := by
  rw [pausedOps, eventsOf, eventsOf, eventsOf, eventsOf, eventsOf, eventsOf, eventsOf, shop_drafts,
    shop_publishes, shop_plans_held, shop_holds, shop_plans_last]

theorem pausedOps_run :
    ControlRun sampleHost sampleStore (eventsOf (exec sampleHost) sampleStore pausedOps)
      (stateAfter (exec sampleHost) sampleStore pausedOps) := run_of_inputs _ fun _ _ _ => trivial

theorem pausedOps_fresh : ∀ e ∈ eventsOf (exec sampleHost) sampleStore pausedOps,
    ∀ id ∈ e.input.creates, e.before.events.get id = none := by
  rw [pausedOps_events]
  intro e he id hid
  simp only [List.mem_cons, List.not_mem_nil, or_false] at he
  rcases he with rfl | rfl | rfl | rfl | rfl | rfl
  · cases hid
  · cases hid
  · obtain rfl := Option.some.inj (show some "event" = some id from hid)
    rfl
  · cases hid
  · obtain rfl := Option.some.inj (show some "last" = some id from hid)
    exact (show pausedStore.events.get "last" = none by decide)
  · cases hid

/-- The second event runs by its times, but neither it nor its room is moved. -/
theorem paused_event_blocks_later :
    ∃ events s, ControlRun sampleHost sampleStore events s ∧
      (∀ e ∈ events, ∀ id ∈ e.input.creates, e.before.events.get id = none) ∧
      ∃ e ∈ events, ∃ svc now viewed ev, e.input = .tick svc now viewed ∧ e.output = .done ∧
        e.before.delivery.rows = [(sampleRoom, ⟨"shop", heldRuntime 4 .pausedByOverride⟩)] ∧
        e.before.events.get "last" = some ev ∧ ev.roomId = sampleRoom.id ∧ ev.Live ∧
        ev.prequeueAt ≤ now ∧ now < ev.drainAt ∧
        (∀ id' ev', e.before.events.get id' = some ev' → ¬ ev'.Draining now) ∧
        e.after = e.before ∧ ev.dueMode now = .auto ∧ ev.state = .scheduled ∧
        (heldRuntime 4 .pausedByOverride).mode = .hold := by
  refine ⟨_, _, pausedOps_run, pausedOps_fresh, eventOf (exec sampleHost) busyStore
    (shopTick 550000000), by rw [pausedOps_events]; simp, sampleService, 550000000, 550000000,
    lastEvent .scheduled, rfl, ?_, rfl, ?_, rfl, .inl rfl, by decide, by decide, ?_, ?_, by decide,
    rfl, rfl⟩
  · rw [eventOf, shop_ticks_paused]
  · exact (show busyStore.events.get "last" = some (lastEvent .scheduled) by decide)
  · -- the two events are not draining
    intro id' ev' hget hdraining
    have hrows : ∀ row ∈ busyStore.events.rows, ¬ (row.2.Live ∧ row.2.drainAt ≤ 550000000) := by
      decide
    exact hrows (id', ev') (Table.mem_rows.mpr hget) hdraining
  · rw [eventOf, shop_ticks_paused]

/-- An event after `lastEvent`. -/
def farEvent : Event := ⟨"far", "shop", 700000000, 800000000, 900000000, .scheduled⟩

def farInput : EventInput := ⟨700000000000, 800000000000, 900000000000⟩

def offRuntime (revision : ℤ) (state : EventState) : Runtime :=
  { initialRuntime sampleRoom with mode := .off, revision := revision, eventState := state }

def againStore : Store :=
  finishedStore.shopSigned (offRuntime 5 .scheduled)
    (finishedStore.events.put "last" (lastEvent .scheduled)) 300000003

def mixedStore : Store :=
  againStore.shopSigned (offRuntime 6 .scheduled) (againStore.events.put "far" farEvent) 300000004

def shopPlanAgain : Op := shopPlan lastInput "last" (offRuntime 4 .none) 300000003

def shopPlanFar : Op := shopPlan farInput "far" (offRuntime 5 .scheduled) 300000004

theorem shop_plans_again : (exec sampleHost finishedStore shopPlanAgain).2 = againStore := by
  have hupsert : upsertEvent finishedStore.events (lastEvent .scheduled) = some againStore.events :=
    if_neg (by decide)
  have h := shop_plans finishedStore (offRuntime 4 .none) (offRuntime 5 .scheduled) 300000003 rfl rfl
    rfl (by decide) (by decide) (by decide) (by decide) (by decide) lastInput "last" (by decide)
    (by decide) (by decide) hupsert (by decide) (by decide)
  exact h

theorem shop_plans_far : (exec sampleHost againStore shopPlanFar).2 = mixedStore := by
  have hupsert : upsertEvent againStore.events farEvent = some mixedStore.events :=
    if_neg (by decide)
  have h := shop_plans againStore (offRuntime 5 .scheduled) (offRuntime 6 .scheduled) 300000004 rfl
    rfl rfl (by decide) (by decide) (by decide) (by decide) (by decide) farInput "far" (by decide)
    (by decide) (by decide) hupsert (by decide) (by decide)
  exact h

theorem shop_ticks_mixed : exec sampleHost mixedStore (shopTick 550000000) =
    (.done, mixedStore.shopSigned { offRuntime 7 .running with mode := .auto }
      (setEventState mixedStore.events "last" .running) 550000000) := by
  have hroom := tickRoom_of_due 550000000
    (fun room runtime => decide (SafeDrain mixedStore 6 550000000 room runtime)) sampleRoom
    (offRuntime 6 .scheduled) mixedStore.events (by decide) (lastEvent .scheduled) .auto rfl
    (by decide) (by decide) (by decide) (by decide)
  exact shop_ticks mixedStore (offRuntime 6 .scheduled) _ 550000000 rfl rfl rfl (by decide)
    (by decide) (by decide) (by decide) (by decide) hroom (by decide)

def mixedOps : List Op :=
  finishedOps ++ [shopPlanAgain, shopPlanFar, shopTick 550000000]

theorem mixedOps_events : eventsOf (exec sampleHost) sampleStore mixedOps =
    eventsOf (exec sampleHost) sampleStore finishedOps ++
      [eventOf (exec sampleHost) finishedStore shopPlanAgain,
        eventOf (exec sampleHost) againStore shopPlanFar,
        eventOf (exec sampleHost) mixedStore (shopTick 550000000)] := by
  rw [mixedOps, eventsOf_append, finishedOps_after, eventsOf, eventsOf, eventsOf, eventsOf,
    shop_plans_again, shop_plans_far]

/-- The second event takes effect, between a completed one and one that is yet to begin. -/
theorem mixedOps_take_effect :
    mixedStore.events.get "event" = some (laterEvent .completed) ∧
      mixedStore.events.get "last" = some (lastEvent .scheduled) ∧
      mixedStore.events.get "far" = some farEvent ∧
      (exec sampleHost mixedStore (shopTick 550000000)).2.events.get "last" =
        some (lastEvent .running) ∧
      ∃ v, (sampleRoom, v) ∈ (exec sampleHost mixedStore (shopTick 550000000)).2.delivery.rows ∧
        v.runtime.mode = .auto ∧ v.runtime.eventState = .running := by
  have hr : ControlRun sampleHost sampleStore (eventsOf (exec sampleHost) sampleStore mixedOps)
      (stateAfter (exec sampleHost) sampleStore mixedOps) := run_of_inputs _ fun _ _ _ => trivial
  have hfresh : ∀ e ∈ eventsOf (exec sampleHost) sampleStore mixedOps,
      ∀ id ∈ e.input.creates, e.before.events.get id = none := by
    rw [mixedOps_events, finishedOps_events]
    intro e he id hid
    simp only [List.mem_append, List.mem_cons, List.not_mem_nil, or_false] at he
    rcases he with (rfl | rfl | rfl | rfl | rfl | rfl | rfl) | rfl | rfl | rfl
    · cases hid
    · cases hid
    · obtain rfl := Option.some.inj (show some "event" = some id from hid)
      rfl
    · cases hid
    · cases hid
    · cases hid
    · cases hid
    · obtain rfl := Option.some.inj (show some "last" = some id from hid)
      exact (show finishedStore.events.get "last" = none by decide)
    · obtain rfl := Option.some.inj (show some "far" = some id from hid)
      exact (show againStore.events.get "far" = none by decide)
    · cases hid
  have hget : mixedStore.events.get "last" = some (lastEvent .scheduled) := by decide
  -- the completed event is the only one before it
  have hrows : ∀ row ∈ mixedStore.events.rows, row.2.prequeueAt < 400000000 →
      ¬ row.2.Live ∧ row.2.state ≠ .pausedByOverride := by decide
  obtain ⟨hrunning, v, hv, hmode, hstate⟩ := (events_take_effect sampleStore_installed hr hfresh).2
    (eventOf (exec sampleHost) mixedStore (shopTick 550000000)) (by rw [mixedOps_events]; simp)
    sampleService 550000000 550000000 rfl (by rw [eventOf, shop_ticks_mixed])
    (sampleRoom, ⟨"shop", offRuntime 6 .scheduled⟩) List.mem_cons_self rfl "last"
    (lastEvent .scheduled) hget rfl (.inl rfl) (by decide) (by decide) fun id' ev' hget' _ hlt => by
      obtain ⟨hlive, hpaused⟩ := hrows (id', ev') (Table.mem_rows.mpr hget') hlt
      exact ⟨fun hdraining => hlive hdraining.1, hpaused⟩
  rw [eventOf_after] at hrunning hv
  exact ⟨by decide, hget, by decide, hrunning, v, hv, hmode.trans (by decide), hstate⟩

end Sample

end WaitingRoom.Control
