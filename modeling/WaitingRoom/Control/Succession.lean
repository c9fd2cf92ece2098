import WaitingRoom.Control.Budget
import WaitingRoom.Trust.History

/-!
# How deliveries follow one another

A committed delivery comes from the one before it by a publication of the draft, by
moves of single runtimes or by a new epoch of all of them. A later delivery extends
an earlier one: its rooms are still there under their public ids, and revisions and
epochs do not go back. A room whose runtime revision did not grow is unchanged.
-/

namespace WaitingRoom.Control

set_option autoImplicit false

open Doc
open Queue (RoomMode)

section Zip

variable {A B : Type} {R : B → B → Prop} {k : List A} {l l' : List B}

theorem mem_zip_of_forall₂_left (h : List.Forall₂ R l l') {p : A × B} (hp : p ∈ k.zip l) :
    ∃ b, (p.1, b) ∈ k.zip l' ∧ R p.2 b := by
  induction h generalizing k with
  | nil => simp at hp
  | @cons b b' l l' hr _ ih =>
    cases k with
    | nil => simp at hp
    | cons a k =>
      rw [List.zip_cons_cons] at hp ⊢
      rcases List.mem_cons.mp hp with rfl | hp
      · exact ⟨b', List.mem_cons_self, hr⟩
      · obtain ⟨c, hc, hrc⟩ := ih hp
        exact ⟨c, List.mem_cons_of_mem _ hc, hrc⟩

theorem exists_mem_zip {S : A → B → Prop} (h : List.Forall₂ S k l) {a : A} (ha : a ∈ k) :
    ∃ b, (a, b) ∈ k.zip l ∧ S a b := by
  induction h with
  | nil => simp at ha
  | @cons a' b k l hs _ ih =>
    rw [List.zip_cons_cons]
    rcases List.mem_cons.mp ha with rfl | ha
    · exact ⟨b, List.mem_cons_self, hs⟩
    · obtain ⟨c, hc, hsc⟩ := ih ha
      exact ⟨c, List.mem_cons_of_mem _ hc, hsc⟩

theorem forall₂_zipWith_right {f : A → B → B} (hf : ∀ a b, R b (f a b)) (hl : k.length = l.length) :
    List.Forall₂ R l (List.zipWith f k l) := by
  induction k generalizing l with
  | nil =>
    cases l with
    | nil => exact .nil
    | cons => cases hl
  | cons a k ih =>
    cases l with
    | nil => cases hl
    | cons b l => exact .cons (hf a b) (ih (Nat.succ.inj hl))

theorem mem_zip_of_forall₂_right (h : List.Forall₂ R l l') {p : A × B} (hp : p ∈ k.zip l') :
    ∃ b, (p.1, b) ∈ k.zip l ∧ R b p.2 := mem_zip_of_forall₂_left h.flip hp

end Zip

section Moves

structure Moves (r r' : Runtime) : Prop where
  revision : r'.revision = r.revision + 1
  epoch : r'.epoch = r.epoch
  recoveryUntil : r'.recoveryUntil = r.recoveryUntil
  mode : r'.mode = r.mode ∨ r'.mode ≠ .recoveryHold

def Patched (v v' : RoomRuntime) : Prop := v' = v ∨ v'.roomId = v.roomId ∧ Moves v.runtime v'.runtime

variable {x : Library} {d : Delivery}

theorem Delivery.Valid.exists_row (h : d.Valid x) {v : RoomRuntime} (hv : v ∈ d.runtimes) :
    ∃ p ∈ d.rows, p.2 = v := by
  rw [← h.rows_map_snd] at hv
  obtain ⟨p, hp, rfl⟩ := List.mem_map.mp hv
  exact ⟨p, hp, rfl⟩

theorem Delivery.Valid.exists_row_of_room (h : d.Valid x) {r : Room} (hr : r ∈ d.config.rooms) :
    ∃ p ∈ d.rows, p.1 = r := by
  rw [← h.rows_map_fst] at hr
  obtain ⟨p, hp, rfl⟩ := List.mem_map.mp hr
  exact ⟨p, hp, rfl⟩

theorem Delivery.Valid.runtime_of_find (h : d.Valid x) {id : String} {room : Room}
    {runtime : Runtime} (hf : d.find id = some (room, runtime)) {v : RoomRuntime}
    (hv : v ∈ d.runtimes) (hid : v.roomId = id) : v.runtime = runtime := by
  obtain ⟨p, hp, rfl⟩ := h.exists_row hv
  have hrow := h.find_of_mem hp
  rw [← (h.aligned hp).1, hid, hf] at hrow
  exact (Prod.mk.inj (Option.some.inj hrow)).2.symm

theorem patched_setRuntime (h : d.Valid x) {id : String} {room : Room} {runtime next : Runtime}
    (hf : d.find id = some (room, runtime)) (hm : Moves runtime next) :
    List.Forall₂ Patched d.runtimes (d.setRuntime id next).runtimes := by
  unfold Delivery.setRuntime
  dsimp only
  rw [List.forall₂_map_right_iff, List.forall₂_same]
  intro v hv
  split
  · rename_i hid
    right
    exact ⟨rfl, by rw [h.runtime_of_find hf hv hid]; exact hm⟩
  · exact .inl rfl

theorem apply_runtime {profile : String} {runtime next : Runtime} {limits : Option Limits}
    {action : Action} (h : action.apply profile runtime limits = .ok next) :
    next.revision = runtime.revision ∧ next.epoch = runtime.epoch ∧
      next.recoveryUntil = runtime.recoveryUntil ∧
        (next.mode = runtime.mode ∨ next.mode ≠ .recoveryHold) := by
  cases action with
  | newEpoch | other => cases h
  | instantOff | auto | hold | safeDrain =>
    obtain rfl := Except.ok.inj h
    exact ⟨rfl, rfl, rfl, .inr (by simp)⟩
  | setLimits =>
    cases limits with
    | none => cases h
    | some l =>
      dsimp only [Action.apply] at h
      split at h
      · obtain rfl := Except.ok.inj h
        exact ⟨rfl, rfl, rfl, .inl rfl⟩
      · cases h

end Moves

section Tick

variable {now : ℤ} {active : Option Event} {runtime : Runtime} {events : Table String Event}

/-- `Tick` rewrites the mode and the event state of a runtime. -/
structure Retimed (r r' : Runtime) : Prop where
  revision : r'.revision = r.revision
  epoch : r'.epoch = r.epoch
  recoveryUntil : r'.recoveryUntil = r.recoveryUntil
  limits : r'.limits = r.limits
  mode : r'.mode = r.mode ∨ r'.mode ≠ .recoveryHold

theorem Retimed.refl (r : Runtime) : Retimed r r := ⟨rfl, rfl, rfl, rfl, .inl rfl⟩

theorem nextEventMode_ne {e : Event} {mode : RoomMode} {state : EventState}
    (h : nextEventMode e now = (some mode, state)) :
    mode ≠ .recoveryHold ∧ mode ≠ .off ∧ state = .running := by
  unfold nextEventMode at h
  split at h
  · cases h
  · split at h
    · cases h
      exact ⟨nofun, nofun, rfl⟩
    · split at h
      · cases h
        exact ⟨nofun, nofun, rfl⟩
      · cases h
        exact ⟨nofun, nofun, rfl⟩

theorem followPlan_retimed : Retimed runtime (followPlan now active runtime events).1 := by
  unfold followPlan
  split
  · exact .refl _
  split
  · exact .refl _
  rename_i hplan
  split
  · exact ⟨rfl, rfl, rfl, rfl, .inr (nextEventMode_ne hplan).1⟩
  · exact .refl _

theorem finishDrain_retimed : Retimed runtime (finishDrain active runtime events).1 := by
  unfold finishDrain
  split
  · exact ⟨rfl, rfl, rfl, rfl, .inr (by simp)⟩
  · split
    · exact ⟨rfl, rfl, rfl, rfl, .inr (by simp)⟩
    · exact ⟨rfl, rfl, rfl, rfl, .inr (by simp)⟩

theorem Retimed.trans {r₁ r₂ r₃ : Runtime} (h₁ : Retimed r₁ r₂) (h₂ : Retimed r₂ r₃) :
    Retimed r₁ r₃ := by
  refine ⟨h₂.revision.trans h₁.revision, h₂.epoch.trans h₁.epoch,
    h₂.recoveryUntil.trans h₁.recoveryUntil, h₂.limits.trans h₁.limits, ?_⟩
  rcases h₂.mode with heq | hne
  · rw [heq]
    exact h₁.mode
  · exact .inr hne

theorem tickRoom_moves {drained : String → Runtime → Bool} {room : Room} {r' : Runtime}
    {events' : Table String Event}
    (h : tickRoom now drained room runtime events = some (r', events')) :
    r' = runtime ∨ Moves runtime r' := by
  unfold tickRoom at h
  split at h
  · exact .inl (Prod.mk.inj (Option.some.inj h)).1.symm
  split at h
  · cases h
  rename_i list _
  dsimp only at h
  generalize hp : followPlan now (list.find? fun e => decide e.Open) runtime events = planned at h
  have hplanned : Retimed runtime planned.1 := hp ▸ followPlan_retimed
  generalize hn : (if planned.1.mode = .draining ∧ drained room.id planned.1 = true then
    finishDrain (list.find? fun e => decide e.Open) planned.1 planned.2 else planned) = next at h
  have hnext : Retimed runtime next.1 := by
    rw [← hn]
    split
    · exact hplanned.trans finishDrain_retimed
    · exact hplanned
  split at h
  · rename_i heq
    exact .inl ((Prod.mk.inj (Option.some.inj h)).1.symm.trans heq)
  · right
    rw [← (Prod.mk.inj (Option.some.inj h)).1]
    exact ⟨by rw [← hnext.revision], hnext.epoch, hnext.recoveryUntil, hnext.mode⟩

theorem tickRooms_patched {drained : String → Runtime → Bool} {rows : List (Room × RoomRuntime)}
    {runtimes : List RoomRuntime} {events' : Table String Event}
    (h : tickRooms now drained rows events = some (runtimes, events')) :
    List.Forall₂ Patched (rows.map Prod.snd) runtimes := by
  induction rows generalizing events runtimes events' with
  | nil =>
    obtain ⟨rfl, _⟩ := Prod.mk.inj (Option.some.inj h)
    exact .nil
  | cons row rows ih =>
    rw [tickRooms] at h
    split at h
    · cases h
    · rename_i r' events₁ hroom
      split at h
      · cases h
      · rename_i rest events₂ hrest
        obtain ⟨rfl, _⟩ := Prod.mk.inj (Option.some.inj h)
        refine .cons ?_ (ih hrest)
        rcases tickRoom_moves hroom with rfl | hm
        · exact .inl rfl
        · exact .inr ⟨rfl, hm⟩

end Tick

section Publish

variable {previous : Delivery}

theorem nextRuntimes_forall₂ {rooms : List Room} {runtimes : List RoomRuntime}
    (h : nextRuntimes previous rooms = some runtimes) :
    List.Forall₂ (fun room v => v.roomId = room.id ∧ nextRuntime previous room = some v.runtime)
      rooms runtimes := by
  induction rooms generalizing runtimes with
  | nil =>
    obtain rfl := Option.some.inj h
    exact .nil
  | cons room rooms ih =>
    rw [nextRuntimes] at h
    split at h
    · rename_i hroom hrest
      obtain rfl := Option.some.inj h
      exact .cons ⟨rfl, hroom⟩ (ih hrest)
    · cases h

theorem keepsRooms_eq_none {rooms olds : List Room} (h : keepsRooms rooms olds = none) :
    ∀ old ∈ olds, ∃ room ∈ rooms, room.id = old.id ∧ room.publicId = old.publicId := by
  induction olds with
  | nil => simp
  | cons old olds ih =>
    rw [keepsRooms] at h
    split at h
    · cases h
    · rename_i hpublic
      split at h
      · rename_i hfound
        intro old' hold'
        rcases List.mem_cons.mp hold' with rfl | hold'
        · obtain ⟨room, hroom, hid⟩ := hfound
          refine ⟨room, hroom, hid, ?_⟩
          by_contra hne
          exact hpublic ⟨room, hroom, hid, hne⟩
        · exact ih h old' hold'
      · cases h

structure SameRoute (r r' : Room) : Prop where
  origin : r'.origin = r.origin
  hostname : r'.hostname = r.hostname
  queuePolicy : r'.queuePolicy = r.queuePolicy
  protectPrefixes : r'.protectPrefixes = r.protectPrefixes
  excludePrefixes : r'.excludePrefixes = r.excludePrefixes

theorem SameRoute.refl (r : Room) : SameRoute r r := ⟨rfl, rfl, rfl, rfl, rfl⟩

theorem nextRuntime_of_find {room old : Room} {prior runtime : Runtime}
    (hf : previous.find room.id = some (old, prior))
    (h : nextRuntime previous room = some runtime) :
    Moves prior runtime ∧ (prior.mode ≠ .off → SameRoute old room) := by
  unfold nextRuntime at h
  rw [hf] at h
  dsimp only at h
  split at h
  · cases h
  · rename_i hguard
    obtain rfl := Option.some.inj h
    constructor
    · refine ⟨rfl, rfl, rfl, ?_⟩
      dsimp only
      split
      · exact .inr nofun
      · split
        · exact .inr nofun
        · exact .inl rfl
    · intro hoff
      push Not at hguard
      obtain ⟨_, horigin, hhost, hpolicy, hprotect, hexclude⟩ := hguard hoff
      exact ⟨horigin.symm, hhost.symm, hpolicy.symm, hprotect.symm, hexclude.symm⟩

def Delivery.current (d : Delivery) : Nat × ℤ :=
  match d.runtimes with
  | [] => (1, 0)
  | first :: _ => (first.runtime.epoch, first.runtime.recoveryUntil)

theorem nextRuntime_of_none {room : Room} {runtime : Runtime}
    (hf : previous.find room.id = none) (h : nextRuntime previous room = some runtime) :
    runtime.mode ≠ .recoveryHold ∧ (runtime.epoch, runtime.recoveryUntil) = previous.current := by
  have hmode : (initialRuntime room).mode ≠ .recoveryHold := by
    unfold initialRuntime
    cases room.active <;> nofun
  unfold nextRuntime at h
  unfold Delivery.current
  rw [hf] at h
  dsimp only at h
  cases hr : previous.runtimes with
  | nil =>
    rw [hr] at h
    obtain rfl := Option.some.inj h
    exact ⟨hmode, rfl⟩
  | cons first rest =>
    rw [hr] at h
    obtain rfl := Option.some.inj h
    exact ⟨hmode, rfl⟩

end Publish

section Change

inductive Change (s : Store) : Delivery → Prop
  | published {runtimes : List RoomRuntime}
      (keeps : keepsRooms s.config.rooms s.delivery.config.rooms = none)
      (next : nextRuntimes s.delivery s.config.rooms = some runtimes) : Change s ⟨s.config, runtimes⟩
  | patched {runtimes : List RoomRuntime}
      (rows : List.Forall₂ Patched s.delivery.runtimes runtimes) :
      Change s { s.delivery with runtimes := runtimes }
  | epoch (recoveryUntil : ℤ) : Change s (s.delivery.nextEpoch recoveryUntil)

structure Keeps (s s' : Store) : Prop where
  delivery : s'.delivery = s.delivery
  generation : s'.generation = s.generation
  published : s'.published = s.published

structure Commits (h : Host) (s s' : Store) : Prop where
  change : Change s s'.delivery
  valid : s'.delivery.Valid h.library
  generation : s'.generation = s.generation + 1
  config : s'.config = s.config

theorem patched_refl (vs : List RoomRuntime) : List.Forall₂ Patched vs vs :=
  List.forall₂_same.mpr fun _ _ => .inl rfl

variable {h : Host} {svc : Service} {s s' : Store} {op : Op}

theorem commits_of_sign {events : Table String Event} {d : Delivery} {now : ℤ}
    (hs : sign h svc { s with events := events } d s.generation now = .ok s') (hc : Change s d) :
    Commits h s s' := by
  obtain ⟨hd, _, _, _, rfl⟩ := sign_eq_ok hs
  exact ⟨hc, hd, rfl, rfl⟩

theorem Does.keeps_or_commits (hw : Wellformed h s) (hd : Does h s op s') :
    Keeps s s' ∨ Commits h s s' := by
  cases hd with
  | nothing | drafted | ticked | acknowledged => exact .inl ⟨rfl, rfl, rfl⟩
  | published keeps next signed => exact .inr (commits_of_sign signed (.published keeps next))
  | epoch signed => exact .inr (commits_of_sign signed (.epoch _))
  | operated found active applied signed =>
    obtain ⟨hrev, hepoch, huntil, hmode⟩ := apply_runtime applied
    refine .inr (commits_of_sign signed (.patched (patched_setRuntime hw.delivery found ?_)))
    exact ⟨congrArg (· + 1) hrev, hepoch, huntil, hmode⟩
  | eventChanged roomOf found notClosed asked upserted signed =>
    refine .inr (commits_of_sign signed (.patched (patched_setRuntime hw.delivery found ?_)))
    exact ⟨rfl, rfl, rfl, .inl rfl⟩
  | moved rooms signed =>
    have hp := tickRooms_patched rooms
    rw [hw.delivery.rows_map_snd] at hp
    exact .inr (commits_of_sign signed (.patched hp))
  | renewed signed => exact .inr (commits_of_sign signed (.patched (patched_refl _)))
  | recovered signed => exact .inr (commits_of_sign signed (.patched (patched_refl _)))

end Change

section Extends

/-- A room of the delivery `d` in the later delivery `d'`. -/
structure RowExtends (d d' : Delivery) (p p' : Room × RoomRuntime) : Prop where
  id : p'.1.id = p.1.id
  publicId : p'.1.publicId = p.1.publicId
  revision : p.2.runtime.revision ≤ p'.2.runtime.revision
  epoch : p.2.runtime.epoch ≤ p'.2.runtime.epoch
  same : p'.2.runtime.revision = p.2.runtime.revision →
    p' = p ∧ d'.config.revision = d.config.revision

/-- The delivery `d'` carries on every room of `d`. -/
structure Extends (d d' : Delivery) : Prop where
  revision : d.config.revision ≤ d'.config.revision
  profile : d'.config.profile = d.config.profile
  rows : ∀ p ∈ d.rows, ∃ p' ∈ d'.rows, RowExtends d d' p p'

theorem Extends.refl (d : Delivery) : Extends d d :=
  ⟨le_rfl, rfl, fun p hp => ⟨p, hp, rfl, rfl, le_rfl, le_rfl, fun _ => ⟨rfl, rfl⟩⟩⟩

theorem Extends.trans {d₁ d₂ d₃ : Delivery} (h₁ : Extends d₁ d₂) (h₂ : Extends d₂ d₃) :
    Extends d₁ d₃ := by
  refine ⟨h₁.revision.trans h₂.revision, h₂.profile.trans h₁.profile, fun p hp => ?_⟩
  obtain ⟨q, hq, e₁⟩ := h₁.rows p hp
  obtain ⟨r, hr, e₂⟩ := h₂.rows q hq
  refine ⟨r, hr, e₂.id.trans e₁.id, e₂.publicId.trans e₁.publicId, e₁.revision.trans e₂.revision,
    e₁.epoch.trans e₂.epoch, fun heq => ?_⟩
  have hle := e₂.revision
  rw [heq] at hle
  have hq₁ := le_antisymm hle e₁.revision
  obtain ⟨rfl, hc₁⟩ := e₁.same hq₁
  obtain ⟨rfl, hc₂⟩ := e₂.same heq
  exact ⟨rfl, hc₂.trans hc₁⟩

/-- The settings of a room that is not OFF are those of the next delivery. -/
def Guarded (d d' : Delivery) : Prop :=
  ∀ p ∈ d.rows, ∀ p' ∈ d'.rows, p'.1.id = p.1.id → p.2.runtime.mode ≠ .off → SameRoute p.1 p'.1

theorem rowExtends_of_moves {d d' : Delivery} {p p' : Room × RoomRuntime} (hid : p'.1.id = p.1.id)
    (hpublic : p'.1.publicId = p.1.publicId)
    (hrev : p'.2.runtime.revision = p.2.runtime.revision + 1)
    (hepoch : p.2.runtime.epoch ≤ p'.2.runtime.epoch) : RowExtends d d' p p' :=
  ⟨hid, hpublic, by omega, hepoch, fun heq => by omega⟩

variable {h : Host} {s s' : Store}

theorem nextEpoch_runtimes (hd : s.delivery.Valid h.library) (recoveryUntil : ℤ) :
    List.Forall₂ (fun v v' => v'.runtime.revision = v.runtime.revision + 1 ∧
        v'.runtime.epoch = v.runtime.epoch + 1 ∧ v'.runtime.recoveryUntil = recoveryUntil ∧
        v'.runtime.mode ≠ .recoveryHold)
      s.delivery.runtimes (s.delivery.nextEpoch recoveryUntil).runtimes := by
  refine forall₂_zipWith_right (fun room v => ⟨rfl, rfl, rfl, ?_⟩) hd.length
  unfold epochRuntime
  cases room.active <;> nofun

theorem Change.row (hw : Wellformed h s) {d : Delivery} (hc : Change s d)
    {p : Room × RoomRuntime} (hp : p ∈ s.delivery.rows) :
    ∃ p' ∈ d.rows, RowExtends s.delivery d p p' ∧
      (p.2.runtime.mode ≠ .off → SameRoute p.1 p'.1) := by
  cases hc with
  | published keeps next =>
    have hroom : p.1 ∈ s.delivery.config.rooms := by
      rw [← hw.delivery.rows_map_fst]
      exact List.mem_map_of_mem hp
    obtain ⟨room, hmem, hid, hpublic⟩ := keepsRooms_eq_none keeps p.1 hroom
    obtain ⟨v, hv, _, hnext⟩ := exists_mem_zip (nextRuntimes_forall₂ next) hmem
    have hf := hw.delivery.find_of_mem hp
    rw [← hid] at hf
    obtain ⟨hm, hroute⟩ := nextRuntime_of_find hf hnext
    exact ⟨(room, v), hv, rowExtends_of_moves hid hpublic hm.revision hm.epoch.ge, hroute⟩
  | patched rows =>
    obtain ⟨v, hv, rfl | ⟨_, hm⟩⟩ := mem_zip_of_forall₂_left rows hp
    · exact ⟨p, hv, ⟨rfl, rfl, le_rfl, le_rfl, fun _ => ⟨rfl, rfl⟩⟩, fun _ => .refl _⟩
    · exact ⟨(p.1, v), hv, rowExtends_of_moves rfl rfl hm.revision hm.epoch.ge, fun _ => .refl _⟩
  | epoch recoveryUntil =>
    obtain ⟨v, hv, hrev, hepoch, _⟩ :=
      mem_zip_of_forall₂_left (nextEpoch_runtimes hw.delivery recoveryUntil) hp
    refine ⟨(p.1, v), hv, rowExtends_of_moves rfl rfl hrev ?_, fun _ => .refl _⟩
    rw [hepoch]
    exact Nat.le_succ _

theorem Commits.guarded (hw : Wellformed h s) (hc : Commits h s s') :
    Guarded s.delivery s'.delivery := by
  intro p hp p' hp' hid hmode
  obtain ⟨q, hq, hext, hroute⟩ := hc.change.row hw hp
  rw [hc.valid.rows_inj hp' hq (hid.trans hext.id.symm)]
  exact hroute hmode

end Extends

section Steady

def Delivery.Uniform (d : Delivery) : Prop :=
  ∀ v ∈ d.runtimes, (v.runtime.epoch, v.runtime.recoveryUntil) = d.current

theorem Delivery.uniform_of {d : Delivery} {c : Nat × ℤ}
    (hc : ∀ v ∈ d.runtimes, (v.runtime.epoch, v.runtime.recoveryUntil) = c) : d.Uniform := by
  intro v hv
  rw [hc v hv]
  unfold Delivery.current
  cases hr : d.runtimes with
  | nil => simp [hr] at hv
  | cons first rest => exact (hc first (by rw [hr]; exact List.mem_cons_self)).symm

structure Steady (h : Host) (s : Store) : Prop extends Wellformed h s where
  revision : s.revision = s.config.revision
  profile : s.delivery.config.profile = s.config.profile
  behind : s.delivery.config.revision ≤ s.config.revision
  uniform : s.delivery.Uniform
  modes : ∀ v ∈ s.delivery.runtimes, v.runtime.mode ≠ .recoveryHold

variable {h : Host} {s s' : Store} {op : Op}

theorem Commits.extends (hs : Steady h s) (hc : Commits h s s') :
    Extends s.delivery s'.delivery := by
  have hrows : ∀ p ∈ s.delivery.rows, ∃ p' ∈ s'.delivery.rows,
      RowExtends s.delivery s'.delivery p p' := by
    intro p hp
    obtain ⟨p', hp', hext, _⟩ := hc.change.row hs.toWellformed hp
    exact ⟨p', hp', hext⟩
  obtain ⟨change, _⟩ := hc
  generalize s'.delivery = d at change hrows
  cases change with
  | published => exact ⟨hs.behind, hs.profile.symm, hrows⟩
  | patched => exact ⟨le_rfl, rfl, hrows⟩
  | epoch => exact ⟨le_rfl, rfl, hrows⟩

theorem Change.runtimes (hs : Steady h s) {d : Delivery} (hc : Change s d) :
    d.Uniform ∧ ∀ v ∈ d.runtimes, v.runtime.mode ≠ .recoveryHold := by
  -- a runtime that stays in its epoch has the pair of all the old ones
  have hstays : ∀ v ∈ s.delivery.runtimes, ∀ r, r = v.runtime ∨ Moves v.runtime r →
      (r.epoch, r.recoveryUntil) = s.delivery.current ∧ r.mode ≠ .recoveryHold := by
    intro v hv r hr
    rcases hr with rfl | hm
    · exact ⟨hs.uniform v hv, hs.modes v hv⟩
    · rw [hm.epoch, hm.recoveryUntil]
      refine ⟨hs.uniform v hv, ?_⟩
      rcases hm.mode with heq | hne
      · rw [heq]
        exact hs.modes v hv
      · exact hne
  cases hc with
  | @published runtimes keeps next =>
    have hall : ∀ v ∈ runtimes, (v.runtime.epoch, v.runtime.recoveryUntil) = s.delivery.current ∧
        v.runtime.mode ≠ .recoveryHold := by
      intro v hv
      obtain ⟨room, _, _, hnext⟩ := exists_mem_zip (nextRuntimes_forall₂ next).flip hv
      cases hf : s.delivery.find room.id with
      | none => exact (nextRuntime_of_none hf hnext).symm
      | some found =>
        obtain ⟨old, prior⟩ := found
        obtain ⟨_, roomId, hrow⟩ := Delivery.find_eq_some hf
        have hmem : (⟨roomId, prior⟩ : RoomRuntime) ∈ s.delivery.runtimes := by
          rw [← hs.delivery.rows_map_snd]
          exact List.mem_map_of_mem hrow
        exact hstays _ hmem _ (.inr (nextRuntime_of_find hf hnext).1)
    exact ⟨Delivery.uniform_of fun v hv => (hall v hv).1, fun v hv => (hall v hv).2⟩
  | @patched runtimes rows =>
    have hall : ∀ v ∈ runtimes, (v.runtime.epoch, v.runtime.recoveryUntil) = s.delivery.current ∧
        v.runtime.mode ≠ .recoveryHold := by
      intro v hv
      obtain ⟨w, hw, hp⟩ := exists_mem_zip rows.flip hv
      refine hstays w (List.of_mem_zip hw).2 v.runtime ?_
      rcases hp with rfl | ⟨_, hm⟩
      · exact .inl rfl
      · exact .inr hm
    exact ⟨Delivery.uniform_of fun v hv => (hall v hv).1, fun v hv => (hall v hv).2⟩
  | epoch recoveryUntil =>
    have hall : ∀ v ∈ (s.delivery.nextEpoch recoveryUntil).runtimes,
        (v.runtime.epoch, v.runtime.recoveryUntil) = (s.delivery.current.1 + 1, recoveryUntil) ∧
          v.runtime.mode ≠ .recoveryHold := by
      intro v hv
      obtain ⟨w, hw, _, hepoch, huntil, hmode⟩ :=
        exists_mem_zip (nextEpoch_runtimes hs.delivery recoveryUntil).flip hv
      have hpair := hs.uniform w (List.of_mem_zip hw).2
      rw [hepoch, huntil, ← hpair]
      exact ⟨rfl, hmode⟩
    exact ⟨Delivery.uniform_of fun v hv => (hall v hv).1, fun v hv => (hall v hv).2⟩

theorem Does.draft (hd : Does h s op s') :
    (s'.config = s.config ∧ s'.revision = s.revision) ∨
      (s'.config.Valid h.library ∧ s'.config.FitsDeliveryBudget ∧
        s'.config.revision = s.config.revision + 1 ∧ s'.config.profile = s.config.profile ∧
        s'.revision = s'.config.revision ∧ s'.delivery = s.delivery) := by
  cases hd with
  | nothing | ticked | acknowledged => exact .inl ⟨rfl, rfl⟩
  | drafted valid fits next profile bytes => exact .inr ⟨valid, fits, next, profile, rfl, rfl⟩
  | published keeps next signed =>
    obtain ⟨_, _, _, _, rfl⟩ := sign_eq_ok signed
    exact .inl ⟨rfl, rfl⟩
  | epoch signed | renewed signed | recovered signed =>
    obtain ⟨_, _, _, _, rfl⟩ := sign_eq_ok signed
    exact .inl ⟨rfl, rfl⟩
  | operated found active applied signed =>
    obtain ⟨_, _, _, _, rfl⟩ := sign_eq_ok signed
    exact .inl ⟨rfl, rfl⟩
  | eventChanged roomOf found notClosed asked upserted signed =>
    obtain ⟨_, _, _, _, rfl⟩ := sign_eq_ok signed
    exact .inl ⟨rfl, rfl⟩
  | moved rooms signed =>
    obtain ⟨_, _, _, _, rfl⟩ := sign_eq_ok signed
    exact .inl ⟨rfl, rfl⟩

theorem Installed.steady (hi : Installed h s) : Steady h s where
  config := hi.config
  delivery := ⟨hi.delivered, by rw [hi.deliveredRooms, hi.runtimes]; exact .nil⟩
  revision := hi.revision
  profile := hi.profile
  behind := hi.le
  uniform := by intro v hv; rw [hi.runtimes] at hv; cases hv
  modes := by intro v hv; rw [hi.runtimes] at hv; cases hv

theorem Steady.step (hs : Steady h s) (op : Op) : Steady h (exec h s op).2 := by
  have hd := exec_does hs.toWellformed op
  generalize (exec h s op).2 = s' at hd
  rcases hd.draft with ⟨hconfig, hrev⟩ | ⟨hvalid, _, hnext, hprofile, hrev, hdelivery⟩
  · rcases hd.keeps_or_commits hs.toWellformed with hk | hc
    · refine ⟨⟨?_, ?_⟩, ?_, ?_, ?_, ?_, ?_⟩
      · rw [hconfig]; exact hs.config
      · rw [hk.delivery]; exact hs.delivery
      · rw [hrev, hconfig]; exact hs.revision
      · rw [hk.delivery, hconfig]; exact hs.profile
      · rw [hk.delivery, hconfig]; exact hs.behind
      · rw [hk.delivery]; exact hs.uniform
      · rw [hk.delivery]; exact hs.modes
    · obtain ⟨huniform, hmodes⟩ := hc.change.runtimes hs
      have hext := hc.extends hs
      have hbehind : s'.delivery.config.revision ≤ s.config.revision := by
        obtain ⟨change, _⟩ := hc
        generalize s'.delivery = d at change
        cases change with
        | published => exact le_rfl
        | patched => exact hs.behind
        | epoch => exact hs.behind
      refine ⟨⟨?_, hc.valid⟩, ?_, ?_, ?_, huniform, hmodes⟩
      · rw [hconfig]; exact hs.config
      · rw [hrev, hconfig]; exact hs.revision
      · rw [hext.profile, hconfig]; exact hs.profile
      · rw [hconfig]; exact hbehind
  · refine ⟨⟨hvalid, ?_⟩, hrev, ?_, ?_, ?_, ?_⟩
    · rw [hdelivery]; exact hs.delivery
    · rw [hdelivery, hprofile]; exact hs.profile
    · rw [hdelivery, hnext]
      have := hs.behind
      omega
    · rw [hdelivery]; exact hs.uniform
    · rw [hdelivery]; exact hs.modes

end Steady

section History

variable {h : Host} {s₀ s : Store} {events : List ControlEvent}

theorem steady_of_run (hi : Installed h s₀) (hr : ControlRun h s₀ events s) : Steady h s :=
  Run.invariant hr hi.steady fun _ op hs _ => hs.step op

theorem extends_of_run (hs : Steady h s₀) (hr : ControlRun h s₀ events s) :
    Extends s₀.delivery s.delivery := by
  have hboth : Steady h s ∧ Extends s₀.delivery s.delivery := by
    refine Run.invariant hr (I := fun s => Steady h s ∧ Extends s₀.delivery s.delivery)
      ⟨hs, .refl _⟩ ?_
    intro s op ⟨hsteady, hext⟩ _
    refine ⟨hsteady.step op, hext.trans ?_⟩
    rcases (exec_does hsteady.toWellformed op).keeps_or_commits hsteady.toWellformed with hk | hc
    · rw [hk.delivery]
      exact .refl _
    · exact hc.extends hsteady
  exact hboth.2

/-- One epoch and one recovery time for all rooms, a runtime for every room, and
inactive rooms OFF. -/
structure Coherent (d : Delivery) : Prop where
  epochs : ∀ v ∈ d.runtimes, ∀ w ∈ d.runtimes, v.runtime.epoch = w.runtime.epoch
  recoveries : ∀ v ∈ d.runtimes, ∀ w ∈ d.runtimes,
    v.runtime.recoveryUntil = w.runtime.recoveryUntil
  aligned : List.Forall₂ (fun room v => v.roomId = room.id) d.config.rooms d.runtimes
  inactive : ∀ p ∈ d.rows, p.1.active = false → p.2.runtime.mode = .off

theorem Steady.coherent (hs : Steady h s) : Coherent s.delivery where
  epochs := fun v hv w hw =>
    congrArg Prod.fst ((hs.uniform v hv).trans (hs.uniform w hw).symm)
  recoveries := fun v hv w hw =>
    congrArg Prod.snd ((hs.uniform v hv).trans (hs.uniform w hw).symm)
  aligned := hs.delivery.2.imp fun _ _ ha => ha.1
  inactive := fun _ hp => (hs.delivery.aligned hp).2.2

/-- Every delivery that Control commits is coherent and carries on the one before it,
with the next generation; the settings of a room that is not OFF do not change. A new
epoch never meets rooms of different epochs. -/
theorem deliveries_succeed (hi : Installed h s₀) (hr : ControlRun h s₀ events s) :
    (∀ e ∈ events, Coherent e.after.delivery ∧
      (Keeps e.before e.after ∨
        e.after.generation = e.before.generation + 1 ∧
          Extends e.before.delivery e.after.delivery ∧
          Guarded e.before.delivery e.after.delivery)) ∧
      (events.Pairwise fun e e' => Extends e.after.delivery e'.after.delivery) ∧
      ∀ d g id room runtime, readDelivery h s = some (d, g) → d.find id = some (room, runtime) →
        ¬ d.MixedEpochs runtime.epoch := by
  refine ⟨fun e he => ?_, ?_, fun d g id room runtime hread hfound => ?_⟩
  · obtain ⟨h₁, h₂, _, hbefore, _, heq, _⟩ := Run.split hr he
    have hs := steady_of_run hi hbefore
    have hafter : e.after = (exec h e.before e.input).2 := by
      rw [heq]
      rfl
    rw [hafter]
    refine ⟨(hs.step e.input).coherent, ?_⟩
    rcases (exec_does hs.toWellformed e.input).keeps_or_commits hs.toWellformed with hk | hc
    · exact .inl hk
    · exact .inr ⟨hc.generation, hc.extends hs, hc.guarded hs.toWellformed⟩
  · refine Run.pairwise hr fun events s op hrun _ e he => ?_
    obtain ⟨h₁, h₂, rfl, hbefore, _, heq, hrest⟩ := Run.split hrun he
    have hs := steady_of_run hi hbefore
    have hsteady : Steady h e.after := by
      rw [heq]
      exact hs.step e.input
    exact extends_of_run hsteady (hrest.snoc op trivial)
  · have hs := steady_of_run hi hr
    obtain ⟨rfl, _⟩ := readDelivery_eq hs.delivery hread
    obtain ⟨_, roomId, hrow⟩ := Delivery.find_eq_some hfound
    rintro ⟨v, hv, hne⟩
    exact hne (hs.coherent.epochs v hv ⟨roomId, runtime⟩ (List.of_mem_zip hrow).2)

end History

section Sample

def sampleLibrary : Library where
  parseURL := fun raw =>
    if raw = "https://origin.test" then
      some { scheme := "https", hostname := "origin.test", host := "origin.test" }
    else if raw = "https://origin.test/health" then
      some { scheme := "https", hostname := "origin.test", host := "origin.test", path := "/health" }
    else none
  logoBytes := fun logo => logo == ""
  sanitizeLogo := fun logo => if logo = "" then some "" else none

def sampleHost : Host where
  library := sampleLibrary
  trust := { Trust.samplePlatform with
    encodeSnapshot := fun s => some [.ofNat s.generation, .ofNat s.issuedAt.toNat] }
  order := id
  order_perm := fun _ => .refl _

def sampleService : Service where
  kid := "key"
  key := List.replicate 64 7
  installation := "site"

def sampleRoom : Room where
  id := "shop"
  publicId := "aaaaaaaaaaaaaaaaaaaa"
  name := "Shop"
  hostname := "shop.test"
  origin := "https://origin.test"
  healthURL := "https://origin.test/health"
  protectPrefixes := ["/"]
  excludePrefixes := []
  queuePolicy := ⟨"fifo", 300, 3600, 60⟩
  limits := ⟨10, 60, 300⟩
  theme := ⟨"calm", "", "", "#000000", "en", false, ""⟩
  active := true

def sampleConfig : Config := ⟨1, 0, "standard-10k", "local", []⟩

def sampleStore : Store where
  revision := 0
  config := sampleConfig
  delivery := ⟨sampleConfig, []⟩

theorem sampleStore_installed : Installed sampleHost sampleStore where
  config := by decide
  rooms := rfl
  revision := rfl
  delivered := by decide
  runtimes := rfl
  deliveredRooms := rfl
  profile := rfl
  le := le_rfl
  published := rfl
  events := rfl
  nodes := fun _ => rfl

def shopConfig : Config := ⟨1, 1, "standard-10k", "local", [sampleRoom]⟩

/-- The delivery of the room with the runtime `r`. -/
def shopDelivery (r : Runtime) : Delivery := ⟨shopConfig, [⟨"shop", r⟩]⟩

theorem shopConfig_valid : shopConfig.Valid sampleLibrary := by decide

theorem shopConfig_size : size compact shopConfig.worstDelivery.toDoc + 438 ≤ maxConfigBytes ∧
    size compact shopConfig.worstDelivery.toDoc +
      shopConfig.worstDelivery.toDoc.separators ≤ maxConfigBytes := by decide +kernel

theorem shopConfig_fits : shopConfig.FitsDeliveryBudget := fits_of_size shopConfig_size.1

theorem shopDelivery_valid {r : Runtime} (hr : r.Valid "standard-10k") :
    (shopDelivery r).Valid sampleLibrary :=
  ⟨shopConfig_valid, .cons ⟨rfl, hr, nofun⟩ .nil⟩

variable {s : Store} {r : Runtime}

theorem shop_readConfig (hc : s.config = shopConfig) (hrev : s.revision = 1) :
    readConfig sampleHost s = some shopConfig := by
  rw [← hc]
  refine readConfig_of_size ?_ ?_ ?_ <;> rw [hc]
  · exact shopConfig_valid
  · exact hrev
  · exact size_spaced_config shopConfig_valid shopConfig_fits

theorem shopDelivery_size (hr : r.Valid "standard-10k") :
    size spaced (shopDelivery r).toDoc ≤ maxConfigBytes :=
  calc size spaced (shopDelivery r).toDoc ≤ size spaced shopConfig.worstDelivery.toDoc :=
        size_delivery_le (.inr rfl) (shopDelivery_valid hr)
    _ ≤ maxConfigBytes := le_trans (size_spaced_le _) shopConfig_size.2

theorem shop_readDelivery (hd : s.delivery = shopDelivery r) (hr : r.Valid "standard-10k") :
    readDelivery sampleHost s = some (shopDelivery r, s.generation) := by
  rw [← hd]
  refine readDelivery_of_size ?_ ?_ <;> rw [hd]
  · exact shopDelivery_valid hr
  · exact shopDelivery_size hr

def shopEnvelope (g : Nat) (now : ℤ) : Published :=
  ⟨[.ofNat (g + 1), .ofNat (unix now).toNat], "key", now, now + day⟩

theorem shop_sign {g : Nat} {now : ℤ} (hr : r.Valid "standard-10k") (hg : g < 1000)
    (hnow : 1000000 ≤ now) (hlater : now ≤ 1000000000000) :
    sign sampleHost sampleService s (shopDelivery r) g now = .ok { s with
      delivery := shopDelivery r, generation := g + 1, published := some (shopEnvelope g now) } := by
  have hv := shopDelivery_valid hr
  have hg' : (g + 1 : ℤ) < maxInteger := by unfold maxInteger; omega
  have hs : (snapshotOf sampleService (shopDelivery r) g now).Structural sampleHost.trust :=
    snapshotOf_structural hv (by decide) (by decide) hg' (by unfold unix; omega)
      (by unfold unix; omega) rfl
  have hraw : Trust.sign sampleHost.trust sampleService.key
      (snapshotOf sampleService (shopDelivery r) g now) =
        some [.ofNat (g + 1), .ofNat (unix now).toNat] := by
    unfold Trust.sign
    rw [if_neg (by push Not; exact ⟨rfl, hs⟩)]
    exact if_neg (show ¬ 65536 < 2 by decide)
  exact sign_of_trust hv hg' hraw (Nat.succ_pos _) (show 2 ≤ 65536 by decide)

def shopDraft : Op := .replaceDraft (configETag 0) (some { shopConfig with revision := 0 })

def shopPublish : Op := .publish sampleService .post "\x7b\x7d" (configETag 1) 1000000

def shopStore : Store where
  revision := 1
  config := shopConfig
  delivery := shopDelivery (initialRuntime sampleRoom)
  generation := 1
  published := some (shopEnvelope 0 1000000)

def shopDrafted : Store := { sampleStore with config := shopConfig, revision := 1 }

theorem shop_drafts : exec sampleHost sampleStore shopDraft = (.saved shopConfig, shopDrafted) := by
  have hread : readConfig sampleHost sampleStore = some sampleConfig :=
    readConfig_of_size sampleStore_installed.config rfl
      (size_empty_config sampleStore_installed.config rfl)
  have hvalid : ({ shopConfig with revision := 0 } : Config).Valid sampleLibrary :=
    shopConfig_valid.withRevision (by decide) (by decide)
  have hsaved := replaceDraft_of hread hvalid shopConfig_fits rfl rfl rfl rfl (by decide)
  exact hsaved

theorem shop_publishes : exec sampleHost shopDrafted shopPublish = (.pending 1 1, shopStore) := by
  have hconfig : readConfig sampleHost shopDrafted = some shopConfig := shop_readConfig rfl rfl
  have hsize : size spaced (⟨sampleConfig, []⟩ : Delivery).toDoc ≤ maxConfigBytes := by
    decide
  have hdelivery : readDelivery sampleHost shopDrafted = some (⟨sampleConfig, []⟩, 0) :=
    readDelivery_of_size sampleStore_installed.steady.delivery hsize
  have hnext : nextRuntimes ⟨sampleConfig, []⟩ shopConfig.rooms =
      some [⟨"shop", initialRuntime sampleRoom⟩] := rfl
  have hsign : sign sampleHost sampleService shopDrafted
      (shopDelivery (initialRuntime sampleRoom)) 0 1000000 = .ok shopStore :=
    shop_sign (by decide) (by decide) (by decide) (by decide)
  have hpublished := publish_of hconfig hdelivery rfl hnext hsign
  exact hpublished

def sampleOps : List Op :=
  [shopDraft, shopPublish,
    .operate sampleService "shop" .patch (some ⟨.auto, none, "", none⟩) "\"runtime-1\"" 2000000,
    .operate sampleService "shop" .patch (some ⟨.newEpoch, none, "installation", some 2⟩)
      "\"runtime-2\"" 3000000]

theorem sampleOps_succeed :
    (exec sampleHost (exec sampleHost sampleStore shopDraft).2 shopPublish).2 = shopStore ∧
      ∀ e ∈ eventsOf (exec sampleHost) sampleStore sampleOps, Coherent e.after.delivery := by
  refine ⟨by rw [shop_drafts, shop_publishes], fun e he => ?_⟩
  have hr : ControlRun sampleHost sampleStore (eventsOf (exec sampleHost) sampleStore sampleOps)
      (stateAfter (exec sampleHost) sampleStore sampleOps) := run_of_inputs _ fun _ _ _ => trivial
  exact ((deliveries_succeed sampleStore_installed hr).1 e he).1

end Sample

end WaitingRoom.Control
