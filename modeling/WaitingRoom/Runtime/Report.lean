import WaitingRoom.Control.Succession
import WaitingRoom.Queue.Migration
import WaitingRoom.Queue.Move
import WaitingRoom.Runtime.Recovery

/-!
# Recovery reports

A coordinator reports to Control the reason of a hold and the error of its
validation, as the last answer of the library had them. The library writes
these codes and Control keeps a list of those it accepts. The rows of the rooms
may hold anything here, and any upkeep and migration may come in any order.
-/

namespace WaitingRoom.Runtime

open Queue
open Control (RoomMetrics NodeAck Acceptable acknowledge)

set_option autoImplicit false

section Codes

def reasonText : Option RecoveryReason → String
  | none => ""
  | some .epochReset => "epoch_reset"
  | some .initializationUncertainty => "initialization_uncertainty"
  | some .primaryChanged => "primary_changed"
  | some .clockRollback => "clock_rollback"
  | some .uncertainWrite => "uncertain_write"
  | some .stateUncertain => "state_uncertain"
  | some .schemaMigration => "schema_migration"

def validationText : Option ValidationError → String
  | none => ""
  | some .roomSchema => "room_schema"
  | some .roomCardinality => "room_cardinality"
  | some .ticketShape => "ticket_shape"
  | some .waitingIndex => "waiting_index"
  | some .admissionState => "admission_state"
  | some .leaseIndex => "lease_index"
  | some .ticketState => "ticket_state"
  | some .expiryOwnerIndex => "expiry_owner_index"
  | some .reservationCardinality => "reservation_cardinality"
  | some .idempotencyIndex => "idempotency_index"
  | some .joinReplay => "join_replay"
  | some .rateWindow => "rate_window"
  | some .validationPhase => "validation_phase"
  | some .installationMetadata => "installation_metadata"
  | some .installationCardinality => "installation_cardinality"

theorem reasonText_mem (r : Option RecoveryReason) : reasonText r ∈ Control.recoveryReasons := by
  rcases r with _ | r
  · decide
  · cases r <;> decide

theorem validationText_mem_iff (e : Option ValidationError) :
    validationText e ∈ Control.recoveryValidations ↔ e ≠ some .joinReplay := by
  rcases e with _ | e
  · decide
  · cases e <;> decide

end Codes

section System

variable {T I : Type} [Decodes T] [Decodes I]

/-- The server, and the recovery state that the coordinator's store of each
epoch and room has published. -/
structure Site (T I : Type) where
  server : Server T I
  published : Nat → String → Option Frame := fun _ _ => none

/-- `Metrics` of a store: the answer of the library with the codes of the
published state. -/
structure StoreMetrics where
  metrics : Metrics
  recoveryFence : Nat
  recoveryReason : String
  recoveryValidation : String
deriving DecidableEq

/-- The answer to an upkeep call may be lost on its way. -/
inductive SiteCall
  | upkeep (step : Step Upkeep) (arrives : Bool)
  | migrate (env : Env) (rooms : List String) (snapshot : Option Queue.Snapshot) (digest : String)
      (retained : Nat)
  | metrics (epoch : Nat) (room : String) (env : Env)

inductive SiteReply
  | outcome (o : Outcome)
  | migration (r : MigrationReply)
  | metrics (m : Option StoreMetrics)

/-- `MaintainRecovery` publishes what the recovery and the validation answer. -/
def publishes : Upkeep → Bool
  | .recover .. => true
  | .validate .. => true
  | _ => false

def Site.publish (s : Site T I) (epoch : Nat) (room : String) (f : Frame) : Site T I :=
  { s with published := fun e r => if e = epoch ∧ r = room then some f else s.published e r }

def siteUpkeep (s : Site T I) (step : Step Upkeep) (arrives : Bool) : Outcome × Site T I :=
  let r := execUpkeep s.server.db step
  let s' : Site T I := { s with server := { s.server with db := r.2 } }
  match decodeRecovery r.1 with
  | none => (r.1, s')
  | some f =>
    if arrives ∧ publishes step.call then (r.1, s'.publish step.epoch step.room f) else (r.1, s')

/-- The metrics part of `runtimeCall`. -/
def siteMetrics (s : Site T I) (epoch : Nat) (room : String) (env : Env) : Option StoreMetrics :=
  match s.published epoch room with
  | none => none
  | some f =>
    match wrR6Metrics (s.server.db.keys epoch room) env (f.primary.getD "") f.fence with
    | .reply (.metrics _ m) => some ⟨m, f.fence, reasonText f.reason, validationText f.validationError⟩
    | _ => none

def serve (s : Site T I) : SiteCall → SiteReply × Site T I
  | .upkeep step arrives =>
    let r := siteUpkeep s step arrives
    (.outcome r.1, r.2)
  | .migrate env rooms snapshot digest retained =>
    let r := wrQmApply s.server env rooms snapshot digest retained
    (.migration r.1, { s with server := r.2 })
  | .metrics epoch room env => (.metrics (siteMetrics s epoch room env), s)

abbrev SiteEvent (T I : Type) := Event (Site T I) SiteCall SiteReply

abbrev SiteRun : Site T I → List (SiteEvent T I) → Site T I → Prop :=
  Run serve fun _ _ => True

/-- `coordinatorMetrics`, for one room. -/
def coordinatorMetrics (room : Control.Room) (q : StoreMetrics) : RoomMetrics where
  roomId := room.id
  revision := q.metrics.revision
  epoch := q.metrics.epoch
  mode := q.metrics.mode
  waiting := q.metrics.waiting
  ready := q.metrics.ready
  leases := q.metrics.leases
  rate := q.metrics.rate
  recoveryUntil := q.metrics.recoveryUntil
  recoveryFence := q.recoveryFence
  recoveryReason := q.recoveryReason
  recoveryValidation := q.recoveryValidation

def ReadIn (es : List (SiteEvent T I)) (m : RoomMetrics) : Prop :=
  ∃ ev ∈ es, ∃ room q, ev.output = .metrics (some q) ∧ m = coordinatorMetrics room q

def withoutCodes (ack : NodeAck) : NodeAck :=
  { ack with rooms := ack.rooms.map fun m => { m with recoveryReason := "", recoveryValidation := "" } }

end System

section Validator

variable {T I : Type} [Decodes T] [Decodes I] {k : Keys T I} {c : Config}

omit [Decodes T] [Decodes I] in
theorem checkExpiry_error {id : String} {x : Score} {deadline : Nat} {s : Scan}
    {e : ValidationError} (h : checkExpiry k id x deadline s = .error e) : e = .expiryOwnerIndex := by
  unfold checkExpiry at h
  split at h
  · exact (Except.error.inj h).symm
  · cases h

omit [Decodes T] [Decodes I] in
theorem checkLease_error {id : String} {x : Score} {deadline : Nat} {s : Scan}
    {e : ValidationError} (h : checkLease k id x deadline s = .error e) : e ≠ .joinReplay := by
  unfold checkLease at h
  split at h
  · cases h
    simp
  · rw [checkExpiry_error h]
    simp

omit [Decodes I] in
theorem checkTicket_error {now : Nat} {id : String} {x : Score} {s : Scan} {e : ValidationError}
    (h : checkTicket k c now id x s = .error e) : e ≠ .joinReplay := by
  unfold checkTicket at h
  split at h
  · cases h
    simp
  · split at h
    · cases h
      simp
    · dsimp only at h
      split at h
      · unfold checkWaiting at h
        split at h
        · cases h
          simp
        · rw [checkExpiry_error h]
          simp
      · split at h
        · split at h
          · cases h
            simp
          · split at h
            · cases h
              simp
            · split at h
              · exact checkLease_error h
              · exact checkLease_error h
        · cases h
          simp

omit [Decodes I] in
theorem scanTickets_error {now : Nat} {page : List (String × Score)} {s : Scan}
    {e : ValidationError} (h : scanTickets k c now page s = .error e) : e ≠ .joinReplay := by
  induction page generalizing s with
  | nil => cases h
  | cons row page ih =>
    rw [scanTickets] at h
    split at h
    · rename_i e' he
      cases h
      exact checkTicket_error he
    · exact ih h

omit [Decodes T] in
theorem scanIdems_error {page : List (String × Score)} {e : ValidationError}
    (h : scanIdems k c page = .error e) : ∃ row ∈ page, checkIdem k c row.1 row.2 = .error e := by
  induction page with
  | nil => cases h
  | cons row page ih =>
    rw [scanIdems] at h
    split at h
    · rename_i e' he
      cases h
      exact ⟨row, List.mem_cons_self, he⟩
    · obtain ⟨row', hmem, he⟩ := ih h
      exact ⟨row', List.mem_cons_of_mem _ hmem, he⟩

def JoinPasses (epoch : Nat) (c : Config) (x : Score) (j : Queue.Json) : Prop :=
  ∀ ticket retained snapshot, j.text "id" = some ticket → integer x = some retained →
    j.field "join" = some snapshot → Queue.Json.truthy (some snapshot) = true →
      joinShape epoch c ticket retained snapshot = true

omit [Decodes T] in
theorem checkIdem_of_passes {id : String} {x : Score}
    (h : ∀ row j, k.room.idem.get id = some row → Decodes.json row = some j →
      JoinPasses k.room.epoch c x j) : checkIdem k c id x ≠ .error .joinReplay := by
  intro he
  unfold checkIdem at he
  split at he
  · cases he
  · rename_i j hj
    obtain ⟨row, hrow, hj⟩ := Option.bind_eq_some_iff.mp hj
    split at he
    · rename_i ticket fingerprint replay retained hid _ _ hretained
      split at he
      · split at he
        · cases he
        · rename_i snapshot hsnapshot
          split at he
          · rename_i htruthy
            rw [if_pos (h row j hrow hj ticket retained snapshot hid hretained hsnapshot htruthy)] at he
            cases he
          · cases he
      · cases he
    · cases he

def RoomJoins (epoch : Nat) (r : Room T I) : Prop :=
  ∀ c id x row j, r.config = some c → r.idemExpiry.get id = some x → r.idem.get id = some row →
    Decodes.json row = some j → JoinPasses epoch c x j

theorem mem_page {t : ScoreSet} {offset n : Nat} {row : String × Score}
    (h : row ∈ t.page offset n) : t.get row.1 = some row.2 :=
  Table.mem_ranking.mp (List.mem_of_mem_drop (List.mem_of_mem_take h))

theorem wrR6Validate_error {env : Env} {primary : String} {fence : Nat}
    (clean : k.inst.validationError ≠ some .joinReplay)
    (joins : k.room.schema = 5 → RoomJoins k.room.epoch k.room) :
    (wrR6Validate k env primary fence).2.inst.validationError ≠ some .joinReplay := by
  have failed : ∀ (k : Keys T I) (e : ValidationError), e ≠ .joinReplay →
      (validationFailed k env.now e).2.inst.validationError ≠ some .joinReplay := by
    intro k e he h
    exact he (Option.some.inj h)
  unfold wrR6Validate
  split
  · exact clean
  · split
    · exact clean
    · split
      · exact failed _ _ nofun
      · rename_i c hc
        split
        · exact failed _ _ nofun
        · rename_i schema
          split
          · exact failed _ _ nofun
          · dsimp only
            split
            · unfold validateTickets
              dsimp only
              split
              · rename_i e he
                exact failed _ _ (scanTickets_error he)
              · split
                · split
                  · exact failed _ _ nofun
                  · exact clean
                · exact clean
            · unfold validateIdems
              dsimp only
              split
              · rename_i e he
                obtain ⟨row, hrow, herr⟩ := scanIdems_error he
                refine failed _ _ ?_
                rintro rfl
                refine checkIdem_of_passes ?_ herr
                intro value j hget hj
                exact joins (not_not.mp schema) c row.1 row.2 value j hc (mem_page hrow) hget hj
              · split
                · split
                  · exact failed _ _ nofun
                  · exact clean
                · exact clean
            · unfold validateTotals
              split
              · exact failed _ _ nofun
              · split
                · split
                  · exact clean
                  · split
                    · exact clean
                    · exact failed _ _ nofun
                · exact clean
            · exact failed _ _ nofun

theorem runUpkeep_framed {k : Keys T I} {epoch : Nat} {room : String} {env : Env} {u : Upkeep}
    (h : publishes u = true) : Framed env.now (runUpkeep k epoch room env u) := by
  cases u with
  | init => cases h
  | recover primary uncertain => exact wrR6Recover_framed k env primary uncertain
  | validate primary fence => exact wrR6Validate_framed k env primary fence
  | configureHeld => cases h

end Validator

section Invariant

variable {T I : Type} [Decodes T] [Decodes I]

omit [Decodes T] [Decodes I] in
theorem openedKeys_error (k : Keys T I) (env : Env) (a : InitArgs) (n : Nat) (g : Installation) :
    (openedKeys k env a n g).inst.validationError = none ∨
      (openedKeys k env a n g).inst.validationError = g.validationError := by
  unfold openedKeys openedInstallation createInstallation
  dsimp only
  split_ifs <;> simp [commit, coverLifetime]

/-- What keeps the error from being recorded: the rows that would show it are not there. -/
structure KeysSound (e : Nat) (k : Keys T I) : Prop where
  epoch : k.room.schema = 5 → k.room.epoch = e
  joins : RoomJoins e k.room
  error : k.inst.validationError ≠ some .joinReplay

variable {env : Env} {e : Nat} {r : String} {k k' : Keys T I} {u : Upkeep}

omit [Decodes T] [Decodes I] in
theorem upkeepMove_error (hm : UpkeepMove env e r k u k') (hu : ∀ primary fence, u ≠ .validate primary fence)
    (h : k.inst.validationError ≠ some .joinReplay) :
    k'.inst.validationError ≠ some .joinReplay := by
  cases hm with
  | still => exact h
  | held current schema holds later =>
    obtain ⟨-, rfl⟩ := hold_eq_some holds
    exact nofun
  | passed => exact h
  | @opened config primary global notBefore bound shared g accepted switched new sound =>
    have hg : g.validationError ≠ some .joinReplay := by
      rcases holdUnsound_eq_some sound with rfl | ⟨-, hh⟩
      · exact h
      · obtain ⟨-, rfl⟩ := hold_eq_some hh
        exact nofun
    rcases openedKeys_error { k with shared := shared } env
      ⟨config, primary, global, r, e, notBefore⟩ bound g with hnone | hsame
    · rw [hnone]
      exact nofun
    · rw [hsame]
      exact hg
  | configured => exact h
  | noted => exact absurd rfl (hu _ _)
  | activated => exact absurd rfl (hu _ _)

omit [Decodes T] in
theorem upkeepMove_joins (hm : UpkeepMove env e r k u k')
    (hepoch : k.room.schema = 5 → k.room.epoch = e) (hjoins : RoomJoins e k.room) :
    (k'.room.schema = 5 → k'.room.epoch = e) ∧ RoomJoins e k'.room := by
  cases hm with
  | opened accepted switched new sound =>
    rw [openedKeys_room]
    refine ⟨fun _ => rfl, ?_⟩
    intro c id x row j _ hx
    have hrows := (accepted.unopened new).2
    simp only [Room.RowsExist, not_or, Nat.not_lt, Nat.le_zero] at hrows
    have hnone : k.room.idemExpiry.get id = none := Table.size_eq_zero_iff.mp hrows.2.2.2.2.2.2 id
    have hx : k.room.idemExpiry.get id = some x := hx
    rw [hnone] at hx
    cases hx
  | configured fenced mode reason tickets idems =>
    refine ⟨hepoch, ?_⟩
    intro c id x row j _ _ hrow
    have hrow : k.room.idem.get id = some row := hrow
    rw [Table.size_eq_zero_iff.mp idems id] at hrow
    cases hrow
  | _ => exact ⟨hepoch, hjoins⟩

theorem runUpkeep_sound (h : KeysSound e k) : KeysSound e (runUpkeep k e r env u).2 := by
  have hm : UpkeepMove env e r k u (runUpkeep k e r env u).2 := runUpkeep_move u
  obtain ⟨hepoch, hjoins⟩ := upkeepMove_joins hm h.epoch h.joins
  refine ⟨hepoch, hjoins, ?_⟩
  by_cases hu : ∃ primary fence, u = .validate primary fence
  · obtain ⟨primary, fence, rfl⟩ := hu
    refine wrR6Validate_error h.error fun schema => ?_
    rw [h.epoch schema]
    exact h.joins
  · exact upkeepMove_error hm (fun primary fence heq => hu ⟨primary, fence, heq⟩) h.error

/-- The same for everything the server stores, and no published state has the error. -/
structure Sound (s : Site T I) : Prop where
  keys : ∀ e r, KeysSound e (s.server.db.keys e r)
  published : ∀ e r f, s.published e r = some f → f.validationError ≠ some .joinReplay

omit [Decodes T] in
theorem keysSound_set {db : Db T I} (h : ∀ e r, KeysSound e (db.keys e r)) (hk : KeysSound e k') :
    ∀ e' r', KeysSound e' ((db.set e r k').keys e' r') := by
  intro e' r'
  have inst : ((db.set e r k').inst e').validationError ≠ some .joinReplay := by
    by_cases he : e' = e
    · subst he
      rw [Db.set_inst_self]
      exact hk.error
    · rw [Db.set_inst_ne he]
      exact (h e' r').error
  by_cases hr : e' = e ∧ r' = r
  · obtain ⟨rfl, rfl⟩ := hr
    rw [Db.keys_set_self]
    exact hk
  · have hroom : ((db.set e r k').keys e' r').room = db.room e' r' := Db.set_room_ne hr
    refine ⟨?_, ?_, inst⟩
    · rw [hroom]
      exact (h e' r').epoch
    · rw [hroom]
      exact (h e' r').joins

theorem Sound.upkeep {s : Site T I} (h : Sound s) (step : Step Upkeep) (arrives : Bool) :
    Sound (siteUpkeep s step arrives).2 := by
  have hk : KeysSound step.epoch (runUpkeep (s.server.db.keys step.epoch step.room) step.epoch
      step.room step.env step.call).2 := runUpkeep_sound (h.keys step.epoch step.room)
  have hs : Sound ({ s with server := { s.server with db := (execUpkeep s.server.db step).2 } }) :=
    ⟨keysSound_set h.keys hk, h.published⟩
  unfold siteUpkeep
  dsimp only
  split
  · exact hs
  · rename_i f hf
    split
    · rename_i hp
      refine ⟨hs.keys, ?_⟩
      intro e' r' f' hf'
      have hf' : (if e' = step.epoch ∧ r' = step.room then some f else s.published e' r') =
        some f' := hf'
      split at hf'
      · cases hf'
        have hframe : (runUpkeep (s.server.db.keys step.epoch step.room) step.epoch step.room
            step.env step.call).1 = .reply (.frame f) := decodeRecovery_eq_some hf
        rw [runUpkeep_framed hp.2 f hframe]
        exact hk.error
      · exact h.published e' r' f' hf'
    · exact hs

omit [Decodes T] in
theorem Sound.migrate {s : Site T I} (h : Sound s) {server : Server T I} {rooms : List String}
    {snapshot : Option Queue.Snapshot} {digest : String} {retained : Nat} {reply : MigrationReply}
    (ha : Applied s.server env rooms snapshot digest retained reply server) :
    Sound { s with server := server } := by
  cases ha with
  | refused => exact h
  | repeated => exact h
  | migrated =>
    refine ⟨fun e r => ?_, h.published⟩
    have hk := h.keys e r
    by_cases hroom : e = 1 ∧ r ∈ (planOf s.server.db rooms).rooms
    · obtain ⟨rfl, hr⟩ := hroom
      refine ⟨?_, ?_, ?_⟩
      · simp [Queue.migrate, hr, migratedRoom]
      · intro c id x row j
        simpa [Queue.migrate, hr, migratedRoom] using hk.joins c id x row j
      · simp [Queue.migrate, migratedInstallation]
    · refine ⟨?_, ?_, ?_⟩
      · simpa [Queue.migrate, hroom] using hk.epoch
      · simpa [Queue.migrate, hroom] using hk.joins
      · by_cases he : e = 1
        · simp [Queue.migrate, he, migratedInstallation]
        · simpa [Queue.migrate, he] using hk.error

theorem Sound.serve {s : Site T I} (h : Sound s) (call : SiteCall) : Sound (serve s call).2 := by
  cases call with
  | upkeep step arrives => exact h.upkeep step arrives
  | migrate env rooms snapshot digest retained => exact h.migrate (wrQmApply_applied ..)
  | metrics => exact h

theorem sound_of_run {s s' : Site T I} {es : List (SiteEvent T I)} (h : Sound s)
    (hr : SiteRun s es s') : Sound s' := by
  induction hr with
  | nil => exact h
  | snoc call _ _ ih => exact ih.serve call

omit [Decodes T] in
theorem siteMetrics_codes {s : Site T I} (h : Sound s) {q : StoreMetrics}
    (hq : siteMetrics s e r env = some q) : q.recoveryReason ∈ Control.recoveryReasons ∧
      q.recoveryValidation ∈ Control.recoveryValidations := by
  unfold siteMetrics at hq
  split at hq
  · cases hq
  · rename_i f hf
    split at hq
    · cases hq
      exact ⟨reasonText_mem f.reason, (validationText_mem_iff _).mpr (h.published e r f hf)⟩
    · cases hq

theorem ReadIn.codes {s s' : Site T I} {es : List (SiteEvent T I)} (h : Sound s)
    (hr : SiteRun s es s') {m : RoomMetrics} (hm : ReadIn es m) :
    m.recoveryReason ∈ Control.recoveryReasons ∧
      m.recoveryValidation ∈ Control.recoveryValidations := by
  obtain ⟨ev, hev, room, q, hout, rfl⟩ := hm
  obtain ⟨h₁, h₂, rfl, hbefore, -, heq, -⟩ := Run.split hr hev
  have hs := sound_of_run h hbefore
  rw [heq] at hout
  cases hin : ev.input with
  | metrics e r env =>
    rw [hin] at hout
    exact siteMetrics_codes hs (SiteReply.metrics.inj hout)
  | _ =>
    rw [hin] at hout
    cases hout

end Invariant

section Acknowledge

variable {h : Control.Host} {svc : Control.Service} {s : Control.Store} {node : Control.NodeId}
  {ack : NodeAck} {now : ℤ}

theorem acceptable_of_codes {d : Control.Delivery} {room : Control.Room} {m : RoomMetrics}
    (hm : Acceptable d node room { m with recoveryReason := "", recoveryValidation := "" })
    (hreason : m.recoveryReason ∈ Control.recoveryReasons)
    (hvalidation : m.recoveryValidation ∈ Control.recoveryValidations) :
    Acceptable d node room m := by
  obtain ⟨hhttp, hid, found, hfound, hrevision, hepoch, hwaiting, hready, hleases, hrate, harrivals,
    huntil, hmode, hactive, hfence, -, -⟩ := hm
  exact ⟨hhttp, hid, found, hfound, hrevision, hepoch, hwaiting, hready, hleases, hrate, harrivals,
    huntil, hmode, hactive, hfence, hreason, hvalidation⟩

theorem acceptable_rooms {d : Control.Delivery} {rooms : List Control.Room} {ms : List RoomMetrics}
    (hcodes : ∀ m ∈ ms, m.recoveryReason ∈ Control.recoveryReasons ∧
      m.recoveryValidation ∈ Control.recoveryValidations)
    (hms : List.Forall₂ (Acceptable d node) rooms
      (ms.map fun m => { m with recoveryReason := "", recoveryValidation := "" })) :
    List.Forall₂ (Acceptable d node) rooms ms := by
  induction ms generalizing rooms with
  | nil => exact hms
  | cons m ms ih =>
    rw [List.map_cons, List.forall₂_cons_right_iff] at hms
    obtain ⟨room, rooms, hm, hms, rfl⟩ := hms
    obtain ⟨hreason, hvalidation⟩ := hcodes m List.mem_cons_self
    exact .cons (acceptable_of_codes hm hreason hvalidation)
      (ih (fun m' hm' => hcodes m' (List.mem_cons_of_mem _ hm')) hms)

theorem acknowledge_of_codes
    (hcodes : ∀ m ∈ ack.rooms, m.recoveryReason ∈ Control.recoveryReasons ∧
      m.recoveryValidation ∈ Control.recoveryValidations)
    (hdone : (acknowledge h svc s node (withoutCodes ack) now).1 = .done) :
    (acknowledge h svc s node ack now).1 = .done := by
  have hlength : (withoutCodes ack).rooms.length = ack.rooms.length := List.length_map _
  unfold acknowledge at hdone ⊢
  split at hdone
  · cases hdone
  · rename_i hkey
    have hkey : ¬ (ack.keyGeneration ≠ svc.keyGeneration ∨ ack.keyDigest ≠ svc.keyDigest) := hkey
    rw [if_neg hkey]
    split at hdone
    · cases hdone
    · rename_i d generation _
      split at hdone
      · cases hdone
      · rename_i p _
        split at hdone
        · cases hdone
        · rename_i hnow
          rw [if_neg hnow]
          split at hdone
          · cases hdone
          · rename_i hmatch
            rw [hlength] at hmatch
            have hmatch : ¬ ((generation : ℤ) ≠ ack.generation ∨ h.trust.hexSha256 p.raw ≠ ack.digest ∨
              ack.rooms.length ≠ d.config.rooms.length) := hmatch
            rw [if_neg hmatch]
            split at hdone
            · cases hdone
            · rename_i hrooms
              rw [if_neg (not_not.mpr (acceptable_rooms hcodes (not_not.mp hrooms)))]
              dsimp only
              split <;> rfl

theorem acknowledge_invalid {d : Control.Delivery} {g : Nat} {p : Control.Published}
    (hdelivery : Control.readDelivery h s = some (d, g)) (hpublished : s.published = some p)
    (hkey : ack.keyGeneration = svc.keyGeneration ∧ ack.keyDigest = svc.keyDigest)
    (hnow : p.issuedAt ≤ now ∧ now < p.expiresAt) (hgeneration : ack.generation = g)
    (hdigest : h.trust.hexSha256 p.raw = ack.digest)
    (hlength : ack.rooms.length = d.config.rooms.length)
    (hrooms : ¬ List.Forall₂ (Acceptable d node) d.config.rooms ack.rooms) :
    (acknowledge h svc s node ack now).1 = .failed .invalid := by
  unfold acknowledge
  rw [if_neg (by simp [hkey]), hdelivery]
  dsimp only
  rw [hpublished]
  dsimp only
  rw [if_neg (by omega), if_neg (by simp [hgeneration, hdigest, hlength]), if_pos hrooms]

end Acknowledge

/-- As long as every retained idempotency row has a join snapshot that the
validator passes, or none, whatever else its room holds, Control accepts every
report of a coordinator that it would accept without the codes. -/
theorem recovery_reports_delivered {T I : Type} [Decodes T] [Decodes I] {db : Db T I}
    (hkeys : ∀ e r, KeysSound e (db.keys e r)) {maintenance : Option (String × Report)}
    {es : List (SiteEvent T I)} {s : Site T I}
    (hr : SiteRun { server := ⟨db, maintenance⟩ } es s) (h : Control.Host) (svc : Control.Service)
    (store : Control.Store) (ack : NodeAck) (now : ℤ) (hread : ∀ m ∈ ack.rooms, ReadIn es m)
    (hmatching : (acknowledge h svc store .coordinator (withoutCodes ack) now).1 = .done) :
    (acknowledge h svc store .coordinator ack now).1 = .done := by
  have hs : Sound ({ server := ⟨db, maintenance⟩ } : Site T I) := ⟨hkeys, nofun⟩
  exact acknowledge_of_codes (fun m hm => (hread m hm).codes hs hr) hmatching

section Sample

def heldConfig : Config := ⟨10, 10, 5, 60, 300000, 3600000, 60000, 60000, 600000, 1000⟩

def heldKey : String := "00112233445566778899aabbccddeeff00112233445566778899aabbccddeeff"

/-- An idempotency row of the sample room; `join` is what it keeps of its ticket. -/
def heldRow (join : List (String × Queue.Json)) : Option Queue.Json :=
  some (.object ([("id", .str heldKey), ("fingerprint", .str heldKey), ("replay", .str "")] ++ join))

def heldRoom (join : List (String × Queue.Json)) : Room (Option Queue.Json) (Option Queue.Json) where
  config := some heldConfig
  schema := 5
  epoch := 1
  room := "aaaaaaaaaaaaaaaaaaaa"
  runtimeRevision := 1
  idem := (∅ : Table String (Option Queue.Json)).put heldKey (heldRow join)
  idemExpiry := (∅ : ScoreSet).put heldKey (score 600000)

def heldPrimary : String := "0123456789abcdef0123456789abcdef01234567"

def heldInstallation : Installation where
  config := some ⟨"standard-10k", 100, 100⟩
  schema := 5
  primary := some heldPrimary
  mode := .recoveryHold
  clock := 1
  fence := 2
  unsafeUntil := 90001
  leaseLifetime := 60000
  epoch := some 1
  dirty := true
  idems := 1
  handshakeAt := 1
  recoveryReason := some .uncertainWrite
  rooms := {"aaaaaaaaaaaaaaaaaaaa"}
  idemOwners := (∅ : ScoreSet).put (member "aaaaaaaaaaaaaaaaaaaa" heldKey) (score 600000)

def heldSite (join : List (String × Queue.Json)) : Site (Option Queue.Json) (Option Queue.Json) where
  server := { db := {
    shared := { epoch := some 1, clock := some 1 }
    inst := fun e => if e = 1 then heldInstallation else {}
    room := fun e r => if e = 1 ∧ r = "aaaaaaaaaaaaaaaaaaaa" then heldRoom join else {} } }

def heldUpkeep (u : Upkeep) : SiteCall :=
  .upkeep ⟨1, "aaaaaaaaaaaaaaaaaaaa", ⟨100000, heldPrimary⟩, u⟩ true

def heldCalls : List SiteCall :=
  [heldUpkeep (.recover heldPrimary false), heldUpkeep (.validate heldPrimary 2),
    heldUpkeep (.validate heldPrimary 2), .metrics 1 "aaaaaaaaaaaaaaaaaaaa" ⟨100000, heldPrimary⟩]

def heldEvents (join : List (String × Queue.Json)) :
    List (SiteEvent (Option Queue.Json) (Option Queue.Json)) :=
  eventsOf serve (heldSite join) heldCalls

theorem heldEvents_run (join : List (String × Queue.Json)) :
    SiteRun (heldSite join) (heldEvents join) (stateAfter serve (heldSite join) heldCalls) :=
  run_of_inputs _ fun _ _ _ => trivial

def heldMetrics (validation : String) : StoreMetrics :=
  ⟨⟨0, 0, 0, 0, .recoveryHold, 1, 1, 90001⟩, 2, "uncertain_write", validation⟩

def heldAck (validation : String) : NodeAck where
  generation := 1
  digest := ""
  rooms := [coordinatorMetrics Control.sampleRoom (heldMetrics validation)]

theorem heldAck_read {join : List (String × Queue.Json)} {validation : String}
    (h : siteMetrics (stateAfter serve (heldSite join) (heldCalls.take 3)) 1 "aaaaaaaaaaaaaaaaaaaa"
      ⟨100000, heldPrimary⟩ = some (heldMetrics validation)) :
    ∀ m ∈ (heldAck validation).rooms, ReadIn (heldEvents join) m := by
  intro m hm
  obtain rfl := List.mem_singleton.mp hm
  refine ⟨eventOf serve (stateAfter serve (heldSite join) (heldCalls.take 3))
    (.metrics 1 "aaaaaaaaaaaaaaaaaaaa" ⟨100000, heldPrimary⟩), ?_, Control.sampleRoom,
    heldMetrics validation, ?_, rfl⟩
  · simp [heldEvents, heldCalls, eventsOf, stateAfter]
  · exact congrArg SiteReply.metrics h

theorem shop_readSigned : Control.readDelivery Control.sampleHost Control.shopStore =
    some (Control.shopDelivery (Control.initialRuntime Control.sampleRoom), 1) :=
  Control.shop_readDelivery rfl (by decide)

theorem heldAck_matching (validation : String) :
    (acknowledge Control.sampleHost Control.sampleService Control.shopStore .coordinator
      (withoutCodes (heldAck validation)) 2000000).1 = .done := by
  have hroom : Acceptable (Control.shopDelivery (Control.initialRuntime Control.sampleRoom))
      .coordinator Control.sampleRoom
      { coordinatorMetrics Control.sampleRoom (heldMetrics "") with recoveryReason := "" } := by decide
  refine congrArg Prod.fst (Control.acknowledge_of shop_readSigned rfl ⟨rfl, rfl⟩ ?_ rfl rfl
    (.cons hroom .nil) rfl)
  decide

theorem heldSite_sound (e : Nat) (r : String) : KeysSound e ((heldSite []).server.db.keys e r) := by
  refine ⟨?_, ?_, ?_⟩
  · intro hs
    have hs : (if e = 1 ∧ r = "aaaaaaaaaaaaaaaaaaaa" then heldRoom [] else {}).schema = 5 := hs
    split at hs
    · rename_i he
      obtain ⟨rfl, rfl⟩ := he
      rfl
    · cases hs
  · intro c id x row j _ _ hrow hj ticket retained snapshot _ _ hjoin
    have hrow : (if e = 1 ∧ r = "aaaaaaaaaaaaaaaaaaaa" then heldRoom [] else {}).idem.get id =
      some row := hrow
    split at hrow
    · have hrow : ((∅ : Table String (Option Queue.Json)).put heldKey (heldRow [])).get id =
          some row := hrow
      rw [Table.get_put] at hrow
      split at hrow
      · cases hrow
        cases hj
        have hnone : (none : Option Queue.Json) = some snapshot := hjoin
        cases hnone
      · cases hrow
    · cases hrow
  · intro he
    have he : (if e = 1 then heldInstallation else {}).validationError = some .joinReplay := he
    split at he <;> cases he

/-- The validated room is reported, and Control accepts it. -/
theorem heldAck_accepted :
    (acknowledge Control.sampleHost Control.sampleService Control.shopStore .coordinator
      (heldAck "") 2000000).1 = .done :=
  recovery_reports_delivered heldSite_sound (heldEvents_run []) _ _ _ _ _
    (heldAck_read (by decide +kernel)) (heldAck_matching "")

def spoiled : List (String × Queue.Json) := [("join", .str "x")]

/-- The validator records `join_replay`, which is on no list of Control: the
report of the failed validation is refused. -/
theorem join_replay_refused :
    SiteRun (heldSite spoiled) (heldEvents spoiled)
        (stateAfter serve (heldSite spoiled) heldCalls) ∧
      (∀ m ∈ (heldAck "join_replay").rooms, ReadIn (heldEvents spoiled) m) ∧
      (acknowledge Control.sampleHost Control.sampleService Control.shopStore .coordinator
        (withoutCodes (heldAck "join_replay")) 2000000).1 = .done ∧
      (acknowledge Control.sampleHost Control.sampleService Control.shopStore .coordinator
        (heldAck "join_replay") 2000000).1 = .failed .invalid := by
  have hrooms : ¬ List.Forall₂
      (Acceptable (Control.shopDelivery (Control.initialRuntime Control.sampleRoom)) .coordinator)
      [Control.sampleRoom] (heldAck "join_replay").rooms := by
    intro hall
    cases hall with
    | cons hm _ =>
      obtain ⟨-, -, found, -, -, -, -, -, -, -, -, -, -, -, -, -, hcode⟩ := hm
      exact (validationText_mem_iff (some .joinReplay)).mp hcode rfl
  refine ⟨heldEvents_run spoiled, heldAck_read (by decide +kernel), heldAck_matching _, ?_⟩
  exact acknowledge_invalid shop_readSigned rfl ⟨rfl, rfl⟩ (by decide) rfl rfl rfl hrooms

end Sample

end WaitingRoom.Runtime
