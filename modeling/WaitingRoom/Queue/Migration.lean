import WaitingRoom.Queue.System
import WaitingRoom.Shared.Batch

/-!
# Migration to schema 5

`wr_qm_plan` and `wr_qm_apply` take the keys of a v3 or v4 installation over to
schema 5. The older libraries write the same hashes and sets, without an epoch,
and v3 without the fields of a recovery; a number that is not there reads as 0.
A migration rewrites the metadata of epoch 1 and no row.

The plan digests `DUMP`s. Two texts that are equal come from equal hashes, so
the model compares the hashes themselves.
-/

namespace WaitingRoom.Queue

set_option autoImplicit false

deriving instance DecidableEq for Room
deriving instance DecidableEq for Installation

/-- The name of a room in its keys: `[a-z2-7]+`, of length 20. -/
def RoomName (name : String) : Prop :=
  name.toList.length = 20 ∧
    ∀ c ∈ name.toList, ('a' ≤ c ∧ c ≤ 'z') ∨ ('2' ≤ c ∧ c ≤ '7')
  deriving Decidable

section Plan

variable {T I : Type}

def Room.metadata (r : Room T I) : Room Unit Unit where
  config := r.config
  schema := r.schema
  epoch := r.epoch
  room := r.room
  seq := r.seq
  mode := r.mode
  clock := r.clock
  configRevision := r.configRevision
  runtimeRevision := r.runtimeRevision
  desired := r.desired
  ready := r.ready
  cutoff := r.cutoff
  validation := r.validation

def Installation.metadata (g : Installation) : Installation :=
  { g with visitorOwners := ∅, idemOwners := ∅ }

/-- What `snapshot` lists: the metadata of the installation, and for every room
its metadata and the numbers of its tickets and idempotency rows. -/
structure Snapshot where
  installation : Installation
  rooms : List (Room Unit Unit × Nat × Nat)
deriving DecidableEq

structure Plan where
  source : Nat
  rooms : List String
  retainedVisitors : Nat
  retainedIdempotency : Nat
  minimumHold : Nat
  snapshot : Snapshot
deriving DecidableEq

/-- The answers of `inspect`. -/
inductive Inspection
  | empty
  | current
  | prepared (p : Plan)
deriving DecidableEq

def RoomPrepared (schema : Nat) (name : String) (r : Room T I) : Prop :=
  RoomName name ∧ r.schema = schema ∧ r.room = name ∧
    (∃ c ∈ r.config, 1000 ≤ c.admissionTTL ∧ c.admissionTTL ≤ 3600000 ∧ 1000 ≤ c.readyTTL ∧
      c.readyTTL ≤ 3600000) ∧
    r.tickets.size ≤ 100000 ∧ r.idem.size ≤ 200000 ∧ r.tickets.size = r.expiry.size ∧
    r.idem.size = r.idemExpiry.size
  deriving Decidable

def Room.lifetime (r : Room T I) : Nat :=
  match r.config with
  | none => 0
  | some c => max c.admissionTTL c.readyTTL

def snapshotOf (db : Db T I) (rooms : List String) : Snapshot where
  installation := (db.inst 1).metadata
  rooms := rooms.map fun r =>
    ((db.room 1 r).metadata, (db.room 1 r).tickets.size, (db.room 1 r).idem.size)

def visitorsOf (db : Db T I) (rooms : List String) : Nat :=
  (rooms.map fun r => (db.room 1 r).tickets.size).sum

def idemsOf (db : Db T I) (rooms : List String) : Nat :=
  (rooms.map fun r => (db.room 1 r).idem.size).sum

def lifetimeOf (db : Db T I) (rooms : List String) : Nat :=
  rooms.foldl (fun l r => max l (db.room 1 r).lifetime) (max 60000 (db.inst 1).leaseLifetime)

def planOf (db : Db T I) (rooms : List String) : Plan where
  source := (db.inst 1).schema
  rooms := rooms
  retainedVisitors := visitorsOf db rooms
  retainedIdempotency := idemsOf db rooms
  minimumHold := lifetimeOf db rooms + 30000
  snapshot := snapshotOf db rooms

/-- The tests of an installation of schema 3 or 4, whose rooms the caller has
named in its keys. -/
def Migratable (db : Db T I) (rooms : List String) : Prop :=
  let g := db.inst 1
  (g.schema = 3 ∨ g.schema = 4) ∧ g.dirty = false ∧ fieldCount g ≤ 1024 ∧
    1 ≤ g.rooms.card ∧ g.rooms.card ≤ 100 ∧ rooms.length = g.rooms.card ∧ rooms.Nodup ∧
    (∀ r ∈ rooms, r ∈ g.rooms ∧ RoomPrepared g.schema r (db.room 1 r)) ∧
    visitorsOf db rooms = g.visitorOwners.size ∧ idemsOf db rooms = g.idemOwners.size ∧
    visitorsOf db rooms = g.visitors ∧ idemsOf db rooms = g.idems ∧
    visitorsOf db rooms ≤ 100000 ∧ idemsOf db rooms ≤ 200000
  deriving Decidable

/-- `inspect`, through the keys of `rooms`. -/
def inspect (db : Db T I) (rooms : List String) : Option Inspection :=
  if 100 < rooms.length then none
  else if ¬ (db.inst 1).MetaExists then
    if rooms ≠ [] ∨ (db.inst 1).OwnersExist then none else some .empty
  else if (db.inst 1).schema = 5 then some .current
  else if Migratable db rooms then some (.prepared (planOf db rooms))
  else none

end Plan

section Apply

variable {T I : Type}

/-- What `wr_qm_apply` stores and answers. -/
structure Report where
  source : Nat
  rooms : List String
  retainedVisitors : Nat
  retainedIdempotency : Nat
  minimumHold : Nat
  unsafeUntil : Nat
  digest : String
deriving DecidableEq

/-- The database and the maintenance key, which holds a digest and a report. -/
structure Server (T I : Type) where
  db : Db T I := {}
  maintenance : Option (String × Report) := none

inductive MigrationReply
  | report (r : Report)
  | error (e : WrError)
deriving DecidableEq

/-- `until_ms`. -/
def migrationBound (g : Installation) (now minimumHold retained : Nat) : Nat :=
  max (max (max now g.clock + minimumHold) (retained + 30000)) g.unsafeUntil

def migratedInstallation (g : Installation) (env : Env) (p : Plan) (retained : Nat) :
    Installation :=
  { g with
    dirty := true
    mode := .recoveryHold
    schema := 5
    epoch := some 1
    fence := g.fence + 1
    primary := some env.primary
    clock := max env.now g.clock
    unsafeUntil := migrationBound g env.now p.minimumHold retained
    leaseLifetime := p.minimumHold - 30000
    handshakeAt := env.now
    recoveryReason := some .schemaMigration
    validationError := none
    validated := g.validated.delAll p.rooms }

def migratedRoom (r : Room T I) : Room T I :=
  { r with schema := 5, epoch := 1, validation := none }

def migrate (db : Db T I) (env : Env) (p : Plan) (retained : Nat) : Db T I where
  shared := db.shared
  inst := fun e => if e = 1 then migratedInstallation (db.inst 1) env p retained else db.inst e
  room := fun e r => if e = 1 ∧ r ∈ p.rooms then migratedRoom (db.room 1 r) else db.room e r

def reportOf (g : Installation) (env : Env) (p : Plan) (digest : String) (retained : Nat) :
    Report where
  source := p.source
  rooms := p.rooms
  retainedVisitors := p.retainedVisitors
  retainedIdempotency := p.retainedIdempotency
  minimumHold := p.minimumHold
  unsafeUntil := migrationBound g env.now p.minimumHold retained
  digest := digest

def wrQmApply (s : Server T I) (env : Env) (rooms : List String) (snapshot : Option Snapshot)
    (digest : String) (retained : Nat) : MigrationReply × Server T I :=
  if ¬ hex64 digest then (.error .schema, s)
  else
    match inspect s.db rooms with
    | none => (.error .schema, s)
    | some .current =>
      match s.maintenance with
      | some (d, report) => if d = digest then (.report report, s) else (.error .conflict, s)
      | none => (.error .conflict, s)
    | some .empty => (.error .conflict, s)
    | some (.prepared p) =>
      let g := s.db.inst 1
      if some p.snapshot ≠ snapshot then (.error .conflict, s)
      else if maxInteger ≤ g.fence + 1 then (.error .schema, s)
      else if maxInteger ≤ g.clock ∨ maxInteger ≤ retained then (.error .schema, s)
      else if maxInteger ≤ migrationBound g env.now p.minimumHold retained then (.error .schema, s)
      else
        (.report (reportOf g env p digest retained),
          ⟨migrate s.db env p retained, some (digest, reportOf g env p digest retained)⟩)

theorem inspect_prepared {db : Db T I} {rooms : List String} {p : Plan}
    (h : inspect db rooms = some (.prepared p)) : Migratable db rooms ∧ p = planOf db rooms := by
  unfold inspect at h
  split at h
  · cases h
  · split at h
    · split at h <;> cases h
    · split at h
      · cases h
      · split at h
        · rename_i prepared
          cases h
          exact ⟨prepared, rfl⟩
        · cases h

theorem inspect_current {db : Db T I} {rooms : List String}
    (h : inspect db rooms = some .current) : (db.inst 1).schema = 5 := by
  unfold inspect at h
  split at h
  · cases h
  · split at h
    · split at h <;> cases h
    · split at h
      · assumption
      · split at h <;> cases h

/-- What `wr_qm_apply` can do: it changes nothing, or it migrates what it has planned. -/
inductive Applied (s : Server T I) (env : Env) (rooms : List String) (snapshot : Option Snapshot)
    (digest : String) (retained : Nat) : MigrationReply → Server T I → Prop
  | refused {e : WrError} : Applied s env rooms snapshot digest retained (.error e) s
  | repeated {r : Report} (schema : (s.db.inst 1).schema = 5)
      (stored : s.maintenance = some (digest, r)) :
      Applied s env rooms snapshot digest retained (.report r) s
  | migrated (prepared : Migratable s.db rooms)
      (same : snapshot = some (snapshotOf s.db rooms))
      (bound : migrationBound (s.db.inst 1) env.now (planOf s.db rooms).minimumHold retained <
        maxInteger) :
      Applied s env rooms snapshot digest retained
        (.report (reportOf (s.db.inst 1) env (planOf s.db rooms) digest retained))
        ⟨migrate s.db env (planOf s.db rooms) retained,
          some (digest, reportOf (s.db.inst 1) env (planOf s.db rooms) digest retained)⟩

theorem wrQmApply_applied (s : Server T I) (env : Env) (rooms : List String)
    (snapshot : Option Snapshot) (digest : String) (retained : Nat) :
    Applied s env rooms snapshot digest retained
      (wrQmApply s env rooms snapshot digest retained).1
      (wrQmApply s env rooms snapshot digest retained).2 := by
  unfold wrQmApply
  split
  · exact .refused
  · split
    · exact .refused
    · rename_i current
      split
      · rename_i d report stored
        split
        · rename_i same
          subst same
          refine .repeated ?_ stored
          exact inspect_current current
        · exact .refused
      · exact .refused
    · exact .refused
    · rename_i p found
      obtain ⟨prepared, rfl⟩ := inspect_prepared found
      dsimp only
      split
      · exact .refused
      · rename_i same
        split
        · exact .refused
        · split
          · exact .refused
          · split
            · exact .refused
            · rename_i bound
              exact .migrated prepared (not_not.mp same).symm (Nat.lt_of_not_le bound)

end Apply

end WaitingRoom.Queue
