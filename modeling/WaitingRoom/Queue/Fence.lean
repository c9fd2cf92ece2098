import WaitingRoom.Queue.State

/-!
# Fences, holds and the opening of rooms

The functions of the library that never read a ticket: the guards every call
passes, `hold`, `wr_r6_init`, `wr_r6_recover` and `wr_r6_configure_held`. They
are the same whatever the rows of the room contain.
-/

namespace WaitingRoom.Queue

set_option autoImplicit false

variable {T I : Type}

def member (room id : String) : String := room ++ ":" ++ id

def EpochCurrent (k : Keys T I) : Prop := k.shared.epoch = k.inst.epoch
  deriving Decidable

/-- `available`: the current epoch, the schema, a clean and active installation,
and counters that agree with the owner sets. -/
def Available (k : Keys T I) : Prop :=
  EpochCurrent k ∧ k.inst.schema = 5 ∧ k.inst.dirty = false ∧ k.inst.mode = .active ∧
    k.inst.visitors = k.inst.visitorOwners.size ∧ k.inst.idems = k.inst.idemOwners.size
  deriving Decidable

def commit (k : Keys T I) : Keys T I :=
  { k with
    shared := { k.shared with clock := some (max k.inst.clock (k.shared.clock.getD 0)) }
    inst := { k.inst with
      visitors := k.inst.visitorOwners.size
      idems := k.inst.idemOwners.size
      dirty := false } }

def frame (k : Keys T I) (now : Nat) : Frame where
  now := now
  primary := k.inst.primary
  fence := k.inst.fence
  mode := k.inst.mode
  unsafeUntil := k.inst.unsafeUntil
  reason := k.inst.recoveryReason
  validationError := k.inst.validationError

/-- `fenced`: the caller names the running server, which is also the recorded
primary, and the recorded fence, in the current epoch. -/
def Fenced (k : Keys T I) (env : Env) (primary : String) (fence : Nat) : Prop :=
  EpochCurrent k ∧ primary = env.primary ∧ k.inst.primary = some primary ∧ fence = k.inst.fence

instance (k : Keys T I) (env : Env) (primary : String) (fence : Nat) :
    Decidable (Fenced k env primary fence) := inferInstanceAs (Decidable (_ ∧ _ ∧ _ ∧ _))

/-- `hold`. It fails only when the fence cannot be raised any more. -/
def hold (g : Installation) (now : Nat) (primary : String) (reason : RecoveryReason) :
    Option Installation :=
  if maxInteger ≤ g.fence then none
  else some { g with
    mode := .recoveryHold
    primary := some primary
    fence := g.fence + 1
    unsafeUntil := max (max now g.clock + max g.leaseLifetime 60000 + 30000) g.unsafeUntil
    handshakeAt := now
    recoveryReason := some reason
    validationError := none }

/-- The commands answer `WR_UNAVAILABLE` on a clock rollback whether or not the
hold succeeded. -/
def holdRollback (k : Keys T I) (env : Env) : Keys T I :=
  { k with inst := (hold k.inst env.now env.primary .clockRollback).getD k.inst }

def Room.RowsExist (r : Room T I) : Prop :=
  0 < r.tickets.size ∨ 0 < r.waiting.size ∨ 0 < r.expiry.size ∨ 0 < r.leases.size ∨
    0 < r.rate.size ∨ 0 < r.idem.size ∨ 0 < r.idemExpiry.size
  deriving Decidable

def Installation.OwnersExist (g : Installation) : Prop :=
  0 < g.visitorOwners.size ∨ 0 < g.idemOwners.size
  deriving Decidable

/-- `EXISTS` of the metadata hash: one of its fields is there. -/
def Installation.MetaExists (g : Installation) : Prop :=
  g.config ≠ none ∨ g.schema ≠ 0 ∨ g.primary ≠ none ∨ g.mode ≠ .active ∨ g.clock ≠ 0 ∨
    g.fence ≠ 0 ∨ g.unsafeUntil ≠ 0 ∨ g.leaseLifetime ≠ 0 ∨ g.epoch ≠ none ∨ g.dirty = true ∨
    g.visitors ≠ 0 ∨ g.idems ≠ 0 ∨ g.handshakeAt ≠ 0 ∨ g.recoveryReason ≠ none ∨
    g.validationError ≠ none ∨ g.recoveredAt ≠ none ∨ g.rooms ≠ ∅ ∨ 0 < g.validated.size
  deriving Decidable

/-- The arguments of `wr_r6_init`. The keys of the call are those of `room` in `epoch`. -/
structure InitArgs where
  config : Config
  primary : String
  global : InstallationConfig
  room : String
  epoch : Nat
  notBefore : Nat
deriving DecidableEq, Repr

def epochRefused (current : Option Nat) (epoch : Nat) : Bool :=
  match current with
  | none => decide (epoch ≠ 1)
  | some e => decide (epoch < e)

/-- The checks of `wr_r6_init` that come before its first write. -/
def initRefusal (k : Keys T I) (env : Env) (a : InitArgs) : Option WrError :=
  if a.primary ≠ env.primary then some .schema
  else if a.epoch < 1 ∨ maxInteger ≤ a.epoch ∨ maxInteger ≤ a.notBefore then some .schema
  else if epochRefused k.shared.epoch a.epoch then some .fenced
  else if k.room.config = none ∧ (a.room ∈ k.inst.rooms ∨ k.room.RowsExist) then some .unavailable
  else if k.inst.config = none ∧
      (k.room.config ≠ none ∨ k.inst.MetaExists ∨ k.inst.OwnersExist) then
    some .unavailable
  else if k.inst.config ≠ none ∧
      (k.inst.config ≠ some a.global ∨ k.inst.schema ≠ 5 ∨ k.inst.epoch ≠ some a.epoch) then
    some .schema
  else if k.room.config ≠ none ∧
      (k.room.room ≠ a.room ∨ k.room.schema ≠ 5 ∨ k.room.epoch ≠ a.epoch) then
    some .schema
  else none

/-- The write of the shared epoch and the time before which a new epoch stays
held. `none` is the refusal of a shared clock that is missing or too large. -/
def switchEpoch (s : EpochMeta) (instClock now epoch notBefore : Nat) : Option (EpochMeta × Nat) :=
  match s.epoch with
  | none =>
    some ({ s with epoch := some epoch, clock := some instClock },
      max notBefore (s.unsafeUntil.getD 0))
  | some current =>
    if current < epoch then
      match s.clock with
      | none => none
      | some clock =>
        if 9007199251110990 ≤ clock then none
        else
          let bound := max notBefore (max now clock + 3630000)
          some ({ s with epoch := some epoch, unsafeUntil := some bound }, bound)
    else some (s, max notBefore (s.unsafeUntil.getD 0))

def holdUnsound (k : Keys T I) (env : Env) : Option Installation :=
  if k.inst.config ≠ none ∧ (k.inst.primary ≠ some env.primary ∨ ¬ Available k) then
    if k.inst.mode ≠ .recoveryHold ∨ k.inst.primary ≠ some env.primary then
      hold k.inst env.now env.primary .initializationUncertainty
    else some k.inst
  else some k.inst

def createInstallation (g : Installation) (env : Env) (a : InitArgs) (notBefore : Nat) :
    Installation :=
  let g := { g with
    config := some a.global
    schema := 5
    primary := some env.primary
    mode := .active
    clock := 0
    fence := 1
    unsafeUntil := 0
    leaseLifetime := 60000
    epoch := some a.epoch }
  if env.now < notBefore then
    { g with
      mode := .recoveryHold
      unsafeUntil := notBefore
      handshakeAt := env.now
      recoveryReason := some .epochReset
      validationError := none }
  else g

def createRoom (r : Room T I) (a : InitArgs) : Room T I :=
  { r with
    config := some a.config
    schema := 5
    epoch := a.epoch
    room := a.room
    seq := 0
    mode := .hold
    clock := 0
    configRevision := 0
    runtimeRevision := 0
    desired := none
    ready := 0 }

def coverLifetime (g : Installation) (c : Config) : Installation :=
  { g with leaseLifetime := max g.leaseLifetime (max c.admissionTTL c.readyTTL) }

def openedInstallation (k : Keys T I) (env : Env) (a : InitArgs) (notBefore : Nat)
    (g : Installation) : Installation :=
  let g := { g with dirty := true }
  let g := if k.inst.config = none then createInstallation g env a notBefore else g
  let g := coverLifetime g a.config
  { g with rooms := insert a.room g.rooms }

def openedKeys (k : Keys T I) (env : Env) (a : InitArgs) (notBefore : Nat) (g : Installation) :
    Keys T I :=
  let k' := { k with
    inst := openedInstallation k env a notBefore g
    room := createRoom k.room a }
  if k.inst.dirty then k' else commit k'

/-- The part of `wr_r6_init` that registers a room that was not there. -/
def openRoom (k : Keys T I) (env : Env) (a : InitArgs) (notBefore : Nat) : Outcome × Keys T I :=
  match holdUnsound k env with
  | none => (.error .unavailable, k)
  | some g =>
    let k' := openedKeys k env a notBefore g
    (.reply (.frame (frame k' env.now)), k')

def wrR6Init (k : Keys T I) (env : Env) (a : InitArgs) : Outcome × Keys T I :=
  match initRefusal k env a with
  | some e => (.error e, k)
  | none =>
    match switchEpoch k.shared k.inst.clock env.now a.epoch a.notBefore with
    | none => (.error .schema, k)
    | some (shared, notBefore) =>
      let k := { k with shared := shared }
      if k.room.config = none then openRoom k env a notBefore
      else (.reply (.frame (frame k env.now)), k)

/-- Why `wr_r6_recover` holds; `uncertain` is its second argument. -/
def recoverReason (k : Keys T I) (env : Env) (uncertain : Bool) : Option RecoveryReason :=
  if k.inst.primary ≠ some env.primary then some .primaryChanged
  else if env.now < k.inst.clock ∧
      (k.inst.mode ≠ .recoveryHold ∨ env.now < k.inst.handshakeAt) then some .clockRollback
  else if k.inst.mode ≠ .recoveryHold ∧ uncertain then some .uncertainWrite
  else if k.inst.mode ≠ .recoveryHold ∧ ¬ Available k then some .stateUncertain
  else none

def wrR6Recover (k : Keys T I) (env : Env) (primary : String) (uncertain : Bool) :
    Outcome × Keys T I :=
  if k.inst.schema ≠ 5 then (.error .schema, k)
  else if ¬ EpochCurrent k ∨ env.primary ≠ primary then (.error .fenced, k)
  else
    match recoverReason k env uncertain with
    | none => (.reply (.frame (frame k env.now)), k)
    | some reason =>
      match hold k.inst env.now env.primary reason with
      | none => (.error .unavailable, k)
      | some g =>
        let k := { k with inst := g }
        (.reply (.frame (frame k env.now)), k)

def configured (r : Room T I) (d : Desired) : Room T I :=
  { r with
    config := some d.config
    configRevision := d.configRevision
    runtimeRevision := d.runtimeRevision
    desired := some d
    mode := d.mode }

def wrR6ConfigureHeld (k : Keys T I) (env : Env) (d : Desired) (primary : String) (fence : Nat) :
    Outcome × Keys T I :=
  if ¬ Fenced k env primary fence then (.error .fenced, k)
  else if k.inst.mode ≠ .recoveryHold ∨ k.inst.recoveryReason ≠ some .epochReset ∨
      k.room.tickets.size ≠ 0 ∨ k.room.idem.size ≠ 0 ∨ (d.mode ≠ .hold ∧ d.mode ≠ .off) then
    (.error .unavailable, k)
  else if k.room.config = none then
    -- the revisions of a room that was never opened are nil and do not compare
    (.abort, k)
  else if d.configRevision < k.room.configRevision ∨ d.runtimeRevision < k.room.runtimeRevision then
    (.error .conflict, k)
  else if d.configRevision = k.room.configRevision ∧ d.runtimeRevision = k.room.runtimeRevision ∧
      some d ≠ k.room.desired then
    (.error .conflict, k)
  else
    (.reply (.answer env.now none "" none),
      { k with inst := coverLifetime k.inst d.config, room := configured k.room d })

end WaitingRoom.Queue
