import WaitingRoom.Shared.Ranking

/-!
# The stored state of the v6 queue library

One installation has, for each epoch, three keys of its own and eight keys for
each room; a twelfth key is shared by all epochs. Hashes with a fixed set of
fields are records here, hashes and sorted sets over ids are tables. A field is
an `Option` where the library tests whether it is there.

Numbers of the library are Lua doubles. They are exact integers below
9007199254740992, and `tostring` and cjson print them in full below 10^14, which
a millisecond clock reaches in the year 5138; the model computes with exact
integers.
-/

namespace WaitingRoom.Queue

set_option autoImplicit false

/-- A score of a sorted set: any number, or one of the infinities. -/
abbrev Score := WithBot (WithTop ℚ)

def score (z : ℤ) : Score := (((z : ℚ) : WithTop ℚ) : WithBot (WithTop ℚ))

@[simp] theorem score_le_score {a b : ℤ} : score a ≤ score b ↔ a ≤ b := by simp [score]

@[simp] theorem score_lt_score {a b : ℤ} : score a < score b ↔ a < b := by simp [score]

@[simp] theorem score_inj {a b : ℤ} : score a = score b ↔ a = b := by simp [score]

abbrev ScoreSet := Table String Score

/-- `9007199254740990`, the largest number the library accepts anywhere. -/
def maxInteger : Nat := 9007199254740990

/-- `model.Config`: the limits and the lifetimes in milliseconds of one room. -/
structure Config where
  visitorCap : Nat
  idempotencyCap : Nat
  leaseCap : Nat
  rate : Nat
  idleTTL : Nat
  ticketTTL : Nat
  readyTTL : Nat
  admissionTTL : Nat
  idempotencyTTL : Nat
  clockSkew : Nat
deriving DecidableEq, Repr

/-- What `model.New` accepts. Both `openRuntimeRoom` and `Configure` check it
before a config is sent to the library. -/
structure Config.Valid (c : Config) : Prop where
  visitorCap : 0 < c.visitorCap
  idempotencyCap : 0 < c.idempotencyCap
  leaseCap : 0 < c.leaseCap
  leaseCap_le : c.leaseCap ≤ c.visitorCap
  rate : 0 < c.rate
  idleTTL : 0 < c.idleTTL
  ticketTTL : c.idleTTL ≤ c.ticketTTL
  readyTTL : 0 < c.readyTTL
  admissionTTL : 60000 ≤ c.admissionTTL
  admissionTTL_le : c.admissionTTL ≤ 3600000
  idempotencyTTL : 0 < c.idempotencyTTL
  clockSkew : c.clockSkew ≤ 30000

/-- `InstallationConfig`; its profile only selects the ceilings checked before
the first call. -/
structure InstallationConfig where
  profile : String
  visitorCap : Nat
  idempotencyCap : Nat
deriving DecidableEq, Repr

inductive TicketState
  | waiting
  | ready
  | admitted
deriving DecidableEq, Repr

/-- A ticket row. `promotedAt` is absent until the ticket is promoted. -/
structure Ticket where
  id : String
  sequence : Nat
  state : TicketState
  epoch : Nat
  joinedAt : Nat
  idleUntil : Nat
  absoluteUntil : Nat
  readyUntil : Nat
  admissionUntil : Nat
  jti : String
  promotedAt : Option Nat
deriving DecidableEq, Repr

/-- The moment from which `expired` holds and at which the expiry set scores the ticket. -/
def Ticket.deadline (clockSkew : Nat) (t : Ticket) : Nat :=
  match t.state with
  | .waiting => min t.idleUntil t.absoluteUntil
  | .ready => t.readyUntil
  | .admitted => t.admissionUntil + clockSkew

/-- `expired`: the ticket's own deadline has passed. -/
def expired (t : Ticket) (now : Nat) (c : Config) : Bool :=
  match t.state with
  | .waiting => decide (min t.idleUntil t.absoluteUntil ≤ now)
  | .ready => decide (t.readyUntil ≤ now)
  | .admitted => decide (t.admissionUntil + c.clockSkew ≤ now)

/-- The JTI of the admission of a ticket: `admission:<epoch>:<sequence>`. -/
def admissionId (epoch sequence : Nat) : String :=
  "admission:" ++ toString epoch ++ ":" ++ toString sequence

/-- The first answer to a join, kept with its idempotency row. -/
structure JoinSnapshot where
  ticket : Ticket
  idleTTL : Nat
deriving DecidableEq, Repr

/-- An idempotency row. Rows of the v5 library carry no join snapshot. -/
structure Idem where
  id : String
  fingerprint : String
  replay : String
  join : Option JoinSnapshot
deriving DecidableEq, Repr

/-- The mode of a room. `recoveryHold` is tested by `command` and never set. -/
inductive RoomMode
  | auto
  | hold
  | draining
  | off
  | recoveryHold
deriving DecidableEq, Repr

inductive Mode
  | active
  | recoveryHold
deriving DecidableEq, Repr

inductive RecoveryReason
  | epochReset
  | initializationUncertainty
  | primaryChanged
  | clockRollback
  | uncertainWrite
  | stateUncertain
  | schemaMigration
deriving DecidableEq, Repr

/-- The codes of `validation_failed`. -/
inductive ValidationError
  | roomSchema
  | roomCardinality
  | ticketShape
  | waitingIndex
  | admissionState
  | leaseIndex
  | ticketState
  | expiryOwnerIndex
  | reservationCardinality
  | idempotencyIndex
  | joinReplay
  | rateWindow
  | validationPhase
  | installationMetadata
  | installationCardinality
deriving DecidableEq, Repr

inductive Phase
  | tickets
  | idempotency
  | done
  | other
deriving DecidableEq, Repr

/-- The `validation*` fields of a room: how far a recovery has read it, and
under which fence. -/
structure Progress where
  fence : Nat
  phase : Phase
  offset : Nat
  waiting : Nat
  ready : Nat
  leases : Nat
  maxSeq : Nat
deriving DecidableEq, Repr

/-- The fields `validated:`, `validatedVisitors:` and `validatedIdems:` of a room. -/
structure Validated where
  fence : Nat
  visitors : Nat
  idems : Nat
deriving DecidableEq, Repr

/-- The text that `configure` compares on a repeated revision. -/
structure Desired where
  config : Config
  configRevision : Nat
  runtimeRevision : Nat
  mode : RoomMode
deriving DecidableEq, Repr

/-- Keys 1 to 8: the metadata hash of a room, its tickets with their three
indexes, the rate window, and the idempotency rows with their expiry. `T` and
`I` are what the texts of a ticket row and of an idempotency row hold. -/
structure Room (T I : Type) where
  config : Option Config := none
  schema : Nat := 0
  epoch : Nat := 0
  room : String := ""
  seq : Nat := 0
  mode : RoomMode := .hold
  clock : Nat := 0
  configRevision : Nat := 0
  runtimeRevision : Nat := 0
  desired : Option Desired := none
  ready : ℤ := 0
  cutoff : Option Nat := none
  validation : Option Progress := none
  tickets : Table String T := ∅
  waiting : ScoreSet := ∅
  expiry : ScoreSet := ∅
  leases : ScoreSet := ∅
  rate : ScoreSet := ∅
  idem : Table String I := ∅
  idemExpiry : ScoreSet := ∅

/-- Keys 9 to 11: the metadata hash of an installation in one epoch and the two
sets of owners, whose members are `room:id`. -/
structure Installation where
  config : Option InstallationConfig := none
  schema : Nat := 0
  primary : Option String := none
  mode : Mode := .active
  clock : Nat := 0
  fence : Nat := 0
  unsafeUntil : Nat := 0
  leaseLifetime : Nat := 0
  epoch : Option Nat := none
  dirty : Bool := false
  visitors : Nat := 0
  idems : Nat := 0
  handshakeAt : Nat := 0
  recoveryReason : Option RecoveryReason := none
  validationError : Option ValidationError := none
  recoveredAt : Option Nat := none
  rooms : Finset String := ∅
  validated : Table String Validated := ∅
  visitorOwners : ScoreSet := ∅
  idemOwners : ScoreSet := ∅

structure EpochMeta where
  epoch : Option Nat := none
  clock : Option Nat := none
  unsafeUntil : Option Nat := none

structure Keys (T I : Type) where
  room : Room T I := {}
  inst : Installation := {}
  shared : EpochMeta := {}

/-- What a call reads of the server it runs on: the clock in milliseconds,
sampled once for the call, and the run id that `primary_id` reads from INFO. -/
structure Env where
  now : Nat
  primary : String
deriving DecidableEq, Repr

inductive WrError
  | schema
  | fenced
  | unavailable
  | command
  | sweepRequired
  | conflict
  | drain
  | capacity
  | expired
  | notReady
deriving DecidableEq, Repr

/-- `frame`: the recovery record a caller sees. -/
structure Frame where
  now : Nat
  primary : Option String
  fence : Nat
  mode : Mode
  unsafeUntil : Nat
  reason : Option RecoveryReason
  validationError : Option ValidationError
deriving DecidableEq, Repr

structure Capacity where
  visitors : Nat
  idempotency : Nat
  visitorCap : Nat
  idempotencyCap : Nat
  retainedVisitors : Nat
  retainedIdempotency : Nat
  warning : Bool
deriving DecidableEq, Repr

structure Metrics where
  waiting : Nat
  ready : ℤ
  leases : Nat
  rate : Nat
  mode : RoomMode
  revision : Nat
  epoch : Nat
  recoveryUntil : Nat
deriving DecidableEq, Repr

inductive Reply
  | answer (now : Nat) (ticket : Option Ticket) (replay : String) (join : Option JoinSnapshot)
  | tickets (now : Nat) (tickets : List Ticket)
  | frame (f : Frame)
  | capacity (now : Nat) (c : Capacity)
  | metrics (now : Nat) (m : Metrics)
deriving DecidableEq, Repr

/-- How a call ends. `abort` is an uncaught Lua error: the call stops and the
writes it has already made stay. -/
inductive Outcome
  | reply (r : Reply)
  | error (e : WrError)
  | abort
deriving DecidableEq, Repr

end WaitingRoom.Queue
