import WaitingRoom.Queue.Fence

/-!
# Recovery validation

`wr_r6_validate` reads a held room 128 rows at a time, whatever its rows
contain. A row is a text: it decodes to a JSON value or not at all, and every
field of the value is tested before it is used.
-/

namespace WaitingRoom.Queue

set_option autoImplicit false

/-- The values `cjson.decode` makes of a text. -/
inductive Json
  | null
  | bool (b : Bool)
  | nan
  | num (x : Score)
  | str (s : String)
  | list (items : List Json)
  | object (fields : List (String × Json))

namespace Json

/-- Indexing by a field name; arrays and scalars have no such fields, and the
last of repeated fields counts. -/
def field : Json → String → Option Json
  | .object fields, name => fields.reverse.lookup name
  | _, _ => none

def text (j : Json) (name : String) : Option String :=
  match j.field name with
  | some (.str s) => some s
  | _ => none

def number (j : Json) (name : String) : Option Score :=
  match j.field name with
  | some (.num x) => some x
  | _ => none

/-- Everything but `nil` and `false` is true in a condition. -/
def truthy : Option Json → Bool
  | none => false
  | some (.bool b) => b
  | some _ => true

end Json

/-- `integer`: a whole number from 0 to 9007199254740990. -/
def integer (x : Score) : Option Nat :=
  match (x : Option (Option ℚ)) with
  | some (some q) =>
    if q.den = 1 ∧ 0 ≤ q.num ∧ q.num ≤ (maxInteger : ℤ) then some q.num.toNat else none
  | _ => none

def Json.natural (j : Json) (name : String) : Option Nat := (j.number name).bind integer

def hexDigit (c : Char) : Bool := decide (('a' ≤ c ∧ c ≤ 'f') ∨ ('0' ≤ c ∧ c ≤ '9'))

def hex64 (s : String) : Bool := decide (s.utf8ByteSize = 64) && s.toList.all hexDigit

/-- What a stored text decodes to, if it decodes at all. -/
class Decodes (T : Type) where
  json : T → Option Json

instance : Decodes (Option Json) := ⟨id⟩

structure TicketShape where
  sequence : Nat
  joinedAt : Nat
  idleUntil : Nat
  absoluteUntil : Nat

/-- The tests behind `ticket_shape`. -/
def ticketShape (epoch : Nat) (id : String) (j : Json) : Option TicketShape :=
  match j.natural "Sequence", j.natural "JoinedAt", j.natural "IdleUntil",
      j.natural "AbsoluteUntil" with
  | some sequence, some joinedAt, some idleUntil, some absoluteUntil =>
    if hex64 id ∧ j.text "ID" = some id ∧ j.number "Epoch" = some (score epoch) ∧ 1 ≤ sequence ∧
        joinedAt ≤ absoluteUntil ∧ joinedAt ≤ idleUntil ∧ idleUntil ≤ absoluteUntil then
      some ⟨sequence, joinedAt, idleUntil, absoluteUntil⟩
    else none
  | _, _, _, _ => none

structure AdmissionShape where
  promotedAt : Nat
  readyUntil : Nat
  admissionUntil : Nat

/-- The tests of a READY or ADMITTED ticket behind `admission_state`, the index apart. -/
def admissionShape (epoch now : Nat) (s : TicketShape) (j : Json) : Option AdmissionShape :=
  match j.natural "PromotedAt", j.natural "ReadyUntil", j.natural "AdmissionUntil" with
  | some promotedAt, some readyUntil, some admissionUntil =>
    if s.joinedAt ≤ promotedAt ∧ promotedAt < readyUntil ∧ readyUntil ≤ admissionUntil ∧
        admissionUntil ≤ now ∧ j.text "JTI" = some (admissionId epoch s.sequence) then
      some ⟨promotedAt, readyUntil, admissionUntil⟩
    else none
  | _, _, _ => none

structure Scan where
  waiting : Nat
  ready : Nat
  leases : Nat
  maxSeq : Nat
deriving DecidableEq, Repr

variable {T I : Type} [Decodes T] [Decodes I]

def checkExpiry (k : Keys T I) (id : String) (x : Score) (deadline : Nat) (s : Scan) :
    Except ValidationError Scan :=
  if x ≠ score deadline ∨
      k.inst.visitorOwners.get (member k.room.room id) ≠ some (score deadline) then
    .error .expiryOwnerIndex
  else .ok s

def checkWaiting (k : Keys T I) (id : String) (x : Score) (t : TicketShape) (s : Scan) :
    Except ValidationError Scan :=
  if k.room.waiting.get id ≠ some (score t.sequence) ∨
      k.room.waiting.count (fun y => decide (y = score t.sequence)) ≠ 1 ∨
      (k.room.leases.get id).isSome then
    .error .waitingIndex
  else
    checkExpiry k id x (min t.idleUntil t.absoluteUntil) { s with waiting := s.waiting + 1 }

def checkLease (k : Keys T I) (id : String) (x : Score) (deadline : Nat) (s : Scan) :
    Except ValidationError Scan :=
  if k.room.leases.get id ≠ some (score deadline) then .error .leaseIndex
  else checkExpiry k id x deadline s

def checkTicket (k : Keys T I) (c : Config) (now : Nat) (id : String) (x : Score) (s : Scan) :
    Except ValidationError Scan :=
  match (k.room.tickets.get id).bind Decodes.json with
  | none => .error .ticketShape
  | some j =>
    match ticketShape k.room.epoch id j with
    | none => .error .ticketShape
    | some t =>
      let s := { s with maxSeq := max s.maxSeq t.sequence }
      if j.text "State" = some "WAITING" then checkWaiting k id x t s
      else if j.text "State" = some "READY" ∨ j.text "State" = some "ADMITTED" then
        match admissionShape k.room.epoch now t j with
        | none => .error .admissionState
        | some a =>
          if (k.room.waiting.get id).isSome then .error .admissionState
          else if j.text "State" = some "READY" then
            checkLease k id x a.readyUntil { s with leases := s.leases + 1, ready := s.ready + 1 }
          else
            checkLease k id x (a.admissionUntil + c.clockSkew) { s with leases := s.leases + 1 }
      else .error .ticketState

def scanTickets (k : Keys T I) (c : Config) (now : Nat) :
    List (String × Score) → Scan → Except ValidationError Scan
  | [], s => .ok s
  | (id, x) :: page, s =>
    match checkTicket k c now id x s with
    | .error e => .error e
    | .ok s => scanTickets k c now page s

/-- The tests of a join snapshot behind `join_replay`. -/
def joinShape (epoch : Nat) (c : Config) (id : String) (retained : Nat) (j : Json) : Bool :=
  match j.field "ticket" with
  | none => false
  | some t =>
    match j.natural "idleTTL", t.natural "JoinedAt", t.natural "IdleUntil",
        t.natural "AbsoluteUntil" with
    | some idleTTL, some joinedAt, some idleUntil, some absoluteUntil =>
      decide (1 ≤ idleTTL ∧ t.text "ID" = some id ∧ t.text "State" = some "WAITING" ∧
        t.number "Epoch" = some (score epoch) ∧ idleUntil = joinedAt + idleTTL ∧
        idleUntil ≤ absoluteUntil ∧ retained = joinedAt + c.idempotencyTTL)
    | _, _, _, _ => false

def checkIdem (k : Keys T I) (c : Config) (id : String) (x : Score) : Except ValidationError Unit :=
  match (k.room.idem.get id).bind Decodes.json with
  | none => .error .idempotencyIndex
  | some j =>
    match j.text "id", j.text "fingerprint", j.text "replay", integer x with
    | some ticket, some fingerprint, some replay, some retained =>
      if hex64 id ∧ hex64 ticket ∧ hex64 fingerprint ∧ replay.utf8ByteSize ≤ 8192 ∧
          k.inst.idemOwners.get (member k.room.room id) = some x then
        match j.field "join" with
        | none => .ok ()
        | some snapshot =>
          if Json.truthy (some snapshot) then
            if joinShape k.room.epoch c ticket retained snapshot then .ok ()
            else .error .joinReplay
          else .ok ()
      else .error .idempotencyIndex
    | _, _, _, _ => .error .idempotencyIndex

def scanIdems (k : Keys T I) (c : Config) : List (String × Score) → Except ValidationError Unit
  | [] => .ok ()
  | (id, x) :: page =>
    match checkIdem k c id x with
    | .error e => .error e
    | .ok _ => scanIdems k c page

def framed (k : Keys T I) (now : Nat) : Outcome × Keys T I := (.reply (.frame (frame k now)), k)

def validationFailed (k : Keys T I) (now : Nat) (e : ValidationError) : Outcome × Keys T I :=
  framed { k with inst := { k.inst with validationError := some e } } now

def setProgress (k : Keys T I) (p : Progress) : Keys T I :=
  { k with room := { k.room with validation := some p } }

def currentProgress (k : Keys T I) : Progress :=
  match k.room.validation with
  | some p => if p.fence = k.inst.fence then p else ⟨k.inst.fence, .tickets, 0, 0, 0, 0, 0⟩
  | none => ⟨k.inst.fence, .tickets, 0, 0, 0, 0, 0⟩

def validateTickets (k : Keys T I) (now : Nat) (c : Config) (p : Progress) : Outcome × Keys T I :=
  let page := k.room.expiry.page p.offset 128
  match scanTickets k c now page ⟨p.waiting, p.ready, p.leases, p.maxSeq⟩ with
  | .error e => validationFailed k now e
  | .ok s =>
    let p := { p with
      offset := p.offset + page.length
      waiting := s.waiting
      ready := s.ready
      leases := s.leases
      maxSeq := s.maxSeq }
    if k.room.tickets.size ≤ p.offset then
      if s.waiting ≠ k.room.waiting.size ∨ s.leases ≠ k.room.leases.size ∨
          (s.ready : ℤ) ≠ k.room.ready ∨ c.leaseCap < s.leases ∨ k.room.seq < s.maxSeq then
        validationFailed (setProgress k p) now .reservationCardinality
      else framed (setProgress k { p with phase := .idempotency, offset := 0 }) now
    else framed (setProgress k p) now

def markValidated (k : Keys T I) : Keys T I :=
  { k with inst := { k.inst with
      validated := k.inst.validated.put k.room.room
        ⟨k.inst.fence, k.room.tickets.size, k.room.idem.size⟩ } }

def validateIdems (k : Keys T I) (now : Nat) (c : Config) (p : Progress) : Outcome × Keys T I :=
  let page := k.room.idemExpiry.page p.offset 128
  match scanIdems k c page with
  | .error e => validationFailed k now e
  | .ok _ =>
    let p := { p with offset := p.offset + page.length }
    if k.room.idem.size ≤ p.offset then
      if k.room.rate.count (fun s => decide (score ((now : ℤ) - 60000) < s)) ≠ 0 ∨
          c.rate < k.room.rate.size then
        validationFailed (setProgress k p) now .rateWindow
      else framed (markValidated (setProgress k { p with phase := .done })) now
    else framed (setProgress k p) now

def fieldCount (g : Installation) : Nat :=
  15 + (if g.recoveredAt.isSome then 1 else 0) + g.rooms.card + 3 * g.validated.size

def RoomValidated (g : Installation) (room : String) : Prop :=
  (g.validated.get room).map Validated.fence = some g.fence
  deriving Decidable

def totalVisitors (g : Installation) : Nat :=
  ∑ r ∈ g.rooms, ((g.validated.get r).map Validated.visitors).getD 0

def totalIdems (g : Installation) : Nat :=
  ∑ r ∈ g.rooms, ((g.validated.get r).map Validated.idems).getD 0

/-- The tests behind `installation_cardinality`. -/
def TotalsAgree (g : Installation) (global : InstallationConfig) : Prop :=
  1 ≤ g.rooms.card ∧ g.rooms.card ≤ 100 ∧
    totalVisitors g = g.visitorOwners.size ∧ totalIdems g = g.idemOwners.size ∧
    totalVisitors g = g.visitors ∧ totalIdems g = g.idems ∧
    totalVisitors g ≤ global.visitorCap ∧ totalIdems g ≤ global.idempotencyCap
  deriving Decidable

def activate (k : Keys T I) (now : Nat) : Keys T I :=
  { k with inst := { k.inst with
      mode := .active
      dirty := false
      clock := now
      recoveredAt := some now } }

def validateTotals (k : Keys T I) (now : Nat) : Outcome × Keys T I :=
  if 1024 < fieldCount k.inst then validationFailed k now .installationMetadata
  else if ∀ r ∈ k.inst.rooms, RoomValidated k.inst r then
    match k.inst.config with
    | none => (.abort, k)
    | some global =>
      if TotalsAgree k.inst global then framed (activate k now) now
      else validationFailed k now .installationCardinality
  else framed k now

def wrR6Validate (k : Keys T I) (env : Env) (primary : String) (fence : Nat) :
    Outcome × Keys T I :=
  if ¬ Fenced k env primary fence then (.error .fenced, k)
  else if k.inst.mode ≠ .recoveryHold ∨ env.now < k.inst.unsafeUntil ∨
      k.inst.validationError ≠ none then
    framed k env.now
  else
    match k.room.config with
    | none => validationFailed k env.now .roomSchema
    | some c =>
      if k.room.schema ≠ 5 then validationFailed k env.now .roomSchema
      else if k.room.tickets.size ≠ k.room.expiry.size ∨ k.room.idem.size ≠ k.room.idemExpiry.size ∨
          c.visitorCap < k.room.tickets.size ∨ c.idempotencyCap < k.room.idem.size then
        validationFailed k env.now .roomCardinality
      else
        let p := currentProgress k
        let k := setProgress k p
        match p.phase with
        | .tickets => validateTickets k env.now c p
        | .idempotency => validateIdems k env.now c p
        | .done => validateTotals k env.now
        | .other => validationFailed k env.now .validationPhase

end WaitingRoom.Queue
