import WaitingRoom.Shared.Run
import WaitingRoom.Trust.Snapshot
import WaitingRoom.Control.Codec
import WaitingRoom.Shared.Runes

/-!
# Control's transactions

The rows that Control keeps in its database and the operations on them. Every
operation runs in one transaction under the lock of the configuration row, so that
the operations happen one after another; what authenticates, replays and audits a
command is left out, as it does not touch these rows. The documents are `jsonb`
columns: an operation reads their text back, with the fields of every object in the
order that the database gives them. Times are microseconds.
-/

namespace WaitingRoom.Control

set_option autoImplicit false

open Doc
open Queue (RoomMode)
open Trust (Bytes)

/-- What Control runs on: the packages it calls and the field order of the database. -/
structure Host where
  library : Library
  trust : Trust.Platform
  order : List (String × Doc) → List (String × Doc)
  order_perm : ∀ fs, (order fs).Perm fs

/-- The text of a `jsonb` column. -/
def Host.column (h : Host) (j : Doc) : List Char := print spaced (reorder h.order j)

def Config.bytes (c : Config) : Bytes := utf8 (print compact c.toDoc)

def Delivery.bytes (d : Delivery) : Bytes := utf8 (print compact d.toDoc)

structure Service where
  kid : String
  key : Bytes
  installation : String
  keyGeneration : ℤ := 0
  keyDigest : String := ""

/-- The last signed envelope. The key id is the one inside `raw`. -/
structure Published where
  raw : Bytes
  kid : String
  issuedAt : ℤ
  expiresAt : ℤ
deriving DecidableEq

inductive NodeId
  | coordinator | gateway
deriving DecidableEq, Repr

structure RoomMetrics where
  roomId : String
  revision : ℤ
  epoch : Nat
  mode : RoomMode
  waiting : ℤ := 0
  ready : ℤ := 0
  leases : ℤ := 0
  rate : ℤ := 0
  originHealthy : Bool := false
  arrivalWindowReady : Bool := false
  arrivalsFiveMinutes : ℤ := 0
  http5xxLastMinute : Option ℤ := none
  http5xxWindowReady : Bool := false
  recoveryUntil : ℤ := 0
  recoveryFence : Nat := 0
  recoveryReason : String := ""
  recoveryValidation : String := ""
deriving DecidableEq

structure NodeAck where
  keyGeneration : ℤ := 0
  keyDigest : String := ""
  generation : ℤ
  digest : String
  rooms : List RoomMetrics

/-- A row of `control_nodes`. -/
structure NodeRow where
  generation : Nat
  observedAt : ℤ
  rooms : List RoomMetrics
deriving DecidableEq

/-- The rows of Control. The documents are kept as the values they were written from. -/
structure Store where
  revision : ℤ
  config : Config
  delivery : Delivery
  generation : Nat := 0
  published : Option Published := none
  events : Table String Event := ∅
  nodes : NodeId → Option NodeRow := fun _ => none

inductive Err
  | unavailable | invalid | conflict | forbidden
deriving DecidableEq, Repr

inductive Code
  | invalidRequest | revisionMismatch | unsupportedCapability | invalidThemeImage | routeConflict
  | invalidConfig | configCapacityExceeded | roomRemovalRequiresArchive
  | activeRoomChangeRequiresDrain | notFound | roomInactive | forbidden | eventInactive
  | invalidEvent | eventOverlap | eventCapacityExceeded
deriving DecidableEq, Repr

inductive Reply
  | done
  | failed (e : Err)
  | problem (status : Nat) (code : Code)
  | saved (c : Config)
  | pending (generation : Nat) (revision : ℤ)
  | runtime (r : Runtime)
  | event (e : Event)
  | envelope (raw : Bytes)
deriving DecidableEq

inductive Method
  | get | post | put | patch | delete
deriving DecidableEq, Repr

section Read

variable (h : Host) (s : Store)

def readConfig : Option Config :=
  match decodeExact Config.ofDoc (h.column s.config.toDoc) with
  | none => none
  | some c => if c.Valid h.library ∧ c.revision = s.revision then some c else none

def readDelivery : Option (Delivery × Nat) :=
  match decodeExact Delivery.ofDoc (h.column s.delivery.toDoc) with
  | none => none
  | some d => if d.Valid h.library then some (d, s.generation) else none

def Event.Before (e e' : Event) : Prop := toLex (e.prequeueAt, e.id) ≤ toLex (e'.prequeueAt, e'.id)

instance : DecidableRel Event.Before := fun e e' =>
  inferInstanceAs (Decidable (toLex (e.prequeueAt, e.id) ≤ toLex (e'.prequeueAt, e'.id)))

def roomEvents (events : Table String Event) (room : String) : List Event :=
  ((events.rows.map Prod.snd).filter fun e => e.roomId == room).insertionSort Event.Before

def readEvents (events : Table String Event) (room : String) : Option (List Event) :=
  if 1000 < (roomEvents events room).length then none else some (roomEvents events room)

end Read

section Sign

def day : ℤ := 24 * 3600000000

/-- `Time.Unix`. -/
def unix (t : ℤ) : ℤ := t / 1000000

def unixMilli (t : ℤ) : ℤ := t / 1000

/-- The snapshot of a delivery that `sign` signs. -/
def snapshotOf (svc : Service) (d : Delivery) (generation : Nat) (now : ℤ) : Trust.Snapshot where
  schemaVersion := 1
  installation := svc.installation
  generation := generation + 1
  revision := d.config.revision.toNat
  issuedAt := unix now
  expiresAt := unix (now + day)
  kid := svc.kid
  payload := d.bytes

/-- `sign`: the delivery and its envelope are written with the next generation. The
checks of the row are those of the database. -/
def sign (h : Host) (svc : Service) (s : Store) (d : Delivery) (generation : Nat) (now : ℤ) :
    Except Err Store :=
  if ¬ d.Valid h.library then .error .invalid
  else
    match Trust.sign h.trust svc.key (snapshotOf svc d generation now) with
    | none => .error .invalid
    | some raw =>
      if maxInteger ≤ (generation + 1 : ℤ) ∨ raw.length = 0 ∨ maxConfigBytes < raw.length then
        .error .unavailable
      else
        .ok { s with
          delivery := d, generation := generation + 1,
          published := some ⟨raw, svc.kid, now, now + day⟩ }

end Sign

section Draft

def worstRuntime : Runtime where
  revision := 9007199254740989
  mode := .recoveryHold
  limits := ⟨100000, 60000, 3600⟩
  epoch := 9007199254740989
  eventState := .pausedByOverride
  recoveryUntil := 9007199254740989

def Config.worstDelivery (c : Config) : Delivery where
  config := { c with revision := 9007199254740989 }
  runtimes := c.rooms.map fun r => ⟨r.id, worstRuntime⟩

def snapshotDoc (s : Trust.Snapshot) (payload : Doc) : Doc :=
  .obj [("schemaVersion", .num s.schemaVersion), ("installation", .str s.installation),
    ("generation", .num s.generation), ("revision", .num s.revision),
    ("issuedAt", .num s.issuedAt), ("expiresAt", .num s.expiresAt), ("kid", .str s.kid),
    ("payload", payload)]

def envelopeDoc (snapshot : Doc) (signature : String) : Doc :=
  .obj [("snapshot", snapshot), ("signature", .str signature)]

def worstSnapshot : Trust.Snapshot where
  schemaVersion := 1
  installation := String.ofList (List.replicate 80 'i')
  generation := 9007199254740991
  revision := 9007199254740989
  issuedAt := 253402127999
  expiresAt := 253402214399
  kid := String.ofList (List.replicate 80 'k')

/-- `FitsDeliveryBudget`. -/
def Config.FitsDeliveryBudget (c : Config) : Prop :=
  size compact c.worstDelivery.toDoc ≤ maxConfigBytes ∧
    size compact (envelopeDoc (snapshotDoc worstSnapshot c.worstDelivery.toDoc)
      (String.ofList (List.replicate 86 's'))) ≤ Trust.maxSnapshotBytes
  deriving Decidable

/-- `NormalizeThemeImages`. -/
def normalizeRooms (x : Library) : List Room → Option (List Room)
  | [] => some []
  | r :: rooms =>
    match x.sanitizeLogo r.theme.logoImage, normalizeRooms x rooms with
    | some logo, some rooms => some ({ r with theme := { r.theme with logoImage := logo } } :: rooms)
    | _, _ => none

/-- `ReplaceDraft`, with what `DecodeExact` made of the body. -/
def replaceDraft (h : Host) (s : Store) (ifMatch : String) (body : Option Config) : Reply × Store :=
  match readConfig h s with
  | none => (.failed .unavailable, s)
  | some current =>
    if ifMatch ≠ configETag current.revision then (.problem 412 .revisionMismatch, s)
    else
      match body with
      | none => (.problem 400 .invalidRequest, s)
      | some next =>
        if next.revision ≠ current.revision ∨ next.profile ≠ current.profile ∨
            next.regionId ≠ current.regionId then
          (.problem 422 .unsupportedCapability, s)
        else
          match normalizeRooms h.library next.rooms with
          | none => (.problem 422 .invalidThemeImage, s)
          | some rooms =>
            let next := { next with rooms := rooms }
            match next.validate h.library with
            | some .conflict => (.problem 409 .routeConflict, s)
            | some .invalid => (.problem 422 .invalidConfig, s)
            | none =>
              if ¬ next.FitsDeliveryBudget then (.problem 422 .configCapacityExceeded, s)
              else
                let saved := { next with revision := next.revision + 1 }
                if maxConfigBytes < saved.bytes.length then (.problem 422 .invalidConfig, s)
                -- the check of the revision column
                else if maxInteger ≤ saved.revision then (.failed .unavailable, s)
                else (.saved saved, { s with config := saved, revision := saved.revision })

end Draft

section Publish

/-- The runtime that a published room starts or goes on with; `none` if the change
would bypass an active queue. -/
def nextRuntime (previous : Delivery) (room : Room) : Option Runtime :=
  match previous.find room.id with
  | none =>
    match previous.runtimes with
    | [] => some (initialRuntime room)
    | first :: _ => some { initialRuntime room with
        epoch := first.runtime.epoch, recoveryUntil := first.runtime.recoveryUntil }
  | some (old, prior) =>
    if prior.mode ≠ .off ∧ (room.active = false ∨ old.origin ≠ room.origin ∨
        old.hostname ≠ room.hostname ∨ old.queuePolicy ≠ room.queuePolicy ∨
        old.protectPrefixes ≠ room.protectPrefixes ∨
        old.excludePrefixes ≠ room.excludePrefixes) then none
    else some { prior with
      revision := prior.revision + 1
      limits := room.limits
      mode :=
        if room.active = false then .off
        else if old.active = false then .hold
        else prior.mode }

def nextRuntimes (previous : Delivery) : List Room → Option (List RoomRuntime)
  | [] => some []
  | room :: rooms =>
    match nextRuntime previous room, nextRuntimes previous rooms with
    | some runtime, some rest => some (⟨room.id, runtime⟩ :: rest)
    | _, _ => none

def keepsRooms (rooms : List Room) : List Room → Option Code
  | [] => none
  | old :: olds =>
    if ∃ room ∈ rooms, room.id = old.id ∧ room.publicId ≠ old.publicId then some .routeConflict
    else if ∃ room ∈ rooms, room.id = old.id then keepsRooms rooms olds
    else some .roomRemovalRequiresArchive

def publish (h : Host) (svc : Service) (s : Store) (method : Method) (raw ifMatch : String)
    (now : ℤ) : Reply × Store :=
  match readConfig h s with
  | none => (.failed .unavailable, s)
  | some current =>
    if method ≠ .post ∨ raw ≠ "\x7b\x7d" then (.problem 400 .invalidRequest, s)
    else if ifMatch ≠ configETag current.revision then (.problem 412 .revisionMismatch, s)
    else
      match readDelivery h s with
      | none => (.failed .unavailable, s)
      | some (previous, generation) =>
        match keepsRooms current.rooms previous.config.rooms with
        | some code => (.problem 409 code, s)
        | none =>
          match nextRuntimes previous current.rooms with
          | none => (.problem 409 .activeRoomChangeRequiresDrain, s)
          | some runtimes =>
            match sign h svc s ⟨current, runtimes⟩ generation now with
            | .error .invalid => (.problem 422 .invalidConfig, s)
            | .error e => (.failed e, s)
            | .ok s => (.pending (generation + 1) current.revision, s)

end Publish

section Operate

inductive Action
  | newEpoch | instantOff | auto | hold | safeDrain | setLimits | other
deriving DecidableEq, Repr

structure RuntimeCommand where
  action : Action
  limits : Option Limits := none
  scope : String := ""
  generation : Option ℤ := none
deriving DecidableEq

def Event.Live (e : Event) : Prop := e.state = .scheduled ∨ e.state = .running
  deriving Decidable

/-- The update that pauses the events with `p`. -/
def pauseEvents (p : Event → Bool) (events : Table String Event) : Table String Event :=
  events.mapVals fun e => if p e ∧ e.Live then { e with state := .pausedByOverride } else e

def Delivery.setRuntime (d : Delivery) (id : String) (runtime : Runtime) : Delivery :=
  { d with runtimes := d.runtimes.map fun v => if v.roomId = id then ⟨v.roomId, runtime⟩ else v }

def epochRuntime (recoveryUntil : ℤ) (room : Room) (v : RoomRuntime) : RoomRuntime where
  roomId := v.roomId
  runtime := { v.runtime with
    epoch := v.runtime.epoch + 1
    revision := v.runtime.revision + 1
    recoveryUntil := recoveryUntil
    mode := if room.active then .hold else .off
    eventState :=
      if v.runtime.eventState = .scheduled ∨ v.runtime.eventState = .running then .pausedByOverride
      else v.runtime.eventState }

/-- The rooms of the delivery are not all in `epoch`. -/
def Delivery.MixedEpochs (d : Delivery) (epoch : Nat) : Prop :=
  ∃ v ∈ d.runtimes, v.runtime.epoch ≠ epoch
  deriving Decidable

def Delivery.nextEpoch (d : Delivery) (recoveryUntil : ℤ) : Delivery :=
  { d with runtimes := List.zipWith (epochRuntime recoveryUntil) d.config.rooms d.runtimes }

/-- The branch of `Operate` for a new epoch of the whole installation. -/
def newEpoch (h : Host) (svc : Service) (s : Store) (d : Delivery) (generation : Nat) (id : String)
    (runtime : Runtime) (command : RuntimeCommand) (now : ℤ) : Reply × Store :=
  match command.generation with
  | none => (.problem 400 .invalidRequest, s)
  | some asked =>
    if command.scope ≠ "installation" ∨ command.limits ≠ none ∨ asked < 1 then
      (.problem 400 .invalidRequest, s)
    else if asked ≠ generation then (.problem 412 .revisionMismatch, s)
    else if d.MixedEpochs runtime.epoch then (.failed .unavailable, s)
    else if 9007199254740989 ≤ runtime.epoch then (.problem 409 .revisionMismatch, s)
    else
      let next := d.nextEpoch (unixMilli (now + 3630000000))
      let events := pauseEvents (fun _ => true) s.events
      match sign h svc { s with events := events } next generation now with
      | .error e => (.failed e, s)
      | .ok s' =>
        match next.find id with
        | none => (.failed .unavailable, s)
        | some (_, runtime) => (.runtime runtime, s')

def Action.apply (profile : String) (runtime : Runtime) (limits : Option Limits) :
    Action → Except (Nat × Code) Runtime
  | .instantOff => .ok { runtime with mode := .off }
  | .auto => .ok { runtime with mode := .auto }
  | .hold => .ok { runtime with mode := .hold }
  | .safeDrain => .ok { runtime with mode := .draining }
  | .setLimits =>
    match limits with
    | none => .error (422, .invalidConfig)
    | some l => if l.Valid profile then .ok { runtime with limits := l }
      else .error (422, .invalidConfig)
  | .newEpoch | .other => .error (403, .forbidden)

/-- `Operate`, with what `DecodeExact` made of the body. -/
def operate (h : Host) (svc : Service) (s : Store) (id : String) (method : Method)
    (body : Option RuntimeCommand) (ifMatch : String) (now : ℤ) : Reply × Store :=
  match method, body with
  | .patch, some command =>
    match readConfig h s with
    | none => (.failed .unavailable, s)
    | some current =>
      match readDelivery h s with
      | none => (.failed .unavailable, s)
      | some (d, generation) =>
        match d.find id with
        | none => (.problem 404 .notFound, s)
        | some (room, runtime) =>
          if ifMatch ≠ runtime.etag then (.problem 412 .revisionMismatch, s)
          else if command.action = .newEpoch then
            newEpoch h svc s d generation id runtime command now
          else if command.scope ≠ "" ∨ command.generation ≠ none then
            (.problem 400 .invalidRequest, s)
          else if room.active = false then (.problem 409 .roomInactive, s)
          else if command.action ≠ .setLimits ∧ command.limits ≠ none then
            (.problem 400 .invalidRequest, s)
          else
            match command.action.apply current.profile runtime command.limits with
            | .error (status, code) => (.problem status code, s)
            | .ok runtime =>
              let events := pauseEvents (fun e => e.roomId == id) s.events
              let paused := s.events.count fun e => decide (e.roomId = id ∧ e.Live)
              let runtime := { runtime with
                eventState := if 0 < paused then .pausedByOverride else runtime.eventState
                revision := runtime.revision + 1 }
              match sign h svc { s with events := events } (d.setRuntime id runtime) generation
                now with
              | .error e => (.failed e, s)
              | .ok s => (.runtime runtime, s)
  | _, _ => (.problem 400 .invalidRequest, s)

end Operate

section Events

inductive EventBody
  | absent | empty | input (e : EventInput) | other
deriving DecidableEq

/-- The insertion of an event; a row that is there keeps its room. The checks are
those of the table. -/
def upsertEvent (events : Table String Event) (e : Event) : Option (Table String Event) :=
  if ¬ Trust.Safe e.id ∨ ¬ (e.prequeueAt < e.admitAt ∧ e.admitAt < e.drainAt) then none
  else
    match events.get e.id with
    | none => some (events.put e.id e)
    | some old => some (events.put e.id { e with roomId := old.roomId })

def eventStateOfRoom : EventState → List Event → EventState
  | state, [] => state
  | state, e :: es =>
    if e.state = .pausedByOverride then .pausedByOverride
    else if e.state = .running then .running
    else if e.state = .scheduled then eventStateOfRoom .scheduled es
    else eventStateOfRoom state es

/-- The event that a request asks for, in a room with the events `events`. -/
def askedEvent (room : Room) (eventId fresh : String) (method : Method) (body : EventBody)
    (events : List Event) (found : Option Event) (now : ℤ) : Except (Nat × Code) Event :=
  match method, found with
  | .delete, some e =>
    if body = .absent ∨ body = .empty then .ok { e with state := .cancelled }
    else .error (400, .invalidRequest)
  | .post, some e =>
    if room.active = false then .error (409, .roomInactive)
    else if body ≠ .empty then .error (400, .invalidRequest)
    else if e.state ≠ .pausedByOverride ∨ e.drainAt ≤ now then .error (409, .eventInactive)
    else .ok { e with state := .scheduled }
  | _, _ =>
    if room.active = false then .error (409, .roomInactive)
    else
      match body with
      | .input e =>
        if ¬ e.Valid now then .error (422, .invalidEvent)
        else if ∃ other ∈ events, other.id ≠ eventId ∧ other.Overlaps e then
          .error (409, .eventOverlap)
        else if eventId = "" ∧ 1000 ≤ events.length then .error (422, .eventCapacityExceeded)
        else .ok ⟨if eventId = "" then fresh else eventId, room.id, e.prequeueAt / 1000,
          e.admitAt / 1000, e.drainAt / 1000, .scheduled⟩
      | _ => .error (400, .invalidRequest)

/-- `ChangeEvent`. The empty event id asks for a new event, which gets the id `fresh`. -/
def changeEvent (h : Host) (svc : Service) (s : Store) (roomId eventId : String) (method : Method)
    (body : EventBody) (ifMatch fresh : String) (now : ℤ) : Reply × Store :=
  match readConfig h s with
  | none => (.failed .unavailable, s)
  | some _ =>
    if eventId = "" ∧ method ≠ .post ∨
        eventId ≠ "" ∧ method ≠ .put ∧ method ≠ .delete ∧ method ≠ .post then
      (.problem 405 .invalidRequest, s)
    else
      match readDelivery h s with
      | none => (.failed .unavailable, s)
      | some (d, generation) =>
        let roomOf := if eventId = "" then some roomId else (s.events.get eventId).map Event.roomId
        match roomOf with
        | none => (.problem 404 .notFound, s)
        | some roomId =>
          match d.find roomId with
          | none => (.problem 404 .notFound, s)
          | some (room, runtime) =>
            if ifMatch ≠ runtime.etag then (.problem 412 .revisionMismatch, s)
            else
              match readEvents s.events roomId with
              | none => (.failed .unavailable, s)
              | some events =>
                let found := events.find? fun e => e.id == eventId
                if eventId ≠ "" ∧ ¬ found.any (fun e => decide e.Open) then
                  (.problem 409 .eventInactive, s)
                else
                  match askedEvent room eventId fresh method body events found now with
                  | .error (status, code) => (.problem status code, s)
                  | .ok next =>
                    match upsertEvent s.events next with
                    | none => (.failed .unavailable, s)
                    | some table =>
                      match readEvents table roomId with
                      | none => (.failed .unavailable, s)
                      | some events =>
                        let runtime := { runtime with
                          eventState := eventStateOfRoom .none events
                          revision := runtime.revision + 1 }
                        match sign h svc { s with events := table } (d.setRuntime roomId runtime)
                          generation now with
                        | .error e => (.failed e, s)
                        | .ok s => (.event next, s)

end Events

section Tick

def Store.nodeRows (s : Store) : List (NodeId × NodeRow) :=
  [NodeId.coordinator, NodeId.gateway].filterMap fun n => (s.nodes n).map fun row => (n, row)

def NodeRow.Fresh (row : NodeRow) (now : ℤ) : Prop :=
  now - 15000000 < row.observedAt ∧ row.observedAt ≤ now
  deriving Decidable

/-- `deliveryView` calls the delivery applied. -/
def Applied (s : Store) (generation : Nat) (now : ℤ) : Prop :=
  s.nodeRows.length = 2 ∧ 0 < generation ∧
    ∀ n ∈ s.nodeRows, n.2.generation = generation ∧ n.2.Fresh now
  deriving Decidable

/-- The metrics of a node that are about a draining room as it is delivered. The loop
of `safeDrain` keeps what the last of them says. -/
def drainMetrics (row : Option NodeRow) (room : String) (runtime : Runtime) : Option RoomMetrics :=
  ((row.map NodeRow.rooms).getD []).reverse.find? fun m =>
    decide (m.roomId = room ∧ m.mode = .draining ∧ m.revision = runtime.revision ∧
      m.epoch = runtime.epoch)

/-- `safeDrain`, in a view of the rows at the time `now`. -/
def SafeDrain (s : Store) (generation : Nat) (now : ℤ) (room : String) (runtime : Runtime) : Prop :=
  Applied s generation now ∧
    (∃ m ∈ drainMetrics (s.nodes .coordinator) room runtime,
      m.waiting = 0 ∧ m.ready = 0 ∧ m.recoveryUntil = 0) ∧
    ∃ m ∈ drainMetrics (s.nodes .gateway) room runtime,
      m.originHealthy = true ∧ m.arrivalWindowReady = true ∧
        m.arrivalsFiveMinutes ≤ runtime.limits.admissionsPerMinute * 5

instance (s : Store) (generation : Nat) (now : ℤ) (room : String) (runtime : Runtime) :
    Decidable (SafeDrain s generation now room runtime) :=
  inferInstanceAs (Decidable (_ ∧ (∃ m ∈ drainMetrics _ _ _, _) ∧ ∃ m ∈ drainMetrics _ _ _, _))

def setEventState (events : Table String Event) (id : String) (state : EventState) :
    Table String Event :=
  match events.get id with
  | none => events
  | some e => events.put id { e with state := state }

/-- The step of `Tick` that follows the plan of the first open event. -/
def followPlan (now : ℤ) (active : Option Event) (runtime : Runtime)
    (events : Table String Event) : Runtime × Table String Event :=
  match active with
  | none => (runtime, events)
  | some e =>
    match nextEventMode e now with
    | (none, _) => (runtime, events)
    | (some mode, state) =>
      if mode ≠ runtime.mode ∨ e.state ≠ state ∨ runtime.eventState ≠ state then
        ({ runtime with mode := mode, eventState := state }, setEventState events e.id state)
      else (runtime, events)

/-- The step of `Tick` that ends a drained room, and the event that was open. -/
def finishDrain (active : Option Event) (runtime : Runtime) (events : Table String Event) :
    Runtime × Table String Event :=
  match active with
  | none => ({ runtime with mode := .off, eventState := .none }, events)
  | some e =>
    if e.state = .pausedByOverride then
      ({ runtime with mode := .off, eventState := .pausedByOverride }, events)
    else
      ({ runtime with mode := .off, eventState := .none }, setEventState events e.id .completed)

/-- The body of the loop of `Tick`. -/
def tickRoom (now : ℤ) (drained : String → Runtime → Bool) (room : Room) (runtime : Runtime)
    (events : Table String Event) : Option (Runtime × Table String Event) :=
  if room.active = false then some (runtime, events)
  else
    match readEvents events room.id with
    | none => none
    | some list =>
      let active := list.find? fun e => decide e.Open
      let planned := followPlan now active runtime events
      let next :=
        if planned.1.mode = .draining ∧ drained room.id planned.1 then
          finishDrain active planned.1 planned.2
        else planned
      if next.1 = runtime then some next
      else some ({ next.1 with revision := next.1.revision + 1 }, next.2)

def tickRooms (now : ℤ) (drained : String → Runtime → Bool) :
    List (Room × RoomRuntime) → Table String Event → Option (List RoomRuntime × Table String Event)
  | [], events => some ([], events)
  | (room, v) :: rows, events =>
    match tickRoom now drained room v.runtime events with
    | none => none
    | some (runtime, events) =>
      match tickRooms now drained rows events with
      | none => none
      | some (rest, events) => some (⟨v.roomId, runtime⟩ :: rest, events)

/-- `Tick`. The view of the nodes reads the clock once more. -/
def tick (h : Host) (svc : Service) (s : Store) (now viewed : ℤ) : Reply × Store :=
  match readConfig h s with
  | none => (.failed .unavailable, s)
  | some _ =>
    match readDelivery h s with
    | none => (.failed .unavailable, s)
    | some (d, generation) =>
      let drained := fun room runtime => decide (SafeDrain s generation viewed room runtime)
      match tickRooms now drained d.rows s.events with
      | none => (.failed .unavailable, s)
      | some (runtimes, events) =>
        if runtimes = d.runtimes then (.done, { s with events := events })
        else
          match sign h svc { s with events := events } { d with runtimes := runtimes } generation
            now with
          | .error e => (.failed e, s)
          | .ok s => (.done, s)

end Tick

section Nodes

def refresh (h : Host) (svc : Service) (s : Store) (now : ℤ) : Reply × Store :=
  match readConfig h s with
  | none => (.failed .unavailable, s)
  | some _ =>
    match readDelivery h s with
    | none => (.failed .unavailable, s)
    | some (d, generation) =>
      let renewed : Reply × Store :=
        match sign h svc s d generation now with
        | .error e => (.failed e, s)
        | .ok s => (.done, s)
      match s.published with
      | none => renewed
      | some p =>
        if now < p.issuedAt then (.failed .unavailable, s)
        else if now - p.issuedAt < 300000000 ∧ p.kid = svc.kid then (.done, s)
        else renewed

def HexDigest (s : String) : Prop :=
  s.toList.length = 64 ∧ ∀ c ∈ s.toList, Digit c ∨ ('a' ≤ c ∧ c ≤ 'f')
  deriving Decidable

/-- `RecoverClock`, for an authenticated node. -/
def recoverClock (h : Host) (svc : Service) (s : Store) (request : Trust.ClockRecovery) (now : ℤ) :
    Reply × Store :=
  if request.generation = 0 ∨ maxInteger ≤ (request.generation : ℤ) ∨ request.notBefore ≤ 0 ∨
      253402214399 < request.notBefore ∨ ¬ HexDigest request.digest then (.failed .invalid, s)
  else
    match readConfig h s with
    | none => (.failed .unavailable, s)
    | some _ =>
      match readDelivery h s with
      | none => (.failed .unavailable, s)
      | some (d, generation) =>
        match s.published with
        | none => (.failed .unavailable, s)
        | some p =>
          if unix now < request.notBefore ∨ now < p.issuedAt ∨ p.expiresAt ≤ now ∨
              generation < request.generation then (.failed .conflict, s)
          else if request.generation < generation ∧ request.notBefore ≤ unix p.issuedAt then
            (.envelope p.raw, s)
          else if generation = request.generation ∧ h.trust.hexSha256 p.raw ≠ request.digest ∨
              request.notBefore < unix p.issuedAt then (.failed .conflict, s)
          else
            match sign h svc s d generation now with
            | .error e => (.failed e, s)
            | .ok s =>
              match s.published with
              | none => (.failed .unavailable, s)
              | some p => (.envelope p.raw, s)

def ValidHTTPErrorMetrics (node : NodeId) (m : RoomMetrics) : Prop :=
  match m.http5xxLastMinute with
  | none => m.http5xxWindowReady = false
  | some n => node = .gateway ∧ 0 ≤ n ∧ n ≤ 9007199254740989

instance (node : NodeId) (m : RoomMetrics) : Decidable (ValidHTTPErrorMetrics node m) :=
  match h : m.http5xxLastMinute with
  | none => decidable_of_iff (m.http5xxWindowReady = false) (by simp [ValidHTTPErrorMetrics, h])
  | some n => decidable_of_iff (node = .gateway ∧ 0 ≤ n ∧ n ≤ 9007199254740989)
      (by simp [ValidHTTPErrorMetrics, h])

def recoveryReasons : List String :=
  ["", "schema_migration", "epoch_reset", "primary_changed", "uncertain_write", "state_uncertain",
    "clock_rollback", "initialization_uncertainty"]

def recoveryValidations : List String :=
  ["", "room_schema", "room_cardinality", "ticket_shape", "waiting_index", "admission_state",
    "lease_index", "expiry_owner_index", "ticket_state", "reservation_cardinality",
    "idempotency_index", "rate_window", "validation_phase", "installation_metadata",
    "installation_cardinality"]

/-- The checks of `Acknowledge` on the metrics of one room. -/
def Acceptable (d : Delivery) (node : NodeId) (room : Room) (m : RoomMetrics) : Prop :=
  ValidHTTPErrorMetrics node m ∧ m.roomId = room.id ∧
    ∃ found ∈ d.find m.roomId, m.revision = found.2.revision ∧ m.epoch = found.2.epoch ∧
      (0 ≤ m.waiting ∧ m.waiting ≤ 100000) ∧ (0 ≤ m.ready ∧ m.ready ≤ 100000) ∧
      (0 ≤ m.leases ∧ m.leases ≤ 100000) ∧ (0 ≤ m.rate ∧ m.rate ≤ 60000) ∧
      (0 ≤ m.arrivalsFiveMinutes ∧ m.arrivalsFiveMinutes ≤ 100000000) ∧ 0 ≤ m.recoveryUntil ∧
      (m.mode = found.2.mode ∨ m.mode = .recoveryHold) ∧
      (found.1.active = false → m.mode = .off ∨ m.mode = .recoveryHold) ∧
      (m.recoveryFence : ℤ) < maxInteger ∧ m.recoveryReason ∈ recoveryReasons ∧
      m.recoveryValidation ∈ recoveryValidations

instance (d : Delivery) (node : NodeId) : DecidableRel (Acceptable d node) := fun _ _ =>
  inferInstanceAs (Decidable (_ ∧ _ ∧ ∃ found ∈ d.find _, _))

/-- `Acknowledge`, for an authenticated node. -/
def acknowledge (h : Host) (svc : Service) (s : Store) (node : NodeId) (ack : NodeAck) (now : ℤ) :
    Reply × Store :=
  if ack.keyGeneration ≠ svc.keyGeneration ∨ ack.keyDigest ≠ svc.keyDigest then
    (.failed .conflict, s)
  else
    match readDelivery h s with
    | none => (.failed .unavailable, s)
    | some (d, generation) =>
      match s.published with
      | none => (.failed .unavailable, s)
      | some p =>
        if now < p.issuedAt ∨ p.expiresAt ≤ now then (.failed .unavailable, s)
        else if (generation : ℤ) ≠ ack.generation ∨ h.trust.hexSha256 p.raw ≠ ack.digest ∨
            ack.rooms.length ≠ d.config.rooms.length then (.failed .conflict, s)
        else if ¬ List.Forall₂ (Acceptable d node) d.config.rooms ack.rooms then
          (.failed .invalid, s)
        else
          let keeps := (s.nodes node).any fun row => decide (generation < row.generation)
          if keeps then (.done, s)
          else (.done, { s with
            nodes := fun n => if n = node then some ⟨generation, now, ack.rooms⟩ else s.nodes n })

end Nodes

section System

inductive Op
  | replaceDraft (ifMatch : String) (body : Option Config)
  | publish (svc : Service) (method : Method) (raw ifMatch : String) (now : ℤ)
  | operate (svc : Service) (id : String) (method : Method) (body : Option RuntimeCommand)
      (ifMatch : String) (now : ℤ)
  | changeEvent (svc : Service) (roomId eventId : String) (method : Method) (body : EventBody)
      (ifMatch fresh : String) (now : ℤ)
  | tick (svc : Service) (now viewed : ℤ)
  | refresh (svc : Service) (now : ℤ)
  | recoverClock (svc : Service) (request : Trust.ClockRecovery) (now : ℤ)
  | acknowledge (svc : Service) (node : NodeId) (ack : NodeAck) (now : ℤ)

def exec (h : Host) (s : Store) : Op → Reply × Store
  | .replaceDraft ifMatch body => replaceDraft h s ifMatch body
  | .publish svc method raw ifMatch now => publish h svc s method raw ifMatch now
  | .operate svc id method body ifMatch now => operate h svc s id method body ifMatch now
  | .changeEvent svc roomId eventId method body ifMatch fresh now =>
    changeEvent h svc s roomId eventId method body ifMatch fresh now
  | .tick svc now viewed => tick h svc s now viewed
  | .refresh svc now => refresh h svc s now
  | .recoverClock svc request now => recoverClock h svc s request now
  | .acknowledge svc node ack now => acknowledge h svc s node ack now

/-- An installation before its first room: an empty draft, an empty delivery that is
not ahead of it, and nothing signed or planned. -/
structure Installed (h : Host) (s : Store) : Prop where
  config : s.config.Valid h.library
  rooms : s.config.rooms = []
  revision : s.revision = s.config.revision
  delivered : s.delivery.config.Valid h.library
  runtimes : s.delivery.runtimes = []
  deliveredRooms : s.delivery.config.rooms = []
  profile : s.delivery.config.profile = s.config.profile
  le : s.delivery.config.revision ≤ s.config.revision
  published : s.published = none
  events : s.events = ∅
  nodes : ∀ n, s.nodes n = none

abbrev ControlEvent := WaitingRoom.Event Store Op Reply

/-- The histories of Control, with any requests at any times. -/
abbrev ControlRun (h : Host) : Store → List ControlEvent → Store → Prop :=
  Run (exec h) fun _ _ => True

end System

end WaitingRoom.Control
