import WaitingRoom.Queue.Fence

/-!
# Queue commands

`wr_r6_command` and the reads `wr_r6_status`, `wr_r6_capacity` and
`wr_r6_metrics`. The rows are those the library itself writes: tickets and
idempotency rows of the declared shape.
-/

namespace WaitingRoom.Queue

set_option autoImplicit false

abbrev QueueRoom := Room Ticket Idem

abbrev QueueKeys := Keys Ticket Idem

/-- The arguments of `wr_r6_command` after its operation name. The hashes of a
join are the idempotency key, the fingerprint and the ticket. -/
inductive Op
  | join (key fingerprint id replay : String)
  | promote (n : Nat)
  | claim (id : String)
  | heartbeat (id : String)
  | configure (d : Desired)
  | sweep
  | other
deriving DecidableEq, Repr

/-- The tests that answer `WR_COMMAND`. -/
def Op.Accepted : Op → Prop
  | .join key fingerprint id replay =>
    key.utf8ByteSize = 64 ∧ fingerprint.utf8ByteSize = 64 ∧ id.utf8ByteSize = 64 ∧
      replay.utf8ByteSize ≤ 8192
  | .promote n => 1 ≤ n ∧ n ≤ 128
  | .other => False
  | _ => True

instance : (op : Op) → Decidable op.Accepted
  | .join .. => inferInstanceAs (Decidable (_ ∧ _ ∧ _ ∧ _))
  | .promote _ => inferInstanceAs (Decidable (_ ∧ _))
  | .other => inferInstanceAs (Decidable False)
  | .claim _ | .heartbeat _ | .configure _ | .sweep => inferInstanceAs (Decidable True)

def dropTicket (k : QueueKeys) (id : String) (t : Ticket) : QueueKeys :=
  { k with
    room := { k.room with
      ready := k.room.ready - (if t.state = .ready then 1 else 0)
      tickets := k.room.tickets.del id
      waiting := k.room.waiting.del id
      expiry := k.room.expiry.del id
      leases := k.room.leases.del id }
    inst := { k.inst with visitorOwners := k.inst.visitorOwners.del (member k.room.room id) } }

/-- The first loop of `cleanup`; a missing row stops the call where it is. -/
def dropTickets : List String → QueueKeys → Except QueueKeys QueueKeys
  | [], k => .ok k
  | id :: ids, k =>
    match k.room.tickets.get id with
    | none => .error k
    | some t => dropTickets ids (dropTicket k id t)

def dropIdem (k : QueueKeys) (id : String) : QueueKeys :=
  { k with
    room := { k.room with
      idem := k.room.idem.del id
      idemExpiry := k.room.idemExpiry.del id }
    inst := { k.inst with idemOwners := k.inst.idemOwners.del (member k.room.room id) } }

def dropIdems (ids : List String) (k : QueueKeys) : QueueKeys := ids.foldl dropIdem k

/-- `ZREMRANGEBYSCORE` of the rate window. -/
def releaseRate (k : QueueKeys) (now : Nat) : QueueKeys :=
  { k with room := { k.room with
      rate := k.room.rate.keep fun s => decide (score ((now : ℤ) - 60000) < s) } }

/-- Nothing of the room is due at `now`. -/
def Swept (k : QueueKeys) (now : Nat) : Prop :=
  k.room.expiry.count (fun s => decide (s ≤ score now)) = 0 ∧
    k.room.idemExpiry.count (fun s => decide (s ≤ score now)) = 0
  deriving Decidable

/-- `cleanup`: one bounded batch, and whether it has caught up. -/
def cleanup (k : QueueKeys) (now : Nat) : Except QueueKeys (QueueKeys × Bool) :=
  match dropTickets ((k.room.expiry.due (score now)).take 128) k with
  | .error k => .error k
  | .ok k =>
    let k := dropIdems ((k.room.idemExpiry.due (score now)).take 128) k
    let k := releaseRate k now
    .ok (k, decide (Swept k now))

def answer (now : Nat) (t : Option Ticket) : Outcome := .reply (.answer now t "" none)

def configure (k : QueueKeys) (now : Nat) (c : Config) (d : Desired) : Outcome × QueueKeys :=
  if d.configRevision < k.room.configRevision ∨ d.runtimeRevision < k.room.runtimeRevision then
    (.error .conflict, k)
  else if d.configRevision = k.room.configRevision ∧ d.runtimeRevision = k.room.runtimeRevision then
    if some d ≠ k.room.desired then (.error .conflict, k) else (answer now none, k)
  else if d.mode = .recoveryHold then (.error .schema, k)
  else if d.config.visitorCap ≠ c.visitorCap ∨ d.config.idempotencyCap ≠ c.idempotencyCap ∨
      d.config.clockSkew ≠ c.clockSkew ∨ d.config.idempotencyTTL ≠ c.idempotencyTTL then
    (.error .schema, k)
  else if (d.config.idleTTL ≠ c.idleTTL ∨ d.config.ticketTTL ≠ c.ticketTTL ∨
      d.config.readyTTL ≠ c.readyTTL) ∧ 0 < k.room.tickets.size then
    (.error .drain, k)
  else if d.config.leaseCap < k.room.leases.size ∨ d.config.rate < k.room.rate.size then
    (.error .drain, k)
  else
    let cutoff := if d.mode = .draining ∧ k.room.mode ≠ .draining then some k.room.seq
      else k.room.cutoff
    (answer now none,
      { k with
        inst := coverLifetime k.inst d.config
        room := { configured k.room d with cutoff := cutoff } })

def newTicket (r : QueueRoom) (now : Nat) (c : Config) (id : String) : Ticket where
  id := id
  sequence := r.seq + 1
  state := .waiting
  epoch := r.epoch
  joinedAt := now
  idleUntil := now + c.idleTTL
  absoluteUntil := now + c.ticketTTL
  readyUntil := 0
  admissionUntil := 0
  jti := ""
  promotedAt := none

def joinRows (k : QueueKeys) (now : Nat) (c : Config) (key fingerprint replay : String)
    (t : Ticket) : QueueKeys :=
  let deadline := score (min t.idleUntil t.absoluteUntil : Nat)
  let retained := score (now + c.idempotencyTTL : Nat)
  { k with
    room := { k.room with
      seq := t.sequence
      tickets := k.room.tickets.put t.id t
      waiting := k.room.waiting.put t.id (score t.sequence)
      expiry := k.room.expiry.put t.id deadline
      idem := k.room.idem.put key ⟨t.id, fingerprint, replay, some ⟨t, c.idleTTL⟩⟩
      idemExpiry := k.room.idemExpiry.put key retained }
    inst := { k.inst with
      visitorOwners := k.inst.visitorOwners.put (member k.room.room t.id) deadline
      idemOwners := k.inst.idemOwners.put (member k.room.room key) retained } }

def joinReplay (k : QueueKeys) (now : Nat) (old : Idem) (fingerprint : String) : Outcome :=
  if old.fingerprint ≠ fingerprint then .error .conflict
  else
    match old.join, k.room.tickets.get old.id with
    | some snap, row => .reply (.answer now (some (row.getD snap.ticket)) old.replay (some snap))
    | none, none => .error .expired
    | none, some t => .reply (.answer now (some t) old.replay none)

def join (k : QueueKeys) (now : Nat) (c : Config) (key fingerprint id replay : String) :
    Outcome × QueueKeys :=
  match k.room.idem.get key with
  | some old => (joinReplay k now old fingerprint, k)
  | none =>
    if k.room.mode = .draining ∨ k.room.mode = .off then (.error .drain, k)
    else
      match k.inst.config with
      | none => (.abort, k)
      | some global =>
        if global.visitorCap ≤ k.inst.visitorOwners.size ∨
            global.idempotencyCap ≤ k.inst.idemOwners.size ∨
            c.visitorCap ≤ k.room.tickets.size ∨ c.idempotencyCap ≤ k.room.idem.size then
          (.error .capacity, k)
        else if (k.room.tickets.get id).isSome then (.error .conflict, k)
        else if maxInteger ≤ k.room.seq then (.error .unavailable, k)
        else
          let t := newTicket k.room now c id
          (.reply (.answer now (some t) replay (some ⟨t, c.idleTTL⟩)),
            joinRows k now c key fingerprint replay t)

def promotedTicket (now : Nat) (c : Config) (t : Ticket) : Ticket :=
  { t with
    state := .ready
    promotedAt := some now
    admissionUntil := now + c.admissionTTL
    readyUntil := min (now + c.readyTTL) (now + c.admissionTTL)
    jti := admissionId t.epoch t.sequence }

def promoteRow (k : QueueKeys) (now : Nat) (id : String) (t : Ticket) : QueueKeys :=
  { k with
    room := { k.room with
      ready := k.room.ready + 1
      tickets := k.room.tickets.put id t
      waiting := k.room.waiting.del id
      expiry := k.room.expiry.put id (score t.readyUntil)
      leases := k.room.leases.put id (score t.readyUntil)
      rate := k.room.rate.put id (score now) }
    inst := { k.inst with
      visitorOwners := k.inst.visitorOwners.put (member k.room.room id) (score t.readyUntil) } }

/-- The loop of `promote`; `out` is `result.tickets`. In DRAINING it stops at the
first ticket above the cutoff. -/
def promoteLoop (now : Nat) (c : Config) :
    List String → QueueKeys → List Ticket → Outcome × QueueKeys
  | [], k, out => (.reply (.tickets now out), k)
  | id :: ids, k, out =>
    match k.room.tickets.get id with
    | none => (.abort, k)
    | some t =>
      if k.room.mode = .draining then
        match k.room.cutoff with
        | none => (.abort, k)
        | some cutoff =>
          if cutoff < t.sequence then (.reply (.tickets now out), k)
          else
            let t := promotedTicket now c t
            promoteLoop now c ids (promoteRow k now id t) (out ++ [t])
      else
        let t := promotedTicket now c t
        promoteLoop now c ids (promoteRow k now id t) (out ++ [t])

def promoteBudget (r : QueueRoom) (c : Config) (n : Nat) : Nat :=
  min n (min (c.leaseCap - r.leases.size) (c.rate - r.rate.size))

def promote (k : QueueKeys) (now : Nat) (c : Config) (n : Nat) : Outcome × QueueKeys :=
  if k.room.mode = .hold ∨ k.room.mode = .off then (.reply (.tickets now []), k)
  else
    promoteLoop now c ((k.room.waiting.ranking.take (promoteBudget k.room c n)).map Prod.fst) k []

def heartbeatRow (k : QueueKeys) (t : Ticket) : QueueKeys :=
  { k with
    room := { k.room with
      tickets := k.room.tickets.put t.id t
      expiry := k.room.expiry.put t.id (score t.idleUntil) }
    inst := { k.inst with
      visitorOwners := k.inst.visitorOwners.put (member k.room.room t.id) (score t.idleUntil) } }

def heartbeat (k : QueueKeys) (now : Nat) (c : Config) (id : String) : Outcome × QueueKeys :=
  match k.room.tickets.get id with
  | none => (.error .expired, k)
  | some t =>
    if t.state = .waiting then
      let t := { t with idleUntil := min (now + c.idleTTL) t.absoluteUntil }
      (answer now (some t), heartbeatRow k t)
    else (answer now (some t), k)

def claimRow (k : QueueKeys) (c : Config) (t : Ticket) : QueueKeys :=
  let deadline := score (t.admissionUntil + c.clockSkew : Nat)
  { k with
    room := { k.room with
      ready := k.room.ready - 1
      tickets := k.room.tickets.put t.id t
      expiry := k.room.expiry.put t.id deadline
      leases := k.room.leases.put t.id deadline }
    inst := { k.inst with
      visitorOwners := k.inst.visitorOwners.put (member k.room.room t.id) deadline } }

def claim (k : QueueKeys) (now : Nat) (c : Config) (id : String) : Outcome × QueueKeys :=
  match k.room.tickets.get id with
  | none => (.error .expired, k)
  | some t =>
    if t.state = .waiting then (.error .notReady, k)
    else if t.admissionUntil ≤ now then (.error .expired, k)
    else if t.state = .ready then
      let t := { t with state := .admitted }
      (answer now (some t), claimRow k c t)
    else (answer now (some t), k)

def perform (k : QueueKeys) (now : Nat) (c : Config) : Op → Outcome × QueueKeys
  | .join key fingerprint id replay => join k now c key fingerprint id replay
  | .promote n => promote k now c n
  | .claim id => claim k now c id
  | .heartbeat id => heartbeat k now c id
  | .configure d => configure k now c d
  | .sweep => (answer now none, k)
  | .other => (.error .command, k)

def sweepAndPerform (k : QueueKeys) (now : Nat) (c : Config) (op : Op) : Outcome × QueueKeys :=
  match cleanup k now with
  | .error k => (.abort, k)
  | .ok (k, false) => (.error .sweepRequired, k)
  | .ok (k, true) => perform k now c op

def setClock (k : QueueKeys) (now : Nat) : QueueKeys :=
  { k with room := { k.room with clock := now } }

def command (k : QueueKeys) (env : Env) (op : Op) : Outcome × QueueKeys :=
  match k.room.config with
  | none => (.error .unavailable, k)
  | some c =>
    if k.room.schema ≠ 5 then (.error .unavailable, k)
    else if ¬ op.Accepted then (.error .command, k)
    else if env.now < k.room.clock then (.error .unavailable, holdRollback k env)
    else if k.room.mode = .recoveryHold then (.error .unavailable, setClock k env.now)
    else sweepAndPerform (setClock k env.now) env.now c op

def beginCommand (k : QueueKeys) (now : Nat) : QueueKeys :=
  { k with
    shared := { k.shared with clock := some (max now (k.shared.clock.getD 0)) }
    inst := { k.inst with dirty := true, clock := now } }

/-- `commit` follows every command that returns. -/
def commitResult : Outcome × QueueKeys → Outcome × QueueKeys
  | (.abort, k) => (.abort, k)
  | (o, k) => (o, commit k)

def wrR6Command (k : QueueKeys) (env : Env) (op : Op) (primary : String) (fence : Nat) :
    Outcome × QueueKeys :=
  if ¬ Fenced k env primary fence then (.error .fenced, k)
  else if ¬ Available k then (.error .unavailable, k)
  else if env.now < k.inst.clock then (.error .unavailable, holdRollback k env)
  else commitResult (command (beginCommand k env.now) env op)

def wrR6Status (k : QueueKeys) (env : Env) (id primary : String) (fence : Nat) : Outcome :=
  if ¬ Fenced k env primary fence then .error .fenced
  else if ¬ Available k then .error .unavailable
  else
    match k.room.config with
    | none => .error .unavailable
    | some c =>
      if k.room.schema ≠ 5 then .error .unavailable
      else
        match k.room.tickets.get id with
        | none => .error .expired
        | some t => if expired t env.now c then .error .expired else answer env.now (some t)

def wrR6Capacity (k : QueueKeys) (env : Env) (primary : String) (fence : Nat) : Outcome :=
  if ¬ Fenced k env primary fence then .error .fenced
  else if ¬ Available k then .error .unavailable
  else
    match k.inst.config with
    | none => .abort
    | some c =>
      .reply (.capacity env.now
        { visitors := k.inst.visitorOwners.count fun s => decide (score env.now < s)
          idempotency := k.inst.idemOwners.count fun s => decide (score env.now < s)
          visitorCap := c.visitorCap
          idempotencyCap := c.idempotencyCap
          retainedVisitors := k.inst.visitorOwners.size
          retainedIdempotency := k.inst.idemOwners.size
          warning := decide (c.visitorCap * 4 ≤ k.inst.visitorOwners.size * 5 ∨
            c.idempotencyCap * 4 ≤ k.inst.idemOwners.size * 5) })

def wrR6Metrics {T I : Type} (k : Keys T I) (env : Env) (primary : String) (fence : Nat) :
    Outcome :=
  if ¬ Fenced k env primary fence then .error .fenced
  else if k.inst.schema ≠ 5 then .error .unavailable
  else if k.room.ready < 0 ∨ (k.room.leases.size : ℤ) < k.room.ready then .error .unavailable
  else
    .reply (.metrics env.now
      { waiting := k.room.waiting.size
        ready := k.room.ready
        leases := k.room.leases.size
        rate := k.room.rate.count fun s => decide (score ((env.now : ℤ) - 60000) < s)
        mode := if k.inst.mode = .active then k.room.mode else .recoveryHold
        revision := k.room.runtimeRevision
        epoch := k.room.epoch
        recoveryUntil := if k.inst.mode = .active then 0 else k.inst.unsafeUntil })

end WaitingRoom.Queue
