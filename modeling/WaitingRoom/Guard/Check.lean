import WaitingRoom.Shared.Ranking
import WaitingRoom.Shared.Run

/-!
# The public request guard

`wr_pg4_check` keeps the abuse counters and poll schedules of all coordinators in
three keys: a hash of records, a sorted set of their expiry times and a hash with
the schema and the clock. Records are named by texts, and an expired record goes
when a later call happens to sweep it.
-/

namespace WaitingRoom.Guard

set_option autoImplicit false

inductive GuardError
  | schema
  | clock
  deriving DecidableEq, Repr

structure Decision where
  allowed : Bool
  now : Nat
  retryAfterMs : Nat
  pollAfterMs : Nat
  deriving DecidableEq, Repr

inductive Op
  | join
  | status
  | claim
  | heartbeat
  | register
  deriving DecidableEq, Repr

def Op.parse (text : String) : Option Op :=
  if text = "join" then some .join
  else if text = "status" then some .status
  else if text = "claim" then some .claim
  else if text = "heartbeat" then some .heartbeat
  else if text = "register" then some .register
  else none

/-- The six arguments, with the server time of the call in milliseconds. -/
structure Call where
  room : String
  epoch : Nat
  source : String
  op : String
  credential : String
  cap : Nat
  now : Nat
  deriving DecidableEq, Repr

structure State where
  schema : Option String
  clock : Option Nat
  records : Table String Nat
  expiry : Table String Nat

def State.empty : State := ⟨none, none, ∅, ∅⟩

def roomChar (c : Char) : Bool := 'a' ≤ c && c ≤ 'z' || '2' ≤ c && c ≤ '7'

def hexChar (c : Char) : Bool := 'a' ≤ c && c ≤ 'f' || '0' ≤ c && c ≤ '9'

def hex64 (s : String) : Bool := s.toList.length = 64 && s.toList.all hexChar

def Call.wellFormed (c : Call) : Bool :=
  c.room.toList.length = 20 && c.room.toList.all roomChar && hex64 c.source &&
    hex64 c.credential && decide (1 ≤ c.epoch) && (c.cap = 10000 || c.cap = 100000)

def hexDigit (c : Char) : Nat :=
  if 'a' ≤ c then c.toNat - 'a'.toNat + 10 else c.toNat - '0'.toNat

/-- `tonumber(s, 16)` for lower case digits. -/
def hexNumber (cs : List Char) : Nat := cs.foldl (fun n c => n * 16 + hexDigit c) 0

/-- The poll interval, which also is the reply's `pollAfterMs`. -/
def Call.interval (c : Call) : Nat := 3000 + hexNumber (c.credential.toList.take 8) % 17001

def Call.minute (c : Call) : Nat := c.now / 60000

def Call.reset (c : Call) : Nat := (c.minute + 1) * 60000

def Call.most (c : Call) : Nat := c.cap * 4 + 2048

/-! ## Names of records -/

inductive Family
  | join
  | ticket
  deriving DecidableEq, Repr

def Family.text : Family → String
  | .join => "join"
  | .ticket => "ticket"

inductive Slot
  | poll (room : String) (epoch : Nat) (credential : String)
  | seen (room : String) (epoch : Nat) (credential : String)
  | source (room : String) (epoch : Nat) (family : Family) (peer : String) (minute : Nat)
  | aggregate (room : String) (epoch : Nat) (family : Family) (minute : Nat)
  deriving DecidableEq, Repr

def Slot.parts : Slot → List String
  | .poll room epoch credential => ["p", room, toString epoch, credential]
  | .seen room epoch credential => ["j", room, toString epoch, credential]
  | .source room epoch family peer minute =>
    ["s", room, toString epoch, family.text, peer, toString minute]
  | .aggregate room epoch family minute =>
    ["r", room, toString epoch, family.text, toString minute]

def Slot.id (slot : Slot) : String := ":".intercalate slot.parts

def Call.poll (c : Call) : Slot := .poll c.room c.epoch c.credential

def Call.seen (c : Call) : Slot := .seen c.room c.epoch c.credential

def Call.sourceSlot (c : Call) (family : Family) : Slot :=
  .source c.room c.epoch family c.source c.minute

def Call.aggregateSlot (c : Call) (family : Family) : Slot :=
  .aggregate c.room c.epoch family c.minute

def Family.sourceMax : Family → Nat
  | .join => 600
  | .ticket => 6000

def Family.roomMax (cap : Nat) : Family → Nat
  | .join => cap * 6
  | .ticket => cap * 20

/-! ## One check -/

def State.has (s : State) (slot : Slot) : Bool := (s.records.get slot.id).isSome

def State.value (s : State) (slot : Slot) : Nat := (s.records.get slot.id).getD 0

def State.drop (s : State) (id : String) : State :=
  { s with records := s.records.del id, expiry := s.expiry.del id }

/-- `put`: a new record is refused when as many are kept as may be. -/
def State.put (s : State) (most : Nat) (slot : Slot) (value expires : Nat) : Option State :=
  if s.has slot = false ∧ most ≤ s.records.size then none
  else some { s with
    records := s.records.put slot.id value, expiry := s.expiry.put slot.id expires }

/-- The clock is written and up to 128 expired records are dropped. -/
def State.opened (s : State) (now : Nat) : State :=
  ((s.expiry.due now).take 128).foldl State.drop { s with schema := some "1", clock := some now }

def Call.reply (c : Call) (allowed : Bool) (retryAfterMs : Nat) : Decision :=
  ⟨allowed, c.now, retryAfterMs, c.interval⟩

def register (s : State) (c : Call) : Decision × State :=
  match s.records.get c.poll.id with
  | some next => (c.reply true (next - c.now), s)
  | none =>
    match s.put c.most c.poll (c.now + c.interval) (c.now + 60000) with
    | none => (c.reply false 3000, s)
    | some s => (c.reply true (c.now + c.interval - c.now), s)

/-- The schedule of a status poll, after its counters. A schedule that is not
known is started, and the poll put off until it is due. -/
def pollStatus (s : State) (c : Call) : Decision × State :=
  let next := s.records.get c.poll.id
  if next.any (c.now < ·) then (c.reply false (next.getD 0 - c.now), s)
  else
    match s.put c.most c.poll (c.now + c.interval) (c.now + 60000) with
    | none => (c.reply false 3000, s)
    | some s => (if next.isSome then c.reply true 0 else c.reply false c.interval, s)

def isFresh (s : State) (c : Call) (op : Op) : Bool := op = .join && !s.has c.seen

def family (s : State) (c : Call) (op : Op) : Family := if isFresh s c op then .join else .ticket

def needed (s : State) (c : Call) (op : Op) : Nat :=
  (if s.has (c.sourceSlot (family s c op)) then 0 else 1) +
    (if s.has (c.aggregateSlot (family s c op)) then 0 else 1) +
    (if isFresh s c op then 1 else 0) + (if op = .status && !s.has c.poll then 1 else 0)

/-- Every operation but `register`. -/
def charge (s : State) (c : Call) (op : Op) : Decision × State :=
  let f := family s c op
  let sc := s.value (c.sourceSlot f)
  let rc := s.value (c.aggregateSlot f)
  if f.sourceMax ≤ sc ∨ f.roomMax c.cap ≤ rc then (c.reply false (c.reset - c.now), s)
  else if c.most < s.records.size + needed s c op then (c.reply false 3000, s)
  else
    match s.put c.most (c.sourceSlot f) (sc + 1) c.reset with
    | none => (c.reply false 3000, s)
    | some s₁ =>
      match s₁.put c.most (c.aggregateSlot f) (rc + 1) c.reset with
      | none => (c.reply false 3000, s₁)
      | some s₂ =>
        match (if isFresh s c op then s₂.put c.most c.seen 1 (c.now + 600000) else some s₂) with
        | none => (c.reply false 3000, s₂)
        | some s₃ => if op = .status then pollStatus s₃ c else (c.reply true 0, s₃)

def serve (s : State) (c : Call) (op : Op) : Decision × State :=
  if op = .register then register s c else charge s c op

/-- `wr_pg4_check`. -/
def check (s : State) (c : Call) : Except GuardError Decision × State :=
  if c.wellFormed = false then (.error .schema, s)
  else
    match Op.parse c.op with
    | none => (.error .schema, s)
    | some op =>
      if s.schema.any (· ≠ "1") then (.error .schema, s)
      else if c.now < s.clock.getD 0 then
        if 1000 < s.clock.getD 0 - c.now then (.error .clock, s)
        else (.ok ⟨false, s.clock.getD 0, s.clock.getD 0 - c.now, c.interval⟩, s)
      else
        let s := s.opened c.now
        if s.records.size ≠ s.expiry.size then (.error .schema, s)
        else
          let (d, s) := serve s c op
          (.ok d, s)

end WaitingRoom.Guard
