import WaitingRoom.Shared.Run
import WaitingRoom.Queue.Command
import WaitingRoom.Queue.Validate

/-!
# The library as a machine

A database holds the keys of every epoch and room. A step is one function call
through the keys of one room in one epoch, on a server with its own clock and
run id; Valkey runs the calls one after another. The rows that the commands
write are read back by the validator through their JSON text.
-/

namespace WaitingRoom.Queue

set_option autoImplicit false

def TicketState.text : TicketState → String
  | .waiting => "WAITING"
  | .ready => "READY"
  | .admitted => "ADMITTED"

def Ticket.toJson (t : Ticket) : Json :=
  .object ([("ID", .str t.id), ("Sequence", .num (score t.sequence)), ("State", .str t.state.text),
    ("Epoch", .num (score t.epoch)), ("JoinedAt", .num (score t.joinedAt)),
    ("IdleUntil", .num (score t.idleUntil)), ("AbsoluteUntil", .num (score t.absoluteUntil)),
    ("ReadyUntil", .num (score t.readyUntil)), ("AdmissionUntil", .num (score t.admissionUntil)),
    ("JTI", .str t.jti)] ++
    (match t.promotedAt with
      | none => []
      | some p => [("PromotedAt", .num (score p))]))

def Idem.toJson (i : Idem) : Json :=
  .object ([("id", .str i.id), ("fingerprint", .str i.fingerprint), ("replay", .str i.replay)] ++
    (match i.join with
      | none => []
      | some j =>
        [("join", .object [("ticket", j.ticket.toJson), ("idleTTL", .num (score j.idleTTL))])]))

instance : Decodes Ticket := ⟨fun t => some t.toJson⟩

instance : Decodes Idem := ⟨fun i => some i.toJson⟩

/-- Everything one Valkey server stores for an installation. -/
structure Db (T I : Type) where
  shared : EpochMeta := {}
  inst : Nat → Installation := fun _ => {}
  room : Nat → String → Room T I := fun _ _ => {}

abbrev QueueDb := Db Ticket Idem

namespace Db

variable {T I : Type}

def keys (db : Db T I) (epoch : Nat) (room : String) : Keys T I :=
  ⟨db.room epoch room, db.inst epoch, db.shared⟩

/-- The database after a call through the keys of `room` in `epoch` left them as `k`. -/
def set (db : Db T I) (epoch : Nat) (room : String) (k : Keys T I) : Db T I where
  shared := k.shared
  inst := fun e => if e = epoch then k.inst else db.inst e
  room := fun e r => if e = epoch ∧ r = room then k.room else db.room e r

variable (db : Db T I) (e e' : Nat) (r r' : String) (k : Keys T I)

@[simp] theorem keys_room : (db.keys e r).room = db.room e r := rfl

@[simp] theorem keys_inst : (db.keys e r).inst = db.inst e := rfl

@[simp] theorem keys_shared : (db.keys e r).shared = db.shared := rfl

@[simp] theorem set_shared : (db.set e r k).shared = k.shared := rfl

@[simp] theorem set_inst_self : (db.set e r k).inst e = k.inst := by simp [set]

@[simp] theorem set_room_self : (db.set e r k).room e r = k.room := by simp [set]

theorem set_inst_ne {db : Db T I} {e e' : Nat} {r : String} {k : Keys T I} (h : e' ≠ e) :
    (db.set e r k).inst e' = db.inst e' := by simp [set, h]

theorem set_room_ne {db : Db T I} {e e' : Nat} {r r' : String} {k : Keys T I}
    (h : ¬ (e' = e ∧ r' = r)) : (db.set e r k).room e' r' = db.room e' r' := by
  simp [set, h]

@[simp] theorem keys_set_self : (db.set e r k).keys e r = k := by simp [keys]

@[simp] theorem set_keys : db.set e r (db.keys e r) = db := by
  obtain ⟨shared, inst, room⟩ := db
  simp only [set, keys, mk.injEq, true_and]
  constructor
  · funext e'
    split
    · subst e'; rfl
    · rfl
  · funext e' r'
    split
    · obtain ⟨rfl, rfl⟩ := ‹e' = e ∧ r' = r›; rfl
    · rfl

end Db

/-- The calls that open, hold, configure and validate an installation. -/
inductive Upkeep
  | init (config : Config) (primary : String) (global : InstallationConfig) (notBefore : Nat)
  | recover (primary : String) (uncertain : Bool)
  | validate (primary : String) (fence : Nat)
  | configureHeld (d : Desired) (primary : String) (fence : Nat)
deriving DecidableEq, Repr

inductive Call
  | upkeep (u : Upkeep)
  | command (op : Op) (primary : String) (fence : Nat)
  | status (id primary : String) (fence : Nat)
  | capacity (primary : String) (fence : Nat)
  | metrics (primary : String) (fence : Nat)
deriving DecidableEq, Repr

/-- A call through the keys of `room` in `epoch`, on the server `env`. -/
structure Step (C : Type) where
  epoch : Nat
  room : String
  env : Env
  call : C
deriving DecidableEq, Repr

section Exec

variable {T I : Type} [Decodes T] [Decodes I]

def runUpkeep (k : Keys T I) (epoch : Nat) (room : String) (env : Env) : Upkeep → Outcome × Keys T I
  | .init config primary global notBefore =>
    wrR6Init k env ⟨config, primary, global, room, epoch, notBefore⟩
  | .recover primary uncertain => wrR6Recover k env primary uncertain
  | .validate primary fence => wrR6Validate k env primary fence
  | .configureHeld d primary fence => wrR6ConfigureHeld k env d primary fence

def execUpkeep (db : Db T I) (s : Step Upkeep) : Outcome × Db T I :=
  let r := runUpkeep (db.keys s.epoch s.room) s.epoch s.room s.env s.call
  (r.1, db.set s.epoch s.room r.2)

end Exec

def runCall (k : QueueKeys) (epoch : Nat) (room : String) (env : Env) : Call → Outcome × QueueKeys
  | .upkeep u => runUpkeep k epoch room env u
  | .command op primary fence => wrR6Command k env op primary fence
  | .status id primary fence => (wrR6Status k env id primary fence, k)
  | .capacity primary fence => (wrR6Capacity k env primary fence, k)
  | .metrics primary fence => (wrR6Metrics k env primary fence, k)

def exec (db : QueueDb) (s : Step Call) : Outcome × QueueDb :=
  let r := runCall (db.keys s.epoch s.room) s.epoch s.room s.env s.call
  (r.1, db.set s.epoch s.room r.2)

abbrev QueueEvent := Event QueueDb (Step Call) Outcome

/-- The functions registered with `no-writes`. -/
def Call.Reads : Call → Prop
  | .status .. | .capacity .. | .metrics .. => True
  | _ => False

/-- Configs are checked by `model.New` before they are sent. -/
def Call.WellFormed : Call → Prop
  | .upkeep (.init config _ _ _) => config.Valid
  | .upkeep (.configureHeld d _ _) => d.config.Valid
  | .command (.configure d) _ _ => d.config.Valid
  | _ => True

/-- The runs of the library from an empty database, at any server times. -/
abbrev QueueRun : List QueueEvent → QueueDb → Prop :=
  Run exec (fun _ s => s.call.WellFormed) {}

end WaitingRoom.Queue
