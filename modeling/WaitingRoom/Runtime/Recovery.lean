import WaitingRoom.Queue.System

/-!
# The stores and their recovery

Any number of stores work on one database. `runtimeCall` and `MaintainRecovery`
of a store share two counters and a published snapshot; each load and store of
these is one step, and so is each execution on the server, so that the calls of
all stores interleave in every possible way. A request that was submitted is
executed at any later time or never, and its reply may be lost.

A few fields are not in the source. They say when something was loaded, and no
step depends on them.
-/

namespace WaitingRoom.Runtime

open Queue

set_option autoImplicit false

def decodeRecovery : Outcome → Option Frame
  | .reply (.frame f) =>
    if 0 < f.now ∧ (f.primary.getD "").utf8ByteSize = 40 ∧ 1 ≤ f.fence ∧ f.fence < maxInteger ∧
        (f.mode = .recoveryHold → 0 < f.unsafeUntil) then some f
    else none
  | _ => none

theorem decodeRecovery_eq_some {o : Outcome} {f : Frame} (h : decodeRecovery o = some f) :
    o = .reply (.frame f) := by
  unfold decodeRecovery at h
  split at h
  · split at h
    · rw [Option.some.inj h]
    · simp at h
  · simp at h

/-- What `runtimeCall` is asked for. All but the commands are reads. -/
inductive Ask
  | command (op : Op)
  | status (id : String)
  | capacity
  | metrics
  | promotionNeeded
deriving DecidableEq, Repr

def Ask.read : Ask → Bool
  | .command _ => false
  | _ => true

/-- A function of the queue library, or the read-only `wr_qm1_needed`. -/
inductive Request
  | call (c : Call)
  | needed (primary : String) (fence : Nat)
deriving DecidableEq, Repr

/-- The request that a call submits under the recovery state `f`. Outside ACTIVE
only metrics are read, and a room of a new epoch may be configured. -/
def Ask.request (f : Frame) (a : Ask) : Option Request :=
  let primary := f.primary.getD ""
  match f.mode, a with
  | _, .metrics => some (.call (.metrics primary f.fence))
  | .active, .command op => some (.call (.command op primary f.fence))
  | .active, .status id => some (.call (.status id primary f.fence))
  | .active, .capacity => some (.call (.capacity primary f.fence))
  | .active, .promotionNeeded => some (.needed primary f.fence)
  | .recoveryHold, .command (.configure d) =>
    if f.reason = some .epochReset then some (.call (.upkeep (.configureHeld d primary f.fence)))
    else none
  | .recoveryHold, _ => none

/-- What `recoverySnapshot` points to; `incident` is the count that the
maintenance which published it had loaded. -/
structure Snapshot where
  state : Frame
  incident : Nat
deriving DecidableEq, Repr

/-- How far a `MaintainRecovery` that holds `recoveryMu` has come. -/
inductive Maintenance
  | idle
  | locked
  | identified (primary : String)
  | loaded (primary : String) (incident : Nat)
  | recovering (primary : String) (incident : Nat) (uncertain : Bool)
  | recovered (incident : Nat) (o : Outcome)
  | published (incident : Nat) (state : Frame)
  | validating (incident : Nat) (state : Frame)
  | validated (incident : Nat) (o : Outcome)
deriving DecidableEq, Repr

/-- A store works through the keys of one room in one epoch. -/
structure Store where
  epoch : Nat
  room : String
  uncertainty : Nat := 0
  acknowledgedUncertainty : Nat := 0
  recoverySnapshot : Option Snapshot := none
  maintenance : Maintenance := .idle
deriving DecidableEq, Repr

/-- The snapshot a call has loaded and its request; `taken` is the count of
incidents at that moment. -/
structure View where
  snapshot : Snapshot
  taken : Nat
  request : Request
deriving DecidableEq, Repr

/-- How far a `runtimeCall` has come; `incident` is the number of the incident
that an unclear answer has become. -/
inductive Stage
  | entered
  | counted (n : Nat)
  | clear
  | ready (v : View)
  | submitted (v : View)
  | uncertain (v : View) (incident : Nat)
  | ended
deriving DecidableEq, Repr

/-- The snapshot and the request of a call that has come so far. -/
def Stage.view : Stage → Option View
  | .ready v => some v
  | .submitted v => some v
  | .uncertain v _ => some v
  | _ => none

/-- One `runtimeCall` of a store. `raised` and `acknowledged` are the counters
of the store when the call started. -/
structure RuntimeCall where
  store : Nat
  ask : Ask
  stage : Stage := .entered
  reply : Option Outcome := none
  raised : Nat
  acknowledged : Nat
deriving DecidableEq, Repr

/-- How the wait for a reply ends: with an answer, with the deadline of the
caller or a transport error, or with a reply that does not decode. -/
inductive Arrival
  | answer (o : Outcome)
  | lost
  | garbled
deriving DecidableEq, Repr

/-- `runtimeCall` returns without counting an incident. Errors that `classify`
does not know, and two that it knows, may hide a write. -/
def settled (read : Bool) : Arrival → Bool
  | .answer (.reply _) => true
  | .answer (.error .schema) => false
  | .answer (.error .unavailable) => false
  | .answer (.error .command) => false
  | .answer (.error _) => true
  | .answer .abort => false
  | .lost => read
  | .garbled => false

inductive CallEvent
  | loadUncertainty
  | loadAcknowledged
  | loadSnapshot
  | cancel
  | submit
  | execute (env : Env)
  | receive (a : Arrival)
deriving DecidableEq, Repr

/-- The end of the first part of `runtimeCall`: a snapshot under which the call
has a request. -/
def viewOf (s : Store) (a : Ask) : Stage :=
  match s.recoverySnapshot with
  | none => .ended
  | some p =>
    match a.request p.state with
    | none => .ended
    | some r => .ready ⟨p, s.uncertainty, r⟩

def runRequest (db : QueueDb) (s : Store) (env : Env) (c : RuntimeCall) :
    Request → QueueDb × RuntimeCall
  | .call q =>
    let r := exec db ⟨s.epoch, s.room, env, q⟩
    (r.2, { c with reply := some r.1 })
  | .needed _ _ => (db, c)

def answers (c : RuntimeCall) (v : View) : Arrival → Bool
  | .answer o =>
    match v.request with
    | .call _ => decide (c.reply = some o)
    | .needed _ _ => true
  | _ => true

/-- One step of a `runtimeCall`; a step that is not its next one does nothing. -/
def callStep (db : QueueDb) (s : Store) (c : RuntimeCall) (e : CallEvent) :
    QueueDb × Store × RuntimeCall :=
  match e, c.stage with
  | .loadUncertainty, .entered => (db, s, { c with stage := .counted s.uncertainty })
  | .loadAcknowledged, .counted n =>
    (db, s, { c with stage := if s.acknowledgedUncertainty < n then .ended else .clear })
  | .loadSnapshot, .clear => (db, s, { c with stage := viewOf s c.ask })
  | .cancel, .entered => (db, s, { c with stage := .ended })
  | .cancel, .ready _ => (db, s, { c with stage := .ended })
  | .submit, .ready v => (db, s, { c with stage := .submitted v })
  | .execute env, .submitted v =>
    if c.reply = none then
      let r := runRequest db s env c v.request
      (r.1, s, r.2)
    else (db, s, c)
  | .execute env, .uncertain v _ =>
    if c.reply = none then
      let r := runRequest db s env c v.request
      (r.1, s, r.2)
    else (db, s, c)
  | .receive a, .submitted v =>
    if answers c v a then
      if settled c.ask.read a then (db, s, { c with stage := .ended })
      else (db, { s with uncertainty := s.uncertainty + 1 },
        { c with stage := .uncertain v (s.uncertainty + 1) })
    else (db, s, c)
  | _, _ => (db, s, c)

inductive MaintainEvent
  | lock
  | identify (primary : String)
  | loadIncident
  | submitRecover
  | recover (env : Env)
  | publish
  | acknowledge
  | validate (env : Env)
  | republish
  | giveUp
deriving DecidableEq, Repr

/-- `MaintainRecovery` goes on to validate. -/
def mayValidate (f : Frame) : Prop :=
  f.mode = .recoveryHold ∧ f.unsafeUntil ≤ f.now ∧ f.validationError = none
  deriving Decidable

/-- `publishRecovery`, in a maintenance that had loaded `incident`. -/
def publishRecovery (s : Store) (incident : Nat) (state : Frame) (next : Maintenance) : Store :=
  { s with recoverySnapshot := some ⟨state, incident⟩, maintenance := next }

/-- One step of a `MaintainRecovery`. It gives up only while it waits for the server. -/
def maintainStep (db : QueueDb) (s : Store) (e : MaintainEvent) : QueueDb × Store :=
  match e, s.maintenance with
  | .lock, .idle => (db, { s with maintenance := .locked })
  | .identify primary, .locked => (db, { s with maintenance := .identified primary })
  | .loadIncident, .identified primary =>
    (db, { s with maintenance := .loaded primary s.uncertainty })
  | .submitRecover, .loaded primary incident =>
    let uncertain := decide (s.acknowledgedUncertainty < incident)
    (db, { s with maintenance := .recovering primary incident uncertain })
  | .recover env, .recovering primary incident uncertain =>
    let r := exec db ⟨s.epoch, s.room, env, .upkeep (.recover primary uncertain)⟩
    (r.2, { s with maintenance := .recovered incident r.1 })
  | .publish, .recovered incident o =>
    match decodeRecovery o with
    | none => (db, { s with maintenance := .idle })
    | some f => (db, publishRecovery s incident f (.published incident f))
  | .acknowledge, .published incident f =>
    (db, { s with
      acknowledgedUncertainty := incident
      maintenance := if mayValidate f then .validating incident f else .idle })
  | .validate env, .validating incident f =>
    let r := exec db ⟨s.epoch, s.room, env, .upkeep (.validate (f.primary.getD "") f.fence)⟩
    (r.2, { s with maintenance := .validated incident r.1 })
  | .republish, .validated incident o =>
    match decodeRecovery o with
    | none => (db, { s with maintenance := .idle })
    | some f => (db, publishRecovery s incident f .idle)
  | .giveUp, .locked => (db, { s with maintenance := .idle })
  | .giveUp, .recovering _ _ _ => (db, { s with maintenance := .idle })
  | .giveUp, .recovered _ _ => (db, { s with maintenance := .idle })
  | .giveUp, .validating _ _ => (db, { s with maintenance := .idle })
  | .giveUp, .validated _ _ => (db, { s with maintenance := .idle })
  | _, _ => (db, s)

/-- The database, the stores and the calls that were ever made, by number. -/
structure World where
  db : QueueDb := {}
  store : Nat → Store
  call : Nat → Option RuntimeCall := fun _ => none

namespace World

def setStore (w : World) (i : Nat) (s : Store) : World :=
  { w with store := fun j => if j = i then s else w.store j }

def setCall (w : World) (n : Nat) (c : RuntimeCall) : World :=
  { w with call := fun m => if m = n then some c else w.call m }

end World

/-- Besides the steps of its stores the database sees the calls of anyone else,
among them the requests of stores that have given up waiting. -/
inductive Action
  | enter (n i : Nat) (ask : Ask)
  | call (n : Nat) (e : CallEvent)
  | maintain (i : Nat) (e : MaintainEvent)
  | other (s : Step Call)
deriving DecidableEq, Repr

def act (w : World) : Action → World
  | .enter n i ask =>
    match w.call n with
    | none => w.setCall n ⟨i, ask, .entered, none, (w.store i).uncertainty,
        (w.store i).acknowledgedUncertainty⟩
    | some _ => w
  | .call n e =>
    match w.call n with
    | none => w
    | some c =>
      let r := callStep w.db (w.store c.store) c e
      ({ w with db := r.1 }.setStore c.store r.2.1).setCall n r.2.2
  | .maintain i e =>
    let r := maintainStep w.db (w.store i) e
    { w with db := r.1 }.setStore i r.2
  | .other s => { w with db := (exec w.db s).2 }

/-- Stores that work through the given keys, before anything has happened. -/
def start (keys : Nat → Nat × String) : World where
  store := fun i => ⟨(keys i).1, (keys i).2, 0, 0, none, .idle⟩

abbrev WorldEvent := Event World Action Unit

abbrev WorldRun (w : World) : List WorldEvent → World → Prop :=
  Run (fun w a => ((), act w a)) (fun _ _ => True) w

section Frames

variable {T I : Type}

def Framed (now : Nat) (r : Outcome × Keys T I) : Prop :=
  ∀ f, r.1 = .reply (.frame f) → f = frame r.2 now

theorem framed_framed (k : Keys T I) (now : Nat) : Framed now (framed k now) := by
  rintro f ⟨⟩
  rfl

theorem wrR6Validate_framed [Decodes T] [Decodes I] (k : Keys T I) (env : Env) (primary : String) (fence : Nat) :
    Framed env.now (wrR6Validate k env primary fence) := by
  unfold wrR6Validate
  split
  · exact nofun
  · split
    · exact framed_framed _ _
    · split
      · exact framed_framed _ _
      · split
        · exact framed_framed _ _
        · split
          · exact framed_framed _ _
          · dsimp only
            split
            · unfold validateTickets
              dsimp only
              split
              · exact framed_framed _ _
              · split
                · split <;> exact framed_framed _ _
                · exact framed_framed _ _
            · unfold validateIdems
              dsimp only
              split
              · exact framed_framed _ _
              · split
                · split <;> exact framed_framed _ _
                · exact framed_framed _ _
            · unfold validateTotals
              split
              · exact framed_framed _ _
              · split
                · split
                  · exact nofun
                  · split <;> exact framed_framed _ _
                · exact framed_framed _ _
            · exact framed_framed _ _

theorem wrR6Recover_framed (k : Keys T I) (env : Env) (primary : String) (uncertain : Bool) :
    Framed env.now (wrR6Recover k env primary uncertain) := by
  unfold wrR6Recover
  split
  · exact nofun
  · split
    · exact nofun
    · split
      · exact framed_framed _ _
      · split
        · exact nofun
        · exact framed_framed _ _

end Frames

end WaitingRoom.Runtime
