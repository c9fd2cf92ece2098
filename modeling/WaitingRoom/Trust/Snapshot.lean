import WaitingRoom.Shared.Document
import WaitingRoom.Shared.Run
import WaitingRoom.Shared.Table

/-!
# The configuration gate

A data node serves a signed configuration snapshot only through its gate. The
gate keeps the snapshot it accepted last, the greatest time it has sampled and
two latches: one for a clock that went back, one for storage it cannot trust.
JSON, base64, SHA-256 and Ed25519 are parameters. Every call is given the second
at which it samples the clock and, where it writes, what became of the write.
-/

namespace WaitingRoom.Trust

set_option autoImplicit false

abbrev Bytes := List UInt8

def maxSnapshotBytes : Nat := 65536

def maxInteger : Nat := 9007199254740991

structure Snapshot where
  schemaVersion : ℤ := 0
  installation : String := ""
  generation : Nat := 0
  revision : Nat := 0
  issuedAt : ℤ := 0
  expiresAt : ℤ := 0
  kid : String := ""
  payload : Bytes := []
deriving DecidableEq

structure Envelope where
  snapshot : Bytes
  signature : String
deriving DecidableEq

/-- `ClockRecovery`. -/
structure ClockRecovery where
  generation : Nat
  notBefore : ℤ
  digest : String
deriving DecidableEq

/-- The packages that the gate calls. A decoder reads one value without unknown
fields and nothing after it; an encoder can fail on raw JSON. -/
structure Platform where
  decodeEnvelope : Bytes → Option Envelope
  encodeEnvelope : Envelope → Option Bytes
  decodeSnapshot : Bytes → Option Snapshot
  encodeSnapshot : Snapshot → Option Bytes
  jsonValid : Bytes → Bool
  decodeBase64 : String → Option Bytes
  encodeBase64 : Bytes → String
  verify : Bytes → Bytes → Bytes → Bool
  sign : Bytes → Bytes → Bytes
  hexSha256 : Bytes → String

def domain : Bytes := "waiting-room-config/v1\x00".toUTF8.data.toList

def publicKeySize : Nat := 32

def privateKeySize : Nat := 64

def Safe (s : String) : Prop :=
  (1 ≤ s.length ∧ s.length ≤ 80) ∧ ∀ c ∈ s.toList, c.isAlphanum ∨ c = '_' ∨ c = '-'
  deriving Decidable

def strict {V : Type} (decode : Bytes → Option V) (encode : V → Option Bytes) (raw : Bytes) :
    Option V :=
  match decode raw with
  | none => none
  | some v => if encode v = some raw then some v else none

theorem strict_eq_some {V : Type} {decode : Bytes → Option V} {encode : V → Option Bytes}
    {raw : Bytes} {v : V} :
    strict decode encode raw = some v ↔ decode raw = some v ∧ encode v = some raw := by
  unfold strict
  cases decode raw with
  | none => simp
  | some w =>
    dsimp only
    by_cases h : encode w = some raw
    · rw [if_pos h]
      exact ⟨fun hw => ⟨hw, Option.some.inj hw ▸ h⟩, fun hw => hw.1⟩
    · rw [if_neg h]
      refine ⟨fun hw => (by cases hw), fun hw => ?_⟩
      exact absurd (Option.some.inj hw.1 ▸ hw.2) h

def Snapshot.Structural (x : Platform) (s : Snapshot) : Prop :=
  s.schemaVersion = 1 ∧ Safe s.installation ∧ Safe s.kid ∧
    (0 < s.generation ∧ s.generation ≤ maxInteger) ∧ s.revision ≤ maxInteger ∧
    (0 < s.issuedAt ∧ s.issuedAt ≤ 253402214399) ∧
    (s.issuedAt < s.expiresAt ∧ s.expiresAt - s.issuedAt ≤ 86400) ∧
    (1 < s.payload.length ∧ s.payload.head? = some 123 ∧ x.jsonValid s.payload = true)
  deriving Decidable

def wrap (x : Platform) (key raw : Bytes) : Envelope :=
  ⟨raw, x.encodeBase64 (x.sign key (domain ++ raw))⟩

/-- `Sign`. -/
def sign (x : Platform) (key : Bytes) (s : Snapshot) : Option Bytes :=
  if key.length ≠ privateKeySize ∨ ¬ s.Structural x then none
  else
    match x.encodeSnapshot s with
    | none => none
    | some raw =>
      match x.encodeEnvelope (wrap x key raw) with
      | none => none
      | some out => if maxSnapshotBytes < out.length then none else some out

/-- What a gate is opened with. The validator answers whether it returned nil. -/
structure Params where
  keys : Table String Bytes
  installation : String
  minimum : Nat
  validate : Bytes → Bool

def Params.Accepted (p : Params) : Prop :=
  (0 < p.keys.size ∧ p.keys.size ≤ 8) ∧ Safe p.installation ∧
    (0 < p.minimum ∧ p.minimum ≤ maxInteger) ∧
    ∀ e ∈ p.keys.rows, Safe e.1 ∧ e.2.length = publicKeySize
  deriving Decidable

inductive Error
  | invalid | unavailable | rollback | persistence
deriving DecidableEq, Repr

/-- `snapshot_persistence`, `snapshot_invalid` and `snapshot_clock_rollback`. -/
inductive Reason
  | persistence | invalid | clockRollback
deriving DecidableEq, Repr

structure Gate where
  params : Params
  current : Snapshot := {}
  raw : Bytes := []
  lastClock : ℤ := 0
  clockHold : Bool := false
  recoveryAfter : ℤ := 0
  failed : Bool := false
  failureReason : Option Reason := none

def read (x : Platform) (raw : Bytes) : Option (Envelope × Snapshot) :=
  match strict x.decodeEnvelope x.encodeEnvelope raw with
  | none => none
  | some out =>
    match strict x.decodeSnapshot x.encodeSnapshot out.snapshot with
    | none => none
    | some s => some (out, s)

def Params.Verifies (x : Platform) (p : Params) (out : Envelope) (s : Snapshot) : Bool :=
  let key := (p.keys.get s.kid).getD []
  match x.decodeBase64 out.signature with
  | none => false
  | some sig =>
    decide (key.length = publicKeySize) && decide (x.encodeBase64 sig = out.signature) &&
      x.verify key (domain ++ out.snapshot) sig

def verify (x : Platform) (p : Params) (raw : Bytes) : Option Snapshot :=
  if raw.length = 0 ∨ maxSnapshotBytes < raw.length then none
  else
    match read x raw with
    | none => none
    | some (out, s) =>
      if ¬ s.Structural x ∨ s.installation ≠ p.installation ∨ s.generation < p.minimum then none
      else if ¬ p.Verifies x out s then none
      else if ¬ p.validate s.payload then none
      else some s

/-- `clock`: whether the sample is at or after the high-water mark. -/
def Gate.clock (g : Gate) (now : ℤ) : Bool × Gate :=
  if now < g.lastClock then
    (false, { g with
      clockHold := true, recoveryAfter := g.lastClock, failureReason := some .clockRollback })
  else (true, { g with lastClock := now })

/-- What became of a write: done, or reported as failed with the stored envelope
left alone or replaced. -/
inductive Save
  | done | failed | replaced
deriving DecidableEq, Repr

inductive Load
  | done | failed
deriving DecidableEq, Repr

structure Node where
  gate : Option Gate := none
  stored : Option Bytes := none

inductive Call
  | reopen (params : Params) (load : Load)
  | apply (raw : Bytes) (now : ℤ) (save : Save)
  | current (now : ℤ)

inductive Answer
  | done
  | refused (e : Error)
  | served (s : Snapshot)
deriving DecidableEq

/-- `Open`. Parameters that are not accepted give no gate; storage that cannot be
read or verified gives a gate that is latched closed. -/
def openGate (x : Platform) (p : Params) (stored : Option Bytes) (load : Load) :
    Answer × Option Gate :=
  if ¬ p.Accepted then (.refused .invalid, none)
  else
    match load, stored with
    | .failed, _ =>
      (.refused .persistence,
        some { params := p, failed := true, failureReason := some .persistence })
    | .done, none => (.done, some { params := p })
    | .done, some raw =>
      match verify x p raw with
      | none =>
        (.refused .invalid, some { params := p, failed := true, failureReason := some .invalid })
      | some s => (.done, some { params := p, current := s, raw := raw })

/-- The tests of `applyLocked` on a verified snapshot, in their order; `none` goes
on to the store, `some` is the answer without it. -/
def Gate.judge (g : Gate) (raw : Bytes) (s : Snapshot) (now : ℤ) : Option Answer :=
  if now < s.issuedAt ∨ s.expiresAt ≤ now then some (.refused .invalid)
  else if s.generation < g.current.generation ∨ s.revision < g.current.revision then
    some (.refused .rollback)
  else if g.clockHold ∧ (s.generation ≤ g.current.generation ∨ s.issuedAt < g.recoveryAfter) then
    some (.refused .unavailable)
  else if s.generation = g.current.generation then
    some (if raw = g.raw then .done else .refused .rollback)
  else none

/-- `applyLocked`. -/
def applyLocked (x : Platform) (g : Gate) (stored : Option Bytes) (raw : Bytes) (now : ℤ)
    (save : Save) : Answer × Gate × Option Bytes :=
  if g.failed then (.refused .unavailable, g, stored)
  else
    match g.clock now with
    | (false, g) => (.refused .unavailable, g, stored)
    | (true, g) =>
      match verify x g.params raw with
      | none => (.refused .invalid, g, stored)
      | some s =>
        match g.judge raw s now with
        | some a => (a, g, stored)
        | none =>
          match save with
          | .done =>
            (.done, { g with
              current := s, raw := raw, clockHold := false, recoveryAfter := 0,
              failureReason := none }, some raw)
          | .failed =>
            (.refused .persistence,
              { g with failed := true, failureReason := some .persistence }, stored)
          | .replaced =>
            (.refused .persistence,
              { g with failed := true, failureReason := some .persistence }, some raw)

def currentLocked (g : Gate) (now : ℤ) : Answer × Gate :=
  if g.failed then (.refused .unavailable, g)
  else
    match g.clock now with
    | (false, g) => (.refused .unavailable, g)
    | (true, g) =>
      if g.clockHold ∨ g.current.generation = 0 ∨ now < g.current.issuedAt ∨
          g.current.expiresAt ≤ now then
        (.refused .unavailable, g)
      else (.served g.current, g)

/-- `RecoveryRequest`. -/
def Gate.recoveryRequest (x : Platform) (g : Gate) : Option ClockRecovery :=
  if g.failed ∨ ¬ g.clockHold ∨ g.current.generation = 0 then none
  else some ⟨g.current.generation, g.recoveryAfter, x.hexSha256 g.raw⟩

def exec (x : Platform) (n : Node) : Call → Answer × Node
  | .reopen p load =>
    let r := openGate x p n.stored load
    (r.1, { n with gate := r.2 })
  | .apply raw now save =>
    match n.gate with
    | none => (.refused .unavailable, n)
    | some g =>
      let r := applyLocked x g n.stored raw now save
      (r.1, ⟨some r.2.1, r.2.2⟩)
  | .current now =>
    match n.gate with
    | none => (.refused .unavailable, n)
    | some g =>
      let r := currentLocked g now
      (r.1, { n with gate := some r.2 })

abbrev GateEvent := Event Node Call Answer

/-- The histories of a node whose store holds `stored` at first, with any calls. -/
abbrev GateRun (x : Platform) (stored : Option Bytes) : List GateEvent → Node → Prop :=
  Run (exec x) (fun _ _ => True) { stored := stored }

end WaitingRoom.Trust
