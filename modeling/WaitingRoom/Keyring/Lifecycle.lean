import WaitingRoom.Keyring.Ring
import WaitingRoom.Shared.Run

/-!
# The life of a key set

The set of the owner holds every secret of a deployment; a role gets the set without
the secrets of the others, and the digest of a set leaves all of them out. `RotateKeys`
writes a set to its journal only if it is valid for the owner. Secrets are bytes here,
and empty where they are left out. Ed25519, JSON and SHA-256 are parameters, and so
is what the database answers: how many roles have acknowledged the set, the time in
milliseconds, and whether an administrator has just reset the epoch.
-/

namespace WaitingRoom.Keyring

set_option autoImplicit false

/-- `keyring.Key`, with the bytes of its secrets. -/
structure ScopedKey where
  id : String
  since : ℤ := 0
  configPublic : Bytes
  admissionPublic : Bytes
  configPrivate : Bytes := []
  admissionPrivate : Bytes := []
  replay : Bytes := []
  returning : Bytes := []
deriving DecidableEq

/-- `keyring.Set`, with the bytes of its secrets. -/
structure ScopedSet where
  generation : ℤ := 0
  phase : Phase := .legacy
  current : ScopedKey
  previous : Option ScopedKey := none
  next : Option ScopedKey := none
deriving DecidableEq

/-- The names that `Validate` and `ForRole` are called with. -/
inductive Scope
  | nobody | owner | control | coordinator | gateway
deriving DecidableEq, Repr

structure Suite where
  newKeyFromSeed : Bytes → Bytes
  marshal : ScopedSet → Bytes
  hexSha256 : Bytes → String
  length_hexSha256 : ∀ raw, (hexSha256 raw).length = 64

section Validate

variable (x : Suite)

def ScopedSet.keys (s : ScopedSet) : List ScopedKey :=
  s.current :: (s.previous.toList ++ s.next.toList)

def PrivateKey (want : Bool) (data pub : Bytes) : Prop :=
  if want then data.length = 64 ∧ data.drop 32 = pub ∧ x.newKeyFromSeed (data.take 32) = data
  else data = []
  deriving Decidable

def SecretKey (want : Bool) (data : Bytes) : Prop :=
  if want then data.length = 32 ∧ data ≠ List.replicate 32 0 else data = []
  deriving Decidable

def Scope.config (r : Scope) : Bool := r == .control || r == .owner

def Scope.admission (r : Scope) : Bool := r == .coordinator || r == .owner

def Scope.returning (r : Scope) : Bool := r == .gateway || r == .owner

/-- What `Validate` asks of each key. -/
structure ScopedKey.Valid (r : Scope) (k : ScopedKey) : Prop where
  name : KeyName k.id
  since : 0 ≤ k.since ∧ k.since < 9007199254740990
  publics : k.configPublic.length = 32 ∧ k.admissionPublic.length = 32
  config : PrivateKey x r.config k.configPrivate k.configPublic
  admission : PrivateKey x r.admission k.admissionPrivate k.admissionPublic
  replay : SecretKey r.admission k.replay
  returning : SecretKey r.returning k.returning

instance (r : Scope) (k : ScopedKey) : Decidable (k.Valid x r) :=
  decidable_of_iff (KeyName k.id ∧ (0 ≤ k.since ∧ k.since < 9007199254740990) ∧
    (k.configPublic.length = 32 ∧ k.admissionPublic.length = 32) ∧
    PrivateKey x r.config k.configPrivate k.configPublic ∧
    PrivateKey x r.admission k.admissionPrivate k.admissionPublic ∧
    SecretKey r.admission k.replay ∧ SecretKey r.returning k.returning)
    ⟨fun ⟨h₁, h₂, h₃, h₄, h₅, h₆, h₇⟩ => ⟨h₁, h₂, h₃, h₄, h₅, h₆, h₇⟩,
      fun h => ⟨h.name, h.since, h.publics, h.config, h.admission, h.replay, h.returning⟩⟩

/-- The part of `Validate` that does not look at the secrets. -/
structure ScopedSet.Shaped (s : ScopedSet) : Prop where
  generation : 1 ≤ s.generation ∧ s.generation < 9007199254740990
  phase : s.phase ≠ .legacy
  staged : s.phase = .staged ↔ s.next.isSome = true
  active : s.phase = .active ↔ s.previous.isSome = true
  ids : (s.keys.map fun k => k.id).Nodup
  boundary : ∀ old ∈ s.previous, old.since < s.current.since ∧ s.current.since ≠ 0

instance (s : ScopedSet) : Decidable s.Shaped :=
  decidable_of_iff ((1 ≤ s.generation ∧ s.generation < 9007199254740990) ∧ s.phase ≠ .legacy ∧
    (s.phase = .staged ↔ s.next.isSome = true) ∧ (s.phase = .active ↔ s.previous.isSome = true) ∧
    (s.keys.map fun k => k.id).Nodup ∧
    ∀ old ∈ s.previous, old.since < s.current.since ∧ s.current.since ≠ 0)
    ⟨fun ⟨h₁, h₂, h₃, h₄, h₅, h₆⟩ => ⟨h₁, h₂, h₃, h₄, h₅, h₆⟩,
      fun h => ⟨h.generation, h.phase, h.staged, h.active, h.ids, h.boundary⟩⟩

/-- `Validate`. -/
def ScopedSet.Valid (r : Scope) (s : ScopedSet) : Prop :=
  s.Shaped ∧ (∀ k ∈ s.keys, k.Valid x r) ∧ r ≠ .nobody
  deriving Decidable

end Validate

section Scoped

def ScopedKey.forRole (r : Scope) (k : ScopedKey) : ScopedKey :=
  { k with
    configPrivate := if r = .control then k.configPrivate else []
    admissionPrivate := if r = .coordinator then k.admissionPrivate else []
    replay := if r = .coordinator then k.replay else []
    returning := if r = .gateway then k.returning else [] }

/-- `ForRole`. -/
def ScopedSet.forRole (r : Scope) (s : ScopedSet) : ScopedSet :=
  { s with
    current := s.current.forRole r
    previous := s.previous.map (ScopedKey.forRole r)
    next := s.next.map (ScopedKey.forRole r) }

/-- `Digest`. -/
def ScopedSet.digest (x : Suite) (s : ScopedSet) : String :=
  x.hexSha256 (x.marshal (s.forRole .nobody))

/-- A key with no secret of a role other than `r`. -/
structure ScopedKey.OnlyFor (r : Scope) (k : ScopedKey) : Prop where
  config : r ≠ .control → k.configPrivate = []
  admission : r ≠ .coordinator → k.admissionPrivate = [] ∧ k.replay = []
  returning : r ≠ .gateway → k.returning = []

variable {x : Suite} {s : ScopedSet} {k : ScopedKey} {r : Scope}

theorem ScopedSet.keys_forRole (r : Scope) (s : ScopedSet) :
    (s.forRole r).keys = s.keys.map (ScopedKey.forRole r) := by
  unfold keys forRole
  cases s.previous <;> cases s.next <;> rfl

theorem ScopedKey.onlyFor (r : Scope) (k : ScopedKey) : (k.forRole r).OnlyFor r :=
  ⟨fun h => if_neg h, fun h => ⟨if_neg h, if_neg h⟩, fun h => if_neg h⟩

theorem ScopedSet.digest_forRole (r : Scope) (s : ScopedSet) :
    (s.forRole r).digest x = s.digest x := by
  have hkey : ∀ k : ScopedKey, (k.forRole r).forRole .nobody = k.forRole .nobody := fun _ => rfl
  have hset : (s.forRole r).forRole .nobody = s.forRole .nobody := by
    unfold forRole
    simp only [Option.map_map, hkey]
    rfl
  rw [digest, hset, digest]

theorem ScopedSet.ids_forRole (r : Scope) (s : ScopedSet) :
    ((s.forRole r).keys.map fun k => k.id) = s.keys.map fun k => k.id := by
  rw [keys_forRole, List.map_map]
  rfl

theorem ScopedSet.Shaped.forRole (h : s.Shaped) (r : Scope) : (s.forRole r).Shaped where
  generation := h.generation
  phase := h.phase
  staged := h.staged.trans (by simp only [ScopedSet.forRole, Option.isSome_map])
  active := h.active.trans (by simp only [ScopedSet.forRole, Option.isSome_map])
  ids := by
    rw [ids_forRole]
    exact h.ids
  boundary := by
    intro old hold
    obtain ⟨k, hk, rfl⟩ := Option.map_eq_some_iff.mp hold
    exact h.boundary k hk

/-- Of a key that is valid for the owner, a role gets what `Validate` asks of it. -/
theorem ScopedKey.Valid.forRole (h : k.Valid x .owner) (hr : r ≠ .owner) :
    (k.forRole r).Valid x r where
  name := h.name
  since := h.since
  publics := h.publics
  config := by
    have hc := h.config
    cases r <;> first | exact absurd rfl hr | exact hc | rfl
  admission := by
    have ha := h.admission
    cases r <;> first | exact absurd rfl hr | exact ha | rfl
  replay := by
    have hp := h.replay
    cases r <;> first | exact absurd rfl hr | exact hp | rfl
  returning := by
    have ht := h.returning
    cases r <;> first | exact absurd rfl hr | exact ht | rfl

theorem PrivateKey.unique {w w' : Bool} {data pub : Bytes} (h : PrivateKey x w data pub)
    (h' : PrivateKey x w' data pub) : w = w' := by
  have hne : ∀ {d : Bytes}, d.length = 64 → d ≠ [] := by
    rintro d hd rfl
    cases hd
  cases w <;> cases w'
  · rfl
  · exact absurd h (hne h'.1)
  · exact absurd h' (hne h.1)
  · rfl

theorem SecretKey.unique {w w' : Bool} {data : Bytes} (h : SecretKey w data)
    (h' : SecretKey w' data) : w = w' := by
  have hne : ∀ {d : Bytes}, d.length = 32 → d ≠ [] := by
    rintro d hd rfl
    cases hd
  cases w <;> cases w'
  · rfl
  · exact absurd h (hne h'.1)
  · exact absurd h' (hne h.1)
  · rfl

/-- `Validate` both asks for the secrets of a role and forbids the others, so that no
set is valid for two roles. -/
theorem ScopedSet.Valid.unique {r' : Scope} (h : s.Valid x r) (h' : s.Valid x r') : r = r' := by
  have hk := h.2.1 s.current List.mem_cons_self
  have hk' := h'.2.1 s.current List.mem_cons_self
  have hc := hk.config.unique hk'.config
  have ha := hk.admission.unique hk'.admission
  have ht := hk.returning.unique hk'.returning
  have hn := h.2.2
  have hn' := h'.2.2
  revert hc ha ht hn hn'
  cases r <;> cases r' <;> decide

/-- The roles that `RotateKeys` writes key sets for. -/
def Scope.Reads (r : Scope) : Prop := r = .control ∨ r = .coordinator ∨ r = .gateway

theorem ScopedSet.Valid.forRole (h : s.Valid x .owner) (hr : r.Reads) :
    (s.forRole r).Valid x r := by
  have hne : r ≠ .owner ∧ r ≠ .nobody := by
    rcases hr with rfl | rfl | rfl <;> decide
  refine ⟨h.1.forRole r, fun k hk => ?_, hne.2⟩
  rw [keys_forRole] at hk
  obtain ⟨k', hk', rfl⟩ := List.mem_map.mp hk
  exact (h.2.1 k' hk').forRole hne.1

theorem ScopedSet.Shaped.length_keys_le (h : s.Shaped) : s.keys.length ≤ 2 := by
  have hs := h.staged
  have ha := h.active
  unfold keys
  rcases hp : s.previous with - | old <;> rcases hn : s.next with - | new
  · exact Nat.le_succ 1
  · exact Nat.le_refl 2
  · exact Nat.le_refl 2
  · rw [hn] at hs
    rw [hp] at ha
    have both := (hs.mpr rfl).symm.trans (ha.mpr rfl)
    cases both

end Scoped

section Rotate

/-- The operations of `RotateKeys`. -/
inductive Change
  | status | stage | activate | retire | revoke
deriving DecidableEq, Repr

/-- What the journal holds: `rotationDisk`, without the binding to its installation. -/
structure RotationDisk where
  keys : ScopedSet
  before : String
deriving DecidableEq

/-- One call of `RotateKeys`, with what the call finds and how far its writes get:
the journal, then the three roles and the row of the operation. -/
structure Call where
  operation : Change
  acks : Nat
  now : ℤ
  reset : Bool
  fresh : Option ScopedKey
  pristine : Bool
  written : Nat

/-- `RotationReport`. -/
structure RotationReport where
  phase : Phase
  generation : ℤ := 0
  digest : String := ""
  activateAt : ℤ := 0
  retireAfter : ℤ := 0
  acknowledged : Nat := 0
  emergencyReady : Bool := false
deriving DecidableEq

variable (x : Suite)

def rotationReport (keys : ScopedSet) (acks : Nat) : RotationReport :=
  let out : RotationReport :=
    { phase := keys.phase, generation := keys.generation, digest := keys.digest x,
      acknowledged := acks }
  if keys.previous.isSome then
    { out with activateAt := keys.current.since, retireAfter := keys.current.since + 86430000 }
  else out

/-- What `RotateKeys` makes of the set it has loaded, and whether it has changed it. -/
def ScopedSet.rotate (s : ScopedSet) (c : Call) (acks : Nat) (emergencyReady : Bool) :
    Option (ScopedSet × Bool) :=
  match c.operation with
  | .status => none
  | .stage =>
    if s.phase = .active then none
    else if s.phase = .staged then some (s, false)
    else c.fresh.map fun next =>
      ({ s with next := some next, generation := s.generation + 1, phase := .staged }, true)
  | .activate =>
    if s.phase = .active then some (s, false)
    else if s.phase ≠ .staged ∨ acks ≠ 2 then none
    else match s.next with
      | none => none
      | some next =>
        if c.now + 30000 ≤ s.current.since then none
        else some (⟨s.generation + 1, .active, { next with since := c.now + 30000 },
          some s.current, none⟩, true)
  | .retire | .revoke =>
    if s.phase = .stable then some (s, false)
    else if s.phase ≠ .active ∨ acks ≠ 2 then none
    else if c.operation = .revoke ∧ emergencyReady = false then none
    else if c.operation ≠ .revoke ∧ c.now < s.current.since + 86430000 then none
    else some ({ s with previous := none, generation := s.generation + 1, phase := .stable }, true)

def legacySet (legacy : ScopedKey) : ScopedSet := { current := legacy }

/-- The part of `RotateKeys` between the load and the return. -/
def RotationDisk.rotate (disk : RotationDisk) (journal : Option RotationDisk) (c : Call) :
    Option RotationReport × Option RotationDisk :=
  let acks := if 0 < disk.keys.generation then c.acks else 0
  let emergencyReady := decide (disk.keys.phase = .active ∧ acks = 2) && c.reset
  if c.operation = .status then
    (some { rotationReport x disk.keys acks with emergencyReady }, journal)
  else match disk.keys.rotate c acks emergencyReady with
    | none => (none, journal)
    | some (keys, changed) =>
      if keys.Valid x .owner then
        if c.written = 0 then (none, journal)
        else (if 5 ≤ c.written then some (rotationReport x keys 0) else none,
          some ⟨keys, if changed then disk.keys.digest x else disk.before⟩)
      else (none, journal)

/-- `RotateKeys`: the report, if there is one, and the journal. -/
def rotateJournal (legacy : ScopedKey) (journal : Option RotationDisk) (c : Call) :
    Option RotationReport × Option RotationDisk :=
  match journal with
  | none =>
    if c.operation = .status then (some { phase := .legacy }, journal)
    else if c.operation ≠ .stage ∨ c.pristine = false then (none, journal)
    else RotationDisk.rotate x ⟨legacySet legacy, String.ofList (List.replicate 64 '0')⟩ journal c
  | some disk =>
    if disk.keys.Valid x .owner ∧ disk.before.length = 64 then disk.rotate x journal c
    else (none, journal)

def heldSet (legacy : ScopedKey) (journal : Option RotationDisk) : ScopedSet :=
  (journal.map fun disk => disk.keys).getD (legacySet legacy)

abbrev KeyEvent := Event (Option RotationDisk) Call (Option RotationReport)

abbrev KeyRun (legacy : ScopedKey) : List KeyEvent → Option RotationDisk → Prop :=
  Run (rotateJournal x legacy) (fun _ _ => True) none

end Rotate

section Step

variable {x : Suite} {legacy : ScopedKey} {s s' : ScopedSet} {c : Call}
  {disk : RotationDisk} {j : Option RotationDisk}

inductive Advances (s : ScopedSet) (c : Call) : ScopedSet → Prop
  | staged (next : ScopedKey) : c.operation = .stage →
      Advances s c { s with next := some next, generation := s.generation + 1, phase := .staged }
  | activated (next : ScopedKey) : c.operation = .activate →
      s.current.since < c.now + 30000 →
      Advances s c ⟨s.generation + 1, .active, { next with since := c.now + 30000 },
        some s.current, none⟩
  | retired : c.operation = .retire ∨ c.operation = .revoke →
      Advances s c
        { s with previous := none, generation := s.generation + 1, phase := .stable }

def Change.target : Change → Option Phase
  | .status => none
  | .stage => some .staged
  | .activate => some .active
  | .retire | .revoke => some .stable

theorem Advances.generation (h : Advances s c s') : s'.generation = s.generation + 1 := by
  cases h <;> rfl

theorem Advances.since_le (h : Advances s c s') : s.current.since ≤ s'.current.since := by
  cases h with
  | staged => exact le_refl _
  | activated _ _ lt => exact lt.le
  | retired => exact le_refl _

theorem Advances.since_lt (h : Advances s c s') (hc : c.operation = .activate) :
    s.current.since < s'.current.since := by
  cases h with
  | staged _ h => cases h.symm.trans hc
  | activated _ _ lt => exact lt
  | retired h =>
    rcases h with h | h <;> cases h.symm.trans hc

theorem Advances.target (h : Advances s c s') : c.operation.target = some s'.phase := by
  cases h with
  | staged _ h => rw [h]; rfl
  | activated _ h => rw [h]; rfl
  | retired h => rcases h with h | h <;> rw [h] <;> rfl

theorem ScopedSet.rotate_cases {acks : Nat} {ready changed : Bool}
    (h : s.rotate c acks ready = some (s', changed)) :
    (changed = false ∧ s' = s ∧ c.operation.target = some s.phase) ∨
      (changed = true ∧ Advances s c s') := by
  unfold rotate at h
  cases hop : c.operation <;> rw [hop] at h <;> dsimp only at h
  case status => cases h
  case stage =>
    split_ifs at h with ha hp
    · cases h
      exact .inl ⟨rfl, rfl, hp ▸ rfl⟩
    · obtain ⟨next, -, hs⟩ := Option.map_eq_some_iff.mp h
      cases hs
      exact .inr ⟨rfl, .staged next hop⟩
  case activate =>
    by_cases ha : s.phase = .active
    · rw [if_pos ha] at h
      cases h
      exact .inl ⟨rfl, rfl, ha ▸ rfl⟩
    · rw [if_neg ha] at h
      cases hn : s.next with
      | none =>
        rw [hn] at h
        split_ifs at h
      | some next =>
        rw [hn] at h
        dsimp only at h
        split_ifs at h with hp ht
        cases h
        exact .inr ⟨rfl, .activated next hop (lt_of_not_ge ht)⟩
  case retire | revoke =>
    split_ifs at h with hp
    · cases h
      exact .inl ⟨rfl, rfl, hp ▸ rfl⟩
    · cases h
      exact .inr ⟨rfl, .retired (by rw [hop]; decide)⟩

theorem ScopedSet.rotate_done {acks : Nat} {ready : Bool} (h : c.operation.target = some s.phase) :
    s.rotate c acks ready = some (s, false) := by
  unfold rotate
  cases hop : c.operation <;> rw [hop] at h <;> dsimp only
  case status => cases h
  case stage =>
    have hp := (Option.some.inj h).symm
    rw [if_neg (by rw [hp]; decide), if_pos hp]
  case activate => rw [if_pos (Option.some.inj h).symm]
  case retire | revoke => rw [if_pos (Option.some.inj h).symm]

structure Turn (x : Suite) (legacy : ScopedKey) (j : Option RotationDisk) (c : Call)
    (out : Option RotationReport × Option RotationDisk) : Prop where
  moved : out.2 = j ∨ ∃ disk, out.2 = some disk ∧ disk.keys.Valid x .owner ∧
    disk.before.length = 64 ∧ Advances (heldSet legacy j) c disk.keys
  done : out.1.isSome = true → c.operation ≠ .status →
    c.operation.target = some (heldSet legacy out.2).phase

theorem Turn.refused : Turn x legacy j c (none, j) :=
  ⟨.inl rfl, fun h => nomatch h⟩

theorem RotationDisk.rotate_turn
    (hj : j = some disk ∨ j = none ∧ disk.keys = legacySet legacy) :
    Turn x legacy j c (disk.rotate x j c) := by
  have held : heldSet legacy j = disk.keys := by
    rcases hj with rfl | ⟨rfl, h⟩
    · rfl
    · exact h.symm
  unfold rotate
  dsimp only
  by_cases hop : c.operation = .status
  · rw [if_pos hop]
    exact ⟨.inl rfl, fun _ h => absurd hop h⟩
  rw [if_neg hop]
  split
  · exact Turn.refused
  · rename_i keys changed hr
    by_cases hv : keys.Valid x .owner
    swap
    · rw [if_neg hv]
      exact Turn.refused
    rw [if_pos hv]
    by_cases hw : c.written = 0
    · rw [if_pos hw]
      exact Turn.refused
    rw [if_neg hw]
    rcases ScopedSet.rotate_cases hr with ⟨rfl, rfl, ht⟩ | ⟨rfl, ha⟩
    · -- no operation leads to the legacy phase, so that the set was in the journal
      rcases hj with rfl | ⟨-, hl⟩
      · exact ⟨.inl rfl, fun _ _ => ht⟩
      · exact absurd (congrArg ScopedSet.phase hl) hv.1.phase
    · exact ⟨.inr ⟨_, rfl, hv, x.length_hexSha256 _, held ▸ ha⟩, fun _ _ => ha.target⟩

theorem rotateJournal_turn (x : Suite) (legacy : ScopedKey) (j : Option RotationDisk) (c : Call) :
    Turn x legacy j c (rotateJournal x legacy j c) := by
  cases j with
  | none =>
    unfold rotateJournal
    dsimp only
    by_cases hop : c.operation = .status
    · rw [if_pos hop]
      exact ⟨.inl rfl, fun _ h => absurd hop h⟩
    rw [if_neg hop]
    split
    · exact Turn.refused
    · exact RotationDisk.rotate_turn (.inr ⟨rfl, rfl⟩)
  | some disk =>
    unfold rotateJournal
    dsimp only
    split
    · exact RotationDisk.rotate_turn (.inl rfl)
    · exact Turn.refused

theorem rotateJournal_done (h : c.operation.target = some (heldSet legacy j).phase) :
    (rotateJournal x legacy j c).2 = j := by
  cases j with
  | none =>
    exfalso
    revert h
    cases c.operation <;> exact fun h => nomatch h
  | some disk =>
    unfold rotateJournal
    dsimp only
    split
    · unfold RotationDisk.rotate
      dsimp only
      rw [ScopedSet.rotate_done (s := disk.keys) h]
      dsimp only
      rw [if_neg Bool.false_ne_true]
      split_ifs <;> rfl
    · rfl

end Step

section Life

variable {x : Suite} {legacy : ScopedKey} {events : List KeyEvent} {j : Option RotationDisk}

/-- A journal that `loadRotation` accepts, with at most two keys. -/
structure RotationDisk.Sound (x : Suite) (disk : RotationDisk) : Prop where
  valid : disk.keys.Valid x .owner
  before : disk.before.length = 64
  two : disk.keys.keys.length ≤ 2

def Activates (e : KeyEvent) : Prop := e.input.operation = .activate ∧ e.after ≠ e.before

/-- The boundary between the keys of the set that an event leaves. -/
def boundary (legacy : ScopedKey) (e : KeyEvent) : ℤ := (heldSet legacy e.after).current.since

/-- An event leaves the journal alone, or writes the set of the next generation. -/
def Succeeds (legacy : ScopedKey) (e : KeyEvent) : Prop :=
  e.after = e.before ∨
    (heldSet legacy e.after).generation = (heldSet legacy e.before).generation + 1

/-- Once an event has changed the journal, or has reported its operation, the same
operation changes nothing, whatever it finds. -/
def Repeatable (x : Suite) (legacy : ScopedKey) (e : KeyEvent) : Prop :=
  e.after ≠ e.before ∨ e.output.isSome = true → ∀ c : Call,
    c.operation = e.input.operation → (rotateJournal x legacy e.after c).2 = e.after

theorem KeyRun.turn {e : KeyEvent} (hr : KeyRun x legacy events j) (he : e ∈ events) :
    Turn x legacy e.before e.input (e.output, e.after) := by
  obtain ⟨-, -, -, -, -, heq, -⟩ := hr.split he
  rw [heq]
  exact rotateJournal_turn x legacy e.before e.input

theorem Turn.succeeds {e : KeyEvent} (h : Turn x legacy e.before e.input (e.output, e.after)) :
    Succeeds legacy e := by
  rcases h.moved with same | ⟨disk, hd, -, -, ha⟩
  · exact .inl same
  · refine .inr ?_
    dsimp only at hd
    rw [hd]
    exact ha.generation

theorem Turn.since_le {c : Call} {out : Option RotationReport × Option RotationDisk}
    (h : Turn x legacy j c out) :
    (heldSet legacy j).current.since ≤ (heldSet legacy out.2).current.since := by
  rcases h.moved with same | ⟨disk, hd, -, -, ha⟩
  · rw [same]
  · rw [hd]
    exact ha.since_le

theorem Turn.repeatable {e : KeyEvent} (h : Turn x legacy e.before e.input (e.output, e.after)) :
    Repeatable x legacy e := by
  intro hw c hc
  by_cases hop : e.input.operation = .status
  · -- a status call writes nothing at all
    rcases (rotateJournal_turn x legacy e.after c).moved with same | ⟨disk, hd, hv, -, ha⟩
    · exact same
    · have ht := ha.target
      rw [hc, hop] at ht
      cases ht
  apply rotateJournal_done
  rw [hc]
  rcases h.moved with same | ⟨disk, hd, -, -, ha⟩
  · rcases hw with hne | hs
    · exact absurd same hne
    · exact h.done hs hop
  · dsimp only at hd
    rw [hd]
    exact ha.target

theorem run_sound (hr : KeyRun x legacy events j) : ∀ disk ∈ j, disk.Sound x := by
  refine hr.invariant (I := fun j => ∀ disk ∈ j, disk.Sound x) (fun _ h => nomatch h) ?_
  intro j c ih _ disk hdisk
  rcases (rotateJournal_turn x legacy j c).moved with same | ⟨disk', hd, hv, hb, -⟩
  · rw [same] at hdisk
    exact ih disk hdisk
  · rw [hd] at hdisk
    obtain rfl := Option.some.inj hdisk
    exact ⟨hv, hb, hv.1.length_keys_le⟩

theorem run_boundary_le (hr : KeyRun x legacy events j) :
    ∀ e ∈ events, boundary legacy e ≤ (heldSet legacy j).current.since := by
  induction hr with
  | nil => exact fun _ h => nomatch h
  | @snoc _ j c _ _ ih =>
    intro e he
    rcases List.mem_append.mp he with he | he
    · exact (ih e he).trans (rotateJournal_turn x legacy j c).since_le
    · obtain rfl := List.mem_singleton.mp he
      exact le_refl _

theorem run_boundaries (hr : KeyRun x legacy events j) :
    events.Pairwise fun e e' => Activates e' → boundary legacy e < boundary legacy e' := by
  refine hr.pairwise fun es j c hr _ e he ⟨hop, hne⟩ => ?_
  refine (run_boundary_le hr e he).trans_lt ?_
  rcases (rotateJournal_turn x legacy j c).moved with same | ⟨disk, hd, -, -, ha⟩
  · exact absurd same hne
  · unfold boundary
    rw [eventOf_after, hd]
    exact ha.since_lt hop

/-- In every run of the owner's command from the legacy keys, each journal is valid,
each change is one generation, done operations stay done and each activation moves the
boundary on. What a role gets of a valid set is valid for that role and no other, is
free of the secrets of the others, and has the owner's digest. -/
theorem key_set_lifecycle (x : Suite) (legacy : ScopedKey) :
    (∀ (events : List KeyEvent) (j : Option RotationDisk), KeyRun x legacy events j →
      (∀ disk ∈ j, disk.Sound x) ∧
      (∀ e ∈ events, (∀ disk ∈ e.after, disk.Sound x) ∧ Succeeds legacy e ∧
        Repeatable x legacy e) ∧
      events.Pairwise fun e e' =>
        Activates e → Activates e' → boundary legacy e < boundary legacy e') ∧
    ∀ (s : ScopedSet) (r : Scope), s.Valid x .owner → r.Reads →
      (∀ r', (s.forRole r).Valid x r' ↔ r' = r) ∧ (∀ k ∈ (s.forRole r).keys, k.OnlyFor r) ∧
        (s.forRole r).digest x = s.digest x := by
  refine ⟨fun events j hr => ⟨run_sound hr, fun e he => ?_, ?_⟩, fun s r hs hr => ⟨?_, ?_, ?_⟩⟩
  · have ht := KeyRun.turn hr he
    obtain ⟨es, es', -, hb, -, heq, -⟩ := hr.split he
    have hafter : KeyRun x legacy (es ++ [eventOf (rotateJournal x legacy) e.before e.input])
        (rotateJournal x legacy e.before e.input).2 := hb.snoc e.input trivial
    refine ⟨?_, ht.succeeds, ht.repeatable⟩
    rw [heq]
    exact run_sound hafter
  · exact (run_boundaries hr).imp fun h _ ha => h ha
  · intro r'
    constructor
    · exact fun h' => h'.unique (hs.forRole hr)
    · rintro rfl
      exact hs.forRole hr
  · intro k hk
    rw [ScopedSet.keys_forRole] at hk
    obtain ⟨k', -, rfl⟩ := List.mem_map.mp hk
    exact ScopedKey.onlyFor r k'
  · exact ScopedSet.digest_forRole r s

def sampleSuite : Suite where
  newKeyFromSeed seed := seed ++ seed
  marshal s := s.keys.map fun k => UInt8.ofNat k.id.length
  hexSha256 _ := String.ofList (List.replicate 64 '0')
  length_hexSha256 _ := rfl

def sampleKey (id : String) (b : UInt8) : ScopedKey :=
  let seed := List.replicate 32 b
  ⟨id, 0, seed, seed, seed ++ seed, seed ++ seed, seed, seed⟩

def sampleCall (op : Change) (now : ℤ) : Call :=
  ⟨op, 2, now, false, some (sampleKey "0123456789abcdef0123456789abcdef" 2), true, 5⟩

def rotatedDisk : RotationDisk :=
  ⟨{ generation := 3, phase := .stable,
     current := { sampleKey "0123456789abcdef0123456789abcdef" 2 with since := 1030000 } },
   String.ofList (List.replicate 64 '0')⟩

def rotationCalls : List Call :=
  [sampleCall .stage 0, sampleCall .activate 1000000, sampleCall .retire 87460000]

theorem rotationCalls_disk :
    stateAfter (rotateJournal sampleSuite (sampleKey "v1" 1)) none rotationCalls =
      some rotatedDisk := by
  decide +kernel

/-- A rotation of the sample ends with one key, and the gateway's part is the gateway's
alone. -/
theorem rotationCalls_lifecycle :
    rotatedDisk.Sound sampleSuite ∧
      (∀ r', (rotatedDisk.keys.forRole .gateway).Valid sampleSuite r' ↔ r' = .gateway) ∧
      rotatedDisk.keys.keys.length = 1 := by
  have main := key_set_lifecycle sampleSuite (sampleKey "v1" 1)
  have hr : KeyRun sampleSuite (sampleKey "v1" 1) _
      (stateAfter (rotateJournal sampleSuite (sampleKey "v1" 1)) none rotationCalls) :=
    run_of_inputs none fun _ _ _ => trivial
  rw [rotationCalls_disk] at hr
  have hs := (main.1 _ _ hr).1 rotatedDisk rfl
  exact ⟨hs, (main.2 rotatedDisk.keys .gateway hs.valid (.inr (.inr rfl))).1, rfl⟩

end Life

end WaitingRoom.Keyring
