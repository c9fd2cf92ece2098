import WaitingRoom.Queue.State

/-!
# Admission tokens

The coordinator signs the admission of a claimed ticket and the gateway verifies
it, both in whole seconds. JSON, base64 and Ed25519 are parameters; the only law
that is used of them is that the claims of a token are read back as they were
written.
-/

namespace WaitingRoom.Admission

set_option autoImplicit false

structure Claims where
  kid : String
  room : String
  epoch : Nat
  jti : String
  issued : ℤ
  notBefore : ℤ
  expires : ℤ
  audience : String
deriving DecidableEq

/-- The encodings and the signature scheme of tokens, with keys of the right size. -/
structure Codec where
  Private : Type
  Public : Type
  Payload : Type
  Signature : Type
  size : Payload → Signature → Nat
  marshal : Claims → Payload
  unmarshal : Payload → Option Claims
  sign : Private → Payload → Signature
  verify : Public → Payload → Signature → Bool
  unmarshal_marshal : ∀ c, unmarshal (marshal c) = some c

structure Token (x : Codec) where
  payload : x.Payload
  signature : x.Signature

variable {x : Codec}

def sign (key : x.Private) (c : Claims) : Token x := ⟨x.marshal c, x.sign key (x.marshal c)⟩

/-- The tests of `Verify` on the claims, at the second `n`. -/
def Claims.Accepted (c : Claims) (kid room aud : String) (epoch : Nat) (n skew : ℤ) : Prop :=
  c.kid = kid ∧ c.room = room ∧ c.audience = aud ∧ c.epoch = epoch ∧ c.jti ≠ "" ∧
    c.notBefore = c.issued ∧ c.issued < c.expires ∧ c.expires - c.issued ≤ 3600 ∧
    c.notBefore ≤ n + skew ∧ n < c.expires + skew

instance (c : Claims) (kid room aud : String) (epoch : Nat) (n skew : ℤ) :
    Decidable (c.Accepted kid room aud epoch n skew) :=
  inferInstanceAs (Decidable (_ ∧ _ ∧ _ ∧ _ ∧ _ ∧ _ ∧ _ ∧ _ ∧ _ ∧ _))

/-- `Verify`, at a time and with a leeway in milliseconds. -/
def verify (key : x.Public) (token : Token x) (kid room aud : String) (epoch now leeway : Nat) :
    Option Claims :=
  if 2048 < x.size token.payload token.signature ∨ 30000 < leeway then none
  else if ¬ x.verify key token.payload token.signature then none
  else
    match x.unmarshal token.payload with
    | none => none
    | some c =>
      if c.Accepted kid room aud epoch (now / 1000 : Nat) (leeway / 1000 : Nat) then some c else none

/-- `keyring.Key`, as far as it is about admissions. -/
structure Key (x : Codec) where
  id : String
  since : ℤ
  admissionPrivate : x.Private
  admissionPublic : x.Public

def Key.admissionKid (k : Key x) : String := "admission-" ++ k.id

/-- `keyring.Set`. -/
structure KeySet (x : Codec) where
  current : Key x
  previous : Option (Key x) := none
  next : Option (Key x) := none

def KeySet.keys (s : KeySet x) : List (Key x) :=
  s.current :: (s.previous.toList ++ s.next.toList)

def KeySet.admissionAt (s : KeySet x) (promoted : ℤ) : Key x :=
  match s.previous with
  | some k => if promoted < s.current.since then k else s.current
  | none => s.current

structure Binding (x : Codec) where
  keys : Option (KeySet x) := none
  room : String
  audience : String
  kid : String
  epoch : Nat

/-- What the coordinator of one room reads to sign an admission. -/
structure Coordinator (x : Codec) where
  binding : Binding x
  key : x.Private
  admissionTTL : Nat

def issuedAt (admissionTTL : Nat) (t : Queue.Ticket) : ℤ :=
  let issued : ℤ := (t.promotedAt.getD 0 : Nat)
  if issued = 0 then t.admissionUntil - admissionTTL else issued

def Coordinator.claims (c : Coordinator x) (kid : String) (t : Queue.Ticket) : Claims where
  kid := kid
  room := c.binding.room
  epoch := t.epoch
  jti := t.jti
  issued := (issuedAt c.admissionTTL t).tdiv 1000
  notBefore := (issuedAt c.admissionTTL t).tdiv 1000
  expires := (t.admissionUntil : ℤ).tdiv 1000
  audience := c.binding.audience

/-- The `admissionToken` of the answer to a claim. -/
def Coordinator.token (c : Coordinator x) (t : Queue.Ticket) : Token x :=
  match c.binding.keys with
  | none => sign c.key (c.claims c.binding.kid t)
  | some keys =>
    let k := keys.admissionAt (issuedAt c.admissionTTL t)
    sign k.admissionPrivate (c.claims k.admissionKid t)

structure Gateway (x : Codec) where
  binding : Binding x
  key : x.Public

/-- `verifyAdmission`: every key of the ring is tried. -/
def Gateway.verifyAdmission (g : Gateway x) (token : Token x) (now : Nat) : Option Claims :=
  match g.binding.keys with
  | some keys => keys.keys.findSome? fun k =>
      verify k.admissionPublic token k.admissionKid g.binding.room g.binding.audience
        g.binding.epoch now 30000
  | none => verify g.key token g.binding.kid g.binding.room g.binding.audience g.binding.epoch now
      30000

theorem verify_sign {signer : x.Private} {key : x.Public} {c c' : Claims} {kid room aud : String}
    {epoch now leeway : Nat}
    (h : verify key (sign signer c) kid room aud epoch now leeway = some c') :
    c' = c ∧ c.Accepted kid room aud epoch (now / 1000 : Nat) (leeway / 1000 : Nat) := by
  unfold verify at h
  split at h
  · simp at h
  · split at h
    · simp at h
    · simp only [sign, x.unmarshal_marshal] at h
      split at h
      · obtain rfl := Option.some.inj h
        exact ⟨rfl, by assumption⟩
      · simp at h

/-- A token that a gateway accepts is one of its room and epoch, and its ticket's
admission ended less than 30 s ago, if it has ended at all. -/
theorem accepted_of_verifyAdmission {g : Gateway x} {c : Coordinator x}
    {t : Queue.Ticket} {now : Nat} {claims : Claims}
    (h : g.verifyAdmission (c.token t) now = some claims) :
    claims.jti = t.jti ∧ c.binding.room = g.binding.room ∧ t.epoch = g.binding.epoch ∧
      now < t.admissionUntil + 30000 := by
  obtain ⟨signer, kid, htoken⟩ : ∃ signer kid, c.token t = sign signer (c.claims kid t) := by
    unfold Coordinator.token
    split
    · exact ⟨_, _, rfl⟩
    · exact ⟨_, _, rfl⟩
  obtain ⟨key, kid', hv⟩ : ∃ key kid', verify key (c.token t) kid' g.binding.room
      g.binding.audience g.binding.epoch now 30000 = some claims := by
    unfold Gateway.verifyAdmission at h
    split at h
    · obtain ⟨k, -, hk⟩ := List.exists_of_findSome?_eq_some h
      exact ⟨_, _, hk⟩
    · exact ⟨_, _, h⟩
  rw [htoken] at hv
  obtain ⟨rfl, -, hroom, -, hepoch, -, -, -, -, -, hlive⟩ := verify_sign hv
  refine ⟨rfl, hroom, hepoch, ?_⟩
  simp only [Coordinator.claims] at hlive
  rw [Int.tdiv_eq_ediv_of_nonneg (by omega)] at hlive
  omega

end WaitingRoom.Admission
