import WaitingRoom.Admin.Account

/-!
# Login, second factors and enrollment

Each function is one transaction of the source. What runs between two of them
without a lock (hashing a password or a code) is carried over as the value that
the first transaction has read. `now` is the reading of the clock after the locks
and `wrote` the one that the writing statement makes itself.
-/

namespace WaitingRoom.Admin

set_option autoImplicit false

variable {R : Type}

structure Grant where
  session : Token
  csrf : Token
  deriving DecidableEq, Repr

structure Accepted where
  user : String
  version : Nat
  counter : Nat
  deriving DecidableEq, Repr

def maxInt64 : Nat := 9223372036854775807

def minutes (n : ℤ) : Time := n * 60 * 1000000

/-! ## Time-based codes -/

def sixDigits (code : String) : Bool := code.toList.length = 6 && code.toList.all Char.isDigit

/-- `matchCounter`: the newest of the three steps around the clock that has these
digits. -/
def matchCounter (hotp : String → Nat → String) (secret code : String) (now : Time) :
    Option Nat :=
  let unix := now / 1000000
  if unix < 0 ∨ sixDigits code = false then none
  else
    let current := (unix / 30).toNat
    if hotp secret (current + 1) = code then some (current + 1)
    else if hotp secret current = code then some current
    else if 0 < current ∧ hotp secret (current - 1) = code then some (current - 1)
    else none

/-- The update of `last_counter` that all code checks of a stored credential end in. -/
def Credential.consume (c : Credential) (counter : Nat) : Option Credential :=
  if counter ≤ maxInt64 ∧ c.lastCounter < counter then some { c with lastCounter := counter }
  else none

/-- `VerifyAndConsume` for a stored credential. -/
def verifyAndConsume (hotp : String → Nat → String) (c : Credential) (code : String) (now : Time) :
    Option (Nat × Credential) :=
  (matchCounter hotp c.secret code now).bind fun counter =>
    (c.consume counter).map fun c => (counter, c)

/-! ## Password login -/

/-- `passwordSnapshot`: what the password was checked against. -/
structure PasswordSnapshot where
  user : String
  role : Role
  enabled : Bool
  userVersion : Nat
  password : Password
  policy : AuthPolicy
  deriving DecidableEq

/-- The read of `snapshot`, without a lock. -/
def passwordSnapshot (db : Db R) (user : String) : Option PasswordSnapshot :=
  match db.accounts.get user, db.passwords.get user with
  | some a, some p => some ⟨user, a.role, a.enabled, a.sessionVersion, p, db.policy⟩
  | _, _ => none

inductive LoginResult
  | session
  | challenge
  | enrollment
  deriving DecidableEq, Repr

def Db.addSession (db : Db R) (g : Grant) (user : String) (policyVersion userVersion : Nat)
    (mfaVerified : Bool) (now : Time) : Db R :=
  { db with
    sessions := db.sessions.put g.session
      ⟨user, g.csrf, policyVersion, userVersion, mfaVerified, now, now⟩ }

def Db.closeChallenges (db : Db R) (user : String) : Db R :=
  { db with challenges := db.challenges.mapVals fun c =>
      if c.user = user then { c with consumed := true } else c }

def Db.closeEnrollments (db : Db R) (user : String) : Db R :=
  { db with enrollments := db.enrollments.mapVals fun e =>
      if e.user = user then { e with consumed := true, secret := none } else e }

def Db.issueChallenge (db : Db R) (token : Token) (user : String)
    (credentialVersion policyVersion userVersion : Nat) (now : Time) : Db R :=
  let db := db.closeChallenges user
  { db with
    challenges := db.challenges.put token
      ⟨user, credentialVersion, policyVersion, userVersion, now, now + minutes 5, 0, false⟩ }

def Db.issueEnrollment (db : Db R) (token : Token) (user : String)
    (policyVersion userVersion : Nat) (now : Time) : Db R :=
  let db := db.closeEnrollments user
  { db with
    enrollments := db.enrollments.put token
      ⟨user, policyVersion, userVersion, now, now + minutes 5, 0, false, none⟩ }

/-- What `finishPassword` compares the snapshot with. -/
def Unchanged (db : Db R) (before : PasswordSnapshot) (a : Account) (p : Password) : Prop :=
  a.enabled = true ∧ a.role = before.role ∧ a.sessionVersion = before.userVersion ∧
    p = before.password ∧ db.policy = before.policy

instance (db : Db R) (before : PasswordSnapshot) (a : Account) (p : Password) :
    Decidable (Unchanged db before a p) := inferInstanceAs (Decidable (_ ∧ _ ∧ _ ∧ _ ∧ _))

/-- `finishPassword`. The session or the challenge gets the tokens of `g`. -/
def finishPassword (db : Db R) (before : PasswordSnapshot) (g : Grant) (now : Time) :
    Except AuthError LoginResult × Db R :=
  match db.accounts.get before.user, db.passwords.get before.user with
  | some a, some p =>
    if Unchanged db before a p then
      if db.policy.totpEnabled then
        match db.credentials.get before.user with
        | none =>
          (.ok .enrollment, db.issueEnrollment g.session before.user db.policy.version
            a.sessionVersion now)
        | some c =>
          (.ok .challenge, db.issueChallenge g.session before.user c.version db.policy.version
            a.sessionVersion now)
      else
        (.ok .session, db.addSession g before.user db.policy.version a.sessionVersion false now)
    else (.error .unauthenticated, db)
  | _, _ => (.error .unauthenticated, db)

/-! ## The challenge of a login -/

/-- The checks that `CompleteTOTP` and `loadRecovery` share. -/
def loadChallenge (db : Db R) (token : Token) (now : Time) :
    Option (Challenge × Account × Credential) :=
  match db.challenges.get token with
  | none => none
  | some ch =>
    match db.accounts.get ch.user, db.credentials.get ch.user with
    | some a, some c =>
      if db.policy.totpEnabled = true ∧ a.enabled = true ∧ ch.credentialVersion = c.version ∧
          ch.policyVersion = db.policy.version ∧ ch.userVersion = a.sessionVersion ∧
          ch.consumed = false ∧ ch.createdAt ≤ now ∧ now < ch.expiresAt then
        some (ch, a, c)
      else none
    | _, _ => none

def Challenge.failed (ch : Challenge) : Challenge :=
  { ch with attempts := ch.attempts + 1, consumed := decide (5 ≤ ch.attempts + 1) }

/-- The challenge that a `CompleteTOTP` call will check its code for. -/
def openForCode (db : Db R) (token : Token) (now : Time) :
    Option (Challenge × Account × Credential) :=
  (loadChallenge db token now).filter fun x => x.1.attempts < 5

def completeTOTP (hotp : String → Nat → String) (db : Db R) (token : Token) (code : String)
    (g : Grant) (now wrote : Time) : Except AuthError Accepted × Db R :=
  match openForCode db token now with
  | none => (.error .invalidOrReplayed, db)
  | some (ch, a, c) =>
    match verifyAndConsume hotp c code now with
    | none =>
      (.error .invalidOrReplayed, { db with challenges := db.challenges.put token ch.failed })
    | some (counter, c) =>
      -- the counter is written before the challenge, whose expiry is tested again
      if ch.createdAt ≤ wrote ∧ wrote < ch.expiresAt then
        let db := { db with
          credentials := db.credentials.put ch.user c
          challenges := db.challenges.put token { ch with consumed := true } }
        (.ok ⟨ch.user, c.version, counter⟩,
          db.addSession g ch.user db.policy.version a.sessionVersion true wrote)
      else (.error .unavailable, db)

/-! ## Recovery codes -/

structure RecoveryState where
  challenge : Token
  user : String
  version : Nat
  role : Role
  policy : Nat
  userVersion : Nat
  attempts : Nat
  deriving DecidableEq, Repr

structure RecoveryAttempt where
  state : RecoveryState
  records : List RecoveryCode
  number : Nat
  deriving DecidableEq, Repr

def loadRecovery (db : Db R) (token : Token) (now : Time) : Option (Challenge × RecoveryState) :=
  (loadChallenge db token now).map fun (ch, a, c) =>
    (ch, ⟨token, ch.user, c.version, a.role, db.policy.version, a.sessionVersion, ch.attempts⟩)

def recoveryRecords (db : Db R) (user : String) (version : Nat) : Option (List RecoveryCode) :=
  (List.range 10).mapM fun i => db.codes.get ⟨user, version, i + 1⟩

/-- `reserve`: the attempt is counted before the code is checked. -/
def reserveRecovery (db : Db R) (token : Token) (now wrote : Time) :
    Except AuthError RecoveryAttempt × Db R :=
  match loadRecovery db token now with
  | none => (.error .invalidOrReplayed, db)
  | some (ch, state) =>
    if 5 ≤ state.attempts then (.error .invalidOrReplayed, db)
    else
      match recoveryRecords db state.user state.version with
      | none => (.error .unavailable, db)
      | some records =>
        if wrote < ch.expiresAt then
          (.ok ⟨state, records, state.attempts + 1⟩,
            { db with
              challenges := db.challenges.put token { ch with attempts := ch.attempts + 1 } })
        else (.error .invalidOrReplayed, db)

def matchingSlots (verifies : String → String → Bool) (records : List RecoveryCode)
    (code : String) : List Nat :=
  (records.zipIdx 1).filterMap fun (r, slot) =>
    if verifies ("wr-recovery-v1:" ++ code) r.hash ∧ r.consumed = false then some slot else none

/-- `match`: the one matching slot. -/
def matchSlot (verifies : String → String → Bool) (a : RecoveryAttempt) (code : String) :
    Except AuthError Nat :=
  match matchingSlots verifies a.records code with
  | [] => .error .invalidOrReplayed
  | [slot] => .ok slot
  | _ => .error .unavailable

/-- The second transaction of a recovery, `finish` with `commitRecovery`. -/
def finishRecovery (db : Db R) (a : RecoveryAttempt) (slot : Nat) (g : Grant) (now wrote : Time) :
    Except AuthError Slot × Db R :=
  match a.records[slot - 1]? with
  | none => (.error .invalidOrReplayed, db)
  | some record =>
    if slot < 1 ∨ 10 < slot ∨ a.number < 1 ∨ 5 < a.number ∨ record.consumed = true then
      (.error .invalidOrReplayed, db)
    else
      match loadRecovery db a.state.challenge now with
      | none => (.error .invalidOrReplayed, db)
      | some (ch, state) =>
        if state.user ≠ a.state.user ∨ state.version ≠ a.state.version ∨
            state.role ≠ a.state.role ∨ state.policy ≠ a.state.policy ∨
            state.userVersion ≠ a.state.userVersion ∨ state.attempts < a.number then
          (.error .invalidOrReplayed, db)
        else
          let key : Slot := ⟨state.user, state.version, slot⟩
          match db.codes.get key with
          | none => (.error .invalidOrReplayed, db)
          | some stored =>
            if stored.consumed = true ∨ stored.hash ≠ record.hash then
              (.error .invalidOrReplayed, db)
            else if ch.attempts ≤ 5 ∧ ch.createdAt ≤ wrote ∧ wrote < ch.expiresAt then
              let db := { db with
                codes := db.codes.put key { stored with consumed := true }
                challenges := db.challenges.put a.state.challenge { ch with consumed := true } }
              (.ok key, db.addSession g state.user state.policy state.userVersion true wrote)
            else (.error .unavailable, db)

/-! ## Enrollment -/

structure EnrollmentAttempt where
  token : Token
  user : String
  version : Nat
  policy : Nat
  number : Nat
  deriving DecidableEq, Repr

/-- While the policy is off, an enrollment is open to the live session of an
administrator that began it. -/
def PolicyEnrollmentPermitted (db : Db R) (token : Token) (now : Time) : Prop :=
  ∃ e ∈ db.enrollments.get token, ∃ t ∈ db.markers.get token, ∃ s ∈ db.sessions.get t,
    ∃ a ∈ db.accounts.get s.user, e.user = s.user ∧ a.role = .admin ∧ a.enabled = true ∧
      s.policyVersion = db.policy.version ∧ s.userVersion = a.sessionVersion ∧
      s.createdAt ≤ now ∧ s.createdAt ≤ s.lastSeenAt ∧ s.lastSeenAt ≤ now ∧
      now - sessionAbsoluteTTL < s.createdAt ∧ now - sessionIdleTTL < s.lastSeenAt

instance (db : Db R) (token : Token) (now : Time) :
    Decidable (PolicyEnrollmentPermitted db token now) :=
  inferInstanceAs (Decidable (∃ e ∈ db.enrollments.get token, ∃ t ∈ db.markers.get token,
    ∃ s ∈ db.sessions.get t, ∃ a ∈ db.accounts.get s.user, _))

/-- `loadEnrollment`: a live enrollment of an account that has no credential. The
version of the new credential is the account's session version. -/
def loadEnrollment (db : Db R) (token : Token) (policyEnrollment : Bool) (now : Time) :
    Option (Enrollment × Account) :=
  if db.policy.totpEnabled = false ∧
      (policyEnrollment = false ∨ ¬ PolicyEnrollmentPermitted db token now) then none
  else
    match db.enrollments.get token with
    | none => none
    | some e =>
      match db.accounts.get e.user with
      | none => none
      | some a =>
        if a.enabled = true ∧ db.credentials.get e.user = none ∧
            e.userVersion = a.sessionVersion ∧ e.policyVersion = db.policy.version ∧
            e.consumed = false ∧ e.createdAt ≤ now ∧ now < e.expiresAt then
          some (e, a)
        else none

/-- `Begin`: a pending secret is made once and then shown again. -/
def beginEnrollment (db : Db R) (token : Token) (policyEnrollment : Bool) (secret : String)
    (now wrote : Time) : Except AuthError String × Db R :=
  match loadEnrollment db token policyEnrollment now with
  | none => (.error .invalidOrReplayed, db)
  | some (e, _) =>
    if 5 ≤ e.attempts then (.error .invalidOrReplayed, db)
    else
      match e.secret with
      | some secret => (.ok secret, db)
      | none =>
        if wrote < e.expiresAt then
          (.ok secret,
            { db with
              enrollments := db.enrollments.put token { e with secret := some secret } })
        else (.error .invalidOrReplayed, db)

def reserveEnrollment (db : Db R) (token : Token) (policyEnrollment : Bool) (now wrote : Time) :
    Except AuthError EnrollmentAttempt × Db R :=
  match loadEnrollment db token policyEnrollment now with
  | none => (.error .invalidOrReplayed, db)
  | some (e, a) =>
    if e.secret = none ∨ 5 ≤ e.attempts then (.error .invalidOrReplayed, db)
    else if wrote < e.expiresAt then
      (.ok ⟨token, e.user, a.sessionVersion, db.policy.version, e.attempts + 1⟩,
        { db with
          enrollments := db.enrollments.put token { e with attempts := e.attempts + 1 } })
    else (.error .invalidOrReplayed, db)

def Db.addCodes (db : Db R) (user : String) (version : Nat) (hashes : Vector String 10) : Db R :=
  { db with
    codes := (hashes.toList.zipIdx 1).foldl
      (fun codes (hash, slot) => codes.put ⟨user, version, slot⟩ ⟨hash, false⟩) db.codes }

/-- `enrollmentConsumer`: the credential with its first counter, its codes, and a
session that replaces everything the user had before. -/
def enroll (db : Db R) (a : EnrollmentAttempt) (secret : String) (counter : Nat)
    (hashes : Vector String 10) (g : Grant) (wrote : Time) : Db R :=
  let db := { db with credentials := db.credentials.put a.user ⟨a.version, secret, counter⟩ }
  let db := db.addCodes a.user a.version hashes
  let db := db.dropSessions fun _ s => s.user = a.user
  let db := (db.closeChallenges a.user).closeEnrollments a.user
  db.addSession g a.user a.policy a.version true wrote

def finishEnrollment (hotp : String → Nat → String) (db : Db R) (a : EnrollmentAttempt)
    (policyEnrollment : Bool) (code : String) (hashes : Vector String 10) (g : Grant)
    (now wrote : Time) : Except AuthError Accepted × Db R :=
  match loadEnrollment db a.token policyEnrollment now with
  | none => (.error .invalidOrReplayed, db)
  | some (e, account) =>
    if e.user ≠ a.user ∨ account.sessionVersion ≠ a.version ∨ db.policy.version ≠ a.policy ∨
        a.number < 1 ∨ e.attempts < a.number then
      (.error .invalidOrReplayed, db)
    else
      match e.secret with
      | none => (.error .invalidOrReplayed, db)
      | some secret =>
        match matchCounter hotp secret code now with
        | none => (.error .invalidOrReplayed, db)
        | some counter =>
          if maxInt64 < counter then (.error .invalidOrReplayed, db)
          else if e.attempts ≤ 5 ∧ e.createdAt ≤ wrote ∧ wrote < e.expiresAt then
            (.ok ⟨a.user, a.version, counter⟩, enroll db a secret counter hashes g wrote)
          else (.error .unavailable, db)

end WaitingRoom.Admin
