import WaitingRoom.Shared.Table
import WaitingRoom.Shared.Run
import WaitingRoom.Shared.Document

/-!
# Accounts, sessions and the tables behind them

The authentication tables of Control and what every request reads of them. A
table that the source keys by the hash of a token is keyed by the token here, and
a sealed or hashed column holds what was sealed; hashing is taken to be free of
collisions. Times are readings of the database clock in microseconds.
-/

namespace WaitingRoom.Admin

set_option autoImplicit false

abbrev Time := ℤ

abbrev Token := String

inductive Role
  | admin
  | operator
  | viewer
  deriving DecidableEq, Repr

inductive Action
  | readDashboard
  | readConfig
  | writeConfig
  | readRuntime
  | operateRuntime
  | instantOff
  | newEpoch
  | readEvents
  | writeEvents
  | readLab
  | runLab
  | readUsers
  | writeUsers
  | readSecurity
  | writeTOTPPolicy
  | resetUserTOTP
  | rotateKeys
  | readAudit
  | readInstall
  deriving DecidableEq, Repr

def Action.text : Action → String
  | .readDashboard => "dashboard.read"
  | .readConfig => "config.read"
  | .writeConfig => "config.write"
  | .readRuntime => "runtime.read"
  | .operateRuntime => "runtime.operate"
  | .instantOff => "runtime.instant_off"
  | .newEpoch => "runtime.new_epoch"
  | .readEvents => "events.read"
  | .writeEvents => "events.write"
  | .readLab => "lab.read"
  | .runLab => "lab.run"
  | .readUsers => "users.read"
  | .writeUsers => "users.write"
  | .readSecurity => "security.read"
  | .writeTOTPPolicy => "security.totp.write"
  | .resetUserTOTP => "security.totp.reset"
  | .rotateKeys => "security.keys.rotate"
  | .readAudit => "audit.read"
  | .readInstall => "install.read"

def Action.allowed : Action → Role → Bool
  | .writeConfig, r | .instantOff, r | .newEpoch, r | .readUsers, r | .writeUsers, r
  | .readSecurity, r | .writeTOTPPolicy, r | .resetUserTOTP, r | .rotateKeys, r => r = .admin
  | .operateRuntime, r | .writeEvents, r | .runLab, r => r = .admin || r = .operator
  | _, _ => true

def Action.reauthenticates : Action → Bool
  | .instantOff | .newEpoch | .writeUsers | .writeTOTPPolicy | .resetUserTOTP | .rotateKeys => true
  | _ => false

/-- `Requirement`: whether the action needs a reauthentication, if the role may take it. -/
def requirement (r : Role) (a : Action) : Option Bool :=
  if a.allowed r then some a.reauthenticates else none

inductive PolicyMode
  | configurable
  | forcedOn
  deriving DecidableEq, Repr

/-- The row of `auth_policy` with the table's own checks, which are what `Validate` tests. -/
structure AuthPolicy where
  mode : PolicyMode
  totpEnabled : Bool
  version : Nat
  forced : mode = .forcedOn → totpEnabled = true
  positive : 0 < version
  deriving DecidableEq

structure Account where
  role : Role
  enabled : Bool
  sessionVersion : Nat
  deleted : Bool
  deriving DecidableEq, Repr

structure Password where
  version : Nat
  hash : String
  deriving DecidableEq, Repr

/-- A row of `auth_totp_credentials`; `lastCounter` is -1 before the first code. -/
structure Credential where
  version : Nat
  secret : String
  lastCounter : ℤ
  deriving DecidableEq, Repr

/-- A row of `auth_totp_challenges`. -/
structure Challenge where
  user : String
  credentialVersion : Nat
  policyVersion : Nat
  userVersion : Nat
  createdAt : Time
  expiresAt : Time
  attempts : Nat
  consumed : Bool
  deriving DecidableEq, Repr

/-- A row of `auth_enrollment_challenges`. -/
structure Enrollment where
  user : String
  policyVersion : Nat
  userVersion : Nat
  createdAt : Time
  expiresAt : Time
  attempts : Nat
  consumed : Bool
  secret : Option String
  deriving DecidableEq, Repr

/-- The primary key of `auth_recovery_codes`. -/
structure Slot where
  user : String
  version : Nat
  slot : Nat
  deriving DecidableEq, Repr

structure RecoveryCode where
  hash : String
  consumed : Bool
  deriving DecidableEq, Repr

structure Session where
  user : String
  csrf : Token
  policyVersion : Nat
  userVersion : Nat
  mfaVerified : Bool
  createdAt : Time
  lastSeenAt : Time
  deriving DecidableEq, Repr

abbrev Text := List Char

/-- A row of `auth_reauth_proofs`. -/
structure Proof where
  session : Token
  action : Action
  target : Text
  digest : Text
  createdAt : Time
  expiresAt : Time
  consumed : Bool
  deriving DecidableEq, Repr

structure Reply where
  status : Nat
  body : Text
  etag : Text
  deriving DecidableEq, Repr

/-- A row of `control_commands`. A body that was sealed for one session names it. -/
structure CommandRow where
  requestHash : Text
  createdAt : Time
  expiresAt : Time
  reply : Reply
  sealedFor : Option Token
  deriving DecidableEq, Repr

/-- The authentication tables; `rest` is everything that only the bodies of other
commands read and write. -/
structure Db (R : Type) where
  policy : AuthPolicy
  bootstrapped : Bool
  accounts : Table String Account
  passwords : Table String Password
  credentials : Table String Credential
  codes : Table Slot RecoveryCode
  challenges : Table Token Challenge
  enrollments : Table Token Enrollment
  markers : Table Token Token
  sessions : Table Token Session
  proofs : Table Token Proof
  commands : Table (String × Text) CommandRow
  rest : R

def sessionIdleTTL : Time := 30 * 60 * 1000000

def sessionAbsoluteTTL : Time := 8 * 3600 * 1000000

inductive AuthError
  | unauthenticated
  | forbidden
  | unavailable
  | invalidOrReplayed
  deriving DecidableEq, Repr

structure SessionSnapshot where
  id : String
  account : Account
  totpEnrolled : Bool
  session : Session
  policy : AuthPolicy
  now : Time
  deriving DecidableEq

def CheckSession (s : SessionSnapshot) (now : Time) : Prop :=
  s.account.enabled = true ∧ s.account.sessionVersion ≠ 0 ∧ s.session.user = s.id ∧
    s.session.policyVersion = s.policy.version ∧
    s.session.userVersion = s.account.sessionVersion ∧
    s.session.createdAt ≤ s.session.lastSeenAt ∧ s.session.lastSeenAt ≤ now ∧
    now < s.session.createdAt + sessionAbsoluteTTL ∧
    now < s.session.lastSeenAt + sessionIdleTTL ∧
    (s.policy.totpEnabled = true → s.totpEnrolled = true ∧ s.session.mfaVerified = true)
  deriving Decidable

variable {R : Type}

def loadSession (db : Db R) (token : Token) (now : Time) : Except AuthError SessionSnapshot :=
  match db.sessions.get token with
  | none => .error .unauthenticated
  | some session =>
    match db.accounts.get session.user with
    | none => .error .unauthenticated
    | some account =>
      let s : SessionSnapshot := ⟨session.user, account, (db.credentials.get session.user).isSome,
        session, db.policy, now⟩
      if CheckSession s now then .ok s else .error .unauthenticated

def Db.dropSessions (db : Db R) (drops : Token → Session → Bool) : Db R :=
  let gone (token : Token) : Bool := (db.sessions.get token).any (drops token)
  { db with
    sessions := db.sessions.filter fun token s => !drops token s
    proofs := db.proofs.keep fun p => !gone p.session
    markers := db.markers.keep fun token => !gone token }

def Db.dropEnrollments (db : Db R) (drops : Enrollment → Bool) : Db R :=
  let gone (token : Token) : Bool := (db.enrollments.get token).any drops
  { db with
    enrollments := db.enrollments.keep fun e => !drops e
    markers := db.markers.filter fun token _ => !gone token }

end WaitingRoom.Admin
