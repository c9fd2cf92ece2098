import WaitingRoom.Admin.Login
import WaitingRoom.Control.Config

/-!
# Operator commands and reauthentication

Every operator mutation runs behind the row of the configuration, after a look at
the reply that is kept for its key. Dangerous actions also use up a proof of a
reauthentication that names the session and the exact request.
-/

namespace WaitingRoom.Admin

set_option autoImplicit false

variable {R : Type}

/-- A header value or a matched part of a route. Neither can hold the two characters
that the digests use as separators. -/
structure Plain where
  text : Text
  plain : ∀ c ∈ text, c ≠ '\x00' ∧ c ≠ '\n'
  deriving DecidableEq

inductive Method
  | post
  | put
  | patch
  | delete
  | other
  deriving DecidableEq, Repr

def Method.text : Method → Text
  | .post => "POST".toList
  | .put => "PUT".toList
  | .patch => "PATCH".toList
  | .delete => "DELETE".toList
  | .other => []

/-- What the commands read of a request; a header is the list of its values. -/
structure Request where
  method : Method
  origin : Bool
  csrf : List Token
  keys : List Text
  ifMatch : List Plain
  reauth : List Token
  raw : Text
  deriving DecidableEq

/-- `Header.Get("If-Match")`. -/
def Request.revision (r : Request) : Text := (r.ifMatch.head?.map Plain.text).getD []

def Request.key (r : Request) : Text := r.keys.headD []

def maxControlCommands : Nat := 10000

def safeCommandKey (key : Text) : Bool :=
  16 ≤ key.length && key.length ≤ 128 && key.all fun c => 33 ≤ c.toNat && c.toNat ≤ 126

def CheckMutation (r : Request) (csrf : Token) : Prop :=
  r.method ≠ .other ∧ r.origin = true ∧ r.csrf = [csrf]
  deriving Decidable

def beginCommand (db : Db R) (token : Token) (action : Action) (r : Option Request)
    (sensitive : Bool) (now : Time) : Except AuthError SessionSnapshot :=
  match loadSession db token now with
  | .error e => .error e
  | .ok s =>
    match requirement s.account.role action with
    | none => .error .forbidden
    | some reauth =>
      if reauth = true ∧ sensitive = false then .error .forbidden
      else if ∀ q ∈ r, CheckMutation q s.session.csrf then .ok s
      else .error .forbidden

/-! ## Proofs of a reauthentication -/

/-- What `ActionRequestDigest` hashes. -/
def actionRequestDigest (method : Method) (target revision raw : Text) : Text :=
  "wr-action/v1\n".toList ++ method.text ++ '\n' :: (target ++ '\n' :: (revision ++ '\n' :: raw))

structure ReauthInput where
  password : String
  totp : String
  action : Action
  target : Plain
  digest : Text
  deriving DecidableEq

/-- The first transaction of `Reauthenticate`. -/
def beginReauth (db : Db R) (token : Token) (r : Request) (i : ReauthInput) (now : Time) :
    Except AuthError String :=
  match beginCommand db token .readDashboard (some r) false now with
  | .error e => .error e
  | .ok s =>
    if requirement s.account.role i.action = some true ∧ i.action ≠ .rotateKeys then .ok s.id
    else .error .forbidden

def reauthFactor (hotp : String → Nat → String) (db : Db R) (s : SessionSnapshot)
    (i : ReauthInput) : Except AuthError (Option Accepted × Db R) :=
  if s.policy.totpEnabled = true ∨
      (i.action = .writeTOTPPolicy ∧ i.target.text = "totp".toList) then
    match db.credentials.get s.id with
    | none => .error .unauthenticated
    | some c =>
      match verifyAndConsume hotp c i.totp s.now with
      | none => .error .invalidOrReplayed
      | some (counter, c) =>
        .ok (some ⟨s.id, c.version, counter⟩,
          { db with credentials := db.credentials.put s.id c })
  else .ok (none, db)

def pruneProofs (db : Db R) (picked : List Token) (now : Time) : Db R :=
  { db with proofs := db.proofs.filter fun t p => !(decide (t ∈ picked) && decide (p.expiresAt ≤ now)) }

/-- The last transaction of `Reauthenticate`. -/
def finishReauth (hotp : String → Nat → String) (db : Db R) (token : Token) (r : Request)
    (i : ReauthInput) (before : PasswordSnapshot) (proof : Token) (picked : List Token)
    (now wrote : Time) : Except AuthError (Option Accepted) × Db R :=
  match loadSession db token now with
  | .error e => (.error e, db)
  | .ok s =>
    if ¬ CheckMutation r s.session.csrf then (.error .forbidden, db)
    else if requirement s.account.role i.action ≠ some true ∨ s.id ≠ before.user ∨
        s.account.sessionVersion ≠ before.userVersion ∨
        s.policy.version ≠ before.policy.version then (.error .forbidden, db)
    else if db.passwords.get s.id ≠ some before.password then (.error .unauthenticated, db)
    else
      match reauthFactor hotp db s i with
      | .error e => (.error e, db)
      | .ok (used, next) =>
        let next := pruneProofs next picked wrote
        if 1000 ≤ next.proofs.size then (.error .unavailable, db)
        else
          (.ok used,
            { next with
              proofs := next.proofs.put proof
                ⟨token, i.action, i.target.text, i.digest, s.now, s.now + minutes 5, false⟩ })

/-- `consumeReauth`. -/
def consumeReauth (db : Db R) (token : Token) (r : Request) (action : Action) (target : Plain)
    (now : Time) : Except AuthError (Db R) :=
  match r.reauth with
  | [t] =>
    match db.proofs.get t with
    | none => .error .forbidden
    | some p =>
      if p.session = token ∧ p.action = action ∧ p.target = target.text ∧
          p.digest = actionRequestDigest r.method target.text r.revision r.raw ∧
          p.consumed = false ∧ p.createdAt ≤ now ∧ now < p.expiresAt then
        .ok { db with proofs := db.proofs.put t { p with consumed := true } }
      else .error .forbidden
  | _ => .error .forbidden

/-! ## Durable execution -/

inductive Answer
  | refused (e : AuthError)
  | problem (status : Nat) (code : String)
  | replayed (r : Reply)
  | executed (r : Reply)
  deriving DecidableEq, Repr

/-- The readings and choices of one run of a command: the clock when the session was
loaded, after the configuration was locked and when the proof was used. -/
structure Readings where
  loaded : Time
  now : Time
  spent : Time
  picked : List (String × Text)
  requestId : Token
  deriving DecidableEq

structure Plan (R : Type) where
  action : Action
  fingerprint : Text
  sealedFor : Option Token
  spend : Db R → Except AuthError (Db R)
  body : Db R → SessionSnapshot → Except Answer (Reply × Db R)

def Db.touch (db : Db R) (token : Token) (now : Time) : Db R :=
  { db with
    sessions :=
      match db.sessions.get token with
      | none => db.sessions
      | some s => db.sessions.put token { s with lastSeenAt := now } }

def replyTTL : Time := 24 * 3600 * 1000000

def pruneCommands (db : Db R) (key : String × Text) (picked : List (String × Text)) (now : Time) :
    Db R :=
  { db with
    commands := (db.commands.del key).filter fun k row =>
      !(decide (k ∈ picked) && decide (row.expiresAt ≤ now)) }

def execute (db : Db R) (token : Token) (r : Request) (t : Readings) (plan : Plan R)
    (s : SessionSnapshot) : Answer × Db R :=
  let key := (s.id, r.key)
  let next := pruneCommands db key t.picked t.now
  if maxControlCommands ≤ next.commands.size then (.problem 503 "COMMAND_CAPACITY_EXCEEDED", db)
  else
    match plan.spend next with
    | .error e => (.refused e, db)
    | .ok next =>
      match plan.body next s with
      | .error a => (a, db)
      | .ok (reply, next) =>
        let next := { next with
          commands := next.commands.put key
            ⟨plan.fingerprint, t.now, t.now + replyTTL, reply, plan.sealedFor⟩ }
        (.executed reply, next.touch token t.now)

def CommandRow.replay (row : CommandRow) (token : Token) : Answer :=
  if row.reply.status = 200 ∧ row.sealedFor.any (· ≠ token) then .refused .unavailable
  else .replayed row.reply

/-- The part that `command` and `ReplaceDraft` have in common. -/
def serialize (db : Db R) (token : Token) (r : Request) (t : Readings) (plan : Plan R) :
    Answer × Db R :=
  match beginCommand db token plan.action (some r) plan.action.reauthenticates t.loaded with
  | .error e => (.refused e, db)
  | .ok s =>
    if ¬ CheckSession s t.now then (.refused .unauthenticated, db)
    else
      let s := { s with now := t.now }
      match db.commands.get (s.id, r.key) with
      | none => execute db token r t plan s
      | some row =>
        if t.now < row.createdAt then (.refused .unavailable, db)
        else if t.now < row.expiresAt then
          if row.requestHash ≠ plan.fingerprint then (.problem 409 "IDEMPOTENCY_CONFLICT", db)
          else (row.replay token, db)
        else execute db token r t plan s

def InvalidKey (r : Request) : Prop :=
  Control.maxConfigBytes < r.raw.length ∨ r.keys.length ≠ 1 ∨ safeCommandKey r.key = false
  deriving Decidable

def fingerprint (method : Method) (action : Action) (target revision raw : Text) : Text :=
  "control.command.v1\x00".toList ++ method.text ++ '\x00' ::
    (action.text.toList ++ '\x00' :: (target ++ '\x00' :: (revision ++ '\x00' :: raw)))

/-- The fingerprint of `ReplaceDraft`. -/
def draftFingerprint (revision raw : Text) : Text :=
  "control.replace-draft.v1\x00".toList ++ revision ++ '\x00' :: raw

def keepable (body : Db R → SessionSnapshot → Except AuthError (Reply × Db R)) (db : Db R)
    (s : SessionSnapshot) : Except Answer (Reply × Db R) :=
  match body db s with
  | .error e => .error (.refused e)
  | .ok (reply, next) =>
    if reply.status < 200 ∨ reply.body = [] ∨ Control.maxConfigBytes < reply.body.length then
      .error (.refused .unavailable)
    else .ok (reply, next)

def commandPlan (token : Token) (r : Request) (t : Readings) (action : Action) (target : Plain)
    (sealedFor : Option Token) (body : Db R → SessionSnapshot → Except AuthError (Reply × Db R)) :
    Plan R where
  action := action
  fingerprint := fingerprint r.method action target.text r.revision r.raw
  sealedFor := sealedFor
  spend db :=
    if action.reauthenticates then consumeReauth db token r action target t.spent else .ok db
  body := keepable body

def command (db : Db R) (token : Token) (r : Request) (t : Readings) (action : Action)
    (target : Plain) (etag : Bool) (sealedFor : Option Token)
    (body : Db R → SessionSnapshot → Except AuthError (Reply × Db R)) : Answer × Db R :=
  if InvalidKey r then (.problem 400 "INVALID_REQUEST", db)
  else if etag = true ∧ r.ifMatch = [] then (.problem 428 "PRECONDITION_REQUIRED", db)
  else if 1 < r.ifMatch.length ∨ 64 < r.revision.length then (.problem 400 "INVALID_REQUEST", db)
  else serialize db token r t (commandPlan token r t action target sealedFor body)

/-- The plan of `ReplaceDraft`. What it decides about the draft is `draft`, where nothing
stands for the one answer that is given without a commit. -/
def draftPlan (draft : Request → SessionSnapshot → Token → R → Option (Reply × R)) (r : Request)
    (t : Readings) : Plan R where
  action := .writeConfig
  fingerprint := draftFingerprint r.revision r.raw
  sealedFor := none
  spend := .ok
  body db s :=
    match draft r s t.requestId db.rest with
    | none => .error (.problem 422 "INVALID_CONFIG")
    | some (reply, rest) => .ok (reply, { db with rest := rest })

def replaceDraft (draft : Request → SessionSnapshot → Token → R → Option (Reply × R)) (db : Db R)
    (token : Token) (r : Request) (t : Readings) : Answer × Db R :=
  if r.method ≠ .put ∨ InvalidKey r then (.problem 400 "INVALID_REQUEST", db)
  else if r.ifMatch = [] then (.problem 428 "PRECONDITION_REQUIRED", db)
  else if r.ifMatch.length ≠ 1 ∨ 64 < r.revision.length then (.problem 400 "INVALID_REQUEST", db)
  else serialize db token r t (draftPlan draft r t)

end WaitingRoom.Admin
