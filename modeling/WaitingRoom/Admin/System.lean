import WaitingRoom.Admin.Command

/-!
# The administration service

The bodies of the commands that change authority, and the service as a machine.
One input is one transaction or one read without locks. A flow is what a request
carries from one of its transactions to the next.
-/

namespace WaitingRoom.Admin

set_option autoImplicit false

variable {R : Type}

structure UserView where
  id : String
  role : Role
  enabled : Bool
  totpEnrolled : Bool
  revision : Nat
  deriving DecidableEq, Repr

structure CreateUserInput where
  id : Plain
  role : Role
  password : String
  deriving DecidableEq

inductive RuntimeCommand
  | instantOff
  | newEpoch
  | ordinary
  deriving DecidableEq, Repr

/-- The commands of an operator. A command that draws tokens or hashes a password
comes with them. -/
inductive Operation
  | replaceDraft
  | publish
  | operate (room : Plain)
  | changeEvent (room event : Plain)
  | startLab
  | cancelLab (run : Plain)
  | createUser (hash : String) (checked : Bool)
  | changeUser (id : Plain) (reset : Bool)
  | beginPolicyEnrollment (challenge : Token)
  | changePolicy (g : Grant)
  deriving DecidableEq

/-- What the service takes from elsewhere: the code function, password hashing, the
decoders and encoders of bodies, and the commands that change no authority. -/
structure Platform (R : Type) where
  hotp : String → Nat → String
  verifies : String → String → Bool
  decodeCreate : Text → Option CreateUserInput
  decodeUpdate : Text → Option (Role × Bool)
  decodePolicy : Text → Option Bool
  decodeRuntime : Text → Option RuntimeCommand
  decodeEmpty : Text → Bool
  problemBody : Nat → String → Token → Text
  userBody : UserView → Text
  policyBody : AuthPolicy → Bool → Text
  enrollmentBody : Token → Time → Text
  draft : Request → SessionSnapshot → Token → R → Option (Reply × R)
  body : Operation → Request → SessionSnapshot → Token → R → Except AuthError (Reply × R)

variable (P : Platform R)

def Platform.problem (status : Nat) (code : String) (requestId : Token) : Reply :=
  ⟨status, P.problemBody status code requestId, []⟩

def userETag (version : Nat) : Text := ("\"user-" ++ toString version ++ "\"").toList

def policyETag (version : Nat) : Text := ("\"policy-" ++ toString version ++ "\"").toList

def Plain.id (p : Plain) : String := String.ofList p.text

/-! ## Bodies -/

abbrev Body (R : Type) := Db R → SessionSnapshot → Except AuthError (Reply × Db R)

def createUser (i : CreateUserInput) (hash : String) (requestId : Token) : Body R := fun db _ =>
  if db.bootstrapped = false then .error .forbidden
  else if (db.accounts.get i.id.id).isSome then
    .ok (P.problem 409 "USER_ID_RESERVED" requestId, db)
  else if 1000 ≤ db.accounts.size then
    .ok (P.problem 409 "USER_CAPACITY_EXCEEDED" requestId, db)
  else
    .ok (⟨201, P.userBody ⟨i.id.id, i.role, true, false, 1⟩, userETag 1⟩,
      { db with
        accounts := db.accounts.put i.id.id ⟨i.role, true, 1, false⟩
        passwords := db.passwords.put i.id.id ⟨1, hash⟩ })

inductive UserChange
  | update (role : Role) (enabled : Bool)
  | reset
  | delete
  deriving DecidableEq, Repr

/-- What a request to `ChangeUser` asks for. -/
def userChange (r : Request) (reset : Bool) : Option UserChange :=
  if reset then if r.method = .post ∧ P.decodeEmpty r.raw = true then some .reset else none
  else
    match r.method with
    | .delete => if r.raw = [] then some .delete else none
    | .patch => (P.decodeUpdate r.raw).map fun (role, enabled) => .update role enabled
    | _ => none

def UserChange.action : UserChange → Action
  | .reset => .resetUserTOTP
  | _ => .writeUsers

def UserChange.account (c : UserChange) (a : Account) : Account :=
  match c with
  | .update role enabled => ⟨role, enabled, a.sessionVersion + 1, false⟩
  | .reset => { a with sessionVersion := a.sessionVersion + 1, deleted := false }
  | .delete => { a with enabled := false, sessionVersion := a.sessionVersion + 1, deleted := true }

def UserChange.needsAnother (c : UserChange) (policy : AuthPolicy) : Bool :=
  match c with
  | .update role enabled => !enabled || role ≠ .admin
  | .reset => policy.totpEnabled
  | .delete => true

def UserChange.removesTOTP : UserChange → Bool
  | .update _ _ => false
  | _ => true

def revokeUser (db : Db R) (id : String) : Db R :=
  let db := db.dropSessions fun _ s => s.user = id
  let db := { db with challenges := db.challenges.keep fun c => c.user ≠ id }
  db.dropEnrollments fun e => e.user = id

def removeTOTP (db : Db R) (id : String) : Db R :=
  { db with
    codes := db.codes.filter fun k _ => k.user ≠ id
    credentials := db.credentials.del id }

/-- The writes of `ChangeUser`. -/
def applyChange (db : Db R) (id : String) (c : UserChange) (a : Account) : Db R :=
  let db := revokeUser db id
  let db := if c.removesTOTP then removeTOTP db id else db
  let db := if c = .delete then { db with passwords := db.passwords.del id } else db
  { db with accounts := db.accounts.put id (c.account a) }

def otherAdmins (db : Db R) (id : String) : Nat :=
  (db.accounts.del id).count fun a => a.role = .admin && a.enabled && !a.deleted

def changeUser (id : String) (c : UserChange) (r : Request) (requestId : Token) : Body R :=
  fun db s =>
  match db.accounts.get id with
  | none => .ok (P.problem 404 "NOT_FOUND" requestId, db)
  | some a =>
    if a.deleted then .ok (P.problem 404 "NOT_FOUND" requestId, db)
    else if r.revision ≠ userETag a.sessionVersion then
      .ok (P.problem 412 "REVISION_MISMATCH" requestId, db)
    else if a.role = .admin ∧ a.enabled = true ∧ c.needsAnother s.policy = true ∧
        otherAdmins db id = 0 then
      .ok (P.problem 409 "LAST_ADMIN_REQUIRED" requestId, db)
    else if 9007199254740990 ≤ a.sessionVersion then .error .unavailable
    else
      let b := c.account a
      let enrolled := !c.removesTOTP && (db.credentials.get id).isSome
      .ok (⟨200, P.userBody ⟨id, b.role, b.enabled, enrolled, b.sessionVersion⟩,
        userETag b.sessionVersion⟩, applyChange db id c a)

def beginPolicyEnrollment (token challenge : Token) (r : Request) (requestId : Token) : Body R :=
  fun db s =>
  if r.revision ≠ policyETag s.policy.version then
    .ok (P.problem 412 "REVISION_MISMATCH" requestId, db)
  else if s.policy.totpEnabled = true ∨ s.totpEnrolled = true then
    .ok (P.problem 409 "TOTP_ALREADY_ENROLLED_OR_ENABLED" requestId, db)
  else
    let db := db.dropEnrollments fun e => e.user = s.id
    .ok (⟨200, P.enrollmentBody challenge (s.now + minutes 5), policyETag s.policy.version⟩,
      { db with
        enrollments := db.enrollments.put challenge
          ⟨s.id, s.policy.version, s.account.sessionVersion, s.now, s.now + minutes 5, 0, false, none⟩
        markers := db.markers.put challenge token })

def AuthPolicy.flip (p : AuthPolicy) (enabled : Bool)
    (h : ¬ (p.mode = .forcedOn ∧ enabled = false)) : AuthPolicy where
  mode := p.mode
  totpEnabled := enabled
  version := p.version + 1
  forced hm := by
    rcases enabled with _ | _
    · exact absurd ⟨hm, rfl⟩ h
    · rfl
  positive := Nat.succ_pos _

/-- The writes of `ChangePolicy`: everything is revoked and one session is made. -/
def applyPolicy (db : Db R) (p : AuthPolicy) (s : SessionSnapshot) (g : Grant) (now : Time) : Db R :=
  let db := { db with policy := p }
  let db := db.dropSessions fun _ _ => true
  let db := { db with challenges := ∅ }
  let db := db.dropEnrollments fun _ => true
  db.addSession g s.id p.version s.account.sessionVersion true now

def changePolicy (enabled : Bool) (g : Grant) (r : Request) (requestId : Token) (wrote : Time) :
    Body R := fun db s =>
  if r.revision ≠ policyETag s.policy.version then
    .ok (P.problem 412 "REVISION_MISMATCH" requestId, db)
  else if h : s.policy.mode = .forcedOn ∧ enabled = false then
    .ok (P.problem 403 "TOTP_POLICY_LOCKED" requestId, db)
  else if enabled = s.policy.totpEnabled then
    .ok (⟨200, P.policyBody s.policy s.totpEnrolled, policyETag s.policy.version⟩, db)
  else if s.totpEnrolled = false then
    .ok (P.problem 409 "TOTP_ENROLLMENT_REQUIRED" requestId, db)
  else if 9007199254740990 ≤ s.policy.version then .error .unavailable
  else
    let p := s.policy.flip enabled h
    .ok (⟨200, P.policyBody p s.totpEnrolled, policyETag p.version⟩, applyPolicy db p s g wrote)

def otherBody (o : Operation) (r : Request) (requestId : Token) : Body R := fun db s =>
  (P.body o r s requestId db.rest).map fun (reply, rest) => (reply, { db with rest := rest })

/-! ## The calls of `command` -/

def Plain.append (a b : Plain) : Plain where
  text := a.text ++ b.text
  plain c hc := (List.mem_append.mp hc).elim (a.plain c) (b.plain c)

def publishTarget : Plain := ⟨"config.publish".toList, by decide⟩

def labTarget : Plain := ⟨"traffic-lab".toList, by decide⟩

def totpTarget : Plain := ⟨"totp".toList, by decide⟩

def enrollmentTarget : Plain := ⟨"totp-enrollment".toList, by decide⟩

def eventTarget (room event : Plain) : Plain :=
  if event.text = [] then room.append ⟨"/events".toList, by decide⟩
  else Plain.append ⟨"events/".toList, by decide⟩ event

def cancelTarget (run : Plain) : Plain :=
  (Plain.append ⟨"traffic-lab:".toList, by decide⟩ run).append ⟨":cancel".toList, by decide⟩

def RuntimeCommand.action : RuntimeCommand → Action
  | .instantOff => .instantOff
  | .newEpoch => .newEpoch
  | .ordinary => .operateRuntime

/-- The arguments that an operation calls `command` with. -/
structure Invocation (R : Type) where
  action : Action
  target : Plain
  etag : Bool
  sealedFor : Option Token
  body : Body R

def invocation (token : Token) (r : Request) (t : Readings) :
    Operation → Option (Invocation R)
  | .replaceDraft => none
  | .publish => some ⟨.writeConfig, publishTarget, true, none, otherBody P .publish r t.requestId⟩
  | .operate room =>
    if r.method ≠ .patch then none
    else (P.decodeRuntime r.raw).map fun c =>
      ⟨c.action, room, true, none, otherBody P (.operate room) r t.requestId⟩
  | .changeEvent room event =>
    some ⟨.writeEvents, eventTarget room event, true, none,
      otherBody P (.changeEvent room event) r t.requestId⟩
  | .startLab => some ⟨.runLab, labTarget, false, none, otherBody P .startLab r t.requestId⟩
  | .cancelLab run =>
    some ⟨.runLab, cancelTarget run, false, none, otherBody P (.cancelLab run) r t.requestId⟩
  | .createUser hash checked =>
    if r.method ≠ .post then none
    else (P.decodeCreate r.raw).map fun i =>
      -- the proof is looked at before the password is hashed; without it nothing is written
      ⟨.writeUsers, i.id, false, none,
        if checked then createUser P i hash t.requestId else fun _ _ => .error .forbidden⟩
  | .changeUser id reset =>
    (userChange P r reset).map fun c =>
      ⟨c.action, id, true, none, changeUser P id.id c r t.requestId⟩
  | .beginPolicyEnrollment challenge =>
    if r.method ≠ .post ∨ P.decodeEmpty r.raw = false then none
    else some ⟨.writeTOTPPolicy, enrollmentTarget, true, some token,
      beginPolicyEnrollment P token challenge r t.requestId⟩
  | .changePolicy g =>
    if r.method ≠ .put then none
    else (P.decodePolicy r.raw).map fun enabled =>
      ⟨.writeTOTPPolicy, totpTarget, true, none,
        changePolicy P enabled g r t.requestId t.spent⟩

def operation (db : Db R) (token : Token) (r : Request) (t : Readings) (o : Operation) :
    Answer × Db R :=
  if o = .replaceDraft then replaceDraft P.draft db token r t
  else
    match invocation P token r t o with
    | none => (.problem 400 "INVALID_REQUEST", db)
    | some i => command db token r t i.action i.target i.etag i.sealedFor i.body

/-! ## The machine -/

inductive Flow
  | login (before : PasswordSnapshot)
  | recovery (a : RecoveryAttempt)
  | enrollment (a : EnrollmentAttempt) (policyEnrollment : Bool)
  | reauthBegun (token : Token) (user : String) (r : Request) (i : ReauthInput)
  | reauth (token : Token) (r : Request) (i : ReauthInput) (before : PasswordSnapshot)
  deriving DecidableEq

/-- The tables, the flows under way, and every token that was drawn so far. -/
structure System (R : Type) where
  db : Db R
  flows : Table Nat Flow
  next : Nat
  used : List Token

inductive Act (R : Type)
  | setup (p : AuthPolicy)
  | bootstrap (user hash : String) (g : Grant) (now : Time)
  | snapshot (user : String)
  | finishPassword (flow : Nat) (password : String) (g : Grant) (now : Time)
  | completeTOTP (challenge : Token) (code : String) (g : Grant) (now wrote : Time)
  | reserveRecovery (challenge : Token) (now wrote : Time)
  | finishRecovery (flow : Nat) (code : String) (g : Grant) (now wrote : Time)
  | beginEnrollment (challenge : Token) (policyEnrollment : Bool) (secret : String)
      (now wrote : Time)
  | reserveEnrollment (challenge : Token) (policyEnrollment : Bool) (now wrote : Time)
  | finishEnrollment (flow : Nat) (code : String) (hashes : Vector String 10) (g : Grant)
      (now wrote : Time)
  | beginReauth (token : Token) (r : Request) (i : ReauthInput) (now : Time)
  | snapshotReauth (flow : Nat)
  | finishReauth (flow : Nat) (proof : Token) (picked : List Token) (now wrote : Time)
  | read (token : Token) (action : Action) (now : Time)
  | touch (token : Token) (r : Request) (now wrote : Time)
  | logout (token : Token) (r : Request) (now : Time)
  | operate (token : Token) (r : Request) (t : Readings) (o : Operation)
  | elsewhere (rest : R)

inductive Output
  | done
  | refused (e : AuthError)
  | begun (flow : Nat)
  | login (r : LoginResult)
  | accepted (a : Accepted)
  | recovered (k : Slot)
  | secret (s : String)
  | enrolled (a : Accepted)
  | proved (a : Option Accepted)
  | answer (a : Answer)
  deriving DecidableEq

def Act.drawn : Act R → List Token
  | .bootstrap _ _ g _ | .finishPassword _ _ g _ | .completeTOTP _ _ g _ _
  | .finishRecovery _ _ g _ _ | .finishEnrollment _ _ _ g _ _
  | .operate _ _ _ (.changePolicy g) => [g.session, g.csrf]
  | .finishReauth _ proof _ _ _ => [proof]
  | .operate _ _ _ (.beginPolicyEnrollment challenge) => [challenge]
  | _ => []

def setup (db : Db R) (p : AuthPolicy) : Except AuthError Unit × Db R :=
  if db.bootstrapped = true ∨ (db.policy.mode = .forcedOn ∧ p.mode ≠ .forcedOn) then
    (.error .forbidden, db)
  else (.ok (), { db with policy :=
    { p with version := db.policy.version + 1, positive := Nat.succ_pos _ } })

/-- `finishBootstrap`: the first administrator. -/
def bootstrap (db : Db R) (user hash : String) (g : Grant) (now : Time) :
    Except AuthError LoginResult × Db R :=
  if db.bootstrapped = true ∨ 0 < db.accounts.size then (.error .unauthenticated, db)
  else
    let db := { db with
      bootstrapped := true
      accounts := db.accounts.put user ⟨.admin, true, 1, false⟩
      passwords := db.passwords.put user ⟨1, hash⟩ }
    if db.policy.totpEnabled then
      (.ok .enrollment, db.issueEnrollment g.session user db.policy.version 1 now)
    else (.ok .session, db.addSession g user db.policy.version 1 false now)

/-- `Touch`, whose update reads the clock again. -/
def touchSession (db : Db R) (token : Token) (r : Request) (now wrote : Time) :
    Except AuthError Unit × Db R :=
  match loadSession db token now with
  | .error e => (.error e, db)
  | .ok s =>
    if ¬ CheckMutation r s.session.csrf then (.error .forbidden, db)
    else if s.session.createdAt ≤ wrote ∧ s.session.lastSeenAt ≤ wrote ∧
        wrote < s.session.createdAt + sessionAbsoluteTTL ∧
        wrote < s.session.lastSeenAt + sessionIdleTTL then (.ok (), db.touch token wrote)
    else (.error .unauthenticated, db)

def logout (db : Db R) (token : Token) (r : Request) (now : Time) : Except AuthError Unit × Db R :=
  match loadSession db token now with
  | .error e => (.error e, db)
  | .ok s =>
    if ¬ CheckMutation r s.session.csrf then (.error .forbidden, db)
    else (.ok (), db.dropSessions fun t _ => t = token)

namespace System

def settle {α : Type} (s : System R) (f : α → Output) (x : Except AuthError α × Db R) :
    Output × System R :=
  match x.1 with
  | .error e => (.refused e, { s with db := x.2 })
  | .ok a => (f a, { s with db := x.2 })

def start {α : Type} (s : System R) (f : α → Flow) (x : Except AuthError α × Db R) :
    Output × System R :=
  match x.1 with
  | .error e => (.refused e, { s with db := x.2 })
  | .ok a => (.begun s.next, { s with db := x.2, flows := s.flows.put s.next (f a), next := s.next + 1 })

def drop (s : System R) (flow : Nat) : System R := { s with flows := s.flows.del flow }

end System

def step (s : System R) : Act R → Output × System R
  | .setup p => s.settle (fun _ => .done) (setup s.db p)
  | .bootstrap user hash g now => s.settle .login (bootstrap s.db user hash g now)
  | .snapshot user =>
    match passwordSnapshot s.db user with
    | none => (.refused .unauthenticated, s)
    | some before =>
      if before.enabled then s.start .login (.ok before, s.db)
      else (.refused .unauthenticated, s)
  | .finishPassword flow password g now =>
    match s.flows.get flow with
    | some (.login before) =>
      if P.verifies password before.password.hash then
        (s.drop flow).settle .login (finishPassword s.db before g now)
      else (.refused .unauthenticated, s.drop flow)
    | _ => (.refused .unavailable, s)
  | .completeTOTP challenge code g now wrote =>
    s.settle .accepted (completeTOTP P.hotp s.db challenge code g now wrote)
  | .reserveRecovery challenge now wrote =>
    s.start .recovery (reserveRecovery s.db challenge now wrote)
  | .finishRecovery flow code g now wrote =>
    match s.flows.get flow with
    | some (.recovery a) =>
      match matchSlot P.verifies a code with
      | .error e => (.refused e, s.drop flow)
      | .ok slot => (s.drop flow).settle .recovered (finishRecovery s.db a slot g now wrote)
    | _ => (.refused .unavailable, s)
  | .beginEnrollment challenge policyEnrollment secret now wrote =>
    s.settle .secret (beginEnrollment s.db challenge policyEnrollment secret now wrote)
  | .reserveEnrollment challenge policyEnrollment now wrote =>
    s.start (.enrollment · policyEnrollment)
      (reserveEnrollment s.db challenge policyEnrollment now wrote)
  | .finishEnrollment flow code hashes g now wrote =>
    match s.flows.get flow with
    | some (.enrollment a policyEnrollment) =>
      (s.drop flow).settle .enrolled
        (finishEnrollment P.hotp s.db a policyEnrollment code hashes g now wrote)
    | _ => (.refused .unavailable, s)
  | .beginReauth token r i now =>
    s.start (.reauthBegun token · r i) (beginReauth s.db token r i now, s.db)
  | .snapshotReauth flow =>
    match s.flows.get flow with
    | some (.reauthBegun token user r i) =>
      match passwordSnapshot s.db user with
      | none => (.refused .unauthenticated, s.drop flow)
      | some before => (s.drop flow).start (.reauth token r i) (.ok before, s.db)
    | _ => (.refused .unavailable, s)
  | .finishReauth flow proof picked now wrote =>
    match s.flows.get flow with
    | some (.reauth token r i before) =>
      if P.verifies i.password before.password.hash then
        (s.drop flow).settle .proved
          (finishReauth P.hotp s.db token r i before proof picked now wrote)
      else (.refused .unauthenticated, s.drop flow)
    | _ => (.refused .unavailable, s)
  | .read token action now =>
    match beginCommand s.db token action none false now with
    | .error e => (.refused e, s)
    | .ok _ => (.done, s)
  | .touch token r now wrote => s.settle (fun _ => .done) (touchSession s.db token r now wrote)
  | .logout token r now => s.settle (fun _ => .done) (logout s.db token r now)
  | .operate token r t o =>
    let x := operation P s.db token r t o
    (.answer x.1, { s with db := x.2 })
  | .elsewhere rest => (.done, { s with db := { s.db with rest := rest } })

def exec (s : System R) (a : Act R) : Output × System R :=
  let x := step P s a
  (x.1, { x.2 with used := a.drawn ++ x.2.used })

def Allowed (s : System R) (a : Act R) : Prop := ∀ t ∈ a.drawn, t ∉ s.used

def defaultPolicy : AuthPolicy := ⟨.configurable, true, 1, by decide, by decide⟩

def installed (rest : R) : System R where
  db :=
    { policy := defaultPolicy
      bootstrapped := false
      accounts := ∅
      passwords := ∅
      credentials := ∅
      codes := ∅
      challenges := ∅
      enrollments := ∅
      markers := ∅
      sessions := ∅
      proofs := ∅
      commands := ∅
      rest := rest }
  flows := ∅
  next := 0
  used := []

abbrev Entry (R : Type) := Event (System R) (Act R) Output

end WaitingRoom.Admin
