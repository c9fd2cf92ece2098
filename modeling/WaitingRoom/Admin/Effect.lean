import WaitingRoom.Admin.System

/-!
# What one input can do to the tables

Every input that writes is one of the cases of `Does`. What holds along a run is
read off these cases; the functions themselves are opened here and not again.
-/

namespace WaitingRoom.Admin

set_option autoImplicit false

variable {R : Type} {P : Platform R}

/-! ## Commands -/

inductive PlanOf (P : Platform R) (token : Token) (r : Request) (t : Readings) :
    Operation → Plan R → Prop
  | draft (put : r.method = .put) : PlanOf P token r t .replaceDraft (draftPlan P.draft r t)
  | command {o : Operation} {i : Invocation R} (called : invocation P token r t o = some i) :
      PlanOf P token r t o (commandPlan token r t i.action i.target i.sealedFor i.body)

theorem operation_cases (db : Db R) (token : Token) (r : Request) (t : Readings) (o : Operation) :
    (∃ status code, operation P db token r t o = (.problem status code, db) ∧
      (status = 400 ∨ status = 428)) ∨
    ∃ plan, PlanOf P token r t o plan ∧ operation P db token r t o = serialize db token r t plan := by
  unfold operation
  split
  next ho =>
    subst ho
    unfold replaceDraft
    split
    · exact .inl ⟨_, _, rfl, .inl rfl⟩
    next hput =>
      split
      · exact .inl ⟨_, _, rfl, .inr rfl⟩
      split
      · exact .inl ⟨_, _, rfl, .inl rfl⟩
      · exact .inr ⟨_, .draft (not_not.mp (not_or.mp hput).1), rfl⟩
  next ho =>
    split
    · exact .inl ⟨_, _, rfl, .inl rfl⟩
    next i hi =>
      unfold command
      split
      · exact .inl ⟨_, _, rfl, .inl rfl⟩
      split
      · exact .inl ⟨_, _, rfl, .inr rfl⟩
      split
      · exact .inl ⟨_, _, rfl, .inl rfl⟩
      · exact .inr ⟨_, .command hi, rfl⟩

inductive Executed (P : Platform R) (db : Db R) (token : Token) (r : Request) (t : Readings)
    (o : Operation) (reply : Reply) : Db R → Prop
  | intro {plan : Plan R} {v : SessionSnapshot} {spent changed : Db R}
      (of : PlanOf P token r t o plan)
      (begun : beginCommand db token plan.action (some r) plan.action.reauthenticates t.loaded = .ok v)
      (lapsed : ∀ row, db.commands.get (v.id, r.key) = some row → row.expiresAt ≤ t.now)
      (spends : plan.spend (pruneCommands db (v.id, r.key) t.picked t.now) = .ok spent)
      (body : plan.body spent { v with now := t.now } = .ok (reply, changed)) :
      Executed P db token r t o reply (Db.touch { changed with
        commands := changed.commands.put (v.id, r.key)
          ⟨plan.fingerprint, t.now, t.now + replyTTL, reply, plan.sealedFor⟩ } token t.now)

variable {token requestId challenge : Token} {r : Request} {t : Readings} {o : Operation}
  {plan : Plan R} {db db' : Db R} {v : SessionSnapshot} {reply : Reply} {wrote now : Time}
  {α : Type} {f : α → Output} {x : Except AuthError α × Db R}

theorem PlanOf.body_error (of : PlanOf P token r t o plan) {a : Answer}
    (h : plan.body db v = .error a) : (∃ e, a = .refused e) ∨ a = .problem 422 "INVALID_CONFIG" := by
  cases of with
  | draft =>
    simp only [draftPlan] at h
    split at h
    · cases h
      exact .inr rfl
    · cases h
  | command =>
    simp only [commandPlan, keepable] at h
    split at h
    · cases h
      exact .inl ⟨_, rfl⟩
    split at h
    · cases h
      exact .inl ⟨_, rfl⟩
    · cases h

theorem execute_cases (of : PlanOf P token r t o plan)
    (begun : beginCommand db token plan.action (some r) plan.action.reauthenticates t.loaded = .ok v)
    (lapsed : ∀ row, db.commands.get (v.id, r.key) = some row → row.expiresAt ≤ t.now) :
    (∃ e, execute db token r t plan { v with now := t.now } = (.refused e, db)) ∨
    (∃ status code, execute db token r t plan { v with now := t.now } = (.problem status code, db)) ∨
    ∃ reply, (execute db token r t plan { v with now := t.now }).1 = .executed reply ∧
      Executed P db token r t o reply (execute db token r t plan { v with now := t.now }).2 := by
  unfold execute
  dsimp only
  split
  · exact .inr (.inl ⟨_, _, rfl⟩)
  split
  · exact .inl ⟨_, rfl⟩
  next spent hspent =>
    split
    next a ha =>
      rcases of.body_error ha with ⟨e, rfl⟩ | rfl
      · exact .inl ⟨e, rfl⟩
      · exact .inr (.inl ⟨_, _, rfl⟩)
    next reply changed hbody =>
      exact .inr (.inr ⟨reply, rfl, .intro of begun lapsed hspent hbody⟩)

inductive Serialized (P : Platform R) (db : Db R) (token : Token) (r : Request) (t : Readings)
    (o : Operation) (plan : Plan R) : Answer → Db R → Prop
  | refused (e : AuthError) : Serialized P db token r t o plan (.refused e) db
  | problem {v : SessionSnapshot} (status : Nat) (code : String)
      (begun : beginCommand db token plan.action (some r) plan.action.reauthenticates t.loaded = .ok v)
      (lapsed : ∀ row, db.commands.get (v.id, r.key) = some row → row.expiresAt ≤ t.now) :
      Serialized P db token r t o plan (.problem status code) db
  | conflict {v : SessionSnapshot} {row : CommandRow}
      (begun : beginCommand db token plan.action (some r) plan.action.reauthenticates t.loaded = .ok v)
      (kept : db.commands.get (v.id, r.key) = some row) (differs : row.requestHash ≠ plan.fingerprint) :
      Serialized P db token r t o plan (.problem 409 "IDEMPOTENCY_CONFLICT") db
  | replayed {v : SessionSnapshot} {row : CommandRow}
      (begun : beginCommand db token plan.action (some r) plan.action.reauthenticates t.loaded = .ok v)
      (kept : db.commands.get (v.id, r.key) = some row) (same : row.requestHash = plan.fingerprint) :
      Serialized P db token r t o plan (.replayed row.reply) db
  | executed {reply : Reply} {db' : Db R} (h : Executed P db token r t o reply db') :
      Serialized P db token r t o plan (.executed reply) db'

theorem serialize_cases (of : PlanOf P token r t o plan) (db : Db R) :
    Serialized P db token r t o plan (serialize db token r t plan).1
      (serialize db token r t plan).2 := by
  unfold serialize
  split
  · exact .refused _
  next v begun =>
    split
    · exact .refused _
    have run (lapsed : ∀ row, db.commands.get (v.id, r.key) = some row → row.expiresAt ≤ t.now) :
        Serialized P db token r t o plan (execute db token r t plan { v with now := t.now }).1
          (execute db token r t plan { v with now := t.now }).2 := by
      rcases execute_cases of begun lapsed with ⟨e, h⟩ | ⟨status, code, h⟩ | ⟨reply, h, h'⟩
      · rw [h]
        exact .refused e
      · rw [h]
        exact .problem status code begun lapsed
      · rw [h]
        exact .executed h'
    dsimp only
    split
    next hnone =>
      refine run fun row hrow => ?_
      rw [hnone] at hrow
      cases hrow
    next row hrow =>
      split
      · exact .refused _
      split
      · split
        next hne => exact .conflict begun hrow hne
        next heq =>
          unfold CommandRow.replay
          split
          · exact .refused _
          · exact .replayed begun hrow (not_not.mp heq)
      next hlapsed =>
        refine run fun row' hrow' => ?_
        obtain rfl : row = row' := Option.some.inj (hrow.symm.trans hrow')
        exact Int.not_lt.mp hlapsed

/-! ## Bodies -/

/-- What a body does to the tables; an answer other than 200 to a change of a user
leaves them alone. -/
inductive BodyDoes (token : Token) (v : SessionSnapshot) : Operation → Nat → Db R → Db R → Prop
  | same {o : Operation} {status : Nat} (db : Db R)
      (unchanged : ∀ id reset, o = .changeUser id reset → status ≠ 200) :
      BodyDoes token v o status db db
  | rest {o : Operation} {status : Nat} (db : Db R) (rest : R)
      (other : ∀ id reset, o ≠ .changeUser id reset) :
      BodyDoes token v o status db { db with rest := rest }
  | created {hash : String} {checked : Bool} {status : Nat} {db : Db R} (i : CreateUserInput)
      (fresh : db.accounts.get i.id.id = none) :
      BodyDoes token v (.createUser hash checked) status db { db with
        accounts := db.accounts.put i.id.id ⟨i.role, true, 1, false⟩
        passwords := db.passwords.put i.id.id ⟨1, hash⟩ }
  | changed {id : Plain} {reset : Bool} {status : Nat} {db : Db R} (c : UserChange) (a : Account)
      (found : db.accounts.get id.id = some a) :
      BodyDoes token v (.changeUser id reset) status db (applyChange db id.id c a)
  | enrolling {challenge : Token} {status : Nat} {db : Db R} (now : Time) :
      BodyDoes token v (.beginPolicyEnrollment challenge) status db
        { db.dropEnrollments (fun e => e.user = v.id) with
          enrollments := (db.dropEnrollments (fun e => e.user = v.id)).enrollments.put challenge
            ⟨v.id, v.policy.version, v.account.sessionVersion, now, now + minutes 5, 0, false, none⟩
          markers := (db.dropEnrollments (fun e => e.user = v.id)).markers.put challenge token }
  | flipped {g : Grant} {status : Nat} {db : Db R} (p : AuthPolicy) (now : Time)
      (next : p.version = v.policy.version + 1) :
      BodyDoes token v (.changePolicy g) status db (applyPolicy db p v g now)

theorem otherBody_does {o o' : Operation} (h : otherBody P o r requestId db v = .ok (reply, db'))
    (other : ∀ id reset, o' ≠ .changeUser id reset) : BodyDoes token v o' reply.status db db' := by
  simp only [otherBody] at h
  cases hb : P.body o r v requestId db.rest with
  | error e =>
    rw [hb] at h
    cases h
  | ok x =>
    rw [hb] at h
    cases h
    exact .rest db _ other

theorem createUser_does {i : CreateUserInput} {hash : String} {checked : Bool}
    (h : createUser P i hash requestId db v = .ok (reply, db')) :
    BodyDoes token v (.createUser hash checked) reply.status db db' := by
  unfold createUser at h
  split at h
  · cases h
  split at h
  · cases h
    exact .same _ (by simp [Platform.problem])
  next hfresh =>
    split at h
    · cases h
      exact .same _ (by simp [Platform.problem])
    · cases h
      exact .created i (Option.not_isSome_iff_eq_none.mp hfresh)

theorem changeUser_does {id : Plain} {reset : Bool} {c : UserChange}
    (h : changeUser P id.id c r requestId db v = .ok (reply, db')) :
    BodyDoes token v (.changeUser id reset) reply.status db db' := by
  unfold changeUser at h
  split at h
  · cases h
    exact .same _ (by simp [Platform.problem])
  next a ha =>
    split at h
    · cases h
      exact .same _ (by simp [Platform.problem])
    split at h
    · cases h
      exact .same _ (by simp [Platform.problem])
    split at h
    · cases h
      exact .same _ (by simp [Platform.problem])
    split at h
    · cases h
    · cases h
      exact .changed c a ha

theorem beginPolicyEnrollment_does
    (h : beginPolicyEnrollment P token challenge r requestId db v = .ok (reply, db')) :
    BodyDoes token v (.beginPolicyEnrollment challenge) reply.status db db' := by
  unfold beginPolicyEnrollment at h
  split at h
  · cases h
    exact .same _ nofun
  split at h
  · cases h
    exact .same _ nofun
  · cases h
    exact .enrolling v.now

theorem changePolicy_does {enabled : Bool} {g : Grant}
    (h : changePolicy P enabled g r requestId wrote db v = .ok (reply, db')) :
    BodyDoes token v (.changePolicy g) reply.status db db' := by
  unfold changePolicy at h
  split at h
  · cases h
    exact .same _ nofun
  split at h
  · cases h
    exact .same _ nofun
  split at h
  · cases h
    exact .same _ nofun
  split at h
  · cases h
    exact .same _ nofun
  split at h
  · cases h
  · cases h
    exact .flipped _ wrote rfl

theorem keepable_ok {body : Body R} (h : keepable body db v = .ok (reply, db')) :
    body db v = .ok (reply, db') := by
  unfold keepable at h
  split at h
  · cases h
  next hb =>
    split at h
    · cases h
    · cases h
      exact hb

theorem invocation_does {i : Invocation R} (hi : invocation P token r t o = some i)
    (h : i.body db v = .ok (reply, db')) : BodyDoes token v o reply.status db db' := by
  cases o with
  | replaceDraft => cases hi
  | publish =>
    cases hi
    exact otherBody_does h nofun
  | operate room =>
    simp only [invocation] at hi
    split at hi
    · cases hi
    · obtain ⟨c, -, rfl⟩ := Option.map_eq_some_iff.mp hi
      exact otherBody_does h nofun
  | changeEvent room event =>
    cases hi
    exact otherBody_does h nofun
  | startLab =>
    cases hi
    exact otherBody_does h nofun
  | cancelLab run =>
    cases hi
    exact otherBody_does h nofun
  | createUser hash checked =>
    simp only [invocation] at hi
    split at hi
    · cases hi
    · obtain ⟨input, -, rfl⟩ := Option.map_eq_some_iff.mp hi
      cases checked with
      | false => cases h
      | true => exact createUser_does h
  | changeUser id reset =>
    obtain ⟨c, -, rfl⟩ := Option.map_eq_some_iff.mp hi
    exact changeUser_does h
  | beginPolicyEnrollment challenge =>
    simp only [invocation] at hi
    split at hi
    · cases hi
    · cases hi
      exact beginPolicyEnrollment_does h
  | changePolicy g =>
    simp only [invocation] at hi
    split at hi
    · cases hi
    · obtain ⟨enabled, -, rfl⟩ := Option.map_eq_some_iff.mp hi
      exact changePolicy_does h

theorem PlanOf.body_does (of : PlanOf P token r t o plan) (h : plan.body db v = .ok (reply, db')) :
    BodyDoes token v o reply.status db db' := by
  cases of with
  | draft =>
    simp only [draftPlan] at h
    split at h
    · cases h
    · cases h
      exact .rest db _ nofun
  | command called => exact invocation_does called (keepable_ok h)

inductive Spends (token : Token) (r : Request) (plan : Plan R) (now : Time) : Db R → Db R → Prop
  | free (db : Db R) (ordinary : plan.action.reauthenticates = false) : Spends token r plan now db db
  | proof {db : Db R} {t : Token} {p : Proof} {target : Plain} (sent : r.reauth = [t])
      (found : db.proofs.get t = some p) (session : p.session = token) (action : p.action = plan.action)
      (named : p.target = target.text)
      (digest : p.digest = actionRequestDigest r.method target.text r.revision r.raw)
      (print : plan.fingerprint =
        fingerprint r.method plan.action target.text r.revision r.raw)
      (unused : p.consumed = false) :
      Spends token r plan now db { db with proofs := db.proofs.put t { p with consumed := true } }

theorem PlanOf.spends (of : PlanOf P token r t o plan) (h : plan.spend db = .ok db') :
    Spends token r plan t.spent db db' := by
  cases of with
  | draft =>
    cases h
    exact .free db rfl
  | command called =>
    simp only [commandPlan] at h
    split at h
    · unfold consumeReauth at h
      split at h
      next tok sent =>
        split at h
        · cases h
        next p hp =>
          split at h
          next hc =>
            cases h
            obtain ⟨h₁, h₂, h₃, h₄, h₅, -⟩ := hc
            exact .proof sent hp h₁ h₂ h₃ h₄ rfl h₅
          · cases h
      · cases h
    next hfree =>
      cases h
      exact .free db (Bool.eq_false_iff.mpr hfree)

/-! ## Inputs -/

def founder (db : Db R) (user hash : String) : Db R :=
  { db with
    bootstrapped := true
    accounts := db.accounts.put user ⟨.admin, true, 1, false⟩
    passwords := db.passwords.put user ⟨1, hash⟩ }

inductive Issued (db : Db R) (user : String) (version : Nat) (g : Grant) (now : Time) :
    LoginResult → Db R → Prop
  | enrollment : Issued db user version g now .enrollment
      (db.issueEnrollment g.session user db.policy.version version now)
  | challenge {c : Credential} (found : db.credentials.get user = some c) :
      Issued db user version g now .challenge
        (db.issueChallenge g.session user c.version db.policy.version version now)
  | session : Issued db user version g now .session
      (db.addSession g user db.policy.version version false now)

def Output.quiet : Output → Bool
  | .login _ | .accepted _ | .recovered _ | .enrolled _ | .proved _ | .answer (.executed _) => false
  | _ => true

def Act.ends : Act R → Option Nat
  | .finishPassword flow _ _ _ | .finishRecovery flow _ _ _ _ | .finishEnrollment flow _ _ _ _ _
  | .snapshotReauth flow | .finishReauth flow _ _ _ _ => some flow
  | _ => none

/-- Whether the input got a guess at the challenge `t` answered as right or wrong. An
attempt at a recovery code counts from its reservation on. -/
def guessed (s : System R) (a : Act R) (o : Output) (t : Token) : Bool :=
  match a with
  | .completeTOTP c _ _ now _ =>
    c = t && (openForCode s.db c now).isSome && o ≠ .refused .unavailable
  | .reserveRecovery c _ _ =>
    match o with
    | .begun _ => c = t
    | _ => false
  | _ => false

def Silent (s : System R) (a : Act R) (o : Output) : Prop :=
  o.quiet = true ∧ ∀ t, guessed s a o t = false

def Enrollment.Keeps (e e' : Enrollment) : Prop :=
  e'.user = e.user ∧ e'.policyVersion = e.policyVersion ∧ e'.userVersion = e.userVersion ∧
    e'.consumed = e.consumed

inductive Does (P : Platform R) (s : System R) : Act R → Output → Db R → Prop
  | idle {o : Output} (a : Act R) (silent : Silent s a o) : Does P s a o s.db
  | configured (p : AuthPolicy) : Does P s (.setup p) .done { s.db with
      policy := { p with version := s.db.policy.version + 1, positive := Nat.succ_pos _ } }
  | founded {user hash : String} {g : Grant} {now : Time} {r : LoginResult} {db : Db R}
      (empty : ∀ id, s.db.accounts.get id = none)
      (issued : Issued (founder s.db user hash) user 1 g now r db) :
      Does P s (.bootstrap user hash g now) (.login r) db
  | passed {flow : Nat} {password : String} {g : Grant} {now : Time} {before : PasswordSnapshot}
      {a : Account} {p : Password} {r : LoginResult} {db : Db R}
      (held : s.flows.get flow = some (.login before))
      (account : s.db.accounts.get before.user = some a) (same : Unchanged s.db before a p)
      (issued : Issued s.db before.user a.sessionVersion g now r db) :
      Does P s (.finishPassword flow password g now) (.login r) db
  | wrong {challenge : Token} {code : String} {g : Grant} {now wrote : Time} {ch : Challenge}
      {a : Account} {c : Credential} (opened : openForCode s.db challenge now = some (ch, a, c)) :
      Does P s (.completeTOTP challenge code g now wrote) (.refused .invalidOrReplayed)
        { s.db with challenges := s.db.challenges.put challenge ch.failed }
  | granted {challenge : Token} {code : String} {g : Grant} {now wrote : Time} {ch : Challenge}
      {a : Account} {c c' : Credential} {counter : Nat}
      (opened : openForCode s.db challenge now = some (ch, a, c))
      (consumed : verifyAndConsume P.hotp c code now = some (counter, c')) :
      Does P s (.completeTOTP challenge code g now wrote)
        (.accepted ⟨ch.user, c'.version, counter⟩)
        (Db.addSession { s.db with
          credentials := s.db.credentials.put ch.user c'
          challenges := s.db.challenges.put challenge { ch with consumed := true } }
          g ch.user s.db.policy.version a.sessionVersion true wrote)
  | reserved {challenge : Token} {now wrote : Time} {ch : Challenge} {state : RecoveryState}
      (loaded : loadRecovery s.db challenge now = some (ch, state)) (room : ch.attempts < 5) :
      Does P s (.reserveRecovery challenge now wrote) (.begun s.next)
        { s.db with
          challenges := s.db.challenges.put challenge { ch with attempts := ch.attempts + 1 } }
  | recovered {flow : Nat} {code : String} {g : Grant} {now wrote : Time} {a : RecoveryAttempt}
      {slot : Nat} {ch : Challenge} {state : RecoveryState} {stored : RecoveryCode}
      (held : s.flows.get flow = some (.recovery a))
      (loaded : loadRecovery s.db a.state.challenge now = some (ch, state))
      (user : state.user = a.state.user) (policy : state.policy = a.state.policy)
      (version : state.userVersion = a.state.userVersion)
      (found : s.db.codes.get ⟨state.user, state.version, slot⟩ = some stored)
      (unused : stored.consumed = false) :
      Does P s (.finishRecovery flow code g now wrote) (.recovered ⟨state.user, state.version, slot⟩)
        (Db.addSession { s.db with
          codes := s.db.codes.put ⟨state.user, state.version, slot⟩ { stored with consumed := true }
          challenges := s.db.challenges.put a.state.challenge { ch with consumed := true } }
          g state.user state.policy state.userVersion true wrote)
  | prepared {a : Act R} {o : Output} {challenge : Token} {e e' : Enrollment} (silent : Silent s a o)
      (unended : a.ends = none) (found : s.db.enrollments.get challenge = some e) (keeps : e.Keeps e') :
      Does P s a o { s.db with enrollments := s.db.enrollments.put challenge e' }
  | enrolled {flow : Nat} {code : String} {hashes : Vector String 10} {g : Grant} {now wrote : Time}
      {a : EnrollmentAttempt} {policyEnrollment : Bool} {e : Enrollment} {account : Account}
      {secret : String} {counter : Nat}
      (held : s.flows.get flow = some (.enrollment a policyEnrollment))
      (loaded : loadEnrollment s.db a.token policyEnrollment now = some (e, account))
      (user : e.user = a.user) (version : account.sessionVersion = a.version)
      (policy : s.db.policy.version = a.policy) :
      Does P s (.finishEnrollment flow code hashes g now wrote)
        (.enrolled ⟨a.user, a.version, counter⟩) (enroll s.db a secret counter hashes g wrote)
  | proved {flow : Nat} {proof : Token} {picked : List Token} {now wrote : Time} {token : Token}
      {r : Request} {i : ReauthInput} {before : PasswordSnapshot} {v : SessionSnapshot}
      {used : Option Accepted} {next : Db R}
      (held : s.flows.get flow = some (.reauth token r i before))
      (loaded : loadSession s.db token now = .ok v)
      (factor : reauthFactor P.hotp s.db v i = .ok (used, next)) :
      Does P s (.finishReauth flow proof picked now wrote) (.proved used)
        { pruneProofs next picked wrote with
          proofs := (pruneProofs next picked wrote).proofs.put proof
            ⟨token, i.action, i.target.text, i.digest, v.now, v.now + minutes 5, false⟩ }
  | touched {token : Token} {r : Request} {now wrote : Time} :
      Does P s (.touch token r now wrote) .done (s.db.touch token wrote)
  | loggedOut {token : Token} {r : Request} {now : Time} :
      Does P s (.logout token r now) .done (s.db.dropSessions fun t _ => t = token)
  | operated {token : Token} {r : Request} {t : Readings} {o : Operation} {reply : Reply} {db : Db R}
      (executed : Executed P s.db token r t o reply db) :
      Does P s (.operate token r t o) (.answer (.executed reply)) db
  | elsewhere (rest : R) : Does P s (.elsewhere rest) .done { s.db with rest := rest }

variable {s : System R} {a : Act R}

theorem does_setup (p : AuthPolicy) :
    Does P s (.setup p) (step P s (.setup p)).1 (step P s (.setup p)).2.db := by
  simp only [step, setup]
  split
  · exact .idle _ ⟨rfl, fun _ => rfl⟩
  · exact .configured p

theorem does_bootstrap (user hash : String) (g : Grant) (now : Time) :
    Does P s (.bootstrap user hash g now) (step P s (.bootstrap user hash g now)).1
      (step P s (.bootstrap user hash g now)).2.db := by
  simp only [step, bootstrap]
  split
  · exact .idle _ ⟨rfl, fun _ => rfl⟩
  next h =>
    have empty : ∀ id, s.db.accounts.get id = none :=
      Table.size_eq_zero_iff.mp (Nat.eq_zero_of_not_pos (not_or.mp h).2)
    split
    · exact .founded empty .enrollment
    · exact .founded empty .session

theorem does_finishPassword (flow : Nat) (password : String) (g : Grant) (now : Time) :
    Does P s (.finishPassword flow password g now) (step P s (.finishPassword flow password g now)).1
      (step P s (.finishPassword flow password g now)).2.db := by
  simp only [step]
  split
  next before held =>
    split
    · unfold finishPassword
      split
      next a p ha hp =>
        split
        next same =>
          split
          · split
            · exact .passed held ha same .enrollment
            next c hc => exact .passed held ha same (.challenge hc)
          · exact .passed held ha same .session
        · exact .idle _ ⟨rfl, fun _ => rfl⟩
      · exact .idle _ ⟨rfl, fun _ => rfl⟩
    · exact .idle _ ⟨rfl, fun _ => rfl⟩
  · exact .idle _ ⟨rfl, fun _ => rfl⟩

theorem does_completeTOTP (challenge : Token) (code : String) (g : Grant) (now wrote : Time) :
    Does P s (.completeTOTP challenge code g now wrote)
      (step P s (.completeTOTP challenge code g now wrote)).1
      (step P s (.completeTOTP challenge code g now wrote)).2.db := by
  simp only [step, completeTOTP]
  split
  next closed =>
    refine .idle _ ⟨rfl, fun t => ?_⟩
    simp [guessed, closed]
  next ch a c opened =>
    split
    · exact .wrong opened
    next counter c' consumed =>
      split
      · exact .granted opened consumed
      · refine .idle _ ⟨rfl, fun t => ?_⟩
        simp [guessed, System.settle]

theorem loadRecovery_attempts {ch : Challenge} {state : RecoveryState}
    (h : loadRecovery db challenge now = some (ch, state)) :
    state.attempts = ch.attempts := by
  obtain ⟨x, -, hx⟩ := Option.map_eq_some_iff.mp h
  cases hx
  rfl

theorem does_reserveRecovery (challenge : Token) (now wrote : Time) :
    Does P s (.reserveRecovery challenge now wrote) (step P s (.reserveRecovery challenge now wrote)).1
      (step P s (.reserveRecovery challenge now wrote)).2.db := by
  simp only [step, reserveRecovery]
  split
  · exact .idle _ ⟨rfl, fun _ => rfl⟩
  next ch state loaded =>
    split
    · exact .idle _ ⟨rfl, fun _ => rfl⟩
    next hroom =>
      split
      · exact .idle _ ⟨rfl, fun _ => rfl⟩
      split
      · refine .reserved loaded ?_
        rw [← loadRecovery_attempts loaded]
        exact Nat.lt_of_not_le hroom
      · exact .idle _ ⟨rfl, fun _ => rfl⟩

theorem does_finishRecovery (flow : Nat) (code : String) (g : Grant) (now wrote : Time) :
    Does P s (.finishRecovery flow code g now wrote)
      (step P s (.finishRecovery flow code g now wrote)).1
      (step P s (.finishRecovery flow code g now wrote)).2.db := by
  simp only [step]
  split
  next a held =>
    split
    · exact .idle _ ⟨rfl, fun _ => rfl⟩
    next slot _ =>
      unfold finishRecovery
      split
      · exact .idle _ ⟨rfl, fun _ => rfl⟩
      split
      · exact .idle _ ⟨rfl, fun _ => rfl⟩
      split
      · exact .idle _ ⟨rfl, fun _ => rfl⟩
      next ch state loaded =>
        split
        · exact .idle _ ⟨rfl, fun _ => rfl⟩
        next hsame =>
          simp only [not_or, not_not] at hsame
          obtain ⟨huser, -, -, hpolicy, hversion, -⟩ := hsame
          dsimp only
          split
          · exact .idle _ ⟨rfl, fun _ => rfl⟩
          next stored found =>
            split
            · exact .idle _ ⟨rfl, fun _ => rfl⟩
            next hunused =>
              split
              · exact .recovered held loaded huser hpolicy hversion found
                  (Bool.eq_false_iff.mpr (not_or.mp hunused).1)
              · exact .idle _ ⟨rfl, fun _ => rfl⟩
  · exact .idle _ ⟨rfl, fun _ => rfl⟩

theorem loadEnrollment_some {policyEnrollment : Bool} {e : Enrollment} {a : Account}
    (h : loadEnrollment db challenge policyEnrollment now = some (e, a)) :
    db.enrollments.get challenge = some e ∧ db.accounts.get e.user = some a ∧
      db.credentials.get e.user = none ∧ e.userVersion = a.sessionVersion ∧
      e.policyVersion = db.policy.version ∧ e.consumed = false := by
  unfold loadEnrollment at h
  split at h
  · cases h
  split at h
  · cases h
  next e' he =>
    split at h
    · cases h
    next a' ha =>
      split at h
      next hc =>
        cases h
        obtain ⟨-, h₁, h₂, h₃, h₄, -⟩ := hc
        exact ⟨he, ha, h₁, h₂, h₃, h₄⟩
      · cases h

theorem does_beginEnrollment (challenge : Token) (policyEnrollment : Bool) (secret : String)
    (now wrote : Time) :
    Does P s (.beginEnrollment challenge policyEnrollment secret now wrote)
      (step P s (.beginEnrollment challenge policyEnrollment secret now wrote)).1
      (step P s (.beginEnrollment challenge policyEnrollment secret now wrote)).2.db := by
  simp only [step, beginEnrollment]
  split
  · exact .idle _ ⟨rfl, fun _ => rfl⟩
  next e a loaded =>
    split
    · exact .idle _ ⟨rfl, fun _ => rfl⟩
    split
    · exact .idle _ ⟨rfl, fun _ => rfl⟩
    split
    · exact .prepared ⟨rfl, fun _ => rfl⟩ rfl (loadEnrollment_some loaded).1 ⟨rfl, rfl, rfl, rfl⟩
    · exact .idle _ ⟨rfl, fun _ => rfl⟩

theorem does_reserveEnrollment (challenge : Token) (policyEnrollment : Bool) (now wrote : Time) :
    Does P s (.reserveEnrollment challenge policyEnrollment now wrote)
      (step P s (.reserveEnrollment challenge policyEnrollment now wrote)).1
      (step P s (.reserveEnrollment challenge policyEnrollment now wrote)).2.db := by
  simp only [step, reserveEnrollment]
  split
  · exact .idle _ ⟨rfl, fun _ => rfl⟩
  next e a loaded =>
    split
    · exact .idle _ ⟨rfl, fun _ => rfl⟩
    split
    · exact .prepared ⟨rfl, fun _ => rfl⟩ rfl (loadEnrollment_some loaded).1 ⟨rfl, rfl, rfl, rfl⟩
    · exact .idle _ ⟨rfl, fun _ => rfl⟩

theorem does_finishEnrollment (flow : Nat) (code : String) (hashes : Vector String 10) (g : Grant)
    (now wrote : Time) :
    Does P s (.finishEnrollment flow code hashes g now wrote)
      (step P s (.finishEnrollment flow code hashes g now wrote)).1
      (step P s (.finishEnrollment flow code hashes g now wrote)).2.db := by
  simp only [step]
  split
  next a policyEnrollment held =>
    unfold finishEnrollment
    split
    · exact .idle _ ⟨rfl, fun _ => rfl⟩
    next e account loaded =>
      split
      · exact .idle _ ⟨rfl, fun _ => rfl⟩
      next hsame =>
        simp only [not_or, not_not] at hsame
        obtain ⟨huser, hversion, hpolicy, -⟩ := hsame
        split
        · exact .idle _ ⟨rfl, fun _ => rfl⟩
        split
        · exact .idle _ ⟨rfl, fun _ => rfl⟩
        split
        · exact .idle _ ⟨rfl, fun _ => rfl⟩
        split
        · exact .enrolled held loaded huser hversion hpolicy
        · exact .idle _ ⟨rfl, fun _ => rfl⟩
  · exact .idle _ ⟨rfl, fun _ => rfl⟩

theorem does_finishReauth (flow : Nat) (proof : Token) (picked : List Token) (now wrote : Time) :
    Does P s (.finishReauth flow proof picked now wrote)
      (step P s (.finishReauth flow proof picked now wrote)).1
      (step P s (.finishReauth flow proof picked now wrote)).2.db := by
  simp only [step]
  split
  next token r i before held =>
    split
    · unfold finishReauth
      split
      · exact .idle _ ⟨rfl, fun _ => rfl⟩
      next v loaded =>
        split
        · exact .idle _ ⟨rfl, fun _ => rfl⟩
        split
        · exact .idle _ ⟨rfl, fun _ => rfl⟩
        split
        · exact .idle _ ⟨rfl, fun _ => rfl⟩
        split
        · exact .idle _ ⟨rfl, fun _ => rfl⟩
        next used next factor =>
          dsimp only
          split
          · exact .idle _ ⟨rfl, fun _ => rfl⟩
          · exact .proved held loaded factor
    · exact .idle _ ⟨rfl, fun _ => rfl⟩
  · exact .idle _ ⟨rfl, fun _ => rfl⟩

theorem does_operate (token : Token) (r : Request) (t : Readings) (o : Operation) :
    Does P s (.operate token r t o) (step P s (.operate token r t o)).1
      (step P s (.operate token r t o)).2.db := by
  simp only [step]
  rcases operation_cases (P := P) s.db token r t o with ⟨status, code, h, -⟩ | ⟨plan, of, h⟩
  · rw [h]
    exact .idle _ ⟨rfl, fun _ => rfl⟩
  · rw [h]
    generalize hx : serialize s.db token r t plan = x
    have hs := serialize_cases of s.db
    rw [hx] at hs
    cases x with
    | mk answer db =>
      cases hs with
      | executed hexec => exact .operated hexec
      | _ => exact .idle _ ⟨rfl, fun _ => rfl⟩

theorem step_does (s : System R) (a : Act R) : Does P s a (step P s a).1 (step P s a).2.db := by
  cases a with
  | setup p => exact does_setup p
  | bootstrap user hash g now => exact does_bootstrap user hash g now
  | snapshot user =>
    simp only [step]
    split
    · exact .idle _ ⟨rfl, fun _ => rfl⟩
    · split
      · exact .idle _ ⟨rfl, fun _ => rfl⟩
      · exact .idle _ ⟨rfl, fun _ => rfl⟩
  | finishPassword flow password g now => exact does_finishPassword flow password g now
  | completeTOTP challenge code g now wrote => exact does_completeTOTP challenge code g now wrote
  | reserveRecovery challenge now wrote => exact does_reserveRecovery challenge now wrote
  | finishRecovery flow code g now wrote => exact does_finishRecovery flow code g now wrote
  | beginEnrollment challenge p secret now wrote => exact does_beginEnrollment challenge p secret now wrote
  | reserveEnrollment challenge p now wrote => exact does_reserveEnrollment challenge p now wrote
  | finishEnrollment flow code hashes g now wrote =>
    exact does_finishEnrollment flow code hashes g now wrote
  | beginReauth token r i now =>
    simp only [step, System.start]
    split
    · exact .idle _ ⟨rfl, fun _ => rfl⟩
    · exact .idle _ ⟨rfl, fun _ => rfl⟩
  | snapshotReauth flow =>
    simp only [step]
    split
    · split
      · exact .idle _ ⟨rfl, fun _ => rfl⟩
      · exact .idle _ ⟨rfl, fun _ => rfl⟩
    · exact .idle _ ⟨rfl, fun _ => rfl⟩
  | finishReauth flow proof picked now wrote => exact does_finishReauth flow proof picked now wrote
  | read token action now =>
    simp only [step]
    split
    · exact .idle _ ⟨rfl, fun _ => rfl⟩
    · exact .idle _ ⟨rfl, fun _ => rfl⟩
  | touch token r now wrote =>
    simp only [step, touchSession]
    split
    · exact .idle _ ⟨rfl, fun _ => rfl⟩
    · split
      · exact .idle _ ⟨rfl, fun _ => rfl⟩
      · split
        · exact .touched
        · exact .idle _ ⟨rfl, fun _ => rfl⟩
  | logout token r now =>
    simp only [step, logout]
    split
    · exact .idle _ ⟨rfl, fun _ => rfl⟩
    · split
      · exact .idle _ ⟨rfl, fun _ => rfl⟩
      · exact .loggedOut
  | operate token r t o => exact does_operate token r t o
  | elsewhere rest => exact .elsewhere rest

theorem exec_does (s : System R) (a : Act R) : Does P s a (exec P s a).1 (exec P s a).2.db :=
  step_does s a

/-! ## Flows -/

inductive Started (s : System R) : Act R → Flow → Prop
  | login {user : String} {before : PasswordSnapshot} (read : passwordSnapshot s.db user = some before) :
      Started s (.snapshot user) (.login before)
  | recovery {challenge : Token} {now wrote : Time} {ch : Challenge} {x : RecoveryAttempt}
      (loaded : loadRecovery s.db challenge now = some (ch, x.state)) :
      Started s (.reserveRecovery challenge now wrote) (.recovery x)
  | enrollment {challenge : Token} {policyEnrollment : Bool} {now wrote : Time} {e : Enrollment}
      {account : Account} {x : EnrollmentAttempt}
      (loaded : loadEnrollment s.db challenge policyEnrollment now = some (e, account))
      (user : x.user = e.user) (version : x.version = account.sessionVersion)
      (policy : x.policy = s.db.policy.version) :
      Started s (.reserveEnrollment challenge policyEnrollment now wrote)
        (.enrollment x policyEnrollment)
  | reauthBegun {token : Token} {r : Request} {i : ReauthInput} {now : Time} {user : String}
      (begun : beginReauth s.db token r i now = .ok user) :
      Started s (.beginReauth token r i now) (.reauthBegun token user r i)
  | reauth {flow : Nat} {token : Token} {user : String} {r : Request} {i : ReauthInput}
      {before : PasswordSnapshot} (held : s.flows.get flow = some (.reauthBegun token user r i))
      (read : passwordSnapshot s.db user = some before) :
      Started s (.snapshotReauth flow) (.reauth token r i before)

/-- What an input does to the flows. Only a flow that is of another kind than the input
asks for survives being named. -/
inductive FlowMove (s : System R) (a : Act R) (o : Output) (s' : System R) : Prop
  | same (flows : s'.flows = s.flows) (next : s'.next = s.next) (unbegun : ∀ flow, o ≠ .begun flow)
      (recovery : ∀ flow code g now wrote x, a = .finishRecovery flow code g now wrote →
        s.flows.get flow ≠ some (.recovery x))
  | started {f : Flow} (begun : o = .begun s.next) (of : Started s a f) (unended : a.ends = none)
      (flows : s'.flows = s.flows.put s.next f) (next : s'.next = s.next + 1)
  | dropped {flow : Nat} (ends : a.ends = some flow) (unbegun : ∀ flow, o ≠ .begun flow)
      (flows : s'.flows = s.flows.del flow) (next : s'.next = s.next)
  | replaced {flow : Nat} {f : Flow} (begun : o = .begun s.next) (ends : a = .snapshotReauth flow)
      (of : Started s a f) (flows : s'.flows = (s.flows.del flow).put s.next f)
      (next : s'.next = s.next + 1)

theorem System.settle_fields (s : System R) (f : α → Output) (x : Except AuthError α × Db R) :
    (s.settle f x).2.flows = s.flows ∧ (s.settle f x).2.next = s.next ∧
      (s.settle f x).2.used = s.used := by
  unfold System.settle
  split
  · exact ⟨rfl, rfl, rfl⟩
  · exact ⟨rfl, rfl, rfl⟩

theorem System.settle_unbegun (s : System R) (x : Except AuthError α × Db R)
    (hf : ∀ y flow, f y ≠ .begun flow) (flow : Nat) :
    (s.settle f x).1 ≠ .begun flow := by
  unfold System.settle
  split
  · exact nofun
  · exact hf _ flow

theorem FlowMove.of_settle (hf : ∀ y flow, f y ≠ .begun flow) (ha : ∀ flow code g now wrote,
      a ≠ .finishRecovery flow code g now wrote) :
    FlowMove s a (s.settle f x).1 (s.settle f x).2 :=
  .same (s.settle_fields f x).1 (s.settle_fields f x).2.1 (s.settle_unbegun x hf)
    fun flow code g now wrote _ h => absurd h (ha flow code g now wrote)

theorem FlowMove.of_drop {flow : Nat} (hf : ∀ y flow, f y ≠ .begun flow)
    (ends : a.ends = some flow) :
    FlowMove s a ((s.drop flow).settle f x).1 ((s.drop flow).settle f x).2 :=
  .dropped ends ((s.drop flow).settle_unbegun x hf) ((s.drop flow).settle_fields f x).1
    ((s.drop flow).settle_fields f x).2.1

theorem FlowMove.of_refused {e : AuthError} {flow : Nat} (ends : a.ends = some flow) :
    FlowMove s a (.refused e) (s.drop flow) :=
  .dropped ends nofun rfl rfl

theorem FlowMove.of_start {f : α → Flow} (of : ∀ y, x.1 = .ok y → Started s a (f y))
    (unended : a.ends = none) :
    FlowMove s a (s.start f x).1 (s.start f x).2 := by
  unfold System.start
  split
  · refine .same rfl rfl nofun fun flow code g now wrote _ h => ?_
    rw [h] at unended
    cases unended
  next y hy => exact .started rfl (of y hy) unended rfl rfl

theorem reserveRecovery_ok {x : RecoveryAttempt}
    (h : (reserveRecovery db challenge now wrote).1 = .ok x) :
    ∃ ch, loadRecovery db challenge now = some (ch, x.state) := by
  unfold reserveRecovery at h
  split at h
  · cases h
  next ch state loaded =>
    split at h
    · cases h
    split at h
    · cases h
    split at h
    · cases h
      exact ⟨ch, loaded⟩
    · cases h

theorem reserveEnrollment_ok {policyEnrollment : Bool} {x : EnrollmentAttempt}
    (h : (reserveEnrollment db challenge policyEnrollment now wrote).1 = .ok x) :
    ∃ e account, loadEnrollment db challenge policyEnrollment now = some (e, account) ∧
      x = ⟨challenge, e.user, account.sessionVersion, db.policy.version, e.attempts + 1⟩ := by
  unfold reserveEnrollment at h
  split at h
  · cases h
  next e account loaded =>
    split at h
    · cases h
    split at h
    · cases h
      exact ⟨e, account, loaded, rfl⟩
    · cases h

theorem step_flows (s : System R) (a : Act R) : FlowMove s a (step P s a).1 (step P s a).2 := by
  have same {o : Output} (ho : ∀ flow, o ≠ .begun flow)
      (ha : ∀ flow code g now wrote x, a = .finishRecovery flow code g now wrote →
        s.flows.get flow ≠ some (.recovery x)) : FlowMove s a o s := .same rfl rfl ho ha
  cases a with
  | setup p => exact .of_settle (by simp) (by simp)
  | bootstrap user hash g now => exact .of_settle (by simp) (by simp)
  | snapshot user =>
    simp only [step]
    split
    · exact same (by simp) (by simp)
    next before hread =>
      split
      · refine .of_start (fun y hy => ?_) rfl
        cases hy
        exact .login hread
      · exact same (by simp) (by simp)
  | finishPassword flow password g now =>
    simp only [step]
    split
    · split
      · exact .of_drop (by simp) rfl
      · exact .of_refused rfl
    · exact same (by simp) (by simp)
  | completeTOTP challenge code g now wrote => exact .of_settle (by simp) (by simp)
  | reserveRecovery challenge now wrote =>
    refine .of_start (fun y hy => ?_) rfl
    obtain ⟨ch, loaded⟩ := reserveRecovery_ok hy
    exact .recovery loaded
  | finishRecovery flow code g now wrote =>
    simp only [step]
    split
    · split
      · exact .of_refused rfl
      · exact .of_drop (by simp) rfl
    next hother =>
      refine same (by simp) fun flow' code' g' now' wrote' x h hheld => ?_
      cases h
      exact hother x hheld
  | beginEnrollment challenge p secret now wrote => exact .of_settle (by simp) (by simp)
  | reserveEnrollment challenge p now wrote =>
    refine .of_start (fun y hy => ?_) rfl
    obtain ⟨e, account, loaded, rfl⟩ := reserveEnrollment_ok hy
    exact .enrollment loaded rfl rfl rfl
  | finishEnrollment flow code hashes g now wrote =>
    simp only [step]
    split
    · exact .of_drop (by simp) rfl
    · exact same (by simp) (by simp)
  | beginReauth token r i now =>
    refine .of_start (fun y hy => ?_) rfl
    exact .reauthBegun hy
  | snapshotReauth flow =>
    simp only [step]
    split
    next token user r i held =>
      split
      · exact .of_refused rfl
      next before hread => exact .replaced rfl rfl (.reauth held hread) rfl rfl
    · exact same (by simp) (by simp)
  | finishReauth flow proof picked now wrote =>
    simp only [step]
    split
    · split
      · exact .of_drop (by simp) rfl
      · exact .of_refused rfl
    · exact same (by simp) (by simp)
  | read token action now =>
    simp only [step]
    split
    · exact same (by simp) (by simp)
    · exact same (by simp) (by simp)
  | touch token r now wrote => exact .of_settle (by simp) (by simp)
  | logout token r now => exact .of_settle (by simp) (by simp)
  | operate token r t o => exact .same rfl rfl (by simp [step]) (by simp)
  | elsewhere rest => exact .same rfl rfl (by simp [step]) (by simp)

theorem exec_flows (s : System R) (a : Act R) : FlowMove s a (exec P s a).1 (exec P s a).2 := by
  cases step_flows (P := P) s a with
  | same flows next unbegun recovery => exact .same flows next unbegun recovery
  | started begun of unended flows next => exact .started begun of unended flows next
  | dropped ends unbegun flows next => exact .dropped ends unbegun flows next
  | replaced begun ends of flows next => exact .replaced begun ends of flows next

theorem System.start_used (s : System R) (f : α → Flow) (x : Except AuthError α × Db R) :
    (s.start f x).2.used = s.used := by
  unfold System.start
  split
  · rfl
  · rfl

theorem exec_used (s : System R) (a : Act R) : (exec P s a).2.used = a.drawn ++ s.used := by
  have h : (step P s a).2.used = s.used := by
    cases a <;> simp only [step] <;> repeat' split
    all_goals first
      | rfl
      | exact (System.settle_fields _ _ _).2.2
      | exact System.start_used _ _ _
  rw [← h]
  rfl

theorem run_of_fresh (s : System R) {as : List (Act R)} (hnodup : (as.flatMap Act.drawn).Nodup)
    (hfresh : ∀ t ∈ as.flatMap Act.drawn, t ∉ s.used) :
    Run (exec P) Allowed s (eventsOf (exec P) s as) (stateAfter (exec P) s as) := by
  induction as generalizing s with
  | nil => exact .nil
  | cons a as ih =>
    rw [List.flatMap_cons] at hnodup hfresh
    obtain ⟨-, hrest, hdisjoint⟩ := List.nodup_append.mp hnodup
    have hfirst : Run (exec P) Allowed s [eventOf (exec P) s a] (exec P s a).2 :=
      .single fun t ht => hfresh t (List.mem_append_left _ ht)
    refine hfirst.append (ih _ hrest fun t ht => ?_)
    rw [exec_used, List.mem_append, not_or]
    exact ⟨fun h => hdisjoint t h t ht rfl, hfresh t (List.mem_append_right _ ht)⟩

end WaitingRoom.Admin
