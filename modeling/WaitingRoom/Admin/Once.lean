import WaitingRoom.Admin.Revocation

/-!
# Commands run once

The reply of a committed command is kept under its actor and key for a day. Until
then the pair answers only with that reply or with a conflict, and the proof that
the command has used up is never used again.
-/

namespace WaitingRoom.Admin

set_option autoImplicit false

variable {R : Type} {P : Platform R} {s : System R} {a : Act R} {o : Output} {db : Db R}

/-! ## What a fingerprint tells apart -/

/-- The parts of a request that its fingerprint covers. -/
structure Described where
  method : Method
  action : Action
  target : Text
  revision : Text
  raw : Text
  deriving DecidableEq

/-- The description of a request. A draft is about the installation. -/
def describe (P : Platform R) (token : Token) (r : Request) (t : Readings) (op : Operation) :
    Option Described :=
  if op = .replaceDraft then
    some ⟨r.method, .writeConfig, "installation".toList, r.revision, r.raw⟩
  else
    (invocation P token r t op).map fun i => ⟨r.method, i.action, i.target.text, r.revision, r.raw⟩

theorem Method.text_plain (m : Method) : ∀ c ∈ m.text, c ≠ '\x00' ∧ c ≠ '\n' := by
  cases m <;> decide

variable {m m' : Method} {x y y' : Text} {r r' : Request} {token : Token} {t : Readings}
  {op : Operation} {i : Invocation R} {now : Time} {db' : Db R} {row : CommandRow} {reply : Reply}
  {k : String × Text} {p : Proof}

theorem Method.text_injective (h : m.text = m'.text) : m = m' := by
  cases m <;> cases m' <;> first | rfl | exact absurd h (by decide)

theorem Action.text_plain (a : Action) : ∀ c ∈ a.text.toList, c ≠ '\x00' ∧ c ≠ '\n' := by
  cases a <;> decide

def Action.ofText (text : String) : Option Action :=
  [.readDashboard, .readConfig, .writeConfig, .readRuntime, .operateRuntime, .instantOff, .newEpoch,
    .readEvents, .writeEvents, .readLab, .runLab, .readUsers, .writeUsers, .readSecurity,
    .writeTOTPPolicy, .resetUserTOTP, .rotateKeys, .readAudit, .readInstall].find? fun a : Action =>
      a.text = text

theorem Action.ofText_text (a : Action) : Action.ofText a.text = some a := by
  cases a <;> decide

theorem Action.text_injective {a a' : Action} (h : a.text = a'.text) : a = a' := by
  have hsome : some a = some a' := by
    rw [← a.ofText_text, ← a'.ofText_text, h]
  exact Option.some.inj hsome

theorem Request.revision_plain (r : Request) : ∀ c ∈ r.revision, c ≠ '\x00' ∧ c ≠ '\n' := by
  intro c hc
  unfold Request.revision at hc
  cases hp : r.ifMatch.head? with
  | none =>
    rw [hp] at hc
    exact absurd hc List.not_mem_nil
  | some p =>
    rw [hp] at hc
    exact p.plain c hc

theorem separated {c : Char} {x x' y y' : Text} (hx : c ∉ x) (hx' : c ∉ x')
    (h : x ++ c :: y = x' ++ c :: y') : x = x' ∧ y = y' := by
  induction x generalizing x' with
  | nil =>
    cases x' with
    | nil => exact ⟨rfl, (List.cons.inj h).2⟩
    | cons d x' => exact absurd ((List.cons.inj h).1 ▸ List.mem_cons_self) hx'
  | cons d x ih =>
    cases x' with
    | nil => exact absurd ((List.cons.inj h).1.symm ▸ List.mem_cons_self) hx
    | cons d' x' =>
      obtain ⟨rfl, htail⟩ := List.cons.inj h
      obtain ⟨rfl, rfl⟩ := ih (fun hc => hx (List.mem_cons_of_mem _ hc))
        (fun hc => hx' (List.mem_cons_of_mem _ hc)) htail
      exact ⟨rfl, rfl⟩

def Clean (x : Text) : Prop := ∀ c ∈ x, c ≠ '\x00' ∧ c ≠ '\n'

theorem Clean.nul (h : Clean x) : '\x00' ∉ x := fun hc => (h _ hc).1 rfl

theorem Clean.newline (h : Clean x) : '\n' ∉ x := fun hc => (h _ hc).2 rfl

theorem fingerprint_injective {a a' : Action} {x x' : Plain}
    (h : fingerprint m a x.text r.revision y = fingerprint m' a' x'.text r'.revision y') :
    m = m' ∧ a = a' ∧ x.text = x'.text ∧ r.revision = r'.revision ∧ y = y' := by
  unfold fingerprint at h
  rw [List.append_assoc, List.append_assoc] at h
  have h₁ := List.append_cancel_left h
  obtain ⟨hm, h₂⟩ := separated (Clean.nul m.text_plain) (Clean.nul m'.text_plain) h₁
  obtain ⟨ha, h₃⟩ := separated (Clean.nul a.text_plain) (Clean.nul a'.text_plain) h₂
  obtain ⟨hx, h₄⟩ := separated (Clean.nul x.plain) (Clean.nul x'.plain) h₃
  obtain ⟨hr, hy⟩ := separated (Clean.nul r.revision_plain) (Clean.nul r'.revision_plain) h₄
  exact ⟨Method.text_injective hm, Action.text_injective (String.toList_injective ha), hx, hr, hy⟩

theorem draftFingerprint_injective
    (h : draftFingerprint r.revision y = draftFingerprint r'.revision y') :
    r.revision = r'.revision ∧ y = y' := by
  unfold draftFingerprint at h
  rw [List.append_assoc, List.append_assoc] at h
  have h₁ := List.append_cancel_left h
  exact separated (Clean.nul r.revision_plain) (Clean.nul r'.revision_plain) h₁

theorem digest_injective {x x' : Plain}
    (h : actionRequestDigest m x.text r.revision y = actionRequestDigest m' x'.text r'.revision y') :
    m = m' ∧ x.text = x'.text ∧ r.revision = r'.revision ∧ y = y' := by
  unfold actionRequestDigest at h
  rw [List.append_assoc, List.append_assoc] at h
  have h₁ := List.append_cancel_left h
  obtain ⟨hm, h₂⟩ := separated (Clean.newline m.text_plain) (Clean.newline m'.text_plain) h₁
  obtain ⟨hx, h₃⟩ := separated (Clean.newline x.plain) (Clean.newline x'.plain) h₂
  obtain ⟨hr, hy⟩ := separated (Clean.newline r.revision_plain) (Clean.newline r'.revision_plain) h₃
  exact ⟨Method.text_injective hm, hx, hr, hy⟩

theorem fingerprint_ne_draft {a : Action} {x y z revision raw : Text} :
    fingerprint m a x y z ≠ draftFingerprint revision raw := by
  intro h
  have hstart := congrArg (List.take 9) h
  unfold fingerprint draftFingerprint at hstart
  rw [List.append_assoc, List.append_assoc, List.take_append_of_le_length (by decide),
    List.take_append_of_le_length (by decide)] at hstart
  exact absurd hstart (by decide)

theorem invocation_writeConfig (h : invocation P token r t op = some i)
    (ha : i.action = .writeConfig) :
    i.target = publishTarget := by
  cases op with
  | replaceDraft => cases h
  | publish =>
    cases h
    rfl
  | operate room =>
    simp only [invocation] at h
    split at h
    · cases h
    · obtain ⟨c, -, rfl⟩ := Option.map_eq_some_iff.mp h
      cases c <;> cases ha
  | changeEvent | startLab | cancelLab =>
    cases h
    cases ha
  | createUser hash checked =>
    simp only [invocation] at h
    split at h
    · cases h
    · obtain ⟨input, -, rfl⟩ := Option.map_eq_some_iff.mp h
      cases ha
  | changeUser id reset =>
    obtain ⟨c, -, rfl⟩ := Option.map_eq_some_iff.mp h
    cases c <;> cases ha
  | beginPolicyEnrollment challenge =>
    simp only [invocation] at h
    split at h
    · cases h
    · cases h
      cases ha
  | changePolicy g =>
    simp only [invocation] at h
    split at h
    · cases h
    · obtain ⟨enabled, -, rfl⟩ := Option.map_eq_some_iff.mp h
      cases ha

theorem describe_draft :
    describe P token r t .replaceDraft =
      some ⟨r.method, .writeConfig, "installation".toList, r.revision, r.raw⟩ := if_pos rfl

theorem describe_command (h : invocation P token r t op = some i) :
    describe P token r t op = some ⟨r.method, i.action, i.target.text, r.revision, r.raw⟩ := by
  have hop : op ≠ .replaceDraft := by
    rintro rfl
    cases h
  unfold describe
  rw [if_neg hop, h]
  rfl

theorem command_ne_draft (h : invocation P token r t op = some i) :
    describe P token r t op ≠ some ⟨m, .writeConfig, "installation".toList, x, y⟩ := by
  rw [describe_command h]
  intro heq
  obtain ⟨-, ha, ht, -⟩ := Described.mk.inj (Option.some.inj heq)
  rw [invocation_writeConfig h ha] at ht
  exact absurd ht (by decide)

theorem PlanOf.fingerprint_iff {token token' : Token} {t t' : Readings} {op op' : Operation}
    {plan plan' : Plan R} (of : PlanOf P token r t op plan)
    (of' : PlanOf P token' r' t' op' plan') :
    plan.fingerprint = plan'.fingerprint ↔ describe P token r t op = describe P token' r' t' op' := by
  cases of with
  | draft hput =>
    cases of' with
    | draft hput' =>
      rw [describe_draft, describe_draft, hput, hput']
      constructor
      · intro h
        obtain ⟨hrev, hraw⟩ := draftFingerprint_injective h
        rw [hrev, hraw]
      · intro h
        obtain ⟨-, -, -, hrev, hraw⟩ := Described.mk.inj (Option.some.inj h)
        exact congrArg₂ draftFingerprint hrev hraw
    | command called =>
      refine iff_of_false (fun h => fingerprint_ne_draft h.symm) fun h => ?_
      rw [describe_draft] at h
      exact command_ne_draft called h.symm
  | command called =>
    cases of' with
    | draft hput =>
      refine iff_of_false fingerprint_ne_draft fun h => ?_
      rw [describe_draft] at h
      exact command_ne_draft called h
    | command called' =>
      rw [describe_command called, describe_command called']
      constructor
      · intro h
        obtain ⟨hm, ha, ht, hrev, hraw⟩ := fingerprint_injective h
        rw [hm, ha, ht, hrev, hraw]
      · intro h
        obtain ⟨hm, ha, ht, hrev, hraw⟩ := Described.mk.inj (Option.some.inj h)
        simp only [commandPlan]
        rw [hm, ha, ht, hrev, hraw]

/-! ## The kept reply -/

theorem BodyDoes.commands {v : SessionSnapshot} {status : Nat} {db db' : Db R}
    (h : BodyDoes token v op status db db') : db'.commands = db.commands := by
  cases h with
  | same => rfl
  | rest => rfl
  | created => rfl
  | changed c => cases c <;> rfl
  | enrolling => rfl
  | flipped => rfl

theorem Spends.commands {plan : Plan R} {db db' : Db R} (h : Spends token r plan now db db') :
    db'.commands = db.commands := by
  cases h with
  | free => rfl
  | proof => rfl

theorem Issued.commands {user : String} {version : Nat} {g : Grant} {r : LoginResult}
    (h : Issued db user version g now r db') : db'.commands = db.commands := by
  cases h with
  | enrollment => rfl
  | challenge => rfl
  | session => rfl

theorem get_pruneCommands {key k : String × Text} {picked : List (String × Text)} (hk : k ≠ key)
    (hrow : db.commands.get k = some row)
    (hlive : now < row.expiresAt) : (pruneCommands db key picked now).commands.get k = some row := by
  simp only [pruneCommands]
  rw [Table.get_filter, Table.get_del_ne hk, hrow, Option.filter_eq_some_iff]
  refine ⟨rfl, ?_⟩
  simp [Int.not_le.mpr hlive]

theorem Executed.commands_kept {db db' : Db R} (h : Executed P db token r t op reply db')
    (hrow : db.commands.get k = some row) (hlive : t.now < row.expiresAt) :
    db'.commands.get k = some row := by
  obtain @⟨plan, v, spent, changed, of, begun, lapsed, spends, hbody⟩ := h
  have hk : k ≠ (v.id, r.key) := by
    rintro rfl
    exact absurd (lapsed row hrow) (Int.not_le.mpr hlive)
  have hcommands : changed.commands = (pruneCommands db (v.id, r.key) t.picked t.now).commands :=
    (of.body_does hbody).commands.trans (of.spends spends).commands
  simp only [Db.touch]
  rw [Table.get_put_ne hk, hcommands]
  exact get_pruneCommands hk hrow hlive

theorem commands_kept (h : Does P s a o db) (hrow : s.db.commands.get k = some row)
    (clock : ∀ token r t op, a = .operate token r t op → t.now < row.expiresAt) :
    db.commands.get k = some row := by
  cases h with
  | founded _ issued =>
    rw [issued.commands]
    exact hrow
  | passed _ _ _ issued =>
    rw [issued.commands]
    exact hrow
  | proved _ _ factor =>
    rcases reauthFactor_ok factor with ⟨-, rfl⟩ | ⟨c, counter, c', -, -, -, rfl⟩
    · exact hrow
    · exact hrow
  | operated executed => exact executed.commands_kept hrow (clock _ _ _ _ rfl)
  | _ => exact hrow

/-- The account that a request with this session acts for. -/
def actor (s : System R) (token : Token) : Option String :=
  (s.db.sessions.get token).map Session.user

theorem actor_of_begun {action : Action} {r : Option Request} {sensitive : Bool}
    {v : SessionSnapshot}
    (h : beginCommand s.db token action r sensitive now = .ok v) : actor s token = some v.id := by
  obtain ⟨hx, huser, -⟩ := loadSession_ok (beginCommand_ok h)
  rw [actor, hx, Option.map_some, huser]

theorem Executed.leaves (h : Executed P s.db token r t op reply db') :
    ∃ plan u, PlanOf P token r t op plan ∧ actor s token = some u ∧
      db'.commands.get (u, r.key) =
        some ⟨plan.fingerprint, t.now, t.now + replyTTL, reply, plan.sealedFor⟩ := by
  obtain @⟨plan, v, spent, changed, of, begun, lapsed, spends, hbody⟩ := h
  exact ⟨plan, v.id, of, actor_of_begun begun, Table.get_put_self _ _ _⟩

/-- The answers that a request gets while a reply is kept for its actor and key. -/
inductive Answered (same : Prop) (reply : Reply) : Answer → Prop
  | refused (e : AuthError) : Answered same reply (.refused e)
  | malformed {status : Nat} (code : String) (syntactic : status = 400 ∨ status = 428) :
      Answered same reply (.problem status code)
  | replayed (h : same) : Answered same reply (.replayed reply)
  | conflict (h : ¬ same) : Answered same reply (.problem 409 "IDEMPOTENCY_CONFLICT")

theorem operation_kept {token₀ token : Token} {r₀ r : Request} {t₀ t : Readings} {op₀ : Operation}
    (op : Operation) {plan₀ : Plan R} {u : String} (of₀ : PlanOf P token₀ r₀ t₀ op₀ plan₀)
    (hrow : s.db.commands.get (u, r.key) = some row) (hprint : row.requestHash = plan₀.fingerprint)
    (hlive : t.now < row.expiresAt) (hactor : actor s token = some u) :
    Answered (describe P token₀ r₀ t₀ op₀ = describe P token r t op) row.reply
        (operation P s.db token r t op).1 ∧ (operation P s.db token r t op).2 = s.db := by
  rcases operation_cases (P := P) s.db token r t op with ⟨status, code, h, hstatus⟩ | ⟨plan, of, h⟩
  · rw [h]
    exact ⟨.malformed code hstatus, rfl⟩
  · rw [h]
    have hs := serialize_cases of s.db
    generalize (serialize s.db token r t plan).1 = answer,
      (serialize s.db token r t plan).2 = db at hs
    have found {v : SessionSnapshot} (begun : beginCommand s.db token plan.action (some r)
        plan.action.reauthenticates t.loaded = .ok v) :
        s.db.commands.get (v.id, r.key) = some row := by
      obtain rfl := Option.some.inj (hactor.symm.trans (actor_of_begun begun))
      exact hrow
    cases hs with
    | refused e => exact ⟨.refused e, rfl⟩
    | problem status code begun lapsed =>
      exact absurd (lapsed row (found begun)) (Int.not_le.mpr hlive)
    | conflict begun kept differs =>
      obtain rfl := Option.some.inj (kept.symm.trans (found begun))
      refine ⟨.conflict fun hsame => differs ?_, rfl⟩
      rw [hprint]
      exact (of₀.fingerprint_iff of).mpr hsame
    | replayed begun kept same =>
      obtain rfl := Option.some.inj (kept.symm.trans (found begun))
      refine ⟨.replayed ((of₀.fingerprint_iff of).mp ?_), rfl⟩
      rw [← hprint]
      exact same
    | executed hexec =>
      obtain ⟨of', begun, lapsed, spends, hbody⟩ := hexec
      have hu := Option.some.inj (hactor.symm.trans (actor_of_begun begun))
      rw [← hu] at lapsed
      exact absurd (lapsed row hrow) (Int.not_le.mpr hlive)

/-! ## Proofs are used once -/

theorem Made.continues {t : Token} {p₀ p : Proof} (h : Made s a o t p₀) (hc : p₀.Continues p) :
    Made s a o t p := by
  obtain ⟨hsession, haction, htarget, hdigest, -⟩ := hc
  cases h with
  | intro held session action target digest =>
    exact .intro held (hsession.symm.trans session) (haction.symm.trans action)
      (htarget.symm.trans target) (hdigest.symm.trans digest)

theorem made_of_run {rest : R} {h : List (Entry R)} (hr : Run (exec P) Allowed (installed rest) h s)
    {t : Token} (hp : s.db.proofs.get t = some p) :
    ∃ e ∈ h, Made e.before e.input e.output t p := by
  induction hr generalizing p with
  | nil =>
    have hnone : (none : Option Proof) = some p := hp
    cases hnone
  | @snoc h s a _ _ ih =>
    rcases proof_origin (exec_does s a) hp with hmade | ⟨p₀, hp₀, hc⟩
    · exact ⟨eventOf (exec P) s a, List.mem_append_right _ List.mem_cons_self, hmade⟩
    · obtain ⟨e, he, hmade⟩ := ih hp₀
      exact ⟨e, List.mem_append_left _ he, hmade.continues hc⟩

def UsedUp (s : System R) (t : Token) : Prop :=
  t ∈ s.used ∧ ∀ p, s.db.proofs.get t = some p → p.consumed = true

theorem UsedUp.after_exec (hallowed : Allowed s a) {t : Token} (h : UsedUp s t) :
    UsedUp (exec P s a).2 t := by
  refine ⟨?_, fun p hp => ?_⟩
  · rw [exec_used]
    exact List.mem_append_right _ h.1
  · rcases proof_origin (exec_does s a) hp with hmade | ⟨p₀, hp₀, hc⟩
    · exact absurd h.1 (hallowed t hmade.drawn)
    · exact hc.2.2.2.2 (h.2 p₀ hp₀)

theorem Executed.uses {db db' : Db R} (h : Executed P db token r t op reply db') {d : Described}
    (hd : describe P token r t op = some d) (hre : d.action.reauthenticates = true) :
    ∃ u p, r.reauth = [u] ∧ db.proofs.get u = some p ∧ p.consumed = false ∧ p.session = token ∧
      p.action = d.action ∧ p.target = d.target ∧
      (∃ target : Plain, target.text = d.target) ∧
      p.digest = actionRequestDigest r.method d.target r.revision r.raw ∧
      d.method = r.method ∧ d.revision = r.revision ∧ d.raw = r.raw ∧
      ∀ q, db'.proofs.get u = some q → q.consumed = true := by
  obtain @⟨plan, v, spent, changed, of, begun, lapsed, spends, hbody⟩ := h
  have hb := of.body_does hbody
  cases of with
  | draft =>
    rw [describe_draft] at hd
    cases hd
    cases hre
  | command called =>
    rw [describe_command called] at hd
    cases hd
    cases (PlanOf.command called).spends spends with
    | free ordinary =>
      have hno : true = false := hre.symm.trans ordinary
      cases hno
    | @proof u p target sent found session action named digest print unused =>
      obtain ⟨-, -, htarget, -, -⟩ := fingerprint_injective print
      refine ⟨u, p, sent, found, unused, session, action, named.trans htarget.symm, ⟨_, rfl⟩, ?_, rfl, rfl,
        rfl, fun q hq => ?_⟩
      · rw [digest, ← htarget]
      · have hq' := hb.proof_origin hq
        rw [Table.get_put_self] at hq'
        cases hq'
        rfl

/-- The reauthentication that the proof `p` comes from was for exactly the request `d`. -/
def IssuedFor (e : Entry R) (p : Token) (token : Token) (d : Described) : Prop :=
  ∃ flow picked now wrote r₀ i before used, e.input = .finishReauth flow p picked now wrote ∧
    e.output = .proved used ∧ e.before.flows.get flow = some (.reauth token r₀ i before) ∧
    i.action = d.action ∧ i.target.text = d.target ∧
    ∀ (r : Request) (target : Plain),
      i.digest = actionRequestDigest r.method target.text r.revision r.raw ↔
        r.method = d.method ∧ target.text = d.target ∧ r.revision = d.revision ∧ r.raw = d.raw

theorem issuedFor_of_made {e : Entry R} {u : Token} {d : Described} {target : Plain}
    (h : Made e.before e.input e.output u p) (hsession : p.session = token)
    (haction : p.action = d.action) (htarget : p.target = d.target) (hplain : target.text = d.target)
    (hdigest : p.digest = actionRequestDigest r.method d.target r.revision r.raw)
    (hm : d.method = r.method) (hrev : d.revision = r.revision) (hraw : d.raw = r.raw) :
    IssuedFor e u token d := by
  generalize hin : e.input = a, hout : e.output = o at h
  cases h with
  | intro held session action target' digest =>
    rw [← session, hsession] at held
    refine ⟨_, _, _, _, _, _, _, _, hin, hout, held, action.symm.trans haction,
      target'.symm.trans htarget, fun r' x => ?_⟩
    rw [← digest, hdigest, ← hplain, hm, hrev, hraw]
    constructor
    · intro h
      obtain ⟨h₁, h₂, h₃, h₄⟩ := digest_injective h
      exact ⟨h₁.symm, h₂.symm, h₃.symm, h₄.symm⟩
    · rintro ⟨h₁, h₂, h₃, h₄⟩
      rw [h₁, h₂, h₃, h₄]

/-! ## Whole runs -/

/-- No command of the event has read a clock at or past `limit`. -/
def ReadBefore (limit : Time) (e : Entry R) : Prop :=
  ∀ token r t op, e.input = .operate token r t op → t.now < limit

theorem kept_of_run {h : List (Entry R)} {m : System R} (hr : Run (exec P) Allowed s h m)
    (hrow : s.db.commands.get k = some row) (hclock : ∀ e ∈ h, ReadBefore row.expiresAt e) :
    m.db.commands.get k = some row := by
  induction hr with
  | nil => exact hrow
  | @snoc h s a _ _ ih =>
    have hkept := ih fun e he => hclock e (List.mem_append_left _ he)
    refine commands_kept (exec_does s a) hkept fun token r t op ha => ?_
    exact hclock (eventOf (exec P) s a) (List.mem_append_right _ List.mem_cons_self) token r t op ha

/-- A command that has committed is the only one of its actor and key for a day: every
other request is refused, malformed, answered with the kept reply if it is the same
request, or told of the conflict, and changes nothing. The proof it has used was issued
for exactly this request and is used by no other command. -/
theorem commands_commit_once (P : Platform R) {rest : R} {h₁ h₂ : List (Entry R)} {e : Entry R}
    {s : System R} {token : Token} {r : Request} {t : Readings} {op : Operation} {reply : Reply}
    (hr : Run (exec P) Allowed (installed rest) (h₁ ++ e :: h₂) s)
    (hin : e.input = .operate token r t op) (hout : e.output = .answer (.executed reply)) :
    ∃ u d, actor e.before token = some u ∧ describe P token r t op = some d ∧
      ((∀ e' ∈ h₂, ReadBefore (t.now + replyTTL) e') →
        ∀ e' ∈ h₂, ∀ token' r' t' op', e'.input = .operate token' r' t' op' →
          actor e'.before token' = some u → r'.key = r.key →
          ∃ answer, e'.output = .answer answer ∧
            Answered (some d = describe P token' r' t' op') reply answer ∧
            e'.after.db = e'.before.db) ∧
      (d.action.reauthenticates = true →
        ∃ p, r.reauth = [p] ∧ (∃ e₀ ∈ h₁, IssuedFor e₀ p token d) ∧
          ∀ e' ∈ h₂, ∀ token' r' t' op' reply' d', e'.input = .operate token' r' t' op' →
            e'.output = .answer (.executed reply') → describe P token' r' t' op' = some d' →
            d'.action.reauthenticates = true → r'.reauth ≠ [p]) := by
  obtain ⟨m, hr₁, hr₂⟩ := Run.of_append hr
  obtain ⟨hallowed, he, hlater⟩ := Run.of_cons hr₂
  obtain rfl : e.before = m := by
    rw [he]
    rfl
  have hafter : e.after = (exec P e.before e.input).2 := by
    rw [he]
    rfl
  have executed_of {e' : Entry R} (heq : e' = eventOf (exec P) e'.before e'.input) {token : Token}
      {r : Request} {t : Readings} {op : Operation} {reply : Reply}
      (hin : e'.input = .operate token r t op) (hout : e'.output = .answer (.executed reply)) :
      Executed P e'.before.db token r t op reply (exec P e'.before e'.input).2.db := by
    have hdoes := exec_does (P := P) e'.before e'.input
    have ho : (exec P e'.before e'.input).1 = .answer (.executed reply) := by
      rw [heq] at hout
      exact hout
    rw [ho, hin] at hdoes
    rw [hin]
    exact hdoes.executed
  have hexec := executed_of he hin hout
  obtain ⟨plan, u, of, hactor, hrow⟩ := hexec.leaves
  obtain ⟨d, hd⟩ : ∃ d, describe P token r t op = some d := by
    cases of with
    | draft => exact ⟨_, describe_draft⟩
    | command called => exact ⟨_, describe_command called⟩
  refine ⟨u, d, hactor, hd, fun hclock e' he' token' r' t' op' hin' hactor' hkey => ?_, fun hre => ?_⟩
  · obtain ⟨h₃, h₄, rfl, hr₃, -, heq, -⟩ := hlater.split he'
    have hkept := kept_of_run hr₃ (by rw [hafter]; exact hrow) fun e'' he'' =>
      hclock e'' (List.mem_append_left _ he'')
    rw [← hkey] at hkept
    have hlive : t'.now < t.now + replyTTL := hclock e' he' token' r' t' op' hin'
    obtain ⟨hans, hsame⟩ := operation_kept op' of hkept rfl hlive hactor'
    rw [hd] at hans
    rw [heq, hin']
    exact ⟨_, rfl, hans, hsame⟩
  · obtain ⟨p, row, hsent, hfound, -, hsession, haction, htarget, ⟨target, hplain⟩, hdigest, hm, hrev, hraw,
      hspent⟩ := hexec.uses hd hre
    refine ⟨p, hsent, ?_, fun e' he' token' r' t' op' reply' d' hin' hout' hd' hre' hsent' => ?_⟩
    · obtain ⟨e₀, he₀, hmade⟩ := made_of_run hr₁ hfound
      exact ⟨e₀, he₀, issuedFor_of_made hmade hsession haction htarget hplain hdigest hm hrev hraw⟩
    · obtain ⟨h₃, h₄, rfl, hr₃, -, heq, -⟩ := hlater.split he'
      have husedUp : UsedUp e.after p := by
        rw [hafter]
        refine ⟨?_, hspent⟩
        rw [exec_used]
        exact List.mem_append_right _ ((tidy_of_run hr₁).proofs p row hfound)
      have hnow : UsedUp e'.before p :=
        hr₃.invariant (I := (UsedUp · p)) husedUp fun _ _ ih hallowed => ih.after_exec hallowed
      obtain ⟨p', row', hsent₁, hfound', hunused, -⟩ := (executed_of heq hin' hout').uses hd' hre'
      obtain rfl : p' = p := List.head_eq_of_cons_eq (hsent₁.symm.trans hsent')
      rw [hnow.2 row' hfound'] at hunused
      cases hunused

/-! ## A request that is repeated -/

def sampleCreate (now : Time) (raw : Text) : Act Unit :=
  .operate "1" { sampleRequest .post [] "0123456789abcdef" ["3"] with raw := raw } (sampleReadings now)
    (.createUser "q" true)

def sampleFirst : System Unit :=
  stateAfter (exec samplePlatform) (installed ()) (sampleUsers.take 5)

def sampleCreated : Entry Unit := eventOf (exec samplePlatform) sampleFirst (sampleCreate 3 ['x'])

def sampleRepeats : List (Entry Unit) :=
  eventsOf (exec samplePlatform) sampleCreated.after [sampleCreate 4 ['x'], sampleCreate 5 ['y']]

def sampleReply : Reply := ⟨201, ['u'], ['"', 'u', 's', 'e', 'r', '-', '1', '"']⟩

theorem sampleCreated_output : sampleCreated.output = .answer (.executed sampleReply) := by
  decide +kernel

theorem sampleRepeats_inputs {e : Entry Unit} (he : e ∈ sampleRepeats) :
    ∃ now raw, e.input = sampleCreate now raw ∧ now < 3 + replyTTL := by
  have hmem := input_mem_of_event he
  simp only [List.mem_cons, List.not_mem_nil, or_false] at hmem
  rcases hmem with hin | hin
  · exact ⟨4, ['x'], hin, by decide⟩
  · exact ⟨5, ['y'], hin, by decide⟩

theorem sampleRepeats_actors : ∀ e ∈ sampleRepeats, actor e.before "1" = some "a" := by
  decide +kernel

theorem sampleCreated_once :
    sampleRepeats.map Event.output =
      [.answer (.replayed sampleReply), .answer (.problem 409 "IDEMPOTENCY_CONFLICT")] ∧
    (∃ e₀ ∈ eventsOf (exec samplePlatform) (installed ()) (sampleUsers.take 5),
      IssuedFor e₀ "3" "1" ⟨.post, .writeUsers, ['b'], [], ['x']⟩) ∧
    ∀ e ∈ sampleRepeats, ∃ now raw answer, e.input = sampleCreate now raw ∧
      e.output = .answer answer ∧ Answered (['x'] = raw) sampleReply answer ∧
      e.after.db = e.before.db := by
  obtain ⟨u, d, hu, hd, hrepeats, hproof⟩ := commands_commit_once samplePlatform
    (sample_split (sampleUsers.take 5) (sampleCreate 3 ['x'])
      [sampleCreate 4 ['x'], sampleCreate 5 ['y']] (by decide)) rfl sampleCreated_output
  obtain rfl : "a" = u := Option.some.inj ((by decide +kernel : some "a" = _).trans hu)
  have described : ∀ now raw, describe samplePlatform "1"
      { sampleRequest .post [] "0123456789abcdef" ["3"] with raw := raw } (sampleReadings now)
      (.createUser "q" true) = some ⟨.post, .writeUsers, ['b'], [], raw⟩ := fun _ _ => rfl
  obtain rfl := Option.some.inj ((described 3 ['x']).symm.trans hd)
  obtain ⟨p, hp, hissued, -⟩ := hproof rfl
  obtain rfl : "3" = p := List.head_eq_of_cons_eq hp
  refine ⟨by decide +kernel, hissued, fun e he => ?_⟩
  have hclock : ∀ e ∈ sampleRepeats, ReadBefore (3 + replyTTL) e := by
    intro e he token r t op hop
    obtain ⟨now, raw, hin, hlt⟩ := sampleRepeats_inputs he
    cases hin.symm.trans hop
    exact hlt
  obtain ⟨now, raw, hin, -⟩ := sampleRepeats_inputs he
  obtain ⟨answer, hout, hans, hsame⟩ :=
    hrepeats hclock e he "1" _ _ _ hin (sampleRepeats_actors e he) rfl
  rw [described] at hans
  exact ⟨now, raw, answer, hin, hout, by simpa using hans, hsame⟩

end WaitingRoom.Admin
