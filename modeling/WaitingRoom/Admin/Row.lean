import WaitingRoom.Admin.Effect

/-!
# Rows and their owners

A row of a session, a challenge, an enrollment or a proof is made under a token
that was never drawn before, and it keeps its owner as long as it is there.
Versions of accounts and of the policy only grow.
-/

namespace WaitingRoom.Admin

set_option autoImplicit false

variable {R : Type} {P : Platform R} {s : System R} {a : Act R} {o : Output} {db : Db R}

/-! ## What a request with a session has read -/

variable {token t : Token} {now : Time} {v : SessionSnapshot} {ch : Challenge} {acc : Account}
  {op : Operation} {x : Session} {g : Grant} {user : String} {version status : Nat}
  {r : LoginResult} {db' : Db R} {p : Proof}

theorem loadSession_ok (h : loadSession db token now = .ok v) :
    db.sessions.get token = some v.session ∧ v.session.user = v.id ∧
      db.accounts.get v.id = some v.account ∧ v.policy = db.policy ∧ v.now = now ∧
      CheckSession v now := by
  unfold loadSession at h
  split at h
  · cases h
  next session hs =>
    split at h
    · cases h
    next account ha =>
      dsimp only at h
      split at h
      next hc =>
        cases h
        exact ⟨hs, rfl, ha, rfl, rfl, hc⟩
      · cases h

theorem beginCommand_ok {action : Action} {r : Option Request} {sensitive : Bool}
    (h : beginCommand db token action r sensitive now = .ok v) :
    loadSession db token now = .ok v := by
  unfold beginCommand at h
  split at h
  · cases h
  next v' hv =>
    split at h
    · cases h
    split at h
    · cases h
    split at h
    · cases h
      exact hv
    · cases h

theorem loadChallenge_some {c : Credential} (h : loadChallenge db t now = some (ch, acc, c)) :
    db.challenges.get t = some ch ∧ db.accounts.get ch.user = some acc ∧
      db.credentials.get ch.user = some c ∧ ch.userVersion = acc.sessionVersion ∧
      ch.policyVersion = db.policy.version ∧ ch.consumed = false := by
  unfold loadChallenge at h
  split at h
  · cases h
  next ch' hch =>
    split at h
    next acc' c' hacc hc =>
      split at h
      next hok =>
        cases h
        obtain ⟨-, -, -, hpolicy, hversion, hopen, -⟩ := hok
        exact ⟨hch, hacc, hc, hversion, hpolicy, hopen⟩
      · cases h
    · cases h

theorem openForCode_some {c : Credential} (h : openForCode db t now = some (ch, acc, c)) :
    loadChallenge db t now = some (ch, acc, c) ∧ ch.attempts < 5 := by
  have h' := Option.filter_eq_some_iff.mp h
  exact ⟨h'.1, by simpa using h'.2⟩

theorem loadRecovery_some {state : RecoveryState} (h : loadRecovery db t now = some (ch, state)) :
    ∃ acc c, loadChallenge db t now = some (ch, acc, c) ∧
      state = ⟨t, ch.user, c.version, acc.role, db.policy.version, acc.sessionVersion, ch.attempts⟩ := by
  obtain ⟨⟨ch', acc, c⟩, hl, hx⟩ := Option.map_eq_some_iff.mp h
  cases hx
  exact ⟨acc, c, hl, rfl⟩

theorem Executed.body {r : Request} {t : Readings} {reply : Reply} {db db' : Db R}
    (h : Executed P db token r t op reply db') :
    ∃ v proofs commands commands' changed, loadSession db token t.loaded = .ok v ∧
      BodyDoes token { v with now := t.now } op reply.status
        { db with proofs := proofs, commands := commands } changed ∧
      db' = Db.touch { changed with commands := commands' } token t.now := by
  obtain @⟨plan, v, spent, changed, of, begun, -, spends, hbody⟩ := h
  have hv := beginCommand_ok begun
  cases of.spends spends with
  | free => exact ⟨v, _, _, _, changed, hv, of.body_does hbody, rfl⟩
  | proof => exact ⟨v, _, _, _, changed, hv, of.body_does hbody, rfl⟩

theorem reauthFactor_ok {hotp : String → Nat → String} {i : ReauthInput} {used : Option Accepted}
    {next : Db R} (h : reauthFactor hotp db v i = .ok (used, next)) :
    (used = none ∧ next = db) ∨
    ∃ c counter c', db.credentials.get v.id = some c ∧
      verifyAndConsume hotp c i.totp v.now = some (counter, c') ∧
      used = some ⟨v.id, c'.version, counter⟩ ∧
      next = { db with credentials := db.credentials.put v.id c' } := by
  unfold reauthFactor at h
  split at h
  · split at h
    · cases h
    next c hc =>
      split at h
      · cases h
      next counter c' hv =>
        cases h
        exact .inr ⟨c, counter, c', hc, hv, rfl, rfl⟩
  · cases h
    exact .inl ⟨rfl, rfl⟩

/-! ## The fields of derived tables -/

section Fields
variable {id : String} {c : UserChange} {acc : Account}

theorem applyChange_sessions : (applyChange db id c acc).sessions =
    (db.dropSessions fun _ x => x.user = id).sessions := by
  cases c <;> rfl

theorem applyChange_challenges : (applyChange db id c acc).challenges =
    db.challenges.keep fun x => x.user ≠ id := by
  cases c <;> rfl

theorem applyChange_enrollments : (applyChange db id c acc).enrollments =
    db.enrollments.keep fun x => !decide (x.user = id) := by
  cases c <;> rfl

theorem applyChange_proofs : (applyChange db id c acc).proofs =
    (db.dropSessions fun _ x => x.user = id).proofs := by
  cases c <;> rfl

theorem applyChange_accounts : (applyChange db id c acc).accounts =
    db.accounts.put id (c.account acc) := by
  cases c <;> rfl

theorem applyChange_policy : (applyChange db id c acc).policy = db.policy := by
  cases c <;> rfl

theorem applyChange_credentials : (applyChange db id c acc).credentials =
    if c.removesTOTP then db.credentials.del id else db.credentials := by
  cases c <;> rfl

theorem applyChange_codes : (applyChange db id c acc).codes =
    if c.removesTOTP then db.codes.filter fun k _ => k.user ≠ id else db.codes := by
  cases c <;> rfl

end Fields

theorem UserChange.account_version (c : UserChange) (acc : Account) :
    (c.account acc).sessionVersion = acc.sessionVersion + 1 := by
  cases c <;> rfl

/-! ## Sessions -/

theorem get_touch (h : (db.touch token now).sessions.get t = some x) :
    ∃ x₀, db.sessions.get t = some x₀ ∧ x₀.user = x.user := by
  simp only [Db.touch] at h
  split at h
  · exact ⟨x, h, rfl⟩
  next x₁ hx₁ =>
    by_cases ht : t = token
    · subst ht
      rw [Table.get_put_self] at h
      cases h
      exact ⟨x₁, hx₁, rfl⟩
    · rw [Table.get_put_ne ht] at h
      exact ⟨x, h, rfl⟩

theorem get_addSession {policyVersion userVersion : Nat} {mfa : Bool}
    (h : (db.addSession g user policyVersion userVersion mfa now).sessions.get t = some x) :
    t = g.session ∨ db.sessions.get t = some x := by
  by_cases ht : t = g.session
  · exact .inl ht
  · simp only [Db.addSession] at h
    rw [Table.get_put_ne ht] at h
    exact .inr h

theorem get_dropSessions {drops : Token → Session → Bool}
    (h : (db.dropSessions drops).sessions.get t = some x) :
    db.sessions.get t = some x ∧ drops t x = false := by
  have hf := Table.get_filter (fun token x => !drops token x) db.sessions t
  have h' : (db.sessions.filter fun token x => !drops token x).get t = some x := h
  rw [hf, Option.filter_eq_some_iff] at h'
  exact ⟨h'.1, by simpa using h'.2⟩

theorem Issued.session_origin (h : Issued db user version g now r db')
    (hx : db'.sessions.get t = some x) : t = g.session ∨ db.sessions.get t = some x := by
  cases h with
  | enrollment => exact .inr hx
  | challenge => exact .inr hx
  | session => exact get_addSession hx

theorem BodyDoes.session_origin {db db' : Db R} (h : BodyDoes token v op status db db')
    (hx : db'.sessions.get t = some x) :
    db.sessions.get t = some x ∨ ∃ g, op = .changePolicy g ∧ t = g.session := by
  cases h with
  | same => exact .inl hx
  | rest => exact .inl hx
  | created => exact .inl hx
  | changed c acc =>
    rw [applyChange_sessions] at hx
    exact .inl (get_dropSessions hx).1
  | enrolling => exact .inl hx
  | @flipped g =>
    rcases get_addSession hx with rfl | hx
    · exact .inr ⟨g, rfl, rfl⟩
    · exact .inl (get_dropSessions hx).1

theorem session_origin (h : Does P s a o db) (hx : db.sessions.get t = some x) :
    t ∈ a.drawn ∨ ∃ x₀, s.db.sessions.get t = some x₀ ∧ x₀.user = x.user := by
  cases h with
  | idle => exact .inr ⟨x, hx, rfl⟩
  | configured => exact .inr ⟨x, hx, rfl⟩
  | founded _ issued =>
    rcases issued.session_origin hx with rfl | hx
    · exact .inl List.mem_cons_self
    · exact .inr ⟨x, hx, rfl⟩
  | passed _ _ _ issued =>
    rcases issued.session_origin hx with rfl | hx
    · exact .inl List.mem_cons_self
    · exact .inr ⟨x, hx, rfl⟩
  | wrong => exact .inr ⟨x, hx, rfl⟩
  | granted =>
    rcases get_addSession hx with rfl | hx
    · exact .inl List.mem_cons_self
    · exact .inr ⟨x, hx, rfl⟩
  | reserved => exact .inr ⟨x, hx, rfl⟩
  | recovered =>
    rcases get_addSession hx with rfl | hx
    · exact .inl List.mem_cons_self
    · exact .inr ⟨x, hx, rfl⟩
  | prepared => exact .inr ⟨x, hx, rfl⟩
  | enrolled =>
    rcases get_addSession hx with rfl | hx
    · exact .inl List.mem_cons_self
    · exact .inr ⟨x, (get_dropSessions hx).1, rfl⟩
  | proved _ _ factor =>
    rcases reauthFactor_ok factor with ⟨-, rfl⟩ | ⟨c, counter, c', -, -, -, rfl⟩
    · exact .inr ⟨x, hx, rfl⟩
    · exact .inr ⟨x, hx, rfl⟩
  | touched => exact .inr (get_touch hx)
  | loggedOut => exact .inr ⟨x, (get_dropSessions hx).1, rfl⟩
  | operated executed =>
    obtain ⟨v, proofs, commands, commands', changed, -, hbody, rfl⟩ := executed.body
    obtain ⟨x₀, hx₀, huser⟩ := get_touch hx
    rcases hbody.session_origin hx₀ with hx₀ | ⟨g, rfl, rfl⟩
    · exact .inr ⟨x₀, hx₀, huser⟩
    · exact .inl List.mem_cons_self
  | elsewhere => exact .inr ⟨x, hx, rfl⟩

/-! ## Challenges -/

theorem get_closeChallenges (h : (db.closeChallenges user).challenges.get t = some ch) :
    ∃ ch₀, db.challenges.get t = some ch₀ ∧ ch₀.user = ch.user ∧ ch₀.attempts = ch.attempts ∧
      (ch.consumed = false → ch₀.consumed = false) := by
  have h' : (db.challenges.mapVals fun c =>
      if c.user = user then { c with consumed := true } else c).get t = some ch := h
  rw [Table.get_mapVals] at h'
  obtain ⟨ch₀, h₀, hch⟩ := Option.map_eq_some_iff.mp h'
  refine ⟨ch₀, h₀, ?_⟩
  subst hch
  split
  · exact ⟨rfl, rfl, nofun⟩
  · exact ⟨rfl, rfl, id⟩

/-- How a row of a challenge continues one from before: it keeps its owner, it is not
opened again, and its attempts have grown by `n` while it is open. -/
def Challenge.Continues (n : Nat) (ch₀ ch : Challenge) : Prop :=
  ch₀.user = ch.user ∧ (ch.consumed = false → ch₀.consumed = false ∧ ch.attempts = ch₀.attempts + n)

theorem Challenge.Continues.refl (ch : Challenge) : ch.Continues 0 ch := ⟨rfl, fun h => ⟨h, rfl⟩⟩

theorem continues_of_close (h : (db.closeChallenges user).challenges.get t = some ch) :
    ∃ ch₀, db.challenges.get t = some ch₀ ∧ ch₀.Continues 0 ch := by
  obtain ⟨ch₀, h₀, huser, hattempts, hconsumed⟩ := get_closeChallenges h
  exact ⟨ch₀, h₀, huser, fun hc => ⟨hconsumed hc, hattempts.symm⟩⟩

def ChallengeOrigin (db db' : Db R) (drawn : List Token) : Prop :=
  ∀ t ch, db'.challenges.get t = some ch →
    (t ∈ drawn ∧ ch.attempts = 0) ∨ ∃ ch₀, db.challenges.get t = some ch₀ ∧ ch₀.Continues 0 ch

theorem ChallengeOrigin.of_eq {db db' : Db R} {drawn : List Token}
    (h : db'.challenges = db.challenges) : ChallengeOrigin db db' drawn := by
  intro t ch hch
  rw [h] at hch
  exact .inr ⟨ch, hch, .refl ch⟩

theorem Issued.challenge_origin (h : Issued db user version g now r db') :
    ChallengeOrigin db db' [g.session, g.csrf] := by
  cases h with
  | enrollment => exact .of_eq rfl
  | challenge =>
    intro t ch hch
    simp only [Db.issueChallenge] at hch
    by_cases ht : t = g.session
    · subst ht
      rw [Table.get_put_self] at hch
      cases hch
      exact .inl ⟨List.mem_cons_self, rfl⟩
    · rw [Table.get_put_ne ht] at hch
      exact .inr (continues_of_close hch)
  | session => exact .of_eq rfl

theorem BodyDoes.challenge_origin {db db' : Db R} (h : BodyDoes token v op status db db')
    (drawn : List Token) :
    ChallengeOrigin db db' drawn := by
  cases h with
  | same => exact .of_eq rfl
  | rest => exact .of_eq rfl
  | created => exact .of_eq rfl
  | changed =>
    intro t ch hch
    rw [applyChange_challenges, Table.get_keep, Option.filter_eq_some_iff] at hch
    exact .inr ⟨ch, hch.1, .refl ch⟩
  | enrolling => exact .of_eq rfl
  | flipped =>
    intro t ch hch
    cases hch

/-! ## Enrollments -/

theorem get_closeEnrollments {e : Enrollment}
    (h : (db.closeEnrollments user).enrollments.get t = some e) :
    ∃ e₀, db.enrollments.get t = some e₀ ∧ e₀.user = e.user := by
  have h' : (db.enrollments.mapVals fun e =>
      if e.user = user then { e with consumed := true, secret := none } else e).get t = some e := h
  rw [Table.get_mapVals] at h'
  obtain ⟨e₀, h₀, he⟩ := Option.map_eq_some_iff.mp h'
  refine ⟨e₀, h₀, ?_⟩
  subst he
  split
  · rfl
  · rfl

theorem get_dropEnrollments {drops : Enrollment → Bool} {e : Enrollment}
    (h : (db.dropEnrollments drops).enrollments.get t = some e) :
    db.enrollments.get t = some e ∧ drops e = false := by
  have h' : (db.enrollments.keep fun e => !drops e).get t = some e := h
  rw [Table.get_keep, Option.filter_eq_some_iff] at h'
  exact ⟨h'.1, by simpa using h'.2⟩

def EnrollmentOrigin (db db' : Db R) (drawn : List Token) : Prop :=
  ∀ t e, db'.enrollments.get t = some e →
    t ∈ drawn ∨ ∃ e₀, db.enrollments.get t = some e₀ ∧ e₀.user = e.user

theorem EnrollmentOrigin.of_eq {db db' : Db R} {drawn : List Token}
    (h : db'.enrollments = db.enrollments) : EnrollmentOrigin db db' drawn := by
  intro t e he
  rw [h] at he
  exact .inr ⟨e, he, rfl⟩

theorem Issued.enrollment_origin (h : Issued db user version g now r db') :
    EnrollmentOrigin db db' [g.session, g.csrf] := by
  cases h with
  | enrollment =>
    intro t e he
    by_cases ht : t = g.session
    · subst ht
      exact .inl List.mem_cons_self
    · simp only [Db.issueEnrollment] at he
      rw [Table.get_put_ne ht] at he
      exact .inr (get_closeEnrollments he)
  | challenge => exact .of_eq rfl
  | session => exact .of_eq rfl

theorem BodyDoes.enrollment_origin {db db' : Db R} (h : BodyDoes token v op status db db')
    {r : Request} {t : Readings} :
    EnrollmentOrigin db db' (Act.operate token r t op : Act R).drawn := by
  cases h with
  | same => exact .of_eq rfl
  | rest => exact .of_eq rfl
  | created => exact .of_eq rfl
  | changed =>
    intro t e he
    rw [applyChange_enrollments, Table.get_keep, Option.filter_eq_some_iff] at he
    exact .inr ⟨e, he.1, rfl⟩
  | @enrolling challenge =>
    intro t e he
    by_cases ht : t = challenge
    · subst ht
      exact .inl List.mem_cons_self
    · rw [Table.get_put_ne ht] at he
      exact .inr ⟨e, (get_dropEnrollments he).1, rfl⟩
  | flipped =>
    intro t e he
    exact .inr ⟨e, (get_dropEnrollments he).1, rfl⟩

theorem enrollment_origin (h : Does P s a o db) : EnrollmentOrigin s.db db a.drawn := by
  cases h with
  | idle => exact .of_eq rfl
  | configured => exact .of_eq rfl
  | founded _ issued => exact issued.enrollment_origin
  | passed _ _ _ issued => exact issued.enrollment_origin
  | wrong => exact .of_eq rfl
  | granted => exact .of_eq rfl
  | reserved => exact .of_eq rfl
  | recovered => exact .of_eq rfl
  | @prepared _ _ challenge e₀ e' _ _ found keeps =>
    intro t e he
    by_cases ht : t = challenge
    · subst ht
      rw [Table.get_put_self] at he
      cases he
      exact .inr ⟨e₀, found, keeps.1.symm⟩
    · rw [Table.get_put_ne ht] at he
      exact .inr ⟨e, he, rfl⟩
  | enrolled =>
    intro t e he
    exact .inr (get_closeEnrollments he)
  | proved _ _ factor =>
    rcases reauthFactor_ok factor with ⟨-, rfl⟩ | ⟨c, counter, c', -, -, -, rfl⟩
    · exact .of_eq rfl
    · exact .of_eq rfl
  | touched => exact .of_eq rfl
  | loggedOut => exact .of_eq rfl
  | operated executed =>
    obtain ⟨v, proofs, commands, commands', changed, -, hbody, rfl⟩ := executed.body
    exact hbody.enrollment_origin
  | elsewhere => exact .of_eq rfl

/-! ## Proofs -/

/-- How a proof continues one from before: it was issued for the same request and a used
one stays used. -/
def Proof.Continues (p₀ p : Proof) : Prop :=
  p₀.session = p.session ∧ p₀.action = p.action ∧ p₀.target = p.target ∧ p₀.digest = p.digest ∧
    (p₀.consumed = true → p.consumed = true)

theorem Proof.Continues.refl (p : Proof) : p.Continues p := ⟨rfl, rfl, rfl, rfl, id⟩

def Continued (db : Db R) (t : Token) (p : Proof) : Prop :=
  ∃ p₀, db.proofs.get t = some p₀ ∧ p₀.Continues p

theorem Continued.self (h : db.proofs.get t = some p) : Continued db t p :=
  ⟨p, h, .refl p⟩

inductive Made (s : System R) : Act R → Output → Token → Proof → Prop
  | intro {flow : Nat} {proof : Token} {picked : List Token} {now wrote : Time} {token : Token}
      {r : Request} {i : ReauthInput} {before : PasswordSnapshot} {used : Option Accepted} {p : Proof}
      (held : s.flows.get flow = some (.reauth token r i before)) (session : p.session = token)
      (action : p.action = i.action) (target : p.target = i.target.text) (digest : p.digest = i.digest) :
      Made s (.finishReauth flow proof picked now wrote) (.proved used) proof p

theorem Made.drawn (h : Made s a o t p) : t ∈ a.drawn := by
  cases h
  exact List.mem_cons_self

theorem get_proofs_dropSessions {drops : Token → Session → Bool}
    (h : (db.dropSessions drops).proofs.get t = some p) :
    db.proofs.get t = some p ∧ (db.sessions.get p.session).any (drops p.session) = false := by
  have h' : (db.proofs.keep fun p => !(db.sessions.get p.session).any (drops p.session)).get t =
      some p := h
  rw [Table.get_keep, Option.filter_eq_some_iff] at h'
  exact ⟨h'.1, by simpa using h'.2⟩

theorem Issued.proofs (h : Issued db user version g now r db') : db'.proofs = db.proofs := by
  cases h with
  | enrollment => rfl
  | challenge => rfl
  | session => rfl

theorem BodyDoes.proof_origin {db db' : Db R} (h : BodyDoes token v op status db db')
    (hp : db'.proofs.get t = some p) : db.proofs.get t = some p := by
  cases h with
  | same => exact hp
  | rest => exact hp
  | created => exact hp
  | changed =>
    rw [applyChange_proofs] at hp
    exact (get_proofs_dropSessions hp).1
  | enrolling => exact hp
  | @flipped _ _ _ next =>
    have h' : (Db.dropSessions { db with policy := next } fun _ _ => true).proofs.get t = some p := hp
    exact (get_proofs_dropSessions h').1

theorem Spends.proof_origin {r : Request} {plan : Plan R} {db db' : Db R}
    (h : Spends token r plan now db db') (hp : db'.proofs.get t = some p) :
    Continued db t p := by
  cases h with
  | free => exact .self hp
  | @proof t' p' _ _ found =>
    by_cases ht : t = t'
    · subst ht
      rw [Table.get_put_self] at hp
      cases hp
      exact ⟨p', found, rfl, rfl, rfl, rfl, fun _ => rfl⟩
    · rw [Table.get_put_ne ht] at hp
      exact .self hp

theorem Executed.proof_origin {r : Request} {t : Readings} {reply : Reply} {db db' : Db R}
    (h : Executed P db token r t op reply db') {u : Token} (hp : db'.proofs.get u = some p) :
    Continued db u p := by
  obtain ⟨of, begun, -, spends, hbody⟩ := h
  exact (of.spends spends).proof_origin ((of.body_does hbody).proof_origin hp)

theorem get_pruneProofs {picked : List Token}
    (h : (pruneProofs db picked now).proofs.get t = some p) : db.proofs.get t = some p := by
  have h' : (db.proofs.filter fun t p =>
      !(decide (t ∈ picked) && decide (p.expiresAt ≤ now))).get t = some p := h
  rw [Table.get_filter, Option.filter_eq_some_iff] at h'
  exact h'.1

theorem proof_origin (h : Does P s a o db) (hp : db.proofs.get t = some p) :
    Made s a o t p ∨ Continued s.db t p := by
  have keep (heq : db.proofs = s.db.proofs) : Made s a o t p ∨ Continued s.db t p := by
    rw [heq] at hp
    exact .inr (.self hp)
  cases h with
  | idle => exact keep rfl
  | configured => exact keep rfl
  | founded _ issued => exact keep issued.proofs
  | passed _ _ _ issued => exact keep issued.proofs
  | wrong => exact keep rfl
  | granted => exact keep rfl
  | reserved => exact keep rfl
  | recovered => exact keep rfl
  | prepared => exact keep rfl
  | @enrolled _ _ hashes _ _ _ ea =>
    have h' : (Db.dropSessions _ fun _ x => x.user = ea.user).proofs.get t = some p := hp
    exact .inr (.self (get_proofs_dropSessions h').1)
  | @proved _ proof _ _ _ _ _ _ _ _ _ _ held _ factor =>
    by_cases ht : t = proof
    · subst ht
      rw [Table.get_put_self] at hp
      cases hp
      exact .inl (.intro held rfl rfl rfl rfl)
    · rw [Table.get_put_ne ht] at hp
      have hp' := get_pruneProofs hp
      rcases reauthFactor_ok factor with ⟨-, rfl⟩ | ⟨c, counter, c', -, -, -, rfl⟩
      · exact .inr (.self hp')
      · exact .inr (.self hp')
  | touched => exact keep rfl
  | loggedOut => exact .inr (.self (get_proofs_dropSessions hp).1)
  | operated executed => exact .inr (executed.proof_origin hp)
  | elsewhere => exact keep rfl

/-! ## Versions -/

def AccountsGrow (db db' : Db R) : Prop :=
  ∀ id acc, db.accounts.get id = some acc →
    ∃ acc', db'.accounts.get id = some acc' ∧ acc.sessionVersion ≤ acc'.sessionVersion

theorem AccountsGrow.of_eq {db db' : Db R} (h : db'.accounts = db.accounts) : AccountsGrow db db' := by
  intro id acc hacc
  exact ⟨acc, by rw [h]; exact hacc, le_rfl⟩

theorem AccountsGrow.put {db db' : Db R} {id : String} (h : db'.accounts = db.accounts.put id acc)
    (hle : ∀ acc₀, db.accounts.get id = some acc₀ → acc₀.sessionVersion ≤ acc.sessionVersion) :
    AccountsGrow db db' := by
  intro id' acc' hacc'
  rw [h]
  by_cases hid : id' = id
  · subst hid
    exact ⟨acc, Table.get_put_self _ _ _, hle acc' hacc'⟩
  · exact ⟨acc', (Table.get_put_ne hid).trans hacc', le_rfl⟩

theorem Issued.accounts (h : Issued db user version g now r db') : db'.accounts = db.accounts := by
  cases h with
  | enrollment => rfl
  | challenge => rfl
  | session => rfl

theorem BodyDoes.accounts_grow {db db' : Db R} (h : BodyDoes token v op status db db') :
    AccountsGrow db db' := by
  cases h with
  | same => exact .of_eq rfl
  | rest => exact .of_eq rfl
  | created i fresh =>
    refine .put rfl fun acc₀ hacc₀ => ?_
    rw [fresh] at hacc₀
    cases hacc₀
  | changed c acc found =>
    refine .put applyChange_accounts fun acc₀ hacc₀ => ?_
    rw [found] at hacc₀
    cases hacc₀
    rw [c.account_version]
    exact Nat.le_succ _
  | enrolling => exact .of_eq rfl
  | flipped => exact .of_eq rfl

theorem accounts_grow (h : Does P s a o db) : AccountsGrow s.db db := by
  cases h with
  | idle => exact .of_eq rfl
  | configured => exact .of_eq rfl
  | founded empty issued =>
    intro id acc hacc
    rw [empty id] at hacc
    cases hacc
  | passed _ _ _ issued => exact .of_eq issued.accounts
  | wrong => exact .of_eq rfl
  | granted => exact .of_eq rfl
  | reserved => exact .of_eq rfl
  | recovered => exact .of_eq rfl
  | prepared => exact .of_eq rfl
  | enrolled => exact .of_eq rfl
  | proved _ _ factor =>
    rcases reauthFactor_ok factor with ⟨-, rfl⟩ | ⟨c, counter, c', -, -, -, rfl⟩
    · exact .of_eq rfl
    · exact .of_eq rfl
  | touched => exact .of_eq rfl
  | loggedOut => exact .of_eq rfl
  | operated executed =>
    obtain ⟨v, proofs, commands, commands', changed, -, hbody, rfl⟩ := executed.body
    exact hbody.accounts_grow
  | elsewhere => exact .of_eq rfl

theorem Issued.policy (h : Issued db user version g now r db') : db'.policy = db.policy := by
  cases h with
  | enrollment => rfl
  | challenge => rfl
  | session => rfl

theorem BodyDoes.policy_le {db db' : Db R} (h : BodyDoes token v op status db db')
    (hv : v.policy = db.policy) :
    db.policy.version ≤ db'.policy.version := by
  cases h with
  | same => exact le_rfl
  | rest => exact le_rfl
  | created => exact le_rfl
  | changed => rw [applyChange_policy]
  | enrolling => exact le_rfl
  | flipped p now next =>
    rw [hv] at next
    exact (Nat.le_succ _).trans next.ge

theorem policy_le (h : Does P s a o db) : s.db.policy.version ≤ db.policy.version := by
  cases h with
  | idle => exact le_rfl
  | configured => exact Nat.le_succ _
  | founded _ issued =>
    rw [issued.policy]
    exact le_rfl
  | passed _ _ _ issued => rw [issued.policy]
  | wrong => exact le_rfl
  | granted => exact le_rfl
  | reserved => exact le_rfl
  | recovered => exact le_rfl
  | prepared => exact le_rfl
  | enrolled => exact le_rfl
  | proved _ _ factor =>
    rcases reauthFactor_ok factor with ⟨-, rfl⟩ | ⟨c, counter, c', -, -, -, rfl⟩
    · exact le_rfl
    · exact le_rfl
  | touched => exact le_rfl
  | loggedOut => exact le_rfl
  | operated executed =>
    obtain ⟨v, proofs, commands, commands', changed, loaded, hbody, rfl⟩ := executed.body
    exact hbody.policy_le (loadSession_ok loaded).2.2.2.1
  | elsewhere => exact le_rfl

end WaitingRoom.Admin
