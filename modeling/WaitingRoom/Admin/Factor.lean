import WaitingRoom.Admin.Row

/-!
# Second factors

The budget of a challenge, the counters of a credential and the slots of its
recovery codes over a whole run of the service.
-/

namespace WaitingRoom.Admin

set_option autoImplicit false

variable {R : Type} {P : Platform R} {s : System R} {a : Act R} {o : Output} {db : Db R}

variable {α β : Type} {t : Token} {ch : Challenge} {h : List (Entry R)} {rest : R} {now : Time}
  {x : Accepted} {db' : Db R} {user : String} {version : Nat} {k : Slot} {r : RecoveryCode}

theorem countP_concat (p : α → Bool) (l : List α) (x : α) :
    (l ++ [x]).countP p = l.countP p + (p x).toNat := by
  rw [List.countP_append, List.countP_singleton]
  cases p x <;> rfl

/-! ## The budget of a challenge -/

/-- Whether the input turned the challenge `t` into a session. -/
def granted (s : System R) (a : Act R) (o : Output) (t : Token) : Bool :=
  match a, o with
  | .completeTOTP c _ _ _ _, .accepted _ => c = t
  | .finishRecovery flow _ _ _ _, .recovered _ =>
    match s.flows.get flow with
    | some (.recovery x) => x.state.challenge = t
    | _ => false
  | _, _ => false

def guessedAt (t : Token) (e : Entry R) : Bool := guessed e.before e.input e.output t

def grantedAt (t : Token) (e : Entry R) : Bool := granted e.before e.input e.output t

theorem granted_of_quiet (h : o.quiet = true) (t : Token) : granted s a o t = false := by
  unfold granted
  split
  · cases h
  · cases h
  · rfl

theorem guessed_row (h : Does P s a o db) (hg : guessed s a o t = true) :
    ∃ ch, s.db.challenges.get t = some ch ∧ ch.consumed = false ∧ ch.attempts < 5 := by
  unfold guessed at hg
  split at hg
  next c code g now wrote =>
    simp only [Bool.and_eq_true, decide_eq_true_eq] at hg
    obtain ⟨⟨rfl, hopen⟩, -⟩ := hg
    obtain ⟨⟨ch, acc, cred⟩, hx⟩ := Option.isSome_iff_exists.mp hopen
    obtain ⟨hload, hroom⟩ := openForCode_some hx
    obtain ⟨hch, -, -, -, -, hconsumed⟩ := loadChallenge_some hload
    exact ⟨ch, hch, hconsumed, hroom⟩
  next c now wrote =>
    split at hg
    next flow =>
      obtain rfl : c = t := by simpa using hg
      cases h with
      | idle _ silent =>
        have hno := silent.2 c
        simp [guessed] at hno
      | reserved loaded room =>
        obtain ⟨acc, cred, hload, -⟩ := loadRecovery_some loaded
        obtain ⟨hch, -, -, -, -, hconsumed⟩ := loadChallenge_some hload
        exact ⟨_, hch, hconsumed, room⟩
      | prepared silent =>
        have hno := silent.2 c
        simp [guessed] at hno
    · cases hg
  · cases hg

theorem granted_row (h : Does P s a o db) (hg : granted s a o t = true) :
    ∃ ch, s.db.challenges.get t = some ch ∧ ch.consumed = false := by
  cases h with
  | idle _ silent =>
    rw [granted_of_quiet silent.1] at hg
    cases hg
  | prepared silent =>
    rw [granted_of_quiet silent.1] at hg
    cases hg
  | granted opened =>
    obtain ⟨hch, -, -, -, -, hconsumed⟩ := loadChallenge_some (openForCode_some opened).1
    obtain rfl : _ = t := by simpa [granted] using hg
    exact ⟨_, hch, hconsumed⟩
  | recovered held loaded =>
    obtain ⟨acc, cred, hload, -⟩ := loadRecovery_some loaded
    obtain ⟨hch, -, -, -, -, hconsumed⟩ := loadChallenge_some hload
    obtain rfl : _ = t := by simpa [granted, held] using hg
    exact ⟨_, hch, hconsumed⟩
  | _ => cases hg

/-- Where a challenge comes from: it was just made, or it is one from before with the same
owner; if it is open, it was open, was not granted, and has one attempt more for a guess. -/
def ChallengeMove (s : System R) (a : Act R) (o : Output) (t : Token) (ch : Challenge) : Prop :=
  (t ∈ a.drawn ∧ ch.attempts = 0) ∨
    ∃ ch₀, s.db.challenges.get t = some ch₀ ∧ ch₀.user = ch.user ∧
      (ch.consumed = false → ch₀.consumed = false ∧
        ch.attempts = ch₀.attempts + (guessed s a o t).toNat ∧ granted s a o t = false)

theorem ChallengeMove.of_origin {drawn : List Token} (h : ChallengeOrigin s.db db drawn)
    (hdrawn : ∀ t ∈ drawn, t ∈ a.drawn) (hch : db.challenges.get t = some ch)
    (hguess : guessed s a o t = false) (hgrant : granted s a o t = false) :
    ChallengeMove s a o t ch := by
  rcases h t ch hch with ⟨ht, h0⟩ | ⟨ch₀, h₀, huser, hc⟩
  · exact .inl ⟨hdrawn t ht, h0⟩
  · refine .inr ⟨ch₀, h₀, huser, fun hopen => ?_⟩
    obtain ⟨hopen₀, hattempts⟩ := hc hopen
    refine ⟨hopen₀, ?_, hgrant⟩
    rw [hguess]
    exact hattempts

theorem ChallengeMove.of_put {t t' : Token} {ch ch₀ ch' : Challenge}
    (hch : (s.db.challenges.put t' ch').get t = some ch)
    (found : s.db.challenges.get t' = some ch₀) (user : ch₀.user = ch'.user)
    (self : ch'.consumed = false → ch₀.consumed = false ∧
      ch'.attempts = ch₀.attempts + (guessed s a o t').toNat ∧ granted s a o t' = false)
    (others : t ≠ t' → guessed s a o t = false ∧ granted s a o t = false) :
    ChallengeMove s a o t ch := by
  by_cases ht : t = t'
  · subst ht
    rw [Table.get_put_self] at hch
    cases hch
    exact .inr ⟨ch₀, found, user, self⟩
  · rw [Table.get_put_ne ht] at hch
    obtain ⟨hguess, hgrant⟩ := others ht
    refine .inr ⟨ch, hch, rfl, fun hopen => ⟨hopen, ?_, hgrant⟩⟩
    rw [hguess]
    rfl

theorem challenge_move (h : Does P s a o db) (hch : db.challenges.get t = some ch) :
    ChallengeMove s a o t ch := by
  have keep (heq : db.challenges = s.db.challenges) (hguess : guessed s a o t = false)
      (hgrant : granted s a o t = false) : ChallengeMove s a o t ch := by
    refine .of_origin (ChallengeOrigin.of_eq heq : ChallengeOrigin s.db db []) ?_ hch hguess hgrant
    exact fun _ h => absurd h List.not_mem_nil
  cases h with
  | idle _ silent => exact keep rfl (silent.2 t) (granted_of_quiet silent.1 t)
  | configured => exact keep rfl rfl rfl
  | founded _ issued =>
    refine .of_origin issued.challenge_origin ?_ hch rfl rfl
    exact fun _ h => h
  | passed _ _ _ issued =>
    refine .of_origin issued.challenge_origin ?_ hch rfl rfl
    exact fun _ h => h
  | wrong opened =>
    obtain ⟨hload, hroom⟩ := openForCode_some opened
    obtain ⟨hrow, -, -, -, -, hconsumed⟩ := loadChallenge_some hload
    refine .of_put hch hrow rfl (fun _ => ⟨hconsumed, ?_, rfl⟩) fun ht => ⟨?_, rfl⟩
    · simp [guessed, opened, Challenge.failed]
    · simp [guessed, Ne.symm ht]
  | granted opened =>
    obtain ⟨hload, -⟩ := openForCode_some opened
    obtain ⟨hrow, -⟩ := loadChallenge_some hload
    refine .of_put hch hrow rfl (by rintro ⟨⟩) fun ht => ⟨?_, ?_⟩
    · simp [guessed, Ne.symm ht]
    · simp [granted, Ne.symm ht]
  | reserved loaded =>
    obtain ⟨acc, cred, hload, -⟩ := loadRecovery_some loaded
    obtain ⟨hrow, -, -, -, -, hconsumed⟩ := loadChallenge_some hload
    refine .of_put hch hrow rfl (fun _ => ⟨hconsumed, ?_, rfl⟩) fun ht => ⟨?_, rfl⟩
    · simp [guessed]
    · simp [guessed, Ne.symm ht]
  | recovered held loaded =>
    obtain ⟨acc, cred, hload, -⟩ := loadRecovery_some loaded
    obtain ⟨hrow, -⟩ := loadChallenge_some hload
    refine .of_put hch hrow rfl (by rintro ⟨⟩) fun ht => ⟨rfl, ?_⟩
    simp [granted, held, Ne.symm ht]
  | prepared silent => exact keep rfl (silent.2 t) (granted_of_quiet silent.1 t)
  | enrolled =>
    obtain ⟨ch₀, h₀, huser, hc⟩ := continues_of_close hch
    refine .inr ⟨ch₀, h₀, huser, fun hopen => ?_⟩
    exact ⟨(hc hopen).1, (hc hopen).2, rfl⟩
  | proved _ _ factor =>
    rcases reauthFactor_ok factor with ⟨-, rfl⟩ | ⟨c, counter, c', -, -, -, rfl⟩
    · exact keep rfl rfl rfl
    · exact keep rfl rfl rfl
  | touched => exact keep rfl rfl rfl
  | loggedOut => exact keep rfl rfl rfl
  | operated executed =>
    obtain ⟨v, proofs, commands, commands', changed, -, hbody, rfl⟩ := executed.body
    refine .of_origin (hbody.challenge_origin []) ?_ hch rfl rfl
    exact fun _ h => absurd h List.not_mem_nil
  | elsewhere => exact keep rfl rfl rfl

structure Budget (h : List (Entry R)) (s : System R) (t : Token) : Prop where
  guesses : h.countP (guessedAt t) ≤ 5
  grants : h.countP (grantedAt t) ≤ 1
  remaining : ∀ ch, s.db.challenges.get t = some ch → ch.consumed = false →
    h.countP (guessedAt t) ≤ ch.attempts ∧ ch.attempts ≤ 5 ∧ h.countP (grantedAt t) = 0
  fresh : t ∉ s.used →
    s.db.challenges.get t = none ∧ h.countP (guessedAt t) = 0 ∧ h.countP (grantedAt t) = 0

theorem no_answer (h : Does P s a o db) (hnone : s.db.challenges.get t = none) :
    guessed s a o t = false ∧ granted s a o t = false := by
  constructor
  · rw [Bool.eq_false_iff]
    intro hg
    obtain ⟨ch, hch, -⟩ := guessed_row h hg
    rw [hnone] at hch
    cases hch
  · rw [Bool.eq_false_iff]
    intro hg
    obtain ⟨ch, hch, -⟩ := granted_row h hg
    rw [hnone] at hch
    cases hch

theorem Budget.snoc (hb : Budget h s t) (hallowed : Allowed s a) :
    Budget (h ++ [eventOf (exec P) s a]) (exec P s a).2 t := by
  have hdoes := exec_does (P := P) s a
  set o := (exec P s a).1 with ho
  have hguess : (h ++ [eventOf (exec P) s a]).countP (guessedAt t) =
      h.countP (guessedAt t) + (guessed s a o t).toNat := countP_concat _ _ _
  have hgrant : (h ++ [eventOf (exec P) s a]).countP (grantedAt t) =
      h.countP (grantedAt t) + (granted s a o t).toNat := countP_concat _ _ _
  refine ⟨?_, ?_, fun ch hch hopen => ?_, fun ht => ?_⟩
  · rw [hguess]
    cases hg : guessed s a o t with
    | false => exact hb.guesses
    | true =>
      obtain ⟨ch, hch, hopen, hroom⟩ := guessed_row hdoes hg
      have hle := (hb.remaining ch hch hopen).1
      simp only [Bool.toNat_true]
      omega
  · rw [hgrant]
    cases hg : granted s a o t with
    | false => exact hb.grants
    | true =>
      obtain ⟨ch, hch, hopen⟩ := granted_row hdoes hg
      rw [(hb.remaining ch hch hopen).2.2]
      exact le_rfl
  · rw [hguess, hgrant]
    rcases challenge_move hdoes hch with ⟨hdrawn, h0⟩ | ⟨ch₀, h₀, -, hmove⟩
    · obtain ⟨hnone, hg0, hr0⟩ := hb.fresh (hallowed t hdrawn)
      obtain ⟨hng, hnr⟩ := no_answer hdoes hnone
      rw [hg0, hr0, hng, hnr, h0]
      exact ⟨le_rfl, Nat.zero_le _, rfl⟩
    · obtain ⟨hopen₀, hattempts, hno⟩ := hmove hopen
      obtain ⟨hle, h5, hr0⟩ := hb.remaining ch₀ h₀ hopen₀
      rw [hno, hr0, hattempts]
      refine ⟨Nat.add_le_add_right hle _, ?_, rfl⟩
      cases hg : guessed s a o t with
      | false => exact h5
      | true =>
        obtain ⟨ch', hch', -, hroom⟩ := guessed_row hdoes hg
        rw [h₀] at hch'
        cases hch'
        exact hroom
  · rw [exec_used, List.mem_append, not_or] at ht
    obtain ⟨hnone, hg0, hr0⟩ := hb.fresh ht.2
    obtain ⟨hng, hnr⟩ := no_answer hdoes hnone
    rw [hguess, hgrant, hg0, hr0, hng, hnr]
    refine ⟨?_, rfl, rfl⟩
    rw [Option.eq_none_iff_forall_ne_some]
    intro ch hch
    rcases challenge_move hdoes hch with ⟨hdrawn, -⟩ | ⟨ch₀, h₀, -⟩
    · exact ht.1 hdrawn
    · rw [hnone] at h₀
      cases h₀

theorem budget_of_run (hr : Run (exec P) Allowed (installed rest) h s) (t : Token) :
    Budget h s t := by
  induction hr with
  | nil => exact ⟨Nat.zero_le _, Nat.zero_le _, nofun, fun _ => ⟨rfl, rfl, rfl⟩⟩
  | snoc a _ hallowed ih => exact ih.snoc hallowed

/-! ## Answers to reserved attempts -/

def Flow.isRecovery (t : Token) : Flow → Bool
  | .recovery x => x.state.challenge = t
  | _ => false

/-- Whether the input answered a guess at the challenge `t`, of a code or of a recovery
code. -/
def answered (s : System R) (a : Act R) (o : Output) (t : Token) : Bool :=
  match a with
  | .completeTOTP _ _ _ _ _ => guessed s a o t
  | .finishRecovery flow _ _ _ _ => (s.flows.get flow).any (Flow.isRecovery t)
  | _ => false

def answeredAt (t : Token) (e : Entry R) : Bool := answered e.before e.input e.output t

def Numbered (s : System R) : Prop := ∀ id f, s.flows.get id = some f → id < s.next

theorem Numbered.next_free (h : Numbered s) : s.flows.get s.next = none := by
  rw [Option.eq_none_iff_forall_ne_some]
  exact fun f hf => lt_irrefl _ (h s.next f hf)

theorem Numbered.count_put (h : Numbered s) (t : Token) (f : Flow) :
    (s.flows.put s.next f).count (Flow.isRecovery t) =
      s.flows.count (Flow.isRecovery t) + (f.isRecovery t).toNat := by
  rw [Table.count_put, Table.count_del_of_none _ h.next_free]
  cases f.isRecovery t <;> rfl

theorem Numbered.drop (h : Numbered s) (flow : Nat) : Numbered (s.drop flow) := by
  intro id f hf
  exact h id f (Table.get_of_get_del hf)

theorem Numbered.of_flows {s' : System R} (h : Numbered s) (hflows : s'.flows = s.flows)
    (hnext : s'.next = s.next) : Numbered s' := by
  intro id f hf
  rw [hflows] at hf
  rw [hnext]
  exact h id f hf

theorem Numbered.put {s' : System R} (h : Numbered s) {f : Flow}
    (hflows : s'.flows = s.flows.put s.next f) (hnext : s'.next = s.next + 1) : Numbered s' := by
  intro id g hg
  rw [hflows] at hg
  rw [hnext]
  by_cases hid : id = s.next
  · exact hid ▸ Nat.lt_succ_self _
  · rw [Table.get_put_ne hid] at hg
    exact (h id g hg).trans (Nat.lt_succ_self _)

theorem count_drop (s : System R) (flow : Nat) (t : Token) :
    (s.drop flow).flows.count (Flow.isRecovery t) +
      ((s.flows.get flow).any (Flow.isRecovery t)).toNat = s.flows.count (Flow.isRecovery t) := by
  cases hf : s.flows.get flow with
  | none =>
    have h := Table.count_del_of_none (Flow.isRecovery t) hf
    exact h
  | some f =>
    have h := Table.count_del_add (Flow.isRecovery t) hf
    rw [← h]
    cases hr : f.isRecovery t <;> simp [System.drop, hr]

theorem Numbered.after_exec (h : Numbered s) (a : Act R) : Numbered (exec P s a).2 := by
  cases exec_flows (P := P) s a with
  | same flows next => exact h.of_flows flows next
  | started _ _ _ flows next => exact h.put flows next
  | @dropped flow _ _ flows next => exact (h.drop flow).of_flows flows next
  | @replaced flow _ _ _ _ flows next => exact (h.drop flow).put flows next

theorem isRecovery_started {f : Flow} (h : Started s a f) (id : Nat) (t : Token) :
    f.isRecovery t = guessed s a (.begun id) t := by
  cases h with
  | recovery loaded =>
    obtain ⟨acc, c, -, hstate⟩ := loadRecovery_some loaded
    simp [Flow.isRecovery, guessed, hstate]
  | _ => rfl

theorem answered_ends {flow : Nat} (ends : a.ends = some flow) (t : Token) :
    (answered s a o t).toNat ≤ ((s.flows.get flow).any (Flow.isRecovery t)).toNat := by
  unfold answered
  split
  · cases ends
  · cases ends
    exact le_rfl
  · exact Nat.zero_le _

/-- What an input does to the number of flows that wait with a recovery code for `t`,
together with the guesses it has answered and made. -/
theorem flow_balance (hn : Numbered s) (a : Act R) (t : Token) :
    (exec P s a).2.flows.count (Flow.isRecovery t) + (answered s a (exec P s a).1 t).toNat ≤
      s.flows.count (Flow.isRecovery t) + (guessed s a (exec P s a).1 t).toNat := by
  have hmove := exec_flows (P := P) s a
  generalize (exec P s a).1 = o, (exec P s a).2 = s' at hmove
  cases hmove with
  | same flows next unbegun recovery =>
    rw [flows]
    refine Nat.add_le_add_left ?_ _
    unfold answered
    split
    · exact le_rfl
    next flow code g now wrote =>
      cases hf : s.flows.get flow with
      | none => exact Nat.zero_le _
      | some f =>
        cases f with
        | recovery x => exact absurd hf (recovery flow code g now wrote x rfl)
        | _ => exact Nat.zero_le _
    · exact Nat.zero_le _
  | started begun of unended flows next =>
    subst begun
    rw [flows, hn.count_put, isRecovery_started of s.next t]
    have hno : answered s a (.begun s.next) t = false := by
      cases of <;> rfl
    rw [hno]
    exact le_rfl
  | @dropped flow ends unbegun flows next =>
    have hcount := count_drop s flow t
    have hanswer := answered_ends (s := s) (o := o) ends t
    have hflows : s'.flows = (s.drop flow).flows := flows
    rw [hflows]
    omega
  | @replaced flow f begun ends of flows next =>
    subst begun ends
    have hcount := count_drop s flow t
    have hput := (hn.drop flow).count_put t f
    have hflows : s'.flows = (s.drop flow).flows.put (s.drop flow).next f := flows
    rw [isRecovery_started of s.next t] at hput
    rw [hflows, hput]
    exact Nat.add_le_add_right ((Nat.le_add_right _ _).trans hcount.le) _

theorem answered_le_guessed (hr : Run (exec P) Allowed (installed rest) h s) (t : Token) :
    Numbered s ∧
      h.countP (answeredAt t) + s.flows.count (Flow.isRecovery t) ≤ h.countP (guessedAt t) := by
  induction hr with
  | nil =>
    refine ⟨fun id f hf => ?_, by simp [installed]⟩
    have hnone : (none : Option Flow) = some f := hf
    cases hnone
  | @snoc h s a _ _ ih =>
    obtain ⟨hn, hle⟩ := ih
    refine ⟨hn.after_exec a, ?_⟩
    have hbalance := flow_balance (P := P) hn a t
    have hanswer : (h ++ [eventOf (exec P) s a]).countP (answeredAt t) =
        h.countP (answeredAt t) + (answered s a (exec P s a).1 t).toNat := countP_concat _ _ _
    have hguess : (h ++ [eventOf (exec P) s a]).countP (guessedAt t) =
        h.countP (guessedAt t) + (guessed s a (exec P s a).1 t).toNat := countP_concat _ _ _
    omega

/-! ## Credentials and their counters -/

def acceptedOf : Output → Option Accepted
  | .accepted x | .enrolled x | .proved (some x) => some x
  | _ => none

def createdOf : Output → Option Accepted
  | .enrolled x => some x
  | _ => none

def recoveredOf : Output → Option Slot
  | .recovered k => some k
  | _ => none

theorem acceptedOf_of_quiet (h : o.quiet = true) : acceptedOf o = none := by
  cases o <;> first | rfl | cases h

theorem verifyAndConsume_some {hotp : String → Nat → String} {c c' : Credential} {code : String}
    {counter : Nat} (h : verifyAndConsume hotp c code now = some (counter, c')) :
    c'.version = c.version ∧ c.lastCounter < counter ∧ c'.lastCounter = counter := by
  obtain ⟨n, -, hn⟩ := Option.bind_eq_some_iff.mp h
  obtain ⟨c₁, hc, hx⟩ := Option.map_eq_some_iff.mp hn
  cases hx
  unfold Credential.consume at hc
  split at hc
  next hlt =>
    cases hc
    exact ⟨rfl, hlt.2, rfl⟩
  · cases hc

/-- What an input does to the credential of a user, given the code it accepted of them. -/
inductive CredentialMove (db db' : Db R) (u : String) : Option Accepted → Prop
  | kept (same : db'.credentials.get u = db.credentials.get u) : CredentialMove db db' u none
  | used {c c' : Credential} {x : Accepted} (before : db.credentials.get u = some c)
      (after : db'.credentials.get u = some c') (version : c'.version = c.version)
      (accepted : x.version = c.version) (later : c.lastCounter < x.counter)
      (last : c'.lastCounter = x.counter) : CredentialMove db db' u (some x)
  | created {acc : Account} {c' : Credential} {x : Accepted} (before : db.credentials.get u = none)
      (account : db.accounts.get u = some acc) (after : db'.credentials.get u = some c')
      (accepted : x.version = acc.sessionVersion) (version : c'.version = x.version)
      (last : c'.lastCounter = x.counter) : CredentialMove db db' u (some x)
  | removed {acc acc' : Account} (account : db.accounts.get u = some acc)
      (after : db'.accounts.get u = some acc') (newer : acc.sessionVersion < acc'.sessionVersion)
      (gone : db'.credentials.get u = none) : CredentialMove db db' u none

def acceptedFor (o : Output) (u : String) : Option Accepted := (acceptedOf o).filter (·.user = u)

theorem acceptedFor_none (h : acceptedOf o = none) (u : String) : acceptedFor o u = none := by
  rw [acceptedFor, h]
  rfl

theorem acceptedFor_self (h : acceptedOf o = some x) : acceptedFor o x.user = some x := by
  simp [acceptedFor, h]

theorem acceptedFor_ne {u : String} (h : acceptedOf o = some x) (hne : u ≠ x.user) :
    acceptedFor o u = none := by
  simp [acceptedFor, h, Ne.symm hne]

theorem CredentialMove.of_verify {c c' : Credential} {hotp : String → Nat → String} {code : String}
    {counter : Nat} (found : db.credentials.get user = some c)
    (consumed : verifyAndConsume hotp c code now = some (counter, c'))
    (hput : db'.credentials = db.credentials.put user c')
    (ho : acceptedOf o = some x) (hx : x = ⟨user, c'.version, counter⟩) (u : String) :
    CredentialMove db db' u (acceptedFor o u) := by
  obtain ⟨hversion, hlater, hlast⟩ := verifyAndConsume_some consumed
  subst hx
  by_cases hu : u = user
  · subst hu
    rw [acceptedFor_self ho]
    refine .used found ?_ hversion hversion hlater hlast
    rw [hput, Table.get_put_self]
  · rw [acceptedFor_ne ho hu]
    refine .kept ?_
    rw [hput, Table.get_put_ne hu]

theorem Issued.credentials {g : Grant} {r : LoginResult} (h : Issued db user version g now r db') :
    db'.credentials = db.credentials := by
  cases h with
  | enrollment => rfl
  | challenge => rfl
  | session => rfl

theorem BodyDoes.credential_move {token : Token} {v : SessionSnapshot} {op : Operation} {status : Nat}
    {db db' : Db R} (h : BodyDoes token v op status db db') (u : String) :
    CredentialMove db db' u none := by
  cases h with
  | same => exact .kept rfl
  | rest => exact .kept rfl
  | created => exact .kept rfl
  | @changed id _ _ _ c acc found =>
    by_cases hu : u = id.id
    · subst hu
      cases hc : c.removesTOTP with
      | false =>
        refine .kept ?_
        rw [applyChange_credentials, hc]
        rfl
      | true =>
        have hafter : (applyChange db id.id c acc).accounts.get id.id = some (c.account acc) := by
          rw [applyChange_accounts, Table.get_put_self]
        refine .removed found hafter ?_ ?_
        · rw [c.account_version]
          exact Nat.lt_succ_self _
        · rw [applyChange_credentials, hc]
          exact Table.get_del_self _ _
    · refine .kept ?_
      rw [applyChange_credentials]
      split
      · exact Table.get_del_ne hu
      · rfl
  | enrolling => exact .kept rfl
  | flipped => exact .kept rfl

theorem credential_move (h : Does P s a o db) (u : String) :
    CredentialMove s.db db u (acceptedFor o u) := by
  have keep (heq : db.credentials = s.db.credentials) (ho : acceptedOf o = none) :
      CredentialMove s.db db u (acceptedFor o u) := by
    rw [acceptedFor_none ho]
    exact .kept (by rw [heq])
  cases h with
  | idle _ silent => exact keep rfl (acceptedOf_of_quiet silent.1)
  | configured => exact keep rfl rfl
  | founded _ issued => exact keep issued.credentials rfl
  | passed _ _ _ issued => exact keep issued.credentials rfl
  | wrong => exact keep rfl rfl
  | granted opened consumed =>
    obtain ⟨-, -, hcred, -⟩ := loadChallenge_some (openForCode_some opened).1
    exact .of_verify hcred consumed rfl rfl rfl u
  | reserved => exact keep rfl rfl
  | recovered => exact keep rfl rfl
  | prepared silent => exact keep rfl (acceptedOf_of_quiet silent.1)
  | @enrolled _ _ hashes g _ wrote x _ e account secret counter _ loaded user version policy =>
    obtain ⟨-, hacc, hnone, -⟩ := loadEnrollment_some loaded
    rw [user] at hacc hnone
    by_cases hu : u = x.user
    · subst hu
      have hself : acceptedFor (.enrolled ⟨x.user, x.version, counter⟩) x.user =
          some ⟨x.user, x.version, counter⟩ :=
        acceptedFor_self (x := ⟨x.user, x.version, counter⟩) rfl
      have hafter : (enroll s.db x secret counter hashes g wrote).credentials.get x.user =
          some ⟨x.version, secret, counter⟩ := Table.get_put_self _ _ _
      rw [hself]
      exact .created hnone hacc hafter version.symm rfl rfl
    · have hnone : acceptedFor (.enrolled ⟨x.user, x.version, counter⟩) u = none := acceptedFor_ne rfl hu
      rw [hnone]
      exact .kept (Table.get_put_ne hu)
  | proved _ _ factor =>
    rcases reauthFactor_ok factor with ⟨rfl, rfl⟩ | ⟨c, counter, c', hcred, consumed, rfl, rfl⟩
    · exact keep rfl rfl
    · exact .of_verify hcred consumed rfl rfl rfl u
  | touched => exact keep rfl rfl
  | loggedOut => exact keep rfl rfl
  | operated executed =>
    obtain ⟨v, proofs, commands, commands', changed, -, hbody, rfl⟩ := executed.body
    cases hbody.credential_move u with
    | kept same => exact .kept same
    | removed account after newer gone => exact .removed account after newer gone
  | elsewhere => exact keep rfl rfl

def Anchored (db : Db R) : Prop :=
  ∀ u c, db.credentials.get u = some c →
    ∃ acc, db.accounts.get u = some acc ∧ c.version ≤ acc.sessionVersion

/-- The user has or had a credential of the version `v`. -/
structure Past (db : Db R) (u : String) (v : Nat) (acc : Account) : Prop where
  account : db.accounts.get u = some acc
  le : v ≤ acc.sessionVersion
  lt : db.credentials.get u = none → v < acc.sessionVersion
  current : ∀ c, db.credentials.get u = some c → v ≤ c.version

theorem Anchored.move (h : Anchored db) (hmove : ∀ u, ∃ x, CredentialMove db db' u x)
    (hgrow : AccountsGrow db db') : Anchored db' := by
  intro u c' hc'
  obtain ⟨x, hx⟩ := hmove u
  cases hx with
  | kept same =>
    rw [same] at hc'
    obtain ⟨acc, hacc, hle⟩ := h u c' hc'
    obtain ⟨acc', hacc', hle'⟩ := hgrow u acc hacc
    exact ⟨acc', hacc', hle.trans hle'⟩
  | used before after version =>
    rw [after] at hc'
    cases hc'
    obtain ⟨acc, hacc, hle⟩ := h u _ before
    obtain ⟨acc', hacc', hle'⟩ := hgrow u acc hacc
    exact ⟨acc', hacc', version.le.trans (hle.trans hle')⟩
  | created before account after accepted version =>
    rw [after] at hc'
    cases hc'
    obtain ⟨acc', hacc', hle'⟩ := hgrow u _ account
    exact ⟨acc', hacc', (version.trans accepted).le.trans hle'⟩
  | removed _ _ _ gone =>
    rw [gone] at hc'
    cases hc'

theorem Past.move {u : String} {v : Nat} {acc : Account} {x : Option Accepted} (h : Past db u v acc)
    (hmove : CredentialMove db db' u x) (hgrow : AccountsGrow db db') :
    ∃ acc', Past db' u v acc' := by
  obtain ⟨acc', hacc', hle'⟩ := hgrow u acc h.account
  refine ⟨acc', hacc', h.le.trans hle', fun hnone => ?_, fun c hc => ?_⟩
  · cases hmove with
    | kept same => exact (h.lt (same.symm.trans hnone)).trans_le hle'
    | used _ after =>
      rw [after] at hnone
      cases hnone
    | created _ _ after =>
      rw [after] at hnone
      cases hnone
    | removed account after newer =>
      obtain rfl := Option.some.inj (h.account.symm.trans account)
      obtain rfl := Option.some.inj (hacc'.symm.trans after)
      exact h.le.trans_lt newer
  · cases hmove with
    | kept same => exact h.current c (same.symm.trans hc)
    | used before after version =>
      obtain rfl := Option.some.inj (after.symm.trans hc)
      exact (h.current _ before).trans version.ge
    | created before account after accepted version =>
      obtain rfl := Option.some.inj (after.symm.trans hc)
      obtain rfl := Option.some.inj (h.account.symm.trans account)
      exact (h.lt before).le.trans (version.trans accepted).ge
    | removed _ _ _ gone =>
      rw [gone] at hc
      cases hc

/-- A code was accepted before: its version is in the past of the user, and a credential
that still has this version has a counter that is as late. -/
structure Behind (db : Db R) (x : Accepted) : Prop where
  past : ∃ acc, Past db x.user x.version acc
  counter : ∀ c, db.credentials.get x.user = some c → c.version = x.version → x.counter ≤ c.lastCounter

theorem Behind.move {y : Option Accepted} (h : Behind db x) (hmove : CredentialMove db db' x.user y)
    (hgrow : AccountsGrow db db') : Behind db' x := by
  obtain ⟨acc, hpast⟩ := h.past
  refine ⟨hpast.move hmove hgrow, fun c hc hversion => ?_⟩
  cases hmove with
  | kept same => exact h.counter c (same.symm.trans hc) hversion
  | used before after version accepted later last =>
    obtain rfl := Option.some.inj (after.symm.trans hc)
    have hle := h.counter _ before (version.symm.trans hversion)
    omega
  | created before account after accepted version =>
    obtain rfl := Option.some.inj (after.symm.trans hc)
    obtain rfl := Option.some.inj (hpast.account.symm.trans account)
    have hlt := hpast.lt before
    omega
  | removed _ _ _ gone =>
    rw [gone] at hc
    cases hc

theorem Behind.lt {x y : Accepted} (h : Behind db x) (huser : x.user = y.user)
    (hversion : x.version = y.version) (hmove : CredentialMove db db' y.user (some y)) :
    x.counter < y.counter := by
  rw [← huser] at hmove
  cases hmove with
  | used before after version accepted later last =>
    have hle := h.counter _ before (accepted.symm.trans hversion.symm)
    omega
  | created before account after accepted version =>
    obtain ⟨acc, hpast⟩ := h.past
    obtain rfl := Option.some.inj (hpast.account.symm.trans account)
    have hlt := hpast.lt before
    omega

theorem Behind.of_move {y : Accepted} (hanchored : Anchored db')
    (hmove : CredentialMove db db' y.user (some y)) : Behind db' y := by
  have build {c' : Credential} (after : db'.credentials.get y.user = some c')
      (version : c'.version = y.version) (last : c'.lastCounter = y.counter) : Behind db' y := by
    obtain ⟨acc, hacc, hle⟩ := hanchored y.user c' after
    refine ⟨⟨acc, hacc, version ▸ hle, fun hnone => ?_, fun c hc => ?_⟩, fun c hc _ => ?_⟩
    · rw [after] at hnone
      cases hnone
    · obtain rfl := Option.some.inj (after.symm.trans hc)
      exact version.ge
    · obtain rfl := Option.some.inj (after.symm.trans hc)
      omega
  cases hmove with
  | used before after version accepted later last => exact build after (version.trans accepted.symm) last
  | created before account after accepted version last => exact build after version last

/-! ## Recovery codes -/

theorem get_addCodes {hashes : Vector String 10}
    (h : (db.addCodes user version hashes).codes.get k = some r) :
    (k.user = user ∧ k.version = version) ∨ db.codes.get k = some r := by
  have fold (l : List (String × Nat)) (codes : Table Slot RecoveryCode)
      (h : (l.foldl (fun codes x => codes.put ⟨user, version, x.2⟩ ⟨x.1, false⟩)
        codes).get k = some r) : (k.user = user ∧ k.version = version) ∨ codes.get k = some r := by
    induction l generalizing codes with
    | nil => exact .inr h
    | cons x l ih =>
      rcases ih _ h with hk | hk
      · exact .inl hk
      · by_cases hx : k = ⟨user, version, x.2⟩
        · subst hx
          exact .inl ⟨rfl, rfl⟩
        · exact .inr ((Table.get_put_ne hx).symm.trans hk)
  exact fold _ _ h

/-- Where a recovery code comes from: it was there, unused if it still is, or it belongs to
a credential that was just made. -/
def CodeMove (db : Db R) (o : Output) (k : Slot) (r : RecoveryCode) : Prop :=
  (∃ r₀, db.codes.get k = some r₀ ∧ (r.consumed = false → r₀.consumed = false ∧ o ≠ .recovered k)) ∨
    (db.credentials.get k.user = none ∧
      ∃ acc, db.accounts.get k.user = some acc ∧ k.version = acc.sessionVersion)

theorem BodyDoes.codes {token : Token} {v : SessionSnapshot} {op : Operation} {status : Nat}
    {db db' : Db R} (h : BodyDoes token v op status db db') (hr : db'.codes.get k = some r) :
    db.codes.get k = some r := by
  cases h with
  | same => exact hr
  | rest => exact hr
  | created => exact hr
  | changed =>
    rw [applyChange_codes] at hr
    split at hr
    · rw [Table.get_filter, Option.filter_eq_some_iff] at hr
      exact hr.1
    · exact hr
  | enrolling => exact hr
  | flipped => exact hr

theorem Issued.codes {g : Grant} {r : LoginResult} (h : Issued db user version g now r db') :
    db'.codes = db.codes := by
  cases h with
  | enrollment => rfl
  | challenge => rfl
  | session => rfl

theorem code_move (h : Does P s a o db) (hr : db.codes.get k = some r) :
    CodeMove s.db o k r := by
  have keep (heq : db.codes = s.db.codes) (ho : o ≠ .recovered k) : CodeMove s.db o k r := by
    rw [heq] at hr
    exact .inl ⟨r, hr, fun hc => ⟨hc, ho⟩⟩
  cases h with
  | idle _ silent =>
    refine keep rfl fun ho => ?_
    rw [ho] at silent
    cases silent.1
  | configured => exact keep rfl nofun
  | founded _ issued => exact keep issued.codes nofun
  | passed _ _ _ issued => exact keep issued.codes nofun
  | wrong => exact keep rfl nofun
  | granted => exact keep rfl nofun
  | reserved => exact keep rfl nofun
  | @recovered _ _ _ _ _ _ slot _ state stored _ _ _ _ _ found unused =>
    by_cases hk : k = ⟨state.user, state.version, slot⟩
    · subst hk
      have hr' : (s.db.codes.put ⟨state.user, state.version, slot⟩
          { stored with consumed := true }).get ⟨state.user, state.version, slot⟩ = some r := hr
      rw [Table.get_put_self] at hr'
      cases hr'
      exact .inl ⟨stored, found, nofun⟩
    · refine .inl ⟨r, (Table.get_put_ne hk).symm.trans hr, fun hc => ⟨hc, fun ho => ?_⟩⟩
      cases ho
      exact hk rfl
  | prepared silent =>
    refine keep rfl fun ho => ?_
    rw [ho] at silent
    cases silent.1
  | @enrolled _ _ _ _ _ _ x _ e account _ _ _ loaded user version =>
    obtain ⟨-, hacc, hnone, -⟩ := loadEnrollment_some loaded
    rw [user] at hacc hnone
    rcases get_addCodes hr with ⟨hu, hv⟩ | hr
    · refine .inr ?_
      rw [hu, hv]
      exact ⟨hnone, account, hacc, version.symm⟩
    · exact .inl ⟨r, hr, fun hc => ⟨hc, nofun⟩⟩
  | proved _ _ factor =>
    rcases reauthFactor_ok factor with ⟨-, rfl⟩ | ⟨c, counter, c', -, -, -, rfl⟩
    · exact keep rfl nofun
    · exact keep rfl nofun
  | touched => exact keep rfl nofun
  | loggedOut => exact keep rfl nofun
  | operated executed =>
    obtain ⟨v, proofs, commands, commands', changed, -, hbody, rfl⟩ := executed.body
    exact .inl ⟨r, hbody.codes hr, fun hc => ⟨hc, nofun⟩⟩
  | elsewhere => exact keep rfl nofun

theorem recovered_row (h : Does P s a o db) (ho : o = .recovered k) :
    (∃ r, s.db.codes.get k = some r ∧ r.consumed = false) ∧
      ∃ c, s.db.credentials.get k.user = some c ∧ c.version = k.version := by
  cases h with
  | idle _ silent =>
    rw [ho] at silent
    cases silent.1
  | prepared silent =>
    rw [ho] at silent
    cases silent.1
  | recovered _ loaded _ _ _ found unused =>
    cases ho
    obtain ⟨acc, c, hload, hstate⟩ := loadRecovery_some loaded
    obtain ⟨-, -, hcred, -⟩ := loadChallenge_some hload
    subst hstate
    exact ⟨⟨_, found, unused⟩, c, hcred, rfl⟩
  | _ => cases ho

structure Spent (db : Db R) (k : Slot) : Prop where
  past : ∃ acc, Past db k.user k.version acc
  used : ∀ r, db.codes.get k = some r → r.consumed = true

theorem Spent.move (h : Does P s a o db) (hk : Spent s.db k) : Spent db k := by
  obtain ⟨acc, hpast⟩ := hk.past
  refine ⟨hpast.move (credential_move h k.user) (accounts_grow h), fun r hr => ?_⟩
  rcases code_move h hr with ⟨r₀, hr₀, hopen⟩ | ⟨hnone, acc', hacc', hversion⟩
  · by_contra hc
    have hused := hk.used r₀ hr₀
    rw [(hopen (Bool.eq_false_iff.mpr hc)).1] at hused
    cases hused
  · obtain rfl := Option.some.inj (hpast.account.symm.trans hacc')
    exact absurd hversion (hpast.lt hnone).ne

theorem Spent.of_recovered (h : Does P s a o db) (hanchored : Anchored s.db)
    (ho : o = .recovered k) :
    Spent db k := by
  obtain ⟨-, c, hcred, hversion⟩ := recovered_row h ho
  obtain ⟨acc, hacc, hle⟩ := hanchored k.user c hcred
  have hpast : Past s.db k.user k.version acc := by
    refine ⟨hacc, hversion ▸ hle, fun hnone => ?_, fun c' hc' => ?_⟩
    · rw [hcred] at hnone
      cases hnone
    · obtain rfl := Option.some.inj (hcred.symm.trans hc')
      exact hversion.ge
  refine ⟨hpast.move (credential_move h k.user) (accounts_grow h), fun r hr => ?_⟩
  rcases code_move h hr with ⟨r₀, hr₀, hopen⟩ | ⟨hnone, -⟩
  · by_contra hc
    exact (hopen (Bool.eq_false_iff.mpr hc)).2 ho
  · rw [hcred] at hnone
    cases hnone

/-! ## Whole runs -/

/-- What the past of a run says about the accepted codes and the used slots. -/
structure Settled (h : List (Entry R)) (db : Db R) : Prop where
  anchored : Anchored db
  behind : ∀ x ∈ h.filterMap fun e => acceptedOf e.output, Behind db x
  spent : ∀ k ∈ h.filterMap fun e => recoveredOf e.output, Spent db k
  counters : (h.filterMap fun e => acceptedOf e.output).Pairwise fun x y =>
    x.user = y.user → x.version = y.version → x.counter < y.counter
  versions : (h.filterMap fun e => createdOf e.output).Pairwise fun x y =>
    x.user = y.user → x.version < y.version
  slots : (h.filterMap fun e => recoveredOf e.output).Nodup

theorem filterMap_concat (f : α → Option β) (l : List α) (x : α) :
    (l ++ [x]).filterMap f = l.filterMap f ++ (f x).toList := by
  rw [List.filterMap_append]
  cases hx : f x <;> simp [hx]

theorem mem_filterMap_concat {f : α → Option β} {l : List α} {x : α} {y : β}
    (h : y ∈ (l ++ [x]).filterMap f) : y ∈ l.filterMap f ∨ f x = some y := by
  rw [filterMap_concat, List.mem_append, Option.mem_toList] at h
  exact h

theorem pairwise_filterMap_concat {f : α → Option β} {l : List α} {x : α} {r : β → β → Prop}
    (h : (l.filterMap f).Pairwise r) (hx : ∀ y, f x = some y → ∀ z ∈ l.filterMap f, r z y) :
    ((l ++ [x]).filterMap f).Pairwise r := by
  rw [filterMap_concat, List.pairwise_append]
  refine ⟨h, ?_, fun z hz y hy => hx y (Option.mem_toList.mp hy) z hz⟩
  cases f x with
  | none => exact List.Pairwise.nil
  | some y => exact List.pairwise_singleton _ _

theorem acceptedOf_of_created (h : createdOf o = some x) : acceptedOf o = some x := by
  cases o <;> first | exact h | cases h

theorem created_move (h : Does P s a o db) (hx : createdOf o = some x) :
    s.db.credentials.get x.user = none ∧
      ∃ acc, s.db.accounts.get x.user = some acc ∧ x.version = acc.sessionVersion := by
  cases h with
  | idle _ silent =>
    have hnone := acceptedOf_of_quiet silent.1
    rw [acceptedOf_of_created hx] at hnone
    cases hnone
  | prepared silent =>
    have hnone := acceptedOf_of_quiet silent.1
    rw [acceptedOf_of_created hx] at hnone
    cases hnone
  | enrolled _ loaded user version =>
    cases hx
    obtain ⟨-, hacc, hnone, -⟩ := loadEnrollment_some loaded
    rw [user] at hacc hnone
    exact ⟨hnone, _, hacc, version.symm⟩
  | _ => cases hx

theorem mem_accepted_of_created (hx : x ∈ h.filterMap fun e => createdOf e.output) :
    x ∈ h.filterMap fun e => acceptedOf e.output := by
  obtain ⟨e, he, hx⟩ := List.mem_filterMap.mp hx
  exact List.mem_filterMap.mpr ⟨e, he, acceptedOf_of_created hx⟩

theorem Settled.snoc (hs : Settled h s.db) (a : Act R) :
    Settled (h ++ [eventOf (exec P) s a]) (exec P s a).2.db := by
  have hdoes := exec_does (P := P) s a
  have hmove := credential_move hdoes
  have hgrow := accounts_grow hdoes
  have hanchored := hs.anchored.move (fun u => ⟨_, hmove u⟩) hgrow
  have haccepted {x : Accepted} (hx : acceptedOf (exec P s a).1 = some x) :
      CredentialMove s.db (exec P s a).2.db x.user (some x) := by
    rw [← acceptedFor_self hx]
    exact hmove x.user
  refine ⟨hanchored, fun x hx => ?_, fun k hk => ?_, ?_, ?_, ?_⟩
  · rcases mem_filterMap_concat hx with hx | hx
    · exact (hs.behind x hx).move (hmove x.user) hgrow
    · exact .of_move hanchored (haccepted hx)
  · rcases mem_filterMap_concat hk with hk | hk
    · exact (hs.spent k hk).move hdoes
    · refine .of_recovered hdoes hs.anchored ?_
      cases ho : (exec P s a).1 <;> simp_all [recoveredOf, eventOf]
  · refine pairwise_filterMap_concat hs.counters fun y hy z hz huser hversion => ?_
    exact (hs.behind z hz).lt huser hversion (haccepted hy)
  · refine pairwise_filterMap_concat hs.versions fun y hy z hz huser => ?_
    obtain ⟨hnone, acc, hacc, hversion⟩ := created_move hdoes hy
    obtain ⟨acc', hpast⟩ := (hs.behind z (mem_accepted_of_created hz)).past
    rw [huser] at hpast
    obtain rfl := Option.some.inj (hpast.account.symm.trans hacc)
    exact (hpast.lt hnone).trans_le hversion.ge
  · refine pairwise_filterMap_concat hs.slots fun y hy z hz => ?_
    rintro rfl
    have ho : (exec P s a).1 = .recovered z := by
      cases ho : (exec P s a).1 <;> simp_all [recoveredOf, eventOf]
    obtain ⟨⟨r, hr, hunused⟩, -⟩ := recovered_row hdoes ho
    rw [(hs.spent z hz).used r hr] at hunused
    cases hunused

theorem settled_of_run (hr : Run (exec P) Allowed (installed rest) h s) :
    Settled h s.db := by
  induction hr with
  | nil =>
    refine ⟨fun u c hc => ?_, by simp, by simp, List.Pairwise.nil, List.Pairwise.nil, List.nodup_nil⟩
    have hnone : (none : Option Credential) = some c := hc
    cases hnone
  | snoc a _ _ ih => exact ih.snoc a

/-- Second factors over any run of a service from its installation: a challenge gets at
most five answered guesses and makes at most one session, the accepted counters of a
credential only grow, a user's credentials have growing versions, and a slot of recovery
codes makes at most one session. -/
theorem second_factors_hold (P : Platform R) {rest : R} {h : List (Entry R)} {s : System R}
    (hr : Run (exec P) Allowed (installed rest) h s) :
    (∀ t, h.countP (answeredAt t) ≤ 5 ∧ h.countP (grantedAt t) ≤ 1) ∧
    ((h.filterMap fun e => acceptedOf e.output).Pairwise fun x y =>
      x.user = y.user → x.version = y.version → x.counter < y.counter) ∧
    ((h.filterMap fun e => createdOf e.output).Pairwise fun x y =>
      x.user = y.user → x.version < y.version) ∧
    (h.filterMap fun e => recoveredOf e.output).Nodup := by
  have hsettled := settled_of_run hr
  refine ⟨fun t => ⟨?_, (budget_of_run hr t).grants⟩, hsettled.counters, hsettled.versions,
    hsettled.slots⟩
  have hle := (answered_le_guessed hr t).2
  have h5 := (budget_of_run hr t).guesses
  omega

def samplePlatform : Platform Unit where
  hotp _ _ := "000000"
  verifies password hash := password = hash
  decodeCreate _ := some ⟨⟨['b'], by decide⟩, .viewer, "q"⟩
  decodeUpdate _ := some (.operator, true)
  decodePolicy _ := some false
  decodeRuntime _ := some .ordinary
  decodeEmpty _ := true
  problemBody _ _ _ := ['!']
  userBody _ := ['u']
  policyBody _ _ := ['p']
  enrollmentBody _ _ := ['e']
  draft _ _ _ _ := some (⟨200, ['d'], []⟩, ())
  body _ _ _ _ _ := .ok (⟨200, ['o'], []⟩, ())

theorem sampleUser_plain : ∀ c ∈ ['b'], c ≠ '\x00' ∧ c ≠ '\n' := by decide

def sampleUser : Plain := ⟨['b'], sampleUser_plain⟩

def sampleRevision : Plain := ⟨['"', 'u', 's', 'e', 'r', '-', '1', '"'], by decide⟩

def sampleRequest (method : Method) (ifMatch : List Plain) (key : String) (reauth : List Token) : Request :=
  ⟨method, true, ["2"], [key.toList], ifMatch, reauth, ['x']⟩

def sampleReauth (method : Method) (revision : Text) : ReauthInput :=
  ⟨"p", "", .writeUsers, sampleUser, actionRequestDigest method sampleUser.text revision ['x']⟩

def sampleReadings (now : Time) : Readings := ⟨now, now, now, [], "r"⟩

def sampleHashes : Vector String 10 := Vector.ofFn fun i => "wr-recovery-v1:" ++ toString i.val

/-- The first administrator enrolls and logs in three times: by a code after a wrong one,
and by two recovery codes, of which one is tried again. With new codes they create
another user and, when that user has enrolled, reset their second factor, so that the
user enrolls once more. -/
def sampleLogins : List (Act Unit) :=
  let request (ifMatch : List Plain) (key : String) (proof : List Token) : Request :=
    { sampleRequest .post ifMatch key proof with csrf := ["4"] }
  let reauth (action : Action) (revision : Text) : ReauthInput :=
    { sampleReauth .post revision with totp := "000000", action := action }
  [.bootstrap "a" "p" ⟨"1", "2"⟩ 0,
   .beginEnrollment "1" false "s" 1 1,
   .reserveEnrollment "1" false 2 2,
   .finishEnrollment 0 "000000" sampleHashes ⟨"3", "4"⟩ 3 3,
   .snapshot "a",
   .finishPassword 1 "p" ⟨"5", "6"⟩ 4,
   .completeTOTP "5" "111111" ⟨"7", "8"⟩ 5 5,
   .completeTOTP "5" "000000" ⟨"9", "10"⟩ 30000005 30000005,
   .snapshot "a",
   .finishPassword 2 "p" ⟨"11", "12"⟩ 30000006,
   .reserveRecovery "11" 30000007 30000007,
   .finishRecovery 3 "7" ⟨"13", "14"⟩ 30000008 30000008,
   .snapshot "a",
   .finishPassword 4 "p" ⟨"15", "16"⟩ 30000009,
   .reserveRecovery "15" 30000010 30000010,
   .finishRecovery 5 "7" ⟨"17", "18"⟩ 30000011 30000011,
   .reserveRecovery "15" 30000012 30000012,
   .finishRecovery 6 "8" ⟨"19", "20"⟩ 30000013 30000013,
   .beginReauth "3" (request [] "" []) (reauth .writeUsers []) 60000005,
   .snapshotReauth 7,
   .finishReauth 8 "21" [] 60000006 60000006,
   .operate "3" (request [] "0123456789abcdef" ["21"]) (sampleReadings 60000007)
     (.createUser "q" true),
   .snapshot "b",
   .finishPassword 9 "q" ⟨"22", "23"⟩ 60000008,
   .beginEnrollment "22" false "s" 60000009 60000009,
   .reserveEnrollment "22" false 60000010 60000010,
   .finishEnrollment 10 "000000" sampleHashes ⟨"24", "25"⟩ 60000011 60000011,
   .beginReauth "3" (request [] "" [])
     (reauth .resetUserTOTP sampleRevision.text) 90000005,
   .snapshotReauth 11,
   .finishReauth 12 "26" [] 90000006 90000006,
   .operate "3" (request [sampleRevision] "0123456789abcdeg" ["26"])
     (sampleReadings 90000007) (.changeUser sampleUser true),
   .snapshot "b",
   .finishPassword 13 "q" ⟨"27", "28"⟩ 90000008,
   .beginEnrollment "27" false "s" 90000009 90000009,
   .reserveEnrollment "27" false 90000010 90000010,
   .finishEnrollment 14 "000000" sampleHashes ⟨"29", "30"⟩ 90000011 90000011]

def sampleEntries : List (Entry Unit) := eventsOf (exec samplePlatform) (installed ()) sampleLogins

theorem sampleEntries_hold :
    sampleEntries.filterMap (fun e => acceptedOf e.output) =
      [⟨"a", 1, 1⟩, ⟨"a", 1, 2⟩, ⟨"a", 1, 3⟩, ⟨"b", 1, 3⟩, ⟨"a", 1, 4⟩, ⟨"b", 2, 4⟩] ∧
    sampleEntries.filterMap (fun e => createdOf e.output) = [⟨"a", 1, 1⟩, ⟨"b", 1, 3⟩, ⟨"b", 2, 4⟩] ∧
    sampleEntries.filterMap (fun e => recoveredOf e.output) = [⟨"a", 1, 8⟩, ⟨"a", 1, 9⟩] ∧
    sampleEntries.countP (answeredAt "15") = 2 ∧
    (∀ t, sampleEntries.countP (answeredAt t) ≤ 5 ∧ sampleEntries.countP (grantedAt t) ≤ 1) ∧
    ((sampleEntries.filterMap fun e => acceptedOf e.output).Pairwise fun x y =>
      x.user = y.user → x.version = y.version → x.counter < y.counter) ∧
    ((sampleEntries.filterMap fun e => createdOf e.output).Pairwise fun x y =>
      x.user = y.user → x.version < y.version) ∧
    (sampleEntries.filterMap fun e => recoveredOf e.output).Nodup := by
  have hrun : Run (exec samplePlatform) Allowed (installed ()) sampleEntries
      (stateAfter (exec samplePlatform) (installed ()) sampleLogins) :=
    run_of_fresh _ (by decide) fun _ _ => List.not_mem_nil
  exact ⟨by decide +kernel, by decide +kernel, by decide +kernel, by decide +kernel,
    second_factors_hold samplePlatform hrun⟩

end WaitingRoom.Admin
