import WaitingRoom.Admin.Factor

/-!
# Revocation

A change of a user, or of the second-factor policy, leaves nothing behind that was
made before it: the rows are gone for good, since no token is drawn twice, and the
flows that were under way carry a version that is never current again.
-/

namespace WaitingRoom.Admin

set_option autoImplicit false

variable {R : Type} {P : Platform R} {s : System R} {a : Act R} {o : Output} {db : Db R}

/-! ## Flows and what they were begun with -/

def Flow.owner : Flow → String
  | .login before => before.user
  | .recovery x => x.state.user
  | .enrollment x _ => x.user
  | .reauthBegun _ user _ _ => user
  | .reauth _ _ _ before => before.user

def Flow.versions : Flow → Option (Nat × Nat)
  | .login before => some (before.userVersion, before.policy.version)
  | .recovery x => some (x.state.userVersion, x.state.policy)
  | .enrollment x _ => some (x.version, x.policy)
  | .reauthBegun _ _ _ _ | .reauth _ _ _ _ => none

def Flow.token : Flow → Option Token
  | .reauthBegun token _ _ _ | .reauth token _ _ _ => some token
  | _ => none

def Dead (s : System R) (t : Token) : Prop := t ∈ s.used ∧ s.db.sessions.get t = none

def Stale (s : System R) (f : Flow) : Prop :=
  (∀ v p, f.versions = some (v, p) →
    (∃ acc, s.db.accounts.get f.owner = some acc ∧ v < acc.sessionVersion) ∨
      p < s.db.policy.version) ∧
  ∀ t, f.token = some t → Dead s t

structure Grounded (s : System R) (f : Flow) : Prop where
  versions : ∀ v p, f.versions = some (v, p) →
    (∃ acc, s.db.accounts.get f.owner = some acc ∧ v ≤ acc.sessionVersion) ∧
      p ≤ s.db.policy.version
  token : ∀ t, f.token = some t →
    t ∈ s.used ∧ ∀ x, s.db.sessions.get t = some x → x.user = f.owner

theorem passwordSnapshot_some {user : String} {before : PasswordSnapshot}
    (h : passwordSnapshot db user = some before) :
    before.user = user ∧ before.policy = db.policy ∧
      ∃ acc, db.accounts.get user = some acc ∧ before.userVersion = acc.sessionVersion := by
  unfold passwordSnapshot at h
  split at h
  next acc p hacc hp =>
    cases h
    exact ⟨rfl, rfl, acc, hacc, rfl⟩
  · cases h

variable {token t : Token} {r : Request} {now : Time} {f : Flow} {id : Nat} {who : String → Prop}
  {reply : Reply}

theorem beginReauth_ok {i : ReauthInput} {user : String}
    (h : beginReauth db token r i now = .ok user) :
    ∃ x, db.sessions.get token = some x ∧ x.user = user := by
  unfold beginReauth at h
  split at h
  · cases h
  next v hv =>
    split at h
    · cases h
      obtain ⟨hx, huser, -⟩ := loadSession_ok (beginCommand_ok hv)
      exact ⟨v.session, hx, huser⟩
    · cases h

/-! ## Rows stand under tokens that were drawn -/

structure Tidy (s : System R) : Prop where
  sessions : ∀ t x, s.db.sessions.get t = some x → t ∈ s.used
  challenges : ∀ t x, s.db.challenges.get t = some x → t ∈ s.used
  enrollments : ∀ t x, s.db.enrollments.get t = some x → t ∈ s.used
  proofs : ∀ t x, s.db.proofs.get t = some x → t ∈ s.used
  flows : ∀ id f, s.flows.get id = some f → Grounded s f

theorem Started.grounded (h : Tidy s) (of : Started s a f) : Grounded s f := by
  cases of with
  | login read =>
    obtain ⟨huser, hpolicy, acc, hacc, hversion⟩ := passwordSnapshot_some read
    refine ⟨fun v p hvp => ?_, nofun⟩
    cases hvp
    refine ⟨⟨acc, ?_, hversion.le⟩, ?_⟩
    · rw [Flow.owner, huser]
      exact hacc
    · rw [hpolicy]
  | recovery loaded =>
    obtain ⟨acc, c, hload, hstate⟩ := loadRecovery_some loaded
    obtain ⟨-, hacc, -⟩ := loadChallenge_some hload
    refine ⟨fun v p hvp => ?_, nofun⟩
    cases hvp
    rw [Flow.owner, hstate]
    exact ⟨⟨acc, hacc, le_rfl⟩, le_rfl⟩
  | enrollment loaded user version policy =>
    obtain ⟨-, hacc, -⟩ := loadEnrollment_some loaded
    refine ⟨fun v p hvp => ?_, nofun⟩
    cases hvp
    refine ⟨⟨_, ?_, version.le⟩, policy.le⟩
    rw [Flow.owner, user]
    exact hacc
  | reauthBegun begun =>
    obtain ⟨x, hx, huser⟩ := beginReauth_ok begun
    refine ⟨nofun, fun t ht => ?_⟩
    cases ht
    refine ⟨h.sessions _ x hx, fun x' hx' => ?_⟩
    obtain rfl := Option.some.inj (hx.symm.trans hx')
    exact huser
  | reauth held read =>
    obtain ⟨huser, -⟩ := passwordSnapshot_some read
    refine ⟨nofun, fun t ht => ?_⟩
    cases ht
    have hg := (h.flows _ _ held).token _ rfl
    refine ⟨hg.1, fun x hx => ?_⟩
    rw [Flow.owner, huser]
    exact hg.2 x hx

theorem Grounded.after_exec (hallowed : Allowed s a) (h : Grounded s f) :
    Grounded (exec P s a).2 f := by
  have hdoes := exec_does (P := P) s a
  refine ⟨fun v p hvp => ?_, fun t ht => ?_⟩
  · obtain ⟨⟨acc, hacc, hle⟩, hp⟩ := h.versions v p hvp
    obtain ⟨acc', hacc', hle'⟩ := accounts_grow hdoes f.owner acc hacc
    exact ⟨⟨acc', hacc', hle.trans hle'⟩, hp.trans (policy_le hdoes)⟩
  · obtain ⟨hused, howner⟩ := h.token t ht
    refine ⟨?_, fun x hx => ?_⟩
    · rw [exec_used]
      exact List.mem_append_right _ hused
    · rcases session_origin hdoes hx with hdrawn | ⟨x₀, hx₀, huser⟩
      · exact absurd hused (hallowed t hdrawn)
      · exact huser.symm.trans (howner x₀ hx₀)

theorem Tidy.after_exec (hallowed : Allowed s a) (h : Tidy s) : Tidy (exec P s a).2 := by
  have hdoes := exec_does (P := P) s a
  have used {t : Token} (ht : t ∈ a.drawn ∨ t ∈ s.used) : t ∈ (exec P s a).2.used := by
    rw [exec_used]
    exact List.mem_append.mpr ht
  refine ⟨fun t x hx => used ?_, fun t x hx => used ?_, fun t x hx => used ?_,
    fun t x hx => used ?_, fun id f hf => ?_⟩
  · rcases session_origin hdoes hx with hd | ⟨x₀, hx₀, -⟩
    · exact .inl hd
    · exact .inr (h.sessions t x₀ hx₀)
  · rcases challenge_move hdoes hx with ⟨hd, -⟩ | ⟨x₀, hx₀, -⟩
    · exact .inl hd
    · exact .inr (h.challenges t x₀ hx₀)
  · rcases enrollment_origin hdoes t x hx with hd | ⟨x₀, hx₀, -⟩
    · exact .inl hd
    · exact .inr (h.enrollments t x₀ hx₀)
  · rcases proof_origin hdoes hx with hmade | ⟨x₀, hx₀, -⟩
    · exact .inl hmade.drawn
    · exact .inr (h.proofs t x₀ hx₀)
  · have old {f : Flow} (hf : s.flows.get id = some f) : Grounded (exec P s a).2 f :=
      (h.flows id f hf).after_exec hallowed
    cases exec_flows (P := P) s a with
    | same flows =>
      rw [flows] at hf
      exact old hf
    | started _ of _ flows =>
      rw [flows] at hf
      by_cases hid : id = s.next
      · subst hid
        rw [Table.get_put_self] at hf
        cases hf
        exact (of.grounded h).after_exec hallowed
      · rw [Table.get_put_ne hid] at hf
        exact old hf
    | dropped _ _ flows =>
      rw [flows] at hf
      exact old (Table.get_of_get_del hf)
    | replaced _ _ of flows =>
      rw [flows] at hf
      by_cases hid : id = s.next
      · subst hid
        rw [Table.get_put_self] at hf
        cases hf
        exact (of.grounded h).after_exec hallowed
      · rw [Table.get_put_ne hid] at hf
        exact old (Table.get_of_get_del hf)

theorem tidy_of_run {rest : R} {h : List (Entry R)} (hr : Run (exec P) Allowed (installed rest) h s) :
    Tidy s := by
  refine hr.invariant ?_ fun s a ih hallowed => ih.after_exec hallowed
  have none_some {α : Type} {x : α} (h : (none : Option α) = some x) {p : Prop} : p := by cases h
  exact ⟨fun _ _ h => none_some h, fun _ _ h => none_some h, fun _ _ h => none_some h,
    fun _ _ h => none_some h, fun _ _ h => none_some h⟩

/-! ## What stays gone -/

theorem Dead.after_exec (hallowed : Allowed s a) (h : Dead s t) : Dead (exec P s a).2 t := by
  refine ⟨?_, ?_⟩
  · rw [exec_used]
    exact List.mem_append_right _ h.1
  · rw [Option.eq_none_iff_forall_ne_some]
    intro x hx
    rcases session_origin (exec_does s a) hx with hdrawn | ⟨x₀, hx₀, -⟩
    · exact hallowed t hdrawn h.1
    · rw [h.2] at hx₀
      cases hx₀

theorem Stale.after_exec (hallowed : Allowed s a) (h : Stale s f) : Stale (exec P s a).2 f := by
  have hdoes := exec_does (P := P) s a
  refine ⟨fun v p hvp => ?_, fun t ht => (h.2 t ht).after_exec hallowed⟩
  rcases h.1 v p hvp with ⟨acc, hacc, hlt⟩ | hlt
  · obtain ⟨acc', hacc', hle⟩ := accounts_grow hdoes f.owner acc hacc
    exact .inl ⟨acc', hacc', hlt.trans_le hle⟩
  · exact .inr (hlt.trans_le (policy_le hdoes))

theorem System.settle_quiet {α : Type} (s : System R) {f : α → Output} (x : Except AuthError α × Db R)
    (hf : ∀ y, (f y).quiet = false) (hq : (s.settle f x).1.quiet = true) :
    ∃ e, (s.settle f x).1 = .refused e := by
  unfold System.settle at hq ⊢
  split
  · exact ⟨_, rfl⟩
  next y hy =>
    rw [hy] at hq
    exact absurd hq (by simp [hf])

theorem refused_of_quiet (ends : a.ends = some id) (hq : (exec P s a).1.quiet = true) :
    (∃ e, (exec P s a).1 = .refused e) ∨ a = .snapshotReauth id := by
  have refused {e : AuthError} {s' : System R} :
      ∃ e', ((Output.refused e, s') : Output × System R).1 = .refused e' := ⟨e, rfl⟩
  cases a with
  | finishPassword flow password g now =>
    refine .inl ?_
    simp only [exec, step] at hq ⊢
    split
    · split
      next hv => exact System.settle_quiet _ _ (fun _ => rfl) (by simpa [*] using hq)
      · exact refused
    · exact refused
  | finishRecovery flow code g now wrote =>
    refine .inl ?_
    simp only [exec, step] at hq ⊢
    split
    · split
      · exact refused
      next slot hslot => exact System.settle_quiet _ _ (fun _ => rfl) (by simpa [*] using hq)
    · exact refused
  | finishEnrollment flow code hashes g now wrote =>
    refine .inl ?_
    simp only [exec, step] at hq ⊢
    split
    next held => exact System.settle_quiet _ _ (fun _ => rfl) (by simpa [*] using hq)
    · exact refused
  | snapshotReauth flow =>
    cases ends
    exact .inr rfl
  | finishReauth flow proof picked now wrote =>
    refine .inl ?_
    simp only [exec, step] at hq ⊢
    split
    · split
      · exact System.settle_quiet _ _ (fun _ => rfl) (by simpa [*] using hq)
      · exact refused
    · exact refused
  | _ => cases ends

theorem Stale.refused (h : Stale s f) (held : s.flows.get id = some f) (ends : a.ends = some id) :
    ((∃ e, (exec P s a).1 = .refused e) ∨ a = .snapshotReauth id) ∧ (exec P s a).2.db = s.db := by
  have hdoes := exec_does (P := P) s a
  have hend := refused_of_quiet (P := P) (s := s) ends
  generalize (exec P s a).1 = o, (exec P s a).2.db = db at hdoes hend
  cases hdoes with
  | idle _ silent => exact ⟨hend silent.1, rfl⟩
  | prepared _ unended =>
    rw [unended] at ends
    cases ends
  | passed held' account same =>
    cases ends
    obtain rfl := Option.some.inj (held.symm.trans held')
    obtain ⟨-, -, hversion, -, hpolicy⟩ := same
    rcases h.1 _ _ rfl with ⟨acc, hacc, hlt⟩ | hlt
    · obtain rfl := Option.some.inj (hacc.symm.trans account)
      exact absurd hversion hlt.ne'
    · rw [hpolicy] at hlt
      exact absurd hlt (lt_irrefl _)
  | recovered held' loaded user policy version =>
    cases ends
    obtain rfl := Option.some.inj (held.symm.trans held')
    obtain ⟨acc, c, hload, rfl⟩ := loadRecovery_some loaded
    obtain ⟨-, hacc, -⟩ := loadChallenge_some hload
    rcases h.1 _ _ rfl with ⟨acc', hacc', hlt⟩ | hlt
    · rw [Flow.owner, ← user] at hacc'
      obtain rfl := Option.some.inj (hacc.symm.trans hacc')
      exact absurd version hlt.ne'
    · exact absurd policy hlt.ne'
  | enrolled held' loaded user version policy =>
    cases ends
    obtain rfl := Option.some.inj (held.symm.trans held')
    obtain ⟨-, hacc, -⟩ := loadEnrollment_some loaded
    rcases h.1 _ _ rfl with ⟨acc', hacc', hlt⟩ | hlt
    · rw [Flow.owner, ← user] at hacc'
      obtain rfl := Option.some.inj (hacc.symm.trans hacc')
      exact absurd version hlt.ne'
    · exact absurd policy hlt.ne'
  | proved held' loaded =>
    cases ends
    obtain rfl := Option.some.inj (held.symm.trans held')
    have hdead := (h.2 _ rfl).2
    rw [(loadSession_ok loaded).1] at hdead
    cases hdead
  | _ => cases ends

/-! ## What a revocation takes away -/

/-- Everything of the users in `who` is gone, and their versions or the policy's moved on. -/
structure Purged (db db' : Db R) (who : String → Prop) (spared : Token → Prop) : Prop where
  sessions : ∀ t x, db.sessions.get t = some x → who x.user → ¬ spared t →
    db'.sessions.get t = none
  challenges : ∀ t x, db.challenges.get t = some x → who x.user → db'.challenges.get t = none
  enrollments : ∀ t x, db.enrollments.get t = some x → who x.user → db'.enrollments.get t = none
  proofs : ∀ t p x, db.proofs.get t = some p → db.sessions.get p.session = some x → who x.user →
    db'.proofs.get t = none
  versions : ∀ u acc, who u → db.accounts.get u = some acc →
    (∃ acc', db'.accounts.get u = some acc' ∧ acc.sessionVersion < acc'.sessionVersion) ∨
      db.policy.version < db'.policy.version

theorem dropSessions_sessions_none {drops : Token → Session → Bool} {x : Session}
    (hx : db.sessions.get t = some x) (hd : drops t x = true) :
    (db.dropSessions drops).sessions.get t = none := by
  rw [Option.eq_none_iff_forall_ne_some]
  intro y hy
  obtain ⟨hy₀, hkeep⟩ := get_dropSessions hy
  obtain rfl := Option.some.inj (hx.symm.trans hy₀)
  rw [hd] at hkeep
  cases hkeep

theorem dropSessions_proofs_none {drops : Token → Session → Bool} {p : Proof} {x : Session}
    (hp : db.proofs.get t = some p) (hx : db.sessions.get p.session = some x)
    (hd : drops p.session x = true) : (db.dropSessions drops).proofs.get t = none := by
  rw [Option.eq_none_iff_forall_ne_some]
  intro q hq
  obtain ⟨hq₀, hkeep⟩ := get_proofs_dropSessions hq
  obtain rfl := Option.some.inj (hp.symm.trans hq₀)
  rw [hx, Option.any_some, hd] at hkeep
  cases hkeep

theorem applyChange_purged {id : String} {c : UserChange} {acc : Account}
    (found : db.accounts.get id = some acc) :
    Purged db (applyChange db id c acc) (· = id) fun _ => False := by
  refine ⟨fun t x hx hu _ => ?_, fun t x hx hu => ?_, fun t x hx hu => ?_,
    fun t p x hp hx hu => ?_, fun u acc' hu hacc => ?_⟩
  · rw [applyChange_sessions]
    exact dropSessions_sessions_none hx (by simp [hu])
  · rw [applyChange_challenges, Table.get_keep, hx]
    simp [Option.filter, hu]
  · rw [applyChange_enrollments, Table.get_keep, hx]
    simp [Option.filter, hu]
  · rw [applyChange_proofs]
    exact dropSessions_proofs_none hp hx (by simp [hu])
  · subst hu
    obtain rfl := Option.some.inj (found.symm.trans hacc)
    refine .inl ⟨c.account acc, ?_, ?_⟩
    · rw [applyChange_accounts, Table.get_put_self]
    · rw [c.account_version]
      exact Nat.lt_succ_self _

theorem applyPolicy_purged {p : AuthPolicy} {v : SessionSnapshot} {g : Grant}
    (next : db.policy.version < p.version) :
    Purged db (applyPolicy db p v g now) (fun _ => True) (· = g.session) := by
  refine ⟨fun t x hx _ hspared => ?_, fun _ _ _ _ => rfl, fun t x hx _ => ?_,
    fun t q x hq hx _ => ?_, fun _ _ _ _ => .inr next⟩
  · have hdrop : (Db.dropSessions { db with policy := p } fun _ _ => true).sessions.get t = none :=
      dropSessions_sessions_none hx rfl
    rw [Option.eq_none_iff_forall_ne_some]
    intro y hy
    rcases get_addSession hy with rfl | hy
    · exact hspared rfl
    · have hy' : (Db.dropSessions { db with policy := p } fun _ _ => true).sessions.get t = some y := hy
      rw [hdrop] at hy'
      cases hy'
  · rw [Option.eq_none_iff_forall_ne_some]
    intro y hy
    cases (get_dropEnrollments hy).2
  · have hdrop : (Db.dropSessions { db with policy := p } fun _ _ => true).proofs.get t = none :=
      dropSessions_proofs_none hq hx rfl
    exact hdrop

theorem touch_sessions_none (h : db.sessions.get t = none) :
    (db.touch token now).sessions.get t = none := by
  rw [Option.eq_none_iff_forall_ne_some]
  intro x hx
  obtain ⟨x₀, hx₀, -⟩ := get_touch hx
  rw [h] at hx₀
  cases hx₀

theorem Spends.tables {plan : Plan R} {db db' : Db R} (h : Spends token r plan now db db') :
    db'.sessions = db.sessions ∧ db'.challenges = db.challenges ∧ db'.enrollments = db.enrollments ∧
      db'.accounts = db.accounts ∧ db'.policy = db.policy := by
  cases h with
  | free => exact ⟨rfl, rfl, rfl, rfl, rfl⟩
  | proof => exact ⟨rfl, rfl, rfl, rfl, rfl⟩

theorem Purged.of_body {db db₁ db₂ : Db R} {spared : Token → Prop} {v : SessionSnapshot}
    {t : Readings} {op : Operation} {status : Nat}
    {plan : Plan R} {key : String × Text} {commands : Table (String × Text) CommandRow}
    (h : Purged db₁ db₂ who spared)
    (spends : Spends token r plan t.spent (pruneCommands db key t.picked t.now) db₁)
    (body : BodyDoes token v op status db₁ db₂) :
    Purged db (Db.touch { db₂ with commands := commands } token t.now) who spared := by
  obtain ⟨hsessions, hchallenges, henrollments, haccounts, hpolicy⟩ := spends.tables
  refine ⟨fun u x hx hw hs => ?_, fun u x hx hw => ?_, fun u x hx hw => ?_,
    fun u p x hp hx hw => ?_, fun u acc hw hacc => ?_⟩
  · refine touch_sessions_none (h.sessions u x ?_ hw hs)
    rw [hsessions]
    exact hx
  · refine h.challenges u x ?_ hw
    rw [hchallenges]
    exact hx
  · refine h.enrollments u x ?_ hw
    rw [henrollments]
    exact hx
  · rw [Option.eq_none_iff_forall_ne_some]
    intro q hq
    have hq₁ := body.proof_origin hq
    obtain ⟨p₀, hp₀, hcont⟩ := spends.proof_origin hq₁
    obtain rfl := Option.some.inj (hp.symm.trans hp₀)
    have hnone := h.proofs u q x hq₁ (by rw [hsessions, ← hcont.1]; exact hx) hw
    exact Option.some_ne_none q (hq.symm.trans hnone)
  · have hversions := h.versions u acc hw (by rw [haccounts]; exact hacc)
    rw [hpolicy] at hversions
    exact hversions

theorem Executed.purged_user {t : Readings} {id : Plain} {reset : Bool} {db db' : Db R}
    (h : Executed P db token r t (.changeUser id reset) reply db')
    (ok : reply.status = 200) : Purged db db' (· = id.id) fun _ => False := by
  obtain ⟨of, -, -, spends, hbody⟩ := h
  have hb := of.body_does hbody
  cases hb with
  | same _ unchanged => exact absurd ok (unchanged id reset rfl)
  | rest _ _ other => exact absurd rfl (other id reset)
  | changed c acc found =>
    exact (applyChange_purged found).of_body (of.spends spends) (of.body_does hbody)

theorem Executed.purged_policy {t : Readings} {g : Grant} {db db' : Db R}
    (h : Executed P db token r t (.changePolicy g) reply db')
    (flips : db'.policy.totpEnabled ≠ db.policy.totpEnabled) :
    Purged db db' (fun _ => True) (· = g.session) := by
  obtain ⟨of, begun, -, spends, hbody⟩ := h
  have hs := of.spends spends
  have hb := of.body_does hbody
  obtain ⟨-, -, -, -, hpolicy⟩ := hs.tables
  have hv := (loadSession_ok (beginCommand_ok begun)).2.2.2.1
  cases hb with
  | same => exact absurd (congrArg AuthPolicy.totpEnabled hpolicy) flips
  | rest => exact absurd (congrArg AuthPolicy.totpEnabled hpolicy) flips
  | flipped p now next =>
    refine (applyPolicy_purged ?_).of_body hs (of.body_does hbody)
    rw [hpolicy]
    rw [hv] at next
    exact (Nat.lt_succ_self _).trans_le next.ge

/-! ## Whole runs -/

/-- A committed change of authority, and the users whose access it ends. -/
inductive Revokes (e : Entry R) : (String → Prop) → Prop
  | user {token : Token} {r : Request} {t : Readings} {id : Plain} {reset : Bool} {reply : Reply}
      (input : e.input = .operate token r t (.changeUser id reset))
      (output : e.output = .answer (.executed reply)) (ok : reply.status = 200) :
      Revokes e (· = id.id)
  | policy {token : Token} {r : Request} {t : Readings} {g : Grant} {reply : Reply}
      (input : e.input = .operate token r t (.changePolicy g))
      (output : e.output = .answer (.executed reply))
      (flips : e.after.db.policy.totpEnabled ≠ e.before.db.policy.totpEnabled) :
      Revokes e fun _ => True

theorem Does.executed {t : Readings} {op : Operation}
    (h : Does P s (.operate token r t op) (.answer (.executed reply)) db) :
    Executed P s.db token r t op reply db := by
  cases h with
  | idle _ silent => cases silent.1
  | prepared silent => cases silent.1
  | operated executed => exact executed

theorem Revokes.purged (h : Revokes (eventOf (exec P) s a) who) :
    Purged s.db (exec P s a).2.db who (· ∈ a.drawn) := by
  have hdoes := exec_does (P := P) s a
  cases h with
  | user input output ok =>
    have ho : (exec P s a).1 = _ := output
    obtain rfl : a = _ := input
    rw [ho] at hdoes
    have hp := hdoes.executed.purged_user ok
    exact ⟨fun t x hx hw _ => hp.sessions t x hx hw id, hp.challenges, hp.enrollments, hp.proofs,
      hp.versions⟩
  | policy input output flips =>
    have ho : (exec P s a).1 = _ := output
    obtain rfl : a = _ := input
    rw [ho] at hdoes
    have hp := hdoes.executed.purged_policy flips
    refine ⟨fun t x hx hw hs => hp.sessions t x hx hw fun ht => hs ?_, hp.challenges, hp.enrollments,
      hp.proofs, hp.versions⟩
    subst ht
    exact List.mem_cons_self

theorem stays_gone {α : Type} (look : Db R → Token → Option α)
    (origin : ∀ (s : System R) (a : Act R) (t : Token) (x : α), look (exec P s a).2.db t = some x →
      t ∈ a.drawn ∨ ∃ x₀, look s.db t = some x₀)
    {h : List (Entry R)} {m : System R} (hr : Run (exec P) Allowed s h m)
    (hused : t ∈ s.used) (hnone : look s.db t = none) : look m.db t = none := by
  have hinv : t ∈ m.used ∧ look m.db t = none := by
    refine hr.invariant (I := fun s => t ∈ s.used ∧ look s.db t = none) ⟨hused, hnone⟩
      fun s a ih hallowed => ⟨?_, ?_⟩
    · rw [exec_used]
      exact List.mem_append_right _ ih.1
    · rw [Option.eq_none_iff_forall_ne_some]
      intro x hx
      rcases origin s a t x hx with hdrawn | ⟨x₀, hx₀⟩
      · exact hallowed t hdrawn ih.1
      · rw [ih.2] at hx₀
        cases hx₀
  exact hinv.2

def Holds (s : System R) (id : Nat) (f : Flow) : Prop :=
  id < s.next ∧ ∀ f', s.flows.get id = some f' → f' = f

theorem Holds.after_exec (h : Holds s id f) (a : Act R) :
    Holds (exec P s a).2 id f := by
  have hne : id ≠ s.next := h.1.ne
  cases exec_flows (P := P) s a with
  | same flows next => exact ⟨by rw [next]; exact h.1, fun f' hf' => h.2 f' (by rw [← flows]; exact hf')⟩
  | started _ _ _ flows next =>
    refine ⟨by rw [next]; exact h.1.trans (Nat.lt_succ_self _), fun f' hf' => ?_⟩
    rw [flows, Table.get_put_ne hne] at hf'
    exact h.2 f' hf'
  | dropped _ _ flows next =>
    refine ⟨by rw [next]; exact h.1, fun f' hf' => ?_⟩
    rw [flows] at hf'
    exact h.2 f' (Table.get_of_get_del hf')
  | replaced _ _ _ flows next =>
    refine ⟨by rw [next]; exact h.1.trans (Nat.lt_succ_self _), fun f' hf' => ?_⟩
    rw [flows, Table.get_put_ne hne] at hf'
    exact h.2 f' (Table.get_of_get_del hf')

/-- The last step of the request that a flow belongs to. -/
def Finishes (id : Nat) (f : Flow) (e : Entry R) : Prop :=
  match f with
  | .login _ => ∃ password g now, e.input = .finishPassword id password g now
  | .recovery _ => ∃ code g now wrote, e.input = .finishRecovery id code g now wrote
  | .enrollment _ _ => ∃ code hashes g now wrote, e.input = .finishEnrollment id code hashes g now wrote
  | .reauthBegun token _ _ _ | .reauth token _ _ _ =>
    ∃ id' proof picked now wrote r i before, e.input = .finishReauth id' proof picked now wrote ∧
      e.before.flows.get id' = some (.reauth token r i before)

theorem refused_of_missing (ends : a.ends = some id) (h : s.flows.get id = none) :
    (exec P s a).1 = .refused .unavailable ∧ (exec P s a).2.db = s.db := by
  cases a with
  | finishPassword | finishRecovery | finishEnrollment | snapshotReauth | finishReauth =>
    cases ends
    simp [exec, step, h]
  | _ => cases ends

theorem Stale.finish (h : Stale s f) (hold : Holds s id f)
    (hf : Finishes id f (eventOf (exec P) s a)) :
    (∃ err, (exec P s a).1 = .refused err) ∧ (exec P s a).2.db = s.db := by
  have done {id' : Nat} {g : Flow} (h' : Stale s g) (ends : a.ends = some id')
      (hnot : a ≠ .snapshotReauth id') (hheld : ∀ f', s.flows.get id' = some f' → f' = g) :
      (∃ err, (exec P s a).1 = .refused err) ∧ (exec P s a).2.db = s.db := by
    cases hget : s.flows.get id' with
    | none =>
      obtain ⟨ho, hdb⟩ := refused_of_missing (P := P) ends hget
      exact ⟨⟨_, ho⟩, hdb⟩
    | some f' =>
      obtain rfl := hheld f' hget
      obtain ⟨ho, hdb⟩ := h'.refused (P := P) hget ends
      exact ⟨ho.resolve_right hnot, hdb⟩
  have reauth {token : Token} (hdead : Dead s token)
      (hf : ∃ id' proof picked now wrote r i before, a = .finishReauth id' proof picked now wrote ∧
        s.flows.get id' = some (.reauth token r i before)) :
      (∃ err, (exec P s a).1 = .refused err) ∧ (exec P s a).2.db = s.db := by
    obtain ⟨id', proof, picked, now, wrote, r, i, before, rfl, hget⟩ := hf
    refine done (g := .reauth token r i before) ⟨nofun, fun t ht => ?_⟩ rfl nofun fun f' hf' => ?_
    · cases ht
      exact hdead
    · exact Option.some.inj (hf'.symm.trans hget)
  cases f with
  | login before =>
    obtain ⟨password, g, now, rfl⟩ := hf
    exact done h rfl nofun hold.2
  | recovery x =>
    obtain ⟨code, g, now, wrote, rfl⟩ := hf
    exact done h rfl nofun hold.2
  | enrollment x p =>
    obtain ⟨code, hashes, g, now, wrote, rfl⟩ := hf
    exact done h rfl nofun hold.2
  | reauthBegun token user r i => exact reauth (h.2 token rfl) hf
  | reauth token r i before => exact reauth (h.2 token rfl) hf

theorem Purged.stale (hallowed : Allowed s a) (h : Purged s.db (exec P s a).2.db who (· ∈ a.drawn))
    (hf : Grounded s f) (hw : who f.owner) : Stale (exec P s a).2 f := by
  refine ⟨fun v p hvp => ?_, fun t ht => ?_⟩
  · obtain ⟨⟨acc, hacc, hle⟩, hp⟩ := hf.versions v p hvp
    rcases h.versions f.owner acc hw hacc with ⟨acc', hacc', hlt⟩ | hlt
    · exact .inl ⟨acc', hacc', hle.trans_lt hlt⟩
    · exact .inr (hp.trans_lt hlt)
  · obtain ⟨hused, howner⟩ := hf.token t ht
    have hnot : t ∉ a.drawn := fun hd => hallowed t hd hused
    cases hget : s.db.sessions.get t with
    | none => exact Dead.after_exec hallowed ⟨hused, hget⟩
    | some x =>
      refine ⟨?_, h.sessions t x hget ?_ hnot⟩
      · rw [exec_used]
        exact List.mem_append_right _ hused
      · rw [howner x hget]
        exact hw

/-- Once a change of a user or of the policy has committed, nothing that the users in
question had before authenticates a request or becomes a session, and every flow that
was begun before ends in a refusal. -/
theorem revocation_is_complete (P : Platform R) {rest : R} {h₁ h₂ : List (Entry R)} {e : Entry R}
    {s : System R} {who : String → Prop}
    (hr : Run (exec P) Allowed (installed rest) (h₁ ++ e :: h₂) s) (hrev : Revokes e who) :
    (∀ t x now, e.before.db.sessions.get t = some x → who x.user →
      loadSession s.db t now = .error .unauthenticated) ∧
    (∀ t x now, e.before.db.challenges.get t = some x → who x.user →
      loadChallenge s.db t now = none) ∧
    (∀ t x policyEnrollment now, e.before.db.enrollments.get t = some x → who x.user →
      loadEnrollment s.db t policyEnrollment now = none) ∧
    (∀ t p x token r action target now, e.before.db.proofs.get t = some p →
      e.before.db.sessions.get p.session = some x → who x.user → r.reauth = [t] →
      consumeReauth s.db token r action target now = .error .forbidden) ∧
    (∀ id f, e.before.flows.get id = some f → who f.owner → ∀ e' ∈ h₂, Finishes id f e' →
      (∃ err, e'.output = .refused err) ∧ e'.after.db = e'.before.db) := by
  obtain ⟨m, hr₁, hr₂⟩ := Run.of_append hr
  obtain ⟨hallowed, he, hlater⟩ := Run.of_cons hr₂
  obtain rfl : e.before = m := by
    rw [he]
    rfl
  have htidy := tidy_of_run hr₁
  have hpurged : Purged e.before.db (exec P e.before e.input).2.db who (· ∈ e.input.drawn) := by
    rw [he] at hrev
    exact hrev.purged
  have hafter : e.after = (exec P e.before e.input).2 := by
    rw [he]
    rfl
  rw [hafter] at hlater
  have used {t : Token} (ht : t ∈ e.before.used) : t ∈ (exec P e.before e.input).2.used := by
    rw [exec_used]
    exact List.mem_append_right _ ht
  refine ⟨fun t x now hx hw => ?_, fun t x now hx hw => ?_, fun t x p now hx hw => ?_,
    fun t p x token r action target now hp hx hw hsent => ?_, fun id f hf hw e' he' hfin => ?_⟩
  · have hused := htidy.sessions t x hx
    have hgone := hpurged.sessions t x hx hw fun hd => hallowed t hd hused
    have hlast := stays_gone (fun db t => db.sessions.get t) (fun s a t x hx =>
      (session_origin (exec_does s a) hx).imp id fun h => h.imp fun _ => And.left) hlater (used hused) hgone
    simp [loadSession, hlast]
  · have hused := htidy.challenges t x hx
    have hgone := hpurged.challenges t x hx hw
    have hlast := stays_gone (fun db t => db.challenges.get t) (fun s a t x hx =>
      (challenge_move (exec_does s a) hx).imp (·.1) fun h => h.imp fun _ => And.left) hlater (used hused) hgone
    simp [loadChallenge, hlast]
  · have hused := htidy.enrollments t x hx
    have hgone := hpurged.enrollments t x hx hw
    have hlast := stays_gone (fun db t => db.enrollments.get t) (fun s a t x hx =>
      (enrollment_origin (exec_does s a) t x hx).imp id fun h => h.imp fun _ => And.left) hlater (used hused)
      hgone
    simp [loadEnrollment, hlast]
  · have hused := htidy.proofs t p hp
    have hgone := hpurged.proofs t p x hp hx hw
    have hlast := stays_gone (fun db t => db.proofs.get t) (fun s a t x hx =>
      (proof_origin (exec_does s a) hx).imp Made.drawn fun h => h.imp fun _ => And.left) hlater (used hused) hgone
    simp [consumeReauth, hsent, hlast]
  · have hstale := hpurged.stale hallowed (htidy.flows id f hf) hw
    have hnumbered := (answered_le_guessed hr₁ "").1
    have hholds : Holds e.before id f :=
      ⟨hnumbered id f hf, fun f' hf' => Option.some.inj (hf'.symm.trans hf)⟩
    obtain ⟨h₃, h₄, rfl, hr₃, -, heq, -⟩ := hlater.split he'
    have hnow : Stale e'.before f ∧ Holds e'.before id f := by
      refine hr₃.invariant (I := fun s => Stale s f ∧ Holds s id f) ⟨hstale, hholds.after_exec _⟩ ?_
      exact fun s a ih hallowed => ⟨ih.1.after_exec hallowed, ih.2.after_exec a⟩
    rw [heq] at hfin ⊢
    exact hnow.1.finish hnow.2 hfin

/-! ## A change of a user while they log in -/

def sampleUsers : List (Act Unit) :=
  [.setup ⟨.configurable, false, 1, by decide, defaultPolicy.positive⟩,
   .bootstrap "a" "p" ⟨"1", "2"⟩ 0,
   .beginReauth "1" (sampleRequest .post [] "" []) (sampleReauth .post []) 1,
   .snapshotReauth 0,
   .finishReauth 1 "3" [] 2 2,
   .operate "1" (sampleRequest .post [] "0123456789abcdef" ["3"]) (sampleReadings 3)
     (.createUser "q" true)]

def sampleBefore : List (Act Unit) :=
  sampleUsers ++
  [.snapshot "b",
   .finishPassword 2 "q" ⟨"4", "5"⟩ 4,
   .snapshot "b",
   .beginReauth "1" (sampleRequest .post [] "" []) (sampleReauth .patch sampleRevision.text) 5,
   .snapshotReauth 4,
   .finishReauth 5 "6" [] 6 6]

def sampleChange : Act Unit :=
  .operate "1" (sampleRequest .patch [sampleRevision] "0123456789abcdeg" ["6"]) (sampleReadings 7)
    (.changeUser sampleUser false)

def sampleAfter : List (Act Unit) := [.finishPassword 3 "q" ⟨"7", "8"⟩ 8]

def sampleMoment : System Unit := stateAfter (exec samplePlatform) (installed ()) sampleBefore

theorem sampleMoment_session :
    sampleMoment.db.sessions.get "4" = some ⟨"b", "5", 2, 1, false, 4, 4⟩ := by
  decide +kernel

theorem sampleChange_output :
    (exec samplePlatform sampleMoment sampleChange).1 =
      .answer (.executed ⟨200, ['u'], ['"', 'u', 's', 'e', 'r', '-', '2', '"']⟩) := by
  decide +kernel

/-! ## A change of the policy -/

def policyRevision : Plain := ⟨['"', 'p', 'o', 'l', 'i', 'c', 'y', '-', '1', '"'], by decide⟩

def flipRequest (method : Method) (ifMatch : List Plain) (key : String) (proof : List Token) : Request :=
  { sampleRequest method ifMatch key proof with csrf := ["4"] }

def flipBefore : List (Act Unit) :=
  let reauth : ReauthInput := ⟨"p", "000000", .writeTOTPPolicy, totpTarget,
    actionRequestDigest .put totpTarget.text policyRevision.text ['x']⟩
  [.bootstrap "a" "p" ⟨"1", "2"⟩ 0,
   .beginEnrollment "1" false "s" 1 1,
   .reserveEnrollment "1" false 2 2,
   .finishEnrollment 0 "000000" sampleHashes ⟨"3", "4"⟩ 3 3,
   .beginReauth "3" (flipRequest .post [] "" []) { sampleReauth .post [] with totp := "000000" }
     30000005,
   .snapshotReauth 1,
   .finishReauth 2 "5" [] 30000006 30000006,
   .operate "3" (flipRequest .post [] "0123456789abcdef" ["5"]) (sampleReadings 30000007)
     (.createUser "q" true),
   .snapshot "b",
   .finishPassword 3 "q" ⟨"6", "7"⟩ 30000008,
   .snapshot "a",
   .finishPassword 4 "p" ⟨"8", "9"⟩ 30000009,
   .reserveRecovery "8" 30000010 30000010,
   .beginReauth "3" (flipRequest .post [] "" []) reauth 60000005,
   .snapshotReauth 6,
   .finishReauth 7 "10" [] 60000006 60000006,
   .beginReauth "3" (flipRequest .post [] "" []) reauth 90000007,
   .snapshotReauth 8,
   .finishReauth 9 "11" [] 90000008 90000008]

def flipChange : Act Unit :=
  .operate "3" (flipRequest .put [policyRevision] "0123456789abcdeg" ["11"]) (sampleReadings 90000009)
    (.changePolicy ⟨"12", "13"⟩)

def flipRecovery : Act Unit := .finishRecovery 5 "7" ⟨"14", "15"⟩ 90000010 90000010

def flipMoment : System Unit := stateAfter (exec samplePlatform) (installed ()) flipBefore

def flipped : System Unit :=
  stateAfter (exec samplePlatform) (installed ()) (flipBefore ++ [flipChange, flipRecovery])

theorem flipChange_output :
    (exec samplePlatform flipMoment flipChange).1 = .answer (.executed
      ⟨200, ['p'], ['"', 'p', 'o', 'l', 'i', 'c', 'y', '-', '2', '"']⟩) := by
  decide +kernel

theorem flipMoment_rows : (flipMoment.db.sessions.get "3").isSome = true ∧
    (flipMoment.db.challenges.get "8").isSome = true ∧
    (flipMoment.db.enrollments.get "6").isSome = true ∧
    (flipMoment.db.proofs.get "10").map Proof.session = some "3" := by
  decide +kernel

theorem flipMoment_flow : ∃ a, flipMoment.flows.get 5 = some (.recovery a) := by
  have hrecovers : (flipMoment.flows.get 5).any (Flow.isRecovery "8") = true := by decide +kernel
  cases hget : flipMoment.flows.get 5 with
  | none =>
    rw [hget] at hrecovers
    cases hrecovers
  | some f =>
    rw [hget] at hrecovers
    cases f with
    | recovery a => exact ⟨a, rfl⟩
    | _ => cases hrecovers

theorem sample_split (before : List (Act Unit)) (change : Act Unit) (after : List (Act Unit))
    (hdrawn : ((before ++ change :: after).flatMap Act.drawn).Nodup) :
    Run (exec samplePlatform) Allowed (installed ())
      (eventsOf (exec samplePlatform) (installed ()) before ++
        eventOf (exec samplePlatform) (stateAfter (exec samplePlatform) (installed ()) before) change ::
          eventsOf (exec samplePlatform)
            (exec samplePlatform (stateAfter (exec samplePlatform) (installed ()) before) change).2 after)
      (stateAfter (exec samplePlatform) (installed ()) (before ++ change :: after)) := by
  have hrun := run_of_fresh (P := samplePlatform) (installed ()) hdrawn fun _ _ => List.not_mem_nil
  rw [eventsOf_append] at hrun
  exact hrun

/-- The session of the user who is changed, and all that the users had before the policy
is changed. -/
theorem sampleChanges_revoke :
    loadSession (stateAfter (exec samplePlatform) (installed ())
      (sampleBefore ++ sampleChange :: sampleAfter)).db "4" 9 = .error .unauthenticated ∧
    loadSession flipped.db "3" 90000011 = .error .unauthenticated ∧
    loadChallenge flipped.db "8" 90000011 = none ∧
    loadEnrollment flipped.db "6" false 90000011 = none ∧
    consumeReauth flipped.db "12" (flipRequest .put [policyRevision] "0123456789abcdeh" ["10"])
      .writeTOTPPolicy totpTarget 90000011 = .error .forbidden ∧
    ∃ err, (exec samplePlatform (exec samplePlatform flipMoment flipChange).2 flipRecovery).1 =
      .refused err := by
  have huser := revocation_is_complete samplePlatform
    (sample_split sampleBefore sampleChange sampleAfter (by decide))
    (.user rfl sampleChange_output rfl)
  obtain ⟨sessions, challenges, enrollments, proofs, flows⟩ := revocation_is_complete samplePlatform
    (sample_split flipBefore flipChange [flipRecovery] (by decide))
    (.policy rfl flipChange_output (by decide +kernel))
  obtain ⟨hsession, hchallenge, henrollment, hproof⟩ := flipMoment_rows
  obtain ⟨x, hx⟩ := Option.isSome_iff_exists.mp hsession
  obtain ⟨c, hc⟩ := Option.isSome_iff_exists.mp hchallenge
  obtain ⟨y, hy⟩ := Option.isSome_iff_exists.mp henrollment
  obtain ⟨p, hp, hon⟩ := Option.map_eq_some_iff.mp hproof
  obtain ⟨a, ha⟩ := flipMoment_flow
  refine ⟨huser.1 "4" _ 9 sampleMoment_session (by decide), sessions "3" x _ hx trivial,
    challenges "8" c _ hc trivial, enrollments "6" y false _ hy trivial,
    proofs "10" p x "12" _ _ _ _ hp (hon ▸ hx) trivial rfl, ?_⟩
  exact (flows 5 _ ha trivial _ List.mem_cons_self ⟨"7", _, _, _, rfl⟩).1

end WaitingRoom.Admin
