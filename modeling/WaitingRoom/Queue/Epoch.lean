import WaitingRoom.Queue.Hold

/-!
# Epochs

All epochs of an installation share one record: the current epoch and the
highest clock any command has seen. A new epoch starts held until an hour and
thirty seconds after that clock, which outlasts every admission of the epochs
before it; from then on the calls of those epochs are refused.
-/

namespace WaitingRoom.Queue

set_option autoImplicit false

theorem switchEpoch_cases {s s' : EpochMeta} {ic now epoch notBefore bound : Nat}
    (h : switchEpoch s ic now epoch notBefore = some (s', bound))
    (current : epochRefused s.epoch epoch = false) :
    (s.epoch = none ∧ s' = { s with epoch := some epoch, clock := some ic }) ∨
      (∃ c clock, s.epoch = some c ∧ c < epoch ∧ s.clock = some clock ∧
        s' = { s with epoch := some epoch, unsafeUntil := some bound } ∧
        max now clock + 3630000 ≤ bound) ∨
      (s.epoch = some epoch ∧ s' = s) := by
  unfold switchEpoch at h
  cases he : s.epoch with
  | none =>
    simp only [he, Option.some.injEq, Prod.mk.injEq] at h
    exact .inl ⟨rfl, h.1.symm⟩
  | some c =>
    simp only [he] at h
    simp only [he, epochRefused, decide_eq_false_iff_not, Nat.not_lt] at current
    split at h
    · rename_i hlt
      cases hclock : s.clock with
      | none => simp [hclock] at h
      | some clock =>
        simp only [hclock] at h
        split at h
        · simp at h
        · simp only [Option.some.injEq, Prod.mk.injEq] at h
          obtain ⟨hs, hb⟩ := h
          refine .inr (.inl ⟨c, clock, rfl, hlt, rfl, ?_, ?_⟩)
          · rw [← hb]
            exact hs.symm
          · omega
    · rename_i hle
      simp only [Option.some.injEq, Prod.mk.injEq] at h
      have : c = epoch := by omega
      exact .inr (.inr ⟨by rw [this], h.1.symm⟩)

theorem switchEpoch_epoch {s s' : EpochMeta} {ic now epoch notBefore bound : Nat}
    (h : switchEpoch s ic now epoch notBefore = some (s', bound))
    (current : epochRefused s.epoch epoch = false) : s'.epoch = some epoch := by
  rcases switchEpoch_cases h current with ⟨-, rfl⟩ | ⟨_, _, -, -, -, rfl, -⟩ | ⟨he, rfl⟩
  · rfl
  · rfl
  · exact he

/-- What a call through the keys of `epoch` can do to the shared record: nothing
but raise its clock, or make `epoch` current together with its installation. -/
inductive SharedMove (epoch : Nat) (k k' : QueueKeys) : Prop
  | same (current : k'.shared.epoch = k.shared.epoch)
      (clock : k.shared.clock.getD 0 ≤ k'.shared.clock.getD 0)
      (blank : k'.shared.epoch = none → k'.shared.clock = k.shared.clock)
      (inst : k'.inst.config ≠ none → k.inst.config ≠ none)
  | first (before : k.shared.epoch = none) (current : k'.shared.epoch = some epoch)
      (inst : k'.inst.config ≠ none)
  | later {c clock : Nat} (before : k.shared.epoch = some c) (lt : c < epoch)
      (clock_eq : k.shared.clock = some clock) (current : k'.shared.epoch = some epoch)
      (clock_le : clock ≤ k'.shared.clock.getD 0) (inst : k'.inst.config ≠ none)
      (horizon : clock + 3630000 ≤ k'.inst.gate.horizon)

section Shared

variable {env : Env} {epoch : Nat} {room : String} {k k' : QueueKeys}

theorem openedKeys_horizon {a : InitArgs} {n : Nat} {g : Installation} (h : k.inst.config = none)
    (hn : env.now < n) : (openedKeys k env a n g).inst.gate.horizon = n := by
  obtain ⟨hmode, hunsafe, -⟩ := createInstallation_held { g with dirty := true } env a n hn
  rw [openedKeys_gate, openedInstallation_of_none h]
  simp [Gate.horizon, Installation.gate, coverLifetime, hmode, hunsafe]

theorem command_shared {op : Op} {primary : String} {fence : Nat} {o : Outcome}
    (hm : CommandMove env op primary fence k o k')
    (installed : Available k → k.shared.epoch ≠ none) : SharedMove epoch k k' := by
  have hinst : k'.inst.config ≠ none → k.inst.config ≠ none := by
    rw [command_config hm]
    exact id
  have hcommit : ∀ k₁ : QueueKeys, Available k →
      k₁.shared.epoch = k.shared.epoch → k.shared.clock.getD 0 ≤ k₁.shared.clock.getD 0 →
      (commit k₁).shared.epoch = k.shared.epoch ∧
        k.shared.clock.getD 0 ≤ (commit k₁).shared.clock.getD 0 ∧
        ((commit k₁).shared.epoch = none → (commit k₁).shared.clock = k.shared.clock) := by
    intro k₁ available hepoch hclock
    refine ⟨hepoch, hclock.trans (Nat.le_max_right _ _), fun hnone => ?_⟩
    exact absurd (hepoch.symm.trans hnone) (installed available)
  have hbegin : k.shared.clock.getD 0 ≤ (beginCommand k env.now).shared.clock.getD 0 :=
    Nat.le_max_right _ _
  cases hm with
  | refused => exact .same rfl (Nat.le_refl _) (fun _ => rfl) hinst
  | rollback => exact .same rfl (Nat.le_refl _) (fun _ => rfl) hinst
  | rejected enters =>
    obtain ⟨h₁, h₂, h₃⟩ := hcommit (beginCommand k env.now) enters.available rfl hbegin
    exact .same h₁ h₂ h₃ hinst
  | roomRollback enters =>
    obtain ⟨h₁, h₂, h₃⟩ := hcommit (holdRollback (beginCommand k env.now) env)
      enters.available rfl hbegin
    exact .same h₁ h₂ h₃ hinst
  | ran enters clock config run =>
    have hshared := run.frame.shared
    obtain ⟨h₁, h₂, h₃⟩ := hcommit _ enters.available (by rw [hshared]; rfl)
      (by rw [hshared]; exact hbegin)
    exact .same h₁ h₂ h₃ hinst
  | aborted enters clock config run =>
    have hshared := run.frame.shared
    have hepoch : k'.shared.epoch = k.shared.epoch := by rw [hshared]; rfl
    refine .same hepoch (by rw [hshared]; exact hbegin) (fun hnone => ?_) hinst
    exact absurd (hepoch.symm.trans hnone) (installed enters.available)

theorem upkeep_shared {u : Upkeep} (hm : UpkeepMove env epoch room k u k')
    (current : k.shared.epoch = some epoch → k.inst.config ≠ none)
    (installed : k.inst.config ≠ none → ∃ n, k.shared.epoch = some n ∧ epoch ≤ n) :
    SharedMove epoch k k' := by
  have hsame : k'.shared = k.shared → (k'.inst.config ≠ none → k.inst.config ≠ none) →
      SharedMove epoch k k' := by
    intro hs hi
    exact .same (by rw [hs]) (by rw [hs]) (fun _ => by rw [hs]) hi
  cases hm with
  | still => exact hsame rfl id
  | held current schema holds =>
    obtain ⟨-, rfl⟩ := hold_eq_some holds
    exact hsame rfl id
  | passed accepted switched hg =>
    obtain ⟨n, hn, hle⟩ := installed hg
    rcases switchEpoch_cases switched accepted.current with ⟨h, -⟩ | ⟨c, _, h, hlt, -⟩ | ⟨-, rfl⟩
    · simp [hn] at h
    · obtain rfl : n = c := Option.some.inj (hn.symm.trans h)
      exact absurd hlt (Nat.not_lt.mpr hle)
    · exact hsame rfl id
  | opened accepted switched new sound =>
    rename_i config primary global notBefore bound shared g
    have hinst := (openedInstallation_kept (k := { k with shared := shared }) (n := bound)
      (a := ⟨config, primary, global, room, epoch, notBefore⟩)
      (fun hg => (accepted.installed hg).2) sound).1
    rw [← openedKeys_config] at hinst
    obtain ⟨hepoch, hclock⟩ := openedKeys_shared { k with shared := shared } env
      ⟨config, primary, global, room, epoch, notBefore⟩ bound g
    rcases switchEpoch_cases switched accepted.current with
      ⟨h, rfl⟩ | ⟨c, clock, h, hlt, hc, rfl, hbound⟩ | ⟨h, rfl⟩
    · exact .first h hepoch hinst
    · have hnone : k.inst.config = none := by
        by_contra hg
        obtain ⟨n, hn, hle⟩ := installed hg
        obtain rfl : n = c := Option.some.inj (hn.symm.trans h)
        exact absurd hlt (Nat.not_lt.mpr hle)
      have hle : clock + 3630000 ≤ bound := by omega
      have hnow : env.now < bound := by omega
      refine .later h hlt hc hepoch (by simpa [hc] using hclock) hinst (hle.trans ?_)
      apply Nat.le_of_eq
      symm
      exact openedKeys_horizon hnone hnow
    · exact .same hepoch hclock (fun hnone => by simp [hepoch, h] at hnone) fun _ => current h
  | configured => exact hsame rfl id
  | noted => exact hsame rfl id
  | activated => exact hsame rfl id

end Shared

/-- How the epochs of a run and the admissions granted in them lie. -/
structure EpochsOrdered (es : List QueueEvent) (db : QueueDb) : Prop where
  blank : db.shared.epoch = none → db.shared.clock = none
  current : ∀ n, db.shared.epoch = some n → (db.inst n).config ≠ none
  installed : ∀ e, (db.inst e).config ≠ none → ∃ n, db.shared.epoch = some n ∧ e ≤ n
  granted : ∀ e, ∀ t ∈ promotedIn e es, ∃ p, t.promotedAt = some p ∧
    p ≤ db.shared.clock.getD 0 ∧ t.admissionUntil ≤ p + 3600000
  past : ∀ e' e, e' < e → (db.inst e).config ≠ none → ∀ t ∈ promotedIn e' es,
    t.admissionUntil + 30000 ≤ (db.inst e).gate.horizon ∧
      ∃ p, t.promotedAt = some p ∧ p + 60000 ≤ (db.inst e).gate.horizon

variable {s : Step Call} {es : List QueueEvent} {db : QueueDb} {n notBefore : Nat} {reply : Reply}
  {primary : String}

theorem moved_shared {o : Outcome} {k k' : QueueKeys} (hm : Moved s k o k')
    (current : k.shared.epoch = some s.epoch → k.inst.config ≠ none)
    (installed : k.inst.config ≠ none → ∃ n, k.shared.epoch = some n ∧ s.epoch ≤ n)
    (hschema : k.inst.schema = 5 → k.inst.config ≠ none) : SharedMove s.epoch k k' := by
  cases hm with
  | upkeep call move => exact upkeep_shared move current installed
  | command call move =>
    refine command_shared move fun available hnone => ?_
    obtain ⟨n, hn, -⟩ := installed (hschema available.2.1)
    simp [hn] at hnone
  | read => exact .same rfl (Nat.le_refl _) (fun _ => rfl) id

theorem EpochsOrdered.start : EpochsOrdered [] {} :=
  ⟨fun _ => rfl, by simp, by simp, by simp [promotedIn], by simp [promotedIn]⟩

theorem EpochsOrdered.snoc (h : EpochsOrdered es db) (hr : QueueRun es db)
    (wf : s.call.WellFormed) :
    EpochsOrdered (es ++ [eventOf exec db s]) (exec db s).2 := by
  obtain ⟨k', hm, heq⟩ := exec_moved db s
  have hmove := moved_shared hm (h.current s.epoch) (h.installed s.epoch)
    (run_synced hr s.epoch).installed_of_schema
  have hself : ((exec db s).2.inst s.epoch) = k'.inst := by rw [heq, Db.set_inst_self]
  have hother : ∀ e, e ≠ s.epoch → (exec db s).2.inst e = db.inst e :=
    fun e he => by rw [heq, Db.set_inst_ne he]
  have hshared : (exec db s).2.shared = k'.shared := by rw [heq]; rfl
  -- a promotion by this call belongs to the current epoch
  have hnew : ∀ e, ∀ t ∈ promotedIn e [eventOf exec db s], (db.inst e).config ≠ none ∧
      e = s.epoch ∧ db.shared.epoch = some e ∧ t.promotedAt = some s.env.now ∧
      s.env.now ≤ (exec db s).2.shared.clock.getD 0 ∧
      t.admissionUntil ≤ s.env.now + 3600000 := by
    intro e t ht
    obtain ⟨ev, hev, he, hp⟩ := mem_promotedIn.mp ht
    obtain rfl := List.mem_singleton.mp hev
    subst he
    obtain ⟨hinst, hepoch, hclock, -, -, hg⟩ :=
      promoted_granted (run_synced hr _) (run_timed hr _) wf hp
    exact ⟨hinst, rfl, hepoch, hg.at_now, hclock, hg.hour⟩
  have hall : ∀ e, ∀ t ∈ promotedIn e (es ++ [eventOf exec db s]),
      t ∈ promotedIn e es ∨ t ∈ promotedIn e [eventOf exec db s] := by
    intro e t ht
    rwa [promotedIn_append, List.mem_append] at ht
  cases hmove with
  | same hcur hclock hblank hinst =>
    have hbefore : ∀ e, ((exec db s).2.inst e).config ≠ none → (db.inst e).config ≠ none := by
      intro e he
      by_cases hes : e = s.epoch
      · subst hes
        rw [hself] at he
        exact hinst he
      · rwa [hother e hes] at he
    refine ⟨?_, ?_, ?_, ?_, ?_⟩
    · intro hnone
      rw [hshared] at hnone ⊢
      rw [hblank hnone]
      exact h.blank (hcur.symm.trans hnone)
    · intro n hn
      rw [hshared, hcur] at hn
      exact exec_installed s (h.current n hn)
    · intro e he
      rw [hshared, hcur]
      exact h.installed e (hbefore e he)
    · intro e t ht
      rcases hall e t ht with ht | ht
      · obtain ⟨p, hp, hle, hadm⟩ := h.granted e t ht
        rw [hshared]
        exact ⟨p, hp, hle.trans hclock, hadm⟩
      · obtain ⟨-, -, -, hp, hle, hadm⟩ := hnew e t ht
        exact ⟨_, hp, hle, hadm⟩
    · intro e' e hlt he t ht
      have hb := hbefore e he
      rcases hall e' t ht with ht | ht
      · obtain ⟨hadm, p, hp, hle⟩ := h.past e' e hlt hb t ht
        have hgrow := ((exec_path s hb).grows (run_timed hr e).settled).horizon
        exact ⟨hadm.trans hgrow, p, hp, hle.trans hgrow⟩
      · obtain ⟨-, -, hepoch, -⟩ := hnew e' t ht
        obtain ⟨n, hn, hle⟩ := h.installed e hb
        obtain rfl : e' = n := Option.some.inj (hepoch.symm.trans hn)
        omega
  | first hnone hcur hinst =>
    have hvoid : ∀ e, (db.inst e).config = none := by
      intro e
      by_contra he
      obtain ⟨n, hn, -⟩ := h.installed e he
      exact absurd (hn.symm.trans hnone) (by simp)
    have hno : ∀ e t, t ∉ promotedIn e (es ++ [eventOf exec db s]) := by
      intro e t ht
      rcases hall e t ht with ht | ht
      · exact (run_covers hr e t ht).1 (hvoid e)
      · exact (hnew e t ht).1 (hvoid e)
    refine ⟨?_, ?_, ?_, fun e t ht => absurd ht (hno e t), fun e' _ _ _ t ht => absurd ht (hno e' t)⟩
    · intro h
      rw [hshared, hcur] at h
      simp at h
    · intro n hn
      rw [hshared, hcur] at hn
      obtain rfl := Option.some.inj hn
      rwa [hself]
    · intro e he
      by_cases hes : e = s.epoch
      · subst hes
        exact ⟨s.epoch, by rw [hshared, hcur], Nat.le_refl _⟩
      · rw [hother e hes] at he
        exact absurd (hvoid e) he
  | @later c clock hbefore hlt hclock hcur hle hinst hhorizon =>
    have hbefore : db.shared.epoch = some c := hbefore
    have hclock : db.shared.clock = some clock := hclock
    have hinst_le : ∀ e, (db.inst e).config ≠ none → e ≤ c := by
      intro e he
      obtain ⟨n, hn, hle⟩ := h.installed e he
      obtain rfl : c = n := Option.some.inj (hbefore.symm.trans hn)
      exact hle
    have hold : ∀ e, ∀ t ∈ promotedIn e (es ++ [eventOf exec db s]), ∃ p, t.promotedAt = some p ∧
        p ≤ clock ∧ t.admissionUntil ≤ p + 3600000 ∧ t ∈ promotedIn e es := by
      intro e t ht
      rcases hall e t ht with ht | ht
      · obtain ⟨p, hp, hle, hadm⟩ := h.granted e t ht
        rw [hclock, Option.getD_some] at hle
        exact ⟨p, hp, hle, hadm, ht⟩
      · obtain ⟨hinst, rfl, -⟩ := hnew e t ht
        exact absurd (hinst_le _ hinst) (Nat.not_le.mpr hlt)
    refine ⟨?_, ?_, ?_, ?_, ?_⟩
    · intro h
      rw [hshared, hcur] at h
      simp at h
    · intro n hn
      rw [hshared, hcur] at hn
      obtain rfl := Option.some.inj hn
      rwa [hself]
    · intro e he
      refine ⟨s.epoch, by rw [hshared, hcur], ?_⟩
      by_cases hes : e = s.epoch
      · exact Nat.le_of_eq hes
      · rw [hother e hes] at he
        exact (hinst_le e he).trans hlt.le
    · intro e t ht
      obtain ⟨p, hp, hpc, hadm, -⟩ := hold e t ht
      rw [hshared]
      exact ⟨p, hp, hpc.trans hle, hadm⟩
    · intro e' e hee he t ht
      obtain ⟨p, hp, hpc, hadm, ht⟩ := hold e' t ht
      by_cases hes : e = s.epoch
      · subst hes
        rw [hself]
        exact ⟨by omega, p, hp, by omega⟩
      · rw [hother e hes] at he ⊢
        exact h.past e' e hee he t ht

theorem run_ordered (hr : QueueRun es db) :
    EpochsOrdered es db := by
  induction hr with
  | nil => exact .start
  | snoc s hr wf ih => exact ih.snoc hr wf

theorem exec_epoch (hr : QueueRun es db) (s : Step Call) (hn : db.shared.epoch = some n) :
    ∃ m, (exec db s).2.shared.epoch = some m ∧ n ≤ m := by
  have h := run_ordered hr
  obtain ⟨k', hm, heq⟩ := exec_moved db s
  rw [heq, Db.set_shared]
  cases moved_shared hm (h.current s.epoch) (h.installed s.epoch)
    (run_synced hr s.epoch).installed_of_schema with
  | same current => exact ⟨n, current.trans hn, Nat.le_refl _⟩
  | first before => exact absurd (hn.symm.trans before) (by simp)
  | later before lt _ current =>
    obtain rfl := Option.some.inj (hn.symm.trans before)
    exact ⟨s.epoch, current, lt.le⟩

theorem run_epoch {es es' : List QueueEvent} {db db' : QueueDb} (hr : QueueRun es db)
    (hr' : RunFrom db es' db') (hn : db.shared.epoch = some n) :
    ∃ m, db'.shared.epoch = some m ∧ n ≤ m := by
  induction hr' with
  | nil => exact ⟨n, hn, Nat.le_refl _⟩
  | snoc s hr' wf ih =>
    obtain ⟨m, hm, hle⟩ := ih
    obtain ⟨m', hm', hle'⟩ := exec_epoch (hr.append hr') s hm
    exact ⟨m', hm', hle.trans hle'⟩

theorem wrR6Init_current {T I : Type} {k k' : Keys T I} {env : Env} {a : InitArgs}
    (h : wrR6Init k env a = (.reply reply, k')) : k'.shared.epoch = some a.epoch := by
  unfold wrR6Init at h
  split at h
  · simp at h
  · rename_i refusal
    have current := (initAccepted_of_refusal refusal).current
    split at h
    · simp at h
    · rename_i shared bound switched
      have hepoch := switchEpoch_epoch switched current
      dsimp only at h
      split at h
      · unfold openRoom at h
        split at h
        · simp at h
        · obtain ⟨-, rfl⟩ := Prod.mk.inj h
          rw [(openedKeys_shared _ _ _ _ _).1]
          exact hepoch
      · obtain ⟨-, rfl⟩ := Prod.mk.inj h
        exact hepoch

theorem exec_init_current {config : Config} {global : InstallationConfig}
    (call : s.call = .upkeep (.init config primary global notBefore))
    (hout : (exec db s).1 = .reply reply) : (exec db s).2.shared.epoch = some s.epoch := by
  unfold exec at hout ⊢
  rw [call] at hout ⊢
  exact wrR6Init_current (Prod.ext hout rfl)

theorem exec_stale (hs : EpochSynced db s.epoch) (hn : db.shared.epoch = some n)
    (hlt : s.epoch < n) :
    ∃ err, exec db s = (.error err, db) := by
  have hcurrent : ¬ EpochCurrent (db.keys s.epoch s.room) := by
    intro hcur
    have hcur : db.shared.epoch = (db.inst s.epoch).epoch := hcur
    by_cases hc : (db.inst s.epoch).config = none
    · rw [hs.uninstalled hc, hn] at hcur
      simp at hcur
    · rw [(hs.installed hc).2, hn] at hcur
      obtain rfl := Option.some.inj hcur
      exact absurd hlt (Nat.lt_irrefl _)
  have hfenced : ∀ primary fence, ¬ Fenced (db.keys s.epoch s.room) s.env primary fence :=
    fun _ _ hf => hcurrent hf.1
  have refused : (∃ err, runCall (db.keys s.epoch s.room) s.epoch s.room s.env s.call =
      (.error err, db.keys s.epoch s.room)) → ∃ err, exec db s = (.error err, db) :=
    fun ⟨err, h⟩ => ⟨err, exec_of_unchanged h⟩
  apply refused
  cases s.call with
  | upkeep u =>
    cases u with
    | init config primary global notBefore =>
      have hrefusal : initRefusal (db.keys s.epoch s.room) s.env
          ⟨config, primary, global, s.room, s.epoch, notBefore⟩ ≠ none := by
        intro h
        have := (initAccepted_of_refusal h).current
        simp [epochRefused, hn, hlt] at this
      obtain ⟨err, herr⟩ := Option.ne_none_iff_exists'.mp hrefusal
      exact ⟨err, by simp [runCall, runUpkeep, wrR6Init, herr]⟩
    | recover primary uncertain =>
      simp only [runCall, runUpkeep, wrR6Recover, hcurrent]
      split
      · exact ⟨_, rfl⟩
      · exact ⟨.fenced, by simp⟩
    | validate primary fence =>
      exact ⟨.fenced, by simp [runCall, runUpkeep, wrR6Validate, hfenced]⟩
    | configureHeld d primary fence =>
      exact ⟨.fenced, by simp [runCall, runUpkeep, wrR6ConfigureHeld, hfenced]⟩
  | command op primary fence => exact ⟨.fenced, by simp [runCall, wrR6Command, hfenced]⟩
  | status id primary fence => exact ⟨.fenced, by simp [runCall, wrR6Status, hfenced]⟩
  | capacity primary fence => exact ⟨.fenced, by simp [runCall, wrR6Capacity, hfenced]⟩
  | metrics primary fence => exact ⟨.fenced, by simp [runCall, wrR6Metrics, hfenced]⟩

theorem command_enters {op : Op} {fence : Nat} (call : s.call = .command op primary fence)
    (hout : (exec db s).1 = .reply reply) :
    Enters (db.keys s.epoch s.room) s.env primary fence := by
  have hm := wrR6Command_move (db.keys s.epoch s.room) s.env op primary fence
  have ho : (wrR6Command (db.keys s.epoch s.room) s.env op primary fence).1 = .reply reply := by
    have : (exec db s).1 = (runCall (db.keys s.epoch s.room) s.epoch s.room s.env s.call).1 := rfl
    rw [this, call] at hout
    exact hout
  rw [ho] at hm
  generalize (wrR6Command (db.keys s.epoch s.room) s.env op primary fence).2 = k' at hm
  cases hm with
  | ran enters => exact enters

/-- An admission of an earlier epoch is over, and its promotion a minute past,
when a command of epoch `e` is answered. -/
theorem past_of_enters (hr : QueueRun es db) {e e' : Nat} {room primary : String} {env : Env}
    {fence : Nat} (hlt : e' < e) (enters : Enters (db.keys e room) env primary fence) {t : Ticket}
    (ht : t ∈ promotedIn e' es) :
    t.admissionUntil + 30000 ≤ env.now ∧ ∃ p, t.promotedAt = some p ∧ p + 60000 ≤ env.now := by
  have hinst := (run_synced hr e).installed_of_schema enters.available.2.1
  obtain ⟨hadm, p, hp, hle⟩ := (run_ordered hr).past e' e hlt hinst t ht
  have hmode : (db.inst e).mode = .active := enters.available.2.2.2.1
  have hclock : (db.inst e).clock ≤ env.now := enters.clock
  have hhorizon : (db.inst e).gate.horizon = (db.inst e).clock := by
    simp [Gate.horizon, Installation.gate, hmode]
  rw [hhorizon] at hadm hle
  exact ⟨hadm.trans hclock, p, hp, hle.trans hclock⟩

theorem not_promoted_of_past {es es' : List QueueEvent} {db db' : QueueDb} (hr : QueueRun es db)
    (hr' : RunFrom db es' db') {e n : Nat} (hn : db.shared.epoch = some n) (hlt : e < n) :
    promotedIn e es' = [] := by
  rw [List.eq_nil_iff_forall_not_mem]
  intro t ht
  obtain ⟨ev, hev, he, hp⟩ := mem_promotedIn.mp ht
  obtain ⟨l₁, l₂, hl, hb, wf, heq, ha⟩ := hr'.split hev
  have hrun := hr.append hb
  obtain ⟨m, hm, hle⟩ := run_epoch hr hb hn
  rw [heq] at hp
  subst he
  have hcur := (promoted_granted (run_synced hrun _) (run_timed hrun _) wf hp).2.1
  obtain rfl := Option.some.inj (hcur.symm.trans hm)
  omega

/-- For a run through any reachable state. -/
theorem epoch_fence {es es' : List QueueEvent} {db db' : QueueDb} (hr : QueueRun es db)
    (hr' : RunFrom db es' db') :
    (∀ n, db.shared.epoch = some n → ∃ m, db'.shared.epoch = some m ∧ n ≤ m) ∧
    (∀ ev ∈ es, (∃ config primary global notBefore reply,
        ev.input.call = .upkeep (.init config primary global notBefore) ∧
          ev.output = .reply reply) →
      ∀ s : Step Call, s.epoch < ev.input.epoch → ∃ err, exec db' s = (.error err, db')) ∧
    (∀ ev ∈ es, (∃ op primary fence reply,
        ev.input.call = .command op primary fence ∧ ev.output = .reply reply) →
      ∀ e < ev.input.epoch, ∀ t ∈ promotedIn e es, t.admissionUntil + 30000 ≤ ev.input.env.now ∧
        ∃ p, t.promotedAt = some p ∧ p + 60000 ≤ ev.input.env.now) := by
  refine ⟨fun n hn => run_epoch hr hr' hn, ?_, ?_⟩
  · rintro ev hev ⟨config, primary, global, notBefore, reply, hcall, hout⟩ s hlt
    obtain ⟨before, rest, -, hb, wf, heq, ha⟩ := hr.split hev
    have hafter : ev.after.shared.epoch = some ev.input.epoch := by
      rw [heq] at hout ⊢
      exact exec_init_current hcall hout
    have hrun : QueueRun (before ++ [ev]) ev.after := by
      rw [heq]
      exact hb.snoc ev.input wf
    obtain ⟨m, hm, hle⟩ := run_epoch hrun (ha.append hr') hafter
    exact exec_stale (run_synced (hr.append hr') s.epoch) hm (Nat.lt_of_lt_of_le hlt hle)
  · rintro ev hev ⟨op, primary, fence, reply, hcall, hout⟩ e hlt t ht
    obtain ⟨before, rest, rfl, hb, wf, heq, ha⟩ := hr.split hev
    rw [heq] at hout
    have enters := command_enters hcall hout
    have hcur : ev.before.shared.epoch = some ev.input.epoch := enters.available.1.trans
      ((run_synced hb _).installed ((run_synced hb _).installed_of_schema enters.available.2.1)).2
    -- nothing of an earlier epoch is promoted by this command or after it
    have hrest : RunFrom ev.before (ev :: rest) db := by
      obtain ⟨m, hm, hrest⟩ := Run.of_append hr
      have hfirst := (Run.of_cons hrest).2.1
      obtain rfl : ev.before = m := by rw [hfirst]; rfl
      exact hrest
    rw [promotedIn_append, not_promoted_of_past hb hrest hcur hlt, List.append_nil] at ht
    exact past_of_enters hb hlt enters ht

def secondEpochSteps : List (Step Call) :=
  let step (now : Nat) (u : Upkeep) : Step Call := ⟨2, "room", ⟨now, "primary"⟩, .upkeep u⟩
  let validate := step 4630010 (.validate "primary" 1)
  sampleSteps ++ [step 1000010 (.init sampleConfig "primary" ⟨"lab", 4, 4⟩ 0),
    validate, validate, validate]

def secondEpochDb : QueueDb := stateAfter exec {} secondEpochSteps

theorem secondEpoch_run : QueueRun (eventsOf exec {} secondEpochSteps) secondEpochDb := by
  have wf : ∀ s ∈ secondEpochSteps, ∀ _ : QueueDb, s.call.WellFormed := by
    intro s hs db
    rcases List.mem_append.mp hs with hs | hs
    · exact sampleSteps_wellFormed s hs db
    · simp only [List.mem_cons, List.not_mem_nil, or_false] at hs
      rcases hs with rfl | rfl | rfl | rfl
      · exact sampleConfig_valid
      all_goals trivial
  exact run_of_inputs {} wf

def secondEpochSweep : Step Call := ⟨2, "room", ⟨4630011, "primary"⟩, .command .sweep "primary" 1⟩

theorem secondEpoch_fence : (∃ t, t ∈ promotedIn 1 (eventsOf exec {} secondEpochSteps)) ∧
    (exec secondEpochDb secondEpochSweep).1 = answer 4630011 none ∧
    (∀ t ∈ promotedIn 1 (eventsOf exec {} secondEpochSteps), t.admissionUntil + 30000 ≤ 4630011) ∧
    ∃ m, (exec secondEpochDb secondEpochSweep).2.shared.epoch = some m ∧ 2 ≤ m := by
  have hout : (exec secondEpochDb secondEpochSweep).1 = answer 4630011 none := by decide +kernel
  have hrun := secondEpoch_run.snoc secondEpochSweep trivial
  obtain ⟨-, -, hpast⟩ := epoch_fence hrun .nil
  obtain ⟨hcurrent, -, -⟩ := epoch_fence secondEpoch_run
    (.single (a := secondEpochSweep) trivial)
  refine ⟨?_, hout, ?_, hcurrent 2 (by decide +kernel)⟩
  · exact List.exists_mem_of_ne_nil _ (by decide +kernel)
  · intro t ht
    refine (hpast _ (List.mem_append_right _ (List.mem_singleton_self _))
      ⟨_, _, _, _, rfl, hout⟩ 1 (by decide) t ?_).1
    rw [promotedIn_append]
    exact List.mem_append_left _ ht

end WaitingRoom.Queue
