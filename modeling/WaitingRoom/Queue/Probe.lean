import WaitingRoom.Queue.Order
import WaitingRoom.Queue.Sweep

/-!
# The maintenance probe

Before a promotion the store asks the read-only `wr_qm1_needed` whether there is
anything to do. The probe repeats the guards of the command, looks for one row
that is due and compares the limits with the sets; it does not look at the drain
cutoff. That this is safe rests on the cutoff of a draining room being its last
sequence number.
-/

namespace WaitingRoom.Queue

set_option autoImplicit false

/-- What `wr_qm1_needed` answers. -/
structure Probe where
  now : Nat
  maintenanceNeeded : Bool
deriving DecidableEq, Repr

/-- A row of the set is due at the score `x`. -/
def ScoreSet.hasDue (set : ScoreSet) (x : Score) : Bool := !((set.due x).take 1).isEmpty

/-- `wr_qm1_needed`. -/
def wrQm1Needed (k : QueueKeys) (env : Env) (primary : String) (fence : Nat) :
    Except WrError Probe :=
  if primary ≠ env.primary ∨ k.inst.primary ≠ some primary ∨ fence ≠ k.inst.fence ∨
      k.shared.epoch ≠ k.inst.epoch then .error .fenced
  else if k.inst.schema ≠ 5 ∨ k.room.schema ≠ 5 ∨ k.inst.mode ≠ .active ∨ k.inst.dirty ≠ false ∨
      k.inst.visitors ≠ k.inst.visitorOwners.size ∨ k.inst.idems ≠ k.inst.idemOwners.size then
    .error .unavailable
  else if env.now < k.inst.clock ∨ env.now < k.room.clock then .error .unavailable
  else if k.room.mode ≠ .hold ∧ k.room.mode ≠ .off ∧ k.room.mode ≠ .auto ∧
      k.room.mode ≠ .draining then .error .unavailable
  else
    match k.room.config with
    | none => .error .unavailable
    | some c =>
      if ScoreSet.hasDue k.room.expiry (score env.now) ∨
          ScoreSet.hasDue k.room.idemExpiry (score env.now) ∨
          ScoreSet.hasDue k.room.rate (score ((env.now : ℤ) - 60000)) then .ok ⟨env.now, true⟩
      else if k.room.mode = .auto ∨ k.room.mode = .draining then
        .ok ⟨env.now, decide (0 < k.room.waiting.size ∧ k.room.leases.size < c.leaseCap ∧
          k.room.rate.size < c.rate)⟩
      else .ok ⟨env.now, false⟩

/-- No room is ever in RECOVERY_HOLD itself, and a room that drains has taken its
last number as the cutoff. -/
structure Steady (r : QueueRoom) : Prop where
  mode : r.mode ≠ .recoveryHold
  cutoff : r.mode = .draining → r.cutoff = some r.seq

section Steady

theorem Effect.steady {now : Nat} {k k' : QueueKeys} {l : Label} (he : Effect now k l k')
    (h : Steady k.room) : Steady k'.room := by
  cases he with
  | join config accepted fresh row mode => exact ⟨h.mode, fun hd => absurd hd mode.1⟩
  | @configure c d cutoff config mode caps ttls leases rate cutoffs =>
    refine ⟨mode, fun hd => ?_⟩
    have hd : d.mode = .draining := hd
    have hcut : cutoff = some k.room.seq := by
      rw [cutoffs]
      split
      · rfl
      · rename_i hn
        exact h.cutoff (not_not.mp fun hm => hn ⟨hd, hm⟩)
    exact hcut
  | _ => exact ⟨h.mode, h.cutoff⟩

theorem Effects.steady {now : Nat} {k k' : QueueKeys} {ls : List Label}
    (run : Effects now k ls k') (h : Steady k.room) : Steady k'.room :=
  run.invariant (P := fun k => Steady k.room) h fun _ _ _ h he => he.steady h

theorem exec_steady {db : QueueDb} {e : Nat} {r : String} (s : Step Call)
    (h : Steady (db.room e r)) : Steady ((exec db s).2.room e r) := by
  obtain ⟨k', hm, heq⟩ := exec_moved db s
  rw [heq]
  by_cases hat : e = s.epoch ∧ r = s.room
  · obtain ⟨rfl, rfl⟩ := hat
    rw [Db.set_room_self]
    cases hm with
    | upkeep call move =>
      cases move with
      | opened => exact ⟨by simp [createRoom], by simp [createRoom]⟩
      | configured fenced mode reason tickets idems desired =>
        rcases desired with hd | hd
        · exact ⟨by simp [configured, hd], by simp [configured, hd]⟩
        · exact ⟨by simp [configured, hd], by simp [configured, hd]⟩
      | noted => exact ⟨h.mode, h.cutoff⟩
      | activated => exact ⟨h.mode, h.cutoff⟩
      | _ => exact h
    | command call move =>
      generalize (exec db s).1 = o at move
      have started : Steady (started (db.keys s.epoch s.room) s.env.now).room := ⟨h.mode, h.cutoff⟩
      cases move with
      | ran enters clock config run => exact run.steady started
      | aborted enters clock config run => exact run.steady started
      | _ => exact ⟨h.mode, h.cutoff⟩
    | read => exact h
  · rwa [Db.set_room_ne hat]

theorem run_steady {es : List QueueEvent} {db : QueueDb} (hr : QueueRun es db) (e : Nat)
    (r : String) : Steady (db.room e r) :=
  hr.invariant (I := fun db => Steady (db.room e r)) ⟨by simp, by simp⟩
    fun _ s h _ => exec_steady s h

end Steady

structure Serves (k : QueueKeys) (env : Env) (primary : String) (fence : Nat) (c : Config) : Prop where
  enters : Enters k env primary fence
  config : k.room.config = some c
  schema : k.room.schema = 5
  clock : k.room.clock ≤ env.now
  mode : k.room.mode ≠ .recoveryHold

section Serves

variable {k : QueueKeys} {env : Env} {c : Config} {primary : String} {fence : Nat}

theorem Serves.command {op : Op} (h : Serves k env primary fence c) (accepted : op.Accepted) :
    wrR6Command k env op primary fence =
      commitResult (sweepAndPerform (started k env.now) env.now c op) := by
  have hclock : ¬ env.now < k.inst.clock := Nat.not_lt.mpr h.enters.clock
  have hroom : ¬ env.now < k.room.clock := Nat.not_lt.mpr h.clock
  simp only [wrR6Command, h.enters.fenced, h.enters.available, hclock, not_true_eq_false, if_false]
  simp only [Queue.command, beginCommand, h.config, h.schema, accepted, hroom, h.mode, ne_eq,
    not_true_eq_false, if_false]
  rfl

theorem serves_of_command (op : Op)
    (h : ∀ err, (wrR6Command k env op primary fence).1 ≠ .error err) :
    ∃ c, Serves k env primary fence c := by
  unfold wrR6Command at h
  split at h
  · exact absurd rfl (h _)
  · rename_i fenced
    split at h
    · exact absurd rfl (h _)
    · rename_i available
      split at h
      · exact absurd rfl (h _)
      · rename_i hclock
        unfold Queue.command at h
        split at h
        · exact absurd rfl (h _)
        · rename_i c config
          split at h
          · exact absurd rfl (h _)
          · rename_i schema
            split at h
            · exact absurd rfl (h _)
            · split at h
              · exact absurd rfl (h _)
              · rename_i clock
                split at h
                · exact absurd rfl (h _)
                · rename_i mode
                  exact ⟨c, ⟨not_not.mp fenced, not_not.mp available, Nat.not_lt.mp hclock⟩, config,
                    not_not.mp schema, Nat.not_lt.mp clock, mode⟩

theorem sweepAndPerform_eq {op : Op} {now : Nat}
    (rows : ∀ id ∈ dueTickets k now, k.room.tickets.get id ≠ none) :
    sweepAndPerform k now c op =
      if (dueTickets k now).length ≤ 128 ∧ (dueIdems k now).length ≤ 128 then
        perform (purge k now (dueTickets k now) (dueIdems k now)) now c op
      else
        (.error .sweepRequired,
          purge k now ((dueTickets k now).take 128) ((dueIdems k now).take 128)) := by
  rw [sweepAndPerform, cleanup_eq rows]
  simp only [swept_purge]
  split_ifs with h
  · rw [decide_eq_true h, List.take_of_length_le h.1, List.take_of_length_le h.2]
  · rw [decide_eq_false h]

end Serves

def Promotable (r : QueueRoom) (c : Config) : Prop :=
  (r.mode = .auto ∨ r.mode = .draining) ∧ 0 < r.waiting.size ∧ r.leases.size < c.leaseCap ∧
    r.rate.size < c.rate

section Promote

variable {k : QueueKeys} {n : Nat} {c : Config} (now : Nat)

theorem promote_of_not_promotable (mode : k.room.mode ≠ .recoveryHold)
    (h : ¬ Promotable k.room c) : promote k now c n = (.reply (.tickets now []), k) := by
  unfold promote
  split
  · rfl
  · rename_i hmode
    have hopen : k.room.mode = .auto ∨ k.room.mode = .draining := by
      cases hm : k.room.mode <;> simp_all
    have hnone : k.room.waiting.size = 0 ∨ promoteBudget k.room c n = 0 := by
      by_contra hsome
      rw [not_or] at hsome
      refine h ⟨hopen, by omega, ?_⟩
      unfold promoteBudget at hsome
      omega
    have hids : k.room.waiting.ranking.take (promoteBudget k.room c n) = [] := by
      rcases hnone with hw | hb
      · rw [← Table.length_ranking, List.length_eq_zero_iff] at hw
        rw [hw, List.take_nil]
      · rw [hb, List.take_zero]
    rw [hids]
    rfl

theorem promote_of_promotable (hs : RoomSynced c.clockSkew k) (steady : Steady k.room)
    (numbered : ∀ id t, k.room.tickets.get id = some t → t.sequence ≤ k.room.seq)
    (config : k.room.config = some c) (installed : k.inst.config ≠ none) (hn : 1 ≤ n)
    (h : Promotable k.room c) : promotedBy (promote k now c n).1 ≠ [] := by
  obtain ⟨hmode, hwaiting, hleases, hrate⟩ := h
  have hopen : k.room.mode ≠ .hold ∧ k.room.mode ≠ .off := by
    rcases hmode with hm | hm
    · simp [hm]
    · simp [hm]
  cases hrank : k.room.waiting.ranking with
  | nil =>
    rw [← Table.length_ranking, hrank] at hwaiting
    simp at hwaiting
  | cons head rest =>
    obtain ⟨id, s⟩ := head
    have hw : k.room.waiting.get id = some s := Table.get_head hrank
    obtain ⟨t, ht, -⟩ := (hs.indexed.waiting id s).mp hw
    obtain ⟨b, hb⟩ : ∃ b, promoteBudget k.room c n = b + 1 :=
      ⟨promoteBudget k.room c n - 1, by unfold promoteBudget; omega⟩
    have hlimits : b + 1 + k.room.leases.size ≤ c.leaseCap ∧ b + 1 + k.room.rate.size ≤ c.rate := by
      unfold promoteBudget at hb
      omega
    generalize hk₁ : promoteRow k now id (promotedTicket now c t) = k₁
    have hloop : promote k now c n = promoteLoop now c ((rest.take b).map Prod.fst) k₁
        [promotedTicket now c t] := by
      rw [promote, if_neg (not_or.mpr hopen), hb, hrank, List.take_succ_cons, List.map_cons]
      simp only [promoteLoop, ht]
      by_cases hd : k.room.mode = .draining
      · rw [if_pos hd, steady.cutoff hd]
        dsimp only
        rw [if_neg (Nat.not_lt.mpr (numbered id t ht)), hk₁]
        rfl
      · rw [if_neg hd, hk₁]
        rfl
    have hstep : Effect now k (.promoted (promotedTicket now c t)) k₁ := by
      rw [← hk₁]
      exact .promote config hopen hrank ht
        (fun hd => ⟨_, steady.cutoff hd, numbered id t ht⟩) hleases hrate
    have hrun : PromoteRun now k₁ [promotedTicket now c t] (promote k now c n) := by
      rw [hloop]
      have hl := Table.size_put_le k.room.leases id (score (promotedTicket now c t).readyUntil)
      have hr := Table.size_put_le k.room.rate id (score now)
      have hlen : ((rest.take b).map Prod.fst).length ≤ b := by
        rw [List.length_map]
        exact List.length_take_le _ _
      subst hk₁
      refine promoteLoop_run config hopen ?_ ?_ ?_
      · rw [promoteRow, Table.ranking_del_head hrank]
        exact (List.take_prefix _ _).map _
      · simp only [promoteRow]
        omega
      · simp only [promoteRow]
        omega
    obtain ⟨ls, k', he, -, -, -, hr⟩ := hrun
    rcases hr with hr | ⟨-, stuck⟩
    · rw [hr]
      simp [promotedBy]
    · have hs' : RoomSynced c.clockSkew k' := he.synced (hstep.synced hs)
      obtain ⟨v, i, m, -, hinst⟩ := ((Effects.single hstep).append he).frame.inst
      exact absurd stuck (hs'.not_stuck (by rw [hinst]; exact installed))

end Promote

def Outstanding (r : QueueRoom) (now : Nat) (c : Config) : Prop :=
  (∃ id s, r.expiry.get id = some s ∧ s ≤ score now) ∨
    (∃ key s, r.idemExpiry.get key = some s ∧ s ≤ score now) ∨
    (∃ id s, r.rate.get id = some s ∧ s ≤ score ((now : ℤ) - 60000)) ∨ Promotable r c

theorem ScoreSet.hasDue_iff {set : ScoreSet} {x : Score} :
    ScoreSet.hasDue set x = true ↔ ∃ id s, set.get id = some s ∧ s ≤ x := by
  have hmem : ScoreSet.hasDue set x = true ↔ ∃ id, id ∈ set.due x := by
    unfold ScoreSet.hasDue
    cases set.due x <;> simp
  simp only [hmem, Table.mem_due]

section Needed

variable {k : QueueKeys} {env : Env} {c : Config} {primary : String} {fence : Nat}

theorem Serves.needed (h : Serves k env primary fence c) :
    ∃ b, wrQm1Needed k env primary fence = .ok ⟨env.now, b⟩ ∧
      (b = true ↔ Outstanding k.room env.now c) := by
  obtain ⟨hepoch, hprimary, hstored, hfence⟩ := h.enters.fenced
  obtain ⟨-, hschema, hdirty, hmode, hvisitors, hidems⟩ := h.enters.available
  have hclock : ¬ (env.now < k.inst.clock ∨ env.now < k.room.clock) :=
    not_or.mpr ⟨Nat.not_lt.mpr h.enters.clock, Nat.not_lt.mpr h.clock⟩
  have hroom : ¬ (k.room.mode ≠ .hold ∧ k.room.mode ≠ .off ∧ k.room.mode ≠ .auto ∧
      k.room.mode ≠ .draining) := by
    have := h.mode
    cases hm : k.room.mode <;> simp_all
  have hepoch : k.shared.epoch = k.inst.epoch := hepoch
  rw [wrQm1Needed, if_neg (by simp [← hprimary, hstored, hfence, hepoch]),
    if_neg (by simp [hschema, h.schema, hmode, hdirty, hvisitors, hidems]), if_neg hclock,
    if_neg hroom, h.config]
  dsimp only
  split_ifs with hdue hopen
  · rw [ScoreSet.hasDue_iff, ScoreSet.hasDue_iff, ScoreSet.hasDue_iff] at hdue
    refine ⟨true, rfl, fun _ => ?_, fun _ => rfl⟩
    rcases hdue with hd | hd | hd
    · exact .inl hd
    · exact .inr (.inl hd)
    · exact .inr (.inr (.inl hd))
  · refine ⟨_, rfl, ?_⟩
    rw [decide_eq_true_iff]
    rw [not_or, not_or, ScoreSet.hasDue_iff, ScoreSet.hasDue_iff, ScoreSet.hasDue_iff] at hdue
    constructor
    · exact fun hp => .inr (.inr (.inr ⟨hopen, hp⟩))
    · rintro (hd | hd | hd | hp)
      · exact absurd hd hdue.1
      · exact absurd hd hdue.2.1
      · exact absurd hd hdue.2.2
      · exact hp.2
  · refine ⟨false, rfl, by simp, ?_⟩
    rw [not_or, not_or, ScoreSet.hasDue_iff, ScoreSet.hasDue_iff, ScoreSet.hasDue_iff] at hdue
    rintro (hd | hd | hd | hp)
    · exact absurd hd hdue.1
    · exact absurd hd hdue.2.1
    · exact absurd hd hdue.2.2
    · exact absurd hp.1 hopen

theorem serves_of_needed {p : Probe} (h : wrQm1Needed k env primary fence = .ok p) :
    ∃ c, Serves k env primary fence c := by
  unfold wrQm1Needed at h
  split at h
  · exact absurd h (by simp)
  · rename_i fenced
    split at h
    · exact absurd h (by simp)
    · rename_i available
      split at h
      · exact absurd h (by simp)
      · rename_i clock
        split at h
        · exact absurd h (by simp)
        · rename_i mode
          split at h
          · exact absurd h (by simp)
          · rename_i c config
            simp only [not_or, not_not] at fenced available clock
            obtain ⟨hprimary, hstored, hfence, hepoch⟩ := fenced
            obtain ⟨hschema, hroom, hmode, hdirty, hvisitors, hidems⟩ := available
            refine ⟨c, ⟨⟨hepoch, hprimary, hstored, hfence⟩,
              ⟨hepoch, hschema, hdirty, hmode, hvisitors, hidems⟩, Nat.not_lt.mp clock.1⟩, config,
              hroom, Nat.not_lt.mp clock.2, fun hm => mode ?_⟩
            simp [hm]

end Needed

/-- The same tickets, idempotency rows and rate reservations. -/
structure RowsKept (r r' : QueueRoom) : Prop where
  tickets : ∀ id, r'.tickets.get id = r.tickets.get id
  idem : ∀ key, r'.idem.get key = r.idem.get key
  rate : ∀ id, r'.rate.get id = r.rate.get id

/-- The keys after a command that only writes the clocks. -/
def ticked (k : QueueKeys) (now : Nat) : QueueKeys where
  room := { k.room with clock := now }
  inst := { k.inst with clock := now }
  shared := { k.shared with clock := some (max now (k.shared.clock.getD 0)) }

section Idle

variable {k : QueueKeys} {env : Env} {c : Config} {primary : String} {fence n : Nat}

theorem commit_started (available : Available k) (now : Nat) :
    commit (started k now) = ticked k now := by
  obtain ⟨-, -, hdirty, -, hvisitors, hidems⟩ := available
  obtain ⟨room, inst, shared⟩ := k
  dsimp only at hdirty hvisitors hidems
  simp only [commit, started, setClock, beginCommand, ticked, Option.getD_some, ← hvisitors,
    ← hidems, ← hdirty]
  congr 2
  exact congrArg some (Nat.max_eq_right (Nat.le_max_left _ _))

theorem purge_nothing {now : Nat}
    (hrate : ∀ id s, k.room.rate.get id = some s → ¬ s ≤ score ((now : ℤ) - 60000)) :
    purge k now [] [] = k := by
  have hkeep : k.room.rate.keep (fun s => decide (score ((now : ℤ) - 60000) < s)) = k.room.rate :=
    Table.keep_eq_self fun id s hs => decide_eq_true (not_le.mp (hrate id s hs))
  simp [purge, releaseRate, withoutIdems, withoutTickets, readyAmong, hkeep]

theorem not_due {set : ScoreSet} {x : Score} (h : ¬ ∃ id s, set.get id = some s ∧ s ≤ x) :
    set.due x = [] := by
  rw [List.eq_nil_iff_forall_not_mem]
  intro id hid
  obtain ⟨s, hs, hle⟩ := Table.mem_due.mp hid
  exact h ⟨id, s, hs, hle⟩

theorem Serves.promote_idle (h : Serves k env primary fence c)
    (hn : (Op.promote n).Accepted) (idle : ¬ Outstanding k.room env.now c) :
    wrR6Command k env (.promote n) primary fence =
      (.reply (.tickets env.now []), ticked k env.now) := by
  simp only [Outstanding, not_or] at idle
  obtain ⟨hexpiry, hidem, hrate, hpromotable⟩ := idle
  have htickets : dueTickets (started k env.now) env.now = [] := not_due hexpiry
  have hidems : dueIdems (started k env.now) env.now = [] := not_due hidem
  have hpurge : purge (started k env.now) env.now [] [] = started k env.now :=
    purge_nothing fun id s hs hle => hrate ⟨id, s, hs, hle⟩
  rw [h.command hn, sweepAndPerform_eq (by simp [htickets]), htickets, hidems, hpurge,
    if_pos (by simp), perform,
    promote_of_not_promotable (k := started k env.now) _ h.mode hpromotable]
  simp only [commitResult]
  rw [commit_started h.enters.available]

theorem Serves.idle_of_promote (h : Serves k env primary fence c) (hs : RoomSynced c.clockSkew k)
    (steady : Steady k.room)
    (numbered : ∀ id t, k.room.tickets.get id = some t → t.sequence ≤ k.room.seq)
    (installed : k.inst.config ≠ none) (hn : (Op.promote n).Accepted)
    (replied : ∃ reply, (wrR6Command k env (.promote n) primary fence).1 = .reply reply)
    (unpromoted : promotedBy (wrR6Command k env (.promote n) primary fence).1 = [])
    (kept : RowsKept k.room (wrR6Command k env (.promote n) primary fence).2.room) :
    ¬ Outstanding k.room env.now c := by
  have hstarted : RoomSynced c.clockSkew (started k env.now) :=
    hs.congr rfl fun _ _ => ⟨rfl, rfl⟩
  rw [h.command hn, sweepAndPerform_eq hstarted.rows_of_due] at replied unpromoted kept
  split at replied
  · rename_i hsmall
    rw [if_pos hsmall] at unpromoted kept
    generalize hk₁ : purge (started k env.now) env.now (dueTickets (started k env.now) env.now)
      (dueIdems (started k env.now) env.now) = k₁ at replied unpromoted kept
    have hcleaned : CleanedUp env.now (started k env.now) k₁ :=
      (cleanedUp_iff hstarted.rows_of_due).mpr hk₁.symm
    have hpurged := hstarted.purged hcleaned
    have hs₁ : RoomSynced c.clockSkew k₁ := by
      obtain ⟨m, hm⟩ := hcleaned
      exact cleanups_synced hstarted hm
    have hsame : k₁.room.mode = k.room.mode ∧ k₁.room.cutoff = k.room.cutoff ∧
        k₁.room.seq = k.room.seq ∧ k₁.room.config = k.room.config ∧
        k₁.inst.config = k.inst.config := by
      rw [← hk₁]
      exact ⟨rfl, rfl, rfl, rfl, rfl⟩
    obtain ⟨hmode, hcutoff, hseq, hconfig, hinst⟩ := hsame
    have hnot : ¬ Promotable k₁.room c := by
      intro hp
      refine promote_of_promotable env.now hs₁
        ⟨by rw [hmode]; exact steady.mode, by rw [hmode, hcutoff, hseq]; exact steady.cutoff⟩ ?_
        (hconfig.trans h.config) (by rw [hinst]; exact installed) hn.1 hp ?_
      · intro id t ht
        rw [hpurged.tickets, Option.filter_eq_some_iff] at ht
        rw [hseq]
        exact numbered id t ht.1
      · obtain ⟨reply, hreply⟩ := replied
        rw [perform] at unpromoted hreply
        generalize promote k₁ env.now c n = r at unpromoted hreply
        obtain ⟨o, k₂⟩ := r
        cases o with
        | reply ts => exact unpromoted
        | error e => rfl
        | abort => rfl
    rw [perform, promote_of_not_promotable _ (by rw [hmode]; exact h.mode) hnot] at kept
    have kept : RowsKept k.room k₁.room := kept
    have hexpiry : ¬ ∃ id s, k.room.expiry.get id = some s ∧ s ≤ score env.now := by
      rintro ⟨id, s, hget, hle⟩
      obtain ⟨t, ht, rfl⟩ := (hs.indexed.expiry id s).mp hget
      have hexp : expired t env.now c = true := expired_iff.mpr (by simpa using hle)
      have hgone := hpurged.tickets id
      have ht' : (started k env.now).room.tickets.get id = some t := ht
      rw [kept.tickets, ht, ht'] at hgone
      simp [Option.filter, hexp] at hgone
    have hidem : ¬ ∃ key s, k.room.idemExpiry.get key = some s ∧ s ≤ score env.now := by
      rintro ⟨key, s, hget, hle⟩
      have hrow : (k.room.idem.get key).isSome = true := by
        rw [hs.idems.rows, hget]
        rfl
      have hgone := hpurged.idem key
      have hget' : (started k env.now).room.idemExpiry.get key = some s := hget
      rw [kept.idem, hpurged.idemExpiry, hget', Option.filter_some,
        decide_eq_false (not_lt.mpr hle)] at hgone
      rw [hgone] at hrow
      simp at hrow
    have hrate : ¬ ∃ id s, k.room.rate.get id = some s ∧ s ≤ score ((env.now : ℤ) - 60000) := by
      rintro ⟨id, s, hget, hle⟩
      have hgone := hpurged.rate id
      have hget' : (started k env.now).room.rate.get id = some s := hget
      rw [kept.rate, hget, hget', Option.filter_some, decide_eq_false (not_lt.mpr hle)] at hgone
      simp at hgone
    -- nothing was due, so the sweep has left the room as it was
    have hroom : k₁ = started k env.now := by
      have htickets : dueTickets (started k env.now) env.now = [] := not_due hexpiry
      have hidems : dueIdems (started k env.now) env.now = [] := not_due hidem
      rw [← hk₁, htickets, hidems]
      exact purge_nothing fun id s hs hle => hrate ⟨id, s, hs, hle⟩
    rw [hroom] at hnot
    rintro (hd | hd | hd | hp)
    · exact hexpiry hd
    · exact hidem hd
    · exact hrate hd
    · exact hnot hp
  · obtain ⟨reply, hreply⟩ := replied
    simp [commitResult] at hreply

end Idle

/-- In every reachable state, at every server time: the probe finds nothing to do
exactly if the promotion under the same fence would succeed without removing a
row or promoting a ticket, and then that promotion would write nothing but
clocks; when the probe fails, the promotion would fail too. -/
theorem probe_exact {es : List QueueEvent} {db : QueueDb} (hr : QueueRun es db) {e n : Nat}
    {r : String} {env : Env} {primary : String} {fence : Nat} (hn : 1 ≤ n ∧ n ≤ 128) :
    (wrQm1Needed (db.keys e r) env primary fence = .ok ⟨env.now, false⟩ ↔
      (∃ reply, (wrR6Command (db.keys e r) env (.promote n) primary fence).1 = .reply reply) ∧
      promotedBy (wrR6Command (db.keys e r) env (.promote n) primary fence).1 = [] ∧
      RowsKept (db.room e r) (wrR6Command (db.keys e r) env (.promote n) primary fence).2.room) ∧
    (wrQm1Needed (db.keys e r) env primary fence = .ok ⟨env.now, false⟩ →
      wrR6Command (db.keys e r) env (.promote n) primary fence =
        (.reply (.tickets env.now []), ticked (db.keys e r) env.now)) ∧
    (∀ err, wrQm1Needed (db.keys e r) env primary fence = .error err →
      ∃ err', (wrR6Command (db.keys e r) env (.promote n) primary fence).1 = .error err') := by
  have hs : EpochSynced db e := run_synced hr e
  have idle : wrQm1Needed (db.keys e r) env primary fence = .ok ⟨env.now, false⟩ →
      wrR6Command (db.keys e r) env (.promote n) primary fence =
        (.reply (.tickets env.now []), ticked (db.keys e r) env.now) := by
    intro h
    obtain ⟨c, serves⟩ := serves_of_needed h
    obtain ⟨b, hb, hiff⟩ := serves.needed
    obtain rfl : b = false := by simpa using hb.symm.trans h
    exact serves.promote_idle hn fun ho => absurd (hiff.mpr ho) (by simp)
  refine ⟨⟨fun h => ?_, ?_⟩, idle, fun err h => ?_⟩
  · rw [idle h]
    exact ⟨⟨_, rfl⟩, rfl, fun _ => rfl, fun _ => rfl, fun _ => rfl⟩
  · rintro ⟨⟨reply, hreply⟩, unpromoted, kept⟩
    obtain ⟨c, serves⟩ : ∃ c, Serves (db.keys e r) env primary fence c :=
      serves_of_command (.promote n) (by simp [hreply])
    obtain ⟨b, hb, hiff⟩ := serves.needed
    have ordered := room_ordered hr e r
    have hnot : ¬ Outstanding (db.room e r) env.now c :=
      serves.idle_of_promote (hs.synced r c serves.config) (run_steady hr e r)
        (fun id t ht => (ordered.le_seq (ordered.rows id t ht).2.1).2)
        (hs.installed_of_fenced serves.enters.fenced) hn ⟨reply, hreply⟩ unpromoted kept
    rw [hb, Bool.eq_false_of_not_eq_true fun h => hnot (hiff.mp h)]
  · by_contra hno
    obtain ⟨c, serves⟩ : ∃ c, Serves (db.keys e r) env primary fence c :=
      serves_of_command (.promote n) fun err' herr => hno ⟨err', herr⟩
    obtain ⟨b, hb, -⟩ := serves.needed
    exact absurd (hb.symm.trans h) (by simp)

/-- After the sample run the probe finds nothing to do, and a promotion does nothing. -/
theorem sample_probe :
    wrQm1Needed (sampleDb.keys 1 "room") ⟨1000005, "primary"⟩ "primary" 1 =
      .ok ⟨1000005, false⟩ ∧
    wrR6Command (sampleDb.keys 1 "room") ⟨1000005, "primary"⟩ (.promote 7) "primary" 1 =
      (.reply (.tickets 1000005 []), ticked (sampleDb.keys 1 "room") 1000005) := by
  have hprobe : wrQm1Needed (sampleDb.keys 1 "room") ⟨1000005, "primary"⟩ "primary" 1 =
      .ok ⟨1000005, false⟩ := by decide +kernel
  exact ⟨hprobe, (probe_exact sample_run (by omega)).2.1 hprobe⟩

end WaitingRoom.Queue
