import WaitingRoom.Queue.Probe

/-!
# Repeated joins

A join leaves an idempotency row with its first answer, and only a cleanup at or
after the end of its retention takes the row away. Commands of an installation do
not run before earlier ones, so every join with the key that comes before that
end finds the row and is answered from it.
-/

namespace WaitingRoom.Queue

set_option autoImplicit false

/-- Every idempotency row holds the answer to the join that made it, and is kept
for the idempotency lifetime of the room. -/
structure Replayable (r : QueueRoom) : Prop where
  rows : ∀ key i, r.idem.get key = some i → ∃ c snap, r.config = some c ∧
    i.join = some snap ∧ snap.ticket.id = i.id ∧
    r.idemExpiry.get key = some (score (snap.ticket.joinedAt + c.idempotencyTTL : Nat))

section Replayable

theorem Effect.replayable {now : Nat} {k k' : QueueKeys} {l : Label} (he : Effect now k l k')
    (h : Replayable k.room) : Replayable k'.room := by
  cases he with
  | @forget key s index due =>
    refine ⟨fun a i hi => ?_⟩
    have hget : (k.room.idem.del key).get a = some i := hi
    rw [Table.get_del] at hget
    split at hget
    · exact absurd hget (by simp)
    · rename_i hne
      obtain ⟨c, snap, config, hsnap, hid, hexpiry⟩ := h.rows a i hget
      exact ⟨c, snap, config, hsnap, hid, (Table.get_del_ne hne).trans hexpiry⟩
  | @join c g key fingerprint id replay config =>
    refine ⟨fun a i hi => ?_⟩
    have hget : (k.room.idem.put key ⟨id, fingerprint, replay,
      some ⟨newTicket k.room now c id, c.idleTTL⟩⟩).get a = some i := hi
    rw [Table.get_put] at hget
    split at hget
    · rename_i heq
      subst heq
      obtain rfl := Option.some.inj hget
      exact ⟨c, _, config, rfl, rfl, Table.get_put_self _ _ _⟩
    · rename_i hne
      obtain ⟨c', snap, config', hsnap, hid, hexpiry⟩ := h.rows a i hget
      exact ⟨c', snap, config', hsnap, hid, (Table.get_put_ne hne).trans hexpiry⟩
  | @configure c d cutoff config mode caps =>
    refine ⟨fun a i hi => ?_⟩
    obtain ⟨c', snap, config', hsnap, hid, hexpiry⟩ := h.rows a i hi
    obtain rfl : c' = c := Option.some.inj (config'.symm.trans config)
    refine ⟨d.config, snap, rfl, hsnap, hid, ?_⟩
    rw [caps.2.2.2]
    exact hexpiry
  | _ => exact ⟨h.rows⟩

theorem exec_replayable {db : QueueDb} {e : Nat} {r : String} (hs : EpochSynced db e)
    (s : Step Call) (h : Replayable (db.room e r)) : Replayable ((exec db s).2.room e r) := by
  have hroom : Replayable ((eventOf exec db s).after.room e r) := by
    have hbefore : Replayable ((eventOf exec db s).before.room e r) := h
    generalize hev : eventOf exec db s = ev at *
    have move : RoomMove e r ev := hev ▸ exec_roomMove hs s r
    cases move with
    | still silent room =>
      rw [room]
      exact ⟨hbefore.rows⟩
    | opened silent call blank room =>
      rw [room]
      exact ⟨by simp [createRoom]⟩
    | configured silent call tickets idems room =>
      rw [room]
      have hnone := Table.size_eq_zero_iff.mp idems
      exact ⟨by simp [configured, hnone]⟩
    | ran command call enters config run answered inst room =>
      rw [room]
      have hstarted : Replayable (started (ev.before.keys e r) ev.input.env.now).room :=
        ⟨hbefore.rows⟩
      exact run.invariant (P := fun k => Replayable k.room) hstarted fun _ _ _ hp he =>
        he.replayable hp
  exact hroom

theorem run_replayable {es : List QueueEvent} {db : QueueDb} (hr : QueueRun es db) (e : Nat)
    (r : String) : Replayable (db.room e r) := by
  induction hr with
  | nil => exact ⟨by simp⟩
  | snoc s hr _ ih => exact exec_replayable (run_synced hr e) s ih

end Replayable

/-- The row `i` of `key` is there with its retention `s`, or a command of the
installation has run at or after `s`. -/
def RowKept (e : Nat) (r key : String) (i : Idem) (s : Score) (db : QueueDb) : Prop :=
  ((db.room e r).idem.get key = some i ∧ (db.room e r).idemExpiry.get key = some s) ∨
    s ≤ score (db.inst e).clock

section RowKept

variable {e : Nat} {r key : String} {i : Idem} {s : Score}

theorem Effect.rowKept {now : Nat} {k k' : QueueKeys} {l : Label} (he : Effect now k l k')
    (live : score now < s) (h : k.room.idem.get key = some i ∧ k.room.idemExpiry.get key = some s) :
    k'.room.idem.get key = some i ∧ k'.room.idemExpiry.get key = some s := by
  cases he with
  | @forget key' s' index due =>
    have hne : key ≠ key' := by
      rintro rfl
      obtain rfl : s = s' := Option.some.inj (h.2.symm.trans index)
      exact absurd live (not_lt.mpr due)
    exact ⟨(Table.get_del_ne hne).trans h.1, (Table.get_del_ne hne).trans h.2⟩
  | @join c g key' fingerprint id replay config accepted fresh =>
    have hne : key ≠ key' := by
      rintro rfl
      rw [h.1] at fresh
      exact absurd fresh (by simp)
    exact ⟨(Table.get_put_ne hne).trans h.1, (Table.get_put_ne hne).trans h.2⟩
  | _ => exact h

theorem exec_rowKept {db : QueueDb} (hs : EpochSynced db e) (ht : EpochTimed db e)
    (step : Step Call) (h : RowKept e r key i s db) : RowKept e r key i s (exec db step).2 := by
  rcases h with ⟨hrow, hexpiry⟩ | hpast
  · have hbefore : ((eventOf exec db step).before.room e r).idem.get key = some i ∧
        ((eventOf exec db step).before.room e r).idemExpiry.get key = some s := ⟨hrow, hexpiry⟩
    have hafter : RowKept e r key i s (eventOf exec db step).after := by
      generalize hev : eventOf exec db step = ev at *
      have move : RoomMove e r ev := hev ▸ exec_roomMove hs step r
      cases move with
      | still silent room => exact .inl (by rw [room]; exact hbefore)
      | opened silent call blank room =>
        rw [blank] at hbefore
        exact absurd hbefore.1 (by simp)
      | configured silent call tickets idems room => exact .inl (by rw [room]; exact hbefore)
      | ran command call enters config run answered inst room =>
        by_cases live : score ev.input.env.now < s
        · refine .inl ?_
          rw [room]
          exact run.invariant (P := fun k => k.room.idem.get key = some i ∧
            k.room.idemExpiry.get key = some s) hbefore fun _ _ _ hp he => he.rowKept live hp
        · refine .inr ?_
          obtain ⟨v, n, m, -, hinst⟩ := run.frame.inst
          rw [inst, commit, hinst]
          exact not_lt.mp live
    exact hafter
  · refine .inr (hpast.trans (score_le_score.mpr ?_))
    have hclock : (db.inst e).clock ≤ ((exec db step).2.inst e).clock := by
      by_cases installed : (db.inst e).config = none
      · simp [hs.uninstalled installed]
      · exact ((exec_path step installed).grows ht.settled).clock
    exact_mod_cast hclock

theorem run_rowKept {es es' : List QueueEvent} {db db' : QueueDb} (hr : QueueRun es db)
    (hr' : RunFrom db es' db') (h : RowKept e r key i s db) : RowKept e r key i s db' := by
  induction hr' with
  | nil => exact h
  | snoc step hr' _ ih =>
    have hrun := hr.append hr'
    exact exec_rowKept (run_synced hrun e) (run_timed hrun e) step ih

end RowKept

/-- `r'` has no ticket, deadline, lease or idempotency row that `r` has not. -/
structure NothingAdded (r r' : QueueRoom) : Prop where
  tickets : ∀ id t, r'.tickets.get id = some t → r.tickets.get id = some t
  waiting : ∀ id s, r'.waiting.get id = some s → r.waiting.get id = some s
  expiry : ∀ id s, r'.expiry.get id = some s → r.expiry.get id = some s
  leases : ∀ id s, r'.leases.get id = some s → r.leases.get id = some s
  idem : ∀ key i, r'.idem.get key = some i → r.idem.get key = some i
  idemExpiry : ∀ key s, r'.idemExpiry.get key = some s → r.idemExpiry.get key = some s
  seq : r'.seq = r.seq

section Join

variable {k : QueueKeys} {env : Env} {c : Config} {primary key fingerprint id replay : String}
  {fence now : Nat} {i : Idem} {s : Score}

theorem purge_nothingAdded (k : QueueKeys) (now : Nat) (ids keys : List String) :
    NothingAdded k.room (commit (purge (started k now) now ids keys)).room := by
  have sub : ∀ {V : Type} (t : Table String V) (xs : List String) (a : String) (v : V),
      (t.delAll xs).get a = some v → t.get a = some v := by
    intro V t xs a v h
    rw [Table.get_delAll] at h
    split at h
    · exact absurd h (by simp)
    · exact h
  exact ⟨sub _ ids, sub _ ids, sub _ ids, sub _ ids, sub _ keys, sub _ keys, rfl⟩

theorem joinReplay_ne_abort (k : QueueKeys) (now : Nat) (i : Idem) (fingerprint : String) :
    joinReplay k now i fingerprint ≠ .abort := by
  unfold joinReplay
  split
  · simp
  · split <;> simp

theorem Serves.join_found (h : Serves k env primary fence c) (hs : RoomSynced c.clockSkew k)
    (accepted : (Op.join key fingerprint id replay).Accepted)
    (row : k.room.idem.get key = some i) (expiry : k.room.idemExpiry.get key = some s)
    (live : score env.now < s) :
    (∃ ids keys, wrR6Command k env (.join key fingerprint id replay) primary fence =
      (joinReplay (purge (started k env.now) env.now ids keys) env.now i fingerprint,
        commit (purge (started k env.now) env.now ids keys)) ∧
      (dueTickets k env.now).length ≤ 128 ∧ (dueIdems k env.now).length ≤ 128) ∨
    (∃ k', wrR6Command k env (.join key fingerprint id replay) primary fence =
      (.error .sweepRequired, k') ∧
      ¬ ((dueTickets k env.now).length ≤ 128 ∧ (dueIdems k env.now).length ≤ 128)) := by
  have rows : ∀ a ∈ dueTickets (started k env.now) env.now,
      (started k env.now).room.tickets.get a ≠ none := hs.rows_of_due
  have hdue : dueTickets (started k env.now) env.now = dueTickets k env.now ∧
      dueIdems (started k env.now) env.now = dueIdems k env.now := ⟨rfl, rfl⟩
  rw [h.command accepted, sweepAndPerform_eq rows, hdue.1, hdue.2]
  by_cases hfew : (dueTickets k env.now).length ≤ 128 ∧ (dueIdems k env.now).length ≤ 128
  · refine .inl ⟨dueTickets k env.now, dueIdems k env.now, ?_, hfew⟩
    have hkept : (purge (started k env.now) env.now (dueTickets k env.now)
        (dueIdems k env.now)).room.idem.get key = some i := by
      have hget : (purge (started k env.now) env.now (dueTickets k env.now)
        (dueIdems k env.now)).room.idem.get key =
          (k.room.idem.delAll (dueIdems k env.now)).get key := rfl
      rw [hget, Table.get_delAll, if_neg, row]
      intro hmem
      obtain ⟨s', hs', hle⟩ := Table.mem_due.mp hmem
      obtain rfl : s = s' := Option.some.inj (expiry.symm.trans hs')
      exact absurd live (not_lt.mpr hle)
    rw [if_pos hfew]
    simp only [perform, join, hkept]
    have hanswered := joinReplay_ne_abort (purge (started k env.now) env.now
      (dueTickets k env.now) (dueIdems k env.now)) env.now i fingerprint
    cases hreply : joinReplay (purge (started k env.now) env.now (dueTickets k env.now)
        (dueIdems k env.now)) env.now i fingerprint with
    | reply => rfl
    | error => rfl
    | abort => exact absurd hreply hanswered
  · refine .inr ⟨commit (purge (started k env.now) env.now ((dueTickets k env.now).take 128)
      ((dueIdems k env.now).take 128)), ?_, hfew⟩
    rw [if_neg hfew]
    rfl

theorem Serves.accepted {op : Op} (h : Serves k env primary fence c)
    (answered : ∀ err, (wrR6Command k env op primary fence).1 ≠ .error err) : op.Accepted := by
  by_contra haccepted
  have hclock : ¬ env.now < k.inst.clock := Nat.not_lt.mpr h.enters.clock
  apply answered .command
  simp only [wrR6Command, h.enters.fenced, h.enters.available, hclock, not_true_eq_false, if_false]
  simp only [Queue.command, beginCommand, h.config, h.schema, haccepted, ne_eq,
    not_true_eq_false, not_false_eq_true, if_false, if_true, commitResult]

structure JoinAnswer where
  ticket : Ticket
  replay : String
  join : Option JoinSnapshot
deriving DecidableEq, Repr

def joinAnswer : Outcome → Option JoinAnswer
  | .reply (.answer _ (some t) replay join) => some ⟨t, replay, join⟩
  | _ => none

theorem ne_error_of_answer {o : Outcome} {a : JoinAnswer} (h : joinAnswer o = some a) :
    ∀ err, o ≠ .error err := by
  rintro err rfl
  exact absurd h (by simp [joinAnswer])

/-- The answer is the one that the row `i` stands for. -/
structure AnsweredBy (i : Idem) (fingerprint : String) (a : JoinAnswer) : Prop where
  fingerprint : i.fingerprint = fingerprint
  ticket : a.ticket.id = i.id
  replay : a.replay = i.replay
  join : a.join = i.join

theorem joinReplay_answer {a : JoinAnswer}
    (h : joinAnswer (joinReplay k now i fingerprint) = some a)
    (ids : ∀ t, k.room.tickets.get i.id = some t → t.id = i.id)
    (snapshot : ∀ snap, i.join = some snap → snap.ticket.id = i.id) :
    AnsweredBy i fingerprint a := by
  unfold joinReplay at h
  split at h
  · exact absurd h (by simp [joinAnswer])
  · rename_i hfingerprint
    rw [not_not] at hfingerprint
    split at h
    · rename_i snap hsnap
      obtain rfl := Option.some.inj h
      refine ⟨hfingerprint, ?_, rfl, hsnap.symm⟩
      cases hget : k.room.tickets.get i.id with
      | none =>
        rw [Option.getD_none]
        exact snapshot snap hsnap
      | some t =>
        rw [Option.getD_some]
        exact ids t hget
    · exact absurd h (by simp [joinAnswer])
    · rename_i t hnone hrow
      obtain rfl := Option.some.inj h
      exact ⟨hfingerprint, ids t hrow, rfl, hnone.symm⟩

theorem Serves.join_row (h : Serves k env primary fence c) (hs : RoomSynced c.clockSkew k)
    (hrep : Replayable k.room) {a : JoinAnswer}
    (answered : joinAnswer (wrR6Command k env (.join key fingerprint id replay) primary fence).1 =
      some a) :
    ∃ i, (wrR6Command k env (.join key fingerprint id replay) primary fence).2.room.idem.get key =
      some i ∧ AnsweredBy i fingerprint a := by
  have accepted := h.accepted (ne_error_of_answer answered)
  have rows : ∀ x ∈ dueTickets (started k env.now) env.now,
      (started k env.now).room.tickets.get x ≠ none := hs.rows_of_due
  rw [h.command accepted, sweepAndPerform_eq rows] at answered ⊢
  split at answered
  · rename_i hfew
    rw [if_pos hfew]
    set k₁ := purge (started k env.now) env.now (dueTickets (started k env.now) env.now)
      (dueIdems (started k env.now) env.now) with hk₁
    have added : NothingAdded k.room k₁.room := purge_nothingAdded k env.now _ _
    simp only [perform, join] at answered ⊢
    cases hold : k₁.room.idem.get key with
    | some old =>
      simp only [hold] at answered ⊢
      have hby : AnsweredBy old fingerprint a := by
        have hreply := joinReplay_ne_abort k₁ env.now old fingerprint
        have hanswer : joinAnswer (joinReplay k₁ env.now old fingerprint) = some a := by
          cases hr : joinReplay k₁ env.now old fingerprint with
          | reply r => rwa [hr] at answered
          | error e => rwa [hr] at answered
          | abort => exact absurd hr hreply
        refine joinReplay_answer hanswer ?_ ?_
        · intro t ht
          exact (hs.tickets.ids _ t (added.tickets _ t ht)).1
        · intro snap hsnap
          obtain ⟨c', snap', -, hsnap', hid, -⟩ := hrep.rows key old (added.idem key old hold)
          obtain rfl : snap' = snap := Option.some.inj (hsnap'.symm.trans hsnap)
          exact hid
      refine ⟨old, ?_, hby⟩
      cases hr : joinReplay k₁ env.now old fingerprint with
      | reply r => exact hold
      | error e => exact hold
      | abort => exact hold
    | none =>
      simp only [hold] at answered ⊢
      split at answered
      · exact absurd answered (by simp [commitResult, joinAnswer])
      · rename_i hmode
        rw [if_neg hmode]
        split at answered
        · exact absurd answered (by simp [commitResult, joinAnswer])
        · rename_i global hglobal
          split at answered
          · exact absurd answered (by simp [commitResult, joinAnswer])
          · rename_i hroom
            split at answered
            · exact absurd answered (by simp [commitResult, joinAnswer])
            · rename_i hnew
              split at answered
              · exact absurd answered (by simp [commitResult, joinAnswer])
              · rename_i hseq
                obtain rfl := Option.some.inj answered
                simp only [if_neg hroom, if_neg hnew, if_neg hseq]
                exact ⟨_, Table.get_put_self _ _ _, rfl, rfl, rfl, rfl⟩
  · exact absurd answered (by simp [commitResult, joinAnswer])

end Join

def IsJoin (e : Nat) (r key fingerprint : String) (ev : QueueEvent) : Prop :=
  ev.input.epoch = e ∧ ev.input.room = r ∧ ∃ id replay primary fence,
    ev.input.call = .command (.join key fingerprint id replay) primary fence

section Stable

variable {e : Nat} {r key fingerprint : String} {es : List QueueEvent} {db : QueueDb}
  {step : Step Call} {i : Idem} {s : Score}

theorem serves_of_answer (hr : QueueRun es db) {op : Op} {primary : String} {fence : Nat} {env : Env}
    (answered : ∀ err, (wrR6Command (db.keys e r) env op primary fence).1 ≠ .error err) :
    ∃ c, Serves (db.keys e r) env primary fence c ∧ RoomSynced c.clockSkew (db.keys e r) := by
  obtain ⟨c, serves⟩ := serves_of_command op answered
  exact ⟨c, serves, (run_synced hr e).synced r c serves.config⟩

theorem join_leaves_row (hr : QueueRun es db) (wf : step.call.WellFormed)
    (joins : IsJoin e r key fingerprint (eventOf exec db step)) {a : JoinAnswer}
    (answered : joinAnswer (exec db step).1 = some a) :
    ∃ i s, ((exec db step).2.room e r).idem.get key = some i ∧
      ((exec db step).2.room e r).idemExpiry.get key = some s ∧ AnsweredBy i fingerprint a := by
  obtain ⟨rfl, rfl, id, replay, primary, fence, hcall⟩ := joins
  have hcall : step.call = .command (.join key fingerprint id replay) primary fence := hcall
  have hexec : exec db step = ((wrR6Command (db.keys step.epoch step.room) step.env
      (.join key fingerprint id replay) primary fence).1, db.set step.epoch step.room
      (wrR6Command (db.keys step.epoch step.room) step.env
        (.join key fingerprint id replay) primary fence).2) := by
    simp only [exec, hcall, runCall]
  have hout : joinAnswer (wrR6Command (db.keys step.epoch step.room) step.env
      (.join key fingerprint id replay) primary fence).1 = some a := by
    rw [hexec] at answered
    exact answered
  obtain ⟨c, serves, synced⟩ := serves_of_answer hr (ne_error_of_answer hout)
  obtain ⟨i, hrow, hby⟩ := serves.join_row synced (run_replayable hr step.epoch step.room) hout
  have hrow' : ((exec db step).2.room step.epoch step.room).idem.get key = some i := by
    rw [hexec, Db.set_room_self]
    exact hrow
  have hafter := run_replayable (hr.snoc step wf) step.epoch step.room
  obtain ⟨c', snap, -, -, -, hexpiry⟩ := hafter.rows key i hrow'
  exact ⟨i, _, hrow', hexpiry, hby⟩

theorem row_of_kept {env : Env} {primary : String} {fence : Nat} {c : Config}
    (serves : Serves (db.keys e r) env primary fence c) (kept : RowKept e r key i s db)
    (live : score env.now < s) :
    (db.room e r).idem.get key = some i ∧ (db.room e r).idemExpiry.get key = some s := by
  rcases kept with hrow | hpast
  · exact hrow
  · have hclock : score (db.inst e).clock ≤ score env.now :=
      score_le_score.mpr (by exact_mod_cast serves.enters.clock)
    exact absurd (hpast.trans hclock) (not_le.mpr live)

variable {env : Env} {id replay primary : String} {fence : Nat}

theorem join_again (hr : QueueRun es db) (kept : RowKept e r key i s db) (live : score env.now < s)
    {a : JoinAnswer}
    (answered : joinAnswer (wrR6Command (db.keys e r) env (.join key fingerprint id replay) primary
      fence).1 = some a) :
    AnsweredBy i fingerprint a ∧ NothingAdded (db.room e r)
      (wrR6Command (db.keys e r) env (.join key fingerprint id replay) primary fence).2.room := by
  obtain ⟨c, serves, synced⟩ := serves_of_answer hr (ne_error_of_answer answered)
  have accepted := serves.accepted (ne_error_of_answer answered)
  obtain ⟨hrow, hexpiry⟩ := row_of_kept serves kept live
  rcases serves.join_found synced accepted hrow hexpiry live with ⟨ids, keys, heq, -⟩ | ⟨k', heq, -⟩
  · rw [heq] at answered ⊢
    have added := purge_nothingAdded (db.keys e r) env.now ids keys
    refine ⟨joinReplay_answer answered ?_ ?_, added⟩
    · intro t ht
      exact (synced.tickets.ids _ t (added.tickets _ t ht)).1
    · intro snap hsnap
      obtain ⟨-, snap', -, hsnap', hid, -⟩ := (run_replayable hr e r).rows key i hrow
      obtain rfl : snap' = snap := Option.some.inj (hsnap'.symm.trans hsnap)
      exact hid
  · rw [heq] at answered
    exact absurd answered (by simp [joinAnswer])

/-- Within the retention a join for another target is a conflict wherever the join
for the first target would be answered. -/
theorem join_conflict (hr : QueueRun es db) (kept : RowKept e r key i s db)
    (live : score env.now < s) (other : i.fingerprint ≠ fingerprint) (hashed : Hashed fingerprint)
    {a : JoinAnswer}
    (answered : joinAnswer (wrR6Command (db.keys e r) env (.join key i.fingerprint id replay) primary
      fence).1 = some a) :
    (wrR6Command (db.keys e r) env (.join key fingerprint id replay) primary fence).1 =
      .error .conflict := by
  obtain ⟨c, serves, synced⟩ := serves_of_answer hr (ne_error_of_answer answered)
  have accepted := serves.accepted (ne_error_of_answer answered)
  obtain ⟨hrow, hexpiry⟩ := row_of_kept serves kept live
  have accepted' : (Op.join key fingerprint id replay).Accepted :=
    ⟨accepted.1, hashed, accepted.2.2⟩
  have hfew : (dueTickets (db.keys e r) env.now).length ≤ 128 ∧
      (dueIdems (db.keys e r) env.now).length ≤ 128 := by
    rcases serves.join_found synced accepted hrow hexpiry live with ⟨_, _, -, hfew⟩ | ⟨k', heq, -⟩
    · exact hfew
    · rw [heq] at answered
      exact absurd answered (by simp [joinAnswer])
  rcases serves.join_found synced accepted' hrow hexpiry live with ⟨ids, keys, heq, -⟩ | ⟨_, -, hmany⟩
  · rw [heq, joinReplay, if_pos other]
  · exact absurd hfew hmany

end Stable

def Creates (e : Nat) (r : String) (ev : QueueEvent) : Prop :=
  ∃ id, (ev.before.room e r).tickets.get id = none ∧ (ev.after.room e r).tickets.get id ≠ none

section Creation

theorem Effect.tickets_subset {skew now : Nat} {k k' : QueueKeys} {l : Label}
    (he : Effect now k l k') (hs : RoomSynced skew k)
    (quiet : ∀ key fingerprint t, l ≠ .joined key fingerprint t) {id : String}
    (h : k'.room.tickets.get id ≠ none) : k.room.tickets.get id ≠ none := by
  have put : ∀ {id' : String} {t t' : Ticket}, k.room.tickets.get id' = some t →
      (k.room.tickets.put id' t').get id ≠ none → k.room.tickets.get id ≠ none := by
    intro id' t t' row h
    by_cases hid : id = id'
    · rw [hid, row]
      simp
    · rwa [Table.get_put_ne hid] at h
  have own : ∀ {id' : String} {t : Ticket}, k.room.tickets.get id' = some t → t.id = id' :=
    fun row => (hs.tickets.ids _ _ row).1
  cases he with
  | @expire id' t s row index due =>
    intro hnone
    apply h
    have hget : (k.room.tickets.del id').get id = none := by
      rw [Table.get_del]
      split
      · rfl
      · exact hnone
    exact hget
  | forget => exact h
  | release => exact h
  | join => exact absurd rfl (quiet _ _ _)
  | promote config mode head row => exact put row h
  | @heartbeat c id' t config row =>
    obtain rfl := own row
    exact put row h
  | @claim c id' t config row =>
    obtain rfl := own row
    exact put row h
  | reclaim => exact h
  | configure => exact h

variable {skew now : Nat} {k k' : QueueKeys} {ls : List Label}
  {key fingerprint id replay : String} {i : Idem} {s : Score}

theorem Effects.tickets_of_row (run : Effects now k ls k') (hs : RoomSynced skew k)
    (asked : ∀ l ∈ ls, l.AskedBy (.join key fingerprint id replay))
    (row : k.room.idem.get key = some i ∧ k.room.idemExpiry.get key = some s) (live : score now < s)
    {a : String} (h : k'.room.tickets.get a ≠ none) : k.room.tickets.get a ≠ none := by
  induction run with
  | nil => exact h
  | @cons k k₁ k₂ l ls he run ih =>
    obtain ⟨hl, hls⟩ := List.forall_mem_cons.mp asked
    have hadd := ih (he.synced hs) hls (he.rowKept live row) h
    refine he.tickets_subset hs ?_ hadd
    rintro key' fingerprint' t rfl
    obtain ⟨replay', hop⟩ := hl
    obtain ⟨rfl, -⟩ := Op.join.inj hop
    cases he with
    | join config accepted fresh =>
      rw [row.1] at fresh
      exact absurd fresh (by simp)

theorem Effects.row_of_tickets (run : Effects now k ls k') (hs : RoomSynced skew k)
    (asked : ∀ l ∈ ls, l.AskedBy (.join key fingerprint id replay)) {c : Config}
    (config : k.room.config = some c) (ttl : 0 < c.idempotencyTTL) {a : String}
    (old : k.room.tickets.get a = none) (new : k'.room.tickets.get a ≠ none) :
    ∃ i, k'.room.idem.get key = some i ∧
      k'.room.idemExpiry.get key = some (score (now + c.idempotencyTTL : Nat)) := by
  induction run with
  | nil => exact absurd old new
  | @cons k k₁ k₂ l ls he run ih =>
    obtain ⟨hl, hls⟩ := List.forall_mem_cons.mp asked
    have live : score now < score (now + c.idempotencyTTL : Nat) := score_lt_score.mpr (by omega)
    by_cases joined : ∃ key' fingerprint' t, l = .joined key' fingerprint' t
    · obtain ⟨key', fingerprint', t, rfl⟩ := joined
      obtain ⟨replay', hop⟩ := hl
      obtain ⟨rfl, -⟩ := Op.join.inj hop
      cases he with
      | join config' =>
        cases Option.some.inj (config.symm.trans config')
        refine ⟨_, run.invariant (P := fun k => k.room.idem.get key = some _ ∧
          k.room.idemExpiry.get key = some (score (now + c.idempotencyTTL : Nat)))
          ⟨Table.get_put_self _ _ _, Table.get_put_self _ _ _⟩
          fun _ _ _ hp he => he.rowKept live hp⟩
    · have quiet : ∀ key' fingerprint' t, l ≠ .joined key' fingerprint' t :=
        fun key' fingerprint' t hl => joined ⟨key', fingerprint', t, hl⟩
      have old₁ : k₁.room.tickets.get a = none := by
        by_contra hne
        exact he.tickets_subset hs quiet hne old
      have config₁ : k₁.room.config = some c := by
        cases he with
        | configure =>
          have hop : (Op.join key fingerprint id replay) = .configure _ := hl
          exact absurd hop (by simp)
        | _ => exact config
      exact ih (he.synced hs) hls config₁ old₁ new

variable {e : Nat} {r : String} {es : List QueueEvent} {db : QueueDb} {step : Step Call}

theorem not_creates_of_kept (hr : QueueRun es db)
    (joins : IsJoin e r key fingerprint (eventOf exec db step)) (kept : RowKept e r key i s db)
    (live : score step.env.now < s) : ¬ Creates e r (eventOf exec db step) := by
  rintro ⟨a, old, new⟩
  obtain ⟨-, -, id, replay, primary, fence, hcall⟩ := joins
  have live : score (eventOf exec db step).input.env.now < s := live
  have kept : RowKept e r key i s (eventOf exec db step).before := kept
  have hs : EpochSynced (eventOf exec db step).before e := run_synced hr e
  have move := exec_roomMove (run_synced hr e) step r
  generalize eventOf exec db step = ev at *
  cases move with
  | still silent room =>
    rw [room] at new
    exact new old
  | opened silent call blank room =>
    rw [room] at new
    exact new rfl
  | configured silent call tickets idems room =>
    rw [room] at new
    exact new old
  | @ran op primary' fence' c ls k' command call enters config run answered inst room =>
    obtain ⟨rfl, -⟩ := Call.command.inj (call.symm.trans hcall)
    have row : (ev.before.room e r).idem.get key = some i ∧
        (ev.before.room e r).idemExpiry.get key = some s := by
      rcases kept with row | past
      · exact row
      · have hclock : score (ev.before.inst e).clock ≤ score ev.input.env.now :=
          score_le_score.mpr (by exact_mod_cast enters.clock)
        exact absurd (past.trans hclock) (not_le.mpr live)
    rw [room] at new
    exact run.tickets_of_row (started_synced hs config _) answered.asked row live new old

theorem row_of_creates (hr : QueueRun es db)
    (joins : IsJoin e r key fingerprint (eventOf exec db step)) {ttl : Nat} (pos : 0 < ttl)
    (retention : ∀ c, (db.room e r).config = some c → c.idempotencyTTL = ttl)
    (creates : Creates e r (eventOf exec db step)) :
    ∃ i, RowKept e r key i (score (step.env.now + ttl : Nat)) (exec db step).2 := by
  obtain ⟨a, old, new⟩ := creates
  obtain ⟨-, -, id, replay, primary, fence, hcall⟩ := joins
  have retention : ∀ c, ((eventOf exec db step).before.room e r).config = some c →
      c.idempotencyTTL = ttl := retention
  have hs : EpochSynced (eventOf exec db step).before e := run_synced hr e
  have move := exec_roomMove (run_synced hr e) step r
  have goal : ∃ i, RowKept e r key i (score ((eventOf exec db step).input.env.now + ttl : Nat))
      (eventOf exec db step).after := by
    generalize eventOf exec db step = ev at *
    cases move with
    | still silent room =>
      rw [room] at new
      exact absurd old new
    | opened silent call blank room =>
      rw [room] at new
      exact absurd rfl new
    | configured silent call tickets idems room =>
      rw [room] at new
      exact absurd old new
    | @ran op primary' fence' c ls k' command call enters config run answered inst room =>
      obtain ⟨rfl, -⟩ := Call.command.inj (call.symm.trans hcall)
      obtain rfl := retention c config
      rw [room] at new
      obtain ⟨i, hrow⟩ := run.row_of_tickets (started_synced hs config _) answered.asked config pos
        old new
      refine ⟨i, .inl ?_⟩
      rw [room]
      exact hrow
  exact goal

end Creation

end WaitingRoom.Queue
