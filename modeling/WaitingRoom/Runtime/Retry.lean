import WaitingRoom.Queue.Probe
import WaitingRoom.Runtime.Recovery

/-!
# Writes that finish a sweep

`WR_SWEEP_REQUIRED` answers a command that has only swept. `Store.call` then
repeats the same command, at most eight times in all; a sweep itself is not
repeated. The calls here are uninterrupted: nothing else reaches the room
between two attempts, the server's clock stands still and no answer is lost.
-/

namespace WaitingRoom.Runtime

open Queue

set_option autoImplicit false

inductive CallError
  | capacity
  | conflict
  | expired
  | drain
  | notReady
  | unavailable
  | sweep
deriving DecidableEq, Repr

/-- `classify`, and what `runtimeCall` makes of the errors that may hide a write. -/
def classify : Outcome → Except CallError Reply
  | .reply r => .ok r
  | .error .capacity => .error .capacity
  | .error .conflict => .error .conflict
  | .error .expired => .error .expired
  | .error .drain => .error .drain
  | .error .notReady => .error .notReady
  | .error .sweepRequired => .error .sweep
  | .error .unavailable => .error .unavailable
  | .error .schema => .error .unavailable
  | .error .fenced => .error .unavailable
  | .error .command => .error .unavailable
  | .abort => .error .unavailable

/-- `runtimeCall` from its start to the answer. The repair after an unclear answer
is a maintenance of its own. -/
def runtimeCall (db : QueueDb) (s : Store) (env : Env) (a : Ask) :
    Except CallError Reply × QueueDb × Store :=
  if s.acknowledgedUncertainty < s.uncertainty then (.error .unavailable, db, s)
  else
    match viewOf s a with
    | .ready ⟨_, _, .call q⟩ =>
      let r := exec db ⟨s.epoch, s.room, env, q⟩
      (classify r.1, r.2,
        if settled a.read (.answer r.1) then s else { s with uncertainty := s.uncertainty + 1 })
    | _ => (.error .unavailable, db, s)

/-- The loop of `Store.call`: it goes on only after `ErrSweep`, which is also what
the last attempt has returned when there is none left. -/
def attempt (env : Env) (op : Op) : Nat → QueueDb → Store → Except CallError Reply × QueueDb × Store
  | 0, db, s => (.error .sweep, db, s)
  | n + 1, db, s =>
    match runtimeCall db s env (.command op) with
    | (.error .sweep, db, s) => attempt env op n db s
    | r => r

def attempts (op : Op) : Nat := if op = .sweep then 1 else 8

/-- `Store.call` for a write. -/
def Store.call (s : Store) (db : QueueDb) (env : Env) (op : Op) :
    Except CallError Reply × QueueDb × Store :=
  attempt env op (attempts op) db s

/-- The counters of the owner sets, which only `available` reads and `commit` writes. -/
def recount (k : QueueKeys) (visitors idems : Nat) : QueueKeys :=
  { k with inst := { k.inst with visitors := visitors, idems := idems } }

section Swept

variable {k : QueueKeys} {env : Env} {primary : String} {fence : Nat} {c : Config}

theorem serves_after {k' : QueueKeys} (h : Serves k env primary fence c)
    (frame : EffectFrame (started k env.now) k') (config : k'.room.config = some c)
    (mode : k'.room.mode ≠ .recoveryHold) : Serves (commit k') env primary fence c := by
  obtain ⟨hepoch, hprimary, hstored, hfence⟩ := h.enters.fenced
  obtain ⟨-, hschema, -, hmode, -, -⟩ := h.enters.available
  obtain ⟨v, i, n, -, hinst⟩ := frame.inst
  have current : EpochCurrent (commit k') := by
    have hshared : k'.shared.epoch = k.shared.epoch := by rw [frame.shared]; rfl
    have : k'.inst.epoch = k.inst.epoch := by rw [hinst]; rfl
    exact hshared.trans (Eq.trans hepoch this.symm)
  have hclock : k'.inst.clock = env.now := by rw [hinst]; rfl
  have hroom : k'.room.clock = env.now := frame.clock
  refine ⟨⟨⟨current, hprimary, ?_, ?_⟩, ⟨current, ?_, rfl, ?_, rfl, rfl⟩, hclock.le⟩, config,
    frame.schema.trans h.schema, hroom.le, mode⟩
  · show k'.inst.primary = some primary
    rw [hinst]
    exact hstored
  · show fence = k'.inst.fence
    rw [hinst]
    exact hfence
  · show k'.inst.schema = 5
    rw [hinst]
    exact hschema
  · show k'.inst.mode = .active
    rw [hinst]
    exact hmode

theorem purge_frame (k : QueueKeys) (now : Nat) (ids keys : List String) :
    EffectFrame k (purge k now ids keys) :=
  ⟨rfl, rfl, rfl, rfl, rfl, ⟨_, _, _, Nat.le_refl _, rfl⟩, rfl⟩

theorem started_commit {k' : QueueKeys} (frame : EffectFrame (started k env.now) k') :
    started (commit k') env.now =
      recount k' k'.inst.visitorOwners.size k'.inst.idemOwners.size := by
  obtain ⟨v, i, n, -, hinst⟩ := frame.inst
  have hroom : k'.room.clock = env.now := frame.clock
  have hclock : k'.inst.clock = env.now := by rw [hinst]; rfl
  have hdirty : k'.inst.dirty = true := by rw [hinst]; rfl
  have hshared : k'.shared.clock = some (max env.now (k.shared.clock.getD 0)) := by
    rw [frame.shared]
    rfl
  obtain ⟨room, inst, shared⟩ := k'
  obtain ⟨epoch, clock, horizon⟩ := shared
  dsimp only at hroom hclock hdirty hshared
  subst hshared
  simp only [started, setClock, beginCommand, commit, recount, hclock, ← hdirty, ← hroom,
    Option.getD_some]
  congr 2
  rw [← Nat.max_assoc, ← Nat.max_assoc, Nat.max_self, Nat.max_self]

end Swept

theorem promoteLoop_ne_sweepRequired (now : Nat) (c : Config) (ids : List String) (k : QueueKeys)
    (out : List Ticket) : (promoteLoop now c ids k out).1 ≠ .error .sweepRequired := by
  induction ids generalizing k out with
  | nil => simp [promoteLoop]
  | cons id ids ih =>
    rw [promoteLoop]
    split
    · simp
    · split
      · split
        · simp
        · split
          · simp
          · exact ih _ _
      · exact ih _ _

theorem perform_ne_sweepRequired (k : QueueKeys) (now : Nat) (c : Config) (op : Op) :
    (perform k now c op).1 ≠ .error .sweepRequired := by
  cases op with
  | join key fingerprint id replay =>
    simp only [perform, join, joinReplay]
    repeat' split
    all_goals simp
  | promote n =>
    simp only [perform, promote]
    split
    · simp
    · exact promoteLoop_ne_sweepRequired now c _ k []
  | claim id =>
    simp only [perform, claim, answer]
    repeat' split
    all_goals simp
  | heartbeat id =>
    simp only [perform, heartbeat, answer]
    repeat' split
    all_goals simp
  | configure d =>
    simp only [perform, configure, answer]
    repeat' split
    all_goals simp
  | sweep => simp [perform, answer]
  | other => simp [perform]

/-- A store that knows of no incident and sees the installation ACTIVE. -/
structure Clear (s : Store) (f : Frame) : Prop where
  settled : s.uncertainty ≤ s.acknowledgedUncertainty
  snapshot : ∃ incident, s.recoverySnapshot = some ⟨f, incident⟩
  active : f.mode = .active

def finished (db : QueueDb) (s : Store) (r : Outcome × QueueKeys) :
    Except CallError Reply × QueueDb × Store :=
  (classify r.1, db.set s.epoch s.room r.2,
    if settled false (.answer r.1) then s else { s with uncertainty := s.uncertainty + 1 })

section Attempt

variable {db : QueueDb} {s : Store} {f : Frame} {env : Env} {op : Op} {c : Config}

theorem runtimeCall_eq (clear : Clear s f) :
    runtimeCall db s env (.command op) =
      finished db s (wrR6Command (db.keys s.epoch s.room) env op (f.primary.getD "") f.fence) := by
  obtain ⟨incident, hsnap⟩ := clear.snapshot
  have hview : viewOf s (.command op) = .ready ⟨⟨f, incident⟩, s.uncertainty,
      .call (.command op (f.primary.getD "") f.fence)⟩ := by
    simp only [viewOf, hsnap, Ask.request, clear.active]
  rw [runtimeCall, if_neg (Nat.not_lt.mpr clear.settled), hview]
  rfl

theorem set_set (db : QueueDb) (e : Nat) (r : String) (k k' : QueueKeys) :
    (db.set e r k).set e r k' = db.set e r k' := by
  simp only [Db.set, Db.mk.injEq, true_and]
  constructor
  · funext e'
    split <;> rfl
  · funext e' r'
    split <;> rfl

theorem attempt_of_ne_sweep {n : Nat} {r : Outcome × QueueKeys} (clear : Clear s f)
    (h : wrR6Command (db.keys s.epoch s.room) env op (f.primary.getD "") f.fence = r)
    (hne : r.1 ≠ .error .sweepRequired) : attempt env op (n + 1) db s = finished db s r := by
  have hclass : classify r.1 ≠ .error .sweep := by
    obtain ⟨o, k⟩ := r
    cases o with
    | error e => cases e <;> simp_all [classify]
    | _ => simp [classify]
  rw [attempt, runtimeCall_eq clear, h]
  unfold finished
  split
  · rename_i heq
    exact absurd (Prod.mk.inj heq).1 hclass
  · rfl

theorem attempt_of_sweep {n : Nat} {k : QueueKeys} (clear : Clear s f)
    (h : wrR6Command (db.keys s.epoch s.room) env op (f.primary.getD "") f.fence =
      (.error .sweepRequired, k)) :
    attempt env op (n + 1) db s = attempt env op n (db.set s.epoch s.room k) s := by
  rw [attempt, runtimeCall_eq clear, h]
  rfl

section Keys

variable {k : QueueKeys} (clear : Clear s f)
  (serves : Serves (db.keys s.epoch s.room) env (f.primary.getD "") f.fence c)
  (synced : RoomSynced c.clockSkew (db.keys s.epoch s.room)) (accepted : op.Accepted)
  (hk : started (db.keys s.epoch s.room) env.now = k)
include clear serves synced accepted hk

theorem attempt_of_small
    (hsmall : (dueTickets k env.now).length ≤ 128 ∧ (dueIdems k env.now).length ≤ 128) (n : Nat) :
    attempt env op (n + 1) db s = finished db s (commitResult
      (perform (purge k env.now (dueTickets k env.now) (dueIdems k env.now)) env.now c op)) := by
  have hks : RoomSynced c.clockSkew k := hk ▸ synced.congr rfl fun _ _ => ⟨rfl, rfl⟩
  have hcommand := serves.command accepted
  rw [hk, sweepAndPerform_eq hks.rows_of_due, if_pos hsmall] at hcommand
  refine attempt_of_ne_sweep clear hcommand ?_
  have hne := perform_ne_sweepRequired (purge k env.now (dueTickets k env.now)
    (dueIdems k env.now)) env.now c op
  generalize perform _ _ _ _ = r at hne
  obtain ⟨o, k'⟩ := r
  cases o with
  | reply => simp [commitResult]
  | error => exact hne
  | abort => simp [commitResult]

theorem attempt_of_large
    (hlarge : ¬ ((dueTickets k env.now).length ≤ 128 ∧ (dueIdems k env.now).length ≤ 128))
    (n : Nat) :
    attempt env op (n + 1) db s = attempt env op n (db.set s.epoch s.room (commit
      (purge k env.now ((dueTickets k env.now).take 128) ((dueIdems k env.now).take 128)))) s := by
  have hks : RoomSynced c.clockSkew k := hk ▸ synced.congr rfl fun _ _ => ⟨rfl, rfl⟩
  have hcommand := serves.command accepted
  rw [hk, sweepAndPerform_eq hks.rows_of_due, if_neg hlarge] at hcommand
  exact attempt_of_sweep clear hcommand

end Keys

/-- `n + 1` attempts sweep the first `128 * (n + 1)` rows of each kind, and run the
operation if no other rows are due. -/
theorem attempt_eq (clear : Clear s f)
    (serves : Serves (db.keys s.epoch s.room) env (f.primary.getD "") f.fence c)
    (synced : RoomSynced c.clockSkew (db.keys s.epoch s.room)) (accepted : op.Accepted) (n : Nat)
    {k : QueueKeys} (hk : started (db.keys s.epoch s.room) env.now = k) :
    ((dueTickets k env.now).length ≤ 128 * (n + 1) ∧ (dueIdems k env.now).length ≤ 128 * (n + 1) →
      ∃ v i, attempt env op (n + 1) db s = finished db s (commitResult (perform (recount
        (purge k env.now (dueTickets k env.now) (dueIdems k env.now)) v i) env.now c op))) ∧
    (¬ ((dueTickets k env.now).length ≤ 128 * (n + 1) ∧
        (dueIdems k env.now).length ≤ 128 * (n + 1)) →
      attempt env op (n + 1) db s = (.error .sweep, db.set s.epoch s.room (commit
        (purge k env.now ((dueTickets k env.now).take (128 * (n + 1)))
          ((dueIdems k env.now).take (128 * (n + 1))))), s)) := by
  induction n generalizing db k with
  | zero =>
    refine ⟨fun hsmall => ⟨k.inst.visitors, k.inst.idems, ?_⟩, fun hlarge => ?_⟩
    · exact attempt_of_small clear serves synced accepted hk hsmall 0
    · exact attempt_of_large clear serves synced accepted hk hlarge 0
  | succ n ih =>
    by_cases hsmall : (dueTickets k env.now).length ≤ 128 ∧ (dueIdems k env.now).length ≤ 128
    · refine ⟨fun _ => ⟨k.inst.visitors, k.inst.idems, ?_⟩, fun hlarge => absurd ?_ hlarge⟩
      · exact attempt_of_small clear serves synced accepted hk hsmall (n + 1)
      · omega
    · rw [attempt_of_large clear serves synced accepted hk hsmall]
      have hks : RoomSynced c.clockSkew k := hk ▸ synced.congr rfl fun _ _ => ⟨rfl, rfl⟩
      have rows : ∀ id ∈ dueTickets k env.now, k.room.tickets.get id ≠ none := hks.rows_of_due
      have hcleanup := cleanup_eq rows
      generalize hk₁ : purge k env.now ((dueTickets k env.now).take 128)
        ((dueIdems k env.now).take 128) = k₁ at hcleanup ⊢
      have frame : EffectFrame (started (db.keys s.epoch s.room) env.now) k₁ := by
        rw [hk, ← hk₁]
        exact purge_frame k env.now _ _
      -- the next attempt starts from the swept keys, with the rest of the rows due
      have hdb : (db.set s.epoch s.room (commit k₁)).keys s.epoch s.room = commit k₁ := by simp
      have serves₁ : Serves ((db.set s.epoch s.room (commit k₁)).keys s.epoch s.room) env
          (f.primary.getD "") f.fence c := by
        rw [hdb]
        refine serves_after serves frame ?_ ?_
        · rw [← hk₁, ← hk]
          exact serves.config
        · rw [← hk₁, ← hk]
          exact serves.mode
      have synced₁ : RoomSynced c.clockSkew
          ((db.set s.epoch s.room (commit k₁)).keys s.epoch s.room) := by
        rw [hdb]
        have hround : cleanups env.now 1 k = .ok (k₁, decide (Swept k₁ env.now)) := hcleanup
        exact (cleanups_synced hks hround).congr rfl fun _ _ => ⟨rfl, rfl⟩
      have started₁ : started ((db.set s.epoch s.room (commit k₁)).keys s.epoch s.room) env.now =
          recount k₁ k₁.inst.visitorOwners.size k₁.inst.idemOwners.size := by
        rw [hdb]
        exact started_commit frame
      have htickets : dueTickets k₁ env.now = (dueTickets k env.now).drop 128 := by
        rw [← hk₁, dueTickets_purge]
      have hidems : dueIdems k₁ env.now = (dueIdems k env.now).drop 128 := by
        rw [← hk₁, dueIdems_purge]
      have hlength : (dueTickets k₁ env.now).length ≤ 128 * (n + 1) ∧
          (dueIdems k₁ env.now).length ≤ 128 * (n + 1) ↔
          (dueTickets k env.now).length ≤ 128 * (n + 1 + 1) ∧
          (dueIdems k env.now).length ≤ 128 * (n + 1 + 1) := by
        rw [htickets, hidems, List.length_drop, List.length_drop]
        omega
      have hpurge : ∀ m, purge k₁ env.now ((dueTickets k₁ env.now).take m)
          ((dueIdems k₁ env.now).take m) = purge k env.now ((dueTickets k env.now).take (128 + m))
          ((dueIdems k env.now).take (128 + m)) := by
        intro m
        rw [htickets, hidems, List.take_add, List.take_add, ← purge_purge, hk₁]
        intro id hid htake
        exact List.disjoint_take_drop (Table.due_nodup _ _) (Nat.le_refl _) htake
          (List.mem_of_mem_take hid)
      have hall : purge k₁ env.now (dueTickets k₁ env.now) (dueIdems k₁ env.now) =
          purge k env.now (dueTickets k env.now) (dueIdems k env.now) := by
        generalize hm : max (dueTickets k env.now).length (dueIdems k env.now).length = m
        have h := hpurge m
        have hrest : (dueTickets k₁ env.now).length ≤ m ∧ (dueIdems k₁ env.now).length ≤ m := by
          rw [htickets, hidems, List.length_drop, List.length_drop]
          omega
        have hboth : (dueTickets k env.now).length ≤ 128 + m ∧
            (dueIdems k env.now).length ≤ 128 + m := by omega
        rwa [List.take_of_length_le hrest.1, List.take_of_length_le hrest.2,
          List.take_of_length_le hboth.1, List.take_of_length_le hboth.2] at h
      obtain ⟨hfew, hmany⟩ := ih serves₁ synced₁ started₁
      refine ⟨fun h => ?_, fun h => ?_⟩
      · obtain ⟨v, i, heq⟩ := hfew (hlength.mpr h)
        refine ⟨v, i, heq.trans ?_⟩
        rw [finished, finished, set_set, ← hall]
        rfl
      · refine (hmany (fun h' => h (hlength.mp h'))).trans ?_
        have h128 : 128 * (n + 1 + 1) = 128 + 128 * (n + 1) := by omega
        rw [set_set, h128, ← hpurge]
        rfl

end Attempt

theorem call_swept {es : List QueueEvent} {db : QueueDb} (hr : QueueRun es db) {s : Store}
    {f : Frame} {c : Config} {env : Env} {op : Op}
    (config : (db.room s.epoch s.room).config = some c) (clear : Clear s f)
    (enters : Enters (db.keys s.epoch s.room) env (f.primary.getD "") f.fence)
    (accepted : op.Accepted) :
    (backlog (db.room s.epoch s.room) env.now c ≤ 128 * attempts op →
      ∃ k₁ v i, cleanups env.now (rounds (backlog (db.room s.epoch s.room) env.now c))
          (started (db.keys s.epoch s.room) env.now) = .ok (k₁, true) ∧
        Cleared c env.now (started (db.keys s.epoch s.room) env.now) k₁ ∧
        s.call db env op = finished db s (commitResult (perform (recount k₁ v i) env.now c op))) ∧
    (128 * attempts op < backlog (db.room s.epoch s.room) env.now c →
      ∃ k₁, cleanups env.now (attempts op) (started (db.keys s.epoch s.room) env.now) =
          .ok (k₁, false) ∧
        s.call db env op = (.error .sweep, db.set s.epoch s.room (commit k₁), s)) := by
  have hs : EpochSynced db s.epoch := run_synced hr s.epoch
  have synced := hs.synced s.room c config
  have serves : Serves (db.keys s.epoch s.room) env (f.primary.getD "") f.fence c :=
    ⟨enters, config, (hs.names _ (by simp [config])).2.1,
      ((run_timed hr s.epoch).clocks s.room).trans enters.clock,
      (run_steady hr s.epoch s.room).mode⟩
  obtain ⟨a, ha⟩ : ∃ a, attempts op = a + 1 := by
    unfold attempts
    split
    · exact ⟨0, rfl⟩
    · exact ⟨7, rfl⟩
  have starts : RoomSynced c.clockSkew (started (db.keys s.epoch s.room) env.now) :=
    started_synced hs config env.now
  have rows : ∀ id ∈ dueTickets (started (db.keys s.epoch s.room) env.now) env.now,
      (started (db.keys s.epoch s.room) env.now).room.tickets.get id ≠ none := starts.rows_of_due
  have hbacklog : backlog (started (db.keys s.epoch s.room) env.now).room env.now c =
      backlog (db.room s.epoch s.room) env.now c := rfl
  obtain ⟨hfew, hmany⟩ := attempt_eq clear serves synced accepted a rfl
  rw [starts.length_due_le_iff, hbacklog] at hfew hmany
  rw [Store.call, ha]
  refine ⟨fun hle => ?_, fun hlt => ?_⟩
  · obtain ⟨v, i, heq⟩ := hfew hle
    obtain ⟨m, hm⟩ : ∃ m, rounds (backlog (db.room s.epoch s.room) env.now c) = m + 1 :=
      ⟨_, (Nat.sub_add_cancel (Nat.le_max_left _ _)).symm⟩
    obtain ⟨k₁, hk₁, hcleared⟩ := starts.cleanups_ok env.now m
    rw [hbacklog, hm] at hk₁ hcleared
    rw [decide_eq_true (Nat.le_refl _)] at hk₁
    refine ⟨k₁, v, i, by rw [hm]; exact hk₁, hcleared (Nat.le_refl _), ?_⟩
    rw [heq, (cleanedUp_iff rows).mp ⟨_, hk₁⟩]
  · refine ⟨_, ?_, hmany (Nat.not_le.mpr hlt)⟩
    have heq := cleanups_eq rows a
    simp only [starts.length_due_le_iff, hbacklog] at heq
    rw [heq, decide_eq_false (Nat.not_le.mpr hlt)]

/-- For every opened room of a reachable state and every time: cleanups report
that they have caught up after exactly `rounds` of them, having removed what was
over and nothing else, each of them at most 128 rows of a kind. An uninterrupted
write runs its operation once, on the swept room, if its attempts suffice for the
backlog, and otherwise sweeps without running it. -/
theorem sweep_bounded {es : List QueueEvent} {db : QueueDb} (hr : QueueRun es db) {e : Nat}
    {r : String} {c : Config} (config : (db.room e r).config = some c) (env : Env) :
    (∀ n, ∃ k', cleanups env.now (n + 1) (db.keys e r) =
        .ok (k', decide (rounds (backlog (db.room e r) env.now c) ≤ n + 1)) ∧
      (rounds (backlog (db.room e r) env.now c) ≤ n + 1 → Cleared c env.now (db.keys e r) k')) ∧
    (∀ n k₁ b, cleanups env.now n (db.keys e r) = .ok (k₁, b) →
      ∃ k₂ b', cleanup k₁ env.now = .ok (k₂, b') ∧
        k₁.room.tickets.size ≤ k₂.room.tickets.size + 128 ∧
        k₁.room.idem.size ≤ k₂.room.idem.size + 128) ∧
    (∀ s f op, s.epoch = e → s.room = r → Clear s f →
      Enters (db.keys e r) env (f.primary.getD "") f.fence → op.Accepted →
      (backlog (db.room e r) env.now c ≤ 128 * attempts op →
        ∃ k₁ v i, cleanups env.now (rounds (backlog (db.room e r) env.now c))
            (started (db.keys e r) env.now) = .ok (k₁, true) ∧
          Cleared c env.now (started (db.keys e r) env.now) k₁ ∧
          s.call db env op =
            finished db s (commitResult (perform (recount k₁ v i) env.now c op))) ∧
      (128 * attempts op < backlog (db.room e r) env.now c →
        ∃ k₁, cleanups env.now (attempts op) (started (db.keys e r) env.now) = .ok (k₁, false) ∧
          s.call db env op = (.error .sweep, db.set e r (commit k₁), s))) := by
  have synced := (run_synced hr e).synced r c config
  refine ⟨synced.cleanups_ok env.now, fun n k₁ b h => (cleanups_synced synced h).cleanup_le, ?_⟩
  rintro s f op rfl rfl clear enters accepted
  exact call_swept hr config clear enters accepted

def sampleStore : Store :=
  ⟨1, "room", 0, 0, some ⟨⟨1000000, some "primary", 1, .active, 0, none, none⟩, 0⟩, .idle⟩

theorem sampleStore_clear :
    Clear sampleStore ⟨1000000, some "primary", 1, .active, 0, none, none⟩ :=
  ⟨Nat.le_refl _, ⟨0, rfl⟩, rfl⟩

section Crowd

/-- Hashes with the binary digits of `n`. -/
def crowdId (n : Nat) : String :=
  String.ofList ((List.range 64).map fun i => if n.testBit i then 'b' else 'a')

theorem crowdId_hashed (n : Nat) : Hashed (crowdId n) := by
  have hlen : ∀ l : List Nat,
      String.utf8Len (l.map fun i => if n.testBit i then 'b' else 'a') = l.length := by
    intro l
    induction l with
    | nil => rfl
    | cons i l ih =>
      rw [List.map_cons, String.utf8Len_cons, ih, List.length_cons]
      split <;> rfl
  rw [Hashed, crowdId, String.utf8ByteSize_ofList, hlen, List.length_range]

theorem crowdId_injective {n m : Nat} (hn : n < 2 ^ 64) (hm : m < 2 ^ 64)
    (h : crowdId n = crowdId m) : n = m := by
  apply Nat.eq_of_testBit_eq
  intro i
  by_cases hi : i < 64
  · have hl := congrArg (fun l => l[i]?) (String.ofList_injective h)
    simp only [List.getElem?_map, List.getElem?_range hi, Option.map_some, Option.some.injEq] at hl
    cases hb : n.testBit i <;> cases hc : m.testBit i <;> simp_all
  · have hpow : 2 ^ 64 ≤ 2 ^ i := Nat.pow_le_pow_right (by omega) (Nat.not_lt.mp hi)
    rw [Nat.testBit_lt_two_pow (hn.trans_le hpow), Nat.testBit_lt_two_pow (hm.trans_le hpow)]

def crowdConfig : Config := { sampleConfig with visitorCap := 2000, idempotencyCap := 2000 }

def crowdJoin (n : Nat) : Step Call :=
  ⟨1, "room", ⟨1000001, "primary"⟩,
    .command (.join (crowdId n) (crowdId n) (crowdId n) "") "primary" 1⟩

/-- A room is opened, and `n` visitors join it at once. -/
def crowdSteps (n : Nat) : List (Step Call) :=
  ⟨1, "room", ⟨1000000, "primary"⟩, .upkeep (.init crowdConfig "primary" ⟨"lab", 2000, 2000⟩ 0)⟩ ::
    (List.range n).map crowdJoin

def crowdDb (n : Nat) : QueueDb := stateAfter exec {} (crowdSteps n)

theorem crowd_run (n : Nat) : QueueRun (eventsOf exec {} (crowdSteps n)) (crowdDb n) := by
  refine run_of_inputs ({} : QueueDb) fun s hs _ => ?_
  rcases List.mem_cons.mp hs with rfl | hs
  · show crowdConfig.Valid
    constructor <;> decide
  · obtain ⟨i, -, rfl⟩ := List.mem_map.mp hs
    trivial

theorem crowdDb_succ (n : Nat) : crowdDb (n + 1) = (exec (crowdDb n) (crowdJoin n)).2 := by
  rw [crowdDb, crowdSteps, List.range_succ, List.map_append, ← List.cons_append, stateAfter_append]
  rfl

/-- The room after `n` visitors have joined it. -/
structure Crowd (n : Nat) (k : QueueKeys) : Prop where
  serves : Serves k ⟨1000001, "primary"⟩ "primary" 1 crowdConfig
  mode : k.room.mode = .hold
  global : k.inst.config = some ⟨"lab", 2000, 2000⟩
  seq : k.room.seq = n
  tickets : k.room.tickets.size = n
  idem : k.room.idem.size = n
  visitors : k.inst.visitorOwners.size = n
  idems : k.inst.idemOwners.size = n
  rate : ∀ id, k.room.rate.get id = none
  expiry : ∀ id s, k.room.expiry.get id = some s → s = score 1060001 ∧ ∃ j < n, id = crowdId j
  idemExpiry : ∀ key s, k.room.idemExpiry.get key = some s →
    s = score 1600001 ∧ ∃ j < n, key = crowdId j

theorem Crowd.join {n : Nat} {k : QueueKeys} (h : Crowd n k) (hn : n < 2000)
    (hs : RoomSynced crowdConfig.clockSkew k) :
    Crowd (n + 1) (wrR6Command k ⟨1000001, "primary"⟩
      (.join (crowdId n) (crowdId n) (crowdId n) "") "primary" 1).2 := by
  have hashed := crowdId_hashed n
  have fresh : ∀ j < n, crowdId n ≠ crowdId j := fun j hj heq =>
    absurd (crowdId_injective (by omega) (by omega) heq) (by omega)
  have hexpiry : k.room.expiry.get (crowdId n) = none := by
    by_contra hne
    obtain ⟨x, hx⟩ := Option.ne_none_iff_exists'.mp hne
    obtain ⟨-, j, hj, heq⟩ := h.expiry _ _ hx
    exact fresh j hj heq
  have hidemExpiry : k.room.idemExpiry.get (crowdId n) = none := by
    by_contra hne
    obtain ⟨x, hx⟩ := Option.ne_none_iff_exists'.mp hne
    obtain ⟨-, j, hj, heq⟩ := h.idemExpiry _ _ hx
    exact fresh j hj heq
  have hticket : k.room.tickets.get (crowdId n) = none := by
    have hsome := hs.tickets.expiry (crowdId n)
    rw [hexpiry] at hsome
    exact Option.map_eq_none_iff.mp hsome.symm
  have hidem : k.room.idem.get (crowdId n) = none := by
    have hrow := hs.idems.rows (crowdId n)
    rw [hidemExpiry, Option.isSome_none, Option.isSome_eq_false_iff, Option.isNone_iff_eq_none] at hrow
    exact hrow
  have hvisitor : k.inst.visitorOwners.get (member k.room.room (crowdId n)) = none :=
    (hs.tickets.owners _ hashed).trans hexpiry
  have howner : k.inst.idemOwners.get (member k.room.room (crowdId n)) = none :=
    (hs.idems.owners _ hashed).trans hidemExpiry
  -- nothing is due at the time of the joins
  have htickets : dueTickets (started k 1000001) 1000001 = [] := by
    refine not_due ?_
    rintro ⟨id, x, hget, hle⟩
    obtain ⟨rfl, -⟩ := h.expiry id x hget
    exact absurd (score_le_score.mp hle) (by omega)
  have hidems : dueIdems (started k 1000001) 1000001 = [] := by
    refine not_due ?_
    rintro ⟨key, x, hget, hle⟩
    obtain ⟨rfl, -⟩ := h.idemExpiry key x hget
    exact absurd (score_le_score.mp hle) (by omega)
  have hpurge : purge (started k 1000001) 1000001 [] [] = started k 1000001 :=
    purge_nothing fun id x hx => absurd (hx.symm.trans (h.rate id)) (by simp)
  have hcommand : wrR6Command k ⟨1000001, "primary"⟩
      (.join (crowdId n) (crowdId n) (crowdId n) "") "primary" 1 = commitResult (Queue.join
        (started k 1000001) 1000001 crowdConfig (crowdId n) (crowdId n) (crowdId n) "") := by
    have accepted : (Op.join (crowdId n) (crowdId n) (crowdId n) "").Accepted :=
      ⟨hashed, hashed, hashed, by decide⟩
    rw [h.serves.command accepted, sweepAndPerform_eq (by simp [htickets]), htickets, hidems, hpurge]
    rfl
  have hjoin : Queue.join (started k 1000001) 1000001 crowdConfig (crowdId n) (crowdId n)
      (crowdId n) "" = (.reply (.answer 1000001 (some (newTicket k.room 1000001 crowdConfig
        (crowdId n))) "" (some ⟨newTicket k.room 1000001 crowdConfig (crowdId n), 60000⟩)),
        joinRows (started k 1000001) 1000001 crowdConfig (crowdId n) (crowdId n) ""
          (newTicket k.room 1000001 crowdConfig (crowdId n))) := by
    have hrow : (started k 1000001).room.idem.get (crowdId n) = none := hidem
    have hglobal : (started k 1000001).inst.config = some ⟨"lab", 2000, 2000⟩ := h.global
    have hmode : (started k 1000001).room.mode = .hold := h.mode
    have hvisitors : (started k 1000001).inst.visitorOwners.size = n := h.visitors
    have hidems : (started k 1000001).inst.idemOwners.size = n := h.idems
    have htickets : (started k 1000001).room.tickets.size = n := h.tickets
    have hrows : (started k 1000001).room.idem.size = n := h.idem
    have hfree : (started k 1000001).room.tickets.get (crowdId n) = none := hticket
    have hseq : (started k 1000001).room.seq = n := h.seq
    have hcapacity : ¬ (2000 ≤ n ∨ 2000 ≤ n ∨ 2000 ≤ n ∨ 2000 ≤ n) := by omega
    have hlast : ¬ maxInteger ≤ n := by
      unfold maxInteger
      omega
    rw [Queue.join, hrow]
    dsimp only
    rw [if_neg (by simp [hmode]), hglobal]
    dsimp only
    have hcaps : crowdConfig.visitorCap = 2000 ∧ crowdConfig.idempotencyCap = 2000 := ⟨rfl, rfl⟩
    rw [hvisitors, hidems, htickets, hrows, hcaps.1, hcaps.2, if_neg hcapacity, hfree,
      if_neg (by simp), hseq, if_neg hlast]
    rfl
  rw [hcommand, hjoin]
  refine ⟨serves_after h.serves ⟨rfl, rfl, rfl, rfl, rfl, ⟨_, _, _, Nat.le_refl _, rfl⟩, rfl⟩
    h.serves.config h.serves.mode, h.mode, h.global, congrArg (· + 1) h.seq, ?_, ?_, ?_, ?_, h.rate,
    ?_, ?_⟩
  · exact (Table.size_put_of_none hticket).trans (congrArg (· + 1) h.tickets)
  · exact (Table.size_put_of_none hidem).trans (congrArg (· + 1) h.idem)
  · exact (Table.size_put_of_none hvisitor).trans (congrArg (· + 1) h.visitors)
  · exact (Table.size_put_of_none howner).trans (congrArg (· + 1) h.idems)
  · intro id x hx
    have hx : (k.room.expiry.put (crowdId n) (score 1060001)).get id = some x := hx
    rw [Table.get_put] at hx
    split at hx
    · exact ⟨(Option.some.inj hx).symm, n, by omega, by assumption⟩
    · obtain ⟨hscore, j, hj, heq⟩ := h.expiry id x hx
      exact ⟨hscore, j, by omega, heq⟩
  · intro key x hx
    have hx : (k.room.idemExpiry.put (crowdId n) (score 1600001)).get key = some x := hx
    rw [Table.get_put] at hx
    split at hx
    · exact ⟨(Option.some.inj hx).symm, n, by omega, by assumption⟩
    · obtain ⟨hscore, j, hj, heq⟩ := h.idemExpiry key x hx
      exact ⟨hscore, j, by omega, heq⟩

theorem crowd (n : Nat) (hn : n ≤ 2000) : Crowd n ((crowdDb n).keys 1 "room") := by
  induction n with
  | zero =>
    refine ⟨⟨⟨by decide, by decide, by decide⟩, rfl, rfl, by decide, by decide⟩, rfl, rfl, rfl, rfl,
      rfl, rfl, rfl, fun _ => rfl, fun id x hx => ?_, fun key x hx => ?_⟩
    · have hx : (none : Option Score) = some x := hx
      cases hx
    · have hx : (none : Option Score) = some x := hx
      cases hx
  | succ n ih =>
    have h := ih (by omega)
    have hs := (run_synced (crowd_run n) 1).synced "room" crowdConfig h.serves.config
    rw [crowdDb_succ]
    have hstep : (exec (crowdDb n) (crowdJoin n)).2.keys 1 "room" = (wrR6Command
        ((crowdDb n).keys 1 "room") ⟨1000001, "primary"⟩
        (.join (crowdId n) (crowdId n) (crowdId n) "") "primary" 1).2 := Db.keys_set_self ..
    rw [hstep]
    exact h.join (by omega) hs

theorem Crowd.backlog {n : Nat} {k : QueueKeys} (h : Crowd n k)
    (hs : RoomSynced crowdConfig.clockSkew k) : Queue.backlog k.room 1060001 crowdConfig = n := by
  have hexpired : expiredTickets k.room 1060001 crowdConfig = n := by
    rw [expiredTickets, ← Table.size_keep, Table.keep_eq_self, h.tickets]
    intro id t ht
    have hget : k.room.expiry.get id = some (score (t.deadline crowdConfig.clockSkew)) :=
      (hs.indexed.expiry id _).mpr ⟨t, ht, rfl⟩
    have hscore := score_inj.mp (h.expiry id _ hget).1
    exact expired_iff.mpr (by omega)
  have hretained : expiredIdems k.room 1060001 = 0 := by
    rw [expiredIdems, Table.count_eq_zero_iff]
    intro key x hx
    rw [(h.idemExpiry key x hx).1]
    simp
  rw [Queue.backlog, hexpired, hretained, Nat.max_zero]

theorem crowd_due {n : Nat} (hn : n ≤ 2000) :
    ((crowdDb n).room 1 "room").config = some crowdConfig ∧
    Enters ((crowdDb n).keys 1 "room") ⟨1060001, "primary"⟩ "primary" 1 ∧
    Queue.backlog ((crowdDb n).room 1 "room") 1060001 crowdConfig = n := by
  have h := crowd n hn
  have hs := (run_synced (crowd_run n) 1).synced "room" crowdConfig h.serves.config
  exact ⟨h.serves.config, ⟨h.serves.enters.fenced, h.serves.enters.available,
    h.serves.enters.clock.trans (by decide : 1000001 ≤ 1060001)⟩, h.backlog hs⟩

theorem crowd_swept :
    (∃ k, cleanups 1060001 1 ((crowdDb 129).keys 1 "room") = .ok (k, false)) ∧
    (∃ k, cleanups 1060001 2 ((crowdDb 129).keys 1 "room") = .ok (k, true) ∧
      Cleared crowdConfig 1060001 ((crowdDb 129).keys 1 "room") k) ∧
    ∃ k v i, Cleared crowdConfig 1060001 (started ((crowdDb 129).keys 1 "room") 1060001) k ∧
      sampleStore.call (crowdDb 129) ⟨1060001, "primary"⟩ (.promote 1) =
        finished (crowdDb 129) sampleStore
          (commitResult (perform (recount k v i) 1060001 crowdConfig (.promote 1))) := by
  obtain ⟨config, enters, hbacklog⟩ := crowd_due (n := 129) (by omega)
  obtain ⟨hrounds, -, hcall⟩ := sweep_bounded (crowd_run 129) config ⟨1060001, "primary"⟩
  rw [hbacklog] at hrounds hcall
  obtain ⟨k₁, hone, -⟩ := hrounds 0
  obtain ⟨k₂, htwo, hcleared⟩ := hrounds 1
  obtain ⟨k, v, i, -, hswept, heq⟩ :=
    (hcall sampleStore _ (.promote 1) rfl rfl sampleStore_clear enters (by decide)).1 (by decide)
  exact ⟨⟨k₁, hone⟩, ⟨k₂, htwo, hcleared (by decide)⟩, k, v, i, hswept, heq⟩

theorem crowd_sweep {n : Nat} (hmany : 128 < n) (hn : n ≤ 2000) :
    (sampleStore.call (crowdDb n) ⟨1060001, "primary"⟩ .sweep).1 = .error .sweep := by
  obtain ⟨config, enters, hbacklog⟩ := crowd_due hn
  have accepted : Op.Accepted .sweep := trivial
  have hmore : 128 * attempts .sweep <
      Queue.backlog ((crowdDb n).room 1 "room") 1060001 crowdConfig := by
    rw [hbacklog, show attempts .sweep = 1 from rfl]
    omega
  obtain ⟨k₁, -, hcall⟩ :=
    (call_swept (s := sampleStore) (crowd_run n) config sampleStore_clear enters accepted).2 hmore
  exact congrArg Prod.fst hcall

/-- The sweep of a room with 129 expired tickets is not repeated: it ends with the
sweep error, although eight attempts would have been enough. -/
theorem sweep_not_repeated :
    QueueRun (eventsOf exec {} (crowdSteps 129)) (crowdDb 129) ∧
    ((crowdDb 129).room 1 "room").config = some crowdConfig ∧
    Enters ((crowdDb 129).keys 1 "room") ⟨1060001, "primary"⟩ "primary" 1 ∧
    Queue.backlog ((crowdDb 129).room 1 "room") 1060001 crowdConfig = 129 ∧
    (sampleStore.call (crowdDb 129) ⟨1060001, "primary"⟩ .sweep).1 = .error .sweep := by
  obtain ⟨config, enters, hbacklog⟩ := crowd_due (n := 129) (by omega)
  exact ⟨crowd_run 129, config, enters, hbacklog, crowd_sweep (by omega) (by omega)⟩

end Crowd

end WaitingRoom.Runtime
