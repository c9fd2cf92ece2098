import WaitingRoom.Queue.Hold
import WaitingRoom.Shared.Batch

/-!
# Sweeps

One `cleanup` removes a batch of 128 expired tickets and of 128 expired
idempotency rows. Cleanups at one time follow each other without a gap: after
`n` of them the first `128 * n` expired rows of both kinds are gone, in the order
of their deadlines, and nothing else.
-/

namespace WaitingRoom.Queue

set_option autoImplicit false

/-- The number of READY tickets among `ids`. -/
def readyAmong (r : QueueRoom) (ids : List String) : Nat :=
  ids.countP fun id => (r.tickets.get id).any Ticket.isReady

def withoutTickets (k : QueueKeys) (ids : List String) : QueueKeys :=
  { k with
    room := { k.room with
      ready := k.room.ready - readyAmong k.room ids
      tickets := k.room.tickets.delAll ids
      waiting := k.room.waiting.delAll ids
      expiry := k.room.expiry.delAll ids
      leases := k.room.leases.delAll ids }
    inst := { k.inst with
      visitorOwners := k.inst.visitorOwners.delAll (ids.map (member k.room.room)) } }

def withoutIdems (k : QueueKeys) (keys : List String) : QueueKeys :=
  { k with
    room := { k.room with
      idem := k.room.idem.delAll keys
      idemExpiry := k.room.idemExpiry.delAll keys }
    inst := { k.inst with
      idemOwners := k.inst.idemOwners.delAll (keys.map (member k.room.room)) } }

/-- The keys without the tickets `ids` and the idempotency rows `keys`, and with
the rate reservations released that are over at `now`. -/
def purge (k : QueueKeys) (now : Nat) (ids keys : List String) : QueueKeys :=
  releaseRate (withoutIdems (withoutTickets k ids) keys) now

/-- Consecutive cleanups at one time, with the answer of the last one. -/
def cleanups (now : Nat) : Nat → QueueKeys → Except QueueKeys (QueueKeys × Bool)
  | 0, k => .ok (k, false)
  | n + 1, k =>
    match cleanups now n k with
    | .error k => .error k
    | .ok (k, _) => cleanup k now

def dueTickets (k : QueueKeys) (now : Nat) : List String := k.room.expiry.due (score now)

def dueIdems (k : QueueKeys) (now : Nat) : List String := k.room.idemExpiry.due (score now)

/-- The number of tickets of the room that are expired at `now`. -/
def expiredTickets (r : QueueRoom) (now : Nat) (c : Config) : Nat :=
  r.tickets.count fun t => expired t now c

/-- The number of idempotency rows of the room that are no longer retained at `now`. -/
def expiredIdems (r : QueueRoom) (now : Nat) : Nat :=
  r.idemExpiry.count fun s => decide (s ≤ score now)

theorem expired_iff {t : Ticket} {now : Nat} {c : Config} :
    expired t now c = true ↔ t.deadline c.clockSkew ≤ now := by
  unfold expired Ticket.deadline
  cases t.state <;> simp

section Purge

variable {k : QueueKeys} {now : Nat} {ids ids' keys keys' : List String}

theorem readyAmong_cons (r : QueueRoom) (id : String) (ids : List String) :
    readyAmong r (id :: ids) =
      readyAmong r ids + if (r.tickets.get id).any Ticket.isReady then 1 else 0 :=
  List.countP_cons

theorem readyAmong_congr {r r' : QueueRoom} (h : ∀ id ∈ ids, r'.tickets.get id = r.tickets.get id) :
    readyAmong r' ids = readyAmong r ids := by
  refine List.countP_congr fun id hid => ?_
  rw [h id hid]

theorem dropTickets_eq (hn : ids.Nodup) (rows : ∀ id ∈ ids, k.room.tickets.get id ≠ none) :
    dropTickets ids k = .ok (withoutTickets k ids) := by
  induction ids generalizing k with
  | nil => simp [dropTickets, withoutTickets, readyAmong]
  | cons id ids ih =>
    obtain ⟨hnot, hn⟩ := List.nodup_cons.mp hn
    obtain ⟨t, ht⟩ := Option.ne_none_iff_exists'.mp (rows id List.mem_cons_self)
    have others : ∀ a ∈ ids, (dropTicket k id t).room.tickets.get a = k.room.tickets.get a :=
      fun a ha => Table.get_del_ne fun h => hnot (h ▸ ha)
    have hrest := ih (k := dropTicket k id t) hn fun a ha => by
      rw [others a ha]
      exact rows a (List.mem_cons_of_mem _ ha)
    have hready : readyAmong (dropTicket k id t).room ids = readyAmong k.room ids :=
      readyAmong_congr others
    simp only [dropTickets, ht, hrest, withoutTickets, hready, readyAmong_cons, Option.any_some,
      Ticket.isReady, decide_eq_true_eq]
    simp only [dropTicket, Table.delAll_cons, List.map_cons]
    congr 3
    split <;> omega

theorem dropIdems_eq (keys : List String) (k : QueueKeys) :
    dropIdems keys k = withoutIdems k keys := by
  induction keys generalizing k with
  | nil => rfl
  | cons key keys ih =>
    rw [dropIdems, List.foldl_cons, ← dropIdems, ih]
    rfl

theorem purge_purge (apart : ∀ id ∈ ids', id ∉ ids) :
    purge (purge k now ids keys) now ids' keys' = purge k now (ids ++ ids') (keys ++ keys') := by
  have hready : readyAmong (purge k now ids keys).room ids' = readyAmong k.room ids' := by
    refine readyAmong_congr fun id hid => ?_
    have hget : (purge k now ids keys).room.tickets.get id = (k.room.tickets.delAll ids).get id := rfl
    rw [hget, Table.get_delAll, if_neg (apart id hid)]
  have hsum : readyAmong k.room (ids ++ ids') = readyAmong k.room ids + readyAmong k.room ids' :=
    List.countP_append
  have hdiff : k.room.ready - (readyAmong k.room ids : ℤ) - readyAmong k.room ids' =
      k.room.ready - ((readyAmong k.room ids + readyAmong k.room ids' : Nat) : ℤ) := by
    push_cast
    omega
  rw [purge, withoutTickets, hready]
  simp only [purge, withoutTickets, withoutIdems, releaseRate, Table.delAll_append, List.map_append,
    Table.keep_keep, hsum, hdiff]

theorem cleanup_eq (rows : ∀ id ∈ dueTickets k now, k.room.tickets.get id ≠ none) :
    cleanup k now =
      .ok (purge k now ((dueTickets k now).take 128) ((dueIdems k now).take 128),
        decide (Swept (purge k now ((dueTickets k now).take 128) ((dueIdems k now).take 128)) now)) := by
  have hn : ((dueTickets k now).take 128).Nodup :=
    (Table.due_nodup _ _).sublist (List.take_sublist _ _)
  have hdrop := dropTickets_eq hn fun id hid => rows id (List.mem_of_mem_take hid)
  rw [dueTickets] at hdrop
  rw [cleanup, hdrop]
  simp only [dropIdems_eq]
  rfl

theorem dueTickets_purge (n : Nat) (keys : List String) :
    dueTickets (purge k now ((dueTickets k now).take n) keys) now = (dueTickets k now).drop n :=
  Table.due_delAll_take _ _ n

theorem dueIdems_purge (n : Nat) (ids : List String) :
    dueIdems (purge k now ids ((dueIdems k now).take n)) now = (dueIdems k now).drop n :=
  Table.due_delAll_take _ _ n

theorem swept_iff : Swept k now ↔ dueTickets k now = [] ∧ dueIdems k now = [] := by
  rw [Swept, dueTickets, dueIdems, ← Table.length_due, ← Table.length_due, List.length_eq_zero_iff,
    List.length_eq_zero_iff]

theorem swept_purge (n : Nat) :
    Swept (purge k now ((dueTickets k now).take n) ((dueIdems k now).take n)) now ↔
      (dueTickets k now).length ≤ n ∧ (dueIdems k now).length ≤ n := by
  rw [swept_iff, dueTickets_purge, dueIdems_purge, List.drop_eq_nil_iff, List.drop_eq_nil_iff]

theorem cleanups_eq (rows : ∀ id ∈ dueTickets k now, k.room.tickets.get id ≠ none) (n : Nat) :
    cleanups now (n + 1) k =
      .ok (purge k now ((dueTickets k now).take (128 * (n + 1)))
          ((dueIdems k now).take (128 * (n + 1))),
        decide ((dueTickets k now).length ≤ 128 * (n + 1) ∧
          (dueIdems k now).length ≤ 128 * (n + 1))) := by
  induction n with
  | zero =>
    rw [cleanups, cleanups]
    simp only [cleanup_eq rows, swept_purge]
  | succ n ih =>
    rw [cleanups, ih]
    dsimp only
    generalize hk₁ : purge k now ((dueTickets k now).take (128 * (n + 1)))
      ((dueIdems k now).take (128 * (n + 1))) = k₁
    have htickets : dueTickets k₁ now = (dueTickets k now).drop (128 * (n + 1)) := by
      rw [← hk₁, dueTickets_purge]
    have hidems : dueIdems k₁ now = (dueIdems k now).drop (128 * (n + 1)) := by
      rw [← hk₁, dueIdems_purge]
    have behind : ∀ id ∈ dueTickets k₁ now, id ∉ (dueTickets k now).take (128 * (n + 1)) := by
      intro id hid htake
      rw [htickets] at hid
      exact List.disjoint_take_drop (Table.due_nodup _ _) (Nat.le_refl _) htake hid
    have rows₁ : ∀ id ∈ dueTickets k₁ now, k₁.room.tickets.get id ≠ none := by
      intro id hid
      have hget : k₁.room.tickets.get id =
          (k.room.tickets.delAll ((dueTickets k now).take (128 * (n + 1)))).get id := by
        rw [← hk₁]
        rfl
      rw [hget, Table.get_delAll, if_neg (behind id hid)]
      rw [htickets] at hid
      exact rows id (List.mem_of_mem_drop hid)
    have hadd : ∀ l : List String, l.take (128 * (n + 1 + 1)) =
        l.take (128 * (n + 1)) ++ (l.drop (128 * (n + 1))).take 128 := by
      intro l
      rw [show 128 * (n + 1 + 1) = 128 * (n + 1) + 128 by omega, List.take_add]
    have hpurge : purge k₁ now ((dueTickets k₁ now).take 128) ((dueIdems k₁ now).take 128) =
        purge k now ((dueTickets k now).take (128 * (n + 1 + 1)))
          ((dueIdems k now).take (128 * (n + 1 + 1))) := by
      rw [hadd, hadd, ← htickets, ← hidems, ← purge_purge, hk₁]
      exact fun id hid => behind id (List.mem_of_mem_take hid)
    rw [cleanup_eq rows₁, hpurge]
    simp only [swept_purge]

end Purge

/-- `r'` is the room `r` without what is over at `now`: the expired tickets with
their entries, the idempotency rows that are no longer retained, and the rate
reservations that are at least a minute old. -/
structure Purged (c : Config) (now : Nat) (r r' : QueueRoom) : Prop where
  tickets : ∀ id, r'.tickets.get id = (r.tickets.get id).filter fun t => !expired t now c
  waiting : ∀ id, r'.waiting.get id = if (r'.tickets.get id).isSome then r.waiting.get id else none
  expiry : ∀ id, r'.expiry.get id = if (r'.tickets.get id).isSome then r.expiry.get id else none
  leases : ∀ id, r'.leases.get id = if (r'.tickets.get id).isSome then r.leases.get id else none
  idemExpiry : ∀ key,
    r'.idemExpiry.get key = (r.idemExpiry.get key).filter fun s => decide (score now < s)
  idem : ∀ key, r'.idem.get key = if (r'.idemExpiry.get key).isSome then r.idem.get key else none
  rate : ∀ id,
    r'.rate.get id = (r.rate.get id).filter fun s => decide (score ((now : ℤ) - 60000) < s)
  ready : r'.ready = r'.tickets.count Ticket.isReady
  rest : r' = { r with
    tickets := r'.tickets, waiting := r'.waiting, expiry := r'.expiry, leases := r'.leases,
    idem := r'.idem, idemExpiry := r'.idemExpiry, rate := r'.rate, ready := r'.ready }

namespace RoomSynced

variable {k : QueueKeys} {c : Config} {now : Nat} (hs : RoomSynced c.clockSkew k)
include hs

theorem mem_dueTickets {id : String} :
    id ∈ dueTickets k now ↔ ∃ t, k.room.tickets.get id = some t ∧ expired t now c = true := by
  rw [dueTickets, Table.mem_due]
  constructor
  · rintro ⟨s, hget, hle⟩
    obtain ⟨t, ht, rfl⟩ := (hs.indexed.expiry id s).mp hget
    exact ⟨t, ht, expired_iff.mpr (by simpa using hle)⟩
  · rintro ⟨t, ht, hexp⟩
    refine ⟨score (t.deadline c.clockSkew), (hs.indexed.expiry id _).mpr ⟨t, ht, rfl⟩, ?_⟩
    simpa using expired_iff.mp hexp

theorem rows_of_due : ∀ id ∈ dueTickets k now, k.room.tickets.get id ≠ none := by
  intro id hid
  obtain ⟨t, ht, -⟩ := hs.mem_dueTickets.mp hid
  simp [ht]

theorem length_dueTickets : (dueTickets k now).length = expiredTickets k.room now c := by
  rw [dueTickets, Table.length_due, expiredTickets, ← Table.size_keep, ← Table.size_keep]
  refine Table.size_eq_of_same_keys fun id => ?_
  rw [Table.get_keep, Table.get_keep, hs.tickets.expiry]
  cases ht : k.room.tickets.get id with
  | none => rfl
  | some t =>
    have hdue : t.expiryScore c.clockSkew ≤ score now ↔ expired t now c = true := by
      rw [expired_iff, Ticket.expiryScore, score_le_score, Nat.cast_le]
    by_cases hexp : expired t now c = true
    · simp [Option.filter, hexp, hdue.mpr hexp]
    · simp [Option.filter, hexp, hdue]

theorem purge_purged {ids keys : List String} (hids : ∀ id, id ∈ ids ↔ id ∈ dueTickets k now)
    (hkeys : ∀ key, key ∈ keys ↔ key ∈ dueIdems k now)
    (hs' : RoomSynced c.clockSkew (purge k now ids keys)) :
    Purged c now k.room (purge k now ids keys).room := by
  have tickets : ∀ id, (purge k now ids keys).room.tickets.get id =
      (k.room.tickets.get id).filter fun t => !expired t now c := by
    intro id
    have hget : (purge k now ids keys).room.tickets.get id = (k.room.tickets.delAll ids).get id := rfl
    rw [hget, Table.get_delAll]
    simp only [hids, hs.mem_dueTickets]
    cases ht : k.room.tickets.get id with
    | none => simp
    | some t => by_cases hexp : expired t now c = true <;> simp [Option.filter, hexp]
  have entries : ∀ (set : ScoreSet), (∀ id, k.room.tickets.get id = none → set.get id = none) →
      ∀ id, (set.delAll ids).get id =
        if ((purge k now ids keys).room.tickets.get id).isSome then set.get id else none := by
    intro set held id
    rw [Table.get_delAll, tickets]
    simp only [hids, hs.mem_dueTickets]
    cases ht : k.room.tickets.get id with
    | none => simp [held id ht]
    | some t => by_cases hexp : expired t now c = true <;> simp [Option.filter, hexp]
  have idemExpiry : ∀ key, (purge k now ids keys).room.idemExpiry.get key =
      (k.room.idemExpiry.get key).filter fun s => decide (score now < s) := by
    intro key
    have hget : (purge k now ids keys).room.idemExpiry.get key =
      (k.room.idemExpiry.delAll keys).get key := rfl
    rw [hget, Table.get_delAll]
    simp only [hkeys, dueIdems, Table.mem_due]
    cases hs : k.room.idemExpiry.get key with
    | none => simp
    | some s =>
      by_cases hle : s ≤ score now
      · simp [Option.filter, hle, not_lt.mpr hle]
      · simp [Option.filter, hle, not_le.mp hle]
  refine ⟨tickets, entries _ ?_, entries _ ?_, entries _ ?_, idemExpiry, ?_, ?_, hs'.tickets.ready,
    rfl⟩
  · intro id ht
    rw [hs.tickets.waiting, ht, Option.bind_none]
  · intro id ht
    rw [hs.tickets.expiry, ht, Option.map_none]
  · intro id ht
    rw [hs.tickets.leases, ht, Option.bind_none]
  · intro key
    have hget : (purge k now ids keys).room.idem.get key = (k.room.idem.delAll keys).get key := rfl
    rw [hget, Table.get_delAll, idemExpiry]
    simp only [hkeys, dueIdems, Table.mem_due]
    have hrow := hs.idems.rows key
    cases hs : k.room.idemExpiry.get key with
    | none =>
      rw [hs, Option.isSome_none, Option.isSome_eq_false_iff, Option.isNone_iff_eq_none] at hrow
      simp [hrow]
    | some s =>
      by_cases hle : s ≤ score now
      · simp [Option.filter, hle, not_lt.mpr hle]
      · simp [Option.filter, hle, not_le.mp hle]
  · exact fun id => Table.get_keep _ _ _

end RoomSynced

section Complete

variable {k k' : QueueKeys} {now : Nat}

theorem cleanups_effects {n : Nat} {b : Bool} (h : cleanups now n k = .ok (k', b)) :
    ∃ ls, Effects now k ls k' := by
  induction n generalizing k' b with
  | zero =>
    obtain ⟨rfl, -⟩ := Prod.mk.inj (Except.ok.inj h)
    exact ⟨[], .nil⟩
  | succ n ih =>
    rw [cleanups] at h
    split at h
    · exact absurd h (by simp)
    · rename_i k₁ b₁ heq
      obtain ⟨ls, he⟩ := ih heq
      obtain ⟨ls', k₂, -, he', -, hr⟩ := cleanup_effects k₁ now
      rcases hr with hr | ⟨hr, -⟩
      · obtain ⟨rfl, -⟩ := Prod.mk.inj (Except.ok.inj (hr.symm.trans h))
        exact ⟨_, he.append he'⟩
      · exact absurd (hr.symm.trans h) (by simp)

theorem cleanups_synced {skew n : Nat} {b : Bool} (hs : RoomSynced skew k)
    (h : cleanups now n k = .ok (k', b)) : RoomSynced skew k' := by
  obtain ⟨ls, he⟩ := cleanups_effects h
  exact he.synced hs

/-- Cleanups at `now` until one of them reports that it has caught up. -/
def CleanedUp (now : Nat) (k k' : QueueKeys) : Prop := ∃ n, cleanups now n k = .ok (k', true)

theorem cleanedUp_iff (rows : ∀ id ∈ dueTickets k now, k.room.tickets.get id ≠ none) :
    CleanedUp now k k' ↔ k' = purge k now (dueTickets k now) (dueIdems k now) := by
  constructor
  · rintro ⟨n, h⟩
    cases n with
    | zero => exact absurd h (by simp [cleanups])
    | succ n =>
      rw [cleanups_eq rows] at h
      obtain ⟨hk, hb⟩ := Prod.mk.inj (Except.ok.inj h)
      obtain ⟨htickets, hidems⟩ := of_decide_eq_true hb
      rw [← hk, List.take_of_length_le htickets, List.take_of_length_le hidems]
  · rintro rfl
    refine ⟨max (dueTickets k now).length (dueIdems k now).length + 1, ?_⟩
    rw [cleanups_eq rows, List.take_of_length_le (by omega), List.take_of_length_le (by omega),
      decide_eq_true (by omega)]

theorem RoomSynced.purged {c : Config} (hs : RoomSynced c.clockSkew k) (h : CleanedUp now k k') :
    Purged c now k.room k'.room := by
  obtain rfl := (cleanedUp_iff hs.rows_of_due).mp h
  obtain ⟨n, hn⟩ := h
  exact hs.purge_purged (fun _ => .rfl) (fun _ => .rfl) (cleanups_synced hs hn)

/-- `k'` is `k` after a complete cleanup: the owners of other rooms and everything
else of the installation are as they were. -/
structure Cleared (c : Config) (now : Nat) (k k' : QueueKeys) : Prop where
  room : Purged c now k.room k'.room
  synced : RoomSynced c.clockSkew k'
  owners : OwnersKept k k'
  inst : k'.inst = { k.inst with
    visitorOwners := k'.inst.visitorOwners, idemOwners := k'.inst.idemOwners }
  shared : k'.shared = k.shared

theorem RoomSynced.cleared {c : Config} (hs : RoomSynced c.clockSkew k) (h : CleanedUp now k k') :
    Cleared c now k k' := by
  have hpurged := hs.purged h
  obtain rfl := (cleanedUp_iff hs.rows_of_due).mp h
  obtain ⟨n, hn⟩ := h
  obtain ⟨ls, he⟩ := cleanups_effects hn
  exact ⟨hpurged, he.synced hs, he.ownersKept hs, rfl, rfl⟩

def backlog (r : QueueRoom) (now : Nat) (c : Config) : Nat :=
  max (expiredTickets r now c) (expiredIdems r now)

def rounds (n : Nat) : Nat := max 1 ((n + 127) / 128)

theorem rounds_le_iff {n m : Nat} : rounds n ≤ m + 1 ↔ n ≤ 128 * (m + 1) := by
  unfold rounds
  omega

theorem RoomSynced.length_due_le_iff {c : Config} (hs : RoomSynced c.clockSkew k) {m : Nat} :
    (dueTickets k now).length ≤ m ∧ (dueIdems k now).length ≤ m ↔ backlog k.room now c ≤ m := by
  rw [hs.length_dueTickets, dueIdems, Table.length_due, backlog, expiredIdems]
  omega

/-- The last of `rounds` cleanups, and no earlier one, reports that it has caught up. -/
theorem RoomSynced.cleanups_ok {c : Config} (hs : RoomSynced c.clockSkew k) (now n : Nat) :
    ∃ k', cleanups now (n + 1) k =
        .ok (k', decide (rounds (backlog k.room now c) ≤ n + 1)) ∧
      (rounds (backlog k.room now c) ≤ n + 1 → Cleared c now k k') := by
  have rows : ∀ id ∈ dueTickets k now, k.room.tickets.get id ≠ none := hs.rows_of_due
  have heq := cleanups_eq rows n
  simp only [hs.length_due_le_iff] at heq
  simp only [← rounds_le_iff] at heq
  refine ⟨_, heq, fun hn => hs.cleared ⟨n + 1, ?_⟩⟩
  rw [heq, decide_eq_true hn]

theorem RoomSynced.cleanup_le {skew : Nat} (hs : RoomSynced skew k) :
    ∃ k' b, cleanup k now = .ok (k', b) ∧ k.room.tickets.size ≤ k'.room.tickets.size + 128 ∧
      k.room.idem.size ≤ k'.room.idem.size + 128 := by
  obtain ⟨c, -, rfl⟩ := hs.opened
  refine ⟨_, _, cleanup_eq hs.rows_of_due, ?_, ?_⟩
  · refine (Table.size_le_size_delAll _ _).trans (Nat.add_le_add_left ?_ _)
    exact List.length_take_le 128 (dueTickets k now)
  · refine (Table.size_le_size_delAll _ _).trans (Nat.add_le_add_left ?_ _)
    exact List.length_take_le 128 (dueIdems k now)

end Complete

/-- A complete cleanup of the rooms `rs` of epoch `e`, one after another. -/
inductive RoomsCleaned (e now : Nat) : List String → QueueDb → QueueDb → Prop
  | nil {db : QueueDb} : RoomsCleaned e now [] db db
  | cons {r : String} {rs : List String} {db db' : QueueDb} {k' : QueueKeys}
      (room : CleanedUp now (db.keys e r) k') (rest : RoomsCleaned e now rs (db.set e r k') db') :
      RoomsCleaned e now (r :: rs) db db'

section Rooms

variable {e now : Nat} {rs : List String} {db db' : QueueDb}

def DueRows (now : Nat) (r : QueueRoom) : Prop :=
  ∀ id ∈ r.expiry.due (score now), r.tickets.get id ≠ none

theorem EpochSynced.dueRows (h : EpochSynced db e) (now : Nat) (r : String) :
    DueRows now (db.room e r) := by
  cases hc : (db.room e r).config with
  | none =>
    rw [h.unopened r hc]
    intro id hid
    exact absurd hid (by simp [Table.due])
  | some c => exact (h.synced r c hc).rows_of_due

theorem exists_roomsCleaned (rows : ∀ r ∈ rs, DueRows now (db.room e r)) (hn : rs.Nodup) :
    ∃ db', RoomsCleaned e now rs db db' := by
  induction rs generalizing db with
  | nil => exact ⟨db, .nil⟩
  | cons r rs ih =>
    obtain ⟨hnot, hn⟩ := List.nodup_cons.mp hn
    obtain ⟨k', hroom⟩ : ∃ k', CleanedUp now (db.keys e r) k' :=
      ⟨_, (cleanedUp_iff (k := db.keys e r) (rows r List.mem_cons_self)).mpr rfl⟩
    have rows' : ∀ a ∈ rs, DueRows now ((db.set e r k').room e a) := by
      intro a ha
      have hne : a ≠ r := fun h => hnot (h ▸ ha)
      rw [Db.set_room_ne fun h => hne h.2]
      exact rows a (List.mem_cons_of_mem _ ha)
    obtain ⟨db', hrest⟩ := ih rows' hn
    exact ⟨db', .cons hroom hrest⟩

theorem RoomsCleaned.room (h : RoomsCleaned e now rs db db')
    (rows : ∀ r ∈ rs, DueRows now (db.room e r)) (hn : rs.Nodup) (r : String) :
    db'.room e r = if r ∈ rs then
      (purge (db.keys e r) now (dueTickets (db.keys e r) now) (dueIdems (db.keys e r) now)).room
      else db.room e r := by
  induction h with
  | nil => simp
  | @cons a rs db db' k' room rest ih =>
    obtain ⟨hnot, hn⟩ := List.nodup_cons.mp hn
    obtain rfl := (cleanedUp_iff (k := db.keys e a) (rows a List.mem_cons_self)).mp room
    have others : ∀ b, b ≠ a → ∀ k', (db.set e a k').room e b = db.room e b :=
      fun b hb k' => Db.set_room_ne fun h => hb h.2
    rw [ih (fun b hb => by
      rw [others b fun h => hnot (h ▸ hb)]
      exact rows b (List.mem_cons_of_mem _ hb)) hn]
    by_cases hr : r = a
    · subst hr
      simp [hnot]
    · simp only [List.mem_cons, hr, false_or]
      split
      · simp only [purge, withoutIdems, withoutTickets, releaseRate, dueTickets, dueIdems,
          Db.keys_room, others r hr]
      · exact others r hr _

end Rooms

theorem OwnersUnion.keep {owners : ScoreSet} {rooms : Finset String} {sets : String → ScoreSet}
    (h : OwnersUnion owners rooms sets) (p : Score → Bool) :
    OwnersUnion (owners.keep p) rooms fun r => (sets r).keep p := by
  have kept : ∀ {r id}, (∃ s, ((sets r).keep p).get id = some s) → ∃ s, (sets r).get id = some s := by
    rintro r id ⟨s, hs⟩
    rw [Table.get_keep, Option.filter_eq_some_iff] at hs
    exact ⟨s, hs.1⟩
  refine ⟨fun o s => ?_, fun r hr r' hr' id id' hid hid' hm =>
    h.disjoint r hr r' hr' id id' (kept hid) (kept hid') hm⟩
  simp only [Table.get_keep, Option.filter_eq_some_iff, h.union]
  constructor
  · rintro ⟨⟨r, hr, id, ho, hs⟩, hp⟩
    exact ⟨r, hr, id, ho, hs, hp⟩
  · rintro ⟨r, hr, id, ho, hs, hp⟩
    exact ⟨⟨r, hr, id, ho, hs⟩, hp⟩

theorem run_clean {es : List QueueEvent} {db : QueueDb} (hr : QueueRun es db) (e : Nat) :
    (db.inst e).dirty = false := by
  induction hr with
  | nil => rfl
  | @snoc es db s hr wf ih =>
    have hs : EpochSynced db s.epoch := run_synced hr s.epoch
    obtain ⟨k', hm, heq⟩ := exec_moved db s
    rw [heq]
    by_cases he : e = s.epoch
    · subst he
      rw [Db.set_inst_self]
      have unheld : ∀ g : Installation, g.dirty = false → ∀ now primary reason,
          ((hold g now primary reason).getD g).dirty = false := by
        intro g hg now primary reason
        unfold hold
        split
        · exact hg
        · exact hg
      cases hm with
      | upkeep call move =>
        cases move with
        | held current schema holds =>
          obtain ⟨-, rfl⟩ := hold_eq_some holds
          exact ih
        | opened accepted switched new sound =>
          have hdirty : (db.inst s.epoch).dirty = false := ih
          simp [openedKeys, hdirty, commit]
        | activated => rfl
        | _ => exact ih
      | command call move =>
        have hend := command_ends hs move
        generalize (exec db s).1 = o at move hend
        cases move with
        | refused => exact ih
        | rollback => exact unheld _ ih _ _ _
        | aborted => exact absurd rfl hend
        | _ => rfl
      | read => exact ih
    · rw [Db.set_inst_ne he]
      exact ih

theorem available_of_fenced {es : List QueueEvent} {db : QueueDb} (hr : QueueRun es db) {e : Nat}
    {r primary : String} {env : Env} {fence : Nat} (active : (db.inst e).mode = .active)
    (fenced : Fenced (db.keys e r) env primary fence) : Available (db.keys e r) := by
  have hs : EpochSynced db e := run_synced hr e
  have hg := hs.installed_of_fenced fenced
  exact ⟨fenced.1, (hs.installed hg).1, run_clean hr e, active, hs.visitors, hs.idems⟩

section Reads

variable {es : List QueueEvent} {db db' : QueueDb} {e : Nat} {r : String}

theorem EpochSynced.cleaned_blank (h : EpochSynced db e) (hc : (db.room e r).config = none)
    {now : Nat} {k' : QueueKeys} (hk : CleanedUp now (db.keys e r) k') (id : String) :
    k'.room.tickets.get id = none := by
  obtain rfl := (cleanedUp_iff (k := db.keys e r) (h.dueRows now r)).mp hk
  have hget : ∀ ids keys, (purge (db.keys e r) now ids keys).room.tickets.get id =
      ((db.room e r).tickets.delAll ids).get id := fun _ _ => rfl
  rw [hget, Table.get_delAll, h.unopened r hc]
  simp

theorem wrR6Status_eq {k : QueueKeys} {env : Env} {c : Config} {id primary : String} {fence : Nat}
    (fenced : Fenced k env primary fence) (available : Available k) (config : k.room.config = some c)
    (schema : k.room.schema = 5) :
    wrR6Status k env id primary fence =
      match (k.room.tickets.get id).filter fun t => !expired t env.now c with
      | none => .error .expired
      | some t => answer env.now (some t) := by
  simp only [wrR6Status, fenced, available, config, schema, not_true_eq_false, if_false, ne_eq]
  cases k.room.tickets.get id with
  | none => rfl
  | some t => by_cases hexp : expired t env.now c = true <;> simp [Option.filter, hexp]

theorem RoomsCleaned.sizes {now : Nat} {rs : List String} (hs : EpochSynced db e)
    (h : RoomsCleaned e now rs db db') (hn : rs.Nodup) (hrooms : rs.toFinset = (db.inst e).rooms) :
    ((db.inst e).visitorOwners.count fun s => decide (score now < s)) =
        ∑ r ∈ (db.inst e).rooms, (db'.room e r).tickets.size ∧
      ((db.inst e).idemOwners.count fun s => decide (score now < s)) =
        ∑ r ∈ (db.inst e).rooms, (db'.room e r).idem.size := by
  have purged : ∀ r ∈ (db.inst e).rooms, ∃ c, RoomSynced c.clockSkew (db.keys e r) ∧
      Purged c now (db.room e r) (db'.room e r) := by
    intro r hr
    obtain ⟨c, -, -, hsync⟩ := hs.room_of_registered hr
    have hmem : r ∈ rs := List.mem_toFinset.mp (hrooms ▸ hr)
    rw [h.room (fun a _ => hs.dueRows now a) hn, if_pos hmem]
    exact ⟨c, hsync, hsync.purged ((cleanedUp_iff hsync.rows_of_due).mpr rfl)⟩
  rw [← Table.size_keep, ← Table.size_keep, (hs.visitors_union.keep _).size,
    (hs.idems_union.keep _).size]
  refine ⟨Finset.sum_congr rfl fun r hr => ?_, Finset.sum_congr rfl fun r hr => ?_⟩
  · obtain ⟨c, hsync, hp⟩ := purged r hr
    refine Table.size_eq_of_same_keys fun id => ?_
    have hexpiry := hsync.tickets.expiry id
    rw [Db.keys_room] at hexpiry
    rw [Table.get_keep, hp.tickets, hexpiry]
    cases (db.room e r).tickets.get id with
    | none => rfl
    | some t =>
      have hlive : score now < t.expiryScore c.clockSkew ↔ ¬ expired t now c = true := by
        rw [expired_iff, Ticket.expiryScore, score_lt_score, Nat.cast_lt, Nat.not_le]
      by_cases hexp : expired t now c = true
      · simp [Option.filter, hexp, hlive]
      · simp [Option.filter, hexp, hlive]
  · obtain ⟨c, hsync, hp⟩ := purged r hr
    refine Table.size_eq_of_same_keys fun key => ?_
    have hrow := hsync.idems.rows key
    rw [Db.keys_room] at hrow
    rw [Table.get_keep, hp.idem, hp.idemExpiry]
    cases hi : (db.room e r).idemExpiry.get key with
    | none => rfl
    | some s =>
      rw [hi, Option.isSome_some] at hrow
      by_cases hlt : score now < s
      · simp [Option.filter, hlt, hrow]
      · simp [Option.filter, hlt]

/-- In every reachable state with an ACTIVE installation, for a caller that names
the fence: a room's status shows exactly the tickets that a complete cleanup
would leave, as they are stored, and the capacity counts the rows that complete
cleanups of all rooms would leave, in whatever order they are made. -/
theorem reads_agree (hr : QueueRun es db) {env : Env} {primary : String} {fence : Nat}
    (active : (db.inst e).mode = .active) (fenced : Fenced (db.keys e r) env primary fence) :
    ((∃ k', CleanedUp env.now (db.keys e r) k') ∧
      ∀ k', CleanedUp env.now (db.keys e r) k' → ∀ id,
        ((∃ t, wrR6Status (db.keys e r) env id primary fence = answer env.now (some t)) ↔
          ∃ t, k'.room.tickets.get id = some t) ∧
        ∀ t, wrR6Status (db.keys e r) env id primary fence = answer env.now (some t) →
          (db.room e r).tickets.get id = some t) ∧
    (∀ rs : List String, rs.Nodup → rs.toFinset = (db.inst e).rooms →
      (∃ db', RoomsCleaned e env.now rs db db') ∧
      ∀ db', RoomsCleaned e env.now rs db db' →
        ∃ cap, wrR6Capacity (db.keys e r) env primary fence = .reply (.capacity env.now cap) ∧
          cap.visitors = ∑ r ∈ (db.inst e).rooms, (db'.room e r).tickets.size ∧
          cap.idempotency = ∑ r ∈ (db.inst e).rooms, (db'.room e r).idem.size) := by
  have hs : EpochSynced db e := run_synced hr e
  have available := available_of_fenced hr active fenced
  refine ⟨⟨⟨_, (cleanedUp_iff (k := db.keys e r) (hs.dueRows _ r)).mpr rfl⟩, fun k' hk id => ?_⟩,
    fun rs hn hrooms => ⟨exists_roomsCleaned (fun a _ => hs.dueRows _ a) hn, fun db' hc => ?_⟩⟩
  · cases hconfig : (db.room e r).config with
    | none =>
      have hstatus : wrR6Status (db.keys e r) env id primary fence = .error .unavailable := by
        simp [wrR6Status, fenced, available, hconfig]
      rw [hstatus, hs.cleaned_blank hconfig hk]
      simp [answer]
    | some c =>
      have hsync := hs.synced r c hconfig
      have hschema := (hs.names r (by simp [hconfig])).2.1
      rw [wrR6Status_eq fenced available hconfig hschema, ← (hsync.purged hk).tickets]
      cases ht : k'.room.tickets.get id with
      | none => simp [answer]
      | some t =>
        refine ⟨⟨fun _ => ⟨t, rfl⟩, fun _ => ⟨t, rfl⟩⟩, fun t' h => ?_⟩
        have hstored := (hsync.purged hk).tickets id
        rw [ht] at hstored
        obtain rfl : t = t' := by simpa [answer] using h
        exact (Option.filter_eq_some_iff.mp hstored.symm).1
  · obtain ⟨g, hg⟩ := Option.ne_none_iff_exists'.mp (hs.installed_of_fenced fenced)
    obtain ⟨hvisitors, hidems⟩ := hc.sizes hs hn hrooms
    have hcapacity : ∃ cap, wrR6Capacity (db.keys e r) env primary fence =
        .reply (.capacity env.now cap) ∧
        cap.visitors = ((db.inst e).visitorOwners.count fun s => decide (score env.now < s)) ∧
        cap.idempotency = ((db.inst e).idemOwners.count fun s => decide (score env.now < s)) := by
      simp only [wrR6Capacity, fenced, available, not_true_eq_false, if_false, Db.keys_inst, hg]
      exact ⟨_, rfl, rfl, rfl⟩
    obtain ⟨cap, hcap, hv, hi⟩ := hcapacity
    exact ⟨cap, hcap, hv.trans hvisitors, hi.trans hidems⟩

end Reads

/-- The visitor of the sample run is still shown one second after the claim. -/
theorem sample_reads : (sampleDb.inst 1).mode = .active ∧
    Fenced (sampleDb.keys 1 "room") ⟨1001004, "primary"⟩ "primary" 1 ∧
    ∀ k', CleanedUp 1001004 (sampleDb.keys 1 "room") k' →
      ((∃ t, wrR6Status (sampleDb.keys 1 "room") ⟨1001004, "primary"⟩ sampleId "primary" 1 =
        answer 1001004 (some t)) ↔ ∃ t, k'.room.tickets.get sampleId = some t) := by
  have active : (sampleDb.inst 1).mode = .active := by decide +kernel
  have fenced : Fenced (sampleDb.keys 1 "room") ⟨1001004, "primary"⟩ "primary" 1 := by
    decide +kernel
  exact ⟨active, fenced, fun k' hk => ((reads_agree sample_run active fenced).1.2 k' hk sampleId).1⟩

end WaitingRoom.Queue
