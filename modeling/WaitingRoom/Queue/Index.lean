import WaitingRoom.Queue.Effect

/-!
# The indexes of a room

A ticket row determines its entries in the expiry, waiting, lease and owner
sets. A room is synced when every set holds exactly those entries. Each write of
a command replaces the row of one ticket or of one idempotency key together with
all its entries, so it keeps the room synced.
-/

namespace WaitingRoom.Queue

set_option autoImplicit false

def Ticket.expiryScore (skew : Nat) (t : Ticket) : Score := score (t.deadline skew)

def Ticket.waitingScore (t : Ticket) : Option Score :=
  if t.state = .waiting then some (score t.sequence) else none

def Ticket.leaseScore (skew : Nat) (t : Ticket) : Option Score :=
  if t.state = .waiting then none else some (score (t.deadline skew))

def Ticket.isReady (t : Ticket) : Bool := decide (t.state = .ready)

def Hashed (id : String) : Prop := id.utf8ByteSize = 64

structure TicketsSynced (skew : Nat) (k : QueueKeys) : Prop where
  ids : ∀ id t, k.room.tickets.get id = some t → t.id = id ∧ Hashed id
  expiry : ∀ id, k.room.expiry.get id = (k.room.tickets.get id).map (·.expiryScore skew)
  waiting : ∀ id, k.room.waiting.get id = (k.room.tickets.get id).bind (·.waitingScore)
  leases : ∀ id, k.room.leases.get id = (k.room.tickets.get id).bind (·.leaseScore skew)
  ready : k.room.ready = k.room.tickets.count Ticket.isReady
  owners : ∀ id, Hashed id →
    k.inst.visitorOwners.get (member k.room.room id) = k.room.expiry.get id

structure IdemsSynced (k : QueueKeys) : Prop where
  keys : ∀ key s, k.room.idemExpiry.get key = some s → Hashed key
  rows : ∀ key, (k.room.idem.get key).isSome = (k.room.idemExpiry.get key).isSome
  owners : ∀ key, Hashed key →
    k.inst.idemOwners.get (member k.room.room key) = k.room.idemExpiry.get key

/-- `k'` differs from `k` in the row of the ticket `id`, which is now `row`, and
in the entries of that ticket. -/
structure Rewrites (skew : Nat) (k k' : QueueKeys) (id : String) (row : Option Ticket) : Prop where
  name : k'.room.room = k.room.room
  tickets : ∀ a, k'.room.tickets.get a = if a = id then row else k.room.tickets.get a
  expiry : ∀ a, k'.room.expiry.get a =
    if a = id then row.map (·.expiryScore skew) else k.room.expiry.get a
  waiting : ∀ a, k'.room.waiting.get a =
    if a = id then row.bind (·.waitingScore) else k.room.waiting.get a
  leases : ∀ a, k'.room.leases.get a =
    if a = id then row.bind (·.leaseScore skew) else k.room.leases.get a
  owners : ∀ o, k'.inst.visitorOwners.get o =
    if o = member k.room.room id then row.map (·.expiryScore skew) else k.inst.visitorOwners.get o
  ready : k'.room.ready + (if (k.room.tickets.get id).any Ticket.isReady then 1 else 0) =
    k.room.ready + if row.any Ticket.isReady then 1 else 0

theorem member_right_injective (room : String) : Function.Injective (member room) := by
  intro a b h
  have hd := congrArg String.toList h
  simp only [member, String.toList_append] at hd
  exact String.toList_inj.mp (List.append_cancel_left hd)

namespace Rewrites

variable {skew : Nat} {k k' : QueueKeys} {id : String} {row : Option Ticket}

theorem synced (h : Rewrites skew k k' id row) (hs : TicketsSynced skew k)
    (hrow : ∀ t ∈ row, t.id = id ∧ Hashed id) : TicketsSynced skew k' := by
  constructor
  · intro a t ha
    rw [h.tickets] at ha
    split at ha
    · subst a
      exact hrow t ha
    · exact hs.ids a t ha
  · intro a
    rw [h.expiry, h.tickets]
    split
    · rfl
    · exact hs.expiry a
  · intro a
    rw [h.waiting, h.tickets]
    split
    · rfl
    · exact hs.waiting a
  · intro a
    rw [h.leases, h.tickets]
    split
    · rfl
    · exact hs.leases a
  · have hcount := Table.count_update Ticket.isReady h.tickets
    have hr := h.ready
    have hk := hs.ready
    split_ifs at hcount hr <;> omega
  · intro a ha
    rw [h.owners, h.expiry, h.name]
    by_cases hid : a = id
    · simp [hid]
    · rw [if_neg hid, if_neg fun hm => hid (member_right_injective _ hm)]
      exact hs.owners a ha

end Rewrites

theorem dropTicket_rewrites {skew : Nat} {k : QueueKeys} {id : String} {t : Ticket}
    (ht : k.room.tickets.get id = some t) :
    Rewrites skew k (dropTicket k id t) id none := by
  refine ⟨rfl, ?_, ?_, ?_, ?_, ?_, ?_⟩
  · exact fun a => Table.get_del _ _ _
  · exact fun a => Table.get_del _ _ _
  · exact fun a => Table.get_del _ _ _
  · exact fun a => Table.get_del _ _ _
  · exact fun o => Table.get_del _ _ _
  · simp only [dropTicket, ht, Option.any_some, Option.any_none, Ticket.isReady,
      decide_eq_true_eq, Bool.false_eq_true, if_false]
    omega

namespace TicketsSynced

variable {skew now : Nat} {k : QueueKeys} {id : String} {t : Ticket} (hs : TicketsSynced skew k)
include hs

theorem state_of_waiting {s : Score} (hw : k.room.waiting.get id = some s)
    (ht : k.room.tickets.get id = some t) : t.state = .waiting ∧ s = score t.sequence := by
  rw [hs.waiting, ht, Option.bind_some, Ticket.waitingScore] at hw
  split at hw
  · exact ⟨by assumption, (Option.some.inj hw).symm⟩
  · simp at hw

theorem joinRows_rewrites {c : Config} {key fingerprint replay : String}
    (ht : k.room.tickets.get id = none) :
    Rewrites skew k (joinRows k now c key fingerprint replay (newTicket k.room now c id)) id
      (some (newTicket k.room now c id)) := by
  refine ⟨rfl, ?_, ?_, ?_, ?_, ?_, ?_⟩
  · exact fun a => Table.get_put _ _ _ _
  · exact fun a => Table.get_put _ _ _ _
  · exact fun a => Table.get_put _ _ _ _
  · intro a
    split
    · subst a
      simpa [joinRows, ht, Ticket.leaseScore, newTicket] using hs.leases id
    · rfl
  · exact fun o => Table.get_put _ _ _ _
  · simp [joinRows, ht, newTicket, Ticket.isReady]

theorem promoteRow_rewrites {c : Config} {s : Score} (hw : k.room.waiting.get id = some s)
    (ht : k.room.tickets.get id = some t) :
    Rewrites skew k (promoteRow k now id (promotedTicket now c t)) id
      (some (promotedTicket now c t)) := by
  obtain ⟨hstate, -⟩ := hs.state_of_waiting hw ht
  refine ⟨rfl, ?_, ?_, ?_, ?_, ?_, ?_⟩
  · exact fun a => Table.get_put _ _ _ _
  · exact fun a => Table.get_put _ _ _ _
  · exact fun a => Table.get_del _ _ _
  · exact fun a => Table.get_put _ _ _ _
  · exact fun o => Table.get_put _ _ _ _
  · simp [promoteRow, ht, promotedTicket, Ticket.isReady, hstate]

theorem heartbeatRow_rewrites {n : Nat} (hn : n ≤ t.absoluteUntil) (hstate : t.state = .waiting)
    (ht : k.room.tickets.get id = some t) :
    Rewrites skew k (heartbeatRow k { t with idleUntil := n }) id
      (some { t with idleUntil := n }) := by
  obtain ⟨rfl, -⟩ := hs.ids id t ht
  have hscore : score n = Ticket.expiryScore skew { t with idleUntil := n } := by
    simp [Ticket.expiryScore, Ticket.deadline, hstate, hn]
  refine ⟨rfl, ?_, ?_, ?_, ?_, ?_, ?_⟩
  · exact fun a => Table.get_put _ _ _ _
  · intro a
    rw [Option.map_some, ← hscore]
    exact Table.get_put _ _ _ _
  · intro a
    split
    · subst a
      simpa [heartbeatRow, ht, Ticket.waitingScore] using hs.waiting t.id
    · rfl
  · intro a
    split
    · subst a
      simpa [heartbeatRow, ht, Ticket.leaseScore, hstate] using hs.leases t.id
    · rfl
  · intro o
    rw [Option.map_some, ← hscore]
    exact Table.get_put _ _ _ _
  · simp [heartbeatRow, ht, Ticket.isReady]

theorem claimRow_rewrites {c : Config} (hc : c.clockSkew = skew) (hstate : t.state = .ready)
    (ht : k.room.tickets.get id = some t) :
    Rewrites skew k (claimRow k c { t with state := .admitted }) id
      (some { t with state := .admitted }) := by
  obtain ⟨rfl, -⟩ := hs.ids id t ht
  subst hc
  refine ⟨rfl, ?_, ?_, ?_, ?_, ?_, ?_⟩
  · exact fun a => Table.get_put _ _ _ _
  · exact fun a => Table.get_put _ _ _ _
  · intro a
    split
    · subst a
      simpa [claimRow, ht, Ticket.waitingScore, hstate] using hs.waiting t.id
    · rfl
  · exact fun a => Table.get_put _ _ _ _
  · exact fun o => Table.get_put _ _ _ _
  · simp [claimRow, ht, Ticket.isReady, hstate]

end TicketsSynced

/-- An opened room with all its sets in step; `skew` is its clock skew. -/
structure RoomSynced (skew : Nat) (k : QueueKeys) : Prop where
  opened : ∃ c, k.room.config = some c ∧ c.clockSkew = skew
  cutoff : k.room.mode = .draining → k.room.cutoff ≠ none
  tickets : TicketsSynced skew k
  idems : IdemsSynced k

/-- Owners of other rooms, as far as their names show it, are left alone. -/
structure OwnersKept (k k' : QueueKeys) : Prop where
  name : k'.room.room = k.room.room
  visitors : ∀ o, (∀ id, Hashed id → o ≠ member k.room.room id) →
    k'.inst.visitorOwners.get o = k.inst.visitorOwners.get o
  idems : ∀ o, (∀ id, Hashed id → o ≠ member k.room.room id) →
    k'.inst.idemOwners.get o = k.inst.idemOwners.get o

theorem OwnersKept.refl (k : QueueKeys) : OwnersKept k k :=
  ⟨rfl, fun _ _ => rfl, fun _ _ => rfl⟩

theorem OwnersKept.trans {k k₁ k₂ : QueueKeys} (h₁ : OwnersKept k k₁) (h₂ : OwnersKept k₁ k₂) :
    OwnersKept k k₂ := by
  refine ⟨h₂.name.trans h₁.name, fun o ho => ?_, fun o ho => ?_⟩
  · exact (h₂.visitors o (by rwa [h₁.name])).trans (h₁.visitors o ho)
  · exact (h₂.idems o (by rwa [h₁.name])).trans (h₁.idems o ho)

theorem Rewrites.ownersKept {skew : Nat} {k k' : QueueKeys} {id : String} {row : Option Ticket}
    (h : Rewrites skew k k' id row) (hid : Hashed id)
    (hidems : ∀ o, (∀ id, Hashed id → o ≠ member k.room.room id) →
      k'.inst.idemOwners.get o = k.inst.idemOwners.get o) : OwnersKept k k' := by
  refine ⟨h.name, fun o ho => ?_, hidems⟩
  rw [h.owners, if_neg (ho id hid)]

section Effect

variable {skew now : Nat} {k k' : QueueKeys} {l : Label}

theorem dropIdem_synced {key : String} (hs : IdemsSynced k) : IdemsSynced (dropIdem k key) := by
  constructor
  · intro a s ha
    simp only [dropIdem, Table.get_del] at ha
    split at ha
    · simp at ha
    · exact hs.keys a s ha
  · intro a
    simp only [dropIdem, Table.get_del]
    split
    · rfl
    · exact hs.rows a
  · intro a ha
    simp only [dropIdem, Table.get_del]
    by_cases hk : a = key
    · simp [hk]
    · rw [if_neg hk, if_neg fun hm => hk (member_right_injective _ hm)]
      exact hs.owners a ha

theorem joinRows_idems {c : Config} {key fingerprint replay : String} {t : Ticket}
    (hs : IdemsSynced k) (hk : Hashed key) :
    IdemsSynced (joinRows k now c key fingerprint replay t) := by
  constructor
  · intro a s ha
    simp only [joinRows, Table.get_put] at ha
    split at ha
    · subst a
      exact hk
    · exact hs.keys a s ha
  · intro a
    simp only [joinRows, Table.get_put]
    split
    · rfl
    · exact hs.rows a
  · intro a ha
    simp only [joinRows, Table.get_put]
    by_cases hka : a = key
    · simp [hka]
    · rw [if_neg hka, if_neg fun hm => hka (member_right_injective _ hm)]
      exact hs.owners a ha

theorem Effect.synced (h : Effect now k l k') (hs : RoomSynced skew k) : RoomSynced skew k' := by
  obtain ⟨opened, cutoff, ht, hi⟩ := hs
  cases h with
  | expire row =>
    exact ⟨opened, cutoff, (dropTicket_rewrites row).synced ht (by simp),
      ⟨hi.keys, hi.rows, hi.owners⟩⟩
  | forget =>
    exact ⟨opened, cutoff, ⟨ht.ids, ht.expiry, ht.waiting, ht.leases, ht.ready, ht.owners⟩,
      dropIdem_synced hi⟩
  | release =>
    exact ⟨opened, cutoff, ⟨ht.ids, ht.expiry, ht.waiting, ht.leases, ht.ready, ht.owners⟩,
      ⟨hi.keys, hi.rows, hi.owners⟩⟩
  | join config accepted fresh row =>
    refine ⟨opened, cutoff, (ht.joinRows_rewrites row).synced ht ?_, joinRows_idems hi accepted.1⟩
    rintro t ⟨⟩
    exact ⟨rfl, accepted.2.2.1⟩
  | promote config mode head row =>
    have hid := ht.ids _ _ row
    have hw := Table.get_head head
    refine ⟨opened, cutoff, (ht.promoteRow_rewrites hw row).synced ht ?_,
      ⟨hi.keys, hi.rows, hi.owners⟩⟩
    rintro t ⟨⟩
    exact hid
  | heartbeat config row state =>
    have hid := ht.ids _ _ row
    refine ⟨opened, cutoff,
      (ht.heartbeatRow_rewrites (Nat.min_le_right _ _) state row).synced ht ?_,
      ⟨hi.keys, hi.rows, hi.owners⟩⟩
    rintro t ⟨⟩
    exact hid
  | claim config row state =>
    have hid := ht.ids _ _ row
    obtain ⟨c, hc, hskew⟩ := opened
    obtain rfl := Option.some.inj (hc.symm.trans config)
    refine ⟨⟨c, hc, hskew⟩, cutoff, (ht.claimRow_rewrites hskew state row).synced ht ?_,
      ⟨hi.keys, hi.rows, hi.owners⟩⟩
    rintro t ⟨⟩
    exact hid
  | reclaim => exact ⟨opened, cutoff, ht, hi⟩
  | @configure c d _ config mode caps ttls leases rate cutoffs =>
    obtain ⟨c, hc, hskew⟩ := opened
    obtain rfl := Option.some.inj (hc.symm.trans config)
    refine ⟨⟨d.config, rfl, caps.2.2.1.trans hskew⟩, ?_,
      ⟨ht.ids, ht.expiry, ht.waiting, ht.leases, ht.ready, ht.owners⟩,
      ⟨hi.keys, hi.rows, hi.owners⟩⟩
    -- a room that starts to drain gets its cutoff, one that drains already has one
    intro hd
    have hd : d.mode = .draining := hd
    simp only [cutoffs, hd, true_and]
    split
    · simp
    · rename_i hm
      exact cutoff (not_not.mp hm)

theorem Effect.ownersKept (h : Effect now k l k') (hs : RoomSynced skew k) : OwnersKept k k' := by
  obtain ⟨-, -, ht, hi⟩ := hs
  cases h with
  | expire row =>
    exact (dropTicket_rewrites row : Rewrites skew k _ _ _).ownersKept (ht.ids _ _ row).2
      fun _ _ => rfl
  | forget index =>
    refine ⟨rfl, fun _ _ => rfl, fun o ho => ?_⟩
    exact Table.get_del_ne (ho _ (hi.keys _ _ index))
  | release => exact ⟨rfl, fun _ _ => rfl, fun _ _ => rfl⟩
  | join config accepted fresh row =>
    refine (ht.joinRows_rewrites row).ownersKept accepted.2.2.1 fun o ho => ?_
    exact Table.get_put_ne (ho _ accepted.1)
  | promote config mode head row =>
    exact (ht.promoteRow_rewrites (Table.get_head head) row).ownersKept (ht.ids _ _ row).2
      fun _ _ => rfl
  | heartbeat config row state =>
    exact (ht.heartbeatRow_rewrites (Nat.min_le_right _ _) state row).ownersKept
      (ht.ids _ _ row).2 fun _ _ => rfl
  | claim config row state =>
    refine ⟨rfl, fun o ho => ?_, fun _ _ => rfl⟩
    obtain ⟨hid, hh⟩ := ht.ids _ _ row
    exact Table.get_put_ne (ho _ (by simpa [hid] using hh))
  | reclaim => exact .refl _
  | configure => exact ⟨rfl, fun _ _ => rfl, fun _ _ => rfl⟩

theorem Effects.synced {ls : List Label} (h : Effects now k ls k') (hs : RoomSynced skew k) :
    RoomSynced skew k' :=
  h.invariant hs fun _ _ _ hs he => he.synced hs

theorem Effects.ownersKept {ls : List Label} (h : Effects now k ls k') (hs : RoomSynced skew k) :
    OwnersKept k k' := by
  induction h with
  | nil => exact .refl _
  | cons he _ ih => exact (he.ownersKept hs).trans (ih (he.synced hs))

theorem RoomSynced.not_stuck (hs : RoomSynced skew k) (hg : k.inst.config ≠ none) :
    ¬ Stuck now k := by
  rintro (⟨id, s, he, -, ht⟩ | ⟨id, s, hw, ht⟩ | ⟨hm, hc⟩ | h)
  · rw [hs.tickets.expiry, ht] at he
    simp at he
  · rw [hs.tickets.waiting, ht] at hw
    simp at hw
  · exact hs.cutoff hm hc
  · exact hg h

end Effect

end WaitingRoom.Queue
