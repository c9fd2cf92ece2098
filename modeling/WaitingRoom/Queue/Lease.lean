import WaitingRoom.Queue.Order

/-!
# Leases

The lease set of a room stays within the cap in force, and a claimed ticket
keeps its row, and with the row its lease, until its clock skew has passed after
the end of its admission.
-/

namespace WaitingRoom.Queue

set_option autoImplicit false

def LeaseCapped (room : QueueRoom) : Prop :=
  ∀ c, room.config = some c → room.leases.size ≤ c.leaseCap

/-- Claimed tickets still have their row, unless `limit` is past their lease. -/
def LeasesKept (skew limit : Nat) (claimed : List Ticket) (room : QueueRoom) : Prop :=
  ∀ t ∈ claimed, t.state = .admitted ∧
    (room.tickets.get t.id = some t ∨ t.admissionUntil + skew ≤ limit)

section Effect

variable {skew now limit : Nat} {k k' : QueueKeys} {l : Label} {ls : List Label}
variable {claimed : List Ticket}

theorem Effect.leaseCapped (he : Effect now k l k') (hs : TicketsSynced skew k)
    (h : LeaseCapped k.room) : LeaseCapped k'.room := by
  cases he with
  | expire => exact fun c hc => (Table.size_del_le _ _).trans (h c hc)
  | @promote c id t s rest config mode head row cutoff leases rate =>
    intro c' hc'
    obtain rfl := Option.some.inj (config.symm.trans hc')
    exact (Table.size_put_le _ _ _).trans leases
  | @claim c id t config row state =>
    intro c' hc'
    have hlease : k.room.leases.get t.id = some (score (t.deadline skew)) := by
      rw [(hs.ids id t row).1, hs.leases, row, Option.bind_some, Ticket.leaseScore]
      simp [state]
    have hsize : (k.room.leases.put t.id (score (t.admissionUntil + c.clockSkew : Nat))).size =
        k.room.leases.size := Table.size_put_of_some hlease
    exact (Nat.le_of_eq hsize).trans (h c' hc')
  | configure config mode caps ttls leases =>
    rintro c' ⟨⟩
    exact leases
  | _ => exact h

theorem Effects.leaseCapped (run : Effects now k ls k') (hs : RoomSynced skew k)
    (h : LeaseCapped k.room) : LeaseCapped k'.room := by
  induction run with
  | nil => exact h
  | cons he _ ih => exact ih (he.synced hs) (he.leaseCapped hs.tickets h)

theorem Effect.leasesKept (he : Effect now k l k') (hs : TicketsSynced skew k) (hle : now ≤ limit)
    (h : LeasesKept skew limit claimed k.room) :
    LeasesKept skew limit (claimed ++ claims [l]) k'.room := by
  have nothing : ∀ {l}, claims [l] = [] → ∀ {room : QueueRoom},
      LeasesKept skew limit claimed room → LeasesKept skew limit (claimed ++ claims [l]) room := by
    intro l hl room h'
    rwa [hl, List.append_nil]
  -- another row is written
  have put : ∀ {id row}, (∀ t ∈ claimed, k.room.tickets.get t.id = some t → t.id ≠ id) →
      ∀ t ∈ claimed, t.state = .admitted ∧ ((k.room.tickets.put id row).get t.id = some t ∨
        t.admissionUntil + skew ≤ limit) := by
    intro id row hne t ht
    obtain ⟨hstate, hrow | hdue⟩ := h t ht
    · exact ⟨hstate, .inl ((Table.get_put_ne (hne t ht hrow)).trans hrow)⟩
    · exact ⟨hstate, .inr hdue⟩
  have other : ∀ {id t₀}, k.room.tickets.get id = some t₀ → t₀.state ≠ .admitted →
      ∀ t ∈ claimed, k.room.tickets.get t.id = some t → t.id ≠ id := by
    intro id t₀ row hstate t ht hrow hid
    rw [hid, row] at hrow
    obtain rfl := Option.some.inj hrow
    exact hstate (h _ ht).1
  cases he with
  | @expire id t₀ s row index due =>
    refine nothing rfl fun t ht => ?_
    obtain ⟨hstate, hrow | hdue⟩ := h t ht
    · by_cases hid : t.id = id
      · subst hid
        obtain rfl := Option.some.inj (row.symm.trans hrow)
        rw [hs.expiry, row, Option.map_some, Ticket.expiryScore] at index
        obtain rfl := Option.some.inj index
        have hdue := score_le_score.mp due
        simp only [Ticket.deadline, hstate] at hdue
        exact ⟨hstate, .inr (by omega)⟩
      · exact ⟨hstate, .inl ((Table.get_del_ne hid).trans hrow)⟩
    · exact ⟨hstate, .inr hdue⟩
  | @join c g key fingerprint id replay config accepted fresh row =>
    refine nothing rfl (put fun t ht hrow hid => ?_)
    rw [hid] at hrow
    exact absurd (row.symm.trans hrow) (by simp)
  | @promote c id t s rest config mode head row =>
    obtain ⟨hstate, -⟩ := hs.state_of_waiting (Table.get_head head) row
    exact nothing rfl (put (other row (by simp [hstate])))
  | @heartbeat c id t config row state =>
    have hid := (hs.ids id t row).1
    exact nothing rfl (put (other (hid ▸ row) (by simp [state])))
  | @claim c id t config row state =>
    have hid := (hs.ids id t row).1
    intro t' ht'
    rcases List.mem_append.mp ht' with ht' | ht'
    · exact put (other (hid ▸ row) (by simp [state])) t' ht'
    · obtain rfl := List.mem_singleton.mp ht'
      exact ⟨rfl, .inl (Table.get_put_self _ _ _)⟩
  | @reclaim c id t config row state =>
    intro t' ht'
    rcases List.mem_append.mp ht' with ht' | ht'
    · exact h t' ht'
    · obtain rfl := List.mem_singleton.mp ht'
      exact ⟨state, .inl (by rw [(hs.ids id t' row).1, row])⟩
  | _ => exact nothing rfl h

theorem Effects.leasesKept (run : Effects now k ls k') (hs : RoomSynced skew k) (hle : now ≤ limit)
    (h : LeasesKept skew limit claimed k.room) :
    LeasesKept skew limit (claimed ++ claims ls) k'.room := by
  induction run generalizing claimed with
  | nil => simpa [claims] using h
  | cons he _ ih =>
    rw [claims_cons, ← List.append_assoc]
    exact ih (he.synced hs) (he.leasesKept hs.tickets hle h)

theorem Effects.claims_epoch {made done : List Ticket} (run : Effects now k ls k')
    (hs : RoomSynced skew k) (ho : Ordered made done k.room) :
    ∀ t ∈ claims ls, t.epoch = k.room.epoch := by
  induction run generalizing made done with
  | nil => simp [claims]
  | @cons k k₁ k₂ l ls he _ ih =>
    intro t ht
    rw [claims_cons, List.mem_append] at ht
    rcases ht with ht | ht
    · cases he with
      | claim config row =>
        obtain rfl := List.mem_singleton.mp ht
        exact (ho.rows _ _ row).1
      | reclaim config row =>
        obtain rfl := List.mem_singleton.mp ht
        exact (ho.rows _ _ row).1
      | _ => simp [claims] at ht
    · rw [ih (he.synced hs) (he.ordered hs.tickets ho) t ht, he.frame.epoch]

end Effect

theorem claimed_epoch {es : List QueueEvent} {db : QueueDb} (hr : QueueRun es db) {e : Nat}
    {r : String} : ∀ t ∈ claimedAt e r es, t.epoch = e := by
  intro t ht
  obtain ⟨ev, hev, ht⟩ := mem_shown.mp ht
  obtain ⟨before, -, -, hb, -, heq, -⟩ := hr.split hev
  have hs := run_synced hb e
  have hm : RoomMove e r ev := by
    rw [heq]
    exact exec_roomMove hs ev.input r
  have ht : t ∈ claimedAt e r [ev] := ht
  cases hm with
  | still silent => simp [claimedAt_of_silent silent] at ht
  | opened silent => simp [claimedAt_of_silent silent] at ht
  | configured silent => simp [claimedAt_of_silent silent] at ht
  | @ran op primary fence c ls k' command call enters config run answered inst room =>
    rw [claimedAt_of_command command answered] at ht
    have hepoch := run.claims_epoch (started_synced hs config _)
      (started_ordered (room_ordered hb e r) _) t ht
    exact hepoch.trans (hs.names r (by simp [config])).2.2

/-- All configs that are sent have the clock skew `skew`. `configure` needs no
test: the library keeps the skew of a room. -/
def Call.Skewed (skew : Nat) : Call → Prop
  | .upkeep (.init config _ _ _) => config.clockSkew = skew
  | .upkeep (.configureHeld d _ _) => d.config.clockSkew = skew
  | _ => True

abbrev SkewedRun (skew : Nat) : List QueueEvent → QueueDb → Prop :=
  Run exec (fun _ s => s.call.WellFormed ∧ s.call.Skewed skew) {}

theorem queueRun_of_skewed {skew : Nat} {es : List QueueEvent} {db : QueueDb}
    (hr : SkewedRun skew es db) : QueueRun es db := hr.mono fun _ _ h => h.1

structure RoomLeased (skew limit : Nat) (claimed : List Ticket) (room : QueueRoom) : Prop where
  capped : LeaseCapped room
  kept : LeasesKept skew limit claimed room
  skewed : ∀ c, room.config = some c → c.clockSkew = skew

theorem RoomMove.leased {e skew limit : Nat} {r : String} {ev : QueueEvent} {claimed : List Ticket}
    (hm : RoomMove e r ev) (hs : EpochSynced ev.before e) (hskew : ev.input.call.Skewed skew)
    (hle : ev.input.env.now ≤ limit) (h : RoomLeased skew limit claimed (ev.before.room e r)) :
    RoomLeased skew limit (claimed ++ claimedAt e r [ev]) (ev.after.room e r) := by
  have quiet : Silent e r ev → RoomLeased skew limit claimed (ev.after.room e r) →
      RoomLeased skew limit (claimed ++ claimedAt e r [ev]) (ev.after.room e r) := by
    intro silent h'
    rwa [claimedAt_of_silent silent, List.append_nil]
  cases hm with
  | still silent room =>
    refine quiet silent ?_
    rw [room]
    exact ⟨h.capped, h.kept, h.skewed⟩
  | opened silent call blank room =>
    refine quiet silent ?_
    rw [room]
    rw [blank] at h
    rw [call] at hskew
    refine ⟨fun _ _ => Nat.zero_le _, h.kept, ?_⟩
    rintro c ⟨⟩
    exact hskew
  | configured silent call tickets idems room =>
    refine quiet silent ?_
    have hleases : (ev.before.room e r).leases.size = 0 := by
      rw [Table.size_eq_zero_iff]
      intro id
      cases hc : (ev.before.room e r).config with
      | none => rw [hs.unopened r hc]; rfl
      | some c => exact ((hs.synced r c hc).sets_of_empty tickets idems id).2.2.1
    rw [room]
    rw [call] at hskew
    refine ⟨fun _ _ => ?_, h.kept, ?_⟩
    · exact (Nat.le_of_eq hleases).trans (Nat.zero_le _)
    · rintro c ⟨⟩
      exact hskew
  | @ran op primary fence c ls k' command call enters config run answered inst room =>
    have hsync : RoomSynced skew (started (ev.before.keys e r) ev.input.env.now) := by
      rw [← h.skewed c config]
      exact started_synced hs config _
    have hafter := run.synced hsync
    rw [claimedAt_of_command command answered, room]
    refine ⟨run.leaseCapped hsync h.capped, run.leasesKept hsync hle h.kept, ?_⟩
    intro c' hc'
    obtain ⟨c'', hc'', hskew'⟩ := hafter.opened
    obtain rfl := Option.some.inj (hc''.symm.trans hc')
    exact hskew'

theorem run_leased {skew limit : Nat} {es : List QueueEvent} {db : QueueDb}
    (hr : SkewedRun skew es db) (hle : ∀ ev ∈ es, ev.input.env.now ≤ limit) (e : Nat) (r : String) :
    RoomLeased skew limit (claimedAt e r es) (db.room e r) := by
  induction hr with
  | nil => exact ⟨by simp [LeaseCapped], by simp [LeasesKept, claimedAt, shown], by simp⟩
  | @snoc es db s hr wf ih =>
    have hs := run_synced (queueRun_of_skewed hr) e
    rw [claimedAt_append]
    refine (exec_roomMove hs s r).leased hs wf.2 ?_ (ih fun ev hev => hle ev ?_)
    · exact hle (eventOf exec db s) (List.mem_append_right _ (List.mem_singleton_self _))
    · exact List.mem_append_left _ hev

end WaitingRoom.Queue
