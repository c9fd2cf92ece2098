import WaitingRoom.Queue.Scan
import WaitingRoom.Queue.Hold

/-!
# Soundness of recovery validation

The validator starts from rows, indexes and counters of any contents and reads
them page by page. While an installation is held nothing else moves, so what the
pages have read stays true, and it carries over to a new fence only by being
read again. One-sided membership and equal counts then give equality of the sets.
-/

namespace WaitingRoom.Queue

set_option autoImplicit false

section Read

variable {T I : Type}

structure SameRows (k k' : Keys T I) : Prop where
  room : ∃ p, k'.room = { k.room with validation := p }
  visitorOwners : k'.inst.visitorOwners = k.inst.visitorOwners
  idemOwners : k'.inst.idemOwners = k.inst.idemOwners

structure ItemsRead (k : Keys T I) : Prop where
  sizes : k.room.idem.size = k.room.idemExpiry.size
  passed : ∀ e ∈ k.room.idemExpiry.ranking, ItemPassed k e

variable {k k' : Keys T I} {c : Config} {now now' : Nat} {s : Scan}

theorem ItemPassed.congr (h : SameRows k k') {e : String × Score} (hp : ItemPassed k e) :
    ItemPassed k' e := by
  obtain ⟨room', inst', shared'⟩ := k'
  obtain ⟨⟨p, rfl⟩, -, hi⟩ := h
  exact { hp with owner := (congrArg (Table.get · _) hi).trans hp.owner }

variable [Decodes T]

/-- All tickets of a room have been read, with the counters `s`. -/
structure TicketsRead (k : Keys T I) (c : Config) (now : Nat) (s : Scan) : Prop where
  sizes : k.room.tickets.size = k.room.expiry.size
  tallied : Tallied k.room k.room.expiry.ranking s
  passed : ∀ e ∈ k.room.expiry.ranking, Passed k c now e
  waiting : s.waiting = k.room.waiting.size
  leases : s.leases = k.room.leases.size
  ready : (s.ready : ℤ) = k.room.ready
  leaseCap : s.leases ≤ c.leaseCap
  maxSeq : s.maxSeq ≤ k.room.seq

structure RoomRead (k : Keys T I) (now : Nat) : Prop where
  tickets : ∃ c s, k.room.config = some c ∧ TicketsRead k c now s
  items : ItemsRead k
  rate : k.room.rate.count (fun s => decide (score ((now : ℤ) - 60000) < s)) = 0

theorem TicketsRead.mono (h : TicketsRead k c now s) (hle : now ≤ now') :
    TicketsRead k c now' s :=
  { h with passed := fun e he => (h.passed e he).mono hle }

theorem RoomRead.mono (h : RoomRead k now) (hle : now ≤ now') : RoomRead k now' := by
  obtain ⟨c, s, hc, ht⟩ := h.tickets
  refine ⟨⟨c, s, hc, ht.mono hle⟩, h.items, ?_⟩
  refine (Table.count_eq_zero_iff _).mpr fun id x hx => ?_
  have hold := (Table.count_eq_zero_iff _).mp h.rate id x hx
  rw [decide_eq_false_iff_not, not_lt] at hold ⊢
  exact hold.trans (score_le_score.mpr (by omega))

theorem Passed.congr (h : SameRows k k') {e : String × Score} (hp : Passed k c now e) :
    Passed k' c now e := by
  obtain ⟨room', inst', shared'⟩ := k'
  obtain ⟨⟨p, rfl⟩, hv, -⟩ := h
  obtain ⟨j, st, n, d, hp⟩ := hp
  exact ⟨j, st, n, d, { hp with owner := (congrArg (Table.get · _) hv).trans hp.owner }⟩

theorem TicketsRead.congr (h : SameRows k k') (ht : TicketsRead k c now s) :
    TicketsRead k' c now s := by
  have hpassed : ∀ e ∈ k.room.expiry.ranking, Passed k' c now e :=
    fun e he => (ht.passed e he).congr h
  obtain ⟨room', inst', shared'⟩ := k'
  obtain ⟨⟨p, rfl⟩, -, -⟩ := h
  exact ⟨ht.sizes, ⟨ht.tallied.waiting, ht.tallied.ready, ht.tallied.leases, ht.tallied.le_maxSeq,
    ht.tallied.maxSeq_mem⟩, hpassed, ht.waiting, ht.leases, ht.ready, ht.leaseCap, ht.maxSeq⟩

theorem RoomRead.congr (h : SameRows k k') (hr : RoomRead k now) : RoomRead k' now := by
  obtain ⟨c, s, hc, ht⟩ := hr.tickets
  have hitems : ∀ e ∈ k.room.idemExpiry.ranking, ItemPassed k' e :=
    fun e he => (hr.items.passed e he).congr h
  have htickets := ht.congr h
  obtain ⟨room', inst', shared'⟩ := k'
  obtain ⟨⟨p, rfl⟩, -, -⟩ := h
  exact ⟨⟨c, s, hc, htickets⟩, ⟨hr.items.sizes, hitems⟩, hr.rate⟩

end Read

section Progress

variable {T I : Type} [Decodes T]

def ProgressSound (k : Keys T I) (c : Config) (now : Nat) (p : Progress) : Prop :=
  match p.phase with
  | .tickets => Tallied k.room (k.room.expiry.ranking.take p.offset) p.scan ∧
      ∀ e ∈ k.room.expiry.ranking.take p.offset, Passed k c now e
  | .idempotency => (∃ s, TicketsRead k c now s) ∧
      ∀ e ∈ k.room.idemExpiry.ranking.take p.offset, ItemPassed k e
  | _ => True

variable {k k' : Keys T I} {c : Config} {now now' : Nat} {p : Progress}

theorem ProgressSound.mono (h : ProgressSound k c now p) (hle : now ≤ now') :
    ProgressSound k c now' p := by
  unfold ProgressSound at h ⊢
  split at h
  · exact ⟨h.1, fun e he => (h.2 e he).mono hle⟩
  · obtain ⟨⟨s, hs⟩, hi⟩ := h
    exact ⟨⟨s, hs.mono hle⟩, hi⟩
  · trivial

theorem ProgressSound.congr (hk : SameRows k k') (h : ProgressSound k c now p) :
    ProgressSound k' c now p := by
  have hpassed : ∀ e, Passed k c now e → Passed k' c now e := fun e he => he.congr hk
  have hread : ∀ s, TicketsRead k c now s → TicketsRead k' c now s := fun s hs => hs.congr hk
  have hitem : ∀ e, ItemPassed k e → ItemPassed k' e := fun e he => he.congr hk
  obtain ⟨room', inst', shared'⟩ := k'
  obtain ⟨⟨q, rfl⟩, -, -⟩ := hk
  unfold ProgressSound at h ⊢
  split at h
  · exact ⟨⟨h.1.waiting, h.1.ready, h.1.leases, h.1.le_maxSeq, h.1.maxSeq_mem⟩,
      fun e he => hpassed e (h.2 e he)⟩
  · obtain ⟨⟨s, hs⟩, hi⟩ := h
    exact ⟨⟨s, hread s hs⟩, fun e he => hitem e (hi e he)⟩
  · trivial

/-- What the progress fields of a room say is true, if they are of the current fence. -/
structure RoomReviewed (k : Keys T I) (now : Nat) : Prop where
  progress_le : ∀ p, k.room.validation = some p → p.fence ≤ k.inst.fence
  progress : ∀ c p, k.room.config = some c → k.room.validation = some p →
    p.fence = k.inst.fence → ProgressSound k c now p
  mark_le : ∀ v, k.inst.validated.get k.room.room = some v → v.fence ≤ k.inst.fence
  mark : ∀ v, k.inst.validated.get k.room.room = some v → v.fence = k.inst.fence →
    RoomRead k now ∧ v.visitors = k.room.tickets.size ∧ v.idems = k.room.idem.size

theorem RoomReviewed.of_lt (hp : ∀ p, k.room.validation = some p → p.fence < k.inst.fence)
    (hv : ∀ v, k.inst.validated.get k.room.room = some v → v.fence < k.inst.fence) :
    RoomReviewed k now where
  progress_le p h := (hp p h).le
  progress _ p _ h heq := absurd heq (hp p h).ne
  mark_le v h := (hv v h).le
  mark v h heq := absurd heq (hv v h).ne

theorem RoomReviewed.congr (h : RoomReviewed k now) (hle : now ≤ now') (hroom : k'.room = k.room)
    (hvisitors : k'.inst.visitorOwners = k.inst.visitorOwners)
    (hidems : k'.inst.idemOwners = k.inst.idemOwners) (hfence : k'.inst.fence = k.inst.fence)
    (hmark : k'.inst.validated.get k.room.room = k.inst.validated.get k.room.room) :
    RoomReviewed k' now' := by
  have hk : SameRows k k' := ⟨⟨k.room.validation, hroom⟩, hvisitors, hidems⟩
  refine ⟨?_, ?_, ?_, ?_⟩
  · rw [hroom, hfence]
    exact h.progress_le
  · rw [hroom, hfence]
    intro c p hc hp heq
    exact ((h.progress c p hc hp heq).mono hle).congr hk
  · rw [hroom, hfence, hmark]
    exact h.mark_le
  · rw [hroom, hfence, hmark]
    intro v hv heq
    obtain ⟨hread, hsizes⟩ := h.mark v hv heq
    exact ⟨(hread.mono hle).congr hk, hsizes⟩

theorem RoomReviewed.current (h : RoomReviewed k now) (hc : k.room.config = some c) :
    ProgressSound k c now (currentProgress k) := by
  have fresh : ProgressSound k c now ⟨k.inst.fence, .tickets, 0, 0, 0, 0, 0⟩ :=
    ⟨Tallied.nil k.room, by simp⟩
  unfold currentProgress
  split
  · rename_i p hp
    split
    · exact h.progress c p hc hp ‹_›
    · exact fresh
  · exact fresh

end Progress

section Review

variable {T I : Type} [Decodes T] {k k' : Keys T I} {now : Nat}

inductive Review (now : Nat) (k : Keys T I) : Keys T I → Prop
  | still : Review now k k
  | failed (e : ValidationError) :
      Review now k { k with inst := { k.inst with validationError := some e } }
  | noted {p : Progress} {e : Option ValidationError} (fence : p.fence = k.inst.fence)
      (sound : ∀ c, k.room.config = some c → ProgressSound k c now p) :
      Review now k { setProgress k p with inst := { k.inst with validationError := e } }
  | marked {p : Progress} (fence : p.fence = k.inst.fence) (phase : p.phase = .done)
      (read : RoomRead k now) : Review now k (markValidated (setProgress k p))
  | activated {p : Progress} {global : InstallationConfig} (fence : p.fence = k.inst.fence)
      (phase : p.phase = .done) (validated : ∀ r ∈ k.inst.rooms, RoomValidated k.inst r)
      (totals : TotalsAgree k.inst global) : Review now k (activate (setProgress k p) now)

theorem ProgressSound.of_done {c : Config} {p : Progress} (h : p.phase = .done) :
    ProgressSound k c now p := by
  simp [ProgressSound, h]

theorem Review.reviewed (h : Review now k k') (hk : RoomReviewed k now) : RoomReviewed k' now := by
  cases h with
  | still => exact hk
  | failed e => exact hk.congr le_rfl rfl rfl rfl rfl rfl
  | @noted p e fence sound =>
    refine ⟨?_, ?_, hk.mark_le, ?_⟩
    · rintro _ ⟨⟩
      exact fence.le
    · rintro c _ hc ⟨⟩ _
      exact (sound c hc).congr ⟨⟨some p, rfl⟩, rfl, rfl⟩
    · intro v hv heq
      obtain ⟨hread, hsizes⟩ := hk.mark v hv heq
      exact ⟨hread.congr ⟨⟨some p, rfl⟩, rfl, rfl⟩, hsizes⟩
  | @marked p fence phase read =>
    have hget : (markValidated (setProgress k p)).inst.validated.get k.room.room =
        some ⟨k.inst.fence, k.room.tickets.size, k.room.idem.size⟩ := Table.get_put_self _ _ _
    refine ⟨?_, ?_, ?_, ?_⟩
    · rintro _ ⟨⟩
      exact fence.le
    · rintro c _ hc ⟨⟩ _
      exact ProgressSound.of_done phase
    · intro v hv
      obtain rfl := Option.some.inj (hget.symm.trans hv)
      exact le_rfl
    · intro v hv _
      obtain rfl := Option.some.inj (hget.symm.trans hv)
      exact ⟨read.congr ⟨⟨some p, rfl⟩, rfl, rfl⟩, rfl, rfl⟩
  | @activated p global fence phase validated totals =>
    refine ⟨?_, ?_, hk.mark_le, ?_⟩
    · rintro _ ⟨⟩
      exact fence.le
    · rintro c _ hc ⟨⟩ _
      exact ProgressSound.of_done phase
    · intro v hv heq
      obtain ⟨hread, hsizes⟩ := hk.mark v hv heq
      exact ⟨hread.congr ⟨⟨some p, rfl⟩, rfl, rfl⟩, hsizes⟩

variable {c : Config} {p : Progress}

theorem ProgressSound.of_config {q : Progress} (hc : k.room.config = some c)
    (h : ProgressSound k c now q) (c' : Config) (hc' : k.room.config = some c') :
    ProgressSound k c' now q := by
  rwa [← Option.some.inj (hc.symm.trans hc')]

theorem validateTickets_review (hc : k.room.config = some c)
    (sizes : k.room.tickets.size = k.room.expiry.size) (hp : ProgressSound k c now p)
    (phase : p.phase = .tickets) (fence : p.fence = k.inst.fence) :
    Review now k (validateTickets (setProgress k p) now c p).2 := by
  have reading : ∀ {q : Progress}, q.phase = .tickets →
      Tallied k.room (k.room.expiry.ranking.take q.offset) q.scan →
      (∀ e ∈ k.room.expiry.ranking.take q.offset, Passed k c now e) → ProgressSound k c now q := by
    intro q hphase htally hpassed
    rw [ProgressSound, hphase]
    exact ⟨htally, hpassed⟩
  have before := hp
  rw [ProgressSound, phase] at hp
  unfold validateTickets
  dsimp only
  rw [scanTickets_setProgress]
  split
  · exact .noted fence (before.of_config hc)
  · rename_i s hscan
    change scanTickets k c now (k.room.expiry.page p.offset 128) p.scan = .ok s at hscan
    obtain ⟨htally, hpage⟩ := scanTickets_eq_ok hscan hp.1
    rw [Table.take_append_page] at htally
    have hpassed : ∀ e ∈ k.room.expiry.ranking.take
        (p.offset + (k.room.expiry.page p.offset 128).length), Passed k c now e := by
      rw [← Table.take_append_page]
      intro e he
      exact (List.mem_append.mp he).elim (hp.2 e) (hpage e)
    split
    · rename_i hend
      split
      · refine .noted fence (ProgressSound.of_config hc (reading ?_ htally hpassed))
        exact phase
      · rename_i hres
        simp only [not_or, not_not, Nat.not_lt] at hres
        rw [List.take_of_length_le (by rw [Table.length_ranking, ← sizes]; exact hend)]
          at htally hpassed
        have read : TicketsRead k c now s := ⟨sizes, htally, hpassed, hres.1, hres.2.1, hres.2.2.1,
          hres.2.2.2.1, hres.2.2.2.2⟩
        exact .noted fence (ProgressSound.of_config hc ⟨⟨s, read⟩, by simp⟩)
    · refine .noted fence (ProgressSound.of_config hc (reading ?_ htally hpassed))
      exact phase

theorem validateIdems_review [Decodes I] (hc : k.room.config = some c)
    (sizes : k.room.idem.size = k.room.idemExpiry.size) (hp : ProgressSound k c now p)
    (phase : p.phase = .idempotency) (fence : p.fence = k.inst.fence) :
    Review now k (validateIdems (setProgress k p) now c p).2 := by
  have before := hp
  rw [ProgressSound, phase] at hp
  obtain ⟨⟨s, hread⟩, hitems⟩ := hp
  have reading : ∀ {q : Progress}, q.phase = .idempotency →
      (∀ e ∈ k.room.idemExpiry.ranking.take q.offset, ItemPassed k e) → ProgressSound k c now q := by
    intro q hphase hpassed
    rw [ProgressSound, hphase]
    exact ⟨⟨s, hread⟩, hpassed⟩
  unfold validateIdems
  dsimp only
  rw [scanIdems_setProgress]
  split
  · exact .noted fence (before.of_config hc)
  · rename_i hscan
    change scanIdems k c (k.room.idemExpiry.page p.offset 128) = .ok () at hscan
    have hpage := scanIdems_eq_ok hscan
    have hpassed : ∀ e ∈ k.room.idemExpiry.ranking.take
        (p.offset + (k.room.idemExpiry.page p.offset 128).length), ItemPassed k e := by
      rw [← Table.take_append_page]
      intro e he
      exact (List.mem_append.mp he).elim (hitems e) (hpage e)
    split
    · rename_i hend
      split
      · refine .noted fence (ProgressSound.of_config hc (reading ?_ hpassed))
        exact phase
      · rename_i hrate
        simp only [not_or, not_not] at hrate
        rw [List.take_of_length_le (by rw [Table.length_ranking, ← sizes]; exact hend)] at hpassed
        exact .marked fence rfl ⟨⟨c, s, hc, hread⟩, ⟨sizes, hpassed⟩, hrate.1⟩
    · refine .noted fence (ProgressSound.of_config hc (reading ?_ hpassed))
      exact phase

theorem validateTotals_review (phase : p.phase = .done)
    (fence : p.fence = k.inst.fence) : Review now k (validateTotals (setProgress k p) now).2 := by
  have noted : ∀ e, Review now k
      { setProgress k p with inst := { k.inst with validationError := e } } :=
    fun e => .noted fence fun _ _ => .of_done phase
  unfold validateTotals
  split
  · exact noted _
  · split
    · rename_i validated
      split
      · exact noted _
      · split
        · rename_i totals
          exact .activated fence phase validated totals
        · exact noted _
    · exact noted _

theorem wrR6Validate_review [Decodes I] {now₀ : Nat} (hk : RoomReviewed k now₀) {env : Env}
    (hle : now₀ ≤ env.now) (primary : String) (fence : Nat) :
    Review env.now k (wrR6Validate k env primary fence).2 := by
  unfold wrR6Validate
  split
  · exact .still
  split
  · exact .still
  split
  · exact .failed _
  rename_i c hc
  split
  · exact .failed _
  split
  · exact .failed _
  rename_i sizes
  simp only [not_or, not_not] at sizes
  have hp := (hk.current hc).mono hle
  have hfence := currentProgress_fence k
  dsimp only
  split
  · exact validateTickets_review hc sizes.1 hp ‹_› hfence
  · exact validateIdems_review hc sizes.2.1 hp ‹_› hfence
  · exact validateTotals_review ‹_› hfence
  · exact .noted hfence (hp.of_config hc)

end Review

section RoomSound

variable {T I : Type} [Decodes T] {k : Keys T I} {c : Config} {now : Nat} {s : Scan}

theorem hashed_of_hex64 {id : String} (h : hex64 id) : Hashed id := by
  simp only [hex64, Bool.and_eq_true, decide_eq_true_eq] at h
  exact h.1

/-- The indexes, counters and times of a room whose rows are texts of any contents. -/
structure RoomSound (c : Config) (now : Nat) (room : Room T I) : Prop where
  tickets : ∀ id, (∃ t, room.tickets.get id = some t) ↔ ∃ x, room.expiry.get id = some x
  rows : ∀ id x, room.expiry.get id = some x → ∃ j st n d, room.row id = some j ∧
    j.text "ID" = some id ∧ j.text "State" = some st.text ∧ j.natural "Sequence" = some n ∧
    n ≤ room.seq ∧ j.deadline c.clockSkew st = some d ∧ x = score d ∧
    (st ≠ .waiting → ∃ a, j.natural "AdmissionUntil" = some a ∧ a ≤ now)
  waiting : ∀ id x, room.waiting.get id = some x ↔
    room.InState .waiting id ∧ ∃ n, room.sequenceOf id = some n ∧ x = score n
  distinct : ∀ id id' x, room.waiting.get id = some x → room.waiting.get id' = some x → id = id'
  leases : ∀ id x, room.leases.get id = some x ↔
    (room.InState .ready id ∨ room.InState .admitted id) ∧ room.expiry.get id = some x
  ready : room.ready = room.tickets.rows.countP fun e => decide (room.InState .ready e.1)
  leaseCap : room.leases.size ≤ c.leaseCap
  rate : ∀ id x, room.rate.get id = some x → x ≤ score ((now : ℤ) - 60000)
  idem : ∀ key, (∃ i, room.idem.get key = some i) ↔ ∃ x, room.idemExpiry.get key = some x

namespace TicketsRead

theorem passed_of_expiry (h : TicketsRead k c now s) {id : String} {x : Score}
    (hx : k.room.expiry.get id = some x) : ∃ j st n d, RowPassed k c now id x j st n d :=
  h.passed (id, x) (Table.mem_ranking.mpr hx)

theorem ticket_iff (h : TicketsRead k c now s) (id : String) :
    (∃ t, k.room.tickets.get id = some t) ↔ ∃ x, k.room.expiry.get id = some x := by
  have held : ∀ id x, k.room.expiry.get id = some x → ∃ t, k.room.tickets.get id = some t := by
    intro id x hx
    obtain ⟨j, st, n, d, hp⟩ := h.passed_of_expiry hx
    obtain ⟨t, ht, -⟩ := Option.bind_eq_some_iff.mp hp.row
    exact ⟨t, ht⟩
  constructor
  · rintro ⟨t, ht⟩
    exact Table.covers_of_size_le held h.sizes.le ht
  · rintro ⟨x, hx⟩
    exact held id x hx

theorem passed_of_inState (h : TicketsRead k c now s) {id : String} {st : TicketState}
    (hst : k.room.InState st id) :
    ∃ x j n d, k.room.expiry.get id = some x ∧ RowPassed k c now id x j st n d := by
  obtain ⟨j, hrow, -⟩ := Option.bind_eq_some_iff.mp hst
  obtain ⟨t, ht, -⟩ := Option.bind_eq_some_iff.mp hrow
  obtain ⟨x, hx⟩ := (h.ticket_iff id).mp ⟨t, ht⟩
  obtain ⟨j, st', n, d, hp⟩ := h.passed_of_expiry hx
  obtain rfl := (hp.inState_iff st).mp hst
  exact ⟨x, j, n, d, hx, hp⟩

theorem waiting_iff (h : TicketsRead k c now s) (id : String) (x : Score) :
    k.room.waiting.get id = some x ↔
      k.room.InState .waiting id ∧ ∃ n, k.room.sequenceOf id = some n ∧ x = score n := by
  have seqOf : ∀ {x j st n d}, RowPassed k c now id x j st n d → k.room.sequenceOf id = some n :=
    fun hp => by simp [Room.sequenceOf, hp.row, hp.sequence]
  constructor
  · intro hx
    have hle : k.room.waiting.size ≤
        k.room.expiry.ranking.countP fun e => decide (k.room.InState .waiting e.1) := by
      rw [← h.waiting, h.tallied.waiting]
    obtain ⟨hstate, -⟩ := Table.ranked_of_size_le (fun id y hy hw => by
      obtain ⟨j, st, n, d, hp⟩ := h.passed_of_expiry hy
      rw [hp.waiting, (hp.inState_iff .waiting).mp hw]
      exact ⟨_, rfl⟩) hle hx
    obtain ⟨y, j, n, d, hy, hp⟩ := h.passed_of_inState hstate
    exact ⟨hstate, n, seqOf hp, Option.some.inj (hx.symm.trans (hp.waiting.trans (if_pos rfl)))⟩
  · rintro ⟨hstate, n, hn, rfl⟩
    obtain ⟨y, j, n', d, hy, hp⟩ := h.passed_of_inState hstate
    obtain rfl := Option.some.inj (hn.symm.trans (seqOf hp))
    exact hp.waiting.trans (if_pos rfl)

theorem leases_iff (h : TicketsRead k c now s) (id : String) (x : Score) :
    k.room.leases.get id = some x ↔
      (k.room.InState .ready id ∨ k.room.InState .admitted id) ∧ k.room.expiry.get id = some x := by
  have lease : ∀ {x j st n d}, RowPassed k c now id x j st n d → st ≠ .waiting →
      k.room.leases.get id = some x :=
    fun hp hst => hp.leases.trans ((if_neg hst).trans (congrArg some hp.expiry.symm))
  constructor
  · intro hx
    have hle : k.room.leases.size ≤
        k.room.expiry.ranking.countP fun e => decide (¬ k.room.InState .waiting e.1) := by
      rw [← h.leases, h.tallied.leases]
    obtain ⟨hstate, y, hy⟩ := Table.ranked_of_size_le
      (p := fun id => ¬ k.room.InState .waiting id) (fun id y hy hw => by
      obtain ⟨j, st, n, d, hp⟩ := h.passed_of_expiry hy
      rw [hp.leases, if_neg fun hst => hw ((hp.inState_iff .waiting).mpr hst)]
      exact ⟨_, rfl⟩) hle hx
    obtain ⟨j, st, n, d, hp⟩ := h.passed_of_expiry hy
    have hst : st ≠ .waiting := fun hst => hstate ((hp.inState_iff .waiting).mpr hst)
    obtain rfl := Option.some.inj (hx.symm.trans (lease hp hst))
    refine ⟨?_, hy⟩
    cases st with
    | waiting => exact absurd rfl hst
    | ready => exact .inl ((hp.inState_iff .ready).mpr rfl)
    | admitted => exact .inr ((hp.inState_iff .admitted).mpr rfl)
  · rintro ⟨hstate, hx⟩
    obtain ⟨j, st, n, d, hp⟩ := h.passed_of_expiry hx
    refine lease hp ?_
    rintro rfl
    rcases hstate with hstate | hstate
    · exact absurd ((hp.inState_iff _).mp hstate) (by simp)
    · exact absurd ((hp.inState_iff _).mp hstate) (by simp)

theorem ready_eq (h : TicketsRead k c now s) : k.room.ready =
    k.room.tickets.rows.countP fun e => decide (k.room.InState .ready e.1) := by
  have hperm : (k.room.expiry.ranking.map Prod.fst).Perm (k.room.tickets.rows.map Prod.fst) := by
    refine (List.perm_ext_iff_of_nodup (Table.ranking_keys_nodup _) (Table.rows_keys_nodup _)).mpr
      fun id => ?_
    rw [(k.room.expiry.ranking_perm.map Prod.fst).mem_iff, Table.mem_keys, Table.mem_keys]
    exact (h.ticket_iff id).symm
  have hcount := hperm.countP_eq fun id => decide (k.room.InState .ready id)
  rw [List.countP_map, List.countP_map] at hcount
  rw [← h.ready, h.tallied.ready]
  exact congrArg Nat.cast hcount

end TicketsRead

theorem RoomRead.sound (h : RoomRead k now) :
    ∃ c, k.room.config = some c ∧ RoomSound c now k.room := by
  obtain ⟨c, s, hc, ht⟩ := h.tickets
  refine ⟨c, hc, ht.ticket_iff, ?_, ht.waiting_iff, ?_, ht.leases_iff, ht.ready_eq, ?_, ?_, ?_⟩
  · intro id x hx
    obtain ⟨j, st, n, d, hp⟩ := ht.passed_of_expiry hx
    have hseq : n ≤ s.maxSeq := ht.tallied.le_maxSeq (id, x) (Table.mem_ranking.mpr hx) n
      (by simp [Room.sequenceOf, hp.row, hp.sequence])
    exact ⟨j, st, n, d, hp.row, hp.named, hp.state, hp.sequence, hseq.trans ht.maxSeq, hp.deadline,
      hp.expiry, hp.ended⟩
  · intro id id' x hx hx'
    obtain ⟨hstate, -⟩ := (ht.waiting_iff id x).mp hx
    obtain ⟨y, j, n, d, hy, hp⟩ := ht.passed_of_inState hstate
    obtain rfl : x = score n := Option.some.inj (hx.symm.trans (hp.waiting.trans (if_pos rfl)))
    exact Table.eq_of_count_le_one (hp.distinct rfl).le hx (by simp) hx' (by simp)
  · rw [← ht.leases]
    exact ht.leaseCap
  · intro id x hx
    have hold := (Table.count_eq_zero_iff _).mp h.rate id x hx
    rwa [decide_eq_false_iff_not, not_lt] at hold
  · intro key
    have held : ∀ key x, k.room.idemExpiry.get key = some x → ∃ i, k.room.idem.get key = some i :=
      fun key x hx => (h.items.passed (key, x) (Table.mem_ranking.mpr hx)).row
    constructor
    · rintro ⟨i, hi⟩
      exact Table.covers_of_size_le held h.items.sizes.le hi
    · rintro ⟨x, hx⟩
      exact held key x hx

end RoomSound

section Runs

variable {T I : Type} [Decodes T] {db : Db T I} {e now : Nat}

/-- Validations of registered rooms, recoveries, and calls that find their room open. -/
def Reviewing (e : Nat) (db : Db T I) (s : Step Upkeep) : Prop :=
  s.epoch = e ∧
    match s.call with
    | .validate _ _ => s.room ∈ (db.inst e).rooms
    | .recover _ _ => True
    | .init _ _ _ _ => (db.room e s.room).config ≠ none
    | .configureHeld _ _ _ => False

instance (e : Nat) (db : Db T I) : DecidablePred (Reviewing e db)
  | ⟨epoch, room, _, .validate _ _⟩ =>
    inferInstanceAs (Decidable (epoch = e ∧ room ∈ (db.inst e).rooms))
  | ⟨epoch, _, _, .recover _ _⟩ => inferInstanceAs (Decidable (epoch = e ∧ True))
  | ⟨epoch, room, _, .init _ _ _ _⟩ =>
    inferInstanceAs (Decidable (epoch = e ∧ (db.room e room).config ≠ none))
  | ⟨epoch, _, _, .configureHeld _ _ _⟩ => inferInstanceAs (Decidable (epoch = e ∧ False))

/-- Every registered room is named by its own metadata, and its progress is true. -/
structure DbReviewed (db : Db T I) (e now : Nat) : Prop where
  named : ∀ r ∈ (db.inst e).rooms, (db.room e r).room = r
  rooms : ∀ r ∈ (db.inst e).rooms, RoomReviewed (db.keys e r) now

theorem DbReviewed.of_lt (named : ∀ r ∈ (db.inst e).rooms, (db.room e r).room = r)
    (progress : ∀ r ∈ (db.inst e).rooms, ∀ p, (db.room e r).validation = some p →
      p.fence < (db.inst e).fence)
    (marks : ∀ r ∈ (db.inst e).rooms, ∀ v, (db.inst e).validated.get r = some v →
      v.fence < (db.inst e).fence) : DbReviewed db e now := by
  refine ⟨named, fun r hr => .of_lt (progress r hr) fun v hv => marks r hr v ?_⟩
  rw [← named r hr]
  exact hv

theorem DbReviewed.mono {now' : Nat} (h : DbReviewed db e now) (hle : now ≤ now') :
    DbReviewed db e now' :=
  ⟨h.named, fun r hr => (h.rooms r hr).congr hle rfl rfl rfl rfl rfl⟩

theorem Review.others {k k' : Keys T I} (h : Review now k k') :
    k'.inst.rooms = k.inst.rooms ∧ k'.inst.visitorOwners = k.inst.visitorOwners ∧
      k'.inst.idemOwners = k.inst.idemOwners ∧ k'.inst.fence = k.inst.fence ∧
      k'.room.room = k.room.room ∧
      ∀ r, r ≠ k.room.room → k'.inst.validated.get r = k.inst.validated.get r := by
  cases h with
  | marked =>
    exact ⟨rfl, rfl, rfl, rfl, rfl, fun r hr => Table.get_put_ne hr⟩
  | _ => exact ⟨rfl, rfl, rfl, rfl, rfl, fun _ _ => rfl⟩

theorem DbReviewed.set_review {r : String} {k' : Keys T I} (h : DbReviewed db e now)
    (hr : r ∈ (db.inst e).rooms) (hk : Review now (db.keys e r) k') :
    DbReviewed (db.set e r k') e now := by
  obtain ⟨hrooms, hvisitors, hidems, hfence, hname, hmark⟩ := hk.others
  refine ⟨?_, ?_⟩
  · intro r' hr'
    rw [Db.set_inst_self, hrooms] at hr'
    by_cases heq : r' = r
    · subst r'
      rw [Db.set_room_self, hname]
      exact h.named r hr
    · rw [Db.set_room_ne (by simp [heq])]
      exact h.named r' hr'
  · intro r' hr'
    rw [Db.set_inst_self, hrooms] at hr'
    by_cases heq : r' = r
    · subst r'
      rw [Db.keys_set_self]
      exact hk.reviewed (h.rooms r hr)
    · have hroom : (db.set e r k').room e r' = db.room e r' := Db.set_room_ne (by simp [heq])
      have hinst : (db.set e r k').inst e = k'.inst := Db.set_inst_self _ _ _ _
      refine (h.rooms r' hr').congr le_rfl hroom ?_ ?_ ?_ ?_
      · rw [Db.keys_inst, hinst, hvisitors]; rfl
      · rw [Db.keys_inst, hinst, hidems]; rfl
      · rw [Db.keys_inst, hinst, hfence]; rfl
      · rw [Db.keys_inst, hinst, Db.keys_room, h.named r' hr',
          hmark r' (by rw [Db.keys_room, h.named r hr]; exact heq)]
        rfl

theorem DbReviewed.congr {db' : Db T I} (h : DbReviewed db e now) (hinst : db'.inst e = db.inst e)
    (hroom : ∀ r, db'.room e r = db.room e r) : DbReviewed db' e now := by
  refine ⟨fun r hr => ?_, fun r hr => ?_⟩
  · rw [hroom]
    exact h.named r (hinst ▸ hr)
  · refine (h.rooms r (hinst ▸ hr)).congr le_rfl (hroom r) ?_ ?_ ?_ ?_ <;> simp [hinst]

theorem DbReviewed.of_held {db' : Db T I} {primary : String} {now' : Nat} {reason : RecoveryReason}
    (h : DbReviewed db e now) (holds : hold (db.inst e) now' primary reason = some (db'.inst e))
    (hroom : ∀ r, db'.room e r = db.room e r) : DbReviewed db' e now' := by
  obtain ⟨-, hg⟩ := hold_eq_some holds
  have hrooms : (db'.inst e).rooms = (db.inst e).rooms := by rw [hg]
  have hfence : (db'.inst e).fence = (db.inst e).fence + 1 := by rw [hg]
  have hmarks : (db'.inst e).validated = (db.inst e).validated := by rw [hg]
  refine .of_lt ?_ ?_ ?_
  · intro r hr
    rw [hroom]
    exact h.named r (hrooms ▸ hr)
  · intro r hr p hp
    rw [hroom] at hp
    rw [hfence]
    exact Nat.lt_succ_of_le ((h.rooms r (hrooms ▸ hr)).progress_le p hp)
  · intro r hr v hv
    rw [hmarks] at hv
    rw [hfence]
    refine Nat.lt_succ_of_le ((h.rooms r (hrooms ▸ hr)).mark_le v ?_)
    rwa [Db.keys_room, h.named r (hrooms ▸ hr)]

/-- A reviewing call keeps the keys, holds the installation, or is a validation. -/
inductive ReviewMove (e : Nat) (db : Db T I) (s : Step Upkeep) (db' : Db T I) : Prop
  | still (inst : db'.inst e = db.inst e) (room : ∀ r, db'.room e r = db.room e r)
  | held {reason : RecoveryReason}
      (holds : hold (db.inst e) s.env.now s.env.primary reason = some (db'.inst e))
      (room : ∀ r, db'.room e r = db.room e r)
  | validated {k' : Keys T I} (registered : s.room ∈ (db.inst e).rooms)
      (review : Review s.env.now (db.keys e s.room) k') (set : db' = db.set e s.room k')

theorem execUpkeep_review [Decodes I] {s : Step Upkeep} (h : DbReviewed db e now)
    (allowed : Reviewing e db s) (hle : now ≤ s.env.now) :
    ReviewMove e db s (execUpkeep db s).2 := by
  obtain ⟨epoch, room, env, call⟩ := s
  obtain ⟨rfl, hcall⟩ := allowed
  have hroom : ∀ (g : Installation) (m : EpochMeta) (r : String),
      (db.set epoch room ⟨db.room epoch room, g, m⟩).room epoch r = db.room epoch r := by
    intro g m r
    by_cases heq : r = room
    · subst r
      exact Db.set_room_self _ _ _ _
    · exact Db.set_room_ne (by simp [heq])
  have hm : UpkeepMove env epoch room (db.keys epoch room) call _ := runUpkeep_move call
  cases call with
  | validate primary fence =>
    exact .validated hcall (wrR6Validate_review (h.rooms room hcall) hle primary fence) rfl
  | recover primary uncertain =>
    simp only [execUpkeep]
    generalize (runUpkeep (db.keys epoch room) epoch room env (.recover primary uncertain)).2 = k' at hm ⊢
    cases hm with
    | still => exact .still (Db.set_inst_self _ _ _ _) (hroom _ _)
    | held current schema holds =>
      refine .held (holds.trans ?_) (hroom _ _)
      rw [Db.set_inst_self]
  | init config primary global notBefore =>
    simp only [execUpkeep]
    generalize (runUpkeep (db.keys epoch room) epoch room env
      (.init config primary global notBefore)).2 = k' at hm ⊢
    cases hm with
    | still => exact .still (Db.set_inst_self _ _ _ _) (hroom _ _)
    | held current schema holds =>
      refine .held (holds.trans ?_) (hroom _ _)
      rw [Db.set_inst_self]
    | passed => exact .still (Db.set_inst_self _ _ _ _) (hroom _ _)
    | opened accepted switched new sound => exact absurd new hcall
  | configureHeld d primary fence => exact hcall.elim

theorem ReviewMove.reviewed {db' : Db T I} {s : Step Upkeep} (hm : ReviewMove e db s db')
    (h : DbReviewed db e s.env.now) : DbReviewed db' e s.env.now := by
  cases hm with
  | still inst room => exact h.congr inst room
  | held holds room => exact h.of_held holds room
  | validated registered review set => exact set ▸ h.set_review registered review

theorem Review.activates {k k' : Keys T I} (h : Review now k k') (held : k.inst.mode = .recoveryHold)
    (active : k'.inst.mode = .active) :
    (∀ r ∈ k'.inst.rooms, RoomValidated k'.inst r) ∧ ∃ global, TotalsAgree k'.inst global := by
  cases h with
  | activated fence phase validated totals => exact ⟨validated, _, totals⟩
  | _ => exact absurd (held.symm.trans active) (by simp)

section Validated

variable (h : DbReviewed db e now)
  (validated : ∀ r ∈ (db.inst e).rooms, RoomValidated (db.inst e) r)
include h validated

theorem DbReviewed.room_read {r : String} (hr : r ∈ (db.inst e).rooms) :
    RoomRead (db.keys e r) now ∧ ∃ v, (db.inst e).validated.get r = some v ∧
      v.visitors = (db.room e r).expiry.size ∧ v.idems = (db.room e r).idemExpiry.size := by
  obtain ⟨v, hv, hfence⟩ := Option.map_eq_some_iff.mp (validated r hr)
  obtain ⟨hread, hvisitors, hidems⟩ := (h.rooms r hr).mark v
    (by rw [Db.keys_room, h.named r hr]; exact hv) hfence
  obtain ⟨c, s, -, ht⟩ := hread.tickets
  exact ⟨hread, v, hv, hvisitors.trans ht.sizes, hidems.trans hread.items.sizes⟩

theorem DbReviewed.totalVisitors_eq :
    totalVisitors (db.inst e) = ∑ r ∈ (db.inst e).rooms, (db.room e r).expiry.size := by
  refine Finset.sum_congr rfl fun r hr => ?_
  obtain ⟨-, v, hv, hvisitors, -⟩ := h.room_read validated hr
  simp [hv, hvisitors]

theorem DbReviewed.totalIdems_eq :
    totalIdems (db.inst e) = ∑ r ∈ (db.inst e).rooms, (db.room e r).idemExpiry.size := by
  refine Finset.sum_congr rfl fun r hr => ?_
  obtain ⟨-, v, hv, -, hidems⟩ := h.room_read validated hr
  simp [hv, hidems]

theorem DbReviewed.visitors_union (total : totalVisitors (db.inst e) = (db.inst e).visitorOwners.size) :
    OwnersUnion (db.inst e).visitorOwners (db.inst e).rooms fun r => (db.room e r).expiry := by
  have passed : ∀ r ∈ (db.inst e).rooms, ∀ id x, (db.room e r).expiry.get id = some x →
      Hashed id ∧ (db.inst e).visitorOwners.get (member r id) = some x := by
    intro r hr id x hx
    obtain ⟨c, s, -, ht⟩ := (h.room_read validated hr).1.tickets
    obtain ⟨j, st, n, d, hp⟩ := ht.passed_of_expiry hx
    have howner := hp.owner
    rw [Db.keys_room, h.named r hr, ← hp.expiry] at howner
    exact ⟨hashed_of_hex64 hp.hashed, howner⟩
  refine .of_size_le (fun r hr id x hx => (passed r hr id x hx).1)
    (fun r hr id x hx => (passed r hr id x hx).2) ?_
  rw [← total, h.totalVisitors_eq validated]

theorem DbReviewed.idems_union (total : totalIdems (db.inst e) = (db.inst e).idemOwners.size) :
    OwnersUnion (db.inst e).idemOwners (db.inst e).rooms fun r => (db.room e r).idemExpiry := by
  have passed : ∀ r ∈ (db.inst e).rooms, ∀ id x, (db.room e r).idemExpiry.get id = some x →
      Hashed id ∧ (db.inst e).idemOwners.get (member r id) = some x := by
    intro r hr id x hx
    have hp := (h.room_read validated hr).1.items.passed (id, x) (Table.mem_ranking.mpr hx)
    have howner := hp.owner
    rw [Db.keys_room, h.named r hr] at howner
    exact ⟨hashed_of_hex64 hp.hashed, howner⟩
  refine .of_size_le (fun r hr id x hx => (passed r hr id x hx).1)
    (fun r hr id x hx => (passed r hr id x hx).2) ?_
  rw [← total, h.totalIdems_eq validated]

end Validated

theorem ReviewMove.activates {db' : Db T I} {s : Step Upkeep} (hm : ReviewMove e db s db')
    (held : (db.inst e).mode = .recoveryHold) (active : (db'.inst e).mode = .active) :
    (∀ r ∈ (db'.inst e).rooms, RoomValidated (db'.inst e) r) ∧
      ∃ global, TotalsAgree (db'.inst e) global := by
  cases hm with
  | still inst room => exact absurd (held.symm.trans (inst ▸ active)) (by simp)
  | held holds room =>
    obtain ⟨-, hg⟩ := hold_eq_some holds
    rw [hg] at active
    exact absurd active (by simp)
  | validated registered review set =>
    subst set
    rw [Db.set_inst_self] at active ⊢
    exact review.activates held active

variable [Decodes I]

theorem run_reviewed {db' : Db T I} {es : List (Event (Db T I) (Step Upkeep) Outcome)}
    (hr : Run execUpkeep (Reviewing e) db es db') (h : DbReviewed db e 0)
    (times : (es.map fun ev => ev.input.env.now).Pairwise (· ≤ ·)) :
    ∃ now, DbReviewed db' e now ∧ (now = 0 ∨ ∃ ev ∈ es, ev.input.env.now = now) := by
  induction hr with
  | nil => exact ⟨0, h, .inl rfl⟩
  | @snoc es db' s _ allowed ih =>
    rw [List.map_append, List.pairwise_append] at times
    obtain ⟨now, hrev, hlast⟩ := ih times.1
    have hnow : now ≤ s.env.now := by
      rcases hlast with rfl | ⟨ev, hev, rfl⟩
      · exact Nat.zero_le _
      · exact times.2.2 _ (List.mem_map_of_mem hev) _ (by simp [eventOf])
    exact ⟨s.env.now, (execUpkeep_review hrev allowed hnow).reviewed (hrev.mono hnow),
      .inr ⟨eventOf execUpkeep db' s, by simp, rfl⟩⟩

/-- Whatever the rows, indexes, owners and counters were: when the reviewing
calls of a held installation make it active, every registered room is sound and
the owner sets are the unions over the rooms. -/
theorem validator_sound {db' : Db T I} {es : List (Event (Db T I) (Step Upkeep) Outcome)}
    (hr : Run execUpkeep (Reviewing e) db es db')
    (named : ∀ r ∈ (db.inst e).rooms, (db.room e r).room = r)
    (progress : ∀ r ∈ (db.inst e).rooms, ∀ p, (db.room e r).validation = some p →
      p.fence < (db.inst e).fence)
    (marks : ∀ r ∈ (db.inst e).rooms, ∀ v, (db.inst e).validated.get r = some v →
      v.fence < (db.inst e).fence)
    (times : (es.map fun ev => ev.input.env.now).Pairwise (· ≤ ·)) :
    ∀ ev ∈ es, (ev.before.inst e).mode = .recoveryHold → (ev.after.inst e).mode = .active →
      (∀ r ∈ (ev.after.inst e).rooms, ∃ c, (ev.after.room e r).config = some c ∧
        RoomSound c ev.input.env.now (ev.after.room e r)) ∧
      OwnersUnion (ev.after.inst e).visitorOwners (ev.after.inst e).rooms
        (fun r => (ev.after.room e r).expiry) ∧
      OwnersUnion (ev.after.inst e).idemOwners (ev.after.inst e).rooms
        (fun r => (ev.after.room e r).idemExpiry) := by
  intro ev hev held active
  obtain ⟨es₁, es₂, rfl, hr₁, allowed, heq, -⟩ := hr.split hev
  rw [List.map_append, List.map_cons, List.pairwise_append] at times
  obtain ⟨now, hrev, hlast⟩ := run_reviewed hr₁ (.of_lt named progress marks) times.1
  have hnow : now ≤ ev.input.env.now := by
    rcases hlast with rfl | ⟨ev', hev', rfl⟩
    · exact Nat.zero_le _
    · exact times.2.2 _ (List.mem_map_of_mem hev') _ List.mem_cons_self
  have hm : ReviewMove e ev.before ev.input ev.after := by
    rw [heq]
    exact execUpkeep_review hrev allowed hnow
  obtain ⟨validated, global, totals⟩ := hm.activates held active
  have hafter := hm.reviewed (hrev.mono hnow)
  obtain ⟨-, -, hvisitors, hidems, -⟩ := totals
  exact ⟨fun r hr => (hafter.room_read validated hr).1.sound,
    hafter.visitors_union validated hvisitors, hafter.idems_union validated hidems⟩

end Runs

def strayDb : QueueDb :=
  let db := stateAfter exec {}
    (sampleSteps.take 3 ++ [⟨1, "room", ⟨1000005, "primary"⟩, .upkeep (.recover "primary" true)⟩])
  { db with
    room := fun e r => { db.room e r with
      tickets := match (db.room e r).tickets.get sampleId with
        | none => ∅
        | some t => (db.room e r).tickets.put sampleId { t with admissionUntil := 2000000 } } }

def reviewSteps : List (Step Upkeep) :=
  let validate : Step Upkeep := ⟨1, "room", ⟨1090005, "primary"⟩, .validate "primary" 2⟩
  [validate, validate, validate]

theorem stray_run : Run execUpkeep (Reviewing 1) strayDb (eventsOf execUpkeep strayDb reviewSteps)
    (stateAfter execUpkeep strayDb reviewSteps) :=
  run_of_events strayDb (by decide +kernel)

def aheadDb : QueueDb :=
  { strayDb with
    inst := fun e => { strayDb.inst e with
      validated := (strayDb.inst e).validated.put "room" ⟨3, 1, 1⟩ }
    room := fun e r => { strayDb.room e r with
      waiting := ∅
      validation := some ⟨3, .done, 0, 0, 0, 0, 0⟩ } }

def aheadSteps : List (Step Upkeep) :=
  [⟨1, "room", ⟨1090005, "other"⟩, .recover "other" false⟩,
    ⟨1, "room", ⟨1180005, "other"⟩, .validate "other" 3⟩]

/-- The validator reads no end of admission of a waiting visitor, and it believes
progress fields that are ahead of the fence once a hold has reached theirs. -/
theorem corrupt_installations_validated :
    ((strayDb.inst 1).mode = .recoveryHold ∧ (strayDb.inst 1).fence = 2 ∧
      (strayDb.room 1 "room").validation = none ∧ (strayDb.inst 1).validated.get "room" = none ∧
      ((stateAfter execUpkeep strayDb reviewSteps).inst 1).mode = .active ∧
      (((stateAfter execUpkeep strayDb reviewSteps).room 1 "room").tickets.get sampleId).map
        (fun t => decide (1090005 < t.admissionUntil)) = some true) ∧
    (aheadDb.inst 1).mode = .recoveryHold ∧ (aheadDb.inst 1).fence = 2 ∧
      ((stateAfter execUpkeep aheadDb aheadSteps).inst 1).mode = .active ∧
      (((stateAfter execUpkeep aheadDb aheadSteps).room 1 "room").tickets.get sampleId).map
        Ticket.state = some .waiting ∧
      ((stateAfter execUpkeep aheadDb aheadSteps).room 1 "room").waiting.size = 0 := by
  decide +kernel

theorem stray_sound : (strayDb.inst 1).mode = .recoveryHold ∧
    ∃ c, ((stateAfter execUpkeep strayDb reviewSteps).room 1 "room").config = some c ∧
      RoomSound c 1090005 ((stateAfter execUpkeep strayDb reviewSteps).room 1 "room") := by
  have hrooms : (strayDb.inst 1).rooms = {"room"} := by decide +kernel
  have hprogress : (strayDb.room 1 "room").validation = none := by decide +kernel
  have hmark : (strayDb.inst 1).validated.get "room" = none := by decide +kernel
  have sound := validator_sound stray_run (by decide +kernel) (by simp [hrooms, hprogress])
    (by simp [hrooms, hmark]) (by decide +kernel)
  let last := eventOf execUpkeep (stateAfter execUpkeep strayDb (reviewSteps.take 2))
    ⟨1, "room", ⟨1090005, "primary"⟩, .validate "primary" 2⟩
  have hlast : last ∈ eventsOf execUpkeep strayDb reviewSteps :=
    List.mem_cons_of_mem _ (List.mem_cons_of_mem _ List.mem_cons_self)
  obtain ⟨rooms, -⟩ := sound last hlast (by decide +kernel) (by decide +kernel)
  exact ⟨by decide +kernel, rooms "room" (by decide +kernel)⟩

end WaitingRoom.Queue
