import WaitingRoom.Queue.System

/-!
# What the validator has read

The pages of a room follow one another in the ranking of its expiry set, and the
counters carried from page to page count the rows read so far. This module says
what a row has passed when its page did not fail, and what the counters are.
-/

namespace WaitingRoom.Queue

set_option autoImplicit false

def Progress.scan (p : Progress) : Scan := ⟨p.waiting, p.ready, p.leases, p.maxSeq⟩

section Tests

variable {T I : Type} {k : Keys T I} {now : Nat} {id : String} {x : Score} {s s' : Scan}

theorem ticketShape_eq_some {epoch : Nat} {j : Json} {t : TicketShape}
    (h : ticketShape epoch id j = some t) :
    hex64 id ∧ j.text "ID" = some id ∧ j.natural "Sequence" = some t.sequence ∧
      j.natural "IdleUntil" = some t.idleUntil ∧ j.natural "AbsoluteUntil" = some t.absoluteUntil := by
  unfold ticketShape at h
  split at h
  · rename_i hseq hjoined hidle habs
    split at h
    · rename_i hc
      obtain rfl := Option.some.inj h
      exact ⟨hc.1, hc.2.1, hseq, hidle, habs⟩
    · simp at h
  · simp at h

theorem admissionShape_eq_some {epoch : Nat} {t : TicketShape} {j : Json} {a : AdmissionShape}
    (h : admissionShape epoch now t j = some a) :
    j.natural "ReadyUntil" = some a.readyUntil ∧ j.natural "AdmissionUntil" = some a.admissionUntil ∧
      a.admissionUntil ≤ now := by
  unfold admissionShape at h
  split at h
  · rename_i hpromoted hready hadmission
    split at h
    · rename_i hc
      obtain rfl := Option.some.inj h
      exact ⟨hready, hadmission, hc.2.2.2.1⟩
    · simp at h
  · simp at h

theorem checkExpiry_eq_ok {d : Nat} (h : checkExpiry k id x d s = .ok s') :
    x = score d ∧ k.inst.visitorOwners.get (member k.room.room id) = some (score d) ∧ s' = s := by
  unfold checkExpiry at h
  split at h
  · simp at h
  · rename_i hc
    rw [not_or, not_not, not_not] at hc
    exact ⟨hc.1, hc.2, (Except.ok.inj h).symm⟩

theorem checkWaiting_eq_ok {t : TicketShape} (h : checkWaiting k id x t s = .ok s') :
    k.room.waiting.get id = some (score t.sequence) ∧
      k.room.waiting.count (fun y => decide (y = score t.sequence)) = 1 ∧
      k.room.leases.get id = none ∧ x = score (min t.idleUntil t.absoluteUntil : Nat) ∧
      k.inst.visitorOwners.get (member k.room.room id) =
        some (score (min t.idleUntil t.absoluteUntil : Nat)) ∧
      s' = { s with waiting := s.waiting + 1 } := by
  unfold checkWaiting at h
  split at h
  · simp at h
  · rename_i hc
    simp only [not_or, not_not, Bool.not_eq_true, Option.isSome_eq_false_iff,
      Option.isNone_iff_eq_none] at hc
    exact ⟨hc.1, hc.2.1, hc.2.2, checkExpiry_eq_ok h⟩

theorem checkLease_eq_ok {d : Nat} (h : checkLease k id x d s = .ok s') :
    k.room.leases.get id = some (score d) ∧ x = score d ∧
      k.inst.visitorOwners.get (member k.room.room id) = some (score d) ∧ s' = s := by
  unfold checkLease at h
  split at h
  · simp at h
  · rename_i hc
    exact ⟨not_not.mp hc, checkExpiry_eq_ok h⟩

variable (k) in
theorem currentProgress_fence : (currentProgress k).fence = k.inst.fence := by
  unfold currentProgress
  split
  · split
    · assumption
    · rfl
  · rfl

end Tests

section Rows

variable {T I : Type} [Decodes T]

def Room.row (r : Room T I) (id : String) : Option Json := (r.tickets.get id).bind Decodes.json

def Room.InState (r : Room T I) (st : TicketState) (id : String) : Prop :=
  (r.row id).bind (·.text "State") = some st.text
  deriving Decidable

def Room.sequenceOf (r : Room T I) (id : String) : Option Nat :=
  (r.row id).bind (·.natural "Sequence")

/-- The deadline of a decoded ticket in the state `st`. -/
def Json.deadline (clockSkew : Nat) (j : Json) : TicketState → Option Nat
  | .waiting =>
    match j.natural "IdleUntil", j.natural "AbsoluteUntil" with
    | some idle, some absolute => some (min idle absolute)
    | _, _ => none
  | .ready => j.natural "ReadyUntil"
  | .admitted => (j.natural "AdmissionUntil").map (· + clockSkew)

/-- What the validator has seen of a ticket whose turn did not fail. -/
structure RowPassed (k : Keys T I) (c : Config) (now : Nat) (id : String) (x : Score) (j : Json)
    (st : TicketState) (n d : Nat) : Prop where
  row : k.room.row id = some j
  named : j.text "ID" = some id
  hashed : hex64 id
  state : j.text "State" = some st.text
  sequence : j.natural "Sequence" = some n
  deadline : j.deadline c.clockSkew st = some d
  expiry : x = score d
  owner : k.inst.visitorOwners.get (member k.room.room id) = some (score d)
  waiting : k.room.waiting.get id = if st = .waiting then some (score n) else none
  leases : k.room.leases.get id = if st = .waiting then none else some (score d)
  distinct : st = .waiting → k.room.waiting.count (fun y => decide (y = score n)) = 1
  ended : st ≠ .waiting → ∃ a, j.natural "AdmissionUntil" = some a ∧ a ≤ now

def Passed (k : Keys T I) (c : Config) (now : Nat) (e : String × Score) : Prop :=
  ∃ j st n d, RowPassed k c now e.1 e.2 j st n d

def Scan.add (s : Scan) (st : TicketState) (n : Nat) : Scan where
  waiting := s.waiting + if st = .waiting then 1 else 0
  ready := s.ready + if st = .ready then 1 else 0
  leases := s.leases + if st = .waiting then 0 else 1
  maxSeq := max s.maxSeq n

variable {k : Keys T I} {c : Config} {now : Nat} {id : String} {x : Score} {s s' : Scan}

theorem checkTicket_eq_ok (h : checkTicket k c now id x s = .ok s') :
    ∃ j st n d, RowPassed k c now id x j st n d ∧ s' = s.add st n := by
  unfold checkTicket at h
  split at h
  · simp at h
  rename_i j row
  split at h
  · simp at h
  rename_i t shape
  obtain ⟨hhex, hid, hseq, hidle, habs⟩ := ticketShape_eq_some shape
  dsimp only at h
  split at h
  · rename_i hstate
    obtain ⟨hw, hone, hl, hx, howner, rfl⟩ := checkWaiting_eq_ok h
    refine ⟨j, .waiting, t.sequence, _, ⟨row, hid, hhex, hstate, hseq, ?_, hx, howner, hw, hl,
      fun _ => hone, fun h => absurd rfl h⟩, rfl⟩
    simp [Json.deadline, hidle, habs]
  split at h
  · rename_i hstates
    split at h
    · simp at h
    rename_i a ashape
    obtain ⟨hready, hadmission, hnow⟩ := admissionShape_eq_some ashape
    split at h
    · simp at h
    rename_i hnowait
    rw [Bool.not_eq_true, Option.isSome_eq_false_iff, Option.isNone_iff_eq_none] at hnowait
    split at h
    · rename_i hstate
      obtain ⟨hl, hx, howner, rfl⟩ := checkLease_eq_ok h
      exact ⟨j, .ready, t.sequence, a.readyUntil, ⟨row, hid, hhex, hstate, hseq, hready, hx, howner,
        hnowait, hl, fun h => absurd h (by simp), fun _ => ⟨_, hadmission, hnow⟩⟩, rfl⟩
    · rename_i hstate
      obtain ⟨hl, hx, howner, rfl⟩ := checkLease_eq_ok h
      refine ⟨j, .admitted, t.sequence, a.admissionUntil + c.clockSkew, ⟨row, hid, hhex,
        hstates.resolve_left hstate, hseq, ?_, hx, howner, hnowait, hl, fun h => absurd h (by simp),
        fun _ => ⟨_, hadmission, hnow⟩⟩, rfl⟩
      simp [Json.deadline, hadmission]
  · simp at h

/-- The counters are those of the rows `l`. -/
structure Tallied (r : Room T I) (l : List (String × Score)) (s : Scan) : Prop where
  waiting : s.waiting = l.countP fun e => decide (r.InState .waiting e.1)
  ready : s.ready = l.countP fun e => decide (r.InState .ready e.1)
  leases : s.leases = l.countP fun e => decide (¬ r.InState .waiting e.1)
  le_maxSeq : ∀ e ∈ l, ∀ n, r.sequenceOf e.1 = some n → n ≤ s.maxSeq
  maxSeq_mem : s.maxSeq = 0 ∨ ∃ e ∈ l, r.sequenceOf e.1 = some s.maxSeq

theorem Tallied.nil (r : Room T I) : Tallied r [] ⟨0, 0, 0, 0⟩ :=
  ⟨rfl, rfl, rfl, by simp, .inl rfl⟩

theorem TicketState.text_injective : Function.Injective TicketState.text := by
  intro st st' h
  cases st <;> cases st' <;> simp_all [TicketState.text]

theorem RowPassed.inState_iff {j : Json} {st : TicketState} {n d : Nat}
    (h : RowPassed k c now id x j st n d) (st' : TicketState) : k.room.InState st' id ↔ st = st' := by
  simp [Room.InState, h.row, h.state, TicketState.text_injective.eq_iff]

theorem Tallied.snoc {l : List (String × Score)} {j : Json} {st : TicketState} {n d : Nat}
    (ht : Tallied k.room l s) (h : RowPassed k c now id x j st n d) :
    Tallied k.room (l ++ [(id, x)]) (s.add st n) := by
  have hseq : k.room.sequenceOf id = some n := by simp [Room.sequenceOf, h.row, h.sequence]
  refine ⟨?_, ?_, ?_, ?_, ?_⟩
  · simp [Scan.add, ht.waiting, List.countP_append, h.inState_iff]
  · simp [Scan.add, ht.ready, List.countP_append, h.inState_iff]
  · cases st <;> simp [Scan.add, ht.leases, List.countP_append, h.inState_iff]
  · intro e he m hm
    rcases List.mem_append.mp he with he | he
    · exact le_max_of_le_left (ht.le_maxSeq e he m hm)
    · obtain rfl := List.mem_singleton.mp he
      obtain rfl := Option.some.inj (hseq.symm.trans hm)
      exact le_max_right _ _
  · rcases le_total s.maxSeq n with hle | hle
    · exact .inr ⟨(id, x), by simp, by simpa [Scan.add, hle] using hseq⟩
    · simp only [Scan.add, max_eq_left hle]
      rcases ht.maxSeq_mem with h0 | ⟨e, he, hm⟩
      · exact .inl h0
      · exact .inr ⟨e, List.mem_append_left _ he, hm⟩

theorem scanTickets_eq_ok {page l : List (String × Score)} (h : scanTickets k c now page s = .ok s')
    (ht : Tallied k.room l s) :
    Tallied k.room (l ++ page) s' ∧ ∀ e ∈ page, Passed k c now e := by
  induction page generalizing s l with
  | nil =>
    obtain rfl := Except.ok.inj h
    simpa using ht
  | cons e page ih =>
    unfold scanTickets at h
    split at h
    · simp at h
    · rename_i s₁ hcheck
      obtain ⟨j, st, n, d, hp, rfl⟩ := checkTicket_eq_ok hcheck
      obtain ⟨htally, hpage⟩ := ih h (ht.snoc hp)
      refine ⟨by simpa using htally, fun e' he' => ?_⟩
      rcases List.mem_cons.mp he' with rfl | he'
      · exact ⟨j, st, n, d, hp⟩
      · exact hpage e' he'

theorem scanTickets_setProgress (p : Progress) (page : List (String × Score)) (s : Scan) :
    scanTickets (setProgress k p) c now page s = scanTickets k c now page s := by
  induction page generalizing s with
  | nil => rfl
  | cons e page ih =>
    have hcheck : checkTicket (setProgress k p) c now e.1 e.2 s = checkTicket k c now e.1 e.2 s := rfl
    simp only [scanTickets, hcheck, ih]

theorem Passed.mono {e : String × Score} {now' : Nat} (h : Passed k c now e) (hle : now ≤ now') :
    Passed k c now' e := by
  obtain ⟨j, st, n, d, h⟩ := h
  refine ⟨j, st, n, d, { h with ended := fun hst => ?_ }⟩
  obtain ⟨a, ha, hnow⟩ := h.ended hst
  exact ⟨a, ha, hnow.trans hle⟩

end Rows

section Items

variable {T I : Type}

/-- What the validator has seen of an idempotency row whose turn did not fail. -/
structure ItemPassed (k : Keys T I) (e : String × Score) : Prop where
  row : ∃ i, k.room.idem.get e.1 = some i
  hashed : hex64 e.1
  owner : k.inst.idemOwners.get (member k.room.room e.1) = some e.2

variable [Decodes I] {k : Keys T I} {c : Config}

theorem checkIdem_eq_ok {id : String} {x : Score} (h : checkIdem k c id x = .ok ()) :
    ItemPassed k (id, x) := by
  unfold checkIdem at h
  split at h
  · simp at h
  rename_i j row
  split at h
  · split at h
    · rename_i hc
      obtain ⟨i, hi, -⟩ := Option.bind_eq_some_iff.mp row
      exact ⟨⟨i, hi⟩, hc.1, hc.2.2.2.2⟩
    · simp at h
  · simp at h

theorem scanIdems_eq_ok {page : List (String × Score)} (h : scanIdems k c page = .ok ()) :
    ∀ e ∈ page, ItemPassed k e := by
  induction page with
  | nil => simp
  | cons e page ih =>
    unfold scanIdems at h
    split at h
    · simp at h
    · rename_i hcheck
      intro e' he'
      rcases List.mem_cons.mp he' with rfl | he'
      · exact checkIdem_eq_ok hcheck
      · exact ih h e' he'

theorem scanIdems_setProgress (p : Progress) (page : List (String × Score)) :
    scanIdems (setProgress k p) c page = scanIdems k c page := by
  induction page with
  | nil => rfl
  | cons e page ih =>
    have hcheck : checkIdem (setProgress k p) c e.1 e.2 = checkIdem k c e.1 e.2 := rfl
    simp only [scanIdems, hcheck, ih]

end Items

end WaitingRoom.Queue
