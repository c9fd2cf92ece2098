import WaitingRoom.Shared.Ranking

/-!
# The reference model of the queue

`internal/queue/model` and the FIFO policy it promotes with: one room, one
thread, and tickets that stay in the table as EXPIRED when their time is over.
Times are milliseconds in an `int64`, and a sum of them wraps around. The numbers
of tickets and epochs are exact: the table keeps every ticket of an epoch, so that
there is no room for 2^64 of them.
-/

namespace WaitingRoom.Reference

set_option autoImplicit false

structure Config where
  visitorCap : ℤ
  idempotencyCap : ℤ
  leaseCap : ℤ
  rate : ℤ
  idleTTL : Int64
  ticketTTL : Int64
  readyTTL : Int64
  admissionTTL : Int64
  idempotencyTTL : Int64
  clockSkew : Int64
deriving DecidableEq, Repr

/-- What `New` accepts. -/
def Config.Valid (c : Config) : Prop :=
  ¬ (c.visitorCap ≤ 0 ∨ c.idempotencyCap ≤ 0 ∨ c.leaseCap ≤ 0 ∨ c.visitorCap < c.leaseCap ∨
    c.rate ≤ 0 ∨ c.idleTTL ≤ 0 ∨ c.ticketTTL < c.idleTTL ∨ c.readyTTL ≤ 0 ∨
    c.admissionTTL < 60000 ∨ 60 * 60000 < c.admissionTTL ∨ c.idempotencyTTL ≤ 0 ∨
    c.clockSkew < 0 ∨ 30000 < c.clockSkew)
  deriving Decidable

/-- `unset` is the empty text of a ticket that is not there. -/
inductive State
  | unset
  | waiting
  | ready
  | admitted
  | expired
deriving DecidableEq, Repr

inductive Mode
  | auto
  | hold
  | draining
  | recovery
deriving DecidableEq, Repr

inductive Error
  | capacity
  | conflict
  | expired
  | notReady
  | unavailable
  | drain
  | clock
  | argument
  | config
deriving DecidableEq, Repr

/-- `PromotedAt` is only written by the store. -/
structure Ticket where
  id : String
  sequence : Nat
  state : State
  epoch : Nat
  joinedAt : Int64
  idleUntil : Int64
  absoluteUntil : Int64
  readyUntil : Int64 := 0
  admissionUntil : Int64 := 0
  jti : String := ""
deriving DecidableEq, Repr

def Ticket.zero : Ticket := ⟨"", 0, .unset, 0, 0, 0, 0, 0, 0, ""⟩

structure Idem where
  id : String
  fingerprint : String
  «until» : Int64
deriving DecidableEq, Repr

structure Promotion where
  id : String
  sequence : Nat
  «at» : Int64
  epoch : Nat
deriving DecidableEq, Repr

structure Model where
  config : Config
  now : Int64 := 0
  epoch : Nat := 1
  sequence : Nat := 0
  mode : Mode := .auto
  unsafeUntil : Int64 := 0
  cutoff : Nat := 0
  tickets : Table String Ticket := ∅
  idempotency : Table String Idem := ∅
  rateTimes : List Int64 := []
  promotions : List Promotion := []

section Policy

structure Candidate where
  id : String
  sequence : Nat
  expiresAt : Int64
deriving DecidableEq, Repr

/-- The order of `Eligible`. -/
def Candidate.Before (a b : Candidate) : Prop :=
  a.sequence < b.sequence ∨ (a.sequence = b.sequence ∧ a.id ≤ b.id)

instance : DecidableRel Candidate.Before := fun _ _ => inferInstanceAs (Decidable (_ ∨ _ ∧ _))

def eligible (candidates : List Candidate) (now : Int64) (limit : ℤ) : List Candidate :=
  if limit ≤ 0 then []
  else ((candidates.filter fun c => decide (now < c.expiresAt)).insertionSort Candidate.Before).take
    limit.toNat

end Policy

namespace Model

def new (c : Config) : Except Error Model :=
  if c.Valid then .ok { config := c } else .error .config

/-- The state of a ticket when the time is `now`. -/
def lapse (c : Config) (now : Int64) (t : Ticket) : Ticket :=
  match t.state with
  | .waiting => if min t.idleUntil t.absoluteUntil ≤ now then { t with state := .expired } else t
  | .ready => if t.readyUntil ≤ now then { t with state := .expired } else t
  -- capacity is kept until the verifiers' clock skew is over
  | .admitted => if t.admissionUntil + c.clockSkew ≤ now then { t with state := .expired } else t
  | .expired | .unset => t

def advanced (m : Model) (now : Int64) : Model :=
  { m with
    now := now
    tickets := m.tickets.mapVals (lapse m.config now)
    idempotency := m.idempotency.keep fun i => decide (now < i.until)
    rateTimes := m.rateTimes.dropWhile fun t => decide (t ≤ now - 60000) }

def advance (m : Model) (now : Int64) : Except Error Model :=
  if now < m.now then .error .clock else .ok (m.advanced now)

def visitorCount (m : Model) : Nat := m.tickets.count fun t => decide (t.state ≠ .expired)

def leaseCount (m : Model) : Nat :=
  m.tickets.count fun t => decide (t.state = .ready ∨ t.state = .admitted)

def ticketId (epoch sequence : Nat) : String := toString epoch ++ ":" ++ toString sequence

def newTicket (m : Model) : Ticket where
  id := ticketId m.epoch (m.sequence + 1)
  sequence := m.sequence + 1
  state := .waiting
  epoch := m.epoch
  joinedAt := m.now
  idleUntil := m.now + m.config.idleTTL
  absoluteUntil := m.now + m.config.ticketTTL

def joined (m : Model) (key fingerprint : String) : Model :=
  let t := m.newTicket
  let i : Idem := ⟨t.id, fingerprint, m.now + m.config.idempotencyTTL⟩
  { m with
    sequence := m.sequence + 1
    tickets := m.tickets.put t.id t
    idempotency := m.idempotency.put key i }

def join (m : Model) (key fingerprint : String) : Except Error Ticket × Model :=
  if key = "" ∨ fingerprint = "" then (.error .argument, m)
  else
    match m.idempotency.get key with
    | some old =>
      if old.fingerprint ≠ fingerprint then (.error .conflict, m)
      else (.ok ((m.tickets.get old.id).getD .zero), m)
    | none =>
      if m.mode = .recovery then (.error .unavailable, m)
      else if m.mode = .draining then (.error .drain, m)
      else if m.config.visitorCap ≤ m.visitorCount ∨
          m.config.idempotencyCap ≤ m.idempotency.size then (.error .capacity, m)
      else (.ok m.newTicket, m.joined key fingerprint)

def status (m : Model) (id : String) : Except Error Ticket :=
  match m.tickets.get id with
  | none => .error .expired
  | some t => if t.state = .expired then .error .expired else .ok t

def heartbeat (m : Model) (id : String) : Except Error Unit × Model :=
  match m.status id with
  | .error e => (.error e, m)
  | .ok t =>
    if m.mode = .recovery then (.error .unavailable, m)
    else if t.state = .waiting then
      let t := { t with idleUntil := min (m.now + m.config.idleTTL) t.absoluteUntil }
      (.ok (), { m with tickets := m.tickets.put id t })
    else (.ok (), m)

def candidates (m : Model) : List Candidate :=
  (m.tickets.rows.filter fun r => decide (r.2.state = .waiting ∧
      (m.mode ≠ .draining ∨ r.2.sequence ≤ m.cutoff))).map
    fun r => ⟨r.2.id, r.2.sequence, min r.2.idleUntil r.2.absoluteUntil⟩

def promoted (c : Config) (now : Int64) (t : Ticket) : Ticket :=
  { t with
    state := .ready
    admissionUntil := now + c.admissionTTL
    readyUntil := min (now + c.readyTTL) (now + c.admissionTTL)
    jti := "admission:" ++ t.id }

/-- One turn of the loop of `Promote`. -/
def promoteOne (m : Model) (t : Ticket) : Model :=
  { m with
    tickets := m.tickets.put t.id t
    rateTimes := m.rateTimes ++ [m.now]
    promotions := m.promotions ++ [⟨t.id, t.sequence, m.now, t.epoch⟩] }

def promoteAll : List Candidate → Model → List Ticket × Model
  | [], m => ([], m)
  | c :: cs, m =>
    let t := promoted m.config m.now ((m.tickets.get c.id).getD .zero)
    let r := promoteAll cs (m.promoteOne t)
    (t :: r.1, r.2)

def budget (m : Model) (limit : ℤ) : ℤ :=
  min limit (min (m.config.leaseCap - m.leaseCount) (m.config.rate - m.rateTimes.length))

def promote (m : Model) (limit : ℤ) : List Ticket × Model :=
  if m.mode ≠ .auto ∧ m.mode ≠ .draining then ([], m)
  else if m.budget limit ≤ 0 then ([], m)
  else promoteAll (eligible m.candidates m.now (m.budget limit)) m

def claim (m : Model) (id : String) : Except Error Ticket × Model :=
  match m.status id with
  | .error e => (.error e, m)
  | .ok t =>
    if m.mode = .recovery then (.error .unavailable, m)
    else if t.state = .admitted then
      if t.admissionUntil ≤ m.now then (.error .expired, m) else (.ok t, m)
    else if t.state ≠ .ready then (.error .notReady, m)
    else
      let t := { t with state := .admitted }
      (.ok t, { m with tickets := m.tickets.put id t })

def setHold (m : Model) (hold : Bool) : Except Error Model :=
  if m.mode = .recovery then .error .unavailable
  else .ok { m with mode := if hold then .hold else .auto }

def drain (m : Model) : Except Error Model :=
  if m.mode = .recovery then .error .unavailable
  else .ok { m with mode := .draining, cutoff := m.sequence }

def uncertain (m : Model) : Model :=
  { m with
    mode := .recovery
    unsafeUntil := max m.unsafeUntil (m.now +
      max m.config.admissionTTL (max m.config.readyTTL 60000) + m.config.clockSkew) }

def resume (m : Model) (verified : Bool) : Except Error Model :=
  if m.mode ≠ .recovery ∨ verified = false ∨ m.now < m.unsafeUntil then .error .unavailable
  else .ok { m with mode := .auto }

def newEpoch (m : Model) : Model :=
  { m with
    epoch := m.epoch + 1
    sequence := 0
    tickets := ∅
    idempotency := ∅
    rateTimes := []
    unsafeUntil := 0
    mode := .hold }

end Model

inductive Heard
  | ticket (r : Except Error Ticket)
  | tickets (ts : List Ticket)
  | done (r : Except Error Unit)
  | time (t : Int64)

def switched (m : Model) : Except Error Model → Heard × Model
  | .ok m' => (.done (.ok ()), m')
  | .error e => (.done (.error e), m)

section Facts

theorem ticketId_injective (epoch : Nat) : Function.Injective (Model.ticketId epoch) := by
  intro m n h
  have h := congrArg String.toList h
  simp only [Model.ticketId, String.toList_append] at h
  have hdigits := congrArg (Nat.ofDigitChars 10 · 0) (List.append_cancel_left h)
  simpa [Nat.toString_eq_ofList_toDigits, Nat.ofDigitChars_toDigits] using hdigits

section Sums

variable {a b : Int64}

theorem toInt_add_of_lt (ha : 0 ≤ a.toInt) (hb : 0 ≤ b.toInt) (h : a.toInt + b.toInt < 2 ^ 63) :
    (a + b).toInt = a.toInt + b.toInt := by
  rw [Int64.toInt_add]
  exact Int.bmod_eq_of_le (by omega) (by omega)

theorem toInt_sub_of_le (ha : 0 ≤ a.toInt) (hb : 0 ≤ b.toInt) :
    (a - b).toInt = a.toInt - b.toInt := by
  have halt := a.toInt_lt
  have hblt := b.toInt_lt
  rw [Int64.toInt_sub]
  exact Int.bmod_eq_of_le (by omega) (by omega)

theorem toInt_min (a b : Int64) : (min a b).toInt = min a.toInt b.toInt := by
  have hmin : min a b = if a ≤ b then a else b := rfl
  rw [hmin]
  split
  · rename_i h
    exact (min_eq_left (Int64.le_iff_toInt_le.mp h)).symm
  · rename_i h
    rw [Int64.le_iff_toInt_le] at h
    exact (min_eq_right (by omega)).symm

theorem toInt_max (a b : Int64) : (max a b).toInt = max a.toInt b.toInt := by
  have hmax : max a b = if a ≤ b then b else a := rfl
  rw [hmax]
  split
  · rename_i h
    exact (max_eq_right (Int64.le_iff_toInt_le.mp h)).symm
  · rename_i h
    rw [Int64.le_iff_toInt_le] at h
    exact (max_eq_left (by omega)).symm

end Sums

theorem dropWhile_eq_filter {now : Int64} (started : 0 ≤ now.toInt) {ts : List Int64}
    (h : ts.Pairwise fun a b => a.toInt ≤ b.toInt) :
    (ts.dropWhile fun t => decide (t ≤ now - 60000)) =
      ts.filter fun t => decide (now.toInt < t.toInt + 60000) := by
  have hminute : (fun t : Int64 => decide (t ≤ now - 60000)) =
      fun t : Int64 => decide (t.toInt + 60000 ≤ now.toInt) := by
    funext t
    rw [decide_eq_decide, Int64.le_iff_toInt_le, toInt_sub_of_le started (by decide)]
    exact le_sub_iff_add_le
  rw [hminute]
  induction ts with
  | nil => rfl
  | cons t ts ih =>
    obtain ⟨hle, hts⟩ := List.pairwise_cons.mp h
    by_cases hd : t.toInt + 60000 ≤ now.toInt
    · rw [List.dropWhile_cons_of_pos (by simpa using hd), ih hts,
        List.filter_cons_of_neg (by simpa using hd)]
    · rw [List.dropWhile_cons_of_neg (by simpa using hd), List.filter_eq_self.mpr]
      intro a ha
      rcases List.mem_cons.mp ha with rfl | ha
      · simpa using hd
      · have := hle a ha
        simp only [decide_eq_true_eq]
        omega

theorem Candidate.Before.sequence_le {a b : Candidate} (h : a.Before b) : a.sequence ≤ b.sequence := by
  rcases h with h | ⟨h, -⟩
  · exact h.le
  · exact h.le

instance : Std.Total Candidate.Before := ⟨fun a b => by
  rcases lt_trichotomy a.sequence b.sequence with h | h | h
  · exact .inl (.inl h)
  · rcases le_total a.id b.id with hid | hid
    · exact .inl (.inr ⟨h, hid⟩)
    · exact .inr (.inr ⟨h.symm, hid⟩)
  · exact .inr (.inl h)⟩

instance : IsTrans Candidate Candidate.Before := ⟨fun a b c hab hbc => by
  rcases hab with hab | ⟨hab, hid⟩
  · exact .inl (hab.trans_le hbc.sequence_le)
  · rcases hbc with hbc | ⟨hbc, hid'⟩
    · exact .inl (hab.trans_lt hbc)
    · exact .inr ⟨hab.trans hbc, hid.trans hid'⟩⟩

end Facts

end WaitingRoom.Reference
