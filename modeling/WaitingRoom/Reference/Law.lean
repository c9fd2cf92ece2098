import WaitingRoom.Reference.Model
import WaitingRoom.Shared.Run

/-!
# The laws of the reference model

The model is what the stores are compared with, so its own laws are worth as much as
theirs. A run makes any calls in any order. The promotions of an epoch keep the order of
the sequences; the caps follow from the budget of `Promote` and the check of `Join`.

A deadline that wraps around lies in the past. A waiting ticket with such a deadline is
never promoted, so that the order and the caps do not depend on it; the deadline of an
interruption does, and a resume is only safe if that one does not wrap.
-/

namespace WaitingRoom.Reference

set_option autoImplicit false

section Machine

inductive Request
  | advance (time : Int64)
  | join (key fingerprint : String)
  | heartbeat (id : String)
  | promote (limit : ℤ)
  | claim (id : String)
  | setHold (hold : Bool)
  | drain
  | uncertain
  | resume (verified : Bool)
  | newEpoch
deriving DecidableEq, Repr

namespace Model

def exec (m : Model) : Request → Heard × Model
  | .advance time => switched m (m.advance time)
  | .join key fingerprint => (.ticket (m.join key fingerprint).1, (m.join key fingerprint).2)
  | .heartbeat id => (.done (m.heartbeat id).1, (m.heartbeat id).2)
  | .promote limit => (.tickets (m.promote limit).1, (m.promote limit).2)
  | .claim id => (.ticket (m.claim id).1, (m.claim id).2)
  | .setHold hold => switched m (m.setHold hold)
  | .drain => switched m m.drain
  | .uncertain => (.time m.uncertain.unsafeUntil, m.uncertain)
  | .resume verified => switched m (m.resume verified)
  | .newEpoch => (.done (.ok ()), m.newEpoch)

end Model

abbrev ModelEvent := Event Model Request Heard

abbrev ModelRun (m₀ : Model) : List ModelEvent → Model → Prop :=
  Run Model.exec (fun _ _ => True) m₀

/-- `Uncertain` at this time computes its deadline without a wrap. -/
def Config.Fits (c : Config) (now : Int64) : Prop :=
  now.toInt + max c.admissionTTL.toInt (max c.readyTTL.toInt 60000) + c.clockSkew.toInt < 2 ^ 63
  deriving Decidable

end Machine

section Lawful

def Ticket.Leased (t : Ticket) : Prop := t.state = .ready ∨ t.state = .admitted
  deriving Decidable

/-- When `Advance` turns a live ticket into an expired one. -/
def Ticket.lapses (c : Config) (t : Ticket) : Int64 :=
  match t.state with
  | .waiting => min t.idleUntil t.absoluteUntil
  | .ready => t.readyUntil
  | .admitted | .expired | .unset => t.admissionUntil + c.clockSkew

/-- The times of a ticket that was promoted at `p`. -/
structure Ticket.Promoted (c : Config) (now : Int64) (t : Ticket) (p : Int64) : Prop where
  started : 0 ≤ p.toInt
  past : p.toInt ≤ now.toInt
  admission : t.admissionUntil = p + c.admissionTTL
  ready : t.readyUntil = min (p + c.readyTTL) (p + c.admissionTTL)
  live : c.Fits p → now < t.lapses c

/-- What the row of a ticket keeps. A waiting ticket whose time is over before an
`Advance` has seen it got it by a wrap. -/
structure Model.Row (m : Model) (id : String) (t : Ticket) : Prop where
  own : t.id = id
  name : id = ticketId m.epoch t.sequence
  epoch : t.epoch = m.epoch
  numbered : t.sequence ≤ m.sequence
  wrapped : t.state = .waiting → m.now < t.lapses m.config ∨ ¬ m.now < t.absoluteUntil ∨
    ¬ m.now < m.now + m.config.idleTTL
  leased : t.Leased → ∃ p, t.Promoted m.config m.now p
  behind : t.state = .waiting → m.now < t.lapses m.config →
    ∀ p ∈ m.promotions, p.epoch = m.epoch → p.sequence < t.sequence

/-- The promotions of an epoch in the minute that ends at `t`. -/
def Model.inWindow (m : Model) (epoch : Nat) (t : ℤ) : Nat :=
  m.promotions.countP fun p => decide (p.epoch = epoch ∧ t - 60000 < p.at.toInt ∧ p.at.toInt ≤ t)

structure Model.Past (m : Model) (p : Promotion) : Prop where
  time : p.at.toInt ≤ m.now.toInt
  name : p.id = ticketId p.epoch p.sequence
  epoch : p.epoch ≤ m.epoch
  numbered : p.epoch = m.epoch → p.sequence ≤ m.sequence

def Promotion.Before (p q : Promotion) : Prop :=
  p.at.toInt ≤ q.at.toInt ∧ (p.epoch = q.epoch → p.sequence < q.sequence)

def Model.reservations (m : Model) : List Int64 :=
  (m.promotions.filter fun p => decide (p.epoch = m.epoch ∧ m.now.toInt < p.at.toInt + 60000)).map
    Promotion.at

structure Model.Lawful (m : Model) : Prop where
  started : 0 ≤ m.now.toInt
  rows : ∀ id t, m.tickets.get id = some t → m.Row id t
  leases : m.leaseCount ≤ m.config.leaseCap
  visitors : m.visitorCount ≤ m.config.visitorCap
  rate : m.rateTimes.length ≤ m.config.rate
  reserved : m.rateTimes = m.reservations
  past : ∀ p ∈ m.promotions, m.Past p
  ordered : m.promotions.Pairwise Promotion.Before
  windows : ∀ e t, m.inWindow e t ≤ m.config.rate

theorem Config.Valid.ttl {c : Config} (valid : c.Valid) : 0 < c.readyTTL.toInt ∧
    60000 ≤ c.admissionTTL.toInt ∧ 0 ≤ c.clockSkew.toInt := by
  simp only [Config.Valid, not_or, Int64.le_iff_toInt_le, Int64.lt_iff_toInt_lt, not_le, not_lt] at valid
  obtain ⟨-, -, -, -, -, -, -, hready, hadmission, -, -, hskew, -⟩ := valid
  exact ⟨hready, hadmission, hskew⟩

theorem Ticket.Promoted.exact {c : Config} {now p : Int64} {t : Ticket}
    (h : t.Promoted c now p) (valid : c.Valid) (fits : c.Fits p) :
    t.readyUntil.toInt ≤ t.admissionUntil.toInt ∧
      t.admissionUntil.toInt = p.toInt + c.admissionTTL.toInt ∧
      (t.admissionUntil + c.clockSkew).toInt = t.admissionUntil.toInt + c.clockSkew.toInt := by
  obtain ⟨hready, hadmission, hskew⟩ := valid.ttl
  unfold Config.Fits at fits
  have hstarted := h.started
  have hsum : t.admissionUntil.toInt = p.toInt + c.admissionTTL.toInt := by
    rw [h.admission]
    exact toInt_add_of_lt hstarted (by omega) (by omega)
  refine ⟨?_, hsum, toInt_add_of_lt (by omega) hskew (by omega)⟩
  rw [h.ready, ← h.admission, toInt_min]
  exact min_le_right _ _

theorem Model.new_eq_ok {c : Config} {m : Model} (h : Model.new c = .ok m) :
    c.Valid ∧ m = { config := c } := by
  unfold Model.new at h
  split at h
  · rename_i valid
    exact ⟨valid, (Except.ok.inj h).symm⟩
  · cases h

theorem Model.lawful_new {c : Config} (valid : c.Valid) : Model.Lawful { config := c } := by
  unfold Config.Valid at valid
  refine ⟨le_rfl, nofun, ?_, ?_, ?_, rfl, nofun, .nil, fun _ _ => ?_⟩
  · show (0 : ℤ) ≤ c.leaseCap
    omega
  · show (0 : ℤ) ≤ c.visitorCap
    omega
  · show (0 : ℤ) ≤ c.rate
    omega
  · show (0 : ℤ) ≤ c.rate
    omega

end Lawful

namespace Model

variable {m m' : Model} {id : String} {t : Ticket}

theorem Row.mono (h : m.Row id t) (config : m'.config = m.config) (now : m'.now = m.now)
    (epoch : m'.epoch = m.epoch) (sequence : m.sequence ≤ m'.sequence)
    (promotions : m'.promotions = m.promotions) : m'.Row id t where
  own := h.own
  name := epoch ▸ h.name
  epoch := h.epoch.trans epoch.symm
  numbered := h.numbered.trans sequence
  wrapped := by
    rw [config, now]
    exact h.wrapped
  leased := by
    rw [config, now]
    exact h.leased
  behind := by
    rw [config, now, promotions, epoch]
    exact h.behind

/-- A model that differs in its rows, its mode and the number of tickets given out is
lawful if its rows and counts are. -/
theorem Lawful.mono (h : m.Lawful) (config : m'.config = m.config) (now : m'.now = m.now)
    (epoch : m'.epoch = m.epoch) (sequence : m.sequence ≤ m'.sequence)
    (promotions : m'.promotions = m.promotions) (rateTimes : m'.rateTimes = m.rateTimes)
    (rows : ∀ id t, m'.tickets.get id = some t → m'.Row id t)
    (leases : m'.leaseCount ≤ m.config.leaseCap)
    (visitors : m'.visitorCount ≤ m.config.visitorCap) : m'.Lawful where
  started := now ▸ h.started
  rows := rows
  leases := config ▸ leases
  visitors := config ▸ visitors
  rate := by
    rw [rateTimes, config]
    exact h.rate
  reserved := by
    rw [rateTimes, h.reserved, reservations, reservations, promotions, epoch, now]
  past := by
    rw [promotions]
    intro p hp
    have hpast := h.past p hp
    refine ⟨now ▸ hpast.time, hpast.name, epoch ▸ hpast.epoch, ?_⟩
    rw [epoch]
    exact fun he => (hpast.numbered he).trans sequence
  ordered := promotions ▸ h.ordered
  windows := by
    intro e t
    rw [inWindow, promotions, config]
    exact h.windows e t

theorem Lawful.put (h : m.Lawful) {old new : Ticket} (hold : m.tickets.get id = some old)
    (row : m.Row id new) (lease : new.Leased → old.Leased)
    (visitor : new.state ≠ .expired → old.state ≠ .expired) :
    { m with tickets := m.tickets.put id new }.Lawful := by
  refine h.mono rfl rfl rfl le_rfl rfl rfl ?_ ?_ ?_
  · intro id' t ht
    dsimp only at ht
    rw [Table.get_put] at ht
    split at ht
    · rename_i heq
      obtain rfl := Option.some.inj ht
      rw [heq]
      exact row.mono rfl rfl rfl le_rfl rfl
    · exact (h.rows id' t ht).mono rfl rfl rfl le_rfl rfl
  · refine le_trans (Int.ofNat_le.mpr (Table.count_put_le_of_imp hold fun hn => ?_)) h.leases
    exact decide_eq_true (lease (of_decide_eq_true hn))
  · refine le_trans (Int.ofNat_le.mpr (Table.count_put_le_of_imp hold fun hn => ?_)) h.visitors
    exact decide_eq_true (visitor (of_decide_eq_true hn))

section Advance

variable {c : Config} {now : Int64}

theorem lapse_cases (c : Config) (now : Int64) (t : Ticket) :
    lapse c now t = { t with state := .expired } ∨
      (lapse c now t = t ∧ (t.state = .waiting ∨ t.Leased → now < t.lapses c)) := by
  unfold lapse Ticket.lapses Ticket.Leased
  rcases hs : t.state with - | - | - | - | - <;> dsimp only
  · exact .inr ⟨rfl, by simp⟩
  · split
    · exact .inl rfl
    · rename_i hlive
      exact .inr ⟨rfl, fun _ => Int64.not_le.mp hlive⟩
  · split
    · exact .inl rfl
    · rename_i hlive
      exact .inr ⟨rfl, fun _ => Int64.not_le.mp hlive⟩
  · split
    · exact .inl rfl
    · rename_i hlive
      exact .inr ⟨rfl, fun _ => Int64.not_le.mp hlive⟩
  · exact .inr ⟨rfl, by simp⟩

theorem Row.advanced (h : m.Row id t) (hle : m.now.toInt ≤ now.toInt) :
    (m.advanced now).Row id (lapse m.config now t) := by
  rcases lapse_cases m.config now t with heq | ⟨heq, live⟩
  · rw [heq]
    exact ⟨h.own, h.name, h.epoch, h.numbered, by simp, by simp [Ticket.Leased], by simp⟩
  · rw [heq]
    refine ⟨h.own, h.name, h.epoch, h.numbered, fun hw => .inl (live (.inl hw)), fun hl => ?_,
      fun hw hlive => ?_⟩
    · obtain ⟨p, hp⟩ := h.leased hl
      exact ⟨p, hp.started, hp.past.trans hle, hp.admission, hp.ready, fun _ => live (.inr hl)⟩
    · -- what is alive now was alive before
      refine h.behind hw ?_
      rw [Int64.lt_iff_toInt_lt] at hlive ⊢
      exact lt_of_le_of_lt hle hlive

theorem reservations_sorted (h : m.Lawful) :
    m.reservations.Pairwise fun a b => a.toInt ≤ b.toInt :=
  ((h.ordered.filter _).map _ fun _ _ hb => hb.1)

theorem Lawful.advanced (h : m.Lawful) (hle : m.now.toInt ≤ now.toInt) :
    (m.advanced now).Lawful where
  started := h.started.trans hle
  rows := by
    intro id t ht
    rw [Model.advanced, Table.get_mapVals] at ht
    obtain ⟨t', ht', rfl⟩ := Option.map_eq_some_iff.mp ht
    exact (h.rows id t' ht').advanced hle
  leases := by
    refine le_trans (Int.ofNat_le.mpr (Table.count_mapVals_le (fun t ht => ?_) m.tickets)) h.leases
    rcases lapse_cases m.config now t with heq | ⟨heq, -⟩
    · simp [heq] at ht
    · rwa [heq] at ht
  visitors := by
    refine le_trans (Int.ofNat_le.mpr (Table.count_mapVals_le (fun t ht => ?_) m.tickets)) h.visitors
    rcases lapse_cases m.config now t with heq | ⟨heq, -⟩
    · simp [heq] at ht
    · rwa [heq] at ht
  rate := le_trans (Int.ofNat_le.mpr (List.dropWhile_sublist _).length_le) h.rate
  reserved := by
    have hsorted := h.reserved ▸ reservations_sorted h
    rw [Model.advanced, reservations]
    dsimp only
    rw [dropWhile_eq_filter (h.started.trans hle) hsorted, h.reserved, reservations, List.filter_map,
      List.filter_filter]
    congr 1
    apply List.filter_congr
    intro p _
    simp only [Function.comp_apply, ← Bool.decide_and, decide_eq_decide]
    omega
  past := by
    intro p hp
    have hpast := h.past p hp
    exact ⟨hpast.time.trans hle, hpast.name, hpast.epoch, hpast.numbered⟩
  ordered := h.ordered
  windows := h.windows

end Advance

section Single

variable {key fingerprint : String}

theorem Lawful.joined (h : m.Lawful) (room : m.visitorCount < m.config.visitorCap) :
    (m.joined key fingerprint).Lawful := by
  refine h.mono rfl rfl rfl (Nat.le_succ _) rfl rfl ?_ ?_ ?_
  · intro id t ht
    rw [Model.joined, Table.get_put] at ht
    split at ht
    · rename_i heq
      obtain rfl := Option.some.inj ht
      refine ⟨heq.symm, heq, rfl, le_rfl, fun _ => ?_, by simp [newTicket, Ticket.Leased], ?_⟩
      · show m.now < min (m.now + m.config.idleTTL) (m.now + m.config.ticketTTL) ∨
          ¬ m.now < m.now + m.config.ticketTTL ∨ ¬ m.now < m.now + m.config.idleTTL
        simp only [Int64.lt_iff_toInt_lt, toInt_min]
        omega
      · -- every promotion of the epoch has a number that was given out before
        intro _ _ p hp he
        exact Nat.lt_succ_of_le ((h.past p hp).numbered he)
    · exact (h.rows id t ht).mono rfl rfl rfl (Nat.le_succ _) rfl
  · exact le_trans (Int.ofNat_le.mpr (Table.count_put_le _ _ _ _)) h.leases
  · exact le_trans (Int.ofNat_le.mpr (Table.count_put_le _ _ _ _)) room

theorem Lawful.join (h : m.Lawful) : (m.join key fingerprint).2.Lawful := by
  unfold Model.join
  split
  · exact h
  split
  · split
    · exact h
    · exact h
  · split
    · exact h
    split
    · exact h
    split
    · exact h
    · rename_i room
      exact h.joined (by omega)

theorem status_eq_ok (h : m.status id = .ok t) : m.tickets.get id = some t ∧ t.state ≠ .expired := by
  unfold status at h
  split at h
  · cases h
  · rename_i t' ht'
    split at h
    · cases h
    · rename_i hs
      cases h
      exact ⟨ht', hs⟩

theorem Lawful.heartbeat (h : m.Lawful) (id : String) : (m.heartbeat id).2.Lawful := by
  unfold Model.heartbeat
  split
  · exact h
  rename_i t hstatus
  obtain ⟨ht, hs⟩ := status_eq_ok hstatus
  split
  · exact h
  split
  · rename_i hw
    have row := h.rows id t ht
    have hwrapped := row.wrapped hw
    have hlapses : t.lapses m.config = min t.idleUntil t.absoluteUntil := by
      unfold Ticket.lapses
      rw [hw]
    have hlapses' : { t with idleUntil := min (m.now + m.config.idleTTL) t.absoluteUntil }.lapses
        m.config = min (min (m.now + m.config.idleTTL) t.absoluteUntil) t.absoluteUntil := by
      unfold Ticket.lapses
      rw [hw]
    simp only [hlapses, Int64.lt_iff_toInt_lt, toInt_min] at hwrapped
    refine h.put ht ⟨row.own, row.name, row.epoch, row.numbered, fun _ => ?_, ?_, fun _ hlive => ?_⟩
      (fun hl => hl) (fun _ => hs)
    · rw [hlapses']
      simp only [Int64.lt_iff_toInt_lt, toInt_min]
      omega
    · rintro (hl | hl) <;> cases hw.symm.trans hl
    · -- a ticket that lives after the call lived before it
      rw [hlapses'] at hlive
      refine row.behind hw ?_
      rw [hlapses]
      simp only [Int64.lt_iff_toInt_lt, toInt_min] at hlive ⊢
      omega
  · exact h

theorem Lawful.claim (h : m.Lawful) (valid : m.config.Valid) (id : String) :
    (m.claim id).2.Lawful := by
  unfold Model.claim
  split
  · exact h
  rename_i t hstatus
  obtain ⟨ht, hs⟩ := status_eq_ok hstatus
  split
  · exact h
  split
  · split
    · exact h
    · exact h
  split
  · exact h
  · rename_i hready
    have hready : t.state = .ready := not_not.mp hready
    have row := h.rows id t ht
    have hl : t.Leased := .inl hready
    refine h.put ht ⟨row.own, row.name, row.epoch, row.numbered, (by rintro ⟨⟩), fun _ => ?_,
      (by rintro ⟨⟩)⟩ (fun _ => hl) (fun _ => hs)
    obtain ⟨p, hp⟩ := row.leased hl
    refine ⟨p, hp.started, hp.past, hp.admission, hp.ready, fun fits => ?_⟩
    obtain ⟨hle, -, hsum⟩ := hp.exact valid fits
    have hskew := valid.ttl.2.2
    have hlive := hp.live fits
    simp only [Ticket.lapses, hready, Int64.lt_iff_toInt_lt] at hlive ⊢
    omega

theorem Lawful.mode (h : m.Lawful) {mode : Mode} {cutoff : Nat} {unsafeUntil : Int64} :
    { m with mode := mode, cutoff := cutoff, unsafeUntil := unsafeUntil }.Lawful := by
  refine h.mono rfl rfl rfl le_rfl rfl rfl (fun id t ht => ?_) h.leases h.visitors
  exact (h.rows id t ht).mono rfl rfl rfl le_rfl rfl

theorem Lawful.newEpoch (h : m.Lawful) : m.newEpoch.Lawful where
  started := h.started
  rows := nofun
  leases := le_trans (Int.natCast_nonneg _) h.leases
  visitors := le_trans (Int.natCast_nonneg _) h.visitors
  rate := le_trans (Int.natCast_nonneg _) h.rate
  reserved := by
    refine (List.map_eq_nil_iff.mpr (List.filter_eq_nil_iff.mpr fun p hp => ?_)).symm
    have hle := (h.past p hp).epoch
    rw [decide_eq_true_eq]
    rintro ⟨he, -⟩
    have he' : p.epoch = m.epoch + 1 := he
    omega
  past := by
    intro p hp
    have hpast := h.past p hp
    refine ⟨hpast.time, hpast.name, Nat.le_succ_of_le hpast.epoch, fun he => ?_⟩
    have he' : p.epoch = m.epoch + 1 := he
    have hle := hpast.epoch
    omega
  ordered := h.ordered
  windows := h.windows

end Single

section Promote

/-- The candidates that the loop of `Promote` still has to take: waiting tickets in the
order of their numbers, in front of every other live one, with room for all of them. -/
structure Front (m : Model) (cs : List Candidate) : Prop where
  sorted : cs.Pairwise fun a b => a.sequence < b.sequence
  held : ∀ c ∈ cs, ∃ t, m.tickets.get c.id = some t ∧ t.state = .waiting ∧
    m.now < t.lapses m.config ∧ t.sequence = c.sequence
  first : ∀ id t, m.tickets.get id = some t → t.state = .waiting → m.now < t.lapses m.config →
    id ∈ cs.map Candidate.id ∨ ∀ c ∈ cs, c.sequence < t.sequence
  leases : m.leaseCount + cs.length ≤ m.config.leaseCap
  rate : m.rateTimes.length + cs.length ≤ m.config.rate

variable {x : Candidate} {cs : List Candidate}

def taken (m : Model) (x : Candidate) : Ticket :=
  promoted m.config m.now ((m.tickets.get x.id).getD .zero)

theorem Front.taken (hf : Front m (x :: cs)) (h : m.Lawful) : ∃ t,
    m.tickets.get x.id = some t ∧ t.state = .waiting ∧ m.now < t.lapses m.config ∧
      t.sequence = x.sequence ∧ m.Row x.id t ∧ m.taken x = promoted m.config m.now t := by
  obtain ⟨t, ht, hw, hlive, hs⟩ := hf.held x List.mem_cons_self
  exact ⟨t, ht, hw, hlive, hs, h.rows _ _ ht, by rw [Model.taken, ht, Option.getD_some]⟩

theorem Lawful.inWindow_le (h : m.Lawful) {t : ℤ} (hlt : t - 60000 < m.now.toInt)
    (hle : m.now.toInt ≤ t) :
    m.inWindow m.epoch t ≤ m.rateTimes.length := by
  rw [h.reserved, reservations, List.length_map, ← List.countP_eq_length_filter]
  refine List.countP_mono_left fun p hp hwin => ?_
  obtain ⟨he, hafter, -⟩ := of_decide_eq_true hwin
  exact decide_eq_true ⟨he, by omega⟩

theorem reservations_promoteOne (he : t.epoch = m.epoch) :
    (m.promoteOne t).reservations = m.reservations ++ [m.now] := by
  simp [reservations, promoteOne, List.filter_append, he]

theorem inWindow_promoteOne (e : Nat) (w : ℤ) : (m.promoteOne t).inWindow e w =
    m.inWindow e w + if t.epoch = e ∧ w - 60000 < m.now.toInt ∧ m.now.toInt ≤ w then 1 else 0 := by
  simp [inWindow, promoteOne, List.countP_append, List.countP_singleton]

/-- A ticket that is promoted now is alive, if the sums of its times do not wrap. -/
theorem Lawful.lt_lapses_promoted (h : m.Lawful) (valid : m.config.Valid)
    (fits : m.config.Fits m.now) (t : Ticket) :
    m.now < (promoted m.config m.now t).lapses m.config := by
  obtain ⟨hready, hadmission, hskew⟩ := valid.ttl
  have hstarted := h.started
  unfold Config.Fits at fits
  show m.now < min (m.now + m.config.readyTTL) (m.now + m.config.admissionTTL)
  rw [Int64.lt_iff_toInt_lt, toInt_min, toInt_add_of_lt hstarted (by omega) (by omega),
    toInt_add_of_lt hstarted (by omega) (by omega)]
  omega

/-- The other live tickets that wait are behind the one that is promoted next. -/
theorem Front.behind (hf : Front m (x :: cs)) (ht : m.tickets.get id = some t)
    (hw : t.state = .waiting) (hlive : m.now < t.lapses m.config) (hne : id ≠ x.id) :
    x.sequence < t.sequence := by
  rcases hf.first id t ht hw hlive with hmem | hall
  · have hmem := (List.mem_cons.mp hmem).resolve_left hne
    obtain ⟨y, hy, hid⟩ := List.mem_map.mp hmem
    obtain ⟨t', ht', -, -, hseq⟩ := hf.held y (List.mem_cons_of_mem _ hy)
    rw [hid, ht] at ht'
    obtain rfl := Option.some.inj ht'
    rw [hseq]
    exact (List.pairwise_cons.mp hf.sorted).1 y hy
  · exact hall x List.mem_cons_self

theorem Front.lawful_promoteOne (hf : Front m (x :: cs)) (h : m.Lawful) (valid : m.config.Valid) :
    (m.promoteOne (m.taken x)).Lawful := by
  obtain ⟨t, ht, hw, hlive, hseq, row, htaken⟩ := hf.taken h
  rw [htaken]
  have hkey : (promoted m.config m.now t).id = x.id := row.own
  have hepoch : (promoted m.config m.now t).epoch = m.epoch := row.epoch
  have hleases : m.leaseCount + 1 ≤ m.config.leaseCap := by
    have := hf.leases
    rw [List.length_cons] at this
    omega
  have hrate : m.rateTimes.length + 1 ≤ m.config.rate := by
    have := hf.rate
    rw [List.length_cons] at this
    omega
  refine ⟨h.started, ?_, ?_, ?_, ?_, ?_, ?_, ?_, ?_⟩
  · intro id t' ht'
    rw [promoteOne, Table.get_put, hkey] at ht'
    split at ht'
    · rename_i heq
      obtain rfl := Option.some.inj ht'
      rw [heq]
      refine ⟨row.own, row.name, row.epoch, row.numbered, (by rintro ⟨⟩), fun _ => ?_, (by rintro ⟨⟩)⟩
      exact ⟨m.now, h.started, le_rfl, rfl, rfl, fun fits => h.lt_lapses_promoted valid fits t⟩
    · rename_i hne
      have row' := h.rows id t' ht'
      refine ⟨row'.own, row'.name, row'.epoch, row'.numbered, row'.wrapped, row'.leased, ?_⟩
      intro hw' hlive p hp he
      rcases List.mem_append.mp hp with hp | hp
      · exact row'.behind hw' hlive p hp he
      · obtain rfl := List.mem_singleton.mp hp
        exact hseq.trans_lt (hf.behind ht' hw' hlive hne)
  · exact le_trans (Int.ofNat_le.mpr (Table.count_put_le _ _ _ _)) hleases
  · refine le_trans (Int.ofNat_le.mpr (Table.count_put_le_of_imp (hkey ▸ ht) fun _ => ?_)) h.visitors
    rw [hw]
    rfl
  · rw [promoteOne, List.length_append]
    exact hrate
  · rw [reservations_promoteOne hepoch, ← h.reserved]
    rfl
  · intro p hp
    rcases List.mem_append.mp hp with hp | hp
    · have hpast := h.past p hp
      exact ⟨hpast.time, hpast.name, hpast.epoch, hpast.numbered⟩
    · obtain rfl := List.mem_singleton.mp hp
      refine ⟨le_rfl, ?_, row.epoch.le, fun _ => row.numbered⟩
      have hname := row.own.trans row.name
      rw [← row.epoch] at hname
      exact hname
  · refine List.pairwise_append.mpr ⟨h.ordered, List.pairwise_singleton _ _, fun p hp q hq => ?_⟩
    obtain rfl := List.mem_singleton.mp hq
    exact ⟨(h.past p hp).time, fun he => row.behind hw hlive p hp (he.trans row.epoch)⟩
  · intro e w
    rw [inWindow_promoteOne]
    split
    · rename_i hwin
      obtain ⟨he, hafter, hbefore⟩ := hwin
      have hle := h.inWindow_le hafter hbefore
      rw [← row.epoch, show t.epoch = e from he] at hle
      exact le_trans (Int.ofNat_le.mpr (Nat.add_le_add_right hle 1)) hrate
    · exact h.windows e w

theorem Front.tail (hf : Front m (x :: cs)) (h : m.Lawful) :
    Front (m.promoteOne (m.taken x)) cs := by
  obtain ⟨t, ht, hw, -, hseq, row, htaken⟩ := hf.taken h
  rw [htaken]
  have hkey : (promoted m.config m.now t).id = x.id := row.own
  obtain ⟨hlt, hsorted⟩ := List.pairwise_cons.mp hf.sorted
  -- the numbers of the candidates differ, so that their tickets do
  have hne : ∀ c ∈ cs, c.id ≠ x.id := by
    intro c hc heq
    obtain ⟨t', ht', -, -, hs'⟩ := hf.held c (List.mem_cons_of_mem _ hc)
    rw [heq, ht] at ht'
    obtain rfl := Option.some.inj ht'
    have := hlt c hc
    omega
  refine ⟨hsorted, fun c hc => ?_, fun id t' ht' hw' hlive => ?_, ?_, ?_⟩
  · obtain ⟨t', ht', hs'⟩ := hf.held c (List.mem_cons_of_mem _ hc)
    refine ⟨t', ?_, hs'⟩
    rw [promoteOne, hkey, Table.get_put_ne (hne c hc)]
    exact ht'
  · rw [promoteOne, Table.get_put, hkey] at ht'
    split at ht'
    · obtain rfl := Option.some.inj ht'
      cases hw'
    · rename_i hid
      rcases hf.first id t' ht' hw' hlive with hmem | hall
      · exact .inl ((List.mem_cons.mp hmem).resolve_left hid)
      · exact .inr fun c hc => hall c (List.mem_cons_of_mem _ hc)
  · have hcount := Table.count_put_le
      (fun t : Ticket => decide (t.state = .ready ∨ t.state = .admitted)) m.tickets
      (promoted m.config m.now t).id (promoted m.config m.now t)
    have hcap := hf.leases
    rw [List.length_cons] at hcap
    have hone : (if decide ((promoted m.config m.now t).state = .ready ∨
      (promoted m.config m.now t).state = .admitted) = true then 1 else 0) = 1 := rfl
    rw [hone] at hcount
    have hgoal : (m.promoteOne (promoted m.config m.now t)).leaseCount ≤ m.leaseCount + 1 := hcount
    have hconfig : (m.promoteOne (promoted m.config m.now t)).config = m.config := rfl
    rw [hconfig]
    omega
  · have hcap := hf.rate
    rw [List.length_cons] at hcap
    rw [promoteOne, List.length_append, List.length_singleton]
    dsimp only
    omega

theorem Front.lawful (h : m.Lawful) (valid : m.config.Valid) (hf : Front m cs) :
    (promoteAll cs m).2.Lawful := by
  induction cs generalizing m with
  | nil => exact h
  | cons x cs ih => exact ih (hf.lawful_promoteOne h valid) valid (hf.tail h)

theorem mem_candidates {y : Candidate} : y ∈ m.candidates ↔ ∃ id t, m.tickets.get id = some t ∧
    (t.state = .waiting ∧ (m.mode ≠ .draining ∨ t.sequence ≤ m.cutoff)) ∧
      y = ⟨t.id, t.sequence, min t.idleUntil t.absoluteUntil⟩ := by
  constructor
  · intro hy
    obtain ⟨⟨id, t⟩, hr, rfl⟩ := List.mem_map.mp hy
    obtain ⟨hmem, hp⟩ := List.mem_filter.mp hr
    exact ⟨id, t, Table.mem_rows.mp hmem, of_decide_eq_true hp, rfl⟩
  · rintro ⟨id, t, ht, hp, rfl⟩
    exact List.mem_map.mpr ⟨(id, t), List.mem_filter.mpr ⟨Table.mem_rows.mpr ht, decide_eq_true hp⟩,
      rfl⟩

theorem Lawful.sequences_nodup (h : m.Lawful) : (m.candidates.map Candidate.sequence).Nodup := by
  rw [candidates, List.map_map]
  refine List.Nodup.map_on ?_ (m.tickets.rows_nodup.filter _)
  rintro ⟨id, t⟩ hr ⟨id', t'⟩ hr' heq
  have ht := Table.mem_rows.mp (List.mem_filter.mp hr).1
  have ht' := Table.mem_rows.mp (List.mem_filter.mp hr').1
  have heq : t.sequence = t'.sequence := heq
  have hid : id = id' := by
    rw [(h.rows _ _ ht).name, (h.rows _ _ ht').name, heq]
  subst hid
  rw [ht] at ht'
  rw [Option.some.inj ht']

def queued (m : Model) : List Candidate :=
  (m.candidates.filter fun c => decide (m.now < c.expiresAt)).insertionSort Candidate.Before

theorem mem_queued {y : Candidate} : y ∈ m.queued ↔ y ∈ m.candidates ∧ m.now < y.expiresAt := by
  rw [queued, (List.perm_insertionSort _ _).mem_iff, List.mem_filter, decide_eq_true_eq]

theorem Lawful.queued_sorted (h : m.Lawful) :
    m.queued.Pairwise fun a b => a.sequence < b.sequence := by
  have hbefore : m.queued.Pairwise Candidate.Before := List.pairwise_insertionSort _ _
  have hnodup : (m.queued.map Candidate.sequence).Nodup :=
    (((List.perm_insertionSort _ _).map _).nodup_iff).mpr
      (h.sequences_nodup.sublist (List.filter_sublist.map _))
  have hne := List.pairwise_map.mp hnodup
  exact (hbefore.and hne).imp fun hab => lt_of_le_of_ne hab.1.sequence_le hab.2

theorem Lawful.front (h : m.Lawful) {limit : ℤ} (hpos : 0 < m.budget limit) :
    Front m (eligible m.candidates m.now (m.budget limit)) := by
  have hsorted := h.queued_sorted
  have hlist : eligible m.candidates m.now (m.budget limit) =
      m.queued.take (m.budget limit).toNat := if_neg (not_le.mpr hpos)
  have hlength : (m.queued.take (m.budget limit).toNat).length ≤ (m.budget limit).toNat :=
    List.length_take_le _ _
  have hbudget : m.budget limit ≤ m.config.leaseCap - m.leaseCount ∧
      m.budget limit ≤ m.config.rate - m.rateTimes.length := by
    unfold budget
    omega
  rw [hlist]
  refine ⟨hsorted.sublist (List.take_sublist _ _), fun y hy => ?_, fun id t ht hw hlive => ?_, ?_, ?_⟩
  · obtain ⟨hc, halive⟩ := mem_queued.mp (List.mem_of_mem_take hy)
    obtain ⟨id, t, ht, hp, rfl⟩ := mem_candidates.mp hc
    have hown := (h.rows id t ht).own
    refine ⟨t, by rw [hown]; exact ht, hp.1, ?_, rfl⟩
    rw [Ticket.lapses, hp.1]
    exact halive
  · have row := h.rows id t ht
    by_cases hcut : m.mode ≠ .draining ∨ t.sequence ≤ m.cutoff
    · -- a candidate is among the ones taken or behind all of them
      have hmem : ⟨t.id, t.sequence, min t.idleUntil t.absoluteUntil⟩ ∈ m.queued := by
        refine mem_queued.mpr ⟨mem_candidates.mpr ⟨id, t, ht, ⟨hw, hcut⟩, rfl⟩, ?_⟩
        rw [Ticket.lapses, hw] at hlive
        exact hlive
      rw [← List.take_append_drop (m.budget limit).toNat m.queued] at hmem hsorted
      rcases List.mem_append.mp hmem with htake | hdrop
      · exact .inl (List.mem_map.mpr ⟨_, htake, row.own⟩)
      · exact .inr fun y hy => (List.pairwise_append.mp hsorted).2.2 y hy _ hdrop
    · refine .inr fun y hy => ?_
      obtain ⟨hc, -⟩ := mem_queued.mp (List.mem_of_mem_take hy)
      obtain ⟨id', t', -, ⟨-, hp⟩, rfl⟩ := mem_candidates.mp hc
      obtain ⟨hmode, hlt⟩ := not_or.mp hcut
      have hle := hp.resolve_left hmode
      dsimp only
      omega
  · omega
  · omega

theorem Lawful.promote (h : m.Lawful) (valid : m.config.Valid) (limit : ℤ) :
    (m.promote limit).2.Lawful := by
  unfold Model.promote
  split
  · exact h
  split
  · exact h
  · rename_i hpos
    exact (h.front (not_le.mp hpos)).lawful h valid

end Promote

section Exec

variable {r : Request}

theorem switched_done {out : Except Error Model} (h : (switched m out).1 = .done (.ok ())) :
    ∃ m', out = .ok m' ∧ (switched m out).2 = m' := by
  cases out with
  | error => cases h
  | ok m' => exact ⟨m', rfl, rfl⟩

theorem switched_lawful (h : m.Lawful) {out : Except Error Model}
    (hout : ∀ m', out = .ok m' → m'.Lawful) : (switched m out).2.Lawful := by
  cases out with
  | error => exact h
  | ok m' => exact hout m' rfl

/-- The entries of the log for the tickets that a call has promoted. -/
def logged (now : Int64) : Heard → List Promotion
  | .tickets ts => ts.map fun t => ⟨t.id, t.sequence, now, t.epoch⟩
  | .ticket _ | .done _ | .time _ => []

structure Follows (m : Model) (out : Heard × Model) : Prop where
  config : out.2.config = m.config
  log : out.2.promotions = m.promotions ++ logged m.now out.1

theorem follows_self {heard : Heard} (h : logged m.now heard = []) : Follows m (heard, m) :=
  ⟨rfl, by rw [h, List.append_nil]⟩

theorem follows_of_quiet {heard : Heard} (h : logged m.now heard = []) (config : m'.config = m.config)
    (promotions : m'.promotions = m.promotions) : Follows m (heard, m') :=
  ⟨config, by rw [h, List.append_nil]; exact promotions⟩

theorem promoteAll_follows (cs : List Candidate) (m : Model) :
    Follows m (.tickets (promoteAll cs m).1, (promoteAll cs m).2) := by
  induction cs generalizing m with
  | nil => exact follows_self rfl
  | cons x cs ih =>
    obtain ⟨hconfig, hlog⟩ := ih (m.promoteOne (m.taken x))
    refine ⟨hconfig, hlog.trans ?_⟩
    exact List.append_assoc _ _ _

theorem exec_follows (m : Model) (r : Request) : Follows m (m.exec r) := by
  cases r with
  | advance time =>
    unfold exec advance
    dsimp only
    split_ifs <;> exact follows_of_quiet rfl rfl rfl
  | join key fingerprint =>
    unfold exec join
    dsimp only
    split
    · exact follows_self rfl
    split <;> split_ifs <;> exact follows_of_quiet rfl rfl rfl
  | heartbeat id =>
    unfold exec heartbeat
    dsimp only
    split
    · exact follows_self rfl
    · split_ifs <;> exact follows_of_quiet rfl rfl rfl
  | promote limit =>
    unfold exec promote
    dsimp only
    split
    · exact follows_self rfl
    split
    · exact follows_self rfl
    · exact promoteAll_follows _ m
  | claim id =>
    unfold exec claim
    dsimp only
    split
    · exact follows_self rfl
    · split_ifs <;> exact follows_of_quiet rfl rfl rfl
  | setHold hold =>
    unfold exec setHold
    dsimp only
    split_ifs <;> exact follows_of_quiet rfl rfl rfl
  | drain =>
    unfold exec drain
    dsimp only
    split_ifs <;> exact follows_of_quiet rfl rfl rfl
  | uncertain => exact follows_of_quiet rfl rfl rfl
  | resume verified =>
    unfold exec resume
    dsimp only
    split_ifs <;> exact follows_of_quiet rfl rfl rfl
  | newEpoch => exact follows_of_quiet rfl rfl rfl

theorem Lawful.exec (h : m.Lawful) (valid : m.config.Valid) : (m.exec r).2.Lawful := by
  cases r with
  | advance time =>
    refine switched_lawful h fun m' hm => ?_
    unfold advance at hm
    split at hm
    · cases hm
    · rename_i hle
      cases hm
      exact h.advanced (Int64.le_iff_toInt_le.mp (Int64.not_lt.mp hle))
  | join key fingerprint => exact h.join
  | heartbeat id => exact h.heartbeat id
  | promote limit => exact h.promote valid limit
  | claim id => exact h.claim valid id
  | setHold hold =>
    refine switched_lawful h fun m' hm => ?_
    unfold setHold at hm
    split at hm
    · cases hm
    · cases hm
      exact h.mode
  | drain =>
    refine switched_lawful h fun m' hm => ?_
    unfold drain at hm
    split at hm
    · cases hm
    · cases hm
      exact h.mode
  | uncertain => exact h.mode
  | resume verified =>
    refine switched_lawful h fun m' hm => ?_
    unfold resume at hm
    split at hm
    · cases hm
    · cases hm
      exact h.mode
  | newEpoch => exact h.newEpoch

/-- In recovery a claim, a promotion and a join with a new key are refused, and nothing
is written. -/
def Refuses (m : Model) (r : Request) (out : Heard × Model) : Prop :=
  match r with
  | .join key _ =>
    m.idempotency.get key = none → (∃ err, out.1 = .ticket (.error err)) ∧ out.2 = m
  | .promote _ => out.1 = .tickets [] ∧ out.2 = m
  | .claim _ => (∃ err, out.1 = .ticket (.error err)) ∧ out.2 = m
  | _ => True

theorem exec_refuses (hm : m.mode = .recovery) : Refuses m r (m.exec r) := by
  cases r with
  | join key fingerprint =>
    intro free
    unfold exec join
    dsimp only
    rw [free]
    dsimp only
    rw [if_pos hm]
    split_ifs <;> exact ⟨⟨_, rfl⟩, rfl⟩
  | promote limit =>
    have hmode : m.mode ≠ .auto ∧ m.mode ≠ .draining := by
      rw [hm]
      exact ⟨nofun, nofun⟩
    unfold exec promote Refuses
    dsimp only
    rw [if_pos hmode]
    exact ⟨rfl, rfl⟩
  | claim id =>
    unfold exec claim Refuses
    dsimp only
    rw [hm]
    split
    · exact ⟨⟨_, rfl⟩, rfl⟩
    · rw [if_pos rfl]
      exact ⟨⟨_, rfl⟩, rfl⟩
  | _ => trivial

end Exec

section Recovery

variable {r : Request}

def Stays (m m' : Model) : Prop :=
  m'.mode = .recovery → m.mode = .recovery ∧ (m' = m ∨ ∃ now, m' = m.advanced now)

theorem Stays.refl : Stays m m := fun hm => ⟨hm, .inl rfl⟩

theorem stays_of_mode (h : m'.mode ≠ .recovery) : Stays m m' := fun hm => absurd hm h

theorem promoteAll_mode (cs : List Candidate) (m : Model) : (promoteAll cs m).2.mode = m.mode := by
  induction cs generalizing m with
  | nil => rfl
  | cons x cs ih => exact ih _

/-- Only an `Uncertain` leads into recovery, and there every other call but an `Advance`
is refused or leads out of it. -/
theorem exec_stays (hr : r ≠ .uncertain) : Stays m (m.exec r).2 := by
  cases r with
  | advance time =>
    unfold exec advance
    dsimp only
    split
    · exact .refl
    · exact fun hm => ⟨hm, .inr ⟨time, rfl⟩⟩
  | join key fingerprint =>
    unfold exec join
    dsimp only
    split
    · exact .refl
    split
    · split <;> exact .refl
    · split
      · exact .refl
      rename_i hmode
      split
      · exact .refl
      split
      · exact .refl
      · exact stays_of_mode hmode
  | heartbeat id =>
    unfold exec heartbeat
    dsimp only
    split
    · exact .refl
    · split
      · exact .refl
      rename_i hmode
      split
      · exact stays_of_mode hmode
      · exact .refl
  | promote limit =>
    unfold exec promote
    dsimp only
    split
    · exact .refl
    rename_i hmode
    split
    · exact .refl
    · refine stays_of_mode ?_
      rw [promoteAll_mode]
      rintro hrecovery
      rw [hrecovery] at hmode
      exact hmode ⟨by rintro ⟨⟩, by rintro ⟨⟩⟩
  | claim id =>
    unfold exec claim
    dsimp only
    split
    · exact .refl
    · split
      · exact .refl
      rename_i hmode
      split
      · split <;> exact .refl
      split
      · exact .refl
      · exact stays_of_mode hmode
  | setHold hold =>
    unfold exec setHold
    dsimp only
    split
    · exact .refl
    · exact stays_of_mode (by cases hold <;> rintro ⟨⟩)
  | drain =>
    unfold exec drain
    dsimp only
    split
    · exact .refl
    · exact stays_of_mode (by rintro ⟨⟩)
  | uncertain => exact absurd rfl hr
  | resume verified =>
    unfold exec resume
    dsimp only
    split
    · exact .refl
    · exact stays_of_mode (by rintro ⟨⟩)
  | newEpoch => exact stays_of_mode (by rintro ⟨⟩)

def Frozen (m : Model) : Prop :=
  m.mode = .recovery → ∀ id t, m.tickets.get id = some t → t.Leased →
    m.now < t.lapses m.config ∧ t.lapses m.config ≤ m.unsafeUntil

theorem Lawful.frozen_uncertain (h : m.Lawful) (valid : m.config.Valid)
    (fits : m.config.Fits m.now) : m.uncertain.Frozen := by
  intro _ id t ht hl
  obtain ⟨p, hp⟩ := (h.rows id t ht).leased hl
  obtain ⟨-, hadmission, hskew⟩ := valid.ttl
  have hstarted := h.started
  have hpast := hp.past
  have fitsPast : m.config.Fits p := by
    unfold Config.Fits at fits ⊢
    omega
  obtain ⟨hready, hsum, hend⟩ := hp.exact valid fitsPast
  have hlongest : (max m.config.admissionTTL (max m.config.readyTTL 60000)).toInt =
      max m.config.admissionTTL.toInt (max m.config.readyTTL.toInt 60000) := by
    rw [toInt_max, toInt_max]
    rfl
  -- the sums of the deadline are exact
  unfold Config.Fits at fits
  have hunsafe : m.now.toInt + max m.config.admissionTTL.toInt (max m.config.readyTTL.toInt 60000) +
      m.config.clockSkew.toInt ≤ m.uncertain.unsafeUntil.toInt := by
    rw [Model.uncertain, toInt_max]
    have hfirst := toInt_add_of_lt hstarted
      (b := max m.config.admissionTTL (max m.config.readyTTL 60000)) (by omega) (by omega)
    rw [toInt_add_of_lt (by omega) hskew (by omega), hfirst, hlongest]
    exact le_max_right _ _
  refine ⟨hp.live fitsPast, Int64.le_iff_toInt_le.mpr ?_⟩
  rcases hl with hs | hs
  · rw [Ticket.lapses, hs]
    dsimp only
    omega
  · rw [Ticket.lapses, hs]
    show (t.admissionUntil + m.config.clockSkew).toInt ≤ m.uncertain.unsafeUntil.toInt
    omega

theorem Frozen.advanced (hf : m.Frozen) (now : Int64) : (m.advanced now).Frozen := by
  intro hm id t ht hl
  rw [Model.advanced, Table.get_mapVals] at ht
  obtain ⟨t', ht', rfl⟩ := Option.map_eq_some_iff.mp ht
  rcases lapse_cases m.config now t' with heq | ⟨heq, live⟩
  · rw [heq] at hl
    rcases hl with hs | hs <;> cases hs
  · rw [heq] at hl ⊢
    exact ⟨live (.inr hl), (hf hm id t' ht' hl).2⟩

theorem Frozen.exec (hf : m.Frozen) (h : m.Lawful) (valid : m.config.Valid)
    (fits : r = .uncertain → m.config.Fits m.now) : (m.exec r).2.Frozen := by
  by_cases hr : r = .uncertain
  · rw [hr]
    exact h.frozen_uncertain valid (fits hr)
  · intro hm
    obtain ⟨hmode, heq | ⟨now, heq⟩⟩ := exec_stays hr hm
    · rw [heq]
      exact hf hmode
    · rw [heq]
      exact hf.advanced now hmode

theorem Frozen.resumed (hf : m.Frozen) {verified : Bool} (hok : m.resume verified = .ok m')
    (ht : m'.tickets.get id = some t) : ¬t.Leased := by
  unfold resume at hok
  split at hok
  · cases hok
  · rename_i hguard
    cases hok
    obtain ⟨hmode, hguard⟩ := not_or.mp hguard
    obtain ⟨-, htime⟩ := not_or.mp hguard
    intro hl
    obtain ⟨hlive, hle⟩ := hf (not_not.mp hmode) id t ht hl
    rw [Int64.lt_iff_toInt_lt] at hlive htime
    rw [Int64.le_iff_toInt_le] at hle
    omega

end Recovery

end Model

section Laws

/-- The caps, and the order and the rate of the promotions of each epoch. -/
structure Laws (c : Config) (m : Model) : Prop where
  leases : m.leaseCount ≤ c.leaseCap
  visitors : m.visitorCount ≤ c.visitorCap
  rate : m.rateTimes.length ≤ c.rate
  ordered : m.promotions.Pairwise fun p q =>
    p.epoch = q.epoch → p.sequence < q.sequence ∧ p.id ≠ q.id
  windows : ∀ epoch t, m.inWindow epoch t ≤ c.rate

variable {c : Config} {events : List ModelEvent} {m₀ m : Model}

theorem Model.Lawful.laws (h : m.Lawful) (config : m.config = c) : Laws c m where
  leases := config ▸ h.leases
  visitors := config ▸ h.visitors
  rate := config ▸ h.rate
  ordered := by
    refine h.ordered.imp_of_mem fun {p q} hp hq hb he => ⟨hb.2 he, fun hid => ?_⟩
    have hlt := hb.2 he
    rw [(h.past p hp).name, (h.past q hq).name, he] at hid
    have heq := ticketId_injective _ hid
    omega
  windows := config ▸ h.windows

theorem run_lawful (hnew : Model.new c = .ok m₀) (hr : ModelRun m₀ events m) :
    m.config = c ∧ m.Lawful := by
  obtain ⟨valid, rfl⟩ := Model.new_eq_ok hnew
  refine hr.invariant (I := fun m => m.config = c ∧ m.Lawful) ⟨rfl, Model.lawful_new valid⟩ ?_
  rintro m r ⟨config, h⟩ -
  exact ⟨(m.exec_follows r).config.trans config, h.exec (config.symm ▸ valid)⟩

theorem run_frozen (hnew : Model.new c = .ok m₀) (hr : ModelRun m₀ events m)
    (fits : ∀ u ∈ events, u.input = .uncertain → c.Fits u.before.now) : m.Frozen := by
  induction hr with
  | nil =>
    obtain ⟨-, rfl⟩ := Model.new_eq_ok hnew
    intro hm
    cases hm
  | @snoc events m r hr _ ih =>
    obtain ⟨config, h⟩ := run_lawful hnew hr
    have valid := (Model.new_eq_ok hnew).1
    refine (ih fun u hu => fits u (List.mem_append_left _ hu)).exec h (config.symm ▸ valid) fun hu => ?_
    rw [config]
    exact fits (eventOf Model.exec m r) (List.mem_append_right _ List.mem_cons_self) hu

/-- In every run of the model the laws hold at each point, where the log has exactly what
was promoted, and in recovery nothing new gets in. If no `Uncertain` before a resume has
computed its deadline with a wrap, no ticket is READY or ADMITTED after the resume,
neither from before the last `Uncertain` nor from after it. -/
theorem model_keeps_laws (c : Config) (m₀ : Model) (hnew : Model.new c = .ok m₀)
    (events : List ModelEvent) (m : Model) (hr : ModelRun m₀ events m) :
    Laws c m ∧ ∀ past e rest, events = past ++ e :: rest → Laws c e.before ∧
      e.after.promotions = e.before.promotions ++ Model.logged e.before.now e.output ∧
      (e.before.mode = .recovery → e.before.Refuses e.input (e.output, e.after)) ∧
      ((∀ u ∈ past, u.input = .uncertain → c.Fits u.before.now) →
        ∀ verified, e.input = .resume verified → e.output = .done (.ok ()) →
          ∀ id t, e.after.tickets.get id = some t → t.state ≠ .ready ∧ t.state ≠ .admitted) := by
  obtain ⟨config, h⟩ := run_lawful hnew hr
  refine ⟨h.laws config, ?_⟩
  rintro past e rest rfl
  obtain ⟨m', hpast, hrest⟩ := hr.of_append
  obtain ⟨-, heq, -⟩ := hrest.of_cons
  obtain rfl : e.before = m' := by
    rw [heq]
    rfl
  obtain ⟨config, h⟩ := run_lawful hnew hpast
  refine ⟨h.laws config, ?_, ?_, ?_⟩
  · rw [heq]
    exact (e.before.exec_follows e.input).log
  · intro hm
    rw [heq]
    exact Model.exec_refuses hm
  · intro fits verified hin hout id t ht
    rw [heq, hin] at ht hout
    obtain ⟨m', hok, hafter⟩ := Model.switched_done hout
    have ht : (switched e.before (e.before.resume verified)).2.tickets.get id = some t := ht
    rw [hafter] at ht
    exact not_or.mp ((run_frozen hnew hpast fits).resumed hok ht)

theorem resume_done {verified : Bool} (h : ∃ m', m.resume verified = .ok m') :
    (m.exec (.resume verified)).1 = .done (.ok ()) := by
  obtain ⟨m', hm⟩ := h
  simp only [Model.exec, hm, switched]

def lawConfig : Config := ⟨2, 4, 1, 1, 600000, 86400000, 120000, 900000, 600000, 30000⟩

def interrupted : List Request :=
  [.join "a" "x", .join "b" "x", .promote 5, .claim "1:1", .uncertain, .promote 5, .claim "1:1",
    .advance 500000, .heartbeat "1:2", .advance 930000]

def lawRequests : List Request :=
  interrupted ++ [.resume true, .join "c" "x", .promote (-1), .promote 5]

theorem lawRequests_laws : Laws lawConfig (stateAfter Model.exec { config := lawConfig } lawRequests) ∧
    (stateAfter Model.exec { config := lawConfig } lawRequests).promotions =
      [⟨"1:1", 1, 0, 1⟩, ⟨"1:3", 3, 930000, 1⟩] ∧
    ∀ id t, (stateAfter Model.exec { config := lawConfig } (interrupted ++ [.resume true])).tickets.get
      id = some t → t.state ≠ .ready ∧ t.state ≠ .admitted := by
  have hr : ModelRun { config := lawConfig } (eventsOf Model.exec { config := lawConfig } lawRequests)
      (stateAfter Model.exec { config := lawConfig } lawRequests) := run_of_inputs _ fun _ _ _ => trivial
  obtain ⟨laws, events⟩ := model_keeps_laws lawConfig _ (if_pos (by decide)) _ _ hr
  refine ⟨laws, by decide +kernel, ?_⟩
  obtain ⟨-, -, -, resumed⟩ := events _ _ _ (eventsOf_append _ _ _ _)
  have fits : ∀ u ∈ eventsOf Model.exec { config := lawConfig } interrupted,
      u.input = .uncertain → lawConfig.Fits u.before.now := by decide +kernel
  have hresume : ∃ m', (stateAfter Model.exec { config := lawConfig } interrupted).resume true =
      .ok m' := by
    refine ⟨_, if_neg ?_⟩
    decide +kernel
  rw [stateAfter_append]
  exact resumed fits true rfl (resume_done hresume)

/-- A lifetime that `New` accepts and with which the deadline of an interruption wraps. -/
def wrapConfig : Config :=
  ⟨2, 4, 1, 1, 600000, 86400000, 9223372036854775807, 900000, 600000, 30000⟩

def wrapRequests : List Request := [.join "a" "x", .promote 1, .claim "1:1", .uncertain]

/-- The deadline is in the past at once, and the resume leaves the admission alive that
was claimed before the interruption. -/
theorem wrapped_deadline_resumes :
    Model.new wrapConfig = .ok { config := wrapConfig } ∧
    ∃ past e, ModelRun { config := wrapConfig } (past ++ [e]) e.after ∧
      past.map Event.input = wrapRequests ∧ e.input = .resume true ∧ e.output = .done (.ok ()) ∧
      (e.after.tickets.get "1:1").map Ticket.state = some .admitted := by
  have hrun : ModelRun { config := wrapConfig } _
      (stateAfter Model.exec { config := wrapConfig } wrapRequests) :=
    run_of_inputs _ fun _ _ _ => trivial
  have hresume : ∃ m', (stateAfter Model.exec { config := wrapConfig } wrapRequests).resume true = .ok m' := by
    refine ⟨_, if_neg ?_⟩
    decide +kernel
  refine ⟨if_pos (by decide), _, eventOf Model.exec _ (.resume true), .snoc _ hrun trivial, rfl, rfl,
    resume_done hresume, by decide +kernel⟩

end Laws

end WaitingRoom.Reference
