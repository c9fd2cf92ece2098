import WaitingRoom.Queue.Command

/-!
# What a command can do to its room

A command is a sequence of elementary effects on the keys of its room: rows that
are due are dropped, rate reservations that are over are released, and then at
most one operation takes place, of which a promotion may have several parts.
Each effect records what the code has tested before it. The labels say which
tickets were created, promoted and claimed, and the answer of the command is
read off them.
-/

namespace WaitingRoom.Queue

set_option autoImplicit false

inductive Label
  | quiet
  | joined (key fingerprint : String) (t : Ticket)
  | promoted (t : Ticket)
  | claimed (t : Ticket)
  | configured (d : Desired)
deriving DecidableEq, Repr

def promotions (ls : List Label) : List Ticket :=
  ls.filterMap fun | .promoted t => some t | _ => none

def joins (ls : List Label) : List Ticket :=
  ls.filterMap fun | .joined _ _ t => some t | _ => none

def claims (ls : List Label) : List Ticket :=
  ls.filterMap fun | .claimed t => some t | _ => none

@[simp] theorem promotions_promoted (t : Ticket) (ls : List Label) :
    promotions (.promoted t :: ls) = t :: promotions ls := rfl

@[simp] theorem joins_joined (key fingerprint : String) (t : Ticket) (ls : List Label) :
    joins (.joined key fingerprint t :: ls) = t :: joins ls := rfl

@[simp] theorem claims_claimed (t : Ticket) (ls : List Label) :
    claims (.claimed t :: ls) = t :: claims ls := rfl

theorem promotions_cons (l : Label) (ls : List Label) :
    promotions (l :: ls) = promotions [l] ++ promotions ls := by
  simp [promotions, ← List.filterMap_append]

theorem joins_cons (l : Label) (ls : List Label) : joins (l :: ls) = joins [l] ++ joins ls := by
  simp [joins, ← List.filterMap_append]

theorem claims_cons (l : Label) (ls : List Label) : claims (l :: ls) = claims [l] ++ claims ls := by
  simp [claims, ← List.filterMap_append]

/-- One write of a command at time `now`, under the tests the command has made. -/
inductive Effect (now : Nat) : QueueKeys → Label → QueueKeys → Prop
  | expire {k : QueueKeys} {id : String} {t : Ticket} {s : Score}
      (row : k.room.tickets.get id = some t) (index : k.room.expiry.get id = some s)
      (due : s ≤ score now) : Effect now k .quiet (dropTicket k id t)
  | forget {k : QueueKeys} {key : String} {s : Score} (index : k.room.idemExpiry.get key = some s)
      (due : s ≤ score now) : Effect now k .quiet (dropIdem k key)
  | release {k : QueueKeys} : Effect now k .quiet (releaseRate k now)
  | join {k : QueueKeys} {c : Config} {g : InstallationConfig} {key fingerprint id replay : String}
      (config : k.room.config = some c)
      (accepted : (Op.join key fingerprint id replay).Accepted)
      (fresh : k.room.idem.get key = none) (row : k.room.tickets.get id = none)
      (mode : k.room.mode ≠ .draining ∧ k.room.mode ≠ .off)
      (global : k.inst.config = some g)
      (visitors : k.inst.visitorOwners.size < g.visitorCap)
      (idems : k.inst.idemOwners.size < g.idempotencyCap)
      (tickets : k.room.tickets.size < c.visitorCap)
      (rows : k.room.idem.size < c.idempotencyCap) (seq : k.room.seq < maxInteger) :
      Effect now k (.joined key fingerprint (newTicket k.room now c id))
        (joinRows k now c key fingerprint replay (newTicket k.room now c id))
  | promote {k : QueueKeys} {c : Config} {id : String} {t : Ticket} {s : Score}
      {rest : List (String × Score)} (config : k.room.config = some c)
      (mode : k.room.mode ≠ .hold ∧ k.room.mode ≠ .off)
      (head : k.room.waiting.ranking = (id, s) :: rest) (row : k.room.tickets.get id = some t)
      (cutoff : k.room.mode = .draining → ∃ n, k.room.cutoff = some n ∧ t.sequence ≤ n)
      (leases : k.room.leases.size < c.leaseCap) (rate : k.room.rate.size < c.rate) :
      Effect now k (.promoted (promotedTicket now c t))
        (promoteRow k now id (promotedTicket now c t))
  | heartbeat {k : QueueKeys} {c : Config} {id : String} {t : Ticket}
      (config : k.room.config = some c) (row : k.room.tickets.get id = some t)
      (state : t.state = .waiting) :
      Effect now k .quiet
        (heartbeatRow k { t with idleUntil := min (now + c.idleTTL) t.absoluteUntil })
  | claim {k : QueueKeys} {c : Config} {id : String} {t : Ticket}
      (config : k.room.config = some c) (row : k.room.tickets.get id = some t)
      (state : t.state = .ready) (live : now < t.admissionUntil) :
      Effect now k (.claimed { t with state := .admitted })
        (claimRow k c { t with state := .admitted })
  | reclaim {k : QueueKeys} {c : Config} {id : String} {t : Ticket}
      (config : k.room.config = some c) (row : k.room.tickets.get id = some t)
      (state : t.state = .admitted) (live : now < t.admissionUntil) : Effect now k (.claimed t) k
  | configure {k : QueueKeys} {c : Config} {d : Desired} {cutoff : Option Nat}
      (config : k.room.config = some c)
      (mode : d.mode ≠ .recoveryHold)
      (caps : d.config.visitorCap = c.visitorCap ∧ d.config.idempotencyCap = c.idempotencyCap ∧
        d.config.clockSkew = c.clockSkew ∧ d.config.idempotencyTTL = c.idempotencyTTL)
      (ttls : 0 < k.room.tickets.size → d.config.idleTTL = c.idleTTL ∧
        d.config.ticketTTL = c.ticketTTL ∧ d.config.readyTTL = c.readyTTL)
      (leases : k.room.leases.size ≤ d.config.leaseCap) (rate : k.room.rate.size ≤ d.config.rate)
      (cutoffs : cutoff = if d.mode = .draining ∧ k.room.mode ≠ .draining then some k.room.seq
        else k.room.cutoff) :
      Effect now k (.configured d)
        { k with
          inst := coverLifetime k.inst d.config
          room := { configured k.room d with cutoff := cutoff } }

inductive Effects (now : Nat) : QueueKeys → List Label → QueueKeys → Prop
  | nil {k : QueueKeys} : Effects now k [] k
  | cons {k k₁ k₂ : QueueKeys} {l : Label} {ls : List Label} :
    Effect now k l k₁ → Effects now k₁ ls k₂ → Effects now k (l :: ls) k₂

namespace Effects

variable {now : Nat} {k k₁ k₂ : QueueKeys} {ls ls' : List Label}

theorem single {l : Label} (h : Effect now k l k₁) : Effects now k [l] k₁ := .cons h .nil

theorem append (h₁ : Effects now k ls k₁) (h₂ : Effects now k₁ ls' k₂) :
    Effects now k (ls ++ ls') k₂ := by
  induction h₁ with
  | nil => exact h₂
  | cons h _ ih => exact .cons h (ih h₂)

theorem invariant {P : QueueKeys → Prop} (h : Effects now k ls k₁) (h₀ : P k)
    (step : ∀ k l k', P k → Effect now k l k' → P k') : P k₁ := by
  induction h with
  | nil => exact h₀
  | cons he _ ih => exact ih (step _ _ _ h₀ he)

end Effects

/-- What no effect touches: the identity of the room, its clock, and everything of
the installation but the owners and the lease lifetime, which only grows. -/
structure EffectFrame (k k' : QueueKeys) : Prop where
  room : k'.room.room = k.room.room
  schema : k'.room.schema = k.room.schema
  epoch : k'.room.epoch = k.room.epoch
  clock : k'.room.clock = k.room.clock
  validation : k'.room.validation = k.room.validation
  inst : ∃ v i n, k.inst.leaseLifetime ≤ n ∧
    k'.inst = { k.inst with visitorOwners := v, idemOwners := i, leaseLifetime := n }
  shared : k'.shared = k.shared

theorem Effect.frame {now : Nat} {k k' : QueueKeys} {l : Label} (h : Effect now k l k') :
    EffectFrame k k' := by
  cases h with
  | configure => exact ⟨rfl, rfl, rfl, rfl, rfl, ⟨_, _, _, Nat.le_max_left _ _, rfl⟩, rfl⟩
  | _ => exact ⟨rfl, rfl, rfl, rfl, rfl, ⟨_, _, _, Nat.le_refl _, rfl⟩, rfl⟩

theorem Effects.frame {now : Nat} {k k' : QueueKeys} {ls : List Label} (h : Effects now k ls k') :
    EffectFrame k k' := by
  induction h with
  | nil => exact ⟨rfl, rfl, rfl, rfl, rfl, ⟨_, _, _, Nat.le_refl _, rfl⟩, rfl⟩
  | cons he _ ih =>
    have h := he.frame
    obtain ⟨v, i, n, hn, hinst⟩ := h.inst
    obtain ⟨v', i', n', hn', hinst'⟩ := ih.inst
    rw [hinst] at hn' hinst'
    exact ⟨ih.room.trans h.room, ih.schema.trans h.schema, ih.epoch.trans h.epoch,
      ih.clock.trans h.clock, ih.validation.trans h.validation,
      ⟨v', i', n', hn.trans hn', hinst'⟩, ih.shared.trans h.shared⟩

def Quiet (ls : List Label) : Prop := ∀ l ∈ ls, l = .quiet

theorem Quiet.append {ls ls' : List Label} (h : Quiet ls) (h' : Quiet ls') : Quiet (ls ++ ls') := by
  intro l hl
  rcases List.mem_append.mp hl with hl | hl
  · exact h l hl
  · exact h' l hl

theorem Quiet.filterMap {ls : List Label} (h : Quiet ls) (f : Label → Option Ticket)
    (hf : f .quiet = none) : ls.filterMap f = [] := by
  rw [List.filterMap_eq_nil_iff]
  intro l hl
  rw [h l hl, hf]

section Cleanup

variable {now : Nat}

theorem dropTickets_effects {ids : List String} {k : QueueKeys} (hn : ids.Nodup)
    (hd : ∀ id ∈ ids, ∃ s, k.room.expiry.get id = some s ∧ s ≤ score now) :
    ∃ ls k', Quiet ls ∧ Effects now k ls k' ∧ k'.room.config = k.room.config ∧
      (dropTickets ids k = .ok k' ∨ (dropTickets ids k = .error k' ∧
        ∃ id s, k'.room.expiry.get id = some s ∧ s ≤ score now ∧ k'.room.tickets.get id = none)) := by
  induction ids generalizing k with
  | nil => exact ⟨[], k, by simp [Quiet], .nil, rfl, .inl rfl⟩
  | cons id ids ih =>
    obtain ⟨s, hs, hle⟩ := hd id List.mem_cons_self
    obtain ⟨hnot, hn⟩ := List.nodup_cons.mp hn
    cases ht : k.room.tickets.get id with
    | none =>
      exact ⟨[], k, by simp [Quiet], .nil, rfl, .inr ⟨by simp [dropTickets, ht], id, s, hs, hle, ht⟩⟩
    | some t =>
      have hd' : ∀ a ∈ ids, ∃ s, (dropTicket k id t).room.expiry.get a = some s ∧ s ≤ score now := by
        intro a ha
        obtain ⟨s, hs, hle⟩ := hd a (List.mem_cons_of_mem _ ha)
        have hne : a ≠ id := fun h => hnot (h ▸ ha)
        exact ⟨s, by simpa [dropTicket, hne] using hs, hle⟩
      obtain ⟨ls, k', hq, he, hconfig, hr⟩ := ih hn hd'
      refine ⟨.quiet :: ls, k', ?_, .cons (.expire ht hs hle) he, hconfig, ?_⟩
      · intro l hl
        rcases List.mem_cons.mp hl with rfl | hl
        · rfl
        · exact hq l hl
      · simpa [dropTickets, ht] using hr

theorem dropIdems_effects {ids : List String} {k : QueueKeys} (hn : ids.Nodup)
    (hd : ∀ id ∈ ids, ∃ s, k.room.idemExpiry.get id = some s ∧ s ≤ score now) :
    ∃ ls, Quiet ls ∧ Effects now k ls (dropIdems ids k) ∧
      (dropIdems ids k).room.config = k.room.config := by
  induction ids generalizing k with
  | nil => exact ⟨[], by simp [Quiet], .nil, rfl⟩
  | cons id ids ih =>
    obtain ⟨s, hs, hle⟩ := hd id List.mem_cons_self
    obtain ⟨hnot, hn⟩ := List.nodup_cons.mp hn
    have hd' : ∀ a ∈ ids, ∃ s, (dropIdem k id).room.idemExpiry.get a = some s ∧ s ≤ score now := by
      intro a ha
      obtain ⟨s, hs, hle⟩ := hd a (List.mem_cons_of_mem _ ha)
      have hne : a ≠ id := fun h => hnot (h ▸ ha)
      exact ⟨s, by simpa [dropIdem, hne] using hs, hle⟩
    obtain ⟨ls, hq, he, hconfig⟩ := ih hn hd'
    refine ⟨.quiet :: ls, ?_, .cons (.forget hs hle) he, hconfig⟩
    intro l hl
    rcases List.mem_cons.mp hl with rfl | hl
    · rfl
    · exact hq l hl

end Cleanup

def promotedBy : Outcome → List Ticket
  | .reply (.tickets _ ts) => ts
  | _ => []

def claimedBy : Op → Outcome → List Ticket
  | .claim _, .reply (.answer _ (some t) _ _) => [t]
  | _, _ => []

def joinedBy : Op → Outcome → List Ticket
  | .join .., .reply (.answer _ (some t) _ _) => [t]
  | _, _ => []

def Retained (k : QueueKeys) (t : Ticket) : Prop :=
  (∃ id, k.room.tickets.get id = some t) ∨
    ∃ key i snap, k.room.idem.get key = some i ∧ i.join = some snap ∧ snap.ticket = t

def Label.AskedBy (op : Op) : Label → Prop
  | .joined key fingerprint t => ∃ replay, op = .join key fingerprint t.id replay
  | .configured d => op = .configure d
  | _ => True

structure Answered (op : Op) (o : Outcome) (ls : List Label) (k : QueueKeys) : Prop where
  promoted : promotions ls = promotedBy o
  claimed : claims ls = claimedBy op o
  joined : (∃ t, joins ls = [t] ∧ joinedBy op o = [t]) ∨
    (joins ls = [] ∧ ∀ t ∈ joinedBy op o, Retained k t)
  asked : ∀ l ∈ ls, l.AskedBy op

def Stuck (now : Nat) (k : QueueKeys) : Prop :=
  (∃ id s, k.room.expiry.get id = some s ∧ s ≤ score now ∧ k.room.tickets.get id = none) ∨
    (∃ id s, k.room.waiting.get id = some s ∧ k.room.tickets.get id = none) ∨
    (k.room.mode = .draining ∧ k.room.cutoff = none) ∨ k.inst.config = none

inductive Performed (now : Nat) (op : Op) (k : QueueKeys) : Outcome × QueueKeys → Prop
  | done {o : Outcome} {ls : List Label} {k' : QueueKeys} (run : Effects now k ls k')
      (ended : o ≠ .abort) (answered : Answered op o ls k') : Performed now op k (o, k')
  | stuck {ls : List Label} {k' : QueueKeys} (run : Effects now k ls k') (stuck : Stuck now k') :
      Performed now op k (.abort, k')

namespace Performed

variable {now : Nat} {op : Op} {k : QueueKeys}

theorem error (e : WrError) : Performed now op k (.error e, k) := by
  refine .done .nil (by simp) ⟨rfl, ?_, .inr ⟨rfl, ?_⟩, by simp⟩
  · cases op <;> rfl
  · cases op <;> simp [joinedBy]

theorem prepend {k₁ : QueueKeys} {ls : List Label} {r : Outcome × QueueKeys} (hq : Quiet ls)
    (h : Effects now k ls k₁) (hr : Performed now op k₁ r) : Performed now op k r := by
  cases hr with
  | @done o ls' k' run ended answered =>
    refine .done (h.append run) ended ⟨?_, ?_, ?_, ?_⟩
    · rw [promotions, List.filterMap_append, hq.filterMap _ rfl]
      exact answered.promoted
    · rw [claims, List.filterMap_append, hq.filterMap _ rfl]
      exact answered.claimed
    · rw [joins, List.filterMap_append, hq.filterMap _ rfl]
      exact answered.joined
    · intro l hl
      rcases List.mem_append.mp hl with hl | hl
      · rw [hq l hl]
        trivial
      · exact answered.asked l hl
  | stuck run stuck => exact .stuck (h.append run) stuck

end Performed

/-- `promoteLoop` from `k` with the tickets `out` already promoted has ended in `r`. -/
def PromoteRun (now : Nat) (k : QueueKeys) (out : List Ticket) (r : Outcome × QueueKeys) : Prop :=
  ∃ ls k', Effects now k ls k' ∧ joins ls = [] ∧ claims ls = [] ∧ (∀ op, ∀ l ∈ ls, l.AskedBy op) ∧
    (r = (.reply (.tickets now (out ++ promotions ls)), k') ∨ (r = (.abort, k') ∧ Stuck now k'))

namespace PromoteRun

variable {now : Nat} {k k₁ : QueueKeys} {out : List Ticket} {r : Outcome × QueueKeys}

theorem stop : PromoteRun now k out (.reply (.tickets now out), k) :=
  ⟨[], k, .nil, rfl, rfl, by simp, .inl (by simp [promotions])⟩

theorem stuck (h : Stuck now k) : PromoteRun now k out (.abort, k) :=
  ⟨[], k, .nil, rfl, rfl, by simp, .inr ⟨rfl, h⟩⟩

theorem cons {t : Ticket} (h : Effect now k (.promoted t) k₁)
    (hr : PromoteRun now k₁ (out ++ [t]) r) : PromoteRun now k out r := by
  obtain ⟨ls, k', he, hj, hc, hasked, hr⟩ := hr
  refine ⟨.promoted t :: ls, k', .cons h he, ?_, ?_, ?_, ?_⟩
  · simpa [joins] using hj
  · simpa [claims] using hc
  · exact fun op => List.forall_mem_cons.mpr ⟨trivial, hasked op⟩
  · simpa [promotions] using hr

end PromoteRun

/-- The loop takes the head of the waiting set each time, and the batch it was
given fits under both limits from the start. -/
theorem promoteLoop_run {now : Nat} {c : Config} {ids : List String} {k : QueueKeys}
    {out : List Ticket} (config : k.room.config = some c)
    (mode : k.room.mode ≠ .hold ∧ k.room.mode ≠ .off)
    (heads : ids <+: k.room.waiting.ranking.map Prod.fst)
    (leases : ids.length + k.room.leases.size ≤ c.leaseCap)
    (rate : ids.length + k.room.rate.size ≤ c.rate) :
    PromoteRun now k out (promoteLoop now c ids k out) := by
  induction ids generalizing k out with
  | nil => exact .stop
  | cons id ids ih =>
    cases hrank : k.room.waiting.ranking with
    | nil => simp [hrank] at heads
    | cons head rest =>
      obtain ⟨a, s⟩ := head
      rw [hrank, List.map_cons, List.cons_prefix_cons] at heads
      obtain ⟨rfl, heads⟩ := heads
      cases ht : k.room.tickets.get id with
      | none =>
        simp only [promoteLoop, ht]
        exact .stuck (.inr (.inl ⟨id, s, Table.get_head hrank, ht⟩))
      | some t =>
        have next : (k.room.mode = .draining → ∃ n, k.room.cutoff = some n ∧ t.sequence ≤ n) →
            PromoteRun now k out (promoteLoop now c ids
              (promoteRow k now id (promotedTicket now c t)) (out ++ [promotedTicket now c t])) := by
          intro hcut
          have hl := Table.size_put_le k.room.leases id (score (promotedTicket now c t).readyUntil)
          have hr := Table.size_put_le k.room.rate id (score now)
          simp only [List.length_cons] at leases rate
          refine .cons (.promote config mode hrank ht hcut (by omega) (by omega))
            (ih config mode ?_ ?_ ?_)
          · simpa [promoteRow, Table.ranking_del_head hrank] using heads
          · simp only [promoteRow]; omega
          · simp only [promoteRow]; omega
        simp only [promoteLoop, ht]
        by_cases hm : k.room.mode = .draining
        · rw [if_pos hm]
          cases hcut : k.room.cutoff with
          | none => exact .stuck (.inr (.inr (.inl ⟨hm, hcut⟩)))
          | some n =>
            dsimp only
            split
            · exact .stop
            · exact next fun _ => ⟨n, hcut, by omega⟩
        · rw [if_neg hm]
          exact next fun h => absurd h hm

section Perform

variable {now : Nat} {c : Config} {k : QueueKeys}

theorem promote_performed (config : k.room.config = some c) (n : Nat) :
    Performed now (.promote n) k (promote k now c n) := by
  unfold promote
  split
  · exact .done .nil (by simp) ⟨rfl, rfl, .inr ⟨rfl, by simp [joinedBy]⟩, by simp⟩
  · rename_i hmode
    rw [not_or] at hmode
    have hlen : ((k.room.waiting.ranking.take (promoteBudget k.room c n)).map Prod.fst).length ≤
        promoteBudget k.room c n := by
      rw [List.length_map]
      exact List.length_take_le _ _
    by_cases hzero : promoteBudget k.room c n = 0
    · rw [hzero, List.take_zero]
      exact .done .nil (by simp) ⟨rfl, rfl, .inr ⟨rfl, by simp [joinedBy]⟩, by simp⟩
    · have hbudget : promoteBudget k.room c n + k.room.leases.size ≤ c.leaseCap ∧
          promoteBudget k.room c n + k.room.rate.size ≤ c.rate := by
        unfold promoteBudget at hzero ⊢
        omega
      have hrun : PromoteRun now k [] (promoteLoop now c
          ((k.room.waiting.ranking.take (promoteBudget k.room c n)).map Prod.fst) k []) :=
        promoteLoop_run config hmode ((List.take_prefix _ _).map _) (by omega) (by omega)
      obtain ⟨ls, k', he, hj, hcl, hasked, hr⟩ := hrun
      rcases hr with hr | ⟨hr, hs⟩
      · rw [hr]
        exact .done he (by simp) ⟨by simp [promotedBy], hcl, .inr ⟨hj, by simp [joinedBy]⟩,
          hasked _⟩
      · rw [hr]
        exact .stuck he hs

theorem join_performed (config : k.room.config = some c) {key fingerprint id replay : String}
    (accepted : (Op.join key fingerprint id replay).Accepted) :
    Performed now (.join key fingerprint id replay) k
      (join k now c key fingerprint id replay) := by
  unfold join
  cases hold : k.room.idem.get key with
  | some old =>
    dsimp only
    unfold joinReplay
    split
    · exact .error _
    · cases hj : old.join with
      | none =>
        cases ht : k.room.tickets.get old.id with
        | none => exact .error _
        | some t =>
          refine .done .nil (by simp) ⟨rfl, rfl, .inr ⟨rfl, ?_⟩, by simp⟩
          simp only [joinedBy, List.mem_singleton, forall_eq]
          exact .inl ⟨old.id, ht⟩
      | some snap =>
        refine .done .nil (by simp) ⟨rfl, rfl, .inr ⟨rfl, ?_⟩, by simp⟩
        simp only [joinedBy, List.mem_singleton, forall_eq]
        cases ht : k.room.tickets.get old.id with
        | none => exact .inr ⟨key, old, snap, hold, hj, rfl⟩
        | some t => exact .inl ⟨old.id, ht⟩
  | none =>
    dsimp only
    split
    · exact .error _
    · rename_i hmode
      rw [not_or] at hmode
      cases hg : k.inst.config with
      | none => exact .stuck .nil (.inr (.inr (.inr hg)))
      | some g =>
        dsimp only
        split
        · exact .error _
        · rename_i hcap
          split
          · exact .error _
          · rename_i hrow
            split
            · exact .error _
            · rename_i hseq
              refine .done (.single (.join config accepted hold (by simpa using hrow) hmode hg
                (by omega) (by omega) (by omega) (by omega) (by omega))) (by simp)
                ⟨rfl, rfl, .inl ⟨_, rfl, rfl⟩, by simp [Label.AskedBy, newTicket]⟩

theorem heartbeat_performed (config : k.room.config = some c) (id : String) :
    Performed now (.heartbeat id) k (heartbeat k now c id) := by
  unfold heartbeat
  cases ht : k.room.tickets.get id with
  | none => exact .error _
  | some t =>
    dsimp only
    split
    · rename_i hstate
      exact .done (.single (.heartbeat config ht hstate)) (by simp [answer])
        ⟨rfl, rfl, .inr ⟨rfl, by simp [joinedBy]⟩, by simp [Label.AskedBy]⟩
    · exact .done .nil (by simp [answer]) ⟨rfl, rfl, .inr ⟨rfl, by simp [joinedBy]⟩, by simp⟩

theorem claim_performed (config : k.room.config = some c) (id : String) :
    Performed now (.claim id) k (claim k now c id) := by
  unfold claim
  cases ht : k.room.tickets.get id with
  | none => exact .error _
  | some t =>
    dsimp only
    split
    · exact .error _
    · rename_i hwaiting
      split
      · exact .error _
      · rename_i hlive
        split
        · rename_i hready
          exact .done (.single (.claim config ht hready (by omega))) (by simp [answer])
            ⟨rfl, rfl, .inr ⟨rfl, by simp [joinedBy]⟩, by simp [Label.AskedBy]⟩
        · rename_i hready
          have hstate : t.state = .admitted := by
            cases hs : t.state <;> simp_all
          exact .done (.single (.reclaim config ht hstate (by omega))) (by simp [answer])
            ⟨rfl, rfl, .inr ⟨rfl, by simp [joinedBy]⟩, by simp [Label.AskedBy]⟩

theorem configure_performed (config : k.room.config = some c) (d : Desired) :
    Performed now (.configure d) k (configure k now c d) := by
  unfold configure
  split
  · exact .error _
  · split
    · split
      · exact .error _
      · exact .done .nil (by simp [answer]) ⟨rfl, rfl, .inr ⟨rfl, by simp [joinedBy]⟩, by simp⟩
    · split
      · exact .error _
      · rename_i hmode
        split
        · exact .error _
        · rename_i hcaps
          split
          · exact .error _
          · rename_i httls
            split
            · exact .error _
            · rename_i hlimits
              refine .done (.single (.configure config hmode ?_ ?_ ?_ ?_ rfl)) (by simp [answer])
                ⟨rfl, rfl, .inr ⟨rfl, by simp [joinedBy]⟩, by simp [Label.AskedBy]⟩
              · omega
              · intro hpos; omega
              · omega
              · omega

theorem perform_performed (config : k.room.config = some c) {op : Op} (accepted : op.Accepted) :
    Performed now op k (perform k now c op) := by
  cases op with
  | join key fingerprint id replay => exact join_performed config accepted
  | promote n => exact promote_performed config n
  | claim id => exact claim_performed config id
  | heartbeat id => exact heartbeat_performed config id
  | configure d => exact configure_performed config d
  | sweep => exact .done .nil (by simp [answer]) ⟨rfl, rfl, .inr ⟨rfl, by simp [joinedBy]⟩, by simp⟩
  | other => exact .error _

theorem cleanup_effects (k : QueueKeys) (now : Nat) :
    ∃ ls k', Quiet ls ∧ Effects now k ls k' ∧ k'.room.config = k.room.config ∧
      (cleanup k now = .ok (k', decide (Swept k' now)) ∨
        (cleanup k now = .error k' ∧ Stuck now k')) := by
  have hdue : ((k.room.expiry.due (score now)).take 128).Nodup :=
    (Table.due_nodup _ _).sublist (List.take_sublist _ _)
  obtain ⟨ls, k₁, hq, he, hconfig, hr⟩ := dropTickets_effects hdue
    fun id hid => Table.mem_due.mp (List.mem_of_mem_take hid)
  rcases hr with hr | ⟨hr, hs⟩
  · have hidem : ((k₁.room.idemExpiry.due (score now)).take 128).Nodup :=
      (Table.due_nodup _ _).sublist (List.take_sublist _ _)
    obtain ⟨ls', hq', he', hconfig'⟩ := dropIdems_effects hidem
      fun id hid => Table.mem_due.mp (List.mem_of_mem_take hid)
    refine ⟨_, _, (hq.append hq').append ?_, (he.append he').append (.single .release),
      hconfig'.trans hconfig, .inl ?_⟩
    · simp [Quiet]
    · simp only [cleanup, hr]
  · exact ⟨ls, k₁, hq, he, hconfig, .inr ⟨by simp only [cleanup, hr], .inl hs⟩⟩

theorem sweepAndPerform_performed (config : k.room.config = some c) {op : Op}
    (accepted : op.Accepted) : Performed now op k (sweepAndPerform k now c op) := by
  unfold sweepAndPerform
  obtain ⟨ls, k', hq, he, hconfig, hr⟩ := cleanup_effects k now
  rcases hr with hr | ⟨hr, hs⟩
  · rw [hr]
    by_cases hswept : Swept k' now
    · rw [decide_eq_true hswept]
      exact .prepend hq he (perform_performed (hconfig.trans config) accepted)
    · rw [decide_eq_false hswept]
      exact .prepend hq he (.error _)
  · rw [hr]
    exact .stuck he hs

end Perform

end WaitingRoom.Queue
