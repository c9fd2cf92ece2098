import WaitingRoom.Guard.Quota

/-!
# Memory of the public guard

Every record is written by `put`, which refuses a new one when as many are kept as
may be. A call adds up to four records; it looks beforehand whether all of them fit,
so that none of its puts is refused after the first.
-/

namespace WaitingRoom.Guard

set_option autoImplicit false

/-! ## One record -/

variable {s s' : State} {slot : Slot} {most : Nat} {c : Call} {op : Op}

theorem State.exists_put {most room : Nat} (value expires : Nat)
    (h : s.records.size + (if s.has slot then 0 else 1) + room ≤ most) :
    ∃ s', s.put most slot value expires = some s' ∧ s'.records.size + room ≤ most := by
  rcases hrow : s.records.get slot.id with _ | v
  · have hhas : s.has slot = false := by rw [State.has, hrow]; rfl
    rw [hhas, if_neg Bool.false_ne_true] at h
    refine ⟨_, if_neg (fun hfull => ?_), ?_⟩
    · omega
    · rw [Table.size_put_of_none hrow]
      omega
  · have hhas : s.has slot = true := by rw [State.has, hrow]; rfl
    rw [hhas, if_pos rfl] at h
    refine ⟨_, if_neg (fun hfull => ?_), ?_⟩
    · rw [hhas] at hfull
      cases hfull.1
    · rw [Table.size_put_of_some hrow]
      omega

theorem State.put_size_le {most value expires : Nat} (h : s.put most slot value expires = some s')
    (hs : s.records.size ≤ most) :
    s'.records.size ≤ most := by
  have hrecords : s'.records = s.records.put slot.id value := by rw [State.put_eq_some h]
  rw [hrecords]
  rcases hrow : s.records.get slot.id with _ | v
  · rw [Table.size_put_of_none hrow]
    by_contra hfull
    have hput : s.put most slot value expires = none := by
      apply if_pos
      refine ⟨by rw [State.has, hrow]; rfl, ?_⟩
      omega
    rw [hput] at h
    cases h
  · rw [Table.size_put_of_some hrow]
    exact hs

/-! ## One call -/

inductive Puts (most : Nat) (s : State) : State → Prop
  | refl : Puts most s s
  | put {t u : State} {slot : Slot} {value expires : Nat} (h : Puts most s t)
      (hput : t.put most slot value expires = some u) : Puts most s u

theorem Puts.size_le (h : Puts most s s') (hs : s.records.size ≤ most) :
    s'.records.size ≤ most := by
  induction h with
  | refl => exact hs
  | put _ hput ih => exact State.put_size_le hput ih

theorem Puts.schema_eq (h : Puts most s s') : s'.schema = s.schema := by
  induction h with
  | refl => rfl
  | put _ hput ih => rw [State.put_eq_some hput, ← ih]

theorem register_puts (s : State) (c : Call) : Puts c.most s (register s c).2 := by
  rw [register]
  split
  · exact .refl
  · split
    · exact .refl
    · next hput => exact Puts.refl.put hput

theorem Puts.pollStatus {s t : State} (h : Puts c.most s t) :
    Puts c.most s (pollStatus t c).2 := by
  simp only [Guard.pollStatus]
  split
  · exact h
  · split
    · exact h
    · next hput => exact h.put hput

theorem charge_puts (s : State) (c : Call) (op : Op) : Puts c.most s (charge s c op).2 := by
  simp only [charge]
  split
  · exact .refl
  split
  · exact .refl
  split
  · exact .refl
  next hput₁ =>
  have h₁ := Puts.refl.put hput₁
  split
  · exact h₁
  next hput₂ =>
  have h₂ := h₁.put hput₂
  split
  · exact h₂
  next s₃ hput₃ =>
  have h₃ : Puts c.most s s₃ := by
    split at hput₃
    · exact h₂.put hput₃
    · cases hput₃
      exact h₂
  split
  · exact h₃.pollStatus
  · exact h₃

theorem serve_puts (s : State) (c : Call) (op : Op) : Puts c.most s (serve s c op).2 := by
  rw [serve]
  split
  · exact register_puts s c
  · exact charge_puts s c op

/-! ## Runs -/

theorem foldl_drop_size_le (ids : List String) (s : State) :
    (ids.foldl State.drop s).records.size ≤ s.records.size := by
  induction ids generalizing s with
  | nil => exact Nat.le_refl _
  | cons i ids ih => exact (ih (s.drop i)).trans (Table.size_del_le _ _)

theorem foldl_drop_schema (ids : List String) (s : State) :
    (ids.foldl State.drop s).schema = s.schema := by
  induction ids generalizing s with
  | nil => rfl
  | cons i ids ih => exact ih (s.drop i)

theorem opened_size_le (s : State) (now : Nat) : (s.opened now).records.size ≤ s.records.size :=
  foldl_drop_size_le _ _

@[simp] theorem opened_schema (s : State) (now : Nat) : (s.opened now).schema = some "1" :=
  foldl_drop_schema _ _

theorem Sound.size_eq (hs : Sound s) : s.records.size = s.expiry.size := by
  have covers : ∀ {t u : Table String Nat}, (∀ id, t.get id = none ↔ u.get id = none) →
      t.size ≤ u.size := by
    intro t u h
    apply Table.size_le_of_covers
    intro id v hv
    rcases hu : u.get id with _ | w
    · rw [(h id).mpr hu] at hv
      cases hv
    · exact ⟨w, rfl⟩
  exact Nat.le_antisymm (covers hs.keys) (covers fun id => (hs.keys id).symm)

structure Kept (s : State) : Prop where
  schema : ∀ v, s.schema = some v → v = "1"
  sound : Sound s

theorem Kept.check_eq (h : Kept s) (hwf : c.wellFormed = true) (hop : Op.parse c.op = some op)
    (hclock : s.clock.getD 0 ≤ c.now) :
    check s c = (.ok (serve (s.opened c.now) c op).1, (serve (s.opened c.now) c op).2) := by
  have hschema : ¬ s.schema.any (· ≠ "1") = true := by
    rcases hv : s.schema with _ | v
    · exact Bool.false_ne_true
    · rw [h.schema v hv]
      decide
  rw [check, if_neg (by simp [hwf]), hop]
  dsimp only
  rw [if_neg hschema, if_neg (Nat.not_lt.mpr hclock)]
  have hsize := (h.sound.opened c.now).size_eq
  rw [if_neg (not_not.mpr hsize)]

theorem Sound.serve (hs : Sound s) (hc : c.wellFormed = true) (op : Op) :
    Sound (serve s c op).2 := by
  rw [Guard.serve]
  split
  · exact (register_served hs hc).sound
  · exact (charge_served hs hc).sound

theorem Kept.opened (h : Kept s) (now : Nat) : Kept (s.opened now) := by
  refine ⟨fun v hv => ?_, h.sound.opened now⟩
  rw [opened_schema] at hv
  exact (Option.some.inj hv).symm

theorem Kept.serve (h : Kept s) (hc : c.wellFormed = true) (op : Op) :
    Kept (serve s c op).2 := by
  refine ⟨fun v hv => ?_, h.sound.serve hc op⟩
  rw [(serve_puts s c op).schema_eq] at hv
  exact h.schema v hv

theorem Kept.check (h : Kept s) (c : Call) : Kept (check s c).2 := by
  rcases check_cases s c with ⟨-, hsame | ⟨-, hstate⟩⟩ | ⟨op, hwf, -, -, -, hstate⟩
  · rw [hsame]
    exact h
  · rw [hstate]
    exact h.opened c.now
  · rw [hstate]
    exact (h.opened c.now).serve hwf op

theorem Kept.empty : Kept State.empty := ⟨nofun, (Tracked.empty 0).sound⟩

theorem kept_of_run {Allowed : State → Call → Prop} {h : List Record}
    (hr : Run check Allowed State.empty h s) : Kept s :=
  hr.invariant Kept.empty fun _ c ih _ => ih.check c

theorem size_of_run {cap : Nat} {h : List Record}
    (hr : Run check (fun _ c => c.cap = cap) State.empty h s) : s.records.size ≤ cap * 4 + 2048 := by
  refine hr.invariant (I := fun s => s.records.size ≤ cap * 4 + 2048) (Nat.zero_le _) fun s c ih hcap => ?_
  have hopened : (s.opened c.now).records.size ≤ cap * 4 + 2048 := (opened_size_le s c.now).trans ih
  rcases check_cases s c with ⟨-, hsame | ⟨-, hstate⟩⟩ | ⟨op, -, -, -, -, hstate⟩
  · rw [hsame]
    exact ih
  · rw [hstate]
    exact hopened
  · rw [hstate]
    rw [← hcap] at hopened ⊢
    exact (serve_puts (s.opened c.now) c op).size_le hopened

/-! ## All or nothing -/

def WithinLimits (s : State) (c : Call) (op : Op) : Prop :=
  s.value (c.sourceSlot (family s c op)) < (family s c op).sourceMax ∧
    s.value (c.aggregateSlot (family s c op)) < (family s c op).roomMax c.cap
  deriving Decidable

/-- A call is denied for lack of room: a registration of a schedule that is not there, or a
call whose missing records do not all fit. -/
def Full (s : State) (c : Call) (op : Op) : Prop :=
  op = .register ∧ s.has c.poll = false ∧ c.most ≤ s.records.size ∨
    op ≠ .register ∧ WithinLimits s c op ∧ c.most < s.records.size + needed s c op
  deriving Decidable

def Due (s : State) (c : Call) : Prop := ∀ next, s.records.get c.poll.id = some next → next ≤ c.now

/-- Every put that the call makes goes through, each on what the one before has left, and
they lead to `s'`. -/
def PutsSucceed (s : State) (c : Call) (op : Op) (s' : State) : Prop :=
  if op = .register then
    if s.has c.poll then s' = s
    else s.put c.most c.poll (c.now + c.interval) (c.now + 60000) = some s'
  else ∃ s₁ s₂ s₃,
    s.put c.most (c.sourceSlot (family s c op)) (s.value (c.sourceSlot (family s c op)) + 1) c.reset =
      some s₁ ∧
    s₁.put c.most (c.aggregateSlot (family s c op))
      (s.value (c.aggregateSlot (family s c op)) + 1) c.reset = some s₂ ∧
    (if isFresh s c op then s₂.put c.most c.seen 1 (c.now + 600000) else some s₂) = some s₃ ∧
    (op = .status ∧ Due s c →
      s₃.put c.most c.poll (c.now + c.interval) (c.now + 60000) = some s') ∧
    (¬ (op = .status ∧ Due s c) → s' = s₃)

/-- What a call answers that has room and is within the limits: only the schedule of its
poll can put it off. -/
def scheduled (s : State) (c : Call) (op : Op) : Decision :=
  match op, s.records.get c.poll.id with
  | .register, next => c.reply true (next.getD (c.now + c.interval) - c.now)
  | .status, none => c.reply false c.interval
  | .status, some next => if c.now < next then c.reply false (next - c.now) else c.reply true 0
  | _, _ => c.reply true 0

theorem scheduled_of_ne (hregister : op ≠ .register) (hstatus : op ≠ .status) :
    scheduled s c op = c.reply true 0 := by
  cases op with
  | register => exact absurd rfl hregister
  | status => exact absurd rfl hstatus
  | join => rfl
  | claim => rfl
  | heartbeat => rfl

theorem State.get_put_ne {most value expires : Nat} (h : s.put most slot value expires = some s')
    {other : Slot} (hne : other.id ≠ slot.id) :
    s'.records.get other.id = s.records.get other.id := by
  rw [State.put_eq_some h, Table.get_put_ne hne]

theorem pollStatus_of_room {s t : State} (hpoll : t.records.get c.poll.id = s.records.get c.poll.id)
    (h : t.records.size + (if s.has c.poll then 0 else 1) ≤ c.most) :
    ∃ s', pollStatus t c = (scheduled s c .status, s') ∧
      (Due s c → t.put c.most c.poll (c.now + c.interval) (c.now + 60000) = some s') ∧
      (¬ Due s c → s' = t) := by
  have hhas : t.has c.poll = s.has c.poll := by rw [State.has, State.has, hpoll]
  obtain ⟨t', hput, -⟩ := State.exists_put (c.now + c.interval) (c.now + 60000)
    (show t.records.size + (if t.has c.poll then 0 else 1) + 0 ≤ c.most by rw [hhas]; exact h)
  unfold pollStatus scheduled Due
  rw [hpoll, hput]
  rcases s.records.get c.poll.id with _ | next
  · exact ⟨t', rfl, fun _ => rfl, fun hdue => absurd (fun _ hn => by cases hn) hdue⟩
  · by_cases hlt : c.now < next
    · refine ⟨t, ?_, fun hdue => absurd (hdue next rfl) (Nat.not_le.mpr hlt), fun _ => rfl⟩
      simp [hlt]
    · refine ⟨t', ?_, fun _ => rfl, fun hdue => absurd (fun n hn => ?_) hdue⟩
      · simp [hlt]
      · obtain rfl := Option.some.inj hn
        exact Nat.not_lt.mp hlt

/-- The join record of a call that is a first one, with room for it. -/
theorem exists_seen_put {t : State} {room : Nat} (hc : c.wellFormed = true)
    (hseen : t.has c.seen = s.has c.seen)
    (h : t.records.size + ((if isFresh s c op then 1 else 0) + room) ≤ c.most) :
    ∃ s', (if isFresh s c op then t.put c.most c.seen 1 (c.now + 600000) else some t) = some s' ∧
      s'.records.size + room ≤ c.most ∧
      s'.records.get c.poll.id = t.records.get c.poll.id := by
  by_cases hfresh : isFresh s c op = true
  · have hnew : t.has c.seen = false := by
      rw [isFresh, Bool.and_eq_true] at hfresh
      rw [hseen]
      simpa using hfresh.2
    rw [if_pos hfresh] at h ⊢
    obtain ⟨s', hput, hroom⟩ := State.exists_put 1 (c.now + 600000)
      (show t.records.size + (if t.has c.seen then 0 else 1) + room ≤ c.most by
        rw [hnew, if_neg Bool.false_ne_true]
        omega)
    refine ⟨s', hput, hroom, State.get_put_ne hput ?_⟩
    exact Slot.id_ne (Call.poll_plain hc) (Call.seen_plain hc) (by rintro ⟨⟩)
  · rw [if_neg hfresh] at h ⊢
    exact ⟨t, rfl, by omega, rfl⟩

theorem charge_of_room (hc : c.wellFormed = true) (hop : op ≠ .register)
    (hlimits : WithinLimits s c op) (h : s.records.size + needed s c op ≤ c.most) :
    ∃ s', PutsSucceed s c op s' ∧ charge s c op = (scheduled s c op, s') := by
  have hsource := Call.sourceSlot_plain hc (family s c op)
  have haggregate := Call.aggregateSlot_plain hc (family s c op)
  have hcharge : ¬ ((family s c op).sourceMax ≤ s.value (c.sourceSlot (family s c op)) ∨
      (family s c op).roomMax c.cap ≤ s.value (c.aggregateSlot (family s c op))) :=
    not_or.mpr ⟨Nat.not_le.mpr hlimits.1, Nat.not_le.mpr hlimits.2⟩
  unfold PutsSucceed charge
  simp only [if_neg hop, if_neg hcharge, if_neg (Nat.not_lt.mpr h)]
  unfold needed at h
  -- the room for the records that come later is carried along
  generalize hlater : (if op = .status && !s.has c.poll then 1 else 0) = later at h
  obtain ⟨s₁, hput₁, hroom₁⟩ := State.exists_put
    (s.value (c.sourceSlot (family s c op)) + 1) c.reset
    (show s.records.size + (if s.has (c.sourceSlot (family s c op)) then 0 else 1) +
      ((if s.has (c.aggregateSlot (family s c op)) then 0 else 1) +
        ((if isFresh s c op then 1 else 0) + later)) ≤ c.most by omega)
  have hkeeps₁ : ∀ slot : Slot, slot.Plain → slot ≠ c.sourceSlot (family s c op) →
      s₁.records.get slot.id = s.records.get slot.id :=
    fun slot hp hne => State.get_put_ne hput₁ (Slot.id_ne hp hsource hne)
  have hhas₁ : s₁.has (c.aggregateSlot (family s c op)) = s.has (c.aggregateSlot (family s c op)) := by
    rw [State.has, State.has, hkeeps₁ _ haggregate (by rintro ⟨⟩)]
  rw [← hhas₁] at hroom₁
  obtain ⟨s₂, hput₂, hroom₂⟩ := State.exists_put
    (s.value (c.aggregateSlot (family s c op)) + 1) c.reset
    (show s₁.records.size + (if s₁.has (c.aggregateSlot (family s c op)) then 0 else 1) +
      ((if isFresh s c op then 1 else 0) + later) ≤ c.most by omega)
  have hkeeps₂ : ∀ slot : Slot, slot.Plain → slot ≠ c.sourceSlot (family s c op) →
      slot ≠ c.aggregateSlot (family s c op) → s₂.records.get slot.id = s.records.get slot.id := by
    intro slot hp hne hne'
    rw [State.get_put_ne hput₂ (Slot.id_ne hp haggregate hne'), hkeeps₁ slot hp hne]
  have hhas₂ : s₂.has c.seen = s.has c.seen := by
    rw [State.has, State.has, hkeeps₂ _ (Call.seen_plain hc) (by rintro ⟨⟩) (by rintro ⟨⟩)]
  obtain ⟨s₃, hput₃, hroom₃, hkept₃⟩ := exists_seen_put hc hhas₂ hroom₂
  rw [hkeeps₂ _ (Call.poll_plain hc) (by rintro ⟨⟩) (by rintro ⟨⟩)] at hkept₃
  rw [hput₁]
  dsimp only
  rw [hput₂]
  dsimp only
  rw [hput₃]
  dsimp only
  by_cases hstatus : op = .status
  · subst hstatus
    have hroom : s₃.records.size + (if s.has c.poll then 0 else 1) ≤ c.most := by
      rw [← hlater] at hroom₃
      rcases hhas : s.has c.poll <;> rw [hhas] at hroom₃ <;> exact hroom₃
    obtain ⟨s', hserved, hdue, hwait⟩ := pollStatus_of_room hkept₃ hroom
    rw [if_pos rfl, hserved]
    exact ⟨s', ⟨s₁, s₂, s₃, rfl, hput₂, hput₃, fun hs => hdue hs.2, fun hs => hwait fun hd => hs ⟨rfl, hd⟩⟩,
      rfl⟩
  · rw [if_neg hstatus]
    refine ⟨s₃, ⟨s₁, s₂, s₃, rfl, hput₂, hput₃, fun hs => absurd hs.1 hstatus, fun _ => rfl⟩, ?_⟩
    rw [scheduled_of_ne hop hstatus]

theorem register_of_room (h : s.has c.poll = true ∨ s.records.size < c.most) :
    ∃ s', PutsSucceed s c .register s' ∧ register s c = (scheduled s c .register, s') := by
  have hputs : ∀ s', PutsSucceed s c .register s' = if s.has c.poll then s' = s
      else s.put c.most c.poll (c.now + c.interval) (c.now + 60000) = some s' := fun _ => if_pos rfl
  unfold register scheduled
  rcases hnext : s.records.get c.poll.id with _ | next
  · have hhas : s.has c.poll = false := by rw [State.has, hnext]; rfl
    rw [hhas] at h
    obtain ⟨s', hput, -⟩ := State.exists_put (c.now + c.interval) (c.now + 60000)
      (show s.records.size + (if s.has c.poll then 0 else 1) + 0 ≤ c.most by
        rw [hhas, if_neg Bool.false_ne_true]
        exact h.resolve_left Bool.false_ne_true)
    refine ⟨s', ?_, ?_⟩
    · rw [hputs, hhas, if_neg Bool.false_ne_true]
      exact hput
    · simp only [hput, Option.getD_none]
  · have hhas : s.has c.poll = true := by rw [State.has, hnext]; rfl
    refine ⟨s, ?_, rfl⟩
    rw [hputs, if_pos hhas]

theorem serve_of_room (hc : c.wellFormed = true) (hlimits : op = .register ∨ WithinLimits s c op)
    (hroom : ¬ Full s c op) :
    ∃ s', PutsSucceed s c op s' ∧ serve s c op = (scheduled s c op, s') := by
  obtain ⟨hregister, hcharge⟩ := not_or.mp hroom
  rw [serve]
  by_cases hop : op = .register
  · subst hop
    rw [if_pos rfl]
    refine register_of_room ?_
    by_contra hfull
    obtain ⟨hpoll, hfull⟩ := not_or.mp hfull
    exact hregister ⟨rfl, Bool.eq_false_of_not_eq_true hpoll, Nat.not_lt.mp hfull⟩
  · rw [if_neg hop]
    have hwithin := hlimits.resolve_left hop
    exact charge_of_room hc hop hwithin (Nat.not_lt.mp fun hfull => hcharge ⟨hop, hwithin, hfull⟩)

theorem serve_of_spent (hop : op ≠ .register) (h : ¬ WithinLimits s c op) :
    serve s c op = (c.reply false (c.reset - c.now), s) := by
  rw [serve, if_neg hop, charge]
  refine if_pos ?_
  by_contra hwithin
  obtain ⟨hsource, haggregate⟩ := not_or.mp hwithin
  exact h ⟨Nat.not_le.mp hsource, Nat.not_le.mp haggregate⟩

theorem serve_of_full (h : Full s c op) :
    serve s c op = (c.reply false 3000, s) := by
  rcases h with ⟨rfl, hpoll, hfull⟩ | ⟨hop, ⟨hsource, haggregate⟩, hfull⟩
  · have hnone : s.records.get c.poll.id = none := by
      rw [State.has, Option.isSome_eq_false_iff, Option.isNone_iff_eq_none] at hpoll
      exact hpoll
    have hput : s.put c.most c.poll (c.now + c.interval) (c.now + 60000) = none := if_pos ⟨hpoll, hfull⟩
    rw [serve, if_pos rfl, register, hnone]
    simp only [hput]
  · rw [serve, if_neg hop, charge, if_neg, if_pos hfull]
    push Not
    exact ⟨hsource, haggregate⟩

/-- With one capacity, records and expiry times always have the same names, of which there
are never more than four for each visitor and 2048. A call that is denied for lack of room,
or for its counters, changes nothing after the sweep; every other call is answered as its
schedule says, with all of its puts made. -/
theorem memory_bounded {cap : Nat} {h : List Record} {s : State}
    (hr : Run check (fun _ c => c.cap = cap) State.empty h s) :
    (∀ id, s.records.get id = none ↔ s.expiry.get id = none) ∧
    (s.records.size ≤ 4 * cap + 2048 ∧ s.expiry.size ≤ 4 * cap + 2048) ∧
    ∀ c op, c.cap = cap → c.wellFormed = true → Op.parse c.op = some op → s.clock.getD 0 ≤ c.now →
      (Full (s.opened c.now) c op → check s c = (.ok (c.reply false 3000), s.opened c.now)) ∧
      (op ≠ .register → ¬ WithinLimits (s.opened c.now) c op →
        check s c = (.ok (c.reply false (c.reset - c.now)), s.opened c.now)) ∧
      (op = .register ∨ WithinLimits (s.opened c.now) c op → ¬ Full (s.opened c.now) c op →
        ∃ s', PutsSucceed (s.opened c.now) c op s' ∧
          check s c = (.ok (scheduled (s.opened c.now) c op), s')) := by
  have hk := kept_of_run hr
  have hsize := size_of_run hr
  rw [Nat.mul_comm] at hsize
  refine ⟨hk.sound.keys, ⟨hsize, hk.sound.size_eq ▸ hsize⟩, fun c op _ hwf hop hclock => ?_⟩
  rw [hk.check_eq hwf hop hclock]
  refine ⟨fun hfull => ?_, fun hother hspent => ?_, fun hlimits hroom => ?_⟩
  · rw [serve_of_full hfull]
  · rw [serve_of_spent hother hspent]
  · obtain ⟨s', hputs, hserve⟩ := serve_of_room hwf hlimits hroom
    rw [hserve]
    exact ⟨s', hputs, rfl⟩

def registration (n : Nat) : Call := { sampleJoin 60000 with op := "register", epoch := n + 1 }

theorem registration_wellFormed (n : Nat) : (registration n).wellFormed = true := by
  have hone : (registration 0).wellFormed = true := by decide
  rw [Call.wellFormed_iff] at hone ⊢
  exact ⟨hone.1, hone.2.1, hone.2.2.1, Nat.le_add_left 1 n, hone.2.2.2.2⟩

theorem registration_most (n : Nat) : (registration n).most = 42048 := by
  have hcap : (registration n).cap = 10000 := rfl
  rw [Call.most, hcap]

theorem registration_id_ne {m n : Nat} (h : m ≠ n) :
    (registration m).poll.id ≠ (registration n).poll.id := by
  refine Slot.id_ne (Call.poll_plain (registration_wellFormed m))
    (Call.poll_plain (registration_wellFormed n)) fun heq => h ?_
  injection heq with _ hepoch
  exact Nat.succ.inj hepoch

theorem registered {n : Nat} (hn : n ≤ 42048) : ∃ h s,
    Run check (fun _ c => c.cap = 10000) State.empty h s ∧ s.records.size = n ∧
      s.clock.getD 0 ≤ 60000 ∧ (∀ m, n ≤ m → s.records.get (registration m).poll.id = none) ∧
      s.expiry.due 60000 = [] := by
  induction n with
  | zero => exact ⟨[], State.empty, .nil, rfl, Nat.zero_le _, fun _ _ => rfl, rfl⟩
  | succ n ih =>
    obtain ⟨h, s, hr, hsize, hclock, hfree, hdue⟩ := ih (Nat.le_of_succ_le hn)
    have hopened : s.opened 60000 = { s with schema := some "1", clock := some 60000 } := by
      rw [State.opened, hdue]
      rfl
    have hnone := hfree n le_rfl
    have hhas : (s.opened 60000).has (registration n).poll = false := by
      rw [hopened, State.has, hnone]
      rfl
    have hroom : (s.opened 60000).records.size < (registration n).most := by
      rw [hopened, registration_most]
      dsimp only
      omega
    obtain ⟨s', hputs, hserve⟩ := register_of_room (.inr hroom)
    rw [PutsSucceed, if_pos rfl, hhas, if_neg Bool.false_ne_true] at hputs
    have hput := State.put_eq_some hputs
    rw [hopened] at hput
    have hcheck : (check s (registration n)).2 = s' := by
      have hop : Op.parse (registration n).op = some .register := rfl
      rw [(kept_of_run hr).check_eq (registration_wellFormed n) hop hclock]
      exact congrArg Prod.snd hserve
    refine ⟨_, s', hcheck ▸ hr.snoc (registration n) rfl, ?_, ?_, fun m hm => ?_, ?_⟩
    · have hgrown : s'.records.size = s.records.size + 1 := by
        rw [hput]
        exact Table.size_put_of_none hnone
      rw [hgrown, hsize]
    · rw [hput]
      exact Nat.le_refl 60000
    · rw [hput, Table.get_put_ne (registration_id_ne (Nat.ne_of_gt hm))]
      exact hfree m (Nat.le_of_succ_le hm)
    · rw [List.eq_nil_iff_forall_not_mem]
      intro id hid
      obtain ⟨x, hx, hle⟩ := Table.mem_due.mp hid
      rw [hput, Table.get_put] at hx
      split at hx
      · have hx := Option.some.inj hx
        have hnow : (registration n).now = 60000 := rfl
        omega
      · exact List.not_mem_nil (hdue ▸ Table.mem_due.mpr ⟨x, hx, hle⟩)

/-- With all room taken the next registration is denied and changes nothing; a first join
into the empty store is let in, with three records made. -/
theorem full_and_free_bounded :
    (∃ s, s.records.size = 42048 ∧ check s (registration 42048) =
      (.ok ((registration 42048).reply false 3000), s.opened 60000)) ∧
    ∃ s', PutsSucceed (State.empty.opened 60000) (sampleJoin 60000) .join s' ∧
      check State.empty (sampleJoin 60000) = (.ok ((sampleJoin 60000).reply true 0), s') := by
  constructor
  · obtain ⟨h, s, hr, hsize, hclock, hfree, hdue⟩ := registered (Nat.le_refl 42048)
    have hopened : (s.opened 60000).records = s.records := by
      rw [State.opened, hdue]
      rfl
    have hfull : Full (s.opened 60000) (registration 42048) .register := by
      refine .inl ⟨rfl, ?_, ?_⟩
      · rw [State.has, hopened, hfree 42048 le_rfl]
        rfl
      · rw [hopened, hsize, registration_most]
    exact ⟨s, hsize, ((memory_bounded hr).2.2 (registration 42048) .register rfl
      (registration_wellFormed _) rfl hclock).1 hfull⟩
  · exact ((memory_bounded .nil).2.2 (sampleJoin 60000) .join rfl (by decide) (by decide)
      (Nat.zero_le _)).2.2 (.inr (by decide)) (by decide)

end WaitingRoom.Guard
