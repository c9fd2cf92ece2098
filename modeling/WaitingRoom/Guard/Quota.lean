import WaitingRoom.Guard.Check

/-!
# Quotas of the public guard

A counter of a minute carries the end of that minute as its expiry time, so it
can only be swept when the clock has left the minute for good. What it counts is
then bounded by its value, and its value by the limit at which it stops.
-/

namespace WaitingRoom.Guard

set_option autoImplicit false

/-! ## Names are unambiguous -/

def Slot.Plain (slot : Slot) : Prop := ∀ p ∈ slot.parts, ':' ∉ p.toList

theorem colon_notMem_toDigits (n : Nat) : ':' ∉ Nat.toDigits 10 n :=
  fun h => absurd (Nat.isDigit_of_mem_toDigits (by decide) (by decide) h) (by decide)

theorem toString_nat_injective {m n : Nat} (h : toString m = toString n) : m = n := by
  have hdigits := congrArg (fun s => Nat.ofDigitChars 10 s.toList 0) h
  simpa [Nat.toString_eq_ofList_toDigits, Nat.ofDigitChars_toDigits] using hdigits

theorem Family.text_injective {f g : Family} (h : f.text = g.text) : f = g := by
  cases f <;> cases g <;> first | rfl | exact absurd h (by decide)

variable {a b slot : Slot} {c : Call} {s t u s' : State} {value expires minute most cap : Nat}
  {op : Op}

theorem Slot.parts_injective (h : a.parts = b.parts) : a = b := by
  cases a <;> cases b <;> simp only [Slot.parts, List.cons.injEq] at h
  case poll.poll => obtain ⟨-, rfl, he, rfl, -⟩ := h; rw [toString_nat_injective he]
  case seen.seen => obtain ⟨-, rfl, he, rfl, -⟩ := h; rw [toString_nat_injective he]
  case source.source =>
    obtain ⟨-, rfl, he, hf, rfl, hm, -⟩ := h
    rw [toString_nat_injective he, Family.text_injective hf, toString_nat_injective hm]
  case aggregate.aggregate =>
    obtain ⟨-, rfl, he, hf, hm, -⟩ := h
    rw [toString_nat_injective he, Family.text_injective hf, toString_nat_injective hm]
  all_goals exact absurd h.1 (by decide)

theorem Slot.id_injective (ha : a.Plain) (hb : b.Plain) (h : a.id = b.id) : a = b := by
  have split : ∀ slot : Slot, slot.Plain →
      List.splitOn ':' slot.id.toList = slot.parts.map String.toList := by
    intro slot hs
    rw [Slot.id, String.toList_intercalate]
    apply List.splitOn_intercalate
    · intro l hl
      obtain ⟨p, hp, rfl⟩ := List.mem_map.mp hl
      exact hs p hp
    · cases slot <;> exact List.cons_ne_nil _ _
  have hparts : a.parts.map String.toList = b.parts.map String.toList := by
    rw [← split a ha, ← split b hb, h]
  exact Slot.parts_injective (List.map_injective_iff.mpr (fun _ _ => String.toList_inj.mp) hparts)

theorem colon_notMem_of_all {p : Char → Bool} {cs : List Char} (h : cs.all p = true)
    (hp : p ':' = false) : ':' ∉ cs := by
  intro hm
  have hc := List.all_eq_true.mp h _ hm
  rw [hp] at hc
  cases hc

theorem Call.wellFormed_iff : c.wellFormed = true ↔
    (c.room.toList.length = 20 ∧ c.room.toList.all roomChar = true) ∧ hex64 c.source = true ∧
      hex64 c.credential = true ∧ 1 ≤ c.epoch ∧ (c.cap = 10000 ∨ c.cap = 100000) := by
  simp only [Call.wellFormed, Bool.and_eq_true, Bool.or_eq_true, decide_eq_true_eq]
  tauto

section Plain

variable {c : Call} (hc : c.wellFormed = true)
include hc

theorem Call.room_plain : ':' ∉ c.room.toList :=
  colon_notMem_of_all (Call.wellFormed_iff.mp hc).1.2 (by decide)

theorem Call.source_plain : ':' ∉ c.source.toList := by
  have h := (Call.wellFormed_iff.mp hc).2.1
  rw [hex64, Bool.and_eq_true] at h
  exact colon_notMem_of_all h.2 (by decide)

theorem Call.credential_plain : ':' ∉ c.credential.toList := by
  have h := (Call.wellFormed_iff.mp hc).2.2.1
  rw [hex64, Bool.and_eq_true] at h
  exact colon_notMem_of_all h.2 (by decide)

theorem Call.poll_plain : c.poll.Plain := by
  simp [Call.poll, Slot.Plain, Slot.parts, Call.room_plain hc, Call.credential_plain hc,
    colon_notMem_toDigits]

theorem Call.seen_plain : c.seen.Plain := by
  simp [Call.seen, Slot.Plain, Slot.parts, Call.room_plain hc, Call.credential_plain hc,
    colon_notMem_toDigits]

theorem Call.sourceSlot_plain (f : Family) : (c.sourceSlot f).Plain := by
  cases f <;> simp [Call.sourceSlot, Slot.Plain, Slot.parts, Call.room_plain hc,
    Call.source_plain hc, colon_notMem_toDigits, Family.text]

theorem Call.aggregateSlot_plain (f : Family) : (c.aggregateSlot f).Plain := by
  cases f <;> simp [Call.aggregateSlot, Slot.Plain, Slot.parts, Call.room_plain hc,
    colon_notMem_toDigits, Family.text]

end Plain

/-! ## What a call does to the records -/

def Slot.minute? : Slot → Option Nat
  | .poll .. => none
  | .seen .. => none
  | .source _ _ _ _ minute => some minute
  | .aggregate _ _ _ minute => some minute

def Slot.limit (cap : Nat) : Slot → Nat
  | .poll .. => 0
  | .seen .. => 0
  | .source _ _ f _ _ => f.sourceMax
  | .aggregate _ _ f _ => f.roomMax cap

def Slot.IsSeen : Slot → Prop
  | .seen .. => True
  | _ => False

/-- Records and expiry times have the same names, and counters the expiry time of
their minute. -/
structure Sound (s : State) : Prop where
  keys : ∀ id, s.records.get id = none ↔ s.expiry.get id = none
  stamps : ∀ (slot : Slot) (minute : Nat), slot.Plain → slot.minute? = some minute →
    ∀ x, s.expiry.get slot.id = some x → x = (minute + 1) * 60000

/-- From `s` to `s'` no counter went down and no join record was touched. -/
structure Grown (s s' : State) : Prop where
  clock : s'.clock = s.clock
  counts : ∀ (slot : Slot) (minute : Nat), slot.Plain → slot.minute? = some minute → s.value slot ≤ s'.value slot
  joins : ∀ (slot : Slot) (x : Nat), slot.Plain → slot.IsSeen → s.expiry.get slot.id = some x →
    s'.expiry.get slot.id = some x

theorem Grown.refl (s : State) : Grown s s := ⟨rfl, fun _ _ _ _ => Nat.le_refl _, fun _ _ _ _ h => h⟩

theorem Grown.trans (h : Grown s t) (h' : Grown t u) : Grown s u where
  clock := h'.clock.trans h.clock
  counts slot minute hp hm := (h.counts slot minute hp hm).trans (h'.counts slot minute hp hm)
  joins slot x hp hs hx := h'.joins slot x hp hs (h.joins slot x hp hs hx)

/-- What `put` is given: a counter goes up and expires with its minute, a join
record is new. -/
def Fine (s : State) (value expires : Nat) : Slot → Prop
  | .poll .. => True
  | .seen room epoch credential => s.has (.seen room epoch credential) = false
  | .source room epoch family peer minute =>
    expires = (minute + 1) * 60000 ∧ s.value (.source room epoch family peer minute) ≤ value
  | .aggregate room epoch family minute =>
    expires = (minute + 1) * 60000 ∧ s.value (.aggregate room epoch family minute) ≤ value

theorem Fine.counter (h : Fine s value expires slot) (hm : slot.minute? = some minute) :
    expires = (minute + 1) * 60000 ∧ s.value slot ≤ value := by
  cases slot with
  | poll => cases hm
  | seen => cases hm
  | source => obtain rfl := Option.some.inj hm; exact h
  | aggregate => obtain rfl := Option.some.inj hm; exact h

theorem State.put_eq_some (h : s.put most slot value expires = some s') :
    s' = { s with
      records := s.records.put slot.id value, expiry := s.expiry.put slot.id expires } := by
  rw [State.put] at h
  split at h
  · cases h
  · exact (Option.some.inj h).symm

section Put

variable {s s' : State} {most value expires : Nat} {slot : Slot}
  (h : s.put most slot value expires = some s')
include h

theorem State.value_put_self : s'.value slot = value := by
  rw [State.put_eq_some h, State.value, Table.get_put_self, Option.getD_some]

theorem State.expiry_put_self : s'.expiry.get slot.id = some expires := by
  rw [State.put_eq_some h, Table.get_put_self]

variable {other : Slot} (hne : other.id ≠ slot.id)
include hne

theorem State.value_put_ne : s'.value other = s.value other := by
  rw [State.put_eq_some h, State.value, State.value, Table.get_put_ne hne]

theorem State.has_put_ne : s'.has other = s.has other := by
  rw [State.put_eq_some h, State.has, State.has, Table.get_put_ne hne]

theorem State.expiry_put_ne : s'.expiry.get other.id = s.expiry.get other.id := by
  rw [State.put_eq_some h, Table.get_put_ne hne]

end Put

theorem Sound.has_eq_false (hs : Sound s) (h : s.has slot = false) :
    s.expiry.get slot.id = none := by
  rw [State.has, Option.isSome_eq_false_iff, Option.isNone_iff_eq_none] at h
  exact (hs.keys _).mp h

theorem Sound.put (hs : Sound s) (hp : slot.Plain) (hfine : Fine s value expires slot)
    (h : s.put most slot value expires = some s') : Sound s' ∧ Grown s s' := by
  refine ⟨⟨fun id => ?_, fun other minute ho hm x hx => ?_⟩,
    ⟨by rw [State.put_eq_some h], fun other minute ho hm => ?_, fun other x ho hseen hx => ?_⟩⟩
  · rw [State.put_eq_some h, Table.get_put, Table.get_put]
    split
    · simp
    · exact hs.keys id
  · by_cases heq : other.id = slot.id
    · obtain rfl := Slot.id_injective ho hp heq
      rw [State.expiry_put_self h] at hx
      exact Option.some.inj hx ▸ (hfine.counter hm).1
    · rw [State.expiry_put_ne h heq] at hx
      exact hs.stamps other minute ho hm x hx
  · by_cases heq : other.id = slot.id
    · obtain rfl := Slot.id_injective ho hp heq
      rw [State.value_put_self h]
      exact (hfine.counter hm).2
    · rw [State.value_put_ne h heq]
  · by_cases heq : other.id = slot.id
    · obtain rfl := Slot.id_injective ho hp heq
      cases other with
      | seen => rw [hs.has_eq_false hfine] at hx; cases hx
      | _ => exact hseen.elim
    · rwa [State.expiry_put_ne h heq]

theorem Slot.id_ne (ha : a.Plain) (hb : b.Plain) (h : a ≠ b) : a.id ≠ b.id :=
  fun heq => h (Slot.id_injective ha hb heq)

structure Quiet (s s' : State) : Prop where
  sound : Sound s'
  grown : Grown s s'
  joins : ∀ slot : Slot, slot.Plain → slot.IsSeen → s'.has slot = s.has slot

theorem Quiet.refl (hs : Sound s) : Quiet s s := ⟨hs, .refl s, fun _ _ _ => rfl⟩

theorem Quiet.put (h : Quiet s t) (hp : slot.Plain) (hfine : Fine t value expires slot)
    (hother : ¬ slot.IsSeen) (hput : t.put most slot value expires = some u) : Quiet s u := by
  obtain ⟨hsound, hgrown⟩ := h.sound.put hp hfine hput
  refine ⟨hsound, h.grown.trans hgrown, fun other ho hseen => ?_⟩
  have hne : other ≠ slot := fun heq => hother (heq ▸ hseen)
  rw [State.has_put_ne hput (Slot.id_ne ho hp hne)]
  exact h.joins other ho hseen

theorem Quiet.pollStatus (h : Quiet s t) (hc : c.wellFormed = true) :
    Quiet s (pollStatus t c).2 := by
  simp only [Guard.pollStatus]
  split
  · exact h
  · split
    · exact h
    · next hput => exact h.put (Call.poll_plain hc) trivial id hput

/-- What one operation did. `charged` are the counters that an allowed one has
moved. -/
structure Served (s : State) (c : Call) (fresh : Bool) (charged : List Slot) (d : Decision)
    (s' : State) : Prop where
  sound : Sound s'
  grown : Grown s s'
  counted : d.allowed = true → ∀ slot ∈ charged,
    s.value slot < slot.limit c.cap ∧ s.value slot + 1 ≤ s'.value slot
  recorded : ∀ slot : Slot, slot.Plain → slot.IsSeen → s'.has slot = true →
    s.has slot = true ∨ slot = c.seen ∧ fresh = true ∧ d.allowed = true
  stamped : d.allowed = true → fresh = true →
    s'.expiry.get c.seen.id = some (c.now + 600000)

theorem Quiet.denied {fresh : Bool} {charged : List Slot} {wait : Nat} (h : Quiet s s') :
    Served s c fresh charged (c.reply false wait) s' :=
  ⟨h.sound, h.grown, nofun, fun slot hp hseen hs => .inl (h.joins slot hp hseen ▸ hs), nofun⟩

theorem register_served (hs : Sound s) (hc : c.wellFormed = true) :
    Served s c false [] (register s c).1 (register s c).2 := by
  have quiet : ∀ {s' : State} {d : Decision}, Quiet s s' → Served s c false [] d s' := by
    intro s' d h
    exact ⟨h.sound, h.grown, nofun, fun slot hp hseen hs => .inl (h.joins slot hp hseen ▸ hs), nofun⟩
  rw [register]
  split
  · exact quiet (.refl hs)
  · split
    · exact quiet (.refl hs)
    · next hput => exact quiet ((Quiet.refl hs).put (Call.poll_plain hc) trivial id hput)

theorem charge_served (hs : Sound s) (hc : c.wellFormed = true) :
    Served s c (isFresh s c op)
      [c.sourceSlot (family s c op), c.aggregateSlot (family s c op)]
      (charge s c op).1 (charge s c op).2 := by
  have hsource := Call.sourceSlot_plain hc (family s c op)
  have haggregate := Call.aggregateSlot_plain hc (family s c op)
  have hne : c.aggregateSlot (family s c op) ≠ c.sourceSlot (family s c op) := nofun
  simp only [charge]
  split
  · exact (Quiet.refl hs).denied
  next hlimit =>
  obtain ⟨hsc, hrc⟩ := not_or.mp hlimit
  split
  · exact (Quiet.refl hs).denied
  split
  · exact (Quiet.refl hs).denied
  next s₁ hput₁ =>
  have h₁ := (Quiet.refl hs).put hsource ⟨rfl, Nat.le_succ _⟩ id hput₁
  have hvalue₁ := State.value_put_ne hput₁ (Slot.id_ne haggregate hsource hne)
  split
  · exact h₁.denied
  next s₂ hput₂ =>
  have h₂ := h₁.put haggregate ⟨rfl, hvalue₁.trans_le (Nat.le_succ _)⟩ id hput₂
  -- the two counters have moved; nothing after this takes them back
  have hcounted : ∀ s', Grown s₂ s' →
      ∀ slot ∈ [c.sourceSlot (family s c op), c.aggregateSlot (family s c op)],
        s.value slot < slot.limit c.cap ∧ s.value slot + 1 ≤ s'.value slot := by
    intro s' hg slot hslot
    rcases List.mem_pair.mp hslot with rfl | rfl
    · refine ⟨Nat.lt_of_not_le hsc, ?_⟩
      have hmoved := State.value_put_ne hput₂ (Slot.id_ne hsource haggregate hne.symm)
      rw [State.value_put_self hput₁] at hmoved
      exact hmoved ▸ hg.counts _ _ hsource rfl
    · refine ⟨Nat.lt_of_not_le hrc, ?_⟩
      have hmoved := State.value_put_self hput₂
      exact hmoved ▸ hg.counts _ _ haggregate rfl
  by_cases hfresh : isFresh s c op = true
  · have hjoin : op = .join ∧ s.has c.seen = false := by simpa [isFresh] using hfresh
    rw [if_pos hfresh]
    split
    · exact h₂.denied
    next s₃ hput₃ =>
    have hseen := Call.seen_plain hc
    have hnew : s₂.has c.seen = false := (h₂.joins _ hseen trivial).trans hjoin.2
    obtain ⟨hsound, hgrown⟩ := h₂.sound.put hseen hnew hput₃
    rw [if_neg (by rw [hjoin.1]; decide)]
    refine ⟨hsound, h₂.grown.trans hgrown, fun _ => hcounted s₃ hgrown, ?_, ?_⟩
    · intro slot hp hs' hhas
      by_cases heq : slot = c.seen
      · exact .inr ⟨heq, hfresh, rfl⟩
      · rw [State.has_put_ne hput₃ (Slot.id_ne hp hseen heq), h₂.joins slot hp hs'] at hhas
        exact .inl hhas
    · exact fun _ _ => State.expiry_put_self hput₃
  · rw [if_neg hfresh]
    have quiet : ∀ {s' : State} {d : Decision}, Quiet s s' → Grown s₂ s' →
        Served s c (isFresh s c op)
          [c.sourceSlot (family s c op), c.aggregateSlot (family s c op)] d s' := by
      intro s' d h hg
      exact ⟨h.sound, h.grown, fun _ => hcounted s' hg,
        fun slot hp hseen hs => .inl (h.joins slot hp hseen ▸ hs), fun _ hf => absurd hf hfresh⟩
    dsimp only
    split
    · exact quiet (h₂.pollStatus hc) ((Quiet.refl h₂.sound).pollStatus hc).grown
    · exact quiet h₂ (.refl _)

/-! ## Sweeping -/

theorem foldl_drop_get (ids : List String) (s : State) (id : String) :
    (ids.foldl State.drop s).records.get id = (if id ∈ ids then none else s.records.get id) ∧
      (ids.foldl State.drop s).expiry.get id = if id ∈ ids then none else s.expiry.get id := by
  induction ids generalizing s with
  | nil => simp
  | cons i ids ih =>
    obtain ⟨hr, he⟩ := ih (s.drop i)
    rw [List.foldl_cons, hr, he, State.drop, Table.get_del, Table.get_del]
    by_cases hid : id = i
    · simp [hid]
    · simp [hid]

theorem foldl_drop_clock (ids : List String) (s : State) :
    (ids.foldl State.drop s).clock = s.clock := by
  induction ids generalizing s with
  | nil => rfl
  | cons i ids ih => exact ih (s.drop i)

theorem opened_get (s : State) (now : Nat) (id : String) :
    ((s.opened now).records.get id = s.records.get id ∧
        (s.opened now).expiry.get id = s.expiry.get id) ∨
      (s.opened now).records.get id = none ∧ (s.opened now).expiry.get id = none ∧
        ∃ x ≤ now, s.expiry.get id = some x := by
  obtain ⟨hr, he⟩ := foldl_drop_get ((s.expiry.due now).take 128)
    { s with schema := some "1", clock := some now } id
  rw [State.opened, hr, he]
  split
  · next hmem =>
    obtain ⟨x, hx, hle⟩ := Table.mem_due.mp (List.mem_of_mem_take hmem)
    exact .inr ⟨rfl, rfl, x, hle, hx⟩
  · exact .inl ⟨rfl, rfl⟩

theorem opened_has {now : Nat} (h : (s.opened now).has slot = true) :
    s.has slot = true := by
  rcases opened_get s now slot.id with ⟨hr, _⟩ | ⟨hr, _⟩
  · rwa [State.has, hr] at h
  · rw [State.has, hr] at h
    cases h

@[simp] theorem opened_clock (s : State) (now : Nat) : (s.opened now).clock = some now :=
  foldl_drop_clock _ _

theorem Sound.opened (hs : Sound s) (now : Nat) : Sound (s.opened now) where
  keys id := by
    rcases opened_get s now id with ⟨hr, he⟩ | ⟨hr, he, _⟩
    · rw [hr, he]
      exact hs.keys id
    · rw [hr, he]
  stamps slot minute hp hm x hx := by
    rcases opened_get s now slot.id with ⟨_, he⟩ | ⟨_, he, _⟩
    · exact hs.stamps slot minute hp hm x (he ▸ hx)
    · rw [he] at hx
      cases hx

/-- What is left of the records of `s` in a later state: a counter only goes with
its minute, and a join record only with its time. -/
structure Aged (s s' : State) : Prop where
  sound : Sound s'
  clock : s.clock.getD 0 ≤ s'.clock.getD 0
  counts : ∀ (slot : Slot) (minute : Nat), slot.Plain → slot.minute? = some minute →
    s.value slot ≤ s'.value slot ∨ (minute + 1) * 60000 ≤ s'.clock.getD 0
  joins : ∀ (slot : Slot) (x : Nat), slot.Plain → slot.IsSeen → s.expiry.get slot.id = some x →
    s'.expiry.get slot.id = some x ∨ x ≤ s'.clock.getD 0

theorem Aged.refl (hs : Sound s) : Aged s s :=
  ⟨hs, Nat.le_refl _, fun _ _ _ _ => .inl (Nat.le_refl _), fun _ _ _ _ h => .inl h⟩

theorem Aged.opened {now : Nat} (hs : Sound s) (hnow : s.clock.getD 0 ≤ now) :
    Aged s (s.opened now) := by
  refine ⟨hs.opened now, by simpa using hnow, fun slot minute hp hm => ?_, fun slot x _ _ hx => ?_⟩
  · rcases opened_get s now slot.id with ⟨hr, _⟩ | ⟨_, _, x, hle, hx⟩
    · left
      rw [State.value, State.value, hr]
    · right
      rw [opened_clock, ← hs.stamps slot minute hp hm x hx]
      exact hle
  · rcases opened_get s now slot.id with ⟨_, he⟩ | ⟨_, _, y, hle, hy⟩
    · exact .inl (he.trans hx)
    · right
      rw [opened_clock, ← Option.some.inj (hy.symm.trans hx)]
      exact hle

theorem Aged.grown (h : Aged s t) (hs : Sound u) (hg : Grown t u) : Aged s u where
  sound := hs
  clock := hg.clock ▸ h.clock
  counts slot minute hp hm := by
    rw [hg.clock]
    exact (h.counts slot minute hp hm).imp_left (·.trans (hg.counts slot minute hp hm))
  joins slot x hp hseen hx := by
    rw [hg.clock]
    exact (h.joins slot x hp hseen hx).imp_left (hg.joins slot x hp hseen)

theorem Slot.minute_of_charged {f : Family} (h : slot ∈ [c.sourceSlot f, c.aggregateSlot f]) :
    slot.minute? = some c.minute := by
  rcases List.mem_pair.mp h with rfl | rfl <;> rfl

theorem opened_value (hs : Sound s) (hp : slot.Plain) (hm : slot.minute? = some c.minute) :
    (s.opened c.now).value slot = s.value slot := by
  rcases opened_get s c.now slot.id with ⟨hr, _⟩ | ⟨_, _, x, hle, hx⟩
  · rw [State.value, State.value, hr]
  · have hstamp := hs.stamps slot c.minute hp hm x hx
    have hnow : c.now < (c.now / 60000 + 1) * 60000 := by omega
    rw [Call.minute] at hstamp
    omega

/-! ## Runs -/

abbrev Record := Event State Call (Except GuardError Decision)

def isAllowed : Except GuardError Decision → Bool
  | .ok d => d.allowed
  | .error _ => false

def Admitted (e : Record) : Prop := isAllowed e.output = true
  deriving Decidable

def found (e : Record) : State := e.before.opened e.input.now

/-- A join for which the guard keeps no record of an earlier one. -/
def FirstJoin (e : Record) : Prop := e.input.op = "join" ∧ (found e).has e.input.seen = false
  deriving Decidable

/-- A call that the quotas count: anything but a registration. -/
def Counted (e : Record) : Prop := e.input.op ≠ "register"
  deriving Decidable

def familyOf (e : Record) : Family := if FirstJoin e then .join else .ticket

def Moves (slot : Slot) (e : Record) : Prop :=
  Admitted e ∧ Counted e ∧
    (slot = e.input.sourceSlot (familyOf e) ∨ slot = e.input.aggregateSlot (familyOf e))
  deriving Decidable

def Op.text : Op → String
  | .join => "join"
  | .status => "status"
  | .claim => "claim"
  | .heartbeat => "heartbeat"
  | .register => "register"

theorem Op.text_of_parse {text : String} (h : Op.parse text = some op) :
    text = op.text := by
  unfold Op.parse at h
  split_ifs at h <;> cases h <;> assumption

theorem Op.parse_join {text : String} (h : Op.parse text = some op) :
    op = .join ↔ text = "join" := by
  rw [Op.text_of_parse h]
  cases op <;> decide

theorem Op.parse_register {text : String} (h : Op.parse text = some op) :
    op = .register ↔ text = "register" := by
  rw [Op.text_of_parse h]
  cases op <;> decide

/-- A call either is turned away as it stands, or finds the records in order and is
served at a time that the clock has reached. -/
theorem check_cases (s : State) (c : Call) :
    (isAllowed (check s c).1 = false ∧ ((check s c).2 = s ∨
        s.clock.getD 0 ≤ c.now ∧ (check s c).2 = s.opened c.now)) ∨
      ∃ op, c.wellFormed = true ∧ Op.parse c.op = some op ∧ s.clock.getD 0 ≤ c.now ∧
        (check s c).1 = .ok (serve (s.opened c.now) c op).1 ∧
        (check s c).2 = (serve (s.opened c.now) c op).2 := by
  rw [check]
  split
  · exact .inl ⟨rfl, .inl rfl⟩
  next hwf =>
  split
  · exact .inl ⟨rfl, .inl rfl⟩
  next op hop =>
  split
  · exact .inl ⟨rfl, .inl rfl⟩
  split
  · split <;> exact .inl ⟨rfl, .inl rfl⟩
  next hclock =>
  dsimp only
  split
  · exact .inl ⟨rfl, .inr ⟨Nat.le_of_not_lt hclock, rfl⟩⟩
  · exact .inr ⟨op, by simpa using hwf, hop, Nat.le_of_not_lt hclock, rfl, rfl⟩

structure Tracked (cap : Nat) (h : List Record) (s : State) : Prop where
  sound : Sound s
  wellFormed : ∀ e ∈ h, Admitted e → e.input.wellFormed = true
  counted : ∀ (slot : Slot) (minute : Nat), slot.Plain → slot.minute? = some minute →
    h.countP (Moves slot) ≤ s.value slot ∨ (minute + 1) * 60000 ≤ s.clock.getD 0
  bounded : ∀ (slot : Slot) (minute : Nat), slot.Plain → slot.minute? = some minute →
    h.countP (Moves slot) ≤ slot.limit cap
  recorded : ∀ slot : Slot, slot.Plain → slot.IsSeen → s.has slot = true →
    ∃ e ∈ h, Admitted e ∧ FirstJoin e ∧ e.input.seen = slot
  joined : ∀ e ∈ h, Admitted e → FirstJoin e →
    (∃ x, s.expiry.get e.input.seen.id = some x ∧ e.input.now + 600000 ≤ x) ∨
      e.input.now + 600000 ≤ s.clock.getD 0

theorem Tracked.empty (cap : Nat) : Tracked cap [] State.empty where
  sound := by
    constructor
    · intro id
      simp [State.empty]
    · intro slot minute _ _ x hx
      simp [State.empty] at hx
  wellFormed := by simp
  counted := by simp
  bounded := by simp
  recorded := by
    intro slot _ _ h
    simp [State.has, State.empty] at h
  joined := by simp

variable {h : List Record}

theorem Tracked.counted_aged (ht : Tracked cap h s) (ha : Aged s s') (hp : slot.Plain)
    (hm : slot.minute? = some minute) :
    h.countP (Moves slot) ≤ s'.value slot ∨ (minute + 1) * 60000 ≤ s'.clock.getD 0 := by
  rcases ht.counted slot minute hp hm with hle | hover
  · exact (ha.counts slot minute hp hm).imp_left hle.trans
  · exact .inr (hover.trans ha.clock)

variable {e : Record}

theorem Tracked.joined_aged (ht : Tracked cap h s) (ha : Aged s s') (he : e ∈ h) (hadm : Admitted e)
    (hfirst : FirstJoin e) :
    (∃ x, s'.expiry.get e.input.seen.id = some x ∧ e.input.now + 600000 ≤ x) ∨
      e.input.now + 600000 ≤ s'.clock.getD 0 := by
  have hp := Call.seen_plain (ht.wellFormed e he hadm)
  rcases ht.joined e he hadm hfirst with ⟨x, hx, hle⟩ | hover
  · rcases ha.joins _ x hp trivial hx with hx' | hover
    · exact .inl ⟨x, hx', hle⟩
    · exact .inr (hle.trans hover)
  · exact .inr (hover.trans ha.clock)

theorem Tracked.turnedAway (ht : Tracked cap h s) (ha : Aged s s') (he : isAllowed e.output = false)
    (hr : ∀ slot : Slot, slot.Plain → slot.IsSeen → s'.has slot = true → s.has slot = true) :
    Tracked cap (h ++ [e]) s' := by
  have hnot : ¬ Admitted e := by simp [Admitted, he]
  have hcount : ∀ slot, (h ++ [e]).countP (Moves slot) = h.countP (Moves slot) := by
    intro slot
    have hmoves : ¬ Moves slot e := fun hm => hnot hm.1
    simp [List.countP_append, hmoves]
  have hmem : ∀ e' ∈ h ++ [e], Admitted e' → e' ∈ h := by
    intro e' he' hadm
    rcases List.mem_append.mp he' with hin | hlast
    · exact hin
    · obtain rfl := List.mem_singleton.mp hlast
      exact absurd hadm hnot
  refine ⟨ha.sound, fun e' he' hadm => ht.wellFormed e' (hmem e' he' hadm) hadm,
    fun slot minute hp hm => ?_, fun slot minute hp hm => ?_, fun slot hp hseen hhas => ?_,
    fun e' he' hadm hfirst => ?_⟩
  · rw [hcount]
    exact ht.counted_aged ha hp hm
  · rw [hcount]
    exact ht.bounded slot minute hp hm
  · obtain ⟨e', he', hrest⟩ := ht.recorded slot hp hseen (hr slot hp hseen hhas)
    exact ⟨e', List.mem_append_left _ he', hrest⟩
  · exact ht.joined_aged ha (hmem e' he' hadm) hadm hfirst

theorem Call.now_lt_reset (c : Call) : c.now < (c.minute + 1) * 60000 := by
  rw [Call.minute]
  omega

/-- An operation that was served. `fresh` and `charged` are how the guard itself
has classified it. -/
theorem Tracked.served {d : Decision} {fresh : Bool} {charged : List Slot} (ht : Tracked cap h s)
    (hcap : c.cap = cap) (hwf : c.wellFormed = true) (hclock : s.clock.getD 0 ≤ c.now)
    (hserved : Served (s.opened c.now) c fresh charged d s')
    (hfresh : fresh = true ↔ FirstJoin ⟨s, c, .ok d, s'⟩)
    (hcharged : ∀ slot, Moves slot ⟨s, c, .ok d, s'⟩ →
      slot ∈ charged ∧ slot.minute? = some c.minute) :
    Tracked cap (h ++ [⟨s, c, .ok d, s'⟩]) s' := by
  have ha : Aged s s' := (Aged.opened ht.sound hclock).grown hserved.sound hserved.grown
  have hmoved : ∀ slot : Slot, slot.Plain → Moves slot ⟨s, c, .ok d, s'⟩ →
      h.countP (Moves slot) + 1 ≤ s'.value slot ∧ h.countP (Moves slot) + 1 ≤ slot.limit cap := by
    intro slot hp hm
    obtain ⟨hmem, hminute⟩ := hcharged slot hm
    obtain ⟨hlimit, hstep⟩ := hserved.counted hm.1 slot hmem
    rw [opened_value ht.sound hp hminute] at hlimit hstep
    have hnow := c.now_lt_reset
    rcases ht.counted slot c.minute hp hminute with hle | hover
    · rw [hcap] at hlimit
      omega
    · omega
  have hcount : ∀ slot e, (h ++ [e]).countP (Moves slot) =
      h.countP (Moves slot) + if Moves slot e then 1 else 0 := by
    intro slot e
    rw [List.countP_append, List.countP_singleton]
    simp
  refine ⟨hserved.sound, fun e he hadm => ?_, fun slot minute hp hm => ?_,
    fun slot minute hp hm => ?_, fun slot hp hseen hhas => ?_, fun e he hadm hfirst => ?_⟩
  · rcases List.mem_append.mp he with hin | hlast
    · exact ht.wellFormed e hin hadm
    · obtain rfl := List.mem_singleton.mp hlast
      exact hwf
  · rw [hcount]
    split
    · next hmoves => exact .inl (hmoved slot hp hmoves).1
    · exact ht.counted_aged ha hp hm
  · rw [hcount]
    split
    · next hmoves => exact (hmoved slot hp hmoves).2
    · exact ht.bounded slot minute hp hm
  · rcases hserved.recorded slot hp hseen hhas with hold | ⟨rfl, hf, hallowed⟩
    · obtain ⟨e, he, hrest⟩ := ht.recorded slot hp hseen (opened_has hold)
      exact ⟨e, List.mem_append_left _ he, hrest⟩
    · exact ⟨_, List.mem_append_right _ List.mem_cons_self, hallowed, hfresh.mp hf, rfl⟩
  · rcases List.mem_append.mp he with hin | hlast
    · exact ht.joined_aged ha hin hadm hfirst
    · obtain rfl := List.mem_singleton.mp hlast
      exact .inl ⟨_, hserved.stamped hadm (hfresh.mpr hfirst), Nat.le_refl _⟩

theorem Tracked.step (ht : Tracked cap h s) (hcap : c.cap = cap) :
    Tracked cap (h ++ [eventOf check s c]) (check s c).2 := by
  rcases check_cases s c with ⟨hallowed, hstate⟩ | ⟨op, hwf, hop, hclock, hreply, hstate⟩
  · rcases hstate with hsame | ⟨hclock, hopened⟩
    · rw [hsame]
      exact ht.turnedAway (.refl ht.sound) hallowed fun _ _ _ h => h
    · rw [hopened]
      exact ht.turnedAway (.opened ht.sound hclock) hallowed fun _ _ _ => opened_has
  · rw [eventOf, hreply, hstate]
    have hsound := ht.sound.opened c.now
    by_cases hregister : op = .register
    · have htext := (Op.parse_register hop).mp hregister
      have hserve : serve (s.opened c.now) c op = register (s.opened c.now) c := if_pos hregister
      rw [hserve]
      refine ht.served hcap hwf hclock (register_served hsound hwf) ?_ fun slot hm => ?_
      · refine iff_of_false Bool.false_ne_true fun hfirst => ?_
        have hjoin := htext.symm.trans hfirst.1
        exact absurd hjoin (by decide)
      · exact absurd htext hm.2.1
    · have hserve : serve (s.opened c.now) c op = charge (s.opened c.now) c op := if_neg hregister
      rw [hserve]
      have hfresh : isFresh (s.opened c.now) c op = true ↔ FirstJoin ⟨s, c,
          .ok (charge (s.opened c.now) c op).1, (charge (s.opened c.now) c op).2⟩ := by
        rw [isFresh, FirstJoin, ← Op.parse_join hop]
        simp [found]
      refine ht.served hcap hwf hclock (charge_served hsound hwf) hfresh fun slot hm => ?_
      have hfamily : familyOf ⟨s, c, .ok (charge (s.opened c.now) c op).1,
          (charge (s.opened c.now) c op).2⟩ = family (s.opened c.now) c op := by
        rw [familyOf, family]
        exact if_congr hfresh.symm rfl rfl
      have hmem : slot ∈ [c.sourceSlot (family (s.opened c.now) c op),
          c.aggregateSlot (family (s.opened c.now) c op)] := by
        rw [← hfamily]
        exact List.mem_pair.mpr hm.2.2
      exact ⟨hmem, Slot.minute_of_charged hmem⟩

theorem tracked_of_run (hr : Run check (fun _ c => c.cap = cap) State.empty h s) :
    Tracked cap h s := by
  induction hr with
  | nil => exact Tracked.empty cap
  | snoc c _ hcap ih => exact ih.step hcap

def Within (room : String) (epoch minute : Nat) (e : Record) : Prop :=
  e.input.room = room ∧ e.input.epoch = epoch ∧ e.input.minute = minute

instance (room : String) (epoch minute : Nat) (e : Record) :
    Decidable (Within room epoch minute e) := inferInstanceAs (Decidable (_ ∧ _ ∧ _))

def Shares (f : Family) (e : Record) : Prop := Admitted e ∧ Counted e ∧ familyOf e = f
  deriving Decidable

theorem Tracked.count_le (ht : Tracked cap h s) {p : Record → Prop} [DecidablePred p] (slot : Slot)
    (hm : slot.minute? = some minute) (hp : ∀ e ∈ h, p e → Moves slot e) :
    h.countP p ≤ slot.limit cap := by
  by_cases hzero : h.countP (fun e => p e) = 0
  · rw [hzero]
    exact Nat.zero_le _
  · obtain ⟨e, he, hpe⟩ := List.countP_pos_iff.mp (Nat.pos_of_ne_zero hzero)
    have hmoves := hp e he (of_decide_eq_true hpe)
    have hwf := ht.wellFormed e he hmoves.1
    have hplain : slot.Plain := by
      rcases hmoves.2.2 with rfl | rfl
      · exact Call.sourceSlot_plain hwf _
      · exact Call.aggregateSlot_plain hwf _
    refine Nat.le_trans ?_ (ht.bounded slot minute hplain hm)
    apply List.countP_mono_left
    intro e' he' hpe'
    exact decide_eq_true (hp e' he' (of_decide_eq_true hpe'))

/-- In every minute, room and epoch, a family of calls keeps to the limit of each
source and to that of the room. -/
theorem Tracked.quota (ht : Tracked cap h s) (f : Family) (room : String) (epoch minute : Nat) :
    (∀ source, h.countP (fun e => Shares f e ∧ Within room epoch minute e ∧
        e.input.source = source) ≤ f.sourceMax) ∧
      h.countP (fun e => Shares f e ∧ Within room epoch minute e) ≤ f.roomMax cap := by
  constructor
  · intro source
    refine ht.count_le (.source room epoch f source minute) rfl ?_
    rintro e - ⟨⟨hadm, hcounted, rfl⟩, ⟨rfl, rfl, rfl⟩, rfl⟩
    exact ⟨hadm, hcounted, .inl rfl⟩
  · refine ht.count_le (.aggregate room epoch f minute) rfl ?_
    rintro e - ⟨⟨hadm, hcounted, rfl⟩, rfl, rfl, rfl⟩
    exact ⟨hadm, hcounted, .inr rfl⟩

theorem check_of_rollback (h : c.now < s.clock.getD 0) :
    (check s c).2 = s ∧ isAllowed (check s c).1 = false := by
  rcases check_cases s c with ⟨hallowed, hsame | ⟨hclock, _⟩⟩ | ⟨_, _, _, hclock, _⟩
  · exact ⟨hsame, hallowed⟩
  · exact absurd h (Nat.not_lt.mpr hclock)
  · exact absurd h (Nat.not_lt.mpr hclock)

theorem admitted_cases (h : isAllowed (check s c).1 = true) :
    c.wellFormed = true ∧ s.clock.getD 0 ≤ c.now := by
  rcases check_cases s c with ⟨hallowed, _⟩ | ⟨_, hwf, _, hclock, _⟩
  · rw [hallowed] at h
    cases h
  · exact ⟨hwf, hclock⟩

/-- The joins that are counted as first ones: the guard counts a credential again
only after ten minutes, and only a credential it has let in as a later one. -/
theorem Tracked.joins (ht : Tracked cap h e.before) (he : e = eventOf check e.before e.input)
    (hadm : Admitted e) :
    (FirstJoin e → ∀ e' ∈ h, Admitted e' → FirstJoin e' → e'.input.seen = e.input.seen →
        e'.input.now + 600000 ≤ e.input.now) ∧
      (e.input.op = "join" → ¬ FirstJoin e →
        ∃ e' ∈ h, Admitted e' ∧ FirstJoin e' ∧ e'.input.seen = e.input.seen) := by
  rw [he] at hadm
  obtain ⟨hwf, hclock⟩ := admitted_cases hadm
  have hseen := Call.seen_plain hwf
  constructor
  · intro hfirst e' he' hadm' hfirst' hsame
    rcases ht.joined_aged (.opened ht.sound hclock) he' hadm' hfirst' with ⟨x, hx, _⟩ | hover
    · rw [hsame, (ht.sound.opened _).has_eq_false hfirst.2] at hx
      cases hx
    · rwa [opened_clock] at hover
  · intro hjoin hnot
    have hhas : (found e).has e.input.seen = true := by
      rw [← Bool.not_eq_false]
      exact fun hf => hnot ⟨hjoin, hf⟩
    exact ht.recorded _ hseen trivial (opened_has hhas)

/-- The quotas of the guard, over any run of checks with one capacity. -/
theorem quotas_hold {cap : Nat} {h : List Record} {s : State}
    (hr : Run check (fun _ c => c.cap = cap) State.empty h s) :
    (∀ room epoch minute,
      (∀ source,
        h.countP (fun e => (Admitted e ∧ FirstJoin e) ∧ Within room epoch minute e ∧
          e.input.source = source) ≤ 600 ∧
        h.countP (fun e => (Admitted e ∧ Counted e ∧ ¬ FirstJoin e) ∧
          Within room epoch minute e ∧ e.input.source = source) ≤ 6000) ∧
      h.countP (fun e => (Admitted e ∧ FirstJoin e) ∧ Within room epoch minute e) ≤ 6 * cap ∧
      h.countP (fun e => (Admitted e ∧ Counted e ∧ ¬ FirstJoin e) ∧
        Within room epoch minute e) ≤ 20 * cap) ∧
      (∀ h₁ e h₂, h = h₁ ++ e :: h₂ → Admitted e →
        (FirstJoin e → ∀ e' ∈ h₁, Admitted e' → FirstJoin e' → e'.input.seen = e.input.seen →
          e'.input.now + 600000 ≤ e.input.now) ∧
        (e.input.op = "join" → ¬ FirstJoin e →
          ∃ e' ∈ h₁, Admitted e' ∧ FirstJoin e' ∧ e'.input.seen = e.input.seen)) ∧
      ∀ e ∈ h, e.input.now < e.before.clock.getD 0 → e.after = e.before ∧ ¬ Admitted e := by
  have ht := tracked_of_run hr
  have first : ∀ e, Admitted e ∧ FirstJoin e → Shares .join e := by
    rintro e ⟨hadm, hfirst⟩
    refine ⟨hadm, fun hregister => ?_, if_pos hfirst⟩
    have htext := hfirst.1.symm.trans hregister
    exact absurd htext (by decide)
  have other : ∀ e, Admitted e ∧ Counted e ∧ ¬ FirstJoin e → Shares .ticket e :=
    fun e ⟨hadm, hcounted, hnot⟩ => ⟨hadm, hcounted, if_neg hnot⟩
  have mono : ∀ {p q : Record → Prop} [DecidablePred p] [DecidablePred q],
      (∀ e, p e → q e) → h.countP (fun e => p e) ≤ h.countP (fun e => q e) := by
    intro p q _ _ hpq
    exact List.countP_mono_left fun e _ hpe => decide_eq_true (hpq e (of_decide_eq_true hpe))
  refine ⟨fun room epoch minute => ⟨fun source => ⟨?_, ?_⟩, ?_, ?_⟩, ?_, ?_⟩
  · exact (mono fun e ⟨hk, hw⟩ => ⟨first e hk, hw⟩).trans
      ((ht.quota .join room epoch minute).1 source)
  · exact (mono fun e ⟨hk, hw⟩ => ⟨other e hk, hw⟩).trans
      ((ht.quota .ticket room epoch minute).1 source)
  · rw [Nat.mul_comm]
    exact (mono fun e ⟨hk, hw⟩ => ⟨first e hk, hw⟩).trans (ht.quota .join room epoch minute).2
  · rw [Nat.mul_comm]
    exact (mono fun e ⟨hk, hw⟩ => ⟨other e hk, hw⟩).trans (ht.quota .ticket room epoch minute).2
  · rintro h₁ e h₂ rfl hadm
    obtain ⟨m, hr₁, hr₂⟩ := hr.of_append
    obtain ⟨_, he, _⟩ := hr₂.of_cons
    obtain rfl : e.before = m := by rw [he]; rfl
    exact (tracked_of_run hr₁).joins he hadm
  · intro e he hback
    obtain ⟨_, _, _, _, _, heq, _⟩ := hr.split he
    obtain ⟨hsame, hallowed⟩ := check_of_rollback hback
    rw [heq]
    exact ⟨hsame, by rw [Admitted, eventOf, hallowed]; exact Bool.false_ne_true⟩

def sampleDigits (c : Char) : String := String.ofList (List.replicate 64 c)

def sampleJoin (now : Nat) : Call :=
  ⟨String.ofList (List.replicate 20 'a'), 1, sampleDigits '0', "join", sampleDigits '1', 10000, now⟩

def sampleHistory : List Record :=
  eventsOf check State.empty [sampleJoin 60000, sampleJoin 60001, sampleJoin 59001]

theorem sampleHistory_within_quotas :
    sampleHistory.length = 3 ∧ sampleHistory.countP (fun e => (Admitted e ∧ FirstJoin e) ∧
      Within (sampleJoin 60000).room 1 1 e ∧ e.input.source = sampleDigits '0') ≤ 600 := by
  have hcap : ∀ c ∈ [sampleJoin 60000, sampleJoin 60001, sampleJoin 59001], c.cap = 10000 := by
    intro c hc
    rcases List.mem_cons.mp hc with rfl | hc
    · rfl
    · rcases List.mem_pair.mp hc with rfl | rfl <;> rfl
  have hr : Run check (fun _ c => c.cap = 10000) State.empty sampleHistory _ :=
    run_of_inputs State.empty fun c hc _ => hcap c hc
  exact ⟨rfl, (((quotas_hold hr).1 _ 1 1).1 _).1⟩

end WaitingRoom.Guard
