import WaitingRoom.Guard.Memory

/-!
# Poll spacing

The schedule of a credential is one record: the time from which its next status call
is allowed. It is one interval after the call that has written it and lasts a minute,
which is longer, so that a schedule can only be lost when it has long been met.
-/

namespace WaitingRoom.Guard

set_option autoImplicit false

def Slot.IsPoll : Slot → Prop
  | .poll .. => True
  | _ => False

theorem Call.interval_range (c : Call) : 3000 ≤ c.interval ∧ c.interval ≤ 20000 := by
  unfold Call.interval
  omega

theorem Call.interval_of_poll {c c' : Call} (h : c.poll = c'.poll) : c.interval = c'.interval := by
  have hcredential : c.credential = c'.credential := by
    simp only [Call.poll, Slot.poll.injEq] at h
    exact h.2.2
  rw [Call.interval, Call.interval, hcredential]

/-! ## What one call does to the schedules -/

/-- No schedule but that of `slot` differs. -/
def OtherPolls (slot : Slot) (s s' : State) : Prop :=
  ∀ other : Slot, other.Plain → other.IsPoll → other ≠ slot →
    s'.records.get other.id = s.records.get other.id ∧ s'.expiry.get other.id = s.expiry.get other.id

def SamePolls (s s' : State) : Prop :=
  ∀ other : Slot, other.Plain → other.IsPoll →
    s'.records.get other.id = s.records.get other.id ∧ s'.expiry.get other.id = s.expiry.get other.id

theorem SamePolls.refl (s : State) : SamePolls s s := fun _ _ _ => ⟨rfl, rfl⟩

variable {s t u : State} {c : Call} {h : List Record} {e : Record} {Allowed : State → Call → Prop}

theorem SamePolls.put {most value expires : Nat} {slot : Slot} (h : SamePolls s t) (hp : slot.Plain)
    (hother : ¬ slot.IsPoll) (hput : t.put most slot value expires = some u) :
    SamePolls s u := by
  intro other ho hpoll
  have hne : other.id ≠ slot.id := Slot.id_ne ho hp fun heq => hother (heq ▸ hpoll)
  rw [State.expiry_put_ne hput hne]
  have hrecords : u.records.get other.id = t.records.get other.id := by
    rw [State.put_eq_some hput, Table.get_put_ne hne]
  rw [hrecords]
  exact h other ho hpoll

structure Scheduled (s : State) (c : Call) (s' : State) : Prop where
  next : s'.records.get c.poll.id = some (c.now + c.interval)
  expires : s'.expiry.get c.poll.id = some (c.now + 60000)
  others : OtherPolls c.poll s s'

theorem SamePolls.scheduled {most : Nat} (h : SamePolls s t) (hc : c.wellFormed = true)
    (hput : t.put most c.poll (c.now + c.interval) (c.now + 60000) = some u) : Scheduled s c u := by
  refine ⟨?_, State.expiry_put_self hput, fun other ho hpoll hne => ?_⟩
  · rw [State.put_eq_some hput, Table.get_put_self]
  · have hid := Slot.id_ne ho (Call.poll_plain hc) hne
    rw [State.expiry_put_ne hput hid]
    have hrecords : u.records.get other.id = t.records.get other.id := by
      rw [State.put_eq_some hput, Table.get_put_ne hid]
    rw [hrecords]
    exact h other ho hpoll

/-- What a call that is served does to the schedules, and what it answers. -/
inductive Polled (s : State) (c : Call) (op : Op) : Decision → State → Prop
  | kept {s' : State} {allowed : Bool} {wait : Nat} (same : SamePolls s s') (other : op ≠ .status)
      (short : wait ≤ 60000 ∨ ∃ next, s.records.get c.poll.id = some next ∧ wait = next - c.now) :
      Polled s c op (c.reply allowed wait) s'
  | registered {s' : State} {wait : Nat} (register : op = .register) (short : wait = c.interval)
      (new : s.records.get c.poll.id = none) (written : Scheduled s c s') : Polled s c op (c.reply true wait) s'
  | refused {s' : State} {wait : Nat} (status : op = .status) (same : SamePolls s s')
      (h : ¬ WithinLimits s c op ∨ Full s c op) (short : wait ≤ 60000) : Polled s c op (c.reply false wait) s'
  | putOff {s' : State} {next : Nat} (status : op = .status) (same : SamePolls s s')
      (found : s.records.get c.poll.id = some next) (early : c.now < next) :
      Polled s c op (c.reply false (next - c.now)) s'
  | started {s' : State} (status : op = .status) (new : s.records.get c.poll.id = none)
      (written : Scheduled s c s') : Polled s c op (c.reply false c.interval) s'
  | allowed {s' : State} {next : Nat} (status : op = .status) (found : s.records.get c.poll.id = some next)
      (due : next ≤ c.now) (written : Scheduled s c s') : Polled s c op (c.reply true 0) s'

theorem register_polled (s : State) (hc : c.wellFormed = true) :
    Polled s c .register (register s c).1 (register s c).2 := by
  unfold register
  split
  · next next hnext => exact .kept (.refl s) nofun (.inr ⟨next, hnext, rfl⟩)
  · next hnone =>
    split
    · exact .kept (.refl s) nofun (.inl (by decide))
    · next hput =>
      exact .registered rfl (by rw [Nat.add_sub_cancel_left]) hnone ((SamePolls.refl s).scheduled hc hput)

theorem scheduled_polled (hc : c.wellFormed = true) (h : SamePolls s t)
    (hdue : Due s c → t.put c.most c.poll (c.now + c.interval) (c.now + 60000) = some u)
    (hwait : ¬ Due s c → u = t) : Polled s c .status (scheduled s c .status) u := by
  unfold scheduled
  rcases hnext : s.records.get c.poll.id with _ | next
  · have hput := hdue fun n hn => by
      rw [hnext] at hn
      cases hn
    exact .started rfl hnext (h.scheduled hc hput)
  · dsimp only
    by_cases hearly : c.now < next
    · rw [if_pos hearly, hwait fun hd => absurd (hd next hnext) (Nat.not_le.mpr hearly)]
      exact .putOff rfl h hnext hearly
    · have hput := hdue fun n hn => by
        rw [hnext] at hn
        obtain rfl := Option.some.inj hn
        exact Nat.not_lt.mp hearly
      rw [if_neg hearly]
      exact .allowed rfl hnext (Nat.le_of_not_lt hearly) (h.scheduled hc hput)

theorem Call.reset_sub_le (c : Call) : c.reset - c.now ≤ 60000 := by
  unfold Call.reset Call.minute
  omega

theorem charge_polled {op : Op} (hc : c.wellFormed = true) (hop : op ≠ .register) :
    Polled s c op (charge s c op).1 (charge s c op).2 := by
  have denied {wait : Nat} (h : ¬ WithinLimits s c op ∨ Full s c op) (hshort : wait ≤ 60000) :
      Polled s c op (c.reply false wait) s := by
    by_cases hstatus : op = .status
    · exact .refused hstatus (.refl s) h hshort
    · exact .kept (.refl s) hstatus (.inl hshort)
  by_cases hlimits : WithinLimits s c op
  · by_cases hfull : Full s c op
    · have hserve := serve_of_full hfull
      rw [serve, if_neg hop] at hserve
      rw [hserve]
      exact denied (.inr hfull) (by decide)
    · have hroom : s.records.size + needed s c op ≤ c.most := by
        by_contra hno
        exact hfull (.inr ⟨hop, hlimits, Nat.lt_of_not_le hno⟩)
      obtain ⟨s', hputs, hcharge⟩ := charge_of_room hc hop hlimits hroom
      rw [hcharge]
      rw [PutsSucceed, if_neg hop] at hputs
      obtain ⟨s₁, s₂, s₃, hput₁, hput₂, hput₃, hdue, hwait⟩ := hputs
      have hsame : SamePolls s s₃ := by
        have h₂ := ((SamePolls.refl s).put (Call.sourceSlot_plain hc _) id hput₁).put
          (Call.aggregateSlot_plain hc _) id hput₂
        split at hput₃
        · exact h₂.put (Call.seen_plain hc) id hput₃
        · cases hput₃
          exact h₂
      by_cases hstatus : op = .status
      · subst hstatus
        exact scheduled_polled hc hsame (fun hd => hdue ⟨rfl, hd⟩) fun hd => hwait fun hs => hd hs.2
      · obtain rfl := hwait fun hs => hstatus hs.1
        rw [scheduled_of_ne hop hstatus]
        exact .kept hsame hstatus (.inl (Nat.zero_le _))
  · have hover : (family s c op).sourceMax ≤ s.value (c.sourceSlot (family s c op)) ∨
        (family s c op).roomMax c.cap ≤ s.value (c.aggregateSlot (family s c op)) := by
      by_contra hno
      push Not at hno
      exact hlimits hno
    unfold charge
    dsimp only
    rw [if_pos hover]
    exact denied (.inl hlimits) c.reset_sub_le

theorem serve_polled (s : State) (op : Op) (hc : c.wellFormed = true) :
    Polled s c op (serve s c op).1 (serve s c op).2 := by
  rw [serve]
  split
  · next hregister =>
    subst hregister
    exact register_polled s hc
  · next hother => exact charge_polled hc hother

/-! ## What a history knows of the schedules -/

def PollAllowed (e : Record) : Prop := Admitted e ∧ e.input.op = "status"

/-- The call has left a schedule for its credential, one interval after its time. -/
def Writes (e : Record) : Prop :=
  e.after.records.get e.input.poll.id = some (e.input.now + e.input.interval)

/-- Where the schedules of a state come from, and what they know of the polls. -/
structure Paced (h : List Record) (s : State) : Prop where
  origin : ∀ slot : Slot, slot.Plain → slot.IsPoll → ∀ next, s.records.get slot.id = some next →
    ∃ e ∈ h, e.input.poll = slot ∧ Writes e ∧ next = e.input.now + e.input.interval ∧
      s.expiry.get slot.id = some (e.input.now + 60000) ∧ e.input.now ≤ s.clock.getD 0
  past : ∀ e ∈ h, PollAllowed e → e.input.wellFormed = true ∧ e.input.now ≤ s.clock.getD 0
  later : ∀ e ∈ h, PollAllowed e → ∀ next, s.records.get e.input.poll.id = some next →
    e.input.now + e.input.interval ≤ next
  lost : ∀ e ∈ h, PollAllowed e → s.records.get e.input.poll.id = none →
    e.input.now + 60000 ≤ s.clock.getD 0

theorem Paced.empty : Paced [] State.empty where
  origin slot _ _ next hnext := by
    have hnone : (none : Option Nat) = some next := hnext
    cases hnone
  past e he := absurd he List.not_mem_nil
  later e he := absurd he List.not_mem_nil
  lost e he := absurd he List.not_mem_nil

/-- The sweep at the start of a call. A schedule that is swept was written a minute ago,
and not before the last poll. -/
theorem Paced.opened (hp : Paced h s) {now : Nat} (hnow : s.clock.getD 0 ≤ now) :
    Paced h (s.opened now) where
  origin slot hplain hpoll next hnext := by
    rcases opened_get s now slot.id with ⟨hr, he⟩ | ⟨hr, -⟩
    · rw [hr] at hnext
      obtain ⟨e, hin, hslot, hwrites, heq, hexpiry, hclock⟩ := hp.origin slot hplain hpoll next hnext
      refine ⟨e, hin, hslot, hwrites, heq, he.trans hexpiry, ?_⟩
      rw [opened_clock]
      exact hclock.trans hnow
    · rw [hr] at hnext
      cases hnext
  past e he hallowed := by
    rw [opened_clock]
    exact ⟨(hp.past e he hallowed).1, (hp.past e he hallowed).2.trans hnow⟩
  later e he hallowed next hnext := by
    rcases opened_get s now e.input.poll.id with ⟨hr, -⟩ | ⟨hr, -⟩
    · rw [hr] at hnext
      exact hp.later e he hallowed next hnext
    · rw [hr] at hnext
      cases hnext
  lost e he hallowed hnone := by
    rw [opened_clock]
    rcases hold : s.records.get e.input.poll.id with _ | next
    · exact (hp.lost e he hallowed hold).trans hnow
    · rcases opened_get s now e.input.poll.id with ⟨hr, -⟩ | ⟨-, -, x, hle, hx⟩
      · rw [hr, hold] at hnone
        cases hnone
      · have hplain := Call.poll_plain (hp.past e he hallowed).1
        have hlater := hp.later e he hallowed next hold
        obtain ⟨e', -, hslot, -, heq, hexpiry, -⟩ := hp.origin _ hplain trivial next hold
        rw [hx] at hexpiry
        have hstamp := Option.some.inj hexpiry
        have hinterval := Call.interval_of_poll hslot
        rw [Option.getD_some]
        omega

theorem Paced.unchanged {s s' : State} (hp : Paced h s) (hsame : SamePolls s s')
    (hclock : s'.clock = s.clock) (he : ¬ PollAllowed e) : Paced (h ++ [e]) s' := by
  have old {e' : Record} (hin : e' ∈ h ++ [e]) (hallowed : PollAllowed e') : e' ∈ h := by
    rcases List.mem_append.mp hin with hin | hlast
    · exact hin
    · rw [List.mem_singleton.mp hlast] at hallowed
      exact absurd hallowed he
  refine ⟨fun slot hplain hpoll next hnext => ?_, fun e' hin hallowed => ?_,
    fun e' hin hallowed next hnext => ?_, fun e' hin hallowed hnone => ?_⟩
  · obtain ⟨hrecords, hexpiry⟩ := hsame slot hplain hpoll
    rw [hrecords] at hnext
    obtain ⟨e', hin, hslot, hwrites, heq, hstamp, hle⟩ := hp.origin slot hplain hpoll next hnext
    exact ⟨e', List.mem_append_left _ hin, hslot, hwrites, heq, hexpiry.trans hstamp, hclock ▸ hle⟩
  · rw [hclock]
    exact hp.past e' (old hin hallowed) hallowed
  · have hold := old hin hallowed
    rw [(hsame _ (Call.poll_plain (hp.past e' hold hallowed).1) trivial).1] at hnext
    exact hp.later e' hold hallowed next hnext
  · have hold := old hin hallowed
    rw [(hsame _ (Call.poll_plain (hp.past e' hold hallowed).1) trivial).1] at hnone
    rw [hclock]
    exact hp.lost e' hold hallowed hnone

theorem Paced.scheduled {s s' : State} (hp : Paced h s) (hc : c.wellFormed = true)
    (hnow : s.clock.getD 0 = c.now) (hclock : s'.clock = s.clock) (hwritten : Scheduled s c s')
    {before : State} {o : Except GuardError Decision} :
    Paced (h ++ [⟨before, c, o, s'⟩]) s' := by
  have hnow' : s'.clock.getD 0 = c.now := by rw [hclock, hnow]
  have hpast : ∀ e ∈ h ++ [⟨before, c, o, s'⟩], PollAllowed e →
      e.input.wellFormed = true ∧ e.input.now ≤ c.now := by
    intro e he hallowed
    rcases List.mem_append.mp he with he | hlast
    · rw [← hnow]
      exact hp.past e he hallowed
    · rw [List.mem_singleton.mp hlast]
      exact ⟨hc, Nat.le_refl _⟩
  refine ⟨fun slot hplain hpoll next hnext => ?_, fun e he hallowed => hnow' ▸ hpast e he hallowed,
    fun e he hallowed next hnext => ?_, fun e he hallowed hnone => ?_⟩
  · by_cases hslot : slot = c.poll
    · subst hslot
      rw [hwritten.next] at hnext
      exact ⟨⟨before, c, o, s'⟩, List.mem_append_right _ List.mem_cons_self, rfl, hwritten.next,
        (Option.some.inj hnext).symm, hwritten.expires, hnow'.ge⟩
    · obtain ⟨hrecords, hexpiry⟩ := hwritten.others slot hplain hpoll hslot
      rw [hrecords] at hnext
      obtain ⟨e, he, hes, hwrites, heq, hstamp, hle⟩ := hp.origin slot hplain hpoll next hnext
      exact ⟨e, List.mem_append_left _ he, hes, hwrites, heq, hexpiry.trans hstamp, hclock ▸ hle⟩
  · obtain ⟨hwf, hle⟩ := hpast e he hallowed
    by_cases hslot : e.input.poll = c.poll
    · rw [hslot, hwritten.next] at hnext
      have hinterval := Call.interval_of_poll hslot
      have hnext' := Option.some.inj hnext
      omega
    · rcases List.mem_append.mp he with he | hlast
      · rw [(hwritten.others _ (Call.poll_plain hwf) trivial hslot).1] at hnext
        exact hp.later e he hallowed next hnext
      · rw [List.mem_singleton.mp hlast] at hslot
        exact absurd rfl hslot
  · obtain ⟨hwf, hle⟩ := hpast e he hallowed
    by_cases hslot : e.input.poll = c.poll
    · rw [hslot, hwritten.next] at hnone
      cases hnone
    · rcases List.mem_append.mp he with he | hlast
      · rw [(hwritten.others _ (Call.poll_plain hwf) trivial hslot).1] at hnone
        rw [hclock]
        exact hp.lost e he hallowed hnone
      · rw [List.mem_singleton.mp hlast] at hslot
        exact absurd rfl hslot

theorem Op.parse_status {text : String} {op : Op} (h : Op.parse text = some op) :
    op = .status ↔ text = "status" := by
  rw [Op.text_of_parse h]
  cases op <;> decide

theorem serve_clock (hs : Sound s) (hc : c.wellFormed = true) (op : Op) :
    (serve s c op).2.clock = s.clock := by
  rw [serve]
  split
  · exact (register_served hs hc).grown.clock
  · exact (charge_served hs hc).grown.clock

theorem Paced.step (hp : Paced h s) (hk : Kept s) (c : Call) :
    Paced (h ++ [eventOf check s c]) (check s c).2 := by
  rcases check_cases s c with ⟨hno, hstate⟩ | ⟨op, hwf, hop, hnow, hreply, hstate⟩
  · have hdenied : ¬ PollAllowed (eventOf check s c) := by
      rintro ⟨hadmitted, -⟩
      unfold Admitted at hadmitted
      rw [eventOf, hno] at hadmitted
      cases hadmitted
    rcases hstate with hsame | ⟨hnow, hopened⟩
    · rw [hsame]
      exact hp.unchanged (.refl s) rfl hdenied
    · rw [hopened]
      exact (hp.opened hnow).unchanged (.refl _) rfl hdenied
  · have hopened := hp.opened hnow
    have hclock := serve_clock (hk.sound.opened c.now) hwf op
    have hpolled := serve_polled (s.opened c.now) op hwf
    have hevent : eventOf check s c = ⟨s, c, .ok (serve (s.opened c.now) c op).1,
        (serve (s.opened c.now) c op).2⟩ := by rw [eventOf, hreply, hstate]
    rw [hevent, hstate]
    generalize (serve (s.opened c.now) c op).1 = d at hpolled
    generalize (serve (s.opened c.now) c op).2 = s' at hpolled hclock
    have hat : (s.opened c.now).clock.getD 0 = c.now := by rw [opened_clock, Option.getD_some]
    cases hpolled with
    | kept same other =>
      refine hopened.unchanged same hclock fun hallowed => other ?_
      exact (Op.parse_status hop).mpr hallowed.2
    | registered _ _ _ written | started _ _ written | allowed _ _ _ written =>
      exact hopened.scheduled hwf hat hclock written
    | refused _ same | putOff _ same =>
      refine hopened.unchanged same hclock fun hallowed => ?_
      cases hallowed.1

theorem paced_of_run (hr : Run check Allowed State.empty h s) : Paced h s := by
  induction hr with
  | nil => exact .empty
  | snoc c hr _ ih => exact ih.step (kept_of_run hr) c

/-! ## Polls that are let through, and polls that are put off -/

theorem due_of_allowed (h : isAllowed (check s c).1 = true) (hop : c.op = "status") :
    s.clock.getD 0 ≤ c.now ∧ c.wellFormed = true ∧
      ∃ next ≤ c.now, (s.opened c.now).records.get c.poll.id = some next := by
  rcases check_cases s c with ⟨hno, -⟩ | ⟨op, hwf, hparse, hnow, hreply, -⟩
  · rw [hno] at h
    cases h
  · refine ⟨hnow, hwf, ?_⟩
    have hpolled := serve_polled (s.opened c.now) op hwf
    rw [hreply] at h
    generalize (serve (s.opened c.now) c op).1 = d at hpolled h
    have hstatus := (Op.parse_status hparse).mpr hop
    cases hpolled with
    | kept _ other => exact absurd hstatus other
    | registered register => cases hstatus.symm.trans register
    | refused | putOff | started => cases h
    | @allowed _ next _ found due => exact ⟨next, due, found⟩

structure PutOff (e : Record) (wait : Nat) : Prop where
  status : e.input.op = "status"
  denied : e.output = .ok (e.input.reply false wait)
  limits : WithinLimits (found e) e.input .status
  room : ¬ Full (found e) e.input .status

theorem reply_cases {d : Decision} (hk : Kept s) (h : (check s c).1 = .ok d) :
    (c.now < s.clock.getD 0 ∧ s.clock.getD 0 - c.now ≤ 1000 ∧
        d = ⟨false, s.clock.getD 0, s.clock.getD 0 - c.now, c.interval⟩) ∨
      ∃ op, c.wellFormed = true ∧ Op.parse c.op = some op ∧ s.clock.getD 0 ≤ c.now ∧
        check s c = (.ok (serve (s.opened c.now) c op).1, (serve (s.opened c.now) c op).2) := by
  rcases hwf : c.wellFormed
  · rw [check, if_pos hwf] at h
    cases h
  rcases hop : Op.parse c.op with _ | op
  · rw [check, if_neg (by simp [hwf]), hop] at h
    cases h
  by_cases hclock : s.clock.getD 0 ≤ c.now
  · exact .inr ⟨op, rfl, rfl, hclock, hk.check_eq hwf hop hclock⟩
  · left
    have hback := Nat.lt_of_not_le hclock
    rw [check, if_neg (by simp [hwf]), hop] at h
    dsimp only at h
    split at h
    · cases h
    split at h
    · cases h
    · next hshort => exact ⟨hback, Nat.le_of_not_lt hshort, (Except.ok.inj h).symm⟩

/-- What a poll that was put off leaves: a schedule that is due after the wait and lasts
longer than that. -/
theorem PutOff.schedule {wait : Nat} (ho : PutOff e wait) (he : e = eventOf check e.before e.input)
    (hk : Kept e.before) (hp : Paced h e.before) :
    e.input.wellFormed = true ∧ e.after.records.get e.input.poll.id = some (e.input.now + wait) ∧
      ∃ x, e.after.expiry.get e.input.poll.id = some x ∧ e.input.now + wait < x := by
  have hreply : (check e.before e.input).1 = .ok (e.input.reply false wait) := by
    have hdenied := ho.denied
    rw [he] at hdenied
    exact hdenied
  obtain ⟨op, hwf, hparse, hnow, hcheck⟩ :
      ∃ op, e.input.wellFormed = true ∧ Op.parse e.input.op = some op ∧
        e.before.clock.getD 0 ≤ e.input.now ∧ check e.before e.input =
          (.ok (serve (e.before.opened e.input.now) e.input op).1,
            (serve (e.before.opened e.input.now) e.input op).2) := by
    rcases reply_cases hk hreply with ⟨hback, -, hd⟩ | hserved
    · have hnow : e.input.now = e.before.clock.getD 0 := congrArg Decision.now hd
      omega
    · exact hserved
  have hplain := Call.poll_plain hwf
  have hinterval := e.input.interval_range
  obtain rfl := (Op.parse_status hparse).mpr ho.status
  have hpolled := serve_polled (e.before.opened e.input.now) .status hwf
  have hafter : e.after = (serve (e.before.opened e.input.now) e.input .status).2 := by
    have hsecond := congrArg Event.after he
    rw [eventOf_after, hcheck] at hsecond
    exact hsecond
  have hd : (serve (e.before.opened e.input.now) e.input .status).1 = e.input.reply false wait := by
    rw [hcheck] at hreply
    exact Except.ok.inj hreply
  rw [hafter]
  generalize (serve (e.before.opened e.input.now) e.input .status).1 = d at hpolled hd
  generalize (serve (e.before.opened e.input.now) e.input .status).2 = s' at hpolled
  refine ⟨hwf, ?_⟩
  cases hpolled with
  | kept _ other => exact absurd rfl other
  | registered register => cases register
  | refused _ _ hno =>
    rcases hno with hno | hfull
    · exact absurd ho.limits hno
    · exact absurd hfull ho.room
  | @putOff _ next _ same hfound early =>
    have hwait : next - e.input.now = wait := congrArg Decision.retryAfterMs hd
    obtain ⟨hrecords, hexpiry⟩ := same e.input.poll hplain trivial
    obtain ⟨e', -, hslot, -, hnext, hstamp, -⟩ := (hp.opened hnow).origin _ hplain trivial next hfound
    have hsame := Call.interval_of_poll hslot
    refine ⟨?_, e'.input.now + 60000, hexpiry.trans hstamp, ?_⟩
    · rw [hrecords, hfound]
      congr 1
      omega
    · omega
  | started _ _ written =>
    have hwait : e.input.interval = wait := congrArg Decision.retryAfterMs hd
    rw [← hwait]
    exact ⟨written.next, _, written.expires, by omega⟩
  | allowed => cases congrArg Decision.allowed hd

theorem clock_le_check (hk : Kept s) (c : Call) : s.clock.getD 0 ≤ (check s c).2.clock.getD 0 := by
  rcases check_cases s c with ⟨-, hsame | ⟨hnow, hstate⟩⟩ | ⟨op, hwf, -, hnow, -, hstate⟩
  · rw [hsame]
  · rw [hstate, opened_clock]
    exact hnow
  · rw [hstate, serve_clock (hk.sound.opened c.now) hwf, opened_clock]
    exact hnow

theorem schedule_stays {s m : State} {slot : Slot} {next x : Nat} (hr : Run check Allowed s h m)
    (hk : Kept s) (hplain : slot.Plain) (hpoll : slot.IsPoll)
    (hnext : s.records.get slot.id = some next) (hx : s.expiry.get slot.id = some x)
    (hothers : ∀ e ∈ h, e.input.poll ≠ slot) :
    m.records.get slot.id = some next ∧ m.expiry.get slot.id = some x ∨ x ≤ m.clock.getD 0 := by
  induction hr with
  | nil => exact .inl ⟨hnext, hx⟩
  | @snoc h m c hr _ ih =>
    have hk' : Kept m := hr.invariant hk fun _ c ih _ => ih.check c
    have hother : slot ≠ c.poll := fun heq =>
      hothers _ (List.mem_append_right _ List.mem_cons_self) heq.symm
    rcases ih fun e he => hothers e (List.mem_append_left _ he) with ⟨hrow, hstamp⟩ | hover
    · have hopened (now : Nat) : (m.opened now).records.get slot.id = some next ∧
          (m.opened now).expiry.get slot.id = some x ∨ x ≤ now := by
        rcases opened_get m now slot.id with ⟨hr', he'⟩ | ⟨-, -, y, hle, hy⟩
        · rw [hr', he']
          exact .inl ⟨hrow, hstamp⟩
        · rw [hstamp] at hy
          exact .inr (Option.some.inj hy ▸ hle)
      rcases check_cases m c with ⟨-, hsame | ⟨-, hstate⟩⟩ | ⟨op, hwf, -, -, -, hstate⟩
      · rw [hsame]
        exact .inl ⟨hrow, hstamp⟩
      · rw [hstate, opened_clock]
        exact hopened c.now
      · rw [hstate, serve_clock (hk'.sound.opened c.now) hwf, opened_clock]
        have hpolled := serve_polled (m.opened c.now) op hwf
        generalize (serve (m.opened c.now) c op).1 = d at hpolled
        generalize (serve (m.opened c.now) c op).2 = s' at hpolled
        have hsame : s'.records.get slot.id = (m.opened c.now).records.get slot.id ∧
            s'.expiry.get slot.id = (m.opened c.now).expiry.get slot.id := by
          cases hpolled with
          | kept same | refused _ same | putOff _ same => exact same slot hplain hpoll
          | registered _ _ _ written | started _ _ written | allowed _ _ _ written =>
            exact written.others slot hplain hpoll hother
        rw [hsame.1, hsame.2]
        exact hopened c.now
    · exact .inr (hover.trans (clock_le_check hk' c))

theorem PutOff.allowed_after {h h₂ : List Record} {m : State} {wait : Nat} (ho : PutOff e wait)
    (he : e = eventOf check e.before e.input) (hk : Kept e.before) (hp : Paced h e.before)
    (hr : Run check Allowed e.after h₂ m) (hothers : ∀ e' ∈ h₂, e'.input.poll ≠ e.input.poll)
    (hc : c = { e.input with now := e.input.now + wait }) (hclock : m.clock.getD 0 ≤ c.now)
    (hlimits : WithinLimits (m.opened c.now) c .status) (hroom : ¬ Full (m.opened c.now) c .status) :
    isAllowed (check m c).1 = true := by
  obtain ⟨hwf, hnext, x, hx, hlt⟩ := ho.schedule he hk hp
  have hafter : Kept e.after := by
    rw [he, eventOf_after]
    exact hk.check e.input
  have hm : Kept m := hr.invariant hafter fun _ c ih _ => ih.check c
  have hnow : c.now = e.input.now + wait := by rw [hc]
  have hpoll : c.poll = e.input.poll := by rw [hc]; rfl
  have hwf' : c.wellFormed = true := by rw [hc]; exact hwf
  have hparse : Op.parse c.op = some .status := by
    rw [hc]
    show Op.parse e.input.op = some .status
    rw [ho.status]
    rfl
  have hfound : (m.opened c.now).records.get c.poll.id = some c.now := by
    rw [hpoll]
    rcases schedule_stays hr hafter (Call.poll_plain hwf) trivial hnext hx hothers with ⟨hrow, hstamp⟩ | hover
    · rcases opened_get m c.now e.input.poll.id with ⟨hr', -⟩ | ⟨-, -, y, hle, hy⟩
      · rw [hr', hrow, hnow]
      · rw [hstamp] at hy
        have hxy := Option.some.inj hy
        omega
    · omega
  rw [hm.check_eq hwf' hparse hclock]
  have hpolled := serve_polled (m.opened c.now) .status hwf'
  generalize (serve (m.opened c.now) c .status).1 = d at hpolled
  generalize (serve (m.opened c.now) c .status).2 = s' at hpolled
  cases hpolled with
  | kept _ other => exact absurd rfl other
  | registered register => cases register
  | refused _ _ hno =>
    rcases hno with hno | hfull
    · exact absurd hlimits hno
    · exact absurd hfull hroom
  | putOff _ _ found early =>
    rw [hfound] at found
    cases found
    exact absurd early (Nat.lt_irrefl _)
  | started _ new =>
    rw [hfound] at new
    cases new
  | allowed => rfl

/-! ## Replies -/

def Decision.InRange (d : Decision) : Prop :=
  0 < d.now ∧ d.retryAfterMs ≤ 60000 ∧ 3000 ≤ d.pollAfterMs ∧ d.pollAfterMs ≤ 20000

theorem Paced.inRange {d : Decision} (hp : Paced h s) (hk : Kept s) (hpos : 0 < c.now)
    (hd : (check s c).1 = .ok d) : d.InRange := by
  have hinterval := c.interval_range
  rcases reply_cases hk hd with ⟨hback, hshort, rfl⟩ | ⟨op, hwf, -, hnow, hcheck⟩
  · exact ⟨Nat.lt_trans hpos hback, Nat.le_trans hshort (by decide), hinterval⟩
  · rw [hcheck] at hd
    obtain rfl : (serve (s.opened c.now) c op).1 = d := Except.ok.inj hd
    have reply {allowed : Bool} {wait : Nat} (hwait : wait ≤ 60000) : (c.reply allowed wait).InRange :=
      ⟨hpos, hwait, hinterval⟩
    -- a schedule is at most one interval away
    have hnext : ∀ next, (s.opened c.now).records.get c.poll.id = some next → next - c.now ≤ 60000 := by
      intro next hfound
      obtain ⟨e, -, hslot, -, hnext, -, hle⟩ := (hp.opened hnow).origin _ (Call.poll_plain hwf) trivial next hfound
      rw [opened_clock, Option.getD_some] at hle
      have hsame := Call.interval_of_poll hslot
      omega
    have hpolled := serve_polled (s.opened c.now) op hwf
    generalize (serve (s.opened c.now) c op).1 = d at hpolled
    generalize (serve (s.opened c.now) c op).2 = s' at hpolled
    cases hpolled with
    | kept _ _ short =>
      rcases short with hshort | ⟨next, hfound, rfl⟩
      · exact reply hshort
      · exact reply (hnext next hfound)
    | registered _ short => exact reply (by omega)
    | refused _ _ _ short => exact reply short
    | putOff _ _ hfound => exact reply (hnext _ hfound)
    | started => exact reply (by omega)
    | allowed => exact reply (Nat.zero_le _)

/-- Allowed polls of a credential are an interval apart and come an interval after a
schedule was recorded; a poll that only its schedule has denied is allowed exactly after
the wait; and every reply is in the ranges of the client. -/
theorem polls_spaced {Allowed : State → Call → Prop} {h : List Record} {s : State}
    (hr : Run check Allowed State.empty h s) :
    (∀ h₁ e h₂, h = h₁ ++ e :: h₂ → PollAllowed e →
      (3000 ≤ e.input.interval ∧ e.input.interval ≤ 20000) ∧
      (∀ e' ∈ h₁, PollAllowed e' → e'.input.poll = e.input.poll →
        e'.input.now + e.input.interval ≤ e.input.now) ∧
      ∃ e' ∈ h₁, e'.input.poll = e.input.poll ∧ Writes e' ∧
        e'.input.now + e.input.interval ≤ e.input.now) ∧
    (∀ h₁ e h₂ e' h₃ wait, h = h₁ ++ e :: (h₂ ++ e' :: h₃) → PutOff e wait →
      (∀ e'' ∈ h₂, e''.input.poll ≠ e.input.poll) →
      e'.input = { e.input with now := e.input.now + wait } →
      e'.before.clock.getD 0 ≤ e'.input.now → WithinLimits (found e') e'.input .status →
      ¬ Full (found e') e'.input .status → Admitted e') ∧
    ∀ e ∈ h, ∀ d, e.output = .ok d → 0 < e.input.now → d.InRange := by
  refine ⟨?_, ?_, ?_⟩
  · rintro h₁ e h₂ rfl ⟨hadmitted, hop⟩
    obtain ⟨m, hr₁, hr₂⟩ := hr.of_append
    obtain ⟨-, he, -⟩ := hr₂.of_cons
    obtain rfl : e.before = m := by
      rw [he]
      rfl
    rw [he] at hadmitted
    obtain ⟨hnow, hwf, next, hdue, hfound⟩ := due_of_allowed hadmitted hop
    have hp := (paced_of_run hr₁).opened hnow
    refine ⟨e.input.interval_range, fun e' he' hallowed hslot => ?_, ?_⟩
    · have hsame := Call.interval_of_poll hslot
      rw [← hslot] at hfound
      have hlater := hp.later e' he' hallowed next hfound
      omega
    · obtain ⟨e', he', hslot, hwrites, hnext, -, -⟩ := hp.origin _ (Call.poll_plain hwf) trivial next hfound
      have hsame := Call.interval_of_poll hslot
      exact ⟨e', he', hslot, hwrites, by omega⟩
  · rintro h₁ e h₂ e' h₃ wait rfl hputOff hothers hagain hclock hlimits hroom
    obtain ⟨m, hr₁, hr₂⟩ := hr.of_append
    obtain ⟨-, he, hr₃⟩ := hr₂.of_cons
    obtain rfl : e.before = m := by
      rw [he]
      rfl
    obtain ⟨m', hr₄, hr₅⟩ := hr₃.of_append
    obtain ⟨-, he', -⟩ := hr₅.of_cons
    obtain rfl : e'.before = m' := by
      rw [he']
      rfl
    have hallowed := hputOff.allowed_after he (kept_of_run hr₁) (paced_of_run hr₁) hr₄ hothers hagain hclock
      hlimits hroom
    rw [he']
    exact hallowed
  · intro e he d hd hpos
    obtain ⟨h₁, h₂, rfl, hr₁, -, heq, -⟩ := hr.split he
    have hreply : (check e.before e.input).1 = .ok d := by
      rw [heq] at hd
      exact hd
    exact (paced_of_run hr₁).inRange (kept_of_run hr₁) hpos hreply

def samplePoll (op : String) (now : Nat) : Call := { sampleJoin now with op := op }

def sampleRegistered : Record := eventOf check State.empty (samplePoll "register" 60000)

def samplePolled : Record := eventOf check sampleRegistered.after (samplePoll "status" 80000)

theorem samplePolled_allowed : isAllowed samplePolled.output = true := by
  decide +kernel

theorem samplePolled_spaced :
    isAllowed samplePolled.output = true ∧ Writes sampleRegistered ∧
      sampleRegistered.input.now + samplePolled.input.interval ≤ samplePolled.input.now := by
  have hfirst : Run check (fun _ _ => True) State.empty [sampleRegistered] sampleRegistered.after :=
    .single trivial
  have hr := hfirst.append (Run.single (a := samplePoll "status" 80000) trivial)
  obtain ⟨-, -, e, he, -, hwrites, hle⟩ :=
    (polls_spaced hr).1 [sampleRegistered] samplePolled [] rfl ⟨samplePolled_allowed, rfl⟩
  obtain rfl := List.mem_singleton.mp he
  exact ⟨samplePolled_allowed, hwrites, hle⟩

end WaitingRoom.Guard
