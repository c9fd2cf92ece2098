import WaitingRoom.Queue.Order
import WaitingRoom.Queue.Epoch

/-!
# The rolling rate of admission

Every promotion leaves a reservation in the rate set of its room, which only
`cleanup` removes, and only once a minute has passed. As long as no ticket hash
is used twice, the reservations of a room therefore count its promotions of the
last minute; the epochs before the current one have ended more than a minute ago.
-/

namespace WaitingRoom.Queue

set_option autoImplicit false

/-- Promoted in the last minute before `now`. -/
def inWindow (now : Nat) (t : Ticket) : Bool :=
  match t.promotedAt with
  | some p => decide (now < p + 60000 ∧ p ≤ now)
  | none => false

/-- The tickets promoted in room `r`, whatever the epoch. -/
def promotedOf (r : String) (es : List QueueEvent) : List Ticket :=
  es.flatMap fun ev => promotedAt ev.input.epoch r [ev]

theorem promotedOf_append (r : String) (es es' : List QueueEvent) :
    promotedOf r (es ++ es') = promotedOf r es ++ promotedOf r es' := List.flatMap_append

def Reserved (clock : Nat) (done : List Ticket) (rate : ScoreSet) : Prop :=
  ∀ d ∈ done, ∃ p, d.promotedAt = some p ∧
    (rate.get d.id = some (score p) ∨ p + 60000 ≤ clock)

theorem Reserved.mono {clock clock' : Nat} {done : List Ticket} {rate : ScoreSet}
    (h : Reserved clock done rate) (hle : clock ≤ clock') : Reserved clock' done rate := by
  intro d hd
  obtain ⟨p, hp, hr⟩ := h d hd
  exact ⟨p, hp, hr.imp_right hle.trans'⟩

theorem Reserved.count_le {now : Nat} {done : List Ticket} {rate : ScoreSet}
    (h : Reserved now done rate) (hids : (done.map Ticket.id).Nodup) :
    done.countP (inWindow now) ≤ rate.size := by
  rw [List.countP_eq_length_filter, ← List.length_map Ticket.id]
  apply Table.length_le_size (hids.sublist (List.filter_sublist.map _))
  intro id hid
  obtain ⟨d, hd, rfl⟩ := List.mem_map.mp hid
  obtain ⟨hd, hwindow⟩ := List.mem_filter.mp hd
  obtain ⟨p, hp, hr | hr⟩ := h d hd
  · exact ⟨_, hr⟩
  · simp only [inWindow, hp, decide_eq_true_eq] at hwindow
    omega

section Distinct

variable {made done : List Ticket} {room : QueueRoom}

theorem Made.sequence_eq (hids : (made.map Ticket.id).Nodup) {t t' : Ticket} (h : Made made t)
    (h' : Made made t') (hid : t.id = t'.id) : t.sequence = t'.sequence := by
  obtain ⟨m, hm, hmid, hmseq⟩ := h
  obtain ⟨m', hm', hmid', hmseq'⟩ := h'
  have : m = m' := List.inj_on_of_nodup_map hids hm hm' (by rw [hmid, hmid', hid])
  rw [← hmseq, ← hmseq', this]

theorem Ordered.ids_nodup (h : Ordered made done room) (hids : (made.map Ticket.id).Nodup) :
    (done.map Ticket.id).Nodup := by
  have hseq := List.pairwise_map.mp h.increasing
  rw [List.Nodup, List.pairwise_map]
  refine List.Pairwise.imp_of_mem ?_ hseq
  intro d d' hd hd' hlt hid
  have := (h.admitted d hd).1.sequence_eq hids (h.admitted d' hd').1 hid
  omega

end Distinct

section Effect

variable {skew now : Nat} {k k' : QueueKeys} {l : Label} {ls : List Label}
variable {made done : List Ticket}

theorem Effect.reserved (he : Effect now k l k') (hs : TicketsSynced skew k)
    (ho : Ordered made done k.room) (hids : (made.map Ticket.id).Nodup)
    (h : Reserved now done k.room.rate) : Reserved now (done ++ promotions [l]) k'.room.rate := by
  have nothing : ∀ {l}, promotions [l] = [] → ∀ {rate : ScoreSet}, Reserved now done rate →
      Reserved now (done ++ promotions [l]) rate := by
    intro l hp rate h'
    rwa [hp, List.append_nil]
  cases he with
  | release =>
    refine nothing rfl fun d hd => ?_
    obtain ⟨p, hp, hr | hr⟩ := h d hd
    · by_cases hlive : now < p + 60000
      · refine ⟨p, hp, .inl ?_⟩
        simp only [releaseRate, Table.get_keep, hr, Option.filter_some]
        rw [if_pos]
        simp only [decide_eq_true_eq, score_lt_score]
        omega
      · exact ⟨p, hp, .inr (by omega)⟩
    · exact ⟨p, hp, .inr hr⟩
  | @promote c id t s rest config mode head row =>
    obtain ⟨hstate, -⟩ := hs.state_of_waiting (Table.get_head head) row
    have hid := (hs.ids id t row).1
    intro d hd
    rcases List.mem_append.mp hd with hd | hd
    · obtain ⟨p, hp, hr⟩ := h d hd
      have hne : d.id ≠ id := by
        intro heq
        have hseq := (ho.admitted d hd).1.sequence_eq hids (ho.rows id t row).2.1 (heq.trans hid.symm)
        have hlt := ho.behind d hd id t row hstate
        omega
      exact ⟨p, hp, by simpa [promoteRow, hne] using hr⟩
    · obtain rfl := List.mem_singleton.mp hd
      refine ⟨now, rfl, .inl ?_⟩
      simp [promoteRow, promotedTicket, hid]
  | _ => exact nothing rfl h

theorem Effects.reserved (run : Effects now k ls k') (hs : RoomSynced skew k)
    (ho : Ordered made done k.room) (hids : ((made ++ joins ls).map Ticket.id).Nodup)
    (h : Reserved now done k.room.rate) : Reserved now (done ++ promotions ls) k'.room.rate := by
  induction run generalizing made done with
  | nil => simpa [promotions] using h
  | @cons k k₁ k₂ l ls he _ ih =>
    rw [joins_cons, ← List.append_assoc] at hids
    rw [promotions_cons, ← List.append_assoc]
    have hfirst : ((made ++ joins [l]).map Ticket.id).Nodup := by
      rw [List.map_append] at hids
      exact (List.nodup_append.mp hids).1
    have hmade : (made.map Ticket.id).Nodup := by
      rw [List.map_append] at hfirst
      exact (List.nodup_append.mp hfirst).1
    exact ih (he.synced hs) (he.ordered hs.tickets ho) hids (he.reserved hs.tickets ho hmade h)

def RateCapped (k : QueueKeys) : Prop := ∃ c, k.room.config = some c ∧ k.room.rate.size ≤ c.rate

theorem Effect.rateCapped (he : Effect now k l k') (h : promotions [l] ≠ [] ∨ RateCapped k) :
    RateCapped k' := by
  have hpast : promotions [l] = [] → RateCapped k := fun hl => h.resolve_left (not_not.mpr hl)
  cases he with
  | release =>
    obtain ⟨c, hc, hle⟩ := hpast rfl
    exact ⟨c, hc, (Table.size_keep_le _ _).trans hle⟩
  | @promote c id t s rest config mode head row cutoff leases rate =>
    exact ⟨c, config, (Table.size_put_le _ _ _).trans rate⟩
  | configure config mode caps ttls leases rate => exact ⟨_, rfl, rate⟩
  | _ => exact hpast rfl

theorem Effects.rateCapped (run : Effects now k ls k') (h : promotions ls ≠ [] ∨ RateCapped k) :
    RateCapped k' := by
  induction run with
  | nil => exact h.resolve_left (by simp [promotions])
  | @cons k k₁ k₂ l ls he _ ih =>
    apply ih
    by_cases hls : promotions ls = []
    · right
      refine he.rateCapped (h.imp_left fun hl hnil => hl ?_)
      rw [promotions_cons, hls, hnil]
      rfl
    · exact .inl hls

end Effect

theorem run_promoted_clock {es : List QueueEvent} {db : QueueDb} (hr : QueueRun es db) (e : Nat) :
    ∀ t ∈ promotedIn e es, ∃ p, t.promotedAt = some p ∧ p ≤ (db.inst e).clock := by
  induction hr with
  | nil => simp [promotedIn]
  | @snoc es db s hr wf ih =>
    intro t ht
    rw [promotedIn_append, List.mem_append] at ht
    rcases ht with ht | ht
    · obtain ⟨p, hp, hle⟩ := ih t ht
      have grows := (exec_path s (run_covers hr e t ht).1).grows (run_timed hr e).settled
      exact ⟨p, hp, hle.trans grows.clock⟩
    · obtain ⟨ev, hev, rfl, hp⟩ := mem_promotedIn.mp ht
      obtain rfl := List.mem_singleton.mp hev
      obtain ⟨-, -, -, -, hclock, hg⟩ := promoted_granted (run_synced hr _) (run_timed hr _) wf hp
      exact ⟨_, hg.at_now, Nat.le_of_eq hclock.symm⟩

section Run

variable {es : List QueueEvent} {db : QueueDb} {r : String}

theorem RoomMove.reserved {e : Nat} {ev : QueueEvent} {made done : List Ticket}
    (hm : RoomMove e r ev) (hs : EpochSynced ev.before e)
    (ho : Ordered made done (ev.before.room e r))
    (hids : ((made ++ createdAt e r [ev]).map Ticket.id).Nodup)
    (hclock : done ≠ [] → (ev.before.inst e).clock ≤ (ev.after.inst e).clock)
    (h : Reserved (ev.before.inst e).clock done (ev.before.room e r).rate) :
    Reserved (ev.after.inst e).clock (done ++ promotedAt e r [ev]) (ev.after.room e r).rate := by
  have quiet : Silent e r ev → (ev.after.room e r).rate = (ev.before.room e r).rate →
      Reserved (ev.after.inst e).clock (done ++ promotedAt e r [ev]) (ev.after.room e r).rate := by
    intro silent hrate
    rw [promotedAt_of_silent silent, List.append_nil, hrate]
    intro d hd
    exact h.mono (hclock (List.ne_nil_of_mem hd)) d hd
  cases hm with
  | still silent room => exact quiet silent (by rw [room])
  | opened silent call blank room => exact quiet silent (by rw [room, blank]; rfl)
  | configured silent call tickets idems room => exact quiet silent (by rw [room]; rfl)
  | @ran op primary fence c ls k' command call enters config run answered inst room =>
    have hafter := command_ordered hs config run ho
    rw [createdAt_of_ran command answered ho (by rwa [room])] at hids
    obtain ⟨v, i, n, -, hinst⟩ := run.frame.inst
    have hnow : (ev.after.inst e).clock = ev.input.env.now := by
      rw [inst]
      simp only [commit, hinst]
      rfl
    rw [promotedAt_of_command command answered, hnow, room]
    exact run.reserved (started_synced hs config _) (started_ordered ho _) hids (h.mono enters.clock)

theorem run_reserved (hr : QueueRun es db) (e : Nat)
    (hids : ((createdAt e r es).map Ticket.id).Nodup) :
    Reserved (db.inst e).clock (promotedAt e r es) (db.room e r).rate := by
  induction hr with
  | nil =>
    intro d hd
    simp [promotedAt, shown] at hd
  | @snoc es db s hr wf ih =>
    rw [createdAt_append] at hids
    have hs := run_synced hr e
    have hbefore : ((createdAt e r es).map Ticket.id).Nodup := by
      rw [List.map_append] at hids
      exact (List.nodup_append.mp hids).1
    rw [promotedAt_append]
    refine (exec_roomMove hs s r).reserved hs (room_ordered hr e r) hids ?_ (ih hbefore)
    intro hne
    obtain ⟨t, ht⟩ := List.exists_mem_of_ne_nil _ hne
    have hinst := (run_covers hr e t (promotedAt_subset ht)).1
    exact ((exec_path s hinst).grows (run_timed hr e).settled).clock

theorem enters_of_promoted {e : Nat} {ev : QueueEvent} {t : Ticket} (hm : RoomMove e r ev)
    (ht : t ∈ promotedAt e r [ev]) : ∃ primary fence,
      Enters (ev.before.keys e r) ev.input.env primary fence := by
  cases hm with
  | still silent => simp [promotedAt_of_silent silent] at ht
  | opened silent => simp [promotedAt_of_silent silent] at ht
  | configured silent => simp [promotedAt_of_silent silent] at ht
  | ran command call enters => exact ⟨_, _, enters⟩

/-- What was promoted before a promotion at `now` was promoted by then, and in
another epoch at least a minute before. -/
theorem promoted_before {e : Nat} {s : Step Call} {t : Ticket} (hr : QueueRun es db)
    (ht : t ∈ promotedAt s.epoch r [eventOf exec db s]) :
    ∀ t' ∈ promotedIn e es, ∃ p, t'.promotedAt = some p ∧ p ≤ s.env.now ∧
      (e ≠ s.epoch → p + 60000 ≤ s.env.now) := by
  intro t' ht'
  obtain ⟨primary, fence, enters⟩ := enters_of_promoted (exec_roomMove (run_synced hr _) s r) ht
  rcases Nat.lt_trichotomy e s.epoch with hlt | rfl | hgt
  · obtain ⟨-, p, hp, hle⟩ := past_of_enters hr hlt enters ht'
    have hle : p + 60000 ≤ s.env.now := hle
    exact ⟨p, hp, by omega, fun _ => hle⟩
  · obtain ⟨p, hp, hle⟩ := run_promoted_clock hr s.epoch t' ht'
    exact ⟨p, hp, hle.trans enters.clock, fun h => absurd rfl h⟩
  · obtain ⟨n, hn, hle⟩ := (run_ordered hr).installed e (run_covers hr e t' ht').1
    have hs := run_synced hr s.epoch
    have hcur : db.shared.epoch = some s.epoch := enters.available.1.trans
      (hs.installed (hs.installed_of_schema enters.available.2.1)).2
    obtain rfl := Option.some.inj (hn.symm.trans hcur)
    omega

theorem promoted_now {e : Nat} {s : Step Call} {t : Ticket} (hr : QueueRun es db)
    (wf : s.call.WellFormed) (ht : t ∈ promotedAt e r [eventOf exec db s]) :
    t.promotedAt = some s.env.now := by
  obtain ⟨ev, hev, rfl, hp⟩ := mem_promotedIn.mp (promotedAt_subset ht)
  obtain rfl := List.mem_singleton.mp hev
  exact (promoted_granted (run_synced hr _) (run_timed hr _) wf hp).2.2.2.2.2.at_now

theorem count_promotedOf_le {e now : Nat} (h : ∀ ev ∈ es, ev.input.epoch ≠ e →
      ∀ t ∈ promotedAt ev.input.epoch r [ev], inWindow now t = false) :
    (promotedOf r es).countP (inWindow now) ≤ (promotedAt e r es).countP (inWindow now) := by
  induction es with
  | nil => exact Nat.le_refl _
  | cons ev es ih =>
    have hrest := ih fun ev' hev' => h ev' (List.mem_cons_of_mem _ hev')
    have hof : promotedOf r (ev :: es) = promotedAt ev.input.epoch r [ev] ++ promotedOf r es := rfl
    have hat : promotedAt e r (ev :: es) = promotedAt e r [ev] ++ promotedAt e r es :=
      promotedAt_append [ev] es
    rw [hof, hat, List.countP_append, List.countP_append]
    by_cases he : ev.input.epoch = e
    · rw [he]
      omega
    · have hzero : (promotedAt ev.input.epoch r [ev]).countP (inWindow now) = 0 :=
        List.countP_eq_zero.mpr fun t ht => by simp [h ev List.mem_cons_self he t ht]
      omega

theorem count_le_rate {s : Step Call} {t : Ticket} (hr : QueueRun es db) (wf : s.call.WellFormed)
    (hids : ((createdAt s.epoch r (es ++ [eventOf exec db s])).map Ticket.id).Nodup)
    (ht : t ∈ promotedAt s.epoch r [eventOf exec db s]) :
    ∃ c, ((exec db s).2.room s.epoch r).config = some c ∧
      (promotedOf r (es ++ [eventOf exec db s])).countP (inWindow s.env.now) ≤ c.rate := by
  have hrun := hr.snoc s wf
  have hcapped : ∃ c, ((exec db s).2.room s.epoch r).config = some c ∧
      ((exec db s).2.room s.epoch r).rate.size ≤ c.rate := by
    cases exec_roomMove (run_synced hr s.epoch) s r with
    | still silent => simp [promotedAt_of_silent silent] at ht
    | opened silent => simp [promotedAt_of_silent silent] at ht
    | configured silent => simp [promotedAt_of_silent silent] at ht
    | ran command call enters config run answered inst room =>
      have hroom : (exec db s).2.room s.epoch r = _ := room
      rw [hroom]
      refine run.rateCapped (.inl (List.ne_nil_of_mem (a := t) ?_))
      rwa [← promotedAt_of_command command answered]
  have hclock : ((exec db s).2.inst s.epoch).clock = s.env.now := by
    obtain ⟨ev, hev, -, hp⟩ := mem_promotedIn.mp (promotedAt_subset ht)
    obtain rfl := List.mem_singleton.mp hev
    exact (promoted_granted (run_synced hr _) (run_timed hr _) wf hp).2.2.2.2.1
  have hreserved := run_reserved hrun s.epoch hids
  rw [hclock] at hreserved
  obtain ⟨c, hc, hle⟩ := hcapped
  refine ⟨c, hc, (count_promotedOf_le ?_).trans ((hreserved.count_le
    ((room_ordered hrun s.epoch r).ids_nodup hids)).trans hle)⟩
  intro ev hev hne t' ht'
  rcases List.mem_append.mp hev with hev | hev
  · have hmem : t' ∈ promotedIn ev.input.epoch es := promotedAt_subset (mem_shown.mpr ⟨ev, hev, ht'⟩)
    obtain ⟨p, hp, -, hold⟩ := promoted_before hr ht t' hmem
    have := hold hne
    simp only [inWindow, hp, decide_eq_false_iff_not]
    omega
  · obtain rfl := List.mem_singleton.mp hev
    exact absurd rfl hne

theorem promoted_after {now : Nat} {t : Ticket} {ev : QueueEvent} {db' : QueueDb}
    {rest : List QueueEvent} (hr : QueueRun es db) (hr' : RunFrom db rest db')
    (ht : t ∈ promotedOf r es) (hnow : t.promotedAt = some now) (hev : ev ∈ rest) {t' : Ticket}
    (ht' : t' ∈ promotedAt ev.input.epoch r [ev]) :
    ∃ p, t'.promotedAt = some p ∧ now ≤ p := by
  obtain ⟨before, after, -, hb, wf, heq, -⟩ := hr'.split hev
  rw [heq] at ht'
  refine ⟨ev.input.env.now, promoted_now (hr.append hb) wf ht', ?_⟩
  obtain ⟨ev₀, hev₀, ht₀⟩ := List.mem_flatMap.mp ht
  have hmem : t ∈ promotedIn ev₀.input.epoch (es ++ before) :=
    promotedAt_subset (mem_shown.mpr ⟨ev₀, List.mem_append_left _ hev₀, ht₀⟩)
  obtain ⟨p, hp, hle, -⟩ := promoted_before (hr.append hb) ht' t hmem
  obtain rfl := Option.some.inj (hp.symm.trans hnow)
  exact hle

end Run

/-- For a promotion at `now`, the promotions of its room in the minute up to
`now`, in all epochs, are at most the rate in force: those made so far, and, for
the last call that promotes at `now`, those of the whole run. A promotion keeps its
reservation until the clock of its epoch has passed the end of its minute. -/
theorem rolling_rate {es : List QueueEvent} {db : QueueDb} (hr : QueueRun es db) (r : String)
    (hids : ∀ e, ((createdAt e r es).map Ticket.id).Nodup) :
    (∀ before ev rest, es = before ++ ev :: rest → ∀ t ∈ promotedAt ev.input.epoch r [ev],
      t.promotedAt = some ev.input.env.now ∧
      ∃ c, (ev.after.room ev.input.epoch r).config = some c ∧
        (promotedOf r (before ++ [ev])).countP (inWindow ev.input.env.now) ≤ c.rate ∧
        ((∀ t' ∈ promotedOf r rest, t'.promotedAt ≠ some ev.input.env.now) →
          (promotedOf r es).countP (inWindow ev.input.env.now) ≤ c.rate)) ∧
    (∀ e, ∀ t ∈ promotedAt e r es, ∃ p, t.promotedAt = some p ∧
      ((db.room e r).rate.get t.id = some (score p) ∨ p + 60000 ≤ (db.inst e).clock)) := by
  refine ⟨?_, fun e => run_reserved hr e (hids e)⟩
  rintro before ev rest rfl t ht
  obtain ⟨m, hb, hrest⟩ := Run.of_append hr
  obtain ⟨wf, heq, hafter⟩ := Run.of_cons hrest
  obtain rfl : ev.before = m := by rw [heq]; rfl
  have hnow : t.promotedAt = some ev.input.env.now := by
    rw [heq] at ht
    exact promoted_now hb wf ht
  have hsplit : before ++ ev :: rest = before ++ [ev] ++ rest := by simp
  have hids' : ((createdAt ev.input.epoch r (before ++ [ev])).map Ticket.id).Nodup := by
    have h := hids ev.input.epoch
    rw [hsplit, createdAt_append, List.map_append] at h
    exact (List.nodup_append.mp h).1
  have hrun : QueueRun (before ++ [ev]) ev.after := by
    rw [heq]
    exact hb.snoc ev.input wf
  obtain ⟨c, hc, hle⟩ : ∃ c, (ev.after.room ev.input.epoch r).config = some c ∧
      (promotedOf r (before ++ [ev])).countP (inWindow ev.input.env.now) ≤ c.rate := by
    rw [heq] at ht hids' ⊢
    exact count_le_rate hb wf hids' ht
  refine ⟨hnow, c, hc, hle, fun hlast => ?_⟩
  have hmem : t ∈ promotedOf r (before ++ [ev]) := by
    rw [promotedOf_append]
    exact List.mem_append_right _ (by simpa [promotedOf] using ht)
  have hzero : (promotedOf r rest).countP (inWindow ev.input.env.now) = 0 := by
    refine List.countP_eq_zero.mpr fun t' ht' => ?_
    obtain ⟨ev', hev', ht''⟩ := List.mem_flatMap.mp ht'
    obtain ⟨p, hp, hge⟩ := promoted_after hrun hafter hmem hnow hev' ht''
    have hne : p ≠ ev.input.env.now := fun heq => hlast t' ht' (heq ▸ hp)
    simp only [inWindow, hp, decide_eq_true_eq]
    omega
  rw [hsplit, promotedOf_append, List.countP_append, hzero]
  exact hle

def lineEvents : List QueueEvent := eventsOf exec {} lineSteps

theorem lineEvents_ids (e : Nat) : ((createdAt e "room" lineEvents).map Ticket.id).Nodup := by
  by_cases he : 1 = e
  · subst he
    decide +kernel
  · have hnone : createdAt e "room" lineEvents = [] := by
      simp [lineEvents, createdAt, joinedAt, shown, commandAt, eventsOf, eventOf, lineSteps, he]
    simp [hnone]

/-- Two promotions use the rate up for a minute, in which a second call promotes nobody. -/
theorem line_rate : (promotedOf "room" lineEvents).map Ticket.promotedAt =
      [some 1000005, some 1000005, some 1060005] ∧
    (promotedOf "room" lineEvents).countP (inWindow 1000005) ≤ 2 ∧
    (promotedOf "room" lineEvents).countP (inWindow 1060005) ≤ 2 ∧
    ∀ t ∈ promotedAt 1 "room" lineEvents, ∃ p, t.promotedAt = some p ∧
      ((lineDb.room 1 "room").rate.get t.id = some (score p) ∨ p + 60000 ≤ (lineDb.inst 1).clock) := by
  obtain ⟨hpromoted, hkept⟩ := rolling_rate line_run "room" lineEvents_ids
  have hwindow : ∀ before ev rest, lineEvents = before ++ ev :: rest →
      promotedAt ev.input.epoch "room" [ev] ≠ [] →
      (ev.after.room ev.input.epoch "room").config = some sampleConfig →
      (∀ t' ∈ promotedOf "room" rest, t'.promotedAt ≠ some ev.input.env.now) →
      (promotedOf "room" lineEvents).countP (inWindow ev.input.env.now) ≤ 2 := by
    intro before ev rest heq hne hconfig hlast
    obtain ⟨t, ht⟩ := List.exists_mem_of_ne_nil _ hne
    obtain ⟨-, c, hc, -, hall⟩ := hpromoted before ev rest heq t ht
    obtain rfl := Option.some.inj (hc.symm.trans hconfig)
    exact hall hlast
  refine ⟨by decide +kernel, ?_, ?_, hkept 1⟩
  · exact hwindow (eventsOf exec {} (lineSteps.take 5))
      (eventOf exec _ ⟨1, "room", ⟨1000005, "primary"⟩, .command (.promote 3) "primary" 1⟩)
      (eventsOf exec (stateAfter exec {} (lineSteps.take 6)) (lineSteps.drop 6)) rfl
      (by decide +kernel) (by decide +kernel) (by decide +kernel)
  · exact hwindow (eventsOf exec {} (lineSteps.take 9))
      (eventOf exec _ ⟨1, "room", ⟨1060005, "primary"⟩, .command (.promote 1) "primary" 1⟩) [] rfl
      (by decide +kernel) (by decide +kernel) (by decide +kernel)

end WaitingRoom.Queue
