import WaitingRoom.Queue.History

/-!
# The order of admission

A room numbers its tickets 1, 2, 3, … and promotes them in that order. The
invariant keeps the two lists of a run, the tickets `made` and the tickets
`done`, next to the room: every row was made, and every row that waits comes
after everything that is done.
-/

namespace WaitingRoom.Queue

set_option autoImplicit false

theorem admissionId_injective (epoch : Nat) : Function.Injective (admissionId epoch) := by
  intro m n h
  have h := congrArg String.toList h
  simp only [admissionId, String.toList_append] at h
  have hdigits := congrArg (Nat.ofDigitChars 10 · 0) (List.append_cancel_left h)
  simpa [Nat.toString_eq_ofList_toDigits, Nat.ofDigitChars_toDigits] using hdigits

/-- `t` carries the id and the number of a ticket that was made. -/
def Made (made : List Ticket) (t : Ticket) : Prop :=
  ∃ m ∈ made, m.id = t.id ∧ m.sequence = t.sequence

variable {made done : List Ticket} {ls : List Label} {e now : Nat} {r : String} {ev : QueueEvent}
  {k' : QueueKeys} {db : QueueDb}

theorem Made.append {t : Ticket} (h : Made made t) (more : List Ticket) :
    Made (made ++ more) t := by
  obtain ⟨m, hm, heq⟩ := h
  exact ⟨m, List.mem_append_left _ hm, heq⟩

/-- A row waits without an admission, or it has the one it was promoted with. -/
def Stands (done : List Ticket) (t : Ticket) : Prop :=
  (t.state = .waiting ∧ t.jti = "") ∨
    (t.state ≠ .waiting ∧ ∃ d ∈ done, d.sequence = t.sequence ∧ d.jti = t.jti)

theorem Stands.append {t : Ticket} (h : Stands done t) (more : List Ticket) :
    Stands (done ++ more) t := by
  rcases h with h | ⟨hstate, d, hd, heq⟩
  · exact .inl h
  · exact .inr ⟨hstate, d, List.mem_append_left _ hd, heq⟩

/-- `t'` is `t` after something that changes neither its place nor its admission. -/
structure SameTicket (t t' : Ticket) : Prop where
  id : t'.id = t.id
  sequence : t'.sequence = t.sequence
  epoch : t'.epoch = t.epoch
  jti : t'.jti = t.jti
  waiting : t'.state = .waiting ↔ t.state = .waiting

theorem SameTicket.refl (t : Ticket) : SameTicket t t := ⟨rfl, rfl, rfl, rfl, .rfl⟩

/-- The room after a run that made the tickets `made` and promoted the tickets
`done`, in this order. -/
structure Ordered (made done : List Ticket) (room : QueueRoom) : Prop where
  numbers : made.map Ticket.sequence = List.range' 1 room.seq
  rows : ∀ id t, room.tickets.get id = some t → t.epoch = room.epoch ∧ Made made t ∧ Stands done t
  snapshots : ∀ key i snap, room.idem.get key = some i → i.join = some snap → Made made snap.ticket
  admitted : ∀ d ∈ done, Made made d ∧ d.jti = admissionId room.epoch d.sequence
  behind : ∀ d ∈ done, ∀ id w, room.tickets.get id = some w → w.state = .waiting →
    d.sequence < w.sequence
  increasing : (done.map Ticket.sequence).Pairwise (· < ·)

namespace Ordered

variable {made done : List Ticket} {room room' : QueueRoom}

theorem empty (h : room.seq = 0) (ht : room.tickets.size = 0) (hi : room.idem.size = 0) :
    Ordered [] [] room := by
  have ht := Table.size_eq_zero_iff.mp ht
  have hi := Table.size_eq_zero_iff.mp hi
  exact ⟨by simp [h], by simp [ht], by simp [hi], by simp, by simp, .nil⟩

/-- The rows of `room'` are rows of `room`, at most touched where it does not matter. -/
theorem of_same (h : Ordered made done room) (seq : room'.seq = room.seq)
    (epoch : room'.epoch = room.epoch)
    (rows : ∀ id t', room'.tickets.get id = some t' →
      ∃ t, room.tickets.get id = some t ∧ SameTicket t t')
    (idem : ∀ key i, room'.idem.get key = some i → room.idem.get key = some i) :
    Ordered made done room' := by
  refine ⟨by rw [seq]; exact h.numbers, ?_, ?_, by rw [epoch]; exact h.admitted, ?_, h.increasing⟩
  · intro id t' ht'
    obtain ⟨t, ht, same⟩ := rows id t' ht'
    obtain ⟨hepoch, ⟨m, hm, hid, hseq⟩, hstands⟩ := h.rows id t ht
    refine ⟨by rw [same.epoch, epoch, hepoch], ⟨m, hm, by rw [same.id, hid], by
      rw [same.sequence, hseq]⟩, ?_⟩
    simp only [Stands, ne_eq, same.waiting, same.jti, same.sequence]
    exact hstands
  · intro key i snap hi
    exact h.snapshots key i snap (idem key i hi)
  · intro d hd id w hw hwaiting
    obtain ⟨t, ht, same⟩ := rows id w hw
    rw [same.sequence]
    exact h.behind d hd id t ht (same.waiting.mp hwaiting)

theorem le_seq (h : Ordered made done room) {t : Ticket} (ht : Made made t) :
    1 ≤ t.sequence ∧ t.sequence ≤ room.seq := by
  obtain ⟨m, hm, -, hseq⟩ := ht
  have hmem : m.sequence ∈ List.range' 1 room.seq := h.numbers ▸ List.mem_map_of_mem hm
  rw [List.mem_range'_1] at hmem
  omega

theorem of_unnumbered (h : Ordered made done room) (hseq : room.seq = 0) :
    made = [] ∧ done = [] := by
  have hmade : made = [] := by simpa [hseq] using h.numbers
  refine ⟨hmade, List.eq_nil_iff_forall_not_mem.mpr fun d hd => ?_⟩
  obtain ⟨m, hm, -⟩ := (h.admitted d hd).1
  simp [hmade] at hm

theorem made_unique (h : Ordered made done room) {t t' : Ticket} (ht : Made made t)
    (ht' : Made made t') (hseq : t.sequence = t'.sequence) : t.id = t'.id := by
  obtain ⟨m, hm, hid, hs⟩ := ht
  obtain ⟨m', hm', hid', hs'⟩ := ht'
  have hnodup : (made.map Ticket.sequence).Nodup := h.numbers ▸ List.nodup_range'
  have : m = m' := List.inj_on_of_nodup_map hnodup hm hm' (by omega)
  rw [← hid, ← hid', this]

theorem join (h : Ordered made done room) {t : Ticket} {i : Idem} {key : String}
    (hseq : t.sequence = room.seq + 1) (hepoch : t.epoch = room.epoch) (hstate : t.state = .waiting)
    (hjti : t.jti = "") (hsnap : ∀ snap, i.join = some snap → snap.ticket = t)
    (seq : room'.seq = room.seq + 1) (epoch : room'.epoch = room.epoch)
    (tickets : room'.tickets = room.tickets.put t.id t) (idem : room'.idem = room.idem.put key i) :
    Ordered (made ++ [t]) done room' := by
  have hnew : Made (made ++ [t]) t := ⟨t, by simp, rfl, rfl⟩
  refine ⟨?_, ?_, ?_, ?_, ?_, h.increasing⟩
  · rw [List.map_append, h.numbers, seq, List.range'_1_concat]
    simp [hseq, Nat.add_comm]
  · intro id w hw
    rw [tickets, Table.get_put] at hw
    split at hw
    · obtain rfl := Option.some.inj hw
      exact ⟨hepoch.trans epoch.symm, hnew, .inl ⟨hstate, hjti⟩⟩
    · obtain ⟨he, hm, hs⟩ := h.rows id w hw
      exact ⟨he.trans epoch.symm, hm.append _, hs⟩
  · intro a row snap hrow hs
    rw [idem, Table.get_put] at hrow
    split at hrow
    · obtain rfl := Option.some.inj hrow
      rw [hsnap snap hs]
      exact hnew
    · exact (h.snapshots a row snap hrow hs).append _
  · intro d hd
    obtain ⟨hm, hj⟩ := h.admitted d hd
    exact ⟨hm.append _, by rw [hj, epoch]⟩
  · intro d hd id w hw hwaiting
    rw [tickets, Table.get_put] at hw
    split at hw
    · obtain rfl := Option.some.inj hw
      have := (h.le_seq (h.admitted d hd).1).2
      omega
    · exact h.behind d hd id w hw hwaiting

theorem promote (h : Ordered made done room) {id : String} {t t' : Ticket}
    (row : room.tickets.get id = some t) (hstate : t.state = .waiting)
    (first : ∀ a w, room.tickets.get a = some w → w.state = .waiting → t.sequence ≤ w.sequence)
    (ids : ∀ a w, room.tickets.get a = some w → w.id = a)
    (hid : t'.id = t.id) (hseq : t'.sequence = t.sequence) (hepoch : t'.epoch = t.epoch)
    (hready : t'.state = .ready) (hjti : t'.jti = admissionId t.epoch t.sequence)
    (seq : room'.seq = room.seq) (epoch : room'.epoch = room.epoch)
    (tickets : room'.tickets = room.tickets.put id t') (idem : room'.idem = room.idem) :
    Ordered made (done ++ [t']) room' := by
  obtain ⟨hte, htm, -⟩ := h.rows id t row
  have hmade : Made made t' := by
    obtain ⟨m, hm, hmid, hms⟩ := htm
    exact ⟨m, hm, hmid.trans hid.symm, hms.trans hseq.symm⟩
  refine ⟨by rw [seq]; exact h.numbers, ?_, by rw [idem]; exact h.snapshots, ?_, ?_, ?_⟩
  · intro a w hw
    rw [tickets, Table.get_put] at hw
    split at hw
    · obtain rfl := Option.some.inj hw
      refine ⟨by rw [hepoch, hte, epoch], hmade, .inr ⟨by simp [hready], ?_⟩⟩
      exact ⟨t', by simp, rfl, rfl⟩
    · obtain ⟨he, hm, hs⟩ := h.rows a w hw
      exact ⟨he.trans epoch.symm, hm, hs.append _⟩
  · intro d hd
    rcases List.mem_append.mp hd with hd | hd
    · rw [epoch]
      exact h.admitted d hd
    · obtain rfl := List.mem_singleton.mp hd
      exact ⟨hmade, by rw [hjti, hte, epoch, hseq]⟩
  · intro d hd a w hw hwaiting
    rw [tickets, Table.get_put] at hw
    split at hw
    · obtain rfl := Option.some.inj hw
      simp [hready] at hwaiting
    · rename_i hne
      rcases List.mem_append.mp hd with hd | hd
      · exact h.behind d hd a w hw hwaiting
      · obtain rfl := List.mem_singleton.mp hd
        have hle := first a w hw hwaiting
        have hdiff : t.sequence ≠ w.sequence := by
          intro heq
          have := h.made_unique htm (h.rows a w hw).2.1 heq
          rw [ids id t row, ids a w hw] at this
          exact hne this.symm
        omega
  · rw [List.map_append, List.pairwise_append]
    refine ⟨h.increasing, by simp, ?_⟩
    intro x hx y hy
    obtain ⟨d, hd, rfl⟩ := List.mem_map.mp hx
    obtain rfl : y = t'.sequence := by simpa using hy
    rw [hseq]
    exact h.behind d hd id t row hstate

end Ordered

theorem Effect.ordered {skew now : Nat} {k k' : QueueKeys} {l : Label} (he : Effect now k l k')
    (hs : TicketsSynced skew k) (h : Ordered made done k.room) :
    Ordered (made ++ joins [l]) (done ++ promotions [l]) k'.room := by
  have same : ∀ id t', k.room.tickets.get id = some t' →
      ∃ t, k.room.tickets.get id = some t ∧ SameTicket t t' :=
    fun _ t' ht' => ⟨t', ht', .refl t'⟩
  have nothing : ∀ {l}, joins [l] = [] → promotions [l] = [] → ∀ {k' : QueueKeys},
      Ordered made done k'.room → Ordered (made ++ joins [l]) (done ++ promotions [l]) k'.room := by
    intro l hj hp k' h'
    rwa [hj, hp, List.append_nil, List.append_nil]
  -- the row of one ticket is replaced by a row of the same ticket
  have put : ∀ {id t t'}, k.room.tickets.get id = some t → SameTicket t t' →
      ∀ a w, (k.room.tickets.put t'.id t').get a = some w →
        ∃ t, k.room.tickets.get a = some t ∧ SameTicket t w := by
    intro id t t' row htt a w hw
    rw [Table.get_put] at hw
    split at hw
    · obtain rfl := Option.some.inj hw
      obtain ⟨hid, -⟩ := hs.ids id t row
      subst a
      rw [htt.id, hid]
      exact ⟨t, row, htt⟩
    · exact same a w hw
  cases he with
  | expire row =>
    refine nothing rfl rfl (h.of_same rfl rfl (fun a w hw => ?_) fun _ _ hi => hi)
    simp only [dropTicket, Table.get_del] at hw
    split at hw
    · simp at hw
    · exact same a w hw
  | forget =>
    refine nothing rfl rfl (h.of_same rfl rfl same fun a i hi => ?_)
    simp only [dropIdem, Table.get_del] at hi
    split at hi
    · simp at hi
    · exact hi
  | release => exact nothing rfl rfl (h.of_same rfl rfl same fun _ _ hi => hi)
  | @join c g key fingerprint id replay config accepted fresh row =>
    have h' : Ordered (made ++ [newTicket k.room now c id]) done
        (joinRows k now c key fingerprint replay (newTicket k.room now c id)).room := by
      refine h.join rfl rfl rfl rfl ?_ rfl rfl rfl rfl
      rintro snap ⟨⟩
      rfl
    simpa [joins, promotions] using h'
  | @promote c id t s rest config mode head row =>
    obtain ⟨hstate, rfl⟩ := hs.state_of_waiting (Table.get_head head) row
    have h' : Ordered made (done ++ [promotedTicket now c t])
        (promoteRow k now id (promotedTicket now c t)).room := by
      refine h.promote row hstate ?_ (fun a w hw => (hs.ids a w hw).1) rfl rfl rfl rfl rfl rfl rfl
        rfl rfl
      intro a w hw hwaiting
      have hscore : k.room.waiting.get a = some (score w.sequence) := by
        rw [hs.waiting, hw, Option.bind_some, Ticket.waitingScore, if_pos hwaiting]
      simpa using Table.head_le head hscore
    simpa [joins, promotions] using h'
  | heartbeat config row state =>
    exact nothing rfl rfl (h.of_same rfl rfl (put row ⟨rfl, rfl, rfl, rfl, .rfl⟩) fun _ _ hi => hi)
  | claim config row state =>
    refine nothing rfl rfl (h.of_same rfl rfl (put row ⟨rfl, rfl, rfl, rfl, ?_⟩) fun _ _ hi => hi)
    simp [state]
  | reclaim => exact nothing rfl rfl (h.of_same rfl rfl same fun _ _ hi => hi)
  | configure => exact nothing rfl rfl (h.of_same rfl rfl same fun _ _ hi => hi)

theorem Effects.ordered {skew now : Nat} {k k' : QueueKeys} (run : Effects now k ls k')
    (hs : RoomSynced skew k)
    (h : Ordered made done k.room) : Ordered (made ++ joins ls) (done ++ promotions ls) k'.room := by
  induction run generalizing made done with
  | nil => simpa [joins, promotions] using h
  | @cons k k₁ k₂ l ls he _ ih =>
    rw [joins_cons, promotions_cons, ← List.append_assoc, ← List.append_assoc]
    exact ih (he.synced hs) (he.ordered hs.tickets h)

theorem createdAt_of_ran {op : Op} (command : commandAt e r ev = some (op, ev.output))
    (answered : Answered op ev.output ls k') (before : Ordered made done (ev.before.room e r))
    (after : Ordered (made ++ joins ls) (done ++ promotions ls) (ev.after.room e r)) :
    createdAt e r [ev] = joins ls := by
  have hjoined : joinedAt e r [ev] = joinedBy op ev.output := shown_of_command command
  have hlen : (ev.after.room e r).seq = (ev.before.room e r).seq + (joins ls).length := by
    have h₁ := congrArg List.length before.numbers
    have h₂ := congrArg List.length after.numbers
    simp only [List.length_map, List.length_append, List.length_range'] at h₁ h₂
    omega
  rw [createdAt, List.flatMap_singleton]
  rcases answered.joined with ⟨t, hls, hby⟩ | ⟨hls, -⟩
  · rw [if_pos (by rw [hlen, hls]; simp), hjoined, hby, hls]
  · rw [if_neg (by rw [hlen, hls]; simp), hls]

theorem started_ordered (h : Ordered made done (db.room e r)) (now : Nat) :
    Ordered made done (started (db.keys e r) now).room :=
  h.of_same rfl rfl (fun _ t ht => ⟨t, ht, .refl t⟩) fun _ _ hi => hi

theorem command_ordered {c : Config} (hs : EpochSynced db e)
    (config : (db.room e r).config = some c) (run : Effects now (started (db.keys e r) now) ls k')
    (h : Ordered made done (db.room e r)) :
    Ordered (made ++ joins ls) (done ++ promotions ls) k'.room :=
  run.ordered (started_synced hs config now) (started_ordered h now)

theorem RoomMove.ordered (hm : RoomMove e r ev) (hs : EpochSynced ev.before e)
    (h : Ordered made done (ev.before.room e r)) :
    Ordered (made ++ createdAt e r [ev]) (done ++ promotedAt e r [ev]) (ev.after.room e r) := by
  have same : ∀ id t', (ev.before.room e r).tickets.get id = some t' →
      ∃ t, (ev.before.room e r).tickets.get id = some t ∧ SameTicket t t' :=
    fun _ t' ht' => ⟨t', ht', .refl t'⟩
  have quiet : Silent e r ev → Ordered made done (ev.after.room e r) →
      Ordered (made ++ createdAt e r [ev]) (done ++ promotedAt e r [ev]) (ev.after.room e r) := by
    intro silent h'
    rwa [createdAt_of_silent silent, promotedAt_of_silent silent, List.append_nil, List.append_nil]
  cases hm with
  | still silent room =>
    refine quiet silent ?_
    rw [room]
    exact h.of_same rfl rfl same fun _ _ hi => hi
  | opened silent call blank room =>
    refine quiet silent ?_
    obtain ⟨rfl, rfl⟩ := h.of_unnumbered (by rw [blank])
    rw [room]
    exact .empty rfl rfl rfl
  | configured silent call tickets idems room =>
    refine quiet silent ?_
    rw [room]
    exact h.of_same rfl rfl same fun _ _ hi => hi
  | @ran op primary fence c ls k' command call enters config run answered inst room =>
    have hafter := command_ordered hs config run h
    rw [← room] at hafter
    rw [createdAt_of_ran command answered h hafter, promotedAt_of_command command answered]
    exact hafter

theorem room_ordered {es : List QueueEvent} (hr : QueueRun es db) (e : Nat) (r : String) :
    Ordered (createdAt e r es) (promotedAt e r es) (db.room e r) := by
  induction hr with
  | nil => exact .empty rfl rfl rfl
  | @snoc es db s hr wf ih =>
    have hs := run_synced hr e
    rw [createdAt_append, promotedAt_append]
    exact (exec_roomMove hs s r).ordered hs ih

theorem RoomMove.joined (hm : RoomMove e r ev) (hs : EpochSynced ev.before e)
    (h : Ordered made done (ev.before.room e r)) :
    ∀ t ∈ joinedAt e r [ev], Made (made ++ createdAt e r [ev]) t := by
  cases hm with
  | still silent => simp [joinedAt_of_silent silent]
  | opened silent => simp [joinedAt_of_silent silent]
  | configured silent => simp [joinedAt_of_silent silent]
  | ran command call enters config run answered inst room =>
    intro t ht
    rw [joinedAt, shown_of_command command] at ht
    have hafter := command_ordered hs config run h
    rw [createdAt_of_ran command answered h (by rwa [room])]
    rcases answered.joined with ⟨t', hls, hby⟩ | ⟨-, hretained⟩
    · rw [hby, List.mem_singleton] at ht
      subst t'
      exact ⟨t, by simp [hls], rfl, rfl⟩
    · rcases hretained t ht with ⟨id, hrow⟩ | ⟨key, i, snap, hi, hj, rfl⟩
      · exact (hafter.rows id t hrow).2.1
      · exact hafter.snapshots key i snap hi hj

theorem joined_made {es : List QueueEvent} (hr : QueueRun es db) (e : Nat) (r : String) :
    ∀ t ∈ joinedAt e r es, Made (createdAt e r es) t := by
  induction hr with
  | nil => simp [joinedAt, shown]
  | @snoc es db s hr wf ih =>
    intro t ht
    rw [joinedAt_append, List.mem_append] at ht
    rw [createdAt_append]
    have hs := run_synced hr e
    rcases ht with ht | ht
    · exact (ih t ht).append _
    · exact (exec_roomMove hs s r).joined hs (room_ordered hr e r) t ht

/-- Strict order of admission in every room of every epoch. Tickets are numbered
1, 2, 3, …, so that no number is given twice; they are promoted in increasing
order, so that none is promoted twice; their admission ids differ; and after a
promotion every ticket that still waits has a larger number. -/
theorem strict_fifo {es : List QueueEvent} {db : QueueDb} (hr : QueueRun es db) (e : Nat)
    (r : String) :
    (createdAt e r es).map Ticket.sequence = List.range' 1 (db.room e r).seq ∧
    (∀ t ∈ joinedAt e r es, Made (createdAt e r es) t) ∧
    (∀ t ∈ promotedAt e r es, Made (createdAt e r es) t ∧ t.jti = admissionId e t.sequence) ∧
    ((promotedAt e r es).map Ticket.sequence).Pairwise (· < ·) ∧
    ((promotedAt e r es).map Ticket.jti).Nodup ∧
    (∀ id t, (db.room e r).tickets.get id = some t → t.id = id ∧ Made (createdAt e r es) t ∧
      Stands (promotedAt e r es) t) ∧
    (∀ ev ∈ es, ∀ t ∈ promotedAt e r [ev], ∀ id w, (ev.after.room e r).tickets.get id = some w →
      w.state = .waiting → t.sequence < w.sequence) := by
  have h := room_ordered hr e r
  have hs := run_synced hr e
  have hadmitted : ∀ t ∈ promotedAt e r es,
      Made (createdAt e r es) t ∧ t.jti = admissionId e t.sequence := by
    intro t ht
    obtain ⟨hmade, hjti⟩ := h.admitted t ht
    have hopened : (db.room e r).config ≠ none := by
      intro hc
      rw [(h.of_unnumbered (by rw [hs.unopened r hc])).2] at ht
      simp at ht
    exact ⟨hmade, by rw [hjti, (hs.names r hopened).2.2]⟩
  refine ⟨h.numbers, joined_made hr e r, hadmitted, h.increasing, ?_, ?_, ?_⟩
  · have hmap : (promotedAt e r es).map Ticket.jti =
        ((promotedAt e r es).map Ticket.sequence).map (admissionId e) := by
      rw [List.map_map]
      exact List.map_congr_left fun t ht => (hadmitted t ht).2
    rw [hmap]
    exact (h.increasing.imp Nat.ne_of_lt).map _ fun a b hne heq => hne (admissionId_injective e heq)
  · intro id t ht
    have hopened : (db.room e r).config ≠ none := by
      intro hc
      simp [hs.unopened r hc] at ht
    obtain ⟨c, hc⟩ := Option.ne_none_iff_exists'.mp hopened
    have hrow := h.rows id t ht
    exact ⟨((hs.synced r c hc).tickets.ids id t ht).1, hrow.2⟩
  · intro ev hev t ht id w hw hwaiting
    obtain ⟨before, rest, -, hb, wf, heq, -⟩ := hr.split hev
    have hrun : QueueRun (before ++ [ev]) ev.after := by
      rw [heq]
      exact hb.snoc ev.input wf
    refine (room_ordered hrun e r).behind t ?_ id w hw hwaiting
    rw [promotedAt_append]
    exact List.mem_append_right _ ht

def lineId (c : Char) : String := String.ofList (List.replicate 64 c)

def lineSteps : List (Step Call) :=
  let step (now : Nat) (call : Call) : Step Call := ⟨1, "room", ⟨now, "primary"⟩, call⟩
  let command (now : Nat) (op : Op) := step now (.command op "primary" 1)
  let join (now : Nat) (c : Char) := command now (.join (lineId c) (lineId c) (lineId c) "replay")
  [step 1000000 (.upkeep (.init sampleConfig "primary" ⟨"lab", 4, 4⟩ 0)),
    command 1000001 (.configure ⟨sampleConfig, 1, 1, .auto⟩),
    join 1000002 'a', join 1000003 'b', join 1000004 'c', command 1000005 (.promote 3),
    command 1000006 (.promote 3), command 1030000 (.heartbeat (lineId 'c')), join 1030001 'd',
    command 1060005 (.promote 1)]

theorem lineSteps_wellFormed : ∀ s ∈ lineSteps, ∀ _ : QueueDb, s.call.WellFormed := by
  simp [lineSteps, Call.WellFormed, sampleConfig_valid]

def lineDb : QueueDb := stateAfter exec {} lineSteps

theorem line_run : QueueRun (eventsOf exec {} lineSteps) lineDb :=
  run_of_inputs {} lineSteps_wellFormed

theorem line_fifo :
    (createdAt 1 "room" (eventsOf exec {} lineSteps)).map Ticket.sequence = List.range' 1 4 ∧
    (promotedAt 1 "room" (eventsOf exec {} lineSteps)).map Ticket.sequence = [1, 2, 3] ∧
    ((promotedAt 1 "room" (eventsOf exec {} lineSteps)).map Ticket.sequence).Pairwise (· < ·) ∧
    ((promotedAt 1 "room" (eventsOf exec {} lineSteps)).map Ticket.jti).Nodup ∧
    ((lineDb.room 1 "room").tickets.get (lineId 'd')).map Ticket.state = some .waiting ∧
    (∀ ev ∈ eventsOf exec {} lineSteps, ∀ t ∈ promotedAt 1 "room" [ev], ∀ id w,
      (ev.after.room 1 "room").tickets.get id = some w → w.state = .waiting →
      t.sequence < w.sequence) := by
  obtain ⟨hnumbers, -, -, hincreasing, hids, -, hbehind⟩ := strict_fifo line_run 1 "room"
  have hseq : (lineDb.room 1 "room").seq = 4 := by decide +kernel
  exact ⟨hseq ▸ hnumbers, by decide +kernel, hincreasing, hids, by decide +kernel, hbehind⟩

end WaitingRoom.Queue
