import WaitingRoom.Queue.Consistent

/-!
# Rooms do not disturb each other

A command reads of its installation only whether it may run and whether the
installation has room for a join. All the rest of its answer and of its writes
to the room depends on the room alone, so that the commands of other rooms show
nowhere in it.
-/

namespace WaitingRoom.Queue

set_option autoImplicit false

def Agree (r₁ r₂ : Outcome × QueueKeys) : Prop := r₁.1 = r₂.1 ∧ r₁.2.room = r₂.2.room

section Agree

variable {k₁ k₂ : QueueKeys} {now : Nat} {c : Config}

theorem Agree.same {o : Outcome} (h : k₁.room = k₂.room) : Agree (o, k₁) (o, k₂) := ⟨rfl, h⟩

theorem dropTicket_room (h : k₁.room = k₂.room) (id : String) (t : Ticket) :
    (dropTicket k₁ id t).room = (dropTicket k₂ id t).room := by simp [dropTicket, h]

theorem dropIdem_room (h : k₁.room = k₂.room) (id : String) :
    (dropIdem k₁ id).room = (dropIdem k₂ id).room := by simp [dropIdem, h]

theorem dropIdems_room (h : k₁.room = k₂.room) (ids : List String) :
    (dropIdems ids k₁).room = (dropIdems ids k₂).room := by
  induction ids generalizing k₁ k₂ with
  | nil => exact h
  | cons id ids ih => exact ih (dropIdem_room h id)

theorem releaseRate_room (h : k₁.room = k₂.room) (now : Nat) :
    (releaseRate k₁ now).room = (releaseRate k₂ now).room := by simp [releaseRate, h]

theorem promoteRow_room (h : k₁.room = k₂.room) (now : Nat) (id : String) (t : Ticket) :
    (promoteRow k₁ now id t).room = (promoteRow k₂ now id t).room := by simp [promoteRow, h]

theorem dropTickets_room (h : k₁.room = k₂.room) (ids : List String) :
    (∃ k₁' k₂', dropTickets ids k₁ = .ok k₁' ∧ dropTickets ids k₂ = .ok k₂' ∧
      k₁'.room = k₂'.room) ∨
    (∃ k₁' k₂', dropTickets ids k₁ = .error k₁' ∧ dropTickets ids k₂ = .error k₂' ∧
      k₁'.room = k₂'.room) := by
  induction ids generalizing k₁ k₂ with
  | nil => exact .inl ⟨k₁, k₂, rfl, rfl, h⟩
  | cons id ids ih =>
    cases ht : k₂.room.tickets.get id with
    | none =>
      refine .inr ⟨k₁, k₂, ?_, ?_, h⟩
      · simp [dropTickets, h, ht]
      · simp [dropTickets, ht]
    | some t =>
      have hrest := ih (dropTicket_room h id t)
      simpa [dropTickets, h, ht] using hrest

theorem cleanup_room (h : k₁.room = k₂.room) (now : Nat) :
    (∃ k₁' k₂' b, cleanup k₁ now = .ok (k₁', b) ∧ cleanup k₂ now = .ok (k₂', b) ∧
      k₁'.room = k₂'.room) ∨
    (∃ k₁' k₂', cleanup k₁ now = .error k₁' ∧ cleanup k₂ now = .error k₂' ∧
      k₁'.room = k₂'.room) := by
  unfold cleanup
  rw [h]
  rcases dropTickets_room h ((k₂.room.expiry.due (score now)).take 128) with
    ⟨k₁', k₂', h₁, h₂, hk⟩ | ⟨k₁', k₂', h₁, h₂, hk⟩
  · left
    have hidems := dropIdems_room hk ((k₂'.room.idemExpiry.due (score now)).take 128)
    have hrate := releaseRate_room hidems now
    have hswept : Swept (releaseRate (dropIdems ((k₂'.room.idemExpiry.due (score now)).take 128) k₁')
          now) now ↔ Swept (releaseRate (dropIdems ((k₂'.room.idemExpiry.due (score now)).take 128)
          k₂') now) now := by rw [Swept, Swept, hrate]
    refine ⟨_, _, _, ?_, by rw [h₂], hrate⟩
    rw [h₁]
    simp only [hk, decide_eq_decide.mpr hswept]
  · right
    exact ⟨k₁', k₂', by rw [h₁], by rw [h₂], hk⟩

theorem promoteLoop_agree (h : k₁.room = k₂.room) (ids : List String) (out : List Ticket) :
    Agree (promoteLoop now c ids k₁ out) (promoteLoop now c ids k₂ out) := by
  induction ids generalizing k₁ k₂ out with
  | nil => exact .same h
  | cons id ids ih =>
    unfold promoteLoop
    rw [h]
    split
    · exact .same h
    · rename_i t ht
      split
      · split
        · exact .same h
        · split
          · exact .same h
          · exact ih (promoteRow_room h now id _) _
      · exact ih (promoteRow_room h now id _) _

def Roomy (g : Installation) : Prop :=
  ∃ c ∈ g.config, g.visitorOwners.size < c.visitorCap ∧ g.idemOwners.size < c.idempotencyCap
  deriving Decidable

theorem join_agree (h : k₁.room = k₂.room) {key fingerprint id replay : String}
    (roomy : k₂.room.idem.get key = none → Roomy k₁.inst ∧ Roomy k₂.inst) :
    Agree (join k₁ now c key fingerprint id replay) (join k₂ now c key fingerprint id replay) := by
  unfold join
  rw [h]
  split
  · rename_i old hold
    refine ⟨?_, h⟩
    simp only [joinReplay, h]
  · rename_i hnew
    obtain ⟨⟨g₁, hg₁, hv₁, hi₁⟩, ⟨g₂, hg₂, hv₂, hi₂⟩⟩ := roomy hnew
    split
    · exact .same h
    · rw [hg₁, hg₂]
      simp only [Nat.not_le.mpr hv₁, Nat.not_le.mpr hi₁, Nat.not_le.mpr hv₂, Nat.not_le.mpr hi₂,
        false_or]
      split
      · exact .same h
      · split
        · exact .same h
        · split
          · exact .same h
          · exact ⟨rfl, by simp [joinRows, h]⟩

theorem configure_agree (h : k₁.room = k₂.room) (d : Desired) :
    Agree (configure k₁ now c d) (configure k₂ now c d) := by
  unfold configure
  rw [h]
  repeat' split
  all_goals first | exact .same h | exact ⟨rfl, rfl⟩

theorem promote_agree (h : k₁.room = k₂.room) (n : Nat) :
    Agree (promote k₁ now c n) (promote k₂ now c n) := by
  unfold promote
  rw [h]
  split
  · exact .same h
  · exact promoteLoop_agree h _ _

theorem heartbeat_agree (h : k₁.room = k₂.room) (id : String) :
    Agree (heartbeat k₁ now c id) (heartbeat k₂ now c id) := by
  unfold heartbeat
  rw [h]
  split
  · exact .same h
  · split
    · exact ⟨rfl, by simp [heartbeatRow, h]⟩
    · exact .same h

theorem claim_agree (h : k₁.room = k₂.room) (id : String) :
    Agree (claim k₁ now c id) (claim k₂ now c id) := by
  unfold claim
  rw [h]
  split
  · exact .same h
  · split
    · exact .same h
    · split
      · exact .same h
      · split
        · exact ⟨rfl, by simp [claimRow, h]⟩
        · exact .same h

def JoinFits (k : QueueKeys) : Op → Prop
  | .join key _ _ _ => k.room.idem.get key = none → Roomy k.inst
  | _ => True

instance (k : QueueKeys) : (op : Op) → Decidable (JoinFits k op)
  | .join .. => inferInstanceAs (Decidable (_ → _))
  | .promote _ | .claim _ | .heartbeat _ | .configure _ | .sweep | .other =>
    inferInstanceAs (Decidable True)

theorem perform_agree (h : k₁.room = k₂.room) {op : Op} (fits₁ : JoinFits k₁ op)
    (fits₂ : JoinFits k₂ op) : Agree (perform k₁ now c op) (perform k₂ now c op) := by
  cases op with
  | join key fingerprint id replay =>
    refine join_agree h fun hnew => ⟨fits₁ ?_, fits₂ hnew⟩
    rw [h]
    exact hnew
  | promote n => exact promote_agree h n
  | claim id => exact claim_agree h id
  | heartbeat id => exact heartbeat_agree h id
  | configure d => exact configure_agree h d
  | sweep => exact .same h
  | other => exact .same h

theorem sweepAndPerform_agree (h : k₁.room = k₂.room) {op : Op}
    (fits₁ : ∀ k, cleanup k₁ now = .ok (k, true) → JoinFits k op)
    (fits₂ : ∀ k, cleanup k₂ now = .ok (k, true) → JoinFits k op) :
    Agree (sweepAndPerform k₁ now c op) (sweepAndPerform k₂ now c op) := by
  unfold sweepAndPerform
  rcases cleanup_room h now with ⟨k₁', k₂', b, h₁, h₂, hk⟩ | ⟨k₁', k₂', h₁, h₂, hk⟩
  · rw [h₁, h₂]
    cases b with
    | false => exact .same hk
    | true => exact perform_agree hk (fits₁ k₁' h₁) (fits₂ k₂' h₂)
  · rw [h₁, h₂]
    exact .same hk

theorem commitResult_agree {r₁ r₂ : Outcome × QueueKeys} (h : Agree r₁ r₂) :
    Agree (commitResult r₁) (commitResult r₂) := by
  obtain ⟨o₁, k₁⟩ := r₁
  obtain ⟨o₂, k₂⟩ := r₂
  obtain ⟨rfl, hk⟩ : o₁ = o₂ ∧ k₁.room = k₂.room := h
  cases o₁ with
  | reply r => exact ⟨rfl, hk⟩
  | error e => exact ⟨rfl, hk⟩
  | abort => exact ⟨rfl, hk⟩

def FitsAfter (op : Op) : Except QueueKeys (QueueKeys × Bool) → Prop
  | .ok (k, true) => JoinFits k op
  | _ => True

instance (op : Op) : (r : Except QueueKeys (QueueKeys × Bool)) → Decidable (FitsAfter op r)
  | .ok (k, true) => inferInstanceAs (Decidable (JoinFits k op))
  | .ok (_, false) => .isTrue trivial
  | .error _ => .isTrue trivial

/-- If the operation is reached and joins with a new key, the installation has
room for it then. -/
def Fits (k : QueueKeys) (now : Nat) (op : Op) : Prop :=
  FitsAfter op (cleanup (started k now) now)
  deriving Decidable

theorem Fits.swept {op : Op} (h : Fits k₁ now op) {k : QueueKeys}
    (hk : cleanup (started k₁ now) now = .ok (k, true)) : JoinFits k op := by
  unfold Fits at h
  rw [hk] at h
  exact h

theorem command_agree (h : k₁.room = k₂.room) {env : Env} {op : Op} (fits₁ : Fits k₁ env.now op)
    (fits₂ : Fits k₂ env.now op) :
    Agree (command (beginCommand k₁ env.now) env op) (command (beginCommand k₂ env.now) env op) := by
  have hb : (beginCommand k₁ env.now).room = (beginCommand k₂ env.now).room := h
  have hs : (started k₁ env.now).room = (started k₂ env.now).room := by
    simp [started, setClock, hb]
  unfold command
  rw [hb]
  split
  · exact .same h
  · split
    · exact .same h
    · split
      · exact .same h
      · split
        · exact ⟨rfl, h⟩
        · split
          · exact .same hs
          · exact sweepAndPerform_agree hs (fun _ => fits₁.swept) fun _ => fits₂.swept

theorem wrR6Command_agree (h : k₁.room = k₂.room) {env : Env} {op : Op} {primary : String}
    {fence : Nat} (fenced : Fenced k₁ env primary fence ↔ Fenced k₂ env primary fence)
    (available : Available k₁ ↔ Available k₂) (clock₁ : k₁.inst.clock ≤ env.now)
    (clock₂ : k₂.inst.clock ≤ env.now) (fits₁ : Fits k₁ env.now op) (fits₂ : Fits k₂ env.now op) :
    Agree (wrR6Command k₁ env op primary fence) (wrR6Command k₂ env op primary fence) := by
  unfold wrR6Command
  rw [if_neg (Nat.not_lt.mpr clock₁), if_neg (Nat.not_lt.mpr clock₂)]
  simp only [fenced, available]
  split
  · exact .same h
  · split
    · exact .same h
    · exact commitResult_agree (command_agree h fits₁ fits₂)

theorem wrR6Status_agree (h : k₁.room = k₂.room) {env : Env} {id primary : String} {fence : Nat}
    (fenced : Fenced k₁ env primary fence ↔ Fenced k₂ env primary fence)
    (available : Available k₁ ↔ Available k₂) :
    wrR6Status k₁ env id primary fence = wrR6Status k₂ env id primary fence := by
  unfold wrR6Status
  simp only [fenced, available, h]

end Agree

/-- What a command tests of its installation, its clock and the counters apart. -/
structure Standing where
  epoch : Option Nat
  schema : Nat
  mode : Mode
  primary : Option String
  fence : Nat
  dirty : Bool
deriving DecidableEq, Repr

def Installation.standing (g : Installation) : Standing :=
  ⟨g.epoch, g.schema, g.mode, g.primary, g.fence, g.dirty⟩

section Standing

variable {env : Env} {op : Op} {primary : String} {fence : Nat} {o : Outcome} {k k' : QueueKeys}

theorem holdRollback_standing (h : (holdRollback k env).inst.mode = .active) :
    holdRollback k env = k := by
  unfold holdRollback at h ⊢
  cases hh : hold k.inst env.now env.primary .clockRollback with
  | none => rfl
  | some g =>
    rw [hh] at h
    obtain ⟨-, rfl⟩ := hold_eq_some hh
    simp at h

theorem command_standing (hm : CommandMove env op primary fence k o k') (ends : o ≠ .abort)
    (clock : k.inst.clock ≤ env.now) (active : k'.inst.mode = .active) :
    k'.inst.standing = k.inst.standing ∧ k'.shared.epoch = k.shared.epoch := by
  have clean : Enters k env primary fence → k.inst.dirty = false :=
    fun enters => enters.available.2.2.1
  cases hm with
  | refused => exact ⟨rfl, rfl⟩
  | rollback available behind => exact absurd clock (Nat.not_le.mpr behind)
  | rejected enters => exact ⟨by simp [Installation.standing, commit, beginCommand, clean enters], rfl⟩
  | roomRollback enters =>
    have hkept := holdRollback_standing (k := beginCommand k env.now) active
    rw [hkept]
    exact ⟨by simp [Installation.standing, commit, beginCommand, clean enters], rfl⟩
  | ran enters _ config run =>
    obtain ⟨v, i, n, -, hinst⟩ := run.frame.inst
    have hshared := run.frame.shared
    refine ⟨?_, ?_⟩
    · simp [Installation.standing, commit, hinst, started, setClock, beginCommand, clean enters]
    · simp [commit, hshared, started, setClock, beginCommand]
  | aborted => exact absurd rfl ends

end Standing

/-- A command or, in the room `b`, a status read; a new join of `b` finds the
installation with room for it. -/
def Permitted (e : Nat) (b : String) (db : QueueDb) (s : Step Call) : Call → Prop
  | .command op _ _ => s.room = b → Fits (db.keys e b) s.env.now op
  | .status _ _ _ => s.room = b
  | _ => False

instance (e : Nat) (b : String) (db : QueueDb) (s : Step Call) :
    (call : Call) → Decidable (Permitted e b db s call)
  | .command .. => inferInstanceAs (Decidable (_ → _))
  | .status .. => inferInstanceAs (Decidable (_ = _))
  | .upkeep _ | .capacity .. | .metrics .. => inferInstanceAs (Decidable False)

/-- A permitted step of the epoch `e`, at a time not before the last command, that
enters no hold. -/
structure Undisturbed (e : Nat) (b : String) (db : QueueDb) (s : Step Call) : Prop where
  epoch : s.epoch = e
  wellFormed : s.call.WellFormed
  clock : (db.inst e).clock ≤ s.env.now
  active : ((exec db s).2.inst e).mode = .active
  call : Permitted e b db s s.call

/-- The room `b` of epoch `e` cannot tell the two databases apart. -/
structure Alike (e : Nat) (b : String) (db₁ db₂ : QueueDb) : Prop where
  room : db₁.room e b = db₂.room e b
  standing : (db₁.inst e).standing = (db₂.inst e).standing
  shared : db₁.shared.epoch = db₂.shared.epoch

section Alike

variable {e : Nat} {b : String} {db db₁ db₂ : QueueDb} {s : Step Call}

theorem exec_standing (synced : EpochSynced db e) (h : Undisturbed e b db s) :
    ((exec db s).2.inst e).standing = (db.inst e).standing ∧
      (exec db s).2.shared.epoch = db.shared.epoch := by
  obtain ⟨k', hm, heq⟩ := exec_moved db s
  have hactive := h.active
  obtain rfl := h.epoch
  rw [heq, Db.set_inst_self] at hactive
  rw [heq, Db.set_inst_self]
  cases hm with
  | upkeep call =>
    have hc := h.call
    rw [call] at hc
    exact hc.elim
  | command call move => exact command_standing move (command_ends synced move) h.clock hactive
  | read => exact ⟨rfl, rfl⟩

theorem Alike.other (h : Alike e b db₁ db₂) (synced : EpochSynced db₁ e)
    (hs : Undisturbed e b db₁ s) (other : s.room ≠ b) : Alike e b (exec db₁ s).2 db₂ := by
  obtain ⟨hstanding, hshared⟩ := exec_standing synced hs
  refine ⟨?_, hstanding.trans h.standing, hshared.trans h.shared⟩
  rw [← h.room]
  exact Db.set_room_ne fun hroom => other hroom.2.symm

theorem Alike.symm (h : Alike e b db₁ db₂) : Alike e b db₂ db₁ :=
  ⟨h.room.symm, h.standing.symm, h.shared.symm⟩

theorem Alike.fenced (h : Alike e b db₁ db₂) (env : Env) (primary : String) (fence : Nat) :
    Fenced (db₁.keys e b) env primary fence ↔ Fenced (db₂.keys e b) env primary fence := by
  obtain ⟨hepoch, -, -, hprimary, hfence, -⟩ := Standing.mk.inj h.standing
  simp only [Fenced, EpochCurrent, Db.keys_inst, Db.keys_shared, h.shared, hepoch, hprimary, hfence]

theorem Alike.available (h : Alike e b db₁ db₂) (synced₁ : EpochSynced db₁ e)
    (synced₂ : EpochSynced db₂ e) : Available (db₁.keys e b) ↔ Available (db₂.keys e b) := by
  obtain ⟨hepoch, hschema, hmode, -, -, hdirty⟩ := Standing.mk.inj h.standing
  simp only [Available, EpochCurrent, Db.keys_inst, Db.keys_shared, h.shared, hepoch, hschema,
    hmode, hdirty, synced₁.visitors, synced₁.idems, synced₂.visitors, synced₂.idems]

theorem Alike.step (h : Alike e b db₁ db₂) (synced₁ : EpochSynced db₁ e)
    (synced₂ : EpochSynced db₂ e) (hs₁ : Undisturbed e b db₁ s) (hs₂ : Undisturbed e b db₂ s)
    (hroom : s.room = b) :
    (exec db₁ s).1 = (exec db₂ s).1 ∧ Alike e b (exec db₁ s).2 (exec db₂ s).2 := by
  obtain ⟨hst₁, hsh₁⟩ := exec_standing synced₁ hs₁
  obtain ⟨hst₂, hsh₂⟩ := exec_standing synced₂ hs₂
  have hagree : Agree (runCall (db₁.keys e b) e b s.env s.call)
      (runCall (db₂.keys e b) e b s.env s.call) := by
    have hkeys : (db₁.keys e b).room = (db₂.keys e b).room := h.room
    have hcall₁ := hs₁.call
    have hcall₂ := hs₂.call
    cases hc : s.call with
    | command op primary fence =>
      rw [hc] at hcall₁ hcall₂
      exact wrR6Command_agree hkeys (h.fenced _ _ _) (h.available synced₁ synced₂) hs₁.clock
        hs₂.clock (hcall₁ hroom) (hcall₂ hroom)
    | status id primary fence =>
      exact ⟨wrR6Status_agree hkeys (h.fenced _ _ _) (h.available synced₁ synced₂), hkeys⟩
    | _ =>
      rw [hc] at hcall₁
      exact hcall₁.elim
  have hrun : ∀ db : QueueDb, exec db s = ((runCall (db.keys e b) e b s.env s.call).1,
      db.set e b (runCall (db.keys e b) e b s.env s.call).2) := by
    intro db
    simp only [exec, hs₁.epoch, hroom]
  refine ⟨?_, ?_, ?_, ?_⟩
  · rw [hrun, hrun]
    exact hagree.1
  · rw [hrun, hrun, Db.set_room_self, Db.set_room_self]
    exact hagree.2
  · rw [hst₁, hst₂, h.standing]
  · rw [hsh₁, hsh₂, h.shared]

end Alike

/-- The events of the room `b`. -/
def eventsAt (b : String) (es : List QueueEvent) : List QueueEvent :=
  es.filter fun ev => decide (ev.input.room = b)

section Runs

variable {e : Nat} {b : String} {db db₁ db₂ : QueueDb} {es es₁ es₂ : List QueueEvent}

abbrev UndisturbedRun (e : Nat) (b : String) (db : QueueDb) : List QueueEvent → QueueDb → Prop :=
  Run exec (Undisturbed e b) db

theorem eventsAt_snoc_of_ne {ev : QueueEvent} (h : ev.input.room ≠ b) :
    eventsAt b (es ++ [ev]) = eventsAt b es := by
  simp [eventsAt, List.filter_append, h]

theorem eventsAt_snoc {ev : QueueEvent} (h : ev.input.room = b) :
    eventsAt b (es ++ [ev]) = eventsAt b es ++ [ev] := by
  simp [eventsAt, List.filter_append, h]

theorem undisturbed_synced (hr : UndisturbedRun e b db es db₁)
    (synced : ∀ e, EpochSynced db e) : ∀ e, EpochSynced db₁ e :=
  hr.invariant (I := fun db => ∀ e, EpochSynced db e) synced fun _ s h _ => exec_synced h s

/-- What two runs with the same steps of `b` have in common. -/
structure SameView (e : Nat) (b : String) (es₁ es₂ : List QueueEvent) (db₁ db₂ : QueueDb) :
    Prop where
  outputs : (eventsAt b es₁).map Event.output = (eventsAt b es₂).map Event.output
  alike : Alike e b db₁ db₂

theorem SameView.symm (h : SameView e b es₁ es₂ db₁ db₂) : SameView e b es₂ es₁ db₂ db₁ :=
  ⟨h.outputs.symm, h.alike.symm⟩

theorem SameView.other {s : Step Call} (h : SameView e b es₁ es₂ db₁ db₂)
    (synced : EpochSynced db₁ e) (hs : Undisturbed e b db₁ s) (other : s.room ≠ b) :
    SameView e b (es₁ ++ [eventOf exec db₁ s]) es₂ (exec db₁ s).2 db₂ := by
  refine ⟨?_, h.alike.other synced hs other⟩
  rw [eventsAt_snoc_of_ne (show (eventOf exec db₁ s).input.room ≠ b from other)]
  exact h.outputs

theorem SameView.step {s : Step Call} (h : SameView e b es₁ es₂ db₁ db₂)
    (synced₁ : EpochSynced db₁ e) (synced₂ : EpochSynced db₂ e) (hs₁ : Undisturbed e b db₁ s)
    (hs₂ : Undisturbed e b db₂ s) (hroom : s.room = b) :
    SameView e b (es₁ ++ [eventOf exec db₁ s]) (es₂ ++ [eventOf exec db₂ s])
      (exec db₁ s).2 (exec db₂ s).2 := by
  obtain ⟨hout, halike⟩ := h.alike.step synced₁ synced₂ hs₁ hs₂ hroom
  refine ⟨?_, halike⟩
  rw [eventsAt_snoc (show (eventOf exec db₁ s).input.room = b from hroom),
    eventsAt_snoc (show (eventOf exec db₂ s).input.room = b from hroom), List.map_append,
    List.map_append, h.outputs]
  simp only [List.map_cons, List.map_nil, eventOf, hout]

-- The steps of other rooms are taken off the ends of both runs until both end
-- with the same step of `b`.
theorem runs_sameView (synced : ∀ e, EpochSynced db e) (hr₁ : UndisturbedRun e b db es₁ db₁)
    (hr₂ : UndisturbedRun e b db es₂ db₂)
    (same : (eventsAt b es₁).map Event.input = (eventsAt b es₂).map Event.input) :
    SameView e b es₁ es₂ db₁ db₂ := by
  induction hr₁ generalizing es₂ db₂ with
  | nil =>
    induction hr₂ with
    | nil => exact ⟨rfl, rfl, rfl, rfl⟩
    | @snoc es₂ db₂ s₂ hr₂ hs₂ ih₂ =>
      by_cases hb : s₂.room = b
      · rw [eventsAt_snoc (show (eventOf exec db₂ s₂).input.room = b from hb)] at same
        simp [eventsAt] at same
      · rw [eventsAt_snoc_of_ne (show (eventOf exec db₂ s₂).input.room ≠ b from hb)] at same
        exact ((ih₂ same).symm.other (undisturbed_synced hr₂ synced e) hs₂ hb).symm
  | @snoc es₁ db₁ s₁ hr₁ hs₁ ih₁ =>
    have synced₁ := undisturbed_synced hr₁ synced e
    by_cases hb : s₁.room = b
    · induction hr₂ with
      | nil =>
        rw [eventsAt_snoc (show (eventOf exec db₁ s₁).input.room = b from hb)] at same
        simp [eventsAt] at same
      | @snoc es₂ db₂ s₂ hr₂ hs₂ ih₂ =>
        have synced₂ := undisturbed_synced hr₂ synced e
        by_cases hb₂ : s₂.room = b
        · rw [eventsAt_snoc (show (eventOf exec db₁ s₁).input.room = b from hb),
            eventsAt_snoc (show (eventOf exec db₂ s₂).input.room = b from hb₂), List.map_append,
            List.map_append] at same
          obtain ⟨hinit, hlast⟩ := List.append_inj' same rfl
          obtain rfl : s₁ = s₂ := by simpa [eventOf] using hlast
          exact (ih₁ hr₂ hinit).step synced₁ synced₂ hs₁ hs₂ hb
        · rw [eventsAt_snoc_of_ne (show (eventOf exec db₂ s₂).input.room ≠ b from hb₂)] at same
          exact ((ih₂ same).symm.other synced₂ hs₂ hb₂).symm
    · rw [eventsAt_snoc_of_ne (show (eventOf exec db₁ s₁).input.room ≠ b from hb)] at same
      exact (ih₁ hr₂ same).other synced₁ hs₁ hb

end Runs

/-- From any reachable active state: two runs that make the same steps in the room
`b`, whatever they do in other rooms, answer them alike and leave the same room. -/
theorem room_isolation {es₀ : List QueueEvent} {db : QueueDb} (hr : QueueRun es₀ db) {e : Nat}
    {b : String} {es₁ es₂ : List QueueEvent} {db₁ db₂ : QueueDb} (hr₁ : UndisturbedRun e b db es₁ db₁)
    (hr₂ : UndisturbedRun e b db es₂ db₂)
    (same : (eventsAt b es₁).map Event.input = (eventsAt b es₂).map Event.input) :
    (eventsAt b es₁).map Event.output = (eventsAt b es₂).map Event.output ∧
      db₁.room e b = db₂.room e b := by
  have h := runs_sameView (run_synced hr) hr₁ hr₂ same
  exact ⟨h.outputs, h.alike.room⟩

section Sample

def twoRooms : List (Step Call) :=
  let init (room : String) : Step Call :=
    ⟨1, room, ⟨1000000, "primary"⟩, .upkeep (.init sampleConfig "primary" ⟨"lab", 4, 4⟩ 0)⟩
  let auto (room : String) : Step Call :=
    ⟨1, room, ⟨1000001, "primary"⟩, .command (.configure ⟨sampleConfig, 1, 1, .auto⟩) "primary" 1⟩
  [init "room", init "other", auto "room", auto "other"]

def twoRoomsDb : QueueDb := stateAfter exec {} twoRooms

theorem twoRooms_run : QueueRun (eventsOf exec {} twoRooms) twoRoomsDb := by
  refine run_of_inputs ({} : QueueDb) ?_
  simp [twoRooms, Call.WellFormed, sampleConfig_valid]

def roomSteps : List (Step Call) :=
  let step (now : Nat) (call : Call) : Step Call := ⟨1, "room", ⟨now, "primary"⟩, call⟩
  [step 1000002 (.command (.join sampleId sampleId sampleId "replay") "primary" 1),
    step 1000004 (.command (.promote 1) "primary" 1),
    step 1000004 (.status sampleId "primary" 1)]

def mixedSteps : List (Step Call) :=
  roomSteps.take 1 ++ [⟨1, "other", ⟨1000003, "primary"⟩,
    .command (.join sampleId sampleId sampleId "replay") "primary" 1⟩] ++ roomSteps.drop 1

theorem undisturbed_run (steps : List (Step Call))
    (wellFormed : ∀ s ∈ steps, s.call.WellFormed)
    (h : ∀ ev ∈ eventsOf exec twoRoomsDb steps, ev.input.epoch = 1 ∧
      (ev.before.inst 1).clock ≤ ev.input.env.now ∧
      ((exec ev.before ev.input).2.inst 1).mode = .active ∧
      Permitted 1 "room" ev.before ev.input ev.input.call) :
    UndisturbedRun 1 "room" twoRoomsDb (eventsOf exec twoRoomsDb steps)
      (stateAfter exec twoRoomsDb steps) := by
  refine run_of_events twoRoomsDb fun ev hev => ?_
  obtain ⟨epoch, clock, active, call⟩ := h ev hev
  exact ⟨epoch, wellFormed _ (input_mem_of_event hev), clock, active, call⟩

theorem mixed_isolation :
    (eventsAt "room" (eventsOf exec twoRoomsDb roomSteps)).map Event.output =
      (eventsAt "room" (eventsOf exec twoRoomsDb mixedSteps)).map Event.output ∧
    (stateAfter exec twoRoomsDb roomSteps).room 1 "room" =
      (stateAfter exec twoRoomsDb mixedSteps).room 1 "room" := by
  have alone := undisturbed_run roomSteps (by simp [roomSteps, Call.WellFormed])
    (by decide +kernel)
  have mixed := undisturbed_run mixedSteps
    (by simp [mixedSteps, roomSteps, Call.WellFormed]) (by decide +kernel)
  exact room_isolation twoRooms_run alone mixed (by decide +kernel)

end Sample

end WaitingRoom.Queue
