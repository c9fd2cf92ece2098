import WaitingRoom.Queue.Hold

/-!
# Commands that fail

Valkey does not roll back a function, so a command that answers with an error has
left whatever it wrote before. The statements here are about arbitrary stored
states, whether or not the library can reach them: an error follows either no
write at all, or the marks every command makes, or one cleanup; and a command
that stops in a Lua error leaves the installation dirty, which only a completed
validation ends.
-/

namespace WaitingRoom.Queue

set_option autoImplicit false

section Cleanup

variable {now : Nat} {k k' : QueueKeys} {ids : List String}

theorem dropTickets_started : dropTickets ids (started k now) =
    match dropTickets ids k with
    | .ok k' => .ok (started k' now)
    | .error k' => .error (started k' now) := by
  induction ids generalizing k with
  | nil => rfl
  | cons id ids ih =>
    have hrow : (started k now).room.tickets.get id = k.room.tickets.get id := rfl
    rw [dropTickets, dropTickets, hrow]
    cases k.room.tickets.get id with
    | none => rfl
    | some t => exact ih (k := dropTicket k id t)

theorem dropIdems_started : dropIdems ids (started k now) = started (dropIdems ids k) now := by
  induction ids generalizing k with
  | nil => rfl
  | cons id ids ih => exact ih (k := dropIdem k id)

theorem cleanup_started : cleanup (started k now) now =
    match cleanup k now with
    | .ok (k', b) => .ok (started k' now, b)
    | .error k' => .error (started k' now) := by
  have hdue : (started k now).room.expiry = k.room.expiry := rfl
  rw [cleanup, cleanup, hdue, dropTickets_started]
  cases dropTickets ((k.room.expiry.due (score now)).take 128) k with
  | error k' => rfl
  | ok k' =>
    have hidems : (started k' now).room.idemExpiry = k'.room.idemExpiry := rfl
    dsimp only
    rw [hidems, dropIdems_started]
    rfl

theorem dropTickets_frame (h : dropTickets ids k = .ok k') :
    k'.room.room = k.room.room ∧ k'.room.idemExpiry = k.room.idemExpiry ∧
    k'.inst.idemOwners = k.inst.idemOwners ∧
    ∀ o, (∀ id ∈ ids, o ≠ member k.room.room id) →
      k'.inst.visitorOwners.get o = k.inst.visitorOwners.get o := by
  induction ids generalizing k with
  | nil =>
    obtain rfl := Except.ok.inj h
    exact ⟨rfl, rfl, rfl, fun _ _ => rfl⟩
  | cons id ids ih =>
    rw [dropTickets] at h
    split at h
    · exact absurd h (by simp)
    · rename_i t ht
      obtain ⟨hname, hidems, hidemOwners, howners⟩ := ih h
      refine ⟨hname, hidems, hidemOwners, fun o ho => ?_⟩
      rw [howners o fun a ha => ho a (List.mem_cons_of_mem _ ha)]
      exact Table.get_del_ne (ho id List.mem_cons_self)

theorem dropIdems_frame (ids : List String) (k : QueueKeys) :
    (dropIdems ids k).inst.visitorOwners = k.inst.visitorOwners ∧
    ∀ o, (∀ id ∈ ids, o ≠ member k.room.room id) →
      (dropIdems ids k).inst.idemOwners.get o = k.inst.idemOwners.get o := by
  induction ids generalizing k with
  | nil => exact ⟨rfl, fun _ _ => rfl⟩
  | cons id ids ih =>
    obtain ⟨hvisitors, howners⟩ := ih (dropIdem k id)
    refine ⟨hvisitors, fun o ho => ?_⟩
    rw [dropIdems, List.foldl_cons, ← dropIdems]
    rw [howners o fun a ha => ho a (List.mem_cons_of_mem _ ha)]
    exact Table.get_del_ne (ho id List.mem_cons_self)

theorem cleanup_owners {b : Bool} (h : cleanup k now = .ok (k', b)) (o : String) :
    ((∀ id, k.room.expiry.get id ≠ none → o ≠ member k.room.room id) →
      k'.inst.visitorOwners.get o = k.inst.visitorOwners.get o) ∧
    ((∀ key, k.room.idemExpiry.get key ≠ none → o ≠ member k.room.room key) →
      k'.inst.idemOwners.get o = k.inst.idemOwners.get o) := by
  rw [cleanup] at h
  split at h
  · exact absurd h (by simp)
  · rename_i k₁ hdrop
    obtain ⟨rfl, -⟩ := Prod.mk.inj (Except.ok.inj h)
    obtain ⟨hname, hidems, hidemOwners, howners⟩ := dropTickets_frame hdrop
    obtain ⟨hvisitors, hkeys⟩ := dropIdems_frame ((k₁.room.idemExpiry.due (score now)).take 128) k₁
    constructor
    · intro ho
      refine (congrArg (Table.get · o) hvisitors).trans (howners o fun id hid => ho id ?_)
      obtain ⟨s, hs, -⟩ := Table.mem_due.mp (List.mem_of_mem_take hid)
      simp [hs]
    · intro ho
      refine (hkeys o fun key hkey => ?_).trans (congrArg (Table.get · o) hidemOwners)
      rw [hname]
      obtain ⟨s, hs, -⟩ := Table.mem_due.mp (List.mem_of_mem_take hkey)
      exact ho key (by rw [← hidems, hs]; simp)

end Cleanup

section Perform

variable {k k' : QueueKeys} {now : Nat} {c : Config} {err : WrError}

theorem promoteLoop_error (ids : List String) (k : QueueKeys) (out : List Ticket) :
    (promoteLoop now c ids k out).1 ≠ .error err := by
  induction ids generalizing k out with
  | nil => simp [promoteLoop]
  | cons id ids ih =>
    rw [promoteLoop]
    split
    · simp
    · split
      · split
        · simp
        · split
          · simp
          · exact ih _ _
      · exact ih _ _

theorem perform_error {op : Op} (h : perform k now c op = (.error err, k')) : k' = k := by
  have fails : ∀ {o : Outcome} {k₁ : QueueKeys}, (o, k₁) = (.error err, k') → k₁ = k → k' = k := by
    intro o k₁ heq hk
    rw [← hk]
    exact (Prod.mk.inj heq).2.symm
  cases op with
  | join key fingerprint id replay =>
    rw [perform, join] at h
    repeat' split at h
    all_goals first | exact fails h rfl | exact absurd (Prod.mk.inj h).1 (by simp)
  | promote n =>
    rw [perform, promote] at h
    split at h
    · exact fails h rfl
    · exact absurd (congrArg Prod.fst h) (promoteLoop_error _ k [])
  | claim id =>
    rw [perform, claim] at h
    repeat' split at h
    all_goals first | exact fails h rfl | exact absurd (Prod.mk.inj h).1 (by simp [answer])
  | heartbeat id =>
    rw [perform, heartbeat] at h
    repeat' split at h
    all_goals first | exact fails h rfl | exact absurd (Prod.mk.inj h).1 (by simp [answer])
  | configure d =>
    rw [perform, configure] at h
    repeat' split at h
    all_goals first | exact fails h rfl | exact absurd (Prod.mk.inj h).1 (by simp [answer])
  | sweep => exact fails h rfl
  | other => exact fails h rfl

theorem sweepAndPerform_error {op : Op} (h : sweepAndPerform k now c op = (.error err, k')) :
    ∃ b, cleanup k now = .ok (k', b) := by
  rw [sweepAndPerform] at h
  split at h
  · exact absurd (Prod.mk.inj h).1 (by simp)
  · rename_i k₁ hclean
    exact ⟨false, by rw [hclean, (Prod.mk.inj h).2]⟩
  · rename_i k₁ hclean
    exact ⟨true, by rw [hclean, perform_error h]⟩

end Perform

section Command

variable {k k' : QueueKeys} {env : Env} {op : Op} {primary : String} {fence : Nat}

/-- The command is refused for its clock: it runs before the last command of the
installation, or before the last one of its room. -/
def RollsBack (k : QueueKeys) (env : Env) (op : Op) (primary : String) (fence : Nat) : Prop :=
  Fenced k env primary fence ∧ Available k ∧
    (env.now < k.inst.clock ∨
      k.room.config ≠ none ∧ k.room.schema = 5 ∧ op.Accepted ∧ env.now < k.room.clock)
  deriving Decidable

inductive CommandFailed (env : Env) (op : Op) (primary : String) (fence : Nat) (k : QueueKeys) :
    QueueKeys → Prop
  | refused (forward : ¬ RollsBack k env op primary fence) :
      CommandFailed env op primary fence k k
  | rollback (behind : RollsBack k env op primary fence) :
      CommandFailed env op primary fence k (holdRollback k env)
  | roomRollback (behind : RollsBack k env op primary fence) (clock : k.inst.clock ≤ env.now) :
      CommandFailed env op primary fence k (commit (holdRollback (beginCommand k env.now) env))
  | rejected (forward : ¬ RollsBack k env op primary fence) :
      CommandFailed env op primary fence k (commit (beginCommand k env.now))
  | held (forward : ¬ RollsBack k env op primary fence) :
      CommandFailed env op primary fence k (commit (started k env.now))
  | swept {k₁ : QueueKeys} {b : Bool} (forward : ¬ RollsBack k env op primary fence)
      (cleaned : cleanup k env.now = .ok (k₁, b)) :
      CommandFailed env op primary fence k (commit (started k₁ env.now))

theorem commitResult_error {r : Outcome × QueueKeys} {err : WrError}
    (h : commitResult r = (.error err, k')) : ∃ k₁, r = (.error err, k₁) ∧ k' = commit k₁ := by
  obtain ⟨o, k₁⟩ := r
  cases o with
  | reply => exact absurd (Prod.mk.inj h).1 (by simp)
  | error e =>
    obtain ⟨he, hk⟩ := Prod.mk.inj h
    exact ⟨k₁, by rw [he], hk.symm⟩
  | abort => exact absurd (Prod.mk.inj h).1 (by simp)

theorem swept_failed {c : Config} {err : WrError} (forward : ¬ RollsBack k env op primary fence)
    (h : sweepAndPerform (started k env.now) env.now c op = (.error err, k')) :
    CommandFailed env op primary fence k (commit k') := by
  obtain ⟨b, hclean⟩ := sweepAndPerform_error h
  rw [cleanup_started] at hclean
  cases hfirst : cleanup k env.now with
  | error k₁ =>
    rw [hfirst] at hclean
    exact absurd hclean (by simp)
  | ok r =>
    obtain ⟨k₁, b'⟩ := r
    rw [hfirst] at hclean
    obtain ⟨rfl, -⟩ := Prod.mk.inj (Except.ok.inj hclean)
    exact .swept forward hfirst

theorem wrR6Command_failed {err : WrError}
    (h : wrR6Command k env op primary fence = (.error err, k')) :
    CommandFailed env op primary fence k k' := by
  unfold wrR6Command at h
  split at h
  · rename_i hfenced
    obtain ⟨-, rfl⟩ := Prod.mk.inj h
    exact .refused fun hb => hfenced hb.1
  · rename_i hfenced
    split at h
    · rename_i havailable
      obtain ⟨-, rfl⟩ := Prod.mk.inj h
      exact .refused fun hb => havailable hb.2.1
    · rename_i havailable
      rw [not_not] at hfenced havailable
      split at h
      · rename_i hbehind
        obtain ⟨-, rfl⟩ := Prod.mk.inj h
        exact .rollback ⟨hfenced, havailable, .inl hbehind⟩
      · rename_i hclock
        obtain ⟨k₁, hcommand, rfl⟩ := commitResult_error h
        -- the installation's clock is behind `env.now`, so only the room's can be ahead
        have forward : (k.room.config ≠ none ∧ k.room.schema = 5 ∧ op.Accepted →
            k.room.clock ≤ env.now) → ¬ RollsBack k env op primary fence := by
          rintro hroom ⟨-, -, hinst | ⟨hconfig, hschema, haccepted, hroomClock⟩⟩
          · exact hclock hinst
          · have := hroom ⟨hconfig, hschema, haccepted⟩
            omega
        unfold command at hcommand
        split at hcommand
        · rename_i hconfig
          obtain ⟨-, rfl⟩ := Prod.mk.inj hcommand
          exact .rejected (forward fun hr => absurd hconfig hr.1)
        · rename_i c hconfig
          have hconfig : k.room.config ≠ none := by
            intro hnone
            have : k.room.config = some c := hconfig
            simp [hnone] at this
          split at hcommand
          · rename_i hschema
            obtain ⟨-, rfl⟩ := Prod.mk.inj hcommand
            exact .rejected (forward fun hr => absurd hr.2.1 hschema)
          · rename_i hschema
            rw [not_not] at hschema
            split at hcommand
            · rename_i haccepted
              obtain ⟨-, rfl⟩ := Prod.mk.inj hcommand
              exact .rejected (forward fun hr => absurd hr.2.2 haccepted)
            · rename_i haccepted
              rw [not_not] at haccepted
              split at hcommand
              · rename_i hbehind
                obtain ⟨-, rfl⟩ := Prod.mk.inj hcommand
                exact .roomRollback
                  ⟨hfenced, havailable, .inr ⟨hconfig, hschema, haccepted, hbehind⟩⟩
                  (Nat.not_lt.mp hclock)
              · rename_i hroom
                have hforward := forward fun _ => Nat.not_lt.mp hroom
                split at hcommand
                · obtain ⟨-, rfl⟩ := Prod.mk.inj hcommand
                  exact .held hforward
                · exact swept_failed hforward hcommand

/-- The rows, config, revisions and mode of the room are as they were, or as one
cleanup at `now` leaves them. -/
def RoomAsCleaned (k k' : QueueKeys) (now : Nat) : Prop :=
  k'.room = { k.room with clock := k'.room.clock } ∨
    ∃ k₁ b, cleanup k now = .ok (k₁, b) ∧ k'.room = { k₁.room with clock := now }

/-- What the installation records of its other rooms is as it was: the list of
rooms, the marks of their validation, and every owner of a row that is not in an
expiry set of this room. -/
structure OtherRoomsKept (k k' : QueueKeys) : Prop where
  rooms : k'.inst.rooms = k.inst.rooms
  validated : k'.inst.validated = k.inst.validated
  visitors : ∀ o, (∀ id, k.room.expiry.get id ≠ none → o ≠ member k.room.room id) →
    k'.inst.visitorOwners.get o = k.inst.visitorOwners.get o
  idems : ∀ o, (∀ key, k.room.idemExpiry.get key ≠ none → o ≠ member k.room.room key) →
    k'.inst.idemOwners.get o = k.inst.idemOwners.get o

/-- One hold for a clock rollback lies between `g` and `g'`. -/
structure RollbackHeld (env : Env) (g g' : Installation) : Prop where
  mode : g'.mode = .recoveryHold
  reason : g'.recoveryReason = some .clockRollback
  fence : g'.fence = g.fence + 1
  primary : g'.primary = some env.primary
  handshakeAt : g'.handshakeAt = env.now
  unsafeUntil : g'.unsafeUntil =
    max (max env.now g.clock + max g.leaseLifetime 60000 + 30000) g.unsafeUntil

theorem CommandFailed.roomAsCleaned (h : CommandFailed env op primary fence k k') :
    RoomAsCleaned k k' env.now := by
  cases h with
  | swept forward cleaned => exact .inr ⟨_, _, cleaned, rfl⟩
  | _ => exact .inl rfl

theorem holdRollback_otherRooms (k : QueueKeys) (env : Env) :
    OtherRoomsKept k (holdRollback k env) := by
  unfold holdRollback
  cases hh : hold k.inst env.now env.primary .clockRollback with
  | none => exact ⟨rfl, rfl, fun _ _ => rfl, fun _ _ => rfl⟩
  | some g =>
    obtain ⟨-, rfl⟩ := hold_eq_some hh
    exact ⟨rfl, rfl, fun _ _ => rfl, fun _ _ => rfl⟩

theorem cleanup_inst {k₁ : QueueKeys} {b : Bool} {now : Nat} (h : cleanup k now = .ok (k₁, b)) :
    k₁.inst = { k.inst with
      visitorOwners := k₁.inst.visitorOwners
      idemOwners := k₁.inst.idemOwners
      leaseLifetime := k₁.inst.leaseLifetime } := by
  obtain ⟨ls, k₂, -, run, -, hr⟩ := cleanup_effects k now
  rcases hr with hr | ⟨hr, -⟩
  · rw [h] at hr
    obtain rfl := (Prod.mk.inj (Except.ok.inj hr)).1
    obtain ⟨v, i, n, -, hinst⟩ := run.frame.inst
    rw [hinst]
  · rw [h] at hr
    exact absurd hr (by simp)

theorem CommandFailed.otherRooms (h : CommandFailed env op primary fence k k') :
    OtherRoomsKept k k' := by
  cases h with
  | refused => exact ⟨rfl, rfl, fun _ _ => rfl, fun _ _ => rfl⟩
  | rollback => exact holdRollback_otherRooms k env
  | roomRollback =>
    have kept := holdRollback_otherRooms (beginCommand k env.now) env
    exact ⟨kept.rooms, kept.validated, kept.visitors, kept.idems⟩
  | rejected => exact ⟨rfl, rfl, fun _ _ => rfl, fun _ _ => rfl⟩
  | held => exact ⟨rfl, rfl, fun _ _ => rfl, fun _ _ => rfl⟩
  | @swept k₁ b forward cleaned =>
    have hinst := cleanup_inst cleaned
    have hrooms : k₁.inst.rooms = k.inst.rooms := by rw [hinst]
    have hvalidated : k₁.inst.validated = k.inst.validated := by rw [hinst]
    exact ⟨hrooms, hvalidated, fun o => (cleanup_owners cleaned o).1,
      fun o => (cleanup_owners cleaned o).2⟩

theorem holdRollback_held (k : QueueKeys) (env : Env) (h : k.inst.fence < maxInteger) :
    RollbackHeld env k.inst (holdRollback k env).inst := by
  unfold holdRollback hold
  rw [if_neg (Nat.not_le.mpr h)]
  exact ⟨rfl, rfl, rfl, rfl, rfl, rfl⟩

theorem CommandFailed.rollbackHeld (h : CommandFailed env op primary fence k k')
    (behind : RollsBack k env op primary fence) (room : k.inst.fence < maxInteger) :
    RollbackHeld env k.inst k'.inst := by
  cases h with
  | rollback => exact holdRollback_held k env room
  | roomRollback _ clock =>
    have held := holdRollback_held (beginCommand k env.now) env room
    refine ⟨held.mode, held.reason, held.fence, held.primary, held.handshakeAt, ?_⟩
    have hmax : max env.now k.inst.clock = env.now := Nat.max_eq_left clock
    have hsafe := held.unsafeUntil
    rw [hmax]
    rw [show max env.now (beginCommand k env.now).inst.clock = env.now from Nat.max_self _] at hsafe
    exact hsafe
  | refused forward => exact absurd behind forward
  | rejected forward => exact absurd behind forward
  | held forward => exact absurd behind forward
  | swept forward => exact absurd behind forward

theorem CommandFailed.sameHold (h : CommandFailed env op primary fence k k')
    (forward : ¬ RollsBack k env op primary fence) :
    SameHold k.inst k'.inst ∧ k'.inst.mode = k.inst.mode := by
  cases h with
  | refused => exact ⟨.refl _, rfl⟩
  | rollback behind => exact absurd behind forward
  | roomRollback behind => exact absurd behind forward
  | rejected => exact ⟨⟨rfl, rfl, rfl, rfl, rfl, id⟩, rfl⟩
  | held => exact ⟨⟨rfl, rfl, rfl, rfl, rfl, id⟩, rfl⟩
  | @swept k₁ b _ cleaned =>
    have hinst : (commit (started k₁ env.now)).inst = { k₁.inst with
        clock := env.now, dirty := false
        visitors := k₁.inst.visitorOwners.size, idems := k₁.inst.idemOwners.size } := rfl
    rw [hinst, cleanup_inst cleaned]
    exact ⟨⟨rfl, rfl, rfl, rfl, rfl, id⟩, rfl⟩

end Command

section Dirty

/-- A command that stops in a Lua error has marked the installation and not
reached `commit`. -/
theorem wrR6Command_dirty {k k' : QueueKeys} {env : Env} {op : Op} {primary : String} {fence : Nat}
    (h : wrR6Command k env op primary fence = (.abort, k')) : k'.inst.dirty = true := by
  have move := wrR6Command_move k env op primary fence
  rw [h] at move
  generalize ho : Outcome.abort = o at move
  cases move with
  | aborted enters clock config run =>
    obtain ⟨v, i, n, -, hinst⟩ := run.frame.inst
    rw [hinst]
    rfl
  | ran enters clock config run ended => exact absurd ho.symm ended
  | _ => exact absurd ho (by simp)

theorem not_available_of_dirty {T I : Type} {k : Keys T I} (h : k.inst.dirty = true) :
    ¬ Available k := fun hav => by simp [hav.2.2.1] at h

theorem openedKeys_dirty {T I : Type} {k : Keys T I} {env : Env} {a : InitArgs} {n : Nat}
    {g : Installation} (installed : k.inst.config ≠ none) (h : k.inst.dirty = true) :
    (openedKeys k env a n g).inst.dirty = true := by
  unfold openedKeys
  dsimp only
  rw [if_pos h, openedInstallation_of_installed installed]

theorem upkeep_dirty {T I : Type} {env : Env} {epoch : Nat} {room : String} {k k' : Keys T I}
    {u : Upkeep} (hm : UpkeepMove env epoch room k u k') (h : k.inst.dirty = true) :
    k'.inst.dirty = true ∨ ((∃ primary fence, u = .validate primary fence) ∧
      k.inst.mode = .recoveryHold ∧ k.inst.unsafeUntil ≤ env.now ∧ k'.inst.mode = .active) := by
  cases hm with
  | held current schema holds =>
    obtain ⟨-, rfl⟩ := hold_eq_some holds
    exact .inl h
  | opened accepted switched new sound =>
    rename_i config primary global notBefore bound shared g
    have installed : k.inst.config ≠ none := by
      intro hnone
      have hmeta : k.inst.MetaExists := by simp [Installation.MetaExists, h]
      exact (accepted.uninstalled hnone).2.1 hmeta
    exact .inl (openedKeys_dirty (k := { k with shared := shared }) installed h)
  | activated fenced mode safe => exact .inr ⟨⟨_, _, rfl⟩, mode, safe, rfl⟩
  | _ => exact .inl h

theorem wrR6Command_of_dirty {k : QueueKeys} (h : k.inst.dirty = true) (env : Env) (op : Op)
    (primary : String) (fence : Nat) :
    ∃ err, wrR6Command k env op primary fence = (.error err, k) := by
  have hav := not_available_of_dirty h
  unfold wrR6Command
  by_cases hf : Fenced k env primary fence
  · exact ⟨.unavailable, by rw [if_neg (not_not.mpr hf), if_pos hav]⟩
  · exact ⟨.fenced, by rw [if_pos hf]⟩

theorem wrR6Status_of_dirty {k : QueueKeys} (h : k.inst.dirty = true) (env : Env)
    (id primary : String) (fence : Nat) : ∃ err, wrR6Status k env id primary fence = .error err := by
  have hav := not_available_of_dirty h
  unfold wrR6Status
  by_cases hf : Fenced k env primary fence
  · exact ⟨.unavailable, by rw [if_neg (not_not.mpr hf), if_pos hav]⟩
  · exact ⟨.fenced, by rw [if_pos hf]⟩

theorem exec_dirty {db : QueueDb} {e : Nat} (s : Step Call) (h : (db.inst e).dirty = true) :
    ((exec db s).2.inst e).dirty = true ∨ Activates e (eventOf exec db s) := by
  obtain ⟨k', hm, heq⟩ := exec_moved db s
  by_cases he : e = s.epoch
  · subst he
    have hafter : (eventOf exec db s).after.inst s.epoch = k'.inst := by
      rw [eventOf, heq, Db.set_inst_self]
    cases hm with
    | upkeep call move =>
      rw [heq, Db.set_inst_self]
      rcases upkeep_dirty move h with hd | ⟨⟨primary, fence, rfl⟩, mode, safe, hactive⟩
      · exact .inl hd
      · exact .inr ⟨rfl, ⟨primary, fence, call⟩, mode, safe, by rw [hafter, hactive]⟩
    | @command op primary fence o k' call move =>
      obtain ⟨err, hrefused⟩ :=
        wrR6Command_of_dirty (k := db.keys s.epoch s.room) h s.env op primary fence
      have hsame : exec db s = (.error err, db) :=
        exec_of_unchanged (by rw [call]; exact hrefused)
      rw [hsame]
      exact .inl h
    | read =>
      rw [heq, Db.set_inst_self]
      exact .inl h
  · rw [heq, Db.set_inst_ne he]
    exact .inl h

theorem run_dirty {db db' : QueueDb} {es : List QueueEvent} {e : Nat}
    (hr : Run exec (fun _ _ => True) db es db') (h : (db.inst e).dirty = true)
    (hno : ∀ ev ∈ es, ¬ Activates e ev) : (db'.inst e).dirty = true := by
  induction hr with
  | nil => exact h
  | snoc s hr _ ih =>
    have hdirty := ih fun ev hev => hno ev (List.mem_append_left _ hev)
    exact (exec_dirty s hdirty).resolve_right
      (hno _ (List.mem_append_right _ (List.mem_singleton_self _)))

end Dirty

/-- A command that answers with an error leaves its room as it was or as one
cleanup leaves it, and touches nothing of another room or epoch. It holds the
installation exactly when it met a clock rollback, unless the fence cannot be
raised any more. After a Lua error the commands and reads of every room of the
epoch are refused until a validation activates it. -/
theorem failed_command (db db' : QueueDb) (e : Nat) (r : String) (env : Env) (op : Op)
    (primary : String) (fence : Nat) (o : Outcome)
    (called : exec db ⟨e, r, env, .command op primary fence⟩ = (o, db')) :
    (∀ err, o = .error err →
      RoomAsCleaned (db.keys e r) (db'.keys e r) env.now ∧
      OtherRoomsKept (db.keys e r) (db'.keys e r) ∧
      (∀ e' r', ¬ (e' = e ∧ r' = r) → db'.room e' r' = db.room e' r') ∧
      (∀ e', e' ≠ e → db'.inst e' = db.inst e') ∧
      (RollsBack (db.keys e r) env op primary fence → (db.inst e).fence < maxInteger →
        RollbackHeld env (db.inst e) (db'.inst e)) ∧
      (¬ RollsBack (db.keys e r) env op primary fence →
        SameHold (db.inst e) (db'.inst e) ∧ (db'.inst e).mode = (db.inst e).mode)) ∧
    (o = .abort → ∀ es db'', Run exec (fun _ _ => True) db' es db'' →
      (∀ ev ∈ es, ¬ Activates e ev) → ∀ r' env',
        (∀ op' primary' fence', ∃ err,
          exec db'' ⟨e, r', env', .command op' primary' fence'⟩ = (.error err, db'')) ∧
        ∀ id primary' fence', ∃ err,
          exec db'' ⟨e, r', env', .status id primary' fence'⟩ = (.error err, db'')) := by
  obtain ⟨k', hrun, hdb⟩ : ∃ k', wrR6Command (db.keys e r) env op primary fence = (o, k') ∧
      db' = db.set e r k' := by
    obtain ⟨ho, hdb⟩ := Prod.mk.inj called
    exact ⟨(wrR6Command (db.keys e r) env op primary fence).2, Prod.ext ho rfl, hdb.symm⟩
  subst hdb
  refine ⟨?_, ?_⟩
  · rintro err rfl
    have failed := wrR6Command_failed hrun
    rw [Db.keys_set_self, Db.set_inst_self]
    exact ⟨failed.roomAsCleaned, failed.otherRooms, fun e' r' hne => Db.set_room_ne hne,
      fun e' hne => Db.set_inst_ne hne, failed.rollbackHeld, failed.sameHold⟩
  · rintro rfl es db'' hr hno r' env'
    have hfirst : ((db.set e r k').inst e).dirty = true := by
      rw [Db.set_inst_self]
      exact wrR6Command_dirty hrun
    have hdirty := run_dirty hr hfirst hno
    refine ⟨fun op' primary' fence' => ?_, fun id primary' fence' => ?_⟩
    · obtain ⟨err, h⟩ :=
        wrR6Command_of_dirty (k := db''.keys e r') hdirty env' op' primary' fence'
      exact ⟨err, exec_of_unchanged h⟩
    · obtain ⟨err, h⟩ := wrR6Status_of_dirty (k := db''.keys e r') hdirty env' id primary' fence'
      exact ⟨err, exec_of_unchanged (congrArg (·, db''.keys e r') h)⟩

/-- A command of the sample room that comes from before its last one. -/
theorem sample_failed :
    (exec sampleDb ⟨1, "room", ⟨0, "primary"⟩, .command .sweep "primary" 1⟩).1 =
      .error .unavailable ∧
    RollsBack (sampleDb.keys 1 "room") ⟨0, "primary"⟩ .sweep "primary" 1 ∧
    RollbackHeld ⟨0, "primary"⟩ (sampleDb.inst 1) ((exec sampleDb
      ⟨1, "room", ⟨0, "primary"⟩, .command .sweep "primary" 1⟩).2.inst 1) := by
  have hback : RollsBack (sampleDb.keys 1 "room") ⟨0, "primary"⟩ .sweep "primary" 1 := by
    decide +kernel
  have hout : (exec sampleDb ⟨1, "room", ⟨0, "primary"⟩, .command .sweep "primary" 1⟩).1 =
      .error .unavailable := by decide +kernel
  have hfence : (sampleDb.inst 1).fence < maxInteger := by decide +kernel
  have hfailed := failed_command sampleDb _ 1 "room" ⟨0, "primary"⟩ .sweep "primary" 1 _ rfl
  obtain ⟨-, -, -, -, held, -⟩ := hfailed.1 _ hout
  exact ⟨hout, hback, held hback hfence⟩

def lastFenceDb : QueueDb :=
  { sampleDb with inst := fun e => { sampleDb.inst e with fence := maxInteger } }

theorem wrR6Command_exhausted {k : QueueKeys} {env : Env} {op : Op} {primary : String} {fence : Nat}
    (fenced : Fenced k env primary fence) (available : Available k) (behind : env.now < k.inst.clock)
    (last : maxInteger ≤ k.inst.fence) :
    wrR6Command k env op primary fence = (.error .unavailable, k) := by
  have hhold : hold k.inst env.now env.primary .clockRollback = none := by
    rw [hold, if_pos last]
  rw [wrR6Command, if_neg (not_not.mpr fenced), if_neg (not_not.mpr available), if_pos behind,
    holdRollback, hhold]
  rfl

/-- A clock rollback is answered, and no hold is made, once the fence is exhausted. -/
theorem rollback_not_held :
    RollsBack (lastFenceDb.keys 1 "room") ⟨0, "primary"⟩ .sweep "primary" maxInteger ∧
    exec lastFenceDb ⟨1, "room", ⟨0, "primary"⟩, .command .sweep "primary" maxInteger⟩ =
      (.error .unavailable, lastFenceDb) ∧ (lastFenceDb.inst 1).mode = .active := by
  have hback : RollsBack (lastFenceDb.keys 1 "room") ⟨0, "primary"⟩ .sweep "primary" maxInteger := by
    decide +kernel
  have hclock : 0 < (lastFenceDb.inst 1).clock := by decide +kernel
  refine ⟨hback, ?_, hback.2.1.2.2.2.1⟩
  exact exec_of_unchanged (wrR6Command_exhausted hback.1 hback.2.1 hclock (Nat.le_refl maxInteger))

end WaitingRoom.Queue
