import WaitingRoom.Queue.Effect
import WaitingRoom.Queue.System

/-!
# What a call can do

One relation for each kind of call lists everything it can do to its keys. All
invariants of runs are proved from these lists.
-/

namespace WaitingRoom.Queue

set_option autoImplicit false

section Upkeep

variable {T I : Type}

/-- What `wr_r6_init` has tested when it makes its first write. -/
structure InitAccepted (k : Keys T I) (env : Env) (a : InitArgs) : Prop where
  primary : a.primary = env.primary
  epoch : 1 ≤ a.epoch ∧ a.epoch < maxInteger
  notBefore : a.notBefore < maxInteger
  current : epochRefused k.shared.epoch a.epoch = false
  unopened : k.room.config = none → a.room ∉ k.inst.rooms ∧ ¬ k.room.RowsExist
  uninstalled : k.inst.config = none →
    k.room.config = none ∧ ¬ k.inst.MetaExists ∧ ¬ k.inst.OwnersExist
  installed : k.inst.config ≠ none →
    k.inst.config = some a.global ∧ k.inst.schema = 5 ∧ k.inst.epoch = some a.epoch
  opened : k.room.config ≠ none →
    k.room.room = a.room ∧ k.room.schema = 5 ∧ k.room.epoch = a.epoch

theorem initAccepted_of_refusal {k : Keys T I} {env : Env} {a : InitArgs}
    (h : initRefusal k env a = none) : InitAccepted k env a := by
  unfold initRefusal at h
  have step : ∀ {p : Prop} [Decidable p] {e : WrError} {r : Option WrError},
      (if p then some e else r) = none → ¬ p ∧ r = none := by
    intro p _ e r hr
    split at hr
    · simp at hr
    · exact ⟨by assumption, hr⟩
  obtain ⟨h₁, h⟩ := step h
  obtain ⟨h₂, h⟩ := step h
  obtain ⟨h₃, h⟩ := step h
  obtain ⟨h₄, h⟩ := step h
  obtain ⟨h₅, h⟩ := step h
  obtain ⟨h₆, h⟩ := step h
  obtain ⟨h₇, -⟩ := step h
  refine ⟨not_not.mp h₁, by omega, by omega, by simpa using h₃, ?_, ?_, ?_, ?_⟩
  · intro hr
    simpa [hr] using h₄
  · intro hg
    simpa [hg] using h₅
  · intro hg
    simpa [hg] using h₆
  · intro hr
    simpa [hr] using h₇

/-- What an upkeep call can do to the keys of `room` in `epoch`. -/
inductive UpkeepMove (env : Env) (epoch : Nat) (room : String) (k : Keys T I) :
    Upkeep → Keys T I → Prop
  | still {u : Upkeep} : UpkeepMove env epoch room k u k
  | held {u : Upkeep} {reason : RecoveryReason} {g : Installation} (current : EpochCurrent k)
      (schema : k.inst.schema = 5) (holds : hold k.inst env.now env.primary reason = some g)
      (later : reason ≠ .epochReset) : UpkeepMove env epoch room k u { k with inst := g }
  | passed {config : Config} {primary : String} {global : InstallationConfig}
      {notBefore bound : Nat} {shared : EpochMeta}
      (accepted : InitAccepted k env ⟨config, primary, global, room, epoch, notBefore⟩)
      (switched : switchEpoch k.shared k.inst.clock env.now epoch notBefore = some (shared, bound))
      (installed : k.inst.config ≠ none) :
      UpkeepMove env epoch room k (.init config primary global notBefore) { k with shared := shared }
  | opened {config : Config} {primary : String} {global : InstallationConfig}
      {notBefore bound : Nat} {shared : EpochMeta} {g : Installation}
      (accepted : InitAccepted k env ⟨config, primary, global, room, epoch, notBefore⟩)
      (switched : switchEpoch k.shared k.inst.clock env.now epoch notBefore = some (shared, bound))
      (new : k.room.config = none)
      (sound : holdUnsound { k with shared := shared } env = some g) :
      UpkeepMove env epoch room k (.init config primary global notBefore)
        (openedKeys { k with shared := shared } env
          ⟨config, primary, global, room, epoch, notBefore⟩ bound g)
  | configured {d : Desired} {primary : String} {fence : Nat} (fenced : Fenced k env primary fence)
      (mode : k.inst.mode = .recoveryHold) (reason : k.inst.recoveryReason = some .epochReset)
      (tickets : k.room.tickets.size = 0) (idems : k.room.idem.size = 0)
      (desired : d.mode = .hold ∨ d.mode = .off) (opened : k.room.config ≠ none) :
      UpkeepMove env epoch room k (.configureHeld d primary fence)
        { k with inst := coverLifetime k.inst d.config, room := configured k.room d }
  | noted {primary : String} {fence : Nat} {p : Option Progress} {v : Table String Validated}
      {e : Option ValidationError} (fenced : Fenced k env primary fence)
      (mode : k.inst.mode = .recoveryHold) (safe : k.inst.unsafeUntil ≤ env.now)
      (unopened : k.room.config = none → p = k.room.validation)
      (marks : v = k.inst.validated ∨ k.room.config ≠ none ∧ v = k.inst.validated.put k.room.room
        ⟨k.inst.fence, k.room.tickets.size, k.room.idem.size⟩) :
      UpkeepMove env epoch room k (.validate primary fence)
        { k with
          room := { k.room with validation := p }
          inst := { k.inst with validated := v, validationError := e } }
  | activated {primary : String} {fence : Nat} {p : Progress} {global : InstallationConfig}
      (fenced : Fenced k env primary fence) (mode : k.inst.mode = .recoveryHold)
      (safe : k.inst.unsafeUntil ≤ env.now) (opened : k.room.config ≠ none)
      (validated : ∀ r ∈ k.inst.rooms, RoomValidated k.inst r)
      (config : k.inst.config = some global) (totals : TotalsAgree k.inst global) :
      UpkeepMove env epoch room k (.validate primary fence)
        (activate { k with room := { k.room with validation := some p } } env.now)

variable {env : Env} {epoch : Nat} {room : String} {k : Keys T I}

theorem wrR6Init_move (config : Config) (primary : String) (global : InstallationConfig)
    (notBefore : Nat) :
    UpkeepMove env epoch room k (.init config primary global notBefore)
      (wrR6Init k env ⟨config, primary, global, room, epoch, notBefore⟩).2 := by
  unfold wrR6Init
  split
  · exact .still
  · rename_i refusal
    have accepted := initAccepted_of_refusal refusal
    split
    · exact .still
    · rename_i shared bound switched
      dsimp only
      split
      · rename_i new
        unfold openRoom
        split
        · rename_i sound
          refine .passed accepted switched ?_
          intro hg
          simp [holdUnsound, hg] at sound
        · rename_i g sound
          exact .opened accepted switched new sound
      · rename_i old
        exact .passed accepted switched fun hg => old (accepted.uninstalled hg).1

theorem recoverReason_ne {uncertain : Bool} :
    recoverReason k env uncertain ≠ some .epochReset := by
  unfold recoverReason
  split
  · simp
  · split
    · simp
    · split
      · simp
      · split <;> simp

theorem wrR6Recover_move (primary : String) (uncertain : Bool) :
    UpkeepMove env epoch room k (.recover primary uncertain)
      (wrR6Recover k env primary uncertain).2 := by
  unfold wrR6Recover
  split
  · exact .still
  · rename_i schema
    split
    · exact .still
    · rename_i current
      rw [not_or, not_not] at current
      split
      · exact .still
      · rename_i reason hreason
        split
        · exact .still
        · rename_i g holds
          refine .held current.1 (not_not.mp schema) holds ?_
          rintro rfl
          exact recoverReason_ne hreason

theorem wrR6ConfigureHeld_move (d : Desired) (primary : String) (fence : Nat) :
    UpkeepMove env epoch room k (.configureHeld d primary fence)
      (wrR6ConfigureHeld k env d primary fence).2 := by
  unfold wrR6ConfigureHeld
  split
  · exact .still
  · rename_i fenced
    split
    · exact .still
    · rename_i guard
      split
      · exact .still
      · rename_i opened
        split
        · exact .still
        · split
          · exact .still
          · simp only [not_or, not_not] at guard
            obtain ⟨mode, reason, tickets, idems, desired⟩ := guard
            refine .configured (not_not.mp fenced) mode reason tickets idems ?_ opened
            by_contra hd
            exact desired (not_or.mp hd)

section Validate

variable {primary : String} {fence : Nat} {c : Config} {p : Progress}
variable (fenced : Fenced k env primary fence) (mode : k.inst.mode = .recoveryHold)
  (safe : k.inst.unsafeUntil ≤ env.now)
include fenced mode safe

theorem validationFailed_move {p : Option Progress} (e : ValidationError)
    (unopened : k.room.config = none → p = k.room.validation) :
    UpkeepMove env epoch room k (.validate primary fence)
      (validationFailed { k with room := { k.room with validation := p } } env.now e).2 :=
  .noted fenced mode safe unopened (.inl rfl)

theorem setProgress_move (opened : k.room.config ≠ none) (p : Progress) :
    UpkeepMove env epoch room k (.validate primary fence) (setProgress k p) :=
  .noted (v := k.inst.validated) (e := k.inst.validationError) fenced mode safe
    (fun h => absurd h opened) (.inl rfl)

theorem validateTickets_move [Decodes T] (opened : k.room.config ≠ none) :
    UpkeepMove env epoch room k (.validate primary fence)
      (validateTickets (setProgress k p) env.now c p).2 := by
  have failed : ∀ (q : Option Progress) (e : ValidationError),
      UpkeepMove env epoch room k (.validate primary fence)
        (validationFailed { k with room := { k.room with validation := q } } env.now e).2 :=
    fun q e => validationFailed_move fenced mode safe e fun h => absurd h opened
  unfold validateTickets
  dsimp only
  split
  · exact failed _ _
  · split
    · split
      · exact failed _ _
      · exact setProgress_move fenced mode safe opened _
    · exact setProgress_move fenced mode safe opened _

theorem validateIdems_move [Decodes I] (opened : k.room.config ≠ none) :
    UpkeepMove env epoch room k (.validate primary fence)
      (validateIdems (setProgress k p) env.now c p).2 := by
  have failed : ∀ (q : Option Progress) (e : ValidationError),
      UpkeepMove env epoch room k (.validate primary fence)
        (validationFailed { k with room := { k.room with validation := q } } env.now e).2 :=
    fun q e => validationFailed_move fenced mode safe e fun h => absurd h opened
  unfold validateIdems
  dsimp only
  split
  · exact failed _ _
  · split
    · split
      · exact failed _ _
      · exact .noted (e := k.inst.validationError) fenced mode safe (fun h => absurd h opened)
          (.inr ⟨opened, rfl⟩)
    · exact setProgress_move fenced mode safe opened _

theorem validateTotals_move (opened : k.room.config ≠ none) :
    UpkeepMove env epoch room k (.validate primary fence)
      (validateTotals (setProgress k p) env.now).2 := by
  unfold validateTotals
  split
  · exact validationFailed_move fenced mode safe _ fun h => absurd h opened
  · split
    · rename_i validated
      split
      · exact setProgress_move fenced mode safe opened _
      · rename_i global config
        split
        · rename_i totals
          exact .activated fenced mode safe opened validated config totals
        · exact validationFailed_move fenced mode safe _ fun h => absurd h opened
    · exact setProgress_move fenced mode safe opened _

end Validate

theorem wrR6Validate_move [Decodes T] [Decodes I] (primary : String) (fence : Nat) :
    UpkeepMove env epoch room k (.validate primary fence) (wrR6Validate k env primary fence).2 := by
  unfold wrR6Validate
  split
  · exact .still
  · rename_i fenced
    rw [not_not] at fenced
    split
    · exact .still
    · rename_i guard
      simp only [not_or, not_not, Nat.not_lt] at guard
      obtain ⟨mode, safe, -⟩ := guard
      split
      · exact validationFailed_move fenced mode safe _ fun _ => rfl
      · rename_i c opened
        have opened : k.room.config ≠ none := by simp [opened]
        split
        · exact validationFailed_move fenced mode safe _ fun _ => rfl
        · split
          · exact validationFailed_move fenced mode safe _ fun _ => rfl
          · dsimp only
            split
            · exact validateTickets_move fenced mode safe opened
            · exact validateIdems_move fenced mode safe opened
            · exact validateTotals_move fenced mode safe opened
            · exact validationFailed_move fenced mode safe _ fun h => absurd h opened

theorem runUpkeep_move [Decodes T] [Decodes I] (u : Upkeep) :
    UpkeepMove env epoch room k u (runUpkeep k epoch room env u).2 := by
  cases u with
  | init config primary global notBefore => exact wrR6Init_move config primary global notBefore
  | recover primary uncertain => exact wrR6Recover_move primary uncertain
  | validate primary fence => exact wrR6Validate_move primary fence
  | configureHeld d primary fence => exact wrR6ConfigureHeld_move d primary fence

end Upkeep

section Command

variable {env : Env} {op : Op} {primary : String} {fence : Nat} {k : QueueKeys}

/-- What a command has tested when it makes its first write. -/
structure Enters (k : QueueKeys) (env : Env) (primary : String) (fence : Nat) : Prop where
  fenced : Fenced k env primary fence
  available : Available k
  clock : k.inst.clock ≤ env.now

def started (k : QueueKeys) (now : Nat) : QueueKeys := setClock (beginCommand k now) now

inductive CommandMove (env : Env) (op : Op) (primary : String) (fence : Nat) (k : QueueKeys) :
    Outcome → QueueKeys → Prop
  | refused (e : WrError) : CommandMove env op primary fence k (.error e) k
  | rollback (available : Available k) (behind : env.now < k.inst.clock) :
      CommandMove env op primary fence k (.error .unavailable) (holdRollback k env)
  | rejected (enters : Enters k env primary fence) (e : WrError) :
      CommandMove env op primary fence k (.error e) (commit (beginCommand k env.now))
  | roomRollback (enters : Enters k env primary fence) (behind : env.now < k.room.clock) :
      CommandMove env op primary fence k (.error .unavailable)
        (commit (holdRollback (beginCommand k env.now) env))
  | ran {c : Config} {o : Outcome} {ls : List Label} {k' : QueueKeys}
      (enters : Enters k env primary fence) (clock : k.room.clock ≤ env.now)
      (config : k.room.config = some c) (run : Effects env.now (started k env.now) ls k')
      (ended : o ≠ .abort) (answered : Answered op o ls k') :
      CommandMove env op primary fence k o (commit k')
  | aborted {c : Config} {ls : List Label} {k' : QueueKeys}
      (enters : Enters k env primary fence) (clock : k.room.clock ≤ env.now)
      (config : k.room.config = some c) (run : Effects env.now (started k env.now) ls k')
      (stuck : Stuck env.now k') : CommandMove env op primary fence k .abort k'

theorem commitResult_move {c : Config} {r : Outcome × QueueKeys}
    (enters : Enters k env primary fence) (clock : k.room.clock ≤ env.now)
    (config : k.room.config = some c) (h : Performed env.now op (started k env.now) r) :
    CommandMove env op primary fence k (commitResult r).1 (commitResult r).2 := by
  cases h with
  | @done o ls k' run ended answered =>
    cases o with
    | reply r => exact .ran enters clock config run ended answered
    | error e => exact .ran enters clock config run ended answered
    | abort => exact absurd rfl ended
  | stuck run stuck => exact .aborted enters clock config run stuck

theorem command_move (enters : Enters k env primary fence) (op : Op) :
    CommandMove env op primary fence k (commitResult (command (beginCommand k env.now) env op)).1
      (commitResult (command (beginCommand k env.now) env op)).2 := by
  unfold command
  split
  · exact .rejected enters _
  · rename_i c config
    split
    · exact .rejected enters _
    · split
      · exact .rejected enters _
      · rename_i accepted
        split
        · rename_i behind
          exact .roomRollback enters behind
        · rename_i clock
          have clock : k.room.clock ≤ env.now := Nat.not_lt.mp clock
          split
          · exact commitResult_move enters clock config (.error _)
          · have config' : (started k env.now).room.config = some c := config
            exact commitResult_move enters clock config
              (sweepAndPerform_performed config' (not_not.mp accepted))

theorem wrR6Command_move (k : QueueKeys) (env : Env) (op : Op) (primary : String) (fence : Nat) :
    CommandMove env op primary fence k (wrR6Command k env op primary fence).1
      (wrR6Command k env op primary fence).2 := by
  unfold wrR6Command
  split
  · exact .refused _
  · rename_i fenced
    rw [not_not] at fenced
    split
    · exact .refused _
    · rename_i available
      rw [not_not] at available
      split
      · rename_i behind
        exact .rollback available behind
      · rename_i clock
        have enters : Enters k env primary fence := ⟨fenced, available, Nat.not_lt.mp clock⟩
        exact command_move enters op

end Command

theorem hold_eq_some {g g' : Installation} {now : Nat} {primary : String}
    {reason : RecoveryReason} (h : hold g now primary reason = some g') :
    g.fence < maxInteger ∧ g' = { g with
      mode := .recoveryHold
      primary := some primary
      fence := g.fence + 1
      unsafeUntil := max (max now g.clock + max g.leaseLifetime 60000 + 30000) g.unsafeUntil
      handshakeAt := now
      recoveryReason := some reason
      validationError := none } := by
  unfold hold at h
  split at h
  · simp at h
  · exact ⟨by omega, (Option.some.inj h).symm⟩

section Opened

variable {T I : Type}

theorem holdUnsound_eq_some {k : Keys T I} {env : Env} {g : Installation}
    (h : holdUnsound k env = some g) :
    g = k.inst ∨ (k.inst.config ≠ none ∧
      hold k.inst env.now env.primary .initializationUncertainty = some g) := by
  unfold holdUnsound at h
  split at h
  · rename_i hc
    split at h
    · exact .inr ⟨hc.1, h⟩
    · exact .inl (Option.some.inj h).symm
  · exact .inl (Option.some.inj h).symm

section Create

variable (g : Installation) (env : Env) (a : InitArgs) (n : Nat)

@[simp] theorem createInstallation_config :
    (createInstallation g env a n).config = some a.global := by unfold createInstallation; split <;> rfl

@[simp] theorem createInstallation_schema : (createInstallation g env a n).schema = 5 := by
  unfold createInstallation; split <;> rfl

@[simp] theorem createInstallation_primary :
    (createInstallation g env a n).primary = some env.primary := by
  unfold createInstallation; split <;> rfl

@[simp] theorem createInstallation_epoch :
    (createInstallation g env a n).epoch = some a.epoch := by unfold createInstallation; split <;> rfl

@[simp] theorem createInstallation_clock : (createInstallation g env a n).clock = 0 := by
  unfold createInstallation; split <;> rfl

@[simp] theorem createInstallation_fence : (createInstallation g env a n).fence = 1 := by
  unfold createInstallation; split <;> rfl

@[simp] theorem createInstallation_leaseLifetime :
    (createInstallation g env a n).leaseLifetime = 60000 := by unfold createInstallation; split <;> rfl

@[simp] theorem createInstallation_rooms : (createInstallation g env a n).rooms = g.rooms := by
  unfold createInstallation; split <;> rfl

@[simp] theorem createInstallation_validated :
    (createInstallation g env a n).validated = g.validated := by
  unfold createInstallation; split <;> rfl

@[simp] theorem createInstallation_visitorOwners :
    (createInstallation g env a n).visitorOwners = g.visitorOwners := by
  unfold createInstallation; split <;> rfl

@[simp] theorem createInstallation_idemOwners :
    (createInstallation g env a n).idemOwners = g.idemOwners := by
  unfold createInstallation; split <;> rfl

@[simp] theorem createInstallation_visitors :
    (createInstallation g env a n).visitors = g.visitors := by unfold createInstallation; split <;> rfl

@[simp] theorem createInstallation_idems : (createInstallation g env a n).idems = g.idems := by
  unfold createInstallation; split <;> rfl

theorem createInstallation_held (h : env.now < n) :
    (createInstallation g env a n).mode = .recoveryHold ∧
      (createInstallation g env a n).unsafeUntil = n ∧
      (createInstallation g env a n).recoveryReason = some .epochReset := by
  simp [createInstallation, h]

end Create

theorem openedInstallation_of_none {k : Keys T I} {env : Env} {a : InitArgs} {n : Nat}
    {g : Installation} (h : k.inst.config = none) :
    openedInstallation k env a n g =
      let g' := coverLifetime (createInstallation { g with dirty := true } env a n) a.config
      { g' with rooms := insert a.room g'.rooms } := by
  simp [openedInstallation, h]

theorem openedInstallation_of_installed {k : Keys T I} {env : Env} {a : InitArgs} {n : Nat}
    {g : Installation} (h : k.inst.config ≠ none) :
    openedInstallation k env a n g =
      { coverLifetime g a.config with dirty := true, rooms := insert a.room g.rooms } := by
  simp [openedInstallation, h, coverLifetime]

@[simp] theorem openedKeys_room (k : Keys T I) (env : Env) (a : InitArgs) (n : Nat)
    (g : Installation) : (openedKeys k env a n g).room = createRoom k.room a := by
  unfold openedKeys
  dsimp only
  split <;> rfl

theorem openedKeys_config (k : Keys T I) (env : Env) (a : InitArgs) (n : Nat) (g : Installation) :
    (openedKeys k env a n g).inst.config = (openedInstallation k env a n g).config := by
  unfold openedKeys
  dsimp only
  split <;> rfl

theorem openedKeys_shared (k : Keys T I) (env : Env) (a : InitArgs) (n : Nat) (g : Installation) :
    (openedKeys k env a n g).shared.epoch = k.shared.epoch ∧
      k.shared.clock.getD 0 ≤ (openedKeys k env a n g).shared.clock.getD 0 := by
  unfold openedKeys
  dsimp only
  split
  · exact ⟨rfl, Nat.le_refl _⟩
  · exact ⟨rfl, Nat.le_max_right _ _⟩

theorem openedKeys_inst (k : Keys T I) (env : Env) (a : InitArgs) (n : Nat) (g : Installation)
    (h : k.inst.config ≠ none) :
    ∃ v i d, (openedKeys k env a n g).inst = { coverLifetime g a.config with
      rooms := insert a.room g.rooms, visitors := v, idems := i, dirty := d } := by
  unfold openedKeys
  dsimp only
  split
  · rw [openedInstallation_of_installed h]
    exact ⟨_, _, _, rfl⟩
  · simp only [commit, openedInstallation_of_installed h]
    exact ⟨_, _, _, rfl⟩

theorem openedInstallation_leaseLifetime (k : Keys T I) (env : Env) (a : InitArgs) (n : Nat)
    (g : Installation) : ∃ m, (openedInstallation k env a n g).leaseLifetime =
      max m (max a.config.admissionTTL a.config.readyTTL) := ⟨_, rfl⟩

end Opened

inductive Moved (s : Step Call) (k : QueueKeys) : Outcome → QueueKeys → Prop
  | upkeep {u : Upkeep} {o : Outcome} {k' : QueueKeys} (call : s.call = .upkeep u)
      (move : UpkeepMove s.env s.epoch s.room k u k') : Moved s k o k'
  | command {op : Op} {primary : String} {fence : Nat} {o : Outcome} {k' : QueueKeys}
      (call : s.call = .command op primary fence)
      (move : CommandMove s.env op primary fence k o k') : Moved s k o k'
  | read {o : Outcome} (call : s.call.Reads) : Moved s k o k

theorem exec_moved (db : QueueDb) (s : Step Call) :
    ∃ k', Moved s (db.keys s.epoch s.room) (exec db s).1 k' ∧
      (exec db s).2 = db.set s.epoch s.room k' := by
  refine ⟨(runCall (db.keys s.epoch s.room) s.epoch s.room s.env s.call).2, ?_, rfl⟩
  have hout : (exec db s).1 = (runCall (db.keys s.epoch s.room) s.epoch s.room s.env s.call).1 := rfl
  rw [hout]
  cases hc : s.call with
  | upkeep u => exact .upkeep hc (runUpkeep_move u)
  | command op primary fence => exact .command hc (wrR6Command_move _ _ op primary fence)
  | status id primary fence => exact .read (by rw [hc]; trivial)
  | capacity primary fence => exact .read (by rw [hc]; trivial)
  | metrics primary fence => exact .read (by rw [hc]; trivial)

end WaitingRoom.Queue
