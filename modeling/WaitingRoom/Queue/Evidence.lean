import WaitingRoom.Queue.Epoch

/-!
# Lost reservations

The counters `visitors` and `idems` are written with the owner sets and show it
when rows of a set were lost. All calls leave that evidence alone but one: when
`wr_r6_init` registers a new room and the installation was not dirty, it ends in
`commit`, which takes the counters anew from the sets.
-/

namespace WaitingRoom.Queue

set_option autoImplicit false

def Installation.Lost (g : Installation) : Prop :=
  g.visitors ≠ g.visitorOwners.size ∨ g.idems ≠ g.idemOwners.size

section Upkeep

variable {T I : Type} {env : Env} {epoch : Nat} {room : String} {k k' : Keys T I} {u : Upkeep}

/-- The tests of `wr_r6_init` that lead to the registration of a new room. -/
structure Registers (k : Keys T I) (env : Env) (a : InitArgs) : Prop where
  accepted : InitAccepted k env a
  switches : switchEpoch k.shared k.inst.clock env.now a.epoch a.notBefore ≠ none
  new : k.room.config = none
  holds : holdUnsound k env ≠ none

theorem InitAccepted.refusal {a : InitArgs} (h : InitAccepted k env a) :
    initRefusal k env a = none := by
  have hepoch := h.epoch
  have hbefore := h.notBefore
  rw [initRefusal, if_neg (not_not.mpr h.primary), if_neg (by omega), if_neg (by simp [h.current]),
    if_neg, if_neg, if_neg, if_neg]
  · rintro ⟨hopen, hroom⟩
    obtain ⟨h₁, h₂, h₃⟩ := h.opened hopen
    simp [h₁, h₂, h₃] at hroom
  · rintro ⟨hinst, hglobal⟩
    obtain ⟨h₁, h₂, h₃⟩ := h.installed hinst
    simp [h₁, h₂, h₃] at hglobal
  · rintro ⟨hnone, hleft⟩
    obtain ⟨h₁, h₂, h₃⟩ := h.uninstalled hnone
    simp [h₁, h₂, h₃] at hleft
  · rintro ⟨hnone, hleft⟩
    obtain ⟨h₁, h₂⟩ := h.unopened hnone
    simp [h₁, h₂] at hleft

theorem Registers.holdUnsound_switched {a : InitArgs} {shared : EpochMeta} {bound : Nat}
    (h : Registers k env a)
    (switched : switchEpoch k.shared k.inst.clock env.now a.epoch a.notBefore = some (shared, bound)) :
    ∃ g, holdUnsound { k with shared := shared } env = some g := by
  obtain ⟨g, hg⟩ := Option.ne_none_iff_exists'.mp h.holds
  by_cases hav : Available k ∧ k.inst.config ≠ none
  · -- the epoch is the installation's own, so the switch leaves it available
    have hcurrent : EpochCurrent { k with shared := shared } :=
      (switchEpoch_epoch switched h.accepted.current).trans (h.accepted.installed hav.2).2.2.symm
    have hav' : Available { k with shared := shared } := ⟨hcurrent, hav.1.2⟩
    refine ⟨g, ?_⟩
    simpa only [holdUnsound, hav', hav.1] using hg
  · by_cases hconfig : k.inst.config = none
    · exact ⟨k.inst, by simp [holdUnsound, hconfig]⟩
    · have hunsound : ¬ Available k := fun h => hav ⟨h, hconfig⟩
      simp only [holdUnsound, hunsound, not_false_eq_true, or_true, and_true] at hg
      rw [if_pos hconfig] at hg
      unfold holdUnsound
      split
      · exact ⟨g, hg⟩
      · exact ⟨_, rfl⟩

theorem Registers.opens {a : InitArgs} (h : Registers k env a) :
    ∃ shared bound g, (wrR6Init k env a).2 = openedKeys { k with shared := shared } env a bound g := by
  obtain ⟨⟨shared, bound⟩, switched⟩ := Option.ne_none_iff_exists'.mp h.switches
  obtain ⟨g, hg⟩ := h.holdUnsound_switched switched
  refine ⟨shared, bound, g, ?_⟩
  simp only [wrR6Init, h.accepted.refusal, switched, h.new, if_true, openRoom, hg]

theorem not_available_of_lost (lost : k.inst.Lost) : ¬ Available k := by
  rintro ⟨-, -, -, -, hv, hi⟩
  rcases lost with h | h
  · exact h hv
  · exact h hi

theorem installed_of_lost {a : InitArgs} (accepted : InitAccepted k env a) (lost : k.inst.Lost) :
    k.inst.config ≠ none := by
  intro hc
  obtain ⟨-, hmeta, howners⟩ := accepted.uninstalled hc
  simp only [Installation.MetaExists, Installation.OwnersExist, not_or, not_not, Nat.not_lt,
    Nat.le_zero] at hmeta howners
  rcases lost with h | h
  · exact h (by rw [hmeta.2.2.2.2.2.2.2.2.2.2.1, howners.1])
  · exact h (by rw [hmeta.2.2.2.2.2.2.2.2.2.2.2.1, howners.2])

theorem openedKeys_lost {a : InitArgs} {n : Nat} {g : Installation}
    (installed : k.inst.config ≠ none) (hdirty : k.inst.dirty = true)
    (sound : holdUnsound k env = some g) (lost : k.inst.Lost) :
    (openedKeys k env a n g).inst.Lost ∧
      (k.inst.mode = .recoveryHold → (openedKeys k env a n g).inst.mode = .recoveryHold) := by
  simp only [openedKeys, hdirty, if_true, openedInstallation_of_installed installed]
  rcases holdUnsound_eq_some sound with rfl | ⟨-, hh⟩
  · exact ⟨lost, id⟩
  · obtain ⟨-, rfl⟩ := hold_eq_some hh
    exact ⟨lost, fun _ => rfl⟩

theorem holdUnsound_of_lost {shared : EpochMeta} {g : Installation}
    (sound : holdUnsound { k with shared := shared } env = some g) (lost : k.inst.Lost) :
    holdUnsound k env ≠ none := by
  have hav : ¬ Available { k with shared := shared } := not_available_of_lost lost
  simp only [holdUnsound, hav, not_false_eq_true, or_true, and_true] at sound
  simp [holdUnsound, not_available_of_lost lost, sound]

theorem upkeep_lost (hm : UpkeepMove env epoch room k u k') (lost : k.inst.Lost)
    (clean : ∀ config primary global notBefore, u = .init config primary global notBefore →
      Registers k env ⟨config, primary, global, room, epoch, notBefore⟩ → k.inst.dirty = true) :
    k'.inst.Lost ∧ (k.inst.mode = .recoveryHold → k'.inst.mode = .recoveryHold) := by
  cases hm with
  | still => exact ⟨lost, id⟩
  | held current schema holds =>
    obtain ⟨-, rfl⟩ := hold_eq_some holds
    exact ⟨lost, fun _ => rfl⟩
  | passed => exact ⟨lost, id⟩
  | opened accepted switched new sound =>
    rename_i config primary global notBefore bound shared g
    have installed := installed_of_lost accepted lost
    have hdirty := clean _ _ _ _ rfl ⟨accepted, by simp [switched], new, holdUnsound_of_lost sound lost⟩
    exact openedKeys_lost (k := { k with shared := shared }) installed hdirty sound lost
  | configured => exact ⟨lost, id⟩
  | noted => exact ⟨lost, id⟩
  | activated fenced mode safe opened validated config totals =>
    -- the totals are compared with the counters and with the sets
    obtain ⟨-, -, hv, hi, hv', hi', -⟩ := totals
    rcases lost with h | h
    · exact absurd (hv'.symm.trans hv) h
    · exact absurd (hi'.symm.trans hi) h

end Upkeep

/-- The call registers a new room while the installation is not marked dirty. -/
def RegistersClean (db : QueueDb) (s : Step Call) : Prop :=
  (db.inst s.epoch).dirty = false ∧ ∃ config primary global notBefore,
    s.call = .upkeep (.init config primary global notBefore) ∧
    Registers (db.keys s.epoch s.room) s.env ⟨config, primary, global, s.room, s.epoch, notBefore⟩

theorem command_lost {db : QueueDb} {s : Step Call} (lost : (db.inst s.epoch).Lost) {op : Op}
    {primary : String} {fence : Nat} (call : s.call = .command op primary fence) :
    ∃ err, exec db s = (.error err, db) := by
  have hav : ¬ Available (db.keys s.epoch s.room) := not_available_of_lost lost
  by_cases hf : Fenced (db.keys s.epoch s.room) s.env primary fence
  · exact ⟨.unavailable, exec_of_unchanged (by simp [call, runCall, wrR6Command, hf, hav])⟩
  · exact ⟨.fenced, exec_of_unchanged (by simp [call, runCall, wrR6Command, hf])⟩

theorem exec_lost {db : QueueDb} {s : Step Call} {e : Nat} (lost : (db.inst e).Lost)
    (clean : s.epoch = e → ¬ RegistersClean db s) :
    ((exec db s).2.inst e).Lost ∧
      ((db.inst e).mode = .recoveryHold → ((exec db s).2.inst e).mode = .recoveryHold) := by
  obtain ⟨k', hm, heq⟩ := exec_moved db s
  by_cases he : s.epoch = e
  · subst he
    cases hm with
    | upkeep call move =>
      rw [heq, Db.set_inst_self]
      refine upkeep_lost move lost fun config primary global notBefore hu opens => ?_
      by_contra hdirty
      exact clean rfl ⟨by simpa using hdirty, config, primary, global, notBefore, hu ▸ call, opens⟩
    | command call =>
      obtain ⟨err, h⟩ := command_lost lost call
      rw [h]
      exact ⟨lost, id⟩
    | read =>
      rw [heq, Db.set_keys]
      exact ⟨lost, id⟩
  · rw [heq, Db.set_inst_ne (Ne.symm he)]
    exact ⟨lost, id⟩

theorem not_lost_of_registersClean {db : QueueDb} {s : Step Call} (h : RegistersClean db s) :
    ¬ ((exec db s).2.inst s.epoch).Lost := by
  obtain ⟨hdirty, config, primary, global, notBefore, call, opens⟩ := h
  obtain ⟨shared, bound, g, hopened⟩ := opens.opens
  have hkeys : (runCall (db.keys s.epoch s.room) s.epoch s.room s.env s.call).2 =
      openedKeys { db.keys s.epoch s.room with shared := shared } s.env
        ⟨config, primary, global, s.room, s.epoch, notBefore⟩ bound g := by
    rw [call]
    exact hopened
  have hinst : (exec db s).2.inst s.epoch =
      (runCall (db.keys s.epoch s.room) s.epoch s.room s.env s.call).2.inst := Db.set_inst_self _ _ _ _
  rw [hinst, hkeys]
  simp [openedKeys, hdirty, commit, Installation.Lost]

/-- In a run of which no call registers a room in epoch `e` while the
installation is not dirty, evidence of lost reservations stays, the installation
does not leave a hold, and every command is refused. A call of that kind removes
the evidence. -/
theorem evidence_kept {db db' : QueueDb} {es : List QueueEvent} {e : Nat}
    (hr : Run exec (fun db s => s.epoch = e → ¬ RegistersClean db s) db es db')
    (lost : (db.inst e).Lost) :
    (db'.inst e).Lost ∧
    (∀ ev ∈ es,
      ((ev.before.inst e).mode = .recoveryHold → (ev.after.inst e).mode = .recoveryHold) ∧
      (ev.input.epoch = e → ∀ op primary fence, ev.input.call = .command op primary fence →
        (∃ err, ev.output = .error err) ∧ ev.after = ev.before)) ∧
    (∀ db s, RegistersClean db s → ¬ ((exec db s).2.inst s.epoch).Lost) := by
  have kept : (db'.inst e).Lost ∧ ∀ ev ∈ es,
      ((ev.before.inst e).mode = .recoveryHold → (ev.after.inst e).mode = .recoveryHold) ∧
      (ev.input.epoch = e → ∀ op primary fence, ev.input.call = .command op primary fence →
        (∃ err, ev.output = .error err) ∧ ev.after = ev.before) := by
    induction hr with
    | nil => exact ⟨lost, by simp⟩
    | @snoc es db' s _ clean ih =>
      obtain ⟨hlost, hevents⟩ := ih
      obtain ⟨hnext, hmode⟩ := exec_lost hlost clean
      refine ⟨hnext, fun ev hev => ?_⟩
      rcases List.mem_append.mp hev with hev | hev
      · exact hevents ev hev
      · obtain rfl := List.mem_singleton.mp hev
        refine ⟨hmode, fun he op primary fence call => ?_⟩
        subst he
        obtain ⟨err, h⟩ := command_lost (s := s) hlost call
        simp only [eventOf, h]
        exact ⟨⟨err, rfl⟩, trivial⟩
  exact ⟨kept.1, kept.2, fun _ _ => not_lost_of_registersClean⟩

def lostDb : QueueDb :=
  let db := stateAfter exec {} (sampleSteps.take 3)
  { db with
    inst := fun e => { db.inst e with visitorOwners := ∅, idemOwners := ∅ }
    room := fun e r => { db.room e r with
      tickets := ∅, waiting := ∅, expiry := ∅, idem := ∅, idemExpiry := ∅ } }

def reopenSteps : List (Step Call) :=
  let validate (room : String) : Step Call :=
    ⟨1, room, ⟨1090010, "primary"⟩, .upkeep (.validate "primary" 2)⟩
  [⟨1, "other", ⟨1000010, "primary"⟩, .upkeep (.init sampleConfig "primary" ⟨"lab", 4, 4⟩ 0)⟩,
    validate "room", validate "room", validate "other", validate "other", validate "other"]

/-- Registering a room lets an installation that has lost its rows serve again. -/
theorem lost_installation_reopens :
    (lostDb.inst 1).visitors = 1 ∧ (lostDb.inst 1).visitorOwners.size = 0 ∧
    ((stateAfter exec lostDb (reopenSteps.take 1)).inst 1).mode = .recoveryHold ∧
    ((stateAfter exec lostDb reopenSteps).inst 1).mode = .active ∧
    (exec (stateAfter exec lostDb reopenSteps)
      ⟨1, "room", ⟨1090011, "primary"⟩, .command .sweep "primary" 2⟩).1 = answer 1090011 none := by
  refine ⟨?_, ?_, ?_, ?_, ?_⟩ <;> decide +kernel

/-- Validation alone does not help it. -/
theorem lost_installation_held : (lostDb.inst 1).Lost ∧
    ((stateAfter exec lostDb
      [⟨1, "room", ⟨1000010, "primary"⟩, .upkeep (.recover "primary" false)⟩]).inst 1).Lost := by
  have lost : (lostDb.inst 1).Lost := .inl (by decide +kernel)
  refine ⟨lost, (evidence_kept (.single fun _ => ?_) lost).1⟩
  rintro ⟨-, _, _, _, _, call, -⟩
  cases call

end WaitingRoom.Queue
