import WaitingRoom.Queue.Hold
import WaitingRoom.Runtime.Recovery

/-!
# Incidents are fenced before they are acknowledged

The fence under which a store has seen its installation active is either still
the current one, and the installation active, or behind for good. A recovery
that reports an incident leaves the installation held, so every fence seen
before is behind when the incident is acknowledged.
-/

namespace WaitingRoom.Runtime

open Queue

set_option autoImplicit false

section Fences

/-- `f` was the fence of the epoch while it was active. -/
def Seen (db : QueueDb) (e f : Nat) : Prop :=
  (db.inst e).config ≠ none ∧ (db.inst e).gate.Seen f

/-- The fence of the epoch is past `f`. -/
def Shut (db : QueueDb) (e f : Nat) : Prop :=
  (db.inst e).config ≠ none ∧ f < (db.inst e).fence

variable {db : QueueDb} {e f : Nat}

theorem Seen.exec (h : Seen db e f) (st : Step Call) : Seen (exec db st).2 e f :=
  ⟨exec_installed st h.1, (exec_path st h.1).seen h.2⟩

theorem Shut.exec (h : Shut db e f) (st : Step Call) : Shut (exec db st).2 e f :=
  ⟨exec_installed st h.1, Nat.lt_of_lt_of_le h.2 (exec_path st h.1).fence_le⟩

theorem Seen.shut (h : Seen db e f) (held : (db.inst e).mode = .recoveryHold) : Shut db e f :=
  ⟨h.1, h.2.lt_of_closed (Installation.gate_closed.mpr held)⟩

theorem seen_of_active (installed : (db.inst e).config ≠ none) (h : (db.inst e).mode = .active) :
    Seen db e (db.inst e).fence :=
  ⟨installed, .inr ⟨rfl, Installation.gate_open.mpr h⟩⟩

theorem Shut.fenced {st : Step Call} {op : Op} {primary : String} (h : Shut db st.epoch f)
    (call : st.call = .command op primary f) : Queue.exec db st = (.error .fenced, db) := by
  have hne : ¬ Fenced (db.keys st.epoch st.room) st.env primary f := by
    intro hf
    have heq : f = (db.inst st.epoch).fence := hf.2.2.2
    exact Nat.ne_of_lt h.2 heq
  apply exec_of_unchanged
  rw [call]
  simp only [runCall, wrR6Command, if_pos hne]

end Fences

section Frames

variable {k : QueueKeys} {env : Env} {f : Frame}

def Reports (f : Frame) (g : Installation) : Prop := f.fence = g.fence ∧ f.mode = g.mode

theorem wrR6Recover_reports {primary : String} {uncertain : Bool}
    (h : (wrR6Recover k env primary uncertain).1 = .reply (.frame f)) :
    k.inst.schema = 5 ∧ Reports f (wrR6Recover k env primary uncertain).2.inst ∧
      (uncertain = true → (wrR6Recover k env primary uncertain).2.inst.mode = .recoveryHold) := by
  unfold wrR6Recover at h ⊢
  by_cases hs : k.inst.schema ≠ 5
  · simp [hs] at h
  by_cases hc : ¬ EpochCurrent k ∨ env.primary ≠ primary
  · simp [hs, hc] at h
  rw [if_neg hs, if_neg hc] at h ⊢
  refine ⟨not_not.mp hs, ?_⟩
  cases hr : recoverReason k env uncertain with
  | none =>
    rw [hr] at h
    cases h
    refine ⟨⟨rfl, rfl⟩, ?_⟩
    -- an active installation would have been held for the uncertain write
    intro hu
    by_contra hm
    have hm : k.inst.mode ≠ .recoveryHold := hm
    unfold recoverReason at hr
    split at hr
    · simp at hr
    split at hr
    · simp at hr
    simp [hu, hm] at hr
  | some reason =>
    rw [hr] at h
    cases hh : hold k.inst env.now env.primary reason with
    | none => simp [hh] at h
    | some g =>
      simp only [hh] at h ⊢
      cases h
      obtain ⟨-, rfl⟩ := hold_eq_some hh
      exact ⟨⟨rfl, rfl⟩, fun _ => rfl⟩

theorem wrR6Validate_reports {primary : String} {fence : Nat}
    (h : (wrR6Validate k env primary fence).1 = .reply (.frame f)) :
    Fenced k env primary fence ∧ Reports f (wrR6Validate k env primary fence).2.inst := by
  by_cases hf : Fenced k env primary fence
  · rw [wrR6Validate_framed k env primary fence f h]
    exact ⟨hf, rfl, rfl⟩
  · simp [wrR6Validate, hf] at h

end Frames

def Ran (db db' : QueueDb) : Prop := db' = db ∨ ∃ st, db' = (exec db st).2

section Ran

variable {db db' : QueueDb} {e f : Nat}

theorem Ran.refl (db : QueueDb) : Ran db db := .inl rfl

theorem Ran.exec (db : QueueDb) (st : Step Call) : Ran db (exec db st).2 := .inr ⟨st, rfl⟩

theorem Ran.seen (h : Ran db db') (hs : Seen db e f) : Seen db' e f := by
  rcases h with rfl | ⟨st, rfl⟩
  · exact hs
  · exact hs.exec st

theorem Ran.shut (h : Ran db db') (hs : Shut db e f) : Shut db' e f := by
  rcases h with rfl | ⟨st, rfl⟩
  · exact hs
  · exact hs.exec st

theorem Ran.synced (h : Ran db db') (hs : ∀ e, EpochSynced db e) : ∀ e, EpochSynced db' e := by
  rcases h with rfl | ⟨st, rfl⟩
  · exact hs
  · exact exec_synced hs st

end Ran

section Answers

variable {db : QueueDb} {e : Nat} {room : String} {env : Env} {f : Frame}

theorem recover_answer {primary : String} {uncertain : Bool} (synced : EpochSynced db e)
    (h : decodeRecovery (exec db ⟨e, room, env, .upkeep (.recover primary uncertain)⟩).1 = some f) :
    (f.mode = .active →
      Seen (exec db ⟨e, room, env, .upkeep (.recover primary uncertain)⟩).2 e f.fence) ∧
      (uncertain = true →
        ((exec db ⟨e, room, env, .upkeep (.recover primary uncertain)⟩).2.inst e).mode =
          .recoveryHold) := by
  obtain ⟨schema, ⟨hfence, hmode⟩, hheld⟩ := wrR6Recover_reports (k := db.keys e room)
    (decodeRecovery_eq_some h)
  have hinst : (exec db ⟨e, room, env, .upkeep (.recover primary uncertain)⟩).2.inst e =
      (wrR6Recover (db.keys e room) env primary uncertain).2.inst := Db.set_inst_self _ _ _ _
  refine ⟨fun hactive => ?_, fun hu => ?_⟩
  · rw [hfence, ← hinst]
    apply seen_of_active
    · exact exec_installed _ (synced.installed_of_schema schema)
    · rw [hinst, ← hmode, hactive]
  · rw [hinst]
    exact hheld hu

theorem validate_answer {primary : String} {fence : Nat} (synced : EpochSynced db e)
    (h : decodeRecovery (exec db ⟨e, room, env, .upkeep (.validate primary fence)⟩).1 = some f)
    (active : f.mode = .active) :
    Seen (exec db ⟨e, room, env, .upkeep (.validate primary fence)⟩).2 e f.fence := by
  obtain ⟨fenced, hfence, hmode⟩ := wrR6Validate_reports (k := db.keys e room)
    (decodeRecovery_eq_some h)
  have hinst : (exec db ⟨e, room, env, .upkeep (.validate primary fence)⟩).2.inst e =
      (wrR6Validate (db.keys e room) env primary fence).2.inst := Db.set_inst_self _ _ _ _
  rw [hfence, ← hinst]
  apply seen_of_active
  · exact exec_installed _ (synced.installed_of_fenced fenced)
  · rw [hinst, ← hmode, active]

end Answers

/-- The incident up to which the server has fenced the store off: the answer to
a recovery tells before the store acknowledges it. -/
def Store.secured (s : Store) : Nat :=
  match s.maintenance with
  | .recovered n o => if (decodeRecovery o).isSome then n else s.acknowledgedUncertainty
  | .published n _ => n
  | _ => s.acknowledgedUncertainty

/-- A snapshot is of an active state only if its fence was seen, and it is behind
when the incidents after it are secured. -/
structure Snapshot.Held (db : QueueDb) (s : Store) (p : Snapshot) : Prop where
  incident : p.incident ≤ s.uncertainty
  seen : p.state.mode = .active → Seen db s.epoch p.state.fence
  shut : p.state.mode = .active → p.incident < s.secured → Shut db s.epoch p.state.fence

/-- What a call that started after `raised` incidents knows once it has loaded a
snapshot. -/
structure Viewed (db : QueueDb) (s : Store) (raised : Nat) (ask : Ask) (v : View) : Prop where
  acknowledged : raised ≤ s.acknowledgedUncertainty
  counted : raised ≤ v.snapshot.incident
  taken : v.snapshot.incident ≤ v.taken
  recent : v.taken ≤ s.uncertainty
  held : v.snapshot.Held db s
  request : ask.request v.snapshot.state = some v.request

def CallInv (db : QueueDb) (s : Store) (c : RuntimeCall) : Prop :=
  match c.stage with
  | .entered => c.raised ≤ s.uncertainty
  | .counted n => c.raised ≤ n
  | .clear => c.raised ≤ s.acknowledgedUncertainty
  | .ready v => Viewed db s c.raised c.ask v
  | .submitted v => Viewed db s c.raised c.ask v
  | .uncertain v n => Viewed db s c.raised c.ask v ∧ v.taken < n
  | .ended => True

def Answered (db : QueueDb) (s : Store) (o : Outcome) : Prop :=
  ∀ f, decodeRecovery o = some f → f.mode = .active → Seen db s.epoch f.fence

def Due (s : Store) (n : Nat) : Prop := s.acknowledgedUncertainty ≤ n ∧ n ≤ s.uncertainty

def MaintenanceInv (db : QueueDb) (s : Store) : Prop :=
  match s.maintenance with
  | .loaded _ n => Due s n
  | .recovering _ n u => Due s n ∧ u = decide (s.acknowledgedUncertainty < n)
  | .recovered n o => Due s n ∧ Answered db s o
  | .published n f => Due s n ∧ s.recoverySnapshot = some ⟨f, n⟩
  | .validating n _ => n = s.acknowledgedUncertainty
  | .validated n o => n = s.acknowledgedUncertainty ∧ Answered db s o
  | _ => True

structure StoreInv (db : QueueDb) (s : Store) : Prop where
  acknowledged : s.acknowledgedUncertainty ≤ s.uncertainty
  snapshot : ∀ p, s.recoverySnapshot = some p →
    s.acknowledgedUncertainty ≤ p.incident ∧ p.Held db s
  maintenance : MaintenanceInv db s

/-- What a step of the world may change about a store, as its calls see it. -/
structure Later (db : QueueDb) (s : Store) (db' : QueueDb) (s' : Store) : Prop where
  ran : Ran db db'
  epoch : s'.epoch = s.epoch
  room : s'.room = s.room
  uncertainty : s.uncertainty ≤ s'.uncertainty
  acknowledged : s.acknowledgedUncertainty ≤ s'.acknowledgedUncertainty
  secured : s'.secured ≤ s.secured ∨ ∀ f, Seen db s.epoch f → Shut db' s.epoch f

section Later

variable {db db' : QueueDb} {s s' : Store}

theorem Later.of_ran (h : Ran db db') : Later db s db' s :=
  ⟨h, rfl, rfl, Nat.le_refl _, Nat.le_refl _, .inl (Nat.le_refl _)⟩

theorem Snapshot.Held.later {p : Snapshot} (h : p.Held db s) (hl : Later db s db' s') :
    p.Held db' s' := by
  constructor
  · exact Nat.le_trans h.incident hl.uncertainty
  · intro hactive
    rw [hl.epoch]
    exact hl.ran.seen (h.seen hactive)
  · intro hactive hlt
    rw [hl.epoch]
    rcases hl.secured with hle | hshut
    · exact hl.ran.shut (h.shut hactive (Nat.lt_of_lt_of_le hlt hle))
    · exact hshut _ (h.seen hactive)

theorem Viewed.later {raised : Nat} {ask : Ask} {v : View} (h : Viewed db s raised ask v)
    (hl : Later db s db' s') : Viewed db' s' raised ask v where
  acknowledged := Nat.le_trans h.acknowledged hl.acknowledged
  counted := h.counted
  taken := h.taken
  recent := Nat.le_trans h.recent hl.uncertainty
  held := h.held.later hl
  request := h.request

theorem CallInv.later {c : RuntimeCall} (h : CallInv db s c) (hl : Later db s db' s') :
    CallInv db' s' c := by
  unfold CallInv at h ⊢
  cases hc : c.stage with
  | entered =>
    rw [hc] at h
    exact Nat.le_trans h hl.uncertainty
  | counted n =>
    rw [hc] at h
    exact h
  | clear =>
    rw [hc] at h
    exact Nat.le_trans h hl.acknowledged
  | ready v =>
    rw [hc] at h
    exact Viewed.later h hl
  | submitted v =>
    rw [hc] at h
    exact Viewed.later h hl
  | uncertain v n =>
    rw [hc] at h
    exact ⟨h.1.later hl, h.2⟩
  | ended => trivial

theorem Answered.ran {o : Outcome} (h : Answered db s o) (hr : Ran db db') : Answered db' s o :=
  fun f hf hactive => hr.seen (h f hf hactive)

theorem StoreInv.ran (h : StoreInv db s) (hr : Ran db db') : StoreInv db' s := by
  refine ⟨h.acknowledged, ?_, ?_⟩
  · intro p hp
    obtain ⟨hack, hheld⟩ := h.snapshot p hp
    exact ⟨hack, hheld.later (.of_ran hr)⟩
  · have hm := h.maintenance
    unfold MaintenanceInv at hm ⊢
    cases hs : s.maintenance with
    | recovered n o =>
      rw [hs] at hm
      exact ⟨hm.1, hm.2.ran hr⟩
    | validated n o =>
      rw [hs] at hm
      exact ⟨hm.1, hm.2.ran hr⟩
    | _ =>
      rw [hs] at hm
      exact hm

end Later

structure CallKept (db : QueueDb) (s : Store) (c : RuntimeCall)
    (r : QueueDb × Store × RuntimeCall) : Prop where
  later : Later db s r.1 r.2.1
  storeInv : StoreInv r.1 r.2.1
  callInv : CallInv r.1 r.2.1 r.2.2
  store : r.2.2.store = c.store

section CallStep

variable {db : QueueDb} {s : Store} {c : RuntimeCall}

theorem CallKept.stage (hs : StoreInv db s) {stage : Stage}
    (h : CallInv db s { c with stage := stage }) :
    CallKept db s c (db, s, { c with stage := stage }) :=
  ⟨.of_ran (.refl db), hs, h, rfl⟩

theorem viewOf_inv (hs : StoreInv db s) (h : c.raised ≤ s.acknowledgedUncertainty) :
    CallInv db s { c with stage := viewOf s c.ask } := by
  unfold viewOf
  split
  · trivial
  · rename_i p hp
    obtain ⟨hack, hheld⟩ := hs.snapshot p hp
    split
    · trivial
    · rename_i r hr
      exact ⟨h, Nat.le_trans h hack, hheld.incident, Nat.le_refl _, hheld, hr⟩

theorem runRequest_kept (hs : StoreInv db s) (h : CallInv db s c) (env : Env) (q : Request) :
    CallKept db s c
      ((runRequest db s env c q).1, s, (runRequest db s env c q).2) := by
  cases q with
  | call q =>
    have hr : Ran db (exec db ⟨s.epoch, s.room, env, q⟩).2 := .exec _ _
    exact ⟨.of_ran hr, hs.ran hr, CallInv.later (c := c) h (.of_ran hr), rfl⟩
  | needed => exact ⟨.of_ran (.refl db), hs, h, rfl⟩

theorem raise_later : Later db s db { s with uncertainty := s.uncertainty + 1 } :=
  ⟨.refl db, rfl, rfl, Nat.le_succ _, Nat.le_refl _, .inl (Nat.le_refl _)⟩

theorem raise_inv (hs : StoreInv db s) :
    StoreInv db { s with uncertainty := s.uncertainty + 1 } := by
  have due : ∀ n, Due s n → Due { s with uncertainty := s.uncertainty + 1 } n :=
    fun n h => ⟨h.1, Nat.le_succ_of_le h.2⟩
  refine ⟨Nat.le_succ_of_le hs.acknowledged, ?_, ?_⟩
  · intro p hp
    obtain ⟨hack, hheld⟩ := hs.snapshot p hp
    exact ⟨hack, hheld.later raise_later⟩
  · have hm := hs.maintenance
    unfold MaintenanceInv at hm ⊢
    dsimp only
    cases hc : s.maintenance with
    | loaded primary n =>
      rw [hc] at hm
      exact due n hm
    | recovering primary n u =>
      rw [hc] at hm
      exact ⟨due n hm.1, hm.2⟩
    | recovered n o =>
      rw [hc] at hm
      exact ⟨due n hm.1, hm.2⟩
    | published n f =>
      rw [hc] at hm
      exact ⟨due n hm.1, hm.2⟩
    | _ =>
      rw [hc] at hm
      exact hm

theorem callStep_kept (hs : StoreInv db s) (h : CallInv db s c) (e : CallEvent) :
    CallKept db s c (callStep db s c e) := by
  have same : CallKept db s c (db, s, c) := ⟨.of_ran (.refl db), hs, h, rfl⟩
  unfold callStep
  unfold CallInv at h
  split
  · -- the first load of the check
    rename_i hc
    rw [hc] at h
    exact .stage hs h
  · -- the second load, and the comparison
    rename_i n hc
    rw [hc] at h
    split
    · exact .stage hs trivial
    · rename_i hle
      exact .stage hs (Nat.le_trans h (Nat.not_lt.mp hle))
  · rename_i hc
    rw [hc] at h
    exact .stage hs (viewOf_inv hs h)
  · exact .stage hs trivial
  · exact .stage hs trivial
  · rename_i v hc
    rw [hc] at h
    exact .stage hs h
  · split
    · exact runRequest_kept hs same.callInv _ _
    · exact same
  · split
    · exact runRequest_kept hs same.callInv _ _
    · exact same
  · rename_i a v hc
    rw [hc] at h
    split
    · split
      · exact .stage hs trivial
      · have hv : Viewed db s c.raised c.ask v := h
        refine ⟨raise_later, raise_inv hs, ⟨?_, Nat.lt_succ_of_le hv.recent⟩, rfl⟩
        exact Viewed.later hv raise_later
    · exact same
  · exact same

end CallStep

structure StoreKept (db : QueueDb) (s : Store) (r : QueueDb × Store) : Prop where
  later : Later db s r.1 r.2
  inv : StoreInv r.1 r.2

section MaintainStep

variable {db db' : QueueDb} {s : Store}

theorem StoreInv.le_secured (hs : StoreInv db s) : s.acknowledgedUncertainty ≤ s.secured := by
  have hm := hs.maintenance
  unfold MaintenanceInv at hm
  unfold Store.secured
  cases hc : s.maintenance with
  | recovered n o =>
    rw [hc] at hm
    dsimp only
    split
    · exact hm.1.1
    · exact Nat.le_refl _
  | published n f =>
    rw [hc] at hm
    exact hm.1.1
  | _ => exact Nat.le_refl _

theorem StoreKept.move (hs : StoreInv db s) (hr : Ran db db') {m : Maintenance}
    (hm : MaintenanceInv db' { s with maintenance := m })
    (secured : { s with maintenance := m }.secured ≤ s.acknowledgedUncertainty ∨
      ∀ f, Seen db s.epoch f → Shut db' s.epoch f) :
    StoreKept db s (db', { s with maintenance := m }) := by
  have hl : Later db s db' { s with maintenance := m } :=
    ⟨hr, rfl, rfl, Nat.le_refl _, Nat.le_refl _,
      secured.imp_left fun hle => Nat.le_trans hle hs.le_secured⟩
  refine ⟨hl, hs.acknowledged, ?_, hm⟩
  intro p hp
  obtain ⟨hack, hheld⟩ := hs.snapshot p hp
  exact ⟨hack, hheld.later hl⟩

theorem recover_kept (hs : StoreInv db s) (synced : EpochSynced db s.epoch) {primary : String}
    {n : Nat} {u : Bool} (hm : s.maintenance = .recovering primary n u) (env : Env) :
    let r := exec db ⟨s.epoch, s.room, env, .upkeep (.recover primary u)⟩
    StoreKept db s (r.2, { s with maintenance := .recovered n r.1 }) := by
  intro r
  have hr : Ran db r.2 := .exec _ _
  have hi := hs.maintenance
  rw [MaintenanceInv, hm] at hi
  obtain ⟨due, hu⟩ := hi
  refine .move hs hr ⟨due, ?_⟩ ?_
  · intro f hf
    exact (recover_answer synced hf).1
  · unfold Store.secured
    dsimp only
    split
    · rename_i hsome
      obtain ⟨f, hf⟩ := Option.isSome_iff_exists.mp hsome
      by_cases hlt : s.acknowledgedUncertainty < n
      · -- the incident was reported, so the installation is held from here on
        right
        intro f' hseen
        exact (hr.seen hseen).shut ((recover_answer synced hf).2 (by rw [hu]; exact decide_eq_true hlt))
      · exact .inl (Nat.not_lt.mp hlt)
    · exact .inl (Nat.le_refl _)

theorem publish_kept (hs : StoreInv db s) {n : Nat} {o : Outcome} {f : Frame}
    (hm : s.maintenance = .recovered n o) (hf : decodeRecovery o = some f) :
    StoreKept db s (db, publishRecovery s n f (.published n f)) := by
  have hi := hs.maintenance
  rw [MaintenanceInv, hm] at hi
  obtain ⟨due, hanswer⟩ := hi
  have hsecured : s.secured = n := by simp [Store.secured, hm, hf]
  refine ⟨⟨.refl db, rfl, rfl, Nat.le_refl _, Nat.le_refl _, .inl (Nat.le_of_eq hsecured.symm)⟩,
    hs.acknowledged, ?_, due, rfl⟩
  intro p hp
  obtain rfl := Option.some.inj hp
  exact ⟨due.1, due.2, fun hactive => hanswer f hf hactive, fun _ hlt => absurd hlt (Nat.lt_irrefl _)⟩

theorem acknowledge_kept (hs : StoreInv db s) {n : Nat} {f : Frame} {m : Maintenance}
    (hm : s.maintenance = .published n f) (next : m = .validating n f ∨ m = .idle) :
    StoreKept db s (db, { s with acknowledgedUncertainty := n, maintenance := m }) := by
  have hi := hs.maintenance
  rw [MaintenanceInv, hm] at hi
  obtain ⟨due, hsnap⟩ := hi
  have hsecured : { s with acknowledgedUncertainty := n, maintenance := m }.secured ≤ s.secured := by
    have hle : n ≤ s.secured := by simp [Store.secured, hm]
    rcases next with rfl | rfl
    · exact hle
    · exact hle
  have hl : Later db s db { s with acknowledgedUncertainty := n, maintenance := m } :=
    ⟨.refl db, rfl, rfl, Nat.le_refl _, due.1, .inl hsecured⟩
  refine ⟨hl, due.2, ?_, ?_⟩
  · intro p hp
    have hheld := (hs.snapshot p hp).2.later hl
    obtain rfl : ⟨f, n⟩ = p := Option.some.inj (hsnap.symm.trans hp)
    exact ⟨Nat.le_refl _, hheld⟩
  · rcases next with rfl | rfl
    · exact rfl
    · trivial

theorem republish_kept (hs : StoreInv db s) {n : Nat} {o : Outcome} {f : Frame}
    (hm : s.maintenance = .validated n o) (hf : decodeRecovery o = some f) :
    StoreKept db s (db, publishRecovery s n f .idle) := by
  have hi := hs.maintenance
  rw [MaintenanceInv, hm] at hi
  obtain ⟨rfl, hanswer⟩ := hi
  refine ⟨⟨.refl db, rfl, rfl, Nat.le_refl _, Nat.le_refl _, .inl hs.le_secured⟩,
    hs.acknowledged, ?_, trivial⟩
  intro p hp
  obtain rfl := Option.some.inj hp
  exact ⟨Nat.le_refl _, hs.acknowledged, fun hactive => hanswer f hf hactive,
    fun _ hlt => absurd hlt (Nat.lt_irrefl _)⟩

theorem maintainStep_kept (hs : StoreInv db s) (synced : EpochSynced db s.epoch)
    (e : MaintainEvent) : StoreKept db s (maintainStep db s e) := by
  have here : ∀ {m : Maintenance}, MaintenanceInv db { s with maintenance := m } →
      { s with maintenance := m }.secured ≤ s.acknowledgedUncertainty →
      StoreKept db s (db, { s with maintenance := m }) :=
    fun hm hle => .move hs (.refl db) hm (.inl hle)
  have idle : StoreKept db s (db, { s with maintenance := .idle }) := here trivial (Nat.le_refl _)
  have hi := hs.maintenance
  unfold MaintenanceInv at hi
  unfold maintainStep
  split
  · exact here trivial (Nat.le_refl _)
  · exact here trivial (Nat.le_refl _)
  · exact here (m := .loaded _ _) ⟨hs.acknowledged, Nat.le_refl _⟩ (Nat.le_refl _)
  · rename_i primary n hm
    rw [hm] at hi
    exact here (m := .recovering _ _ _) ⟨hi, rfl⟩ (Nat.le_refl _)
  · rename_i env primary n u hm
    exact recover_kept hs synced hm env
  · rename_i n o hm
    split
    · exact idle
    · rename_i f hf
      exact publish_kept hs hm hf
  · rename_i n f hm
    apply acknowledge_kept hs hm
    split
    · exact .inl rfl
    · exact .inr rfl
  · rename_i env n f hm
    rw [hm] at hi
    refine .move hs (.exec db _) (m := .validated _ _) ⟨hi, ?_⟩ (.inl (Nat.le_refl _))
    intro f' hf
    exact validate_answer synced hf
  · rename_i n o hm
    split
    · exact idle
    · rename_i f hf
      exact republish_kept hs hm hf
  · exact idle
  · exact idle
  · exact idle
  · exact idle
  · exact idle
  · exact ⟨.of_ran (.refl db), hs⟩

end MaintainStep

structure WorldInv (w : World) : Prop where
  synced : ∀ e, EpochSynced w.db e
  stores : ∀ i, StoreInv w.db (w.store i)
  calls : ∀ n c, w.call n = some c → CallInv w.db (w.store c.store) c

section World

variable {w : World}

@[simp] theorem World.setStore_self (i : Nat) (s : Store) : (w.setStore i s).store i = s := by
  simp [setStore]

theorem World.setStore_ne {i j : Nat} {s : Store} (h : j ≠ i) :
    (w.setStore i s).store j = w.store j := by simp [setStore, h]

theorem World.setCall_self (n : Nat) (c : RuntimeCall) : (w.setCall n c).call n = some c := by
  simp [setCall]

theorem World.setCall_ne {n m : Nat} {c : RuntimeCall} (h : m ≠ n) :
    (w.setCall n c).call m = w.call m := by simp [setCall, h]

theorem WorldInv.move (h : WorldInv w) {db : QueueDb} {i : Nat} {s : Store}
    (hl : Later w.db (w.store i) db s) (hs : StoreInv db s) :
    WorldInv ({ w with db := db }.setStore i s) := by
  have later : ∀ j, Later w.db (w.store j) db (({ w with db := db }.setStore i s).store j) := by
    intro j
    by_cases hj : j = i
    · subst hj
      rw [World.setStore_self]
      exact hl
    · rw [World.setStore_ne hj]
      exact .of_ran hl.ran
  refine ⟨hl.ran.synced h.synced, ?_, ?_⟩
  · intro j
    by_cases hj : j = i
    · subst hj
      rw [World.setStore_self]
      exact hs
    · rw [World.setStore_ne hj]
      exact (h.stores j).ran hl.ran
  · intro n c hc
    exact (h.calls n c hc).later (later c.store)

theorem WorldInv.setCall (h : WorldInv w) {n : Nat} {c : RuntimeCall}
    (hc : CallInv w.db (w.store c.store) c) : WorldInv (w.setCall n c) := by
  refine ⟨h.synced, h.stores, ?_⟩
  intro m c' hm
  by_cases hn : m = n
  · subst hn
    rw [World.setCall_self] at hm
    obtain rfl := Option.some.inj hm
    exact hc
  · rw [World.setCall_ne hn] at hm
    exact h.calls m c' hm

theorem WorldInv.act (h : WorldInv w) (a : Action) :
    WorldInv (act w a) ∧ Ran w.db (act w a).db := by
  cases a with
  | enter n i ask =>
    unfold Runtime.act
    dsimp only
    split
    · exact ⟨h.setCall (c := ⟨i, ask, .entered, none, _, _⟩) (Nat.le_refl _), .refl _⟩
    · exact ⟨h, .refl _⟩
  | call n e =>
    unfold Runtime.act
    dsimp only
    split
    · exact ⟨h, .refl _⟩
    · rename_i c hc
      have hk := callStep_kept (h.stores c.store) (h.calls n c hc) e
      refine ⟨(h.move hk.later hk.storeInv).setCall ?_, hk.later.ran⟩
      rw [hk.store, World.setStore_self]
      exact hk.callInv
  | maintain i e =>
    have hk := maintainStep_kept (h.stores i) (h.synced _) e
    exact ⟨h.move hk.later hk.inv, hk.later.ran⟩
  | other st =>
    have hr : Ran w.db (exec w.db st).2 := .exec _ _
    exact ⟨⟨hr.synced h.synced, fun i => (h.stores i).ran hr,
      fun n c hc => (h.calls n c hc).later (.of_ran hr)⟩, hr⟩

theorem WorldInv.start (keys : Nat → Nat × String) : WorldInv (start keys) := by
  refine ⟨EpochSynced.empty, fun i => ⟨Nat.le_refl _, ?_, trivial⟩, ?_⟩
  · intro p hp
    simp [Runtime.start] at hp
  · intro n c hc
    simp [Runtime.start] at hc

theorem run_worldInv {keys : Nat → Nat × String} {es : List WorldEvent}
    (hr : WorldRun (start keys) es w) : WorldInv w :=
  hr.invariant (WorldInv.start keys) fun _ a h _ => (h.act a).1

theorem run_shut {es : List WorldEvent} {w' : World} {e f : Nat} (h : WorldInv w)
    (hr : WorldRun w es w') (hs : Shut w.db e f) : Shut w'.db e f := by
  have hkept : WorldInv w' ∧ Shut w'.db e f :=
    hr.invariant (I := fun w => WorldInv w ∧ Shut w.db e f) ⟨h, hs⟩
      fun _ a hi _ => ⟨(hi.1.act a).1, (hi.1.act a).2.shut hi.2⟩
  exact hkept.2

end World

theorem CallInv.viewed {db : QueueDb} {s : Store} {c : RuntimeCall} {v : View}
    (h : CallInv db s c) (hv : c.stage.view = some v) :
    Viewed db s c.raised c.ask v ∧ ∀ n, c.stage = .uncertain v n → v.taken < n := by
  unfold CallInv at h
  cases hc : c.stage with
  | ready v' =>
    rw [hc] at h hv
    obtain rfl := Option.some.inj hv
    exact ⟨h, fun n hn => by simp at hn⟩
  | submitted v' =>
    rw [hc] at h hv
    obtain rfl := Option.some.inj hv
    exact ⟨h, fun n hn => by simp at hn⟩
  | uncertain v' n' =>
    rw [hc] at h hv
    obtain rfl := Option.some.inj hv
    refine ⟨h.1, fun n hn => ?_⟩
    obtain ⟨-, rfl⟩ := Stage.uncertain.inj hn
    exact h.2
  | _ => simp [hc, Stage.view] at hv

theorem request_command {ask : Ask} {f : Frame} {op : Op} {primary : String} {fence : Nat}
    (h : ask.request f = some (.call (.command op primary fence))) :
    f.mode = .active ∧ fence = f.fence := by
  unfold Ask.request at h
  dsimp only at h
  split at h
  · simp at h
  · rename_i hmode
    simp only [Option.some.injEq, Request.call.injEq, Call.command.injEq] at h
    exact ⟨hmode, h.2.2.symm⟩
  · simp at h
  · simp at h
  · simp at h
  · split at h
    · simp at h
    · simp at h
  · simp at h

/-- For any number of stores and any schedule: a call has a request only when
every incident counted before it started is acknowledged, and then under a
snapshot of a recovery that knew of them. A command under a snapshot from before
an incident, the uncertain one among them, is refused for ever once the incident
is acknowledged. -/
theorem incident_fenced {keys : Nat → Nat × String} {es : List WorldEvent} {w : World}
    (hr : WorldRun (start keys) es w) {n : Nat} {c : RuntimeCall} {v : View}
    (hc : w.call n = some c) (hv : c.stage.view = some v) :
    (c.raised ≤ (w.store c.store).acknowledgedUncertainty ∧ c.raised ≤ v.snapshot.incident) ∧
    ((v.taken < (w.store c.store).acknowledgedUncertainty ∨
        v.snapshot.incident < (w.store c.store).acknowledgedUncertainty ∨
        ∃ k, c.stage = .uncertain v k ∧ k ≤ (w.store c.store).acknowledgedUncertainty) →
      ∀ op primary fence, v.request = .call (.command op primary fence) →
      ∀ es' w', WorldRun w es' w' → ∀ env,
        exec w'.db ⟨(w.store c.store).epoch, (w.store c.store).room, env,
          .command op primary fence⟩ = (.error .fenced, w'.db)) := by
  have hi := run_worldInv hr
  obtain ⟨viewed, hlt⟩ := (hi.calls n c hc).viewed hv
  refine ⟨⟨viewed.acknowledged, viewed.counted⟩, ?_⟩
  intro hbefore op primary fence hq es' w' hr' env
  have hincident : v.snapshot.incident < (w.store c.store).acknowledgedUncertainty := by
    rcases hbefore with h | h | ⟨k, hk, hle⟩
    · exact Nat.lt_of_le_of_lt viewed.taken h
    · exact h
    · exact Nat.lt_of_le_of_lt viewed.taken (Nat.lt_of_lt_of_le (hlt k hk) hle)
  have hreq := viewed.request
  rw [hq] at hreq
  obtain ⟨hactive, rfl⟩ := request_command hreq
  have hshut := viewed.held.shut hactive
    (Nat.lt_of_lt_of_le hincident (hi.stores c.store).le_secured)
  exact (run_shut hi hr' hshut).fenced rfl

section Sample

def sampleServer (now : Nat) : Env := ⟨now, "0123456789012345678901234567890123456789"⟩

def recoveryActions (now : Nat) : List Action :=
  [.maintain 0 .lock, .maintain 0 (.identify (sampleServer now).primary),
    .maintain 0 .loadIncident, .maintain 0 .submitRecover,
    .maintain 0 (.recover (sampleServer now)), .maintain 0 .publish]

/-- A sweep whose reply is lost, the recovery after it, and a call for metrics
that starts before the incident is acknowledged and makes the second load of its
check after that. -/
def overtakenActions : List Action :=
  [.other ⟨1, "room", sampleServer 1000000,
      .upkeep (.init sampleConfig (sampleServer 0).primary ⟨"lab", 4, 4⟩ 0)⟩] ++
    recoveryActions 1000001 ++
    [.maintain 0 .acknowledge, .enter 0 0 (.command .sweep), .call 0 .loadUncertainty,
      .call 0 .loadAcknowledged, .call 0 .loadSnapshot, .call 0 .submit,
      .call 0 (.receive .lost)] ++
    recoveryActions 1000002 ++
    [.enter 1 0 .metrics, .call 1 .loadUncertainty, .maintain 0 .acknowledge,
      .call 1 .loadAcknowledged, .call 1 .loadSnapshot, .call 1 .submit]

def sampleStores : World := start fun _ => (1, "room")

def overtaken : World := stateAfter (fun w a => ((), act w a)) sampleStores overtakenActions

theorem overtaken_run : WorldRun sampleStores
    (eventsOf (fun w a => ((), act w a)) sampleStores overtakenActions) overtaken :=
  run_of_inputs _ fun _ _ _ => trivial

def overtakenCall : RuntimeCall where
  store := 0
  ask := .metrics
  stage := .submitted ⟨⟨⟨1000002, some (sampleServer 0).primary, 2, .recoveryHold, 1090002,
    some .uncertainWrite, none⟩, 1⟩, 1, .call (.metrics (sampleServer 0).primary 2)⟩
  raised := 1
  acknowledged := 0

/-- A call can start while an incident is not acknowledged and yet submit a request. -/
theorem overtaken_submits : ∃ es w n c v, WorldRun sampleStores es w ∧ w.call n = some c ∧
    c.acknowledged < c.raised ∧ c.stage = .submitted v :=
  ⟨_, overtaken, 1, overtakenCall, _, overtaken_run, by decide +kernel, by decide, rfl⟩

def lostSweep : RuntimeCall where
  store := 0
  ask := .command .sweep
  stage := .uncertain ⟨⟨⟨1000001, some (sampleServer 0).primary, 1, .active, 0, none, none⟩, 0⟩, 0,
    .call (.command .sweep (sampleServer 0).primary 1)⟩ 1
  raised := 0
  acknowledged := 0

/-- The lost sweep of the sample run never takes effect. -/
theorem lostSweep_fenced : overtaken.call 0 = some lostSweep ∧
    ∀ env, exec overtaken.db ⟨1, "room", env, .command .sweep (sampleServer 0).primary 1⟩ =
      (.error .fenced, overtaken.db) := by
  have hc : overtaken.call 0 = some lostSweep := by decide +kernel
  have hack : (overtaken.store lostSweep.store).acknowledgedUncertainty = 1 := by decide +kernel
  have hkeys : (overtaken.store lostSweep.store).epoch = 1 ∧
      (overtaken.store lostSweep.store).room = "room" := by decide +kernel
  refine ⟨hc, fun env => ?_⟩
  have h := (incident_fenced overtaken_run hc rfl).2 (.inr (.inr ⟨1, rfl, by rw [hack]⟩))
    .sweep (sampleServer 0).primary 1 rfl [] overtaken .nil env
  rw [hkeys.1, hkeys.2] at h
  exact h

end Sample

end WaitingRoom.Runtime
