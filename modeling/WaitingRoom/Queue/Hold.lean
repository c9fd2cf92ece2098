import WaitingRoom.Queue.Consistent
import WaitingRoom.Shared.Gate

/-!
# Holds and clocks

The recovery record of an installation is a gate: `hold` closes it with a new
fence, commands go through it while it is open, and only a validation at or
after `unsafeUntil` opens it. The lease lifetime covers the lifetimes of every
configured room, so a hold outlasts every admission granted before it.
-/

namespace WaitingRoom.Queue

set_option autoImplicit false

def Installation.gate (g : Installation) : Gate where
  closed := decide (g.mode = .recoveryHold)
  clock := g.clock
  fence := g.fence
  safeAt := g.unsafeUntil
  lifetime := g.leaseLifetime

abbrev GatePath : Gate → Gate → Prop := Gate.Path 60000 30000

theorem Installation.gate_closed {g : Installation} :
    g.gate.closed = true ↔ g.mode = .recoveryHold := by simp [gate]

theorem Installation.gate_open {g : Installation} :
    g.gate.closed = false ↔ g.mode = .active := by
  cases h : g.mode <;> simp [gate, h]

section Path

theorem hold_path {g g' : Installation} {now : Nat} {primary : String} {reason : RecoveryReason}
    (h : hold g now primary reason = some g') : GatePath g.gate g'.gate := by
  obtain ⟨-, rfl⟩ := hold_eq_some h
  exact .single (.close g.gate now)

theorem holdRollback_path {T I : Type} (k : Keys T I) (env : Env) :
    GatePath k.inst.gate (holdRollback k env).inst.gate := by
  unfold holdRollback
  cases hh : hold k.inst env.now env.primary .clockRollback with
  | none => exact .refl
  | some g => exact hold_path hh

theorem coverLifetime_path (g : Installation) (c : Config) :
    GatePath g.gate (coverLifetime g c).gate :=
  .single (.extend g.gate _ (Nat.le_max_left _ _))

@[simp] theorem openedKeys_gate {T I : Type} (k : Keys T I) (env : Env) (a : InitArgs) (n : Nat)
    (g : Installation) :
    (openedKeys k env a n g).inst.gate = (openedInstallation k env a n g).gate := by
  unfold openedKeys
  dsimp only
  split <;> rfl

theorem openedKeys_path {T I : Type} {k : Keys T I} {env : Env} {a : InitArgs} {n : Nat}
    {g : Installation} (installed : k.inst.config ≠ none) (sound : holdUnsound k env = some g) :
    GatePath k.inst.gate (openedKeys k env a n g).inst.gate := by
  have hopened : GatePath g.gate (openedInstallation k env a n g).gate := by
    rw [openedInstallation_of_installed installed]
    exact coverLifetime_path g a.config
  have hheld : GatePath k.inst.gate g.gate := by
    rcases holdUnsound_eq_some sound with rfl | ⟨-, hh⟩
    · exact .refl
    · exact hold_path hh
  rw [openedKeys_gate]
  exact hheld.trans hopened

theorem upkeep_path {T I : Type} {env : Env} {epoch : Nat} {room : String} {k k' : Keys T I}
    {u : Upkeep} (installed : k.inst.config ≠ none) (hm : UpkeepMove env epoch room k u k') :
    GatePath k.inst.gate k'.inst.gate := by
  cases hm with
  | still => exact .refl
  | held current schema holds => exact hold_path holds
  | passed => exact .refl
  | opened accepted switched new sound =>
    rename_i shared g
    exact openedKeys_path (k := { k with shared := shared }) installed sound
  | configured => exact coverLifetime_path _ _
  | noted => exact .refl
  | activated fenced mode safe =>
    exact .single (.reopen _ env.now (Installation.gate_closed.mpr mode) safe)

theorem command_path {env : Env} {op : Op} {primary : String} {fence : Nat} {o : Outcome}
    {k k' : QueueKeys} (hm : CommandMove env op primary fence k o k') :
    GatePath k.inst.gate k'.inst.gate := by
  have work : Enters k env primary fence → GatePath k.inst.gate (beginCommand k env.now).inst.gate :=
    fun enters => .single (.work _ env.now
      (Installation.gate_open.mpr enters.available.2.2.2.1) enters.clock)
  have effects : ∀ {ls k'}, Enters k env primary fence →
      Effects env.now (started k env.now) ls k' → GatePath k.inst.gate k'.inst.gate := by
    intro ls k' enters run
    obtain ⟨v, i, n, hn, hinst⟩ := run.frame.inst
    rw [hinst]
    exact (work enters).tail (.extend (beginCommand k env.now).inst.gate n hn)
  cases hm with
  | refused => exact .refl
  | rollback => exact holdRollback_path k env
  | rejected enters => exact work enters
  | roomRollback enters => exact (work enters).trans (holdRollback_path _ env)
  | ran enters clock config run =>
    have hpath := effects enters run
    exact hpath
  | aborted enters clock config run => exact effects enters run

theorem exec_path {db : QueueDb} {e : Nat} (s : Step Call) (installed : (db.inst e).config ≠ none) :
    GatePath (db.inst e).gate ((exec db s).2.inst e).gate := by
  obtain ⟨k', hm, heq⟩ := exec_moved db s
  rw [heq]
  by_cases he : e = s.epoch
  · subst he
    rw [Db.set_inst_self]
    cases hm with
    | upkeep call move => exact upkeep_path installed move
    | command call move => exact command_path move
    | read => exact .refl
  · rw [Db.set_inst_ne he]

end Path

def ConfigCovered (c : Config) (g : Installation) : Prop :=
  c.Valid ∧ c.admissionTTL ≤ g.leaseLifetime ∧ c.readyTTL ≤ g.leaseLifetime

theorem ConfigCovered.mono {c : Config} {g g' : Installation} (h : ConfigCovered c g)
    (hle : g.leaseLifetime ≤ g'.leaseLifetime) : ConfigCovered c g' :=
  ⟨h.1, h.2.1.trans hle, h.2.2.trans hle⟩

theorem coverLifetime_covers {c : Config} (g : Installation) (hc : c.Valid) :
    ConfigCovered c (coverLifetime g c) := by
  refine ⟨hc, ?_, ?_⟩
  · simp only [coverLifetime]
    omega
  · simp only [coverLifetime]
    omega

/-- What holds of the clocks and lifetimes of one epoch between calls. -/
structure EpochTimed (db : QueueDb) (e : Nat) : Prop where
  configs : ∀ r c, (db.room e r).config = some c → ConfigCovered c (db.inst e)
  clocks : ∀ r, (db.room e r).clock ≤ (db.inst e).clock
  settled : (db.inst e).gate.Settled

structure KeysTimed (k : QueueKeys) : Prop where
  config : ∀ c, k.room.config = some c → ConfigCovered c k.inst
  clock : k.room.clock ≤ k.inst.clock
  settled : k.inst.gate.Settled

theorem EpochTimed.set {db : QueueDb} {e : Nat} {r : String} {k : QueueKeys}
    (h : EpochTimed db e) (hk : KeysTimed k) (hclock : (db.inst e).clock ≤ k.inst.clock)
    (hlife : (db.inst e).leaseLifetime ≤ k.inst.leaseLifetime) : EpochTimed (db.set e r k) e := by
  have hroom : ∀ a, a ≠ r → (db.set e r k).room e a = db.room e a :=
    fun a ha => Db.set_room_ne fun hea => ha hea.2
  constructor
  · intro a c hc
    rw [Db.set_inst_self]
    by_cases ha : a = r
    · subst a
      rw [Db.set_room_self] at hc
      exact hk.config c hc
    · rw [hroom a ha] at hc
      exact (h.configs a c hc).mono hlife
  · intro a
    rw [Db.set_inst_self]
    by_cases ha : a = r
    · subst a
      rw [Db.set_room_self]
      exact hk.clock
    · rw [hroom a ha]
      exact (h.clocks a).trans hclock
  · rw [Db.set_inst_self]
    exact hk.settled

theorem Effects.configCovered {now : Nat} {k k' : QueueKeys} {ls : List Label}
    (run : Effects now k ls k') (hd : ∀ d, .configured d ∈ ls → d.config.Valid)
    (hk : ∀ c, k.room.config = some c → ConfigCovered c k.inst) :
    ∀ c, k'.room.config = some c → ConfigCovered c k'.inst := by
  induction run with
  | nil => exact hk
  | cons he _ ih =>
    apply ih fun d hmem => hd d (List.mem_cons_of_mem _ hmem)
    cases he with
    | configure config =>
      rintro c ⟨⟩
      exact coverLifetime_covers _ (hd _ List.mem_cons_self)
    | _ => exact hk

theorem Answered.valid {op : Op} {o : Outcome} {ls : List Label} {k : QueueKeys} {primary : String}
    {fence : Nat} (h : Answered op o ls k) (wf : (Call.command op primary fence).WellFormed)
    (d : Desired) (hd : .configured d ∈ ls) : d.config.Valid := by
  have hop : op = .configure d := h.asked _ hd
  rw [hop] at wf
  exact wf

section Timed

variable {env : Env} {epoch : Nat} {room : String} {k k' : QueueKeys}

theorem command_timed {op : Op} {primary : String} {fence : Nat} {o : Outcome}
    (hm : CommandMove env op primary fence k o k') (ends : o ≠ .abort)
    (wf : (Call.command op primary fence).WellFormed) (hk : KeysTimed k) : KeysTimed k' := by
  have grows := (command_path hm).grows hk.settled
  have same : k'.room = k.room → KeysTimed k' := by
    intro hroom
    refine ⟨fun c hc => ?_, ?_, grows.settled⟩
    · rw [hroom] at hc
      exact (hk.config c hc).mono grows.lifetime
    · rw [hroom]
      exact hk.clock.trans grows.clock
  cases hm with
  | refused => exact hk
  | rollback => exact same rfl
  | rejected => exact same rfl
  | roomRollback => exact same rfl
  | ran enters clock config run ended answered =>
    refine ⟨run.configCovered (answered.valid wf) hk.config, ?_, grows.settled⟩
    obtain ⟨v, i, n, -, hinst⟩ := run.frame.inst
    have hclock := run.frame.clock
    simp only [commit, hinst]
    exact Nat.le_of_eq hclock
  | aborted => exact absurd rfl ends

theorem openedInstallation_settled {a : InitArgs} {n : Nat} {g : Installation}
    (h : k.inst.config = none) : (openedInstallation k env a n g).gate.Settled := by
  intro _
  rw [openedInstallation_of_none h]
  simp [Installation.gate, coverLifetime]

theorem openedKeys_timed {a : InitArgs} {n : Nat} {g : Installation} (valid : a.config.Valid)
    (hs : (openedInstallation k env a n g).gate.Settled) : KeysTimed (openedKeys k env a n g) := by
  have hlife : (openedKeys k env a n g).inst.leaseLifetime =
      (openedInstallation k env a n g).leaseLifetime :=
    congrArg Gate.lifetime (openedKeys_gate k env a n g)
  obtain ⟨m, hm⟩ := openedInstallation_leaseLifetime k env a n g
  refine ⟨fun c hc => ?_, ?_, ?_⟩
  · rw [openedKeys_room] at hc
    obtain rfl : a.config = c := Option.some.inj hc
    refine ⟨valid, ?_, ?_⟩ <;> rw [hlife, hm] <;> omega
  · rw [openedKeys_room]
    exact Nat.zero_le _
  · rwa [openedKeys_gate]

theorem upkeep_timed {u : Upkeep} (hm : UpkeepMove env epoch room k u k')
    (wf : (Call.upkeep u).WellFormed) (hk : KeysTimed k)
    (hinst : k.inst.config = none → k.inst = {}) : KeysTimed k' := by
  by_cases installed : k.inst.config = none
  · have hblank := hinst installed
    cases hm with
    | still => exact hk
    | held current schema => simp [hblank] at schema
    | passed _ _ hne => exact absurd installed hne
    | opened => exact openedKeys_timed wf (openedInstallation_settled installed)
    | configured fenced => simp [Fenced, hblank] at fenced
    | noted fenced => simp [Fenced, hblank] at fenced
    | activated fenced => simp [Fenced, hblank] at fenced
  · have grows := (upkeep_path installed hm).grows hk.settled
    have hconfig : ∀ c, k.room.config = some c → ConfigCovered c k'.inst :=
      fun c hc => (hk.config c hc).mono grows.lifetime
    have hclock : k.room.clock ≤ k'.inst.clock := hk.clock.trans grows.clock
    cases hm with
    | still => exact hk
    | held => exact ⟨hconfig, hclock, grows.settled⟩
    | passed => exact ⟨hconfig, hclock, grows.settled⟩
    | opened =>
      refine openedKeys_timed wf ?_
      rw [← openedKeys_gate]
      exact grows.settled
    | configured =>
      refine ⟨fun c hc => ?_, hclock, grows.settled⟩
      obtain rfl := Option.some.inj hc
      exact coverLifetime_covers _ wf
    | noted => exact ⟨hconfig, hclock, grows.settled⟩
    | activated => exact ⟨hconfig, hclock, grows.settled⟩

end Timed

theorem EpochTimed.empty (e : Nat) : EpochTimed {} e :=
  ⟨by simp, fun _ => Nat.le_refl _, fun _ => Nat.le_refl _⟩

theorem exec_timed {db : QueueDb} {s : Step Call} (hs : ∀ e, EpochSynced db e)
    (ht : ∀ e, EpochTimed db e) (wf : s.call.WellFormed) (e : Nat) :
    EpochTimed (exec db s).2 e := by
  obtain ⟨k', hm, heq⟩ := exec_moved db s
  rw [heq]
  by_cases he : e = s.epoch
  · subst he
    have h := ht s.epoch
    have hk : KeysTimed (db.keys s.epoch s.room) := ⟨h.configs s.room, h.clocks s.room, h.settled⟩
    have hk' : KeysTimed k' := by
      cases hm with
      | upkeep call move =>
        rw [call] at wf
        exact upkeep_timed move wf hk (hs s.epoch).uninstalled
      | command call move =>
        rw [call] at wf
        exact command_timed move (command_ends (hs s.epoch) move) wf hk
      | read => exact hk
    by_cases installed : (db.inst s.epoch).config = none
    · have hblank := (hs s.epoch).uninstalled installed
      exact h.set hk' (by simp [hblank]) (by simp [hblank])
    · have hpath := exec_path s installed
      rw [heq, Db.set_inst_self] at hpath
      have grows := hpath.grows h.settled
      exact h.set hk' grows.clock grows.lifetime
  · have h := ht e
    have hroom : ∀ r, (db.set s.epoch s.room k').room e r = db.room e r :=
      fun r => Db.set_room_ne fun hr => he hr.1
    refine ⟨fun r => ?_, fun r => ?_, ?_⟩
    · rw [hroom, Db.set_inst_ne he]
      exact h.configs r
    · rw [hroom, Db.set_inst_ne he]
      exact h.clocks r
    · rw [Db.set_inst_ne he]
      exact h.settled

theorem run_timed {es : List QueueEvent} {db : QueueDb} (hr : QueueRun es db) (e : Nat) :
    EpochTimed db e := by
  induction hr generalizing e with
  | nil => exact .empty e
  | snoc s hr wf ih => exact exec_timed (run_synced hr) ih wf e

def promotedTickets (ev : QueueEvent) : List Ticket :=
  match ev.input.call with
  | .command .. => promotedBy ev.output
  | _ => []

/-- The tickets promoted in epoch `e`, in any room. -/
def promotedIn (e : Nat) (es : List QueueEvent) : List Ticket :=
  es.flatMap fun ev => if ev.input.epoch = e then promotedTickets ev else []

theorem promotedIn_append (e : Nat) (es es' : List QueueEvent) :
    promotedIn e (es ++ es') = promotedIn e es ++ promotedIn e es' := List.flatMap_append

theorem mem_promotedIn {e : Nat} {es : List QueueEvent} {t : Ticket} :
    t ∈ promotedIn e es ↔ ∃ ev ∈ es, ev.input.epoch = e ∧ t ∈ promotedTickets ev := by
  simp only [promotedIn, List.mem_flatMap]
  constructor
  · rintro ⟨ev, hev, ht⟩
    split at ht
    · exact ⟨ev, hev, by assumption, ht⟩
    · simp at ht
  · rintro ⟨ev, hev, he, ht⟩
    exact ⟨ev, hev, by simpa [he] using ht⟩

/-- A ticket as a promotion at `now` leaves it, under a config that `g` covers. -/
structure Granted (now : Nat) (g : Installation) (t : Ticket) : Prop where
  at_now : t.promotedAt = some now
  ready : t.state = .ready
  hour : t.admissionUntil ≤ now + 3600000
  covered : t.admissionUntil ≤ now + g.leaseLifetime

theorem Effects.granted {now : Nat} {k k' : QueueKeys} {ls : List Label}
    (run : Effects now k ls k') (hd : ∀ d, .configured d ∈ ls → d.config.Valid)
    (hk : ∀ c, k.room.config = some c → ConfigCovered c k.inst) :
    ∀ t ∈ promotions ls, Granted now k'.inst t := by
  induction run with
  | nil => simp [promotions]
  | @cons k k₁ k₂ l ls he hrest ih =>
    have hd' : ∀ d, .configured d ∈ ls → d.config.Valid :=
      fun d hmem => hd d (List.mem_cons_of_mem _ hmem)
    have hk₁ : ∀ c, k₁.room.config = some c → ConfigCovered c k₁.inst :=
      (Effects.single he).configCovered
        (fun d hmem => hd d (by rw [List.mem_singleton.mp hmem]; exact List.mem_cons_self)) hk
    have hrest' := ih hd' hk₁
    obtain ⟨v, i, n, hn, hinst⟩ := (Effects.cons he hrest).frame.inst
    intro t ht
    cases he with
    | @promote c id t₀ s rest config =>
      rw [promotions_promoted, List.mem_cons] at ht
      rcases ht with rfl | ht
      · obtain ⟨valid, hadm, -⟩ := hk c config
        refine ⟨rfl, rfl, ?_, ?_⟩
        · simp only [promotedTicket]
          have := valid.admissionTTL_le
          omega
        · rw [hinst]
          simp only [promotedTicket]
          omega
      · exact hrest' t ht
    | _ => exact hrest' t ht

section Installed

theorem upkeep_config {T I : Type} {env : Env} {epoch : Nat} {room : String} {k k' : Keys T I}
    {u : Upkeep} (hm : UpkeepMove env epoch room k u k') (h : k.inst.config ≠ none) :
    k'.inst.config = k.inst.config := by
  cases hm with
  | held current schema holds =>
    obtain ⟨-, rfl⟩ := hold_eq_some holds
    rfl
  | opened accepted switched new sound =>
    rename_i config primary global notBefore bound shared g
    obtain ⟨v, i, d, hinst⟩ := openedKeys_inst { k with shared := shared } env
      ⟨config, primary, global, room, epoch, notBefore⟩ bound g h
    rw [hinst]
    rcases holdUnsound_eq_some sound with rfl | ⟨-, hh⟩
    · rfl
    · obtain ⟨-, rfl⟩ := hold_eq_some hh
      rfl
  | _ => rfl

theorem command_config {env : Env} {op : Op} {primary : String} {fence : Nat} {o : Outcome}
    {k k' : QueueKeys} (hm : CommandMove env op primary fence k o k') :
    k'.inst.config = k.inst.config := by
  have hroll : ∀ k : QueueKeys, (holdRollback k env).inst.config = k.inst.config := by
    intro k
    unfold holdRollback
    cases hh : hold k.inst env.now env.primary .clockRollback with
    | none => rfl
    | some g =>
      obtain ⟨-, rfl⟩ := hold_eq_some hh
      rfl
  cases hm with
  | refused => rfl
  | rollback => exact hroll k
  | rejected => rfl
  | roomRollback => exact hroll (beginCommand k env.now)
  | ran enters clock config run =>
    obtain ⟨v, i, n, -, hinst⟩ := run.frame.inst
    simp only [commit, hinst]
    rfl
  | aborted enters clock config run =>
    obtain ⟨v, i, n, -, hinst⟩ := run.frame.inst
    simp only [hinst]
    rfl

theorem exec_installed {db : QueueDb} {e : Nat} (s : Step Call) (h : (db.inst e).config ≠ none) :
    ((exec db s).2.inst e).config ≠ none := by
  obtain ⟨k', hm, heq⟩ := exec_moved db s
  rw [heq]
  by_cases he : e = s.epoch
  · subst he
    rw [Db.set_inst_self]
    cases hm with
    | upkeep call move =>
      rw [upkeep_config move h]
      exact h
    | command call move =>
      rw [command_config move]
      exact h
    | read => exact h
  · rwa [Db.set_inst_ne he]

end Installed

theorem promoted_granted {db : QueueDb} {s : Step Call} (hs : EpochSynced db s.epoch)
    (ht : EpochTimed db s.epoch) (wf : s.call.WellFormed) {t : Ticket}
    (hp : t ∈ promotedTickets (eventOf exec db s)) :
    let g := (exec db s).2.inst s.epoch
    (db.inst s.epoch).config ≠ none ∧ db.shared.epoch = some s.epoch ∧
      s.env.now ≤ (exec db s).2.shared.clock.getD 0 ∧
      g.mode = .active ∧ g.clock = s.env.now ∧ Granted s.env.now g t := by
  obtain ⟨k', hm, heq⟩ := exec_moved db s
  rw [heq, Db.set_inst_self, Db.set_shared]
  cases hm with
  | upkeep call move => simp [promotedTickets, eventOf, call] at hp
  | @command op primary fence o k' call move =>
    rw [call] at wf
    have hout : t ∈ promotedBy (exec db s).1 := by simpa [promotedTickets, eventOf, call] using hp
    generalize (exec db s).1 = o at hout move
    cases move with
    | ran enters clock config run ended answered =>
      rw [← answered.promoted] at hout
      have hgranted := run.granted (answered.valid wf) (ht.configs s.room) t hout
      obtain ⟨v, i, n, -, hinst⟩ := run.frame.inst
      have hinstalled := hs.installed_of_schema enters.available.2.1
      refine ⟨hinstalled, enters.available.1.trans (hs.installed hinstalled).2, ?_, ?_, ?_, ?_⟩
      · simp only [commit, hinst]
        exact Nat.le_max_left _ _
      · simp only [commit, hinst]
        exact enters.available.2.2.2.1
      · simp only [commit, hinst]
        rfl
      · exact ⟨hgranted.at_now, hgranted.ready, hgranted.hour, hgranted.covered⟩
    | _ => simp [promotedBy] at hout
  | read call =>
    cases hc : s.call <;> simp [promotedTickets, eventOf, hc] at hp
    simp [hc, Call.Reads] at call

theorem run_covers {es : List QueueEvent} {db : QueueDb} (hr : QueueRun es db) (e : Nat) :
    ∀ t ∈ promotedIn e es, (db.inst e).config ≠ none ∧
      Gate.Covers 30000 (db.inst e).gate t.admissionUntil := by
  induction hr with
  | nil => simp [promotedIn]
  | @snoc es db s hr wf ih =>
    intro t ht
    rw [promotedIn_append, List.mem_append] at ht
    rcases ht with ht | ht
    · obtain ⟨hinst, hcov⟩ := ih t ht
      exact ⟨exec_installed s hinst, (exec_path s hinst).covers (run_timed hr e).settled hcov⟩
    · obtain ⟨ev, hev, he, hp⟩ := mem_promotedIn.mp ht
      obtain rfl := List.mem_singleton.mp hev
      subst he
      obtain ⟨hinst, -, -, hmode, hclock, hg⟩ :=
        promoted_granted (run_synced hr _) (run_timed hr _) wf hp
      refine ⟨exec_installed s hinst, Gate.covers_of_open (Installation.gate_open.mpr hmode) ?_⟩
      have hcov := hg.covered
      rw [← hclock] at hcov
      exact hcov

section Fence

/-- No hold lies between `g` and `g'`: the recovery record is the same. -/
structure SameHold (g g' : Installation) : Prop where
  fence : g'.fence = g.fence
  primary : g'.primary = g.primary
  unsafeUntil : g'.unsafeUntil = g.unsafeUntil
  handshakeAt : g'.handshakeAt = g.handshakeAt
  recoveryReason : g'.recoveryReason = g.recoveryReason
  mode : g'.mode = .recoveryHold → g.mode = .recoveryHold

theorem SameHold.refl (g : Installation) : SameHold g g := ⟨rfl, rfl, rfl, rfl, rfl, id⟩

theorem holdRollback_fence {T I : Type} (k : Keys T I) (env : Env) :
    k.inst.fence < (holdRollback k env).inst.fence ∨ SameHold k.inst (holdRollback k env).inst := by
  unfold holdRollback
  cases hh : hold k.inst env.now env.primary .clockRollback with
  | none => exact .inr (.refl _)
  | some g =>
    obtain ⟨-, rfl⟩ := hold_eq_some hh
    exact .inl (Nat.lt_succ_self _)

theorem upkeep_fence {T I : Type} {env : Env} {epoch : Nat} {room : String} {k k' : Keys T I}
    {u : Upkeep} (installed : k.inst.config ≠ none) (hm : UpkeepMove env epoch room k u k') :
    k.inst.fence < k'.inst.fence ∨ SameHold k.inst k'.inst := by
  cases hm with
  | still => exact .inr (.refl _)
  | held current schema holds =>
    obtain ⟨-, rfl⟩ := hold_eq_some holds
    exact .inl (Nat.lt_succ_self _)
  | passed => exact .inr (.refl _)
  | opened accepted switched new sound =>
    rename_i config primary global notBefore bound shared g
    obtain ⟨v, i, d, hinst⟩ := openedKeys_inst { k with shared := shared } env
      ⟨config, primary, global, room, epoch, notBefore⟩ bound g installed
    rw [hinst]
    rcases holdUnsound_eq_some sound with rfl | ⟨-, hh⟩
    · exact .inr ⟨rfl, rfl, rfl, rfl, rfl, id⟩
    · obtain ⟨-, rfl⟩ := hold_eq_some hh
      exact .inl (Nat.lt_succ_self _)
  | configured => exact .inr ⟨rfl, rfl, rfl, rfl, rfl, id⟩
  | noted => exact .inr ⟨rfl, rfl, rfl, rfl, rfl, id⟩
  | activated => exact .inr ⟨rfl, rfl, rfl, rfl, rfl, fun h => by simp [activate] at h⟩

theorem command_fence {env : Env} {op : Op} {primary : String} {fence : Nat} {o : Outcome}
    {k k' : QueueKeys} (hm : CommandMove env op primary fence k o k') :
    k.inst.fence < k'.inst.fence ∨ SameHold k.inst k'.inst := by
  cases hm with
  | refused => exact .inr (.refl _)
  | rollback => exact holdRollback_fence k env
  | rejected => exact .inr ⟨rfl, rfl, rfl, rfl, rfl, id⟩
  | roomRollback =>
    rcases holdRollback_fence (beginCommand k env.now) env with h | h
    · exact .inl h
    · exact .inr ⟨h.fence, h.primary, h.unsafeUntil, h.handshakeAt, h.recoveryReason, h.mode⟩
  | ran enters clock config run =>
    obtain ⟨v, i, n, -, hinst⟩ := run.frame.inst
    right
    constructor <;> simp only [commit, hinst] <;> first | rfl | exact id
  | aborted enters clock config run =>
    obtain ⟨v, i, n, -, hinst⟩ := run.frame.inst
    right
    constructor <;> simp only [hinst] <;> first | rfl | exact id

theorem exec_fence {db : QueueDb} {e : Nat} (s : Step Call) (h : (db.inst e).config ≠ none) :
    (db.inst e).fence < ((exec db s).2.inst e).fence ∨
      SameHold (db.inst e) ((exec db s).2.inst e) := by
  obtain ⟨k', hm, heq⟩ := exec_moved db s
  rw [heq]
  by_cases he : e = s.epoch
  · subst he
    rw [Db.set_inst_self]
    cases hm with
    | upkeep call move => exact upkeep_fence h move
    | command call move => exact command_fence move
    | read => exact .inr (.refl _)
  · rw [Db.set_inst_ne he]
    exact .inr (.refl _)

end Fence

section Held

/-- The call that ends a hold of epoch `e`: a validation at or after `unsafeUntil`. -/
def Activates (e : Nat) (ev : QueueEvent) : Prop :=
  ev.input.epoch = e ∧ (∃ primary fence, ev.input.call = .upkeep (.validate primary fence)) ∧
    (ev.before.inst e).mode = .recoveryHold ∧
    (ev.before.inst e).unsafeUntil ≤ ev.input.env.now ∧ (ev.after.inst e).mode = .active

theorem upkeep_held {T I : Type} {env : Env} {epoch : Nat} {room : String} {k k' : Keys T I}
    {u : Upkeep} (hm : UpkeepMove env epoch room k u k') (installed : k.inst.config ≠ none)
    (h : k.inst.mode = .recoveryHold) :
    k'.inst.mode = .recoveryHold ∨ ((∃ primary fence, u = .validate primary fence) ∧
      k.inst.unsafeUntil ≤ env.now ∧ k'.inst.mode = .active) := by
  cases hm with
  | held current schema holds =>
    obtain ⟨-, rfl⟩ := hold_eq_some holds
    exact .inl rfl
  | opened accepted switched new sound =>
    rename_i config primary global notBefore bound shared g
    obtain ⟨v, i, d, hinst⟩ := openedKeys_inst { k with shared := shared } env
      ⟨config, primary, global, room, epoch, notBefore⟩ bound g installed
    rw [hinst]
    rcases holdUnsound_eq_some sound with rfl | ⟨-, hh⟩
    · exact .inl h
    · obtain ⟨-, rfl⟩ := hold_eq_some hh
      exact .inl rfl
  | activated fenced mode safe => exact .inr ⟨⟨_, _, rfl⟩, safe, rfl⟩
  | _ => exact .inl h

theorem not_available_of_held {T I : Type} {k : Keys T I} (h : k.inst.mode = .recoveryHold) :
    ¬ Available k := fun hav => by simp [hav.2.2.2.1] at h

theorem wrR6Command_held {k : QueueKeys} (h : k.inst.mode = .recoveryHold) (env : Env) (op : Op)
    (primary : String) (fence : Nat) : ∃ err, wrR6Command k env op primary fence = (.error err, k) := by
  have hav := not_available_of_held h
  unfold wrR6Command
  by_cases hf : Fenced k env primary fence
  · exact ⟨.unavailable, by simp [hf, hav]⟩
  · exact ⟨.fenced, by simp [hf]⟩

theorem exec_of_unchanged {db : QueueDb} {s : Step Call} {o : Outcome}
    (h : runCall (db.keys s.epoch s.room) s.epoch s.room s.env s.call =
      (o, db.keys s.epoch s.room)) : exec db s = (o, db) := by
  unfold exec
  rw [h]
  simp

theorem exec_held {db : QueueDb} {e : Nat} (s : Step Call) (installed : (db.inst e).config ≠ none)
    (h : (db.inst e).mode = .recoveryHold) :
    ((exec db s).2.inst e).mode = .recoveryHold ∨ Activates e (eventOf exec db s) := by
  obtain ⟨k', hm, heq⟩ := exec_moved db s
  by_cases he : e = s.epoch
  · subst he
    have hafter : (eventOf exec db s).after.inst s.epoch = k'.inst := by
      rw [eventOf, heq, Db.set_inst_self]
    rw [heq, Db.set_inst_self]
    cases hm with
    | upkeep call move =>
      rcases upkeep_held move installed h with hm | ⟨⟨primary, fence, rfl⟩, safe, hm⟩
      · exact .inl hm
      · exact .inr ⟨rfl, ⟨primary, fence, call⟩, h, safe, by rw [hafter, hm]⟩
    | command call move =>
      have hav : ¬ Available (db.keys s.epoch s.room) := not_available_of_held h
      left
      generalize (exec db s).1 = o at move
      cases move with
      | refused => exact h
      | rollback available => exact absurd available hav
      | rejected enters => exact absurd enters.available hav
      | roomRollback enters => exact absurd enters.available hav
      | ran enters => exact absurd enters.available hav
      | aborted enters => exact absurd enters.available hav
    | read => exact .inl h
  · rw [heq, Db.set_inst_ne he]
    exact .inl h

/-- The runs of the library that continue from `db`. -/
abbrev RunFrom (db : QueueDb) : List QueueEvent → QueueDb → Prop :=
  Run exec (fun _ s => s.call.WellFormed) db

theorem run_path {db db' : QueueDb} {es : List QueueEvent} (hr : RunFrom db es db') {e : Nat}
    (h : (db.inst e).config ≠ none) :
    (db'.inst e).config ≠ none ∧ GatePath (db.inst e).gate (db'.inst e).gate := by
  induction hr with
  | nil => exact ⟨h, .refl⟩
  | snoc s _ _ ih => exact ⟨exec_installed s ih.1, ih.2.trans (exec_path s ih.1)⟩

theorem installed_of_held {db : QueueDb} {e : Nat} (hs : EpochSynced db e)
    (h : (db.inst e).mode = .recoveryHold) : (db.inst e).config ≠ none := by
  intro hc
  rw [hs.uninstalled hc] at h
  simp at h

theorem run_held {db db' : QueueDb} {es : List QueueEvent} (hr : RunFrom db es db') {e : Nat}
    (installed : (db.inst e).config ≠ none) (h : (db.inst e).mode = .recoveryHold)
    (hno : ∀ ev ∈ es, ¬ Activates e ev) :
    (db'.inst e).mode = .recoveryHold ∧ ∀ ev ∈ es, ev.input.epoch = e →
      ∀ op primary fence, ev.input.call = .command op primary fence →
        (∃ err, ev.output = .error err) ∧ ev.after = ev.before := by
  induction hr with
  | nil => exact ⟨h, by simp⟩
  | @snoc es db' s hr wf ih =>
    obtain ⟨hmode, hcommands⟩ := ih fun ev hev => hno ev (List.mem_append_left _ hev)
    have hinst := (run_path hr installed).1
    refine ⟨?_, ?_⟩
    · exact (exec_held s hinst hmode).resolve_right
        (hno _ (List.mem_append_right _ (List.mem_singleton_self _)))
    · intro ev hev he op primary fence hc
      rcases List.mem_append.mp hev with hev | hev
      · exact hcommands ev hev he op primary fence hc
      · obtain rfl := List.mem_singleton.mp hev
        subst he
        obtain ⟨err, hcmd⟩ := wrR6Command_held (k := db'.keys s.epoch s.room) hmode s.env op
          primary fence
        have hexec : exec db' s = (.error err, db') := by
          apply exec_of_unchanged
          rw [show s.call = .command op primary fence from hc]
          exact hcmd
        simp only [eventOf, hexec]
        exact ⟨⟨err, rfl⟩, trivial⟩

/-- For a run through any reachable state: `unsafeUntil` and the fence do not
decrease from there, a hold takes a new fence, commands under an older fence are
rejected, a hold lasts until a validation at or after `unsafeUntil`, and that
time is later than every admission granted before, with 30 s to spare. -/
theorem uncertainty_window {es es' : List QueueEvent} {db db' : QueueDb} (hr : QueueRun es db)
    (hr' : RunFrom db es' db') (e : Nat) :
    ((db.inst e).unsafeUntil ≤ (db'.inst e).unsafeUntil ∧
      (db.inst e).fence ≤ (db'.inst e).fence) ∧
    (∀ ev ∈ es', (ev.before.inst e).config ≠ none →
      (ev.before.inst e).fence < (ev.after.inst e).fence ∨
        SameHold (ev.before.inst e) (ev.after.inst e)) ∧
    (∀ fence < (db.inst e).fence, ∀ room env op primary,
      exec db' ⟨e, room, env, .command op primary fence⟩ = (.error .fenced, db')) ∧
    ((db.inst e).mode = .recoveryHold → (∀ ev ∈ es', ¬ Activates e ev) →
      (db'.inst e).mode = .recoveryHold ∧ ∀ ev ∈ es', ev.input.epoch = e →
        ∀ op primary fence, ev.input.call = .command op primary fence →
          (∃ err, ev.output = .error err) ∧ ev.after = ev.before) ∧
    (∀ before ev rest, es' = before ++ ev :: rest → Activates e ev →
      ∀ t ∈ promotedIn e (es ++ before),
        t.admissionUntil + 30000 ≤ (ev.before.inst e).unsafeUntil) := by
  have hgrow : (db.inst e).unsafeUntil ≤ (db'.inst e).unsafeUntil ∧
      (db.inst e).fence ≤ (db'.inst e).fence := by
    by_cases hc : (db.inst e).config = none
    · simp [(run_synced hr e).uninstalled hc]
    · have grows := (run_path hr' hc).2.grows (run_timed hr e).settled
      exact ⟨grows.safeAt, grows.fence⟩
  refine ⟨hgrow, ?_, ?_, ?_, ?_⟩
  · intro ev hev hc
    obtain ⟨-, -, -, -, -, heq, -⟩ := hr'.split hev
    rw [heq]
    exact exec_fence ev.input hc
  · intro fence hfence room env op primary
    apply exec_of_unchanged
    have hf : ¬ Fenced (db'.keys e room) env primary fence := by
      intro hf
      have : fence = (db'.inst e).fence := hf.2.2.2
      omega
    simp [runCall, wrR6Command, hf]
  · intro hmode hno
    exact run_held hr' (installed_of_held (run_synced hr e) hmode) hmode hno
  · intro before ev rest hes hact t ht
    subst hes
    obtain ⟨m, hbefore, hrest⟩ := Run.of_append hr'
    obtain ⟨wf, heq, -⟩ := Run.of_cons hrest
    obtain rfl : ev.before = m := by rw [heq]; rfl
    have hrun : QueueRun (es ++ before) ev.before := hr.append hbefore
    exact (run_covers hrun e t ht).2.2 (Installation.gate_closed.mpr hact.2.2.1)

end Held

def heldSteps : List (Step Call) :=
  sampleSteps ++ [⟨1, "room", ⟨1000005, "primary"⟩, .upkeep (.recover "primary" true)⟩]

def resumeSteps : List (Step Call) :=
  let validate : Step Call := ⟨1, "room", ⟨1090005, "primary"⟩, .upkeep (.validate "primary" 2)⟩
  [⟨1, "room", ⟨1000006, "primary"⟩, .command (.claim sampleId) "primary" 2⟩,
    validate, validate, validate]

def heldDb : QueueDb := stateAfter exec {} heldSteps

def resumedDb : QueueDb := stateAfter exec heldDb resumeSteps

theorem held_run : QueueRun (eventsOf exec {} heldSteps) heldDb := by
  have wf : ∀ s ∈ heldSteps, ∀ _ : QueueDb, s.call.WellFormed := by
    intro s hs db
    rcases List.mem_append.mp hs with hs | hs
    · exact sampleSteps_wellFormed s hs db
    · rw [List.mem_singleton.mp hs]
      trivial
  exact run_of_inputs {} wf

theorem resumed_run : RunFrom heldDb (eventsOf exec heldDb resumeSteps) resumedDb := by
  refine run_of_inputs heldDb ?_
  simp [resumeSteps, Call.WellFormed]

theorem sample_window : (heldDb.inst 1).mode = .recoveryHold ∧ (heldDb.inst 1).fence = 2 ∧
    (resumedDb.inst 1).mode = .active ∧
    (heldDb.inst 1).unsafeUntil ≤ (resumedDb.inst 1).unsafeUntil ∧
    ∀ room env op primary,
      exec resumedDb ⟨1, room, env, .command op primary 1⟩ = (.error .fenced, resumedDb) := by
  obtain ⟨⟨hsafe, -⟩, -, hfence, -⟩ := uncertainty_window held_run resumed_run 1
  have h : (heldDb.inst 1).fence = 2 := by decide +kernel
  exact ⟨by decide +kernel, h, by decide +kernel, hsafe, hfence 1 (by rw [h]; decide)⟩

end WaitingRoom.Queue
