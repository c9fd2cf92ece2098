import WaitingRoom.Queue.Hold

/-!
# The history of one room

A run interleaves the calls of all rooms and epochs. Seen from one room of one
epoch, a call leaves the room as it is, opens it, configures it while it is
empty, or runs a command in it; the tickets a room has promoted, claimed and
created are read off the answers to its commands.
-/

namespace WaitingRoom.Queue

set_option autoImplicit false

/-- The command of an event, if it is one of room `r` in epoch `e`, and its answer. -/
def commandAt (e : Nat) (r : String) (ev : QueueEvent) : Option (Op × Outcome) :=
  match ev.input.call with
  | .command op _ _ => if ev.input.epoch = e ∧ ev.input.room = r then some (op, ev.output) else none
  | _ => none

def shown (f : Op → Outcome → List Ticket) (e : Nat) (r : String) (es : List QueueEvent) :
    List Ticket :=
  es.flatMap fun ev => ((commandAt e r ev).map fun a => f a.1 a.2).getD []

def promotedAt : Nat → String → List QueueEvent → List Ticket := shown fun _ o => promotedBy o

def claimedAt : Nat → String → List QueueEvent → List Ticket := shown claimedBy

def joinedAt : Nat → String → List QueueEvent → List Ticket := shown joinedBy

/-- The joins that were given the next number of the room. -/
def createdAt (e : Nat) (r : String) (es : List QueueEvent) : List Ticket :=
  es.flatMap fun ev =>
    if (ev.before.room e r).seq < (ev.after.room e r).seq then joinedAt e r [ev] else []

def Silent (e : Nat) (r : String) (ev : QueueEvent) : Prop :=
  ∀ op o, commandAt e r ev = some (op, o) → ∃ err, o = .error err

section Shown

variable {f : Op → Outcome → List Ticket} {e : Nat} {r : String}

theorem shown_append (es es' : List QueueEvent) :
    shown f e r (es ++ es') = shown f e r es ++ shown f e r es' := List.flatMap_append

theorem promotedAt_append (es es' : List QueueEvent) :
    promotedAt e r (es ++ es') = promotedAt e r es ++ promotedAt e r es' := shown_append es es'

theorem claimedAt_append (es es' : List QueueEvent) :
    claimedAt e r (es ++ es') = claimedAt e r es ++ claimedAt e r es' := shown_append es es'

theorem joinedAt_append (es es' : List QueueEvent) :
    joinedAt e r (es ++ es') = joinedAt e r es ++ joinedAt e r es' := shown_append es es'

theorem createdAt_append (es es' : List QueueEvent) :
    createdAt e r (es ++ es') = createdAt e r es ++ createdAt e r es' := List.flatMap_append

theorem shown_of_silent {ev : QueueEvent} (h : Silent e r ev)
    (hf : ∀ op err, f op (.error err) = []) : shown f e r [ev] = [] := by
  rw [shown, List.flatMap_singleton]
  cases hc : commandAt e r ev with
  | none => rfl
  | some a =>
    obtain ⟨op, o⟩ := a
    obtain ⟨err, rfl⟩ := h op o hc
    exact hf op err

theorem shown_of_command {ev : QueueEvent} {op : Op} {o : Outcome}
    (h : commandAt e r ev = some (op, o)) : shown f e r [ev] = f op o := by
  simp [shown, h]

theorem mem_shown {es : List QueueEvent} {t : Ticket} :
    t ∈ shown f e r es ↔ ∃ ev ∈ es, t ∈ shown f e r [ev] := by
  simp [shown]

theorem promotedAt_of_silent {ev : QueueEvent} (h : Silent e r ev) : promotedAt e r [ev] = [] :=
  shown_of_silent h fun _ _ => rfl

theorem claimedAt_of_silent {ev : QueueEvent} (h : Silent e r ev) : claimedAt e r [ev] = [] :=
  shown_of_silent h fun op _ => by cases op <;> rfl

theorem joinedAt_of_silent {ev : QueueEvent} (h : Silent e r ev) : joinedAt e r [ev] = [] :=
  shown_of_silent h fun op _ => by cases op <;> rfl

theorem createdAt_of_silent {ev : QueueEvent} (h : Silent e r ev) : createdAt e r [ev] = [] := by
  simp [createdAt, joinedAt_of_silent h]

theorem promotedAt_of_command {ev : QueueEvent} {op : Op} {ls : List Label} {k : QueueKeys}
    (command : commandAt e r ev = some (op, ev.output)) (answered : Answered op ev.output ls k) :
    promotedAt e r [ev] = promotions ls :=
  (shown_of_command command).trans answered.promoted.symm

theorem claimedAt_of_command {ev : QueueEvent} {op : Op} {ls : List Label} {k : QueueKeys}
    (command : commandAt e r ev = some (op, ev.output)) (answered : Answered op ev.output ls k) :
    claimedAt e r [ev] = claims ls :=
  (shown_of_command command).trans answered.claimed.symm

theorem promotedAt_subset {es : List QueueEvent} {t : Ticket} (h : t ∈ promotedAt e r es) :
    t ∈ promotedIn e es := by
  obtain ⟨ev, hev, ht⟩ := mem_shown.mp h
  refine mem_promotedIn.mpr ⟨ev, hev, ?_⟩
  simp only [shown, List.flatMap_singleton, commandAt] at ht
  cases hc : ev.input.call with
  | command op primary fence =>
    simp only [hc] at ht
    split at ht
    · rename_i hat
      exact ⟨hat.1, by simpa [promotedTickets, hc] using ht⟩
    · simp at ht
  | _ => simp [hc] at ht

end Shown

/-- What an event does to the room `r` of epoch `e`. -/
inductive RoomMove (e : Nat) (r : String) (ev : QueueEvent) : Prop
  | still {n : Nat} {p : Option Progress} (silent : Silent e r ev)
      (room : ev.after.room e r = { ev.before.room e r with clock := n, validation := p })
  | opened {a : InitArgs} (silent : Silent e r ev)
      (call : ev.input.call = .upkeep (.init a.config a.primary a.global a.notBefore))
      (blank : ev.before.room e r = {}) (room : ev.after.room e r = createRoom {} a)
  | configured {d : Desired} {primary : String} {fence : Nat} (silent : Silent e r ev)
      (call : ev.input.call = .upkeep (.configureHeld d primary fence))
      (tickets : (ev.before.room e r).tickets.size = 0)
      (idems : (ev.before.room e r).idem.size = 0)
      (room : ev.after.room e r = configured (ev.before.room e r) d)
      (mode : (ev.before.inst e).mode = .recoveryHold)
      (reason : (ev.before.inst e).recoveryReason = some .epochReset)
  | ran {op : Op} {primary : String} {fence : Nat} {c : Config} {ls : List Label} {k' : QueueKeys}
      (command : commandAt e r ev = some (op, ev.output))
      (call : ev.input.call = .command op primary fence)
      (enters : Enters (ev.before.keys e r) ev.input.env primary fence)
      (config : (ev.before.room e r).config = some c)
      (run : Effects ev.input.env.now (started (ev.before.keys e r) ev.input.env.now) ls k')
      (answered : Answered op ev.output ls k') (inst : ev.after.inst e = (commit k').inst)
      (room : ev.after.room e r = k'.room)

theorem started_synced {db : QueueDb} {e : Nat} {r : String} {c : Config} (hs : EpochSynced db e)
    (config : (db.room e r).config = some c) (now : Nat) :
    RoomSynced c.clockSkew (started (db.keys e r) now) :=
  (hs.synced r c config).congr rfl fun _ _ => ⟨rfl, rfl⟩

theorem exec_roomMove {db : QueueDb} {e : Nat} (hs : EpochSynced db e) (s : Step Call) (r : String) :
    RoomMove e r (eventOf exec db s) := by
  obtain ⟨k', hm, heq⟩ := exec_moved db s
  have hafter : (eventOf exec db s).after = db.set s.epoch s.room k' := heq
  by_cases hat : s.epoch = e ∧ s.room = r
  · obtain ⟨rfl, rfl⟩ := hat
    have hroom : (eventOf exec db s).after.room s.epoch s.room = k'.room := by
      rw [hafter, Db.set_room_self]
    have hinst : (eventOf exec db s).after.inst s.epoch = k'.inst := by
      rw [hafter, Db.set_inst_self]
    cases hm with
    | upkeep call move =>
      have silent : Silent s.epoch s.room (eventOf exec db s) := by
        intro op o h
        simp [commandAt, eventOf, call] at h
      cases move with
      | still => exact .still silent hroom
      | held => exact .still silent hroom
      | passed => exact .still silent hroom
      | opened accepted switched new sound =>
        rename_i config primary global notBefore bound shared g
        have hblank : db.room s.epoch s.room = {} := hs.unopened _ new
        simp only [openedKeys_room, Db.keys_room, hblank] at hroom
        exact .opened (a := ⟨config, primary, global, s.room, s.epoch, notBefore⟩) silent call hblank
          hroom
      | configured fenced mode reason tickets idems =>
        exact .configured silent call tickets idems hroom mode reason
      | noted => exact .still silent hroom
      | activated => exact .still silent hroom
    | @command op primary fence o k' call move =>
      have hcommand : commandAt s.epoch s.room (eventOf exec db s) = some (op, (exec db s).1) := by
        simp [commandAt, eventOf, call]
      have hends := command_ends hs move
      have hout : (eventOf exec db s).output = (exec db s).1 := rfl
      have silent : (∃ err, (exec db s).1 = .error err) →
          Silent s.epoch s.room (eventOf exec db s) := by
        rintro ⟨err, herr⟩ op' o h
        obtain ⟨-, rfl⟩ := Prod.mk.inj (Option.some.inj (hcommand.symm.trans h))
        exact ⟨err, herr⟩
      generalize (exec db s).1 = o at *
      cases move with
      | refused err => exact .still (silent ⟨err, rfl⟩) hroom
      | rollback => exact .still (silent ⟨_, rfl⟩) hroom
      | rejected _ err => exact .still (silent ⟨err, rfl⟩) hroom
      | roomRollback => exact .still (silent ⟨_, rfl⟩) hroom
      | ran enters clock config run ended answered =>
        exact .ran (by rw [hcommand, hout]) call enters config run (by rwa [hout]) hinst hroom
      | aborted => exact absurd rfl hends
    | read call =>
      have silent : Silent s.epoch s.room (eventOf exec db s) := by
        intro op o h
        cases hc : s.call <;> simp [hc, Call.Reads] at call <;> simp [commandAt, eventOf, hc] at h
      exact .still silent hroom
  · have silent : Silent e r (eventOf exec db s) := by
      intro op o h
      cases hc : s.call with
      | command => simp [commandAt, eventOf, hc, hat] at h
      | _ => simp [commandAt, eventOf, hc] at h
    have hroom : (eventOf exec db s).after.room e r = db.room e r := by
      rw [hafter, Db.set_room_ne fun h => hat ⟨h.1.symm, h.2.symm⟩]
    exact .still silent hroom

end WaitingRoom.Queue
