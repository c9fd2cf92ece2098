import WaitingRoom.Queue.Index
import WaitingRoom.Queue.Move
import WaitingRoom.Shared.Union

/-!
# The indexes of an installation

The rooms of an epoch share two sets of owners. As ids have a fixed length, the
owner `room:id` names its room whatever characters a room's name contains, so a
command of one room leaves the owners of the others alone.
-/

namespace WaitingRoom.Queue

set_option autoImplicit false

theorem member_injective {r r' id id' : String} (h : Hashed id) (h' : Hashed id')
    (hm : member r id = member r' id') : r = r' ∧ id = id' := by
  have short : ∀ {a b : String}, Hashed a → Hashed b → a.toList <:+ b.toList → a = b := by
    rintro a b ha hb ⟨l, hl⟩
    have hs : String.ofList l ++ a = b := by
      apply String.toList_inj.mp
      simpa using hl
    have hz : (String.ofList l).utf8ByteSize = 0 := by
      have := congrArg String.utf8ByteSize hs
      rw [String.utf8ByteSize_append, ha, hb] at this
      omega
    rw [String.utf8ByteSize_eq_zero_iff.mp hz] at hs
    simpa using hs
  have hl := congrArg String.toList hm
  simp only [member, String.toList_append] at hl
  have hid : id = id' := by
    have h₁ : id.toList <:+ r'.toList ++ ":".toList ++ id'.toList := hl ▸ List.suffix_append _ _
    rcases List.suffix_or_suffix_of_suffix h₁ (List.suffix_append _ id'.toList) with hs | hs
    · exact short h h' hs
    · exact (short h' h hs).symm
  subst hid
  exact ⟨String.toList_inj.mp (List.append_cancel_right (List.append_cancel_right hl)), rfl⟩

structure EpochSynced (db : QueueDb) (e : Nat) : Prop where
  uninstalled : (db.inst e).config = none → db.inst e = {}
  installed : (db.inst e).config ≠ none → (db.inst e).schema = 5 ∧ (db.inst e).epoch = some e
  unopened : ∀ r, (db.room e r).config = none → db.room e r = {}
  names : ∀ r, (db.room e r).config ≠ none →
    (db.room e r).room = r ∧ (db.room e r).schema = 5 ∧ (db.room e r).epoch = e
  registered : ∀ r, r ∈ (db.inst e).rooms ↔ (db.room e r).config ≠ none
  synced : ∀ r c, (db.room e r).config = some c → RoomSynced c.clockSkew (db.keys e r)
  visitorOwners : ∀ o s, (db.inst e).visitorOwners.get o = some s →
    ∃ r id, r ∈ (db.inst e).rooms ∧ Hashed id ∧ o = member r id
  idemOwners : ∀ o s, (db.inst e).idemOwners.get o = some s →
    ∃ r id, r ∈ (db.inst e).rooms ∧ Hashed id ∧ o = member r id
  visitors : (db.inst e).visitors = (db.inst e).visitorOwners.size
  idems : (db.inst e).idems = (db.inst e).idemOwners.size

theorem RoomSynced.congr {skew : Nat} {k k' : QueueKeys} (hs : RoomSynced skew k)
    {n : Nat} {p : Option Progress} (hr : k'.room = { k.room with clock := n, validation := p })
    (ho : ∀ id, Hashed id →
      k'.inst.visitorOwners.get (member k.room.room id) =
        k.inst.visitorOwners.get (member k.room.room id) ∧
      k'.inst.idemOwners.get (member k.room.room id) =
        k.inst.idemOwners.get (member k.room.room id)) : RoomSynced skew k' := by
  obtain ⟨room', inst', shared'⟩ := k'
  dsimp only at hr ho
  subst hr
  obtain ⟨opened, cutoff, ht, hi⟩ := hs
  refine ⟨opened, cutoff, ⟨ht.ids, ht.expiry, ht.waiting, ht.leases, ht.ready, ?_⟩,
    ⟨hi.keys, hi.rows, ?_⟩⟩
  · intro id hid
    exact (ho id hid).1.trans (ht.owners id hid)
  · intro id hid
    exact (ho id hid).2.trans (hi.owners id hid)

/-- The owners of the rooms other than `r`. -/
def OthersKept (r : String) (g g' : Installation) : Prop :=
  ∀ o, (∀ id, Hashed id → o ≠ member r id) →
    g'.visitorOwners.get o = g.visitorOwners.get o ∧ g'.idemOwners.get o = g.idemOwners.get o

structure RoomKept (e : Nat) (r : String) (g : Installation) (k : QueueKeys) : Prop where
  config : k.inst.config ≠ none
  schema : k.inst.schema = 5
  epoch : k.inst.epoch = some e
  names : k.room.room = r ∧ k.room.schema = 5 ∧ k.room.epoch = e
  rooms : k.inst.rooms = insert r g.rooms
  synced : ∃ skew, RoomSynced skew k
  others : OthersKept r g k.inst
  visitors : k.inst.visitors = k.inst.visitorOwners.size
  idems : k.inst.idems = k.inst.idemOwners.size

/-- What an epoch's invariant reads of its installation is the same in both. -/
structure SameIndexes (g g' : Installation) : Prop where
  installed : g' = g ∨ g.config ≠ none
  config : g'.config = g.config
  schema : g'.schema = g.schema
  epoch : g'.epoch = g.epoch
  rooms : g'.rooms = g.rooms
  visitorOwners : g'.visitorOwners = g.visitorOwners
  idemOwners : g'.idemOwners = g.idemOwners
  visitors : g.visitors = g.visitorOwners.size → g'.visitors = g.visitorOwners.size
  idems : g.idems = g.idemOwners.size → g'.idems = g.idemOwners.size

namespace EpochSynced

variable {db : QueueDb} {e : Nat}

theorem empty (e : Nat) : EpochSynced {} e := by
  refine ⟨fun _ => rfl, by simp, fun _ _ => rfl, by simp, by simp, by simp, by simp, by simp, rfl, rfl⟩

theorem setRoom {r : String} {k : QueueKeys} (h : EpochSynced db e)
    (hk : RoomKept e r (db.inst e) k) : EpochSynced (db.set e r k) e := by
  obtain ⟨skew, hs⟩ := hk.synced
  obtain ⟨c, hc, hskew⟩ := hs.opened
  have hroom : ∀ a, a ≠ r → (db.set e r k).room e a = db.room e a :=
    fun a ha => Db.set_room_ne fun hea => ha hea.2
  have owner : ∀ o, ((∀ id, Hashed id → o ≠ member r id) →
      ∃ a id, a ∈ (db.inst e).rooms ∧ Hashed id ∧ o = member a id) →
      ∃ a id, a ∈ k.inst.rooms ∧ Hashed id ∧ o = member a id := by
    intro o ho
    rw [hk.rooms]
    by_cases hr : ∃ id, Hashed id ∧ o = member r id
    · obtain ⟨id, hid, rfl⟩ := hr
      exact ⟨r, id, Finset.mem_insert_self _ _, hid, rfl⟩
    · obtain ⟨a, id, ha, hid, rfl⟩ := ho fun id hid hoid => hr ⟨id, hid, hoid⟩
      exact ⟨a, id, Finset.mem_insert_of_mem ha, hid, rfl⟩
  constructor
  · intro hg
    rw [Db.set_inst_self] at hg
    exact absurd hg hk.config
  · intro _
    rw [Db.set_inst_self]
    exact ⟨hk.schema, hk.epoch⟩
  · intro a ha
    by_cases har : a = r
    · subst a
      rw [Db.set_room_self, hc] at ha
      simp at ha
    · rw [hroom a har] at ha ⊢
      exact h.unopened a ha
  · intro a ha
    by_cases har : a = r
    · subst a
      rw [Db.set_room_self]
      exact hk.names
    · rw [hroom a har] at ha ⊢
      exact h.names a ha
  · intro a
    rw [Db.set_inst_self, hk.rooms, Finset.mem_insert]
    by_cases har : a = r
    · subst a
      simp [hc]
    · rw [hroom a har, ← h.registered a]
      simp [har]
  · intro a c' hc'
    by_cases har : a = r
    · subst a
      rw [Db.set_room_self, hc] at hc'
      obtain rfl := Option.some.inj hc'
      rw [Db.keys_set_self, hskew]
      exact hs
    · rw [hroom a har] at hc'
      have hname : (db.room e a).room = a := (h.names a (by simp [hc'])).1
      refine (h.synced a c' hc').congr (hroom a har) fun id hid => ?_
      rw [Db.keys_room, hname, Db.keys_inst, Db.set_inst_self]
      exact hk.others (member a id) fun id' hid' hm => har (member_injective hid hid' hm).1
  · intro o s ho
    rw [Db.set_inst_self] at ho ⊢
    exact owner o fun hr => h.visitorOwners o s ((hk.others o hr).1.symm.trans ho)
  · intro o s ho
    rw [Db.set_inst_self] at ho ⊢
    exact owner o fun hr => h.idemOwners o s ((hk.others o hr).2.symm.trans ho)
  · rw [Db.set_inst_self]
    exact hk.visitors
  · rw [Db.set_inst_self]
    exact hk.idems

theorem congr {db' : QueueDb} (h : EpochSynced db e) (hr : ∀ r, db'.room e r = db.room e r)
    (hg : SameIndexes (db.inst e) (db'.inst e)) : EpochSynced db' e := by
  constructor
  · intro hc
    rcases hg.installed with heq | hne
    · rw [heq] at hc ⊢
      exact h.uninstalled hc
    · exact absurd (hg.config.symm.trans hc) hne
  · rw [hg.config, hg.schema, hg.epoch]
    exact h.installed
  · intro r
    rw [hr]
    exact h.unopened r
  · intro r
    rw [hr]
    exact h.names r
  · intro r
    rw [hr, hg.rooms]
    exact h.registered r
  · intro r c hc
    rw [hr] at hc
    refine (h.synced r c hc).congr (hr r) fun id _ => ?_
    rw [Db.keys_inst, Db.keys_inst, hg.visitorOwners, hg.idemOwners]
    exact ⟨rfl, rfl⟩
  · rw [hg.visitorOwners, hg.rooms]
    exact h.visitorOwners
  · rw [hg.idemOwners, hg.rooms]
    exact h.idemOwners
  · rw [hg.visitors h.visitors, hg.visitorOwners]
  · rw [hg.idems h.idems, hg.idemOwners]

theorem installed_of_schema (h : EpochSynced db e) (hs : (db.inst e).schema = 5) :
    (db.inst e).config ≠ none := by
  intro hc
  rw [h.uninstalled hc] at hs
  simp at hs

theorem installed_of_fenced {r primary : String} {env : Env} {fence : Nat} (h : EpochSynced db e)
    (hf : Fenced (db.keys e r) env primary fence) : (db.inst e).config ≠ none := by
  intro hc
  have hp := hf.2.2.1
  rw [Db.keys_inst, h.uninstalled hc] at hp
  simp at hp

theorem room_synced (h : EpochSynced db e) {r : String} (hr : (db.room e r).config ≠ none) :
    ∃ skew, RoomSynced skew (db.keys e r) := by
  obtain ⟨c, hc⟩ := Option.ne_none_iff_exists'.mp hr
  exact ⟨c.clockSkew, h.synced r c hc⟩

theorem setSame {r : String} {k : QueueKeys} {n : Nat} {p : Option Progress}
    (h : EpochSynced db e) (hr : k.room = { db.room e r with clock := n, validation := p })
    (hn : (db.room e r).config = none → k.room = db.room e r)
    (hg : SameIndexes (db.inst e) k.inst) : EpochSynced (db.set e r k) e := by
  by_cases hc : (db.room e r).config = none
  · apply h.congr
    · intro a
      by_cases ha : a = r
      · subst a
        rw [Db.set_room_self, hn hc]
      · exact Db.set_room_ne fun hea => ha hea.2
    · rw [Db.set_inst_self]
      exact hg
  · have hreg := (h.registered r).mpr hc
    have hinst : (db.inst e).config ≠ none := by
      intro hcg
      rw [h.uninstalled hcg] at hreg
      simp at hreg
    obtain ⟨hschema, hepoch⟩ := h.installed hinst
    obtain ⟨skew, hs⟩ := h.room_synced hc
    refine h.setRoom ⟨?_, ?_, ?_, ?_, ?_, ⟨skew, ?_⟩, ?_, ?_, ?_⟩
    · rwa [hg.config]
    · rwa [hg.schema]
    · rwa [hg.epoch]
    · rw [hr]
      exact h.names r hc
    · rw [hg.rooms, Finset.insert_eq_of_mem hreg]
    · refine hs.congr hr fun id _ => ?_
      rw [hg.visitorOwners, hg.idemOwners]
      exact ⟨rfl, rfl⟩
    · intro o _
      rw [hg.visitorOwners, hg.idemOwners]
      exact ⟨rfl, rfl⟩
    · rw [hg.visitors h.visitors, hg.visitorOwners]
    · rw [hg.idems h.idems, hg.idemOwners]

end EpochSynced

namespace SameIndexes

theorem refl (g : Installation) : SameIndexes g g :=
  ⟨.inl rfl, rfl, rfl, rfl, rfl, rfl, rfl, id, id⟩

variable {g g' : Installation} {k : QueueKeys}

theorem hold {now : Nat} {primary : String} {reason : RecoveryReason} {g'' : Installation}
    (h : SameIndexes g g') (hg : g.config ≠ none)
    (hh : Queue.hold g' now primary reason = some g'') : SameIndexes g g'' := by
  obtain ⟨-, rfl⟩ := hold_eq_some hh
  exact ⟨.inr hg, h.config, h.schema, h.epoch, h.rooms, h.visitorOwners, h.idemOwners, h.visitors,
    h.idems⟩

theorem holdRollback {env : Env} (h : SameIndexes g k.inst) (hg : g.config ≠ none) :
    SameIndexes g (Queue.holdRollback k env).inst := by
  unfold Queue.holdRollback
  cases hh : Queue.hold k.inst env.now env.primary .clockRollback with
  | none => exact h
  | some g'' => exact h.hold hg hh

theorem beginCommand {now : Nat} (h : SameIndexes g k.inst) (hg : g.config ≠ none) :
    SameIndexes g (Queue.beginCommand k now).inst :=
  ⟨.inr hg, h.config, h.schema, h.epoch, h.rooms, h.visitorOwners, h.idemOwners, h.visitors,
    h.idems⟩

theorem commit (h : SameIndexes g k.inst) (hg : g.config ≠ none) :
    SameIndexes g (Queue.commit k).inst :=
  ⟨.inr hg, h.config, h.schema, h.epoch, h.rooms, h.visitorOwners, h.idemOwners,
    fun _ => congrArg Table.size h.visitorOwners, fun _ => congrArg Table.size h.idemOwners⟩

end SameIndexes

section Step

variable {db : QueueDb} {e : Nat} {r : String}

variable {k' k : QueueKeys} {env : Env}

theorem effects_kept {now : Nat} {c : Config} {ls : List Label} (h : EpochSynced db e)
    (hg : (db.inst e).config ≠ none) (hc : (db.room e r).config = some c)
    (run : Effects now (started (db.keys e r) now) ls k') :
    RoomSynced c.clockSkew k' ∧ k'.inst.config ≠ none ∧ RoomKept e r (db.inst e) (commit k') := by
  have hopened : (db.room e r).config ≠ none := by simp [hc]
  have hname := h.names r hopened
  have hs : RoomSynced c.clockSkew (started (db.keys e r) now) :=
    (h.synced r c hc).congr rfl fun _ _ => ⟨rfl, rfl⟩
  have hs' := run.synced hs
  have hkept := run.ownersKept hs
  have hframe := run.frame
  obtain ⟨v, i, n, -, hinst⟩ := hframe.inst
  have hroom : (started (db.keys e r) now).room.room = r := hname.1
  obtain ⟨hschema, hepoch⟩ := h.installed hg
  refine ⟨hs', by rw [hinst]; exact hg, ?_⟩
  refine ⟨?_, ?_, ?_, ⟨?_, ?_, ?_⟩, ?_, ⟨c.clockSkew, hs'.congr rfl fun _ _ => ⟨rfl, rfl⟩⟩, ?_, rfl, rfl⟩
  · simp only [commit, hinst]
    exact hg
  · simp only [commit, hinst]
    exact hschema
  · simp only [commit, hinst]
    exact hepoch
  · exact hframe.room.trans hroom
  · exact hframe.schema.trans hname.2.1
  · exact hframe.epoch.trans hname.2.2
  · rw [Finset.insert_eq_of_mem ((h.registered r).mpr hopened)]
    simp only [commit, hinst]
    rfl
  · intro o ho
    rw [← hroom] at ho
    exact ⟨hkept.visitors o ho, hkept.idems o ho⟩

theorem command_synced {op : Op} {primary : String} {fence : Nat} {o : Outcome}
    (h : EpochSynced db e)
    (hm : CommandMove env op primary fence (db.keys e r) o k') : EpochSynced (db.set e r k') e := by
  have hg : Available (db.keys e r) → (db.inst e).config ≠ none :=
    fun available => h.installed_of_schema available.2.1
  have hk : SameIndexes (db.inst e) (db.keys e r).inst := .refl _
  cases hm with
  | refused => rwa [Db.set_keys]
  | rollback available =>
    exact h.setSame rfl (fun _ => rfl) (hk.holdRollback (hg available))
  | rejected enters =>
    have hg := hg enters.available
    exact h.setSame rfl (fun _ => rfl) ((hk.beginCommand hg).commit hg)
  | roomRollback enters =>
    have hg := hg enters.available
    exact h.setSame rfl (fun _ => rfl) (((hk.beginCommand hg).holdRollback hg).commit hg)
  | ran enters clock config run =>
    exact h.setRoom (effects_kept h (hg enters.available) config run).2.2
  | aborted enters clock config run stuck =>
    obtain ⟨hs, hc, -⟩ := effects_kept h (hg enters.available) config run
    exact absurd stuck (hs.not_stuck hc)

theorem command_ends {op : Op} {primary : String} {fence : Nat} {o : Outcome} (h : EpochSynced db e)
    (hm : CommandMove env op primary fence (db.keys e r) o k') : o ≠ .abort := by
  cases hm with
  | ran enters clock config run ended => exact ended
  | aborted enters clock config run stuck =>
    have hg := h.installed_of_schema enters.available.2.1
    obtain ⟨hs, hc, -⟩ := effects_kept h hg config run
    exact absurd stuck (hs.not_stuck hc)
  | _ => simp

theorem EpochSynced.unowned (h : EpochSynced db e) (hr : (db.room e r).config = none) {id : String}
    (hid : Hashed id) : (db.inst e).visitorOwners.get (member r id) = none ∧
      (db.inst e).idemOwners.get (member r id) = none := by
  have absent : ∀ a id', a ∈ (db.inst e).rooms → Hashed id' → member r id ≠ member a id' := by
    intro a id' ha hid' hm
    obtain ⟨rfl, -⟩ := member_injective hid hid' hm
    exact (h.registered r).mp ha hr
  constructor
  · cases ho : (db.inst e).visitorOwners.get (member r id) with
    | none => rfl
    | some s =>
      obtain ⟨a, id', ha, hid', hm⟩ := h.visitorOwners _ s ho
      exact absurd hm (absent a id' ha hid')
  · cases ho : (db.inst e).idemOwners.get (member r id) with
    | none => rfl
    | some s =>
      obtain ⟨a, id', ha, hid', hm⟩ := h.idemOwners _ s ho
      exact absurd hm (absent a id' ha hid')

theorem openedInstallation_kept {a : InitArgs} {n : Nat} {g : Installation}
    (installed : k.inst.config ≠ none → k.inst.schema = 5 ∧ k.inst.epoch = some a.epoch)
    (sound : holdUnsound k env = some g) :
    let g' := openedInstallation k env a n g
    g'.config ≠ none ∧ g'.schema = 5 ∧ g'.epoch = some a.epoch ∧
      g'.rooms = insert a.room k.inst.rooms ∧ g'.visitorOwners = k.inst.visitorOwners ∧
      g'.idemOwners = k.inst.idemOwners ∧ g'.visitors = k.inst.visitors ∧
      g'.idems = k.inst.idems := by
  intro g'
  by_cases hc : k.inst.config = none
  · have hg : g = k.inst := (holdUnsound_eq_some sound).resolve_right fun hh => hh.1 hc
    simp [g', openedInstallation_of_none hc, coverLifetime, hg]
  · obtain ⟨hschema, hepoch⟩ := installed hc
    simp only [g', openedInstallation_of_installed hc, coverLifetime]
    rcases holdUnsound_eq_some sound with rfl | ⟨-, hh⟩
    · exact ⟨hc, hschema, hepoch, rfl, rfl, rfl, rfl, rfl⟩
    · obtain ⟨-, rfl⟩ := hold_eq_some hh
      exact ⟨hc, hschema, hepoch, rfl, rfl, rfl, rfl, rfl⟩

theorem RoomSynced.sets_of_empty {skew : Nat} (hs : RoomSynced skew k)
    (ht : k.room.tickets.size = 0) (hi : k.room.idem.size = 0) (id : String) :
    k.room.expiry.get id = none ∧ k.room.waiting.get id = none ∧
      k.room.leases.get id = none ∧ k.room.idemExpiry.get id = none := by
  have ht' := Table.size_eq_zero_iff.mp ht id
  have hi' := hs.idems.rows id
  rw [Table.size_eq_zero_iff.mp hi id] at hi'
  rw [hs.tickets.expiry, hs.tickets.waiting, hs.tickets.leases, ht']
  exact ⟨rfl, rfl, rfl, by simpa using hi'.symm⟩

theorem RoomSynced.blank {c : Config} (hc : k.room.config = some c) (hm : k.room.mode ≠ .draining)
    (ht : k.room.tickets.size = 0) (hi : k.room.idem.size = 0)
    (hsets : ∀ id, k.room.expiry.get id = none ∧ k.room.waiting.get id = none ∧
      k.room.leases.get id = none ∧ k.room.idemExpiry.get id = none)
    (hready : k.room.ready = 0)
    (howners : ∀ id, Hashed id → k.inst.visitorOwners.get (member k.room.room id) = none ∧
      k.inst.idemOwners.get (member k.room.room id) = none) : RoomSynced c.clockSkew k := by
  have ht' := Table.size_eq_zero_iff.mp ht
  have hi' := Table.size_eq_zero_iff.mp hi
  refine ⟨⟨c, hc, rfl⟩, fun h => absurd h hm, ⟨?_, ?_, ?_, ?_, ?_, ?_⟩, ⟨?_, ?_, ?_⟩⟩
  · intro id t hid
    simp [ht'] at hid
  · intro id
    simp [ht', hsets]
  · intro id
    simp [ht', hsets]
  · intro id
    simp [ht', hsets]
  · have hcount := Table.count_le_size Ticket.isReady k.room.tickets
    omega
  · intro id hid
    rw [(howners id hid).1, (hsets id).1]
  · intro key s hkey
    simp [hsets] at hkey
  · intro key
    simp [hi', hsets]
  · intro key hkey
    rw [(howners key hkey).2, (hsets key).2.2.2]

theorem opened_synced {a : InitArgs} {n : Nat} {g : Installation} (h : EpochSynced db a.epoch)
    (hroom : k.room = db.room a.epoch a.room) (hinst : k.inst = db.inst a.epoch)
    (new : (db.room a.epoch a.room).config = none) (sound : holdUnsound k env = some g) :
    EpochSynced (db.set a.epoch a.room (openedKeys k env a n g)) a.epoch := by
  obtain ⟨hc, hschema, hepoch, hrooms, hv, hi, hvisitors, hidems⟩ :=
    openedInstallation_kept (n := n) (by rw [hinst]; exact h.installed) sound
  rw [hinst] at hrooms hv hi hvisitors hidems
  have hblank : db.room a.epoch a.room = {} := h.unopened a.room new
  have hsynced : RoomSynced a.config.clockSkew
      { k with inst := openedInstallation k env a n g, room := createRoom k.room a } := by
    apply RoomSynced.blank rfl
    · simp [createRoom]
    · simp [createRoom, hroom, hblank]
    · simp [createRoom, hroom, hblank]
    · intro id
      simp [createRoom, hroom, hblank]
    · rfl
    · intro id hid
      rw [hv, hi]
      exact h.unowned new hid
  have hothers : OthersKept a.room (db.inst a.epoch) (openedInstallation k env a n g) := by
    intro o _
    rw [hv, hi]
    exact ⟨rfl, rfl⟩
  unfold openedKeys
  dsimp only
  split
  · refine h.setRoom ⟨hc, hschema, hepoch, ⟨rfl, rfl, rfl⟩, hrooms, ⟨_, hsynced⟩, hothers, ?_, ?_⟩
    · rw [hvisitors, hv]
      exact h.visitors
    · rw [hidems, hi]
      exact h.idems
  · exact h.setRoom ⟨hc, hschema, hepoch, ⟨rfl, rfl, rfl⟩, hrooms,
      ⟨_, hsynced.congr rfl fun _ _ => ⟨rfl, rfl⟩⟩, hothers, rfl, rfl⟩

theorem upkeep_synced {u : Upkeep} (h : EpochSynced db e)
    (hm : UpkeepMove env e r (db.keys e r) u k') : EpochSynced (db.set e r k') e := by
  have hk : SameIndexes (db.inst e) (db.keys e r).inst := .refl _
  cases hm with
  | still => rwa [Db.set_keys]
  | held current schema holds =>
    have hg := h.installed_of_schema schema
    exact h.setSame rfl (fun _ => rfl) (hk.hold hg holds)
  | passed => exact h.setSame rfl (fun _ => rfl) hk
  | @opened config primary global notBefore _ _ _ accepted switched new sound =>
    exact opened_synced (a := ⟨config, primary, global, r, e, notBefore⟩) h rfl rfl new sound
  | @configured d _ _ fenced mode reason tickets idems desired opened =>
    have hg := h.installed_of_fenced fenced
    obtain ⟨hschema, hepoch⟩ := h.installed hg
    have hreg := (h.registered r).mpr opened
    obtain ⟨skew, hs⟩ := h.room_synced opened
    refine h.setRoom ⟨hg, hschema, hepoch, h.names r opened,
      (Finset.insert_eq_of_mem hreg).symm, ⟨_, RoomSynced.blank rfl ?_ tickets idems ?_ ?_ ?_⟩,
      fun _ _ => ⟨rfl, rfl⟩, h.visitors, h.idems⟩
    · rcases desired with hd | hd <;> simp [configured, hd]
    · exact hs.sets_of_empty tickets idems
    · have hcount := Table.count_le_size Ticket.isReady (db.room e r).tickets
      have hready : (db.room e r).ready = _ := hs.tickets.ready
      have hsize : (db.room e r).tickets.size = 0 := tickets
      simp only [configured, Db.keys_room] at hready ⊢
      omega
    · intro id hid
      have hsets := hs.sets_of_empty tickets idems id
      exact ⟨(hs.tickets.owners id hid).trans hsets.1, (hs.idems.owners id hid).trans hsets.2.2.2⟩
  | noted fenced mode safe unopened marks =>
    have hg := h.installed_of_fenced fenced
    refine h.setSame rfl (fun hc => ?_) ⟨.inr hg, rfl, rfl, rfl, rfl, rfl, rfl, id, id⟩
    rw [unopened hc]
    rfl
  | activated fenced mode safe opened =>
    have hg := h.installed_of_fenced fenced
    exact h.setSame rfl (fun hc => absurd hc opened) ⟨.inr hg, rfl, rfl, rfl, rfl, rfl, rfl, id, id⟩

theorem exec_synced (h : ∀ e, EpochSynced db e) (s : Step Call) (e : Nat) :
    EpochSynced (exec db s).2 e := by
  obtain ⟨k', hm, heq⟩ := exec_moved db s
  rw [heq]
  by_cases he : e = s.epoch
  · subst he
    cases hm with
    | upkeep call move => exact upkeep_synced (h s.epoch) move
    | command call move => exact command_synced (h s.epoch) move
    | read => rw [Db.set_keys]; exact h s.epoch
  · refine (h e).congr (fun r => Db.set_room_ne fun hr => he hr.1) ?_
    rw [Db.set_inst_ne he]
    exact .refl _

theorem run_synced {Allowed : QueueDb → Step Call → Prop} {es : List QueueEvent}
    (hr : Run exec Allowed {} es db) (e : Nat) : EpochSynced db e :=
  hr.invariant (I := fun db => ∀ e, EpochSynced db e) EpochSynced.empty
    (fun _ s h _ => exec_synced h s) e

end Step

structure RoomIndexed (c : Config) (room : QueueRoom) : Prop where
  expiry : ∀ id s, room.expiry.get id = some s ↔
    ∃ t, room.tickets.get id = some t ∧ s = score (t.deadline c.clockSkew)
  waiting : ∀ id s, room.waiting.get id = some s ↔
    ∃ t, room.tickets.get id = some t ∧ t.state = .waiting ∧ s = score t.sequence
  leases : ∀ id s, room.leases.get id = some s ↔
    ∃ t, room.tickets.get id = some t ∧ (t.state = .ready ∨ t.state = .admitted) ∧
      s = score (t.deadline c.clockSkew)
  ready : room.ready = room.tickets.count fun t => decide (t.state = .ready)
  idem : ∀ key, (∃ i, room.idem.get key = some i) ↔ ∃ s, room.idemExpiry.get key = some s

/-- `owners` is the disjoint union of `sets r` over `rooms`, with members `room:id`. -/
structure OwnersUnion (owners : ScoreSet) (rooms : Finset String) (sets : String → ScoreSet) :
    Prop where
  union : ∀ o s, owners.get o = some s ↔
    ∃ r ∈ rooms, ∃ id, o = member r id ∧ (sets r).get id = some s
  disjoint : ∀ r ∈ rooms, ∀ r' ∈ rooms, ∀ id id', (∃ s, (sets r).get id = some s) →
    (∃ s, (sets r').get id' = some s) → member r id = member r' id' → r = r' ∧ id = id'

variable {owners : ScoreSet} {rooms : Finset String} {sets : String → ScoreSet}

theorem OwnersUnion.size (h : OwnersUnion owners rooms sets) :
    owners.size = ∑ r ∈ rooms, (sets r).size := by
  refine Table.size_eq_sum h.disjoint fun o => ⟨?_, ?_⟩
  · rintro ⟨s, hs⟩
    obtain ⟨r, hr, id, rfl, hid⟩ := (h.union o s).mp hs
    exact ⟨r, hr, id, ⟨s, hid⟩, rfl⟩
  · rintro ⟨r, hr, id, ⟨s, hid⟩, rfl⟩
    exact ⟨s, (h.union _ s).mpr ⟨r, hr, id, rfl, hid⟩⟩

theorem OwnersUnion.of_hashed (hashed : ∀ r ∈ rooms, ∀ id s, (sets r).get id = some s → Hashed id)
    (owner : ∀ r ∈ rooms, ∀ id, Hashed id → owners.get (member r id) = (sets r).get id)
    (cover : ∀ o s, owners.get o = some s → ∃ r id, r ∈ rooms ∧ Hashed id ∧ o = member r id) :
    OwnersUnion owners rooms sets := by
  refine ⟨fun o s => ⟨fun ho => ?_, ?_⟩, ?_⟩
  · obtain ⟨r, id, hr, hid, rfl⟩ := cover o s ho
    exact ⟨r, hr, id, rfl, (owner r hr id hid).symm.trans ho⟩
  · rintro ⟨r, hr, id, rfl, hs⟩
    exact (owner r hr id (hashed r hr id s hs)).trans hs
  · rintro r hr r' hr' id id' ⟨s, hs⟩ ⟨s', hs'⟩ hm
    exact member_injective (hashed r hr id s hs) (hashed r' hr' id' s' hs') hm

theorem OwnersUnion.of_size_le (hashed : ∀ r ∈ rooms, ∀ id s, (sets r).get id = some s → Hashed id)
    (owner : ∀ r ∈ rooms, ∀ id s, (sets r).get id = some s → owners.get (member r id) = some s)
    (hle : owners.size ≤ ∑ r ∈ rooms, (sets r).size) : OwnersUnion owners rooms sets := by
  have disjoint : ∀ r ∈ rooms, ∀ r' ∈ rooms, ∀ id id', (∃ s, (sets r).get id = some s) →
      (∃ s, (sets r').get id' = some s) → member r id = member r' id' → r = r' ∧ id = id' := by
    rintro r hr r' hr' id id' ⟨s, hs⟩ ⟨s', hs'⟩ hm
    exact member_injective (hashed r hr id s hs) (hashed r' hr' id' s' hs') hm
  refine ⟨fun o s => ⟨fun ho => ?_, ?_⟩, disjoint⟩
  · obtain ⟨r, hr, id, ⟨s', hs'⟩, rfl⟩ := Table.tagged_of_size_le disjoint
      (fun r hr id s hs => ⟨s, owner r hr id s hs⟩) hle ho
    obtain rfl := Option.some.inj ((owner r hr id s' hs').symm.trans ho)
    exact ⟨r, hr, id, rfl, hs'⟩
  · rintro ⟨r, hr, id, rfl, hs⟩
    exact owner r hr id s hs

theorem RoomSynced.indexed {k : QueueKeys} {c : Config} (hs : RoomSynced c.clockSkew k) :
    RoomIndexed c k.room := by
  have ht := hs.tickets
  refine ⟨?_, ?_, ?_, ht.ready, ?_⟩
  · intro id s
    rw [ht.expiry, Option.map_eq_some_iff]
    simp only [Ticket.expiryScore, eq_comm]
  · intro id s
    rw [ht.waiting, Option.bind_eq_some_iff]
    simp only [Ticket.waitingScore, Option.ite_none_right_eq_some, Option.some.injEq,
      eq_comm (a := s)]
  · intro id s
    rw [ht.leases, Option.bind_eq_some_iff]
    have hstate : ∀ t : Ticket, (¬ t.state = .waiting) ↔ (t.state = .ready ∨ t.state = .admitted) := by
      intro t
      cases t.state <;> simp
    simp only [Ticket.leaseScore, Option.ite_none_left_eq_some, Option.some.injEq, hstate,
      eq_comm (a := s)]
  · intro key
    have hrows := hs.idems.rows key
    rw [← Option.isSome_iff_exists, ← Option.isSome_iff_exists, hrows]

section Owners

variable {db : QueueDb} {e : Nat} (h : EpochSynced db e)
include h

theorem EpochSynced.room_of_registered {r : String} (hr : r ∈ (db.inst e).rooms) :
    ∃ c, (db.room e r).config = some c ∧ (db.room e r).room = r ∧
      RoomSynced c.clockSkew (db.keys e r) := by
  have hopened := (h.registered r).mp hr
  obtain ⟨c, hc⟩ := Option.ne_none_iff_exists'.mp hopened
  exact ⟨c, hc, (h.names r hopened).1, h.synced r c hc⟩

theorem EpochSynced.visitors_union :
    OwnersUnion (db.inst e).visitorOwners (db.inst e).rooms fun r => (db.room e r).expiry := by
  refine .of_hashed ?_ ?_ h.visitorOwners
  · intro r hr id s hs
    obtain ⟨c, -, -, hsync⟩ := h.room_of_registered hr
    obtain ⟨t, ht, -⟩ := (hsync.indexed.expiry id s).mp hs
    exact (hsync.tickets.ids id t ht).2
  · intro r hr id hid
    obtain ⟨c, -, hname, hsync⟩ := h.room_of_registered hr
    simpa [hname] using hsync.tickets.owners id hid

theorem EpochSynced.idems_union :
    OwnersUnion (db.inst e).idemOwners (db.inst e).rooms fun r => (db.room e r).idemExpiry := by
  refine .of_hashed ?_ ?_ h.idemOwners
  · intro r hr id s hs
    obtain ⟨c, -, -, hsync⟩ := h.room_of_registered hr
    exact hsync.idems.keys id s hs
  · intro r hr id hid
    obtain ⟨c, -, hname, hsync⟩ := h.room_of_registered hr
    simpa [hname] using hsync.idems.owners id hid

end Owners

/-- After every run, in every epoch, the sets of every registered room are those
its rows determine, both owner sets are the disjoint unions over the rooms, and
the counters are their sizes. -/
theorem run_indexes {es : List QueueEvent} {db : QueueDb} (hr : QueueRun es db) (e : Nat) :
    (∀ r ∈ (db.inst e).rooms, ∃ c, (db.room e r).config = some c ∧ RoomIndexed c (db.room e r)) ∧
      OwnersUnion (db.inst e).visitorOwners (db.inst e).rooms (fun r => (db.room e r).expiry) ∧
      OwnersUnion (db.inst e).idemOwners (db.inst e).rooms (fun r => (db.room e r).idemExpiry) ∧
      (db.inst e).visitors = (db.inst e).visitorOwners.size ∧
      (db.inst e).idems = (db.inst e).idemOwners.size := by
  have h : EpochSynced db e := run_synced hr e
  refine ⟨fun r hr => ?_, h.visitors_union, h.idems_union, h.visitors, h.idems⟩
  obtain ⟨c, hc, -, hsync⟩ := h.room_of_registered hr
  exact ⟨c, hc, hsync.indexed⟩

def sampleConfig : Config where
  visitorCap := 4
  idempotencyCap := 4
  leaseCap := 2
  rate := 2
  idleTTL := 60000
  ticketTTL := 120000
  readyTTL := 30000
  admissionTTL := 60000
  idempotencyTTL := 600000
  clockSkew := 30000

theorem sampleConfig_valid : sampleConfig.Valid := by constructor <;> decide

def sampleId : String := "00112233445566778899aabbccddeeff00112233445566778899aabbccddeeff"

def sampleSteps : List (Step Call) :=
  let step (now : Nat) (call : Call) : Step Call := ⟨1, "room", ⟨now, "primary"⟩, call⟩
  let command (now : Nat) (op : Op) := step now (.command op "primary" 1)
  [step 1000000 (.upkeep (.init sampleConfig "primary" ⟨"lab", 4, 4⟩ 0)),
    command 1000001 (.configure ⟨sampleConfig, 1, 1, .auto⟩),
    command 1000002 (.join sampleId sampleId sampleId "replay"),
    command 1000003 (.promote 1),
    command 1000004 (.claim sampleId)]

theorem sampleSteps_wellFormed : ∀ s ∈ sampleSteps, ∀ _ : QueueDb, s.call.WellFormed := by
  simp [sampleSteps, Call.WellFormed, sampleConfig_valid]

def sampleDb : QueueDb := stateAfter exec {} sampleSteps

theorem sample_run : QueueRun (eventsOf exec {} sampleSteps) sampleDb :=
  run_of_inputs {} sampleSteps_wellFormed

theorem sample_indexes : (sampleDb.inst 1).rooms = {"room"} ∧ (sampleDb.inst 1).visitors = 1 ∧
    (sampleDb.inst 1).visitors = (sampleDb.inst 1).visitorOwners.size ∧
    ∃ c, (sampleDb.room 1 "room").config = some c ∧ RoomIndexed c (sampleDb.room 1 "room") := by
  obtain ⟨rooms, -, -, visitors, -⟩ := run_indexes sample_run 1
  have hrooms : (sampleDb.inst 1).rooms = {"room"} := by decide +kernel
  exact ⟨hrooms, by decide +kernel, visitors, rooms "room" (by simp [hrooms])⟩

end WaitingRoom.Queue
