import WaitingRoom.Control.Publication

/-!
# What an operation of Control does

One relation says what every operation can do to the rows, with its reads resolved:
a document that is read back is the one that was written. The histories of Control
are studied through it.
-/

namespace WaitingRoom.Control

set_option autoImplicit false

open Doc

section Reads

variable {h : Host} {s : Store}

theorem decodeExact_column {V : Type} {ofDoc : Doc → Option V} {j : Doc} {v : V}
    (hv : decodeExact ofDoc (h.column j) = some v) : ofDoc (reorder h.order j) = some v := by
  unfold decodeExact at hv
  split at hv
  · cases hv
  · rwa [Host.column, parse_print] at hv

theorem readConfig_eq {c : Config} (hc : s.config.Valid h.library) (hr : readConfig h s = some c) :
    c = s.config := by
  unfold readConfig at hr
  split at hr
  · cases hr
  · rename_i c' hc'
    have heq := decodeExact_column hc'
    rw [Config.ofDoc_reorder h.order_perm hc] at heq
    split at hr
    · rw [← Option.some.inj hr, Option.some.inj heq]
    · cases hr

theorem readDelivery_eq {d : Delivery} {g : Nat} (hd : s.delivery.Valid h.library)
    (hr : readDelivery h s = some (d, g)) : d = s.delivery ∧ g = s.generation := by
  unfold readDelivery at hr
  split at hr
  · cases hr
  · rename_i d' hd'
    have heq := decodeExact_column hd'
    rw [Delivery.ofDoc_reorder h.order_perm hd] at heq
    split at hr
    · obtain ⟨rfl, rfl⟩ := Prod.mk.inj (Option.some.inj hr)
      exact ⟨(Option.some.inj heq).symm, rfl⟩
    · cases hr

theorem readEvents_eq {events : Table String Event} {room : String} {list : List Event}
    (hr : readEvents events room = some list) : list = roomEvents events room := by
  unfold readEvents at hr
  split at hr
  · cases hr
  · exact (Option.some.inj hr).symm

end Reads

section Sign

variable {h : Host} {svc : Service} {s s' : Store} {d : Delivery} {g : Nat} {now : ℤ}

theorem sign_eq_ok (hs : sign h svc s d g now = .ok s') :
    d.Valid h.library ∧ (g + 1 : ℤ) < maxInteger ∧
      ∃ raw, Trust.sign h.trust svc.key (snapshotOf svc d g now) = some raw ∧
        s' = { s with
          delivery := d, generation := g + 1, published := some ⟨raw, svc.kid, now, now + day⟩ } := by
  unfold sign at hs
  split at hs
  · cases hs
  · rename_i hd
    split at hs
    · cases hs
    · rename_i raw hraw
      split at hs
      · cases hs
      · rename_i hc
        push Not at hc
        exact ⟨not_not.mp hd, hc.1, raw, hraw, (Except.ok.inj hs).symm⟩

end Sign

structure Wellformed (h : Host) (s : Store) : Prop where
  config : s.config.Valid h.library
  delivery : s.delivery.Valid h.library

inductive Does (h : Host) (s : Store) : Op → Store → Prop
  | nothing (op : Op) : Does h s op s
  | drafted {ifMatch : String} {body : Option Config} {c : Config} (valid : c.Valid h.library)
      (fits : c.FitsDeliveryBudget) (next : c.revision = s.config.revision + 1)
      (profile : c.profile = s.config.profile) (bytes : c.bytes.length ≤ maxConfigBytes) :
      Does h s (.replaceDraft ifMatch body) { s with config := c, revision := c.revision }
  | published {svc : Service} {method : Method} {raw ifMatch : String} {now : ℤ}
      {runtimes : List RoomRuntime} {s' : Store}
      (keeps : keepsRooms s.config.rooms s.delivery.config.rooms = none)
      (next : nextRuntimes s.delivery s.config.rooms = some runtimes)
      (signed : sign h svc s ⟨s.config, runtimes⟩ s.generation now = .ok s') :
      Does h s (.publish svc method raw ifMatch now) s'
  | epoch {svc : Service} {id : String} {method : Method} {body : Option RuntimeCommand}
      {ifMatch : String} {now : ℤ} {s' : Store}
      (signed : sign h svc { s with events := pauseEvents (fun _ => true) s.events }
        (s.delivery.nextEpoch (unixMilli (now + 3630000000))) s.generation now = .ok s') :
      Does h s (.operate svc id method body ifMatch now) s'
  | operated {svc : Service} {id : String} {method : Method} {command : RuntimeCommand}
      {ifMatch : String} {now : ℤ} {room : Room} {runtime next : Runtime} {s' : Store}
      (found : s.delivery.find id = some (room, runtime)) (active : room.active = true)
      (applied : command.action.apply s.config.profile runtime command.limits = .ok next)
      (signed : sign h svc { s with events := pauseEvents (fun e => e.roomId == id) s.events }
        (s.delivery.setRuntime id { next with
          eventState :=
            if 0 < s.events.count (fun e => decide (e.roomId = id ∧ e.Live)) then .pausedByOverride
            else next.eventState
          revision := next.revision + 1 }) s.generation now = .ok s') :
      Does h s (.operate svc id method (some command) ifMatch now) s'
  | eventChanged {svc : Service} {roomId eventId : String} {method : Method} {body : EventBody}
      {ifMatch fresh : String} {now : ℤ} {id : String} {room : Room} {runtime : Runtime}
      {next : Event} {events : Table String Event} {s' : Store}
      (roomOf : if eventId = "" then id = roomId else (s.events.get eventId).map Event.roomId = some id)
      (found : s.delivery.find id = some (room, runtime))
      (notClosed : eventId ≠ "" →
        ((roomEvents s.events id).find? fun e => e.id == eventId).any (fun e => decide e.Open) = true)
      (asked : askedEvent room eventId fresh method body (roomEvents s.events id)
        ((roomEvents s.events id).find? fun e => e.id == eventId) now = .ok next)
      (upserted : upsertEvent s.events next = some events)
      (signed : sign h svc { s with events := events } (s.delivery.setRuntime id { runtime with
        eventState := eventStateOfRoom .none (roomEvents events id)
        revision := runtime.revision + 1 }) s.generation now = .ok s') :
      Does h s (.changeEvent svc roomId eventId method body ifMatch fresh now) s'
  | ticked {svc : Service} {now viewed : ℤ} {events : Table String Event}
      (rooms : tickRooms now (fun room runtime =>
        decide (SafeDrain s s.generation viewed room runtime)) s.delivery.rows s.events =
          some (s.delivery.runtimes, events)) :
      Does h s (.tick svc now viewed) { s with events := events }
  | moved {svc : Service} {now viewed : ℤ} {events : Table String Event}
      {runtimes : List RoomRuntime} {s' : Store}
      (rooms : tickRooms now (fun room runtime =>
        decide (SafeDrain s s.generation viewed room runtime)) s.delivery.rows s.events =
          some (runtimes, events))
      (signed : sign h svc { s with events := events } { s.delivery with runtimes := runtimes }
        s.generation now = .ok s') :
      Does h s (.tick svc now viewed) s'
  | renewed {svc : Service} {now : ℤ} {s' : Store}
      (signed : sign h svc s s.delivery s.generation now = .ok s') : Does h s (.refresh svc now) s'
  | recovered {svc : Service} {request : Trust.ClockRecovery} {now : ℤ} {s' : Store}
      (signed : sign h svc s s.delivery s.generation now = .ok s') :
      Does h s (.recoverClock svc request now) s'
  | acknowledged {svc : Service} {node : NodeId} {ack : NodeAck} {now : ℤ}
      (metrics : List.Forall₂ (Acceptable s.delivery node) s.delivery.config.rooms ack.rooms) :
      Does h s (.acknowledge svc node ack now) { s with
        nodes := fun n => if n = node then some ⟨s.generation, now, ack.rooms⟩ else s.nodes n }

theorem Config.Valid.withRevision {x : Library} {c : Config} (hc : c.Valid x) {r : ℤ} (h₀ : 0 ≤ r)
    (h₁ : r < maxInteger) : ({ c with revision := r } : Config).Valid x := by
  unfold Config.Valid Config.validate at hc ⊢
  split at hc
  · cases hc
  · rename_i hn
    push Not at hn
    rw [if_neg (by push Not; exact ⟨hn.1, h₀, h₁, hn.2.2.2⟩)]
    exact hc

section Inversion

variable {h : Host} {s : Store} (hw : Wellformed h s)
include hw

theorem replaceDraft_does (ifMatch : String) (body : Option Config) :
    Does h s (.replaceDraft ifMatch body) (replaceDraft h s ifMatch body).2 := by
  unfold replaceDraft
  split
  · exact .nothing _
  rename_i current hread
  obtain rfl := readConfig_eq hw.config hread
  split
  · exact .nothing _
  split
  · exact .nothing _
  rename_i next
  split
  · exact .nothing _
  rename_i hsame
  push Not at hsame
  split
  · exact .nothing _
  dsimp only
  split
  · exact .nothing _
  · exact .nothing _
  rename_i hvalid
  split
  · exact .nothing _
  rename_i hfits
  split
  · exact .nothing _
  rename_i hbytes
  split
  · exact .nothing _
  rename_i hrev
  have hnext := (Config.Valid.sound hvalid).revision
  dsimp only at hnext
  exact .drafted (Config.Valid.withRevision hvalid (by omega) (by omega)) (not_not.mp hfits)
    (by rw [hsame.1]) hsame.2.1 (Nat.not_lt.mp hbytes)

theorem publish_does (svc : Service) (method : Method) (raw ifMatch : String) (now : ℤ) :
    Does h s (.publish svc method raw ifMatch now) (publish h svc s method raw ifMatch now).2 := by
  unfold publish
  split
  · exact .nothing _
  rename_i current hread
  obtain rfl := readConfig_eq hw.config hread
  split
  · exact .nothing _
  split
  · exact .nothing _
  split
  · exact .nothing _
  rename_i hdelivery
  obtain ⟨rfl, rfl⟩ := readDelivery_eq hw.delivery hdelivery
  split
  · exact .nothing _
  rename_i hkeeps
  split
  · exact .nothing _
  rename_i hnext
  split
  · exact .nothing _
  · exact .nothing _
  · rename_i hsigned
    exact .published hkeeps hnext hsigned

theorem operate_does (svc : Service) (id : String) (method : Method) (body : Option RuntimeCommand)
    (ifMatch : String) (now : ℤ) :
    Does h s (.operate svc id method body ifMatch now)
      (operate h svc s id method body ifMatch now).2 := by
  unfold operate
  split
  swap
  · exact .nothing _
  rename_i command
  split
  · exact .nothing _
  rename_i current hread
  obtain rfl := readConfig_eq hw.config hread
  split
  · exact .nothing _
  rename_i hdelivery
  obtain ⟨rfl, rfl⟩ := readDelivery_eq hw.delivery hdelivery
  split
  · exact .nothing _
  rename_i room runtime hfound
  split
  · exact .nothing _
  split
  · unfold newEpoch
    split
    · exact .nothing _
    split
    · exact .nothing _
    split
    · exact .nothing _
    split
    · exact .nothing _
    split
    · exact .nothing _
    dsimp only
    split
    · exact .nothing _
    rename_i hsigned
    split
    · exact .nothing _
    · exact .epoch hsigned
  split
  · exact .nothing _
  split
  · exact .nothing _
  rename_i hactive
  split
  · exact .nothing _
  split
  · exact .nothing _
  rename_i happlied
  dsimp only
  split
  · exact .nothing _
  · rename_i hsigned
    exact .operated hfound (by simpa using hactive) happlied hsigned

theorem changeEvent_does (svc : Service) (roomId eventId : String) (method : Method)
    (body : EventBody) (ifMatch fresh : String) (now : ℤ) :
    Does h s (.changeEvent svc roomId eventId method body ifMatch fresh now)
      (changeEvent h svc s roomId eventId method body ifMatch fresh now).2 := by
  unfold changeEvent
  split
  · exact .nothing _
  split
  · exact .nothing _
  split
  · exact .nothing _
  rename_i hdelivery
  obtain ⟨rfl, rfl⟩ := readDelivery_eq hw.delivery hdelivery
  dsimp only
  split
  · exact .nothing _
  rename_i id hid
  split
  · exact .nothing _
  rename_i room runtime hfound
  split
  · exact .nothing _
  split
  · exact .nothing _
  rename_i events hevents
  obtain rfl := readEvents_eq hevents
  split
  · exact .nothing _
  rename_i hopen
  split
  · exact .nothing _
  rename_i next hasked
  split
  · exact .nothing _
  rename_i table hupserted
  split
  · exact .nothing _
  rename_i events' hevents'
  obtain rfl := readEvents_eq hevents'
  split
  · exact .nothing _
  rename_i hsigned
  refine .eventChanged ?_ hfound (fun hne => ?_) hasked hupserted hsigned
  · split at hid
    · rename_i he
      rw [if_pos he]
      exact (Option.some.inj hid).symm
    · rename_i he
      rw [if_neg he]
      exact hid
  · by_contra hclosed
    exact hopen ⟨hne, hclosed⟩

theorem tick_does (svc : Service) (now viewed : ℤ) :
    Does h s (.tick svc now viewed) (tick h svc s now viewed).2 := by
  unfold tick
  split
  · exact .nothing _
  split
  · exact .nothing _
  rename_i hdelivery
  obtain ⟨rfl, rfl⟩ := readDelivery_eq hw.delivery hdelivery
  dsimp only
  split
  · exact .nothing _
  rename_i runtimes events hrooms
  split
  · rename_i hsame
    rw [hsame] at hrooms
    exact .ticked hrooms
  split
  · exact .nothing _
  · rename_i hsigned
    exact .moved hrooms hsigned

theorem refresh_does (svc : Service) (now : ℤ) :
    Does h s (.refresh svc now) (refresh h svc s now).2 := by
  unfold refresh
  split
  · exact .nothing _
  split
  · exact .nothing _
  rename_i hdelivery
  obtain ⟨rfl, rfl⟩ := readDelivery_eq hw.delivery hdelivery
  have hrenewed : ∀ s', sign h svc s s.delivery s.generation now = .ok s' →
      Does h s (.refresh svc now) s' := fun _ hsigned => .renewed hsigned
  dsimp only
  split
  · split
    · exact .nothing _
    · exact hrenewed _ (by assumption)
  split
  · exact .nothing _
  split
  · exact .nothing _
  split
  · exact .nothing _
  · exact hrenewed _ (by assumption)

theorem recoverClock_does (svc : Service) (request : Trust.ClockRecovery) (now : ℤ) :
    Does h s (.recoverClock svc request now) (recoverClock h svc s request now).2 := by
  unfold recoverClock
  split
  · exact .nothing _
  split
  · exact .nothing _
  split
  · exact .nothing _
  rename_i hdelivery
  obtain ⟨rfl, rfl⟩ := readDelivery_eq hw.delivery hdelivery
  split
  · exact .nothing _
  split
  · exact .nothing _
  split
  · exact .nothing _
  split
  · exact .nothing _
  split
  · exact .nothing _
  rename_i hsigned
  split
  · exact .recovered hsigned
  · exact .recovered hsigned

theorem acknowledge_does (svc : Service) (node : NodeId) (ack : NodeAck) (now : ℤ) :
    Does h s (.acknowledge svc node ack now) (acknowledge h svc s node ack now).2 := by
  unfold acknowledge
  split
  · exact .nothing _
  split
  · exact .nothing _
  rename_i hdelivery
  obtain ⟨rfl, rfl⟩ := readDelivery_eq hw.delivery hdelivery
  split
  · exact .nothing _
  split
  · exact .nothing _
  split
  · exact .nothing _
  split
  · exact .nothing _
  rename_i hmetrics
  dsimp only
  split
  · exact .nothing _
  · exact .acknowledged (not_not.mp hmetrics)

theorem exec_does (op : Op) : Does h s op (exec h s op).2 := by
  cases op with
  | replaceDraft => exact replaceDraft_does hw ..
  | publish => exact publish_does hw ..
  | operate => exact operate_does hw ..
  | changeEvent => exact changeEvent_does hw ..
  | tick => exact tick_does hw ..
  | refresh => exact refresh_does hw ..
  | recoverClock => exact recoverClock_does hw ..
  | acknowledge => exact acknowledge_does hw ..

end Inversion

end WaitingRoom.Control
