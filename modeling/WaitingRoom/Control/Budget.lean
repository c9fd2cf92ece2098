import WaitingRoom.Control.Effect

/-!
# The size of the documents

A draft is admitted by the size of its compact text with the largest runtimes that
its rooms can come to have; a document is read back from the text of its column,
which has a space after every colon and comma. The reserve for the runtimes covers
the spaces of a configuration. With the sizes, requests can be followed without
their texts.
-/

namespace WaitingRoom.Control

set_option autoImplicit false

open Doc
open Queue (RoomMode)

section Reads

variable {h : Host} {s : Store}

theorem decodeExact_column_of_size {V : Type} {ofDoc : Doc → Option V} {j : Doc}
    (h₀ : 0 < size spaced j) (h₁ : size spaced j ≤ maxConfigBytes) :
    decodeExact ofDoc (h.column j) = ofDoc (reorder h.order j) := by
  have hsize : textSize (h.column j) = size spaced j := by
    rw [Host.column, textSize_print, size_reorder h.order_perm]
  unfold decodeExact
  rw [hsize, if_neg (by omega), Host.column, parse_print]

theorem decodeExact_column_of_lt {V : Type} {ofDoc : Doc → Option V} {j : Doc}
    (h₁ : maxConfigBytes < size spaced j) : decodeExact ofDoc (h.column j) = none := by
  have hsize : textSize (h.column j) = size spaced j := by
    rw [Host.column, textSize_print, size_reorder h.order_perm]
  unfold decodeExact
  rw [hsize, if_pos (.inr h₁)]

theorem size_obj_pos (y : Style) (fs : List (String × Doc)) : 0 < size y (.obj fs) := by
  rw [size]
  omega

theorem readConfig_of_size (hc : s.config.Valid h.library) (hr : s.revision = s.config.revision)
    (hs : size spaced s.config.toDoc ≤ maxConfigBytes) : readConfig h s = some s.config := by
  have hpos : 0 < size spaced s.config.toDoc := size_obj_pos _ _
  unfold readConfig
  rw [decodeExact_column_of_size hpos hs, Config.ofDoc_reorder h.order_perm hc]
  dsimp only
  rw [if_pos ⟨hc, hr.symm⟩]

theorem readDelivery_of_size (hd : s.delivery.Valid h.library)
    (hs : size spaced s.delivery.toDoc ≤ maxConfigBytes) :
    readDelivery h s = some (s.delivery, s.generation) := by
  have hpos : 0 < size spaced s.delivery.toDoc := size_obj_pos _ _
  unfold readDelivery
  rw [decodeExact_column_of_size hpos hs, Delivery.ofDoc_reorder h.order_perm hd]
  dsimp only
  rw [if_pos hd]

theorem readDelivery_of_lt (hs : maxConfigBytes < size spaced s.delivery.toDoc) :
    readDelivery h s = none := by
  unfold readDelivery
  rw [decodeExact_column_of_lt hs]

end Reads

section Separators

theorem separators_strings (ss : List String) : separatorsItems (ss.map Doc.str) = 0 := by
  induction ss with
  | nil => rw [List.map_nil, separatorsItems]
  | cons s ss ih => rw [List.map_cons, separatorsItems, separators, ih]

theorem separators_theme (t : Theme) : separators (.obj t.fields) ≤ 13 := by
  unfold Theme.fields
  split <;> simp [separators, separatorsFields]

theorem separators_room {x : Library} {r : Room} {profile : String} (hr : r.Valid x profile) :
    separators r.toDoc ≤ 110 := by
  have ht := separators_theme r.theme
  have hp := hr.protects
  have he := hr.excludes
  simp only [Room.toDoc, Room.fields, QueuePolicy.fields, Limits.fields, separators,
    separatorsFields, separators_strings, List.length_cons, List.length_nil, List.length_map,
    Nat.zero_add, Nat.add_zero, Nat.reduceAdd, Nat.reduceSub] at ht ⊢
  omega

theorem separators_rooms {x : Library} {rooms : List Room} {profile : String}
    (hr : ∀ r ∈ rooms, r.Valid x profile) :
    separatorsItems (rooms.map Room.toDoc) ≤ 110 * rooms.length := by
  induction rooms with
  | nil => rw [List.map_nil, separatorsItems]; exact Nat.zero_le _
  | cons r rooms ih =>
    have h₁ := separators_room (hr r List.mem_cons_self)
    have h₂ := ih fun r hr' => hr r (List.mem_cons_of_mem _ hr')
    rw [List.map_cons, separatorsItems, List.length_cons]
    omega

theorem separators_config {x : Library} {c : Config} (hc : c.Valid x) :
    separators c.toDoc ≤ 111 * c.rooms.length + 9 := by
  have hr := separators_rooms hc.sound.rooms
  simp only [Config.toDoc, Config.fields, separators, separatorsFields, List.length_cons,
    List.length_nil, List.length_map]
  omega

end Separators

section Worst

theorem textSize_revision_le {n : ℤ} (h₀ : 0 ≤ n) (hn : n < maxInteger) :
    textSize (printInt n) ≤ 16 :=
  textSize_printInt_le h₀ (by decide) (lt_trans hn (by decide))

theorem textSize_worst_revision : textSize (printInt 9007199254740989) = 16 := by decide

theorem size_config_le {x : Library} {c : Config} (hc : c.Valid x) (y : Style) :
    size y c.toDoc ≤ size y c.worstDelivery.config.toDoc := by
  have hrev := hc.sound.revision
  have h₁ := textSize_revision_le hrev.1 hrev.2
  have h₂ := textSize_worst_revision
  simp only [Config.worstDelivery, Config.toDoc, Config.fields, size, sizeFields, List.length_cons,
    List.length_nil]
  omega

theorem size_worstRuntime : 111 ≤ size compact (.obj worstRuntime.fields) := by decide +kernel

theorem sizeItems_worst (rooms : List Room) :
    111 * rooms.length ≤
      sizeItems compact ((rooms.map fun r => ⟨r.id, worstRuntime⟩).map RoomRuntime.toDoc) := by
  induction rooms with
  | nil => exact Nat.zero_le _
  | cons r rooms ih =>
    have h₁ := size_worstRuntime
    have h₂ : size compact (.obj worstRuntime.fields) ≤
        size compact (RoomRuntime.toDoc ⟨r.id, worstRuntime⟩) := by
      simp only [RoomRuntime.toDoc, RoomRuntime.fields, size, sizeFields]
      omega
    rw [List.map_cons, List.map_cons, sizeItems, List.length_cons]
    generalize size compact (.obj worstRuntime.fields) = n at h₁ h₂
    omega

theorem size_spaced_config {x : Library} {c : Config} (hc : c.Valid x)
    (hf : c.FitsDeliveryBudget) : size spaced c.toDoc ≤ maxConfigBytes := by
  have h₁ := size_spaced_le c.toDoc
  have h₂ := separators_config hc
  have h₃ := size_config_le hc compact
  have h₄ : 111 * c.rooms.length ≤
      sizeItems compact (c.worstDelivery.runtimes.map RoomRuntime.toDoc) := sizeItems_worst c.rooms
  have h₅ := hf.1
  have hk₁ : quoteSize compact "config" = 8 := by decide
  have hk₂ : quoteSize compact "runtimes" = 10 := by decide
  have hd : size compact c.worstDelivery.toDoc = size compact c.worstDelivery.config.toDoc +
      sizeItems compact (c.worstDelivery.runtimes.map RoomRuntime.toDoc) +
        (c.rooms.length - 1) + 25 := by
    simp only [Delivery.toDoc, Delivery.fields, size, sizeFields, textSize_gap.2, hk₁, hk₂,
      List.length_cons, List.length_nil, List.length_map, Config.worstDelivery]
    omega
  omega

theorem quoteSize_replicate (y : Style) (n : Nat) (c : Char) :
    quoteSize y (String.ofList (List.replicate n c)) = n * textSize (y.escape c) + 2 := by
  rw [quoteSize, String.toList_ofList, List.map_replicate, List.sum_replicate_nat]

theorem size_envelopeDoc (s : Trust.Snapshot) (j : Doc) (signature : String) :
    size compact (envelopeDoc (snapshotDoc s j) signature) =
      textSize (printInt s.schemaVersion) + quoteSize compact s.installation +
        textSize (printInt s.generation) + textSize (printInt s.revision) +
        textSize (printInt s.issuedAt) + textSize (printInt s.expiresAt) +
        quoteSize compact s.kid + size compact j + quoteSize compact signature + 129 := by
  have hkeys : quoteSize compact "schemaVersion" = 15 ∧ quoteSize compact "installation" = 14 ∧
      quoteSize compact "generation" = 12 ∧ quoteSize compact "revision" = 10 ∧
      quoteSize compact "issuedAt" = 10 ∧ quoteSize compact "expiresAt" = 11 ∧
      quoteSize compact "kid" = 5 ∧ quoteSize compact "payload" = 9 ∧
      quoteSize compact "snapshot" = 10 ∧ quoteSize compact "signature" = 11 := by decide +kernel
  simp only [envelopeDoc, snapshotDoc, size, sizeFields, hkeys, textSize_gap.2, List.length_cons,
    List.length_nil]
  clear hkeys
  omega

theorem size_worstEnvelope (j : Doc) : size compact (envelopeDoc (snapshotDoc worstSnapshot j)
    (String.ofList (List.replicate 86 's'))) = size compact j + 438 := by
  have hchars : textSize (compact.escape 'i') = 1 ∧ textSize (compact.escape 'k') = 1 ∧
      textSize (compact.escape 's') = 1 := by decide
  have hinstallation : quoteSize compact worstSnapshot.installation = 82 := by
    rw [worstSnapshot, quoteSize_replicate, hchars.1]
  have hkid : quoteSize compact worstSnapshot.kid = 82 := by
    rw [worstSnapshot, quoteSize_replicate, hchars.2.1]
  have hsignature : quoteSize compact (String.ofList (List.replicate 86 's')) = 88 := by
    rw [quoteSize_replicate, hchars.2.2]
  have hnums : textSize (printInt worstSnapshot.schemaVersion) = 1 ∧
      textSize (printInt worstSnapshot.generation) = 16 ∧
      textSize (printInt worstSnapshot.revision) = 16 ∧
      textSize (printInt worstSnapshot.issuedAt) = 12 ∧
      textSize (printInt worstSnapshot.expiresAt) = 12 := by decide +kernel
  obtain ⟨h₁, h₂, h₃, h₄, h₅⟩ := hnums
  rw [size_envelopeDoc, hinstallation, hkid, hsignature, h₁, h₂, h₃, h₄, h₅]
  generalize size compact j = n
  omega

theorem fits_of_size {c : Config}
    (h : size compact c.worstDelivery.toDoc + 438 ≤ maxConfigBytes) : c.FitsDeliveryBudget := by
  have h₁ := size_worstEnvelope c.worstDelivery.toDoc
  refine ⟨by omega, ?_⟩
  rw [show Trust.maxSnapshotBytes = maxConfigBytes from rfl]
  omega

end Worst

section Delivery

def Written (y : Style) : Prop := y = compact ∨ y = spaced

theorem quoteSize_mode {y : Style} (hy : Written y) (m : RoomMode) :
    quoteSize y (modeText m) ≤ quoteSize y (modeText .recoveryHold) := by
  rcases hy with rfl | rfl <;> cases m <;> decide

theorem quoteSize_eventState {y : Style} (hy : Written y) (e : EventState) :
    quoteSize y e.text ≤ quoteSize y EventState.pausedByOverride.text := by
  rcases hy with rfl | rfl <;> cases e <;> decide

theorem size_limits {l : Limits} {profile : String} (hl : l.Valid profile) (y : Style) :
    size y (.obj l.fields) ≤ size y (.obj worstRuntime.limits.fields) := by
  obtain ⟨hcaps, h₁, h₂, h₃, h₄⟩ := hl
  have hleases : l.maxActiveAdmissionLeases < 10 ^ 6 := by omega
  have hrate : l.admissionsPerMinute < 10 ^ 5 := by omega
  have httl : l.admissionTtlSeconds < 10 ^ 4 := by omega
  have s₁ := textSize_printInt_le (by omega) (by decide) hleases
  have s₂ := textSize_printInt_le (by omega) (by decide) hrate
  have s₃ := textSize_printInt_le (by omega) (by decide) httl
  have w₁ : textSize (printInt 100000) = 6 := by decide
  have w₂ : textSize (printInt 60000) = 5 := by decide
  have w₃ : textSize (printInt 3600) = 4 := by decide
  simp only [worstRuntime, Limits.fields, size, sizeFields, List.length_cons, List.length_nil]
  omega

theorem size_runtime_le {y : Style} (hy : Written y) {r : Runtime} {profile : String}
    (hr : r.Valid profile) : size y (.obj r.fields) ≤ size y (.obj worstRuntime.fields) := by
  obtain ⟨huntil, hrev, hepoch, hl, _⟩ := hr
  have s₁ := textSize_revision_le (by omega) hrev.2
  have s₂ := textSize_revision_le (by omega) hepoch.2
  have s₃ := textSize_revision_le huntil.1 huntil.2
  have s₄ := quoteSize_mode hy r.mode
  have s₅ := quoteSize_eventState hy r.eventState
  have s₆ := size_limits hl y
  have w := textSize_worst_revision
  have hworst : size y (.obj worstRuntime.fields) =
      size y (.obj ([("revision", .num 9007199254740989),
        ("mode", .str (modeText .recoveryHold)), ("limits", .obj worstRuntime.limits.fields),
        ("epoch", .num 9007199254740989), ("eventState", .str EventState.pausedByOverride.text),
        ("recoveryUntil", .num 9007199254740989)])) := rfl
  rw [hworst]
  unfold Runtime.fields
  split <;> simp only [size, sizeFields, List.length_cons, List.length_nil,
    List.append_nil, List.cons_append, List.nil_append] at s₆ ⊢ <;> omega

theorem sizeItems_runtimes {y : Style} (hy : Written y) {profile : String} {rooms : List Room}
    {runtimes : List RoomRuntime} (ha : List.Forall₂ (Aligned profile) rooms runtimes) :
    sizeItems y (runtimes.map RoomRuntime.toDoc) ≤
      sizeItems y ((rooms.map fun r => ⟨r.id, worstRuntime⟩).map RoomRuntime.toDoc) := by
  induction ha with
  | nil => exact Nat.le_refl _
  | @cons r v rooms runtimes hrow _ ih =>
    have hr := size_runtime_le hy hrow.2.1
    have hv : size y v.toDoc ≤ size y (RoomRuntime.toDoc ⟨r.id, worstRuntime⟩) := by
      simp only [RoomRuntime.toDoc, RoomRuntime.fields, hrow.1, size, sizeFields, List.length_cons,
        List.length_nil] at hr ⊢
      omega
    simp only [List.map_cons, sizeItems] at ih ⊢
    omega

/-- A delivery is no larger than the one that the budget of its configuration is
counted with, in the text of its column as well. -/
theorem size_delivery_le {y : Style} (hy : Written y) {x : Library} {d : Delivery}
    (hd : d.Valid x) : size y d.toDoc ≤ size y d.config.worstDelivery.toDoc := by
  have h₁ := size_config_le hd.1 y
  have h₂ := sizeItems_runtimes hy hd.2
  have h₃ := hd.length
  simp only [Delivery.toDoc, Delivery.fields, Config.worstDelivery, size, sizeFields,
    List.length_cons, List.length_nil, List.length_map, h₃] at h₁ h₂ ⊢
  omega

end Delivery

section Empty

theorem textSize_escapeControl_le (c : Char) : textSize (escapeControl c) ≤ 6 := by
  have hhex : ∀ n < 32, textSize ('\\' :: 'u' :: hex4 n) ≤ 6 := by decide
  unfold escapeControl
  split
  · decide
  split
  · decide
  split
  · decide
  split
  · decide
  split
  · decide
  split
  · decide
  split
  · decide
  split
  · rename_i hc
    exact hhex _ hc
  · have := Char.utf8Size_le_four c
    rw [textSize_cons, textSize_nil]
    omega

theorem quoteSize_spaced_bound (s : String) : quoteSize spaced s ≤ 6 * s.toList.length + 2 := by
  have hsum : ∀ cs : List Char,
      (cs.map fun c => textSize (escapeControl c)).sum ≤ 6 * cs.length := by
    intro cs
    induction cs with
    | nil => exact Nat.le_refl _
    | cons c cs ih =>
      have hc := textSize_escapeControl_le c
      simp only [List.map_cons, List.sum_cons, List.length_cons]
      omega
  exact Nat.add_le_add_right (hsum s.toList) 2

theorem size_empty_config {x : Library} {c : Config} (hc : c.Valid x) (hr : c.rooms = []) :
    size spaced c.toDoc ≤ maxConfigBytes := by
  have hs := hc.sound
  have hregion : c.regionId.toList.length ≤ 63 := by
    have hp := hs.region
    unfold RegionPattern at hp
    cases hcs : c.regionId.toList with
    | nil => exact Nat.zero_le _
    | cons a cs =>
      rw [hcs] at hp
      have := hp.2.1
      rw [List.length_cons]
      omega
  have h₁ := quoteSize_spaced_bound c.regionId
  have h₂ : quoteSize spaced c.profile ≤ 17 := by
    rcases hs.profile with hp | hp <;> rw [hp] <;> decide
  have h₃ := textSize_revision_le hs.revision.1 hs.revision.2
  have h₄ : textSize (printInt c.schemaVersion) = 1 := by rw [hs.schemaVersion]; decide
  have hk : quoteSize spaced "schemaVersion" + quoteSize spaced "revision" +
      quoteSize spaced "profile" + quoteSize spaced "regionId" + quoteSize spaced "rooms" = 51 := by
    decide
  unfold maxConfigBytes
  simp only [Config.toDoc, Config.fields, hr, List.map_nil, size, sizeFields, sizeItems,
    textSize_gap.1, List.length_cons, List.length_nil]
  omega

end Empty

section Bytes

theorem Config.length_bytes (c : Config) : c.bytes.length = size compact c.toDoc := by
  rw [Config.bytes, length_utf8, textSize_print]

theorem Delivery.length_bytes (d : Delivery) : d.bytes.length = size compact d.toDoc := by
  rw [Delivery.bytes, length_utf8, textSize_print]

theorem Delivery.head_bytes (d : Delivery) : d.bytes.head? = some 123 := by
  rw [Delivery.bytes, Delivery.toDoc, Delivery.fields, print, utf8, List.flatMap_cons]
  rfl

theorem Delivery.one_lt_length_bytes (d : Delivery) : 1 < d.bytes.length := by
  rw [d.length_bytes, Delivery.toDoc, size]
  omega

theorem unix_add_day (now : ℤ) : unix (now + day) = unix now + 86400 := by
  unfold unix day
  omega

theorem snapshotOf_structural {h : Host} {svc : Service} {d : Delivery} {g : Nat} {now : ℤ}
    (hd : d.Valid h.library) (hinstallation : Trust.Safe svc.installation) (hkid : Trust.Safe svc.kid)
    (hg : (g + 1 : ℤ) < maxInteger) (hnow : 0 < unix now) (hlater : unix now ≤ 253402214399)
    (hvalid : h.trust.jsonValid d.bytes = true) : (snapshotOf svc d g now).Structural h.trust := by
  have hrev := hd.1.sound.revision
  unfold maxInteger at hg hrev
  refine ⟨rfl, hinstallation, hkid, ⟨Nat.succ_pos _, ?_⟩, ?_, ⟨hnow, hlater⟩, ?_,
    d.one_lt_length_bytes, d.head_bytes, hvalid⟩
  · change g + 1 ≤ Trust.maxInteger
    unfold Trust.maxInteger
    omega
  · change d.config.revision.toNat ≤ Trust.maxInteger
    unfold Trust.maxInteger
    omega
  · have hday := unix_add_day now
    change unix now < unix (now + day) ∧ unix (now + day) - unix now ≤ 86400
    omega

theorem sign_of_trust {h : Host} {svc : Service} {s : Store} {d : Delivery} {g : Nat} {now : ℤ}
    {raw : Trust.Bytes} (hd : d.Valid h.library) (hg : (g + 1 : ℤ) < maxInteger)
    (hraw : Trust.sign h.trust svc.key (snapshotOf svc d g now) = some raw)
    (h₀ : 0 < raw.length) (h₁ : raw.length ≤ maxConfigBytes) :
    sign h svc s d g now = .ok { s with
      delivery := d, generation := g + 1, published := some ⟨raw, svc.kid, now, now + day⟩ } := by
  unfold sign
  rw [if_neg (not_not.mpr hd), hraw]
  dsimp only
  rw [if_neg]
  push Not
  exact ⟨hg, by omega, h₁⟩

end Bytes

section Success

variable {h : Host} {svc : Service} {s s' : Store} {c : Config} {d : Delivery} {g : Nat} {now : ℤ}

theorem replaceDraft_of (hread : readConfig h s = some c) {next : Config}
    (hvalid : next.Valid h.library) (hfits : next.FitsDeliveryBudget)
    (hrev : next.revision = c.revision) (hprofile : next.profile = c.profile)
    (hregion : next.regionId = c.regionId)
    (hlogos : normalizeRooms h.library next.rooms = some next.rooms)
    (hlast : next.revision + 1 < maxInteger) :
    replaceDraft h s (configETag c.revision) (some next) =
      (.saved { next with revision := next.revision + 1 }, { s with
        config := { next with revision := next.revision + 1 }, revision := next.revision + 1 }) := by
  have hsaved : ({ next with revision := next.revision + 1 } : Config).Valid h.library :=
    hvalid.withRevision (by have := hvalid.sound.revision; omega) hlast
  have hbytes : ({ next with revision := next.revision + 1 } : Config).bytes.length ≤
      maxConfigBytes := by
    rw [Config.length_bytes]
    refine (size_config_le hsaved compact).trans (le_trans ?_ hfits.1)
    simp only [Delivery.toDoc, Delivery.fields, Config.worstDelivery, size, sizeFields]
    omega
  have hsame : ¬ (next.revision ≠ c.revision ∨ next.profile ≠ c.profile ∨
      next.regionId ≠ c.regionId) := by
    push Not
    exact ⟨hrev, hprofile, hregion⟩
  unfold replaceDraft
  rw [hread]
  dsimp only
  rw [if_neg (not_not.mpr rfl), if_neg hsame, hlogos]
  dsimp only
  rw [show next.validate h.library = none from hvalid]
  dsimp only
  rw [if_neg (not_not.mpr hfits), if_neg (Nat.not_lt.mpr hbytes), if_neg (not_le.mpr hlast)]

theorem publish_of (hread : readConfig h s = some c) (hdelivery : readDelivery h s = some (d, g))
    (hkeeps : keepsRooms c.rooms d.config.rooms = none) {runtimes : List RoomRuntime}
    (hnext : nextRuntimes d c.rooms = some runtimes)
    (hsign : sign h svc s ⟨c, runtimes⟩ g now = .ok s') :
    publish h svc s .post "\x7b\x7d" (configETag c.revision) now =
      (.pending (g + 1) c.revision, s') := by
  unfold publish
  rw [hread]
  dsimp only
  rw [if_neg (by simp), if_neg (not_not.mpr rfl), hdelivery]
  dsimp only
  rw [hkeeps]
  dsimp only
  rw [hnext]
  dsimp only
  rw [hsign]

theorem operate_of (hread : readConfig h s = some c) (hdelivery : readDelivery h s = some (d, g))
    {id : String} {room : Room} {runtime next : Runtime} (hfound : d.find id = some (room, runtime))
    (hactive : room.active = true) {action : Action} (haction : action ≠ .newEpoch)
    (happly : action.apply c.profile runtime none = .ok next)
    (hsign : sign h svc { s with events := pauseEvents (fun e => e.roomId == id) s.events }
      (d.setRuntime id { next with
        eventState :=
          if 0 < s.events.count (fun e => decide (e.roomId = id ∧ e.Live)) then .pausedByOverride
          else next.eventState
        revision := next.revision + 1 }) g now = .ok s') :
    (operate h svc s id .patch (some ⟨action, none, "", none⟩) runtime.etag now).2 = s' := by
  unfold operate
  dsimp only
  rw [hread]
  dsimp only
  rw [hdelivery]
  dsimp only
  rw [hfound]
  dsimp only
  rw [if_neg (not_not.mpr rfl), if_neg haction, if_neg (by simp), if_neg (by simp [hactive]),
    if_neg (by simp), happly]
  dsimp only
  rw [hsign]

theorem createEvent_of (hread : readConfig h s = some c)
    (hdelivery : readDelivery h s = some (d, g)) {id fresh : String} {room : Room}
    {runtime : Runtime} (hfound : d.find id = some (room, runtime)) (hactive : room.active = true)
    {e : EventInput} (hvalid : e.Valid now) (hcap : (roomEvents s.events id).length < 1000)
    (hfree : ∀ other ∈ roomEvents s.events id, other.id ≠ "" ∧ ¬ other.Overlaps e)
    {table : Table String Event}
    (hupsert : upsertEvent s.events ⟨fresh, room.id, e.prequeueAt / 1000, e.admitAt / 1000,
      e.drainAt / 1000, .scheduled⟩ = some table)
    (hlist : (roomEvents table id).length ≤ 1000)
    (hsign : sign h svc { s with events := table } (d.setRuntime id { runtime with
      eventState := eventStateOfRoom .none (roomEvents table id)
      revision := runtime.revision + 1 }) g now = .ok s') :
    (changeEvent h svc s id "" .post (.input e) runtime.etag fresh now).2 = s' := by
  unfold changeEvent
  rw [hread]
  dsimp only
  rw [if_neg (by simp), hdelivery]
  dsimp only
  rw [if_pos rfl]
  dsimp only
  rw [hfound]
  dsimp only
  rw [if_neg (not_not.mpr rfl)]
  unfold readEvents
  have hfound : (roomEvents s.events id).find? (fun e => e.id == "") = none :=
    List.find?_eq_none.mpr fun other hother => by simp [(hfree other hother).1]
  have hoverlap : ¬ ∃ other ∈ roomEvents s.events id, other.id ≠ "" ∧ other.Overlaps e :=
    fun ⟨other, hother, _, hover⟩ => (hfree other hother).2 hover
  rw [if_neg (Nat.not_lt.mpr hcap.le)]
  dsimp only
  rw [if_neg (by simp), hfound]
  unfold askedEvent
  dsimp only
  rw [if_neg (by simp [hactive]), if_neg (not_not.mpr hvalid), if_neg hoverlap,
    if_neg (by rw [not_and]; exact fun _ => Nat.not_le.mpr hcap), if_pos rfl]
  dsimp only
  rw [hupsert]
  dsimp only
  rw [if_neg (Nat.not_lt.mpr hlist)]
  dsimp only
  rw [hsign]

theorem acknowledge_of {node : NodeId} {ack : NodeAck} {p : Published}
    (hdelivery : readDelivery h s = some (d, g)) (hpublished : s.published = some p)
    (hkey : ack.keyGeneration = svc.keyGeneration ∧ ack.keyDigest = svc.keyDigest)
    (hnow : p.issuedAt ≤ now ∧ now < p.expiresAt) (hgeneration : ack.generation = g)
    (hdigest : h.trust.hexSha256 p.raw = ack.digest)
    (hrooms : List.Forall₂ (Acceptable d node) d.config.rooms ack.rooms)
    (hnode : s.nodes node = none) :
    acknowledge h svc s node ack now = (.done, { s with
      nodes := fun n => if n = node then some ⟨g, now, ack.rooms⟩ else s.nodes n }) := by
  unfold acknowledge
  rw [if_neg (by simp [hkey]), hdelivery]
  dsimp only
  rw [hpublished]
  dsimp only
  rw [if_neg (by omega), if_neg (by simp [hgeneration, hdigest, hrooms.length_eq]),
    if_neg (not_not.mpr hrooms), hnode]
  rfl

theorem tick_of {viewed : ℤ} {runtimes : List RoomRuntime} {table : Table String Event}
    (hread : readConfig h s = some c) (hdelivery : readDelivery h s = some (d, g))
    (hrooms : tickRooms now (fun room runtime => decide (SafeDrain s g viewed room runtime)) d.rows
      s.events = some (runtimes, table)) (hmoved : runtimes ≠ d.runtimes)
    (hsign : sign h svc { s with events := table } { d with runtimes := runtimes } g now = .ok s') :
    tick h svc s now viewed = (.done, s') := by
  unfold tick
  rw [hread]
  dsimp only
  rw [hdelivery]
  dsimp only
  rw [hrooms]
  dsimp only
  rw [if_neg hmoved, hsign]

end Success

end WaitingRoom.Control
