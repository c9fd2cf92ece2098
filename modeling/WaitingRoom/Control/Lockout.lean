import WaitingRoom.Control.Succession

/-!
# What Control reads back

A draft is always read back. A delivery is read back exactly when the text of its
column is within the limit of a document, which the budget of a draft does not
ensure: many rooms with many prefixes are admitted and published, and from then on
no operation can read the delivery.
-/

namespace WaitingRoom.Control

set_option autoImplicit false

open Doc

section History

variable {h : Host} {s₀ s : Store} {events : List ControlEvent}

theorem readable_of_run (hi : Installed h s₀) (hr : ControlRun h s₀ events s) :
    size spaced s.config.toDoc ≤ maxConfigBytes := by
  have hboth : Steady h s ∧ size spaced s.config.toDoc ≤ maxConfigBytes := by
    refine Run.invariant hr
      (I := fun s => Steady h s ∧ size spaced s.config.toDoc ≤ maxConfigBytes)
      ⟨hi.steady, size_empty_config hi.config hi.rooms⟩ ?_
    intro s op ⟨hs, hsize⟩ _
    refine ⟨hs.step op, ?_⟩
    have hd := exec_does hs.toWellformed op
    generalize (exec h s op).2 = s' at hd
    rcases hd.draft with ⟨hconfig, _⟩ | ⟨hvalid, hfits, _⟩
    · rwa [hconfig]
    · exact size_spaced_config hvalid hfits
  exact hboth.2

/-- What Control commits it reads back: the draft always, the delivery exactly when the
text of its column has at most as many bytes as a document may have. -/
theorem documents_read_back (hi : Installed h s₀) (hr : ControlRun h s₀ events s) :
    readConfig h s = some s.config ∧
      (readDelivery h s = some (s.delivery, s.generation) ↔
        size spaced s.delivery.toDoc ≤ maxConfigBytes) := by
  have hs := steady_of_run hi hr
  refine ⟨readConfig_of_size hs.config hs.revision (readable_of_run hi hr), fun hread => ?_,
    readDelivery_of_size hs.delivery⟩
  by_contra hlarge
  rw [readDelivery_of_lt (Nat.not_le.mp hlarge)] at hread
  cases hread

/-- The published room of the sample is read back. -/
theorem sampleOps_read_back :
    readDelivery sampleHost
        (stateAfter (exec sampleHost) sampleStore [shopDraft, shopPublish]) =
      some (shopDelivery (initialRuntime sampleRoom), 1) := by
  have hr : ControlRun sampleHost sampleStore
      (eventsOf (exec sampleHost) sampleStore [shopDraft, shopPublish])
      (stateAfter (exec sampleHost) sampleStore [shopDraft, shopPublish]) :=
    run_of_inputs _ fun _ _ _ => trivial
  have hread := (documents_read_back sampleStore_installed hr).2
  have hstate : stateAfter (exec sampleHost) sampleStore [shopDraft, shopPublish] = shopStore := by
    rw [stateAfter, shop_drafts, stateAfter, shop_publishes, stateAfter]
  rw [hstate] at hread ⊢
  exact hread.mpr (shopDelivery_size (by decide))

end History

section Wide

def widePath (k : Nat) : String := String.ofList ('/' :: List.replicate (k + 3) 'a')

def widePrefixes : List String := (List.range 32).map widePath

def bareRoom : Room where
  id := ""
  publicId := ""
  name := "r"
  hostname := "a.b"
  origin := "https://origin.test"
  healthURL := "https://origin.test/health"
  protectPrefixes := []
  excludePrefixes := []
  queuePolicy := ⟨"fifo", 600, 86400, 120⟩
  limits := ⟨100000, 60000, 3600⟩
  theme := ⟨"calm", "", "", "#000000", "en", false, ""⟩
  active := false

def wideRoom (i : Nat) : Room :=
  { bareRoom with
    id := String.ofList ['r', .ofNat (97 + i / 10), .ofNat (97 + i % 10)]
    publicId :=
      String.ofList (List.replicate 18 'a' ++ [.ofNat (97 + i / 10), .ofNat (97 + i % 10)])
    protectPrefixes := widePrefixes
    excludePrefixes := widePrefixes }

def wideRooms : List Room := (List.range 29).map wideRoom

def wideConfig (revision : ℤ) (rooms : List Room) : Config :=
  ⟨1, revision, "high-scale-100k", "local", rooms⟩

def wideRuntimes : List RoomRuntime := wideRooms.map fun r => ⟨r.id, initialRuntime r⟩

section Valid

theorem widePrefixes_valid : ValidPrefixes widePrefixes := by
  constructor
  · intro p hp
    obtain ⟨k, hk, rfl⟩ := List.mem_map.mp hp
    have hk := List.mem_range.mp hk
    simp only [ValidPath, Reserved, PrefixMatches, widePath, String.toList_ofList]
    revert k
    decide +kernel
  · have hmap : widePrefixes.map trimSlash =
        (List.range 32).map fun k => '/' :: List.replicate (k + 3) 'a' := by
      rw [widePrefixes, List.map_map]
      refine List.map_congr_left fun k hk => ?_
      have hk := List.mem_range.mp hk
      simp only [Function.comp_apply, trimSlash, widePath, String.toList_ofList]
      revert k
      decide +kernel
    rw [hmap]
    decide +kernel

theorem wideRoom_valid {i : Nat} (hi : i < 29) :
    (wideRoom i).Valid sampleLibrary "high-scale-100k" where
  id := by
    simp only [IDPattern, wideRoom, String.toList_ofList]
    revert i
    decide
  publicId := by
    simp only [PublicIDPattern, wideRoom, String.toList_ofList]
    revert i
    decide
  named := show ∃ c ∈ "r".toList, ¬ IsSpace c by decide
  name := show Plain "r" 120 false by decide
  hostname := show ValidHostname "a.b" by decide
  origins := by
    have h₀ : bareRoom.validOrigins sampleLibrary = true := by decide
    exact h₀
  protects := show 0 < widePrefixes.length ∧ widePrefixes.length ≤ 32 by decide
  excludes := show widePrefixes.length ≤ 32 by decide
  protectPrefixes := widePrefixes_valid
  excludePrefixes := widePrefixes_valid
  queuePolicy := show QueuePolicy.Valid ⟨"fifo", 600, 86400, 120⟩ by decide
  limits := show Limits.Valid ⟨100000, 60000, 3600⟩ "high-scale-100k" by decide
  theme := show Theme.Valid sampleLibrary ⟨"calm", "", "", "#000000", "en", false, ""⟩ by
    decide

theorem mem_wideRooms {r : Room} (hr : r ∈ wideRooms) :
    r.Valid sampleLibrary "high-scale-100k" ∧ r.active = false ∧
      sampleLibrary.sanitizeLogo r.theme.logoImage = some r.theme.logoImage := by
  obtain ⟨i, hi, rfl⟩ := List.mem_map.mp hr
  exact ⟨wideRoom_valid (List.mem_range.mp hi), rfl, rfl⟩

theorem wideRooms_ids : (wideRooms.map Room.id).Nodup ∧ (wideRooms.map Room.publicId).Nodup := by
  constructor
  · have hn : ((List.range 29).map fun i =>
        ['r', Char.ofNat (97 + i / 10), Char.ofNat (97 + i % 10)]).Nodup := by decide +kernel
    have hs := hn.map fun _ _ h => String.ofList_injective h
    rw [List.map_map] at hs
    rw [wideRooms, List.map_map]
    exact hs
  · have hn : ((List.range 29).map fun i =>
        List.replicate 18 'a' ++ [Char.ofNat (97 + i / 10), Char.ofNat (97 + i % 10)]).Nodup := by
      decide
    have hs := hn.map fun _ _ h => String.ofList_injective h
    rw [List.map_map] at hs
    rw [wideRooms, List.map_map]
    exact hs

theorem wideConfig_valid {revision : ℤ} (h₀ : 0 ≤ revision) (h₁ : revision < maxInteger) :
    (wideConfig revision wideRooms).Valid sampleLibrary := by
  have hempty : (wideConfig 0 []).Valid sampleLibrary := by decide
  have hrooms : checkRooms sampleLibrary "high-scale-100k" [] wideRooms = none :=
    checkRooms_of (fun r hr => (mem_wideRooms hr).1) (fun r hr => (mem_wideRooms hr).2.1)
      wideRooms_ids.1 wideRooms_ids.2
  have hs := hempty.sound
  unfold Config.Valid Config.validate
  rw [if_neg]
  · exact hrooms
  · have hlength : wideRooms.length ≤ 100 := by decide
    push Not
    exact ⟨rfl, h₀, h₁, hs.region, hlength, fun _ => rfl⟩

theorem initialRuntime_valid {room : Room} {profile : String} (h : room.limits.Valid profile) :
    (initialRuntime room).Valid profile := by
  have h₀ : (0 : ℤ) ≤ 0 ∧ (0 : ℤ) < maxInteger := by decide
  have h₁ : (1 : ℤ) ≤ 1 ∧ (1 : ℤ) < maxInteger := by decide
  exact ⟨h₀, h₁, ⟨le_rfl, h₁.2⟩, h, nofun, nofun⟩

theorem wideDelivery_valid :
    (⟨wideConfig 1 wideRooms, wideRuntimes⟩ : Delivery).Valid sampleLibrary := by
  refine ⟨wideConfig_valid (by decide) (by decide), ?_⟩
  change List.Forall₂ _ wideRooms wideRuntimes
  rw [wideRuntimes, List.forall₂_map_right_iff, List.forall₂_same]
  intro r hr
  obtain ⟨hv, hactive, _⟩ := mem_wideRooms hr
  have hmode : (initialRuntime r).mode = .off := by rw [initialRuntime, hactive]; rfl
  exact ⟨rfl, initialRuntime_valid hv.limits, fun _ => hmode⟩

end Valid

section Size

variable {y : Style}

theorem size_room_with (y : Style) (r : Room) (id publicId : String) (ps : List String) :
    size y (Room.toDoc { r with
        id := id, publicId := publicId, protectPrefixes := ps, excludePrefixes := ps }) +
      (quoteSize y r.id + quoteSize y r.publicId + size y (.arr (r.protectPrefixes.map Doc.str)) +
        size y (.arr (r.excludePrefixes.map Doc.str))) =
      size y r.toDoc +
        (quoteSize y id + quoteSize y publicId + 2 * size y (.arr (ps.map Doc.str))) := by
  simp only [Room.toDoc, Room.fields, size_obj, size_str, sizeFields, List.length_cons,
    List.length_nil]
  omega

theorem size_roomRuntime (y : Style) (id : String) (r : Runtime) :
    size y (RoomRuntime.toDoc ⟨id, r⟩) + 2 =
      size y (RoomRuntime.toDoc ⟨"", r⟩) + quoteSize y id := by
  have hempty : quoteSize y "" = 2 := rfl
  simp only [RoomRuntime.toDoc, RoomRuntime.fields, size, sizeFields, hempty, List.length_cons,
    List.length_nil]
  omega

theorem size_delivery_rooms (y : Style) (revision : ℤ) (rooms : List Room)
    (runtimes : List RoomRuntime) :
    size y (Delivery.toDoc ⟨wideConfig revision rooms, runtimes⟩) =
      size y (Delivery.toDoc ⟨wideConfig revision [], []⟩) +
        (sizeItems y (rooms.map Room.toDoc) + (rooms.length - 1) * (textSize y.gap + 1)) +
        (sizeItems y (runtimes.map RoomRuntime.toDoc) +
          (runtimes.length - 1) * (textSize y.gap + 1)) := by
  simp only [Delivery.toDoc, Delivery.fields, Config.toDoc, Config.fields, wideConfig, size,
    sizeFields, sizeItems, List.length_cons, List.length_nil, List.length_map, List.map_nil]
  omega

theorem sizeItems_const (y : Style) (n k : Nat) (f : Nat → Doc) (hf : ∀ i < n, size y (f i) = k) :
    sizeItems y ((List.range n).map f) = n * k := by
  have hmap : ((List.range n).map f).map (size y) = (List.range n).map fun _ => k := by
    rw [List.map_map]
    exact List.map_congr_left fun i hi => hf i (List.mem_range.mp hi)
  rw [sizeItems_eq_sum, hmap, List.map_const', List.sum_replicate_nat, List.length_range]

theorem quoteSize_widePath (hy : y = compact ∨ y = spaced) (k : Nat) :
    quoteSize y (widePath k) = k + 6 := by
  have hchars : textSize (y.escape '/') = 1 ∧ textSize (y.escape 'a') = 1 := by
    rcases hy with rfl | rfl <;> decide
  rw [quoteSize, widePath, String.toList_ofList, List.map_cons, List.map_replicate, List.sum_cons,
    List.sum_replicate_nat, hchars.1, hchars.2]
  omega

theorem sizeItems_widePrefixes (hy : y = compact ∨ y = spaced) :
    sizeItems y (widePrefixes.map Doc.str) = 688 := by
  have hmap : (widePrefixes.map Doc.str).map (size y) = (List.range 32).map fun k => k + 6 := by
    rw [widePrefixes, List.map_map, List.map_map]
    refine List.map_congr_left fun k _ => ?_
    change size y (.str (widePath k)) = k + 6
    rw [size, quoteSize_widePath hy]
  rw [sizeItems_eq_sum, hmap]
  decide

theorem quoteSize_wideRoom (hy : y = compact ∨ y = spaced) {i : Nat} (hi : i < 29) :
    quoteSize y (wideRoom i).id = 5 ∧ quoteSize y (wideRoom i).publicId = 22 := by
  simp only [quoteSize, wideRoom, String.toList_ofList]
  revert i
  rcases hy with rfl | rfl <;> decide

theorem size_wideRoom (hy : y = compact ∨ y = spaced) {i : Nat} (hi : i < 29) :
    size y (wideRoom i).toDoc =
      size y bareRoom.toDoc + 23 + 2 * (688 + 31 * (textSize y.gap + 1)) := by
  obtain ⟨hid, hpublic⟩ := quoteSize_wideRoom hy hi
  have hprefixes := sizeItems_widePrefixes hy
  have hlength : widePrefixes.length = 32 := by decide
  have harray : size y (.arr (widePrefixes.map Doc.str)) =
      688 + 31 * (textSize y.gap + 1) + 2 := by
    rw [size, hprefixes, List.length_map, hlength]
  have hnone : quoteSize y bareRoom.id = 2 ∧ quoteSize y bareRoom.publicId = 2 ∧
      size y (.arr (bareRoom.protectPrefixes.map Doc.str)) = 2 ∧
      size y (.arr (bareRoom.excludePrefixes.map Doc.str)) = 2 := by
    have harr : size y (.arr []) = 2 := by simp [size, sizeItems]
    exact ⟨rfl, rfl, harr, harr⟩
  have hwith := size_room_with y bareRoom (wideRoom i).id (wideRoom i).publicId widePrefixes
  rw [hid, hpublic, harray, hnone.1, hnone.2.1, hnone.2.2.1, hnone.2.2.2] at hwith
  change size y (wideRoom i).toDoc + _ = _ at hwith
  omega

theorem size_wideRuntime (hy : y = compact ∨ y = spaced) {i : Nat} (hi : i < 29) (r : Runtime) :
    size y (RoomRuntime.toDoc ⟨(wideRoom i).id, r⟩) = size y (RoomRuntime.toDoc ⟨"", r⟩) + 3 := by
  have hid := (quoteSize_wideRoom hy hi).1
  have hruntime := size_roomRuntime y (wideRoom i).id r
  omega

theorem size_wideDelivery (hy : y = compact ∨ y = spaced) (revision : ℤ) (r : Runtime) :
    size y (Delivery.toDoc ⟨wideConfig revision wideRooms, wideRooms.map fun room => ⟨room.id, r⟩⟩) =
      size y (Delivery.toDoc ⟨wideConfig revision [], []⟩) +
        (29 * (size y bareRoom.toDoc + 23 + 2 * (688 + 31 * (textSize y.gap + 1))) +
          28 * (textSize y.gap + 1)) +
        (29 * (size y (RoomRuntime.toDoc ⟨"", r⟩) + 3) + 28 * (textSize y.gap + 1)) := by
  have hrooms : sizeItems y (wideRooms.map Room.toDoc) =
      29 * (size y bareRoom.toDoc + 23 + 2 * (688 + 31 * (textSize y.gap + 1))) := by
    rw [wideRooms, List.map_map]
    exact sizeItems_const y 29 _ _ fun i hi => size_wideRoom hy hi
  have hruntimes : sizeItems y ((wideRooms.map fun room => ⟨room.id, r⟩).map RoomRuntime.toDoc) =
      29 * (size y (RoomRuntime.toDoc ⟨"", r⟩) + 3) := by
    rw [wideRooms, List.map_map, List.map_map]
    exact sizeItems_const y 29 _ _ fun i hi => size_wideRuntime hy hi r
  have hlength : wideRooms.length = 29 := by rw [wideRooms, List.length_map, List.length_range]
  rw [size_delivery_rooms, hrooms, hruntimes, List.length_map, hlength]

theorem size_bareRoom : size compact bareRoom.toDoc = 506 ∧ size spaced bareRoom.toDoc = 552 := by
  decide +kernel

theorem wideConfig_fits (revision : ℤ) : (wideConfig revision wideRooms).FitsDeliveryBudget := by
  have hruntime : size compact (RoomRuntime.toDoc ⟨"", worstRuntime⟩) = 268 := by decide +kernel
  have hempty : size compact (Delivery.toDoc ⟨wideConfig 9007199254740989 [], []⟩) = 130 := by
    decide +kernel
  have hsize := size_wideDelivery (.inl rfl) 9007199254740989 worstRuntime
  rw [size_bareRoom.1, hruntime, hempty, textSize_gap.2] at hsize
  refine fits_of_size ?_
  change size compact (Delivery.toDoc ⟨wideConfig 9007199254740989 wideRooms,
    wideRooms.map fun room => ⟨room.id, worstRuntime⟩⟩) + 438 ≤ 65536
  rw [hsize]
  decide

theorem wideDelivery_size :
    maxConfigBytes < size spaced (Delivery.toDoc ⟨wideConfig 1 wideRooms, wideRuntimes⟩) ∧
      size compact (Delivery.toDoc ⟨wideConfig 1 wideRooms, wideRuntimes⟩) = 62550 := by
  have hsame : wideRuntimes = wideRooms.map fun room => ⟨room.id, initialRuntime bareRoom⟩ := by
    refine List.map_congr_left fun room hroom => ?_
    obtain ⟨i, _, rfl⟩ := List.mem_map.mp hroom
    rfl
  have hruntime : size compact (RoomRuntime.toDoc ⟨"", initialRuntime bareRoom⟩) = 181 ∧
      size spaced (RoomRuntime.toDoc ⟨"", initialRuntime bareRoom⟩) = 198 := by decide
  have hempty : size compact (Delivery.toDoc ⟨wideConfig 1 [], []⟩) = 115 ∧
      size spaced (Delivery.toDoc ⟨wideConfig 1 [], []⟩) = 127 := by decide
  rw [hsame, size_wideDelivery (.inl rfl), size_wideDelivery (.inr rfl), size_bareRoom.1,
    size_bareRoom.2, hruntime.1, hruntime.2, hempty.1, hempty.2, textSize_gap.1, textSize_gap.2]
  decide

end Size

section Lockout

/-- The ways in which the database can order the fields of an object. -/
abbrev FieldOrder :=
  { order : List (String × Doc) → List (String × Doc) // ∀ fs, (order fs).Perm fs }

def wideHost (o : FieldOrder) : Host where
  library := sampleLibrary
  trust := Trust.samplePlatform
  order := o.1
  order_perm := o.2

def wideStore : Store where
  revision := 0
  config := wideConfig 0 []
  delivery := ⟨wideConfig 0 [], []⟩

def wideDraft : Op := .replaceDraft (configETag 0) (some (wideConfig 0 wideRooms))

def widePublish : Op := .publish sampleService .post "\x7b\x7d" (configETag 1) 1000000

variable (o : FieldOrder)

theorem wideStore_installed : Installed (wideHost o) wideStore := by
  have hvalid : (wideConfig 0 []).Valid sampleLibrary := by decide
  exact ⟨hvalid, rfl, rfl, hvalid, rfl, rfl, rfl, le_rfl, rfl, rfl, fun _ => rfl⟩

theorem normalizeRooms_of {x : Library} {rooms : List Room}
    (h : ∀ r ∈ rooms, x.sanitizeLogo r.theme.logoImage = some r.theme.logoImage) :
    normalizeRooms x rooms = some rooms := by
  induction rooms with
  | nil => rfl
  | cons r rooms ih =>
    rw [normalizeRooms, h r List.mem_cons_self, ih fun r hr => h r (List.mem_cons_of_mem _ hr)]

theorem nextRuntimes_of_empty (c : Config) (rooms : List Room) :
    nextRuntimes ⟨c, []⟩ rooms = some (rooms.map fun r => ⟨r.id, initialRuntime r⟩) := by
  have hnext : ∀ r, nextRuntime ⟨c, []⟩ r = some (initialRuntime r) := by
    intro r
    have hf : (⟨c, []⟩ : Delivery).find r.id = none := by
      rw [Delivery.find, Delivery.rows, List.zip_nil_right]
      rfl
    rw [nextRuntime, hf]
  induction rooms with
  | nil => rfl
  | cons r rooms ih =>
    rw [nextRuntimes, hnext, ih]
    rfl

def wideDrafted : Store := { wideStore with config := wideConfig 1 wideRooms, revision := 1 }

theorem wide_drafts :
    exec (wideHost o) wideStore wideDraft = (.saved (wideConfig 1 wideRooms), wideDrafted) := by
  have hi := wideStore_installed o
  have hread : readConfig (wideHost o) wideStore = some (wideConfig 0 []) :=
    readConfig_of_size hi.config rfl (size_empty_config hi.config rfl)
  have hvalid : (wideConfig 0 wideRooms).Valid (wideHost o).library :=
    wideConfig_valid (by decide) (by decide)
  have hlogos := normalizeRooms_of (x := sampleLibrary) fun r hr => (mem_wideRooms hr).2.2
  have hsaved := replaceDraft_of hread hvalid (wideConfig_fits 0) rfl rfl rfl hlogos (by decide)
  exact hsaved

theorem samplePlatform_sign {s : Trust.Snapshot} (hs : s.Structural Trust.samplePlatform)
    (hlength : s.payload.length + 4 ≤ 65536) :
    Trust.sign Trust.samplePlatform sampleService.key s =
      some (.ofNat s.generation :: .ofNat s.revision :: .ofNat s.issuedAt.toNat ::
        .ofNat s.expiresAt.toNat :: s.payload) := by
  unfold Trust.sign
  rw [if_neg (by push Not; exact ⟨rfl, hs⟩)]
  exact if_neg (Nat.not_lt.mpr hlength)

theorem wide_signs {d : Delivery} (hd : d.Valid sampleLibrary) (hlength : d.bytes.length ≤ 65000) :
    ∃ s, sign (wideHost o) sampleService wideDrafted d 0 1000000 = .ok s ∧ s.delivery = d := by
  have hs : (snapshotOf sampleService d 0 1000000).Structural (wideHost o).trust :=
    snapshotOf_structural hd (by decide) (by decide) (by decide) (by decide)
      (by decide) rfl
  have hsmall : d.bytes.length + 4 ≤ 65536 := by omega
  have hraw := samplePlatform_sign hs hsmall
  have hsign := sign_of_trust (h := wideHost o) (s := wideDrafted) hd (by decide) hraw
    (List.length_pos_of_mem List.mem_cons_self) hsmall
  exact ⟨_, hsign, rfl⟩

theorem wide_publishes : ∃ s, exec (wideHost o) wideDrafted widePublish = (.pending 1 1, s) ∧
    s.delivery = ⟨wideConfig 1 wideRooms, wideRuntimes⟩ := by
  have hconfig : readConfig (wideHost o) wideDrafted = some (wideConfig 1 wideRooms) :=
    readConfig_of_size (wideConfig_valid (by decide) (by decide)) rfl
      (size_spaced_config (wideConfig_valid (by decide) (by decide)) (wideConfig_fits 1))
  have hempty : size spaced (⟨wideConfig 0 [], []⟩ : Delivery).toDoc ≤ maxConfigBytes := by
    decide
  have hdelivery : readDelivery (wideHost o) wideDrafted = some (⟨wideConfig 0 [], []⟩, 0) :=
    readDelivery_of_size (wideStore_installed o).steady.delivery hempty
  obtain ⟨s, hsign, hd⟩ := wide_signs o wideDelivery_valid (by
    rw [Delivery.length_bytes, wideDelivery_size.2]
    decide)
  have hkeeps : keepsRooms wideRooms [] = none := by rw [keepsRooms]
  have hpublished :=
    publish_of hconfig hdelivery hkeeps (nextRuntimes_of_empty _ wideRooms) hsign
  exact ⟨s, hpublished, hd⟩

/-- The order of `jsonb`: shorter names first. -/
def byLength : FieldOrder :=
  ⟨fun fs => fs.insertionSort fun a b => toLex (a.1.utf8ByteSize, a.1) ≤ toLex (b.1.utf8ByteSize, b.1),
    fun fs => List.perm_insertionSort _ fs⟩

/-- A draft within the budget is saved and published, and then no operation can read
the delivery. -/
theorem published_delivery_unreadable :
    Installed (wideHost byLength) wideStore ∧
      ((eventsOf (exec (wideHost byLength)) wideStore [wideDraft, widePublish]).map
        fun e => e.output) = [.saved (wideConfig 1 wideRooms), .pending 1 1] ∧
      readDelivery (wideHost byLength)
        (stateAfter (exec (wideHost byLength)) wideStore [wideDraft, widePublish]) = none := by
  obtain ⟨s, hpublish, hd⟩ := wide_publishes byLength
  refine ⟨wideStore_installed byLength, ?_, ?_⟩
  · rw [eventsOf, wide_drafts, eventsOf, eventsOf, List.map_cons, List.map_cons, List.map_nil,
      eventOf, eventOf, wide_drafts, hpublish]
  · rw [stateAfter, wide_drafts, stateAfter, hpublish, stateAfter]
    apply readDelivery_of_lt
    rw [hd]
    exact wideDelivery_size.1

end Lockout

end Wide

end WaitingRoom.Control
