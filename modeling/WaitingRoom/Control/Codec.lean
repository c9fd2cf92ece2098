import WaitingRoom.Shared.Decode
import WaitingRoom.Control.Delivery

/-!
# The documents of configurations and deliveries

The JSON tags of the structs of `internal/control`, written and read. `DecodeExact`
limits the size of a text and reads a document of the type. A valid value is read
back from its own document, whatever the order of the fields.
-/

namespace WaitingRoom.Control

set_option autoImplicit false

open Doc
open Queue (RoomMode)

section Write

def modeText : RoomMode → String
  | .off => "OFF"
  | .auto => "AUTO"
  | .hold => "HOLD"
  | .draining => "DRAINING"
  | .recoveryHold => "RECOVERY_HOLD"

def EventState.text : EventState → String
  | .none => "none"
  | .scheduled => "scheduled"
  | .running => "running"
  | .pausedByOverride => "paused_by_override"
  | .cancelled => "cancelled"
  | .completed => "completed"

def Limits.fields (l : Limits) : List (String × Doc) :=
  [("maxActiveAdmissionLeases", .num l.maxActiveAdmissionLeases),
    ("admissionsPerMinute", .num l.admissionsPerMinute),
    ("admissionTtlSeconds", .num l.admissionTtlSeconds)]

def QueuePolicy.fields (p : QueuePolicy) : List (String × Doc) :=
  [("kind", .str p.kind), ("ticketIdleTtlSeconds", .num p.ticketIdleTtlSeconds),
    ("ticketMaxTtlSeconds", .num p.ticketMaxTtlSeconds),
    ("readyTtlSeconds", .num p.readyTtlSeconds)]

def Theme.fields (t : Theme) : List (String × Doc) :=
  [("templateId", .str t.templateId), ("title", .str t.title), ("message", .str t.message),
    ("primaryColor", .str t.primaryColor), ("locale", .str t.locale),
    ("showEstimatedWait", .bool t.showEstimatedWait)] ++
    if t.logoImage = "" then [] else [("logoImage", .str t.logoImage)]

def Room.fields (r : Room) : List (String × Doc) :=
  [("id", .str r.id), ("publicId", .str r.publicId), ("name", .str r.name),
    ("hostname", .str r.hostname), ("origin", .str r.origin), ("healthURL", .str r.healthURL),
    ("protectPrefixes", .arr (r.protectPrefixes.map Doc.str)),
    ("excludePrefixes", .arr (r.excludePrefixes.map Doc.str)),
    ("queuePolicy", .obj r.queuePolicy.fields), ("limits", .obj r.limits.fields),
    ("theme", .obj r.theme.fields), ("active", .bool r.active)]

def Room.toDoc (r : Room) : Doc := .obj r.fields

def Config.fields (c : Config) : List (String × Doc) :=
  [("schemaVersion", .num c.schemaVersion), ("revision", .num c.revision),
    ("profile", .str c.profile), ("regionId", .str c.regionId),
    ("rooms", .arr (c.rooms.map Room.toDoc))]

def Config.toDoc (c : Config) : Doc := .obj c.fields

def Runtime.fields (r : Runtime) : List (String × Doc) :=
  [("revision", .num r.revision), ("mode", .str (modeText r.mode)),
    ("limits", .obj r.limits.fields), ("epoch", .num r.epoch),
    ("eventState", .str r.eventState.text)] ++
    if r.recoveryUntil = 0 then [] else [("recoveryUntil", .num r.recoveryUntil)]

def RoomRuntime.fields (r : RoomRuntime) : List (String × Doc) :=
  [("roomId", .str r.roomId), ("runtime", .obj r.runtime.fields)]

def RoomRuntime.toDoc (r : RoomRuntime) : Doc := .obj r.fields

def Delivery.fields (d : Delivery) : List (String × Doc) :=
  [("config", d.config.toDoc), ("runtimes", .arr (d.runtimes.map RoomRuntime.toDoc))]

def Delivery.toDoc (d : Delivery) : Doc := .obj d.fields

end Write

section Read

def asMode : Doc → Option RoomMode
  | .str s =>
    if s = "OFF" then some .off
    else if s = "AUTO" then some .auto
    else if s = "HOLD" then some .hold
    else if s = "DRAINING" then some .draining
    else if s = "RECOVERY_HOLD" then some .recoveryHold
    else .none
  | _ => .none

def asEventState : Doc → Option EventState
  | .str s =>
    if s = "none" then some .none
    else if s = "scheduled" then some .scheduled
    else if s = "running" then some .running
    else if s = "paused_by_override" then some .pausedByOverride
    else .none
  | _ => .none

def limitsKeys : List String :=
  ["maxActiveAdmissionLeases", "admissionsPerMinute", "admissionTtlSeconds"]

def Limits.ofDoc (j : Doc) : Option Limits := do
  let fs ← j.exact limitsKeys []
  Limits.mk <$> field fs "maxActiveAdmissionLeases" asInt <*> field fs "admissionsPerMinute" asInt
    <*> field fs "admissionTtlSeconds" asInt

def queuePolicyKeys : List String :=
  ["kind", "ticketIdleTtlSeconds", "ticketMaxTtlSeconds", "readyTtlSeconds"]

def QueuePolicy.ofDoc (j : Doc) : Option QueuePolicy := do
  let fs ← j.exact queuePolicyKeys []
  QueuePolicy.mk <$> field fs "kind" asStr <*> field fs "ticketIdleTtlSeconds" asInt
    <*> field fs "ticketMaxTtlSeconds" asInt <*> field fs "readyTtlSeconds" asInt

def themeKeys : List String :=
  ["templateId", "title", "message", "primaryColor", "locale", "showEstimatedWait"]

def Theme.ofDoc (j : Doc) : Option Theme := do
  let fs ← j.exact themeKeys ["logoImage"]
  Theme.mk <$> field fs "templateId" asStr <*> field fs "title" asStr <*> field fs "message" asStr
    <*> field fs "primaryColor" asStr <*> field fs "locale" asStr
    <*> field fs "showEstimatedWait" asBool <*> fieldOr fs "logoImage" asStr ""

def roomKeys : List String :=
  ["id", "publicId", "name", "hostname", "origin", "healthURL", "protectPrefixes",
    "excludePrefixes", "queuePolicy", "limits", "theme", "active"]

def Room.ofDoc (j : Doc) : Option Room := do
  let fs ← j.exact roomKeys []
  Room.mk <$> field fs "id" asStr <*> field fs "publicId" asStr <*> field fs "name" asStr
    <*> field fs "hostname" asStr <*> field fs "origin" asStr <*> field fs "healthURL" asStr
    <*> field fs "protectPrefixes" (asList asStr) <*> field fs "excludePrefixes" (asList asStr)
    <*> field fs "queuePolicy" QueuePolicy.ofDoc <*> field fs "limits" Limits.ofDoc
    <*> field fs "theme" Theme.ofDoc <*> field fs "active" asBool

def configKeys : List String := ["schemaVersion", "revision", "profile", "regionId", "rooms"]

def Config.ofDoc (j : Doc) : Option Config := do
  let fs ← j.exact configKeys []
  Config.mk <$> field fs "schemaVersion" asInt <*> field fs "revision" asInt
    <*> field fs "profile" asStr <*> field fs "regionId" asStr
    <*> field fs "rooms" (asList Room.ofDoc)

def runtimeKeys : List String := ["revision", "mode", "limits", "epoch", "eventState"]

def Runtime.ofDoc (j : Doc) : Option Runtime := do
  let fs ← j.exact runtimeKeys ["recoveryUntil"]
  Runtime.mk <$> field fs "revision" asInt <*> field fs "mode" asMode
    <*> field fs "limits" Limits.ofDoc <*> field fs "epoch" asNat
    <*> field fs "eventState" asEventState <*> fieldOr fs "recoveryUntil" asInt 0

def roomRuntimeKeys : List String := ["roomId", "runtime"]

def RoomRuntime.ofDoc (j : Doc) : Option RoomRuntime := do
  let fs ← j.exact roomRuntimeKeys []
  RoomRuntime.mk <$> field fs "roomId" asStr <*> field fs "runtime" Runtime.ofDoc

def deliveryKeys : List String := ["config", "runtimes"]

def Delivery.ofDoc (j : Doc) : Option Delivery := do
  let fs ← j.exact deliveryKeys []
  Delivery.mk <$> field fs "config" Config.ofDoc <*> field fs "runtimes" (asList RoomRuntime.ofDoc)

/-- `DecodeExact` of a text. -/
def decodeExact {V : Type} (ofDoc : Doc → Option V) (text : List Char) : Option V :=
  if textSize text = 0 ∨ maxConfigBytes < textSize text then .none
  else
    match parse text with
    | .none => .none
    | some j => ofDoc j

end Read

section RoundTrip

variable {order : List (String × Doc) → List (String × Doc)}

theorem asMode_reorder (m : RoomMode) : asMode (reorder order (.str (modeText m))) = some m := by
  rw [reorder_str]
  cases m <;> rfl

theorem asEventState_reorder {s : EventState} (h₁ : s ≠ .cancelled) (h₂ : s ≠ .completed) :
    asEventState (reorder order (.str s.text)) = some s := by
  rw [reorder_str]
  cases s with
  | none | scheduled | running | pausedByOverride => rfl
  | cancelled => exact absurd rfl h₁
  | completed => exact absurd rfl h₂

theorem asList_strings (ss : List String) :
    asList asStr (reorder order (.arr (ss.map Doc.str))) = some ss :=
  asList_reorder fun s _ => asStr_reorder s

variable (perm : ∀ fs, (order fs).Perm fs)
include perm

theorem Limits.ofDoc_reorder {l : Limits} {profile : String} (h : l.Valid profile) :
    Limits.ofDoc (reorder order (.obj l.fields)) = some l := by
  obtain ⟨hcap, h₁, h₂, h₃, h₄⟩ := h
  obtain ⟨gs, hgs, hlook⟩ := exact_reorder perm limitsKeys [] limitsKeys
    (show l.fields.map Prod.fst = limitsKeys from rfl) (by decide) (by decide) (by decide)
  have hleases : field gs "maxActiveAdmissionLeases" asInt = some l.maxActiveAdmissionLeases :=
    field_of_lookup hlook rfl (asInt_reorder (by omega))
  have hrate : field gs "admissionsPerMinute" asInt = some l.admissionsPerMinute :=
    field_of_lookup hlook rfl (asInt_reorder (by omega))
  have httl : field gs "admissionTtlSeconds" asInt = some l.admissionTtlSeconds :=
    field_of_lookup hlook rfl (asInt_reorder (by omega))
  rw [Limits.ofDoc, hgs, Option.bind_eq_bind, Option.bind_some, hleases, hrate, httl]
  rfl

theorem QueuePolicy.ofDoc_reorder {p : QueuePolicy} (h : p.Valid) :
    QueuePolicy.ofDoc (reorder order (.obj p.fields)) = some p := by
  obtain ⟨-, h₁, h₂, -, h₃⟩ := h
  obtain ⟨gs, hgs, hlook⟩ := exact_reorder perm queuePolicyKeys [] queuePolicyKeys
    (show p.fields.map Prod.fst = queuePolicyKeys from rfl) (by decide) (by decide) (by decide)
  have hkind : field gs "kind" asStr = some p.kind := field_of_lookup hlook rfl (asStr_reorder _)
  have hidle : field gs "ticketIdleTtlSeconds" asInt = some p.ticketIdleTtlSeconds :=
    field_of_lookup hlook rfl (asInt_reorder (by omega))
  have hmax : field gs "ticketMaxTtlSeconds" asInt = some p.ticketMaxTtlSeconds :=
    field_of_lookup hlook rfl (asInt_reorder (by omega))
  have hready : field gs "readyTtlSeconds" asInt = some p.readyTtlSeconds :=
    field_of_lookup hlook rfl (asInt_reorder (by omega))
  rw [QueuePolicy.ofDoc, hgs, Option.bind_eq_bind, Option.bind_some, hkind, hidle, hmax, hready]
  rfl

theorem Theme.ofDoc_reorder (t : Theme) : Theme.ofDoc (reorder order (.obj t.fields)) = some t := by
  -- the logo is a field of its own or the default for a field that is missing
  have hread : ∃ gs, (reorder order (.obj t.fields)).exact themeKeys ["logoImage"] = some gs ∧
      (∀ k, gs.lookup k = (t.fields.lookup k).map (reorder order)) ∧
      fieldOr gs "logoImage" asStr "" = some t.logoImage := by
    by_cases hlogo : t.logoImage = ""
    · have hk : t.fields.map Prod.fst = themeKeys := by simp [Theme.fields, hlogo, themeKeys]
      obtain ⟨gs, hgs, hlook⟩ := exact_reorder perm themeKeys ["logoImage"] themeKeys hk
        (by decide) (by decide) (by decide)
      have hnone : t.fields.lookup "logoImage" = none := by simp [Theme.fields, hlogo]
      exact ⟨gs, hgs, hlook, by rw [hlogo]; exact fieldOr_of_lookup_none hlook hnone⟩
    · have hk : t.fields.map Prod.fst = themeKeys ++ ["logoImage"] := by
        simp [Theme.fields, hlogo, themeKeys]
      obtain ⟨gs, hgs, hlook⟩ := exact_reorder perm themeKeys ["logoImage"]
        (themeKeys ++ ["logoImage"]) hk (by decide) (by decide) (by decide)
      have hsome : t.fields.lookup "logoImage" = some (.str t.logoImage) := by
        rw [Theme.fields, if_neg hlogo]
        rfl
      exact ⟨gs, hgs, hlook, fieldOr_of_lookup hlook hsome (asStr_reorder _)⟩
  obtain ⟨gs, hgs, hlook, hlogo⟩ := hread
  have h₁ : field gs "templateId" asStr = some t.templateId :=
    field_of_lookup hlook rfl (asStr_reorder _)
  have h₂ : field gs "title" asStr = some t.title := field_of_lookup hlook rfl (asStr_reorder _)
  have h₃ : field gs "message" asStr = some t.message := field_of_lookup hlook rfl (asStr_reorder _)
  have h₄ : field gs "primaryColor" asStr = some t.primaryColor :=
    field_of_lookup hlook rfl (asStr_reorder _)
  have h₅ : field gs "locale" asStr = some t.locale := field_of_lookup hlook rfl (asStr_reorder _)
  have h₆ : field gs "showEstimatedWait" asBool = some t.showEstimatedWait :=
    field_of_lookup hlook rfl (asBool_reorder _)
  rw [Theme.ofDoc, hgs, Option.bind_eq_bind, Option.bind_some, h₁, h₂, h₃, h₄, h₅, h₆, hlogo]
  rfl

theorem Room.ofDoc_reorder {x : Library} {r : Room} {profile : String} (h : r.Valid x profile) :
    Room.ofDoc (reorder order r.toDoc) = some r := by
  obtain ⟨gs, hgs, hlook⟩ := exact_reorder perm roomKeys [] roomKeys
    (show r.fields.map Prod.fst = roomKeys from rfl) (by decide) (by decide) (by decide)
  have h₁ : field gs "id" asStr = some r.id := field_of_lookup hlook rfl (asStr_reorder _)
  have h₂ : field gs "publicId" asStr = some r.publicId :=
    field_of_lookup hlook rfl (asStr_reorder _)
  have h₃ : field gs "name" asStr = some r.name := field_of_lookup hlook rfl (asStr_reorder _)
  have h₄ : field gs "hostname" asStr = some r.hostname :=
    field_of_lookup hlook rfl (asStr_reorder _)
  have h₅ : field gs "origin" asStr = some r.origin := field_of_lookup hlook rfl (asStr_reorder _)
  have h₆ : field gs "healthURL" asStr = some r.healthURL :=
    field_of_lookup hlook rfl (asStr_reorder _)
  have h₇ : field gs "protectPrefixes" (asList asStr) = some r.protectPrefixes :=
    field_of_lookup hlook rfl (asList_strings _)
  have h₈ : field gs "excludePrefixes" (asList asStr) = some r.excludePrefixes :=
    field_of_lookup hlook rfl (asList_strings _)
  have h₉ : field gs "queuePolicy" QueuePolicy.ofDoc = some r.queuePolicy :=
    field_of_lookup hlook rfl (QueuePolicy.ofDoc_reorder perm h.queuePolicy)
  have h₁₀ : field gs "limits" Limits.ofDoc = some r.limits :=
    field_of_lookup hlook rfl (Limits.ofDoc_reorder perm h.limits)
  have h₁₁ : field gs "theme" Theme.ofDoc = some r.theme :=
    field_of_lookup hlook rfl (Theme.ofDoc_reorder perm r.theme)
  have h₁₂ : field gs "active" asBool = some r.active :=
    field_of_lookup hlook rfl (asBool_reorder _)
  rw [Room.toDoc, Room.ofDoc, hgs, Option.bind_eq_bind, Option.bind_some, h₁, h₂, h₃, h₄, h₅, h₆,
    h₇, h₈, h₉, h₁₀, h₁₁, h₁₂]
  rfl

theorem Config.ofDoc_reorder {x : Library} {c : Config} (h : c.Valid x) :
    Config.ofDoc (reorder order c.toDoc) = some c := by
  have hs := h.sound
  have hrev := hs.revision
  unfold maxInteger at hrev
  obtain ⟨gs, hgs, hlook⟩ := exact_reorder perm configKeys [] configKeys
    (show c.fields.map Prod.fst = configKeys from rfl) (by decide) (by decide) (by decide)
  have h₁ : field gs "schemaVersion" asInt = some c.schemaVersion :=
    field_of_lookup hlook rfl (asInt_reorder (by rw [hs.schemaVersion]; decide))
  have h₂ : field gs "revision" asInt = some c.revision :=
    field_of_lookup hlook rfl (asInt_reorder (by omega))
  have h₃ : field gs "profile" asStr = some c.profile := field_of_lookup hlook rfl (asStr_reorder _)
  have h₄ : field gs "regionId" asStr = some c.regionId :=
    field_of_lookup hlook rfl (asStr_reorder _)
  have h₅ : field gs "rooms" (asList Room.ofDoc) = some c.rooms :=
    field_of_lookup hlook rfl
      (asList_reorder fun r hr => Room.ofDoc_reorder perm (hs.rooms r hr))
  rw [Config.toDoc, Config.ofDoc, hgs, Option.bind_eq_bind, Option.bind_some, h₁, h₂, h₃, h₄, h₅]
  rfl

theorem Runtime.ofDoc_reorder {r : Runtime} {profile : String} (h : r.Valid profile) :
    Runtime.ofDoc (reorder order (.obj r.fields)) = some r := by
  obtain ⟨huntil, hrev, hepoch, hl, hs₁, hs₂⟩ := h
  unfold maxInteger at huntil hrev hepoch
  -- the recovery time is a field of its own or the default for a field that is missing
  have hread : ∃ gs, (reorder order (.obj r.fields)).exact runtimeKeys ["recoveryUntil"] = some gs ∧
      (∀ k, gs.lookup k = (r.fields.lookup k).map (reorder order)) ∧
      fieldOr gs "recoveryUntil" asInt 0 = some r.recoveryUntil := by
    by_cases hzero : r.recoveryUntil = 0
    · have hk : r.fields.map Prod.fst = runtimeKeys := by simp [Runtime.fields, hzero, runtimeKeys]
      obtain ⟨gs, hgs, hlook⟩ := exact_reorder perm runtimeKeys ["recoveryUntil"] runtimeKeys hk
        (by decide) (by decide) (by decide)
      have hnone : r.fields.lookup "recoveryUntil" = none := by simp [Runtime.fields, hzero]
      exact ⟨gs, hgs, hlook, by rw [hzero]; exact fieldOr_of_lookup_none hlook hnone⟩
    · have hk : r.fields.map Prod.fst = runtimeKeys ++ ["recoveryUntil"] := by
        simp [Runtime.fields, hzero, runtimeKeys]
      obtain ⟨gs, hgs, hlook⟩ := exact_reorder perm runtimeKeys ["recoveryUntil"]
        (runtimeKeys ++ ["recoveryUntil"]) hk (by decide) (by decide) (by decide)
      have hsome : r.fields.lookup "recoveryUntil" = some (.num r.recoveryUntil) := by
        rw [Runtime.fields, if_neg hzero]
        rfl
      exact ⟨gs, hgs, hlook, fieldOr_of_lookup hlook hsome (asInt_reorder (by omega))⟩
  obtain ⟨gs, hgs, hlook, hrecovery⟩ := hread
  have h₁ : field gs "revision" asInt = some r.revision :=
    field_of_lookup hlook rfl (asInt_reorder (by omega))
  have h₂ : field gs "mode" asMode = some r.mode := field_of_lookup hlook rfl (asMode_reorder _)
  have h₃ : field gs "limits" Limits.ofDoc = some r.limits :=
    field_of_lookup hlook rfl (Limits.ofDoc_reorder perm hl)
  have h₄ : field gs "epoch" asNat = some r.epoch :=
    field_of_lookup hlook rfl (asNat_reorder (by omega))
  have h₅ : field gs "eventState" asEventState = some r.eventState :=
    field_of_lookup hlook rfl (asEventState_reorder hs₁ hs₂)
  rw [Runtime.ofDoc, hgs, Option.bind_eq_bind, Option.bind_some, h₁, h₂, h₃, h₄, h₅, hrecovery]
  rfl

theorem RoomRuntime.ofDoc_reorder {r : RoomRuntime} {profile : String}
    (h : r.runtime.Valid profile) : RoomRuntime.ofDoc (reorder order r.toDoc) = some r := by
  obtain ⟨gs, hgs, hlook⟩ := exact_reorder perm roomRuntimeKeys [] roomRuntimeKeys
    (show r.fields.map Prod.fst = roomRuntimeKeys from rfl) (by decide) (by decide) (by decide)
  have h₁ : field gs "roomId" asStr = some r.roomId := field_of_lookup hlook rfl (asStr_reorder _)
  have h₂ : field gs "runtime" Runtime.ofDoc = some r.runtime :=
    field_of_lookup hlook rfl (Runtime.ofDoc_reorder perm h)
  rw [RoomRuntime.toDoc, RoomRuntime.ofDoc, hgs, Option.bind_eq_bind, Option.bind_some, h₁, h₂]
  rfl

theorem Delivery.ofDoc_reorder {x : Library} {d : Delivery} (h : d.Valid x) :
    Delivery.ofDoc (reorder order d.toDoc) = some d := by
  obtain ⟨gs, hgs, hlook⟩ := exact_reorder perm deliveryKeys [] deliveryKeys
    (show d.fields.map Prod.fst = deliveryKeys from rfl) (by decide) (by decide) (by decide)
  have h₁ : field gs "config" Config.ofDoc = some d.config :=
    field_of_lookup hlook rfl (Config.ofDoc_reorder perm h.1)
  have h₂ : field gs "runtimes" (asList RoomRuntime.ofDoc) = some d.runtimes := by
    refine field_of_lookup hlook rfl (asList_reorder fun r hr => ?_)
    rw [← h.rows_map_snd] at hr
    obtain ⟨p, hp, rfl⟩ := List.mem_map.mp hr
    exact RoomRuntime.ofDoc_reorder perm (h.aligned hp).2.1
  rw [Delivery.toDoc, Delivery.ofDoc, hgs, Option.bind_eq_bind, Option.bind_some, h₁, h₂]
  rfl

end RoundTrip

end WaitingRoom.Control
