import WaitingRoom.Shared.Document

/-!
# The operator configuration

The typed configuration of `internal/control` and its validation. URLs and logo
images are parsed by packages outside the repository, which are parameters; a
parsed URL is a record of the parts that validation looks at. Strings are valid
UTF-8, as `DecodeExact` requires of every document.
-/

namespace WaitingRoom.Control

set_option autoImplicit false

def maxConfigBytes : Nat := 65536

def maxInteger : ℤ := 9007199254740990

structure Limits where
  maxActiveAdmissionLeases : ℤ
  admissionsPerMinute : ℤ
  admissionTtlSeconds : ℤ
deriving DecidableEq

structure QueuePolicy where
  kind : String
  ticketIdleTtlSeconds : ℤ
  ticketMaxTtlSeconds : ℤ
  readyTtlSeconds : ℤ
deriving DecidableEq

structure Theme where
  templateId : String
  title : String
  message : String
  primaryColor : String
  locale : String
  showEstimatedWait : Bool
  logoImage : String
deriving DecidableEq

structure Room where
  id : String
  publicId : String
  name : String
  hostname : String
  origin : String
  healthURL : String
  protectPrefixes : List String
  excludePrefixes : List String
  queuePolicy : QueuePolicy
  limits : Limits
  theme : Theme
  active : Bool
deriving DecidableEq

structure Config where
  schemaVersion : ℤ
  revision : ℤ
  profile : String
  regionId : String
  rooms : List Room
deriving DecidableEq

structure Url where
  scheme : String
  hasUser : Bool := false
  hostname : String
  port : String := ""
  host : String
  path : String := ""
  rawPath : String := ""
  rawQuery : String := ""
  forceQuery : Bool := false
  fragment : String := ""
  opaquePart : String := ""
deriving DecidableEq

/-- The packages that the configuration is checked with: `url.Parse`, whether
`LogoBytes` accepts an image, and `SanitizeLogo`. -/
structure Library where
  parseURL : String → Option Url
  logoBytes : String → Bool
  sanitizeLogo : String → Option String

section Patterns

def Lower (c : Char) : Prop := 'a' ≤ c ∧ c ≤ 'z'
  deriving Decidable

def Digit (c : Char) : Prop := '0' ≤ c ∧ c ≤ '9'
  deriving Decidable

/-- A lower-case letter and at most `n` more characters with `p`. -/
def Named (n : Nat) (p : Char → Prop) : List Char → Prop
  | [] => False
  | c :: cs => Lower c ∧ cs.length ≤ n ∧ ∀ d ∈ cs, p d

instance (n : Nat) (p : Char → Prop) [DecidablePred p] : (cs : List Char) → Decidable (Named n p cs)
  | [] => inferInstanceAs (Decidable False)
  | _ :: cs => inferInstanceAs (Decidable (_ ∧ _ ∧ ∀ d ∈ cs, p d))

def IDPattern (s : String) : Prop :=
  Named 63 (fun c => Lower c ∨ Digit c ∨ c = '_' ∨ c = '-') s.toList
  deriving Decidable

def PublicIDPattern (s : String) : Prop :=
  s.toList.length = 20 ∧ ∀ c ∈ s.toList, Lower c ∨ ('2' ≤ c ∧ c ≤ '7')
  deriving Decidable

def RegionPattern (s : String) : Prop :=
  Named 62 (fun c => Lower c ∨ Digit c ∨ c = '-') s.toList
  deriving Decidable

def ColorPattern (s : String) : Prop :=
  s.toList.length = 7 ∧ s.toList.head? = some '#' ∧
    ∀ c ∈ s.toList.tail, Digit c ∨ ('a' ≤ c ∧ c ≤ 'f') ∨ ('A' ≤ c ∧ c ≤ 'F')
  deriving Decidable

def IsControl (c : Char) : Prop := c.toNat < 32 ∨ (127 ≤ c.toNat ∧ c.toNat < 160)
  deriving Decidable

def IsSpace (c : Char) : Prop :=
  (9 ≤ c.toNat ∧ c.toNat ≤ 13) ∨ (8192 ≤ c.toNat ∧ c.toNat ≤ 8202) ∨
    c.toNat ∈ [32, 133, 160, 5760, 8232, 8233, 8239, 8287, 12288]
  deriving Decidable

def Plain (s : String) (max : Nat) (multiline : Bool) : Prop :=
  s.toList.length ≤ max ∧ ∀ c ∈ s.toList, c ≠ '<' ∧ c ≠ '>' ∧
    (IsControl c → multiline = true ∧ (c = '\n' ∨ c = '\t'))
  deriving Decidable

def ValidLabel (label : List Char) : Prop :=
  (0 < label.length ∧ label.length ≤ 63) ∧ label.head? ≠ some '-' ∧ label.getLast? ≠ some '-' ∧
    ∀ c ∈ label, Lower c ∨ Digit c ∨ c = '-'
  deriving Decidable

/-- `ValidHostname`. The labels have ASCII characters only, so that their length is
their number of bytes and lower case is a matter of ASCII letters. -/
def ValidHostname (host : String) : Prop :=
  (0 < host.toList.length ∧ host.toList.length ≤ 253) ∧
    ∀ label ∈ host.toList.splitOn '.', ValidLabel label
  deriving Decidable

def doubleSlash : List Char → Bool
  | c :: d :: cs => (c == '/' && d == '/') || doubleSlash (d :: cs)
  | _ => false

/-- `ValidPath`. Its characters are ASCII, so that its length is its number of bytes. -/
def ValidPath (p : String) : Prop :=
  (p.toList.length ≤ 2048 ∧ p.toList.head? = some '/' ∧ doubleSlash p.toList = false) ∧
    (∀ c ∈ p.toList, 32 < c.toNat ∧ c.toNat < 127 ∧ c ∉ ['%', '\\', '?', '#', ';']) ∧
      ∀ segment ∈ p.toList.splitOn '/', segment ≠ ['.'] ∧ segment ≠ ['.', '.']
  deriving Decidable

/-- `strings.TrimSuffix(p, "/")`. -/
def trimSlash (p : String) : List Char :=
  if p.toList.getLast? = some '/' then p.toList.dropLast else p.toList

def PrefixMatches (p path : String) : Prop :=
  trimSlash p = [] ∨ path.toList = trimSlash p ∨ (trimSlash p ++ ['/']) <+: path.toList
  deriving Decidable

def Reserved (p : String) : Prop := PrefixMatches "/_wr" p ∨ PrefixMatches "/api/admin" p
  deriving Decidable

def validPort (port : String) : Bool :=
  match Doc.parseNat port.toList with
  | some (n, []) => decide (1 ≤ n ∧ n ≤ 65535)
  | _ => false

end Patterns

section Validate

variable (x : Library)

def validOrigin (raw : String) : Option Url :=
  match x.parseURL raw with
  | none => none
  | some u =>
    if u.scheme ≠ "https" ∨ u.hasUser ∨ ¬ ValidHostname u.hostname ∨ u.fragment ≠ "" ∨
        u.rawQuery ≠ "" ∨ u.forceQuery ∨ u.opaquePart ≠ "" ∨ u.rawPath ≠ "" then none
    else if u.port ≠ "" ∧ ¬ validPort u.port then none
    else some u

def Limits.Valid (l : Limits) (profile : String) : Prop :=
  (profile = "standard-10k" ∧ l.maxActiveAdmissionLeases ≤ 10000 ∧ l.admissionsPerMinute ≤ 6000 ∨
    profile = "high-scale-100k" ∧ l.maxActiveAdmissionLeases ≤ 100000 ∧
      l.admissionsPerMinute ≤ 60000) ∧
    1 ≤ l.maxActiveAdmissionLeases ∧ 1 ≤ l.admissionsPerMinute ∧
      60 ≤ l.admissionTtlSeconds ∧ l.admissionTtlSeconds ≤ 3600
  deriving Decidable

def QueuePolicy.Valid (p : QueuePolicy) : Prop :=
  p.kind = "fifo" ∧ (60 ≤ p.ticketIdleTtlSeconds ∧ p.ticketIdleTtlSeconds ≤ 600) ∧
    (600 ≤ p.ticketMaxTtlSeconds ∧ p.ticketMaxTtlSeconds ≤ 86400) ∧
    p.ticketIdleTtlSeconds ≤ p.ticketMaxTtlSeconds ∧
    (1 ≤ p.readyTtlSeconds ∧ p.readyTtlSeconds ≤ 120)
  deriving Decidable

def Theme.Valid (t : Theme) : Prop :=
  t.templateId = "calm" ∧ Plain t.title 120 false ∧ Plain t.message 1000 true ∧
    ColorPattern t.primaryColor ∧ (t.locale = "ko" ∨ t.locale = "en") ∧
    x.logoBytes t.logoImage = true
  deriving Decidable

def ValidPrefixes (ps : List String) : Prop :=
  (∀ p ∈ ps, ValidPath p ∧ ¬ Reserved p) ∧ (ps.map trimSlash).Nodup
  deriving Decidable

def Room.validOrigins (r : Room) : Bool :=
  match validOrigin x r.origin, validOrigin x r.healthURL with
  | some origin, some health =>
    decide ((origin.path = "" ∨ origin.path = "/") ∧ origin.hostname ≠ r.hostname ∧
      health.host = origin.host ∧ ValidPath health.path)
  | _, _ => false

/-- `Room.Validate`. -/
@[mk_iff]
structure Room.Valid (r : Room) (profile : String) : Prop where
  id : IDPattern r.id
  publicId : PublicIDPattern r.publicId
  named : ∃ c ∈ r.name.toList, ¬ IsSpace c
  name : Plain r.name 120 false
  hostname : ValidHostname r.hostname
  origins : r.validOrigins x = true
  protects : 0 < r.protectPrefixes.length ∧ r.protectPrefixes.length ≤ 32
  excludes : r.excludePrefixes.length ≤ 32
  protectPrefixes : ValidPrefixes r.protectPrefixes
  excludePrefixes : ValidPrefixes r.excludePrefixes
  queuePolicy : r.queuePolicy.Valid
  limits : r.limits.Valid profile
  theme : r.theme.Valid x

instance (r : Room) (profile : String) : Decidable (r.Valid x profile) :=
  decidable_of_iff _ (Room.valid_iff x r profile).symm

def Room.Conflicts (r other : Room) : Prop :=
  other.active = true ∧ other.hostname = r.hostname ∧
    ∃ a ∈ r.protectPrefixes, ∃ b ∈ other.protectPrefixes, PrefixMatches a b ∨ PrefixMatches b a
  deriving Decidable

inductive ConfigError
  | invalid | conflict
deriving DecidableEq, Repr

/-- The loop of `Config.Validate`, after the rooms `before`. -/
def checkRooms (profile : String) : List Room → List Room → Option ConfigError
  | _, [] => none
  | before, r :: rooms =>
    if ¬ r.Valid x profile ∨ r.id ∈ before.map Room.id ∨ r.publicId ∈ before.map Room.publicId then
      some .invalid
    else if r.active = true ∧ ∃ other ∈ before, r.Conflicts other then some .conflict
    else checkRooms profile (before ++ [r]) rooms

/-- `Config.Validate`; `none` is its nil error. -/
def Config.validate (c : Config) : Option ConfigError :=
  if c.schemaVersion ≠ 1 ∨ c.revision < 0 ∨ maxInteger ≤ c.revision ∨ ¬ RegionPattern c.regionId ∨
      100 < c.rooms.length ∨ (c.profile ≠ "standard-10k" ∧ c.profile ≠ "high-scale-100k") then
    some .invalid
  else checkRooms x c.profile [] c.rooms

def Config.Valid (c : Config) : Prop := c.validate x = none
  deriving Decidable

variable {x}

theorem nodup_snoc {V : Type} {l : List V} {a : V} (h : l.Nodup) (ha : a ∉ l) :
    (l ++ [a]).Nodup := by
  refine List.nodup_append.mpr ⟨h, by simp, fun b hb c hc heq => ?_⟩
  rw [List.mem_singleton.mp hc] at heq
  exact ha (heq ▸ hb)

theorem checkRooms_eq_none {profile : String} {before rooms : List Room}
    (h : checkRooms x profile before rooms = none) (hid : (before.map Room.id).Nodup)
    (hpid : (before.map Room.publicId).Nodup) :
    (∀ r ∈ rooms, r.Valid x profile) ∧ ((before ++ rooms).map Room.id).Nodup ∧
      ((before ++ rooms).map Room.publicId).Nodup := by
  induction rooms generalizing before with
  | nil => simpa using ⟨hid, hpid⟩
  | cons r rooms ih =>
    rw [checkRooms] at h
    split at h
    · cases h
    · rename_i hr
      push Not at hr
      split at h
      · cases h
      · have hid' : ((before ++ [r]).map Room.id).Nodup := by
          rw [List.map_append]
          exact nodup_snoc hid hr.2.1
        have hpid' : ((before ++ [r]).map Room.publicId).Nodup := by
          rw [List.map_append]
          exact nodup_snoc hpid hr.2.2
        obtain ⟨hv, hids, hpids⟩ := ih h hid' hpid'
        rw [List.append_assoc, List.singleton_append] at hids hpids
        refine ⟨fun a ha => ?_, hids, hpids⟩
        rcases List.mem_cons.mp ha with rfl | ha
        · exact hr.1
        · exact hv a ha

theorem checkRooms_of {profile : String} {before rooms : List Room}
    (hv : ∀ r ∈ rooms, r.Valid x profile) (hactive : ∀ r ∈ rooms, r.active = false)
    (hid : ((before ++ rooms).map Room.id).Nodup)
    (hpid : ((before ++ rooms).map Room.publicId).Nodup) :
    checkRooms x profile before rooms = none := by
  induction rooms generalizing before with
  | nil => rfl
  | cons r rooms ih =>
    have hnew : ∀ f : Room → String, ((before ++ r :: rooms).map f).Nodup → f r ∉ before.map f := by
      intro f hn hmem
      rw [List.map_append, List.map_cons] at hn
      exact (List.nodup_append.mp hn).2.2 _ hmem _ List.mem_cons_self rfl
    rw [checkRooms, if_neg, if_neg]
    · apply ih
      · exact fun r hr => hv r (List.mem_cons_of_mem _ hr)
      · exact fun r hr => hactive r (List.mem_cons_of_mem _ hr)
      · rwa [List.append_assoc, List.singleton_append]
      · rwa [List.append_assoc, List.singleton_append]
    · rw [hactive r List.mem_cons_self]
      exact fun h => nomatch h.1
    · push Not
      exact ⟨hv r List.mem_cons_self, hnew Room.id hid, hnew Room.publicId hpid⟩

structure Config.Sound (x : Library) (c : Config) : Prop where
  schemaVersion : c.schemaVersion = 1
  revision : 0 ≤ c.revision ∧ c.revision < maxInteger
  region : RegionPattern c.regionId
  length : c.rooms.length ≤ 100
  profile : c.profile = "standard-10k" ∨ c.profile = "high-scale-100k"
  rooms : ∀ r ∈ c.rooms, r.Valid x c.profile
  ids : (c.rooms.map Room.id).Nodup
  publicIds : (c.rooms.map Room.publicId).Nodup

theorem Config.Valid.sound {c : Config} (h : c.Valid x) : c.Sound x := by
  unfold Config.Valid Config.validate at h
  split at h
  · cases h
  · rename_i hc
    push Not at hc
    obtain ⟨hv, hids, hpids⟩ := checkRooms_eq_none h (by simp) (by simp)
    refine ⟨hc.1, ⟨hc.2.1, hc.2.2.1⟩, hc.2.2.2.1, hc.2.2.2.2.1, ?_, hv, hids, hpids⟩
    by_cases hp : c.profile = "standard-10k"
    · exact .inl hp
    · exact .inr (hc.2.2.2.2.2 hp)

end Validate

end WaitingRoom.Control
