import WaitingRoom.Control.Succession

/-!
# Routes

Which room a request belongs to. Validation compares the protected prefixes of two
rooms with each other, matching compares one prefix with a path; that both look at
whole segments is what makes the owner of a path unique.
-/

namespace WaitingRoom.Control

set_option autoImplicit false

inductive Decision
  | invalid | reserved | excluded | protects | unprotected
deriving DecidableEq, Repr

structure Match where
  decision : Decision
  roomId : String := ""
  reason : String
deriving DecidableEq, Repr

/-- An active room of the host with an excluded prefix of the path. -/
def Room.Excludes (r : Room) (host path : String) : Prop :=
  r.active = true ∧ r.hostname = host ∧ ∃ p ∈ r.excludePrefixes, PrefixMatches p path
  deriving Decidable

/-- An active room of the host with a protected prefix of the path. -/
def Room.Protects (r : Room) (host path : String) : Prop :=
  r.active = true ∧ r.hostname = host ∧ ∃ p ∈ r.protectPrefixes, PrefixMatches p path
  deriving Decidable

def Canonical (host : String) (u : Url) : Prop :=
  ValidHostname host ∧ ValidPath u.path ∧ u.rawPath = "" ∧ u.opaquePart = ""
  deriving Decidable

/-- `MatchURL`; a nil URL is `none`. -/
def Config.matchURL (c : Config) (host : String) : Option Url → Match
  | none => ⟨.invalid, "", "noncanonical_url"⟩
  | some u =>
    if ¬ Canonical host u then ⟨.invalid, "", "noncanonical_url"⟩
    else if Reserved u.path then ⟨.reserved, "", "internal_namespace"⟩
    else
      match c.rooms.find? fun r => r.Excludes host u.path with
      | some r => ⟨.excluded, r.id, "exclude_prefix"⟩
      | none =>
        match c.rooms.find? fun r => r.Protects host u.path with
        | some r => ⟨.protects, r.id, "protect_prefix"⟩
        | none => ⟨.unprotected, "", "no_active_rule"⟩

/-! ## Prefixes by segments -/

theorem prefixMatches_iff {p path : String} :
    PrefixMatches p path ↔ trimSlash p = [] ∨ (trimSlash p ++ ['/']) <+: path.toList ++ ['/'] := by
  unfold PrefixMatches
  constructor
  · rintro (h | h | h)
    · exact .inl h
    · right
      rw [h]
    · exact .inr (h.trans (List.prefix_append _ _))
  · rintro (h | h)
    · exact .inl h
    · rcases List.prefix_concat_iff.mp h with heq | hlt
      · obtain ⟨htrim, -⟩ := List.append_inj' heq rfl
        exact .inr (.inl htrim.symm)
      · exact .inr (.inr hlt)

theorem toList_eq_trimSlash (p : String) :
    p.toList = trimSlash p ∨ p.toList = trimSlash p ++ ['/'] := by
  unfold trimSlash
  split
  · rename_i h
    right
    obtain ⟨l, hl⟩ := List.getLast?_eq_some_iff.mp h
    rw [hl, List.dropLast_concat]
  · exact .inl rfl

theorem prefixMatches_of_le {a b path : String} (ha : PrefixMatches a path) (hb : PrefixMatches b path)
    (hle : (trimSlash a).length ≤ (trimSlash b).length) : PrefixMatches a b := by
  rw [prefixMatches_iff] at ha hb ⊢
  rcases ha with ha | ha
  · exact .inl ha
  rcases hb with hb | hb
  · left
    rw [hb, List.length_nil] at hle
    exact List.length_eq_zero_iff.mp (by omega)
  · right
    have hab : (trimSlash a ++ ['/']) <+: trimSlash b ++ ['/'] := by
      apply List.prefix_of_prefix_length_le ha hb
      rw [List.length_append, List.length_append]
      omega
    rcases toList_eq_trimSlash b with h | h
    · rwa [h]
    · rw [h]
      exact hab.trans (List.prefix_append _ _)

theorem prefixMatches_comparable {a b path : String} (ha : PrefixMatches a path)
    (hb : PrefixMatches b path) : PrefixMatches a b ∨ PrefixMatches b a := by
  rcases Nat.le_total (trimSlash a).length (trimSlash b).length with hle | hle
  · exact .inl (prefixMatches_of_le ha hb hle)
  · exact .inr (prefixMatches_of_le hb ha hle)

/-! ## One owner -/

variable {x : Library}

theorem checkRooms_apart {profile : String} {before rooms : List Room}
    (h : checkRooms x profile before rooms = none) :
    (∀ r ∈ rooms, r.active = true → ∀ other ∈ before, ¬ r.Conflicts other) ∧
      rooms.Pairwise fun other r => r.active = true → ¬ r.Conflicts other := by
  induction rooms generalizing before with
  | nil => exact ⟨fun r hr => absurd hr List.not_mem_nil, .nil⟩
  | cons r rooms ih =>
    rw [checkRooms] at h
    split at h
    · cases h
    · split at h
      · cases h
      · rename_i hr
        push Not at hr
        obtain ⟨hbefore, hpairs⟩ := ih h
        refine ⟨fun r' hr' hactive other hother => ?_, List.pairwise_cons.mpr ⟨fun r' hr' hactive => ?_, hpairs⟩⟩
        · rcases List.mem_cons.mp hr' with rfl | hr'
          · exact hr hactive other hother
          · exact hbefore r' hr' hactive other (List.mem_append_left _ hother)
        · exact hbefore r' hr' hactive r (List.mem_append_right _ List.mem_cons_self)

theorem Room.Protects.conflicts {r other : Room} {host path : String} (h : r.Protects host path)
    (ho : other.Protects host path) : r.Conflicts other := by
  obtain ⟨-, hhost, a, ha, hap⟩ := h
  obtain ⟨hactive, hhost', b, hb, hbp⟩ := ho
  exact ⟨hactive, hhost'.trans hhost.symm, a, ha, b, hb, prefixMatches_comparable hap hbp⟩

theorem Config.Valid.apart {c : Config} (h : c.Valid x) (host path : String) :
    c.rooms.Pairwise fun r r' => ¬ (r.Protects host path ∧ r'.Protects host path) := by
  unfold Config.Valid Config.validate at h
  split at h
  · cases h
  · refine (checkRooms_apart h).2.imp ?_
    rintro r r' hno ⟨hr, hr'⟩
    exact hno hr'.1 (hr'.conflicts hr)

theorem countP_le_one_of_pairwise {V : Type} {p : V → Bool} {l : List V}
    (h : l.Pairwise fun a b => ¬ (p a = true ∧ p b = true)) : l.countP p ≤ 1 := by
  induction l with
  | nil => exact Nat.zero_le 1
  | cons a l ih =>
    obtain ⟨ha, hl⟩ := List.pairwise_cons.mp h
    rw [List.countP_cons]
    split
    · rename_i hpa
      have hzero : l.countP p = 0 := List.countP_eq_zero.mpr fun b hb hpb => ha b hb ⟨hpa, hpb⟩
      omega
    · exact ih hl

theorem Config.Valid.owner_unique {c : Config} (h : c.Valid x) {host path : String} {r r' : Room}
    (hr : r ∈ c.rooms) (hr' : r' ∈ c.rooms) (hp : r.Protects host path) (hp' : r'.Protects host path) :
    r = r' := by
  by_contra hne
  have symm : Std.Symm fun r r' : Room => ¬ (r.Protects host path ∧ r'.Protects host path) :=
    ⟨fun a b hab hba => hab hba.symm⟩
  exact (h.apart host path).forall hr hr' hne ⟨hp, hp'⟩

theorem Config.Valid.countP_protects {c : Config} (h : c.Valid x) (host path : String) :
    c.rooms.countP (fun r => r.Protects host path) ≤ 1 := by
  apply countP_le_one_of_pairwise
  simpa using h.apart host path

/-! ## What a match says -/

/-- What each answer of `MatchURL` means for the rooms. -/
inductive Matched (rooms : List Room) (host : String) (u : Url) : Match → Prop
  | invalid (h : ¬ Canonical host u) : Matched rooms host u ⟨.invalid, "", "noncanonical_url"⟩
  | reserved (canonical : Canonical host u) (h : Reserved u.path) :
      Matched rooms host u ⟨.reserved, "", "internal_namespace"⟩
  | excluded {r : Room} (canonical : Canonical host u) (free : ¬ Reserved u.path) (mem : r ∈ rooms)
      (h : r.Excludes host u.path) : Matched rooms host u ⟨.excluded, r.id, "exclude_prefix"⟩
  | protects {r : Room} (canonical : Canonical host u) (free : ¬ Reserved u.path)
      (open' : ∀ r ∈ rooms, ¬ r.Excludes host u.path) (mem : r ∈ rooms) (h : r.Protects host u.path) :
      Matched rooms host u ⟨.protects, r.id, "protect_prefix"⟩
  | unprotected (canonical : Canonical host u) (free : ¬ Reserved u.path)
      (open' : ∀ r ∈ rooms, ¬ r.Excludes host u.path) (h : ∀ r ∈ rooms, ¬ r.Protects host u.path) :
      Matched rooms host u ⟨.unprotected, "", "no_active_rule"⟩

theorem matchURL_matched (c : Config) (host : String) (u : Url) :
    Matched c.rooms host u (c.matchURL host (some u)) := by
  simp only [Config.matchURL]
  split
  · exact .invalid ‹_›
  have hcanonical : Canonical host u := not_not.mp ‹_›
  split
  · exact .reserved hcanonical ‹_›
  split
  · rename_i r hfind
    exact .excluded hcanonical ‹_› (List.mem_of_find?_eq_some hfind) (by simpa using List.find?_some hfind)
  rename_i hopen
  have hno : ∀ r ∈ c.rooms, ¬ r.Excludes host u.path := by simpa using hopen
  split
  · rename_i r hfind
    exact .protects hcanonical ‹_› hno (List.mem_of_find?_eq_some hfind) (by simpa using List.find?_some hfind)
  · rename_i hnone
    exact .unprotected hcanonical ‹_› hno (by simpa using hnone)

theorem Config.Valid.match_protects {c : Config} (h : c.Valid x) {host : String} {u : Url} {r : Room}
    (hr : r ∈ c.rooms) (hp : r.Protects host u.path) (hu : ValidPath u.path ∧ u.rawPath = "" ∧ u.opaquePart = "")
    (hfree : ¬ Reserved u.path) (hopen : ∀ other ∈ c.rooms, ¬ other.Excludes host u.path) :
    c.matchURL host (some u) = ⟨.protects, r.id, "protect_prefix"⟩ := by
  have hhost : ValidHostname host := hp.2.1 ▸ (h.sound.rooms r hr).hostname
  have hm := matchURL_matched c host u
  generalize c.matchURL host (some u) = m at hm
  cases hm with
  | invalid hno => exact absurd ⟨hhost, hu⟩ hno
  | reserved _ hres => exact absurd hres hfree
  | excluded _ _ mem hex => exact absurd hex (hopen _ mem)
  | protects _ _ _ mem hp' => rw [h.owner_unique hr mem hp hp']
  | unprotected _ _ _ hno => exact absurd hp (hno r hr)

/-! ## The order of rooms and prefixes -/

structure Room.Reordered (r r' : Room) : Prop where
  id : r'.id = r.id
  active : r'.active = r.active
  hostname : r'.hostname = r.hostname
  protectPrefixes : r'.protectPrefixes.Perm r.protectPrefixes
  excludePrefixes : r'.excludePrefixes.Perm r.excludePrefixes

theorem Room.Reordered.excludes {r r' : Room} (h : r.Reordered r') (host path : String) :
    r'.Excludes host path ↔ r.Excludes host path := by
  unfold Room.Excludes
  rw [h.active, h.hostname]
  simp only [h.excludePrefixes.mem_iff]

theorem Room.Reordered.protects {r r' : Room} (h : r.Reordered r') (host path : String) :
    r'.Protects host path ↔ r.Protects host path := by
  unfold Room.Protects
  rw [h.active, h.hostname]
  simp only [h.protectPrefixes.mem_iff]

/-- The same rooms in another order, each with its prefixes in another order. -/
def Config.Reordered (c c' : Config) : Prop :=
  ∃ rooms, List.Forall₂ Room.Reordered c.rooms rooms ∧ rooms.Perm c'.rooms

theorem mem_of_forall₂ {V : Type} {R : V → V → Prop} {l l' : List V} (h : List.Forall₂ R l l') :
    (∀ a ∈ l, ∃ b ∈ l', R a b) ∧ ∀ b ∈ l', ∃ a ∈ l, R a b := by
  induction h with
  | nil => exact ⟨fun a ha => absurd ha List.not_mem_nil, fun a ha => absurd ha List.not_mem_nil⟩
  | @cons a b l l' hab _ ih =>
    refine ⟨fun a' ha' => ?_, fun b' hb' => ?_⟩
    · rcases List.mem_cons.mp ha' with rfl | ha'
      · exact ⟨b, List.mem_cons_self, hab⟩
      · obtain ⟨b', hb', hR⟩ := ih.1 a' ha'
        exact ⟨b', List.mem_cons_of_mem _ hb', hR⟩
    · rcases List.mem_cons.mp hb' with rfl | hb'
      · exact ⟨a, List.mem_cons_self, hab⟩
      · obtain ⟨a', ha', hR⟩ := ih.2 b' hb'
        exact ⟨a', List.mem_cons_of_mem _ ha', hR⟩

theorem Config.Reordered.mem {c c' : Config} (h : c.Reordered c') :
    (∀ r ∈ c.rooms, ∃ r' ∈ c'.rooms, r.Reordered r') ∧ ∀ r' ∈ c'.rooms, ∃ r ∈ c.rooms, r.Reordered r' := by
  obtain ⟨rooms, hall, hperm⟩ := h
  obtain ⟨hto, hfrom⟩ := mem_of_forall₂ hall
  refine ⟨fun r hr => ?_, fun r' hr' => hfrom r' (hperm.mem_iff.mpr hr')⟩
  obtain ⟨r', hr', hrr'⟩ := hto r hr
  exact ⟨r', hperm.mem_iff.mp hr', hrr'⟩

theorem Config.Reordered.matchURL {c c' : Config} (h : c.Reordered c') (hc : c.Valid x) (host : String)
    (u : Url) :
    (c'.matchURL host (some u)).decision = (c.matchURL host (some u)).decision ∧
      ((c.matchURL host (some u)).decision = .protects →
        (c'.matchURL host (some u)).roomId = (c.matchURL host (some u)).roomId) := by
  obtain ⟨hto, hfrom⟩ := h.mem
  have hm := matchURL_matched c host u
  have hm' := matchURL_matched c' host u
  generalize c.matchURL host (some u) = m at hm ⊢
  generalize c'.matchURL host (some u) = m' at hm' ⊢
  have hexcludes : (∃ r ∈ c.rooms, r.Excludes host u.path) ↔ ∃ r ∈ c'.rooms, r.Excludes host u.path := by
    constructor
    · rintro ⟨r, hr, hex⟩
      obtain ⟨r', hr', hrr'⟩ := hto r hr
      exact ⟨r', hr', (hrr'.excludes host u.path).mpr hex⟩
    · rintro ⟨r', hr', hex⟩
      obtain ⟨r, hr, hrr'⟩ := hfrom r' hr'
      exact ⟨r, hr, (hrr'.excludes host u.path).mp hex⟩
  cases hm with
  | invalid hno =>
    cases hm' with
    | invalid => exact ⟨rfl, fun hp => nomatch hp⟩
    | reserved canonical | excluded canonical | protects canonical | unprotected canonical =>
      exact absurd canonical hno
  | reserved canonical hres =>
    cases hm' with
    | invalid hno => exact absurd canonical hno
    | reserved => exact ⟨rfl, fun hp => nomatch hp⟩
    | excluded _ free | protects _ free | unprotected _ free => exact absurd hres free
  | excluded canonical free mem hex =>
    obtain ⟨r', hr', hex'⟩ := hexcludes.mp ⟨_, mem, hex⟩
    cases hm' with
    | invalid hno => exact absurd canonical hno
    | reserved _ hres => exact absurd hres free
    | excluded => exact ⟨rfl, fun hp => nomatch hp⟩
    | protects _ _ open' | unprotected _ _ open' => exact absurd hex' (open' r' hr')
  | @protects r canonical free open' mem hp =>
    cases hm' with
    | invalid hno => exact absurd canonical hno
    | reserved _ hres => exact absurd hres free
    | excluded _ _ mem' hex' =>
      obtain ⟨r, hr, hex⟩ := hexcludes.mpr ⟨_, mem', hex'⟩
      exact absurd hex (open' r hr)
    | @protects r' _ _ _ mem' hp' =>
      obtain ⟨r₀, hr₀, hrr'⟩ := hfrom r' mem'
      have howner := hc.owner_unique mem hr₀ hp ((hrr'.protects host u.path).mp hp')
      refine ⟨rfl, fun _ => ?_⟩
      rw [howner]
      exact hrr'.id
    | unprotected _ _ _ hno =>
      obtain ⟨r', hr', hrr'⟩ := hto r mem
      exact absurd ((hrr'.protects host u.path).mpr hp) (hno r' hr')
  | unprotected canonical free open' hno =>
    cases hm' with
    | invalid hno => exact absurd canonical hno
    | reserved _ hres => exact absurd hres free
    | excluded _ _ mem' hex' =>
      obtain ⟨r, hr, hex⟩ := hexcludes.mpr ⟨_, mem', hex'⟩
      exact absurd hex (open' r hr)
    | @protects r' _ _ _ mem' hp' =>
      obtain ⟨r, hr, hrr'⟩ := hfrom r' mem'
      exact absurd ((hrr'.protects host u.path).mp hp') (hno r hr)
    | unprotected => exact ⟨rfl, fun hp => nomatch hp⟩

/-- Every path has at most one owner at a host, which is the room that a protected match
names, in any order of rooms and prefixes; and a path that its host does not exclude is
protected by its owner. -/
theorem route_ownership (x : Library) {c : Config} (hc : c.Valid x) (host : String) :
    (∀ path, c.rooms.countP (fun r => r.Protects host path) ≤ 1) ∧
    (∀ u, (c.matchURL host (some u)).decision = .protects →
      ∃ r ∈ c.rooms, r.Protects host u.path ∧ (c.matchURL host (some u)).roomId = r.id) ∧
    (∀ c', c.Reordered c' → ∀ u,
      (c'.matchURL host (some u)).decision = (c.matchURL host (some u)).decision ∧
        ((c.matchURL host (some u)).decision = .protects →
          (c'.matchURL host (some u)).roomId = (c.matchURL host (some u)).roomId)) ∧
    ∀ u : Url, ValidPath u.path → u.rawPath = "" → u.opaquePart = "" → ¬ Reserved u.path →
      (∀ other ∈ c.rooms, ¬ other.Excludes host u.path) → ∀ r ∈ c.rooms, r.Protects host u.path →
        c.matchURL host (some u) = ⟨.protects, r.id, "protect_prefix"⟩ := by
  refine ⟨fun path => hc.countP_protects host path, fun u hprotects => ?_, fun c' h u => h.matchURL hc host u,
    fun u hpath hraw hpart hfree hopen r hr hp => hc.match_protects hr hp ⟨hpath, hraw, hpart⟩ hfree hopen⟩
  have hm := matchURL_matched c host u
  generalize c.matchURL host (some u) = m at hm hprotects ⊢
  cases hm with
  | invalid | reserved | excluded | unprotected => cases hprotects
  | @protects r _ _ _ mem hp => exact ⟨r, mem, hp, rfl⟩

def sampleRoutes : Config :=
  ⟨1, 1, "standard-10k", "local",
    [{ sampleRoom with protectPrefixes := ["/shop"] },
     { sampleRoom with
        id := "cart"
        publicId := "bbbbbbbbbbbbbbbbbbbb"
        protectPrefixes := ["/cart/"]
        excludePrefixes := ["/shop/info"] }]⟩

theorem sampleRoutes_valid : sampleRoutes.Valid sampleLibrary := by decide

def sampleUrl (path : String) : Url :=
  { scheme := "", hostname := "", host := "", path := path }

theorem sampleRoutes_owned :
    sampleRoutes.Valid sampleLibrary ∧
    sampleRoutes.matchURL "shop.test" (some (sampleUrl "/cart/1")) = ⟨.protects, "cart", "protect_prefix"⟩ :=
  ⟨sampleRoutes_valid, (route_ownership sampleLibrary sampleRoutes_valid "shop.test").2.2.2
    (sampleUrl "/cart/1") (by decide) rfl rfl (by decide) (by decide) _
    (List.mem_cons_of_mem _ List.mem_cons_self) (by decide)⟩

end WaitingRoom.Control
