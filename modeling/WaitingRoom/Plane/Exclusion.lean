import WaitingRoom.Plane.Serve

/-!
# Exclusions of other rooms

The exclusions of all rooms of a host are looked at before any protection, and
validation compares protections only with protections. So the exclusion of one room
opens a path that another room protects, and the request is forwarded to the room
with the exclusion. A protection holds exactly where no room of the host excludes.
-/

namespace WaitingRoom.Plane

open Admission Control

set_option autoImplicit false

variable {x : Codec}

/-- A path that its node matches to a room goes to that room's origin, and there only if
the room is off or the visitor is admitted. -/
theorem forwarded_of_protects {w : Web x} {n : Node x} {d : Delivery} (hn : n.Serves d) {r : Request}
    {now : Nat} {room : Room} {host port : String} (hhost : w.splitHostPort r.host = some (host, port))
    (hfree : ¬ Reserved r.url.path)
    (decision : (d.config.matchURL host (some r.url)).decision = .protects)
    (ho : n.serveHTTP w r now = .origin room) :
    ∃ p ∈ d.rows, p.1.id = (d.config.matchURL host (some r.url)).roomId ∧ room = p.1 ∧
      (p.2.runtime.mode = .off ∨ Admitted w n ⟨p.1, p.2.runtime⟩ r now) := by
  obtain rfl := hn.delivery
  unfold Node.serveHTTP at ho
  rw [hhost] at ho
  dsimp only at ho
  split at ho
  · cases ho
  split at ho
  · cases ho
  split at ho
  · cases ho
  rcases select_cases w n host r with hroute | ⟨hreserved, -⟩
  · rw [hroute] at ho
    have hrouted := routed n host r
    generalize n.route host r = choice at hrouted ho
    cases hrouted with
    | refused hno => exact absurd ho (hno room)
    | nowhere => cases ho
    | opened hopen =>
      rcases hopen with h | h
      · rw [decision] at h
        cases h
      · rw [decision] at h
        cases h
    | @guarded h _ mem named =>
      dsimp only at ho
      split at ho
      · cases ho
      · obtain ⟨hroom, -, hadmitted⟩ := forwarded_by_room ho
        obtain ⟨p, hp, rfl⟩ := List.mem_map.mp (hn.rooms.mem_iff.mp mem)
        exact ⟨p, hp, named, hroom, hadmitted⟩
  · exact absurd hreserved hfree

/-- A canonical path that a room protects and does not exclude is matched to the room
exactly if no other room of the host excludes it; and then no request for it is
forwarded anywhere but to the room's origin, with an admission unless the room is off. -/
theorem exclusions_local (lib : Library) {c : Config} (hc : c.Valid lib) (host : String) (u : Url)
    (hpath : ValidPath u.path) (hraw : u.rawPath = "") (hpart : u.opaquePart = "")
    (hfree : ¬ Reserved u.path) (r : Room) (hr : r ∈ c.rooms) (hp : r.Protects host u.path)
    (hown : ¬ r.Excludes host u.path) :
    (c.matchURL host (some u) = ⟨.protects, r.id, "protect_prefix"⟩ ↔
      ∀ other ∈ c.rooms, other ≠ r → ¬ other.Excludes host u.path) ∧
    ((∀ other ∈ c.rooms, other ≠ r → ¬ other.Excludes host u.path) →
      ∀ (w : Web x) (n : Node x) (d : Delivery), n.Serves d → d.Valid lib → d.config = c →
        ∀ (q : Request) (port : String) (now : Nat) (room : Room), q.url = u →
          w.splitHostPort q.host = some (host, port) → n.serveHTTP w q now = .origin room →
          room = r ∧ ∃ p ∈ d.rows, p.1 = r ∧
            (p.2.runtime.mode = .off ∨ Admitted w n ⟨p.1, p.2.runtime⟩ q now)) := by
  have protects : (∀ other ∈ c.rooms, other ≠ r → ¬ other.Excludes host u.path) →
      c.matchURL host (some u) = ⟨.protects, r.id, "protect_prefix"⟩ := by
    intro hothers
    apply hc.match_protects hr hp ⟨hpath, hraw, hpart⟩ hfree
    intro other hother
    by_cases hsame : other = r
    · rw [hsame]
      exact hown
    · exact hothers other hother hsame
  refine ⟨⟨fun hmatch other hother _ hex => ?_, protects⟩, ?_⟩
  · have hmatched := matchURL_matched c host u
    have decision : (c.matchURL host (some u)).decision = .protects := by rw [hmatch]
    generalize c.matchURL host (some u) = m at hmatched decision
    cases hmatched with
    | invalid | reserved | excluded | unprotected => cases decision
    | protects _ _ open' => exact open' other hother hex
  · intro hothers w n d hn hd hconfig q port now room hurl hhost ho
    subst hconfig
    subst hurl
    have hmatch := protects hothers
    obtain ⟨p, hmem, hid, hroom, hadmitted⟩ :=
      forwarded_of_protects hn hhost hfree (by rw [hmatch]) ho
    obtain ⟨p', hmem', hp'⟩ := hd.exists_row_of_room hr
    have hrow : p = p' := by
      apply hd.rows_inj hmem hmem'
      rw [hid, hmatch, hp']
    have hroomEq : p.1 = r := by rw [hrow, hp']
    exact ⟨hroom.trans hroomEq, p, hmem, hroomEq, hadmitted⟩

/-! ## A hole -/

def twoOrigins : Library :=
  { sampleLibrary with
    parseURL := fun raw =>
      if raw = "https://cart.test" then
        some { scheme := "https", hostname := "cart.test", host := "cart.test" }
      else if raw = "https://cart.test/health" then
        some { scheme := "https", hostname := "cart.test", host := "cart.test", path := "/health" }
      else sampleLibrary.parseURL raw }

/-- The room `shop` protects all of `/shop`. -/
def shopRoom : Room := { sampleRoom with protectPrefixes := ["/shop"] }

/-- The room `cart` of the same host excludes a path that it does not protect. -/
def cartRoom : Room :=
  { sampleRoom with
    id := "cart"
    publicId := "bbbbbbbbbbbbbbbbbbbb"
    origin := "https://cart.test"
    healthURL := "https://cart.test/health"
    protectPrefixes := ["/cart/"]
    excludePrefixes := ["/shop/info"] }

def holedDelivery : Delivery :=
  ⟨⟨1, 1, "standard-10k", "local", [shopRoom, cartRoom]⟩,
    [⟨"shop", { initialRuntime shopRoom with mode := .auto }⟩,
      ⟨"cart", { initialRuntime cartRoom with mode := .auto }⟩]⟩

def holedNode : Node plainCodec where
  identity := ⟨"site", none, ()⟩
  delivery := holedDelivery
  rooms := holedDelivery.rows.map fun p => ⟨p.1, p.2.runtime⟩
  valid := true

def holedVisit (path : String) (headers : List (String × String)) : Request :=
  { sampleVisit headers with url := sampleUrl path, uri := Doc.utf8 path.toList }

theorem holedDelivery_valid : holedDelivery.Valid twoOrigins := by decide

set_option maxRecDepth 4000 in
/-- The path is one of the shop, which does not exclude it, and without any credential it
is forwarded to the origin of the cart. -/
theorem exclusion_opens_other_room :
    holedDelivery.config.Valid twoOrigins ∧ shopRoom ∈ holedDelivery.config.rooms ∧
    shopRoom.Protects "shop.test" "/shop/info" ∧ ¬ shopRoom.Excludes "shop.test" "/shop/info" ∧
    holedDelivery.config.matchURL "shop.test" (some (sampleUrl "/shop/info")) =
      ⟨.excluded, "cart", "exclude_prefix"⟩ ∧
    holedNode.serveHTTP sampleWeb (holedVisit "/shop/info" []) 1000 = .origin cartRoom := by
  refine ⟨holedDelivery_valid.1, List.mem_cons_self, by decide, by decide, by decide, by decide⟩

/-- The targets of this web are the path `/shop/a`. -/
def holedWeb : Web plainCodec :=
  { sampleWeb with parseRequestURI := fun _ => some (sampleUrl "/shop/a") }

def admittedVisit : Request := holedVisit "/shop/a" [("X-Waiting-Room-Admission", "a.b")]

set_option maxRecDepth 4000 in
theorem admittedVisit_forwarded : holedNode.serveHTTP holedWeb admittedVisit 1000 = .origin shopRoom := by
  decide

set_option maxRecDepth 4000 in
/-- The rest of the shop is guarded, and opens with an admission. -/
theorem shop_guarded :
    holedDelivery.config.matchURL "shop.test" (some (sampleUrl "/shop/a")) =
      ⟨.protects, "shop", "protect_prefix"⟩ ∧
    ∃ p ∈ holedDelivery.rows, p.1 = shopRoom ∧
      Admitted holedWeb holedNode ⟨p.1, p.2.runtime⟩ admittedVisit 1000 := by
  obtain ⟨hmatch, hguarded⟩ := exclusions_local (x := plainCodec) twoOrigins holedDelivery_valid.1
    "shop.test" (sampleUrl "/shop/a") (by decide) rfl rfl (by decide) shopRoom List.mem_cons_self
    (by decide) (by decide)
  have hothers : ∀ other ∈ holedDelivery.config.rooms, other ≠ shopRoom →
      ¬ other.Excludes "shop.test" "/shop/a" := by decide
  obtain ⟨-, p, hp, hroom, hoff | hadmitted⟩ := hguarded hothers holedWeb holedNode holedDelivery
    ⟨rfl, .refl _⟩ holedDelivery_valid rfl admittedVisit "20443" 1000 shopRoom rfl rfl
    admittedVisit_forwarded
  · have hauto : ∀ p ∈ holedDelivery.rows, p.2.runtime.mode ≠ .off := by decide
    exact absurd hoff (hauto p hp)
  · exact ⟨hmatch.mpr hothers, p, hp, hroom, hadmitted⟩

end WaitingRoom.Plane
