import WaitingRoom.Admission.Gateway
import WaitingRoom.Control.Route

/-!
# What a gateway forwards

The handler of a gateway node, from the host and the path of a request to the room
that answers it and, in that room, to the credential of the visitor. The parsers of
`net`, `net/url` and the token encodings are parameters. A target is its bytes; a
path or a header is a text, which loses only bytes that no valid path has.
-/

namespace WaitingRoom.Plane

set_option autoImplicit false

open Control Admission

abbrev Bytes := List UInt8

structure Request where
  method : String
  host : String
  tls : Bool
  url : Url
  /-- What `URL.RequestURI` renders. -/
  uri : Bytes
  headers : List (String × String)
  cookies : List (String × String)
  body : Bytes

def Request.values (r : Request) (name : String) : List String :=
  (r.headers.filter fun h => h.1 = name).map Prod.snd

/-- `Header.Get`. -/
def Request.header (r : Request) (name : String) : String := (r.values name).headD ""

/-- `uniqueCookie`: no value at all is the empty one, two are an error. -/
def uniqueCookie (r : Request) (name : String) : Option String :=
  match r.cookies.filter fun c => c.1 = name with
  | [] => some ""
  | [c] => some c.2
  | _ => none

structure Web (x : Codec) where
  splitHostPort : String → Option (String × String)
  parseRequestURI : Bytes → Option Url
  decodeTarget : Bytes → Option Bytes
  decodeToken : List Char → List Char → Option (Token x)

variable {x : Codec}

def Web.readToken (w : Web x) (raw : String) : Option (Token x) :=
  match raw.toList.splitOn '.' with
  | [payload, signature] => w.decodeToken payload signature
  | _ => none

/-- `targetFor`. The characters that it refuses are single bytes. -/
def targetFor (w : Web x) (c : Config) (room : Room) (target : Bytes) : Bool :=
  if target.length = 0 ∨ 2048 < target.length ∨ [47, 47] <+: target then false
  else if ∃ b ∈ target, b < 32 ∨ b = 127 ∨ b = 92 then false
  else
    match w.parseRequestURI target with
    | none => false
    | some u =>
      if u.scheme ≠ "" ∨ u.host ≠ "" ∨ u.fragment ≠ "" then false
      else
        let m := c.matchURL room.hostname (some u)
        decide (m.decision = .protects ∧ m.roomId = room.id)

structure Identity (x : Codec) where
  installation : String
  keys : Option (KeySet x)
  admissionPublic : x.Public

structure RoomHandler where
  room : Room
  runtime : Runtime

/-- A gateway node. The rooms are in the order that the loops of one request meet them
in. -/
structure Node (x : Codec) where
  identity : Identity x
  delivery : Delivery
  rooms : List RoomHandler
  /-- `validLocked`. -/
  valid : Bool

/-- The node has taken over the delivery `d`, as `apply` does. -/
structure Node.Serves (n : Node x) (d : Delivery) : Prop where
  delivery : n.delivery = d
  rooms : n.rooms.Perm (d.rows.map fun p => ⟨p.1, p.2.runtime⟩)

def RoomHandler.gateway (n : Node x) (h : RoomHandler) : Gateway x where
  binding :=
    { keys := n.identity.keys
      room := h.room.publicId
      audience := n.identity.installation ++ ":" ++ h.room.publicId
      kid := "admission-v1"
      epoch := h.runtime.epoch }
  key := n.identity.admissionPublic

section Names

variable (publicId : String)

def base : String := "/_wr/v1/rooms/" ++ publicId

def waitPath : String := "/_wr/wait/" ++ publicId

def queueCookie : String := "__Host-wrq_" ++ publicId

def admissionCookie : String := "__Host-wra_" ++ publicId

def themeURL : String := "/_wr/theme/" ++ publicId ++ ".css"

def logoURL : String := "/_wr/theme/" ++ publicId ++ "/logo.png"

end Names

def navigation (r : Request) : Bool :=
  decide ((r.method = "GET" ∨ r.method = "HEAD") ∧
    (r.header "Sec-Fetch-Dest" = "document" ∨ "text/html".toList <:+: (r.header "Accept").toList))

/-- What becomes of a request. Everything but `origin` is answered by the node itself or by
the coordinator. -/
inductive Outcome
  | status (code : Nat)
  | problem (status : Nat) (code : String)
  | traffic
  | asset
  | theme
  | logo
  | prepare
  | cookieAPI
  | coordinator
  | page
  | join
  | origin (room : Room)
deriving DecidableEq

/-- The end of `gatewayHandler`, for a target of a room that is not off. -/
def RoomHandler.admit (w : Web x) (n : Node x) (h : RoomHandler) (r : Request) (now : Nat) : Outcome :=
  if 1 < (r.values "X-Waiting-Room-Admission").length then .problem 400 "INVALID_REQUEST"
  else
    let token := r.header "X-Waiting-Room-Admission"
    match uniqueCookie r (admissionCookie h.room.publicId) with
    | none => .problem 400 "INVALID_REQUEST"
    | some cookie =>
      if cookie ≠ "" ∧ token ≠ "" then .problem 400 "INVALID_REQUEST"
      else
        let token := if cookie ≠ "" then cookie else token
        match (w.readToken token).bind fun t => (h.gateway n).verifyAdmission t now with
        | some _ => .origin h.room
        | none =>
          let q := (uniqueCookie r (queueCookie h.room.publicId)).getD ""
          if h.runtime.mode = .draining ∧ (q = "" ∨ ¬ navigation r) then .problem 503 "QUEUE_DRAINING"
          else if navigation r then .join
          else .problem 429 "WAITING_ROOM_REQUIRED"

def RoomHandler.gatewayHandler (w : Web x) (n : Node x) (h : RoomHandler) (r : Request) (now : Nat) :
    Outcome :=
  let path := r.url.path
  if path = "/livez" ∧ r.method = "GET" then .status 204
  else if path = base h.room.publicId ++ "/browser-prepare" then .prepare
  else if "/_wr/v1/".toList <+: path.toList then
    if uniqueCookie r (queueCookie h.room.publicId) = some "" then .coordinator else .cookieAPI
  else if path = waitPath h.room.publicId then .page
  else if "/_wr/assets/".toList <+: path.toList then .asset
  else if ¬ targetFor w n.delivery.config h.room r.uri then .problem 404 "NOT_FOUND"
  else if h.runtime.mode = .off then .origin h.room
  else h.admit w n r now

/-- The handler of `NewBoundGateway`. -/
def RoomHandler.serve (w : Web x) (n : Node x) (h : RoomHandler) (r : Request) (now : Nat) : Outcome :=
  if ¬ (r.tls = true ∧ r.host = h.room.hostname ++ ":20443") then .problem 421 "MISDIRECTED_REQUEST"
  else if h.room.theme.logoImage ≠ "" ∧ r.url.path = logoURL h.room.publicId then
    if r.method = "GET" ∨ r.method = "HEAD" then .logo else .status 405
  else if r.url.path = themeURL h.room.publicId then
    if r.method = "GET" ∨ r.method = "HEAD" then .theme else .status 405
  else h.gatewayHandler w n r now

def Node.lookup (n : Node x) (publicId : List Char) : Option RoomHandler :=
  n.rooms.find? fun h => h.room.publicId.toList = publicId

/-- `strings.TrimSuffix(strings.TrimPrefix(path, front), back)`. -/
def trim (front back path : List Char) : List Char :=
  let rest := if front <+: path then path.drop front.length else path
  if back <:+ rest then rest.take (rest.length - back.length) else rest

/-- The loop for an unprotected path: all rooms of the host must have one origin, and the
last one that the loop meets is taken. -/
def openRoom (host : String) :
    List RoomHandler → String → Option RoomHandler → Except Outcome (Option RoomHandler)
  | [], _, selected => .ok selected
  | h :: rooms, origin, selected =>
    if h.room.hostname = host then
      if origin ≠ "" ∧ origin ≠ h.room.origin then .error (.problem 404 "NOT_FOUND")
      else openRoom host rooms h.room.origin (some h)
    else openRoom host rooms origin selected

/-- The last branch of `ServeHTTP`, for a path that is not one of the node's own. -/
def Node.route (n : Node x) (host : String) (r : Request) : Except Outcome (Option RoomHandler) :=
  let m := n.delivery.config.matchURL host (some r.url)
  if m.decision = .invalid ∨ m.decision = .reserved then .error (.problem 404 "NOT_FOUND")
  else
    let selected := n.rooms.find? fun h => h.room.id = m.roomId
    match m.decision, selected with
    | .excluded, some h => .error (.origin h.room)
    | .unprotected, selected =>
      match openRoom host n.rooms "" selected with
      | .error o => .error o
      | .ok none => .ok none
      | .ok (some h) => .error (.origin h.room)
    | _, selected => .ok selected

def Node.select (w : Web x) (n : Node x) (host : String) (r : Request) :
    Except Outcome (Option RoomHandler) :=
  let path := r.url.path.toList
  if "/_wr/assets/".toList <+: path then
    if n.rooms.any fun h => h.room.hostname = host then .error .asset
    else .error (.problem 404 "NOT_FOUND")
  else if "/_wr/theme/".toList <+: path ∧ ".css".toList <:+ path then
    .ok (n.lookup (trim "/_wr/theme/".toList ".css".toList path))
  else if "/_wr/theme/".toList <+: path ∧ "/logo.png".toList <:+ path then
    .ok (n.lookup (trim "/_wr/theme/".toList "/logo.png".toList path))
  else if path = "/_wr/v1/tickets".toList then
    if r.method ≠ "POST" then .error (.problem 405 "METHOD_NOT_ALLOWED")
    else
      match w.decodeTarget r.body with
      | none => .error (.problem 400 "INVALID_REQUEST")
      | some target =>
        .ok (n.rooms.find? fun h =>
          decide (h.room.hostname = host) && targetFor w n.delivery.config h.room target)
  else if "/_wr/wait/".toList <+: path then .ok ((path.splitOn '/')[3]?.bind n.lookup)
  else if "/_wr/v1/rooms/".toList <+: path then .ok ((path.splitOn '/')[4]?.bind n.lookup)
  else n.route host r

/-- `ServeHTTP` of a gateway. -/
def Node.serveHTTP (w : Web x) (n : Node x) (r : Request) (now : Nat) : Outcome :=
  if r.url.path = "/internal/v1/traffic-lab" then .traffic
  else if ¬ n.valid then .problem 503 "CONFIG_UNAVAILABLE"
  else
    match w.splitHostPort r.host with
    | none => .problem 400 "INVALID_REQUEST"
    | some (host, port) =>
      if port ≠ "20443" ∨ r.tls = false ∨ ¬ ValidHostname host ∨ r.url.rawPath ≠ "" ∨
          ¬ ValidPath r.url.path then .problem 400 "INVALID_REQUEST"
      else
        match n.select w host r with
        | .error o => o
        | .ok none => .problem 404 "NOT_FOUND"
        | .ok (some h) =>
          if h.room.hostname ≠ host then .problem 404 "NOT_FOUND" else h.serve w n r now

/-! ## Paths of the node itself -/

theorem reserved_of_own {path : String} (h : "/_wr/".toList <+: path.toList) : Reserved path := by
  left
  right
  right
  exact h

theorem targetFor_eq_true {w : Web x} {c : Config} {room : Room} {target : Bytes}
    (h : targetFor w c room target = true) :
    ∃ u, w.parseRequestURI target = some u ∧
      (c.matchURL room.hostname (some u)).decision = .protects ∧
      (c.matchURL room.hostname (some u)).roomId = room.id := by
  unfold targetFor at h
  split at h
  · cases h
  split at h
  · cases h
  split at h
  · cases h
  rename_i u hu
  split at h
  · cases h
  · exact ⟨u, hu, of_decide_eq_true h⟩

theorem not_reserved_of_targetFor {w : Web x} {c : Config} {room : Room} {r : Request}
    (hpath : ∀ u, w.parseRequestURI r.uri = some u → u.path = r.url.path)
    (h : targetFor w c room r.uri = true) : ¬ Reserved r.url.path := by
  obtain ⟨u, hu, hdecision, -⟩ := targetFor_eq_true h
  rw [← hpath u hu]
  have hm := matchURL_matched c room.hostname u
  generalize c.matchURL room.hostname (some u) = m at hm hdecision
  cases hm with
  | invalid | reserved | excluded | unprotected => cases hdecision
  | protects _ free => exact free

/-! ## Credentials -/

def credentials (r : Request) (publicId : String) : List String :=
  (r.values "X-Waiting-Room-Admission" ++
    (r.cookies.filter fun c => c.1 = admissionCookie publicId).map Prod.snd).filter (· ≠ "")

theorem uniqueCookie_eq_some {r : Request} {name v : String} (h : uniqueCookie r name = some v) :
    ((r.cookies.filter fun c => c.1 = name).map Prod.snd).filter (· ≠ "") =
      if v = "" then [] else [v] := by
  unfold uniqueCookie at h
  split at h
  · rename_i hnil
    obtain rfl := Option.some.inj h
    rw [hnil]
    rfl
  · rename_i c hone
    obtain rfl := Option.some.inj h
    rw [hone]
    by_cases hc : c.2 = ""
    · simp [hc]
    · simp [hc]
  · cases h

theorem values_filter {r : Request} {name : String} (h : ¬ 1 < (r.values name).length) :
    (r.values name).filter (· ≠ "") = if r.header name = "" then [] else [r.header name] := by
  unfold Request.header
  rcases hv : r.values name with _ | ⟨v, vs⟩
  · rfl
  · rw [hv, List.length_cons] at h
    obtain rfl : vs = [] := List.length_eq_zero_iff.mp (by omega)
    by_cases hc : v = ""
    · simp [hc]
    · simp [hc]

theorem readToken_ne_empty {w : Web x} {raw : String} {token : Token x} (h : w.readToken raw = some token) :
    raw ≠ "" := by
  rintro rfl
  have hsplit : "".toList.splitOn '.' = [[]] := by decide
  unfold Web.readToken at h
  rw [hsplit] at h
  cases h

theorem claims_of_verify {key : x.Public} {token : Token x} {kid room aud : String}
    {epoch now leeway : Nat} {c : Claims} (h : verify key token kid room aud epoch now leeway = some c) :
    c.room = room ∧ c.audience = aud ∧ c.epoch = epoch := by
  unfold verify at h
  split at h
  · cases h
  split at h
  · cases h
  split at h
  · cases h
  split at h
  · rename_i ha
    obtain rfl := Option.some.inj h
    exact ⟨ha.2.1, ha.2.2.1, ha.2.2.2.1⟩
  · cases h

theorem claims_of_verifyAdmission {g : Gateway x} {token : Token x} {now : Nat} {c : Claims}
    (h : g.verifyAdmission token now = some c) :
    c.room = g.binding.room ∧ c.audience = g.binding.audience ∧ c.epoch = g.binding.epoch := by
  unfold Gateway.verifyAdmission at h
  split at h
  · obtain ⟨k, -, hk⟩ := List.exists_of_findSome?_eq_some h
    exact claims_of_verify hk
  · exact claims_of_verify h

/-- The request has one credential, and it is an admission to the room now. -/
def Admitted (w : Web x) (n : Node x) (h : RoomHandler) (r : Request) (now : Nat) : Prop :=
  ∃ raw token claims, credentials r h.room.publicId = [raw] ∧ w.readToken raw = some token ∧
    (h.gateway n).verifyAdmission token now = some claims ∧ claims.room = h.room.publicId ∧
    claims.audience = n.identity.installation ++ ":" ++ h.room.publicId ∧ claims.epoch = h.runtime.epoch

theorem admitted_of_admit {w : Web x} {n : Node x} {h : RoomHandler} {r : Request} {now : Nat} {room : Room}
    (ho : h.admit w n r now = .origin room) : room = h.room ∧ Admitted w n h r now := by
  unfold RoomHandler.admit at ho
  split at ho
  · cases ho
  rename_i hvalues
  dsimp only at ho
  split at ho
  · cases ho
  rename_i cookie hcookie
  split at ho
  · cases ho
  rename_i hboth
  split at ho
  · rename_i claims hverify
    obtain ⟨token, htoken, hclaims⟩ := Option.bind_eq_some_iff.mp hverify
    cases ho
    refine ⟨rfl, _, token, claims, ?_, htoken, hclaims, claims_of_verifyAdmission hclaims⟩
    have hne := readToken_ne_empty htoken
    unfold credentials
    rw [List.filter_append, values_filter hvalues, uniqueCookie_eq_some hcookie]
    by_cases hc : cookie = ""
    · subst hc
      rw [if_neg (not_not.mpr rfl)] at hne ⊢
      rw [if_neg hne, if_pos rfl]
      rfl
    · have hheader : r.header "X-Waiting-Room-Admission" = "" := by
        by_contra hheader
        exact hboth ⟨hc, hheader⟩
      rw [if_pos hheader, if_neg hc, if_pos hc]
      rfl
  · split at ho
    · cases ho
    split at ho
    · cases ho
    · cases ho

/-! ## Forwarded requests -/

theorem forwarded_by_room {w : Web x} {n : Node x} {h : RoomHandler} {r : Request} {now : Nat} {room : Room}
    (ho : h.serve w n r now = .origin room) :
    room = h.room ∧ targetFor w n.delivery.config h.room r.uri = true ∧
      (h.runtime.mode = .off ∨ Admitted w n h r now) := by
  unfold RoomHandler.serve at ho
  split at ho
  · cases ho
  split at ho
  · split at ho <;> cases ho
  split at ho
  · split at ho <;> cases ho
  unfold RoomHandler.gatewayHandler at ho
  dsimp only at ho
  split at ho
  · cases ho
  split at ho
  · cases ho
  split at ho
  · split at ho <;> cases ho
  split at ho
  · cases ho
  split at ho
  · cases ho
  split at ho
  · cases ho
  rename_i htarget
  have htarget' : targetFor w n.delivery.config h.room r.uri = true := by simpa using htarget
  split at ho
  · rename_i hoff
    cases ho
    exact ⟨rfl, htarget', .inl hoff⟩
  · obtain ⟨hroom, hadmitted⟩ := admitted_of_admit ho
    exact ⟨hroom, htarget', .inr hadmitted⟩

inductive Routed (n : Node x) (host : String) (r : Request) : Except Outcome (Option RoomHandler) → Prop
  | refused {o : Outcome} (h : ∀ room, o ≠ .origin room) : Routed n host r (.error o)
  | nowhere : Routed n host r (.ok none)
  | opened {room : Room} (h : (n.delivery.config.matchURL host (some r.url)).decision = .excluded ∨
      (n.delivery.config.matchURL host (some r.url)).decision = .unprotected) :
      Routed n host r (.error (.origin room))
  | guarded {h : RoomHandler}
      (decision : (n.delivery.config.matchURL host (some r.url)).decision = .protects)
      (mem : h ∈ n.rooms) (named : h.room.id = (n.delivery.config.matchURL host (some r.url)).roomId) :
      Routed n host r (.ok (some h))

theorem openRoom_error {host origin : String} {rooms : List RoomHandler} {selected : Option RoomHandler}
    {o : Outcome} (h : openRoom host rooms origin selected = .error o) : o = .problem 404 "NOT_FOUND" := by
  induction rooms generalizing origin selected with
  | nil => cases h
  | cons h' rooms ih =>
    rw [openRoom] at h
    split at h
    · split at h
      · cases h
        rfl
      · exact ih h
    · exact ih h

theorem routed (n : Node x) (host : String) (r : Request) : Routed n host r (n.route host r) := by
  unfold Node.route
  dsimp only
  split
  · exact .refused (by simp)
  rename_i hdecision
  split
  · rename_i heq _
    exact .opened (.inl heq)
  · rename_i heq
    split
    · rename_i o ho
      rw [openRoom_error ho]
      exact .refused (by simp)
    · exact .nowhere
    · exact .opened (.inr heq)
  · rename_i hunprotected hexcluded
    rcases hfind : n.rooms.find? fun h => h.room.id = (n.delivery.config.matchURL host (some r.url)).roomId
      with _ | h
    · rw [hfind]
      exact .nowhere
    · rw [hfind]
      have hnamed := List.find?_some hfind
      refine .guarded ?_ (List.mem_of_find?_eq_some hfind) (by simpa using hnamed)
      rcases hd : (n.delivery.config.matchURL host (some r.url)).decision
      · exact absurd (.inl hd) hdecision
      · exact absurd (.inr hd) hdecision
      · exact absurd hfind (hexcluded h hd)
      · rfl
      · exact absurd hd hunprotected

theorem select_cases (w : Web x) (n : Node x) (host : String) (r : Request) :
    (n.select w host r = n.route host r) ∨
      Reserved r.url.path ∧ ∀ o, n.select w host r = .error o → ∀ room, o ≠ .origin room := by
  unfold Node.select
  dsimp only
  have own {front : List Char} (hfront : "/_wr/".toList <+: front) (h : front <+: r.url.path.toList) :
      Reserved r.url.path := reserved_of_own (hfront.trans h)
  split
  · rename_i h
    refine .inr ⟨own (by decide) h, fun o ho room => ?_⟩
    split at ho <;> cases ho <;> simp
  split
  · rename_i h
    exact .inr ⟨own (by decide) h.1, fun o ho => nomatch ho⟩
  split
  · rename_i h
    exact .inr ⟨own (by decide) h.1, fun o ho => nomatch ho⟩
  split
  · rename_i h
    refine .inr ⟨reserved_of_own (by rw [h]; decide), fun o ho room => ?_⟩
    split at ho
    · cases ho
      simp
    · split at ho
      · cases ho
        simp
      · cases ho
  split
  · rename_i h
    exact .inr ⟨own (by decide) h, fun o ho => nomatch ho⟩
  split
  · rename_i h
    exact .inr ⟨own (by decide) h, fun o ho => nomatch ho⟩
  · exact .inl rfl

/-- A gateway forwards a request only with a canonical path outside the reserved ones that
is excluded, or not protected, or protected by a room that is off or that the visitor is
admitted to. -/
theorem admission_required (w : Web x) {n : Node x} {d : Delivery} (hn : n.Serves d) {r : Request}
    {now : Nat} {room : Room} (hpath : ∀ u, w.parseRequestURI r.uri = some u → u.path = r.url.path)
    (ho : n.serveHTTP w r now = .origin room) :
    ∃ host port, w.splitHostPort r.host = some (host, port) ∧ Canonical host r.url ∧
      ¬ Reserved r.url.path ∧
      ((d.config.matchURL host (some r.url)).decision = .excluded ∨
        (d.config.matchURL host (some r.url)).decision = .unprotected ∨
        (d.config.matchURL host (some r.url)).decision = .protects ∧
          ∃ p ∈ d.rows, p.1.id = (d.config.matchURL host (some r.url)).roomId ∧ room = p.1 ∧
            (p.2.runtime.mode = .off ∨ Admitted w n ⟨p.1, p.2.runtime⟩ r now)) := by
  unfold Node.serveHTTP at ho
  split at ho
  · cases ho
  split at ho
  · cases ho
  split at ho
  · cases ho
  rename_i host port hhost
  split at ho
  · cases ho
  refine ⟨host, port, hhost, ?_⟩
  obtain rfl := hn.delivery
  have open_of {m : Match} (hm : Matched n.delivery.config.rooms host r.url m)
      (hdecision : m.decision ≠ .invalid ∧ m.decision ≠ .reserved) :
      Canonical host r.url ∧ ¬ Reserved r.url.path := by
    cases hm with
    | invalid => exact absurd rfl hdecision.1
    | reserved => exact absurd rfl hdecision.2
    | excluded canonical free | protects canonical free | unprotected canonical free =>
      exact ⟨canonical, free⟩
  have hmatched := matchURL_matched n.delivery.config host r.url
  rcases select_cases w n host r with hroute | ⟨hreserved, hown⟩
  · rw [hroute] at ho
    have hrouted := routed n host r
    generalize n.route host r = choice at hrouted ho
    cases hrouted with
    | refused hno => exact absurd ho (hno room)
    | nowhere => cases ho
    | opened hopen =>
      have hclear := open_of hmatched (by rcases hopen with h | h <;> simp [h])
      refine ⟨hclear.1, hclear.2, ?_⟩
      rcases hopen with h | h
      · exact .inl h
      · exact .inr (.inl h)
    | @guarded h decision mem named =>
      have hclear := open_of hmatched (by simp [decision])
      refine ⟨hclear.1, hclear.2, .inr (.inr ⟨decision, ?_⟩)⟩
      dsimp only at ho
      split at ho
      · cases ho
      obtain ⟨hroom, -, hadmitted⟩ := forwarded_by_room ho
      obtain ⟨p, hp, rfl⟩ := List.mem_map.mp (hn.rooms.mem_iff.mp mem)
      exact ⟨p, hp, named, hroom, hadmitted⟩
  · exfalso
    generalize n.select w host r = choice at hown ho
    rcases choice with o | h
    · exact hown o rfl room ho
    · rcases h with _ | h
      · cases ho
      · dsimp only at ho
        split at ho
        · cases ho
        · obtain ⟨-, htarget, -⟩ := forwarded_by_room ho
          exact not_reserved_of_targetFor hpath htarget hreserved

/-! ## A visitor with an admission -/

def sampleClaims : Claims :=
  ⟨"admission-v1", "aaaaaaaaaaaaaaaaaaaa", 1, "j", 0, 0, 60, "site:aaaaaaaaaaaaaaaaaaaa"⟩

/-- Every token is the sample claims, and every target is the path `/a`. -/
def sampleWeb : Web plainCodec where
  splitHostPort host := if host = "shop.test:20443" then some ("shop.test", "20443") else none
  parseRequestURI _ := some (sampleUrl "/a")
  decodeTarget body := some body
  decodeToken _ _ := some ⟨sampleClaims, ()⟩

def sampleDelivery : Delivery :=
  shopDelivery { initialRuntime sampleRoom with mode := .auto }

def sampleNode : Node plainCodec where
  identity := ⟨"site", none, ()⟩
  delivery := sampleDelivery
  rooms := [⟨sampleRoom, { initialRuntime sampleRoom with mode := .auto }⟩]
  valid := true

def sampleVisit (headers : List (String × String)) : Request where
  method := "GET"
  host := "shop.test:20443"
  tls := true
  url := sampleUrl "/a"
  uri := [47, 97]
  headers := headers
  cookies := []
  body := []

set_option maxRecDepth 4000 in
theorem sampleVisit_outcomes :
    sampleNode.serveHTTP sampleWeb (sampleVisit [("X-Waiting-Room-Admission", "a.b")]) 1000 =
      .origin sampleRoom ∧
    sampleNode.serveHTTP sampleWeb (sampleVisit []) 1000 = .problem 429 "WAITING_ROOM_REQUIRED" := by
  decide

theorem sampleVisit_admitted :
    ∃ p ∈ sampleDelivery.rows, p.1.id = "shop" ∧
      Admitted sampleWeb sampleNode ⟨p.1, p.2.runtime⟩
        (sampleVisit [("X-Waiting-Room-Admission", "a.b")]) 1000 := by
  have hserves : sampleNode.Serves sampleDelivery := ⟨rfl, .refl _⟩
  have hpath : ∀ u, sampleWeb.parseRequestURI [47, 97] = some u → u.path = "/a" := by
    intro u hu
    cases hu
    rfl
  obtain ⟨host, port, hhost, -, -, hforwarded⟩ :=
    admission_required sampleWeb hserves hpath sampleVisit_outcomes.1
  cases hhost
  have hmatch : sampleDelivery.config.matchURL "shop.test" (some (sampleUrl "/a")) =
      ⟨.protects, "shop", "protect_prefix"⟩ := by decide
  have hurl : (sampleVisit [("X-Waiting-Room-Admission", "a.b")]).url = sampleUrl "/a" := rfl
  rw [hurl, hmatch] at hforwarded
  rcases hforwarded with h | h | ⟨-, p, hp, hid, -, hoff | hadmitted⟩
  · cases h
  · cases h
  · have hauto : ∀ p ∈ sampleDelivery.rows, p.2.runtime.mode ≠ .off := by decide
    exact absurd hoff (hauto p hp)
  · exact ⟨p, hp, hid, hadmitted⟩

end WaitingRoom.Plane
