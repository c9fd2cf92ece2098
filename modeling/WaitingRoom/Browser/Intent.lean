import WaitingRoom.Admission.Join
import WaitingRoom.Browser.Return

/-!
# Browser intents

Before a browser joins a queue it is given an intent: a sealed cookie with the key
and the target of the join, good for ten minutes, for the queue cookie that the
browser had then. A navigation joins only with an intent for the queue cookie that
it shows. The queue keeps the key of a join for ten minutes too, so every join of an
intent after the first is answered from what the first one left.
-/

namespace WaitingRoom.Browser

open Keyring Admission Queue
open Plane (Request uniqueCookie)

set_option autoImplicit false

variable {x : Codec} {a : Aead}

structure BrowserIntent where
  host : String
  nonce : String
  target : String
  prior : String
  issued : ℤ
  expires : ℤ

def BrowserIntent.doc (d : BrowserIntent) : Doc :=
  .obj [("Host", .str d.host), ("Nonce", .str d.nonce), ("Target", .str d.target),
    ("Prior", .str d.prior), ("Issued", .num d.issued), ("Expires", .num d.expires)]

/-- `browserCookieJSON` of the intent. -/
def BrowserIntent.json (d : BrowserIntent) : Bytes := Doc.utf8 (Doc.print Doc.verbatim d.doc)

/-- `json.Unmarshal` into the intent. -/
def unmarshalIntent (plain : Bytes) : Option BrowserIntent :=
  match Doc.parse (Doc.readText plain) with
  | some (.obj fs) => do
    let host ← Doc.fieldOr fs "Host" Doc.asStr ""
    let nonce ← Doc.fieldOr fs "Nonce" Doc.asStr ""
    let target ← Doc.fieldOr fs "Target" Doc.asStr ""
    let prior ← Doc.fieldOr fs "Prior" Doc.asStr ""
    let issued ← Doc.fieldOr fs "Issued" Doc.asInt 0
    let expires ← Doc.fieldOr fs "Expires" Doc.asInt 0
    some ⟨host, nonce, target, prior, issued, expires⟩
  | _ => none

structure BrowserGateway (x : Codec) (a : Aead) extends ReturnGateway x a where
  secure : Bool
  hostCheck : Request → Bool

/-- What the coordinator answers a call with: `absolute` is its header of that name, if it
is a number. -/
structure CallResult where
  status : Nat
  absolute : Option ℤ
  body : Bytes
deriving DecidableEq

inductive CoordinatorCall
  | status (ticket : String)
  | join (nonce target : String)
deriving DecidableEq

/-- What a navigation is answered with. A redirect to the waiting page always has a return
envelope, and sets the queue cookie in `setTicket`, if any. -/
inductive Answer
  | problem (status : Nat) (code : String)
  | navigationProblem (status : Nat) (code : String)
  | forwarded (result : CallResult)
  | preparePage
  | waiting (setTicket : Option String) (envelope : String)
deriving DecidableEq

structure PrepareInput where
  target : String
  confirm : Bool
  restart : Bool
  deriving DecidableEq

/-- What a request for an intent is answered with, and the cookie that it is given. -/
inductive Prepared
  | problem (status : Nat) (code : String)
  | noContent (cookie : Option (BrowserIntent × String))

namespace BrowserGateway

variable (g : BrowserGateway x a) (w : Platform)

def queueCookie : String := (if g.secure then "__Host-wrq_" else "wr_dev_q_") ++ g.room

def returnCookie : String := (if g.secure then "__Host-wrr_" else "wr_dev_r_") ++ g.room

def intentCookie : String := (if g.secure then "__Host-wri_" else "wr_dev_i_") ++ g.room

def scheme : String := if g.secure then "https" else "http"

def intentAAD : String := "wr-browser-join/v1/" ++ g.room ++ "/" ++ toString g.epoch

def sealIntent (nonce : Bytes) (d : BrowserIntent) : String :=
  match g.keys with
  | some ring => ring.current.sealText .browserJoin nonce d.json g.intentAAD
  | none => String.ofList (sealBytes g.secret nonce d.json g.intentAAD)

def openIntent (text : String) : Option Bytes :=
  match g.keys with
  | some ring => ring.openText .browserJoin text g.intentAAD g.intentAAD
  | none => openBytes g.secret text.toList g.intentAAD

/-- The tests that `intent` makes on what it has opened. -/
def Admits (d : BrowserIntent) (host : String) (now : ℤ) : Prop :=
  d.host = host ∧ d.nonce.utf8ByteSize = 43 ∧ g.validTarget (Doc.utf8 d.target.toList) = true ∧
    d.issued ≤ now ∧ now < d.expires ∧ d.expires - d.issued = 600000
  deriving Decidable

def intent (r : Request) (now : ℤ) : Option BrowserIntent :=
  match uniqueCookie r g.intentCookie with
  | none => none
  | some text =>
    if text.utf8ByteSize = 0 ∨ 4096 < text.utf8ByteSize then none
    else
      match g.openIntent text with
      | none => none
      | some plain =>
        match unmarshalIntent plain with
        | none => none
        | some d => if g.Admits d r.host now then some d else none

/-- `prepare`, with the token and the nonce that it draws. -/
def prepare (decode : Bytes → Option PrepareInput) (r : Request) (now : ℤ) (token : String)
    (nonce : Bytes) : Prepared :=
  if r.method ≠ "POST" then .problem 405 "INVALID_REQUEST"
  else if g.hostCheck r = false ∨ (r.values "Origin").length ≠ 1 ∨
      (r.values "Content-Type").length ≠ 1 ∨ r.header "Origin" ≠ g.scheme ++ "://" ++ r.host ∨
      r.header "Authorization" ≠ "" ∨ r.header "Content-Type" ≠ "application/json" ∨
      r.url.rawQuery ≠ "" then .problem 403 "INVALID_REQUEST"
  else
    match decode r.body with
    | none => .problem 400 "INVALID_REQUEST"
    | some input =>
      if g.validTarget (Doc.utf8 input.target.toList) = false then .problem 400 "INVALID_REQUEST"
      else
        match uniqueCookie r g.queueCookie with
        | none => .problem 400 "INVALID_REQUEST"
        | some q =>
          let resumes := (uniqueCookie r g.returnCookie).bind fun text =>
            g.openReturn w.hashText text r.host q now
          if input.restart = false ∧ q ≠ "" ∧ resumes.isSome then .noContent none
          else if (g.intent r now).map BrowserIntent.prior = some (w.hashText q) then .noContent none
          else if input.confirm then .problem 428 "BROWSER_STORAGE_REQUIRED"
          else
            let d := ⟨r.host, token, input.target, w.hashText q, now, now + 600000⟩
            .noContent (some (d, g.sealIntent nonce d))

def redirectWaiting (r : Request) (now : ℤ) (nonce : Bytes) (ticket : String) (expires : ℤ)
    (setTicket : Bool) : Answer :=
  .waiting (if setTicket then some ticket else none)
    (g.sealReturn nonce (redirectData w.hashText r.host ticket r.uri now expires))

/-- The end of `join`, once there is a ticket. -/
def resume (r : Request) (now : ℤ) (nonce : Bytes) (ticket : String) (result : CallResult) : Answer :=
  match result.absolute with
  | none => .navigationProblem 503 "QUEUE_UNAVAILABLE"
  | some expires =>
    if expires ≤ now then .navigationProblem 503 "QUEUE_UNAVAILABLE"
    else g.redirectWaiting w r now nonce ticket expires true

def ticketToken (body : Bytes) : Option String :=
  match Doc.parse (Doc.readText body) with
  | some (.obj fs) => Doc.fieldOr fs "ticketToken" Doc.asStr ""
  | _ => none

/-- The part of `join` for a browser without a live ticket. -/
def joinNew (r : Request) (now : ℤ) (nonce : Bytes) (prior : String)
    (call : CoordinatorCall → Option CallResult) : List CoordinatorCall × Answer :=
  match g.intent r now with
  | none => ([], .preparePage)
  | some d =>
    if d.prior ≠ prior then ([], .preparePage)
    else
      ([.join d.nonce d.target],
        match call (.join d.nonce d.target) with
        | none => .navigationProblem 503 "QUEUE_UNAVAILABLE"
        | some result =>
          if result.status ≠ 202 then .forwarded result
          else
            match ticketToken result.body with
            | none => .navigationProblem 503 "QUEUE_UNAVAILABLE"
            | some token =>
              if token = "" then .navigationProblem 503 "QUEUE_UNAVAILABLE"
              else g.resume w r now nonce token result)

/-- The part of `join` that asks for the status of the ticket. -/
def joinKnown (r : Request) (now : ℤ) (nonce : Bytes) (ticket : String)
    (call : CoordinatorCall → Option CallResult) : List CoordinatorCall × Answer :=
  match call (.status ticket) with
  | none => ([.status ticket], .navigationProblem 503 "QUEUE_UNAVAILABLE")
  | some result =>
    if result.status = 410 then
      let rest := g.joinNew w r now nonce (w.hashText ticket) call
      (.status ticket :: rest.1, rest.2)
    else if result.status ≠ 200 ∧ result.status ≠ 202 then ([.status ticket], .forwarded result)
    else ([.status ticket], g.resume w r now nonce ticket result)

/-- `join`: the calls that it makes, in order, and what it answers. -/
def join (r : Request) (now : ℤ) (nonce : Bytes) (call : CoordinatorCall → Option CallResult) :
    List CoordinatorCall × Answer :=
  if g.hostCheck r = false then ([], .problem 400 "INVALID_REQUEST")
  else
    match uniqueCookie r g.queueCookie with
    | none => ([], .problem 400 "INVALID_REQUEST")
    | some ticket =>
      if ticket = "" then g.joinNew w r now nonce (w.hashText ticket) call
      else
        match uniqueCookie r g.returnCookie with
        | none => ([], .problem 400 "INVALID_REQUEST")
        | some text =>
          match g.openReturn w.hashText text r.host ticket now with
          | none => g.joinKnown w r now nonce ticket call
          | some d =>
            if (g.intent r now).map BrowserIntent.prior = some (w.hashText ticket) then
              g.joinKnown w r now nonce ticket call
            else ([], g.redirectWaiting w r now nonce ticket d.expires false)

end BrowserGateway

section Handler

variable {g : BrowserGateway x a} {w : Platform} {r : Request} {now : ℤ} {nonce : Bytes}
  {call : CoordinatorCall → Option CallResult}

def CoordinatorCall.IsStatus : CoordinatorCall → Prop
  | .status _ => True
  | .join _ _ => False

/-- A navigation joins at most once, last, with an intent for its queue cookie. -/
inductive JoinCalls (g : BrowserGateway x a) (w : Platform) (r : Request) (now : ℤ) :
    List CoordinatorCall → Prop
  | quiet {calls : List CoordinatorCall} (statuses : ∀ c ∈ calls, c.IsStatus) : JoinCalls g w r now calls
  | joins (front : List CoordinatorCall) {d : BrowserIntent} {ticket : String}
      (statuses : ∀ c ∈ front, c.IsStatus) (intent : g.intent r now = some d)
      (cookie : uniqueCookie r g.queueCookie = some ticket) (prior : d.prior = w.hashText ticket) :
      JoinCalls g w r now (front ++ [.join d.nonce d.target])

theorem joinNew_calls {ticket : String} (cookie : uniqueCookie r g.queueCookie = some ticket) :
    JoinCalls g w r now (g.joinNew w r now nonce (w.hashText ticket) call).1 := by
  unfold BrowserGateway.joinNew
  split
  · exact .quiet (by simp)
  · rename_i d hd
    split
    · exact .quiet (by simp)
    · rename_i hprior
      exact .joins [] (by simp) hd cookie (not_not.mp hprior)

theorem joinKnown_calls {ticket : String} (cookie : uniqueCookie r g.queueCookie = some ticket) :
    JoinCalls g w r now (g.joinKnown w r now nonce ticket call).1 := by
  have single : ∀ c ∈ [CoordinatorCall.status ticket], c.IsStatus := by
    intro c hc
    obtain rfl := List.mem_singleton.mp hc
    trivial
  unfold BrowserGateway.joinKnown
  split
  · exact .quiet single
  · split
    · dsimp only
      have rest : JoinCalls g w r now (g.joinNew w r now nonce (w.hashText ticket) call).1 :=
        joinNew_calls cookie
      generalize (g.joinNew w r now nonce (w.hashText ticket) call).1 = calls at rest
      cases rest with
      | quiet statuses => exact .quiet (List.forall_mem_cons.mpr ⟨trivial, statuses⟩)
      | @joins front d ticket statuses intent cookie prior =>
        exact .joins (.status _ :: front) (List.forall_mem_cons.mpr ⟨trivial, statuses⟩)
          intent cookie prior
    · split
      · exact .quiet single
      · exact .quiet single

theorem join_calls (g : BrowserGateway x a) (w : Platform) (r : Request) (now : ℤ) (nonce : Bytes)
    (call : CoordinatorCall → Option CallResult) : JoinCalls g w r now (g.join w r now nonce call).1 := by
  unfold BrowserGateway.join
  split
  · exact .quiet (by simp)
  · split
    · exact .quiet (by simp)
    · rename_i ticket hcookie
      split
      · exact joinNew_calls hcookie
      · split
        · exact .quiet (by simp)
        · split
          · exact joinKnown_calls hcookie
          · split
            · exact joinKnown_calls hcookie
            · exact .quiet (by simp)

theorem JoinCalls.of_mem {calls : List CoordinatorCall} (h : JoinCalls g w r now calls)
    {key target : String} (hmem : .join key target ∈ calls) :
    ∃ d ticket, g.intent r now = some d ∧ uniqueCookie r g.queueCookie = some ticket ∧
      d.prior = w.hashText ticket ∧ key = d.nonce ∧ target = d.target := by
  cases h with
  | quiet statuses => exact absurd (statuses _ hmem) id
  | @joins front d ticket statuses intent cookie prior =>
    rcases List.mem_append.mp hmem with hfront | hlast
    · exact absurd (statuses _ hfront) id
    · obtain ⟨rfl, rfl⟩ := CoordinatorCall.join.inj (List.mem_singleton.mp hlast)
      exact ⟨d, ticket, intent, cookie, prior, rfl, rfl⟩

end Handler

section Sealed

def BrowserGateway.intentSecret (g : BrowserGateway x a) : a.Secret :=
  match g.keys with
  | some ring => ring.current.secret .browserJoin
  | none => g.secret

def BrowserGateway.intentBound (g : BrowserGateway x a) : String :=
  match g.keys with
  | some ring => bound .browserJoin ring.current.id g.intentAAD
  | none => g.intentAAD

variable {g₀ g : BrowserGateway x a} {nonce : Bytes} {d : BrowserIntent}

/-- Whatever gateway opens a sealed intent, it decrypts it with additional data that tell
its own room and epoch. -/
theorem decrypt_of_openIntent (ids : ∀ ring, g₀.keys = some ring → ring.WellFormed)
    (hn : nonce.length = 12) {plain : Bytes}
    (h : g.openIntent (g₀.sealIntent nonce d) = some plain) :
    ∃ secret t, a.decrypt secret nonce (a.encrypt g₀.intentSecret nonce d.json g₀.intentBound) t =
      some plain ∧ (t = g₀.intentBound → g.intentAAD = g₀.intentAAD) := by
  cases hkeys : g₀.keys with
  | some ring =>
    have named : '.' ∉ ring.current.id.toList := (ids ring hkeys).plain _ List.mem_cons_self
    have hseal : g₀.sealIntent nonce d =
        ring.current.sealText .browserJoin nonce d.json g₀.intentAAD := by
      rw [BrowserGateway.sealIntent, hkeys]
    have hsecret : g₀.intentSecret = ring.current.secret .browserJoin := by
      rw [BrowserGateway.intentSecret, hkeys]
    have hbound : g₀.intentBound = bound .browserJoin ring.current.id g₀.intentAAD := by
      rw [BrowserGateway.intentBound, hkeys]
    rw [hseal, BrowserGateway.openIntent] at h
    rw [hsecret, hbound]
    split at h
    · obtain ⟨secret, hdecrypt⟩ := KeyRing.decrypt_of_openText named hn h
      exact ⟨secret, _, hdecrypt, bound_injective⟩
    · have hdot : '.' ∈ (ring.current.sealText .browserJoin nonce d.json g₀.intentAAD).toList := by
        rw [Key.sealText, String.toList_ofList]
        exact List.mem_append_right _ List.mem_cons_self
      rw [openBytes, Base64.decode_of_dot hdot] at h
      exact absurd h (by simp)
  | none =>
    have hseal : g₀.sealIntent nonce d =
        String.ofList (sealBytes g₀.secret nonce d.json g₀.intentAAD) := by
      rw [BrowserGateway.sealIntent, hkeys]
    have hsecret : g₀.intentSecret = g₀.secret := by rw [BrowserGateway.intentSecret, hkeys]
    have hbound : g₀.intentBound = g₀.intentAAD := by rw [BrowserGateway.intentBound, hkeys]
    rw [hseal, BrowserGateway.openIntent] at h
    rw [hsecret, hbound]
    split at h
    · rw [KeyRing.openText] at h
      split at h
      · exact absurd h (by simp)
      · rw [String.toList_ofList, cut_of_unnamed dot_notMem_sealBytes] at h
        dsimp only at h
        obtain ⟨k, -, hopen⟩ := Option.bind_eq_some_iff.mp h
        rw [openBytes_sealBytes hn] at hopen
        exact ⟨_, _, hopen, id⟩
    · rw [String.toList_ofList, openBytes_sealBytes hn] at h
      exact ⟨_, _, h, id⟩

theorem path_injective {front room room' : String} {n n' : Nat}
    (h : front ++ room ++ "/" ++ toString n = front ++ room' ++ "/" ++ toString n') :
    room = room' ∧ n = n' := by
  have hslash : ∀ n : Nat, '/' ∉ (toString n).toList := fun n hmem => by
    rw [Nat.toString_eq_ofList_toDigits, String.toList_ofList] at hmem
    exact absurd (Nat.isDigit_of_mem_toDigits (by decide) (by decide) hmem) (by decide)
  have hlists : ∀ (room : String) (n : Nat), (front ++ room ++ "/" ++ toString n).toList =
      (front.toList ++ room.toList) ++ '/' :: (toString n).toList := fun room n => by
    rw [String.toList_append, String.toList_append, String.toList_append, List.append_assoc]
    rfl
  have heq := congrArg String.toList h
  rw [hlists, hlists] at heq
  obtain ⟨hroom, hnumber⟩ := split_at_last heq (hslash _) (hslash _)
  exact ⟨String.toList_inj.mp (List.append_cancel_left hroom),
    Guard.toString_nat_injective (String.toList_inj.mp hnumber)⟩

theorem intentAAD_injective (h : g.intentAAD = g₀.intentAAD) :
    g.room = g₀.room ∧ g.epoch = g₀.epoch := by
  unfold BrowserGateway.intentAAD at h
  exact path_injective h

theorem unmarshal_intent (issued : Int64 d.issued) (expires : Int64 d.expires) :
    unmarshalIntent d.json = some d := by
  have hissued : (Doc.num d.issued).asInt = some d.issued := Doc.asInt_num issued
  have hexpires : (Doc.num d.expires).asInt = some d.expires := Doc.asInt_num expires
  rw [unmarshalIntent, BrowserIntent.json, Doc.readText_utf8, Doc.parse_print, BrowserIntent.doc]
  dsimp only
  rw [Doc.fieldOr_eq rfl, Doc.fieldOr_eq rfl, Doc.fieldOr_eq rfl, Doc.fieldOr_eq rfl,
    Doc.fieldOr_eq rfl, Doc.fieldOr_eq rfl, hissued, hexpires]
  simp only [Doc.asStr, Option.bind_eq_bind, Option.bind_some]

/-- An intent that is sealed for a room: the cipher accepts it under no other key and no
other additional data, and its times are numbers of 64 bits. -/
structure SealedIntent (g₀ : BrowserGateway x a) (nonce : Bytes) (d : BrowserIntent) : Prop where
  ids : ∀ ring, g₀.keys = some ring → ring.WellFormed
  length : nonce.length = 12
  unforgeable : ∀ secret t, secret ≠ g₀.intentSecret ∨ t ≠ g₀.intentBound →
    a.decrypt secret nonce (a.encrypt g₀.intentSecret nonce d.json g₀.intentBound) t = none
  issued : Int64 d.issued
  expires : Int64 d.expires

theorem SealedIntent.opened (h : SealedIntent g₀ nonce d) {r : Request} {now : ℤ} {d' : BrowserIntent}
    (cookie : uniqueCookie r g.intentCookie = some (g₀.sealIntent nonce d))
    (opens : g.intent r now = some d') :
    d' = d ∧ g.room = g₀.room ∧ g.epoch = g₀.epoch ∧ g.Admits d r.host now := by
  rw [BrowserGateway.intent, cookie] at opens
  dsimp only at opens
  split at opens
  · exact absurd opens (by simp)
  · split at opens
    · exact absurd opens (by simp)
    · rename_i plain hplain
      obtain ⟨secret, t, hdecrypt, haad⟩ := decrypt_of_openIntent h.ids h.length hplain
      have hright : secret = g₀.intentSecret ∧ t = g₀.intentBound := by
        by_contra hwrong
        rw [h.unforgeable secret t (not_and_or.mp hwrong)] at hdecrypt
        exact absurd hdecrypt (by simp)
      obtain ⟨rfl, rfl⟩ := hright
      obtain ⟨hroom, hepoch⟩ := intentAAD_injective (haad rfl)
      rw [a.decrypt_encrypt] at hdecrypt
      obtain rfl := Option.some.inj hdecrypt
      rw [unmarshal_intent h.issued h.expires] at opens
      dsimp only at opens
      split at opens
      · rename_i admits
        obtain rfl := Option.some.inj opens
        exact ⟨rfl, hroom, hepoch, admits⟩
      · exact absurd opens (by simp)

theorem SealedIntent.reads (h : SealedIntent g₀ nonce d) {r : Request} {now : ℤ}
    (cookie : uniqueCookie r g₀.intentCookie = some (g₀.sealIntent nonce d))
    (fits : (g₀.sealIntent nonce d).utf8ByteSize ≤ 4096) (admits : g₀.Admits d r.host now) :
    g₀.intent r now = some d := by
  have hpos : (g₀.sealIntent nonce d).utf8ByteSize ≠ 0 := by
    intro hzero
    have hlength : (sealBytes g₀.secret nonce d.json g₀.intentAAD).length ≠ 0 := by
      rw [length_sealBytes h.length]
      omega
    cases hkeys : g₀.keys with
    | some ring =>
      rw [BrowserGateway.sealIntent, hkeys] at hzero
      dsimp only at hzero
      rw [size_sealText _ h.length] at hzero
      omega
    | none =>
      rw [BrowserGateway.sealIntent, hkeys] at hzero
      dsimp only at hzero
      rw [utf8ByteSize_ofList, textSize_sealBytes] at hzero
      exact hlength hzero
  have opens : g₀.openIntent (g₀.sealIntent nonce d) = some d.json := by
    cases hkeys : g₀.keys with
    | some ring =>
      rw [BrowserGateway.sealIntent, hkeys] at fits
      rw [BrowserGateway.openIntent, BrowserGateway.sealIntent, hkeys]
      dsimp only at fits ⊢
      rw [KeyRing.openText_sealText (h.ids ring hkeys) List.mem_cons_self h.length
        (Nat.le_trans fits (by decide)), a.decrypt_encrypt]
    | none =>
      rw [BrowserGateway.openIntent, BrowserGateway.sealIntent, hkeys]
      dsimp only
      rw [String.toList_ofList, openBytes_sealBytes h.length, a.decrypt_encrypt]
  rw [BrowserGateway.intent, cookie]
  dsimp only
  rw [if_neg (not_or.mpr ⟨hpos, Nat.not_lt.mpr fits⟩), opens]
  dsimp only
  rw [unmarshal_intent h.issued h.expires]
  exact if_pos admits

end Sealed

/-! ## Browsers and the queue -/

/-- A navigation, with all that it meets: the gateway, the answer about the status of its
ticket, and the coordinator that its join goes to, if it gets there. The queue is called
at the time of the checks, and `reply` is what the gateway receives of the answer. -/
structure Visit (x : Codec) (a : Aead) where
  gateway : BrowserGateway x a
  request : Request
  now : Nat
  nonce : Bytes
  status : Option CallResult
  coordinator : JoinCoordinator x a
  reaches : Bool
  server : String
  id : String
  replay : String
  primary : String
  fence : Nat
  reply : Option Outcome → Option CallResult

inductive BrowseInput (x : Codec) (a : Aead)
  | queue (step : Step Queue.Call)
  | visit (v : Visit x a)

namespace Visit

variable (w : Platform) (v : Visit x a)

def joinStep (key target : String) : Step Queue.Call :=
  v.coordinator.joinStep w key target ⟨v.now, v.server⟩ v.id v.replay v.primary v.fence

def answerTo (db : QueueDb) : CoordinatorCall → Option CallResult
  | .status _ => v.status
  | .join key target =>
    v.reply (if v.reaches then some (exec db (v.joinStep w key target)).1 else none)

def settle (db : QueueDb) : CoordinatorCall → QueueDb
  | .status _ => db
  | .join key target => if v.reaches then (exec db (v.joinStep w key target)).2 else db

def navigate (db : QueueDb) : List CoordinatorCall × Answer :=
  v.gateway.join w v.request v.now v.nonce (v.answerTo w db)

end Visit

/-- One step of browsers and all the other users of the queue. -/
def browse (w : Platform) (db : QueueDb) :
    BrowseInput x a → Option (List CoordinatorCall × Answer) × QueueDb
  | .queue step => (none, (exec db step).2)
  | .visit v => (some (v.navigate w db), (v.navigate w db).1.foldl (v.settle w) db)

abbrev BrowseEvent (x : Codec) (a : Aead) :=
  WaitingRoom.Event QueueDb (BrowseInput x a) (Option (List CoordinatorCall × Answer))

/-- Every visit shows the cookie `text`, and its gateway calls its own room. -/
def ShowsIntent (text : String) (_ : QueueDb) : BrowseInput x a → Prop
  | .queue step => step.call.WellFormed
  | .visit v => uniqueCookie v.request v.gateway.intentCookie = some text ∧
    v.coordinator.room = v.gateway.room ∧ v.coordinator.epoch = v.gateway.epoch

namespace BrowseEvent

variable (ev : BrowseEvent x a)

def Joins (key target : String) : Prop :=
  ∃ calls answer, ev.output = some (calls, answer) ∧ .join key target ∈ calls

def SetsTicket (token : String) : Prop :=
  ∃ calls envelope, ev.output = some (calls, .waiting (some token) envelope) ∧
    ∃ key target, .join key target ∈ calls

/-- The event is a visit that has put a ticket into some room. -/
def Creates : Prop :=
  (∃ v, ev.input = .visit v) ∧ ∃ e r id, (ev.before.room e r).tickets.get id = none ∧
    (ev.after.room e r).tickets.get id ≠ none

end BrowseEvent

section Browse

variable {w : Platform} {text : String} {db₀ db : QueueDb} {es : List (BrowseEvent x a)}

theorem browse_visit (w : Platform) (db : QueueDb) (v : Visit x a) :
    (browse w db (.visit v)).2 = db ∨ ∃ d ticket, v.gateway.intent v.request v.now = some d ∧
      uniqueCookie v.request v.gateway.queueCookie = some ticket ∧ d.prior = w.hashText ticket ∧
      (browse w db (.visit v)).2 = (exec db (v.joinStep w d.nonce d.target)).2 := by
  have still : ∀ {calls : List CoordinatorCall}, (∀ c ∈ calls, c.IsStatus) →
      calls.foldl (v.settle w) db = db := by
    intro calls hcalls
    induction calls with
    | nil => rfl
    | cons c calls ih =>
      obtain ⟨hc, hrest⟩ := List.forall_mem_cons.mp hcalls
      cases c with
      | status => exact ih hrest
      | join => exact absurd hc id
  have hcalls : JoinCalls v.gateway w v.request v.now (v.navigate w db).1 := join_calls ..
  rw [browse]
  dsimp only
  generalize (v.navigate w db).1 = calls at hcalls
  cases hcalls with
  | quiet statuses => exact .inl (still statuses)
  | @joins front d ticket statuses intent cookie prior =>
    rw [List.foldl_append, still statuses]
    by_cases reaches : v.reaches = true
    · exact .inr ⟨d, ticket, intent, cookie, prior, if_pos reaches⟩
    · exact .inl (if_neg reaches)

theorem queue_run (hr : Run (browse w) (ShowsIntent text) db₀ es db) : ∃ qs, RunFrom db₀ qs db := by
  induction hr with
  | nil => exact ⟨[], .nil⟩
  | @snoc es db input hr allowed ih =>
    obtain ⟨qs, hqs⟩ := ih
    cases input with
    | queue step => exact ⟨_, hqs.snoc step allowed⟩
    | visit v =>
      rcases browse_visit w db v with hstill | ⟨d, -, -, -, -, hjoin⟩
      · rw [hstill]
        exact ⟨qs, hqs⟩
      · rw [hjoin]
        exact ⟨_, hqs.snoc (v.joinStep w d.nonce d.target) trivial⟩

structure Created (w : Platform) (g₀ : BrowserGateway x a) (d : BrowserIntent) (v : Visit x a)
    (db : QueueDb) : Prop where
  issued : d.issued ≤ v.now
  live : (v.now : ℤ) < d.expires
  lifetime : d.expires - d.issued = 600000
  joins : IsJoin g₀.epoch g₀.room (w.hashText d.nonce) (w.hashText d.target)
    (eventOf exec db (v.joinStep w d.nonce d.target))
  creates : Queue.Creates g₀.epoch g₀.room (eventOf exec db (v.joinStep w d.nonce d.target))
  after : (browse w db (.visit v)).2 = (exec db (v.joinStep w d.nonce d.target)).2

theorem SealedIntent.created {g₀ : BrowserGateway x a} {nonce : Bytes} {d : BrowserIntent}
    (h : SealedIntent g₀ nonce d) {v : Visit x a}
    (shows : ShowsIntent (g₀.sealIntent nonce d) db (.visit v))
    (creates : BrowseEvent.Creates (eventOf (browse w) db (.visit v))) : Created w g₀ d v db := by
  obtain ⟨cookie, hroom, hepoch⟩ := shows
  obtain ⟨-, e, r, id, old, new⟩ := creates
  have old : (db.room e r).tickets.get id = none := old
  have new : ((browse w db (.visit v)).2.room e r).tickets.get id ≠ none := new
  rcases browse_visit w db v with hstill | ⟨d', ticket, intent, -, -, hafter⟩
  · rw [hstill] at new
    exact absurd old new
  · obtain ⟨rfl, hroom₀, hepoch₀, -, -, -, issued, live, lifetime⟩ := h.opened cookie intent
    have hstep : (v.joinStep w d'.nonce d'.target).epoch = g₀.epoch ∧
        (v.joinStep w d'.nonce d'.target).room = g₀.room :=
      ⟨hepoch.trans hepoch₀, hroom.trans hroom₀⟩
    have hplace : e = g₀.epoch ∧ r = g₀.room := by
      by_contra hne
      rw [hafter] at new
      obtain ⟨k', -, hset⟩ := exec_moved db (v.joinStep w d'.nonce d'.target)
      rw [hset, hstep.1, hstep.2, Db.set_room_ne hne] at new
      exact new old
    obtain ⟨rfl, rfl⟩ := hplace
    refine ⟨issued, live, lifetime, ⟨hstep.1, hstep.2, _, _, _, _, rfl⟩, ⟨id, old, ?_⟩, hafter⟩
    rw [hafter] at new
    exact new

theorem not_created_again {g₀ : BrowserGateway x a} {d : BrowserIntent}
    {es' : List (BrowseEvent x a)} {db' : QueueDb} {v v' : Visit x a}
    (hr : Run (browse w) (ShowsIntent text) {} es db) (created : Created w g₀ d v db)
    (retention : ∀ c, (db.room g₀.epoch g₀.room).config = some c → c.idempotencyTTL = 600000)
    (hr' : Run (browse w) (ShowsIntent text) (browse w db (.visit v)).2 es' db') :
    ¬ Created w g₀ d v' db' := by
  intro again
  obtain ⟨qs, hqs⟩ := queue_run hr
  obtain ⟨qs', hqs'⟩ := queue_run hr'
  rw [created.after] at hqs'
  have hjoined := hqs.snoc (v.joinStep w d.nonce d.target) trivial
  obtain ⟨i, kept⟩ := row_of_creates hqs created.joins (by decide) retention created.creates
  have kept' := run_rowKept hjoined hqs' kept
  refine not_creates_of_kept (hjoined.append hqs') again.joins kept' ?_ again.creates
  have issued := created.issued
  have live := again.live
  have lifetime := again.lifetime
  have hlt : v'.now < v.now + 600000 := by omega
  exact score_lt_score.mpr (by exact_mod_cast hlt)

theorem prepare_cookie {g : BrowserGateway x a} {decode : Bytes → Option PrepareInput} {r : Request}
    {now : ℤ} {token : String} {nonce : Bytes} {d : BrowserIntent}
    (h : g.prepare w decode r now token nonce = .noContent (some (d, text))) :
    text = g.sealIntent nonce d ∧ ∃ q, uniqueCookie r g.queueCookie = some q ∧
      d.prior = w.hashText q := by
  unfold BrowserGateway.prepare at h
  split at h
  · exact absurd h (by simp)
  · split at h
    · exact absurd h (by simp)
    · split at h
      · exact absurd h (by simp)
      · split at h
        · exact absurd h (by simp)
        · split at h
          · exact absurd h (by simp)
          · rename_i q hq
            dsimp only at h
            split at h
            · exact absurd h (by simp)
            · split at h
              · exact absurd h (by simp)
              · split at h
                · exact absurd h (by simp)
                · obtain ⟨rfl, rfl⟩ := Prod.mk.inj (Option.some.inj (Prepared.noContent.inj h))
                  exact ⟨rfl, q, hq, rfl⟩

end Browse

/-- Visits that show the intent of one `prepare`, between any other uses of the queue: all
their joins are for its nonce and target, at most one of them creates a ticket, and once
a visit has set the queue cookie none that shows this cookie joins. -/
theorem one_ticket_per_intent (w : Platform) {g₀ : BrowserGateway x a}
    {decode : Bytes → Option PrepareInput} {r₀ : Request} {now₀ : ℤ} {token : String} {nonce : Bytes}
    {d : BrowserIntent} {text : String}
    (made : g₀.prepare w decode r₀ now₀ token nonce = .noContent (some (d, text)))
    (intact : SealedIntent g₀ nonce d) {es : List (BrowseEvent x a)} {db : QueueDb}
    (hr : Run (browse w) (ShowsIntent text) {} es db)
    (retention : ∀ ev ∈ es, ∀ c, (ev.before.room g₀.epoch g₀.room).config = some c →
      c.idempotencyTTL = 600000)
    (fresh : ∀ ev ∈ es, ∀ t, ev.SetsTicket t → ∀ q, uniqueCookie r₀ g₀.queueCookie = some q →
      w.hashText t ≠ w.hashText q) :
    (∀ ev ∈ es, ∀ key target, ev.Joins key target → key = d.nonce ∧ target = d.target) ∧
    es.Pairwise (fun ev ev' => ev.Creates → ¬ ev'.Creates) ∧
    ∀ ev ∈ es, ∀ t, ev.SetsTicket t → ∀ ev' ∈ es, ∀ v, ev'.input = .visit v →
      uniqueCookie v.request v.gateway.queueCookie = some t → ∀ key target, ¬ ev'.Joins key target := by
  obtain ⟨rfl, q, hq, hprior⟩ := prepare_cookie made
  -- the intent of every visit that joins is the sealed one
  have joined : ∀ ev ∈ es, ∀ key target, ev.Joins key target → ∃ v ticket, ev.input = .visit v ∧
      uniqueCookie v.request v.gateway.queueCookie = some ticket ∧ d.prior = w.hashText ticket ∧
      key = d.nonce ∧ target = d.target := by
    rintro ev hev key target ⟨calls, answer, hout, hmem⟩
    obtain ⟨-, -, -, -, allowed, heq, -⟩ := hr.split hev
    rw [heq] at hout
    cases hinput : ev.input with
    | queue step =>
      rw [hinput] at hout
      exact absurd hout (by simp [eventOf, browse])
    | visit v =>
      rw [hinput] at hout allowed
      have hcalls : (v.navigate w ev.before).1 = calls :=
        congrArg Prod.fst (Option.some.inj hout)
      have hjoin : JoinCalls v.gateway w v.request v.now (v.navigate w ev.before).1 := join_calls ..
      obtain ⟨d', ticket, intent, cookie, prior, hkey, htarget⟩ := hjoin.of_mem (hcalls ▸ hmem)
      obtain ⟨rfl, -⟩ := intact.opened allowed.1 intent
      exact ⟨v, ticket, rfl, cookie, prior, hkey, htarget⟩
  refine ⟨?_, ?_, ?_⟩
  · intro ev hev key target h
    obtain ⟨-, -, -, -, -, hboth⟩ := joined ev hev key target h
    exact hboth
  · have pairs : es.Pairwise fun ev ev' =>
        (∀ c, (ev.before.room g₀.epoch g₀.room).config = some c → c.idempotencyTTL = 600000) →
          ev.Creates → ¬ ev'.Creates := by
      refine hr.pairwise fun before s input hbefore allowed ev hev ttl creates again => ?_
      obtain ⟨es₁, es₂, -, hr₁, allowed₁, heq, hr₂⟩ := hbefore.split hev
      obtain ⟨v, hv⟩ := creates.1
      obtain ⟨v', hv'⟩ := again.1
      have hv' : input = .visit v' := hv'
      subst hv'
      rw [hv] at heq allowed₁
      have hafter : ev.after = (browse w ev.before (.visit v)).2 := congrArg Event.after heq
      rw [heq] at creates
      rw [hafter] at hr₂
      exact not_created_again hr₁ (intact.created allowed₁ creates) ttl hr₂
        (intact.created allowed again)
    exact pairs.imp_of_mem fun hev _ h => h (retention _ hev)
  · intro ev hev t sets ev' hev' v hinput cookie key target hjoins
    obtain ⟨v', ticket, hinput', cookie', prior, -⟩ := joined ev' hev' key target hjoins
    obtain rfl := BrowseInput.visit.inj (hinput.symm.trans hinput')
    obtain rfl := Option.some.inj (cookie.symm.trans cookie')
    exact fresh ev hev t sets q hq (prior.symm.trans hprior)

/-! ## A reload after a lost answer -/

def oneAead (t₀ : String) : Aead where
  Secret := Bool
  encrypt := fun secret _ plain t =>
    plain ++ List.replicate 16 (if secret = true ∧ t = t₀ then 1 else 0)
  decrypt := fun secret _ data t =>
    if data.getLast? = some (if secret = true ∧ t = t₀ then 1 else 0) then
      some (data.take (data.length - 16))
    else none
  decrypt_encrypt := fun _ _ plain _ => by simp
  length_encrypt := fun _ _ plain _ => by simp

theorem oneAead_rejects (t₀ : String) (nonce plain : Bytes) {secret : Bool} {t : String}
    (h : secret ≠ true ∨ t ≠ t₀) :
    (oneAead t₀).decrypt secret nonce ((oneAead t₀).encrypt true nonce plain t₀) t = none := by
  have hne : ¬ (secret = true ∧ t = t₀) := not_and_or.mpr h
  simp only [oneAead, if_neg hne]
  simp

def labBound : String := "wr-browser-join/v1/" ++ "room" ++ "/" ++ toString 1

abbrev labAead : Aead := oneAead labBound

def labGateway : BrowserGateway plainCodec labAead where
  keys := none
  secret := true
  kid := "admission-v1"
  room := "room"
  epoch := 1
  validTarget := fun _ => true
  secure := true
  hostCheck := fun _ => true

def labToken : String := String.ofList (List.replicate 43 'n')

def labNonce : Bytes := List.replicate 12 7

def labInput : Doc :=
  .obj [("target", .str "/shop"), ("confirm", .bool false), ("restart", .bool false)]

def labDecode (body : Bytes) : Option PrepareInput := do
  let j ← if 4096 < body.length then none else Doc.parse (Doc.readText body)
  let fs ← Doc.exact [] ["target", "confirm", "restart"] j
  let target ← Doc.fieldOr fs "target" Doc.asStr ""
  let confirm ← Doc.fieldOr fs "confirm" Doc.asBool false
  let restart ← Doc.fieldOr fs "restart" Doc.asBool false
  return ⟨target, confirm, restart⟩

def labRequest : Request where
  method := "POST"
  host := "shop.test"
  tls := true
  url := Control.sampleUrl "/prepare"
  uri := []
  headers := [("Origin", "https://shop.test"), ("Content-Type", "application/json")]
  cookies := []
  body := Doc.utf8 (Doc.print Doc.verbatim labInput)

def labIntent : BrowserIntent := ⟨"shop.test", labToken, "/shop", sampleId, 1000001, 1600001⟩

def labCookie : String := labGateway.sealIntent labNonce labIntent

theorem labIntent_made :
    labGateway.prepare samplePlatform labDecode labRequest 1000001 labToken labNonce =
      .noContent (some (labIntent, labCookie)) := by
  have hinput : labDecode labRequest.body = some ⟨"/shop", false, false⟩ := by decide +kernel
  have hcookie : uniqueCookie labRequest labGateway.queueCookie = some "" := by decide
  have hintent : labGateway.intent labRequest 1000001 = none := by
    have hnone : uniqueCookie labRequest labGateway.intentCookie = some "" := by decide
    rw [BrowserGateway.intent, hnone]
    rfl
  rw [BrowserGateway.prepare, if_neg (by decide), if_neg (by decide), hinput]
  dsimp only
  rw [if_neg (by decide), hcookie, hintent]
  dsimp only
  rw [if_neg (by decide), if_neg (by decide), if_neg (by decide)]
  rfl

theorem labIntent_sealed : SealedIntent labGateway labNonce labIntent where
  ids := fun ring h => by cases h
  length := rfl
  unforgeable := by
    have hsecret : labGateway.intentSecret = true := rfl
    have hbound : labGateway.intentBound = labBound := rfl
    generalize labIntent.json = plain
    rw [hsecret, hbound]
    intro secret t h
    exact oneAead_rejects labBound labNonce plain h
  issued := ⟨by decide, by decide⟩
  expires := ⟨by decide, by decide⟩

def labVisit (now : Nat) : Visit plainCodec labAead where
  gateway := labGateway
  request := { labRequest with method := "GET", cookies := [("__Host-wri_room", labCookie)] }
  now := now
  nonce := labNonce
  status := none
  coordinator := ⟨none, true, "room", 1, 60000⟩
  reaches := true
  server := "primary"
  id := sampleId
  replay := "replay"
  primary := "primary"
  fence := 1
  reply := fun _ => none

theorem labCookie_fits : labCookie.utf8ByteSize ≤ 4096 := by
  have hsize : Doc.size Doc.verbatim labIntent.doc ≤ 1000 := by decide
  have hkeys : labGateway.keys = none := rfl
  have hnonce : labNonce.length = 12 := rfl
  rw [labCookie, BrowserGateway.sealIntent, hkeys]
  dsimp only
  rw [utf8ByteSize_ofList, textSize_sealBytes, length_sealBytes hnonce, BrowserIntent.json,
    Doc.length_utf8, Doc.textSize_print]
  omega

theorem labVisit_joins (db : QueueDb) {now : Nat} (h : 1000001 ≤ now ∧ now < 1600001) :
    browse samplePlatform db (.visit (labVisit now)) =
      (some ([.join labToken "/shop"], .navigationProblem 503 "QUEUE_UNAVAILABLE"),
        (exec db ((labVisit now).joinStep samplePlatform labToken "/shop")).2) := by
  have reads : labGateway.intent (labVisit now).request now = some labIntent := by
    refine labIntent_sealed.reads rfl labCookie_fits ⟨rfl, by decide, rfl, ?_, ?_, by decide⟩
    · have hissued : labIntent.issued = 1000001 := rfl
      omega
    · have hexpires : labIntent.expires = 1600001 := rfl
      omega
  have hnavigate : (labVisit now).navigate samplePlatform db =
      ([.join labToken "/shop"], .navigationProblem 503 "QUEUE_UNAVAILABLE") := by
    have hcookie : uniqueCookie (labVisit now).request labGateway.queueCookie = some "" := rfl
    have hgateway : (labVisit now).gateway = labGateway := rfl
    have hhost : labGateway.hostCheck (labVisit now).request = true := rfl
    have hnow : (labVisit now).now = now := rfl
    rw [Visit.navigate, hgateway, hnow, BrowserGateway.join, hcookie, hhost]
    dsimp only
    rw [if_neg (by decide), if_pos rfl, BrowserGateway.joinNew, reads]
    rfl
  rw [browse, hnavigate]
  rfl

def visitedDb : QueueDb :=
  (exec openedDb ((labVisit 1000002).joinStep samplePlatform labToken "/shop")).2

def openingInputs : List (BrowseInput plainCodec labAead) := (sampleSteps.take 2).map .queue

theorem labVisit_once :
    (visitedDb.room 1 "room").tickets.get sampleId ≠ none ∧
    ¬ BrowseEvent.Creates (eventOf (browse samplePlatform) visitedDb (.visit (labVisit 1000003))) := by
  have hfirst : (openedDb.room 1 "room").tickets.get sampleId = none ∧
      (visitedDb.room 1 "room").tickets.get sampleId ≠ none := by decide +kernel
  have hvisit : (browse samplePlatform openedDb (.visit (labVisit 1000002))).2 = visitedDb := by
    rw [labVisit_joins openedDb (by decide)]
    rfl
  have allowed : ∀ input ∈ openingInputs, ∀ db, ShowsIntent labCookie db input := by
    intro input hinput db
    obtain ⟨step, hstep, rfl⟩ := List.mem_map.mp hinput
    exact sampleSteps_wellFormed step (List.mem_of_mem_take hstep) db
  have opening : Run (browse samplePlatform) (ShowsIntent labCookie) {}
      (eventsOf (browse samplePlatform) {} openingInputs) openedDb := run_of_inputs _ allowed
  have shows : ∀ now db, ShowsIntent labCookie db (.visit (labVisit now)) :=
    fun now db => ⟨rfl, rfl, rfl⟩
  have visited := opening.snoc (.visit (labVisit 1000002)) (shows _ _)
  rw [hvisit] at visited
  have hr := visited.snoc (.visit (labVisit 1000003)) (shows _ _)
  have retention : ∀ ev ∈ eventsOf (browse samplePlatform) {} openingInputs ++
      [eventOf (browse samplePlatform) openedDb (.visit (labVisit 1000002))] ++
      [eventOf (browse samplePlatform) visitedDb (.visit (labVisit 1000003))],
      ∀ c, (ev.before.room 1 "room").config = some c → c.idempotencyTTL = 600000 := by
    have hconfigs : ((({} : QueueDb).room 1 "room").config = none ∧
        ((stateAfter exec {} (sampleSteps.take 1)).room 1 "room").config = some sampleConfig) ∧
        (openedDb.room 1 "room").config = some sampleConfig ∧
        (visitedDb.room 1 "room").config = some sampleConfig := by decide +kernel
    have known : ∀ db : QueueDb, (db.room 1 "room").config = some sampleConfig →
        ∀ c, (db.room 1 "room").config = some c → c.idempotencyTTL = 600000 := by
      intro db hdb c hc
      obtain rfl := Option.some.inj (hdb.symm.trans hc)
      rfl
    obtain ⟨⟨hempty, hinit⟩, hopened, hvisited⟩ := hconfigs
    refine List.forall_mem_append.mpr ⟨List.forall_mem_append.mpr ⟨?_, ?_⟩, ?_⟩
    · refine List.forall_mem_cons.mpr ⟨?_, List.forall_mem_singleton.mpr (known _ hinit)⟩
      intro c hc
      exact absurd (hempty.symm.trans hc) (by simp)
    · exact List.forall_mem_singleton.mpr (known _ hopened)
    · exact List.forall_mem_singleton.mpr (known _ hvisited)
  have silent : ∀ ev ∈ eventsOf (browse samplePlatform) {} openingInputs ++
      [eventOf (browse samplePlatform) openedDb (.visit (labVisit 1000002))] ++
      [eventOf (browse samplePlatform) visitedDb (.visit (labVisit 1000003))],
      ∀ t, ¬ BrowseEvent.SetsTicket ev t := by
    have lost : ∀ db now, 1000001 ≤ now ∧ now < 1600001 → ∀ t, ¬ BrowseEvent.SetsTicket
        (eventOf (browse samplePlatform) db (.visit (labVisit now))) t := by
      rintro db now hnow t ⟨calls, envelope, hout, -⟩
      rw [eventOf, labVisit_joins db hnow] at hout
      exact absurd hout (by simp)
    refine List.forall_mem_append.mpr ⟨List.forall_mem_append.mpr ⟨?_, ?_⟩, ?_⟩
    · refine List.forall_mem_cons.mpr ⟨?_, List.forall_mem_singleton.mpr ?_⟩
      · rintro t ⟨_, _, hout, -⟩
        cases hout
      · rintro t ⟨_, _, hout, -⟩
        cases hout
    · exact List.forall_mem_singleton.mpr (lost _ _ (by decide))
    · exact List.forall_mem_singleton.mpr (lost _ _ (by decide))
  obtain ⟨-, pairs, -⟩ := one_ticket_per_intent samplePlatform labIntent_made labIntent_sealed hr
    retention fun ev hev t sets => absurd sets (silent ev hev t)
  have created : BrowseEvent.Creates
      (eventOf (browse samplePlatform) openedDb (.visit (labVisit 1000002))) := by
    refine ⟨⟨_, rfl⟩, 1, "room", sampleId, hfirst.1, ?_⟩
    rw [eventOf_after, hvisit]
    exact hfirst.2
  exact ⟨hfirst.2, (List.pairwise_append.mp pairs).2.2 _
    (List.mem_append_right _ (List.mem_singleton_self _)) _ (List.mem_singleton_self _) created⟩

end WaitingRoom.Browser
