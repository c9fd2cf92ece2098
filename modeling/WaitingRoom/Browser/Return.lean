import WaitingRoom.Guard.Quota
import WaitingRoom.Keyring.Ring
import WaitingRoom.Plane.Serve
import WaitingRoom.Shared.Decode

/-!
# Return envelopes

While a browser waits, its gateway keeps the page it asked for in a sealed cookie,
bound to the host, the ticket, the room and the epoch. The cookie is JSON, and JSON
makes some characters longer: the envelope of a target with many quotes is larger
than the 4096 bytes that are opened, and a byte that is not of UTF-8 comes back as
another character.
-/

namespace WaitingRoom.Browser

open Keyring Admission Control
open Plane (Web targetFor sampleWeb)

set_option autoImplicit false

variable {x : Codec} {a : Aead}

structure ReturnData where
  host : String
  ticket : String
  target : Bytes
  issued : ℤ
  expires : ℤ

/-- `browserCookieJSON` of the envelope. -/
def ReturnData.json (d : ReturnData) : List Char :=
  Doc.object Doc.verbatim [
    ("host", Doc.quote Doc.verbatim d.host),
    ("ticket", Doc.quote Doc.verbatim d.ticket),
    ("target", Doc.quoteBytes Doc.verbatim d.target),
    ("issued", Doc.printInt d.issued),
    ("expires", Doc.printInt d.expires)]

/-- `json.Unmarshal` into the envelope. -/
def unmarshalReturn (plain : Bytes) : Option ReturnData :=
  match Doc.parse (Doc.readText plain) with
  | some (.obj fs) => do
    let host ← Doc.fieldOr fs "host" Doc.asStr ""
    let ticket ← Doc.fieldOr fs "ticket" Doc.asStr ""
    let target ← Doc.fieldOr fs "target" Doc.asStr ""
    let issued ← Doc.fieldOr fs "issued" Doc.asInt 0
    let expires ← Doc.fieldOr fs "expires" Doc.asInt 0
    some ⟨host, ticket, Doc.utf8 target.toList, issued, expires⟩
  | _ => none

/-- What a gateway seals and opens the envelopes of one room with. -/
structure ReturnGateway (x : Codec) (a : Aead) where
  keys : Option (KeyRing x a)
  secret : a.Secret
  kid : String
  room : String
  epoch : Nat
  validTarget : Bytes → Bool

namespace ReturnGateway

variable (g : ReturnGateway x a)

def aad : String := g.room ++ ":" ++ toString g.epoch

def sealReturn (nonce : Bytes) (d : ReturnData) : String :=
  match g.keys with
  | some ring => ring.current.sealText .returning nonce (Doc.utf8 d.json) g.aad
  | none => String.ofList
      (sealBytes g.secret nonce (Doc.utf8 d.json) ("wr-return/v1/" ++ g.kid ++ "/" ++ g.room))

def openEnvelope (text : String) : Option Bytes :=
  match g.keys with
  | some ring => ring.openText .returning text g.aad ("wr-return/v1/admission-v1/" ++ g.room)
  | none =>
    match Base64.decode text.toList with
    | none => none
    | some data =>
      if data.length < 12 then none
      else a.decrypt g.secret (data.take 12) (data.drop 12)
        ("wr-return/v1/" ++ g.kid ++ "/" ++ g.room)

/-- The tests that `openReturn` makes on an envelope. -/
def Accepts (hash : String → String) (d : ReturnData) (host ticket : String) (now : ℤ) : Prop :=
  d.host = host ∧ d.ticket = hash ticket ∧ g.validTarget d.target = true ∧ d.issued ≤ now ∧
    now < d.expires ∧ d.issued < d.expires ∧ d.expires - d.issued ≤ 86400000

instance (hash : String → String) (d : ReturnData) (host ticket : String) (now : ℤ) :
    Decidable (g.Accepts hash d host ticket now) :=
  inferInstanceAs (Decidable (_ ∧ _ ∧ _ ∧ _ ∧ _ ∧ _ ∧ _))

def openReturn (hash : String → String) (text host ticket : String) (now : ℤ) :
    Option ReturnData :=
  if 4096 < text.utf8ByteSize then none
  else
    match g.openEnvelope text with
    | none => none
    | some plain =>
      match unmarshalReturn plain with
      | none => none
      | some d => if g.Accepts hash d host ticket now then some d else none

end ReturnGateway

/-- The envelope that `redirectWaiting` makes at `now` for a ticket until `expires`. -/
def redirectData (hash : String → String) (host ticket : String) (target : Bytes) (now expires : ℤ) :
    ReturnData :=
  ⟨host, hash ticket, target, now, min expires (now + 86400000)⟩

section Encoding

def Int64 (n : ℤ) : Prop := -9223372036854775808 ≤ n ∧ n ≤ 9223372036854775807

/-- What comes back of an envelope: a byte of the target that is not of UTF-8 comes back
as another character. -/
def ReturnData.read (d : ReturnData) : ReturnData := { d with target := Doc.utf8 (Doc.readText d.target) }

theorem ReturnData.parse_json (d : ReturnData) : Doc.parse d.json =
    some (.obj [("host", .str d.host), ("ticket", .str d.ticket),
      ("target", .str (String.ofList (Doc.readText d.target))), ("issued", .num d.issued),
      ("expires", .num d.expires)]) := by
  have hnum : ∀ n, Doc.Reads (Doc.printInt n) (.num n) := fun n => by
    have h := Doc.reads_print Doc.verbatim (.num n)
    rwa [Doc.print] at h
  have hstr : ∀ s, Doc.Reads (Doc.quote Doc.verbatim s) (.str s) := fun s => by
    have h := Doc.reads_print Doc.verbatim (.str s)
    rwa [Doc.print] at h
  exact Doc.parse_object Doc.verbatim (.cons ⟨rfl, hstr d.host⟩ (.cons ⟨rfl, hstr d.ticket⟩
    (.cons ⟨rfl, Doc.reads_quoteBytes _ d.target⟩ (.cons ⟨rfl, hnum d.issued⟩
      (.cons ⟨rfl, hnum d.expires⟩ .nil)))))

theorem unmarshal_json (d : ReturnData) (issued : Int64 d.issued) (expires : Int64 d.expires) :
    unmarshalReturn (Doc.utf8 d.json) = some d.read := by
  rw [unmarshalReturn, Doc.readText_utf8, d.parse_json]
  have hissued : (Doc.num d.issued).asInt = some d.issued := Doc.asInt_num issued
  have hexpires : (Doc.num d.expires).asInt = some d.expires := Doc.asInt_num expires
  dsimp only
  rw [Doc.fieldOr_eq rfl, Doc.fieldOr_eq rfl, Doc.fieldOr_eq rfl, Doc.fieldOr_eq rfl,
    Doc.fieldOr_eq rfl, hissued, hexpires]
  simp only [Doc.asStr, Option.bind_eq_bind, Option.bind_some, String.toList_ofList, ReturnData.read]

theorem textSize_json (d : ReturnData) :
    Doc.textSize d.json = Doc.quoteSize Doc.verbatim d.host + Doc.quoteSize Doc.verbatim d.ticket +
      Doc.textSize (Doc.quoteBytes Doc.verbatim d.target) + Doc.textSize (Doc.printInt d.issued) +
      Doc.textSize (Doc.printInt d.expires) + 50 := by
  have names : Doc.quoteSize Doc.verbatim "host" = 6 ∧ Doc.quoteSize Doc.verbatim "ticket" = 8 ∧
      Doc.quoteSize Doc.verbatim "target" = 8 ∧ Doc.quoteSize Doc.verbatim "issued" = 8 ∧
      Doc.quoteSize Doc.verbatim "expires" = 9 := by decide
  have hgap : Doc.textSize Doc.verbatim.gap = 0 := rfl
  obtain ⟨hhost, hticket, htarget, hissued, hexpires⟩ := names
  rw [ReturnData.json, Doc.textSize_object, Doc.textSize_objectRest]
  simp only [List.map_cons, List.map_nil, List.sum_cons, List.sum_nil, Doc.textSize_quote, hgap,
    hhost, hticket, htarget, hissued, hexpires]
  omega

def PlainChar (c : Char) : Prop := 32 ≤ c.toNat ∧ c.toNat < 128 ∧ c ≠ '"' ∧ c ≠ '\\'
  deriving Decidable

theorem quoteSize_of_plain {s : String} (h : ∀ c ∈ s.toList, PlainChar c) :
    Doc.quoteSize Doc.verbatim s = s.toList.length + 2 := by
  have one : ∀ c, PlainChar c → Doc.textSize (Doc.verbatim.escape c) = 1 := by
    rintro c ⟨hlow, hhigh, hquote, hslash⟩
    have hsize : c.utf8Size = 1 := by
      rw [Char.utf8Size_eq_one_iff, UInt32.le_iff_toNat_le]
      have : c.val.toNat = c.toNat := rfl
      have : (127 : UInt32).toNat = 127 := rfl
      omega
    have ne : ∀ d : Char, (d.toNat < 32 ∨ 128 ≤ d.toNat) → c ≠ d := by
      rintro d hd rfl
      omega
    have hescape : Doc.verbatim.escape c = [c] := by
      have hlines : ¬ (c = '\u2028' ∨ c = '\u2029') := by
        rintro (h | h)
        · exact ne _ (by decide) h
        · exact ne _ (by decide) h
      rw [Doc.verbatim]
      simp only [if_neg hlines, Doc.escapeControl, if_neg hquote, if_neg hslash,
        if_neg (ne '\x08' (by decide)), if_neg (ne '\x0c' (by decide)), if_neg (ne '\n' (by decide)),
        if_neg (ne '\r' (by decide)), if_neg (ne '\t' (by decide)), if_neg (Nat.not_lt.mpr hlow)]
    rw [hescape, Doc.textSize_cons, Doc.textSize_nil, hsize]
  have all : ∀ cs : List Char, (∀ c ∈ cs, PlainChar c) →
      (cs.map fun c => Doc.textSize (Doc.verbatim.escape c)).sum = cs.length := by
    intro cs hcs
    induction cs with
    | nil => rfl
    | cons c cs ih =>
      obtain ⟨hc, hcs⟩ := List.forall_mem_cons.mp hcs
      rw [List.map_cons, List.sum_cons, one c hc, ih hcs, List.length_cons]
      omega
  rw [Doc.quoteSize, all _ h]

end Encoding

section Binding

theorem split_at_last {sep : Char} {front front' back back' : List Char}
    (h : front ++ sep :: back = front' ++ sep :: back') (hback : sep ∉ back) (hback' : sep ∉ back') :
    front = front' ∧ back = back' := by
  rcases List.append_eq_append_iff.mp h with ⟨cs, rfl, hcs⟩ | ⟨cs, rfl, hcs⟩
  · cases cs with
    | nil => exact ⟨(List.append_nil _).symm, List.tail_eq_of_cons_eq hcs⟩
    | cons c cs =>
      refine absurd ?_ hback
      rw [List.tail_eq_of_cons_eq hcs]
      exact List.mem_append_right _ List.mem_cons_self
  · cases cs with
    | nil => exact ⟨List.append_nil _, (List.tail_eq_of_cons_eq hcs).symm⟩
    | cons c cs =>
      refine absurd ?_ hback'
      rw [List.tail_eq_of_cons_eq hcs]
      exact List.mem_append_right _ List.mem_cons_self

theorem ReturnGateway.aad_injective {g g' : ReturnGateway x a} (h : g.aad = g'.aad) :
    g.room = g'.room ∧ g.epoch = g'.epoch := by
  have hcolon : ∀ n : Nat, ':' ∉ (toString n).toList := fun n => by
    rw [Nat.toString_eq_ofList_toDigits, String.toList_ofList]
    exact Guard.colon_notMem_toDigits n
  have hlists : ∀ g : ReturnGateway x a,
      g.aad.toList = g.room.toList ++ ':' :: (toString g.epoch).toList := fun g => by
    rw [aad, String.toList_append, String.toList_append, List.append_assoc]
    rfl
  have heq := congrArg String.toList h
  rw [hlists g, hlists g'] at heq
  obtain ⟨hroom, hepoch⟩ := split_at_last heq (hcolon _) (hcolon _)
  exact ⟨String.toList_inj.mp hroom, Guard.toString_nat_injective (String.toList_inj.mp hepoch)⟩

theorem bound_injective {p : Purpose} {id s t : String} (h : bound p id s = bound p id t) : s = t := by
  have hlists := congrArg String.toList h
  simp only [bound, String.toList_append] at hlists
  exact String.toList_inj.mp (List.append_cancel_left hlists)

end Binding

section Envelope

variable {g g' : ReturnGateway x a} {ring : KeyRing x a} {nonce : Bytes} {d : ReturnData}

theorem ReturnGateway.sealReturn_of_keys (keys : g.keys = some ring) :
    g.sealReturn nonce d = ring.current.sealText .returning nonce (Doc.utf8 d.json) g.aad := by
  rw [sealReturn, keys]

theorem size_sealReturn (keys : g.keys = some ring) (hn : nonce.length = 12) :
    (g.sealReturn nonce d).utf8ByteSize =
      Doc.textSize ring.current.id.toList + 1 + (4 * (Doc.textSize d.json + 28) + 2) / 3 := by
  rw [ReturnGateway.sealReturn_of_keys keys, size_sealText _ hn, Doc.length_utf8]

theorem openEnvelope_sealReturn (keys : g.keys = some ring) (keys' : g'.keys = some ring)
    (h : ring.WellFormed) (hn : nonce.length = 12)
    (fits : (g.sealReturn nonce d).utf8ByteSize ≤ 4096) :
    g'.openEnvelope (g.sealReturn nonce d) =
      a.decrypt (ring.current.secret .returning) nonce
        (a.encrypt (ring.current.secret .returning) nonce (Doc.utf8 d.json)
          (bound .returning ring.current.id g.aad))
        (bound .returning ring.current.id g'.aad) := by
  rw [ReturnGateway.sealReturn_of_keys keys] at fits ⊢
  rw [ReturnGateway.openEnvelope, keys']
  exact KeyRing.openText_sealText h List.mem_cons_self hn (Nat.le_trans fits (by decide)) g'.aad

theorem openReturn_sealReturn (keys : g.keys = some ring) (h : ring.WellFormed)
    (hn : nonce.length = 12) (issued : Int64 d.issued) (expires : Int64 d.expires)
    (hash : String → String) (host ticket : String) (now : ℤ) :
    g.openReturn hash (g.sealReturn nonce d) host ticket now =
      if (g.sealReturn nonce d).utf8ByteSize ≤ 4096 ∧ g.Accepts hash d.read host ticket now then
        some d.read
      else none := by
  rw [ReturnGateway.openReturn]
  by_cases fits : (g.sealReturn nonce d).utf8ByteSize ≤ 4096
  · rw [if_neg (Nat.not_lt.mpr fits), openEnvelope_sealReturn keys keys h hn fits, a.decrypt_encrypt]
    dsimp only
    rw [unmarshal_json d issued expires]
    simp only [fits, true_and]
  · rw [if_pos (Nat.not_le.mp fits), if_neg fun hboth => fits hboth.1]

/-- The bytes of a sealed envelope: the quoted texts and the times in JSON, 28 bytes of the
cipher, four digits for three bytes, and the id of the key in front. -/
def returnSize (id host ticket : String) (target : List Char) (issued expires : ℤ) : Nat :=
  Doc.textSize id.toList + 1 +
    (4 * (Doc.quoteSize Doc.verbatim host + Doc.quoteSize Doc.verbatim ticket +
      Doc.quoteSize Doc.verbatim (String.ofList target) + Doc.textSize (Doc.printInt issued) +
      Doc.textSize (Doc.printInt expires) + 50 + 28) + 2) / 3

theorem size_sealReturn_text (keys : g.keys = some ring) (hn : nonce.length = 12) {cs : List Char}
    (text : d.target = Doc.utf8 cs) : (g.sealReturn nonce d).utf8ByteSize =
      returnSize ring.current.id d.host d.ticket cs d.issued d.expires := by
  rw [size_sealReturn keys hn, textSize_json, text, Doc.quoteBytes_utf8, Doc.textSize_quote, returnSize]

/-- An envelope without characters that JSON makes longer: a host name and a port, a hash
in hexadecimal digits, and a target of at most 2048 bytes. -/
structure PlainEnvelope (id : String) (d : ReturnData) (cs : List Char) : Prop where
  id : Doc.textSize id.toList ≤ 32
  host : ∀ c ∈ d.host.toList, PlainChar c
  hostLength : d.host.toList.length ≤ 259
  ticket : ∀ c ∈ d.ticket.toList, PlainChar c
  ticketLength : d.ticket.toList.length = 64
  target : ∀ c ∈ cs, PlainChar c
  targetLength : cs.length ≤ 2048

theorem returnSize_of_plain {id : String} {cs : List Char} (issued : 0 ≤ d.issued ∧ Int64 d.issued)
    (expires : 0 ≤ d.expires ∧ Int64 d.expires) (h : PlainEnvelope id d cs) :
    returnSize id d.host d.ticket cs d.issued d.expires ≤ 4096 := by
  have digits : ∀ n : ℤ, 0 ≤ n ∧ Int64 n → Doc.textSize (Doc.printInt n) ≤ 19 := by
    rintro n ⟨hn, -, hmax⟩
    exact Doc.textSize_printInt_le hn (by decide) (by omega)
  have htarget : Doc.quoteSize Doc.verbatim (String.ofList cs) = cs.length + 2 := by
    rw [quoteSize_of_plain, String.toList_ofList]
    rw [String.toList_ofList]
    exact h.target
  have hissued := digits _ issued
  have hexpires := digits _ expires
  have hid := h.id
  have hhost := h.hostLength
  have hticket := h.ticketLength
  have hlength := h.targetLength
  rw [returnSize, quoteSize_of_plain h.host, quoteSize_of_plain h.ticket, htarget]
  omega

theorem openReturn_elsewhere (keys : g.keys = some ring) (keys' : g'.keys = some ring)
    (h : ring.WellFormed) (hn : nonce.length = 12)
    (unforgeable : ∀ t, t ≠ bound .returning ring.current.id g.aad →
      a.decrypt (ring.current.secret .returning) nonce
        (a.encrypt (ring.current.secret .returning) nonce (Doc.utf8 d.json)
          (bound .returning ring.current.id g.aad)) t = none)
    (other : g'.room ≠ g.room ∨ g'.epoch ≠ g.epoch) (hash : String → String) (host ticket : String)
    (now : ℤ) : g'.openReturn hash (g.sealReturn nonce d) host ticket now = none := by
  have hne : bound .returning ring.current.id g'.aad ≠ bound .returning ring.current.id g.aad := by
    intro heq
    obtain ⟨hroom, hepoch⟩ := ReturnGateway.aad_injective (bound_injective heq)
    rcases other with other | other
    · exact other hroom
    · exact other hepoch
  rw [ReturnGateway.openReturn]
  by_cases hsize : 4096 < (g.sealReturn nonce d).utf8ByteSize
  · rw [if_pos hsize]
  · rw [if_neg hsize, openEnvelope_sealReturn keys keys' h hn (Nat.not_lt.mp hsize),
      unforgeable _ hne]

end Envelope

/-- The envelope that `redirectWaiting` makes brings its target back, with the same host and
ticket while it lasts, if and only if the target is UTF-8 and the envelope takes at most
4096 bytes; it opens with no other host, ticket, room or epoch, and at no other time. -/
theorem return_envelope (g : ReturnGateway x a) {ring : KeyRing x a} (keys : g.keys = some ring)
    (wellFormed : ring.WellFormed) (nonce : Bytes) (hn : nonce.length = 12) (hash : String → String)
    (host ticket : String) (target : Bytes) (valid : g.validTarget target = true)
    (now expires : ℤ) (started : 0 ≤ now) (live : now < expires) (clock : Int64 (now + 86400000))
    (unforgeable : ∀ t, t ≠ bound .returning ring.current.id g.aad →
      a.decrypt (ring.current.secret .returning) nonce
        (a.encrypt (ring.current.secret .returning) nonce
          (Doc.utf8 (redirectData hash host ticket target now expires).json)
          (bound .returning ring.current.id g.aad)) t = none) :
    let d := redirectData hash host ticket target now expires
    let text := g.sealReturn nonce d
    let Returns := ∃ cs, target = Doc.utf8 cs ∧
      returnSize ring.current.id host (hash ticket) cs now (min expires (now + 86400000)) ≤ 4096
    (∀ t, d.issued ≤ t → t < d.expires →
      ((∃ d', g.openReturn hash text host ticket t = some d' ∧ d'.target = target) ↔ Returns) ∧
      (Returns → g.openReturn hash text host ticket t = some d)) ∧
    (∀ cs, target = Doc.utf8 cs → PlainEnvelope ring.current.id d cs → Returns) ∧
    (∀ host' ticket' t, host' ≠ host ∨ hash ticket' ≠ hash ticket ∨ t < d.issued ∨ d.expires ≤ t →
      g.openReturn hash text host' ticket' t = none) ∧
    (∀ g' : ReturnGateway x a, g'.keys = some ring → g'.room ≠ g.room ∨ g'.epoch ≠ g.epoch →
      ∀ host' ticket' t, g'.openReturn hash text host' ticket' t = none) := by
  intro d text Returns
  have hissued : d.issued = now := rfl
  have hexpires : d.expires = min expires (now + 86400000) := rfl
  have hclock : now + 86400000 ≤ 9223372036854775807 := clock.2
  have issued64 : 0 ≤ d.issued ∧ Int64 d.issued := by
    rw [hissued]
    exact ⟨started, by unfold Int64; omega⟩
  have expires64 : 0 ≤ d.expires ∧ Int64 d.expires := by
    rw [hexpires]
    unfold Int64
    omega
  have opened := openReturn_sealReturn keys wellFormed hn issued64.2 expires64.2 hash
  have sized : ∀ cs, target = Doc.utf8 cs → text.utf8ByteSize =
      returnSize ring.current.id host (hash ticket) cs now (min expires (now + 86400000)) :=
    fun cs htext => size_sealReturn_text keys hn htext
  refine ⟨fun t hfrom hto => ?_, fun cs htext plain => ?_, fun host' ticket' t other => ?_,
    fun g' keys' other => openReturn_elsewhere keys keys' wellFormed hn unforgeable other hash⟩
  · have back : Returns → g.openReturn hash text host ticket t = some d := by
      rintro ⟨cs, htext, hsize⟩
      have hread : d.read = d := by
        have htarget : Doc.utf8 (Doc.readText target) = target := by rw [htext, Doc.readText_utf8]
        exact congrArg (fun b => { d with target := b }) htarget
      have accepts : g.Accepts hash d host ticket t := by
        refine ⟨rfl, rfl, valid, hfrom, hto, ?_, ?_⟩
        · rw [hissued, hexpires]
          omega
        · rw [hissued, hexpires]
          omega
      rw [← sized cs htext] at hsize
      rw [opened, hread, if_pos ⟨hsize, accepts⟩]
    refine ⟨⟨?_, fun h => ⟨d, back h, rfl⟩⟩, back⟩
    rintro ⟨d', hopen, htarget⟩
    rw [opened] at hopen
    split at hopen
    · rename_i hcond
      obtain rfl := Option.some.inj hopen
      have htext : target = Doc.utf8 (Doc.readText target) := htarget.symm
      refine ⟨_, htext, ?_⟩
      rw [← sized _ htext]
      exact hcond.1
    · cases hopen
  · have hsize := returnSize_of_plain issued64 expires64 plain
    rw [← size_sealReturn_text keys hn htext, sized cs htext] at hsize
    exact ⟨cs, htext, hsize⟩
  · rw [opened, if_neg]
    rintro ⟨-, hhost, hticket, -, hfrom, hto, -⟩
    have hfrom : d.issued ≤ t := hfrom
    have hto : t < d.expires := hto
    rcases other with other | other | other | other
    · exact other hhost.symm
    · exact other hticket.symm
    · omega
    · omega

/-! ## A plain target, and one of quotes -/

def markedAead : Aead where
  Secret := String
  encrypt := fun secret _ plain t => plain ++ List.replicate 16 (if t = secret then 1 else 0)
  decrypt := fun secret _ data t =>
    if data.getLast? = some (if t = secret then 1 else 0) then some (data.take (data.length - 16))
    else none
  decrypt_encrypt := fun secret _ plain t => by simp
  length_encrypt := fun _ _ plain _ => by simp

theorem markedAead_rejects (nonce plain : Bytes) {secret t : String} (h : t ≠ secret) :
    markedAead.decrypt secret nonce (markedAead.encrypt secret nonce plain secret) t = none := by
  simp [markedAead, h]

def sampleRing : KeyRing plainCodec markedAead where
  generation := 1
  phase := .stable
  current := ⟨⟨"v1", 0, (), ()⟩, "", bound .returning "v1" "room:1"⟩

def sampleGateway : ReturnGateway plainCodec markedAead :=
  ⟨some sampleRing, "", "admission-v1", "room", 1, targetFor sampleWeb shopConfig sampleRoom⟩

def sampleHash (ticket : String) : String :=
  String.ofList (List.replicate 64 (if ticket = "ticket" then 'a' else 'b'))

theorem sampleRing_wellFormed : sampleRing.WellFormed := ⟨by decide, by decide⟩

def sampleReturn : ReturnData :=
  redirectData sampleHash "shop.test:20443" "ticket" (Doc.utf8 ['/', 'a']) 1000 61000

def sampleEnvelope : String := sampleGateway.sealReturn (List.replicate 12 7) sampleReturn

theorem sampleReturn_plain : PlainEnvelope "v1" sampleReturn ['/', 'a'] :=
  ⟨by decide, by decide, by decide, by decide, by decide, by decide, by decide⟩

set_option maxRecDepth 4000 in
theorem sampleEnvelope_opens :
    (sampleGateway.openReturn sampleHash sampleEnvelope "shop.test:20443" "ticket" 60999 =
      some sampleReturn) ∧
    (sampleGateway.openReturn sampleHash sampleEnvelope "shop.test:20443" "ticket" 61000 = none) ∧
    ({ sampleGateway with epoch := 2 }.openReturn sampleHash sampleEnvelope "shop.test:20443" "ticket"
      60999 = none) := by
  have unforgeable : ∀ t, t ≠ bound .returning sampleRing.current.id sampleGateway.aad →
      markedAead.decrypt (sampleRing.current.secret .returning) (List.replicate 12 7)
        (markedAead.encrypt (sampleRing.current.secret .returning) (List.replicate 12 7)
          (Doc.utf8 sampleReturn.json) (bound .returning sampleRing.current.id sampleGateway.aad)) t =
      none := by
    intro t ht
    exact markedAead_rejects _ _ ht
  obtain ⟨opens, fits, other, elsewhere⟩ := return_envelope sampleGateway rfl sampleRing_wellFormed
    (List.replicate 12 7) rfl sampleHash "shop.test:20443" "ticket" (Doc.utf8 ['/', 'a']) (by decide)
    1000 61000 (by decide) (by decide) ⟨by decide, by decide⟩ unforgeable
  refine ⟨(opens 60999 (by decide) (by decide)).2 (fits _ rfl sampleReturn_plain), ?_, ?_⟩
  · exact other "shop.test:20443" "ticket" 61000 (.inr (.inr (.inr (by decide))))
  · exact elsewhere _ rfl (.inr (by decide)) "shop.test:20443" "ticket" 60999

def latin (bytes : Bytes) : String := String.ofList (bytes.map fun b => Char.ofNat b.toNat)

def queryWeb : Web plainCodec :=
  { sampleWeb with
    parseRequestURI := fun bytes => some
      { sampleUrl (latin (bytes.takeWhile fun b => b ≠ 63)) with
        rawQuery := latin ((bytes.dropWhile fun b => b ≠ 63).drop 1) } }

def quoted (n : Nat) : List Char := '/' :: 'a' :: '?' :: List.replicate n '"'

theorem utf8_quoted (n : Nat) : Doc.utf8 (quoted n) = 47 :: 97 :: 63 :: List.replicate n 34 := by
  have quotes : Doc.utf8 (List.replicate n '"') = List.replicate n 34 := by
    induction n with
    | zero => rfl
    | succ n ih =>
      rw [List.replicate_succ, List.replicate_succ, Doc.utf8, List.flatMap_cons, ← Doc.utf8, ih]
      rfl
  rw [← quotes]
  rfl

theorem quoteSize_quoted (n : Nat) :
    Doc.quoteSize Doc.verbatim (String.ofList (quoted n)) = 2 * n + 5 := by
  have quote : Doc.textSize (Doc.verbatim.escape '"') = 2 := by decide
  have front : Doc.textSize (Doc.verbatim.escape '/') = 1 ∧
      Doc.textSize (Doc.verbatim.escape 'a') = 1 ∧ Doc.textSize (Doc.verbatim.escape '?') = 1 := by
    decide
  obtain ⟨hslash, ha, hquestion⟩ := front
  rw [Doc.quoteSize, String.toList_ofList, quoted]
  simp only [List.map_cons, List.map_replicate, List.sum_cons, List.sum_replicate, hslash, ha,
    hquestion, quote, Nat.nsmul_eq_mul]
  omega

theorem targetFor_quoted {n : Nat} (h : n ≤ 2045) :
    targetFor queryWeb shopConfig sampleRoom (Doc.utf8 (quoted n)) = true := by
  rw [utf8_quoted, targetFor, if_neg, if_neg]
  · have hmatch : ∀ q, shopConfig.matchURL sampleRoom.hostname
        (some { sampleUrl "/a" with rawQuery := q }) =
        shopConfig.matchURL sampleRoom.hostname (some (sampleUrl "/a")) := fun _ => rfl
    have hpath : latin ((47 :: 97 :: 63 :: List.replicate n 34).takeWhile fun b => b ≠ 63) = "/a" := by
      simp [latin]
    simp only [queryWeb, hpath]
    rw [if_neg (by decide), hmatch]
    decide
  · rintro ⟨b, hb, hbad⟩
    simp only [List.mem_cons, List.mem_replicate] at hb
    rcases hb with rfl | rfl | rfl | ⟨-, rfl⟩ <;> revert hbad <;> decide
  · simp only [List.length_cons, List.length_replicate, not_or, Nat.not_lt]
    refine ⟨by omega, by omega, ?_⟩
    simp

/-- The target of 2000 quotes is accepted, but the envelope that keeps it is never opened:
JSON writes each quote as two bytes. -/
theorem quoted_target_lost :
    targetFor queryWeb shopConfig sampleRoom (Doc.utf8 (quoted 2000)) = true ∧
    ∀ (a : Aead) (g : ReturnGateway plainCodec a) (ring : KeyRing plainCodec a), g.keys = some ring →
      ∀ nonce : Bytes, nonce.length = 12 → ∀ (hash : String → String) (host ticket : String)
        (now expires t : ℤ),
        g.openReturn hash
          (g.sealReturn nonce
            (redirectData hash host ticket (Doc.utf8 (quoted 2000)) now expires)) host ticket t =
          none := by
  refine ⟨targetFor_quoted (by decide), ?_⟩
  intro a g ring keys nonce hn hash host ticket now expires t
  have large : 4096 < (g.sealReturn nonce
      (redirectData hash host ticket (Doc.utf8 (quoted 2000)) now expires)).utf8ByteSize := by
    have htarget : Doc.textSize (Doc.quoteBytes Doc.verbatim (Doc.utf8 (quoted 2000))) = 4005 := by
      rw [Doc.quoteBytes_utf8, Doc.textSize_quote, quoteSize_quoted]
    rw [size_sealReturn keys hn, textSize_json]
    have hdata : (redirectData hash host ticket (Doc.utf8 (quoted 2000)) now expires).target =
        Doc.utf8 (quoted 2000) := rfl
    rw [hdata, htarget]
    omega
  rw [ReturnGateway.openReturn, if_pos large]

end WaitingRoom.Browser
