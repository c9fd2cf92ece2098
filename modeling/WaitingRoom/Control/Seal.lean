import WaitingRoom.Control.Succession
import WaitingRoom.Shared.Base64
import WaitingRoom.Shared.Raw

/-!
# Snapshots and envelopes as `encoding/json` writes them

The payload of a snapshot and the snapshot of an envelope are raw JSON: the encoder
writes their text again, the decoder hands over the bytes as they stand. A delivery
is signed in its compact text, which both leave as it is, so that what `Sign` makes
is read back by `strict`, field for field. Texts are taken as UTF-8 without `null` and
fractions, which no delivery holds; a nil `json.RawMessage` is the empty one.
-/

namespace WaitingRoom.Trust

set_option autoImplicit false

open Doc

section Json

/-- A `json.RawMessage` as it is written. -/
def rawMessage (raw : Bytes) : Option (List Char) :=
  if raw = [] then some ['n', 'u', 'l', 'l']
  else
    match parse (readText raw) with
    | none => none
    | some _ => some (tighten false (readText raw))

def encodeSnapshot (s : Snapshot) : Option Bytes :=
  match rawMessage s.payload with
  | none => none
  | some payload =>
    some (Doc.utf8 (object compact [("schemaVersion", printInt s.schemaVersion),
      ("installation", quote compact s.installation), ("generation", printInt s.generation),
      ("revision", printInt s.revision), ("issuedAt", printInt s.issuedAt),
      ("expiresAt", printInt s.expiresAt), ("kid", quote compact s.kid), ("payload", payload)]))

def encodeEnvelope (e : Envelope) : Option Bytes :=
  match rawMessage e.snapshot with
  | none => none
  | some snapshot =>
    some (Doc.utf8 (object compact [("snapshot", snapshot),
      ("signature", quote compact e.signature)]))

def textField {V : Type} (fs : List (String × List Char)) (k : String) (f : Doc → Option V)
    (v : V) : Option V :=
  match fs.lookup k with
  | none => some v
  | some text => (parse text).bind f

def knownFields (keys : List String) (raw : Bytes) : Option (List (String × List Char)) :=
  match rawObject (readText raw) with
  | none => none
  | some fs => if ∀ f ∈ fs, f.1 ∈ keys then some fs else none

def decodeSnapshot (raw : Bytes) : Option Snapshot := do
  let fs ← knownFields ["schemaVersion", "installation", "generation", "revision", "issuedAt",
    "expiresAt", "kid", "payload"] raw
  some {
    schemaVersion := ← textField fs "schemaVersion" asInt 0
    installation := ← textField fs "installation" asStr ""
    generation := ← textField fs "generation" asNat 0
    revision := ← textField fs "revision" asNat 0
    issuedAt := ← textField fs "issuedAt" asInt 0
    expiresAt := ← textField fs "expiresAt" asInt 0
    kid := ← textField fs "kid" asStr ""
    payload := Doc.utf8 ((fs.lookup "payload").getD []) }

def decodeEnvelope (raw : Bytes) : Option Envelope := do
  let fs ← knownFields ["snapshot", "signature"] raw
  some ⟨Doc.utf8 ((fs.lookup "snapshot").getD []), ← textField fs "signature" asStr ""⟩

end Json

/-- `crypto/ed25519`. -/
structure Ed25519 where
  sign : Bytes → Bytes → Bytes
  verify : Bytes → Bytes → Bytes → Bool
  /-- A private key and its public key. -/
  Paired : Bytes → Bytes → Prop
  length_sign : ∀ key message, key.length = privateKeySize → (sign key message).length = 64
  length_public : ∀ {key pub}, Paired key pub → pub.length = publicKeySize
  verify_sign : ∀ {key pub}, Paired key pub → ∀ message, verify pub message (sign key message) = true

def goPlatform (ed : Ed25519) (hexSha256 : Bytes → String) : Platform where
  decodeEnvelope := decodeEnvelope
  encodeEnvelope := encodeEnvelope
  decodeSnapshot := decodeSnapshot
  encodeSnapshot := encodeSnapshot
  jsonValid := fun raw => (parse (readText raw)).isSome
  decodeBase64 := fun text => Base64.decode text.toList
  encodeBase64 := fun raw => String.ofList (Base64.encode raw)
  verify := ed.verify
  sign := ed.sign
  hexSha256 := hexSha256

section RoundTrip

variable {s : Snapshot} {j : Doc}

theorem rawMessage_print (j : Doc) :
    rawMessage (Doc.utf8 (print compact j)) = some (print compact j) := by
  obtain ⟨c, cs, hprint, -⟩ := print_cons (y := compact) j
  have hne : Doc.utf8 (print compact j) ≠ [] := by
    intro hnil
    have hlength := congrArg List.length hnil
    have hpos := c.utf8Size_pos
    rw [hprint, Doc.length_utf8, textSize_cons, List.length_nil] at hlength
    omega
  rw [rawMessage, if_neg hne, readText_utf8, parse_print, tighten_compact]

theorem encodeSnapshot_print (hp : s.payload = Doc.utf8 (print compact j)) :
    encodeSnapshot s = some (Doc.utf8 (print compact (Control.snapshotDoc s j))) := by
  rw [encodeSnapshot, hp, rawMessage_print, Control.snapshotDoc, print_obj]
  simp only [List.map_cons, List.map_nil, print]

theorem encodeEnvelope_print (signature : String) :
    encodeEnvelope ⟨Doc.utf8 (print compact j), signature⟩ =
      some (Doc.utf8 (print compact (Control.envelopeDoc j signature))) := by
  rw [encodeEnvelope, rawMessage_print, Control.envelopeDoc, print_obj]
  simp only [List.map_cons, List.map_nil, print]

theorem lookup_print {fs : List (String × Doc)} {k : String} (hk : fs.lookup k = some j) :
    (fs.map fun e => (e.1, print compact e.2)).lookup k = some (print compact j) := by
  induction fs with
  | nil => cases hk
  | cons e fs ih =>
    rw [List.map_cons, List.lookup]
    rw [List.lookup] at hk
    split <;> rename_i heq <;> rw [heq] at hk
    · rw [Option.some.inj hk]
    · exact ih hk

theorem textField_print {V : Type} {fs : List (String × Doc)} {k : String} {f : Doc → Option V}
    {v w : V} (hk : fs.lookup k = some j) (hf : f j = some v) :
    textField (fs.map fun e => (e.1, print compact e.2)) k f w = some v := by
  rw [textField, lookup_print hk]
  dsimp only
  rw [parse_print]
  exact hf

theorem knownFields_print {keys : List String} {fs : List (String × Doc)}
    (hk : ∀ f ∈ fs, f.1 ∈ keys) :
    knownFields keys (Doc.utf8 (print compact (.obj fs))) =
      some (fs.map fun f => (f.1, print compact f.2)) := by
  have hknown : ∀ f ∈ fs.map (fun f => (f.1, print compact f.2)), f.1 ∈ keys := by
    intro f hf
    obtain ⟨e, he, rfl⟩ := List.mem_map.mp hf
    exact hk e he
  rw [knownFields, readText_utf8, rawObject_print]
  exact if_pos hknown

theorem decodeSnapshot_print {x : Platform} (hs : s.Structural x)
    (hp : s.payload = Doc.utf8 (print compact j)) :
    decodeSnapshot (Doc.utf8 (print compact (Control.snapshotDoc s j))) = some s := by
  obtain ⟨hschema, -, -, hgeneration, hrevision, hissued, hexpires, -⟩ := hs
  unfold maxInteger at hgeneration hrevision
  have hversion : (Doc.num s.schemaVersion).asInt = some s.schemaVersion :=
    asInt_num (by omega)
  have hgen : (Doc.num s.generation).asNat = some s.generation := asNat_num (by omega)
  have hrev : (Doc.num s.revision).asNat = some s.revision := asNat_num (by omega)
  have hiss : (Doc.num s.issuedAt).asInt = some s.issuedAt := asInt_num (by omega)
  have hexp : (Doc.num s.expiresAt).asInt = some s.expiresAt := asInt_num (by omega)
  have hstr : ∀ text, (Doc.str text).asStr = some text := fun _ => rfl
  rw [Control.snapshotDoc, decodeSnapshot, knownFields_print (by simp)]
  simp only [Option.bind_eq_bind, Option.bind_some]
  rw [textField_print rfl hversion, textField_print rfl (hstr s.installation),
    textField_print rfl hgen, textField_print rfl hrev, textField_print rfl hiss,
    textField_print rfl hexp, textField_print rfl (hstr s.kid), lookup_print (j := j) rfl]
  simp only [Option.bind_some, Option.getD_some, ← hp]

theorem decodeEnvelope_print (signature : String) :
    decodeEnvelope (Doc.utf8 (print compact (Control.envelopeDoc j signature))) =
      some ⟨Doc.utf8 (print compact j), signature⟩ := by
  have hstr : (Doc.str signature).asStr = some signature := rfl
  rw [Control.envelopeDoc, decodeEnvelope, knownFields_print (by simp)]
  simp only [Option.bind_eq_bind, Option.bind_some]
  rw [textField_print rfl hstr, lookup_print (j := j) rfl]
  rfl

variable (ed : Ed25519) (hexSha256 : Bytes → String)

theorem jsonValid_print (j : Doc) :
    (goPlatform ed hexSha256).jsonValid (Doc.utf8 (print compact j)) = true := by
  change (parse (readText (Doc.utf8 (print compact j)))).isSome = true
  rw [readText_utf8, parse_print]
  rfl

def signature (key : Bytes) (s : Snapshot) (j : Doc) : String :=
  String.ofList (Base64.encode (ed.sign key (domain ++ Doc.utf8 (print compact
    (Control.snapshotDoc s j)))))

theorem encodeEnvelope_wrap (key : Bytes) :
    (goPlatform ed hexSha256).encodeEnvelope (wrap (goPlatform ed hexSha256) key
      (Doc.utf8 (print compact (Control.snapshotDoc s j)))) =
        some (Doc.utf8 (print compact (Control.envelopeDoc (Control.snapshotDoc s j)
          (signature ed key s j)))) := encodeEnvelope_print _

theorem sign_eq_some {key raw : Bytes} (h : sign (goPlatform ed hexSha256) key s = some raw)
    (hp : s.payload = Doc.utf8 (print compact j)) :
    s.Structural (goPlatform ed hexSha256) ∧
      raw = Doc.utf8 (print compact
        (Control.envelopeDoc (Control.snapshotDoc s j) (signature ed key s j))) ∧
      raw.length ≤ maxSnapshotBytes := by
  have hencode : (goPlatform ed hexSha256).encodeSnapshot s =
      some (Doc.utf8 (print compact (Control.snapshotDoc s j))) := encodeSnapshot_print hp
  unfold sign at h
  split at h
  · cases h
  rename_i hguard
  push Not at hguard
  rw [hencode] at h
  dsimp only at h
  rw [encodeEnvelope_wrap] at h
  dsimp only at h
  split at h
  · cases h
  rename_i hlength
  obtain rfl := Option.some.inj h
  exact ⟨hguard.2, rfl, Nat.not_lt.mp hlength⟩

theorem sign_print {key : Bytes} (hkey : key.length = privateKeySize)
    (hs : s.Structural (goPlatform ed hexSha256)) (hp : s.payload = Doc.utf8 (print compact j))
    (hsize : size compact (Control.envelopeDoc (Control.snapshotDoc s j) (signature ed key s j)) ≤
      maxSnapshotBytes) :
    sign (goPlatform ed hexSha256) key s = some (Doc.utf8 (print compact
      (Control.envelopeDoc (Control.snapshotDoc s j) (signature ed key s j)))) := by
  have hencode : (goPlatform ed hexSha256).encodeSnapshot s =
      some (Doc.utf8 (print compact (Control.snapshotDoc s j))) := encodeSnapshot_print hp
  rw [sign, if_neg (by simp [hkey, hs]), hencode]
  dsimp only
  rw [encodeEnvelope_wrap]
  dsimp only
  rw [if_neg]
  rw [Doc.length_utf8, textSize_print]
  omega

/-- What `Sign` returns is read back, and verified by those who trust its key. -/
theorem verify_signed {key pub raw : Bytes} {p : Params}
    (hsign : sign (goPlatform ed hexSha256) key s = some raw)
    (hp : s.payload = Doc.utf8 (print compact j)) (hpair : ed.Paired key pub)
    (hkey : p.keys.get s.kid = some pub) (hinstallation : s.installation = p.installation)
    (hminimum : p.minimum ≤ s.generation) (hvalid : p.validate s.payload = true) :
    verify (goPlatform ed hexSha256) p raw = some s := by
  obtain ⟨hs, rfl, hlength⟩ := sign_eq_some ed hexSha256 hsign hp
  refine verify_eq_some.mpr ⟨⟨Doc.utf8 (print compact (Control.snapshotDoc s j)),
    signature ed key s j⟩, ⟨?_, hlength⟩, ?_, hs, hinstallation, hminimum, ?_, hvalid⟩
  · rw [Doc.length_utf8, textSize_print, Control.envelopeDoc, size]
    omega
  · have henvelope : strict (goPlatform ed hexSha256).decodeEnvelope
        (goPlatform ed hexSha256).encodeEnvelope _ = some _ :=
      strict_eq_some.mpr ⟨decodeEnvelope_print (j := Control.snapshotDoc s j) (signature ed key s j),
        encodeEnvelope_print (signature ed key s j)⟩
    have hsnapshot : strict (goPlatform ed hexSha256).decodeSnapshot
        (goPlatform ed hexSha256).encodeSnapshot _ = some _ :=
      strict_eq_some.mpr ⟨decodeSnapshot_print hs hp, encodeSnapshot_print hp⟩
    unfold read
    rw [henvelope]
    dsimp only
    rw [hsnapshot]
  · have hdecode : (goPlatform ed hexSha256).decodeBase64 (signature ed key s j) =
        some (ed.sign key (domain ++ Doc.utf8 (print compact (Control.snapshotDoc s j)))) := by
      change Base64.decode (signature ed key s j).toList = _
      rw [signature, String.toList_ofList, Base64.decode_encode]
    have hverify := ed.verify_sign hpair
      (domain ++ Doc.utf8 (print compact (Control.snapshotDoc s j)))
    unfold Params.Verifies
    rw [hdecode, hkey]
    simp only [Option.getD_some, Bool.and_eq_true, decide_eq_true_eq]
    exact ⟨⟨ed.length_public hpair, rfl⟩, hverify⟩

end RoundTrip

section Width

theorem quoteSize_of_plain {t : String} (h : ∀ c ∈ t.toList, textSize (compact.escape c) = 1) :
    quoteSize compact t = t.toList.length + 2 := by
  have hone : t.toList.map (fun c => textSize (compact.escape c)) =
      t.toList.map (fun _ => 1) := List.map_congr_left h
  rw [quoteSize, hone]
  simp

theorem textSize_escape_safe {c : Char} (h : c.isAlphanum ∨ c = '_' ∨ c = '-') :
    textSize (compact.escape c) = 1 := by
  have small : ∀ n < 128, (Char.ofNat n).isAlphanum ∨ Char.ofNat n = '_' ∨ Char.ofNat n = '-' →
      textSize (compact.escape (Char.ofNat n)) = 1 := by decide
  have hlt : c.toNat < 128 := by
    rcases h with h | rfl | rfl
    · simp only [Char.isAlphanum, Char.isAlpha, Char.isUpper, Char.isLower, Char.isDigit,
        Bool.or_eq_true, Bool.and_eq_true, decide_eq_true_eq, UInt32.le_iff_toNat_le] at h
      simp at h
      omega
    · decide
    · decide
  have hc : Char.ofNat c.toNat = c := Char.ofNat_toNat c
  rw [← hc] at h ⊢
  exact small _ hlt h

theorem quoteSize_safe {t : String} (h : Safe t) : quoteSize compact t ≤ 82 := by
  obtain ⟨⟨-, hlength⟩, hchars⟩ := h
  rw [quoteSize_of_plain fun c hc => textSize_escape_safe (hchars c hc)]
  rw [String.length_toList]
  omega

theorem quoteSize_base64 (raw : Bytes) :
    quoteSize compact (String.ofList (Base64.encode raw)) = (4 * raw.length + 2) / 3 + 2 := by
  have hdigit : ∀ n < 64, textSize (compact.escape (Base64.digit n)) = 1 := by decide
  rw [quoteSize_of_plain, String.toList_ofList, Base64.length_encode]
  intro c hc
  rw [String.toList_ofList] at hc
  obtain ⟨n, hn, rfl⟩ := List.mem_map.mp hc
  exact hdigit n (Base64.sextets_lt raw n hn)

theorem size_envelope_le {x : Platform} {s : Snapshot} (hs : s.Structural x) {raw : Bytes}
    (hraw : raw.length = 64) (j : Doc) :
    size compact (Control.envelopeDoc (Control.snapshotDoc s j)
        (String.ofList (Base64.encode raw))) ≤
      size compact (Control.envelopeDoc (Control.snapshotDoc Control.worstSnapshot j)
        (String.ofList (List.replicate 86 's'))) := by
  obtain ⟨hschema, hinstallation, hkid, hgeneration, hrevision, hissued, hexpires, -⟩ := hs
  unfold maxInteger at hgeneration hrevision
  have s₁ := quoteSize_safe hinstallation
  have s₂ := quoteSize_safe hkid
  have s₃ := quoteSize_base64 raw
  have n₁ : textSize (printInt (s.generation : ℤ)) ≤ 16 :=
    textSize_printInt_le (by omega) (by decide) (by omega)
  have n₂ : textSize (printInt (s.revision : ℤ)) ≤ 16 :=
    textSize_printInt_le (by omega) (by decide) (by omega)
  have n₃ : textSize (printInt s.issuedAt) ≤ 12 :=
    textSize_printInt_le (by omega) (by decide) (by omega)
  have n₄ : textSize (printInt s.expiresAt) ≤ 12 :=
    textSize_printInt_le (by omega) (by decide) (by omega)
  have w := Control.size_worstEnvelope j
  have v := Control.size_envelopeDoc s j (String.ofList (Base64.encode raw))
  have hone : textSize (printInt 1) = 1 := by decide
  rw [hschema, hone] at v
  rw [w, v]
  clear hone
  omega

end Width

end WaitingRoom.Trust

namespace WaitingRoom.Control

open Doc

section Budget

theorem size_payload_le (s : Trust.Snapshot) (j : Doc) (signature : String) :
    size compact j ≤ size compact (envelopeDoc (snapshotDoc s j) signature) := by
  simp only [envelopeDoc, snapshotDoc, size, sizeFields]
  omega

variable (ed : Trust.Ed25519) (hexSha256 : Trust.Bytes → String)

/-- The delivery of a configuration within its budget is signed in every snapshot that
`structural` lets through. -/
theorem sign_of_fits {x : Library} {c : Config} (hfits : c.FitsDeliveryBudget) {d : Delivery}
    (hconfig : d.config = { c with revision := d.config.revision }) (hd : d.Valid x)
    {s : Trust.Snapshot} (hs : s.Structural (Trust.goPlatform ed hexSha256))
    (hp : s.payload = d.bytes) {key : Trust.Bytes} (hkey : key.length = Trust.privateKeySize) :
    d.bytes.length ≤ maxConfigBytes ∧
      ∃ raw, Trust.sign (Trust.goPlatform ed hexSha256) key s = some raw := by
  have hworst : d.config.worstDelivery = c.worstDelivery := by
    rw [hconfig]
    rfl
  have hsize := size_delivery_le (.inl rfl) hd
  rw [hworst] at hsize
  refine ⟨?_, _, Trust.sign_print ed hexSha256 hkey hs hp ?_⟩
  · rw [d.length_bytes]
    exact Nat.le_trans hsize hfits.1
  · have hheader := Trust.size_envelope_le hs (ed.length_sign key (Trust.domain ++ Doc.utf8
      (print compact (snapshotDoc s d.toDoc))) hkey) d.toDoc
    have h₁ := size_worstEnvelope d.toDoc
    have h₂ := size_worstEnvelope c.worstDelivery.toDoc
    have h₃ := hfits.2
    unfold Trust.signature
    omega

def sealed (d : Delivery) (installation kid : String) (generation revision : Nat)
    (issuedAt expiresAt : ℤ) : Trust.Snapshot where
  schemaVersion := 1
  installation := installation
  generation := generation
  revision := revision
  issuedAt := issuedAt
  expiresAt := expiresAt
  kid := kid
  payload := d.bytes

/-- A configuration within its budget can be signed with every valid runtime, revision,
name and time. -/
theorem fitting_delivery_signs {x : Library} {c : Config} (hfits : c.FitsDeliveryBudget)
    {d : Delivery} (hconfig : d.config = { c with revision := d.config.revision }) (hd : d.Valid x)
    {installation kid : String} (hinstallation : Trust.Safe installation) (hkid : Trust.Safe kid)
    {generation revision : Nat} (hgeneration : 0 < generation ∧ generation ≤ Trust.maxInteger)
    (hrevision : revision ≤ Trust.maxInteger) {issuedAt expiresAt : ℤ}
    (hissued : 0 < issuedAt ∧ issuedAt ≤ 253402214399)
    (hexpires : issuedAt < expiresAt ∧ expiresAt - issuedAt ≤ 86400) {key : Trust.Bytes}
    (hkey : key.length = Trust.privateKeySize) :
    d.bytes.length ≤ maxConfigBytes ∧
      ∃ raw, Trust.sign (Trust.goPlatform ed hexSha256) key
        (sealed d installation kid generation revision issuedAt expiresAt) = some raw := by
  have hs : (sealed d installation kid generation revision issuedAt expiresAt).Structural
      (Trust.goPlatform ed hexSha256) :=
    ⟨rfl, hinstallation, hkid, hgeneration, hrevision, hissued, hexpires, d.one_lt_length_bytes,
      d.head_bytes, Trust.jsonValid_print ed hexSha256 d.toDoc⟩
  exact sign_of_fits ed hexSha256 hfits hconfig hd hs rfl hkey

def sampleEd : Trust.Ed25519 where
  sign := fun _ _ => List.replicate 64 0
  verify := fun _ _ _ => true
  Paired := fun _ pub => pub.length = Trust.publicKeySize
  length_sign := fun _ _ _ => rfl
  length_public := fun h => h
  verify_sign := fun _ _ => rfl

def shopHeld : Delivery where
  config := { shopConfig with revision := 9007199254740989 }
  runtimes := [⟨"shop", { initialRuntime sampleRoom with
    revision := 9007199254740989, mode := .recoveryHold, epoch := 9007199254740989,
    recoveryUntil := 9007199254740989 }⟩]

theorem shopHeld_signs : shopConfig.FitsDeliveryBudget ∧ shopHeld.Valid sampleLibrary ∧
    (shopHeld.bytes.length ≤ maxConfigBytes ∧
      ∃ raw, Trust.sign (Trust.goPlatform sampleEd fun _ => "") (List.replicate 64 0)
        (sealed shopHeld "shop-1" "key-1" 9007199254740991 9007199254740989 253402214399
          253402300799) = some raw) := by
  have hvalid : shopHeld.Valid sampleLibrary := by decide
  exact ⟨shopConfig_fits, hvalid, fitting_delivery_signs sampleEd (fun _ => "") shopConfig_fits rfl
    hvalid (by decide) (by decide) (by decide) (by decide) (by decide) (by decide) (by decide)⟩

end Budget

end WaitingRoom.Control
