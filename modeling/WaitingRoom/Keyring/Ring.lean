import WaitingRoom.Admission.Token
import WaitingRoom.Queue.Validate
import WaitingRoom.Shared.Base64
import WaitingRoom.Shared.Runes

/-!
# Key rings

A deployment seals join replays, return envelopes and browser intents with the
current key of its ring, and names the key in front of the sealed text. A text
without a name is one of the time before the first ring, when the only key was
`v1`. The cipher is a parameter: what it encrypts it decrypts, 16 bytes longer.
-/

namespace WaitingRoom.Keyring

set_option autoImplicit false

open Admission (Codec KeySet)

abbrev Bytes := List UInt8

/-- AES-256-GCM with keys of the right size. The additional data is always a text. -/
structure Aead where
  Secret : Type
  encrypt : Secret → (nonce plain : Bytes) → (aad : String) → Bytes
  decrypt : Secret → (nonce data : Bytes) → (aad : String) → Option Bytes
  decrypt_encrypt : ∀ secret nonce plain aad,
    decrypt secret nonce (encrypt secret nonce plain aad) aad = some plain
  length_encrypt : ∀ secret nonce plain aad,
    (encrypt secret nonce plain aad).length = plain.length + 16

inductive Purpose
  | replay
  | returning
  | browserJoin
deriving DecidableEq, Repr

def Purpose.text : Purpose → String
  | .replay => "replay"
  | .returning => "return"
  | .browserJoin => "browser-join"

variable {x : Codec} {a : Aead}

/-- `keyring.Key`. A role holds only its own secrets, and uses no others. -/
structure Key (x : Codec) (a : Aead) extends Admission.Key x where
  replaySecret : a.Secret
  returnSecret : a.Secret

def Key.secret (k : Key x a) : Purpose → a.Secret
  | .replay => k.replaySecret
  | .returning => k.returnSecret
  | .browserJoin => k.returnSecret

/-- The phase of a rotation; `legacy` is the empty phase before the first one. -/
inductive Phase
  | legacy
  | stable
  | staged
  | active
deriving DecidableEq, Repr

/-- `keyring.Set`. -/
structure KeyRing (x : Codec) (a : Aead) where
  generation : Nat
  phase : Phase
  current : Key x a
  previous : Option (Key x a) := none
  next : Option (Key x a) := none

namespace KeyRing

def keys (s : KeyRing x a) : List (Key x a) :=
  s.current :: (s.previous.toList ++ s.next.toList)

def find (s : KeyRing x a) (id : String) : Option (Key x a) := s.keys.find? fun k => k.id = id

/-- The keys of a ring have different ids, none of which contains a dot. -/
structure WellFormed (s : KeyRing x a) : Prop where
  ids : (s.keys.map fun k => k.id).Nodup
  plain : ∀ k ∈ s.keys, '.' ∉ k.id.toList

theorem find_mem {s : KeyRing x a} (h : s.WellFormed) {k : Key x a} (hk : k ∈ s.keys) :
    s.find k.id = some k := by
  cases hfind : s.find k.id with
  | none =>
    have hnone := List.find?_eq_none.mp hfind k hk
    exact absurd (decide_eq_true rfl) hnone
  | some k' =>
    have hid : k'.id = k.id := by simpa using List.find?_some hfind
    have hmem : k' ∈ s.keys := List.mem_of_find?_eq_some hfind
    rw [List.inj_on_of_nodup_map h.ids hmem hk hid]

end KeyRing

section Seal

/-- The additional data of a sealed text that names its key. -/
def bound (p : Purpose) (id aad : String) : String := "wr-" ++ p.text ++ "/v2/" ++ id ++ "/" ++ aad

def sealBytes (secret : a.Secret) (nonce plain : Bytes) (aad : String) : List Char :=
  Base64.encode (nonce ++ a.encrypt secret nonce plain aad)

/-- `keyring.Seal`, with the nonce that it draws. -/
def Key.sealText (k : Key x a) (p : Purpose) (nonce plain : Bytes) (aad : String) : String :=
  String.ofList (k.id.toList ++ '.' :: sealBytes (k.secret p) nonce plain (bound p k.id aad))

def openBytes (secret : a.Secret) (encoded : List Char) (aad : String) : Option Bytes :=
  match Base64.decode encoded with
  | none => none
  | some data =>
    if data.length < 28 then none else a.decrypt secret (data.take 12) (data.drop 12) aad

/-- `strings.Cut` at the first dot. -/
def cut : List Char → Option (List Char × List Char)
  | [] => none
  | c :: cs => if c = '.' then some ([], cs) else (cut cs).map fun p => (c :: p.1, p.2)

/-- `Set.Open`. -/
def KeyRing.openText (s : KeyRing x a) (p : Purpose) (text : String) (aad legacyAAD : String) :
    Option Bytes :=
  if 8192 < text.utf8ByteSize then none
  else
    match cut text.toList with
    | none => (s.find "v1").bind fun k => openBytes (k.secret p) text.toList legacyAAD
    | some (id, encoded) =>
      (s.find (String.ofList id)).bind fun k =>
        openBytes (k.secret p) encoded (bound p (String.ofList id) aad)

variable {secret : a.Secret} {nonce plain : Bytes} {aad legacyAAD : String} {p : Purpose}

theorem length_sealBytes (hn : nonce.length = 12) :
    (sealBytes secret nonce plain aad).length = (4 * (plain.length + 28) + 2) / 3 := by
  rw [sealBytes, Base64.length_encode, List.length_append, hn, a.length_encrypt]
  congr 1
  omega

theorem openBytes_sealBytes (hn : nonce.length = 12) (secret' : a.Secret) (aad' : String) :
    openBytes secret' (sealBytes secret nonce plain aad) aad' =
      a.decrypt secret' nonce (a.encrypt secret nonce plain aad) aad' := by
  have hlength : ¬ (nonce ++ a.encrypt secret nonce plain aad).length < 28 := by
    rw [List.length_append, hn, a.length_encrypt]
    omega
  rw [openBytes, sealBytes, Base64.decode_encode]
  dsimp only
  rw [if_neg hlength, List.take_left' hn, List.drop_left' hn]

theorem cut_of_plain {front rest : List Char} (h : '.' ∉ front) :
    cut (front ++ '.' :: rest) = some (front, rest) := by
  induction front with
  | nil => simp [cut]
  | cons c front ih =>
    obtain ⟨hc, hfront⟩ := not_or.mp (mt List.mem_cons.mpr h)
    rw [List.cons_append, cut, if_neg (Ne.symm hc), ih hfront, Option.map_some]

theorem cut_of_unnamed {text : List Char} (h : '.' ∉ text) : cut text = none := by
  induction text with
  | nil => rfl
  | cons c text ih =>
    obtain ⟨hc, htext⟩ := not_or.mp (mt List.mem_cons.mpr h)
    rw [cut, if_neg (Ne.symm hc), ih htext, Option.map_none]

theorem dot_notMem_sealBytes : '.' ∉ sealBytes secret nonce plain aad :=
  fun h => (Base64.encode_plain h).2.1 rfl

theorem utf8ByteSize_ofList (cs : List Char) : (String.ofList cs).utf8ByteSize = Doc.textSize cs := by
  rw [String.utf8ByteSize_ofList]
  induction cs with
  | nil => rfl
  | cons c cs ih =>
    rw [Doc.textSize_cons, ← ih]
    simp only [String.utf8Len_cons]
    omega

theorem textSize_sealBytes :
    Doc.textSize (sealBytes secret nonce plain aad) =
      (sealBytes secret nonce plain aad).length := by
  have plain : ∀ cs : List Char, (∀ c ∈ cs, c.utf8Size = 1) → Doc.textSize cs = cs.length := by
    intro cs hcs
    induction cs with
    | nil => rfl
    | cons c cs ih =>
      obtain ⟨hc, hcs⟩ := List.forall_mem_cons.mp hcs
      rw [Doc.textSize_cons, hc, ih hcs, List.length_cons]
      omega
  exact plain _ fun c hc => (Base64.encode_plain hc).1

theorem size_sealText (k : Key x a) (hn : nonce.length = 12) :
    (k.sealText p nonce plain aad).utf8ByteSize =
      Doc.textSize k.id.toList + 1 + (4 * (plain.length + 28) + 2) / 3 := by
  have hdot : ('.').utf8Size = 1 := by decide
  rw [Key.sealText, utf8ByteSize_ofList, Doc.textSize_append, Doc.textSize_cons, hdot,
    textSize_sealBytes, length_sealBytes hn]
  omega

theorem KeyRing.openText_sealText {s : KeyRing x a} (h : s.WellFormed) {k : Key x a}
    (hk : k ∈ s.keys) (hn : nonce.length = 12)
    (fits : (k.sealText p nonce plain aad).utf8ByteSize ≤ 8192) (aad' : String) :
    s.openText p (k.sealText p nonce plain aad) aad' legacyAAD =
      a.decrypt (k.secret p) nonce (a.encrypt (k.secret p) nonce plain (bound p k.id aad))
        (bound p k.id aad') := by
  rw [openText, if_neg (Nat.not_lt.mpr fits), Key.sealText, String.toList_ofList,
    cut_of_plain (h.plain k hk)]
  dsimp only
  rw [String.ofList_toList, find_mem h hk, Option.bind_some, openBytes_sealBytes hn]

theorem KeyRing.decrypt_of_openText {s : KeyRing x a} {k : Key x a} (named : '.' ∉ k.id.toList)
    (hn : nonce.length = 12) {aad' : String} {out : Bytes}
    (h : s.openText p (k.sealText p nonce plain aad) aad' legacyAAD = some out) :
    ∃ secret', a.decrypt secret' nonce (a.encrypt (k.secret p) nonce plain (bound p k.id aad))
      (bound p k.id aad') = some out := by
  rw [openText] at h
  split at h
  · exact absurd h (by simp)
  · rw [Key.sealText, String.toList_ofList, cut_of_plain named] at h
    dsimp only at h
    rw [String.ofList_toList] at h
    obtain ⟨k', -, hopen⟩ := Option.bind_eq_some_iff.mp h
    rw [openBytes_sealBytes hn] at hopen
    exact ⟨k'.secret p, hopen⟩

end Seal

/-- `idPattern`. -/
def KeyName (id : String) : Prop :=
  id = "v1" ∨ (id.toList.length = 32 ∧ id.toList.all Queue.hexDigit = true)
  deriving Decidable

end WaitingRoom.Keyring
