import WaitingRoom.Shared.Json
import WaitingRoom.Control.Config

/-!
# Exact decoding

`DecodeExact` walks the tokens of a document along the type it is decoded into, and
leaves the decoding itself to `Unmarshal`, which alone would take much more. A document
that the walk accepts has in each object the required keys and no unknown one, none
twice, and no `null`. What was accepted can be written and is accepted again, as the
same value.
-/

namespace WaitingRoom.Control

open Json

set_option autoImplicit false

section Shape

variable (x : Encoding)

def closing (close : Token) : List Token → Option (List Token)
  | [] => none
  | token :: rest => if token = close then some rest else none

def walkItems (walk : List Token → Option (List Token)) : Nat → List Token → Option (List Token)
  | 0, _ => none
  | n + 1, tokens =>
    if more tokens then (walk tokens).bind (walkItems walk n) else closing .bracketClose tokens

def keyOf : List Token → Option (String × List Token)
  | .str key :: rest => some (key, rest)
  | _ => none

def walkFields (walk : Ty → List Token → Option (List Token)) (fields : Fields) :
    Nat → List String → List Token → Option (List Token)
  | 0, _, _ => none
  | n + 1, seen, tokens =>
    if more tokens then
      match keyOf tokens with
      | none => none
      | some (key, rest) =>
        match fields.find key with
        | none => none
        | some f =>
          if key ∈ seen then none
          else (walk f.ty rest).bind (walkFields walk fields n (key :: seen))
    else
      (closing .braceClose tokens).bind fun rest =>
        if ∀ f ∈ fields.list, f.optional = false → f.key ∈ seen then some rest else none

/-- The part of `shape` behind its first token, for a type that is no pointer. -/
def shapeToken (walk : Ty → List Token → Option (List Token)) (ty : Ty) (token : Token)
    (rest : List Token) : Option (List Token) :=
  match ty, token with
  | .time, .str s => if x.parseTime s then some rest else none
  | .struct fields, .braceOpen =>
    if ∃ f ∈ fields.list, f.key = "" ∨ f.key = "-" then none
    else walkFields walk fields rest.length [] rest
  | .slice elem, .bracketOpen => walkItems (walk elem) rest.length rest
  | .str, .str _ => some rest
  | .bool, .bool _ => some rest
  | .int, .num n | .uint, .num n => if x.finite n then some rest else none
  | _, _ => none

/-- `shape` reads a token, which must not be `null`. -/
def readToken (next : Token → List Token → Option (List Token)) :
    List Token → Option (List Token)
  | [] => none
  | token :: rest => if token = .null then none else next token rest

/-- `shape`: what is left of the tokens if the first of them are a value of the type. The
number is how many levels may still be entered. -/
def shape : Nat → Ty → List Token → Option (List Token)
  | 0, _, _ => none
  | depth + 1, ty, tokens => readToken (shapeToken x (shape depth) ty.elem) tokens

/-- `DecodeExact` into a new value of the type. -/
def decodeInto (ty : Ty) (raw : List UInt8) : Option (Value x.Time) :=
  if raw = [] ∨ maxConfigBytes < raw.length ∨ Doc.utf8 (Doc.readText raw) ≠ raw then none
  else
    match shape x 17 ty (x.stream raw).1 with
    | none => none
    | some rest =>
      if rest ≠ [] ∨ (x.stream raw).2 = false then none
      else (x.parse raw).bind (unmarshal x ty (zero x ty))

end Shape

section Conforms

variable {x : Encoding}

/-- A document of a type that is no pointer, if `conforms` says so of what is below it:
in an object every required key, only keys that are tags, and none of them twice. -/
def ConformsTop (x : Encoding) (conforms : Ty → Json → Prop) (ty : Ty) (v : Json) : Prop :=
  match ty, v with
  | .time, .str s => x.parseTime s = true
  | .struct fields, .obj fs =>
    (fs.map Prod.fst).Nodup ∧
      (∀ p ∈ fs, ∃ f ∈ fields.list, f.key = p.1 ∧ conforms f.ty p.2) ∧
      ∀ f ∈ fields.list, f.optional = false → f.key ∈ fs.map Prod.fst
  | .slice elem, .arr vs => ∀ v ∈ vs, conforms elem v
  | .str, .str _ | .bool, .bool _ => True
  | .int, .num n | .uint, .num n => x.finite n = true
  | _, _ => False

/-- A document of the type, at most so many levels deep. -/
def Conforms (x : Encoding) : Nat → Ty → Json → Prop
  | 0, _, _ => False
  | depth + 1, ty, v => ConformsTop x (Conforms x depth) ty.elem v

variable {P : Json → Prop} {Q : Ty → Json → Prop}

theorem walkItems_iff {walk : List Token → Option (List Token)}
    (hwalk : ∀ v rest r, walk (v.tokens ++ rest) = some r ↔ r = rest ∧ P v) (vs : List Json)
    (rest r : List Token) {n : Nat} (hn : vs.length < n) :
    walkItems walk n (tokensItems vs ++ .bracketClose :: rest) = some r ↔
      r = rest ∧ ∀ v ∈ vs, P v := by
  induction vs generalizing n with
  | nil =>
    obtain ⟨n, rfl⟩ := Nat.exists_eq_succ_of_ne_zero hn.ne_bot
    simp [walkItems, tokensItems, more, closing, eq_comm]
  | cons v vs ih =>
    obtain ⟨n, rfl⟩ := Nat.exists_eq_succ_of_ne_zero (Nat.ne_zero_of_lt hn)
    rw [walkItems, tokensItems, List.append_assoc, if_pos (more_tokens v _), Option.bind_eq_some_iff]
    constructor
    · rintro ⟨m, hm, hr⟩
      obtain ⟨rfl, hv⟩ := (hwalk _ _ _).mp hm
      obtain ⟨rfl, hvs⟩ := (ih (Nat.lt_of_succ_lt_succ hn)).mp hr
      exact ⟨rfl, List.forall_mem_cons.mpr ⟨hv, hvs⟩⟩
    · rintro ⟨rfl, hall⟩
      obtain ⟨hv, hvs⟩ := List.forall_mem_cons.mp hall
      exact ⟨_, (hwalk _ _ _).mpr ⟨rfl, hv⟩, (ih (Nat.lt_of_succ_lt_succ hn)).mpr ⟨rfl, hvs⟩⟩

structure Keyed (Q : Ty → Json → Prop) (fields : Fields) (seen : List String)
    (fs : List (String × Json)) : Prop where
  once : (fs.map Prod.fst).Nodup
  fresh : ∀ k ∈ fs.map Prod.fst, k ∉ seen
  known : ∀ p ∈ fs, ∃ f ∈ fields.list, f.key = p.1 ∧ Q f.ty p.2
  required : ∀ f ∈ fields.list, f.optional = false → f.key ∈ seen ∨ f.key ∈ fs.map Prod.fst

theorem keyed_cons {fields : Fields} (nodup : (fields.list.map Field.key).Nodup)
    {seen : List String} {fs : List (String × Json)} {f : Field} (hf : f ∈ fields.list) (v : Json) :
    Keyed Q fields seen ((f.key, v) :: fs) ↔
      f.key ∉ seen ∧ Q f.ty v ∧ Keyed Q fields (f.key :: seen) fs := by
  constructor
  · intro h
    have once := h.once
    have fresh := h.fresh
    have known := h.known
    rw [List.map_cons, List.nodup_cons] at once
    rw [List.map_cons, List.forall_mem_cons] at fresh
    rw [List.forall_mem_cons] at known
    obtain ⟨⟨g, hg, hk, hq⟩, known⟩ := known
    obtain rfl := Fields.eq_of_key nodup hg hf hk
    refine ⟨fresh.1, hq, once.2, fun k hk => ?_, known, fun a ha ho => ?_⟩
    · refine List.not_mem_cons_of_ne_of_not_mem ?_ (fresh.2 k hk)
      rintro rfl
      exact once.1 hk
    · rcases h.required a ha ho with hs | hs
      · exact .inl (List.mem_cons_of_mem _ hs)
      · rcases List.mem_cons.mp hs with heq | hs
        · exact .inl (heq ▸ List.mem_cons_self)
        · exact .inr hs
  · rintro ⟨hfresh, hq, h⟩
    refine ⟨?_, ?_, ?_, fun a ha ho => ?_⟩
    · rw [List.map_cons, List.nodup_cons]
      exact ⟨fun hm => h.fresh _ hm List.mem_cons_self, h.once⟩
    · rw [List.map_cons, List.forall_mem_cons]
      exact ⟨hfresh, fun k hk hs => h.fresh k hk (List.mem_cons_of_mem _ hs)⟩
    · rw [List.forall_mem_cons]
      exact ⟨⟨f, hf, rfl, hq⟩, h.known⟩
    · rcases h.required a ha ho with hs | hs
      · rcases List.mem_cons.mp hs with heq | hs
        · exact .inr (heq ▸ List.mem_cons_self)
        · exact .inl hs
      · exact .inr (List.mem_cons_of_mem _ hs)

theorem walkFields_iff {walk : Ty → List Token → Option (List Token)} {fields : Fields}
    (nodup : (fields.list.map Field.key).Nodup)
    (hwalk : ∀ f ∈ fields.list, ∀ v rest r,
      walk f.ty (v.tokens ++ rest) = some r ↔ r = rest ∧ Q f.ty v)
    (fs : List (String × Json)) (seen : List String) (rest r : List Token) {n : Nat}
    (hn : fs.length < n) :
    walkFields walk fields n seen (tokensFields fs ++ .braceClose :: rest) = some r ↔
      r = rest ∧ Keyed Q fields seen fs := by
  induction fs generalizing n seen with
  | nil =>
    obtain ⟨n, rfl⟩ := Nat.exists_eq_succ_of_ne_zero (Nat.ne_zero_of_lt hn)
    have hclose : closing .braceClose (.braceClose :: rest) = some rest := by
      rw [closing, if_pos rfl]
    rw [walkFields, tokensFields, List.nil_append, if_neg (by exact Bool.false_ne_true), hclose,
      Option.bind_some]
    constructor
    · intro h
      split at h
      · rename_i hreq
        exact ⟨(Option.some.inj h).symm, List.nodup_nil, fun _ hp => absurd hp List.not_mem_nil,
          fun _ hp => absurd hp List.not_mem_nil, fun f hf ho => .inl (hreq f hf ho)⟩
      · cases h
    · rintro ⟨rfl, h⟩
      rw [if_pos fun f hf ho => (h.required f hf ho).resolve_right List.not_mem_nil]
  | cons p fs ih =>
    obtain ⟨key, v⟩ := p
    obtain ⟨n, rfl⟩ := Nat.exists_eq_succ_of_ne_zero (Nat.ne_zero_of_lt hn)
    rw [walkFields, tokensFields, List.cons_append, if_pos (by rfl), keyOf]
    dsimp only
    cases hfind : fields.find key with
    | none =>
      constructor
      · intro h
        cases h
      · rintro ⟨-, h⟩
        obtain ⟨f, hf, hk, -⟩ := h.known (key, v) List.mem_cons_self
        have hsome := Fields.find_key nodup hf
        rw [show f.key = key from hk, hfind] at hsome
        cases hsome
    | some f =>
      obtain ⟨hf, rfl⟩ := Fields.find_eq_some hfind
      rw [keyed_cons nodup hf]
      dsimp only
      by_cases hseen : f.key ∈ seen
      · rw [if_pos hseen]
        constructor
        · intro h
          cases h
        · rintro ⟨-, hfresh, -⟩
          exact absurd hseen hfresh
      · rw [if_neg hseen, List.append_assoc, Option.bind_eq_some_iff]
        constructor
        · rintro ⟨m, hm, hr⟩
          obtain ⟨rfl, hq⟩ := (hwalk f hf _ _ _).mp hm
          obtain ⟨rfl, h⟩ := (ih _ (Nat.lt_of_succ_lt_succ hn)).mp hr
          exact ⟨rfl, hseen, hq, h⟩
        · rintro ⟨rfl, -, hq, h⟩
          exact ⟨_, (hwalk f hf _ _ _).mpr ⟨rfl, hq⟩, (ih _ (Nat.lt_of_succ_lt_succ hn)).mpr ⟨rfl, h⟩⟩

theorem tag_ne {fields : Fields} (proper : ∀ f ∈ fields.list, f.Proper) :
    ¬∃ f ∈ fields.list, f.key = "" ∨ f.key = "-" := by
  rintro ⟨f, hf, hk | hk⟩
  · exact (proper f hf).tag.1 hk
  · have hall := (proper f hf).tag.2 '-'
    rw [hk] at hall
    exact absurd (hall (by decide)) (by decide)

theorem shapeToken_iff {walk : Ty → List Token → Option (List Token)}
    (hwalk : ∀ ty, ty.proper = true → ∀ v rest r,
      walk ty (v.tokens ++ rest) = some r ↔ r = rest ∧ Q ty v)
    {ty : Ty} (proper : ty.proper = true) (v : Json) (rest r : List Token) :
    readToken (shapeToken x walk ty) (v.tokens ++ rest) = some r ↔
      r = rest ∧ ConformsTop x Q ty v := by
  have taken : some rest = some r ↔ r = rest ∧ True := by
    rw [Option.some_inj, eq_comm, and_true]
  have guarded : ∀ b : Bool, (if b = true then some rest else none) = some r ↔ r = rest ∧ b = true := by
    intro b
    cases b
    · simp
    · exact ⟨fun h => ⟨(Option.some.inj h).symm, rfl⟩, fun h => h.1 ▸ rfl⟩
  have refused : (none : Option (List Token)) = some r ↔ r = rest ∧ False := by simp
  cases v with
  | null =>
    cases ty <;> exact refused
  | bool b =>
    cases ty with
    | bool => exact taken
    | _ => exact refused
  | num n =>
    cases ty with
    | int => exact guarded _
    | uint => exact guarded _
    | _ => exact refused
  | str s =>
    cases ty with
    | str => exact taken
    | time => exact guarded _
    | _ => exact refused
  | arr vs =>
    rw [tokens, List.cons_append, List.append_assoc, List.singleton_append, readToken,
      if_neg (by simp)]
    cases ty with
    | slice elem =>
      have hlength : vs.length < (tokensItems vs ++ Token.bracketClose :: rest).length := by
        have := length_le_tokensItems vs
        rw [List.length_append, List.length_cons]
        omega
      exact walkItems_iff (hwalk elem proper) vs rest r hlength
    | _ => exact refused
  | obj fs =>
    rw [tokens, List.cons_append, List.append_assoc, List.singleton_append, readToken,
      if_neg (by simp)]
    cases ty with
    | struct fields =>
      obtain ⟨nodup, hfields⟩ := Ty.proper_struct proper
      have hlength : fs.length < (tokensFields fs ++ Token.braceClose :: rest).length := by
        have := length_le_tokensFields fs
        rw [List.length_append, List.length_cons]
        omega
      rw [shapeToken, if_neg (tag_ne hfields),
        walkFields_iff nodup (fun f hf => hwalk f.ty (hfields f hf).type) fs [] rest r hlength]
      refine and_congr_right fun _ => ⟨fun h => ⟨h.once, h.known, fun f hf ho => ?_⟩, fun h => ?_⟩
      · exact (h.required f hf ho).resolve_left List.not_mem_nil
      · exact ⟨h.1, fun _ _ => List.not_mem_nil, h.2.1, fun f hf ho => .inr (h.2.2 f hf ho)⟩
    | _ => exact refused

theorem shape_iff (depth : Nat) {ty : Ty} (proper : ty.proper = true) (v : Json)
    (rest r : List Token) :
    shape x depth ty (v.tokens ++ rest) = some r ↔ r = rest ∧ Conforms x depth ty v := by
  induction depth generalizing ty v rest r with
  | zero => simp [shape, Conforms]
  | succ depth ih =>
    rw [shape, Conforms]
    exact shapeToken_iff (fun ty hty v rest r => ih hty v rest r) (Ty.proper_elem proper) v rest r

end Conforms

section Again

variable {x : Encoding} {Q : Ty → Json → Prop}

/-- A value whose document conforms, is decoded to it, and has a text. -/
structure Again (Q : Ty → Json → Prop) (ty : Ty) (y : Value x.Time) : Prop where
  conforms : Q ty (encode x ty y)
  decodes : unmarshal x ty (zero x ty) (encode x ty y) = some y
  plain : (encode x ty y).Plain

/-- The values of type `ty` that are decoded from a document can be decoded again. -/
def Stable (Q : Ty → Json → Prop) (ty : Ty) : Prop :=
  ∀ (v : Json) (y : Value x.Time), Q ty v → unmarshal x ty (zero x ty) v = some y → Again Q ty y

theorem conformsTop_ne_null {ty : Ty} {v : Json} (h : ConformsTop x Q ty v) : v ≠ .null := by
  rintro rfl
  cases ty <;> exact h

theorem plain_of_token {v : Json} {t : Token} (hv : v.tokens = [t]) (ht : t.Plain) : v.Plain := by
  intro t' ht'
  rw [hv, List.mem_singleton] at ht'
  exact ht' ▸ ht

theorem again_slice {elem : Ty} (stable : Stable (x := x) Q elem) {vs : List Json}
    (h : ∀ v ∈ vs, Q elem v) {y : Value x.Time}
    (hy : unmarshal x (.slice elem) (zero x (.slice elem)) (.arr vs) = some y) :
    Again (ConformsTop x Q) (.slice elem) y := by
  obtain ⟨ys, hys, rfl⟩ := Option.map_eq_some_iff.mp hy
  have hall : List.Forall₂ (fun v y => unmarshal x elem (zero x elem) v = some y) vs ys :=
    unmarshalItems_iff.mp hys
  have again : ∀ y ∈ ys, Again Q elem y := by
    intro y hy
    obtain ⟨i, hi, rfl⟩ := List.mem_iff_getElem.mp hy
    have hlen := hall.length_eq
    exact stable vs[i] ys[i] (h _ (List.getElem_mem _)) (hall.get (hlen ▸ hi) hi)
  refine ⟨?_, ?_, ?_⟩
  · rintro w hw
    obtain ⟨y, hy, rfl⟩ := List.mem_map.mp hw
    exact (again y hy).conforms
  · refine Option.map_eq_some_iff.mpr ⟨ys, unmarshalItems_iff.mpr ?_, rfl⟩
    rw [List.forall₂_map_left_iff, List.forall₂_same]
    exact fun y hy => (again y hy).decodes
  · refine plain_items.mpr fun w hw => ?_
    obtain ⟨y, hy, rfl⟩ := List.mem_map.mp hw
    exact (again y hy).plain

variable {fields : Fields}

theorem field_again (nodup : (fields.list.map Field.key).Nodup)
    (proper : ∀ f ∈ fields.list, f.Proper) (stable : ∀ f ∈ fields.list, Stable (x := x) Q f.ty)
    (hnull : ∀ ty, ¬Q ty .null) {fs : List (String × Json)}
    (h : ConformsTop x Q (.struct fields) (.obj fs)) {g : Field → Value x.Time}
    (hd : Decoded fields (fun f => zero x f.ty) fs g) {f : Field} (hf : f ∈ fields.list) :
    (entry (fields.list.map fun f => (f.key, g f)) f = none ∧ f.optional = true ∧
      g f = zero x f.ty) ∨
    (entry (fields.list.map fun f => (f.key, g f)) f = some (f.key, encode x f.ty (g f)) ∧
      Again Q f.ty (g f)) := by
  obtain ⟨-, known, required⟩ := h
  have hstands := hd f hf
  have homits := (proper f hf).omits
  rw [entry, lookup_map_key nodup g hf, Option.bind_some]
  unfold Stands at hstands
  cases hl : fs.lookup f.key with
  | none =>
    rw [hl] at hstands
    have hopt : f.optional = true := by
      by_contra hno
      have hmem := required f hf (Bool.eq_false_of_not_eq_true hno)
      obtain ⟨p, hp, hk⟩ := List.mem_map.mp hmem
      have := List.lookup_eq_none_iff.mp hl p hp
      rw [hk] at this
      simp at this
    have hz : g f = zero x f.ty := hstands
    rw [hz, if_pos ⟨hopt, empty_zero (homits hopt)⟩]
    exact .inl ⟨rfl, hopt, rfl⟩
  | some v =>
    rw [hl] at hstands
    have hmem : (f.key, v) ∈ fs := mem_of_lookup hl
    obtain ⟨f', hf', hk, hq⟩ := known _ hmem
    obtain rfl := Fields.eq_of_key nodup hf' hf hk
    have again := stable f' hf v (g f') hq hstands
    by_cases hskip : f'.optional = true ∧ (g f').empty = true
    · rw [if_pos hskip]
      refine .inl ⟨rfl, hskip.1, eq_zero_of_empty (homits hskip.1) ?_ hstands hskip.2⟩
      rintro rfl
      exact hnull _ hq
    · rw [if_neg hskip]
      exact .inr ⟨rfl, again⟩

theorem entry_key {vs : List (String × Value x.Time)} {f : Field} {p : String × Json}
    (h : entry vs f = some p) : p.1 = f.key := by
  obtain ⟨v, -, hv⟩ := Option.bind_eq_some_iff.mp h
  split at hv
  · cases hv
  · obtain rfl := Option.some.inj hv
    rfl

theorem keys_filterMap_sublist {l : List Field} {h : Field → Option (String × Json)}
    (key : ∀ f p, h f = some p → p.1 = f.key) :
    ((l.filterMap h).map Prod.fst).Sublist (l.map Field.key) := by
  induction l with
  | nil => exact .slnil
  | cons f l ih =>
    rw [List.filterMap_cons, List.map_cons]
    cases hp : h f with
    | none => exact .cons _ ih
    | some p =>
      dsimp only
      rw [List.map_cons, key f p hp]
      exact .cons_cons _ ih

theorem again_struct (nodup : (fields.list.map Field.key).Nodup)
    (proper : ∀ f ∈ fields.list, f.Proper) (stable : ∀ f ∈ fields.list, Stable (x := x) Q f.ty)
    (hnull : ∀ ty, ¬Q ty .null) {fs : List (String × Json)}
    (h : ConformsTop x Q (.struct fields) (.obj fs)) {y : Value x.Time}
    (hy : unmarshal x (.struct fields) (zero x (.struct fields)) (.obj fs) = some y) :
    Again (ConformsTop x Q) (.struct fields) y := by
  obtain ⟨vs, hvs, rfl⟩ := Option.map_eq_some_iff.mp hy
  have hvs : unmarshalFields x fields (zeroFields x fields) fs = some vs := hvs
  have hknown : ∀ p ∈ fs, ∃ f ∈ fields.list, f.key = p.1 := fun p hp => by
    obtain ⟨f, hf, hk, -⟩ := h.2.1 p hp
    exact ⟨f, hf, hk⟩
  rw [zeroFields_eq, unmarshalFields_iff nodup h.1 hknown] at hvs
  obtain ⟨g, hd, rfl⟩ := hvs
  have hfield := fun f (hf : f ∈ fields.list) => field_again nodup proper stable hnull h hd hf
  have henc : encode x (.struct fields) (.wrap (.struct fields)
      (.struct (fields.list.map fun f => (f.key, g f)))) =
        .obj (fields.list.filterMap (entry (fields.list.map fun f => (f.key, g f)))) := by
    rw [← encodeFields_eq]
    rfl
  -- the entries are those of the fields that are written
  have hentry : ∀ p ∈ fields.list.filterMap (entry (fields.list.map fun f => (f.key, g f))),
      ∃ f ∈ fields.list, p = (f.key, encode x f.ty (g f)) ∧ Again Q f.ty (g f) := by
    intro p hp
    obtain ⟨f, hf, hfp⟩ := List.mem_filterMap.mp hp
    rcases hfield f hf with ⟨hnone, -⟩ | ⟨hsome, again⟩
    · rw [hnone] at hfp
      cases hfp
    · rw [hsome] at hfp
      exact ⟨f, hf, (Option.some.inj hfp).symm, again⟩
  have honce : ((fields.list.filterMap (entry (fields.list.map fun f => (f.key, g f)))).map
      Prod.fst).Nodup := nodup.sublist (keys_filterMap_sublist fun _ _ => entry_key)
  refine ⟨?_, ?_, ?_⟩
  · rw [henc]
    refine ⟨honce, fun p hp => ?_, fun f hf ho => ?_⟩
    · obtain ⟨f, hf, rfl, again⟩ := hentry p hp
      exact ⟨f, hf, rfl, again.conforms⟩
    · rcases hfield f hf with ⟨-, hopt, -⟩ | ⟨hsome, -⟩
      · rw [hopt] at ho
        cases ho
      · exact List.mem_map.mpr ⟨_, List.mem_filterMap.mpr ⟨f, hf, hsome⟩, rfl⟩
  · rw [henc]
    refine Option.map_eq_some_iff.mpr ⟨_, ?_, rfl⟩
    change unmarshalFields x fields (zeroFields x fields) _ = _
    rw [zeroFields_eq, unmarshalFields_iff nodup honce]
    · refine ⟨g, fun f hf => ?_, rfl⟩
      unfold Stands
      rw [lookup_filterMap_key nodup (fun _ _ => entry_key) hf]
      rcases hfield f hf with ⟨hnone, -, hz⟩ | ⟨hsome, again⟩
      · rw [hnone]
        exact hz
      · rw [hsome]
        exact again.decodes
    · intro p hp
      obtain ⟨f, hf, rfl, -⟩ := hentry p hp
      exact ⟨f, hf, rfl⟩
  · rw [henc]
    refine plain_fields.mpr fun p hp => ?_
    obtain ⟨f, -, rfl, again⟩ := hentry p hp
    exact again.plain

theorem again_top (hnull : ∀ ty, ¬Q ty .null)
    (stable : ∀ ty, ty.proper = true → Stable (x := x) Q ty) {ty : Ty} (proper : ty.proper = true)
    {v : Json} (h : ConformsTop x Q ty v) {y : Value x.Time}
    (hy : unmarshal x ty (zero x ty) v = some y) : Again (ConformsTop x Q) ty y := by
  cases ty with
  | str =>
    cases v with
    | str s =>
      obtain rfl := Option.some.inj hy
      exact ⟨trivial, rfl, plain_of_token rfl ⟨nofun, nofun⟩⟩
    | _ => cases h
  | bool =>
    cases v with
    | bool b =>
      obtain rfl := Option.some.inj hy
      exact ⟨trivial, rfl, plain_of_token rfl ⟨nofun, nofun⟩⟩
    | _ => cases h
  | int =>
    cases v with
    | num n =>
      have hy : n.int.map Value.int = some y := hy
      obtain ⟨k, hk, rfl⟩ := Option.map_eq_some_iff.mp hy
      obtain ⟨hint, hbound⟩ := Number.int_ofInt hk
      refine ⟨x.finite_int k hbound, ?_, plain_of_token rfl ⟨nofun, fun n hn => ⟨k, ?_⟩⟩⟩
      · exact Option.map_eq_some_iff.mpr ⟨k, hint, rfl⟩
      · exact (Token.num.inj hn).symm
    | _ => cases h
  | uint =>
    cases v with
    | num n =>
      have hy : n.uint.map Value.int = some y := hy
      obtain ⟨k, hk, rfl⟩ := Option.map_eq_some_iff.mp hy
      obtain ⟨hint, hbound⟩ := Number.uint_ofInt hk
      refine ⟨x.finite_int k hbound, ?_, plain_of_token rfl ⟨nofun, fun n hn => ⟨k, ?_⟩⟩⟩
      · exact Option.map_eq_some_iff.mpr ⟨k, hint, rfl⟩
      · exact (Token.num.inj hn).symm
    | _ => cases h
  | time =>
    cases v with
    | str s =>
      have hy : (x.readTime s).map Value.time = some y := hy
      obtain ⟨t, ht, rfl⟩ := Option.map_eq_some_iff.mp hy
      obtain ⟨hparse, hread⟩ := x.read_format s t ht
      refine ⟨hparse, ?_, plain_of_token rfl ⟨nofun, nofun⟩⟩
      exact Option.map_eq_some_iff.mpr ⟨t, hread, rfl⟩
    | _ => cases h
  | slice elem =>
    cases v with
    | arr vs => exact again_slice (stable elem proper) h hy
    | _ => cases h
  | ptr t => cases v <;> cases h
  | struct fields =>
    cases v with
    | obj fs =>
      obtain ⟨nodup, hproper⟩ := Ty.proper_struct proper
      exact again_struct nodup hproper (fun f hf => stable f.ty (hproper f hf).type) hnull h hy
    | _ => cases h

theorem not_conforms_null (depth : Nat) (ty : Ty) : ¬Conforms x depth ty .null := by
  cases depth with
  | zero => exact id
  | succ depth => exact fun h => conformsTop_ne_null h rfl

theorem conforms_stable (depth : Nat) (ty : Ty) (proper : ty.proper = true) :
    Stable (x := x) (Conforms x depth) ty := by
  induction depth generalizing ty with
  | zero => exact fun _ _ h => h.elim
  | succ depth ih =>
    intro v y h hy
    have htop : ConformsTop x (Conforms x depth) ty.elem v := h
    rw [unmarshal_elem ty (conformsTop_ne_null htop)] at hy
    obtain ⟨y', hy', rfl⟩ := Option.map_eq_some_iff.mp hy
    have again := again_top (not_conforms_null depth) (fun ty hty => ih ty hty)
      (Ty.proper_elem proper) htop hy'
    refine ⟨?_, ?_, ?_⟩
    · rw [encode_wrap]
      exact again.conforms
    · rw [encode_wrap, unmarshal_elem ty (conformsTop_ne_null again.conforms), again.decodes,
        Option.map_some]
    · rw [encode_wrap]
      exact again.plain

theorem null_notMem_tokens {depth : Nat} {ty : Ty} {v : Json} (h : Conforms x depth ty v) :
    Token.null ∉ v.tokens := by
  induction depth generalizing ty v with
  | zero => exact h.elim
  | succ depth ih =>
    have htop : ConformsTop x (Conforms x depth) ty.elem v := h
    revert htop
    cases v with
    | null => exact fun htop => absurd rfl (conformsTop_ne_null htop)
    | arr vs =>
      cases ty.elem with
      | slice elem =>
        intro hall hmem
        simp only [tokens, List.mem_cons, List.mem_append, mem_tokensItems, List.not_mem_nil,
          or_false, reduceCtorEq, false_or] at hmem
        obtain ⟨v, hv, hmem⟩ := hmem
        exact ih (hall v hv) hmem
      | _ => exact fun htop => htop.elim
    | obj fs =>
      cases ty.elem with
      | struct fields =>
        intro htop hmem
        simp only [tokens, List.mem_cons, List.mem_append, mem_tokensFields, List.not_mem_nil,
          or_false, reduceCtorEq, false_or] at hmem
        obtain ⟨p, hp, hmem⟩ := hmem
        obtain ⟨f, -, -, hq⟩ := htop.2.1 p hp
        exact ih hq hmem
      | _ => exact fun htop => htop.elim
    | _ => exact fun _ => by simp [tokens]

end Again

section Exact

def record (fields : List (String × Ty)) : Ty :=
  .struct (.ofList (fields.map fun f => (f.1, false, f.2)))

def limitsTy : Ty :=
  record [("maxActiveAdmissionLeases", .int), ("admissionsPerMinute", .int),
    ("admissionTtlSeconds", .int)]

def queuePolicyTy : Ty :=
  record [("kind", .str), ("ticketIdleTtlSeconds", .int), ("ticketMaxTtlSeconds", .int),
    ("readyTtlSeconds", .int)]

def themeTy : Ty :=
  .struct (.ofList [("templateId", false, .str), ("title", false, .str), ("message", false, .str),
    ("primaryColor", false, .str), ("locale", false, .str), ("showEstimatedWait", false, .bool),
    ("logoImage", true, .str)])

def roomTy : Ty :=
  record [("id", .str), ("publicId", .str), ("name", .str), ("hostname", .str), ("origin", .str),
    ("healthURL", .str), ("protectPrefixes", .slice .str), ("excludePrefixes", .slice .str),
    ("queuePolicy", queuePolicyTy), ("limits", limitsTy), ("theme", themeTy), ("active", .bool)]

/-- `Config`. -/
def configTy : Ty :=
  record [("schemaVersion", .int), ("revision", .int), ("profile", .str), ("regionId", .str),
    ("rooms", .slice roomTy)]

def runtimeTy : Ty :=
  .struct (.ofList [("revision", false, .int), ("mode", false, .str), ("limits", false, limitsTy),
    ("epoch", false, .uint), ("eventState", false, .str), ("recoveryUntil", true, .int)])

/-- `Delivery`. -/
def deliveryTy : Ty :=
  record [("config", configTy),
    ("runtimes", .slice (record [("roomId", .str), ("runtime", runtimeTy)]))]

/-- `RuntimeCommand`. -/
def runtimeCommandTy : Ty :=
  .struct (.ofList [("action", false, .str), ("limits", true, .ptr limitsTy), ("scope", true, .str),
    ("generation", true, .ptr .int)])

/-- `EventInput`. -/
def eventInputTy : Ty := record [("prequeueAt", .time), ("admitAt", .time), ("drainAt", .time)]

def roomMetricsTy : Ty :=
  .struct (.ofList [("roomId", false, .str), ("revision", false, .int), ("epoch", false, .uint),
    ("mode", false, .str), ("waiting", false, .int), ("ready", false, .int), ("leases", false, .int),
    ("rate", false, .int), ("originHealthy", false, .bool), ("arrivalWindowReady", false, .bool),
    ("arrivalsFiveMinutes", false, .int), ("http5xxLastMinute", true, .ptr .int),
    ("http5xxWindowReady", true, .bool), ("recoveryUntil", false, .int),
    ("recoveryFence", false, .uint), ("recoveryReason", false, .str),
    ("recoveryValidation", false, .str)])

/-- `NodeAck`. -/
def nodeAckTy : Ty :=
  .struct (.ofList [("keyGeneration", true, .int), ("keyDigest", true, .str),
    ("generation", false, .int), ("digest", false, .str), ("rooms", false, .slice roomMetricsTy)])

/-- The types that requests, stored documents and signed payloads are decoded into. The
two that hold passwords print themselves redacted and are not among them. -/
def decodedTypes : List Ty :=
  [configTy, deliveryTy, runtimeCommandTy, eventInputTy, nodeAckTy,
    -- the clock of a node, a run of the traffic laboratory, and a ticket to join with
    record [("generation", .uint), ("notBefore", .int), ("digest", .str)],
    record [("runId", .str), ("preset", .str)],
    record [("preset", .str)],
    record [("target", .str)],
    -- accounts, enrollment, the policy and the route check
    record [("role", .str), ("enabled", .ptr .bool)],
    .struct (.ofList [("challengeToken", false, .str), ("code", true, .str)]),
    record [("enabled", .ptr .bool)],
    record [("source", .str), ("url", .str)],
    record []]

variable {x : Encoding} {ty : Ty} {raw : List UInt8} {y : Value x.Time}

theorem decodeInto_eq_some (proper : ty.proper = true) (h : decodeInto x ty raw = some y) :
    ∃ v, x.parse raw = some v ∧ Conforms x 17 ty v ∧ unmarshal x ty (zero x ty) v = some y := by
  unfold decodeInto at h
  split at h
  · cases h
  split at h
  · cases h
  rename_i rest hshape
  split at h
  · cases h
  rename_i hend
  obtain ⟨v, hv, hy⟩ := Option.bind_eq_some_iff.mp h
  rw [x.stream_parse raw v hv] at hshape
  rw [← List.append_nil v.tokens] at hshape
  exact ⟨v, hv, ((shape_iff 17 proper v [] rest).mp hshape).2, hy⟩

theorem decodeInto_of_conforms (proper : ty.proper = true) {v : Json} (hlimit : raw.length ≤ maxConfigBytes)
    (hne : raw ≠ []) (htext : ∃ text, raw = Doc.utf8 text) (hv : x.parse raw = some v)
    (h : Conforms x 17 ty v) : decodeInto x ty raw = unmarshal x ty (zero x ty) v := by
  obtain ⟨text, rfl⟩ := htext
  have hstream := x.stream_parse _ v hv
  have hshape : shape x 17 ty (x.stream (Doc.utf8 text)).1 = some [] := by
    rw [hstream, ← List.append_nil v.tokens]
    exact (shape_iff 17 proper v [] []).mpr ⟨rfl, h⟩
  have hguard : ¬(Doc.utf8 text = [] ∨ maxConfigBytes < (Doc.utf8 text).length ∨
      Doc.utf8 (Doc.readText (Doc.utf8 text)) ≠ Doc.utf8 text) := by
    rintro (hnil | hlong | hutf)
    · exact hne hnil
    · omega
    · rw [Doc.readText_utf8] at hutf
      exact hutf rfl
  unfold decodeInto
  rw [if_neg hguard, hshape]
  dsimp only
  rw [hstream, if_neg (by simp), hv, Option.bind_some]

/-- What is decoded exactly, of a type that `DecodeExact` is called with or any other
proper one, is one document without `null` whose objects have the keys of their types,
and the walk takes its tokens and no more. Written again within the limit it is accepted
and decoded to the same value. -/
theorem exact_decoding (x : Encoding) :
    (∀ ty ∈ decodedTypes, ty.proper = true) ∧
    ∀ (ty : Ty) (raw : List UInt8) (y : Value x.Time), ty.proper = true →
      decodeInto x ty raw = some y →
      (∃ v, x.parse raw = some v ∧ x.stream raw = (v.tokens, true) ∧ Conforms x 17 ty v ∧
        Token.null ∉ v.tokens ∧ ∀ rest, shape x 17 ty (v.tokens ++ rest) = some rest) ∧
      ((x.print (encode x ty y)).length ≤ maxConfigBytes →
        decodeInto x ty (x.print (encode x ty y)) = some y) := by
  refine ⟨by decide, fun ty raw y proper h => ?_⟩
  obtain ⟨v, hv, hconforms, hy⟩ := decodeInto_eq_some proper h
  have again := conforms_stable 17 ty proper v y hconforms hy
  refine ⟨⟨v, hv, x.stream_parse raw v hv, hconforms, null_notMem_tokens hconforms,
    fun rest => (shape_iff 17 proper v rest rest).mpr ⟨rfl, hconforms⟩⟩, fun hlimit => ?_⟩
  rw [decodeInto_of_conforms proper hlimit (x.print_ne_nil _) (x.print_text _)
    (x.parse_print _ again.plain) again.conforms]
  exact again.decodes

section Sample

mutual

def ofDoc : Doc → Json
  | .num n => .num (.ofInt n)
  | .str s => .str s
  | .bool b => .bool b
  | .arr items => .arr (ofItems items)
  | .obj fields => .obj (ofFields fields)

def ofItems : List Doc → List Json
  | [] => []
  | d :: ds => ofDoc d :: ofItems ds

def ofFields : List (String × Doc) → List (String × Json)
  | [] => []
  | (k, d) :: ds => (k, ofDoc d) :: ofFields ds

end

mutual

def toDoc : Json → Doc
  | .null => .bool false
  | .num n => .num n.value
  | .str s => .str s
  | .bool b => .bool b
  | .arr items => .arr (toItems items)
  | .obj fields => .obj (toFields fields)

def toItems : List Json → List Doc
  | [] => []
  | v :: vs => toDoc v :: toItems vs

def toFields : List (String × Json) → List (String × Doc)
  | [] => []
  | (k, v) :: fs => (k, toDoc v) :: toFields fs

end

mutual

theorem ofDoc_toDoc : ∀ v : Json, v.Plain → ofDoc (toDoc v) = v
  | .null, h => absurd rfl (h .null (by simp [tokens])).1
  | .num n, h => by
    obtain ⟨k, rfl⟩ := (h (.num n) (by simp [tokens])).2 n rfl
    rw [toDoc, ofDoc, Number.value_ofInt]
  | .str s, _ => by rw [toDoc, ofDoc]
  | .bool b, _ => by rw [toDoc, ofDoc]
  | .arr items, h => by rw [toDoc, ofDoc, ofItems_toItems items (plain_items.mp h)]
  | .obj fields, h => by rw [toDoc, ofDoc, ofFields_toFields fields (plain_fields.mp h)]

theorem ofItems_toItems : ∀ vs : List Json, (∀ v ∈ vs, v.Plain) → ofItems (toItems vs) = vs
  | [], _ => by rw [toItems, ofItems]
  | v :: vs, h => by
    rw [toItems, ofItems, ofDoc_toDoc v (h v List.mem_cons_self),
      ofItems_toItems vs fun v hv => h v (List.mem_cons_of_mem _ hv)]

theorem ofFields_toFields : ∀ fs : List (String × Json), (∀ f ∈ fs, f.2.Plain) →
    ofFields (toFields fs) = fs
  | [], _ => by rw [toFields, ofFields]
  | (k, v) :: fs, h => by
    rw [toFields, ofFields, ofDoc_toDoc v (h (k, v) List.mem_cons_self),
      ofFields_toFields fs fun f hf => h f (List.mem_cons_of_mem _ hf)]

end

def sampleEncoding : Encoding where
  Time := String
  zeroTime := "0001-01-01T00:00:00Z"
  parseTime s := decide (s ≠ "")
  readTime s := if s = "" then none else some s
  formatTime s := s
  finite _ := true
  fold s := s
  parse raw := (Doc.parse (Doc.readText raw)).map ofDoc
  stream raw :=
    match (Doc.parse (Doc.readText raw)).map ofDoc with
    | none => ([], false)
    | some v => (v.tokens, true)
  print v := Doc.utf8 (Doc.print Doc.compact (toDoc v))
  stream_parse raw v h := by rw [h]
  parse_print v h := by rw [Doc.readText_utf8, Doc.parse_print, Option.map_some, ofDoc_toDoc v h]
  print_text v := ⟨_, rfl⟩
  print_ne_nil v h := by
    have hread := Doc.readText_utf8 (Doc.print Doc.compact (toDoc v))
    rw [h] at hread
    obtain ⟨c, cs, hcs, -⟩ := Doc.print_cons (y := Doc.compact) (toDoc v)
    rw [hcs] at hread
    cases hread
  finite_int _ _ := rfl
  read_format s t h := by
    split at h
    · cases h
    · rename_i hs
      obtain rfl := Option.some.inj h
      exact ⟨decide_eq_true hs, if_neg hs⟩

def sampleCommand : Json := .obj [("scope", .str ""), ("action", .str "hold")]

def sampleValue : Value sampleEncoding.Time :=
  .struct [("action", .str "hold"), ("limits", .ptr none), ("scope", .str ""),
    ("generation", .ptr none)]

theorem sampleCommand_decoded :
    decodeInto sampleEncoding runtimeCommandTy (sampleEncoding.print sampleCommand) = some sampleValue ∧
      encode sampleEncoding runtimeCommandTy sampleValue = .obj [("action", .str "hold")] ∧
      decodeInto sampleEncoding runtimeCommandTy
        (sampleEncoding.print (encode sampleEncoding runtimeCommandTy sampleValue)) =
          some sampleValue := by
  have hplain : sampleCommand.Plain := by
    refine plain_fields.mpr fun f hf => ?_
    rcases List.mem_cons.mp hf with rfl | hf
    · exact plain_of_token rfl ⟨nofun, nofun⟩
    · obtain rfl := List.mem_singleton.mp hf
      exact plain_of_token rfl ⟨nofun, nofun⟩
  have hconforms : Conforms sampleEncoding 17 runtimeCommandTy sampleCommand := by
    have hshape : shape sampleEncoding 17 runtimeCommandTy (sampleCommand.tokens ++ []) = some [] := by
      decide +kernel
    exact ((shape_iff 17 (by decide) sampleCommand [] []).mp hshape).2
  have hfirst : decodeInto sampleEncoding runtimeCommandTy (sampleEncoding.print sampleCommand) =
      some sampleValue := by
    rw [decodeInto_of_conforms (by decide) (by decide +kernel) (sampleEncoding.print_ne_nil _)
      (sampleEncoding.print_text _) (sampleEncoding.parse_print _ hplain) hconforms]
    rfl
  exact ⟨hfirst, rfl, ((exact_decoding sampleEncoding).2 _ _ _ (by decide) hfirst).2
    (by decide +kernel)⟩

end Sample

end Exact

end WaitingRoom.Control
