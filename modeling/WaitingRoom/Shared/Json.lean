import WaitingRoom.Shared.Runes

/-!
# JSON values, their tokens and typed values

The values of a JSON text with `null` and every number, the tokens that a decoder reads
of them, and what `Unmarshal` and `Marshal` of Go make of them: types of records with
tagged fields, slices, pointers, strings, booleans, integers and times. `Unmarshal` is
lenient: it ignores unknown keys, folds their case, takes the last of several and skips
`null`. The tags of a record are distinct.
-/

namespace WaitingRoom

set_option autoImplicit false

/-- The literal of a number: its sign, its whole part and the text of what follows. -/
structure Number where
  negative : Bool
  whole : Nat
  rest : String
deriving DecidableEq, Repr

namespace Number

def ofInt (n : ℤ) : Number := ⟨decide (n < 0), n.natAbs, ""⟩

def value (n : Number) : ℤ := if n.negative then -n.whole else n.whole

/-- `strconv.ParseInt` of a literal. -/
def int (n : Number) : Option ℤ :=
  if n.rest = "" ∧ -9223372036854775808 ≤ n.value ∧ n.value ≤ 9223372036854775807 then some n.value
  else none

/-- `strconv.ParseUint` of a literal. -/
def uint (n : Number) : Option ℤ :=
  if n.rest = "" ∧ n.negative = false ∧ n.whole ≤ 18446744073709551615 then some n.whole else none

theorem value_ofInt (v : ℤ) : (ofInt v).value = v := by
  unfold value ofInt
  by_cases h : v < 0
  · simp only [h, decide_true, if_true]
    omega
  · simp only [h, decide_false, Bool.false_eq_true, if_false]
    omega

theorem int_ofInt {n : Number} {v : ℤ} (h : n.int = some v) :
    (ofInt v).int = some v ∧ v.natAbs ≤ 18446744073709551615 := by
  unfold int at h
  split at h
  · rename_i hr
    obtain rfl := Option.some.inj h
    unfold int
    rw [value_ofInt]
    exact ⟨if_pos ⟨rfl, hr.2⟩, by omega⟩
  · cases h

theorem uint_ofInt {n : Number} {v : ℤ} (h : n.uint = some v) :
    (ofInt v).uint = some v ∧ v.natAbs ≤ 18446744073709551615 := by
  unfold uint at h
  split at h
  · rename_i hr
    obtain rfl := Option.some.inj h
    have hn : ¬ ((n.whole : ℤ) < 0) := by omega
    refine ⟨?_, by omega⟩
    simp only [uint, ofInt, hn, decide_false, Int.natAbs_natCast, true_and]
    exact if_pos hr.2.2
  · cases h

end Number

inductive Json
  | null
  | bool (b : Bool)
  | num (n : Number)
  | str (s : String)
  | arr (items : List Json)
  | obj (fields : List (String × Json))

namespace Json

section Tokens

/-- What `Decoder.Token` answers; colons and commas are read over. -/
inductive Token
  | braceOpen | braceClose | bracketOpen | bracketClose
  | str (s : String)
  | num (n : Number)
  | bool (b : Bool)
  | null
deriving DecidableEq, Repr

mutual

def tokens : Json → List Token
  | .null => [.null]
  | .bool b => [.bool b]
  | .num n => [.num n]
  | .str s => [.str s]
  | .arr xs => .bracketOpen :: (tokensItems xs ++ [.bracketClose])
  | .obj fs => .braceOpen :: (tokensFields fs ++ [.braceClose])

def tokensItems : List Json → List Token
  | [] => []
  | v :: vs => tokens v ++ tokensItems vs

def tokensFields : List (String × Json) → List Token
  | [] => []
  | (k, v) :: fs => .str k :: (tokens v ++ tokensFields fs)

end

/-- `Decoder.More`: another item or key before the end of the array or object. -/
def more : List Token → Bool
  | [] => false
  | t :: _ => decide (t ≠ .bracketClose ∧ t ≠ .braceClose)

theorem more_tokens (v : Json) (rest : List Token) : more (v.tokens ++ rest) = true := by
  cases v <;> rw [tokens] <;> rfl

theorem length_tokens_pos (v : Json) : 0 < v.tokens.length := by
  cases v <;> rw [tokens] <;> exact Nat.succ_pos _

theorem length_le_tokensItems (vs : List Json) : vs.length ≤ (tokensItems vs).length := by
  induction vs with
  | nil => exact Nat.zero_le _
  | cons v vs ih =>
    have := v.length_tokens_pos
    rw [tokensItems, List.length_append, List.length_cons]
    omega

theorem length_le_tokensFields (fs : List (String × Json)) :
    fs.length ≤ (tokensFields fs).length := by
  induction fs with
  | nil => exact Nat.zero_le _
  | cons f fs ih =>
    rw [tokensFields, List.length_cons, List.length_cons, List.length_append]
    omega

theorem mem_tokensItems {t : Token} {vs : List Json} :
    t ∈ tokensItems vs ↔ ∃ v ∈ vs, t ∈ v.tokens := by
  induction vs with
  | nil => simp [tokensItems]
  | cons v vs ih => simp [tokensItems, ih]

theorem mem_tokensFields {t : Token} {fs : List (String × Json)} :
    t ∈ tokensFields fs ↔ ∃ f ∈ fs, t = .str f.1 ∨ t ∈ f.2.tokens := by
  induction fs with
  | nil => simp [tokensFields]
  | cons f fs ih => simp [tokensFields, ih, or_assoc]

/-- A token of the texts that `Marshal` writes of values without nil. -/
def Token.Plain (t : Token) : Prop := t ≠ .null ∧ ∀ n, t = .num n → ∃ v, n = Number.ofInt v

def Plain (v : Json) : Prop := ∀ t ∈ v.tokens, t.Plain

theorem plain_items {vs : List Json} : (Json.arr vs).Plain ↔ ∀ v ∈ vs, v.Plain := by
  have close : ∀ t, t = Token.bracketOpen ∨ t = Token.bracketClose → t.Plain := by
    rintro t (rfl | rfl) <;> exact ⟨nofun, nofun⟩
  unfold Plain
  simp only [tokens, List.mem_cons, List.mem_append, mem_tokensItems, List.not_mem_nil, or_false]
  constructor
  · intro h v hv t ht
    exact h t (.inr (.inl ⟨v, hv, ht⟩))
  · rintro h t (ht | ⟨v, hv, ht⟩ | ht)
    · exact close t (.inl ht)
    · exact h v hv t ht
    · exact close t (.inr ht)

theorem plain_fields {fs : List (String × Json)} :
    (Json.obj fs).Plain ↔ ∀ f ∈ fs, f.2.Plain := by
  have close : ∀ t, t = Token.braceOpen ∨ t = Token.braceClose → t.Plain := by
    rintro t (rfl | rfl) <;> exact ⟨nofun, nofun⟩
  unfold Plain
  simp only [tokens, List.mem_cons, List.mem_append, mem_tokensFields, List.not_mem_nil, or_false]
  constructor
  · intro h f hf t ht
    exact h t (.inr (.inl ⟨f, hf, .inr ht⟩))
  · rintro h t (ht | ⟨f, hf, rfl | ht⟩ | ht)
    · exact close t (.inl ht)
    · exact ⟨nofun, nofun⟩
    · exact h f hf t ht
    · exact close t (.inr ht)

end Tokens

section Types

mutual

/-- The types of Go that are decoded; `int` stands for `int` and `int64`. -/
inductive Ty
  | str | bool | int | uint | time
  | slice (elem : Ty)
  | ptr (elem : Ty)
  | struct (fields : Fields)

inductive Fields
  | nil
  | cons (key : String) (optional : Bool) (ty : Ty) (rest : Fields)

end

structure Field where
  key : String
  optional : Bool
  ty : Ty

namespace Fields

def list : Fields → List Field
  | .nil => []
  | .cons key optional ty rest => ⟨key, optional, ty⟩ :: rest.list

def ofList : List (String × Bool × Ty) → Fields
  | [] => .nil
  | (key, optional, ty) :: rest => .cons key optional ty (ofList rest)

def find (fs : Fields) (key : String) : Option Field := fs.list.find? fun f => decide (f.key = key)

theorem find_eq_some {fs : Fields} {key : String} {f : Field} (h : fs.find key = some f) :
    f ∈ fs.list ∧ f.key = key := by
  have hk := List.find?_some h
  exact ⟨List.mem_of_find?_eq_some h, of_decide_eq_true hk⟩

theorem eq_of_key {fs : Fields} (nodup : (fs.list.map Field.key).Nodup) {f g : Field}
    (hf : f ∈ fs.list) (hg : g ∈ fs.list) (h : f.key = g.key) : f = g :=
  List.inj_on_of_nodup_map nodup hf hg h

theorem find_key {fs : Fields} (nodup : (fs.list.map Field.key).Nodup) {f : Field}
    (hf : f ∈ fs.list) : fs.find f.key = some f := by
  cases h : fs.find f.key with
  | none =>
    have := List.find?_eq_none.mp h f hf
    simp at this
  | some g =>
    obtain ⟨hg, hk⟩ := find_eq_some h
    rw [eq_of_key nodup hg hf hk]

end Fields

def Ty.elem : Ty → Ty
  | .ptr t => t.elem
  | t => t

theorem Ty.elem_ne_ptr (ty t : Ty) : ty.elem ≠ .ptr t := by
  cases ty with
  | ptr u =>
    rw [elem]
    exact elem_ne_ptr u t
  | _ => nofun

theorem Ty.elem_of_ne_ptr {ty : Ty} (h : ∀ t, ty ≠ .ptr t) : ty.elem = ty := by
  cases ty with
  | ptr u => exact absurd rfl (h u)
  | _ => rfl

theorem Ty.elem_elem (ty : Ty) : ty.elem.elem = ty.elem := elem_of_ne_ptr ty.elem_ne_ptr

/-- The types whose zero value `omitempty` leaves out. -/
def Ty.omits : Ty → Bool
  | .str | .bool | .int | .uint | .ptr _ => true
  | .time | .slice _ | .struct _ => false

def TagName (key : String) : Prop := key ≠ "" ∧ ∀ c ∈ key.toList, c.isAlphanum = true
  deriving Decidable

mutual

/-- Whether the tags of a type are names, all distinct within a record, and its optional
fields are left out when they are zero. -/
def Ty.proper : Ty → Bool
  | .str | .bool | .int | .uint | .time => true
  | .slice t => t.proper
  | .ptr t => t.proper
  | .struct fs => decide (fs.list.map Field.key).Nodup && fs.proper

def Fields.proper : Fields → Bool
  | .nil => true
  | .cons key optional ty rest =>
    decide (TagName key) && (!optional || ty.omits) && ty.proper && rest.proper

end

structure Field.Proper (f : Field) : Prop where
  tag : TagName f.key
  omits : f.optional = true → f.ty.omits = true
  type : f.ty.proper = true

theorem Fields.proper_mem {fs : Fields} (h : fs.proper = true) {f : Field} (hf : f ∈ fs.list) :
    f.Proper := by
  match fs with
  | .nil => cases hf
  | .cons key optional ty rest =>
    rw [Fields.proper] at h
    simp only [Bool.and_eq_true, decide_eq_true_eq, Bool.or_eq_true, Bool.not_eq_true'] at h
    obtain ⟨⟨⟨hk, ho⟩, ht⟩, hrest⟩ := h
    rcases List.mem_cons.mp hf with rfl | hf
    · refine ⟨hk, fun h => ho.resolve_left ?_, ht⟩
      rw [show optional = true from h]
      exact nofun
    · exact Fields.proper_mem hrest hf

theorem Ty.proper_struct {fs : Fields} (h : (Ty.struct fs).proper = true) :
    (fs.list.map Field.key).Nodup ∧ ∀ f ∈ fs.list, f.Proper := by
  rw [Ty.proper, Bool.and_eq_true, decide_eq_true_eq] at h
  exact ⟨h.1, fun _ hf => Fields.proper_mem h.2 hf⟩

theorem Ty.proper_elem {ty : Ty} (h : ty.proper = true) : ty.elem.proper = true := by
  match ty with
  | .ptr t =>
    rw [Ty.elem]
    rw [Ty.proper] at h
    exact Ty.proper_elem h
  | .str | .bool | .int | .uint | .time | .slice _ | .struct _ => exact h

end Types

section Values

/-- The parts of `encoding/json` and `time` that texts are read and written with.
`stream` is what a decoder reads: tokens, and whether the text ends behind them. A
number is finite if it is one of `float64`, and `fold` is the folding of keys. -/
structure Encoding where
  Time : Type
  zeroTime : Time
  parseTime : String → Bool
  readTime : String → Option Time
  formatTime : Time → String
  finite : Number → Bool
  fold : String → String
  parse : List UInt8 → Option Json
  stream : List UInt8 → List Token × Bool
  print : Json → List UInt8
  stream_parse : ∀ raw v, parse raw = some v → stream raw = (v.tokens, true)
  parse_print : ∀ v, v.Plain → parse (print v) = some v
  print_text : ∀ v, ∃ text, print v = Doc.utf8 text
  print_ne_nil : ∀ v, print v ≠ []
  finite_int : ∀ v : ℤ, v.natAbs ≤ 18446744073709551615 → finite (.ofInt v) = true
  read_format : ∀ s t, readTime s = some t →
    parseTime (formatTime t) = true ∧ readTime (formatTime t) = some t

inductive Value (T : Type)
  | str (s : String)
  | bool (b : Bool)
  | int (n : ℤ)
  | time (t : T)
  | slice (items : Option (List (Value T)))
  | ptr (target : Option (Value T))
  | struct (fields : List (String × Value T))

variable (x : Encoding)

mutual

def zero : Ty → Value x.Time
  | .str => .str ""
  | .bool => .bool false
  | .int | .uint => .int 0
  | .time => .time x.zeroTime
  | .slice _ => .slice none
  | .ptr _ => .ptr none
  | .struct fs => .struct (zeroFields fs)

def zeroFields : Fields → List (String × Value x.Time)
  | .nil => []
  | .cons key _ ty rest => (key, zero ty) :: zeroFields rest

end

section Pointers

variable {x}

def Value.wrap : Ty → Value x.Time → Value x.Time
  | .ptr t, v => .ptr (some (v.wrap t))
  | _, v => v

def Value.behind : Ty → Value x.Time → Value x.Time
  | .ptr t, .ptr (some v) => v.behind t
  | .ptr t, _ => zero x t.elem
  | _, v => v

def Value.items : Value x.Time → List (Value x.Time)
  | .slice (some vs) => vs
  | _ => []

def Value.fields : Value x.Time → List (String × Value x.Time)
  | .struct fs => fs
  | _ => []

/-- What `null` leaves. -/
def Value.nulled : Ty → Value x.Time → Value x.Time
  | .ptr _, _ => .ptr none
  | .slice _, _ => .slice none
  | _, v => v

def assign (fs : List (String × Value x.Time)) (key : String) (v : Value x.Time) :
    List (String × Value x.Time) :=
  fs.map fun f => if f.1 = key then (f.1, v) else f

/-- The field that a key is decoded into: the one of this tag, or else the first whose
tag is the same up to case. -/
def Fields.resolve (fs : Fields) (key : String) : Option Field :=
  (fs.find key).or (fs.list.find? fun f => decide (x.fold f.key = x.fold key))

end Pointers

mutual

/-- `Unmarshal` of a value into what is there. -/
def unmarshal (ty : Ty) (cur : Value x.Time) : Json → Option (Value x.Time)
  | .null => some (cur.nulled ty)
  | .bool b =>
    match ty.elem with
    | .bool => some (.wrap ty (.bool b))
    | _ => none
  | .num n =>
    match ty.elem with
    | .int => n.int.map fun v => .wrap ty (.int v)
    | .uint => n.uint.map fun v => .wrap ty (.int v)
    | _ => none
  | .str s =>
    match ty.elem with
    | .str => some (.wrap ty (.str s))
    | .time => (x.readTime s).map fun t => .wrap ty (.time t)
    | _ => none
  | .arr vs =>
    match ty.elem with
    | .slice t =>
      (unmarshalItems t (cur.behind ty).items vs).map fun ys => .wrap ty (.slice (some ys))
    | _ => none
  | .obj fs =>
    match ty.elem with
    | .struct fields =>
      (unmarshalFields fields (cur.behind ty).fields fs).map fun ys => .wrap ty (.struct ys)
    | _ => none

def unmarshalItems (ty : Ty) (curs : List (Value x.Time)) :
    List Json → Option (List (Value x.Time))
  | [] => some []
  | v :: vs =>
    match unmarshal ty (curs.headD (zero x ty)) v with
    | none => none
    | some y => (unmarshalItems ty curs.tail vs).map fun ys => y :: ys

def unmarshalFields (fields : Fields) (cur : List (String × Value x.Time)) :
    List (String × Json) → Option (List (String × Value x.Time))
  | [] => some cur
  | (key, v) :: fs =>
    match fields.resolve (x := x) key with
    | none => unmarshalFields fields cur fs
    | some f =>
      match unmarshal f.ty ((cur.lookup f.key).getD (zero x f.ty)) v with
      | none => none
      | some y => unmarshalFields fields (assign cur f.key y) fs

end

/-- What `omitempty` leaves out. -/
def Value.empty {T : Type} : Value T → Bool
  | .str s => decide (s = "")
  | .bool b => !b
  | .int n => decide (n = 0)
  | .slice none | .slice (some []) | .ptr none => true
  | .time _ | .slice (some (_ :: _)) | .ptr (some _) | .struct _ => false

mutual

/-- `Marshal`, up to the text. -/
def encode : Ty → Value x.Time → Json
  | .ptr t, .ptr (some v) => encode t v
  | .slice t, .slice (some vs) => .arr (vs.map (encode t))
  | .struct fields, .struct vs => .obj (encodeFields fields vs)
  | .str, .str s => .str s
  | .bool, .bool b => .bool b
  | .int, .int n | .uint, .int n => .num (.ofInt n)
  | .time, .time t => .str (x.formatTime t)
  | _, _ => .null

def encodeFields : Fields → List (String × Value x.Time) → List (String × Json)
  | .nil, _ => []
  | .cons key optional ty rest, vs =>
    match vs.lookup key with
    | none => encodeFields rest vs
    | some v =>
      if optional = true ∧ v.empty = true then encodeFields rest vs
      else (key, encode ty v) :: encodeFields rest vs

end

section Pointers

variable {x}

theorem behind_zero (ty : Ty) : (zero x ty).behind ty = zero x ty.elem := by
  cases ty <;> rfl

theorem behind_elem (ty : Ty) (v : Value x.Time) : v.behind ty.elem = v := by
  have h := ty.elem_ne_ptr
  revert h
  cases ty.elem with
  | ptr t => exact fun h => absurd rfl (h t)
  | _ => exact fun _ => rfl

theorem encode_wrap (ty : Ty) (v : Value x.Time) : encode x ty (v.wrap ty) = encode x ty.elem v := by
  match ty with
  | .ptr t => exact encode_wrap t v
  | .str | .bool | .int | .uint | .time | .slice _ | .struct _ => rfl

theorem unmarshal_elem (ty : Ty) {v : Json} (hv : v ≠ .null) : unmarshal x ty (zero x ty) v =
    (unmarshal x ty.elem (zero x ty.elem) v).map (Value.wrap ty) := by
  cases v with
  | null => exact absurd rfl hv
  | bool b =>
    rw [unmarshal, unmarshal, Ty.elem_elem]
    cases ty.elem <;> simp only [Option.map_none, Option.map_some]
    rfl
  | num n =>
    rw [unmarshal, unmarshal, Ty.elem_elem]
    cases ty.elem <;> simp only [Option.map_none, Option.map_map] <;> rfl
  | str s =>
    rw [unmarshal, unmarshal, Ty.elem_elem]
    cases ty.elem <;> simp only [Option.map_none, Option.map_some, Option.map_map] <;> rfl
  | arr vs =>
    rw [unmarshal, unmarshal, Ty.elem_elem, behind_zero, behind_elem]
    cases ty.elem <;> simp only [Option.map_none, Option.map_map]
    rfl
  | obj fs =>
    rw [unmarshal, unmarshal, Ty.elem_elem, behind_zero, behind_elem]
    cases ty.elem <;> simp only [Option.map_none, Option.map_map]
    rfl

theorem eq_zero_of_empty {ty : Ty} (omits : ty.omits = true) {v : Json} (hv : v ≠ .null)
    {y : Value x.Time} (hy : unmarshal x ty (zero x ty) v = some y) (hempty : y.empty = true) :
    y = zero x ty := by
  rw [unmarshal_elem ty hv] at hy
  obtain ⟨y', hy', rfl⟩ := Option.map_eq_some_iff.mp hy
  cases ty with
  | ptr t => cases hempty
  | str =>
    cases v with
    | str s =>
      obtain rfl := Option.some.inj hy'
      rw [show s = "" from of_decide_eq_true hempty]
      rfl
    | null => exact absurd rfl hv
    | _ => cases hy'
  | bool =>
    cases v with
    | bool b =>
      obtain rfl := Option.some.inj hy'
      cases b
      · rfl
      · cases hempty
    | null => exact absurd rfl hv
    | _ => cases hy'
  | int =>
    cases v with
    | num n =>
      have hy : n.int.map Value.int = some y' := hy'
      obtain ⟨k, -, rfl⟩ := Option.map_eq_some_iff.mp hy
      rw [show k = 0 from of_decide_eq_true hempty]
      rfl
    | null => exact absurd rfl hv
    | _ => cases hy'
  | uint =>
    cases v with
    | num n =>
      have hy : n.uint.map Value.int = some y' := hy'
      obtain ⟨k, -, rfl⟩ := Option.map_eq_some_iff.mp hy
      rw [show k = 0 from of_decide_eq_true hempty]
      rfl
    | null => exact absurd rfl hv
    | _ => cases hy'
  | time => cases omits
  | slice t => cases omits
  | struct fs => cases omits

theorem empty_zero {ty : Ty} (omits : ty.omits = true) : (zero x ty).empty = true := by
  cases ty with
  | time => cases omits
  | slice t => cases omits
  | struct fs => cases omits
  | _ => rfl

theorem unmarshalItems_iff {ty : Ty} {vs : List Json} {ys : List (Value x.Time)} :
    unmarshalItems x ty [] vs = some ys ↔
      List.Forall₂ (fun v y => unmarshal x ty (zero x ty) v = some y) vs ys := by
  induction vs generalizing ys with
  | nil =>
    rw [unmarshalItems, List.forall₂_nil_left_iff, Option.some_inj, eq_comm]
  | cons v vs ih =>
    rw [unmarshalItems, List.headD_nil, List.tail_nil, List.forall₂_cons_left_iff]
    cases hv : unmarshal x ty (zero x ty) v with
    | none =>
      constructor
      · exact nofun
      · rintro ⟨y, ys', h, -⟩
        cases h
    | some y =>
      dsimp only
      rw [Option.map_eq_some_iff]
      constructor
      · rintro ⟨ys', h, rfl⟩
        exact ⟨y, ys', rfl, ih.mp h, rfl⟩
      · rintro ⟨y', ys', h, hys, rfl⟩
        obtain rfl := Option.some.inj h
        exact ⟨ys', ih.mpr hys, rfl⟩

end Pointers

section Records

variable {x} {fields : Fields}

theorem zeroFields_eq (fields : Fields) :
    zeroFields x fields = fields.list.map fun f => (f.key, zero x f.ty) := by
  match fields with
  | .nil => rfl
  | .cons key optional ty rest =>
    rw [zeroFields, Fields.list, List.map_cons, zeroFields_eq rest]

/-- The entry that `Marshal` writes for a field. -/
def entry (vs : List (String × Value x.Time)) (f : Field) : Option (String × Json) :=
  (vs.lookup f.key).bind fun v =>
    if f.optional = true ∧ v.empty = true then none else some (f.key, encode x f.ty v)

theorem encodeFields_eq (fields : Fields) (vs : List (String × Value x.Time)) :
    encodeFields x fields vs = fields.list.filterMap (entry vs) := by
  match fields with
  | .nil => rfl
  | .cons key optional ty rest =>
    have ih := encodeFields_eq rest vs
    rw [encodeFields, Fields.list, List.filterMap_cons, entry]
    cases hl : vs.lookup key with
    | none => exact ih
    | some v =>
      dsimp only [Option.bind_some]
      split_ifs
      · exact ih
      · rw [ih]

theorem lookup_eq_none {α : Type} {l : List (String × α)} {key : String}
    (h : key ∉ l.map Prod.fst) : l.lookup key = none := by
  rw [List.lookup_eq_none_iff]
  intro p hp
  rw [bne_iff_ne]
  rintro rfl
  exact h (List.mem_map_of_mem hp)

theorem mem_of_lookup {α : Type} {l : List (String × α)} {key : String} {v : α}
    (h : l.lookup key = some v) : (key, v) ∈ l := by
  obtain ⟨l₁, l₂, rfl, -⟩ := List.lookup_eq_some_iff.mp h
  exact List.mem_append_right _ List.mem_cons_self

theorem lookup_map_key {α : Type} {l : List Field} (nodup : (l.map Field.key).Nodup) (g : Field → α)
    {f : Field} (hf : f ∈ l) : (l.map fun f => (f.key, g f)).lookup f.key = some (g f) := by
  induction l with
  | nil => cases hf
  | cons a l ih =>
    rw [List.map_cons, List.nodup_cons] at nodup
    rw [List.map_cons, List.lookup_cons]
    rcases List.mem_cons.mp hf with rfl | hf
    · rw [beq_self_eq_true]
    · have hne : f.key ≠ a.key := fun h => nodup.1 (h ▸ List.mem_map_of_mem hf)
      rw [beq_false_of_ne hne]
      exact ih nodup.2 hf

theorem lookup_filterMap_key {α : Type} {l : List Field} (nodup : (l.map Field.key).Nodup)
    {h : Field → Option (String × α)} (key : ∀ f p, h f = some p → p.1 = f.key) {f : Field}
    (hf : f ∈ l) : (l.filterMap h).lookup f.key = (h f).map Prod.snd := by
  have none_of : ∀ {l : List Field}, f.key ∉ l.map Field.key →
      (l.filterMap h).lookup f.key = none := by
    intro l hn
    refine lookup_eq_none fun hm => ?_
    obtain ⟨p, hp, hpk⟩ := List.mem_map.mp hm
    obtain ⟨g, hg, hgp⟩ := List.mem_filterMap.mp hp
    rw [key g p hgp] at hpk
    exact hn (hpk ▸ List.mem_map_of_mem hg)
  induction l with
  | nil => cases hf
  | cons a l ih =>
    rw [List.map_cons, List.nodup_cons] at nodup
    rw [List.filterMap_cons]
    rcases List.mem_cons.mp hf with rfl | hf
    · cases hp : h f with
      | none => exact none_of nodup.1
      | some p =>
        obtain ⟨k, v⟩ := p
        obtain rfl : k = f.key := key f _ hp
        simp
    · have hne : f.key ≠ a.key := fun heq => nodup.1 (heq ▸ List.mem_map_of_mem hf)
      cases hp : h a with
      | none => exact ih nodup.2 hf
      | some p =>
        obtain ⟨k, v⟩ := p
        obtain rfl : k = a.key := key a _ hp
        dsimp only
        rw [List.lookup_cons, beq_false_of_ne hne]
        exact ih nodup.2 hf

/-- How a field stands after the keys `fs` are decoded. -/
def Stands (g : Field → Value x.Time) (fs : List (String × Json)) (g' : Field → Value x.Time)
    (f : Field) : Prop :=
  match fs.lookup f.key with
  | some v => unmarshal x f.ty (g f) v = some (g' f)
  | none => g' f = g f

/-- How the fields of a record stand after the keys `fs` are decoded into them. -/
def Decoded (fields : Fields) (g : Field → Value x.Time) (fs : List (String × Json))
    (g' : Field → Value x.Time) : Prop := ∀ f ∈ fields.list, Stands g fs g' f

variable {g g' : Field → Value x.Time} {fs : List (String × Json)}

theorem resolve_key (nodup : (fields.list.map Field.key).Nodup) {f : Field} (hf : f ∈ fields.list) :
    fields.resolve (x := x) f.key = some f := by
  rw [Fields.resolve, Fields.find_key nodup hf, Option.some_or]

theorem assign_map (f : Field) (y : Value x.Time) : assign (fields.list.map fun f => (f.key, g f)) f.key y =
      fields.list.map fun a => (a.key, if a.key = f.key then y else g a) := by
  rw [assign, List.map_map]
  apply List.map_congr_left
  intro a _
  dsimp only [Function.comp_apply]
  split_ifs <;> rfl

theorem decoded_set (nodup : (fields.list.map Field.key).Nodup) {f : Field} (hf : f ∈ fields.list)
    (hnone : fs.lookup f.key = none) (y : Value x.Time) :
    Decoded fields (fun a => if a.key = f.key then y else g a) fs g' ↔
      g' f = y ∧ ∀ a ∈ fields.list, a.key ≠ f.key → Stands g fs g' a := by
  have other : ∀ a, a.key ≠ f.key →
      (Stands (fun a => if a.key = f.key then y else g a) fs g' a ↔ Stands g fs g' a) := by
    intro a hne
    unfold Stands
    dsimp only
    rw [if_neg hne]
  have own : Stands (fun a => if a.key = f.key then y else g a) fs g' f ↔ g' f = y := by
    unfold Stands
    rw [hnone]
    dsimp only
    rw [if_pos rfl]
  constructor
  · intro hd
    exact ⟨own.mp (hd f hf), fun a ha hne => (other a hne).mp (hd a ha)⟩
  · rintro ⟨hy, hd⟩ a ha
    by_cases hne : a.key = f.key
    · obtain rfl := Fields.eq_of_key nodup ha hf hne
      exact own.mpr hy
    · exact (other a hne).mpr (hd a ha hne)

theorem decoded_cons (nodup : (fields.list.map Field.key).Nodup) {f : Field} (hf : f ∈ fields.list)
    (v : Json) : Decoded fields g ((f.key, v) :: fs) g' ↔
      unmarshal x f.ty (g f) v = some (g' f) ∧
        ∀ a ∈ fields.list, a.key ≠ f.key → Stands g fs g' a := by
  have other : ∀ a, a.key ≠ f.key → (Stands g ((f.key, v) :: fs) g' a ↔ Stands g fs g' a) := by
    intro a hne
    unfold Stands
    rw [List.lookup_cons, beq_false_of_ne hne]
  have own : Stands g ((f.key, v) :: fs) g' f ↔ unmarshal x f.ty (g f) v = some (g' f) := by
    unfold Stands
    rw [List.lookup_cons, beq_self_eq_true]
  constructor
  · intro hd
    exact ⟨own.mp (hd f hf), fun a ha hne => (other a hne).mp (hd a ha)⟩
  · rintro ⟨hy, hd⟩ a ha
    by_cases hne : a.key = f.key
    · obtain rfl := Fields.eq_of_key nodup ha hf hne
      exact own.mpr hy
    · exact (other a hne).mpr (hd a ha hne)

theorem unmarshalFields_iff (nodup : (fields.list.map Field.key).Nodup)
    (once : (fs.map Prod.fst).Nodup) (known : ∀ p ∈ fs, ∃ f ∈ fields.list, f.key = p.1)
    {out : List (String × Value x.Time)} :
    unmarshalFields x fields (fields.list.map fun f => (f.key, g f)) fs = some out ↔
      ∃ g', Decoded fields g fs g' ∧ out = fields.list.map fun f => (f.key, g' f) := by
  induction fs generalizing g with
  | nil =>
    rw [unmarshalFields]
    constructor
    · intro h
      exact ⟨g, fun _ _ => rfl, (Option.some.inj h).symm⟩
    · rintro ⟨g', hd, rfl⟩
      congr 1
      exact List.map_congr_left fun f hf => by rw [show g' f = g f from hd f hf]
  | cons p fs ih =>
    obtain ⟨key, v⟩ := p
    obtain ⟨f, hf, rfl⟩ := known (key, v) List.mem_cons_self
    rw [List.map_cons, List.nodup_cons] at once
    have hnone : fs.lookup f.key = none := lookup_eq_none once.1
    rw [unmarshalFields, resolve_key nodup hf]
    dsimp only
    rw [lookup_map_key nodup g hf, Option.getD_some]
    cases hy : unmarshal x f.ty (g f) v with
    | none =>
      constructor
      · exact nofun
      · rintro ⟨g', hd, -⟩
        have h := ((decoded_cons nodup hf v).mp hd).1
        rw [hy] at h
        cases h
    | some y =>
      dsimp only
      rw [assign_map, ih once.2 fun p hp => known p (List.mem_cons_of_mem _ hp)]
      refine exists_congr fun g' => and_congr_left fun _ => ?_
      rw [decoded_set nodup hf hnone, decoded_cons nodup hf, hy, Option.some_inj]
      exact and_congr_left fun _ => eq_comm

end Records

end Values

end Json

end WaitingRoom
