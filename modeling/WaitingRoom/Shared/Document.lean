import Mathlib

/-!
# JSON documents

Documents of whole numbers, strings, booleans, arrays and objects, with one parser
and a printer for every style. A style says what follows a colon or a comma and how
characters of a string are escaped; whatever a style prints is read back. Other
JSON (`null`, fractions, exponents, escaped surrogates) is not read.
-/

namespace WaitingRoom

set_option autoImplicit false

inductive Doc
  | num (n : ℤ)
  | str (s : String)
  | bool (b : Bool)
  | arr (items : List Doc)
  | obj (fields : List (String × Doc))

namespace Doc

section Characters

-- a text is searched, where the instances for all characters would go through the alphabet
instance (priority := high) decidableAll (p : Char → Prop) [DecidablePred p] (cs : List Char) :
    Decidable (∀ c ∈ cs, p c) := List.decidableBAll p cs

instance (priority := high) decidableAny (p : Char → Prop) [DecidablePred p] (cs : List Char) :
    Decidable (∃ c ∈ cs, p c) := List.decidableBEx p cs

def Blank (c : Char) : Prop := c = ' ' ∨ c = '\t' ∨ c = '\n' ∨ c = '\r'
  deriving Decidable

def skip : List Char → List Char
  | [] => []
  | c :: cs => if Blank c then skip cs else c :: cs

theorem skip_append {gap : List Char} (h : ∀ c ∈ gap, Blank c) (cs : List Char) :
    skip (gap ++ cs) = skip cs := by
  induction gap with
  | nil => rfl
  | cons c gap ih =>
    rw [List.cons_append, skip, if_pos (h c List.mem_cons_self)]
    exact ih fun c hc => h c (List.mem_cons_of_mem _ hc)

@[simp] theorem skip_cons {c : Char} (h : ¬ Blank c) (cs : List Char) : skip (c :: cs) = c :: cs :=
  if_neg h

def hexDigit (n : Nat) : Char := if n < 10 then .ofNat (48 + n) else .ofNat (87 + n)

def hexValue (c : Char) : Option Nat :=
  if '0' ≤ c ∧ c ≤ '9' then some (c.toNat - 48)
  else if 'a' ≤ c ∧ c ≤ 'f' then some (c.toNat - 87)
  else if 'A' ≤ c ∧ c ≤ 'F' then some (c.toNat - 55)
  else none

theorem hexValue_hexDigit : ∀ n < 16, hexValue (hexDigit n) = some n := by decide

def hex4 (n : Nat) : List Char :=
  [hexDigit (n / 4096 % 16), hexDigit (n / 256 % 16), hexDigit (n / 16 % 16), hexDigit (n % 16)]

def readHex4 (a b c d : Char) : Option Char := do
  let n := (← hexValue a) * 4096 + (← hexValue b) * 256 + (← hexValue c) * 16 + (← hexValue d)
  if n.isValidChar then some (.ofNat n) else none

theorem readHex4_hex4 (c : Char) (h : c.toNat < 65536) :
    readHex4 (hexDigit (c.toNat / 4096 % 16)) (hexDigit (c.toNat / 256 % 16))
      (hexDigit (c.toNat / 16 % 16)) (hexDigit (c.toNat % 16)) = some c := by
  have h₁ := hexValue_hexDigit (c.toNat / 4096 % 16) (Nat.mod_lt _ (by decide))
  have h₂ := hexValue_hexDigit (c.toNat / 256 % 16) (Nat.mod_lt _ (by decide))
  have h₃ := hexValue_hexDigit (c.toNat / 16 % 16) (Nat.mod_lt _ (by decide))
  have h₄ := hexValue_hexDigit (c.toNat % 16) (Nat.mod_lt _ (by decide))
  have hn : c.toNat / 4096 % 16 * 4096 + c.toNat / 256 % 16 * 256 + c.toNat / 16 % 16 * 16 +
      c.toNat % 16 = c.toNat := by omega
  have hv : c.toNat.isValidChar := c.valid
  simp only [readHex4, h₁, h₂, h₃, h₄, Option.bind_eq_bind, Option.bind_some, hn, if_pos hv,
    Char.ofNat_toNat]

def unescape (c : Char) : Option Char :=
  if c = '"' then some '"'
  else if c = '\\' then some '\\'
  else if c = '/' then some '/'
  else if c = 'b' then some '\x08'
  else if c = 'f' then some '\x0c'
  else if c = 'n' then some '\n'
  else if c = 'r' then some '\r'
  else if c = 't' then some '\t'
  else none

def push (c : Char) : Option (List Char × List Char) → Option (List Char × List Char)
  | none => none
  | some (s, rest) => some (c :: s, rest)

def parseChars : List Char → Option (List Char × List Char)
  | [] => none
  | c :: cs =>
    if c = '"' then some ([], cs)
    else if c = '\\' then
      match cs with
      | [] => none
      | e :: cs =>
        if e = 'u' then
          match cs with
          | h₁ :: h₂ :: h₃ :: h₄ :: cs =>
            match readHex4 h₁ h₂ h₃ h₄ with
            | none => none
            | some d => push d (parseChars cs)
          | _ => none
        else
          match unescape e with
          | none => none
          | some d => push d (parseChars cs)
    else if c.toNat < 32 then none
    else push c (parseChars cs)

theorem parseChars_plain {c : Char} (hq : c ≠ '"') (hb : c ≠ '\\') (hc : 32 ≤ c.toNat)
    (rest : List Char) : parseChars (c :: rest) = push c (parseChars rest) := by
  rw [parseChars.eq_def]
  dsimp only
  rw [if_neg hq, if_neg hb, if_neg (Nat.not_lt.mpr hc)]

theorem parseChars_escaped {e c : Char} (hu : e ≠ 'u') (he : unescape e = some c)
    (rest : List Char) : parseChars ('\\' :: e :: rest) = push c (parseChars rest) := by
  rw [parseChars.eq_def]
  dsimp only
  rw [if_neg (by decide), if_pos rfl, if_neg hu, he]

theorem parseChars_hex {c : Char} (hc : c.toNat < 65536) (rest : List Char) :
    parseChars ('\\' :: 'u' :: (hex4 c.toNat ++ rest)) = push c (parseChars rest) := by
  rw [hex4, parseChars.eq_def]
  dsimp only [List.cons_append, List.nil_append]
  rw [if_neg (by decide), if_pos rfl, if_pos rfl, readHex4_hex4 c hc]

/-- The escapes that every printer shares: the quote, the backslash and the control
characters, with letters for the common ones. -/
def escapeControl (c : Char) : List Char :=
  if c = '"' then ['\\', '"']
  else if c = '\\' then ['\\', '\\']
  else if c = '\x08' then ['\\', 'b']
  else if c = '\x0c' then ['\\', 'f']
  else if c = '\n' then ['\\', 'n']
  else if c = '\r' then ['\\', 'r']
  else if c = '\t' then ['\\', 't']
  else if c.toNat < 32 then '\\' :: 'u' :: hex4 c.toNat
  else [c]

theorem parseChars_escapeControl (c : Char) (rest : List Char) :
    parseChars (escapeControl c ++ rest) = push c (parseChars rest) := by
  unfold escapeControl
  split
  · subst c; exact parseChars_escaped (by decide) rfl rest
  split
  · subst c; exact parseChars_escaped (by decide) rfl rest
  split
  · subst c; exact parseChars_escaped (by decide) rfl rest
  split
  · subst c; exact parseChars_escaped (by decide) rfl rest
  split
  · subst c; exact parseChars_escaped (by decide) rfl rest
  split
  · subst c; exact parseChars_escaped (by decide) rfl rest
  split
  · subst c; exact parseChars_escaped (by decide) rfl rest
  split
  · rename_i h
    exact parseChars_hex (Nat.lt_trans h (by decide)) rest
  · rename_i hq hb _ _ _ _ _ hc
    exact parseChars_plain hq hb (Nat.not_lt.mp hc) rest

end Characters

structure Style where
  gap : List Char
  escape : Char → List Char
  blank : ∀ c ∈ gap, Blank c
  reads : ∀ c rest, parseChars (escape c ++ rest) = push c (parseChars rest)

/-- `encoding/json`: no spaces, and the characters that HTML and JavaScript treat
specially are escaped. -/
def compact : Style where
  gap := []
  escape := fun c =>
    if c = '<' ∨ c = '>' ∨ c = '&' ∨ c = '\u2028' ∨ c = '\u2029' then '\\' :: 'u' :: hex4 c.toNat
    else escapeControl c
  blank := by simp
  reads := fun c rest => by
    split
    · rename_i h
      exact parseChars_hex (by rcases h with rfl | rfl | rfl | rfl | rfl <;> decide) rest
    · exact parseChars_escapeControl c rest

/-- The text of a `jsonb` column: one space after every colon and every comma. -/
def spaced : Style where
  gap := [' ']
  escape := escapeControl
  blank := by simp [Blank]
  reads := parseChars_escapeControl

section Print

def quote (y : Style) (s : String) : List Char := '"' :: (s.toList.flatMap y.escape ++ ['"'])

def printInt : ℤ → List Char
  | .ofNat n => Nat.toDigits 10 n
  | .negSucc n => '-' :: Nat.toDigits 10 (n + 1)

mutual

def print (y : Style) : Doc → List Char
  | .num n => printInt n
  | .str s => quote y s
  | .bool true => ['t', 'r', 'u', 'e']
  | .bool false => ['f', 'a', 'l', 's', 'e']
  | .arr [] => ['[', ']']
  | .arr (x :: xs) => '[' :: (print y x ++ printItems y xs)
  | .obj [] => ['\x7b', '\x7d']
  | .obj ((k, x) :: fs) =>
    '\x7b' :: (quote y k ++ ':' :: (y.gap ++ (print y x ++ printFields y fs)))

def printItems (y : Style) : List Doc → List Char
  | [] => [']']
  | x :: xs => ',' :: (y.gap ++ (print y x ++ printItems y xs))

def printFields (y : Style) : List (String × Doc) → List Char
  | [] => ['\x7d']
  | (k, x) :: fs =>
    ',' :: (y.gap ++ (quote y k ++ ':' :: (y.gap ++ (print y x ++ printFields y fs))))

end

end Print

section Parse

def spanDigits : List Char → List Char × List Char
  | [] => ([], [])
  | c :: cs => if c.isDigit then (c :: (spanDigits cs).1, (spanDigits cs).2) else ([], c :: cs)

def parseNat (cs : List Char) : Option (Nat × List Char) :=
  let digits := (spanDigits cs).1
  let rest := (spanDigits cs).2
  let n := Nat.ofDigitChars 10 digits 0
  if Nat.toDigits 10 n ≠ digits then none
  else if rest.head? = some '.' ∨ rest.head? = some 'e' ∨ rest.head? = some 'E' then none
  else some (n, rest)

def parseInt : List Char → Option (ℤ × List Char)
  | [] => none
  | c :: cs =>
    if c = '-' then
      match parseNat cs with
      | none => none
      | some (n, rest) => some (-n, rest)
    else
      match parseNat (c :: cs) with
      | none => none
      | some (n, rest) => some (n, rest)

mutual

def parseValue : Nat → List Char → Option (Doc × List Char)
  | 0, _ => none
  | fuel + 1, cs =>
    match skip cs with
    | [] => none
    | c :: cs =>
      if c = '"' then
        match parseChars cs with
        | none => none
        | some (s, cs) => some (.str (.ofList s), cs)
      else if c = '[' then
        if (skip cs).head? = some ']' then some (.arr [], (skip cs).tail)
        else
          match parseValue fuel cs with
          | none => none
          | some (x, cs) =>
            match parseItems fuel cs with
            | none => none
            | some (xs, cs) => some (.arr (x :: xs), cs)
      else if c = '\x7b' then
        if (skip cs).head? = some '\x7d' then some (.obj [], (skip cs).tail)
        else
          match parseField fuel cs with
          | none => none
          | some (f, cs) =>
            match parseFields fuel cs with
            | none => none
            | some (fs, cs) => some (.obj (f :: fs), cs)
      else if c = 't' then
        if cs.take 3 = ['r', 'u', 'e'] then some (.bool true, cs.drop 3) else none
      else if c = 'f' then
        if cs.take 4 = ['a', 'l', 's', 'e'] then some (.bool false, cs.drop 4) else none
      else
        match parseInt (c :: cs) with
        | none => none
        | some (n, cs) => some (.num n, cs)

def parseItems : Nat → List Char → Option (List Doc × List Char)
  | 0, _ => none
  | fuel + 1, cs =>
    match skip cs with
    | [] => none
    | c :: cs =>
      if c = ']' then some ([], cs)
      else if c = ',' then
        match parseValue fuel cs with
        | none => none
        | some (x, cs) =>
          match parseItems fuel cs with
          | none => none
          | some (xs, cs) => some (x :: xs, cs)
      else none

def parseField : Nat → List Char → Option ((String × Doc) × List Char)
  | 0, _ => none
  | fuel + 1, cs =>
    match skip cs with
    | [] => none
    | c :: cs =>
      if c = '"' then
        match parseChars cs with
        | none => none
        | some (k, cs) =>
          if (skip cs).head? = some ':' then
            match parseValue fuel (skip cs).tail with
            | none => none
            | some (x, cs) => some ((.ofList k, x), cs)
          else none
      else none

def parseFields : Nat → List Char → Option (List (String × Doc) × List Char)
  | 0, _ => none
  | fuel + 1, cs =>
    match skip cs with
    | [] => none
    | c :: cs =>
      if c = '\x7d' then some ([], cs)
      else if c = ',' then
        match parseField fuel cs with
        | none => none
        | some (f, cs) =>
          match parseFields fuel cs with
          | none => none
          | some (fs, cs) => some (f :: fs, cs)
      else none

end

def parse (cs : List Char) : Option Doc :=
  match parseValue (cs.length + 1) cs with
  | none => none
  | some (j, rest) => if skip rest = [] then some j else none

end Parse

section RoundTrip

variable {y : Style}

theorem parseChars_flatMap (s : List Char) (rest : List Char) :
    parseChars (s.flatMap y.escape ++ '"' :: rest) = some (s, rest) := by
  induction s with
  | nil => rw [List.flatMap_nil, List.nil_append, parseChars.eq_def]; rfl
  | cons c s ih => rw [List.flatMap_cons, List.append_assoc, y.reads, ih]; rfl

def Stops (rest : List Char) : Prop := ∀ c ∈ rest.head?, c = ',' ∨ c = ']' ∨ c = '\x7d'

theorem stops_nil : Stops [] := by simp [Stops]

theorem stops_items (xs : List Doc) (rest : List Char) : Stops (printItems y xs ++ rest) := by
  cases xs <;> simp [Stops, printItems]

theorem stops_fields (fs : List (String × Doc)) (rest : List Char) :
    Stops (printFields y fs ++ rest) := by
  cases fs <;> simp [Stops, printFields]

theorem spanDigits_append {ds rest : List Char} (hd : ∀ c ∈ ds, c.isDigit = true)
    (hr : Stops rest) : spanDigits (ds ++ rest) = (ds, rest) := by
  induction ds with
  | nil =>
    cases rest with
    | nil => rfl
    | cons c rest =>
      have hc : c.isDigit = false := by
        rcases hr c rfl with rfl | rfl | rfl <;> rfl
      simp [spanDigits, hc]
  | cons c ds ih =>
    have hc := hd c List.mem_cons_self
    rw [List.cons_append, spanDigits, if_pos hc, ih fun c hc => hd c (List.mem_cons_of_mem _ hc)]

theorem parseNat_toDigits (n : Nat) {rest : List Char} (hr : Stops rest) :
    parseNat (Nat.toDigits 10 n ++ rest) = some (n, rest) := by
  have hd : ∀ c ∈ Nat.toDigits 10 n, c.isDigit = true :=
    fun c hc => Nat.isDigit_of_mem_toDigits (by decide) (by decide) hc
  have hn : Nat.ofDigitChars 10 (Nat.toDigits 10 n) 0 = n :=
    Nat.ofDigitChars_toDigits (by decide) (by decide)
  have hrest : ¬ (rest.head? = some '.' ∨ rest.head? = some 'e' ∨ rest.head? = some 'E') := by
    rintro (h | h | h) <;> rcases hr _ h with hc | hc | hc <;> simp at hc
  unfold parseNat
  simp only [spanDigits_append hd hr, hn, ne_eq, not_true_eq_false, if_false, if_neg hrest]

theorem parseInt_printInt (n : ℤ) {rest : List Char} (hr : Stops rest) :
    parseInt (printInt n ++ rest) = some (n, rest) := by
  cases n with
  | negSucc n =>
    rw [printInt, List.cons_append, parseInt, if_pos rfl, parseNat_toDigits _ hr]
    rfl
  | ofNat n =>
    have hparse := parseNat_toDigits n hr
    rw [printInt]
    cases hds : Nat.toDigits 10 n with
    | nil => exact absurd hds Nat.toDigits_ne_nil
    | cons c ds =>
      have hc : c.isDigit = true :=
        Nat.isDigit_of_mem_toDigits (b := 10) (n := n) (by decide) (by decide)
          (by rw [hds]; exact List.mem_cons_self)
      rw [hds] at hparse
      rw [List.cons_append, parseInt, if_neg (by rintro rfl; simp at hc)]
      rw [List.cons_append] at hparse
      rw [hparse]
      rfl

theorem printInt_cons (n : ℤ) :
    ∃ c cs, printInt n = c :: cs ∧ (c = '-' ∨ c.isDigit = true) := by
  cases n with
  | negSucc n => exact ⟨'-', _, rfl, .inl rfl⟩
  | ofNat n =>
    cases hds : Nat.toDigits 10 n with
    | nil => exact absurd hds Nat.toDigits_ne_nil
    | cons c ds =>
      refine ⟨c, ds, hds, .inr ?_⟩
      exact Nat.isDigit_of_mem_toDigits (b := 10) (n := n) (by decide) (by decide)
        (by rw [hds]; exact List.mem_cons_self)

theorem ne_of_number {c d : Char} (hc : c = '-' ∨ c.isDigit = true) (hd : d ≠ '-')
    (hd' : d.isDigit = false) : c ≠ d := by
  rintro rfl
  rcases hc with hc | hc
  · exact hd hc
  · simp [hd'] at hc

theorem not_blank_of_number {c : Char} (hc : c = '-' ∨ c.isDigit = true) : ¬ Blank c := by
  rintro (h | h | h | h)
  · exact ne_of_number hc (by decide) (by decide) h
  · exact ne_of_number hc (by decide) (by decide) h
  · exact ne_of_number hc (by decide) (by decide) h
  · exact ne_of_number hc (by decide) (by decide) h

theorem print_cons (j : Doc) : ∃ c cs, print y j = c :: cs ∧ ¬ Blank c ∧ c ≠ ']' := by
  cases j with
  | num n =>
    obtain ⟨c, cs, h, hc⟩ := printInt_cons n
    exact ⟨c, cs, by rw [print, h], not_blank_of_number hc,
      ne_of_number hc (by decide) (by decide)⟩
  | str s => exact ⟨'"', _, by rw [print, quote], by decide, by decide⟩
  | bool b =>
    cases b with
    | true => exact ⟨'t', _, by rw [print], by decide, by decide⟩
    | false => exact ⟨'f', _, by rw [print], by decide, by decide⟩
  | arr xs =>
    cases xs with
    | nil => exact ⟨'[', _, by rw [print], by decide, by decide⟩
    | cons x xs => exact ⟨'[', _, by rw [print], by decide, by decide⟩
  | obj fs =>
    cases fs with
    | nil => exact ⟨'\x7b', _, by rw [print], by decide, by decide⟩
    | cons f fs => exact ⟨'\x7b', _, by rw [print], by decide, by decide⟩

theorem parseValue_gap (fuel : Nat) (cs : List Char) :
    parseValue fuel (y.gap ++ cs) = parseValue fuel cs := by
  cases fuel with
  | zero => rw [parseValue, parseValue]
  | succ fuel => rw [parseValue, parseValue, skip_append y.blank]

theorem parseField_gap (fuel : Nat) (cs : List Char) :
    parseField fuel (y.gap ++ cs) = parseField fuel cs := by
  cases fuel with
  | zero => rw [parseField, parseField]
  | succ fuel => rw [parseField, parseField, skip_append y.blank]

theorem parseValue_num (n : ℤ) (fuel : Nat) {rest : List Char} (hr : Stops rest) :
    parseValue (fuel + 1) (print y (.num n) ++ rest) = some (.num n, rest) := by
  have hparse := parseInt_printInt n hr
  obtain ⟨c, cs, h, hc⟩ := printInt_cons n
  rw [h, List.cons_append] at hparse
  rw [print, h, List.cons_append, parseValue, skip_cons (not_blank_of_number hc)]
  dsimp only
  rw [if_neg (ne_of_number hc (by decide) (by decide)),
    if_neg (ne_of_number hc (by decide) (by decide)),
    if_neg (ne_of_number hc (by decide) (by decide)),
    if_neg (ne_of_number hc (by decide) (by decide)),
    if_neg (ne_of_number hc (by decide) (by decide)), hparse]

theorem parseChars_quote (s : String) (rest : List Char) :
    ∃ cs, quote y s ++ rest = '"' :: cs ∧ parseChars cs = some (s.toList, rest) := by
  refine ⟨s.toList.flatMap y.escape ++ '"' :: rest, ?_, parseChars_flatMap _ _⟩
  simp [quote]

theorem parseValue_str (s : String) (fuel : Nat) (rest : List Char) :
    parseValue (fuel + 1) (print y (.str s) ++ rest) = some (.str s, rest) := by
  obtain ⟨cs, h, hparse⟩ := parseChars_quote (y := y) s rest
  rw [print, h, parseValue, skip_cons (by decide)]
  dsimp only
  rw [if_pos rfl, hparse]
  simp

theorem parseField_quote {k : String} {x : Doc} {fuel : Nat} {text rest : List Char}
    (hx : parseValue fuel (text ++ rest) = some (x, rest)) :
    parseField (fuel + 1) (quote y k ++ ':' :: (y.gap ++ (text ++ rest))) = some ((k, x), rest) := by
  obtain ⟨cs, h, hparse⟩ := parseChars_quote (y := y) k (':' :: (y.gap ++ (text ++ rest)))
  rw [h, parseField, skip_cons (by decide)]
  dsimp only
  rw [if_pos rfl, hparse]
  dsimp only
  rw [skip_cons (by decide), List.head?_cons, if_pos rfl, List.tail_cons, parseValue_gap, hx]
  simp

mutual

theorem parseValue_print : ∀ (j : Doc) (fuel : Nat) (rest : List Char),
    (print y j).length ≤ fuel → Stops rest →
      parseValue fuel (print y j ++ rest) = some (j, rest)
  | j, 0, rest, hf, _ => by
    obtain ⟨c, cs, h, -⟩ := print_cons (y := y) j
    simp [h] at hf
  | .num n, fuel + 1, rest, _, hr => parseValue_num n fuel hr
  | .str s, fuel + 1, rest, _, _ => parseValue_str s fuel rest
  | .bool true, fuel + 1, rest, _, _ => by
    rw [print, parseValue, List.cons_append, skip_cons (by decide)]
    rfl
  | .bool false, fuel + 1, rest, _, _ => by
    rw [print, parseValue, List.cons_append, skip_cons (by decide)]
    rfl
  | .arr [], fuel + 1, rest, _, _ => by
    rw [print, parseValue, List.cons_append, skip_cons (by decide)]
    rfl
  | .arr (x :: xs), fuel + 1, rest, hf, hr => by
    have hlen : (print y x).length + (printItems y xs).length ≤ fuel := by
      simpa [print] using hf
    have hx := parseValue_print x fuel (printItems y xs ++ rest) (by omega) (stops_items xs rest)
    have hxs := parseItems_print xs fuel rest (by omega)
    obtain ⟨c, cs, hc, hblank, hclose⟩ := print_cons (y := y) x
    have hhead : (skip (print y x ++ (printItems y xs ++ rest))).head? ≠ some ']' := by
      rw [hc, List.cons_append, skip_cons hblank]
      simpa using hclose
    rw [print, parseValue, List.cons_append, skip_cons (by decide)]
    dsimp only
    rw [if_neg (by decide), if_pos rfl, List.append_assoc, if_neg hhead, hx]
    dsimp only
    rw [hxs]
  | .obj [], fuel + 1, rest, _, _ => by
    rw [print, parseValue, List.cons_append, skip_cons (by decide)]
    rfl
  | .obj ((k, x) :: fs), fuel + 1, rest, hf, hr => by
    have hlen : (quote y k).length + (print y x).length + (printFields y fs).length ≤ fuel := by
      have : (print y (.obj ((k, x) :: fs))).length = (quote y k).length + 1 + y.gap.length +
          (print y x).length + (printFields y fs).length + 1 := by
        simp [print]
        omega
      omega
    have hq : 0 < (quote y k).length := by simp [quote]
    obtain ⟨fuel, rfl⟩ : ∃ f, fuel = f + 1 := ⟨fuel - 1, by omega⟩
    have hx := parseValue_print x fuel (printFields y fs ++ rest) (by omega) (stops_fields fs rest)
    have hfs := parseFields_print fs (fuel + 1) rest (by omega)
    obtain ⟨cs, hc, -⟩ := parseChars_quote (y := y) k
      (':' :: (y.gap ++ (print y x ++ (printFields y fs ++ rest))))
    have hhead : (skip (quote y k ++
        ':' :: (y.gap ++ (print y x ++ (printFields y fs ++ rest))))).head? ≠ some '\x7d' := by
      rw [hc, skip_cons (by decide)]
      simp
    rw [print, parseValue, List.cons_append, skip_cons (by decide)]
    dsimp only
    rw [if_neg (by decide), if_neg (by decide), if_pos rfl]
    simp only [List.append_assoc, List.cons_append]
    rw [if_neg hhead, parseField_quote hx]
    dsimp only
    rw [hfs]

theorem parseItems_print : ∀ (xs : List Doc) (fuel : Nat) (rest : List Char),
    (printItems y xs).length ≤ fuel → parseItems fuel (printItems y xs ++ rest) = some (xs, rest)
  | [], 0, _, hf => by simp [printItems] at hf
  | _ :: _, 0, _, hf => by simp [printItems] at hf
  | [], fuel + 1, rest, _ => by
    rw [printItems, parseItems, List.cons_append, skip_cons (by decide)]
    rfl
  | x :: xs, fuel + 1, rest, hf => by
    have hlen : (print y x).length + (printItems y xs).length ≤ fuel := by
      simp only [printItems, List.length_cons, List.length_append] at hf
      omega
    have hx := parseValue_print x fuel (printItems y xs ++ rest) (by omega) (stops_items xs rest)
    have hxs := parseItems_print xs fuel rest (by omega)
    rw [printItems, parseItems, List.cons_append, skip_cons (by decide)]
    dsimp only
    rw [if_neg (by decide), if_pos rfl]
    simp only [List.append_assoc]
    rw [parseValue_gap, hx]
    dsimp only
    rw [hxs]

theorem parseFields_print : ∀ (fs : List (String × Doc)) (fuel : Nat) (rest : List Char),
    (printFields y fs).length ≤ fuel →
      parseFields fuel (printFields y fs ++ rest) = some (fs, rest)
  | [], 0, _, hf => by simp [printFields] at hf
  | _ :: _, 0, _, hf => by simp [printFields] at hf
  | [], fuel + 1, rest, _ => by
    rw [printFields, parseFields, List.cons_append, skip_cons (by decide)]
    rfl
  | (k, x) :: fs, fuel + 1, rest, hf => by
    have hlen : (quote y k).length + (print y x).length + (printFields y fs).length ≤ fuel := by
      simp only [printFields, List.length_cons, List.length_append] at hf
      omega
    have hq : 0 < (quote y k).length := by simp [quote]
    obtain ⟨fuel, rfl⟩ : ∃ f, fuel = f + 1 := ⟨fuel - 1, by omega⟩
    have hx := parseValue_print x fuel (printFields y fs ++ rest) (by omega) (stops_fields fs rest)
    have hfs := parseFields_print fs (fuel + 1) rest (by omega)
    rw [printFields, parseFields, List.cons_append, skip_cons (by decide)]
    dsimp only
    rw [if_neg (by decide), if_pos rfl]
    simp only [List.append_assoc, List.cons_append]
    rw [parseField_gap, parseField_quote hx]
    dsimp only
    rw [hfs]

end

theorem parse_print (y : Style) (j : Doc) : parse (print y j) = some j := by
  have h := parseValue_print (y := y) j ((print y j).length + 1) [] (by omega) stops_nil
  rw [List.append_nil] at h
  rw [parse, h]
  rfl

end RoundTrip

section Size

def textSize (cs : List Char) : Nat := (cs.map Char.utf8Size).sum

@[simp] theorem textSize_nil : textSize [] = 0 := rfl

@[simp] theorem textSize_cons (c : Char) (cs : List Char) :
    textSize (c :: cs) = c.utf8Size + textSize cs := by simp [textSize]

@[simp] theorem textSize_append (cs ds : List Char) :
    textSize (cs ++ ds) = textSize cs + textSize ds := by simp [textSize]

def quoteSize (y : Style) (s : String) : Nat :=
  (s.toList.map fun c => textSize (y.escape c)).sum + 2

mutual

def size (y : Style) : Doc → Nat
  | .num n => textSize (printInt n)
  | .str s => quoteSize y s
  | .bool true => 4
  | .bool false => 5
  | .arr xs => sizeItems y xs + (xs.length - 1) * (textSize y.gap + 1) + 2
  | .obj fs => sizeFields y fs + (fs.length - 1) * (textSize y.gap + 1) + 2

def sizeItems (y : Style) : List Doc → Nat
  | [] => 0
  | x :: xs => size y x + sizeItems y xs

def sizeFields (y : Style) : List (String × Doc) → Nat
  | [] => 0
  | (k, x) :: fs => quoteSize y k + (textSize y.gap + 1) + size y x + sizeFields y fs

end

variable {y : Style}

theorem size_str (s : String) : size y (.str s) = quoteSize y s := by rw [size]

theorem size_obj (fs : List (String × Doc)) :
    size y (.obj fs) = sizeFields y fs + (fs.length - 1) * (textSize y.gap + 1) + 2 := by rw [size]

theorem textSize_quote (s : String) : textSize (quote y s) = quoteSize y s := by
  have h : ∀ cs : List Char, textSize (cs.flatMap y.escape) =
      (cs.map fun c => textSize (y.escape c)).sum := by
    intro cs
    induction cs with
    | nil => rfl
    | cons c cs ih => simp [ih]
  have hq : ('"').utf8Size = 1 := by decide
  simp only [quote, quoteSize, textSize_cons, textSize_append, textSize_nil, h, hq]
  omega

mutual

theorem textSize_print : ∀ j : Doc, textSize (print y j) = size y j
  | .num _ => by rw [print, size]
  | .str s => by rw [print, size, textSize_quote]
  | .bool true => by rw [print, size]; decide
  | .bool false => by rw [print, size]; decide
  | .arr [] => by rw [print, size]; simp [sizeItems]; decide
  | .arr (x :: xs) => by
    have hx := textSize_print x
    have hxs := textSize_printItems xs
    have hb : ('[').utf8Size = 1 := by decide
    simp only [print, size, sizeItems, textSize_cons, textSize_append, List.length_cons, hx, hxs,
      hb, Nat.add_sub_cancel]
    omega
  | .obj [] => by rw [print, size]; simp [sizeFields]; decide
  | .obj ((k, x) :: fs) => by
    have hx := textSize_print x
    have hfs := textSize_printFields fs
    have hb : ('\x7b').utf8Size = 1 := by decide
    have hc : (':').utf8Size = 1 := by decide
    simp only [print, size, sizeFields, textSize_cons, textSize_append, List.length_cons, hx, hfs,
      hb, hc, textSize_quote, Nat.add_sub_cancel]
    omega

theorem textSize_printItems : ∀ xs : List Doc,
    textSize (printItems y xs) = sizeItems y xs + xs.length * (textSize y.gap + 1) + 1
  | [] => by simp [printItems, sizeItems]; decide
  | x :: xs => by
    have hx := textSize_print x
    have hxs := textSize_printItems xs
    have hc : (',').utf8Size = 1 := by decide
    simp only [printItems, sizeItems, textSize_cons, textSize_append, List.length_cons, hx, hxs, hc,
      Nat.succ_mul]
    omega

theorem textSize_printFields : ∀ fs : List (String × Doc),
    textSize (printFields y fs) = sizeFields y fs + fs.length * (textSize y.gap + 1) + 1
  | [] => by simp [printFields, sizeFields]; decide
  | (k, x) :: fs => by
    have hx := textSize_print x
    have hfs := textSize_printFields fs
    have hc : (',').utf8Size = 1 := by decide
    have hd : (':').utf8Size = 1 := by decide
    simp only [printFields, sizeFields, textSize_cons, textSize_append, List.length_cons, hx, hfs,
      hc, hd, textSize_quote, Nat.succ_mul]
    omega

end

theorem sizeItems_eq_sum (xs : List Doc) : sizeItems y xs = (xs.map (size y)).sum := by
  induction xs with
  | nil => rw [sizeItems]; rfl
  | cons x xs ih => rw [sizeItems, ih]; rfl

theorem textSize_of_digits {cs : List Char} (h : ∀ c ∈ cs, c.isDigit = true) :
    textSize cs = cs.length := by
  induction cs with
  | nil => rfl
  | cons c cs ih =>
    have hc := h c List.mem_cons_self
    have hsize : c.utf8Size = 1 := by
      simp only [Char.isDigit, Bool.and_eq_true, decide_eq_true_eq] at hc
      exact Char.utf8Size_eq_one_iff.mpr (UInt32.le_trans hc.2 (by decide))
    rw [textSize_cons, hsize, ih fun c hc => h c (List.mem_cons_of_mem _ hc), List.length_cons]
    exact Nat.add_comm ..

theorem textSize_printInt_le {n : ℤ} {k : Nat} (h₀ : 0 ≤ n) (hk : 0 < k) (hn : n < 10 ^ k) :
    textSize (printInt n) ≤ k := by
  obtain ⟨m, rfl⟩ := Int.eq_ofNat_of_zero_le h₀
  have hd : ∀ c ∈ Nat.toDigits 10 m, c.isDigit = true :=
    fun c hc => Nat.isDigit_of_mem_toDigits (by decide) (by decide) hc
  have hm : m < 10 ^ k := by exact_mod_cast hn
  calc textSize (printInt m) = (Nat.toDigits 10 m).length := textSize_of_digits hd
    _ ≤ k := Nat.toDigits_length 10 m k hk hm

end Size

section Separators

mutual

def separators : Doc → Nat
  | .num _ | .str _ | .bool _ => 0
  | .arr xs => separatorsItems xs + (xs.length - 1)
  | .obj fs => separatorsFields fs + (fs.length + (fs.length - 1))

def separatorsItems : List Doc → Nat
  | [] => 0
  | x :: xs => separators x + separatorsItems xs

def separatorsFields : List (String × Doc) → Nat
  | [] => 0
  | (_, x) :: fs => separators x + separatorsFields fs

end

theorem textSize_spaced_escape_le (c : Char) :
    textSize (spaced.escape c) ≤ textSize (compact.escape c) := by
  change textSize (escapeControl c) ≤ textSize (if c = '<' ∨ c = '>' ∨ c = '&' ∨ c = '\u2028' ∨
    c = '\u2029' then '\\' :: 'u' :: hex4 c.toNat else escapeControl c)
  split
  · rename_i h
    rcases h with rfl | rfl | rfl | rfl | rfl <;> decide
  · exact Nat.le_refl _

theorem quoteSize_spaced_le (s : String) : quoteSize spaced s ≤ quoteSize compact s := by
  have h : ∀ cs : List Char, (cs.map fun c => textSize (spaced.escape c)).sum ≤
      (cs.map fun c => textSize (compact.escape c)).sum := by
    intro cs
    induction cs with
    | nil => exact Nat.le_refl _
    | cons c cs ih =>
      have hc := textSize_spaced_escape_le c
      simp only [List.map_cons, List.sum_cons]
      omega
  exact Nat.add_le_add_right (h s.toList) 2

theorem textSize_gap : textSize spaced.gap = 1 ∧ textSize compact.gap = 0 := by decide

mutual

theorem size_spaced_le : ∀ j : Doc, size spaced j ≤ size compact j + separators j
  | .num _ => by rw [size, size, separators]; exact Nat.le_refl _
  | .str s => by rw [size, size, separators]; exact quoteSize_spaced_le s
  | .bool b => by cases b <;> rw [size, size, separators]
  | .arr xs => by
    have h := sizeItems_spaced_le xs
    rw [size, size, separators, textSize_gap.1, textSize_gap.2]
    omega
  | .obj fs => by
    have h := sizeFields_spaced_le fs
    rw [size, size, separators, textSize_gap.1, textSize_gap.2]
    omega

theorem sizeItems_spaced_le : ∀ xs : List Doc,
    sizeItems spaced xs ≤ sizeItems compact xs + separatorsItems xs
  | [] => by rw [sizeItems, sizeItems, separatorsItems]
  | x :: xs => by
    have hx := size_spaced_le x
    have hxs := sizeItems_spaced_le xs
    rw [sizeItems, sizeItems, separatorsItems]
    omega

theorem sizeFields_spaced_le : ∀ fs : List (String × Doc),
    sizeFields spaced fs ≤ sizeFields compact fs + (separatorsFields fs + fs.length)
  | [] => by rw [sizeFields, sizeFields, separatorsFields]; exact Nat.le_refl _
  | (k, x) :: fs => by
    have hk := quoteSize_spaced_le k
    have hx := size_spaced_le x
    have hfs := sizeFields_spaced_le fs
    rw [sizeFields, sizeFields, separatorsFields, textSize_gap.1, textSize_gap.2, List.length_cons]
    omega

end

end Separators

section Order

mutual

/-- The document with the fields of every object in the order that `order` gives them. -/
def reorder (order : List (String × Doc) → List (String × Doc)) : Doc → Doc
  | .num n => .num n
  | .str s => .str s
  | .bool b => .bool b
  | .arr xs => .arr (reorderItems order xs)
  | .obj fs => .obj (order (reorderFields order fs))

def reorderItems (order : List (String × Doc) → List (String × Doc)) : List Doc → List Doc
  | [] => []
  | x :: xs => reorder order x :: reorderItems order xs

def reorderFields (order : List (String × Doc) → List (String × Doc)) :
    List (String × Doc) → List (String × Doc)
  | [] => []
  | (k, x) :: fs => (k, reorder order x) :: reorderFields order fs

end

variable {y : Style} {order : List (String × Doc) → List (String × Doc)}

@[simp] theorem reorder_num (n : ℤ) : reorder order (.num n) = .num n := by rw [reorder]

@[simp] theorem reorder_str (s : String) : reorder order (.str s) = .str s := by rw [reorder]

@[simp] theorem reorder_bool (b : Bool) : reorder order (.bool b) = .bool b := by rw [reorder]

theorem reorderItems_eq_map (xs : List Doc) :
    reorderItems order xs = xs.map (reorder order) := by
  induction xs with
  | nil => rw [reorderItems]; rfl
  | cons x xs ih => rw [reorderItems, ih]; rfl

theorem sizeFields_eq_sum (fs : List (String × Doc)) :
    sizeFields y fs =
      (fs.map fun f => quoteSize y f.1 + (textSize y.gap + 1) + size y f.2).sum := by
  induction fs with
  | nil => rw [sizeFields]; rfl
  | cons f fs ih => rw [sizeFields, ih]; rfl

mutual

theorem size_reorder (perm : ∀ fs, (order fs).Perm fs) :
    ∀ j : Doc, size y (reorder order j) = size y j
  | .num _ | .str _ | .bool _ => by rw [reorder]
  | .arr xs => by
    have h := sizeItems_reorder perm xs
    have hl : (reorderItems order xs).length = xs.length := by
      rw [reorderItems_eq_map, List.length_map]
    rw [reorder, size, size, h, hl]
  | .obj fs => by
    have h := sizeFields_reorder perm fs
    have hsum : sizeFields y (order (reorderFields order fs)) =
        sizeFields y (reorderFields order fs) := by
      rw [sizeFields_eq_sum, sizeFields_eq_sum]
      exact ((perm _).map _).sum_eq
    rw [reorder, size, size, hsum, h.1, (perm _).length_eq, h.2]

theorem sizeItems_reorder (perm : ∀ fs, (order fs).Perm fs) :
    ∀ xs : List Doc, sizeItems y (reorderItems order xs) = sizeItems y xs
  | [] => by rw [reorderItems]
  | x :: xs => by
    rw [reorderItems, sizeItems, sizeItems, size_reorder perm x, sizeItems_reorder perm xs]

theorem sizeFields_reorder (perm : ∀ fs, (order fs).Perm fs) : ∀ fs : List (String × Doc),
    sizeFields y (reorderFields order fs) = sizeFields y fs ∧
      (reorderFields order fs).length = fs.length
  | [] => by rw [reorderFields]; exact ⟨rfl, rfl⟩
  | (k, x) :: fs => by
    have h := sizeFields_reorder perm fs
    rw [reorderFields, sizeFields, sizeFields, size_reorder perm x, h.1, List.length_cons, h.2]
    exact ⟨rfl, rfl⟩

end

mutual

theorem reorder_id : ∀ j : Doc, reorder id j = j
  | .num _ | .str _ | .bool _ => by rw [reorder]
  | .arr xs => by rw [reorder, reorderItems_id xs]
  | .obj fs => by rw [reorder, reorderFields_id fs, id]

theorem reorderItems_id : ∀ xs : List Doc, reorderItems id xs = xs
  | [] => by rw [reorderItems]
  | x :: xs => by rw [reorderItems, reorder_id x, reorderItems_id xs]

theorem reorderFields_id : ∀ fs : List (String × Doc), reorderFields id fs = fs
  | [] => by rw [reorderFields]
  | (k, x) :: fs => by rw [reorderFields, reorder_id x, reorderFields_id fs]

end

end Order

end Doc

end WaitingRoom
