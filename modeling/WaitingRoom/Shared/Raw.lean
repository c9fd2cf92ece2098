import WaitingRoom.Shared.Runes

/-!
# Raw JSON inside JSON

A `json.RawMessage` keeps the text of a value. A decoder hands over the characters
of the value as they stand; an encoder writes them again without the blanks between
them and with the characters escaped that HTML and JavaScript treat specially. What
the compact style prints is already so, and an object is read back as the texts of
its values.
-/

namespace WaitingRoom.Doc

set_option autoImplicit false

section Tighten

def Markup (c : Char) : Prop := c = '<' ∨ c = '>' ∨ c = '&' ∨ c = '\u2028' ∨ c = '\u2029'
  deriving Decidable

/-- `appendCompact` with escapes, outside of a string or inside one. -/
def tighten : Bool → List Char → List Char
  | _, [] => []
  | false, c :: cs => if Blank c then tighten false cs else c :: tighten (decide (c = '"')) cs
  | true, c :: cs =>
    if c = '\\' then
      match cs with
      | [] => [c]
      | d :: cs => c :: d :: tighten true cs
    else if c = '"' then c :: tighten false cs
    else if Markup c then '\\' :: 'u' :: (hex4 c.toNat ++ tighten true cs)
    else c :: tighten true cs

theorem tighten_plain {c : Char} (hslash : c ≠ '\\') (hquote : c ≠ '"') (hmarkup : ¬ Markup c)
    (rest : List Char) : tighten true (c :: rest) = c :: tighten true rest := by
  rw [tighten.eq_def]
  dsimp only
  rw [if_neg hslash, if_neg hquote, if_neg hmarkup]

theorem tighten_slash (c : Char) (rest : List Char) :
    tighten true ('\\' :: c :: rest) = '\\' :: c :: tighten true rest := by
  rw [tighten, if_pos rfl]

theorem hexDigit_plain :
    ∀ n < 16, hexDigit n ≠ '\\' ∧ hexDigit n ≠ '"' ∧ ¬ Markup (hexDigit n) := by decide

theorem tighten_hex (n : Nat) (rest : List Char) :
    tighten true ('\\' :: 'u' :: (hex4 n ++ rest)) = '\\' :: 'u' :: (hex4 n ++ tighten true rest) := by
  have digit : ∀ m rest, tighten true (hexDigit (m % 16) :: rest) =
      hexDigit (m % 16) :: tighten true rest := by
    intro m rest
    obtain ⟨hslash, hquote, hmarkup⟩ := hexDigit_plain (m % 16) (Nat.mod_lt _ (by decide))
    exact tighten_plain hslash hquote hmarkup rest
  rw [tighten_slash]
  simp only [hex4, List.cons_append, List.nil_append, digit]

theorem tighten_escape (c : Char) (rest : List Char) :
    tighten true (compact.escape c ++ rest) = compact.escape c ++ tighten true rest := by
  change tighten true ((if Markup c then '\\' :: 'u' :: hex4 c.toNat else escapeControl c) ++ rest) =
    (if Markup c then '\\' :: 'u' :: hex4 c.toNat else escapeControl c) ++ tighten true rest
  by_cases hmarkup : Markup c
  · rw [if_pos hmarkup]
    exact tighten_hex _ rest
  · rw [if_neg hmarkup]
    unfold escapeControl
    split
    · exact tighten_slash _ rest
    split
    · exact tighten_slash _ rest
    split
    · exact tighten_slash _ rest
    split
    · exact tighten_slash _ rest
    split
    · exact tighten_slash _ rest
    split
    · exact tighten_slash _ rest
    split
    · exact tighten_slash _ rest
    split
    · exact tighten_hex _ rest
    · rename_i hquote hslash _ _ _ _ _ _
      exact tighten_plain hslash hquote hmarkup rest

theorem tighten_quote (s : String) (rest : List Char) :
    tighten false (quote compact s ++ rest) = quote compact s ++ tighten false rest := by
  have inside : ∀ cs : List Char, tighten true (cs.flatMap compact.escape ++ '"' :: rest) =
      cs.flatMap compact.escape ++ '"' :: tighten false rest := by
    intro cs
    induction cs with
    | nil =>
      rw [List.flatMap_nil, List.nil_append, tighten.eq_def]
      rfl
    | cons c cs ih =>
      rw [List.flatMap_cons, List.append_assoc, tighten_escape, ih, List.append_assoc]
  have hquote : decide (('"' : Char) = '"') = true := rfl
  rw [quote, List.cons_append, tighten, if_neg (by decide), hquote, List.append_assoc,
    List.singleton_append, inside]
  simp

theorem tighten_char {c : Char} (h : ¬ Blank c ∧ c ≠ '"') (rest : List Char) :
    tighten false (c :: rest) = c :: tighten false rest := by
  rw [tighten, if_neg h.1, decide_eq_false h.2]

theorem tighten_outside {cs : List Char} (h : ∀ c ∈ cs, ¬ Blank c ∧ c ≠ '"') (rest : List Char) :
    tighten false (cs ++ rest) = cs ++ tighten false rest := by
  induction cs with
  | nil => rfl
  | cons c cs ih =>
    obtain ⟨hc, hcs⟩ := List.forall_mem_cons.mp h
    rw [List.cons_append, tighten_char hc, ih hcs, List.cons_append]

theorem printInt_outside (n : ℤ) : ∀ c ∈ printInt n, ¬ Blank c ∧ c ≠ '"' := by
  have digits : ∀ m : Nat, ∀ c ∈ Nat.toDigits 10 m, ¬ Blank c ∧ c ≠ '"' := by
    intro m c hc
    have hdigit : c = '-' ∨ c.isDigit = true :=
      .inr (Nat.isDigit_of_mem_toDigits (by decide) (by decide) hc)
    exact ⟨not_blank_of_number hdigit, ne_of_number hdigit (by decide) (by decide)⟩
  cases n with
  | ofNat n => exact digits n
  | negSucc n =>
    intro c hc
    rcases List.mem_cons.mp hc with rfl | hc
    · exact ⟨by decide, by decide⟩
    · exact digits _ c hc

theorem print_compact (k : String) (x : Doc) (fs : List (String × Doc)) (rest : List Char) :
    print compact (.obj ((k, x) :: fs)) ++ rest = '\x7b' :: (quote compact k ++
      ':' :: (print compact x ++ (printFields compact fs ++ rest))) := by
  rw [print]
  simp [compact]

theorem printFields_compact (k : String) (x : Doc) (fs : List (String × Doc)) (rest : List Char) :
    printFields compact ((k, x) :: fs) ++ rest = ',' :: (quote compact k ++
      ':' :: (print compact x ++ (printFields compact fs ++ rest))) := by
  rw [printFields]
  simp [compact]

mutual

theorem tighten_print : ∀ (j : Doc) (rest : List Char),
    tighten false (print compact j ++ rest) = print compact j ++ tighten false rest
  | .num n, rest => by
    rw [print]
    exact tighten_outside (printInt_outside n) rest
  | .str s, rest => by
    rw [print]
    exact tighten_quote s rest
  | .bool true, rest => by
    rw [print]
    exact tighten_outside (by decide) rest
  | .bool false, rest => by
    rw [print]
    exact tighten_outside (by decide) rest
  | .arr [], rest => by
    rw [print]
    exact tighten_outside (by decide) rest
  | .arr (x :: xs), rest => by
    rw [print, List.cons_append, List.append_assoc, tighten_char (by decide), tighten_print x,
      tighten_printItems xs, List.cons_append, List.append_assoc]
  | .obj [], rest => by
    rw [print]
    exact tighten_outside (by decide) rest
  | .obj ((k, x) :: fs), rest => by
    rw [print_compact, print_compact, tighten_char (by decide), tighten_quote,
      tighten_char (by decide), tighten_print x, tighten_printFields fs]

theorem tighten_printItems : ∀ (xs : List Doc) (rest : List Char),
    tighten false (printItems compact xs ++ rest) = printItems compact xs ++ tighten false rest
  | [], rest => by
    rw [printItems]
    exact tighten_outside (by decide) rest
  | x :: xs, rest => by
    have hprint : ∀ rest, printItems compact (x :: xs) ++ rest =
        ',' :: (print compact x ++ (printItems compact xs ++ rest)) := by
      intro rest
      rw [printItems]
      simp [compact]
    rw [hprint, hprint, tighten_char (by decide), tighten_print x, tighten_printItems xs]

theorem tighten_printFields : ∀ (fs : List (String × Doc)) (rest : List Char),
    tighten false (printFields compact fs ++ rest) = printFields compact fs ++ tighten false rest
  | [], rest => by
    rw [printFields]
    exact tighten_outside (by decide) rest
  | (k, x) :: fs, rest => by
    rw [printFields_compact, printFields_compact, tighten_char (by decide), tighten_quote,
      tighten_char (by decide), tighten_print x, tighten_printFields fs]

end

theorem tighten_compact (j : Doc) : tighten false (print compact j) = print compact j := by
  have h := tighten_print j []
  rwa [List.append_nil, tighten, List.append_nil] at h

end Tighten

section Raw

def rawValue (cs : List Char) : Option (List Char × List Char) :=
  let cs := skip cs
  match parseValue (cs.length + 1) cs with
  | none => none
  | some (_, rest) => some (cs.take (cs.length - rest.length), rest)

def rawField (cs : List Char) : Option ((String × List Char) × List Char) :=
  match skip cs with
  | [] => none
  | c :: cs =>
    if c = '"' then
      match parseChars cs with
      | none => none
      | some (k, cs) =>
        if (skip cs).head? = some ':' then
          match rawValue (skip cs).tail with
          | none => none
          | some (text, rest) => some ((.ofList k, text), rest)
        else none
    else none

def rawFields : Nat → List Char → Option (List (String × List Char) × List Char)
  | 0, _ => none
  | fuel + 1, cs =>
    match skip cs with
    | [] => none
    | c :: cs =>
      if c = '\x7d' then some ([], cs)
      else if c = ',' then
        match rawField cs with
        | none => none
        | some (f, cs) =>
          match rawFields fuel cs with
          | none => none
          | some (fs, cs) => some (f :: fs, cs)
      else none

def rawObject (cs : List Char) : Option (List (String × List Char)) :=
  match skip cs with
  | [] => none
  | c :: cs =>
    if c = '\x7b' then
      if (skip cs).head? = some '\x7d' then
        if skip (skip cs).tail = [] then some [] else none
      else
        match rawField cs with
        | none => none
        | some (f, cs) =>
          match rawFields (cs.length + 1) cs with
          | none => none
          | some (fs, rest) => if skip rest = [] then some (f :: fs) else none
    else none

theorem rawValue_print (j : Doc) {rest : List Char} (hr : Stops rest) :
    rawValue (print compact j ++ rest) = some (print compact j, rest) := by
  obtain ⟨c, cs, hc, hblank, -⟩ := print_cons (y := compact) j
  have hskip : skip (print compact j ++ rest) = print compact j ++ rest := by
    rw [hc, List.cons_append, skip_cons hblank]
  have hlength : (print compact j).length ≤ (print compact j ++ rest).length + 1 := by
    rw [List.length_append]
    omega
  rw [rawValue, hskip, parseValue_print j _ rest hlength hr]
  dsimp only
  rw [List.length_append, Nat.add_sub_cancel, List.take_left]

theorem rawField_print (k : String) (j : Doc) {rest : List Char} (hr : Stops rest) :
    rawField (quote compact k ++ ':' :: (print compact j ++ rest)) =
      some ((k, print compact j), rest) := by
  obtain ⟨cs, h, hparse⟩ := parseChars_quote (y := compact) k (':' :: (print compact j ++ rest))
  rw [h, rawField, skip_cons (by decide)]
  dsimp only
  rw [if_pos rfl, hparse]
  dsimp only
  rw [skip_cons (by decide), List.head?_cons, if_pos rfl, List.tail_cons, rawValue_print j hr]
  dsimp only
  rw [String.ofList_toList]

theorem rawFields_print : ∀ (fs : List (String × Doc)) (fuel : Nat) (rest : List Char),
    (printFields compact fs).length ≤ fuel →
      rawFields fuel (printFields compact fs ++ rest) =
        some (fs.map fun f => (f.1, print compact f.2), rest)
  | [], 0, _, hf => by simp [printFields] at hf
  | _ :: _, 0, _, hf => by simp [printFields] at hf
  | [], fuel + 1, rest, _ => by
    rw [printFields, rawFields, List.cons_append, skip_cons (by decide)]
    rfl
  | (k, x) :: fs, fuel + 1, rest, hf => by
    have hlength : (printFields compact fs).length ≤ fuel := by
      simp only [printFields, List.length_cons, List.length_append] at hf
      omega
    rw [printFields_compact, rawFields, skip_cons (by decide)]
    dsimp only
    rw [if_neg (by decide), if_pos rfl, rawField_print k x (stops_fields fs rest)]
    dsimp only
    rw [rawFields_print fs fuel rest hlength]
    rfl

theorem rawObject_print (fs : List (String × Doc)) :
    rawObject (print compact (.obj fs)) = some (fs.map fun f => (f.1, print compact f.2)) := by
  cases fs with
  | nil =>
    rw [print]
    rfl
  | cons f fs =>
    obtain ⟨k, x⟩ := f
    have hprint := print_compact k x fs []
    rw [List.append_nil] at hprint
    obtain ⟨cs, hquote, -⟩ := parseChars_quote (y := compact) k
      (':' :: (print compact x ++ (printFields compact fs ++ [])))
    have hhead : (skip (quote compact k ++ ':' :: (print compact x ++
        (printFields compact fs ++ [])))).head? ≠ some '\x7d' := by
      rw [hquote, skip_cons (by decide)]
      simp
    have hlength : (printFields compact fs).length ≤ (printFields compact fs ++ []).length + 1 := by
      rw [List.append_nil]
      omega
    rw [hprint, rawObject, skip_cons (by decide)]
    dsimp only
    rw [if_pos rfl, if_neg hhead, rawField_print k x (stops_fields fs [])]
    dsimp only
    rw [rawFields_print fs _ [] hlength]
    rfl

end Raw

end WaitingRoom.Doc
