import WaitingRoom.Shared.Document

/-!
# Strings of bytes

A Go string is any list of bytes. `range` and `encoding/json` read it rune by
rune; a byte that starts no character of UTF-8 is a rune of its own, which JSON
writes as the escape of U+FFFD. A text of characters is read back as it is.
-/

namespace WaitingRoom.Doc

set_option autoImplicit false

def utf8 (cs : List Char) : List UInt8 := cs.flatMap String.utf8EncodeChar

theorem length_utf8 (cs : List Char) : (utf8 cs).length = textSize cs := by
  induction cs with
  | nil => rfl
  | cons c cs ih =>
    rw [utf8, List.flatMap_cons, List.length_append, ← utf8, ih, String.length_utf8EncodeChar,
      textSize_cons]

/-- `utf8.DecodeRune`: the character at the front, if there is one. -/
def frontRune (bytes : List UInt8) : Option Char := bytes.toByteArray.utf8DecodeChar? 0

def runesUpTo : Nat → List UInt8 → List (Option Char)
  | 0, _ => []
  | _, [] => []
  | n + 1, b :: bytes =>
    match frontRune (b :: bytes) with
    | some c => some c :: runesUpTo n ((b :: bytes).drop c.utf8Size)
    | none => none :: runesUpTo n bytes

/-- The runes of a string, with `none` for a byte that is not of UTF-8. -/
def runes (bytes : List UInt8) : List (Option Char) := runesUpTo bytes.length bytes

theorem frontRune_encode (c : Char) (bytes : List UInt8) :
    frontRune (String.utf8EncodeChar c ++ bytes) = some c := by
  rw [frontRune, List.toByteArray_append, ByteArray.utf8DecodeChar?_utf8EncodeChar_append]

theorem runesUpTo_utf8 {n : Nat} {cs : List Char} (h : (utf8 cs).length ≤ n) :
    runesUpTo n (utf8 cs) = cs.map some := by
  induction cs generalizing n with
  | nil => cases n <;> rfl
  | cons c cs ih =>
    have hutf8 : utf8 (c :: cs) = String.utf8EncodeChar c ++ utf8 cs := by
      rw [utf8, List.flatMap_cons, ← utf8]
    have hwidth : (String.utf8EncodeChar c).length = c.utf8Size := String.length_utf8EncodeChar c
    have hpos := c.utf8Size_pos
    rw [hutf8, List.length_append] at h
    have hfront := frontRune_encode c (utf8 cs)
    have hdrop : (String.utf8EncodeChar c ++ utf8 cs).drop c.utf8Size = utf8 cs :=
      List.drop_left' hwidth
    rw [hutf8]
    cases n with
    | zero => omega
    | succ n =>
      cases hbytes : String.utf8EncodeChar c ++ utf8 cs with
      | nil =>
        have hlen := congrArg List.length hbytes
        rw [List.length_append, List.length_nil] at hlen
        omega
      | cons b bytes =>
        rw [hbytes] at hfront hdrop
        rw [runesUpTo, hfront]
        dsimp only
        rw [hdrop, ih (by omega), List.map_cons]

theorem runes_utf8 (cs : List Char) : runes (utf8 cs) = cs.map some :=
  runesUpTo_utf8 (Nat.le_refl _)

/-- The text that `encoding/json` reads in a string of bytes. -/
def readText (bytes : List UInt8) : List Char := (runes bytes).map (·.getD '\ufffd')

theorem readText_utf8 (cs : List Char) : readText (utf8 cs) = cs := by
  rw [readText, runes_utf8, List.map_map]
  exact List.map_id cs

/-- `encoding/json` after `SetEscapeHTML(false)`. -/
def verbatim : Style where
  gap := []
  escape := fun c =>
    if c = '\u2028' ∨ c = '\u2029' then '\\' :: 'u' :: hex4 c.toNat else escapeControl c
  blank := compact.blank
  reads := fun c rest => by
    split
    · rename_i h
      exact parseChars_hex (by rcases h with rfl | rfl <;> decide) rest
    · exact parseChars_escapeControl c rest

def escapeRune (y : Style) : Option Char → List Char
  | some c => y.escape c
  | none => ['\\', 'u', 'f', 'f', 'f', 'd']

def quoteBytes (y : Style) (bytes : List UInt8) : List Char :=
  '"' :: ((runes bytes).flatMap (escapeRune y) ++ ['"'])

theorem quoteBytes_utf8 (y : Style) (cs : List Char) :
    quoteBytes y (utf8 cs) = quote y (String.ofList cs) := by
  rw [quoteBytes, quote, runes_utf8, List.flatMap_map, String.toList_ofList]
  rfl

section Object

variable (y : Style)

def objectRest : List (String × List Char) → List Char
  | [] => ['\x7d']
  | (k, text) :: fs => ',' :: (y.gap ++ (quote y k ++ ':' :: (y.gap ++ (text ++ objectRest fs))))

def object : List (String × List Char) → List Char
  | [] => ['\x7b', '\x7d']
  | (k, text) :: fs => '\x7b' :: (quote y k ++ ':' :: (y.gap ++ (text ++ objectRest y fs)))

theorem printFields_eq (fs : List (String × Doc)) :
    printFields y fs = objectRest y (fs.map fun f => (f.1, print y f.2)) := by
  induction fs with
  | nil => rw [printFields]; rfl
  | cons f fs ih =>
    obtain ⟨k, j⟩ := f
    rw [printFields, ih]
    rfl

theorem print_obj (fs : List (String × Doc)) :
    print y (.obj fs) = object y (fs.map fun f => (f.1, print y f.2)) := by
  cases fs with
  | nil => rw [print]; rfl
  | cons f fs =>
    obtain ⟨k, j⟩ := f
    rw [print, printFields_eq]
    rfl

def Reads (text : List Char) (j : Doc) : Prop :=
  ∀ fuel rest, text.length ≤ fuel → Stops rest → parseValue fuel (text ++ rest) = some (j, rest)

theorem reads_print (j : Doc) : Reads (print y j) j := parseValue_print j

theorem reads_quoteBytes (bytes : List UInt8) :
    Reads (quoteBytes y bytes) (.str (String.ofList (readText bytes))) := by
  intro fuel rest hf _
  have hrunes : ∀ rs : List (Option Char), parseChars (rs.flatMap (escapeRune y) ++ '"' :: rest) =
      some (rs.map (·.getD '\ufffd'), rest) := by
    intro rs
    induction rs with
    | nil => rw [List.flatMap_nil, List.nil_append, parseChars.eq_def]; rfl
    | cons r rs ih =>
      rw [List.flatMap_cons, List.append_assoc]
      cases r with
      | some c => rw [escapeRune, y.reads, ih]; rfl
      | none =>
        have hhex : ['f', 'f', 'f', 'd'] = hex4 '\ufffd'.toNat := by decide
        rw [escapeRune, hhex, List.cons_append, List.cons_append, parseChars_hex (by decide), ih]
        rfl
  cases fuel with
  | zero => simp [quoteBytes] at hf
  | succ fuel =>
    rw [quoteBytes, List.cons_append, List.append_assoc, parseValue, skip_cons (by decide)]
    dsimp only [List.singleton_append]
    rw [if_pos rfl, hrunes, readText]

theorem parseFields_objectRest {fs : List (String × List Char)} {js : List (String × Doc)}
    (h : List.Forall₂ (fun f g => f.1 = g.1 ∧ Reads f.2 g.2) fs js) (fuel : Nat) (rest : List Char)
    (hf : (objectRest y fs).length ≤ fuel) :
    parseFields fuel (objectRest y fs ++ rest) = some (js, rest) := by
  induction h generalizing fuel with
  | nil =>
    cases fuel with
    | zero => simp [objectRest] at hf
    | succ fuel =>
      rw [objectRest, parseFields, List.cons_append, skip_cons (by decide)]
      rfl
  | @cons f g fs js hfg _ ih =>
    obtain ⟨k, text⟩ := f
    obtain ⟨k', j⟩ := g
    obtain ⟨rfl, hreads⟩ : k = k' ∧ Reads text j := hfg
    have hlen : text.length + (objectRest y fs).length + 3 ≤ fuel := by
      simp only [objectRest, quote, List.length_cons, List.length_append] at hf
      omega
    obtain ⟨fuel, rfl⟩ : ∃ n, fuel = n + 2 := ⟨fuel - 2, by omega⟩
    have hstops : Stops (objectRest y fs ++ rest) := by
      cases fs <;> simp [Stops, objectRest]
    rw [objectRest, parseFields, List.cons_append, skip_cons (by decide)]
    dsimp only
    rw [if_neg (by decide), if_pos rfl]
    simp only [List.append_assoc, List.cons_append]
    rw [parseField_gap, parseField_quote (hreads fuel _ (by omega) hstops)]
    dsimp only
    rw [ih (fuel + 1) (by omega)]

theorem parse_object {f : String × List Char} {fs : List (String × List Char)}
    {js : List (String × Doc)}
    (h : List.Forall₂ (fun f g => f.1 = g.1 ∧ Reads f.2 g.2) (f :: fs) js) :
    parse (object y (f :: fs)) = some (.obj js) := by
  cases h with
  | @cons _ g _ js hfg hrest =>
    obtain ⟨k, text⟩ := f
    obtain ⟨k', j⟩ := g
    obtain ⟨rfl, hreads⟩ : k = k' ∧ Reads text j := hfg
    have hstops : Stops (objectRest y fs) := by
      cases fs <;> simp [Stops, objectRest]
    have hlen : text.length + (objectRest y fs).length + 4 ≤
        (object y ((k, text) :: fs)).length := by
      simp only [object, quote, List.length_cons, List.length_append]
      omega
    obtain ⟨n, hn⟩ : ∃ n, (object y ((k, text) :: fs)).length = n + 1 := ⟨_, (Nat.succ_pred (by omega)).symm⟩
    have hfields := parseFields_objectRest y hrest (n + 1) [] (by omega)
    rw [List.append_nil] at hfields
    obtain ⟨cs, hc, -⟩ := parseChars_quote (y := y) k (':' :: (y.gap ++ (text ++ objectRest y fs)))
    have hhead : (skip (quote y k ++ ':' :: (y.gap ++ (text ++ objectRest y fs)))).head? ≠
        some '\x7d' := by
      rw [hc, skip_cons (by decide)]
      simp
    rw [parse, hn, object, parseValue, skip_cons (by decide)]
    dsimp only
    rw [if_neg (by decide), if_neg (by decide), if_pos rfl, if_neg hhead,
      parseField_quote (hreads n _ (by omega) hstops)]
    dsimp only
    rw [hfields]
    rfl

theorem textSize_objectRest (fs : List (String × List Char)) :
    textSize (objectRest y fs) =
      (fs.map fun f => quoteSize y f.1 + textSize f.2 + 2 * textSize y.gap + 2).sum + 1 := by
  have hcomma : (',').utf8Size = 1 := by decide
  have hcolon : (':').utf8Size = 1 := by decide
  induction fs with
  | nil => rfl
  | cons f fs ih =>
    obtain ⟨k, text⟩ := f
    simp only [objectRest, textSize_cons, textSize_append, textSize_quote, ih, List.map_cons,
      List.sum_cons, hcomma, hcolon]
    omega

theorem textSize_object (k : String) (text : List Char) (fs : List (String × List Char)) :
    textSize (object y ((k, text) :: fs)) = quoteSize y k + textSize text + textSize y.gap + 2 +
      textSize (objectRest y fs) := by
  have hbrace : ('\x7b').utf8Size = 1 := by decide
  have hcolon : (':').utf8Size = 1 := by decide
  simp only [object, textSize_cons, textSize_append, textSize_quote, hbrace, hcolon]
  omega

end Object

end WaitingRoom.Doc
