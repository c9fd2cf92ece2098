import Mathlib

/-!
# Decimal texts

The rational number that a text with a decimal point stands for, and how numbers go
between such texts and integers that count the last place: a parser that pads the
fraction, a printer that puts the point in, and division that rounds half up.
-/

namespace WaitingRoom.Decimal

set_option autoImplicit false

def whole (cs : List Char) : List Char := cs.takeWhile (· != '.')

def fraction (cs : List Char) : List Char := (cs.dropWhile (· != '.')).tail

def digits (cs : List Char) : Nat := Nat.ofDigitChars 10 cs 0

def value (cs : List Char) : ℚ :=
  digits (whole cs) + digits (fraction cs) / 10 ^ (fraction cs).length

/-- The text in units of its place `places`. -/
def scale (places : Nat) (cs : List Char) : Nat :=
  digits (whole cs ++ fraction cs ++ List.replicate (places - (fraction cs).length) '0')

/-- The number of `n` units of the place `places`, with all its places. -/
def print (n places : Nat) : List Char :=
  let s := Nat.toDigits 10 n
  if places = 0 then s
  else
    let s := if s.length ≤ places then List.replicate (places - s.length + 1) '0' ++ s else s
    s.take (s.length - places) ++ '.' :: s.drop (s.length - places)

def roundQuotient (n d : Nat) : Nat := if d ≤ n % d * 2 then n / d + 1 else n / d

/-- A rational number to the nearest one with `places` places, and up from the middle. -/
def roundHalfUp (places : Nat) (v : ℚ) : ℚ := ⌊v * 10 ^ places + 1 / 2⌋ / 10 ^ places

/-- A text with `places` places and no superfluous zero in front. -/
structure Shaped (places : Nat) (cs : List Char) : Prop where
  text : cs = whole cs ++ if places = 0 then [] else '.' :: fraction cs
  length : (fraction cs).length = places
  digit : ∀ c ∈ whole cs ++ fraction cs, c.isDigit = true
  nonempty : whole cs ≠ []
  leading : (whole cs).head? = some '0' → whole cs = ['0']

/-- The text writes the number with `places` places. -/
structure Renders (places : Nat) (cs : List Char) (v : ℚ) : Prop extends Shaped places cs where
  value_eq : value cs = v

section Digits

theorem digits_append (cs ds : List Char) :
    digits (cs ++ ds) = 10 ^ ds.length * digits cs + digits ds := by
  rw [digits, Nat.ofDigitChars_append, Nat.ofDigitChars_eq_ofDigitChars_zero]
  rfl

theorem digits_zeros (n : Nat) : digits (List.replicate n '0') = 0 := by
  rw [digits, Nat.ofDigitChars_replicate_zero, Nat.mul_zero]

theorem digits_cons (c : Char) (cs : List Char) :
    digits (c :: cs) = 10 ^ cs.length * (c.toNat - 48) + digits cs := by
  rw [digits, Nat.ofDigitChars_cons, Nat.ofDigitChars_eq_ofDigitChars_zero]
  simp [digits]

theorem digits_lt {cs : List Char} (h : ∀ c ∈ cs, c.isDigit = true) : digits cs < 10 ^ cs.length := by
  induction cs with
  | nil => exact Nat.one_pos
  | cons c cs ih =>
    obtain ⟨hc, hcs⟩ := List.forall_mem_cons.mp h
    have hle : c.toNat - 48 ≤ 9 := by
      simp only [Char.isDigit, Bool.and_eq_true, decide_eq_true_eq, UInt32.le_iff_toNat_le] at hc
      have := hc.2
      simp at this
      omega
    have hrest := ih hcs
    have hmul := Nat.mul_le_mul_left (10 ^ cs.length) hle
    rw [digits_cons, List.length_cons, pow_succ]
    omega

theorem digits_toDigits (n : Nat) : digits (Nat.toDigits 10 n) = n :=
  Nat.ofDigitChars_toDigits (by decide) (by decide)

theorem isDigit_toDigits (n : Nat) : ∀ c ∈ Nat.toDigits 10 n, c.isDigit = true :=
  fun _ hc => Nat.isDigit_of_mem_toDigits (by decide) (by decide) hc

theorem ne_point_of_isDigit {c : Char} (h : c.isDigit = true) : (c != '.') = true := by
  rw [bne_iff_ne]
  rintro rfl
  exact absurd h (by decide)

theorem parts_of_point {ds : List Char} (fs : List Char) (hd : ∀ c ∈ ds, c.isDigit = true) :
    whole (ds ++ '.' :: fs) = ds ∧ fraction (ds ++ '.' :: fs) = fs := by
  have hall : ∀ c ∈ ds, (c != '.') = true := fun c hc => ne_point_of_isDigit (hd c hc)
  constructor
  · rw [whole, List.takeWhile_append_of_pos hall]
    simp
  · rw [fraction, List.dropWhile_append_of_pos hall]
    simp

theorem parts_of_digits {ds : List Char} (hd : ∀ c ∈ ds, c.isDigit = true) :
    whole ds = ds ∧ fraction ds = [] := by
  have hall : ∀ c ∈ ds, (c != '.') = true := fun c hc => ne_point_of_isDigit (hd c hc)
  constructor
  · exact List.takeWhile_eq_self_iff.mpr hall
  · rw [fraction, List.dropWhile_eq_nil_iff.mpr hall]
    rfl

end Digits

theorem scale_eq {places : Nat} {cs : List Char} (h : (fraction cs).length ≤ places) :
    (scale places cs : ℚ) = value cs * 10 ^ places := by
  have hpow : (10 : ℚ) ^ places = 10 ^ (fraction cs).length * 10 ^ (places - (fraction cs).length) := by
    rw [← pow_add, Nat.add_sub_cancel' h]
  have hscale : scale places cs =
      10 ^ (places - (fraction cs).length) *
        (10 ^ (fraction cs).length * digits (whole cs) + digits (fraction cs)) := by
    rw [scale, digits_append, digits_append, digits_zeros, List.length_replicate, Nat.add_zero]
  rw [hscale, value, hpow]
  push_cast
  field_simp

section Print

theorem toDigits_leading {n : Nat} (h : (Nat.toDigits 10 n).head? = some '0') :
    Nat.toDigits 10 n = ['0'] := by
  cases hs : Nat.toDigits 10 n with
  | nil => exact absurd hs Nat.toDigits_ne_nil
  | cons c cs =>
    rw [hs] at h
    obtain rfl := Option.some.inj h
    cases cs with
    | nil => rfl
    | cons d ds =>
      exfalso
      have hdigit := isDigit_toDigits n
      have hn := digits_toDigits n
      rw [hs] at hdigit hn
      have hlt := digits_lt (List.forall_mem_cons.mp hdigit).2
      rw [digits_cons, show ('0' : Char).toNat - 48 = 0 from rfl, Nat.mul_zero, Nat.zero_add] at hn
      rw [hn] at hlt
      have hlength := (Nat.length_toDigits_le_iff (by decide) (by simp)).mpr hlt
      rw [hs, List.length_cons] at hlength
      omega

theorem print_parts (n : Nat) {places : Nat} (hp : places ≠ 0) :
    ∃ ds fs, print n places = ds ++ '.' :: fs ∧ (∀ c ∈ ds ++ fs, c.isDigit = true) ∧
      fs.length = places ∧ digits (ds ++ fs) = n ∧ ds ≠ [] ∧ (ds.head? = some '0' → ds = ['0']) := by
  have hlength := Nat.length_toDigits_pos (b := 10) (n := n)
  by_cases hshort : (Nat.toDigits 10 n).length ≤ places
  · -- one zero more than the places that are missing
    refine ⟨['0'], List.replicate (places - (Nat.toDigits 10 n).length) '0' ++ Nat.toDigits 10 n,
      ?_, ?_, ?_, ?_, List.cons_ne_nil _ _, fun _ => rfl⟩
    · have hcut : (List.replicate (places - (Nat.toDigits 10 n).length + 1) '0' ++
          Nat.toDigits 10 n).length - places = 1 := by
        rw [List.length_append, List.length_replicate]
        omega
      rw [print, if_neg hp, if_pos hshort]
      dsimp only
      rw [hcut, List.replicate_succ]
      rfl
    · intro c hc
      rcases List.mem_append.mp hc with hc | hc
      · rw [List.mem_singleton.mp hc]
        rfl
      · rcases List.mem_append.mp hc with hc | hc
        · rw [List.eq_of_mem_replicate hc]
          rfl
        · exact isDigit_toDigits n c hc
    · rw [List.length_append, List.length_replicate]
      omega
    · rw [digits_append, digits_append, digits_zeros, digits_toDigits, Nat.mul_zero, Nat.zero_add,
        show digits ['0'] = 0 from rfl, Nat.mul_zero, Nat.zero_add]
  · refine ⟨(Nat.toDigits 10 n).take ((Nat.toDigits 10 n).length - places),
      (Nat.toDigits 10 n).drop ((Nat.toDigits 10 n).length - places), ?_, ?_, ?_, ?_, ?_, ?_⟩
    · rw [print, if_neg hp, if_neg hshort]
    · rw [List.take_append_drop]
      exact isDigit_toDigits n
    · rw [List.length_drop]
      omega
    · rw [List.take_append_drop, digits_toDigits]
    · intro hnil
      have := congrArg List.length hnil
      rw [List.length_take, List.length_nil] at this
      omega
    · intro hzero
      rw [List.head?_take, if_neg (by omega)] at hzero
      have hone := congrArg List.length (toDigits_leading hzero)
      rw [List.length_singleton] at hone
      omega

theorem print_renders (n places : Nat) : Renders places (print n places) (n / 10 ^ places) := by
  by_cases hp : places = 0
  · subst hp
    have hprint : print n 0 = Nat.toDigits 10 n := rfl
    obtain ⟨hwhole, hfraction⟩ := parts_of_digits (isDigit_toDigits n)
    rw [hprint]
    refine ⟨⟨?_, ?_, ?_, ?_, ?_⟩, ?_⟩
    · rw [hwhole, if_pos rfl, List.append_nil]
    · rw [hfraction]
      rfl
    · rw [hwhole, hfraction, List.append_nil]
      exact isDigit_toDigits n
    · rw [hwhole]
      exact Nat.toDigits_ne_nil
    · rw [hwhole]
      exact toDigits_leading
    · rw [value, hwhole, hfraction, digits_toDigits]
      simp [digits]
  · obtain ⟨ds, fs, hprint, hdigit, hlength, hn, hne, hlead⟩ := print_parts n hp
    obtain ⟨hwhole, hfraction⟩ := parts_of_point fs
      fun c hc => hdigit c (List.mem_append_left _ hc)
    rw [hprint]
    refine ⟨⟨?_, ?_, ?_, ?_, ?_⟩, ?_⟩
    · rw [hwhole, hfraction, if_neg hp]
    · rw [hfraction, hlength]
    · rw [hwhole, hfraction]
      exact hdigit
    · rw [hwhole]
      exact hne
    · rw [hwhole]
      exact hlead
    · rw [value, hwhole, hfraction, ← hn, digits_append, hlength]
      push_cast
      field_simp

end Print

theorem roundQuotient_eq {d : Nat} (hd : 0 < d) (n : Nat) :
    (roundQuotient n d : ℤ) = ⌊(n / d : ℚ) + 1 / 2⌋ := by
  have hpos : (0 : ℚ) < d := by exact_mod_cast hd
  have hdiv := Nat.div_add_mod n d
  have hmod := Nat.mod_lt n hd
  unfold roundQuotient
  generalize n / d = q at hdiv ⊢
  generalize n % d = r at hdiv hmod ⊢
  have hquotient : (n / d : ℚ) = q + r / d := by
    rw [← hdiv]
    push_cast
    field_simp
  have hlt : (r : ℚ) < d := by exact_mod_cast hmod
  symm
  rw [Int.floor_eq_iff, hquotient]
  split
  · rename_i hup
    have hup' : (d : ℚ) ≤ r * 2 := by exact_mod_cast hup
    have h₁ : (1 / 2 : ℚ) ≤ r / d := by
      rw [le_div_iff₀ hpos]
      linarith
    have h₂ : (r : ℚ) / d < 1 := (div_lt_one hpos).mpr hlt
    push_cast
    constructor <;> linarith
  · rename_i hdown
    have hdown' : (r : ℚ) * 2 < d := by exact_mod_cast Nat.not_le.mp hdown
    have h₁ : (0 : ℚ) ≤ r / d := by positivity
    have h₂ : (r : ℚ) / d < 1 / 2 := by
      rw [div_lt_iff₀ hpos]
      linarith
    push_cast
    constructor <;> linarith

theorem print_roundQuotient {d : Nat} (hd : 0 < d) (n places : Nat) {v : ℚ}
    (hv : v * 10 ^ places = n / d) :
    Renders places (print (roundQuotient n d) places) (roundHalfUp places v) := by
  have h := print_renders (roundQuotient n d) places
  have hround : (roundQuotient n d : ℚ) = (⌊v * 10 ^ places + 1 / 2⌋ : ℤ) := by
    rw [hv, ← roundQuotient_eq hd]
    rfl
  rw [hround] at h
  exact h

end WaitingRoom.Decimal
