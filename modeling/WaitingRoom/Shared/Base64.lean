import Mathlib

/-!
# Base64

The unpadded URL alphabet of `base64.RawURLEncoding`. Three bytes are four
sextets; the last one or two bytes of a text are two or three sextets. The
decoder passes over line breaks and does not look at the bits that the last
sextet has to spare.
-/

namespace WaitingRoom.Base64

set_option autoImplicit false

def digit (n : Nat) : Char :=
  if n < 26 then .ofNat (65 + n)
  else if n < 52 then .ofNat (71 + n)
  else if n < 62 then .ofNat (n - 4)
  else if n = 62 then '-'
  else '_'

def value (c : Char) : Option Nat :=
  if 65 ≤ c.toNat ∧ c.toNat ≤ 90 then some (c.toNat - 65)
  else if 97 ≤ c.toNat ∧ c.toNat ≤ 122 then some (c.toNat - 71)
  else if 48 ≤ c.toNat ∧ c.toNat ≤ 57 then some (c.toNat + 4)
  else if c = '-' then some 62
  else if c = '_' then some 63
  else none

theorem value_digit : ∀ n < 64, value (digit n) = some n := by decide

theorem digit_plain : ∀ n < 64, (digit n).utf8Size = 1 ∧ digit n ≠ '.' ∧ digit n ≠ '\n' ∧
    digit n ≠ '\r' := by decide

def sextets : List UInt8 → List Nat
  | [] => []
  | [a] => [a.toNat / 4, a.toNat % 4 * 16]
  | [a, b] => [a.toNat / 4, a.toNat % 4 * 16 + b.toNat / 16, b.toNat % 16 * 4]
  | a :: b :: c :: rest =>
    a.toNat / 4 :: (a.toNat % 4 * 16 + b.toNat / 16) :: (b.toNat % 16 * 4 + c.toNat / 64) ::
      c.toNat % 64 :: sextets rest

def unsextets : List Nat → Option (List UInt8)
  | [] => some []
  | [_] => none
  | [a, b] => some [.ofNat (a * 4 + b / 16)]
  | [a, b, c] => some [.ofNat (a * 4 + b / 16), .ofNat (b % 16 * 16 + c / 4)]
  | a :: b :: c :: d :: rest =>
    (unsextets rest).map fun bytes =>
      .ofNat (a * 4 + b / 16) :: .ofNat (b % 16 * 16 + c / 4) :: .ofNat (c % 4 * 64 + d) :: bytes

def encode (bytes : List UInt8) : List Char := (sextets bytes).map digit

def decode (text : List Char) : Option (List UInt8) :=
  ((text.filter fun c => decide (c ≠ '\n' ∧ c ≠ '\r')).mapM value).bind unsextets

theorem sextets_lt (bytes : List UInt8) : ∀ n ∈ sextets bytes, n < 64 := by
  induction bytes using sextets.induct with
  | case1 => simp [sextets]
  | case2 a =>
    have ha := a.toNat_lt
    simp only [sextets, List.forall_mem_cons]
    refine ⟨?_, ?_, List.forall_mem_nil _⟩ <;> omega
  | case3 a b =>
    have ha := a.toNat_lt
    have hb := b.toNat_lt
    simp only [sextets, List.forall_mem_cons]
    refine ⟨?_, ?_, ?_, List.forall_mem_nil _⟩ <;> omega
  | case4 a b c rest ih =>
    have ha := a.toNat_lt
    have hb := b.toNat_lt
    have hc := c.toNat_lt
    simp only [sextets, List.forall_mem_cons]
    refine ⟨?_, ?_, ?_, ?_, ih⟩ <;> omega

theorem ofNat_eq {b : UInt8} {n : Nat} (h : n = b.toNat) : UInt8.ofNat n = b := by
  rw [h, UInt8.ofNat_toNat]

theorem unsextets_sextets (bytes : List UInt8) : unsextets (sextets bytes) = some bytes := by
  induction bytes using sextets.induct with
  | case1 => rfl
  | case2 a =>
    rw [sextets, unsextets, ofNat_eq (b := a) (by omega)]
  | case3 a b =>
    have hb := b.toNat_lt
    rw [sextets, unsextets, ofNat_eq (b := a) (by omega), ofNat_eq (b := b) (by omega)]
  | case4 a b c rest ih =>
    have hb := b.toNat_lt
    have hc := c.toNat_lt
    rw [sextets, unsextets, ih, Option.map_some, ofNat_eq (b := a) (by omega),
      ofNat_eq (b := b) (by omega), ofNat_eq (b := c) (by omega)]

theorem mapM_value_digit {ns : List Nat} (h : ∀ n ∈ ns, n < 64) :
    (ns.map digit).mapM value = some ns := by
  induction ns with
  | nil => rfl
  | cons n ns ih =>
    obtain ⟨hn, hns⟩ := List.forall_mem_cons.mp h
    rw [List.map_cons, List.mapM_cons, value_digit n hn, ih hns]
    rfl

theorem encode_plain {bytes : List UInt8} {c : Char} (h : c ∈ encode bytes) :
    c.utf8Size = 1 ∧ c ≠ '.' ∧ c ≠ '\n' ∧ c ≠ '\r' := by
  obtain ⟨n, hn, rfl⟩ := List.mem_map.mp h
  exact digit_plain n (sextets_lt bytes n hn)

theorem decode_encode (bytes : List UInt8) : decode (encode bytes) = some bytes := by
  have hfilter : (encode bytes).filter (fun c => decide (c ≠ '\n' ∧ c ≠ '\r')) = encode bytes := by
    refine List.filter_eq_self.mpr fun c hc => ?_
    exact decide_eq_true (encode_plain hc).2.2
  rw [decode, hfilter, encode, mapM_value_digit (sextets_lt bytes), Option.bind_some,
    unsextets_sextets]

theorem decode_of_dot {text : List Char} (h : '.' ∈ text) : decode text = none := by
  have hmap : ∀ cs : List Char, '.' ∈ cs → cs.mapM value = none := by
    intro cs hcs
    induction cs with
    | nil => exact absurd hcs (by simp)
    | cons c cs ih =>
      rw [List.mapM_cons]
      rcases List.mem_cons.mp hcs with rfl | hcs
      · rfl
      · rw [ih hcs]
        cases value c <;> rfl
  have hdot : '.' ∈ text.filter (fun c => decide (c ≠ '\n' ∧ c ≠ '\r')) :=
    List.mem_filter.mpr ⟨h, by decide⟩
  rw [decode, hmap _ hdot, Option.bind_none]

theorem length_encode (bytes : List UInt8) : (encode bytes).length = (4 * bytes.length + 2) / 3 := by
  rw [encode, List.length_map]
  induction bytes using sextets.induct with
  | case1 => rfl
  | case2 a => simp [sextets]
  | case3 a b => simp [sextets]
  | case4 a b c rest ih =>
    simp only [sextets, List.length_cons, ih]
    omega

end WaitingRoom.Base64
