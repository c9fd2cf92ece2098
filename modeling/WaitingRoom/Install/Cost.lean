import WaitingRoom.Shared.Decimal
import WaitingRoom.Shared.Document

/-!
# Cost estimates

An operator enters prices as decimal texts and gets the subtotals of two profiles and
their ratio. Amounts are whole numbers of millionths; they are printed with six
places, and the subtotals are read from that text again for the ratio. The calendar
is a parameter. A text that `micro` could not read would end the process.
-/

namespace WaitingRoom.Install

set_option autoImplicit false

open Decimal

structure CostInput where
  schemaVersion : ℤ
  provider : String
  regionId : String
  currency : String
  asOf : String
  fractionDigits : ℤ
  monthlyHours : ℤ
  standardHostHourly : String
  highWorkerHourly : String
  volumeGiBMonthly : String
  highWorkerVolumeGiB : ℤ
  expectedEgressGiB : ℤ
deriving DecidableEq

structure CostLine where
  id : String
  quantity : Nat
  unit : String
  unitPrice : String
  formula : String
  exactAmount : String
deriving DecidableEq

structure CostProfile where
  profile : String
  hosts : Nat
  vCPUPerHost : Nat
  memoryGiBPerHost : Nat
  volumeGiBPerHost : Nat
  included : List CostLine
  exactSubtotal : String
  roundedSubtotal : String
  excluded : List String
deriving DecidableEq

structure CostReport where
  schemaVersion : ℤ
  scope : String
  input : CostInput
  rounding : String
  profiles : List CostProfile
  highToStandardRatio : Option String
  ratioMeaning : String
  warnings : List String
  qualification : String
deriving DecidableEq

inductive CostError
  | input | panic
deriving DecidableEq, Repr

section Estimate

/-- `pricePattern`. -/
def Price (cs : List Char) : Prop :=
  (whole cs = ['0'] ∨ ((whole cs).head? ≠ none ∧ (whole cs).head? ≠ some '0' ∧
    (whole cs).length ≤ 9 ∧ ∀ c ∈ whole cs, c.isDigit = true)) ∧
  ('.' ∈ cs → 1 ≤ (fraction cs).length ∧ (fraction cs).length ≤ 6 ∧
    ∀ c ∈ fraction cs, c.isDigit = true)
  deriving Decidable

/-- `regionPattern`. -/
def RegionText (cs : List Char) : Prop :=
  (∃ c ∈ cs.head?, c.isLower = true) ∧ cs.length ≤ 63 ∧
    ∀ c ∈ cs, c.isLower = true ∨ c.isDigit = true ∨ c = '-'

-- the first character alone is looked at, where the instance for all characters would go
-- through the alphabet
instance (cs : List Char) : Decidable (RegionText cs) :=
  @instDecidableAnd (∃ c ∈ cs.head?, c.isLower = true) _ (Option.decidableExistsMem _)
    (inferInstanceAs (Decidable (_ ∧ ∀ c ∈ cs, _)))

/-- `currencyPattern`. -/
def CurrencyText (cs : List Char) : Prop := cs.length = 3 ∧ ∀ c ∈ cs, c.isUpper = true
  deriving Decidable

/-- What `Estimate` accepts, with the year that `time.Parse` reads. -/
def CostInput.Accepted (yearOf : String → Option ℤ) (i : CostInput) : Prop :=
  (∃ year ∈ yearOf i.asOf, 2000 ≤ year ∧ year ≤ 9999) ∧ i.schemaVersion = 1 ∧
    RegionText i.provider.toList ∧ RegionText i.regionId.toList ∧ CurrencyText i.currency.toList ∧
    (0 ≤ i.fractionDigits ∧ i.fractionDigits ≤ 4) ∧ (1 ≤ i.monthlyHours ∧ i.monthlyHours ≤ 744) ∧
    (1 ≤ i.highWorkerVolumeGiB ∧ i.highWorkerVolumeGiB ≤ 65536) ∧
    (0 ≤ i.expectedEgressGiB ∧ i.expectedEgressGiB ≤ 1000000000) ∧
    Price i.standardHostHourly.toList ∧ Price i.highWorkerHourly.toList ∧
    Price i.volumeGiBMonthly.toList
  deriving Decidable

def micro (s : String) : Except CostError Nat :=
  -- `strings.Repeat` of a negative count
  if 6 < (fraction s.toList).length then .error .panic
  -- the nil number of `SetString`
  else if ¬ ∀ c ∈ whole s.toList ++ fraction s.toList, c.isDigit = true then .error .panic
  else .ok (scale 6 s.toList)

def fixed (n places : Nat) : String := String.ofList (Decimal.print n places)

def excludedItems : List String :=
  ["CDN/load-balancer", "egress", "backup-object-storage", "Prometheus-retention",
    "operator-labor", "tax", "IOPS-and-provider-additional-fees"]

/-- The profile of the amounts `compute` and `storage`. -/
def billedProfile (profile : String) (hosts cpu memory volume : Nat) (hourly : String)
    (i : CostInput) (compute storage : Nat) : CostProfile where
  profile := profile
  hosts := hosts
  vCPUPerHost := cpu
  memoryGiBPerHost := memory
  volumeGiBPerHost := volume
  included := [
    ⟨"compute", hosts * i.monthlyHours.toNat, "host-hour", hourly,
      "hosts * monthlyHours * hostHourly", fixed compute 6⟩,
    ⟨"volume", hosts * volume, "GiB-month", i.volumeGiBMonthly,
      "hosts * volumeGiBPerHost * volumeGiBMonthly", fixed storage 6⟩]
  exactSubtotal := fixed (compute + storage) 6
  roundedSubtotal :=
    fixed (roundQuotient (compute + storage) (10 ^ (6 - i.fractionDigits.toNat)))
      i.fractionDigits.toNat
  excluded := excludedItems ++
    if profile = "high-scale-100k" then
      ["external-HA-stores-including-storage-and-sentinel", "Kubernetes-control-plane",
        "extra-workers-beyond-three"]
    else []

def costProfile (profile : String) (hosts cpu memory volume : Nat) (hourly : String)
    (i : CostInput) : Except CostError CostProfile :=
  match micro hourly, micro i.volumeGiBMonthly with
  | .ok perHour, .ok perGiB =>
    .ok (billedProfile profile hosts cpu memory volume hourly i
      (perHour * (hosts * i.monthlyHours.toNat)) (perGiB * (hosts * volume)))
  | _, _ => .error .panic

def costWarnings : List String := [
  "User-entered prices, not provider-verified quotes. No pricing API, exchange-rate lookup or currency-registry validation is performed.",
  "Host/worker prices must cover the stated CPU and memory bundle but exclude separately priced volumes. Existing pod planning shares are not billed again.",
  "Standard includes its single host (including bundled stores) and 50 GiB host storage. High includes three workers and user-entered per-worker storage; external HA stores remain excluded.",
  "Monthly hours are an explicit compute billing assumption. Volumes are charged for a full month, without hourly proration. Discounts, tax, IOPS, snapshots and provider billing rules are not inferred.",
  "High worker volume size is a cost assumption, not a qualified storage recommendation. Pre-scaling pods does not automatically change this fixed worker-count estimate; extra nodes cost extra.",
  "Expected egress is recorded but unpriced. Missing excluded-item prices do not mean those items are free. This report does not certify installability, HA or 10K/100K capacity."]

/-- `Estimate`. -/
def estimate (yearOf : String → Option ℤ) (i : CostInput) : Except CostError CostReport :=
  if ¬ i.Accepted yearOf then .error .input
  else do
    let s ← costProfile "standard-10k" 1 4 8 50 i.standardHostHourly i
    let h ← costProfile "high-scale-100k" 3 8 16 i.highWorkerVolumeGiB.toNat i.highWorkerHourly i
    let r : CostReport := {
      schemaVersion := 1
      scope := "user-priced-reference-subtotals-only"
      input := i
      rounding := "Exact integer micro-units (six decimal places); sum unrounded line amounts, then round subtotal half-up to fractionDigits. Ratio uses exact subtotals, rounded half-up to four decimals."
      profiles := [s, h]
      highToStandardRatio := none
      ratioMeaning := "High/Standard ratio of INCLUDED subtotals only, using the same provider/region/currency/as-of inputs; not a total operating-cost ratio."
      warnings := costWarnings
      qualification := "NOT_RUN" }
    let den ← micro s.exactSubtotal
    let num ← micro h.exactSubtotal
    if den = 0 then
      return { r with ratioMeaning := "UNAVAILABLE_ZERO_STANDARD_SUBTOTAL: a zero user-priced included subtotal does not mean operation is free." }
    else return { r with highToStandardRatio := some (fixed (roundQuotient (num * 10000) den) 4) }

end Estimate

section Micro

theorem micro_eq {s : String} (hfraction : (fraction s.toList).length ≤ 6)
    (hdigit : ∀ c ∈ whole s.toList ++ fraction s.toList, c.isDigit = true) :
    ∃ m, micro s = .ok m ∧ (m : ℚ) = value s.toList * 10 ^ 6 := by
  refine ⟨scale 6 s.toList, ?_, scale_eq hfraction⟩
  rw [micro, if_neg (by omega), if_neg (not_not.mpr hdigit)]

theorem fraction_of_no_point {cs : List Char} (h : '.' ∉ cs) : fraction cs = [] := by
  have hall : ∀ c ∈ cs, (c != '.') = true := by
    intro c hc
    rw [bne_iff_ne]
    rintro rfl
    exact h hc
  rw [fraction, List.dropWhile_eq_nil_iff.mpr hall]
  rfl

theorem micro_price {s : String} (h : Price s.toList) :
    ∃ m, micro s = .ok m ∧ (m : ℚ) = value s.toList * 10 ^ 6 := by
  obtain ⟨hwhole, hpoint⟩ := h
  have hdigits : ∀ c ∈ whole s.toList, c.isDigit = true := by
    rcases hwhole with heq | ⟨-, -, -, hall⟩
    · rw [heq]
      decide
    · exact hall
  by_cases hdot : '.' ∈ s.toList
  · obtain ⟨-, hlength, hall⟩ := hpoint hdot
    refine micro_eq hlength fun c hc => ?_
    rcases List.mem_append.mp hc with hc | hc
    · exact hdigits c hc
    · exact hall c hc
  · have hnil := fraction_of_no_point hdot
    refine micro_eq (by rw [hnil]; decide) ?_
    rw [hnil, List.append_nil]
    exact hdigits

theorem fixed_renders (n places : Nat) :
    Renders places (fixed n places).toList (n / 10 ^ places) := by
  rw [fixed, String.toList_ofList]
  exact print_renders n places

theorem fixed_roundQuotient {d : Nat} (hd : 0 < d) (n places : Nat) {v : ℚ}
    (hv : v * 10 ^ places = n / d) :
    Renders places (fixed (roundQuotient n d) places).toList (roundHalfUp places v) := by
  rw [fixed, String.toList_ofList]
  exact print_roundQuotient hd n places hv

theorem micro_fixed (n : Nat) : micro (fixed n 6) = .ok n := by
  have hr := fixed_renders n 6
  obtain ⟨m, hm, hvalue⟩ := micro_eq (s := fixed n 6) (by rw [hr.length]) hr.digit
  rw [hr.value_eq, div_mul_cancel₀ _ (by norm_num)] at hvalue
  rw [hm, Nat.cast_injective hvalue]

end Micro

section Exact

def amount (s : String) : ℚ := value s.toList

def CostLine.Exact (l : CostLine) : Prop :=
  Renders 6 l.exactAmount.toList (l.quantity * amount l.unitPrice)

def CostProfile.cost (p : CostProfile) : ℚ :=
  (p.included.map fun l => (l.quantity : ℚ) * amount l.unitPrice).sum

/-- A profile of the quantities and the prices of its input, with its sums. -/
structure CostProfile.Exact (p : CostProfile) (i : CostInput) (hosts volume : Nat) (hourly : String) :
    Prop where
  quantities : p.included.map (fun l => (l.id, l.quantity, l.unitPrice)) =
    [("compute", hosts * i.monthlyHours.toNat, hourly),
      ("volume", hosts * volume, i.volumeGiBMonthly)]
  lines : ∀ l ∈ p.included, l.Exact
  subtotal : Renders 6 p.exactSubtotal.toList p.cost
  rounded : Renders i.fractionDigits.toNat p.roundedSubtotal.toList
    (roundHalfUp i.fractionDigits.toNat p.cost)

theorem costProfile_exact {i : CostInput} (hdigits : i.fractionDigits ≤ 4) {hourly : String}
    (hhourly : Price hourly.toList) (hvolume : Price i.volumeGiBMonthly.toList) (profile : String)
    (hosts cpu memory volume : Nat) :
    ∃ p total, costProfile profile hosts cpu memory volume hourly i = .ok p ∧
      p.Exact i hosts volume hourly ∧ p.exactSubtotal = fixed total 6 ∧
      (total : ℚ) = p.cost * 10 ^ 6 := by
  obtain ⟨m, hm, hmvalue⟩ := micro_price hhourly
  obtain ⟨v, hv, hvvalue⟩ := micro_price hvolume
  have hrun : costProfile profile hosts cpu memory volume hourly i =
      .ok (billedProfile profile hosts cpu memory volume hourly i
        (m * (hosts * i.monthlyHours.toNat)) (v * (hosts * volume))) := by
    rw [costProfile, hm, hv]
  generalize hcompute : m * (hosts * i.monthlyHours.toNat) = compute at hrun
  generalize hstorage : v * (hosts * volume) = storage at hrun
  have hfirst : (compute : ℚ) / 10 ^ 6 =
      ((hosts * i.monthlyHours.toNat : Nat) : ℚ) * amount hourly := by
    rw [← hcompute, Nat.cast_mul, hmvalue, amount]
    field_simp
  have hsecond : (storage : ℚ) / 10 ^ 6 =
      ((hosts * volume : Nat) : ℚ) * amount i.volumeGiBMonthly := by
    rw [← hstorage, Nat.cast_mul, hvvalue, amount]
    field_simp
  have hcost : (billedProfile profile hosts cpu memory volume hourly i compute storage).cost =
      ((compute + storage : Nat) : ℚ) / 10 ^ 6 := by
    rw [Nat.cast_add, add_div, hfirst, hsecond]
    simp [CostProfile.cost, billedProfile]
  refine ⟨_, compute + storage, hrun, ⟨rfl, ?_, ?_, ?_⟩, rfl, ?_⟩
  · intro l hl
    rcases List.mem_cons.mp hl with rfl | hl
    · rw [CostLine.Exact, ← hfirst]
      exact fixed_renders _ 6
    · obtain rfl := List.mem_singleton.mp hl
      rw [CostLine.Exact, ← hsecond]
      exact fixed_renders _ 6
  · rw [hcost]
    exact fixed_renders _ 6
  · rw [hcost]
    refine fixed_roundQuotient (by positivity) _ _ ?_
    have hpow : (10 : ℚ) ^ 6 =
        10 ^ (6 - i.fractionDigits.toNat) * 10 ^ i.fractionDigits.toNat := by
      rw [← pow_add]
      congr 1
      omega
    rw [hpow]
    push_cast
    field_simp
  · rw [hcost]
    field_simp

def Ratio (ratio : Option String) (standard high : ℚ) : Prop :=
  match ratio with
  | none => standard = 0
  | some text => standard ≠ 0 ∧ Renders 4 text.toList (roundHalfUp 4 (high / standard))

/-- An input is estimated or refused. Every amount and subtotal of an estimate is the
exact product or sum with six places, every rounded subtotal is that sum rounded half
up, and the ratio is the rounded quotient of the exact sums. -/
theorem estimate_exact (yearOf : String → Option ℤ) (i : CostInput) :
    (i.Accepted yearOf → ∃ r, estimate yearOf i = .ok r) ∧
    ∀ r, estimate yearOf i = .ok r → ∃ s h, r.profiles = [s, h] ∧
      s.Exact i 1 50 i.standardHostHourly ∧
      h.Exact i 3 i.highWorkerVolumeGiB.toNat i.highWorkerHourly ∧
      Ratio r.highToStandardRatio s.cost h.cost := by
  by_cases hi : i.Accepted yearOf
  swap
  · refine ⟨fun h => absurd h hi, fun r hr => ?_⟩
    rw [estimate, if_pos hi] at hr
    cases hr
  obtain ⟨-, -, -, -, -, ⟨-, hdigits⟩, -, -, -, hstandard, hhigh, hvolume⟩ := id hi
  obtain ⟨s, den, hs, hsexact, hstext, hden⟩ :=
    costProfile_exact hdigits hstandard hvolume "standard-10k" 1 4 8 50
  obtain ⟨h, num, hh, hhexact, hhtext, hnum⟩ :=
    costProfile_exact hdigits hhigh hvolume "high-scale-100k" 3 8 16 i.highWorkerVolumeGiB.toNat
  have hrun : ∃ r, estimate yearOf i = .ok r ∧ r.profiles = [s, h] ∧
      r.highToStandardRatio = if den = 0 then none
        else some (fixed (roundQuotient (num * 10000) den) 4) := by
    simp only [estimate, if_neg (not_not.mpr hi), hs, hh, hstext, hhtext, micro_fixed, bind,
      Except.bind, pure, Except.pure]
    split
    · exact ⟨_, rfl, rfl, rfl⟩
    · exact ⟨_, rfl, rfl, rfl⟩
  obtain ⟨r, hr, hprofiles, hratio⟩ := hrun
  refine ⟨fun _ => ⟨r, hr⟩, fun r' hr' => ?_⟩
  obtain rfl := Except.ok.inj (hr.symm.trans hr')
  refine ⟨s, h, hprofiles, hsexact, hhexact, ?_⟩
  rw [hratio]
  by_cases hzero : den = 0
  · rw [if_pos hzero]
    rw [hzero, Nat.cast_zero] at hden
    have hcost : s.cost * 10 ^ 6 = 0 := hden.symm
    exact (mul_eq_zero.mp hcost).resolve_right (by norm_num)
  · rw [if_neg hzero]
    have hpos : (den : ℚ) ≠ 0 := Nat.cast_ne_zero.mpr hzero
    have hcost : s.cost ≠ 0 := by
      intro hs
      rw [hs, zero_mul] at hden
      exact hpos hden
    refine ⟨hcost, ?_⟩
    refine fixed_roundQuotient (Nat.pos_of_ne_zero hzero) _ _ ?_
    rw [Nat.cast_mul, hnum, hden]
    push_cast
    field_simp
    norm_num

def sampleCost : CostInput where
  schemaVersion := 1
  provider := "local"
  regionId := "eu-1"
  currency := "EUR"
  asOf := "2026-01-31"
  fractionDigits := 0
  monthlyHours := 730
  standardHostHourly := "0.000001"
  highWorkerHourly := "2"
  volumeGiBMonthly := "0.05"
  highWorkerVolumeGiB := 100
  expectedEgressGiB := 0

theorem sampleCost_exact : ∃ r s h, estimate (fun _ => some 2026) sampleCost = .ok r ∧
    r.profiles = [s, h] ∧ s.Exact sampleCost 1 50 "0.000001" ∧ h.Exact sampleCost 3 100 "2" ∧
    Ratio r.highToStandardRatio s.cost h.cost := by
  have h := estimate_exact (fun _ => some 2026) sampleCost
  obtain ⟨r, hr⟩ := h.1 (by decide)
  obtain ⟨s, high, hprofiles, hs, hh, hratio⟩ := h.2 r hr
  exact ⟨r, s, high, hr, hprofiles, hs, hh, hratio⟩

end Exact

end WaitingRoom.Install
