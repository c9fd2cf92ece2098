import Mathlib

/-!
# Counts by the second

A ring of `n` slots counts what happens in each of the last `n` seconds. The slot of
a second is cleared when a later second needs it, and not before, so that a slot may
hold a second that is no longer asked for. As long as the seconds do not go back, the
slots agree with the list of what was counted.
-/

namespace WaitingRoom

set_option autoImplicit false

structure Ring (n : Nat) where
  counts : Fin n → Nat := fun _ => 0
  seconds : Fin n → ℤ := fun _ => 0

namespace Ring

variable {n : Nat} [NeZero n]

theorem slot_lt (sec : ℤ) : (sec % n).toNat < n := by
  have hn : 0 < (n : ℤ) := by exact_mod_cast Nat.pos_of_neZero n
  have h₁ := Int.emod_nonneg sec hn.ne'
  have h₂ := Int.emod_lt_of_pos sec hn
  omega

def slot (sec : ℤ) : Fin n := ⟨(sec % n).toNat, slot_lt sec⟩

/-- One more in the second `sec`, up to `cap`. -/
def bump (cap : Nat) (r : Ring n) (sec : ℤ) : Ring n :=
  let i : Fin n := slot sec
  let count := if r.seconds i ≠ sec then 0 else r.counts i
  { seconds := Function.update r.seconds i sec
    counts := Function.update r.counts i (if count < cap then count + 1 else count) }

/-- The sum of the slots whose second is one of the last `n`. -/
def total (r : Ring n) (sec : ℤ) : Nat :=
  (List.finRange n).foldl (fun total i =>
    if sec - n < r.seconds i ∧ r.seconds i ≤ sec then total + r.counts i else total) 0

theorem slot_eq_iff {u v : ℤ} : (slot u : Fin n) = slot v ↔ u % n = v % n := by
  have hn : (n : ℤ) ≠ 0 := by exact_mod_cast (NeZero.ne n)
  have hu := Int.emod_nonneg u hn
  have hv := Int.emod_nonneg v hn
  rw [slot, slot, Fin.mk.injEq]
  omega

theorem eq_of_slot {s u v : ℤ} (hu : u ∈ Finset.Ioc (s - n) s) (hv : v ∈ Finset.Ioc (s - n) s)
    (h : (slot u : Fin n) = slot v) : u = v := by
  rw [Finset.mem_Ioc] at hu hv
  have hdvd : (n : ℤ) ∣ v - u := Int.ModEq.dvd (slot_eq_iff.mp h)
  have habs : |v - u| < n := abs_lt.mpr ⟨by omega, by omega⟩
  have hzero := Int.eq_zero_of_abs_lt_dvd hdvd habs
  omega

theorem exists_slot (s : ℤ) (i : Fin n) : ∃ u ∈ Finset.Ioc (s - n) s, (slot u : Fin n) = i := by
  have hn : 0 < (n : ℤ) := by exact_mod_cast Nat.pos_of_neZero n
  have h₁ := Int.emod_nonneg (s - i) hn.ne'
  have h₂ := Int.emod_lt_of_pos (s - i) hn
  refine ⟨s - (s - i) % n, Finset.mem_Ioc.mpr ⟨by omega, by omega⟩, ?_⟩
  have hmod : (s - (s - i) % n) % n = i := by
    have hdiv : s - (s - i) % n = i + n * ((s - i) / n) := by
      have := Int.emod_add_mul_ediv (s - i) n
      omega
    rw [hdiv, Int.add_mul_emod_self_left]
    exact Int.emod_eq_of_lt (by omega) (by have := i.isLt; omega)
  apply Fin.ext
  rw [slot]
  dsimp only
  rw [hmod, Int.toNat_natCast]

omit [NeZero n] in
theorem total_eq_sum (r : Ring n) (s : ℤ) :
    r.total s = ∑ i : Fin n, if s - n < r.seconds i ∧ r.seconds i ≤ s then r.counts i else 0 := by
  have hfold : ∀ (is : List (Fin n)) (total : Nat), is.foldl (fun total i =>
      if s - n < r.seconds i ∧ r.seconds i ≤ s then total + r.counts i else total) total =
        total + (is.map fun i =>
          if s - n < r.seconds i ∧ r.seconds i ≤ s then r.counts i else 0).sum := by
    intro is
    induction is with
    | nil => simp
    | cons i is ih =>
      intro total
      rw [List.foldl_cons, ih, List.map_cons, List.sum_cons]
      split <;> omega
  rw [total, hfold, Nat.zero_add, Fin.sum_univ_def]

/-- What the slots say of the seconds `seen`, which are counted up to `cap`. -/
def Tallies (cap : Nat) (seen : List ℤ) (r : Ring n) : Prop :=
  ∀ i : Fin n, (r.counts i = 0 ∧ ∀ u ∈ seen, slot u ≠ i) ∨
    (slot (r.seconds i) = i ∧ r.counts i = min cap (seen.count (r.seconds i)) ∧
      r.seconds i ∈ seen ∧ ∀ u ∈ seen, slot u = i → u ≤ r.seconds i)

variable {cap : Nat} {seen : List ℤ} {r : Ring n}

theorem tallies_empty : Tallies cap [] ({} : Ring n) :=
  fun _ => .inl ⟨rfl, fun _ h => absurd h List.not_mem_nil⟩

theorem Tallies.bump (h : Tallies cap seen r) {t : ℤ} (ht : ∀ u ∈ seen, u ≤ t) :
    Tallies cap (t :: seen) (r.bump cap t) := by
  intro i
  by_cases hi : slot t = i
  · subst hi
    right
    have hsec : (r.bump cap t).seconds (slot t) = t := Function.update_self _ _ _
    have hcount : (if r.seconds (slot t) ≠ t then 0 else r.counts (slot t)) =
        min cap (seen.count t) := by
      rcases h (slot t) with ⟨hzero, hnone⟩ | ⟨-, hcounts, hmem, hlast⟩
      · have hout : t ∉ seen := fun hm => hnone t hm rfl
        rw [hzero, ite_self, List.count_eq_zero_of_not_mem hout, Nat.min_zero]
      · by_cases heq : r.seconds (slot t) = t
        · rw [if_neg (not_not.mpr heq), hcounts, heq]
        · have hout : t ∉ seen :=
            fun hm => heq (le_antisymm (ht _ hmem) (hlast t hm rfl))
          rw [if_pos heq, List.count_eq_zero_of_not_mem hout, Nat.min_zero]
    have hupdate : (r.bump cap t).counts (slot t) =
        if min cap (seen.count t) < cap then min cap (seen.count t) + 1
        else min cap (seen.count t) := by
      rw [← hcount]
      exact Function.update_self _ _ _
    refine ⟨by rw [hsec], ?_, by rw [hsec]; exact List.mem_cons_self, ?_⟩
    · rw [hsec, List.count_cons_self, hupdate]
      split <;> omega
    · intro u hu _
      rw [hsec]
      rcases List.mem_cons.mp hu with rfl | hu
      · exact le_rfl
      · exact ht u hu
  · have hsec : (r.bump cap t).seconds i = r.seconds i := Function.update_of_ne (Ne.symm hi) _ _
    have hcounts : (r.bump cap t).counts i = r.counts i := Function.update_of_ne (Ne.symm hi) _ _
    rw [hsec, hcounts]
    rcases h i with ⟨hzero, hnone⟩ | ⟨hslot, hcount, hmem, hlast⟩
    · exact .inl ⟨hzero, List.forall_mem_cons.mpr ⟨hi, hnone⟩⟩
    · have hne : t ≠ r.seconds i := by
        rintro rfl
        exact hi hslot
      refine .inr ⟨hslot, ?_, List.mem_cons_of_mem _ hmem, ?_⟩
      · rw [List.count_cons_of_ne hne, hcount]
      · intro u hu hui
        rcases List.mem_cons.mp hu with rfl | hu
        · exact absurd hui hi
        · exact hlast u hu hui

theorem Tallies.total (h : Tallies cap seen r) {s : ℤ} (hs : ∀ u ∈ seen, u ≤ s) :
    r.total s = ∑ u ∈ Finset.Ioc (s - n) s, min cap (seen.count u) := by
  rw [total_eq_sum]
  symm
  refine Finset.sum_nbij slot (fun _ _ => Finset.mem_univ _) ?_ ?_ ?_
  · intro u hu v hv huv
    exact eq_of_slot hu hv huv
  · intro i _
    exact exists_slot s i
  · intro u hu
    rcases h (slot u) with ⟨hzero, hnone⟩ | ⟨hslot, hcount, hmem, hlast⟩
    · have hout : u ∉ seen := fun hm => hnone u hm rfl
      rw [hzero, ite_self, List.count_eq_zero_of_not_mem hout, Nat.min_zero]
    · by_cases hin : s - n < r.seconds (slot u)
      · have heq : r.seconds (slot u) = u :=
          eq_of_slot (Finset.mem_Ioc.mpr ⟨hin, hs _ hmem⟩) hu hslot
        rw [if_pos ⟨hin, hs _ hmem⟩, hcount, heq]
      · -- the slot still holds a second before the window
        have hout : u ∉ seen := by
          intro hm
          have hle := hlast u hm rfl
          rw [Finset.mem_Ioc] at hu
          omega
        rw [if_neg (fun hw => hin hw.1), List.count_eq_zero_of_not_mem hout, Nat.min_zero]

omit [NeZero n] in
theorem sum_min_le (cap : Nat) (seen : List ℤ) (s : ℤ) :
    ∑ u ∈ Finset.Ioc (s - n) s, min cap (seen.count u) ≤ n * cap := by
  calc ∑ u ∈ Finset.Ioc (s - n) s, min cap (seen.count u)
      ≤ (Finset.Ioc (s - n) s).card • cap := Finset.sum_le_card_nsmul _ _ _ fun _ _ => min_le_left _ _
    _ = n * cap := by
      rw [Int.card_Ioc, smul_eq_mul]
      congr 1
      omega

omit [NeZero n] in
theorem sum_count_eq_length {s : ℤ} (hs : ∀ u ∈ seen, u ≤ s) (hfull : ∀ u, seen.count u ≤ cap) :
    ∑ u ∈ Finset.Ioc (s - n) s, min cap (seen.count u) =
      (seen.filter fun u => s - n < u).length := by
  have hmin : ∀ u, min cap (seen.count u) = seen.count u := fun u => Nat.min_eq_right (hfull u)
  simp only [hmin]
  clear hfull hmin
  induction seen with
  | nil => simp
  | cons t seen ih =>
    obtain ⟨ht, hs⟩ := List.forall_mem_cons.mp hs
    simp only [List.count_cons, Finset.sum_add_distrib, ih hs, beq_iff_eq]
    rw [Finset.sum_ite_eq]
    by_cases hin : s - n < t
    · rw [if_pos (Finset.mem_Ioc.mpr ⟨hin, ht⟩), List.filter_cons_of_pos (by simpa using hin),
        List.length_cons]
    · rw [if_neg (fun hm => hin (Finset.mem_Ioc.mp hm).1),
        List.filter_cons_of_neg (by simpa using hin), Nat.add_zero]

end Ring

end WaitingRoom
