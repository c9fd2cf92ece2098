import WaitingRoom.Shared.Table

/-!
# Disjoint unions of tables

A table whose keys are the tagged keys of a family of tables has as many rows as
the family, provided that a tagged key names its table and its key.
-/

namespace WaitingRoom.Table

set_option autoImplicit false

universe u v w x

variable {K : Type u} {V : Type v} [DecidableEq K]

def keySet (t : Table K V) : Finset K := (t.rows.map Prod.fst).toFinset

theorem mem_keySet {t : Table K V} {k : K} : k ∈ t.keySet ↔ ∃ v, t.get k = some v := by
  rw [keySet, List.mem_toFinset, mem_keys]

theorem card_keySet (t : Table K V) : t.keySet.card = t.size := by
  rw [keySet, List.toFinset_card_of_nodup t.rows_keys_nodup, List.length_map, size]

theorem size_eq_of_same_keys {W : Type w} {s : Table K V} {t : Table K W}
    (h : ∀ k, (s.get k).isSome = (t.get k).isSome) : s.size = t.size := by
  rw [← card_keySet, ← card_keySet]
  congr 1
  ext k
  rw [mem_keySet, mem_keySet, ← Option.isSome_iff_exists, h k, Option.isSome_iff_exists]

section Tagged

variable {R : Type w} {L : Type x} {W : Type v} [DecidableEq L] {t : Table L W} {rooms : Finset R}
  {part : R → Table K V} {tag : R → K → L}

/-- The tagged keys of the tables `part r`. -/
def taggedKeys (rooms : Finset R) (part : R → Table K V) (tag : R → K → L) : Finset L :=
  rooms.biUnion fun r => (part r).keySet.image (tag r)

theorem mem_taggedKeys {o : L} : o ∈ taggedKeys rooms part tag ↔
    ∃ r ∈ rooms, ∃ k, (∃ v, (part r).get k = some v) ∧ tag r k = o := by
  simp only [taggedKeys, mem_keySet, Finset.mem_biUnion, Finset.mem_image]

variable (inj : ∀ r ∈ rooms, ∀ r' ∈ rooms, ∀ k k', (∃ v, (part r).get k = some v) →
  (∃ v, (part r').get k' = some v) → tag r k = tag r' k' → r = r' ∧ k = k')
include inj

theorem card_taggedKeys : (taggedKeys rooms part tag).card = ∑ r ∈ rooms, (part r).size := by
  rw [taggedKeys, Finset.card_biUnion]
  · apply Finset.sum_congr rfl
    intro r hr
    rw [Finset.card_image_of_injOn, card_keySet]
    intro k hk k' hk' heq
    exact (inj r hr r hr k k' (mem_keySet.mp hk) (mem_keySet.mp hk') heq).2
  · intro r hr r' hr' hne
    rw [Function.onFun, Finset.disjoint_left]
    intro o ho ho'
    obtain ⟨k, hk, rfl⟩ := Finset.mem_image.mp ho
    obtain ⟨k', hk', heq⟩ := Finset.mem_image.mp ho'
    exact hne (inj r hr r' hr' k k' (mem_keySet.mp hk) (mem_keySet.mp hk') heq.symm).1

/-- `t` is the union of the tables `part r`, the key `k` of `part r` tagged as `tag r k`. -/
theorem size_eq_sum (cover : ∀ o, (∃ w, t.get o = some w) ↔
      ∃ r ∈ rooms, ∃ k, (∃ v, (part r).get k = some v) ∧ tag r k = o) :
    t.size = ∑ r ∈ rooms, (part r).size := by
  have hkeys : t.keySet = taggedKeys rooms part tag := by
    ext o
    rw [mem_keySet, mem_taggedKeys]
    exact cover o
  rw [← card_keySet, hkeys, card_taggedKeys inj]

theorem tagged_of_size_le
    (tagged : ∀ r ∈ rooms, ∀ k v, (part r).get k = some v → ∃ w, t.get (tag r k) = some w)
    (hle : t.size ≤ ∑ r ∈ rooms, (part r).size) {o : L} {w : W} (ho : t.get o = some w) :
    ∃ r ∈ rooms, ∃ k, (∃ v, (part r).get k = some v) ∧ tag r k = o := by
  have hsub : taggedKeys rooms part tag ⊆ t.keySet := by
    intro o ho
    obtain ⟨r, hr, k, ⟨v, hk⟩, rfl⟩ := mem_taggedKeys.mp ho
    exact mem_keySet.mpr (tagged r hr k v hk)
  have hkeys := Finset.eq_of_subset_of_card_le hsub
    (by rw [card_keySet, card_taggedKeys inj]; exact hle)
  rw [← mem_taggedKeys, hkeys]
  exact mem_keySet.mpr ⟨w, ho⟩

end Tagged

end WaitingRoom.Table
