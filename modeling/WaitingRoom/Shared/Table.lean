import Mathlib

/-!
# Finite tables

A table is an association list without repeated keys. It is known by what
`get` answers; `size` and `count` are the quantities a store can ask for. No
statement here depends on the order in which the rows happen to be kept.
-/

namespace WaitingRoom

set_option autoImplicit false

universe u v

def Table (K : Type u) (V : Type v) := AList (fun _ : K => V)

namespace Table

variable {K : Type u} {V : Type v}

instance : EmptyCollection (Table K V) := inferInstanceAs (EmptyCollection (AList fun _ : K => V))

instance [DecidableEq K] [DecidableEq V] : DecidableEq (Table K V) := fun t t' =>
  decidable_of_iff (t.entries = t'.entries) AList.ext_iff.symm

def rows (t : Table K V) : List (K × V) := t.entries.map fun e => (e.1, e.2)

def size (t : Table K V) : Nat := t.rows.length

/-- Number of rows whose value satisfies `p`. -/
def count (p : V → Bool) (t : Table K V) : Nat := t.rows.countP fun e => p e.2

/-- The rows whose value satisfies `p`. -/
def keep (p : V → Bool) (t : Table K V) : Table K V :=
  ⟨t.entries.filter fun e => p e.2, t.nodupKeys.sublist List.filter_sublist⟩

/-- The rows that satisfy `p`, which also sees the key. -/
def filter (p : K → V → Bool) (t : Table K V) : Table K V :=
  ⟨t.entries.filter fun e => p e.1 e.2, t.nodupKeys.sublist List.filter_sublist⟩

def mapVals {W : Type v} (f : V → W) (t : Table K V) : Table K W :=
  ⟨t.entries.map fun e => ⟨e.1, f e.2⟩, by
    have h := t.nodupKeys
    rw [List.NodupKeys, List.keys] at h ⊢
    simpa [Function.comp_def] using h⟩

@[simp] theorem rows_empty : (∅ : Table K V).rows = [] := rfl

@[simp] theorem size_empty : (∅ : Table K V).size = 0 := rfl

@[simp] theorem count_empty (p : V → Bool) : (∅ : Table K V).count p = 0 := rfl

theorem rows_keys_nodup (t : Table K V) : (t.rows.map Prod.fst).Nodup := by
  have h := t.keys_nodup
  simpa [rows, AList.keys, List.keys, Function.comp_def] using h

theorem rows_nodup (t : Table K V) : t.rows.Nodup := t.rows_keys_nodup.of_map

theorem count_le_size (p : V → Bool) (t : Table K V) : t.count p ≤ t.size := List.countP_le_length

theorem rows_keep (p : V → Bool) (t : Table K V) :
    (t.keep p).rows = t.rows.filter fun e => p e.2 := by
  simp [rows, keep, List.filter_map, Function.comp_def]

theorem rows_filter (p : K → V → Bool) (t : Table K V) :
    (t.filter p).rows = t.rows.filter fun e => p e.1 e.2 := by
  simp [rows, filter, List.filter_map, Function.comp_def]

theorem rows_mapVals {W : Type v} (f : V → W) (t : Table K V) :
    (t.mapVals f).rows = t.rows.map fun e => (e.1, f e.2) := by
  simp [rows, mapVals, Function.comp_def]

variable {p : V → Bool} {t s : Table K V} {k k' : K} {v v' : V}

theorem count_mapVals_le {f : V → V} (h : ∀ v, p (f v) = true → p v = true) (t : Table K V) :
    (t.mapVals f).count p ≤ t.count p := by
  rw [count, rows_mapVals, List.countP_map]
  exact List.countP_mono_left fun e _ he => h e.2 he

theorem size_keep (p : V → Bool) (t : Table K V) : (t.keep p).size = t.count p := by
  rw [size, rows_keep, count, List.countP_eq_length_filter]

theorem size_keep_le (p : V → Bool) (t : Table K V) : (t.keep p).size ≤ t.size := by
  rw [size_keep]
  exact count_le_size p t

variable [DecidableEq K]

def get (t : Table K V) (k : K) : Option V := AList.lookup k t

def put (t : Table K V) (k : K) (v : V) : Table K V := AList.insert k v t

def del (t : Table K V) (k : K) : Table K V := AList.erase k t

theorem mem_rows : (k, v) ∈ t.rows ↔ t.get k = some v := by
  have hm : (⟨k, v⟩ : Sigma fun _ : K => V) ∈ t.entries ↔ t.get k = some v :=
    AList.mem_lookup_iff.symm
  rw [← hm]
  constructor
  · intro h
    obtain ⟨⟨a, b⟩, hab, he⟩ := List.mem_map.mp h
    obtain ⟨rfl, rfl⟩ := Prod.mk.inj he
    exact hab
  · intro h
    exact List.mem_map.mpr ⟨⟨k, v⟩, h, rfl⟩

theorem mem_keys : k ∈ t.rows.map Prod.fst ↔ ∃ v, t.get k = some v := by
  constructor
  · intro h
    obtain ⟨⟨a, v⟩, hm, rfl⟩ := List.mem_map.mp h
    exact ⟨v, mem_rows.mp hm⟩
  · rintro ⟨v, hv⟩
    exact List.mem_map.mpr ⟨(k, v), mem_rows.mpr hv, rfl⟩

@[simp] theorem get_empty (k : K) : (∅ : Table K V).get k = none := rfl

theorem get_put (t : Table K V) (k k' : K) (v : V) :
    (t.put k v).get k' = if k' = k then some v else t.get k' := by
  split
  · subst k'; exact AList.lookup_insert t
  · exact AList.lookup_insert_ne (by assumption)

theorem get_del (t : Table K V) (k k' : K) :
    (t.del k).get k' = if k' = k then none else t.get k' := by
  split
  · subst k'; exact AList.lookup_erase k t
  · exact AList.lookup_erase_ne (by assumption)

@[simp] theorem get_put_self (t : Table K V) (k : K) (v : V) : (t.put k v).get k = some v := by
  simp [get_put]

@[simp] theorem get_put_ne (h : k' ≠ k) :
    (t.put k v).get k' = t.get k' := by simp [get_put, h]

@[simp] theorem get_del_self (t : Table K V) (k : K) : (t.del k).get k = none := by simp [get_del]

@[simp] theorem get_del_ne (h : k' ≠ k) :
    (t.del k).get k' = t.get k' := by simp [get_del, h]

theorem get_of_get_del (h : (t.del k).get k' = some v) :
    t.get k' = some v := by
  rw [get_del] at h
  split at h
  · simp at h
  · exact h

theorem get_keep (p : V → Bool) (t : Table K V) (k : K) :
    (t.keep p).get k = (t.get k).filter p := by
  apply Option.ext
  intro v
  rw [← mem_rows, Option.filter_eq_some_iff, ← mem_rows, rows_keep]
  simp

theorem get_filter (p : K → V → Bool) (t : Table K V) (k : K) :
    (t.filter p).get k = (t.get k).filter (p k) := by
  apply Option.ext
  intro v
  rw [← mem_rows, Option.filter_eq_some_iff, ← mem_rows, rows_filter]
  simp

theorem get_mapVals {W : Type v} (f : V → W) (t : Table K V) (k : K) :
    (t.mapVals f).get k = (t.get k).map f := by
  apply Option.ext
  intro w
  rw [← mem_rows, rows_mapVals, Option.map_eq_some_iff]
  constructor
  · intro h
    obtain ⟨⟨a, v⟩, hm, he⟩ := List.mem_map.mp h
    obtain ⟨rfl, rfl⟩ := Prod.mk.inj he
    exact ⟨v, mem_rows.mp hm, rfl⟩
  · rintro ⟨v, hv, rfl⟩
    exact List.mem_map.mpr ⟨(k, v), mem_rows.mpr hv, rfl⟩

theorem rows_perm_of_get_eq (h : ∀ k, s.get k = t.get k) :
    s.rows.Perm t.rows := by
  apply (List.perm_ext_iff_of_nodup s.rows_nodup t.rows_nodup).mpr
  rintro ⟨k, v⟩
  rw [mem_rows, mem_rows, h k]

theorem rows_put_perm (t : Table K V) (k : K) (v : V) :
    (t.put k v).rows.Perm ((k, v) :: (t.del k).rows) := by
  apply (List.perm_ext_iff_of_nodup (rows_nodup _) ?_).mpr
  · rintro ⟨a, b⟩
    rw [mem_rows, List.mem_cons, mem_rows, get_put, get_del]
    by_cases ha : a = k
    · subst a; simp [eq_comm]
    · simp [ha]
  · apply List.nodup_cons.mpr
    refine ⟨fun h => ?_, rows_nodup _⟩
    have := mem_rows.mp h
    simp at this

theorem put_del_get (h : t.get k = some v) (a : K) :
    (t.put k v).get a = t.get a := by
  rw [get_put]
  split
  · subst a; exact h.symm
  · rfl

theorem rows_perm_cons_del (h : t.get k = some v) :
    t.rows.Perm ((k, v) :: (t.del k).rows) :=
  (rows_perm_of_get_eq (put_del_get h)).symm.trans (rows_put_perm t k v)

theorem size_congr (h : ∀ k, s.get k = t.get k) : s.size = t.size :=
  (rows_perm_of_get_eq h).length_eq

theorem count_congr (p : V → Bool) (h : ∀ k, s.get k = t.get k) :
    s.count p = t.count p := (rows_perm_of_get_eq h).countP_eq _

theorem size_eq_zero_iff : t.size = 0 ↔ ∀ k, t.get k = none := by
  constructor
  · intro h k
    cases hk : t.get k with
    | none => rfl
    | some v =>
      have hm := mem_rows.mpr hk
      rw [List.length_eq_zero_iff.mp h] at hm
      simp at hm
  · intro h
    apply List.length_eq_zero_iff.mpr
    apply List.eq_nil_iff_forall_not_mem.mpr
    rintro ⟨k, v⟩ hm
    have hv := mem_rows.mp hm
    simp [h k] at hv

theorem size_put (t : Table K V) (k : K) (v : V) : (t.put k v).size = (t.del k).size + 1 := by
  rw [size, (rows_put_perm t k v).length_eq, List.length_cons, size]

theorem size_del_add_one (h : t.get k = some v) :
    (t.del k).size + 1 = t.size := by
  rw [size, size, (rows_perm_cons_del h).length_eq, List.length_cons]

theorem del_get_of_none (h : t.get k = none) (a : K) :
    (t.del k).get a = t.get a := by
  rw [get_del]
  split
  · subst a; exact h.symm
  · rfl

theorem size_put_of_some (h : t.get k = some v) :
    (t.put k v').size = t.size := by rw [size_put, size_del_add_one h]

theorem size_put_of_none (h : t.get k = none) :
    (t.put k v).size = t.size + 1 := by rw [size_put, size_congr (del_get_of_none h)]

theorem size_del_le (t : Table K V) (k : K) : (t.del k).size ≤ t.size := by
  cases h : t.get k with
  | none => exact Nat.le_of_eq (size_congr (del_get_of_none h))
  | some v => have := size_del_add_one h; omega

theorem size_put_le (t : Table K V) (k : K) (v : V) : (t.put k v).size ≤ t.size + 1 := by
  have := size_del_le t k
  rw [size_put]
  omega

theorem count_put (p : V → Bool) (t : Table K V) (k : K) (v : V) :
    (t.put k v).count p = (t.del k).count p + if p v then 1 else 0 := by
  rw [count, (rows_put_perm t k v).countP_eq, List.countP_cons, count]

theorem count_del_add (p : V → Bool) (h : t.get k = some v) :
    (t.del k).count p + (if p v then 1 else 0) = t.count p := by
  rw [count, count, (rows_perm_cons_del h).countP_eq, List.countP_cons]

theorem count_del_of_none (p : V → Bool) (h : t.get k = none) :
    (t.del k).count p = t.count p := count_congr p (del_get_of_none h)

theorem count_put_le (p : V → Bool) (t : Table K V) (k : K) (v : V) :
    (t.put k v).count p ≤ t.count p + if p v then 1 else 0 := by
  rw [count_put]
  cases hk : t.get k with
  | none => rw [count_del_of_none p hk]
  | some old =>
    have hdel := count_del_add p hk
    omega

theorem count_put_le_of_imp (hk : t.get k = some v) (h : p v' = true → p v = true) :
    (t.put k v').count p ≤ t.count p := by
  have hdel := count_del_add p hk
  rw [count_put]
  by_cases hv : p v' = true
  · rw [if_pos hv]
    rw [if_pos (h hv)] at hdel
    omega
  · rw [if_neg hv]
    omega

theorem count_update (p : V → Bool) {row : Option V}
    (h : ∀ a, t.get a = if a = k then row else s.get a) :
    t.count p + (if (s.get k).any p then 1 else 0) = s.count p + if row.any p then 1 else 0 := by
  have hs : (s.del k).count p + (if (s.get k).any p then 1 else 0) = s.count p := by
    cases hk : s.get k with
    | none => simpa using count_del_of_none p hk
    | some v => simpa using count_del_add p hk
  have ht : t.count p = (s.del k).count p + if row.any p then 1 else 0 := by
    cases row with
    | none =>
      rw [count_congr p fun a => (h a).trans (get_del s k a).symm]
      rfl
    | some v =>
      rw [count_congr p fun a => (h a).trans (get_put s k a v).symm, count_put]
      rfl
  omega

theorem count_eq_zero_iff (p : V → Bool) :
    t.count p = 0 ↔ ∀ k v, t.get k = some v → p v = false := by
  rw [count, List.countP_eq_zero]
  constructor
  · intro h k v hv
    simpa using h (k, v) (mem_rows.mpr hv)
  · rintro h ⟨k, v⟩ hm
    simpa using h k v (mem_rows.mp hm)

theorem length_le_size_of_image {L : Type u} {l : List L} (hn : l.Nodup) {f : K → L}
    (h : ∀ a ∈ l, ∃ k v, t.get k = some v ∧ f k = a) : l.length ≤ t.size := by
  have hsub : l ⊆ (t.rows.map Prod.fst).map f := by
    intro a ha
    obtain ⟨k, v, hk, rfl⟩ := h a ha
    exact List.mem_map_of_mem (mem_keys.mpr ⟨v, hk⟩)
  simpa [size] using (List.subperm_of_subset hn hsub).length_le

theorem length_le_size {l : List K} (hn : l.Nodup) (h : ∀ k ∈ l, ∃ v, t.get k = some v) :
    l.length ≤ t.size :=
  length_le_size_of_image (f := id) hn fun k hk => by
    obtain ⟨v, hv⟩ := h k hk
    exact ⟨k, v, hv, rfl⟩

theorem mem_of_size_le {l : List K} (hn : l.Nodup) (h : ∀ k ∈ l, ∃ v, t.get k = some v)
    (hle : t.size ≤ l.length) (hk : t.get k = some v) : k ∈ l := by
  have hp := (List.subperm_of_subset hn fun k hk => mem_keys.mpr (h k hk)).perm_of_length_le
    (by simpa [size] using hle)
  exact hp.mem_iff.mpr (mem_keys.mpr ⟨v, hk⟩)

theorem eq_of_count_le_one (h : t.count p ≤ 1) (hk : t.get k = some v) (hp : p v)
    (hk' : t.get k' = some v') (hp' : p v') : k = k' := by
  by_contra hne
  have hdel : (t.del k).count p = 0 := by
    have hc := count_del_add p hk
    rw [if_pos hp] at hc
    omega
  have hget : (t.del k).get k' = some v' := by rw [get_del_ne (Ne.symm hne), hk']
  have hfalse := (count_eq_zero_iff p).mp hdel k' v' hget
  simp [hp'] at hfalse

section Covering

variable {W : Type v} {s : Table K V} {t : Table K W}

theorem size_le_of_covers (h : ∀ k v, s.get k = some v → ∃ w, t.get k = some w) : s.size ≤ t.size := by
  have hle := length_le_size s.rows_keys_nodup fun k hk => by
    obtain ⟨v, hv⟩ := mem_keys.mp hk
    exact h k v hv
  simpa [size] using hle

theorem covers_of_size_le (h : ∀ k v, s.get k = some v → ∃ w, t.get k = some w)
    (hle : t.size ≤ s.size) {k : K} {w : W} (hk : t.get k = some w) : ∃ v, s.get k = some v := by
  refine mem_keys.mp (mem_of_size_le s.rows_keys_nodup (fun k hk => ?_) ?_ hk)
  · obtain ⟨v, hv⟩ := mem_keys.mp hk
    exact h k v hv
  · simpa [size] using hle

end Covering

end Table

end WaitingRoom
