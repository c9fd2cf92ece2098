import WaitingRoom.Shared.Ranking

/-!
# Removing members by batches

A set of scores is drained by removing, again and again, the first members that
are due. What is due after a batch are the due members behind it, so batches add
up: the members removed so far are always the first ones of the original order.
-/

namespace WaitingRoom.Table

set_option autoImplicit false

universe u v

section Delete

variable {K : Type u} {V : Type v}

theorem keep_keep (p : V → Bool) (t : Table K V) : (t.keep p).keep p = t.keep p := by
  apply AList.ext
  simp [keep, List.filter_filter]

variable [DecidableEq K]

/-- The table without the rows of the keys `ks`. -/
def delAll (t : Table K V) (ks : List K) : Table K V := ks.foldl del t

@[simp] theorem delAll_nil (t : Table K V) : t.delAll [] = t := rfl

@[simp] theorem delAll_cons (t : Table K V) (k : K) (ks : List K) :
    t.delAll (k :: ks) = (t.del k).delAll ks := rfl

theorem delAll_append (t : Table K V) (ks ks' : List K) :
    t.delAll (ks ++ ks') = (t.delAll ks).delAll ks' := List.foldl_append

theorem get_delAll (t : Table K V) (ks : List K) (k : K) :
    (t.delAll ks).get k = if k ∈ ks then none else t.get k := by
  induction ks generalizing t with
  | nil => simp
  | cons a ks ih =>
    rw [delAll_cons, ih, get_del]
    by_cases hk : k = a
    · simp [hk]
    · simp [hk]

theorem size_le_size_delAll (t : Table K V) (ks : List K) :
    t.size ≤ (t.delAll ks).size + ks.length := by
  induction ks generalizing t with
  | nil => simp
  | cons a ks ih =>
    have hstep : t.size ≤ (t.del a).size + 1 := by
      cases ha : t.get a with
      | none => exact (size_congr (del_get_of_none ha)).ge.trans (Nat.le_succ _)
      | some v => exact (size_del_add_one ha).ge
    have hrest := ih (t.del a)
    rw [delAll_cons, List.length_cons]
    omega

theorem keep_eq_self {p : V → Bool} {t : Table K V} (h : ∀ k v, t.get k = some v → p v) :
    t.keep p = t := by
  apply AList.ext
  refine List.filter_eq_self.mpr fun e he => h e.1 e.2 ?_
  exact AList.mem_lookup_iff.mpr he

end Delete

theorem filter_notMem_take {K : Type u} [DecidableEq K] {l : List K} (hn : l.Nodup) (n : Nat) :
    l.filter (fun k => decide (k ∉ l.take n)) = l.drop n := by
  have hd : List.Disjoint (l.take n) (l.drop n) := List.disjoint_take_drop hn (Nat.le_refl n)
  have htake : (l.take n).filter (fun k => decide (k ∉ l.take n)) = [] := by
    rw [List.filter_eq_nil_iff]
    intro k hk
    simp [hk]
  have hdrop : (l.drop n).filter (fun k => decide (k ∉ l.take n)) = l.drop n := by
    rw [List.filter_eq_self]
    intro k hk
    simpa using fun h => hd h hk
  calc l.filter (fun k => decide (k ∉ l.take n))
      = (l.take n ++ l.drop n).filter (fun k => decide (k ∉ l.take n)) := by
        rw [List.take_append_drop]
    _ = l.drop n := by rw [List.filter_append, htake, hdrop, List.nil_append]

section Due

variable {K : Type u} {S : Type v} [LinearOrder K] [LinearOrder S]

theorem length_due (t : Table K S) (x : S) :
    (t.due x).length = t.count fun s => decide (s ≤ x) := by
  rw [due, List.length_map, ← List.countP_eq_length_filter]
  exact t.ranking_perm.countP_eq _

theorem ranking_delAll (t : Table K S) (ks : List K) :
    (t.delAll ks).ranking = t.ranking.filter fun e => decide (e.1 ∉ ks) := by
  apply List.Perm.eq_of_pairwise' (ranking_pairwise _) (t.ranking_pairwise.filter _)
  have hleft : (t.delAll ks).ranking.Nodup :=
    (ranking_perm _).nodup_iff.mpr (rows_nodup _)
  have hright : (t.ranking.filter fun e => decide (e.1 ∉ ks)).Nodup :=
    ((ranking_perm t).nodup_iff.mpr (rows_nodup t)).filter _
  rw [List.perm_ext_iff_of_nodup hleft hright]
  rintro ⟨k, s⟩
  rw [mem_ranking, get_delAll, List.mem_filter, mem_ranking]
  by_cases hk : k ∈ ks
  · simp [hk]
  · simp [hk]

theorem due_delAll (t : Table K S) (x : S) (ks : List K) :
    (t.delAll ks).due x = (t.due x).filter fun k => decide (k ∉ ks) := by
  rw [due, ranking_delAll, List.filter_filter, due, List.filter_map, List.filter_filter]
  simp only [Function.comp_def, Bool.and_comm]

theorem due_delAll_take (t : Table K S) (x : S) (n : Nat) :
    (t.delAll ((t.due x).take n)).due x = (t.due x).drop n := by
  rw [due_delAll, filter_notMem_take (due_nodup t x)]

end Due

end WaitingRoom.Table
