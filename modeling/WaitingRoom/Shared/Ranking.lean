import WaitingRoom.Shared.Table

/-!
# Tables of scores, read in rank order

A set of members with scores is a table from members to scores. Its ranking
lists the members by score and, at equal scores, by the order of the members
themselves. The ranking is a function of what `get` answers: two tables that
agree on every member have the same ranking.
-/

namespace WaitingRoom.Table

set_option autoImplicit false

universe u v

variable {K : Type u} {S : Type v} [LinearOrder K] [LinearOrder S]

def Before (a b : K × S) : Prop := toLex (a.2, a.1) ≤ toLex (b.2, b.1)

instance : DecidableRel (Before (K := K) (S := S)) := fun a b =>
  inferInstanceAs (Decidable (toLex (a.2, a.1) ≤ toLex (b.2, b.1)))

instance : Std.Total (Before (K := K) (S := S)) := ⟨fun a _ => le_total (toLex (a.2, a.1)) _⟩

instance : IsTrans (K × S) Before := ⟨fun _ _ _ hab hbc => le_trans hab hbc⟩

instance : Std.Antisymm (Before (K := K) (S := S)) := ⟨fun _ _ hab hba => by
  have h := congrArg ofLex (le_antisymm hab hba)
  simp only [ofLex_toLex, Prod.mk.injEq] at h
  exact Prod.ext h.2 h.1⟩

theorem Before.score_le {a b : K × S} (h : Before a b) : a.2 ≤ b.2 := by
  rcases Prod.Lex.le_iff.mp h with hlt | ⟨heq, _⟩
  · exact hlt.le
  · exact heq.le

def ranking (t : Table K S) : List (K × S) := t.rows.insertionSort Before

/-- The members with score at most `x`, in rank order. -/
def due (t : Table K S) (x : S) : List K :=
  (t.ranking.filter fun e => decide (e.2 ≤ x)).map Prod.fst

/-- `n` rows of the ranking from position `offset` on. -/
def page (t : Table K S) (offset n : Nat) : List (K × S) := (t.ranking.drop offset).take n

/-- The keys with `p`, in rank order. -/
def ranked (t : Table K S) (p : K → Prop) [DecidablePred p] : List K :=
  (t.ranking.filter fun e => decide (p e.1)).map Prod.fst

theorem ranking_perm (t : Table K S) : t.ranking.Perm t.rows := List.perm_insertionSort _ _

theorem ranking_pairwise (t : Table K S) : t.ranking.Pairwise Before :=
  List.pairwise_insertionSort _ _

@[simp] theorem length_ranking (t : Table K S) : t.ranking.length = t.size :=
  t.ranking_perm.length_eq

theorem ranking_keys_nodup (t : Table K S) : (t.ranking.map Prod.fst).Nodup :=
  (t.ranking_perm.map Prod.fst).nodup_iff.mpr t.rows_keys_nodup

theorem ranked_nodup (t : Table K S) (p : K → Prop) [DecidablePred p] : (t.ranked p).Nodup :=
  t.ranking_keys_nodup.sublist (List.filter_sublist.map _)

theorem length_ranked (t : Table K S) (p : K → Prop) [DecidablePred p] :
    (t.ranked p).length = t.ranking.countP fun e => decide (p e.1) := by
  rw [ranked, List.length_map, ← List.countP_eq_length_filter]

theorem take_append_page (t : Table K S) (offset n : Nat) :
    t.ranking.take offset ++ t.page offset n =
      t.ranking.take (offset + (t.page offset n).length) := by
  rw [List.take_add]
  simp [page, List.length_take, List.length_drop]

@[simp] theorem ranking_empty : (∅ : Table K S).ranking = [] := rfl

theorem due_nodup (t : Table K S) (x : S) : (t.due x).Nodup :=
  t.ranking_keys_nodup.sublist (List.filter_sublist.map _)

variable [DecidableEq K]

theorem mem_ranking {t : Table K S} {k : K} {s : S} : (k, s) ∈ t.ranking ↔ t.get k = some s :=
  t.ranking_perm.mem_iff.trans mem_rows

section Ranked

variable {V : Type v} {t : Table K S} {u : Table K V} {p : K → Prop} [DecidablePred p]

theorem mem_ranked {k : K} : k ∈ t.ranked p ↔ p k ∧ ∃ s, t.get k = some s := by
  constructor
  · intro h
    obtain ⟨⟨k, s⟩, he, rfl⟩ := List.mem_map.mp h
    obtain ⟨hr, hp⟩ := List.mem_filter.mp he
    exact ⟨of_decide_eq_true hp, s, mem_ranking.mp hr⟩
  · rintro ⟨hp, s, hs⟩
    exact List.mem_map.mpr ⟨(k, s), List.mem_filter.mpr ⟨mem_ranking.mpr hs, decide_eq_true hp⟩, rfl⟩

/-- A table that holds the ranked members with `p`, and no more of them, holds
nothing else. -/
theorem ranked_of_size_le (held : ∀ k s, t.get k = some s → p k → ∃ v, u.get k = some v)
    (hle : u.size ≤ t.ranking.countP fun e => decide (p e.1)) {k : K} {v : V}
    (hk : u.get k = some v) : p k ∧ ∃ s, t.get k = some s := by
  refine mem_ranked.mp (mem_of_size_le (ranked_nodup t p) (fun k hk => ?_) ?_ hk)
  · obtain ⟨hp, s, hs⟩ := mem_ranked.mp hk
    exact held k s hs hp
  · rwa [length_ranked]

end Ranked

theorem mem_due {t : Table K S} {x : S} {k : K} :
    k ∈ t.due x ↔ ∃ s, t.get k = some s ∧ s ≤ x := by
  constructor
  · intro h
    obtain ⟨⟨a, s⟩, hm, rfl⟩ := List.mem_map.mp h
    have hf := List.mem_filter.mp hm
    exact ⟨s, mem_ranking.mp hf.1, by simpa using hf.2⟩
  · rintro ⟨s, hs, hle⟩
    exact List.mem_map.mpr ⟨(k, s), List.mem_filter.mpr ⟨mem_ranking.mpr hs, by simpa using hle⟩, rfl⟩

section Head

variable {t : Table K S} {k : K} {s : S} {rest : List (K × S)} (h : t.ranking = (k, s) :: rest)
include h

theorem get_head : t.get k = some s := mem_ranking.mp (by rw [h]; exact List.mem_cons_self)

theorem head_le {k' : K} {s' : S} (hk' : t.get k' = some s') : s ≤ s' := by
  have hm := mem_ranking.mpr hk'
  have hp := t.ranking_pairwise
  rw [h] at hm hp
  rcases List.mem_cons.mp hm with he | hm
  · exact (Prod.mk.inj he).2.ge
  · exact ((List.pairwise_cons.mp hp).1 _ hm).score_le

theorem ranking_del_head : (t.del k).ranking = rest := by
  have hp := t.ranking_pairwise
  rw [h] at hp
  have hrows : (t.del k).ranking.Perm rest := by
    apply (List.perm_cons (k, s)).mp
    rw [← h]
    exact (((t.del k).ranking_perm.cons _).trans (rows_perm_cons_del (get_head h)).symm).trans
      t.ranking_perm.symm
  exact hrows.eq_of_pairwise' (ranking_pairwise _) (List.pairwise_cons.mp hp).2

end Head

end WaitingRoom.Table
