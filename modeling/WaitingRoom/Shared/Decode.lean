import WaitingRoom.Shared.Document

/-!
# Reading typed values from documents

An object is read as a record only if it has each required field, no field that is
not known and no field twice. What is read does not depend on the order of the
fields of any object.
-/

namespace WaitingRoom.Doc

set_option autoImplicit false

/-- An `int` or `int64`. -/
def asInt : Doc → Option ℤ
  | .num n => if -9223372036854775808 ≤ n ∧ n ≤ 9223372036854775807 then some n else none
  | _ => none

/-- A `uint64`. -/
def asNat : Doc → Option Nat
  | .num n => if 0 ≤ n ∧ n ≤ 18446744073709551615 then some n.toNat else none
  | _ => none

def asStr : Doc → Option String
  | .str s => some s
  | _ => none

def asBool : Doc → Option Bool
  | .bool b => some b
  | _ => none

def asList {V : Type} (f : Doc → Option V) : Doc → Option (List V)
  | .arr xs => xs.mapM f
  | _ => none

/-- The fields of an object that has the required ones, no others than these and the
optional ones, and none twice. -/
def exact (required optional : List String) : Doc → Option (List (String × Doc))
  | .obj fs =>
    if (fs.map Prod.fst).Nodup ∧ (∀ k ∈ fs.map Prod.fst, k ∈ required ++ optional) ∧
        ∀ k ∈ required, k ∈ fs.map Prod.fst then some fs
    else none
  | _ => none

def field {V : Type} (fs : List (String × Doc)) (k : String) (f : Doc → Option V) : Option V :=
  match fs.lookup k with
  | none => none
  | some j => f j

def fieldOr {V : Type} (fs : List (String × Doc)) (k : String) (f : Doc → Option V) (v : V) :
    Option V :=
  match fs.lookup k with
  | none => some v
  | some j => f j

theorem fieldOr_eq {V : Type} {fs : List (String × Doc)} {k : String} {j : Doc}
    (h : fs.lookup k = some j) (f : Doc → Option V) (v : V) : fieldOr fs k f v = f j := by
  rw [fieldOr, h]

theorem asInt_num {n : ℤ} (h : -9223372036854775808 ≤ n ∧ n ≤ 9223372036854775807) :
    (Doc.num n).asInt = some n := if_pos h

theorem asNat_num {n : Nat} (h : n ≤ 18446744073709551615) : (Doc.num n).asNat = some n := by
  have hn : (0 : ℤ) ≤ n ∧ (n : ℤ) ≤ 18446744073709551615 := by omega
  exact if_pos hn

theorem asStr_reorder {order : List (String × Doc) → List (String × Doc)} (s : String) :
    asStr (reorder order (.str s)) = some s := by rw [reorder_str]; rfl

theorem asBool_reorder {order : List (String × Doc) → List (String × Doc)} (b : Bool) :
    asBool (reorder order (.bool b)) = some b := by rw [reorder_bool]; rfl

theorem asInt_reorder {order : List (String × Doc) → List (String × Doc)} {n : ℤ}
    (h : -9223372036854775808 ≤ n ∧ n ≤ 9223372036854775807) :
    asInt (reorder order (.num n)) = some n := by rw [reorder_num]; exact asInt_num h

theorem asNat_reorder {order : List (String × Doc) → List (String × Doc)} {n : Nat}
    (h : n ≤ 18446744073709551615) : asNat (reorder order (.num n)) = some n := by
  rw [reorder_num]
  exact asNat_num h

theorem lookup_eq_some {V : Type} {fs : List (String × V)} (hn : (fs.map Prod.fst).Nodup)
    {k : String} {v : V} : fs.lookup k = some v ↔ (k, v) ∈ fs := by
  induction fs with
  | nil => simp
  | cons f fs ih =>
    obtain ⟨k', v'⟩ := f
    rw [List.map_cons, List.nodup_cons] at hn
    by_cases hk : k = k'
    · subst hk
      have hnot : (k, v) ∉ fs := fun hm => hn.1 (List.mem_map.mpr ⟨(k, v), hm, rfl⟩)
      simp [hnot, eq_comm]
    · have hb : (k == k') = false := by simpa using hk
      simp [List.lookup, hb, ih hn.2, hk]

theorem lookup_perm {V : Type} {fs gs : List (String × V)} (h : fs.Perm gs)
    (hn : (gs.map Prod.fst).Nodup) (k : String) : fs.lookup k = gs.lookup k := by
  have hn' : (fs.map Prod.fst).Nodup := (h.map Prod.fst).nodup_iff.mpr hn
  ext v
  rw [lookup_eq_some hn', lookup_eq_some hn, h.mem_iff]

section Order

variable {order : List (String × Doc) → List (String × Doc)}

theorem reorderFields_keys (fs : List (String × Doc)) :
    (reorderFields order fs).map Prod.fst = fs.map Prod.fst := by
  induction fs with
  | nil => rw [reorderFields]
  | cons f fs ih =>
    rw [reorderFields, List.map_cons, List.map_cons, ih]

theorem reorderFields_lookup (fs : List (String × Doc)) (k : String) :
    (reorderFields order fs).lookup k = (fs.lookup k).map (reorder order) := by
  induction fs with
  | nil => rw [reorderFields]; rfl
  | cons f fs ih =>
    obtain ⟨k', x⟩ := f
    rw [reorderFields]
    by_cases hk : k = k'
    · subst hk
      simp
    · have hb : (k == k') = false := by simpa using hk
      simp only [List.lookup, hb, ih]

theorem field_of_lookup {V : Type} {fs gs : List (String × Doc)}
    (h : ∀ k, gs.lookup k = (fs.lookup k).map (reorder order)) {k : String} {j : Doc}
    {f : Doc → Option V} {v : V} (hj : fs.lookup k = some j) (hf : f (reorder order j) = some v) :
    field gs k f = some v := by
  rw [field, h, hj]
  exact hf

theorem fieldOr_of_lookup {V : Type} {fs gs : List (String × Doc)}
    (h : ∀ k, gs.lookup k = (fs.lookup k).map (reorder order)) {k : String} {j : Doc}
    {f : Doc → Option V} {v w : V} (hj : fs.lookup k = some j)
    (hf : f (reorder order j) = some v) : fieldOr gs k f w = some v := by
  rw [fieldOr, h, hj]
  exact hf

theorem fieldOr_of_lookup_none {V : Type} {fs gs : List (String × Doc)}
    (h : ∀ k, gs.lookup k = (fs.lookup k).map (reorder order)) {k : String}
    {f : Doc → Option V} {w : V} (hj : fs.lookup k = none) : fieldOr gs k f w = some w := by
  rw [fieldOr, h, hj]
  rfl

variable (perm : ∀ fs, (order fs).Perm fs)
include perm

theorem exact_reorder (required optional ks : List String) {fs : List (String × Doc)}
    (hk : fs.map Prod.fst = ks) (hn : ks.Nodup) (hknown : ∀ k ∈ ks, k ∈ required ++ optional)
    (hreq : ∀ k ∈ required, k ∈ ks) :
    ∃ gs, (reorder order (.obj fs)).exact required optional = some gs ∧
      ∀ k, gs.lookup k = (fs.lookup k).map (reorder order) := by
  have hkeys : ((order (reorderFields order fs)).map Prod.fst).Perm ks := by
    rw [← hk, ← @reorderFields_keys order fs]
    exact (perm _).map _
  refine ⟨order (reorderFields order fs), ?_, fun k => ?_⟩
  · rw [reorder, exact, if_pos]
    exact ⟨hkeys.nodup_iff.mpr hn, fun k hm => hknown k (hkeys.mem_iff.mp hm),
      fun k hm => hkeys.mem_iff.mpr (hreq k hm)⟩
  · have hn' : ((reorderFields order fs).map Prod.fst).Nodup := by
      rw [reorderFields_keys, hk]
      exact hn
    rw [lookup_perm (perm _) hn', reorderFields_lookup]

end Order

theorem asList_reorder {V : Type} {order : List (String × Doc) → List (String × Doc)}
    {f : Doc → Option V} {g : V → Doc} {vs : List V}
    (hv : ∀ v ∈ vs, f (reorder order (g v)) = some v) :
    asList f (reorder order (.arr (vs.map g))) = some vs := by
  rw [reorder, reorderItems_eq_map, asList]
  induction vs with
  | nil => rfl
  | cons v vs ih =>
    rw [List.map_cons, List.map_cons, List.mapM_cons, hv v List.mem_cons_self,
      ih fun v hm => hv v (List.mem_cons_of_mem _ hm)]
    rfl

end WaitingRoom.Doc
