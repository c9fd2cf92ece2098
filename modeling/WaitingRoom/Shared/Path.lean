import Mathlib

/-!
# Slash-separated paths

`Clean`, `Dir` and `Join` of Go's path packages, on the components between the slashes.
A relative path that `Clean` leaves alone has no empty and no dot component, and its
`..` are all in front; if it does not start with one, it goes nowhere but down.
-/

namespace WaitingRoom.Path

set_option autoImplicit false

abbrev Text := List Char

def parts (p : Text) : List Text := p.splitOn '/'

def join (cs : List Text) : Text := ['/'].intercalate cs

def dot : Text := ['.']

def dotDot : Text := ['.', '.']

structure Plain (c : Text) : Prop where
  ne_nil : c ≠ []
  ne_dot : c ≠ dot
  ne_dotDot : c ≠ dotDot
  no_slash : '/' ∉ c

instance (c : Text) : Decidable (Plain c) :=
  decidable_of_iff (c ≠ [] ∧ c ≠ dot ∧ c ≠ dotDot ∧ '/' ∉ c)
    ⟨fun h => ⟨h.1, h.2.1, h.2.2.1, h.2.2.2⟩, fun h => ⟨h.1, h.2, h.3, h.4⟩⟩

def enter (rooted : Bool) (stack : List Text) (c : Text) : List Text :=
  if c = [] ∨ c = dot then stack
  else if c = dotDot then
    match stack with
    | [] => if rooted then [] else [c]
    | top :: below => if top = dotDot then c :: stack else below
  else c :: stack

/-- The components that `Clean` leaves. -/
def cleanParts (rooted : Bool) (cs : List Text) : List Text := (cs.foldl (enter rooted) []).reverse

def clean (p : Text) : Text :=
  if p.head? = some '/' then '/' :: join (cleanParts true (parts p))
  else if cleanParts false (parts p) = [] then dot
  else join (cleanParts false (parts p))

/-- `path.Dir`: what stands up to the last slash, cleaned. -/
def dir (p : Text) : Text := clean (p.reverse.dropWhile (· ≠ '/')).reverse

def first (p : Text) : Text := p.takeWhile (· ≠ '/')

section Parts

theorem parts_ne_nil (p : Text) : parts p ≠ [] := List.splitOn_ne_nil '/' p

theorem join_parts (p : Text) : join (parts p) = p := List.intercalate_splitOn '/'

theorem parts_join {cs : List Text} (h : ∀ c ∈ cs, '/' ∉ c) (hne : cs ≠ []) :
    parts (join cs) = cs := List.splitOn_intercalate '/' h hne

theorem parts_cons (c : Char) (p : Text) :
    parts (c :: p) = if c = '/' then [] :: parts p else (parts p).modifyHead (List.cons c) := by
  rw [parts, List.splitOn_cons_eq_if_modifyHead]
  by_cases h : c = '/'
  · rw [if_pos (beq_iff_eq.mpr h), if_pos h]
    rfl
  · rw [if_neg (fun hb => h (beq_iff_eq.mp hb)), if_neg h]
    rfl

theorem no_slash_of_mem_parts {p c : Text} (h : c ∈ parts p) : '/' ∉ c := by
  induction p generalizing c with
  | nil =>
    obtain rfl : c = [] := by simpa [parts] using h
    exact List.not_mem_nil
  | cons a p ih =>
    rw [parts_cons] at h
    by_cases ha : a = '/'
    · rw [if_pos ha] at h
      rcases List.mem_cons.mp h with rfl | h
      · exact List.not_mem_nil
      · exact ih h
    · rw [if_neg ha] at h
      cases hp : parts p with
      | nil => exact absurd hp (parts_ne_nil p)
      | cons d ds =>
        rw [hp, List.modifyHead_cons] at h
        rcases List.mem_cons.mp h with rfl | h
        · intro hm
          rcases List.mem_cons.mp hm with rfl | hm
          · exact ha rfl
          · exact ih (hp ▸ List.mem_cons_self) hm
        · exact ih (hp ▸ List.mem_cons_of_mem _ h)

theorem join_cons {c : Text} {cs : List Text} (h : cs ≠ []) : join (c :: cs) = c ++ '/' :: join cs := by
  rw [join, List.intercalate_cons_of_ne_nil h, List.append_assoc]
  rfl

theorem join_append {cs ds : List Text} (hc : cs ≠ []) (hd : ds ≠ []) :
    join (cs ++ ds) = join cs ++ '/' :: join ds := by
  induction cs with
  | nil => exact absurd rfl hc
  | cons c cs ih =>
    by_cases hcs : cs = []
    · subst hcs
      rw [List.singleton_append, join_cons hd]
      simp [join]
    · rw [List.cons_append, join_cons (by simp [hd]), ih hcs, join_cons hcs, List.append_assoc]
      rfl

theorem mem_join {a : Char} {cs : List Text} (ha : a ≠ '/') : a ∈ join cs ↔ ∃ c ∈ cs, a ∈ c := by
  induction cs with
  | nil => simp [join]
  | cons c cs ih =>
    by_cases hcs : cs = []
    · subst hcs
      simp [join]
    · rw [join_cons hcs, List.mem_append, List.mem_cons, or_iff_right ha, ih,
        List.exists_mem_cons_iff]

theorem join_injective {cs ds : List Text} (hc : ∀ c ∈ cs, '/' ∉ c) (hd : ∀ d ∈ ds, '/' ∉ d)
    (hcs : cs ≠ []) (hds : ds ≠ []) (h : join cs = join ds) : cs = ds := by
  rw [← parts_join hc hcs, h, parts_join hd hds]

theorem first_join {c : Text} {cs : List Text} (h : '/' ∉ c) : first (join (c :: cs)) = c := by
  have hall : ∀ a ∈ c, decide (a ≠ '/') = true := by
    intro a ha
    rw [decide_eq_true_eq]
    rintro rfl
    exact h ha
  unfold first
  by_cases hcs : cs = []
  · subst hcs
    have htake : (c ++ []).takeWhile (fun a => decide (a ≠ '/')) = c ++ _ :=
      List.takeWhile_append_of_pos hall
    simpa [join] using htake
  · rw [join_cons hcs, List.takeWhile_append_of_pos hall]
    simp

theorem first_eq_head (p : Text) : ∃ cs, parts p = first p :: cs := by
  cases hp : parts p with
  | nil => exact absurd hp (parts_ne_nil p)
  | cons c cs =>
    have hc : '/' ∉ c := no_slash_of_mem_parts (hp ▸ List.mem_cons_self)
    refine ⟨cs, ?_⟩
    have hjoin := join_parts p
    rw [hp] at hjoin
    rw [← hjoin, first_join hc]

end Parts

section Clean

variable {cs : List Text} {stack : List Text} {rooted : Bool}

theorem enter_plain {c : Text} (h : Plain c) : enter rooted stack c = c :: stack := by
  unfold enter
  rw [if_neg (not_or.mpr ⟨h.ne_nil, h.ne_dot⟩), if_neg h.ne_dotDot]

theorem foldl_enter_plain (h : ∀ c ∈ cs, Plain c) :
    cs.foldl (enter rooted) stack = cs.reverse ++ stack := by
  induction cs generalizing stack with
  | nil => rfl
  | cons c cs ih =>
    rw [List.foldl_cons, enter_plain (h c List.mem_cons_self),
      ih fun c hc => h c (List.mem_cons_of_mem _ hc), List.reverse_cons, List.append_assoc]
    rfl

theorem cleanParts_plain (h : ∀ c ∈ cs, Plain c) : cleanParts rooted cs = cs := by
  rw [cleanParts, foldl_enter_plain h, List.append_nil, List.reverse_reverse]

theorem head_join_ne (h : ∀ c ∈ cs, Plain c) : (join cs).head? ≠ some '/' := by
  cases cs with
  | nil => exact nofun
  | cons c cs =>
    have hc := h c List.mem_cons_self
    cases c with
    | nil => exact absurd rfl hc.ne_nil
    | cons a c =>
      have ha : a ≠ '/' := fun heq => hc.no_slash (heq ▸ List.mem_cons_self)
      by_cases hcs : cs = []
      · subst hcs
        simpa [join] using ha
      · rw [join_cons hcs]
        simpa using ha

theorem clean_join (h : ∀ c ∈ cs, Plain c) (hne : cs ≠ []) : clean (join cs) = join cs := by
  have hparts := parts_join (fun c hc => (h c hc).no_slash) hne
  rw [clean, if_neg (head_join_ne h), hparts, cleanParts_plain h, if_neg hne]

/-- The components that are kept: plain ones, after any number of `..`. -/
def Kept (stack : List Text) : Prop :=
  ∃ a b : List Text, stack = a ++ b ∧ (∀ c ∈ a, Plain c) ∧ ∀ c ∈ b, c = dotDot

theorem Kept.enter (h : Kept stack) {c : Text} (hc : '/' ∉ c) : Kept (enter rooted stack c) := by
  obtain ⟨a, b, rfl, ha, hb⟩ := h
  unfold Path.enter
  split
  · exact ⟨a, b, rfl, ha, hb⟩
  rename_i hskip
  obtain ⟨hne, hdot⟩ := not_or.mp hskip
  split
  · rename_i hup
    cases a with
    | nil =>
      cases b with
      | nil =>
        change Kept (if rooted then [] else [c])
        split
        · exact ⟨[], [], rfl, nofun, nofun⟩
        · exact ⟨[], [c], rfl, nofun, fun d hd => (List.mem_singleton.mp hd).trans hup⟩
      | cons top below =>
        dsimp only [List.nil_append]
        rw [if_pos (hb top List.mem_cons_self)]
        exact ⟨[], c :: top :: below, rfl, nofun, List.forall_mem_cons.mpr ⟨hup, hb⟩⟩
    | cons top a =>
      dsimp only [List.cons_append]
      rw [if_neg (ha top List.mem_cons_self).ne_dotDot]
      exact ⟨a, b, rfl, fun d hd => ha d (List.mem_cons_of_mem _ hd), hb⟩
  · rename_i hup
    exact ⟨c :: a, b, rfl, List.forall_mem_cons.mpr ⟨⟨hne, hdot, hup, hc⟩, ha⟩, hb⟩

theorem Kept.foldl (h : Kept stack) (hcs : ∀ c ∈ cs, '/' ∉ c) :
    Kept (cs.foldl (Path.enter rooted) stack) := by
  induction cs generalizing stack with
  | nil => exact h
  | cons c cs ih =>
    exact ih (h.enter (hcs c List.mem_cons_self)) fun d hd => hcs d (List.mem_cons_of_mem _ hd)

/-- A relative path that `Clean` leaves alone and that starts with neither dot goes
nowhere but down. -/
theorem plain_of_clean {p : Text} (h : clean p = p) (hroot : p.head? ≠ some '/')
    (hdot : first p ≠ dot) (hup : first p ≠ dotDot) : ∀ c ∈ parts p, Plain c := by
  obtain ⟨a, b, hab, ha, hb⟩ : Kept ((parts p).foldl (enter false) []) :=
    Kept.foldl ⟨[], [], rfl, nofun, nofun⟩ fun c hc => no_slash_of_mem_parts hc
  have hout : cleanParts false (parts p) = b.reverse ++ a.reverse := by
    rw [cleanParts, hab, List.reverse_append]
  have hslash : ∀ c ∈ b.reverse ++ a.reverse, '/' ∉ c := by
    intro c hc
    rcases List.mem_append.mp hc with hc | hc
    · rw [hb c (List.mem_reverse.mp hc)]
      decide
    · exact (ha c (List.mem_reverse.mp hc)).no_slash
  rw [clean, if_neg hroot, hout] at h
  split at h
  · rw [← h] at hdot
    exact absurd (by decide) hdot
  rename_i hne
  have hparts : parts p = b.reverse ++ a.reverse := by
    rw [← h]
    exact parts_join hslash hne
  -- a leading `..` would be the first component
  have hnil : b = [] := by
    cases hrev : b.reverse with
    | nil => exact List.reverse_eq_nil_iff.mp hrev
    | cons d ds =>
      obtain ⟨cs, hcs⟩ := first_eq_head p
      rw [hparts, hrev, List.cons_append] at hcs
      have hd := hb d (List.mem_reverse.mp (hrev ▸ List.mem_cons_self))
      exact absurd ((List.cons.inj hcs).1.symm.trans hd) hup
  subst hnil
  intro c hc
  rw [hparts] at hc
  exact ha c (by simpa using hc)

end Clean

section Dir

variable {cs : List Text} {c : Text}

theorem dropWhile_reverse_of_notMem (h : '/' ∉ c) (p : Text) :
    ((p ++ '/' :: c).reverse.dropWhile (· ≠ '/')).reverse = p ++ ['/'] := by
  have hall : ∀ a ∈ c.reverse, decide (a ≠ '/') = true := by
    intro a ha
    rw [decide_eq_true_eq]
    rintro rfl
    exact h (List.mem_reverse.mp ha)
  rw [List.reverse_append, List.reverse_cons, List.append_assoc, List.dropWhile_append_of_pos hall]
  simp

theorem dir_join (h : ∀ d ∈ cs, Plain d) (hne : cs ≠ []) (hc : Plain c) :
    dir (join (cs ++ [c])) = join cs := by
  have hjoin : join (cs ++ [c]) = join cs ++ '/' :: c := by
    rw [join_append hne (List.cons_ne_nil _ _)]
    simp [join]
  have hparts : parts (join cs ++ ['/']) = cs ++ [[]] := by
    have happ : join cs ++ ['/'] = join (cs ++ [[]]) := by
      rw [join_append hne (List.cons_ne_nil _ _)]
      simp [join]
    rw [happ]
    refine parts_join (fun d hd => ?_) (by simp)
    rcases List.mem_append.mp hd with hd | hd
    · exact (h d hd).no_slash
    · rw [List.mem_singleton.mp hd]
      exact List.not_mem_nil
  have hhead : (join cs ++ ['/']).head? ≠ some '/' := by
    have hnil : join cs ≠ [] := by
      intro hn
      have := parts_join (fun d hd => (h d hd).no_slash) hne
      rw [hn] at this
      have hmem : ([] : Text) ∈ cs := this ▸ (by decide : ([] : Text) ∈ parts [])
      exact (h [] hmem).ne_nil rfl
    rw [List.head?_append_of_ne_nil _ hnil]
    exact head_join_ne h
  have hclean : cleanParts false (cs ++ [[]]) = cs := by
    rw [cleanParts, List.foldl_append, foldl_enter_plain h]
    simp [enter]
  rw [dir, hjoin, dropWhile_reverse_of_notMem hc.no_slash, clean, if_neg hhead, hparts, hclean,
    if_neg hne]

theorem dir_single (hc : Plain c) : dir c = dot := by
  have hall : ∀ a ∈ c.reverse, decide (a ≠ '/') = true := by
    intro a ha
    rw [decide_eq_true_eq]
    rintro rfl
    exact hc.no_slash (List.mem_reverse.mp ha)
  have hdrop : (c.reverse ++ []).dropWhile (fun a => decide (a ≠ '/')) = _ :=
    List.dropWhile_append_of_pos hall
  rw [List.append_nil] at hdrop
  rw [dir, hdrop]
  decide

end Dir

section Join

/-- The components of `filepath.Join(root, name)`, for an absolute clean root. -/
def destination (root : List Text) (name : Text) : List Text :=
  ((parts name).foldl (enter true) root.reverse).reverse

theorem destination_of_plain (root : List Text) {name : Text} (h : ∀ c ∈ parts name, Plain c) :
    destination root name = root ++ parts name := by
  rw [destination, foldl_enter_plain h, List.reverse_append, List.reverse_reverse,
    List.reverse_reverse]

end Join

end WaitingRoom.Path
