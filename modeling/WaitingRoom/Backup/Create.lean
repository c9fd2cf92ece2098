import WaitingRoom.Backup.Archive

/-!
# Creating a recovery archive

`Create` walks the seven volumes and writes what it finds, under rules of its own about
kinds, counts and sizes. It leaves names and owners to the tar writer, which takes more
of them than `Verify` does. Where nothing in the volumes is of that sort, an archive
that was created is verified, and restored it gives the same tree.
-/

namespace WaitingRoom.Backup

open WaitingRoom.Path

set_option autoImplicit false

section Tree

/-- The metadata that `Lstat` reports. -/
structure Info where
  mode : Fin 512
  uid : Nat
  gid : Nat
  mtime : ℤ

mutual

inductive Node
  | file (info : Info) (data : List UInt8)
  | directory (info : Info) (children : Nodes)
  | other

/-- The entries of a directory, in the order in which `readDirNames` lists them. -/
inductive Nodes
  | nil
  | cons (name : Text) (node : Node) (rest : Nodes)

end

namespace Nodes

def names : Nodes → List Text
  | nil => []
  | cons name _ rest => name :: rest.names

def get : Nodes → Text → Option Node
  | nil, _ => none
  | cons name node rest, c => if c = name then some node else rest.get c

end Nodes

namespace Node

def children : Node → Nodes
  | directory _ cs => cs
  | _ => .nil

def find : Node → List Text → Option Node
  | n, [] => some n
  | n, c :: s => (n.children.get c).bind fun m => m.find s

def isDirectory : Node → Bool
  | directory _ _ => true
  | _ => false

def info : Node → Option Info
  | file i _ => some i
  | directory i _ => some i
  | other => none

/-- A file or directory as a restored file system should hold it. -/
def inode : Node → Option Inode
  | file i data => some ⟨.file data, i.mode.val, i.uid, i.gid⟩
  | directory i _ => some ⟨.directory, i.mode.val, i.uid, i.gid⟩
  | other => none

end Node

mutual

/-- The names of a directory name its entries, each one of them. -/
def Node.WellNamed : Node → Prop
  | .directory _ cs => cs.WellNamed
  | .file _ _ => True
  | .other => True

@[inherit_doc Node.WellNamed]
def Nodes.WellNamed : Nodes → Prop
  | .nil => True
  | .cons name node rest =>
    Plain name ∧ name ∉ rest.names ∧ node.WellNamed ∧ rest.WellNamed

end

structure Source where
  volume : Text → Option Node
  named : ∀ v n, volume v = some n → n.WellNamed

end Tree

section Create

mutual

/-- The calls of `filepath.Walk`: a directory, and then its entries in order. -/
def Node.walk : Node → List Text → List (List Text × Node)
  | .directory i cs, p => (p, .directory i cs) :: cs.walk p
  | .file i data, p => [(p, .file i data)]
  | .other, p => [(p, .other)]

@[inherit_doc Node.walk]
def Nodes.walk : Nodes → List Text → List (List Text × Node)
  | .nil, _ => []
  | .cons name node rest, p => node.walk (p ++ [name]) ++ rest.walk p

end

def blocks (size : ℤ) : ℤ := 512 + (size + 511) / 512 * 512

/-- A reader with the writer for it. The writer takes some headers only, with some times;
what it took is read back. -/
structure Tools extends Reader where
  accepts : Header → ℤ → Bool
  write : List (Entry × ℤ) → Tape
  read_write : ∀ xs : List (Entry × ℤ), (∀ x ∈ xs, accepts x.1.header x.2 = true) →
    (∀ x ∈ xs, (x.1.content.length : ℤ) = x.1.header.size) →
    read (write xs) = some (xs.map Prod.fst)
  size_write : ∀ xs : List (Entry × ℤ), (∀ x ∈ xs, accepts x.1.header x.2 = true) →
    (∀ x ∈ xs, (x.1.content.length : ℤ) = x.1.header.size) →
    size (write xs) = (xs.map fun x => blocks x.1.header.size).sum + 1024
  sha256_digest : ∀ tape, IsDigest (sha256 tape)

def entryOf (p : List Text) : Node → Entry
  | .file i data => ⟨⟨join p, .regular, data.length, i.mode.val, i.uid, i.gid, [], 0⟩, data⟩
  | .directory i _ => ⟨⟨join p, .directory, 0, i.mode.val, i.uid, i.gid, [], 0⟩, []⟩
  | .other => ⟨⟨join p, .other, 0, 0, 0, 0, [], 0⟩, []⟩

/-- The loop of `Create`, so far. -/
structure Writing where
  written : List (Entry × ℤ) := []
  entries : Nat := 0
  bytes : ℤ := 0

/-- The function that `Create` hands to `filepath.Walk`. -/
def addEntry (t : Tools) (st : Writing) (x : List Text × Node) : Option Writing :=
  match x.2.info with
  | none => none
  | some info =>
    let e := entryOf x.1 x.2
    if maxEntries < st.entries + 1 then none
    else if maxBytes < st.bytes + e.header.size then none
    else if t.accepts e.header info.mtime then
      some ⟨st.written ++ [(e, info.mtime)], st.entries + 1, st.bytes + e.header.size⟩
    else none

def addVolume (t : Tools) (source : Source) (st : Writing) (v : Text) : Option Writing :=
  (source.volume v).bind fun n => (n.walk [v]).foldlM (addEntry t) st

/-- `Create`, with the directory it leaves. -/
def create (t : Tools) (source : Source) (d : Snapshot t.toReader) :
    Option (Manifest × Snapshot t.toReader) :=
  if d.owned = true ∧ d.tape.isNone = true then
    match volumes.foldlM (addVolume t source) {} with
    | none => none
    | some st =>
      let tape := t.write st.written
      let m : Manifest := ⟨1, t.sha256 tape, t.size tape, st.entries⟩
      if d.manifest.isSome then none
      else some (m, { d with manifest := some ⟨m, true⟩, tape := some ⟨tape, true⟩ })
  else none

end Create

section Walk

variable {n m : Node} {cs : Nodes} {c : Text} {p s : List Text} {x : List Text × Node}

theorem Node.walk_eq (n : Node) (p : List Text) : n.walk p = (p, n) :: n.children.walk p := by
  cases n <;> rfl

theorem Node.WellNamed.children (h : n.WellNamed) : n.children.WellNamed := by
  cases n with
  | directory => exact h
  | file => exact trivial
  | other => exact trivial

theorem Nodes.WellNamed.get (h : cs.WellNamed) (hc : cs.get c = some m) :
    c ∈ cs.names ∧ Plain c ∧ m.WellNamed := by
  induction cs using Nodes.names.induct with
  | case1 => cases hc
  | case2 name node rest ih =>
    obtain ⟨hplain, -, hnode, hrest⟩ := h
    rw [Nodes.get] at hc
    split at hc
    · rename_i heq
      obtain rfl := Option.some.inj hc
      exact ⟨heq ▸ List.mem_cons_self, heq ▸ hplain, hnode⟩
    · obtain ⟨hmem, hp, hm⟩ := ih hrest hc
      exact ⟨List.mem_cons_of_mem _ hmem, hp, hm⟩

theorem Node.WellNamed.find_plain (h : n.WellNamed) (hf : n.find s = some m) :
    ∀ c ∈ s, Plain c := by
  induction s generalizing n with
  | nil => exact nofun
  | cons c s ih =>
    obtain ⟨n', hn', hf⟩ := Option.bind_eq_some_iff.mp hf
    obtain ⟨-, hp, hw⟩ := h.children.get hn'
    exact List.forall_mem_cons.mpr ⟨hp, ih hw hf⟩

theorem Node.mem_walk_of_children
    (h : x ∈ n.children.walk p ↔
      ∃ c s m, n.children.get c = some m ∧ x.1 = p ++ c :: s ∧ m.find s = some x.2) :
    x ∈ n.walk p ↔ ∃ s, x.1 = p ++ s ∧ n.find s = some x.2 := by
  rw [Node.walk_eq, List.mem_cons, h]
  constructor
  · rintro (rfl | ⟨c, s, m, hm, hx, hf⟩)
    · exact ⟨[], (List.append_nil p).symm, rfl⟩
    · exact ⟨c :: s, hx, Option.bind_eq_some_iff.mpr ⟨m, hm, hf⟩⟩
  · rintro ⟨s, hx, hf⟩
    cases s with
    | nil =>
      rw [List.append_nil] at hx
      exact .inl (Prod.ext hx (Option.some.inj hf).symm)
    | cons c s =>
      obtain ⟨m, hm, hf⟩ := Option.bind_eq_some_iff.mp hf
      exact .inr ⟨c, s, m, hm, hx, hf⟩

theorem Nodes.mem_walk_nil (p : List Text) (x : List Text × Node) : x ∈ Nodes.nil.walk p ↔
    ∃ c s m, Nodes.nil.get c = some m ∧ x.1 = p ++ c :: s ∧ m.find s = some x.2 :=
  ⟨nofun, fun ⟨_, _, _, h, _⟩ => nomatch h⟩

mutual

theorem Node.mem_walk : ∀ (n : Node) (p : List Text) (x : List Text × Node), n.WellNamed →
    (x ∈ n.walk p ↔ ∃ s, x.1 = p ++ s ∧ n.find s = some x.2)
  | .directory _ cs, p, x, h => Node.mem_walk_of_children (Nodes.mem_walk cs p x h)
  | .file _ _, p, x, _ => Node.mem_walk_of_children (Nodes.mem_walk_nil p x)
  | .other, p, x, _ => Node.mem_walk_of_children (Nodes.mem_walk_nil p x)

theorem Nodes.mem_walk : ∀ (cs : Nodes) (p : List Text) (x : List Text × Node), cs.WellNamed →
    (x ∈ cs.walk p ↔ ∃ c s m, cs.get c = some m ∧ x.1 = p ++ c :: s ∧ m.find s = some x.2)
  | .nil, p, x, _ => Nodes.mem_walk_nil p x
  | .cons name node rest, p, x, ⟨_, hname, hnode, hrest⟩ => by
    rw [Nodes.walk, List.mem_append, Node.mem_walk node _ x hnode, Nodes.mem_walk rest p x hrest]
    constructor
    · rintro (⟨s, hx, hf⟩ | ⟨c, s, m, hm, hx, hf⟩)
      · rw [List.append_assoc] at hx
        exact ⟨name, s, node, if_pos rfl, hx, hf⟩
      · have hne : c ≠ name := fun heq => hname (heq ▸ (hrest.get hm).1)
        exact ⟨c, s, m, (if_neg hne).trans hm, hx, hf⟩
    · rintro ⟨c, s, m, hm, hx, hf⟩
      rw [Nodes.get] at hm
      split at hm
      · rename_i heq
        obtain rfl := Option.some.inj hm
        refine .inl ⟨s, ?_, hf⟩
        rw [hx, heq, List.append_assoc]
        rfl
      · exact .inr ⟨c, s, m, hm, hx, hf⟩

end

mutual

theorem Node.nodup_walk : ∀ (n : Node) (p : List Text), n.WellNamed →
    ((n.walk p).map Prod.fst).Nodup
  | .directory _ cs, p, h => by
    rw [Node.walk, List.map_cons, List.nodup_cons]
    refine ⟨fun hp => ?_, Nodes.nodup_walk cs p h⟩
    obtain ⟨x, hx, hxp⟩ := List.mem_map.mp hp
    obtain ⟨c, s, -, -, hpath, -⟩ := (Nodes.mem_walk cs p x h).mp hx
    rw [hpath] at hxp
    exact List.cons_ne_nil c s (List.append_right_eq_self.mp hxp)
  | .file _ _, _, _ => List.nodup_singleton _
  | .other, _, _ => List.nodup_singleton _

theorem Nodes.nodup_walk : ∀ (cs : Nodes) (p : List Text), cs.WellNamed →
    ((cs.walk p).map Prod.fst).Nodup
  | .nil, _, _ => List.nodup_nil
  | .cons name node rest, p, ⟨_, hname, hnode, hrest⟩ => by
    rw [Nodes.walk, List.map_append, List.nodup_append]
    refine ⟨Node.nodup_walk node _ hnode, Nodes.nodup_walk rest p hrest, ?_⟩
    intro a ha b hb hab
    obtain ⟨x, hx, rfl⟩ := List.mem_map.mp ha
    obtain ⟨y, hy, rfl⟩ := List.mem_map.mp hb
    obtain ⟨s, hxs, -⟩ := (Node.mem_walk node _ x hnode).mp hx
    obtain ⟨c, s', m, hm, hys, -⟩ := (Nodes.mem_walk rest p y hrest).mp hy
    rw [hxs, hys, List.append_assoc] at hab
    have hc : name = c := (List.cons.inj (List.append_cancel_left hab)).1
    exact hname (hc ▸ (hrest.get hm).1)

end

def Follows : List (List Text × Node) → List (List Text × Node) → Prop
  | _, [] => True
  | past, x :: l =>
    (x.1.length = 1 ∨ ∃ y ∈ past, y.2.isDirectory = true ∧ y.1 = x.1.dropLast) ∧
      Follows (past ++ [x]) l

theorem follows_append {past l₁ l₂ : List (List Text × Node)} :
    Follows past (l₁ ++ l₂) ↔ Follows past l₁ ∧ Follows (past ++ l₁) l₂ := by
  induction l₁ generalizing past with
  | nil => simp [Follows]
  | cons x l₁ ih => simp [Follows, ih, and_assoc]

mutual

theorem Node.follows_walk : ∀ (n : Node) (p : List Text) (past : List (List Text × Node)),
    (p.length = 1 ∨ ∃ y ∈ past, y.2.isDirectory = true ∧ y.1 = p.dropLast) →
    Follows past (n.walk p)
  | .directory _ cs, p, past, h =>
    ⟨h, Nodes.follows_walk cs p _
      ⟨_, List.mem_append_right past List.mem_cons_self, rfl, rfl⟩⟩
  | .file _ _, _, _, h => ⟨h, trivial⟩
  | .other, _, _, h => ⟨h, trivial⟩

theorem Nodes.follows_walk : ∀ (cs : Nodes) (p : List Text) (past : List (List Text × Node)),
    (∃ y ∈ past, y.2.isDirectory = true ∧ y.1 = p) → Follows past (cs.walk p)
  | .nil, _, _, _ => trivial
  | .cons name node rest, p, past, ⟨y, hy, hdir, hp⟩ => by
    refine follows_append.mpr ⟨Node.follows_walk node _ _ (.inr ⟨y, hy, hdir, ?_⟩),
      Nodes.follows_walk rest p _ ⟨y, List.mem_append_left _ hy, hdir, hp⟩⟩
    rw [hp, List.dropLast_concat]

end

end Walk

section Recorded

abbrev entry (x : List Text × Node) : Entry := entryOf x.1 x.2

variable {t : Tools} {source : Source} {xs l : List (List Text × Node)} {x : List Text × Node}
  {st st' : Writing} {vs : List Text}

theorem entryOf_name (p : List Text) (n : Node) : (entryOf p n).header.name = join p := by
  cases n <;> rfl

theorem entryOf_length (p : List Text) (n : Node) :
    ((entryOf p n).content.length : ℤ) = (entryOf p n).header.size := by
  cases n <;> rfl

theorem entryOf_size_nonneg (p : List Text) (n : Node) : 0 ≤ (entryOf p n).header.size := by
  rw [← entryOf_length]
  omega

theorem entryOf_inode {p : List Text} {n : Node} (h : n.info ≠ none) :
    n.inode = some (entryOf p n).inode := by
  cases n with
  | file i data => simp [Node.inode, Entry.inode, entryOf]
  | directory i cs => rfl
  | other => exact absurd rfl h

/-- What has been written after the calls `xs`. -/
structure Recorded (t : Tools) (xs : List (List Text × Node)) (st : Writing) : Prop where
  written : st.written.map Prod.fst = xs.map entry
  accepted : ∀ w ∈ st.written, t.accepts w.1.header w.2 = true
  kind : ∀ x ∈ xs, x.2.info ≠ none
  entries : st.entries = xs.length
  bytes : st.bytes = (xs.map fun x => (entry x).header.size).sum
  bounded : st.entries ≤ maxEntries ∧ st.bytes ≤ maxBytes

theorem recorded_nil (t : Tools) : Recorded t [] {} :=
  ⟨rfl, nofun, nofun, rfl, rfl, by decide, by decide⟩

theorem Recorded.next (h : Recorded t xs st) (hst : addEntry t st x = some st') :
    Recorded t (xs ++ [x]) st' := by
  unfold addEntry at hst
  split at hst
  · cases hst
  rename_i info hinfo
  dsimp only at hst
  split at hst
  · cases hst
  split at hst
  · cases hst
  split at hst
  swap
  · cases hst
  rename_i hcount hsize haccepts
  obtain rfl := Option.some.inj hst
  refine ⟨?_, ?_, ?_, ?_, ?_, Nat.le_of_not_lt hcount, Int.not_lt.mp hsize⟩
  · rw [List.map_append, h.written, List.map_append]
    rfl
  · intro w hw
    rcases List.mem_append.mp hw with hw | hw
    · exact h.accepted w hw
    · obtain rfl := List.mem_singleton.mp hw
      exact haccepts
  · intro y hy
    rcases List.mem_append.mp hy with hy | hy
    · exact h.kind y hy
    · obtain rfl := List.mem_singleton.mp hy
      exact ne_of_eq_of_ne hinfo nofun
  · rw [List.length_append, ← h.entries]
    rfl
  · rw [List.map_append, List.sum_append, ← h.bytes]
    simp

theorem Recorded.walk (h : Recorded t xs st) (hst : l.foldlM (addEntry t) st = some st') :
    Recorded t (xs ++ l) st' := by
  induction l generalizing xs st with
  | nil =>
    obtain rfl := Option.some.inj hst
    rwa [List.append_nil]
  | cons x l ih =>
    rw [List.foldlM_cons] at hst
    obtain ⟨st₁, h₁, h₂⟩ := Option.bind_eq_some_iff.mp hst
    have hrest := ih (h.next h₁) h₂
    rwa [List.append_assoc] at hrest

/-- The calls for the volumes `vs`. -/
def Source.calls (source : Source) (vs : List Text) : List (List Text × Node) :=
  vs.flatMap fun v => ((source.volume v).map fun n => n.walk [v]).getD []

def Source.find (source : Source) (v : Text) (s : List Text) : Option Node :=
  (source.volume v).bind fun n => n.find s

theorem Source.calls_cons {v : Text} {n : Node} (h : source.volume v = some n) :
    source.calls (v :: vs) = n.walk [v] ++ source.calls vs := by
  rw [Source.calls, List.flatMap_cons, h]
  rfl

theorem Recorded.volumes (h : Recorded t xs st)
    (hst : vs.foldlM (addVolume t source) st = some st') :
    Recorded t (xs ++ source.calls vs) st' ∧ ∀ v ∈ vs, ∃ n, source.volume v = some n := by
  induction vs generalizing xs st with
  | nil =>
    obtain rfl := Option.some.inj hst
    exact ⟨(List.append_nil xs).symm ▸ h, nofun⟩
  | cons v vs ih =>
    rw [List.foldlM_cons] at hst
    obtain ⟨st₁, h₁, h₂⟩ := Option.bind_eq_some_iff.mp hst
    obtain ⟨n, hn, hwalk⟩ := Option.bind_eq_some_iff.mp h₁
    obtain ⟨hrec, hvs⟩ := ih (h.walk hwalk) h₂
    rw [List.append_assoc] at hrec
    rw [Source.calls_cons hn]
    exact ⟨hrec, List.forall_mem_cons.mpr ⟨⟨n, hn⟩, hvs⟩⟩

theorem Source.mem_calls :
    x ∈ source.calls vs ↔ ∃ v ∈ vs, ∃ s, x.1 = v :: s ∧ source.find v s = some x.2 := by
  rw [Source.calls, List.mem_flatMap]
  refine exists_congr fun v => and_congr_right fun _ => ?_
  cases hv : source.volume v with
  | none => simp [Source.find, hv]
  | some n =>
    rw [Option.map_some, Option.getD_some, Node.mem_walk n [v] x (source.named v n hv)]
    simp [Source.find, hv]

theorem Source.nodup_calls (hvs : vs.Nodup) : ((source.calls vs).map Prod.fst).Nodup := by
  induction vs with
  | nil => exact List.nodup_nil
  | cons v vs ih =>
    obtain ⟨hv, hvs⟩ := List.nodup_cons.mp hvs
    cases hn : source.volume v with
    | none =>
      have hcalls : source.calls (v :: vs) = source.calls vs := by simp [Source.calls, hn]
      rw [hcalls]
      exact ih hvs
    | some n =>
      rw [Source.calls_cons hn, List.map_append, List.nodup_append]
      refine ⟨Node.nodup_walk n [v] (source.named v n hn), ih hvs, ?_⟩
      intro a ha b hb hab
      obtain ⟨x, hx, rfl⟩ := List.mem_map.mp ha
      obtain ⟨y, hy, rfl⟩ := List.mem_map.mp hb
      obtain ⟨s, hxs, -⟩ := (Node.mem_walk n [v] x (source.named v n hn)).mp hx
      obtain ⟨w, hw, s', hys, -⟩ := Source.mem_calls.mp hy
      rw [hxs, hys] at hab
      exact hv ((List.cons.inj hab).1 ▸ hw)

theorem Source.follows_calls : Follows l (source.calls vs) := by
  induction vs generalizing l with
  | nil => exact trivial
  | cons v vs ih =>
    rw [Source.calls, List.flatMap_cons]
    refine follows_append.mpr ⟨?_, ih⟩
    cases source.volume v with
    | none => exact trivial
    | some n => exact Node.follows_walk n [v] l (.inl rfl)

theorem Source.length_le_calls (h : ∀ v ∈ vs, ∃ n, source.volume v = some n) :
    vs.length ≤ (source.calls vs).length := by
  induction vs with
  | nil => exact Nat.zero_le _
  | cons v vs ih =>
    obtain ⟨⟨n, hn⟩, hvs⟩ := List.forall_mem_cons.mp h
    rw [Source.calls_cons hn, Node.walk_eq, List.length_append, List.length_cons, List.length_cons]
    have := ih hvs
    omega

end Recorded

section Portable

/-- What `Verify` asks of a node under the path `s` of a volume, and `Create` does not. -/
structure Node.Portable (s : List Text) (n : Node) : Prop where
  names : ∀ c ∈ s, '\\' ∉ c
  owner : ∀ i, n.info = some i → i.uid ≤ 65535 ∧ i.gid ≤ 65535
  root : s = [] → n.isDirectory = true

/-- No name holds a backslash, no owner is above 65535, and the volumes are directories. -/
def Source.Portable (source : Source) : Prop :=
  ∀ v ∈ volumes, ∀ s n, source.find v s = some n → n.Portable s

variable {t : Tools} {source : Source} {past l : List (List Text × Node)} {v : Text}
  {s : List Text} {n : Node}

theorem entryOf_directory (p : List Text) (n : Node) :
    (entryOf p n).header.typeflag = .directory ↔ n.isDirectory = true := by
  cases n with
  | directory => exact ⟨fun _ => rfl, fun _ => rfl⟩
  | file => exact ⟨nofun, nofun⟩
  | other => exact ⟨nofun, nofun⟩

theorem volumes_no_backslash : ∀ v ∈ volumes, '\\' ∉ v := by decide

theorem valid_entryOf_iff (hv : v ∈ volumes) (hs : ∀ c ∈ s, Plain c) (hn : n.info ≠ none) :
    (entryOf (v :: s) n).header.Valid ↔ n.Portable s := by
  have hplain : ∀ c ∈ v :: s, Plain c := List.forall_mem_cons.mpr ⟨volumes_plain v hv, hs⟩
  have hslash : ∀ c ∈ v :: s, '/' ∉ c := fun c hc => (hplain c hc).no_slash
  have hfirst : first (join (v :: s)) = v := first_join (hslash v List.mem_cons_self)
  have hback : '\\' ∉ join (v :: s) ↔ ∀ c ∈ s, '\\' ∉ c := by
    rw [mem_join (by decide)]
    constructor
    · exact fun h c hc hm => h ⟨c, List.mem_cons_of_mem _ hc, hm⟩
    · rintro h ⟨c, hc, hm⟩
      rcases List.mem_cons.mp hc with rfl | hc
      · exact volumes_no_backslash c hv hm
      · exact h c hc hm
  have hroot : first (join (v :: s)) = join (v :: s) ↔ s = [] := by
    rw [hfirst]
    constructor
    · intro h
      have hparts := parts_join hslash (List.cons_ne_nil v s)
      have hone : parts v = [v] := List.splitOn_eq_singleton (hslash v List.mem_cons_self)
      rw [← h, hone] at hparts
      exact (List.cons.inj hparts).2.symm
    · rintro rfl
      simp [join]
  have hne : join (v :: s) ≠ [] := by
    intro hnil
    rw [hnil] at hfirst
    exact (volumes_plain v hv).ne_nil hfirst.symm
  constructor
  · intro h
    have hname := h.name.2.2.1
    have hr := h.root
    rw [entryOf_name] at hname hr
    refine ⟨hback.mp hname, fun i hi => ?_, fun hnil => ?_⟩
    · have huid := h.uid.2
      have hgid := h.gid.2
      cases n with
      | other => cases hi
      | file i' data =>
        obtain rfl := Option.some.inj hi
        exact ⟨Int.ofNat_le.mp huid, Int.ofNat_le.mp hgid⟩
      | directory i' cs =>
        obtain rfl := Option.some.inj hi
        exact ⟨Int.ofNat_le.mp huid, Int.ofNat_le.mp hgid⟩
    · exact (entryOf_directory _ n).mp (hr (hroot.mpr hnil))
  · intro h
    obtain ⟨i, hi⟩ := Option.ne_none_iff_exists'.mp hn
    have howner := h.owner i hi
    have hmode := i.mode.isLt
    have hmeta : (entryOf (v :: s) n).header.mode = i.mode.val ∧
        (entryOf (v :: s) n).header.uid = i.uid ∧ (entryOf (v :: s) n).header.gid = i.gid ∧
        (entryOf (v :: s) n).header.linkname = [] ∧ (entryOf (v :: s) n).header.records = 0 ∧
        ((entryOf (v :: s) n).header.typeflag = .directory ∧ (entryOf (v :: s) n).header.size = 0 ∨
          (entryOf (v :: s) n).header.typeflag = .regular) := by
      cases n with
      | other => cases hi
      | file i' data =>
        obtain rfl := Option.some.inj hi
        exact ⟨rfl, rfl, rfl, rfl, rfl, .inr rfl⟩
      | directory i' cs =>
        obtain rfl := Option.some.inj hi
        exact ⟨rfl, rfl, rfl, rfl, rfl, .inl ⟨rfl, rfl⟩⟩
    obtain ⟨hm, hu, hg, hlink, hrecords, hkind⟩ := hmeta
    refine ⟨?_, entryOf_size_nonneg _ n, ?_, ?_, ?_, ⟨hlink, hrecords⟩, ?_, ?_, hkind⟩
    · rw [entryOf_name]
      exact ⟨hne, clean_join hplain (List.cons_ne_nil v s), hback.mpr h.names, head_join_ne hplain⟩
    · omega
    · omega
    · omega
    · rw [entryOf_name]
      exact fun heq => (entryOf_directory _ n).mpr (h.root (hroot.mp heq))
    · rw [entryOf_name, hfirst]
      exact hv

theorem accepted_of_follows (ha : Accepted (past.map entry)) (hf : Follows past l)
    (hnodup : ((past ++ l).map Prod.fst).Nodup)
    (hplain : ∀ x ∈ past ++ l, x.1 ≠ [] ∧ ∀ c ∈ x.1, Plain c)
    (hvalid : ∀ x ∈ l, (entry x).header.Valid) (hcount : (past ++ l).length ≤ maxEntries)
    (hsize : ((past ++ l).map fun x => (entry x).header.size).sum ≤ maxBytes) :
    Accepted ((past ++ l).map entry) := by
  induction l generalizing past with
  | nil => rwa [List.append_nil]
  | cons x l ih =>
    have hassoc : past ++ x :: l = past ++ [x] ++ l := by rw [List.append_assoc]; rfl
    obtain ⟨hx, hxp⟩ := hplain x (List.mem_append_right _ List.mem_cons_self)
    have hfits : Fits (past.map entry) (entry x) := by
      refine ⟨hvalid x List.mem_cons_self, ?_, ?_, ?_, ?_⟩
      · intro hmem
        rw [List.map_map] at hmem
        obtain ⟨y, hy, hname⟩ := List.mem_map.mp hmem
        obtain ⟨hy', hyp⟩ := hplain y (List.mem_append_left _ hy)
        rw [Function.comp_apply, entryOf_name, entryOf_name] at hname
        have heq := join_injective (fun c hc => (hyp c hc).no_slash)
          (fun c hc => (hxp c hc).no_slash) hy' hx hname
        rw [List.map_append, List.nodup_append] at hnodup
        exact hnodup.2.2 y.1 (List.mem_map_of_mem hy) x.1 List.mem_cons_self heq
      · rw [entryOf_name]
        rcases hf.1 with hone | ⟨y, hy, hdir, hparent⟩
        · obtain ⟨c, hc⟩ := List.length_eq_one_iff.mp hone
          rw [hc] at hxp
          have hjoin : join [c] = c := by simp [join]
          rw [hc, hjoin]
          exact .inl (dir_single (hxp c List.mem_cons_self))
        · obtain ⟨hy', hyp⟩ := hplain y (List.mem_append_left _ hy)
          have hlast := List.dropLast_concat_getLast hx
          rw [← hparent] at hlast
          refine .inr ⟨entry y, List.mem_map_of_mem hy, (entryOf_directory _ _).mpr hdir, ?_⟩
          rw [entryOf_name, ← hlast, dir_join hyp hy' (hxp _ (List.getLast_mem hx))]
      · rw [List.length_append, List.length_cons] at hcount
        rw [List.length_map]
        omega
      · rw [List.map_append, List.sum_append, List.map_cons, List.sum_cons] at hsize
        have hrest : 0 ≤ (l.map fun x => (entry x).header.size).sum := by
          refine List.sum_nonneg fun a ha => ?_
          obtain ⟨y, -, rfl⟩ := List.mem_map.mp ha
          exact entryOf_size_nonneg _ _
        rw [List.map_map]
        exact le_trans (add_le_add_right (le_add_of_nonneg_right hrest) _) hsize
    rw [hassoc] at hnodup hplain hcount hsize ⊢
    refine ih ?_ hf.2 hnodup hplain (fun y hy => hvalid y (List.mem_cons_of_mem _ hy)) hcount hsize
    rw [List.map_append]
    exact .snoc ha hfits

end Portable

section RoundTrip

variable {t : Tools} {source : Source} {d d' : Snapshot t.toReader} {m : Manifest} {st : Writing}

/-- What `Create` leaves. -/
structure Created (t : Tools) (source : Source) (st : Writing) (m : Manifest)
    (d' : Snapshot t.toReader) : Prop where
  recorded : Recorded t (source.calls volumes) st
  present : ∀ v ∈ volumes, ∃ n, source.volume v = some n
  manifest : m = ⟨1, t.sha256 (t.write st.written), t.size (t.write st.written), st.entries⟩
  owned : d'.owned = true
  stored : d'.manifest = some ⟨m, true⟩
  tape : d'.tape = some ⟨t.write st.written, true⟩

theorem created_of_create (h : create t source d = some (m, d')) :
    ∃ st, Created t source st m d' := by
  unfold create at h
  split at h
  swap
  · cases h
  rename_i hopen
  split at h
  · cases h
  rename_i st hst
  dsimp only at h
  split at h
  · cases h
  obtain ⟨rfl, rfl⟩ := Prod.mk.inj (Option.some.inj h)
  obtain ⟨hrec, hpresent⟩ := (recorded_nil t).volumes hst
  exact ⟨st, hrec, hpresent, rfl, hopen.1, rfl, rfl⟩

theorem sum_blocks (xs : List (List Text × Node)) :
    0 ≤ (xs.map fun x => blocks (entry x).header.size).sum ∧
      (xs.map fun x => blocks (entry x).header.size).sum ≤
        (xs.map fun x => (entry x).header.size).sum + 1023 * xs.length := by
  induction xs with
  | nil => decide
  | cons x xs ih =>
    have hsize : 0 ≤ (entry x).header.size := entryOf_size_nonneg x.1 x.2
    simp only [List.map_cons, List.sum_cons, List.length_cons, blocks]
    simp only [blocks] at ih
    omega

theorem Source.calls_plain : ∀ x ∈ source.calls volumes, x.1 ≠ [] ∧ ∀ c ∈ x.1, Plain c := by
  intro x hx
  obtain ⟨v, hv, s, hpath, hfind⟩ := Source.mem_calls.mp hx
  obtain ⟨n, hn, hf⟩ := Option.bind_eq_some_iff.mp hfind
  rw [hpath]
  exact ⟨List.cons_ne_nil v s, List.forall_mem_cons.mpr
    ⟨volumes_plain v hv, (source.named v n hn).find_plain hf⟩⟩

variable (h : Created t source st m d')
include h

theorem Created.length_content :
    ∀ w ∈ st.written, (w.1.content.length : ℤ) = w.1.header.size := by
  intro w hw
  have hmem : w.1 ∈ (source.calls volumes).map entry :=
    h.recorded.written ▸ List.mem_map_of_mem hw
  obtain ⟨x, -, hx⟩ := List.mem_map.mp hmem
  rw [← hx]
  exact entryOf_length _ _

theorem Created.read :
    t.read (t.write st.written) = some ((source.calls volumes).map entry) := by
  rw [t.read_write _ h.recorded.accepted h.length_content, h.recorded.written]

theorem Created.manifest_valid : m.Valid := by
  have hsize := t.size_write _ h.recorded.accepted h.length_content
  have hmap : (st.written.map fun w => blocks w.1.header.size) =
      (source.calls volumes).map fun x => blocks (entry x).header.size := by
    have hw := congrArg (List.map fun e => blocks e.header.size) h.recorded.written
    rwa [List.map_map, List.map_map] at hw
  rw [hmap] at hsize
  obtain ⟨hlow, hhigh⟩ := sum_blocks (source.calls volumes)
  rw [← h.recorded.bytes, ← h.recorded.entries] at hhigh
  obtain ⟨hentries, hbytes⟩ := h.recorded.bounded
  have hseven := Source.length_le_calls h.present
  rw [← h.recorded.entries] at hseven
  have hlength : volumes.length = 7 := rfl
  rw [h.manifest]
  refine ⟨rfl, ⟨?_, ?_⟩, ⟨?_, ?_⟩, t.sha256_digest _⟩
  all_goals
    dsimp only
    simp only [maxBytes, maxEntries] at *
    omega

theorem Created.verify_iff :
    verify t.toReader d' = some m ↔ Accepted ((source.calls volumes).map entry) := by
  have hmanifest : readManifest t.toReader d' = some m := by
    rw [readManifest, h.stored]
    exact if_pos ⟨h.owned, rfl, h.manifest_valid⟩
  have hfile : archiveFile t.toReader d' = some (t.write st.written) := by
    rw [archiveFile, h.tape]
    rfl
  rw [Backup.verify_iff]
  constructor
  · rintro ⟨tape, es, hv⟩
    obtain rfl := Option.some.inj (hfile.symm.trans hv.file)
    rw [Option.some.inj (h.read.symm.trans hv.read)]
    exact hv.accepted
  · intro ha
    refine ⟨_, _, hmanifest, hfile, ?_, ?_, h.read, ha, ?_, ?_⟩
    · rw [h.manifest]
    · rw [h.manifest]
    · intro v hv
      obtain ⟨n, hn⟩ := h.present v hv
      have hcall : ([v], n) ∈ source.calls volumes := by
        refine Source.mem_calls.mpr ⟨v, hv, [], rfl, ?_⟩
        rw [Source.find, hn]
        rfl
      rw [List.map_map]
      refine List.mem_map.mpr ⟨_, hcall, ?_⟩
      rw [Function.comp_apply, entryOf_name]
      simp [join]
    · rw [h.manifest, List.length_map, h.recorded.entries]

theorem Created.valid_iff {v : Text} {s : List Text} {n : Node} (hv : v ∈ volumes)
    (hfind : source.find v s = some n) :
    (entryOf (v :: s) n).header.Valid ↔ n.Portable s := by
  have hcall : (v :: s, n) ∈ source.calls volumes := Source.mem_calls.mpr ⟨v, hv, s, rfl, hfind⟩
  exact valid_entryOf_iff hv (List.forall_mem_cons.mp (Source.calls_plain _ hcall).2).2
    (h.recorded.kind _ hcall)

theorem Created.accepted_iff :
    Accepted ((source.calls volumes).map entry) ↔ source.Portable := by
  constructor
  · intro ha v hv s n hfind
    have hcall : (v :: s, n) ∈ source.calls volumes := Source.mem_calls.mpr ⟨v, hv, s, rfl, hfind⟩
    exact (h.valid_iff hv hfind).mp (ha.valid _ (List.mem_map_of_mem hcall))
  · intro hp
    obtain ⟨hentries, hbytes⟩ := h.recorded.bounded
    rw [h.recorded.entries] at hentries
    rw [h.recorded.bytes] at hbytes
    refine @accepted_of_follows [] (source.calls volumes) .nil Source.follows_calls
      (Source.nodup_calls (by decide)) Source.calls_plain (fun x hx => ?_) hentries hbytes
    obtain ⟨v, hv, s, hpath, hfind⟩ := Source.mem_calls.mp hx
    rw [entry, hpath]
    exact (h.valid_iff hv hfind).mpr (hp v hv s x.2 hfind)

theorem Created.restored {root : List Text} {fs fs' : FileSystem} (hempty : EmptyVolumes root fs)
    (ha : Accepted ((source.calls volumes).map entry))
    (hr : Restored root fs ((source.calls volumes).map entry) fs') {v : Text} (hv : v ∈ volumes)
    (s : List Text) : fs'.get (root ++ v :: s) = (source.find v s).bind Node.inode := by
  have hdest : ∀ x ∈ source.calls volumes,
      destination root (entry x).header.name = root ++ x.1 := by
    intro x hx
    obtain ⟨hne, hplain⟩ := Source.calls_plain x hx
    rw [(ha.valid _ (List.mem_map_of_mem hx)).destination_eq, entryOf_name,
      parts_join (fun c hc => (hplain c hc).no_slash) hne]
  cases hfind : source.find v s with
  | some n =>
    have hcall : (v :: s, n) ∈ source.calls volumes :=
      Source.mem_calls.mpr ⟨v, hv, s, rfl, hfind⟩
    have hmade := hr.made _ (List.mem_map_of_mem hcall)
    rw [hdest _ hcall] at hmade
    rw [hmade, Option.bind_some, entryOf_inode (h.recorded.kind _ hcall)]
  | none =>
    have hs : s ≠ [] := by
      rintro rfl
      obtain ⟨n, hn⟩ := h.present v hv
      rw [Source.find, hn] at hfind
      cases hfind
    rw [hr.kept, (hempty v hv).2 s hs]
    · rfl
    · intro e he heq
      obtain ⟨x, hx, rfl⟩ := List.mem_map.mp he
      rw [hdest x hx] at heq
      obtain ⟨w, -, s', hpath, hf⟩ := Source.mem_calls.mp hx
      rw [hpath] at heq
      obtain ⟨rfl, rfl⟩ := List.cons.inj (List.append_cancel_left heq)
      rw [hfind] at hf
      cases hf

omit h

/-- `Verify` takes what `Create` has made if and only if the volumes are portable; and then
`Restore` into empty volumes gives the same paths, kinds, contents, modes and owners. -/
theorem backup_round_trip (t : Tools) (source : Source) (d d' : Snapshot t.toReader) (m : Manifest)
    (h : create t source d = some (m, d')) :
    (verify t.toReader d' = some m ↔ source.Portable) ∧
      (source.Portable → ∀ root fs, EmptyVolumes root fs →
        ∃ fs', restore t.toReader root d' fs = some fs' ∧
          ∀ v ∈ volumes, ∀ s, fs'.get (root ++ v :: s) = (source.find v s).bind Node.inode) := by
  obtain ⟨st, hc⟩ := created_of_create h
  have hiff := hc.verify_iff.trans hc.accepted_iff
  refine ⟨hiff, fun hp root fs hempty => ?_⟩
  obtain ⟨tape, es, hv⟩ := verify_iff.mp (hiff.mpr hp)
  obtain ⟨fs', hrestore, hr⟩ := hv.restore hempty
  have hes : es = (source.calls volumes).map entry := by
    have hfile : archiveFile t.toReader d' = some (t.write st.written) := by
      rw [archiveFile, hc.tape]
      rfl
    obtain rfl := Option.some.inj (hfile.symm.trans hv.file)
    exact Option.some.inj (hv.read.symm.trans hc.read)
  rw [hes] at hr
  exact ⟨fs', hrestore, fun v hv s => hc.restored hempty (hc.accepted_iff.mpr hp) hr hv s⟩

def sampleTools : Tools where
  Tape := List (Entry × ℤ)
  size xs := (xs.map fun x => blocks x.1.header.size).sum + 1024
  sha256 _ := "0000000000000000000000000000000000000000000000000000000000000000"
  read xs :=
    if ∀ x ∈ xs, (x.1.content.length : ℤ) = x.1.header.size then some (xs.map Prod.fst) else none
  length_content := by
    intro tape es h e he hreg
    split at h
    · rename_i hall
      obtain rfl := Option.some.inj h
      obtain ⟨x, hx, rfl⟩ := List.mem_map.mp he
      exact hall x hx
    · cases h
  accepts h time :=
    decide (h.name.length ≤ 100 ∧ (∀ c ∈ h.name, c.toNat < 128) ∧ h.size < 8589934592 ∧
      h.mode < 2097152 ∧ h.uid < 2097152 ∧ h.gid < 2097152 ∧ 0 ≤ time ∧ time < 8589934592)
  write xs := xs
  read_write := fun xs _ hlength => if_pos hlength
  size_write := fun xs _ _ => rfl
  sha256_digest := fun _ => by decide +kernel

def sampleSource (name : Text) (hname : Plain name) (uid : Nat) : Source where
  volume v :=
    if v = "database".toList then
      some (.directory ⟨0o700, 0, 0, 0⟩ (.cons name (.file ⟨0o600, uid, uid, 0⟩ [1, 2]) .nil))
    else if v ∈ volumes then some (.directory ⟨0o700, 0, 0, 0⟩ .nil)
    else none
  named := by
    intro v n h
    split at h
    · obtain rfl := Option.some.inj h
      exact ⟨hname, List.not_mem_nil, trivial, trivial⟩
    · split at h
      · obtain rfl := Option.some.inj h
        exact trivial
      · cases h

/-- A file with a backslash in its name, or one of a user with a high number: the archive is
created, and is not verified. -/
theorem unverified_backups :
    (create sampleTools (sampleSource "a\\b".toList (by decide) 70) ⟨true, none, none⟩).map
        (fun x => verify sampleTools.toReader x.2) = some none ∧
      (create sampleTools (sampleSource "log".toList (by decide) 100000) ⟨true, none, none⟩).map
        (fun x => verify sampleTools.toReader x.2) = some none := by
  decide +kernel

theorem sampleSource_restored :
    ∃ m d' fs, create sampleTools (sampleSource "log".toList (by decide) 70) ⟨true, none, none⟩ =
        some (m, d') ∧ restore sampleTools.toReader sampleRoot d' sampleDisk = some fs ∧
      fs.get (sampleRoot ++ ["database".toList, "log".toList]) = some ⟨.file [1, 2], 0o600, 70, 70⟩ ∧
      ∀ v ∈ volumes, ∀ s, fs.get (sampleRoot ++ v :: s) =
        ((sampleSource "log".toList (by decide) 70).find v s).bind Node.inode := by
  have hrun : (create sampleTools (sampleSource "log".toList (by decide) 70)
      ⟨true, none, none⟩).map (fun x => decide (verify sampleTools.toReader x.2 = some x.1)) =
      some true := by decide +kernel
  obtain ⟨⟨m, d'⟩, hcreate, hverify⟩ := Option.map_eq_some_iff.mp hrun
  obtain ⟨hiff, hrestore⟩ := backup_round_trip _ _ _ _ _ hcreate
  obtain ⟨fs, hfs, hsame⟩ :=
    hrestore (hiff.mp (of_decide_eq_true hverify)) sampleRoot sampleDisk sampleDisk_empty
  refine ⟨m, d', fs, hcreate, hfs, (hsame _ (by decide) ["log".toList]).trans ?_, hsame⟩
  decide +kernel

end RoundTrip

end WaitingRoom.Backup
