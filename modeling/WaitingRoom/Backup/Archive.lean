import WaitingRoom.Shared.Path
import WaitingRoom.Shared.Table
import WaitingRoom.Shared.Document

/-!
# Verifying and restoring a recovery archive

`Verify` reads a whole archive before `Restore` creates a file: each header on its own,
and against the names and directories that came before it. The archive may hold
anything. A file system has paths of components and the metadata that a restore sets;
its operations fail where a path exists or its directory does not, and for no other
reason.
-/

namespace WaitingRoom.Backup

open WaitingRoom.Path

set_option autoImplicit false

section Verify

inductive Kind
  | directory | regular | other
deriving DecidableEq, Repr

/-- `tar.Header`, with the number of its PAX records. -/
structure Header where
  name : Text
  typeflag : Kind
  size : ℤ := 0
  mode : ℤ
  uid : ℤ
  gid : ℤ
  linkname : Text := []
  records : Nat := 0
deriving DecidableEq

structure Entry where
  header : Header
  content : List UInt8 := []
deriving DecidableEq

/-- `Volumes`. -/
def volumes : List Text :=
  ["database".toList, "state".toList, "identities".toList, "gateway-data".toList,
    "coordinator-data".toList, "queue-config".toList, "queue-data".toList]

instance (v : Text) : Decidable (v ∈ volumes) := List.instDecidableMemOfLawfulBEq v volumes

def maxBytes : ℤ := 17179869184

def maxEntries : Nat := 1000000

/-- `validHeader`. -/
structure Header.Valid (h : Header) : Prop where
  name : h.name ≠ [] ∧ clean h.name = h.name ∧ '\\' ∉ h.name ∧ h.name.head? ≠ some '/'
  size : 0 ≤ h.size
  uid : 0 ≤ h.uid ∧ h.uid ≤ 65535
  gid : 0 ≤ h.gid ∧ h.gid ≤ 65535
  mode : 0 ≤ h.mode ∧ h.mode ≤ 0o777
  plain : h.linkname = [] ∧ h.records = 0
  root : first h.name = h.name → h.typeflag = .directory
  volume : first h.name ∈ volumes
  kind : h.typeflag = .directory ∧ h.size = 0 ∨ h.typeflag = .regular

instance (h : Header) : Decidable h.Valid :=
  decidable_of_iff ((h.name ≠ [] ∧ clean h.name = h.name ∧ '\\' ∉ h.name ∧
      h.name.head? ≠ some '/') ∧ 0 ≤ h.size ∧ (0 ≤ h.uid ∧ h.uid ≤ 65535) ∧
      (0 ≤ h.gid ∧ h.gid ≤ 65535) ∧ (0 ≤ h.mode ∧ h.mode ≤ 0o777) ∧
      (h.linkname = [] ∧ h.records = 0) ∧ (first h.name = h.name → h.typeflag = .directory) ∧
      first h.name ∈ volumes ∧ (h.typeflag = .directory ∧ h.size = 0 ∨ h.typeflag = .regular))
    ⟨fun ⟨h₁, h₂, h₃, h₄, h₅, h₆, h₇, h₈, h₉⟩ => ⟨h₁, h₂, h₃, h₄, h₅, h₆, h₇, h₈, h₉⟩,
      fun h => ⟨h.1, h.2, h.3, h.4, h.5, h.6, h.7, h.8, h.9⟩⟩

/-- A digest as `hex.EncodeToString` writes it. -/
def IsDigest (s : String) : Prop := s.length = 64 ∧ ∀ c ∈ s.toList, c ∈ "0123456789abcdef".toList
  deriving Decidable

structure Manifest where
  schema : ℤ
  sha256 : String
  bytes : ℤ
  entries : ℤ
deriving DecidableEq

/-- What `ReadManifest` asks of a manifest. -/
structure Manifest.Valid (m : Manifest) : Prop where
  schema : m.schema = 1
  bytes : 1024 ≤ m.bytes ∧ m.bytes ≤ maxBytes + 1073741824
  entries : 7 ≤ m.entries ∧ m.entries ≤ maxEntries
  sha256 : IsDigest m.sha256

instance (m : Manifest) : Decidable m.Valid :=
  decidable_of_iff (m.schema = 1 ∧ (1024 ≤ m.bytes ∧ m.bytes ≤ maxBytes + 1073741824) ∧
      (7 ≤ m.entries ∧ m.entries ≤ maxEntries) ∧ IsDigest m.sha256)
    ⟨fun ⟨h₁, h₂, h₃, h₄⟩ => ⟨h₁, h₂, h₃, h₄⟩, fun h => ⟨h.1, h.2, h.3, h.4⟩⟩

/-- The contents of archive files, their size and digest, and the entries that a reader
takes from them, if it gets to the end. It reads the data of a file to its size. -/
structure Reader where
  Tape : Type
  size : Tape → ℤ
  sha256 : Tape → String
  read : Tape → Option (List Entry)
  length_content : ∀ tape es, read tape = some es → ∀ e ∈ es, e.header.typeflag = .regular →
    (e.content.length : ℤ) = e.header.size

/-- A regular file, and whether only its owner can use it. -/
structure Stored (V : Type) where
  value : V
  owned : Bool

structure Snapshot (r : Reader) where
  owned : Bool
  manifest : Option (Stored Manifest) := none
  tape : Option (Stored r.Tape) := none

/-- The loop of `Verify`, so far. -/
structure Progress where
  seen : List Text := []
  directories : List Text := []
  count : Nat := 0
  size : ℤ := 0

/-- One turn of the loop of `Verify`. -/
def verifyEntry (st : Progress) (e : Entry) : Option Progress :=
  let name := e.header.name
  if ¬e.header.Valid ∨ name ∈ st.seen then none
  else if dir name ≠ dot ∧ dir name ∉ st.directories then none
  else if maxEntries < st.count + 1 ∨ maxBytes < st.size + e.header.size then none
  else some
    { seen := name :: st.seen
      directories :=
        if e.header.typeflag = .directory then name :: st.directories else st.directories
      count := st.count + 1
      size := st.size + e.header.size }

variable (r : Reader)

def readManifest (d : Snapshot r) : Option Manifest :=
  match d.manifest with
  | none => none
  | some s => if d.owned = true ∧ s.owned = true ∧ s.value.Valid then some s.value else none

/-- `archiveFile`. -/
def archiveFile (d : Snapshot r) : Option r.Tape :=
  match d.tape with
  | none => none
  | some s => if s.owned then some s.value else none

/-- `Verify`. -/
def verify (d : Snapshot r) : Option Manifest :=
  match readManifest r d, archiveFile r d with
  | some m, some tape =>
    if r.size tape ≠ m.bytes ∨ r.sha256 tape ≠ m.sha256 then none
    else
      match (r.read tape).bind fun es => es.foldlM verifyEntry {} with
      | none => none
      | some st =>
        if (∀ v ∈ volumes, v ∈ st.seen) ∧ (st.count : ℤ) = m.entries then some m else none
  | _, _ => none

end Verify

section Restore

inductive Content
  | directory
  | file (data : List UInt8)
deriving DecidableEq

structure Inode where
  content : Content
  mode : ℤ
  uid : ℤ
  gid : ℤ
deriving DecidableEq

abbrev FileSystem := Table (List Text) Inode

inductive Fault
  | exist | missing
deriving DecidableEq, Repr

namespace FileSystem

def isDirectory (fs : FileSystem) (p : List Text) : Bool :=
  match fs.get p with
  | none => false
  | some i => decide (i.content = .directory)

def create (fs : FileSystem) (p : List Text) (i : Inode) : Except Fault FileSystem :=
  if (fs.get p).isSome then .error .exist
  else if fs.isDirectory p.dropLast then .ok (fs.put p i)
  else .error .missing

/-- `os.Mkdir` with the mode 0700. -/
def mkdir (fs : FileSystem) (p : List Text) : Except Fault FileSystem :=
  fs.create p ⟨.directory, 0o700, 0, 0⟩

/-- `os.OpenFile` for a new file with the mode 0600, and what is written to it. -/
def createFile (fs : FileSystem) (p : List Text) (data : List UInt8) : Except Fault FileSystem :=
  fs.create p ⟨.file data, 0o600, 0, 0⟩

/-- `os.Chmod`, then `os.Chown`. -/
def setMeta (fs : FileSystem) (p : List Text) (mode uid gid : ℤ) : Option FileSystem :=
  (fs.get p).map fun i => fs.put p { i with mode, uid, gid }

/-- `os.ReadDir` finds nothing. -/
def isEmpty (fs : FileSystem) (p : List Text) : Bool :=
  fs.rows.all fun e => decide (e.1 = [] ∨ e.1.dropLast ≠ p)

end FileSystem

/-- The directory or file of an entry, in the loop of `Restore`. -/
def restoreContent (fs : FileSystem) (dest : List Text) (e : Entry) : Option FileSystem :=
  if e.header.typeflag = .directory then
    match fs.mkdir dest with
    | .ok fs' => if fs'.isDirectory dest then some fs' else none
    | .error .exist => if fs.isDirectory dest then some fs else none
    | .error .missing => none
  else if (e.content.length : ℤ) < e.header.size then none
  else
    match fs.createFile dest (e.content.take e.header.size.toNat) with
    | .ok fs' => some fs'
    | .error _ => none

/-- One turn of the loop of `Restore`. -/
def restoreEntry (root : List Text) (fs : FileSystem) (e : Entry) : Option FileSystem :=
  if ¬e.header.Valid then none
  else
    (restoreContent fs (destination root e.header.name) e).bind fun fs =>
      fs.setMeta (destination root e.header.name) e.header.mode e.header.uid e.header.gid

/-- `Restore`. -/
def restore (r : Reader) (root : List Text) (d : Snapshot r) (fs : FileSystem) :
    Option FileSystem :=
  match verify r d with
  | none => none
  | some _ =>
    if ∀ v ∈ volumes, fs.isDirectory (destination root v) = true ∧
        fs.isEmpty (destination root v) = true then
      ((archiveFile r d).bind r.read).bind fun es => es.foldlM (restoreEntry root) fs
    else none

end Restore

section Accepted

/-- What `Verify` finds out about an entry after the entries `past`. -/
structure Fits (past : List Entry) (e : Entry) : Prop where
  valid : e.header.Valid
  fresh : e.header.name ∉ past.map fun e => e.header.name
  parent : dir e.header.name = dot ∨
    ∃ d ∈ past, d.header.typeflag = .directory ∧ d.header.name = dir e.header.name
  count : past.length + 1 ≤ maxEntries
  size : (past.map fun e => e.header.size).sum + e.header.size ≤ maxBytes

/-- The lists of entries that the loop of `Verify` gets through. -/
inductive Accepted : List Entry → Prop
  | nil : Accepted []
  | snoc {past : List Entry} {e : Entry} : Accepted past → Fits past e → Accepted (past ++ [e])

/-- What the loop has noted after the entries `past`. -/
structure Noted (past : List Entry) (st : Progress) : Prop where
  seen : ∀ n, n ∈ st.seen ↔ n ∈ past.map fun e => e.header.name
  directories : ∀ n, n ∈ st.directories ↔
    ∃ d ∈ past, d.header.typeflag = .directory ∧ d.header.name = n
  count : st.count = past.length
  size : st.size = (past.map fun e => e.header.size).sum

variable {past es : List Entry} {e : Entry} {st st' : Progress}

theorem noted_nil : Noted [] {} :=
  ⟨fun _ => ⟨nofun, nofun⟩, fun _ => ⟨nofun, fun ⟨_, h, _⟩ => nomatch h⟩, rfl, rfl⟩

theorem Noted.step (h : Noted past st) :
    (∃ st', verifyEntry st e = some st') ↔ Fits past e := by
  unfold verifyEntry
  dsimp only
  constructor
  · rintro ⟨st', hst⟩
    split at hst
    · cases hst
    rename_i hvalid
    obtain ⟨hvalid, hseen⟩ := not_or.mp hvalid
    split at hst
    · cases hst
    rename_i hparent
    split at hst
    · cases hst
    rename_i hbounds
    obtain ⟨hcount, hsize⟩ := not_or.mp hbounds
    refine ⟨not_not.mp hvalid, fun hm => hseen ((h.seen _).mpr hm), ?_, ?_, ?_⟩
    · by_cases hd : dir e.header.name = dot
      · exact .inl hd
      · exact .inr ((h.directories _).mp (not_not.mp fun hn => hparent ⟨hd, hn⟩))
    · rw [← h.count]
      omega
    · rw [← h.size]
      omega
  · intro hf
    rw [if_neg, if_neg, if_neg]
    · exact ⟨_, rfl⟩
    · have hcount := hf.count
      have hsize := hf.size
      rw [← h.count] at hcount
      rw [← h.size] at hsize
      omega
    · rintro ⟨hd, hn⟩
      exact hn ((h.directories _).mpr (hf.parent.resolve_left hd))
    · rintro (hv | hs)
      · exact hv hf.valid
      · exact hf.fresh ((h.seen _).mp hs)

theorem Noted.next (h : Noted past st) (hst : verifyEntry st e = some st') :
    Noted (past ++ [e]) st' := by
  unfold verifyEntry at hst
  dsimp only at hst
  split at hst
  · cases hst
  split at hst
  · cases hst
  split at hst
  · cases hst
  obtain rfl := Option.some.inj hst
  refine ⟨fun n => ?_, fun n => ?_, ?_, ?_⟩
  · simp only [List.mem_cons, List.map_append, List.mem_append, h.seen, List.map_cons, List.map_nil,
      List.not_mem_nil, or_false]
    exact or_comm
  · have hdirs := h.directories n
    simp only [List.mem_append, List.mem_singleton, or_and_right, exists_or, exists_eq_left,
      ← hdirs]
    split
    · rename_i hd
      rw [List.mem_cons, or_comm, eq_comm]
      exact or_congr_right (by simp [hd])
    · rename_i hd
      simp [hd]
  · rw [List.length_append, ← h.count]
    rfl
  · rw [List.map_append, List.sum_append, ← h.size]
    simp

theorem accepted_of_verifyEntries (ha : Accepted past) (hn : Noted past st)
    (h : es.foldlM verifyEntry st = some st') :
    Accepted (past ++ es) ∧ Noted (past ++ es) st' := by
  induction es generalizing past st with
  | nil =>
    obtain rfl := Option.some.inj h
    rw [List.append_nil]
    exact ⟨ha, hn⟩
  | cons e es ih =>
    rw [List.foldlM_cons] at h
    obtain ⟨st₁, h₁, h₂⟩ := Option.bind_eq_some_iff.mp h
    have hfits := hn.step.mp ⟨st₁, h₁⟩
    have hrest := ih (.snoc ha hfits) (hn.next h₁) h₂
    rwa [List.append_assoc] at hrest

theorem verifyEntries_of_accepted (h : Accepted es) :
    ∃ st, es.foldlM verifyEntry {} = some st ∧ Noted es st := by
  induction h with
  | nil => exact ⟨_, rfl, noted_nil⟩
  | snoc _ hfits ih =>
    obtain ⟨st, hst, hn⟩ := ih
    obtain ⟨st', hst'⟩ := hn.step.mpr hfits
    refine ⟨st', ?_, hn.next hst'⟩
    rw [List.foldlM_append, hst]
    exact Option.bind_eq_some_iff.mpr ⟨st, rfl, Option.bind_eq_some_iff.mpr ⟨st', hst', rfl⟩⟩

/-- What `Verify` accepts. -/
structure Verified (r : Reader) (d : Snapshot r) (m : Manifest) (tape : r.Tape)
    (es : List Entry) : Prop where
  manifest : readManifest r d = some m
  file : archiveFile r d = some tape
  size : r.size tape = m.bytes
  sha256 : r.sha256 tape = m.sha256
  read : r.read tape = some es
  accepted : Accepted es
  volumes : ∀ v ∈ volumes, v ∈ es.map fun e => e.header.name
  entries : (es.length : ℤ) = m.entries

theorem verify_iff {r : Reader} {d : Snapshot r} {m : Manifest} :
    verify r d = some m ↔ ∃ tape es, Verified r d m tape es := by
  constructor
  · intro h
    unfold verify at h
    split at h
    swap
    · cases h
    rename_i m' tape hm ht
    split at h
    · cases h
    rename_i hsum
    obtain ⟨hsize, hsha⟩ := not_or.mp hsum
    split at h
    · cases h
    rename_i st hst
    split at h
    swap
    · cases h
    rename_i hend
    obtain rfl := Option.some.inj h
    obtain ⟨es, hes, hst⟩ := Option.bind_eq_some_iff.mp hst
    obtain ⟨ha, hn⟩ := accepted_of_verifyEntries .nil noted_nil hst
    rw [List.nil_append] at ha hn
    refine ⟨tape, es, hm, ht, not_not.mp hsize, not_not.mp hsha, hes, ha, ?_, ?_⟩
    · exact fun v hv => (hn.seen v).mp (hend.1 v hv)
    · rw [← hn.count]
      exact hend.2
  · rintro ⟨tape, es, h⟩
    obtain ⟨st, hst, hn⟩ := verifyEntries_of_accepted h.accepted
    unfold verify
    rw [h.manifest, h.file]
    dsimp only
    rw [if_neg (not_or.mpr ⟨not_not.mpr h.size, not_not.mpr h.sha256⟩), h.read, Option.bind_some, hst]
    dsimp only
    rw [if_pos]
    refine ⟨fun v hv => (hn.seen v).mpr (h.volumes v hv), ?_⟩
    rw [hn.count]
    exact h.entries

end Accepted

section Names

variable {h : Header} {e : Entry} {past es : List Entry}

theorem volumes_plain : ∀ v ∈ volumes, Plain v := by decide

theorem Header.Valid.parts_plain (hv : h.Valid) : ∀ c ∈ parts h.name, Plain c := by
  have hfirst := volumes_plain _ hv.volume
  exact plain_of_clean hv.name.2.1 hv.name.2.2.2 hfirst.ne_dot hfirst.ne_dotDot

theorem Header.Valid.destination_eq (hv : h.Valid) (root : List Text) :
    destination root h.name = root ++ parts h.name := destination_of_plain root hv.parts_plain

theorem parts_injective {p q : Text} (h : parts p = parts q) : p = q := by
  rw [← join_parts p, h, join_parts]

theorem Header.Valid.root_or_below (hv : h.Valid) :
    (parts h.name = [first h.name] ∧ first h.name = h.name ∧ dir h.name = dot) ∨
      ∃ s c, s ≠ [] ∧ parts h.name = s ++ [c] ∧ dir h.name = join s ∧ dir h.name ≠ dot ∧
        parts (dir h.name) = s ∧ ∃ rest, s = first h.name :: rest := by
  obtain ⟨cs, hcs⟩ := first_eq_head h.name
  have hplain := hv.parts_plain
  rcases List.eq_nil_or_concat cs with rfl | ⟨s, c, rfl⟩
  · have hname : first h.name = h.name := by
      have hj := join_parts h.name
      rw [hcs] at hj
      simpa [join] using hj
    refine .inl ⟨hcs, hname, dir_single ?_⟩
    rw [hcs, hname] at hplain
    exact hplain _ List.mem_cons_self
  · rw [List.concat_eq_append, ← List.cons_append] at hcs
    rw [hcs] at hplain
    have hs : ∀ d ∈ first h.name :: s, Plain d := fun d hd => hplain d (List.mem_append_left _ hd)
    have hc : Plain c := hplain c (List.mem_append_right _ List.mem_cons_self)
    have hdir : dir h.name = join (first h.name :: s) := by
      rw [← dir_join hs (List.cons_ne_nil _ _) hc, ← hcs, join_parts]
    have hparts : parts (dir h.name) = first h.name :: s := by
      rw [hdir]
      exact parts_join (fun d hd => (hs d hd).no_slash) (List.cons_ne_nil _ _)
    refine .inr ⟨first h.name :: s, c, List.cons_ne_nil _ _, hcs, hdir, fun hdot => ?_, hparts,
      s, rfl⟩
    rw [hdot] at hparts
    have hfirst := (List.cons.inj hparts).1
    exact (volumes_plain _ hv.volume).ne_dot hfirst.symm

theorem Accepted.valid (ha : Accepted es) : ∀ e ∈ es, e.header.Valid := by
  induction ha with
  | nil => exact nofun
  | snoc _ hf ih =>
    intro e he
    rcases List.mem_append.mp he with he | he
    · exact ih e he
    · obtain rfl := List.mem_singleton.mp he
      exact hf.valid

theorem Accepted.names_nodup (ha : Accepted es) : (es.map fun e => e.header.name).Nodup := by
  induction ha with
  | nil => exact List.nodup_nil
  | snoc _ hf ih =>
    rw [List.map_append, List.map_cons, List.map_nil, List.nodup_append]
    refine ⟨ih, List.nodup_singleton _, fun a ha b hb => ?_⟩
    rw [List.mem_singleton.mp hb]
    rintro rfl
    exact hf.fresh ha

theorem Accepted.split {e : Entry} {post : List Entry} (ha : Accepted (past ++ e :: post)) :
    Fits past e := by
  generalize hl : past ++ e :: post = l at ha
  induction ha generalizing post with
  | nil => simp at hl
  | snoc _ hf ih =>
    rcases List.eq_nil_or_concat post with rfl | ⟨post, x, rfl⟩
    · obtain ⟨rfl, he⟩ := List.append_inj' hl rfl
      rw [(List.cons.inj he).1]
      exact hf
    · rw [List.concat_eq_append, ← List.cons_append, ← List.append_assoc] at hl
      exact ih (List.append_inj' hl rfl).1

end Names

section Contained

def Entry.inode (e : Entry) : Inode where
  content :=
    if e.header.typeflag = .directory then .directory
    else .file (e.content.take e.header.size.toNat)
  mode := e.header.mode
  uid := e.header.uid
  gid := e.header.gid

/-- The volumes are directories with nothing below them. -/
def EmptyVolumes (root : List Text) (fs : FileSystem) : Prop :=
  ∀ v ∈ volumes, fs.isDirectory (root ++ [v]) = true ∧ ∀ s ≠ [], fs.get (root ++ v :: s) = none

/-- The file system in which the entries `past` are restored. -/
structure Restored (root : List Text) (fs : FileSystem) (past : List Entry) (fs' : FileSystem) :
    Prop where
  made : ∀ e ∈ past, fs'.get (destination root e.header.name) = some e.inode
  kept : ∀ p, (∀ e ∈ past, destination root e.header.name ≠ p) → fs'.get p = fs.get p

variable {root : List Text} {fs fs' : FileSystem} {past es : List Entry} {e : Entry} {p : List Text}

theorem isDirectory_iff :
    fs.isDirectory p = true ↔ ∃ i, fs.get p = some i ∧ i.content = .directory := by
  unfold FileSystem.isDirectory
  cases fs.get p with
  | none => exact ⟨nofun, fun ⟨_, h, _⟩ => nomatch h⟩
  | some i =>
    dsimp only
    rw [decide_eq_true_eq]
    exact ⟨fun h => ⟨i, rfl, h⟩, fun ⟨_, h, hc⟩ => Option.some.inj h ▸ hc⟩

theorem create_eq_ok {i : Inode} (hnone : fs.get p = none)
    (hdir : fs.isDirectory p.dropLast = true) : fs.create p i = .ok (fs.put p i) := by
  rw [FileSystem.create, hnone, if_neg (by exact nofun), if_pos hdir]

theorem destination_ne (hv : e.header.Valid) (hp : ∀ d ∈ past, d.header.Valid)
    (fresh : e.header.name ∉ past.map fun e => e.header.name) :
    ∀ d ∈ past, destination root d.header.name ≠ destination root e.header.name := by
  intro d hd heq
  rw [(hp d hd).destination_eq, hv.destination_eq] at heq
  have hname := parts_injective (List.append_cancel_left heq)
  exact fresh (List.mem_map.mpr ⟨d, hd, hname⟩)

theorem restoreContent_root (hv : e.header.Valid) (hroot : first e.header.name = e.header.name)
    (hdir : fs.isDirectory (destination root e.header.name) = true) :
    restoreContent fs (destination root e.header.name) e = some fs := by
  obtain ⟨i, hi, -⟩ := isDirectory_iff.mp hdir
  have hmk : fs.mkdir (destination root e.header.name) = .error .exist := by
    rw [FileSystem.mkdir, FileSystem.create, hi]
    rfl
  rw [restoreContent, if_pos (hv.root hroot), hmk]
  dsimp only
  rw [if_pos hdir]

theorem restoreContent_below (hv : e.header.Valid)
    (hlength : e.header.typeflag = .regular → (e.content.length : ℤ) = e.header.size)
    (hnone : fs.get p = none) (hdir : fs.isDirectory p.dropLast = true) :
    ∃ i, restoreContent fs p e = some (fs.put p i) ∧ i.content = e.inode.content := by
  unfold restoreContent Entry.inode
  by_cases hkind : e.header.typeflag = .directory
  · have hput : FileSystem.isDirectory (fs.put p ⟨.directory, 0o700, 0, 0⟩) p = true :=
      isDirectory_iff.mpr ⟨_, Table.get_put_self _ _ _, rfl⟩
    rw [if_pos hkind, FileSystem.mkdir, create_eq_ok hnone hdir]
    dsimp only
    rw [if_pos hput, if_pos hkind]
    exact ⟨_, rfl, rfl⟩
  · have hreg : e.header.typeflag = .regular := by
      rcases hv.kind with ⟨h, -⟩ | h
      · exact absurd h hkind
      · exact h
    rw [if_neg hkind, if_neg (by rw [hlength hreg]; omega), FileSystem.createFile,
      create_eq_ok hnone hdir]
    dsimp only
    rw [if_neg hkind]
    exact ⟨_, rfl, rfl⟩

theorem Restored.next (h : Restored root fs past fs') (hempty : EmptyVolumes root fs)
    (hp : ∀ d ∈ past, d.header.Valid) (hf : Fits past e)
    (hlength : e.header.typeflag = .regular → (e.content.length : ℤ) = e.header.size) :
    ∃ fs'', restoreEntry root fs' e = some fs'' ∧ Restored root fs (past ++ [e]) fs'' := by
  have hv := hf.valid
  have hne : ∀ d ∈ past, destination root d.header.name ≠ destination root e.header.name :=
    destination_ne hv hp hf.fresh
  have hold := h.kept _ hne
  -- whatever is made at the path of the entry, its metadata is set and the rest is kept
  have finish : ∀ fs₁ i, restoreContent fs' (destination root e.header.name) e = some fs₁ →
      fs₁.get (destination root e.header.name) = some i → i.content = e.inode.content →
      (∀ p, p ≠ destination root e.header.name → fs₁.get p = fs'.get p) →
      ∃ fs'', restoreEntry root fs' e = some fs'' ∧ Restored root fs (past ++ [e]) fs'' := by
    intro fs₁ i hcontent hi hc hother
    refine ⟨fs₁.put (destination root e.header.name)
      { i with mode := e.header.mode, uid := e.header.uid, gid := e.header.gid }, ?_, ?_, ?_⟩
    · rw [restoreEntry, if_neg (not_not.mpr hv), hcontent, Option.bind_some, FileSystem.setMeta, hi]
      rfl
    · intro d hd
      rcases List.mem_append.mp hd with hd | hd
      · rw [Table.get_put_ne (hne d hd), hother _ (hne d hd)]
        exact h.made d hd
      · obtain rfl := List.mem_singleton.mp hd
        rw [Table.get_put_self, hc]
        rfl
    · intro p hpath
      have hpe := (hpath e (List.mem_append_right _ List.mem_cons_self)).symm
      rw [Table.get_put_ne hpe, hother p hpe]
      exact h.kept p fun d hd => hpath d (List.mem_append_left _ hd)
  rcases hv.root_or_below with
    ⟨hparts, hroot, -⟩ | ⟨s, c, hs, hparts, hdir, hdot, hsparts, rest, hrest⟩
  · have hdest : destination root e.header.name = root ++ [first e.header.name] := by
      rw [hv.destination_eq, hparts]
    have hisdir : fs'.isDirectory (destination root e.header.name) = true := by
      rw [FileSystem.isDirectory, hold, hdest]
      exact (hempty _ hv.volume).1
    obtain ⟨i, hi, hc⟩ := isDirectory_iff.mp hisdir
    refine finish fs' i (restoreContent_root hv hroot hisdir) hi ?_ fun _ _ => rfl
    rw [hc, Entry.inode, if_pos (hv.root hroot)]
  · have hdest : destination root e.header.name = root ++ (s ++ [c]) := by
      rw [hv.destination_eq, hparts]
    have hnone : fs'.get (destination root e.header.name) = none := by
      rw [hold, hdest, hrest]
      exact (hempty _ hv.volume).2 (rest ++ [c]) (by simp)
    have hparent : fs'.isDirectory (destination root e.header.name).dropLast = true := by
      obtain ⟨d, hd, hkind, hname⟩ := hf.parent.resolve_left hdot
      have hdd : destination root d.header.name = (destination root e.header.name).dropLast := by
        rw [(hp d hd).destination_eq, hname, hsparts, hdest, ← List.append_assoc,
          List.dropLast_concat]
      rw [← hdd]
      refine isDirectory_iff.mpr ⟨_, h.made d hd, ?_⟩
      rw [Entry.inode, if_pos hkind]
    obtain ⟨i, hi, hc⟩ := restoreContent_below hv hlength hnone hparent
    exact finish _ i hi (Table.get_put_self _ _ _) hc fun p hne => Table.get_put_ne hne

theorem restoreEntries (ha : Accepted es) (hempty : EmptyVolumes root fs)
    (hlength : ∀ e ∈ es, e.header.typeflag = .regular →
      (e.content.length : ℤ) = e.header.size) :
    ∃ fs', es.foldlM (restoreEntry root) fs = some fs' ∧ Restored root fs es fs' := by
  induction ha with
  | nil => exact ⟨fs, rfl, nofun, fun _ _ => rfl⟩
  | snoc hpast hf ih =>
    obtain ⟨fs₁, h₁, hr⟩ := ih fun e he => hlength e (List.mem_append_left _ he)
    obtain ⟨fs₂, h₂, hr₂⟩ := hr.next hempty hpast.valid hf
      (hlength _ (List.mem_append_right _ List.mem_cons_self))
    refine ⟨fs₂, ?_, hr₂⟩
    rw [List.foldlM_append, h₁]
    exact Option.bind_eq_some_iff.mpr ⟨fs₁, rfl, Option.bind_eq_some_iff.mpr ⟨fs₂, h₂, rfl⟩⟩

theorem EmptyVolumes.isEmpty (h : EmptyVolumes root fs) : ∀ v ∈ volumes,
    fs.isDirectory (destination root v) = true ∧ fs.isEmpty (destination root v) = true := by
  intro v hv
  have hplain := volumes_plain v hv
  have hparts : parts v = [v] := List.splitOn_eq_singleton hplain.no_slash
  have hdest : destination root v = root ++ [v] := by
    rw [destination_of_plain, hparts]
    rw [hparts]
    exact List.forall_mem_singleton.mpr hplain
  rw [hdest]
  refine ⟨(h v hv).1, ?_⟩
  rw [FileSystem.isEmpty, List.all_eq_true]
  rintro ⟨q, i⟩ hq
  rw [decide_eq_true_eq]
  by_contra hcon
  obtain ⟨hne, hlast⟩ := not_or.mp hcon
  have hq' : q = root ++ v :: [q.getLast hne] := by
    have hl := List.dropLast_concat_getLast hne
    rw [not_not.mp hlast, List.append_assoc] at hl
    exact hl.symm
  have hget := Table.mem_rows.mp hq
  rw [hq', (h v hv).2 _ (List.cons_ne_nil _ _)] at hget
  cases hget

theorem Verified.restore {r : Reader} {d : Snapshot r} {m : Manifest} {tape : r.Tape}
    (h : Verified r d m tape es) (hempty : EmptyVolumes root fs) :
    ∃ fs', restore r root d fs = some fs' ∧ Restored root fs es fs' := by
  obtain ⟨fs', hfold, hr⟩ := restoreEntries h.accepted hempty (r.length_content tape es h.read)
  refine ⟨fs', ?_, hr⟩
  unfold Backup.restore
  rw [verify_iff.mpr ⟨tape, es, h⟩]
  dsimp only
  rw [if_pos hempty.isEmpty, h.file, Option.bind_some, h.read, Option.bind_some]
  exact hfold

/-- A path at or below the root of a volume, through plain components only. -/
def Inside (root p : List Text) : Prop :=
  ∃ v ∈ volumes, ∃ rest, p = root ++ v :: rest ∧ ∀ c ∈ v :: rest, Plain c

/-- Whatever archive `Verify` accepts, its entries lie inside the volumes, each path once
and behind its directory, with the roots of all volumes. Restored into empty volumes it
changes nothing else, writes over no file, and fails for no reason of its own. -/
theorem archive_contained (r : Reader) (d : Snapshot r) (m : Manifest) (hv : verify r d = some m) :
    ∃ es, (archiveFile r d).bind r.read = some es ∧ ∀ root,
      (∀ e ∈ es, Inside root (destination root e.header.name)) ∧
      (es.map fun e => destination root e.header.name).Nodup ∧
      (∀ past e post, es = past ++ e :: post →
        (∃ v ∈ volumes, destination root e.header.name = root ++ [v]) ∨
        ∃ a ∈ past, a.header.typeflag = .directory ∧
          destination root a.header.name = (destination root e.header.name).dropLast) ∧
      (∀ v ∈ volumes, ∃ e ∈ es, destination root e.header.name = root ++ [v] ∧
        e.header.typeflag = .directory) ∧
      ∀ fs, EmptyVolumes root fs → ∃ fs', restore r root d fs = some fs' ∧
        (∀ e ∈ es, fs'.get (destination root e.header.name) = some e.inode) ∧
        (∀ p, (∀ e ∈ es, destination root e.header.name ≠ p) → fs'.get p = fs.get p) ∧
        ∀ p i, fs.get p = some i → i.content ≠ .directory → fs'.get p = some i := by
  obtain ⟨tape, es, h⟩ := verify_iff.mp hv
  have hvalid := h.accepted.valid
  refine ⟨es, by rw [h.file, Option.bind_some, h.read], fun root => ⟨?_, ?_, ?_, ?_, ?_⟩⟩
  · intro e he
    obtain ⟨rest, hrest⟩ := first_eq_head e.header.name
    refine ⟨_, (hvalid e he).volume, rest, ?_, ?_⟩
    · rw [(hvalid e he).destination_eq, hrest]
    · rw [← hrest]
      exact (hvalid e he).parts_plain
  · have hnames := h.accepted.names_nodup
    refine List.Nodup.map_on ?_ hnames.of_map
    intro a ha b hb heq
    rw [(hvalid a ha).destination_eq, (hvalid b hb).destination_eq] at heq
    exact List.inj_on_of_nodup_map hnames ha hb (parts_injective (List.append_cancel_left heq))
  · rintro past e post rfl
    have hf := h.accepted.split
    rcases hf.valid.root_or_below with ⟨hparts, -⟩ | ⟨s, c, hs, hparts, -, hdot, hsparts, -⟩
    · refine .inl ⟨_, hf.valid.volume, ?_⟩
      rw [hf.valid.destination_eq, hparts]
    · obtain ⟨a, ha, hkind, hname⟩ := hf.parent.resolve_left hdot
      refine .inr ⟨a, ha, hkind, ?_⟩
      rw [(hvalid a (List.mem_append_left _ ha)).destination_eq, hname, hsparts,
        hf.valid.destination_eq, hparts, ← List.append_assoc, List.dropLast_concat]
  · intro v hv
    obtain ⟨e, he, hname⟩ := List.mem_map.mp (h.volumes v hv)
    have hparts : parts v = [v] := List.splitOn_eq_singleton (volumes_plain v hv).no_slash
    have hfirst : first v = v := by
      have hj : first (join [v]) = v := first_join (volumes_plain v hv).no_slash
      simpa [join] using hj
    refine ⟨e, he, ?_, (hvalid e he).root (by rw [hname, hfirst])⟩
    rw [(hvalid e he).destination_eq, hname, hparts]
  · intro fs hempty
    obtain ⟨fs', hrestore, hr⟩ := h.restore hempty
    refine ⟨fs', hrestore, hr.made, hr.kept, fun p i hp hfile => ?_⟩
    rw [hr.kept p, hp]
    -- at the path of an entry there was a volume or nothing
    rintro e he rfl
    obtain ⟨rest, hrest⟩ := first_eq_head e.header.name
    rw [(hvalid e he).destination_eq, hrest] at hp
    cases rest with
    | nil =>
      obtain ⟨i', hi', hc⟩ := isDirectory_iff.mp (hempty _ (hvalid e he).volume).1
      rw [hi'] at hp
      exact hfile (Option.some.inj hp ▸ hc)
    | cons c rest =>
      rw [(hempty _ (hvalid e he).volume).2 _ (List.cons_ne_nil _ _)] at hp
      cases hp

def sampleReader : Reader where
  Tape := List Entry
  size _ := 4608
  sha256 _ := "0000000000000000000000000000000000000000000000000000000000000000"
  read es :=
    if ∀ e ∈ es, e.header.typeflag = .regular → (e.content.length : ℤ) = e.header.size then some es
    else none
  length_content := by
    intro tape es h
    split at h
    · rename_i hall
      exact Option.some.inj h ▸ hall
    · cases h

def sampleEntries : List Entry :=
  volumes.map (fun v => ⟨⟨v, .directory, 0, 0o700, 0, 0, [], 0⟩, []⟩) ++
    [⟨⟨"database/log".toList, .regular, 2, 0o600, 70, 70, [], 0⟩, [1, 2]⟩]

def sampleArchive : Snapshot sampleReader where
  owned := true
  manifest := some
    ⟨⟨1, "0000000000000000000000000000000000000000000000000000000000000000", 4608, 8⟩, true⟩
  tape := some ⟨sampleEntries, true⟩

def sampleRoot : List Text := ["srv".toList]

def sampleDisk : FileSystem :=
  volumes.foldl (fun fs v => fs.put (sampleRoot ++ [v]) ⟨.directory, 0o755, 0, 0⟩)
    ((∅ : FileSystem).put (sampleRoot ++ ["notes".toList]) ⟨.file [3], 0o644, 1, 1⟩)

theorem sampleDisk_empty : EmptyVolumes sampleRoot sampleDisk := by
  have hdirectories : ∀ v ∈ volumes, sampleDisk.isDirectory (sampleRoot ++ [v]) = true := by
    decide +kernel
  have hshort : ∀ row ∈ sampleDisk.rows, row.1.length ≤ 2 := by decide +kernel
  refine fun v hv => ⟨hdirectories v hv, fun s hs => ?_⟩
  rw [Option.eq_none_iff_forall_ne_some]
  intro i hi
  have hlength := hshort _ (Table.mem_rows.mpr hi)
  have hpos := List.length_pos_of_ne_nil hs
  simp only [sampleRoot, List.length_append, List.length_cons, List.length_nil] at hlength
  omega

/-- The archive is restored beside the file, which stays as it is. -/
theorem sampleArchive_contained :
    (∀ root, ∀ e ∈ sampleEntries, Inside root (destination root e.header.name)) ∧
    ∃ fs, restore sampleReader sampleRoot sampleArchive sampleDisk = some fs ∧
      fs.get (sampleRoot ++ ["database".toList, "log".toList]) = some ⟨.file [1, 2], 0o600, 70, 70⟩ ∧
      fs.get (sampleRoot ++ ["notes".toList]) = some ⟨.file [3], 0o644, 1, 1⟩ := by
  obtain ⟨es, hes, h⟩ := archive_contained sampleReader sampleArchive
    ⟨1, "0000000000000000000000000000000000000000000000000000000000000000", 4608, 8⟩
    (by decide +kernel)
  have hread : (archiveFile sampleReader sampleArchive).bind sampleReader.read =
      some sampleEntries := by decide +kernel
  obtain rfl := Option.some.inj (hread.symm.trans hes)
  obtain ⟨-, -, -, -, hrestore⟩ := h sampleRoot
  obtain ⟨fs, hfs, hmade, -, hkept⟩ := hrestore sampleDisk sampleDisk_empty
  refine ⟨fun root => (h root).1, fs, hfs, ?_, hkept _ _ (by decide +kernel) (by decide)⟩
  have hlog := hmade _ (List.mem_append_right _ List.mem_cons_self)
  have hinode : Entry.inode ⟨⟨"database/log".toList, .regular, 2, 0o600, 70, 70, [], 0⟩, [1, 2]⟩ =
    ⟨.file [1, 2], 0o600, 70, 70⟩ := by decide
  rw [hinode] at hlog
  exact hlog

end Contained

end WaitingRoom.Backup
