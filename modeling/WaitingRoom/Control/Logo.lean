import WaitingRoom.Shared.Base64
import WaitingRoom.Trust.Snapshot

/-!
# The logo of a room

A logo is served from the signed configuration, so that its bytes are checked again
when they are read: they are a PNG file of a header, image data and an end, and of
nothing else. The loop over the chunks reads lengths that an attacker chose. A read
outside of the bytes is a panic in Go and an outcome of its own here, as is a loop
that goes on for more rounds than there are bytes. `image/png` and base64 are
parameters.
-/

namespace WaitingRoom.Control

set_option autoImplicit false

open Trust (Bytes)

structure Images where
  decodeBase64 : String → Option Bytes
  encodeBase64 : Bytes → String
  /-- `png.DecodeConfig`, with the width and the height. -/
  decodeConfig : Bytes → Option (ℤ × ℤ)
  /-- Whether `png.Decode` returns an image. -/
  decode : Bytes → Bool

inductive Stop
  | invalid | outOfBounds | stuck
deriving DecidableEq, Repr

def maxLogoBytes : Nat := 16 * 1024

def maxLogoDimension : ℤ := 256

def maxLogoPixels : ℤ := 65536

def maxLogoBase64 : Nat := (maxLogoBytes + 2) / 3 * 4

def pngSignature : Bytes := [0x89, 0x50, 0x4e, 0x47, 0x0d, 0x0a, 0x1a, 0x0a]

/-- `IHDR`. -/
def headerKind : Bytes := [0x49, 0x48, 0x44, 0x52]

/-- `IDAT`. -/
def dataKind : Bytes := [0x49, 0x44, 0x41, 0x54]

/-- `IEND`. -/
def endKind : Bytes := [0x49, 0x45, 0x4e, 0x44]

section Read

/-- `raw[i]`. -/
def byteAt (raw : Bytes) (i : Nat) : Except Stop UInt8 :=
  match raw[i]? with
  | none => .error .outOfBounds
  | some b => .ok b

/-- `raw[i:j]`. -/
def slice (raw : Bytes) (i j : Nat) : Except Stop Bytes :=
  if i ≤ j ∧ j ≤ raw.length then .ok ((raw.drop i).take (j - i)) else .error .outOfBounds

def uint32 : Bytes → Except Stop Nat
  | a :: b :: c :: d :: _ =>
    .ok (a.toNat * 16777216 + b.toNat * 65536 + c.toNat * 256 + d.toNat)
  | _ => .error .outOfBounds

/-- The body of the loop of `LogoBytes`, for the chunk at `pos`. -/
def chunkStep (raw : Bytes) (pos : Nat) (ended : Bool) : Except Stop (Nat × Bool) :=
  if raw.length - pos < 12 then .error .invalid
  else do
    let size ← uint32 (← slice raw pos (pos + 4))
    if raw.length - pos - 12 < size then .error .invalid
    else
      let next := pos + 12 + size
      let kind ← slice raw (pos + 4) (pos + 8)
      if kind = headerKind then
        if pos ≠ 8 ∨ size ≠ 13 then .error .invalid
        else if (← byteAt raw (pos + 16)) ≠ 8 then .error .invalid
        else if (← byteAt raw (pos + 17)) ≠ 2 then
          if (← byteAt raw (pos + 17)) ≠ 6 then .error .invalid else .ok (next, ended)
        else .ok (next, ended)
      else if kind = dataKind then .ok (next, ended)
      else if kind = endKind then
        if next ≠ raw.length ∨ size ≠ 0 then .error .invalid else .ok (next, true)
      else .error .invalid

/-- The loop of `LogoBytes` from `pos`, for at most `fuel` rounds. -/
def walkChunks (raw : Bytes) : Nat → Nat → Bool → Except Stop Bool
  | 0, pos, ended => if pos < raw.length then .error .stuck else .ok ended
  | fuel + 1, pos, ended =>
    if pos < raw.length then
      match chunkStep raw pos ended with
      | .error e => .error e
      | .ok (next, ended) => walkChunks raw fuel next ended
    else .ok ended

/-- `LogoBytes`. -/
def logoBytes (x : Images) (encoded : String) : Except Stop Bytes :=
  if encoded = "" then .ok []
  else if maxLogoBase64 < encoded.utf8ByteSize then .error .invalid
  else
    match x.decodeBase64 encoded with
    | none => .error .invalid
    | some raw =>
      if maxLogoBytes < raw.length ∨ x.encodeBase64 raw ≠ encoded ∨ ¬ pngSignature <+: raw then
        .error .invalid
      else
        match x.decodeConfig raw with
        | none => .error .invalid
        | some (width, height) =>
          if width < 1 ∨ height < 1 ∨ maxLogoDimension < width ∨ maxLogoDimension < height ∨
              maxLogoPixels < width * height then .error .invalid
          else
            match walkChunks raw raw.length 8 false with
            | .error e => .error e
            | .ok ended =>
              if ended = false then .error .invalid
              else if x.decode raw = false then .error .invalid
              else .ok raw

end Read

section Chunk

structure Chunk where
  size : Bytes
  kind : Bytes
  data : Bytes
  crc : Bytes
  length_size : size.length = 4
  length_kind : kind.length = 4
  length_crc : crc.length = 4
  size_eq : uint32 size = .ok data.length

def Chunk.bytes (c : Chunk) : Bytes := c.size ++ c.kind ++ c.data ++ c.crc

theorem Chunk.length_bytes (c : Chunk) : c.bytes.length = 12 + c.data.length := by
  rw [bytes, List.length_append, List.length_append, List.length_append, c.length_size,
    c.length_kind, c.length_crc]
  omega

/-- A header of 13 bytes, with bit depth 8 and colour type 2 or 6. -/
def Chunk.Header (c : Chunk) : Prop :=
  c.kind = headerKind ∧ c.data.length = 13 ∧ c.data[8]? = some 8 ∧
    (c.data[9]? = some 2 ∨ c.data[9]? = some 6)

/-- What the loop lets through at `pos` in a file of `n` bytes. -/
def Chunk.Fits (c : Chunk) (pos n : Nat) : Prop :=
  (pos = 8 ∧ c.Header) ∨ c.kind = dataKind ∨
    (c.kind = endKind ∧ c.data = [] ∧ pos + c.bytes.length = n)

variable {raw : Bytes} {pos next : Nat} {ended ended' : Bool}

theorem slice_of_le {i j : Nat} (h : i ≤ j ∧ j ≤ raw.length) :
    slice raw i j = .ok ((raw.drop i).take (j - i)) := if_pos h

theorem uint32_of_length {b : Bytes} (h : b.length = 4) : ∃ n, uint32 b = .ok n := by
  match b, h with
  | [_, _, _, _], _ => exact ⟨_, rfl⟩

theorem exists_chunk {size : Nat} (hlength : pos + 12 + size ≤ raw.length)
    (hsize : uint32 ((raw.drop pos).take 4) = .ok size) :
    ∃ c : Chunk, raw.drop pos = c.bytes ++ raw.drop (pos + 12 + size) ∧
      c.kind = (raw.drop (pos + 4)).take 4 ∧ c.data = (raw.drop (pos + 8)).take size ∧
      c.data.length = size := by
  have hdata : ((raw.drop (pos + 8)).take size).length = size := by
    rw [List.length_take, List.length_drop]
    omega
  refine ⟨⟨(raw.drop pos).take 4, (raw.drop (pos + 4)).take 4, (raw.drop (pos + 8)).take size,
    (raw.drop (pos + 8 + size)).take 4, ?_, ?_, ?_, by rw [hsize, hdata]⟩, ?_, rfl, rfl, hdata⟩
  · rw [List.length_take, List.length_drop]
    omega
  · rw [List.length_take, List.length_drop]
    omega
  · rw [List.length_take, List.length_drop]
    omega
  · have split : ∀ i n, raw.drop i = (raw.drop i).take n ++ raw.drop (i + n) := by
      intro i n
      rw [← List.drop_drop, List.take_append_drop]
    have h₁ : raw.drop pos = (raw.drop pos).take 4 ++ raw.drop (pos + 4) := split pos 4
    have h₂ : raw.drop (pos + 4) = (raw.drop (pos + 4)).take 4 ++ raw.drop (pos + 8) :=
      split (pos + 4) 4
    have h₃ : raw.drop (pos + 8) = (raw.drop (pos + 8)).take size ++ raw.drop (pos + 8 + size) :=
      split (pos + 8) size
    have h₄ : raw.drop (pos + 8 + size) = (raw.drop (pos + 8 + size)).take 4 ++
        raw.drop (pos + 12 + size) := by
      have h := split (pos + 8 + size) 4
      rwa [show pos + 8 + size + 4 = pos + 12 + size by omega] at h
    rw [Chunk.bytes, List.append_assoc, List.append_assoc, List.append_assoc]
    exact h₁.trans (congrArg _ (h₂.trans (congrArg _ (h₃.trans (congrArg _ h₄)))))

theorem byteAt_of_data {data : Bytes} {size i : Nat} (hdata : data = (raw.drop (pos + 8)).take size)
    (hlength : data.length = size) (hi : i < size) :
    ∃ b, byteAt raw (pos + 8 + i) = .ok b ∧ data[i]? = some b := by
  have hget : raw[pos + 8 + i]? = data[i]? := by
    rw [hdata, List.getElem?_take_of_lt hi, List.getElem?_drop]
  have hin : i < data.length := by omega
  refine ⟨data[i], ?_, List.getElem?_eq_getElem hin⟩
  rw [byteAt, hget, List.getElem?_eq_getElem hin]

theorem chunkStep_cases (raw : Bytes) (pos : Nat) (ended : Bool) :
    chunkStep raw pos ended = .error .invalid ∨
    ∃ c : Chunk, raw.drop pos = c.bytes ++ raw.drop (pos + c.bytes.length) ∧
      pos + c.bytes.length ≤ raw.length ∧ c.kind = (raw.drop (pos + 4)).take 4 ∧
      c.Fits pos raw.length ∧
      chunkStep raw pos ended =
        .ok (pos + c.bytes.length, ended || decide (c.kind = endKind)) := by
  by_cases hshort : raw.length - pos < 12
  · left
    rw [chunkStep, if_pos hshort]
  have htake : ((raw.drop pos).take 4).length = 4 := by
    rw [List.length_take, List.length_drop]
    omega
  obtain ⟨size, hsize⟩ := uint32_of_length htake
  have hfirst : slice raw pos (pos + 4) = .ok ((raw.drop pos).take 4) := by
    rw [slice_of_le ⟨by omega, by omega⟩, Nat.add_sub_cancel_left]
  have hsecond : slice raw (pos + 4) (pos + 8) = .ok ((raw.drop (pos + 4)).take 4) := by
    rw [slice_of_le ⟨by omega, by omega⟩, show pos + 8 - (pos + 4) = 4 by omega]
  unfold chunkStep
  rw [if_neg hshort, hfirst]
  simp only [bind, Except.bind, hsize, hsecond]
  by_cases hlong : raw.length - pos - 12 < size
  · left
    rw [if_pos hlong]
  rw [if_neg hlong]
  obtain ⟨c, hdrop, hkind, hdata, hlength⟩ := exists_chunk (by omega) hsize
  have hbytes : pos + c.bytes.length = pos + 12 + size := by
    rw [c.length_bytes]
    omega
  rw [← hkind]
  -- what remains is the case split on the kind
  have goOn : ∀ b, c.Fits pos raw.length → b = (ended || decide (c.kind = endKind)) →
      ∃ d : Chunk, raw.drop pos = d.bytes ++ raw.drop (pos + d.bytes.length) ∧
        pos + d.bytes.length ≤ raw.length ∧ d.kind = c.kind ∧ d.Fits pos raw.length ∧
        (.ok (pos + 12 + size, b) : Except Stop (Nat × Bool)) =
          .ok (pos + d.bytes.length, ended || decide (d.kind = endKind)) := by
    intro b hfits hb
    exact ⟨c, by rw [hbytes]; exact hdrop, by omega, rfl, hfits, by rw [hbytes, hb]⟩
  by_cases hheader : c.kind = headerKind
  · have hne : decide (c.kind = endKind) = false := by
      rw [hheader]
      decide
    rw [if_pos hheader]
    by_cases hplace : pos ≠ 8 ∨ size ≠ 13
    · left
      rw [if_pos hplace]
    push Not at hplace
    obtain ⟨depth, hdepth, hdepthAt⟩ := byteAt_of_data (i := 8) hdata hlength (by omega)
    obtain ⟨colour, hcolour, hcolourAt⟩ := byteAt_of_data (i := 9) hdata hlength (by omega)
    rw [if_neg (by push Not; exact hplace)]
    simp only [show pos + 16 = pos + 8 + 8 by omega, show pos + 17 = pos + 8 + 9 by omega, hdepth,
      hcolour]
    by_cases h₈ : depth = 8
    · subst h₈
      have hfits : colour = 2 ∨ colour = 6 → c.Fits pos raw.length := by
        intro hc
        refine .inl ⟨hplace.1, hheader, by omega, hdepthAt, ?_⟩
        rw [hcolourAt]
        rcases hc with rfl | rfl
        · exact .inl rfl
        · exact .inr rfl
      rw [if_neg (not_not.mpr rfl)]
      by_cases h₂ : colour = 2
      · rw [if_neg (not_not.mpr h₂)]
        exact .inr (goOn ended (hfits (.inl h₂)) (by rw [hne, Bool.or_false]))
      · rw [if_pos h₂]
        by_cases h₆ : colour = 6
        · rw [if_neg (not_not.mpr h₆)]
          exact .inr (goOn ended (hfits (.inr h₆)) (by rw [hne, Bool.or_false]))
        · left
          rw [if_pos h₆]
    · left
      rw [if_pos h₈]
  rw [if_neg hheader]
  by_cases hidat : c.kind = dataKind
  · have hne : decide (c.kind = endKind) = false := by
      rw [hidat]
      decide
    rw [if_pos hidat]
    exact .inr (goOn ended (.inr (.inl hidat)) (by rw [hne, Bool.or_false]))
  rw [if_neg hidat]
  by_cases hend : c.kind = endKind
  · rw [if_pos hend]
    by_cases hplace : pos + 12 + size ≠ raw.length ∨ size ≠ 0
    · left
      rw [if_pos hplace]
    push Not at hplace
    rw [if_neg (by push Not; exact hplace)]
    have hnil : c.data = [] := List.eq_nil_of_length_eq_zero (by omega)
    exact .inr (goOn true (.inr (.inr ⟨hend, hnil, by omega⟩))
      (by rw [decide_eq_true hend, Bool.or_true]))
  · left
    rw [if_neg hend]

theorem walkChunks_body {fuel : Nat} (hpos : 8 < pos)
    (h : walkChunks raw fuel pos false = .ok true) :
    ∃ (body : List Chunk) (trailer : Chunk),
      raw.drop pos = body.flatMap Chunk.bytes ++ trailer.bytes ∧ (∀ c ∈ body, c.kind = dataKind) ∧
        trailer.kind = endKind ∧ trailer.data = [] := by
  induction fuel generalizing pos with
  | zero =>
    rw [walkChunks] at h
    split at h <;> cases h
  | succ fuel ih =>
    rw [walkChunks] at h
    split at h
    swap
    · cases h
    rcases chunkStep_cases raw pos false with hbad | ⟨c, hdrop, hle, -, hfits, hstep⟩
    · rw [hbad] at h
      cases h
    rw [hstep] at h
    dsimp only at h
    rw [Bool.false_or] at h
    rcases hfits with ⟨rfl, -⟩ | hidat | ⟨hend, hnil, hlast⟩
    · exact absurd hpos (lt_irrefl 8)
    · have hne : decide (c.kind = endKind) = false := by
        rw [hidat]
        decide
      rw [hne] at h
      obtain ⟨body, trailer, hrest, hbody, htrailer⟩ := ih (by omega) h
      refine ⟨c :: body, trailer, ?_, List.forall_mem_cons.mpr ⟨hidat, hbody⟩, htrailer⟩
      rw [hdrop, hrest, List.flatMap_cons, List.append_assoc]
    · refine ⟨[], c, ?_, fun c hc => absurd hc List.not_mem_nil, hend, hnil⟩
      rw [hdrop, hlast, List.drop_length, List.append_nil]
      rfl

theorem walkChunks_safe {fuel : Nat} (hfuel : raw.length - pos ≤ fuel) (e : Stop)
    (h : walkChunks raw fuel pos ended = .error e) : e = .invalid := by
  induction fuel generalizing pos ended with
  | zero =>
    rw [walkChunks, if_neg (by omega)] at h
    cases h
  | succ fuel ih =>
    rw [walkChunks] at h
    split at h
    swap
    · cases h
    rcases chunkStep_cases raw pos ended with hbad | ⟨c, -, -, -, -, hstep⟩
    · rw [hbad] at h
      exact (Except.error.inj h).symm
    · rw [hstep] at h
      have hbytes := c.length_bytes
      exact ih (by omega) h

end Chunk

section Logo

/-- `png.DecodeConfig` refuses image data, and an end, before the header. It may pass over
other chunks. -/
def Images.HeaderFirst (x : Images) : Prop :=
  ∀ raw size, x.decodeConfig raw = some size →
    (raw.drop 12).take 4 ≠ dataKind ∧ (raw.drop 12).take 4 ≠ endKind

theorem logoBytes_eq_ok {x : Images} {encoded : String} {raw : Bytes} (hne : encoded ≠ "")
    (h : logoBytes x encoded = .ok raw) :
    pngSignature <+: raw ∧ (∃ size, x.decodeConfig raw = some size) ∧
      walkChunks raw raw.length 8 false = .ok true := by
  unfold logoBytes at h
  rw [if_neg hne] at h
  split at h
  · cases h
  split at h
  · cases h
  split at h
  · cases h
  rename_i hguard
  push Not at hguard
  split at h
  · cases h
  rename_i width height hconfig
  split at h
  · cases h
  split at h
  · cases h
  rename_i ended hwalk
  split at h
  · cases h
  rename_i hended
  split at h
  · cases h
  obtain rfl := Except.ok.inj h
  rw [Bool.not_eq_false] at hended
  rw [hended] at hwalk
  exact ⟨hguard.2.2, ⟨_, hconfig⟩, hwalk⟩

/-- The walk over the chunks of a logo reads inside its bytes and goes forward, and a
logo that is served is a header, image data and an end. -/
theorem logo_chunks {x : Images} (hx : x.HeaderFirst) :
    (∀ raw pos ended fuel e, raw.length - pos ≤ fuel →
      walkChunks raw fuel pos ended = .error e → e = .invalid) ∧
    (∀ raw pos ended next ended', chunkStep raw pos ended = .ok (next, ended') →
      pos < next ∧ next ≤ raw.length) ∧
    ∀ encoded raw, encoded ≠ "" → logoBytes x encoded = .ok raw →
      ∃ (header : Chunk) (body : List Chunk) (trailer : Chunk),
        raw = pngSignature ++ header.bytes ++ body.flatMap Chunk.bytes ++ trailer.bytes ∧
          header.Header ∧ (∀ c ∈ body, c.kind = dataKind) ∧ trailer.kind = endKind ∧
          trailer.data = [] := by
  refine ⟨fun raw pos ended fuel e hfuel h => walkChunks_safe hfuel e h, ?_, ?_⟩
  · intro raw pos ended next ended' h
    rcases chunkStep_cases raw pos ended with hbad | ⟨c, -, hle, -, -, hstep⟩
    · rw [hbad] at h
      cases h
    · rw [hstep] at h
      obtain ⟨rfl, -⟩ := Prod.mk.inj (Except.ok.inj h)
      have hbytes := c.length_bytes
      omega
  · intro encoded raw hne h
    obtain ⟨⟨rest, hsignature⟩, ⟨size, hconfig⟩, hwalk⟩ := logoBytes_eq_ok hne h
    obtain ⟨hdata, hend⟩ := hx raw size hconfig
    have hdrop : raw.drop 8 = rest := by
      rw [← hsignature]
      rfl
    cases hfuel : raw.length with
    | zero =>
      rw [hfuel, walkChunks] at hwalk
      split at hwalk <;> cases hwalk
    | succ fuel =>
      rw [hfuel, walkChunks] at hwalk
      split at hwalk
      swap
      · cases hwalk
      rcases chunkStep_cases raw 8 false with hbad | ⟨c, hchunk, hle, hkind, hfits, hstep⟩
      · rw [hbad] at hwalk
        cases hwalk
      rcases hfits with ⟨-, hheader⟩ | hidat | ⟨hlast, -⟩
      · have hbytes := c.length_bytes
        rw [hstep, hheader.1] at hwalk
        obtain ⟨body, trailer, hbody, hall, htrailer⟩ := walkChunks_body (by omega) hwalk
        refine ⟨c, body, trailer, ?_, hheader, hall, htrailer⟩
        rw [hbody, hdrop] at hchunk
        rw [← hsignature, hchunk]
        simp only [List.append_assoc]
      · exact absurd (hkind.symm.trans hidat) hdata
      · exact absurd (hkind.symm.trans hlast) hend

def samplePng : Bytes :=
  pngSignature ++
    ([0, 0, 0, 13] ++ headerKind ++ [0, 0, 0, 1, 0, 0, 0, 1, 8, 2, 0, 0, 0] ++ [144, 119, 83, 222]) ++
    ([0, 0, 0, 12] ++ dataKind ++ [120, 218, 99, 96, 96, 96, 0, 0, 0, 4, 0, 1] ++
      [200, 234, 235, 249]) ++
    ([0, 0, 0, 0] ++ endKind ++ [174, 66, 96, 130])

def samplePixel : String :=
  "iVBORw0KGgoAAAANSUhEUgAAAAEAAAABCAIAAACQd1PeAAAADElEQVR42mNgYGAAAAAEAAHI6uv5AAAAAElFTkSuQmCC"

def sampleImages : Images where
  decodeBase64 := fun encoded => Base64.decode encoded.toList
  encodeBase64 := fun raw => String.ofList (Base64.encode raw)
  decodeConfig := fun raw =>
    match uint32 (raw.drop 16), uint32 (raw.drop 20) with
    | .ok width, .ok height =>
      if (raw.drop 12).take 4 = headerKind then some (width, height) else none
    | _, _ => none
  decode := fun raw => decide (raw = samplePng)

theorem sampleImages_headerFirst : sampleImages.HeaderFirst := by
  intro raw size h
  have hkind : (raw.drop 12).take 4 = headerKind := by
    unfold sampleImages at h
    dsimp only at h
    split at h
    · split at h
      · assumption
      · cases h
    · cases h
  rw [hkind]
  decide

theorem samplePng_chunks : logoBytes sampleImages samplePixel = .ok samplePng ∧
    ∃ (header : Chunk) (body : List Chunk) (trailer : Chunk),
      samplePng = pngSignature ++ header.bytes ++ body.flatMap Chunk.bytes ++ trailer.bytes ∧
        header.Header ∧ (∀ c ∈ body, c.kind = dataKind) ∧ trailer.kind = endKind ∧
        trailer.data = [] := by
  have haccepted : logoBytes sampleImages samplePixel = .ok samplePng := by decide +kernel
  exact ⟨haccepted, (logo_chunks sampleImages_headerFirst).2.2 samplePixel samplePng (by decide)
    haccepted⟩

end Logo

end WaitingRoom.Control
