import PngDecode.Libpng.Header
import PngDecode.Libpng.Push

/-! # The chunks of a file

A file is the signature and a row of chunks, as `png_write_complete_chunk` writes them, except
that the CRC of an ancillary chunk may be wrong. -/

namespace PngDecode.Libpng
open PngDecode.Lib

/-! ## Numbers -/

def pngSaveUint32 (i : UInt32) : List UInt8 :=
  [(i >>> 24).toUInt8, (i >>> 16).toUInt8, (i >>> 8).toUInt8, i.toUInt8]

@[simp] theorem pngSaveUint32_length (i : UInt32) : (pngSaveUint32 i).length = 4 := rfl

@[simp] theorem pngGetUint32_save (i : UInt32) (b : List UInt8) :
    pngGetUint32 (pngSaveUint32 i ++ b) = i := by
  apply UInt32.eq_of_toBitVec_eq
  ext k inside
  simp [pngGetUint32, pngSaveUint32, pngU32, -UInt32.toUInt32_toUInt8]
  grind

theorem pngSaveUint32_get {b : List UInt8} (four : b.length = 4) :
    pngSaveUint32 (pngGetUint32 b) = b := by
  obtain ⟨b1, b2, b3, b4, rfl⟩ : ∃ b1 b2 b3 b4, b = [b1, b2, b3, b4] := by
    match b, four with
    | [b1, b2, b3, b4], _ => exact ⟨b1, b2, b3, b4, rfl⟩
  simp only [pngSaveUint32, List.cons.injEq, and_true]
  refine ⟨?_, ?_, ?_, ?_⟩
  all_goals
    apply UInt8.eq_of_toBitVec_eq
    ext k inside
    simp [pngGetUint32, pngU32] <;> grind

theorem pngSaveUint32_inj {i j : UInt32} {b c : List UInt8}
    (same : pngSaveUint32 i ++ b = pngSaveUint32 j ++ c) : i = j ∧ b = c := by
  refine ⟨?_, (List.append_inj same rfl).2⟩
  rw [← pngGetUint32_save i b, same, pngGetUint32_save]

/-! ## Chunks -/

def pngWriteCompleteChunk (chunkName : UInt32) (data : List UInt8) : Except Jump (List UInt8) :=
  if data.length > 0x7fffffff then .error (.pngError none "length exceeds PNG maximum")
  else
    let crc := Zlib.crc32 0 (pngSaveUint32 chunkName)
    let crc := if data.length > 0 then Zlib.crc32 crc data else crc
    .ok (pngSaveUint32 (UInt32.ofNat data.length) ++ pngSaveUint32 chunkName ++ data ++
      pngSaveUint32 crc)

structure FileChunk where
  name : UInt32
  data : List UInt8
  crc : UInt32
  small : data.length ≤ 0x7fffffff

namespace FileChunk

def bytes (c : FileChunk) : List UInt8 :=
  pngSaveUint32 (UInt32.ofNat c.data.length) ++ pngSaveUint32 c.name ++ c.data ++
    pngSaveUint32 c.crc

def checksum (c : FileChunk) : UInt32 := Zlib.crc32 (Zlib.crc32 0 (pngSaveUint32 c.name)) c.data

def chunk (c : FileChunk) : Chunk := ⟨c.name, c.data, c.crc ≠ c.checksum⟩

/-- A chunk with the right CRC is one that libpng writes itself. -/
theorem bytes_write {c : FileChunk} (right : c.crc = c.checksum) :
    pngWriteCompleteChunk c.name c.data = .ok c.bytes := by
  have fits : ¬ c.data.length > 0x7fffffff := Nat.not_lt.mpr c.small
  unfold pngWriteCompleteChunk bytes
  rw [if_neg fits, right]
  dsimp only
  split
  · rfl
  · next none =>
    have empty : c.data = [] := List.length_eq_zero_iff.mp (by omega)
    rw [checksum, empty, Zlib.crc32_nil]

theorem of_bytes {p t : List UInt8} (eight : p.length = 8)
    (good : ¬ (pngGetUint32 p).toNat > 0x7fffffff)
    (long : t.length = (pngGetUint32 p).toNat + 4) :
    ∃ c : FileChunk, p ++ t = c.bytes ∧ c.name = pngGetUint32 (p.drop 4) ∧
      pngSaveUint32 c.name = p.drop 4 ∧ c.data = t.take (pngGetUint32 p).toNat ∧
      c.crc = pngGetUint32 (t.drop (pngGetUint32 p).toNat) := by
  have name : (p.drop 4).length = 4 := by rw [List.length_drop]; omega
  have crc : (t.drop (pngGetUint32 p).toNat).length = 4 := by rw [List.length_drop]; omega
  have data : (t.take (pngGetUint32 p).toNat).length = (pngGetUint32 p).toNat := by
    rw [List.length_take]; omega
  refine ⟨⟨pngGetUint32 (p.drop 4), _, pngGetUint32 (t.drop (pngGetUint32 p).toNat),
    by rw [data]; omega⟩, ?_, rfl, pngSaveUint32_get name, rfl, rfl⟩
  have first : pngSaveUint32 (pngGetUint32 p) = p.take 4 := by
    rw [← pngGetUint32_take (Nat.le_refl 4)]
    exact pngSaveUint32_get (by rw [List.length_take]; omega)
  unfold bytes
  dsimp only
  rw [data, UInt32.ofNat_toNat, first, pngSaveUint32_get name, pngSaveUint32_get crc,
    List.take_append_drop, List.append_assoc, List.take_append_drop]

theorem bytes_inj {c d : FileChunk} {t u : List UInt8} (same : c.bytes ++ t = d.bytes ++ u) :
    c = d ∧ t = u := by
  obtain ⟨cname, cdata, ccrc, csmall⟩ := c
  obtain ⟨dname, ddata, dcrc, dsmall⟩ := d
  unfold bytes at same
  simp only [List.append_assoc] at same
  obtain ⟨lengths, named⟩ := pngSaveUint32_inj same
  obtain ⟨rfl, framed⟩ := pngSaveUint32_inj named
  have long : cdata.length = ddata.length := by
    have := congrArg UInt32.toNat lengths
    rwa [UInt32.toNat_ofNat_of_lt' (by unfold UInt32.size; omega),
      UInt32.toNat_ofNat_of_lt' (by unfold UInt32.size; omega)] at this
  obtain ⟨rfl, summed⟩ := List.append_inj framed long
  obtain ⟨rfl, rest⟩ := pngSaveUint32_inj summed
  exact ⟨rfl, rest⟩

theorem prefix_or {cs ds : List FileChunk} {x : List UInt8} (first : cs.flatMap bytes <+: x)
    (second : ds.flatMap bytes <+: x) : cs <+: ds ∨ ds <+: cs := by
  induction cs generalizing ds x with
  | nil => exact .inl List.nil_prefix
  | cons c cs ih =>
    cases ds with
    | nil => exact .inr List.nil_prefix
    | cons d ds =>
      rw [List.flatMap_cons] at first second
      obtain ⟨t, rfl⟩ := first
      obtain ⟨u, same⟩ := second
      rw [List.append_assoc, List.append_assoc] at same
      obtain ⟨rfl, rest⟩ := bytes_inj same
      rcases ih (List.prefix_append _ t) ⟨u, rest⟩ with front | front
      · exact .inl (List.cons_prefix_cons.mpr ⟨rfl, front⟩)
      · exact .inr (List.cons_prefix_cons.mpr ⟨rfl, front⟩)

end FileChunk

/-! ## What a handler lets through -/

section Accepted
variable {h h' : Header} {c : Chunk}

def criticalChunks : List UInt32 := [chunkIHDR, chunkPLTE, chunkIDAT, chunkIEND]

theorem crcFinish_critical {α : Type} {f : Bool → Except Jump α} {b : α}
    (result : (pngCrcFinish c >>= f) = .ok b) (critical : ancillary c.name = false) :
    c.crcError = false := by
  obtain ⟨crc, finished, -⟩ := bind_ok result
  unfold pngCrcFinish at finished
  rw [critical] at finished
  split at finished
  · cases finished
  · next right => simpa using right

structure Describes (data : List UInt8) (h : Header) : Prop where
  width : h.width = (pngGetUint32 data).toNat
  height : h.height = (pngGetUint32 (data.drop 4)).toNat
  bitDepth : h.bitDepth = (data.getD 8 0).toNat
  colorType : h.colorType = (data.getD 9 0).toNat
  interlaced : h.interlaced = (data.getD 12 0).toNat

theorem pngGetUint31_ok {b : List UInt8} {n : Nat} (result : pngGetUint31 b = .ok n) :
    n = (pngGetUint32 b).toNat := by
  unfold pngGetUint31 at result
  split at result
  · cases result
  · exact (Except.ok.inj result).symm

theorem pngHandleIHDR_describes (fresh : h.mode.havePLTE = false)
    (result : pngHandleIHDR h c = .ok h') :
    c.data.length = 13 ∧ h'.mode.haveIHDR = true ∧ h'.mode.havePLTE = false ∧
      Describes c.data h' := by
  unfold pngHandleIHDR at result
  split at result
  · cases result
  split at result
  · cases result
  next length =>
  have result := crcFinish_const result
  obtain ⟨width, first, result⟩ := bind_ok result
  obtain ⟨height, second, result⟩ := bind_ok result
  dsimp only at result
  split at result
  · cases result
    exact ⟨by simpa using length, rfl, fresh, pngGetUint31_ok first, pngGetUint31_ok second, rfl,
      rfl, rfl⟩
  · cases result

theorem pngHandleColor_present {length : Nat} (result : pngHandleColor length h c = .ok h') :
    h.mode.haveIHDR = true := by
  unfold pngHandleColor at result
  split at result
  · cases result
  · next ihdr => simpa using ihdr

/-- In front of the `IHDR` chunk only unknown ancillary chunks are let through. -/
theorem pngHandleChunk_early (none : h.mode.haveIHDR = false) (cache : h.userChunkCacheMax = 128)
    (result : pngHandleChunk h c = .ok h') :
    (c.name = chunkIHDR ∧ pngHandleIHDR h c = .ok h') ∨ (ancillary c.name = true ∧ h' = h) := by
  cases pngHandleChunk_handled result with
  | ihdr name result => exact .inl ⟨name, result⟩
  | iend _ result =>
    unfold pngHandleIEND at result
    rw [if_pos (by simp [none])] at result
    cases result
  | plte _ result =>
    unfold pngHandlePLTE at result
    rw [if_pos (by simp [none])] at result
    cases result
  | color length _ result => cases none.symm.trans (pngHandleColor_present result)
  | iccp _ result =>
    unfold pngHandleICCP at result
    rw [if_pos (by simp [none])] at result
    cases result
  | trns _ result =>
    unfold pngHandleTRNS at result
    dsimp only at result
    rw [if_pos (by simp [none])] at result
    cases result
  | text _ result =>
    unfold pngHandleText at result
    rw [if_neg (by omega), if_neg (by omega), if_pos (by rw [none]; rfl)] at result
    cases result
  | unknown _ _ result =>
    unfold pngHandleUnknown at result
    have result := crcFinish_const result
    split at result
    · next extra => exact .inr ⟨extra, (Except.ok.inj result).symm⟩
    · cases result

structure Keeps (c : Chunk) (h h' : Header) : Prop where
  ihdr : h'.mode.haveIHDR = h.mode.haveIHDR
  plte : h'.mode.havePLTE = true → h.mode.havePLTE = true ∨ c.name = chunkPLTE
  afterIDAT : h.mode.afterIDAT = true → h'.mode.afterIDAT = true
  describes : ∀ data, Describes data h → Describes data h'

theorem Keeps.refl (c : Chunk) (h : Header) : Keeps c h h := ⟨rfl, .inl, id, fun _ => id⟩

theorem pngHandlePLTE_keepsHeader (name : c.name = chunkPLTE) (result : pngHandlePLTE h c = .ok h') :
    Keeps c h h' := by
  unfold pngHandlePLTE at result
  split at result
  · cases result
  split at result
  · cases result
  split at result
  · cases crcFinish_const result
    exact .refl c h
  split at result
  · cases crcFinish_const result
    exact ⟨rfl, fun _ => .inr name, id, fun _ ⟨w, t, d, k, i⟩ => ⟨w, t, d, k, i⟩⟩
  split at result
  · cases crcFinish_const result
    exact ⟨rfl, fun _ => .inr name, id, fun _ ⟨w, t, d, k, i⟩ => ⟨w, t, d, k, i⟩⟩
  split at result
  · cases crcFinish_const result
  have result := crcFinish_const result
  split at result
  · cases result
  dsimp only at result
  split at result <;> cases result <;>
    exact ⟨rfl, fun _ => .inr name, id, fun _ ⟨w, t, d, k, i⟩ => ⟨w, t, d, k, i⟩⟩

theorem pngHandleTRNS_keepsHeader (result : pngHandleTRNS h c = .ok h') : Keeps c h h' := by
  have set (h₀ : Header) (same : Keeps c h h₀) (transAlpha : List UInt8)
      (result : pngSetTRNS h₀ c transAlpha = .ok h') : Keeps c h h' := by
    unfold pngSetTRNS at result
    obtain ⟨-, result⟩ | ⟨-, result⟩ := crcFinish_ok result <;> cases result
    · exact ⟨same.ihdr, same.plte, same.afterIDAT,
        fun _ image => let ⟨w, t, d, k, i⟩ := same.describes _ image; ⟨w, t, d, k, i⟩⟩
    · exact ⟨same.ihdr, same.plte, same.afterIDAT,
        fun _ image => let ⟨w, t, d, k, i⟩ := same.describes _ image; ⟨w, t, d, k, i⟩⟩
  have trans (numTrans : Nat) (transColor : PngColor16) :
      Keeps c h { h with numTrans, transColor } :=
    ⟨rfl, .inl, id, fun _ ⟨w, t, d, k, i⟩ => ⟨w, t, d, k, i⟩⟩
  unfold pngHandleTRNS at result
  dsimp only at result
  (repeat' split at result) <;>
    first
    | cases result
    | cases crcFinish_const result; exact .refl c h
    | exact set _ (trans _ _) _ result

theorem pngHandleColor_keepsHeader {length : Nat} (result : pngHandleColor length h c = .ok h') :
    Keeps c h h' := by
  unfold pngHandleColor at result
  split at result
  · cases result
  split at result
  · cases crcFinish_const result; exact .refl c h
  split at result
  · cases crcFinish_const result; exact .refl c h
  obtain ⟨-, result⟩ | ⟨-, result⟩ := crcFinish_ok result <;> cases result
  · exact .refl c h
  · exact ⟨rfl, .inl, id, fun _ ⟨w, t, d, k, i⟩ => ⟨w, t, d, k, i⟩⟩

theorem pngHandleText_keepsHeader (result : pngHandleText h c = .ok h') : Keeps c h h' := by
  unfold pngHandleText at result
  split at result
  · cases crcFinish_const result; exact .refl c h
  split at result
  · cases crcFinish_const result
    exact ⟨rfl, .inl, id, fun _ ⟨w, t, d, k, i⟩ => ⟨w, t, d, k, i⟩⟩
  split at result
  · cases result
  cases crcFinish_const result
  exact ⟨rfl, .inl, fun after => by simp [after], fun _ ⟨w, t, d, k, i⟩ => ⟨w, t, d, k, i⟩⟩

theorem notIHDR_of_ancillary (extra : ancillary c.name = true) : c.name ≠ chunkIHDR := by
  intro name
  rw [name] at extra
  cases extra

theorem pngHandleChunk_keepsHeader (ihdr : h.mode.haveIHDR = true)
    (result : pngHandleChunk h c = .ok h') : c.name ≠ chunkIHDR ∧ Keeps c h h' := by
  cases pngHandleChunk_handled result with
  | ihdr _ result =>
    unfold pngHandleIHDR at result
    rw [if_pos ihdr] at result
    cases result
  | iend name result =>
    refine ⟨by rw [name]; decide, ?_⟩
    unfold pngHandleIEND at result
    split at result
    · cases result
    cases crcFinish_const result
    exact ⟨rfl, .inl, fun _ => rfl, fun _ ⟨w, t, d, k, i⟩ => ⟨w, t, d, k, i⟩⟩
  | plte name result => exact ⟨by rw [name]; decide, pngHandlePLTE_keepsHeader name result⟩
  | color length extra result =>
    exact ⟨notIHDR_of_ancillary extra, pngHandleColor_keepsHeader result⟩
  | iccp extra result =>
    refine ⟨notIHDR_of_ancillary extra, ?_⟩
    unfold pngHandleICCP at result
    split at result
    · cases result
    split at result
    · cases crcFinish_const result; exact .refl c h
    split at result
    · cases crcFinish_const result; exact .refl c h
    cases crcFinish_const result
    exact ⟨rfl, .inl, id, fun _ ⟨w, t, d, k, i⟩ => ⟨w, t, d, k, i⟩⟩
  | trns extra result => exact ⟨notIHDR_of_ancillary extra, pngHandleTRNS_keepsHeader result⟩
  | text extra result => exact ⟨notIHDR_of_ancillary extra, pngHandleText_keepsHeader result⟩
  | unknown notIHDR _ result =>
    refine ⟨notIHDR, ?_⟩
    unfold pngHandleUnknown at result
    have result := crcFinish_const result
    split at result
    · cases result; exact .refl c h
    · cases result

theorem pngHandleChunk_critical (result : pngHandleChunk h c = .ok h')
    (critical : ancillary c.name = false) : c.crcError = false ∧ c.name ∈ criticalChunks := by
  cases pngHandleChunk_handled result with
  | ihdr name result =>
    refine ⟨?_, by simp [criticalChunks, name]⟩
    unfold pngHandleIHDR at result
    (repeat' split at result) <;> first | cases result | exact crcFinish_critical result critical
  | iend name result =>
    refine ⟨?_, by simp [criticalChunks, name]⟩
    unfold pngHandleIEND at result
    split at result
    · cases result
    · exact crcFinish_critical result critical
  | plte name result =>
    refine ⟨?_, by simp [criticalChunks, name]⟩
    unfold pngHandlePLTE at result
    (repeat' split at result) <;> first | cases result | exact crcFinish_critical result critical
  | color _ extra | iccp extra | trns extra | text extra => cases critical.symm.trans extra
  | unknown _ _ result =>
    unfold pngHandleUnknown at result
    have result := crcFinish_const result
    rw [critical, if_neg Bool.false_ne_true] at result
    cases result

end Accepted

/-! ## Files -/

/-- A critical chunk that the reader knows and whose CRC is right, or an ancillary chunk. -/
def FileChunk.Fine (c : FileChunk) : Prop :=
  ancillary c.name = false → c.crc = c.checksum ∧ c.name ∈ criticalChunks

def Ordinary (name : UInt32) : Prop := name ≠ chunkIHDR ∧ name ≠ chunkIDAT ∧ name ≠ chunkIEND

structure FileHeader where
  early : List FileChunk
  ihdr : FileChunk
  header : List FileChunk
  earlyNames : ∀ c ∈ early, ancillary c.name = true
  ihdrName : ihdr.name = chunkIHDR
  ihdrLength : ihdr.data.length = 13
  headerNames : ∀ c ∈ header, Ordinary c.name

def FileHeader.chunks (f : FileHeader) : List FileChunk := f.early ++ f.ihdr :: f.header

def FileHeader.HasPLTE (f : FileHeader) : Prop := ∃ c ∈ f.header, c.name = chunkPLTE

def fileBytes (cs : List FileChunk) : List UInt8 := pngSignature ++ cs.flatMap FileChunk.bytes

theorem fileBytes_snoc (cs : List FileChunk) (c : FileChunk) :
    fileBytes (cs ++ [c]) = fileBytes cs ++ c.bytes := by
  simp [fileBytes]

structure PngFile extends FileHeader where
  palette : ihdr.data.getD 9 0 = 3 → toFileHeader.HasPLTE
  image : List FileChunk
  trailer : List FileChunk
  iend : FileChunk
  imageSome : image ≠ []
  imageNames : ∀ c ∈ image, c.name = chunkIDAT
  trailerNames : ∀ c ∈ trailer, Ordinary c.name
  iendName : iend.name = chunkIEND

namespace PngFile

def chunks (f : PngFile) : List FileChunk :=
  f.toFileHeader.chunks ++ f.image ++ f.trailer ++ [f.iend]

def bytes (f : PngFile) : List UInt8 := fileBytes f.chunks

/-- What the `IDAT` chunks hold, which is one zlib stream. -/
def imageData (f : PngFile) : List UInt8 := f.image.flatMap FileChunk.data

/-! ## The file in front of some bytes -/

variable {f g : PngFile} {x : List UInt8}

def body (f : PngFile) : List FileChunk := f.toFileHeader.chunks ++ f.image ++ f.trailer

theorem body_names (f : PngFile) : ∀ c ∈ f.body, c.name ≠ chunkIEND := by
  intro c member
  simp only [body, FileHeader.chunks, List.mem_append, List.mem_cons] at member
  rcases member with ((early | rfl | header) | image) | trailer
  · exact fun name => by have := f.earlyNames c early; rw [name] at this; cases this
  · rw [f.ihdrName]; decide
  · exact (f.headerNames c header).2.2
  · rw [f.imageNames c image]; decide
  · exact (f.trailerNames c trailer).2.2

theorem chunks_unique (first : f.bytes <+: x) (second : g.bytes <+: x) : f.chunks = g.chunks := by
  have whole {f g : PngFile} (front : f.chunks <+: g.chunks) : f.chunks = g.chunks := by
    obtain ⟨rest, same⟩ := front
    rcases List.eq_nil_or_concat rest with rfl | ⟨more, last, rfl⟩
    · rwa [List.append_nil] at same
    · -- an `IEND` chunk stands only at the end
      have all : f.body ++ [f.iend] ++ (more ++ [last]) = g.body ++ [g.iend] := by
        rw [List.concat_eq_append] at same
        exact same
      rw [← List.append_assoc] at all
      have inside : f.iend ∈ g.body := by
        rw [← (List.append_inj' all rfl).1]
        simp
      exact absurd f.iendName (g.body_names _ inside)
  obtain ⟨t, rfl⟩ := first
  obtain ⟨u, same⟩ := second
  unfold bytes fileBytes at same
  rw [List.append_assoc, List.append_assoc] at same
  have rest := List.append_cancel_left same
  rcases FileChunk.prefix_or (List.prefix_append _ t) ⟨u, rest⟩ with front | front
  · exact whole front
  · exact (whole front).symm

theorem imageData_eq (f : PngFile) :
    f.imageData = (f.chunks.filter fun c => c.name = chunkIDAT).flatMap FileChunk.data := by
  have none (cs : List FileChunk) (names : ∀ c ∈ cs, c.name ≠ chunkIDAT) :
      cs.filter (fun c => c.name = chunkIDAT) = [] :=
    List.filter_eq_nil_iff.mpr fun c member => by simpa using names c member
  have early := none f.early fun c member name => by
    have := f.earlyNames c member
    rw [name] at this
    cases this
  have header := none f.header fun c member => (f.headerNames c member).2.1
  have trailer := none f.trailer fun c member => (f.trailerNames c member).2.1
  have image : f.image.filter (fun c => c.name = chunkIDAT) = f.image :=
    List.filter_eq_self.mpr fun c member => by simpa using f.imageNames c member
  have ihdr := none [f.ihdr] fun c member => by
    rw [List.mem_singleton.mp member, f.ihdrName]
    decide
  have iend := none [f.iend] fun c member => by
    rw [List.mem_singleton.mp member, f.iendName]
    decide
  unfold chunks FileHeader.chunks
  rw [← List.singleton_append, List.filter_append, List.filter_append, List.filter_append,
    List.filter_append, List.filter_append, early, ihdr, header, image, trailer, iend]
  simp [imageData]

theorem imageData_unique (first : f.bytes <+: x) (second : g.bytes <+: x) :
    f.imageData = g.imageData := by
  rw [imageData_eq, imageData_eq, chunks_unique first second]

end PngFile

end PngDecode.Libpng
