import PngDecode.Lib.Fallible
import PngDecode.Libpng.Chunks
import Mathlib.Tactic.IntervalCases

/-! # What the chunk handlers keep

An accepted header describes an image of one of the fifteen pixel formats, transparency is known
in the same places everywhere, and no chunk after the first `IDAT` changes the description. -/

namespace PngDecode.Libpng
open PngDecode.Lib

/-! ## Accepted headers -/

def pixelFormats : List (Nat × Nat) :=
  [(0, 1), (0, 2), (0, 4), (0, 8), (0, 16), (2, 8), (2, 16), (3, 1), (3, 2), (3, 4), (3, 8),
    (4, 8), (4, 16), (6, 8), (6, 16)]

structure Header.Valid (h : Header) : Prop where
  widthPos : 0 < h.width
  heightPos : 0 < h.height
  format : (h.colorType, h.bitDepth) ∈ pixelFormats
  interlace : h.interlaced ≤ 1
  channels : h.channels = channelsOf h.colorType
  pixelDepth : h.pixelDepth = h.bitDepth * h.channels
  bytes : h.rowbytes = Libpng.rowbytes h.pixelDepth h.width

structure Header.Consistent (h : Header) : Prop where
  valid : h.mode.haveIHDR = true → h.Valid
  fresh : h.mode.haveIHDR = false → h.numTrans = 0 ∧ h.mode.havePLTE = false
  transparency : h.infoValidTRNS = true ↔ 0 < h.numTrans
  noAlpha : 0 < h.numTrans → h.colorType &&& colorMaskAlpha = 0
  palette : h.mode.havePLTE = true → h.colorType = colorTypePalette → h.palette.isSome
  paletteFirst : 0 < h.numTrans → h.colorType = colorTypePalette → h.mode.havePLTE = true

theorem pngCheckIHDR_format {width height bitDepth colorType interlace compression filter : Nat}
    (accepted : pngCheckIHDR width height bitDepth colorType interlace compression filter = true) :
    (colorType, bitDepth) ∈ pixelFormats := by
  simp only [pngCheckIHDR, colorTypePalette, colorTypeRGB, colorTypeGrayAlpha, colorTypeRGBAlpha,
    Bool.and_eq_true, Bool.or_eq_true, Bool.not_eq_true', decide_eq_true_eq, Bool.or_eq_false_iff,
    Bool.and_eq_false_iff, decide_eq_false_iff_not] at accepted
  obtain ⟨⟨⟨⟨⟨⟨-, depth⟩, type⟩, pair⟩, -⟩, -⟩, -⟩ := accepted
  have small : colorType ≤ 6 := by omega
  rcases depth with (((rfl | rfl) | rfl) | rfl) | rfl <;> interval_cases colorType <;>
    first
    | decide
    | (exfalso; revert type pair; decide)

theorem crcFinish_ok {α : Type} {c : Chunk} {f : Bool → Except Jump α} {b : α}
    (result : (pngCrcFinish c >>= f) = .ok b) :
    (c.crcError = true ∧ f true = .ok b) ∨ (c.crcError = false ∧ f false = .ok b) := by
  obtain ⟨crc, finished, rest⟩ := bind_ok result
  unfold pngCrcFinish at finished
  split at finished
  · next wrong =>
    split at finished
    · cases finished; exact .inl ⟨wrong, rest⟩
    · cases finished
  · next right => cases finished; exact .inr ⟨by simpa using right, rest⟩

theorem crcFinish_const {α : Type} {c : Chunk} {a : Except Jump α} {v : α}
    (result : (pngCrcFinish c >>= fun _ => a) = .ok v) : a = .ok v := by
  obtain ⟨-, rest⟩ | ⟨-, rest⟩ := crcFinish_ok result <;> exact rest

/-! ## One chunk -/

section Handlers
variable {h h' : Header} {c : Chunk}

/-- The handler that the name of a chunk leads to, with what it returns. -/
inductive Handled (h : Header) (c : Chunk) (result : Except Jump Header) : Prop where
  | ihdr (name : c.name = chunkIHDR) (returned : pngHandleIHDR h c = result)
  | iend (name : c.name = chunkIEND) (returned : pngHandleIEND h c = result)
  | plte (name : c.name = chunkPLTE) (returned : pngHandlePLTE h c = result)
  | color (length : Nat) (extra : ancillary c.name = true)
      (returned : pngHandleColor length h c = result)
  | iccp (extra : ancillary c.name = true) (returned : pngHandleICCP h c = result)
  | trns (extra : ancillary c.name = true) (returned : pngHandleTRNS h c = result)
  | text (extra : ancillary c.name = true) (returned : pngHandleText h c = result)
  | unknown (notIHDR : c.name ≠ chunkIHDR) (notIEND : c.name ≠ chunkIEND)
      (returned : pngHandleUnknown h c = result)

theorem pngHandleChunk_handled {result : Except Jump Header}
    (returned : pngHandleChunk h c = result) : Handled h c result := by
  have extra (name : UInt32) (same : c.name = name) (ok : ancillary name = true) :
      ancillary c.name = true := same ▸ ok
  unfold pngHandleChunk at returned
  split at returned
  · next name => exact .ihdr name returned
  next notIHDR =>
  split at returned
  · next name => exact .iend name returned
  next notIEND =>
  split at returned
  · next name => exact .plte name returned
  split at returned
  · next name => exact .color 4 (extra _ name (by decide)) returned
  split at returned
  · next name => exact .color 32 (extra _ name (by decide)) returned
  split at returned
  · next name => exact .color 1 (extra _ name (by decide)) returned
  split at returned
  · next name => exact .iccp (extra _ name (by decide)) returned
  split at returned
  · next name => exact .trns (extra _ name (by decide)) returned
  split at returned
  · next name => exact .text (extra _ name (by decide)) returned
  split at returned
  · next name => exact .text (extra _ name (by decide)) returned
  · exact .unknown notIHDR notIEND returned

theorem Header.Valid.update (v : h.Valid) (mode : Mode) (palette : Option (List PngColor))
    (numTrans : Nat) (transAlpha : List UInt8) (transColor : PngColor16) (infoValidTRNS : Bool)
    (userChunkCacheMax : Nat) (colorspace : List ColorChunk) :
    ({ h with mode, palette, numTrans, transAlpha, transColor, infoValidTRNS, userChunkCacheMax,
              colorspace } : Header).Valid :=
  ⟨v.widthPos, v.heightPos, v.format, v.interlace, v.channels, v.pixelDepth, v.bytes⟩

theorem Header.Consistent.update (inv : h.Consistent) (mode : Mode)
    (colorspace : List ColorChunk) (cache : Nat) (ihdr : mode.haveIHDR = h.mode.haveIHDR)
    (plte : h.mode.havePLTE = true → mode.havePLTE = true)
    (grey : mode.havePLTE = true → h.mode.havePLTE = true ∨
      (h.mode.haveIHDR = true ∧ h.colorType ≠ colorTypePalette)) :
    ({ h with mode, colorspace, userChunkCacheMax := cache } : Header).Consistent where
  valid have' := (inv.valid (ihdr ▸ have')).update ..
  fresh none := by
    have first := inv.fresh (ihdr ▸ none)
    refine ⟨first.1, ?_⟩
    by_contra some
    have none : h.mode.haveIHDR = false := ihdr ▸ none
    rcases grey (by simpa using some) with old | ⟨have', -⟩
    · rw [first.2] at old; cases old
    · rw [none] at have'; cases have'
  transparency := inv.transparency
  noAlpha := inv.noAlpha
  palette have' type := by
    rcases grey have' with old | ⟨-, other⟩
    · exact inv.palette old type
    · exact absurd type other
  paletteFirst some type := plte (inv.paletteFirst some type)

theorem pngHandleIHDR_keeps (inv : h.Consistent) (result : pngHandleIHDR h c = .ok h') :
    h'.Consistent := by
  unfold pngHandleIHDR at result
  split at result
  · cases result
  next fresh =>
  split at result
  · cases result
  have result := crcFinish_const result
  obtain ⟨width, -, result⟩ := bind_ok result
  obtain ⟨height, -, result⟩ := bind_ok result
  dsimp only at result
  split at result
  · next accepted =>
    cases result
    have first := inv.fresh (by simpa using fresh)
    have format := pngCheckIHDR_format accepted
    simp only [pngCheckIHDR, Bool.and_eq_true, decide_eq_true_eq] at accepted
    refine ⟨fun _ => ⟨?_, ?_, format, ?_, rfl, ?_, rfl⟩, ?_, inv.transparency, ?_, ?_, ?_⟩
    all_goals dsimp only
    · omega
    · omega
    · omega
    · have : ∀ f ∈ pixelFormats, f.2 * channelsOf f.1 % 256 = f.2 * channelsOf f.1 := by decide
      exact this _ format
    · intro none; cases none
    · intro some; rw [first.1] at some; cases some
    · intro have'; rw [first.2] at have'; cases have'
    · intro some; rw [first.1] at some; cases some
  · cases result

theorem pngHandlePLTE_keeps (inv : h.Consistent) (result : pngHandlePLTE h c = .ok h') :
    h'.Consistent := by
  unfold pngHandlePLTE at result
  split at result
  · cases result
  next ihdr =>
  have ihdr : h.mode.haveIHDR = true := by simpa using ihdr
  split at result
  · cases result
  next first =>
  split at result
  · cases crcFinish_const result; exact inv
  split at result
  · next grey =>
    cases crcFinish_const result
    exact inv.update _ _ _ rfl (fun _ => rfl)
      (fun _ => .inr ⟨ihdr, fun palette => by rw [palette] at grey; cases grey⟩)
  split at result
  · next grey =>
    cases crcFinish_const result
    exact inv.update _ _ _ rfl (fun _ => rfl) (fun _ => .inr ⟨ihdr, grey⟩)
  next palette =>
  split at result
  · cases crcFinish_const result
  have result := crcFinish_const result
  have none : h.numTrans = 0 := by
    by_contra some
    exact first (inv.paletteFirst (by omega) (by simpa using palette))
  have unset : h.infoValidTRNS = false := by
    by_contra some
    have := inv.transparency.mp (by simpa using some)
    omega
  split at result
  · cases result
  dsimp only at result
  rw [if_neg (by simp [none, unset])] at result
  cases result
  exact ⟨fun _ => (inv.valid ihdr).update .., fun fresh => absurd fresh (by simp [ihdr]),
    inv.transparency, inv.noAlpha, fun _ _ => rfl, fun _ _ => rfl⟩

theorem pngHandleIEND_keeps (inv : h.Consistent) (result : pngHandleIEND h c = .ok h') :
    h'.Consistent := by
  unfold pngHandleIEND at result
  split at result
  · cases result
  cases crcFinish_const result
  exact inv.update _ _ _ rfl id .inl

theorem pngSetTRNS_keeps (colorTrans : PngColor16) {count : Nat} {transAlpha : List UInt8}
    (inv : h.Consistent) (ihdr : h.mode.haveIHDR = true) (unset : h.infoValidTRNS = false)
    (some : 0 < count) (noAlpha : h.colorType &&& colorMaskAlpha = 0)
    (paletteFirst : h.colorType = colorTypePalette → h.mode.havePLTE = true)
    (result : pngSetTRNS { h with numTrans := count, transColor := colorTrans } c transAlpha =
      .ok h') : h'.Consistent := by
  unfold pngSetTRNS at result
  have ihdr' : ¬ h.mode.haveIHDR = false := by simp [ihdr]
  obtain ⟨-, result⟩ | ⟨-, result⟩ := crcFinish_ok result <;> cases result
  · exact ⟨fun _ => (inv.valid ihdr).update .., fun fresh => absurd fresh ihdr', by simp [unset],
      nofun, inv.palette, nofun⟩
  · exact ⟨fun _ => (inv.valid ihdr).update .., fun fresh => absurd fresh ihdr', by simp [some],
      fun _ => noAlpha, inv.palette, fun _ => paletteFirst⟩

theorem pngHandleTRNS_keeps (inv : h.Consistent) (result : pngHandleTRNS h c = .ok h') :
    h'.Consistent := by
  unfold pngHandleTRNS at result
  split at result
  · cases result
  next ihdr =>
  have ihdr : h.mode.haveIHDR = true := by simpa using ihdr
  split at result
  · cases crcFinish_const result; exact inv
  split at result
  · cases crcFinish_const result; exact inv
  next unset =>
  have unset : h.infoValidTRNS = false := by simpa using unset
  split at result
  · next grey =>
    split at result
    · cases crcFinish_const result; exact inv
    · exact pngSetTRNS_keeps _ inv ihdr unset (by omega) (by rw [grey]; rfl)
        (fun palette => by rw [grey] at palette; cases palette) result
  split at result
  · next rgb =>
    split at result
    · cases crcFinish_const result; exact inv
    · exact pngSetTRNS_keeps _ inv ihdr unset (by omega) (by rw [rgb]; rfl)
        (fun palette => by rw [rgb] at palette; cases palette) result
  split at result
  · next palette =>
    split at result
    · cases crcFinish_const result; exact inv
    next plte =>
    split at result
    · cases crcFinish_const result; exact inv
    next fits =>
    exact pngSetTRNS_keeps h.transColor inv ihdr unset (by omega)
      (by rw [palette]; rfl) (fun _ => by simpa using plte) result
  · cases crcFinish_const result; exact inv

theorem pngHandleColor_keeps {length : Nat} (inv : h.Consistent)
    (result : pngHandleColor length h c = .ok h') : h'.Consistent := by
  unfold pngHandleColor at result
  split at result
  · cases result
  split at result
  · cases crcFinish_const result; exact inv
  split at result
  · cases crcFinish_const result; exact inv
  obtain ⟨-, result⟩ | ⟨-, result⟩ := crcFinish_ok result <;> cases result
  · exact inv
  · exact inv.update _ _ _ rfl id .inl

theorem pngHandleICCP_keeps (inv : h.Consistent) (result : pngHandleICCP h c = .ok h') :
    h'.Consistent := by
  unfold pngHandleICCP at result
  split at result
  · cases result
  split at result
  · cases crcFinish_const result; exact inv
  split at result
  · cases crcFinish_const result; exact inv
  cases crcFinish_const result
  exact inv.update _ _ _ rfl id .inl

theorem pngHandleText_keeps (inv : h.Consistent) (result : pngHandleText h c = .ok h') :
    h'.Consistent := by
  unfold pngHandleText at result
  split at result
  · cases crcFinish_const result; exact inv
  split at result
  · cases crcFinish_const result; exact inv.update _ _ _ rfl id .inl
  split at result
  · cases result
  cases crcFinish_const result
  exact inv.update _ _ _ rfl id .inl

theorem pngHandleUnknown_keeps (inv : h.Consistent) (result : pngHandleUnknown h c = .ok h') :
    h'.Consistent := by
  unfold pngHandleUnknown at result
  have result := crcFinish_const result
  split at result
  · cases result; exact inv
  · cases result

theorem pngHandleChunk_keeps (inv : h.Consistent) (result : pngHandleChunk h c = .ok h') :
    h'.Consistent := by
  cases pngHandleChunk_handled result with
  | ihdr _ result => exact pngHandleIHDR_keeps inv result
  | iend _ result => exact pngHandleIEND_keeps inv result
  | plte _ result => exact pngHandlePLTE_keeps inv result
  | color length _ result => exact pngHandleColor_keeps inv result
  | iccp _ result => exact pngHandleICCP_keeps inv result
  | trns _ result => exact pngHandleTRNS_keeps inv result
  | text _ result => exact pngHandleText_keeps inv result
  | unknown _ _ result => exact pngHandleUnknown_keeps inv result

/-! ## Behind the first `IDAT` -/

def Header.SameImage (h h' : Header) : Prop :=
  ∃ afterIDAT haveIEND cache, h' = { h with
    mode := { h.mode with afterIDAT, haveIEND }, userChunkCacheMax := cache }

theorem Header.SameImage.refl (h : Header) : h.SameImage h := ⟨_, _, _, rfl⟩

theorem pngHandleChunk_sameImage (ihdr : h.mode.haveIHDR = true) (idat : h.mode.haveIDAT = true)
    (result : pngHandleChunk h c = .ok h') : h.SameImage h' := by
  cases pngHandleChunk_handled result with
  | ihdr _ result =>
    unfold pngHandleIHDR at result
    rw [if_pos ihdr] at result
    cases result
  | iend _ result =>
    unfold pngHandleIEND at result
    rw [if_neg (by simp [ihdr, idat])] at result
    cases crcFinish_const result
    exact ⟨_, _, _, rfl⟩
  | plte _ result =>
    unfold pngHandlePLTE at result
    simp only [ihdr, idat, Bool.not_true, Bool.false_eq_true, if_false, if_true] at result
    split at result
    · cases result
    · cases crcFinish_const result
      exact .refl h
  | color length _ result =>
    unfold pngHandleColor at result
    simp only [ihdr, idat, Bool.not_true, Bool.true_or, Bool.false_eq_true, if_false, if_true]
      at result
    cases crcFinish_const result
    exact .refl h
  | iccp _ result =>
    unfold pngHandleICCP at result
    simp only [ihdr, idat, Bool.not_true, Bool.true_or, Bool.false_eq_true, if_false, if_true]
      at result
    cases crcFinish_const result
    exact .refl h
  | trns _ result =>
    unfold pngHandleTRNS at result
    simp only [ihdr, idat, Bool.not_true, Bool.false_eq_true, if_false, if_true] at result
    cases crcFinish_const result
    exact .refl h
  | text _ result =>
    unfold pngHandleText at result
    split at result
    · cases crcFinish_const result; exact .refl h
    split at result
    · cases crcFinish_const result; exact ⟨_, _, _, rfl⟩
    rw [ihdr] at result
    cases crcFinish_const result
    exact ⟨_, _, _, rfl⟩
  | unknown _ _ result =>
    unfold pngHandleUnknown at result
    have result := crcFinish_const result
    split at result
    · cases result; exact .refl h
    · cases result

end Handlers

/-! ## Errors -/

theorem raised_jump {α : Type} {Q : α → Prop} (chunk : Option UInt32) (message : String) :
    Ends (.error (.pngError chunk message) : Except Jump α) Q (· ≠ .outOfFuel) :=
  Jump.noConfusion

theorem pngCrcFinish_jump (c : Chunk) : Ends (pngCrcFinish c) (fun _ => True) (· ≠ .outOfFuel) := by
  unfold pngCrcFinish
  (repeat' split) <;> first | trivial | exact raised_jump _ _

theorem pngGetUint31_jump (bytes : List UInt8) :
    Ends (pngGetUint31 bytes) (fun _ => True) (· ≠ .outOfFuel) := by
  unfold pngGetUint31
  split <;> first | trivial | exact raised_jump _ _

theorem pngCheckChunkName_jump (name : UInt32) :
    Ends (pngCheckChunkName name) (fun _ => True) (· ≠ .outOfFuel) := by
  unfold pngCheckChunkName
  split <;> first | trivial | exact raised_jump _ _

section Jumps
variable {c : Chunk} {h : Header}

theorem crcFinish_jump {α : Type} {Q : α → Prop} {f : Bool → Except Jump α}
    (next : ∀ crc, Ends (f crc) Q (· ≠ .outOfFuel)) :
    Ends (pngCrcFinish c >>= f) Q (· ≠ .outOfFuel) :=
  (pngCrcFinish_jump c).bind fun crc _ => next crc

def SameIDAT (h h' : Header) : Prop := h'.mode.haveIDAT = h.mode.haveIDAT

theorem crcFinish_same {h' : Header} (same : SameIDAT h h') :
    Ends (pngCrcFinish c >>= fun _ => Except.ok h') (SameIDAT h) (· ≠ .outOfFuel) :=
  crcFinish_jump fun _ => same

theorem pngSetTRNS_ends {h' : Header} (same : SameIDAT h h') (transAlpha : List UInt8) :
    Ends (pngSetTRNS h' c transAlpha) (SameIDAT h) (· ≠ .outOfFuel) :=
  crcFinish_jump fun crc => by split <;> exact same

theorem pngHandleColor_ends (length : Nat) :
    Ends (pngHandleColor length h c) (SameIDAT h) (· ≠ .outOfFuel) := by
  unfold pngHandleColor
  (repeat' split) <;> first | exact raised_jump _ _ | exact crcFinish_same rfl | skip
  exact crcFinish_jump fun crc => by split <;> exact rfl

theorem pngHandleText_ends : Ends (pngHandleText h c) (SameIDAT h) (· ≠ .outOfFuel) := by
  unfold pngHandleText
  (repeat' split) <;> first | exact raised_jump _ _ | exact crcFinish_same rfl

theorem pngHandleIHDR_ends : Ends (pngHandleIHDR h c) (SameIDAT h) (· ≠ .outOfFuel) := by
  unfold pngHandleIHDR
  (repeat' split) <;> first | exact raised_jump _ _ | skip
  refine crcFinish_jump fun _ => (pngGetUint31_jump _).bind fun _ _ =>
    (pngGetUint31_jump _).bind fun _ _ => ?_
  dsimp only
  split <;> first | exact rfl | exact raised_jump _ _

theorem pngHandlePLTE_ends : Ends (pngHandlePLTE h c) (SameIDAT h) (· ≠ .outOfFuel) := by
  unfold pngHandlePLTE
  (repeat' split) <;> first | exact raised_jump _ _ | exact crcFinish_same rfl | skip
  · exact crcFinish_jump fun _ => raised_jump _ _
  · refine crcFinish_jump fun _ => ?_
    split
    · exact raised_jump _ _
    · dsimp only
      split <;> exact rfl

theorem pngHandleChunk_ends (h : Header) (c : Chunk) :
    Ends (pngHandleChunk h c) (SameIDAT h) (· ≠ .outOfFuel) := by
  cases pngHandleChunk_handled (h := h) (c := c) rfl with
  | ihdr _ returned => rw [← returned]; exact pngHandleIHDR_ends
  | iend _ returned =>
    rw [← returned]
    unfold pngHandleIEND
    split <;> first | exact raised_jump _ _ | exact crcFinish_same rfl
  | plte _ returned => rw [← returned]; exact pngHandlePLTE_ends
  | color length _ returned => rw [← returned]; exact pngHandleColor_ends length
  | iccp _ returned =>
    rw [← returned]
    unfold pngHandleICCP
    (repeat' split) <;> first | exact raised_jump _ _ | exact crcFinish_same rfl
  | trns _ returned =>
    rw [← returned]
    unfold pngHandleTRNS
    dsimp only
    (repeat' split) <;>
      first | exact raised_jump _ _ | exact crcFinish_same rfl | exact pngSetTRNS_ends rfl _
  | text _ returned => rw [← returned]; exact pngHandleText_ends
  | unknown _ _ returned =>
    rw [← returned]
    exact crcFinish_jump fun _ => by split <;> first | exact rfl | exact raised_jump _ _

theorem pngHandleChunk_end {h' : Header} (name : c.name = chunkIEND)
    (result : pngHandleChunk h c = .ok h') : h.mode.haveIDAT = true := by
  cases pngHandleChunk_handled result with
  | iend _ result =>
    unfold pngHandleIEND at result
    split at result
    · cases result
    · next placed => simp_all
  | ihdr other | plte other => exact absurd (other.symm.trans name) (by decide)
  | color _ extra | iccp extra | trns extra | text extra => rw [name] at extra; cases extra
  | unknown _ notIEND => exact absurd name notIEND

end Jumps

end PngDecode.Libpng
