import PngDecode.Decoder.Interlace
import PngDecode.Libpng.Write

/-! # The lines that libpng writes

The loops of `png_write_image` write one line for each scanline of the image, in their order, each
filtered with the scanline above it in the same pass. -/

namespace PngDecode.Decoder
open PngDecode.Lib PngDecode.Libpng

variable {h : Header} {m : PixelMatrix} {doFilter : UInt8}

/-! ## The lines of an image -/

/-- The lines of the scanlines at `ps`, behind one of pass `pass`: the row above the first one of a
pass is empty. -/
def writeRows (doFilter : UInt8) (h : Header) (m : PixelMatrix) :
    List (Nat × Nat) → Nat → List UInt8 → List UInt8
  | [], _, _ => []
  | p :: ps, pass, prevRow =>
    let prevRow := if p.2 = pass then prevRow else List.replicate h.rowbytes 0
    let row := scanline h m p
    pngWriteFindFilter doFilter (rowInfo h (passWidth h p.2)) row prevRow ++
      writeRows doFilter h m ps p.2 row

def writeImage (doFilter : UInt8) (h : Header) (m : PixelMatrix) : List UInt8 :=
  writeRows doFilter h m (scanlines h) 0 (List.replicate h.rowbytes 0)

def imageRows (h : Header) (m : PixelMatrix) : List (List UInt8) :=
  (List.range h.height).map fun y => encodeRow h h.width (m y)

/-! ## The loops of the writer -/

theorem passWidth_pos {pass : Nat} (adam7 : h.interlaced = 1) (inPass : pass ≤ 6)
    (start : pngPassStart pass < h.width) : 0 < passWidth h pass := by
  rw [passWidth, if_pos adam7]
  interval_cases pass <;>
    simp only [pngPassInc, pngPassStart, List.getD_cons_zero, List.getD_cons_succ] at start ⊢ <;>
    omega

def isWritten (h : Header) (p : Nat × Nat) : Bool :=
  hasScanline h p && (h.interlaced ≠ 1 || pngPassStart p.2 < h.width)

def filteredRow (doFilter : UInt8) (h : Header) (m : PixelMatrix) (w : Writer) : Writer :=
  let row := scanline h m (w.rowNumber, w.pass)
  { w with
    prevRow := row
    out := w.out ++ pngWriteFindFilter doFilter (rowInfo h (passWidth h w.pass)) row w.prevRow }

theorem isWritten_iff (valid : h.Valid) {row pass : Nat} (inPass : pass ≤ 6) :
    isWritten h (row, pass) = true ↔
      ¬ (h.interlaced ≠ 0 ∧ skipsRow h.width row pass = true) := by
  have interlace := valid.interlace
  rw [skipsRow_eq valid.widthPos inPass, isWritten, hasScanline]
  by_cases adam7 : h.interlaced = 1
  · simp [adam7]
  · have whole : h.interlaced = 0 := by omega
    simp [whole]

theorem pngDoWriteInterlace_scanline (valid : h.Valid) (pixels : ∀ y x, IsPixel h (m y x))
    (adam7 : h.interlaced = 1) (y : Nat) {pass : Nat} (early : pass < 6) :
    pngDoWriteInterlace (rowInfo h h.width) (encodeRow h h.width (m y)) pass =
      (rowInfo h (passWidth h pass), scanline h m (y, pass)) := by
  have wide : passWidth h pass =
      (h.width + pngPassInc pass - 1 - pngPassStart pass) / pngPassInc pass := if_pos adam7
  have columns : column h pass = fun i => pngPassStart pass + i * pngPassInc pass := by
    funext i
    exact if_pos adam7
  rw [pngDoWriteInterlace_encodeRow valid (pixels y) early]
  unfold scanline
  rw [columns, wide]

theorem scanline_whole {pass : Nat} (last : h.interlaced = 1 → pass = 6) (y : Nat) :
    passWidth h pass = h.width ∧ scanline h m (y, pass) = encodeRow h h.width (m y) := by
  by_cases adam7 : h.interlaced = 1
  · have wide : passWidth h pass = h.width := by
      rw [passWidth, if_pos adam7, last adam7]
      simp [pngPassInc, pngPassStart]
    have columns : column h pass = fun i => i := by
      funext i
      rw [column, if_pos adam7, last adam7]
      simp [pngPassInc, pngPassStart]
    exact ⟨wide, by unfold scanline; rw [columns, wide]⟩
  · have wide : passWidth h pass = h.width := if_neg adam7
    have columns : column h pass = fun i => i := by
      funext i
      exact if_neg adam7
    exact ⟨wide, by unfold scanline; rw [columns, wide]⟩

theorem pngWriteRow_eq (valid : h.Valid) (pixels : ∀ y x, IsPixel h (m y x)) {w : Writer}
    (inPass : w.pass ≤ 6) :
    pngWriteRow doFilter h (encodeRow h h.width (m w.rowNumber)) w = pngWriteFinishRow h
      (if isWritten h (w.rowNumber, w.pass) then filteredRow doFilter h m w else w) := by
  have interlace := valid.interlace
  have written : isWritten h (w.rowNumber, w.pass) = true ↔ _ := isWritten_iff valid inPass
  unfold pngWriteRow
  dsimp only
  by_cases skipped : h.interlaced ≠ 0 ∧ skipsRow h.width w.rowNumber w.pass = true
  · rw [if_pos skipped, if_neg (fun here => written.mp here skipped)]
  rw [if_neg skipped, if_pos (written.mpr skipped)]
  by_cases early : h.interlaced ≠ 0 ∧ w.pass < 6
  · have adam7 : h.interlaced = 1 := by omega
    have start : pngPassStart w.pass < h.width := by
      have here := written.mpr skipped
      simpa [isWritten, adam7] using (Bool.and_eq_true_iff.mp here).2
    rw [if_pos early, pngDoWriteInterlace_scanline valid pixels adam7 w.rowNumber early.2]
    dsimp only
    rw [if_neg (by exact Nat.ne_of_gt (passWidth_pos adam7 inPass start))]
    rfl
  · have last : h.interlaced = 1 → w.pass = 6 := fun adam7 => by omega
    obtain ⟨wide, same⟩ := scanline_whole (m := m) last w.rowNumber
    rw [if_neg early]
    unfold filteredRow
    rw [wide, same]
    rfl

structure Writing (doFilter : UInt8) (h : Header) (m : PixelMatrix) (total : List UInt8)
    (ps : List (Nat × Nat)) (w : Writer) : Prop where
  rest : ∃ pass prevRow, pass ≤ w.pass ∧
    (w.pass ≤ 6 → w.prevRow = if w.pass = pass then prevRow else List.replicate h.rowbytes 0) ∧
    w.out ++ writeRows doFilter h m ps pass prevRow = total

theorem Writing.finish {total : List UInt8} {ps : List (Nat × Nat)} {w : Writer}
    (writing : Writing doFilter h m total ps w) :
    Writing doFilter h m total ps (pngWriteFinishRow h w) := by
  obtain ⟨pass, prevRow, before, above, all⟩ := writing.rest
  unfold pngWriteFinishRow
  dsimp only
  split
  · exact ⟨pass, prevRow, before, above, all⟩
  split
  · split
    · refine ⟨pass, prevRow, Nat.le_succ_of_le before, fun _ => ?_, all⟩
      rw [if_neg (by dsimp only; omega)]
    · next last => exact ⟨pass, prevRow, Nat.le_succ_of_le before, fun more => by
        dsimp only at more; omega, all⟩
  · exact ⟨pass, prevRow, before, above, all⟩

theorem Writing.filtered {total : List UInt8} {ps : List (Nat × Nat)} {w : Writer}
    (writing : Writing doFilter h m total ((w.rowNumber, w.pass) :: ps) w) (inPass : w.pass ≤ 6) :
    Writing doFilter h m total ps (filteredRow doFilter h m w) := by
  obtain ⟨pass, prevRow, before, above, all⟩ := writing.rest
  refine ⟨w.pass, scanline h m (w.rowNumber, w.pass), Nat.le_refl _, fun _ => (if_pos rfl).symm, ?_⟩
  rw [writeRows] at all
  dsimp only at all
  rw [← above inPass] at all
  unfold filteredRow
  dsimp only
  rw [List.append_assoc]
  exact all

theorem pngWriteFinishRow_position (w w' : Writer) (row : w'.rowNumber = w.rowNumber)
    (pass : w'.pass = w.pass) :
    ((pngWriteFinishRow h w').rowNumber, (pngWriteFinishRow h w').pass) =
      if w.rowNumber + 1 < h.height then (w.rowNumber + 1, w.pass)
      else if h.interlaced ≠ 0 then (0, w.pass + 1) else (w.rowNumber + 1, w.pass) := by
  unfold pngWriteFinishRow
  rw [row, pass]
  dsimp only
  (repeat' split) <;> rfl

theorem writtenRows (adam7 : h.interlaced = 1) (ks : List Nat) :
    (ks.flatMap fun pass => (rowsFrom h 0 pass).filter (isWritten h)) =
      ((ks.filter (pngPassStart · < h.width)).flatMap (rowsFrom h 0)).filter (hasScanline h) := by
  induction ks with
  | nil => rfl
  | cons k ks ih =>
    have here : ∀ p ∈ rowsFrom h 0 k, p.2 = k := fun p member => by
      obtain ⟨y, -, rfl⟩ := List.mem_map.mp member
      rfl
    rw [List.flatMap_cons, ih, List.filter_cons]
    split
    · next start =>
      rw [List.flatMap_cons, List.filter_append]
      congr 1
      exact List.filter_congr fun p member => by
        rw [isWritten, here p member, start, Bool.or_true, Bool.and_true]
    · next none =>
      have nothing : (rowsFrom h 0 k).filter (isWritten h) = [] := by
        rw [List.filter_eq_nil_iff]
        intro p member
        rw [isWritten, here p member]
        simp [adam7, none]
      rw [nothing, List.nil_append]

section Loops
variable (valid : h.Valid) (pixels : ∀ y x, IsPixel h (m y x)) {total : List UInt8}
  {ps : List (Nat × Nat)}
include valid pixels

theorem Writing.next {w : Writer} (inPass : w.pass ≤ 6)
    (writing : Writing doFilter h m total
      ([(w.rowNumber, w.pass)].filter (isWritten h) ++ ps) w) :
    Writing doFilter h m total ps
      (pngWriteRow doFilter h (encodeRow h h.width (m w.rowNumber)) w) := by
  rw [pngWriteRow_eq valid pixels inPass]
  apply Writing.finish
  rw [List.filter_singleton] at writing
  by_cases written : isWritten h (w.rowNumber, w.pass) = true
  · rw [if_pos written]
    rw [written] at writing
    exact writing.filtered inPass
  · rw [if_neg written]
    rw [Bool.not_eq_true] at written
    rw [written] at writing
    exact writing

theorem pngWriteRow_position (doFilter : UInt8) {w : Writer} (inPass : w.pass ≤ 6) :
    ((pngWriteRow doFilter h (encodeRow h h.width (m w.rowNumber)) w).rowNumber,
      (pngWriteRow doFilter h (encodeRow h h.width (m w.rowNumber)) w).pass) =
      if w.rowNumber + 1 < h.height then (w.rowNumber + 1, w.pass)
      else if h.interlaced ≠ 0 then (0, w.pass + 1) else (w.rowNumber + 1, w.pass) := by
  rw [pngWriteRow_eq valid pixels inPass]
  split
  · exact pngWriteFinishRow_position w _ rfl rfl
  · exact pngWriteFinishRow_position w w rfl rfl

theorem Writing.rows (left : Nat) {w w' : Writer} (inPass : w.pass ≤ 6)
    (rows : w.rowNumber + left = h.height) (some : 0 < left)
    (result : ((List.range' w.rowNumber left).map fun y => encodeRow h h.width (m y)).foldl
      (fun w row => pngWriteRow doFilter h row w) w = w')
    (writing : Writing doFilter h m total
      ((rowsFrom h w.rowNumber w.pass).filter (isWritten h) ++ ps) w) :
    Writing doFilter h m total ps w' ∧
      (h.interlaced ≠ 0 → w'.rowNumber = 0 ∧ w'.pass = w.pass + 1) := by
  induction left generalizing w with
  | zero => cases some
  | succ left ih =>
    rw [rowsFrom_cons (by omega), ← List.singleton_append, List.filter_append,
      List.append_assoc] at writing
    have next := writing.next valid pixels inPass
    have position := pngWriteRow_position valid pixels doFilter inPass
    rw [List.range'_succ, List.map_cons, List.foldl_cons] at result
    generalize pngWriteRow doFilter h (encodeRow h h.width (m w.rowNumber)) w = w₁ at *
    by_cases more : w.rowNumber + 1 < h.height
    · rw [if_pos more] at position
      obtain ⟨row, pass⟩ := Prod.mk.inj position
      rw [← row] at result
      rw [← row, ← pass] at next
      obtain ⟨writing', last⟩ := ih (by omega) (by omega) (by omega) result next
      exact ⟨writing', pass ▸ last⟩
    · have last : left = 0 := by omega
      subst last
      cases result
      rw [if_neg more] at position
      rw [rowsFrom_end (by omega)] at next
      refine ⟨next, fun adam7 => ?_⟩
      rw [if_pos adam7] at position
      exact Prod.mk.inj position

theorem Writing.passes (adam7 : h.interlaced = 1) (left : Nat) {w : Writer}
    (first : w.rowNumber = 0) (passes : w.pass + left = 7)
    (writing : Writing doFilter h m total
      ((List.range' w.pass left).flatMap fun pass => (rowsFrom h 0 pass).filter (isWritten h)) w) :
    Writing doFilter h m total [] (writePasses doFilter h (imageRows h m) left w) := by
  induction left generalizing w with
  | zero => exact writing
  | succ left ih =>
    rw [List.range'_succ, List.flatMap_cons, ← first] at writing
    have all : ((List.range' w.rowNumber h.height).map fun y => encodeRow h h.width (m y)) =
        imageRows h m := by
      rw [first, imageRows, List.range_eq_range']
    obtain ⟨writing', position⟩ := writing.rows valid pixels h.height (by omega) (by omega)
      valid.heightPos (congrArg (List.foldl _ w) all)
    obtain ⟨row, pass⟩ := position (by omega)
    rw [first, ← pass] at writing'
    exact ih row (by omega) writing'

theorem pngWriteImage_eq :
    pngWriteImage doFilter h (imageRows h m) =
      writeImage (pngWriteStartRow doFilter h) h m := by
  have interlace := valid.interlace
  unfold pngWriteImage
  generalize pngWriteStartRow doFilter h = doFilter
  suffices Writing doFilter h m (writeImage doFilter h m) [] (writePasses doFilter h
      (imageRows h m) (if h.interlaced ≠ 0 then 7 else 1)
      ⟨0, 0, List.replicate h.rowbytes 0, []⟩) by
    obtain ⟨pass, prevRow, -, -, all⟩ := this.rest
    rw [← all, writeRows, List.append_nil]
  have start (ps : List (Nat × Nat)) (all : ps = scanlines h) : Writing doFilter h m
      (writeImage doFilter h m) ps ⟨0, 0, List.replicate h.rowbytes 0, []⟩ :=
    ⟨0, _, Nat.le_refl _, fun _ => (if_pos rfl).symm, by rw [all]; rfl⟩
  by_cases adam7 : h.interlaced = 1
  · rw [if_pos (by omega)]
    refine Writing.passes valid pixels adam7 7 rfl rfl (start _ ?_)
    rw [writtenRows adam7, scanlines, positions, passes, if_pos adam7]
    rfl
  · have all : (rowsFrom h 0 0).filter (isWritten h) ++ [] = scanlines h := by
      rw [List.append_nil, scanlines, positions, passes, if_neg adam7, List.flatMap_singleton]
      exact List.filter_congr fun p _ => by simp [isWritten, adam7]
    rw [if_neg (by omega), imageRows, List.range_eq_range']
    exact ((start _ all).rows valid pixels h.height (Nat.zero_le _) (Nat.zero_add _) valid.heightPos
      rfl).1

end Loops

end PngDecode.Decoder
