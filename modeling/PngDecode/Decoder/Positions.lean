import PngDecode.Decoder.Scanline

/-! # The order of the rows

The row callback is called once for every row of every pass in which the image has a pixel, in
their order, and a scanline is read for those of the rows that belong to their pass. -/

namespace PngDecode.Decoder
open PngDecode.Lib PngDecode.Libpng

variable {h : Header} {r r' r₁ r₂ : Rows} {g : List UInt8 → List UInt8} {w : Nat}

/-! ## Positions -/

def passes (h : Header) : List Nat :=
  if h.interlaced = 1 then (List.range 7).filter (pngPassStart · < h.width) else [0]

def rowsFrom (h : Header) (row pass : Nat) : List (Nat × Nat) :=
  (List.range' row (h.height - row)).map (·, pass)

def positions (h : Header) : List (Nat × Nat) := (passes h).flatMap (rowsFrom h 0)

def hasScanline (h : Header) (position : Nat × Nat) : Bool :=
  h.interlaced ≠ 1 || position.1 % pngPassYinc position.2 = pngPassYstart position.2

def scanlines (h : Header) : List (Nat × Nat) := (positions h).filter (hasScanline h)

def remaining (h : Header) (row pass : Nat) : List (Nat × Nat) :=
  (if pass ≤ 6 then rowsFrom h row pass else []) ++
    ((passes h).filter (pass < ·)).flatMap (rowsFrom h 0)

theorem rowsFrom_cons {row pass : Nat} (inside : row < h.height) :
    rowsFrom h row pass = (row, pass) :: rowsFrom h (row + 1) pass := by
  have succ : h.height - row = h.height - (row + 1) + 1 := by omega
  rw [rowsFrom, succ, List.range'_succ, List.map_cons]
  rfl

theorem rowsFrom_end {row pass : Nat} (outside : h.height ≤ row) : rowsFrom h row pass = [] := by
  rw [rowsFrom, Nat.sub_eq_zero_of_le outside]
  rfl

theorem laterPasses {pass : Nat} (interlaced : h.interlaced = 1) (wide : 0 < h.width)
    (inPass : pass ≤ 6) : (passes h).filter (pass < ·) =
      if nextPass h.width pass ≤ 6 then
        nextPass h.width pass :: (passes h).filter (nextPass h.width pass < ·)
      else [] := by
  obtain ⟨n0, n1, n2, n3, n4, n5, n6⟩ := nextPass_eq h.width
  have all : List.range 7 = [0, 1, 2, 3, 4, 5, 6] := rfl
  rw [passes, if_pos interlaced, all]
  by_cases w1 : 1 < h.width <;> by_cases w2 : 2 < h.width <;> by_cases w4 : 4 < h.width <;>
    interval_cases pass <;>
    first | omega | simp [n0, n1, n2, n3, n4, n5, n6, pngPassStart, wide, w1, w2, w4,
      show (h.width < 5 ↔ ¬ 4 < h.width) by omega, show (h.width < 3 ↔ ¬ 2 < h.width) by omega,
      show (h.width < 2 ↔ ¬ 1 < h.width) by omega]

theorem remaining_cons {row pass : Nat} (interlace : h.interlaced ≤ 1) (wide : 0 < h.width)
    (inside : row < h.height) (inPass : pass ≤ 6) (plain : h.interlaced = 0 → pass = 0) :
    remaining h row pass = (row, pass) ::
      remaining h (nextPosition h row pass).1 (nextPosition h row pass).2 := by
  rw [remaining, if_pos inPass, rowsFrom_cons inside, List.cons_append]
  congr 1
  unfold nextPosition
  by_cases more : row + 1 < h.height
  · rw [if_pos more, remaining, if_pos inPass]
  rw [if_neg more, rowsFrom_end (by omega), List.nil_append]
  by_cases interlaced : h.interlaced = 1
  · rw [if_pos interlaced, laterPasses interlaced wide inPass]
    dsimp only
    rw [remaining]
    split
    · rw [List.flatMap_cons]
    · next none =>
      have past : (passes h).filter (nextPass h.width pass < ·) = [] := by
        rw [List.filter_eq_nil_iff, passes, if_pos interlaced]
        intro p member
        have := List.mem_range.mp (List.mem_filter.mp member).1
        simp only [decide_eq_true_eq]
        omega
      rw [past]
      rfl
  · have first := plain (by omega)
    rw [if_neg interlaced]
    dsimp only
    rw [remaining, if_pos inPass, rowsFrom_end (by omega), List.nil_append]

theorem remaining_start (valid : h.Valid) : remaining h 0 0 = positions h := by
  have first : passes h = 0 :: (passes h).filter (0 < ·) := by
    have wide := valid.widthPos
    have all : List.range 7 = 0 :: (List.range' 1 6) := rfl
    unfold passes
    split
    · rw [all, List.filter_cons, if_pos (by simpa [pngPassStart] using wide), List.filter_cons,
        if_neg (by decide), List.filter_filter]
      congr 1
    · rfl
  rw [positions, first, List.flatMap_cons, remaining, if_pos (by omega), first]

theorem remaining_finished (valid : h.Valid) {row pass : Nat}
    (finished : h.height ≤ row ∨ 6 < pass) (adam7 : h.interlaced = 1 → row < h.height)
    (plain : h.interlaced = 0 → pass = 0) : remaining h row pass = [] := by
  have interlace := valid.interlace
  have later : (passes h).filter (pass < ·) = [] := by
    rw [List.filter_eq_nil_iff]
    intro p member
    simp only [decide_eq_true_eq]
    unfold passes at member
    split at member
    · next interlaced =>
      have := List.mem_range.mp (List.mem_filter.mp member).1
      have := adam7 interlaced
      omega
    · rw [List.mem_singleton.mp member]
      omega
  rw [remaining, later, List.flatMap_nil, List.append_nil]
  split
  · exact rowsFrom_end (by omega)
  · rfl

/-! ## The calls of the row callback -/

/-- A call of the row callback: the row, the pass, and whether there is a row to merge. -/
structure RowCall where
  row : Nat
  pass : Nat
  shown : Bool
deriving DecidableEq, Repr

def rowCalls (trace : List Event) : List RowCall :=
  trace.filterMap fun
    | .row rowNum pass row => some ⟨rowNum, pass, row.isSome⟩
    | _ => none

/-- The call for a position: `NULL` for the rows of a block above the scanline of its pass. -/
def rowCall (h : Header) (position : Nat × Nat) : RowCall where
  row := position.1
  pass := position.2
  shown := h.interlaced ≠ 1 ||
    pngPassYstart position.2 ≤ position.1 % pngPassYinc position.2

theorem rowCall_scanline {p : Nat × Nat} (line : hasScanline h p = true) :
    rowCall h p = ⟨p.1, p.2, true⟩ := by
  have shown : (rowCall h p).shown = true := by
    unfold hasScanline at line
    unfold rowCall
    simp only [Bool.or_eq_true, decide_eq_true_eq] at line ⊢
    exact line.imp_right fun due => Nat.le_of_eq due.symm
  rw [← shown]
  rfl

theorem rowCalls_append (a b : List Event) : rowCalls (a ++ b) = rowCalls a ++ rowCalls b :=
  List.filterMap_append

structure Called (h : Header) (positions : List (Nat × Nat)) (r r' : Rows) : Prop where
  remaining : remaining h r.rowNumber r.pass = positions ++ remaining h r'.rowNumber r'.pass
  calls : rowCalls r'.trace = rowCalls r.trace ++ positions.map (rowCall h)

theorem Called.refl (h : Header) (r : Rows) : Called h [] r r := ⟨rfl, by simp⟩

theorem Called.trans {p q : List (Nat × Nat)} (first : Called h p r r₁)
    (second : Called h q r₁ r₂) : Called h (p ++ q) r r₂ where
  remaining := by rw [first.remaining, second.remaining, List.append_assoc]
  calls := by rw [second.calls, first.calls, List.map_append, List.append_assoc]

theorem Handed.called {width : Option Nat} (handed : Handed h width r r')
    (valid : h.Valid) (inside : r.rowNumber < h.height) (inPass : r.pass ≤ 6)
    (plain : h.interlaced = 0 → r.pass = 0)
    (shown : width.isSome = (rowCall h (r.rowNumber, r.pass)).shown) :
    Called h [(r.rowNumber, r.pass)] r r' where
  remaining := by
    rw [remaining_cons valid.interlace valid.widthPos inside inPass plain, ← handed.position]
    rfl
  calls := by
    have rest : rowCalls (if width.isSome = true then
        [.product (h.width * 4), .write r.rowNumber (4 * h.width * r.rowNumber) (4 * h.width)]
        else []) = [] := by
      split <;> rfl
    have call : rowCall h (r.rowNumber, r.pass) = ⟨r.rowNumber, r.pass, width.isSome⟩ := by
      rw [shown]
      rfl
    rw [handed.trace, rowCalls_append, List.map_singleton, call, ← List.singleton_append,
      rowCalls_append, rest, List.append_nil]
    cases width <;> rfl

theorem Waits.called (waits : Waits h w r r') :
    ∃ skipped, Called h skipped r r' ∧ ∀ p ∈ skipped, hasScanline h p = false := by
  induction waits with
  | refl r => exact ⟨[], .refl h r, nofun⟩
  | step going inPass due handed _ ih =>
    obtain ⟨skipped, called, none⟩ := ih
    have interlaced := going.interlaced
    refine ⟨_, (handed.called going.valid going.inside inPass (by omega) ?_).trans called, ?_⟩
    · simp only [handedWidth, rowCall, interlaced]
      split <;> simp_all
    · intro p member
      rcases List.mem_append.mp member with here | later
      · rw [List.mem_singleton.mp here]
        simpa [hasScanline, interlaced, Due] using due
      · exact none p later

theorem Ready.hasScanline (ready : Ready h r) (more : r.finished = false) :
    hasScanline h (r.rowNumber, r.pass) = true := by
  obtain ⟨-, inPass⟩ := ready.unfinished.mp more
  by_cases adam7 : h.interlaced = 1
  · simpa [Decoder.hasScanline] using .inr ((ready.adam7 adam7).2 inPass).2
  · simp [Decoder.hasScanline, adam7]

theorem Ready.shown (ready : Ready h r) (more : r.finished = false) :
    (rowCall h (r.rowNumber, r.pass)).shown = true :=
  congrArg RowCall.shown (rowCall_scanline (ready.hasScanline more))

/-- A scanline takes the reader to the next row that has one. -/
theorem Drawn.called (drawn : Drawn h g r r₂) (ready : Ready h r) (more : r.finished = false) :
    ∃ skipped, Called h ((r.rowNumber, r.pass) :: skipped) r r₂ ∧
      ∀ p ∈ skipped, hasScanline h p = false := by
  obtain ⟨inside, inPass⟩ := ready.unfinished.mp more
  obtain ⟨w, rt, r₁, transformed, handed, waits⟩ := drawn.rows
  obtain ⟨skipped, later, none⟩ := waits.called
  obtain ⟨rowBuf, isOpaque, rfl⟩ := transformed.same
  have events : rowCalls (userTransformEvents h r.app.outputFormat r.iwidth) = [] := by
    unfold userTransformEvents
    split <;> rfl
  have now := handed.called ready.valid inside inPass ready.plain (ready.shown more).symm
  refine ⟨skipped, ⟨(now.trans later).remaining, ?_⟩, none⟩
  rw [(now.trans later).calls, rowCalls_append, events, List.append_nil]
  rfl

theorem Ready.remaining_nil (ready : Ready h r) (finished : r.finished = true) :
    remaining h r.rowNumber r.pass = [] := by
  refine remaining_finished ready.valid ?_ (fun adam7 => (ready.adam7 adam7).1) ready.plain
  by_contra more
  have := ready.unfinished.mpr (by omega)
  rw [finished] at this
  cases this

end PngDecode.Decoder
