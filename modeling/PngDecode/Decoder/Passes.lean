import PngDecode.Decoder.HandedRows
import Mathlib.Tactic.IntervalCases

/-! # The rows of the interlace passes

libpng asks for the row callback once for every row of the image in every pass that is not empty,
and needs a scanline for the rows that belong to the pass. The `switch` of
`png_push_process_row` goes from one such row to the next. -/

namespace PngDecode.Decoder
open PngDecode.Lib PngDecode.Libpng

variable {h : Header} {r r' r₁ r₂ : Rows} {w : Nat}

def Due (r : Rows) : Prop := r.rowNumber % pngPassYinc r.pass = pngPassYstart r.pass

/-- The callback gets a row where the last scanline of the pass is shown, and `NULL` above it. -/
def handedWidth (w pass phase : Nat) : Option Nat :=
  if pngPassYstart pass ≤ phase then some w else none

theorem nextPass_eq (w : Nat) : nextPass w 0 = (if w < 5 then 2 else 1) ∧ nextPass w 1 = 2 ∧
    nextPass w 2 = (if w < 3 then 4 else 3) ∧ nextPass w 3 = 4 ∧
    nextPass w 4 = (if w < 2 then 6 else 5) ∧ nextPass w 5 = 6 ∧ nextPass w 6 = 7 := by
  simp only [nextPass]
  grind

theorem nextPass_nonempty {w pass : Nat} (wide : 0 < w) (passes : pass ≤ 6)
    (more : nextPass w pass ≤ 6) : pngPassStart (nextPass w pass) < w := by
  obtain ⟨n0, n1, n2, n3, n4, n5, n6⟩ := nextPass_eq w
  interval_cases pass
  · rw [n0]; split <;> simp [pngPassStart] <;> omega
  · rw [n1]; simpa [pngPassStart] using wide
  · rw [n2]; split <;> simp [pngPassStart] <;> omega
  · rw [n3]; simpa [pngPassStart] using wide
  · rw [n4]; split <;> simp [pngPassStart] <;> omega
  · rw [n5]; simpa [pngPassStart] using wide
  · rw [n6] at more; omega

structure Going (h : Header) (r : Rows) : Prop extends Configured h r where
  depth32 : r.transformedPixelDepth = 32
  interlaced : h.interlaced = 1
  inside : r.rowNumber < h.height
  iwidth : r.pass ≤ 6 → r.iwidth = passWidth h r.pass
  nonempty : r.pass ≤ 6 → pngPassStart r.pass < h.width

/-- Rows are handed over until one is reached for which a scanline is due. -/
inductive Waits (h : Header) (w : Nat) : Rows → Rows → Prop where
  | refl (r : Rows) : Waits h w r r
  | step {r r₁ r₂ : Rows} : Going h r → r.pass ≤ 6 → ¬ Due r →
      Handed h (handedWidth w r.pass (r.rowNumber % pngPassYinc r.pass)) r r₁ → Waits h w r₁ r₂ →
      Waits h w r r₂

theorem Waits.trans (first : Waits h w r r₁) (second : Waits h w r₁ r₂) : Waits h w r r₂ := by
  induction first with
  | refl => exact second
  | step going pass due handed _ ih => exact .step going pass due handed (ih second)

theorem Going.next (going : Going h r) (pass : r.pass ≤ 6) (width : Option Nat)
    (covers : width.isSome → Covers h r.pass r.rowBuf) :
    ∃ r', haveRowAndFinish h width r = .ok r' ∧ Going h r' ∧ Handed h width r r' := by
  obtain ⟨r', eq, configured, handed, depth⟩ :=
    haveRowAndFinish_handed going.toConfigured going.depth32 going.inside covers
  have position := handed.position
  have tall := going.valid.heightPos
  have wide := going.valid.widthPos
  rw [nextPosition, if_pos going.interlaced] at position
  have inside : r'.rowNumber < h.height ∧ (r'.pass ≤ 6 → pngPassStart r'.pass < h.width) := by
    split at position
    · next more =>
      rw [Prod.mk.injEq] at position
      rw [position.1, position.2]
      exact ⟨more, going.nonempty⟩
    · rw [Prod.mk.injEq] at position
      rw [position.1, position.2]
      exact ⟨tall, nextPass_nonempty wide pass⟩
  exact ⟨r', eq, ⟨configured, depth, going.interlaced, inside.1,
    handed.iwidth (going.iwidth pass), inside.2⟩, handed⟩

def positionAfter (h : Header) (row pass n : Nat) : Nat × Nat :=
  if row + n < h.height then (row + n, pass) else (0, nextPass h.width pass)

theorem nextPosition_eq (interlaced : h.interlaced = 1) (row pass : Nat) :
    nextPosition h row pass = positionAfter h row pass 1 := by
  rw [nextPosition, if_pos interlaced]
  rfl

theorem nextPass_later (width : Nat) {pass : Nat} (passes : pass ≤ 6) :
    pass < nextPass width pass := by
  unfold nextPass
  dsimp only
  split <;> split <;> omega

theorem haveRows_other {width : Option Nat} {pass : Nat} (other : r.pass ≠ pass) (n : Nat) :
    haveRows h width pass n r = .ok r := by
  cases n with
  | zero => rfl
  | succ n => rw [haveRows, if_neg other]

theorem haveRows_waits {width : Option Nat} {pass : Nat} (passes : pass ≤ 6) (n phase : Nat)
    (going : Going h r) (here : r.pass = pass) (start : r.rowNumber % pngPassYinc pass = phase)
    (inBlock : phase + n ≤ pngPassYinc pass)
    (same : ∀ i < n, handedWidth w pass (phase + i) = width ∧ phase + i ≠ pngPassYstart pass)
    (covers : width.isSome → Covers h pass r.rowBuf) :
    ∃ r', haveRows h width pass n r = .ok r' ∧ Waits h w r r' ∧ Going h r' ∧
      (r'.rowNumber, r'.pass) = positionAfter h r.rowNumber pass n := by
  induction n generalizing r phase with
  | zero =>
    refine ⟨r, rfl, .refl r, going, ?_⟩
    rw [positionAfter, Nat.add_zero, if_pos going.inside, here]
  | succ n ih =>
    obtain ⟨first, notDue⟩ := same 0 (by omega)
    obtain ⟨r₁, eq, going₁, handed⟩ := going.next (by omega) width
      fun shown => here ▸ covers shown
    have due : ¬ Due r := by rw [Due, here, start]; exact notDue
    have tick : Handed h (handedWidth w r.pass (r.rowNumber % pngPassYinc r.pass)) r r₁ := by
      rw [here, start]
      rw [Nat.add_zero] at first
      rw [first]
      exact handed
    have position := handed.position
    rw [nextPosition_eq going.interlaced, here, positionAfter] at position
    rw [haveRows, if_pos here, eq, ok_bind]
    cases n with
    | zero => exact ⟨r₁, rfl, .step going (by omega) due tick (.refl _), going₁, position⟩
    | succ n =>
      by_cases more : r.rowNumber + 1 < h.height
      · rw [if_pos more, Prod.mk.injEq] at position
        have next : r₁.rowNumber % pngPassYinc pass = phase + 1 := by
          rw [position.1, Nat.add_mod, start, Nat.mod_eq_of_lt]
          · rw [Nat.mod_eq_of_lt (by omega)]
          · rw [Nat.mod_eq_of_lt (by omega)]; omega
        obtain ⟨r₂, eq₂, waits, going₂, position₂⟩ := ih (phase + 1) going₁ position.2 next (by omega)
          (fun i hi => by
            have := same (i + 1) (by omega)
            rwa [show phase + (i + 1) = phase + 1 + i by omega] at this)
          (by rw [handed.rowBuf]; exact covers)
        refine ⟨r₂, eq₂, .step going (by omega) due tick waits, going₂, ?_⟩
        rw [position₂, position.1, positionAfter, positionAfter]
        congr 1
        · congr 1; omega
        · congr 1; omega
      · rw [if_neg more, Prod.mk.injEq] at position
        have moved : r₁.pass ≠ pass := by
          rw [position.2]
          exact Nat.ne_of_gt (nextPass_later _ passes)
        refine ⟨r₁, haveRows_other moved _, .step going (by omega) due tick (.refl _), going₁, ?_⟩
        rw [positionAfter, if_neg (by omega), Prod.mk.injEq]
        exact position

/-! ## One scanline -/

theorem haveRows_shown {pass n : Nat} (going : Going h r) (passes : pass ≤ 6)
    (here : r.pass = pass) (due : Due r) (block : pngPassYstart pass + (n + 1) = pngPassYinc pass)
    (covers : Covers h pass r.rowBuf) :
    ∃ r₁ r₂, haveRows h (some w) pass (n + 1) r = .ok r₂ ∧ Handed h (some w) r r₁ ∧
      Waits h w r₁ r₂ ∧ Going h r₂ ∧
      (r₂.rowNumber, r₂.pass) = positionAfter h r.rowNumber pass (n + 1) := by
  obtain ⟨r₁, eq, going₁, handed⟩ := going.next (by omega) (some w)
    fun _ => here ▸ covers
  have position := handed.position
  rw [nextPosition_eq going.interlaced, here, positionAfter] at position
  rw [haveRows, if_pos here, eq, ok_bind]
  cases n with
  | zero => exact ⟨r₁, r₁, rfl, handed, .refl _, going₁, position⟩
  | succ n =>
    by_cases more : r.rowNumber + 1 < h.height
    · rw [if_pos more, Prod.mk.injEq] at position
      rw [Due, here] at due
      have next : r₁.rowNumber % pngPassYinc pass = pngPassYstart pass + 1 := by
        rw [position.1, Nat.add_mod, due, Nat.mod_eq_of_lt (a := 1) (by omega), Nat.mod_eq_of_lt]
        omega
      obtain ⟨r₂, eq₂, waits, going₂, position₂⟩ := haveRows_waits (w := w) passes
        (n + 1) (pngPassYstart pass + 1) going₁ position.2 next (by omega)
          (fun i hi => ⟨if_pos (by omega), by omega⟩) fun _ => by rw [handed.rowBuf]; exact covers
      refine ⟨r₁, r₂, eq₂, handed, waits, going₂, ?_⟩
      rw [position₂, position.1, positionAfter, positionAfter,
        show r.rowNumber + 1 + (n + 1) = r.rowNumber + (n + 1 + 1) by omega]
    · rw [if_neg more, Prod.mk.injEq] at position
      have moved : r₁.pass ≠ pass := by
        rw [position.2]
        exact Nat.ne_of_gt (nextPass_later _ passes)
      refine ⟨r₁, r₁, haveRows_other moved _, handed, .refl _, going₁, ?_⟩
      rw [positionAfter, if_neg (by omega), Prod.mk.injEq]
      exact position

/-- Past the rows above the first one of an even pass, if a block of it has just begun. -/
def skipped (h : Header) (pass : Nat) (position : Nat × Nat) : Nat × Nat :=
  if position.2 = pass then positionAfter h position.1 pass (pngPassYstart pass) else position

/-- In every pass from `pass` on, a block has just begun. -/
def BlockStart (pass : Nat) (r : Rows) : Prop :=
  pass ≤ r.pass → r.rowNumber % pngPassYinc r.pass = 0

theorem BlockStart.mono {pass pass' : Nat} (start : BlockStart pass r) (later : pass ≤ pass') :
    BlockStart pass' r := fun here => start (by omega)

theorem blockStart_of_position {row pass n : Nat}
    (position : (r'.rowNumber, r'.pass) = positionAfter h row pass n) :
    BlockStart (pass + 1) r' ∧
      ((row + n) % pngPassYinc pass = 0 → BlockStart 0 r') := by
  unfold positionAfter at position
  split at position
  · rw [Prod.mk.injEq] at position
    refine ⟨fun later => by omega, fun ends _ => ?_⟩
    rw [position.1, position.2]
    exact ends
  · rw [Prod.mk.injEq] at position
    refine ⟨fun _ => ?_, fun _ _ => ?_⟩ <;> rw [position.1] <;> exact Nat.zero_mod _

theorem haveRows_skipped (pass n : Nat) (going : Going h r) (start : BlockStart pass r)
    (block : pass ≤ 6 ∧ pngPassYstart pass = n ∧ n ≤ pngPassYinc pass) :
    ∃ r', haveRows h none pass n r = .ok r' ∧ Waits h w r r' ∧ Going h r' ∧
      BlockStart (pass + 1) r' ∧
      (r'.rowNumber, r'.pass) = skipped h pass (r.rowNumber, r.pass) := by
  obtain ⟨passes, rfl, block⟩ := block
  unfold skipped
  by_cases here : r.pass = pass
  · rw [if_pos here]
    obtain ⟨r', eq, waits, going', position⟩ := haveRows_waits (w := w) passes (pngPassYstart pass) 0
      going here (by rw [← here]; exact start (by omega)) (by omega)
        (fun i hi => ⟨if_neg (by omega), by omega⟩) nofun
    exact ⟨r', eq, waits, going', (blockStart_of_position position).1, position⟩
  · rw [if_neg here]
    exact ⟨r, haveRows_other here _, .refl r, going, start.mono (by omega), rfl⟩

theorem onlyIf_idle {c : Prop} [Decidable c] {f : Rows → Fallible Rows Rows}
    (idle : ¬ c → f r = .ok r) : onlyIf c f r = f r := by
  unfold onlyIf
  split
  · rfl
  · next no => exact (idle no).symm

theorem haveRows_one (h : Header) (width : Option Nat) (r : Rows) (here : r.pass = 6) :
    haveRowAndFinish h width r = haveRows h width 6 1 r := by
  rw [haveRows, if_pos here]
  cases haveRowAndFinish h width r <;> rfl

theorem onlyIf_last (h : Header) (r : Rows) :
    onlyIf (r.pass = 6) (haveRowAndFinish h none) r = haveRows h none 6 1 r := by
  unfold onlyIf
  split
  · next here => exact haveRows_one h none r here
  · next other => exact (haveRows_other other 1).symm

def afterScanline (h : Header) (row pass : Nat) : Nat × Nat :=
  match pass with
  | 0 => skipped h 6 (skipped h 4 (skipped h 2 (positionAfter h row 0 8)))
  | 1 => skipped h 2 (positionAfter h row 1 8)
  | 2 => skipped h 4 (skipped h 2 (positionAfter h row 2 4))
  | 3 => skipped h 4 (positionAfter h row 3 4)
  | 4 => skipped h 6 (skipped h 4 (positionAfter h row 4 2))
  | 5 => skipped h 6 (positionAfter h row 5 2)
  | _ => skipped h 6 (positionAfter h row 6 1)

section After
attribute [local simp] afterScanline skipped positionAfter pngPassYinc pngPassYstart pngPassStart

theorem afterScanline_due {row pass : Nat} (passes : pass ≤ 6) (inside : row < h.height)
    (nonempty : pngPassStart pass < h.width)
    (due : row % pngPassYinc pass = pngPassYstart pass)
    (more : (afterScanline h row pass).2 ≤ 6) :
    (afterScanline h row pass).1 % pngPassYinc (afterScanline h row pass).2 =
      pngPassYstart (afterScanline h row pass).2 := by
  obtain ⟨n0, n1, n2, n3, n4, n5, n6⟩ := nextPass_eq h.width
  revert more
  -- each case split is one way for the rest of a pass, or a whole pass, to be empty
  interval_cases pass
  · by_cases below : row + 8 < h.height
    · simp [below] at due ⊢; omega
    by_cases w5 : h.width < 5
    · by_cases h4 : 4 < h.height
      · simp [below, n0, w5, h4]
      by_cases w3 : h.width < 3
      · by_cases h2 : 2 < h.height
        · simp [below, n0, w5, h4, n2, w3, h2]
        by_cases w2 : h.width < 2
        · by_cases h1 : 1 < h.height <;> simp [below, n0, w5, h4, n2, w3, h2, n4, w2, h1, n6]
        · simp [below, n0, w5, h4, n2, w3, h2, n4, w2]
      · simp [below, n0, w5, h4, n2, w3]
    · simp [below, n0, w5]
  · have w3 : ¬ h.width < 3 := by simp at nonempty; omega
    by_cases below : row + 8 < h.height
    · simp [below] at due ⊢; omega
    by_cases h4 : 4 < h.height <;> simp [below, n1, h4, n2, w3]
  · simp at due
    have h2 : 2 < h.height := by omega
    by_cases below : row + 4 < h.height
    · by_cases further : row + 4 + 4 < h.height
      · simp [below, further]; omega
      by_cases w3 : h.width < 3 <;> simp [below, further, n2, w3, h2]
    by_cases w3 : h.width < 3 <;> simp [below, n2, w3, h2]
  · have w2 : ¬ h.width < 2 := by simp at nonempty; omega
    by_cases below : row + 4 < h.height
    · simp [below] at due ⊢; omega
    by_cases h2 : 2 < h.height <;> simp [below, n3, h2, n4, w2]
  · simp at due
    have h1 : 1 < h.height := by omega
    by_cases below : row + 2 < h.height
    · by_cases further : row + 2 + 2 < h.height
      · simp [below, further]; omega
      by_cases w2 : h.width < 2 <;> simp [below, further, n4, w2, h1]
    by_cases w2 : h.width < 2 <;> simp [below, n4, w2, h1]
  · by_cases below : row + 2 < h.height
    · simp [below] at due ⊢; omega
    by_cases h1 : 1 < h.height <;> simp [below, n5, h1, n6]
  · simp at due
    by_cases below : row + 1 < h.height
    · by_cases further : row + 1 + 1 < h.height
      · simp [below, further]; omega
      · simp [below, further, n6]
    · simp [below, n6]

end After

/-- The rows of the `switch`: one for the scanline, and then those up to the next due one. -/
structure Processed (h : Header) (w : Nat) (r r₂ : Rows) : Prop where
  handed : ∃ r₁, Handed h (some w) r r₁ ∧ Waits h w r₁ r₂
  going : Going h r₂
  due : r₂.pass ≤ 6 → Due r₂

theorem haveRows_due {pass n : Nat} (going : Going h r) (passes : pass ≤ 6) (here : r.pass = pass)
    (due : Due r) (block : pngPassYstart pass + (n + 1) = pngPassYinc pass)
    (covers : Covers h pass r.rowBuf) :
    ∃ r₁ r₂, haveRows h (some w) pass (n + 1) r = .ok r₂ ∧ Handed h (some w) r r₁ ∧
      Waits h w r₁ r₂ ∧ Going h r₂ ∧ BlockStart 0 r₂ ∧
      (r₂.rowNumber, r₂.pass) = positionAfter h r.rowNumber pass (n + 1) := by
  obtain ⟨r₁, r₂, eq, handed, waits, going₂, position⟩ :=
    haveRows_shown going passes here due block covers
  refine ⟨r₁, r₂, eq, handed, waits, going₂, (blockStart_of_position position).2 ?_, position⟩
  rw [Due, here] at due
  rw [Nat.add_mod, due, Nat.add_mod_mod, block, Nat.mod_self]

/-- In an image of more than four rows the rows that follow the first pass end in the third one. -/
theorem firstPass_early {row : Nat} {position : Nat × Nat}
    (reached : position = skipped h 2 (positionAfter h row 0 8)) (tall : ¬ h.height ≤ 4) :
    position.2 ≤ 2 := by
  have n0 := (nextPass_eq h.width).1
  rw [reached]
  simp only [skipped, positionAfter, pngPassYstart, List.getD_cons_zero, List.getD_cons_succ, n0]
  grind

/-- Behind a scanline of the first pass, the rows of the fifth and of the seventh pass are asked for
only in an image of four rows at most. -/
theorem haveInterlacedRows_first (going : Going h r) (here : r.pass = 0) (due : Due r)
    (covers : Covers h 0 r.rowBuf) :
    ∃ r₁ r₂, haveInterlacedRows h w r = .ok r₂ ∧ Handed h (some w) r r₁ ∧ Waits h w r₁ r₂ ∧
      Going h r₂ ∧ (r₂.rowNumber, r₂.pass) = afterScanline h r.rowNumber 0 := by
  obtain ⟨r₁, a, eqA, handed, waitsA, goingA, startA, posA⟩ :=
    haveRows_due (n := 7) going (by decide) here due rfl covers
  obtain ⟨b, eqB, waitsB, goingB, startB, posB⟩ :=
    haveRows_skipped 2 4 goingA (startA.mono (by omega)) (by decide)
  obtain ⟨c, eqC, waitsC, goingC, startC, posC⟩ :=
    haveRows_skipped 4 2 goingB (startB.mono (by omega)) (by decide)
  obtain ⟨d, eqD, waitsD, goingD, -, posD⟩ :=
    haveRows_skipped 6 1 goingC (startC.mono (by omega)) (by decide)
  refine ⟨r₁, d, ?_, handed, ((waitsA.trans waitsB).trans waitsC).trans waitsD, goingD, ?_⟩
  · have early (tall : ¬ h.height ≤ 4) : b.pass ≤ 2 := firstPass_early (posA ▸ posB) tall
    have fifth (tall : ¬ h.height ≤ 4) (n : Nat) : haveRows h none 4 n b = .ok b :=
      haveRows_other (by have := early tall; omega) n
    unfold haveInterlacedRows
    rw [here]
    rw [eqA, ok_bind, eqB, ok_bind, onlyIf_idle fun tall => fifth tall 2, eqC, ok_bind, ← eqD,
      ← onlyIf_last]
    by_cases short : h.height ≤ 4
    · simp only [short, and_true]
    · have idle : c = b := Except.ok.inj (eqC.symm.trans (fifth short 2))
      have := early short
      simp only [onlyIf, idle, short, and_false, if_false, if_neg (show b.pass ≠ 6 by omega)]
  · rw [posD, posC, posB, posA]; rfl

theorem haveInterlacedRows_processed (going : Going h r) (passes : r.pass ≤ 6) (due : Due r)
    (covers : Covers h r.pass r.rowBuf) :
    ∃ r₂, haveInterlacedRows h w r = .ok r₂ ∧ Processed h w r r₂ := by
  -- the position alone says whether a scanline is due at the end
  suffices run : ∃ r₁ r₂, haveInterlacedRows h w r = .ok r₂ ∧ Handed h (some w) r r₁ ∧
      Waits h w r₁ r₂ ∧ Going h r₂ ∧
      (r₂.rowNumber, r₂.pass) = afterScanline h r.rowNumber r.pass by
    obtain ⟨r₁, r₂, eq, handed, waits, going₂, position⟩ := run
    refine ⟨r₂, eq, ⟨r₁, handed, waits⟩, going₂, fun more => ?_⟩
    have row : r₂.rowNumber = _ := congrArg Prod.fst position
    have pass : r₂.pass = _ := congrArg Prod.snd position
    rw [Due, row, pass]
    exact afterScanline_due passes going.inside (going.nonempty passes) due (pass ▸ more)
  by_cases first : r.pass = 0
  · rw [first] at covers ⊢
    exact haveInterlacedRows_first going first due covers
  have shown (pass n : Nat) (here : r.pass = pass)
      (block : pngPassYstart pass + (n + 1) = pngPassYinc pass) :=
    haveRows_due (w := w) going (here ▸ passes) here due block (here ▸ covers)
  unfold haveInterlacedRows
  clear covers
  generalize here : r.pass = pass at passes first
  interval_cases pass
  · exact absurd rfl first
  · obtain ⟨r₁, a, eqA, handed, waitsA, goingA, startA, posA⟩ := shown 1 7 here rfl
    obtain ⟨b, eqB, waitsB, goingB, -, posB⟩ :=
      haveRows_skipped 2 4 goingA (startA.mono (by omega)) (by decide)
    refine ⟨r₁, b, ?_, handed, waitsA.trans waitsB, goingB, by rw [posB, posA]; rfl⟩
    rw [eqA, ok_bind, eqB]
    rfl
  · obtain ⟨r₁, a, eqA, handed, waitsA, goingA, startA, posA⟩ := shown 2 3 here rfl
    obtain ⟨b, eqB, waitsB, goingB, startB, posB⟩ :=
      haveRows_skipped 2 4 goingA (startA.mono (by omega)) (by decide)
    obtain ⟨c, eqC, waitsC, goingC, -, posC⟩ :=
      haveRows_skipped 4 2 goingB (startB.mono (by omega)) (by decide)
    refine ⟨r₁, c, ?_, handed, (waitsA.trans waitsB).trans waitsC, goingC, ?_⟩
    · rw [eqA, ok_bind, eqB, ok_bind, eqC]
      rfl
    · rw [posC, posB, posA]; rfl
  · obtain ⟨r₁, a, eqA, handed, waitsA, goingA, startA, posA⟩ := shown 3 3 here rfl
    obtain ⟨b, eqB, waitsB, goingB, -, posB⟩ :=
      haveRows_skipped 4 2 goingA (startA.mono (by omega)) (by decide)
    refine ⟨r₁, b, ?_, handed, waitsA.trans waitsB, goingB, by rw [posB, posA]; rfl⟩
    rw [eqA, ok_bind, eqB]
    rfl
  · obtain ⟨r₁, a, eqA, handed, waitsA, goingA, startA, posA⟩ := shown 4 1 here rfl
    obtain ⟨b, eqB, waitsB, goingB, startB, posB⟩ :=
      haveRows_skipped 4 2 goingA (startA.mono (by omega)) (by decide)
    obtain ⟨c, eqC, waitsC, goingC, -, posC⟩ :=
      haveRows_skipped 6 1 goingB (startB.mono (by omega)) (by decide)
    refine ⟨r₁, c, ?_, handed, (waitsA.trans waitsB).trans waitsC, goingC, ?_⟩
    · rw [eqA, ok_bind, eqB, ok_bind, onlyIf_last, eqC]
      rfl
    · rw [posC, posB, posA]; rfl
  · obtain ⟨r₁, a, eqA, handed, waitsA, goingA, startA, posA⟩ := shown 5 1 here rfl
    obtain ⟨b, eqB, waitsB, goingB, -, posB⟩ :=
      haveRows_skipped 6 1 goingA (startA.mono (by omega)) (by decide)
    refine ⟨r₁, b, ?_, handed, waitsA.trans waitsB, goingB, by rw [posB, posA]; rfl⟩
    rw [eqA, ok_bind, onlyIf_last, eqB]
    rfl
  · obtain ⟨r₁, a, eqA, handed, waitsA, goingA, startA, posA⟩ := shown 6 0 here rfl
    obtain ⟨b, eqB, waitsB, goingB, -, posB⟩ :=
      haveRows_skipped 6 1 goingA (startA.mono (by omega)) (by decide)
    refine ⟨r₁, b, ?_, handed, waitsA.trans waitsB, goingB, by rw [posB, posA]; rfl⟩
    rw [haveRows_one h _ r here, eqA, ok_bind, onlyIf_last, eqB]
    rfl

end PngDecode.Decoder
