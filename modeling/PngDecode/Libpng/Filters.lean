import Mathlib.Data.UInt
import PngDecode.Lib.Prediction
import PngDecode.Libpng.Chunks
import PngDecode.Libpng.Rows

/-! # The filters of the writer

`png_write_find_filter` stores a row through the filter whose bytes are the smallest, and gives up a
filter as soon as it cannot win. Whatever it chooses, `png_read_filter_row` finds the row again. -/

namespace PngDecode.Libpng
open PngDecode.Lib

/-! ## One filter -/

/-- Byte `i` of a row less the prediction that `unfilterRow` makes for it. -/
def filterByte (bpp : Nat) (first : UInt8 → UInt8) (next : UInt8 → UInt8 → UInt8 → UInt8)
    (row prev : List UInt8) (i : Nat) : UInt8 :=
  row.getD i 0 -
    if i < bpp then first (prev.getD i 0)
    else next (row.getD (i - bpp) 0) (prev.getD i 0) (prev.getD (i - bpp) 0)

/-- `png_setup_.._row_only`: the row behind the filter byte `filter`. -/
def setupRowOnly (filter : UInt8) (byte : Nat → UInt8) (n : Nat) : List UInt8 :=
  filter :: (List.range n).map byte

def distance (v : UInt8) : Nat := if v < 128 then v.toNat else 256 - v.toNat

/-- The loops of `png_setup_.._row` over the bytes `todo`: from byte `free` on they end once the sum
is larger than `lmins`. -/
def setupLoop (byte : Nat → UInt8) (free lmins : Nat) :
    List Nat → Nat → List UInt8 → Nat × List UInt8
  | [], sum, tryRow => (sum, tryRow)
  | i :: todo, sum, tryRow =>
    let v := byte i
    if free ≤ i ∧ sum + distance v > lmins then (sum + distance v, tryRow ++ [v])
    else setupLoop byte free lmins todo (sum + distance v) (tryRow ++ [v])

/-- `png_setup_.._row`: the sum, and the part of `try_row` that has been written. -/
def setupRow (filter : UInt8) (byte : Nat → UInt8) (free n lmins : Nat) : Nat × List UInt8 :=
  setupLoop byte free lmins (List.range n) 0 [filter]

def paethChoice (left above aboveLeft : UInt8) : UInt8 :=
  let a : Int := left.toNat
  let b : Int := above.toNat
  let c : Int := aboveLeft.toNat
  let p := b - c
  let pc := a - c
  let pa := p.natAbs
  let pb := pc.natAbs
  let pc := (p + pc).natAbs
  if pa ≤ pb ∧ pa ≤ pc then left else if pb ≤ pc then above else aboveLeft

def subByte (bpp : Nat) (row : List UInt8) : Nat → UInt8 :=
  filterByte bpp (fun _ => 0) (fun left _ _ => left) row []

def upByte (row prev : List UInt8) : Nat → UInt8 := fun i => row.getD i 0 - prev.getD i 0

def avgByte (bpp : Nat) (row prev : List UInt8) : Nat → UInt8 :=
  filterByte bpp (· / 2) (fun left above _ => halfSum above left) row prev

def paethByte (bpp : Nat) (row prev : List UInt8) : Nat → UInt8 :=
  filterByte bpp id paethChoice row prev

/-! ## The choice of a filter -/

def pngFilterNone : UInt32 := 0x08
def pngFilterSub : UInt32 := 0x10
def pngFilterUp : UInt32 := 0x20
def pngFilterAvg : UInt32 := 0x40
def pngFilterPaeth : UInt32 := 0x80

/-- One of the filters: `only` without any test if it is the only one, and `setup` if it is one of
several. The state is `mins` with `best_row`. -/
def tryFilter (filterToDo flag : UInt32) (only : List UInt8) (setup : Nat → Nat × List UInt8)
    (s : Nat × List UInt8) : Nat × List UInt8 :=
  if filterToDo = flag then (s.1, only)
  else if filterToDo &&& flag ≠ 0 then
    let (sum, tryRow) := setup s.1
    if sum < s.1 then (sum, tryRow) else s
  else s

/-- `png_write_find_filter`: the row with its filter byte as it goes to `png_write_filtered_row`. -/
def pngWriteFindFilter (doFilter : UInt8) (ri : PngRowInfo) (row prev : List UInt8) : List UInt8 :=
  let bpp := (ri.pixelDepth + 7) >>> 3
  let n := ri.rowbytes
  let large := pngSizeMax / 128 ≤ n
  let filterToDo := if large then doFilter.toUInt32 &&& -doFilter.toUInt32 else doFilter.toUInt32
  let mins :=
    if ¬ large ∧ filterToDo &&& pngFilterNone ≠ 0 ∧ filterToDo ≠ pngFilterNone then
      ((List.range n).map fun i => distance (row.getD i 0)).sum
    else pngSizeMax - 256
  let s := (mins, 0 :: row)
  let s := tryFilter filterToDo pngFilterSub (setupRowOnly 1 (subByte bpp row) n)
    (setupRow 1 (subByte bpp row) bpp n) s
  let s := tryFilter filterToDo pngFilterUp (setupRowOnly 2 (upByte row prev) n)
    (setupRow 2 (upByte row prev) 0 n) s
  let s := tryFilter filterToDo pngFilterAvg (setupRowOnly 3 (avgByte bpp row prev) n)
    (setupRow 3 (avgByte bpp row prev) bpp n) s
  let s := tryFilter filterToDo pngFilterPaeth (setupRowOnly 4 (paethByte bpp row prev) n)
    (setupRow 4 (paethByte bpp row prev) bpp n) s
  s.2

example : pngWriteFindFilter 0xf8 ⟨4, 4, 0, 8, 1, 8⟩ [10, 20, 30, 40] [10, 20, 30, 41] =
    [2, 0, 0, 0, 255] := by decide

/-! ## A filter and its inverse -/

variable {bpp : Nat} {first : UInt8 → UInt8} {next next' : UInt8 → UInt8 → UInt8 → UInt8}
  {row prev prev' : List UInt8}

theorem paethChoice_eq : paethChoice = paethPredictor := by
  funext left above aboveLeft
  unfold paethChoice paethPredictor
  dsimp only
  generalize ((above.toNat : Int) - aboveLeft.toNat).natAbs = pa
  generalize ((left.toNat : Int) - aboveLeft.toNat).natAbs = pb
  generalize ((above.toNat : Int) - aboveLeft.toNat + (left.toNat - aboveLeft.toNat)).natAbs = pc
  by_cases nearer : pb < pa
  · rw [if_neg (by omega), if_pos nearer]
    by_cases last : pc < pb
    · rw [if_neg (by omega), if_pos last]
    · rw [if_pos (by omega), if_neg last]
  · rw [if_neg nearer]
    by_cases last : pc < pa
    · rw [if_neg (by omega), if_neg (by omega), if_pos last]
    · rw [if_pos (by omega), if_neg last]

def prediction (bpp : Nat) (first : UInt8 → UInt8) (next : UInt8 → UInt8 → UInt8 → UInt8)
    (prev seen : List UInt8) : UInt8 :=
  if seen.length < bpp then first (prev.getD seen.length 0)
  else next (seen.getD (seen.length - bpp) 0) (prev.getD seen.length 0)
    (prev.getD (seen.length - bpp) 0)

theorem upByte_eq (bpp : Nat) (row prev : List UInt8) :
    upByte row prev = filterByte bpp id (fun _ above _ => above) row prev := by
  funext i
  simp [upByte, filterByte]

theorem unfilterRow_restored (bpp : Nat) (first : UInt8 → UInt8)
    (next : UInt8 → UInt8 → UInt8 → UInt8) (stored prev : List UInt8) :
    unfilterRow bpp first next stored prev =
      restoredFrom (prediction bpp first next prev) [] stored := by
  -- the bytes of `done` have been unfiltered to `seen`
  suffices ∀ (rest done seen : List UInt8), done.length = seen.length → stored = done ++ rest →
      (List.range' seen.length rest.length).foldl (fun out i => out ++ [stored.getD i 0 +
        if i < bpp then first (prev.getD i 0)
        else next (out.getD (i - bpp) 0) (prev.getD i 0) (prev.getD (i - bpp) 0)]) seen =
        seen ++ restoredFrom (prediction bpp first next prev) seen rest by
    rw [unfilterRow, List.range_eq_range']
    exact this stored [] [] rfl rfl
  intro rest
  induction rest with
  | nil => simp [restoredFrom]
  | cons d rest ih =>
    intro done seen same all
    have here : stored.getD seen.length 0 = d := by simp [all, ← same]
    have next' := ih (done ++ [d]) (seen ++ [d + prediction bpp first next prev seen])
      (by simp [same]) (by simp [all])
    rw [List.length_append, List.length_singleton] at next'
    rw [List.length_cons, List.range'_succ, List.foldl_cons, here, restoredFrom]
    exact next'.trans (List.append_assoc _ _ _)

theorem filterRow_residuals (positive : 0 < bpp) (row prev : List UInt8) :
    (List.range row.length).map (filterByte bpp first next row prev) =
      residualsFrom (prediction bpp first next prev) [] row := by
  suffices ∀ rest seen : List UInt8, row = seen ++ rest →
      (List.range' seen.length rest.length).map (filterByte bpp first next row prev) =
        residualsFrom (prediction bpp first next prev) seen rest by
    rw [List.range_eq_range']
    exact this row [] rfl
  intro rest
  induction rest with
  | nil => simp [residualsFrom]
  | cons x rest ih =>
    intro seen all
    have here : filterByte bpp first next row prev seen.length =
        x - prediction bpp first next prev seen := by
      unfold filterByte prediction
      by_cases early : seen.length < bpp
      · simp [all, early]
      · have left : seen.length - bpp < seen.length := by omega
        simp [all, early, List.getElem?_append_left left]
    have next' := ih (seen ++ [x]) (by simp [all])
    rw [List.length_append, List.length_singleton] at next'
    rw [List.length_cons, List.range'_succ, List.map_cons, here, residualsFrom, next']

theorem unfilterRow_prev {stored : List UInt8}
    (same : ∀ i < stored.length, prev'.getD i 0 = prev.getD i 0) :
    unfilterRow bpp first next stored prev' = unfilterRow bpp first next stored prev := by
  unfold unfilterRow
  apply List.foldl_ext
  intro out i member
  have inside : i < stored.length := List.mem_range.mp member
  simp only [same i inside, same (i - bpp) (by omega)]

theorem unfilterRow_filterRow (positive : 0 < bpp)
    (same : ∀ i < row.length, prev'.getD i 0 = prev.getD i 0) :
    unfilterRow bpp first next ((List.range row.length).map (filterByte bpp first next row prev))
      prev' = row := by
  rw [unfilterRow_prev (by simpa using same), unfilterRow_restored, filterRow_residuals positive,
    restoredFrom_residuals]

structure StoredAs (ri : PngRowInfo) (row prev line : List UInt8) : Prop where
  length : line.length = row.length + 1
  filter : line.getD 0 0 < 5
  read : pngReadFilterRow ri (line.drop 1) prev (line.getD 0 0) = row

/-! ## The filter that is chosen -/

theorem setupLoop_complete (byte : Nat → UInt8) (free lmins : Nat) (todo : List Nat) (sum : Nat)
    (tryRow : List UInt8) (kept : (setupLoop byte free lmins todo sum tryRow).1 ≤ lmins) :
    (setupLoop byte free lmins todo sum tryRow).2 = tryRow ++ todo.map byte := by
  induction todo generalizing sum tryRow with
  | nil => simp [setupLoop]
  | cons i todo ih =>
    unfold setupLoop at kept ⊢
    dsimp only at kept ⊢
    split
    · next broken =>
      rw [if_pos broken] at kept
      exact absurd broken.2 (Nat.not_lt.mpr kept)
    · next more =>
      rw [if_neg more] at kept
      rw [ih _ _ kept, List.map_cons, List.append_assoc, List.singleton_append]

theorem setupRow_complete {filter : UInt8} {byte : Nat → UInt8} {free n lmins : Nat}
    (less : (setupRow filter byte free n lmins).1 < lmins) :
    (setupRow filter byte free n lmins).2 = setupRowOnly filter byte n :=
  setupLoop_complete byte free lmins (List.range n) 0 [filter] (Nat.le_of_lt less)

def total (row : List UInt8) : Nat := (row.map distance).sum

/-- Whether a loop is broken off or not, its sum is less than the bound only if the whole row's is. -/
theorem setupLoop_sum (byte : Nat → UInt8) (free lmins : Nat) (todo : List Nat) (sum : Nat)
    (tryRow : List UInt8) :
    (setupLoop byte free lmins todo sum tryRow).1 = sum + total (todo.map byte) ∨
      lmins < (setupLoop byte free lmins todo sum tryRow).1 ∧
        lmins < sum + total (todo.map byte) := by
  induction todo generalizing sum tryRow with
  | nil => exact .inl rfl
  | cons i todo ih =>
    have cons : total ((i :: todo).map byte) = distance (byte i) + total (todo.map byte) := by
      simp [total]
    unfold setupLoop
    dsimp only
    rw [cons, ← Nat.add_assoc]
    split
    · next broken => exact .inr ⟨broken.2, Nat.lt_of_lt_of_le broken.2 (Nat.le_add_right _ _)⟩
    · exact ih _ _

theorem setupRow_sum (filter : UInt8) (byte : Nat → UInt8) (free n lmins : Nat) :
    (setupRow filter byte free n lmins).1 = total ((setupRowOnly filter byte n).drop 1) ∨
      lmins < (setupRow filter byte free n lmins).1 ∧
        lmins < total ((setupRowOnly filter byte n).drop 1) := by
  have sum := setupLoop_sum byte free lmins (List.range n) 0 [filter]
  rw [Nat.zero_add] at sum
  exact sum

/-- A filter that was given up half way is never chosen. -/
theorem tryFilter_keeps {P : List UInt8 → Prop} {filterToDo flag : UInt32} {filter : UInt8}
    {byte : Nat → UInt8} {free n : Nat} {s : Nat × List UInt8} (best : P s.2)
    (whole : filterToDo = flag ∨ filterToDo &&& flag ≠ 0 → P (setupRowOnly filter byte n)) :
    P (tryFilter filterToDo flag (setupRowOnly filter byte n) (setupRow filter byte free n) s).2 := by
  unfold tryFilter
  split
  · next only => exact whole (.inl only)
  split
  · next some =>
    dsimp only
    split
    · next less =>
      rw [setupRow_complete less]
      exact whole (.inr some)
    · exact best
  · exact best

/-! ## The least sum -/

/-- Of the lines whose bytes have the least sum, the first one. -/
def FirstLeast (lines : List (List UInt8)) (best : List UInt8) : Prop :=
  ∃ earlier later, lines = earlier ++ best :: later ∧
    (∀ line ∈ earlier, total (best.drop 1) < total (line.drop 1)) ∧
    ∀ line ∈ later, total (best.drop 1) ≤ total (line.drop 1)

theorem FirstLeast.keep {lines : List (List UInt8)} {best line : List UInt8}
    (least : FirstLeast lines best) (larger : total (best.drop 1) ≤ total (line.drop 1)) :
    FirstLeast (lines ++ [line]) best := by
  obtain ⟨earlier, later, rfl, less, few⟩ := least
  refine ⟨earlier, later ++ [line], by simp, less, fun other member => ?_⟩
  rcases List.mem_append.mp member with old | new
  · exact few other old
  · rw [List.mem_singleton.mp new]
    exact larger

theorem FirstLeast.replace {lines : List (List UInt8)} {best line : List UInt8}
    (least : FirstLeast lines best) (smaller : total (line.drop 1) < total (best.drop 1)) :
    FirstLeast (lines ++ [line]) line := by
  obtain ⟨earlier, later, rfl, less, few⟩ := least
  refine ⟨earlier ++ best :: later, [], rfl, fun other member => ?_, by simp⟩
  rcases List.mem_append.mp member with old | new
  · exact Nat.lt_trans smaller (less other old)
  rcases List.mem_cons.mp new with rfl | new
  · exact smaller
  · exact Nat.lt_of_lt_of_le smaller (few other new)

def Least (limit : Nat) (tried : List (List UInt8)) (s : Nat × List UInt8) : Prop :=
  tried = [] ∧ s.1 = limit ∨ s.1 = total (s.2.drop 1) ∧ FirstLeast tried s.2

theorem Least.tryFilter {limit : Nat} {tried : List (List UInt8)} {filterToDo flag : UInt32}
    {s : Nat × List UInt8} (filter : UInt8) (byte : Nat → UInt8) (free n : Nat)
    (least : Least limit tried s) (several : filterToDo ≠ flag)
    (small : total ((setupRowOnly filter byte n).drop 1) < limit) :
    Least limit (tried ++ if filterToDo &&& flag ≠ 0 then [setupRowOnly filter byte n] else [])
      (tryFilter filterToDo flag (setupRowOnly filter byte n) (setupRow filter byte free n) s) := by
  unfold Libpng.tryFilter
  rw [if_neg several]
  by_cases chosen : filterToDo &&& flag ≠ 0
  · rw [if_pos chosen, if_pos chosen]
    dsimp only
    have sum := setupRow_sum filter byte free n s.1
    split
    · next less =>
      -- the loop has run to its end
      have whole := sum.resolve_right fun broken => Nat.lt_asymm broken.1 less
      refine .inr ⟨by rw [whole, setupRow_complete less], ?_⟩
      rw [setupRow_complete less]
      rcases least with ⟨rfl, -⟩ | ⟨best, first⟩
      · exact ⟨[], [], rfl, by simp, by simp⟩
      · exact first.replace (by rw [← whole, ← best]; exact less)
    · next more =>
      have larger : s.1 ≤ total ((setupRowOnly filter byte n).drop 1) := by
        rcases sum with whole | broken
        · rw [← whole]
          exact Nat.le_of_not_lt more
        · exact Nat.le_of_lt broken.2
      rcases least with ⟨-, first⟩ | ⟨best, first⟩
      · rw [first] at larger
        exact absurd small (Nat.not_lt.mpr larger)
      · exact .inr ⟨best, first.keep (by rw [← best]; exact larger)⟩
  · rw [if_neg chosen, if_neg chosen, List.append_nil]
    exact least

def filterLines (ri : PngRowInfo) (row prev : List UInt8) : List (UInt32 × List UInt8) :=
  let bpp := (ri.pixelDepth + 7) >>> 3
  let n := ri.rowbytes
  [(pngFilterNone, 0 :: row), (pngFilterSub, setupRowOnly 1 (subByte bpp row) n),
    (pngFilterUp, setupRowOnly 2 (upByte row prev) n),
    (pngFilterAvg, setupRowOnly 3 (avgByte bpp row prev) n),
    (pngFilterPaeth, setupRowOnly 4 (paethByte bpp row prev) n)]

def askedLines (flags : UInt32) (lines : List (UInt32 × List UInt8)) : List (List UInt8) :=
  (lines.filter fun d => flags &&& d.1 ≠ 0).map (·.2)

theorem askedLines_cons (flags : UInt32) (d : UInt32 × List UInt8)
    (lines : List (UInt32 × List UInt8)) : askedLines flags (d :: lines) =
      (if flags &&& d.1 ≠ 0 then [d.2] else []) ++ askedLines flags lines := by
  unfold askedLines
  by_cases asked : flags &&& d.1 ≠ 0
  · rw [List.filter_cons_of_pos (by simpa using asked), if_pos asked]
    rfl
  · rw [List.filter_cons_of_neg (by simpa using asked), if_neg asked]
    rfl

theorem total_le (row : List UInt8) : total row ≤ 128 * row.length := by
  induction row with
  | nil => simp [total]
  | cons v row ih =>
    have most : distance v ≤ 128 := by
      unfold distance
      split
      · next small => exact Nat.le_of_lt (UInt8.lt_iff_toNat_lt.mp small)
      · next large =>
        have := UInt8.lt_iff_toNat_lt.not.mp large
        have : (128 : UInt8).toNat = 128 := rfl
        omega
    simp only [total, List.map_cons, List.sum_cons, List.length_cons] at ih ⊢
    omega

theorem tryFilter_only {flag : UInt32} {only : List UInt8} {setup : Nat → Nat × List UInt8}
    {s : Nat × List UInt8} : tryFilter flag flag only setup s = (s.1, only) := if_pos rfl

theorem tryFilter_other {filterToDo flag : UInt32} {only : List UInt8}
    {setup : Nat → Nat × List UInt8} {s : Nat × List UInt8} (several : filterToDo ≠ flag)
    (other : filterToDo &&& flag = 0) : tryFilter filterToDo flag only setup s = s := by
  rw [tryFilter, if_neg several, if_neg (not_not.mpr other)]

theorem pngWriteFindFilter_least {ri : PngRowInfo} {doFilter : UInt8}
    (full : row.length = ri.rowbytes) (fits : 128 * ri.rowbytes < pngSizeMax - 256)
    (some : askedLines doFilter.toUInt32 (filterLines ri row prev) ≠ []) :
    FirstLeast (askedLines doFilter.toUInt32 (filterLines ri row prev))
      (pngWriteFindFilter doFilter ri row prev) := by
  have small : ¬ pngSizeMax / 128 ≤ ri.rowbytes := by
    unfold pngSizeMax at fits ⊢
    omega
  have inside (filter : UInt8) (byte : Nat → UInt8) :
      total ((setupRowOnly filter byte ri.rowbytes).drop 1) < pngSizeMax - 256 := by
    refine Nat.lt_of_le_of_lt (total_le _) ?_
    simpa [setupRowOnly] using fits
  unfold pngWriteFindFilter
  dsimp only
  rw [if_neg small]
  generalize doFilter.toUInt32 = flags at some
  by_cases single : flags ∈ (filterLines ri row prev).map (·.1)
  · obtain ⟨c, member, rfl⟩ := List.mem_map.mp single
    have only : askedLines c.1 (filterLines ri row prev) = [c.2] := by
      simp only [filterLines, List.mem_cons, List.not_mem_nil, or_false] at member
      rcases member with rfl | rfl | rfl | rfl | rfl <;> simp +decide [askedLines, filterLines]
    refine ⟨[], [], only.trans (congrArg (· :: []) ?_), by simp, by simp⟩
    simp only [filterLines, List.mem_cons, List.not_mem_nil, or_false] at member
    rcases member with rfl | rfl | rfl | rfl | rfl <;> dsimp only
    · rw [tryFilter_other, tryFilter_other, tryFilter_other, tryFilter_other] <;> decide
    · rw [tryFilter_other, tryFilter_other, tryFilter_other, tryFilter_only] <;> decide
    · rw [tryFilter_other, tryFilter_other, tryFilter_only] <;> decide
    · rw [tryFilter_other, tryFilter_only] <;> decide
    · rw [tryFilter_only]
  · have several : flags ≠ pngFilterNone ∧ flags ≠ pngFilterSub ∧ flags ≠ pngFilterUp ∧
        flags ≠ pngFilterAvg ∧ flags ≠ pngFilterPaeth := by
      simpa [filterLines, eq_comm] using single
    obtain ⟨notNone, notSub, notUp, notAvg, notPaeth⟩ := several
    -- the row itself is tried first
    generalize start : (if ¬ pngSizeMax / 128 ≤ ri.rowbytes ∧ flags &&& pngFilterNone ≠ 0 ∧
      flags ≠ pngFilterNone then ((List.range ri.rowbytes).map fun i => distance (row.getD i 0)).sum
      else pngSizeMax - 256) = mins
    have first : Least (pngSizeMax - 256) (if flags &&& pngFilterNone ≠ 0 then [0 :: row] else [])
        (mins, 0 :: row) := by
      by_cases chosen : flags &&& pngFilterNone ≠ 0
      · rw [if_pos ⟨small, chosen, notNone⟩] at start
        have sum : mins = total row := by
          rw [← start, ← full, total]
          congr 1
          apply List.ext_getElem
          · simp
          · intro i _ inside
            have inside : i < row.length := by simpa using inside
            simp [inside]
        rw [if_pos chosen]
        exact .inr ⟨sum, [], [], rfl, by simp, by simp⟩
      · rw [if_neg (by exact fun all => chosen all.2.1)] at start
        rw [if_neg chosen]
        exact .inl ⟨rfl, start.symm⟩
    have sub := first.tryFilter 1 (subByte ((ri.pixelDepth + 7) >>> 3) row)
      ((ri.pixelDepth + 7) >>> 3) ri.rowbytes notSub (inside ..)
    have up := sub.tryFilter 2 (upByte row prev) 0 ri.rowbytes notUp (inside ..)
    have avg := up.tryFilter 3 (avgByte ((ri.pixelDepth + 7) >>> 3) row prev)
      ((ri.pixelDepth + 7) >>> 3) ri.rowbytes notAvg (inside ..)
    have paeth := avg.tryFilter 4 (paethByte ((ri.pixelDepth + 7) >>> 3) row prev)
      ((ri.pixelDepth + 7) >>> 3) ri.rowbytes notPaeth (inside ..)
    have none : askedLines flags [] = [] := rfl
    simp only [filterLines, askedLines_cons, none, List.append_nil, ← List.append_assoc] at some ⊢
    exact (paeth.resolve_left fun none => some none.1).2

def needsPrevRow (doFilter : UInt8) : Bool := doFilter &&& 0xe0 ≠ 0

theorem needsPrevRow_tried {doFilter : UInt8} {filterToDo flag : UInt32}
    (among : filterToDo = doFilter.toUInt32 ∨
      filterToDo = doFilter.toUInt32 &&& -doFilter.toUInt32)
    (tried : filterToDo = flag ∨ filterToDo &&& flag ≠ 0) (above : flag &&& 0xe0 = flag)
    (some : flag ≠ 0) : needsPrevRow doFilter = true := by
  have chosen : filterToDo &&& flag ≠ 0 := by
    rcases tried with rfl | chosen
    · rw [UInt32.and_self]
      exact some
    · exact chosen
  have wide : doFilter.toUInt32 &&& 0xe0 ≠ 0 := by
    intro none
    have nothing : doFilter.toUInt32 &&& flag = 0 := by
      rw [← above, UInt32.and_comm flag, ← UInt32.and_assoc, none, UInt32.zero_and]
    rcases among with rfl | rfl
    · exact chosen nothing
    · rw [UInt32.and_assoc, UInt32.and_comm (-_), ← UInt32.and_assoc, nothing,
        UInt32.zero_and] at chosen
      exact chosen rfl
  unfold needsPrevRow
  rw [decide_eq_true_eq]
  intro none
  apply wide
  have := congrArg UInt8.toUInt32 none
  rwa [UInt8.toUInt32_and] at this

section Find
variable {ri : PngRowInfo} (full : row.length = ri.rowbytes) (deep : 0 < ri.pixelDepth)
include full deep

theorem setupRowOnly_stored {filter : UInt8} (small : filter < 5)
    (same : ∀ i < row.length, prev'.getD i 0 = prev.getD i 0)
    (filters : ∀ stored prev, pngReadFilterRow ri stored prev filter =
      unfilterRow ((ri.pixelDepth + 7) >>> 3) first next stored prev) :
    StoredAs ri row prev' (setupRowOnly filter
      (filterByte ((ri.pixelDepth + 7) >>> 3) first next row prev) ri.rowbytes) := by
  have positive : 0 < (ri.pixelDepth + 7) >>> 3 := by
    rw [Nat.shiftRight_eq_div_pow]
    omega
  refine ⟨by simp [setupRowOnly, full], small, ?_⟩
  rw [show (setupRowOnly filter (filterByte ((ri.pixelDepth + 7) >>> 3) first next row prev)
    ri.rowbytes).getD 0 0 = filter from rfl, filters, ← full]
  exact unfilterRow_filterRow positive same

theorem subRow_stored : StoredAs ri row prev'
    (setupRowOnly 1 (subByte ((ri.pixelDepth + 7) >>> 3) row) ri.rowbytes) := by
  -- this filter looks at no previous row
  have any : subByte ((ri.pixelDepth + 7) >>> 3) row =
      filterByte ((ri.pixelDepth + 7) >>> 3) (fun _ => 0) (fun left _ _ => left) row prev' := rfl
  rw [any]
  exact setupRowOnly_stored full deep (by decide) (fun _ _ => rfl) fun _ _ => rfl

variable (same : ∀ i < row.length, prev'.getD i 0 = prev.getD i 0)
include same

theorem upRow_stored : StoredAs ri row prev' (setupRowOnly 2 (upByte row prev) ri.rowbytes) := by
  rw [upByte_eq ((ri.pixelDepth + 7) >>> 3)]
  exact setupRowOnly_stored full deep (by decide) same fun _ _ => rfl

theorem avgRow_stored : StoredAs ri row prev'
    (setupRowOnly 3 (avgByte ((ri.pixelDepth + 7) >>> 3) row prev) ri.rowbytes) :=
  setupRowOnly_stored full deep (by decide) same fun _ _ => rfl

theorem paethRow_stored : StoredAs ri row prev'
    (setupRowOnly 4 (paethByte ((ri.pixelDepth + 7) >>> 3) row prev) ri.rowbytes) := by
  unfold paethByte
  rw [paethChoice_eq]
  exact setupRowOnly_stored full deep (by decide) same fun _ _ => rfl

end Find

theorem pngWriteFindFilter_stored {ri : PngRowInfo} (doFilter : UInt8)
    (full : row.length = ri.rowbytes) (deep : 0 < ri.pixelDepth)
    (same : needsPrevRow doFilter = true → ∀ i < row.length, prev'.getD i 0 = prev.getD i 0) :
    StoredAs ri row prev' (pngWriteFindFilter doFilter ri row prev) := by
  unfold pngWriteFindFilter
  dsimp only
  generalize toDo : (if pngSizeMax / 128 ≤ ri.rowbytes then
    doFilter.toUInt32 &&& -doFilter.toUInt32 else doFilter.toUInt32) = filterToDo
  have among : filterToDo = doFilter.toUInt32 ∨
      filterToDo = doFilter.toUInt32 &&& -doFilter.toUInt32 := by
    rw [← toDo]
    split
    · exact .inr rfl
    · exact .inl rfl
  have none : StoredAs ri row prev' (0 :: row) := ⟨rfl, show (0 : UInt8) < 5 by decide, rfl⟩
  apply tryFilter_keeps
  · apply tryFilter_keeps
    · apply tryFilter_keeps
      · exact tryFilter_keeps (by exact none) fun _ => subRow_stored full deep
      · intro tried
        exact upRow_stored full deep (same (needsPrevRow_tried among tried rfl (by decide)))
    · intro tried
      exact avgRow_stored full deep (same (needsPrevRow_tried among tried rfl (by decide)))
  · intro tried
    exact paethRow_stored full deep (same (needsPrevRow_tried among tried rfl (by decide)))

/-- The reader finds the row in the line that is stored, whatever filters are asked for; if the row is
not too long for the sums and there is such a filter, it is the first of the least lines. -/
theorem pngWriteFindFilter_least_stored {ri : PngRowInfo} (doFilter : UInt8)
    (full : row.length = ri.rowbytes) (deep : 0 < ri.pixelDepth)
    (same : needsPrevRow doFilter = true → ∀ i < row.length, prev'.getD i 0 = prev.getD i 0) :
    StoredAs ri row prev' (pngWriteFindFilter doFilter ri row prev) ∧
      (128 * ri.rowbytes < pngSizeMax - 256 →
        askedLines doFilter.toUInt32 (filterLines ri row prev) ≠ [] →
        FirstLeast (askedLines doFilter.toUInt32 (filterLines ri row prev))
          (pngWriteFindFilter doFilter ri row prev)) :=
  ⟨pngWriteFindFilter_stored doFilter full deep same, pngWriteFindFilter_least full⟩

/-- The Sub and the Paeth line have the least sum, and Sub is tried first. -/
theorem pngWriteFindFilter_least_stored_gray :
    StoredAs ⟨4, 4, 0, 8, 1, 8⟩ [10, 20, 30, 40] []
      (pngWriteFindFilter 0xd8 ⟨4, 4, 0, 8, 1, 8⟩ [10, 20, 30, 40] []) ∧
    FirstLeast (askedLines (0xd8 : UInt8).toUInt32
        (filterLines ⟨4, 4, 0, 8, 1, 8⟩ [10, 20, 30, 40] []))
      [1, 10, 10, 10, 10] := by
  obtain ⟨stored, least⟩ := @pngWriteFindFilter_least_stored [10, 20, 30, 40] [] []
    ⟨4, 4, 0, 8, 1, 8⟩ 0xd8 rfl (by decide) fun _ _ _ => rfl
  have line : pngWriteFindFilter 0xd8 ⟨4, 4, 0, 8, 1, 8⟩ [10, 20, 30, 40] [] =
      [1, 10, 10, 10, 10] := by decide
  exact ⟨stored, line ▸ least (by decide) (by decide)⟩

end PngDecode.Libpng
