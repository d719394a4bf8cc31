import Mathlib.Data.List.Basic
import Mathlib.Data.List.GetD

/-! # Byte buffers

Overwriting a range of a buffer, little-endian words, and rows of equally wide pixels. -/

namespace PngDecode.Lib

/-! ## Overwriting a range -/

section Overwrite
variable {α : Type*}

/-- `bs` written over `mem` from `off` on; what does not fit is dropped. -/
def overwrite (mem : List α) (off : Nat) (bs : List α) : List α :=
  mem.take off ++ bs.take (mem.length - off) ++ mem.drop (off + bs.length)

@[simp] theorem overwrite_length (mem : List α) (off : Nat) (bs : List α) :
    (overwrite mem off bs).length = mem.length := by
  simp only [overwrite, List.length_append, List.length_take, List.length_drop]
  omega

@[simp] theorem overwrite_nil (mem : List α) (off : Nat) : overwrite mem off [] = mem := by
  simp [overwrite]

theorem overwrite_append (pre old new post : List α) (same : new.length = old.length) :
    overwrite (pre ++ old ++ post) pre.length new = pre ++ new ++ post := by
  have fits : (pre ++ old ++ post).length - pre.length = new.length + post.length := by
    simp only [List.length_append]; omega
  unfold overwrite
  rw [fits, List.take_of_length_le (i := new.length + post.length) (by omega), same]
  simp [List.append_assoc]

end Overwrite

/-! ## Little-endian words -/

def word32le (w : UInt32) : List UInt8 :=
  [w.toUInt8, (w >>> 8).toUInt8, (w >>> 16).toUInt8, (w >>> 24).toUInt8]

def readWord32le (mem : List UInt8) (off : Nat) : UInt32 :=
  (mem.getD off 0).toUInt32 ||| (mem.getD (off + 1) 0).toUInt32 <<< 8 |||
    (mem.getD (off + 2) 0).toUInt32 <<< 16 ||| (mem.getD (off + 3) 0).toUInt32 <<< 24

@[simp] theorem word32le_length (w : UInt32) : (word32le w).length = 4 := rfl

/-! ## Rows of pixels -/

section Pixels
variable {α β γ : Type*}

def mapPixels (k : Nat) (f : List α → List β) : Nat → List α → List β
  | 0, _ => []
  | n + 1, row => f (row.take k) ++ mapPixels k f n (row.drop k)

theorem mapPixels_flatMap (k : Nat) (f : List α → List β) (n : Nat) (pixel : Nat → List α)
    (wide : ∀ i < n, (pixel i).length = k) :
    mapPixels k f n ((List.range n).flatMap pixel) = (List.range n).flatMap fun i => f (pixel i) := by
  induction n generalizing pixel with
  | zero => rfl
  | succ n ih =>
    have head : (pixel 0).length = k := wide 0 (by omega)
    rw [List.range_succ_eq_map, List.flatMap_cons, List.flatMap_cons, List.flatMap_map,
      List.flatMap_map, mapPixels, List.take_left' head, List.drop_left' head,
      ih (fun i => pixel (i + 1)) (fun i hi => wide (i + 1) (by omega))]

theorem mapPixels_length (k m : Nat) (f : List α → List β) (n : Nat) (row : List α)
    (wide : ∀ px, px.length = k → (f px).length = m) (full : row.length = k * n) :
    (mapPixels k f n row).length = m * n := by
  induction n generalizing row with
  | zero => rfl
  | succ n ih =>
    rw [Nat.mul_succ] at full
    rw [mapPixels, List.length_append, wide _ (by rw [List.length_take]; omega),
      ih _ (by rw [List.length_drop]; omega), Nat.mul_succ, Nat.add_comm]

theorem mapPixels_getD (k m : Nat) (f : List α → List β) (n : Nat) (row : List α)
    (wide : ∀ px, px.length = k → (f px).length = m) (full : row.length = k * n)
    {i j : Nat} (hi : i < n) (hj : j < m) (d : β) :
    (mapPixels k f n row).getD (m * i + j) d = (f ((row.drop (k * i)).take k)).getD j d := by
  induction n generalizing row i with
  | zero => omega
  | succ n ih =>
    rw [Nat.mul_succ] at full
    have head : (f (row.take k)).length = m := wide _ (by rw [List.length_take]; omega)
    rw [mapPixels]
    cases i with
    | zero =>
      rw [List.getD_append _ _ _ _ (by omega)]
      simp
    | succ i =>
      rw [List.getD_append_right _ _ _ _ (by rw [head, Nat.mul_succ]; omega), head,
        show m * (i + 1) + j - m = m * i + j by rw [Nat.mul_succ]; omega,
        ih _ (by rw [List.length_drop]; omega) (by omega), List.drop_drop,
        show k + k * i = k * (i + 1) by rw [Nat.mul_succ, Nat.add_comm]]

def pixelAt (k : Nat) (row : List α) (i : Nat) : List α := (row.drop (k * i)).take k

theorem pixelAt_length {k n i : Nat} {row : List α} (full : row.length = k * n) (hi : i < n) :
    (pixelAt k row i).length = k := by
  have : k * (i + 1) ≤ k * n := Nat.mul_le_mul_left k hi
  rw [Nat.mul_succ] at this
  rw [pixelAt, List.length_take, List.length_drop]
  omega

theorem pixelAt_getD {k i j : Nat} (row : List α) (hj : j < k) (d : α) :
    (pixelAt k row i).getD j d = row.getD (k * i + j) d := by
  simp only [pixelAt, List.getD_eq_getElem?_getD, List.getElem?_take, hj, if_true,
    List.getElem?_drop]

theorem pixels_ext {k n : Nat} (positive : 0 < k) {row row' : List α} (full : row.length = k * n)
    (full' : row'.length = k * n) (same : ∀ i < n, pixelAt k row i = pixelAt k row' i) :
    row = row' := by
  apply List.ext_getElem?
  intro m
  by_cases inside : m < k * n
  · have pixel := same (m / k) (Nat.div_lt_of_lt_mul inside)
    have byte := congrArg (fun px => px[m % k]?) pixel
    simp only [pixelAt, List.getElem?_take, Nat.mod_lt m positive, if_true, List.getElem?_drop,
      Nat.div_add_mod] at byte
    exact byte
  · rw [List.getElem?_eq_none (by omega), List.getElem?_eq_none (by omega)]

theorem image_ext {k width height : Nat} (positive : 0 < k) {a b : List α}
    (full : a.length = k * width * height) (full' : b.length = k * width * height)
    (same : ∀ y < height, ∀ x < width, pixelAt k a (width * y + x) = pixelAt k b (width * y + x)) :
    a = b := by
  rw [Nat.mul_assoc] at full full'
  refine pixels_ext positive full full' fun i inside => ?_
  have wide : 0 < width := Nat.pos_of_ne_zero fun none => by simp [none] at inside
  have pixel := same (i / width) (Nat.div_lt_of_lt_mul inside) (i % width) (Nat.mod_lt i wide)
  rwa [Nat.div_add_mod] at pixel

theorem pixelAt_mapPixels (k m : Nat) (f : List α → List β) {n i : Nat} {row : List α}
    (wide : ∀ px, px.length = k → (f px).length = m) (full : row.length = k * n) (hi : i < n) :
    pixelAt m (mapPixels k f n row) i = f (pixelAt k row i) := by
  induction n generalizing row i with
  | zero => omega
  | succ n ih =>
    rw [Nat.mul_succ] at full
    have head : (f (row.take k)).length = m := wide _ (by rw [List.length_take]; omega)
    cases i with
    | zero => simp [pixelAt, mapPixels, List.take_left' head]
    | succ i =>
      have tail : (row.drop k).length = k * n := by rw [List.length_drop]; omega
      have rest := ih tail (i := i) (by omega)
      rw [pixelAt, mapPixels, Nat.mul_succ, Nat.add_comm, ← List.drop_drop, List.drop_left' head]
      rw [pixelAt] at rest
      rw [rest, pixelAt, pixelAt, List.drop_drop, Nat.mul_succ, Nat.add_comm]

theorem pixelAt_flatMap {k n i : Nat} {pixel : Nat → List α}
    (wide : ∀ i, (pixel i).length = k) (hi : i < n) :
    pixelAt k ((List.range n).flatMap pixel) i = pixel i := by
  induction n generalizing pixel i with
  | zero => omega
  | succ n ih =>
    rw [List.range_succ_eq_map, List.flatMap_cons, List.flatMap_map]
    cases i with
    | zero => simp [pixelAt, List.take_left' (wide 0)]
    | succ i =>
      have rest := ih (fun i => wide (i + 1)) (i := i) (by omega)
      rw [pixelAt] at rest ⊢
      rw [Nat.mul_succ, Nat.add_comm, ← List.drop_drop, List.drop_left' (wide 0)]
      exact rest

theorem pixelAt_drop (k m : Nat) (row : List α) (i : Nat) :
    pixelAt k (row.drop (k * m)) i = pixelAt k row (m + i) := by
  rw [pixelAt, pixelAt, List.drop_drop, Nat.mul_add]

theorem pixelAt_take {k m i : Nat} (row : List α) (hi : i < m) :
    pixelAt k (row.take (k * m)) i = pixelAt k row i := by
  have pixelEnd : k * (i + 1) ≤ k * m := Nat.mul_le_mul_left k hi
  rw [Nat.mul_succ] at pixelEnd
  rw [pixelAt, pixelAt, List.drop_take, List.take_take, Nat.min_eq_left (by omega)]

theorem pixelAt_append {k m : Nat} {front : List α} (full : front.length = k * m)
    (back : List α) (i : Nat) :
    pixelAt k (front ++ back) i = if i < m then pixelAt k front i else pixelAt k back (i - m) := by
  split
  · next inside =>
    rw [← pixelAt_take (front ++ back) inside, ← full, List.take_left]
  · next behind =>
    rw [← Nat.add_sub_cancel' (Nat.le_of_not_lt behind), ← pixelAt_drop, ← full, List.drop_left,
      Nat.add_sub_cancel_left]

theorem pixelAt_pixelAt {k m j : Nat} (row : List α) (i : Nat) (hj : j < m) :
    pixelAt k (pixelAt (k * m) row i) j = pixelAt k row (m * i + j) := by
  rw [← pixelAt_drop, ← Nat.mul_assoc, ← pixelAt_take (row.drop (k * m * i)) hj]
  rfl

theorem replicate_length {k : Nat} (n : Nat) {px : List α} (wide : px.length = k) :
    (List.replicate n px).flatten.length = k * n := by
  rw [List.length_flatten, List.map_replicate, List.sum_replicate_nat, wide, Nat.mul_comm]

theorem pixelAt_replicate {k inc n x : Nat} {row : List α} (positive : 0 < inc)
    (full : row.length = k * n) (hx : x < n * inc) :
    pixelAt k (mapPixels k (fun px => (List.replicate inc px).flatten) n row) x =
      pixelAt k row (x / inc) := by
  have inside : x / inc < n := Nat.div_lt_of_lt_mul (Nat.mul_comm n inc ▸ hx)
  have wide := pixelAt_length full inside
  have copies : (List.replicate inc (pixelAt k row (x / inc))).flatten =
      (List.range inc).flatMap fun _ => pixelAt k row (x / inc) := by
    rw [List.flatMap, List.map_const', List.length_range]
  calc pixelAt k (mapPixels k (fun px => (List.replicate inc px).flatten) n row) x
      = pixelAt k (pixelAt (k * inc) (mapPixels k (fun px => (List.replicate inc px).flatten) n row)
          (x / inc)) (x % inc) := by
        rw [pixelAt_pixelAt _ _ (Nat.mod_lt x positive), Nat.div_add_mod]
    _ = pixelAt k (List.replicate inc (pixelAt k row (x / inc))).flatten (x % inc) := by
        rw [pixelAt_mapPixels k (k * inc) _ (fun px => replicate_length inc) full inside]
    _ = pixelAt k row (x / inc) := by
        rw [copies, pixelAt_flatMap (fun _ => wide) (Nat.mod_lt x positive)]

theorem pixelAt_overwrite {k w h y : Nat} {image row : List α} (full : image.length = k * (w * h))
    (wide : row.length = k * w) (hy : y < h) {x z : Nat} (hx : x < w) :
    pixelAt k (overwrite image (k * w * y) row) (w * z + x) =
      if z = y then pixelAt k row x else pixelAt k image (w * z + x) := by
  have lineEnd : k * (w * (y + 1)) ≤ k * (w * h) :=
    Nat.mul_le_mul_left k (Nat.mul_le_mul_left w hy)
  have pixelEnd : k * (x + 1) ≤ k * w := Nat.mul_le_mul_left k hx
  have fits : row.take (image.length - k * w * y) = row := by
    rw [List.take_of_length_le]
    rw [Nat.mul_succ, Nat.mul_add, ← Nat.mul_assoc] at lineEnd
    omega
  have start : (image.take (k * w * y)).length = k * w * y := by
    rw [List.length_take]
    rw [Nat.mul_succ, Nat.mul_add, ← Nat.mul_assoc] at lineEnd
    omega
  have offset : k * (w * z + x) = k * w * z + k * x := by rw [Nat.mul_add, Nat.mul_assoc]
  rw [Nat.mul_succ] at pixelEnd
  unfold pixelAt overwrite
  rw [fits, offset]
  rcases Nat.lt_trichotomy z y with before | same | behind
  · have below : k * w * (z + 1) ≤ k * w * y := Nat.mul_le_mul_left _ before
    rw [Nat.mul_succ] at below
    rw [if_neg (by omega), List.append_assoc, List.drop_append_of_le_length (by omega),
      List.take_append_of_le_length (by rw [List.length_drop, start]; omega), List.drop_take,
      List.take_take, Nat.min_eq_left (by omega)]
  · subst same
    rw [if_pos rfl, List.append_assoc, ← List.drop_drop, List.drop_left' start,
      List.drop_append_of_le_length (by omega),
      List.take_append_of_le_length (by rw [List.length_drop]; omega)]
  · have above : k * w * (y + 1) ≤ k * w * z := Nat.mul_le_mul_left _ behind
    rw [Nat.mul_succ] at above
    have front : (image.take (k * w * y) ++ row).length = k * w * y + row.length := by
      rw [List.length_append, start]
    rw [if_neg (by omega), List.drop_append, List.drop_of_length_le (by rw [front]; omega),
      List.nil_append, List.drop_drop, front]
    congr 2
    omega

end Pixels
end PngDecode.Lib
