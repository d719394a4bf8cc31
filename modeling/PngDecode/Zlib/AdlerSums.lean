import PngDecode.Lib.RunningSum

/-! # The two sums of Adler-32 -/

namespace PngDecode.Zlib
open PngDecode.Lib

/-! ## The code -/

def adlerBase : UInt32 := 65521
def nmax : Nat := 5552

structure AdlerSums where
  adler : UInt32
  sum2 : UInt32
deriving DecidableEq

def do1 (s : AdlerSums) (b : UInt8) : AdlerSums :=
  let adler := s.adler + b.toUInt32
  ⟨adler, s.sum2 + adler⟩

def modBase (s : AdlerSums) : AdlerSums := ⟨s.adler % adlerBase, s.sum2 % adlerBase⟩

def subtractBase (x : UInt32) : UInt32 := if x ≥ adlerBase then x - adlerBase else x

def recombine (s : AdlerSums) : UInt32 := s.adler ||| (s.sum2 <<< 16)

/-! ## The reference -/

/-- The sums of the whole string in exact arithmetic, reduced after every byte. -/
def referenceSums (start : Nat × Nat) (bs : List UInt8) : Nat × Nat :=
  (bs.map UInt8.toNat).foldl (reducedStep 65521) start

def lowHalf (adler : UInt32) : Nat := adler.toNat % 65536
def highHalf (adler : UInt32) : Nat := adler.toNat / 65536

def referenceAdler32 (adler : UInt32) (bs : List UInt8) : UInt32 :=
  let s := referenceSums (lowHalf adler, highHalf adler) bs
  UInt32.ofNat s.2 <<< 16 ||| UInt32.ofNat s.1

def ofSums (s : Nat × Nat) : AdlerSums := ⟨UInt32.ofNat s.1, UInt32.ofNat s.2⟩

def Reduced (s : Nat × Nat) : Prop := s.1 < 65521 ∧ s.2 < 65521

theorem referenceSums_append (s : Nat × Nat) (as bs : List UInt8) :
    referenceSums s (as ++ bs) = referenceSums (referenceSums s as) bs := by
  simp [referenceSums, List.foldl_append]

theorem referenceSums_eq (s : Nat × Nat) (bs : List UInt8) (reduced : Reduced s) :
    referenceSums s bs = ((s.1 + (bs.map UInt8.toNat).sum) % 65521,
      (s.2 + bs.length * s.1 + ramp (bs.map UInt8.toNat)) % 65521) := by
  unfold referenceSums
  rw [foldl_reducedStep 65521 _ s (Nat.mod_eq_of_lt reduced.1) (Nat.mod_eq_of_lt reduced.2),
    List.length_map]

theorem referenceSums_reduced (s : Nat × Nat) (bs : List UInt8) (reduced : Reduced s) :
    Reduced (referenceSums s bs) := by
  rw [referenceSums_eq s bs reduced]
  exact ⟨Nat.mod_lt _ (by omega), Nat.mod_lt _ (by omega)⟩

/-! ## The sums in 32 bits -/

theorem foldl_do1 (s : Nat × Nat) (bs : List UInt8) :
    bs.foldl do1 (ofSums s) = ofSums (s.1 + (bs.map UInt8.toNat).sum,
      s.2 + bs.length * s.1 + ramp (bs.map UInt8.toNat)) := by
  have run : bs.foldl do1 (ofSums s) = ofSums ((bs.map UInt8.toNat).foldl runningStep s) := by
    induction bs generalizing s with
    | nil => rfl
    | cons b bs ih =>
      have widen : b.toUInt32 = UInt32.ofNat b.toNat := by
        apply UInt32.toNat_inj.mp
        have := b.toNat_lt
        rw [UInt8.toNat_toUInt32, UInt32.toNat_ofNat', Nat.mod_eq_of_lt (by omega)]
      have step : do1 (ofSums s) b = ofSums (runningStep s b.toNat) := by
        simp only [do1, ofSums, runningStep, UInt32.ofNat_add, widen]
      rw [List.foldl_cons, step, ih, List.map_cons, List.foldl_cons]
  rw [run, foldl_runningStep, List.length_map]

theorem byte_le (bs : List UInt8) : ∀ b ∈ bs.map UInt8.toNat, b ≤ 255 := by
  intro b member
  obtain ⟨c, -, rfl⟩ := List.mem_map.mp member
  have := c.toNat_lt
  omega

theorem sum_le (bs : List UInt8) : (bs.map UInt8.toNat).sum ≤ bs.length * 255 := by
  simpa using sum_le_length_mul 255 _ (byte_le bs)

/-- The constraint of `NMAX`: so many bytes on reduced sums stay below 2^32. -/
theorem sums_lt (s : Nat × Nat) (bs : List UInt8) (reduced : Reduced s)
    (short : bs.length ≤ nmax) :
    s.1 + (bs.map UInt8.toNat).sum < 2 ^ 32 ∧
    s.2 + bs.length * s.1 + ramp (bs.map UInt8.toNat) < 2 ^ 32 := by
  have total := sum_le bs
  have ramps : 2 * ramp (bs.map UInt8.toNat) ≤ 255 * (bs.length * (bs.length + 1)) := by
    simpa using two_mul_ramp_le 255 _ (byte_le bs)
  have square : bs.length * (bs.length + 1) ≤ nmax * (nmax + 1) :=
    Nat.mul_le_mul short (by omega)
  have hoisted : bs.length * s.1 ≤ nmax * 65520 :=
    Nat.mul_le_mul short (by have := reduced.1; omega)
  obtain ⟨first, second⟩ := reduced
  unfold nmax at *
  omega

theorem mod_adlerBase (n : Nat) (small : n < 2 ^ 32) :
    UInt32.ofNat n % adlerBase = UInt32.ofNat (n % 65521) := by
  apply UInt32.toNat_inj.mp
  rw [UInt32.toNat_mod, UInt32.toNat_ofNat', UInt32.toNat_ofNat', Nat.mod_eq_of_lt small,
    show adlerBase.toNat = 65521 from rfl, Nat.mod_eq_of_lt (a := n % 65521) (by omega)]

theorem subtractBase_ofNat (n : Nat) (small : n < 2 * 65521) :
    subtractBase (UInt32.ofNat n) = UInt32.ofNat (n % 65521) := by
  have value : (UInt32.ofNat n).toNat = n := by
    rw [UInt32.toNat_ofNat', Nat.mod_eq_of_lt (by omega)]
  unfold subtractBase
  apply UInt32.toNat_inj.mp
  rw [UInt32.toNat_ofNat' (n := n % 65521), Nat.mod_eq_of_lt (a := n % 65521) (by omega)]
  by_cases above : UInt32.ofNat n ≥ adlerBase
  · have large : 65521 ≤ n := by
      have := UInt32.le_iff_toNat_le.mp above
      rwa [value] at this
    rw [if_pos above, UInt32.toNat_sub_of_le _ _ above, value,
      show adlerBase.toNat = 65521 from rfl]
    omega
  · have below : n < 65521 := by
      have := UInt32.lt_iff_toNat_lt.mp (UInt32.not_le.mp above)
      rwa [value] at this
    rw [if_neg above, value]
    omega

theorem modBase_foldl (s : Nat × Nat) (bs : List UInt8) (reduced : Reduced s)
    (short : bs.length ≤ nmax) :
    modBase (bs.foldl do1 (ofSums s)) = ofSums (referenceSums s bs) := by
  obtain ⟨first, second⟩ := sums_lt s bs reduced short
  rw [foldl_do1, referenceSums_eq s bs reduced]
  simp only [modBase, ofSums, mod_adlerBase _ first, mod_adlerBase _ second]

theorem subtractBase_foldl (s : Nat × Nat) (bs : List UInt8) (reduced : Reduced s)
    (short : bs.length < 32) :
    (⟨subtractBase (bs.foldl do1 (ofSums s)).adler, (bs.foldl do1 (ofSums s)).sum2 % adlerBase⟩ :
      AdlerSums) = ofSums (referenceSums s bs) := by
  obtain ⟨-, second⟩ := sums_lt s bs reduced (by unfold nmax; omega)
  have total := sum_le bs
  have first := reduced.1
  rw [foldl_do1, referenceSums_eq s bs reduced]
  simp only [ofSums, mod_adlerBase _ second]
  rw [subtractBase_ofNat _ (by omega)]

/-! ## Packing -/

theorem recombine_toNat (s : Nat × Nat) (reduced : Reduced s) :
    (recombine (ofSums s)).toNat = s.2 * 65536 + s.1 := by
  obtain ⟨first, second⟩ := reduced
  simp only [recombine, ofSums, UInt32.toNat_or, UInt32.toNat_shiftLeft, UInt32.toNat_ofNat',
    show (16 : UInt32).toNat % 32 = 16 from rfl]
  rw [Nat.mod_eq_of_lt (a := s.1) (by omega), Nat.mod_eq_of_lt (a := s.2) (by omega),
    Nat.or_comm, Nat.mod_eq_of_lt (by rw [Nat.shiftLeft_eq]; omega),
    ← Nat.shiftLeft_add_eq_or_of_lt (by omega), Nat.shiftLeft_eq]

theorem halves_recombine (s : Nat × Nat) (reduced : Reduced s) :
    (lowHalf (recombine (ofSums s)), highHalf (recombine (ofSums s))) = s := by
  have first := reduced.1
  unfold lowHalf highHalf
  rw [recombine_toNat s reduced]
  apply Prod.ext <;> simp only <;> omega

theorem recombine_reference (adler : UInt32) (bs : List UInt8) :
    recombine (ofSums (referenceSums (lowHalf adler, highHalf adler) bs)) =
      referenceAdler32 adler bs := by
  simp only [recombine, ofSums, referenceAdler32, UInt32.or_comm]

theorem low_ofSums (adler : UInt32) : adler &&& 0xffff = UInt32.ofNat (lowHalf adler) := by
  apply UInt32.toNat_inj.mp
  unfold lowHalf
  rw [UInt32.toNat_and, UInt32.toNat_ofNat', show (0xffff : UInt32).toNat = 2 ^ 16 - 1 from rfl,
    Nat.and_two_pow_sub_one_eq_mod]
  omega

theorem high_ofSums (adler : UInt32) : adler >>> 16 = UInt32.ofNat (highHalf adler) := by
  apply UInt32.toNat_inj.mp
  have := adler.toNat_lt
  unfold highHalf
  rw [UInt32.toNat_shiftRight, UInt32.toNat_ofNat', show (16 : UInt32).toNat % 32 = 16 from rfl,
    Nat.shiftRight_eq_div_pow]
  omega

end PngDecode.Zlib
