import PngDecode.Decoder.Runs

/-! # Safety of a decode

Whatever the input is, no product of the callbacks overflows, every row that is handed over has
four bytes for each pixel, and every byte written belongs to the row it is written for. -/

namespace PngDecode.Decoder
open PngDecode.Lib PngDecode.Libpng

variable {env : Env} {format : ColorFormat} {output : List UInt8} {h : Header} {r r' r₁ r₂ : Rows}
  {w : Nat} {g : List UInt8 → List UInt8}

/-! ## Safe events -/

/-- Signed multiplications stay in 32 bits, and writes in the row of an image of `width × height`. -/
def SafeEvent (width height : Nat) : Event → Prop
  | .product value => -2 ^ 31 ≤ value ∧ value < 2 ^ 31
  | .resize size => size = 4 * width * height
  | .userTransform rowInfo bytes =>
    rowInfo.channels = 4 ∧ rowInfo.rowbytes = bytes ∧ bytes = 4 * rowInfo.width
  | .row rowNum pass row => rowNum < height ∧ pass ≤ 6 ∧ ∀ p ∈ row, p.2 = 4 * p.1
  | .write rowNum offset bytes =>
    rowNum < height ∧ offset = 4 * width * rowNum ∧ bytes = 4 * width

def setupEvents (width height : Nat) : List Event :=
  [.product (width * 4), .product (width * 4 * height), .resize (width * 4 * height)]

def SafeTrace (width height : Nat) (trace : List Event) : Prop :=
  setupEvents width height <+: trace ∧ ∀ e ∈ trace, SafeEvent width height e

theorem SafeTrace.append {width height : Nat} {trace events : List Event}
    (safe : SafeTrace width height trace) (more : ∀ e ∈ events, SafeEvent width height e) :
    SafeTrace width height (trace ++ events) := by
  refine ⟨safe.1.trans (List.prefix_append ..), fun e member => ?_⟩
  rcases List.mem_append.mp member with old | new
  · exact safe.2 e old
  · exact more e new

theorem area_four {width height : Nat} (small : width * height ≤ 2 ^ 29 - 1) :
    4 * width * height ≤ 2 ^ 31 - 4 := by
  rw [Nat.mul_assoc]
  omega

theorem row_small {width height : Nat} (tall : 0 < height) (small : width * height ≤ 2 ^ 29 - 1) :
    4 * width ≤ 2 ^ 31 - 4 :=
  Nat.le_trans (Nat.le_mul_of_pos_right _ tall) (area_four small)

theorem setupEvents_safe {width height : Nat} (tall : 0 < height)
    (small : width * height ≤ 2 ^ 29 - 1) : SafeTrace width height (setupEvents width height) := by
  have row := row_small tall small
  have area := area_four small
  have product : (width : Int) * 4 * height = ((4 * width * height : Nat) : Int) := by
    push_cast
    rw [Int.mul_comm (width : Int)]
  refine ⟨List.prefix_refl _, fun e member => ?_⟩
  simp only [setupEvents, List.mem_cons, List.not_mem_nil, or_false] at member
  rcases member with rfl | rfl | rfl
  · exact ⟨by omega, by omega⟩
  · rw [product]
    exact ⟨by omega, by omega⟩
  · exact product

/-! ## Rows -/

theorem Handed.safe {width : Option Nat} (handed : Handed h width r r')
    (configured : Configured h r) (inside : r.rowNumber < h.height) (inPass : r.pass ≤ 6)
    (bytes : ∀ w ∈ width, (r.rowBuf.drop 1).length = 4 * w)
    (safe : SafeTrace h.width h.height r.trace) : SafeTrace h.width h.height r'.trace := by
  rw [handed.trace]
  refine safe.append fun e member => ?_
  have small := row_small (Nat.zero_lt_of_lt inside) configured.small
  rcases List.mem_cons.mp member with rfl | member
  · refine ⟨inside, inPass, fun p shown => ?_⟩
    obtain ⟨w, some, rfl⟩ := Option.map_eq_some_iff.mp shown
    exact bytes w some
  · cases width with
    | none => cases member
    | some w =>
      simp only [Option.isSome_some, if_true, List.mem_cons, List.not_mem_nil, or_false] at member
      rcases member with rfl | rfl
      · exact ⟨by omega, by omega⟩
      · exact ⟨inside, rfl, rfl⟩

theorem Waits.safe (waits : Waits h w r r') (bytes : (r.rowBuf.drop 1).length = 4 * w)
    (safe : SafeTrace h.width h.height r.trace) : SafeTrace h.width h.height r'.trace := by
  induction waits with
  | refl => exact safe
  | step going inPass _ handed _ ih =>
    refine ih (by rw [handed.rowBuf]; exact bytes)
      (handed.safe going.toConfigured going.inside inPass (fun v shown => ?_) safe)
    unfold handedWidth at shown
    split at shown
    · cases shown
      exact bytes
    · cases shown

theorem userTransformEvents_safe (width height : Nat) (h : Header) (format : ColorFormat) (n : Nat) :
    ∀ e ∈ userTransformEvents h format n, SafeEvent width height e := by
  intro e member
  unfold userTransformEvents at member
  split at member
  · rw [List.mem_singleton.mp member]
    refine ⟨rfl, ?_, rfl⟩
    simp [outputShape, Shape.info, samples, rowbytes_whole, Nat.mul_comm]
  · cases member

theorem Drawn.safe (drawn : Drawn h g r r₂) (ready : Ready h r) (more : r.finished = false)
    (safe : SafeTrace h.width h.height r.trace) : SafeTrace h.width h.height r₂.trace := by
  obtain ⟨inside, inPass⟩ := ready.unfinished.mp more
  obtain ⟨w, rt, r₁, transformed, handed, waits⟩ := drawn.rows
  have bytes := transformed.bytes
  have configured := transformed.configured ready.toConfigured
  obtain ⟨row, pass, -⟩ := transformed.position
  have start : SafeTrace h.width h.height rt.trace := by
    obtain ⟨rowBuf, isOpaque, rfl⟩ := transformed.same
    exact safe.append (userTransformEvents_safe _ _ h _ _)
  refine waits.safe (by rw [handed.rowBuf]; exact bytes)
    (handed.safe configured (by rw [row]; exact inside) (by rw [pass]; exact inPass) ?_ start)
  intro v shown
  cases shown
  exact bytes

theorem safeTrace_invariant (env : Env) (format : ColorFormat) (output : List UInt8) :
    RowInvariant env format output fun h r => SafeTrace h.width h.height r.trace where
  kept _ := ⟨fun _ _ _ safe => safe, fun _ _ _ ready more safe drawn => drawn.safe ready more safe⟩
  mode _ _ _ _ safe := safe
  first _ complete small := setupEvents_safe (complete.valid complete.ihdr).heightPos small
  ended _ _ safe := safe

/-! ## Runs -/

/-- What a call leaves behind when it returns or jumps. -/
def left {σ : Type} : Fallible σ σ → σ
  | .ok s => s
  | .error e => e.2

/-- No callback has done anything, or there is room for the image and all that was done is safe. -/
def SafeRows (output : List UInt8) (r : Rows) : Prop :=
  (r.trace = [] ∧ r.app.output = output ∧ r.app.done = false) ∨
    ∃ width height, 0 < width ∧ 0 < height ∧ width * height ≤ 2 ^ 29 - 1 ∧
      r.app.output.length = 4 * width * height ∧ SafeTrace width height r.trace

theorem Ready.safeRows (ready : Ready h r) (safe : SafeTrace h.width h.height r.trace) :
    SafeRows output r :=
  .inr ⟨h.width, h.height, ready.valid.widthPos, ready.valid.heightPos, ready.small, ready.output,
    safe⟩

theorem initRows_safe (format : ColorFormat) (output : List UInt8) :
    SafeRows output (initRows format output) := .inl ⟨rfl, rfl, rfl⟩

theorem Sound.safeRows {s : Png env} (sound : Sound env format output
    (fun h r => SafeTrace h.width h.height r.trace) s) : SafeRows output s.rows := by
  cases image : s.hdr.mode.haveIDAT with
  | false =>
    rw [(sound.start image).1]
    exact initRows_safe ..
  | true =>
    obtain ⟨-, ready, safe⟩ := sound.image image
    exact ready.ready.safeRows safe

theorem processInput_left (env : Env) (x : List UInt8) (format : ColorFormat)
    (output : List UInt8) : SafeRows output (left (processInput env x format output)).rows := by
  have ends := processInput_ends (safeTrace_invariant env format output) x
  cases result : processInput env x format output with
  | ok s => exact (ends.result result).1.sound.safeRows
  | error e =>
    obtain ⟨started, failed⟩ := ends.failure result
    unfold left
    dsimp only
    cases started with
    | false =>
      rw [failed.fresh rfl]
      exact initRows_safe ..
    | true =>
      obtain ⟨h, r, ready, safe, same⟩ := failed.image rfl
      have := ready.output
      rw [← same.output] at this
      rw [← same.trace] at safe
      exact .inr ⟨h.width, h.height, ready.valid.widthPos, ready.valid.heightPos, ready.small, this,
        safe⟩

theorem decode_size {x : List UInt8} {w h : Int}
    (succeeded : (decode env x format output w h).result = true) :
    ∃ width height : Nat, 0 < width ∧ 0 < height ∧ width * height ≤ 2 ^ 29 - 1 ∧
      (decode env x format output w h).w = width ∧ (decode env x format output w h).h = height ∧
      (decode env x format output w h).output.length = 4 * width * height := by
  obtain ⟨-, s, result, done, eq⟩ := decode_true succeeded
  have ends := processInput_ends (safeTrace_invariant env format output) x
  have sound := (ends.result result).1.sound
  obtain ⟨-, image, -⟩ := sound.image (sound.done_image done)
  have ready := image.ready
  rw [eq]
  exact ⟨s.hdr.width, s.hdr.height, ready.valid.widthPos, ready.valid.heightPos, ready.small,
    ready.appWidth, ready.appHeight, ready.output⟩

theorem decode_size_pixelPng : ∃ width height : Nat, 0 < width ∧ 0 < height ∧
    width * height ≤ 2 ^ 29 - 1 ∧ (decode storedEnv pixelPng .rgba [] 0 0).w = width ∧
    (decode storedEnv pixelPng .rgba [] 0 0).h = height ∧
    (decode storedEnv pixelPng .rgba [] 0 0).output.length = 4 * width * height :=
  decode_size (by decide +kernel)

/-- The reader has accepted the image of the header, `output` has room for it, and all that was done
is safe. -/
structure AcceptedSafely (s : Png env) : Prop where
  widthPos : 0 < s.hdr.width
  heightPos : 0 < s.hdr.height
  small : s.hdr.width * s.hdr.height ≤ 2 ^ 29 - 1
  appWidth : s.rows.app.width = s.hdr.width
  appHeight : s.rows.app.height = s.hdr.height
  output : s.rows.app.output.length = 4 * s.hdr.width * s.hdr.height
  safe : SafeTrace s.hdr.width s.hdr.height s.rows.trace

theorem Reached.acceptedSafely {x : List UInt8} {s : Png env}
    (reached : Reached env x format output s) :
    s.rows = initRows format output ∨ AcceptedSafely s := by
  have sound := (reached.between (safeTrace_invariant env format output)).sound
  cases image : s.hdr.mode.haveIDAT with
  | false => exact .inl (sound.start image).1
  | true =>
    obtain ⟨-, ⟨ready, -⟩, safe⟩ := sound.image image
    exact .inr ⟨ready.valid.widthPos, ready.valid.heightPos, ready.small, ready.appWidth,
      ready.appHeight, ready.output, safe⟩

/-- A decode is memory safe from its first step to the state in which it leaves the reader, and if it
succeeds `output` has the size of the image. -/
theorem decode_safe (env : Env) (x : List UInt8) (format : ColorFormat) (output : List UInt8)
    (w h : Int) :
    (∀ s, Reached env x format output s →
      s.rows = initRows format output ∨ AcceptedSafely s) ∧
    SafeRows output (left (processInput env x format output)).rows ∧
    ((decode env x format output w h).result = true →
      ∃ s, processInput env x format output = .ok s ∧ AcceptedSafely s ∧
        (decode env x format output w h).w = s.hdr.width ∧
        (decode env x format output w h).h = s.hdr.height ∧
        (decode env x format output w h).output.length = 4 * s.hdr.width * s.hdr.height) := by
  refine ⟨fun s reached => reached.acceptedSafely, processInput_left .., fun succeeded => ?_⟩
  obtain ⟨-, s, result, done, eq⟩ := decode_true succeeded
  obtain ⟨reached, -⟩ := iterate_reaches result
  obtain start | accepted := Reached.acceptedSafely (s := s) reached
  · rw [start] at done
    cases done
  · rw [eq]
    exact ⟨s, result, accepted, accepted.appWidth, accepted.appHeight, accepted.output⟩

theorem decode_safe_pixelPng :
    ∃ s, processInput storedEnv pixelPng .skBitmap [] = .ok s ∧ AcceptedSafely s ∧
      (decode storedEnv pixelPng .skBitmap [] 0 0).w = s.hdr.width ∧
      (decode storedEnv pixelPng .skBitmap [] 0 0).h = s.hdr.height ∧
      (decode storedEnv pixelPng .skBitmap [] 0 0).output.length =
        4 * s.hdr.width * s.hdr.height :=
  (decode_safe storedEnv pixelPng .skBitmap [] 0 0).2.2 (by decide +kernel)

/-! ## Failures -/

/-- A step fails after `DecodeInfoCallback` has made room for the image. -/
def FailsAfterSetup (env : Env) (x : List UInt8) (format : ColorFormat) : Prop :=
  build x = true ∧ ∃ s, Reached env x format [] s ∧ bufferEmpty s = false ∧
    s.hdr.mode.haveIDAT = true ∧ ∃ e, pngProcessSomeData s = .error e

theorem decode_untouched {x : List UInt8} {w h : Int}
    (failed : (decode env x format output w h).result = false) :
    (decode env x format output w h).w = w ∧ (decode env x format output w h).h = h := by
  rcases decode_false failed with ⟨-, eq⟩ | ⟨-, ⟨_, -, eq⟩ | ⟨_, -, eq⟩⟩
  all_goals
    rw [eq]
    exact ⟨rfl, rfl⟩

theorem FailsAfterSetup.decode {x : List UInt8} (fails : FailsAfterSetup env x format) (w h : Int) :
    (decode env x format [] w h).result = false ∧ (decode env x format [] w h).output ≠ [] := by
  have kept := safeTrace_invariant env format []
  obtain ⟨built, s, reached, more, image, e, step⟩ := fails
  have between : Between env format [] _ s := reached.between kept
  obtain ⟨h, r, ready, -, same⟩ := ((between.step kept more).failure step).image image
  rw [Decoder.decode, built, reached.failure more step]
  refine ⟨rfl, fun empty => ?_⟩
  have room := ready.output
  rw [← same.output, show e.2.rows.app.output = [] from empty] at room
  have := Nat.mul_pos ready.valid.widthPos ready.valid.heightPos
  rw [Nat.mul_assoc, List.length_nil] at room
  omega

theorem decode_output_empty {x : List UInt8} {w h : Int}
    (failed : (decode env x format [] w h).result = false)
    (never : ¬ FailsAfterSetup env x format) : (decode env x format [] w h).output = [] := by
  have kept := safeTrace_invariant env format []
  rcases decode_false failed with ⟨-, eq⟩ | ⟨built, ⟨e, result, eq⟩ | ⟨s, -, eq⟩⟩
  · rw [eq]
  · rw [eq]
    obtain ⟨s, reached, more, step, left⟩ := processInput_failure kept result
    have early : s.hdr.mode.haveIDAT = false := by
      by_contra late
      exact never ⟨built, s, reached, more, by simpa using late, e, step⟩
    rw [left.fresh early]
    rfl
  · rw [eq]

theorem decode_failure {x : List UInt8} {w h : Int}
    (failed : (decode env x format [] w h).result = false) :
    (decode env x format [] w h).w = w ∧ (decode env x format [] w h).h = h ∧
      ((decode env x format [] w h).output = [] ↔ ¬ FailsAfterSetup env x format) := by
  obtain ⟨width, height⟩ := decode_untouched failed
  exact ⟨width, height, fun empty fails => (fails.decode w h).2 empty, decode_output_empty failed⟩

def badCrcData : List UInt8 := pngData.dropLast ++ [187]

/-- Without the end of the file the output is cleared; a wrong CRC is found when the row has been
drawn, and its pixel stays. -/
theorem decode_failure_cut_crc :
    ((decode storedEnv (pngHeader ++ pngData) .rgba [] 7 8).output = [] ∧
      ¬ FailsAfterSetup storedEnv (pngHeader ++ pngData) .rgba) ∧
    (decode storedEnv (pngHeader ++ badCrcData) .rgba [] 7 8).output = [10, 20, 30, 40] ∧
    FailsAfterSetup storedEnv (pngHeader ++ badCrcData) .rgba ∧
    (decode storedEnv (pngHeader ++ badCrcData) .rgba [] 7 8).w = 7 ∧
    (decode storedEnv (pngHeader ++ badCrcData) .rgba [] 7 8).h = 8 := by
  have cut : decode storedEnv (pngHeader ++ pngData) .rgba [] 7 8 = ⟨false, [], 7, 8⟩ := by
    decide +kernel
  have crc : decode storedEnv (pngHeader ++ badCrcData) .rgba [] 7 8 =
      ⟨false, [10, 20, 30, 40], 7, 8⟩ := by
    decide +kernel
  obtain ⟨-, -, empty⟩ := decode_failure (congrArg (·.result) cut)
  obtain ⟨width, height, drawn⟩ := decode_failure (congrArg (·.result) crc)
  rw [cut] at empty
  refine ⟨⟨by rw [cut], empty.mp rfl⟩, by rw [crc], ?_, width, height⟩
  by_contra never
  have output := drawn.mpr never
  rw [crc] at output
  cases output

end PngDecode.Decoder
