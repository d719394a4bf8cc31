import PngDecode.Decoder.Positions
import PngDecode.Libpng.Push

/-! # The image data

The loop of `png_process_IDAT_data`: every round but the last processes a row, so it ends, and
what drawing a scanline keeps is kept by the whole loop. -/

namespace PngDecode.Decoder
open PngDecode.Lib PngDecode.Libpng

variable {env : Env} {h : Header} {r r₂ : Rows} {s : ImageData env} {I : Rows → Prop}

/-! ## A row -/

theorem foldl_snoc_length {α β : Type} (next : List α → β → α) (l : List β) (out : List α) :
    (l.foldl (fun out i => out ++ [next out i]) out).length = out.length + l.length := by
  induction l generalizing out with
  | nil => rfl
  | cons i l ih =>
    rw [List.foldl_cons, ih, List.length_append, List.length_singleton, List.length_cons]
    omega

theorem unfilterRow_length (bpp : Nat) (first : UInt8 → UInt8)
    (next : UInt8 → UInt8 → UInt8 → UInt8) (row prev : List UInt8) :
    (unfilterRow bpp first next row prev).length = row.length := by
  unfold unfilterRow
  rw [foldl_snoc_length, List.length_nil, List.length_range, Nat.zero_add]

theorem pngReadFilterRow_length (ri : PngRowInfo) (row prev : List UInt8) (filter : UInt8) :
    (pngReadFilterRow ri row prev filter).length = row.length := by
  unfold pngReadFilterRow
  (repeat' split) <;> first | exact unfilterRow_length .. | rfl

def badFilter (r : Rows) : Prop := r.rowBuf.getD 0 0 ≥ 5

def Unfiltered (h : Header) (r r' : Rows) : Prop :=
  unfilterRowBuf h r = .ok r' ∧ (∃ rowBuf prevRow, r' = { r with rowBuf, prevRow }) ∧
    (r.rowBuf ≠ [] → r'.rowBuf.length = r.rowBuf.length)

theorem unfilterRowBuf_bad (bad : badFilter r) :
    unfilterRowBuf h r = pngError r "bad adaptive filter value" := if_pos bad

theorem unfilterRowBuf_good (good : ¬ badFilter r) : ∃ r', Unfiltered h r r' := by
  refine ⟨_, if_neg good, ⟨_, _, rfl⟩, fun some => ?_⟩
  obtain ⟨filter, row, eq⟩ := List.exists_cons_of_ne_nil some
  rw [List.length_cons, pngReadFilterRow_length, eq]
  rfl

structure RowProcessed (h : Header) (r r₂ : Rows) : Prop where
  steps : ∃ r' g, Unfiltered h r r' ∧ SamplePixels h r' g ∧ Ready h r' ∧ Drawn h g r' r₂

theorem Ready.buffers (ready : Ready h r) (rowBuf prevRow : List UInt8) :
    Ready h { r with rowBuf, prevRow } :=
  ⟨ready.toConfigured.update {} ready.depth, ready.iwidth, ready.adam7, ready.plain⟩

theorem pngPushProcessRow_good (ready : Ready h r) (more : r.finished = false)
    (full : r.rowBuf.length = rowbytes h.pixelDepth r.iwidth + 1) (good : ¬ badFilter r) :
    ∃ r₂, pngPushProcessRow h r = .ok r₂ ∧ RowProcessed h r r₂ := by
  obtain ⟨r', unfiltered⟩ := unfilterRowBuf_good (h := h) good
  have steps := unfiltered
  obtain ⟨eq, ⟨rowBuf, prevRow, rfl⟩, wide⟩ := unfiltered
  have ready' := ready.buffers rowBuf prevRow
  obtain ⟨g, pixels⟩ := transformSamples_pixels ready'.valid ready'.transparency ready'.noAlpha
    ready'.samples
  have long := wide (by intro empty; rw [empty] at full; cases full)
  obtain ⟨r₂, draw, drawn⟩ := pngPushProcessScanline_drawn ready' more pixels (long.trans full)
  refine ⟨r₂, ?_, ⟨_, g, steps, pixels, ready', drawn⟩⟩
  rw [pngPushProcessRow, eq, ok_bind, draw]

/-! ## What a row keeps -/

/-- A property of the rows that reading and drawing a scanline keep. -/
structure Kept (h : Header) (I : Rows → Prop) : Prop where
  buffers : ∀ r rowBuf prevRow, I r → I { r with rowBuf, prevRow }
  drawn : ∀ g r r₂, Ready h r → r.finished = false → I r → Drawn h g r r₂ → I r₂

theorem pngPushProcessRow_ends (kept : Kept h I) (ready : Ready h r) (keeps : I r)
    (more : r.finished = false) (full : r.rowBuf.length = rowbytes h.pixelDepth r.iwidth + 1) :
    Ends (pngPushProcessRow h r)
      (fun r₂ => Ready h r₂ ∧ I r₂ ∧ (remaining h r₂.rowNumber r₂.pass).length <
        (remaining h r.rowNumber r.pass).length)
      (fun e => e.1 ≠ .outOfFuel ∧ e.2 = r) := by
  by_cases good : badFilter r
  · rw [pngPushProcessRow, unfilterRowBuf_bad good]
    exact ⟨nofun, rfl⟩
  · obtain ⟨r₂, eq, r', g, ⟨-, ⟨rowBuf, prevRow, rfl⟩, -⟩, -, ready', drawn⟩ :=
      pngPushProcessRow_good ready more full good
    obtain ⟨skipped, called, -⟩ := drawn.called ready' more
    have shorter := congrArg List.length called.remaining
    rw [List.length_append, List.length_cons] at shorter
    rw [eq]
    refine ⟨drawn.ready, kept.drawn g _ r₂ ready' more (kept.buffers _ _ _ keeps) drawn, ?_⟩
    dsimp only at shorter
    omega

/-! ## A round -/

structure ImageReady (h : Header) (s : ImageData env) : Prop where
  ready : Ready h s.2
  filling : s.1.ended = false → 0 < s.1.availOut →
    s.2.rowBuf.length + s.1.availOut = rowbytes h.pixelDepth s.2.iwidth + 1

theorem prepareRow_spec (image : ImageReady h s) (going : s.1.ended = false) :
    ∃ availOut rowBuf, prepareRow h s = ({ s.1 with availOut }, { s.2 with rowBuf }) ∧
      0 < availOut ∧ rowBuf.length + availOut = rowbytes h.pixelDepth s.2.iwidth + 1 := by
  unfold prepareRow
  split
  · next some => exact ⟨_, _, rfl, some, image.filling going some⟩
  · exact ⟨_, _, rfl, Nat.succ_pos _, Nat.zero_add _⟩

def ImageKept (h : Header) (I : Rows → Prop) (s : ImageData env) : Prop := ImageReady h s ∧ I s.2

def ImageFailed (h : Header) (I : Rows → Prop) (e : Jump × ImageData env) : Prop :=
  e.1 ≠ .outOfFuel ∧ Ready h e.2.2 ∧ I e.2.2

section Take
variable (kept : Kept h I) (ready : Ready h s.2) (keeps : I s.2)
  (filled : s.2.rowBuf.length + s.1.availOut = rowbytes h.pixelDepth s.2.iwidth + 1)
include kept ready keeps filled

theorem takeRow_ends (ended : Bool)
    (stops : ended = true ∨ s.1.nextIn = [] ∨ s.1.availOut = 0) :
    Ends (takeRow h s ended)
      (fun s' => ImageKept h I s' ∧ (imageDataDone s' = false →
        (remaining h s'.2.rowNumber s'.2.pass).length <
          (remaining h s.2.rowNumber s.2.pass).length))
      (ImageFailed h I) := by
  obtain ⟨z, r⟩ := s
  -- a round that processes no row is the last one
  have last (ended : Bool) (stops : ended = true ∨ z.nextIn = []) : ImageKept h I
      (({ z with ended }, r) : ImageData env) ∧
      (imageDataDone (({ z with ended }, r) : ImageData env) = false →
        (remaining h r.rowNumber r.pass).length < (remaining h r.rowNumber r.pass).length) := by
    refine ⟨⟨⟨ready, fun _ _ => filled⟩, keeps⟩, fun more => ?_⟩
    simp only [imageDataDone, Bool.or_eq_false_iff, List.isEmpty_eq_false_iff] at more
    rcases stops with rfl | empty
    · exact absurd more.2 (by decide)
    · exact absurd empty more.1
  dsimp only at filled stops
  unfold takeRow
  dsimp only
  split
  · split
    · exact last true (.inl rfl)
    next more =>
    have more : r.finished = false := by simpa using more
    split
    · next full =>
      have row := pngPushProcessRow_ends kept ready keeps more (by dsimp only; omega)
      cases eq : pngPushProcessRow h r with
      | ok r₂ =>
        obtain ⟨ready₂, keeps₂, shorter⟩ := row.result eq
        exact ⟨⟨⟨ready₂, fun _ some => by dsimp only at some; omega⟩, keeps₂⟩, fun _ => shorter⟩
      | error e =>
        obtain ⟨jump, same⟩ := row.failure eq
        obtain ⟨jump', rows⟩ := e
        cases same
        exact ⟨jump, ready, keeps⟩
    · exact last ended (stops.imp_right fun blocked => blocked.resolve_right (by omega))
  · next empty =>
    have empty : r.rowBuf = [] := by simpa using empty
    rw [empty, List.length_nil] at filled
    exact last ended (stops.imp_right fun blocked => blocked.resolve_right (by omega))

theorem takeInflated_ends (ret : StreamDecoder.Ret)
    (blocked : ret = .ok → s.1.nextIn = [] ∨ s.1.availOut = 0) :
    Ends (takeInflated h s ret)
      (fun s' => ImageKept h I s' ∧ (imageDataDone s' = false →
        (remaining h s'.2.rowNumber s'.2.pass).length <
          (remaining h s.2.rowNumber s.2.pass).length))
      (ImageFailed h I) := by
  cases ret with
  | ok => exact takeRow_ends kept ready keeps filled _ (.inr (blocked rfl))
  | streamEnd => exact takeRow_ends kept ready keeps filled _ (.inl rfl)
  | error code =>
    unfold takeInflated
    dsimp only
    split
    · refine ⟨⟨⟨ready, nofun⟩, keeps⟩, fun more => ?_⟩
      simp [imageDataDone] at more
    · exact ⟨nofun, ready, keeps⟩

end Take

theorem pngInflateIDAT_ends (kept : Kept h I) (image : ImageReady h s) (keeps : I s.2)
    (more : imageDataDone s = false) :
    Ends (pngInflateIDAT h s)
      (fun s' => ImageKept h I s' ∧ (imageDataDone s' = false →
        (remaining h s'.2.rowNumber s'.2.pass).length <
          (remaining h s.2.rowNumber s.2.pass).length))
      (ImageFailed h I) := by
  have going : s.1.ended = false := by
    simp only [imageDataDone, Bool.or_eq_false_iff] at more
    exact more.2
  obtain ⟨availOut, rowBuf, prepare, some, filling⟩ := prepareRow_spec image going
  have runs := StreamDecoder.run_runs s.1.inflate s.1.nextIn availOut
  have room := runs.out_le
  unfold pngInflateIDAT
  rw [prepare]
  dsimp only
  refine takeInflated_ends (s := (_, _)) kept (image.ready.buffers _ s.2.prevRow)
    (kept.buffers _ _ s.2.prevRow keeps) ?_ _ fun ok => ?_
  · dsimp only
    rw [List.length_append]
    omega
  · rcases runs.blocked ok with starved | full
    · exact .inl starved.1
    · exact .inr (by dsimp only; omega)

/-! ## The loop -/

theorem rowsFrom_length (h : Header) (row pass : Nat) :
    (rowsFrom h row pass).length = h.height - row := by
  rw [rowsFrom, List.length_map, List.length_range']

theorem remaining_length (h : Header) (row pass : Nat) :
    (remaining h row pass).length ≤ 7 * h.height := by
  have later : ((passes h).filter (pass < ·)).length ≤ 6 := by
    unfold passes
    split
    · have behind : ((List.range 7).filter (pngPassStart · < h.width)).filter (pass < ·) =
          ((List.range 7).filter (0 < ·)).filter fun p =>
            pngPassStart p < h.width && pass < p := by
        rw [List.filter_filter, List.filter_filter]
        apply List.filter_congr
        intro p _
        by_cases positive : 0 < p <;> simp [positive, Bool.and_comm]
        omega
      rw [behind]
      exact List.length_filter_le _ _
    · exact Nat.le_trans (List.length_filter_le _ _) (by decide)
  have rows : (((passes h).filter (pass < ·)).flatMap (rowsFrom h 0)).length =
      ((passes h).filter (pass < ·)).length * h.height := by
    rw [List.length_flatMap]
    simp only [rowsFrom_length, Nat.sub_zero, List.map_const', List.sum_replicate_nat]
  have first : (if pass ≤ 6 then rowsFrom h row pass else []).length ≤ h.height := by
    split
    · rw [rowsFrom_length]; omega
    · exact Nat.zero_le _
  have product := Nat.mul_le_mul_right h.height later
  rw [remaining, List.length_append, rows]
  omega

theorem pngProcessIDATData_ends (kept : Kept h I) (image : ImageReady h s) (keeps : I s.2)
    (bytes : List UInt8) :
    Ends (pngProcessIDATData h s bytes)
      (fun s' => ImageKept h I s' ∧ imageDataDone s' = true) (ImageFailed h I) := by
  have enough := remaining_length h s.2.rowNumber s.2.pass
  unfold pngProcessIDATData
  dsimp only
  refine iterate_ends (I := ImageKept h I) (fun s => if imageDataDone s then 0
    else (remaining h s.2.rowNumber s.2.pass).length + 1) (fun a holds more => ?_)
    (fun a _ more => ?_) _ _ ⟨⟨image.ready, image.filling⟩, keeps⟩ ?_
  · refine (pngInflateIDAT_ends kept holds.1 holds.2 more).mono (fun b after => ⟨after.1, ?_⟩)
      fun _ failed => failed
    rw [more, if_neg Bool.false_ne_true]
    split
    · omega
    · next less => exact Nat.succ_lt_succ (after.2 (by simpa using less))
  · rw [more, if_neg Bool.false_ne_true]
    omega
  · rw [image.ready.numRows]
    split
    · omega
    · dsimp only
      omega

theorem done_kept (h : Header) (done : Bool) : Kept h fun r => r.app.done = done where
  buffers _ _ _ keeps := keeps
  drawn _ _ _ _ _ keeps drawn := by rw [drawn.settings.app]; exact keeps

theorem pngProcessIDATData_done {t : ImageData env} {bytes : List UInt8} (ready : ImageReady h s)
    (result : pngProcessIDATData h s bytes = .ok t) : t.2.app.done = s.2.app.done :=
  ((pngProcessIDATData_ends (done_kept h _) ready rfl bytes).result result).1.2

/-! ## Less input -/

def withNextIn (s : ImageData env) (b : List UInt8) : ImageData env := ({ s.1 with nextIn := b }, s.2)

theorem prepareRow_nextIn (s : ImageData env) (b : List UInt8) :
    prepareRow h (withNextIn s b) = withNextIn (prepareRow h s) b := by
  unfold prepareRow withNextIn
  split <;> rfl

theorem takeRow_nextIn {t : ImageData env} {ended : Bool} (b : List UInt8)
    (result : takeRow h s ended = .ok t) : takeRow h (withNextIn s b) ended =
      .ok (withNextIn t b) := by
  obtain ⟨z, r⟩ := s
  unfold takeRow withNextIn at *
  dsimp only at *
  split at result
  · next some =>
    rw [if_pos some]
    split at result
    · next finished => cases result; rw [if_pos finished]
    next more =>
    rw [if_neg more]
    split at result
    · next full =>
      rw [if_pos full]
      cases row : pngPushProcessRow h r with
      | ok r₂ => rw [row] at result; cases result; rfl
      | error e => rw [row] at result; cases result
    · next part => cases result; rw [if_neg part]
  · next none => cases result; rw [if_neg none]

theorem takeInflated_nextIn {t : ImageData env} {ret : StreamDecoder.Ret} (b : List UInt8)
    (result : takeInflated h s ret = .ok t) : takeInflated h (withNextIn s b) ret =
      .ok (withNextIn t b) := by
  cases ret with
  | ok => exact takeRow_nextIn b result
  | streamEnd => exact takeRow_nextIn b result
  | error code =>
    unfold takeInflated at *
    dsimp only at *
    split at result
    · next finished => cases result; rw [if_pos (by exact finished)]; rfl
    · cases result

def afterCall (s : ImageData env) (c : StreamDecoder.Call env.inflate.State) : ImageData env :=
  ({ s.1 with inflate := c.state, nextIn := c.rest, availOut := s.1.availOut - c.out.length },
    { s.2 with rowBuf := s.2.rowBuf ++ c.out })

theorem pngInflateIDAT_nextIn (h : Header) (s : ImageData env) (b : List UInt8) :
    pngInflateIDAT h (withNextIn s b) =
      let c := env.inflate.run (prepareRow h s).1.inflate b (prepareRow h s).1.availOut
      takeInflated h (afterCall (prepareRow h s) c) c.ret := by
  unfold pngInflateIDAT
  rw [prepareRow_nextIn]
  rfl

theorem takeRow_rest {t : ImageData env} {ended : Bool} (result : takeRow h s ended = .ok t) :
    t.1.nextIn = s.1.nextIn := by
  have same := takeRow_nextIn s.1.nextIn result
  rw [show withNextIn s s.1.nextIn = s from rfl, result] at same
  rw [Except.ok.inj same]
  rfl

theorem takeInflated_rest {t : ImageData env} {ret : StreamDecoder.Ret}
    (result : takeInflated h s ret = .ok t) : t.1.nextIn = s.1.nextIn := by
  have same := takeInflated_nextIn s.1.nextIn result
  rw [show withNextIn s s.1.nextIn = s from rfl, result] at same
  rw [Except.ok.inj same]
  rfl

theorem takeRow_starved (h : Header) (room : s.1.availOut ≠ 0) (ended : Bool) :
    ∃ t, takeRow h s ended = .ok t := by
  unfold takeRow
  dsimp only
  split
  · split
    · exact ⟨_, rfl⟩
    · exact ⟨_, rfl⟩
  · exact ⟨_, rfl⟩

/-- Where the row is taken without an error, it is taken so whatever else `inflate` has to say. -/
theorem takeRow_filled {u t : ImageData env} {ret : StreamDecoder.Ret} (rows : u.2 = s.2)
    (room : u.1.availOut = s.1.availOut) (result : takeInflated h s ret = .ok t) (ended : Bool) :
    ∃ v, takeRow h u ended = .ok v := by
  have taken (stops : Bool) (result : takeRow h s stops = .ok t) : ∃ v, takeRow h u ended = .ok v := by
    unfold takeRow at result ⊢
    dsimp only at result ⊢
    rw [rows, room]
    split
    · next some =>
      rw [if_pos some] at result
      split
      · exact ⟨_, rfl⟩
      next more =>
      rw [if_neg more] at result
      split
      · next full =>
        rw [if_pos full] at result
        cases row : pngPushProcessRow h s.2 with
        | ok r => exact ⟨_, rfl⟩
        | error e => rw [row] at result; cases result
      · exact ⟨_, rfl⟩
    · exact ⟨_, rfl⟩
  cases ret with
  | ok => exact taken _ result
  | streamEnd => exact taken _ result
  | error code =>
    unfold takeInflated at result
    dsimp only at result
    split at result
    · next finished =>
      have finished : s.2.finished = true := finished
      unfold takeRow
      dsimp only
      rw [rows, if_pos finished]
      split <;> exact ⟨_, rfl⟩
    · cases result

theorem pngInflateIDAT_part {a b : List UInt8} {t : ImageData env}
    (result : pngInflateIDAT h (withNextIn s (a ++ b)) = .ok t) :
    ∃ u, pngInflateIDAT h (withNextIn s a) = .ok u ∧
      (u.1.nextIn = [] ∨ t = withNextIn u (u.1.nextIn ++ b)) := by
  rw [pngInflateIDAT_nextIn] at result ⊢
  generalize prepareRow h s = s at result ⊢
  dsimp only at result ⊢
  have runs := StreamDecoder.run_runs s.1.inflate a s.1.availOut
  generalize env.inflate.run s.1.inflate a s.1.availOut = c at runs ⊢
  by_cases stopped : c.rest ≠ [] ∨ c.ret ≠ .ok
  · rw [(runs.more_input stopped b).run_eq] at result
    have shorter := takeInflated_nextIn c.rest result
    have rest : t.1.nextIn = c.rest ++ b := takeInflated_rest result
    refine ⟨_, shorter, .inr ?_⟩
    unfold withNextIn
    dsimp only
    rw [← rest]
  · -- the call stopped for want of input, and goes on with the second part
    simp only [not_or, not_not] at stopped
    obtain ⟨empty, going⟩ := stopped
    obtain ⟨d, second⟩ : ∃ d, StreamDecoder.Runs env.inflate c.state (c.rest ++ b)
        (s.1.availOut - c.out.length) d := ⟨_, StreamDecoder.run_runs ..⟩
    have resumed : StreamDecoder.Runs env.inflate s.1.inflate (a ++ b) s.1.availOut
        { d with out := c.out ++ d.out } := runs.resume (n := 0) going second
    rw [resumed.run_eq] at result
    have left : (afterCall s c).1.nextIn = [] := empty
    have taken : ∃ u, takeRow h (afterCall s c) (afterCall s c).1.ended = .ok u := by
      by_cases room : s.1.availOut - c.out.length = 0
      · have nothing : d.out = [] := List.eq_nil_of_length_eq_zero (by
          have := second.out_le
          omega)
        rw [nothing, List.append_nil] at result
        exact takeRow_filled (by rfl) (by rfl) result _
      · exact takeRow_starved h room _
    obtain ⟨u, taken⟩ := taken
    rw [going]
    exact ⟨u, taken, .inl ((takeRow_rest taken).trans left)⟩

theorem imageDataDone_part {a b : List UInt8}
    (done : imageDataDone (withNextIn s (a ++ b)) = true) : imageDataDone (withNextIn s a) = true := by
  simp only [imageDataDone, withNextIn, Bool.or_eq_true, List.isEmpty_iff,
    List.append_eq_nil_iff] at done ⊢
  exact done.imp_left And.left

/-- The first part of the bytes of a chunk raises no error that all of them do not raise. -/
theorem pngProcessIDATData_part {a b : List UInt8} {t : ImageData env}
    (result : pngProcessIDATData h s (a ++ b) = .ok t) :
    ∃ u, pngProcessIDATData h s a = .ok u := by
  have loop (fuel : Nat) : ∀ (s : ImageData env) (a : List UInt8),
      iterate imageDataDone (pngInflateIDAT h) (fun s => (Jump.outOfFuel, s)) fuel
        (withNextIn s (a ++ b)) = .ok t →
      ∃ u, iterate imageDataDone (pngInflateIDAT h) (fun s => (Jump.outOfFuel, s)) fuel
        (withNextIn s a) = .ok u := by
    induction fuel with
    | zero =>
      intro s a result
      unfold iterate at result
      split at result
      · next done => exact ⟨_, iterate_done (imageDataDone_part done) 0⟩
      · cases result
    | succ fuel ih =>
      intro s a result
      by_cases done : imageDataDone (withNextIn s a) = true
      · exact ⟨_, iterate_done done _⟩
      have more : imageDataDone (withNextIn s (a ++ b)) = false :=
        Bool.eq_false_iff.mpr fun all => done (imageDataDone_part all)
      rw [iterate_succ more] at result
      obtain ⟨v, round, rest⟩ := bind_ok result
      obtain ⟨u, round', starved | same⟩ := pngInflateIDAT_part round
      · rw [iterate_succ (Bool.eq_false_iff.mpr done), round', ok_bind]
        exact ⟨u, iterate_done (by simp [imageDataDone, starved]) _⟩
      · rw [iterate_succ (Bool.eq_false_iff.mpr done), round', ok_bind]
        rw [same] at rest
        exact ih u u.1.nextIn rest
  exact loop _ s a result

end PngDecode.Decoder
