import PngDecode.Decoder.ImageData

/-! # The rows that the compressed data fills

The loop over the bytes of the `IDAT` chunks is compared with one call of `inflate` on all of them
that has room for the whole image: as long as a row is left to be read, the reader's decoder is
where that call would be. -/

namespace PngDecode.Decoder
open PngDecode.Lib PngDecode.Libpng

variable {env : Env} {h : Header} {r r₀ r₂ : Rows} {s t : ImageData env}
  {B C bytes line out : List UInt8}

/-! ## Sizes -/

def lineSize (h : Header) (position : Nat × Nat) : Nat :=
  rowbytes h.pixelDepth (passWidth h position.2) + 1

def imageSize (h : Header) : Nat := ((scanlines h).map (lineSize h)).sum

def leftBytes (h : Header) (r : Rows) : Nat :=
  (((remaining h r.rowNumber r.pass).filter (hasScanline h)).map (lineSize h)).sum

theorem leftBytes_finished (ready : Ready h r) (finished : r.finished = true) :
    leftBytes h r = 0 := by
  rw [leftBytes, ready.remaining_nil finished]
  rfl

theorem Ready.lineSize (ready : Ready h r) (more : r.finished = false) :
    lineSize h (r.rowNumber, r.pass) = rowbytes h.pixelDepth r.iwidth + 1 := by
  rw [Decoder.lineSize, ready.iwidth (ready.unfinished.mp more).2]

theorem Drawn.leftBytes {g : List UInt8 → List UInt8} (drawn : Drawn h g r r₂) (ready : Ready h r)
    (more : r.finished = false) :
    leftBytes h r = lineSize h (r.rowNumber, r.pass) + leftBytes h r₂ := by
  obtain ⟨skipped, called, none⟩ := drawn.called ready more
  have nothing : skipped.filter (hasScanline h) = [] := by
    rw [List.filter_eq_nil_iff]
    intro p member
    simp [none p member]
  rw [Decoder.leftBytes, called.remaining, List.filter_append, List.filter_cons,
    if_pos (ready.hasScanline more), nothing]
  simp [Decoder.leftBytes]

theorem leftBytes_more (ready : Ready h r) (more : r.finished = false) :
    lineSize h (r.rowNumber, r.pass) ≤ leftBytes h r := by
  obtain ⟨inside, inPass⟩ := ready.unfinished.mp more
  rw [leftBytes, remaining_cons ready.valid.interlace ready.valid.widthPos inside inPass ready.plain,
    List.filter_cons, if_pos (ready.hasScanline more), List.map_cons, List.sum_cons]
  exact Nat.le_add_right _ _

theorem leftBytes_start (valid : h.Valid) (row : r.rowNumber = 0) (pass : r.pass = 0) :
    leftBytes h r = imageSize h := by
  rw [leftBytes, row, pass, remaining_start valid]
  rfl

theorem pngPushProcessRow_left (ready : Ready h r) (more : r.finished = false)
    (full : r.rowBuf.length = rowbytes h.pixelDepth r.iwidth + 1)
    (result : pngPushProcessRow h r = .ok r₂) :
    Ready h r₂ ∧ leftBytes h r = r.rowBuf.length + leftBytes h r₂ := by
  have good : ¬ badFilter r := by
    intro bad
    rw [pngPushProcessRow, unfilterRowBuf_bad bad] at result
    cases result
  obtain ⟨r₃, eq, r', g, ⟨-, ⟨rowBuf, prevRow, rfl⟩, -⟩, -, ready', drawn⟩ :=
    pngPushProcessRow_good ready more full good
  cases result.symm.trans eq
  refine ⟨drawn.ready, ?_⟩
  rw [full, ← ready.lineSize more]
  exact drawn.leftBytes ready' more

/-! ## The rows of a whole stream -/

/-- Bytes are cut into scanlines, each of which is processed, up to the last complete one. -/
def feedRows (h : Header) (bytes : List UInt8) (r : Rows) : Fallible Rows Rows :=
  if r.finished ∨ bytes.length < rowbytes h.pixelDepth r.iwidth + 1 then .ok { r with rowBuf := [] }
  else do
    let r' ← pngPushProcessRow h
      { r with rowBuf := bytes.take (rowbytes h.pixelDepth r.iwidth + 1) }
    feedRows h (bytes.drop (rowbytes h.pixelDepth r.iwidth + 1)) r'
termination_by bytes.length
decreasing_by
  rw [List.length_drop]
  omega

theorem feedRows_rowBuf (h : Header) (bytes : List UInt8) (r : Rows) (rowBuf : List UInt8) :
    feedRows h bytes { r with rowBuf } = feedRows h bytes r := by
  unfold feedRows
  rfl

theorem feedRows_stop (stop : r.finished = true ∨
    bytes.length < rowbytes h.pixelDepth r.iwidth + 1) :
    feedRows h bytes r = .ok { r with rowBuf := [] } := by
  rw [feedRows, if_pos stop]

theorem feedRows_line (more : r.finished = false)
    (full : line.length = rowbytes h.pixelDepth r.iwidth + 1) (bytes : List UInt8) :
    feedRows h (line ++ bytes) r = pngPushProcessRow h { r with rowBuf := line } >>= feedRows h bytes := by
  have enough : ¬ (r.finished = true ∨
      (line ++ bytes).length < rowbytes h.pixelDepth r.iwidth + 1) := by
    rw [more, List.length_append]
    rintro (now | short)
    · cases now
    · omega
  rw [feedRows, if_neg enough, List.take_left' full, List.drop_left' full]

theorem haveRowAndFinish_setMode (h : Header) (mode : Mode) (cache : Nat) :
    haveRowAndFinish { h with mode, userChunkCacheMax := cache } = haveRowAndFinish h := rfl

theorem haveRows_setMode (h : Header) (mode : Mode) (cache : Nat) :
    haveRows { h with mode, userChunkCacheMax := cache } = haveRows h := by
  funext width pass n r
  induction n generalizing r with
  | zero => rfl
  | succ n ih =>
    rw [haveRows, haveRows, haveRowAndFinish_setMode]
    split
    · exact congrArg (haveRowAndFinish h width r >>= ·) (funext ih)
    · rfl

theorem handOverRow_setMode (h : Header) (mode : Mode) (cache : Nat) :
    handOverRow { h with mode, userChunkCacheMax := cache } = handOverRow h := by
  have rows : haveInterlacedRows { h with mode, userChunkCacheMax := cache } =
      haveInterlacedRows h := by
    funext width r
    unfold haveInterlacedRows
    rw [haveRows_setMode, haveRowAndFinish_setMode]
  funext ri r
  unfold handOverRow
  rw [rows, haveRowAndFinish_setMode]

theorem pngPushProcessRow_setMode (h : Header) (mode : Mode) (cache : Nat) :
    pngPushProcessRow { h with mode, userChunkCacheMax := cache } = pngPushProcessRow h := by
  funext r
  unfold pngPushProcessRow pngPushProcessScanline
  rw [handOverRow_setMode]
  rfl

theorem feedRows_setMode (h : Header) (mode : Mode) (cache : Nat) (bytes : List UInt8) (r : Rows) :
    feedRows { h with mode, userChunkCacheMax := cache } bytes r = feedRows h bytes r := by
  induction bytes, r using feedRows.induct h with
  | case1 bytes r stop => rw [feedRows_stop stop, feedRows_stop (by exact stop)]
  | case2 bytes r more ih =>
    rw [feedRows, if_neg (by exact more), feedRows, if_neg more, pngPushProcessRow_setMode]
    exact congrArg (pngPushProcessRow h _ >>= ·) (funext ih)

/-! ## The bytes that are still to come -/

/-- The part of the row at hand that has been put out. -/
def buffered (s : ImageData env) : List UInt8 := if s.1.availOut = 0 then [] else s.2.rowBuf

/-- The bytes of the image that `inflate` has not put out. -/
def unreadBytes (h : Header) (s : ImageData env) : Nat := leftBytes h s.2 - (buffered s).length

/-- The call of `inflate` on `b` with room for the whole image. -/
def wholeCall (env : Env) (h : Header) (b : List UInt8) : StreamDecoder.Call env.inflate.State :=
  env.inflate.run env.inflate.init b (imageSize h)

/-- Between two calls of `inflate`, which have taken `C` and put out `out`. -/
structure Reading (h : Header) (r₀ : Rows) (C out : List UInt8) (s : ImageData env) : Prop where
  total : out.length + unreadBytes h s = imageSize h
  fed : ∀ rest, feedRows h (out ++ rest) r₀ = feedRows h (buffered s ++ rest) s.2
  same : ∀ b, wholeCall env h (C ++ b) =
    (env.inflate.run s.1.inflate b (unreadBytes h s)).behind out

/-- No row is read any more, whatever follows the bytes `B`. -/
structure Stopped (h : Header) (r₀ : Rows) (B : List UInt8) (s : ImageData env) : Prop where
  fed : ∀ b, feedRows h (wholeCall env h (B ++ b)).out r₀ = .ok { s.2 with rowBuf := [] }
  full : ∀ b, (wholeCall env h (B ++ b)).out.length = imageSize h ↔ s.2.finished = true

/-- What `inflate` has made of the bytes `B` that the loop was given. -/
structure Inflating (h : Header) (r₀ : Rows) (B : List UInt8) (s : ImageData env) : Prop where
  going : s.2.finished = false → s.1.ended = false →
    ∃ C out, B = C ++ s.1.nextIn ∧ Reading h r₀ C out s
  stopped : s.2.finished = true ∨ s.1.ended = true → Stopped h r₀ B s

theorem Reading.stopped (reading : Reading h r₀ C out s) (ready : Ready h s.2)
    (finished : s.2.finished = true) : Stopped h r₀ (C ++ s.1.nextIn) s := by
  have none : unreadBytes h s = 0 := by
    rw [unreadBytes, leftBytes_finished ready finished, Nat.zero_sub]
  have whole (b : List UInt8) : (wholeCall env h (C ++ s.1.nextIn ++ b)).out = out := by
    have room := (StreamDecoder.run_runs s.1.inflate (s.1.nextIn ++ b) 0).out_le
    rw [List.append_assoc, reading.same, none, StreamDecoder.Call.behind,
      List.length_eq_zero_iff.mp (Nat.le_zero.mp room), List.append_nil]
  have total := reading.total
  have fed := reading.fed []
  rw [List.append_nil, List.append_nil, feedRows_stop (.inl finished)] at fed
  refine ⟨fun b => ?_, fun b => ⟨fun _ => finished, fun _ => ?_⟩⟩
  · rw [whole]
    exact fed
  · rw [whole]
    omega

theorem Reading.inflating (reading : Reading h r₀ C out s) (ready : Ready h s.2)
    (going : s.1.ended = false) : Inflating h r₀ (C ++ s.1.nextIn) s where
  going _ _ := ⟨C, out, rfl, reading⟩
  stopped stop := by
    rcases stop with finished | ended
    · exact reading.stopped ready finished
    · rw [going] at ended
      cases ended

/-! ## The row at hand -/

theorem prepareRow_unread (image : ImageReady h s) (more : s.2.finished = false)
    (going : s.1.ended = false) :
    (prepareRow h s).1.availOut ≤ unreadBytes h (prepareRow h s) := by
  have most := leftBytes_more image.ready more
  rw [image.ready.lineSize more] at most
  unfold prepareRow
  split
  · next some =>
    have filling := image.filling going some
    rw [unreadBytes, buffered, if_neg (by omega)]
    omega
  · rw [unreadBytes, buffered, if_neg (Nat.succ_ne_zero _)]
    exact most

theorem Reading.prepareRow (reading : Reading h r₀ C out s) :
    Reading h r₀ C out (prepareRow h s) := by
  obtain ⟨total, fed, same⟩ := reading
  unfold Libpng.prepareRow
  split
  · exact ⟨total, fed, same⟩
  · next none =>
    have none : s.1.availOut = 0 := by omega
    have empty : buffered s = [] := if_pos none
    refine ⟨?_, ?_, ?_⟩
    all_goals simp_all [unreadBytes, buffered, leftBytes, feedRows_rowBuf]

theorem takeRow_cases {ended : Bool} (more : s.2.finished = false)
    (result : takeRow h s ended = .ok t) :
    (t = ({ s.1 with ended }, s.2) ∧ (s.2.rowBuf = [] ∨ s.1.availOut ≠ 0)) ∨
      (s.1.availOut = 0 ∧ s.2.rowBuf ≠ [] ∧ ∃ r, pngPushProcessRow h s.2 = .ok r ∧
        t = ({ s.1 with ended }, r)) := by
  unfold takeRow at result
  dsimp only at result
  rw [more] at result
  split at result
  · next some =>
    rw [if_neg Bool.false_ne_true] at result
    split at result
    · next full =>
      cases row : pngPushProcessRow h s.2 with
      | ok r =>
        rw [row] at result
        cases result
        exact .inr ⟨full, some, r, rfl, rfl⟩
      | error e => rw [row] at result; cases result
    · next part =>
      cases result
      exact .inl ⟨rfl, .inr part⟩
  · next none =>
    cases result
    exact .inl ⟨rfl, .inl (by simpa using none)⟩

theorem takeInflated_finished {ret : StreamDecoder.Ret} (finished : s.2.finished = true)
    (result : takeInflated h s ret = .ok t) : t.2 = s.2 := by
  have taken (ended : Bool) (result : takeRow h s ended = .ok t) : t.2 = s.2 := by
    unfold takeRow at result
    dsimp only at result
    rw [if_pos finished] at result
    split at result <;> cases result <;> rfl
  cases ret with
  | ok => exact taken _ result
  | streamEnd => exact taken _ result
  | error code =>
    unfold takeInflated at result
    dsimp only at result
    rw [if_pos (by exact finished)] at result
    cases result
    rfl

structure Took (h : Header) (s : ImageData env) (ended : Bool) (t : ImageData env) : Prop where
  zstream : t.1 = { s.1 with ended }
  ready : Ready h t.2
  left : leftBytes h s.2 = s.2.rowBuf.length + unreadBytes h t
  last : t.2.finished = true ↔ unreadBytes h t = 0
  fed : ∀ rest, feedRows h (s.2.rowBuf ++ rest) s.2 = feedRows h (buffered t ++ rest) t.2
  part : (buffered t).length < rowbytes h.pixelDepth t.2.iwidth + 1

theorem takeRow_took {ended : Bool} (ready : Ready h s.2) (more : s.2.finished = false)
    (filled : s.2.rowBuf.length + s.1.availOut = rowbytes h.pixelDepth s.2.iwidth + 1)
    (result : takeRow h s ended = .ok t) : Took h s ended t := by
  have line (r : Rows) (ready : Ready h r) (more : r.finished = false) :
      rowbytes h.pixelDepth r.iwidth + 1 ≤ leftBytes h r := by
    rw [← ready.lineSize more]
    exact leftBytes_more ready more
  have most := line s.2 ready more
  rcases takeRow_cases more result with ⟨rfl, part⟩ | ⟨full, some, r, row, rfl⟩
  · have room : s.1.availOut ≠ 0 := by
      rcases part with empty | room
      · rw [empty, List.length_nil] at filled
        omega
      · exact room
    have buffer : buffered (({ s.1 with ended }, s.2) : ImageData env) = s.2.rowBuf := if_neg room
    have unread : unreadBytes h ({ s.1 with ended }, s.2) = leftBytes h s.2 - s.2.rowBuf.length := by
      rw [unreadBytes, buffer]
    refine ⟨rfl, ready, ?_, ?_, fun _ => by rw [buffer], ?_⟩
    · rw [unread]
      omega
    · rw [unread, show (({ s.1 with ended }, s.2) : ImageData env).2.finished = false from more]
      refine ⟨nofun, fun none => ?_⟩
      omega
    · rw [buffer]
      dsimp only
      omega
  · have buffer : buffered (({ s.1 with ended }, r) : ImageData env) = [] := if_pos full
    have unread : unreadBytes h ({ s.1 with ended }, r) = leftBytes h r := by
      rw [unreadBytes, buffer, List.length_nil, Nat.sub_zero]
    obtain ⟨ready', left⟩ := pngPushProcessRow_left ready more (by omega) row
    refine ⟨rfl, ready', ?_, ?_, fun rest => ?_, ?_⟩
    · rw [unread]
      exact left
    · rw [unread]
      refine ⟨fun finished => leftBytes_finished ready' finished, fun none => ?_⟩
      by_contra unfinished
      have := line r ready' ((Bool.not_eq_true _).mp unfinished)
      omega
    · rw [feedRows_line more (by omega), buffer]
      show pngPushProcessRow h s.2 >>= _ = _
      rw [row, ok_bind, List.nil_append]
    · rw [buffer]
      exact Nat.succ_pos _

/-! ## A call -/

section Call
variable {c : StreamDecoder.Call env.inflate.State} {ended : Bool} (positive : 0 < s.1.availOut)
  (took : Took h (afterCall s c) ended t)
include positive took

theorem Took.unread : unreadBytes h s = c.out.length + unreadBytes h t := by
  have left : leftBytes h s.2 = (s.2.rowBuf ++ c.out).length + unreadBytes h t := took.left
  rw [List.length_append] at left
  rw [unreadBytes, buffered, if_neg (by omega)]
  omega

variable (reading : Reading h r₀ C out s)
include reading

theorem Reading.fed_call (rest : List UInt8) :
    feedRows h (out ++ c.out ++ rest) r₀ = feedRows h (buffered t ++ rest) t.2 := by
  have line : feedRows h (s.2.rowBuf ++ c.out ++ rest) { s.2 with rowBuf := s.2.rowBuf ++ c.out } =
      feedRows h (buffered t ++ rest) t.2 := took.fed rest
  rw [feedRows_rowBuf] at line
  rw [List.append_assoc, reading.fed, buffered, if_neg (by omega), ← List.append_assoc, line]

variable (enough : s.1.availOut ≤ unreadBytes h s)
  (call : env.inflate.run s.1.inflate s.1.nextIn s.1.availOut = c)
include enough call

theorem Reading.going (going : c.ret = .ok) :
    ∃ taken, s.1.nextIn = taken ++ t.1.nextIn ∧ Reading h r₀ (C ++ taken) (out ++ c.out) t := by
  have unread := took.unread positive
  have total := reading.total
  obtain ⟨n, split⟩ : ∃ n, unreadBytes h s = s.1.availOut + n := Nat.exists_eq_add_of_le enough
  obtain ⟨taken, input, resumed⟩ := StreamDecoder.run_taken (by rw [call]; exact going)
  rw [call] at input resumed
  refine ⟨taken, ?_, ?_, reading.fed_call positive took, fun b => ?_⟩
  · rw [took.zstream]
    exact input
  · rw [List.length_append]
    omega
  · have room := (StreamDecoder.run_runs s.1.inflate s.1.nextIn s.1.availOut).out_le
    rw [call] at room
    have left : s.1.availOut - c.out.length + n = unreadBytes h t := by omega
    rw [List.append_assoc, reading.same, split, resumed, left, took.zstream]
    simp [StreamDecoder.Call.behind, afterCall]

theorem Reading.streamEnd (ends : c.ret = .streamEnd) : Stopped h r₀ (C ++ s.1.nextIn) t := by
  have unread := took.unread positive
  have total := reading.total
  obtain ⟨n, split⟩ : ∃ n, unreadBytes h s = s.1.availOut + n := Nat.exists_eq_add_of_le enough
  have whole (b : List UInt8) : (wholeCall env h (C ++ s.1.nextIn ++ b)).out = out ++ c.out := by
    rw [List.append_assoc, reading.same, split,
      StreamDecoder.run_stopped (by rw [call, ends]; exact StreamDecoder.Ret.noConfusion), call]
    rfl
  have fed := reading.fed_call positive took []
  rw [List.append_nil, List.append_nil] at fed
  refine ⟨fun b => ?_, fun b => ?_⟩
  · rw [whole, fed, feedRows_stop (.inr took.part)]
  · rw [whole, took.last, List.length_append]
    omega

end Call

/-! ## A round -/

theorem imageDataDone_going (more : imageDataDone s = false) : s.1.ended = false := by
  simp only [imageDataDone, Bool.or_eq_false_iff] at more
  exact more.2

theorem Stopped.rows (stopped : Stopped h r₀ B s) {rowBuf : List UInt8}
    (same : t.2 = { s.2 with rowBuf }) : Stopped h r₀ B t where
  fed b := by
    rw [stopped.fed, same]
  full b := by
    rw [stopped.full, same]
    rfl

theorem pngInflateIDAT_inflating (image : ImageReady h s) (inflating : Inflating h r₀ B s)
    (more : imageDataDone s = false) (result : pngInflateIDAT h s = .ok t) :
    Inflating h r₀ B t := by
  have going := imageDataDone_going more
  obtain ⟨availOut, rowBuf, prepare, some, filling⟩ := prepareRow_spec image going
  rw [show s = withNextIn s s.1.nextIn from rfl, pngInflateIDAT_nextIn] at result
  by_cases finished : s.2.finished = true
  · -- what was put out already is all that the image takes
    have rows := takeInflated_finished (by rw [prepare]; exact finished) result
    have stopped := (inflating.stopped (.inl finished)).rows (t := t) (by rw [rows, prepare]; rfl)
    refine ⟨fun unfinished => ?_, fun _ => stopped⟩
    have finished' : t.2.finished = true := by rw [rows, prepare]; exact finished
    cases unfinished.symm.trans finished'
  have unfinished : s.2.finished = false := (Bool.not_eq_true _).mp finished
  obtain ⟨C, out, rfl, reading⟩ := inflating.going unfinished going
  have enough := prepareRow_unread image unfinished going
  have reading := reading.prepareRow
  rw [prepare] at result enough reading
  dsimp only at result enough
  have room := (StreamDecoder.run_runs s.1.inflate s.1.nextIn availOut).out_le
  generalize call : env.inflate.run s.1.inflate s.1.nextIn availOut = c at result room
  have ready : Ready h { s.2 with rowBuf := rowBuf ++ c.out } :=
    image.ready.buffers _ s.2.prevRow
  have filled : (rowBuf ++ c.out).length + (availOut - c.out.length) =
      rowbytes h.pixelDepth s.2.iwidth + 1 := by
    rw [List.length_append]
    omega
  have taken {ended : Bool} (result : takeRow h
      (afterCall ({ s.1 with availOut }, { s.2 with rowBuf }) c) ended = .ok t) :
      Took h (afterCall ({ s.1 with availOut }, { s.2 with rowBuf }) c) ended t :=
    takeRow_took ready unfinished filled result
  cases ret : c.ret with
  | ok =>
    rw [ret] at result
    have took := taken result
    obtain ⟨taken, input, reading⟩ := reading.going some took enough call ret
    have input : s.1.nextIn = taken ++ t.1.nextIn := input
    rw [input, ← List.append_assoc]
    exact reading.inflating took.ready (by rw [took.zstream]; exact going)
  | streamEnd =>
    rw [ret] at result
    have took := taken result
    have stopped := reading.streamEnd some took enough call ret
    refine ⟨fun _ going' => ?_, fun _ => stopped⟩
    rw [took.zstream] at going'
    cases going'
  | error code =>
    rw [ret] at result
    unfold takeInflated at result
    dsimp only at result
    rw [if_neg (by exact finished)] at result
    cases result

/-! ## The loop -/

/-- Between two parts of the data: none of it is left, as long as the stream goes on. -/
structure Consumed (h : Header) (r₀ : Rows) (B : List UInt8) (s : ImageData env) : Prop where
  inflating : Inflating h r₀ B s
  rest : s.1.ended = false → s.1.nextIn = []

theorem Stopped.more (stopped : Stopped h r₀ B s) (bytes : List UInt8) :
    Stopped h r₀ (B ++ bytes) s where
  fed b := by
    rw [List.append_assoc]
    exact stopped.fed _
  full b := by
    rw [List.append_assoc]
    exact stopped.full _

theorem Consumed.more (consumed : Consumed h r₀ B s) (bytes : List UInt8) :
    Inflating h r₀ (B ++ bytes) (withNextIn s bytes) where
  going unfinished going := by
    obtain ⟨C, out, rfl, reading⟩ := consumed.inflating.going unfinished going
    rw [consumed.rest going, List.append_nil]
    exact ⟨C, out, rfl, reading.total, reading.fed, reading.same⟩
  stopped stop := by
    obtain ⟨fed, full⟩ := (consumed.inflating.stopped stop).more bytes
    exact ⟨fed, full⟩

theorem pngProcessIDATData_consumed (image : ImageReady h s) (consumed : Consumed h r₀ B s)
    (result : pngProcessIDATData h s bytes = .ok t) : Consumed h r₀ (B ++ bytes) t := by
  obtain ⟨reaches, done⟩ := iterate_reaches result
  have kept : Kept h fun _ => True := ⟨fun _ _ _ _ => trivial, fun _ _ _ _ _ _ _ => trivial⟩
  have last : ImageReady h t ∧ Inflating h r₀ (B ++ bytes) t := by
    refine reaches.invariant (I := fun t => ImageReady h t ∧ Inflating h r₀ (B ++ bytes) t)
      (fun a b holds more round => ?_) ⟨⟨image.ready, image.filling⟩, consumed.more bytes⟩
    exact ⟨((pngInflateIDAT_ends kept holds.1 trivial more).result round).1.1,
      pngInflateIDAT_inflating holds.1 holds.2 more round⟩
  refine ⟨last.2, fun going => ?_⟩
  simp only [imageDataDone, Bool.or_eq_true, List.isEmpty_iff] at done
  exact done.resolve_right (by rw [going]; exact Bool.false_ne_true)

theorem reading_start (ready : Ready h s.2) (row : s.2.rowNumber = 0) (pass : s.2.pass = 0)
    (buffer : s.2.rowBuf = []) (init : s.1.inflate = env.inflate.init) : Reading h s.2 [] [] s := by
  have empty : buffered s = [] := by
    unfold buffered
    rw [buffer]
    exact ite_self []
  have unread : unreadBytes h s = imageSize h := by
    rw [unreadBytes, leftBytes_start ready.valid row pass, empty]
    rfl
  refine ⟨?_, fun _ => by rw [empty], fun b => ?_⟩
  · rw [unread]
    exact Nat.zero_add _
  · rw [unread, init]
    rfl

theorem consumed_start (ready : Ready h s.2) (reading : Reading h r₀ [] [] s)
    (rest : s.1.nextIn = []) (going : s.1.ended = false) : Consumed h r₀ [] s := by
  have inflating := reading.inflating ready going
  rw [rest] at inflating
  exact ⟨inflating, fun _ => rest⟩

end PngDecode.Decoder
