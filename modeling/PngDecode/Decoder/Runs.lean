import PngDecode.Decoder.Reader

/-! # Runs of the reader

What holds between two steps of `png_process_some_data`, and the rule by which a property of the
rows holds in every state a run passes through and in the one a jump leaves behind. -/

namespace PngDecode.Decoder
open PngDecode.Lib PngDecode.Libpng

variable {env : Env} {format : ColorFormat} {output b : List UInt8} {I : Header → Rows → Prop}
  {h : Header} {r : Rows} {s s' : Png env}

/-! ## Between two steps -/

/-- A property of the rows that holds when the info callback returns and that no row ends. -/
structure RowInvariant (env : Env) (format : ColorFormat) (output : List UInt8)
    (I : Header → Rows → Prop) : Prop where
  kept : ∀ h, Kept h (I h)
  mode : ∀ h r mode cache, I h r → I { h with mode, userChunkCacheMax := cache } r
  first : ∀ h, Header.Complete h → h.width * h.height ≤ 2 ^ 29 - 1 →
    I (configuredHeader env h) (configuredRows env h format output)
  ended : ∀ h r, I h r → I h (decodeEndCallback r)

structure Sound (env : Env) (format : ColorFormat) (output : List UInt8) (I : Header → Rows → Prop)
    (s : Png env) : Prop where
  consistent : s.hdr.Consistent
  signature : s.chunk.processMode = .readSig →
    s.chunk.sigBytes < 8 ∧ s.hdr.mode.haveChunkHeader = false
  start : s.hdr.mode.haveIDAT = false → s.rows = initRows format output ∧
    (s.chunk.processMode = .readSig ∨ s.chunk.processMode = .readChunk)
  image : s.hdr.mode.haveIDAT = true → s.hdr.mode.haveIHDR = true ∧
    ImageKept s.hdr (I s.hdr) (s.zstream, s.rows)
  done : s.rows.app.done = decide (s.chunk.processMode = .readDone)

def Pending (s : Png env) : Prop :=
  s.chunk.processMode = .readChunk → s.hdr.mode.haveChunkHeader = true →
    s.chunk.chunkName ≠ chunkIDAT

/-- What an error leaves behind: the rows as they were at the start, or as the reader had them. -/
structure Failed (env : Env) (format : ColorFormat) (output : List UInt8) (I : Header → Rows → Prop)
    (started : Bool) (e : Jump × Png env) : Prop where
  jump : e.1 ≠ .outOfFuel
  fresh : started = false → e.2.rows = initRows format output
  image : started = true → ∃ h r, Ready h r ∧ I h r ∧ Untouched r e.2.rows

theorem Ready.setMode (ready : Ready h r) (mode : Mode) (cache : Nat) :
    Ready { h with mode, userChunkCacheMax := cache } r :=
  ⟨ready.toConfigured.setMode mode cache, ready.iwidth, ready.adam7, ready.plain⟩

theorem ImageReady.setMode {image : ImageData env} (ready : ImageReady h image) (mode : Mode)
    (cache : Nat) : ImageReady { h with mode, userChunkCacheMax := cache } image :=
  ⟨ready.ready.setMode mode cache, ready.filling⟩

theorem ImageKept.setMode {image : ImageData env} (kept : RowInvariant env format output I)
    (keeps : ImageKept h (I h) image) (mode : Mode) (cache : Nat) :
    ImageKept { h with mode, userChunkCacheMax := cache }
      (I { h with mode, userChunkCacheMax := cache }) image :=
  ⟨keeps.1.setMode mode cache, kept.mode _ _ _ _ keeps.2⟩

theorem Ready.ended (ready : Ready h r) : Ready h (decodeEndCallback r) :=
  ⟨ready.toConfigured.update {} ready.depth, ready.iwidth, ready.adam7, ready.plain⟩

namespace Sound
variable (sound : Sound env format output I s)
include sound

theorem setInput (input : Input) : Sound env format output I { s with input } :=
  ⟨sound.consistent, sound.signature, sound.start, sound.image, sound.done⟩

theorem going {mode : ProcessMode} (now : s.chunk.processMode = mode) (more : mode ≠ .readDone) :
    s.rows.app.done = false := by
  rw [sound.done, now]
  exact decide_eq_false more

theorem setHaveChunkHeader (kept : RowInvariant env format output I) (have' : Bool)
    (body : s.chunk.processMode ≠ .readSig) :
    Sound env format output I (s.setHaveChunkHeader have') where
  consistent := sound.consistent.update { s.hdr.mode with haveChunkHeader := have' }
    s.hdr.colorspace s.hdr.userChunkCacheMax rfl id .inl
  signature sig := absurd sig body
  start := sound.start
  image some := by
    obtain ⟨ihdr, keeps⟩ := sound.image some
    exact ⟨ihdr, keeps.setMode kept _ _⟩
  done := sound.done

theorem withHeader (b : List UInt8) : Sound env format output I (withHeader s b) :=
  ⟨sound.consistent, sound.signature, sound.start, sound.image, sound.done⟩

theorem reading (mode : s.chunk.processMode = .readIDAT) : s.hdr.mode.haveIDAT = true := by
  by_contra none
  rcases (sound.start (by simpa using none)).2 with sig | chunk
  · rw [mode] at sig; cases sig
  · rw [mode] at chunk; cases chunk

theorem failed {jump : Jump} (raised : jump ≠ .outOfFuel) {t : Png env} (rows : t.rows = s.rows) :
    Failed env format output I s.hdr.mode.haveIDAT (jump, t) where
  jump := raised
  fresh none := rows.trans (sound.start none).1
  image some := by
    obtain ⟨-, ready, keeps⟩ := sound.image some
    exact ⟨s.hdr, s.rows, ready.ready, keeps, by rw [rows]; exact .refl _⟩

theorem raised {α : Type} {Q : α → Prop} {t : Png env} (rows : t.rows = s.rows)
    (message : String) : Ends (pngError t message : Fallible (Png env) α) Q
      (Failed env format output I s.hdr.mode.haveIDAT) :=
  sound.failed Jump.noConfusion rows

end Sound

theorem Pending.fresh (none : s.hdr.mode.haveChunkHeader = false) : Pending s := fun _ some => by
  rw [none] at some
  cases some

/-- What a step makes of a state in front of `b`: it takes some of the input, or saves it all. -/
def Stepped (env : Env) (format : ColorFormat) (output : List UInt8) (I : Header → Rows → Prop)
    (b : List UInt8) (s : Png env) : Prop :=
  Sound env format output I s ∧ Pending s ∧
    (s.input.bufferSize = 0 ∨ ∃ c, s.input = live c ∧ c.length < b.length)

theorem Sound.saved (sound : Sound env format output I s) (pending : Pending s) :
    Stepped env format output I b (saveBuffer s) :=
  ⟨sound.setInput _, pending, .inl rfl⟩

/-! ## The signature -/

theorem pngPushReadSig_ends (sound : Sound env format output I s)
    (sig : s.chunk.processMode = .readSig) (some : b ≠ []) :
    Ends (pngPushReadSig (withInput s b)) (Stepped env format output I b)
      (Failed env format output I s.hdr.mode.haveIDAT) := by
  obtain ⟨few, fresh⟩ := sound.signature sig
  have long := List.length_pos_iff.mpr some
  unfold pngPushReadSig withInput
  dsimp only
  rw [pngPushFillBuffer_live]
  dsimp only
  have taken : ∃ c, live (b.drop (min (8 - s.chunk.sigBytes) (live b).bufferSize)) = live c ∧
      c.length < b.length := ⟨_, rfl, by rw [List.length_drop]; simp only [live]; omega⟩
  split
  · split <;> exact sound.raised (by rfl) _
  split
  · exact ⟨⟨sound.consistent, fun reading => ProcessMode.noConfusion reading,
      fun none => ⟨(sound.start none).1, .inr rfl⟩, sound.image, sound.going sig (by decide)⟩,
      .fresh fresh, .inr taken⟩
  · next more =>
    exact ⟨⟨sound.consistent, fun _ => ⟨by simpa using more, fresh⟩, sound.start, sound.image,
      sound.done⟩, .fresh fresh, .inr taken⟩

/-! ## Chunks -/

theorem pngPushHandleChunk_ends (kept : RowInvariant env format output I)
    (sound : Sound env format output I s) (chunk : s.chunk.processMode = .readChunk)
    (name : s.chunk.chunkName ≠ chunkIDAT) {c : List UInt8} (shorter : b.length ≤ c.length) :
    Ends (pngPushHandleChunk (withInput s b)) (Stepped env format output I c)
      (Failed env format output I s.hdr.mode.haveIDAT) := by
  rw [pngPushHandleChunk_live]
  split
  · exact (sound.setInput _).saved fun _ _ => name
  next enough =>
  have handled := pngHandleChunk_ends s.hdr (bodyChunk s b)
  cases result : pngHandleChunk s.hdr (bodyChunk s b) with
  | error jump => exact sound.failed (handled.failure result) rfl
  | ok hdr =>
    have same : hdr.mode.haveIDAT = s.hdr.mode.haveIDAT := handled.result result
    have consistent := pngHandleChunk_keeps sound.consistent result
    have image (some : s.hdr.mode.haveIDAT = true) : hdr.mode.haveIHDR = true ∧
        ImageKept hdr (I hdr) (s.zstream, s.rows) := by
      obtain ⟨ihdr, keeps⟩ := sound.image some
      obtain ⟨afterIDAT, haveIEND, cache, rfl⟩ := pngHandleChunk_sameImage ihdr some result
      exact ⟨ihdr, keeps.setMode kept _ _⟩
    have taken : ∃ d, live (b.drop (s.chunk.pushLength + 4)) = live d ∧ d.length < c.length :=
      ⟨_, rfl, by rw [List.length_drop]; omega⟩
    dsimp only
    unfold afterChunk
    split
    · next ends =>
      have some := pngHandleChunk_end ends result
      obtain ⟨ihdr, ready, keeps⟩ := image some
      have sound' : Sound env format output I { s with
          hdr
          chunk := { s.chunk with processMode := .readDone }
          rows := decodeEndCallback s.rows } := by
        refine ⟨consistent, nofun, fun none => ?_, fun _ =>
          ⟨ihdr, ⟨ready.ready.ended, ready.filling⟩, kept.ended _ _ keeps⟩, rfl⟩
        dsimp only at none
        rw [same, some] at none
        cases none
      exact ⟨(sound'.setHaveChunkHeader kept false nofun).setInput _, .fresh rfl, .inr taken⟩
    · have sig : s.chunk.processMode ≠ .readSig := by rw [chunk]; exact ProcessMode.noConfusion
      have sound' : Sound env format output I { s with hdr } :=
        ⟨consistent, fun sig' => absurd sig' sig, fun none => sound.start (same ▸ none),
          fun some => image (same ▸ some), sound.done⟩
      exact ⟨(sound'.setHaveChunkHeader kept false sig).setInput _, .fresh rfl, .inr taken⟩

/-! ## The first `IDAT` -/

theorem configuredHeader_consistent (complete : Header.Complete h) :
    (configuredHeader env h).Consistent where
  valid some := (complete.valid some).update ..
  fresh := complete.fresh
  transparency := complete.transparency
  noAlpha := complete.noAlpha
  palette some type := by
    rw [← complete.palette some type]
    exact gammaSetup_palette ..
  paletteFirst := complete.paletteFirst

theorem pngPushHaveInfo_ends (kept : RowInvariant env format output I)
    (complete : Header.Complete s.hdr) (idat : s.hdr.mode.haveIDAT = true)
    (started : Bool)
    (fresh : started = false → s.rows = initRows format output)
    (image : started = true → ∃ h, Ready h s.rows ∧ I h s.rows) :
    Ends (pngPushHaveInfo s)
      (fun s' => s'.input = s.input ∧ s'.chunk = s.chunk ∧
        s'.hdr.mode.haveIHDR = true ∧ s'.hdr.mode.haveIDAT = true ∧ s'.hdr.Consistent ∧
        Ready s'.hdr s'.rows ∧ I s'.hdr s'.rows ∧ s'.rows.app.done = false)
      (Failed env format output I started) := by
  unfold pngPushHaveInfo
  cases started with
  | false =>
    rw [fresh rfl]
    by_cases small : s.hdr.width * s.hdr.height ≤ 2 ^ 29 - 1
    · rw [decodeInfoCallback_first format output complete small]
      exact ⟨rfl, rfl, complete.ihdr, idat, configuredHeader_consistent complete,
        configuredRows_ready format output complete small, kept.first _ complete small, rfl⟩
    · unfold decodeInfoCallback
      rw [if_pos (by omega)]
      exact ⟨Jump.noConfusion, fun _ => rfl, nofun⟩
  | true =>
    obtain ⟨h, ready, keeps⟩ := image rfl
    have again : Ends (decodeInfoCallback env s.hdr s.rows) (fun _ => False)
        fun e => e.1 ≠ .outOfFuel ∧ Untouched s.rows e.2 :=
      decodeInfoCallback_again ready.rowInit
    cases result : decodeInfoCallback env s.hdr s.rows with
    | ok hr => exact (again.result result).elim
    | error e =>
      obtain ⟨jump, same⟩ := again.failure result
      exact ⟨jump, nofun, fun _ => ⟨h, s.rows, ready, keeps, same⟩⟩

theorem pngPushStartIDAT_ends (kept : RowInvariant env format output I)
    (sound : Sound env format output I s) (chunk : s.chunk.processMode = .readChunk) :
    Ends (pngPushStartIDAT s)
      (fun s' => Sound env format output I s' ∧ Pending s' ∧ s'.input = s.input ∧
        s'.chunk.processMode = .readIDAT)
      (Failed env format output I s.hdr.mode.haveIDAT) := by
  have image (some : s.hdr.mode.haveIDAT = true) :
      ∃ h, Ready h s.rows ∧ I h s.rows := by
    obtain ⟨-, ready, keeps⟩ := sound.image some
    exact ⟨s.hdr, ready.ready, keeps⟩
  unfold pngPushStartIDAT
  dsimp only
  split
  · exact sound.raised (by rfl) _
  next ihdr =>
  split
  · exact sound.raised (by rfl) _
  next plte =>
  have ihdr : s.hdr.mode.haveIHDR = true := by simpa using ihdr
  have plte : s.hdr.colorType = colorTypePalette → s.hdr.mode.havePLTE = true := by
    simpa using plte
  have consistent (haveIDAT haveChunkAfterIDAT : Bool) : ({ s.hdr with
      mode := { s.hdr.mode with haveIDAT, haveChunkAfterIDAT } } : Header).Consistent :=
    sound.consistent.update { s.hdr.mode with haveIDAT, haveChunkAfterIDAT } s.hdr.colorspace
      s.hdr.userChunkCacheMax rfl id .inl
  split
  · next early =>
    have some : s.hdr.mode.haveIDAT = true := early.1
    obtain ⟨-, keeps⟩ := sound.image some
    refine ⟨⟨consistent _ _, nofun, fun none => ?_, fun _ => ⟨ihdr, keeps.setMode kept _ _⟩,
      sound.going chunk nofun⟩, nofun, rfl, rfl⟩
    dsimp only at none
    rw [some] at none
    cases none
  · refine Ends.bind (pngPushHaveInfo_ends kept ?_ ?_ s.hdr.mode.haveIDAT ?_ ?_)
      fun t holds => ?_
    · exact ⟨consistent _ _, ihdr, plte⟩
    · rfl
    · exact fun none => (sound.start none).1
    · exact image
    obtain ⟨input, chunk, ihdr, idat, consistent, ready, keeps, going⟩ := holds
    have reading : t.chunk.processMode = .readIDAT := by rw [chunk]
    have image : ImageReady t.hdr
        ({ t.zstream with availOut := rowbytes t.hdr.pixelDepth t.rows.iwidth + 1 },
          { t.rows with rowBuf := [] }) :=
      ⟨ready.buffers [] t.rows.prevRow, fun _ _ => Nat.zero_add _⟩
    have keeps' : I t.hdr { t.rows with rowBuf := [] } :=
      (kept.kept t.hdr).buffers _ [] t.rows.prevRow keeps
    refine ⟨⟨consistent, ?_, ?_, fun _ => ⟨ihdr, image, keeps'⟩, ?_⟩, ?_, input, reading⟩
    · intro sig
      rw [show t.chunk.processMode = .readSig from sig] at reading
      cases reading
    · intro none
      rw [show t.hdr.mode.haveIDAT = false from none] at idat
      cases idat
    · dsimp only
      rw [going, reading]
      rfl
    · intro body
      rw [show t.chunk.processMode = .readChunk from body] at reading
      cases reading

/-! ## Image data -/

theorem finishIDAT_ends (kept : RowInvariant env format output I)
    (sound : Sound env format output I s)
    (reading : s.chunk.processMode = .readIDAT) {c : List UInt8} (shorter : b.length ≤ c.length)
    (less : s.chunk.idatSize ≠ 0 → b.length < c.length) :
    Ends (finishIDAT (withInput s b)) (Stepped env format output I c)
      (Failed env format output I s.hdr.mode.haveIDAT) := by
  have body (t : Png env) (mode : t.chunk.processMode = .readIDAT) : Pending t := by
    intro chunk
    rw [mode] at chunk
    cases chunk
  rw [finishIDAT_live]
  split
  · next more => exact ⟨sound.setInput _, body _ reading, .inr ⟨b, rfl, less more⟩⟩
  split
  · exact (sound.setInput _).saved (body _ reading)
  next enough =>
  have taken : ∃ d, live (b.drop 4) = live d ∧ d.length < c.length :=
    ⟨_, rfl, by rw [List.length_drop]; omega⟩
  have crc := pngCrcFinish_jump ⟨s.chunk.chunkName, [], pngGetUint32 b ≠ s.chunk.crc⟩
  cases result : pngCrcFinish ⟨s.chunk.chunkName, [], pngGetUint32 b ≠ s.chunk.crc⟩ with
  | error jump => exact sound.failed (crc.failure result) rfl
  | ok _ =>
    refine ⟨⟨sound.consistent.update { s.hdr.mode with haveChunkHeader := false, afterIDAT := true }
      s.hdr.colorspace s.hdr.userChunkCacheMax rfl id .inl, ?_, sound.start, fun some => ?_,
      sound.done⟩, body _ reading, .inr taken⟩
    · intro sig
      rw [show s.chunk.processMode = .readSig from sig] at reading
      cases reading
    · obtain ⟨ihdr, keeps⟩ := sound.image some
      exact ⟨ihdr, keeps.setMode kept _ _⟩

theorem pngPushReadIDATBytes_ends (kept : RowInvariant env format output I)
    (sound : Sound env format output I s) (reading : s.chunk.processMode = .readIDAT)
    {c : List UInt8} (shorter : b.length ≤ c.length) (some : c ≠ []) :
    Ends (pngPushReadIDATBytes (withInput s b)) (Stepped env format output I c)
      (Failed env format output I s.hdr.mode.haveIDAT) := by
  have idat := sound.reading reading
  obtain ⟨ihdr, ready, keeps⟩ := sound.image idat
  rw [pngPushReadIDATBytes_live]
  split
  · next more =>
    have long := List.length_pos_iff.mpr more.2
    have left : (b.drop s.chunk.idatSize).length = b.length - s.chunk.idatSize := List.length_drop
    have loop := pngProcessIDATData_ends (kept.kept s.hdr) ready keeps (b.take s.chunk.idatSize)
    cases result : pngProcessIDATData s.hdr (s.zstream, s.rows) (b.take s.chunk.idatSize) with
    | error e =>
      obtain ⟨jump, ready', keeps'⟩ := loop.failure result
      rw [idat]
      exact ⟨jump, nofun, fun _ => ⟨s.hdr, _, ready', keeps', .refl _⟩⟩
    | ok image =>
      obtain ⟨image', -⟩ := loop.result result
      have sound' : Sound env format output I (afterBytes s (b.take s.chunk.idatSize) image) := by
        refine ⟨sound.consistent, fun sig => ?_, fun none => ?_, fun _ => ⟨ihdr, image'⟩,
          (pngProcessIDATData_done ready result).trans sound.done⟩
        · rw [show s.chunk.processMode = .readSig from sig] at reading
          cases reading
        · rw [show s.hdr.mode.haveIDAT = false from none] at idat
          cases idat
      exact finishIDAT_ends kept sound' reading (by omega) fun _ => by omega
  · next stuck =>
    refine finishIDAT_ends kept sound reading shorter fun more => ?_
    have empty : b = [] := by simpa [more] using stuck
    rw [empty]
    exact List.length_pos_iff.mpr some

/-! ## A step -/

theorem pngPushReadChunkBody_ends (kept : RowInvariant env format output I)
    (sound : Sound env format output I s) (chunk : s.chunk.processMode = .readChunk)
    {c : List UInt8} (shorter : b.length < c.length ∨
      b.length = c.length ∧ s.chunk.chunkName ≠ chunkIDAT) :
    Ends (pngPushReadChunkBody (withInput s b)) (Stepped env format output I c)
      (Failed env format output I s.hdr.mode.haveIDAT) := by
  unfold pngPushReadChunkBody
  split
  · next idat =>
    have less : b.length < c.length := shorter.resolve_right fun same => same.2 idat
    refine (pngPushStartIDAT_ends kept (sound.setInput (live b)) chunk).mono (fun t started => ?_)
      fun _ failed => failed
    obtain ⟨sound', pending, input, -⟩ := started
    exact ⟨sound', pending, .inr ⟨b, input, less⟩⟩
  next idat =>
  split
  · exact sound.raised (by rfl) _
  · exact pngPushHandleChunk_ends kept sound chunk idat (by omega)

theorem pngPushReadChunk_ends (kept : RowInvariant env format output I)
    (sound : Sound env format output I s) (pending : Pending s)
    (chunk : s.chunk.processMode = .readChunk) :
    Ends (pngPushReadChunk (withInput s b)) (Stepped env format output I b)
      (Failed env format output I s.hdr.mode.haveIDAT) := by
  have sig : s.chunk.processMode ≠ .readSig := by rw [chunk]; exact ProcessMode.noConfusion
  unfold pngPushReadChunk
  split
  · next header =>
    exact pngPushReadChunkBody_ends kept sound chunk (.inr ⟨rfl, pending chunk header⟩)
  next fresh =>
  have fresh : s.hdr.mode.haveChunkHeader = false := (Bool.not_eq_true _).mp fresh
  split
  · exact (sound.setInput _).saved (.fresh fresh)
  next long =>
  have left : (b.drop 8).length < b.length := by
    have long : ¬ b.length < 8 := long
    rw [List.length_drop]
    omega
  rw [readChunkHeader_live]
  split
  · exact sound.raised (by rfl) _
  rw [ok_bind]
  have sound' := sound.withHeader b
  have check := pngCheckChunkName_jump (withHeader s b).chunk.chunkName
  split
  · next jump named => exact sound.failed (check.failure named) rfl
  · exact pngPushReadChunkBody_ends kept (sound'.setHaveChunkHeader kept true sig) chunk (.inl left)

theorem pngPushReadIDAT_ends (kept : RowInvariant env format output I)
    (sound : Sound env format output I s) (reading : s.chunk.processMode = .readIDAT)
    (some : b ≠ []) :
    Ends (pngPushReadIDAT (withInput s b)) (Stepped env format output I b)
      (Failed env format output I s.hdr.mode.haveIDAT) := by
  have sig : s.chunk.processMode ≠ .readSig := by rw [reading]; exact ProcessMode.noConfusion
  unfold pngPushReadIDAT
  split
  · exact pngPushReadIDATBytes_ends kept sound reading (Nat.le_refl _) some
  next fresh =>
  have fresh : s.hdr.mode.haveChunkHeader = false := (Bool.not_eq_true _).mp fresh
  split
  · exact (sound.setInput _).saved (.fresh fresh)
  next long =>
  have left : (b.drop 8).length < b.length := by
    have long : ¬ b.length < 8 := long
    rw [List.length_drop]
    omega
  rw [readChunkHeader_live]
  split
  · exact sound.raised (by rfl) _
  rw [ok_bind]
  have sound' := (sound.withHeader b).setHaveChunkHeader kept true sig
  dsimp only
  split
  · next other =>
    split
    · exact sound.raised (by rfl) _
    · refine ⟨⟨sound'.consistent, nofun, fun none => ⟨(sound'.start none).1, .inr rfl⟩,
        sound'.image, sound'.going reading nofun⟩, fun _ _ => other, .inr ⟨_, rfl, left⟩⟩
  · have sound'' : Sound env format output I { (withHeader s b).setHaveChunkHeader true with
        chunk := { (withHeader s b).chunk with idatSize := (withHeader s b).chunk.pushLength } } :=
      ⟨sound'.consistent, sound'.signature, sound'.start, sound'.image, sound'.done⟩
    exact pngPushReadIDATBytes_ends kept sound'' reading (Nat.le_of_lt left) some

theorem pngProcessSomeData_ends (kept : RowInvariant env format output I)
    (sound : Sound env format output I s) (pending : Pending s) (some : b ≠ []) :
    Ends (pngProcessSomeData (withInput s b)) (Stepped env format output I b)
      (Failed env format output I s.hdr.mode.haveIDAT) := by
  unfold pngProcessSomeData
  cases mode : s.chunk.processMode with
  | readSig =>
    rw [show (withInput s b).chunk.processMode = .readSig from mode]
    exact pngPushReadSig_ends sound mode some
  | readChunk =>
    rw [show (withInput s b).chunk.processMode = .readChunk from mode]
    exact pngPushReadChunk_ends kept sound pending mode
  | readIDAT =>
    rw [show (withInput s b).chunk.processMode = .readIDAT from mode]
    exact pngPushReadIDAT_ends kept sound mode some
  | readDone =>
    rw [show (withInput s b).chunk.processMode = .readDone from mode]
    exact ⟨sound.setInput _, pending, .inl rfl⟩

/-! ## Runs -/

structure Between (env : Env) (format : ColorFormat) (output : List UInt8)
    (I : Header → Rows → Prop) (s : Png env) : Prop where
  sound : Sound env format output I s
  pending : Pending s
  input : s.input.bufferSize = 0 ∨ ∃ b, s.input = live b

/-- The states that `Decode` passes through on the input `x`. -/
def Reached (env : Env) (x : List UInt8) (format : ColorFormat) (output : List UInt8) :
    Png env → Prop :=
  Reaches bufferEmpty pngProcessSomeData (withInput (pngCreateReadStruct env format output) x)

theorem processInput_iterate (x : List UInt8) : processInput env x format output =
    iterate bufferEmpty pngProcessSomeData (fun s => (Jump.outOfFuel, s)) x.length
      (withInput (pngCreateReadStruct env format output) x) := rfl

theorem between_start (env : Env) (format : ColorFormat) (output : List UInt8)
    (I : Header → Rows → Prop) (x : List UInt8) :
    Between env format output I (withInput (pngCreateReadStruct env format output) x) where
  sound := by
    have transparency : initHeader.infoValidTRNS = true ↔ 0 < initHeader.numTrans := by decide
    exact ⟨⟨nofun, fun _ => ⟨rfl, rfl⟩, transparency, nofun, nofun, nofun⟩,
      fun _ => ⟨by exact Nat.succ_pos 7, rfl⟩, fun _ => ⟨rfl, .inl rfl⟩, nofun, rfl⟩
  pending := nofun
  input := .inr ⟨x, rfl⟩

theorem Stepped.between (stepped : Stepped env format output I b s) :
    Between env format output I s :=
  ⟨stepped.1, stepped.2.1, stepped.2.2.imp_right fun ⟨c, input, _⟩ => ⟨c, input⟩⟩

theorem Between.step (kept : RowInvariant env format output I)
    (between : Between env format output I s) (more : bufferEmpty s = false) :
    Ends (pngProcessSomeData s)
      (fun s' => Between env format output I s' ∧ s'.input.bufferSize < s.input.bufferSize)
      (Failed env format output I s.hdr.mode.haveIDAT) := by
  rw [bufferEmpty, decide_eq_false_iff_not] at more
  obtain ⟨b, input⟩ := between.input.resolve_left more
  have long : s.input.bufferSize = b.length := congrArg Input.bufferSize input
  have some : b ≠ [] := by
    intro empty
    rw [empty] at long
    exact more long
  have same : withInput s b = s := by rw [withInput, ← input]
  have step := pngProcessSomeData_ends kept between.sound between.pending some
  rw [same] at step
  refine step.mono (fun s' stepped => ⟨stepped.between, ?_⟩) fun _ failed => failed
  rcases stepped.2.2 with empty | ⟨c, input', shorter⟩
  · omega
  · have := congrArg Input.bufferSize input'
    rw [long, this]
    exact shorter

theorem Reached.between (kept : RowInvariant env format output I) {x : List UInt8}
    (reached : Reached env x format output s) : Between env format output I s :=
  reached.invariant (fun _ _ holds more step => ((holds.step kept more).result step).1)
    (between_start ..)

theorem processInput_ends (kept : RowInvariant env format output I) (x : List UInt8) :
    Ends (processInput env x format output)
      (fun s => Between env format output I s ∧ bufferEmpty s = true)
      (fun e => ∃ started, Failed env format output I started e) := by
  rw [processInput_iterate]
  refine iterate_ends (fun s => s.input.bufferSize) (fun s holds more => ?_) (fun s _ more => ?_) _ _
    (between_start ..) (Nat.le_refl _)
  · exact (holds.step kept more).mono (fun _ after => after) fun _ failed => ⟨_, failed⟩
  · simp only [bufferEmpty, decide_eq_false_iff_not] at more
    omega

theorem any_invariant (env : Env) (format : ColorFormat) (output : List UInt8) :
    RowInvariant env format output fun _ _ => True where
  kept _ := ⟨fun _ _ _ _ => trivial, fun _ _ _ _ _ _ _ => trivial⟩
  mode _ _ _ _ _ := trivial
  first _ _ _ := trivial
  ended _ _ _ := trivial

/-- The loops of the reader end, within as many rounds as the code's own counters allow. -/
theorem processInput_returns (env : Env) (x : List UInt8) (format : ColorFormat)
    (output : List UInt8) (s : Png env) :
    processInput env x format output ≠ .error (.outOfFuel, s) := by
  intro failed
  obtain ⟨started, fails⟩ := (processInput_ends (any_invariant env format output) x).failure failed
  exact fails.jump rfl

theorem processInput_failure (kept : RowInvariant env format output I) {x : List UInt8}
    {e : Jump × Png env} (failed : processInput env x format output = .error e) :
    ∃ s, Reached env x format output s ∧ bufferEmpty s = false ∧ pngProcessSomeData s = .error e ∧
      Failed env format output I s.hdr.mode.haveIDAT e := by
  obtain ⟨started, fails⟩ := (processInput_ends kept x).failure failed
  rw [processInput_iterate] at failed
  obtain ⟨s, reached, more, step | fuel⟩ := iterate_failure failed
  · have between : Between env format output I s := Reached.between kept reached
    exact ⟨s, reached, more, step, (between.step kept more).failure step⟩
  · exact absurd (congrArg Prod.fst fuel) fails.jump

theorem Reached.result {x : List UInt8} (reached : Reached env x format output s)
    (now : bufferEmpty s = true) : processInput env x format output = .ok s :=
  reached.iterate_ok now (processInput_returns env x format output)

theorem Reached.failure {x : List UInt8} {e : Jump × Png env}
    (reached : Reached env x format output s) (more : bufferEmpty s = false)
    (failed : pngProcessSomeData s = .error e) : processInput env x format output = .error e :=
  reached.iterate_error more failed (processInput_returns env x format output)

/-! ## The result -/

section Result
variable {x : List UInt8} {w h : Int}

theorem decode_refused (refused : build x = false) :
    decode env x format output w h = ⟨false, output, w, h⟩ := by
  simp [decode, refused]

theorem decode_complete (built : build x = true)
    (result : processInput env x format output = .ok s) (done : s.rows.app.done = true) :
    decode env x format output w h =
      ⟨true, s.rows.app.output, s.rows.app.width, s.rows.app.height⟩ := by
  simp [decode, built, result, done]

theorem decode_incomplete (built : build x = true)
    (result : processInput env x format output = .ok s) (open' : s.rows.app.done = false) :
    decode env x format output w h = ⟨false, [], w, h⟩ := by
  simp [decode, built, result, open']

theorem decode_true (succeeded : (decode env x format output w h).result = true) :
    build x = true ∧ ∃ s, processInput env x format output = .ok s ∧ s.rows.app.done = true ∧
      decode env x format output w h =
        ⟨true, s.rows.app.output, s.rows.app.width, s.rows.app.height⟩ := by
  unfold decode at succeeded ⊢
  split at succeeded
  · cases succeeded
  next built =>
  have built : build x = true := by simpa using built
  rw [built, Bool.not_true, if_neg Bool.false_ne_true]
  cases result : processInput env x format output with
  | error e => rw [result] at succeeded; cases succeeded
  | ok s =>
    rw [result] at succeeded
    cases done : s.rows.app.done with
    | false => simp [done] at succeeded
    | true => exact ⟨rfl, s, rfl, done, by simp [done]⟩

theorem decode_false (failed : (decode env x format output w h).result = false) :
    (build x = false ∧ decode env x format output w h = ⟨false, output, w, h⟩) ∨
      build x = true ∧
        ((∃ e, processInput env x format output = .error e ∧
            decode env x format output w h = ⟨false, e.2.rows.app.output, w, h⟩) ∨
          ∃ s, processInput env x format output = .ok s ∧
            decode env x format output w h = ⟨false, [], w, h⟩) := by
  unfold decode at failed ⊢
  cases built : build x with
  | false => exact .inl ⟨rfl, rfl⟩
  | true =>
    rw [built] at failed
    refine .inr ⟨rfl, ?_⟩
    cases result : processInput env x format output with
    | error e => exact .inl ⟨e, rfl, rfl⟩
    | ok s =>
      rw [result] at failed
      refine .inr ⟨s, rfl, ?_⟩
      cases done : s.rows.app.done with
      | false => simp [done]
      | true => simp [done] at failed

end Result

theorem Sound.done_image (sound : Sound env format output I s) (done : s.rows.app.done = true) :
    s.hdr.mode.haveIDAT = true := by
  by_contra none
  rw [(sound.start (by simpa using none)).1] at done
  cases done

end PngDecode.Decoder
