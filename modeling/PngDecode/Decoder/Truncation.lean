import PngDecode.Decoder.Tokens

/-! # Truncated files and trailing bytes

Of a file that is decoded, only the part up to the end of its `IEND` chunk matters, and all of
that part is needed: what follows changes nothing, and a file cut anywhere before is incomplete. -/

namespace PngDecode.Decoder
open PngDecode.Lib PngDecode.Libpng

variable {env : Env} {format : ColorFormat} {output b c p t x : List UInt8} {s s' : Png env}

theorem build_append (eight : t.length = 8) (c : List UInt8) :
    build (t ++ c) = !pngSigCmp t 0 8 := by
  have long : ¬ (t ++ c).length < 8 := by rw [List.length_append]; omega
  unfold build
  rw [if_neg long]
  unfold pngSigCmp
  simp only [List.drop_zero]
  rw [List.take_append_of_le_length (by simp [eight])]

theorem tokens_of_start (tokens : Tokens (pngCreateReadStruct env format output) t s)
    (done : s.chunk.processMode = .readDone) :
    ∃ sig rest, t = sig ++ rest ∧ sig.length = 8 ∧ pngSigCmp sig 0 8 = false ∧
      Token (pngCreateReadStruct env format output) sig
        (afterSig (pngCreateReadStruct env format output) sig) ∧
      Tokens (afterSig (pngCreateReadStruct env format output) sig) rest s := by
  cases tokens with
  | nil => cases done
  | cons _ token rest =>
    cases token with
    | signature mode eight same =>
      refine ⟨_, _, rfl, eight, ?_, .signature mode eight same, rest⟩
      rw [eight] at same
      exact same
    | start mode _ _ _ _ _ _ => cases mode
    | chunk mode _ _ _ _ _ => cases mode
    | body mode _ _ => cases mode
    | other mode _ _ _ _ _ => cases mode
    | data mode _ _ _ _ _ => cases mode
    | moreData mode _ _ => cases mode

theorem processInput_tokens (tokens : Tokens (pngCreateReadStruct env format output) t s)
    (done : s.chunk.processMode = .readDone) (y : List UInt8) :
    ∃ u, processInput env (t ++ y) format output = .ok u ∧ u.rows = s.rows := by
  have kept := any_invariant env format output
  have start := between_start env format output (fun _ _ => True) []
  have reached : Reached env (t ++ y) format output (withInput s y) :=
    tokens.whole kept (start.sound.setInput _) start.pending y
  by_cases none : y = []
  · rw [none] at reached ⊢
    exact ⟨_, reached.result rfl, rfl⟩
  · exact ⟨_, Reached.result (reached.snoc (bufferEmpty_some none) (step_readDone done y)) rfl, rfl⟩

theorem decode_tokens (tokens : Tokens (pngCreateReadStruct env format output) t s)
    (done : s.chunk.processMode = .readDone) (y : List UInt8) (w h : Int) :
    decode env (t ++ y) format output w h =
      ⟨true, s.rows.app.output, s.rows.app.width, s.rows.app.height⟩ := by
  have kept := any_invariant env format output
  have start := between_start env format output (fun _ _ => True) []
  obtain ⟨sound, -⟩ := tokens.sound kept (start.sound.setInput _) start.pending
  obtain ⟨u, result, rows⟩ := processInput_tokens tokens done y
  have built : build (t ++ y) = true := by
    obtain ⟨sig, rest, rfl, eight, same, -⟩ := tokens_of_start tokens done
    rw [List.append_assoc, build_append eight, same]
    rfl
  rw [decode_complete built result (by rw [rows, sound.done, done]; rfl), rows]

theorem decode_cut (tokens : Tokens (pngCreateReadStruct env format []) t s)
    (done : s.chunk.processMode = .readDone) (front : p <+: t) (less : p ≠ t) (w h : Int) :
    decode env p format [] w h = ⟨false, [], w, h⟩ := by
  have kept := any_invariant env format []
  have start := between_start env format [] (fun _ _ => True) []
  have sound : Sound env format [] (fun _ _ => True) (pngCreateReadStruct env format []) :=
    start.sound.setInput _
  obtain ⟨sig, rest, rfl, eight, same, first, later⟩ := tokens_of_start tokens done
  obtain ⟨sound', pending'⟩ := first.sound kept sound start.pending
  have proper : p.length < (sig ++ rest).length := by
    by_contra long
    exact less (front.eq_of_length_le (by omega))
  rcases prefix_append_cases front proper with few | ⟨q, rfl, front, short⟩
  · refine decode_refused ?_
    unfold build
    rw [if_pos (by omega)]
  · obtain ⟨v, reaches, empty, incomplete⟩ := later.cut kept sound' pending'
      (first.pastSignature kept sound) front short
    have reached : Reached env (sig ++ q) format [] v :=
      .step (bufferEmpty_some (List.append_ne_nil_of_left_ne_nil (first.some sound) q))
        (first.whole q) reaches
    refine decode_incomplete ?_ (reached.result empty) incomplete
    rw [build_append eight, same]
    rfl

theorem decode_prefix {w h : Int} (succeeded : (decode env x format [] w h).result = true) :
    ∃ x₀, x₀ <+: x ∧ (∀ y, decode env (x₀ ++ y) format [] w h = decode env x format [] w h) ∧
      ∀ p, p <+: x₀ → p ≠ x₀ → decode env p format [] w h = ⟨false, [], w, h⟩ := by
  have start := between_start env format [] (fun _ _ => True) []
  obtain ⟨-, s, result, done, -⟩ := decode_true succeeded
  obtain ⟨reaches, -⟩ := iterate_reaches result
  obtain ⟨x₀, c, u, rfl, tokens, mode, -⟩ := run_tokens (any_invariant env format [])
    (start.sound.setInput _) start.pending ProcessMode.noConfusion reaches done
  refine ⟨x₀, List.prefix_append _ _, fun y => ?_, fun p front less => ?_⟩
  · rw [decode_tokens tokens mode, decode_tokens tokens mode]
  · exact decode_cut tokens mode front less w h

theorem decode_prefix_pixelPng : ∃ x₀, x₀ <+: pixelPng ++ [1, 2, 3] ∧
    (∀ y, decode storedEnv (x₀ ++ y) .rgba [] 5 6 =
      decode storedEnv (pixelPng ++ [1, 2, 3]) .rgba [] 5 6) ∧
    ∀ p, p <+: x₀ → p ≠ x₀ → decode storedEnv p .rgba [] 5 6 = ⟨false, [], 5, 6⟩ :=
  decode_prefix (by decide +kernel)

end PngDecode.Decoder
